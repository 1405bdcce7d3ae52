/-
# WalBinary — segment files as bytes

A segment file opens with a magic and then holds one frame for each record: the length of
the record's message, a digest of it, and the message, which `wal_binary.rs` spells out
field by field and leaves the protobuf library to read.  Segments of earlier builds carry
another digest, or one JSON object a line.
-/
import MatrixRaft.WalStore
import MatrixRaft.Theory.Frames

namespace MatrixRaft
open Theory List Frames

/-! ## Digests -/

/-- Marks a segment of frames with a CRC-32C digest: `MRWC`. -/
def segmentMagic : Bytes := [77, 82, 87, 67]

/-- Marks a segment of frames with the older digest: `MRWB`. -/
def segmentMagicFnv : Bytes := [77, 82, 87, 66]

def frameBytes : Nat := 8

def crcBit (crc : UInt32) : UInt32 :=
  if crc &&& 1 = 1 then (crc >>> 1) ^^^ 0x82F63B78 else crc >>> 1

def crcByte (crc : UInt32) (byte : UInt8) : UInt32 := crcBit^[8] (crc ^^^ byte.toUInt32)

def crc32c (bytes : Bytes) : UInt32 := ~~~ (bytes.foldl crcByte 0xFFFFFFFF)

-- the published check value
example : crc32c [49, 50, 51, 52, 53, 54, 55, 56, 57] = 0xE3069283 := by decide +kernel

def fnv1a32 (bytes : Bytes) : UInt32 :=
  bytes.foldl (fun hash byte => (hash ^^^ byte.toUInt32) * 16777619) 2166136261

inductive FrameDigest where
  /-- `MRWB`, the first framed shape. -/
  | fnv1a32
  /-- `MRWC`, what is written now. -/
  | crc32c
  deriving DecidableEq

namespace FrameDigest

/-- The digest a segment's first bytes call for; none is a segment of JSON lines. -/
def fromSegment (bytes : Bytes) : Option FrameDigest :=
  if segmentMagic <+: bytes then some crc32c
  else if segmentMagicFnv <+: bytes then some fnv1a32
  else none

def of : FrameDigest → Bytes → UInt32
  | fnv1a32, bytes => MatrixRaft.fnv1a32 bytes
  | crc32c, bytes => MatrixRaft.crc32c bytes

end FrameDigest

/-! ## Checksums -/

def fnvBasis : UInt64 := 14695981039346656037

def fnvByte (hash : UInt64) (byte : UInt8) : UInt64 := (hash ^^^ byte.toUInt64) * 1099511628211

def fnvMix (hash : UInt64) (value : Nat) : UInt64 := (littleEndian 8 value).foldl fnvByte hash

variable (record : WalRecord)

def walChecksumValues (coverMembership coverPayloads : Bool) : List Nat :=
  [record.groupId, record.nodeId, record.hardState.currentTerm, record.hardState.votedFor.getD 0]
    ++ (record.hardState.committed.toList.flatMap fun committed => [committed.term, committed.index])
    ++ (record.entries.flatMap fun entry =>
      [entry.term, entry.index, entry.payload.length] ++
        if coverPayloads then [(entry.payload.foldl fnvByte fnvBasis).toNat] else [])
    ++ (if record.entriesAreDelta then [1] else [])
    ++ (record.installedSnapshot.toList.flatMap fun snapshot =>
      [snapshot.lastLogId.term, snapshot.lastLogId.index])
    ++ [record.applySnapshotFence.appliedIndex, record.applySnapshotFence.commitIndex,
      record.applySnapshotFence.installedSnapshotIndex,
      record.applySnapshotFence.firstRetainedLogIndex]
    ++ if coverMembership then
      [record.membership.groupId, record.membership.epoch] ++
        -- each list's length goes in before its members
        ([record.membership.voters, record.membership.learners,
          record.membership.witnesses].flatMap fun ids => ids.length :: ids)
    else []

def walChecksum (coverMembership coverPayloads : Bool) : Bytes :=
  hexText 16 ((walChecksumValues record coverMembership coverPayloads).foldl fnvMix fnvBasis).toNat

structure CheckedRecord where
  record : WalRecord
  checksum : Bytes
  deriving DecidableEq

def WalRecord.checked : CheckedRecord :=
  ⟨record, walChecksum record true true⟩

variable (checked : CheckedRecord)

/-- `matrixraft_wal_checksum_valid`: earlier builds covered less. -/
def CheckedRecord.checksumValid : Bool :=
  checked.checksum == walChecksum checked.record true true ||
    checked.checksum == walChecksum checked.record true false ||
    checked.checksum == walChecksum checked.record false false

/-- The number that sixteen lower-case hexadecimal characters spell. -/
def checksumAsU64 (checksum : Bytes) : Option UInt64 :=
  if checksum.length = 16 ∧ checksum.all isHexDigit then some (.ofNat (ofHexText checksum)) else none

def checksumToWire (checksum : Bytes) : Bytes × Option UInt64 :=
  match checksumAsU64 checksum with
  | some value => ([], some value)
  | none => (checksum, none)

def checksumFromWire (text : Bytes) : Option UInt64 → Bytes
  | some value => hexText 16 value.toNat
  | none => text

theorem checksumFromWire_checksumToWire (checksum : Bytes) :
    checksumFromWire (checksumToWire checksum).1 (checksumToWire checksum).2 = checksum := by
  unfold checksumToWire checksumAsU64
  split_ifs with number
  · obtain ⟨size, digits⟩ := number
    obtain ⟨spelled, small⟩ := hexText_ofHexText checksum digits
    rw [size] at spelled small
    show hexText 16 (UInt64.ofNat (ofHexText checksum)).toNat = checksum
    have fits : ofHexText checksum < 2 ^ 64 := small
    rw [UInt64.toNat_ofNat', Nat.mod_eq_of_lt fits, spelled]
  · rfl

/-! ## Messages -/

def utf8 (text : String) : Bytes := text.toUTF8.data.toList

def LogId.fields (logId : LogId) : Fields := numberField 1 logId.term ++ numberField 2 logId.index

def HardState.fields (state : HardState) : Fields :=
  numberField 1 state.currentTerm ++ optionalNumberField 2 state.votedFor ++
    optionalField 3 (state.committed.map fun logId => writeFields logId.fields)

def Membership.fields (membership : Membership) : Fields :=
  numberField 1 membership.groupId ++ packedField 2 membership.voters ++
    packedField 3 membership.learners ++ packedField 4 membership.witnesses ++
    numberField 5 membership.epoch

variable (entry : LogEntry)

def LogEntry.fields : Fields :=
  optionalField 1 (some (writeFields entry.logId.fields)) ++ bytesField 2 entry.payload ++
    numberField 3 entry.isCommand.toNat

def roleToWire : ReplicaRole → Nat
  | .voter => 0
  | .learner => 1
  | .witness => 2

def Peer.fields (peer : Peer) : Fields :=
  numberField 1 peer.nodeId ++ bytesField 2 (utf8 peer.raftAddr) ++
    bytesField 3 (utf8 peer.snapshotAddr) ++ numberField 4 (roleToWire peer.role) ++
    numberField 5 peer.autoPromote.toNat

variable (snapshot : SnapshotMetadata)

def SnapshotMetadata.fields : Fields :=
  bytesField 1 (utf8 snapshot.snapshotId) ++
    optionalField 2 (some (writeFields snapshot.lastLogId.fields)) ++
    packedField 3 snapshot.membership ++
    ((snapshot.members.map fun peer => writeFields peer.fields).map fun held =>
      (4, Field.bytes held)) ++
    numberField 5 snapshot.payloadBytes

def ApplySnapshotFence.fields (fence : ApplySnapshotFence) : Fields :=
  numberField 1 fence.appliedIndex ++ numberField 2 fence.commitIndex ++
    numberField 3 fence.installedSnapshotIndex ++ numberField 4 fence.firstRetainedLogIndex

def CheckedRecord.fields : Fields :=
  let record := checked.record
  numberField 1 record.groupId ++ numberField 2 record.nodeId ++
    optionalField 3 (some (writeFields record.hardState.fields)) ++
    optionalField 4 (some (writeFields record.membership.fields)) ++
    ((record.entries.map fun entry => writeFields entry.fields).map fun held =>
      (5, Field.bytes held)) ++
    numberField 6 record.entriesAreDelta.toNat ++
    optionalField 7 (record.installedSnapshot.map fun snapshot => writeFields snapshot.fields) ++
    optionalField 8 (some (writeFields record.applySnapshotFence.fields)) ++
    bytesField 9 (checksumToWire checked.checksum).1 ++
    optionalWordField 10 (checksumToWire checked.checksum).2

def encodeWalRecord : Bytes := writeFields checked.fields

/-! ## What the library makes of a message -/

structure LogEntryProto where
  logId : Option LogId
  payload : Payload
  isCommand : Bool
  deriving DecidableEq

structure PeerProto where
  nodeId : Nat
  (raftAddr snapshotAddr : String)
  role : Int
  autoPromote : Bool
  deriving DecidableEq

structure SnapshotMetadataProto where
  snapshotId : SnapshotId
  lastLogId : Option LogId
  membership : List Nat
  members : List PeerProto
  payloadBytes : Nat
  deriving DecidableEq

structure WalRecordProto where
  (groupId nodeId : Nat)
  hardState : Option HardState
  membership : Option Membership
  entries : List LogEntryProto
  entriesAreDelta : Bool
  installedSnapshot : Option SnapshotMetadataProto
  applySnapshotFence : Option ApplySnapshotFence
  checksum : Bytes
  checksumDigest : Option UInt64
  deriving DecidableEq

def missing (field : String) : RaftError := .storage (.recordMissing field)

def roleFromWire (value : Int) : Except RaftError ReplicaRole :=
  if value = 0 then .ok .voter
  else if value = 1 then .ok .learner
  else if value = 2 then .ok .witness
  else .error (.storage (.unknownReplicaRole value))

namespace LogEntryProto

def ofEntry : LogEntryProto := ⟨some entry.logId, entry.payload, entry.isCommand⟩

def toEntry (proto : LogEntryProto) : Except RaftError LogEntry :=
  match proto.logId with
  | none => .error (missing "an entry's log id")
  | some logId => .ok ⟨logId, proto.payload, proto.isCommand⟩

end LogEntryProto

namespace PeerProto

def ofPeer (peer : Peer) : PeerProto :=
  ⟨peer.nodeId, peer.raftAddr, peer.snapshotAddr, roleToWire peer.role, peer.autoPromote⟩

def toPeer (proto : PeerProto) : Except RaftError Peer :=
  (roleFromWire proto.role).map fun role =>
    ⟨proto.nodeId, proto.raftAddr, proto.snapshotAddr, role, proto.autoPromote⟩

end PeerProto

namespace SnapshotMetadataProto

def ofMetadata : SnapshotMetadataProto :=
  ⟨snapshot.snapshotId, some snapshot.lastLogId, snapshot.membership,
    snapshot.members.map PeerProto.ofPeer, snapshot.payloadBytes⟩

def toMetadata (proto : SnapshotMetadataProto) : Except RaftError SnapshotMetadata :=
  match proto.lastLogId with
  | none => .error (missing "the snapshot's last log id")
  | some lastLogId => (proto.members.mapM PeerProto.toPeer).map fun members =>
    ⟨proto.snapshotId, lastLogId, proto.membership, members, proto.payloadBytes⟩

end SnapshotMetadataProto

namespace WalRecordProto

def ofRecord : WalRecordProto where
  groupId := checked.record.groupId
  nodeId := checked.record.nodeId
  hardState := some checked.record.hardState
  membership := some checked.record.membership
  entries := checked.record.entries.map LogEntryProto.ofEntry
  entriesAreDelta := checked.record.entriesAreDelta
  installedSnapshot := checked.record.installedSnapshot.map SnapshotMetadataProto.ofMetadata
  applySnapshotFence := some checked.record.applySnapshotFence
  checksum := (checksumToWire checked.checksum).1
  checksumDigest := (checksumToWire checked.checksum).2

def toRecord (proto : WalRecordProto) : Except RaftError CheckedRecord := do
  let some hardState := proto.hardState | .error (missing "its hard state")
  let some membership := proto.membership | .error (missing "its membership")
  let some fence := proto.applySnapshotFence | .error (missing "its apply snapshot fence")
  let entries ← proto.entries.mapM LogEntryProto.toEntry
  let installedSnapshot ← proto.installedSnapshot.mapM SnapshotMetadataProto.toMetadata
  return {
    record := {
      groupId := proto.groupId
      nodeId := proto.nodeId
      hardState := hardState
      membership := membership
      entries := entries
      entriesAreDelta := proto.entriesAreDelta
      installedSnapshot := installedSnapshot
      applySnapshotFence := fence }
    checksum := checksumFromWire proto.checksum proto.checksumDigest }

end WalRecordProto

section RoundTrip

theorem LogEntryProto.toEntry_ofEntry : (LogEntryProto.ofEntry entry).toEntry = .ok entry := rfl

theorem PeerProto.toPeer_ofPeer (peer : Peer) : (PeerProto.ofPeer peer).toPeer = .ok peer := by
  obtain ⟨nodeId, raftAddr, snapshotAddr, role, autoPromote⟩ := peer
  cases role <;> rfl

theorem mapM_undoes {α β ε : Type} {make : α → β} {back : β → Except ε α}
    (undoes : ∀ value, back (make value) = .ok value) (values : List α) :
    (values.map make).mapM back = .ok values := by
  simpa [Checks.mapM_eq_ok] using fun value _ => undoes value

theorem SnapshotMetadataProto.toMetadata_ofMetadata :
    (SnapshotMetadataProto.ofMetadata snapshot).toMetadata = .ok snapshot := by
  rw [toMetadata, ofMetadata]
  simp only [mapM_undoes PeerProto.toPeer_ofPeer]
  rfl

theorem WalRecordProto.toRecord_ofRecord :
    (WalRecordProto.ofRecord checked).toRecord = .ok checked := by
  have entries := mapM_undoes LogEntryProto.toEntry_ofEntry checked.record.entries
  have snapshot : (checked.record.installedSnapshot.map SnapshotMetadataProto.ofMetadata).mapM
      SnapshotMetadataProto.toMetadata = .ok checked.record.installedSnapshot := by
    cases checked.record.installedSnapshot with
    | none => rfl
    | some => simp [SnapshotMetadataProto.toMetadata_ofMetadata]
  have checksum := checksumFromWire_checksumToWire checked.checksum
  simp only [toRecord, ofRecord, entries, snapshot, checksum]
  rfl

end RoundTrip

/-! ## Frames -/

/-- The libraries that read a record back. -/
structure WalReader where
  /-- `prost`'s decoder of the message, or why it refuses. -/
  decode : Bytes → Except String WalRecordProto
  /-- `serde_json`'s reader of one line. -/
  json : Bytes → Option CheckedRecord

/-- What the libraries are documented to do. -/
structure WalReader.Lawful (reader : WalReader) : Prop where
  decode_encode : ∀ checked, reader.decode (encodeWalRecord checked) = .ok (.ofRecord checked)
  /-- No JSON value opens with the first byte of the magic. -/
  json_magic : ∀ line : Bytes, line.head? = segmentMagic.head? → reader.json line = none

/-- A message with its length and its CRC-32C in front. -/
def frame (body : Bytes) : Bytes :=
  littleEndian 4 body.length ++ littleEndian 4 (crc32c body).toNat ++ body

def encodeFramed : Except RaftError Bytes :=
  let body := encodeWalRecord checked
  if body.length < 2 ^ 32 then .ok (frame body) else .error (.storage .frameTooLong)

def recordFrame : Bytes := frame (encodeWalRecord record.checked)

def frameLength : Option Nat :=
  (encodeFramed record.checked).toOption.map List.length

section Decoding
variable (reader : WalReader)

def decodeFramed (digestKind : FrameDigest) (bytes : Bytes) :
    Except RaftError (Option (CheckedRecord × Nat)) :=
  if bytes.length < frameBytes then .ok none
  else
    let length := ofLittleEndian (bytes.take 4)
    let digest := ofLittleEndian ((bytes.drop 4).take 4)
    let stop := frameBytes + length
    if bytes.length < stop then .ok none
    else
      let isLast := decide (stop = bytes.length)
      let trailing := bytes.length - stop
      let body := (bytes.drop frameBytes).take length
      if (digestKind.of body).toNat ≠ digest then
        if isLast then .ok none else .error (.storage (.frameDigestFails length trailing))
      else match reader.decode body with
        | .error cause =>
          if isLast then .ok none
          else .error (.storage (.frameUndecodable length cause trailing))
        | .ok proto => proto.toRecord.map fun checked => some (checked, stop)

def nextRecord (digestKind : FrameDigest) (bytes : Bytes) :
    Except RaftError (Option (WalRecord × Bytes)) :=
  match decodeFramed reader digestKind bytes with
  | .error error => .error error
  | .ok none => .ok none
  | .ok (some (checked, used)) =>
    .ok (if checked.checksumValid then some (checked.record, bytes.drop used) else none)

structure SegmentRead where
  records : List WalRecord
  /-- The file did not end with a whole record and was cut back. -/
  (truncated legacy : Bool)
  deriving DecidableEq

def readLegacyLines : List Bytes → List WalRecord × Bool
  | [] => ([], false)
  | line :: lines =>
    if line = [] then readLegacyLines lines
    else match reader.json line with
      | none => ([], true)
      | some checked =>
        if checked.checksumValid then
          (checked.record :: (readLegacyLines lines).1, (readLegacyLines lines).2)
        else ([], true)

def readLegacyJsonSegment (bytes : Bytes) : SegmentRead :=
  let (records, truncated) := readLegacyLines reader (bytes.splitOn 10)
  ⟨records, truncated, true⟩

def readWalSegmentFile (bytes : Bytes) : Except RaftError SegmentRead :=
  match FrameDigest.fromSegment bytes with
  | none => .ok (readLegacyJsonSegment reader bytes)
  | some digestKind =>
    match scan (fun _ => nextRecord reader digestKind)
        (fun _ record => Attempt.update (· ++ [record])) (bytes.length + 1) segmentMagicLen
        (bytes.drop segmentMagicLen) [] with
    | (.error error, _) => .error error
    | (.ok stop, records) =>
      .ok ⟨records, decide (stop ≠ bytes.length), decide (digestKind ≠ .crc32c)⟩

def readDirectory (files : Cabinet Bytes) : Except RaftError (WalDirectory × Bool) := do
  let reads ← files.mapM fun entry =>
    (readWalSegmentFile reader entry.2).map fun read => (entry.1, read)
  return (reads.map fun entry => (entry.1, ⟨entry.2.records, entry.2.records.length⟩),
    reads.any fun entry => entry.2.truncated)

/-- `open_recovered` on the bytes of a directory; the flag is `truncated_corrupt_tail`. -/
def openDirectory (options : PersistentRaftWalOptions) (files : Cabinet Bytes) :
    Except RaftError (PersistentRaftWal × WalRecoveryReport × Bool) := do
  options.validate
  let (dir, truncatedCorruptTail) ← readDirectory reader files
  let (wal, report) ← PersistentRaftWal.openRecovered options ⟨dir, []⟩
  return (wal, report, truncatedCorruptTail)

/-! ## Written frames are read back -/

variable {reader}

theorem length_frame (body : Bytes) : (frame body).length = frameBytes + body.length := by
  rw [frame, length_append, length_append, length_littleEndian, length_littleEndian]
  rfl

theorem frameLength_eq_some {record : WalRecord} (fits : (frameLength record).isSome) :
    (encodeWalRecord record.checked).length < 2 ^ 32 := by
  by_contra long
  rw [frameLength, encodeFramed, if_neg long] at fits
  cases fits

theorem frame_parts {body : Bytes} (short : body.length < 2 ^ 32) (rest : Bytes) :
    ofLittleEndian ((frame body ++ rest).take 4) = body.length ∧
      ofLittleEndian (((frame body ++ rest).drop 4).take 4) = (crc32c body).toNat ∧
      (frame body ++ rest).drop frameBytes = body ++ rest := by
  refine ⟨?_, ?_, ?_⟩
  · simp [frame, ofLittleEndian_littleEndian 4 _ short]
  · simp [frame, ofLittleEndian_littleEndian 4 _ (crc32c body).toNat_lt]
  · rfl

theorem checksumValid_checked : record.checked.checksumValid = true := by
  simp [CheckedRecord.checksumValid, WalRecord.checked]

/-- **A written frame is read back**, whatever comes after it. -/
theorem decodeFramed_frame (lawful : reader.Lawful) {checked : CheckedRecord}
    (short : (encodeWalRecord checked).length < 2 ^ 32) (rest : Bytes) :
    decodeFramed reader .crc32c (frame (encodeWalRecord checked) ++ rest)
      = .ok (some (checked, (frame (encodeWalRecord checked)).length)) := by
  obtain ⟨length, digest, body⟩ := frame_parts short rest
  have size := length_frame (encodeWalRecord checked)
  rw [decodeFramed, if_neg (by rw [length_append, size]; omega)]
  simp only [length, digest, body]
  rw [if_neg (by rw [length_append, size]; omega), take_left' rfl,
    if_neg (by rw [FrameDigest.of]; exact fun wrong => wrong rfl), lawful.decode_encode, size]
  simp only [WalRecordProto.toRecord_ofRecord]
  rfl

theorem nextRecord_torn {record : WalRecord} (fits : (frameLength record).isSome) {kept : Nat}
    (cut : kept < (recordFrame record).length) :
    nextRecord reader .crc32c ((recordFrame record).take kept) = .ok none := by
  have size : ((recordFrame record).take kept).length = kept :=
    length_take_of_le (le_of_lt cut)
  have decoded : decodeFramed reader .crc32c ((recordFrame record).take kept) = .ok none := by
    rw [decodeFramed, size]
    split
    · rfl
    next header =>
      have length : ofLittleEndian (((recordFrame record).take kept).take 4)
          = (encodeWalRecord record.checked).length := by
        have parts := (frame_parts (frameLength_eq_some fits) []).1
        rw [append_nil] at parts
        rw [take_take, min_eq_left (by unfold frameBytes at header; omega)]
        exact parts
      simp only [length]
      rw [if_pos]
      rw [recordFrame, length_frame] at cut
      exact cut
  rw [nextRecord, decoded]

theorem framing_records (lawful : reader.Lawful) :
    Framing (fun record => (frameLength record).isSome) recordFrame
      (fun _ => nextRecord reader .crc32c) where
  nonempty record _ := by
    refine ne_nil_of_length_pos ?_
    rw [recordFrame, length_frame]
    exact Nat.lt_of_lt_of_le (by decide) (Nat.le_add_right frameBytes _)
  whole _ record rest fits := by
    rw [nextRecord, recordFrame, decodeFramed_frame lawful (frameLength_eq_some fits)]
    simp only [checksumValid_checked, if_pos, drop_left' rfl]
    rfl
  torn _ record kept fits _ _ cut := nextRecord_torn fits cut

def segmentWith (records : List WalRecord) (tail : Bytes) : Bytes :=
  segmentMagic ++ (written recordFrame records ++ tail)

abbrev scanTail (reader : WalReader) (records : List WalRecord) (tail : Bytes) (fuel : Nat) :
    Except RaftError Nat × List WalRecord :=
  scan (fun _ => nextRecord reader .crc32c) (fun _ record => Attempt.update (· ++ [record]))
    (fuel + 1) (segmentMagicLen + (written recordFrame records).length) tail records

theorem scan_segmentWith (lawful : reader.Lawful) {records : List WalRecord}
    (fits : ∀ record ∈ records, (frameLength record).isSome) (tail : Bytes) :
    ∃ fuel, scan (fun _ => nextRecord reader .crc32c)
        (fun _ record => Attempt.update (· ++ [record]))
        ((segmentWith records tail).length + 1) segmentMagicLen
        ((segmentWith records tail).drop segmentMagicLen) []
      = scanTail reader records tail fuel := by
  have framing := framing_records lawful
  have few := length_le_written framing fits
  have size : (segmentWith records tail).length
      = segmentMagicLen + ((written recordFrame records).length + tail.length) := by
    rw [segmentWith, length_append, length_append]
    rfl
  obtain ⟨fuel, enough⟩ : ∃ fuel, (segmentWith records tail).length + 1
      = fuel + 1 + records.length :=
    ⟨(segmentWith records tail).length - records.length, by omega⟩
  refine ⟨fuel, ?_⟩
  have magic : (segmentMagic ++ (written recordFrame records ++ tail)).drop segmentMagicLen
      = written recordFrame records ++ tail := drop_left' rfl
  rw [enough, segmentWith, magic, scan_append framing fits,
    Attempt.bind_ok (forEachAt_collect _ _ _), nil_append]

theorem fromSegment_segmentWith (records : List WalRecord) (tail : Bytes) :
    FrameDigest.fromSegment (segmentWith records tail) = some .crc32c :=
  if_pos (prefix_append _ _)

section
variable (lawful : reader.Lawful) {records : List WalRecord}
  (fits : ∀ record ∈ records, (frameLength record).isSome) {tail : Bytes}
include lawful fits

theorem readWalSegmentFile_stops (stops : tail = [] ∨ nextRecord reader .crc32c tail = .ok none) :
    ∃ truncated, readWalSegmentFile reader (segmentWith records tail)
      = .ok ⟨records, truncated, false⟩ := by
  obtain ⟨fuel, scanned⟩ := scan_segmentWith lawful fits tail
  have stopped : scanTail reader records tail fuel
      = (.ok (segmentMagicLen + (written recordFrame records).length), records) := by
    rw [scanTail, scan]
    split
    · rfl
    next present => rw [stops.resolve_left present]; rfl
  rw [readWalSegmentFile, fromSegment_segmentWith]
  simp only [scanned, stopped]
  exact ⟨_, rfl⟩

theorem readWalSegmentFile_refuses {error : RaftError}
    (present : tail ≠ []) (refuses : nextRecord reader .crc32c tail = .error error) :
    readWalSegmentFile reader (segmentWith records tail) = .error error := by
  obtain ⟨fuel, scanned⟩ := scan_segmentWith lawful fits tail
  have failed : scanTail reader records tail fuel = (.error error, records) := by
    rw [scanTail, scan, if_neg present, refuses]
    rfl
  rw [readWalSegmentFile, fromSegment_segmentWith]
  simp only [scanned, failed]

end

theorem readWalSegmentFile_magic (lawful : reader.Lawful) {size : Nat}
    (short : size < segmentMagicLen) :
    ∃ truncated, readWalSegmentFile reader (segmentMagic.take size) = .ok ⟨[], truncated, true⟩ := by
  unfold segmentMagicLen at short
  have unframed : FrameDigest.fromSegment (segmentMagic.take size) = none := by
    interval_cases size <;> decide
  have lines : (segmentMagic.take size).splitOn 10 = [segmentMagic.take size] := by
    interval_cases size <;> rfl
  rw [readWalSegmentFile, unframed]
  simp only [readLegacyJsonSegment, lines, readLegacyLines]
  rcases size with _ | size
  · exact ⟨false, rfl⟩
  have refused : reader.json (segmentMagic.take (size + 1)) = none := lawful.json_magic _ rfl
  rw [if_neg (by simp [segmentMagic]), refused]
  exact ⟨true, rfl⟩

end Decoding

/-! ## The protobuf format -/

section Format

def logIdCodec : Codec LogId :=
  .ofFields LogId.fields (fun fields => some ⟨numberAt 1 fields, numberAt 2 fields⟩)
    (fun logId => by simp [LogId.fields, numberAt])

@[simp] theorem logIdCodec_decode (logId : LogId) :
    logIdCodec.decode (writeFields logId.fields) = some logId :=
  logIdCodec.decode_encode logId

def hardStateCodec : Codec HardState :=
  .ofFields HardState.fields
    (fun fields => do
      some ⟨numberAt 1 fields, (numbersAt 2 fields).getLast?, ← messageAt logIdCodec 3 fields⟩)
    (fun state => by
      obtain ⟨currentTerm, votedFor, committed⟩ := state
      cases committed <;> simp [HardState.fields, messageAt, numberAt])

def membershipCodec : Codec Membership :=
  .ofFields Membership.fields
    (fun fields => do
      some ⟨numberAt 1 fields, ← packedAt 2 fields, ← packedAt 3 fields, ← packedAt 4 fields,
        numberAt 5 fields⟩)
    (fun membership => by
      simp [Membership.fields, numberAt, blobAt, packedAt, packedField,
        -flatMap_eq_nil_iff, -length_flatMap])

def fenceCodec : Codec ApplySnapshotFence :=
  .ofFields ApplySnapshotFence.fields
    (fun fields => some ⟨numberAt 1 fields, numberAt 2 fields, numberAt 3 fields, numberAt 4 fields⟩)
    (fun fence => by simp [ApplySnapshotFence.fields, numberAt])

def textAt (tag : Nat) (fields : Fields) : Option String :=
  String.fromUTF8? ⟨(blobAt tag fields).toArray⟩

@[simp] theorem fromUTF8_utf8 (text : String) : String.fromUTF8? ⟨(utf8 text).toArray⟩ = some text := by
  simp [utf8, String.fromUTF8?, String.fromUTF8, String.toUTF8, text.isValidUTF8]

def decodeFields {α : Type} (ofFields : Fields → Option α) (input : Bytes) : Option α :=
  (readFields input).bind ofFields

@[simp] theorem decodeFields_writeFields {α : Type} (ofFields : Fields → Option α) (fields : Fields) :
    decodeFields ofFields (writeFields fields) = ofFields fields := by
  rw [decodeFields, readFields_writeFields, Option.bind_some]

def messagesAt {α : Type} (ofFields : Fields → Option α) (tag : Nat) (fields : Fields) :
    Option (List α) :=
  (bytesAt tag fields).mapM (decodeFields ofFields)

theorem mapM_decodeFields {α β : Type} {ofFields : Fields → Option β} {toFields : α → Fields}
    {make : α → β} {values : List α}
    (undoes : ∀ value ∈ values, ofFields (toFields value) = some (make value)) :
    (values.map fun value => writeFields (toFields value)).mapM (decodeFields ofFields)
      = some (values.map make) := by
  induction values with
  | nil => rfl
  | cons value values ih =>
    simp [undoes value mem_cons_self,
      ih fun value member => undoes value (mem_cons_of_mem _ member)]

variable (fields : Fields)

def LogEntryProto.ofFields : Option LogEntryProto := do
  some ⟨← messageAt logIdCodec 1 fields, blobAt 2 fields, numberAt 3 fields != 0⟩

theorem LogEntryProto.ofFields_fields :
    LogEntryProto.ofFields entry.fields = some (.ofEntry entry) := by
  simp [LogEntryProto.ofFields, LogEntry.fields, LogEntryProto.ofEntry, messageAt, blobAt, numberAt]

/-- An `i32` is the low half of the number it travels as. -/
def PeerProto.ofFields : Option PeerProto := do
  some ⟨numberAt 1 fields, ← textAt 2 fields, ← textAt 3 fields,
    Int.bmod (numberAt 4 fields) 4294967296, numberAt 5 fields != 0⟩

theorem PeerProto.ofFields_fields (peer : Peer) :
    PeerProto.ofFields peer.fields = some (.ofPeer peer) := by
  have role : Int.bmod (roleToWire peer.role) 4294967296 = roleToWire peer.role := by
    cases peer.role <;> decide
  simp [PeerProto.ofFields, Peer.fields, PeerProto.ofPeer, textAt, blobAt, numberAt, role]

def SnapshotMetadataProto.ofFields : Option SnapshotMetadataProto := do
  some ⟨← textAt 1 fields, ← messageAt logIdCodec 2 fields, ← packedAt 3 fields,
    ← messagesAt PeerProto.ofFields 4 fields, numberAt 5 fields⟩

theorem SnapshotMetadataProto.ofFields_fields :
    SnapshotMetadataProto.ofFields snapshot.fields = some (.ofMetadata snapshot) := by
  have members := @mapM_decodeFields _ _ _ _ _ snapshot.members fun peer _ =>
    PeerProto.ofFields_fields peer
  simp [SnapshotMetadataProto.ofFields, SnapshotMetadata.fields, SnapshotMetadataProto.ofMetadata,
    textAt, messageAt, messagesAt, members, packedAt, packedField, blobAt, numberAt,
    -flatMap_eq_nil_iff, -length_flatMap, -map_map]

def WalRecordProto.ofFields : Option WalRecordProto := do
  let snapshot ← match (bytesAt 7 fields).getLast? with
    | none => some none
    | some held => (decodeFields SnapshotMetadataProto.ofFields held).map some
  some
    { groupId := numberAt 1 fields
      nodeId := numberAt 2 fields
      hardState := ← messageAt hardStateCodec 3 fields
      membership := ← messageAt membershipCodec 4 fields
      entries := ← messagesAt LogEntryProto.ofFields 5 fields
      entriesAreDelta := numberAt 6 fields != 0
      installedSnapshot := snapshot
      applySnapshotFence := ← messageAt fenceCodec 8 fields
      checksum := blobAt 9 fields
      checksumDigest := (wordsAt 10 fields).getLast? }

theorem WalRecordProto.ofFields_fields :
    WalRecordProto.ofFields checked.fields = some (.ofRecord checked) := by
  obtain ⟨record, checksum⟩ := checked
  have log := @mapM_decodeFields _ _ _ _ _ record.entries fun entry _ =>
    LogEntryProto.ofFields_fields entry
  have state : hardStateCodec.decode (writeFields record.hardState.fields) = some record.hardState :=
    hardStateCodec.decode_encode record.hardState
  have members : membershipCodec.decode (writeFields record.membership.fields)
      = some record.membership := membershipCodec.decode_encode record.membership
  have applied : fenceCodec.decode (writeFields record.applySnapshotFence.fields)
      = some record.applySnapshotFence := fenceCodec.decode_encode record.applySnapshotFence
  cases held : record.installedSnapshot <;> cases digest : (checksumToWire checksum).2 <;>
    simp [WalRecordProto.ofFields, CheckedRecord.fields, WalRecordProto.ofRecord, messageAt,
      messagesAt, log, state, members, applied, held, digest, numberAt, blobAt,
      SnapshotMetadataProto.ofFields_fields, -map_map]

/-- A library that reads the protobuf format and no JSON. -/
def taggedFields : WalReader where
  decode input :=
    match decodeFields WalRecordProto.ofFields input with
    | some proto => .ok proto
    | none => .error "failed to decode Protobuf message"
  json _ := none

theorem taggedFields_lawful : taggedFields.Lawful where
  decode_encode checked := by
    simp only [taggedFields, encodeWalRecord, decodeFields_writeFields,
      WalRecordProto.ofFields_fields]
  json_magic _ _ := rfl

end Format
end MatrixRaft
