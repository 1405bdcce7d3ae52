/-
# WalEncode — the record writer, field by field

`encode_framed_into` does not build the message `prost` would encode: it adds up the length of
a record first, writes the head of the frame, and appends the fields by hand.  Here are both
passes as the source has them, and the mirror message they stand in for.
-/
import MatrixRaft.WalBinary
import MatrixRaft.Theory.Writer

namespace MatrixRaft
open Theory List SnapshotMetadataProto Uint64 WalRecordProto

/-! ## The mirror messages -/

def LogEntryProto.fields (proto : LogEntryProto) : Fields :=
  optionalField 1 (proto.logId.map fun logId => writeFields logId.fields) ++
    bytesField 2 proto.payload ++ numberField 3 proto.isCommand.toNat

/-- An `i32` travels as the 64-bit number with the same low bits. -/
def PeerProto.fields (proto : PeerProto) : Fields :=
  numberField 1 proto.nodeId ++ bytesField 2 (utf8 proto.raftAddr) ++
    bytesField 3 (utf8 proto.snapshotAddr) ++ numberField 4 (proto.role % 2 ^ 64).toNat ++
    numberField 5 proto.autoPromote.toNat

def SnapshotMetadataProto.fields (proto : SnapshotMetadataProto) : Fields :=
  bytesField 1 (utf8 proto.snapshotId) ++
    optionalField 2 (proto.lastLogId.map fun logId => writeFields logId.fields) ++
    packedField 3 proto.membership ++
    (proto.members.map fun peer => (4, Field.bytes (writeFields peer.fields))) ++
    numberField 5 proto.payloadBytes

/-- The message as `prost` writes it: in the order of the tags, defaults left out. -/
def WalRecordProto.fields (proto : WalRecordProto) : Fields :=
  numberField 1 proto.groupId ++ numberField 2 proto.nodeId ++
    optionalField 3 (proto.hardState.map fun state => writeFields state.fields) ++
    optionalField 4 (proto.membership.map fun membership => writeFields membership.fields) ++
    (proto.entries.map fun entry => (5, Field.bytes (writeFields entry.fields))) ++
    numberField 6 proto.entriesAreDelta.toNat ++
    optionalField 7 (proto.installedSnapshot.map fun snapshot => writeFields snapshot.fields) ++
    optionalField 8 (proto.applySnapshotFence.map fun fence => writeFields fence.fields) ++
    bytesField 9 proto.checksum ++ optionalWordField 10 proto.checksumDigest

theorem PeerProto.fields_ofPeer (peer : Peer) : (PeerProto.ofPeer peer).fields = peer.fields := by
  obtain ⟨nodeId, raftAddr, snapshotAddr, role, autoPromote⟩ := peer
  cases role <;> rfl

variable (snapshot : SnapshotMetadata)

theorem SnapshotMetadataProto.fields_ofMetadata :
    (SnapshotMetadataProto.ofMetadata snapshot).fields = snapshot.fields := by
  simp [fields, ofMetadata, SnapshotMetadata.fields,
    PeerProto.fields_ofPeer]

variable (checked : CheckedRecord)

theorem WalRecordProto.fields_ofRecord : (ofRecord checked).fields = checked.fields := by
  have snapshot : (checked.record.installedSnapshot.map ofMetadata).map
        (fun proto => writeFields proto.fields)
      = checked.record.installedSnapshot.map fun snapshot => writeFields snapshot.fields := by
    rw [Option.map_map]
    congr 1
    grind [fields_ofMetadata]
  simp only [fields, ofRecord, CheckedRecord.fields, snapshot,
    map_map, Function.comp_def, Option.map_some]
  rfl

namespace FrameWriter

/-! ## Fields -/

def messageLen (tag bodyLen : Nat) : Nat := keyLen tag + encodedLenVarint bodyLen + bodyLen

def encodeMessage (tag bodyLen : Nat) (encodeBody : Bytes → Bytes) (out : Bytes) : Bytes :=
  encodeBody (encodeVarint bodyLen (encodeKey tag 2 out))

def nonzeroU64Len (tag value : Nat) : Nat := if value = 0 then 0 else encodedLen tag value

def encodeNonzeroU64 (tag value : Nat) (out : Bytes) : Bytes :=
  if value ≠ 0 then encode tag value out else out

/-- The numbers of the roles are not negative, so an `i32` is written as a `u64` is. -/
def nonzeroI32Len (tag value : Nat) : Nat := nonzeroU64Len tag value

def encodeNonzeroI32 (tag value : Nat) (out : Bytes) : Bytes := encodeNonzeroU64 tag value out

def nonzeroBoolLen (tag : Nat) (value : Bool) : Nat :=
  if value then encodedLen tag value.toNat else 0

def encodeNonzeroBool (tag : Nat) (value : Bool) (out : Bytes) : Bytes :=
  if value then encode tag value.toNat out else out

def bytesLen (tag : Nat) (value : Bytes) : Nat :=
  if value = [] then 0 else keyLen tag + encodedLenVarint value.length + value.length

def encodeBytes (tag : Nat) (value out : Bytes) : Bytes :=
  if value = [] then out else encodeVarint value.length (encodeKey tag 2 out) ++ value

def stringLen (tag : Nat) (value : String) : Nat := bytesLen tag (utf8 value)

def encodeString (tag : Nat) (value : String) (out : Bytes) : Bytes := encodeBytes tag (utf8 value) out

/-! ## The parts of a record -/

def logIdEncodedLen (logId : LogId) : Nat := nonzeroU64Len 1 logId.term + nonzeroU64Len 2 logId.index

def encodeLogId (logId : LogId) (out : Bytes) : Bytes :=
  let out := encodeNonzeroU64 1 logId.term out
  encodeNonzeroU64 2 logId.index out

def hardStateEncodedLen (state : HardState) : Nat :=
  nonzeroU64Len 1 state.currentTerm + state.votedFor.elim 0 (encodedLen 2) +
    state.committed.elim 0 fun logId => messageLen 3 (logIdEncodedLen logId)

def encodeHardState (state : HardState) (out : Bytes) : Bytes :=
  let out := encodeNonzeroU64 1 state.currentTerm out
  let out := state.votedFor.elim out fun value => encode 2 value out
  state.committed.elim out fun logId => encodeMessage 3 (logIdEncodedLen logId) (encodeLogId logId) out

variable (membership : Membership)

def membershipEncodedLen : Nat :=
  nonzeroU64Len 1 membership.groupId + encodedLenPacked 2 membership.voters +
    encodedLenPacked 3 membership.learners + encodedLenPacked 4 membership.witnesses +
    nonzeroU64Len 5 membership.epoch

def encodeMembership (out : Bytes) : Bytes :=
  let out := encodeNonzeroU64 1 membership.groupId out
  let out := encodePacked 2 membership.voters out
  let out := encodePacked 3 membership.learners out
  let out := encodePacked 4 membership.witnesses out
  encodeNonzeroU64 5 membership.epoch out

def logEntryEncodedLen (entry : LogEntry) : Nat :=
  messageLen 1 (logIdEncodedLen entry.logId) + bytesLen 2 entry.payload +
    nonzeroBoolLen 3 entry.isCommand

def encodeLogEntry (entry : LogEntry) (out : Bytes) : Bytes :=
  let out := encodeMessage 1 (logIdEncodedLen entry.logId) (encodeLogId entry.logId) out
  let out := encodeBytes 2 entry.payload out
  encodeNonzeroBool 3 entry.isCommand out

def peerEncodedLen (peer : Peer) : Nat :=
  nonzeroU64Len 1 peer.nodeId + stringLen 2 peer.raftAddr + stringLen 3 peer.snapshotAddr +
    nonzeroI32Len 4 (roleToWire peer.role) + nonzeroBoolLen 5 peer.autoPromote

def encodePeer (peer : Peer) (out : Bytes) : Bytes :=
  let out := encodeNonzeroU64 1 peer.nodeId out
  let out := encodeString 2 peer.raftAddr out
  let out := encodeString 3 peer.snapshotAddr out
  let out := encodeNonzeroI32 4 (roleToWire peer.role) out
  encodeNonzeroBool 5 peer.autoPromote out

def snapshotMetadataEncodedLen : Nat :=
  stringLen 1 snapshot.snapshotId + messageLen 2 (logIdEncodedLen snapshot.lastLogId) +
    encodedLenPacked 3 snapshot.membership +
    (snapshot.members.map fun peer => messageLen 4 (peerEncodedLen peer)).sum +
    nonzeroU64Len 5 snapshot.payloadBytes

def encodeSnapshotMetadata (out : Bytes) : Bytes :=
  let out := encodeString 1 snapshot.snapshotId out
  let out := encodeMessage 2 (logIdEncodedLen snapshot.lastLogId) (encodeLogId snapshot.lastLogId) out
  let out := encodePacked 3 snapshot.membership out
  let out := snapshot.members.foldl
    (fun out peer => encodeMessage 4 (peerEncodedLen peer) (encodePeer peer) out) out
  encodeNonzeroU64 5 snapshot.payloadBytes out

variable (fence : ApplySnapshotFence)

def fenceEncodedLen : Nat :=
  nonzeroU64Len 1 fence.appliedIndex + nonzeroU64Len 2 fence.commitIndex +
    nonzeroU64Len 3 fence.installedSnapshotIndex + nonzeroU64Len 4 fence.firstRetainedLogIndex

def encodeFence (out : Bytes) : Bytes :=
  let out := encodeNonzeroU64 1 fence.appliedIndex out
  let out := encodeNonzeroU64 2 fence.commitIndex out
  let out := encodeNonzeroU64 3 fence.installedSnapshotIndex out
  encodeNonzeroU64 4 fence.firstRetainedLogIndex out

/-! ## Records -/

def checksumLen (checksum : Bytes) : Option UInt64 → Nat
  | some _ => Fixed64.encodedLen 10
  | none => if checksum ≠ [] then Text.encodedLen 9 checksum else 0

def encodeChecksum (checksum out : Bytes) : Option UInt64 → Bytes
  | some value => Fixed64.encode 10 value out
  | none => if checksum ≠ [] then Text.encode 9 checksum out else out

def walRecordEncodedLen (checksumDigest : Option UInt64) : Nat :=
  let record := checked.record
  nonzeroU64Len 1 record.groupId + nonzeroU64Len 2 record.nodeId +
    messageLen 3 (hardStateEncodedLen record.hardState) +
    messageLen 4 (membershipEncodedLen record.membership) +
    (record.entries.map fun entry => messageLen 5 (logEntryEncodedLen entry)).sum +
    nonzeroBoolLen 6 record.entriesAreDelta +
    (record.installedSnapshot.elim 0 fun snapshot =>
      messageLen 7 (snapshotMetadataEncodedLen snapshot)) +
    messageLen 8 (fenceEncodedLen record.applySnapshotFence) +
    checksumLen checked.checksum checksumDigest

def encodeWalRecord (checksumDigest : Option UInt64) (out : Bytes) : Bytes :=
  let record := checked.record
  let out := encodeNonzeroU64 1 record.groupId out
  let out := encodeNonzeroU64 2 record.nodeId out
  let out := encodeMessage 3 (hardStateEncodedLen record.hardState) (encodeHardState record.hardState) out
  let out := encodeMessage 4 (membershipEncodedLen record.membership)
    (encodeMembership record.membership) out
  let out := record.entries.foldl
    (fun out entry => encodeMessage 5 (logEntryEncodedLen entry) (encodeLogEntry entry) out) out
  let out := encodeNonzeroBool 6 record.entriesAreDelta out
  let out := record.installedSnapshot.elim out fun snapshot =>
    encodeMessage 7 (snapshotMetadataEncodedLen snapshot) (encodeSnapshotMetadata snapshot) out
  let out := encodeMessage 8 (fenceEncodedLen record.applySnapshotFence)
    (encodeFence record.applySnapshotFence) out
  encodeChecksum checked.checksum out checksumDigest

/-- The head is written with room for the digest, which is filled in last. -/
def encodeFramedInto : Except RaftError Bytes :=
  let checksumDigest := checksumAsU64 checked.checksum
  let bodyLen := walRecordEncodedLen checked checksumDigest
  if 2 ^ 32 ≤ bodyLen then .error (.storage .frameTooLong)
  else
    let out := encodeWalRecord checked checksumDigest (littleEndian 4 bodyLen ++ [0, 0, 0, 0])
    let digest := FrameDigest.crc32c.of (out.drop frameBytes)
    .ok (out.take 4 ++ littleEndian 4 digest.toNat ++ out.drop frameBytes)

/-! ## The two passes agree -/

theorem writes_nonzero (tag value : Nat) :
    Writes (nonzeroU64Len tag value) (encodeNonzeroU64 tag value) (numberField tag value) := by
  unfold nonzeroU64Len numberField
  by_cases zero : value = 0
  · rw [if_pos zero, if_pos zero]
    exact ⟨rfl, fun out => by simp [encodeNonzeroU64, zero]⟩
  rw [if_neg zero, if_neg zero]
  exact ⟨(writes_number tag value).length_eq, fun out => by
    rw [encodeNonzeroU64, if_pos zero, (writes_number tag value).write_eq]⟩

theorem writes_bool (tag : Nat) (value : Bool) :
    Writes (nonzeroBoolLen tag value) (encodeNonzeroBool tag value)
      (numberField tag value.toNat) := by
  cases value with
  | false => exact .nothing
  | true => exact writes_number tag 1

theorem writes_blob (tag : Nat) (value : Bytes) :
    Writes (bytesLen tag value) (encodeBytes tag value) (bytesField tag value) := by
  unfold bytesLen bytesField
  by_cases empty : value = []
  · rw [if_pos empty, if_pos empty]
    exact ⟨rfl, fun out => by simp [encodeBytes, empty]⟩
  rw [if_neg empty, if_neg empty]
  exact ⟨(writes_bytes tag value).length_eq, fun out => by
    rw [encodeBytes, if_neg empty, ← (writes_bytes tag value).write_eq, Text.encode]⟩

theorem writes_message {length : Nat} {write : Bytes → Bytes} {fields : Fields}
    (body : Writes length write fields) (tag : Nat) :
    Writes (messageLen tag length) (encodeMessage tag length write)
      (optionalField tag (some (writeFields fields))) := body.message tag

section
variable {α : Type} {length : α → Nat} {write : α → Bytes → Bytes} {fields : α → Fields}
  (body : ∀ value, Writes (length value) (write value) (fields value)) (tag : Nat)
include body tag

theorem writes_optional (value : Option α) :
    Writes (value.elim 0 fun held => messageLen tag (length held))
      (fun out => value.elim out fun held => encodeMessage tag (length held) (write held) out)
      (optionalField tag (value.map fun held => writeFields (fields held))) := by
  cases value with
  | none => exact .nothing
  | some value => exact writes_message (body value) tag

theorem writes_repeated (values : List α) :
    Writes (values.map fun value => messageLen tag (length value)).sum (fun out => values.foldl
        (fun out value => encodeMessage tag (length value) (write value) out) out)
      ((values.map fun value => writeFields (fields value)).map fun held =>
        (tag, Field.bytes held)) := by
  have every := Writes.each (fun value => (body value).message tag) values
  rw [← map_eq_flatMap] at every
  rw [map_map]
  exact every

end

theorem writes_logId (logId : LogId) :
    Writes (logIdEncodedLen logId) (encodeLogId logId) logId.fields :=
  (writes_nonzero 1 logId.term).append (writes_nonzero 2 logId.index)

theorem writes_hardState (state : HardState) :
    Writes (hardStateEncodedLen state) (encodeHardState state) state.fields := by
  have vote : Writes (state.votedFor.elim 0 (encodedLen 2))
      (fun out => state.votedFor.elim out fun value => encode 2 value out)
      (optionalNumberField 2 state.votedFor) := by
    cases state.votedFor with
    | none => exact .nothing
    | some value => exact writes_number 2 value
  exact ((writes_nonzero 1 state.currentTerm).append vote).append
    (writes_optional writes_logId 3 state.committed)

theorem writes_membership :
    Writes (membershipEncodedLen membership) (encodeMembership membership) membership.fields :=
  ((((writes_nonzero 1 membership.groupId).append (writes_packed 2 membership.voters)).append
    (writes_packed 3 membership.learners)).append (writes_packed 4 membership.witnesses)).append
    (writes_nonzero 5 membership.epoch)

theorem writes_logEntry (entry : LogEntry) :
    Writes (logEntryEncodedLen entry) (encodeLogEntry entry) entry.fields :=
  ((writes_message (writes_logId entry.logId) 1).append (writes_blob 2 entry.payload)).append
    (writes_bool 3 entry.isCommand)

theorem writes_peer (peer : Peer) : Writes (peerEncodedLen peer) (encodePeer peer) peer.fields :=
  ((((writes_nonzero 1 peer.nodeId).append (writes_blob 2 (utf8 peer.raftAddr))).append
    (writes_blob 3 (utf8 peer.snapshotAddr))).append (writes_nonzero 4 (roleToWire peer.role))).append
    (writes_bool 5 peer.autoPromote)

theorem writes_snapshotMetadata :
    Writes (snapshotMetadataEncodedLen snapshot) (encodeSnapshotMetadata snapshot)
      snapshot.fields :=
  ((((writes_blob 1 (utf8 snapshot.snapshotId)).append
    (writes_message (writes_logId snapshot.lastLogId) 2)).append
    (writes_packed 3 snapshot.membership)).append
    (writes_repeated writes_peer 4 snapshot.members)).append (writes_nonzero 5 snapshot.payloadBytes)

theorem writes_fence : Writes (fenceEncodedLen fence) (encodeFence fence) fence.fields :=
  (((writes_nonzero 1 fence.appliedIndex).append (writes_nonzero 2 fence.commitIndex)).append
    (writes_nonzero 3 fence.installedSnapshotIndex)).append
    (writes_nonzero 4 fence.firstRetainedLogIndex)

theorem writes_checksum (checksum : Bytes) : Writes (checksumLen checksum (checksumAsU64 checksum))
      (fun out => encodeChecksum checksum out (checksumAsU64 checksum))
      (bytesField 9 (checksumToWire checksum).1 ++ optionalWordField 10 (checksumToWire checksum).2) := by
  unfold checksumToWire
  rcases checksumAsU64 checksum with _ | value
  · by_cases empty : checksum = []
    · subst empty
      exact .nothing
    · have text := writes_bytes 9 checksum
      simp only [checksumLen, encodeChecksum, if_pos empty, bytesField, if_neg empty]
      exact text
  · exact writes_word 10 value

variable (checked : CheckedRecord)

/-- **The two passes agree**, and write what the mirror message holds. -/
theorem record_writes : Writes (walRecordEncodedLen checked (checksumAsU64 checked.checksum))
    (encodeWalRecord checked (checksumAsU64 checked.checksum)) (ofRecord checked).fields := by
  rw [fields_ofRecord, CheckedRecord.fields, append_assoc _ (bytesField _ _)]
  exact ((((((((writes_nonzero 1 checked.record.groupId).append
    (writes_nonzero 2 checked.record.nodeId)).append
    (writes_message (writes_hardState checked.record.hardState) 3)).append
    (writes_message (writes_membership checked.record.membership) 4)).append
    (writes_repeated writes_logEntry 5 checked.record.entries)).append
    (writes_bool 6 checked.record.entriesAreDelta)).append
    (writes_optional writes_snapshotMetadata 7 checked.record.installedSnapshot)).append
    (writes_message (writes_fence checked.record.applySnapshotFence) 8)).append
    (writes_checksum checked.checksum)

/-! ## Frames -/

def mirrored : Bytes := writeFields (ofRecord checked).fields

theorem mirrored_eq : mirrored checked = MatrixRaft.encodeWalRecord checked := by
  rw [mirrored, fields_ofRecord, MatrixRaft.encodeWalRecord]

theorem encodeFramedInto_eq :
    encodeFramedInto checked = if (mirrored checked).length < 2 ^ 32 then .ok (frame (mirrored checked))
      else .error (.storage .frameTooLong) := by
  have writes := record_writes checked
  have size : walRecordEncodedLen checked (checksumAsU64 checked.checksum)
      = (mirrored checked).length := writes.length_eq
  unfold encodeFramedInto
  simp only [writes.write_eq, size]
  have head : (littleEndian 4 (mirrored checked).length ++ [0, 0, 0, 0]).length = frameBytes := by
    rfl
  have first : (littleEndian 4 (mirrored checked).length).length = 4 := length_littleEndian 4 _
  by_cases long : 2 ^ 32 ≤ (mirrored checked).length
  · rw [if_pos long, if_neg (by omega)]
  rw [if_neg long, if_pos (by omega), drop_left' head, append_assoc (littleEndian _ _),
    take_left' first]
  rfl

/-- **Records round trip.** The byte pass appends what `prost` would encode, the length pass counts it,
and reading the frame back gives the record and takes exactly the frame. -/
theorem wal_record_round_trips {reader : WalReader} (lawful : reader.Lawful)
    (checked : CheckedRecord) : (∀ out, encodeWalRecord checked (checksumAsU64 checked.checksum) out
        = out ++ mirrored checked) ∧
      walRecordEncodedLen checked (checksumAsU64 checked.checksum) = (mirrored checked).length ∧
      (encodeFramedInto checked =
        if (mirrored checked).length < 2 ^ 32 then .ok (frame (mirrored checked))
        else .error (.storage .frameTooLong)) ∧
      ∀ bytes, encodeFramedInto checked = .ok bytes → ∀ rest,
        decodeFramed reader .crc32c (bytes ++ rest) = .ok (some (checked, bytes.length)) := by
  have writes := record_writes checked
  refine ⟨writes.write_eq, writes.length_eq, encodeFramedInto_eq checked, ?_⟩
  intro bytes written rest
  rw [encodeFramedInto_eq] at written
  split at written
  · rename_i short
    cases written
    rw [mirrored_eq] at short ⊢
    exact decodeFramed_frame lawful short rest
  · cases written

def carriedOver : CheckedRecord where
  record :=
    { groupId := 1
      nodeId := 300
      hardState := { currentTerm := 2, votedFor := some 0, committed := some ⟨2, 129⟩ }
      membership := { groupId := 1, voters := [1, 300], learners := [], witnesses := [2], epoch := 0 }
      entries := [⟨⟨2, 130⟩, [7, 8], true⟩, ⟨⟨0, 0⟩, [], false⟩]
      entriesAreDelta := true
      installedSnapshot := some
        { snapshotId := "s", lastLogId := ⟨2, 129⟩, membership := [1, 2, 300]
          members := [⟨2, "a:1", "", .witness, false⟩], payloadBytes := 0 }
      applySnapshotFence := ⟨129, 129, 129, 130⟩ }
  checksum := [65, 66]

theorem carried_over_round_trips : ∃ bytes, encodeFramedInto carriedOver = .ok bytes ∧
      decodeFramed taggedFields .crc32c (bytes ++ [7, 7]) = .ok (some (carriedOver, bytes.length)) := by
  obtain ⟨-, -, framed, read⟩ := wal_record_round_trips taggedFields_lawful carriedOver
  exact ⟨_, framed, read _ framed _⟩

end FrameWriter
end MatrixRaft
