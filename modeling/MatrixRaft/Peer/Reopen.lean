/-
# Peer.Reopen — rewriting the journal and reading it back

A checkpoint replaces the journal by an image: the checkpoint in one record or in
fragments, the entries after it in groups, and the hard state.  Reopening reads the
frames back, puts fragments together, installs every record and cuts off a torn tail.
-/
import MatrixRaft.Peer.Journal
import MatrixRaft.Theory.Frames

namespace MatrixRaft.Peer
open Theory

/-! ## Checkpoints in records -/

/-- `prost::encoding::decode_varint`: at most ten bytes, and within 64 bits. -/
def decodeVarint (input : Bytes) : Option (Nat × Bytes) :=
  match readVarint input with
  | none => none
  | some (value, rest) =>
    if input.length - rest.length ≤ 10 ∧ value ≤ u64Max then some (value, rest) else none

def lengthDelimited (tag length : Nat) : Bytes := varint (tag * 8 + 2) ++ varint length

variable (wire : Wire)

def decodeOwnedSnapshot (bytes : Bytes) : Except PeerError Snapshot :=
  if bytes.head? ≠ some 0x0a then .error (.storage .snapshotEncoding)
  else match decodeVarint bytes.tail with
    | none => .error (.storage .malformed)
    | some (dataLength, cursor) =>
      if dataLength = 0 then .error (.storage .snapshotEmpty)
      else if cursor.length ≤ dataLength then .error (.storage .snapshotTruncated)
      else
        let data := cursor.take dataLength
        let after := cursor.drop dataLength
        if after.head? ≠ some 0x12 then .error (.storage .metadataMissing)
        else match decodeVarint after.tail with
          | none => .error (.storage .malformed)
          | some (metadataLength, encoded) =>
            if metadataLength ≠ encoded.length then .error (.storage .metadataTruncated)
            else match wire.metadata.decode encoded with
              | none => .error (.storage .malformed)
              | some metadata =>
                let start := bytes.take (bytes.length - cursor.length)
                if start ≠ lengthDelimited 1 dataLength ∨
                    after ≠ lengthDelimited 2 (wire.metadata.encode metadata).length ++
                      wire.metadata.encode metadata then
                  .error (.storage .snapshotCanonical)
                else .ok { data := data, metadata := some metadata }

structure WalFragments where
  record : WalBatch
  snapshot : Bytes
  deriving DecidableEq

structure WalAssembly where
  pending : Option WalFragments
  walLength : Nat
  deriving DecidableEq

namespace WalAssembly

def new (walLength : Nat) : WalAssembly := { pending := none, walLength := walLength }

def recovered (record : WalBatch) : Except PeerError RecoveredBatch :=
  if record.version = 2 ∧ record.entries.all (· = []) then
    (decodeOwnedSnapshot wire record.snapshot).map fun snapshot =>
      { record := { record with snapshot := [] }, snapshot := some snapshot }
  else .ok { record := record, snapshot := none }

variable (assembly : WalAssembly)

def extend (record : WalBatch) (position : Nat) : Except PeerError WalFragments :=
  match assembly.pending with
  | some pending =>
    if record.snapshotOffset ≠ pending.snapshot.length ∨
        record.snapshotTotal ≠ pending.record.snapshotTotal ∨
        record.snapshotDigest ≠ pending.record.snapshotDigest ∨ record.hardState ≠ [] then
      .error (.storage .noncontiguous)
    else if pending.snapshot.length + record.snapshot.length > pending.record.snapshotTotal then
      .error (.storage .fragmentsExceed)
    else .ok { pending with snapshot := pending.snapshot ++ record.snapshot }
  | none =>
    if position ≠ 0 ∨ record.snapshotOffset ≠ 0 ∨ record.hardState = [] ∨
        record.snapshot.length > record.snapshotTotal then
      .error (.storage .fragmentsBegin)
    else .ok { record := { record with snapshot := [] }, snapshot := record.snapshot }

def complete (pending : WalFragments) : Except PeerError (WalAssembly × Option RecoveredBatch) :=
  if pending.snapshot.length ≠ pending.record.snapshotTotal then
    .ok ({ assembly with pending := some pending }, none)
  else if digest pending.snapshot ≠ pending.record.snapshotDigest then
    .error (.storage .streamChecksum)
  else (decodeOwnedSnapshot wire pending.snapshot).map fun snapshot =>
    ({ assembly with pending := none }, some
        { record := { pending.record with version := 2, snapshotTotal := 0, snapshotDigest := 0 }
          snapshot := some snapshot })

def accept (record : WalBatch) (position : Nat) :
    Except PeerError (WalAssembly × Option RecoveredBatch) :=
  if record.version ≠ 3 then
    if assembly.pending ≠ none ∨ record.snapshotOffset ≠ 0 ∨ record.snapshotTotal ≠ 0 ∨
        record.snapshotDigest ≠ 0 then
      .error (.storage .interrupted)
    else (recovered wire record).map fun batch => (assembly, some batch)
  else if record.snapshotTotal = 0 ∨ record.snapshotTotal > snapshotEncodedLimit ∨
      record.snapshotTotal > assembly.walLength ∨ record.snapshot = [] ∨
      record.snapshot.length > snapshotFragmentBytes ∨ record.entries ≠ [] then
    .error (.storage .fragmentBounds)
  else do
    let pending ← assembly.extend record position
    assembly.complete wire pending

def finish : Except PeerError Unit :=
  if assembly.pending ≠ none then .error (.storage .incompleteStream) else .ok ()

end WalAssembly

/-! ## Reading frames -/

def checksumAt (header : Bytes) (start : Nat) : Nat := ofBigEndian ((header.drop start).take 8)

/-- One frame off the front of what is left of the file; `none` when the rest is the beginning of a
frame. -/
def readFrame (offset : Nat) (rest : Bytes) : Except PeerError (Option (Bytes × Bytes)) :=
  if rest.length < 24 then
    if offset = 0 then .error (.storage .incompleteRecord)
    else if rest.take 4 ≠ magic.take (min rest.length 4) then .error (.storage .damagedTail)
    else .ok none
  else if rest.take 4 ≠ magic ∨ (digest (rest.take 8)).toNat ≠ checksumAt rest 8 then
    .error (.storage .headerChecksum)
  else
    let size := ofBigEndian ((rest.drop 4).take 4)
    if size = 0 ∨ size > limit then .error (.storage .recordSize)
    else if rest.length - 24 < size then
      if offset = 0 then .error (.storage .incompletePayload) else .ok none
    else
      let payload := (rest.drop 24).take size
      if (digest payload).toNat ≠ checksumAt rest 16 then .error (.storage .recordChecksum)
      else .ok (some (payload, rest.drop (24 + size)))

def readRecord (options : PeerOptions) (permitted : List Nat) (payload : Bytes) :
    Except PeerError WalBatch :=
  match wire.decodeBatch payload with
  | none => .error (.storage .malformed)
  | some record =>
    if (record.version, decide (record.snapshot = []))
          ∉ [(1, true), (2, false), (3, false), (4, false)] ∨
        decide (record.version = 4) = decide (record.payloadManifest = []) ∨
        record.group ≠ options.groupId ∨ record.node ≠ options.nodeId ∨
        record.voters ≠ options.voters ∨ record.permitted ≠ permitted ∨
        record.encode ≠ payload then
      .error (.storage .identity)
    else .ok record

/-- What reopening has put together so far. -/
structure Recovery (σ : Type) where
  assembly : WalAssembly
  store : PeerStorage σ
  deriving DecidableEq

abbrev RecoveryM (σ α : Type) := Attempt (Recovery σ) PeerError α

section Recovering
variable {σ : Type} [MemStorage σ] (wire : Wire) (files : Payloads)

def acceptRecord (offset : Nat) (record : WalBatch) : RecoveryM σ Unit := fun recovery =>
  match recovery.assembly.accept wire record offset with
  | .error error => (.error error, recovery)
  | .ok (assembly, none) => (.ok (), { recovery with assembly := assembly })
  | .ok (assembly, some batch) =>
    match installWithScratch wire files batch recovery.store with
    | (outcome, store) => (outcome, { assembly := assembly, store := store })

def recoverPayload (options : PeerOptions) (offset : Nat) (payload : Bytes) : RecoveryM σ Unit :=
  fun recovery =>
    match readRecord wire options recovery.store.permitted payload with
    | .error error => (.error error, recovery)
    | .ok record => acceptRecord wire files offset record recovery

def Journal.reopened (permitted : List Nat) (bytes : Bytes) : Journal where
  permitted := permitted
  bytes := bytes
  synced := bytes.length
  faults := []
  length := bytes.length
  barriers := 0
  records := 0

def Journal.recover (options : PeerOptions) (bytes : Bytes) : StoreM σ Journal := fun store =>
  match Frames.scan readFrame (recoverPayload wire files options) (bytes.length + 1) 0 bytes
      { assembly := .new bytes.length, store := store } with
  | (.error error, recovery) => (.error error, recovery.store)
  | (.ok offset, recovery) =>
    match recovery.assembly.finish with
    | .error error => (.error error, recovery.store)
    | .ok () => (.ok (.reopened store.permitted (bytes.take offset)), recovery.store)

def Journal.open (options : PeerOptions) (locked : Bool) (found : Option Bytes) :
    StoreM σ Journal := fun store =>
  match found with
  | none =>
    if locked then (.error (.storage .walMissing), store)
    else
      match Journal.append (batch wire options none []) (.reopened store.permitted []) with
      | (.error error, _) => (.error error, store)
      | (.ok (), journal) => (.ok journal, store)
  | some bytes =>
    if bytes = [] then (.error (.storage .walEmpty), store)
    else if bytes.length > walLimit then (.error (.storage .walTooLarge), store)
    else Journal.recover wire files options bytes store

end Recovering

/-! ## Rewriting -/

namespace Journal

def call : JournalM Unit := fun journal =>
  match journal.faults with
  | some _ :: faults => (.error (.storage .io), { journal with faults })
  | none :: faults => (.ok (), { journal with faults })
  | [] => (.ok (), journal)

def fragment (first : WalBatch) (encoded : Bytes) (number : Nat) : WalBatch :=
  { first with
    version := 3
    snapshotTotal := encoded.length
    snapshotDigest := digest encoded
    snapshotOffset := number * snapshotFragmentBytes
    snapshot := (encoded.drop (number * snapshotFragmentBytes)).take snapshotFragmentBytes
    hardState := if number = 0 then first.hardState else [] }

def fragmentCount (encoded : Bytes) : Nat :=
  (encoded.length + snapshotFragmentBytes - 1) / snapshotFragmentBytes

def writeCheckpoint (first : WalBatch) (snapshot : Snapshot) (payload : Option Blob) :
    JournalM Unit :=
  match payload with
  | some payload =>
    if snapshot.data ≠ [] then throw (.invalid .fileInline)
    else writeSnapshotRecordInto
      { first with version := 4, payloadManifest := wire.manifest.encode payload.manifest }
  | none =>
    if snapshot.data.length ≤ inlineCheckpointBytes then writeSnapshotRecordInto first
    else Attempt.forEach (fun number => writeSnapshotRecordInto (fragment first first.snapshot number))
      (List.range (fragmentCount first.snapshot))

def writeSuffix (suffix : WalBatch) (overhead : Nat) : List Entry → List Entry → Nat → JournalM Unit
  | [], current, _ =>
    if current = [] then pure () else writeRecordInto (suffix.withEntries current)
  | entry :: rest, current, size =>
    if satAdd overhead (entryField entry) > limit then throw (.storage .entryBound)
    else if current ≠ [] ∧ (current.length = 1024 ∨
        satAdd size (entryField entry) > 1024 * 1024) then do
      writeRecordInto (suffix.withEntries current)
      writeSuffix suffix overhead rest [entry] (overhead + entryField entry)
    else writeSuffix suffix overhead rest (current ++ [entry]) (size + entryField entry)

def floorOf (hs : HardState) (snapshot : Snapshot) : HardState :=
  { hs with commit := snapshot.getMetadata.index }

def writeFinal (options : PeerOptions) (hs floor : HardState) : JournalM Unit :=
  if hs ≠ floor then writeRecordInto (batch wire options (some hs) []) else pure ()

def writeImage (options : PeerOptions) (snapshot : Snapshot) (snapshotWire : Bytes)
    (hs : HardState) (entries : List Entry) (payload : Option Blob) : JournalM Unit := fun journal =>
  let floor := floorOf hs snapshot
  let first := { batch wire options (some floor) [] with version := 2, snapshot := snapshotWire }
  let suffix := { batch wire options none [] with permitted := journal.permitted }
  let overhead := suffix.encode.length
  (do
    writeCheckpoint wire first snapshot payload
    writeSuffix suffix overhead entries [] overhead
    writeFinal wire options hs floor
    syncAll : JournalM Unit) journal

def replacement (journal : Journal) : Journal :=
  { journal with bytes := [], synced := 0, length := 0, barriers := 0, records := 0 }

def rewrite (options : PeerOptions) (snapshot : Snapshot) (snapshotWire : Bytes)
    (hs : HardState) (entries : List Entry) (payload : Option Blob) : JournalM Unit := fun journal =>
  match (do
      call
      writeImage wire options snapshot snapshotWire hs entries payload
      call : JournalM Unit) journal.replacement with
  | (.error error, image) => (.error error, { journal with faults := image.faults })
  | (.ok (), image) => call image

end Journal
end MatrixRaft.Peer
