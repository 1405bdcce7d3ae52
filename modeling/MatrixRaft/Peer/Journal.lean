/-
# Peer.Journal — the peer's journal file

A journal is a file of framed records.  Records are appended and made durable by a
sync; a checkpoint rewrites the file under another name and renames it into place.
-/
import MatrixRaft.Peer.Store

namespace MatrixRaft.Peer
open Theory

structure PeerOptions where
  (groupId nodeId : Nat)
  voters : List Nat
  deriving DecidableEq

def batch (wire : Wire) (options : PeerOptions) (hs : Option HardState) (entries : List Entry) :
    WalBatch where
  version := 1
  group := options.groupId
  node := options.nodeId
  voters := options.voters
  hardState := hs.elim [] wire.hardState.encode
  entries := entries.map Entry.encode
  snapshot := []
  snapshotOffset := 0
  snapshotTotal := 0
  snapshotDigest := 0
  payloadManifest := []
  permitted := []

def WalBatch.withEntries (record : WalBatch) (entries : List Entry) : WalBatch :=
  { record with entries := entries.map Entry.encode }

def WalBatch.withHardState (record : WalBatch) (encoded : Bytes) : WalBatch :=
  { record with hardState := encoded }

/-! ## Frames -/

def magic : Bytes := [77, 82, 80, 87]

def frameMark (size : Nat) : Bytes := magic ++ bigEndian 4 size

def frame (payload : Bytes) : Bytes :=
  frameMark payload.length ++ bigEndian 8 (digest (frameMark payload.length)).toNat ++
    bigEndian 8 (digest payload).toNat ++ payload

/-! ## The file -/

structure Journal where
  permitted : List Nat
  bytes : Bytes
  /-- How many of them are on stable storage. -/
  synced : Nat
  /-- How the coming calls go: `some kept` fails, and a write leaves `kept` of its bytes. -/
  faults : List (Option Nat)
  (length barriers records : Nat)
  deriving DecidableEq

abbrev JournalM (α : Type) := Attempt Journal PeerError α

namespace Journal

def writeAll (bytes : Bytes) : JournalM Unit := fun journal =>
  match journal.faults with
  | some kept :: faults =>
    (.error (.storage .io), { journal with bytes := journal.bytes ++ bytes.take kept, faults })
  | none :: faults => (.ok (), { journal with bytes := journal.bytes ++ bytes, faults })
  | [] => (.ok (), { journal with bytes := journal.bytes ++ bytes })

def syncAll : JournalM Unit := fun journal =>
  match journal.faults with
  | some _ :: faults => (.error (.storage .io), { journal with faults })
  | none :: faults => (.ok (), { journal with synced := journal.bytes.length, faults })
  | [] => (.ok (), { journal with synced := journal.bytes.length })

/-- Count a durability barrier and sync. -/
def barrier : JournalM Unit := do
  Attempt.update fun journal => { journal with barriers := satAdd journal.barriers 1 }
  syncAll

def noteRecord (size : Nat) (journal : Journal) : Journal :=
  { journal with
    length := journal.length + (24 + size), records := satAdd journal.records 1 }

def writePayload (payload : Bytes) : JournalM Unit := fun journal =>
  if payload.length > limit then (.error (.storage .recordBound), journal)
  else if satAdd journal.length (24 + payload.length) > walLimit then
    (.error (.storage .capacity), journal)
  else (writeAll (frame payload) >>= fun _ => Attempt.update (noteRecord payload.length)) journal

def normalized (journal : Journal) (batch : WalBatch) : WalBatch :=
  { batch with permitted := journal.permitted }

variable (batch : WalBatch)

def writeEntryRecordInto : JournalM Unit := fun journal =>
  if batch.entries = [] ∨ batch.snapshot ≠ [] ∨ batch.snapshotOffset ≠ 0 ∨
      batch.snapshotTotal ≠ 0 ∨ batch.snapshotDigest ≠ 0 ∨ batch.payloadManifest ≠ [] then
    (.error (.storage .entryShape), journal)
  else writePayload (journal.normalized batch).encode journal

def writeSnapshotRecordInto : JournalM Unit := fun journal =>
  if batch.snapshot = [] ∨ batch.entries ≠ [] then (.error (.storage .snapshotShape), journal)
  else writePayload (journal.normalized batch).encode journal

def writeDecodedEntryRecordInto (entries : List Entry) : JournalM Unit :=
  fun journal =>
    if entries = [] ∨ batch.entries ≠ [] ∨ batch.snapshot ≠ [] ∨ batch.snapshotOffset ≠ 0 ∨
        batch.snapshotTotal ≠ 0 ∨ batch.snapshotDigest ≠ 0 ∨ batch.payloadManifest ≠ [] then
      (.error (.storage .decodedEntryShape), journal)
    else
      writePayload (journal.normalized (batch.withEntries entries)).encode journal

def writeRecordInto : JournalM Unit :=
  if batch.entries ≠ [] ∧ batch.snapshot = [] then writeEntryRecordInto batch
  else fun journal => writePayload (journal.normalized batch).encode journal

def append : JournalM Unit := do
  writeRecordInto batch
  barrier

/-! ## A `Ready` in several records -/

def entryField (entry : Entry) : Nat :=
  1 + (varint entry.encode.length).length + entry.encode.length

/-- Group entries so that each group fits a record: `current` is the open group and `size` the
record it makes. -/
def packSpans (overhead : Nat) : List Entry → List Entry → Nat →
    Except PeerError (List (List Entry × Nat))
  | [], current, size => .ok [(current, size)]
  | entry :: rest, current, size =>
    if satAdd overhead (entryField entry) > limit then .error (.storage .entryBound)
    else if size + entryField entry > limit then
      (packSpans overhead rest [entry] (overhead + entryField entry)).map ((current, size) :: ·)
    else packSpans overhead rest (current ++ [entry]) (size + entryField entry)

/-- A `Ready` that does not fit one record: the term and vote first, then the entries, and the
commit position last. -/
structure SplitReady where
  (envelope floor : WalBatch)
  spans : List (List Entry × Nat)
  final : WalBatch
  deriving DecidableEq

def floorState (wire : Wire) (encoded : Bytes) (previous : HardState) : Except PeerError Bytes :=
  if encoded = [] then .ok []
  else match wire.hardState.decode encoded with
    | none => .error (.storage .malformed)
    | some hs => .ok (wire.hardState.encode { hs with commit := previous.commit })

def envelopeOf (record : WalBatch) : WalBatch :=
  { (default : WalBatch) with
    version := 1, group := record.group, node := record.node, voters := record.voters
    permitted := record.permitted }

def splitReady (wire : Wire) (record : WalBatch) (entries : List Entry) (previous : HardState) :
    Except PeerError SplitReady := do
  let envelope := envelopeOf record
  let spans ← packSpans envelope.encode.length entries [] envelope.encode.length
  let floor ← floorState wire record.hardState previous
  let final := if record.hardState ≠ floor then record.hardState else []
  let split : SplitReady :=
    ⟨envelope, envelope.withHardState floor, spans, envelope.withHardState final⟩
  if ([split.floor, split.final].any fun state =>
      state.hardState ≠ [] ∧ state.encode.length > limit) then
    .error (.storage .hardStateBound)
  else pure split

def SplitReady.states (split : SplitReady) : List WalBatch :=
  [split.floor, split.final].filter fun state => state.hardState ≠ []

/-- The bytes the records take in the file. -/
def SplitReady.size (split : SplitReady) : Nat :=
  (split.spans.map fun span => 24 + span.2).sum +
    (split.states.map fun state => 24 + state.encode.length).sum

def writeState (state : WalBatch) : JournalM Unit :=
  if state.hardState = [] then pure () else writeRecordInto state

def writeSplit (split : SplitReady) : JournalM Unit := do
  writeState split.floor
  Attempt.forEach (fun span => writeDecodedEntryRecordInto split.envelope span.1) split.spans
  writeState split.final
  barrier

def appendDecodedReady (wire : Wire) (record : WalBatch) (entries : List Entry)
    (previous : HardState) : JournalM Unit := fun journal =>
  if entries = [] then append record journal
  else if record.entries ≠ [] ∨ record.version ≠ 1 ∨ record.snapshot ≠ [] ∨
      record.payloadManifest ≠ [] then
    (.error (.storage .decodedShape), journal)
  else
    let record := journal.normalized record
    let completeSize := record.encode.length + (entries.map entryField).sum
    -- the checked sum of the sizes overflows
    if completeSize > u64Max then (.error (.storage .recordBound), journal)
    else if completeSize ≤ limit then
      (writeDecodedEntryRecordInto record entries >>= fun _ => barrier) journal
    else match splitReady wire record entries previous with
      | .error error => (.error error, journal)
      | .ok split =>
        if satAdd journal.length split.size > walLimit then
          (.error (.storage .capacity), journal)
        else writeSplit split journal

end Journal
end MatrixRaft.Peer
