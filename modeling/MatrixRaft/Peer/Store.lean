/-
# Peer.Store — the peer's storage and how a record enters it

`PeerStorage` is the raft core's storage with the retained checkpoint.  A journal
record enters it through one of the `install` functions: on recovery from the journal,
after a local checkpoint, after a received one, or from a live `Ready`.
-/
import MatrixRaft.Peer.Wire
import MatrixRaft.Theory.Attempt

namespace MatrixRaft.Peer
open Theory

/-! ## Bounds -/

/-- `LIMIT`: one journal record, one packet. -/
def limit : Nat := 8 * 1024 * 1024

def maxCheckpointBytes : Nat := 256 * 1024 * 1024

def maxFileBytes : Nat := 16 * 1024 * 1024 * 1024

def inlineCheckpointBytes : Nat := 4 * 1024 * 1024

def snapshotEncodedLimit : Nat := maxCheckpointBytes + 64 * 1024

def snapshotFragmentBytes : Nat := 1024 * 1024

def walLimit : Nat := 512 * 1024 * 1024

/-! ## Errors -/

/-- The texts the functions below build `RaftError::InvalidRequest` with. -/
inductive Refusal where
  | malformed | snapshotIdentity | configurationMembers | jointConfiguration | changeUnsupported
  | changeInvalid | fileInline | core
  -- checkpoints
  | unsettled | checkpointed | fileBound | payloadExtra
  -- packets
  | outgoingBound
  -- transfers
  | fragmentIdentity | ackData | fragmentExtent | transferBound | transferInline | transferMetadata
  | transferConflict | transferDuplicate | transferChecksum | transferNoncanonical
  | transferMismatch | envelopeInvalid | envelopeChecksum | envelopeEncoding | fileChecksum
  -- membership
  | membershipDisabled | membershipUnsettled | notJoint | leaveFirst | memberExists | promotion
  | memberRemoval | outsideInventory | changeRefused
  deriving DecidableEq

/-- The texts the functions below build `RaftError::Storage` with. -/
inductive Fault where
  | malformed
  /-- The raft core's text, or its panic. -/
  | memory (error : StoreError)
  | io
  /-- The text of an invalid request, wrapped. -/
  | wrapped (refusal : Refusal)
  -- installing a record
  | changesCommitted | checkpointChangesCommitted | positionsInvalid | hardStateInvalid | inlineData
  | manifestMismatch | needsHardState | snapshotConflicts
  -- checkpoint payload files
  | payloadManifest | payloadNoncanonical | payloadLength | payloadChecksum
  -- writing the journal
  | recordBound | capacity | snapshotShape | entryShape | decodedEntryShape | decodedShape
  | entryBound | hardStateBound
  -- reopening the journal
  | walMissing | walEmpty | walTooLarge | incompleteRecord | damagedTail | headerChecksum
  | recordSize | incompletePayload | recordChecksum | identity
  -- checkpoints in the journal
  | interrupted | fragmentBounds | noncontiguous | fragmentsExceed | fragmentsBegin | streamChecksum
  | incompleteStream | snapshotEncoding | snapshotEmpty | snapshotTruncated | metadataMissing
  | metadataTruncated | snapshotCanonical
  -- running the peer
  | peerFailed | transferLength
  deriving DecidableEq

/-- The values of `RaftError` the peer runtime answers with. -/
inductive PeerError where
  | invalid (refusal : Refusal)
  | storage (fault : Fault)
  | notLeader (nodeId : Nat)
  deriving DecidableEq

/-! ## Configurations -/

def decodeChange (wire : Wire) (entry : Entry) (permitted : List Nat) :
    Except Refusal ConfChangeV2 :=
  if permitted = [] ∨ entry.entryType ≠ entryConfChangeV2 ∨ entry.data.length > 1024 then
    .error .changeUnsupported
  else match wire.change.decode entry.data with
    | none => .error .malformed
    | some change =>
      if wire.change.encode change ≠ entry.data ∨ change.context ≠ [] ∨
          change.changes.length > 1 ∨
          -- `ConfChangeTransition::Auto` and `Explicit`
          (change.transition ≠ 0 ∧ change.transition ≠ 2) ∨
          -- `AddNode`, `RemoveNode` and `AddLearnerNode`
          (change.changes.any fun single =>
            single.nodeId ∉ permitted || single.changeType ∉ [0, 1, 2]) then
        .error .changeInvalid
      else .ok change

def disjoint (left right : List Nat) : Bool := left.all (· ∉ right)

def validateConf (conf : ConfState) (permitted : List Nat) : Except PeerError Unit :=
  if [conf.voters, conf.votersOutgoing, conf.learners, conf.learnersNext].any fun values =>
      ¬ values.Nodup || values.any (· ∉ permitted) then
    .error (.invalid .configurationMembers)
  else if conf.voters = [] ∨ conf.voters.length > 7 ∨ conf.votersOutgoing.length > 7 ∨
      ¬ disjoint conf.voters conf.learners ∨ ¬ disjoint conf.votersOutgoing conf.learners ∨
      ¬ disjoint conf.voters conf.learnersNext ∨ ¬ disjoint conf.learners conf.learnersNext ∨
      ¬ conf.learnersNext.all (· ∈ conf.votersOutgoing) ∨
      (conf.votersOutgoing = [] ∧ (conf.learnersNext ≠ [] ∨ conf.autoLeave)) ∨
      conf.autoLeave then
    .error (.invalid .jointConfiguration)
  else .ok ()

def validateSnapshotFor (wire : Wire) (snapshot : Snapshot) (voters permitted : List Nat) :
    Except PeerError Unit :=
  let metadata := snapshot.getMetadata
  let expected := { (default : ConfState) with voters := voters }
  -- `== u64::MAX`, which no `u64` exceeds
  if metadata.index = 0 ∨ u64Max ≤ metadata.index ∨ metadata.term = 0 ∨ u64Max ≤ metadata.term ∨
      (permitted = [] ∧ metadata.getConfState ≠ expected) ∨
      snapshot.data.length > maxCheckpointBytes ∨
      (wire.encodeSnapshot snapshot).length > snapshotEncodedLimit - 1024 then
    .error (.invalid .snapshotIdentity)
  else if permitted ≠ [] then validateConf metadata.getConfState permitted
  else .ok ()

/-! ## Payload files -/

/-- The regular files of the payload directory, by name. -/
abbrev Payloads := Bytes → Option Bytes

/-- A payload file this peer holds (`checkpoint_file::Blob`). -/
structure Blob where
  manifest : Manifest
  deriving DecidableEq

def blobMark : Bytes := [98, 108, 111, 98, 45]

def nameByte (byte : UInt8) : Bool :=
  let b := byte.toNat
  (48 ≤ b && b ≤ 57) || (65 ≤ b && b ≤ 90) || (97 ≤ b && b ≤ 122) || b == 45 || b == 95

def Manifest.validate (manifest : Manifest) : Except PeerError Unit :=
  if manifest.version ≠ 1 ∨ manifest.length > maxFileBytes ∨ manifest.length > u64Max - 8192 ∨
      manifest.name.length > 128 ∨ ¬ blobMark.isPrefixOf manifest.name ∨
      manifest.name.length ≤ 5 ∨ ¬ manifest.name.all nameByte then
    .error (.storage .payloadManifest)
  else .ok ()

/-- `Blob::open`: the file a manifest names, with its length and checksum verified. -/
def Blob.open (wire : Wire) (files : Payloads) (bytes : Bytes) : Except PeerError Blob :=
  match wire.manifest.decode bytes with
  | none => .error (.storage .malformed)
  | some manifest => do
    manifest.validate
    if wire.manifest.encode manifest ≠ bytes then .error (.storage .payloadNoncanonical)
    else match files manifest.name with
      | none => .error (.storage .io)
      | some content =>
        if content.length ≠ manifest.length then .error (.storage .payloadLength)
        else if digest content ≠ manifest.checksum then .error (.storage .payloadChecksum)
        else .ok { manifest := manifest }

/-! ## The storage -/

structure PeerStorage (σ : Type) where
  /-- The identities that may ever join; empty when membership is fixed. -/
  permitted : List Nat
  memory : σ
  checkpoint : Option Snapshot
  payload : Option Blob
  /-- The payloads given up: their files go with the last handle on them. -/
  retired : List Manifest
  deriving DecidableEq

abbrev StoreM (σ α : Type) := Attempt (PeerStorage σ) PeerError α

inductive SnapshotSource where
  | journal
  | localCapture (payload : Blob)
  | received (payload : Blob)
  deriving DecidableEq

def SnapshotSource.isLocal : SnapshotSource → Bool
  | localCapture _ => true
  | _ => false

def SnapshotSource.captured : SnapshotSource → Option Blob
  | journal => none
  | localCapture payload | received payload => some payload

/-- A journal record with its snapshot, when recovery already decoded that. -/
structure RecoveredBatch where
  record : WalBatch
  snapshot : Option Snapshot
  deriving DecidableEq

structure EntryHeader where
  (index term : Nat)
  deriving DecidableEq

def Entry.header (entry : Entry) : EntryHeader := { index := entry.index, term := entry.term }

def stepsValid : List EntryHeader → Prop
  | first :: second :: rest =>
    (checkedAdd first.index 1 = some second.index ∧ first.term ≤ second.term) ∧
      stepsValid (second :: rest)
  | _ => True

instance stepsValidDecidable : (headers : List EntryHeader) → Decidable (stepsValid headers)
  | [] => isTrue trivial
  | [_] => isTrue trivial
  | _ :: second :: rest => @instDecidableAnd _ _ inferInstance (stepsValidDecidable (second :: rest))

abbrev PositionsValid (first last : Nat) (headers : List EntryHeader) : Prop :=
  stepsValid headers ∧ ∀ header ∈ headers.head?, first ≤ header.index ∧ header.index ≤ satAdd last 1

abbrev HardStateValid (previous next : HardState) (lastIndex : Nat) (electorate : List Nat)
    (headers : List EntryHeader) : Prop :=
  previous.term ≤ next.term ∧ previous.commit ≤ next.commit ∧ next.commit ≤ lastIndex ∧
    ¬ (next.term = previous.term ∧ previous.vote ≠ 0 ∧ next.vote ≠ previous.vote) ∧
    (next.vote ≠ 0 → next.vote ∈ electorate) ∧
    ∀ header ∈ headers, header.term ≠ 0 ∧ header.term ≤ next.term

def decodeHardState (wire : Wire) (batch : WalBatch) : Except PeerError (Option HardState) :=
  if batch.hardState = [] then .ok none
  else match wire.hardState.decode batch.hardState with
    | none => .error (.storage .malformed)
    | some hs => .ok (some hs)

section Install
variable {σ : Type} [MemStorage σ] (wire : Wire) (files : Payloads)

open MemStorage
variable (store : PeerStorage σ) (batch : WalBatch)

/-- Who may be voted for. -/
def PeerStorage.electorate : List Nat :=
  if store.permitted = [] then batch.voters else store.permitted

def checkChange (permitted : List Nat) (entry : Entry) : Except PeerError Unit :=
  if entry.entryType = entryNormal then .ok ()
  else match decodeChange wire entry permitted with
    | .error refusal => .error (.storage (.wrapped refusal))
    | .ok _ => .ok ()

def checkCommitted (memory : σ) (commit : Nat) (fault : Fault) (entry : Entry) :
    Except PeerError Unit :=
  if commit < entry.index then .ok ()
  -- `entry.index + 1` overflows
  else if u64Max ≤ entry.index then .error (.storage (.memory .panicked))
  else match entries memory entry.index (entry.index + 1) with
    | .error error => .error (.storage (.memory error))
    | .ok saved => if saved = [entry] then .ok () else .error (.storage fault)

/-- No entry changes what is committed; `skipped` where the other of the two places compares. -/
def checkRetained (memory : σ) (commit : Nat) (fault : Fault) (skipped : Bool)
    (entries : List Entry) : Except PeerError Unit :=
  if skipped then .ok () else entries.forM (checkCommitted memory commit fault)

variable (source : SnapshotSource)

def checkArriving (entries : List Entry) : Except PeerError Unit := do
  entries.forM (checkChange wire store.permitted)
  checkRetained store.memory (hardState store.memory).commit .checkpointChangesCommitted
    (source.isLocal = false) entries

def heldSnapshot : Option Snapshot → Except PeerError Snapshot
  | some held => .ok held
  | none => match wire.decodeSnapshot batch.snapshot with
      | some held => .ok held
      | none => .error (.storage .malformed)

def heldPayload (captured : Option Blob) (held : Snapshot) : Except PeerError (Option Blob) :=
  if batch.version ≠ 4 then .ok none
  else if held.data ≠ [] then .error (.storage .inlineData)
  else match captured with
    | some payload =>
      if wire.manifest.encode payload.manifest ≠ batch.payloadManifest then
        .error (.storage .manifestMismatch)
      else .ok (some payload)
    | none => (Blob.open wire files batch.payloadManifest).map some

abbrev SnapshotConflicts (previous next : HardState) (batch : WalBatch) (source : SnapshotSource)
    (wireValidated : Bool) (held : Snapshot) : Prop :=
  (wireValidated = false ∧ wire.encodeSnapshot held ≠ batch.snapshot) ∨
    (source.isLocal = false ∧ held.getMetadata.index < previous.commit) ∨
    held.getMetadata.index > next.commit ∨ held.getMetadata.term > next.term ∨
    next.term < previous.term ∨
    (next.term = previous.term ∧ previous.vote ≠ 0 ∧ next.vote ≠ previous.vote)

variable (snapshot : Option Snapshot) (wireValidated : Bool)

def admitSnapshot (hs : Option HardState) : Except PeerError (Snapshot × Option Blob) := do
  let held ← heldSnapshot wire batch snapshot
  let payload ← heldPayload wire files batch source.captured held
  validateSnapshotFor wire held batch.voters store.permitted
  match hs with
  | none => .error (.storage .needsHardState)
  | some next =>
    if SnapshotConflicts wire (hardState store.memory) next batch source wireValidated held then
      .error (.storage .snapshotConflicts)
    else .ok (held, payload)

def adoptSnapshot (held : Snapshot) (payload : Option Blob) : Except PeerError (PeerStorage σ) :=
  match applySnapshot { held with data := [] } store.memory with
  | .error error => .error (.storage (.memory error))
  | .ok memory => .ok
      { store with
        memory := memory
        checkpoint := some held
        retired := store.retired ++ ((store.payload.filter fun old =>
          payload.all fun new => new.manifest.name ≠ old.manifest.name).map Blob.manifest).toList
        payload := payload }

def replaceSnapshot (hs : Option HardState) : Except PeerError (PeerStorage σ) :=
  if snapshot.isSome ∨ batch.snapshot ≠ [] then do
    let (held, payload) ← admitSnapshot wire files store batch source snapshot wireValidated hs
    adoptSnapshot store held payload
  else .ok store

def placeEntries (previous : HardState) (batch : WalBatch)
    (source : SnapshotSource) (entries : List Entry) (hs : Option HardState) :
    Except PeerError (PeerStorage σ) :=
  let last := lastIndex store.memory
  let headers := entries.map Entry.header
  if ¬ PositionsValid (firstIndex store.memory) last headers then
    .error (.storage .positionsInvalid)
  else do
    checkRetained store.memory previous.commit .changesCommitted source.isLocal entries
    let next := hs.getD previous
    let nextLast := (entries.getLast?.map Entry.index).getD last
    if ¬ HardStateValid previous next nextLast (store.electorate batch) headers then
      .error (.storage .hardStateInvalid)
    else match append entries store.memory with
      | .error error => .error (.storage (.memory error))
      | .ok memory => .ok { store with memory := hs.elim memory (setHardstate · memory) }

def installDecodedWithScratch (entries : List Entry)
    (hs : Option HardState) : StoreM σ Unit := fun store =>
  let previous := hardState store.memory
  match checkArriving wire store source entries with
  | .error error => (.error error, store)
  | .ok () =>
    match replaceSnapshot wire files store batch source snapshot wireValidated hs with
    | .error error => (.error error, store)
    | .ok replaced =>
      match placeEntries replaced previous batch source entries hs with
      | .error error => (.error error, replaced)
      | .ok placed => (.ok (), placed)

def installDecoded (entries : List Entry) (hs : Option HardState) : StoreM σ Unit :=
  installDecodedWithScratch wire files batch source none false entries hs

def decodeEntry (encoded : Bytes) : Except PeerError Entry :=
  match wire.decodeEntry encoded with
  | none => .error (.storage .malformed)
  | some entry => .ok entry

def decodeContents : Except PeerError (List Entry × Option HardState) := do
  let entries ← batch.entries.mapM (decodeEntry wire)
  let hs ← decodeHardState wire batch
  pure (entries, hs)

def installFrom : StoreM σ Unit := fun store =>
  match decodeContents wire batch with
  | .error error => (.error error, store)
  | .ok (entries, hs) =>
    installDecodedWithScratch wire files batch source snapshot wireValidated entries hs store

def install : StoreM σ Unit := installFrom wire files batch .journal none false

def installLocal (snapshot : Snapshot) (captured : Option Blob) : StoreM σ Unit :=
  installFrom wire files batch (captured.elim .journal .localCapture) (some snapshot) false

def installReceived (snapshot : Snapshot) (payload : Option Blob) : StoreM σ Unit :=
  installFrom wire files batch (payload.elim .journal .received) (some snapshot) false

def recoverEntry (encoded : Bytes) : Except PeerError Entry := do
  let entry ← decodeEntry wire encoded
  checkChange wire store.permitted entry
  checkCommitted store.memory (hardState store.memory).commit .changesCommitted entry
  pure entry

def appendOne (entry : Entry) : StoreM σ Unit := fun store =>
  match append [entry] store.memory with
  | .error error => (.error (.storage (.memory error)), store)
  | .ok memory => (.ok (), { store with memory := memory })

def checkRecovered : Except PeerError (List Entry × Option HardState) := do
  let previous := hardState store.memory
  let last := lastIndex store.memory
  let hs ← decodeHardState wire batch
  let entries ← batch.entries.mapM (recoverEntry wire store)
  let headers := entries.map Entry.header
  if ¬ PositionsValid (firstIndex store.memory) last headers then
    .error (.storage .positionsInvalid)
  else
    let next := hs.getD previous
    let nextLast := (entries.getLast?.map Entry.index).getD last
    if ¬ HardStateValid previous next nextLast (store.electorate batch) headers then
      .error (.storage .hardStateInvalid)
    else .ok (entries, hs)

def installRecoveredEntries : StoreM σ Unit := fun store =>
  match checkRecovered wire store batch with
  | .error error => (.error error, store)
  | .ok (entries, hs) =>
    match Attempt.forEach appendOne entries store with
    | (.error error, appended) => (.error error, appended)
    | (.ok (), appended) =>
      (.ok (), { appended with memory := hs.elim appended.memory (setHardstate · appended.memory) })

def installWithScratch (recovered : RecoveredBatch) : StoreM σ Unit :=
  if recovered.snapshot = none ∧ recovered.record.snapshot = [] ∧ recovered.record.entries ≠ [] then
    installRecoveredEntries wire recovered.record
  else
    installFrom wire files recovered.record .journal recovered.snapshot recovered.snapshot.isSome

end Install
end MatrixRaft.Peer
