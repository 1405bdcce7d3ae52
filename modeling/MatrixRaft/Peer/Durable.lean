/-
# Peer.Durable — one durable peer

`DurablePeer` drives the raft core over its journal: it proposes changes of the membership
and puts checkpoints of the application's state in place of the history they cover.
-/
import MatrixRaft.Peer.Stream

namespace MatrixRaft.Peer
open Theory MemStorage

/-! ## What crosses the peer's boundary -/

inductive Event where
  | applied (id : LogId) (data : Bytes)
  | failed (error : PeerError)
  deriving DecidableEq

/-- The application's callback, which may answer by all that happened before. -/
structure Host where
  apply : List Event → LogId → Bytes → Except PeerError Unit

/-! ## The peer -/

structure PendingRead where
  (token term : Nat)
  index : Option Nat
  deriving DecidableEq

structure DurablePeer (σ κ : Type) where
  options : PeerOptions
  raw : κ
  store : PeerStorage σ
  journal : Journal
  failed : Bool
  pendingRead : Option PendingRead
  restoreOnOpen : Option Snapshot
  stream : Stream
  directory : Payloads
  history : List Event

abbrev PeerM (σ κ α : Type) := Attempt (DurablePeer σ κ) PeerError α

namespace DurablePeer
variable {σ κ : Type}

def note (event : Event) : PeerM σ κ Unit :=
  Attempt.update fun peer => { peer with history := peer.history ++ [event] }

def outcome {α : Type} (result : Except PeerError α) : PeerM σ κ α := fun peer => (result, peer)

def onJournal {α : Type} (run : JournalM α) : PeerM σ κ α := fun peer =>
  match run peer.journal with
  | (result, journal) => (result, { peer with journal := journal })

def onStore {α : Type} (run : StoreM σ α) : PeerM σ κ α := fun peer =>
  match run peer.store with
  | (result, store) => (result, { peer with store := store })

/-- A call on the core that may fail. -/
def onRaw (run : κ → Bool × κ) : PeerM σ κ Unit := fun peer =>
  match run peer.raw with
  | (true, raw) => (.ok (), { peer with raw := raw })
  | (false, raw) => (.error (.invalid .core), { peer with raw := raw })

def get {α : Type} (read : DurablePeer σ κ → α) : PeerM σ κ α := fun peer => (.ok (read peer), peer)

def refuse (refused : DurablePeer σ κ → Bool) (error : PeerError) : PeerM σ κ Unit := fun peer =>
  if refused peer then (.error error, peer) else (.ok (), peer)

def healthy : PeerM σ κ Unit := refuse DurablePeer.failed (.storage .peerFailed)

variable [MemStorage σ] [RawNode σ κ]

open RawNode (hasReady)
variable (peer : DurablePeer σ κ)

def term : Nat := RawNode.term σ peer.raw

def commitIndex : Nat := RawNode.committed σ peer.raw

def appliedIndex : Nat := RawNode.applied σ peer.raw

def lastIndex : Nat := RawNode.lastIndex peer.store peer.raw

def role : StateRole := RawNode.state σ peer.raw

def isLeader : Bool := !peer.failed && peer.role = .leader

/-- The peer's own identity is refused with `NotLeader` where it does not lead. -/
def leading : PeerM σ κ Unit := fun peer =>
  if peer.isLeader then (.ok (), peer) else (.error (.notLeader peer.options.nodeId), peer)

/-! ## Opening -/

def freshStore (options : PeerOptions) (permitted : List Nat) : PeerStorage σ where
  permitted := permitted
  memory := newWithConfState options.voters
  checkpoint := none
  payload := none
  retired := []

/-! ## Membership -/

inductive MembershipChange where
  | addLearner (id : Nat)
  | promote (id : Nat)
  | remove (id : Nat)
  | leaveJoint
  deriving DecidableEq

def confState : ConfState := MemStorage.confState peer.store.memory

variable (operation : MembershipChange)

/-- The change of an operation on one member: the member, the kind of change (`AddNode`,
`RemoveNode`, `AddLearnerNode`) and whether it goes through a joint configuration. -/
def memberChange : Except PeerError (Option (Nat × Nat × Bool)) :=
  let conf := peer.confState
  let joint := conf.votersOutgoing ≠ []
  match operation with
  | .leaveJoint => if ¬ joint then .error (.invalid .notJoint) else .ok none
  | operation =>
    if joint then .error (.invalid .leaveFirst)
    else match operation with
      | .addLearner id =>
        if id ∈ conf.voters ∨ id ∈ conf.learners then .error (.invalid .memberExists)
        else .ok (some (id, 2, false))
      | .promote id =>
        if id ∉ conf.learners ∨ conf.voters.length ≥ 7 ∨
            (RawNode.matched σ peer.raw id).all (· < peer.commitIndex) then
          .error (.invalid .promotion)
        else .ok (some (id, 0, true))
      | .remove id =>
        if (id ∉ conf.voters ∧ id ∉ conf.learners) ∨ (id ∈ conf.voters ∧ conf.voters.length = 1) then
          .error (.invalid .memberRemoval)
        else .ok (some (id, 1, decide (id ∈ conf.voters)))
      | .leaveJoint => .ok none

def membershipChange : Except PeerError ConfChangeV2 :=
  match peer.memberChange operation with
  | .error error => .error error
  | .ok none => .ok { transition := 0, changes := [], context := [] }
  | .ok (some (id, kind, joint)) =>
    if id ∉ peer.store.permitted then .error (.invalid .outsideInventory)
    else .ok
      { transition := if joint then 2 else 0
        changes := [{ changeType := kind, nodeId := id }], context := [] }

def proposeMembership : PeerM σ κ LogId := do
  healthy
  refuse (fun peer => peer.store.permitted = []) (.invalid .membershipDisabled)
  leading
  refuse (fun peer => hasReady peer.store peer.raw ∨ peer.restoreOnOpen.isSome ∨
    RawNode.pendingConfIndex σ peer.raw > peer.appliedIndex) (.invalid .membershipUnsettled)
  let before ← get lastIndex
  fun peer => (do
    let change ← outcome (peer.membershipChange operation)
    onRaw (RawNode.proposeConfChange peer.store change)
    refuse (fun after => after.lastIndex = before) (.invalid .changeRefused)
    get fun after => { term := after.term, index := after.lastIndex } : PeerM σ κ LogId) peer

/-! ## Checkpoints -/

def stopping {α : Type} (run : PeerM σ κ α) : PeerM σ κ α := fun peer =>
  match run peer with
  | (.ok value, after) => (.ok value, after)
  | (.error error, after) =>
    (.error error, { after with failed := true, history := after.history ++ [.failed error] })

def checkpointBatch (wire : Wire) (options : PeerOptions) (snapshot : Snapshot) (hs : HardState)
    (entries : List Entry) (payload : Option Blob) : WalBatch :=
  let record := { batch wire options (some hs) entries with
    version := 2, snapshot := wire.encodeSnapshot snapshot }
  match payload with
  | none => record
  | some payload =>
    { record with version := 4, payloadManifest := wire.manifest.encode payload.manifest }

def capturedSnapshot (data : Bytes) (index : Nat) (configuration : Option ConfState) :
    Except PeerError Snapshot :=
  match MemStorage.term peer.store.memory index with
  | .error error => .error (.storage (.memory error))
  | .ok term => .ok
      { data := data
        metadata := some
          { index := index, term := term, confState := some (configuration.getD peer.confState) } }

/-- The entries after a checkpoint. -/
def suffixAfter (index : Nat) : Except PeerError (List Entry) :=
  if index < firstIndex peer.store.memory then .error (.invalid .checkpointed)
  else match MemStorage.entries peer.store.memory (index + 1)
      (MemStorage.lastIndex peer.store.memory + 1) with
    | .error error => .error (.storage (.memory error))
    | .ok suffix => .ok suffix

def publish (wire : Wire) (snapshot : Snapshot) (hs : HardState) (suffix : List Entry)
    (payload : Option Blob) (current : ConfState) : PeerM σ κ Unit := fun peer =>
  (do
    onJournal (Journal.rewrite wire peer.options snapshot (wire.encodeSnapshot snapshot) hs suffix payload)
    onStore (installLocal wire peer.directory
      (checkpointBatch wire peer.options snapshot hs suffix payload) snapshot payload)
    Attempt.update fun after =>
      { after with store := { after.store with
        memory := setConfState current after.store.memory } } : PeerM σ κ Unit) peer

def checkpointPayloadAt (wire : Wire) (data : Bytes) (payload : Option Blob) (index : Nat)
    (configuration : Option ConfState) : PeerM σ κ Unit := do
  healthy
  refuse (fun peer => data.length > maxCheckpointBytes ∨ hasReady peer.store peer.raw ∨
    peer.pendingRead.isSome ∨ peer.restoreOnOpen.isSome ∨ peer.appliedIndex = 0) (.invalid .unsettled)
  fun peer => (do
    let snapshot ← outcome (peer.capturedSnapshot data index configuration)
    outcome (validateSnapshotFor wire snapshot peer.options.voters peer.store.permitted)
    let suffix ← outcome (peer.suffixAfter index)
    stopping (publish wire snapshot (hardState peer.store.memory) suffix payload
      peer.confState) : PeerM σ κ Unit) peer

end DurablePeer
end MatrixRaft.Peer
