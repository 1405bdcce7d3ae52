/-
# Peer.Raw — the raft core as the runtime drives it

raft-rs's `RawNode` is not part of this repository.  Its messages are declared here, and the
node itself is an interface: whatever it decides, it decides through these calls.
-/
import MatrixRaft.Peer.Reopen

namespace MatrixRaft.Peer
open Theory List

/-! ## Messages -/

inductive MessageType where
  | msgHup | msgBeat | msgPropose | msgAppend | msgAppendResponse | msgRequestVote
  | msgRequestVoteResponse | msgSnapshot | msgHeartbeat | msgHeartbeatResponse | msgUnreachable
  | msgSnapStatus | msgCheckQuorum | msgTransferLeader | msgTimeoutNow | msgReadIndex
  | msgReadIndexResp | msgRequestPreVote | msgRequestPreVoteResponse
  deriving DecidableEq, Inhabited

/-- The values of the enumeration by their numbers. -/
def messageTypes : List MessageType :=
  [.msgHup, .msgBeat, .msgPropose, .msgAppend, .msgAppendResponse, .msgRequestVote,
    .msgRequestVoteResponse, .msgSnapshot, .msgHeartbeat, .msgHeartbeatResponse, .msgUnreachable,
    .msgSnapStatus, .msgCheckQuorum, .msgTransferLeader, .msgTimeoutNow, .msgReadIndex,
    .msgReadIndexResp, .msgRequestPreVote, .msgRequestPreVoteResponse]

def MessageType.number (kind : MessageType) : Nat := messageTypes.idxOf kind

structure Message where
  /-- The number of the type; one the enumeration does not have is read as its first. -/
  (msgType «to» «from» term logTerm index : Nat)
  entries : List Entry
  (commit commitTerm : Nat)
  snapshot : Option Snapshot
  requestSnapshot : Nat
  reject : Bool
  rejectHint : Nat
  context : Bytes
  (deprecatedPriority priority : Nat)
  deriving DecidableEq, Inhabited

def Message.getMsgType (message : Message) : MessageType :=
  messageTypes[message.msgType]?.getD .msgHup

def Message.getSnapshot (message : Message) : Snapshot := message.snapshot.getD default

/-! ## The core -/

inductive StateRole where
  | follower | candidate | leader | preCandidate
  deriving DecidableEq

/-- `RawNode<PeerStorage>`: its calls may look at the storage, and a call that fails may have changed
the core. -/
class RawNode (σ κ : Type) where
  term : κ → Nat
  state : κ → StateRole
  (committed applied : κ → Nat)
  lastIndex : PeerStorage σ → κ → Nat
  pendingConfIndex : κ → Nat
  /-- `prs().get(id)`, its `matched` position. -/
  matched : κ → Nat → Option Nat
  hasReady : PeerStorage σ → κ → Bool
  /-- Whether the call succeeded, and the core after it. -/
  proposeConfChange : PeerStorage σ → ConfChangeV2 → κ → Bool × κ
  applyConfChange : PeerStorage σ → ConfChangeV2 → κ → Option ConfState × κ
  becomeFollower : Nat → Nat → κ → κ

/-! ## Changes of configuration in the raft core -/

namespace ConfState
variable (conf : ConfState)

def without (id : Nat) : ConfState :=
  { conf with
    voters := conf.voters.filter (· ≠ id)
    learners := conf.learners.filter (· ≠ id)
    learnersNext := conf.learnersNext.filter (· ≠ id) }

def withVoter (id : Nat) : ConfState :=
  { conf with
    voters := conf.voters.insert id
    learners := conf.learners.filter (· ≠ id)
    learnersNext := conf.learnersNext.filter (· ≠ id) }

/-- `Changer::make_learner`: a voter of the outgoing half waits for the joint phase to end. -/
def withLearner (id : Nat) : ConfState :=
  let rest := conf.without id
  if id ∈ conf.learners then conf
  else if id ∈ conf.votersOutgoing then { rest with learnersNext := rest.learnersNext ++ [id] }
  else { rest with learners := rest.learners ++ [id] }

/-- One change; identity zero is skipped, and an unknown kind is read as `AddNode`. -/
def single (change : ConfChangeSingle) : ConfState :=
  if change.nodeId = 0 then conf
  else match change.changeType with
    | 1 => conf.without change.nodeId
    | 2 => conf.withLearner change.nodeId
    | _ => conf.withVoter change.nodeId

/-- Both halves are the current voters. -/
def joint (autoLeave : Bool) : ConfState :=
  { conf with votersOutgoing := conf.voters, autoLeave := autoLeave }

/-- The outgoing half is dropped. -/
def left : ConfState :=
  { conf with
    learners := conf.learners ++ conf.learnersNext
    votersOutgoing := []
    learnersNext := []
    autoLeave := false }

/-- The result is refused where no voter is left. -/
def voting : Option ConfState := if conf.voters = [] then none else some conf

/-- The configuration after a change (`leave_joint`, `simple` and `enter_joint`), `none` where
the change is refused. -/
def changed (change : ConfChangeV2) : Option ConfState :=
  if change.transition = 0 ∧ change.changes = [] then
    if conf.votersOutgoing = [] then none else some conf.left
  else if conf.votersOutgoing ≠ [] then none
  else if change.transition = 0 ∧ change.changes.length ≤ 1 then
    (change.changes.foldl single conf).voting
  else if conf.voters = [] then none
  -- only `Explicit` waits to be left
  else (change.changes.foldl single (conf.joint (change.transition ≠ 2))).voting

def once : ConfState :=
  { conf with
    voters := conf.voters.dedup
    learners := conf.learners.dedup
    votersOutgoing := conf.votersOutgoing.dedup
    learnersNext := conf.learnersNext.dedup }

structure SameMembers (documented conf : ConfState) : Prop where
  voters : conf.voters.Nodup ∧ ∀ id, id ∈ conf.voters ↔ id ∈ documented.voters
  votersOutgoing : conf.votersOutgoing.Nodup ∧
    ∀ id, id ∈ conf.votersOutgoing ↔ id ∈ documented.votersOutgoing
  learners : conf.learners.Nodup ∧ ∀ id, id ∈ conf.learners ↔ id ∈ documented.learners
  learnersNext : conf.learnersNext.Nodup ∧
    ∀ id, id ∈ conf.learnersNext ↔ id ∈ documented.learnersNext
  autoLeave : conf.autoLeave = documented.autoLeave

theorem once_sameMembers : conf.SameMembers conf.once :=
  ⟨⟨nodup_dedup _, fun _ => mem_dedup⟩, ⟨nodup_dedup _, fun _ => mem_dedup⟩,
    ⟨nodup_dedup _, fun _ => mem_dedup⟩, ⟨nodup_dedup _, fun _ => mem_dedup⟩, rfl⟩

end ConfState

structure SettledCore where
  (term applied last : Nat)
  deriving DecidableEq

instance : RawNode LogImage SettledCore where
  term := SettledCore.term
  state _ := .leader
  committed := SettledCore.applied
  applied := SettledCore.applied
  lastIndex _ := SettledCore.last
  pendingConfIndex _ := 0
  matched core _ := some core.last
  hasReady _ _ := false
  proposeConfChange _ _ core := (true, { core with last := core.last + 1 })
  applyConfChange store change core :=
    (((MemStorage.confState store.memory).changed change).map ConfState.once, core)
  becomeFollower _ _ core := core

/-! ## Packets -/

/-- A part of a checkpoint on its way to another peer, or the acknowledgment of one. -/
structure Fragment where
  («from» «to» term index total : Nat)
  checksum : UInt64
  offset : Nat
  data : Bytes
  (ack fileBacked : Bool)
  deriving DecidableEq

/-- The protobuf encoding of a message. -/
structure Transport where
  message : Codec Message

def messageCodec : Codec Message :=
  .ofFields
    (fun message =>
      numberField 1 message.msgType ++ numberField 2 message.to ++ numberField 3 message.from ++
        numberField 4 message.term ++ numberField 5 message.logTerm ++ numberField 6 message.index ++
        ((message.entries.map entryCodec.encode).map fun held => (7, Field.bytes held)) ++
        numberField 8 message.commit ++ optionalField 9 (message.snapshot.map snapshotCodec.encode) ++
        numberField 10 message.reject.toNat ++ numberField 11 message.rejectHint ++
        bytesField 12 message.context ++ numberField 13 message.requestSnapshot ++
        numberField 14 message.deprecatedPriority ++ numberField 15 message.commitTerm ++
        numberField 16 message.priority)
    (fun fields => do
      let entries ← (bytesAt 7 fields).mapM entryCodec.decode
      let snapshot ← match (bytesAt 9 fields).getLast? with
        | none => some none
        | some held => (snapshotCodec.decode held).map some
      some
        { msgType := numberAt 1 fields, «to» := numberAt 2 fields, «from» := numberAt 3 fields
          term := numberAt 4 fields, logTerm := numberAt 5 fields, index := numberAt 6 fields
          entries := entries, commit := numberAt 8 fields, commitTerm := numberAt 15 fields
          snapshot := snapshot, requestSnapshot := numberAt 13 fields
          reject := numberAt 10 fields != 0, rejectHint := numberAt 11 fields
          context := blobAt 12 fields, deprecatedPriority := numberAt 14 fields
          priority := numberAt 16 fields })
    (fun message => by
      rcases message with ⟨msgType, «to», «from», term, logTerm, index, entries, commit, commitTerm,
        snapshot, requestSnapshot, reject, rejectHint, context, deprecatedPriority, priority⟩
      cases snapshot <;> cases reject <;>
        simp [numberAt, blobAt, entryCodec.mapM_decode, snapshotCodec.decode_encode, -map_map])

def protobufTransport : Transport where
  message := messageCodec

def packetFields (version group : Nat) (message : Bytes) : Fields :=
  numberField 1 version ++ numberField 2 group ++ bytesField 3 message

def encodeEnvelope (version group : Nat) (message : Bytes) : Except PeerError Bytes :=
  let bytes := writeFields (packetFields version group message)
  if bytes.length > limit then .error (.invalid .outgoingBound) else .ok bytes

/-- The rest of a number of at most ten bytes: `index` of them are read and make `value`.  The bits
of a byte go above those read before it, so adding them is the source's `|=`. -/
def takeVarintFrom : Nat → Nat → Bytes → Option (Nat × Bytes)
  | _, _, [] => none
  | index, value, byte :: rest =>
    if index ≥ 10 ∨ (index = 9 ∧ byte.toNat > 1) then none
    else
      let value := value + byte.toNat % 128 * 128 ^ index
      if byte.toNat < 128 then
        if (varint value).length = index + 1 then some (value, rest) else none
      else takeVarintFrom (index + 1) value rest

/-- A number in its shortest form, and what follows it. -/
def takeCanonicalVarint (input : Bytes) : Option (Nat × Bytes) := takeVarintFrom 0 0 input

def takeField (key : UInt8) (input : Bytes) : Option (Nat × Bytes) :=
  if input.head? = some key then
    match takeCanonicalVarint input.tail with
    | none => none
    | some (value, rest) => if value = 0 then none else some (value, rest)
  else some (0, input)

def takeMessage (input : Bytes) : Option Bytes :=
  if input.head? = some 0x1a then
    match takeCanonicalVarint input.tail with
    | none => none
    | some (length, rest) => if length = 0 ∨ rest.length ≠ length then none else some rest
  else if input = [] then some []
  else none

def decodeCanonicalPacket (bytes : Bytes) : Option (Nat × Nat × Bytes) := do
  let (version, rest) ← takeField 0x08 bytes
  -- `u32::try_from`, and a version is never absent
  if version = 0 ∨ version ≥ 2 ^ 32 then none
  else do
    let (group, rest) ← takeField 0x10 rest
    let message ← takeMessage rest
    some (version, group, message)

end MatrixRaft.Peer
