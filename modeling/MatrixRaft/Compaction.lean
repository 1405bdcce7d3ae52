/-
# Compaction — releasing log memory and describing state in a snapshot

Compaction discards applied entries from the front of every log, clamping the
leader's so that it can still serve a slower peer; a checkpoint names how far a
replica has got and carries its log.
-/
import MatrixRaft.Answers

namespace MatrixRaft

/-! ## The payload of a checkpoint -/

/-- A protobuf varint; ten groups of seven bits hold any `u64`. -/
def varint (value : Nat) : Payload := go 10 value
where
  go : Nat → Nat → Payload
    | 0, _ => []
    | groups + 1, value =>
      if value < 128 then [UInt8.ofNat value]
      else UInt8.ofNat (value % 128 + 128) :: go groups (value / 128)

def delimited (tag : UInt8) (body : Payload) : Payload := tag :: varint body.length ++ body

def uintField (tag : UInt8) (value : Nat) : Payload := if value = 0 then [] else tag :: varint value

def encodeEntry (entry : LogEntry) : Payload :=
  delimited 0x0a (uintField 0x08 entry.term ++ uintField 0x10 entry.index)
    ++ (if entry.payload.isEmpty then [] else delimited 0x12 entry.payload)
    ++ if entry.isCommand then [0x18, 0x01] else []

def encodeLog (entries : List LogEntry) : Payload :=
  entries.flatMap fun entry => delimited 0x0a (encodeEntry entry)

namespace RaftCluster
open Theory

/-! ## How far the log is replicated -/

variable (s : RaftCluster)

/-- The lowest match index of the peers `counts` selects, from the leader's own
confirmed apply index down. -/
def lowestReplicated (nodeId : Nat) (counts : Node → Bool) : Except RaftError Nat :=
  match s.nodes[nodeId]? with
  | none => .error (.nodeNotFound nodeId)
  | some node =>
    if node.raftRole = .leader then
      .ok (((s.members.filter fun peer => decide (peer.id ≠ nodeId) && counts peer).map
        Node.matchIndex).foldl min node.safetyAppliedIndex)
    else .ok node.safetyAppliedIndex

def minReplicatedIndex (nodeId : Nat) : Except RaftError Nat :=
  s.lowestReplicated nodeId Node.healthy

def minIndexAnyMemberNeeds (leaderId : Nat) : Except RaftError Nat :=
  s.lowestReplicated leaderId fun peer => peer.replicaRole.canServeData

/-! ## Compaction -/

variable (logIndex : Nat)

def compactionPoint (leaderLimit : Option Nat) (node : Node) : Nat :=
  if s.leaderId = some node.id then leaderLimit.elim logIndex (min logIndex) else logIndex

def compactLogsThroughWithLeaderLimit (leaderLimit : Option Nat) : Nat × RaftCluster :=
  let removed := (s.members.map fun node =>
    (node.compactLogThrough (s.compactionPoint logIndex leaderLimit node)).1).sum
  let compacted := s.mapNodes fun node =>
    (node.compactLogThrough (s.compactionPoint logIndex leaderLimit node)).2
  (removed, compacted.refreshClusterIndexes)

def compactLogsThrough : Nat × RaftCluster :=
  s.compactLogsThroughWithLeaderLimit logIndex
    (s.leaderId.bind fun leaderId => (s.minReplicatedIndex leaderId).toOption)

def validateStorageApplyFence (fence : StorageApplyFence) : Except RaftError Unit :=
  if fence.appliedIndex > fence.committedIndex then
    .error (.storage .appliedAheadOfCommitted)
  else if fence.durableAppliedIndex > fence.appliedIndex then
    .error (.storage .durableAheadOfApplied)
  else if fence.storageFlushedIndex < fence.durableAppliedIndex then
    .error (.storage .flushBehindDurable)
  else if fence.installedSnapshotIndex > fence.appliedIndex then
    .error (.storage .snapshotAheadOfApplied)
  else if fence.installedSnapshotIndex > 0
      && fence.firstRetainedLogIndex ≤ fence.installedSnapshotIndex then
    .error (.storage .retainedOverlapsSnapshot)
  else .ok ()

structure LogRetainedRange where
  (firstLogIndex lastLogIndex firstSegmentId lastSegmentId recordCount : Nat)
  deriving DecidableEq

def logRetainedRange : LogRetainedRange where
  firstLogIndex :=
    minimumIndex (s.members.filterMap fun node => node.log.head?.map LogEntry.index)
  lastLogIndex :=
    match s.members.filterMap fun node => node.log.getLast?.map LogEntry.index with
    | [] => s.lastLogIndex
    | lasts => maximumIndex lasts
  firstSegmentId := 0
  lastSegmentId := 0
  recordCount := (s.members.map fun node => node.log.length).sum

/-- Why a compaction is refused. -/
inductive CompactionBlocker where
  | invalidFence (error : RaftError)
  /-- The fence is behind the requested log index. -/
  | fenceBehind
  deriving DecidableEq

structure WalCompactionReport where
  (requestedLogIndex releasedSegments : Nat)
  retainedRange : LogRetainedRange
  fenceValid : Bool
  blocker : Option CompactionBlocker
  deriving DecidableEq

def blockedCompaction (blocker : CompactionBlocker) : WalCompactionReport :=
  ⟨logIndex, 0, s.logRetainedRange, false, some blocker⟩

def compactLogsWithStorageFence (fence : StorageApplyFence) : WalCompactionReport × RaftCluster :=
  match validateStorageApplyFence fence with
  | .error error => (s.blockedCompaction logIndex (.invalidFence error), s)
  | .ok () =>
    if fence.durableAppliedIndex < logIndex || fence.storageFlushedIndex < logIndex then
      (s.blockedCompaction logIndex .fenceBehind, s)
    else
      let compacted := s.compactLogsThrough logIndex
      (⟨logIndex, compacted.1, compacted.2.logRetainedRange, true, none⟩, compacted.2)

def isBusy : Bool :=
  s.leader?.any fun leader => leader.retainedLogBytes ≥ s.config.maxLogBufferBytes

def shouldReleaseMemory : Bool :=
  s.leader?.any fun leader =>
    leader.retainedLogBytes ≥ max (min (s.config.maxLogBufferBytes * 9) u64Max / 10) 1

def releaseThrough (releaseIndex : Nat) (leaderLimit : Option Nat) : Bool × RaftCluster :=
  if releaseIndex ≤ 1 then (false, s)
  else
    let compacted := s.compactLogsThroughWithLeaderLimit (releaseIndex - 1) leaderLimit
    (compacted.1 > 0, compacted.2)

def releaseMemory : ClusterM Bool := fun s =>
  match s.leaderId with
  | none =>
    let released := s.releaseThrough (minimumIndex (s.members.map Node.safetyAppliedIndex)) none
    (.ok released.1, released.2)
  | some leaderId =>
    let floor :=
      if s.config.canTriggerSnapshot then s.minReplicatedIndex leaderId
      else s.minIndexAnyMemberNeeds leaderId
    match floor with
    | .error error => (.error error, s)
    | .ok replicated =>
      -- under memory pressure a snapshot can rescue a stranded follower
      let releaseIndex :=
        if s.shouldReleaseMemory && s.config.canTriggerSnapshot then
          max replicated ((s.nodes[leaderId]?).elim replicated Node.safetyAppliedIndex)
        else replicated
      let released := s.releaseThrough releaseIndex (some releaseIndex)
      (.ok released.1, released.2)

/-! ## Checkpoints -/

def checkpointSnapshot (nodeId : Nat) (snapshotId : SnapshotId) : Except RaftError RaftSnapshot :=
  match s.nodes[nodeId]? with
  | none => .error (.nodeNotFound nodeId)
  | some node =>
    let payload := encodeLog node.log
    .ok
      { groupId := s.groupId
        snapshotMeta :=
          { snapshotId := snapshotId
            lastLogId := ⟨node.hardState.currentTerm, max node.commitIndex node.matchIndex⟩
            membership := s.nodes.keys
            members := s.snapshotMembers
            payloadBytes := payload.length }
        payload := payload }

end RaftCluster
end MatrixRaft
