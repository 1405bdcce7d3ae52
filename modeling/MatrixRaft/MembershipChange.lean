/-
# MembershipChange — which membership entries are still in flight

The bookkeeping around configuration entries: the one pending in the log, the one
being made durable, and the floor snapshots and truncation put under them.
-/
import MatrixRaft.Campaign

namespace MatrixRaft.RaftCluster
open Theory
variable (s : RaftCluster)

def membershipChangeFenceActive : Bool :=
  s.pendingMembershipChangeIndex.any (fun pending => pending > s.appliedIndex)
    || s.savingMembershipChangeIndex.any fun saving => saving > s.stabledMembershipChangeIndex

def unsavedMembershipChange : Option Nat :=
  s.savingMembershipChangeIndex.filter fun saving => saving > s.stabledMembershipChangeIndex

def unappliedMembershipChange : Option Nat :=
  s.pendingMembershipChangeIndex.filter fun pending => pending > s.appliedIndex

variable (logIndex : Nat)

def beginPendingMembershipChange : ClusterM Unit := fun s =>
  if logIndex = 0 then (.error (.invalidRequest .membershipChangeIndexZero), s)
  else match s.unsavedMembershipChange with
    | some saving => (.error (.invalidRequest (.savingMembershipChange saving)), s)
    | none =>
      match s.unappliedMembershipChange with
      | some pending => (.error (.invalidRequest (.pendingMembershipChange pending)), s)
      | none =>
        (.ok (), { s with
          pendingMembershipChangeIndex := some logIndex
          membershipChangeIndexes := s.membershipChangeIndexes.insert logIndex })

def beginSavingMembershipChange : ClusterM Unit := fun s =>
  if logIndex = 0 then (.error (.invalidRequest .membershipChangeIndexZero), s)
  else match s.unsavedMembershipChange with
    | some saving => (.error (.invalidRequest (.savingMembershipChange saving)), s)
    | none =>
      match s.unappliedMembershipChange.filter fun pending => pending ≠ logIndex with
      | some pending => (.error (.invalidRequest (.pendingMembershipChange pending)), s)
      | none =>
        (.ok (), { s with
          pendingMembershipChangeIndex := some logIndex
          membershipChangeIndexes := s.membershipChangeIndexes.insert logIndex
          savingMembershipChangeIndex := some logIndex })

def markMembershipChangeApplied : RaftCluster :=
  { s with
    appliedIndex := max s.appliedIndex logIndex
    pendingMembershipChangeIndex :=
      if s.pendingMembershipChangeIndex.any (fun pending => pending ≤ logIndex)
          && !s.savingMembershipChangeIndex.any (fun saving => saving ≤ logIndex) then none
      else s.pendingMembershipChangeIndex }

def markMembershipChangeStabled : RaftCluster :=
  let stabled := max s.stabledMembershipChangeIndex logIndex
  let saved := { s with
    stabledMembershipChangeIndex := stabled
    savingMembershipChangeIndex :=
      s.savingMembershipChangeIndex.filter fun saving => saving > stabled }
  if s.appliedIndex ≥ logIndex then saved.markMembershipChangeApplied logIndex else saved

def submitStabledResult (firstIndex lastIndex : Option Nat)
    (stabledIndex : Nat) : ClusterM Bool := fun s =>
  let stabled := if stabledIndex > 0 then s.markMembershipChangeStabled stabledIndex else s
  match firstIndex, lastIndex with
  | some first, some last =>
    if first = 0 ∨ last = 0 ∨ first > last then
      (.error (.invalidRequest (.invalidStabledRange first last)), s)
    else (.ok true, stabled.refreshCommitIndex)
  | none, none => (.ok false, stabled)
  | _, _ => (.error (.invalidRequest .stabledRangeIncomplete), s)

def markSnapshotMembershipFloorApplied (snapshotIndex : Nat) : RaftCluster :=
  let retained := s.membershipChangeIndexes.filter fun index => index > snapshotIndex
  let savedBelow := s.savingMembershipChangeIndex.any fun saving => saving ≤ snapshotIndex
  { s with
    appliedIndex := max s.appliedIndex snapshotIndex
    membershipChangeIndexes := retained
    savingMembershipChangeIndex := if savedBelow then none else s.savingMembershipChangeIndex
    stabledMembershipChangeIndex :=
      if savedBelow then max s.stabledMembershipChangeIndex snapshotIndex
      else s.stabledMembershipChangeIndex
    pendingMembershipChangeIndex := retained.toList.getLast? }

def resetPendingMembershipChangeAfterTruncation (lastRetainedLogIndex committedIndex : Nat) : RaftCluster :=
  let retained := s.membershipChangeIndexes.filter fun index => index ≤ lastRetainedLogIndex
  { s with
    membershipChangeIndexes := retained
    savingMembershipChangeIndex :=
      s.savingMembershipChangeIndex.filter fun saving => saving ≤ lastRetainedLogIndex
    pendingMembershipChangeIndex :=
      retained.toList.reverse.find? fun index => index > committedIndex }

/-! ## Promotion -/

/-- The replica becomes a voter that follows. -/
def promoted (node : Node) : Node :=
  { node with
    replicaRole := .voter
    raftRole := .follower
    autoPromote := false
    autoPromoteState := .promoted }

def promotePeer (nodeId : Nat) : ClusterM Unit := fun s =>
  match s.requireRunning "promote a peer" with
  | .error error => (.error error, s)
  | .ok () =>
    match s.nodes[nodeId]? with
    | none => (.error (.nodeNotFound nodeId), s)
    | some node =>
      if node.replicaRole ≠ .learner then (.error (.invalidRequest (.notLearner nodeId)), s)
      else if node.matchIndex < s.commitIndex then
        (.error (.invalidRequest (.behindCommitted nodeId s.commitIndex)), s)
      else (.ok (), (s.modifyNode nodeId promoted).resetLeaderLeaseEpoch)

end MatrixRaft.RaftCluster
