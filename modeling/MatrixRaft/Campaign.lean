/-
# Campaign — taking and handing over leadership inside the process

`campaign` makes a replica the leader of the next term at once and appends the
leader's no-op; `start`, leader transfer, step-down, resignation and the
timeout-now message are the ways into it.
-/
import MatrixRaft.Leases

namespace MatrixRaft.RaftCluster
open Theory

/-! ## The transfer on record -/

variable (s : RaftCluster)

def activeLeaderTransfer : Option LeaderTransferState :=
  s.leaderTransfer.filter fun transfer => transfer.conclusion.isNone

def abortLeaderTransfer (reason : String) : Bool × RaftCluster :=
  match s.activeLeaderTransfer with
  | none => (false, s)
  | some transfer =>
    (true, { s with
      leaderTransfer := some { transfer with reason := reason, conclusion := some .aborted }
      abortedLeaderTransfers := satAdd s.abortedLeaderTransfers 1 })

def completeLeaderTransfer (reason : String) : Bool × RaftCluster :=
  match s.activeLeaderTransfer with
  | none => (false, s)
  | some transfer =>
    (true, { s with
      leaderTransfer := some { transfer with reason := reason, conclusion := some .completed } })

def tickLeaderTransfer : Bool × RaftCluster :=
  match s.activeLeaderTransfer with
  | none => (false, s)
  | some transfer =>
    let elapsed := satAdd transfer.elapsedTicks 1
    let ticked := { s with leaderTransfer := some { transfer with elapsedTicks := elapsed } }
    if elapsed ≥ transfer.timeoutTicks then ticked.abortLeaderTransfer "transfer_timeout"
    else (false, ticked)

def concludeTransferFor (leaderId : Nat) (abortReason : String) : RaftCluster :=
  match s.activeLeaderTransfer with
  | none => s
  | some transfer =>
    if transfer.transfereeId = leaderId then
      (s.completeLeaderTransfer "transferee_became_leader").2
    else (s.abortLeaderTransfer abortReason).2

/-! ## Campaigns -/

/-- `b"no-op"`. -/
def noopPayload : Payload := [110, 111, 45, 111, 112]

def followerRole (node : Node) : StateRole :=
  if node.replicaRole = .learner then .learner else .follower

def adoptElection (nodeId : Nat) (role : StateRole) : RaftCluster :=
  s.mapNodes fun node =>
    { node with
      hardState.currentTerm := s.currentTerm
      hardState.votedFor := some nodeId
      raftRole := if node.id = nodeId then role else followerRole node }

def receiveNoop (leaderId : Nat) (entry : LogEntry) (node : Node) : Node :=
  if node.id = leaderId then node.appendEntry entry
  else if node.healthy && satAdd node.matchIndex 1 == entry.index then
    if node.replicaRole.canServeData then node.appendEntry entry
    else if node.replicaRole = .witness then node.appendWitnessEntry entry false
    else node
  else node

def broadcastLeaderNoop : ClusterM LogId := fun s =>
  match s.leaderId, s.nextLogIndex with
  | none, _ => (.error .noLeader, s)
  | some _, .error error => (.error error, s)
  | some leaderId, .ok index =>
    let entry : LogEntry := ⟨⟨s.currentTerm, index⟩, noopPayload, false⟩
    let appended := RaftCluster.mapNodes { s with lastLogIndex := index }
      (receiveNoop leaderId entry)
    (.ok entry.logId, appended.refreshClusterIndexes)

def claimLeadership (candidateId nextTerm : Nat) : RaftCluster :=
  let claimed := clearReorderQueues { s with
    lastIndexBeforeCurrentTerm := s.lastLogIndex
    currentTerm := nextTerm
    leaderId := some candidateId
    voteResponses := ∅
    preVoteResponses := ∅ }
  let concluded := claimed.concludeTransferFor candidateId "leader_changed_before_transfer_complete"
  concluded.resetLeaderLeaseEpoch.invalidateFollowerLease.adoptElection candidateId .leader

/-- The state a campaign leaves before its no-op. -/
def takeLeadership (candidateId nextTerm : Nat) : RaftCluster :=
  (s.claimLeadership candidateId nextTerm).refreshWitnessCommitQuorumPolicy.resetReplicationPipelinesForLeader
    candidateId

def campaign (candidateId : Nat) (forced : Bool) : ClusterM Unit := fun s =>
  if !s.running && !forced then (.error (.invalidRequest .campaignBeforeStart), s)
  else if s.prohibitsElection && !forced then
    (.error (.invalidRequest .electionProhibited), s)
  else if s.isFollowerLeaseValid && !forced then (.error (.invalidRequest .followerInLease), s)
  else match s.nodes[candidateId]? with
    | none => (.error (.nodeNotFound candidateId), s)
    | some candidate =>
      if !candidate.replicaRole.canBeLeader then
        (.error (.invalidRequest (.cannotBecomeLeader candidateId)), s)
      else if !candidate.healthy then (.error (.invalidRequest (.notHealthy candidateId)), s)
      else if s.leaderId = some candidateId ∧ candidate.raftRole = .leader then (.ok (), s)
      else match checkedAdd s.currentTerm 1 with
        | none => (.error (.invalidRequest .termExhausted), s)
        | some nextTerm =>
          let elected := s.takeLeadership candidateId nextTerm
          if s.running then (broadcastLeaderNoop >>= fun _ => pure ()) elected
          else (.ok (), elected)

/-! ## Starting and stopping -/

def firstHealthyVoter : Option Nat :=
  (s.members.find? fun node => node.replicaRole.canBeLeader && node.healthy).map Node.id

def start : ClusterM Unit := fun s =>
  let started := { s with running := true }
  if s.leaderId.isNone then
    match started.firstHealthyVoter with
    | none => (.error (.invalidRequest .noHealthyVoter), started)
    | some leaderId => campaign leaderId true started
  else (.ok (), started)

def stop : RaftCluster := invalidateLeaderLease { s with running := false }

/-! ## Leader transfer -/

inductive LeaderTransferAdmissionKind where
  | accepted | ignoredSelf | ignoredUnknownPeer | ignoredIneligiblePeer | duplicate | replaced
  deriving DecidableEq

def leaderTransferAdmissionKind (localId transfereeId : Nat)
    (currentTransfereeId : Option Nat) (transfereeRole : Option ReplicaRole) :
    LeaderTransferAdmissionKind :=
  if transfereeId = localId then .ignoredSelf
  else match transfereeRole with
    | none => .ignoredUnknownPeer
    | some role =>
      if !role.canBeLeader then .ignoredIneligiblePeer
      else if currentTransfereeId = some transfereeId then .duplicate
      else if currentTransfereeId.isSome then .replaced
      else .accepted

variable (target : Nat)

def recordTransfer (targetNode : Node) : RaftCluster :=
  let replacing := s.activeLeaderTransfer.isSome
  let aborted := s.abortedLeaderTransfers + if replacing then 1 else 0
  { s with
    abortedLeaderTransfers := aborted
    leaderTransfer := some
      { transfereeId := target
        elapsedTicks := 0
        timeoutTicks := s.leaderTransferTimeoutTicks
        abortedTransfers := aborted
        duplicateRequests := s.duplicateLeaderTransferRequests
        reason :=
          if !targetNode.healthy then "waiting_for_transferee_available"
          else if targetNode.matchIndex ≥ s.lastLogIndex then "transfer_ready"
          else "waiting_for_transferee_catchup"
        conclusion := none } }

def recordDuplicateTransfer : RaftCluster :=
  { s with
    duplicateLeaderTransferRequests := satAdd s.duplicateLeaderTransferRequests 1
    leaderTransfer := match s.activeLeaderTransfer with
      | none => s.leaderTransfer
      | some transfer => some { transfer with
          duplicateRequests := satAdd transfer.duplicateRequests 1
          reason := "duplicate_transfer_in_progress" } }

def beginLeaderTransfer : ClusterM Bool := fun s =>
  match s.leaderId, s.leader? with
  | some leaderId, some leader =>
    if leader.raftRole ≠ .leader ∨ !leader.healthy then (.error .noLeader, s)
    else
      match leaderTransferAdmissionKind leaderId target
          (s.activeLeaderTransfer.map LeaderTransferState.transfereeId)
          ((s.nodes[target]?).map Node.replicaRole), s.nodes[target]? with
      | .duplicate, _ => (.ok s.activeLeaderTransfer.isSome, s.recordDuplicateTransfer)
      | .accepted, some targetNode | .replaced, some targetNode =>
        (.ok true, s.recordTransfer target targetNode)
      | .accepted, none | .replaced, none => (.error (.nodeNotFound target), s)
      | _, _ => (.ok false, s)
  | _, _ => (.error .noLeader, s)

def leaderTransferTargetCaughtUp : Except RaftError Bool :=
  match s.nodes[target]? with
  | none => .error (.nodeNotFound target)
  | some node => .ok (node.healthy && node.matchIndex ≥ s.lastLogIndex)

inductive LeaderTransferOutcome where
  | ignored | pending | transferred
  deriving DecidableEq

/-- Campaign for the transferee when it has caught up; the outcome otherwise. -/
def finishTransfer : ClusterM Bool := fun s =>
  match s.leaderTransferTargetCaughtUp target with
  | .error error => (.error error, s)
  | .ok false => (.ok false, s)
  | .ok true =>
    (campaign target true >>= fun _ => fun elected =>
      (.ok true, (elected.completeLeaderTransfer "transfer_complete").2)) s

def transferLeaderOutcome : ClusterM LeaderTransferOutcome := do
  if ← beginLeaderTransfer target then
    if ← finishTransfer target then pure .transferred else pure .pending
  else pure .ignored

def transferLeader : ClusterM Unit := do
  let _ ← transferLeaderOutcome target
  pure ()

def tryCompleteLeaderTransfer : ClusterM Bool := fun s =>
  match s.activeLeaderTransfer with
  | none => (.ok false, s)
  | some transfer => finishTransfer transfer.transfereeId s

/-! ## Stepping down -/

/-- The best match index seen and, among its holders, the lowest id above the leader's
and the lowest id of all. -/
structure ClosestFollower where
  (best successor wrapped : Option Nat)

def ClosestFollower.visit (leaderId : Nat) (found : ClosestFollower) (node : Node) :
    ClosestFollower :=
  if node.id = leaderId ∨ !node.healthy ∨ !node.replicaRole.canBeLeader then found
  else if found.best.any fun best => node.matchIndex < best then found
  else
    let level :=
      if found.best = some node.matchIndex then found else ⟨some node.matchIndex, none, none⟩
    { level with
      wrapped := some (level.wrapped.elim node.id fun current => min current node.id)
      successor :=
        if node.id > leaderId then
          some (level.successor.elim node.id fun current => min current node.id)
        else level.successor }

def closestFollower : Option Nat :=
  s.leaderId.bind fun leaderId =>
    let found := s.members.foldl (ClosestFollower.visit leaderId) ⟨none, none, none⟩
    found.successor <|> found.wrapped

def stepDown (transferee : Option Nat) : ClusterM (Option Nat) := fun s =>
  match transferee <|> s.closestFollower with
  | none => (.error (.invalidRequest .noHealthyFollower), s)
  | some target => (transferLeader target >>= fun _ => pure (some target)) s

def dropLeadership (reason : String) : RaftCluster :=
  let silent := invalidateFollowerLease (invalidateLeaderLease { s with leaderId := none })
  (silent.abortLeaderTransfer reason).2.clearElectionResponses.clearReorderQueues

def resignLeader : ClusterM Bool := fun s =>
  match s.requireRunning "resign" with
  | .error error => (.error error, s)
  | .ok () =>
    match s.leaderId with
    | none => (.ok false, s)
    | some leaderId =>
      match s.nodes[leaderId]? with
      | none => (.ok false, s.dropLeadership "resign_missing_leader")
      | some leader =>
        let resigned := s.modifyNode leaderId fun node =>
          if leader.replicaRole.canBeLeader then
            { node with raftRole := .follower, autoPromote := false }
          else node
        (.ok true, (resigned.dropLeadership "resign_leader").refreshReplicationPipelines)

def stepDownLeaderIfLostQuorum : Bool × RaftCluster :=
  if s.leaderId.isNone || s.hasLiveQuorum || s.leaderLeaseValid then (false, s)
  else
    let silent := invalidateLeaderLease { s with leaderId := none }
    (true, (silent.abortLeaderTransfer "lost_quorum").2.mapNodes fun node =>
      if node.raftRole = .leader then { node with raftRole := .follower } else node)

/-! ## Timeout now -/

def timeoutNow («from» target : Nat) : ClusterM TimeoutNowResponse := fun s =>
  match s.nodes[target]? with
  | none => (.error (.nodeNotFound target), s)
  | some node =>
    if node.raftRole ≠ .follower ∨ !node.replicaRole.canBeLeader then
      (.ok ⟨target, «from», false, node.hardState.currentTerm, s.leaderId,
        .ignored node.replicaRole⟩, s)
    else
      (campaign target true >>= fun _ => fun elected =>
        (.ok ⟨target, «from», true, elected.currentTerm, elected.leaderId, .campaign⟩,
          elected)) s

end MatrixRaft.RaftCluster
