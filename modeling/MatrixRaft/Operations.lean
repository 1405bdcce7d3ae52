/-
# Operations — everything that can happen to a cluster

The membership executor and the snapshot lifecycle's way into a cluster, then every method
that changes one, as a type.  `step` hands each message and each admin command to one of
these methods, or answers it without a change, so a run of the cluster is a list of
operations.
-/
import MatrixRaft.Recovery
import MatrixRaft.SnapshotLifecycle

namespace MatrixRaft
open Theory

namespace RaftCluster

/-! ## The membership executor -/

structure LearnerCatchUpReport where
  (learnerId learnerMatchIndex leaderCommitIndex : Nat)
  caughtUp : Bool
  lag : Nat
  promotable : Bool
  reason : String
  deriving DecidableEq

def catchupReport (s : RaftCluster) (learnerId : Nat) : Except RaftError LearnerCatchUpReport :=
  match s.nodes[learnerId]? with
  | none => .error (.nodeNotFound learnerId)
  | some node =>
    let isLearner := s.membership.learners.contains learnerId
    let caughtUp := isLearner && node.matchIndex ≥ s.commitIndex
    .ok
      { learnerId := learnerId
        learnerMatchIndex := node.matchIndex
        leaderCommitIndex := s.commitIndex
        caughtUp := caughtUp
        lag := s.commitIndex - node.matchIndex
        promotable := caughtUp
        reason :=
          if !isLearner then "node_is_not_learner"
          else if caughtUp then "learner_caught_up"
          else "learner_lagging" }

def validatePeerAbsent (membership : Membership) (nodeId : Nat) : List MembershipBlocker :=
  if membership.voters.contains nodeId || membership.learners.contains nodeId
      || membership.witnesses.contains nodeId then [.alreadyMember nodeId]
  else []

def validateMembershipOperation (s : RaftCluster) : MembershipOperation → List MembershipBlocker
  | .addNode peer =>
    if peer.role = .voter ∧ s.membership.learners.contains peer.nodeId then []
    else validatePeerAbsent s.membership peer.nodeId
  | .addVoter peer =>
    if s.membership.learners.contains peer.nodeId then []
    else validatePeerAbsent s.membership peer.nodeId
  | .addLearner peer => validatePeerAbsent s.membership peer.nodeId
  | .addWitness peer => validatePeerAbsent s.membership peer.nodeId
  | .promote nodeId => if s.membership.learners.contains nodeId then [] else [.notLearner nodeId]
  | .remove nodeId =>
    let membership := s.membership
    (if membership.voters.contains nodeId || membership.learners.contains nodeId
        || membership.witnesses.contains nodeId then [] else [.notMember nodeId])
      ++ (if membership.voters.contains nodeId && membership.voters.length ≤ 1 then [.lastVoter]
        else [])
      ++ if s.leaderId = some nodeId ∧ s.closestFollower = none then [.leaderWithoutTransfer]
        else []
  | .transferLeader nodeId =>
    match s.nodes[nodeId]? with
    | none => [.notFound nodeId]
    | some node =>
      if !node.replicaRole.canBeLeader then [.cannotBeLeader nodeId]
      else if node.matchIndex < s.commitIndex then [.lagging nodeId]
      else []

/-- Catch the learner up, and promote it if that brought it to the commit point. -/
def executePromotion (nodeId : Nat) : ClusterM Unit := do
  let caughtUp ← learnerCatchUpLoop nodeId
  fun s =>
    if !caughtUp.caughtUp then
      (.error (.invalidRequest (.cannotBePromoted nodeId caughtUp.reason)), s)
    else match s.catchupReport nodeId with
      | .error error => (.error error, s)
      | .ok report =>
        if report.promotable then promotePeer nodeId s
        else (.error (.invalidRequest (.cannotBePromoted nodeId report.reason)), s)

def executeValidated : MembershipOperation → ClusterM Unit
  | .addNode peer => applyCommittedMembershipOperation (.addNode peer) >>= fun _ => pure ()
  | .addVoter peer =>
    applyCommittedMembershipOperation (.addVoter { peer with role := .voter }) >>= fun _ => pure ()
  | .addLearner peer => addLearner peer
  | .addWitness peer => addWitness peer
  | .promote nodeId => executePromotion nodeId
  | .remove nodeId => removePeer nodeId
  | .transferLeader nodeId => transferLeader nodeId

/-- `MembershipExecutor::execute`, without the report it keeps. -/
def execute (operation : MembershipOperation) : ClusterM Unit := fun s =>
  match s.validateMembershipOperation operation with
  | [] => executeValidated operation s
  | blocker :: blockers => (.error (.invalidRequest (.membershipBlocked (blocker :: blockers))), s)

/-! ## A chunk through its own lifecycle -/

def installFromLifecycle (target : Nat) (request : InstallSnapshotRequest)
    (nextOffset installedIndex : Nat) (snapshot : RaftSnapshot) : ClusterM InstallSnapshotResponse := fun s =>
  let index := snapshot.snapshotMeta.lastLogId.index
  let answer (term committed : Nat) (reason : InstallReason) : InstallSnapshotResponse :=
    ⟨max term request.term, true, nextOffset, committed, reason, false⟩
  if index ≤ installedIndex then
    (.ok (answer s.currentTerm installedIndex .staleSnapshotIgnored), s)
  else
    (installSnapshotTo target snapshot (completedFence index) >>= fun _ => fun installed =>
      (.ok (answer installed.currentTerm index .installed), installed)) s

def acceptLifecycleChunk (target : Nat) (node : Node) (request : InstallSnapshotRequest)
    (nextOffset : Nat) (lifecycle : SnapshotLifecycle) (s : RaftCluster) :
    (Except RaftError InstallSnapshotResponse × RaftCluster) × SnapshotLifecycle :=
  let answer (committed : Nat) (reason : InstallReason) : InstallSnapshotResponse :=
    ⟨max s.currentTerm request.term, true, nextOffset, committed, reason, false⟩
  if staleSnapshotChunk node request.chunk.snapshotMeta.lastLogId.index then
    ((.ok (answer node.commitIndex .staleSnapshotIgnored), s.dropInstaller target), lifecycle)
  else match SnapshotLifecycle.installRequest request lifecycle with
    | (.error error, lifecycle) => ((.error error, s), lifecycle)
    | (.ok none, lifecycle) => ((.ok (answer 0 .chunkAccepted), s), lifecycle)
    | (.ok (some snapshot), lifecycle) =>
      (installFromLifecycle target request nextOffset node.snapshotIndex snapshot s, lifecycle)

def installSnapshotLifecycleRequestTo (target : Nat) (lifecycle : SnapshotLifecycle)
    (request : InstallSnapshotRequest) (s : RaftCluster) :
    (Except RaftError InstallSnapshotResponse × RaftCluster) × SnapshotLifecycle :=
  if request.groupId ≠ s.groupId then
    ((.error (.invalidRequest .snapshotLifecycleGroupMismatch), s), lifecycle)
  else
    let nextOffset := satAdd request.chunk.offset request.chunk.data.length
    match s.nodes[target]? with
    | none => ((.error (.nodeNotFound target), s), lifecycle)
    | some node =>
      match s.rejectSnapshotBeforeObserve node request nextOffset with
      | some response => ((.ok response, s), lifecycle)
      | none =>
        let observed := s.observeSnapshotLeader request.term request.leaderId
        match observed.nodes[target]? with
        | none => ((.error (.nodeNotFound target), observed), lifecycle)
        | some node => acceptLifecycleChunk target node request nextOffset lifecycle observed

end RaftCluster

/-! ## Operations -/

/-- The methods that change a cluster, with their arguments. -/
inductive Operation where
  -- lifecycle and liveness
  | start | stop
  | setNodeHealthy (nodeId : Nat) (healthy : Bool)
  | partitionPeer (nodeId : Nat)
  | healPeer (nodeId : Nat)
  | tickPeerLiveness (elapsedMs : Nat)
  | tickReorderQueues (elapsedUs : Nat)
  | broadcastHeartbeat | broadcastCommitIndexToOldPausedPeers
  -- leases and the witness policy
  | setLeaderLeaseValid (valid : Bool)
  | setFollowerLeaseValid (valid : Bool)
  | tickFollowerLease (elapsedMs : Nat)
  | receiveFollowerLeaseItem (epoch : Nat)
  | renewLeaderLeaseFromLiveQuorum | expireLeaderLease
  | tickLeaderLease (elapsedMs : Nat)
  | receiveLeaderLeaseConfirmation (nodeId confirmationEpoch : Nat)
  | receiveLeaderLeaseConfirmationWithDuration (nodeId confirmationEpoch durationMs : Nat)
  | setIgnoreWitness (ignoreWitness : Bool)
  | refreshWitnessCommitQuorumPolicy | stepDownLeaderIfLostQuorum
  | witnessQuorumReport (acknowledgements : List Nat)
  -- membership changes in flight
  | beginPendingMembershipChange (logIndex : Nat)
  | beginSavingMembershipChange (logIndex : Nat)
  | markMembershipChangeStabled (logIndex : Nat)
  | submitStabledResult (firstIndex lastIndex : Option Nat) (stabledIndex : Nat)
  | markMembershipChangeApplied (logIndex : Nat)
  | markSnapshotMembershipFloorApplied (snapshotIndex : Nat)
  | resetPendingMembershipChangeAfterTruncation (lastRetainedLogIndex committedIndex : Nat)
  -- apply progress
  | markApplyTaskInflight (nodeId appliedIndex : Nat)
  | markApplyTaskInflightWithFence (nodeId appliedIndex durableCommitIndex : Nat)
  | submitApplyResult (nodeId appliedIndex : Nat) (rejected : Bool)
  -- elections and leadership
  | setProhibitsElection (prohibitsElection : Bool)
  | campaign (candidateId : Nat) (forced : Bool)
  | timeoutNow («from» target : Nat)
  | voteTo (target : Nat) (request : VoteRequest)
  | handleVoteResponse (localNodeId : Nat) (response : VoteResponse) (preVote : Bool)
  | handleVoteResponseFrom (localNodeId peerId : Nat) (response : VoteResponse) (preVote : Bool)
  | beginLeaderTransfer (target : Nat)
  | transferLeader (target : Nat)
  | transferLeaderOutcome (target : Nat)
  | tryCompleteLeaderTransfer | tickLeaderTransfer
  | abortLeaderTransfer (reason : String)
  | stepDown (transferee : Option Nat)
  | resignLeader
  | applyFatalEvent (nodeId : Nat)
  -- proposals and appends
  | propose (payload : Payload)
  | proposeWithOptions (payload : Payload) (options : ProposeOptions)
  | proposeMembershipChange (payload : Payload)
  | appendEntriesTo (target : Nat) (request : AppendEntriesRequest)
  | appendEntriesWithMembershipChangeIndexesTo (target : Nat) (request : AppendEntriesRequest)
      (membershipChangeIndexes : List Nat)
  | handleAppendEntriesResponse (localNodeId peerId : Nat) (response : AppendEntriesResponse)
  | catchUpPeer (peerId : Nat)
  | catchUpLaggingPeers
  | learnerCatchUpLoop (learnerId : Nat)
  -- members
  | addPeer (peer : Peer)
  | addLearner (peer : Peer)
  | addWitness (peer : Peer)
  | promotePeer (nodeId : Nat)
  | removePeer (nodeId : Nat)
  | applyCommittedMembershipOperation (operation : MembershipOperation)
  | execute (operation : MembershipOperation)
  | autoPromoteLearner (learnerId : Nat)
  -- compaction, snapshots and recovery
  | compactLogsThrough (logIndex : Nat)
  | compactLogsWithStorageFence (logIndex : Nat) (fence : StorageApplyFence)
  | releaseMemory
  | installSnapshotTo (target : Nat) (snapshot : RaftSnapshot) (fence : ApplySnapshotFence)
  | installSnapshotWithTailTo (target : Nat) (snapshot : RaftSnapshot) (fence : ApplySnapshotFence)
      (tail : List LogEntry)
  | installSnapshotChunkTo (target : Nat) (request : InstallSnapshotRequest)
  | installSnapshotLifecycleRequestTo (target : Nat) (lifecycle : SnapshotLifecycle)
      (request : InstallSnapshotRequest)
  | handleInstallSnapshotResponse (localNodeId peerId : Nat) (response : InstallSnapshotResponse)
  | triggerSnapshot | tickSnapshotTrigger
  | completeSnapshotTrigger (snapshotId : SnapshotId)
  | handleSnapshotReady (snapshotId : SnapshotId) (success : Bool)
  | restoreWalRecord (record : WalRecord)
  -- one peer's pipeline
  | receiveOutOfOrderAppendFor (peerId : Nat) (entry : LogEntry)
  | expirePeerReorderQueue (peerId : Nat)
  | recordNetworkErrorFor (peerId : Nat)
  | recordReplicationTaskResultFor (peerId : Nat) (success : Bool)
  | beginSnapshotSendTo (peerId : Nat) (snapshotId : SnapshotId) (snapshotIndex totalChunks : Nat)
  | recordSnapshotChunkSentTo (peerId bytes : Nat)
  | acknowledgeSnapshotChunkTo (peerId : Nat)
  | handleSnapshotFinishFrom (peerId : Nat) (accepted : Bool) (committedIndex : Nat)
  | updateSnapshotProgressFrom (peerId : Nat) (remoteReceiving : Bool) (elapsedMs sendTimeoutMs : Nat)
  | retrySnapshotChunkTo (peerId : Nat)
  | cancelSnapshotSendTo (peerId : Nat)
  | beginSnapshotInstallFrom (peerId : Nat) (snapshotId : SnapshotId)
      (snapshotIndex totalChunks : Nat)
  | receiveSnapshotChunkFrom (peerId bytes : Nat) (done : Bool)
  | rollbackSnapshotInstallFrom (peerId : Nat)

namespace Operation

/-- The cluster after an operation, whether it succeeds or fails. -/
def run (operation : Operation) (s : RaftCluster) : RaftCluster :=
  match operation with
  | start => s.start.2
  | stop => s.stop
  | setNodeHealthy nodeId healthy => (s.setNodeHealthy nodeId healthy).2
  | partitionPeer nodeId => (s.setNodeHealthy nodeId false).2
  | healPeer nodeId => (s.healPeer nodeId).2
  | tickPeerLiveness elapsedMs => (s.tickPeerLiveness elapsedMs).2
  | tickReorderQueues elapsedUs => s.tickReorderQueues elapsedUs
  | broadcastHeartbeat => s.broadcastHeartbeat.2
  | broadcastCommitIndexToOldPausedPeers => s.broadcastCommitIndexToOldPausedPeers.2
  | setLeaderLeaseValid valid => s.setLeaderLeaseValid valid
  | setFollowerLeaseValid valid => s.setFollowerLeaseValid valid
  | tickFollowerLease elapsedMs => (s.tickFollowerLease elapsedMs).2
  | receiveFollowerLeaseItem epoch => (s.receiveFollowerLeaseItem epoch).2
  | renewLeaderLeaseFromLiveQuorum => s.renewLeaderLeaseFromLiveQuorum
  | expireLeaderLease => s.expireLeaderLease
  | tickLeaderLease elapsedMs => (s.tickLeaderLease elapsedMs).2
  | receiveLeaderLeaseConfirmation nodeId epoch =>
    (s.receiveLeaderLeaseConfirmationWithDuration nodeId epoch s.config.leaderLeaseMs).2
  | receiveLeaderLeaseConfirmationWithDuration nodeId epoch durationMs =>
    (s.receiveLeaderLeaseConfirmationWithDuration nodeId epoch durationMs).2
  | setIgnoreWitness ignoreWitness => s.setIgnoreWitness ignoreWitness
  | refreshWitnessCommitQuorumPolicy => s.refreshWitnessCommitQuorumPolicy
  | stepDownLeaderIfLostQuorum => s.stepDownLeaderIfLostQuorum.2
  | witnessQuorumReport acknowledgements => (s.witnessQuorumReport acknowledgements).2
  | beginPendingMembershipChange logIndex => (s.beginPendingMembershipChange logIndex).2
  | beginSavingMembershipChange logIndex => (s.beginSavingMembershipChange logIndex).2
  | markMembershipChangeStabled logIndex => s.markMembershipChangeStabled logIndex
  | submitStabledResult firstIndex lastIndex stabledIndex =>
    (s.submitStabledResult firstIndex lastIndex stabledIndex).2
  | markMembershipChangeApplied logIndex => s.markMembershipChangeApplied logIndex
  | markSnapshotMembershipFloorApplied index => s.markSnapshotMembershipFloorApplied index
  | resetPendingMembershipChangeAfterTruncation lastRetained committed =>
    s.resetPendingMembershipChangeAfterTruncation lastRetained committed
  | markApplyTaskInflight nodeId appliedIndex => (s.markApplyTaskInflight nodeId appliedIndex).2
  | markApplyTaskInflightWithFence nodeId appliedIndex durable =>
    (s.markApplyTaskInflightWithFence nodeId appliedIndex durable).2
  | submitApplyResult nodeId appliedIndex rejected =>
    (s.submitApplyResult nodeId appliedIndex rejected).2
  | setProhibitsElection prohibitsElection => { s with prohibitsElection := prohibitsElection }
  | campaign candidateId forced => (s.campaign candidateId forced).2
  | timeoutNow sender target => (s.timeoutNow sender target).2
  | voteTo target request => (s.voteTo target request).2
  | handleVoteResponse localNodeId response preVote =>
    (s.handleVoteResponse localNodeId response preVote).2
  | handleVoteResponseFrom localNodeId peerId response preVote =>
    (s.handleVoteResponseFrom localNodeId peerId response preVote).2
  | beginLeaderTransfer target => (s.beginLeaderTransfer target).2
  | transferLeader target => (s.transferLeader target).2
  | transferLeaderOutcome target => (s.transferLeaderOutcome target).2
  | tryCompleteLeaderTransfer => s.tryCompleteLeaderTransfer.2
  | tickLeaderTransfer => s.tickLeaderTransfer.2
  | abortLeaderTransfer reason => (s.abortLeaderTransfer reason).2
  | stepDown transferee => (s.stepDown transferee).2
  | resignLeader => s.resignLeader.2
  | applyFatalEvent nodeId => (s.applyFatalEvent nodeId).2
  | propose payload => (s.propose payload).2
  | proposeWithOptions payload options => (s.proposeWithOptions payload options).2
  | proposeMembershipChange payload => (s.proposeMembershipChange payload).2
  | appendEntriesTo target request => (s.appendEntriesTo target request).2
  | appendEntriesWithMembershipChangeIndexesTo target request indexes =>
    (s.appendEntriesWithMembershipChangeIndexesTo target request indexes).2
  | handleAppendEntriesResponse localNodeId peerId response =>
    (s.handleAppendEntriesResponse localNodeId peerId response).2
  | catchUpPeer peerId => (s.catchUpPeer peerId).2
  | catchUpLaggingPeers => s.catchUpLaggingPeers.2
  | learnerCatchUpLoop learnerId => (s.learnerCatchUpLoop learnerId).2
  | addPeer peer => (s.addPeer peer).2
  | addLearner peer => (s.addLearner peer).2
  | addWitness peer => (s.addWitness peer).2
  | promotePeer nodeId => (s.promotePeer nodeId).2
  | removePeer nodeId => (s.removePeer nodeId).2
  | applyCommittedMembershipOperation operation => (s.applyCommittedMembershipOperation operation).2
  | execute operation => (s.execute operation).2
  | autoPromoteLearner learnerId => (s.autoPromoteLearner learnerId).2
  | compactLogsThrough logIndex => (s.compactLogsThrough logIndex).2
  | compactLogsWithStorageFence logIndex fence => (s.compactLogsWithStorageFence logIndex fence).2
  | releaseMemory => s.releaseMemory.2
  | installSnapshotTo target snapshot fence => (s.installSnapshotTo target snapshot fence).2
  | installSnapshotWithTailTo target snapshot fence tail =>
    (s.installSnapshotWithTailTo target snapshot fence tail).2
  | installSnapshotChunkTo target request => (s.installSnapshotChunkTo target request).2
  | installSnapshotLifecycleRequestTo target lifecycle request =>
    (s.installSnapshotLifecycleRequestTo target lifecycle request).1.2
  | handleInstallSnapshotResponse localNodeId peerId response =>
    (s.handleInstallSnapshotResponse localNodeId peerId response).2
  | triggerSnapshot => s.triggerSnapshot.2
  | tickSnapshotTrigger => s.tickSnapshotTrigger.2
  | completeSnapshotTrigger snapshotId => (s.completeSnapshotTrigger snapshotId).2
  | handleSnapshotReady snapshotId success => (s.handleSnapshotReady snapshotId success).2
  | restoreWalRecord record => (s.restoreWalRecord record).2
  | receiveOutOfOrderAppendFor peerId entry => (s.receiveOutOfOrderAppendFor peerId entry).2
  | expirePeerReorderQueue peerId => (s.expirePeerReorderQueue peerId).2
  | recordNetworkErrorFor peerId => (s.recordNetworkErrorFor peerId).2
  | recordReplicationTaskResultFor peerId success =>
    (s.recordReplicationTaskResultFor peerId success).2
  | beginSnapshotSendTo peerId snapshotId index chunks =>
    (s.beginSnapshotSendTo peerId snapshotId index chunks).2
  | recordSnapshotChunkSentTo peerId bytes => (s.recordSnapshotChunkSentTo peerId bytes).2
  | acknowledgeSnapshotChunkTo peerId => (s.acknowledgeSnapshotChunkTo peerId).2
  | handleSnapshotFinishFrom peerId accepted committedIndex =>
    (s.handleSnapshotFinishFrom peerId accepted committedIndex).2
  | updateSnapshotProgressFrom peerId receiving elapsedMs timeoutMs =>
    (s.updateSnapshotProgressFrom peerId receiving elapsedMs timeoutMs).2
  | retrySnapshotChunkTo peerId => (s.retrySnapshotChunkTo peerId).2
  | cancelSnapshotSendTo peerId => (s.cancelSnapshotSendTo peerId).2
  | beginSnapshotInstallFrom peerId snapshotId index chunks =>
    (s.beginSnapshotInstallFrom peerId snapshotId index chunks).2
  | receiveSnapshotChunkFrom peerId bytes done => (s.receiveSnapshotChunkFrom peerId bytes done).2
  | rollbackSnapshotInstallFrom peerId => (s.rollbackSnapshotInstallFrom peerId).2

def runs (s : RaftCluster) (operations : List Operation) : RaftCluster :=
  operations.foldl (fun s operation => operation.run s) s

end Operation
end MatrixRaft
