/-
# Answers — what a leader does with its peers' answers

`handle_append_entries_response` and its kin: an answer of a later term ends the
leadership; any other moves the peer's pipeline and may catch the peer up, promote
it, publish a snapshot for it or hand leadership over to it.
-/
import MatrixRaft.CatchUp

namespace MatrixRaft.RaftCluster
open Theory ReplicationPipeline

/-! ## Stepping into a later term -/

/-- Every replica moves to `term` with no vote and no leader among them. -/
def followTerm (term : Nat) (node : Node) : Node :=
  { node with
    hardState.currentTerm := term
    hardState.votedFor := none
    raftRole := followerRole node }

variable (s : RaftCluster)

def adoptLaterTerm (term : Nat) : RaftCluster :=
  invalidateLeaderLease (invalidateFollowerLease (clearReorderQueues
    { s with currentTerm := term, leaderId := none }))

/-- `adoptLaterTerm` for an append or snapshot answer: the transfer in flight is aborted. -/
def stepIntoLaterTerm (term : Nat) (abortReason : String) : RaftCluster :=
  ((s.adoptLaterTerm term).abortLeaderTransfer abortReason).2.mapNodes (followTerm term)

/-! ## Learners that have caught up -/

def maybeAutoPromoteZeroLagLearner (learnerId : Nat) : ClusterM Unit := fun s =>
  match s.nodes[learnerId]? with
  | none => (.ok (), s)
  | some node =>
    if node.replicaRole = .learner ∧ node.autoPromote ∧ node.matchIndex > 0
        ∧ node.matchIndex ≥ s.lastLogIndex then
      if s.membershipChangeFenceActive then
        (.ok (), s.modifyNode learnerId fun learner =>
          { learner with autoPromoteState := .promoting })
      else promotePeer learnerId s
    else (.ok (), s)

/-! ## Answers to appends -/

variable (localNodeId peerId : Nat)

def observeAnsweringPeer : RaftCluster :=
  s.modifyNode peerId fun peer =>
    if peerId ≠ localNodeId ∧ peer.replicaRole.canBeLeader then { peer with raftRole := .follower }
    else if peer.replicaRole = .learner then { peer with raftRole := .learner }
    else peer

def confirmLease (peerId : Nat) (response : AppendEntriesResponse)
    (recomputeAggregates recordLeaseConfirmation : Bool) : RaftCluster :=
  if recordLeaseConfirmation && response.leaseConfirmationEpoch > 0
      && response.leaseDurationMs > 0 then
    (s.receiveLeaderLeaseConfirmationInner peerId response.leaseConfirmationEpoch
      response.leaseDurationMs recomputeAggregates).2
  else if recordLeaseConfirmation && s.config.enableLeaseRead then
    s.recordLeaderLeaseConfirmationInner peerId recomputeAggregates
  else s

variable (peerId : Nat) (response : AppendEntriesResponse)

def movePipeline (recomputeAggregates : Bool) : ClusterM (Except RaftError Unit) := fun s =>
  match s.peerPipelines[peerId]? with
  | none => (.ok (.ok ()), s)
  | some pipeline =>
    let progressed := (pipeline.updateSnapshotProgress (response.snapshotState == .receiving)
      (max s.config.heartbeatIntervalMs 1) (max s.config.electionTimeoutMs 1)).2
    let moved := handleAppendResponse response progressed
    let stored := { s with peerPipelines := s.peerPipelines.insert peerId moved.2 }
    (.ok moved.1, if recomputeAggregates then stored.refreshCommitIndex else stored)

def retriesRejection (peerId : Nat) : Bool :=
  s.leaderId.isSome && (s.peerPipelines[peerId]?).any fun pipeline =>
    !pipeline.status.paused && !pipeline.status.snapshotSending
      && !pipeline.status.snapshotInstalling
      && pipeline.status.requiredSnapshotIndex == pipeline.status.ackedSnapshotIndex

def isPipelineRejection (verdict : Except RaftError Unit) : Bool :=
  match verdict with
  | .error (.invalidRequest .appendRejectedByPipeline) => !response.success
  | _ => false

def campaignForCaughtUpTransferee : ClusterM Unit := fun s =>
  if response.success
      && s.activeLeaderTransfer.any (fun transfer => transfer.transfereeId == peerId)
      && response.matchIndex ≥ s.lastLogIndex then
    campaign peerId true s
  else (.ok (), s)

def settleVerdict (verdict : Except RaftError Unit) : ClusterM Unit := fun s =>
  let retries := isPipelineRejection response verdict && s.retriesRejection peerId
  match isPipelineRejection response verdict, verdict with
  | false, .error error => (.error error, s)
  | _, _ =>
    (do
      if retries then
        let _ ← catchUpPeerWithReason peerId "append_reject_retry"
      if response.success then maybeAutoPromoteZeroLagLearner peerId
      campaignForCaughtUpTransferee peerId response : ClusterM Unit) s

def serveRequiredSnapshot : ClusterM Unit :=
  match response.requireSnapshot with
  | none => pure ()
  | some requiredIndex => triggerNewSnapshotIfLeaderSnapshotIsStale peerId requiredIndex

def handleCurrentAppendAnswer (recomputeAggregates recordLeaseConfirmation : Bool) : ClusterM Unit := do
  Attempt.update fun s =>
    s.confirmLease peerId response recomputeAggregates recordLeaseConfirmation
  let verdict ← movePipeline peerId response recomputeAggregates
  serveRequiredSnapshot peerId response
  settleVerdict peerId response verdict

def handleAppendEntriesResponseInner (response : AppendEntriesResponse) (recomputeAggregates recordLeaseConfirmation : Bool) :
    ClusterM Unit := fun s =>
  match s.nodes[localNodeId]? with
  | none => (.error (.nodeNotFound localNodeId), s)
  | some _ =>
    match s.nodes[peerId]? with
    | none => (.error (.nodeNotFound peerId), s)
    | some peer =>
      if response.term > s.currentTerm ∧ !peer.healthy then (.ok (), s)
      else
        (do
          markPeerActive peerId
          fun active =>
            let observed := active.observeAnsweringPeer localNodeId peerId
            if response.term > observed.currentTerm then
              (.ok (), observed.stepIntoLaterTerm response.term "append_response_high_term")
            else
              handleCurrentAppendAnswer peerId response recomputeAggregates
                recordLeaseConfirmation observed : ClusterM Unit) s

def handleAppendEntriesResponse (response : AppendEntriesResponse) : ClusterM Unit :=
  handleAppendEntriesResponseInner localNodeId peerId response true true

/-! ## Pipeline operations by peer -/

def withPipeline {α : Type} (peerId : Nat) (op : PipelineM α) : ClusterM α := fun s =>
  match s.peerPipelines[peerId]? with
  | none => (.error (.nodeNotFound peerId), s)
  | some pipeline =>
    let ran := op pipeline
    (ran.1, { s with peerPipelines := s.peerPipelines.insert peerId ran.2 })

def receiveOutOfOrderAppendFor (entry : LogEntry) : ClusterM Unit :=
  withPipeline peerId (receiveOutOfOrder entry)

def expirePeerReorderQueue : ClusterM Nat :=
  withPipeline peerId fun pipeline =>
    (.ok pipeline.expireReorderQueue.1, pipeline.expireReorderQueue.2)

def beginSnapshotSendTo (snapshotId : SnapshotId) (snapshotIndex totalChunks : Nat) :
    ClusterM Unit :=
  withPipeline peerId (beginSnapshotSend snapshotId snapshotIndex totalChunks)

def recordSnapshotChunkSentTo (peerId bytes : Nat) : ClusterM Unit :=
  withPipeline peerId (recordSnapshotChunkSent bytes)

def acknowledgeSnapshotChunkTo : ClusterM Unit :=
  withPipeline peerId acknowledgeSnapshotChunk

def updateSnapshotProgressFrom (remoteReceiving : Bool)
    (elapsedMs sendTimeoutMs : Nat) : ClusterM Bool :=
  withPipeline peerId fun pipeline =>
    let updated := pipeline.updateSnapshotProgress remoteReceiving elapsedMs sendTimeoutMs
    (.ok updated.1, updated.2)

def retrySnapshotChunkTo : ClusterM Unit :=
  withPipeline peerId retrySnapshotChunk

def beginSnapshotInstallFrom (snapshotId : SnapshotId)
    (snapshotIndex totalChunks : Nat) : ClusterM Unit :=
  withPipeline peerId
    (beginSnapshotInstall snapshotId snapshotIndex totalChunks)

def receiveSnapshotChunkFrom (peerId bytes : Nat) (done : Bool) : ClusterM Unit :=
  withPipeline peerId (receiveSnapshotChunk bytes done)

def cancelSnapshotSendTo : ClusterM Unit :=
  withPipeline peerId fun pipeline => (.ok (), pipeline.cancelSnapshotSendForNewSnapshot.2)

def rollbackSnapshotInstallFrom : ClusterM Unit :=
  withPipeline peerId fun pipeline => (.ok (), pipeline.rollbackSnapshotInstall)

def isHealthy (nodeId : Nat) : Bool := (s.nodes[nodeId]?).any Node.healthy

def recordNetworkErrorFor : ClusterM Unit := do
  let shouldProbe ← withPipeline peerId fun pipeline =>
    (.ok pipeline.recordNetworkError.1, pipeline.recordNetworkError.2)
  fun s =>
    if shouldProbe && s.isHealthy peerId then
      (catchUpPeerWithReason peerId "network_error_probe" >>= fun _ => pure ()) s
    else (.ok (), s)

def recordReplicationTaskResultFor (success : Bool) : ClusterM Bool := fun s =>
  match s.nodes[peerId]? with
  | none => (.error (.nodeNotFound peerId), s)
  | some _ =>
    if success || s.snapshotTrigger.isSome then (.ok false, s)
    else match s.leaderId with
      | none => (.error .noLeader, s)
      | some leaderId =>
        match s.peerPipelines[peerId]? with
        | none => (.error (.nodeNotFound peerId), s)
        | some pipeline =>
          match ((s.nodes[leaderId]?).bind Node.installedSnapshot).filter fun snapshot =>
              snapshot.lastLogId.index ≥ pipeline.status.requiredSnapshotIndex with
          | some snapshot =>
            (beginSnapshotSendTo peerId snapshot.snapshotId snapshot.lastLogId.index 1
              >>= fun _ => pure true) s
          | none => (triggerSnapshot >>= fun _ => pure false) s

/-! ## Answers to snapshots -/

def handleSnapshotFinishFrom (accepted : Bool) (committedIndex : Nat) : ClusterM Unit := fun s =>
  match s.peerPipelines[peerId]? with
  | none => (.error (.nodeNotFound peerId), s)
  | some pipeline =>
    if !pipeline.status.snapshotSending && !pipeline.status.snapshotInstalling then (.ok (), s)
    else
      (do
        withPipeline peerId (handleSnapshotFinish accepted committedIndex)
        fun finished =>
          if accepted then
            if finished.isHealthy peerId then
              (catchUpPeerWithReason peerId "snapshot_finish_tail" >>= fun _ => pure ()) finished
            else (.ok (), finished)
          else if finished.leaderId.isSome && finished.snapshotTrigger.isNone then
            (triggerSnapshot >>= fun _ => pure ()) finished
          else (.ok (), finished) : ClusterM Unit) s

def handleInstallSnapshotResponse (response : InstallSnapshotResponse) : ClusterM Unit := fun s =>
  match s.nodes[localNodeId]? with
  | none => (.error (.nodeNotFound localNodeId), s)
  | some _ =>
    if response.term > s.currentTerm then
      match s.nodes[peerId]? with
      | none => (.error (.nodeNotFound peerId), s)
      | some peer =>
        if !peer.healthy then (.ok (), s)
        else (.ok (), s.stepIntoLaterTerm response.term "snapshot_response_high_term")
    else if response.term = s.currentTerm
        && (s.peerPipelines[peerId]?).any (fun pipeline => pipeline.status.snapshotSending) then
      (do
        handleSnapshotFinishFrom peerId response.accepted response.committedIndex
        fun finished =>
          if !response.accepted && finished.snapshotTrigger.isNone then
            (triggerSnapshot >>= fun _ => pure ()) finished
          else (.ok (), finished) : ClusterM Unit) s
    else (.ok (), s)

end MatrixRaft.RaftCluster
