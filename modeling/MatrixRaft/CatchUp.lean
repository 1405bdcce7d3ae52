/-
# CatchUp — liveness, catching a replica up, and the leader's side of answers

A lagging replica is brought up from the leader's snapshot and log in process; an
answer to an append moves the peer's pipeline and may catch it up, promote it or
complete a leader transfer to it.
-/
import MatrixRaft.MembershipChange

namespace MatrixRaft.RaftCluster
open Theory ReplicationPipeline

/-! ## Liveness -/

def setNodeHealthy (nodeId : Nat) (healthy : Bool) : ClusterM Unit := fun s =>
  match s.nodes[nodeId]? with
  | none => (.error (.nodeNotFound nodeId), s)
  | some _ =>
    let marked := s.modifyNode nodeId fun node =>
      { node with healthy := healthy, livenessElapsedMs := 0 }
    let active :=
      if healthy then marked.modifyPipeline nodeId recordPeerActive
      else marked
    (.ok (), if s.leaderId = some nodeId ∧ !healthy then active.invalidateLeaderLease
      else active)

def markPeerActive (nodeId : Nat) : ClusterM Unit := fun s =>
  match s.nodes[nodeId]? with
  | none => (.error (.nodeNotFound nodeId), s)
  | some _ =>
    (.ok (), (s.modifyNode nodeId fun node =>
      { node with healthy := true, livenessElapsedMs := 0 }).modifyPipeline nodeId
        recordPeerActive)

variable (s : RaftCluster)

def peerResponseIsActive (nodeId : Nat) : Except RaftError Bool :=
  (s.requireNode nodeId).map Node.healthy

def peerOfflineTimeoutMs : Nat :=
  if s.config.peerOfflineTimeoutTicks = 0 then max s.config.electionTimeoutMs 1
  else max (min (s.config.peerOfflineTimeoutTicks * max s.config.heartbeatIntervalMs 1) u64Max) 1

def tickNodeLiveness (leaderId timeoutMs elapsedMs nodeId : Nat) (node : Node) : Node :=
  if nodeId = leaderId then if node.healthy then { node with livenessElapsedMs := 0 } else node
  else if !node.healthy then node
  else
    let elapsed := satAdd node.livenessElapsedMs elapsedMs
    { node with livenessElapsedMs := elapsed, healthy := elapsed ≤ timeoutMs }

def tickPeerLiveness (elapsedMs : Nat) : List Nat × RaftCluster :=
  match s.leaderId with
  | none => ([], s)
  | some leaderId =>
    let timeoutMs := s.peerOfflineTimeoutMs
    let timedOut := (s.nodes.toList.filter fun entry =>
      decide (entry.1 ≠ leaderId) && entry.2.healthy
        && satAdd entry.2.livenessElapsedMs elapsedMs > timeoutMs).map Prod.fst
    let ticked := { s with
      nodes := s.nodes.map (tickNodeLiveness leaderId timeoutMs elapsedMs) }
    let active :=
      if (s.nodes[leaderId]?).any Node.healthy then
        ticked.modifyPipeline leaderId recordPeerActive
      else ticked
    (timedOut, timedOut.foldl
      (fun s nodeId => s.modifyPipeline nodeId recordOfflineTimeout) active)

def tickReorderQueues (elapsedUs : Nat) : RaftCluster :=
  { s with peerPipelines := s.peerPipelines.map fun _ pipeline => pipeline.tickReorderQueue elapsedUs }

/-! ## Snapshot triggers -/

def resolveSnapshotTriggerTimeoutTicks : Nat :=
  if s.config.snapshotTriggerTimeoutTicks > 0 then s.config.snapshotTriggerTimeoutTicks
  else max (60000 / max s.config.heartbeatIntervalMs 1) 1

def triggerSnapshot : ClusterM SnapshotMetadata := fun s =>
  match s.requireRunning "trigger a snapshot" with
  | .error error => (.error error, s)
  | .ok () =>
    match s.snapshotTrigger with
    | some trigger =>
      (.ok trigger.snapshotMeta, { s with
        duplicateSnapshotTriggerRequests := s.duplicateSnapshotTriggerRequests + 1 })
    | none =>
      let snapshotMeta : SnapshotMetadata :=
        { snapshotId := s!"{s.groupId}-{s.commitIndex}"
          lastLogId := ⟨s.currentTerm, s.commitIndex⟩
          membership := s.nodes.keys
          members := s.snapshotMembers
          payloadBytes := 0 }
      (.ok snapshotMeta, { s with
        snapshotTrigger :=
          some ⟨snapshotMeta, 0, s.resolveSnapshotTriggerTimeoutTicks, false⟩ })

def tickSnapshotTrigger : Bool × RaftCluster :=
  match s.snapshotTrigger with
  | none => (false, s)
  | some trigger =>
    let elapsed := satAdd trigger.elapsedTicks 1
    let expires := !trigger.timedOut && elapsed ≥ trigger.timeoutTicks
    (expires, { s with
      snapshotTrigger := some { trigger with
        elapsedTicks := elapsed, timedOut := trigger.timedOut || expires } })

def completeSnapshotTrigger (snapshotId : SnapshotId) : ClusterM Unit := fun s =>
  match s.snapshotTrigger with
  | none => (.error (.invalidRequest .noSnapshotTrigger), s)
  | some trigger =>
    if trigger.snapshotMeta.snapshotId ≠ snapshotId then
      (.error (.invalidRequest
        (.snapshotTriggerMismatch trigger.snapshotMeta.snapshotId snapshotId)), s)
    else (.ok (), { s with snapshotTrigger := none })

def offerSnapshot (leaderId : Nat) (snapshotId : SnapshotId) (snapshotIndex peerId : Nat) :
    ClusterM Unit := fun s =>
  match s.peerPipelines[peerId]? with
  | none => (.ok (), s)
  | some pipeline =>
    if peerId ≠ leaderId ∧ pipeline.status.requiredSnapshotIndex > 0
        ∧ pipeline.status.requiredSnapshotIndex ≤ snapshotIndex
        ∧ !pipeline.status.snapshotSending ∧ !pipeline.status.snapshotInstalling then
      let sent := beginSnapshotSend snapshotId snapshotIndex 1 pipeline
      (sent.1, { s with peerPipelines := s.peerPipelines.insert peerId sent.2 })
    else (.ok (), s)

def publishReadySnapshotToWaitingPeers (snapshotMeta : SnapshotMetadata) : ClusterM Unit :=
  fun s =>
  match s.leaderId with
  | none => (.ok (), s)
  | some leaderId =>
    let snapshotIndex := snapshotMeta.lastLogId.index
    let published := s.modifyNode leaderId fun leader =>
      if snapshotIndex ≥ leader.snapshotIndex then
        { leader with installedSnapshot := some snapshotMeta }
      else leader
    Attempt.forEach (offerSnapshot leaderId snapshotMeta.snapshotId snapshotIndex)
      s.peerPipelines.keys published

def handleSnapshotReady (snapshotId : SnapshotId) (success : Bool) : ClusterM Unit := fun s =>
  match s.snapshotTrigger with
  | none => (.ok (), s)
  | some trigger =>
    if trigger.snapshotMeta.snapshotId ≠ snapshotId then (.ok (), s)
    else
      let taken := { s with snapshotTrigger := none }
      if success then publishReadySnapshotToWaitingPeers trigger.snapshotMeta taken
      else (.ok (), taken)

def triggerNewSnapshotIfLeaderSnapshotIsStale (peerId requiredSnapshotIndex : Nat) :
    ClusterM Unit := fun s =>
  match s.leaderId with
  | none => (.ok (), s)
  | some leaderId =>
    if (s.nodes[leaderId]?).elim 0 Node.snapshotIndex ≥ requiredSnapshotIndex then (.ok (), s)
    else
      let cancelled := s.modifyPipeline peerId fun pipeline =>
        pipeline.cancelSnapshotSendForNewSnapshot.2
      if s.snapshotTrigger.isNone then (triggerSnapshot >>= fun _ => pure ()) cancelled
      else (.ok (), cancelled)

/-! ## Catching up -/

structure LearnerCatchUpLoopReport where
  (learnerId leaderCommitIndex learnerMatchIndexBefore learnerMatchIndexAfter rounds : Nat)
  caughtUp : Bool
  reason : String
  deriving DecidableEq

def adoptLeaderSnapshot (leader peer : Node) : Node :=
  match leader.installedSnapshot with
  | some snapshot =>
    if snapshot.lastLogId.index > peer.matchIndex then
      { peer with installedSnapshot := some snapshot }
    else peer
  | none => peer

def entriesAfter (leader : Node) (index : Nat) : List LogEntry :=
  match leader.logPositionAtOrAfter (satAdd index 1) with
  | some position => leader.log.drop position
  | none => []

def appendCatchUpEntry (peer : Node) (entry : LogEntry) : Node :=
  if peer.replicaRole = .witness then peer.appendWitnessEntry entry false
  else peer.appendEntry entry

def caughtUpNode (leader peer : Node) (leaderCommitIndex : Nat) : Node :=
  let adopted := adoptLeaderSnapshot leader peer
  let appended := (entriesAfter leader adopted.matchIndex).foldl appendCatchUpEntry adopted
  appended.advanceCommit (min leaderCommitIndex appended.matchIndex)

def recordCatchUp (term peerId : Nat) (installed : Option Nat)
    (matchIndex leaderCommitIndex : Nat) (pipeline : ReplicationPipeline) :
    ReplicationPipeline :=
  let installedPipeline := match installed with
    | none => pipeline
    | some snapshotIndex =>
      let begun := (beginSnapshotInstall
        s!"catchup-{peerId}-{snapshotIndex}" snapshotIndex 1 pipeline).2
      (receiveSnapshotChunk 0 true
        begun).2.markSnapshotRejoinAfterCompactedLog
  (handleAppendResponse (selfAcknowledgement term matchIndex)
    installedPipeline).2.recordLearnerCatchupRound leaderCommitIndex

def promoteCaughtUpAutoLearner (learnerId : Nat) : ClusterM Unit := fun s =>
  match s.nodes[learnerId]? with
  | none => (.ok (), s)
  | some learner =>
    if learner.replicaRole = .learner ∧ learner.autoPromote ∧ learner.matchIndex > 0
        ∧ learner.matchIndex ≥ s.commitIndex then
      promotePeer learnerId (s.modifyNode learnerId fun node =>
        { node with autoPromoteState := .promoting })
    else (.ok (), s)

def catchUpReason (reasonPrefix : String) (caughtUp : Bool) : String :=
  if reasonPrefix = "" then ""
  else if caughtUp then reasonPrefix ++ "_caught_up"
  else reasonPrefix ++ "_still_lagging"

def catchUpReport (peerId leaderCommitIndex before after : Nat)
    (caughtUp : Bool) (reasonPrefix : String) : ClusterM LearnerCatchUpLoopReport := fun s =>
  (.ok
    { learnerId := peerId
      leaderCommitIndex := leaderCommitIndex
      learnerMatchIndexBefore := before
      learnerMatchIndexAfter := after
      rounds := (s.peerPipelines[peerId]?).elim 0 fun pipeline =>
        pipeline.status.learnerCatchupRounds
      caughtUp := caughtUp
      reason := catchUpReason reasonPrefix caughtUp }, s)

def catchUpPeerWithReason (peerId : Nat) (reasonPrefix : String) :
    ClusterM LearnerCatchUpLoopReport := fun s =>
  match s.leaderId with
  | none => (.error .noLeader, s)
  | some leaderId =>
    match s.nodes[leaderId]?, s.nodes[peerId]? with
    | none, _ => (.error (.nodeNotFound leaderId), s)
    | some _, none => (.error (.nodeNotFound peerId), s)
    | some leader, some peer =>
      let leaderCommitIndex := s.commitIndex
      let reached := caughtUpNode leader peer leaderCommitIndex
      let installed :=
        if leader.snapshotIndex > peer.matchIndex then some leader.snapshotIndex else none
      let copied := (s.modifyNode peerId fun _ => reached).modifyPipeline peerId
        (recordCatchUp s.currentTerm peerId installed reached.matchIndex leaderCommitIndex)
      let caughtUp := match copied.peerPipelines[peerId]? with
        | some pipeline => pipeline.status.learnerCaughtUp
        | none => decide (reached.matchIndex ≥ leaderCommitIndex)
      (do
        markPeerActive peerId
        Attempt.update refreshClusterIndexes
        if caughtUp then promoteCaughtUpAutoLearner peerId
        catchUpReport peerId leaderCommitIndex peer.matchIndex reached.matchIndex caughtUp
          reasonPrefix : ClusterM LearnerCatchUpLoopReport) copied

def catchUpPeer (peerId : Nat) : ClusterM LearnerCatchUpLoopReport :=
  catchUpPeerWithReason peerId "peer"

def healPeer (nodeId : Nat) : ClusterM LearnerCatchUpLoopReport := do
  setNodeHealthy nodeId true
  catchUpPeerWithReason nodeId "healed_peer"

def learnerCatchUpLoop (learnerId : Nat) : ClusterM LearnerCatchUpLoopReport := fun s =>
  match s.nodes[learnerId]? with
  | none => (.error (.nodeNotFound learnerId), s)
  | some learner =>
    if learner.replicaRole ≠ .learner then (.error (.invalidRequest (.notLearner learnerId)), s)
    else catchUpPeerWithReason learnerId "learner" s

def isLagging (peerId : Nat) : Bool :=
  (s.nodes[peerId]?).any fun node =>
    decide (s.leaderId ≠ some peerId) && node.healthy && node.replicaRole.canServeData
      && node.matchIndex < s.lastLogIndex

/-- Up to `room` lagging replicas from the front of `nodeIds`, and the ids not visited. -/
def laggingChunk (s : RaftCluster) : Nat → List Nat → List Nat × List Nat
  | _, [] => ([], [])
  | 0, rest => ([], rest)
  | room + 1, nodeId :: rest =>
    if s.isLagging nodeId then
      let chunk := laggingChunk s room rest
      (nodeId :: chunk.1, chunk.2)
    else laggingChunk s (room + 1) rest

def nodeIdChunk : Nat := 16

def catchUpChunks : Nat → List Nat → ClusterM Unit
  | 0, _ => pure ()
  | rounds + 1, nodeIds => fun s =>
    if nodeIds.isEmpty then (.ok (), s)
    else
      let chunk := s.laggingChunk nodeIdChunk nodeIds
      (do
        Attempt.forEach (fun peerId => do
          let _ ← Attempt.settle (catchUpPeerWithReason peerId "")) chunk.1
        catchUpChunks rounds chunk.2 : ClusterM Unit) s

def catchUpLaggingPeers : ClusterM Unit := fun s =>
  catchUpChunks s.nodes.size s.nodes.keys s

end MatrixRaft.RaftCluster
