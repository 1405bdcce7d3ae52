/-
# Snapshots — installing snapshots and reporting applied work

A snapshot arrives whole, with a tail of entries, or in chunks from another
process; one that finds apply work in flight waits until the work is reported.
-/
import MatrixRaft.Members

namespace MatrixRaft

/-! ## Chunked installs -/

namespace SnapshotInstallState

def new (snapshotMeta : SnapshotMetadata) : SnapshotInstallState := ⟨snapshotMeta, [], 0, false⟩

def installChunk (state : SnapshotInstallState) (chunk : SnapshotChunk) :
    Except RaftError SnapshotInstallState :=
  let declared := state.snapshotMeta.payloadBytes
  let arriving := satAdd state.nextOffset chunk.data.length
  if chunk.snapshotMeta ≠ state.snapshotMeta then
    .error (.invalidRequest .chunkMetadataChanged)
  else if chunk.offset ≠ state.nextOffset then
    .error (.invalidRequest (.chunkOffsetMismatch chunk.offset state.nextOffset))
  else if declared > 0 ∧ arriving > declared then
    .error (.invalidRequest (.chunkPastDeclared chunk.offset arriving declared))
  else .ok { state with
    nextOffset := arriving, bytes := state.bytes ++ chunk.data, complete := chunk.done }

def finish (state : SnapshotInstallState) (groupId : Nat) : Except RaftError RaftSnapshot :=
  let declared := state.snapshotMeta.payloadBytes
  if !state.complete then .error (.invalidRequest .snapshotIncomplete)
  else if declared > 0 ∧ state.bytes.length ≠ declared then
    .error (.invalidRequest (.snapshotLengthMismatch state.bytes.length declared))
  else .ok ⟨groupId, state.snapshotMeta, state.bytes⟩

end SnapshotInstallState

def validateSnapshotFloorLogMatching (snapshot : SnapshotMetadata)
    (firstRetainedLogIndex : Nat) (prevLogId : Option LogId) : Except RaftError Unit :=
  let floor := snapshot.lastLogId
  if firstRetainedLogIndex > 0 ∧ firstRetainedLogIndex ≤ floor.index then
    .error (.storage .retainedOverlapsFloor)
  else match prevLogId with
    | none => .ok ()
    | some prev =>
      if prev.index < floor.index then .error (.storage .prevBelowFloor)
      else if prev.index = floor.index ∧ prev.term ≠ floor.term then
        .error (.storage .floorTermMismatch)
      else .ok ()

def validateSnapshotInstall (snapshot : RaftSnapshot) (fence : ApplySnapshotFence) :
    Except RaftError Unit :=
  if fence.installedSnapshotIndex ≠ snapshot.snapshotMeta.lastLogId.index then
    .error (.storage .fenceMismatch)
  else
    validateSnapshotFloorLogMatching snapshot.snapshotMeta fence.firstRetainedLogIndex
      (some snapshot.snapshotMeta.lastLogId)

namespace RaftCluster
open Theory

/-! ## Whole snapshots -/

variable (target : Nat) (node : Node)

def installFault (snapshotIndex : Nat) : Option InvalidRequest :=
  match node.rejectedApplyIndex with
  | some required =>
    if snapshotIndex < required then some (.snapshotBelowRejectedApply snapshotIndex required)
    else none
  | none =>
    if node.safetyAppliedIndex < node.appliedIndex then
      some (.snapshotWhileApplyInflight target node.safetyAppliedIndex node.appliedIndex)
    else if node.appliedIndex < node.commitIndex then
      some (.snapshotWhileUnapplied target node.appliedIndex node.commitIndex)
    else if snapshotIndex ≤ node.commitIndex then
      some (.snapshotNotNewer snapshotIndex node.commitIndex)
    else none

variable (s : RaftCluster)

def adoptSnapshot (target : Nat) (snapshot : RaftSnapshot) : RaftCluster :=
  let snapshotMeta := snapshot.snapshotMeta
  let index := snapshotMeta.lastLogId.index
  let installed := (s.modifyNode target fun node =>
    node.installSnapshot snapshot).clearReorderQueueFor target
  let settled := (installed.resetMembershipFromSnapshot target snapshotMeta.membership
    snapshotMeta.members).markSnapshotMembershipFloorApplied index
  let cleared := { settled with
    snapshotInstallers := settled.snapshotInstallers.erase target
    pendingSnapshots := settled.pendingSnapshots.erase target }
  (cleared.modifyPipeline target fun pipeline =>
    (ReplicationPipeline.receiveSnapshotChunk 0 true
      (ReplicationPipeline.beginSnapshotInstall s!"installed-{target}-{index}" index 1
        pipeline).2).2).refreshClusterIndexes

/-- A whole snapshot for one replica. -/
def installSnapshotTo (snapshot : RaftSnapshot) (fence : ApplySnapshotFence) :
    ClusterM Unit := fun s =>
  if snapshot.groupId ≠ s.groupId then (.error (.invalidRequest .snapshotGroupMismatch), s)
  else match validateSnapshotInstall snapshot fence with
    | .error error => (.error error, s)
    | .ok () =>
      match s.nodes[target]? with
      | none => (.error (.nodeNotFound target), s)
      | some node =>
        match installFault target node snapshot.snapshotMeta.lastLogId.index with
        | some fault => (.error (.invalidRequest fault), s)
        | none => (.ok (), s.adoptSnapshot target snapshot)

def appendTail (tail : List LogEntry) : ClusterM Unit := fun s =>
  match s.nodes[target]? with
  | none => (.error (.nodeNotFound target), s)
  | some node =>
    let appended := tail.foldl Node.appendEntry node
    let reached := appended.advanceCommit (max s.commitIndex appended.matchIndex)
    let stored := (s.modifyNode target fun _ => reached).modifyPipeline target fun pipeline =>
      (ReplicationPipeline.handleAppendResponse
        (selfAcknowledgement s.currentTerm reached.matchIndex)
        pipeline).2.markSnapshotRejoinAfterCompactedLog
    (.ok (), stored.refreshClusterIndexes)

def installSnapshotWithTailTo (snapshot : RaftSnapshot)
    (fence : ApplySnapshotFence) (tail : List LogEntry) : ClusterM Unit := fun s =>
  let index := snapshot.snapshotMeta.lastLogId.index
  if tail.head?.any fun first => first.index ≤ index then
    (.error (.invalidRequest .tailOverlapsSnapshot), s)
  else match s.nodes[target]? with
    | none => (.error (.nodeNotFound target), s)
    | some node =>
      match node.installedSnapshot.map fun installed => installed.lastLogId.index with
      | none => (installSnapshotTo target snapshot fence >>= fun _ => appendTail target tail) s
      | some installed =>
        if installed = index then appendTail target tail s
        else if installed > index then
          (.error (.invalidRequest (.snapshotOlderThanInstalled index installed)), s)
        else (installSnapshotTo target snapshot fence >>= fun _ => appendTail target tail) s

/-! ## Snapshots that wait for apply work -/

def snapshotInstallWaitsForApply : RaftError → Bool
  | .invalidRequest (.snapshotWhileApplyInflight ..) => true
  | .invalidRequest (.snapshotWhileUnapplied ..) => true
  | _ => false

def installOrQueueCompletedSnapshot (snapshot : RaftSnapshot)
    (fence : ApplySnapshotFence) : ClusterM Bool := fun s =>
  match installSnapshotTo target snapshot fence s with
  | (.ok (), installed) => (.ok true, installed)
  | (.error error, refused) =>
    if snapshotInstallWaitsForApply error then
      (.ok false, { refused with
        pendingSnapshots := refused.pendingSnapshots.insert target ⟨snapshot, fence⟩ })
    else (.error error, refused)

def tryInstallPendingSnapshotTo : ClusterM Bool := fun s =>
  match s.pendingSnapshots[target]? with
  | none => (.ok false, s)
  | some pending =>
    match installSnapshotTo target pending.snapshot pending.fence s with
    | (.ok (), installed) => (.ok true, installed)
    | (.error error, refused) =>
      if snapshotInstallWaitsForApply error then (.ok false, refused)
      else (.error error, refused)

/-! ## Apply progress -/

structure ApplyEligibility where
  eligibleThrough : Nat
  heldBackAt : Option Nat
  (commitIndex durableCommitIndex : Nat)
  deriving DecidableEq

def firstUndurableCommand (durableCommitIndex : Nat) : Option Nat :=
  if node.commitIndex > durableCommitIndex then
    match node.logPositionAtOrAfter (satAdd durableCommitIndex 1) with
    | none => none
    | some start =>
      (((node.log.drop start).takeWhile fun entry => entry.index ≤ node.commitIndex).find?
        LogEntry.isCommand).map LogEntry.index
  else none

def applyEligibleThrough (nodeId durableCommitIndex : Nat) : Except RaftError ApplyEligibility :=
  match s.nodes[nodeId]? with
  | none => .error (.nodeNotFound nodeId)
  | some node =>
    let heldBackAt := firstUndurableCommand node durableCommitIndex
    .ok
      { eligibleThrough := heldBackAt.elim node.commitIndex fun index => index - 1
        heldBackAt := heldBackAt
        commitIndex := node.commitIndex
        durableCommitIndex := durableCommitIndex }

def markApplyTaskInflight (nodeId appliedIndex : Nat) : ClusterM Unit := fun s =>
  match s.nodes[nodeId]? with
  | none => (.error (.nodeNotFound nodeId), s)
  | some node =>
    if appliedIndex > node.commitIndex then
      (.error (.invalidRequest (.inflightExceedsCommit appliedIndex node.commitIndex)), s)
    else if appliedIndex < node.safetyAppliedIndex then
      (.error (.invalidRequest (.inflightBelowSafety appliedIndex node.safetyAppliedIndex)), s)
    else
      (.ok (), (s.modifyNode nodeId fun node =>
        { node with
          appliedIndex := max node.appliedIndex appliedIndex
          safetyAppliedIndex := min node.safetyAppliedIndex (appliedIndex - 1) }
        ).refreshClusterIndexes)

def markApplyTaskInflightWithFence (nodeId appliedIndex durableCommitIndex : Nat) :
    ClusterM Unit := fun s =>
  match s.applyEligibleThrough nodeId durableCommitIndex with
  | .error error => (.error error, s)
  | .ok eligibility =>
    if appliedIndex > eligibility.eligibleThrough then
      let heldBackAt := eligibility.heldBackAt.getD appliedIndex
      (.error (.invalidRequest
        (.applyPastDurable appliedIndex heldBackAt heldBackAt durableCommitIndex)), s)
    else markApplyTaskInflight nodeId appliedIndex s

def handOverAfterRejectedApply (nodeId : Nat) : RaftCluster :=
  let target := s.closestFollower
  let followed := s.modifyNode nodeId fun node => { node with raftRole := .follower }
  let campaigned := match target with
    | none => (false, followed)
    | some target =>
      let ran := campaign target true followed
      (ran.1.isOk, ran.2)
  if !campaigned.1 ∧ campaigned.2.leaderId = some nodeId then campaigned.2.vacateLeadership
  else campaigned.2

def submitApplyResult (nodeId appliedIndex : Nat) (applyTaskRejected : Bool) :
    ClusterM Unit := fun s =>
  match s.nodes[nodeId]? with
  | none => (.error (.nodeNotFound nodeId), s)
  | some node =>
    if appliedIndex < node.safetyAppliedIndex ∨ appliedIndex > node.appliedIndex then
      (.error (.invalidRequest
        (.appliedOutsideRange appliedIndex node.safetyAppliedIndex node.appliedIndex)), s)
    else
      let reported := s.modifyNode nodeId fun node =>
        { node with
          safetyAppliedIndex := appliedIndex
          rejectedApplyIndex :=
            if applyTaskRejected then some (satAdd appliedIndex 1) else node.rejectedApplyIndex }
      let handedOver :=
        if applyTaskRejected ∧ node.raftRole = .leader then
          reported.handOverAfterRejectedApply nodeId
        else reported
      (do
        let _ ← tryInstallPendingSnapshotTo nodeId
        Attempt.update refreshClusterIndexes : ClusterM Unit) handedOver

/-! ## Chunks from another process -/

variable (request : InstallSnapshotRequest)

/-- The answer that stops a chunk before its sender is followed. -/
def rejectSnapshotBeforeObserve (s : RaftCluster) (node : Node)
    (request : InstallSnapshotRequest) (nextOffset : Nat) : Option InstallSnapshotResponse :=
  let reject (reason : InstallReason) : Option InstallSnapshotResponse :=
    some ⟨max node.hardState.currentTerm s.currentTerm, false, nextOffset, 0, reason, false⟩
  if request.term < s.currentTerm then reject .staleTerm
  else match s.nodes[request.leaderId]? with
    | none => reject .leaderNotMember
    | some leader =>
      if leader.replicaRole.canBeLeader then
        if leader.healthy then none else reject .leaderUnavailable
      else reject .leaderNotMember

def observeSnapshotLeader (term leaderId : Nat) : RaftCluster :=
  if term < s.currentTerm then s
  else
    let inTerm :=
      if term > s.currentTerm then
        clearReorderQueues { s with
          lastIndexBeforeCurrentTerm := s.lastLogIndex, currentTerm := term }
      else s
    let following :=
      if inTerm.leaderId = some leaderId then inTerm
      else
        let concluded := inTerm.concludeTransferFor leaderId "snapshot_leader_changed"
        (clearReorderQueues
          { concluded with leaderId := some leaderId }).resetLeaderLeaseEpoch.invalidateFollowerLease
    following.mapNodes fun peer =>
      { peer with
        hardState.currentTerm := max peer.hardState.currentTerm term
        raftRole := if peer.id = leaderId then .leader else followerRole peer }

def staleSnapshotChunk (snapshotIndex : Nat) : Bool :=
  match node.rejectedApplyIndex with
  | some required => snapshotIndex < required
  | none => snapshotIndex ≤ node.commitIndex

def installerFor (target : Nat) (chunk : SnapshotChunk) : Except RaftError SnapshotInstallState :=
  match s.snapshotInstallers[target]? with
  | some installer =>
    if chunk.offset = 0 ∧ installer.nextOffset ≠ 0 then .ok (.new chunk.snapshotMeta)
    else .ok installer
  | none =>
    if chunk.offset ≠ 0 then .error (.invalidRequest (.chunkBeforeStart chunk.offset))
    else .ok (.new chunk.snapshotMeta)

def dropInstaller (target : Nat) : RaftCluster :=
  { s with snapshotInstallers := s.snapshotInstallers.erase target }

def completedFence (snapshotIndex : Nat) : ApplySnapshotFence :=
  ⟨snapshotIndex, snapshotIndex, snapshotIndex, satAdd snapshotIndex 1⟩

def installCompleted (installer : SnapshotInstallState)
    (answer : InstallReason → Nat → InstallSnapshotResponse) :
    ClusterM InstallSnapshotResponse := fun s =>
  match installer.finish s.groupId with
  | .error error => (.error error, s)
  | .ok snapshot =>
    let index := snapshot.snapshotMeta.lastLogId.index
    (installOrQueueCompletedSnapshot target snapshot (completedFence index) >>= fun installed =>
      pure (if installed then answer .installed index else answer .pendingApply 0)) s

def receiveChunk (chunk : SnapshotChunk) (answer : InstallReason → Nat → InstallSnapshotResponse) :
    ClusterM InstallSnapshotResponse := fun s =>
  match s.installerFor target chunk with
  | .error error => (.error error, s)
  | .ok installer =>
    match installer.installChunk chunk with
    | .error error =>
      (.error error, { s with
        snapshotInstallers := s.snapshotInstallers.insert target installer })
    | .ok fed =>
      if fed.complete then installCompleted target fed answer (s.dropInstaller target)
      else
        (.ok (answer .chunkAccepted 0), { s with
          snapshotInstallers := s.snapshotInstallers.insert target fed })

def acceptChunk (nextOffset : Nat) : ClusterM InstallSnapshotResponse := fun s =>
  let chunk := request.chunk
  let index := chunk.snapshotMeta.lastLogId.index
  let answer (offset : Nat) (reason : InstallReason) (committed : Nat) :
      InstallSnapshotResponse :=
    ⟨max s.currentTerm request.term, true, offset, committed, reason, false⟩
  if staleSnapshotChunk node index then
    (.ok (answer nextOffset .staleSnapshotIgnored node.commitIndex), s.dropInstaller target)
  else if index ≤ node.snapshotIndex then
    (.ok (answer nextOffset .staleSnapshotIgnored node.snapshotIndex), s.dropInstaller target)
  else match (s.snapshotInstallers[target]?).filter fun installer =>
      chunk.offset == 0 && installer.snapshotMeta != chunk.snapshotMeta with
    | some installer => (.ok (answer installer.nextOffset .ignoredWhileReceiving 0), s)
    | none => receiveChunk target chunk (answer nextOffset) s

def installSnapshotChunkTo : ClusterM InstallSnapshotResponse := fun s =>
  if request.groupId ≠ s.groupId then
    (.error (.invalidRequest .snapshotInstallGroupMismatch), s)
  else
    let nextOffset := satAdd request.chunk.offset request.chunk.data.length
    match s.nodes[target]? with
    | none => (.error (.nodeNotFound target), s)
    | some node =>
      match s.rejectSnapshotBeforeObserve node request nextOffset with
      | some response => (.ok response, s)
      | none =>
        let observed := s.observeSnapshotLeader request.term request.leaderId
        match observed.nodes[target]? with
        | none => (.error (.nodeNotFound target), observed)
        | some node => acceptChunk target node request nextOffset observed

end RaftCluster
end MatrixRaft
