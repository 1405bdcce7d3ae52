/-
# Append — what a replica does with an append

`append_entries_with_membership_change_indexes_to` in the order the source takes it: refusals
that change nothing, following the sender, the check of the previous position, the entries,
and the replay of appends cached while a gap was open.  `admission` names the branch a
replica takes on its own state.
-/
import MatrixRaft.Propose

namespace MatrixRaft

def AppendEntriesRequest.prevIndex (request : AppendEntriesRequest) : Nat :=
  (request.prevLogId.map LogId.index).getD 0

/-! ## Answers -/

structure LeaseGrant where
  (epoch durationMs : Nat)
  deriving DecidableEq, Inhabited

variable (node : Node)

namespace Node

def refuseAppend (term hint rejectedIndex : Nat) (lease : LeaseGrant) : AppendEntriesResponse where
  term := term
  success := false
  matchIndex := node.matchIndex
  rejectionHint := some hint
  rejectedIndex := some rejectedIndex
  requireSnapshot := node.rejectedApplyIndex
  snapshotState := .none
  leaseConfirmationEpoch := lease.epoch
  leaseDurationMs := lease.durationMs

def acknowledgeAppend (matchIndex : Nat) (snapshotState : SnapshotState)
    (lease : LeaseGrant) : AppendEntriesResponse where
  term := node.hardState.currentTerm
  success := true
  matchIndex := matchIndex
  rejectionHint := none
  rejectedIndex := none
  requireSnapshot := node.rejectedApplyIndex
  snapshotState := snapshotState
  leaseConfirmationEpoch := lease.epoch
  leaseDurationMs := lease.durationMs

/-! ## Which branch a replica takes -/

/-- What a replica makes of a request of its own term. -/
inductive Admission where
  /-- A snapshot is being installed, so the entries are not looked at. -/
  | installing | heartbeat | belowCommit
  /-- The previous position is past what the replica holds. -/
  | gap
  /-- The replica holds another term at the previous position. -/
  | conflict
  /-- The replica cannot name the term at the previous position. -/
  | unknown
  /-- An entry does not sit at the index its place in the request gives it. -/
  | misplaced (index : Nat)
  | admitted
  deriving DecidableEq

/-- The fault in the previous position, if there is one. -/
def prevFault (prev : LogId) : Option Admission :=
  if prev.index > 0 then
    if node.matchIndex < prev.index then some .gap
    else match node.logTermAt prev.index with
      | some localTerm => if localTerm = prev.term then none else some .conflict
      | none => some .unknown
  else none

/-- The first entry that is not at its place; the source's `u64` sum wraps. -/
def misplacedEntry (prevIndex : Nat) : List LogEntry → Option Nat
  | [] => none
  | entry :: rest =>
    let expected := (prevIndex + 1) % (u64Max + 1)
    if entry.index ≠ expected then some entry.index else misplacedEntry expected rest

def admission (installing : Bool) (request : AppendEntriesRequest) : Admission :=
  if installing then .installing
  else if request.prevLogId.isNone ∧ request.entries.isEmpty then .heartbeat
  else if request.prevIndex < node.commitIndex then .belowCommit
  else match request.prevLogId.bind node.prevFault with
    | some fault => fault
    | none =>
      match misplacedEntry request.prevIndex request.entries with
      | some index => .misplaced index
      | none => .admitted

end Node

/-! ## Taking the entries -/

/-- What the loop over the entries carries. -/
structure AppendProgress where
  node : Node
  pendingMembershipChangeIndex : Option Nat
  membershipChangeIndexes : Std.TreeSet Nat
  lastIndexBeforeCurrentTerm : Nat
  lastRetainedAfterTruncation : Option Nat
  appendedEntriesCount : Nat

/-- What the loop's environment fixes. -/
structure AppendContext where
  membershipChangeIndexes : List Nat
  safetyAppliedIndex : Nat
  capBusyDataAppendBatch : Bool

inductive AppendStep where
  | next (progress : AppendProgress)
  | stop (progress : AppendProgress)
  /-- A second membership change before any other entry: the request is turned down. -/
  | refuse (progress : AppendProgress) (index : Nat)

namespace AppendProgress

/-- Cut the log back to before `index`. -/
def truncateFor (progress : AppendProgress) (index : Nat) : AppendProgress :=
  { progress with
    node := progress.node.truncateLogFrom index
    lastIndexBeforeCurrentTerm := min progress.lastIndexBeforeCurrentTerm (index - 1)
    lastRetainedAfterTruncation := some (index - 1) }

def registerChange (progress : AppendProgress) (index : Nat) : AppendProgress :=
  { progress with
    pendingMembershipChangeIndex := some index
    membershipChangeIndexes := progress.membershipChangeIndexes.insert index }

/-- Count an entry that `append` has put into the log. -/
def appended (progress : AppendProgress) (append : Node → Node) : AppendProgress :=
  { progress with
    node := append progress.node
    appendedEntriesCount := satAdd progress.appendedEntriesCount 1 }

variable (context : AppendContext)

def appendData (entry : LogEntry) (progress : AppendProgress) : AppendStep :=
  let taken := progress.appended fun node => node.appendEntry entry
  if context.capBusyDataAppendBatch then .stop taken else .next taken

def admitData (entry : LogEntry) (progress : AppendProgress) : AppendStep :=
  if context.membershipChangeIndexes.contains entry.index then
    if progress.pendingMembershipChangeIndex.any fun pending =>
        context.safetyAppliedIndex < pending then
      if progress.appendedEntriesCount = 0 then .refuse progress entry.index else .stop progress
    else appendData context entry (progress.registerChange entry.index)
  else appendData context entry progress

/-- One turn of the loop over the entries. -/
def takeEntry (progress : AppendProgress) (entry : LogEntry) : AppendStep :=
  if progress.node.replicaRole.canServeData then
    match progress.node.logTermAt entry.index with
    | some localTerm =>
      if localTerm = entry.term then .next progress
      else admitData context entry (progress.truncateFor entry.index)
    | none => admitData context entry progress
  else if progress.node.replicaRole = .witness then
    .next (progress.appended fun node => node.appendWitnessEntry entry
      (context.membershipChangeIndexes.contains entry.index))
  else .next progress

def takeEntries (context : AppendContext) :
    List LogEntry → AppendProgress → AppendProgress × Option Nat
  | [], progress => (progress, none)
  | entry :: rest, progress =>
    match takeEntry context progress entry with
    | .next taken => takeEntries context rest taken
    | .stop taken => (taken, none)
    | .refuse taken index => (taken, some index)

end AppendProgress

namespace RaftCluster
open Theory

/-! ## Following the sender -/

variable (s : RaftCluster)

/-- The sender is a replica that may lead. -/
def knowsLeader (leaderId : Nat) : Bool :=
  (s.nodes[leaderId]?).any fun node => node.replicaRole.canBeLeader && node.healthy

def observeLeader (term leaderId : Nat) : RaftCluster :=
  if s.leaderId = some leaderId then s
  else
    let claimed := clearReorderQueues { s with
      lastIndexBeforeCurrentTerm :=
        if term > s.currentTerm then s.lastLogIndex else s.lastIndexBeforeCurrentTerm
      currentTerm := term
      leaderId := some leaderId }
    let concluded := claimed.concludeTransferFor leaderId "leader_changed_before_transfer_complete"
    concluded.resetLeaderLeaseEpoch.invalidateFollowerLease.mapNodes fun peer =>
      { peer with raftRole := if peer.id = leaderId then .leader else followerRole peer }

variable (target : Nat)

def grantLease (request : AppendEntriesRequest) : LeaseGrant × RaftCluster :=
  if s.config.enableLeaseRead ∧ target ≠ request.leaderId then
    let renewed := s.renewFollowerLeaseFromAppendEntries request.leaseEpoch
    (⟨renewed.followerLeaseEpoch, renewed.config.leaderLeaseMs⟩, renewed)
  else (⟨0, 0⟩, s)

def followRequestTerm (term : Nat) : Node :=
  if term > node.hardState.currentTerm then
    { node with hardState.currentTerm := term, raftRole := followerRole node }
  else node

def cacheReorderedAppend (request : AppendEntriesRequest)
    (membershipChangeIndexes : List Nat) : RaftCluster :=
  match request.prevLogId with
  | none => s
  | some prev =>
    { s with
      reorderQueues := s.reorderQueues.insert target
        (((s.reorderQueues[target]?).getD ∅).insert prev.index ⟨request, membershipChangeIndexes⟩) }

/-! ## Admitted entries -/

def appendStart (s : RaftCluster) (node : Node) (request : AppendEntriesRequest) :
    AppendProgress where
  node := { node with hardState.currentTerm := request.term, raftRole := followerRole node }
  pendingMembershipChangeIndex := s.pendingMembershipChangeIndex
  membershipChangeIndexes := s.membershipChangeIndexes
  lastIndexBeforeCurrentTerm := s.lastIndexBeforeCurrentTerm
  lastRetainedAfterTruncation := none
  appendedEntriesCount := 0

def appendContext (s : RaftCluster) (node : Node) (request : AppendEntriesRequest)
    (membershipChangeIndexes : List Nat) : AppendContext where
  membershipChangeIndexes := membershipChangeIndexes
  safetyAppliedIndex := node.safetyAppliedIndex
  capBusyDataAppendBatch := node.replicaRole.canServeData && !request.entries.isEmpty
    && node.retainedLogBytes ≥ s.config.maxLogBufferBytes

/-- How far the replica acknowledges once the loop is done. -/
def appendMatchIndex (request : AppendEntriesRequest) (progress : AppendProgress) : Nat :=
  if progress.appendedEntriesCount = 0 then
    min progress.node.matchIndex (satAdd request.prevIndex request.entries.length)
  else progress.node.matchIndex

def finishAppend (request : AppendEntriesRequest) (progress : AppendProgress) : RaftCluster :=
  let node := progress.node.advanceCommit
    (min request.leaderCommit (appendMatchIndex request progress))
  let stored := RaftCluster.modifyNode { s with
    lastIndexBeforeCurrentTerm := progress.lastIndexBeforeCurrentTerm
    pendingMembershipChangeIndex := progress.pendingMembershipChangeIndex
    membershipChangeIndexes := progress.membershipChangeIndexes } target fun _ => node
  let cut := match progress.lastRetainedAfterTruncation with
    | none => stored
    | some lastRetained =>
      (stored.resetPendingMembershipChangeAfterTruncation lastRetained
        node.commitIndex).clearReorderQueueFor target
  cut.refreshClusterIndexes

variable (drain : ClusterM Unit)

def takeAdmitted (target : Nat) (node : Node)
    (request : AppendEntriesRequest) (membershipChangeIndexes : List Nat)
    (lease : LeaseGrant) : ClusterM AppendEntriesResponse := fun s =>
  let taken := AppendProgress.takeEntries
    (s.appendContext node request membershipChangeIndexes) request.entries
    (s.appendStart node request)
  match taken with
  | (progress, some index) =>
    -- what the loop already changed in place stays, the rest is dropped
    let after := progress.node
    (.ok (after.refuseAppend after.hardState.currentTerm
        (satAdd (min after.matchIndex (index - 1)) 1) index lease),
      RaftCluster.modifyNode
        { s with membershipChangeIndexes := progress.membershipChangeIndexes } target
        fun _ => after)
  | (progress, none) =>
    let node := progress.node.advanceCommit
      (min request.leaderCommit (appendMatchIndex request progress))
    (drain >>= fun _ => pure
        (node.acknowledgeAppend (appendMatchIndex request progress) .none lease))
      (s.finishAppend target request progress)

/-! ## The request -/

def answerAppend (target : Nat) (node : Node)
    (request : AppendEntriesRequest) (membershipChangeIndexes : List Nat)
    (lease : LeaseGrant) : ClusterM AppendEntriesResponse := fun s =>
  let term := node.hardState.currentTerm
  let installing :=
    (s.peerPipelines[target]?).any fun pipeline => pipeline.status.snapshotInstalling
  let pastMatch := satAdd node.matchIndex 1
  let pastPrev := satAdd request.prevIndex 1
  match node.admission installing request with
  | .installing => (.ok (node.acknowledgeAppend node.commitIndex .receiving lease), s)
  | .heartbeat =>
    (.ok (node.acknowledgeAppend node.matchIndex .none lease),
      (s.modifyNode target fun node => node.advanceCommit
        (min request.leaderCommit node.matchIndex)).refreshClusterIndexes)
  | .belowCommit => (.ok (node.acknowledgeAppend node.commitIndex .none lease), s)
  | .gap =>
    (.ok (node.refuseAppend term pastMatch pastPrev lease),
      if request.entries.isEmpty then s
      else s.cacheReorderedAppend target request membershipChangeIndexes)
  | .conflict =>
    (.ok (node.refuseAppend term (node.conflictNextIndex request.prevIndex) pastPrev lease), s)
  | .unknown =>
    (.ok { node.refuseAppend term pastMatch pastPrev lease with
      requireSnapshot := node.rejectedApplyIndex <|>
        if node.snapshotIndex > 0 ∧ request.prevIndex < node.snapshotIndex then
          some node.snapshotIndex
        else none }, s)
  | .misplaced index => (.ok (node.refuseAppend term pastMatch index lease), s)
  | .admitted => takeAdmitted drain target node request membershipChangeIndexes lease s

def deliverAppend (target : Nat) (request : AppendEntriesRequest)
    (membershipChangeIndexes : List Nat) (lease : LeaseGrant) :
    ClusterM AppendEntriesResponse := fun s =>
  match s.nodes[target]? with
  | none => (.error (.nodeNotFound target), s)
  | some node =>
    if request.term < node.hardState.currentTerm then
      (.ok (node.refuseAppend node.hardState.currentTerm (satAdd node.matchIndex 1)
        request.prevIndex ⟨0, 0⟩), s)
    else
      let following := followRequestTerm node request.term
      answerAppend drain target following request membershipChangeIndexes lease
        (s.modifyNode target fun _ => following)

/-- The request, with `drain` replaying what a closed gap releases. -/
def appendEntriesWith (target : Nat) (request : AppendEntriesRequest)
    (membershipChangeIndexes : List Nat) : ClusterM AppendEntriesResponse := fun s =>
  if request.groupId ≠ s.groupId then (.error (.invalidRequest .appendGroupMismatch), s)
  else if !s.knowsLeader request.leaderId then
    match s.nodes[target]? with
    | none => (.error (.nodeNotFound target), s)
    | some node =>
      (.ok (node.refuseAppend (max node.hardState.currentTerm s.currentTerm)
        (satAdd node.matchIndex 1) request.prevIndex ⟨0, 0⟩), s)
  else if request.term < s.currentTerm then
    match s.nodes[target]? with
    | none => (.error (.nodeNotFound target), s)
    | some node =>
      (.ok (node.refuseAppend s.currentTerm (satAdd node.matchIndex 1) request.prevIndex ⟨0, 0⟩), s)
  else
    let granted := (s.observeLeader request.term request.leaderId).grantLease target request
    deliverAppend drain target request membershipChangeIndexes granted.1 granted.2

/-! ## Replaying cached appends -/

def releasedAppend (target matchIndex : Nat) : Option (Nat × ReorderedAppend) :=
  (s.reorderQueues[target]?).bind fun queue =>
    queue.toList.head?.filter fun cached => cached.1 ≤ matchIndex

def takeReorderedAppend (target prevIndex : Nat) : RaftCluster :=
  { s with reorderQueues := s.reorderQueues.modify target fun queue => queue.erase prevIndex }

def dropEmptyReorderQueue : RaftCluster :=
  if (s.reorderQueues[target]?).any fun queue => queue.isEmpty then s.clearReorderQueueFor target
  else s

def drainReorderedAppends : Nat → Nat → ClusterM Unit
  | 0, target => fun s =>
    match s.nodes[target]? with
    | none => (.error (.nodeNotFound target), s)
    | some _ => (.ok (), s.dropEmptyReorderQueue target)
  | rounds + 1, target => fun s =>
    match s.nodes[target]? with
    | none => (.error (.nodeNotFound target), s)
    | some node =>
      match s.releasedAppend target node.matchIndex with
      | none => (.ok (), s.dropEmptyReorderQueue target)
      | some (prevIndex, cached) =>
        (appendEntriesWith (drainReorderedAppends rounds target) target cached.request
            cached.membershipChangeIndexes >>= fun response =>
          if response.success then drainReorderedAppends rounds target
          else Attempt.update fun s => s.dropEmptyReorderQueue target)
          (s.takeReorderedAppend target prevIndex)

def cachedAppends : Nat :=
  (s.reorderQueues[target]?).elim 0 fun queue => queue.size

def appendEntriesWithMembershipChangeIndexesTo (request : AppendEntriesRequest)
    (membershipChangeIndexes : List Nat) : ClusterM AppendEntriesResponse := fun s =>
  appendEntriesWith (drainReorderedAppends (s.cachedAppends target) target) target request
    membershipChangeIndexes s

def appendEntriesTo (request : AppendEntriesRequest) : ClusterM AppendEntriesResponse :=
  appendEntriesWithMembershipChangeIndexesTo target request []

/-! ## Heartbeats -/

def heartbeatRequest (leaderId peerId : Nat) : AppendEntriesRequest where
  groupId := s.groupId
  term := s.currentTerm
  leaderId := leaderId
  prevLogId := none
  entries := []
  leaderCommit := min s.commitIndex ((s.nodes[peerId]?).elim 0 Node.matchIndex)
  leaseEpoch := s.leaderLeaseEpoch

def receivesHeartbeat (peerId : Nat) : Bool :=
  ((s.nodes[peerId]?).any Node.healthy
      || (s.peerPipelines[peerId]?).any fun pipeline => pipeline.status.offlineTimeoutReached)
    && !(s.peerPipelines[peerId]?).any fun pipeline =>
      pipeline.status.snapshotSending || pipeline.status.snapshotInstalling

def shouldProbeTail (peerId : Nat) : Bool :=
  (s.peerPipelines[peerId]?).any fun pipeline =>
    pipeline.status.matchIndex < s.lastLogIndex
      && pipeline.status.nextIndex == satAdd s.lastLogIndex 1

def heartbeatPeer (leaderId peerId : Nat) : ClusterM Bool := fun s =>
  if !s.receivesHeartbeat peerId then (.ok false, s)
  else
    (do
      let response ← appendEntriesTo peerId (s.heartbeatRequest leaderId peerId)
      handleAppendEntriesResponseInner leaderId peerId response false true
      Attempt.update fun s => s.modifyPipeline peerId ReplicationPipeline.recordHeartbeatResponse
      fun s =>
        if s.shouldProbeTail peerId then
          (catchUpPeerWithReason peerId "heartbeat_tail_probe" >>= fun _ => pure true) s
        else (.ok true, s) : ClusterM Bool) s

def heartbeatRound (leaderId : Nat) : List Nat → Nat → ClusterM Nat
  | [], sent => pure sent
  | peerId :: rest, sent => do
    if ← heartbeatPeer leaderId peerId then heartbeatRound leaderId rest (satAdd sent 1)
    else heartbeatRound leaderId rest sent

def broadcastHeartbeat : ClusterM Nat := fun s =>
  match s.leaderId with
  | none => (.ok 0, s)
  | some leaderId =>
    if !s.isHealthy leaderId then (.ok 0, s)
    else
      (do
        markPeerActive leaderId
        if s.nodes.size = 1 then pure 0
        else do
          let sent ← heartbeatRound leaderId (s.nodes.keys.filter (· ≠ leaderId)) 0
          Attempt.update fun s =>
            if sent > 0 then s.refreshCommitIndex.recomputeLeaderLease else s
          pure sent : ClusterM Nat) s

def unpausePeer (leaderId peerId : Nat) : ClusterM Bool := fun s =>
  if !s.isHealthy peerId then (.ok false, s)
  else match s.peerPipelines[peerId]? with
    | none => (.ok false, s)
    | some pipeline =>
      if pipeline.status.snapshotSending || pipeline.status.snapshotInstalling then (.ok false, s)
      else
        let due := pipeline.takeEmptyAppendDueToOldPause
        let stored := { s with peerPipelines := s.peerPipelines.insert peerId due.2 }
        if !due.1 then (.ok false, stored)
        else
          (do
            let response ← appendEntriesTo peerId (stored.heartbeatRequest leaderId peerId)
            handleAppendEntriesResponse leaderId peerId response
            pure true : ClusterM Bool) stored

def unpauseRound (leaderId : Nat) : List Nat → Nat → ClusterM Nat
  | [], sent => pure sent
  | peerId :: rest, sent => do
    if ← unpausePeer leaderId peerId then unpauseRound leaderId rest (satAdd sent 1)
    else unpauseRound leaderId rest sent

def broadcastCommitIndexToOldPausedPeers : ClusterM Nat := fun s =>
  match s.leaderId with
  | none => (.ok 0, s)
  | some leaderId =>
    unpauseRound leaderId (s.peerPipelines.keys.filter (· ≠ leaderId)) 0 s

end RaftCluster
end MatrixRaft
