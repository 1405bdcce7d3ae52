/-
# Pipeline — what the leader remembers about one peer

`ReplicationPipeline` of `pipeline.rs`: the send queue, the in-flight window, the apply
window, the out-of-order window and the snapshot transfer, with the progress record.  An
operation that refuses still moves its counter, so each answers with the pipeline it leaves.
-/
import MatrixRaft.Messages
import MatrixRaft.Theory.Attempt

namespace MatrixRaft
open Std (TreeMap)
open Theory

inductive ProgressState where
  | probe | replicate
  deriving DecidableEq, Inhabited

/-- Counters and cursors of one peer, as `PeerProgress`; the fields no pipeline
operation writes are left out. -/
structure PeerProgress where
  peerId : Nat
  progressState : ProgressState
  (paused oldPaused : Bool)
  (matchIndex nextIndex appendRequests appendBatches maxAppendBatchEntries maxAppendBatchBytes : Nat)
  (appendAccepted appendRejected retryAttempts backoffMs nextRetryAfterMs inflightEntries : Nat)
  (inflightBytes appendQueueDepth appendQueueLimit appendQueueMaxDepth inflightBytesLimit : Nat)
  (applyInflightTasks applyInflightLimit applyQueueDepth applyQueueMaxDepth : Nat)
  (applyBatchBytesLimit applyBackpressureRejections memoryBackpressureRejections : Nat)
  (oversizedLogRejections reorderQueueDepth outOfOrderAppendRejections reorderEntriesRejected : Nat)
  (reorderEntriesConverged reorderEntryTimeouts reorderDroppedPackages staleTermRejections : Nat)
  (packetLossEvents networkErrorProbeTransitions : Nat)
  (snapshotSending snapshotInstalling : Bool)
  (snapshotInstalledIndex snapshotSendAttempts snapshotInstallTotalChunks : Nat)
  (snapshotInstallProgressPerMille snapshotBackpressureRejections snapshotInstallRolledBack : Nat)
  (snapshotChunkRetryCount snapshotSendTimeouts requiredSnapshotIndex ackedSnapshotIndex : Nat)
  (snapshotRejoinAfterCompactedLog offlineTimeoutReached : Bool)
  (offlineTimeoutRejections followerLag learnerCatchupRounds : Nat)
  learnerCaughtUp : Bool
  (witnessQuorumRequired witnessQuorumAcked : Nat)
  witnessQuorumReached : Bool

def PeerProgress.new (peerId nextIndex : Nat) (limits : PipelineLimits) : PeerProgress where
  peerId := peerId
  progressState := .probe
  paused := false
  oldPaused := false
  matchIndex := nextIndex - 1
  nextIndex := nextIndex
  appendRequests := 0
  appendBatches := 0
  maxAppendBatchEntries := 0
  maxAppendBatchBytes := 0
  appendAccepted := 0
  appendRejected := 0
  retryAttempts := 0
  backoffMs := 0
  nextRetryAfterMs := 0
  inflightEntries := 0
  inflightBytes := 0
  appendQueueDepth := 0
  appendQueueLimit := limits.maxInflightsReplicate
  appendQueueMaxDepth := 0
  inflightBytesLimit := limits.maxMemoryReplicateLogBytes
  applyInflightTasks := 0
  applyInflightLimit := limits.maxInflightsApplyTask
  applyQueueDepth := 0
  applyQueueMaxDepth := 0
  applyBatchBytesLimit := limits.maxApplyBatchBytes
  applyBackpressureRejections := 0
  memoryBackpressureRejections := 0
  oversizedLogRejections := 0
  reorderQueueDepth := 0
  outOfOrderAppendRejections := 0
  reorderEntriesRejected := 0
  reorderEntriesConverged := 0
  reorderEntryTimeouts := 0
  reorderDroppedPackages := 0
  staleTermRejections := 0
  packetLossEvents := 0
  networkErrorProbeTransitions := 0
  snapshotSending := false
  snapshotInstalling := false
  snapshotInstalledIndex := 0
  snapshotSendAttempts := 0
  snapshotInstallTotalChunks := 0
  snapshotInstallProgressPerMille := 0
  snapshotBackpressureRejections := 0
  snapshotInstallRolledBack := 0
  snapshotChunkRetryCount := 0
  snapshotSendTimeouts := 0
  requiredSnapshotIndex := 0
  ackedSnapshotIndex := 0
  snapshotRejoinAfterCompactedLog := false
  offlineTimeoutReached := false
  offlineTimeoutRejections := 0
  followerLag := 0
  learnerCatchupRounds := 0
  learnerCaughtUp := false
  witnessQuorumRequired := 0
  witnessQuorumAcked := 0
  witnessQuorumReached := false

structure InflightAppend where
  (firstLogId lastLogId : LogId)
  (entryCount bytes : Nat)
  deriving DecidableEq

structure SnapshotTransferState where
  snapshotId : SnapshotId
  (snapshotIndex totalChunks acknowledgedChunks bytesSent bytesReceived : Nat)
  latestReceivingElapsedMs : Nat
  deriving DecidableEq

structure ApplyInflightTask where
  (appliedIndex batchBytes : Nat)
  deriving DecidableEq

structure QueuedAppend where
  logId : LogId
  bytes : Nat
  deriving DecidableEq

structure ReplicationPipeline where
  peerId : Nat
  limits : PipelineLimits
  status : PeerProgress
  appendQueue : List QueuedAppend
  appendQueueBytes : Nat
  inflight : List InflightAppend
  applyInflight : List ApplyInflightTask
  /-- Index of an out-of-order append to the time it has waited, in microseconds. -/
  reorderQueue : TreeMap Nat Nat
  snapshotTransfer : Option SnapshotTransferState

abbrev PipelineM := Attempt ReplicationPipeline RaftError

def nextBackoffMs (retryAttempts : Nat) : Nat :=
  min (10 * 2 ^ min (retryAttempts - 1) 10) 5000

namespace ReplicationPipeline

def new (peerId nextIndex : Nat) (limits : PipelineLimits) : ReplicationPipeline where
  peerId := peerId
  limits := limits
  status := PeerProgress.new peerId nextIndex limits
  appendQueue := []
  appendQueueBytes := 0
  inflight := []
  applyInflight := []
  reorderQueue := ∅
  snapshotTransfer := none

variable (p : ReplicationPipeline)

def resetForLeaderTransition (matchIndex nextIndex : Nat)
    (progressState : ProgressState) : ReplicationPipeline :=
  { p with
    status := { PeerProgress.new p.peerId nextIndex p.limits with
      matchIndex := matchIndex, nextIndex := nextIndex, progressState := progressState }
    appendQueue := []
    appendQueueBytes := 0
    inflight := []
    applyInflight := []
    reorderQueue := ∅
    snapshotTransfer := none }

/-! ## The in-flight window -/

def inflightIsFull : Bool :=
  p.status.inflightEntries ≥ p.limits.maxInflightsReplicate

def freeFirstInflight : ReplicationPipeline :=
  match p.inflight with
  | [] => p
  | first :: rest =>
    { p with
      inflight := rest
      status.inflightEntries := p.status.inflightEntries - first.entryCount
      status.inflightBytes := p.status.inflightBytes - first.bytes }

def resetInflightWindow : ReplicationPipeline :=
  { p with inflight := [], status.inflightEntries := 0, status.inflightBytes := 0 }

def resetApplyInflightWindow : ReplicationPipeline :=
  { p with applyInflight := [], status.applyInflightTasks := 0, status.applyQueueDepth := 0 }

def releaseInflightThrough (matchIndex : Nat) : ReplicationPipeline :=
  let released := p.inflight.takeWhile (fun batch => batch.lastLogId.index ≤ matchIndex)
  { p with
    inflight := p.inflight.drop released.length
    status.inflightEntries :=
      released.foldl (fun left batch => left - batch.entryCount) p.status.inflightEntries
    status.inflightBytes :=
      released.foldl (fun left batch => left - batch.bytes) p.status.inflightBytes }

def pause : ReplicationPipeline := { p with status.paused := true }

def resume : ReplicationPipeline :=
  match p.status.progressState with
  | .probe => { p with status.paused := false }
  | .replicate =>
    if p.inflightIsFull then { p.freeFirstInflight with status.oldPaused := true } else p

def isPaused : Bool :=
  match p.status.progressState with
  | .probe => p.status.paused
  | .replicate => p.inflightIsFull

def inflightIsEmpty : Bool :=
  match p.status.progressState with
  | .probe => false
  | .replicate => p.inflight.isEmpty

def takeEmptyAppendDueToOldPause : Bool × ReplicationPipeline :=
  if p.status.oldPaused && p.inflightIsEmpty then
    (true, { p with status.oldPaused := false })
  else (false, p)

/-! ## Queueing and flushing -/

def queueAppend (entry : LogEntry) : PipelineM Unit := fun p =>
  let bytes := entry.payload.length
  if bytes > p.limits.maxApplyBatchBytes then
    (.error (.invalidRequest .appendExceedsBatch),
      { p with status.oversizedLogRejections := p.status.oversizedLogRejections + 1 })
  else if p.appendQueue.length ≥ p.status.appendQueueLimit then
    (.error (.invalidRequest .appendQueueBackpressure),
      { p with status.applyBackpressureRejections := p.status.applyBackpressureRejections + 1 })
  else if p.status.inflightBytes + p.appendQueueBytes + bytes >
      p.limits.maxMemoryReplicateLogBytes then
    (.error (.invalidRequest .replicationMemoryBackpressure), { p with
        status.memoryBackpressureRejections := p.status.memoryBackpressureRejections + 1 })
  else
    let queue := p.appendQueue ++ [⟨entry.logId, bytes⟩]
    (.ok (), { p with
      appendQueue := queue
      appendQueueBytes := satAdd p.appendQueueBytes bytes
      status.appendQueueDepth := queue.length
      status.appendQueueMaxDepth := max p.status.appendQueueMaxDepth queue.length })

structure Batch where
  (entryCount bytes : Nat)
  lastLogId : LogId
  rest : List QueuedAppend
  queueBytes : Nat

/-- The inner loop of `flush_append_batch_core`: take entries while the batch has
room for them and the replication memory bound allows it. -/
def fillBatch (maxEntries maxBytes inflightBytes memoryLimit : Nat) :
    List QueuedAppend → Batch → Batch
  | [], batch => { batch with rest := [] }
  | queued :: rest, batch =>
    if batch.entryCount < maxEntries
        ∧ ¬(batch.entryCount > 0 ∧ batch.bytes + queued.bytes > maxBytes)
        ∧ ¬(inflightBytes + batch.bytes + queued.bytes > memoryLimit) then
      fillBatch maxEntries maxBytes inflightBytes memoryLimit rest
        { entryCount := batch.entryCount + 1
          bytes := batch.bytes + queued.bytes
          lastLogId := queued.logId
          rest := rest
          queueBytes := batch.queueBytes - queued.bytes }
    else { batch with rest := queued :: rest }

/-- The outer loop of `flush_append_batch_core`.  Every round that continues takes at
least one queued entry, so the queue's length bounds the rounds. -/
def flushRounds (maxEntries maxBytes : Nat) : Nat → ReplicationPipeline → ReplicationPipeline
  | 0, p => p
  | rounds + 1, p =>
    if p.isPaused || p.status.inflightEntries ≥ p.limits.maxInflightsReplicate then p
    else match p.appendQueue with
      | [] => p
      | first :: _ =>
        let batch := fillBatch maxEntries maxBytes p.status.inflightBytes
          p.limits.maxMemoryReplicateLogBytes p.appendQueue
          ⟨0, 0, first.logId, p.appendQueue, p.appendQueueBytes⟩
        if batch.entryCount = 0 then
          { p with
            status.memoryBackpressureRejections :=
              p.status.memoryBackpressureRejections + 1 }
        else
          let sent := { p with
            appendQueue := batch.rest
            appendQueueBytes := batch.queueBytes
            inflight := p.inflight ++
              [⟨first.logId, batch.lastLogId, batch.entryCount, batch.bytes⟩]
            status.appendRequests := p.status.appendRequests + 1
            status.appendBatches := p.status.appendBatches + 1
            status.maxAppendBatchEntries :=
              max p.status.maxAppendBatchEntries batch.entryCount
            status.maxAppendBatchBytes := max p.status.maxAppendBatchBytes batch.bytes
            status.inflightEntries := p.status.inflightEntries + batch.entryCount
            status.inflightBytes := p.status.inflightBytes + batch.bytes }
          if p.status.progressState = .probe then sent.pause
          else flushRounds maxEntries maxBytes rounds sent

/-- `flush_append_batch_counted`, whose count no caller here reads. -/
def flushAppendBatch (maxEntries maxBytes : Nat) : ReplicationPipeline :=
  let entries := if p.status.progressState = .probe then 1 else max maxEntries 1
  let flushed := flushRounds entries (max maxBytes 1) p.appendQueue.length p
  { flushed with status.appendQueueDepth := flushed.appendQueue.length }

/-! ## Snapshot transfer -/

variable (snapshotId : SnapshotId) (snapshotIndex totalChunks : Nat)

def newTransfer : SnapshotTransferState where
  snapshotId := snapshotId
  snapshotIndex := snapshotIndex
  totalChunks := totalChunks
  acknowledgedChunks := 0
  bytesSent := 0
  bytesReceived := 0
  latestReceivingElapsedMs := 0

def beginSnapshotSend : PipelineM Unit := fun p =>
  if p.status.snapshotSending || p.status.snapshotInstalling then
    (.error (.invalidRequest .snapshotTransferActive), { p with
        status.snapshotBackpressureRejections := p.status.snapshotBackpressureRejections + 1 })
  else
    (.ok (), { p with
      status.snapshotSending := true
      status.snapshotSendAttempts := p.status.snapshotSendAttempts + 1
      status.snapshotInstallTotalChunks := totalChunks
      status.snapshotInstallProgressPerMille := 0
      snapshotTransfer := some (newTransfer snapshotId snapshotIndex totalChunks) })

def maybeRequireSnapshot (requiredIndex : Nat) : ReplicationPipeline :=
  if requiredIndex = u64Max then p
  else if p.status.requiredSnapshotIndex ≥ requiredIndex then p
  else
    (beginSnapshotSend s!"required-snapshot-{p.peerId}-{requiredIndex}" requiredIndex 1
      { p with status.requiredSnapshotIndex := requiredIndex }).2

def ackSnapshotRequire : ReplicationPipeline :=
  { p with status.ackedSnapshotIndex := p.status.requiredSnapshotIndex }

def finishSnapshotInstall : PipelineM Unit := fun p =>
  match p.snapshotTransfer with
  | none => (.error (.invalidRequest .snapshotTransferInactive), p)
  | some transfer =>
    let reached := max p.status.matchIndex transfer.snapshotIndex
    (.ok (), resetApplyInflightWindow { p with
      snapshotTransfer := none
      status.snapshotSending := false
      status.snapshotInstalling := false
      status.snapshotInstalledIndex :=
        max p.status.snapshotInstalledIndex transfer.snapshotIndex
      status.snapshotInstallProgressPerMille := 1000
      status.matchIndex := reached
      status.nextIndex := satAdd reached 1 })

def recordSnapshotChunkSent (bytes : Nat) : PipelineM Unit := fun p =>
  match p.snapshotTransfer with
  | none => (.error (.invalidRequest .snapshotSendInactive), p)
  | some transfer =>
    (.ok (), { p with
      snapshotTransfer := some { transfer with bytesSent := transfer.bytesSent + bytes } })

def cancelSnapshotSendForNewSnapshot : Bool × ReplicationPipeline :=
  if p.status.snapshotSending then
    (true, { p with
      snapshotTransfer := none
      status.snapshotSending := false
      status.snapshotInstalling := false })
  else (false, p)

def progressPerMille (transfer : SnapshotTransferState) : Nat :=
  if transfer.totalChunks = 0 then 1000
  else min (transfer.acknowledgedChunks * 1000 / transfer.totalChunks) 1000

def acknowledgeSnapshotChunk : PipelineM Unit := fun p =>
  match p.snapshotTransfer with
  | none => (.error (.invalidRequest .snapshotTransferInactive), p)
  | some transfer =>
    let acknowledged :=
      { transfer with acknowledgedChunks := transfer.acknowledgedChunks + 1 }
    let counted := { p with
      snapshotTransfer := some acknowledged
      status.snapshotInstallProgressPerMille := progressPerMille acknowledged }
    if acknowledged.acknowledgedChunks ≥ acknowledged.totalChunks then
      finishSnapshotInstall counted
    else (.ok (), counted)

def handleSnapshotFinish (accepted : Bool) (committedIndex : Nat) : PipelineM Unit :=
  fun p =>
  match p.snapshotTransfer with
  | none => (.error (.invalidRequest .snapshotTransferInactive), p)
  | some transfer =>
    let ended := { p with
      snapshotTransfer := none
      status.snapshotSending := false
      status.snapshotInstalling := false }
    if accepted then
      let reached := max p.status.matchIndex committedIndex
      (.ok (), ackSnapshotRequire { ended with
        status.snapshotInstalledIndex :=
          max p.status.snapshotInstalledIndex transfer.snapshotIndex
        status.snapshotInstallProgressPerMille := 1000
        status.matchIndex := reached
        status.nextIndex := satAdd reached 1 })
    else
      (.ok (), { ended with
        status.snapshotChunkRetryCount := p.status.snapshotChunkRetryCount + 1 })

def updateSnapshotProgress (remoteReceiving : Bool)
    (elapsedMs sendTimeoutMs : Nat) : Bool × ReplicationPipeline :=
  match p.snapshotTransfer with
  | none => (false, p)
  | some transfer =>
    if !p.status.snapshotSending then (false, p)
    else if remoteReceiving then
      (false, { p with
        snapshotTransfer := some { transfer with latestReceivingElapsedMs := 0 } })
    else
      let waited := satAdd transfer.latestReceivingElapsedMs elapsedMs
      if waited ≤ sendTimeoutMs then
        (false, { p with
          snapshotTransfer := some { transfer with latestReceivingElapsedMs := waited } })
      else
        (true, { p with
          snapshotTransfer := none
          status.snapshotSending := false
          status.snapshotInstalling := false
          status.snapshotInstallProgressPerMille := 0
          status.snapshotSendTimeouts := p.status.snapshotSendTimeouts + 1 })

def retrySnapshotChunk : PipelineM Unit := fun p =>
  match p.snapshotTransfer with
  | none => (.error (.invalidRequest .snapshotTransferInactive), p)
  | some _ =>
    (.ok (), { p with
      status.snapshotChunkRetryCount := p.status.snapshotChunkRetryCount + 1 })

def beginSnapshotInstall : PipelineM Unit := fun p =>
  if p.status.snapshotSending || p.status.snapshotInstalling then
    (.error (.invalidRequest .snapshotTransferActive), { p with
        status.snapshotBackpressureRejections := p.status.snapshotBackpressureRejections + 1 })
  else
    (.ok (), { p with
      status.snapshotInstalling := true
      status.snapshotInstallTotalChunks := totalChunks
      status.snapshotInstallProgressPerMille := 0
      snapshotTransfer := some (newTransfer snapshotId snapshotIndex totalChunks) })

def receiveSnapshotChunk (bytes : Nat) (done : Bool) : PipelineM Unit := fun p =>
  match p.snapshotTransfer with
  | none => (.error (.invalidRequest .snapshotInstallInactive), p)
  | some transfer =>
    let received := { transfer with
      bytesReceived := transfer.bytesReceived + bytes
      acknowledgedChunks := transfer.acknowledgedChunks + 1 }
    let counted := { p with
      snapshotTransfer := some received
      status.snapshotInstallProgressPerMille := progressPerMille received }
    if done then finishSnapshotInstall counted else (.ok (), counted)

def rollbackSnapshotInstall : ReplicationPipeline :=
  { p with
    snapshotTransfer := none
    status.snapshotSending := false
    status.snapshotInstalling := false
    status.snapshotInstallRolledBack := p.status.snapshotInstallRolledBack + 1 }

def markSnapshotRejoinAfterCompactedLog : ReplicationPipeline :=
  { p with status.snapshotRejoinAfterCompactedLog := true }

/-! ## The out-of-order window -/

/-- Follow consecutive queued indexes from `next_index`; each round removes one. -/
def drainReorderRounds : Nat → ReplicationPipeline → ReplicationPipeline
  | 0, p => p
  | rounds + 1, p =>
    if p.reorderQueue.contains p.status.nextIndex then
      drainReorderRounds rounds { p with
        reorderQueue := p.reorderQueue.erase p.status.nextIndex
        status.matchIndex := p.status.nextIndex
        status.nextIndex := satAdd p.status.nextIndex 1
        status.reorderEntriesConverged := satAdd p.status.reorderEntriesConverged 1 }
    else p

def drainReorderQueue : ReplicationPipeline :=
  let drained := drainReorderRounds p.reorderQueue.size p
  { drained with status.reorderQueueDepth := drained.reorderQueue.size }

def receiveOutOfOrder (entry : LogEntry) : PipelineM Unit := fun p =>
  if entry.index < p.status.nextIndex then
    (.error (.invalidRequest .appendBelowNext), { p with
        status.outOfOrderAppendRejections := p.status.outOfOrderAppendRejections + 1 })
  else if entry.index = p.status.nextIndex then
    match checkedAdd entry.index 1 with
    | none =>
      (.error (.invalidRequest .appendIndexExhausted), { p with
          status.outOfOrderAppendRejections := p.status.outOfOrderAppendRejections + 1 })
    | some nextIndex =>
      (.ok (), drainReorderQueue { p with
        status.matchIndex := entry.index, status.nextIndex := nextIndex })
  else if !p.limits.enableReorderQueue then
    (.error (.invalidRequest .reorderDisabled), { p with
        status.outOfOrderAppendRejections := p.status.outOfOrderAppendRejections + 1 })
  else if p.reorderQueue.size ≥ p.limits.reorderWindowSize then
    (.error (.invalidRequest .reorderWindowFull),
      { p with status.reorderEntriesRejected := p.status.reorderEntriesRejected + 1 })
  else
    let queue := p.reorderQueue.insert entry.index 0
    (.ok (), { p with reorderQueue := queue, status.reorderQueueDepth := queue.size })

def tickReorderQueue (elapsedUs : Nat) : ReplicationPipeline :=
  let aged := p.reorderQueue.map fun _ age => satAdd age elapsedUs
  let kept := aged.filter fun _ age =>
    p.limits.reorderTimeoutUs = 0 || age < p.limits.reorderTimeoutUs
  let dropped := p.reorderQueue.size - kept.size
  if dropped = 0 then { p with reorderQueue := kept }
  else
    { p with
      reorderQueue := kept
      status.reorderQueueDepth := kept.size
      status.reorderEntryTimeouts := satAdd p.status.reorderEntryTimeouts dropped
      status.reorderDroppedPackages := satAdd p.status.reorderDroppedPackages dropped }

def expireReorderQueue : Nat × ReplicationPipeline :=
  let dropped := p.reorderQueue.size
  if dropped > 0 then
    (dropped, { p with
      reorderQueue := ∅
      status.reorderQueueDepth := 0
      status.reorderEntryTimeouts := p.status.reorderEntryTimeouts + dropped
      status.reorderDroppedPackages := p.status.reorderDroppedPackages + dropped })
  else (dropped, p)

/-! ## Answers from the peer -/

variable (response : AppendEntriesResponse)

def acceptAppend : ReplicationPipeline :=
  let reached := max p.status.matchIndex response.matchIndex
  let counted := { p with
    status.appendAccepted := p.status.appendAccepted + 1
    status.oldPaused := p.isPaused
    status.matchIndex := reached
    status.nextIndex := satAdd reached 1 }
  let released :=
    if reached > p.status.matchIndex then
      match p.status.progressState with
      | .probe =>
        let resumed := counted.resume
        { resetInflightWindow { resumed with status.progressState := .replicate } with
          status.nextIndex := satAdd reached 1 }
      | .replicate => counted.releaseInflightThrough response.matchIndex
    else counted.releaseInflightThrough response.matchIndex
  let drained := released.drainReorderQueue
  let settled := { drained with
    status.retryAttempts := 0, status.backoffMs := 0, status.nextRetryAfterMs := 0 }
  match response.requireSnapshot with
  | some requiredIndex => settled.maybeRequireSnapshot requiredIndex
  | none => settled

def rejectionIsStale : Bool :=
  (response.requireSnapshot.isNone && response.matchIndex < p.status.matchIndex
      && (response.rejectedIndex.map (fun rejected => decide (rejected < p.status.matchIndex))).getD
        true)
    || (p.status.progressState == .probe
      && response.rejectedIndex.any (fun rejected => rejected ≠ p.status.nextIndex))

def rejectAppend : ReplicationPipeline :=
  let attempts := p.status.retryAttempts + 1
  let counted := { p with
    status.appendRejected := p.status.appendRejected + 1
    status.retryAttempts := attempts
    status.backoffMs := nextBackoffMs attempts
    status.nextRetryAfterMs := nextBackoffMs attempts }
  let wasReplicating := p.status.progressState == .replicate
  let probing :=
    if wasReplicating then
      { counted with status.progressState := .probe, status.paused := false }
    else counted.resume
  let rewound := { probing.resetInflightWindow with
    status.nextIndex :=
      if wasReplicating then satAdd p.status.matchIndex 1
      else max (response.rejectionHint.getD (satAdd response.matchIndex 1)) 1 }
  let paused :=
    if response.rejectionHint = response.rejectedIndex ∧ response.rejectionHint.isSome then
      rewound.pause
    else rewound
  match response.requireSnapshot with
  | some requiredIndex => paused.maybeRequireSnapshot requiredIndex
  | none => paused

def handleAppendResponse : PipelineM Unit := fun p =>
  let counted :=
    if response.term = 0 then
      { p with status.staleTermRejections := p.status.staleTermRejections + 1 }
    else p
  if response.success then (.ok (), counted.acceptAppend response)
  else if counted.rejectionIsStale response then (.ok (), counted)
  else (.error (.invalidRequest .appendRejectedByPipeline), counted.rejectAppend response)

def recordNetworkError : Bool × ReplicationPipeline :=
  let counted := { p with status.packetLossEvents := satAdd p.status.packetLossEvents 1 }
  match p.status.progressState with
  | .probe => (false, counted)
  | .replicate =>
    (true, { resetInflightWindow
        { counted with status.progressState := .probe, status.paused := false } with
      status.nextIndex := satAdd p.status.matchIndex 1
      status.nextRetryAfterMs := 0
      status.networkErrorProbeTransitions :=
        satAdd p.status.networkErrorProbeTransitions 1 })

def recordHeartbeatResponse : ReplicationPipeline :=
  if p.isPaused then p.resume else p

def recordLearnerCatchupRound (leaderCommitIndex : Nat) : ReplicationPipeline :=
  { p with
    status.learnerCatchupRounds := p.status.learnerCatchupRounds + 1
    status.followerLag := leaderCommitIndex - p.status.matchIndex
    status.learnerCaughtUp := p.status.matchIndex ≥ leaderCommitIndex }

def recordWitnessQuorum (acknowledged required : Nat) : ReplicationPipeline :=
  { p with
    status.witnessQuorumAcked := acknowledged
    status.witnessQuorumRequired := required
    status.witnessQuorumReached := acknowledged ≥ required }

def recordPeerActive : ReplicationPipeline :=
  { p with status.offlineTimeoutReached := false }

def recordOfflineTimeout : ReplicationPipeline :=
  { p with
    status.offlineTimeoutRejections :=
      if p.status.offlineTimeoutReached then p.status.offlineTimeoutRejections
      else satAdd p.status.offlineTimeoutRejections 1
    status.offlineTimeoutReached := true }

end ReplicationPipeline
end MatrixRaft
