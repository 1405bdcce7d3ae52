/-
# SnapshotLifecycle — a snapshot sent in chunks, and received

One end cuts a snapshot into chunks and sends them under a budget per tick and the
grants of a rate limiter; the other end installs them in order.  A chunk of which
only a part is granted stays in the list with what is left of it.
-/
import MatrixRaft.Snapshots

namespace MatrixRaft
open Theory

/-! ## Rate limits -/

structure RateLimitDecision where
  allowed : Bool
  grantedBytes : Nat
  deriving DecidableEq

class RateLimiter (ρ : Type) where
  reserveLimitedBytes : Nat → ρ → RateLimitDecision × ρ

structure ByteQuotaLimiter where
  (capacityBytes availableBytes : Nat)
  deriving DecidableEq

def ByteQuotaLimiter.reserveLimitedBytes (requestedBytes : Nat) (limiter : ByteQuotaLimiter) :
    RateLimitDecision × ByteQuotaLimiter :=
  if requestedBytes = 0 then (⟨true, 0⟩, limiter)
  else if limiter.capacityBytes = 0 ∨ limiter.availableBytes = 0 then (⟨false, 0⟩, limiter)
  else
    let granted := min requestedBytes limiter.availableBytes
    (⟨true, granted⟩, { limiter with availableBytes := limiter.availableBytes - granted })

instance : RateLimiter ByteQuotaLimiter := ⟨ByteQuotaLimiter.reserveLimitedBytes⟩

/-- No limiter: every request is granted. -/
structure Unlimited where
  deriving DecidableEq

instance : RateLimiter Unlimited := ⟨fun requestedBytes limiter => (⟨true, requestedBytes⟩, limiter)⟩

/-! ## The state of both ends -/

structure SnapshotLifecycleConfig where
  (chunkSize maxChunksPerTick maxBytesPerTick maxRetryAttempts : Nat)
  deriving DecidableEq

def SnapshotLifecycleConfig.validate (config : SnapshotLifecycleConfig) : Except RaftError Unit :=
  if config.chunkSize = 0 then .error (.invalidRequest .snapshotChunkSizeZero)
  else if config.maxChunksPerTick = 0 then .error (.invalidRequest .maxChunksPerTickZero)
  else if config.maxBytesPerTick = 0 then .error (.invalidRequest .maxBytesPerTickZero)
  else .ok ()

structure SnapshotLifecycleStatus where
  snapshotId : Option SnapshotId
  (sending installing : Bool)
  (totalChunks sentChunks receivedChunks retryCount throttledTicks rateLimitedTicks : Nat)
  (throttledResponses refusedChunks cancelledInstalls : Nat)
  installCancelled : Bool
  rolledBack : Nat
  completed : Bool
  installedIndex : Nat
  deriving DecidableEq

def SnapshotLifecycleStatus.fresh : SnapshotLifecycleStatus where
  snapshotId := none
  sending := false
  installing := false
  totalChunks := 0
  sentChunks := 0
  receivedChunks := 0
  retryCount := 0
  throttledTicks := 0
  rateLimitedTicks := 0
  throttledResponses := 0
  refusedChunks := 0
  cancelledInstalls := 0
  installCancelled := false
  rolledBack := 0
  completed := false
  installedIndex := 0

structure SnapshotSendState where
  (groupId term leaderId : Nat)
  chunks : List SnapshotChunk
  (nextChunk acceptedChunks retryCount : Nat)
  deriving DecidableEq

structure SnapshotLifecycle where
  config : SnapshotLifecycleConfig
  sender : Option SnapshotSendState
  installer : Option SnapshotInstallState
  status : SnapshotLifecycleStatus
  /-- Set by `cancelInstall`, cleared by `admitInstall`. -/
  installClosed : Bool
  deriving DecidableEq

abbrev LifecycleM := Attempt SnapshotLifecycle RaftError

/-! ## The sending end -/

variable (sender : SnapshotSendState)

/-- Where the list goes on for a receiver that asks for `nextOffset`. -/
def SnapshotSendState.rewound (nextOffset : Nat) : SnapshotSendState :=
  { sender with nextChunk := sender.chunks.findIdx fun chunk => chunk.offset ≥ nextOffset }

def SnapshotChunk.cut (declared : SnapshotMetadata) (payload : Payload) (offset stop : Nat) :
    SnapshotChunk where
  snapshotMeta := declared
  offset := offset
  data := (payload.take stop).drop offset
  done := stop = payload.length

def chunksFrom (declared : SnapshotMetadata) (payload : Payload) (chunkSize : Nat) :
    Nat → Nat → List SnapshotChunk
  | 0, _ => []
  | fuel + 1, offset =>
    if offset < payload.length then
      let stop := min (offset + chunkSize) payload.length
      .cut declared payload offset stop :: chunksFrom declared payload chunkSize fuel stop
    else []

variable (chunk : SnapshotChunk)

namespace SnapshotLifecycle

def new (config : SnapshotLifecycleConfig) : Except RaftError SnapshotLifecycle :=
  match config.validate with
  | .error error => .error error
  | .ok () => .ok ⟨config, none, none, .fresh, false⟩

variable (snapshot : RaftSnapshot)

def declared : SnapshotMetadata :=
  { snapshot.snapshotMeta with payloadBytes := snapshot.payload.length }

def checkpoint (chunkSize : Nat) : Except RaftError (List SnapshotChunk) :=
  if chunkSize = 0 then .error (.invalidRequest .snapshotChunkSizeZero)
  else
    let chunks :=
      chunksFrom (declared snapshot) snapshot.payload chunkSize snapshot.payload.length 0
    .ok (if chunks.isEmpty then [⟨declared snapshot, 0, [], true⟩] else chunks)

def beginSend (term leaderId : Nat) : LifecycleM Unit := fun l =>
  if l.sender.isSome ∨ l.installer.isSome then
    (.error (.invalidRequest .snapshotLifecycleActive), l)
  else match checkpoint snapshot l.config.chunkSize with
    | .error error => (.error error, l)
    | .ok chunks => (.ok (), { l with
        status := { l.status with
          snapshotId := some snapshot.snapshotMeta.snapshotId
          sending := true
          installing := false
          totalChunks := chunks.length
          sentChunks := 0
          receivedChunks := 0
          retryCount := 0
          throttledResponses := 0
          installCancelled := l.installClosed
          throttledTicks := 0
          completed := false
          installedIndex := 0 }
        sender := some ⟨snapshot.groupId, term, leaderId, chunks, 0, 0, 0⟩ })

structure Polling (ρ : Type) where
  sender : SnapshotSendState
  status : SnapshotLifecycleStatus
  limiter : ρ
  requests : List InstallSnapshotRequest
  bytes : Nat

namespace Polling
variable {ρ : Type}

def throttled (poll : Polling ρ) : Polling ρ :=
  { poll with status := { poll.status with throttledTicks := poll.status.throttledTicks + 1 } }

def rateLimited (poll : Polling ρ) (limiter : ρ) : Polling ρ :=
  { poll.throttled with
    limiter := limiter
    status := { poll.throttled.status with rateLimitedTicks := poll.status.rateLimitedTicks + 1 } }

variable (poll : Polling ρ)

def push (chunk : SnapshotChunk) (grantedBytes : Nat) (limiter : ρ) : Polling ρ :=
  { poll with
    limiter := limiter
    bytes := poll.bytes + grantedBytes
    status := { poll.status with sentChunks := poll.status.sentChunks + 1 }
    requests := poll.requests ++
      [⟨poll.sender.groupId, poll.sender.term, poll.sender.leaderId, chunk⟩] }

def sendWhole (chunk : SnapshotChunk) (grantedBytes : Nat) (limiter : ρ) : Polling ρ :=
  { poll.push chunk grantedBytes limiter with
    sender := { poll.sender with nextChunk := poll.sender.nextChunk + 1 } }

def sendPart (chunk : SnapshotChunk) (grantedBytes : Nat) (limiter : ρ) : Polling ρ :=
  let sent := poll.push { chunk with data := chunk.data.take grantedBytes, done := false }
    grantedBytes limiter
  { sent with
    sender := { poll.sender with
      chunks := poll.sender.chunks.set poll.sender.nextChunk { chunk with
        offset := chunk.offset + grantedBytes, data := chunk.data.drop grantedBytes } }
    status := { sent.status with totalChunks := satAdd sent.status.totalChunks 1 } }

def send (chunk : SnapshotChunk) (grantedBytes : Nat) (limiter : ρ) : Polling ρ :=
  if grantedBytes < chunk.data.length then poll.sendPart chunk grantedBytes limiter
  else poll.sendWhole chunk grantedBytes limiter

variable [RateLimiter ρ]

def run (config : SnapshotLifecycleConfig) : Nat → Polling ρ → Polling ρ
  | 0, poll => poll
  | room + 1, poll =>
    match poll.sender.chunks[poll.sender.nextChunk]? with
    | none => poll
    | some chunk =>
      if poll.requests ≠ [] ∧ poll.bytes + chunk.data.length > config.maxBytesPerTick then
        poll.throttled
      else
        let (decision, limiter) := RateLimiter.reserveLimitedBytes chunk.data.length poll.limiter
        if !decision.allowed then poll.rateLimited limiter
        else run config room (poll.send chunk decision.grantedBytes limiter)

def closed (poll : Polling ρ) : Polling ρ :=
  if poll.sender.nextChunk < poll.sender.chunks.length then poll.throttled else poll

end Polling

def pollSendRequestsWithLimiter {ρ : Type} [RateLimiter ρ] (limiter : ρ) :
    LifecycleM (List InstallSnapshotRequest × ρ) := fun l =>
  match l.sender with
  | none => (.error (.invalidRequest .snapshotSendInactive), l)
  | some sender =>
    let poll := (Polling.run l.config l.config.maxChunksPerTick
      ⟨sender, l.status, limiter, [], 0⟩).closed
    (.ok (poll.requests, poll.limiter), { l with sender := some poll.sender, status := poll.status })

/-- The same loop without a limiter: every chunk goes out whole. -/
def pollSendRequests : LifecycleM (List InstallSnapshotRequest) :=
  pollSendRequestsWithLimiter Unlimited.mk >>= fun sent => pure sent.1

def accepted (l : SnapshotLifecycle) : SnapshotLifecycle :=
  let acceptedChunks := sender.acceptedChunks + 1
  if acceptedChunks ≥ sender.chunks.length ∧ sender.nextChunk ≥ sender.chunks.length then
    { l with status := { l.status with sending := false, completed := true }, sender := none }
  else { l with sender := some { sender with acceptedChunks := acceptedChunks } }

def rejected (nextOffset : Nat) : LifecycleM Unit := fun l =>
  let counted := { l with status := { l.status with retryCount := l.status.retryCount + 1 } }
  if sender.retryCount + 1 > l.config.maxRetryAttempts then
    (.error (.transport .sendRetryBudgetExhausted),
      { counted with sender := none, status := { counted.status with sending := false } })
  else
    (.ok (), { counted with
      sender := some (SnapshotSendState.rewound { sender with retryCount := sender.retryCount + 1 }
        nextOffset) })

def throttled (nextOffset : Nat) (l : SnapshotLifecycle) : SnapshotLifecycle :=
  { l with
    status := { l.status with throttledResponses := l.status.throttledResponses + 1 }
    sender := some (sender.rewound nextOffset) }

def recordSendResponse (response : InstallSnapshotResponse) : LifecycleM Unit := fun l =>
  match l.sender with
  | none =>
    if response.accepted then (.ok (), l)
    else (.error (.invalidRequest .snapshotSendInactive), l)
  | some sender =>
    if response.accepted then (.ok (), accepted sender l)
    else if response.throttled then (.ok (), throttled sender response.nextOffset l)
    else rejected sender response.nextOffset l

def recordSendTimeout : LifecycleM Unit := fun l =>
  match l.sender with
  | none => (.error (.invalidRequest .snapshotSendInactive), l)
  | some sender =>
    let counted := { l with status := { l.status with retryCount := l.status.retryCount + 1 } }
    if sender.retryCount + 1 > l.config.maxRetryAttempts then
      (.error (.transport .sendTimeoutBudgetExhausted),
        { counted with sender := none, status := { counted.status with sending := false } })
    else (.ok (), { counted with sender := some { sender with retryCount := sender.retryCount + 1 } })

variable (l : SnapshotLifecycle)

def cancelSend : Bool × SnapshotLifecycle :=
  if l.sender.isSome then
    (true, { l with sender := none, status := { l.status with sending := false, completed := false } })
  else (false, l)

/-! ## The receiving end -/

def installerFor (snapshotMeta : SnapshotMetadata) : SnapshotInstallState :=
  l.installer.getD (.new snapshotMeta)

def opened (snapshotMeta : SnapshotMetadata) : SnapshotLifecycle :=
  match l.installer with
  | some _ => l
  | none => { l with
      status := { l.status with
        snapshotId := some snapshotMeta.snapshotId
        installing := true
        sending := false
        completed := false
        receivedChunks := 0
        totalChunks := 0 }
      installer := some (.new snapshotMeta) }

def received (installer : Option SnapshotInstallState) : SnapshotLifecycle :=
  let receivedChunks := l.status.receivedChunks + 1
  { l with
    installer := installer
    status := { l.status with
      receivedChunks := receivedChunks
      totalChunks := max l.status.totalChunks receivedChunks } }

def installed (l : SnapshotLifecycle) (snapshot : RaftSnapshot) : SnapshotLifecycle :=
  { l with status := { l.status with
      installing := false
      completed := true
      installedIndex := snapshot.snapshotMeta.lastLogId.index } }

def installRequest (request : InstallSnapshotRequest) : LifecycleM (Option RaftSnapshot) := fun l =>
  let chunk := request.chunk
  if l.installClosed then
    (.error (.invalidRequest .snapshotInstallCancelled),
      { l with status := { l.status with refusedChunks := l.status.refusedChunks + 1 } })
  else
    let l := l.opened chunk.snapshotMeta
    let installer := l.installerFor chunk.snapshotMeta
    if chunk.offset = 0 ∧ installer.snapshotMeta ≠ chunk.snapshotMeta then (.ok none, l)
    else match installer.installChunk chunk with
      | .error error => (.error error, l)
      | .ok installer =>
        if installer.complete then
          match installer.finish request.groupId with
          | .error error => (.error error, l.received none)
          | .ok snapshot => (.ok (some snapshot), (l.received none).installed snapshot)
        else (.ok none, l.received (some installer))

def rollbackInstall : SnapshotLifecycle :=
  { l with
    installer := none
    status := { l.status with installing := false, rolledBack := l.status.rolledBack + 1 } }

def cancelInstall : Bool × SnapshotLifecycle :=
  let wasInstalling := l.installer.isSome
  (wasInstalling, { l with
    installer := none
    installClosed := true
    status := { l.status with
      installing := false
      installCancelled := true
      cancelledInstalls := l.status.cancelledInstalls + if wasInstalling then 1 else 0 } })

def admitInstall : Bool × SnapshotLifecycle :=
  (l.installClosed,
    { l with installClosed := false, status := { l.status with installCancelled := false } })

end SnapshotLifecycle

/-! ## The receiver's answers -/

inductive SnapshotFinishState where
  | received | rejected | notFromLeader | unpackFailed | staled | error | checksumError
  deriving DecidableEq

structure SnapshotFinish where
  finishState : SnapshotFinishState
  snapshotIndex : Nat
  deriving DecidableEq

structure SnapshotDownloadResult where
  accepted : Bool
  response : InstallSnapshotResponse
  installedSnapshot : Option RaftSnapshot
  finish : Option SnapshotFinish
  overQuota : Bool
  deriving DecidableEq

structure SnapshotDownloader where
  lifecycle : SnapshotLifecycle
  limiter : Option ByteQuotaLimiter
  deriving DecidableEq

namespace SnapshotDownloader

def declined (offset : Nat) (reason : InstallReason) (throttled : Bool) : SnapshotDownloadResult where
  accepted := false
  response :=
    { term := 0, accepted := false, nextOffset := offset, committedIndex := 0, reason := reason,
      throttled := throttled }
  installedSnapshot := none
  finish := none
  overQuota := throttled

def taken (installedSnapshot : Option RaftSnapshot) : SnapshotDownloadResult where
  accepted := true
  response :=
    { term := (installedSnapshot.map fun snapshot => snapshot.snapshotMeta.lastLogId.term).getD 0
      accepted := true
      nextOffset := satAdd chunk.offset chunk.data.length
      committedIndex :=
        (installedSnapshot.map fun snapshot => snapshot.snapshotMeta.lastLogId.index).getD 0
      reason := if installedSnapshot.isSome then .downloaded else .downloadChunkAccepted
      throttled := false }
  installedSnapshot := installedSnapshot
  finish := if installedSnapshot.isSome then
    some ⟨.received, chunk.snapshotMeta.lastLogId.index⟩ else none
  overQuota := false

/-- The chunk is charged to the quota, if there is one. -/
def charge (bytes : Nat) (downloader : SnapshotDownloader) : Bool × SnapshotDownloader :=
  match downloader.limiter with
  | none => (false, downloader)
  | some limiter =>
    let (decision, limiter) := limiter.reserveLimitedBytes bytes
    (!decision.allowed, { downloader with limiter := some limiter })

def download (request : InstallSnapshotRequest) :
    Attempt SnapshotDownloader RaftError SnapshotDownloadResult := fun downloader =>
  let chunk := request.chunk
  if downloader.lifecycle.installClosed then
    let (outcome, lifecycle) := SnapshotLifecycle.installRequest request downloader.lifecycle
    match outcome with
    | .error error => (.ok (declined chunk.offset (.refused error) false), { downloader with lifecycle })
    -- the source marks this branch unreachable
    | .ok installedSnapshot => (.ok (taken chunk installedSnapshot), { downloader with lifecycle })
  else
    let (overQuota, downloader) := downloader.charge chunk.data.length
    if overQuota then (.ok (declined chunk.offset .downloadQuotaExhausted true), downloader)
    else
      let (outcome, lifecycle) := SnapshotLifecycle.installRequest request downloader.lifecycle
      match outcome with
      | .error error => (.error error, { downloader with lifecycle })
      | .ok installedSnapshot =>
        (.ok (taken chunk installedSnapshot), { downloader with lifecycle })

end SnapshotDownloader
end MatrixRaft
