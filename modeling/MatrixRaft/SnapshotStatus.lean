/-
# SnapshotStatus — the flags of a lifecycle and what it holds

`sending` and `installing` are set beside the sender and the installer they speak of.  Two
paths of `installRequest` miss one: it starts an install over a send in progress, and an
install that cannot be finished is dropped with its flag up.
-/
import MatrixRaft.SnapshotResend

namespace MatrixRaft
open Theory SnapshotLifecycle

namespace SnapshotLifecycle

/-- The flags say what is in progress, and one of the two ends is idle. -/
structure Faithful (l : SnapshotLifecycle) : Prop where
  sending : l.status.sending = l.sender.isSome
  installing : l.status.installing = l.installer.isSome
  apart : ¬(l.sender.isSome ∧ l.installer.isSome)

inductive Call (ρ : Type) where
  | beginSend (snapshot : RaftSnapshot) (term leaderId : Nat)
  | pollSendRequests
  | pollSendRequestsWithLimiter (limiter : ρ)
  | recordSendResponse (response : InstallSnapshotResponse)
  | recordSendTimeout | cancelSend
  | installRequest (request : InstallSnapshotRequest)
  | rollbackInstall | cancelInstall | admitInstall

variable {ρ : Type} [RateLimiter ρ]

namespace Call

def run : Call ρ → SnapshotLifecycle → SnapshotLifecycle
  | beginSend snapshot term leaderId, l => (l.beginSend snapshot term leaderId).2
  | pollSendRequests, l => l.pollSendRequests.2
  | pollSendRequestsWithLimiter limiter, l => (l.pollSendRequestsWithLimiter limiter).2
  | recordSendResponse response, l => (l.recordSendResponse response).2
  | recordSendTimeout, l => l.recordSendTimeout.2
  | cancelSend, l => l.cancelSend.2
  | installRequest request, l => (l.installRequest request).2
  | rollbackInstall, l => l.rollbackInstall
  | cancelInstall, l => l.cancelInstall.2
  | admitInstall, l => l.admitInstall.2

def Orderly (l : SnapshotLifecycle) : Call ρ → Prop
  | installRequest request => l.installClosed = true ∨ l.sender = none ∧
      let installer := l.installerFor request.chunk.snapshotMeta
      (request.chunk.done = true → installer.snapshotMeta.payloadBytes = 0 ∨
        installer.bytes.length + request.chunk.data.length = installer.snapshotMeta.payloadBytes)
  | _ => True

end Call

/-! ## One call -/

theorem Polling.run_flags (config : SnapshotLifecycleConfig) (room : Nat) (poll : Polling ρ) :
    (run config room poll).closed.status.sending = poll.status.sending ∧
      (run config room poll).closed.status.installing = poll.status.installing := by
  refine run_rule (P := fun after => after.status.sending = poll.status.sending ∧
    after.status.installing = poll.status.installing) config (fun _ holds => holds)
    (fun _ _ holds => holds) (fun mid chunk grantedBytes limiter _ holds => ?_) room poll ⟨rfl, rfl⟩
  unfold send
  split <;> exact holds

namespace Faithful
variable {l : SnapshotLifecycle}

theorem pollSendRequestsWithLimiter (faithful : l.Faithful) (limiter : ρ) :
    (l.pollSendRequestsWithLimiter limiter).2.Faithful := by
  unfold SnapshotLifecycle.pollSendRequestsWithLimiter
  split
  · exact faithful
  rename_i sender active
  obtain ⟨sending, installing⟩ := Polling.run_flags l.config l.config.maxChunksPerTick
    (⟨sender, l.status, limiter, [], 0⟩ : Polling ρ)
  refine ⟨?_, installing.trans faithful.installing, fun both => faithful.apart ⟨?_, both.2⟩⟩
  · exact sending.trans (by simp [faithful.sending, active])
  · simp [active]

omit [RateLimiter ρ] in
theorem installRequest (faithful : l.Faithful) {request : InstallSnapshotRequest}
    (orderly : (Call.installRequest request : Call ρ).Orderly l) :
    (l.installRequest request).2.Faithful := by
  unfold SnapshotLifecycle.installRequest
  dsimp only
  split
  · exact ⟨faithful.sending, faithful.installing, faithful.apart⟩
  rename_i admitted
  obtain ⟨idle, whole⟩ := orderly.resolve_left admitted
  have down : l.status.sending = false := by simp [faithful.sending, idle]
  set begun := l.opened request.chunk.snapshotMeta with begun_eq
  obtain ⟨sender, sending, held⟩ : begun.sender = none ∧ begun.status.sending = false ∧
      begun.installer = some (l.installerFor request.chunk.snapshotMeta) := by
    rw [begun_eq, opened, installerFor]
    split <;> simp [*]
  have installing : begun.status.installing = true := by
    rw [begun_eq, opened]
    split
    · simp [faithful.installing, *]
    · rfl
  have open_ : begun.Faithful :=
    ⟨by simp [sender, sending], by simp [installing, held], by simp [sender]⟩
  split
  · exact open_
  have same : begun.installerFor request.chunk.snapshotMeta
      = l.installerFor request.chunk.snapshotMeta := by simp [installerFor, held]
  rw [same]
  split
  · exact open_
  rename_i fed took
  unfold SnapshotInstallState.installChunk at took
  dsimp only at took
  split_ifs at took
  cases took
  split
  · rename_i done
    have length := whole done
    simp only [SnapshotInstallState.finish, List.length_append]
    rw [if_neg (by simpa using done), if_neg (by omega)]
    exact ⟨by simp [received, installed, sender, sending], rfl, by simp [received, installed]⟩
  · exact ⟨by simp [received, sender, sending], by simp [received, installing],
      by simp [received, sender]⟩

/-- **One call**, failing or not. -/
theorem call (faithful : l.Faithful) {call : Call ρ} (orderly : call.Orderly l) :
    (call.run l).Faithful := by
  have sending := faithful.sending
  have apart := faithful.apart
  -- a send that goes on, and one that is over
  have lasts : ∀ sender status, l.sender.isSome = true → status.sending = l.status.sending →
      status.installing = l.status.installing →
      ({ l with sender := some sender, status := status } : SnapshotLifecycle).Faithful :=
    fun _ _ active send install => ⟨by simp [send, sending, active],
      install.trans faithful.installing, fun both => apart ⟨active, both.2⟩⟩
  have ends : ∀ status, status.sending = false → status.installing = l.status.installing →
      ({ l with sender := none, status := status } : SnapshotLifecycle).Faithful :=
    fun _ send install => ⟨by simp [send], install.trans faithful.installing, by simp⟩
  cases call with
  | beginSend =>
    unfold Call.run beginSend
    dsimp only
    split
    · exact faithful
    rename_i idle
    split
    · exact faithful
    · exact ⟨rfl, by simpa using fun held => idle (.inr held), fun both => idle (.inr both.2)⟩
  | pollSendRequests =>
    unfold Call.run pollSendRequests
    dsimp only
    rw [Attempt.bind_pure_state]
    exact faithful.pollSendRequestsWithLimiter Unlimited.mk
  | pollSendRequestsWithLimiter limiter => exact faithful.pollSendRequestsWithLimiter limiter
  | recordSendResponse =>
    unfold Call.run recordSendResponse
    dsimp only
    split
    · split <;> exact faithful
    rename_i sender active
    split
    · unfold accepted
      dsimp only
      split
      · exact ends _ rfl rfl
      · exact lasts _ _ (by simp [active]) rfl rfl
    split
    · exact lasts _ _ (by simp [active]) rfl rfl
    · unfold rejected
      dsimp only
      split
      · exact ends _ rfl rfl
      · exact lasts _ _ (by simp [active]) rfl rfl
  | recordSendTimeout =>
    unfold Call.run recordSendTimeout
    dsimp only
    split
    · exact faithful
    rename_i sender active
    split
    · exact ends _ rfl rfl
    · exact lasts _ _ (by simp [active]) rfl rfl
  | cancelSend =>
    unfold Call.run cancelSend
    dsimp only
    split
    · exact ends _ rfl rfl
    · exact faithful
  | installRequest => exact faithful.installRequest orderly
  | rollbackInstall => exact ⟨sending, rfl, by simp [Call.run, rollbackInstall]⟩
  | cancelInstall => exact ⟨sending, rfl, by simp [Call.run, cancelInstall]⟩
  | admitInstall => exact ⟨sending, faithful.installing, apart⟩

end Faithful

/-! ## Runs -/

def OrderlyRun : SnapshotLifecycle → List (Call ρ) → Prop
  | _, [] => True
  | l, call :: rest => call.Orderly l ∧ OrderlyRun (call.run l) rest

/-- **Runs.** In every state a new lifecycle reaches by orderly calls, the flags say what is in
progress. -/
theorem status_faithful {config : SnapshotLifecycleConfig} {fresh : SnapshotLifecycle}
    (created : new config = .ok fresh) (calls : List (Call ρ)) (orderly : OrderlyRun fresh calls) :
    (calls.foldl (fun l call => call.run l) fresh).Faithful := by
  have begun : fresh.Faithful := by
    unfold new at created
    split at created <;> cases created
    exact ⟨rfl, rfl, by simp⟩
  clear created
  induction calls generalizing fresh with
  | nil => exact begun
  | cons call rest ih => exact ih orderly.2 (begun.call orderly.1)

def fourBytes : RaftSnapshot :=
  ⟨1, { (default : SnapshotMetadata) with payloadBytes := 4 }, [1, 2, 3, 4]⟩

def chunkAt (offset : Nat) (data : Payload) (done : Bool) : InstallSnapshotRequest :=
  ⟨1, 1, 2, ⟨fourBytes.snapshotMeta, offset, data, done⟩⟩

theorem status_faithful_installed : ∃ fresh, new ⟨2, 1, 64, 3⟩ = .ok fresh ∧
      (([.installRequest (chunkAt 0 [1, 2] false), .installRequest (chunkAt 2 [3, 4] true),
        .beginSend fourBytes 1 2, .pollSendRequests] : List (Call Unlimited)).foldl
          (fun l call => call.run l) fresh).Faithful :=
  ⟨_, rfl, status_faithful (show new ⟨2, 1, 64, 3⟩ = _ from rfl) _
    ⟨.inr ⟨rfl, fun last => by cases last⟩, .inr ⟨rfl, fun _ => .inr rfl⟩, trivial, trivial, trivial⟩⟩

/-- A chunk arrives while a send is in progress, which is then not shown; a last chunk comes too
short, and an install is shown that is not held. -/
theorem flags_mislead :
    ∃ fresh, new ⟨2, 1, 64, 3⟩ = .ok fresh ∧
      (let l := ([.beginSend fourBytes 1 2, .installRequest (chunkAt 0 [1, 2] false)] :
        List (Call Unlimited)).foldl (fun l call => call.run l) fresh
      l.status.sending = false ∧ l.sender.isSome ∧ l.installer.isSome) ∧
      (let l := ([.installRequest (chunkAt 0 [1, 2] true)] : List (Call Unlimited)).foldl
        (fun l call => call.run l) fresh
      l.status.installing = true ∧ l.installer = none) :=
  ⟨_, rfl, by decide +kernel, by decide +kernel⟩

end SnapshotLifecycle
end MatrixRaft
