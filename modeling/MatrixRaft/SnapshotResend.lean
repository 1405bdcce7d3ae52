/-
# SnapshotResend — where a rewound send goes on

A rejected or throttled answer names the offset the receiver wants next.  The sender
looks for the first chunk of its list at or after it; a chunk the limiter cut has
given up its beginning by then.
-/
import MatrixRaft.SnapshotLifecycle

namespace MatrixRaft
open Theory List

/-! ## Runs of the sending end -/

inductive SendCall (ρ : Type) where
  | poll
  | pollWithLimiter (limiter : ρ)
  | response (answer : InstallSnapshotResponse)
  | timeout | cancel

variable {ρ : Type} (l : SnapshotLifecycle) [RateLimiter ρ]

namespace SendCall
variable {ρ : Type}

def rewinds : SendCall ρ → Bool
  | response answer => !answer.accepted
  | _ => false

variable [RateLimiter ρ]

def run (l : SnapshotLifecycle) : SendCall ρ → List InstallSnapshotRequest × SnapshotLifecycle
  | poll =>
    match l.pollSendRequests with
    | (.ok requests, after) => (requests, after)
    | (.error _, after) => ([], after)
  | pollWithLimiter limiter =>
    match l.pollSendRequestsWithLimiter limiter with
    | (.ok (requests, _), after) => (requests, after)
    | (.error _, after) => ([], after)
  | response answer => ([], (l.recordSendResponse answer).2)
  | timeout => ([], l.recordSendTimeout.2)
  | cancel => ([], l.cancelSend.2)

end SendCall

def sendRun (l : SnapshotLifecycle) :
    List (SendCall ρ) → List InstallSnapshotRequest × SnapshotLifecycle
  | [] => ([], l)
  | call :: calls =>
    let step := call.run l
    let rest := sendRun step.2 calls
    (step.1 ++ rest.1, rest.2)

def sentBytes (requests : List InstallSnapshotRequest) : Payload :=
  requests.flatMap fun request => request.chunk.data

/-! ## What a poll takes -/

variable (sender : SnapshotSendState) {chunk : SnapshotChunk}

namespace SnapshotSendState

def left : List SnapshotChunk := sender.chunks.drop sender.nextChunk

def leftBytes : Payload := sender.left.flatMap fun chunk => chunk.data

theorem left_of_getElem? {sender : SnapshotSendState}
    (next : sender.chunks[sender.nextChunk]? = some chunk) :
    sender.left = chunk :: sender.chunks.drop (sender.nextChunk + 1) := by
  obtain ⟨inside, rfl⟩ := List.getElem?_eq_some_iff.mp next
  exact List.drop_eq_getElem_cons inside

structure Emits (before after : SnapshotSendState) (sent : List InstallSnapshotRequest) : Prop where
  bytes : before.leftBytes = sentBytes sent ++ after.leftBytes
  first : ∀ request ∈ sent.head?, ∃ chunk ∈ before.left.head?, request.chunk.offset = chunk.offset
  none : sent = [] → after.left = before.left

theorem Emits.refl : Emits sender sender [] where
  bytes := rfl
  first := by simp
  none := fun _ => rfl

theorem Emits.trans {before mid after : SnapshotSendState} {sent later : List InstallSnapshotRequest}
    (one : Emits before mid sent) (two : Emits mid after later) :
    Emits before after (sent ++ later) where
  bytes := by simp [one.bytes, two.bytes, sentBytes]
  first := by
    intro request member
    rcases sent with _ | ⟨head, sent⟩
    · grind [one.none, two.first]
    · exact one.first request member
  none := by grind [append_eq_nil_iff, two.none, one.none]

end SnapshotSendState

namespace SnapshotLifecycle
open SnapshotSendState

namespace Polling
variable {ρ : Type}

theorem send_emits (poll : Polling ρ) (grantedBytes : Nat) (limiter : ρ)
    (next : poll.sender.chunks[poll.sender.nextChunk]? = some chunk) :
    ∃ request, (poll.send chunk grantedBytes limiter).requests = poll.requests ++ [request] ∧
      Emits poll.sender (poll.send chunk grantedBytes limiter).sender [request] := by
  have first := left_of_getElem? next
  unfold send
  split
  · -- part of the chunk: the rest of it stands first afterwards
    refine ⟨_, rfl, ?_, ?_, by simp⟩
    · have after : (poll.sendPart chunk grantedBytes limiter).sender.left
          = { chunk with
              offset := chunk.offset + grantedBytes, data := chunk.data.drop grantedBytes } ::
            poll.sender.chunks.drop (poll.sender.nextChunk + 1) := by
        obtain ⟨inside, -⟩ := List.getElem?_eq_some_iff.mp next
        simp only [left, sendPart]
        rw [List.drop_eq_getElem_cons (by simpa using inside), List.getElem_set_self,
          drop_set_of_lt (Nat.lt_succ_self _)]
      simp only [leftBytes, after, first, flatMap_cons, sentBytes, flatMap_nil,
        append_nil]
      rw [← append_assoc, take_append_drop]
    · simp [first]
  · refine ⟨_, rfl, ?_, ?_, by simp⟩
    · simp only [leftBytes, first, flatMap_cons, sentBytes, flatMap_nil, append_nil]
      rfl
    · simp [first]

variable [RateLimiter ρ]

section
variable (config : SnapshotLifecycleConfig)

theorem run_rule {P : Polling ρ → Prop} (throttle : ∀ poll : Polling ρ, P poll → P poll.throttled)
    (limit : ∀ (poll : Polling ρ) (limiter : ρ), P poll → P (poll.rateLimited limiter))
    (send : ∀ (poll : Polling ρ) (chunk : SnapshotChunk) (grantedBytes : Nat) (limiter : ρ),
      poll.sender.chunks[poll.sender.nextChunk]? = some chunk → P poll →
        P (poll.send chunk grantedBytes limiter))
    (room : Nat) (poll : Polling ρ) (holds : P poll) : P (run config room poll).closed := by
  have looped : P (run config room poll) := by
    induction room generalizing poll with
    | zero => exact holds
    | succ room ih =>
      unfold run
      split
      · exact holds
      split
      all_goals grind
  unfold closed
  grind

theorem run_emits (room : Nat) (poll : Polling ρ) :
    ∃ sent, (run config room poll).closed.requests = poll.requests ++ sent ∧
      Emits poll.sender (run config room poll).closed.sender sent := by
  refine run_rule (P := fun after => ∃ sent, after.requests = poll.requests ++ sent ∧
    Emits poll.sender after.sender sent) config (fun _ holds => holds) (fun _ _ holds => holds) ?_
    room poll ⟨[], (append_nil _).symm, Emits.refl _⟩
  rintro mid chunk grantedBytes limiter next ⟨sent, pushed, emits⟩
  obtain ⟨request, more, emitsMore⟩ := mid.send_emits grantedBytes limiter next
  exact ⟨sent ++ [request], by rw [more, pushed, append_assoc], emits.trans emitsMore⟩

theorem run_completed (room : Nat) (poll : Polling ρ) :
    (run config room poll).closed.status.completed = poll.status.completed := by
  refine run_rule (P := fun after => after.status.completed = poll.status.completed) config
    (fun _ holds => holds) (fun _ _ holds => holds) ?_ room poll rfl
  intro mid chunk grantedBytes limiter _ holds
  unfold send
  split <;> exact holds

end
end Polling

theorem poll_of_sender {l : SnapshotLifecycle} {sender : SnapshotSendState}
    (sending : l.sender = some sender) (limiter : ρ) : (SendCall.pollWithLimiter limiter).run l =
      let poll := (Polling.run l.config l.config.maxChunksPerTick
        ⟨sender, l.status, limiter, [], 0⟩).closed
      (poll.requests, { l with sender := some poll.sender, status := poll.status }) := by
  simp only [SendCall.run, pollSendRequestsWithLimiter, sending]

theorem run_poll (l : SnapshotLifecycle) :
    (SendCall.poll : SendCall ρ).run l = (SendCall.pollWithLimiter Unlimited.mk).run l := by
  simp only [SendCall.run, pollSendRequests, Attempt.bind_apply]
  rcases pollSendRequestsWithLimiter Unlimited.mk l with ⟨_ | ⟨requests, limiter⟩, after⟩ <;> rfl

end SnapshotLifecycle

/-! ## A send that is not moved back -/

open SnapshotSendState in
/-- What has gone out since the sender was `start`: the bytes from there on, in order, and all of
them once the send is completed. -/
def Since (start : SnapshotSendState) (sent : List InstallSnapshotRequest) (l : SnapshotLifecycle) :
    Prop :=
  ∃ last, Emits start last sent ∧ (∀ sender ∈ l.sender, sender.left = last.left) ∧
    (l.status.completed = true → l.sender = none ∧ last.left = [])

namespace Since
open SnapshotSendState SnapshotLifecycle
variable {start : SnapshotSendState} {sent : List InstallSnapshotRequest} {l : SnapshotLifecycle}

theorem refl {sender : SnapshotSendState} (sending : l.sender = some sender)
    (open_ : l.status.completed = false) : Since sender [] l := by
  refine ⟨sender, Emits.refl sender, ?_, ?_⟩
  all_goals grind

theorem emits_of_left {last sender : SnapshotSendState} (emits : Emits start last sent)
    (same : sender.left = last.left) : Emits start sender sent where
  bytes := by rw [emits.bytes, leftBytes, leftBytes, same]
  first := emits.first
  none := fun empty => same.trans (emits.none empty)

section
variable (since : Since start sent l)

include since

theorem pollWithLimiter (limiter : ρ) :
    Since start (sent ++ ((SendCall.pollWithLimiter limiter).run l).1)
      ((SendCall.pollWithLimiter limiter).run l).2 := by
  obtain ⟨last, emits, current, completed⟩ := since
  rcases sending : l.sender with _ | sender
  · simpa [SendCall.run, pollSendRequestsWithLimiter, sending] using ⟨last, emits, current,
      completed⟩
  rw [poll_of_sender sending]
  obtain ⟨more, pushed, emitsMore⟩ := Polling.run_emits l.config l.config.maxChunksPerTick
    (⟨sender, l.status, limiter, [], 0⟩ : Polling ρ)
  have kept := Polling.run_completed l.config l.config.maxChunksPerTick
    (⟨sender, l.status, limiter, [], 0⟩ : Polling ρ)
  simp only [pushed]
  refine ⟨_, (emits_of_left emits (current sender sending)).trans emitsMore, ?_, ?_⟩
  all_goals grind

theorem accepts {answer : InstallSnapshotResponse}
    (yes : answer.accepted = true) : Since start sent (recordSendResponse answer l).2 := by
  obtain ⟨last, emits, current, completed⟩ := since
  unfold recordSendResponse
  split
  · rw [if_pos yes]
    exact ⟨last, emits, current, completed⟩
  rename_i sender sending
  have same := current sender sending
  rw [if_pos yes]
  simp only [accepted]
  split
  · rename_i all
    refine ⟨last, emits, by simp, fun _ => ⟨rfl, ?_⟩⟩
    rw [← same, left, drop_eq_nil_of_le all.2]
  · refine ⟨last, emits, ?_, fun done => ?_⟩
    · rintro other ⟨⟩
      exact same
    · grind

theorem timeout : Since start sent (recordSendTimeout l).2 := by
  obtain ⟨last, emits, current, completed⟩ := since
  unfold recordSendTimeout
  split
  · exact ⟨last, emits, current, completed⟩
  rename_i sender sending
  have active (done : l.status.completed = true) : False := by grind
  split
  · exact ⟨last, emits, by simp, fun done => (active done).elim⟩
  refine ⟨last, emits, ?_, fun done => (active done).elim⟩
  rintro other ⟨⟩
  exact current sender sending

theorem cancel : Since start sent l.cancelSend.2 := by
  obtain ⟨last, emits, current, completed⟩ := since
  unfold cancelSend
  split
  · exact ⟨last, emits, by simp, by simp⟩
  · exact ⟨last, emits, current, completed⟩

theorem step {call : SendCall ρ}
    (forward : call.rewinds = false) : Since start (sent ++ (call.run l).1) (call.run l).2 := by
  cases call with
  | poll =>
    rw [run_poll]
    exact since.pollWithLimiter Unlimited.mk
  | pollWithLimiter limiter => exact since.pollWithLimiter limiter
  | response =>
    rw [SendCall.run, append_nil]
    grind [SendCall.rewinds, since.accepts]
  | timeout =>
    rw [SendCall.run, append_nil]
    exact since.timeout
  | cancel =>
    rw [SendCall.run, append_nil]
    exact since.cancel

theorem run {calls : List (SendCall ρ)} (forward : ∀ call ∈ calls, call.rewinds = false) :
    Since start (sent ++ (sendRun l calls).1) (sendRun l calls).2 := by
  induction calls generalizing sent l with
  | nil => rwa [sendRun, append_nil]
  | cons call calls ih =>
    have next := since.step (forward call mem_cons_self)
    have rest := ih next fun other member => forward other (mem_cons_of_mem _ member)
    rw [append_assoc] at rest
    exact rest

end
end Since

/-- Every chunk has gone out. -/
def SnapshotLifecycle.Finished : Prop :=
  l.status.completed = true ∨ ∃ sender ∈ l.sender, sender.chunks.length ≤ sender.nextChunk

open SnapshotSendState in
theorem Since.finished {start : SnapshotSendState} {sent : List InstallSnapshotRequest}
    {l : SnapshotLifecycle} (since : Since start sent l) (finished : l.Finished) :
    sentBytes sent = start.leftBytes ∧ (start.left ≠ [] → sent ≠ []) := by
  obtain ⟨last, emits, current, completed⟩ := since
  have empty : last.left = [] := by
    rcases finished with done | ⟨sender, sending, past⟩
    · exact (completed done).2
    · rw [← current sender sending, left, drop_eq_nil_of_le past]
  refine ⟨?_, fun some_ none_ => some_ ((emits.none none_).symm.trans empty)⟩
  rw [emits.bytes, leftBytes, empty, flatMap_nil, append_nil]

/-! ## The stored chunks -/

/-- The chunks are pieces of the payload, in order, from `start` on; there may be gaps. -/
def Laid (payload : Payload) : Nat → List SnapshotChunk → Prop
  | start, [] => start = payload.length
  | start, chunk :: rest =>
    start ≤ chunk.offset ∧ chunk.offset + chunk.data.length ≤ payload.length ∧
      chunk.data = (payload.drop chunk.offset).take chunk.data.length ∧
      Laid payload (chunk.offset + chunk.data.length) rest

def Chained (total : Nat) : Nat → List SnapshotChunk → Prop
  | start, [] => start = total
  | start, chunk :: rest => chunk.offset = start ∧ Chained total (start + chunk.data.length) rest

instance decidableChained (total : Nat) : (start : Nat) → (chunks : List SnapshotChunk) →
    Decidable (Chained total start chunks)
  | start, [] => inferInstanceAs (Decidable (start = total))
  | start, chunk :: rest =>
    have := decidableChained total (start + chunk.data.length) rest
    inferInstanceAs (Decidable (_ ∧ _))

section Laid
variable {payload : Payload} {chunks : List SnapshotChunk}

theorem Laid.set {start : Nat} {place grantedBytes : Nat}
    (laid : Laid payload start chunks) (here : chunks[place]? = some chunk)
    (part : grantedBytes < chunk.data.length) : Laid payload start (chunks.set place { chunk with
      offset := chunk.offset + grantedBytes, data := chunk.data.drop grantedBytes }) := by
  induction chunks generalizing start place with
  | nil => cases here
  | cons head rest ih =>
    obtain ⟨after, inside, piece, tail⟩ := laid
    cases place with
    | zero =>
      simp only [getElem?_cons_zero, Option.some.injEq] at here
      subst here
      have stop : head.offset + grantedBytes + (head.data.drop grantedBytes).length
          = head.offset + head.data.length := by grind
      refine ⟨by simp only; omega, by simp only [stop]; exact inside, ?_, by simpa only [stop]⟩
      grind [drop_take, drop_drop]
    | succ => exact ⟨after, inside, piece, ih tail here⟩

section
variable {start : Nat} {chunks : List SnapshotChunk} (laid : Laid payload start chunks)
include laid

theorem Laid.drop (count : Nat) : ∃ start', Laid payload start' (chunks.drop count) := by
  induction count generalizing start chunks with
  | zero => exact ⟨start, laid⟩
  | succ count ih =>
    cases chunks with
    | nil => exact ⟨start, laid⟩
    | cons => exact ih laid.2.2.2

theorem Laid.length_le :
    (chunks.flatMap fun chunk => chunk.data).length ≤ payload.length - start := by
  induction chunks generalizing start with
  | nil => simp
  | cons chunk rest ih =>
    obtain ⟨after, inside, -, tail⟩ := laid
    grind

theorem Laid.chained_of_length
    (full : (chunks.flatMap fun chunk => chunk.data).length = payload.length - start) :
    Chained payload.length start chunks := by
  induction chunks generalizing start with
  | nil => exact laid
  | cons chunk rest ih =>
    obtain ⟨after, inside, -, tail⟩ := laid
    have bound := tail.length_le
    rw [flatMap_cons, length_append] at full
    obtain rfl : chunk.offset = start := by omega
    exact ⟨rfl, ih tail (by omega)⟩

end

theorem Laid.bytes_of_chained {start from_ : Nat}
    (laid : Laid payload start chunks) (chained : Chained payload.length from_ chunks) :
    (chunks.flatMap fun chunk => chunk.data) = payload.drop from_ := by
  induction chunks generalizing start from_ with
  | nil => rw [flatMap_nil, show from_ = payload.length from chained, drop_length]
  | cons chunk rest ih =>
    obtain ⟨-, -, piece, tail⟩ := laid
    obtain ⟨rfl, follows⟩ := chained
    rw [flatMap_cons, ih tail follows, ← drop_drop]
    calc chunk.data ++ (payload.drop chunk.offset).drop chunk.data.length
        = (payload.drop chunk.offset).take chunk.data.length ++
            (payload.drop chunk.offset).drop chunk.data.length := by rw [← piece]
      _ = payload.drop chunk.offset := take_append_drop _ _

theorem laid_chunksFrom (payload : Payload) (declared : SnapshotMetadata) {chunkSize : Nat} (positive : 0 < chunkSize) :
    ∀ {fuel offset : Nat}, offset ≤ payload.length → payload.length - offset ≤ fuel →
      Laid payload offset (chunksFrom declared payload chunkSize fuel offset) := by
  intro fuel
  induction fuel with
  | zero =>
    intro offset inside enough
    show offset = payload.length
    omega
  | succ fuel ih =>
    intro offset inside enough
    unfold chunksFrom
    split
    · have size : (SnapshotChunk.cut declared payload offset
          (min (offset + chunkSize) payload.length)).data.length
          = min (offset + chunkSize) payload.length - offset := by simp [SnapshotChunk.cut]
      refine ⟨le_refl _, ?_, ?_, ?_⟩
      · rw [size]
        simp only [SnapshotChunk.cut]
        omega
      · rw [size, SnapshotChunk.cut, drop_take]
      · simp only [SnapshotChunk.cut]
        grind
    · show offset = payload.length
      omega

theorem laid_checkpoint {snapshot : RaftSnapshot} {chunkSize : Nat}
    (cut : SnapshotLifecycle.checkpoint snapshot chunkSize = .ok chunks) :
    Laid snapshot.payload 0 chunks := by
  unfold SnapshotLifecycle.checkpoint at cut
  split at cut
  · cases cut
  rename_i positive
  have laid := laid_chunksFrom snapshot.payload (SnapshotLifecycle.declared snapshot)
    (Nat.pos_of_ne_zero positive) (Nat.zero_le _) (Nat.sub_le _ 0)
  injection cut with cut
  subst cut
  split
  · rename_i empty
    rw [List.isEmpty_iff] at empty
    rw [empty] at laid
    have none : snapshot.payload.length = 0 := laid.symm
    exact ⟨le_refl _, le_of_eq none.symm, by simp, none.symm⟩
  · exact laid

end Laid

/-! ## Every state a send reaches -/

structure KeepsSend (before after : SnapshotLifecycle) : Prop where
  config : after.config = before.config
  sender : ∀ sender ∈ after.sender, ∃ earlier ∈ before.sender,
    sender.chunks = earlier.chunks ∧ sender.acceptedChunks = earlier.acceptedChunks
  completed : after.status.completed = true → before.status.completed = true

section KeepsSend
open SnapshotLifecycle

theorem KeepsSend.open_ {before after : SnapshotLifecycle} (keeps : KeepsSend before after)
    (open_ : before.sender.isSome → before.status.completed = false) :
    after.sender.isSome → after.status.completed = false := by
  intro some_
  obtain ⟨sender, member⟩ := Option.isSome_iff_exists.mp some_
  obtain ⟨earlier, sending, -⟩ := keeps.sender sender member
  rw [← Bool.not_eq_true]
  intro done
  have running := open_ (by rw [sending]; rfl)
  grind [keeps.completed]

theorem keepsSend_declined {answer : InstallSnapshotResponse}
    (no : answer.accepted = false) : KeepsSend l (recordSendResponse answer l).2 := by
  unfold recordSendResponse
  simp only [no, Bool.false_eq_true, if_false]
  split
  · exact ⟨rfl, fun sender member => ⟨sender, member, rfl, rfl⟩, id⟩
  rename_i sender sending
  split
  · refine ⟨rfl, ?_, id⟩
    rintro other ⟨⟩
    exact ⟨sender, sending, rfl, rfl⟩
  · simp only [rejected]
    split
    · exact ⟨rfl, by rintro other ⟨⟩, id⟩
    refine ⟨rfl, ?_, id⟩
    rintro other ⟨⟩
    exact ⟨sender, sending, rfl, rfl⟩

theorem keepsSend_timeout : KeepsSend l (recordSendTimeout l).2 := by
  unfold recordSendTimeout
  split
  · exact ⟨rfl, fun sender member => ⟨sender, member, rfl, rfl⟩, id⟩
  split
  · exact ⟨rfl, by rintro other ⟨⟩, id⟩
  · refine ⟨rfl, ?_, id⟩
    grind

theorem keepsSend_cancel : KeepsSend l l.cancelSend.2 := by
  unfold cancelSend
  split
  · exact ⟨rfl, by rintro other ⟨⟩, by simp⟩
  · exact ⟨rfl, fun sender member => ⟨sender, member, rfl, rfl⟩, id⟩

end KeepsSend

structure Active (payload : Payload) (config : SnapshotLifecycleConfig) (l : SnapshotLifecycle) :
    Prop where
  config : l.config = config
  laid : ∀ sender ∈ l.sender, Laid payload 0 sender.chunks
  open_ : l.sender.isSome → l.status.completed = false

namespace Active
open SnapshotLifecycle
variable {payload : Payload} {config : SnapshotLifecycleConfig} {l : SnapshotLifecycle}

section
variable (active : Active payload config l)

include active

theorem pollWithLimiter (limiter : ρ) :
    Active payload config ((SendCall.pollWithLimiter limiter).run l).2 := by
  rcases sending : l.sender with _ | sender
  · simpa only [SendCall.run, pollSendRequestsWithLimiter, sending] using active
  have open_ := active.open_ (by rw [sending]; rfl)
  have kept : Laid payload 0 (Polling.run l.config l.config.maxChunksPerTick
      (⟨sender, l.status, limiter, [], 0⟩ : Polling ρ)).closed.sender.chunks := by
    refine Polling.run_rule (P := fun after => Laid payload 0 after.sender.chunks) l.config
      (fun _ laid => laid) (fun _ _ laid => laid) ?_ _ _ (active.laid sender sending)
    intro poll chunk grantedBytes limiter next laid
    unfold Polling.send
    split
    · exact laid.set next ‹_›
    · exact laid
  rw [poll_of_sender sending]
  refine ⟨active.config, ?_, fun _ => ?_⟩
  · rintro other ⟨⟩
    exact kept
  · exact (Polling.run_completed _ _ _).trans open_

theorem of_keeps {after : SnapshotLifecycle}
    (keeps : KeepsSend l after) : Active payload config after where
  config := keeps.config.trans active.config
  laid := by
    intro sender member
    obtain ⟨earlier, before, same, -⟩ := keeps.sender sender member
    rw [same]
    exact active.laid earlier before
  open_ := keeps.open_ active.open_

theorem response (answer : InstallSnapshotResponse) :
    Active payload config (recordSendResponse answer l).2 := by
  rcases yes : answer.accepted with _ | _
  · exact active.of_keeps (keepsSend_declined l yes)
  unfold recordSendResponse
  rw [if_pos yes]
  split
  · exact active
  rename_i sender sending
  rw [if_pos yes]
  simp only [accepted]
  split
  · exact ⟨active.config, by rintro other ⟨⟩, by simp⟩
  refine ⟨active.config, ?_, fun _ => active.open_ (by rw [sending]; rfl)⟩
  rintro other ⟨⟩
  exact active.laid sender sending

theorem step (call : SendCall ρ) : Active payload config (call.run l).2 := by
  cases call with
  | poll =>
    rw [run_poll]
    exact active.pollWithLimiter Unlimited.mk
  | pollWithLimiter limiter => exact active.pollWithLimiter limiter
  | response answer => exact active.response answer
  | timeout => exact active.of_keeps (keepsSend_timeout l)
  | cancel => exact active.of_keeps (keepsSend_cancel l)

theorem run (calls : List (SendCall ρ)) : Active payload config (sendRun l calls).2 := by
  induction calls generalizing l with
  | nil => exact active
  | cons call calls ih => exact ih (active.step call)

end
end Active

theorem active_beginSend {snapshot : RaftSnapshot} {term leaderId : Nat} {l begun : SnapshotLifecycle}
    (began : SnapshotLifecycle.beginSend snapshot term leaderId l = (.ok (), begun)) :
    Active snapshot.payload l.config begun := by
  unfold SnapshotLifecycle.beginSend at began
  split at began
  · cases began
  split at began
  · cases began
  rename_i chunks cut
  cases began
  refine ⟨rfl, ?_, fun _ => rfl⟩
  rintro sender ⟨⟩
  exact laid_checkpoint cut

/-! ## Polls reach the end -/

section Progress
open SnapshotLifecycle
variable (config : SnapshotLifecycleConfig)

theorem reserve_unlimited (bytes : Nat) (limiter : Unlimited) :
    RateLimiter.reserveLimitedBytes bytes limiter = (⟨true, bytes⟩, limiter) :=
  rfl

theorem send_unlimited (poll : Polling Unlimited) (chunk : SnapshotChunk) (limiter : Unlimited) :
    poll.send chunk chunk.data.length limiter = poll.sendWhole chunk chunk.data.length limiter :=
  if_neg (lt_irrefl _)

theorem run_unlimited_mono (room : Nat) (poll : Polling Unlimited) :
    (Polling.run config room poll).sender.chunks = poll.sender.chunks ∧
      poll.sender.nextChunk ≤ (Polling.run config room poll).sender.nextChunk := by
  induction room generalizing poll with
  | zero => exact ⟨rfl, le_refl _⟩
  | succ room ih =>
    unfold Polling.run
    split
    · exact ⟨rfl, le_refl _⟩
    rename_i chunk next
    split
    · exact ⟨rfl, le_refl _⟩
    · obtain ⟨same, later⟩ := ih (poll.sendWhole chunk chunk.data.length poll.limiter)
      simpa [reserve_unlimited, send_unlimited] using ⟨same, (Nat.le_succ _).trans later⟩

theorem closed_sender {ρ : Type} (poll : Polling ρ) : poll.closed.sender = poll.sender := by
  unfold Polling.closed
  split <;> rfl

theorem run_unlimited_lt (room : Nat) (poll : Polling Unlimited) (fresh : poll.requests = [])
    (inside : poll.sender.nextChunk < poll.sender.chunks.length) :
    poll.sender.nextChunk < (Polling.run config (room + 1) poll).sender.nextChunk := by
  have later := (run_unlimited_mono config room
    (poll.sendWhole poll.sender.chunks[poll.sender.nextChunk]
      poll.sender.chunks[poll.sender.nextChunk].data.length poll.limiter)).2
  unfold Polling.run
  rw [getElem?_eq_getElem inside]
  simp only [fresh, ne_eq, not_true_eq_false, false_and, if_false, reserve_unlimited, Bool.not_true,
    Bool.false_eq_true, send_unlimited]
  exact later

theorem finished_of_polls (ρ : Type) [RateLimiter ρ] {config : SnapshotLifecycleConfig}
    (positive : 0 < config.maxChunksPerTick) :
    ∀ (count : Nat) {l : SnapshotLifecycle} {sender : SnapshotSendState}, l.config = config →
      l.sender = some sender → sender.chunks.length - sender.nextChunk ≤ count →
      (sendRun l (List.replicate count (.poll : SendCall ρ))).2.Finished := by
  intro count
  induction count with
  | zero =>
    intro l sender _ sending enough
    exact .inr ⟨sender, sending, by omega⟩
  | succ count ih =>
    intro l sender same sending enough
    rw [replicate_succ]
    simp only [sendRun, run_poll, poll_of_sender sending]
    obtain ⟨room, positive⟩ := Nat.exists_eq_add_of_lt positive
    refine ih same rfl ?_
    rw [closed_sender, (run_unlimited_mono _ _ _).1]
    have later := (run_unlimited_mono l.config l.config.maxChunksPerTick
      ⟨sender, l.status, Unlimited.mk, [], 0⟩).2
    by_cases inside : sender.nextChunk < sender.chunks.length
    · have more := run_unlimited_lt l.config room
        ⟨sender, l.status, Unlimited.mk, [], 0⟩ rfl inside
      grind
    · grind

end Progress

/-! ## Where a rewound send goes on -/

/-- The send goes on at `offset`: the next request begins there, and once every chunk has gone
out without another rewind, the requests carry the payload from there to its end. -/
def Resumes (ρ : Type) [RateLimiter ρ] (payload : Payload) (offset : Nat) (l : SnapshotLifecycle) :
    Prop :=
  (∀ calls : List (SendCall ρ), (∀ call ∈ calls, call.rewinds = false) →
    (∀ request ∈ (sendRun l calls).1.head?, request.chunk.offset = offset) ∧
    ((sendRun l calls).2.Finished → sentBytes (sendRun l calls).1 = payload.drop offset)) ∧
  ∃ count, (sendRun l (List.replicate count (.poll : SendCall ρ))).2.Finished

theorem resumes_iff_chained (ρ : Type) [RateLimiter ρ] {payload : Payload} {offset start : Nat}
    {l : SnapshotLifecycle} {sender : SnapshotSendState} (sending : l.sender = some sender)
    (open_ : l.status.completed = false) (positive : 0 < l.config.maxChunksPerTick)
    (laid : Laid payload start sender.left) (within : offset ≤ payload.length) :
    Resumes ρ payload offset l ↔ Chained payload.length offset sender.left := by
  have since := Since.refl sending open_
  have reaches := finished_of_polls ρ positive _ rfl sending (le_refl _)
  constructor
  · rintro ⟨resumes, -⟩
    have forward : ∀ call ∈ List.replicate (sender.chunks.length - sender.nextChunk)
        (.poll : SendCall ρ), call.rewinds = false := by
      intro call member
      rw [eq_of_mem_replicate member]
      rfl
    obtain ⟨first, all⟩ := resumes _ forward
    have run := since.run forward
    rw [nil_append] at run
    obtain ⟨bytes, nonempty⟩ := run.finished reaches
    have whole : sender.leftBytes = payload.drop offset := bytes ▸ all reaches
    have size : sender.leftBytes.length = payload.length - offset := by rw [whole, length_drop]
    rcases rest : sender.left with _ | ⟨chunk, rest'⟩
    · rw [SnapshotSendState.leftBytes, rest, flatMap_nil, length_nil] at size
      show offset = payload.length
      omega
    · -- the first request is for the first chunk left, so that chunk begins at the offset
      obtain ⟨request, requests, sent⟩ := exists_cons_of_ne_nil (nonempty (by rw [rest]; simp))
      obtain ⟨last, emits, -⟩ := run
      obtain ⟨chunk', here, same⟩ := emits.first request (by rw [sent]; rfl)
      rw [rest] at here laid
      cases here
      have begins : chunk.offset = offset := same.symm.trans (first request (by rw [sent]; rfl))
      refine Laid.chained_of_length ⟨le_of_eq begins.symm, laid.2⟩ ?_
      rw [← size, SnapshotSendState.leftBytes, rest]
  · intro chained
    refine ⟨fun calls forward => ?_, _, reaches⟩
    have run := since.run forward
    rw [nil_append] at run
    refine ⟨fun request member => ?_, fun finished => ?_⟩
    · obtain ⟨last, emits, -⟩ := run
      obtain ⟨chunk, here, same⟩ := emits.first request member
      rcases rest : sender.left with _ | ⟨chunk', rest'⟩
      · grind
      rw [rest] at here chained
      cases here
      exact same.trans chained.1
    · rw [(run.finished finished).1]
      exact laid.bytes_of_chained chained

theorem left_rewound (nextOffset : Nat) : (sender.rewound nextOffset).left
      = sender.chunks.dropWhile fun chunk => chunk.offset < nextOffset := by
  grind [dropWhile_eq_drop_findIdx_not, SnapshotSendState.left, SnapshotSendState.rewound]

open SnapshotLifecycle

/-- **A rewound send resumes where it is asked to exactly when nothing was cut there.**  The requests
carry the payload from the offset the answer names to its end iff the stored chunks from there on
begin there and follow one another. -/
theorem rewind_resumes_iff (ρ : Type) [RateLimiter ρ] (l begun : SnapshotLifecycle)
    (valid : l.config.validate = .ok ()) (snapshot : RaftSnapshot) (term leaderId : Nat)
    (began : beginSend snapshot term leaderId l = (.ok (), begun))
    (calls : List (SendCall ρ)) (sender : SnapshotSendState)
    (sending : (sendRun begun calls).2.sender = some sender) (answer : InstallSnapshotResponse)
    (declined : answer.accepted = false)
    (budget : answer.throttled = true ∨ sender.retryCount + 1 ≤ l.config.maxRetryAttempts)
    (within : answer.nextOffset ≤ snapshot.payload.length) :
    Resumes ρ snapshot.payload answer.nextOffset
        (recordSendResponse answer (sendRun begun calls).2).2 ↔
      Chained snapshot.payload.length answer.nextOffset
        (sender.chunks.dropWhile fun chunk => chunk.offset < answer.nextOffset) := by
  have active := (active_beginSend began).run calls
  have positive : 0 < l.config.maxChunksPerTick := by
    unfold SnapshotLifecycleConfig.validate at valid
    repeat' split at valid
    all_goals first | omega | cases valid
  obtain ⟨retryCount, after, open_, config⟩ : ∃ retryCount,
      (recordSendResponse answer (sendRun begun calls).2).2.sender
        = some (SnapshotSendState.rewound { sender with retryCount := retryCount }
            answer.nextOffset) ∧
      (recordSendResponse answer (sendRun begun calls).2).2.status.completed
        = false ∧
      (recordSendResponse answer (sendRun begun calls).2).2.config = l.config := by
    have open_ := active.open_ (by rw [sending]; rfl)
    have config := active.config
    simp only [recordSendResponse, sending, declined, Bool.false_eq_true, if_false]
    by_cases throttled : answer.throttled = true
    · rw [if_pos throttled]
      exact ⟨sender.retryCount, rfl, open_, config⟩
    have enough : ¬ sender.retryCount + 1 > (sendRun begun calls).2.config.maxRetryAttempts := by
      rw [config]
      have := budget.resolve_left throttled
      omega
    rw [if_neg throttled, rejected]
    simp only [if_neg enough]
    exact ⟨sender.retryCount + 1, rfl, open_, config⟩
  obtain ⟨start, laid⟩ := (active.laid sender sending).drop
    (sender.chunks.findIdx fun chunk => chunk.offset ≥ answer.nextOffset)
  rw [resumes_iff_chained ρ after open_ (config ▸ positive) laid within, left_rewound]

def idleLifecycle (chunkSize : Nat) : SnapshotLifecycle :=
  ⟨⟨chunkSize, 16, 1024, 3⟩, none, none, .fresh, false⟩

def smallSnapshot : RaftSnapshot := ⟨7, ⟨"s", ⟨3, 9⟩, [1, 2], [], 0⟩, [1, 2, 3, 4]⟩

def throttledAt (offset : Nat) : InstallSnapshotResponse :=
  (SnapshotDownloader.declined offset .downloadQuotaExhausted true).response

/-- Chunks that went out whole are sent again from the offset asked for. -/
theorem rewind_resumes_iff_whole : Resumes ByteQuotaLimiter smallSnapshot.payload 2
      (recordSendResponse (throttledAt 2) (sendRun (beginSend smallSnapshot 3 1 (idleLifecycle 2)).2
          [(.poll : SendCall ByteQuotaLimiter)]).2).2 :=
  (rewind_resumes_iff ByteQuotaLimiter (idleLifecycle 2) _ rfl smallSnapshot 3 1 rfl [.poll] _ rfl
    (throttledAt 2) rfl (.inl rfl) (by decide)).mpr (by decide +kernel)

/-- A limiter grants two of four bytes; asked for the chunk again, the next request begins at byte
two. -/
theorem cut_chunk_not_resent :
    let polled := sendRun (beginSend smallSnapshot 3 1 (idleLifecycle 4)).2
      [(.pollWithLimiter ⟨16, 2⟩ : SendCall ByteQuotaLimiter)]
    sentBytes polled.1 = [1, 2] ∧
      ¬ Resumes ByteQuotaLimiter smallSnapshot.payload 0
        (recordSendResponse (throttledAt 0) polled.2).2 := by
  refine ⟨by decide +kernel, fun resumes => ?_⟩
  have first := (resumes.1 [.poll] (by simp [SendCall.rewinds])).1
  exact absurd (first _ rfl) (by decide +kernel)

end MatrixRaft
