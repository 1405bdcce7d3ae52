/-
# MailBox — mail that waits beside a sleeping fetcher

Every send of `mailbox.rs` wakes one fetcher, whatever it carries, and a fetcher takes as much as
its limit allows.  A call holds the lock from start to end, except where it sleeps.
-/
import MatrixRaft.Theory.Attempt
import MatrixRaft.Types

namespace MatrixRaft
open Theory List

inductive MailPriority where
  | urgent | normal | slowly
  deriving DecidableEq

structure MailBoxFetchPolicy where
  limit : Nat
  includeUntil : MailPriority

/-- A mailbox and the threads that fetch from it without a time limit. -/
structure MailBox (Mail : Type) where
  highWatermark : Nat
  channels : MailPriority → List Mail
  parked : List MailBoxFetchPolicy
  /-- Woken, and not back in the mailbox yet. -/
  woken : List MailBoxFetchPolicy

/-- A send names the sleeper that `notify_one` picks, if there is one. -/
inductive MailAction (Mail : Type) where
  | trySend (priority : MailPriority) (mail : Mail) (wakes : Nat)
  | trySendMany (priority : MailPriority) (mails : List Mail) (wakes : Nat)
  | send (priority : MailPriority) (mail : Mail) (wakes : Nat)
  | waitAndSend (priority : MailPriority) (mail : Mail) (wakes : Nat)
  | fetch (policy : MailBoxFetchPolicy)
  | resume (position : Nat)
  /-- A sleeper wakes up by itself. -/
  | stir (position : Nat)

namespace MailBox
variable {Mail : Type}

def new (highWatermark : Nat) : MailBox Mail :=
  ⟨max highWatermark 1, fun _ => [], [], []⟩

def queued (s : MailBox Mail) : Nat :=
  (s.channels .urgent).length + (s.channels .normal).length + (s.channels .slowly).length

def hasNewMail (s : MailBox Mail) : Bool := s.queued != 0

def wake (s : MailBox Mail) (position : Nat) : MailBox Mail :=
  match s.parked[position]? with
  | none => s
  | some policy =>
    { s with parked := s.parked.eraseIdx position, woken := s.woken ++ [policy] }

def notifyOne (s : MailBox Mail) (wakes : Nat) : MailBox Mail := s.wake (wakes % s.parked.length)

def push (s : MailBox Mail) (priority : MailPriority) (mails : List Mail) : MailBox Mail :=
  { s with channels := Function.update s.channels priority (s.channels priority ++ mails) }

def trySendMany (s : MailBox Mail) (priority : MailPriority) (mails : List Mail) (wakes : Nat) :
    MailBox Mail :=
  if s.highWatermark < satAdd (s.channels priority).length mails.length then s
  else (s.push priority mails).notifyOne wakes

def trySend (s : MailBox Mail) (priority : MailPriority) (mail : Mail) (wakes : Nat) : MailBox Mail :=
  if s.highWatermark ≤ (s.channels priority).length then s
  else (s.push priority [mail]).notifyOne wakes

/-- What a lane gives up; the lanes from `includeUntil` on share the limit. -/
def takes (s : MailBox Mail) (policy : MailBoxFetchPolicy) : MailPriority → Nat
  | .urgent =>
    if policy.includeUntil = .urgent then min (s.channels .urgent).length policy.limit
    else (s.channels .urgent).length
  | .normal =>
    if policy.includeUntil = .urgent then
      min (s.channels .normal).length (policy.limit - (s.channels .urgent).length)
    else if policy.includeUntil = .normal then min (s.channels .normal).length policy.limit
    else (s.channels .normal).length
  | .slowly =>
    let before :=
      if policy.includeUntil = .urgent then
        (s.channels .urgent).length + (s.channels .normal).length
      else if policy.includeUntil = .normal then (s.channels .normal).length
      else 0
    min (s.channels .slowly).length (policy.limit - before)

/-- What a fetcher does once it holds the lock. -/
def fetch (s : MailBox Mail) (policy : MailBoxFetchPolicy) : MailBox Mail :=
  if s.hasNewMail then
    { s with channels := fun priority => (s.channels priority).drop (s.takes policy priority) }
  else { s with parked := s.parked ++ [policy] }

def step (s : MailBox Mail) : MailAction Mail → MailBox Mail
  | .trySend priority mail wakes => s.trySend priority mail wakes
  | .trySendMany priority mails wakes => s.trySendMany priority mails wakes
  | .send priority mail wakes => (s.push priority [mail]).notifyOne wakes
  | .waitAndSend priority mail wakes =>
    if s.highWatermark ≤ (s.channels priority).length then s
    else (s.push priority [mail]).notifyOne wakes
  | .fetch policy => s.fetch policy
  | .resume position =>
    match s.woken[position]? with
    | none => s
    | some policy => { s with woken := s.woken.eraseIdx position }.fetch policy
  | .stir position => s.wake position

/-- Whoever fetches takes something, and a batch of several mails finds one sleeper at most. -/
def Fair (s : MailBox Mail) : MailAction Mail → Prop
  | .fetch policy => 0 < policy.limit
  | .trySendMany _ mails _ => mails.length ≤ 1 ∨ s.parked.length ≤ 1
  | _ => True

def Takers (s : MailBox Mail) : Prop := ∀ policy ∈ s.parked ++ s.woken, 0 < policy.limit

/-- While somebody sleeps, no more mail waits than fetchers are on their way. -/
structure Served (s : MailBox Mail) : Prop where
  onTheWay : s.parked = [] ∨ s.queued ≤ s.woken.length
  takers : s.Takers

variable {s : MailBox Mail}

theorem queued_push (s : MailBox Mail) (priority : MailPriority) (mails : List Mail) :
    (s.push priority mails).queued = s.queued + mails.length := by
  cases priority <;> simp [push, queued] <;> omega

theorem Takers.wake (takers : s.Takers) (position : Nat) : (s.wake position).Takers := by
  unfold MailBox.wake
  split
  · exact takers
  · rename_i policy found
    intro other held
    simp only [mem_append, mem_singleton] at held
    rcases held with rest | old | rfl
    · exact takers other (mem_append_left _ (mem_of_mem_eraseIdx rest))
    · exact takers other (mem_append_right _ old)
    · exact takers other (mem_append_left _ (mem_of_getElem? found))

theorem Served.wake (served : s.Served) (position : Nat) : (s.wake position).Served := by
  refine ⟨?_, served.takers.wake position⟩
  unfold MailBox.wake
  split
  · exact served.onTheWay
  · rename_i found
    have some := ne_nil_of_mem (mem_of_getElem? found)
    exact .inr ((served.onTheWay.resolve_left some).trans (by simp))

/-- The one who is woken makes up for one mail; if nobody sleeps on, for any number. -/
theorem Served.push (served : s.Served) (priority : MailPriority) (mails : List Mail) (wakes : Nat)
    (few : mails.length ≤ 1 ∨ s.parked.length ≤ 1) :
    ((s.push priority mails).notifyOne wakes).Served := by
  rcases Nat.eq_zero_or_pos s.parked.length with none | some
  · have nobody : s.parked = [] := length_eq_zero_iff.mp none
    have pushed : (s.push priority mails).Served := ⟨.inl nobody, served.takers⟩
    exact pushed.wake _
  have waiting : s.queued ≤ s.woken.length :=
    served.onTheWay.resolve_left (length_pos_iff.mp some)
  have count := queued_push s priority mails
  have within := Nat.mod_lt wakes some
  have takers : (s.push priority mails).Takers := served.takers
  refine ⟨?_, takers.wake _⟩
  simp only [notifyOne, MailBox.wake, MailBox.push] at count ⊢
  rw [getElem?_eq_getElem within]
  rcases few with one | last
  · exact .inr (by simp only [queued, length_append, length_singleton] at *; omega)
  · exact .inl (length_eq_zero_iff.mp (by rw [length_eraseIdx]; grind))

theorem Served.fetch {policy : MailBoxFetchPolicy}
    (served : s.parked = [] ∨ s.queued ≤ s.woken.length + 1) (takers : s.Takers)
    (taker : 0 < policy.limit) : (s.fetch policy).Served := by
  unfold MailBox.fetch
  split
  · rename_i mail
    refine ⟨served.imp_right fun few => ?_, takers⟩
    simp only [hasNewMail, queued, takes, length_drop, bne_iff_ne] at *
    cases policy.includeUntil <;> simp <;> omega
  · rename_i nothing
    refine ⟨.inr ?_, fun other held => ?_⟩
    · simp only [hasNewMail, queued, bne_iff_ne, not_not] at *
      omega
    · have := takers other
      grind

theorem Served.step (served : s.Served) (action : MailAction Mail) (fair : s.Fair action) :
    (s.step action).Served := by
  cases action with
  | trySend priority mail wakes =>
    dsimp only [MailBox.step, trySend]
    split
    · exact served
    · exact served.push priority [mail] wakes (.inl le_rfl)
  | trySendMany priority mails wakes =>
    dsimp only [MailBox.step, trySendMany]
    split
    · exact served
    · exact served.push priority mails wakes fair
  | send priority mail wakes => exact served.push priority [mail] wakes (.inl le_rfl)
  | waitAndSend priority mail wakes =>
    dsimp only [MailBox.step]
    split
    · exact served
    · exact served.push priority [mail] wakes (.inl le_rfl)
  | fetch => exact .fetch (served.onTheWay.imp_right Nat.le_succ_of_le) served.takers fair
  | resume position =>
    dsimp only [MailBox.step]
    split
    · exact served
    · rename_i policy found
      have member := mem_of_getElem? found
      refine .fetch (served.onTheWay.imp_right fun few => ?_) (fun other held => ?_)
        (served.takers policy (mem_append_right _ member))
      · have some := (List.getElem?_eq_some_iff.mp found).1
        simp only [queued, length_eraseIdx, some, if_true] at *
        omega
      · rcases mem_append.mp held with sleeps | rest
        · exact served.takers other (mem_append_left _ sleeps)
        · exact served.takers other (mem_append_right _ (mem_of_mem_eraseIdx rest))
  | stir position => exact served.wake position

/-- **Nobody sleeps beside mail.** If fetchers take something and batches find one sleeper at most,
there is no state with mail, a sleeper and nobody on the way. -/
theorem no_sleeper_beside_mail (highWatermark : Nat) (actions : List (MailAction Mail))
    (fair : Along step Fair (new highWatermark) actions) :
    ∀ s, s = actions.foldl step (new highWatermark) →
      ¬(0 < s.queued ∧ s.parked ≠ [] ∧ s.woken = []) := by
  rintro s rfl ⟨mail, sleeper, nobody⟩
  have begun : (new highWatermark : MailBox Mail).Served := ⟨.inl rfl, nofun⟩
  have served := fair.invariant (fun s action (served : Served s) => served.step action) begun
  have few := served.onTheWay.resolve_left sleeper
  rw [nobody] at few
  exact absurd mail (not_lt.mpr few)

theorem no_sleeper_beside_one :
    let s : MailBox Nat := [.fetch ⟨1, .urgent⟩, .fetch ⟨1, .urgent⟩, .send .normal 7 0].foldl step (new 9)
    s.queued = 1 ∧ ¬(0 < s.queued ∧ s.parked ≠ [] ∧ s.woken = []) :=
  ⟨rfl, no_sleeper_beside_mail 9 _ (by exact ⟨Nat.one_pos, Nat.one_pos, trivial, trivial⟩) _ rfl⟩

/-- Two fetchers of one mail each sleep, a batch of two wakes one of them. -/
theorem sleeper_beside_second_mail :
    ∃ s : MailBox Nat, s = [.fetch ⟨1, .urgent⟩, .fetch ⟨1, .urgent⟩, .trySendMany .normal [7, 8] 0,
        .resume 0].foldl step (new 9) ∧ s.queued = 1 ∧ s.parked.length = 1 ∧ s.woken = [] :=
  ⟨_, rfl, rfl, rfl, rfl⟩

end MailBox
end MatrixRaft
