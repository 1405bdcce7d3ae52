/-
# Ticker — ticks of a group that is being cancelled

The ticker of `driver.rs` gathers the receivers that are due under its lock and calls them
with the lock dropped.  A cancellation takes the registration out and waits for a pass under
way to end, unless a receiver makes it on the ticker's own thread.
-/
import Mathlib.Data.List.Sort
import MatrixRaft.GroupTables
import MatrixRaft.Types

namespace MatrixRaft
open Theory List

structure Registration where
  (receiver intervalMs : Nat)

structure Slot where
  registration : Option Registration
  generation : Nat

/-- What a bucket holds, with the bucket's deadline. -/
structure Scheduled where
  (atMs slot generation : Nat)

structure TickState where
  clockMs : Nat
  buckets : List Scheduled
  groups : DriverGroupKey → Option Nat
  slots : List Slot
  free : List Nat

variable (tickIntervalMs : Nat)

namespace TickState
variable (state : TickState)

def registerGroupEvery (state : TickState) (tickIntervalMs : Nat) (key : DriverGroupKey)
    (receiver intervalMs : Nat) : TickState :=
  if (state.groups key).isSome then state
  else
    let registration : Registration :=
      ⟨receiver, max (if intervalMs = 0 then tickIntervalMs else intervalMs) 1⟩
    let slot := state.free.head?.getD state.slots.length
    let generation := (state.slots[slot]?.map Slot.generation).getD 0
    { state with
      buckets := state.buckets ++ [⟨satAdd state.clockMs registration.intervalMs, slot, generation⟩]
      groups := Function.update state.groups key (some slot)
      slots :=
        if state.free.isEmpty then state.slots ++ [⟨some registration, 0⟩]
        else state.slots.set slot ⟨some registration, generation⟩
      free := state.free.tail }

def lookUp (entry : Scheduled) : Option Registration :=
  state.slots[entry.slot]?.bind fun slot =>
    slot.registration.filter fun _ => slot.generation == entry.generation

def dueEntries : List Scheduled :=
  (state.buckets.filter (·.atMs ≤ state.clockMs)).insertionSort (·.atMs ≤ ·.atMs)

def reschedule (entry : Scheduled) : Option Scheduled :=
  (state.lookUp entry).map fun registration =>
    { entry with
      atMs := max (satAdd entry.atMs (max registration.intervalMs 1)) (state.clockMs + 1) }

/-- The part of `advance_to` under the lock, with the receivers it takes along. -/
def gather (nowMs : Nat) : List Nat × TickState :=
  let state := { state with clockMs := max state.clockMs nowMs }
  ((state.dueEntries.filterMap state.lookUp).map Registration.receiver, { state with
      buckets := state.buckets.filter (state.clockMs < ·.atMs) ++
        state.dueEntries.filterMap state.reschedule })

def holder (slot : Nat) : Option Nat :=
  (state.slots[slot]?.bind Slot.registration).map Registration.receiver

def vacate (key : DriverGroupKey) : TickState :=
  match state.groups key with
  | none => state
  | some slot =>
    { state with
      groups := Function.update state.groups key none
      slots := state.slots.modify slot fun slot => ⟨none, (slot.generation + 1) % 2 ^ 32⟩
      free := slot :: state.free }

variable (state : TickState)

theorem holder_register (key : DriverGroupKey) (receiver intervalMs : Nat) : ∃ at', ∀ slot held,
    (state.registerGroupEvery tickIntervalMs key receiver intervalMs).holder slot = some held →
    state.holder slot = some held ∨ slot = at' ∧ held = receiver := by
  refine ⟨state.free.head?.getD state.slots.length, fun slot held holds => ?_⟩
  simp only [registerGroupEvery, holder] at holds ⊢
  split_ifs at holds
  · exact .inl holds
  all_goals grind

theorem holder_vacate (key : DriverGroupKey) (slot held : Nat)
    (holds : (state.vacate key).holder slot = some held) : state.holder slot = some held ∧
    state.groups key ≠ some slot := by
  unfold vacate at holds
  split at holds <;> simp only [holder] at holds ⊢ <;> grind

theorem holder_gather (nowMs slot : Nat) : (state.gather nowMs).2.holder slot =
    state.holder slot := rfl

theorem gather_live (nowMs receiver : Nat) (member : receiver ∈ (state.gather nowMs).1) : ∃ slot,
    state.holder slot = some receiver := by
  simp only [gather, mem_map, mem_filterMap] at member
  obtain ⟨registration, ⟨entry, -, found⟩, rfl⟩ := member
  refine ⟨entry.slot, ?_⟩
  simp only [lookUp, holder] at found ⊢
  grind

end TickState

/-! ## The ticker at work -/

structure Ticking where
  state : TickState
  tickIntervalMs : Nat
  ticksEnabled : Bool
  /-- Odd while gathered receivers are being called. -/
  firePass : Nat
  due : List Nat
  running : Option Nat
  registrations : Nat
  /-- Cancellations that wait, with the pass they wait for. -/
  waiting : List (Nat × Nat)
  /-- Registrations whose cancellation has returned, and whether their own tick made it. -/
  cancelled : List (Nat × Bool)

inductive TickAction where
  | registerGroupEvery (key : DriverGroupKey) (intervalMs : Nat)
  | cancelGroup (onTheTicker : Bool) (key : DriverGroupKey)
  | wakeUp (position : Nat)
  | setTicksEnabled (enabled : Bool)
  | advanceTo (nowMs : Nat)
  | beginTick | endTick | endPass

namespace Ticking

def start : Ticking :=
  ⟨⟨0, [], fun _ => none, [], []⟩, tickIntervalMs, true, 0, [], none, 0, [], []⟩

/-- An action that its thread cannot take now changes nothing. -/
def step (s : Ticking) : TickAction → Ticking
  | .registerGroupEvery key intervalMs =>
    { s with
      state := s.state.registerGroupEvery s.tickIntervalMs key s.registrations intervalMs
      registrations := s.registrations + 1 }
  | .cancelGroup onTheTicker key =>
    if onTheTicker && s.running.isNone then s
    else
      match (s.state.groups key).bind s.state.holder with
      | none => { s with state := s.state.vacate key }
      | some receiver =>
        if s.firePass % 2 = 1 ∧ onTheTicker = false then
          { s with
            state := s.state.vacate key
            waiting := s.waiting ++ [(receiver, s.firePass)] }
        else
          { s with
            state := s.state.vacate key
            cancelled := s.cancelled ++ [(receiver, s.running == some receiver)] }
  | .wakeUp position =>
    match s.waiting[position]? with
    | none => s
    | some (receiver, pass) =>
      if s.firePass = pass then s
      else
        { s with
          waiting := s.waiting.eraseIdx position
          cancelled := s.cancelled ++ [(receiver, false)] }
  | .setTicksEnabled enabled => { s with ticksEnabled := enabled }
  | .advanceTo nowMs =>
    if s.firePass % 2 = 1 then s
    else
      let due := if s.ticksEnabled then (s.state.gather nowMs).1 else []
      { s with
        state := (s.state.gather nowMs).2
        due := due
        firePass := if due.isEmpty then s.firePass else s.firePass + 1 }
  | .beginTick =>
    if s.running.isSome then s else { s with running := s.due.head?, due := s.due.tail }
  | .endTick => { s with running := none }
  | .endPass =>
    if s.firePass % 2 = 1 ∧ s.due = [] ∧ s.running = none then { s with firePass := s.firePass + 1 }
    else s

def Spares (s : Ticking) : TickAction → Prop
  | .cancelGroup true key => ∀ receiver ∈ (s.state.groups key).bind s.state.holder, receiver ∉ s.due
  | _ => True

/-- A registration that was taken out stands in no slot, nor does a later one have its number. -/
def Gone (s : Ticking) (receiver : Nat) : Prop :=
  receiver < s.registrations ∧ ∀ slot, s.state.holder slot ≠ some receiver

structure Quiet (s : Ticking) : Prop where
  below : ∀ slot receiver, s.state.holder slot = some receiver → receiver < s.registrations
  once : ∀ i j receiver, s.state.holder i = some receiver → s.state.holder j = some receiver → i = j
  idle : s.firePass % 2 = 0 → s.due = [] ∧ s.running = none
  waits : ∀ wait ∈ s.waiting, s.Gone wait.1 ∧
    (s.firePass = wait.2 ∨ wait.1 ∉ s.due ∧ s.running ≠ some wait.1)
  done : ∀ call ∈ s.cancelled, s.Gone call.1 ∧ call.1 ∉ s.due ∧
    (s.running = some call.1 → call.2 = true)

variable {s : Ticking}

/-- A cancellation that returns at once meets no gathered tick of its group. -/
theorem Quiet.cancelGroup (quiet : s.Quiet) (onTheTicker : Bool) (key : DriverGroupKey)
    (spares : s.Spares (.cancelGroup onTheTicker key)) :
    (s.step (.cancelGroup onTheTicker key)).Quiet := by
  obtain ⟨below, once, idle, waits, done⟩ := id quiet
  have holds := s.state.holder_vacate key
  have kept := fun slot receiver held => below slot receiver (holds slot receiver held).1
  have apart := fun i j receiver left right =>
    once i j receiver (holds i receiver left).1 (holds j receiver right).1
  dsimp only [Ticking.step]
  split
  · exact quiet
  · split
    · exact ⟨kept, apart, idle, by grind [Gone], by grind [Gone]⟩
    · rename_i receiver found
      obtain ⟨slot, listed, held⟩ := Option.bind_eq_some_iff.mp found
      have low := below slot receiver held
      have gone : ∀ other, (s.state.vacate key).holder other ≠ some receiver := by
        intro other still
        obtain ⟨before, elsewhere⟩ := holds other receiver still
        exact elsewhere (once other slot receiver before held ▸ listed)
      split
      · exact ⟨kept, apart, idle, by grind [Gone], by grind [Gone]⟩
      · have free : onTheTicker = true → receiver ∉ s.due := by
          rintro rfl
          exact spares receiver found
        exact ⟨kept, apart, idle, by grind [Gone], by grind [Gone]⟩

theorem Quiet.step (quiet : s.Quiet) (action : TickAction) (spares : s.Spares action) :
    (s.step action).Quiet := by
  obtain ⟨below, once, idle, waits, done⟩ := id quiet
  unfold Ticking.step
  cases action with
  | registerGroupEvery key intervalMs =>
    have holds := s.state.holder_register s.tickIntervalMs key s.registrations intervalMs
    obtain ⟨at', holds⟩ := holds
    dsimp only
    exact ⟨by grind [Gone], by grind [Gone], idle, by grind [Gone], by grind [Gone]⟩
  | cancelGroup onTheTicker key => exact quiet.cancelGroup onTheTicker key spares
  | wakeUp =>
    dsimp only
    split
    · exact quiet
    · rename_i receiver pass found
      have member := mem_of_getElem? found
      split
      · exact quiet
      · refine ⟨below, once, idle, fun wait kept => waits wait (mem_of_mem_eraseIdx kept), ?_⟩
        grind [Gone]
  | setTicksEnabled => exact ⟨below, once, idle, waits, done⟩
  | advanceTo nowMs =>
    have live := s.state.gather_live nowMs
    dsimp only
    split
    · exact quiet
    · have holds := s.state.holder_gather nowMs
      exact ⟨below, once, by grind, by grind [Gone], by grind [Gone]⟩
  | beginTick =>
    have rest : ∀ receiver ∈ s.due.tail, receiver ∈ s.due := fun _ => mem_of_mem_tail
    have first : ∀ receiver, s.due.head? = some receiver → receiver ∈ s.due :=
      fun _ => mem_of_head?
    dsimp only
    split
    · exact quiet
    · exact ⟨below, once, by grind [Gone], by grind [Gone], by grind [Gone]⟩
  | endTick => exact ⟨below, once, fun even => ⟨(idle even).1, rfl⟩, by grind [Ticking.step, Gone],
      by grind [Ticking.step, Gone]⟩
  | endPass =>
    dsimp only
    split
    · exact ⟨below, once, by grind [Gone], by grind [Gone], by grind [Gone]⟩
    · exact quiet

/-- **Ticks of a cancelled group.** If receivers spare what their own pass has still to call, then
of a registration whose cancellation has returned no tick begins, and one that runs is the one
that made it. -/
theorem cancelled_stays_quiet (tickIntervalMs : Nat) (actions : List TickAction)
    (careful : Along step Spares (start tickIntervalMs) actions) :
    ∀ s, s = actions.foldl step (start tickIntervalMs) → ∀ call ∈ s.cancelled,
      (s.running = some call.1 → call.2 = true) ∧
      (s.running = none → (s.step .beginTick).running ≠ some call.1) := by
  rintro s rfl call returned
  have begun : (start tickIntervalMs).Quiet :=
    ⟨nofun, nofun, fun _ => ⟨rfl, rfl⟩, nofun, nofun⟩
  have quiet := careful.invariant (fun s action (quiet : Quiet s) => quiet.step action) begun
  obtain ⟨-, away, own⟩ := quiet.done call returned
  refine ⟨own, fun none begins => away ?_⟩
  simp only [Ticking.step, none] at begins
  exact List.mem_of_head? begins

/-- A receiver cancels its own group. -/
theorem cancelled_stays_quiet_own :
    (([.registerGroupEvery group 1, .advanceTo 1, .beginTick, .cancelGroup true group,
      .endTick].foldl step (start 1)).step .beginTick).running ≠ some 0 :=
  (cancelled_stays_quiet 1 [.registerGroupEvery group 1, .advanceTo 1, .beginTick,
      .cancelGroup true group, .endTick]
    ⟨trivial, trivial, trivial, fun _ _ => List.not_mem_nil, trivial, trivial⟩ _ rfl (0, true)
    (List.mem_singleton_self _)).2 rfl

/-- Two groups are due in one pass, and the first one's receiver cancels the second. -/
theorem gathered_tick_begins :
    ∃ s, s = [.registerGroupEvery group 1, .registerGroupEvery ⟨2, 1⟩ 1, .advanceTo 1, .beginTick,
        .cancelGroup true ⟨2, 1⟩, .endTick].foldl step (start 1) ∧
      s.cancelled = [(1, false)] ∧ s.running = none ∧ (s.step .beginTick).running = some 1 :=
  ⟨_, rfl, rfl, rfl, rfl⟩

end Ticking
end MatrixRaft
