/-
# FsmAdapter — entries on their way into a state machine

`FsmAdapter` of `fsm.rs` remembers which indexes it has applied and what the state machine
answered.  Single entries and replays go through `apply_entry`, whatever they are; a batch hands
over commands only and books the other entries itself.
-/
import MatrixRaft.Theory.Attempt
import MatrixRaft.Types

namespace MatrixRaft
open Theory Attempt List

/-- A host's state machine; an answer carries the index it says is applied. -/
structure RaftStateMachine (σ ρ κ : Type) where
  apply : LogEntry → σ → Except String (Nat × ρ) × σ
  snapshot : σ → Except String κ
  installSnapshot : κ → σ → Except String Unit × σ

/-- `calls` is what the state machine has been called with. -/
structure FsmAdapter (σ ρ : Type) where
  stateMachine : σ
  applied : Nat → Option Nat
  responses : Nat → Option (Nat × ρ)
  lastApplied : Nat
  calls : List LogEntry

structure FsmCheckpoint (κ : Type) where
  lastApplied : Nat
  appliedLogIds : Nat → Option Nat
  snapshot : κ

structure FsmApplyOutcome (ρ : Type) where
  response : Nat × ρ
  (applied replayed : Bool)
  reason : String

/-- The part of the report that says where to go on. -/
structure FsmBatchApplyReport where
  nextIndex : Nat
  hitBatchLimit : Bool

namespace FsmAdapter
variable {σ ρ κ : Type}

abbrev FsmM (σ ρ α : Type) := Attempt (FsmAdapter σ ρ) String α

def new (stateMachine : σ) : FsmAdapter σ ρ := ⟨stateMachine, fun _ => none, fun _ => none, 0, []⟩

def replayConflict (entry : LogEntry) (term : Nat) : String :=
  s!"FSM replay conflict at index {entry.index}: existing term {term}, replay term {entry.term}"

def record (a : FsmAdapter σ ρ) (entry : LogEntry) (response : Nat × ρ) : FsmAdapter σ ρ :=
  { a with
    applied := Function.update a.applied entry.index (some entry.term)
    responses := Function.update a.responses entry.index (some response)
    lastApplied := max a.lastApplied response.1 }

variable (machine : RaftStateMachine σ ρ κ)

def applyEntry (entry : LogEntry) : FsmM σ ρ (FsmApplyOutcome ρ) := fun a =>
  match a.applied entry.index with
  | some term =>
    if term ≠ entry.term then (.error (replayConflict entry term), a)
    else
      match a.responses entry.index with
      | none => (.error s!"FSM replay response missing for applied index {entry.index}", a)
      | some response =>
        (.ok ⟨response, false, true, "duplicate_log_id_replayed_idempotently"⟩, a)
  | none =>
    let called := { a with
      stateMachine := (machine.apply entry a.stateMachine).2
      calls := a.calls ++ [entry] }
    match (machine.apply entry a.stateMachine).1 with
    | .error error => (.error error, called)
    | .ok response => (.ok ⟨response, true, false, "applied_new_log_id"⟩, called.record entry response)

def replayOne (entry : LogEntry) : FsmM σ ρ Unit := applyEntry machine entry >>= fun _ => pure ()

def replayEntries : List LogEntry → FsmM σ ρ Unit := forEach (replayOne machine)

/-- One turn of the loop of `apply_batch`. -/
def applyOne [Inhabited ρ] (entry : LogEntry) : FsmM σ ρ Unit := fun a =>
  if entry.isCommand then replayOne machine entry a
  else
    match a.applied entry.index with
    | some term =>
      if term ≠ entry.term then (.error (replayConflict entry term), a)
      else (.ok (), { a with lastApplied := max a.lastApplied entry.index })
    | none => (.ok (), a.record entry (entry.index, default))

def applyBatch [Inhabited ρ] (entries : List LogEntry) (maxEntries : Nat) :
    FsmM σ ρ FsmBatchApplyReport := fun a =>
  let applyCount := min entries.length (max maxEntries 1)
  let nextIndex := match entries[applyCount]? with
    | some entry => entry.index
    | none => (entries.getLast?.map (satAdd ·.index 1)).getD a.lastApplied
  (forEach (applyOne machine) (entries.take applyCount) >>= fun _ =>
    pure ⟨nextIndex, applyCount < entries.length⟩) a

def checkpoint (a : FsmAdapter σ ρ) : Except String (FsmCheckpoint κ) :=
  (machine.snapshot a.stateMachine).map fun snapshot => ⟨a.lastApplied, a.applied, snapshot⟩

def installCheckpoint (checkpoint : FsmCheckpoint κ) : FsmM σ ρ Unit := fun a =>
  let installed := { a with
    stateMachine := (machine.installSnapshot checkpoint.snapshot a.stateMachine).2 }
  match (machine.installSnapshot checkpoint.snapshot a.stateMachine).1 with
  | .error error => (.error error, installed)
  | .ok () =>
    (.ok (), { installed with
      lastApplied := checkpoint.lastApplied
      applied := checkpoint.appliedLogIds
      responses := fun _ => none })

/-! ## Batches and replay -/

/-- The log in batches, each one resumed where the last one said. -/
def feed [Inhabited ρ] : List Nat → List LogEntry → FsmM σ ρ Unit
  | [], _ => pure ()
  | limit :: limits, entries => applyBatch machine entries limit >>= fun report =>
    if report.hitBatchLimit then
      feed limits (entries.dropWhile (·.index < report.nextIndex))
    else pure ()

section Batches
variable {machine} {log : List LogEntry}

theorem dropWhile_index (ordered : log.Pairwise (·.index < ·.index)) {count : Nat} {entry : LogEntry}
    (next : log[count]? = some entry) : log.dropWhile (·.index < entry.index) = log.drop count := by
  induction log generalizing count with
  | nil => simp at next
  | cons first rest ih =>
    obtain ⟨before, later⟩ := pairwise_cons.mp ordered
    cases count with
    | zero =>
      obtain rfl : first = entry := by simpa using next
      simp
    | succ =>
      rw [getElem?_cons_succ] at next
      rw [dropWhile_cons_of_pos (by simpa using before entry (mem_of_getElem? next))]
      exact ih later next

theorem feed_eq [Inhabited ρ] {limits : List Nat} (enough : log.length ≤ limits.length)
    (ordered : log.Pairwise (·.index < ·.index)) :
    feed machine limits log = forEach (applyOne machine) log := by
  induction limits generalizing log with
  | nil =>
    rw [length_eq_zero_iff.mp (Nat.le_zero.mp enough)]
    rfl
  | cons limit limits ih =>
    funext a
    generalize counted : min log.length (max limit 1) = count
    have ran : feed machine (limit :: limits) log a = (forEach (applyOne machine)
        (log.take count) >>= fun _ => forEach (applyOne machine) (log.drop count)) a := by
      simp only [feed, applyBatch, counted, bind_apply]
      rcases forEach (applyOne machine) (log.take count) a with ⟨_ | _, reached⟩
      · rfl
      rcases next : log[count]? with _ | entry
      · have all := getElem?_eq_none_iff.mp next
        simp [not_lt.mpr all, drop_eq_nil_of_le all, forEach]
      · have more := (List.getElem?_eq_some_iff.mp next).1
        have fits : (log.drop count).length ≤ limits.length := by
          rw [length_drop]
          rw [length_cons] at enough
          omega
        simp [more, dropWhile_index ordered next, ih fits ordered.drop]
    rw [ran, ← forEach_append, take_append_drop]

theorem applyOne_command [Inhabited ρ] {entry : LogEntry} (command : entry.isCommand = true) :
    applyOne machine entry = replayOne machine entry := by
  funext a
  simp [applyOne, command]

theorem forEach_applyOne [Inhabited ρ] (commands : ∀ entry ∈ log, entry.isCommand = true) :
    forEach (applyOne machine) log = replayEntries machine log := by
  induction log with
  | nil => rfl
  | cons entry rest ih =>
    rw [forEach, applyOne_command (commands entry (by simp)),
      ih fun other member => commands other (by simp [member])]
    rfl

end Batches

/-- A state machine that takes whatever comes. -/
def taking : RaftStateMachine Unit Unit Unit :=
  ⟨fun entry _ => (.ok (entry.index, ()), ()), fun _ => .ok (), fun _ _ => (.ok (), ())⟩

section
variable {entry : LogEntry} {a : FsmAdapter Unit Unit} (new : a.applied entry.index = none)
include new

theorem replayOne_taking : replayOne taking entry a =
      (.ok (), { a with calls := a.calls ++ [entry] }.record entry (entry.index, ())) := by
  simp [replayOne, applyEntry, new, taking, bind_apply]

theorem applyOne_taking : ∃ a', applyOne taking entry a = (.ok (), a') ∧
      a'.applied = Function.update a.applied entry.index (some entry.term) ∧
      a'.calls = a.calls ++ [entry].filter LogEntry.isCommand := by
  by_cases command : entry.isCommand = true
  · rw [applyOne_command command]
    exact ⟨_, replayOne_taking new, rfl, by simp [command, record]⟩
  · refine ⟨a.record entry (entry.index, ()), ?_, rfl, ?_⟩
    · simp [applyOne, command, new]
    · simp [command, record]

end

/-- A loop whose turns hand over the entries of one kind hands over the log's entries of it. -/
theorem forEach_calls {body : LogEntry → FsmM Unit Unit Unit} {kind : LogEntry → Bool}
    (turn : ∀ entry a, a.applied entry.index = none → ∃ a', body entry a = (.ok (), a') ∧
      a'.applied = Function.update a.applied entry.index (some entry.term) ∧
      a'.calls = a.calls ++ [entry].filter kind)
    {log : List LogEntry} (ordered : log.Pairwise (·.index < ·.index)) {a : FsmAdapter Unit Unit}
    (new : ∀ entry ∈ log, a.applied entry.index = none) :
    (forEach body log a).2.calls = a.calls ++ log.filter kind := by
  induction log generalizing a with
  | nil => simp [forEach]
  | cons entry rest ih =>
    obtain ⟨before, later⟩ := pairwise_cons.mp ordered
    obtain ⟨a', ran, applied, calls⟩ := turn entry a (new entry (by simp))
    rw [forEach, bind_ok ran, ih later, calls, append_assoc,
      ← filter_append, singleton_append]
    intro other member
    rw [applied, Function.update_of_ne (before other member).ne']
    exact new other (by simp [member])

/-- **Batches and replay.** Feeding a log in batches does what replaying it does, for every state
machine, adapter and sequence of limits, if and only if the log holds commands only. -/
theorem batches_replay_iff (log : List LogEntry) (ordered : log.Pairwise (·.index < ·.index)) :
    (∀ (σ ρ κ : Type) (_ : Inhabited ρ) (machine : RaftStateMachine σ ρ κ) (limits : List Nat)
      (a : FsmAdapter σ ρ), log.length ≤ limits.length →
      feed machine limits log a = replayEntries machine log a) ↔
      ∀ entry ∈ log, entry.isCommand = true := by
  refine ⟨fun same => ?_, fun commands σ ρ κ _ machine limits a enough => ?_⟩
  · have fed := same Unit Unit Unit inferInstance taking (log.map LogEntry.index) (.new ()) (by simp)
    rw [feed_eq (by simp) ordered] at fed
    have batched := forEach_calls (fun _ _ => applyOne_taking) ordered (a := .new ()) fun _ _ => rfl
    have replayed := @forEach_calls (replayOne taking) (fun _ => true)
      (fun entry a new => ⟨_, replayOne_taking new, rfl, rfl⟩) log ordered (.new ()) fun _ _ => rfl
    rw [fed] at batched
    have equal : log = log.filter LogEntry.isCommand := by
      simpa [FsmAdapter.new] using replayed.symm.trans batched
    exact filter_eq_self.mp equal.symm
  · rw [feed_eq enough ordered, forEach_applyOne commands]

theorem batches_replay_commands : feed taking [1, 2]
    [⟨⟨1, 1⟩, [7], true⟩, ⟨⟨1, 2⟩, [8], true⟩] (.new ()) =
      replayEntries taking [⟨⟨1, 1⟩, [7], true⟩, ⟨⟨1, 2⟩, [8], true⟩] (.new ()) :=
  (batches_replay_iff [⟨⟨1, 1⟩, [7], true⟩, ⟨⟨1, 2⟩, [8], true⟩] (by decide)).mpr (by decide)
    Unit Unit Unit inferInstance taking [1, 2] (.new ()) le_rfl

/-- Replay hands a no-op entry to the state machine, a batch does not. -/
theorem noop_replayed_not_batched : (feed taking [1] [⟨⟨1, 1⟩, [], false⟩] (.new ())).2.calls = [] ∧
      (replayEntries taking [⟨⟨1, 1⟩, [], false⟩] (.new ())).2.calls = [⟨⟨1, 1⟩, [], false⟩] :=
  ⟨rfl, rfl⟩

/-! ## Deliveries of one log -/

/-- `covered` are the indexes of the checkpoints that were installed. -/
structure Delivered (σ ρ : Type) where
  adapter : FsmAdapter σ ρ
  covered : Nat → Bool

/-- Entries go by their index; a single entry is a replay of one. -/
inductive Delivery (κ : Type) where
  | replay (indexes : List Nat)
  | batch (indexes : List Nat) (maxEntries : Nat)
  | install (checkpoint : FsmCheckpoint κ)

variable [Inhabited ρ] (log : Nat → LogEntry)

def step (s : Delivered σ ρ) : Delivery κ → Delivered σ ρ
  | .replay indexes => { s with adapter := (replayEntries machine (indexes.map log) s.adapter).2 }
  | .batch indexes maxEntries =>
    { s with adapter := (applyBatch machine (indexes.map log) maxEntries s.adapter).2 }
  | .install checkpoint =>
    let installed := installCheckpoint machine checkpoint s.adapter
    ⟨installed.2, fun i => s.covered i || (installed.1.isOk && (checkpoint.appliedLogIds i).isSome)⟩

def turn (batched : Bool) (entry : LogEntry) : FsmM σ ρ Unit :=
  if batched then applyOne machine entry else replayOne machine entry

/-- A new entry comes after all others.  Unless it is a no-op in a batch, an applied entry still
has its answer, and the state machine takes a new one. -/
def Ready (batched : Bool) (a : FsmAdapter σ ρ) (i : Nat) : Prop :=
  (a.applied i = none → ∀ j, (a.applied j).isSome → j < i) ∧
    ((batched = true ∧ (log i).isCommand = false) ∨ if (a.applied i).isSome then
      (a.responses i).isSome else (machine.apply (log i) a.stateMachine).1.isOk)

/-- A checkpoint is one of the same log that covers what is applied here. -/
def Allowed (s : Delivered σ ρ) : Delivery κ → Prop
  | .replay indexes => Along (fun a i => (turn machine false (log i) a).2)
      (Ready machine log false) s.adapter indexes
  | .batch indexes maxEntries => Along (fun a i => (turn machine true (log i) a).2)
      (Ready machine log true) s.adapter (indexes.take (max maxEntries 1))
  | .install checkpoint =>
    (∀ i term, checkpoint.appliedLogIds i = some term → term = (log i).term) ∧
      ∀ i, (s.adapter.applied i).isSome → (checkpoint.appliedLogIds i).isSome

structure Once (covered : Nat → Bool) (a : FsmAdapter σ ρ) : Prop where
  terms : ∀ i term, a.applied i = some term → term = (log i).term
  booked : ∀ entry ∈ a.calls, (a.applied entry.index).isSome
  ascending : a.calls.Pairwise (·.index < ·.index)
  seen : ∀ i, (a.applied i).isSome → covered i = false → (log i).isCommand = true → log i ∈ a.calls

section Turns
variable {machine} {log} {a : FsmAdapter σ ρ} {i : Nat} {batched : Bool} {covered : Nat → Bool}

theorem turn_applied (indexed : (log i).index = i) (applied : a.applied i = some (log i).term)
    (kept : (batched = true ∧ (log i).isCommand = false) ∨ (a.responses i).isSome) :
    ∃ last, turn machine batched (log i) a = (.ok (), { a with lastApplied := last }) := by
  have replayed : (a.responses i).isSome → replayOne machine (log i) a = (.ok (), a) := by
    intro held
    obtain ⟨response, held⟩ := Option.isSome_iff_exists.mp held
    simp [replayOne, applyEntry, indexed, applied, held, bind_apply]
  cases batched with
  | false => exact ⟨a.lastApplied, replayed (by simpa using kept)⟩
  | true =>
    by_cases command : (log i).isCommand = true
    · exact ⟨a.lastApplied, by simpa [turn, applyOne, command] using replayed (by simpa [command] using kept)⟩
    · exact ⟨max a.lastApplied i, by simp [turn, applyOne, command, indexed, applied]⟩

theorem turn_new (indexed : (log i).index = i) (new : a.applied i = none)
    (taken : (batched = true ∧ (log i).isCommand = false) ∨
      (machine.apply (log i) a.stateMachine).1.isOk) :
    ∃ stateMachine handed response, turn machine batched (log i) a = (.ok (),
        { a with stateMachine := stateMachine, calls := a.calls ++ handed }.record (log i) response) ∧
      (handed = [log i] ∨ (handed = [] ∧ (log i).isCommand = false)) := by
  have replayed : (machine.apply (log i) a.stateMachine).1.isOk → ∃ response,
      replayOne machine (log i) a = (.ok (), { a with
        stateMachine := (machine.apply (log i) a.stateMachine).2
        calls := a.calls ++ [log i] }.record (log i) response) := by
    intro ok
    cases answered : (machine.apply (log i) a.stateMachine).1 with
    | error => simp [answered, Except.isOk, Except.toBool] at ok
    | ok response => exact ⟨response, by simp [replayOne, applyEntry, indexed, new, answered, bind_apply]⟩
  cases batched with
  | false =>
    obtain ⟨response, ran⟩ := replayed (by simpa using taken)
    exact ⟨_, _, _, ran, .inl rfl⟩
  | true =>
    by_cases command : (log i).isCommand = true
    · obtain ⟨response, ran⟩ := replayed (by simpa [command] using taken)
      exact ⟨_, _, _, (by simpa [turn, applyOne, command] using ran), .inl rfl⟩
    · refine ⟨a.stateMachine, [], (i, default), ?_, .inr ⟨rfl, by simpa using command⟩⟩
      simp [turn, applyOne, command, indexed, new]

omit [Inhabited ρ] in
theorem Once.record (indexed : (log i).index = i) (once : Once log covered a)
    (after : ∀ j, (a.applied j).isSome → j < i) {stateMachine : σ} {handed : List LogEntry}
    (which : handed = [log i] ∨ (handed = [] ∧ (log i).isCommand = false)) (response : Nat × ρ) :
    Once log covered ({ a with
      stateMachine := stateMachine, calls := a.calls ++ handed }.record (log i) response) := by
  obtain ⟨terms, booked, ascending, seen⟩ := once
  have apart : ∀ entry ∈ a.calls, ∀ other ∈ handed, entry.index < other.index := by
    intro entry member other handedOver
    have before := after _ (booked entry member)
    grind
  refine ⟨?_, ?_, pairwise_append.mpr ⟨ascending, by grind, apart⟩, ?_⟩ <;>
    simp only [FsmAdapter.record, indexed, Function.update_apply, mem_append] <;> grind

section
variable (indexed : ∀ i, (log i).index = i)
include indexed

theorem Once.turn (once : Once log covered a)
    (ready : Ready machine log batched a i) : (turn machine batched (log i) a).1 = .ok () ∧
      Once log covered (turn machine batched (log i) a).2 := by
  obtain ⟨after, kept⟩ := ready
  cases applied : a.applied i with
  | some term =>
    obtain rfl := once.terms i term applied
    obtain ⟨last, ran⟩ := @turn_applied _ _ _ machine _ _ _ _ _ (indexed i) applied
      (by simpa [applied] using kept)
    rw [ran]
    exact ⟨rfl, once.terms, once.booked, once.ascending, once.seen⟩
  | none =>
    obtain ⟨_, handed, response, ran, which⟩ := @turn_new _ _ _ machine _ _ _ _ batched (indexed i)
      applied (by simpa [applied] using kept)
    rw [ran]
    exact ⟨rfl, once.record (indexed i) (after applied) which response⟩

theorem Once.turns {indexes : List Nat} (once : Once log covered a)
    (ready : Along (fun a i => (FsmAdapter.turn machine batched (log i) a).2)
      (Ready machine log batched) a indexes) :
    Once log covered (forEach (FsmAdapter.turn machine batched) (indexes.map log) a).2 := by
  induction indexes generalizing a with
  | nil => exact once
  | cons i rest ih =>
    obtain ⟨ok, kept⟩ := once.turn indexed ready.1
    rw [map_cons, forEach, bind_ok (Prod.ext ok rfl)]
    exact ih kept ready.2

theorem Once.step (s : Delivered σ ρ) (delivery : Delivery κ)
    (once : Once log s.covered s.adapter) (allowed : Allowed machine log s delivery) :
    Once log (step machine log s delivery).covered (step machine log s delivery).adapter := by
  cases delivery with
  | replay => exact once.turns indexed allowed
  | batch =>
    have taken := once.turns indexed allowed
    simp only [FsmAdapter.step, applyBatch, bind_pure_state]
    rwa [map_take, take_eq_take_min, min_comm] at taken
  | install checkpoint =>
    obtain ⟨ofLog, covers⟩ := allowed
    simp only [FsmAdapter.step, installCheckpoint]
    rcases (machine.installSnapshot checkpoint.snapshot s.adapter.stateMachine).1 with error | installed
    · exact ⟨once.terms, once.booked, once.ascending, fun i held uncovered =>
        once.seen i held (Bool.or_eq_false_iff.mp uncovered).1⟩
    · refine ⟨ofLog, fun entry member => covers _ (once.booked entry member), once.ascending,
        fun i held uncovered => ?_⟩
      simp_all [Except.isOk, Except.toBool]

end

end Turns

end FsmAdapter
end MatrixRaft
