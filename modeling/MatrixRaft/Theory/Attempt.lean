/-
# Theory.Attempt — fallible operations that keep what they already did

An operation on a mutable state that may stop with an error leaves every change
made before the error in place.  `Attempt σ ε α` is that shape, and this module is
its proof rules.  `Checks` reads `Except` programs, which have no state, as what they established;
`Along` is for runs of steps that do not fail.
-/
import Mathlib.Tactic

namespace Theory

/-- An operation on a state `σ` that returns `α` or fails with `ε`. -/
abbrev Attempt (σ ε α : Type) := ExceptT ε (StateM σ) α

namespace Attempt
variable {σ ε α β : Type} (m : Attempt σ ε α)

/-- Run `m` and hand its outcome back as a value, so that a failure does not spread. -/
def settle : Attempt σ ε (Except ε α) := fun s => (.ok (m s).1, (m s).2)

/-- Change the state by a function that cannot fail. -/
def update (f : σ → σ) : Attempt σ ε Unit := fun s => (.ok (), f s)

/-- Run `body` on each element in order, stopping at the first failure. -/
def forEach (body : α → Attempt σ ε Unit) : List α → Attempt σ ε Unit
  | [] => pure ()
  | x :: xs => body x >>= fun _ => forEach body xs

/-! ## One run -/

@[simp] theorem pure_apply (a : α) (s : σ) : (pure a : Attempt σ ε α) s = (.ok a, s) := rfl

@[simp] theorem throw_apply (e : ε) (s : σ) : (throw e : Attempt σ ε α) s = (.error e, s) := rfl

@[simp] theorem settle_apply (s : σ) : settle m s = (.ok (m s).1, (m s).2) := rfl

@[simp] theorem update_apply (f : σ → σ) (s : σ) :
    (update f : Attempt σ ε Unit) s = (.ok (), f s) := rfl

theorem bind_apply (f : α → Attempt σ ε β) (s : σ) :
    (m >>= f) s = match m s with | (.ok a, s') => f a s' | (.error e, s') => (.error e, s') := by
  simp only [ExceptT.bind, ExceptT.mk, bind, StateT.bind, ExceptT.bindCont]
  rcases m s with ⟨outcome, s'⟩
  cases outcome <;> rfl

section
variable {m : Attempt σ ε α} {f : α → Attempt σ ε β} {s s' : σ}

theorem bind_ok {a : α} (ran : m s = (.ok a, s')) : (m >>= f) s = f a s' := by
  rw [bind_apply, ran]

theorem bind_error {e : ε} (failed : m s = (.error e, s')) : (m >>= f) s = (.error e, s') := by
  rw [bind_apply, failed]

end

theorem bind_congr_at {m m' : Attempt σ ε α} {f g : α → Attempt σ ε β} {s : σ} (first : m s = m' s)
    (rest : ∀ a s', m s = (.ok a, s') → f a s' = g a s') : (m >>= f) s = (m' >>= g) s := by
  grind [bind_apply]

theorem bind_pure_state (f : α → β) (s : σ) : ((m >>= fun a => pure (f a)) s).2 = (m s).2 := by
  rw [bind_apply]
  rcases m s with ⟨outcome | outcome, s'⟩ <;> rfl

variable {m : Attempt σ ε α}

theorem bind_pure_eq_ok {f : α → β} {s s' : σ} {b : β}
    (ran : (m >>= fun a => pure (f a)) s = (.ok b, s')) : ∃ a, m s = (.ok a, s') ∧ f a = b := by
  rw [bind_apply] at ran
  rcases first : m s with ⟨_ | a, reached⟩ <;> rw [first] at ran <;> cases ran
  exact ⟨a, rfl, rfl⟩

/-! ## Loops -/

section Loops
variable {body other : α → Attempt σ ε Unit}

theorem bind_pure_unit (m : Attempt σ ε Unit) (s : σ) : (m >>= fun _ => pure ()) s = m s := by simp

theorem forEach_singleton (x : α) (s : σ) : forEach body [x] s = body x s :=
  bind_pure_unit (body x) s

theorem forEach_append (xs ys : List α) :
    forEach body (xs ++ ys) = (forEach body xs >>= fun _ => forEach body ys) := by
  induction xs with
  | nil => rw [List.nil_append, forEach, pure_bind]
  | cons x xs ih => rw [List.cons_append, forEach, forEach, bind_assoc, ih]

theorem forEach_map {β : Type} (f : β → α) (xs : List β) :
    forEach body (xs.map f) = forEach (fun x => body (f x)) xs := by
  induction xs with
  | nil => rfl
  | cons x xs ih => rw [List.map_cons, forEach, forEach, ih]

theorem forEach_congr {I : σ → Prop} {xs : List α}
    (agree : ∀ x ∈ xs, ∀ s, I s → body x s = other x s)
    (keeps : ∀ x ∈ xs, ∀ s, I s → I (body x s).2) {s : σ} (holds : I s) :
    forEach body xs s = forEach other xs s := by
  induction xs generalizing s with
  | nil => rfl
  | cons x xs ih =>
    have first := agree x (by simp) s holds
    simp only [forEach, bind_apply, ← first]
    grind

end Loops

/-! ## The two judgements -/

def Moves (R : σ → σ → Prop) (m : Attempt σ ε α) : Prop := ∀ s, R s (m s).2

def Keeps (I : σ → Prop) (m : Attempt σ ε α) : Prop := ∀ s, I s → I (m s).2

theorem reached_bind {P : σ → Prop} {f : α → Attempt σ ε β} {s : σ}
    (first : P (m s).2) (rest : ∀ a s', P s' → P (f a s').2) : P ((m >>= f) s).2 := by
  rw [bind_apply]
  rcases ran : m s with ⟨outcome, s'⟩
  rw [ran] at first
  cases outcome with
  | error => exact first
  | ok a => exact rest a s' first

/-! ## Rules for `Moves` -/

section Moves
variable {R : σ → σ → Prop}

theorem Moves.pure [Std.Refl R] (a : α) : Moves R (pure a : Attempt σ ε α) :=
  fun s => Std.Refl.refl s

theorem Moves.update {f : σ → σ} (step : ∀ s, R s (f s)) :
    Moves R (update f : Attempt σ ε Unit) := step

theorem Moves.settle (moves : Moves R m) : Moves R (settle m) := moves

section
variable [IsTrans σ R] {m : Attempt σ ε α} {f : α → Attempt σ ε β}

theorem moved_bind {s : σ}
    (first : R s (m s).2) (rest : ∀ a, Moves R (f a)) : R s ((m >>= f) s).2 :=
  reached_bind first fun a s' moved => IsTrans.trans _ _ _ moved (rest a s')

theorem Moves.bind (first : Moves R m) (rest : ∀ a, Moves R (f a)) : Moves R (m >>= f) :=
  fun s => moved_bind (first s) rest

end

theorem Moves.forEach [Std.Refl R] [IsTrans σ R] {body : α → Attempt σ ε Unit} :
    ∀ xs : List α, (∀ x ∈ xs, Moves R (body x)) → Moves R (forEach body xs)
  | [], _ => Moves.pure _
  | x :: xs, each =>
    (each x (by simp)).bind fun _ => Moves.forEach xs fun y member => each y (by simp [member])

theorem Moves.mono {R' : σ → σ → Prop} (weaker : ∀ s s', R s s' → R' s s')
    (moves : Moves R m) : Moves R' m := fun s => weaker _ _ (moves s)

end Moves

/-! ## Rules for `Keeps` -/

section Keeps
variable {I : σ → Prop}

theorem Keeps.pure (a : α) : Keeps I (pure a : Attempt σ ε α) := fun _ holds => holds

theorem Keeps.bind {f : α → Attempt σ ε β}
    (first : Keeps I m) (rest : ∀ a, Keeps I (f a)) : Keeps I (m >>= f) :=
  fun s holds => reached_bind (first s holds) rest

theorem Keeps.forEach {body : α → Attempt σ ε Unit} :
    ∀ xs : List α, (∀ x ∈ xs, Keeps I (body x)) → Keeps I (forEach body xs)
  | [], _ => Keeps.pure _
  | x :: xs, each =>
    (each x (by simp)).bind fun _ => Keeps.forEach xs fun y member => each y (by simp [member])

end Keeps
end Attempt

/-! ## Checks -/

namespace Checks
variable {ε α β : Type} {result : β}

theorem bind_eq_ok {first : Except ε α} {rest : α → Except ε β} :
    first >>= rest = .ok result ↔ ∃ value, first = .ok value ∧ rest value = .ok result := by
  cases first with
  | error | ok => simp [bind, Except.bind]

theorem bind_unit {first : Except ε Unit} {rest : Unit → Except ε β} :
    first >>= rest = .ok result ↔ first = .ok () ∧ rest () = .ok result := by
  rw [bind_eq_ok]
  grind

theorem forM_eq_ok {check : α → Except ε Unit} {values : List α} :
    values.forM check = .ok () ↔ ∀ value ∈ values, check value = .ok () := by
  induction values with
  | nil => simp [List.forM, pure, Except.pure]
  | cons value values ih =>
    show (check value >>= fun _ => values.forM check) = .ok () ↔ _
    rw [bind_unit, ih]
    simp

section
variable {read : α → Except ε β} {values : List α} {results : List β}

theorem mapM_eq_ok :
    values.mapM read = .ok results ↔ List.Forall₂ (fun value result => read value = .ok result)
      values results := by
  induction values generalizing results with
  | nil => simp [pure, Except.pure]
  | cons value values ih =>
    simp only [List.mapM_cons, bind_eq_ok, List.forall₂_cons_left_iff, ih]
    simp only [pure, Except.pure, Except.ok.injEq]
    grind

theorem read_of_mapM (ran : values.mapM read = .ok results) {value : α} (member : value ∈ values) :
    ∃ result, read value = .ok result := by
  rw [mapM_eq_ok] at ran
  induction ran with
  | nil => cases member
  | cons first _ ih => grind

end

theorem map_eq_ok {f : α → β} {first : Except ε α}
    (ran : first.map f = .ok result) : ∃ value, first = .ok value ∧ f value = result := by
  cases first with
  | error => cases ran
  | ok value => exact ⟨value, rfl, Except.ok.inj ran⟩

/-- A check that refuses on a condition passes exactly when the condition fails. -/
theorem ite_eq_ok {refused : Prop} [Decidable refused] {error : ε} {rest : Except ε β} :
    (if refused then .error error else rest) = .ok result ↔ ¬ refused ∧ rest = .ok result := by
  split <;> simp_all

end Checks

/-! ## Runs -/

variable {σ α : Type} {step : σ → α → σ} {allowed : σ → α → Prop} {P : σ → Prop}

def Along (step : σ → α → σ) (allowed : σ → α → Prop) : σ → List α → Prop
  | _, [] => True
  | s, action :: rest => allowed s action ∧ Along step allowed (step s action) rest

theorem Along.invariant (keeps : ∀ s action, P s → allowed s action → P (step s action)) {s : σ}
    {actions : List α} (holds : P s) (along : Along step allowed s actions) :
    P (actions.foldl step s) := by
  induction actions generalizing s with
  | nil => exact holds
  | cons action rest ih => exact ih (keeps s action holds along.1) along.2

theorem run_invariant (keeps : ∀ s action, P s → P (step s action)) {s : σ} (holds : P s)
    (actions : List α) : P (actions.foldl step s) := by
  induction actions generalizing s with
  | nil => exact holds
  | cons action rest ih => exact ih (keeps s action holds)

end Theory
