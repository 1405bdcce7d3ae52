/-
# Theory.Registry — a key in a table in front and in several behind it

A registration enters the front table and then each table behind it, a cancellation leaves
them in the same order.  Every visit of a table is atomic and a call is not: calls on a key
interleave between two visits.
-/
import MatrixRaft.Theory.Attempt

namespace Theory
open List

structure Listing (Table : Type) where
  front : Bool
  back : Table → Bool

inductive RowCall (Table : Type) where
  | registering (before : Listing Table) (done left : List Table)
  | undoing (before : Listing Table) (left : List Table)
  | cancelling (left : List Table)

structure Row (Table : Type) extends Listing Table where
  calls : List (RowCall Table)
  refused : List (Listing Table × Listing Table)

inductive RowAction where
  | register | cancel
  | advance (position : Nat)

namespace Row
variable {Table : Type} [DecidableEq Table]

def empty : Row Table := ⟨⟨false, fun _ => false⟩, [], []⟩

variable (row : Row Table)

def list (table : Table) (listed : Bool) : Row Table :=
  { row with back := Function.update row.back table listed }

def pursue (call : RowCall Table) : Row Table :=
  { row with calls := row.calls ++ [call] }

def refuse (before : Listing Table) : Row Table :=
  { row with refused := row.refused ++ [(before, row.toListing)] }

/-- A registration that finds its key listed takes itself out again if `undo` is set. -/
def visit (undo : Bool) (row : Row Table) : RowCall Table → Row Table
  | .registering _ _ [] => row
  | .registering before done (table :: left) =>
    if row.back table then
      if undo then row.pursue (.undoing before done) else row.refuse before
    else (row.list table true).pursue (.registering before (done ++ [table]) left)
  | .undoing before [] => refuse { row with front := false } before
  | .undoing before (table :: left) => (row.list table false).pursue (.undoing before left)
  | .cancelling [] => row
  | .cancelling (table :: left) => (row.list table false).pursue (.cancelling left)

def step (tables : List Table) (undo : Bool) (row : Row Table) : RowAction → Row Table
  | .register =>
    if row.front then row.refuse row.toListing
    else pursue { row with front := true } (.registering row.toListing [] tables)
  | .cancel => if row.front then pursue { row with front := false } (.cancelling tables) else row
  | .advance position =>
    match row.calls[position]? with
    | none => row
    | some call => visit undo { row with calls := row.calls.eraseIdx position } call

/-- No registration of the key overlaps a cancellation. -/
def Apart : RowAction → Prop
  | .register => ∀ left, .cancelling left ∉ row.calls
  | .cancel => ∀ call ∈ row.calls, ∃ left, call = .cancelling left
  | .advance _ => True

def Shows (tables : List Table) : RowCall Table → Prop
  | .registering _ done left => row.front = true ∧ done ++ left = tables ∧
      ∀ table ∈ tables, row.back table = decide (table ∈ done)
  | .undoing _ _ => False
  | .cancelling left => row.front = false ∧ (∃ gone, gone ++ left = tables) ∧
      ∀ table ∈ tables, row.back table = decide (table ∈ left)

structure Orderly (tables : List Table) (may : Listing Table → Prop) (row : Row Table) : Prop where
  shows : ∀ call, row.calls = [call] → row.Shows tables call
  agree : row.calls = [] → ∀ table ∈ tables, row.back table = row.front
  few : row.calls.length ≤ 1
  unchanged : ∀ refusal ∈ row.refused, refusal.1 = refusal.2 ∧ may refusal.2

variable {tables : List Table} {may : Listing Table → Prop} {row : Row Table} {undo : Bool}
  (orderly : row.Orderly tables may)
include orderly

theorem Orderly.begin {call : RowCall Table} {listed : Bool}
    (none : row.calls = []) (shows : Shows { row with front := listed } tables call) :
    Orderly tables may (pursue { row with front := listed } call) where
  shows := by
    rintro call' started
    simp only [pursue, none, nil_append, singleton_inj] at started
    exact started ▸ shows
  agree started := by simp [pursue] at started
  few := by simp [pursue, none]
  unchanged := orderly.unchanged

theorem Orderly.visit (distinct : tables.Nodup) {call : RowCall Table} (one : row.calls = [call]) :
    Orderly tables may (visit undo { row with calls := [] } call) := by
  have shows := orderly.shows call one
  have unchanged := orderly.unchanged
  cases call with
  | registering before done left =>
    obtain ⟨front, visits, back⟩ := shows
    cases left with
    | nil =>
      refine ⟨nofun, fun _ table member => ?_, by simp [Row.visit], unchanged⟩
      simp_all [Row.visit]
    | cons table =>
      -- the table is not among those visited, so the key is not listed there
      have new : table ∉ done := by subst visits; grind [nodup_append]
      have free : row.back table = false := by simp [back table (by simp [← visits]), new]
      simp only [Row.visit, free, Bool.false_eq_true, if_false]
      refine ⟨?_, nofun, by simp [pursue, list], unchanged⟩
      rintro _ ⟨⟩
      refine ⟨front, by simp [← visits], fun other member => ?_⟩
      by_cases is : other = table <;> simp [pursue, list, is, back other member]
  | undoing => exact shows.elim
  | cancelling left =>
    obtain ⟨front, ⟨gone, visits⟩, back⟩ := shows
    cases left with
    | nil =>
      refine ⟨nofun, fun _ table member => ?_, by simp [Row.visit], unchanged⟩
      simp_all [Row.visit]
    | cons table left =>
      have new : table ∉ left := by subst visits; grind [nodup_append]
      refine ⟨?_, nofun, by simp [Row.visit, pursue, list], unchanged⟩
      rintro _ ⟨⟩
      refine ⟨front, ⟨gone ++ [table], by simp [← visits]⟩, fun other member => ?_⟩
      by_cases is : other = table <;> simp [Row.visit, pursue, list, is, back other member, new]

theorem Orderly.refuse (fine : may row.toListing) :
    Orderly tables may (row.refuse row.toListing) := by
  refine ⟨orderly.shows, orderly.agree, orderly.few, fun refusal member => ?_⟩
  rcases mem_append.mp member with old | new
  · exact orderly.unchanged refusal old
  · rw [mem_singleton.mp new]
    exact ⟨rfl, fine⟩

/-- **One step** of calls that stay apart. -/
theorem Orderly.step (distinct : tables.Nodup) {action : RowAction}
    (apart : row.Apart action) (fine : action = .register → row.front = true → may row.toListing) :
    (row.step tables undo action).Orderly tables may := by
  obtain none | ⟨call, one⟩ : row.calls = [] ∨ ∃ call, row.calls = [call] := by
    have few := orderly.few
    rcases calls : row.calls with _ | ⟨call, _ | _⟩ <;> simp_all
  · cases action with
    | register =>
      simp only [Row.step]
      split_ifs with listed
      · exact orderly.refuse (fine rfl listed)
      · refine orderly.begin none ⟨rfl, rfl, fun table member => ?_⟩
        simpa [listed] using orderly.agree none table member
    | cancel =>
      simp only [Row.step]
      split_ifs with listed
      · refine orderly.begin none ⟨rfl, ⟨[], rfl⟩, fun table member => ?_⟩
        simpa [listed, member] using orderly.agree none table member
      · exact orderly
    | advance => simpa [Row.step, none] using orderly
  · have shows := orderly.shows call one
    cases action with
    | register =>
      -- whatever is under way is a registration, and has listed the key
      have listed : row.front = true := by
        cases call with
        | registering => exact shows.1
        | undoing => exact shows.elim
        | cancelling left => exact absurd (one ▸ mem_singleton_self _) (apart left)
      simp only [Row.step, listed, if_true]
      exact orderly.refuse (fine rfl listed)
    | cancel =>
      obtain ⟨left, rfl⟩ := apart call (one ▸ mem_singleton_self _)
      simpa [Row.step, shows.1] using orderly
    | advance position =>
      simp only [Row.step, one]
      cases position with
      | zero => exact orderly.visit distinct one
      | succ => simpa using orderly

end Row
end Theory
