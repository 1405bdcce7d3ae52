/-
# Theory.Cabinet — values under numbers, kept in the order of the numbers

A cabinet is an association list in ascending order of its keys.  Around an entry that
is there, `put`, `change` and `erase` act on that entry alone; a key above all others
goes to the end.
-/
import Mathlib.Tactic

namespace Theory
open List

/-- Values under numbers, in ascending order of the numbers. -/
abbrev Cabinet (β : Type) := List (Nat × β)

namespace Cabinet
variable {β : Type}

def get (key : Nat) (cabinet : Cabinet β) : Option β := cabinet.lookup key

def put (key : Nat) (value : β) : Cabinet β → Cabinet β
  | [] => [(key, value)]
  | entry :: rest =>
    if key < entry.1 then (key, value) :: entry :: rest
    else if key = entry.1 then (key, value) :: rest
    else entry :: put key value rest

def change (key : Nat) (f : β → β) (cabinet : Cabinet β) : Cabinet β :=
  cabinet.map fun entry => if entry.1 = key then (entry.1, f entry.2) else entry

def erase (key : Nat) (cabinet : Cabinet β) : Cabinet β := cabinet.filter fun entry => entry.1 ≠ key

/-- The keys ascend. -/
def Ascending (cabinet : Cabinet β) : Prop := cabinet.Pairwise fun a b => a.1 < b.1

variable {key : Nat} {value value' : β} {pre post : Cabinet β}

section
variable (ascending : Ascending (pre ++ (key, value) :: post))

include ascending

theorem Ascending.below : ∀ entry ∈ pre, entry.1 < key :=
  fun entry member => (pairwise_append.mp ascending).2.2 entry member _ mem_cons_self

theorem Ascending.above : ∀ entry ∈ post, key < entry.1 :=
  (pairwise_cons.mp (pairwise_append.mp ascending).2.1).1

theorem Ascending.replace : Ascending (pre ++ (key, value') :: post) := by
  have keys : ∀ cabinet : Cabinet β, Ascending cabinet ↔ (cabinet.map Prod.fst).Pairwise (· < ·) :=
    fun cabinet => pairwise_map.symm
  grind

omit ascending in
theorem Ascending.push {cabinet : Cabinet β} (ascending : Ascending cabinet)
    (top : ∀ entry ∈ cabinet, entry.1 < key) : Ascending (cabinet ++ [(key, value)]) := by
  refine pairwise_append.mpr ⟨ascending, pairwise_singleton _ _, ?_⟩
  grind

theorem get_append : get key (pre ++ (key, value) :: post) = some value := by
  unfold get
  induction pre with
  | nil => simp
  | cons entry pre ih =>
    have below : entry.1 < key := ascending.below entry mem_cons_self
    have differ : (key == entry.1) = false := by simpa using by omega
    have rest := ih (pairwise_cons.mp ascending).2
    rw [cons_append, lookup_cons, differ]
    exact rest

omit ascending in
theorem get_mem {cabinet : Cabinet β} (ascending : Ascending cabinet) (member : (key, value) ∈ cabinet) :
    get key cabinet = some value := by
  obtain ⟨pre, post, rfl⟩ := append_of_mem member
  exact get_append ascending

theorem put_append :
    put key value' (pre ++ (key, value) :: post) = pre ++ (key, value') :: post := by
  induction pre with
  | nil => simp [put]
  | cons entry pre ih =>
    have below : entry.1 < key := ascending.below entry mem_cons_self
    grind [put, ih (pairwise_cons.mp ascending).2]

omit ascending in
theorem put_top {cabinet : Cabinet β} (top : ∀ entry ∈ cabinet, entry.1 < key) :
    put key value cabinet = cabinet ++ [(key, value)] := by
  induction cabinet with
  | nil => rfl
  | cons entry cabinet ih =>
    grind [put]

omit ascending in
theorem change_absent {f : β → β} {cabinet : Cabinet β} (absent : ∀ entry ∈ cabinet, entry.1 ≠ key) :
    change key f cabinet = cabinet := by
  unfold change
  conv_rhs => rw [← map_id cabinet]
  grind [map_congr_left]

theorem change_append {f : β → β} :
    change key f (pre ++ (key, value) :: post) = pre ++ (key, f value) :: post := by
  have before : change key f pre = pre :=
    change_absent fun entry member => (ascending.below entry member).ne
  have after : change key f post = post :=
    change_absent fun entry member => (ascending.above entry member).ne'
  unfold change at before after ⊢
  simp [before, after]

end
end Cabinet
end Theory
