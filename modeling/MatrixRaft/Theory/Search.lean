/-
# Theory.Search — halving search in a list

The search of a slice's `binary_search_by` and `partition_point`: halve a window, keep the
half whose first element does not compare above, and decide at the one element left.  It
answers on any list; what the answer means is stated where the comparison never falls back.
-/
import Mathlib.Tactic

namespace Theory.Search
open List
variable {α : Type} (cmp : α → Ordering)

def Above (xs : List α) (i : Nat) : Prop := (xs[i]?).map cmp = some .gt

instance (xs : List α) (i : Nat) : Decidable (Above cmp xs i) :=
  inferInstanceAs (Decidable (_ = _))

def narrow (cmp : α → Ordering) (xs : List α) : Nat → Nat → Nat → Nat
  | 0, base, _ => base
  | rounds + 1, base, size =>
    if size ≤ 1 then base
    else
      narrow cmp xs rounds
        (if Above cmp xs (base + size / 2) then base else base + size / 2) (size - size / 2)

/-- `slice::binary_search_by`: the position that compares equal, or where one would go. -/
def binarySearchBy (cmp : α → Ordering) (xs : List α) : Except Nat Nat :=
  if xs.isEmpty then .error 0
  else
    let base := narrow cmp xs xs.length 0 xs.length
    match (xs[base]?).map cmp with
    | some .eq => .ok base
    | some .lt => .error (base + 1)
    | _ => .error base

def partitionPoint (pred : α → Bool) (xs : List α) : Nat :=
  match binarySearchBy (fun x => if pred x then .lt else .gt) xs with
  | .ok position => position
  | .error position => position

/-- Once an element compares above, every later one does. -/
def Rising (xs : List α) : Prop :=
  ∀ i j, i ≤ j → j < xs.length → Above cmp xs i → Above cmp xs j

variable {cmp : α → Ordering}

theorem narrow_spec {xs : List α} (rising : Rising cmp xs) :
    ∀ rounds base size, size ≤ rounds → 1 ≤ size → base + size ≤ xs.length →
      (base = 0 ∨ ¬ Above cmp xs base) → (∀ j, base + size ≤ j → j < xs.length → Above cmp xs j) →
      narrow cmp xs rounds base size < xs.length ∧
      (narrow cmp xs rounds base size = 0 ∨ ¬ Above cmp xs (narrow cmp xs rounds base size)) ∧
      ∀ j, narrow cmp xs rounds base size < j → j < xs.length → Above cmp xs j
  | 0, base, size, enough, nonempty, _, _, _ => by omega
  | rounds + 1, base, size, enough, nonempty, inside, start, beyond => by
    unfold narrow
    by_cases single : size ≤ 1
    · grind
    rw [if_neg single]
    by_cases above : Above cmp xs (base + size / 2)
    · rw [if_pos above]
      -- everything from the middle on is above, so the lower half keeps the answer
      refine narrow_spec rising rounds base _ (by omega) (by omega) (by omega) start ?_
      intro j from_ bound
      exact rising (base + size / 2) j (by omega) bound above
    · rw [if_neg above]
      exact narrow_spec rising rounds _ _ (by omega) (by omega) (by omega) (.inr above)
        fun j from_ bound => beyond j (by omega) bound

theorem narrow_whole {xs : List α} (rising : Rising cmp xs)
    (nonempty : xs ≠ []) : let base := narrow cmp xs xs.length 0 xs.length
    base < xs.length ∧ (base = 0 ∨ ¬ Above cmp xs base) ∧
      ∀ j, base < j → j < xs.length → Above cmp xs j := by
  have positive := length_pos_of_ne_nil nonempty
  exact narrow_spec rising _ _ _ le_rfl positive (by omega) (.inl rfl) (by omega)

theorem not_above_of_le {xs : List α} (rising : Rising cmp xs) {i j : Nat}
    (le : i ≤ j) (bound : j < xs.length) (below : ¬ Above cmp xs j) : ¬ Above cmp xs i :=
  fun above => below (rising i j le bound above)

/-! ## Partition points -/

section PartitionPoint
variable {pred : α → Bool} {xs : List α}

def Partitioned (pred : α → Bool) (xs : List α) : Prop :=
  xs.Pairwise fun a b => pred b = true → pred a = true

theorem above_iff {i : Nat} (bound : i < xs.length) :
    Above (fun x => if pred x then .lt else .gt) xs i ↔ pred xs[i] = false := by
  simp [Above, bound]

theorem Partitioned.rising (partitioned : Partitioned pred xs) :
    Rising (fun x => if pred x then .lt else .gt) xs := by
  intro i j le bound above
  rcases Nat.eq_or_lt_of_le le with rfl | lt
  · exact above
  rw [above_iff (by omega)] at above
  rw [above_iff bound]
  have ordered := pairwise_iff_getElem.mp partitioned i j (by omega) bound lt
  grind

theorem partitionPoint_of_narrow {base : Nat} (bound : base < xs.length)
    (ends : narrow (fun x => if pred x then Ordering.lt else .gt) xs xs.length 0 xs.length = base) :
    partitionPoint pred xs = if pred xs[base] then base + 1 else base := by
  unfold partitionPoint binarySearchBy
  grind

/-- **Partition point.** Everything before it satisfies the predicate, nothing from it
on does. -/
theorem partitionPoint_spec (partitioned : Partitioned pred xs) :
    partitionPoint pred xs ≤ xs.length ∧ (∀ x ∈ xs.take (partitionPoint pred xs), pred x = true) ∧
      ∀ x ∈ xs.drop (partitionPoint pred xs), pred x = false := by
  by_cases empty : xs = []
  · subst empty
    simp [partitionPoint, binarySearchBy]
  have rising := partitioned.rising
  obtain ⟨bound, start, beyond⟩ := narrow_whole rising empty
  set base := narrow (fun x => if pred x then Ordering.lt else .gt) xs xs.length 0 xs.length
    with base_eq
  have later : ∀ j, base < j → (inside : j < xs.length) → pred xs[j] = false :=
    fun j after inside => (above_iff inside).mp (beyond j after inside)
  have point := partitionPoint_of_narrow bound base_eq.symm
  have split : ∀ k, k ≤ xs.length → (∀ j, j < k → (inside : j < xs.length) → pred xs[j] = true) →
      (∀ j, k ≤ j → (inside : j < xs.length) → pred xs[j] = false) →
      k ≤ xs.length ∧ (∀ x ∈ xs.take k, pred x = true) ∧ ∀ x ∈ xs.drop k, pred x = false := by
    intro k le before after
    refine ⟨le, ?_, ?_⟩
    · grind [mem_take_iff_getElem]
    intro x member
    obtain ⟨j, lt, rfl⟩ := mem_drop_iff_getElem.mp member
    exact after _ (by omega) (by omega)
  rw [point]
  cases atBase : pred xs[base] with
  | true =>
    have notAbove : ¬ Above (fun x => if pred x then Ordering.lt else .gt) xs base := by
      rw [above_iff bound, atBase]; simp
    refine split (base + 1) (by omega) ?_ fun j after inside => later j (by omega) inside
    intro j lt inside
    have below := not_above_of_le rising (Nat.lt_succ_iff.mp lt) bound notAbove
    rw [above_iff inside] at below
    simpa using below
  | false =>
    have first : base = 0 := by
      rcases start with zero | below
      · exact zero
      · exact absurd ((above_iff bound).mpr atBase) below
    refine split base (by omega) (fun j lt _ => by omega) ?_
    grind

theorem narrow_lt {cmp : α → Ordering} : ∀ rounds base size, 1 ≤ size →
    narrow cmp xs rounds base size < base + size
  | 0, base, size, nonempty => by
    unfold narrow
    omega
  | rounds + 1, base, size, nonempty => by
    unfold narrow
    split
    · omega
    split
    · have := @narrow_lt cmp rounds base (size - size / 2) (by omega)
      omega
    · have := @narrow_lt cmp rounds (base + size / 2) (size - size / 2) (by omega)
      omega

theorem partitionPoint_lt_length {last : α} (ends : xs.getLast? = some last)
    (fails : pred last = false) : partitionPoint pred xs < xs.length := by
  have nonempty : xs ≠ [] := by
    rintro rfl
    cases ends
  have positive := length_pos_of_ne_nil nonempty
  have bound := @narrow_lt α xs (fun x => if pred x then .lt else .gt) xs.length 0 xs.length positive
  rw [zero_add] at bound
  set base := narrow (fun x => if pred x then Ordering.lt else .gt) xs xs.length 0 xs.length
    with base_eq
  have point := partitionPoint_of_narrow bound base_eq.symm
  rw [point]
  split
  · rename_i satisfied
    -- the element the search ends at is not the last one
    by_contra atEnd
    grind
  · exact bound

theorem take_partitionPoint (partitioned : Partitioned pred xs) :
    xs.take (partitionPoint pred xs) = xs.filter pred := by
  obtain ⟨-, before, after⟩ := partitionPoint_spec partitioned
  conv_rhs => rw [← take_append_drop (partitionPoint pred xs) xs]
  rw [filter_append, filter_eq_self.mpr before,
    filter_eq_nil_iff.mpr fun x member => by simp [after x member], append_nil]

theorem drop_partitionPoint (partitioned : Partitioned pred xs) :
    xs.drop (partitionPoint pred xs) = xs.filter fun x => !pred x := by
  obtain ⟨-, before, after⟩ := partitionPoint_spec partitioned
  conv_rhs => rw [← take_append_drop (partitionPoint pred xs) xs]
  rw [filter_append,
    filter_eq_nil_iff.mpr fun x member => by simp [before x member], nil_append,
    filter_eq_self.mpr fun x member => by simp [after x member]]

end PartitionPoint

/-! ## Search by key -/

section ByKey
variable {key : α → Nat} {xs : List α}

def Increasing (key : α → Nat) (xs : List α) : Prop := xs.Pairwise fun a b => key a < key b

section
variable (increasing : Increasing key xs)

include increasing

theorem Increasing.rising (target : Nat) : Rising (fun x => compare (key x) target) xs := by
  intro i j le bound above
  rcases Nat.eq_or_lt_of_le le with rfl | lt
  · exact above
  have ordered := pairwise_iff_getElem.mp increasing i j (by omega) bound lt
  have inside : i < xs.length := by omega
  simp only [Above, getElem?_eq_getElem inside, getElem?_eq_getElem bound,
    Option.map_some, Option.some.injEq, Nat.compare_eq_gt] at above ⊢
  omega

theorem Increasing.partitioned_lt (target : Nat) :
    Partitioned (fun x => decide (key x < target)) xs :=
  increasing.imp fun lt => by simp only [decide_eq_true_eq]; omega

theorem Increasing.position_unique {i j : Nat} {x y : α}
    (atI : xs[i]? = some x) (atJ : xs[j]? = some y) (same : key x = key y) : i = j := by
  obtain ⟨boundI, rfl⟩ := List.getElem?_eq_some_iff.mp atI
  obtain ⟨boundJ, rfl⟩ := List.getElem?_eq_some_iff.mp atJ
  rcases lt_trichotomy i j with lt | rfl | gt
  · have := pairwise_iff_getElem.mp increasing i j boundI boundJ lt
    omega
  · rfl
  · have := pairwise_iff_getElem.mp increasing j i boundJ boundI gt
    omega

/-- **Search by key.** On strictly increasing keys the search succeeds exactly at the
position that holds the key. -/
theorem binarySearchBy_eq_ok_iff {target position : Nat} :
    binarySearchBy (fun x => compare (key x) target) xs = .ok position ↔
      ∃ x, xs[position]? = some x ∧ key x = target := by
  by_cases empty : xs = []
  · subst empty
    simp [binarySearchBy]
  have rising := increasing.rising target
  obtain ⟨bound, -, beyond⟩ := narrow_whole rising empty
  set base := narrow (fun x => compare (key x) target) xs xs.length 0 xs.length
  have found : binarySearchBy (fun x => compare (key x) target) xs = .ok position ↔
      key xs[base] = target ∧ base = position := by
    unfold binarySearchBy
    grind
  constructor
  · grind
  rintro ⟨x, atPosition, hit⟩
  obtain ⟨inside, rfl⟩ := List.getElem?_eq_some_iff.mp atPosition
  -- the key cannot sit after `base`, where everything is above, nor before it
  have notAfter : position ≤ base := by
    by_contra after
    have above := beyond position (by omega) inside
    simp only [Above, atPosition, Option.map_some, Option.some.injEq, Nat.compare_eq_gt] at above
    omega
  rcases Nat.eq_or_lt_of_le notAfter with same | before
  · grind
  have ordered := pairwise_iff_getElem.mp increasing position base inside bound before
  obtain ⟨-, start, -⟩ := narrow_whole rising empty
  rcases start with zero | below
  · omega
  exfalso
  apply below
  grind [Above, Nat.compare_eq_gt]

end
end ByKey
end Theory.Search
