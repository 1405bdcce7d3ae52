/-
# Theory.Statistic — the greatest value that enough elements reach

Two ways to the greatest value that `quorum` elements of a list are at or above: the
element a sort puts at place `length - quorum`, and a pass over the elements that keeps
the best one a count accepts.
-/
import Mathlib.Tactic

namespace Theory.Statistic
open List
variable {α : Type} [LinearOrder α]

def Reached (quorum : Nat) (values : List α) : Set α :=
  {value | quorum ≤ values.countP fun other => decide (value ≤ other)}

variable {values : List α} {quorum : Nat} {value : α}

theorem mem_reached :
    value ∈ Reached quorum values ↔ quorum ≤ values.countP fun other => decide (value ≤ other) :=
  Iff.rfl

theorem reached_perm {other : List α} (perm : values.Perm other) :
    Reached quorum values = Reached quorum other := by grind [mem_reached, perm.countP_eq]

theorem reached_eq_empty (few : values.length < quorum) : Reached quorum values = ∅ := by
  refine Set.eq_empty_iff_forall_notMem.mpr fun value reached => ?_
  have := countP_le_length (p := fun other => decide (value ≤ other)) (l := values)
  exact absurd (reached.trans this) (not_le.mpr few)

/-! ## The order statistic -/

section
variable {sorted : List α} (ascending : sorted.Pairwise (· ≤ ·)) {place : Nat}
include ascending

theorem le_countP_of_sorted (here : sorted[place]? = some value) :
    sorted.length - place ≤ sorted.countP fun other => decide (value ≤ other) := by
  obtain ⟨inside, rfl⟩ := List.getElem?_eq_some_iff.mp here
  have split := @List.countP_append _ (fun other => decide (sorted[place] ≤ other))
    (sorted.take place) (sorted.drop place)
  rw [take_append_drop] at split
  have all : (sorted.drop place).countP (fun other => decide (sorted[place] ≤ other))
      = (sorted.drop place).length := by
    rw [countP_eq_length]
    intro other member
    rw [drop_eq_getElem_cons inside, mem_cons] at member
    rcases member with rfl | later
    · simp
    have ordered : (sorted.drop place).Pairwise (· ≤ ·) := ascending.drop
    rw [drop_eq_getElem_cons inside, pairwise_cons] at ordered
    exact decide_eq_true (ordered.1 other later)
  simp [split, all]

theorem countP_le_of_sorted {value above : α} (here : sorted[place]? = some value)
    (greater : value < above) :
    (sorted.countP fun other => decide (above ≤ other)) ≤ sorted.length - (place + 1) := by
  obtain ⟨inside, rfl⟩ := List.getElem?_eq_some_iff.mp here
  have split := @List.countP_append _ (fun other => decide (above ≤ other))
    (sorted.take (place + 1)) (sorted.drop (place + 1))
  rw [take_append_drop] at split
  have none : (sorted.take (place + 1)).countP (fun other => decide (above ≤ other)) = 0 := by
    rw [countP_eq_zero]
    intro other member
    obtain ⟨i, bound, rfl⟩ := mem_take_iff_getElem.mp member
    have below : sorted[i] ≤ sorted[place] := by grind [pairwise_iff_getElem]
    simpa using below.trans_lt greater
  have few := countP_le_length (p := fun other => decide (above ≤ other))
    (l := sorted.drop (place + 1))
  grind

end

/-- **The order statistic.** The element a sort puts `quorum` places from the end is the
greatest value a quorum reaches. -/
theorem sorted_place_isGreatest (some_ : 0 < quorum) (enough : quorum ≤ values.length)
    (here : (values.insertionSort (· ≤ ·))[values.length - quorum]? = some value) :
    IsGreatest (Reached quorum values) value := by
  have perm := perm_insertionSort (· ≤ ·) values
  have ascending := pairwise_insertionSort (· ≤ ·) values
  have length := length_insertionSort (· ≤ ·) values
  rw [← reached_perm perm]
  constructor
  · have many := le_countP_of_sorted ascending here
    rw [mem_reached]
    omega
  · intro above reached
    by_contra greater
    have few := countP_le_of_sorted ascending here (not_le.mp greater)
    rw [mem_reached] at reached
    omega

/-! ## The counting pass -/

def keepBest (accepts : α → Bool) (best : Option α) (candidate : α) : Option α :=
  if best.any fun current => decide (candidate ≤ current) then best
  else if accepts candidate then some candidate
  else best

variable {accepts : α → Bool}

theorem keepBest_accepted {best : Option α} (held : ∀ value ∈ best, accepts value = true)
    (candidate : α) : ∀ value ∈ keepBest accepts best candidate, accepts value = true := by
  intro value kept
  unfold keepBest at kept
  grind

theorem keepBest_grows (best : Option α) (candidate : α) :
    (∀ value ∈ best, ∃ value' ∈ keepBest accepts best candidate, value ≤ value') ∧
      (accepts candidate = true → ∃ value' ∈ keepBest accepts best candidate, candidate ≤ value') := by
  unfold keepBest
  split
  · rename_i covered
    obtain ⟨current, held, above⟩ := (Option.any_eq_true _ _).mp covered
    grind
  · rename_i uncovered
    split
    · refine ⟨fun value held => ⟨candidate, rfl, ?_⟩, fun _ => ⟨candidate, rfl, le_rfl⟩⟩
      rw [held] at uncovered
      simpa using le_of_lt (by simpa using uncovered)
    · grind

/-- **The pass.** It ends with an accepted element that no accepted element exceeds. -/
theorem foldl_keepBest (candidates : List α) :
    (∀ value ∈ candidates.foldl (keepBest accepts) none, accepts value = true) ∧
      ∀ candidate ∈ candidates, accepts candidate = true →
        ∃ value ∈ candidates.foldl (keepBest accepts) none, candidate ≤ value := by
  have run : ∀ (candidates : List α) (best : Option α), (∀ value ∈ best, accepts value = true) →
      (∀ value ∈ candidates.foldl (keepBest accepts) best, accepts value = true) ∧
      (∀ value ∈ best, ∃ value' ∈ candidates.foldl (keepBest accepts) best, value ≤ value') ∧
      ∀ candidate ∈ candidates, accepts candidate = true →
        ∃ value ∈ candidates.foldl (keepBest accepts) best, candidate ≤ value := by
    intro candidates
    induction candidates with
    | nil => exact fun best held => ⟨held, fun value kept => ⟨value, kept, le_rfl⟩, by simp⟩
    | cons candidate rest ih =>
      intro best held
      obtain ⟨accepted, grows, covers⟩ := ih _ (keepBest_accepted held candidate)
      obtain ⟨kept, taken⟩ := @keepBest_grows α _ accepts best candidate
      grind
  obtain ⟨accepted, -, covers⟩ := run candidates none (by simp)
  exact ⟨accepted, covers⟩

theorem exists_mem_reached (some_ : 0 < quorum) (reached : value ∈ Reached quorum values) :
    ∃ candidate ∈ values, value ≤ candidate ∧ candidate ∈ Reached quorum values := by
  set high := values.filter fun other => decide (value ≤ other) with high_eq
  have many : quorum ≤ high.length := by
    rw [high_eq, ← countP_eq_length_filter]
    exact reached
  obtain ⟨least, isLeast⟩ : ∃ least, high.min? = some least :=
    Option.isSome_iff_exists.mp (by
      rw [isSome_min?_iff]
      exact ne_nil_of_length_pos (some_.trans_le many))
  obtain ⟨member, below⟩ := min?_eq_some_iff.mp isLeast
  have inHigh := mem_filter.mp member
  refine ⟨least, inHigh.1, by simpa using inHigh.2, many.trans ?_⟩
  rw [high_eq, ← countP_eq_length_filter]
  refine countP_mono_left fun other inValues above => ?_
  grind

/-- **Counting at every candidate.** The pass ends with the greatest value a quorum reaches. -/
theorem counted_isGreatest (some_ : 0 < quorum)
    (ends : values.foldl (keepBest fun candidate =>
      decide (quorum ≤ values.countP fun other => decide (candidate ≤ other))) none = some value) :
    IsGreatest (Reached quorum values) value := by
  obtain ⟨accepted, covers⟩ := @foldl_keepBest α _ (fun candidate =>
    decide (quorum ≤ values.countP fun other => decide (candidate ≤ other))) values
  rw [ends] at accepted covers
  refine ⟨mem_reached.mpr (by simpa using accepted value rfl), fun reached isReached => ?_⟩
  obtain ⟨candidate, member, low, inReach⟩ := exists_mem_reached some_ isReached
  obtain ⟨found, same, high⟩ := covers candidate member (decide_eq_true inReach)
  grind

theorem counted_isSome (some_ : 0 < quorum) (enough : quorum ≤ values.length) :
    (values.foldl (keepBest fun candidate =>
      decide (quorum ≤ values.countP fun other => decide (candidate ≤ other))) none).isSome = true := by
  obtain ⟨-, covers⟩ := @foldl_keepBest α _ (fun candidate =>
    decide (quorum ≤ values.countP fun other => decide (candidate ≤ other))) values
  obtain ⟨least, isLeast⟩ : ∃ least, values.min? = some least :=
    Option.isSome_iff_exists.mp (by
      rw [isSome_min?_iff]
      exact ne_nil_of_length_pos (some_.trans_le enough))
  obtain ⟨member, below⟩ := min?_eq_some_iff.mp isLeast
  have all : values.countP (fun other => decide (least ≤ other)) = values.length :=
    countP_eq_length.mpr fun other inValues => decide_eq_true (below other inValues)
  obtain ⟨value, ends, -⟩ := covers least member (by rw [all]; exact decide_eq_true enough)
  exact Option.isSome_iff_exists.mpr ⟨value, ends⟩

theorem eq_some_iff_isGreatest {answer : Option α}
    (sound : ∀ value, answer = some value → IsGreatest (Reached quorum values) value)
    (found : quorum ≤ values.length → answer.isSome = true) :
    answer = some value ↔ IsGreatest (Reached quorum values) value := by
  refine ⟨sound value, fun greatest => ?_⟩
  have enough : quorum ≤ values.length := by
    by_contra few
    rw [reached_eq_empty (not_le.mp few)] at greatest
    exact greatest.1.elim
  obtain ⟨other, is⟩ := Option.isSome_iff_exists.mp (found enough)
  rw [is, (sound other is).unique greatest]

end Theory.Statistic

/-! ## Sets that are large enough to meet -/

namespace Theory
variable {α : Type} [DecidableEq α] {small large : Finset α} {m n : Nat}

/-- **Thresholds meet.** Every `m` elements of the smaller set meet every `n` of the larger
one exactly when the smaller set has no `m` elements or `m + n` exceeds the larger set. -/
theorem thresholds_meet_iff (inside : small ⊆ large) :
    (∀ Y ⊆ small, m ≤ Y.card → ∀ Z ⊆ large, n ≤ Z.card → (Y ∩ Z).Nonempty) ↔
      small.card < m ∨ large.card < m + n := by
  constructor
  · intro meet
    by_contra room
    obtain ⟨enough, wide⟩ := not_or.mp room
    obtain ⟨Y, inY, cardY⟩ := Finset.exists_subset_card_eq (not_lt.mp enough)
    have rest : n ≤ (large \ Y).card := by grind
    obtain ⟨Z, inZ, cardZ⟩ := Finset.exists_subset_card_eq rest
    obtain ⟨a, shared⟩ := meet Y inY cardY.ge Z (inZ.trans Finset.sdiff_subset) cardZ.ge
    grind
  · rintro (short | crowded) Y inY manyY Z inZ manyZ
    · have := Finset.card_le_card inY
      omega
    · exact Finset.inter_nonempty_of_card_lt_card_add_card (inY.trans inside) inZ (by omega)

theorem majorities_meet {Y Z : Finset α} (inY : Y ⊆ large) (inZ : Z ⊆ large)
    (manyY : large.card / 2 + 1 ≤ Y.card) (manyZ : large.card / 2 + 1 ≤ Z.card) :
    (Y ∩ Z).Nonempty :=
  (thresholds_meet_iff subset_rfl).mpr (.inr (by omega)) Y inY manyY Z inZ manyZ

end Theory
