/-
# Theory.Numbered — lists whose keys count up by one

`Numbered key a xs` says that the keys of `xs` are `a`, `a + 1` and so on.
Such a list holds every key of one interval exactly once; cutting it below a key and
extending it by the next key keep it numbered.
-/
import MatrixRaft.Theory.Search

namespace Theory
open Search List
variable {α : Type} {key : α → Nat} {a : Nat} {xs : List α}

/-- The keys count up by one from `a`. -/
def Numbered (key : α → Nat) (a : Nat) (xs : List α) : Prop :=
  ∀ i x, xs[i]? = some x → key x = a + i

namespace Numbered

theorem nil (key : α → Nat) (a : Nat) : Numbered key a [] := by
  intro i x slot
  simp at slot

theorem tail {x : α} (numbered : Numbered key a (x :: xs)) : Numbered key (a + 1) xs := by
  intro i later slot
  have := numbered (i + 1) later (by simpa using slot)
  omega

theorem cons_iff {x : α} : Numbered key a (x :: xs) ↔ key x = a ∧ Numbered key (a + 1) xs := by
  refine ⟨fun numbered => ⟨numbered 0 x rfl, numbered.tail⟩, fun numbered i y slot => ?_⟩
  cases i with
  | zero => grind
  | succ i =>
    have := numbered.2 i y (by simpa using slot)
    omega

section
variable (numbered : Numbered key a xs)

include numbered

theorem increasing : Increasing key xs := by
  refine pairwise_iff_getElem.mpr ?_
  intro i j boundI boundJ lt
  have atI := numbered i _ (getElem?_eq_getElem boundI)
  have atJ := numbered j _ (getElem?_eq_getElem boundJ)
  omega

theorem bounds {x : α} (member : x ∈ xs) : a ≤ key x ∧ key x < a + xs.length := by
  obtain ⟨i, bound, rfl⟩ := mem_iff_getElem.mp member
  have := numbered i _ (getElem?_eq_getElem bound)
  omega

theorem exists_mem {k : Nat} (low : a ≤ k) (high : k < a + xs.length) : ∃ x ∈ xs, key x = k := by
  have bound : k - a < xs.length := by omega
  refine ⟨xs[k - a], getElem_mem bound, ?_⟩
  have := numbered _ _ (getElem?_eq_getElem bound)
  omega

theorem append_numbered {ys : List α}
    (continued : Numbered key (a + xs.length) ys) : Numbered key a (xs ++ ys) := by
  intro i y slot
  rcases lt_or_ge i xs.length with inside | outside
  · rw [getElem?_append_left inside] at slot
    exact numbered i y slot
  rw [getElem?_append_right outside] at slot
  have := continued _ y slot
  omega

theorem append {x : α} (next : key x = a + xs.length) : Numbered key a (xs ++ [x]) := by
  refine numbered.append_numbered fun i y slot => ?_
  obtain ⟨rfl, rfl⟩ : i = 0 ∧ y = x := by grind
  exact next

theorem eq_of_key_eq {x y : α} (memberX : x ∈ xs)
    (memberY : y ∈ xs) (same : key x = key y) : x = y := by
  obtain ⟨i, boundI, rfl⟩ := mem_iff_getElem.mp memberX
  obtain ⟨j, boundJ, rfl⟩ := mem_iff_getElem.mp memberY
  have atI := numbered i _ (getElem?_eq_getElem boundI)
  have atJ := numbered j _ (getElem?_eq_getElem boundJ)
  grind

theorem take (count : Nat) : Numbered key a (xs.take count) := by
  intro i x slot
  rw [getElem?_take] at slot
  split at slot
  · exact numbered i x slot
  · cases slot

theorem drop (count : Nat) : Numbered key (a + count) (xs.drop count) := by
  intro i x slot
  rw [getElem?_drop] at slot
  have := numbered _ x slot
  omega

theorem filter_lt (k : Nat) : (xs.filter fun x => key x < k) = xs.take (k - a) := by
  have split : (xs.filter fun x => decide (key x < k))
      = ((xs.take (k - a)).filter fun x => decide (key x < k))
        ++ (xs.drop (k - a)).filter fun x => decide (key x < k) := by grind [take_append_drop]
  rw [split, filter_eq_self.mpr, filter_eq_nil_iff.mpr, append_nil]
  · intro x member
    obtain ⟨low, -⟩ := (numbered.drop (k - a)).bounds member
    grind
  · intro x member
    obtain ⟨low, high⟩ := (numbered.take (k - a)).bounds member
    grind

theorem filter_ge {k : Nat} (low : a ≤ k) :
    Numbered key k (xs.filter fun x => decide (k ≤ key x)) := by
  have split : (xs.filter fun x => decide (k ≤ key x))
      = ((xs.take (k - a)).filter fun x => decide (k ≤ key x))
        ++ (xs.drop (k - a)).filter fun x => decide (k ≤ key x) := by grind [take_append_drop]
  have suffix := numbered.drop (k - a)
  rw [Nat.add_sub_cancel' low] at suffix
  rw [split, filter_eq_nil_iff.mpr, nil_append, filter_eq_self.mpr]
  · exact suffix
  · grind [suffix.bounds]
  intro x member
  have := ((numbered.take (k - a)).bounds member).2
  grind

end
end Numbered
end Theory
