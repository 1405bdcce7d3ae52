/-
# Theory.Pointwise — maps that hold the same keys with related values

`Pointwise R t t'` relates two maps key by key.  It is what an operation leaves that changes
values in place: reflexive and transitive as `R` is, and established by `modify` and `map`
from `R` alone.
-/
import Mathlib.Tactic

namespace Theory
open Std (TreeMap TransCmp LawfulEqCmp)
variable {κ β : Type} {cmp : κ → κ → Ordering} {R : κ → β → β → Prop}

/-- The same keys are held, with values related by `R`. -/
def Pointwise (R : κ → β → β → Prop) (t t' : TreeMap κ β cmp) : Prop :=
  ∀ k : κ, (∀ v, t[k]? = some v → ∃ v', t'[k]? = some v' ∧ R k v v') ∧ (t[k]? = none → t'[k]? = none)

namespace Pointwise
variable {t t' t'' : TreeMap κ β cmp}

theorem refl (reflexive : ∀ k v, R k v v) (t : TreeMap κ β cmp) : Pointwise R t t :=
  fun _ => ⟨fun v held => ⟨v, held, reflexive _ v⟩, fun absent => absent⟩

theorem trans (transitive : ∀ k u v w, R k u v → R k v w → R k u w) (first : Pointwise R t t')
    (second : Pointwise R t' t'') : Pointwise R t t'' := by
  intro k
  refine ⟨fun u held => ?_, fun absent => (second k).2 ((first k).2 absent)⟩
  obtain ⟨v, held', uv⟩ := (first k).1 u held
  obtain ⟨w, held'', vw⟩ := (second k).1 v held'
  exact ⟨w, held'', transitive k u v w uv vw⟩

theorem mono {R' : κ → β → β → Prop} (weaker : ∀ k v v', R k v v' → R' k v v')
    (pointwise : Pointwise R t t') : Pointwise R' t t' := by
  intro k
  refine ⟨fun v held => ?_, (pointwise k).2⟩
  obtain ⟨v', held', related⟩ := (pointwise k).1 v held
  exact ⟨v', held', weaker k v v' related⟩

theorem back (pointwise : Pointwise R t t') {k : κ} {v' : β} (held : t'[k]? = some v') :
    ∃ v, t[k]? = some v ∧ R k v v' := by
  rcases before : t[k]? with _ | v
  · rw [(pointwise k).2 before] at held
    cases held
  · obtain ⟨w, held', related⟩ := (pointwise k).1 v before
    grind

section Operations
variable [TransCmp cmp]

theorem modify [LawfulEqCmp cmp] (reflexive : ∀ k v, R k v v) {k : κ} {f : β → β}
    (step : ∀ v, t[k]? = some v → R k v (f v)) : Pointwise R t (t.modify k f) := by
  intro k'
  grind

theorem map [LawfulEqCmp cmp] {f : κ → β → β} (step : ∀ k v, t[k]? = some v → R k v (f k v)) :
    Pointwise R t (t.map f) := by
  intro k
  grind

end Operations
end Pointwise
end Theory
