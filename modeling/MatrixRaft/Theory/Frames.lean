/-
# Theory.Frames — streams of frames with a torn tail

A stream is a sequence of frames, the last of which may have been cut short.  A reader
takes one frame off the front, or finds that what is left is the beginning of one.
-/
import MatrixRaft.Theory.Attempt
import MatrixRaft.Theory.Wire

namespace Theory.Frames
open List
variable {σ ε α : Type}

def scan (next : Nat → Bytes → Except ε (Option (α × Bytes))) (body : Nat → α → Attempt σ ε Unit) :
    Nat → Nat → Bytes → Attempt σ ε Nat
  | 0, offset, _ => pure offset
  | fuel + 1, offset, input =>
    if input = [] then pure offset
    else match next offset input with
      | .error error => throw error
      | .ok none => pure offset
      | .ok (some (item, rest)) => do
        body offset item
        scan next body fuel (offset + (input.length - rest.length)) rest

def written (write : α → Bytes) (items : List α) : Bytes := items.flatMap write

def forEachAt (write : α → Bytes) (body : Nat → α → Attempt σ ε Unit) :
    Nat → List α → Attempt σ ε Unit
  | _, [] => pure ()
  | offset, item :: items => do
    body offset item
    forEachAt write body (offset + (write item).length) items

/-- What is left of a frame that was cut short. -/
def Torn (good : α → Prop) (write : α → Bytes) (tail : Bytes) : Prop :=
  tail = [] ∨ ∃ item, good item ∧ ∃ kept, kept < (write item).length ∧ tail = (write item).take kept

/-- A reader of the frames that `write` makes of good items.  At the very start of a stream there is
no frame to fall back on, and a torn one may be an error. -/
structure Framing (good : α → Prop) (write : α → Bytes)
    (next : Nat → Bytes → Except ε (Option (α × Bytes))) : Prop where
  nonempty : ∀ item, good item → write item ≠ []
  whole : ∀ offset item rest, good item → next offset (write item ++ rest) = .ok (some (item, rest))
  torn : ∀ offset item kept, good item → offset ≠ 0 → kept ≠ 0 → kept < (write item).length →
    next offset ((write item).take kept) = .ok none

section Scanning
variable {good : α → Prop} {write : α → Bytes} {next : Nat → Bytes → Except ε (Option (α × Bytes))}
  {body : Nat → α → Attempt σ ε Unit}

@[simp] theorem written_nil : written write [] = [] := rfl

@[simp] theorem written_cons (item : α) (items : List α) :
    written write (item :: items) = write item ++ written write items := rfl

theorem forEachAt_append (offset : Nat) (left right : List α) :
    forEachAt write body offset (left ++ right) = (forEachAt write body offset left >>= fun _ =>
          forEachAt write body (offset + (written write left).length) right) := by
  induction left generalizing offset with
  | nil => rw [nil_append, forEachAt, pure_bind, written_nil, length_nil, Nat.add_zero]
  | cons item left ih => simp [forEachAt, ih, add_assoc]

theorem forEachAt_collect (offset : Nat) (items noted : List α) :
    forEachAt write (fun _ item => (Attempt.update (· ++ [item]) : Attempt (List α) ε Unit)) offset
      items noted = (.ok (), noted ++ items) := by
  induction items generalizing offset noted with
  | nil => rw [append_nil]; rfl
  | cons item items ih => simp [forEachAt, Attempt.bind_ok (Attempt.update_apply _ _), ih]

variable {tail : Bytes}

section
variable (framing : Framing good write next)
include framing

theorem scan_torn {offset : Nat} (inside : offset ≠ 0)
    (torn : Torn good write tail) (fuel : Nat) (s : σ) : scan next body fuel offset tail s =
    (.ok offset, s) := by
  cases fuel with
  | zero => rfl
  | succ =>
    rw [scan]
    split
    · rfl
    rename_i present
    rcases torn with empty | ⟨item, fine, kept, short, rfl⟩
    · exact absurd empty present
    have some : kept ≠ 0 := by grind
    rw [framing.torn offset item kept fine inside some short]
    rfl

section
variable {items : List α} (fine : ∀ item ∈ items, good item)
include fine

theorem scan_append (fuel offset : Nat) (s : σ) :
    scan next body (fuel + items.length) offset (written write items ++ tail) s
      = (forEachAt write body offset items >>= fun _ =>
        scan next body fuel (offset + (written write items).length) tail) s := by
  induction items generalizing offset s with
  | nil => rfl
  | cons item items ih =>
    have here := fine item (by simp)
    have present : written write (item :: items) ++ tail ≠ [] := by
      simp [framing.nonempty item here]
    rw [length_cons, ← add_assoc, scan, if_neg present, written_cons, append_assoc,
      framing.whole offset item _ here, forEachAt, bind_assoc]
    refine Attempt.bind_congr_at rfl fun _ reached _ => ?_
    grind

theorem length_le_written : items.length ≤ (written write items).length := by
  induction items with
  | nil => rfl
  | cons item items ih => grind [length_pos_iff, framing.nonempty, written_cons]

/-- **On written frames a scan runs the body on each**, and stops where they end. -/
theorem scan_written (torn : Torn good write tail) {fuel offset : Nat}
    (enough : (written write items ++ tail).length < fuel) (inside : offset ≠ 0 ∨ items ≠ []) (s : σ) :
    scan next body fuel offset (written write items ++ tail) s
      = (forEachAt write body offset items >>= fun _ =>
        pure (offset + (written write items).length)) s := by
  have few := length_le_written framing fine
  rw [length_append] at enough
  obtain ⟨left, rfl⟩ : ∃ left, fuel = left + items.length := ⟨fuel - items.length, by omega⟩
  rw [scan_append framing fine]
  refine Attempt.bind_congr_at rfl fun _ reached _ => ?_
  have started : offset + (written write items).length ≠ 0 := by grind [length_pos_iff]
  exact scan_torn framing started torn left reached

end
end

def wholeCount (write : α → Bytes) : List α → Nat → Nat
  | [], _ => 0
  | item :: items, size =>
    if (write item).length ≤ size then wholeCount write items (size - (write item).length) + 1
    else 0

theorem take_written {items : List α} (fine : ∀ item ∈ items, good item) (size : Nat) :
    ∃ tail, (written write items).take size
        = written write (items.take (wholeCount write items size)) ++ tail ∧ Torn good write tail := by
  induction items generalizing size with
  | nil => exact ⟨[], by simp, .inl rfl⟩
  | cons item items ih =>
    rw [wholeCount]
    split
    · rename_i fits
      obtain ⟨tail, cut, torn⟩ := ih (fun other member => fine other (by simp [member]))
        (size - (write item).length)
      refine ⟨tail, ?_, torn⟩
      simp [take_append, take_of_length_le fits, cut]
    · refine ⟨(write item).take size, ?_, .inr ⟨item, fine item (by simp), size, by omega, rfl⟩⟩
      rw [written_cons, take_append_of_le_length (by omega)]
      rfl

end Scanning
end Theory.Frames
