/-
# ReadSafety — reads that wait for the applied index

`PendingReadIndexQueue` of `read_safety.rs` keeps reads in the order they arrive and looks at the
front only, so a read behind one that still waits is not released.
-/
import Mathlib.Data.List.TakeWhile
import MatrixRaft.Messages
import MatrixRaft.Theory.Attempt

namespace MatrixRaft
open Theory List

structure PendingReadIndex where
  request : ReadIndexRequest
  readIndex : Nat

def PendingReadIndex.fenceIndex (pending : PendingReadIndex) : Nat :=
  max pending.readIndex pending.request.minCommitIndex

structure PendingReadIndexResult where
  request : ReadIndexRequest
  (readIndex appliedIndex : Nat)
  ready : Bool
  reason : String

def PendingReadIndexResult.pending (result : PendingReadIndexResult) : PendingReadIndex :=
  ⟨result.request, result.readIndex⟩

namespace PendingReadIndexQueue
variable (queue : List PendingReadIndex)

def push (request : ReadIndexRequest) (readIndex : Nat) : List PendingReadIndex :=
  queue ++ [⟨request, readIndex⟩]

def notifyApplied (appliedIndex : Nat) : List PendingReadIndexResult × List PendingReadIndex :=
  -- the loop pops the front while its fence is applied
  ((queue.takeWhile (appliedIndex ≥ ·.fenceIndex)).map fun pending =>
    ⟨pending.request, pending.readIndex, appliedIndex, true, "read_index_applied"⟩,
    queue.dropWhile (appliedIndex ≥ ·.fenceIndex))

/-- Every notice releases all it covers exactly when fences do not fall along the queue. -/
theorem notifyApplied_left_iff : (∀ appliedIndex, ∀ pending ∈ (notifyApplied queue appliedIndex).2,
      appliedIndex < pending.fenceIndex) ↔ queue.Pairwise (·.fenceIndex ≤ ·.fenceIndex) := by
  simp only [notifyApplied]
  induction queue with
  | nil => simp
  | cons front rest ih =>
    rw [pairwise_cons, ← ih]
    simp only [dropWhile_cons]
    refine ⟨fun clear => ⟨fun pending behind => ?_, fun appliedIndex pending left => ?_⟩,
      fun ⟨above, clear⟩ appliedIndex pending left => ?_⟩
    · -- a notice of the later read's fence would leave it behind the front
      by_contra below
      have still := clear pending.fenceIndex pending
      rw [if_neg (by simpa using below)] at still
      exact lt_irrefl _ (still (mem_cons_of_mem _ behind))
    · have still := clear appliedIndex pending
      split at still
      · exact still left
      · exact still (mem_cons_of_mem _ (dropWhile_subset _ left))
    · split at left
      · exact clear appliedIndex pending left
      · grind

end PendingReadIndexQueue

/-! ## Registrations and notices -/

inductive ReadCall where
  | push (request : ReadIndexRequest) (readIndex : Nat)
  | notifyApplied (appliedIndex : Nat)

/-- The queue, with the reads registered and the answers given so far. -/
structure Reading where
  (queue registered : List PendingReadIndex)
  released : List PendingReadIndexResult

namespace Reading
open PendingReadIndexQueue

def start : Reading := ⟨[], [], []⟩

def step (s : Reading) : ReadCall → Reading
  | .push request readIndex =>
    ⟨PendingReadIndexQueue.push s.queue request readIndex,
      s.registered ++ [⟨request, readIndex⟩], s.released⟩
  | .notifyApplied appliedIndex =>
    ⟨(notifyApplied s.queue appliedIndex).2, s.registered,
      s.released ++ (notifyApplied s.queue appliedIndex).1⟩

structure Kept (s : Reading) : Prop where
  once : s.released.map (·.pending) ++ s.queue = s.registered
  applied : ∀ result ∈ s.released, result.pending.fenceIndex ≤ result.appliedIndex

theorem Kept.step {s : Reading} (kept : s.Kept) (call : ReadCall) : (s.step call).Kept := by
  obtain ⟨once, applied⟩ := kept
  cases call with
  | push => exact ⟨by simp [Reading.step, push, ← once], applied⟩
  | notifyApplied =>
    refine ⟨?_, fun result answered => ?_⟩
    · simp [Reading.step, notifyApplied, PendingReadIndexResult.pending, Function.comp_def, ← once]
    · rcases mem_append.mp answered with before | now
      · exact applied result before
      · obtain ⟨pending, taken, rfl⟩ := mem_map.mp now
        have fenced := mem_takeWhile_imp taken
        exact of_decide_eq_true fenced

/-- **Reads that are applied.** After any calls the answers and then the queue are the registrations
in their order, and an answered read's fence is applied.  A notice then releases all it covers,
whatever its index, exactly when the fences do not fall along the queue. -/
theorem applied_reads_released_iff (calls : List ReadCall) :
    ∀ s, s = calls.foldl step start → s.released.map (·.pending) ++ s.queue = s.registered ∧
      (∀ result ∈ s.released, result.pending.fenceIndex ≤ result.appliedIndex) ∧
      ((∀ appliedIndex, ∀ pending ∈ (s.step (.notifyApplied appliedIndex)).queue,
        appliedIndex < pending.fenceIndex) ↔ s.queue.Pairwise (·.fenceIndex ≤ ·.fenceIndex)) := by
  rintro s rfl
  have kept := run_invariant (P := Kept) (fun _ call kept => kept.step call)
    (s := start) ⟨rfl, nofun⟩ calls
  exact ⟨kept.once, kept.applied, notifyApplied_left_iff _⟩

theorem applied_reads_in_order : ∃ s, s.queue.map (·.fenceIndex) = [3, 5] ∧
    ∀ pending ∈ (step s (.notifyApplied 4)).queue, 4 < pending.fenceIndex :=
  have reads := applied_reads_released_iff
    [.push ⟨1, 1, 0, false⟩ 3, .push ⟨1, 1, 0, false⟩ 5] _ rfl
  ⟨_, rfl, reads.2.2.mpr (by decide) 4⟩

theorem applied_read_waits : ∃ s, s = [.push ⟨1, 1, 0, false⟩ 5, .push ⟨1, 1, 0, false⟩ 3,
    .notifyApplied 4].foldl step start ∧ s.queue.map (·.fenceIndex) = [5, 3] :=
  ⟨_, rfl, rfl⟩

end Reading
end MatrixRaft
