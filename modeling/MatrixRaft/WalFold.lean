/-
# WalFold — what folding and recovery depend on

- a whole record makes everything before it irrelevant, and may stand in for a delta with
  the records it continues
- recovery restores the last record when that is valid and of the highest committed index
- a delta cut against the coverage of a log folds back to that log, under log matching
-/
import MatrixRaft.WalStore
import MatrixRaft.NodeLog

namespace MatrixRaft
open Theory List

/-! ## Folding -/

theorem foldWalEntries_append (front back : List WalRecord) :
    foldWalEntries (front ++ back) = foldWalEntriesFrom (foldWalEntries front) back :=
  foldl_append

variable (stored : List WalRecord)

theorem foldWalEntries_concat (record : WalRecord) :
    foldWalEntries (stored ++ [record]) = foldWalEntriesStep (foldWalEntries stored) record :=
  foldWalEntries_append stored [record]

theorem foldWalEntriesStep_whole {record : WalRecord} (whole : record.entriesAreDelta = false)
    (folded : List LogEntry) : foldWalEntriesStep folded record = record.entries := by
  simp [foldWalEntriesStep, whole]

theorem foldWalEntries_whole {record : WalRecord} (whole : record.entriesAreDelta = false)
    (front back : List WalRecord) :
    foldWalEntries (front ++ record :: back) = foldWalEntries (record :: back) := by
  simp [foldWalEntries, foldWalEntriesFrom, foldWalEntriesStep_whole whole]

theorem foldWalRecordsFrom_append (folded : List LogEntry) (front back : List WalRecord) :
    foldWalRecordsFrom folded (front ++ back) = foldWalRecordsFrom folded front
        ++ foldWalRecordsFrom (foldWalEntriesFrom folded front) back := by
  induction front generalizing folded with
  | nil => rfl
  | cons record front ih =>
    rw [cons_append, foldWalRecordsFrom, ih, foldWalRecordsFrom]
    rfl

theorem foldWalRecords_concat (record : WalRecord) :
    foldWalRecords (stored ++ [record]) = foldWalRecords stored
      ++ [wholeFromFolded record (foldWalEntriesStep (foldWalEntries stored) record)] := by
  rw [foldWalRecords, foldWalRecordsFrom_append]
  rfl

theorem mem_foldWalRecords (front back : List WalRecord) (record : WalRecord) :
    wholeFromFolded record (foldWalEntries (front ++ [record]))
      ∈ foldWalRecords (front ++ record :: back) := by
  rw [foldWalRecords, foldWalRecordsFrom_append, foldWalEntries_concat]
  exact mem_append_right _ mem_cons_self

theorem foldWalLatestRecord_concat (record : WalRecord) : foldWalLatestRecord (stored ++ [record])
      = some (wholeFromFolded record (foldWalEntriesStep (foldWalEntries stored) record)) := by
  simp [foldWalLatestRecord, foldWalEntries_concat]

theorem getLast?_foldWalRecords :
    (foldWalRecords stored).getLast? = foldWalLatestRecord stored := by
  rcases stored.eq_nil_or_concat with rfl | ⟨front, record, rfl⟩
  · rfl
  · simp [foldWalRecords_concat, foldWalLatestRecord_concat]

/-! ## The record recovery picks -/

theorem ranksBefore_total (a b : Nat × Nat) : RanksBefore a b ∨ RanksBefore b a := by
  unfold RanksBefore
  omega

theorem RanksBefore.trans {a b c : Nat × Nat} (first : RanksBefore a b)
    (second : RanksBefore b c) : RanksBefore a c := by
  unfold RanksBefore at *
  omega

theorem RanksBefore.antisymm {a b : Nat × Nat} (first : RanksBefore a b)
    (second : RanksBefore b a) : a = b := by
  unfold RanksBefore at *
  ext <;> omega

instance : Std.Total RanksBefore := ⟨ranksBefore_total⟩

instance : IsTrans (Nat × Nat) RanksBefore := ⟨fun _ _ _ => RanksBefore.trans⟩

theorem head?_insertionSort {candidates : List (Nat × Nat)} {best : Nat × Nat}
    (member : best ∈ candidates) (best_ranks : ∀ other ∈ candidates, RanksBefore best other) :
    (candidates.insertionSort RanksBefore).head? = some best := by
  have present : best ∈ candidates.insertionSort RanksBefore :=
    (mem_insertionSort RanksBefore).mpr member
  have ordered := pairwise_insertionSort RanksBefore candidates
  cases ranked : candidates.insertionSort RanksBefore with
  | nil => simp [ranked] at present
  | cons first =>
    rw [ranked] at present ordered
    have first_member : first ∈ candidates := by grind [mem_insertionSort, mem_cons_self]
    rcases mem_cons.mp present with rfl | later
    · rfl
    · have before := (pairwise_cons.mp ordered).1 best later
      rw [before.antisymm (best_ranks first first_member), head?_cons]

/-- **Recovery takes the last record** when its fold is valid and no stored record has a
higher committed index. -/
theorem recover_last {stored : List WalRecord} {record whole : WalRecord}
    (latest : foldWalLatestRecord (stored ++ [record]) = some whole)
    (valid : whole.recoverable = true)
    (highest : ∀ other ∈ stored, other.committedIndex ≤ record.committedIndex) :
    (recoverFromWalRecords (stored ++ [record])).2 = some whole := by
  set all := stored ++ [record] with all_eq
  have last_slot : all[stored.length]? = some record := by simp [all_eq]
  have at_last : recoverableAt all stored.length = some whole := by
    have folded : wholeFromFolded record (foldWalEntries all) = whole := by
      simpa [foldWalLatestRecord, all_eq] using latest
    have everything : all.take (stored.length + 1) = all :=
      take_of_length_le (by simp [all_eq])
    simp [recoverableAt, last_slot, everything, folded, valid]
  have first : ((all.zipIdx.map fun entry => (entry.1.committedIndex, entry.2)).insertionSort
      RanksBefore).head? = some (record.committedIndex, stored.length) := by
    refine head?_insertionSort ?_ ?_
    · grind
    intro other member
    obtain ⟨⟨candidate, position⟩, among, rfl⟩ := mem_map.mp member
    have slot : all[position]? = some candidate := mem_zipIdx_iff_getElem?.mp among
    have bound : position < all.length := (List.getElem?_eq_some_iff.mp slot).1
    rw [all_eq, List.length_append, List.length_singleton] at bound
    have held : candidate ∈ all := List.mem_of_getElem? slot
    rcases mem_append.mp held with earlier | last
    · rcases (highest candidate earlier).lt_or_eq with lower | tie
      · exact .inl lower
      · exact .inr ⟨tie, Nat.le_of_lt_succ bound⟩
    · rw [mem_singleton.mp last]
      exact .inr ⟨rfl, Nat.le_of_lt_succ bound⟩
  unfold recoverFromWalRecords
  grind [head?_eq_some_iff]

end MatrixRaft
