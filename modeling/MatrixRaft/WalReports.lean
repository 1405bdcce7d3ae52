/-
# WalReports — what a write report says about the hard state

A report answers whether the hard state is covered by the log stored with it.  The question
is put to the record as stored, which may be only the tail past what the log already covers;
recovery puts it to the record the whole log folds to.
-/
import MatrixRaft.WalCompact

namespace MatrixRaft
open Theory PersistentRaftWal List Attempt WalRecord Appending WalWriteReport

/-- The hard-state check as a report answers it. -/
def WalRecord.persisted (record : WalRecord) : Bool := (validateHardStatePersistence record).toBool

def EmptyTail (folded : List LogEntry) (record : WalRecord) : Prop :=
  record.entriesAreDelta = true ∧ record.entries = [] ∧
    ∃ committed ∈ record.hardState.committed, committed.term ≤ record.hardState.currentTerm ∧
      (record.installedSnapshot.map fun snapshot => snapshot.lastLogId.index).getD 0
        < committed.index ∧
      committed.index ≤ (folded.getLast?.map LogEntry.index).getD 0

theorem persisted_eq (record : WalRecord) : record.persisted = true ↔
    ∀ committed ∈ record.hardState.committed, committed.term ≤ record.hardState.currentTerm ∧
      committed.index ≤ max ((record.entries.getLast?.map LogEntry.index).getD 0)
        ((record.installedSnapshot.map fun snapshot => snapshot.lastLogId.index).getD 0) := by
  unfold persisted validateHardStatePersistence
  rcases record.hardState.committed with _ | committed
  · simp [Except.toBool]
  · dsimp only
    split_ifs <;> simp [Except.toBool] <;> omega

variable {record : WalRecord}

theorem getLast?_foldWalEntriesStep {folded : List LogEntry}
    (ends : ¬(record.entriesAreDelta = true ∧ record.entries = [])) :
    (foldWalEntriesStep folded record).getLast? = record.entries.getLast? := by
  unfold foldWalEntriesStep
  split
  · rename_i delta
    obtain ⟨first, rest, entries⟩ := exists_cons_of_ne_nil fun none => ends ⟨delta, none⟩
    rw [entries]
    simp [getLast?_append, getLast?_cons]
  · rfl

theorem persisted_folded (folded : List LogEntry) (record : WalRecord) :
    record.persisted = (wholeFromFolded record (foldWalEntriesStep folded record)).persisted ↔
      ¬EmptyTail folded record := by
  rw [Bool.eq_iff_iff, persisted_eq, persisted_eq]
  by_cases tail : record.entriesAreDelta = true ∧ record.entries = []
  · have same : foldWalEntriesStep folded record = folded := by
      simp [foldWalEntriesStep, tail.1, tail.2]
    unfold EmptyTail
    rw [same]
    simp only [wholeFromFolded, tail.1, tail.2, getLast?_nil, Option.map_none,
      Option.getD_none]
    rcases record.hardState.committed with _ | committed
    · simp
    · simp
      omega
  · have ends : (wholeFromFolded record (foldWalEntriesStep folded record)).entries.getLast?
        = record.entries.getLast? := getLast?_foldWalEntriesStep tail
    rw [ends]
    exact iff_of_true Iff.rfl fun empty => tail ⟨empty.1, empty.2.1⟩

def Speaking (folded : List LogEntry) : List WalRecord → Prop
  | [] => True
  | record :: records =>
    ¬EmptyTail folded record ∧ Speaking (foldWalEntriesStep folded record) records

theorem persisted_foldWalRecordsFrom (records : List WalRecord) : ∀ folded : List LogEntry,
    records.map persisted = (foldWalRecordsFrom folded records).map persisted ↔
      Speaking folded records := by
  induction records with
  | nil => simp [foldWalRecordsFrom, Speaking]
  | cons record records ih =>
    intro folded
    rw [foldWalRecordsFrom, map_cons, map_cons, cons.injEq, persisted_folded, ih,
      Speaking]

/-! ## Reports -/

def Appending.report (frameLen : WalRecord → Option Nat) : Appending → WalM (List WalWriteReport)
  | append record => appendWithReport frameLen record >>= fun report => pure [report]
  | appendBatch records => PersistentRaftWal.appendBatch frameLen records
  | appendBuilt build => PersistentRaftWal.appendBuilt frameLen build >>= fun report => pure [report]

def storedForms (covered : Option WalCoverage) : List WalRecord → List WalRecord
  | [] => []
  | record :: records =>
    let stored := storedForm record (covered.bind (walDeltaBase record.entries))
    stored :: storedForms (advanceCovered covered stored) records

def Appending.stored (covered : Option WalCoverage) : Appending → List WalRecord
  | append record => storedForms covered [record]
  | appendBatch records => storedForms covered records
  | appendBuilt build => (build covered).toOption.toList

section Reports
variable {frameLen : WalRecord → Option Nat} {wal after : PersistentRaftWal}

def Mirroring (frameLen : WalRecord → Option Nat) (wal : PersistentRaftWal) : Prop :=
  ∃ shelved active closed file, Mirrors frameLen wal shelved active closed file

theorem enterRecord_persisted {bytes : Nat} {rolled fsync : Bool}
    {expected : Option Nat} {report : WalWriteReport}
    (ran : enterRecord record bytes rolled fsync expected wal = (.ok report, after)) :
    report.hardStatePersisted = record.persisted := by
  unfold enterRecord at ran
  dsimp only at ran
  split at ran <;> cases ran
  rfl

structure Reported (frameLen : WalRecord → Option Nat) (wal after : PersistentRaftWal)
    (records : List WalRecord) (reports : List WalWriteReport) : Prop where
  mirrors : Mirroring frameLen after
  stored : after.disk.files.stored = wal.disk.files.stored ++ records
  answers : reports.map hardStatePersisted = records.map persisted

theorem Mirroring.write (mirroring : Mirroring frameLen wal) {count : Nat}
    {full fsync : Bool} {report : WalWriteReport}
    (ran : writeRecord frameLen record count full fsync wal = (.ok report, after)) :
    Reported frameLen wal after [record] [report] ∧
      after.activeCovered = advanceCovered wal.activeCovered record := by
  obtain ⟨shelved, active, closed, file, mirrors⟩ := mirroring
  have written := mirrors.written ran
  refine ⟨⟨written.mirrors, written.stored, congrArg (fun answer => [answer]) ?_⟩, written.covered⟩
  unfold writeRecord at ran
  dsimp only at ran
  split at ran
  · cases ran
  split at ran
  · cases ran
  split at ran
  · rw [bind_ok mirrors.rollSegment_ok] at ran
    exact enterRecord_persisted ran
  · exact enterRecord_persisted ran

theorem Mirroring.writeBatch (records : List WalRecord) : ∀ {wal after : PersistentRaftWal}
    {reports : List WalWriteReport}, Mirroring frameLen wal →
    writeBatch frameLen records wal = (.ok reports, after) →
    Reported frameLen wal after (storedForms wal.activeCovered records) reports := by
  induction records with
  | nil =>
    intro wal after reports mirroring ran
    cases ran
    exact ⟨mirroring, by simp [storedForms], rfl⟩
  | cons record records ih =>
    intro wal after reports mirroring ran
    unfold PersistentRaftWal.writeBatch at ran
    rcases first : writeRecord frameLen (wal.deltaRecord record) wal.activeRecords
      wal.rollingByCount false wal with ⟨error | report, next⟩ <;> rw [first] at ran
    · cases ran
    obtain ⟨more, rest, rfl⟩ := bind_pure_eq_ok ran
    obtain ⟨one, covered⟩ := mirroring.write first
    have others := ih one.mirrors rest
    rw [covered] at others
    refine ⟨others.mirrors, ?_, congrArg₂ List.append one.answers others.answers⟩
    rw [others.stored, one.stored, List.append_assoc]
    rfl

theorem Appending.reported {appending : Appending} {reports : List WalWriteReport}
    (mirroring : Mirroring frameLen wal)
    (ran : appending.report frameLen wal = (.ok reports, after)) :
    Reported frameLen wal after (appending.stored wal.activeCovered) reports := by
  cases appending with
  | append =>
    obtain ⟨report, wrote, rfl⟩ := bind_pure_eq_ok ran
    exact (mirroring.write wrote).1
  | appendBatch records =>
    simp only [report, PersistentRaftWal.appendBatch] at ran
    split at ran
    · rename_i none
      cases ran
      rw [isEmpty_iff.mp none]
      exact ⟨mirroring, by simp [stored, storedForms], rfl⟩
    rw [bind_apply] at ran
    rcases wrote : PersistentRaftWal.writeBatch frameLen records wal with ⟨_ | written, last⟩ <;>
      rw [wrote] at ran
    · cases ran
    have batch := mirroring.writeBatch records wrote
    dsimp only at ran
    split at ran <;> cases ran
    · obtain ⟨_, _, _, _, mirrors⟩ := batch.mirrors
      refine ⟨⟨_, _, _, _, mirrors.synced⟩, ?_, Eq.trans ?_ batch.answers⟩
      · exact mirrors.synced.stored.trans (mirrors.stored.symm.trans batch.stored)
      · rcases written.eq_nil_or_concat with rfl | ⟨front, report, rfl⟩ <;> simp
    · exact batch
  | appendBuilt build =>
    obtain ⟨report, wrote, rfl⟩ := bind_pure_eq_ok ran
    unfold PersistentRaftWal.appendBuilt at wrote
    simp only [stored]
    rcases built : build wal.activeCovered with error | record <;> rw [built] at wrote
    · cases wrote
    · exact (mirroring.write wrote).1

/-- **Reports.** Their answers are those of the whole records appended exactly when none of
them is stored as an empty tail. -/
theorem reports_agree_iff (mirroring : Mirroring frameLen wal) {appending : Appending}
    {reports : List WalWriteReport} (ran : appending.report frameLen wal = (.ok reports, after)) :
    reports.map hardStatePersisted = (after.records.drop wal.records.length).map persisted ↔
      Speaking ((wal.latestRecord.map entries).getD []) (appending.stored wal.activeCovered) := by
  obtain ⟨⟨_, _, _, _, mirrors'⟩, stored, answers⟩ := appending.reported mirroring ran
  obtain ⟨_, _, _, _, mirrors⟩ := mirroring
  have latest : (wal.latestRecord.map entries).getD []
      = foldWalEntries wal.disk.files.stored := by
    rw [mirrors.latestRecord]
    rcases wal.disk.files.stored.eq_nil_or_concat with none | ⟨front, record, some⟩
    · rw [none]
      rfl
    · rw [some, List.concat_eq_append, foldWalLatestRecord_concat, foldWalEntries_concat]
      rfl
  rw [answers, mirrors'.records, mirrors.records, stored, foldWalRecords, foldWalRecords,
    foldWalRecordsFrom_append, List.drop_left, latest]
  exact persisted_foldWalRecordsFrom _ _

end Reports

def committedOne : WalRecord :=
  { logState [1] with hardState := ⟨1, none, some ⟨1, 1⟩⟩ }

theorem reports_agree_once :
    ∃ reports after, (append committedOne).report (fun _ => some 8)
        (openInner ⟨"wal", 4, 64, 1, true⟩ ⟨[], []⟩) = (.ok reports, after) ∧
      reports.map hardStatePersisted = [true] ∧
      after.records.map persisted = [true] := by
  have opened : Reopened (fun _ => some 8) ⟨[], []⟩
    (openInner ⟨"wal", 4, 64, 1, true⟩ ⟨[], []⟩) := openInner_empty rfl
  have agree := (@reports_agree_iff _ _ _ opened.mirrors (.append committedOne) _ rfl).mpr
    ⟨fun empty => absurd empty.1 (by decide +kernel), trivial⟩
  exact ⟨_, _, rfl, agree.trans (by decide +kernel), by decide +kernel⟩

/-- The same log submitted again: nothing is stored, and the report says its entry is not there. -/
theorem empty_tail_reported : ∃ first wal reports after,
      (append committedOne).report (fun _ => some 8)
        (openInner ⟨"wal", 4, 64, 1, true⟩ ⟨[], []⟩) = (.ok first, wal) ∧
      (append committedOne).report (fun _ => some 8) wal = (.ok reports, after) ∧
      reports.map hardStatePersisted = [false] ∧
      after.latestRecord = some committedOne ∧ committedOne.persisted = true :=
  ⟨_, _, _, _, rfl, rfl, by decide +kernel, by decide +kernel, by decide⟩

end MatrixRaft
