/-
# WalCrash — acknowledged records across a crash

A crash stops an operation between two of its calls on the directory and keeps, of every
file, a prefix that holds at least what was synced.  `Journey` runs the log's operations and
remembers every record they wrote and how many had been acknowledged.
-/
import MatrixRaft.WalCompact

namespace MatrixRaft
open Theory PersistentRaftWal List Attempt Option WalDirectory Cabinet

/-! ## Crashes -/

def SegmentFile.Survives (file left : SegmentFile) : Prop :=
  ∃ kept, file.synced ≤ kept ∧ left.frames = file.frames.take kept

def CrashImage (files left : WalDirectory) : Prop :=
  List.Forall₂ (fun entry entry' => entry'.1 = entry.1 ∧ entry.2.Survives entry'.2) files left

def MidRewrite (files : WalDirectory) (calls : List FileCall) : Prop :=
  ∃ before segmentId after, calls = before ++ .create segmentId :: after ∧
    FileCall.sync segmentId ∉ after ∧
    ∃ file, get segmentId (files.performAll before) = some file ∧ file.frames ≠ []

/-! ## Stores backed by a history -/

structure Backed (stored history : List WalRecord) : Prop where
  latest : foldWalLatestRecord stored = history.getLast?
  committed : ∀ record ∈ stored, ∃ other ∈ history, record.committedIndex = other.committedIndex

structure Restorable (history : List WalRecord) : Prop where
  valid : ∀ record ∈ history, record.recoverable = true
  rising : history.Pairwise fun a b => a.committedIndex ≤ b.committedIndex

theorem Restorable.take {history : List WalRecord} (restorable : Restorable history) (count : Nat) :
    Restorable (history.take count) where
  valid record member := restorable.valid record (mem_of_mem_take member)
  rising := restorable.rising.sublist (take_sublist _ _)

theorem Backed.recovers {stored history : List WalRecord} (backed : Backed stored history)
    (restorable : Restorable history) : (recoverFromWalRecords stored).2 = history.getLast? := by
  rcases stored.eq_nil_or_concat with rfl | ⟨init, last, rfl⟩
  · exact backed.latest
  rw [concat_eq_append] at *
  obtain ⟨latest, committed⟩ := backed
  rcases history.eq_nil_or_concat with rfl | ⟨earlier, whole, rfl⟩
  · grind [foldWalLatestRecord_concat]
  rw [concat_eq_append, getLast?_concat] at *
  refine recover_last latest (restorable.valid whole (by simp)) fun record member => ?_
  have end_ : last.committedIndex = whole.committedIndex := by
    rw [foldWalLatestRecord_concat] at latest
    rw [← Option.some.inj latest]
    rfl
  obtain ⟨other, among, same⟩ := committed record (mem_append_left _ member)
  rw [end_, same]
  rcases mem_append.mp among with before | final
  · exact (pairwise_append.mp restorable.rising).2.2 other before whole mem_cons_self
  · rw [mem_singleton.mp final]

theorem Backed.concat {stored history : List WalRecord} (backed : Backed stored history)
    (record : WalRecord) : Backed (stored ++ [record])
      (history ++ [wholeFromFolded record (foldWalEntriesStep (foldWalEntries stored) record)]) where
  latest := by rw [foldWalLatestRecord_concat, getLast?_concat]
  committed := by
    intro other member
    rcases mem_append.mp member with earlier | last
    · obtain ⟨source, among, same⟩ := backed.committed other earlier
      exact ⟨source, mem_append_left _ among, same⟩
    · rw [mem_singleton.mp last]
      exact ⟨_, mem_append_right _ mem_cons_self, rfl⟩

def Safe (history : List WalRecord) (acknowledged : Nat) (files : WalDirectory) : Prop :=
  ∀ left, CrashImage files left →
    ∃ count, acknowledged ≤ count ∧ count ≤ history.length ∧
      Backed left.stored (history.take count)

theorem Safe.mono {history later : List WalRecord} {acknowledged : Nat} {files : WalDirectory}
    (safe : Safe history acknowledged files) (extends_ : history <+: later) :
    Safe later acknowledged files := by
  obtain ⟨more, rfl⟩ := extends_
  intro left image
  obtain ⟨count, enough, within, backed⟩ := safe left image
  refine ⟨count, enough, by rw [length_append]; omega, ?_⟩
  rwa [take_append_of_le_length within]

def SafeAlong (history : List WalRecord) (acknowledged : Nat) (files : WalDirectory)
    (calls : List FileCall) : Prop :=
  ∀ done, done <+: calls → MidRewrite files done ∨
    Safe history acknowledged (files.performAll done)

section Along
variable {history : List WalRecord} {acknowledged : Nat} {files : WalDirectory}
  {calls more : List FileCall}

theorem SafeAlong.nil (safe : Safe history acknowledged files) :
    SafeAlong history acknowledged files [] := by
  intro done within
  rw [prefix_nil.mp within]
  exact .inr safe

theorem MidRewrite.after (before : List FileCall)
    (mid : MidRewrite (files.performAll before) calls) : MidRewrite files (before ++ calls) := by
  obtain ⟨front, segmentId, after, rfl, unsynced, file, held, records⟩ := mid
  refine ⟨before ++ front, segmentId, after, by simp, unsynced, file, ?_, records⟩
  rwa [performAll_append]

theorem SafeAlong.append (first : SafeAlong history acknowledged files calls)
    (second : SafeAlong history acknowledged (files.performAll calls) more) :
    SafeAlong history acknowledged files (calls ++ more) := by
  intro done within
  obtain ⟨tail, split⟩ := within
  rcases append_eq_append_iff.mp split with ⟨left, early, -⟩ | ⟨rest, rfl, inside⟩
  · exact first done ⟨left, early.symm⟩
  rcases second rest ⟨tail, inside.symm⟩ with mid | safe
  · exact .inl (mid.after calls)
  · rw [performAll_append]
    exact .inr safe

theorem SafeAlong.mono {later : List WalRecord}
    (along : SafeAlong history acknowledged files calls) (extends_ : history <+: later) :
    SafeAlong later acknowledged files calls :=
  fun done within => (along done within).imp_right fun safe => safe.mono extends_

theorem SafeAlong.single {call : FileCall} (before : Safe history acknowledged files)
    (after : Safe history acknowledged (files.perform call)) :
    SafeAlong history acknowledged files [call] := by
  intro done within
  rcases done with _ | ⟨first, rest⟩
  · exact .inr before
  obtain ⟨rfl, inside⟩ := cons_prefix_cons.mp within
  rw [prefix_nil.mp inside]
  exact .inr after

theorem SafeAlong.rewrite {pre post : WalDirectory} {segmentId : Nat} {file : SegmentFile}
    (ascending : Ascending (pre ++ (segmentId, file) :: post)) (held : file.frames ≠ [])
    {records : List WalRecord} (some : records ≠ [])
    (before : Safe history acknowledged (pre ++ (segmentId, file) :: post))
    (after : Safe history acknowledged (pre ++ (segmentId, ⟨records, records.length⟩) :: post)) :
    SafeAlong history acknowledged (pre ++ (segmentId, file) :: post)
      (segmentCalls segmentId records) := by
  have calls : segmentCalls segmentId records
      = .create segmentId :: (records.map (.write segmentId) ++ [.sync segmentId]) := by
    grind [segmentCalls]
  intro done within
  rcases done with _ | ⟨first, rest⟩
  · exact .inr before
  rw [calls] at within
  obtain ⟨rfl, tail, split⟩ := cons_prefix_cons.mp within
  have midway : FileCall.sync segmentId ∉ rest → MidRewrite (pre ++ (segmentId, file) :: post)
      (.create segmentId :: rest) :=
    fun unsynced => ⟨[], segmentId, rest, rfl, unsynced, file, get_append ascending, held⟩
  rcases append_eq_append_iff.mp split with ⟨left, writes, -⟩ | ⟨last, rfl, ending⟩
  · grind
  rcases last with _ | ⟨call, last⟩
  · exact .inl (midway (by simp))
  obtain ⟨rfl, nothing⟩ := List.cons.inj ending
  rw [(append_eq_nil_iff.mp nothing.symm).1, ← calls, performAll_segmentCalls ascending]
  exact .inr after

end Along

/-! ## The invariant -/

structure Durable (frameLen : WalRecord → Option Nat) (wal : PersistentRaftWal)
    (history : List WalRecord) (acknowledged : Nat) (shelved : List WalSegment)
    (active : WalSegment) (closed : WalDirectory) (file : SegmentFile) : Prop where
  mirrors : Mirrors frameLen wal shelved active closed file
  settled : ∀ entry ∈ closed, entry.2.synced = entry.2.frames.length
  bounded : file.synced ≤ file.frames.length
  backed : ∀ kept, file.synced ≤ kept → kept ≤ file.frames.length →
    Backed (closed.stored ++ file.frames.take kept)
      (history.take (history.length - (file.frames.length - kept)))
  acked : acknowledged ≤ history.length - (file.frames.length - file.synced)

section Invariant
variable {frameLen : WalRecord → Option Nat} {wal : PersistentRaftWal} {history : List WalRecord}
  {acknowledged : Nat} {shelved : List WalSegment} {active : WalSegment} {closed : WalDirectory}
  {file : SegmentFile}

theorem CrashImage.settled {left : WalDirectory} (image : CrashImage closed left)
    (settled : ∀ entry ∈ closed, entry.2.synced = entry.2.frames.length) :
    left.stored = closed.stored := by
  induction image with
  | nil => rfl
  | @cons entry entry' _ _ first _ ih =>
    obtain ⟨-, kept, enough, frames⟩ := first
    rw [settled entry mem_cons_self] at enough
    simp [frames, take_of_length_le enough,
      ih fun other member => settled other (mem_cons_of_mem _ member)]

theorem Safe.settled {files : WalDirectory}
    (settled : ∀ entry ∈ files, entry.2.synced = entry.2.frames.length)
    (backed : Backed files.stored history) (acked : acknowledged ≤ history.length) :
    Safe history acknowledged files := by
  intro left image
  refine ⟨history.length, acked, le_refl _, ?_⟩
  rwa [image.settled settled, take_length]

section
variable (durable : Durable frameLen wal history acknowledged shelved active closed file)

include durable

theorem Durable.safe : Safe history acknowledged wal.disk.files := by
  intro left image
  rw [durable.mirrors.files] at image
  obtain ⟨front, back, rfl, fronts, backs⟩ := forall₂_append_split image
  obtain ⟨entry, nothing, ⟨-, kept, enough, frames⟩, none, rfl⟩ := forall₂_cons_left_iff.mp backs
  obtain rfl := forall₂_nil_left_iff.mp none
  have bounded := durable.bounded
  have acked := durable.acked
  replace enough : file.synced ≤ kept := enough
  have backed := durable.backed (min kept file.frames.length) (by omega) (by omega)
  refine ⟨history.length - (file.frames.length - min kept file.frames.length), by omega,
    Nat.sub_le _ _, ?_⟩
  rw [stored_append, CrashImage.settled fronts durable.settled,
    stored_cons, stored_nil, append_nil, frames]
  rwa [← take_take, take_length] at backed

theorem Durable.whole : Backed wal.disk.files.stored history := by
  have backed := durable.backed file.frames.length durable.bounded (le_refl _)
  rwa [take_length, Nat.sub_self, Nat.sub_zero, take_length,
    ← durable.mirrors.stored] at backed

def wholeNext (wal : PersistentRaftWal) (record : WalRecord) : WalRecord :=
  wholeFromFolded record (foldWalEntriesStep (foldWalEntries wal.disk.files.stored) record)

theorem Durable.entered {record : WalRecord} (frame : (frameLen record).isSome) (fsync : Bool)
    (expected : Option Nat) :
    Durable frameLen (entered wal record fsync expected) (history ++ [wholeNext wal record])
      acknowledged shelved (noteRecord record active) closed
      ⟨file.frames ++ [record], if fsync then file.frames.length + 1 else file.synced⟩ := by
  have bounded := durable.bounded
  have acked := durable.acked
  refine ⟨durable.mirrors.entered frame fsync expected, durable.settled, ?_, ?_, ?_⟩
  · grind
  · intro kept enough within
    simp only [length_append, length_singleton] at enough within ⊢
    rcases lt_or_ge file.frames.length kept with full | part
    · obtain rfl : kept = file.frames.length + 1 := by omega
      have everything : (file.frames ++ [record]).take (file.frames.length + 1)
          = file.frames ++ [record] := take_of_length_le (by simp)
      have all : (history ++ [wholeNext wal record]).take
          (history.length + 1 - (file.frames.length + 1 - (file.frames.length + 1)))
          = history ++ [wholeNext wal record] := take_of_length_le (by simp)
      rw [everything, all, ← append_assoc, ← durable.mirrors.stored]
      exact durable.whole.concat record
    · have synced : file.synced ≤ kept := by split at enough <;> omega
      have backed := durable.backed kept synced part
      grind
  · grind

theorem Durable.acknowledge (synced : file.synced = file.frames.length) :
    Durable frameLen wal history history.length shelved active closed file :=
  { durable with acked := by rw [synced, Nat.sub_self, Nat.sub_zero] }

theorem Durable.synced :
    Durable frameLen (wal.issue (.sync wal.activeId)) history acknowledged shelved active closed
      { file with synced := file.frames.length } where
  mirrors := durable.mirrors.synced
  settled := durable.settled
  bounded := le_refl _
  backed kept enough within := durable.backed kept (durable.bounded.trans enough) within
  acked := by
    have acked := durable.acked
    grind

theorem Durable.rolled :
    Durable frameLen (rolled wal shelved active file.frames) history acknowledged
      (shelved ++ [sealedSegment active]) (newSegment wal.nextSegmentId)
      (closed ++ [(active.segmentId, ⟨file.frames, file.frames.length⟩)]) .empty where
  mirrors := durable.mirrors.rolled
  settled := by
    intro entry member
    grind [durable.settled]
  bounded := le_refl _
  backed := by
    intro kept _ within
    have whole := durable.whole
    rw [durable.mirrors.stored] at whole
    simpa [SegmentFile.empty] using whole
  acked := by
    have acked := durable.acked
    simp only [SegmentFile.empty, length_nil, Nat.sub_self, Nat.sub_zero]
    omega

/-! ## One write -/

structure Advances (frameLen : WalRecord → Option Nat) (acknowledged : Nat)
    (wal : PersistentRaftWal) (history : List WalRecord) (wal' : PersistentRaftWal)
    (history' : List WalRecord) : Prop where
  durable : ∃ shelved active closed file,
    Durable frameLen wal' history' acknowledged shelved active closed file
  calls : ∃ calls, wal'.disk = wal.disk.issueAll calls ∧
    SafeAlong history' acknowledged wal.disk.files calls
  grows : history <+: history'
  options : wal'.options = wal.options

theorem Advances.refl : Advances frameLen acknowledged wal history wal history where
  durable := ⟨_, _, _, _, durable⟩
  calls := ⟨[], (Disk.issueAll_nil _).symm, .nil durable.safe⟩
  grows := prefix_refl _
  options := rfl

omit durable in
theorem Advances.trans {wal' wal'' : PersistentRaftWal} {history' history'' : List WalRecord}
    (first : Advances frameLen acknowledged wal history wal' history')
    (second : Advances frameLen acknowledged wal' history' wal'' history'') :
    Advances frameLen acknowledged wal history wal'' history'' where
  durable := second.durable
  calls := by
    obtain ⟨calls, disk, along⟩ := first.calls
    obtain ⟨more, disk', along'⟩ := second.calls
    refine ⟨calls ++ more, by rw [disk', disk, Disk.issueAll_append], ?_⟩
    rw [disk] at along'
    exact (along.mono second.grows).append along'
  grows := first.grows.trans second.grows
  options := second.options.trans first.options

theorem Durable.enter {record : WalRecord} (frame : (frameLen record).isSome) (fsync : Bool)
    (expected : Option Nat) :
    Advances frameLen acknowledged wal history (MatrixRaft.entered wal record fsync expected)
      (history ++ [wholeNext wal record]) where
  durable := ⟨_, _, _, _, durable.entered frame fsync expected⟩
  calls := by
    refine ⟨entryCalls wal.activeId record fsync, rfl, ?_⟩
    have before : Safe (history ++ [wholeNext wal record]) acknowledged wal.disk.files :=
      durable.safe.mono (prefix_append _ _)
    have written := (durable.entered frame false expected).safe
    have along : SafeAlong (history ++ [wholeNext wal record]) acknowledged wal.disk.files
        [.write wal.activeId record] := .single before written
    cases fsync with
    | false => exact along
    | true => exact along.append (.single written (durable.entered frame true expected).safe)
  grows := prefix_append _ _
  options := rfl

theorem Durable.roll (held : file.frames ≠ []) :
    Advances frameLen acknowledged wal history (MatrixRaft.rolled wal shelved active file.frames)
      history where
  durable := ⟨_, _, _, _, durable.rolled⟩
  calls := by
    refine ⟨rollCalls active.segmentId wal.nextSegmentId file.frames, rfl, ?_⟩
    have ascending := durable.mirrors.ascending
    have before := durable.safe
    have whole := durable.whole
    have acked : acknowledged ≤ history.length := by
      have := durable.acked
      omega
    rw [durable.mirrors.stored] at whole
    rw [durable.mirrors.files] at before ⊢
    set kept : WalDirectory := closed ++ [(active.segmentId, ⟨file.frames, file.frames.length⟩)]
      with kept_eq
    have settled := durable.rolled.settled
    have synced : Safe history acknowledged kept :=
      .settled settled (by simpa [kept_eq] using whole) acked
    have top : ∀ entry ∈ kept, entry.1 < wal.nextSegmentId :=
      durable.mirrors.rolled.ascending.below
    have created : perform kept (.create wal.nextSegmentId)
        = kept ++ [(wal.nextSegmentId, .empty)] := put_top top
    have grown : Safe history acknowledged (kept ++ [(wal.nextSegmentId, .empty)]) := by
      refine .settled ?_ (by simpa [kept_eq, SegmentFile.empty] using whole) acked
      intro entry member
      rcases mem_append.mp member with earlier | last
      · exact settled entry earlier
      · rw [mem_singleton.mp last]
        rfl
    have opened : perform (kept ++ [(wal.nextSegmentId, .empty)])
        (.openForAppend wal.nextSegmentId) = kept ++ [(wal.nextSegmentId, .empty)] :=
      perform_openForAppend durable.mirrors.rolled.ascending
    refine (SafeAlong.rewrite ascending held held before synced).append ?_
    rw [performAll_segmentCalls ascending]
    refine (SafeAlong.single synced (by rwa [created])).append ?_
    simpa [created] using .single grown (by rwa [opened])
  grows := prefix_refl _
  options := rfl

def Settled (wal : PersistentRaftWal) : Prop :=
  ∀ entry ∈ wal.disk.files, entry.2.synced = entry.2.frames.length

theorem Durable.active_settled (settled : Settled wal) : file.synced = file.frames.length :=
  settled (active.segmentId, file) (by rw [durable.mirrors.files]; simp)

theorem Durable.to_settled (synced : file.synced = file.frames.length) : Settled wal := by
  intro entry member
  grind [durable.mirrors.files, durable.settled]

structure Appended (frameLen : WalRecord → Option Nat) (acknowledged : Nat)
    (wal : PersistentRaftWal) (history : List WalRecord) (wal' : PersistentRaftWal)
    (written : List WalRecord) : Prop where
  advances : Advances frameLen acknowledged wal history wal' (history ++ written)
  filled : Filled frameLen wal'
  records : wal'.records = wal.records ++ written

theorem Appended.refl
    (filled : Filled frameLen wal) : Appended frameLen acknowledged wal history wal [] where
  advances := by rw [append_nil]; exact .refl durable
  filled := filled
  records := (append_nil _).symm

omit durable in
theorem Appended.trans {wal' wal'' : PersistentRaftWal} {written written' : List WalRecord}
    (first : Appended frameLen acknowledged wal history wal' written)
    (second : Appended frameLen acknowledged wal' (history ++ written) wal'' written') :
    Appended frameLen acknowledged wal history wal'' (written ++ written') where
  advances := by rw [← append_assoc]; exact first.advances.trans second.advances
  filled := second.filled
  records := by rw [second.records, first.records, append_assoc]

/-- **One write** is refused, or goes on by one record. -/
theorem Durable.write (filled : Filled frameLen wal) (record : WalRecord) (fsync : Bool) :
    (∃ error, writeRecord frameLen record wal.activeRecords wal.rollingByCount fsync wal
      = (.error error, wal)) ∨
    ∃ report wal', writeRecord frameLen record wal.activeRecords wal.rollingByCount fsync wal
        = (.ok report, wal') ∧
      Appended frameLen acknowledged wal history wal' [wholeNext wal record] ∧
      (fsync = true → Settled wal') := by
  have after := filled.write record fsync
  have mirrors := durable.mirrors
  rcases mirrors.writeRecord_cases record wal.activeRecords wal.rollingByCount fsync with
    ⟨_, _, _, moved⟩ | ⟨_, refused⟩ | ⟨report, bytes, frame, stays | ⟨rolls, why⟩⟩
  · exact .inl ⟨_, moved⟩
  · exact .inl ⟨_, refused⟩
  · rw [stays] at after
    have entered := durable.entered (isSome_of_mem frame) fsync
      (some (wal.activeLen frameLen + bytes))
    refine .inr ⟨report, _, stays, ⟨durable.enter (isSome_of_mem frame) fsync _, after, ?_⟩,
      fun on => entered.to_settled (by simp [on])⟩
    rw [entered.mirrors.records, entered.mirrors.stored, mirrors.records, ← append_assoc,
      ← mirrors.stored, foldWalRecords_concat]
    rfl
  · rw [rolls] at after
    have rolled := durable.rolled
    have entered := rolled.entered (isSome_of_mem frame) fsync none
    have same : wholeNext (MatrixRaft.rolled wal shelved active file.frames) record
        = wholeNext wal record := by
      rw [wholeNext, mirrors.rolled_stored, wholeNext]
    have entering := rolled.enter (isSome_of_mem frame) fsync none
    rw [same] at entering
    refine .inr ⟨report, _, rolls, ⟨(durable.roll (mirrors.rolls_full filled.1 why)).trans entering,
      after, ?_⟩, fun on => entered.to_settled (by simp [on])⟩
    rw [entered.mirrors.records, entered.mirrors.stored, mirrors.records, ← append_assoc,
      ← rolled.mirrors.stored, mirrors.rolled_stored, foldWalRecords_concat]
    rfl

omit durable in
theorem Durable.of_settled (mirrors : Mirrors frameLen wal shelved active closed file)
    (settled : Settled wal) (backed : Backed wal.disk.files.stored history)
    (acked : acknowledged ≤ history.length) :
    Durable frameLen wal history acknowledged shelved active closed file := by
  have synced : file.synced = file.frames.length :=
    settled (active.segmentId, file) (by rw [mirrors.files]; simp)
  refine ⟨mirrors, ?_, synced.le, ?_, ?_⟩
  · exact fun entry member => settled entry (by rw [mirrors.files]; simp [member])
  · intro kept enough within
    obtain rfl : kept = file.frames.length := by omega
    rwa [take_length, Nat.sub_self, Nat.sub_zero, take_length, ← mirrors.stored]
  · rwa [synced, Nat.sub_self, Nat.sub_zero]

theorem Durable.transport {wal' : PersistentRaftWal} (same : wal'.disk.files = wal.disk.files)
    {shelved' : List WalSegment} {active' : WalSegment} {closed' : WalDirectory}
    {file' : SegmentFile} (mirrors' : Mirrors frameLen wal' shelved' active' closed' file') :
    Durable frameLen wal' history acknowledged shelved' active' closed' file' := by
  have files := mirrors'.files.symm.trans (same.trans durable.mirrors.files)
  obtain ⟨rfl, last⟩ := append_inj' files rfl
  obtain ⟨-, rfl⟩ := Prod.mk.inj (List.cons.inj last).1
  exact { durable with mirrors := mirrors' }

/-! ## Operations -/

theorem Durable.writeBatch (filled : Filled frameLen wal) (records : List WalRecord) :
    ∃ written, Appended frameLen acknowledged wal history (writeBatch frameLen records wal).2 written := by
  induction records generalizing wal history shelved active closed file with
  | nil => exact ⟨[], .refl durable filled⟩
  | cons record records ih =>
    unfold PersistentRaftWal.writeBatch
    rcases durable.write filled (wal.deltaRecord record) false with
      ⟨error, refused⟩ | ⟨report, wal', ran, first, -⟩
    · rw [refused]
      exact ⟨[], .refl durable filled⟩
    rw [ran]
    obtain ⟨_, _, _, _, durable'⟩ := first.advances.durable
    obtain ⟨written, rest⟩ := ih durable' first.filled
    refine ⟨[wholeNext wal (wal.deltaRecord record)] ++ written, ?_⟩
    have state := bind_pure_state (PersistentRaftWal.writeBatch frameLen records)
      (fun reports => report :: reports) wal'
    rw [state]
    exact first.trans rest

theorem Durable.sync (filled : Filled frameLen wal) :
    Appended frameLen acknowledged wal history (wal.issue (.sync wal.activeId)) [] ∧
      Settled (wal.issue (.sync wal.activeId)) := by
  have synced := durable.synced
  refine ⟨⟨?_, filled.synced, ?_⟩, synced.to_settled rfl⟩
  · rw [append_nil]
    have after : Safe history acknowledged
        (perform wal.disk.files (.sync wal.activeId)) := synced.safe
    exact ⟨⟨_, _, _, _, synced⟩, ⟨[.sync wal.activeId], rfl, .single durable.safe after⟩,
      prefix_refl _, rfl⟩
  · rw [append_nil, synced.mirrors.records, durable.mirrors.records, synced.mirrors.stored,
      durable.mirrors.stored]

/-- **An append** of any kind goes on by the records it wrote; if it succeeds and wrote
something, everything is synced. -/
theorem Durable.append (filled : Filled frameLen wal) (fsyncs : wal.options.fsyncOnAppend = true)
    (appending : Appending) :
    ∃ written, Appended frameLen acknowledged wal history (appending.perform frameLen wal).2 written ∧
      ((appending.perform frameLen wal).1 = .ok () → written ≠ [] →
        Settled (appending.perform frameLen wal).2) := by
  have one : ∀ record, ∃ written, Appended frameLen acknowledged wal history
      (writeRecord frameLen record wal.activeRecords wal.rollingByCount
        wal.options.fsyncOnAppend wal).2 written ∧
      (written ≠ [] → Settled (writeRecord frameLen record wal.activeRecords wal.rollingByCount
        wal.options.fsyncOnAppend wal).2) := by
    intro record
    rcases durable.write filled record wal.options.fsyncOnAppend with
      ⟨error, refused⟩ | ⟨report, wal', ran, appended, settled⟩
    · rw [refused]
      exact ⟨[], .refl durable filled, fun some => absurd rfl some⟩
    · grind
  have forget {α : Type} (m : WalM α) :
      ((m >>= fun _ => (pure () : WalM Unit)) wal).2 = (m wal).2 :=
    bind_pure_state m (fun _ => ()) wal
  cases appending with
  | append record =>
    obtain ⟨written, appended, settled⟩ := one (wal.deltaRecord record)
    refine ⟨written, ?_, fun _ some => ?_⟩ <;> rw [Appending.perform, forget]
    · exact appended
    · exact settled some
  | appendBatch records =>
    obtain ⟨written, appended⟩ := durable.writeBatch filled records
    rw [Appending.perform, appendBatch]
    split
    · exact ⟨[], .refl durable filled, fun _ some => absurd rfl some⟩
    rcases ran : PersistentRaftWal.writeBatch frameLen records wal with ⟨error | reports, wal'⟩ <;>
      rw [ran] at appended
    · grind [bind_error]
    · obtain ⟨_, _, _, _, durable'⟩ := appended.advances.durable
      obtain ⟨synced, settled⟩ := durable'.sync appended.filled
      have on : wal'.options.fsyncOnAppend = true :=
        (congrArg PersistentRaftWalOptions.fsyncOnAppend appended.advances.options).trans fsyncs
      rw [forget, bind_ok ran, if_pos on]
      exact ⟨written ++ [], appended.trans synced, fun _ _ => settled⟩
  | appendBuilt build =>
    rw [Appending.perform, forget]
    unfold appendBuilt
    rcases build wal.activeCovered with error | record
    · exact ⟨[], .refl durable filled, fun _ some => absurd rfl some⟩
    · obtain ⟨written, appended, settled⟩ := one record
      exact ⟨written, appended, fun _ => settled⟩

end

def OldestDropped (wal : PersistentRaftWal) (logIndex : Nat) : Prop :=
  ∃ front back, wal.segments = front ++ back ∧
    (∀ segment ∈ front, segment.segmentId ∈ wal.removableIds logIndex) ∧
    ∀ segment ∈ back, segment.segmentId ∉ wal.removableIds logIndex

section Dropping
variable {removable : List Nat} {front rest : List WalSegment} {segment : WalSegment}
  {pre post : WalDirectory} {entry : Nat × SegmentFile}

theorem Survivor.backed (survivor : Survivor wal removable front segment rest pre entry post)
    (held : entry.2.frames ≠ []) (backed : Backed wal.disk.files.stored history)
    {pre' : WalDirectory} (fewer : ∀ file ∈ pre', file ∈ pre) (synced : Nat) :
    Backed (stored (pre'
      ++ (entry.1, ⟨firstWhole pre.stored entry.2.frames, synced⟩) :: post)) history where
  latest := by
    obtain ⟨head, more, frames⟩ := exists_cons_of_ne_nil held
    have wholeHead : ∃ record ∈ firstWhole pre.stored entry.2.frames ++ post.stored,
        record.entriesAreDelta = false := by
      rw [frames, firstWhole, cons_append]
      refine ⟨_, mem_cons_self, ?_⟩
      split
      · rfl
      · next whole => simpa using whole
    obtain ⟨record, member, whole⟩ := wholeHead
    rw [← backed.latest, survivor.files, stored_append, stored_cons,
      stored_append, stored_cons, ← append_assoc pre.stored,
      ← foldWalLatestRecord_firstWhole _ _ _ held]
    exact @foldWalLatestRecord_common pre'.stored [] _ record member whole
  committed := by
    intro record member
    obtain ⟨file, among, inside⟩ := mem_flatMap.mp member
    have source : ∀ other ∈ wal.disk.files.stored, ∃ known ∈ history,
        other.committedIndex = known.committedIndex := backed.committed
    rw [survivor.files] at source
    rcases mem_append.mp among with earlier | here
    · exact source record (mem_flatMap.mpr
        ⟨file, mem_append_left _ (fewer file earlier), inside⟩)
    rcases mem_cons.mp here with rfl | later
    · obtain ⟨other, original, same⟩ := firstWhole_committed inside
      obtain ⟨known, recorded, same'⟩ := source other (mem_flatMap.mpr
        ⟨entry, mem_append_right _ mem_cons_self, original⟩)
      exact ⟨known, recorded, same.trans same'⟩
    · exact source record (mem_flatMap.mpr
        ⟨file, mem_append_right _ (mem_cons_of_mem _ later), inside⟩)

theorem Survivor.performAll_materialize
    (survivor : Survivor wal removable front segment rest pre entry post)
    (ascending : Ascending wal.disk.files) (settled : Settled wal) :
    wal.disk.files.performAll (materializeCalls entry.1 pre.stored entry.2.frames)
      = pre ++ (entry.1, ⟨firstWhole pre.stored entry.2.frames, entry.2.frames.length⟩) :: post := by
  unfold materializeCalls
  split
  · grind [survivor.files, performAll_segmentCalls, firstWhole_length]
  next whole =>
    have same : firstWhole pre.stored entry.2.frames = entry.2.frames := by
      rcases frames : entry.2.frames with _ | ⟨head, more⟩
      · rfl
      · rw [frames, head?_cons, any_some] at whole
        rw [firstWhole, if_neg whole]
    have synced : entry.2.synced = entry.2.frames.length :=
      settled entry (by rw [survivor.files]; simp)
    rw [same, ← synced, performAll_nil, survivor.files]

end Dropping

section
variable (durable : Durable frameLen wal history acknowledged shelved active closed file)
  (filled : Filled frameLen wal)
include durable filled

/-- **Compaction** of a synced log whose oldest segments go is safe throughout. -/
theorem Durable.compact (settled : Settled wal) {logIndex : Nat}
    (oldest : OldestDropped wal logIndex)
    (fits : ∀ record ∈ wal.records, (frameLen record).isSome) :
    Advances frameLen acknowledged wal history (compactThrough frameLen logIndex wal).2 history ∧
      Filled frameLen (compactThrough frameLen logIndex wal).2 := by
  have mirrors := durable.mirrors
  rcases mirrors.compact_cases (minKeepSegments_pos filled.1) logIndex fun whole stored =>
      fits whole (mirrors.materialized_mem (minKeepSegments_pos filled.1) stored) with unchanged |
    ⟨front, segment, rest, pre, entry, post, synced, wal', some, survivor, ran, mirrors', options',
      disk', files'⟩
  · rw [unchanged]
    exact ⟨.refl durable, filled⟩
  rw [ran]
  set removable := wal.removableIds logIndex
  have full := filled.full some
  have held : entry.2.frames ≠ [] := full entry (by rw [survivor.files]; simp)
  have acked : acknowledged ≤ history.length := by
    have := durable.acked
    omega
  -- the first segment that stays is where the dropped ones end
  obtain ⟨front', back, split, gone, stay⟩ := oldest
  have tail : back = segment :: rest := by
    rcases append_eq_append_iff.mp (survivor.segments.symm.trans split) with
      ⟨between, rfl, tail⟩ | ⟨between, rfl, tail⟩ <;> rcases between with _ | ⟨first, between⟩
    · exact tail.symm
    · obtain ⟨rfl, rfl⟩ := List.cons.inj tail
      exact absurd (gone segment (by simp)) survivor.stays
    · exact tail
    · exact absurd (survivor.dropped first (by simp)) (stay first (by rw [tail]; exact mem_cons_self))
  have later : (post.filter fun entry => !removable.contains entry.1) = post :=
    filter_kept (survivor.rests.imp fun _ _ both => both.1)
      fun other member => stay other (tail ▸ mem_cons_of_mem _ member)
  have ascending : Ascending wal.disk.files := mirrors.files ▸ mirrors.ascending
  set made : Nat × SegmentFile :=
    (entry.1, ⟨firstWhole pre.stored entry.2.frames, entry.2.frames.length⟩) with made_eq
  have materialized : wal.disk.files.performAll
      (materializeCalls entry.1 pre.stored entry.2.frames) = pre ++ made :: post :=
    survivor.performAll_materialize ascending settled
  have among : ∀ file ∈ pre ++ post, file ∈ wal.disk.files := by
    intro file member
    rw [survivor.files]
    grind
  -- whatever of the older files is still there, the directory is synced and backed
  have synced' : ∀ pre' : WalDirectory, (∀ file ∈ pre', file ∈ pre) →
      ∀ file ∈ pre' ++ made :: post, file.2.synced = file.2.frames.length := by
    intro pre' fewer file member
    rcases mem_append.mp member with before | here
    · exact settled file (among file (mem_append_left _ (fewer file before)))
    rcases mem_cons.mp here with rfl | after
    · exact (firstWhole_length _ _).symm
    · exact settled file (among file (mem_append_right _ after))
  have backed' : ∀ pre' : WalDirectory, (∀ file ∈ pre', file ∈ pre) →
      Backed (stored (pre' ++ made :: post)) history :=
    fun pre' fewer => survivor.backed held durable.whole fewer _
  have safe : ∀ pre' : WalDirectory, (∀ file ∈ pre', file ∈ pre) →
      Safe history acknowledged (pre' ++ made :: post) :=
    fun pre' fewer => .settled (synced' pre' fewer) (backed' pre' fewer) acked
  have removed : ∀ ids : List Nat, (∀ id ∈ ids, id ∈ removable) →
      performAll (pre ++ made :: post) (ids.map .remove)
        = (pre.filter fun entry => !ids.contains entry.1) ++ made :: post := by
    intro ids dropped
    have kept : ∀ file ∈ made :: post, (!ids.contains file.1) = true := by
      intro file member
      have stays : file.1 ∉ removable := by
        rcases mem_cons.mp member with rfl | after
        · exact survivor.named ▸ survivor.stays
        · grind
      simpa using fun gone => stays (dropped file.1 gone)
    grind [performAll_removes, filter_eq_self]
  have fewer (ids : List Nat) : ∀ file ∈ pre.filter fun entry => !ids.contains entry.1, file ∈ pre :=
    fun file member => (mem_filter.mp member).1
  have remaining : wal'.disk.files
      = (pre.filter fun entry => !removable.contains entry.1) ++ made :: post := by
    rw [disk']
    show performAll wal.disk.files _ = _
    rw [performAll_append, materialized, removed removable fun id member => member]
  obtain ⟨shelved', active', closed', file', mirrors'⟩ := mirrors'
  have after : Durable frameLen wal' history acknowledged shelved' active' closed' file' :=
    .of_settled mirrors' (fun file member => synced' _ (fewer removable) file (remaining ▸ member))
      (remaining ▸ backed' _ (fewer removable)) acked
  refine ⟨⟨⟨_, _, _, _, after⟩, ⟨_, disk', ?_⟩, prefix_refl _, options'⟩, ?_⟩
  · refine SafeAlong.append ?_ ?_
    · unfold materializeCalls
      split
      · have before := durable.safe
        rw [survivor.files] at before ascending ⊢
        refine .rewrite ascending held ?_ before ?_
        · grind [firstWhole_length]
        · rw [firstWhole_length]
          exact safe pre fun file member => member
      · exact .nil durable.safe
    · rintro done ⟨undone, split⟩
      obtain ⟨ids, others, halves, rfl, -⟩ := map_eq_append_iff.mp split.symm
      grind
  · have nonempty : ∀ file ∈ wal'.disk.files, file.2.frames ≠ [] := by
      intro file member
      rw [remaining] at member
      rcases mem_append.mp member with before | here
      · grind
      rcases mem_cons.mp here with rfl | after
      · grind
      · grind
    rw [mirrors'.files] at nonempty
    exact ⟨options' ▸ filled.1, shelved', active', closed', file', mirrors',
      fun file member => nonempty file (mem_append_left _ member),
      fun none => absurd none (nonempty _ (mem_append_right _ mem_cons_self))⟩

theorem Durable.reopen :
    Advances frameLen acknowledged wal history (openInner wal.options wal.disk) history ∧
      Filled frameLen (openInner wal.options wal.disk) := by
  have mirrors := durable.mirrors
  have ascending : Ascending wal.disk.files := mirrors.files ▸ mirrors.ascending
  have reopened : Reopened frameLen wal.disk (openInner wal.options wal.disk) :=
    openInner_reopened ascending mirrors.fits
  obtain ⟨shelved', active', closed', file', mirrors'⟩ := reopened.mirrors
  have same : (openInner wal.options wal.disk).disk.files = wal.disk.files :=
    reopened.files_eq (by rw [mirrors.files]; simp)
  have after := durable.transport same mirrors'
  refine ⟨⟨⟨_, _, _, _, after⟩, ⟨_, reopened.disk_eq, ?_⟩, prefix_refl _, rfl⟩, ?_⟩
  · refine .single durable.safe ?_
    have safe := after.safe
    rw [reopened.disk_eq] at safe
    exact safe
  · obtain ⟨valid, _, _, _, _, known, full, started⟩ := filled
    have files := mirrors'.files.symm.trans (same.trans known.files)
    obtain ⟨rfl, last⟩ := append_inj' files rfl
    obtain ⟨-, rfl⟩ := Prod.mk.inj (List.cons.inj last).1
    exact ⟨valid, _, _, _, _, mirrors', full, started⟩

end

end Invariant

/-! ## Runs -/

inductive WalOp where
  | append (appending : Appending)
  | compactThrough (logIndex : Nat)
  | reopen

namespace WalOp

def perform (frameLen : WalRecord → Option Nat) : WalOp → WalM Unit
  | append appending => appending.perform frameLen
  | compactThrough logIndex =>
    PersistentRaftWal.compactThrough frameLen logIndex >>= fun _ => pure ()
  | reopen => Attempt.update fun wal => openInner wal.options wal.disk

def written (before after : PersistentRaftWal) : WalOp → List WalRecord
  | append _ => after.records.drop before.records.length
  | _ => []

def Calm (frameLen : WalRecord → Option Nat) (wal : PersistentRaftWal) : WalOp → Prop
  | compactThrough logIndex => OldestDropped wal logIndex ∧ Settled wal ∧
      ∀ record ∈ wal.records, (frameLen record).isSome
  | _ => True

end WalOp

/-- A log with every record written to it, whole, and the number of those that appends had
returned success for. -/
structure Journey where
  wal : PersistentRaftWal
  history : List WalRecord
  acknowledged : Nat

namespace Journey

def start (options : PersistentRaftWalOptions) (disk : Disk) : Journey where
  wal := openInner options disk
  history := []
  acknowledged := 0

def step (frameLen : WalRecord → Option Nat) (journey : Journey) (op : WalOp) : Journey :=
  let result := op.perform frameLen journey.wal
  let written := op.written journey.wal result.2
  let history := journey.history ++ written
  { wal := result.2
    history := history
    acknowledged :=
      if result.1.isOk && !written.isEmpty then history.length else journey.acknowledged }

def run (frameLen : WalRecord → Option Nat) (journey : Journey) (ops : List WalOp) : Journey :=
  ops.foldl (step frameLen) journey

def callsOf (frameLen : WalRecord → Option Nat) (journey : Journey) (op : WalOp) : List FileCall :=
  (journey.step frameLen op).wal.disk.calls.drop journey.wal.disk.calls.length

/-- The invariant of a run. -/
structure Sound (frameLen : WalRecord → Option Nat) (journey : Journey) : Prop where
  fsyncs : journey.wal.options.fsyncOnAppend = true
  filled : Filled frameLen journey.wal
  durable : ∃ shelved active closed file, Durable frameLen journey.wal journey.history
    journey.acknowledged shelved active closed file

variable {frameLen : WalRecord → Option Nat} {journey : Journey} {op : WalOp}

/-- **One operation** keeps the invariant, and the directory is safe all along it. -/
theorem Sound.step (sound : journey.Sound frameLen) (calm : op.Calm frameLen journey.wal) :
    (journey.step frameLen op).Sound frameLen ∧
    SafeAlong (journey.step frameLen op).history journey.acknowledged journey.wal.disk.files
      (journey.callsOf frameLen op) := by
  obtain ⟨fsyncs, filled, shelved, active, closed, file, durable⟩ := sound
  -- it is enough to know what the operation does to log and history
  have enough : ∀ written, op.written journey.wal (op.perform frameLen journey.wal).2 = written →
      Advances frameLen journey.acknowledged journey.wal journey.history
        (op.perform frameLen journey.wal).2 (journey.history ++ written) →
      Filled frameLen (op.perform frameLen journey.wal).2 →
      ((op.perform frameLen journey.wal).1.isOk = true → written ≠ [] →
        Settled (op.perform frameLen journey.wal).2) →
      (journey.step frameLen op).Sound frameLen ∧
      SafeAlong (journey.step frameLen op).history journey.acknowledged journey.wal.disk.files
        (journey.callsOf frameLen op) := by
    rintro written same advances filled' settled
    obtain ⟨calls, disk, along⟩ := advances.calls
    obtain ⟨_, _, _, _, durable'⟩ := advances.durable
    have history : (journey.step frameLen op).history = journey.history ++ written := by
      rw [← same]
      rfl
    have made : journey.callsOf frameLen op = calls := by
      show ((op.perform frameLen journey.wal).2.disk.calls).drop _ = _
      rw [disk]
      exact drop_left
    refine ⟨⟨?_, filled', ?_⟩, by rw [history, made]; exact along⟩
    · exact (congrArg PersistentRaftWalOptions.fsyncOnAppend advances.options).trans fsyncs
    rw [history]
    show ∃ shelved active closed file, Durable frameLen (op.perform frameLen journey.wal).2
      (journey.history ++ written)
      (if (op.perform frameLen journey.wal).1.isOk &&
          !(op.written journey.wal (op.perform frameLen journey.wal).2).isEmpty then
        (journey.history ++ op.written journey.wal (op.perform frameLen journey.wal).2).length
        else journey.acknowledged) shelved active closed file
    rw [same]
    split
    · next both =>
        simp only [Bool.and_eq_true, Bool.not_eq_true', isEmpty_eq_false_iff] at both
        exact ⟨_, _, _, _, durable'.acknowledge (durable'.active_settled (settled both.1 both.2))⟩
    · exact ⟨_, _, _, _, durable'⟩
  cases op with
  | append appending =>
    obtain ⟨written, appended, settled⟩ := durable.append filled fsyncs appending
    refine enough written ?_ appended.advances appended.filled ?_
    · show ((appending.perform frameLen journey.wal).2.records).drop _ = _
      rw [appended.records]
      exact drop_left
    · intro ok
      refine settled ?_
      revert ok
      show (appending.perform frameLen journey.wal).1.isOk = true → _
      rcases (appending.perform frameLen journey.wal).1 with error | ⟨⟩
      · intro impossible
        cases impossible
      · exact fun _ => rfl
  | compactThrough logIndex =>
    obtain ⟨oldest, settled, fits⟩ := calm
    obtain ⟨advances, filled'⟩ := durable.compact filled settled oldest fits
    have state : ((WalOp.compactThrough logIndex).perform frameLen journey.wal).2
        = (PersistentRaftWal.compactThrough frameLen logIndex journey.wal).2 :=
      bind_pure_state _ _ _
    refine enough [] rfl ?_ (state ▸ filled') fun _ some => absurd rfl some
    grind
  | reopen =>
    obtain ⟨advances, filled'⟩ := durable.reopen filled
    refine enough [] rfl ?_ filled' fun _ some => absurd rfl some
    rw [append_nil]
    exact advances

def CalmRun (frameLen : WalRecord → Option Nat) (journey : Journey) (ops : List WalOp) : Prop :=
  ∀ front op back, ops = front ++ op :: back → op.Calm frameLen (journey.run frameLen front).wal

theorem Sound.run (sound : journey.Sound frameLen) {ops : List WalOp}
    (calm : journey.CalmRun frameLen ops) : (journey.run frameLen ops).Sound frameLen := by
  induction ops generalizing journey with
  | nil => exact sound
  | cons op ops ih =>
    refine ih (sound.step (calm [] op ops rfl)).1 ?_
    rintro front next back rfl
    exact calm (op :: front) next back rfl

end Journey

end MatrixRaft
