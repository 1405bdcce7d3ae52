/-
# WalShape — what the log in memory knows of its directory

`Mirrors` ties the segments a log keeps in memory to the files it writes: the last
segment is open and holds its file's records, the others are sealed and hold none.
Every operation keeps it, and says what it does to the records on disk.
-/
import MatrixRaft.WalFold

namespace MatrixRaft
open Theory PersistentRaftWal List Attempt Option Cabinet

/-! ## Calls on the directory -/

variable (files : WalDirectory)

def WalDirectory.stored : List WalRecord :=
  files.flatMap fun entry => entry.2.frames

def WalDirectory.performAll (calls : List FileCall) : WalDirectory :=
  calls.foldl WalDirectory.perform files

def Disk.issueAll (disk : Disk) (calls : List FileCall) : Disk :=
  { files := disk.files.performAll calls, calls := disk.calls ++ calls }

@[simp] theorem Disk.issueAll_nil (disk : Disk) : disk.issueAll [] = disk := by
  simp [Disk.issueAll, WalDirectory.performAll]

theorem Disk.issueAll_append (disk : Disk) (front back : List FileCall) :
    disk.issueAll (front ++ back) = (disk.issueAll front).issueAll back := by
  simp [Disk.issueAll, WalDirectory.performAll]

theorem Disk.issue_eq (disk : Disk) (call : FileCall) : disk.issue call = disk.issueAll [call] :=
  rfl

namespace WalDirectory

@[simp] theorem stored_append (front back : WalDirectory) :
    stored (front ++ back) = stored front ++ stored back := flatMap_append

@[simp] theorem stored_cons (entry : Nat × SegmentFile) (files : WalDirectory) :
    stored (entry :: files) = entry.2.frames ++ stored files := flatMap_cons

@[simp] theorem stored_nil : stored [] = [] := rfl

@[simp] theorem performAll_nil : files.performAll [] = files := rfl

@[simp] theorem performAll_cons (call : FileCall) (calls : List FileCall) :
    files.performAll (call :: calls) = (files.perform call).performAll calls := rfl

theorem performAll_append (front back : List FileCall) :
    files.performAll (front ++ back) = (files.performAll front).performAll back :=
  foldl_append

variable {pre post : WalDirectory} {segmentId : Nat} {file : SegmentFile}

section
variable (ascending : Ascending (pre ++ (segmentId, file) :: post))

include ascending

theorem perform_create : perform (pre ++ (segmentId, file) :: post) (.create segmentId)
      = pre ++ (segmentId, .empty) :: post := put_append ascending

theorem perform_write (record : WalRecord) :
    perform (pre ++ (segmentId, file) :: post) (.write segmentId record)
      = pre ++ (segmentId, { file with frames := file.frames ++ [record] }) :: post := by
  rw [perform, change_append ascending]

theorem perform_sync : perform (pre ++ (segmentId, file) :: post) (.sync segmentId)
      = pre ++ (segmentId, { file with synced := file.frames.length }) :: post := by
  rw [perform, change_append ascending]

theorem perform_openForAppend :
    perform (pre ++ (segmentId, file) :: post) (.openForAppend segmentId)
      = pre ++ (segmentId, file) :: post := by
  simp only [perform, get_append ascending]

theorem performAll_writes (records : List WalRecord) :
    performAll (pre ++ (segmentId, file) :: post) (records.map (FileCall.write segmentId))
      = pre ++ (segmentId, { file with frames := file.frames ++ records }) :: post := by
  induction records generalizing file with
  | nil => simp
  | cons record records ih => simp [perform_write ascending, ih ascending.replace]

end
end WalDirectory

variable (segmentId : Nat)

def segmentCalls (records : List WalRecord) : List FileCall :=
  .create segmentId :: records.map (.write segmentId)
    ++ if records.isEmpty then [] else [.sync segmentId]

open WalDirectory in
theorem performAll_segmentCalls {pre post : WalDirectory} {segmentId : Nat} {file : SegmentFile}
    (ascending : Ascending (pre ++ (segmentId, file) :: post)) (records : List WalRecord) :
    performAll (pre ++ (segmentId, file) :: post) (segmentCalls segmentId records)
      = pre ++ (segmentId, ⟨records, records.length⟩) :: post := by
  have emptied : Ascending (pre ++ (segmentId, SegmentFile.empty) :: post) :=
    ascending.replace
  rw [segmentCalls, cons_append, performAll_cons, perform_create ascending,
    performAll_append, performAll_writes emptied]
  cases records with
  | nil => simp [SegmentFile.empty]
  | cons => simp [perform_sync emptied.replace, SegmentFile.empty]

/-! ## The invariant -/

structure Shelved (segment : WalSegment) (entry : Nat × SegmentFile) : Prop where
  named : segment.segmentId = entry.1
  closed : segment.isSealed = true
  released : segment.records = []
  counted : segment.recordCount = entry.2.frames.length

structure Open (segment : WalSegment) (entry : Nat × SegmentFile) : Prop where
  named : segment.segmentId = entry.1
  opened : segment.isSealed = false
  held : segment.records = entry.2.frames
  counted : segment.recordCount = entry.2.frames.length

structure Mirrors (frameLen : WalRecord → Option Nat) (wal : PersistentRaftWal)
    (shelved : List WalSegment) (active : WalSegment) (closed : WalDirectory)
    (file : SegmentFile) : Prop where
  segments : wal.segments = shelved ++ [active]
  files : wal.disk.files = closed ++ [(active.segmentId, file)]
  ascending : Ascending (closed ++ [(active.segmentId, file)])
  shelves : List.Forall₂ Shelved shelved closed
  isOpen : Open active (active.segmentId, file)
  next : active.segmentId < wal.nextSegmentId
  fits : ∀ record ∈ wal.disk.files.stored, (frameLen record).isSome

variable {records : List WalRecord}

section Reading
variable {frameLen : WalRecord → Option Nat} {wal : PersistentRaftWal} {shelved : List WalSegment}
  {active : WalSegment} {closed : WalDirectory} {file : SegmentFile}

namespace Mirrors
section
variable (mirrors : Mirrors frameLen wal shelved active closed file)

include mirrors

theorem getLast : wal.segments.getLast? = some active := by
  rw [mirrors.segments, getLast?_concat]

theorem activeId :
    wal.activeId = active.segmentId := by simp [PersistentRaftWal.activeId, mirrors.getLast]

theorem activeRecords : wal.activeRecords = file.frames.length := by
  simp [PersistentRaftWal.activeRecords, mirrors.getLast, mirrors.isOpen.held]

theorem modifyLast (f : WalSegment → WalSegment) :
    wal.modifyLast f = { wal with segments := shelved ++ [f active] } := by
  simp [PersistentRaftWal.modifyLast, mirrors.segments]

theorem stored : wal.disk.files.stored = closed.stored ++ file.frames := by
  rw [mirrors.files]
  simp

theorem fits_active : ∀ record ∈ file.frames, (frameLen record).isSome :=
  fun record member => mirrors.fits record
    (mirrors.stored ▸ mem_append_right _ member)

end
end Mirrors

variable {segment : WalSegment}

theorem Shelved.segmentRecords {entry : Nat × SegmentFile}
    (shelved : Shelved segment entry) (ascending : Ascending wal.disk.files)
    (member : entry ∈ wal.disk.files) : wal.segmentRecords segment = .ok entry.2.frames := by
  have found : get segment.segmentId wal.disk.files = some entry.2 :=
    get_mem ascending (shelved.named ▸ member)
  simp [PersistentRaftWal.segmentRecords, shelved.counted, shelved.released, found]

theorem segmentRecords_held {frames : List WalRecord}
    (held : segment.records = frames) (counted : segment.recordCount = frames.length) :
    wal.segmentRecords segment = .ok frames := by
  simp [PersistentRaftWal.segmentRecords, held, counted]

theorem recordsOf_each {segments : List WalSegment} {entries : WalDirectory}
    (each : List.Forall₂ (fun segment entry => wal.segmentRecords segment = .ok entry.2.frames)
      segments entries) : wal.recordsOf segments = .ok entries.stored := by
  have read : segments.mapM wal.segmentRecords = .ok (entries.map fun entry => entry.2.frames) := by
    induction each with
    | nil => rfl
    | cons first _ ih =>
      rw [mapM_cons, first, ih]
      rfl
  rw [recordsOf, read]
  rfl

theorem recordsOf_shelved {segments : List WalSegment} {entries : WalDirectory}
    (shelves : List.Forall₂ Shelved segments entries) (ascending : Ascending wal.disk.files)
    (among : ∀ entry ∈ entries, entry ∈ wal.disk.files) :
    wal.recordsOf segments = .ok entries.stored := by
  refine recordsOf_each ?_
  induction shelves with
  | nil => exact .nil
  | @cons segment entry segments entries first _ ih =>
    exact .cons (first.segmentRecords ascending (among entry mem_cons_self))
      (ih fun other member => among other (mem_cons_of_mem _ member))

theorem recordsOf_append {front back : List WalSegment} {records records' : List WalRecord}
    (first : wal.recordsOf front = .ok records) (second : wal.recordsOf back = .ok records') :
    wal.recordsOf (front ++ back) = .ok (records ++ records') := by
  unfold recordsOf at *
  rw [mapM_append]
  generalize front.mapM wal.segmentRecords = firsts at first ⊢
  generalize back.mapM wal.segmentRecords = seconds at second ⊢
  rcases firsts with failed | firsts
  · cases first
  rcases seconds with failed | seconds
  · cases second
  obtain rfl : firsts.flatten = records := Except.ok.inj first
  obtain rfl : seconds.flatten = records' := Except.ok.inj second
  exact congrArg Except.ok flatten_append

theorem recordsOf_singleton
    (read : wal.segmentRecords segment = .ok records) : wal.recordsOf [segment] = .ok records := by
  rw [recordsOf, mapM_cons, read]
  exact congrArg Except.ok (by simp)

theorem Mirrors.recordsOf_stored (mirrors : Mirrors frameLen wal shelved active closed file) :
    wal.recordsOf wal.segments = .ok wal.disk.files.stored := by
  have ascending : Ascending wal.disk.files := mirrors.files ▸ mirrors.ascending
  rw [mirrors.segments, mirrors.stored]
  grind [mirrors.files, recordsOf_append, recordsOf_shelved, mirrors.shelves, recordsOf_singleton,
    segmentRecords_held, mirrors.isOpen.held, mirrors.isOpen.counted]

theorem Mirrors.latestRecord (mirrors : Mirrors frameLen wal shelved active closed file) :
    wal.latestRecord = foldWalLatestRecord wal.disk.files.stored := by
  rw [PersistentRaftWal.latestRecord, mirrors.recordsOf_stored]

end Reading

/-! ## Writing -/

section Writing
open WalDirectory
variable {frameLen : WalRecord → Option Nat} {wal : PersistentRaftWal} {shelved : List WalSegment}
  {active : WalSegment} {closed : WalDirectory} {file : SegmentFile}

theorem call_apply (fileCall : FileCall) (wal : PersistentRaftWal) :
    call fileCall wal = (.ok (), { wal with disk := wal.disk.issueAll [fileCall] }) := rfl

theorem writeFrames_ok
    (fits : ∀ record ∈ records, (frameLen record).isSome) (wal : PersistentRaftWal) :
    Attempt.forEach (writeFrame frameLen segmentId) records wal = (.ok (), { wal with
          disk := wal.disk.issueAll (records.map (FileCall.write segmentId)) }) := by
  induction records generalizing wal with
  | nil => rw [map_nil, Disk.issueAll_nil]; rfl
  | cons record records ih =>
    obtain ⟨bytes, frame⟩ := isSome_iff_exists.mp (fits record mem_cons_self)
    have written : writeFrame frameLen segmentId record = call (.write segmentId record) := by
      rw [writeFrame, frame]
    rw [Attempt.forEach, written, bind_ok (call_apply _ wal),
      ih fun other member => fits other (mem_cons_of_mem _ member), map_cons,
      ← Disk.issueAll_append, singleton_append]

theorem writeWalSegmentFile_ok
    (fits : ∀ record ∈ records, (frameLen record).isSome) (wal : PersistentRaftWal) :
    writeWalSegmentFile frameLen segmentId records wal
      = (.ok (), { wal with disk := wal.disk.issueAll (segmentCalls segmentId records) }) := by
  rw [writeWalSegmentFile, bind_ok (call_apply _ wal),
    bind_ok (writeFrames_ok segmentId fits _), segmentCalls]
  cases records with
  | nil => simp
  | cons =>
    rw [isEmpty_cons, if_neg Bool.false_ne_true, call_apply, ← Disk.issueAll_append,
      ← Disk.issueAll_append]
    rfl

def sealedSegment (active : WalSegment) : WalSegment := { active with isSealed := true, records := [] }

section
variable (mirrors : Mirrors frameLen wal shelved active closed file)

include mirrors

theorem Mirrors.sealActive_ok : sealActive frameLen wal = (.ok (), { wal with
      segments := shelved ++ [sealedSegment active]
      disk := wal.disk.issueAll (segmentCalls active.segmentId file.frames) }) := by
  have fits : ∀ record ∈ active.records, (frameLen record).isSome :=
    mirrors.isOpen.held ▸ mirrors.fits_active
  simp only [sealActive, mirrors.getLast, mirrors.modifyLast,
    writeWalSegmentFile_ok active.segmentId fits]
  simp [PersistentRaftWal.modifyLast, mirrors.isOpen.held, sealedSegment]

def rollCalls (active next : Nat) (records : List WalRecord) : List FileCall :=
  segmentCalls active records ++ (segmentCalls next [] ++ [.openForAppend next])

def rolled (wal : PersistentRaftWal) (shelved : List WalSegment) (active : WalSegment)
    (records : List WalRecord) : PersistentRaftWal :=
  { wal with
    segments := (shelved ++ [sealedSegment active]) ++ [newSegment wal.nextSegmentId]
    nextSegmentId := wal.nextSegmentId + 1
    expectedActiveLen := none
    disk := wal.disk.issueAll (rollCalls active.segmentId wal.nextSegmentId records) }

theorem Mirrors.rollSegment_ok :
    rollSegment frameLen wal = (.ok (), rolled wal shelved active file.frames) := by
  have taken (wal : PersistentRaftWal) : takeSegmentId wal
      = (.ok wal.nextSegmentId, { wal with nextSegmentId := wal.nextSegmentId + 1 }) := rfl
  rw [rollSegment, bind_ok mirrors.sealActive_ok, bind_ok (taken _),
    bind_ok (writeWalSegmentFile_ok wal.nextSegmentId (by simp) _)]
  grind [update_apply, PersistentRaftWal.issue, Disk.issue_eq, rolled, rollCalls,
    Disk.issueAll_append]

omit mirrors in
theorem performAll_rollCalls {next : Nat}
    (ascending : Ascending (closed ++ [(active.segmentId, file)]))
    (above : active.segmentId < next) : performAll (closed ++ [(active.segmentId, file)])
        (rollCalls active.segmentId next file.frames)
      = (closed ++ [(active.segmentId, ⟨file.frames, file.frames.length⟩)]) ++ [(next, .empty)] := by
  have rewritten : Ascending
      (closed ++ [(active.segmentId, (⟨file.frames, file.frames.length⟩ : SegmentFile))]) :=
    ascending.replace
  have top : ∀ entry ∈ closed ++ [(active.segmentId, (⟨file.frames, file.frames.length⟩ : SegmentFile))],
      entry.1 < next := by
    intro entry member
    rcases mem_append.mp member with earlier | last
    · exact (ascending.below entry earlier).trans above
    · grind
  have created : put next SegmentFile.empty _ = _ := put_top top
  rw [rollCalls, performAll_append, performAll_segmentCalls ascending]
  simpa [segmentCalls, perform.eq_1,
    created] using perform_openForAppend (rewritten.push top)

theorem Mirrors.rolled :
    Mirrors frameLen (rolled wal shelved active file.frames) (shelved ++ [sealedSegment active])
      (newSegment wal.nextSegmentId)
      (closed ++ [(active.segmentId, ⟨file.frames, file.frames.length⟩)]) .empty where
  segments := rfl
  files := by
    show performAll wal.disk.files _ = _
    rw [mirrors.files]
    exact performAll_rollCalls mirrors.ascending mirrors.next
  ascending := by
    refine mirrors.ascending.replace.push ?_
    intro entry member
    rcases mem_append.mp member with earlier | last
    · exact (mirrors.ascending.below entry earlier).trans mirrors.next
    · rw [mem_singleton.mp last]
      exact mirrors.next
  shelves := rel_append mirrors.shelves (.cons ⟨rfl, rfl, rfl, mirrors.isOpen.counted⟩ .nil)
  isOpen := ⟨rfl, rfl, rfl, rfl⟩
  next := Nat.lt_succ_self _
  fits := by
    intro record member
    refine mirrors.fits record ?_
    have files : (MatrixRaft.rolled wal shelved active file.frames).disk.files
        = (closed ++ [(active.segmentId, ⟨file.frames, file.frames.length⟩)])
          ++ [(wal.nextSegmentId, .empty)] := by
      show performAll wal.disk.files _ = _
      rw [mirrors.files]
      exact performAll_rollCalls mirrors.ascending mirrors.next
    rw [files] at member
    rw [mirrors.files]
    simpa [SegmentFile.empty] using member

def entryCalls (record : WalRecord) (fsync : Bool) : List FileCall :=
  .write segmentId record :: if fsync then [.sync segmentId] else []

def entered (wal : PersistentRaftWal) (record : WalRecord) (fsync : Bool)
    (expected : Option Nat) : PersistentRaftWal :=
  { wal.modifyLast (noteRecord record) with
    expectedActiveLen := expected
    disk := wal.disk.issueAll (entryCalls wal.activeId record fsync)
    activeCovered := advanceCovered wal.activeCovered record }

theorem Mirrors.entered_files (record : WalRecord) (fsync : Bool) (expected : Option Nat) :
    (entered wal record fsync expected).disk.files
      = closed ++ [(active.segmentId, ⟨file.frames ++ [record],
          if fsync then file.frames.length + 1 else file.synced⟩)] := by
  show performAll wal.disk.files _ = _
  rw [mirrors.files, mirrors.activeId]
  have ascending := mirrors.ascending
  grind [entryCalls, performAll_cons, performAll_nil,
    perform_write, perform_sync, ascending.replace]

theorem Mirrors.entered {record : WalRecord} (frame : (frameLen record).isSome) (fsync : Bool)
    (expected : Option Nat) :
    Mirrors frameLen (entered wal record fsync expected) shelved (noteRecord record active) closed
      ⟨file.frames ++ [record], if fsync then file.frames.length + 1 else file.synced⟩ where
  segments := by
    rw [MatrixRaft.entered, mirrors.modifyLast]
  files := mirrors.entered_files record fsync expected
  ascending := mirrors.ascending.replace
  shelves := mirrors.shelves
  isOpen := by
    refine ⟨rfl, mirrors.isOpen.opened, ?_, ?_⟩
    · simp only [noteRecord, mirrors.isOpen.held]
    · simp [noteRecord, mirrors.isOpen.held]
  next := mirrors.next
  fits := by
    intro other member
    rw [mirrors.entered_files record fsync expected] at member
    rcases (by simpa using member : other ∈ closed.stored ∨ other ∈ file.frames ∨ other = record)
      with earlier | before | rfl
    · grind [mirrors.fits, mirrors.stored]
    · exact mirrors.fits_active other before
    · exact frame

theorem Mirrors.enterRecord_ok (record : WalRecord) (recordBytes : Nat) (segmentRolled fsync : Bool)
    (expected : Option Nat) :
    ∃ report, enterRecord record recordBytes segmentRolled fsync expected wal
      = (.ok report, MatrixRaft.entered wal record fsync expected) := by
  unfold enterRecord
  cases fsync with
  | false => simpa [issue, mirrors.getLast] using ⟨_, rfl⟩
  | true =>
    have calls : wal.disk.issueAll (entryCalls wal.activeId record true)
        = (wal.disk.issue (.write wal.activeId record)).issue (.sync wal.activeId) := by
      rw [Disk.issue_eq, Disk.issue_eq, ← Disk.issueAll_append]
      rfl
    simp only [if_true, issue, mirrors.getLast, MatrixRaft.entered, calls]
    exact ⟨_, rfl⟩

/-- **One write** enters its record into the active segment, after a roll or without one, or changes
nothing. -/
theorem Mirrors.writeRecord_cases
    (record : WalRecord) (activeRecords : Nat) (rollingByCount fsync : Bool) :
    (∃ expected, wal.expectedActiveLen = some expected ∧ expected ≠ wal.activeLen frameLen ∧
      writeRecord frameLen record activeRecords rollingByCount fsync wal
        = (.error (.storage (.activeSegmentMoved (wal.activeLen frameLen) expected
            wal.options.dir)), wal)) ∨ (frameLen record = none ∧
      writeRecord frameLen record activeRecords rollingByCount fsync wal
        = (.error (.storage .frameTooLong), wal)) ∨ ∃ report bytes, frameLen record = some bytes ∧
      (writeRecord frameLen record activeRecords rollingByCount fsync wal
          = (.ok report, MatrixRaft.entered wal record fsync
              (some (wal.activeLen frameLen + bytes))) ∨
        writeRecord frameLen record activeRecords rollingByCount fsync wal
          = (.ok report, MatrixRaft.entered (MatrixRaft.rolled wal shelved active file.frames)
              record fsync none) ∧ (rollingByCount = true ∨ 0 < activeRecords)) := by
  unfold writeRecord
  simp only
  rcases moved : wal.expectedActiveLen.filter (· ≠ wal.activeLen frameLen) with _ | expected
  · rcases frame : frameLen record with _ | bytes
    · exact .inr (.inl ⟨rfl, rfl⟩)
    simp only
    split
    · next rolls =>
        obtain ⟨report, done⟩ := mirrors.rolled.enterRecord_ok record bytes true fsync none
        refine .inr (.inr ⟨report, bytes, rfl, .inr ⟨?_, ?_⟩⟩)
        · rw [bind_ok mirrors.rollSegment_ok, done]
        · grind
    · obtain ⟨report, done⟩ := mirrors.enterRecord_ok record bytes false fsync
        (some (wal.activeLen frameLen + bytes))
      exact .inr (.inr ⟨report, bytes, rfl, .inl done⟩)
  · obtain ⟨held, differs⟩ := filter_eq_some_iff.mp moved
    exact .inl ⟨expected, held, by simpa using differs, rfl⟩

theorem Mirrors.activeLen : wal.activeLen frameLen
      = segmentMagicLen + (file.frames.map fun record => (frameLen record).getD 0).sum := by
  have found : get wal.activeId wal.disk.files = some file := by
    rw [mirrors.files, mirrors.activeId]
    exact get_append mirrors.ascending
  simp [PersistentRaftWal.activeLen, found]

theorem Mirrors.synced : Mirrors frameLen (wal.issue (.sync wal.activeId)) shelved active closed
      { file with synced := file.frames.length } := by
  have files : (wal.issue (.sync wal.activeId)).disk.files
      = closed ++ [(active.segmentId, { file with synced := file.frames.length })] := by
    show perform wal.disk.files (.sync wal.activeId) = _
    rw [mirrors.files, mirrors.activeId]
    exact perform_sync mirrors.ascending
  exact {
    segments := mirrors.segments
    files := files
    ascending := mirrors.ascending.replace
    shelves := mirrors.shelves
    isOpen := ⟨rfl, mirrors.isOpen.opened, mirrors.isOpen.held, mirrors.isOpen.counted⟩
    next := mirrors.next
    fits := fun record member => mirrors.fits record (by
      rw [files] at member
      rw [mirrors.stored]
      simpa using member) }

structure Written (frameLen : WalRecord → Option Nat) (record : WalRecord)
    (wal wal' : PersistentRaftWal) : Prop where
  mirrors : ∃ shelved active closed file, Mirrors frameLen wal' shelved active closed file
  stored : wal'.disk.files.stored = wal.disk.files.stored ++ [record]
  covered : wal'.activeCovered = advanceCovered wal.activeCovered record
  options : wal'.options = wal.options
  unmoved : ∀ expected, wal'.expectedActiveLen = some expected → expected = wal'.activeLen frameLen

theorem Mirrors.rolled_stored : (MatrixRaft.rolled wal shelved active file.frames).disk.files.stored
      = wal.disk.files.stored := by
  rw [mirrors.rolled.stored, mirrors.stored]
  simp [SegmentFile.empty]

theorem Mirrors.written {record : WalRecord} {activeRecords : Nat} {rollingByCount fsync : Bool}
    {report : WalWriteReport} {wal' : PersistentRaftWal}
    (ran : writeRecord frameLen record activeRecords rollingByCount fsync wal
      = (.ok report, wal')) : Written frameLen record wal wal' := by
  rcases mirrors.writeRecord_cases record activeRecords rollingByCount fsync with
    ⟨_, _, _, moved⟩ | ⟨_, refused⟩ | ⟨_, bytes, frame, stays | ⟨rolls, -⟩⟩
  · cases ran.symm.trans moved
  · cases ran.symm.trans refused
  · cases ran.symm.trans stays
    have after := mirrors.entered (isSome_of_mem frame) fsync
      (some (wal.activeLen frameLen + bytes))
    refine ⟨⟨_, _, _, _, after⟩, ?_, rfl, rfl, ?_⟩
    · rw [after.stored, mirrors.stored, append_assoc]
    intro expected held
    rw [← Option.some.inj held, after.activeLen, mirrors.activeLen]
    simp [frame, add_assoc]
  · cases ran.symm.trans rolls
    have after := mirrors.rolled.entered (isSome_of_mem frame) fsync none
    refine ⟨⟨_, _, _, _, after⟩, ?_, rfl, rfl, fun _ held => by cases held⟩
    grind [after.stored, mirrors.rolled.stored, mirrors.rolled_stored]

theorem Mirrors.writeRecord_written (unmoved : ∀ expected, wal.expectedActiveLen = some expected →
      expected = wal.activeLen frameLen)
    (record : WalRecord) (activeRecords : Nat) (rollingByCount fsync : Bool) :
    (frameLen record = none ∧ writeRecord frameLen record activeRecords rollingByCount fsync wal
        = (.error (.storage .frameTooLong), wal)) ∨
    ∃ report wal', writeRecord frameLen record activeRecords rollingByCount fsync wal
      = (.ok report, wal') ∧ Written frameLen record wal wal' := by
  rcases mirrors.writeRecord_cases record activeRecords rollingByCount fsync with
    ⟨expected, held, differs, -⟩ | refused | ⟨report, _, _, stays | ⟨rolls, -⟩⟩
  · exact absurd (unmoved expected held) differs
  · exact .inl refused
  · exact .inr ⟨report, _, stays, mirrors.written stays⟩
  · exact .inr ⟨report, _, rolls, mirrors.written rolls⟩

end
end Writing

/-! ## Opening -/

section Opening
variable {frameLen : WalRecord → Option Nat} {options : PersistentRaftWalOptions} {disk : Disk}

/-- What opening a directory gives: a log that mirrors it and covers what it stores. -/
structure Reopened (frameLen : WalRecord → Option Nat) (disk : Disk) (wal : PersistentRaftWal) :
    Prop where
  mirrors : ∃ shelved active closed file, Mirrors frameLen wal shelved active closed file
  disk_eq : wal.disk = disk.issueAll [.openForAppend wal.activeId]
  files_eq : disk.files ≠ [] → wal.disk.files = disk.files
  stored_eq : wal.disk.files.stored = disk.files.stored
  covered : wal.activeCovered = coverageOf (foldWalEntries disk.files.stored)
  unwritten : wal.expectedActiveLen = none

theorem openRecovered_eq (valid : options.validate = .ok ()) (disk : Disk) :
    openRecovered options disk
      = .ok (openInner options disk, recoveryReport disk.files (openInner options disk)) := by
  rw [openRecovered, valid]

theorem openInner_empty (empty : disk.files = []) :
    Reopened frameLen disk (openInner options disk) := by
  have created : (disk.issue (.openForAppend 0)).files = [(0, SegmentFile.empty)] := by
    simp only [Disk.issue, empty]
    rfl
  have opened : openInner options disk = {
      options := options
      segments := [newSegment 0]
      disk := disk.issue (.openForAppend 0)
      nextSegmentId := 1
      releasedSegmentCount := 0
      expectedActiveLen := none
      activeCovered := none } := by
    simp only [openInner, empty]
    rfl
  rw [opened]
  exact {
    mirrors := ⟨[], newSegment 0, [], .empty, {
      segments := rfl
      files := created
      ascending := pairwise_singleton _ _
      shelves := .nil
      isOpen := ⟨rfl, rfl, rfl, rfl⟩
      next := zero_lt_one
      fits := by simp [created, SegmentFile.empty]}⟩
    disk_eq := rfl
    files_eq := fun some => absurd empty some
    stored_eq := by rw [created, empty]; rfl
    covered := by rw [empty]; rfl
    unwritten := rfl }

theorem openInner_empty_files (empty : disk.files = []) :
    (openInner options disk).disk.files = [((openInner options disk).activeId, .empty)] := by
  have opened : Reopened (fun _ => none) disk (openInner options disk) := openInner_empty empty
  rw [opened.disk_eq]
  show WalDirectory.performAll disk.files _ = _
  rw [empty]
  rfl

theorem openInner_segments {closed : WalDirectory} {segmentId : Nat} {file : SegmentFile}
    (files : disk.files = closed ++ [(segmentId, file)]) (ascending : Ascending disk.files)
    (fits : ∀ record ∈ disk.files.stored, (frameLen record).isSome) :
    Reopened frameLen disk (openInner options disk) := by
  have sorted : Ascending (closed ++ [(segmentId, file)]) := files ▸ ascending
  have untouched : disk.issue (.openForAppend segmentId)
      = { disk with calls := disk.calls ++ [.openForAppend segmentId] } := by
    have same := WalDirectory.perform_openForAppend sorted
    rw [← files] at same
    rw [Disk.issue, same]
  have read : readWalSegmentsFromDir disk.files
      = closed.map readWalSegment ++ [readWalSegment (segmentId, file)] := by
    simp [readWalSegmentsFromDir, files]
  set onShelf : Nat × SegmentFile → WalSegment :=
    fun entry => { readWalSegment entry with isSealed := true } with onShelf_eq
  have flagged : ((closed.map readWalSegment ++ [readWalSegment (segmentId, file)]).map
      fun segment => { segment with isSealed := decide (segment.segmentId ≠ segmentId) })
      = closed.map onShelf ++ [readWalSegment (segmentId, file)] := by
    rw [List.map_append, List.map_map, List.map_singleton]
    congr 1
    · refine List.map_congr_left fun entry member => ?_
      have differs := (sorted.below entry member).ne
      simp [onShelf_eq, readWalSegment, differs]
    · simp [readWalSegment]
  have covered : ∀ wal : PersistentRaftWal,
      wal.segments = closed.map onShelf ++ [readWalSegment (segmentId, file)] →
      wal.coveredFromSegments = coverageOf (foldWalEntries disk.files.stored) := by
    intro wal segments
    have each : List.Forall₂ (fun segment (entry : Nat × SegmentFile) =>
        wal.segmentRecords segment = .ok entry.2.frames) (closed.map onShelf) closed :=
      forall₂_map_left_iff.mpr
        (forall₂_same.mpr fun entry _ => segmentRecords_held rfl rfl)
    rw [coveredFromSegments, segments, recordsOf_append (recordsOf_each each)
      (recordsOf_singleton (segmentRecords_held rfl rfl)), files]
    simp [readWalSegment]
  have opened : openInner options disk = {
      options := options
      segments := closed.map (fun entry => { onShelf entry with records := [] })
        ++ [readWalSegment (segmentId, file)]
      disk := { disk with calls := disk.calls ++ [.openForAppend segmentId] }
      nextSegmentId := segmentId + 1
      releasedSegmentCount := 0
      expectedActiveLen := none
      activeCovered := coverageOf (foldWalEntries disk.files.stored) } := by
    unfold openInner
    simp only [read, getLast?_concat, map_some, getD_some]
    have named : (readWalSegment (segmentId, file)).segmentId = segmentId := rfl
    rw [named, flagged, untouched, covered _ rfl]
    simp [releaseSealedSegmentRecords, readWalSegment]
  rw [opened]
  exact {
    mirrors := ⟨closed.map (fun entry => { onShelf entry with records := [] }),
      readWalSegment (segmentId, file), closed, file, {
        segments := rfl
        files := files
        ascending := sorted
        shelves := forall₂_map_left_iff.mpr
          (forall₂_same.mpr fun _ _ => ⟨rfl, rfl, rfl, rfl⟩)
        isOpen := ⟨rfl, rfl, rfl, rfl⟩
        next := Nat.lt_succ_self _
        fits := fits }⟩
    disk_eq := by
      rw [← Disk.issue_eq, PersistentRaftWal.activeId]
      simp only [getLast?_concat, map_some, getD_some]
      exact untouched.symm
    files_eq := fun _ => rfl
    stored_eq := rfl
    covered := rfl
    unwritten := rfl }

/-- **Opening.** A directory in order opens to a log that mirrors it. -/
theorem openInner_reopened (ascending : Ascending disk.files)
    (fits : ∀ record ∈ disk.files.stored, (frameLen record).isSome) :
    Reopened frameLen disk (openInner options disk) := by
  grind [disk.files.eq_nil_or_concat, openInner_empty, openInner_segments]

end Opening
end MatrixRaft
