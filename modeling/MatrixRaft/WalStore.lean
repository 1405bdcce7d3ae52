/-
# WalStore — the segmented write-ahead log

`PersistentRaftWal` appends records to the last of its segment files, rolls to a new
one when that is full, drops segments compaction no longer needs and is rebuilt from
its directory on open.
-/
import MatrixRaft.WalRecords
import MatrixRaft.Theory.Cabinet

namespace MatrixRaft
open Theory Cabinet

/-! ## The directory -/

structure SegmentFile where
  frames : List WalRecord
  synced : Nat
  deriving DecidableEq

/-- The segment files in the order of their ids. -/
abbrev WalDirectory := Cabinet SegmentFile

inductive FileCall where
  /-- `File::create`: an existing file loses its contents. -/
  | create (segmentId : Nat)
  /-- Open for appending, creating the file if it is missing. -/
  | openForAppend (segmentId : Nat)
  | write (segmentId : Nat) (record : WalRecord)
  | sync (segmentId : Nat)
  | remove (segmentId : Nat)
  deriving DecidableEq

def SegmentFile.empty : SegmentFile := { frames := [], synced := 0 }

def WalDirectory.perform (dir : WalDirectory) : FileCall → WalDirectory
  | .create segmentId => put segmentId .empty dir
  | .openForAppend segmentId =>
    match get segmentId dir with
    | some _ => dir
    | none => put segmentId .empty dir
  | .write segmentId record =>
    change segmentId (fun file => { file with frames := file.frames ++ [record] }) dir
  | .sync segmentId =>
    change segmentId (fun file => { file with synced := file.frames.length }) dir
  | .remove segmentId => erase segmentId dir

structure Disk where
  files : WalDirectory
  calls : List FileCall
  deriving DecidableEq

def Disk.issue (disk : Disk) (call : FileCall) : Disk :=
  { files := disk.files.perform call, calls := disk.calls ++ [call] }

/-! ## The log -/

structure WalSegment where
  (segmentId firstIndex lastIndex : Nat)
  /-- Held in memory for the active segment only. -/
  records : List WalRecord
  recordCount : Nat
  isSealed : Bool
  deriving DecidableEq

structure PersistentRaftWalOptions where
  dir : String
  (maxRecordsPerSegment maxSegmentBytes minKeepSegments : Nat)
  fsyncOnAppend : Bool
  deriving DecidableEq

variable (options : PersistentRaftWalOptions)

def PersistentRaftWalOptions.validate : Except RaftError Unit :=
  if options.maxRecordsPerSegment = 0 then .error (.invalidRequest .maxRecordsPerSegmentZero)
  else if options.maxSegmentBytes = 0 then .error (.invalidRequest .maxSegmentBytesZero)
  else if options.minKeepSegments = 0 then .error (.invalidRequest .minKeepSegmentsZero)
  else .ok ()

structure PersistentRaftWal where
  options : PersistentRaftWalOptions
  segments : List WalSegment
  disk : Disk
  (nextSegmentId releasedSegmentCount : Nat)
  /-- The length this writer left the active segment at, if it has written there. -/
  expectedActiveLen : Option Nat
  activeCovered : Option WalCoverage
  deriving DecidableEq

abbrev WalM (α : Type) := Attempt PersistentRaftWal RaftError α

structure LogRetainedRange where
  (firstLogIndex lastLogIndex firstSegmentId lastSegmentId recordCount : Nat)
  deriving DecidableEq

structure WalWriteReport where
  (segmentId logIndex bytesWritten : Nat)
  (fsyncOnAppend segmentRolled hardStatePersisted : Bool)
  retainedRange : LogRetainedRange
  deriving DecidableEq

structure WalRecoveryReport where
  recovered : Option WalRecord
  (survivingRecords removedRecords segmentsScanned : Nat)
  retainedRange : LogRetainedRange
  deriving DecidableEq

variable (segments : List WalSegment)

def walRetainedRange : LogRetainedRange where
  firstLogIndex :=
    ((segments.find? fun segment => 0 < segment.firstIndex).map WalSegment.firstIndex).getD 0
  lastLogIndex :=
    ((segments.reverse.find? fun segment => 0 < segment.lastIndex).map
      WalSegment.lastIndex).getD 0
  firstSegmentId := (segments.head?.map WalSegment.segmentId).getD 0
  lastSegmentId := (segments.getLast?.map WalSegment.segmentId).getD 0
  recordCount := (segments.map WalSegment.recordCount).sum

/-- First and last position of a folded log, with the term at its end. -/
def coverageOf (entries : List LogEntry) : Option WalCoverage :=
  match entries.head?, entries.getLast? with
  | some first, some last => some ⟨first.index, last.index, last.term⟩
  | _, _ => none

def segmentMagicLen : Nat := 4

namespace PersistentRaftWal
variable (frameLen : WalRecord → Option Nat)

/-! ## Reading -/

variable (wal : PersistentRaftWal)

def issue (call : FileCall) : PersistentRaftWal :=
  { wal with disk := wal.disk.issue call }

def activeId : Nat :=
  (wal.segments.getLast?.map WalSegment.segmentId).getD 0

def activeRecords : Nat :=
  (wal.segments.getLast?.map fun segment => segment.records.length).getD 0

def activeLen : Nat :=
  segmentMagicLen + (((get wal.activeId wal.disk.files).map fun file =>
    (file.frames.map fun record => (frameLen record).getD 0).sum).getD 0)

def segmentRecords (segment : WalSegment) : Except RaftError (List WalRecord) :=
  if segment.recordCount = 0 ∨ segment.records ≠ [] then .ok segment.records
  else match get segment.segmentId wal.disk.files with
    | some file => .ok file.frames
    | none => .error (.storage (.segmentUnreadable "No such file or directory (os error 2)"))

def recordsOf (wal : PersistentRaftWal) (segments : List WalSegment) :
    Except RaftError (List WalRecord) :=
  (segments.mapM wal.segmentRecords).map List.flatten

def records : List WalRecord :=
  match wal.recordsOf wal.segments with
  | .ok stored => foldWalRecords stored
  | .error _ => []

def latestRecord : Option WalRecord :=
  match wal.recordsOf wal.segments with
  | .ok stored => foldWalLatestRecord stored
  | .error _ => none

def coveredFromSegments : Option WalCoverage :=
  match wal.recordsOf wal.segments with
  | .ok stored => coverageOf (foldWalEntries stored)
  | .error _ => none

/-! ## Appending -/

variable (record : WalRecord)

def wholeRecord : WalRecord := { record with entriesAreDelta := false }

def deltaRecord : WalRecord :=
  match wal.activeCovered.bind (walDeltaBase record.entries) with
  | none => wholeRecord record
  | some base => { record with entries := record.entries.drop base, entriesAreDelta := true }

def advanceCovered (covered : Option WalCoverage) (record : WalRecord) : Option WalCoverage :=
  if record.entriesAreDelta then
    match covered, record.entries.getLast? with
    | some coverage, some last => some ⟨coverage.firstIndex, last.index, last.term⟩
    | _, _ => covered
  else coverageOf record.entries

def call (fileCall : FileCall) : WalM Unit := Attempt.update fun wal => wal.issue fileCall

def writeFrame (segmentId : Nat) (record : WalRecord) : WalM Unit :=
  match frameLen record with
  | none => throw (.storage .frameTooLong)
  | some _ => call (.write segmentId record)

def writeWalSegmentFile (segmentId : Nat) (records : List WalRecord) : WalM Unit := do
  call (.create segmentId)
  Attempt.forEach (writeFrame frameLen segmentId) records
  -- an empty segment has nothing to protect
  if records.isEmpty then pure () else call (.sync segmentId)

def modifyLast (f : WalSegment → WalSegment) : PersistentRaftWal :=
  { wal with segments := wal.segments.dropLast ++ (wal.segments.getLast?.map f).toList }

def newSegment (segmentId : Nat) : WalSegment where
  segmentId := segmentId
  firstIndex := 0
  lastIndex := 0
  records := []
  recordCount := 0
  isSealed := false

def sealActive : WalM Unit := fun wal =>
  match wal.segments.getLast? with
  | none => (.ok (), wal)
  | some segment =>
    match writeWalSegmentFile frameLen segment.segmentId segment.records
        (wal.modifyLast fun active => { active with isSealed := true }) with
    | (.error error, failed) => (.error error, failed)
    | (.ok (), written) =>
      (.ok (), written.modifyLast fun active => { active with records := [] })

def takeSegmentId : WalM Nat := fun wal =>
  (.ok wal.nextSegmentId, { wal with nextSegmentId := wal.nextSegmentId + 1 })

def rollSegment : WalM Unit := do
  sealActive frameLen
  let segmentId ← takeSegmentId
  writeWalSegmentFile frameLen segmentId []
  Attempt.update fun wal => { wal.issue (.openForAppend segmentId) with
    expectedActiveLen := none
    segments := wal.segments ++ [newSegment segmentId] }

def noteRecord (segment : WalSegment) : WalSegment :=
  { segment with
    firstIndex := if segment.records = [] then record.logIndex else segment.firstIndex
    lastIndex := record.logIndex
    records := segment.records ++ [record]
    recordCount := segment.records.length + 1 }

def enterRecord (recordBytes : Nat) (segmentRolled fsync : Bool)
    (expectedActiveLen : Option Nat) : WalM WalWriteReport := fun wal =>
  let written := { wal.issue (.write wal.activeId record) with
    expectedActiveLen := expectedActiveLen }
  let synced := if fsync then written.issue (.sync written.activeId) else written
  match synced.segments.getLast? with
  | none => (.error (.storage .noActiveSegment), synced)
  | some segment =>
    let noted := { synced.modifyLast (noteRecord record) with
      activeCovered := advanceCovered synced.activeCovered record }
    (.ok { segmentId := segment.segmentId
           logIndex := record.logIndex
           bytesWritten := recordBytes
           fsyncOnAppend := fsync
           segmentRolled := segmentRolled
           hardStatePersisted := (validateHardStatePersistence record).toBool
           retainedRange := walRetainedRange noted.segments }, noted)

def writeRecord (activeRecords : Nat) (rollingByCount fsync : Bool) :
    WalM WalWriteReport := fun wal =>
  let activeLen := wal.activeLen frameLen
  match wal.expectedActiveLen.filter (· ≠ activeLen) with
  | some expected =>
    (.error (.storage (.activeSegmentMoved activeLen expected wal.options.dir)), wal)
  | none =>
    match frameLen record with
    | none => (.error (.storage .frameTooLong), wal)
    | some recordBytes =>
      -- a segment that holds nothing yet takes a record of any size
      if rollingByCount ||
          (decide (0 < activeRecords) &&
            decide (activeLen + recordBytes > wal.options.maxSegmentBytes)) then
        (rollSegment frameLen >>= fun _ =>
          enterRecord record recordBytes true fsync none) wal
      else enterRecord record recordBytes false fsync (some (activeLen + recordBytes)) wal

def rollingByCount : Bool :=
  decide (wal.options.maxRecordsPerSegment ≤ wal.activeRecords)

def appendWithReport : WalM WalWriteReport := fun wal =>
  writeRecord frameLen (wal.deltaRecord record) wal.activeRecords wal.rollingByCount
    wal.options.fsyncOnAppend wal

def writeBatch : List WalRecord → WalM (List WalWriteReport)
  | [] => pure []
  | record :: records => fun wal =>
    match writeRecord frameLen (wal.deltaRecord record) wal.activeRecords wal.rollingByCount
        false wal with
    | (.error error, failed) => (.error error, failed)
    | (.ok report, written) =>
      (writeBatch records >>= fun reports => pure (report :: reports)) written

def appendBatch (records : List WalRecord) : WalM (List WalWriteReport) :=
  if records.isEmpty then pure []
  else do
    let reports ← writeBatch frameLen records
    fun wal =>
      if wal.options.fsyncOnAppend then
        (.ok (reports.dropLast ++
          (reports.getLast?.map fun last => { last with fsyncOnAppend := true }).toList),
          wal.issue (.sync wal.activeId))
      else (.ok reports, wal)

def appendBuilt (build : Option WalCoverage → Except RaftError WalRecord) :
    WalM WalWriteReport := fun wal =>
  match build wal.activeCovered with
  | .error error => (.error error, wal)
  | .ok record =>
    writeRecord frameLen record wal.activeRecords wal.rollingByCount wal.options.fsyncOnAppend wal

/-! ## Compaction -/

/-- The segments `compact_through` drops, by id. -/
def removableIds (logIndex : Nat) : List Nat :=
  ((wal.segments.take (wal.segments.length - wal.options.minKeepSegments)).filter fun segment =>
    0 < segment.lastIndex ∧ segment.lastIndex ≤ logIndex).map WalSegment.segmentId

def materializeFirstSurvivingRecord (removable : List Nat) : WalM Unit := fun wal =>
  match wal.segments.findIdx? fun segment => !removable.contains segment.segmentId with
  | none => (.ok (), wal)
  | some position =>
    match wal.segments[position]? with
    | none => (.ok (), wal)
    | some segment =>
      match wal.segmentRecords segment with
      | .error error => (.error error, wal)
      | .ok [] => (.ok (), wal)
      | .ok (head :: rest) =>
        if head.entriesAreDelta then
          match wal.recordsOf (wal.segments.take position) with
          | .error error => (.error error, wal)
          | .ok before =>
            let survivor :=
              wholeFromFolded head (foldWalEntries (before ++ [head])) :: rest
            match writeWalSegmentFile frameLen segment.segmentId survivor wal with
            | (.error error, failed) => (.error error, failed)
            | (.ok (), written) =>
              (.ok (), if segment.isSealed then written else
                { written with segments :=
                    written.segments.set position { segment with records := survivor } })
        else (.ok (), wal)

def compactThrough (logIndex : Nat) : WalM Nat := fun wal =>
  if wal.segments.length ≤ wal.options.minKeepSegments then (.ok 0, wal)
  else
    let removable := wal.removableIds logIndex
    if removable.isEmpty then (.ok 0, wal)
    else match materializeFirstSurvivingRecord frameLen removable wal with
      | (.error error, failed) => (.error error, failed)
      | (.ok (), ready) =>
        let removed := removable.foldl (fun wal segmentId => wal.issue (.remove segmentId)) ready
        (.ok removable.length, { removed with
          segments := removed.segments.filter fun segment =>
            !removable.contains segment.segmentId
          releasedSegmentCount := removed.releasedSegmentCount + removable.length })

/-! ## Opening -/

def readWalSegment (entry : Nat × SegmentFile) : WalSegment where
  segmentId := entry.1
  firstIndex := (entry.2.frames.head?.map WalRecord.logIndex).getD 0
  lastIndex := (entry.2.frames.getLast?.map WalRecord.logIndex).getD 0
  records := entry.2.frames
  recordCount := entry.2.frames.length
  isSealed := false

def readWalSegmentsFromDir (dir : WalDirectory) : List WalSegment :=
  let segments := dir.map readWalSegment
  if segments.isEmpty then [newSegment 0] else segments

def releaseSealedSegmentRecords : List WalSegment :=
  segments.map fun segment => if segment.isSealed then { segment with records := [] } else segment

/-- The log a directory describes: its last segment is active, the others are sealed. -/
def openInner (disk : Disk) : PersistentRaftWal :=
  let read := readWalSegmentsFromDir disk.files
  let activeId := (read.getLast?.map WalSegment.segmentId).getD 0
  let segments := read.map fun segment =>
    { segment with isSealed := decide (segment.segmentId ≠ activeId) }
  let opened : PersistentRaftWal := {
    options := options
    segments := segments
    disk := disk.issue (.openForAppend activeId)
    nextSegmentId := activeId + 1
    releasedSegmentCount := 0
    expectedActiveLen := none
    activeCovered := none }
  { opened with
    activeCovered := opened.coveredFromSegments
    segments := releaseSealedSegmentRecords segments }

def recoveryReport (files : WalDirectory) (wal : PersistentRaftWal) : WalRecoveryReport :=
  let stored := files.flatMap fun entry => entry.2.frames
  let (survivingRecords, recovered) := recoverFromWalRecords stored
  { recovered := recovered
    survivingRecords := survivingRecords
    removedRecords := stored.length - survivingRecords
    segmentsScanned := wal.segments.length
    retainedRange := walRetainedRange wal.segments }

/-- `open_recovered`: rebuild the log from its directory, with the record recovery picks. -/
def openRecovered (disk : Disk) : Except RaftError (PersistentRaftWal × WalRecoveryReport) :=
  match options.validate with
  | .error error => .error error
  | .ok () =>
    let wal := openInner options disk
    .ok (wal, recoveryReport disk.files wal)

end PersistentRaftWal
end MatrixRaft
