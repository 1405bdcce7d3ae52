/-
# WalDamage — damaged segments are refused or read up to the damage

A segment file that was cut short, or in which a frame fails its digest, is read up to there
or refused: the reader refuses it when bytes follow a complete frame that fails its digest,
and takes everything else for the tail of an interrupted append.
-/
import MatrixRaft.WalBinary
import MatrixRaft.WalDelta

namespace MatrixRaft
open Theory PersistentRaftWal List Attempt.Keeps

/-! ## Alterations -/

/-- What happened to a segment file. -/
inductive Alteration where
  /-- It was cut to its first bytes; a cut past its end leaves it as it was. -/
  | cut (size : Nat)
  /-- From the given frame on it holds other bytes. -/
  | corrupt (count : Nat) (rest : Bytes)
  deriving DecidableEq

/-- Where the frame at the front of some bytes says it ends. -/
def declaredEnd (bytes : Bytes) : Nat := frameBytes + ofLittleEndian (bytes.take 4)

def FrameHolds (bytes : Bytes) : Prop :=
  declaredEnd bytes ≤ bytes.length ∧
    (crc32c ((bytes.drop frameBytes).take (ofLittleEndian (bytes.take 4)))).toNat
      = ofLittleEndian ((bytes.drop 4).take 4)

instance (bytes : Bytes) : Decidable (FrameHolds bytes) :=
  inferInstanceAs (Decidable (_ ∧ _))

namespace Alteration
variable (frames : List WalRecord)

def apply : Alteration → Bytes
  | cut size => (segmentWith frames []).take size
  | corrupt count rest => segmentWith (frames.take count) rest

def Detected : Alteration → Prop
  | cut _ => True
  | corrupt count rest => count < frames.length ∧ ¬ FrameHolds rest

def kept : Alteration → Nat
  | cut size => Frames.wholeCount recordFrame frames (size - segmentMagicLen)
  | corrupt count _ => count

def Refused : Alteration → Prop
  | cut _ => False
  | corrupt _ rest => declaredEnd rest < rest.length

instance : (alteration : Alteration) → Decidable (alteration.Detected frames)
  | cut _ => instDecidableTrue
  | corrupt _ _ => inferInstanceAs (Decidable (_ ∧ _))

instance : (alteration : Alteration) → Decidable alteration.Refused
  | cut _ => instDecidableFalse
  | corrupt _ _ => inferInstanceAs (Decidable (_ < _))

end Alteration

/-! ## Reading a damaged segment -/

section Reading
variable {reader : WalReader} {frames : List WalRecord}

theorem nextRecord_damaged {rest : Bytes} (fails : ¬ FrameHolds rest) :
    (declaredEnd rest < rest.length → ∃ error, nextRecord reader .crc32c rest = .error error) ∧
    (rest.length ≤ declaredEnd rest → nextRecord reader .crc32c rest = .ok none) := by
  have decoded : decodeFramed reader .crc32c rest
      = if declaredEnd rest < rest.length then
          .error (.storage (.frameDigestFails (ofLittleEndian (rest.take 4))
            (rest.length - declaredEnd rest)))
        else .ok none := by
    have ends : frameBytes + ofLittleEndian (rest.take 4) = declaredEnd rest := rfl
    rw [decodeFramed]
    split
    · rw [if_neg (by omega)]
    simp only [ends]
    split
    · rw [if_neg (by omega)]
    next complete =>
      have wrong : ((FrameDigest.crc32c.of ((rest.drop frameBytes).take
          (ofLittleEndian (rest.take 4)))).toNat ≠ ofLittleEndian ((rest.drop 4).take 4)) :=
        fun right => fails ⟨by omega, right⟩
      rw [if_pos wrong]
      by_cases last : declaredEnd rest = rest.length
      · grind
      · grind
  rw [nextRecord, decoded]
  grind

theorem stops_of_torn {tail : Bytes}
    (torn : Frames.Torn (fun record => (frameLength record).isSome) recordFrame tail) :
    tail = [] ∨ nextRecord reader .crc32c tail = .ok none := by
  rcases torn with empty | ⟨record, fits, size, short, rfl⟩
  · exact .inl empty
  · exact .inr (nextRecord_torn fits short)

section
variable (lawful : reader.Lawful) (fits : ∀ record ∈ frames, (frameLength record).isSome)
include lawful fits

theorem read_cut (size : Nat) :
    ∃ truncated legacy, readWalSegmentFile reader ((segmentWith frames []).take size)
      = .ok ⟨frames.take (Frames.wholeCount recordFrame frames (size - segmentMagicLen)),
        truncated, legacy⟩ := by
  rcases lt_or_ge size segmentMagicLen with short | long
  · have nothing : Frames.wholeCount recordFrame frames (size - segmentMagicLen) = 0 := by
      rw [Nat.sub_eq_zero_of_le short.le]
      rcases frames with _ | ⟨record, frames⟩
      all_goals rfl
    obtain ⟨truncated, read⟩ := readWalSegmentFile_magic lawful short
    refine ⟨truncated, true, ?_⟩
    rw [nothing, take_zero, ← read, segmentWith,
      take_append_of_le_length short.le]
  · obtain ⟨tail, cut, torn⟩ := Frames.take_written fits (size - segmentMagicLen)
    obtain ⟨truncated, read⟩ := readWalSegmentFile_stops lawful
      (fun record member => fits record (mem_of_mem_take member)) (stops_of_torn torn)
    refine ⟨truncated, false, ?_⟩
    rw [← read, segmentWith, segmentWith, append_nil, take_append,
      take_of_length_le (show segmentMagic.length ≤ size from long), ← cut]
    rfl

/-- **A damaged segment** is refused where bytes follow its first damaged frame, and read up
to that frame otherwise. -/
theorem read_apply {alteration : Alteration}
    (detected : alteration.Detected frames) : (alteration.Refused →
      ∃ error, readWalSegmentFile reader (alteration.apply frames) = .error error) ∧
    (¬ alteration.Refused → ∃ truncated legacy, readWalSegmentFile reader (alteration.apply frames)
        = .ok ⟨frames.take (alteration.kept frames), truncated, legacy⟩) := by
  cases alteration with
  | cut size => exact ⟨False.elim, fun _ => read_cut lawful fits size⟩
  | corrupt count rest =>
    have fitting : ∀ record ∈ frames.take count, (frameLength record).isSome :=
      fun record member => fits record (mem_of_mem_take member)
    obtain ⟨refused, stopped⟩ := @nextRecord_damaged reader _ detected.2
    refine ⟨fun beyond => ?_, fun within => ?_⟩
    · have present : rest ≠ [] := by
        rintro rfl
        exact absurd beyond (Nat.not_lt_zero _)
      obtain ⟨error, refuses⟩ := refused beyond
      exact ⟨error, readWalSegmentFile_refuses lawful fitting present refuses⟩
    · obtain ⟨truncated, read⟩ := readWalSegmentFile_stops lawful fitting
        (.inr (stopped (Nat.le_of_not_lt within)))
      exact ⟨truncated, false, read⟩

end

end Reading

/-! ## What appending leaves -/

/-- The directory mirrors the log, and the writer knows how long its active file is. -/
structure Standing (frameLen : WalRecord → Option Nat) (wal : PersistentRaftWal) : Prop where
  mirrors : ∃ shelved active closed file, Mirrors frameLen wal shelved active closed file
  unmoved : ∀ expected, wal.expectedActiveLen = some expected → expected = wal.activeLen frameLen

section Appending
variable {frameLen : WalRecord → Option Nat}

theorem Standing.reopened {disk : Disk} {wal : PersistentRaftWal}
    (reopened : Reopened frameLen disk wal) : Standing frameLen wal where
  mirrors := reopened.mirrors
  unmoved expected held := by
    rw [reopened.unwritten] at held
    cases held

variable {wal : PersistentRaftWal}

theorem Standing.writeRecord (standing : Standing frameLen wal)
    (record : WalRecord) (activeRecords : Nat) (rollingByCount fsync : Bool) :
    Standing frameLen (writeRecord frameLen record activeRecords rollingByCount fsync wal).2 := by
  obtain ⟨_, _, _, _, mirrors⟩ := standing.mirrors
  rcases mirrors.writeRecord_written standing.unmoved record activeRecords rollingByCount fsync with
    ⟨-, refused⟩ | ⟨report, wal', done, written⟩
  · grind
  · rw [done]
    exact ⟨written.mirrors, written.unmoved⟩

theorem Standing.synced (standing : Standing frameLen wal) :
    Standing frameLen (wal.issue (.sync wal.activeId)) := by
  obtain ⟨_, _, _, _, mirrors⟩ := standing.mirrors
  have after := mirrors.synced
  refine ⟨⟨_, _, _, _, after⟩, fun expected held => ?_⟩
  rw [standing.unmoved expected held, mirrors.activeLen, after.activeLen]

theorem perform_standing (appending : Appending) :
    Attempt.Keeps (Standing frameLen) (appending.perform frameLen) := by
  have writes : ∀ {wal : PersistentRaftWal}, Standing frameLen wal → ∀ record fsync, Standing frameLen
      (writeRecord frameLen record wal.activeRecords wal.rollingByCount fsync wal).2 :=
    fun standing _ _ => standing.writeRecord _ _ _ _
  cases appending with
  | append => exact bind (fun _ standing => writes standing _ _) fun _ => pure _
  | appendBatch records =>
    exact (appendBatch_keeps writes Standing.synced records).bind fun _ => pure _
  | appendBuilt => exact (appendBuilt_keeps writes _).bind fun _ => pure _

theorem submit_standing (submission : Submission) :
    Attempt.Keeps (Standing frameLen) (submission.submit frameLen) := by
  cases submission with
  | call appending => exact perform_standing appending
  | reopen =>
    intro wal standing
    obtain ⟨_, _, _, _, mirrors⟩ := standing.mirrors
    exact .reopened (openInner_reopened (mirrors.files ▸ mirrors.ascending) mirrors.fits)

/-- **Whatever was appended**, in whatever order and with whatever failures, the directory
mirrors the log. -/
theorem submitAll_standing (options : PersistentRaftWalOptions) {disk : Disk}
    (empty : disk.files = []) (submissions : List Submission) :
    Standing frameLen (submitAll frameLen submissions (openInner options disk)).2 :=
  forEach submissions (fun submission _ => submit_standing submission) _
    (.reopened (openInner_empty empty))

/-- Attempts go on after one has failed. -/
def attemptAll (frameLen : WalRecord → Option Nat) (attempts : List Submission)
    (wal : PersistentRaftWal) : PersistentRaftWal :=
  attempts.foldl (fun wal submission => (submission.submit frameLen wal).2) wal

theorem Standing.attemptAll (standing : Standing frameLen wal)
    (attempts : List Submission) : Standing frameLen (attemptAll frameLen attempts wal) :=
  List.foldlRecOn attempts _ standing fun wal standing submission _ =>
    submit_standing submission wal standing

/-- **A restart changes nothing.** Whatever was appended or opened again, and whatever of it the log
refused, opening the directory gives the running log's records and latest state and leaves the
files. -/
theorem restart_changes_nothing (options options' : PersistentRaftWalOptions)
    (attempts : List Submission) :
    let wal := attemptAll frameLen attempts (openInner options ⟨[], []⟩)
    let restarted := openInner options' wal.disk
    restarted.records = wal.records ∧ restarted.latestRecord = wal.latestRecord ∧
      restarted.disk.files = wal.disk.files := by
  intro wal restarted
  have standing : Standing frameLen wal :=
    (Standing.reopened (openInner_empty rfl)).attemptAll attempts
  obtain ⟨_, _, _, _, mirrors⟩ := standing.mirrors
  have reopened : Reopened frameLen wal.disk restarted :=
    openInner_reopened (mirrors.files ▸ mirrors.ascending) mirrors.fits
  obtain ⟨_, _, _, _, mirrors'⟩ := reopened.mirrors
  refine ⟨?_, ?_, reopened.files_eq (by simp [mirrors.files])⟩
  · rw [PersistentRaftWal.records, mirrors'.recordsOf_stored, reopened.stored_eq,
      ← mirrors.recordsOf_stored]
    rfl
  · rw [mirrors'.latestRecord, mirrors.latestRecord, reopened.stored_eq]

end Appending

/-! ## Recovery -/

theorem recovered_mem {stored : List WalRecord} {state : WalRecord}
    (recovered : (recoverFromWalRecords stored).2 = some state) : state ∈ foldWalRecords stored := by
  obtain ⟨candidate, -, found⟩ := exists_of_findSome?_eq_some recovered
  obtain ⟨record, slot, whole⟩ := Option.bind_eq_some_iff.mp found
  simp only at whole
  split at whole
  · obtain ⟨inside, rfl⟩ := List.getElem?_eq_some_iff.mp slot
    have parts : stored = stored.take candidate.2 ++ stored[candidate.2] ::
        stored.drop (candidate.2 + 1) := by simp
    have member := mem_foldWalRecords (stored.take candidate.2) (stored.drop (candidate.2 + 1))
      stored[candidate.2]
    grind
  · cases whole

theorem foldWalRecords_initial {front stored : List WalRecord} (initial : front <+: stored) :
    foldWalRecords front ⊆ foldWalRecords stored := by
  obtain ⟨back, rfl⟩ := initial
  simp [foldWalRecords, foldWalRecordsFrom_append]

/-! ## A damaged directory -/

def damaged (damage : Nat → Alteration) (files : WalDirectory) : Cabinet Bytes :=
  files.map fun entry => (entry.1, (damage entry.1).apply entry.2.frames)

def remaining (damage : Nat → Alteration) (files : WalDirectory) : WalDirectory :=
  files.map fun entry =>
    (entry.1, ⟨entry.2.frames.take ((damage entry.1).kept entry.2.frames),
      (entry.2.frames.take ((damage entry.1).kept entry.2.frames)).length⟩)

section Directory
variable {reader : WalReader} {files : WalDirectory} {damage : Nat → Alteration}
  (lawful : reader.Lawful)
  (fits : ∀ entry ∈ files, ∀ record ∈ entry.2.frames, (frameLength record).isSome)
  (detected : ∀ entry ∈ files, (damage entry.1).Detected entry.2.frames)

include lawful fits detected

theorem readDirectory_refuses {entry : Nat × SegmentFile} (member : entry ∈ files) (refused : (damage entry.1).Refused) :
    ∃ error, readDirectory reader (damaged damage files) = .error error := by
  obtain ⟨error, fails⟩ := (read_apply lawful (fits entry member) (detected entry member)).1 refused
  rcases ran : readDirectory reader (damaged damage files) with error | result
  · exact ⟨error, rfl⟩
  obtain ⟨reads, all, -⟩ := Checks.bind_eq_ok.mp ran
  obtain ⟨read, whole⟩ := Checks.read_of_mapM all (mem_map_of_mem member)
  rw [fails] at whole
  cases whole

theorem readDirectory_remaining (accepted : ∀ entry ∈ files, ¬ (damage entry.1).Refused) :
    ∃ truncated, readDirectory reader (damaged damage files)
      = .ok (remaining damage files, truncated) := by
  obtain ⟨reads, all, records⟩ : ∃ reads : List (Nat × SegmentRead),
      (damaged damage files).mapM (fun entry =>
        (readWalSegmentFile reader entry.2).map fun read => (entry.1, read)) = .ok reads ∧
      reads.map (fun entry => (entry.1, (⟨entry.2.records, entry.2.records.length⟩ : SegmentFile)))
        = remaining damage files := by
    induction files with
    | nil => exact ⟨[], rfl, rfl⟩
    | cons entry files ih =>
      obtain ⟨reads, all, records⟩ := ih (fun other member => fits other (by simp [member]))
        (fun other member => detected other (by simp [member]))
        (fun other member => accepted other (by simp [member]))
      obtain ⟨truncated, legacy, read⟩ := (read_apply lawful (fits entry (by simp))
        (detected entry (by simp))).2 (accepted entry (by simp))
      refine ⟨(entry.1, ⟨entry.2.frames.take ((damage entry.1).kept entry.2.frames), truncated,
        legacy⟩) :: reads, ?_, ?_⟩
      · rw [Checks.mapM_eq_ok] at all ⊢
        exact .cons (by rw [read]; rfl) all
      · rw [map_cons, records]
        rfl
  refine ⟨reads.any fun entry => entry.2.truncated, ?_⟩
  rw [readDirectory, all]
  exact congrArg (fun dir => Except.ok (dir, _)) records

end Directory

/-- **A damaged log.** With every segment cut or corrupted in a way the frame check sees, opening
fails exactly when a segment is refused.  Otherwise it reads every record up to the damage in the
last segment and restores one of the states the log held, one that was submitted if those are a
history. -/
theorem damaged_log_recovers (reader : WalReader) (lawful : reader.Lawful)
    (options : PersistentRaftWalOptions) (valid : options.validate = .ok ())
    (disk : Disk) (empty : disk.files = []) (submissions : List Submission)
    (wal : PersistentRaftWal)
    (wrote : submitAll frameLength submissions (openInner options disk) = (.ok (), wal))
    (damage : Nat → Alteration)
    (detected : ∀ entry ∈ wal.disk.files, (damage entry.1).Detected entry.2.frames)
    (before : ∀ entry ∈ wal.disk.files.dropLast, (damage entry.1).Refused ∨
      (damage entry.1).kept entry.2.frames = entry.2.frames.length) :
    match openDirectory reader options (damaged damage wal.disk.files) with
    | .error _ => ∃ entry ∈ wal.disk.files, (damage entry.1).Refused
    | .ok (opened, report, _) =>
      (∀ entry ∈ wal.disk.files, ¬ (damage entry.1).Refused) ∧
      (∃ (closed : WalDirectory) (last : Nat × SegmentFile), wal.disk.files = closed ++ [last] ∧
        opened.disk.files.stored
          = closed.stored ++ last.2.frames.take ((damage last.1).kept last.2.frames)) ∧
      ∀ state, report.recovered = some state → state ∈ wal.records ∧
        ((∀ submission ∈ submissions, submission.OfReplica) →
          LogHistory (submissions.flatMap Submission.records) →
          ∃ submitted ∈ submissions.flatMap Submission.records, state = wholeRecord submitted) := by
  have standing := @submitAll_standing frameLength options disk empty submissions
  rw [wrote] at standing
  obtain ⟨shelved, active, closed, file, mirrors⟩ := standing.mirrors
  have fits : ∀ entry ∈ wal.disk.files, ∀ record ∈ entry.2.frames, (frameLength record).isSome :=
    fun entry member record inside => mirrors.fits record
      (mem_flatMap.mpr ⟨entry, member, inside⟩)
  have dropped : wal.disk.files.dropLast = closed := by rw [mirrors.files, dropLast_concat]
  by_cases refused : ∃ entry ∈ wal.disk.files, (damage entry.1).Refused
  · obtain ⟨entry, member, refuses⟩ := refused
    obtain ⟨error, failed⟩ := readDirectory_refuses lawful fits detected member refuses
    have unopened : openDirectory reader options (damaged damage wal.disk.files) = .error error := by
      rw [openDirectory, valid, failed]
      rfl
    rw [unopened]
    exact ⟨entry, member, refuses⟩
  · have accepted : ∀ entry ∈ wal.disk.files, ¬ (damage entry.1).Refused :=
      fun entry member refuses => refused ⟨entry, member, refuses⟩
    obtain ⟨truncated, read⟩ := readDirectory_remaining lawful fits detected accepted
    have opens : openDirectory reader options (damaged damage wal.disk.files)
        = .ok (openInner options ⟨remaining damage wal.disk.files, []⟩,
          recoveryReport (remaining damage wal.disk.files)
            (openInner options ⟨remaining damage wal.disk.files, []⟩), truncated) := by
      rw [openDirectory, valid, read]
      simp only [openRecovered_eq valid]
      rfl
    have complete : (remaining damage closed).stored = closed.stored := by
      rw [WalDirectory.stored, remaining, flatMap_map]
      refine flatMap_congr fun entry member => ?_
      have inside : entry ∈ wal.disk.files := mirrors.files ▸ mem_append_left _ member
      rw [(before entry (dropped ▸ member)).resolve_left (accepted entry inside), take_length]
    have stored : (remaining damage wal.disk.files).stored
        = closed.stored ++ file.frames.take ((damage active.segmentId).kept file.frames) := by
      rw [mirrors.files, remaining, map_append, WalDirectory.stored_append, ← remaining,
        complete]
      simp
    have reopened : Reopened frameLength ⟨remaining damage wal.disk.files, []⟩
        (openInner options ⟨remaining damage wal.disk.files, []⟩) := by
      refine openInner_reopened ?_ fun record member => mirrors.fits record ?_
      · have ascending : Cabinet.Ascending wal.disk.files := mirrors.files ▸ mirrors.ascending
        exact pairwise_map.mpr ascending
      rw [stored] at member
      rw [mirrors.stored]
      exact mem_append.mpr ((mem_append.mp member).imp id mem_of_mem_take)
    have initial : (remaining damage wal.disk.files).stored <+: wal.disk.files.stored := by
      rw [stored, mirrors.stored]
      exact (prefix_append_right_inj _).mpr (List.take_prefix _ _)
    rw [opens]
    refine ⟨accepted, ⟨closed, _, mirrors.files, reopened.stored_eq.trans stored⟩,
      fun state recovered => ?_⟩
    have held : state ∈ foldWalRecords wal.disk.files.stored :=
      foldWalRecords_initial initial (recovered_mem recovered)
    refine ⟨?_, fun built history => ?_⟩
    · rwa [PersistentRaftWal.records, mirrors.recordsOf_stored]
    have arrives := (@tracks_empty frameLength options disk empty).submitAll built
      history.contiguous history.follows
    rw [wrote] at arrives
    rw [arrives.records, nil_append] at held
    obtain ⟨submitted, member, same⟩ := mem_map.mp held
    exact ⟨submitted, member, same.symm⟩

/-! ## Damage on a small log -/

def threeAppends : List Submission :=
  [.call (.append (logState [1])), .call (.append (logState [1, 1])),
    .call (.append (logState [1, 1, 2]))]

def rollingAfter (count : Nat) : PersistentRaftWalOptions := ⟨"wal", count, 4096, 1, true⟩

def threeAppended (count : Nat) : PersistentRaftWal :=
  (submitAll frameLength threeAppends (openInner (rollingAfter count) ⟨[], []⟩)).2

def lastFrameWrong (segmentId : Nat) : Alteration :=
  if segmentId = 1 then
    .corrupt 0 ([25, 0, 0, 0, 39] ++
      ((threeAppended 2).disk.files.flatMap fun entry =>
        if entry.1 = 1 then (Frames.written recordFrame entry.2.frames).drop 5 else []))
  else .cut 4096

theorem last_frame_wrong_recovers : ∃ opened report truncated,
      openDirectory taggedFields (rollingAfter 2)
          (damaged lastFrameWrong (threeAppended 2).disk.files) = .ok (opened, report, truncated) ∧
      opened.disk.files.stored.length = 2 ∧
      ∀ state, report.recovered = some state → state ∈ (threeAppended 2).records := by
  have wrote : submitAll frameLength threeAppends (openInner (rollingAfter 2) ⟨[], []⟩)
      = (.ok (), threeAppended 2) := Prod.ext (by decide +kernel) (by simp only [threeAppended])
  have detected : ∀ entry ∈ (threeAppended 2).disk.files,
      (lastFrameWrong entry.1).Detected entry.2.frames := by decide +kernel
  have before : ∀ entry ∈ (threeAppended 2).disk.files.dropLast, (lastFrameWrong entry.1).Refused ∨
      (lastFrameWrong entry.1).kept entry.2.frames = entry.2.frames.length := by decide +kernel
  have opens : (openDirectory taggedFields (rollingAfter 2)
      (damaged lastFrameWrong (threeAppended 2).disk.files)).toOption.map
        (fun result => result.1.disk.files.stored.length) = some 2 := by decide +kernel
  generalize threeAppended 2 = wal at wrote detected before opens ⊢
  have told := damaged_log_recovers taggedFields taggedFields_lawful (rollingAfter 2) rfl ⟨[], []⟩
    rfl threeAppends wal wrote lastFrameWrong detected before
  rcases ran : openDirectory taggedFields (rollingAfter 2) (damaged lastFrameWrong wal.disk.files)
    with error | ⟨opened, report, truncated⟩
  · rw [ran] at opens
    cases opens
  rw [ran] at told opens
  exact ⟨opened, report, truncated, rfl, Option.some.inj opens,
    fun state recovered => (told.2.2 state recovered).1⟩

def firstLengthWrong (frames : List WalRecord) : Alteration :=
  .corrupt 0 (255 :: (Frames.written recordFrame frames).drop 1)

theorem three_records_omitted :
    ∃ frames, (threeAppended 8).disk.files.map (fun entry => entry.2.frames) = [frames] ∧
      frames.length = 3 ∧ (firstLengthWrong frames).Detected frames ∧
      (openDirectory taggedFields (rollingAfter 8)
        (damaged (fun _ => firstLengthWrong frames) (threeAppended 8).disk.files)).toOption.map
          (fun result => (result.2.1.recovered, result.2.1.survivingRecords)) = some (none, 0) := by
  refine ⟨(threeAppended 8).disk.files.stored, ?_, ?_, ?_, ?_⟩ <;> decide +kernel

end MatrixRaft
