/-
# WalDelta — delta records lose nothing

A log is submitted to the write-ahead log as a whole record, as one of a batch, or through
`wal_record_for_coverage`; what is stored is often only its tail.  `Tracks` is the invariant
behind that: the stored records fold to the log submitted last, and the coverage the writer
keeps is that log's.
-/
import MatrixRaft.WalShape
import MatrixRaft.Theory.Numbered

namespace MatrixRaft
open Theory PersistentRaftWal List RaftCluster Search

/-! ## Logs that follow one another -/

def Contiguous (log : List LogEntry) : Prop := ∃ first, Numbered LogEntry.index first log

def LogsMatch (log other : List LogEntry) : Prop :=
  ∀ entry ∈ log, ∀ entry' ∈ other, entry.index = entry'.index → entry.term = entry'.term →
    ∀ before ∈ log, ∀ before' ∈ other, before.index = before'.index →
      before.index ≤ entry.index → before = before'

inductive Revises : List LogEntry → List LogEntry → Prop
  | append (log tail : List LogEntry) : Revises log (log ++ tail)
  | truncate (log : List LogEntry) (count : Nat) : Revises log (log.take count)
  /-- The entries from a slot on make way for others that start at the same index. -/
  | replaceTail (log tail : List LogEntry) (count : Nat)
      (aligned : ∀ old ∈ log[count]?, ∀ new ∈ tail.head?, new.index = old.index) :
      Revises log (log.take count ++ tail)
  | compactFront (log : List LogEntry) (count : Nat) : Revises log (log.drop count)

theorem Revises.head_le {log next : List LogEntry} (revises : Revises log next) {a : Nat}
    (numbered : Numbered LogEntry.index a log) {first first' : LogEntry}
    (head : log.head? = some first) (head' : next.head? = some first') :
    first.index ≤ first'.index := by
  have inside : ∀ entry ∈ log, first.index ≤ entry.index := by
    intro entry member
    have atHead := numbered 0 first (by rw [← head?_eq_getElem?, head])
    have := (numbered.bounds member).1
    omega
  cases revises with
  | append => grind
  | truncate => exact inside first' (mem_of_mem_take (mem_of_mem_head? head'))
  | replaceTail => grind [head?_eq_getElem?]
  | compactFront => exact inside first' (mem_of_mem_drop (mem_of_mem_head? head'))

/-! ## What a delta leaves out -/

variable {log : List LogEntry}

theorem coverageOf_eq_some {coverage : WalCoverage} (covers : coverageOf log = some coverage) :
    ∃ first last, log.head? = some first ∧ log.getLast? = some last ∧ coverage =
    ⟨first.index, last.index, last.term⟩ := by
  unfold coverageOf at covers
  grind

theorem walDeltaBase_eq_some (increasing : Increasing LogEntry.index log)
    {coverage : WalCoverage} {base : Nat} (found : walDeltaBase log coverage = some base) :
    ∃ first entry position, base = position + 1 ∧ log.head? = some first ∧
    first.index ≤ coverage.firstIndex ∧ log[position]? = some entry ∧ entry.index =
    coverage.lastIndex ∧ entry.term = coverage.lastTerm := by
  unfold walDeltaBase at found
  rcases head : log.head? with _ | first <;> simp only [head] at found
  · cases found
  split at found
  · cases found
  next low =>
    rcases search : binarySearchBy
        (fun entry : LogEntry => compare entry.index coverage.lastIndex) log with _ | position <;>
      simp only [search] at found
    · cases found
    obtain ⟨entry, slot, hit⟩ := (binarySearchBy_eq_ok_iff increasing).mp search
    split at found
    · grind
    · cases found

/-- **What a delta leaves out** is the log it continues. -/
theorem LogsMatch.take_base {log next : List LogEntry} (agree : LogsMatch log next)
    (revises : Revises log next) (contiguous : Contiguous log) (contiguous' : Contiguous next)
    {base : Nat} (found : (coverageOf log).bind (walDeltaBase next) = some base) :
    next.take base = log := by
  obtain ⟨coverage, covers, based⟩ := Option.bind_eq_some_iff.mp found
  obtain ⟨first, last, head, atEnd, rfl⟩ := coverageOf_eq_some covers
  obtain ⟨a, numbered⟩ := contiguous
  obtain ⟨b, numbered'⟩ := contiguous'
  obtain ⟨first', entry, position, rfl, head', low, slot, hit, term⟩ :=
    walDeltaBase_eq_some numbered'.increasing based
  replace low : first'.index ≤ first.index := low
  replace hit : entry.index = last.index := hit
  have low' := revises.head_le numbered head head'
  have atFirst := numbered 0 first (by rw [← head?_eq_getElem?, head])
  have atFirst' := numbered' 0 first' (by rw [← head?_eq_getElem?, head'])
  have atLast : log[log.length - 1]? = some last := by rw [← getLast?_eq_getElem?, atEnd]
  have lastIndex := numbered _ last atLast
  have nonempty : 0 < log.length := length_pos_iff_exists_mem.mpr ⟨_, mem_of_mem_head? head⟩
  have entryIndex := numbered' _ entry slot
  have reach : position < next.length := (List.getElem?_eq_some_iff.mp slot).1
  have length : position + 1 = log.length := by omega
  refine List.ext_getElem? fun i => ?_
  rw [length]
  rcases lt_or_ge i log.length with inside | outside
  · have inside' : i < next.length := by omega
    rw [getElem?_take_of_lt inside, getElem?_eq_getElem inside,
      getElem?_eq_getElem inside']
    have atI := numbered i _ (getElem?_eq_getElem inside)
    have atI' := numbered' i _ (getElem?_eq_getElem inside')
    refine congrArg some (Eq.symm ?_)
    exact agree last (mem_of_mem_getLast? atEnd) entry (mem_of_getElem? slot) hit.symm
      term.symm _ (getElem_mem inside) _ (getElem_mem inside') (by omega) (by omega)
  · grind

theorem Node.extendsCoverage_eq {node : Node} (ordered : node.Ordered) (coverage : WalCoverage) :
    node.extendsCoverage coverage = walDeltaBase node.log coverage := by
  unfold Node.extendsCoverage walDeltaBase
  rcases search : binarySearchBy
      (fun entry : LogEntry => compare entry.index coverage.lastIndex) node.log with _ | position
  · have missed : node.logPosition coverage.lastIndex = none := by
      refine Option.eq_none_iff_forall_ne_some.mpr fun position found => ?_
      have hit := ordered.logPosition_eq_some_iff.mp found
      rw [(binarySearchBy_eq_ok_iff ordered).mpr hit] at search
      cases search
    grind
  · have found := ordered.logPosition_eq_some_iff.mpr
      ((binarySearchBy_eq_ok_iff ordered).mp search)
    grind

def storedForm (record : WalRecord) (base : Option Nat) : WalRecord :=
  match base with
  | none => wholeRecord record
  | some base => { record with entries := record.entries.drop base, entriesAreDelta := true }

theorem walRecordForCoverage_none (s : RaftCluster) (nodeId : Nat) :
    s.walRecordForCoverage nodeId none = s.walRecordFor nodeId := by
  unfold walRecordForCoverage walRecordFor
  split <;> rfl

variable {record : WalRecord}

theorem walRecordForCoverage_eq {s : RaftCluster} {nodeId : Nat} {node : Node}
    (held : s.nodes[nodeId]? = some node) (ordered : node.Ordered)
    (whole : s.walRecordFor nodeId = .ok record) (coverage : Option WalCoverage) :
    s.walRecordForCoverage nodeId coverage
      = .ok (storedForm record (coverage.bind (walDeltaBase record.entries))) := by
  rw [walRecordFor, held] at whole
  obtain rfl := Except.ok.inj whole
  have searches : node.extendsCoverage = walDeltaBase node.log :=
    funext (Node.extendsCoverage_eq ordered)
  simp only [walRecordForCoverage, held, searches]
  rcases coverage.bind (walDeltaBase node.log) with _ | slot <;> rfl

theorem fold_storedForm {base : Option Nat}
    (contiguous : Contiguous record.entries)
    (before : ∀ slot ∈ base, record.entries.take slot = log) :
    foldWalEntriesStep log (storedForm record base) = record.entries := by
  rcases base with _ | slot
  · rfl
  have cut := before slot rfl
  obtain ⟨a, numbered⟩ := contiguous
  have joined : log ++ record.entries.drop slot = record.entries := by
    rw [← cut, take_append_drop]
  rw [foldWalEntriesStep, if_pos (by rfl)]
  rcases head : (storedForm record (some slot)).entries.head? with _ | first
  · exact joined
  -- every entry before the tail lies below its first index
  have below : ∀ entry ∈ log, entry.index < first.index := by
    intro entry member
    have tail := ((numbered.drop slot).bounds (mem_of_mem_head? head)).1
    have front := ((numbered.take slot).bounds (cut ▸ member)).2
    grind
  have ordered : Partitioned (fun entry : LogEntry => decide (entry.index < first.index)) log :=
    (cut ▸ (numbered.take slot).increasing : Increasing LogEntry.index log).partitioned_lt _
  simp only
  rw [take_partitionPoint ordered, filter_eq_self.mpr]
  · exact joined
  · grind

theorem advanceCovered_storedForm {base : Option Nat}
    (before : ∀ slot ∈ base, record.entries.take slot = log ∧ log ≠ []) :
    advanceCovered (coverageOf log) (storedForm record base) = coverageOf record.entries := by
  rcases base with _ | slot
  · rfl
  obtain ⟨cut, nonempty⟩ := before slot rfl
  have joined : log ++ record.entries.drop slot = record.entries := by
    rw [← cut, take_append_drop]
  obtain ⟨first, rest, rfl⟩ := exists_cons_of_ne_nil nonempty
  obtain ⟨front, last, ending⟩ : ∃ front last, first :: rest = front ++ [last] :=
    ⟨_, _, (dropLast_append_getLast nonempty).symm⟩
  have end_log : (first :: rest).getLast? = some last := by rw [ending, getLast?_concat]
  rw [← joined]
  rcases tail : record.entries.drop slot with _ | ⟨next, more⟩
  · simp [advanceCovered, storedForm, tail]
  have end_tail : ∃ end_, (next :: more).getLast? = some end_ :=
    ⟨_, getLast?_eq_some_getLast (by simp)⟩
  obtain ⟨end_, end_eq⟩ := end_tail
  have whole_end : (first :: (rest ++ next :: more)).getLast? = some end_ := by grind
  simp [advanceCovered, storedForm, tail, coverageOf, end_log, end_eq, whole_end]

/-! ## Submissions -/

section Keeping
variable {frameLen : WalRecord → Option Nat} {keeps : PersistentRaftWal → Prop}
  (write : ∀ {wal : PersistentRaftWal}, keeps wal → ∀ record fsync,
    keeps (writeRecord frameLen record wal.activeRecords wal.rollingByCount fsync wal).2)

include write

theorem writeBatch_keeps (records : List WalRecord) :
    Attempt.Keeps keeps (writeBatch frameLen records) := by
  induction records with
  | nil => exact Attempt.Keeps.pure _
  | cons record records ih =>
    intro wal kept
    have first := write kept (wal.deltaRecord record) false
    unfold writeBatch
    rcases ran : writeRecord frameLen (wal.deltaRecord record) wal.activeRecords
        wal.rollingByCount false wal with ⟨error | report, wal'⟩ <;> rw [ran] at first
    · exact first
    · exact (ih.bind fun _ => Attempt.Keeps.pure _) wal' first

theorem appendBuilt_keeps (build : Option WalCoverage → Except RaftError WalRecord) :
    Attempt.Keeps keeps (appendBuilt frameLen build) := by
  intro wal kept
  unfold PersistentRaftWal.appendBuilt
  split
  · exact kept
  · exact write kept _ _

theorem appendBatch_keeps (sync : ∀ {wal}, keeps wal → keeps (wal.issue (.sync wal.activeId)))
    (records : List WalRecord) : Attempt.Keeps keeps (appendBatch frameLen records) := by
  unfold PersistentRaftWal.appendBatch
  split
  · exact Attempt.Keeps.pure _
  refine (writeBatch_keeps write records).bind fun reports wal kept => ?_
  split
  · exact sync kept
  · exact kept

end Keeping

/-- The calls that append to the log; `append_built` asks its caller for a record against what the log
covers. -/
inductive Appending where
  | append (record : WalRecord)
  | appendBatch (records : List WalRecord)
  | appendBuilt (build : Option WalCoverage → Except RaftError WalRecord)

namespace Appending

def perform (frameLen : WalRecord → Option Nat) : Appending → WalM Unit
  | append record => appendWithReport frameLen record >>= fun _ => pure ()
  | appendBatch records => PersistentRaftWal.appendBatch frameLen records >>= fun _ => pure ()
  | appendBuilt build => PersistentRaftWal.appendBuilt frameLen build >>= fun _ => pure ()

/-- The whole records a call stands for: a record is built whole where the log covers nothing. -/
def wholeRecords : Appending → List WalRecord
  | append record => [record]
  | appendBatch records => records
  | appendBuilt build => (build none).toOption.toList

/-- What is built is the state of a replica. -/
def OfReplica : Appending → Prop
  | appendBuilt build => ∃ s nodeId, build = RaftCluster.walRecordForCoverage s nodeId
  | _ => True

end Appending

/-- A call on the log, or a close and reopen in between. -/
inductive Submission where
  | call (appending : Appending)
  | reopen

namespace Submission

def records : Submission → List WalRecord
  | call appending => appending.wholeRecords
  | reopen => []

def OfReplica : Submission → Prop
  | call appending => appending.OfReplica
  | reopen => True

def submit (frameLen : WalRecord → Option Nat) : Submission → WalM Unit
  | call appending => appending.perform frameLen
  | reopen => Attempt.update fun wal => openInner wal.options wal.disk

end Submission

def submitAll (frameLen : WalRecord → Option Nat) (submissions : List Submission) : WalM Unit :=
  Attempt.forEach (Submission.submit frameLen) submissions

/-- A submitted state that the one before it leads to. -/
structure Follows (previous record : WalRecord) : Prop where
  contiguous : Contiguous previous.entries
  contiguous' : Contiguous record.entries
  revises : Revises previous.entries record.entries
  agree : LogsMatch previous.entries record.entries

def logOf (last : Option WalRecord) : List LogEntry := (last.map WalRecord.entries).getD []

structure Tracks (frameLen : WalRecord → Option Nat) (wal : PersistentRaftWal)
    (submitted : List WalRecord) : Prop where
  mirrors : ∃ shelved active closed file, Mirrors frameLen wal shelved active closed file
  unmoved : ∀ expected, wal.expectedActiveLen = some expected → expected = wal.activeLen frameLen
  folded : foldWalEntries wal.disk.files.stored = logOf submitted.getLast?
  records : foldWalRecords wal.disk.files.stored = submitted.map wholeRecord
  covered : wal.activeCovered = coverageOf (logOf submitted.getLast?)

variable {records : List WalRecord}

section Tracking
variable {frameLen : WalRecord → Option Nat} {wal : PersistentRaftWal}
  {submitted : List WalRecord} {record : WalRecord} {α β : Type}

section
variable (tracks : Tracks frameLen wal submitted)

include tracks

theorem Tracks.latest :
    foldWalLatestRecord wal.disk.files.stored = submitted.getLast?.map wholeRecord := by
  grind [tracks.records, getLast?_foldWalRecords]

theorem Tracks.base_before (follows : ∀ previous ∈ submitted.getLast?, Follows previous record) :
    ∀ slot ∈ wal.activeCovered.bind (walDeltaBase record.entries),
      record.entries.take slot = logOf submitted.getLast? ∧ logOf submitted.getLast? ≠ [] := by
  intro slot found
  rw [tracks.covered] at found
  generalize submitted.getLast? = last at found follows ⊢
  rcases last with _ | previous
  · cases found
  have follow := follows previous rfl
  refine ⟨follow.agree.take_base follow.revises follow.contiguous follow.contiguous' found, ?_⟩
  intro empty
  rw [empty] at found
  cases found

def Refusal (error : RaftError) : Prop :=
  error = .storage .frameTooLong ∨ ∃ nodeId, error = .nodeNotFound nodeId

/-- An operation is refused, or leaves a log that tracks the given states. -/
def Arrives (frameLen : WalRecord → Option Nat) (result : Except RaftError α × PersistentRaftWal)
    (submitted : List WalRecord) : Prop :=
  match result with
  | (.ok _, wal) => Tracks frameLen wal submitted
  | (.error error, _) => Refusal error

omit tracks in
theorem Arrives.bind {m : WalM α} {f : α → WalM β} {middle : List WalRecord}
    (first : Arrives frameLen (m wal) middle)
    (rest : ∀ a wal', Tracks frameLen wal' middle → Arrives frameLen (f a wal') submitted) :
    Arrives frameLen ((m >>= f) wal) submitted := by
  rw [Attempt.bind_apply]
  rcases ran : m wal with ⟨_ | a, wal'⟩ <;> rw [ran] at first
  · exact first
  · exact rest a wal' first

omit tracks in
theorem Arrives.forget {m : WalM α} (arrives : Arrives frameLen (m wal) submitted) :
    Arrives frameLen ((m >>= fun _ => (pure () : WalM Unit)) wal) submitted :=
  arrives.bind fun _ _ tracks => tracks

/-- **One state.** Writing the stored form of the next state keeps the invariant. -/
theorem Tracks.step (contiguous : Contiguous record.entries)
    (follows : ∀ previous ∈ submitted.getLast?, Follows previous record) (fsync : Bool) :
    Arrives frameLen (writeRecord frameLen
      (storedForm record (wal.activeCovered.bind (walDeltaBase record.entries)))
      wal.activeRecords wal.rollingByCount fsync wal) (submitted ++ [record]) := by
  set stored := storedForm record (wal.activeCovered.bind (walDeltaBase record.entries))
    with stored_eq
  have before := tracks.base_before follows
  obtain ⟨_, _, _, _, mirrors⟩ := tracks.mirrors
  rcases mirrors.writeRecord_written tracks.unmoved stored wal.activeRecords wal.rollingByCount
      fsync with ⟨-, refused⟩ | ⟨report, wal', done, written⟩
  · rw [refused]
    exact .inl rfl
  rw [done]
  have folds : foldWalEntriesStep (logOf submitted.getLast?) stored = record.entries :=
    fold_storedForm contiguous fun slot found => (before slot found).1
  refine ⟨written.mirrors, written.unmoved, ?_, ?_, ?_⟩
  · rw [written.stored, foldWalEntries_concat, tracks.folded, folds, getLast?_concat]
    rfl
  · rw [written.stored, foldWalRecords_concat, tracks.folded, folds, tracks.records, map_append,
      stored_eq]
    rcases wal.activeCovered.bind (walDeltaBase record.entries) with _ | slot <;> rfl
  · rw [written.covered, tracks.covered, getLast?_concat]
    exact advanceCovered_storedForm before

omit tracks in
theorem follows_last (chain : (submitted ++ record :: records).IsChain Follows) :
    ∀ previous ∈ submitted.getLast?, Follows previous record := by grind [isChain_append]

theorem Tracks.writeBatch (contiguous : ∀ record ∈ records, Contiguous record.entries)
    (chain : (submitted ++ records).IsChain Follows) :
    Arrives frameLen (writeBatch frameLen records wal) (submitted ++ records) := by
  induction records generalizing wal submitted with
  | nil =>
    rw [append_nil]
    exact tracks
  | cons record records ih =>
    have first := tracks.step (contiguous record mem_cons_self) (follows_last chain) false
    change Arrives frameLen (writeRecord frameLen (wal.deltaRecord record) _ _ _ _) _ at first
    unfold writeBatch
    rcases ran : writeRecord frameLen (wal.deltaRecord record) wal.activeRecords
        wal.rollingByCount false wal with ⟨error | report, wal'⟩ <;> rw [ran] at first
    · exact first
    have rest := ih first (fun other member => contiguous other (mem_cons_of_mem _ member))
      (by rwa [append_assoc])
    rw [append_assoc] at rest
    exact rest.bind fun _ _ tracks => tracks

theorem Tracks.synced : Tracks frameLen (wal.issue (.sync wal.activeId)) submitted := by
  obtain ⟨shelved, active, closed, file, mirrors⟩ := tracks.mirrors
  have after := mirrors.synced
  have stored : (wal.issue (.sync wal.activeId)).disk.files.stored = wal.disk.files.stored := by
    rw [after.stored, mirrors.stored]
  exact {
    mirrors := ⟨_, _, _, _, after⟩
    unmoved := by
      intro expected held
      rw [tracks.unmoved expected held, mirrors.activeLen, after.activeLen]
    folded := stored ▸ tracks.folded
    records := stored ▸ tracks.records
    covered := tracks.covered }

theorem Tracks.reopened : Tracks frameLen (openInner wal.options wal.disk) submitted := by
  obtain ⟨_, _, _, _, mirrors⟩ := tracks.mirrors
  have reopened : Reopened frameLen wal.disk (openInner wal.options wal.disk) :=
    openInner_reopened (mirrors.files ▸ mirrors.ascending) mirrors.fits
  exact {
    mirrors := reopened.mirrors
    unmoved := fun expected held => by
      cases held
    folded := reopened.stored_eq ▸ tracks.folded
    records := reopened.stored_eq ▸ tracks.records
    covered := by rw [reopened.covered, tracks.folded] }

theorem Tracks.perform {appending : Appending} (built : appending.OfReplica)
    (contiguous : ∀ record ∈ appending.wholeRecords, Contiguous record.entries)
    (chain : (submitted ++ appending.wholeRecords).IsChain Follows) :
    Arrives frameLen (appending.perform frameLen wal) (submitted ++ appending.wholeRecords) := by
  cases appending with
  | append record =>
    have written := tracks.step (contiguous record mem_cons_self) (follows_last chain)
      wal.options.fsyncOnAppend
    exact Arrives.forget (m := appendWithReport frameLen record) written
  | appendBatch records =>
    refine Arrives.forget ?_
    unfold PersistentRaftWal.appendBatch
    rcases records with _ | ⟨record, records⟩
    · rw [Appending.wholeRecords, append_nil]
      exact tracks
    refine (tracks.writeBatch contiguous chain).bind fun reports wal' after => ?_
    split
    · exact after.synced
    · exact after
  | appendBuilt build =>
    obtain ⟨s, nodeId, rfl⟩ := built
    refine Arrives.forget ?_
    unfold PersistentRaftWal.appendBuilt
    rcases held : s.nodes[nodeId]? with _ | node
    · rw [walRecordForCoverage, held]
      exact .inr ⟨nodeId, rfl⟩
    obtain ⟨record, whole, log⟩ : ∃ record, s.walRecordFor nodeId = .ok record ∧
        record.entries = node.log := by simp [walRecordFor, held]
    have submitted : (Appending.appendBuilt (s.walRecordForCoverage nodeId)).wholeRecords =
        [record] := by
      rw [Appending.wholeRecords, walRecordForCoverage_none, whole]
      rfl
    rw [submitted] at contiguous chain ⊢
    obtain ⟨a, numbered⟩ := contiguous record mem_cons_self
    have ordered : node.Ordered := by
      rw [Node.Ordered, ← log]
      exact numbered.increasing
    rw [walRecordForCoverage_eq held ordered whole]
    exact tracks.step (contiguous record mem_cons_self) (follows_last chain)
      wal.options.fsyncOnAppend

theorem Tracks.submitAll {submissions : List Submission}
    (built : ∀ submission ∈ submissions, submission.OfReplica)
    (contiguous : ∀ record ∈ submissions.flatMap Submission.records, Contiguous record.entries)
    (chain : (submitted ++ submissions.flatMap Submission.records).IsChain Follows) :
    Arrives frameLen (submitAll frameLen submissions wal)
      (submitted ++ submissions.flatMap Submission.records) := by
  induction submissions generalizing wal submitted with
  | nil =>
    rw [flatMap_nil, append_nil]
    exact tracks
  | cons submission submissions ih =>
    rw [flatMap_cons] at contiguous chain ⊢
    rw [← append_assoc] at chain ⊢
    have first : Arrives frameLen (submission.submit frameLen wal)
        (submitted ++ submission.records) := by
      cases submission with
      | call appending =>
        exact tracks.perform (built _ mem_cons_self)
          (fun record member => contiguous record (mem_append_left _ member)) chain.left_of_append
      | reopen =>
        rw [Submission.records, append_nil]
        exact tracks.reopened
    exact first.bind fun _ _ after => ih after
      (fun other member => built other (mem_cons_of_mem _ member))
      (fun record member => contiguous record (mem_append_right _ member)) chain

end
end Tracking

/-! ## Nothing is lost -/

structure LogHistory (records : List WalRecord) : Prop where
  contiguous : ∀ record ∈ records, Contiguous record.entries
  revised : records.IsChain fun previous next => Revises previous.entries next.entries
  agree : ∀ record ∈ records, ∀ other ∈ records, LogsMatch record.entries other.entries

theorem LogHistory.follows (history : LogHistory records) : records.IsChain Follows := by
  obtain ⟨contiguous, revised, agree⟩ := history
  induction records with
  | nil => exact .nil
  | cons record records ih =>
    have rest := ih (fun other member => contiguous other (mem_cons_of_mem _ member))
      revised.tail (fun one member other member' =>
        agree one (mem_cons_of_mem _ member) other (mem_cons_of_mem _ member'))
    cases records with
    | nil => exact .singleton _
    | cons next =>
      refine .cons_cons ⟨contiguous record mem_cons_self,
        contiguous next (mem_cons_of_mem _ mem_cons_self),
        (isChain_cons_cons.mp revised).1,
        agree record mem_cons_self next (mem_cons_of_mem _ mem_cons_self)⟩ rest

theorem tracks_empty {frameLen : WalRecord → Option Nat} {options : PersistentRaftWalOptions}
    {disk : Disk} (empty : disk.files = []) : Tracks frameLen (openInner options disk) [] := by
  have opened : Reopened frameLen disk (openInner options disk) := openInner_empty empty
  exact {
    mirrors := opened.mirrors
    unmoved := fun expected held => by
      cases held
    folded := by rw [opened.stored_eq, empty]; rfl
    records := by rw [opened.stored_eq, empty]; rfl
    covered := by rw [opened.covered, empty]; rfl }

/-- **Delta records lose nothing.** Whatever appends, batches, built records and reopenings a history
of log states is submitted through, folding the stored records gives exactly the last submitted
record, with its whole log. -/
theorem latest_is_last_submitted (frameLen : WalRecord → Option Nat)
    (options : PersistentRaftWalOptions) (disk : Disk) (empty : disk.files = [])
    (submissions : List Submission) (built : ∀ submission ∈ submissions, submission.OfReplica)
    (history : LogHistory (submissions.flatMap Submission.records)) :
    (∀ wal, submitAll frameLen submissions (openInner options disk) = (.ok (), wal) →
      wal.latestRecord = (submissions.flatMap Submission.records).getLast?.map wholeRecord ∧
      foldWalLatestRecord wal.disk.files.stored
        = (submissions.flatMap Submission.records).getLast?.map wholeRecord) ∧
    ∀ error wal, submitAll frameLen submissions (openInner options disk) = (.error error, wal) →
      error = .storage .frameTooLong ∨ ∃ nodeId, error = .nodeNotFound nodeId := by
  have arrives := (@tracks_empty frameLen options disk empty).submitAll built
    history.contiguous history.follows
  refine ⟨fun wal ran => ?_, fun error wal ran => ?_⟩ <;> rw [ran] at arrives
  · obtain ⟨_, _, _, _, mirrors⟩ := arrives.mirrors
    exact ⟨mirrors.latestRecord.trans arrives.latest, arrives.latest⟩
  · exact arrives

def logState (terms : List Nat) : WalRecord :=
  { (default : WalRecord) with
    entries := terms.mapIdx fun slot term => ⟨⟨term, slot + 1⟩, [], false⟩ }

theorem logState_contiguous (terms : List Nat) : Contiguous (logState terms).entries := by
  refine ⟨1, fun i entry slot => ?_⟩
  grind [logState]

def replacedTail : List Submission :=
  [.call (.append (logState [1, 1])), .reopen,
    .call (.appendBatch [logState [1, 2], logState [1, 2, 2]])]

theorem latest_after_replaced_tail :
    ∃ wal, submitAll (fun _ => some 8) replacedTail (openInner ⟨"wal", 1, 64, 1, true⟩ ⟨[], []⟩)
        = (.ok (), wal) ∧ wal.latestRecord = some (logState [1, 2, 2]) := by
  have history : LogHistory [logState [1, 1], logState [1, 2], logState [1, 2, 2]] := {
    contiguous := by
      intro record member
      simp only [mem_cons, not_mem_nil, or_false] at member
      rcases member with rfl | rfl | rfl <;> exact logState_contiguous _
    revised := .cons_cons
      (.replaceTail (logState [1, 1]).entries [⟨⟨2, 2⟩, [], false⟩] 1 (by decide))
      (.cons_cons (.append (logState [1, 2]).entries [⟨⟨2, 3⟩, [], false⟩]) (.singleton _))
    agree := by
      unfold LogsMatch
      decide }
  have accepted : (submitAll (fun _ => some 8) replacedTail
      (openInner ⟨"wal", 1, 64, 1, true⟩ ⟨[], []⟩)).1.isOk = true := by decide +kernel
  have built : ∀ submission ∈ replacedTail, submission.OfReplica := by
    simp [replacedTail, Submission.OfReplica, Appending.OfReplica]
  obtain ⟨told, -⟩ := latest_is_last_submitted (fun _ => some 8) ⟨"wal", 1, 64, 1, true⟩ ⟨[], []⟩
    rfl replacedTail built history
  generalize submitAll (fun _ => some 8) replacedTail
    (openInner ⟨"wal", 1, 64, 1, true⟩ ⟨[], []⟩) = result at accepted told ⊢
  obtain ⟨error | ⟨⟩, wal⟩ := result
  · cases accepted
  · exact ⟨wal, rfl, (told wal rfl).1⟩

end MatrixRaft
