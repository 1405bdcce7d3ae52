/-
# LogBuffer — entries in memory until storage has them

`log_buffer.rs` keeps the tail of a log behind a sentinel.  Entries before `flushingOffset`
are stored, those up to `waitingOffset` are being written, the rest is new.  An answer of
storage names a range only, whose entries may have been replaced since: one flush is out at
a time, and a truncation moves both offsets.
-/
import MatrixRaft.Types
import MatrixRaft.Theory.Attempt

namespace MatrixRaft
open Theory List

structure LogBufferFlush where
  entries : List LogEntry
  (firstIndex lastIndex : Nat)
  deriving DecidableEq

structure LogBuffer where
  cacheMemoryLimit : Nat
  initialState : LogId
  flushing : Bool
  (flushingOffset waitingOffset logBufferBytes : Nat)
  entries : List LogEntry
  deriving DecidableEq

def entrySize (entry : LogEntry) : Nat := 24 + entry.payload.length

/-- Refusals carry the text of `RaftError::InvalidRequest`. -/
abbrev LogBufferM (α : Type) := Attempt LogBuffer String α

namespace LogBuffer

def new (cacheMemoryLimit : Nat) (initialState : LogId) : LogBuffer where
  cacheMemoryLimit := max cacheMemoryLimit 1
  initialState := initialState
  flushing := false
  flushingOffset := 1
  waitingOffset := 1
  logBufferBytes := entrySize ⟨initialState, [], false⟩
  entries := [⟨initialState, [], false⟩]

def actualFirstIndex (buffer : LogBuffer) : Nat := buffer.initialState.index

def lastIndex (buffer : LogBuffer) : Nat := buffer.actualFirstIndex + buffer.entries.length - 1

def lastSyncedIndex (buffer : LogBuffer) : Nat := buffer.actualFirstIndex + buffer.flushingOffset - 1

def append (entry : LogEntry) : LogBufferM Unit := fun buffer =>
  let expected := satAdd buffer.lastIndex 1
  if entry.index ≠ expected then
    (.error s!"log buffer append expects index {expected}, got {entry.index}", buffer)
  else
    (.ok (), { buffer with
      logBufferBytes := satAdd buffer.logBufferBytes (entrySize entry)
      entries := buffer.entries ++ [entry] })

def flush : LogBufferM (Option LogBufferFlush) := fun buffer =>
  if buffer.flushing || buffer.entries.length == buffer.flushingOffset then (.ok none, buffer)
  else if buffer.flushingOffset ≠ buffer.waitingOffset then
    (.error "log buffer has entries already waiting for storage flush", buffer)
  else
    let flushed := buffer.entries.drop buffer.waitingOffset
    (.ok (some {
        entries := flushed
        firstIndex := (flushed.head?.map LogEntry.index).getD 0
        lastIndex := (flushed.getLast?.map LogEntry.index).getD 0 }),
      { buffer with waitingOffset := buffer.entries.length, flushing := true })

def applyAppendResult (firstIndex lastIndex : Nat) : LogBufferM Nat := fun buffer =>
  let first := buffer.actualFirstIndex
  if firstIndex = 0 ∨ lastIndex < firstIndex then
    (.error s!"invalid stabled range: {firstIndex}..={lastIndex}", buffer)
  else if firstIndex < first then
    (.error s!"append result first index {firstIndex} is before first retained index {first}",
      buffer)
  else
    let firstOffset := firstIndex - first
    let lastPendingOffset := satAdd firstOffset (lastIndex - firstIndex + 1)
    let idle := { buffer with flushing := false }
    let stored := { idle with flushingOffset := buffer.waitingOffset }
    if buffer.waitingOffset = lastPendingOffset then (.ok lastIndex, stored)
    else if lastPendingOffset ≤ buffer.waitingOffset then
      (.error "log buffer append result can only be rolled back", idle)
    else if firstOffset ≠ buffer.flushingOffset ∨ buffer.flushingOffset = buffer.waitingOffset then
      if firstOffset < buffer.flushingOffset then
        (.error "log buffer stabled offset moved past append result", idle)
      else (.ok 0, idle)
    else
      -- a truncation came in between: only what still waits was written
      (.ok (firstIndex + (buffer.waitingOffset - buffer.flushingOffset) - 1), stored)

def truncateFromIndex (index : Nat) : LogBufferM Unit := fun buffer =>
  let first := buffer.actualFirstIndex
  if index ≤ first then
    (.error s!"truncate index {index} must be after first retained index {first}", buffer)
  else if satAdd buffer.lastIndex 1 < index then (.ok (), buffer)
  else
    let offset := index - first
    (.ok (), { buffer with
      waitingOffset := min buffer.waitingOffset offset
      flushingOffset := min buffer.flushingOffset offset
      logBufferBytes := (buffer.entries.drop offset).reverse.foldl
        (fun bytes entry => bytes - entrySize entry) buffer.logBufferBytes
      entries := buffer.entries.take offset })

end LogBuffer

/-! ## Storage at work -/

/-- A buffer, the flushes storage has not answered yet and those it has acknowledged. -/
structure Storing where
  buffer : LogBuffer
  (issued acknowledged : List LogBufferFlush)

inductive StorageCall where
  | append (entry : LogEntry)
  | flush
  | truncateFromIndex (index : Nat)
  /-- Storage answers one of the flushes it has been handed, with its range. -/
  | acknowledge (position : Nat)

namespace Storing

def start (cacheMemoryLimit : Nat) (initialState : LogId) : Storing :=
  ⟨LogBuffer.new cacheMemoryLimit initialState, [], []⟩

def step (s : Storing) : StorageCall → Storing
  | .append entry => { s with buffer := (LogBuffer.append entry s.buffer).2 }
  | .truncateFromIndex index => { s with buffer := (LogBuffer.truncateFromIndex index s.buffer).2 }
  | .flush =>
    match LogBuffer.flush s.buffer with
    | (.ok (some flush), buffer) => { s with buffer := buffer, issued := s.issued ++ [flush] }
    | (_, buffer) => { s with buffer := buffer }
  | .acknowledge position =>
    match s.issued[position]? with
    | none => s
    | some flush =>
      { buffer := (LogBuffer.applyAppendResult flush.firstIndex flush.lastIndex s.buffer).2
        issued := s.issued.eraseIdx position
        acknowledged := s.acknowledged ++ [flush] }

/-- What stands between two offsets was written by one of the flushes. -/
def WrittenBy (flushes : List LogBufferFlush) (entries : List LogEntry) (low high : Nat) : Prop :=
  ∀ offset entry, low ≤ offset → offset < high → entries[offset]? = some entry →
    ∃ flush ∈ flushes, entry ∈ flush.entries

structure Tracked (s : Storing) : Prop where
  ordered : s.buffer.flushingOffset ≤ s.buffer.waitingOffset
  within : s.buffer.waitingOffset ≤ s.buffer.entries.length
  stored : WrittenBy s.acknowledged s.buffer.entries 1 s.buffer.flushingOffset
  out : s.issued = [] ∨ s.buffer.flushing = true ∧ ∃ flush, s.issued = [flush] ∧
    WrittenBy s.issued s.buffer.entries s.buffer.flushingOffset s.buffer.waitingOffset

variable {s : Storing} {flushes : List LogBufferFlush}

section
variable {entries : List LogEntry} {low high : Nat} (written : WrittenBy flushes entries low high)
include written

theorem WrittenBy.append (within : high ≤ entries.length)
    (entry : LogEntry) : WrittenBy flushes (entries ++ [entry]) low high := by
  intro offset found above below held
  rw [getElem?_append_left (below.trans_le within)] at held
  exact written offset found above below held

theorem WrittenBy.take (count : Nat) {low' high' : Nat} (up : low ≤ low') (down : high' ≤ high) :
    WrittenBy flushes (entries.take count) low' high' := by
  intro offset found above below held
  rw [getElem?_take] at held
  split at held
  · exact written offset found (up.trans above) (below.trans_le down) held
  · cases held

end

theorem Tracked.acknowledge (tracked : s.Tracked) (position : Nat) :
    (s.step (.acknowledge position)).Tracked := by
  rcases found : s.issued[position]? with _ | flush <;> simp only [Storing.step, found]
  · exact tracked
  obtain ⟨ordered, within, stored, none | ⟨-, out, one, written⟩⟩ := tracked
  · simp [none] at found
  obtain ⟨rfl, rfl⟩ : position = 0 ∧ flush = out := by
    rw [one, getElem?_singleton] at found
    grind
  have kept : WrittenBy (s.acknowledged ++ [flush]) s.buffer.entries 1 s.buffer.flushingOffset :=
    fun offset entry above below held => by grind [stored offset entry above below held]
  have covers : WrittenBy (s.acknowledged ++ [flush]) s.buffer.entries 1 s.buffer.waitingOffset := by
    intro offset entry above below held
    rcases lt_or_ge offset s.buffer.flushingOffset with early | late
    · exact kept offset entry above early held
    · grind [written offset entry late below held]
  have none : s.issued.eraseIdx 0 = [] := by rw [one]; rfl
  unfold LogBuffer.applyAppendResult
  dsimp only
  split_ifs
  all_goals first
    | exact ⟨ordered, within, kept, .inl none⟩
    | exact ⟨le_rfl, within, covers, .inl none⟩

theorem Tracked.step (tracked : s.Tracked) (call : StorageCall) : (s.step call).Tracked := by
  obtain ⟨ordered, within, stored, out⟩ := id tracked
  cases call with
  | append entry =>
    simp only [Storing.step, LogBuffer.append]
    split_ifs
    · exact tracked
    · refine ⟨ordered, by simpa using within.trans (Nat.le_succ _),
        stored.append (ordered.trans within) entry, ?_⟩
      exact out.imp_right fun ⟨flushing, flush, one, written⟩ =>
        ⟨flushing, flush, one, written.append within entry⟩
  | flush =>
    simp only [Storing.step, LogBuffer.flush]
    split_ifs with busy waiting
    · exact tracked
    · exact tracked
    · simp only [Bool.or_eq_true, not_or, Bool.not_eq_true, not_not] at busy waiting
      have none : s.issued = [] := by grind
      dsimp only
      refine ⟨ordered.trans within, le_rfl, stored, .inr ⟨rfl, _, by rw [none]; rfl, ?_⟩⟩
      intro offset entry above below held
      refine ⟨_, mem_append_right _ (mem_singleton_self _), ?_⟩
      have place : s.buffer.waitingOffset + (offset - s.buffer.waitingOffset) = offset :=
        Nat.add_sub_cancel' (waiting ▸ above)
      exact mem_iff_getElem?.mpr ⟨_, by rw [getElem?_drop, place]; exact held⟩
  | truncateFromIndex =>
    simp only [Storing.step, LogBuffer.truncateFromIndex]
    split_ifs
    · exact tracked
    · exact tracked
    · refine ⟨min_le_min_right _ ordered, ?_, stored.take _ le_rfl (min_le_left _ _), ?_⟩
      · rw [length_take]
        exact le_min (min_le_right _ _) ((min_le_left _ _).trans within)
      refine out.imp_right fun ⟨flushing, flush, one, written⟩ => ⟨flushing, flush, one, ?_⟩
      intro offset entry above below held
      dsimp only at above below held
      -- a cut before the flush leaves nothing waiting
      exact written.take _ le_rfl le_rfl offset entry (by omega) (by omega) held
  | acknowledge position => exact tracked.acknowledge position

/-- **Stale answers.** Whatever is appended, flushed and cut off while storage is at work, an
entry the synced index covers is one that an acknowledged flush wrote. -/
theorem synced_was_written (cacheMemoryLimit : Nat) (initialState : LogId) (calls : List StorageCall) :
    ∀ s, s = calls.foldl step (start cacheMemoryLimit initialState) → ∀ index entry,
      s.buffer.actualFirstIndex < index → index ≤ s.buffer.lastSyncedIndex →
      s.buffer.entries[index - s.buffer.actualFirstIndex]? = some entry →
      ∃ flush ∈ s.acknowledged, entry ∈ flush.entries := by
  rintro s rfl index entry above below held
  have begun : (start cacheMemoryLimit initialState).Tracked :=
    ⟨le_rfl, le_rfl, fun _ _ above below => absurd below above.not_gt, .inl rfl⟩
  have tracked := run_invariant (fun s call (tracked : Tracked s) => tracked.step call) begun calls
  refine tracked.stored _ _ (by omega) ?_ held
  unfold LogBuffer.lastSyncedIndex at below
  omega

/-- An entry appended, flushed and acknowledged. -/
theorem synced_was_written_once :
    ∃ flush ∈ ([.append ⟨⟨1, 1⟩, [7], true⟩, .flush, .acknowledge 0].foldl step
      (start 100 ⟨0, 0⟩)).acknowledged, (⟨⟨1, 1⟩, [7], true⟩ : LogEntry) ∈ flush.entries :=
  synced_was_written 100 ⟨0, 0⟩ [.append ⟨⟨1, 1⟩, [7], true⟩, .flush, .acknowledge 0] _ rfl 1 _
    (by decide) (by decide) rfl

end Storing
end MatrixRaft
