/-
# WalRecords — folding stored records and picking the one to restore

A write-ahead log stores a record whole or as the tail that continues the records before
it.  Folding turns stored records back into whole ones; recovery ranks them by committed
index, the later first on a tie, and restores the first whose fold passes the validators.
Readers hand over only frames whose digest is right, so neither fold stops early here.
-/
import MatrixRaft.Recovery

namespace MatrixRaft
open Theory
variable (record : WalRecord)

namespace WalRecord

def committedIndex : Nat :=
  (record.hardState.committed.map LogId.index).getD 0

/-- `wal_record_index`. -/
def logIndex : Nat :=
  ((record.hardState.committed.map LogId.index).or
    (record.entries.getLast?.map LogEntry.index)).getD 0

end WalRecord

/-! ## Validators -/

def validateHardStatePersistence : Except RaftError Unit :=
  match record.hardState.committed with
  | none => .ok ()
  | some committed =>
    let lastEntryIndex := (record.entries.getLast?.map LogEntry.index).getD 0
    let snapshotIndex :=
      (record.installedSnapshot.map fun snapshot => snapshot.lastLogId.index).getD 0
    if committed.term > record.hardState.currentTerm then
      .error (.storage .committedTermAhead)
    else if committed.index > max lastEntryIndex snapshotIndex then
      .error (.storage .committedIndexAhead)
    else .ok ()

def validateApplySnapshotFence : Except RaftError Unit :=
  let fence := record.applySnapshotFence
  if fence.appliedIndex > record.committedIndex then .error (.storage .fenceAheadOfCommitted)
  else if fence.commitIndex ≠ record.committedIndex then .error (.storage .fenceCommitMismatch)
  else match record.installedSnapshot with
    | none => validateLogContinuesSnapshot record
    | some snapshot =>
      if fence.installedSnapshotIndex ≠ snapshot.lastLogId.index then
        .error (.storage .fenceSnapshotMismatch)
      else if 0 < fence.firstRetainedLogIndex ∧
          fence.firstRetainedLogIndex ≤ snapshot.lastLogId.index then
        .error (.storage .retainedOverlapsSnapshot)
      else validateLogContinuesSnapshot record

def WalRecord.recoverable : Bool :=
  (validateHardStatePersistence record).toBool && (validateApplySnapshotFence record).toBool

/-! ## Folding -/

variable (folded : List LogEntry)

def foldWalEntriesStep (record : WalRecord) : List LogEntry :=
  if record.entriesAreDelta then
    match record.entries.head? with
    | some first =>
      folded.take (Search.partitionPoint (fun entry => decide (entry.index < first.index)) folded)
        ++ record.entries
    | none => folded ++ record.entries
  else record.entries

def wholeFromFolded : WalRecord :=
  { record with entries := folded, entriesAreDelta := false }

def foldWalEntriesFrom (records : List WalRecord) : List LogEntry :=
  records.foldl foldWalEntriesStep folded

def foldWalEntries (records : List WalRecord) : List LogEntry := foldWalEntriesFrom [] records

def foldWalRecordsFrom (folded : List LogEntry) : List WalRecord → List WalRecord
  | [] => []
  | record :: records =>
    let next := foldWalEntriesStep folded record
    wholeFromFolded record next :: foldWalRecordsFrom next records

variable (stored : List WalRecord)

def foldWalRecords : List WalRecord := foldWalRecordsFrom [] stored

def foldWalLatestRecord : Option WalRecord :=
  stored.getLast?.map fun record => wholeFromFolded record (foldWalEntries stored)

/-! ## Picking a record -/

/-- Ranking of candidates `(committed index, position)`: highest first. -/
def RanksBefore (left right : Nat × Nat) : Prop :=
  right.1 < left.1 ∨ (right.1 = left.1 ∧ right.2 ≤ left.2)

instance : DecidableRel RanksBefore :=
  fun left right => inferInstanceAs (Decidable (right.1 < left.1 ∨ _))

def recoverableAt (position : Nat) : Option WalRecord :=
  (stored[position]?).bind fun record =>
    let whole := wholeFromFolded record (foldWalEntries (stored.take (position + 1)))
    if whole.recoverable then some whole else none

def recoverFromWalRecords : Nat × Option WalRecord :=
  let candidates := stored.zipIdx.map fun entry => (entry.1.committedIndex, entry.2)
  (stored.length, (candidates.insertionSort RanksBefore).findSome? fun candidate =>
      recoverableAt stored candidate.2)

def walDeltaBase (entries : List LogEntry) (coverage : WalCoverage) : Option Nat :=
  match entries.head? with
  | none => none
  | some first =>
    if first.index > coverage.firstIndex then none
    else match Search.binarySearchBy
        (fun entry => compare entry.index coverage.lastIndex) entries with
      | .error _ => none
      | .ok position =>
        if (entries[position]?).map LogEntry.term = some coverage.lastTerm then
          some (position + 1)
        else none

end MatrixRaft
