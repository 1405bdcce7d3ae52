/-
# Peer.Core — what the durable peer takes from the raft core

`peer_runtime.rs` keeps its log in raft-rs's `MemStorage` and speaks raft-rs's messages.
That crate is not part of this repository: its records are declared here with the fields
the runtime reads, and its storage is an interface.  A panic of the storage ends the call
it happens in, as an error does; both are an `Except.error`.
-/
import MatrixRaft.Types
import MatrixRaft.Theory.Wire

namespace MatrixRaft.Peer
open Theory (Bytes)

/-! ## Records -/

def entryNormal : Nat := 0

def entryConfChangeV2 : Nat := 2

structure Entry where
  (entryType term index : Nat)
  data : Bytes
  syncLog : Bool
  context : Bytes
  deriving DecidableEq, Inhabited

structure HardState where
  (term vote commit : Nat)
  deriving DecidableEq, Inhabited

structure ConfState where
  (voters learners votersOutgoing learnersNext : List Nat)
  autoLeave : Bool
  deriving DecidableEq

instance : Inhabited ConfState := ⟨[], [], [], [], false⟩

structure SnapshotMetadata where
  confState : Option ConfState
  (index term : Nat)
  deriving DecidableEq, Inhabited

def SnapshotMetadata.getConfState (metadata : SnapshotMetadata) : ConfState :=
  metadata.confState.getD default

structure Snapshot where
  data : Bytes
  metadata : Option SnapshotMetadata
  deriving DecidableEq, Inhabited

def Snapshot.getMetadata (snapshot : Snapshot) : SnapshotMetadata :=
  snapshot.metadata.getD default

structure ConfChangeSingle where
  (changeType nodeId : Nat)
  deriving DecidableEq

structure ConfChangeV2 where
  transition : Nat
  changes : List ConfChangeSingle
  context : Bytes
  deriving DecidableEq

/-! ## The storage -/

inductive StoreError where
  | compacted | unavailable | snapshotOutOfDate | panicked
  deriving DecidableEq

class MemStorage (σ : Type) where
  hardState : σ → HardState
  confState : σ → ConfState
  /-- Where the log was cut off: the metadata of the snapshot it continues. -/
  floor : σ → SnapshotMetadata
  log : σ → List Entry
  (firstIndex lastIndex : σ → Nat)
  /-- `entries(low, high, None, _)` -/
  entries : σ → Nat → Nat → Except StoreError (List Entry)
  term : σ → Nat → Except StoreError Nat
  applySnapshot : Snapshot → σ → Except StoreError σ
  append : List Entry → σ → Except StoreError σ
  setHardstate : HardState → σ → σ
  setConfState : ConfState → σ → σ
  /-- `new_with_conf_state`, without learners. -/
  newWithConfState : List Nat → σ

/-- The first position of a log that continues `floor`. -/
def firstOf (floor : Nat) (log : List Entry) : Nat := (log.head?.map Entry.index).getD (floor + 1)

def lastOf (floor : Nat) (log : List Entry) : Nat := (log.getLast?.map Entry.index).getD floor

open MemStorage in
class LawfulMemStorage (σ : Type) [MemStorage σ] : Prop where
  firstIndex_eq (s : σ) : firstIndex s = firstOf (floor s).index (log s)
  lastIndex_eq (s : σ) : lastIndex s = lastOf (floor s).index (log s)
  entries_eq (s : σ) (low high : Nat) : firstIndex s ≤ low → low < high → high ≤ lastIndex s + 1 →
    entries s low high = .ok (((log s).drop (low - firstIndex s)).take (high - low))
  entries_compacted (s : σ) (low high : Nat) : low < firstIndex s →
    entries s low high = .error .compacted
  entries_panics (s : σ) (low high : Nat) : firstIndex s ≤ low → lastIndex s + 1 < high →
    entries s low high = .error .panicked
  term_floor (s : σ) : term s (floor s).index = .ok (floor s).term
  term_eq (s : σ) (index : Nat) : index ≠ (floor s).index → firstIndex s ≤ index →
    index ≤ lastIndex s →
    term s index = (((log s)[index - firstIndex s]?).map Entry.term).elim (.error .panicked) .ok
  term_below (s : σ) (index : Nat) : index ≠ (floor s).index → index < firstIndex s →
    term s index = .error .compacted
  term_above (s : σ) (index : Nat) : index ≠ (floor s).index → firstIndex s ≤ index →
    lastIndex s < index → term s index = .error .unavailable
  /-- A snapshot replaces the log; the term is raised and the commit position is the snapshot's. -/
  applySnapshot_ok (s : σ) (snapshot : Snapshot) :
    firstIndex s ≤ snapshot.getMetadata.index →
    ∃ s', applySnapshot snapshot s = .ok s' ∧ floor s' = snapshot.getMetadata ∧ log s' = [] ∧
      hardState s' = { hardState s with
        term := max (hardState s).term snapshot.getMetadata.term
        commit := snapshot.getMetadata.index } ∧
      confState s' = snapshot.getMetadata.getConfState
  applySnapshot_old (s : σ) (snapshot : Snapshot) : snapshot.getMetadata.index < firstIndex s →
    applySnapshot snapshot s = .error .snapshotOutOfDate
  append_nil (s : σ) : append [] s = .ok s
  /-- New entries overwrite the log from the position of their first. -/
  append_ok (s : σ) (entry : Entry) (rest : List Entry) :
    firstIndex s ≤ entry.index → entry.index ≤ lastIndex s + 1 →
    ∃ s', append (entry :: rest) s = .ok s' ∧
      log s' = (log s).take (entry.index - firstIndex s) ++ entry :: rest ∧
      floor s' = floor s ∧ hardState s' = hardState s ∧ confState s' = confState s
  append_panics (s : σ) (entry : Entry) (rest : List Entry) :
    entry.index < firstIndex s ∨ lastIndex s + 1 < entry.index →
    append (entry :: rest) s = .error .panicked
  hardState_setHardstate (s : σ) (hs : HardState) : hardState (setHardstate hs s) = hs
  floor_setHardstate (s : σ) (hs : HardState) : floor (setHardstate hs s) = floor s
  log_setHardstate (s : σ) (hs : HardState) : log (setHardstate hs s) = log s
  confState_setHardstate (s : σ) (hs : HardState) : confState (setHardstate hs s) = confState s
  hardState_setConfState (s : σ) (conf : ConfState) :
    hardState (setConfState conf s) = hardState s
  floor_setConfState (s : σ) (conf : ConfState) : floor (setConfState conf s) = floor s
  log_setConfState (s : σ) (conf : ConfState) : log (setConfState conf s) = log s
  confState_setConfState (s : σ) (conf : ConfState) : confState (setConfState conf s) = conf
  hardState_new (voters : List Nat) : hardState (newWithConfState voters : σ) = default
  floor_new (voters : List Nat) : floor (newWithConfState voters : σ) = default
  log_new (voters : List Nat) : log (newWithConfState voters : σ) = []
  confState_new (voters : List Nat) :
    confState (newWithConfState voters : σ) = { (default : ConfState) with voters := voters }
  entries_empty (s : σ) (index : Nat) : firstIndex s ≤ index → index ≤ lastIndex s + 1 → log s ≠ [] →
    entries s index index = .ok []

attribute [simp] LawfulMemStorage.hardState_setHardstate LawfulMemStorage.floor_setHardstate
  LawfulMemStorage.log_setHardstate LawfulMemStorage.confState_setHardstate
  LawfulMemStorage.hardState_setConfState LawfulMemStorage.floor_setConfState
  LawfulMemStorage.log_setConfState LawfulMemStorage.confState_setConfState

/-! ## A storage in a record -/

/-- The contents of a storage. -/
structure LogImage where
  hardState : HardState
  confState : ConfState
  floor : SnapshotMetadata
  log : List Entry
  deriving DecidableEq

namespace LogImage
variable (image : LogImage)

def firstIndex : Nat := firstOf image.floor.index image.log

def lastIndex : Nat := lastOf image.floor.index image.log

def entries (low high : Nat) : Except StoreError (List Entry) :=
  if low < image.firstIndex then .error .compacted
  else if image.lastIndex + 1 < high then .error .panicked
  else .ok ((image.log.drop (low - image.firstIndex)).take (high - low))

def term (index : Nat) : Except StoreError Nat :=
  if index = image.floor.index then .ok image.floor.term
  else if index < image.firstIndex then .error .compacted
  else if image.lastIndex < index then .error .unavailable
  else ((image.log[index - image.firstIndex]?).map Entry.term).elim (.error .panicked) .ok

def applySnapshot (snapshot : Snapshot) (image : LogImage) : Except StoreError LogImage :=
  let metadata := snapshot.getMetadata
  if metadata.index < image.firstIndex then .error .snapshotOutOfDate
  else .ok
    { hardState := { image.hardState with
        term := max image.hardState.term metadata.term, commit := metadata.index }
      confState := metadata.getConfState
      floor := metadata
      log := [] }

def append (entries : List Entry) (image : LogImage) : Except StoreError LogImage :=
  match entries with
  | [] => .ok image
  | entry :: rest =>
    if entry.index < image.firstIndex ∨ image.lastIndex + 1 < entry.index then .error .panicked
    else .ok { image with
      log := image.log.take (entry.index - image.firstIndex) ++ entry :: rest }

def newWithConfState (voters : List Nat) : LogImage where
  hardState := default
  confState := { (default : ConfState) with voters := voters }
  floor := default
  log := []

instance : MemStorage LogImage where
  hardState := LogImage.hardState
  confState := LogImage.confState
  floor := LogImage.floor
  log := LogImage.log
  firstIndex := firstIndex
  lastIndex := lastIndex
  entries := entries
  term := term
  applySnapshot := applySnapshot
  append := append
  setHardstate := fun hs image => { image with hardState := hs }
  setConfState := fun conf image => { image with confState := conf }
  newWithConfState := newWithConfState

instance : LawfulMemStorage LogImage where
  firstIndex_eq _ := rfl
  lastIndex_eq _ := rfl
  entries_eq _ _ _ above _ below :=
    (if_neg (not_lt.mpr above)).trans (if_neg (not_lt.mpr below))
  entries_compacted _ _ _ below := if_pos below
  entries_panics _ _ _ above past := (if_neg (not_lt.mpr above)).trans (if_pos past)
  term_floor _ := if_pos rfl
  term_eq _ _ elsewhere above below :=
    (if_neg elsewhere).trans ((if_neg (not_lt.mpr above)).trans (if_neg (not_lt.mpr below)))
  term_below _ _ elsewhere below := (if_neg elsewhere).trans (if_pos below)
  term_above _ _ elsewhere above past :=
    (if_neg elsewhere).trans ((if_neg (not_lt.mpr above)).trans (if_pos past))
  applySnapshot_ok _ _ new :=
    ⟨_, if_neg (not_lt.mpr new), rfl, rfl, rfl, rfl⟩
  applySnapshot_old _ _ old := if_pos old
  append_nil _ := rfl
  append_ok _ _ _ above below :=
    ⟨_, if_neg (not_or.mpr ⟨not_lt.mpr above, not_lt.mpr below⟩), rfl, rfl, rfl, rfl⟩
  append_panics _ _ _ outside := if_pos outside
  hardState_setHardstate _ _ := rfl
  floor_setHardstate _ _ := rfl
  log_setHardstate _ _ := rfl
  confState_setHardstate _ _ := rfl
  hardState_setConfState _ _ := rfl
  floor_setConfState _ _ := rfl
  log_setConfState _ _ := rfl
  confState_setConfState _ _ := rfl
  hardState_new _ := rfl
  floor_new _ := rfl
  log_new _ := rfl
  confState_new _ := rfl
  entries_empty _ _ above below _ := by
    refine (if_neg (not_lt.mpr above)).trans ((if_neg (not_lt.mpr below)).trans ?_)
    rw [Nat.sub_self, List.take_zero]

end LogImage
end MatrixRaft.Peer
