/-
# WalChecksum — what the words of a record's checksum tell apart

The checksum of a record mixes one flat sequence of words.  Optional parts add their words or
none, and the entries are not counted, so the same words can come from records of different
shape; between records of one shape every covered field shows.
-/
import MatrixRaft.WalBinary

namespace MatrixRaft
open Theory List

def payloadDigest (payload : Payload) : UInt64 := payload.foldl fnvByte fnvBasis

attribute [ext] LogId HardState ApplySnapshotFence Membership

namespace WalRecord

/-- The fields `matrixraft_wal_checksum_format` lists as covered. -/
structure Covered where
  (groupId nodeId : Nat)
  hardState : HardState
  entries : List (LogId × Payload)
  entriesAreDelta : Bool
  snapshotLastLogId : Option LogId
  applySnapshotFence : ApplySnapshotFence
  membership : Membership
  deriving DecidableEq

def covered (record : WalRecord) : Covered where
  groupId := record.groupId
  nodeId := record.nodeId
  hardState := record.hardState
  entries := record.entries.map fun entry => (entry.logId, entry.payload)
  entriesAreDelta := record.entriesAreDelta
  snapshotLastLogId := record.installedSnapshot.map fun snapshot => snapshot.lastLogId
  applySnapshotFence := record.applySnapshotFence
  membership := record.membership

structure SameShape (a b : WalRecord) : Prop where
  voted : a.hardState.votedFor.isSome = b.hardState.votedFor.isSome
  committed : a.hardState.committed.isSome = b.hardState.committed.isSome
  entries : a.entries.length = b.entries.length
  delta : a.entriesAreDelta = b.entriesAreDelta
  snapshot : a.installedSnapshot.isSome = b.installedSnapshot.isSome

/-! ## The words -/

def positionWords (position : Option LogId) : List Nat :=
  position.toList.flatMap fun logId => [logId.term, logId.index]

def entryWords (entry : LogEntry) : List Nat :=
  [entry.term, entry.index, entry.payload.length, (payloadDigest entry.payload).toNat]

def countedWords (ids : List Nat) : List Nat := ids.length :: ids

theorem walChecksumValues_eq (record : WalRecord) : walChecksumValues record true true =
    record.groupId :: record.nodeId :: record.hardState.currentTerm ::
      record.hardState.votedFor.getD 0 :: (positionWords record.hardState.committed ++
        (record.entries.flatMap entryWords ++ ((if record.entriesAreDelta then [1] else []) ++
          (positionWords (record.installedSnapshot.map fun snapshot => snapshot.lastLogId) ++
            (record.applySnapshotFence.appliedIndex :: record.applySnapshotFence.commitIndex ::
              record.applySnapshotFence.installedSnapshotIndex ::
              record.applySnapshotFence.firstRetainedLogIndex :: record.membership.groupId ::
              record.membership.epoch :: (countedWords record.membership.voters ++
                (countedWords record.membership.learners ++
                  (countedWords record.membership.witnesses ++ [])))))))) := by
  rcases record with ⟨_, _, _, _, _, _, _ | snapshot, _⟩ <;>
    simp [walChecksumValues, positionWords, countedWords] <;> rfl

theorem positionWords_inj {position other : Option LogId} {rest rest' : List Nat}
    (shape : position.isSome = other.isSome)
    (same : positionWords position ++ rest = positionWords other ++ rest') :
    position = other ∧ rest = rest' := by
  rcases position with _ | ⟨term, index⟩ <;> rcases other with _ | ⟨term', index'⟩ <;>
    simp_all [positionWords]

theorem countedWords_inj {ids others rest rest' : List Nat}
    (same : countedWords ids ++ rest = countedWords others ++ rest') :
    ids = others ∧ rest = rest' := by
  obtain ⟨count, tail⟩ := List.cons.inj same
  exact append_inj tail count

theorem entryWords_inj : ∀ {entries others : List LogEntry} {rest rest' : List Nat},
    entries.length = others.length →
    (∀ entry ∈ entries, ∀ other ∈ others,
      payloadDigest entry.payload = payloadDigest other.payload → entry.payload = other.payload) →
    entries.flatMap entryWords ++ rest = others.flatMap entryWords ++ rest' →
    (entries.map fun entry => (entry.logId, entry.payload))
      = (others.map fun entry => (entry.logId, entry.payload)) ∧ rest = rest'
  | [], [], _, _, _, _, same => ⟨rfl, same⟩
  | entry :: entries, other :: others, rest, rest', count, digests, same => by
    simp only [flatMap_cons, entryWords, cons_append, nil_append,
      List.cons.injEq] at same
    obtain ⟨term, index, -, digest, tail⟩ := same
    obtain ⟨mapped, ends⟩ := entryWords_inj (Nat.succ.inj count)
      (fun entry member other member' => digests entry (by simp [member]) other (by simp [member']))
      tail
    have payload := digests entry (by simp) other (by simp) (UInt64.toNat_inj.mp digest)
    have logId : entry.logId = other.logId := LogId.ext term index
    exact ⟨by rw [map_cons, map_cons, mapped, payload, logId], ends⟩

/-- **Coverage.** Between two records of one shape, with a digest that tells their payloads
apart, a difference in a covered field is a difference in the words. -/
theorem checksumValues_ne {a b : WalRecord} (shape : SameShape a b)
    (digests : ∀ entry ∈ a.entries, ∀ other ∈ b.entries,
      payloadDigest entry.payload = payloadDigest other.payload → entry.payload = other.payload)
    (differ : a.covered ≠ b.covered) :
    walChecksumValues a true true ≠ walChecksumValues b true true := by
  intro same
  apply differ
  simp only [walChecksumValues_eq, List.cons.injEq] at same
  obtain ⟨group, node, term, vote, same⟩ := same
  obtain ⟨committed, same⟩ := positionWords_inj shape.committed same
  obtain ⟨entries, same⟩ := entryWords_inj shape.entries digests same
  rw [shape.delta] at same
  obtain ⟨snapshot, same⟩ := positionWords_inj (by simpa using shape.snapshot)
    (append_cancel_left same)
  simp only [List.cons.injEq] at same
  obtain ⟨applied, commit, installed, retained, group', epoch, same⟩ := same
  obtain ⟨voters, same⟩ := countedWords_inj same
  obtain ⟨learners, same⟩ := countedWords_inj same
  obtain ⟨witnesses, -⟩ := countedWords_inj same
  have voted : ∀ {x y : Option Nat}, x.isSome = y.isSome → x.getD 0 = y.getD 0 → x = y := by
    intro x y
    cases x <;> cases y <;> simp
  unfold covered
  rw [group, node, entries, shape.delta, snapshot,
    HardState.ext term (voted shape.voted vote) committed,
    ApplySnapshotFence.ext applied commit installed retained,
    Membership.ext group' voters learners witnesses epoch]

def bare (votedFor : Option Nat) (committed snapshotAt : Option LogId) : WalRecord :=
  { (default : WalRecord) with
    hardState := ⟨1, votedFor, committed⟩
    installedSnapshot := snapshotAt.map fun lastLogId =>
      { (default : SnapshotMetadata) with lastLogId := lastLogId } }

theorem checksumValues_ne_committed : walChecksumValues (bare none (some ⟨1, 2⟩) none) true true
      ≠ walChecksumValues (bare none (some ⟨1, 3⟩) none) true true :=
  checksumValues_ne ⟨rfl, rfl, rfl, rfl, rfl⟩ (fun _ member => by cases member) (by decide)

/-- A committed position reads as that of a snapshot, and a vote for node 0 as none. -/
theorem committed_as_snapshot : walChecksumValues (bare none (some ⟨1, 2⟩) none) true true
        = walChecksumValues (bare none none (some ⟨1, 2⟩)) true true ∧
      (bare none (some ⟨1, 2⟩) none).covered ≠ (bare none none (some ⟨1, 2⟩)).covered ∧
      walChecksumValues (bare (some 0) none none) true true
        = walChecksumValues (bare none none none) true true ∧
      (bare (some 0) none none).covered ≠ (bare none none none).covered := by
  decide

end WalRecord
end MatrixRaft
