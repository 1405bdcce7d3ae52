/-
# AppendBatches — a replica that has taken a run of batches

Once a follower has taken the first `n` batches of what it lacks, its log and commit point
are known exactly, and so is what it makes of any batch: the next one is admitted, one
further on meets a gap, one taken before has no effect or starts below the commit point.
-/
import MatrixRaft.AppendTail

namespace MatrixRaft
open Theory List Option AppendEntriesRequest LogEntry

/-! ## Batches -/

def entriesOf (batches : List AppendEntriesRequest) : List LogEntry :=
  batches.flatMap entries

def AppendEntriesRequest.lastIndex (request : AppendEntriesRequest) : Nat :=
  request.prevIndex + request.entries.length

/-- Consecutive batches of one leader, from right after `last` on. -/
structure SplitAfter (groupId term leaderId last : Nat) (batches : List AppendEntriesRequest) :
    Prop where
  sender : ∀ batch ∈ batches,
    batch.groupId = groupId ∧ batch.term = term ∧ batch.leaderId = leaderId
  nonempty : ∀ batch ∈ batches, batch.entries ≠ []
  numbered : Numbered index (last + 1) (entriesOf batches)
  first : ∀ batch ∈ batches.head?, batch.prevIndex = last
  follows : ∀ i batch, batches[i + 1]? = some batch →
    batch.prevLogId = (entriesOf (batches.take (i + 1))).getLast?.map logId
  fits : last + (entriesOf batches).length ≤ u64Max

theorem numbered_iff_map {a : Nat} {entries : List LogEntry} :
    Numbered index a entries ↔ entries.map index = List.range' a entries.length := by
  rw [List.ext_getElem?_iff]
  constructor
  · intro numbered i
    rw [getElem?_map]
    rcases slot : entries[i]? with _ | entry
    · grind
    · have bound := (List.getElem?_eq_some_iff.mp slot).1
      simp [getElem?_range' bound, numbered i entry slot]
  · intro same i entry slot
    have here := same i
    grind

instance (groupId term leaderId last : Nat) (batches : List AppendEntriesRequest) :
    Decidable (SplitAfter groupId term leaderId last batches) :=
  decidable_of_iff
    ((∀ batch ∈ batches,
        batch.groupId = groupId ∧ batch.term = term ∧ batch.leaderId = leaderId) ∧
      (∀ batch ∈ batches, batch.entries ≠ []) ∧
      (entriesOf batches).map index
        = List.range' (last + 1) (entriesOf batches).length ∧
      (∀ batch ∈ batches.head?, batch.prevIndex = last) ∧
      (∀ i < batches.length, ∀ batch ∈ batches[i + 1]?,
        batch.prevLogId = (entriesOf (batches.take (i + 1))).getLast?.map logId) ∧
      last + (entriesOf batches).length ≤ u64Max)
    ⟨fun ⟨sender, nonempty, numbered, first, follows, fits⟩ =>
      ⟨sender, nonempty, numbered_iff_map.mpr numbered, first, fun i batch slot =>
        follows i (by have := (List.getElem?_eq_some_iff.mp slot).1; omega) batch slot, fits⟩,
    fun split => ⟨split.sender, split.nonempty, numbered_iff_map.mp split.numbered, split.first,
      fun i _ => split.follows i, split.fits⟩⟩

namespace SplitAfter
variable {groupId term leaderId last : Nat} {batches : List AppendEntriesRequest}
  {batch : AppendEntriesRequest} {i j : Nat}

theorem entriesOf_take_succ (slot : batches[i]? = some batch) :
    entriesOf (batches.take (i + 1)) = entriesOf (batches.take i) ++ batch.entries := by
  simp [entriesOf, take_add_one, slot]

theorem length_entriesOf_take_le (batches : List AppendEntriesRequest) {i j : Nat} (le : i ≤ j) :
    (entriesOf (batches.take i)).length ≤ (entriesOf (batches.take j)).length := by
  obtain ⟨more, rfl⟩ := Nat.exists_eq_add_of_le le
  simp [take_add, entriesOf]

theorem length_entriesOf_take_le_all (batches : List AppendEntriesRequest) (i : Nat) :
    (entriesOf (batches.take i)).length ≤ (entriesOf batches).length := by
  have le := length_entriesOf_take_le batches (le_max_left i batches.length)
  rw [take_of_length_le (le_max_right i batches.length)] at le
  exact le

section
variable (split : SplitAfter groupId term leaderId last batches)

include split

theorem numbered_take (i : Nat) : Numbered index (last + 1) (entriesOf (batches.take i)) := by
  have shape : entriesOf batches = entriesOf (batches.take i) ++ entriesOf (batches.drop i) := by
    grind [entriesOf, take_append_drop]
  have whole := split.numbered
  rw [shape] at whole
  have front := Numbered.take whole (entriesOf (batches.take i)).length
  rwa [take_left] at front

section
variable (slot : batches[i]? = some batch)

include slot

theorem prevIndex_eq : batch.prevIndex = last + (entriesOf (batches.take i)).length := by
  cases i with
  | zero =>
    exact split.first batch (by rw [List.head?_eq_getElem?, slot]; rfl)
  | succ i =>
    have bound : i < batches.length := by grind
    have before := List.getElem?_eq_getElem bound
    have nonempty : entriesOf (batches.take (i + 1)) ≠ [] := by
      rw [entriesOf_take_succ before]
      simp [split.nonempty _ (getElem_mem bound)]
    have named := split.follows i batch slot
    have position : ((entriesOf (batches.take (i + 1))).getLast nonempty).logId.index
        = last + 1 + ((entriesOf (batches.take (i + 1))).length - 1) :=
      split.numbered_take (i + 1) _ _
        (by rw [← getLast?_eq_getElem?, getLast?_eq_some_getLast])
    rw [prevIndex, named]
    grind

theorem lastIndex_eq : batch.lastIndex = last + (entriesOf (batches.take (i + 1))).length := by
  grind [lastIndex, split.prevIndex_eq, entriesOf_take_succ]

theorem entries_numbered : Numbered index (batch.prevIndex + 1) batch.entries := by
  have whole := split.numbered_take (i + 1)
  rw [entriesOf_take_succ slot] at whole
  have back := Numbered.drop whole (entriesOf (batches.take i)).length
  rw [split.prevIndex_eq slot]
  grind

theorem prevIndex_lt (lt : j < i) :
    last + (entriesOf (batches.take j)).length < batch.prevIndex := by
  have bound : j < batches.length := by grind
  have grows := entriesOf_take_succ (List.getElem?_eq_getElem bound)
  have positive := length_pos_of_ne_nil (split.nonempty _ (getElem_mem bound))
  have le := length_entriesOf_take_le batches (show j + 1 ≤ i from lt)
  rw [split.prevIndex_eq slot]
  grind

theorem position_unique {other : AppendEntriesRequest}
    (slot' : batches[j]? = some other) (same : batch.prevIndex = other.prevIndex) : i = j := by
  rcases lt_trichotomy i j with before | rfl | behind
  · have := split.prevIndex_lt slot' before
    have := split.prevIndex_eq slot
    omega
  · rfl
  · have := split.prevIndex_lt slot behind
    have := split.prevIndex_eq slot'
    omega

end
end
end SplitAfter

/-! ## A replica that has taken a run of batches -/

def commitAfter (commitIndex : Nat) (done : List AppendEntriesRequest) : Nat :=
  done.foldl (fun commit batch => max commit (min batch.leaderCommit batch.lastIndex)) commitIndex

@[simp] theorem commitAfter_concat (commitIndex : Nat) (done : List AppendEntriesRequest)
    (batch : AppendEntriesRequest) : commitAfter commitIndex (done ++ [batch])
      = max (commitAfter commitIndex done) (min batch.leaderCommit batch.lastIndex) := by
  simp [commitAfter]

theorem commitAfter_le {bound : Nat} : ∀ (done : List AppendEntriesRequest) (commitIndex : Nat),
    commitIndex ≤ bound → (∀ batch ∈ done, batch.lastIndex ≤ bound) →
    commitAfter commitIndex done ≤ bound
  | [], _, low, _ => low
  | batch :: rest, _, low, inside =>
    commitAfter_le rest _ (max_le low ((min_le_right _ _).trans (inside batch (by simp))))
      fun other member => inside other (by simp [member])

theorem le_commitAfter : ∀ (done : List AppendEntriesRequest) (commitIndex : Nat),
    commitIndex ≤ commitAfter commitIndex done
  | [], _ => le_rfl
  | _ :: rest, _ => (le_max_left _ _).trans (le_commitAfter rest _)

variable {batch : AppendEntriesRequest}

theorem allowed_le_commitAfter :
    ∀ (done : List AppendEntriesRequest) (commitIndex : Nat), batch ∈ done →
    min batch.leaderCommit batch.lastIndex ≤ commitAfter commitIndex done
  | other :: rest, commitIndex, member => by
    rcases mem_cons.mp member with rfl | later
    · exact (le_max_right _ _).trans (le_commitAfter rest _)
    · exact allowed_le_commitAfter rest _ later

namespace Node
variable {base node node' : Node} {done : List AppendEntriesRequest}

/-- `base` after the batches `done`. -/
structure After (base : Node) (done : List AppendEntriesRequest) (node : Node) : Prop where
  log : node.log = base.log ++ (entriesOf done).map (storedForm base.replicaRole)
  commitIndex : node.commitIndex = commitAfter base.commitIndex done
  role : node.replicaRole = base.replicaRole
  installedSnapshot : node.installedSnapshot = base.installedSnapshot
  ends : node.EndsAt (base.matchIndex + (entriesOf done).length)
  bytes : node.retainedLogBytes ≤ base.retainedLogBytes + payloadBytes (entriesOf done)

structure SameStore (node node' : Node) : Prop extends Quiet node node' where
  replicaRole : node'.replicaRole = node.replicaRole
  retainedLogBytes : node'.retainedLogBytes = node.retainedLogBytes

namespace SameStore

theorem endsAt (same : SameStore node node') {last : Nat} (ends : node.EndsAt last) :
    node'.EndsAt last where
  ordered := by
    rw [Ordered, same.log]
    exact ends.ordered
  matchIndex := same.matchIndex.trans ends.matchIndex
  snapshot := by
    rw [same.snapshotIndex]
    exact ends.snapshot
  bounded := by
    rw [same.log]
    exact ends.bounded

theorem admission (same : SameStore node node') (installing : Bool)
    (request : AppendEntriesRequest) :
    node'.admission installing request = node.admission installing request := by
  have fault : node'.prevFault = node.prevFault := by
    funext prev
    simp only [prevFault, same.matchIndex, same.logTermAt]
  simp only [Node.admission, fault, same.commitIndex]

end SameStore

theorem advanceCommit_matchIndex (node : Node) (commitIndex : Nat) :
    (node.advanceCommit commitIndex).matchIndex = node.matchIndex := by
  rw [advanceCommit_eq]
  rfl

theorem advanceCommit_retainedLogBytes (node : Node) (commitIndex : Nat) :
    (node.advanceCommit commitIndex).retainedLogBytes = node.retainedLogBytes := by
  rw [advanceCommit_eq]

theorem EndsAt.advanceCommit {last : Nat} (ends : node.EndsAt last) (commitIndex : Nat) :
    (node.advanceCommit commitIndex).EndsAt last where
  ordered := by
    rw [Ordered, advanceCommit_log]
    exact ends.ordered
  matchIndex := (advanceCommit_matchIndex _ _).trans ends.matchIndex
  snapshot := by simpa [snapshotIndex] using ends.snapshot
  bounded := by
    rw [advanceCommit_log]
    exact ends.bounded

namespace After

theorem start {last : Nat} (ends : base.EndsAt last) : After base [] base where
  log := (append_nil _).symm
  commitIndex := rfl
  role := rfl
  installedSnapshot := rfl
  ends := by
    rw [ends.matchIndex]
    exact ends
  bytes := Nat.le_add_right _ _

theorem of_same (after : After base done node) (same : SameStore node node') :
    After base done node' where
  log := same.log.trans after.log
  commitIndex := same.commitIndex.trans after.commitIndex
  role := same.replicaRole.trans after.role
  installedSnapshot := same.installedSnapshot.trans after.installedSnapshot
  ends := same.endsAt after.ends
  bytes := same.retainedLogBytes ▸ after.bytes

theorem again (after : After base done node) (member : batch ∈ done)
    (nonempty : batch.entries ≠ []) (above : node.commitIndex ≤ batch.prevIndex) (reached : Nat) :
    After base done (node.advanceCommit (min batch.leaderCommit reached)) := by
  have allowed := allowed_le_commitAfter done base.commitIndex member
  rw [← after.commitIndex, lastIndex] at allowed
  have positive := length_pos_of_ne_nil nonempty
  refine after.of_same ⟨⟨?_, ?_, ?_, ?_, ?_, .inl ?_⟩, ?_, ?_⟩
  · exact advanceCommit_id _ _
  · exact advanceCommit_log _ _
  · rw [advanceCommit_commitIndex]
    omega
  · exact advanceCommit_installedSnapshot _ _
  · exact advanceCommit_witnessAckIndex _ _
  · exact advanceCommit_replicaRole _ _
  · exact advanceCommit_replicaRole _ _
  · exact advanceCommit_retainedLogBytes _ _

theorem store (after : After base done node)
    (starts : batch.prevIndex = base.matchIndex + (entriesOf done).length)
    (placed : Numbered index (batch.prevIndex + 1) batch.entries) :
    After base (done ++ [batch]) ((node.storeEntries batch.entries).advanceCommit
      (min batch.leaderCommit (node.storeEntries batch.entries).matchIndex)) := by
  have same := storeEntries_same batch.entries node
  have carried : entriesOf (done ++ [batch]) = entriesOf done ++ batch.entries := by
    simp [entriesOf]
  have reach : base.matchIndex + (entriesOf (done ++ [batch])).length = batch.lastIndex := by
    rw [carried, length_append, lastIndex, starts]
    omega
  have stored : (node.storeEntries batch.entries).EndsAt batch.lastIndex := by
    rw [lastIndex, starts]
    exact after.ends.storeEntries (starts ▸ placed)
  refine ⟨?_, ?_, ?_, ?_, ?_, ?_⟩
  · simp [storeEntries_log, after.log, after.role, carried]
  · simp [same.commitIndex, stored.matchIndex, after.commitIndex]
  · simp [same.replicaRole, after.role]
  · simp [same.installedSnapshot, after.installedSnapshot]
  · rw [reach]
    exact stored.advanceCommit _
  have bytes := after.bytes
  have more := storeEntries_retainedLogBytes_le batch.entries node
  rw [advanceCommit_retainedLogBytes, carried]
  grind [payloadBytes]

end After

/-! ## Which batches it admits -/

def Opens (base : Node) (batches : List AppendEntriesRequest) : Prop :=
  ∀ batch ∈ batches.head?, base.admission false batch = .admitted

section Admission
variable {groupId term leaderId i j : Nat} {batches : List AppendEntriesRequest}
  {batch : AppendEntriesRequest}

theorem known_of_admitted {prev : LogId} (admitted : base.admission false batch = .admitted)
    (given : batch.prevLogId = some prev) (positive : 0 < prev.index) :
    prev.index ≤ base.matchIndex ∧ base.logTermAt prev.index = some prev.term := by
  have position : batch.prevIndex = prev.index := by
    simp [prevIndex, given]
  rcases (admission_admitted admitted).2.2 with zero | ⟨known, named, inside, found⟩
  all_goals grind

namespace After
section
variable (after : After base (batches.take j) node)

include after

section
variable (split : SplitAfter groupId term leaderId base.matchIndex batches)

include split

section
variable (opens : base.Opens batches)
include opens

theorem commitIndex_le_matchIndex (slot : batches[i]? = some batch) :
    node.commitIndex ≤ node.matchIndex := by
  rw [after.commitIndex, after.ends.matchIndex]
  refine commitAfter_le _ _ ?_ fun other member => ?_
  · obtain ⟨first, isFirst⟩ : ∃ first, batches[0]? = some first :=
      ⟨_, List.getElem?_eq_getElem (by have := (List.getElem?_eq_some_iff.mp slot).1; omega)⟩
    have admitted := opens first (by rw [List.head?_eq_getElem?, isFirst]; rfl)
    have above := (admission_admitted admitted).1
    grind [split.first, List.head?_eq_getElem?]
  · obtain ⟨k, isOther⟩ := mem_iff_getElem?.mp member
    rw [getElem?_take] at isOther
    split at isOther
    · rename_i lt
      rw [split.lastIndex_eq isOther]
      exact Nat.add_le_add_left
        (SplitAfter.length_entriesOf_take_le batches (show k + 1 ≤ j from lt)) _
    · cases isOther

section
variable (ends : base.EndsAt base.matchIndex) (slot : batches[i]? = some batch) (le : i ≤ j)
include ends slot le

theorem knows_prev {prev : LogId}
    (given : batch.prevLogId = some prev) (positive : 0 < prev.index) :
    prev.index ≤ node.matchIndex ∧ node.logTermAt prev.index = some prev.term := by
  have position : batch.prevIndex = prev.index := by
    simp [prevIndex, given]
  refine ⟨?_, ?_⟩
  · rw [← position, split.prevIndex_eq slot, after.ends.matchIndex]
    have := SplitAfter.length_entriesOf_take_le batches le
    omega
  · cases i with
    | zero =>
      have admitted := opens batch (by rw [List.head?_eq_getElem?, slot]; rfl)
      have found := (known_of_admitted admitted given positive).2
      grind [after.log, ends.ordered.logTermAt_of_kept, after.ends.ordered,
        after.installedSnapshot]
    | succ i =>
      -- the entry before the batch is the last one of the batches before it
      have named := split.follows i batch slot
      rw [given] at named
      obtain ⟨entry, isLast, rfl⟩ := map_eq_some_iff.mp named.symm
      have taken : entry ∈ entriesOf (batches.take j) := by
        have early := mem_of_getLast? isLast
        obtain ⟨more, rfl⟩ := Nat.exists_eq_add_of_le le
        rw [take_add, entriesOf, flatMap_append]
        exact mem_append_left _ early
      have held : storedForm base.replicaRole entry ∈ node.log := by
        rw [after.log]
        exact mem_append_right _ (mem_map_of_mem taken)
      have beyond := (Numbered.bounds (split.numbered_take j) taken).1
      have low : node.snapshotIndex ≤ base.matchIndex := by
        rw [snapshotIndex, after.installedSnapshot, ← snapshotIndex]
        exact ends.snapshot
      have found := after.ends.logTermAt_held low held (by rw [storedForm_index]; omega)
      rw [storedForm_index] at found
      rw [found, LogEntry.term, storedForm_logId]

theorem admission_taken : node.admission false batch
      = if batch.prevIndex < node.commitIndex then .belowCommit else .admitted := by
  have sound : batch.prevLogId.bind node.prevFault = none := by
    rcases given : batch.prevLogId with _ | prev
    · rfl
    rw [bind_some, prevFault]
    split_ifs with positive behind
    · have := (after.knows_prev split opens ends slot le given positive).1
      omega
    · rw [(after.knows_prev split opens ends slot le given positive).2]
      simp
    · rfl
  have placed : misplacedEntry batch.prevIndex batch.entries = none := by
    refine (misplacedEntry_eq_none_iff _ _ ?_).mpr (split.entries_numbered slot)
    have reach := split.lastIndex_eq slot
    grind [lastIndex, SplitAfter.length_entriesOf_take_le_all, split.fits]
  have filled : batch.entries.isEmpty = false := by
    simp [split.nonempty batch (mem_of_getElem? slot)]
  simp [Node.admission, filled, sound, placed]

end

theorem admission_next (ends : base.EndsAt base.matchIndex)
    (slot : batches[j]? = some batch) : node.admission false batch = .admitted := by
  have below := after.commitIndex_le_matchIndex split opens slot
  rw [after.ends.matchIndex, ← split.prevIndex_eq slot] at below
  rw [after.admission_taken split opens ends slot le_rfl, if_neg (by omega)]

theorem admission_ahead (slot : batches[i]? = some batch) (lt : j < i) :
    node.admission false batch = .gap ∧ ∃ prev, batch.prevLogId = some prev := by
  have far := split.prevIndex_lt slot lt
  have below := after.commitIndex_le_matchIndex split opens slot
  have filled : batch.entries.isEmpty = false := by
    simp [split.nonempty batch (mem_of_getElem? slot)]
  rcases given : batch.prevLogId with _ | prev
  · simp [prevIndex, given] at far
  have position : batch.prevIndex = prev.index := by
    simp [prevIndex, given]
  rw [← after.ends.matchIndex, position] at far
  refine ⟨?_, prev, rfl⟩
  simp only [Node.admission, filled, given, position, isNone_some, Bool.false_eq_true,
    false_and, if_false, bind_some, prevFault]
  rw [if_neg (by omega), if_pos (by omega), if_pos far]

end
end
end
end After
end Admission
end Node
end MatrixRaft
