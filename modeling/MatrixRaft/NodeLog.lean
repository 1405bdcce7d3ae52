/-
# NodeLog — what a replica's operations do to an ordered log

The source looks entries up by slot arithmetic and halving search, which mean what
they say only while indexes increase along the log.  On such a log:
-/
import MatrixRaft.Node
import MatrixRaft.Theory.Attempt

namespace MatrixRaft
open Theory Theory.Search List Option

namespace Node
variable {node : Node}

/-- Indexes strictly increase along the retained log. -/
def Ordered (node : Node) : Prop := Increasing LogEntry.index node.log

def Retains (node : Node) (index : Nat) : Prop := ∃ entry ∈ node.log, entry.index = index

/-! ## The last entry -/

theorem lastLogIndex_eq_zero (empty : node.log = []) : node.lastLogIndex = 0 := by
  simp [lastLogIndex, empty]

variable {entry : LogEntry} {log : List LogEntry}

theorem lastLogIndex_append (shape : node.log = log ++ [entry]) : node.lastLogIndex =
    entry.index := by
  simp [lastLogIndex, shape]

theorem lastLogIndex_of_ne_nil (nonempty : node.log ≠ []) :
    node.lastLogIndex = (node.log.getLast nonempty).index := by
  simp [lastLogIndex, getLast?_eq_some_getLast nonempty]

section
variable (ordered : node.Ordered)

include ordered

variable {entry : LogEntry}

theorem Ordered.le_lastLogIndex (held : entry ∈ node.log) : entry.index ≤ node.lastLogIndex := by
  obtain ⟨front, last, shape⟩ := eq_nil_or_concat node.log |>.resolve_left (ne_nil_of_mem held)
  rw [concat_eq_append] at shape
  rw [lastLogIndex_append shape]
  rw [Ordered, Increasing, shape, pairwise_append] at ordered
  rw [shape, mem_append, mem_singleton] at held
  rcases held with early | rfl
  · exact (ordered.2.2 entry early last (by simp)).le
  · exact le_rfl

omit ordered in
theorem extendsTail_iff (node : Node) (entry : LogEntry) :
    node.extendsTail entry = true ↔ node.log = [] ∨ node.lastLogIndex < entry.index := by
  rcases eq_nil_or_concat node.log with empty | ⟨front, last, shape⟩
  · simp [extendsTail, empty]
  · simp [extendsTail, lastLogIndex, shape]

/-! ## Lookup -/

/-- **Lookup.** On an ordered log a lookup finds exactly the slot that holds the index. -/
theorem Ordered.logPosition_eq_some_iff {index position : Nat} :
    node.logPosition index = some position ↔
      ∃ entry, node.log[position]? = some entry ∧ entry.index = index := by
  rcases shape : node.log with _ | ⟨first, rest⟩
  · simp [logPosition, shape]
  have increasing : Increasing LogEntry.index (first :: rest) := shape ▸ ordered
  have headLeast : ∀ entry ∈ first :: rest, first.index ≤ entry.index := by
    intro entry member
    rcases mem_cons.mp member with rfl | later
    · exact le_rfl
    · exact ((pairwise_cons.mp increasing).1 entry later).le
  simp only [logPosition, shape, head?_cons]
  by_cases below : index < first.index
  · grind
  rw [if_neg below]
  by_cases direct : ((first :: rest)[index - first.index]?).map LogEntry.index = some index
  · rw [if_pos direct]
    obtain ⟨entry, atOffset, hit⟩ := map_eq_some_iff.mp direct
    constructor
    · grind
    · rintro ⟨other, found, hitOther⟩
      rw [increasing.position_unique atOffset found (hit.trans hitOther.symm)]
  · rw [if_neg direct, ← binarySearchBy_eq_ok_iff increasing]
    grind

theorem Ordered.logPosition_eq_none_iff {index : Nat} :
    node.logPosition index = none ↔ ¬ node.Retains index := by
  rw [eq_none_iff_forall_ne_some]
  constructor
  · rintro absent ⟨entry, held, hit⟩
    obtain ⟨position, atPosition⟩ := mem_iff_getElem?.mp held
    exact absent position (ordered.logPosition_eq_some_iff.mpr ⟨entry, atPosition, hit⟩)
  · intro absent position found
    obtain ⟨entry, atPosition, hit⟩ := ordered.logPosition_eq_some_iff.mp found
    exact absent ⟨entry, mem_of_getElem? atPosition, hit⟩

def entryAt (node : Node) (index : Nat) : Option LogEntry :=
  (node.logPosition index).bind fun position => node.log[position]?

theorem Ordered.entryAt_eq_some_iff {index : Nat} : node.entryAt index = some entry ↔
    entry ∈ node.log ∧ entry.index = index := by
  unfold entryAt
  rw [bind_eq_some_iff]
  constructor
  · rintro ⟨position, found, slot⟩
    grind [ordered.logPosition_eq_some_iff]
  · grind [mem_iff_getElem?, ordered.logPosition_eq_some_iff]

theorem Ordered.logTermAt_eq_some {index term : Nat}
    (found : node.logTermAt index = some term) : (index = 0 ∧ term = 0) ∨
    (∃ snapshot, node.installedSnapshot = some snapshot ∧ snapshot.lastLogId = ⟨term, index⟩) ∨
    ∃ entry ∈ node.log, entry.index = index ∧ entry.term = term := by
  have inLog : ((node.logPosition index).bind fun position =>
      (node.log[position]?).map LogEntry.term) = some term →
      ∃ entry ∈ node.log, entry.index = index ∧ entry.term = term := by
    grind [bind_eq_some_iff, ordered.logPosition_eq_some_iff]
  unfold logTermAt at found
  by_cases zero : index = 0
  · grind
  rw [if_neg zero] at found
  rcases installed : node.installedSnapshot with _ | snapshot
  · grind
  simp only [installed] at found
  by_cases atSnapshot : snapshot.lastLogId.index = index
  · rw [if_pos atSnapshot] at found
    refine .inr (.inl ⟨snapshot, rfl, ?_⟩)
    rw [← atSnapshot, ← some.inj found]
  · grind

theorem Ordered.logTermAt_of_held (held : entry ∈ node.log) (positive : entry.index ≠ 0) (apart : ∀
    snapshot, node.installedSnapshot = some snapshot → snapshot.lastLogId.index ≠ entry.index) :
    node.logTermAt entry.index = some entry.term := by
  obtain ⟨position, slot⟩ := mem_iff_getElem?.mp held
  have atPosition := ordered.logPosition_eq_some_iff.mpr ⟨entry, slot, rfl⟩
  unfold logTermAt
  grind

theorem logTermAt_isSome_of_held (held : entry ∈ node.log) :
    (node.logTermAt entry.index).isSome := by
  obtain ⟨position, slot⟩ := mem_iff_getElem?.mp held
  have atPosition := ordered.logPosition_eq_some_iff.mpr ⟨entry, slot, rfl⟩
  unfold logTermAt
  grind

end

/-! ## Operations that touch the log alone -/

def SameButLog (before after : Node) : Prop :=
  after = { before with
    log := after.log
    retainedLogBytes := after.retainedLogBytes
    witnessAckIndex := after.witnessAckIndex }

namespace SameButLog
variable {before middle after : Node}

theorem refl (node : Node) : SameButLog node node := rfl

theorem trans (first : SameButLog before middle) (second : SameButLog middle after) :
    SameButLog before after := by
  unfold SameButLog at *
  rw [second, first]

section
variable (same : SameButLog before after)

include same

theorem id_eq : after.id = before.id := by rw [same]

theorem replicaRole : after.replicaRole = before.replicaRole := by rw [same]

theorem hardState : after.hardState = before.hardState := by
  rw [same]

theorem commitIndex : after.commitIndex = before.commitIndex := by rw [same]

theorem installedSnapshot : after.installedSnapshot = before.installedSnapshot := by rw [same]

theorem snapshotIndex : after.snapshotIndex = before.snapshotIndex := by
  rw [Node.snapshotIndex, same.installedSnapshot, Node.snapshotIndex]

theorem healthy : after.healthy = before.healthy := by rw [same]

end
end SameButLog

section
variable (node : Node) (entry : LogEntry)

theorem pushEntry_same : SameButLog node (node.pushEntry entry) := rfl

theorem appendEntry_same : SameButLog node (node.appendEntry entry) := by
  unfold appendEntry
  split
  · rfl
  split
  · rfl
  split
  · rfl
  · split <;> rfl

theorem truncateLogFrom_same (index : Nat) : SameButLog node (node.truncateLogFrom index) := by
  unfold truncateLogFrom
  split
  · rfl
  · split <;> rfl

theorem discardLogThrough_same (index : Nat) :
    SameButLog node (node.discardLogThrough index).2 := by
  unfold discardLogThrough
  dsimp only
  split <;> rfl

theorem compactLogThrough_same (index : Nat) :
    SameButLog node (node.compactLogThrough index).2 := discardLogThrough_same _ _

theorem acknowledgeWitnessIndex_same (index : Nat) :
    SameButLog node (node.acknowledgeWitnessIndex index) := by
  unfold acknowledgeWitnessIndex
  split <;> rfl

theorem appendWitnessEntry_same (preservePayload : Bool) :
    SameButLog node (node.appendWitnessEntry entry preservePayload) :=
  (acknowledgeWitnessIndex_same node entry.index).trans (appendEntry_same _ _)

@[simp] theorem acknowledgeWitnessIndex_log (index : Nat) :
    (node.acknowledgeWitnessIndex index).log = node.log := by
  unfold acknowledgeWitnessIndex
  split <;> rfl

theorem appendEntry_witnessAckIndex :
    (node.appendEntry entry).witnessAckIndex = node.witnessAckIndex := by
  unfold appendEntry
  split
  · rfl
  split
  · rfl
  split
  · rfl
  · split <;> rfl

end

/-! ## Their effect on an ordered log -/

def below (index : Nat) (log : List LogEntry) : List LogEntry :=
  log.filter fun entry => entry.index < index

variable {index : Nat}

theorem mem_below : entry ∈ below index log ↔ entry ∈ log ∧ entry.index < index := by
  simp [below]

theorem below_eq_self (small : ∀ entry ∈ log, entry.index < index) : below index log = log :=
  filter_eq_self.mpr fun entry member => by simpa using small entry member

section
variable (ordered : node.Ordered)
include ordered

theorem Ordered.take_eq_below {position : Nat}
    (slot : node.log[position]? = some entry) : node.log.take position =
    below entry.index node.log := by
  obtain ⟨bound, rfl⟩ := List.getElem?_eq_some_iff.mp slot
  have ordered' : node.log.Pairwise fun a b => a.index < b.index := ordered
  have split : below node.log[position].index node.log
      = below node.log[position].index (node.log.take position)
        ++ below node.log[position].index (node.log.drop position) := by
    grind [below, take_append_drop]
  rw [split, below, below, filter_eq_self.mpr, filter_eq_nil_iff.mpr, append_nil]
  · intro other member
    obtain ⟨offset, inside, rfl⟩ := mem_drop_iff_getElem.mp member
    rcases Nat.eq_zero_or_pos offset with rfl | positive
    · simp
    have := pairwise_iff_getElem.mp ordered' position (position + offset) bound
      (by omega) (by omega)
    simpa using this.le
  · grind [mem_take_iff_getElem, pairwise_iff_getElem]

theorem Ordered.logPositionAtOrAfter_cases (index : Nat) :
    (node.logPositionAtOrAfter index = none ∧ ∀ entry ∈ node.log, entry.index < index) ∨
      node.logPositionAtOrAfter index
        = some (partitionPoint (fun entry => decide (entry.index < index)) node.log) := by
  by_cases short : node.log.getLast?.all fun last => last.index < index
  · refine .inl ⟨by simp only [logPositionAtOrAfter, if_pos short], fun entry member => ?_⟩
    have le := ordered.le_lastLogIndex member
    rw [lastLogIndex_of_ne_nil (ne_nil_of_mem member)] at le
    grind
  · exact .inr (by simp only [logPositionAtOrAfter, if_neg short])

theorem Ordered.truncateLogFrom_log (uncommitted : node.commitIndex < index) :
    (node.truncateLogFrom index).log = below index node.log := by
  unfold truncateLogFrom
  rw [if_neg (not_le.mpr uncommitted)]
  rcases ordered.logPositionAtOrAfter_cases index with ⟨none, before⟩ | point
  · rw [none, below_eq_self before]
  · rw [point]
    exact take_partitionPoint (ordered.partitioned_lt index)

theorem Ordered.logPositionAtOrAfter_drop (index : Nat) :
    (match node.logPositionAtOrAfter index with
      | some position => node.log.drop position
      | none => []) = node.log.filter fun entry => decide (index ≤ entry.index) := by
  rcases ordered.logPositionAtOrAfter_cases index with ⟨none, before⟩ | point
  · rw [none, eq_comm, filter_eq_nil_iff]
    intro entry member
    simpa using before entry member
  · rw [point]
    dsimp only
    rw [drop_partitionPoint (ordered.partitioned_lt index)]
    simp only [← decide_not, not_lt]

end

theorem appendEntry_log_of_past (past : node.log = [] ∨ node.lastLogIndex < entry.index) :
    (node.appendEntry entry).log = node.log ++ [entry] := by
  unfold appendEntry
  rw [if_pos ((extendsTail_iff node entry).mpr past)]
  rfl

theorem Ordered.appendEntry_log_of_held (ordered : node.Ordered) {entry held : LogEntry}
    (member : held ∈ node.log) (same : held.index = entry.index) : (node.appendEntry entry).log =
      if held.term = entry.term ∨ entry.index ≤ node.commitIndex then node.log
      else below entry.index node.log ++ [entry] := by
  obtain ⟨position, slot⟩ := mem_iff_getElem?.mp member
  have found : node.logPosition entry.index = some position :=
    ordered.logPosition_eq_some_iff.mpr ⟨held, slot, same⟩
  have notPast : ¬ node.extendsTail entry = true := by
    rw [extendsTail_iff]
    rintro (empty | past)
    · exact ne_nil_of_mem member empty
    · exact absurd (ordered.le_lastLogIndex member) (by rw [same]; exact not_le.mpr past)
  have prefixBelow := ordered.take_eq_below slot
  rw [same] at prefixBelow
  unfold appendEntry
  rw [if_neg notPast, found]
  simp only [slot, map_some, some.injEq]
  by_cases term : held.term = entry.term
  · rw [if_pos term, if_pos (.inl term)]
  rw [if_neg term]
  by_cases committed : entry.index ≤ node.commitIndex
  · grind
  · rw [if_neg committed, if_neg (by tauto)]
    simp only [pushEntry, truncateLogAt, prefixBelow]

theorem mem_of_mem_appendEntry {entry found : LogEntry}
    (member : found ∈ (node.appendEntry entry).log) : found ∈ node.log ∨ found = entry := by
  have pushed : ∀ {log : List LogEntry}, (∀ x ∈ log, x ∈ node.log) → found ∈ log ++ [entry] →
      found ∈ node.log ∨ found = entry := by grind
  unfold appendEntry at member
  split at member
  · exact pushed (fun _ held => held) member
  split at member
  · exact pushed (fun _ held => held) member
  split at member
  · exact .inl member
  split at member
  · exact .inl member
  · exact pushed (fun _ => mem_of_mem_take) member

theorem mem_of_mem_truncateLogFrom {found : LogEntry}
    (member : found ∈ (node.truncateLogFrom index).log) : found ∈ node.log := by
  unfold truncateLogFrom at member
  split at member
  · exact member
  split at member
  · exact mem_of_mem_take member
  · exact member

theorem Ordered.mem_appendEntry_of_committed (ordered : node.Ordered) {entry held : LogEntry}
    (member : held ∈ node.log) (committed : held.index ≤ node.commitIndex) :
    held ∈ (node.appendEntry entry).log := by
  by_cases retains : node.Retains entry.index
  · obtain ⟨taken, memberTaken, same⟩ := retains
    rw [ordered.appendEntry_log_of_held memberTaken same]
    split
    · exact member
    · grind [mem_below]
  · have absent := ordered.logPosition_eq_none_iff.mpr retains
    unfold appendEntry
    split
    · exact mem_append_left _ member
    · rw [absent]
      exact mem_append_left _ member

/-! ## Following the commit point -/

section
variable (node : Node) (commitIndex : Nat)

theorem advanceCommit_eq : node.advanceCommit commitIndex = { node with
      commitIndex := max node.commitIndex (min commitIndex node.matchIndex)
      appliedIndex := (node.advanceCommit commitIndex).appliedIndex
      safetyAppliedIndex := (node.advanceCommit commitIndex).safetyAppliedIndex
      hardState.committed := (node.advanceCommit commitIndex).hardState.committed } := by
  unfold advanceCommit followCommit
  split <;> rfl

@[simp] theorem advanceCommit_id : (node.advanceCommit commitIndex).id = node.id := by
  rw [advanceCommit_eq]

@[simp] theorem advanceCommit_log : (node.advanceCommit commitIndex).log = node.log := by
  rw [advanceCommit_eq]

@[simp] theorem advanceCommit_commitIndex : (node.advanceCommit commitIndex).commitIndex
      = max node.commitIndex (min commitIndex node.matchIndex) := by
  rw [advanceCommit_eq]

@[simp] theorem advanceCommit_installedSnapshot :
    (node.advanceCommit commitIndex).installedSnapshot = node.installedSnapshot := by
  rw [advanceCommit_eq]

@[simp] theorem advanceCommit_witnessAckIndex :
    (node.advanceCommit commitIndex).witnessAckIndex = node.witnessAckIndex := by
  rw [advanceCommit_eq]

@[simp] theorem advanceCommit_replicaRole :
    (node.advanceCommit commitIndex).replicaRole = node.replicaRole := by
  rw [advanceCommit_eq]

end

/-! ## The retained bytes -/

inductive LogCall where
  | appendEntry (entry : LogEntry)
  | appendWitnessEntry (entry : LogEntry) (preservePayload : Bool)
  | truncateLogFrom (logIndex : Nat)
  | discardLogThrough (logIndex : Nat)
  | compactLogThrough (logIndex : Nat)
  | installSnapshot (snapshot : RaftSnapshot)
  | setLog (log : List LogEntry)
  /-- Anything that leaves the log alone. -/
  | become (other : Node)

def runCall (node : Node) : LogCall → Node
  | .appendEntry entry => node.appendEntry entry
  | .appendWitnessEntry entry preservePayload => node.appendWitnessEntry entry preservePayload
  | .truncateLogFrom logIndex => node.truncateLogFrom logIndex
  | .discardLogThrough logIndex => (node.discardLogThrough logIndex).2
  | .compactLogThrough logIndex => (node.compactLogThrough logIndex).2
  | .installSnapshot snapshot => node.installSnapshot snapshot
  | .setLog log => node.setLog log
  | .become other => { other with log := node.log, retainedLogBytes := node.retainedLogBytes }

/-- What is appended or set stays within what the counter holds. -/
def Fits (node : Node) : LogCall → Prop
  | .appendEntry entry | .appendWitnessEntry entry _ =>
    payloadBytes node.log + entry.payload.length ≤ u64Max
  | .setLog log => payloadBytes log ≤ u64Max
  | _ => True

def Counted (node : Node) : Prop := node.retainedLogBytes = payloadBytes node.log

theorem payloadBytes_cut (log : List LogEntry) (position : Nat) :
    payloadBytes (log.take position) + payloadBytes (log.drop position) = payloadBytes log := by
  rw [payloadBytes, payloadBytes, ← sum_append, ← map_append, take_append_drop, payloadBytes]

namespace Counted
variable (counted : node.Counted)

include counted

theorem truncateLogAt (position : Nat) : (node.truncateLogAt position).Counted := by
  have cut := payloadBytes_cut node.log position
  simp only [Counted, Node.truncateLogAt] at counted ⊢
  omega

theorem discardLogThrough (logIndex : Nat) : (node.discardLogThrough logIndex).2.Counted := by
  simp only [Node.discardLogThrough]
  split_ifs
  · exact counted
  · have cut := payloadBytes_cut node.log
    simp only [Counted] at counted ⊢
    grind

section
variable {entry : LogEntry} (fits : payloadBytes node.log + entry.payload.length ≤ u64Max)
include fits

theorem pushEntry : (node.pushEntry entry).Counted := by
  simp only [Counted, Node.pushEntry, satAdd, payloadBytes, map_append, sum_append] at *
  simp only [map_cons, map_nil, sum_singleton]
  omega

theorem appendEntry : (node.appendEntry entry).Counted := by
  unfold Node.appendEntry
  split
  · exact counted.pushEntry fits
  split
  · exact counted.pushEntry fits
  · rename_i position _
    have cut := payloadBytes_cut node.log position
    split_ifs
    · exact counted
    · exact counted
    · exact (counted.truncateLogAt position).pushEntry
        (show payloadBytes (node.log.take position) + _ ≤ _ by omega)

end

theorem runCall (call : LogCall) (fits : node.Fits call) : (node.runCall call).Counted := by
  cases call with
  | appendEntry => exact counted.appendEntry fits
  | appendWitnessEntry entry =>
    have same : (node.acknowledgeWitnessIndex entry.index).Counted ∧
        (node.acknowledgeWitnessIndex entry.index).log = node.log := by
      unfold acknowledgeWitnessIndex
      split <;> exact ⟨counted, rfl⟩
    refine same.1.appendEntry ?_
    simp only [Fits, same.2, witnessEntry] at fits ⊢
    split <;> grind
  | truncateLogFrom =>
    simp only [Node.runCall, Node.truncateLogFrom]
    split
    · exact counted
    split
    · exact counted.truncateLogAt _
    · exact counted
  | discardLogThrough logIndex => exact counted.discardLogThrough logIndex
  | compactLogThrough => exact counted.discardLogThrough _
  | installSnapshot snapshot =>
    exact @discardLogThrough { node with installedSnapshot := some snapshot.snapshotMeta } counted _
  | setLog => rfl
  | become => exact counted

end Counted

/-- **Retained bytes.** While the payloads fit it, the counter of a replica is the sum of the payload
lengths in its log after every sequence of log operations. -/
theorem retained_bytes_exact (id : Nat) (replicaRole : ReplicaRole) (autoPromote : Bool)
    (calls : List LogCall) (fit : Along runCall Fits (new id replicaRole autoPromote) calls) :
    ∀ node, node = calls.foldl runCall (new id replicaRole autoPromote) →
      node.retainedLogBytes = payloadBytes node.log := by
  rintro node rfl
  exact fit.invariant (P := Counted) (fun _ call counted => counted.runCall call) rfl

theorem retained_bytes_overwrite :
    ∃ node, node = [.appendEntry ⟨⟨1, 1⟩, [7, 7], true⟩, .appendEntry ⟨⟨2, 1⟩, [7], true⟩].foldl
      runCall (new 1 .voter false) ∧ node.retainedLogBytes = 1 ∧
      node.retainedLogBytes = payloadBytes node.log :=
  ⟨_, rfl, rfl, retained_bytes_exact 1 .voter false _
    (by exact ⟨Nat.le_of_ble_eq_true rfl, Nat.le_of_ble_eq_true rfl, trivial⟩) _ rfl⟩

end Node
end MatrixRaft
