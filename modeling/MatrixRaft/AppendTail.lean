/-
# AppendTail — a replica whose log ends where a batch begins

When a batch starts right after the last entry a replica holds, the loop stores its entries
one after another and changes nothing else.  When the replica holds all of them already, it
stays as it is, and only a witness still counts them.
-/
import MatrixRaft.AppendAcks

namespace MatrixRaft
open Theory List

namespace Node
variable {node : Node} {last : Nat} {entry : LogEntry} {entries : List LogEntry}

/-- The replica's log ends at `last`: that is what it acknowledges, and nothing lies behind. -/
structure EndsAt (node : Node) (last : Nat) : Prop where
  ordered : node.Ordered
  matchIndex : node.matchIndex = last
  snapshot : node.snapshotIndex ≤ last
  bounded : ∀ entry ∈ node.log, entry.index ≤ last

def storedForm (role : ReplicaRole) (entry : LogEntry) : LogEntry :=
  if role = .witness then witnessEntry entry false else entry

section
variable (role : ReplicaRole) (entry : LogEntry)

@[simp] theorem storedForm_logId : (storedForm role entry).logId = entry.logId := by
  unfold storedForm
  split <;> rfl

theorem storedForm_index : (storedForm role entry).index = entry.index :=
  congrArg LogId.index (storedForm_logId role entry)

theorem storedForm_payload_le : (storedForm role entry).payload.length ≤ entry.payload.length := by
  unfold storedForm
  split
  · simp [witnessEntry]
  · exact le_rfl

end

def storeEntry (node : Node) (entry : LogEntry) : Node :=
  (node.acknowledgeWitnessIndex entry.index).pushEntry (storedForm node.replicaRole entry)

theorem storeEntry_same (node : Node) (entry : LogEntry) :
    SameButLog node (node.storeEntry entry) :=
  (acknowledgeWitnessIndex_same node entry.index).trans (pushEntry_same _ _)

@[simp] theorem storeEntry_log (node : Node) (entry : LogEntry) :
    (node.storeEntry entry).log = node.log ++ [storedForm node.replicaRole entry] := by
  simp [storeEntry, pushEntry]

theorem Ordered.appendEntry_of_held (ordered : node.Ordered) {held : LogEntry}
    (member : held ∈ node.log) (same : held.logId = entry.logId) :
    node.appendEntry entry = node := by
  obtain ⟨position, slot⟩ := mem_iff_getElem?.mp member
  have found : node.logPosition entry.index = some position :=
    ordered.logPosition_eq_some_iff.mpr ⟨held, slot, congrArg LogId.index same⟩
  have notPast : ¬ node.extendsTail entry = true := by
    rw [extendsTail_iff]
    rintro (empty | past)
    · exact ne_nil_of_mem member empty
    · have reach := ordered.le_lastLogIndex member
      grind
  grind [appendEntry]

theorem storeEntry_retainedLogBytes_le (node : Node) (entry : LogEntry) :
    (node.storeEntry entry).retainedLogBytes ≤ node.retainedLogBytes + entry.payload.length := by
  have kept : (node.acknowledgeWitnessIndex entry.index).retainedLogBytes
      = node.retainedLogBytes := by
    unfold acknowledgeWitnessIndex
    split <;> rfl
  have small := storedForm_payload_le node.replicaRole entry
  simp only [storeEntry, pushEntry, kept, satAdd]
  omega

namespace EndsAt

section
variable (ends : node.EndsAt last)
include ends

theorem past {index : Nat} (beyond : last < index) : node.log = [] ∨ node.lastLogIndex < index := by
  by_cases empty : node.log = []
  · exact .inl empty
  right
  rw [lastLogIndex_of_ne_nil empty]
  exact lt_of_le_of_lt (ends.bounded _ (getLast_mem empty)) beyond

theorem logTermAt_none {index : Nat} (beyond : last < index) : node.logTermAt index = none := by
  rcases known : node.logTermAt index with _ | term
  · rfl
  rcases ends.ordered.logTermAt_eq_some known with ⟨zero, -⟩ | ⟨snapshot, installed, position⟩ | held
  · omega
  · have index_eq : node.snapshotIndex = index := by simp [snapshotIndex, installed, position]
    have := ends.snapshot
    omega
  · obtain ⟨entry, member, rfl, -⟩ := held
    have := ends.bounded entry member
    omega

theorem logTermAt_held {base : Nat} (low : node.snapshotIndex ≤ base)
    {held : LogEntry} (member : held ∈ node.log) (beyond : base < held.index) :
    node.logTermAt held.index = some held.term := by
  refine ends.ordered.logTermAt_of_held member (by omega) fun snapshot installed position => ?_
  have : node.snapshotIndex = snapshot.lastLogId.index := by simp [snapshotIndex, installed]
  omega

theorem storeEntry (here : entry.index = last + 1) : (node.storeEntry entry).EndsAt (last + 1) where
  ordered := by
    have increasing : node.log.Pairwise fun a b => a.index < b.index := ends.ordered
    rw [Ordered, Search.Increasing, storeEntry_log, pairwise_append]
    refine ⟨increasing, pairwise_singleton _ _, ?_⟩
    intro held member new isNew
    obtain rfl := mem_singleton.mp isNew
    have := ends.bounded held member
    rw [storedForm_index]
    omega
  matchIndex := by
    have same := storeEntry_same node entry
    have matched := ends.matchIndex
    have covered := ends.snapshot
    have reach : (node.storeEntry entry).lastLogIndex = entry.index := by
      rw [lastLogIndex_append (storeEntry_log node entry), storedForm_index]
    rw [Node.matchIndex, same.replicaRole, same.snapshotIndex, reach]
    split
    · rename_i witness
      rw [Node.matchIndex, if_pos witness] at matched
      simp only [Node.storeEntry, pushEntry, acknowledgeWitnessIndex, witness, if_true]
      omega
    · omega
  snapshot := by
    rw [(storeEntry_same node entry).snapshotIndex]
    exact ends.snapshot.trans (Nat.le_succ _)
  bounded := by
    intro held member
    rw [storeEntry_log, mem_append, mem_singleton] at member
    rcases member with old | rfl
    · exact (ends.bounded held old).trans (Nat.le_succ _)
    · rw [storedForm_index]
      exact here.le

end

end EndsAt

/-! ## A run of entries -/

def storeEntries (node : Node) (entries : List LogEntry) : Node :=
  entries.foldl storeEntry node

theorem storeEntries_same : ∀ (entries : List LogEntry) (node : Node),
    SameButLog node (node.storeEntries entries)
  | [], node => .refl node
  | entry :: rest, node =>
    (storeEntry_same node entry).trans (storeEntries_same rest (node.storeEntry entry))

theorem storeEntries_log : ∀ (entries : List LogEntry) (node : Node),
    (node.storeEntries entries).log = node.log ++ entries.map (storedForm node.replicaRole)
  | [], node => (append_nil _).symm
  | entry :: rest, node => by
    have later := storeEntries_log rest (node.storeEntry entry)
    rw [(storeEntry_same node entry).replicaRole, storeEntry_log] at later
    grind [storeEntries]

theorem storeEntries_retainedLogBytes_le : ∀ (entries : List LogEntry) (node : Node),
    (node.storeEntries entries).retainedLogBytes ≤ node.retainedLogBytes + payloadBytes entries
  | [], node => le_rfl
  | entry :: rest, node => by
    have later := storeEntries_retainedLogBytes_le rest (node.storeEntry entry)
    grind [storeEntries, payloadBytes, storeEntry_retainedLogBytes_le]

theorem EndsAt.storeEntries : ∀ {entries : List LogEntry} {node : Node} {last : Nat},
    node.EndsAt last → Numbered LogEntry.index (last + 1) entries →
    (node.storeEntries entries).EndsAt (last + entries.length)
  | [], _, _, ends, _ => ends
  | entry :: rest, node, last, ends, placed => by
    have stored := ends.storeEntry (placed 0 entry rfl)
    have whole := stored.storeEntries placed.tail
    rw [length_cons, show last + (rest.length + 1) = last + 1 + rest.length by omega]
    exact whole

end Node

/-! ## The loop over the entries -/

namespace AppendProgress
open Node
variable {context : AppendContext} {progress : AppendProgress} {entry : LogEntry} {last : Nat}

theorem data_of_not_witness {role : ReplicaRole} (data : role ≠ .witness) :
    role.canServeData = true := by
  cases role <;> simp_all [ReplicaRole.canServeData]

theorem takeEntry_next (ends : progress.node.EndsAt last) (here : entry.index = last + 1)
    (unmarked : context.membershipChangeIndexes = []) :
    ∃ taken : AppendProgress, taken = progress.appended (fun node => node.storeEntry entry) ∧
      (takeEntry context progress entry = .next taken ∨
        context.capBusyDataAppendBatch = true ∧ takeEntry context progress entry = .stop taken) := by
  refine ⟨_, rfl, ?_⟩
  have beyond : last < entry.index := by omega
  have past := ends.past beyond
  by_cases witness : progress.node.replicaRole = .witness
  · left
    have stores : progress.node.appendWitnessEntry entry false = progress.node.storeEntry entry := by
      have past' : (progress.node.acknowledgeWitnessIndex entry.index).extendsTail
          (witnessEntry entry false) = true := by
        rw [extendsTail_iff, lastLogIndex, acknowledgeWitnessIndex_log, ← lastLogIndex]
        exact past
      grind [appendWitnessEntry, appendEntry, Node.storeEntry, storedForm]
    simp [takeEntry, witness, ReplicaRole.canServeData, unmarked, appended, stores]
  · have stores : progress.node.appendEntry entry = progress.node.storeEntry entry := by
      rw [appendEntry, if_pos ((extendsTail_iff _ _).mpr past), Node.storeEntry, storedForm,
        if_neg witness, acknowledgeWitnessIndex, if_neg witness]
    simp [takeEntry, data_of_not_witness witness, ends.logTermAt_none beyond, admitData, unmarked,
      appendData, appended, stores]

/-- **A batch that continues the log is stored whole,** unless the replica is over its buffer
and the batch holds more than one entry. -/
theorem takeEntries_next (context : AppendContext)
    (unmarked : context.membershipChangeIndexes = []) :
    ∀ (entries : List LogEntry) (progress : AppendProgress) (last : Nat),
    progress.node.EndsAt last → Numbered LogEntry.index (last + 1) entries →
    (context.capBusyDataAppendBatch = false ∨ entries.length ≤ 1) →
    ∃ count, takeEntries context entries progress = ({ progress with
              node := progress.node.storeEntries entries, appendedEntriesCount := count }, none) ∧
      (entries ≠ [] ∨ progress.appendedEntriesCount ≠ 0 → count ≠ 0)
  | [], progress, _, _, _, _ => ⟨progress.appendedEntriesCount, rfl, by simp⟩
  | entry :: rest, progress, last, ends, placed, room => by
    have here : entry.index = last + 1 := placed 0 entry rfl
    obtain ⟨taken, is, turn⟩ := takeEntry_next ends here unmarked
    have stored : taken.node.EndsAt (last + 1) := by
      rw [is]
      exact ends.storeEntry here
    have counted : taken.appendedEntriesCount ≠ 0 := by
      rw [is]
      simp only [appended, satAdd, u64Max]
      omega
    rcases turn with next | ⟨busy, stop⟩
    · obtain ⟨count, ran, positive⟩ := takeEntries_next context unmarked rest taken (last + 1) stored
        placed.tail (room.imp_right fun short => by grind)
      refine ⟨count, ?_, fun _ => positive (.inr counted)⟩
      simp only [takeEntries, next, ran]
      rw [is]
      rfl
    · have alone : rest = [] := by
        rcases room with idle | short
        · grind
        · rw [length_cons] at short
          exact length_eq_zero_iff.mp (by omega)
      refine ⟨taken.appendedEntriesCount, ?_, fun _ => counted⟩
      simp only [takeEntries, stop]
      rw [is, alone]
      rfl

/-- **A batch the log holds changes nothing,** but that a witness counts its entries. -/
theorem takeEntries_held {base : Nat} (context : AppendContext)
    (unmarked : context.membershipChangeIndexes = []) :
    ∀ (entries : List LogEntry) (progress : AppendProgress),
    progress.node.EndsAt last → progress.node.snapshotIndex ≤ base →
    (∀ entry ∈ entries, base < entry.index ∧
      storedForm progress.node.replicaRole entry ∈ progress.node.log) →
    ∃ count, takeEntries context entries progress
        = ({ progress with appendedEntriesCount := count }, none)
  | [], progress, _, _, _ => ⟨progress.appendedEntriesCount, rfl⟩
  | entry :: rest, progress, ends, low, held => by
    obtain ⟨beyond, member⟩ := held entry (by simp)
    have later := fun other inRest => held other (mem_cons_of_mem entry inRest)
    by_cases witness : progress.node.replicaRole = .witness
    · have stays : progress.node.appendWitnessEntry entry false = progress.node := by
        have reached : (progress.node.acknowledgeWitnessIndex entry.index) = progress.node := by
          have bound := ends.bounded _ member
          have matched := ends.matchIndex
          rw [Node.matchIndex, if_pos witness] at matched
          rw [storedForm_index] at bound
          rw [acknowledgeWitnessIndex, if_pos witness, max_eq_left (by omega)]
        rw [appendWitnessEntry, reached]
        exact ends.ordered.appendEntry_of_held member (storedForm_logId _ _)
      obtain ⟨count, ran⟩ := takeEntries_held context unmarked rest
        { progress with appendedEntriesCount := satAdd progress.appendedEntriesCount 1 }
        ends low later
      refine ⟨count, ?_⟩
      simpa [takeEntries, takeEntry, witness, ReplicaRole.canServeData, unmarked, appended,
        stays] using ran
    · have known : progress.node.logTermAt entry.index = some entry.term := by
        grind [ends.logTermAt_held, storedForm_logId]
      obtain ⟨count, ran⟩ := takeEntries_held context unmarked rest progress ends low later
      refine ⟨count, ?_⟩
      simp only [takeEntries, takeEntry, data_of_not_witness witness, if_true, known]
      exact ran

end AppendProgress
end MatrixRaft
