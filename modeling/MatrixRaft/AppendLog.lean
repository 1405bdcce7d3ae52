/-
# AppendLog — what an append leaves of a replica's log

A log is gap-free when its indexes count up by one and it starts no later than right after
the commit point.  On such a log an admitted request splices its entries in from one index
on: everything below that index, and so everything committed, stays.
-/
import MatrixRaft.NodeLog
import MatrixRaft.Append
import MatrixRaft.Theory.Numbered

namespace MatrixRaft
open Theory Theory.Search List Option Numbered

namespace Node
variable {node after : Node} {a : Nat}

/-- The replica's log counts up by one from `a`. -/
def NumberedFrom (node : Node) (a : Nat) : Prop := Numbered LogEntry.index a node.log

theorem NumberedFrom.ordered (numbered : node.NumberedFrom a) : node.Ordered :=
  increasing numbered

theorem NumberedFrom.lastLogIndex (numbered : node.NumberedFrom a) (nonempty : node.log ≠ []) :
    node.lastLogIndex + 1 = a + node.log.length := by
  have bound : node.log.length - 1 < node.log.length := by
    have := length_pos_of_ne_nil nonempty
    omega
  have atLast := numbered _ _ (getElem?_eq_getElem bound)
  grind [lastLogIndex_of_ne_nil]

/-- `after` differs from `node` in its entries from `start` on, and stays numbered. -/
structure Splices (a start : Nat) (node after : Node) : Prop where
  same : SameButLog node after
  numbered : after.NumberedFrom a
  kept : after.log.take (start - a) = node.log.take (start - a)
  reaches : start ≤ a + after.log.length

namespace Splices
variable {start : Nat}

theorem refl (numbered : node.NumberedFrom a) (high : start ≤ a + node.log.length) :
    Splices a start node node :=
  ⟨.refl node, numbered, rfl, high⟩

theorem trans {middle : Node} {later : Nat} (first : Splices a start node middle)
    (second : Splices a later middle after) (above : start ≤ later) : Splices a start node after where
  same := first.same.trans second.same
  numbered := second.numbered
  kept := by
    have kept := congrArg (List.take (start - a)) second.kept
    grind [first.kept]
  reaches := above.trans second.reaches

theorem mem_of_lt (splices : Splices a start node after) (numbered : node.NumberedFrom a)
    {entry : LogEntry} (held : entry ∈ node.log) (early : entry.index < start) :
    entry ∈ after.log := by
  have inPrefix : entry ∈ node.log.take (start - a) := by
    rw [← filter_lt numbered start]
    exact mem_filter.mpr ⟨held, by simpa using early⟩
  grind [splices.kept]

end Splices

/-! ## One entry -/

theorem truncateLogFrom_splices (numbered : node.NumberedFrom a) {index : Nat}
    (low : a ≤ index) (high : index ≤ a + node.log.length) (fresh : node.commitIndex < index) :
    Splices a index node (node.truncateLogFrom index) := by
  have shape : (node.truncateLogFrom index).log = node.log.take (index - a) := by
    rw [numbered.ordered.truncateLogFrom_log fresh]
    exact filter_lt numbered index
  refine ⟨truncateLogFrom_same _ _, ?_, ?_, ?_⟩
  · rw [NumberedFrom, shape]
    exact take numbered _
  all_goals grind

section
variable (numbered : node.NumberedFrom a) {entry : LogEntry} (low : a ≤ entry.index)
  (high : entry.index ≤ a + node.log.length)
include numbered low high

theorem appendEntry_splices : Splices a entry.index node (node.appendEntry entry) ∧
      entry.index < a + (node.appendEntry entry).log.length := by
  rcases lt_or_ge entry.index (a + node.log.length) with inside | atEnd
  · obtain ⟨held, member, same⟩ := exists_mem numbered low inside
    have shape := numbered.ordered.appendEntry_log_of_held member same
    by_cases keeps : held.term = entry.term ∨ entry.index ≤ node.commitIndex
    · rw [if_pos keeps] at shape
      refine ⟨⟨appendEntry_same _ _, ?_, ?_, ?_⟩, ?_⟩
      · rw [NumberedFrom, shape]
        exact numbered
      all_goals grind
    · rw [if_neg keeps, below, filter_lt numbered] at shape
      have length : (node.log.take (entry.index - a)).length = entry.index - a := by grind
      refine ⟨⟨appendEntry_same _ _, ?_, ?_, ?_⟩, ?_⟩
      · rw [NumberedFrom, shape]
        refine append (take numbered _) ?_
        omega
      all_goals grind
  · have exact_ : entry.index = a + node.log.length := le_antisymm high atEnd
    have past : node.log = [] ∨ node.lastLogIndex < entry.index := by
      rcases eq_nil_or_concat node.log with empty | ⟨front, last, shape⟩
      · exact .inl empty
      right
      have nonempty : node.log ≠ [] := by simp [shape]
      have := numbered.lastLogIndex nonempty
      omega
    have shape := appendEntry_log_of_past past
    refine ⟨⟨appendEntry_same _ _, ?_, ?_, ?_⟩, ?_⟩
    · rw [NumberedFrom, shape]
      exact append numbered exact_
    all_goals grind

theorem appendWitnessEntry_splices (preservePayload : Bool) :
    Splices a entry.index node (node.appendWitnessEntry entry preservePayload) ∧
      entry.index < a + (node.appendWitnessEntry entry preservePayload).log.length := by
  have same := acknowledgeWitnessIndex_same node entry.index
  have log := acknowledgeWitnessIndex_log node entry.index
  obtain ⟨splices, past⟩ := @appendEntry_splices (node.acknowledgeWitnessIndex entry.index) a
    (by rw [NumberedFrom, log]; exact numbered) (witnessEntry entry preservePayload) low
    (by rw [log]; exact high)
  exact ⟨⟨same.trans splices.same, splices.numbered, splices.kept.trans (by rw [log]; rfl),
    splices.reaches⟩, past⟩

end

theorem Ordered.held_of_logTermAt (ordered : node.Ordered) {index term : Nat}
    (covered : node.snapshotIndex ≤ node.commitIndex) (fresh : node.commitIndex < index)
    (found : node.logTermAt index = some term) :
    ∃ entry ∈ node.log, entry.index = index ∧ entry.term = term := by
  rcases ordered.logTermAt_eq_some found with ⟨zero, -⟩ | ⟨snapshot, installed, position⟩ | held
  · omega
  · have : node.snapshotIndex = index := by simp [snapshotIndex, installed, position]
    omega
  · exact held

end Node

/-! ## The loop over the entries -/

def AppendStep.progress : AppendStep → AppendProgress
  | .next progress => progress
  | .stop progress => progress
  | .refuse progress _ => progress

namespace AppendProgress
open Node
variable {context : AppendContext} {progress : AppendProgress} {entry : LogEntry} {a : Nat}

def Takes (a : Nat) (entry : LogEntry) (before : Node) (step : AppendStep) : Prop :=
  Splices a entry.index before step.progress.node ∧
    ∀ taken, step = .next taken → entry.index < a + taken.node.log.length

section Data
variable {before : Node} (numbered : progress.node.NumberedFrom a) (low : a ≤ entry.index)
  (splices : Splices a entry.index before progress.node)

include numbered low splices

theorem appendData_takes : Takes a entry before (appendData context entry progress) := by
  obtain ⟨spliced, past⟩ := appendEntry_splices numbered low splices.reaches
  have whole : Splices a entry.index before (progress.node.appendEntry entry) :=
    ⟨splices.same.trans spliced.same, spliced.numbered, spliced.kept.trans splices.kept,
      spliced.reaches⟩
  unfold appendData
  split
  · exact ⟨whole, fun taken next => by cases next⟩
  refine ⟨whole, fun taken next => ?_⟩
  cases next
  exact past

theorem admitData_takes : Takes a entry before (admitData context entry progress) := by
  unfold admitData
  split
  · split
    · (repeat' split) <;> exact ⟨splices, fun taken next => by cases next⟩
    · exact appendData_takes numbered low splices
  · exact appendData_takes numbered low splices

end Data

/-- The log counts up from `a`, and `index` lies in it or right behind it, past the commit point. -/
structure Ready (a index : Nat) (node : Node) : Prop where
  numbered : node.NumberedFrom a
  low : a ≤ index
  high : index ≤ a + node.log.length
  covered : node.snapshotIndex ≤ node.commitIndex
  fresh : node.commitIndex < index

theorem Ready.of_eq {index : Nat} {node after : Node} (ready : Ready a index node)
    (log : after.log = node.log) (snapshot : after.snapshotIndex = node.snapshotIndex)
    (commit : after.commitIndex = node.commitIndex) : Ready a index after where
  numbered := by
    rw [NumberedFrom, log]
    exact ready.numbered
  low := ready.low
  high := log ▸ ready.high
  covered := by
    rw [snapshot, commit]
    exact ready.covered
  fresh := commit ▸ ready.fresh

theorem takeEntry_takes (ready : Ready a entry.index progress.node) :
    Takes a entry progress.node (takeEntry context progress entry) := by
  obtain ⟨numbered, low, high, covered, fresh⟩ := ready
  have still := Splices.refl numbered high
  unfold takeEntry
  split
  · split
    · rename_i localTerm found
      split
      · -- the entry is already there, so the log reaches past it
        refine ⟨still, fun taken next => ?_⟩
        cases next
        obtain ⟨held, member, index, -⟩ :=
          numbered.ordered.held_of_logTermAt covered fresh found
        have := (bounds numbered member).2
        omega
      · have truncated := truncateLogFrom_splices numbered low high fresh
        exact @admitData_takes context (progress.truncateFor entry.index) entry a progress.node
          truncated.numbered low truncated
    · exact admitData_takes numbered low still
  · split
    · obtain ⟨spliced, past⟩ := appendWitnessEntry_splices numbered low high
        (context.membershipChangeIndexes.contains entry.index)
      refine ⟨spliced, fun taken next => ?_⟩
      cases next
      exact past
    · cases role : progress.node.replicaRole <;> simp_all [ReplicaRole.canServeData]

/-- **The loop, turn by turn.** What every turn carries on holds after the loop, unless one stopped it. -/
theorem takeEntries_rule (keeps : Nat → AppendProgress → Prop)
    (ends : AppendProgress → Option Nat → Prop) : ∀ (entries : List LogEntry)
    (progress : AppendProgress) (start : Nat), Numbered LogEntry.index start entries →
    Ready a start progress.node → keeps start progress →
    (∀ entry ∈ entries, ∀ before, Ready a entry.index before.node → keeps entry.index before →
      (∀ taken, takeEntry context before entry = .next taken → keeps (entry.index + 1) taken) ∧
      (∀ taken, takeEntry context before entry = .stop taken → ends taken none) ∧
      ∀ taken index, takeEntry context before entry = .refuse taken index → ends taken (some index)) →
    ends (takeEntries context entries progress).1 (takeEntries context entries progress).2 ∨
      (takeEntries context entries progress).2 = none ∧
        keeps (start + entries.length) (takeEntries context entries progress).1
  | [], progress, start, _, _, kept, _ => .inr ⟨rfl, kept⟩
  | entry :: rest, progress, start, placed, ready, kept, turn => by
    obtain rfl : entry.index = start := placed 0 entry rfl
    obtain ⟨spliced, past⟩ := @takeEntry_takes context progress entry a ready
    obtain ⟨nexts, stops, refuses⟩ := turn entry (by simp) progress ready kept
    unfold takeEntries
    split
    · rename_i taken next
      rw [next] at spliced
      replace spliced : Splices a entry.index progress.node taken.node := spliced
      have ready' : Ready a (entry.index + 1) taken.node := by
        refine ⟨spliced.numbered, ready.low.trans (Nat.le_succ _), past taken next, ?_, ?_⟩
        · rw [spliced.same.snapshotIndex, spliced.same.commitIndex]
          exact ready.covered
        · rw [spliced.same.commitIndex]
          exact ready.fresh.trans (Nat.lt_succ_self _)
      have ended := takeEntries_rule keeps ends rest taken (entry.index + 1) placed.tail ready'
        (nexts taken next) fun later member => turn later (by simp [member])
      grind
    all_goals grind

/-- **Admitted entries.** The loop splices the request's entries in from their first
index on. -/
theorem takeEntries_splices (entries : List LogEntry) (progress : AppendProgress) (start : Nat)
    (placed : Numbered LogEntry.index start entries) (ready : Ready a start progress.node) :
    Splices a start progress.node (takeEntries context entries progress).1.node := by
  have ended := @takeEntries_rule context a
    (fun index reached => start ≤ index ∧ Splices a start progress.node reached.node)
    (fun reached _ => Splices a start progress.node reached.node) entries progress start placed
    ready ⟨le_rfl, .refl ready.numbered ready.high⟩ (by
      intro entry _ before ready kept
      have turn := kept.2.trans (@takeEntry_takes context before entry a ready).1 kept.1
      refine ⟨fun taken next => ⟨Nat.le_succ_of_le kept.1, ?_⟩, fun taken stop => ?_,
        fun taken index refuse => ?_⟩
      · rwa [next] at turn
      · rwa [stop] at turn
      · rwa [refuse] at turn)
  exact ended.elim id fun kept => kept.2.2

theorem takeEntry_node (context : AppendContext) (progress : AppendProgress) (entry : LogEntry) :
    (progress.node.replicaRole ≠ .witness ∧ ∃ base,
      (base = progress.node ∨ base = progress.node.truncateLogFrom entry.index) ∧
      ((takeEntry context progress entry).progress.node = base ∨
        (takeEntry context progress entry).progress.node = base.appendEntry entry)) ∨
    (takeEntry context progress entry).progress.node = progress.node ∨
    progress.node.replicaRole = .witness ∧ ∃ preserve, (takeEntry context progress entry).progress.node
      = progress.node.appendWitnessEntry entry preserve := by
  have admitted : ∀ reached : AppendProgress,
      (admitData context entry reached).progress.node = reached.node ∨
        (admitData context entry reached).progress.node = reached.node.appendEntry entry := by
    intro reached
    unfold admitData appendData
    (repeat' split) <;> first | exact .inl rfl | exact .inr rfl
  unfold takeEntry
  split
  · have data : progress.node.replicaRole ≠ .witness := by grind [ReplicaRole.canServeData]
    split
    · split
      · exact .inr (.inl rfl)
      · exact .inl ⟨data, _, .inr rfl, admitted (progress.truncateFor entry.index)⟩
    · exact .inl ⟨data, _, .inl rfl, admitted progress⟩
  · split
    · rename_i witness
      exact .inr (.inr ⟨witness, _, rfl⟩)
    · exact .inr (.inl rfl)

theorem takeEntry_same (context : AppendContext) (progress : AppendProgress) (entry : LogEntry) :
    SameButLog progress.node (takeEntry context progress entry).progress.node := by
  rcases takeEntry_node context progress entry with
    ⟨-, base, from_, left⟩ | left | ⟨-, preserve, left⟩
  · have based : SameButLog progress.node base := by
      rcases from_ with rfl | rfl
      · exact .refl _
      · exact truncateLogFrom_same _ _
    rcases left with left | left <;> rw [left]
    · exact based
    · exact based.trans (appendEntry_same _ _)
  · rw [left]
    exact .refl _
  · rw [left]
    exact appendWitnessEntry_same _ _ _

theorem takeEntries_same (context : AppendContext) : ∀ (entries : List LogEntry)
    (progress : AppendProgress),
    SameButLog progress.node (takeEntries context entries progress).1.node
  | [], progress => .refl progress.node
  | entry :: rest, progress => by
    have turn := takeEntry_same context progress entry
    unfold takeEntries
    split
    · rename_i taken next
      rw [next] at turn
      exact turn.trans (takeEntries_same context rest taken)
    · rename_i taken stop
      rw [stop] at turn
      exact turn
    · rename_i taken index refuse
      rw [refuse] at turn
      exact turn

def Stores (role : ReplicaRole) (sent stored : LogEntry) : Prop :=
  if role = .witness then ∃ preservePayload, stored = witnessEntry sent preservePayload
  else stored = sent

theorem Stores.logId {role : ReplicaRole} {sent stored : LogEntry} (stores : Stores role sent stored) :
    stored.logId = sent.logId := by
  unfold Stores at stores
  split at stores
  · obtain ⟨_, rfl⟩ := stores
    rfl
  · rw [stores]

theorem takeEntry_origin {found : LogEntry}
    (member : found ∈ (takeEntry context progress entry).progress.node.log) :
    found ∈ progress.node.log ∨ Stores progress.node.replicaRole entry found := by
  rcases takeEntry_node context progress entry with
    ⟨data, base, from_, left⟩ | left | ⟨witness, preserve, left⟩
  · have old : found ∈ base.log → found ∈ progress.node.log := by
      rcases from_ with rfl | rfl
      · exact id
      · exact mem_of_mem_truncateLogFrom
    have stored : Stores progress.node.replicaRole entry entry := by rw [Stores, if_neg data]
    rcases left with left | left <;> rw [left] at member
    · exact .inl (old member)
    · rcases mem_of_mem_appendEntry member with held | rfl
      · exact .inl (old held)
      · exact .inr stored
  · exact .inl (left ▸ member)
  · rw [left] at member
    rcases mem_of_mem_appendEntry member with held | rfl
    · rw [acknowledgeWitnessIndex_log] at held
      exact .inl held
    · grind [Stores]

theorem takeEntries_origin {found : LogEntry} : ∀ (entries : List LogEntry)
    (progress : AppendProgress), found ∈ (takeEntries context entries progress).1.node.log →
    found ∈ progress.node.log ∨ ∃ sent ∈ entries, Stores progress.node.replicaRole sent found
  | [], _, member => .inl member
  | entry :: rest, progress, member => by
    have origin := @takeEntry_origin context progress entry found
    have role := (takeEntry_same context progress entry).replicaRole
    unfold takeEntries at member
    split at member
    · rename_i taken next
      rw [next] at origin role
      rcases takeEntries_origin rest taken member with old | ⟨sent, sentMember, stores⟩
      · rcases origin old with older | new
        all_goals grind
      · rw [← role]
        exact .inr ⟨sent, by simp [sentMember], stores⟩
    · rename_i taken stop
      rw [stop] at origin
      exact (origin member).imp_right fun new => ⟨entry, by simp, new⟩
    · rename_i taken index refuse
      rw [refuse] at origin
      exact (origin member).imp_right fun new => ⟨entry, by simp, new⟩

end AppendProgress

/-! ## Which requests are admitted -/

namespace Node
variable {node : Node} {request : AppendEntriesRequest} {installing : Bool}

/-- Entries that do not run past `u64::MAX` sit at their places exactly if they continue the
previous position without a gap. -/
theorem misplacedEntry_eq_none_iff : ∀ (entries : List LogEntry) (prevIndex : Nat),
    prevIndex + entries.length ≤ u64Max →
    (misplacedEntry prevIndex entries = none ↔ Numbered LogEntry.index (prevIndex + 1) entries)
  | [], _, _ => iff_of_true rfl (nil _ _)
  | entry :: rest, prevIndex, fits => by
    rw [length_cons] at fits
    have expected : (prevIndex + 1) % (u64Max + 1) = prevIndex + 1 := Nat.mod_eq_of_lt (by omega)
    have later := misplacedEntry_eq_none_iff rest (prevIndex + 1) (by omega)
    rw [cons_iff, ← later]
    simp only [misplacedEntry, expected]
    split
    all_goals grind

/-- Why a replica takes the branch it takes. -/
inductive Admits (node : Node) (installing : Bool) (request : AppendEntriesRequest) : Admission → Prop
  | installing (busy : installing = true) : Admits node installing request .installing
  | heartbeat (bare : request.prevLogId = none ∧ request.entries = []) :
      Admits node installing request .heartbeat
  | belowCommit (early : request.prevIndex < node.commitIndex) :
      Admits node installing request .belowCommit
  | gap : Admits node installing request .gap
  | conflict : Admits node installing request .conflict
  | unknown : Admits node installing request .unknown
  | misplaced (index : Nat) : Admits node installing request (.misplaced index)
  | admitted (above : node.commitIndex ≤ request.prevIndex)
      (placed : misplacedEntry request.prevIndex request.entries = none)
      (prev : request.prevIndex = 0 ∨ ∃ term, request.prevLogId = some ⟨term, request.prevIndex⟩ ∧
        request.prevIndex ≤ node.matchIndex ∧ node.logTermAt request.prevIndex = some term) :
      Admits node installing request .admitted

theorem prevFault_cases {prev : LogId} {fault : Admission} (faulty : node.prevFault prev = some fault) :
    fault = .gap ∨ fault = .conflict ∨ fault = .unknown := by
  unfold prevFault at faulty
  grind

theorem prevFault_none (sound : request.prevLogId.bind node.prevFault = none) :
    request.prevIndex = 0 ∨ ∃ term, request.prevLogId = some ⟨term, request.prevIndex⟩ ∧
      request.prevIndex ≤ node.matchIndex ∧ node.logTermAt request.prevIndex = some term := by
  rcases given : request.prevLogId with _ | prev
  · left
    simp [AppendEntriesRequest.prevIndex, given]
  have position : request.prevIndex = prev.index := by
    simp [AppendEntriesRequest.prevIndex, given]
  rw [given, bind_some, prevFault] at sound
  split at sound
  · split at sound
    · cases sound
    · rename_i positive reached
      split at sound
      · rename_i localTerm known
        split at sound
        · rename_i same
          right
          rw [position]
          exact ⟨prev.term, rfl, not_lt.mp reached, same ▸ known⟩
        · cases sound
      · cases sound
  · left
    omega

theorem admission_admits (node : Node) (installing : Bool) (request : AppendEntriesRequest) :
    Admits node installing request (node.admission installing request) := by
  unfold admission
  split
  · exact .installing ‹_›
  split
  · rename_i bare
    exact .heartbeat ⟨isNone_iff_eq_none.mp bare.1, isEmpty_iff.mp bare.2⟩
  split
  · exact .belowCommit ‹_›
  rename_i above
  split
  · rename_i fault found
    obtain ⟨prev, -, faulty⟩ := bind_eq_some_iff.mp found
    rcases prevFault_cases faulty with rfl | rfl | rfl
    · exact .gap
    · exact .conflict
    · exact .unknown
  · rename_i sound
    split
    · exact .misplaced _
    · exact .admitted (not_lt.mp above) ‹_› (prevFault_none sound)

theorem admission_admitted (admitted : node.admission installing request = .admitted) :
    node.commitIndex ≤ request.prevIndex ∧ misplacedEntry request.prevIndex request.entries = none ∧
    (request.prevIndex = 0 ∨ ∃ term, request.prevLogId = some ⟨term, request.prevIndex⟩ ∧
      request.prevIndex ≤ node.matchIndex ∧ node.logTermAt request.prevIndex = some term) := by
  have admits := node.admission_admits installing request
  rw [admitted] at admits
  cases admits with
  | admitted above placed prev => exact ⟨above, placed, prev⟩

end Node
end MatrixRaft
