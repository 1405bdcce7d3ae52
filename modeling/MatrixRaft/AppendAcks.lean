/-
# AppendAcks — what an acknowledged append tells its sender

A replica that acknowledges a request up to an index holds what the request says up to
there.  Two answers speak of the commit point alone and are given without a comparison,
while a snapshot is being installed and when the entries start below the commit point.
-/
import MatrixRaft.FollowerCommit
import MatrixRaft.Immutable
import MatrixRaft.OneVote

namespace MatrixRaft
open Theory Option Numbered AppendProgress AppendEntriesRequest RaftCluster

namespace Node
variable {node before after : Node} {request : AppendEntriesRequest} {a : Nat}

def AgreesThrough (node : Node) (index : Nat) (request : AppendEntriesRequest) : Prop :=
  (∀ prev ∈ request.prevLogId, 0 < prev.index → prev.index ≤ index →
    node.logTermAt prev.index = some prev.term) ∧
  ∀ entry ∈ request.entries, entry.index ≤ index → node.logTermAt entry.index = some entry.term

/-! ## Logs without gaps -/

/-- The retained log has no gap and adjoins the commit point; where the commit point has moved
past it, no snapshot stands there. -/
structure UnbrokenFrom (node : Node) (a : Nat) : Prop where
  numbered : node.NumberedFrom a
  low : a ≤ node.commitIndex + 1
  snapshot : node.snapshotIndex ≤ node.commitIndex
  reach : node.commitIndex + 1 ≤ a + node.log.length ∨ node.snapshotIndex < node.commitIndex

namespace UnbrokenFrom

theorem of_quiet (unbroken : before.UnbrokenFrom a) (quiet : Quiet before after) :
    after.UnbrokenFrom a where
  numbered := by
    rw [NumberedFrom, quiet.log]
    exact unbroken.numbered
  low := by
    rw [quiet.commitIndex]
    exact unbroken.low
  snapshot := by
    rw [quiet.snapshotIndex, quiet.commitIndex]
    exact unbroken.snapshot
  reach := by
    rw [quiet.snapshotIndex, quiet.commitIndex, quiet.log]
    exact unbroken.reach

theorem advanceCommit (unbroken : node.UnbrokenFrom a) (commitIndex : Nat) :
    (node.advanceCommit commitIndex).UnbrokenFrom a where
  numbered := by
    rw [NumberedFrom, advanceCommit_log]
    exact unbroken.numbered
  low := by
    rw [advanceCommit_commitIndex]
    have := unbroken.low
    omega
  snapshot := by
    grind [snapshotIndex, advanceCommit_installedSnapshot, advanceCommit_commitIndex,
      unbroken.snapshot]
  reach := by
    have low := unbroken.snapshot
    rw [snapshotIndex, advanceCommit_installedSnapshot, ← snapshotIndex, advanceCommit_commitIndex,
      advanceCommit_log]
    -- a commit point that has moved is past the snapshot
    grind [unbroken.reach]

theorem ready (unbroken : node.UnbrokenFrom a) {installing : Bool}
    (admitted : node.admission installing request = .admitted) :
    AppendProgress.Ready a (request.prevIndex + 1) node := by
  obtain ⟨above, -, prev⟩ := admission_admitted admitted
  have low := unbroken.low
  have snapshot := unbroken.snapshot
  refine ⟨unbroken.numbered, by omega, ?_, snapshot, by omega⟩
  rcases prev with zero | ⟨term, -, -, known⟩
  · grind [unbroken.reach]
  rcases unbroken.numbered.ordered.logTermAt_eq_some known with ⟨zero, -⟩ | installed | held
  · grind [unbroken.reach]
  · obtain ⟨installed, here, position⟩ := installed
    have index : node.snapshotIndex = request.prevIndex := by
      simp [snapshotIndex, here, position]
    rcases unbroken.reach with reach | reach <;> omega
  · obtain ⟨held, member, index, -⟩ := held
    have := (bounds unbroken.numbered member).2
    omega

end UnbrokenFrom

theorem Ordered.logTermAt_of_kept (ordered : before.Ordered) (ordered' : after.Ordered)
    (snapshot : after.installedSnapshot = before.installedSnapshot) {index term : Nat}
    (kept : ∀ entry ∈ before.log, entry.index = index → entry ∈ after.log)
    (known : before.logTermAt index = some term) : after.logTermAt index = some term := by
  by_cases zero : index = 0
  · subst zero
    exact known
  by_cases here : ∃ installed, before.installedSnapshot = some installed ∧
      installed.lastLogId.index = index
  · grind [logTermAt]
  grind [ordered.logTermAt_eq_some, ordered'.logTermAt_of_held]

theorem Splices.logTermAt {start : Nat} (splices : Splices a start before after)
    (numbered : before.NumberedFrom a) {index term : Nat} (early : index < start)
    (known : before.logTermAt index = some term) : after.logTermAt index = some term :=
  numbered.ordered.logTermAt_of_kept splices.numbered.ordered splices.same.installedSnapshot
    (fun entry member here => splices.mem_of_lt numbered member (by omega)) known

theorem NumberedFrom.logTermAt_of_mem (numbered : node.NumberedFrom a)
    (covered : node.snapshotIndex ≤ node.commitIndex) {found : LogEntry} (member : found ∈ node.log)
    (fresh : node.commitIndex < found.index) : node.logTermAt found.index = some found.term := by
  refine numbered.ordered.logTermAt_of_held member (by omega) fun installed is position => ?_
  have : node.snapshotIndex = installed.lastLogId.index := by simp [snapshotIndex, is]
  omega

end Node

/-! ## The loop over the entries -/

variable {taken : AppendProgress}

namespace AppendProgress
open Node
variable {context : AppendContext} {progress : AppendProgress} {entry : LogEntry} {a : Nat}

theorem appendEntry_holds {node : Node} (ready : Ready a entry.index node) :
    ∃ found ∈ (node.appendEntry entry).log, found.logId = entry.logId := by
  by_cases past : node.log = [] ∨ node.lastLogIndex < entry.index
  · simp [appendEntry_log_of_past past]
  have inside : entry.index < a + node.log.length := by
    by_contra outside
    refine past ?_
    by_cases empty : node.log = []
    · exact .inl empty
    · have := ready.numbered.lastLogIndex empty
      omega
  obtain ⟨held, member, same⟩ := exists_mem ready.numbered ready.low inside
  rw [ready.numbered.ordered.appendEntry_log_of_held member same]
  have := ready.fresh
  split
  · refine ⟨held, member, ?_⟩
    have term : held.term = entry.term := by omega
    exact congrArg₂ LogId.mk term same
  · exact ⟨entry, by simp, rfl⟩

theorem appendWitnessEntry_holds {node : Node} (ready : Ready a entry.index node) (preserve : Bool) :
    ∃ found ∈ (node.appendWitnessEntry entry preserve).log, found.logId = entry.logId := by
  have same := acknowledgeWitnessIndex_same node entry.index
  have log := acknowledgeWitnessIndex_log node entry.index
  exact @appendEntry_holds (witnessEntry entry preserve) a (node.acknowledgeWitnessIndex entry.index)
    (ready.of_eq log same.snapshotIndex same.commitIndex)

/-- What the loop has established below `index`: the entries sent are in the log, nothing lies
behind one a data replica appended, and a witness acknowledges no more than it did or was sent. -/
structure Took (sent : List LogEntry) (ack index : Nat) (progress : AppendProgress) :
    Prop where
  holds : ∀ entry ∈ sent, entry.index < index → ∃ found ∈ progress.node.log,
    found.logId = entry.logId
  last : progress.node.replicaRole ≠ .witness → progress.appendedEntriesCount ≠ 0 →
    ∀ held ∈ progress.node.log, held.index < index
  acked : progress.node.replicaRole = .witness → progress.node.witnessAckIndex ≤ max ack (index - 1)

def Stopped (sent : List LogEntry) (ack bound : Nat) (progress : AppendProgress) : Prop :=
  progress.node.replicaRole ≠ .witness ∧ progress.appendedEntriesCount ≠ 0 ∧
    ∃ index ≤ bound, Took sent ack index progress

section Turn
variable {sent : List LogEntry} {ack : Nat}

section Turn
variable (took : Took sent ack entry.index progress)
  (once : ∀ other ∈ sent, other.index = entry.index → other.logId = entry.logId)

include took once

theorem Took.extend
    (kept : ∀ held ∈ progress.node.log, held.index < entry.index → held ∈ taken.node.log)
    (found : ∃ found ∈ taken.node.log, found.logId = entry.logId) :
    ∀ other ∈ sent, other.index < entry.index + 1 → ∃ found ∈ taken.node.log,
      found.logId = other.logId := by
  intro other member bound
  rcases Nat.lt_succ_iff_lt_or_eq.mp bound with early | here
  · obtain ⟨held, inLog, same⟩ := took.holds other member early
    grind
  · grind

theorem Took.dataTurn {step : AppendStep} (data : step.progress.node.replicaRole ≠ .witness)
    (serves : progress.node.replicaRole ≠ .witness) (turn : DataTurn progress entry step) :
    (∀ taken, step = .next taken → Took sent ack (entry.index + 1) taken) ∧
      ∀ taken, step = .stop taken → Stopped sent ack (entry.index + 1) taken := by
  have below_kept : ∀ cut : AppendProgress, cut.node.log = below entry.index progress.node.log →
      ∀ held ∈ progress.node.log, held.index < entry.index → held ∈ cut.node.log := by
    grind [mem_below]
  cases turn with
  | held found member same =>
    refine ⟨?_, fun _ stop => (nomatch stop)⟩
    rintro _ ⟨⟩
    refine ⟨took.extend once (fun held inLog _ => inLog) ⟨found, member, same.symm⟩,
      fun _ counted => ?_, fun witness => absurd witness data⟩
    grind [took.last]
  | refused => exact ⟨fun _ next => (nomatch next), fun _ stop => (nomatch stop)⟩
  | stopped cut log counted =>
    refine ⟨fun _ next => (nomatch next), ?_⟩
    rintro _ ⟨⟩
    refine ⟨data, counted, entry.index, Nat.le_succ _, fun other member early => ?_, fun _ _ held inLog => ?_,
      fun witness => absurd witness data⟩
    · obtain ⟨held, inLog, same⟩ := took.holds other member early
      grind
    · grind [mem_below]
  | appended taken log counted _ goes =>
    have took' : step.progress.node.replicaRole ≠ .witness → step.progress = taken →
        Took sent ack (entry.index + 1) taken := by
      intro data reached
      refine ⟨took.extend once (fun held inLog early => ?_) ⟨entry, by simp [log], rfl⟩,
        fun _ _ held inLog => ?_, fun witness => absurd (reached ▸ witness) data⟩
      · grind [mem_below]
      rw [log] at inLog
      rcases List.mem_append.mp inLog with old | new
      · exact (mem_below.mp old).2.trans (Nat.lt_succ_self _)
      · grind
    refine ⟨?_, ?_⟩
    · rintro next rfl
      rcases goes with goes | goes <;> cases goes
      exact took' data rfl
    · rintro stopped rfl
      rcases goes with goes | goes <;> cases goes
      exact ⟨data, counted, _, le_rfl, took' data rfl⟩

theorem Took.turn (ready : Ready a entry.index progress.node) :
    (∀ taken, takeEntry context progress entry = .next taken →
      Took sent ack (entry.index + 1) taken) ∧
      ∀ taken, takeEntry context progress entry = .stop taken →
        Stopped sent ack (entry.index + 1) taken := by
  have role := (takeEntry_same context progress entry).replicaRole
  by_cases serves : progress.node.replicaRole.canServeData = true
  · have data : progress.node.replicaRole ≠ .witness := by grind [ReplicaRole.canServeData]
    exact took.dataTurn once (role ▸ data) data (takeEntry_turn serves ready)
  · have witness : progress.node.replicaRole = .witness := by
      cases held : progress.node.replicaRole <;> simp_all [ReplicaRole.canServeData]
    unfold takeEntry
    rw [if_neg serves, if_pos witness]
    refine ⟨?_, fun _ stop => by cases stop⟩
    rintro _ ⟨⟩
    obtain ⟨spliced, -⟩ := appendWitnessEntry_splices ready.numbered ready.low ready.high
      (context.membershipChangeIndexes.contains entry.index)
    refine ⟨took.extend once (fun held inLog early => spliced.mem_of_lt ready.numbered inLog early)
      (appendWitnessEntry_holds ready _), fun data => ?_, fun _ => ?_⟩
    · exact absurd (spliced.same.replicaRole.trans witness) data
    · have before := took.acked witness
      grind [appended, appendWitnessEntry, appendEntry_witnessAckIndex, acknowledgeWitnessIndex]

end Turn

/-- **The loop.** -/
theorem takeEntries_took {start : Nat} (placed : Numbered LogEntry.index start sent)
    (ready : Ready a start progress.node) (uncounted : progress.appendedEntriesCount = 0)
    (ran : takeEntries context sent progress = (taken, none)) :
    Stopped sent progress.node.witnessAckIndex (start + sent.length) taken ∨
      Took sent progress.node.witnessAckIndex (start + sent.length) taken := by
  have begun : Took sent progress.node.witnessAckIndex start progress :=
    ⟨fun entry member early => absurd (bounds placed member).1 (by omega),
      fun _ counted => absurd uncounted counted, fun _ => le_max_left _ _⟩
  have ended := @takeEntries_rule context a
    (fun index progress' => Took sent progress.node.witnessAckIndex index progress')
    (fun taken refused => refused = none →
      Stopped sent progress.node.witnessAckIndex (start + sent.length) taken)
    sent progress start placed ready begun
    fun entry member before ready took => by
      have once : ∀ other ∈ sent, other.index = entry.index → other.logId = entry.logId :=
        fun other member' same => by rw [eq_of_key_eq placed member' member same]
      have bound := (bounds placed member).2
      obtain ⟨nexts, stops⟩ := @Took.turn context before entry a sent _ took once ready
      refine ⟨nexts, fun taken stop _ => ?_, fun taken index refuse none => by cases none⟩
      obtain ⟨data, counted, index, below, took'⟩ := stops taken stop
      exact ⟨data, counted, index, by omega, took'⟩
  grind

end Turn
end AppendProgress

/-! ## One request -/

variable {following : Node}

namespace Node
variable {node : Node} {request : AppendEntriesRequest} {installing : Bool} {a : Nat}

def Backed (node : Node) (request : AppendEntriesRequest) : Prop :=
  node.replicaRole = .witness →
    node.witnessAckIndex ≤ max node.commitIndex (request.prevIndex + request.entries.length)

structure Answered (node : Node) (request : AppendEntriesRequest) (taken : AppendProgress) : Prop where
  unbroken : ∃ a, taken.node.UnbrokenFrom a
  agrees : taken.node.AgreesThrough (appendMatchIndex request taken) request
  bounded : node.Backed request → appendMatchIndex request taken
    ≤ request.prevIndex + request.entries.length
  kept : ∀ index ≤ request.prevIndex, ∀ term, node.logTermAt index = some term →
    taken.node.logTermAt index = some term
  commit : taken.node.commitIndex = node.commitIndex

theorem UnbrokenFrom.splices {after : Node} (unbroken : node.UnbrokenFrom a) {start : Nat}
    (splices : Splices a start node after) (fresh : node.commitIndex < start) :
    after.UnbrokenFrom a where
  numbered := splices.numbered
  low := by
    rw [splices.same.commitIndex]
    exact unbroken.low
  snapshot := by
    rw [splices.same.snapshotIndex, splices.same.commitIndex]
    exact unbroken.snapshot
  reach := by grind [splices.same.commitIndex, splices.reaches]

theorem UnbrokenFrom.answered (unbroken : node.UnbrokenFrom a) (fits : request.Fits)
    (admitted : node.admission installing request = .admitted) {context : AppendContext}
    {progress : AppendProgress} (quiet : Quiet node progress.node)
    (uncounted : progress.appendedEntriesCount = 0)
    (ran : takeEntries context request.entries progress = (taken, none)) :
    node.Answered request taken := by
  obtain ⟨-, placed, prev⟩ := admission_admitted admitted
  have above := (unbroken.ready admitted).fresh
  have sent := (misplacedEntry_eq_none_iff _ _ fits).mp placed
  have start := unbroken.of_quiet quiet
  have ready := (unbroken.ready admitted).of_eq quiet.log quiet.snapshotIndex quiet.commitIndex
  have spliced := @AppendProgress.takeEntries_splices context a request.entries progress _ sent ready
  have took := takeEntries_took sent ready uncounted ran
  rw [ran] at spliced
  replace spliced : Splices a (request.prevIndex + 1) progress.node taken.node := spliced
  have unbroken' := start.splices spliced ready.fresh
  have commit : taken.node.commitIndex = node.commitIndex :=
    spliced.same.commitIndex.trans quiet.commitIndex
  have snapshot := unbroken'.snapshot
  have kept : ∀ index ≤ request.prevIndex, ∀ term, node.logTermAt index = some term →
      taken.node.logTermAt index = some term := fun index early term known =>
    spliced.logTermAt start.numbered (by omega) ((quiet.logTermAt index).trans known)
  -- how far a data replica's own log lets it acknowledge
  have reaches : ∀ index, taken.node.replicaRole ≠ .witness →
      (∀ held ∈ taken.node.log, held.index < index) →
      taken.node.matchIndex ≤ max (index - 1) node.commitIndex := by
    intro index data last
    rw [matchIndex, if_neg data]
    refine max_le ?_ (by omega)
    by_cases empty : taken.node.log = []
    · rw [lastLogIndex_eq_zero empty]
      omega
    · grind [lastLogIndex_of_ne_nil]
  refine ⟨⟨a, unbroken'⟩, ⟨fun position given positive bound => ?_, fun entry member bound => ?_⟩,
    fun backed => ?_, kept, commit⟩
  · rcases prev with zero | ⟨term, named, -, known⟩
    · grind [prevIndex, mem_def]
    · grind
  · have late := (bounds sent member).1
    have early := (bounds sent member).2
    obtain ⟨found, inLog, same⟩ : ∃ found ∈ taken.node.log, found.logId = entry.logId := by
      rcases took with ⟨data, counted, index, -, took⟩ | took
      · rw [appendMatchIndex, if_neg counted] at bound
        have := reaches index data (took.last data counted)
        exact took.holds entry member (by omega)
      · exact took.holds entry member early
    grind [unbroken'.numbered.logTermAt_of_mem]
  · rw [appendMatchIndex]
    split
    · grind [satAdd_le]
    rename_i counted
    rcases took with ⟨data, -, index, below, took⟩ | took
    · have := reaches index data (took.last data counted)
      omega
    by_cases witness : taken.node.replicaRole = .witness
    · have acked := took.acked witness
      rw [quiet.witnessAckIndex] at acked
      have := backed (quiet.witness_iff.mp (spliced.same.replicaRole.symm.trans witness))
      rw [matchIndex, if_pos witness]
      omega
    · have := reaches _ witness (took.last witness counted)
      omega

theorem Answered.of_quiet (quiet : Quiet node following)
    (answered : following.Answered request taken) : node.Answered request taken where
  unbroken := answered.unbroken
  agrees := answered.agrees
  bounded := fun backed => answered.bounded fun witness => by
    rw [quiet.witnessAckIndex, quiet.commitIndex]
    exact backed (quiet.witness_iff.mp witness)
  kept := fun index early term known =>
    answered.kept index early term ((quiet.logTermAt index).trans known)
  commit := answered.commit.trans quiet.commitIndex

theorem unbroken_appendRule : NodeAppendRule
    (fun node node' => (∃ a, node.UnbrokenFrom a) → ∃ a, node'.UnbrokenFrom a)
    AppendEntriesRequest.Fits := by
  have takes : ∀ {node : Node} {request : AppendEntriesRequest} {installing : Bool}
      {context : AppendContext} {progress : AppendProgress}, request.Fits →
      node.admission installing request = .admitted → Quiet node progress.node →
      (∃ a, node.UnbrokenFrom a) →
      ∃ a, (takeEntries context request.entries progress).1.node.UnbrokenFrom a := by
    rintro node request installing context progress fits admitted quiet ⟨a, unbroken⟩
    obtain ⟨-, placed, -⟩ := admission_admitted admitted
    have ready := (unbroken.ready admitted).of_eq quiet.log quiet.snapshotIndex quiet.commitIndex
    have sent := (misplacedEntry_eq_none_iff _ _ fits).mp placed
    exact ⟨a, (unbroken.of_quiet quiet).splices (takeEntries_splices _ progress _ sent ready)
      ready.fresh⟩
  exact
    { quiet := fun quiet ⟨a, unbroken⟩ => ⟨a, unbroken.of_quiet quiet⟩
      trans := fun one two unbroken => two (one unbroken)
      heartbeat := fun _ _ ⟨a, unbroken⟩ => ⟨a, unbroken.advanceCommit _⟩
      refused := fun fits admitted quiet _ _ unbroken => takes fits admitted quiet unbroken
      taken := fun fits admitted quiet _ _ unbroken => by
        obtain ⟨a, unbroken'⟩ := takes fits admitted quiet unbroken
        exact ⟨a, unbroken'.advanceCommit _⟩ }

/-! ## Replays -/

/-- The replica has followed to `term`, its log is unbroken and still knows every term `base` knew up
to `index`. -/
structure Remembers (base : Node) (index term : Nat) (node : Node) : Prop where
  unbroken : ∃ a, node.UnbrokenFrom a
  term : term ≤ node.hardState.currentTerm
  commit : base.commitIndex ≤ node.commitIndex
  known : ∀ place ≤ index, ∀ held, base.logTermAt place = some held →
    node.logTermAt place = some held

/-- What the request says of the uncommitted places up to `index`, if it is of `term` or a later one, is
what `base` holds there. -/
structure Repeats (base : Node) (index term : Nat) (request : AppendEntriesRequest) : Prop where
  fits : request.Fits
  held : term ≤ request.term → ∀ entry ∈ request.entries, base.commitIndex < entry.index →
    entry.index ≤ index → base.logTermAt entry.index = some entry.term

end Node

namespace AppendProgress
open Node
variable {context : AppendContext} {progress : AppendProgress} {entry : LogEntry} {a : Nat}

theorem takeEntry_repeated (ready : Ready a entry.index progress.node)
    (known : progress.node.logTermAt entry.index = some entry.term) :
    (takeEntry context progress entry).progress.node.log = progress.node.log := by
  unfold takeEntry
  split
  · rw [known]
    dsimp only
    rw [if_pos rfl]
    rfl
  · split
    · obtain ⟨held, member, index, term⟩ :=
        ready.numbered.ordered.held_of_logTermAt ready.covered ready.fresh known
      have log := acknowledgeWitnessIndex_log progress.node entry.index
      have ordered : (progress.node.acknowledgeWitnessIndex entry.index).Ordered := by
        unfold Ordered
        rw [log]
        exact ready.numbered.ordered
      have stays := @Ordered.appendEntry_log_of_held _ ordered
        (witnessEntry entry (context.membershipChangeIndexes.contains entry.index)) held
        (log ▸ member) index
      rw [if_pos (.inl term), log] at stays
      exact stays
    · rfl

theorem takeEntry_remembers {base : Node} {bound : Nat} (ready : Ready a entry.index progress.node)
    (unbroken : progress.node.UnbrokenFrom a)
    (remembers : ∀ place ≤ bound, ∀ term, base.logTermAt place = some term →
      progress.node.logTermAt place = some term)
    (repeats : entry.index ≤ bound → base.logTermAt entry.index = some entry.term) :
    (takeEntry context progress entry).progress.node.UnbrokenFrom a ∧
      ∀ place ≤ bound, ∀ term, base.logTermAt place = some term →
        (takeEntry context progress entry).progress.node.logTermAt place = some term := by
  obtain ⟨spliced, -⟩ := @takeEntry_takes context progress entry a ready
  refine ⟨unbroken.splices spliced ready.fresh, fun place early term known => ?_⟩
  have before := remembers place early term known
  by_cases covered : entry.index ≤ bound
  · have same := @takeEntry_repeated context progress entry a ready
      (remembers _ covered _ (repeats covered))
    exact ready.numbered.ordered.logTermAt_of_kept spliced.numbered.ordered
      spliced.same.installedSnapshot (fun held member _ => same ▸ member) before
  · exact spliced.logTermAt ready.numbered (by omega) before

end AppendProgress

namespace Node
variable {node base : Node} {request : AppendEntriesRequest} {installing : Bool} {bound term : Nat}

namespace Remembers
variable (remembers : Remembers base bound term node)
include remembers

theorem of_quiet {after : Node} (quiet : Quiet node after)
    (raised : node.hardState.currentTerm ≤ after.hardState.currentTerm) :
    Remembers base bound term after := by
  obtain ⟨a, unbroken⟩ := remembers.unbroken
  refine ⟨⟨a, unbroken.of_quiet quiet⟩, remembers.term.trans raised, ?_, fun place early held known => ?_⟩
  · rw [quiet.commitIndex]
    exact remembers.commit
  · exact (quiet.logTermAt place).trans (remembers.known place early held known)

theorem takeEntries (repeats : Repeats base bound term request)
    (current : node.hardState.currentTerm ≤ request.term)
    (admitted : node.admission installing request = .admitted) (s : RaftCluster)
    (context : AppendContext) : Remembers base bound term
      (takeEntries context request.entries (s.appendStart node request)).1.node := by
  have quiet : Quiet node (s.appendStart node request).node := ⟨rfl, rfl, rfl, rfl, rfl, .inl rfl⟩
  have same := takeEntries_same context request.entries (s.appendStart node request)
  obtain ⟨a, unbroken⟩ := remembers.unbroken
  obtain ⟨-, placed, -⟩ := admission_admitted admitted
  have ready := unbroken.ready admitted
  have sent := (misplacedEntry_eq_none_iff _ _ repeats.fits).mp placed
  have start := unbroken.of_quiet quiet
  have ended := @AppendProgress.takeEntries_rule context a
    (fun _ progress => progress.node.UnbrokenFrom a ∧ ∀ place ≤ bound, ∀ held,
      base.logTermAt place = some held → progress.node.logTermAt place = some held)
    (fun taken _ => taken.node.UnbrokenFrom a ∧ ∀ place ≤ bound, ∀ held,
      base.logTermAt place = some held → taken.node.logTermAt place = some held)
    request.entries (s.appendStart node request) _ sent
    (ready.of_eq quiet.log quiet.snapshotIndex quiet.commitIndex)
    ⟨start, fun place early held known =>
      (quiet.logTermAt place).trans (remembers.known place early held known)⟩
    fun entry member before ready kept => by
      -- an entry the replica takes lies past its commit point
      have fresh : base.commitIndex < entry.index := by
        have := (bounds sent member).1
        have := remembers.commit
        have := (unbroken.ready admitted).fresh
        omega
      have turn := @AppendProgress.takeEntry_remembers context before entry a base bound ready kept.1
        kept.2 (repeats.held (remembers.term.trans current) entry member fresh)
      refine ⟨fun taken next => ?_, fun taken stop => ?_, fun taken index refuse => ?_⟩
      · rw [next] at turn
        exact turn
      · rw [stop] at turn
        exact turn
      · rw [refuse] at turn
        exact turn
  have raised : term ≤ (AppendProgress.takeEntries context request.entries
      (s.appendStart node request)).1.node.hardState.currentTerm := by
    rw [same.hardState]
    exact remembers.term.trans current
  have commit : base.commitIndex ≤ (AppendProgress.takeEntries context request.entries
      (s.appendStart node request)).1.node.commitIndex := by
    rw [same.commitIndex]
    exact remembers.commit
  rcases ended with ended | ⟨-, ended⟩
  all_goals exact ⟨⟨a, ended.1⟩, raised, commit, ended.2⟩

theorem advanceCommit (commitIndex : Nat) :
    Remembers base bound term (node.advanceCommit commitIndex) := by
  obtain ⟨a, unbroken⟩ := remembers.unbroken
  have unbroken' := unbroken.advanceCommit commitIndex
  refine ⟨⟨a, unbroken'⟩, ?_, ?_, fun place early held known => ?_⟩
  · rw [advanceCommit_eq]
    exact remembers.term
  · rw [advanceCommit_commitIndex]
    exact remembers.commit.trans (le_max_left _ _)
  · exact unbroken.numbered.ordered.logTermAt_of_kept unbroken'.numbered.ordered
      (advanceCommit_installedSnapshot node commitIndex)
      (fun entry member _ => by rw [advanceCommit_log]; exact member)
      (remembers.known place early held known)

end Remembers

/-- **Replays.** A replica that has followed to a term forgets nothing to appends that repeat what it
holds, or are of an earlier term. -/
theorem remembers_appendRule (base : Node) (bound term : Nat) : AppendRule
    (EachNode fun node node' => Remembers base bound term node → Remembers base bound term node')
    (Repeats base bound term) where
  trans := fun one two => one.trans (fun _ _ _ first second remembers => second (first remembers)) two
  kept := fun _ nodes _ _ => .of_nodes_eq (fun _ remembers => remembers) nodes
  observed := fun {s request} _ _ => by
    unfold observeLeader
    split
    · exact .refl (fun _ remembers => remembers) s
    refine EachNode.trans (fun _ _ _ first second remembers => second (first remembers)) ?_
      (.mapNodes fun node remembers =>
        remembers.of_quiet ⟨rfl, rfl, rfl, rfl, rfl, .inl rfl⟩ le_rfl)
    rw [concludeTransferFor_eq]
    exact .of_nodes_eq (fun _ remembers => remembers) rfl
  followed := fun {s target node request} _ held =>
    .modifyNode (fun _ remembers => remembers) fun found heldFound remembers => by
      obtain rfl := Option.some.inj (held.symm.trans heldFound)
      exact remembers.of_quiet (followRequestTerm_quiet _ _)
        (followRequestTerm_rises (P := fun _ => True) trivial _).term
  heartbeat := fun _ _ _ =>
    .modifyNode (fun _ remembers => remembers) fun _ _ remembers => remembers.advanceCommit _
  refused := fun {s target node request installing context index} repeats held current admitted _ =>
    .modifyNode (fun _ remembers => remembers) fun found heldFound remembers => by
      obtain rfl := Option.some.inj (held.symm.trans heldFound)
      exact remembers.takeEntries repeats current admitted s context
  taken := fun {s target node request installing context progress} repeats held current admitted ran =>
    .modifyNode (fun _ remembers => remembers) fun found heldFound remembers => by
      obtain rfl := Option.some.inj (held.symm.trans heldFound)
      have taken := remembers.takeEntries repeats current admitted s context
      rw [ran] at taken
      exact taken.advanceCommit _

end Node

/-! ## The answer -/

namespace RaftCluster
variable {s s' : RaftCluster} {target : Nat} {node : Node} {request : AppendEntriesRequest}
  {changes : List Nat} {response : AppendEntriesResponse}

def installing (s : RaftCluster) (target : Nat) : Bool :=
  (s.peerPipelines[target]?).any fun pipeline => pipeline.status.snapshotInstalling

/-- The request has reached the replica: its sender is followed, and the cache is that of its sender. -/
structure Arrives (s arrived : RaftCluster) (target leaderId : Nat) (node following : Node) :
    Prop where
  quiet : Node.Quiet node following
  role : following.replicaRole = node.replicaRole
  safetyApplied : following.safetyAppliedIndex = node.safetyAppliedIndex
  held : arrived.nodes[target]? = some following
  pipelines : arrived.peerPipelines = s.peerPipelines
  pending : arrived.pendingMembershipChangeIndex = s.pendingMembershipChangeIndex
  cached : ∀ P : Nat → AppendEntriesRequest → Prop, (s.leaderId = some leaderId → CachedFor P s) →
    CachedFor P arrived

inductive Acknowledged (s : RaftCluster) (target : Nat) (node : Node) (request : AppendEntriesRequest)
    (changes : List Nat) (response : AppendEntriesResponse) (s' : RaftCluster) : Prop
  /-- The answer speaks of the commit point alone. -/
  | committed (branch : s.installing target = true ∨ request.prevIndex < node.commitIndex)
      (answer : response.matchIndex = node.commitIndex)
  | heartbeat (bare : request.Bare)
  | taken (following : Node) (arrived : RaftCluster)
      (arrives : Arrives s arrived target request.leaderId node following)
      (current : node.hardState.currentTerm ≤ request.term)
      (admitted : following.admission (s.installing target) request = .admitted)
      (progress : AppendProgress)
      (ran : takeEntries (arrived.appendContext following request changes)
        request.entries (arrived.appendStart following request) = (progress, none))
      (answer : response.matchIndex = appendMatchIndex request progress)
      (drained : s' = (drainReorderedAppends (s.cachedAppends target) target
        (arrived.finishAppend target request progress)).2)

theorem Arrives.of_following {arrived : RaftCluster} {leaderId : Nat}
    (arrives : Arrives s arrived target leaderId node following) (term : Nat) :
    Arrives s (arrived.modifyNode target fun _ => followRequestTerm following term) target leaderId
      node (followRequestTerm following term) where
  quiet := arrives.quiet.trans (followRequestTerm_quiet following term)
  role := by
    rw [← arrives.role]
    unfold followRequestTerm
    split <;> rfl
  safetyApplied := by
    rw [← arrives.safetyApplied]
    unfold followRequestTerm
    split <;> rfl
  held := by simp [modifyNode, arrives.held]
  pipelines := arrives.pipelines
  pending := arrives.pending
  cached := fun P cached => (arrives.cached P cached).of_eq rfl

theorem arrives_granted (held : s.nodes[target]? = some node) (request : AppendEntriesRequest) :
    ∃ following, Arrives s
      ((s.observeLeader request.term request.leaderId).grantLease target request).2 target
      request.leaderId node following ∧ following.hardState = node.hardState := by
  obtain ⟨role, observed, pipelines, pending⟩ :=
    observeLeader_node held request.term request.leaderId
  obtain ⟨granted, pipelines', pending'⟩ := grantLease_frame
    (s.observeLeader request.term request.leaderId) target request
  refine ⟨{ node with raftRole := role }, ⟨⟨rfl, rfl, rfl, rfl, rfl, .inl rfl⟩, rfl, rfl, ?_,
    pipelines'.trans pipelines, pending'.trans pending, fun P cached => ?_⟩, rfl⟩
  · grind
  · exact (grantLease_delivers (trivial_appendRule fun _ => True) _ target request
      (observeLeader_cached cached _)).1

theorem answer_acknowledged {arrived : RaftCluster}
    (arrives : Arrives s arrived target request.leaderId node following) {lease : LeaseGrant}
    (current : node.hardState.currentTerm ≤ request.term)
    (ran : answerAppend (drainReorderedAppends (s.cachedAppends target) target) target following request
      changes lease arrived = (.ok response, s')) (success : response.success = true) :
    Acknowledged s target node request changes response s' := by
  have busy : arrived.installing target = s.installing target := by
    rw [installing, arrives.pipelines, installing]
  have admits := following.admission_admits (s.installing target) request
  unfold answerAppend at ran
  dsimp only at ran
  split at ran
  all_goals
    rename_i branch
    change following.admission (arrived.installing target) request = _ at branch
    rw [busy] at branch
    rw [branch] at admits
  · cases ran
    cases admits with
    | installing busy => exact .committed (.inl busy) arrives.quiet.commitIndex
  · cases admits with
    | heartbeat bare => exact .heartbeat bare
  · cases ran
    cases admits with
    | belowCommit early =>
      exact .committed (.inr (arrives.quiet.commitIndex ▸ early)) arrives.quiet.commitIndex
  · cases ran
    cases success
  · cases ran
    cases success
  · cases ran
    cases success
  · cases ran
    cases success
  · unfold takeAdmitted at ran
    dsimp only at ran
    split at ran
    · cases ran
      cases success
    rename_i progress outcome
    rw [Attempt.bind_apply] at ran
    split at ran
    · rename_i drained reached
      cases ran
      exact .taken following arrived arrives current branch progress outcome rfl (by rw [reached])
    · cases ran

theorem append_acknowledged (held : s.nodes[target]? = some node)
    (ran : appendEntriesWithMembershipChangeIndexesTo target request changes s = (.ok response, s'))
    (success : response.success = true) :
    Acknowledged s target node request changes response s' := by
  unfold appendEntriesWithMembershipChangeIndexesTo appendEntriesWith at ran
  split at ran
  · cases ran
  split at ran
  · rw [held] at ran
    cases ran
    cases success
  · split at ran
    · rw [held] at ran
      cases ran
      cases success
    · obtain ⟨following, arrives, same⟩ := arrives_granted held request
      dsimp only at ran
      unfold deliverAppend at ran
      rw [arrives.held] at ran
      dsimp only at ran
      split at ran
      · cases ran
        cases success
      · rename_i current
        rw [same, not_lt] at current
        exact answer_acknowledged (arrives.of_following request.term) current ran success

theorem finishAppend_node {arrived : RaftCluster} (held : arrived.nodes[target]? = some node)
    (request : AppendEntriesRequest) (progress : AppendProgress) :
    (arrived.finishAppend target request progress).nodes[target]? = some (progress.node.advanceCommit
      (min request.leaderCommit (appendMatchIndex request progress))) := by
  unfold finishAppend
  split
  · simp [refreshClusterIndexes, modifyNode, held]
  · simp [refreshClusterIndexes, modifyNode, held, clearReorderQueueFor,
      resetPendingMembershipChangeAfterTruncation]

/-- What `cached` says past the commit point is what `node` holds up to the previous position of
`request`, and what `request` says after it. -/
def Consistent (node : Node) (request cached : AppendEntriesRequest) : Prop :=
  ∀ entry ∈ cached.entries, node.commitIndex < entry.index →
    (entry.index ≤ request.prevIndex → node.logTermAt entry.index = some entry.term) ∧
      ∀ sent ∈ request.entries, sent.index = entry.index → sent.term = entry.term

/-- No append that the sender of `request` sent in its term and that waits in the cache of the target
contradicts it. -/
def Unopposed (s : RaftCluster) (target : Nat) (node : Node) (request : AppendEntriesRequest) : Prop :=
  CachedFor (fun peer cached => peer = target → cached.leaderId = request.leaderId →
    cached.term = request.term → Consistent node request cached) s

theorem Consistent.repeats {cached : AppendEntriesRequest} (consistent : Consistent node request cached)
    (answered : node.Answered request taken)
    (placed : Numbered LogEntry.index (request.prevIndex + 1) request.entries) :
    ∀ entry ∈ cached.entries, taken.node.commitIndex < entry.index →
      entry.index ≤ min (appendMatchIndex request taken)
        (request.prevIndex + request.entries.length) →
      taken.node.logTermAt entry.index = some entry.term := by
  intro entry member fresh bound
  obtain ⟨below, sent⟩ := consistent entry member (answered.commit ▸ fresh)
  by_cases early : entry.index ≤ request.prevIndex
  · exact answered.kept _ early _ (below early)
  obtain ⟨named, inRequest, same⟩ := exists_mem placed
    (by omega : request.prevIndex + 1 ≤ entry.index) (by omega)
  rw [← same, ← sent named inRequest same]
  exact answered.agrees.2 named inRequest (by omega)

/-! ## The cache -/

/-- An append for `peer` of the leader that is followed, and of no later term than the peer's. -/
def Timely (s : RaftCluster) (peer : Nat) (cached : AppendEntriesRequest) : Prop :=
  s.leaderId = some cached.leaderId ∧
    ∀ node, s.nodes[peer]? = some node → cached.term ≤ node.hardState.currentTerm

def Queued (s : RaftCluster) : Prop := CachedFor s.Timely s

theorem leads_appendRule (leaderId : Nat) : AppendRule
    (fun s s' => s.leaderId = some leaderId → s'.leaderId = some leaderId)
    fun request => request.leaderId = leaderId where
  trans := fun one two led => two (one led)
  kept := fun _ _ _ same led => same.trans led
  observed := fun {s request} sender _ led => by
    rw [observeLeader, if_pos (by rw [led, sender])]
    exact led
  followed := fun _ _ led => led
  heartbeat := fun _ _ _ led => led
  refused := fun _ _ _ _ _ led => led
  taken := fun _ _ _ _ _ led => led

theorem observeLeader_leads (s : RaftCluster) (term leaderId : Nat) :
    (s.observeLeader term leaderId).leaderId = some leaderId := by
  unfold observeLeader
  split
  · assumption
  · dsimp only
    rw [concludeTransferFor_eq]
    rfl

namespace Queued

theorem of_eq (queued : Queued s) (queues : s'.reorderQueues = s.reorderQueues)
    (leader : s'.leaderId = s.leaderId) (rises : EachNode (Node.Rises fun _ => True) s s') :
    Queued s' := by
  intro peer queue held prev stored slot
  rw [queues] at held
  obtain ⟨sender, bound⟩ := queued peer queue held prev stored slot
  refine ⟨leader.trans sender, fun after heldAfter => ?_⟩
  obtain ⟨before, was, rises⟩ := Pointwise.back rises heldAfter
  exact (bound before was).trans rises.term

theorem arrived (queued : Queued s) (target : Nat) (request : AppendEntriesRequest) :
    Queued ((s.observeLeader request.term request.leaderId).grantLease target request).2 := by
  have observed : Queued (s.observeLeader request.term request.leaderId) := by
    by_cases same : s.leaderId = some request.leaderId
    · rw [observeLeader, if_pos same]
      exact queued
    · exact observeLeader_cached (fun is => absurd is same) _
  have frame : ∀ s : RaftCluster, (s.grantLease target request).2.nodes = s.nodes ∧
      (s.grantLease target request).2.leaderId = s.leaderId ∧
      (s.grantLease target request).2.reorderQueues = s.reorderQueues := by
    intro s
    unfold grantLease renewFollowerLeaseFromAppendEntries renewFollowerLease receiveFollowerLeaseItem
    split
    · split <;> split <;> exact ⟨rfl, rfl, rfl⟩
    · exact ⟨rfl, rfl, rfl⟩
  obtain ⟨nodes, leader, queues⟩ := frame (s.observeLeader request.term request.leaderId)
  exact observed.of_eq queues leader (.of_nodes_eq .refl nodes)

theorem answered (queued : Queued s) (held : s.nodes[target]? = some node)
    (led : s.leaderId = some request.leaderId)
    (raised : node.hardState.currentTerm = request.term) (rounds : Nat) (lease : LeaseGrant) :
    Queued (answerAppend (drainReorderedAppends rounds target) target node request changes lease
      s).2 := by
  have admits : s.Timely target request := by
    refine ⟨led, fun found heldFound => ?_⟩
    obtain rfl := Option.some.inj (held.symm.trans heldFound)
    exact raised.ge
  have leads : AppendRule _ (s.Timely target) := (leads_appendRule request.leaderId).mono
    fun cached admitted => (Option.some.inj (led.symm.trans admitted.1)).symm
  have lifts : AppendRule _ (s.Timely target) := (@lifts_appendRule fun _ => True).mono
    fun _ _ => trivial
  obtain ⟨cached, stays⟩ := answerAppend_delivers leads (drainReorderedAppends_delivers leads rounds)
    admits held raised.le queued
  obtain ⟨-, lifted⟩ := answerAppend_delivers lifts (drainReorderedAppends_delivers lifts rounds)
    admits held raised.le queued
  intro peer queue heldQueue prev stored slot
  obtain ⟨sender, bound⟩ := cached peer queue heldQueue prev stored slot
  refine ⟨(stays led).trans (led.symm.trans sender), fun after heldAfter => ?_⟩
  obtain ⟨before, was, rises⟩ := Pointwise.back lifted.nodes heldAfter
  exact (bound before was).trans rises.term

theorem append (queued : Queued s) (target : Nat) (request : AppendEntriesRequest)
    (changes : List Nat) :
    Queued (appendEntriesWithMembershipChangeIndexesTo target request changes s).2 := by
  unfold appendEntriesWithMembershipChangeIndexesTo appendEntriesWith
  split
  · exact queued
  split
  · split <;> exact queued
  split
  · split <;> exact queued
  have arrived := queued.arrived target request
  have led : ((s.observeLeader request.term request.leaderId).grantLease target request).2.leaderId
      = some request.leaderId :=
    (grantLease_delivers (P := fun _ _ => True) (leads_appendRule request.leaderId) _ target request
      fun _ _ _ _ _ _ => trivial).2 (observeLeader_leads s _ _)
  dsimp only
  unfold deliverAppend
  split
  · exact arrived
  rename_i node held
  split
  · exact arrived
  rename_i current
  have followed : Queued (modifyNode _ target fun _ => followRequestTerm node request.term) :=
    arrived.of_eq rfl rfl <| .modifyNode .refl fun found heldFound => by
      obtain rfl := Option.some.inj (held.symm.trans heldFound)
      exact followRequestTerm_rises trivial node
  exact followed.answered (by simp [modifyNode, held]) led
    (followRequestTerm_term (not_lt.mp current)) _ _

end Queued

/-- What an answer that acknowledges `request` up to `index` promises of a replica that was `node`:
it reaches no further than the commit point and the end of the request, where a witness had not
acknowledged more before; it is the commit point while a snapshot is being installed or when the
request starts below it; and otherwise the replica holds what the request says up to there. -/
structure Truthful (s : RaftCluster) (target : Nat) (node : Node) (request : AppendEntriesRequest)
    (index : Nat) (s' : RaftCluster) : Prop where
  bounded : node.Backed request →
    index ≤ max node.commitIndex (request.prevIndex + request.entries.length)
  committed : s.installing target = true ∨ request.prevIndex < node.commitIndex →
    index = node.commitIndex
  agrees : s.installing target = false → node.commitIndex ≤ request.prevIndex →
    ∃ node', s'.nodes[target]? = some node' ∧ node'.AgreesThrough index request

/-- Logs without gaps, and a cache of the leader that is followed. -/
structure GapFree (s : RaftCluster) : Prop where
  nodes : ∀ (nodeId : Nat) (node : Node), s.nodes[nodeId]? = some node → ∃ a, node.UnbrokenFrom a
  cached : Cached AppendEntriesRequest.Fits s
  queued : Queued s

theorem truthful_of_acknowledged (gapFree : GapFree s) (held : s.nodes[target]? = some node)
    (fits : request.Fits) (bearing : ¬ request.Bare) (unopposed : Unopposed s target node request)
    (ran : appendEntriesWithMembershipChangeIndexesTo target request changes s = (.ok response, s'))
    (success : response.success = true) :
    Truthful s target node request response.matchIndex s' := by
  obtain ⟨a, unbroken⟩ := gapFree.nodes target node held
  cases append_acknowledged held ran success with
  | committed branch answer =>
    refine ⟨fun _ => answer ▸ le_max_left _ _, fun _ => answer, fun free above => ?_⟩
    grind
  | heartbeat bare => exact absurd bare bearing
  | taken following arrived arrives current admitted progress run answer drained =>
    obtain ⟨above, placed, -⟩ := Node.admission_admitted admitted
    rw [arrives.quiet.commitIndex] at above
    have sent := (Node.misplacedEntry_eq_none_iff _ _ fits).mp placed
    have answered : node.Answered request progress :=
      ((unbroken.of_quiet arrives.quiet).answered fits admitted
        ⟨rfl, rfl, rfl, rfl, rfl, .inl rfl⟩ rfl run).of_quiet arrives.quiet
    refine ⟨fun backed => ?_, fun branch => ?_, fun _ _ => ?_⟩
    · rw [answer]
      exact (answered.bounded backed).trans (le_max_right _ _)
    · rcases branch with busy | early
      · simp [Node.admission, busy] at admitted
      · omega
    · -- the replays the answer releases find the replica as the answer describes it
      let bound := min (appendMatchIndex request progress)
        (request.prevIndex + request.entries.length)
      have raised : progress.node.hardState.currentTerm = request.term := by
        have same := takeEntries_same (arrived.appendContext following request changes)
          request.entries (arrived.appendStart following request)
        rw [run] at same
        rw [same.hardState]
        rfl
      have remembers : Node.Remembers progress.node bound request.term progress.node :=
        ⟨answered.unbroken, raised.ge, le_rfl, fun _ _ _ known => known⟩
      let P : Nat → AppendEntriesRequest → Prop := fun peer cached =>
        peer = target → Node.Repeats progress.node bound request.term cached
      have repeats : s.leaderId = some request.leaderId → CachedFor P s := by
        rintro led peer queue queued prev stored slot rfl
        refine ⟨gapFree.cached peer queue queued prev stored slot, fun late => ?_⟩
        -- what is cached is of the sender, and of its term where it is not outdated
        obtain ⟨sender, reached⟩ := gapFree.queued peer queue queued prev stored slot
        have consistent := unopposed peer queue queued prev stored slot rfl
          (Option.some.inj (sender.symm.trans led))
          (((reached node held).trans current).antisymm late)
        exact consistent.repeats answered sent
      have rule : AppendRule _ (P target) :=
        (Node.remembers_appendRule progress.node bound request.term).mono fun _ admits => admits rfl
      obtain ⟨-, each⟩ := drainReorderedAppends_delivers rule (s.cachedAppends target) _
        (finishAppend_delivers (trivial_appendRule fun _ => True) progress trivial
          (arrives.cached P repeats)).1
      obtain ⟨node', held', remembers'⟩ :=
        (each target).1 _ (finishAppend_node arrives.held request progress)
      have known := (remembers' (remembers.advanceCommit _)).known
      rw [← drained] at held'
      refine ⟨node', held', fun prev given positive early => ?_, fun entry member early => ?_⟩
      · have index : request.prevIndex = prev.index := by
          simp [prevIndex, mem_def.mp given]
        grind [answered.agrees.1]
      · have := (bounds sent member).2
        grind [answered.agrees.2]

/-! ## Runs of appends -/

def appends (s : RaftCluster) (calls : List (Nat × AppendEntriesRequest × List Nat)) : RaftCluster :=
  calls.foldl (fun s call =>
    (appendEntriesWithMembershipChangeIndexesTo call.1 call.2.1 call.2.2 s).2) s

theorem GapFree.append (gapFree : GapFree s) (fits : request.Fits) (target : Nat) (changes : List Nat) :
    GapFree (appendEntriesWithMembershipChangeIndexesTo target request changes s).2 := by
  obtain ⟨cached, each, -⟩ := appendEntries_delivers Node.unbroken_appendRule.lift fits target changes s
    gapFree.cached
  refine ⟨fun nodeId after held => ?_, cached, gapFree.queued.append target request changes⟩
  obtain ⟨before, was, moves⟩ := Pointwise.back each held
  exact moves (gapFree.nodes nodeId before was)

theorem GapFree.appends : ∀ (calls : List (Nat × AppendEntriesRequest × List Nat)) {s : RaftCluster},
    GapFree s → (∀ call ∈ calls, call.2.1.Fits) → GapFree (s.appends calls)
  | [], _, gapFree, _ => gapFree
  | call :: rest, _, gapFree, fit =>
    GapFree.appends rest (gapFree.append (fit call (by simp)) call.1 call.2.2)
      fun later member => fit later (by simp [member])

/-- **Acknowledged appends are truthful.**  After any appends to a cluster whose logs have no gap, when
the sender has not contradicted itself within its term, the answer to a request with entries or a
previous position says what the replica holds. -/
theorem acknowledgment_truthful (gapFree : GapFree s)
    (calls : List (Nat × AppendEntriesRequest × List Nat)) (fit : ∀ call ∈ calls, call.2.1.Fits)
    (held : (s.appends calls).nodes[target]? = some node) (fits : request.Fits)
    (bearing : ¬ request.Bare) (unopposed : Unopposed (s.appends calls) target node request)
    (ran : appendEntriesWithMembershipChangeIndexesTo target request changes (s.appends calls)
      = (.ok response, s')) (success : response.success = true) :
    Truthful (s.appends calls) target node request response.matchIndex s' :=
  truthful_of_acknowledged (gapFree.appends calls fit) held fits bearing unopposed ran success

theorem new_gapFree {groupId : Nat} {config : Config} {peers : List Peer}
    (created : new groupId config peers = .ok s) : GapFree s where
  nodes := new_members created fun peer => ⟨1, nil _ _, le_rfl, le_rfl, .inl le_rfl⟩
  cached := by
    obtain ⟨nodes, -, rfl, -⟩ := new_eq created
    exact .of_empty rfl
  queued := by
    obtain ⟨nodes, -, rfl, -⟩ := new_eq created
    exact CachedFor.of_empty rfl

def secondEntryAppend : AppendEntriesRequest := ⟨1, 2, 1, some ⟨2, 1⟩, [⟨⟨2, 2⟩, [3], true⟩], 1, 0⟩

theorem acknowledgment_truthful_second : ∃ fresh, new 1 Config.default threeVoters = .ok fresh ∧
    ∃ node, (fresh.appends [(3, oneEntryAppend, [])]).nodes[3]? = some node ∧
    ∃ response s', appendEntriesWithMembershipChangeIndexesTo 3 secondEntryAppend []
      (fresh.appends [(3, oneEntryAppend, [])]) = (.ok response, s') ∧ response.matchIndex = 2 ∧
    Truthful (fresh.appends [(3, oneEntryAppend, [])]) 3 node secondEntryAppend 2 s' := by
  have second : ∀ fresh, new 1 Config.default threeVoters = .ok fresh → ∀ response s',
      appendEntriesWithMembershipChangeIndexesTo 3 secondEntryAppend []
        (fresh.appends [(3, oneEntryAppend, [])]) = (.ok response, s') →
      response.success = true → response.matchIndex = 2 →
      ((fresh.appends [(3, oneEntryAppend, [])]).nodes[3]?).isSome = true →
      (fresh.appends [(3, oneEntryAppend, [])]).reorderQueues = ∅ →
      ∃ node, (fresh.appends [(3, oneEntryAppend, [])]).nodes[3]? = some node ∧
        Truthful (fresh.appends [(3, oneEntryAppend, [])]) 3 node secondEntryAppend 2 s' := by
    intro fresh created response s' ran success reached present empty
    obtain ⟨node, held⟩ := isSome_iff_exists.mp present
    refine ⟨node, held, reached ▸ acknowledgment_truthful (new_gapFree created) _ (by decide) held
      (by decide) (fun bare => absurd bare.2 (by decide)) (CachedFor.of_empty empty) ran success⟩
  obtain ⟨node, held, truthful⟩ := second _ rfl _ _ rfl (by decide +kernel) (by decide +kernel)
    (by decide +kernel) (by rfl)
  exact ⟨_, rfl, node, held, _, _, rfl, by decide +kernel, truthful⟩

def committedPair : AppendEntriesRequest :=
  ⟨1, 1, 1, none, [⟨⟨1, 1⟩, [], true⟩, ⟨⟨1, 2⟩, [], true⟩], 2, 0⟩

def strangePrevious : AppendEntriesRequest := ⟨1, 1, 1, some ⟨99, 1⟩, [], 2, 0⟩

/-- The request is acknowledged up to the commit point without a comparison. -/
theorem below_commit_not_compared : ∃ fresh, new 1 Config.default threeVoters = .ok fresh ∧
    ∃ response s', appendEntriesWithMembershipChangeIndexesTo 2 strangePrevious []
      (fresh.appends [(2, committedPair, [])]) = (.ok response, s') ∧ response.success = true ∧
      response.matchIndex = 2 ∧
    ∀ node', s'.nodes[2]? = some node' → ¬ node'.AgreesThrough 2 strangePrevious := by
  have differs : ∀ s' : RaftCluster, (s'.nodes[2]?).map (fun node => node.logTermAt 1) = some (some 1) →
      ∀ node', s'.nodes[2]? = some node' → ¬ node'.AgreesThrough 2 strangePrevious := by
    intro s' known node' held agrees
    rw [held, map_some, Option.some.injEq] at known
    have other := agrees.1 ⟨99, 1⟩ rfl (by decide) (by decide)
    rw [known] at other
    cases other
  exact ⟨_, rfl, _, _, rfl, by decide +kernel, by decide +kernel, differs _ (by decide +kernel)⟩

end RaftCluster

/-! ## No gaps -/

theorem Node.Ordered.entryAt_eq_find? {node : Node} (ordered : node.Ordered) (index : Nat) :
    node.entryAt index = node.log.find? fun entry => entry.index = index := by
  have held {entry : LogEntry} := @entryAt_eq_some_iff node ordered entry index
  rcases found : node.log.find? fun entry => entry.index = index with _ | entry
  · rcases search : node.entryAt index with _ | entry <;> grind
  · grind

/-- The log is numbered without a gap from an index next to the commit point or below, and slot
arithmetic and halving search find in it what a scan finds. -/
structure Node.Gapless (node : Node) : Prop where
  numbered : ∃ first ≤ node.commitIndex + 1, ∀ i entry, node.log[i]? = some entry →
    entry.index = first + i
  lookup : ∀ index, node.entryAt index = node.log.find? fun entry => entry.index = index

namespace RaftCluster

/-- **Appends leave no gap**, whoever sends them and in whatever order, cached or not. -/
theorem appends_leave_no_gap {groupId : Nat} {config : Config} {peers : List Peer}
    {fresh : RaftCluster} (created : new groupId config peers = .ok fresh)
    (calls : List (Nat × AppendEntriesRequest × List Nat)) (fit : ∀ call ∈ calls, call.2.1.Fits)
    (nodeId : Nat) (node : Node) (held : (fresh.appends calls).nodes[nodeId]? = some node) :
    node.Gapless := by
  obtain ⟨first, unbroken⟩ := ((new_gapFree created).appends calls fit).nodes nodeId node held
  exact ⟨⟨first, unbroken.low, unbroken.numbered⟩, unbroken.numbered.ordered.entryAt_eq_find?⟩

/-- The second entry comes first. -/
theorem appends_leave_no_gap_late : ∃ fresh, new 1 Config.default threeVoters = .ok fresh ∧
    ∀ (nodeId : Nat) (node : Node), (fresh.appends [(3, secondEntryAppend, []),
      (3, oneEntryAppend, [])]).nodes[nodeId]? = some node → node.Gapless :=
  ⟨_, rfl, appends_leave_no_gap (show new 1 Config.default threeVoters = _ from rfl) _ (by decide)⟩

end RaftCluster
end MatrixRaft
