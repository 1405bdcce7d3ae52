/-
# RefusedAppend — what a refused append leaves behind

A membership change that meets another one still pending refuses the whole request.  By
then a conflicting tail has already been cut off.  The cut stays, while the bookkeeping
that goes with it (`reset_pending_membership_change_after_truncation`) is on the accepting
path only, so the pending change may be one that was just cut away.
-/
import MatrixRaft.AppendAcks

namespace MatrixRaft
open Theory Theory.Search Option AppendProgress
variable (s : RaftCluster)

namespace Node
variable {node : Node}

def firstUnheld (node : Node) (entries : List LogEntry) : Option LogEntry :=
  entries.find? fun entry => node.logTermAt entry.index ≠ some entry.term

def cutBefore (node : Node) (entry : LogEntry) : Node :=
  if (node.logTermAt entry.index).isSome then node.truncateLogFrom entry.index else node

/-- Making way for `entry` takes something off the log. -/
def Cuts (node : Node) (entry : LogEntry) : Prop :=
  (node.logTermAt entry.index).isSome = true ∧ node.commitIndex < entry.index ∧
    entry.index ≤ node.lastLogIndex

instance (node : Node) (entry : LogEntry) : Decidable (node.Cuts entry) :=
  inferInstanceAs (Decidable (_ ∧ _))

theorem truncateLogFrom_log_eq_iff (node : Node) (index : Nat) :
    (node.truncateLogFrom index).log = node.log ↔
      ¬ (node.commitIndex < index ∧ index ≤ node.lastLogIndex) := by
  unfold truncateLogFrom
  split
  · grind
  unfold logPositionAtOrAfter
  rcases ends : node.log.getLast? with _ | last
  · have past : ¬ index ≤ node.lastLogIndex := by
      rw [lastLogIndex, ends]
      grind
    simp [past]
  · have atEnd : node.lastLogIndex = last.index := by simp [lastLogIndex, ends]
    by_cases past : last.index < index
    · grind
    -- the last entry goes, so the log gets shorter
    have inside : partitionPoint (fun entry => decide (entry.index < index)) node.log
        < node.log.length :=
      partitionPoint_lt_length ends (by simpa using past)
    simp only [all_some, decide_eq_true_eq, past, if_false, truncateLogAt, not_and]
    constructor
    · grind
    · omega

theorem cutBefore_log_eq_iff (node : Node) (entry : LogEntry) :
    (node.cutBefore entry).log = node.log ↔ ¬ node.Cuts entry := by
  unfold cutBefore Cuts
  split
  · grind [truncateLogFrom_log_eq_iff]
  · grind

theorem cutBefore_same (node : Node) (entry : LogEntry) : SameButLog node (node.cutBefore entry) := by
  unfold cutBefore
  split
  · exact truncateLogFrom_same _ _
  · exact .refl node

section
variable {before after : Node} (quiet : Quiet before after)
include quiet

theorem Quiet.firstUnheld (entries : List LogEntry) :
    after.firstUnheld entries = before.firstUnheld entries := by
  unfold Node.firstUnheld
  simp only [quiet.logTermAt]

theorem Quiet.cuts_iff (entry : LogEntry) : after.Cuts entry ↔ before.Cuts entry := by
  unfold Cuts
  rw [quiet.logTermAt, quiet.commitIndex, quiet.lastLogIndex]

theorem Quiet.admission (installing : Bool) (request : AppendEntriesRequest) :
    after.admission installing request = before.admission installing request := by
  have faults : ∀ prev, after.prevFault prev = before.prevFault prev := by
    intro prev
    unfold prevFault
    rw [quiet.matchIndex, quiet.logTermAt]
  unfold Node.admission
  rw [quiet.commitIndex, funext faults]

end

end Node

namespace AppendProgress
open Node
variable {context : AppendContext} {progress : AppendProgress}

def Fenced (context : AppendContext) (progress : AppendProgress) (entry : LogEntry) : Prop :=
  entry.index ∈ context.membershipChangeIndexes ∧
    ∃ pending ∈ progress.pendingMembershipChangeIndex, context.safetyAppliedIndex < pending

theorem appendData_continues (context : AppendContext) (entry : LogEntry) (progress : AppendProgress) :
    (∀ refused index, appendData context entry progress ≠ .refuse refused index) ∧
      (appendData context entry progress).progress.appendedEntriesCount ≠ 0 := by
  have counted : satAdd progress.appendedEntriesCount 1 ≠ 0 := by
    unfold satAdd u64Max
    omega
  unfold appendData
  (repeat' split) <;> exact ⟨fun _ _ => nofun, counted⟩

theorem admitData_refuse_iff (context : AppendContext) (entry : LogEntry) (progress : AppendProgress) :
    (progress.appendedEntriesCount = 0 ∧ Fenced context progress entry ∧
      admitData context entry progress = .refuse progress entry.index) ∨
    (¬ (progress.appendedEntriesCount = 0 ∧ Fenced context progress entry) ∧
      (∀ refused index, admitData context entry progress ≠ .refuse refused index) ∧
      (admitData context entry progress).progress.appendedEntriesCount ≠ 0) := by
  unfold admitData Fenced
  split
  · rename_i marked
    split
    · rename_i waits
      obtain ⟨pending, isPending, open_⟩ := (any_eq_true _ _).mp waits
      have fenced : ∃ pending ∈ progress.pendingMembershipChangeIndex,
          context.safetyAppliedIndex < pending := ⟨pending, isPending, by simpa using open_⟩
      split
      · grind
      · rename_i counted
        exact .inr ⟨fun refuses => counted refuses.1, fun _ _ => nofun, counted⟩
    · rename_i clear
      obtain ⟨continues, counted⟩ :=
        appendData_continues context entry (progress.registerChange entry.index)
      refine .inr ⟨fun refuses => clear ?_, continues, counted⟩
      obtain ⟨pending, isPending, open_⟩ := refuses.2.2
      exact (any_eq_true _ _).mpr ⟨pending, isPending, by simpa using open_⟩
  · obtain ⟨continues, counted⟩ := appendData_continues context entry progress
    grind

theorem takeEntry_of_held (serves : progress.node.replicaRole.canServeData = true) {entry : LogEntry}
    (held : progress.node.logTermAt entry.index = some entry.term) :
    takeEntry context progress entry = .next progress := by
  unfold takeEntry
  grind

theorem takeEntry_of_unheld (context : AppendContext)
    (serves : progress.node.replicaRole.canServeData = true) {entry : LogEntry}
    (unheld : progress.node.logTermAt entry.index ≠ some entry.term) :
    ∃ cut, takeEntry context progress entry = admitData context entry cut ∧
      cut.node = progress.node.cutBefore entry ∧
      cut.pendingMembershipChangeIndex = progress.pendingMembershipChangeIndex ∧
      cut.appendedEntriesCount = progress.appendedEntriesCount ∧
      cut.membershipChangeIndexes = progress.membershipChangeIndexes := by
  unfold takeEntry
  rw [if_pos serves]
  rcases found : progress.node.logTermAt entry.index with _ | localTerm
  · exact ⟨progress, rfl, by simp [cutBefore, found], rfl, rfl, rfl⟩
  dsimp only
  rw [if_neg fun same => unheld (by rw [found, same])]
  exact ⟨progress.truncateFor entry.index, rfl, by simp [cutBefore, found, truncateFor], rfl, rfl, rfl⟩

theorem takeEntries_counted : ∀ (entries : List LogEntry) (progress : AppendProgress),
    progress.appendedEntriesCount ≠ 0 → (takeEntries context entries progress).2 = none
  | [], _, _ => rfl
  | entry :: rest, progress, counted => by
    have witnessed : satAdd progress.appendedEntriesCount 1 ≠ 0 := by
      unfold satAdd u64Max
      omega
    have turn : (∀ refused index, takeEntry context progress entry ≠ .refuse refused index) ∧
        (takeEntry context progress entry).progress.appendedEntriesCount ≠ 0 := by
      by_cases serves : progress.node.replicaRole.canServeData = true
      · by_cases held : progress.node.logTermAt entry.index = some entry.term
        · rw [takeEntry_of_held serves held]
          exact ⟨fun _ _ => nofun, counted⟩
        · obtain ⟨cut, turn, -, -, count, -⟩ := takeEntry_of_unheld context serves held
          rw [turn]
          rcases admitData_refuse_iff context entry cut with ⟨first, -⟩ | ⟨-, goes⟩
          all_goals omega
      · unfold takeEntry
        rw [if_neg serves]
        split
        · exact ⟨fun _ _ => nofun, witnessed⟩
        · exact ⟨fun _ _ => nofun, counted⟩
    unfold takeEntries
    split
    · rename_i taken next
      rw [next] at turn
      exact takeEntries_counted rest taken turn.2
    all_goals grind

/-- **When the loop refuses.** On a data-serving replica, exactly when the first entry not held is
fenced; it leaves the replica cut back before that entry. -/
theorem takeEntries_refusal (serves : progress.node.replicaRole.canServeData = true)
    (uncounted : progress.appendedEntriesCount = 0) : ∀ entries : List LogEntry,
    (∃ entry, progress.node.firstUnheld entries = some entry ∧ Fenced context progress entry ∧
      (takeEntries context entries progress).2 = some entry.index ∧
      (takeEntries context entries progress).1.node = progress.node.cutBefore entry) ∨
    (¬ (∃ entry, progress.node.firstUnheld entries = some entry ∧ Fenced context progress entry) ∧
      (takeEntries context entries progress).2 = none)
  | [] => .inr ⟨by simp [firstUnheld], rfl⟩
  | entry :: rest => by
    by_cases held : progress.node.logTermAt entry.index = some entry.term
    · have skipped : progress.node.firstUnheld (entry :: rest) = progress.node.firstUnheld rest := by
        simp [firstUnheld, held]
      rw [skipped]
      unfold takeEntries
      rw [takeEntry_of_held serves held]
      exact takeEntries_refusal serves uncounted rest
    · have first : progress.node.firstUnheld (entry :: rest) = some entry := by
        simp [firstUnheld, held]
      obtain ⟨cut, turn, node, pending, count, -⟩ := takeEntry_of_unheld context serves held
      have fenced_iff : Fenced context cut entry ↔ Fenced context progress entry := by
        unfold Fenced
        rw [pending]
      unfold takeEntries
      rw [turn, first]
      rcases admitData_refuse_iff context entry cut with ⟨-, fenced, refused⟩ | ⟨clear, continues, counted⟩
      · grind
      right
      refine ⟨?_, ?_⟩
      · grind
      split
      · rename_i taken next
        rw [next] at counted
        exact takeEntries_counted rest taken counted
      all_goals grind

theorem takeEntries_not_serving (idle : progress.node.replicaRole.canServeData = false) :
    ∀ (entries : List LogEntry), (takeEntries context entries progress).2 = none := by
  intro entries
  induction entries generalizing progress with
  | nil => rfl
  | cons entry rest ih =>
    unfold takeEntries takeEntry
    rw [if_neg (by simp [idle])]
    split
    · rename_i taken next
      split at next
      · cases next
        refine ih ?_
        have role := (appendWitnessEntry_same progress.node entry
          (context.membershipChangeIndexes.contains entry.index)).replicaRole
        exact (congrArg ReplicaRole.canServeData role).trans idle
      · cases next
        exact ih idle
    all_goals grind

end AppendProgress

namespace RaftCluster
variable {s s' : RaftCluster} {target : Nat} {node : Node} {request : AppendEntriesRequest}
  {changes : List Nat}

/-! ## The request -/

structure KeepsLog (target : Nat) (s s' : RaftCluster) : Prop where
  target : ∀ node, s.nodes[target]? = some node → ∃ node', s'.nodes[target]? = some node' ∧
    node'.log = node.log ∧ node'.installedSnapshot = node.installedSnapshot ∧
    node'.commitIndex = node.commitIndex
  pending : s'.pendingMembershipChangeIndex = s.pendingMembershipChangeIndex

def RefusedKeepsLog (target : Nat) (request : AppendEntriesRequest) (changes : List Nat) : Prop :=
  ∀ response s', appendEntriesWithMembershipChangeIndexesTo target request changes s
    = (.ok response, s') → response.success = false → KeepsLog target s s'

def TakesUp (node : Node) (target : Nat) (request : AppendEntriesRequest) : Prop :=
  request.groupId = s.groupId ∧ s.knowsLeader request.leaderId = true ∧
    s.currentTerm ≤ request.term ∧ node.hardState.currentTerm ≤ request.term ∧
    node.admission (s.installing target) request = .admitted

instance (node : Node) (target : Nat) (request : AppendEntriesRequest) :
    Decidable (s.TakesUp node target request) :=
  inferInstanceAs (Decidable (_ ∧ _))

def CutsBeforeRefusing (target : Nat) (request : AppendEntriesRequest)
    (changes : List Nat) : Prop :=
  ∃ node ∈ s.nodes[target]?, ∃ entry ∈ node.firstUnheld request.entries,
    ∃ pending ∈ s.pendingMembershipChangeIndex,
      s.TakesUp node target request ∧ node.replicaRole.canServeData = true ∧
      entry.index ∈ changes ∧ node.safetyAppliedIndex < pending ∧ node.Cuts entry

variable {arrived : RaftCluster} {following : Node}

theorem Arrives.keepsLog {leaderId : Nat}
    (held : s.nodes[target]? = some node)
    (arrives : Arrives s arrived target leaderId node following) :
    KeepsLog target s arrived where
  target := fun found heldFound => by
    grind [arrives.held, arrives.quiet.log, arrives.quiet.installedSnapshot, arrives.quiet.commitIndex]
  pending := arrives.pending

theorem KeepsLog.refl (target : Nat) (s : RaftCluster) : KeepsLog target s s :=
  ⟨fun node held => ⟨node, held, rfl, rfl, rfl⟩, rfl⟩

theorem appendEntriesWith_comes (drain : ClusterM Unit) (held : s.nodes[target]? = some node)
    (request : AppendEntriesRequest) (changes : List Nat) : (¬ s.TakesUp node target request ∧
      KeepsLog target s (appendEntriesWith drain target request changes s).2) ∨
    ∃ following arrived lease, Arrives s arrived target request.leaderId node following ∧
      appendEntriesWith drain target request changes s
        = answerAppend drain target following request changes lease arrived ∧
      (s.TakesUp node target request ↔
        node.admission (s.installing target) request = .admitted) := by
  unfold appendEntriesWith
  split
  · rename_i foreign
    exact .inl ⟨fun takes => foreign takes.1, .refl target s⟩
  rename_i group
  split
  · rename_i unknown
    rw [held]
    exact .inl ⟨fun takes => by simp [takes.2.1] at unknown, .refl target s⟩
  · rename_i known
    split
    · rename_i stale
      rw [held]
      exact .inl ⟨fun takes => absurd takes.2.2.1 (not_le.mpr stale), .refl target s⟩
    · rename_i current
      obtain ⟨following, arrives, hardState⟩ := arrives_granted held request
      dsimp only
      generalize (s.observeLeader request.term request.leaderId).grantLease target request = granted
        at arrives ⊢
      unfold deliverAppend
      rw [arrives.held]
      dsimp only
      rw [hardState]
      split
      · rename_i stale
        exact .inl ⟨fun takes => absurd takes.2.2.2.1 (not_le.mpr stale), arrives.keepsLog held⟩
      rename_i follows
      refine .inr ⟨_, _, granted.1, arrives.of_following request.term, rfl,
        fun takes => takes.2.2.2.2, fun admitted => ?_⟩
      exact ⟨not_not.mp group, by simpa using known, not_lt.mp current, not_lt.mp follows,
        admitted⟩

section Admitted
variable {drain : ClusterM Unit} {arrived : RaftCluster} {following : Node} {lease : LeaseGrant}
  {progress : AppendProgress}

theorem takeAdmitted_accepts {response : AppendEntriesResponse}
    (accepts : takeEntries (arrived.appendContext following request changes)
      request.entries (arrived.appendStart following request) = (progress, none))
    (ran : takeAdmitted drain target following request changes lease arrived = (.ok response, s')) :
    response.success = true := by
  unfold takeAdmitted at ran
  dsimp only at ran
  split at ran
  · grind
  rw [Attempt.bind_apply] at ran
  split at ran
  · cases ran
    rfl
  · cases ran

theorem takeAdmitted_refuses (held : arrived.nodes[target]? = some following) {index : Nat}
    (refuses : takeEntries (arrived.appendContext following request changes)
      request.entries (arrived.appendStart following request) = (progress, some index)) :
    ∃ response s', takeAdmitted drain target following request changes lease arrived
        = (.ok response, s') ∧ response.success = false ∧ s'.nodes[target]? = some progress.node ∧
      s'.pendingMembershipChangeIndex = arrived.pendingMembershipChangeIndex := by
  unfold takeAdmitted
  dsimp only
  rw [refuses]
  exact ⟨_, _, rfl, rfl, by simp [modifyNode, held], rfl⟩

theorem answerAppend_admitted
    (admitted : following.admission (arrived.installing target) request = .admitted) :
    answerAppend drain target following request changes lease arrived
      = takeAdmitted drain target following request changes lease arrived := by
  unfold answerAppend
  dsimp only
  rw [show ((arrived.peerPipelines[target]?).any fun pipeline => pipeline.status.snapshotInstalling)
    = arrived.installing target from rfl, admitted]

theorem answerAppend_keepsLog {response : AppendEntriesResponse}
    (rejected : following.admission (arrived.installing target) request ≠ .admitted)
    (ran : answerAppend drain target following request changes lease arrived = (.ok response, s'))
    (refused : response.success = false) : KeepsLog target arrived s' := by
  unfold answerAppend at ran
  dsimp only at ran
  split at ran
  · cases ran
    cases refused
  · cases ran
    cases refused
  · cases ran
    cases refused
  · cases ran
    split
    · exact .refl target _
    unfold cacheReorderedAppend
    split
    · exact .refl target _
    · exact ⟨fun node held => ⟨node, held, rfl, rfl, rfl⟩, rfl⟩
  · cases ran
    exact .refl target _
  · cases ran
    exact .refl target _
  · cases ran
    exact .refl target _
  · rename_i admitted
    exact absurd admitted rejected

end Admitted

theorem KeepsLog.trans {s'' : RaftCluster} (first : KeepsLog target s s')
    (second : KeepsLog target s' s'') : KeepsLog target s s'' where
  target := fun node held => by
    obtain ⟨node', held', log, snapshot, commit⟩ := first.target node held
    obtain ⟨node'', held'', log', snapshot', commit'⟩ := second.target node' held'
    grind
  pending := second.pending.trans first.pending

theorem Arrives.refusal {leaderId : Nat}
    (arrives : Arrives s arrived target leaderId node following) (request : AppendEntriesRequest)
    (changes : List Nat) {progress : AppendProgress} {refused : Option Nat}
    (ran : takeEntries (arrived.appendContext following request changes)
      request.entries (arrived.appendStart following request) = (progress, refused)) :
    (∃ entry, node.firstUnheld request.entries = some entry ∧
      node.replicaRole.canServeData = true ∧ entry.index ∈ changes ∧
      (∃ pending ∈ s.pendingMembershipChangeIndex, node.safetyAppliedIndex < pending) ∧
      refused = some entry.index ∧
      progress.node = (arrived.appendStart following request).node.cutBefore entry) ∨
    (¬ (∃ entry, node.firstUnheld request.entries = some entry ∧
      node.replicaRole.canServeData = true ∧ entry.index ∈ changes ∧
      ∃ pending ∈ s.pendingMembershipChangeIndex, node.safetyAppliedIndex < pending) ∧
      refused = none) := by
  set start := arrived.appendStart following request with start_eq
  have started : Node.Quiet node start.node :=
    arrives.quiet.trans ⟨rfl, rfl, rfl, rfl, rfl, .inl rfl⟩
  have role : start.node.replicaRole = node.replicaRole := arrives.role
  have fenced_iff : ∀ entry, Fenced (arrived.appendContext following request changes)
      start entry ↔ entry.index ∈ changes ∧
        ∃ pending ∈ s.pendingMembershipChangeIndex, node.safetyAppliedIndex < pending := by
    intro entry
    unfold Fenced appendContext
    rw [start_eq, appendStart, arrives.pending, arrives.safetyApplied]
  by_cases serves : node.replicaRole.canServeData = true
  · have refusal := @AppendProgress.takeEntries_refusal (arrived.appendContext following request changes)
      start (by rw [role]; exact serves) rfl request.entries
    rw [started.firstUnheld] at refusal
    grind
  · grind [takeEntries_not_serving]

theorem appendEntriesWith_absent (drain : ClusterM Unit) (absent : s.nodes[target]? = none)
    (request : AppendEntriesRequest) (changes : List Nat) :
    ∃ error s', appendEntriesWith drain target request changes s = (.error error, s') := by
  unfold appendEntriesWith
  split
  · exact ⟨_, _, rfl⟩
  rw [absent]
  dsimp only
  split
  · exact ⟨_, _, rfl⟩
  split
  · exact ⟨_, _, rfl⟩
  have observed := ((observeLeader_bookkeeping s request.term request.leaderId).nodes target).2
    absent
  rw [← (grantLease_frame (s.observeLeader request.term request.leaderId) target request).1]
    at observed
  unfold deliverAppend
  rw [observed]
  exact ⟨_, _, rfl⟩

theorem Arrives.keepsLog_iff {drain : ClusterM Unit}
    (held : s.nodes[target]? = some node)
    (arrives : Arrives s arrived target request.leaderId node following)
    (takes_iff : s.TakesUp node target request ↔
      node.admission (s.installing target) request = .admitted) (lease : LeaseGrant) :
    (∀ response s', answerAppend drain target following request changes lease arrived
        = (.ok response, s') → response.success = false → KeepsLog target s s') ↔
      ¬ s.CutsBeforeRefusing target request changes := by
  have installing : arrived.installing target = s.installing target := by
    simp [RaftCluster.installing, arrives.pipelines]
  have admission := arrives.quiet.admission (s.installing target) request
  by_cases admitted : node.admission (s.installing target) request = .admitted
  · rw [answerAppend_admitted (by rw [installing, admission, admitted])]
    have started : Node.Quiet node (arrived.appendStart following request).node :=
      arrives.quiet.trans ⟨rfl, rfl, rfl, rfl, rfl, .inl rfl⟩
    rcases loop : takeEntries (arrived.appendContext following request changes)
      request.entries (arrived.appendStart following request) with ⟨progress, refused⟩
    rcases arrives.refusal request changes loop with
      ⟨entry, first, serves, marked, ⟨pending, isPending, waits⟩, rfl, leaves⟩ | ⟨clear, rfl⟩
    · obtain ⟨response, reached, ran, refused, cut, kept⟩ := @takeAdmitted_refuses target request changes
        drain arrived following lease progress arrives.held _ loop
      have cuts_iff : s.CutsBeforeRefusing target request changes ↔ node.Cuts entry := by
        constructor
        · rintro ⟨found, held', entry', first', -, -, -, -, -, -, cuts⟩
          grind
        · exact fun cuts => ⟨node, held, entry, first, pending, isPending, takes_iff.mpr admitted,
            serves, marked, waits, cuts⟩
      rw [cuts_iff, ← started.cuts_iff, ← Node.cutBefore_log_eq_iff, started.log]
      constructor
      · intro keeps
        obtain ⟨node', held', log, -⟩ := (keeps response reached ran refused).target node held
        grind
      · intro log response' reached' ran'
        rw [ran] at ran'
        cases ran'
        have same := Node.cutBefore_same (arrived.appendStart following request).node entry
        refine fun _ => ⟨fun found heldFound => ?_, kept.trans arrives.pending⟩
        grind [same.installedSnapshot, started.installedSnapshot, same.commitIndex,
          started.commitIndex]
    · refine ⟨fun _ => ?_, fun _ response' reached' ran' refused => ?_⟩
      · rintro ⟨found, held', entry, first, pending, isPending, -, serves, marked, waits, -⟩
        rw [held] at held'
        cases held'
        exact clear ⟨entry, first, serves, marked, pending, isPending, waits⟩
      · rw [takeAdmitted_accepts loop ran'] at refused
        cases refused
  · have apart : ¬ s.CutsBeforeRefusing target request changes := by
      rintro ⟨found, held', entry, -, pending, -, takes, -⟩
      grind
    refine ⟨fun _ => apart, fun _ response' reached' ran' refused => ?_⟩
    exact (arrives.keepsLog held).trans (answerAppend_keepsLog
      (by rw [installing, admission]; exact admitted) ran' refused)

/-- **A refused append keeps the log, unless it cuts before it refuses.** -/
theorem refused_keeps_log_iff (s : RaftCluster) (target : Nat) (request : AppendEntriesRequest)
    (changes : List Nat) :
    s.RefusedKeepsLog target request changes ↔ ¬ s.CutsBeforeRefusing target request changes := by
  unfold RefusedKeepsLog appendEntriesWithMembershipChangeIndexesTo
  rcases held : s.nodes[target]? with _ | node
  · obtain ⟨error, reached, failed⟩ := appendEntriesWith_absent
      (drainReorderedAppends (s.cachedAppends target) target) held request changes
    have apart : ¬ s.CutsBeforeRefusing target request changes := by
      rintro ⟨node, held', -⟩
      rw [held] at held'
      cases held'
    refine ⟨fun _ => apart, fun _ response s' ran => ?_⟩
    rw [failed] at ran
    cases ran
  · rcases appendEntriesWith_comes (drainReorderedAppends (s.cachedAppends target) target) held request
      changes with ⟨turned, kept⟩ | ⟨following, arrived, lease, arrives, ran, takes_iff⟩
    · have apart : ¬ s.CutsBeforeRefusing target request changes := by
        rintro ⟨found, held', entry, -, pending, -, takes, -⟩
        rw [held] at held'
        cases held'
        exact turned takes
      refine ⟨fun _ => apart, fun _ response s' ran refused => ?_⟩
      rw [ran] at kept
      exact kept
    · rw [ran]
      exact arrives.keepsLog_iff held takes_iff lease

section Runs

def firstChange : AppendEntriesRequest := ⟨1, 1, 1, none, [⟨⟨1, 1⟩, [1], true⟩], 0, 0⟩

/-- Another one in its place, from the leader of term 2. -/
def otherChange : AppendEntriesRequest := ⟨1, 2, 2, none, [⟨⟨2, 1⟩, [2], true⟩], 0, 0⟩

/-- Voter 3 holds the change of term 1.  The change of term 2 cuts it off and is refused because of
it, for good. -/
theorem cut_then_refused : ∃ fresh, new 1 Config.default threeVoters = .ok fresh ∧
    ∃ s, (appendEntriesWithMembershipChangeIndexesTo 3 firstChange [1] fresh).2 = s ∧
    ¬ s.RefusedKeepsLog 3 otherChange [1] := by
  have cut : ∀ s response s', appendEntriesWithMembershipChangeIndexesTo 3 otherChange [1] s
      = (.ok response, s') → response.success = false →
      (s.nodes[3]?).map Node.log = some firstChange.entries →
      (s'.nodes[3]?).map Node.log = some [] → ¬ s.RefusedKeepsLog 3 otherChange [1] := by
    intro s response s' ran refused before after keeps
    obtain ⟨node, held, log⟩ := map_eq_some_iff.mp before
    obtain ⟨node', held', same, -⟩ := (keeps response s' ran refused).target node held
    rw [held', map_some, same, log] at after
    cases after
  exact ⟨_, rfl, _, rfl, cut _ _ _ rfl (by decide +kernel) (by decide +kernel) (by decide +kernel)⟩

end Runs
end RaftCluster
end MatrixRaft
