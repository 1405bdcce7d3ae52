/-
# FollowerCommit — what an honest leader's requests commit

A follower may commit an index only where its log holds the leader's entry.  What a request
names or carries is compared with the log or replaces it.  A bare heartbeat is not compared
with anything, so it can commit an entry the leader never had.
-/
import MatrixRaft.AppendRule

namespace MatrixRaft
open Theory List Option Std.TreeMap AppendProgress

structure LeaderLog where
  entries : List LogEntry
  committed : Nat
  numbered : Numbered LogEntry.index 1 entries
  bounded : entries.length ≤ u64Max
  covered : committed ≤ entries.length

namespace AppendEntriesRequest

structure BuiltFrom (leader : LeaderLog) (request : AppendEntriesRequest) : Prop where
  prev : ∀ position, request.prevLogId = some position →
    position.index = 0 ∨ ∃ entry ∈ leader.entries, entry.logId = position
  entries : ∃ count, request.entries = (leader.entries.drop request.prevIndex).take count
  commit : request.leaderCommit ≤ leader.committed

/-- Neither a previous position nor an entry: what `broadcast_heartbeat` sends. -/
def Bare (request : AppendEntriesRequest) : Prop :=
  request.prevLogId = none ∧ request.entries = []

namespace BuiltFrom
variable {leader : LeaderLog} {request : AppendEntriesRequest}

theorem entries_mem (built : request.BuiltFrom leader) :
    ∀ entry ∈ request.entries, entry ∈ leader.entries := by grind [built.entries]

theorem numbered (built : request.BuiltFrom leader) :
    Numbered LogEntry.index (request.prevIndex + 1) request.entries := by
  obtain ⟨count, eq⟩ := built.entries
  rw [eq, add_comm]
  exact (leader.numbered.drop request.prevIndex).take count

end BuiltFrom
end AppendEntriesRequest

namespace Node
variable {node before middle after : Node} {leader : LeaderLog}

/-! ## Replicas that match a leader's log -/

/-- The retained log has no gap and adjoins the commit point. -/
structure ContiguousFrom (node : Node) (a : Nat) : Prop where
  numbered : node.NumberedFrom a
  low : a ≤ node.commitIndex + 1
  high : node.commitIndex + 1 ≤ a + node.log.length
  snapshot : node.snapshotIndex ≤ node.commitIndex

def Matches (entries : List LogEntry) (node : Node) : Prop :=
  ∀ held ∈ node.log, ∀ sent ∈ entries, sent.logId = held.logId →
    ∀ earlier ∈ node.log, node.commitIndex < earlier.index → earlier.index ≤ held.index →
      earlier ∈ entries

structure Follows (leader : LeaderLog) (node : Node) : Prop where
  serves : node.replicaRole.canServeData = true
  contiguous : ∃ a, node.ContiguousFrom a
  agrees : node.Matches leader.entries

def CommitsFrom (leader : LeaderLog) (before after : Node) : Prop :=
  ∀ index, before.commitIndex < index → index ≤ after.commitIndex →
    ∃ entry ∈ leader.entries, entry.index = index ∧ after.entryAt index = some entry

def Accepts (leader : LeaderLog) (before after : Node) : Prop :=
  before.Follows leader → after.Follows leader ∧ Intact before after ∧
    CommitsFrom leader before after

theorem Accepts.trans (first : Accepts leader before middle)
    (second : Accepts leader middle after) : Accepts leader before after := by
  intro follows
  obtain ⟨follows', kept, commits⟩ := first follows
  obtain ⟨follows'', kept', commits'⟩ := second follows'
  refine ⟨follows'', kept.trans kept', fun index fresh reached => ?_⟩
  rcases lt_or_ge middle.commitIndex index with later | earlier
  · exact commits' index later reached
  · obtain ⟨entry, member, hit, found⟩ := commits index fresh earlier
    grind [kept'.entries]

theorem Accepts.of_quiet (quiet : Quiet before after) : Accepts leader before after := by
  intro follows
  obtain ⟨a, contiguous⟩ := follows.contiguous
  refine ⟨⟨?_, ⟨a, ⟨?_, ?_, ?_, ?_⟩⟩, ?_⟩, .of_quiet quiet, fun index fresh reached => ?_⟩
  · rw [quiet.canServeData]
    exact follows.serves
  · rw [NumberedFrom, quiet.log]
    exact contiguous.numbered
  · rw [quiet.commitIndex]
    exact contiguous.low
  · rw [quiet.commitIndex, quiet.log]
    exact contiguous.high
  · rw [quiet.snapshotIndex, quiet.commitIndex]
    exact contiguous.snapshot
  · grind [quiet.log, quiet.commitIndex, Matches, follows.agrees]
  · rw [quiet.commitIndex] at reached
    omega

theorem Follows.data (follows : node.Follows leader) : node.replicaRole ≠ .witness := by
  grind [follows.serves, ReplicaRole.canServeData]

end Node

/-! ## The loop over an honest request's entries -/

namespace AppendProgress
open Node
variable {context : AppendContext} {progress : AppendProgress} {entry : LogEntry} {a : Nat}

inductive DataTurn (progress : AppendProgress) (entry : LogEntry) : AppendStep → Prop
  | held (found : LogEntry) (member : found ∈ progress.node.log)
      (same : entry.logId = found.logId) : DataTurn progress entry (.next progress)
  /-- What stood at the entry's place is gone, and the entry was not taken. -/
  | refused (cut : AppendProgress) (log : cut.node.log = below entry.index progress.node.log)
      (index : Nat) : DataTurn progress entry (.refuse cut index)
  | stopped (cut : AppendProgress) (log : cut.node.log = below entry.index progress.node.log)
      (counted : cut.appendedEntriesCount ≠ 0) : DataTurn progress entry (.stop cut)
  | appended (taken : AppendProgress)
      (log : taken.node.log = below entry.index progress.node.log ++ [entry])
      (counted : taken.appendedEntriesCount ≠ 0) (step : AppendStep)
      (goes : step = .next taken ∨ step = .stop taken) : DataTurn progress entry step

section
variable (cut : AppendProgress) (log : cut.node.log = below entry.index progress.node.log)
include cut log

theorem appendData_turn : DataTurn progress entry (appendData context entry cut) := by
  have past : cut.node.log = [] ∨ cut.node.lastLogIndex < entry.index := by
    by_cases empty : cut.node.log = []
    · exact .inl empty
    right
    rw [lastLogIndex_of_ne_nil empty]
    have last := getLast_mem empty
    grind [mem_below]
  have shape := appendEntry_log_of_past past
  rw [log] at shape
  refine .appended (cut.appended fun node => node.appendEntry entry) shape ?_ _ ?_
  · simp [appended, satAdd, u64Max]
  · simp [appendData]

theorem admitData_turn : DataTurn progress entry (admitData context entry cut) := by
  unfold admitData
  split
  · split
    · split
      · exact .refused cut log _
      · rename_i counted
        exact .stopped cut log counted
    · exact appendData_turn (cut.registerChange entry.index) log
  · exact appendData_turn cut log

end

theorem takeEntry_turn (serves : progress.node.replicaRole.canServeData = true)
    (ready : Ready a entry.index progress.node) :
    DataTurn progress entry (takeEntry context progress entry) := by
  obtain ⟨numbered, low, -, covered, fresh⟩ := ready
  unfold takeEntry
  rw [if_pos serves]
  split
  · rename_i localTerm known
    obtain ⟨found, member, index, term⟩ := numbered.ordered.held_of_logTermAt covered fresh known
    split
    · rename_i same
      refine .held found member ?_
      rcases entry with ⟨⟨_, _⟩, _, _⟩
      rcases found with ⟨⟨_, _⟩, _, _⟩
      grind
    · exact admitData_turn (progress.truncateFor entry.index)
        (numbered.ordered.truncateLogFrom_log fresh)
  · refine admitData_turn progress (below_eq_self fun found member => ?_).symm
    -- an index the log does not know lies past its end
    by_contra inside
    have bound := (Numbered.bounds numbered member).2
    obtain ⟨held, heldMember, index⟩ :=
      Numbered.exists_mem numbered low (by omega : entry.index < a + progress.node.log.length)
    grind [logTermAt_isSome_of_held, numbered.ordered]

/-- Above the commit point and below `index`, the log holds the leader's entries. -/
def Verified (entries : List LogEntry) (node : Node) (index : Nat) : Prop :=
  ∀ held ∈ node.log, node.commitIndex < held.index → held.index < index → held ∈ entries

structure Checked (entries : List LogEntry) (progress : AppendProgress) (index : Nat) : Prop where
  verified : Verified entries progress.node index
  agrees : progress.node.Matches entries
  last : progress.appendedEntriesCount ≠ 0 → ∀ held ∈ progress.node.log, held.index < index

theorem Checked.of_below {entries : List LogEntry} {progress : AppendProgress} {index : Nat}
    (verified : Verified entries progress.node index)
    (last : ∀ held ∈ progress.node.log, held.index < index) : Checked entries progress index :=
  ⟨verified, fun _ _ _ _ _ earlier member fresh _ => verified earlier member fresh (last earlier member),
    fun _ => last⟩

theorem Checked.turn {entries : List LogEntry} {step : AppendStep}
    (checked : Checked entries progress entry.index) (sent : entry ∈ entries)
    (turn : DataTurn progress entry step)
    (commit : step.progress.node.commitIndex = progress.node.commitIndex) :
    (∀ cut index, step = .refuse cut index → cut.node.Matches entries) ∧
    (∀ taken, step = .stop taken →
      taken.appendedEntriesCount ≠ 0 ∧ ∃ index, Checked entries taken index) ∧
    ∀ taken, step = .next taken → Checked entries taken (entry.index + 1) := by
  -- below the entry, a cut log is the old one
  have cutVerified : ∀ cut : AppendProgress, cut.node.commitIndex = progress.node.commitIndex →
      cut.node.log = below entry.index progress.node.log → Verified entries cut.node entry.index := by
    intro cut same log held member fresh early
    rw [log] at member
    rw [same] at fresh
    exact checked.verified held (mem_below.mp member).1 fresh early
  have cutBelow : ∀ cut : AppendProgress, cut.node.log = below entry.index progress.node.log →
      ∀ held ∈ cut.node.log, held.index < entry.index := by grind [mem_below]
  cases turn with
  | held found member same =>
    refine ⟨fun _ _ refuse => (nomatch refuse), fun _ stop => (nomatch stop), ?_⟩
    rintro _ ⟨⟩
    have atIndex : found.index = entry.index := (congrArg LogId.index same).symm
    refine ⟨fun held heldMember fresh early => ?_, checked.agrees, fun counted => ?_⟩
    · exact checked.agrees found member entry sent same held heldMember fresh (by omega)
    · grind [checked.last]
  | refused cut log =>
    refine ⟨?_, fun _ stop => (nomatch stop), fun _ next => (nomatch next)⟩
    rintro _ _ ⟨⟩
    exact (Checked.of_below (cutVerified cut commit log) (cutBelow cut log)).agrees
  | stopped cut log counted =>
    refine ⟨fun _ _ refuse => (nomatch refuse), ?_, fun _ next => (nomatch next)⟩
    rintro _ ⟨⟩
    exact ⟨counted, entry.index, .of_below (cutVerified cut commit log) (cutBelow cut log)⟩
  | appended taken log counted _ goes =>
    have reached : step.progress = taken := by
      rcases goes with rfl | rfl <;> rfl
    rw [reached] at commit
    have checked' : Checked entries taken (entry.index + 1) := by
      have parts : ∀ held ∈ taken.node.log,
          held = entry ∨ (held ∈ progress.node.log ∧ held.index < entry.index) := by
        grind [mem_below]
      refine .of_below (fun held member fresh _ => ?_) fun held member => ?_
      · rcases parts held member with rfl | ⟨old, early⟩
        · exact sent
        · exact checked.verified held old (commit ▸ fresh) early
      · grind
    grind

/-- **The loop.** After an honest request's entries the log matches; unless it was stopped, everything
up to the request's end is verified. -/
theorem takeEntries_checked {sent : List LogEntry} (entries : List LogEntry)
    (progress : AppendProgress) (start : Nat) (honest : ∀ entry ∈ entries, entry ∈ sent)
    (placed : Numbered LogEntry.index start entries)
    (serves : progress.node.replicaRole.canServeData = true) (ready : Ready a start progress.node)
    (checked : Checked sent progress start) :
    (takeEntries context entries progress).1.node.Matches sent ∧
    ((takeEntries context entries progress).2 = none →
      (takeEntries context entries progress).1.appendedEntriesCount ≠ 0 ∧
        (∃ index, Checked sent (takeEntries context entries progress).1 index) ∨
      Checked sent (takeEntries context entries progress).1 (start + entries.length)) := by
  have ended := @takeEntries_rule context a
    (fun index reached => reached.node.replicaRole.canServeData = true ∧ Checked sent reached index)
    (fun reached refused => reached.node.Matches sent ∧ (refused = none →
      reached.appendedEntriesCount ≠ 0 ∧ ∃ index, Checked sent reached index))
    entries progress start placed ready ⟨serves, checked⟩ (by
      intro entry member before ready kept
      have same := takeEntry_same context before entry
      obtain ⟨refuses, stops, nexts⟩ := kept.2.turn (honest entry member) (@takeEntry_turn context
        before entry a kept.1 ready) same.commitIndex
      refine ⟨fun taken next => ⟨?_, nexts taken next⟩, fun taken stop => ?_,
        fun taken index refuse => ⟨refuses taken index refuse, fun none => by cases none⟩⟩
      · rw [next] at same
        exact same.replicaRole ▸ kept.1
      · obtain ⟨counted, last, checked'⟩ := stops taken stop
        exact ⟨checked'.agrees, fun _ => ⟨counted, last, checked'⟩⟩)
  rcases ended with ⟨agrees, ends⟩ | ⟨-, -, checked'⟩
  · exact ⟨agrees, fun finished => .inl (ends finished)⟩
  · exact ⟨checked'.agrees, fun _ => .inr checked'⟩

end AppendProgress

/-! ## One request -/

namespace Node
variable {node : Node} {leader : LeaderLog} {request : AppendEntriesRequest} {installing : Bool}

theorem bare_of_heartbeat (admission : node.admission installing request = .heartbeat) :
    request.Bare := by
  have admits := node.admission_admits installing request
  rw [admission] at admits
  cases admits with
  | heartbeat bare => exact bare

theorem advanceCommit_zero_quiet (node : Node) : Quiet node (node.advanceCommit 0) := by
  refine ⟨?_, ?_, ?_, ?_, ?_, .inl ?_⟩ <;> simp

theorem Follows.admitted (follows : node.Follows leader) (built : request.BuiltFrom leader)
    (admitted : node.admission installing request = .admitted) {a : Nat}
    (contiguous : node.ContiguousFrom a) :
    node.commitIndex ≤ request.prevIndex ∧ a ≤ request.prevIndex + 1 ∧
      request.prevIndex + 1 ≤ a + node.log.length ∧
      Verified leader.entries node (request.prevIndex + 1) := by
  obtain ⟨above, -, prev⟩ := admission_admitted admitted
  have low := contiguous.low
  have high := contiguous.high
  -- a previous position at the commit point leaves nothing to verify
  have atCommit : request.prevIndex = node.commitIndex →
      a ≤ request.prevIndex + 1 ∧ request.prevIndex + 1 ≤ a + node.log.length ∧
        Verified leader.entries node (request.prevIndex + 1) := by
    intro same
    refine ⟨by omega, by omega, fun held _ fresh early => ?_⟩
    omega
  refine ⟨above, ?_⟩
  rcases prev with zero | ⟨term, given, -, known⟩
  · exact atCommit (by omega)
  rcases contiguous.numbered.ordered.logTermAt_eq_some known with ⟨zero, -⟩ | snapshot | held
  · exact atCommit (by omega)
  · obtain ⟨snapshot, installed, position⟩ := snapshot
    have index : node.snapshotIndex = request.prevIndex := by
      simp [snapshotIndex, installed, position]
    grind [contiguous.snapshot]
  · obtain ⟨held, member, index, sameTerm⟩ := held
    obtain ⟨lowHeld, highHeld⟩ := Numbered.bounds contiguous.numbered member
    refine ⟨by omega, by omega, fun earlier earlierMember fresh early => ?_⟩
    rcases built.prev _ given with zero | ⟨sent, sentMember, sentId⟩
    · grind
    refine follows.agrees held member sent sentMember ?_ earlier earlierMember fresh (by omega)
    rcases held with ⟨⟨_, _⟩, _, _⟩
    grind

theorem Follows.takeEntries (follows : node.Follows leader) (built : request.BuiltFrom leader)
    (admitted : node.admission installing request = .admitted) (context : AppendContext)
    {progress : AppendProgress} (quiet : Quiet node progress.node)
    (fresh : progress.appendedEntriesCount = 0) {taken : AppendProgress} {refused : Option Nat}
    (ran : takeEntries context request.entries progress = (taken, refused)) :
    taken.node.Follows leader ∧ Intact node taken.node ∧ taken.node.commitIndex = node.commitIndex ∧
      (refused = none → ∀ held ∈ taken.node.log, taken.node.commitIndex < held.index →
        held.index ≤ RaftCluster.appendMatchIndex request taken → held ∈ leader.entries) := by
  obtain ⟨a, contiguous⟩ := follows.contiguous
  obtain ⟨above, low, high, verified⟩ := follows.admitted built admitted contiguous
  have ready : AppendProgress.Ready a (request.prevIndex + 1) progress.node :=
    AppendProgress.Ready.of_eq ⟨contiguous.numbered, low, high, contiguous.snapshot, by omega⟩
      quiet.log quiet.snapshotIndex quiet.commitIndex
  have numbered := ready.numbered
  have covered := ready.covered
  have later := ready.fresh
  have serves : progress.node.replicaRole.canServeData = true := by
    rw [quiet.canServeData]
    exact follows.serves
  have checked : Checked leader.entries progress (request.prevIndex + 1) := by
    refine ⟨?_, ?_, fun counted => absurd fresh counted⟩
    · unfold Verified at verified ⊢
      rw [quiet.log, quiet.commitIndex]
      exact verified
    · grind [quiet.log, quiet.commitIndex, Matches, follows.agrees]
  have spliced := @AppendProgress.takeEntries_splices context a request.entries progress _
    built.numbered ready
  have matched := @AppendProgress.takeEntries_checked context a leader.entries request.entries
    progress _ built.entries_mem built.numbered serves ready checked
  rw [ran] at spliced matched
  replace spliced : Splices a (request.prevIndex + 1) progress.node taken.node := spliced
  obtain ⟨agrees, ends⟩ := matched
  have commit : taken.node.commitIndex = node.commitIndex :=
    spliced.same.commitIndex.trans quiet.commitIndex
  have reaches := spliced.reaches
  refine ⟨⟨?_, ⟨a, spliced.numbered, ?_, ?_, ?_⟩, agrees⟩, ?_, commit, fun finished held member
    uncommitted bound => ?_⟩
  · rw [spliced.same.replicaRole]
    exact serves
  · rw [commit]
    exact contiguous.low
  · omega
  · rw [spliced.same.snapshotIndex, spliced.same.commitIndex]
    exact covered
  · refine (Intact.of_quiet quiet).trans (numbered.ordered.intact spliced.numbered.ordered
      spliced.same.commitIndex.ge fun entry member committed => ?_)
    exact spliced.mem_of_lt numbered member (by omega)
  · rcases ends finished with ⟨counted, index, checked'⟩ | checked'
    · exact checked'.verified held member uncommitted (checked'.last counted held member)
    · refine checked'.verified held member uncommitted ?_
      by_cases counted : taken.appendedEntriesCount = 0
      · rw [RaftCluster.appendMatchIndex, if_pos counted] at bound
        have := satAdd_le request.prevIndex request.entries.length
        omega
      · exact checked'.last counted held member

theorem Follows.advanceCommit (follows : node.Follows leader) (commitIndex : Nat)
    (leads : ∀ held ∈ node.log, node.commitIndex < held.index → held.index ≤ commitIndex →
      held ∈ leader.entries) : (node.advanceCommit commitIndex).Follows leader ∧
      Intact node (node.advanceCommit commitIndex) ∧
      CommitsFrom leader node (node.advanceCommit commitIndex) := by
  obtain ⟨a, contiguous⟩ := follows.contiguous
  have low := contiguous.low
  have high := contiguous.high
  have covered := contiguous.snapshot
  have ordered : (node.advanceCommit commitIndex).Ordered := by
    simpa [Ordered] using contiguous.numbered.ordered
  -- above the commit point the match index is the end of the log
  have reach : ∀ index, node.commitIndex < index → index ≤ node.matchIndex →
      index < a + node.log.length := by
    intro index fresh reached
    rw [matchIndex, if_neg follows.data] at reached
    by_cases empty : node.log = []
    · grind [lastLogIndex_eq_zero]
    · have := contiguous.numbered.lastLogIndex empty
      omega
  refine ⟨⟨?_, ⟨a, ?_, ?_, ?_, ?_⟩, ?_⟩, ?_, fun index fresh reached => ?_⟩
  · simpa using follows.serves
  · rw [NumberedFrom, advanceCommit_log]
    exact contiguous.numbered
  · rw [advanceCommit_commitIndex]
    omega
  · rw [advanceCommit_commitIndex, advanceCommit_log]
    grind
  · rw [snapshotIndex, advanceCommit_installedSnapshot, advanceCommit_commitIndex]
    exact covered.trans (le_max_left _ _)
  · intro held member sent sentMember same earlier earlierMember uncommitted below
    rw [advanceCommit_log] at member earlierMember
    rw [advanceCommit_commitIndex] at uncommitted
    exact follows.agrees held member sent sentMember same earlier earlierMember (by omega) below
  · refine contiguous.numbered.ordered.intact ordered ?_ fun entry member _ => ?_
    · simp
    · rw [advanceCommit_log]
      exact member
  · rw [advanceCommit_commitIndex] at reached
    obtain ⟨entry, member, hit⟩ := Numbered.exists_mem contiguous.numbered
      (by omega : a ≤ index) (reach index fresh (by omega))
    grind [ordered.entryAt_eq_some_iff, advanceCommit_log]

def Compared (leader : LeaderLog) (request : AppendEntriesRequest) : Prop :=
  request.BuiltFrom leader ∧ (request.Bare → request.leaderCommit = 0)

theorem accepts_appendRule (leader : LeaderLog) :
    NodeAppendRule (Accepts leader) (Compared leader) where
  quiet := .of_quiet
  trans := .trans
  heartbeat := fun {node request installing} compared admission => by
    rw [compared.2 (bare_of_heartbeat admission), Nat.zero_min]
    exact .of_quiet (advanceCommit_zero_quiet node)
  refused := fun compared admitted quiet fresh _ follows => by
    obtain ⟨follows', kept, commit, -⟩ := follows.takeEntries compared.1 admitted _ quiet fresh rfl
    exact ⟨follows', kept, fun index uncommitted reached => by omega⟩
  taken := fun compared admitted quiet fresh finished follows => by
    obtain ⟨follows', kept, commit, leads⟩ :=
      follows.takeEntries compared.1 admitted _ quiet fresh rfl
    obtain ⟨follows'', kept', commits⟩ := follows'.advanceCommit _ fun held member uncommitted
      bound => leads finished held member uncommitted (bound.trans (min_le_right _ _))
    refine ⟨follows'', kept.trans kept', fun index uncommitted reached => ?_⟩
    exact commits index (by omega) reached

end Node

namespace RaftCluster
variable {s : RaftCluster} {request : AppendEntriesRequest} {target : Nat} {node : Node}

/-! ## A bare heartbeat -/

theorem observeLeader_node (held : s.nodes[target]? = some node) (term leaderId : Nat) :
    ∃ role, (s.observeLeader term leaderId).nodes[target]? = some { node with raftRole := role } ∧
      (s.observeLeader term leaderId).peerPipelines = s.peerPipelines ∧
      (s.observeLeader term leaderId).pendingMembershipChangeIndex
        = s.pendingMembershipChangeIndex := by
  unfold observeLeader
  split
  · exact ⟨node.raftRole, held, rfl, rfl⟩
  · dsimp only
    rw [concludeTransferFor_eq]
    simp [mapNodes, invalidateFollowerLease, resetLeaderLeaseEpoch, clearReorderQueues, held]

theorem grantLease_frame (s : RaftCluster) (target : Nat) (request : AppendEntriesRequest) :
    (s.grantLease target request).2.nodes = s.nodes ∧
      (s.grantLease target request).2.peerPipelines = s.peerPipelines ∧
      (s.grantLease target request).2.pendingMembershipChangeIndex
        = s.pendingMembershipChangeIndex := by
  unfold grantLease renewFollowerLeaseFromAppendEntries renewFollowerLease receiveFollowerLeaseItem
  grind

theorem bareHeartbeat_commits (bare : request.Bare) (group : request.groupId = s.groupId)
    (known : s.knowsLeader request.leaderId = true) (current : s.currentTerm ≤ request.term)
    (held : s.nodes[target]? = some node) (follows : node.hardState.currentTerm ≤ request.term)
    (free : ((s.peerPipelines[target]?).any fun pipeline => pipeline.status.snapshotInstalling) = false)
    (changes : List Nat) :
    ∃ node', (appendEntriesWithMembershipChangeIndexesTo target request changes s).2.nodes[target]?
        = some node' ∧ node'.log = node.log ∧
      node'.commitIndex = max node.commitIndex (min request.leaderCommit node.matchIndex) := by
  obtain ⟨role, observed, pipelines, -⟩ := observeLeader_node held request.term request.leaderId
  obtain ⟨granted, pipelines', -⟩ := grantLease_frame
    (s.observeLeader request.term request.leaderId) target request
  rw [← granted] at observed
  rw [pipelines] at pipelines'
  unfold appendEntriesWithMembershipChangeIndexesTo appendEntriesWith
  rw [if_neg (not_not.mpr group), if_neg (by simp [known]), if_neg (not_lt.mpr current)]
  dsimp only
  unfold deliverAppend
  rw [observed]
  dsimp only
  rw [if_neg (not_lt.mpr follows)]
  have quiet := followRequestTerm_quiet { node with raftRole := role } request.term
  generalize followRequestTerm { node with raftRole := role } request.term = following at quiet ⊢
  have admission : following.admission false request = .heartbeat := by
    simp [Node.admission, bare.1, bare.2]
  unfold answerAppend
  dsimp only [modifyNode]
  rw [pipelines', free, admission]
  refine ⟨following.advanceCommit (min request.leaderCommit following.matchIndex), ?_, ?_, ?_⟩
  · simp [refreshClusterIndexes, observed]
  · rw [Node.advanceCommit_log, quiet.log]
  have commit : following.commitIndex = node.commitIndex := quiet.commitIndex
  have reach : following.matchIndex = node.matchIndex := quiet.matchIndex
  simp [commit, reach]

/-! ## Which requests are safe -/

def CommitsSoundly (leader : LeaderLog) (request : AppendEntriesRequest) : Prop :=
  ∀ (s : RaftCluster) (target : Nat) (changes : List Nat) (node node' : Node),
    s.nodes[target]? = some node → node.Follows leader →
    Cached (fun cached => cached.BuiltFrom leader ∧ ¬ cached.Bare) s →
    (appendEntriesWithMembershipChangeIndexesTo target request changes s).2.nodes[target]?
      = some node' →
    Node.CommitsFrom leader node node'

def strayEntry (leader : LeaderLog) : LogEntry :=
  ⟨⟨((leader.entries.head?).map LogEntry.term).getD 0 + 1, 1⟩, [], true⟩

def strayFollower (leader : LeaderLog) (nodeId : Nat) : Node :=
  { Node.new nodeId .voter false with log := [strayEntry leader] }

theorem strayEntry_logId_ne (leader : LeaderLog) :
    ∀ sent ∈ leader.entries, sent.logId ≠ (strayEntry leader).logId := by
  intro sent member same
  obtain ⟨i, bound, rfl⟩ := mem_iff_getElem.mp member
  have place : (leader.entries[i]).logId.index = 1 + i :=
    leader.numbered i _ (getElem?_eq_getElem bound)
  have first : i = 0 := by
    rw [same] at place
    change 1 = 1 + i at place
    omega
  subst first
  have term : (leader.entries[0]).logId.term = (leader.entries[0]).term + 1 := by
    rw [same]
    simp [strayEntry, head?_eq_getElem?, getElem?_eq_getElem bound]
  grind

theorem follows_of_stray {leader : LeaderLog} {stray : LogEntry}
    (serves : node.replicaRole.canServeData = true) (log : node.log = [stray])
    (first : stray.index = 1) (never : ∀ sent ∈ leader.entries, sent.logId ≠ stray.logId)
    (commit : node.commitIndex = 0) (snapshot : node.snapshotIndex = 0) : node.Follows leader := by
  refine ⟨serves, ⟨1, ?_, ?_, ?_, ?_⟩, ?_⟩
  · unfold Node.NumberedFrom
    intro i entry slot
    grind
  · omega
  · simp [log, commit]
  · omega
  · intro held member sent sentMember same
    grind

/-- **What an honest leader's requests commit.** A request built from a leader's log is safe
for every replica that matches it exactly when it is not a bare heartbeat with a commit
point. -/
theorem heartbeat_free_commits_iff (leader : LeaderLog) (request : AppendEntriesRequest)
    (built : request.BuiltFrom leader) :
    CommitsSoundly leader request ↔ (request.Bare → request.leaderCommit = 0) := by
  constructor
  · intro sound bare
    by_contra positive
    -- the leader of the request and a follower with a stray first entry
    let leads := Node.new request.leaderId .voter false
    let follower := strayFollower leader (request.leaderId + 1)
    let nodes : Std.TreeMap Nat Node :=
      ((∅ : Std.TreeMap Nat Node).insert request.leaderId leads).insert (request.leaderId + 1)
        follower
    let s := initial request.groupId Config.default nodes
    have held : s.nodes[request.leaderId + 1]? = some follower := by
      simp [s, initial, nodes]
    have known : s.knowsLeader request.leaderId = true := by
      have leading : s.nodes[request.leaderId]? = some leads := by
        change nodes[request.leaderId]? = _
        rw [Std.TreeMap.getElem?_insert, if_neg (by simp), Std.TreeMap.getElem?_insert_self]
      unfold knowsLeader
      rw [leading]
      rfl
    have free : ((s.peerPipelines[request.leaderId + 1]?).any
        fun pipeline => pipeline.status.snapshotInstalling) = false := by
      simp [s, initial, nodes, ReplicationPipeline.new, PeerProgress.new]
    obtain ⟨node', reached, log, commit⟩ := bareHeartbeat_commits bare rfl known
      (Nat.zero_le _) held (Nat.zero_le _) free []
    have matched : follower.matchIndex = 1 := rfl
    have fresh : follower.commitIndex = 0 := rfl
    obtain ⟨entry, member, -, found⟩ := sound s _ [] follower node' held
      (follows_of_stray rfl rfl rfl (strayEntry_logId_ne leader) rfl rfl) (.of_empty rfl) reached 1 (by omega) (by omega)
    obtain ⟨position, -, slot⟩ := bind_eq_some_iff.mp found
    rw [log] at slot
    have stray := mem_singleton.mp (mem_of_getElem? slot)
    exact strayEntry_logId_ne leader entry member (by rw [stray])
  · intro compared s target changes node node' held follows cached reached
    obtain ⟨-, each, -⟩ := appendEntries_delivers (Node.accepts_appendRule leader).lift
      ⟨built, compared⟩ target changes s fun peer queue queued prev request' stored =>
        ⟨(cached peer queue queued prev request' stored).1,
          fun bare => absurd bare (cached peer queue queued prev request' stored).2⟩
    obtain ⟨kept, held', accepts⟩ := (each target).1 node held
    rw [reached] at held'
    cases held'
    exact (accepts follows).2.2

section Runs

def threeVoters : List Peer := votersOf [1, 2, 3]

def oneEntryLog : LeaderLog where
  entries := [⟨⟨2, 1⟩, [1], true⟩]
  committed := 1
  numbered := by
    intro i entry slot
    match i with
    | 0 =>
      cases slot
      rfl
    | i + 1 => simp at slot
  bounded := by decide
  covered := le_rfl

def oneEntryAppend : AppendEntriesRequest := ⟨1, 2, 1, none, oneEntryLog.entries, 1, 0⟩

def oneEntryHeartbeat : AppendEntriesRequest := ⟨1, 2, 1, none, [], 1, 0⟩

def strayAppend : AppendEntriesRequest := ⟨1, 1, 2, none, [⟨⟨1, 1⟩, [2], true⟩], 0, 0⟩

theorem heartbeat_free_commits_one_entry : oneEntryAppend.BuiltFrom oneEntryLog ∧
    CommitsSoundly oneEntryLog oneEntryAppend := by
  have built : oneEntryAppend.BuiltFrom oneEntryLog :=
    ⟨(fun _ given => nomatch given), ⟨1, rfl⟩, le_rfl⟩
  exact ⟨built, (heartbeat_free_commits_iff oneEntryLog oneEntryAppend built).mpr
    fun bare => nomatch bare.2⟩

/-- The heartbeat of the leader of term 2 commits voter 3's stray entry at index 1, where the leader
holds another. -/
theorem heartbeat_commits_stray_entry : oneEntryHeartbeat.BuiltFrom oneEntryLog ∧
    ∃ fresh, new 1 Config.default threeVoters = .ok fresh ∧
    ∃ s, (appendEntriesWithMembershipChangeIndexesTo 3 strayAppend [] fresh).2 = s ∧
    ∃ node node', s.nodes[3]? = some node ∧ node.Follows oneEntryLog ∧ s.reorderQueues = ∅ ∧
      (appendEntriesWithMembershipChangeIndexesTo 3 oneEntryHeartbeat [] s).2.nodes[3]?
        = some node' ∧ ¬ Node.CommitsFrom oneEntryLog node node' := by
  have stray : ∀ s : RaftCluster, s.reorderQueues = ∅ →
      (s.nodes[3]?).map (fun node => (node.replicaRole.canServeData, node.log, node.commitIndex,
        node.snapshotIndex)) = some (true, strayAppend.entries, 0, 0) →
      ((appendEntriesWithMembershipChangeIndexesTo 3 oneEntryHeartbeat [] s).2.nodes[3]?).map
        (fun node => (node.log, node.commitIndex)) = some (strayAppend.entries, 1) →
      ∃ node node', s.nodes[3]? = some node ∧ node.Follows oneEntryLog ∧ s.reorderQueues = ∅ ∧
        (appendEntriesWithMembershipChangeIndexesTo 3 oneEntryHeartbeat [] s).2.nodes[3]?
          = some node' ∧ ¬ Node.CommitsFrom oneEntryLog node node' := by
    intro s empty before after
    obtain ⟨node, held, facts⟩ := map_eq_some_iff.mp before
    obtain ⟨node', held', facts'⟩ := map_eq_some_iff.mp after
    simp only [Prod.mk.injEq] at facts facts'
    obtain ⟨serves, log, commit, snapshot⟩ := facts
    refine ⟨node, node', held, follows_of_stray serves log rfl (by decide) commit snapshot, empty,
      held', fun commits => ?_⟩
    obtain ⟨entry, member, -, found⟩ := commits 1 (by omega) (by omega)
    obtain ⟨position, -, slot⟩ := bind_eq_some_iff.mp found
    rw [facts'.1] at slot
    have := mem_of_getElem? slot
    rw [mem_singleton.mp this] at member
    revert member
    decide
  exact ⟨⟨(fun _ given => nomatch given), ⟨0, rfl⟩, le_rfl⟩, _, rfl, _, rfl,
    stray _ (by rfl) (by decide +kernel) (by decide +kernel)⟩

end Runs
end RaftCluster
end MatrixRaft
