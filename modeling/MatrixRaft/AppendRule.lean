/-
# AppendRule — a rule for append requests and their replays

To show that every append, with every cached append it releases, moves each replica along a
relation, it is enough to look at one replica and one request: a bare heartbeat, a request
refused half way, and a request taken to its end.
-/
import MatrixRaft.EachNode
import MatrixRaft.AppendLog

namespace MatrixRaft
open Theory Option Std.TreeMap AppendProgress

/-! ## The rule's premises -/

/-- What has to be shown of one replica's turn with a request that `P` admits. -/
structure AppendRule (M : RaftCluster → RaftCluster → Prop) (P : AppendEntriesRequest → Prop) :
    Prop where
  trans : ∀ {first second third}, M first second → M second third → M first third
  kept : ∀ {s s' : RaftCluster}, s.Bookkeeping s' → s'.nodes = s.nodes →
    s'.currentTerm = s.currentTerm → s'.leaderId = s.leaderId → M s s'
  observed : ∀ {s : RaftCluster} {request : AppendEntriesRequest}, P request →
    s.currentTerm ≤ request.term → M s (s.observeLeader request.term request.leaderId)
  followed : ∀ {s : RaftCluster} {target : Nat} {node : Node} {request : AppendEntriesRequest},
    P request → s.nodes[target]? = some node →
    M s (s.modifyNode target fun _ => RaftCluster.followRequestTerm node request.term)
  heartbeat : ∀ {s : RaftCluster} {target : Nat} {node : Node} {request : AppendEntriesRequest}
    {installing : Bool}, P request → s.nodes[target]? = some node →
    node.admission installing request = .heartbeat →
    M s (s.modifyNode target fun node =>
      node.advanceCommit (min request.leaderCommit node.matchIndex)).refreshClusterIndexes
  refused : ∀ {s : RaftCluster} {target : Nat} {node : Node} {request : AppendEntriesRequest}
    {installing : Bool} {context : AppendContext} {index : Nat}, P request →
    s.nodes[target]? = some node → node.hardState.currentTerm ≤ request.term →
    node.admission installing request = .admitted →
    (takeEntries context request.entries (s.appendStart node request)).2
      = some index →
    M s (s.modifyNode target fun _ =>
      (takeEntries context request.entries (s.appendStart node request)).1.node)
  taken : ∀ {s : RaftCluster} {target : Nat} {node : Node} {request : AppendEntriesRequest}
    {installing : Bool} {context : AppendContext} {progress : AppendProgress}, P request →
    s.nodes[target]? = some node → node.hardState.currentTerm ≤ request.term →
    node.admission installing request = .admitted →
    takeEntries context request.entries (s.appendStart node request)
      = (progress, none) →
    M s (s.modifyNode target fun _ => progress.node.advanceCommit
      (min request.leaderCommit (RaftCluster.appendMatchIndex request progress))).refreshClusterIndexes

theorem AppendRule.mono {M : RaftCluster → RaftCluster → Prop}
    {P Q : AppendEntriesRequest → Prop} (rule : AppendRule M P)
    (weaker : ∀ request, Q request → P request) : AppendRule M Q where
  trans := rule.trans
  kept := rule.kept
  observed := fun admits => rule.observed (weaker _ admits)
  followed := fun admits => rule.followed (weaker _ admits)
  heartbeat := fun admits => rule.heartbeat (weaker _ admits)
  refused := fun admits => rule.refused (weaker _ admits)
  taken := fun admits => rule.taken (weaker _ admits)

namespace RaftCluster
variable {M : RaftCluster → RaftCluster → Prop} {P : Nat → AppendEntriesRequest → Prop}
  {Q : AppendEntriesRequest → Prop} {s s' : RaftCluster}

/-- `P` holds of every append cached for a replica, and of that replica's id. -/
def CachedFor (P : Nat → AppendEntriesRequest → Prop) (s : RaftCluster) : Prop :=
  ∀ (target : Nat) (queue : Std.TreeMap Nat ReorderedAppend), s.reorderQueues[target]? = some queue →
    ∀ (prevIndex : Nat) (cached : ReorderedAppend), queue[prevIndex]? = some cached →
      P target cached.request

abbrev Cached (Q : AppendEntriesRequest → Prop) : RaftCluster → Prop := CachedFor fun _ => Q

/-- The cache stays admitted, and the cluster moves along `M`. -/
def Delivers (M : RaftCluster → RaftCluster → Prop) (P : Nat → AppendEntriesRequest → Prop)
    (s s' : RaftCluster) : Prop :=
  CachedFor P s → CachedFor P s' ∧ M s s'

theorem CachedFor.of_eq (cached : CachedFor P s) (same : s'.reorderQueues = s.reorderQueues) :
    CachedFor P s' := by
  unfold CachedFor
  rw [same]
  exact cached

theorem CachedFor.of_empty (empty : s.reorderQueues = ∅) : CachedFor P s := by
  intro target queue held
  simp [empty] at held

namespace Delivers

theorem of_kept (rule : AppendRule M Q) (kept : Bookkeeping s s') (nodes : s'.nodes = s.nodes)
    (term : s'.currentTerm = s.currentTerm) (leader : s'.leaderId = s.leaderId)
    (queues : s'.reorderQueues = s.reorderQueues) : Delivers M P s s' :=
  fun cached => ⟨cached.of_eq queues, rule.kept kept nodes term leader⟩

theorem refl (rule : AppendRule M Q) (s : RaftCluster) : Delivers M P s s :=
  of_kept rule (.refl s) rfl rfl rfl rfl

theorem trans (rule : AppendRule M Q) {first second third : RaftCluster}
    (one : Delivers M P first second) (two : Delivers M P second third) :
    Delivers M P first third := by
  intro cached
  obtain ⟨cached', moved⟩ := one cached
  obtain ⟨cached'', moved'⟩ := two cached'
  exact ⟨cached'', rule.trans moved moved'⟩

end Delivers

/-! ## The bookkeeping around a request -/

theorem observeLeader_bookkeeping (s : RaftCluster) (term leaderId : Nat) :
    Bookkeeping s (s.observeLeader term leaderId) := by
  unfold observeLeader
  split
  · exact .refl s
  have claimed : Bookkeeping s (clearReorderQueues { s with
      lastIndexBeforeCurrentTerm :=
        if term > s.currentTerm then s.lastLogIndex else s.lastIndexBeforeCurrentTerm
      currentTerm := term
      leaderId := some leaderId }) := ⟨.of_eq rfl, rfl, rfl, .inl rfl, rfl, rfl, rfl⟩
  refine (claimed.trans (concludeTransferFor_bookkeeping _ leaderId
    "leader_changed_before_transfer_complete")).trans ?_
  refine ⟨QuietNodes.mapNodes fun node => ⟨rfl, rfl, rfl, rfl, rfl, .inl rfl⟩, rfl, rfl,
    .inl rfl, rfl, rfl, rfl⟩

/-- A leader that is not followed yet finds the cache cleared. -/
theorem observeLeader_cached {leaderId : Nat} (cached : s.leaderId = some leaderId → CachedFor P s)
    (term : Nat) : CachedFor P (s.observeLeader term leaderId) := by
  unfold observeLeader
  split
  · exact cached ‹_›
  · refine CachedFor.of_empty ?_
    simp [mapNodes, invalidateFollowerLease, resetLeaderLeaseEpoch, clearReorderQueues]

theorem grantLease_delivers (rule : AppendRule M Q) (s : RaftCluster) (target : Nat)
    (request : AppendEntriesRequest) : Delivers M P s (s.grantLease target request).2 := by
  unfold grantLease
  split
  · unfold renewFollowerLeaseFromAppendEntries renewFollowerLease receiveFollowerLeaseItem
    split <;> split <;>
      exact .of_kept rule ⟨.of_eq rfl, rfl, rfl, .inl rfl, rfl, rfl, rfl⟩ rfl rfl rfl rfl
  · exact .refl rule s

theorem followRequestTerm_quiet (node : Node) (term : Nat) :
    Node.Quiet node (followRequestTerm node term) := by
  unfold followRequestTerm
  split
  · exact ⟨rfl, rfl, rfl, rfl, rfl, .inl rfl⟩
  · exact .refl node

theorem followRequestTerm_term {node : Node} {term : Nat}
    (current : node.hardState.currentTerm ≤ term) :
    (followRequestTerm node term).hardState.currentTerm = term := by
  unfold followRequestTerm
  split
  · rfl
  · omega

theorem modifyNode_bookkeeping {target : Nat} {f : Node → Node}
    (step : ∀ node, s.nodes[target]? = some node → Node.Quiet node (f node)) :
    Bookkeeping s (s.modifyNode target f) :=
  ⟨EachNode.modifyNode Node.Quiet.refl step, rfl, rfl, .inl rfl, rfl, rfl, rfl⟩

theorem cacheReorderedAppend_delivers (rule : AppendRule M Q) (s : RaftCluster) (target : Nat)
    {request : AppendEntriesRequest} (admitted : P target request) (changes : List Nat) :
    Delivers M P s (s.cacheReorderedAppend target request changes) := by
  unfold cacheReorderedAppend
  split
  · exact .refl rule s
  refine fun cached => ⟨?_, rule.kept ⟨.of_eq rfl, rfl, rfl, .inl rfl, rfl, rfl, rfl⟩ rfl rfl rfl⟩
  intro key queue held prevIndex entry slot
  rw [getElem?_insert] at held
  split at held
  · -- the queue that took the request: an old entry, or the request itself
    obtain rfl := compare_eq_iff_eq.mp ‹_›
    cases held
    rw [getElem?_insert] at slot
    split at slot
    · grind
    rcases old : s.reorderQueues[target]? with _ | queue
    · simp [old] at slot
    · rw [old] at slot
      exact cached target queue old prevIndex entry slot
  · exact cached key queue held prevIndex entry slot

theorem clearReorderQueueFor_cached (cached : CachedFor P s) (target : Nat) :
    CachedFor P (s.clearReorderQueueFor target) := by
  intro key queue held
  rw [clearReorderQueueFor, getElem?_erase] at held
  split at held
  · cases held
  · exact cached key queue held

theorem clearReorderQueueFor_delivers (rule : AppendRule M Q) (s : RaftCluster) (target : Nat) :
    Delivers M P s (s.clearReorderQueueFor target) :=
  fun cached => ⟨clearReorderQueueFor_cached cached target,
    rule.kept ⟨.of_eq rfl, rfl, rfl, .inl rfl, rfl, rfl, rfl⟩ rfl rfl rfl⟩

/-! ## The request -/

section Request
variable {drain : ClusterM Unit} {target : Nat} {node : Node} {request : AppendEntriesRequest}
  {changes : List Nat} {lease : LeaseGrant} {installing : Bool}

/-- Storing the replica, cutting the bookkeeping and recomputing the aggregates come to
storing the replica and recomputing them. -/
theorem finishAppend_delivers (rule : AppendRule M Q) (progress : AppendProgress)
    (step : M s (s.modifyNode target fun _ => progress.node.advanceCommit
      (min request.leaderCommit (appendMatchIndex request progress))).refreshClusterIndexes) :
    Delivers M P s (s.finishAppend target request progress) := by
  refine fun cached => ⟨?_, rule.trans step ?_⟩
  · unfold finishAppend
    split
    · exact cached.of_eq rfl
    · exact (clearReorderQueueFor_cached cached target).of_eq rfl
  · -- the cut touches no index the aggregates are read from
    unfold finishAppend
    dsimp only
    split <;> exact rule.kept ⟨.of_eq rfl, rfl, rfl, .inl rfl, rfl, rfl, rfl⟩ rfl rfl rfl

variable (rule : AppendRule M (P target)) (drains : Attempt.Moves (Delivers M P) drain)
  (admits : P target request)

include rule drains admits

section
variable (held : s.nodes[target]? = some node) (current : node.hardState.currentTerm ≤ request.term)
include held current

theorem takeAdmitted_delivers (admission : node.admission installing request = .admitted) :
    Delivers M P s (takeAdmitted drain target node request changes lease s).2 := by
  unfold takeAdmitted
  dsimp only
  split
  · rename_i progress index outcome
    have refused := rule.refused admits held current admission (congrArg Prod.snd outcome)
    rw [outcome] at refused
    exact fun cached => ⟨cached.of_eq rfl, rule.trans refused
        (rule.kept ⟨.of_eq rfl, rfl, rfl, .inl rfl, rfl, rfl, rfl⟩ rfl rfl rfl)⟩
  · rename_i progress outcome
    rw [Attempt.bind_pure_state]
    exact .trans rule (finishAppend_delivers rule progress
      (rule.taken admits held current admission outcome)) (drains _)

theorem answerAppend_delivers :
    Delivers M P s (answerAppend drain target node request changes lease s).2 := by
  unfold answerAppend
  dsimp only
  split
  · exact .refl rule s
  · rename_i admission
    exact fun cached => ⟨cached.of_eq rfl, rule.heartbeat admits held admission⟩
  · exact .refl rule s
  · split
    · exact .refl rule s
    · grind [cacheReorderedAppend_delivers]
  · exact .refl rule s
  · exact .refl rule s
  · exact .refl rule s
  · rename_i admission
    exact takeAdmitted_delivers rule drains admits held current admission

end

theorem deliverAppend_delivers (s : RaftCluster) :
    Delivers M P s (deliverAppend drain target request changes lease s).2 := by
  unfold deliverAppend
  split
  · exact .refl rule s
  rename_i node held
  split
  · exact .refl rule s
  rename_i current
  have followed : Delivers M P s (s.modifyNode target fun _ => followRequestTerm node request.term) :=
    fun cached => ⟨cached.of_eq rfl, rule.followed admits held⟩
  refine .trans rule followed (answerAppend_delivers rule drains admits ?_ ?_)
  · simp [modifyNode, held]
  · exact (followRequestTerm_term (not_lt.mp current)).le

theorem appendEntriesWith_delivers (s : RaftCluster) :
    Delivers M P s (appendEntriesWith drain target request changes s).2 := by
  unfold appendEntriesWith
  split
  · exact .refl rule s
  split
  · split <;> exact .refl rule s
  split
  · split <;> exact .refl rule s
  rename_i current
  have observed : Delivers M P s (s.observeLeader request.term request.leaderId) := fun cached =>
    ⟨observeLeader_cached (fun _ => cached) _, rule.observed admits (not_lt.mp current)⟩
  exact .trans rule observed (.trans rule (grantLease_delivers rule _ _ _)
    (deliverAppend_delivers rule drains admits _))

end Request

/-! ## Replays -/

theorem takeReorderedAppend_delivers (rule : AppendRule M Q) (s : RaftCluster)
    (target prevIndex : Nat) : Delivers M P s (s.takeReorderedAppend target prevIndex) := by
  refine fun cached => ⟨?_, rule.kept ⟨.of_eq rfl, rfl, rfl, .inl rfl, rfl, rfl, rfl⟩ rfl rfl rfl⟩
  intro key queue held index entry slot
  rw [takeReorderedAppend, getElem?_modify] at held
  split at held
  · obtain rfl := compare_eq_iff_eq.mp ‹_›
    obtain ⟨old, heldOld, rfl⟩ := map_eq_some_iff.mp held
    rw [getElem?_erase] at slot
    split at slot
    · cases slot
    · exact cached target old heldOld index entry slot
  · exact cached key queue held index entry slot

theorem dropEmptyReorderQueue_delivers (rule : AppendRule M Q) (s : RaftCluster) (target : Nat) :
    Delivers M P s (s.dropEmptyReorderQueue target) := by
  unfold dropEmptyReorderQueue
  split
  · exact clearReorderQueueFor_delivers rule s target
  · exact .refl rule s

theorem releasedAppend_admitted (cached : CachedFor P s) {target matchIndex prevIndex : Nat}
    {released : ReorderedAppend}
    (found : s.releasedAppend target matchIndex = some (prevIndex, released)) :
    P target released.request := by
  obtain ⟨queue, held, head⟩ := bind_eq_some_iff.mp found
  have first := (filter_eq_some_iff.mp head).1
  have member : (prevIndex, released) ∈ queue.toList := List.mem_of_head? first
  exact cached target queue held prevIndex released
    (mem_toList_iff_getElem?_eq_some.mp member)

/-- **The append rule, for replays.** -/
theorem drainReorderedAppends_delivers {target : Nat} (rule : AppendRule M (P target)) :
    ∀ rounds, Attempt.Moves (Delivers M P) (drainReorderedAppends rounds target)
  | 0 => by
    intro s
    unfold drainReorderedAppends
    split
    · exact .refl rule s
    · exact dropEmptyReorderQueue_delivers rule s target
  | rounds + 1 => by
    have inner := drainReorderedAppends_delivers rule rounds
    intro s cached
    unfold drainReorderedAppends
    split
    · exact Delivers.refl rule s cached
    split
    · exact dropEmptyReorderQueue_delivers rule s target cached
    rename_i prevIndex released found
    have admits := releasedAppend_admitted cached found
    -- one replay, then the rest of the queue or nothing
    refine Delivers.trans rule (takeReorderedAppend_delivers rule s target prevIndex) ?_ cached
    have replay := @appendEntriesWith_delivers M P _ target released.request
      released.membershipChangeIndexes rule inner admits (s.takeReorderedAppend target prevIndex)
    rw [Attempt.bind_apply]
    split
    · rename_i response reached ran
      rw [ran] at replay
      refine .trans rule replay ?_
      split
      · exact inner reached
      · exact dropEmptyReorderQueue_delivers rule reached target
    · grind

/-- **The append rule.** Every append, with all it replays, moves each replica along the
relation and keeps the cache admitted. -/
theorem appendEntries_delivers (rule : AppendRule M Q) {request : AppendEntriesRequest}
    (admits : Q request) (target : Nat) (changes : List Nat) (s : RaftCluster) :
    Delivers M (fun _ => Q) s
      (appendEntriesWithMembershipChangeIndexesTo target request changes s).2 :=
  appendEntriesWith_delivers rule (drainReorderedAppends_delivers rule _) admits s

theorem trivial_appendRule (Q : AppendEntriesRequest → Prop) : AppendRule (fun _ _ => True) Q :=
  ⟨fun _ _ => trivial, fun _ _ _ _ => trivial, fun _ _ => trivial, fun _ _ => trivial,
    fun _ _ _ => trivial, fun _ _ _ _ _ => trivial, fun _ _ _ _ _ => trivial⟩

end RaftCluster

/-! ## One replica at a time -/

structure NodeAppendRule (R : Node → Node → Prop) (P : AppendEntriesRequest → Prop) : Prop where
  quiet : ∀ {before after}, Node.Quiet before after → R before after
  trans : ∀ {first second third}, R first second → R second third → R first third
  heartbeat : ∀ {node : Node} {request : AppendEntriesRequest} {installing : Bool}, P request →
    node.admission installing request = .heartbeat →
    R node (node.advanceCommit (min request.leaderCommit node.matchIndex))
  refused : ∀ {node : Node} {request : AppendEntriesRequest} {installing : Bool}
    {context : AppendContext} {progress : AppendProgress} {index : Nat}, P request →
    node.admission installing request = .admitted → Node.Quiet node progress.node →
    progress.appendedEntriesCount = 0 →
    (takeEntries context request.entries progress).2 = some index →
    R node (takeEntries context request.entries progress).1.node
  taken : ∀ {node : Node} {request : AppendEntriesRequest} {installing : Bool}
    {context : AppendContext} {progress : AppendProgress}, P request →
    node.admission installing request = .admitted → Node.Quiet node progress.node →
    progress.appendedEntriesCount = 0 →
    (takeEntries context request.entries progress).2 = none →
    R node ((takeEntries context request.entries progress).1.node.advanceCommit
      (min request.leaderCommit (RaftCluster.appendMatchIndex request
        (takeEntries context request.entries progress).1)))

namespace NodeAppendRule
open RaftCluster
variable {R : Node → Node → Prop} {P : AppendEntriesRequest → Prop}

theorem modifyNode (rule : NodeAppendRule R P) {s : RaftCluster} {target : Nat} {node : Node}
    {f : Node → Node} (held : s.nodes[target]? = some node) (step : R node (f node)) :
    EachNode R s (s.modifyNode target f) := by
  refine EachNode.modifyNode (fun node => rule.quiet (.refl node)) fun found heldFound => ?_
  grind

theorem quietly (rule : NodeAppendRule R P) {s s' : RaftCluster} (kept : Bookkeeping s s') :
    EachNode R s s' ∧ (s.activeLeaderTransfer = none → s'.activeLeaderTransfer = none) :=
  ⟨kept.nodes.mono fun _ _ => rule.quiet, kept.idle⟩

theorem lift (rule : NodeAppendRule R P) : AppendRule (fun s s' => EachNode R s s' ∧
    (s.activeLeaderTransfer = none → s'.activeLeaderTransfer = none)) P where
  trans := fun one two => ⟨one.1.trans (fun _ _ _ => rule.trans) two.1, fun idle => two.2 (one.2 idle)⟩
  kept := fun kept _ _ _ => rule.quietly kept
  observed := fun {s request} _ _ => rule.quietly (observeLeader_bookkeeping s _ _)
  followed := fun {s target node request} _ held => rule.quietly <| modifyNode_bookkeeping fun _ _ => by
    grind [followRequestTerm_quiet]
  heartbeat := fun admits held admission =>
    ⟨rule.modifyNode held (rule.heartbeat admits admission), id⟩
  refused := fun admits held _ admission refused => ⟨rule.modifyNode held
    (rule.refused admits admission ⟨rfl, rfl, rfl, rfl, rfl, .inl rfl⟩ rfl refused), id⟩
  taken := fun admits held _ admission outcome => by
    have taken := rule.taken admits admission ⟨rfl, rfl, rfl, rfl, rfl, .inl rfl⟩ rfl
      (congrArg Prod.snd outcome)
    rw [outcome] at taken
    exact ⟨rule.modifyNode held taken, id⟩

end NodeAppendRule
end MatrixRaft
