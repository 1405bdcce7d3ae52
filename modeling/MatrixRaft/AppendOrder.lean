/-
# AppendOrder — the order in which batches of one leader arrive

The batches of what a follower lacks may arrive in any order, and more than once.  One ahead
of the follower's log is cached, and the one that closes the gap replays it: the follower has
taken the longest run of the arrived batches from the first on, and the rest is cached.
-/
import MatrixRaft.AppendBatches

namespace MatrixRaft
open Theory List Std.TreeMap Node AppendProgress

/-! ## The cluster between two deliveries -/

namespace RaftCluster

def queueFor (s : RaftCluster) (target : Nat) : Std.TreeMap Nat ReorderedAppend :=
  (s.reorderQueues[target]?).getD ∅

def installingAt (s : RaftCluster) (target : Nat) : Bool :=
  (s.peerPipelines[target]?).any fun pipeline => pipeline.status.snapshotInstalling

def standingOf (s : RaftCluster) (nodeId : Nat) : Option (ReplicaRole × Bool) :=
  (s.nodes[nodeId]?).map fun node => (node.replicaRole, node.healthy)

theorem knowsLeader_eq (s : RaftCluster) (leaderId : Nat) :
    s.knowsLeader leaderId = (s.standingOf leaderId).any fun standing =>
      standing.1.canBeLeader && standing.2 := by
  simp only [knowsLeader, standingOf]
  rcases s.nodes[leaderId]? with _ | node <;> rfl

theorem cachedAppends_eq (s : RaftCluster) (target : Nat) :
    s.cachedAppends target = (s.queueFor target).size := by
  unfold cachedAppends queueFor
  rcases s.reorderQueues[target]? with _ | queue <;> rfl

/-- The states agree on all that delivering a batch looks at. -/
structure SameDelivery (s s' : RaftCluster) : Prop where
  groupId : s'.groupId = s.groupId
  config : s'.config = s.config
  peerPipelines : s'.peerPipelines = s.peerPipelines
  nodes : s'.nodes = s.nodes
  reorderQueues : s'.reorderQueues = s.reorderQueues
  leaderId : s'.leaderId = s.leaderId
  currentTerm : s'.currentTerm = s.currentTerm

theorem receiveFollowerLeaseItem_same (s : RaftCluster) (epoch : Nat) :
    SameDelivery s (s.receiveFollowerLeaseItem epoch).2 := by
  unfold receiveFollowerLeaseItem
  split <;> exact ⟨rfl, rfl, rfl, rfl, rfl, rfl, rfl⟩

theorem grantLease_same (s : RaftCluster) (target : Nat) (request : AppendEntriesRequest) :
    SameDelivery s (s.grantLease target request).2 := by
  unfold grantLease
  split
  · unfold renewFollowerLeaseFromAppendEntries renewFollowerLease
    split <;> exact receiveFollowerLeaseItem_same _ _
  · exact ⟨rfl, rfl, rfl, rfl, rfl, rfl, rfl⟩

theorem concludeTransferFor_same (s : RaftCluster) (leaderId : Nat) (reason : String) :
    SameDelivery s (s.concludeTransferFor leaderId reason) := by
  unfold concludeTransferFor
  rcases active : s.activeLeaderTransfer with _ | transfer
  · exact ⟨rfl, rfl, rfl, rfl, rfl, rfl, rfl⟩
  · simp only [completeLeaderTransfer, abortLeaderTransfer, active]
    split <;> exact ⟨rfl, rfl, rfl, rfl, rfl, rfl, rfl⟩

def followedRole (leaderId : Nat) (peer : Node) : Node :=
  { peer with raftRole := if peer.id = leaderId then .leader else followerRole peer }

structure Followed (s : RaftCluster) (term leaderId : Nat) (s' : RaftCluster) : Prop where
  groupId : s'.groupId = s.groupId
  config : s'.config = s.config
  peerPipelines : s'.peerPipelines = s.peerPipelines
  nodes : s'.nodes = s.nodes.map fun _ peer => followedRole leaderId peer
  reorderQueues : s'.reorderQueues = ∅
  leaderId : s'.leaderId = some leaderId
  currentTerm : s'.currentTerm = term

theorem observeLeader_followed {s : RaftCluster} {leaderId : Nat} (term : Nat)
    (other : s.leaderId ≠ some leaderId) :
    Followed s term leaderId (s.observeLeader term leaderId) := by
  have same := concludeTransferFor_same
    (clearReorderQueues { s with
      lastIndexBeforeCurrentTerm :=
        if term > s.currentTerm then s.lastLogIndex else s.lastIndexBeforeCurrentTerm
      currentTerm := term
      leaderId := some leaderId }) leaderId "leader_changed_before_transfer_complete"
  have nodes := congrArg (fun nodes : Std.TreeMap Nat Node =>
    nodes.map fun _ peer => followedRole leaderId peer) same.nodes
  rw [observeLeader, if_neg other]
  exact ⟨same.groupId, same.config, same.peerPipelines, nodes, same.reorderQueues,
    same.leaderId, same.currentTerm⟩

theorem followedRole_same (leaderId : Nat) (peer : Node) :
    peer.SameStore (followedRole leaderId peer) :=
  ⟨⟨rfl, rfl, rfl, rfl, rfl, .inl rfl⟩, rfl, rfl⟩

theorem followRequestTerm_same (node : Node) (term : Nat) :
    node.SameStore (followRequestTerm node term) := by
  unfold followRequestTerm
  split <;> exact ⟨⟨rfl, rfl, rfl, rfl, rfl, .inl rfl⟩, rfl, rfl⟩

end RaftCluster

/-- One leader's batches for one follower, which the follower has room for and whose first it
admits. -/
structure Delivery where
  target : Nat
  base : Node
  batches : List AppendEntriesRequest
  (groupId term leaderId buffer : Nat)
  split : SplitAfter groupId term leaderId base.matchIndex batches
  ends : base.EndsAt base.matchIndex
  opens : base.Opens batches
  roomy : base.replicaRole.canServeData = true → ∀ i batch, batches[i]? = some batch →
    batch.entries.length ≤ 1 ∨
      base.retainedLogBytes + payloadBytes (entriesOf (batches.take i)) < buffer

namespace Delivery
open RaftCluster
variable {d : Delivery} {taken i : Nat} {waiting waiting' : Nat → Prop} {s s' : RaftCluster}
  {batch : AppendEntriesRequest}

/-- The target has taken the first `taken` batches, and the `waiting` ones are cached. -/
structure Standing (d : Delivery) (taken : Nat) (waiting : Nat → Prop) (s : RaftCluster) :
    Prop where
  groupId : s.groupId = d.groupId
  leader : s.knowsLeader d.leaderId = true
  term : s.currentTerm ≤ d.term
  known : s.leaderId = some d.leaderId ∨ ∀ i, ¬ waiting i
  idle : s.installingAt d.target = false
  buffer : s.config.maxLogBufferBytes = d.buffer
  bound : taken ≤ d.batches.length
  node : ∃ node, s.nodes[d.target]? = some node ∧ node.hardState.currentTerm ≤ d.term ∧
    d.base.After (d.batches.take taken) node
  queue : ∀ key cached, (s.queueFor d.target)[key]? = some cached ↔
    ∃ i batch, waiting i ∧ d.batches[i]? = some batch ∧ batch.prevIndex = key ∧
      cached = ⟨batch, []⟩

namespace Standing
section
variable (standing : Standing d taken waiting s)

include standing

theorem congr (same : SameDelivery s s') : Standing d taken waiting s' where
  groupId := same.groupId.trans standing.groupId
  leader := by
    rw [knowsLeader, same.nodes]
    exact standing.leader
  term := same.currentTerm ▸ standing.term
  known := by
    rw [same.leaderId]
    exact standing.known
  idle := by
    rw [installingAt, same.peerPipelines]
    exact standing.idle
  buffer := by
    rw [same.config]
    exact standing.buffer
  bound := standing.bound
  node := by
    rw [same.nodes]
    exact standing.node
  queue := by
    rw [queueFor, same.reorderQueues]
    exact standing.queue

theorem congr_waiting (same : ∀ i, waiting i ↔ waiting' i) : Standing d taken waiting' s := by
  obtain rfl : waiting = waiting' := funext fun i => propext (same i)
  exact standing

theorem requeue (known : s.leaderId = some d.leaderId ∨ ∀ i, ¬ waiting' i)
    {queues : Std.TreeMap Nat (Std.TreeMap Nat ReorderedAppend)}
    (queue : ∀ key cached, (queueFor { s with reorderQueues := queues } d.target)[key]? = some cached ↔
      ∃ i batch, waiting' i ∧ d.batches[i]? = some batch ∧ batch.prevIndex = key ∧
        cached = ⟨batch, []⟩) :
    Standing d taken waiting' { s with reorderQueues := queues } :=
  ⟨standing.groupId, standing.leader, standing.term, known, standing.idle, standing.buffer,
    standing.bound, standing.node, queue⟩

theorem size_eq {taken' : Nat} (standing' : Standing d taken' waiting s') :
    (s'.queueFor d.target).size = (s.queueFor d.target).size := by
  refine Std.TreeMap.Equiv.size_eq (Std.TreeMap.Equiv.of_forall_constGet?_eq fun key => ?_)
  refine Option.ext fun cached => ?_
  rw [standing.queue, standing'.queue]

theorem replace {node node' : Node} {taken' : Nat}
    (held : s.nodes[d.target]? = some node) (bound : taken' ≤ d.batches.length)
    (role : node'.replicaRole = node.replicaRole) (healthy : node'.healthy = node.healthy)
    (term : node'.hardState.currentTerm ≤ d.term)
    (after : d.base.After (d.batches.take taken') node') :
    Standing d taken' waiting (s.modifyNode d.target fun _ => node') where
  groupId := standing.groupId
  leader := by
    have stays : (s.modifyNode d.target fun _ => node').standingOf d.leaderId
        = s.standingOf d.leaderId := by
      rw [standingOf, standingOf, modifyNode, Std.TreeMap.getElem?_modify]
      grind
    rw [knowsLeader_eq, stays, ← knowsLeader_eq]
    exact standing.leader
  term := standing.term
  known := standing.known
  idle := standing.idle
  buffer := standing.buffer
  bound := bound
  node := by
    refine ⟨node', ?_, term, after⟩
    simp [modifyNode, held]
  queue := standing.queue

/-- Following the sender keeps everything, since what it clears was empty. -/
theorem observe : Standing d taken waiting (s.observeLeader d.term d.leaderId) ∧
      (s.observeLeader d.term d.leaderId).leaderId = some d.leaderId := by
  by_cases known : s.leaderId = some d.leaderId
  · grind [observeLeader]
  have followed := observeLeader_followed d.term known
  refine ⟨?_, followed.leaderId⟩
  have none := standing.known.resolve_left known
  obtain ⟨node, held, term, after⟩ := standing.node
  refine ⟨followed.groupId.trans standing.groupId, ?_, followed.currentTerm.le,
    .inl followed.leaderId, ?_, ?_, standing.bound, ?_, ?_⟩
  · have stays : (s.observeLeader d.term d.leaderId).standingOf d.leaderId
        = s.standingOf d.leaderId := by
      rw [standingOf, standingOf, followed.nodes, Std.TreeMap.getElem?_map]
      rcases s.nodes[d.leaderId]? with _ | leader <;> rfl
    rw [knowsLeader_eq, stays, ← knowsLeader_eq]
    exact standing.leader
  · rw [installingAt, followed.peerPipelines]
    exact standing.idle
  · rw [followed.config]
    exact standing.buffer
  · refine ⟨followedRole d.leaderId node, ?_, term, after.of_same (followedRole_same _ _)⟩
    simp [followed.nodes, held]
  · intro key cached
    simp [queueFor, followed.reorderQueues, none]

/-- **Up to the replica's own decision.** A batch that arrives is decided on by the target's replica. -/
theorem arrive (slot : d.batches[i]? = some batch) :
    ∃ s' node lease, Standing d taken waiting s' ∧ s'.leaderId = some d.leaderId ∧
      s'.nodes[d.target]? = some node ∧ node.hardState.currentTerm = d.term ∧
      d.base.After (d.batches.take taken) node ∧
      ∀ drain, appendEntriesWith drain d.target batch [] s
        = answerAppend drain d.target node batch [] lease s' := by
  obtain ⟨group, term, leader⟩ := d.split.sender batch (mem_of_getElem? slot)
  obtain ⟨observed, known⟩ := standing.observe
  have same := grantLease_same (s.observeLeader d.term d.leaderId) d.target batch
  have granted := observed.congr same
  obtain ⟨node, held, bounded, after⟩ := granted.node
  have following := after.of_same (followRequestTerm_same node d.term)
  have reached : (followRequestTerm node d.term).hardState.currentTerm = d.term := by
    grind [followRequestTerm]
  refine ⟨_, followRequestTerm node d.term,
    ((s.observeLeader d.term d.leaderId).grantLease d.target batch).1,
    granted.replace held standing.bound (followRequestTerm_same node d.term).replicaRole ?_
      reached.le following, same.leaderId.trans known, ?_, reached, following, fun drain => ?_⟩
  · unfold followRequestTerm
    split <;> rfl
  · simp [modifyNode, held]
  rw [appendEntriesWith, if_neg (by rw [group, standing.groupId]; simp),
    if_neg (by rw [leader, standing.leader]; simp), if_neg (by rw [term]; exact standing.term.not_gt),
    term, leader]
  rw [deliverAppend, held]
  grind

/-! ### What becomes of the batch -/

theorem ahead (slot : d.batches[i]? = some batch)
    (lt : taken < i) : ∃ response s', Standing d taken (fun k => waiting k ∨ k = i) s' ∧
      ∀ drain, appendEntriesWith drain d.target batch [] s = (.ok response, s') := by
  obtain ⟨reached, node, lease, standing, known, held, term, after, arrives⟩ :=
    standing.arrive slot
  obtain ⟨gap, prev, given⟩ := after.admission_ahead d.split d.opens slot lt
  have position : batch.prevIndex = prev.index := by
    simp [AppendEntriesRequest.prevIndex, given]
  have filled : batch.entries.isEmpty = false := by
    simp [d.split.nonempty batch (mem_of_getElem? slot)]
  have idle := standing.idle
  rw [installingAt] at idle
  refine ⟨node.refuseAppend node.hardState.currentTerm (satAdd node.matchIndex 1)
    (satAdd batch.prevIndex 1) lease, reached.cacheReorderedAppend d.target batch [], ?_,
    fun drain => ?_⟩
  · rw [cacheReorderedAppend, given]
    refine standing.requeue (.inl known) fun key cached => ?_
    have queue : queueFor { reached with
        reorderQueues := reached.reorderQueues.insert d.target
          (((reached.reorderQueues[d.target]?).getD ∅).insert prev.index ⟨batch, []⟩) } d.target
        = (reached.queueFor d.target).insert prev.index ⟨batch, []⟩ := by
      simp [queueFor]
    rw [queue, Std.TreeMap.getElem?_insert]
    split
    · rename_i here
      constructor
      · grind
      · rintro ⟨k, other, -, slot', starts, rfl⟩
        grind [d.split.position_unique]
    · rw [standing.queue]
      grind
  · simp [arrives, answerAppend, idle, gap, filled]

theorem acknowledges {node stored : Node} (lease : LeaseGrant)
    {taken' count : Nat} (held : s.nodes[d.target]? = some node) (bound : taken' ≤ d.batches.length)
    (term : batch.term = d.term) (admitted : node.admission false batch = .admitted)
    (loop : takeEntries (s.appendContext node batch []) batch.entries
        (s.appendStart node batch)
      = ({ s.appendStart node batch with node := stored, appendedEntriesCount := count }, none))
    (after : d.base.After (d.batches.take taken') (stored.advanceCommit (min batch.leaderCommit
      (appendMatchIndex batch
        { s.appendStart node batch with node := stored, appendedEntriesCount := count })))) :
    ∃ response s', response.success = true ∧ Standing d taken' waiting s' ∧
      ∀ drain, answerAppend drain d.target node batch [] lease s
        = ((drain >>= fun _ => pure response : ClusterM AppendEntriesResponse) s') := by
  have idle := standing.idle
  rw [installingAt] at idle
  have same := takeEntries_same (s.appendContext node batch []) batch.entries
    (s.appendStart node batch)
  rw [loop] at same
  let progress := { s.appendStart node batch with node := stored, appendedEntriesCount := count }
  let committed := stored.advanceCommit (min batch.leaderCommit (appendMatchIndex batch progress))
  have eq := advanceCommit_eq stored
    (min batch.leaderCommit (appendMatchIndex batch progress))
  have follows : committed.hardState.currentTerm = d.term :=
    ((congrArg (fun node => node.hardState.currentTerm) eq).trans
      (congrArg HardState.currentTerm same.hardState)).trans term
  have role : committed.replicaRole = node.replicaRole :=
    (congrArg replicaRole eq).trans same.replicaRole
  have healthy : committed.healthy = node.healthy := (congrArg healthy eq).trans same.healthy
  have replaced := standing.replace held bound role healthy follows.le after
  refine ⟨committed.acknowledgeAppend (appendMatchIndex batch progress) .none lease,
    s.finishAppend d.target batch progress, rfl,
    replaced.congr ⟨rfl, rfl, rfl, rfl, rfl, rfl, rfl⟩, fun drain => ?_⟩
  rw [answerAppend]
  simp only [idle, admitted, takeAdmitted, loop]
  rfl

omit standing in
theorem start_same (s : RaftCluster) (node : Node) (batch : AppendEntriesRequest) :
    node.SameStore (s.appendStart node batch).node :=
  ⟨⟨rfl, rfl, rfl, rfl, rfl, .inl rfl⟩, rfl, rfl⟩

theorem next (slot : d.batches[taken]? = some batch) :
    ∃ response s', response.success = true ∧ Standing d (taken + 1) waiting s' ∧
      ∀ drain, appendEntriesWith drain d.target batch [] s
        = ((drain >>= fun _ => pure response : ClusterM AppendEntriesResponse) s') := by
  obtain ⟨reached, node, lease, standing, -, held, -, after, arrives⟩ := standing.arrive slot
  have begun := after.of_same (start_same reached node batch)
  have starts := d.split.prevIndex_eq slot
  have placed := d.split.entries_numbered slot
  have nonempty := d.split.nonempty batch (mem_of_getElem? slot)
  have bound : taken + 1 ≤ d.batches.length := (List.getElem?_eq_some_iff.mp slot).1
  have room : (reached.appendContext node batch []).capBusyDataAppendBatch = false ∨
      batch.entries.length ≤ 1 := by
    rcases serves : d.base.replicaRole.canServeData with _ | _
    · left
      simp [appendContext, after.role, serves]
    rcases d.roomy serves taken batch slot with short | room
    · exact .inr short
    · left
      grind [appendContext, after.bytes, standing.buffer]
  obtain ⟨count, loop, counted⟩ := takeEntries_next
    (reached.appendContext node batch []) rfl batch.entries (reached.appendStart node batch) _ begun.ends (starts ▸ placed) room
  have stored := begun.store starts placed
  have shape : d.batches.take taken ++ [batch] = d.batches.take (taken + 1) := by
    rw [take_add_one, slot]
    rfl
  rw [shape] at stored
  obtain ⟨response, s', success, standing', answers⟩ := standing.acknowledges lease held bound
    (d.split.sender batch (mem_of_getElem? slot)).2.1
    (after.admission_next d.split d.opens d.ends slot) loop
    (by
      rw [appendMatchIndex, if_neg (counted (.inl nonempty))]
      exact stored)
  grind

theorem again (slot : d.batches[i]? = some batch) (lt : i < taken) :
    (∃ response s', Standing d taken waiting s' ∧
      ∀ drain, appendEntriesWith drain d.target batch [] s = (.ok response, s')) ∨
    ∃ response s', Standing d taken waiting s' ∧
      ∀ drain, appendEntriesWith drain d.target batch [] s
        = ((drain >>= fun _ => pure response : ClusterM AppendEntriesResponse) s') := by
  obtain ⟨reached, node, lease, standing, -, held, -, after, arrives⟩ := standing.arrive slot
  have idle := standing.idle
  rw [installingAt] at idle
  have admission := after.admission_taken d.split d.opens d.ends slot lt.le
  split at admission
  · refine .inl ⟨node.acknowledgeAppend node.commitIndex .none lease, reached, standing,
      fun drain => ?_⟩
    rw [arrives, answerAppend]
    simp only [idle, admission]
  · rename_i above
    right
    have begun := after.of_same (start_same reached node batch)
    have member : batch ∈ d.batches.take taken :=
      mem_iff_getElem?.mpr ⟨i, by rw [getElem?_take, if_pos lt, slot]⟩
    have low : (reached.appendStart node batch).node.snapshotIndex ≤ d.base.matchIndex := by
      simpa [snapshotIndex, begun.installedSnapshot] using d.ends.snapshot
    have kept : ∀ entry ∈ batch.entries, d.base.matchIndex < entry.index ∧
        storedForm (reached.appendStart node batch).node.replicaRole entry
          ∈ (reached.appendStart node batch).node.log := by
      intro entry inBatch
      have carried : entry ∈ entriesOf (d.batches.take taken) :=
        mem_flatMap.mpr ⟨batch, member, inBatch⟩
      refine ⟨(Numbered.bounds (d.split.numbered_take taken) carried).1, ?_⟩
      rw [begun.log, begun.role]
      exact mem_append_right _ (mem_map_of_mem carried)
    obtain ⟨count, loop⟩ := takeEntries_held
      (reached.appendContext node batch []) rfl batch.entries (reached.appendStart node batch) begun.ends low kept
    obtain ⟨response, s', -, standing', answers⟩ := standing.acknowledges lease held
      standing.bound (d.split.sender batch (mem_of_getElem? slot)).2.1 admission loop
      (begun.again member (d.split.nonempty batch (mem_of_getElem? slot))
        (not_lt.mp above) _)
    exact ⟨response, s', standing', fun drain => (arrives drain).trans (answers drain)⟩

/-! ### Replaying what is cached -/

omit standing in
theorem releasedAppend_eq (s : RaftCluster) (target matchIndex : Nat) :
    s.releasedAppend target matchIndex
      = (s.queueFor target).toList.head?.filter fun cached => cached.1 ≤ matchIndex := by
  unfold releasedAppend queueFor
  rcases s.reorderQueues[target]? with _ | queue <;> rfl

theorem released_none
    (later : ∀ i, waiting i → taken < i) {node : Node} (held : s.nodes[d.target]? = some node) :
    s.releasedAppend d.target node.matchIndex = none := by
  obtain ⟨node', held', -, after⟩ := standing.node
  rw [releasedAppend_eq, Option.filter_eq_none_iff]
  rintro ⟨key, cached⟩ isFirst
  obtain ⟨i, batch, waits, slot, starts, -⟩ := (standing.queue key cached).mp
    (mem_toList_iff_getElem?_eq_some.mp (mem_of_mem_head? isFirst))
  have far := d.split.prevIndex_lt slot (later i waits)
  grind [after.ends.matchIndex]

theorem released_next
    (onward : ∀ i, waiting i → taken ≤ i) {node : Node} (held : s.nodes[d.target]? = some node)
    (slot : d.batches[taken]? = some batch) (waits : waiting taken) :
    s.releasedAppend d.target node.matchIndex = some (batch.prevIndex, ⟨batch, []⟩) := by
  obtain ⟨node', held', -, after⟩ := standing.node
  obtain rfl : node' = node := Option.some.inj (held'.symm.trans held)
  have member : (batch.prevIndex, ⟨batch, []⟩) ∈ (s.queueFor d.target).toList :=
    mem_toList_iff_getElem?_eq_some.mpr
      ((standing.queue _ _).mpr ⟨taken, batch, waits, slot, rfl, rfl⟩)
  have least : ∀ cached ∈ (s.queueFor d.target).toList, batch.prevIndex ≤ cached.1 := by
    rintro ⟨key, cached⟩ inQueue
    obtain ⟨i, other, waits', slot', starts, -⟩ := (standing.queue key cached).mp
      (mem_toList_iff_getElem?_eq_some.mp inQueue)
    rcases Nat.eq_or_lt_of_le (onward i waits') with rfl | lt
    · grind
    have := d.split.prevIndex_lt slot' lt
    rw [← d.split.prevIndex_eq slot] at this
    exact starts ▸ this.le
  have sorted := ordered_keys_toList (t := s.queueFor d.target)
  rw [releasedAppend_eq]
  rcases shape : (s.queueFor d.target).toList with _ | ⟨first, rest⟩
  · grind
  rw [shape] at member least sorted
  have isFirst : first = (batch.prevIndex, ⟨batch, []⟩) := by
    rcases mem_cons.mp member with same | behind
    · exact same.symm
    · grind [pairwise_cons]
  simp [isFirst, after.ends.matchIndex, d.split.prevIndex_eq slot]

theorem dropEmpty : Standing d taken waiting (s.dropEmptyReorderQueue d.target) := by
  unfold dropEmptyReorderQueue
  split
  · rename_i empty
    rcases isQueue : s.reorderQueues[d.target]? with _ | queue
    · simp [isQueue] at empty
    have bare : queue.isEmpty = true := by simpa [isQueue] using empty
    refine standing.requeue standing.known fun key cached => ?_
    rw [← standing.queue]
    simp [queueFor, isQueue, getElem?_of_isEmpty bare]
  · exact standing

theorem drain_rest (later : ∀ i, waiting i → taken < i)
    (rounds : Nat) : drainReorderedAppends rounds d.target s
      = (.ok (), s.dropEmptyReorderQueue d.target) := by
  obtain ⟨node, held, -, -⟩ := standing.node
  cases rounds with
  | zero => simp only [drainReorderedAppends, held]
  | succ =>
    simp only [drainReorderedAppends, held, standing.released_none later held]

theorem drain_missing
    (inside : ∀ i, waiting i → taken ≤ i ∧ i < d.batches.length) (missing : ¬ waiting taken)
    (rounds : Nat) :
    ∃ reached s', drainReorderedAppends rounds d.target s = (.ok (), s') ∧ taken ≤ reached ∧
      (∀ i, taken ≤ i → i < reached → waiting i) ∧ ¬ waiting reached ∧
      Standing d reached (fun i => waiting i ∧ reached ≤ i) s' := by
  have later : ∀ i, waiting i → taken < i := by grind
  exact ⟨taken, _, standing.drain_rest later rounds, le_rfl, fun i low high => by omega, missing,
    standing.dropEmpty.congr_waiting fun i =>
      ⟨fun waits => ⟨waits, (inside i waits).1⟩, And.left⟩⟩

theorem size_ne_zero (slot : d.batches[i]? = some batch)
    (waits : waiting i) : (s.queueFor d.target).size ≠ 0 := by
  intro zero
  have empty : (s.queueFor d.target).isEmpty = true := by
    rw [isEmpty_eq_size_eq_zero, zero]
    rfl
  have cached := (standing.queue _ _).mpr ⟨i, batch, waits, slot, rfl, rfl⟩
  grind [getElem?_of_isEmpty]

theorem release (slot : d.batches[taken]? = some batch) (waits : waiting taken) :
    Standing d taken (fun i => waiting i ∧ i ≠ taken)
        (s.takeReorderedAppend d.target batch.prevIndex) ∧
      ((s.takeReorderedAppend d.target batch.prevIndex).queueFor d.target).size + 1
        = (s.queueFor d.target).size := by
  have cached : (s.queueFor d.target)[batch.prevIndex]? = some ⟨batch, []⟩ :=
    (standing.queue _ _).mpr ⟨taken, batch, waits, slot, rfl, rfl⟩
  have queue : (s.takeReorderedAppend d.target batch.prevIndex).queueFor d.target
      = (s.queueFor d.target).erase batch.prevIndex := by
    rw [takeReorderedAppend, queueFor, queueFor, getElem?_modify_self]
    grind
  refine ⟨standing.requeue ?_ fun key other => ?_, ?_⟩
  · exact standing.known.imp_right fun none i waits => none i waits.1
  · change ((s.takeReorderedAppend d.target batch.prevIndex).queueFor d.target)[key]? = _ ↔ _
    rw [queue, getElem?_erase]
    split
    · rename_i here
      have same : batch.prevIndex = key := by simpa using here
      refine iff_of_false (by simp) ?_
      rintro ⟨i, other, ⟨-, apart⟩, slot', starts, -⟩
      exact apart (d.split.position_unique slot' slot (starts.trans same.symm))
    · rw [standing.queue]
      grind
  · grind [standing.size_ne_zero]

end

/-- **Replay.** Every cached batch that continues the log is taken, as far as they reach
without a gap. -/
theorem drain : ∀ (rounds : Nat) {taken : Nat} {waiting : Nat → Prop} {s : RaftCluster},
    Standing d taken waiting s →
    (∀ i, waiting i → taken ≤ i ∧ i < d.batches.length) → (s.queueFor d.target).size ≤ rounds →
    ∃ reached s', drainReorderedAppends rounds d.target s = (.ok (), s') ∧ taken ≤ reached ∧
      (∀ i, taken ≤ i → i < reached → waiting i) ∧ ¬ waiting reached ∧
      Standing d reached (fun i => waiting i ∧ reached ≤ i) s' := by
  intro rounds
  induction rounds with
  | zero =>
    intro taken waiting s standing inside small
    have none : ¬ waiting taken := fun waits =>
      standing.size_ne_zero (getElem?_eq_getElem (inside taken waits).2) waits (by omega)
    exact standing.drain_missing inside none 0
  | succ rounds ih =>
    intro taken waiting s standing inside small
    by_cases waits : waiting taken
    · obtain ⟨batch, slot⟩ : ∃ batch, d.batches[taken]? = some batch :=
        ⟨_, getElem?_eq_getElem (inside taken waits).2⟩
      obtain ⟨node, held, -, -⟩ := standing.node
      obtain ⟨released, size⟩ := standing.release slot waits
      obtain ⟨response, s₁, success, took, ran⟩ := released.next slot
      have enough : (s₁.queueFor d.target).size ≤ rounds := by
        rw [released.size_eq took]
        omega
      obtain ⟨reached, s₂, drained, le, between, stops, rest⟩ := ih took
        (fun i waits => ⟨by have := inside i waits.1; have := waits.2; omega,
          (inside i waits.1).2⟩) enough
      -- what the replay left is at rest, so the loop around it ends
      have again := rest.drain_rest (fun i waits => lt_of_le_of_ne waits.2 (by
        rintro rfl
        exact stops waits.1)) rounds
      refine ⟨reached, s₂.dropEmptyReorderQueue d.target, ?_, by omega, ?_, ?_, ?_⟩
      · simp [drainReorderedAppends, held,
          standing.released_next (fun i waits => (inside i waits).1) held slot waits,
          Attempt.bind_apply, ran, drained, success, again]
      · grind
      · exact fun waits => stops ⟨waits, by omega⟩
      · exact rest.dropEmpty.congr_waiting fun i =>
          ⟨fun waits => ⟨waits.1.1, waits.2⟩, fun waits => ⟨⟨waits.1, by omega⟩, waits.2⟩⟩
    · exact standing.drain_missing inside waits _

end Standing
end Delivery

/-! ## Deliveries -/

namespace RaftCluster

def deliver (target : Nat) (s : RaftCluster) (request : AppendEntriesRequest) : RaftCluster :=
  (appendEntriesTo target request s).2

def deliverAll (target : Nat) (requests : List AppendEntriesRequest) (s : RaftCluster) :
    RaftCluster :=
  requests.foldl (deliver target) s

theorem deliver_eq (target : Nat) (s : RaftCluster) (request : AppendEntriesRequest) :
    s.deliver target request = (appendEntriesWith
      (drainReorderedAppends (s.queueFor target).size target) target request [] s).2 := by
  rw [deliver, appendEntriesTo, appendEntriesWithMembershipChangeIndexesTo, cachedAppends_eq]

theorem deliverAll_keeps {target : Nat} {I : RaftCluster → Prop} :
    ∀ {requests : List AppendEntriesRequest} {s : RaftCluster},
    (∀ request ∈ requests, ∀ s, I s → I (s.deliver target request)) → I s →
    I (deliverAll target requests s)
  | [], _, _, holds => holds
  | request :: rest, s, step, holds =>
    @deliverAll_keeps target I rest (s.deliver target request)
      (fun later member => step later (by simp [member])) (step request (by simp) s holds)

end RaftCluster

namespace Delivery
open RaftCluster
variable {d : Delivery} {seen : Nat → Prop} {s : RaftCluster} {i : Nat}
  {batch : AppendEntriesRequest}

/-- The cluster between two deliveries, when the batches of `seen` have arrived: the target has
taken them up to the first that is missing, and the rest is cached. -/
structure Rest (d : Delivery) (seen : Nat → Prop) (s : RaftCluster) : Prop where
  inside : ∀ i, seen i → i < d.batches.length
  standing : ∃ taken, (∀ i < taken, seen i) ∧ ¬ seen taken ∧
    d.Standing taken (fun i => seen i ∧ taken ≤ i) s

theorem Rest.replay {taken rounds : Nat} (inside : ∀ i, seen i → i < d.batches.length)
    (before : ∀ i < taken, seen i) (standing : d.Standing taken (fun i => seen i ∧ taken ≤ i) s)
    (enough : (s.queueFor d.target).size ≤ rounds) (response : AppendEntriesResponse) :
    d.Rest seen ((drainReorderedAppends rounds d.target >>= fun _ => pure response :
      ClusterM AppendEntriesResponse) s).2 := by
  obtain ⟨reached, s', drained, le, between, stops, standing'⟩ := standing.drain rounds
    (fun i waits => ⟨waits.2, inside i waits.1⟩) enough
  rw [Attempt.bind_apply, drained]
  refine ⟨inside, reached, fun i lt => ?_, fun arrived => stops ⟨arrived, le⟩,
    standing'.congr_waiting fun i => ?_⟩
  all_goals grind

/-- **One delivery.** The batch joins those that have arrived, whichever it is and however often
it came before. -/
theorem Rest.deliver (rest : d.Rest seen s) (slot : d.batches[i]? = some batch) :
    d.Rest (fun k => seen k ∨ k = i) (s.deliver d.target batch) := by
  have inside : ∀ k, seen k ∨ k = i → k < d.batches.length := by
    rintro k (arrived | rfl)
    · exact rest.inside k arrived
    · exact (List.getElem?_eq_some_iff.mp slot).1
  obtain ⟨taken, before, missing, standing⟩ := rest.standing
  rw [deliver_eq]
  rcases lt_trichotomy i taken with early | rfl | ahead
  · -- it was taken before
    have same : ∀ k, seen k ↔ (seen k ∨ k = i) := fun k =>
      ⟨.inl, fun arrived => arrived.elim id fun is => is ▸ before i early⟩
    have unchanged : (fun k => seen k ∨ k = i) = seen := funext fun k => propext (same k).symm
    rw [unchanged]
    rcases standing.again slot early with ⟨response, s', again, ran⟩ | ⟨response, s', again, ran⟩
    · rw [ran]
      exact ⟨rest.inside, taken, before, missing, again⟩
    · rw [ran]
      exact Rest.replay rest.inside before again (standing.size_eq again).le response
  · -- it closes the gap
    obtain ⟨response, s', -, next, ran⟩ := standing.next slot
    rw [ran]
    refine Rest.replay inside (fun k lt => ?_) (next.congr_waiting fun k => ?_)
      (standing.size_eq next).le response
    · grind
    · grind
  · obtain ⟨response, s', standing', ran⟩ := standing.ahead slot ahead
    rw [ran]
    refine ⟨inside, taken, fun k lt => .inl (before k lt), ?_, standing'.congr_waiting fun k => ?_⟩
    all_goals grind

theorem Rest.deliverAll : ∀ {delivered : List AppendEntriesRequest} {seen : Nat → Prop}
    {s : RaftCluster}, d.Rest seen s → (∀ request ∈ delivered, request ∈ d.batches) →
    d.Rest (fun i => seen i ∨ ∃ request ∈ delivered, d.batches[i]? = some request)
      (deliverAll d.target delivered s)
  | [], seen, s, rest, _ => by
    simpa [RaftCluster.deliverAll] using rest
  | request :: later, seen, s, rest, sent => by
    obtain ⟨i, slot⟩ := mem_iff_getElem?.mp (sent request (by simp))
    have all := (rest.deliver slot).deliverAll
      fun other (member : other ∈ later) => sent other (by simp [member])
    have same : (fun k => (seen k ∨ k = i) ∨ ∃ other ∈ later, d.batches[k]? = some other)
        = fun k => seen k ∨ ∃ other ∈ request :: later, d.batches[k]? = some other := by
      funext k
      have here : k = i ↔ d.batches[k]? = some request :=
        ⟨fun is => is ▸ slot, fun slot' => d.split.position_unique slot' slot rfl⟩
      simp only [here, mem_cons, exists_eq_or_imp, or_assoc]
    rw [← same]
    exact all

theorem Rest.complete (rest : d.Rest seen s) (all : ∀ i < d.batches.length, seen i) :
    ∃ node, s.nodes[d.target]? = some node ∧ d.base.After d.batches node := by
  obtain ⟨taken, -, missing, standing⟩ := rest.standing
  obtain ⟨node, held, -, after⟩ := standing.node
  have short : ¬ taken < d.batches.length := fun lt => missing (all taken lt)
  rw [take_of_length_le (not_lt.mp short)] at after
  exact ⟨node, held, after⟩

end Delivery

/-! ## Batches that are turned away -/

namespace RaftCluster
variable {target : Nat} {base : Node} {batches : List AppendEntriesRequest} {s : RaftCluster}
  {batch : AppendEntriesRequest}

theorem deliver_stranger (stranger : ¬ (batch.groupId = s.groupId ∧
      s.knowsLeader batch.leaderId = true ∧ s.currentTerm ≤ batch.term)) :
    s.deliver target batch = s := by grind [deliver_eq, appendEntriesWith]

structure TurnsAway (target : Nat) (base : Node) (batches : List AppendEntriesRequest)
    (s : RaftCluster) : Prop where
  node : ∃ node, s.nodes[target]? = some node ∧ node.log = base.log ∧
    node.commitIndex = base.commitIndex ∧ ∀ batch ∈ batches,
      batch.term < node.hardState.currentTerm ∨
        node.admission (s.installingAt target) batch ≠ .admitted ∧
        node.admission (s.installingAt target) batch ≠ .heartbeat

theorem TurnsAway.of_same {s' : RaftCluster} {node node' : Node}
    (away : TurnsAway target base batches s) (held : s.nodes[target]? = some node)
    (held' : s'.nodes[target]? = some node') (same : node.SameStore node')
    (pipelines : s'.peerPipelines = s.peerPipelines)
    (terms : ∀ batch ∈ batches, batch.term < node.hardState.currentTerm →
      batch.term < node'.hardState.currentTerm) : TurnsAway target base batches s' := by
  obtain ⟨old, isOld, log, commit, turned⟩ := away.node
  obtain rfl : old = node := Option.some.inj (isOld.symm.trans held)
  refine ⟨node', held', same.log.trans log, same.commitIndex.trans commit, fun batch member => ?_⟩
  rw [same.admission, installingAt, pipelines, ← installingAt]
  exact (turned batch member).imp_left (terms batch member)

theorem follows_node {node : Node} (held : s.nodes[target]? = some node) (term leaderId : Nat) :
    ∃ node', (s.observeLeader term leaderId).nodes[target]? = some node' ∧
      node.SameStore node' ∧ node'.hardState = node.hardState ∧
      (s.observeLeader term leaderId).peerPipelines = s.peerPipelines := by
  by_cases known : s.leaderId = some leaderId
  · rw [observeLeader, if_pos known]
    exact ⟨node, held, ⟨.refl node, rfl, rfl⟩, rfl, rfl⟩
  have followed := observeLeader_followed term known
  refine ⟨followedRole leaderId node, ?_, followedRole_same _ _, rfl, followed.peerPipelines⟩
  simp [followed.nodes, held]

theorem TurnsAway.deliver (away : TurnsAway target base batches s) (member : batch ∈ batches)
    (sameTerm : ∀ other ∈ batches, other.term = batch.term) :
    TurnsAway target base batches (s.deliver target batch) := by
  by_cases ready : batch.groupId = s.groupId ∧ s.knowsLeader batch.leaderId = true ∧
      s.currentTerm ≤ batch.term
  · obtain ⟨group, leader, current⟩ := ready
    obtain ⟨node, held, -⟩ := away.node
    obtain ⟨node', observed, same, hardState, pipelines⟩ :=
      follows_node held batch.term batch.leaderId
    have lease := grantLease_same (s.observeLeader batch.term batch.leaderId) target batch
    have held' := observed
    rw [← lease.nodes] at held'
    have followed := away.of_same held held' same (lease.peerPipelines.trans pipelines)
      fun other _ => by rw [hardState]; exact id
    rw [deliver_eq, appendEntriesWith, if_neg (by simpa using group), if_neg (by simpa using leader),
      if_neg (by omega)]
    rw [deliverAppend, held']
    dsimp only
    split_ifs with stale
    · exact followed
    have follows := followRequestTerm_same node' batch.term
    have stored : (modifyNode ((s.observeLeader batch.term batch.leaderId).grantLease target
        batch).2 target fun _ => followRequestTerm node' batch.term).nodes[target]?
        = some (followRequestTerm node' batch.term) := by simp [modifyNode, held']
    have away' := followed.of_same held' stored follows rfl fun other isBatch later => by grind
    obtain ⟨following, isFollowing, -, -, turned⟩ := away'.node
    obtain rfl := Option.some.inj (isFollowing.symm.trans stored)
    have reached : ¬ batch.term < (followRequestTerm node' batch.term).hardState.currentTerm := by
      unfold followRequestTerm
      split <;> simp_all
    obtain ⟨unadmitted, unheard⟩ := (turned batch member).resolve_left reached
    rw [installingAt] at unadmitted unheard
    rw [answerAppend]
    split
    · exact away'
    · exact absurd ‹_› unheard
    · exact away'
    · split
      · exact away'
      rw [cacheReorderedAppend]
      split
      · exact away'
      · exact ⟨away'.node⟩
    all_goals grind
  · rw [deliver_stranger ready]
    exact away

end RaftCluster

/-! ## Any order, any number of times -/

section Order
open RaftCluster
variable {target groupId term leaderId last : Nat} {base : Node}
  {batches delivered : List AppendEntriesRequest} {s : RaftCluster}

theorem SplitAfter.opens (split : SplitAfter groupId term leaderId base.matchIndex batches)
    {installing : Bool} {batch : AppendEntriesRequest} (member : batch ∈ batches)
    (taken : base.admission installing batch = .admitted ∨
      base.admission installing batch = .heartbeat) : installing = false ∧ base.Opens batches := by
  have admits := base.admission_admits installing batch
  rcases taken with admitted | heartbeat
  · have idle : installing = false := by
      cases installing
      · rfl
      · simp [admission] at admitted
    subst idle
    obtain ⟨i, slot⟩ := mem_iff_getElem?.mp member
    refine ⟨rfl, fun first isFirst => ?_⟩
    obtain rfl : i = 0 := by
      by_contra later
      have far := split.prevIndex_lt slot (Nat.pos_of_ne_zero later)
      rcases (admission_admitted admitted).2.2 with zero | ⟨-, -, inside, -⟩
      · omega
      · omega
    rw [head?_eq_getElem?, slot] at isFirst
    grind
  · rw [heartbeat] at admits
    cases admits with
    | heartbeat bare => exact absurd bare.2 (split.nonempty batch member)

/-- **The order of delivery does not matter.** However the consecutive batches of one leader and term
reach a follower, in any order and any number of times, it ends with the log and the commit point
that delivering each once and in order gives: if it has room for a batch of several entries when
those before it are stored, and nothing was cached for it. -/
theorem append_order_irrelevant (follower : s.nodes[target]? = some base) (ends : base.EndsAt last)
    (split : SplitAfter groupId term leaderId last batches)
    (roomy : base.replicaRole.canServeData = true → ∀ i batch, batches[i]? = some batch →
      batch.entries.length ≤ 1 ∨ base.retainedLogBytes + payloadBytes (entriesOf (batches.take i))
        < s.config.maxLogBufferBytes) (fresh : s.cachedAppends target = 0)
    (same : ∀ request, request ∈ delivered ↔ request ∈ batches) :
    ∃ node node', (deliverAll target delivered s).nodes[target]? = some node ∧
      (deliverAll target batches s).nodes[target]? = some node' ∧
      node.log = node'.log ∧ node.commitIndex = node'.commitIndex := by
  obtain rfl := ends.matchIndex
  by_cases ready : groupId = s.groupId ∧ s.knowsLeader leaderId = true ∧ s.currentTerm ≤ term
  · by_cases turned : ∀ batch ∈ batches, batch.term < base.hardState.currentTerm ∨
        base.admission (s.installingAt target) batch ≠ .admitted ∧
        base.admission (s.installingAt target) batch ≠ .heartbeat
    · -- nothing is taken, in whatever order it comes
      have away : TurnsAway target base batches s := ⟨base, follower, rfl, rfl, turned⟩
      have stays : ∀ requests, (∀ request ∈ requests, request ∈ batches) →
          TurnsAway target base batches (deliverAll target requests s) := fun requests sent =>
        deliverAll_keeps (fun request member _ away => away.deliver (sent request member)
          fun other isBatch => (split.sender other isBatch).2.1.trans
            (split.sender request (sent request member)).2.1.symm) away
      obtain ⟨node, held, log, commit, -⟩ := (stays delivered fun r => (same r).mp).node
      obtain ⟨node', held', log', commit', -⟩ := (stays batches fun _ => id).node
      exact ⟨node, node', held, held', log.trans log'.symm, commit.trans commit'.symm⟩
    · push Not at turned
      obtain ⟨batch, member, later, taken⟩ := turned
      obtain ⟨idle, opens⟩ := split.opens member (by tauto)
      let d : Delivery := ⟨target, base, batches, groupId, term, leaderId,
        s.config.maxLogBufferBytes, split, ends, opens, roomy⟩
      have empty : (s.queueFor target).isEmpty = true := by
        rw [isEmpty_eq_size_eq_zero, ← cachedAppends_eq, fresh]
        rfl
      have start : d.Rest (fun _ => False) s := by
        refine ⟨nofun, 0, nofun, id, ready.1.symm, ready.2.1, ready.2.2, .inr fun _ => And.left, idle,
          rfl, Nat.zero_le _, ⟨base, follower, ?_, After.start ends⟩, fun key cached => ?_⟩
        · rw [(split.sender batch member).2.1] at later
          exact later
        · rw [getElem?_of_isEmpty empty]
          simp
      have reaches : ∀ requests, (∀ request, request ∈ requests ↔ request ∈ batches) →
          ∃ node, (deliverAll target requests s).nodes[target]? = some node ∧
            base.After batches node := by
        intro requests sent
        refine (start.deliverAll fun request => (sent request).mp).complete fun i bound =>
          .inr ⟨batches[i], (sent _).mpr (getElem_mem bound), getElem?_eq_getElem bound⟩
      obtain ⟨node, held, after⟩ := reaches delivered same
      obtain ⟨node', held', after'⟩ := reaches batches fun _ => Iff.rfl
      exact ⟨node, node', held, held', after.log.trans after'.log.symm,
        after.commitIndex.trans after'.commitIndex.symm⟩
  · -- a stranger changes nothing
    have stays : ∀ requests, (∀ request ∈ requests, request ∈ batches) →
        deliverAll target requests s = s := fun requests sent =>
      deliverAll_keeps (I := (· = s)) (fun request member s' is => by
        obtain ⟨group, sent, leader⟩ := split.sender request (sent request member)
        rw [is, deliver_stranger (by rw [group, sent, leader]; exact ready)]) rfl
    refine ⟨base, base, ?_, ?_, rfl, rfl⟩
    · rw [stays delivered fun r => (same r).mp]
      exact follower
    · rw [stays batches fun _ => id]
      exact follower

def plainEntry (term index : Nat) : LogEntry := ⟨⟨term, index⟩, [1], true⟩

def plainBatch (term first count leaderCommit : Nat) : AppendEntriesRequest :=
  ⟨1, term, 1, if first = 1 then none else some ⟨term, first - 1⟩,
    (List.range' first count).map (plainEntry term), leaderCommit, 0⟩

/-- The last of three batches comes first, the second twice before the first, the last again. -/
theorem five_entries_in_any_order : ∃ fresh, new 1 Config.default threeVoters = .ok fresh ∧
    ∃ node node', (deliverAll 3 [plainBatch 1 4 2 3, plainBatch 1 3 1 3, plainBatch 1 3 1 3,
        plainBatch 1 1 2 1, plainBatch 1 4 2 3] fresh).nodes[3]? = some node ∧
      (deliverAll 3 [plainBatch 1 1 2 1, plainBatch 1 3 1 3, plainBatch 1 4 2 3] fresh).nodes[3]?
        = some node' ∧ node.log = node'.log ∧ node.commitIndex = node'.commitIndex := by
  refine ⟨_, rfl, append_order_irrelevant rfl
    ⟨List.Pairwise.nil, by decide +kernel, by decide +kernel, nofun⟩
    (show SplitAfter 1 1 1 0 _ by decide) (fun _ => ?_) (by decide +kernel) fun request => ?_⟩
  · rintro (_ | _ | _ | i) batch slot
    · exact .inr (by decide +kernel)
    · exact .inr (by decide +kernel)
    · exact .inr (by decide +kernel)
    · cases slot
  · simp only [mem_cons, not_mem_nil, or_false]
    tauto

/-- The configuration with room for a single byte of log. -/
def tightConfig : Config := { Config.default with maxLogBufferBytes := 1 }

/-- One follower is over its buffer, so a batch of two entries has to come twice; the other has cached
a batch of an earlier term, which stops the replay. -/
theorem order_matters : (∃ fresh s base, new 1 tightConfig threeVoters = .ok fresh ∧
      fresh.deliver 3 (plainBatch 1 1 1 0) = s ∧ s.nodes[3]? = some base ∧ base.EndsAt 1 ∧
      SplitAfter 1 1 1 1 [plainBatch 1 2 2 0] ∧ s.cachedAppends 3 = 0 ∧
      ((deliverAll 3 [plainBatch 1 2 2 0, plainBatch 1 2 2 0] s).nodes[3]?).map log
        ≠ ((deliverAll 3 [plainBatch 1 2 2 0] s).nodes[3]?).map log) ∧
    ∃ fresh s base, new 1 Config.default threeVoters = .ok fresh ∧
      fresh.deliver 3 (plainBatch 1 2 1 0) = s ∧ s.nodes[3]? = some base ∧ base.EndsAt 0 ∧
      SplitAfter 1 2 1 0 [plainBatch 2 1 2 0, plainBatch 2 3 1 0] ∧
      ((deliverAll 3 [plainBatch 2 3 1 0, plainBatch 2 1 2 0] s).nodes[3]?).map log
        ≠ ((deliverAll 3 [plainBatch 2 1 2 0, plainBatch 2 3 1 0] s).nodes[3]?).map log := by
  refine ⟨⟨_, _, _, rfl, rfl, rfl, ⟨?_, by decide +kernel, by decide +kernel, ?_⟩, by decide,
    by decide +kernel, by decide +kernel⟩, _, _, _, rfl, rfl, rfl,
    ⟨List.Pairwise.nil, by decide +kernel, by decide +kernel, nofun⟩, by decide,
    by decide +kernel⟩
  · exact pairwise_singleton _ _
  intro entry member
  obtain rfl := mem_singleton.mp member
  exact le_rfl

end Order
end MatrixRaft
