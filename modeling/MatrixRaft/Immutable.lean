/-
# Immutable — committed entries under appends and proposals

An append never overwrites a committed slot, provided the log it lands in has no gap: a
replica whose log counts up from one keeps every committed entry through any append request
and the replays it releases.  Proposals keep the logs gap-free only while the leader itself
holds the last index; a leader that lags appends past a gap.
-/
import MatrixRaft.AppendRule
import MatrixRaft.ProposeRule

namespace MatrixRaft
open Theory List Attempt RaftCluster Numbered

def AppendEntriesRequest.Fits (request : AppendEntriesRequest) : Prop :=
  request.prevIndex + request.entries.length ≤ u64Max

instance (request : AppendEntriesRequest) : Decidable request.Fits :=
  inferInstanceAs (Decidable (_ ≤ _))

namespace Node
variable {node before middle after : Node}

/-! ## Gap-free replicas -/

/-- A gap-free log from index one, with nothing compacted into a snapshot. -/
structure Plain (node : Node) : Prop where
  numbered : node.NumberedFrom 1
  snapshot : node.installedSnapshot = none
  bounded : node.log.length ≤ u64Max

namespace Plain

theorem snapshotIndex (plain : node.Plain) : node.snapshotIndex = 0 := by
  simp [Node.snapshotIndex, plain.snapshot]

theorem lastLogIndex (plain : node.Plain) : node.lastLogIndex = node.log.length := by
  grind [lastLogIndex_eq_zero, plain.numbered.lastLogIndex]

theorem matchIndex_of_data (plain : node.Plain) (data : node.replicaRole ≠ .witness) :
    node.matchIndex = node.log.length := by
  rw [matchIndex, if_neg data, plain.snapshotIndex, plain.lastLogIndex, max_eq_left (by omega)]

theorem of_quiet (plain : before.Plain) (quiet : Quiet before after) : after.Plain where
  numbered := by
    rw [NumberedFrom, quiet.log]
    exact plain.numbered
  snapshot := quiet.installedSnapshot.trans plain.snapshot
  bounded := by
    rw [quiet.log]
    exact plain.bounded

theorem of_members (numbered : node.NumberedFrom 1) (snapshot : node.installedSnapshot = none)
    (small : ∀ entry ∈ node.log, entry.index ≤ u64Max) : node.Plain where
  numbered := numbered
  snapshot := snapshot
  bounded := by
    rcases Nat.eq_zero_or_pos node.log.length with empty | positive
    · omega
    obtain ⟨last, member, index⟩ := exists_mem (k := node.log.length) numbered positive
      (by omega)
    exact index ▸ small last member

theorem intact (plain : before.Plain) (plain' : after.Plain)
    (commit : before.commitIndex ≤ after.commitIndex)
    (kept : ∀ entry ∈ before.log, entry.index ≤ before.commitIndex → entry ∈ after.log) :
    Intact before after :=
  plain.numbered.ordered.intact plain'.numbered.ordered commit kept

theorem advanceCommit (plain : node.Plain) (commitIndex : Nat) :
    (node.advanceCommit commitIndex).Plain ∧ Intact node (node.advanceCommit commitIndex) := by
  have plain' : (node.advanceCommit commitIndex).Plain := by
    refine ⟨?_, ?_, ?_⟩
    · rw [NumberedFrom, advanceCommit_log]
      exact plain.numbered
    · simpa using plain.snapshot
    · rw [advanceCommit_log]
      exact plain.bounded
  grind [advanceCommit_commitIndex, advanceCommit_log, plain.intact]

end Plain

/-! ## Append requests -/

/-- **Admitted requests** keep the committed part of a gap-free log, and the log gap-free. -/
theorem Plain.takeEntries (plain : node.Plain) {request : AppendEntriesRequest}
    {installing : Bool} (fits : request.Fits)
    (admitted : node.admission installing request = .admitted) (context : AppendContext)
    {progress : AppendProgress} (quiet : Quiet node progress.node) :
    (AppendProgress.takeEntries context request.entries progress).1.node.Plain ∧
      Intact node (AppendProgress.takeEntries context request.entries progress).1.node := by
  obtain ⟨above, placed, prev⟩ := admission_admitted admitted
  have sent := (misplacedEntry_eq_none_iff _ _ fits).mp placed
  have reached : request.prevIndex ≤ node.log.length := by
    rcases prev with zero | ⟨term, -, -, known⟩
    · omega
    rcases plain.numbered.ordered.logTermAt_eq_some known with ⟨zero, -⟩ | snapshot | held
    · omega
    · grind [plain.snapshot]
    obtain ⟨entry, member, index, -⟩ := held
    have := (bounds plain.numbered member).2
    omega
  have start := plain.of_quiet quiet
  have spliced := @AppendProgress.takeEntries_splices context 1 request.entries progress
    (request.prevIndex + 1) sent ⟨start.numbered, by omega, by rw [quiet.log]; omega,
      by rw [start.snapshotIndex]; omega, by rw [quiet.commitIndex]; omega⟩
  have plain' : (AppendProgress.takeEntries context request.entries progress).1.node.Plain := by
    refine .of_members spliced.numbered
      (spliced.same.installedSnapshot.trans start.snapshot) fun entry member => ?_
    rcases AppendProgress.takeEntries_origin request.entries progress member with old | new
    · have := (bounds start.numbered old).2
      have := start.bounded
      omega
    · obtain ⟨origin, memberOrigin, stores⟩ := new
      have := (bounds sent memberOrigin).2
      have index : entry.index = origin.index := congrArg LogId.index stores.logId
      unfold AppendEntriesRequest.Fits at fits
      omega
  have kept := start.intact plain' spliced.same.commitIndex.ge fun entry member committed =>
    spliced.mem_of_lt start.numbered member (by rw [quiet.commitIndex] at committed; omega)
  exact ⟨plain', (Intact.of_quiet quiet).trans kept⟩

theorem plain_appendRule : NodeAppendRule (fun node node' => node.Plain → node'.Plain ∧
    Intact node node') AppendEntriesRequest.Fits where
  quiet := fun quiet plain => ⟨plain.of_quiet quiet, .of_quiet quiet⟩
  trans := fun one two plain => ⟨(two (one plain).1).1, (one plain).2.trans (two (one plain).1).2⟩
  heartbeat := fun _ _ plain => plain.advanceCommit _
  refused := fun fits admitted quiet _ _ plain => plain.takeEntries fits admitted _ quiet
  taken := fun fits admitted quiet _ _ plain => by
    obtain ⟨plain', kept⟩ := plain.takeEntries fits admitted _ quiet
    obtain ⟨plain'', kept'⟩ := plain'.advanceCommit _
    exact ⟨plain'', kept.trans kept'⟩

/-! ## One entry of the leader's -/

theorem Plain.appendEntry (plain : node.Plain) {entry : LogEntry} (small : entry.index ≤ u64Max)
    (low : 1 ≤ entry.index) (high : entry.index ≤ node.log.length + 1) :
    (node.appendEntry entry).Plain ∧ Intact node (node.appendEntry entry) ∧
      entry.index ≤ (node.appendEntry entry).log.length := by
  obtain ⟨spliced, past⟩ := appendEntry_splices plain.numbered low (by omega)
  have plain' : (node.appendEntry entry).Plain := by
    refine .of_members spliced.numbered
      (spliced.same.installedSnapshot.trans plain.snapshot) fun found member => ?_
    rcases mem_of_mem_appendEntry member with old | rfl
    · have := (bounds plain.numbered old).2
      have := plain.bounded
      omega
    · exact small
  grind [plain.intact, spliced.same.commitIndex,
    plain.numbered.ordered.mem_appendEntry_of_committed]

/-- A gap-free replica that acknowledges no more than it holds. -/
structure Steady (node : Node) : Prop extends Plain node where
  acknowledged : node.replicaRole = .witness → node.witnessAckIndex ≤ node.log.length

structure Took (node : Node) (entry : LogEntry) (after : Node) : Prop where
  steady : after.Steady
  kept : Intact node after
  past : entry.index ≤ after.log.length
  acks : after.replicaRole = .witness → after.witnessAckIndex = entry.index

namespace Steady

theorem matchIndex_le (steady : node.Steady) : node.matchIndex ≤ node.log.length := by
  by_cases witness : node.replicaRole = .witness
  · rw [matchIndex, if_pos witness]
    exact steady.acknowledged witness
  · exact (steady.matchIndex_of_data witness).le

theorem of_quiet (steady : before.Steady) (quiet : Quiet before after) : after.Steady where
  toPlain := steady.toPlain.of_quiet quiet
  acknowledged := fun witness => by
    rw [quiet.witnessAckIndex, quiet.log]
    exact steady.acknowledged (quiet.witness_iff.mp witness)

theorem advanceCommit (steady : node.Steady) (commitIndex : Nat) :
    (node.advanceCommit commitIndex).Steady ∧ Intact node (node.advanceCommit commitIndex) := by
  obtain ⟨plain, kept⟩ := steady.toPlain.advanceCommit commitIndex
  refine ⟨⟨plain, fun witness => ?_⟩, kept⟩
  rw [advanceCommit_witnessAckIndex, advanceCommit_log]
  exact steady.acknowledged (by rwa [advanceCommit_replicaRole] at witness)

theorem appendEntry (steady : node.Steady) (data : node.replicaRole ≠ .witness)
    {entry : LogEntry} (small : entry.index ≤ u64Max) (low : 1 ≤ entry.index)
    (high : entry.index ≤ node.log.length + 1) :
    (node.appendEntry entry).Steady ∧ Intact node (node.appendEntry entry) ∧
      entry.index ≤ (node.appendEntry entry).log.length := by
  obtain ⟨plain, kept, past⟩ := steady.toPlain.appendEntry small low high
  refine ⟨⟨plain, fun witness => absurd ?_ data⟩, kept, past⟩
  rwa [(appendEntry_same node entry).replicaRole] at witness

theorem appendNext (steady : node.Steady) {entry : LogEntry} (small : entry.index ≤ u64Max)
    (next : entry.index = node.log.length + 1) :
    (node.appendEntry entry).Steady ∧ Intact node (node.appendEntry entry) := by
  obtain ⟨plain, kept, past⟩ := steady.toPlain.appendEntry small (by omega) (by omega)
  refine ⟨⟨plain, fun witness => ?_⟩, kept⟩
  rw [(appendEntry_same node entry).replicaRole] at witness
  have := steady.acknowledged witness
  rw [appendEntry_witnessAckIndex]
  omega

theorem appendWitnessEntry (steady : node.Steady) {entry : LogEntry} (small : entry.index ≤ u64Max)
    (low : 1 ≤ entry.index) (high : entry.index ≤ node.log.length + 1)
    (behind : node.replicaRole = .witness → node.witnessAckIndex ≤ entry.index)
    (preservePayload : Bool) : Took node entry (node.appendWitnessEntry entry preservePayload) := by
  have same := acknowledgeWitnessIndex_same node entry.index
  have log := acknowledgeWitnessIndex_log node entry.index
  have plain : (node.acknowledgeWitnessIndex entry.index).Plain := by
    refine ⟨?_, same.installedSnapshot.trans steady.snapshot, ?_⟩
    · rw [NumberedFrom, log]
      exact steady.numbered
    · rw [log]
      exact steady.bounded
  have acknowledged : Intact node (node.acknowledgeWitnessIndex entry.index) :=
    steady.toPlain.intact plain same.commitIndex.ge fun held member _ => by rwa [log]
  obtain ⟨plain', kept, past⟩ := @Plain.appendEntry _ plain (witnessEntry entry preservePayload)
    small low (by rw [log]; exact high)
  have acks : (node.appendWitnessEntry entry preservePayload).replicaRole = .witness →
      (node.appendWitnessEntry entry preservePayload).witnessAckIndex = entry.index := by
    grind [(appendWitnessEntry_same node entry preservePayload).replicaRole,
      Node.appendWitnessEntry, appendEntry_witnessAckIndex, acknowledgeWitnessIndex]
  exact ⟨⟨plain', fun witness => (acks witness).trans_le past⟩, acknowledged.trans kept, past,
    acks⟩

end Steady

/-! ## Catching up -/

theorem Plain.entriesAfter (plain : node.Plain) (index : Nat) :
    Numbered LogEntry.index (satAdd index 1) (entriesAfter node index) ∧
      ∀ entry ∈ entriesAfter node index, entry.index ≤ u64Max := by
  have copied : RaftCluster.entriesAfter node index
      = node.log.filter fun entry => decide (satAdd index 1 ≤ entry.index) :=
    plain.numbered.ordered.logPositionAtOrAfter_drop _
  have positive : 1 ≤ satAdd index 1 := by
    unfold satAdd u64Max
    omega
  rw [copied]
  refine ⟨filter_ge plain.numbered positive, fun entry member => ?_⟩
  have := (bounds plain.numbered (mem_filter.mp member).1).2
  have := plain.bounded
  omega

theorem Steady.appendCatchUpEntry (steady : node.Steady) {entry : LogEntry}
    (small : entry.index ≤ u64Max) (low : 1 ≤ entry.index)
    (high : entry.index ≤ node.log.length + 1)
    (behind : node.replicaRole = .witness → node.witnessAckIndex ≤ entry.index) :
    Took node entry (RaftCluster.appendCatchUpEntry node entry) := by
  unfold RaftCluster.appendCatchUpEntry
  split
  · exact steady.appendWitnessEntry small low high behind _
  rename_i data
  obtain ⟨steady', kept, past⟩ := steady.appendEntry data small low high
  refine ⟨steady', kept, past, fun witness => absurd ?_ data⟩
  rwa [(appendEntry_same node entry).replicaRole] at witness

theorem Steady.appendCatchUpEntries : ∀ (entries : List LogEntry) (node : Node) (start : Nat),
    node.Steady → Numbered LogEntry.index start entries →
    (∀ entry ∈ entries, entry.index ≤ u64Max) → 1 ≤ start → start ≤ node.log.length + 1 →
    (node.replicaRole = .witness → node.witnessAckIndex ≤ start) →
    (entries.foldl RaftCluster.appendCatchUpEntry node).Steady ∧
      Intact node (entries.foldl RaftCluster.appendCatchUpEntry node)
  | [], node, _, steady, _, _, _, _, _ => ⟨steady, .refl node⟩
  | entry :: rest, node, start, steady, placed, small, low, high, behind => by
    have index : entry.index = start := placed 0 entry rfl
    obtain ⟨steady', kept, past, acks⟩ := @Steady.appendCatchUpEntry _ steady entry
      (small entry (by simp)) (by omega) (by omega) (by rwa [index])
    obtain ⟨steady'', kept'⟩ := appendCatchUpEntries rest
      (RaftCluster.appendCatchUpEntry node entry) (start + 1) steady' placed.tail
      (fun later member => small later (by simp [member])) (by omega) (by omega)
      (fun witness => by have := acks witness; omega)
    exact ⟨steady'', kept.trans kept'⟩

/-- **Catching up** a steady replica from a gap-free leader keeps what it committed. -/
theorem Steady.caughtUpNode {leader peer : Node} (leads : leader.Plain) (steady : peer.Steady)
    (commitIndex : Nat) : (caughtUpNode leader peer commitIndex).Steady ∧
      Intact peer (caughtUpNode leader peer commitIndex) := by
  have adopted : adoptLeaderSnapshot leader peer = peer := by
    simp [adoptLeaderSnapshot, leads.snapshot]
  obtain ⟨placed, small⟩ := leads.entriesAfter peer.matchIndex
  have acked := steady.matchIndex_le
  have bounded := steady.bounded
  have copied := appendCatchUpEntries (entriesAfter leader peer.matchIndex) peer _
    steady placed small (by unfold satAdd u64Max; omega) (by unfold satAdd; omega) (by
      intro witness
      rw [matchIndex, if_pos witness] at acked ⊢
      unfold satAdd
      omega)
  unfold RaftCluster.caughtUpNode
  rw [adopted]
  obtain ⟨steady', kept⟩ := copied.1.advanceCommit (min commitIndex
    ((entriesAfter leader peer.matchIndex).foldl RaftCluster.appendCatchUpEntry
      peer).matchIndex)
  exact ⟨steady', copied.2.trans kept⟩

theorem Steady.receiveProposal (steady : node.Steady) {proposal : Proposal}
    (small : proposal.entry.index ≤ u64Max) (low : 1 ≤ proposal.entry.index) :
    (receiveProposal proposal node).Steady ∧ Intact node (receiveProposal proposal node) := by
  unfold RaftCluster.receiveProposal
  split
  · rename_i contiguous
    have acked := steady.matchIndex_le
    have bounded := steady.bounded
    have high : proposal.entry.index ≤ node.log.length + 1 := by
      rw [← contiguous]
      exact (satAdd_le _ _).trans (by omega)
    split
    · have data : node.replicaRole ≠ .witness := by grind [ReplicaRole.canServeData]
      obtain ⟨steady', kept, -⟩ := steady.appendEntry data small low high
      exact ⟨steady', kept⟩
    · split
      · obtain ⟨steady', kept, -⟩ := steady.appendWitnessEntry small low high (by
          intro witness
          rw [matchIndex, if_pos witness] at acked contiguous
          unfold satAdd at contiguous
          omega) proposal.isMembershipChange
        exact ⟨steady', kept⟩
      · exact ⟨steady, .refl node⟩
  · exact ⟨steady, .refl node⟩

end Node

namespace RaftCluster
variable {s s' s'' : RaftCluster}

/-! ## A round of a proposal -/

/-- No transfer is in flight and every replica is steady. -/
structure Ready (s : RaftCluster) : Prop where
  idle : s.activeLeaderTransfer = none
  steady : ∀ (nodeId : Nat) (node : Node), s.nodes[nodeId]? = some node → node.Steady

/-- From a ready cluster: it stays ready, keeps what each replica committed, leaves the
logs of the `untouched` replicas alone, and caches nothing. -/
def Round (untouched : Nat → Prop) (s s' : RaftCluster) : Prop :=
  Ready s → Ready s' ∧
    Pointwise (fun nodeId before after => Node.Intact before after ∧
      (untouched nodeId → after.log = before.log)) s.nodes s'.nodes ∧
    (s'.reorderQueues = s.reorderQueues ∨ s'.reorderQueues = ∅)

namespace Round
variable {untouched : Nat → Prop}

theorem trans (first : Round untouched s s') (second : Round untouched s' s'') :
    Round untouched s s'' := by
  intro ready
  obtain ⟨ready', moved, queues⟩ := first ready
  obtain ⟨ready'', moved', queues'⟩ := second ready'
  refine ⟨ready'', moved.trans (fun _ _ _ _ one two => ⟨one.1.trans two.1, fun apart =>
    (two.2 apart).trans (one.2 apart)⟩) moved', ?_⟩
  grind

theorem mono {untouched' : Nat → Prop} (fewer : ∀ nodeId, untouched' nodeId → untouched nodeId)
    (round : Round untouched s s') : Round untouched' s s' := by
  intro ready
  obtain ⟨ready', moved, queues⟩ := round ready
  exact ⟨ready', moved.mono fun nodeId _ _ kept => ⟨kept.1, fun apart =>
    kept.2 (fewer nodeId apart)⟩, queues⟩

theorem of_each (idle : s'.activeLeaderTransfer = s.activeLeaderTransfer ∨
      s'.activeLeaderTransfer = none)
    (each : EachNode (fun node node' => node.Steady → node'.Steady ∧ Node.Intact node node' ∧
      node'.log = node.log) s s')
    (queues : s'.reorderQueues = s.reorderQueues ∨ s'.reorderQueues = ∅) :
    Round untouched s s' := by
  intro ready
  refine ⟨⟨?_, fun nodeId node' held => ?_⟩, fun nodeId => ⟨fun node held => ?_,
    (each nodeId).2⟩, queues⟩
  · rcases idle with same | none
    · exact same.trans ready.idle
    · exact none
  · obtain ⟨node, before, step⟩ := each.back held
    exact (step (ready.steady nodeId node before)).1
  · obtain ⟨node', held', step⟩ := (each nodeId).1 node held
    obtain ⟨-, kept, log⟩ := step (ready.steady nodeId node held)
    exact ⟨node', held', kept, fun _ => log⟩

theorem of_bookkeeping (kept : Bookkeeping s s')
    (queues : s'.reorderQueues = s.reorderQueues ∨ s'.reorderQueues = ∅) : Round untouched s s' :=
  of_each kept.transfer (kept.nodes.mono fun _ _ quiet steady =>
    ⟨steady.of_quiet quiet, .of_quiet quiet, quiet.log⟩) queues

theorem of_settles (settles : Settles s s') : Round untouched s s' :=
  of_bookkeeping settles.bookkeeping (.inl settles.reorderQueues)

theorem refl (s : RaftCluster) : Round untouched s s := of_settles (.refl s)

theorem modifyNode {nodeId : Nat} {f : Node → Node} (touched : ¬ untouched nodeId)
    (step : ∀ node, s.nodes[nodeId]? = some node → node.Steady →
      (f node).Steady ∧ Node.Intact node (f node)) : Round untouched s (s.modifyNode nodeId f) := by
  intro ready
  have moved : Pointwise (fun key before after => (before.Steady → after.Steady) ∧
      Node.Intact before after ∧ (untouched key → after.log = before.log)) s.nodes
      (s.modifyNode nodeId f).nodes := by
    refine Pointwise.modify (fun _ node => ⟨id, .refl node, fun _ => rfl⟩) fun node held => ?_
    obtain ⟨steady, kept⟩ := step node held (ready.steady nodeId node held)
    grind
  refine ⟨⟨ready.idle, fun key node' held => ?_⟩, moved.mono fun _ _ _ kept => kept.2, .inl rfl⟩
  obtain ⟨node, before, steady, -⟩ := moved.back held
  exact steady (ready.steady key node before)

theorem refreshClusterIndexes (s : RaftCluster) : Round untouched s s.refreshClusterIndexes :=
  of_each (.inl rfl) (EachNode.of_nodes_eq (fun node steady => ⟨steady, .refl node, rfl⟩) rfl)
    (.inl rfl)

theorem refreshCommitIndex (s : RaftCluster) : Round untouched s s.refreshCommitIndex := by
  rcases refreshCommitIndex_cases s with same | ⟨commitIndex, eq⟩
  · rw [same]
    exact .refl s
  rw [eq]
  refine Round.trans ?_ (refreshClusterIndexes _)
  refine of_each (.inl rfl) (Pointwise.map fun _ node _ steady => ?_) (.inl rfl)
  dsimp only
  split
  · obtain ⟨steady', kept⟩ := steady.advanceCommit commitIndex
    exact ⟨steady', kept, Node.advanceCommit_log _ _⟩
  · exact ⟨steady, .refl node, rfl⟩

end Round

theorem round_answerRule (peerId : Nat) (response : AppendEntriesResponse) :
    AnswerRule peerId response false (fun s s' => Round (· ≠ peerId) s s') where
  trans := .trans
  settles := fun settles => .of_settles settles.toSettles
  laterTerm := fun s _ => by
    obtain ⟨kept, queues⟩ := stepIntoLaterTerm_bookkeeping s response.term
      "append_response_high_term"
    exact .of_bookkeeping kept (.inr queues)
  retry := fun _ =>
    { trans := .trans
      settles := fun settles => .of_settles settles.toSettles
      caughtUp := fun {s leaderId leader peer} _ heldLeader heldPeer ready =>
        Round.modifyNode (by simp) (fun found heldFound steady => by
          obtain rfl := Option.some.inj (heldPeer.symm.trans heldFound)
          exact steady.caughtUpNode (ready.steady leaderId leader heldLeader).toPlain _) ready
      refresh := .refreshClusterIndexes }
  commit := fun recomputes => by cases recomputes
  campaign := fun {s transfer} _ active _ _ ready => by grind [ready.idle]

section Turn
variable {leaderId : Nat} {proposal : Proposal} {renewing : Bool}
  (small : proposal.entry.index ≤ u64Max) (low : 1 ≤ proposal.entry.index)

include small low

theorem proposeToNode_round {nodeId : Nat}
    (leads : nodeId = leaderId → ∀ leader, s.nodes[nodeId]? = some leader →
      proposal.entry.index = leader.log.length + 1) :
    Round (· ≠ nodeId) s (proposeToNode leaderId proposal renewing nodeId s).2 := by
  refine proposeToNode_turn .trans (fun settles => .of_settles settles.toSettles) (fun isLeader => ?_)
    fun _ held => deliverProposal_moves (round_answerRule nodeId _) ?_
  · refine Round.modifyNode (by simp) fun leader heldLeader steady => ?_
    grind [steady.appendNext]
  · refine Round.modifyNode (by simp) fun found heldFound steady => ?_
    grind [steady.receiveProposal]

/-- **A round.** The replicas in turn, each once. -/
theorem proposeToNodes_round : ∀ (nodeIds : List Nat) (s : RaftCluster), nodeIds.Nodup →
    (leaderId ∈ nodeIds → ∀ leader, s.nodes[leaderId]? = some leader →
      proposal.entry.index = leader.log.length + 1) → Round (· ∉ nodeIds) s
      (Attempt.forEach (proposeToNode leaderId proposal renewing) nodeIds s).2
  | [], s, _, _ => .refl s
  | nodeId :: rest, s, distinct, leads => by
    have turn := @proposeToNode_round s leaderId proposal renewing small low nodeId
      (by rintro rfl; exact leads (by simp))
    have apart : ∀ key, key ∉ nodeId :: rest → key ≠ nodeId :=
      fun key outside same => outside (by simp [same])
    unfold Attempt.forEach
    rw [bind_apply]
    split
    · rename_i reached ran
      rw [ran] at turn
      intro ready
      -- the leader's log is as it was unless this was its turn
      have rest_round := proposeToNodes_round rest reached
        (nodup_cons.mp distinct).2 (by
          intro later leader' held'
          have other : leaderId ≠ nodeId := by grind
          obtain ⟨leader, held, -, log⟩ := (turn ready).2.1.back held'
          rw [log other]
          exact leads (by simp [later]) leader held)
      have outside : ∀ key, key ∉ nodeId :: rest → key ∉ rest :=
        fun key outside inside => outside (by simp [inside])
      exact Round.trans (turn.mono apart) (rest_round.mono outside) ready
    · rename_i error reached ran
      rw [ran] at turn
      exact turn.mono apart

theorem replicateProposal_round (leads : ∀ leader, s.nodes[leaderId]? = some leader →
      proposal.entry.index = leader.log.length + 1) :
    Round (fun _ => False) s (replicateProposal leaderId proposal s).2 := by
  have : Std.Refl (Round fun _ => False) := ⟨Round.refl⟩
  have : IsTrans RaftCluster (Round fun _ => False) := ⟨fun _ _ _ => Round.trans⟩
  unfold replicateProposal
  dsimp only
  have renewed := openRenewal_settles s leaderId
  generalize (if s.beginLeaderLeaseRenewal.1 = true then
      s.beginLeaderLeaseRenewal.2.recordLeaderLeaseConfirmationInner leaderId false
    else s.beginLeaderLeaseRenewal.2) = begun at renewed ⊢
  have round := @proposeToNodes_round leaderId proposal s.beginLeaderLeaseRenewal.1 small low
    s.nodes.keys begun (nodup_keys s) (by
      intro _ leader' held'
      obtain ⟨leader, held, quiet⟩ := renewed.calm.back held'
      rw [quiet.log]
      exact leads leader held)
  refine Round.trans (.of_settles renewed) (moved_bind (round.mono fun _ no => no.elim)
    fun _ => Attempt.Moves.bind (Attempt.Moves.update .refreshCommitIndex) fun _ =>
      Attempt.Moves.bind (Attempt.Moves.update fun reached => ?_) fun _ => Attempt.Moves.pure _)
  split
  · exact .of_settles (.of_core rfl rfl rfl)
  · exact .refl reached

end Turn

structure Sound (s : RaftCluster) : Prop where
  idle : s.activeLeaderTransfer = none
  plain : ∀ (nodeId : Nat) (node : Node), s.nodes[nodeId]? = some node → node.Plain
  cached : Cached AppendEntriesRequest.Fits s

/-! ## Runs of appends and proposals -/

/-- An append request handed to one replica, or a proposal to the leader. -/
inductive Call where
  | append (target : Nat) (request : AppendEntriesRequest) (membershipChangeIndexes : List Nat)
  | propose (payload : Payload) (options : ProposeOptions)

namespace Call

def run : Call → RaftCluster → RaftCluster
  | append target request changes, s =>
    (appendEntriesWithMembershipChangeIndexesTo target request changes s).2
  | propose payload options, s => (proposeWithOptions payload options s).2

def LeavesNoGap (s : RaftCluster) : Call → Prop
  | append _ request _ => request.Fits
  | propose _ _ =>
    (s.leader?.all fun leader => leader.lastLogIndex = s.lastLogIndex) ∧
    s.shouldReleaseMemory = false ∧ s.isBusy = false ∧
    ∀ node ∈ s.members, node.replicaRole = .witness → node.witnessAckIndex ≤ node.lastLogIndex

instance (s : RaftCluster) : (call : Call) → Decidable (call.LeavesNoGap s)
  | append _ _ _ => inferInstanceAs (Decidable (AppendEntriesRequest.Fits _))
  | propose _ _ => inferInstanceAs (Decidable (_ ∧ _ ∧ _ ∧ ∀ node ∈ s.members, _ → _))

def runs (s : RaftCluster) (calls : List Call) : RaftCluster := calls.foldl (fun s call => call.run s) s

def LeaveNoGap : RaftCluster → List Call → Prop
  | _, [] => True
  | s, call :: rest => call.LeavesNoGap s ∧ LeaveNoGap (call.run s) rest

instance decidableLeaveNoGap : (s : RaftCluster) → (calls : List Call) → Decidable (LeaveNoGap s calls)
  | _, [] => inferInstanceAs (Decidable True)
  | s, call :: rest =>
    have := decidableLeaveNoGap (call.run s) rest
    inferInstanceAs (Decidable (call.LeavesNoGap s ∧ LeaveNoGap (call.run s) rest))

end Call

/-- What every replica committed is still there, in place. -/
def Immutable (s s' : RaftCluster) : Prop := EachNode Node.Intact s s'

theorem Immutable.refl (s : RaftCluster) : Immutable s s := EachNode.refl Node.Intact.refl s

theorem Immutable.trans (first : Immutable s s') (second : Immutable s' s'') : Immutable s s'' :=
  EachNode.trans (fun _ _ _ => Node.Intact.trans) first second

def committedEntry (s : RaftCluster) (nodeId index : Nat) : Option LogEntry :=
  (s.nodes[nodeId]?).bind fun node => if index ≤ node.commitIndex then node.entryAt index else none

theorem Immutable.committedEntry_eq (kept : Immutable s s') (nodeId index : Nat) (entry : LogEntry)
    (found : s.committedEntry nodeId index = some entry) :
    s'.committedEntry nodeId index = some entry := by
  obtain ⟨node, held, entryFound⟩ := Option.bind_eq_some_iff.mp found
  split at entryFound
  · rename_i committed
    obtain ⟨node', held', intact⟩ := (kept nodeId).1 node held
    refine Option.bind_eq_some_iff.mpr ⟨node', held', ?_⟩
    rw [if_pos (committed.trans intact.commit)]
    exact intact.entries index committed entry entryFound
  · cases entryFound

theorem Sound.append (sound : Sound s) {request : AppendEntriesRequest} (fits : request.Fits)
    (target : Nat) (changes : List Nat) : Sound ((Call.append target request changes).run s) ∧
      Immutable s ((Call.append target request changes).run s) := by
  obtain ⟨cached, each, idle⟩ :=
    appendEntries_delivers Node.plain_appendRule.lift fits target changes s sound.cached
  refine ⟨⟨idle sound.idle, fun nodeId node' held => ?_, cached⟩, fun nodeId =>
    ⟨fun node held => ?_, (each nodeId).2⟩⟩
  · obtain ⟨node, before, step⟩ := each.back held
    exact (step (sound.plain nodeId node before)).1
  · obtain ⟨node', held', step⟩ := (each nodeId).1 node held
    exact ⟨node', held', (step (sound.plain nodeId node held)).2⟩

theorem Sound.propose (sound : Sound s) {payload : Payload} {options : ProposeOptions}
    (tight : (Call.propose payload options).LeavesNoGap s) :
    Sound ((Call.propose payload options).run s) ∧
      Immutable s ((Call.propose payload options).run s) := by
  obtain ⟨atEnd, unpressed, spare, acknowledged⟩ := tight
  have ready : Ready s := ⟨sound.idle, fun nodeId node held =>
    ⟨sound.plain nodeId node held, fun witness => by
      rw [← (sound.plain nodeId node held).lastLogIndex]
      grind [mem_members]⟩⟩
  have round : Round (fun _ => False) s (proposeWithOptions payload options s).2 := by
    unfold proposeWithOptions
    split
    · exact .refl s
    rename_i leaderId leader admitted
    obtain ⟨leads, held⟩ := proposingLeader_eq_ok admitted
    rw [bind_ok (makeRoom_eq unpressed spare)]
    split
    · exact .refl s
    rename_i index next
    have isNext := nextLogIndex_eq_ok next
    have ends : leader.log.length = s.lastLogIndex := by
      rw [← (sound.plain leaderId leader held).lastLogIndex]
      simpa [leader?, leads, held] using atEnd
    have registered : Round (fun _ => False) s
        (s.registerProposal (s.mintProposal payload options leader.safetyAppliedIndex index)) :=
      .of_each (.inl rfl) (EachNode.of_nodes_eq (fun node steady =>
        ⟨steady, .refl node, rfl⟩) rfl) (.inl rfl)
    refine registered.trans (replicateProposal_round (isNext.2) ?_ fun found heldFound => ?_)
    · exact isNext.1 ▸ Nat.le_add_left 1 _
    · obtain rfl := Option.some.inj (held.symm.trans heldFound)
      exact isNext.1.trans (by rw [ends])
  obtain ⟨ready', moved, queues⟩ := round ready
  refine ⟨⟨ready'.idle, fun nodeId node held => (ready'.steady nodeId node held).toPlain, ?_⟩,
    moved.mono fun _ _ _ kept => kept.1⟩
  rcases queues with same | empty
  · exact sound.cached.of_eq same
  · exact .of_empty empty

theorem Sound.run (sound : Sound s) {call : Call} (tight : call.LeavesNoGap s) :
    Sound (call.run s) ∧ Immutable s (call.run s) := by
  cases call with
  | append target request changes => exact sound.append tight target changes
  | propose => exact sound.propose tight

theorem Sound.runs : ∀ (calls : List Call) (s : RaftCluster), Sound s → Call.LeaveNoGap s calls →
    Sound (Call.runs s calls) ∧ Immutable s (Call.runs s calls)
  | [], s, sound, _ => ⟨sound, .refl s⟩
  | call :: rest, s, sound, tight => by
    obtain ⟨sound', kept⟩ := sound.run tight.1
    obtain ⟨sound'', kept'⟩ := Sound.runs rest (call.run s) sound' tight.2
    exact ⟨sound'', kept.trans kept'⟩

/-! ## A cluster that has just started -/

/-- Nothing has been appended or cached. -/
structure Blank (s : RaftCluster) : Prop where
  idle : s.activeLeaderTransfer = none
  queues : s.reorderQueues = ∅
  lastLogIndex : s.lastLogIndex = 0
  nodes : ∀ (nodeId : Nat) (node : Node), s.nodes[nodeId]? = some node →
    node.log = [] ∧ node.installedSnapshot = none ∧ node.witnessAckIndex = 0

namespace Blank
section
variable (blank : Blank s)

include blank

theorem steady {nodeId : Nat} {node : Node}
    (held : s.nodes[nodeId]? = some node) : node.Steady := by
  obtain ⟨log, snapshot, acknowledged⟩ := blank.nodes nodeId node held
  refine ⟨⟨?_, snapshot, by simp [log]⟩, fun _ => by simp [acknowledged]⟩
  rw [Node.NumberedFrom, log]
  exact nil _ _

theorem sound : Sound s :=
  ⟨blank.idle, fun _ _ held => (blank.steady held).toPlain, .of_empty blank.queues⟩

theorem of_bookkeeping (kept : Bookkeeping s s') (queues : s'.reorderQueues = ∅) : Blank s' where
  idle := kept.idle blank.idle
  queues := queues
  lastLogIndex := kept.lastLogIndex.trans blank.lastLogIndex
  nodes := fun nodeId node' held => by
    obtain ⟨node, before, quiet⟩ := kept.nodes.back held
    grind [blank.nodes, quiet.log, quiet.installedSnapshot, quiet.witnessAckIndex]

theorem refreshCommitIndex : Blank s.refreshCommitIndex := by
  rcases refreshCommitIndex_cases s with same | ⟨commitIndex, eq⟩
  · rw [same]
    exact blank
  have nodes : ∀ (nodeId : Nat) (node : Node),
      (advanceHealthy { s with commitIndex := commitIndex }).nodes[nodeId]? = some node →
      node.log = [] ∧ node.installedSnapshot = none ∧ node.witnessAckIndex = 0 := by
    intro nodeId node held
    obtain ⟨old, before, rfl⟩ : ∃ old, s.nodes[nodeId]? = some old ∧
        (if old.healthy then old.advanceCommit commitIndex else old) = node := by
      grind [advanceHealthy, mapNodes]
    split
    · simpa using blank.nodes nodeId old before
    · exact blank.nodes nodeId old before
  rw [eq]
  refine ⟨blank.idle, blank.queues, Nat.le_zero.mp ?_, nodes⟩
  refine refreshClusterIndexes_lastLogIndex_le fun nodeId node held => ?_
  grind [Node.matchIndex, Node.lastLogIndex, Node.snapshotIndex]

theorem takeLeadership (candidateId nextTerm : Nat) :
    Blank (s.takeLeadership candidateId nextTerm) := by
  have queues : (s.claimLeadership candidateId nextTerm).reorderQueues = ∅ := by
    simp [claimLeadership, adoptElection, mapNodes, invalidateFollowerLease,
      resetLeaderLeaseEpoch, clearReorderQueues]
  have claimed := blank.of_bookkeeping (claimLeadership_bookkeeping s candidateId nextTerm) queues
  have flagged : ∀ counts, Blank { s.claimLeadership candidateId nextTerm with
      countWitnessInCommitQuorum := counts } := fun counts =>
    claimed.of_bookkeeping ⟨.of_eq rfl, rfl, rfl, .inl rfl, rfl, rfl, rfl⟩ queues
  have decided : Blank (s.claimLeadership candidateId nextTerm).refreshWitnessCommitQuorumPolicy := by
    obtain ⟨counts, same | recomputed⟩ :=
      refreshWitnessCommitQuorumPolicy_cases (s.claimLeadership candidateId nextTerm)
    · grind
    · rw [recomputed]
      exact (flagged counts).refreshCommitIndex
  exact decided.of_bookkeeping ⟨.of_eq rfl, rfl, rfl, .inl rfl, rfl, rfl, rfl⟩ decided.queues

theorem broadcastLeaderNoop : Sound (broadcastLeaderNoop s).2 := by
  unfold RaftCluster.broadcastLeaderNoop
  split
  · exact blank.sound
  · exact blank.sound
  rename_i leaderId index leads next
  have first : index = 1 := by
    simp [nextLogIndex, checkedAdd, blank.lastLogIndex, u64Max] at next
    exact next.symm
  refine ⟨blank.idle, fun nodeId node held => ?_, .of_empty blank.queues⟩
  obtain ⟨old, before, rfl⟩ : ∃ old, s.nodes[nodeId]? = some old ∧
      receiveNoop leaderId ⟨⟨s.currentTerm, index⟩, noopPayload, false⟩ old = node := by
    grind [mapNodes, refreshClusterIndexes]
  have steady := blank.steady before
  obtain ⟨log, -, acknowledged⟩ := blank.nodes nodeId old before
  have small : index ≤ u64Max := by rw [first]; decide
  have appended : (old.appendEntry ⟨⟨s.currentTerm, index⟩, noopPayload, false⟩).Plain :=
    (steady.appendNext small (by rw [log]; exact first)).1.toPlain
  unfold receiveNoop
  split
  · exact appended
  split
  · split
    · exact appended
    · split
      · refine (@Node.Steady.appendWitnessEntry _ steady
          ⟨⟨s.currentTerm, index⟩, noopPayload, false⟩ small ?_ ?_ (fun _ => ?_) false).1.toPlain
        all_goals grind
      · exact steady.toPlain
  · exact steady.toPlain

theorem campaign (candidateId : Nat) (forced : Bool) : Sound (campaign candidateId forced s).2 := by
  unfold RaftCluster.campaign
  iterate 8
    split
    · exact blank.sound
  rename_i nextTerm _
  have led := blank.takeLeadership candidateId nextTerm
  split
  · rw [bind_pure_state]
    exact led.broadcastLeaderNoop
  · exact led.sound

theorem start : Sound (start s).2 := by
  have started : Blank { s with running := true } :=
    ⟨blank.idle, blank.queues, blank.lastLogIndex, blank.nodes⟩
  unfold RaftCluster.start
  dsimp only
  split
  · split
    · exact started.sound
    · exact started.campaign _ true
  · exact started.sound

end
end Blank

theorem new_blank {groupId : Nat} {config : Config} {peers : List Peer}
    (created : new groupId config peers = .ok s) : Blank s := by
  have each := @new_members groupId config peers s created
    (fun _ node => node.log = [] ∧ node.installedSnapshot = none ∧ node.witnessAckIndex = 0)
    fun _ => ⟨rfl, rfl, rfl⟩
  obtain ⟨nodes, -, rfl, -⟩ := new_eq created
  exact ⟨rfl, rfl, rfl, each⟩

/-- **Committed entries are immutable** in every run from a fresh cluster whose requests fit the index
type and whose proposals find the leader at the end of the log: commit points do not go back, and
every entry at or below them is found unchanged. -/
theorem committed_immutable {groupId : Nat} {config : Config} {peers : List Peer}
    {fresh : RaftCluster} (created : new groupId config peers = .ok fresh)
    (earlier later : List Call) (tight : Call.LeaveNoGap (start fresh).2 (earlier ++ later)) :
    Immutable (Call.runs (start fresh).2 earlier) (Call.runs (start fresh).2 (earlier ++ later)) := by
  have split : ∀ (calls : List Call) (s : RaftCluster), Call.LeaveNoGap s (calls ++ later) →
      Call.LeaveNoGap s calls ∧ Call.LeaveNoGap (Call.runs s calls) later := by
    intro calls
    induction calls with
    | nil => exact fun s tight => ⟨trivial, tight⟩
    | cons call rest ih => exact fun s tight => ⟨⟨tight.1, (ih _ tight.2).1⟩, (ih _ tight.2).2⟩
  obtain ⟨before, after⟩ := split earlier _ tight
  obtain ⟨sound, -⟩ := Sound.runs earlier _ (new_blank created).start before
  have kept := (Sound.runs later _ sound after).2
  rwa [Call.runs, Call.runs, foldl_append]

section Runs

def fourVoters : List Peer := votersOf [1, 2, 3, 4]

def emptyEntry (term index : Nat) : LogEntry := ⟨⟨term, index⟩, [], true⟩

def appendCall (target leaderId term : Nat) (prev : LogId) (entries : List LogEntry)
    (leaderCommit : Nat) : Call :=
  .append target ⟨1, term, leaderId, some prev, entries, leaderCommit, 0⟩ []

/-- A proposal, and the next entry handed to a follower twice. -/
theorem committed_immutable_three_calls : ∃ fresh, new 1 Config.default fourVoters = .ok fresh ∧
    Immutable (Call.runs (start fresh).2 [.propose [7] .default])
      (Call.runs (start fresh).2 ([.propose [7] .default] ++
        [appendCall 2 1 1 ⟨1, 2⟩ [emptyEntry 1 3] 2, appendCall 2 1 1 ⟨1, 2⟩ [emptyEntry 1 3] 3])) :=
  ⟨_, rfl, @committed_immutable 1 Config.default fourVoters _ rfl _ _ (by decide +kernel)⟩

/-- A lagging leader proposes past a gap twice, so that its log no longer rises; a later append takes
the committed entry 4 away. -/
theorem committed_entry_lost : ∃ fresh, new 1 Config.default fourVoters = .ok fresh ∧
    ∃ earlier later : List Call, ¬ Immutable (Call.runs (start fresh).2 earlier)
      (Call.runs (start fresh).2 (earlier ++ later)) := by
  refine ⟨_, rfl,
    [ appendCall 3 4 2 ⟨1, 1⟩ [emptyEntry 2 2] 0,
      .propose [] .default,
      appendCall 3 4 2 ⟨2, 3⟩ [emptyEntry 2 4, emptyEntry 2 5, emptyEntry 2 6] 0,
      .propose [] .default,
      appendCall 4 1 3 ⟨2, 3⟩
        [emptyEntry 3 4, emptyEntry 3 5, emptyEntry 3 6, emptyEntry 3 7, emptyEntry 3 8] 4 ],
    [appendCall 4 1 4 ⟨3, 4⟩ [emptyEntry 4 5] 4], fun kept => ?_⟩
  have lost := kept.committedEntry_eq 4 4 (emptyEntry 3 4) (by decide +kernel)
  revert lost
  decide +kernel

end Runs
end RaftCluster
end MatrixRaft
