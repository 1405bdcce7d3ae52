/-
# TermClimb — operations that leave terms, and operations that raise them

`Within` says that no replica, and no append in the cache, is past the cluster's term.
`Lifted` is what the operations that keep the membership do: from within the term, they
reach a state within its term, and neither the cluster's term nor a replica's goes back.
-/
import MatrixRaft.Ballots
import MatrixRaft.OneVote
import MatrixRaft.Operations

namespace MatrixRaft
open Theory Attempt Std.TreeMap

def Node.SameTerm (before after : Node) : Prop :=
  after.hardState.currentTerm = before.hardState.currentTerm

theorem Node.SameTerm.refl (node : Node) : Node.SameTerm node node := Eq.refl _

def Node.TermUp (before after : Node) : Prop :=
  before.hardState.currentTerm ≤ after.hardState.currentTerm

theorem Node.TermUp.refl (node : Node) : Node.TermUp node node := le_refl _

namespace RaftCluster
variable {s s' s'' : RaftCluster}

/-! ## No term moved -/

structure Still (s s' : RaftCluster) : Prop where
  nodes : EachNode Node.SameTerm s s'
  term : s'.currentTerm = s.currentTerm
  cached : ∀ P : Nat → Prop, CachedTerms P s → CachedTerms P s'

variable {f : Node → Node}

namespace Still

theorem of_eq (nodes : s'.nodes = s.nodes) (term : s'.currentTerm = s.currentTerm)
    (queues : s'.reorderQueues = s.reorderQueues) : Still s s' :=
  ⟨EachNode.of_nodes_eq Node.SameTerm.refl nodes, term, fun _ cached => cached.of_eq queues⟩

theorem of_cleared (nodes : s'.nodes = s.nodes) (term : s'.currentTerm = s.currentTerm)
    (queues : s'.reorderQueues = ∅) : Still s s' :=
  ⟨EachNode.of_nodes_eq Node.SameTerm.refl nodes, term, fun _ _ => .of_empty queues⟩

theorem refl (s : RaftCluster) : Still s s := of_eq rfl rfl rfl

theorem trans (first : Still s s') (second : Still s' s'') : Still s s'' where
  nodes := EachNode.trans (fun _ _ _ one two => Eq.trans two one) first.nodes second.nodes
  term := second.term.trans first.term
  cached := fun P held => second.cached P (first.cached P held)

theorem modifyNode {nodeId : Nat}
    (step : ∀ node, s.nodes[nodeId]? = some node → Node.SameTerm node (f node)) :
    Still s (s.modifyNode nodeId f) where
  nodes := EachNode.modifyNode Node.SameTerm.refl step
  term := rfl
  cached := fun _ cached => cached.of_eq rfl

theorem mapNodes (step : ∀ node, Node.SameTerm node (f node)) :
    Still s (s.mapNodes f) :=
  ⟨EachNode.mapNodes step, rfl, fun _ cached => cached.of_eq rfl⟩

theorem of_ballots (kept : KeepsBallots s s') : Still s s' where
  nodes := kept.nodes.mono fun _ _ same => same.term
  term := kept.currentTerm
  cached := fun _ cached => cached.of_eq (congrArg RaftCluster.reorderQueues kept.ballots :)

theorem of_settles (settles : Settles s s') : Still s s' := of_ballots (.of_settles settles)

theorem of_voters (kept : KeepsVoters s s') : Still s s' := of_ballots (.of_voters kept)

end Still

instance : Std.Refl Still := ⟨Still.refl⟩

instance : IsTrans RaftCluster Still := ⟨fun _ _ _ => Still.trans⟩

variable {α : Type}

theorem foldl_still {step : RaftCluster → α → RaftCluster}
    (each : ∀ s x, Still s (step s x)) : ∀ (xs : List α) (s : RaftCluster), Still s (xs.foldl step s)
  | [], s => .refl s
  | x :: xs, s => (each s x).trans (foldl_still each xs (step s x))

/-! ## Within the term -/

structure Within (s : RaftCluster) : Prop where
  nodes : ∀ (nodeId : Nat) (node : Node), s.nodes[nodeId]? = some node →
    node.hardState.currentTerm ≤ s.currentTerm
  cached : CachedTerms (· ≤ s.currentTerm) s

theorem CachedFor.mono {P Q : Nat → AppendEntriesRequest → Prop}
    (weaker : ∀ target request, P target request → Q target request) (cached : CachedFor P s) :
    CachedFor Q s :=
  fun target queue held prev entry slot => weaker _ _ (cached target queue held prev entry slot)

/-- The same replicas: from within the term, terms only went up, and the state reached is
within its term. -/
def Lifted (s s' : RaftCluster) : Prop :=
  Within s → Within s' ∧ s.currentTerm ≤ s'.currentTerm ∧ EachNode Node.TermUp s s'

namespace Lifted

theorem of_still (still : Still s s') : Lifted s s' := by
  intro within
  refine ⟨⟨fun nodeId node' held' => ?_, ?_⟩, still.term.ge, still.nodes.mono fun _ _ => Eq.ge⟩
  · obtain ⟨node, held, same⟩ := still.nodes.back held'
    rw [still.term]
    exact (Eq.le same).trans (within.nodes nodeId node held)
  · rw [still.term]
    exact still.cached _ within.cached

theorem refl (s : RaftCluster) : Lifted s s := of_still (.refl s)

theorem trans (first : Lifted s s') (second : Lifted s' s'') : Lifted s s'' := by
  intro within
  obtain ⟨within', term, nodes⟩ := first within
  obtain ⟨within'', term', nodes'⟩ := second within'
  exact ⟨within'', term.trans term', EachNode.trans (fun _ _ _ => le_trans) nodes nodes'⟩

theorem of_entered (nodes : s'.nodes = (s.mapNodes f).nodes)
    (term : s.currentTerm ≤ s'.currentTerm) (queues : s'.reorderQueues = ∅)
    (entered : ∀ node, (f node).hardState.currentTerm = s'.currentTerm) : Lifted s s' := by
  intro within
  have each : EachNode (fun before after => before.hardState.currentTerm ≤ s.currentTerm →
      before.hardState.currentTerm ≤ after.hardState.currentTerm) s s' := by
    unfold EachNode
    rw [nodes]
    exact EachNode.mapNodes fun node bounded => (bounded.trans term).trans (entered node).ge
  refine ⟨⟨fun nodeId node' held' => ?_, .of_empty queues⟩, term, fun nodeId => ⟨fun node held => ?_,
    (each nodeId).2⟩⟩
  · rw [nodes, RaftCluster.mapNodes, getElem?_map] at held'
    grind
  · obtain ⟨node', held', up⟩ := (each nodeId).1 node held
    exact ⟨node', held', up (within.nodes nodeId node held)⟩

theorem modifyNode {nodeId : Nat} {node : Node}
    (held : s.nodes[nodeId]? = some node) (up : Within s → Node.TermUp node (f node))
    (reached : (f node).hardState.currentTerm ≤ s.currentTerm) : Lifted s (s.modifyNode nodeId f) := by
  intro within
  refine ⟨⟨fun other node' held' => ?_, within.cached.of_eq rfl⟩, le_rfl, ?_⟩
  · rw [RaftCluster.modifyNode, getElem?_modify] at held'
    split at held'
    · rw [held, Option.map_some] at held'
      cases held'
      exact reached
    · exact within.nodes other node' held'
  · grind [EachNode.modifyNode, Node.TermUp.refl]

theorem of_raised (nodes : s'.nodes = s.nodes) (term : s.currentTerm ≤ s'.currentTerm)
    (queues : s'.reorderQueues = s.reorderQueues ∨ s'.reorderQueues = ∅) : Lifted s s' := by
  intro within
  refine ⟨⟨fun nodeId node held => ?_, ?_⟩, term, EachNode.of_nodes_eq Node.TermUp.refl nodes⟩
  · rw [nodes] at held
    exact (within.nodes nodeId node held).trans term
  rcases queues with same | empty
  · exact (within.cached.mono fun _ _ => (le_trans · term)).of_eq same
  · exact .of_empty empty

end Lifted

instance : Std.Refl Lifted := ⟨Lifted.refl⟩

instance : IsTrans RaftCluster Lifted := ⟨fun _ _ _ => Lifted.trans⟩

theorem lifts_of_still {op : ClusterM α} (moves : Moves Still op) : Moves Lifted op :=
  moves.mono fun _ _ => .of_still

theorem lifts_of_settles {op : ClusterM α} {peerId : Nat}
    (moves : Moves (SettlesFor peerId) op) : Moves Lifted op :=
  moves.mono fun _ _ settles => .of_still (.of_settles settles.toSettles)

/-! ## Bookkeeping -/

section
variable (s : RaftCluster)

theorem refreshCommitIndex_still : Still s s.refreshCommitIndex :=
  .of_voters (.refreshCommitIndex s)

theorem refreshClusterIndexes_still : Still s s.refreshClusterIndexes :=
  .of_eq rfl rfl rfl

theorem abortLeaderTransfer_still (reason : String) : Still s (s.abortLeaderTransfer reason).2 := by
  unfold abortLeaderTransfer
  split <;> exact .of_eq rfl rfl rfl

theorem completeLeaderTransfer_still (reason : String) :
    Still s (s.completeLeaderTransfer reason).2 := by
  unfold completeLeaderTransfer
  split <;> exact .of_eq rfl rfl rfl

theorem concludeTransferFor_still (leaderId : Nat) (reason : String) :
    Still s (s.concludeTransferFor leaderId reason) := by
  rw [concludeTransferFor_eq]
  exact .of_eq rfl rfl rfl

end

theorem setNodeHealthy_still (nodeId : Nat) (healthy : Bool) :
    Moves Still (setNodeHealthy nodeId healthy) := by
  intro s
  unfold setNodeHealthy
  split
  · exact .refl s
  have marked : Still s (s.modifyNode nodeId fun node =>
      { node with healthy := healthy, livenessElapsedMs := 0 }) := .modifyNode fun _ _ => Eq.refl _
  split <;> split <;> exact marked.trans (.of_eq rfl rfl rfl)

theorem modifyPipeline_still (s : RaftCluster) (nodeId : Nat)
    (f : ReplicationPipeline → ReplicationPipeline) : Still s (s.modifyPipeline nodeId f) :=
  .of_eq rfl rfl rfl

theorem tickPeerLiveness_still (s : RaftCluster) (elapsedMs : Nat) :
    Still s (s.tickPeerLiveness elapsedMs).2 := by
  unfold tickPeerLiveness
  split
  · exact .refl s
  rename_i leaderId leads
  have ticked : Still s { s with
      nodes := s.nodes.map (tickNodeLiveness leaderId s.peerOfflineTimeoutMs elapsedMs) } := by
    refine ⟨Pointwise.map fun nodeId node _ => ?_, rfl, fun _ cached => cached.of_eq rfl⟩
    unfold tickNodeLiveness
    split
    · split <;> exact Eq.refl _
    · split <;> exact Eq.refl _
  refine Still.trans ?_ (foldl_still (fun s nodeId => modifyPipeline_still s nodeId _) _ _)
  split
  · exact ticked.trans (modifyPipeline_still _ _ _)
  · exact ticked

theorem refreshReplicationPipelines_settles (s : RaftCluster) :
    Settles s s.refreshReplicationPipelines := by
  unfold refreshReplicationPipelines
  split <;> exact .of_core rfl rfl rfl

theorem withPipeline_settles (peerId : Nat) (op : PipelineM α) :
    Moves (SettlesFor peerId) (withPipeline peerId op) := by
  intro s
  unfold withPipeline
  split
  · exact .refl s
  · exact ⟨.of_core rfl rfl rfl, fun other apart => by grind⟩

/-! ## Leases and the witness policy -/

theorem receiveFollowerLeaseItem_settles (s : RaftCluster) (epoch : Nat) :
    Settles s (s.receiveFollowerLeaseItem epoch).2 := by
  unfold receiveFollowerLeaseItem
  split <;> exact .of_core rfl rfl rfl

theorem setFollowerLeaseValid_settles (s : RaftCluster) (valid : Bool) :
    Settles s (s.setFollowerLeaseValid valid) := by
  unfold setFollowerLeaseValid
  split
  · exact receiveFollowerLeaseItem_settles s _
  · exact .of_core rfl rfl rfl

theorem tickFollowerLease_settles (s : RaftCluster) (elapsedMs : Nat) :
    Settles s (s.tickFollowerLease elapsedMs).2 := by
  unfold tickFollowerLease
  split
  · exact .refl s
  · dsimp only
    split <;> exact .of_core rfl rfl rfl

theorem foldl_settles {step : RaftCluster → α → RaftCluster}
    (each : ∀ s x, Settles s (step s x)) :
    ∀ (xs : List α) (s : RaftCluster), Settles s (xs.foldl step s)
  | [], s => .refl s
  | x :: xs, s => (each s x).trans (foldl_settles each xs (step s x))

section
variable (s : RaftCluster)

theorem renewLeaderLeaseFromLiveQuorum_settles : Settles s s.renewLeaderLeaseFromLiveQuorum := by
  unfold renewLeaderLeaseFromLiveQuorum
  split
  · exact .of_core rfl rfl rfl
  split
  · exact .of_core rfl rfl rfl
  have begun := beginLeaderLeaseRenewal_settles s
  split
  · grind
  rename_i reached ran
  rw [ran] at begun
  exact (begun.trans (foldl_settles
    (fun s (node : Node) => recordLeaderLeaseConfirmation_settles s node.id false) _ _)).trans
    (.of_core rfl rfl rfl)

theorem setLeaderLeaseValid_settles (valid : Bool) : Settles s (s.setLeaderLeaseValid valid) := by
  unfold setLeaderLeaseValid
  split
  · exact renewLeaderLeaseFromLiveQuorum_settles s
  · exact .of_core rfl rfl rfl

theorem refreshWitnessCommitQuorumPolicy_still : Still s s.refreshWitnessCommitQuorumPolicy :=
  .of_voters (.refreshWitnessCommitQuorumPolicy s)

theorem setIgnoreWitness_still (ignoreWitness : Bool) :
    Still s (s.setIgnoreWitness ignoreWitness) := by
  unfold setIgnoreWitness
  split
  · exact .refl s
  refine Still.trans ?_ (refreshCommitIndex_still _)
  split
  · refine (Still.trans ?_ (@foldl_still _ removeElectionResponseFrom
      (fun s nodeId => .of_eq rfl rfl rfl) _ _)).trans (.of_eq rfl rfl rfl)
    exact .of_eq rfl rfl rfl
  · exact .of_eq rfl rfl rfl

theorem tickLeaderLease_still (elapsedMs : Nat) : Still s (s.tickLeaderLease elapsedMs).2 := by
  unfold tickLeaderLease
  split
  · exact .of_eq rfl rfl rfl
  refine Still.trans ?_ (refreshWitnessCommitQuorumPolicy_still _)
  exact .of_eq rfl rfl rfl

theorem stepDownLeaderIfLostQuorum_still : Still s s.stepDownLeaderIfLostQuorum.2 := by
  unfold stepDownLeaderIfLostQuorum
  split
  · exact .refl s
  refine (Still.trans ?_ (abortLeaderTransfer_still _ _)).trans (.mapNodes fun node => ?_)
  · exact .of_eq rfl rfl rfl
  · split <;> exact Eq.refl _

theorem witnessQuorumReport_still (acknowledgements : List Nat) :
    Still s (s.witnessQuorumReport acknowledgements).2 :=
  foldl_still (fun s nodeId => modifyPipeline_still s nodeId _) _ _

end

/-! ## Membership changes in flight, apply progress -/

theorem beginPendingMembershipChange_still (logIndex : Nat) :
    Moves Still (beginPendingMembershipChange logIndex) := by
  intro s
  unfold beginPendingMembershipChange
  split
  · exact .refl s
  split
  · exact .refl s
  · split <;> exact .of_eq rfl rfl rfl

theorem beginSavingMembershipChange_still (logIndex : Nat) :
    Moves Still (beginSavingMembershipChange logIndex) := by
  intro s
  unfold beginSavingMembershipChange
  split
  · exact .refl s
  split
  · exact .refl s
  · split <;> exact .of_eq rfl rfl rfl

theorem markMembershipChangeStabled_still (s : RaftCluster) (logIndex : Nat) :
    Still s (s.markMembershipChangeStabled logIndex) := by
  unfold markMembershipChangeStabled
  split <;> exact .of_eq rfl rfl rfl

theorem submitStabledResult_still (firstIndex lastIndex : Option Nat) (stabledIndex : Nat) :
    Moves Still (submitStabledResult firstIndex lastIndex stabledIndex) := by
  intro s
  unfold submitStabledResult
  have stabled : Still s
      (if stabledIndex > 0 then s.markMembershipChangeStabled stabledIndex else s) := by
    split
    · exact markMembershipChangeStabled_still s stabledIndex
    · exact .refl s
  dsimp only
  split
  · split
    · exact .refl s
    · exact stabled.trans (refreshCommitIndex_still _)
  · exact stabled
  · exact .refl s

theorem markApplyTaskInflight_still (nodeId appliedIndex : Nat) :
    Moves Still (markApplyTaskInflight nodeId appliedIndex) := by
  intro s
  unfold markApplyTaskInflight
  split
  · exact .refl s
  split
  · exact .refl s
  split
  · exact .refl s
  · refine Still.trans ?_ (refreshClusterIndexes_still _)
    exact .modifyNode fun _ _ => Eq.refl _

theorem markApplyTaskInflightWithFence_still (nodeId appliedIndex durableCommitIndex : Nat) :
    Moves Still (markApplyTaskInflightWithFence nodeId appliedIndex durableCommitIndex) := by
  intro s
  unfold markApplyTaskInflightWithFence
  split
  · exact .refl s
  split
  · exact .refl s
  · exact markApplyTaskInflight_still nodeId appliedIndex s

/-! ## Transfers, resignation, triggers -/

theorem tickLeaderTransfer_still (s : RaftCluster) : Still s s.tickLeaderTransfer.2 := by
  unfold tickLeaderTransfer
  split
  · exact .refl s
  dsimp only
  split
  · refine Still.trans ?_ (abortLeaderTransfer_still _ _)
    exact .of_eq rfl rfl rfl
  · exact .of_eq rfl rfl rfl

theorem beginLeaderTransfer_still (target : Nat) : Moves Still (beginLeaderTransfer target) := by
  intro s
  unfold beginLeaderTransfer
  split
  · split
    · exact .refl s
    · split <;> exact .of_eq rfl rfl rfl
  · exact .refl s

theorem dropLeadership_still (s : RaftCluster) (reason : String) :
    Still s (s.dropLeadership reason) := by
  unfold dropLeadership
  dsimp only
  refine (Still.trans ?_ (abortLeaderTransfer_still _ _)).trans (.of_cleared rfl rfl rfl)
  exact .of_eq rfl rfl rfl

theorem resignLeader_still : Moves Still resignLeader := by
  intro s
  unfold resignLeader
  split
  · exact .refl s
  split
  · exact .refl s
  rename_i leaderId leads
  split
  · exact dropLeadership_still s _
  rename_i leader held
  have resigned : Still s (s.modifyNode leaderId fun node =>
      if leader.replicaRole.canBeLeader then
        { node with raftRole := .follower, autoPromote := false }
      else node) := .modifyNode fun node _ => by split <;> exact Eq.refl _
  have dropped := resigned.trans (dropLeadership_still _ "resign_leader")
  exact dropped.trans (.of_settles (refreshReplicationPipelines_settles _))

theorem tickSnapshotTrigger_still (s : RaftCluster) : Still s s.tickSnapshotTrigger.2 := by
  unfold tickSnapshotTrigger
  split <;> exact .of_eq rfl rfl rfl

theorem completeSnapshotTrigger_still (snapshotId : SnapshotId) :
    Moves Still (completeSnapshotTrigger snapshotId) := by
  intro s
  unfold completeSnapshotTrigger
  split
  · exact .refl s
  · split <;> exact .of_eq rfl rfl rfl

theorem publishReadySnapshot_still (snapshotMeta : SnapshotMetadata) :
    Moves Still (publishReadySnapshotToWaitingPeers snapshotMeta) := by
  have offered : ∀ leaderId snapshotIndex peerId, Moves Still
      (offerSnapshot leaderId snapshotMeta.snapshotId snapshotIndex peerId) := by
    intro leaderId snapshotIndex peerId s
    unfold offerSnapshot
    split
    · exact .refl s
    · split <;> exact .of_eq rfl rfl rfl
  intro s
  unfold publishReadySnapshotToWaitingPeers
  split
  · exact .refl s
  refine Still.trans ?_ (Moves.forEach _ (fun peerId _ => offered _ _ peerId) _)
  refine .modifyNode fun node _ => ?_
  split <;> exact Eq.refl _

theorem handleSnapshotReady_still (snapshotId : SnapshotId) (success : Bool) :
    Moves Still (handleSnapshotReady snapshotId success) := by
  intro s
  unfold handleSnapshotReady
  split
  · exact .refl s
  split
  · exact .refl s
  split
  · refine Still.trans ?_ (publishReadySnapshot_still _ _)
    exact .of_eq rfl rfl rfl
  · exact .of_eq rfl rfl rfl

theorem compactLogs_still (s : RaftCluster) (logIndex : Nat) (leaderLimit : Option Nat) :
    Still s (s.compactLogsThroughWithLeaderLimit logIndex leaderLimit).2 := by
  unfold compactLogsThroughWithLeaderLimit
  refine Still.trans (.mapNodes fun node => ?_) (refreshClusterIndexes_still _)
  exact congrArg HardState.currentTerm (Node.compactLogThrough_same _ _).hardState

theorem compactLogsWithStorageFence_still (s : RaftCluster) (logIndex : Nat)
    (fence : StorageApplyFence) : Still s (s.compactLogsWithStorageFence logIndex fence).2 := by
  unfold compactLogsWithStorageFence
  split
  · exact .refl s
  split
  · exact .refl s
  · exact compactLogs_still s _ _

theorem releaseMemory_still : Moves Still releaseMemory :=
  releaseMemory_moves fun s index limit => .of_ballots (.releaseThrough s index limit)

theorem recordReplicationTaskResultFor_still (peerId : Nat) (success : Bool) :
    Moves Still (recordReplicationTaskResultFor peerId success) := by
  intro s
  unfold recordReplicationTaskResultFor
  iterate 4
    split
    · exact .refl s
  split
  · rw [bind_pure_state]
    exact .of_settles (withPipeline_settles _ _ s).toSettles
  · rw [bind_pure_state]
    exact .of_settles (@triggerSnapshot_settles peerId s).toSettles

/-! ## Campaigns -/

theorem adoptElection_lifted (cleared : s.reorderQueues = ∅) (nodeId : Nat) (role : StateRole) :
    Lifted s (s.adoptElection nodeId role) :=
  .of_entered rfl le_rfl cleared fun _ => rfl

theorem claimLeadership_lifted (s : RaftCluster) (candidateId : Nat) {nextTerm : Nat}
    (later : s.currentTerm ≤ nextTerm) : Lifted s (s.claimLeadership candidateId nextTerm) := by
  unfold claimLeadership
  dsimp only
  rw [concludeTransferFor_eq]
  exact .of_entered rfl later rfl fun node => rfl

theorem resetReplicationPipelinesForLeader_still (s : RaftCluster) (leaderId : Nat) :
    Still s (s.resetReplicationPipelinesForLeader leaderId) :=
  .of_eq rfl rfl rfl

theorem takeLeadership_lifted (s : RaftCluster) (candidateId : Nat) {nextTerm : Nat}
    (later : s.currentTerm ≤ nextTerm) : Lifted s (s.takeLeadership candidateId nextTerm) :=
  ((claimLeadership_lifted s candidateId later).trans
    (.of_still (refreshWitnessCommitQuorumPolicy_still _))).trans
      (.of_still (resetReplicationPipelinesForLeader_still _ candidateId))

theorem broadcastLeaderNoop_still : Moves Still broadcastLeaderNoop := fun s =>
  .of_voters (.broadcastLeaderNoop s)

theorem campaign_lifted (candidateId : Nat) (forced : Bool) :
    Moves Lifted (campaign candidateId forced) := by
  intro s
  unfold campaign
  iterate 8
    split
    · exact .refl s
  rename_i nextTerm next
  have later : s.currentTerm ≤ nextTerm := by
    unfold checkedAdd at next
    grind
  have taken := takeLeadership_lifted s candidateId later
  split
  · rw [bind_pure_state]
    exact taken.trans (.of_still (broadcastLeaderNoop_still _))
  · exact taken

theorem start_lifted : Moves Lifted start := by
  intro s
  unfold start
  have started : Lifted s { s with running := true } := .of_still (.of_eq rfl rfl rfl)
  dsimp only
  split
  · split
    · exact started
    · exact started.trans (campaign_lifted _ _ _)
  · exact started

theorem finishTransfer_lifted (target : Nat) : Moves Lifted (finishTransfer target) := by
  intro s
  unfold finishTransfer
  split
  · exact .refl s
  · exact .refl s
  · exact Moves.bind (campaign_lifted target true)
      (fun _ elected => .of_still (completeLeaderTransfer_still elected _)) s

theorem transferLeaderOutcome_lifted (target : Nat) :
    Moves Lifted (transferLeaderOutcome target) := by
  refine Moves.bind (lifts_of_still (beginLeaderTransfer_still target)) fun begun => ?_
  split
  · refine Moves.bind (finishTransfer_lifted target) fun done => ?_
    split <;> exact Moves.pure _
  · exact Moves.pure _

theorem transferLeader_lifted (target : Nat) : Moves Lifted (transferLeader target) :=
  Moves.bind (transferLeaderOutcome_lifted target) fun _ => Moves.pure _

theorem tryCompleteLeaderTransfer_lifted : Moves Lifted tryCompleteLeaderTransfer := by
  intro s
  unfold tryCompleteLeaderTransfer
  split
  · exact .refl s
  · exact finishTransfer_lifted _ s

theorem stepDown_lifted (transferee : Option Nat) : Moves Lifted (stepDown transferee) := by
  intro s
  unfold stepDown
  split
  · exact .refl s
  · rw [bind_pure_state]
    exact transferLeader_lifted _ s

theorem timeoutNow_lifted (sender target : Nat) : Moves Lifted (timeoutNow sender target) := by
  intro s
  unfold timeoutNow
  split
  · exact .refl s
  split
  · exact .refl s
  · exact Moves.bind (campaign_lifted target true) (fun _ elected => .refl elected) s

theorem applyFatalEvent_lifted (nodeId : Nat) : Moves Lifted (applyFatalEvent nodeId) := by
  intro s
  unfold applyFatalEvent
  have stepped : Lifted s (if s.leaderId = some nodeId then stepDown none s else (.ok none, s)).2 := by
    split
    · exact stepDown_lifted none s
    · exact .refl s
  have marked := lifts_of_still (setNodeHealthy_still nodeId false)
    (if s.leaderId = some nodeId then stepDown none s else (.ok none, s)).2
  dsimp only
  split <;> rename_i ran <;> rw [ran] at marked <;> exact stepped.trans marked

/-! ## Answers and proposals -/

theorem stepIntoLaterTerm_lifted (s : RaftCluster) {term : Nat} (later : s.currentTerm ≤ term)
    (abortReason : String) : Lifted s (s.stepIntoLaterTerm term abortReason) := by
  unfold stepIntoLaterTerm abortLeaderTransfer
  split <;> exact .of_entered rfl later rfl fun node => rfl

theorem lifted_catchUpRule (peerId : Nat) : CatchUpRule peerId Lifted where
  trans := .trans
  settles := fun settles => .of_still (.of_settles settles.toSettles)
  caughtUp := fun _ _ heldPeer => .of_still (.modifyNode fun found heldFound => by
    obtain rfl := Option.some.inj (heldPeer.symm.trans heldFound)
    exact (Node.SameVoter.caughtUpNode _ _ _).term)
  refresh := fun s => .of_still (refreshClusterIndexes_still s)

theorem catchUpPeerWithReason_lifted (peerId : Nat) (reasonPrefix : String) :
    Moves Lifted (catchUpPeerWithReason peerId reasonPrefix) :=
  catchUpPeerWithReason_moves (lifted_catchUpRule peerId) reasonPrefix

theorem lifted_answerRule (peerId : Nat) (response : AppendEntriesResponse) (recomputes : Bool) :
    AnswerRule peerId response recomputes Lifted where
  trans := .trans
  settles := fun settles => .of_still (.of_settles settles.toSettles)
  laterTerm := fun s later => stepIntoLaterTerm_lifted s later.le _
  retry := fun _ => lifted_catchUpRule peerId
  commit := fun _ s => .of_still (refreshCommitIndex_still s)
  campaign := fun _ _ _ _ => campaign_lifted peerId true _

theorem handleAppendEntriesResponseInner_lifted (localNodeId peerId : Nat)
    (response : AppendEntriesResponse) (recomputes records : Bool) : Moves Lifted
      (handleAppendEntriesResponseInner localNodeId peerId response recomputes records) :=
  handleAppendEntriesResponseInner_moves (lifted_answerRule peerId response recomputes)
    localNodeId records

theorem lifted_proposeRule (leaderId : Nat) (proposal : Proposal) :
    ProposeRule leaderId proposal Lifted where
  trans := .trans
  settles := fun settles => .of_still (.of_settles settles)
  lead := fun _ => .of_still (.modifyNode fun _ _ =>
    congrArg HardState.currentTerm (Node.appendEntry_same _ _).hardState)
  deliver := fun {s nodeId node} renewing _ held => by
    refine deliverProposal_moves (lifted_answerRule nodeId _ false) ?_
    refine .of_still (.modifyNode fun found heldFound => ?_)
    obtain rfl := Option.some.inj (held.symm.trans heldFound)
    exact (Node.SameVoter.receiveProposal _ _).term
  commit := fun s => .of_still (refreshCommitIndex_still s)

theorem proposeWithOptions_lifted (payload : Payload) (options : ProposeOptions) :
    Moves Lifted (proposeWithOptions payload options) :=
  proposeWithOptions_moves
    (fun s index limit => .of_still (.of_ballots (.releaseThrough s index limit)))
    (fun _ _ => .of_still (.of_eq rfl rfl rfl))
    (fun leaderId proposal => replicateProposal_moves (lifted_proposeRule leaderId proposal))
    payload options

theorem proposeMembershipChange_lifted (payload : Payload) :
    Moves Lifted (proposeMembershipChange payload) := by
  intro s
  refine Moves.bind (proposeWithOptions_lifted _ _) (fun logId reached => ?_) s
  split <;> exact .refl reached

theorem handleSnapshotFinishFrom_lifted (peerId : Nat) (accepted : Bool) (committedIndex : Nat) :
    Moves Lifted (handleSnapshotFinishFrom peerId accepted committedIndex) := by
  intro s
  unfold handleSnapshotFinishFrom
  split
  · exact .refl s
  split
  · exact .refl s
  refine Moves.bind (lifts_of_settles (withPipeline_settles _ _)) (fun _ finished => ?_) s
  split
  · split
    · rw [bind_pure_state]
      exact catchUpPeerWithReason_lifted _ _ finished
    · exact .refl finished
  · split
    · rw [bind_pure_state]
      exact lifts_of_settles (@triggerSnapshot_settles peerId) finished
    · exact .refl finished

theorem handleInstallSnapshotResponse_lifted (localNodeId peerId : Nat)
    (response : InstallSnapshotResponse) :
    Moves Lifted (handleInstallSnapshotResponse localNodeId peerId response) := by
  intro s
  unfold handleInstallSnapshotResponse
  split
  · exact .refl s
  split
  · rename_i later
    split
    · exact .refl s
    split
    · exact .refl s
    · exact stepIntoLaterTerm_lifted s later.le _
  · split
    · refine Moves.bind (handleSnapshotFinishFrom_lifted _ _ _) (fun _ finished => ?_) s
      split
      · rw [bind_pure_state]
        exact lifts_of_settles (@triggerSnapshot_settles peerId) finished
      · exact .refl finished
    · exact .refl s

theorem recordNetworkErrorFor_lifted (peerId : Nat) :
    Moves Lifted (recordNetworkErrorFor peerId) := by
  refine Moves.bind (lifts_of_settles (withPipeline_settles _ _)) fun probes => ?_
  intro reached
  dsimp only
  split
  · rw [bind_pure_state]
    exact catchUpPeerWithReason_lifted _ _ reached
  · exact .refl reached

theorem learnerCatchUpLoop_lifted (learnerId : Nat) :
    Moves Lifted (learnerCatchUpLoop learnerId) := by
  intro s
  unfold learnerCatchUpLoop
  split
  · exact .refl s
  split
  · exact .refl s
  · exact catchUpPeerWithReason_lifted _ _ s

theorem catchUpChunks_lifted : ∀ (rounds : Nat) (nodeIds : List Nat),
    Moves Lifted (catchUpChunks rounds nodeIds)
  | 0, _ => Moves.pure _
  | rounds + 1, nodeIds => by
    intro s
    unfold catchUpChunks
    split
    · exact .refl s
    refine Moves.bind (Moves.forEach _ fun peerId _ => ?_)
      (fun _ => catchUpChunks_lifted rounds _) s
    exact Moves.bind (catchUpPeerWithReason_lifted peerId "").settle
      fun _ => Moves.pure _

end RaftCluster
end MatrixRaft
