/-
# AnswerRule — a rule for catching a peer up and for its answers

Around the copy itself, `catch_up_peer` and `handle_append_entries_response` only keep
books.  A relation between clusters that contains the bookkeeping, and the few steps that
touch a log, an aggregate or the leadership, contains the whole operation.
-/
import MatrixRaft.EachNode

namespace MatrixRaft.RaftCluster
open Theory Attempt.Moves Attempt RaftCluster
variable {s s' s'' : RaftCluster}

/-! ## Bookkeeping around the logs -/

def core (s : RaftCluster) : RaftCluster :=
  { s with
    nodes := ∅
    peerPipelines := ∅
    leaderLeaseValid := false
    leaderLeaseExpired := false
    leaderLeaseElapsedMs := 0
    leaderLeaseEpoch := 0
    leaderLeaseConfirmations := ∅
    leaderLeaseConfirmationEpochs := ∅
    followerLeaseValid := false
    followerLeaseElapsedMs := 0
    followerLeaseDurationMs := 0
    followerLeaseEpoch := 0
    snapshotTrigger := none
    duplicateSnapshotTriggerRequests := 0 }

/-- Every replica is calm, the core is untouched, and a new snapshot trigger asks for the
commit point. -/
structure Settles (s s' : RaftCluster) : Prop where
  calm : CalmNodes s s'
  core : s'.core = s.core
  trigger : s'.snapshotTrigger = s.snapshotTrigger ∨ ∃ trigger, s'.snapshotTrigger = some trigger ∧
    trigger.snapshotMeta.lastLogId.index = s.commitIndex

namespace Settles

theorem of_nodes (calm : CalmNodes s s') (core : s'.core = s.core)
    (trigger : s'.snapshotTrigger = s.snapshotTrigger) : Settles s s' :=
  ⟨calm, core, .inl trigger⟩

theorem of_core (nodes : s'.nodes = s.nodes) (core : s'.core = s.core)
    (trigger : s'.snapshotTrigger = s.snapshotTrigger) : Settles s s' :=
  of_nodes (.of_eq nodes) core trigger

theorem refl (s : RaftCluster) : Settles s s := .of_core rfl rfl rfl

section
variable (settles : Settles s s')
include settles

theorem commitIndex : s'.commitIndex = s.commitIndex :=
  (congrArg RaftCluster.commitIndex settles.core :)

theorem reorderQueues : s'.reorderQueues = s.reorderQueues :=
  (congrArg RaftCluster.reorderQueues settles.core :)

theorem activeLeaderTransfer : s'.activeLeaderTransfer = s.activeLeaderTransfer :=
  (congrArg RaftCluster.activeLeaderTransfer settles.core :)

theorem bookkeeping : Bookkeeping s s' where
  nodes := settles.calm.quiet
  lastLogIndex := (congrArg lastLogIndex settles.core :)
  commitIndex := settles.commitIndex
  transfer := .inl settles.activeLeaderTransfer
  config := (congrArg config settles.core :)
  running := (congrArg running settles.core :)
  pendingSnapshots := (congrArg pendingSnapshots settles.core :)

end

theorem trans (first : Settles s s') (second : Settles s' s'') : Settles s s'' where
  calm := EachNode.trans (fun _ _ _ => Node.Calm.trans) first.calm second.calm
  core := second.core.trans first.core
  trigger := by
    rcases second.trigger with same | ⟨trigger, set, index⟩
    · rw [same]
      exact first.trigger
    · exact .inr ⟨trigger, set, index.trans first.commitIndex⟩

end Settles

structure SettlesFor (peerId : Nat) (s s' : RaftCluster) : Prop extends Settles s s' where
  others : ∀ other, other ≠ peerId → s'.peerPipelines[other]? = s.peerPipelines[other]?

namespace SettlesFor
variable {peerId : Nat}

theorem of_settles (settles : Settles s s') (pipelines : s'.peerPipelines = s.peerPipelines) :
    SettlesFor peerId s s' :=
  ⟨settles, fun other _ => by rw [pipelines]⟩

theorem of_core (nodes : s'.nodes = s.nodes) (core : s'.core = s.core)
    (trigger : s'.snapshotTrigger = s.snapshotTrigger)
    (pipelines : s'.peerPipelines = s.peerPipelines) : SettlesFor peerId s s' :=
  of_settles (.of_core nodes core trigger) pipelines

theorem refl (s : RaftCluster) : SettlesFor peerId s s := .of_core rfl rfl rfl rfl

theorem trans (first : SettlesFor peerId s s') (second : SettlesFor peerId s' s'') :
    SettlesFor peerId s s'' :=
  ⟨first.toSettles.trans second.toSettles, fun other apart =>
    (second.others other apart).trans (first.others other apart)⟩

end SettlesFor

theorem modifyNode_settles {nodeId : Nat} {f : Node → Node}
    (step : ∀ node, s.nodes[nodeId]? = some node → Node.Calm node (f node)) :
    Settles s (s.modifyNode nodeId f) :=
  .of_nodes (EachNode.modifyNode Node.Calm.refl step) rfl rfl

theorem SettlesFor.modifyNode {peerId nodeId : Nat} {f : Node → Node}
    (step : ∀ node, s.nodes[nodeId]? = some node → Node.Calm node (f node)) :
    SettlesFor peerId s (s.modifyNode nodeId f) :=
  .of_settles (modifyNode_settles step) rfl

theorem modifyPipeline_settles (s : RaftCluster) (nodeId : Nat)
    (f : ReplicationPipeline → ReplicationPipeline) :
    SettlesFor nodeId s (s.modifyPipeline nodeId f) :=
  ⟨.of_core rfl rfl rfl, fun other apart => by grind [modifyPipeline]⟩

theorem markPeerActive_settles (nodeId : Nat) :
    Moves (SettlesFor nodeId) (markPeerActive nodeId) := by
  intro s
  unfold markPeerActive
  split
  · exact .refl s
  · refine SettlesFor.trans ?_ (modifyPipeline_settles _ _ _)
    exact .modifyNode fun node _ => .of_same rfl rfl rfl rfl rfl rfl rfl fun _ => rfl

theorem promotePeer_settles (nodeId : Nat) {peerId : Nat} :
    Moves (SettlesFor peerId) (promotePeer nodeId) := by
  intro s
  unfold promotePeer
  split
  · exact .refl s
  split
  · exact .refl s
  rename_i node held
  split
  · exact .refl s
  rename_i learner
  split
  · exact .refl s
  refine SettlesFor.trans (.modifyNode fun found heldFound => ?_) (.of_core rfl rfl rfl rfl)
  obtain rfl := Option.some.inj (held.symm.trans heldFound)
  exact ⟨⟨rfl, rfl, rfl, rfl, rfl, .inr ⟨not_not.mp learner, rfl⟩⟩, rfl, rfl,
    fun well => well⟩

theorem promoteCaughtUpAutoLearner_settles (learnerId : Nat) {peerId : Nat} :
    Moves (SettlesFor peerId) (promoteCaughtUpAutoLearner learnerId) := by
  intro s
  unfold promoteCaughtUpAutoLearner
  split
  · exact .refl s
  split
  · refine SettlesFor.trans ?_ (promotePeer_settles learnerId _)
    exact .modifyNode fun node _ => .of_same rfl rfl rfl rfl rfl rfl rfl fun well => well
  · exact .refl s

theorem maybeAutoPromoteZeroLagLearner_settles (learnerId : Nat) {peerId : Nat} :
    Moves (SettlesFor peerId) (maybeAutoPromoteZeroLagLearner learnerId) := by
  intro s
  unfold maybeAutoPromoteZeroLagLearner
  split
  · exact .refl s
  split
  · split
    · exact .modifyNode fun node _ => .of_same rfl rfl rfl rfl rfl rfl rfl fun well => well
    · exact promotePeer_settles learnerId s
  · exact .refl s

theorem triggerSnapshot_settles {peerId : Nat} : Moves (SettlesFor peerId) triggerSnapshot := by
  intro s
  unfold triggerSnapshot
  split
  · exact .refl s
  split
  · exact .of_core rfl rfl rfl rfl
  · exact .of_settles ⟨.of_eq rfl, rfl, .inr ⟨_, rfl, rfl⟩⟩ rfl

theorem triggerNewSnapshot_settles (peerId requiredSnapshotIndex : Nat) : Moves (SettlesFor peerId)
      (triggerNewSnapshotIfLeaderSnapshotIsStale peerId requiredSnapshotIndex) := by
  intro s
  unfold triggerNewSnapshotIfLeaderSnapshotIsStale
  split
  · exact .refl s
  split
  · exact .refl s
  split
  · rw [bind_pure_state]
    exact (modifyPipeline_settles _ _ _).trans (triggerSnapshot_settles _)
  · exact modifyPipeline_settles _ _ _

section
variable (s : RaftCluster)

theorem receiveLeaderLeaseConfirmation_settles (nodeId confirmationEpoch durationMs : Nat) (recomputeQuorum : Bool) {peerId : Nat} :
    SettlesFor peerId s (s.receiveLeaderLeaseConfirmationInner nodeId confirmationEpoch durationMs
      recomputeQuorum).2 := by
  have stored : ∀ role, SettlesFor peerId s (s.storeLeaseConfirmation nodeId role confirmationEpoch
      durationMs) := by
    intro role
    unfold storeLeaseConfirmation
    dsimp only
    split
    · exact .of_core rfl rfl rfl rfl
    · split <;> exact .of_core rfl rfl rfl rfl
  unfold receiveLeaderLeaseConfirmationInner
  iterate 4
    split
    · exact .refl s
  split
  · exact (stored _).trans (.of_core rfl rfl rfl rfl)
  · exact stored _

theorem recordLeaderLeaseConfirmation_settles (nodeId : Nat) (recomputeQuorum : Bool) :
    Settles s (s.recordLeaderLeaseConfirmationInner nodeId recomputeQuorum) :=
  (@receiveLeaderLeaseConfirmation_settles s _ _ _ _ nodeId).toSettles

theorem confirmLease_settles (peerId : Nat) (response : AppendEntriesResponse)
    (recomputeAggregates recordLeaseConfirmation : Bool) :
    SettlesFor peerId s (s.confirmLease peerId response recomputeAggregates recordLeaseConfirmation) := by
  unfold confirmLease
  split
  · exact receiveLeaderLeaseConfirmation_settles s _ _ _ _
  split
  · exact receiveLeaderLeaseConfirmation_settles s _ _ _ _
  · exact .refl s

theorem stepIntoLaterTerm_bookkeeping (term : Nat) (abortReason : String) :
    Bookkeeping s (s.stepIntoLaterTerm term abortReason) ∧
      (s.stepIntoLaterTerm term abortReason).reorderQueues = ∅ := by
  have aborted : ∀ s : RaftCluster, Bookkeeping s (s.abortLeaderTransfer abortReason).2 ∧
      (s.abortLeaderTransfer abortReason).2.reorderQueues = s.reorderQueues := by
    intro s
    unfold abortLeaderTransfer
    split
    · exact ⟨.refl s, rfl⟩
    · exact ⟨⟨.of_eq rfl, rfl, rfl, .inr rfl, rfl, rfl, rfl⟩, rfl⟩
  have adopted : Bookkeeping s (s.adoptLaterTerm term) :=
    ⟨.of_eq rfl, rfl, rfl, .inl rfl, rfl, rfl, rfl⟩
  obtain ⟨ended, queues⟩ := aborted (s.adoptLaterTerm term)
  refine ⟨(adopted.trans ended).trans ⟨?_, rfl, rfl, .inl rfl, rfl, rfl, rfl⟩, queues⟩
  exact QuietNodes.mapNodes fun node => ⟨rfl, rfl, rfl, rfl, rfl, .inl rfl⟩

theorem observeAnsweringPeer_settles (localNodeId peerId : Nat) :
    SettlesFor peerId s (s.observeAnsweringPeer localNodeId peerId) := by
  refine .modifyNode fun node _ => ?_
  split
  · exact .of_same rfl rfl rfl rfl rfl rfl rfl fun well => well
  split
  · exact .of_same rfl rfl rfl rfl rfl rfl rfl fun well => well
  · exact .refl node

end

/-! ## Catching a peer up -/

structure CatchUpRule (peerId : Nat) (M : RaftCluster → RaftCluster → Prop) : Prop where
  trans : ∀ {first second third}, M first second → M second third → M first third
  settles : ∀ {s s'}, SettlesFor peerId s s' → M s s'
  caughtUp : ∀ {s : RaftCluster} {leaderId : Nat} {leader peer : Node},
    s.leaderId = some leaderId → s.nodes[leaderId]? = some leader →
    s.nodes[peerId]? = some peer →
    M s (s.modifyNode peerId fun _ => caughtUpNode leader peer s.commitIndex)
  refresh : ∀ s : RaftCluster, M s s.refreshClusterIndexes

variable {M : RaftCluster → RaftCluster → Prop} {peerId : Nat}

/-- **Catching up.** A catch-up, failed or not, moves the cluster along the relation. -/
theorem catchUpPeerWithReason_moves (rule : CatchUpRule peerId M) (reasonPrefix : String) :
    Moves M (catchUpPeerWithReason peerId reasonPrefix) := by
  have : Std.Refl M := ⟨fun s => rule.settles (.refl s)⟩
  have : IsTrans RaftCluster M := ⟨fun _ _ _ => rule.trans⟩
  have settled : ∀ {α : Type} {op : ClusterM α},
      Moves (SettlesFor peerId) op → Moves M op :=
    fun moves => moves.mono fun _ _ => rule.settles
  intro s
  unfold catchUpPeerWithReason
  split
  · exact Std.Refl.refl s
  rename_i leaderId leads
  split
  · exact Std.Refl.refl s
  · exact Std.Refl.refl s
  rename_i leader peer heldLeader heldPeer
  have report : ∀ {α : Type} (answer : ClusterM α) (caughtUp : Bool),
      (∀ reached, (answer reached).2 = reached) → Moves M
        (if caughtUp = true then promoteCaughtUpAutoLearner peerId >>= fun _ => answer
          else answer) := by
    intro α answer caughtUp reads
    have still : Moves M answer := fun reached => by
      rw [reads]
      exact Std.Refl.refl reached
    split
    · exact bind (settled (promoteCaughtUpAutoLearner_settles peerId))
        fun _ => still
    · exact still
  exact rule.trans (rule.trans (rule.caughtUp leads heldLeader heldPeer)
    (rule.settles (modifyPipeline_settles _ peerId _)))
    (bind (settled (markPeerActive_settles peerId)) (fun _ =>
      bind (update rule.refresh) fun _ =>
        report _ _ fun _ => rfl) _)

/-! ## Answers -/

/-- What has to be shown of a relation for the handling of `response` to move along it.
A refused append may be retried from the leader's log; an accepted one may hand
leadership over. -/
structure AnswerRule (peerId : Nat) (response : AppendEntriesResponse) (recomputes : Bool)
    (M : RaftCluster → RaftCluster → Prop) : Prop where
  trans : ∀ {first second third}, M first second → M second third → M first third
  settles : ∀ {s s'}, SettlesFor peerId s s' → M s s'
  laterTerm : ∀ s : RaftCluster, s.currentTerm < response.term →
    M s (s.stepIntoLaterTerm response.term "append_response_high_term")
  retry : response.success = false → CatchUpRule peerId M
  commit : recomputes = true → ∀ s : RaftCluster, M s s.refreshCommitIndex
  campaign : ∀ {s : RaftCluster} {transfer : LeaderTransferState}, response.success = true →
    s.activeLeaderTransfer = some transfer → transfer.transfereeId = peerId →
    s.lastLogIndex ≤ response.matchIndex → M s (campaign peerId true s).2

variable {response : AppendEntriesResponse} {recomputes : Bool}

section
variable (rule : AnswerRule peerId response recomputes M)

include rule

theorem movePipeline_moves : Moves M (movePipeline peerId response recomputes) := by
  intro s
  unfold movePipeline
  split
  · exact rule.settles (.refl s)
  have stored : ∀ pipeline, M s { s with
      peerPipelines := s.peerPipelines.insert peerId pipeline } := fun pipeline =>
    rule.settles ⟨.of_core rfl rfl rfl, fun other apart => by grind⟩
  split
  · exact rule.trans (stored _) (rule.commit ‹_› _)
  · exact stored _

theorem campaignForCaughtUpTransferee_moves :
    Moves M (campaignForCaughtUpTransferee peerId response) := by
  intro s
  unfold campaignForCaughtUpTransferee
  split
  · rename_i ready
    grind [Option.any_eq_true, rule.campaign]
  · exact rule.settles (.refl s)

theorem settleVerdict_moves
    (verdict : Except RaftError Unit) : Moves M (settleVerdict peerId response verdict) := by
  have : Std.Refl M := ⟨fun s => rule.settles (.refl s)⟩
  have : IsTrans RaftCluster M := ⟨fun _ _ _ => rule.trans⟩
  intro s
  unfold settleVerdict
  dsimp only
  split
  · exact Std.Refl.refl s
  have promoted : Moves M (do
      if response.success then maybeAutoPromoteZeroLagLearner peerId
      campaignForCaughtUpTransferee peerId response : ClusterM Unit) := by
    split
    · exact bind
        ((maybeAutoPromoteZeroLagLearner_settles peerId).mono fun _ _ => rule.settles)
        fun _ => campaignForCaughtUpTransferee_moves rule
    · exact campaignForCaughtUpTransferee_moves rule
  split
  · rename_i retries
    -- only a refused append is retried
    have refused : response.success = false := by
      simp only [isPipelineRejection, Bool.and_eq_true] at retries
      grind
    exact bind (catchUpPeerWithReason_moves (rule.retry refused) _)
      (fun _ => promoted) s
  · exact promoted s

/-- **Answers.** Handling an answer moves the cluster along the relation. -/
theorem handleAppendEntriesResponseInner_moves (localNodeId : Nat) (records : Bool) : Moves M
      (handleAppendEntriesResponseInner localNodeId peerId response recomputes records) := by
  have : Std.Refl M := ⟨fun s => rule.settles (.refl s)⟩
  have : IsTrans RaftCluster M := ⟨fun _ _ _ => rule.trans⟩
  have current : Moves M
      (handleCurrentAppendAnswer peerId response recomputes records) := by
    refine bind (update fun s =>
      rule.settles (confirmLease_settles s _ _ _ _)) fun _ =>
      bind (movePipeline_moves rule) fun verdict =>
      bind ?_ fun _ => settleVerdict_moves rule verdict
    unfold serveRequiredSnapshot
    split
    · exact pure _
    · exact (triggerNewSnapshot_settles peerId _).mono fun _ _ => rule.settles
  intro s
  unfold handleAppendEntriesResponseInner
  iterate 3
    split
    · exact Std.Refl.refl s
  refine bind ((markPeerActive_settles peerId).mono fun _ _ => rule.settles)
    (fun _ => ?_) s
  intro active
  dsimp only
  have observed := rule.settles (observeAnsweringPeer_settles active localNodeId peerId)
  split
  · rename_i later
    exact rule.trans observed (rule.laterTerm _ later)
  · exact rule.trans observed (current _)

end

/-! ## Maxima -/

theorem foldl_max_le {bound : Nat} : ∀ (indexes : List Nat) (start : Nat), start ≤ bound →
    (∀ index ∈ indexes, index ≤ bound) → indexes.foldl max start ≤ bound
  | [], _, small, _ => small
  | index :: rest, start, small, each =>
    foldl_max_le rest (max start index) (max_le small (each index (by simp)))
      fun later member => each later (by simp [member])

theorem le_foldl_max : ∀ (indexes : List Nat) (start : Nat),
    start ≤ indexes.foldl max start ∧ ∀ index ∈ indexes, index ≤ indexes.foldl max start
  | [], start => ⟨le_rfl, by simp⟩
  | first :: rest, start => by
    obtain ⟨low, each⟩ := le_foldl_max rest (max start first)
    grind

variable {indexes : List Nat}

theorem maximumIndex_le {bound : Nat} (each : ∀ index ∈ indexes, index ≤ bound) :
    maximumIndex indexes ≤ bound :=
  foldl_max_le indexes 0 (Nat.zero_le _) each

theorem le_maximumIndex {index : Nat} (member : index ∈ indexes) : index ≤ maximumIndex indexes :=
  (le_foldl_max indexes 0).2 index member

theorem foldl_max_mem : ∀ (indexes : List Nat) (start : Nat),
    indexes.foldl max start = start ∨ indexes.foldl max start ∈ indexes
  | [], _ => .inl rfl
  | first :: rest, start => by
    rcases foldl_max_mem rest (max start first) with same | member
    · rw [List.foldl_cons, same]
      rcases Nat.le_total first start with low | high
      · exact .inl (max_eq_left low)
      · exact .inr (by simp [max_eq_right high])
    · exact .inr (List.mem_cons_of_mem _ member)

theorem maximumIndex_mem (positive : 0 < maximumIndex indexes) : maximumIndex indexes ∈ indexes :=
  (foldl_max_mem indexes 0).resolve_left positive.ne'

/-! ## Aggregates over the replicas -/

theorem mem_members {node : Node} :
    node ∈ s.members ↔ ∃ nodeId : Nat, s.nodes[nodeId]? = some node := by simp [members]

theorem refreshClusterIndexes_lastLogIndex_le {bound : Nat}
    (each : ∀ (nodeId : Nat) (node : Node), s.nodes[nodeId]? = some node →
      node.matchIndex ≤ bound) : s.refreshClusterIndexes.lastLogIndex ≤ bound := by
  refine maximumIndex_le fun index member => ?_
  obtain ⟨node, held, rfl⟩ := List.mem_map.mp member
  obtain ⟨nodeId, held⟩ := mem_members.mp held
  exact each nodeId node held

/-! ## Recomputing the commit point -/

theorem refreshCommitIndex_cases (s : RaftCluster) :
    s.refreshCommitIndex = s ∨ ∃ commitIndex, s.refreshCommitIndex =
      (advanceHealthy { s with commitIndex := commitIndex }).refreshClusterIndexes := by
  unfold refreshCommitIndex
  grind

theorem refreshWitnessCommitQuorumPolicy_cases (s : RaftCluster) :
    ∃ counts, s.refreshWitnessCommitQuorumPolicy = { s with countWitnessInCommitQuorum := counts } ∨
      s.refreshWitnessCommitQuorumPolicy
        = RaftCluster.refreshCommitIndex { s with countWitnessInCommitQuorum := counts } := by
  refine ⟨s.shouldCountWitness, ?_⟩
  unfold refreshWitnessCommitQuorumPolicy
  grind

/-! ## Claiming leadership -/

theorem claimLeadership_bookkeeping (s : RaftCluster) (candidateId nextTerm : Nat) :
    Bookkeeping s (s.claimLeadership candidateId nextTerm) := by
  have claimed : Bookkeeping s (clearReorderQueues { s with
      lastIndexBeforeCurrentTerm := s.lastLogIndex
      currentTerm := nextTerm
      leaderId := some candidateId
      voteResponses := ∅
      preVoteResponses := ∅ }) := ⟨.of_eq rfl, rfl, rfl, .inl rfl, rfl, rfl, rfl⟩
  refine (claimed.trans (concludeTransferFor_bookkeeping _ candidateId
    "leader_changed_before_transfer_complete")).trans ?_
  exact ⟨QuietNodes.mapNodes fun node => ⟨rfl, rfl, rfl, rfl, rfl, .inl rfl⟩, rfl, rfl,
    .inl rfl, rfl, rfl, rfl⟩

end MatrixRaft.RaftCluster
