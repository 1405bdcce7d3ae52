/-
# EachNode — operations that change replicas in place

`EachNode R s s'` relates two states replica by replica.  `Node.Quiet` says that a replica's
log, commit point and snapshot are as they were; most operations only touch bookkeeping and
move every replica along it.
-/
import MatrixRaft.NodeLog
import MatrixRaft.Answers
import MatrixRaft.Theory.Pointwise

namespace MatrixRaft
open Theory Node

/-! ## Quiet replicas -/

/-- What a replica stores, and how it counts in a quorum, is unchanged; a learner may have
become a voter. -/
structure Node.Quiet (before after : Node) : Prop where
  id : after.id = before.id
  log : after.log = before.log
  commitIndex : after.commitIndex = before.commitIndex
  installedSnapshot : after.installedSnapshot = before.installedSnapshot
  witnessAckIndex : after.witnessAckIndex = before.witnessAckIndex
  role : after.replicaRole = before.replicaRole ∨
    (before.replicaRole = .learner ∧ after.replicaRole = .voter)

theorem ReplicaRole.promoted_trans {first second third : ReplicaRole}
    (one : second = first ∨ (first = .learner ∧ second = .voter))
    (two : third = second ∨ (second = .learner ∧ third = .voter)) :
    third = first ∨ (first = .learner ∧ third = .voter) := by
  rcases two with rfl | ⟨learner, voter⟩
  · exact one
  · rcases one with same | ⟨-, voter'⟩
    all_goals grind

namespace Node.Quiet
variable {before middle after : Node}

theorem refl (node : Node) : Quiet node node := ⟨rfl, rfl, rfl, rfl, rfl, .inl rfl⟩

theorem trans (first : Quiet before middle) (second : Quiet middle after) :
    Quiet before after where
  id := second.id.trans first.id
  log := second.log.trans first.log
  commitIndex := second.commitIndex.trans first.commitIndex
  installedSnapshot := second.installedSnapshot.trans first.installedSnapshot
  witnessAckIndex := second.witnessAckIndex.trans first.witnessAckIndex
  role := ReplicaRole.promoted_trans first.role second.role

section
variable (quiet : Quiet before after)

include quiet

theorem witness_iff : after.replicaRole = .witness ↔ before.replicaRole = .witness := by
  rcases quiet.role with same | ⟨learner, voter⟩
  all_goals grind

theorem canServeData : after.replicaRole.canServeData = before.replicaRole.canServeData := by
  rcases quiet.role with same | ⟨learner, voter⟩
  · rw [same]
  · rw [learner, voter]
    rfl

theorem snapshotIndex : after.snapshotIndex = before.snapshotIndex := by
  rw [Node.snapshotIndex, quiet.installedSnapshot, Node.snapshotIndex]

theorem lastLogIndex : after.lastLogIndex = before.lastLogIndex := by
  rw [Node.lastLogIndex, quiet.log, Node.lastLogIndex]

theorem matchIndex : after.matchIndex = before.matchIndex := by
  unfold Node.matchIndex
  rw [quiet.witnessAckIndex, quiet.lastLogIndex, quiet.snapshotIndex]
  by_cases witness : before.replicaRole = .witness
  · grind [quiet.witness_iff]
  · grind [quiet.witness_iff]

theorem logTermAt (index : Nat) : after.logTermAt index = before.logTermAt index := by
  unfold Node.logTermAt Node.logPosition
  rw [quiet.log, quiet.installedSnapshot]

end
end Node.Quiet

structure Node.Calm (before after : Node) : Prop extends Quiet before after where
  term : after.hardState.currentTerm = before.hardState.currentTerm
  vote : after.hardState.votedFor = before.hardState.votedFor
  healthy : before.healthy = true → after.healthy = true

theorem Node.Calm.refl (node : Node) : Calm node node := ⟨.refl node, rfl, rfl, fun well => well⟩

theorem Node.Calm.trans {before middle after : Node} (first : Calm before middle)
    (second : Calm middle after) : Calm before after :=
  ⟨first.toQuiet.trans second.toQuiet, second.term.trans first.term,
    second.vote.trans first.vote, second.healthy ∘ first.healthy⟩

variable {before after : Node}

theorem Node.Calm.of_same (id : after.id = before.id)
    (role : after.replicaRole = before.replicaRole) (log : after.log = before.log)
    (hardState : after.hardState = before.hardState)
    (commitIndex : after.commitIndex = before.commitIndex)
    (snapshot : after.installedSnapshot = before.installedSnapshot)
    (acknowledged : after.witnessAckIndex = before.witnessAckIndex)
    (healthy : before.healthy = true → after.healthy = true) : Calm before after :=
  ⟨⟨id, log, commitIndex, snapshot, acknowledged, .inl role⟩, by rw [hardState], by rw [hardState],
    healthy⟩

/-! ## Intact replicas -/

/-- The commit point has not gone back, and every entry at or below it is what it was. -/
structure Node.Intact (before after : Node) : Prop where
  commit : before.commitIndex ≤ after.commitIndex
  entries : ∀ index ≤ before.commitIndex, ∀ entry,
    before.entryAt index = some entry → after.entryAt index = some entry

theorem Node.Intact.refl (node : Node) : Intact node node := ⟨le_rfl, fun _ _ _ found => found⟩

theorem Node.Intact.trans {before middle after : Node}
    (first : Intact before middle) (second : Intact middle after) : Intact before after :=
  ⟨first.commit.trans second.commit, fun index committed entry found =>
    second.entries index (committed.trans first.commit) entry
      (first.entries index committed entry found)⟩

theorem Node.Intact.of_quiet (quiet : Quiet before after) :
    Intact before after := by
  refine ⟨quiet.commitIndex.ge, fun index _ entry found => ?_⟩
  simpa only [entryAt, Node.logPosition, quiet.log] using found

theorem Node.Ordered.intact (ordered : before.Ordered)
    (ordered' : after.Ordered) (commit : before.commitIndex ≤ after.commitIndex)
    (kept : ∀ entry ∈ before.log, entry.index ≤ before.commitIndex → entry ∈ after.log) :
    Intact before after := by
  refine ⟨commit, fun index committed entry found => ?_⟩
  grind [ordered.entryAt_eq_some_iff, ordered'.entryAt_eq_some_iff]

namespace RaftCluster
variable {R : Node → Node → Prop} {s s' s'' : RaftCluster}

/-- The two states hold the same replicas, related by `R`. -/
def EachNode (R : Node → Node → Prop) (s s' : RaftCluster) : Prop :=
  Pointwise (fun _ => R) s.nodes s'.nodes

variable {f : Node → Node}

namespace EachNode

theorem of_nodes_eq (reflexive : ∀ node, R node node) (same : s'.nodes = s.nodes) :
    EachNode R s s' := by
  unfold EachNode
  rw [same]
  exact Pointwise.refl (fun _ => reflexive) _

theorem refl (reflexive : ∀ node, R node node) (s : RaftCluster) : EachNode R s s :=
  of_nodes_eq reflexive rfl

theorem trans (transitive : ∀ a b c, R a b → R b c → R a c) (first : EachNode R s s')
    (second : EachNode R s' s'') : EachNode R s s'' :=
  Pointwise.trans (fun _ => transitive) first second

theorem mono {R' : Node → Node → Prop} (weaker : ∀ a b, R a b → R' a b)
    (each : EachNode R s s') : EachNode R' s s' :=
  Pointwise.mono (fun _ => weaker) each

theorem modifyNode (reflexive : ∀ node, R node node) {nodeId : Nat}
    (step : ∀ node, s.nodes[nodeId]? = some node → R node (f node)) :
    EachNode R s (s.modifyNode nodeId f) :=
  Pointwise.modify (fun _ => reflexive) step

theorem mapNodes (step : ∀ node, R node (f node)) : EachNode R s (s.mapNodes f) :=
  Pointwise.map fun _ node _ => step node

end EachNode

/-- Every replica is as it was, up to bookkeeping. -/
abbrev QuietNodes (s s' : RaftCluster) : Prop := EachNode Quiet s s'

instance : IsTrans RaftCluster QuietNodes :=
  ⟨fun _ _ _ => EachNode.trans fun _ _ _ => Quiet.trans⟩

theorem QuietNodes.of_eq (same : s'.nodes = s.nodes) : QuietNodes s s' :=
  EachNode.of_nodes_eq Quiet.refl same

theorem QuietNodes.mapNodes (step : ∀ node, Quiet node (f node)) :
    QuietNodes s (s.mapNodes f) :=
  EachNode.mapNodes step

/-- Every replica is as it was, term and vote included. -/
abbrev CalmNodes (s s' : RaftCluster) : Prop := EachNode Calm s s'

theorem CalmNodes.of_eq (same : s'.nodes = s.nodes) : CalmNodes s s' :=
  EachNode.of_nodes_eq Calm.refl same

theorem CalmNodes.quiet (calm : CalmNodes s s') : QuietNodes s s' :=
  calm.mono fun _ _ => Calm.toQuiet

/-! ## Bookkeeping -/

/-- A change that leaves every log, and the indexes read off the logs, as they were; a
leader transfer in flight may have ended. -/
structure Bookkeeping (s s' : RaftCluster) : Prop where
  nodes : QuietNodes s s'
  lastLogIndex : s'.lastLogIndex = s.lastLogIndex
  commitIndex : s'.commitIndex = s.commitIndex
  transfer : s'.activeLeaderTransfer = s.activeLeaderTransfer ∨ s'.activeLeaderTransfer = none
  config : s'.config = s.config
  running : s'.running = s.running
  pendingSnapshots : s'.pendingSnapshots = s.pendingSnapshots

namespace Bookkeeping

theorem refl (s : RaftCluster) : Bookkeeping s s :=
  ⟨.of_eq rfl, rfl, rfl, .inl rfl, rfl, rfl, rfl⟩

theorem trans (first : Bookkeeping s s') (second : Bookkeeping s' s'') : Bookkeeping s s'' where
  nodes := IsTrans.trans _ _ _ first.nodes second.nodes
  lastLogIndex := second.lastLogIndex.trans first.lastLogIndex
  commitIndex := second.commitIndex.trans first.commitIndex
  transfer := by
    rcases second.transfer with same | ended
    · rw [same]
      exact first.transfer
    · exact .inr ended
  config := second.config.trans first.config
  running := second.running.trans first.running
  pendingSnapshots := second.pendingSnapshots.trans first.pendingSnapshots

theorem idle (kept : Bookkeeping s s') (settled : s.activeLeaderTransfer = none) :
    s'.activeLeaderTransfer = none := by
  rcases kept.transfer with same | ended
  all_goals grind

end Bookkeeping

section
variable (s : RaftCluster) (leaderId : Nat) (reason : String)

theorem concludeTransferFor_eq :
    s.concludeTransferFor leaderId reason = { s with
      leaderTransfer := (s.concludeTransferFor leaderId reason).leaderTransfer
      abortedLeaderTransfers := (s.concludeTransferFor leaderId reason).abortedLeaderTransfers } := by
  unfold concludeTransferFor completeLeaderTransfer abortLeaderTransfer
  split
  · rfl
  · split <;> split <;> rfl

@[simp] theorem concludeTransferFor_nodes :
    (s.concludeTransferFor leaderId reason).nodes = s.nodes := by
  rw [concludeTransferFor_eq]

@[simp] theorem concludeTransferFor_reorderQueues : (s.concludeTransferFor leaderId reason).reorderQueues = s.reorderQueues := by
  rw [concludeTransferFor_eq]

@[simp] theorem concludeTransferFor_peerPipelines : (s.concludeTransferFor leaderId reason).peerPipelines = s.peerPipelines := by
  rw [concludeTransferFor_eq]

theorem concludeTransferFor_bookkeeping :
    Bookkeeping s (s.concludeTransferFor leaderId reason) := by
  unfold concludeTransferFor completeLeaderTransfer abortLeaderTransfer
  split
  · exact .refl s
  · split <;> exact ⟨.of_eq rfl, rfl, rfl, .inr rfl, rfl, rfl, rfl⟩

end
end RaftCluster
end MatrixRaft
