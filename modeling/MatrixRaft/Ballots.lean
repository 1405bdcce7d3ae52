/-
# Ballots — what replication leaves of an election

A proposal changes no replica's term or vote, no vote count and no leadership, as long as no
replica is in a later term than the cluster and no leader transfer is in flight; all it can
do to the membership is promote a learner.
-/
import MatrixRaft.ProposeRule

namespace MatrixRaft
open Theory RaftCluster Node

structure Node.SameMember (before after : Node) : Prop where
  id : after.id = before.id
  role : after.replicaRole = before.replicaRole
  healthy : before.healthy = true → after.healthy = true

theorem Node.SameMember.refl (node : Node) : SameMember node node := ⟨rfl, rfl, fun well => well⟩

theorem Node.SameMember.trans {before middle after : Node} (first : SameMember before middle)
    (second : SameMember middle after) : SameMember before after :=
  ⟨second.id.trans first.id, second.role.trans first.role, second.healthy ∘ first.healthy⟩

structure Node.SameVoter (before after : Node) : Prop extends SameMember before after where
  term : after.hardState.currentTerm = before.hardState.currentTerm
  vote : after.hardState.votedFor = before.hardState.votedFor

namespace Node.SameVoter
variable {before middle after : Node}

theorem refl (node : Node) : SameVoter node node := ⟨.refl node, rfl, rfl⟩

theorem trans (first : SameVoter before middle) (second : SameVoter middle after) :
    SameVoter before after :=
  ⟨first.toSameMember.trans second.toSameMember, second.term.trans first.term,
    second.vote.trans first.vote⟩

theorem of_sameButLog (same : SameButLog before after) : SameVoter before after :=
  ⟨⟨same.id_eq, same.replicaRole, fun well => same.healthy.trans well⟩, by rw [same.hardState], by rw [same.hardState]⟩

theorem advanceCommit (node : Node) (commitIndex : Nat) :
    SameVoter node (node.advanceCommit commitIndex) := by
  rw [advanceCommit_eq]
  exact ⟨⟨rfl, rfl, fun well => well⟩, rfl, rfl⟩

theorem caughtUpNode (leader peer : Node) (commitIndex : Nat) :
    SameVoter peer (caughtUpNode leader peer commitIndex) := by
  have adopted : SameVoter peer (adoptLeaderSnapshot leader peer) := by
    unfold adoptLeaderSnapshot
    split
    · split
      · exact ⟨⟨rfl, rfl, fun well => well⟩, rfl, rfl⟩
      · exact .refl peer
    · exact .refl peer
  have copied : ∀ (entries : List LogEntry) (node : Node),
      SameButLog node (entries.foldl appendCatchUpEntry node) := by
    intro entries
    induction entries with
    | nil => exact .refl
    | cons entry rest ih =>
      intro node
      refine SameButLog.trans ?_ (ih _)
      unfold appendCatchUpEntry
      split
      · exact appendWitnessEntry_same _ _ _
      · exact appendEntry_same _ _
  exact (adopted.trans (of_sameButLog (copied _ _))).trans (advanceCommit _ _)

theorem receiveProposal (proposal : Proposal) (node : Node) :
    SameVoter node (receiveProposal proposal node) := by
  unfold RaftCluster.receiveProposal
  split
  · split
    · exact of_sameButLog (appendEntry_same _ _)
    · split
      · exact of_sameButLog (appendWitnessEntry_same _ _ _)
      · exact .refl node
  · exact .refl node

theorem receiveNoop (leaderId : Nat) (entry : LogEntry) (node : Node) :
    SameVoter node (receiveNoop leaderId entry node) := by
  unfold RaftCluster.receiveNoop
  split
  · exact of_sameButLog (appendEntry_same _ _)
  split
  · split
    · exact of_sameButLog (appendEntry_same _ _)
    · split
      · exact of_sameButLog (appendWitnessEntry_same _ _ _)
      · exact .refl node
  · exact .refl node

end Node.SameVoter

/-- Identity, term and vote are unchanged, health is no worse; a learner may have become a
voter. -/
structure Node.SameBallot (before after : Node) : Prop where
  id : after.id = before.id
  term : after.hardState.currentTerm = before.hardState.currentTerm
  vote : after.hardState.votedFor = before.hardState.votedFor
  role : after.replicaRole = before.replicaRole ∨
    (before.replicaRole = .learner ∧ after.replicaRole = .voter)
  healthy : before.healthy = true → after.healthy = true

namespace Node.SameBallot
variable {before middle after : Node}

theorem of_calm (calm : Calm before after) : SameBallot before after :=
  ⟨calm.id, calm.term, calm.vote, calm.role, calm.healthy⟩

theorem of_sameVoter (same : SameVoter before after) : SameBallot before after :=
  ⟨same.id, same.term, same.vote, .inl same.role, same.healthy⟩

theorem refl (node : Node) : SameBallot node node := of_calm (.refl node)

theorem trans (first : SameBallot before middle) (second : SameBallot middle after) :
    SameBallot before after where
  id := second.id.trans first.id
  term := second.term.trans first.term
  vote := second.vote.trans first.vote
  role := ReplicaRole.promoted_trans first.role second.role
  healthy := second.healthy ∘ first.healthy

end Node.SameBallot

namespace RaftCluster
variable {s s' s'' : RaftCluster}

def ballots (s : RaftCluster) : RaftCluster :=
  { s.core with
    commitIndex := 0
    appliedIndex := 0
    lastLogIndex := 0
    pendingMembershipChangeIndex := none
    membershipChangeIndexes := ∅
    countWitnessInCommitQuorum := false }

/-- Terms, votes, roles, counts and leadership are as they were. -/
structure KeepsVoters (s s' : RaftCluster) : Prop where
  nodes : EachNode SameVoter s s'
  ballots : s'.ballots = s.ballots

namespace KeepsVoters

theorem of_nodes_eq (nodes : s'.nodes = s.nodes) (ballots : s'.ballots = s.ballots) :
    KeepsVoters s s' :=
  ⟨EachNode.of_nodes_eq SameVoter.refl nodes, ballots⟩

theorem refl (s : RaftCluster) : KeepsVoters s s := of_nodes_eq rfl rfl

theorem trans (first : KeepsVoters s s') (second : KeepsVoters s' s'') : KeepsVoters s s'' :=
  ⟨EachNode.trans (fun _ _ _ => SameVoter.trans) first.nodes second.nodes,
    second.ballots.trans first.ballots⟩

theorem members (kept : KeepsVoters s s') : EachNode SameMember s s' :=
  kept.nodes.mono fun _ _ => SameVoter.toSameMember

theorem refreshCommitIndex (s : RaftCluster) : KeepsVoters s s.refreshCommitIndex := by
  rcases refreshCommitIndex_cases s with same | ⟨commitIndex, eq⟩
  · rw [same]
    exact .refl s
  rw [eq]
  refine ⟨EachNode.mapNodes fun node => ?_, rfl⟩
  split
  · exact .advanceCommit _ _
  · exact .refl node

theorem refreshWitnessCommitQuorumPolicy (s : RaftCluster) :
    KeepsVoters s s.refreshWitnessCommitQuorumPolicy := by
  obtain ⟨counts, same | recomputed⟩ := refreshWitnessCommitQuorumPolicy_cases s
  · rw [same]
    exact .of_nodes_eq rfl rfl
  rw [recomputed]
  refine KeepsVoters.trans ?_ (refreshCommitIndex _)
  exact .of_nodes_eq rfl rfl

theorem broadcastLeaderNoop (s : RaftCluster) : KeepsVoters s (broadcastLeaderNoop s).2 := by
  unfold RaftCluster.broadcastLeaderNoop
  split
  · exact .refl s
  · exact .refl s
  · exact ⟨EachNode.mapNodes (.receiveNoop _ _), rfl⟩

end KeepsVoters

/-- Terms, votes, counts and leadership are as they were; a learner may have become a
voter. -/
structure KeepsBallots (s s' : RaftCluster) : Prop where
  nodes : EachNode SameBallot s s'
  ballots : s'.ballots = s.ballots

namespace KeepsBallots

theorem of_nodes_eq (nodes : s'.nodes = s.nodes) (ballots : s'.ballots = s.ballots) :
    KeepsBallots s s' :=
  ⟨EachNode.of_nodes_eq SameBallot.refl nodes, ballots⟩

theorem refl (s : RaftCluster) : KeepsBallots s s := of_nodes_eq rfl rfl

theorem trans (first : KeepsBallots s s') (second : KeepsBallots s' s'') : KeepsBallots s s'' :=
  ⟨EachNode.trans (fun _ _ _ => SameBallot.trans) first.nodes second.nodes,
    second.ballots.trans first.ballots⟩

theorem currentTerm (kept : KeepsBallots s s') : s'.currentTerm = s.currentTerm :=
  (congrArg RaftCluster.currentTerm kept.ballots :)

theorem leaderId (kept : KeepsBallots s s') : s'.leaderId = s.leaderId :=
  (congrArg RaftCluster.leaderId kept.ballots :)

theorem activeLeaderTransfer (kept : KeepsBallots s s') :
    s'.activeLeaderTransfer = s.activeLeaderTransfer :=
  (congrArg RaftCluster.activeLeaderTransfer kept.ballots :)

theorem of_settles (settles : Settles s s') : KeepsBallots s s' where
  nodes := settles.calm.mono fun _ _ => .of_calm
  ballots := (congrArg RaftCluster.ballots settles.core :)

theorem modifyNode {nodeId : Nat} {f : Node → Node}
    (step : ∀ node, s.nodes[nodeId]? = some node → SameBallot node (f node)) :
    KeepsBallots s (s.modifyNode nodeId f) :=
  ⟨EachNode.modifyNode SameBallot.refl step, rfl⟩

theorem of_voters (kept : KeepsVoters s s') : KeepsBallots s s' :=
  ⟨kept.nodes.mono fun _ _ => .of_sameVoter, kept.ballots⟩

theorem releaseThrough (s : RaftCluster) (releaseIndex : Nat) (leaderLimit : Option Nat) :
    KeepsBallots s (s.releaseThrough releaseIndex leaderLimit).2 := by
  unfold RaftCluster.releaseThrough
  split
  · exact .refl s
  · exact ⟨EachNode.mapNodes fun node =>
      .of_sameVoter (.of_sameButLog (compactLogThrough_same _ _)), rfl⟩

end KeepsBallots

/-! ## Answers within the term -/

structure InTerm (s : RaftCluster) : Prop where
  idle : s.activeLeaderTransfer = none
  terms : ∀ (nodeId : Nat) (node : Node), s.nodes[nodeId]? = some node →
    node.hardState.currentTerm ≤ s.currentTerm

theorem KeepsBallots.inTerm (kept : KeepsBallots s s') (within : InTerm s) : InTerm s' where
  idle := kept.activeLeaderTransfer.trans within.idle
  terms := fun nodeId node' held' => by
    obtain ⟨node, held, same⟩ := kept.nodes.back held'
    rw [same.term, kept.currentTerm]
    exact within.terms nodeId node held

theorem ballots_answerRule (peerId : Nat) (response : AppendEntriesResponse) (recomputes : Bool) :
    AnswerRule peerId response recomputes (fun s s' => InTerm s ∧ response.term ≤ s.currentTerm →
      KeepsBallots s s') where
  trans := fun one two start => by
    have kept := one start
    exact kept.trans (two ⟨kept.inTerm start.1, by rw [kept.currentTerm]; exact start.2⟩)
  settles := fun settles _ => .of_settles settles.toSettles
  laterTerm := fun s later start => absurd later (not_lt.mpr start.2)
  retry := fun _ =>
    { trans := fun one two start => by
        have kept := one start
        exact kept.trans (two ⟨kept.inTerm start.1, by rw [kept.currentTerm]; exact start.2⟩)
      settles := fun settles _ => .of_settles settles.toSettles
      caughtUp := fun _ _ heldPeer _ => .modifyNode fun found heldFound => by
        obtain rfl := Option.some.inj (heldPeer.symm.trans heldFound)
        exact .of_sameVoter (.caughtUpNode _ _ _)
      refresh := fun _ _ => .of_nodes_eq rfl rfl }
  commit := fun _ s _ => .of_voters (.refreshCommitIndex s)
  campaign := fun _ active _ _ start => by grind [start.1.idle]

/-! ## Proposals within the term -/

theorem ballots_proposeRule (leaderId : Nat) (proposal : Proposal) :
    ProposeRule leaderId proposal (fun s s' => InTerm s → KeepsBallots s s') where
  trans := fun one two start => (one start).trans (two ((one start).inTerm start))
  settles := fun settles _ => .of_settles settles
  lead := fun _ _ => .modifyNode fun _ _ =>
    .of_sameVoter (.of_sameButLog (appendEntry_same _ _))
  deliver := fun {s nodeId node} renewing _ held within => by
    refine deliverProposal_moves (ballots_answerRule nodeId _ false) (fun _ => ?_) ⟨within, ?_⟩
    · refine .modifyNode fun found heldFound => ?_
      obtain rfl := Option.some.inj (held.symm.trans heldFound)
      exact .of_sameVoter (.receiveProposal _ _)
    · have same := (SameVoter.receiveProposal proposal node).term
      exact same.trans_le (within.terms nodeId node held)
  commit := fun s _ => .of_voters (.refreshCommitIndex s)

/-- **Proposals keep the ballots.** -/
theorem proposeWithOptions_keepsBallots (within : InTerm s) (payload : Payload)
    (options : ProposeOptions) : KeepsBallots s (proposeWithOptions payload options s).2 := by
  have : Std.Refl (fun s s' : RaftCluster => InTerm s → KeepsBallots s s') :=
    ⟨fun s _ => .refl s⟩
  have : IsTrans RaftCluster (fun s s' : RaftCluster => InTerm s → KeepsBallots s s') :=
    ⟨fun _ _ _ one two start => (one start).trans (two ((one start).inTerm start))⟩
  exact proposeWithOptions_moves (M := fun s s' => InTerm s → KeepsBallots s s')
    (fun s index limit _ => .releaseThrough s index limit)
    (fun _ _ _ => .of_nodes_eq rfl rfl)
    (fun leaderId proposal => replicateProposal_moves (ballots_proposeRule leaderId proposal))
    payload options s within

end RaftCluster
end MatrixRaft
