/-
# Voting — what one message of an election does to a process

A process holds a cluster and drives one replica of it, its own.  This module says once
what `vote_to` and `handle_vote_response_from` can do to the process's term, its vote,
the answers it has counted and the leader it names.
-/
import MatrixRaft.Ballots
import MatrixRaft.Quorums
import MatrixRaft.Votes

namespace MatrixRaft
open Theory RaftCluster EachNode Node

/-- The same member, in no worse health; a learner may have become a voter. -/
structure Node.Joined (before after : Node) : Prop where
  id : after.id = before.id
  role : after.replicaRole = before.replicaRole ∨
    (before.replicaRole = .learner ∧ after.replicaRole = .voter)
  healthy : before.healthy = true → after.healthy = true

theorem Node.Joined.trans {before middle after : Node} (first : Node.Joined before middle)
    (second : Node.Joined middle after) : Node.Joined before after where
  id := second.id.trans first.id
  role := ReplicaRole.promoted_trans first.role second.role
  healthy := second.healthy ∘ first.healthy

namespace RaftCluster
variable {home s s' s'' : RaftCluster} {own : Nat}

/-! ## A process at home -/

def voteOf (s : RaftCluster) (own : Nat) : Option Nat :=
  (s.nodes[own]?).bind fun node => node.hardState.votedFor

/-- Every member is under its own id and healthy. -/
structure Founded (home : RaftCluster) : Prop where
  keyed : home.Keyed
  healthy : ∀ (nodeId : Nat) (node : Node), home.nodes[nodeId]? = some node → node.healthy = true

/-- The process drives `own`, in the cluster's term; others may have been promoted. -/
structure Home (home : RaftCluster) (own : Nat) (s : RaftCluster) : Prop where
  members : EachNode Node.Joined home s
  term : ∀ node, s.nodes[own]? = some node → node.hardState.currentTerm = s.currentTerm
  learner : ∀ node₀ node, home.nodes[own]? = some node₀ → s.nodes[own]? = some node →
    node₀.replicaRole = .learner → node.replicaRole = .learner
  idle : s.activeLeaderTransfer = none
  counts : s.ignoreWitness = false

namespace Home
section
variable (atHome : Home home own s)
include atHome

theorem keyed (keyed : home.Keyed) : s.Keyed := by
  intro nodeId node held
  obtain ⟨node₀, held₀, joined⟩ := atHome.members.back held
  rw [joined.id]
  exact keyed nodeId node₀ held₀

theorem step (members : EachNode Node.SameMember s s')
    (term : ∀ node, s'.nodes[own]? = some node → node.hardState.currentTerm = s'.currentTerm)
    (idle : s'.activeLeaderTransfer = none) (counts : s'.ignoreWitness = false) :
    Home home own s' where
  members := atHome.members.trans (fun _ _ _ => Node.Joined.trans)
    (members.mono fun _ _ same => ⟨same.id, .inl same.role, same.healthy⟩)
  term := term
  learner := fun node₀ node' held₀ held' isLearner => by
    obtain ⟨node, held, same⟩ := members.back held'
    rw [same.role]
    exact atHome.learner node₀ node held₀ held isLearner
  idle := idle
  counts := counts

theorem keepsBallots (kept : KeepsBallots s s')
    (voter : ∀ node, s.nodes[own]? = some node → node.replicaRole ≠ .learner) :
    Home home own s' where
  members := atHome.members.trans (fun _ _ _ => Node.Joined.trans)
    (kept.nodes.mono fun _ _ same => ⟨same.id, same.role, same.healthy⟩)
  term := fun node' held' => by
    obtain ⟨node, held, same⟩ := kept.nodes.back held'
    rw [same.term, kept.currentTerm]
    exact atHome.term node held
  learner := fun node₀ node' held₀ held' isLearner => by grind [kept.nodes.back, atHome.learner]
  idle := kept.activeLeaderTransfer.trans atHome.idle
  counts := (congrArg ignoreWitness kept.ballots).trans atHome.counts

theorem own_elector (keyed : home.Keyed) {node : Node}
    (held : s.nodes[own]? = some node) (takes : node.replicaRole.participatesInQuorum = true) :
    own ∈ home.electors false := by
  obtain ⟨node₀, held₀, joined⟩ := atHome.members.back held
  refine keyed.mem_idsWhere.mpr ⟨node₀, held₀, ?_⟩
  rcases joined.role with same | ⟨learner, -⟩
  · rw [same] at takes
    cases role : node₀.replicaRole <;> rw [role] at takes <;> first | rfl | cases takes
  · rw [atHome.learner node₀ node held₀ held learner] at takes
    cases takes

theorem electors_subset (keyed : home.Keyed) : home.electors false ⊆ s.electors false := by
  intro nodeId member
  obtain ⟨node₀, held₀, takes⟩ := keyed.mem_idsWhere.mp member
  obtain ⟨node, held, joined⟩ := (atHome.members nodeId).1 node₀ held₀
  refine (atHome.keyed keyed).mem_idsWhere.mpr ⟨node, held, ?_⟩
  rcases joined.role with same | ⟨-, voter⟩
  · rw [same]
    exact takes
  · rw [voter]
    rfl

end
end Home

/-! ## Answering a request -/

structure Casts (home : RaftCluster) (own : Nat) (request : VoteRequest)
    (result : Except RaftError VoteResponse) (s s' : RaftCluster) : Prop where
  atHome : Home home own s'
  roles : EachNode Node.SameMember s s'
  term : s.currentTerm ≤ s'.currentTerm
  vote : s'.currentTerm = s.currentTerm → ∀ candidateId, s.voteOf own = some candidateId →
    s'.voteOf own = some candidateId
  leader : s'.leaderId = none ∨ (s'.leaderId = s.leaderId ∧ s'.currentTerm = s.currentTerm)
  counted : s'.voteResponses = s.voteResponses ∧
    s'.electionResponsesTerm = s.electionResponsesTerm
  /-- A binding grant is of the term the process is now in, and is its vote. -/
  granted : ∀ response, result = .ok response → response.voteGranted = true →
    request.preVote = false → response.term = s'.currentTerm ∧
      s'.voteOf own = some request.candidateId ∧
      ∃ node, s'.nodes[own]? = some node ∧ node.replicaRole.participatesInQuorum = true

section
variable (atHome : Home home own s)

include atHome

section Refused
variable {request : VoteRequest} {result : Except RaftError VoteResponse}
  (refused : ∀ response, result = .ok response → response.voteGranted = true →
    request.preVote = true)

include refused

theorem Casts.of_refused (voters : KeepsVoters s s') : Casts home own request result s s' := by
  have kept : KeepsBallots s s' := .of_voters voters
  refine ⟨atHome.step voters.members ?_ (kept.activeLeaderTransfer.trans atHome.idle)
    ((congrArg ignoreWitness kept.ballots).trans atHome.counts), voters.members,
    kept.currentTerm.ge, ?_, .inr ⟨kept.leaderId, kept.currentTerm⟩,
    ⟨(congrArg voteResponses kept.ballots :),
      (congrArg electionResponsesTerm kept.ballots :)⟩, ?_⟩
  · intro node' held'
    obtain ⟨node, held, same⟩ := voters.nodes.back held'
    rw [same.term, kept.currentTerm]
    exact atHome.term node held
  · intro _ candidateId voted
    obtain ⟨node, held, vote⟩ := Option.bind_eq_some_iff.mp voted
    obtain ⟨node', held', same⟩ := (voters.nodes own).1 node held
    exact Option.bind_eq_some_iff.mpr ⟨node', held', same.vote.trans vote⟩
  · grind

omit atHome refused in
theorem Casts.trans {first : Except RaftError VoteResponse}
    (one : Casts home own request first s s') (two : Casts home own request result s' s'') :
    Casts home own request result s s'' where
  atHome := two.atHome
  roles := EachNode.trans (fun _ _ _ => .trans) one.roles two.roles
  term := one.term.trans two.term
  vote := fun same candidateId voted => by grind [one.term, two.term, two.vote, one.vote]
  leader := by
    rcases two.leader with gone | ⟨same, term⟩
    · exact .inl gone
    · rcases one.leader with gone | ⟨same', term'⟩
      all_goals grind
  counted := ⟨two.counted.1.trans one.counted.1, two.counted.2.trans one.counted.2⟩
  granted := two.granted

theorem Casts.unchanged : Casts home own request result s s :=
  .of_refused atHome refused (.refl s)

theorem observeVoteRequestCandidate_casts : Casts home own request result s
    (s.observeVoteRequestCandidate own request.candidateId request.preVote) := by
  unfold observeVoteRequestCandidate
  split
  · refine .of_refused atHome refused ⟨EachNode.modifyNode .refl fun node _ => ?_, rfl⟩
    split
    · exact ⟨⟨rfl, rfl, fun well => well⟩, rfl, rfl⟩
    · exact .refl node
  · exact .unchanged atHome refused

end Refused

section
variable (request : VoteRequest)

theorem enterVoteTerm_casts :
    Casts home own request (.error .noLeader) s (s.enterVoteTerm own request.term) ∧
      request.term ≤ (s.enterVoteTerm own request.term).currentTerm := by
  unfold enterVoteTerm
  split
  · rename_i later
    have roles : EachNode Node.SameMember s (((s.adoptLaterTerm request.term).modifyNode own
        fun voter => { voter with
          hardState.currentTerm := request.term, hardState.votedFor := none }).mapNodes
        fun node => { node with raftRole := followerRole node }) := by
      have moved : EachNode Node.SameMember s ((s.adoptLaterTerm request.term).modifyNode own
          fun voter => { voter with
            hardState.currentTerm := request.term, hardState.votedFor := none }) :=
        EachNode.modifyNode .refl fun _ _ => ⟨rfl, rfl, fun well => well⟩
      exact EachNode.trans (fun _ _ _ => .trans) moved (EachNode.mapNodes fun _ => ⟨rfl, rfl, fun well => well⟩)
    refine ⟨⟨atHome.step roles ?_ atHome.idle atHome.counts, roles, later.le, fun same => ?_,
      .inl rfl, ⟨rfl, rfl⟩, fun _ answered => nomatch answered⟩, le_rfl⟩
    · simp [mapNodes, modifyNode, adoptLaterTerm, invalidateLeaderLease, invalidateFollowerLease,
        clearReorderQueues]
    · exact absurd same later.ne'
  · rename_i current
    exact ⟨.unchanged atHome (fun _ answered => nomatch answered), not_lt.mp current⟩

theorem recordVote_casts {voter : Node} (held : s.nodes[own]? = some voter)
    (takes : voter.replicaRole.participatesInQuorum = true)
    (free : (voter.hardState.votedFor.any fun votedFor => votedFor ≠ request.candidateId) = false)
    (reason : VoteReason) :
    Casts home own request (.ok ⟨voter.hardState.currentTerm, true, reason⟩) s
      (s.recordVote own voter request.candidateId false) := by
  have inTerm := atHome.term voter held
  set after := s.recordVote own voter request.candidateId false with after_eq
  have found : after.nodes[own]?
      = some { voter with hardState.votedFor := some request.candidateId } := by
    simp [after_eq, recordVote, modifyNode, held]
  have term : after.currentTerm = s.currentTerm := by
    simp [after_eq, recordVote, modifyNode, inTerm]
  have voted : after.voteOf own = some request.candidateId := by
    simp [voteOf, found]
  have roles : EachNode Node.SameMember s after := by
    refine EachNode.modifyNode .refl fun node held' => ?_
    obtain rfl := Option.some.inj (held.symm.trans held')
    exact ⟨rfl, rfl, fun well => well⟩
  refine ⟨atHome.step roles ?_ atHome.idle atHome.counts, roles, term.ge, ?_, .inr ⟨rfl, term⟩,
    ⟨rfl, rfl⟩, ?_⟩
  · grind
  · grind [voteOf]
  · grind

theorem castVote_casts (reached : request.term ≤ s.currentTerm)
    (takes : ∀ node, s.nodes[own]? = some node → node.replicaRole.participatesInQuorum = true) :
    Casts home own request (castVote own request s).1 s (castVote own request s).2 := by
  unfold castVote
  split
  · exact .unchanged atHome fun _ answered => nomatch answered
  rename_i voter held
  have inTerm := atHome.term voter held
  have refused : ∀ (term : Nat) (reason : VoteReason),
      Casts home own request (.ok ⟨term, false, reason⟩) s s := fun term reason =>
    .unchanged atHome (by rintro _ ⟨⟩ ⟨⟩)
  dsimp only
  iterate 3
    split
    · exact refused _ _
  rename_i current
  -- from here the request is of the voter's own term
  have following : followVoteTerm voter request.term = voter := by
    rw [followVoteTerm, if_neg (by omega)]
  rw [following]
  have moved : ∀ (term : Nat) (reason : VoteReason), Casts home own request
      (.ok ⟨term, false, reason⟩) s (s.modifyNode own fun _ => voter) := by
    intro term reason
    refine .of_refused atHome (by rintro _ ⟨⟩ ⟨⟩)
      ⟨EachNode.modifyNode .refl fun node held' => ?_, rfl⟩
    obtain rfl := Option.some.inj (held.symm.trans held')
    exact .refl voter
  split
  · exact moved _ _
  split
  · exact moved _ _
  rename_i free
  rw [decide_eq_false (by omega : ¬ request.term > voter.hardState.currentTerm)]
  exact recordVote_casts atHome request held (takes voter held)
    (Bool.eq_false_iff.mpr free) _

/-- **Answering a request.** -/
theorem voteTo_casts :
    Casts home own request (voteTo own request s).1 s (voteTo own request s).2 := by
  have refused : ∀ (term : Nat) (reason : VoteReason),
      Casts home own request (.ok ⟨term, false, reason⟩) s s := fun term reason =>
    .unchanged atHome (by rintro _ ⟨⟩ ⟨⟩)
  unfold voteTo
  split
  · exact refused _ _
  split
  · exact .unchanged atHome fun _ answered => nomatch answered
  rename_i asked heldAsked
  split
  · exact refused _ _
  rename_i takes
  dsimp only
  have observed := fun result => @observeVoteRequestCandidate_casts home s own atHome request
    result
  split
  · grind
  split
  · exact observed _ (by rintro _ ⟨⟩ ⟨⟩)
  split
  · grind
  split
  · exact observed _ (by rintro _ ⟨⟩ ⟨⟩)
  have looked := observed (.error .noLeader) fun _ answered => nomatch answered
  obtain ⟨entered, reached⟩ := enterVoteTerm_casts looked.atHome request
  have moved := looked.trans entered
  refine moved.trans (castVote_casts entered.atHome request reached fun node held => ?_)
  obtain ⟨before, heldBefore, same⟩ := moved.roles.back held
  obtain rfl := Option.some.inj (heldAsked.symm.trans heldBefore)
  rw [same.role]
  simpa using takes

end
end

/-! ## Counting an answer -/

/-- Votes for `own` a process may count: its own, one it had counted in this term, or the
one it is hearing now. -/
def Countable (own peerId : Nat) (grants : Prop) (s : RaftCluster) (nodeId : Nat) : Prop :=
  nodeId = own ∨
    (s.electionResponsesTerm = s.currentTerm ∧ s.voteResponses[nodeId]? = some true) ∨
    (nodeId = peerId ∧ grants)

/-- The process drives a voter. -/
def Fit (home : RaftCluster) (own : Nat) : Prop :=
  ∃ node, home.nodes[own]? = some node ∧ node.replicaRole = .voter

theorem Fit.elector (fit : home.Fit own) (keyed : home.Keyed) : own ∈ home.electors false := by
  obtain ⟨node, held, voter⟩ := fit
  refine keyed.mem_idsWhere.mpr ⟨node, held, ?_⟩
  rw [voter]
  rfl

def Short (home : RaftCluster) (own : Nat) (s : RaftCluster) : Prop :=
  home.Fit own → s.electionResponsesTerm = s.currentTerm →
    (∀ nodeId : Nat, s.voteResponses[nodeId]? = some true → nodeId = own) ∨
    (own ∈ s.voteResponses ∧
      (s.electors false ∩ (grantedIds s.voteResponses).toFinset).card <
        (s.electors false).card / 2 + 1)

theorem Casts.short {request : VoteRequest} {result : Except RaftError VoteResponse}
    (casts : Casts home own request result s s') (founded : home.Founded) (atHome : Home home own s)
    (recent : s.electionResponsesTerm ≤ s.currentTerm) (short : Short home own s) :
    Short home own s' := by
  intro fit same
  have term := casts.term
  obtain ⟨responses, ofTerm⟩ := casts.counted
  have members : SameMembership s s' := by
    intro nodeId
    obtain ⟨kept, absent⟩ := casts.roles nodeId
    cases held : s.nodes[nodeId]? with
    | none => rw [absent held]
    | some node =>
      obtain ⟨node', held', sameMember⟩ := kept node held
      simp [held', sameMember.role]
  rw [members.electors_eq (atHome.keyed founded.keyed) (casts.atHome.keyed founded.keyed), responses]
  exact short fit (by omega)

inductive Hears (home : RaftCluster) (own peerId : Nat) (grants : Prop)
    (s s' : RaftCluster) : Prop
  | counts (atHome : Home home own s') (term : s'.currentTerm = s.currentTerm)
      (vote : s'.voteOf own = s.voteOf own)
      (leader : s'.leaderId = none ∨ s'.leaderId = s.leaderId)
      (recent : s'.electionResponsesTerm = s.electionResponsesTerm ∨
        s'.electionResponsesTerm = s'.currentTerm)
      (counted : s'.electionResponsesTerm = s'.currentTerm →
        ∀ nodeId : Nat, s'.voteResponses[nodeId]? = some true →
          Countable own peerId grants s nodeId)
      (short : Short home own s')
  /-- The process is in a later term, with at most its own vote. -/
  | rises (atHome : Home home own s') (term : s.currentTerm < s'.currentTerm)
      (leader : s'.leaderId = none) (recent : s'.electionResponsesTerm = s'.currentTerm)
      (counted : ∀ nodeId : Nat, s'.voteResponses[nodeId]? = some true → nodeId = own)
  /-- The process leads its term on a majority of countable votes. -/
  | leads (atHome : Home home own s') (term : s'.currentTerm = s.currentTerm)
      (leader : s'.leaderId = some own) (vote : s'.voteOf own = some own)
      (recent : s'.electionResponsesTerm = s'.currentTerm) (counted : s'.voteResponses = ∅)
      (fit : home.Fit own) (backers : Finset Nat) (inside : backers ⊆ s.electors false)
      (many : (s.electors false).card / 2 + 1 ≤ backers.card)
      (countable : ∀ nodeId ∈ backers, Countable own peerId grants s nodeId) (granted : grants)

theorem Hears.mono {peerId : Nat} {grants grants' : Prop} (weaker : grants → grants')
    (hears : Hears home own peerId grants s s') : Hears home own peerId grants' s s' := by
  have countable : ∀ nodeId, Countable own peerId grants s nodeId →
      Countable own peerId grants' s nodeId := by
    rintro nodeId (isOwn | before | ⟨isPeer, holds⟩)
    · exact .inl isOwn
    · exact .inr (.inl before)
    · exact .inr (.inr ⟨isPeer, weaker holds⟩)
  cases hears with
  | counts atHome term vote leader recent counted short =>
    exact .counts atHome term vote leader recent (fun same nodeId voted =>
      countable nodeId (counted same nodeId voted)) short
  | rises atHome term leader recent counted => exact .rises atHome term leader recent counted
  | leads atHome term leader vote recent counted fit backers inside many counts
      granted =>
      exact .leads atHome term leader vote recent counted fit backers inside many
        (fun nodeId member => countable nodeId (counts nodeId member)) (weaker granted)

theorem electable_eq_ok {candidateId : Nat} {unfit : Nat → InvalidRequest}
    (fit : s.electable candidateId unfit = .ok ()) :
    ∃ node, s.nodes[candidateId]? = some node ∧ node.replicaRole.canBeLeader = true := by
  unfold electable at fit
  grind

theorem Home.electable_iff (atHome : Home home own s) (founded : home.Founded)
    (unfit : Nat → InvalidRequest) : s.electable own unfit = .ok () ↔ home.Fit own := by
  constructor
  · intro fit
    obtain ⟨node, held, leads⟩ := electable_eq_ok fit
    obtain ⟨node₀, held₀, joined⟩ := atHome.members.back held
    refine ⟨node₀, held₀, ?_⟩
    rcases joined.role with same | ⟨learner, -⟩
    · rw [same] at leads
      cases role : node₀.replicaRole <;> rw [role] at leads <;> first | rfl | cases leads
    · rw [atHome.learner node₀ node held₀ held learner] at leads
      cases leads
  · rintro ⟨node₀, held₀, voter⟩
    obtain ⟨node, held, joined⟩ := (atHome.members own).1 node₀ held₀
    have healthy := joined.healthy (founded.healthy own node₀ held₀)
    have role : node.replicaRole = .voter := by
      rcases joined.role with same | ⟨-, voter⟩
      all_goals grind
    simp [electable, held, role, healthy, ReplicaRole.canBeLeader]

theorem enterElection_spec (atHome : Home home own s) {entering : RaftCluster}
    (nodes : entering.nodes = s.nodes) (transfer : entering.leaderTransfer = s.leaderTransfer)
    (counts : entering.ignoreWitness = s.ignoreWitness) (role : StateRole) {node : Node}
    (held : s.nodes[own]? = some node) :
    Home home own (entering.enterElection own role) ∧ InTerm (entering.enterElection own role) ∧
      (entering.enterElection own role).voteOf own = some own ∧
      EachNode Node.SameMember s (entering.enterElection own role) := by
  set elected := entering.enterElection own role
  have nodes_eq : ∀ nodeId : Nat, elected.nodes[nodeId]?
      = (s.nodes[nodeId]?).map fun node => { node with
          hardState.currentTerm := entering.currentTerm
          hardState.votedFor := some own
          raftRole := if node.id = own then role else followerRole node } := by
    grind [enterElection, adoptElection, mapNodes, invalidateFollowerLease, resetLeaderLeaseEpoch,
      clearReorderQueues, clearElectionResponses]
  have terms : ∀ (nodeId : Nat) (node : Node), elected.nodes[nodeId]? = some node →
      node.hardState.currentTerm = elected.currentTerm := by
    intro nodeId node found
    rw [nodes_eq] at found
    obtain ⟨before, -, rfl⟩ := Option.map_eq_some_iff.mp found
    rfl
  have roles : EachNode Node.SameMember s elected := by
    intro nodeId
    rw [nodes_eq]
    refine ⟨fun before found => ?_, fun absent => by rw [absent]; rfl⟩
    rw [found]
    exact ⟨_, rfl, rfl, rfl, fun well => well⟩
  -- unfolded by name: left to `rfl`, the two states are compared field by field
  have kept : elected.leaderTransfer = entering.leaderTransfer ∧
      elected.ignoreWitness = entering.ignoreWitness := by
    simp only [elected, enterElection, adoptElection, mapNodes, invalidateFollowerLease,
      resetLeaderLeaseEpoch, clearReorderQueues, clearElectionResponses, and_self]
  have idle : elected.activeLeaderTransfer = none := by
    rw [activeLeaderTransfer, kept.1, transfer]
    exact atHome.idle
  refine ⟨atHome.step roles (terms own) idle ((kept.2.trans counts).trans atHome.counts),
    ⟨idle, fun nodeId node found => (terms nodeId node found).le⟩, ?_, roles⟩
  rw [voteOf, nodes_eq, held]
  rfl

structure TakesLead (home : RaftCluster) (own : Nat) (s s' : RaftCluster) : Prop where
  atHome : Home home own s'
  currentTerm : s'.currentTerm = s.currentTerm
  leaderId : s'.leaderId = some own
  vote : s'.voteOf own = some own
  recent : s'.electionResponsesTerm = s'.currentTerm
  uncounted : s'.voteResponses = ∅
  fit : home.Fit own

theorem becomeLeaderCurrentTerm_spec (founded : home.Founded) (atHome : Home home own s) :
    ((becomeLeaderCurrentTerm own s).2 = s ∧ ¬ home.Fit own) ∨
      TakesLead home own s (becomeLeaderCurrentTerm own s).2 := by
  have decides := atHome.electable_iff founded .cannotBecomeLeader
  unfold becomeLeaderCurrentTerm
  split
  · grind
  rename_i fit
  right
  obtain ⟨node, held, leads⟩ := electable_eq_ok fit
  obtain ⟨home', inTerm, vote, roles⟩ := @enterElection_spec home s own atHome
    { s with leaderId := some own } rfl rfl rfl .leader node held
  set entered := enterElection { s with leaderId := some own } own .leader
  have reset : KeepsBallots entered (entered.resetReplicationPipelinesForLeader own) :=
    .of_nodes_eq rfl rfl
  have voter : ∀ elected, entered.nodes[own]? = some elected →
      elected.replicaRole ≠ .learner := by
    intro elected found learner
    obtain ⟨before, heldBefore, same⟩ := roles.back found
    obtain rfl := Option.some.inj (held.symm.trans heldBefore)
    rw [← same.role, learner] at leads
    cases leads
  have settled : ∀ s', KeepsBallots entered s' → TakesLead home own s s' := by
    intro s' kept
    have recent : s'.electionResponsesTerm = s.currentTerm :=
      (congrArg electionResponsesTerm kept.ballots :)
    refine ⟨home'.keepsBallots kept voter, kept.currentTerm, kept.leaderId, ?_,
      recent.trans kept.currentTerm.symm, (congrArg voteResponses kept.ballots :),
      decides.mp fit⟩
    obtain ⟨elected, found, voted⟩ := Option.bind_eq_some_iff.mp vote
    obtain ⟨elected', found', same⟩ := (kept.nodes own).1 elected found
    exact Option.bind_eq_some_iff.mpr ⟨elected', found', same.vote.trans voted⟩
  dsimp only
  split
  · rw [Attempt.bind_pure_state]
    exact settled _ (reset.trans (proposeWithOptions_keepsBallots (reset.inTerm inTerm) _ _))
  · exact settled _ reset

theorem startVoteAfterPreVoteQuorum_spec (atHome : Home home own s)
    (room : s.currentTerm < u64Max) : (startVoteAfterPreVoteQuorum own s).2 = s ∨
      (Home home own (startVoteAfterPreVoteQuorum own s).2 ∧
        s.currentTerm < (startVoteAfterPreVoteQuorum own s).2.currentTerm ∧
        (startVoteAfterPreVoteQuorum own s).2.leaderId = none ∧
        (startVoteAfterPreVoteQuorum own s).2.electionResponsesTerm
          = (startVoteAfterPreVoteQuorum own s).2.currentTerm ∧
        ∀ nodeId : Nat, (startVoteAfterPreVoteQuorum own s).2.voteResponses[nodeId]? = some true →
          nodeId = own) := by
  unfold startVoteAfterPreVoteQuorum
  split
  · exact .inl rfl
  rename_i fit
  right
  obtain ⟨node, held, -⟩ := electable_eq_ok fit
  obtain ⟨home', -, -, -⟩ := @enterElection_spec home s own atHome
    { s with currentTerm := satAdd s.currentTerm 1, leaderId := none } rfl rfl rfl .candidate
    node held
  refine ⟨⟨home'.members, home'.term, home'.learner, home'.idle, home'.counts⟩, ?_, rfl, rfl, ?_⟩
  · change s.currentTerm < satAdd s.currentTerm 1
    unfold satAdd
    omega
  · simp [Std.TreeMap.getElem?_insert, enterElection, adoptElection, mapNodes,
      invalidateFollowerLease, resetLeaderLeaseEpoch, clearReorderQueues, clearElectionResponses]

variable {responses : Std.TreeMap Nat Bool}

theorem recordAnswer_true {localNodeId peerId nodeId : Nat}
    {granted : Bool}
    (counted : (recordAnswer responses localNodeId peerId granted)[nodeId]? = some true) :
    (nodeId = peerId ∧ granted = true) ∨ (nodeId ≠ peerId ∧
      (responses[nodeId]? = some true ∨ (nodeId = localNodeId ∧ localNodeId ∉ responses))) := by
  unfold recordAnswer at counted
  grind

theorem mem_grantedIds {nodeId : Nat} :
    nodeId ∈ grantedIds responses ↔ responses[nodeId]? = some true := by simp [grantedIds]

theorem discard_counted (s : RaftCluster) :
    let current := s.discardElectionResponsesFromAnEarlierTerm
    current.electionResponsesTerm = s.currentTerm ∧
      ((s.electionResponsesTerm = s.currentTerm ∧ current.voteResponses = s.voteResponses) ∨
        current.voteResponses = ∅) := by
  unfold discardElectionResponsesFromAnEarlierTerm
  split
  · grind
  · exact ⟨rfl, .inr rfl⟩

/-- The process has only recorded answers, in its own term. -/
structure Tallies (s counting : RaftCluster) : Prop where
  nodes : counting.nodes = s.nodes
  currentTerm : counting.currentTerm = s.currentTerm
  leaderId : counting.leaderId = s.leaderId
  transfer : counting.leaderTransfer = s.leaderTransfer
  ignoreWitness : counting.ignoreWitness = s.ignoreWitness
  recent : counting.electionResponsesTerm = s.currentTerm

namespace Tallies
variable {counting : RaftCluster}

theorem atHome (tallies : Tallies s counting) (atHome : Home home own s) :
    Home home own counting where
  members := by
    unfold EachNode
    rw [tallies.nodes]
    exact atHome.members
  term := by
    rw [tallies.nodes, tallies.currentTerm]
    exact atHome.term
  learner := by
    rw [tallies.nodes]
    exact atHome.learner
  idle := by
    rw [activeLeaderTransfer, tallies.transfer]
    exact atHome.idle
  counts := tallies.ignoreWitness.trans atHome.counts

theorem voteOf (tallies : Tallies s counting) : counting.voteOf own = s.voteOf own := by
  rw [RaftCluster.voteOf, tallies.nodes, RaftCluster.voteOf]

theorem electors (tallies : Tallies s counting) : counting.electors false = s.electors false := by
  simp [RaftCluster.electors, idsWhere, members, tallies.nodes]

end Tallies

theorem decideElection_hears (founded : home.Founded) (atHome : Home home own s) {peerId : Nat}
    {preVote : Bool} {grants : Prop} {counting : RaftCluster}
    (room : preVote = true → s.currentTerm < u64Max) (tallies : Tallies s counting)
    (countable : ∀ nodeId : Nat, counting.voteResponses[nodeId]? = some true →
      Countable own peerId grants s nodeId) (short : preVote = true → Short home own counting)
    (included : preVote = false → own ∈ counting.voteResponses)
    (wins : preVote = false → home.Fit own → (s.electors false).card / 2 + 1 ≤
      (s.electors false ∩ (grantedIds counting.voteResponses).toFinset).card → grants) :
    Hears home own peerId grants s (decideElection own preVote counting).2 := by
  have home' := tallies.atHome atHome
  have kept : Short home own counting → Hears home own peerId grants s counting :=
    .counts home' tallies.currentTerm tallies.voteOf (.inr tallies.leaderId)
      (.inr (tallies.recent.trans tallies.currentTerm.symm)) fun _ => countable
  have givenUp : Hears home own peerId grants s (counting.giveUpElection own) := by
    have roles : EachNode Node.SameMember counting (counting.giveUpElection own) :=
      EachNode.modifyNode .refl fun _ _ => ⟨rfl, rfl, fun well => well⟩
    have same : EachNode Node.SameBallot counting (counting.giveUpElection own) :=
      EachNode.modifyNode .refl fun _ _ => ⟨rfl, rfl, rfl, .inl rfl, fun well => well⟩
    refine .counts (home'.step roles (fun node' held' => ?_) home'.idle home'.counts)
      tallies.currentTerm ?_ (.inl rfl) (.inr rfl) (fun _ nodeId counted => ?_)
      fun _ _ => .inl fun nodeId counted => ?_
    · obtain ⟨node, held, kept⟩ := same.back held'
      exact kept.term.trans (home'.term node held)
    · rw [← tallies.voteOf]
      simp only [RaftCluster.voteOf, giveUpElection, modifyNode, clearElectionResponses,
        invalidateLeaderLease, invalidateFollowerLease, Std.TreeMap.getElem?_modify_self]
      cases counting.nodes[own]? <;> rfl
    · simp [giveUpElection, modifyNode, clearElectionResponses] at counted
    · simp [giveUpElection, modifyNode, clearElectionResponses] at counted
  unfold decideElection
  cases preVote with
  | true =>
    simp only [if_true]
    split
    · rcases startVoteAfterPreVoteQuorum_spec home'
        (by rw [tallies.currentTerm]; exact room rfl) with same |
          ⟨atHome', term, leader, recent, counted⟩
      · grind
      · rw [tallies.currentTerm] at term
        exact .rises atHome' term leader recent counted
    · grind
  | false =>
    simp only [Bool.false_eq_true, if_false]
    rw [home'.counts]
    have decides := quorumReached_iff (home'.keyed founded.keyed)
      (grantedIds counting.voteResponses) false
    rw [tallies.electors] at decides
    split
    · rename_i won
      have reached := decides.mp won
      rcases becomeLeaderCurrentTerm_spec founded home' with
        ⟨same, unfit⟩ | ⟨atHome', term, leader, vote, recent, counted, fit⟩
      · rw [same]
        exact kept fun fit => absurd fit unfit
      refine .leads atHome' (term.trans tallies.currentTerm) leader vote recent counted
        fit _ Finset.inter_subset_left reached (fun nodeId member => countable nodeId ?_)
        (wins rfl fit reached)
      grind [mem_grantedIds, List.mem_toFinset]
    · rename_i lost
      split
      · exact givenUp
      refine kept fun _ _ => .inr ⟨included rfl, not_le.mp fun reached => lost ?_⟩
      rw [tallies.electors] at reached
      exact decides.mpr reached

theorem refusal_short (keyed : s.Keyed) {peerId : Nat} {peer : Node}
    (held : s.nodes[peerId]? = some peer) (takes : peer.replicaRole.participatesInQuorum = true)
   
    (short : (∀ nodeId : Nat, responses[nodeId]? = some true → nodeId = own) ∨
      (own ∈ responses ∧ (s.electors false ∩ (grantedIds responses).toFinset).card <
        (s.electors false).card / 2 + 1)) :
    (s.electors false ∩ (grantedIds (recordAnswer responses own peerId false)).toFinset).card <
      (s.electors false).card / 2 + 1 := by
  have granted : ∀ nodeId ∈ (grantedIds (recordAnswer responses own peerId false)).toFinset,
      nodeId ≠ peerId ∧
        (responses[nodeId]? = some true ∨ (nodeId = own ∧ own ∉ responses)) := by
    grind [recordAnswer_true, mem_grantedIds, List.mem_toFinset]
  rcases short with alone | ⟨included, few⟩
  · -- only the process's own vote is left, and the refusing peer is a second elector
    have onlyOwn : s.electors false ∩ (grantedIds (recordAnswer responses own peerId false)).toFinset
        ⊆ (s.electors false).erase peerId ∩ {own} := by grind
    have elector : peerId ∈ s.electors false := by
      refine keyed.mem_idsWhere.mpr ⟨peer, held, ?_⟩
      cases role : peer.replicaRole <;> rw [role] at takes <;> first | rfl | cases takes
    have few := Finset.card_le_card onlyOwn
    have erased := Finset.card_le_card
      (Finset.inter_subset_left : (s.electors false).erase peerId ∩ {own} ⊆ _)
    have single := Finset.card_le_card
      (Finset.inter_subset_right : (s.electors false).erase peerId ∩ {own} ⊆ _)
    have count := Finset.card_erase_add_one elector
    rw [Finset.card_singleton] at single
    omega
  · refine (Finset.card_le_card (Finset.inter_subset_inter_left fun nodeId member => ?_)).trans_lt few
    grind [List.mem_toFinset, mem_grantedIds]

section
variable (founded : home.Founded) (atHome : Home home own s) (short : Short home own s)
  (peerId : Nat)
include founded atHome short peerId

theorem recordVoteResponse_hears {granted preVote : Bool}
    (room : preVote = true → s.currentTerm < u64Max) :
    Hears home own peerId (granted = true ∧ preVote = false) s
      (recordVoteResponse own peerId granted preVote s).2 := by
  have unchanged : Hears home own peerId (granted = true ∧ preVote = false) s s :=
    .counts atHome rfl rfl (.inr rfl) (.inl rfl) (fun same nodeId counted =>
      .inr (.inl ⟨same, counted⟩)) short
  unfold recordVoteResponse
  split
  · exact unchanged
  rename_i peer held
  split
  · exact unchanged
  obtain ⟨recent, discards⟩ := discard_counted s
  have discarded : Tallies s s.discardElectionResponsesFromAnEarlierTerm := by
    refine ⟨?_, ?_, ?_, ?_, ?_, recent⟩ <;>
      · unfold discardElectionResponsesFromAnEarlierTerm
        split <;> rfl
  have electors := discarded.electors
  generalize s.discardElectionResponsesFromAnEarlierTerm = current at *
  have counted : ∀ nodeId : Nat, current.voteResponses[nodeId]? = some true →
      s.electionResponsesTerm = s.currentTerm ∧ s.voteResponses[nodeId]? = some true := by grind
  -- what is left of the count is still short
  have left : home.Fit own →
      (∀ nodeId : Nat, current.voteResponses[nodeId]? = some true → nodeId = own) ∨
      (own ∈ current.voteResponses ∧
        (s.electors false ∩ (grantedIds current.voteResponses).toFinset).card <
          (s.electors false).card / 2 + 1) := by
    intro fit
    rcases discards with ⟨same, kept⟩ | none
    · rw [kept]
      exact short fit same
    · simp [none]
  cases preVote with
  | true =>
    refine decideElection_hears founded atHome room ⟨discarded.nodes, discarded.currentTerm,
      discarded.leaderId, discarded.transfer, discarded.ignoreWitness, recent⟩
      (fun nodeId voted => .inr (.inl (counted nodeId voted))) (fun _ fit _ => ?_) nofun nofun
    rw [← electors] at left
    exact left fit
  | false =>
    refine decideElection_hears founded atHome room ⟨discarded.nodes, discarded.currentTerm,
      discarded.leaderId, discarded.transfer, discarded.ignoreWitness, recent⟩
      (fun nodeId voted => ?_) nofun (fun _ => ?_) fun _ fit reached => ⟨?_, rfl⟩
    · rcases recordAnswer_true voted with ⟨isPeer, grants⟩ | ⟨-, before | ⟨isOwn, -⟩⟩
      · exact .inr (.inr ⟨isPeer, grants, rfl⟩)
      · exact .inr (.inl (counted nodeId before))
      · exact .inl isOwn
    · simp [recordAnswer]
    · cases granted with
      | true => rfl
      | false =>
        have takes : peer.replicaRole.participatesInQuorum = true := by grind
        exact absurd reached (not_le.mpr (refusal_short (atHome.keyed founded.keyed)
          held takes (left fit)))

/-- **Hearing an answer.** It counts as a vote only if it grants one and is not of a later
term. -/
theorem handleVoteResponseFrom_hears (response : VoteResponse) {preVote : Bool}
    (room : preVote = true → s.currentTerm < u64Max) : Hears home own peerId
      (response.voteGranted = true ∧ preVote = false ∧ response.term ≤ s.currentTerm) s
      (handleVoteResponseFrom own peerId response preVote s).2 := by
  have unchanged : Hears home own peerId (response.voteGranted = true ∧ preVote = false ∧
      response.term ≤ s.currentTerm) s s :=
    .counts atHome rfl rfl (.inr rfl) (.inl rfl) (fun same nodeId counted =>
      .inr (.inl ⟨same, counted⟩)) short
  unfold handleVoteResponseFrom handleVoteResponseInner
  split
  · exact unchanged
  split
  · rename_i current
    exact (recordVoteResponse_hears founded atHome short peerId room).mono fun counts =>
      ⟨counts.1, counts.2, current⟩
  · rename_i later
    split
    · exact unchanged
    · exact unchanged
    split
    · rename_i asks
      refine (recordVoteResponse_hears founded atHome short peerId room).mono fun counts => ?_
      grind
    · have nodes : EachNode Node.SameMember s (s.stepIntoVoteTerm response.term) :=
        EachNode.mapNodes fun _ => ⟨rfl, rfl, fun well => well⟩
      refine .rises (atHome.step nodes (fun node held => ?_) atHome.idle atHome.counts)
        (not_le.mp later) rfl rfl fun nodeId counted => ?_
      · simp only [stepIntoVoteTerm, mapNodes, Std.TreeMap.getElem?_map] at held
        obtain ⟨before, -, rfl⟩ := Option.map_eq_some_iff.mp held
        rfl
      · simp [stepIntoVoteTerm, mapNodes, clearElectionResponses] at counted

end

end RaftCluster
end MatrixRaft
