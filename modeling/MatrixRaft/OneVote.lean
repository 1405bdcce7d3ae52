/-
# OneVote — a replica votes for one candidate a term

A replica's vote stands in its hard state under its own term, and the cluster keeps a term
of its own.  `Backs` says what both rule out once a vote is granted: the replica is in a
later term, or in that term with that vote, and the cluster has reached the term.
-/
import MatrixRaft.AppendRule
import MatrixRaft.Votes

namespace MatrixRaft
open Theory List Option

/-! ## Append requests only raise terms, and touch no vote -/

/-- The replica's term stays or moves up to a term with the property `P`; its vote stays. -/
structure Node.Rises (P : Nat → Prop) (before after : Node) : Prop where
  term : before.hardState.currentTerm ≤ after.hardState.currentTerm
  source : after.hardState.currentTerm = before.hardState.currentTerm ∨ P after.hardState.currentTerm
  vote : after.hardState.votedFor = before.hardState.votedFor

namespace Node.Rises
variable {P : Nat → Prop} {before middle after : Node}

theorem of_same (term : after.hardState.currentTerm = before.hardState.currentTerm)
    (vote : after.hardState.votedFor = before.hardState.votedFor) : Rises P before after :=
  ⟨term.ge, .inl term, vote⟩

theorem refl (node : Node) : Rises P node node := of_same rfl rfl

theorem trans (first : Rises P before middle) (second : Rises P middle after) :
    Rises P before after where
  term := first.term.trans second.term
  source := by
    rcases second.source with same | fresh
    · rw [same]
      exact first.source
    · exact .inr fresh
  vote := second.vote.trans first.vote

theorem of_term {term : Nat} (has : P term) (later : before.hardState.currentTerm ≤ term)
    (reached : after.hardState.currentTerm = term)
    (vote : after.hardState.votedFor = before.hardState.votedFor) : Rises P before after :=
  ⟨reached ▸ later, .inr (reached ▸ has), vote⟩

theorem of_sameButLog (same : SameButLog before after) : Rises P before after :=
  of_same (by rw [same.hardState]) (by rw [same.hardState])

theorem advanceCommit (node : Node) (commitIndex : Nat) :
    Rises P node (node.advanceCommit commitIndex) := by
  rw [advanceCommit_eq]
  exact of_same rfl rfl

end Node.Rises

variable {target : Nat} {f : Node → Node}

namespace RaftCluster
variable {P : Nat → Prop} {s s' s'' : RaftCluster}

structure Lifts (P : Nat → Prop) (s s' : RaftCluster) : Prop where
  term : s.currentTerm ≤ s'.currentTerm
  source : s'.currentTerm = s.currentTerm ∨ P s'.currentTerm
  nodes : EachNode (Node.Rises P) s s'

abbrev CachedTerms (P : Nat → Prop) (s : RaftCluster) : Prop := Cached (fun request => P request.term) s

namespace Lifts

theorem of_nodes (nodes : EachNode (Node.Rises P) s s') (term : s'.currentTerm = s.currentTerm) :
    Lifts P s s' :=
  ⟨term.ge, .inl term, nodes⟩

theorem of_eq (nodes : s'.nodes = s.nodes) (term : s'.currentTerm = s.currentTerm) : Lifts P s s' :=
  of_nodes (EachNode.of_nodes_eq Node.Rises.refl nodes) term

theorem refl (s : RaftCluster) : Lifts P s s := of_eq rfl rfl

theorem trans (first : Lifts P s s') (second : Lifts P s' s'') : Lifts P s s'' where
  term := first.term.trans second.term
  source := by
    rcases second.source with same | fresh
    · rw [same]
      exact first.source
    · exact .inr fresh
  nodes := EachNode.trans (fun _ _ _ => Node.Rises.trans) first.nodes second.nodes

theorem modifyNode
    (step : ∀ node, s.nodes[target]? = some node → Node.Rises P node (f node)) :
    Lifts P s (s.modifyNode target f) :=
  of_nodes (EachNode.modifyNode Node.Rises.refl step) rfl

theorem mapNodes (step : ∀ node, Node.Rises P node (f node)) :
    Lifts P s (s.mapNodes f) :=
  of_nodes (EachNode.mapNodes step) rfl

end Lifts

/-! ## Following the sender -/

theorem observeLeader_lifts {term : Nat} (leaderId : Nat) (has : P term)
    (current : s.currentTerm ≤ term) : Lifts P s (s.observeLeader term leaderId) := by
  unfold observeLeader
  split
  · exact .refl s
  refine Lifts.trans ?_ (.mapNodes fun node => .of_same rfl rfl)
  rw [concludeTransferFor_eq]
  exact ⟨current, .inr has, EachNode.of_nodes_eq Node.Rises.refl rfl⟩

theorem followRequestTerm_rises {term : Nat} (has : P term) (node : Node) :
    Node.Rises P node (followRequestTerm node term) := by
  unfold followRequestTerm
  split
  · rename_i later
    exact .of_term has later.le rfl rfl
  · exact .refl node

/-! ## The request -/

theorem takeEntries_rises {node : Node} {request : AppendEntriesRequest} (has : P request.term)
    (current : node.hardState.currentTerm ≤ request.term) (s : RaftCluster) (context : AppendContext)
    (entries : List LogEntry) : Node.Rises P node
      (AppendProgress.takeEntries context entries (s.appendStart node request)).1.node := by
  have started : Node.Rises P node (s.appendStart node request).node :=
    .of_term has current rfl rfl
  exact started.trans (.of_sameButLog (AppendProgress.takeEntries_same context entries _))

theorem lifts_appendRule : AppendRule (Lifts P) fun request => P request.term where
  trans := .trans
  kept := fun _ nodes term _ => .of_eq nodes term
  observed := fun has current => observeLeader_lifts _ has current
  followed := fun has held => .modifyNode fun found heldFound => by grind [followRequestTerm_rises]
  heartbeat := fun _ _ _ => (Lifts.modifyNode fun _ _ => .advanceCommit _ _).trans (.of_eq rfl rfl)
  refused := fun {s} _ _ _ _ context _ has held current _ _ => .modifyNode fun found heldFound => by
    obtain rfl := Option.some.inj (held.symm.trans heldFound)
    exact takeEntries_rises has current s context _
  taken := fun {s} _ _ _ _ context _ has held current _ outcome => by
    have rises := takeEntries_rises has current s context
    refine (Lifts.modifyNode fun found heldFound => ?_).trans (.of_eq rfl rfl)
    obtain rfl := Option.some.inj (held.symm.trans heldFound)
    refine Node.Rises.trans ?_ (.advanceCommit _ _)
    grind

end RaftCluster

/-! ## Votes that stand -/

def Node.Backs (term candidateId : Nat) (node : Node) : Prop :=
  term < node.hardState.currentTerm ∨
    term = node.hardState.currentTerm ∧ node.hardState.votedFor = some candidateId

theorem Node.Backs.le {term candidateId : Nat} {node : Node} (backs : Node.Backs term candidateId node) :
    term ≤ node.hardState.currentTerm := by
  rcases backs with later | ⟨same, -⟩
  · exact later.le
  · exact same.le

theorem Node.Backs.rises {P : Nat → Prop} {term candidateId : Nat} {before after : Node}
    (backs : Node.Backs term candidateId before) (rises : Node.Rises P before after) :
    Node.Backs term candidateId after := by
  rcases backs.le.lt_or_eq with later | same
  · exact .inl (later.trans_le rises.term)
  rcases rises.term.lt_or_eq with moved | stayed
  · exact .inl (same ▸ moved)
  rcases backs with later | ⟨-, vote⟩
  · omega
  · exact .inr ⟨same.trans stayed, rises.vote.trans vote⟩

namespace RaftCluster
variable {s s' : RaftCluster} {voterId term candidateId : Nat}

structure Backs (voterId term candidateId : Nat) (s : RaftCluster) : Prop where
  reached : term ≤ s.currentTerm
  voter : ∀ voter, s.nodes[voterId]? = some voter → Node.Backs term candidateId voter

section
variable (backs : Backs voterId term candidateId s)

include backs

theorem Backs.lifts {P : Nat → Prop}
    (lifts : Lifts P s s') : Backs voterId term candidateId s' where
  reached := backs.reached.trans lifts.term
  voter := fun voter' held' => by
    obtain ⟨voter, held, rises⟩ := lifts.nodes.back held'
    exact (backs.voter voter held).rises rises

theorem Backs.modifyNode {voter : Node}
    (held : s.nodes[target]? = some voter)
    (step : Node.Backs term candidateId voter → Node.Backs term candidateId (f voter)) :
    Backs voterId term candidateId (s.modifyNode target f) where
  reached := backs.reached
  voter := fun voter' held' => by
    rw [RaftCluster.modifyNode, Std.TreeMap.getElem?_modify] at held'
    split at held'
    · rename_i same
      obtain rfl := Std.LawfulEqCmp.eq_of_compare same
      rw [held, map_some] at held'
      cases held'
      exact step (backs.voter voter held)
    · exact backs.voter voter' held'

/-! ## Vote requests -/

omit backs in
theorem observeVoteRequestCandidate_lifts (s : RaftCluster) (target candidateId : Nat)
    (preVote : Bool) :
    Lifts (fun _ => True) s (s.observeVoteRequestCandidate target candidateId preVote) := by
  unfold observeVoteRequestCandidate
  split
  · refine .modifyNode fun node _ => ?_
    split
    · exact .of_same rfl rfl
    · exact .refl node
  · exact .refl s

theorem enterVoteTerm_backs (target requested : Nat) :
    Backs voterId term candidateId (s.enterVoteTerm target requested) := by
  unfold enterVoteTerm
  split
  · rename_i later
    refine Backs.lifts (P := fun _ => True) (s := ((s.adoptLaterTerm requested).modifyNode target
      fun voter => { voter with
        hardState.currentTerm := requested, hardState.votedFor := none })) ?_
      (.mapNodes fun node => .of_same rfl rfl)
    have reached := backs.reached
    have adopted : Backs voterId term candidateId (s.adoptLaterTerm requested) :=
      ⟨reached.trans later.le, backs.voter⟩
    rcases held : (s.adoptLaterTerm requested).nodes[target]? with _ | voter
    · -- nobody to move
      exact adopted.lifts (P := fun _ => True) (.modifyNode fun found heldFound => by grind)
    · exact adopted.modifyNode held fun _ => .inl (reached.trans_lt later)
  · exact backs

omit backs in
theorem followVoteTerm_backs {voter : Node} (requested : Nat)
    (backs : Node.Backs term candidateId voter) :
    Node.Backs term candidateId (followVoteTerm voter requested) := by
  unfold followVoteTerm
  split
  · rename_i later
    exact .inl (backs.le.trans_lt later)
  · exact backs

theorem castVote_backs (target : Nat)
    (request : VoteRequest) : Backs voterId term candidateId (castVote target request s).2 := by
  unfold castVote
  split
  · exact backs
  rename_i voter held
  have moved := backs.modifyNode held (f := fun _ => followVoteTerm voter request.term)
    (followVoteTerm_backs request.term)
  dsimp only
  iterate 3
    split
    · exact backs
  split
  · exact moved
  split
  · exact moved
  rename_i free
  -- the vote is the one already cast in this term, or the first of a later term
  have voted := backs.modifyNode held (f := fun _ =>
    { followVoteTerm voter request.term with
      hardState.votedFor := some request.candidateId }) (fun stands => by
      rcases followVoteTerm_backs request.term stands with later | ⟨same, vote⟩
      · exact .inl later
      · right
        grind)
  unfold recordVote
  refine ⟨le_max_of_le_left ?_, ?_⟩
  · split <;> exact voted.reached
  · split <;> exact voted.voter

omit backs in
theorem castVote_granted {request : VoteRequest} {response : VoteResponse}
    (ran : castVote target request s = (.ok response, s')) (granted : response.voteGranted = true) :
    Backs target request.term request.candidateId s' ∧
      ∃ voter, s'.nodes[target]? = some voter ∧ voter.hardState.currentTerm = request.term := by
  unfold castVote at ran
  split at ran
  · cases ran
  rename_i voter held
  dsimp only at ran
  iterate 5
    split at ran
    · cases ran
      cases granted
  cases ran
  have term : (followVoteTerm voter request.term).hardState.currentTerm = request.term := by
    unfold followVoteTerm
    split
    · rfl
    · omega
  have found : (s.recordVote target (followVoteTerm voter request.term)
      request.candidateId (request.term > voter.hardState.currentTerm)).nodes[target]?
      = some { followVoteTerm voter request.term with
        hardState.votedFor := some request.candidateId } := by
    unfold recordVote
    split <;> simp [modifyNode, held, invalidateLeaderLease, invalidateFollowerLease,
      clearReorderQueues]
  refine ⟨⟨?_, fun voter' held' => ?_⟩, _, found, term⟩
  · exact le_max_of_le_right term.ge
  rw [found] at held'
  cases held'
  exact .inr ⟨term.symm, rfl⟩

theorem voteTo_backs (target : Nat)
    (request : VoteRequest) : Backs voterId term candidateId (voteTo target request s).2 := by
  unfold voteTo
  iterate 3
    split
    · exact backs
  have observed := backs.lifts
    (observeVoteRequestCandidate_lifts s target request.candidateId request.preVote)
  dsimp only
  iterate 3
    split
    · exact observed
  split
  · exact observed
  · grind [castVote_backs, enterVoteTerm_backs]

omit backs in
theorem voteTo_granted {request : VoteRequest} {response : VoteResponse}
    (ran : voteTo target request s = (.ok response, s')) (granted : response.voteGranted = true)
    (binding : request.preVote = false) : Backs target request.term request.candidateId s' ∧
      ∃ voter, s'.nodes[target]? = some voter ∧ voter.hardState.currentTerm = request.term := by
  unfold voteTo at ran
  split at ran
  · cases ran
    cases granted
  split at ran
  · cases ran
  split at ran
  · cases ran
    cases granted
  dsimp only at ran
  split at ran
  · cases ran
  split at ran
  · cases ran
    cases granted
  rw [binding, if_neg Bool.false_ne_true] at ran
  split at ran
  · cases ran
    cases granted
  · exact castVote_granted ran granted

theorem appendEntries_backs (target : Nat) (request : AppendEntriesRequest) (changes : List Nat) :
    Backs voterId term candidateId
      (appendEntriesWithMembershipChangeIndexesTo target request changes s).2 :=
  backs.lifts (P := fun _ => True) (appendEntries_delivers lifts_appendRule trivial target changes s
    fun _ _ _ _ _ _ => trivial).2

end

/-! ## Runs of requests -/

/-- A request handed to one replica. -/
inductive Incoming where
  | vote (target : Nat) (request : VoteRequest)
  | append (target : Nat) (request : AppendEntriesRequest) (membershipChangeIndexes : List Nat)

structure Grant where
  (voterId term candidateId : Nat)
  deriving DecidableEq

namespace Incoming

def run : Incoming → RaftCluster → RaftCluster
  | vote target request, s => (voteTo target request s).2
  | append target request changes, s =>
    (appendEntriesWithMembershipChangeIndexesTo target request changes s).2

def grant : Incoming → RaftCluster → Option Grant
  | vote target request, s =>
    match (voteTo target request s).1 with
    | .ok response =>
      if response.voteGranted && !request.preVote then
        some ⟨target, request.term, request.candidateId⟩
      else none
    | .error _ => none
  | append _ _ _, _ => none

def grants : List Incoming → RaftCluster → List Grant
  | [], _ => []
  | incoming :: rest, s => (incoming.grant s).toList ++ grants rest (incoming.run s)

theorem run_backs (incoming : Incoming) (backs : Backs voterId term candidateId s) :
    Backs voterId term candidateId (incoming.run s) := by
  cases incoming with
  | vote target request => exact voteTo_backs backs target request
  | append target request changes => exact appendEntries_backs backs target request changes

theorem run_granted {incoming : Incoming} {granted : Grant} (found : incoming.grant s = some granted) :
    Backs granted.voterId granted.term granted.candidateId (incoming.run s) ∧
      ∃ voter, (incoming.run s).nodes[granted.voterId]? = some voter ∧
        voter.hardState.currentTerm = granted.term := by
  cases incoming with
  | append => cases found
  | vote =>
    simp only [grant] at found
    split at found
    · rename_i response answered
      split at found
      · rename_i grants
        simp only [Bool.and_eq_true, Bool.not_eq_true'] at grants
        cases found
        exact voteTo_granted (Prod.ext answered rfl) grants.1 grants.2
      · cases found
    · cases found

theorem grants_backed : ∀ (requests : List Incoming) (s : RaftCluster),
    Backs voterId term candidateId s → ∀ granted ∈ grants requests s, granted.voterId = voterId →
      granted.term = term → granted.candidateId = candidateId
  | [], _, _, _, member, _, _ => by cases member
  | incoming :: rest, s, backs, granted, member, sameVoter, sameTerm => by
    have kept := incoming.run_backs backs
    rcases mem_append.mp member with now | later
    · obtain ⟨votes, voter, held, inTerm⟩ := run_granted (mem_toList.mp now)
      -- both stand in the voter's hard state, in its present term
      rw [sameVoter] at votes held
      rcases kept.voter voter held with past | ⟨-, vote⟩
      · omega
      · rcases votes.voter voter held with past | ⟨-, vote'⟩
        all_goals grind
    · exact grants_backed rest _ kept granted later sameVoter sameTerm

end Incoming

/-- **One vote a term.** Whatever requests reach whichever replicas from whatever state, a
replica grants no two candidates a binding vote in one term. -/
theorem one_vote_per_term : ∀ (requests : List Incoming) (s : RaftCluster) (one two : Grant),
    one ∈ Incoming.grants requests s → two ∈ Incoming.grants requests s →
    one.voterId = two.voterId → one.term = two.term → one.candidateId = two.candidateId
  | [], _, _, _, member, _, _, _ => by cases member
  | incoming :: rest, s, one, two, first, second, sameVoter, sameTerm => by
    rcases mem_append.mp first with now | later <;>
      rcases mem_append.mp second with now' | later'
    · cases (mem_toList.mp now).symm.trans (mem_toList.mp now')
      rfl
    · have backs := (Incoming.run_granted (mem_toList.mp now)).1
      exact (Incoming.grants_backed rest _ backs two later' sameVoter.symm sameTerm.symm).symm
    · have backs := (Incoming.run_granted (mem_toList.mp now')).1
      exact Incoming.grants_backed rest _ backs one later sameVoter sameTerm
    · exact one_vote_per_term rest _ one two later later' sameVoter sameTerm

section Runs

/-- Voter 2 grants term 3 to candidate 1, hears an append of it, refuses candidate 3 and
grants candidate 1 again. -/
def busyElection : List Incoming :=
  [ .vote 2 ⟨1, 3, 1, none, false, true⟩,
    .append 2 ⟨1, 3, 1, none, [], 0, 0⟩ [],
    .vote 2 ⟨1, 3, 3, none, false, true⟩,
    .vote 2 ⟨1, 3, 1, none, false, true⟩ ]

theorem one_vote_per_term_busy : ∃ fresh, new 1 Config.default (votersOf [1, 2, 3]) = .ok fresh ∧
    Incoming.grants busyElection fresh = [⟨2, 3, 1⟩, ⟨2, 3, 1⟩] ∧
    ∀ granted ∈ Incoming.grants busyElection fresh, granted.voterId = 2 → granted.term = 3 →
      granted.candidateId = 1 := by
  have unique : ∀ fresh, Incoming.grants busyElection fresh = [⟨2, 3, 1⟩, ⟨2, 3, 1⟩] →
      ∀ granted ∈ Incoming.grants busyElection fresh, granted.voterId = 2 → granted.term = 3 →
        granted.candidateId = 1 := fun fresh grants granted member sameVoter sameTerm =>
    one_vote_per_term busyElection fresh granted ⟨2, 3, 1⟩ member (by simp [grants]) sameVoter sameTerm
  have grants : ∃ fresh, new 1 Config.default (votersOf [1, 2, 3]) = .ok fresh ∧
      Incoming.grants busyElection fresh = [⟨2, 3, 1⟩, ⟨2, 3, 1⟩] := ⟨_, rfl, by decide +kernel⟩
  obtain ⟨fresh, created, granted⟩ := grants
  exact ⟨fresh, created, granted, unique fresh granted⟩

end Runs

/-! ## Pre-votes -/

variable {s s' : RaftCluster} {request : VoteRequest} {voter : Node} {target candidateId : Nat}

/-- A second request finds the voter and the candidate as the first one left them. -/
theorem observe_again
    (fit : (s.observeVoteRequestCandidate target candidateId true).candidateFault candidateId = none)
    (held : (s.observeVoteRequestCandidate target candidateId true).nodes[target]? = some voter) :
    ∃ nodes, (s.observeVoteRequestCandidate target candidateId true).observeVoteRequestCandidate target
        candidateId false = { s with nodes := nodes } ∧ nodes[target]? = some voter ∧
      { s with nodes := nodes }.candidateFault candidateId = none := by
  unfold observeVoteRequestCandidate candidateFault modifyNode at *
  by_cases leads : (s.nodes[target]?).any fun node => node.raftRole == .leader
  · simp only [leads, if_true] at *
    by_cases same : target = candidateId
    · subst same
      refine ⟨s.nodes.modify target _, ?_, held, fit⟩
      grind
    · split
      · refine ⟨_, rfl, ?_, ?_⟩ <;> grind
      · exact ⟨_, rfl, held, fit⟩
  · simp only [leads, Bool.false_eq_true, if_false] at *
    exact ⟨s.nodes, rfl, held, fit⟩

/-- In a term past the cluster's, a vote depends on the log alone. -/
theorem castVote_later (later : s.currentTerm < request.term) (held : s.nodes[target]? = some voter)
    (fresh : voter.isFreshCandidateLog request.lastLogId = true) :
    (castVote target request (s.enterVoteTerm target request.term)).1
      = .ok ⟨request.term, true, .voteGranted⟩ := by
  have same : (s.adoptLaterTerm request.term).nodes = s.nodes := rfl
  have leaderless : (s.adoptLaterTerm request.term).leaderId = none := rfl
  rw [enterVoteTerm, if_pos later, castVote]
  simp [mapNodes, modifyNode, same, held, leaderless, followVoteTerm]
  exact congrArg Prod.fst (if_neg (show ¬ voter.isFreshCandidateLog request.lastLogId = false by simp [fresh]))

/-- **A granted pre-vote is kept.** Who is granted a pre-vote for a term past the cluster's is granted
the vote it asks for next. -/
theorem granted_preVote_kept {response : VoteResponse} (later : s.currentTerm < request.term)
    (asked : voteTo target { request with preVote := true } s = (.ok response, s'))
    (granted : response.voteGranted = true) :
    (voteTo target { request with preVote := false } s').1 = .ok ⟨request.term, true, .voteGranted⟩ := by
  unfold voteTo at asked
  split at asked
  · cases asked
    cases granted
  rename_i group
  split at asked
  · cases asked
  rename_i node held
  split at asked
  · cases asked
    cases granted
  rename_i votes
  dsimp only at asked
  split at asked
  · cases asked
  rename_i voter observed
  split at asked
  · cases asked
    cases granted
  rename_i free
  rw [if_pos rfl] at asked
  cases asked
  obtain ⟨fit, fresh⟩ : (s.observeVoteRequestCandidate target request.candidateId true).candidateFault
      request.candidateId = none ∧ voter.isFreshCandidateLog request.lastLogId = true := by
    unfold answerPreVote at granted
    grind
  obtain ⟨nodes, again, held', fit'⟩ := observe_again fit observed
  have cast := @castVote_later { s with nodes := nodes } { request with preVote := false } voter target
    later held' fresh
  have votes' : voter.replicaRole = node.replicaRole := by
    unfold observeVoteRequestCandidate modifyNode at observed
    grind
  have group' : (s.observeVoteRequestCandidate target request.candidateId true).groupId = s.groupId := by
    unfold observeVoteRequestCandidate
    split <;> rfl
  have free' : { s with nodes := nodes }.voterInLease voter { request with preVote := false } = false := by
    unfold observeVoteRequestCandidate at free
    split at free <;> exact Bool.eq_false_of_not_eq_true free
  rw [voteTo, if_neg (by rw [group']; exact group)]
  simp [observed, votes', votes, again, held', free', fit', cast]

theorem granted_preVote_kept_fresh : ∃ fresh, new 1 Config.default (votersOf [1, 2, 3]) = .ok fresh ∧
    ∃ response s', voteTo 2 ⟨1, 3, 1, none, true, true⟩ fresh = (.ok response, s') ∧
      (voteTo 2 ⟨1, 3, 1, none, false, true⟩ s').1 = .ok ⟨3, true, .voteGranted⟩ := by
  have kept (s response s') := @granted_preVote_kept s s' ⟨1, 3, 1, none, true, true⟩ 2 response
  refine ⟨_, rfl, (fun later asked granted => ⟨_, _, asked, kept _ _ _ later asked granted⟩ :
    _ < 3 → _ = _ → _ = true → _) ?_ rfl ?_⟩
  all_goals decide +kernel

end RaftCluster
end MatrixRaft
