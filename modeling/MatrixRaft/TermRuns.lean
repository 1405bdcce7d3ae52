/-
# TermRuns — terms never go back

Every operation of a cluster, one after another.  Two inputs lower a term, and `KeepsTerms`
rules them out: an append of the known leader with a term the cluster has not reached, which
raises a replica's term and not the cluster's, and a record older than the replica it
restores.
-/
import MatrixRaft.Rosters
import MatrixRaft.TermClimb

namespace MatrixRaft
open Theory Attempt Std.TreeMap Attempt.Moves

namespace RaftCluster
variable {s s' s'' : RaftCluster}

/-! ## Votes -/

theorem observeVoteRequestCandidate_still (s : RaftCluster) (target candidateId : Nat)
    (preVote : Bool) : Still s (s.observeVoteRequestCandidate target candidateId preVote) := by
  unfold observeVoteRequestCandidate
  split
  · refine .modifyNode fun node _ => ?_
    split <;> exact Eq.refl _
  · exact .refl s

theorem enterVoteTerm_lifted (s : RaftCluster) (target term : Nat) :
    Lifted s (s.enterVoteTerm target term) ∧ term ≤ (s.enterVoteTerm target term).currentTerm := by
  unfold enterVoteTerm
  split
  · rename_i later
    refine ⟨Lifted.trans ?_ (.of_still (.mapNodes fun node => Eq.refl _)), le_rfl⟩
    intro within
    have adopted : Lifted s (s.adoptLaterTerm term) := .of_raised rfl later.le (.inr rfl)
    -- the voter was within the term the cluster leaves
    refine adopted.trans ?_ within
    rcases held : (s.adoptLaterTerm term).nodes[target]? with _ | voter
    · exact .of_still (.modifyNode fun found heldFound => by grind)
    · exact .modifyNode held (fun _ => (within.nodes target voter held).trans later.le) le_rfl
  · rename_i reached
    exact ⟨.refl s, not_lt.mp reached⟩

theorem followVoteTerm_up (voter : Node) (term : Nat) :
    Node.TermUp voter (followVoteTerm voter term) := by
  unfold followVoteTerm
  split
  · rename_i later
    exact later.le
  · exact .refl voter

theorem followVoteTerm_le {voter : Node} {term bound : Nat} (le : term ≤ bound)
    (bounded : voter.hardState.currentTerm ≤ bound) :
    (followVoteTerm voter term).hardState.currentTerm ≤ bound := by
  unfold followVoteTerm
  grind

theorem castVote_lifted {request : VoteRequest} (target : Nat) (reached : request.term ≤ s.currentTerm) :
    Lifted s (castVote target request s).2 := by
  intro within
  unfold castVote
  split
  · exact Lifted.refl s within
  rename_i voter held
  have bounded := followVoteTerm_le reached (within.nodes target voter held)
  have moved : ∀ after : Node, after.hardState.currentTerm
      = (followVoteTerm voter request.term).hardState.currentTerm →
        Lifted s (s.modifyNode target fun _ => after) := fun after same =>
    .modifyNode held (fun _ => (followVoteTerm_up voter request.term).trans same.ge)
      (same.le.trans bounded)
  dsimp only
  iterate 3
    split
    · exact Lifted.refl s within
  split
  · exact moved _ rfl within
  split
  · exact moved _ rfl within
  have voted := moved { followVoteTerm voter request.term with
    hardState.votedFor := some request.candidateId } rfl
  unfold recordVote
  refine voted.trans ?_ within
  split
  · exact .of_raised rfl (le_max_left _ _) (.inr rfl)
  · exact .of_raised rfl (le_max_left _ _) (.inl rfl)

variable (target : Nat)

theorem voteTo_lifted (request : VoteRequest) : Moves Lifted (voteTo target request) := by
  intro s
  unfold voteTo
  iterate 3
    split
    · exact .refl s
  have observed : Lifted s (s.observeVoteRequestCandidate target request.candidateId
      request.preVote) := .of_still (observeVoteRequestCandidate_still s _ _ _)
  dsimp only
  iterate 4
    split
    · exact observed
  obtain ⟨entered, reached⟩ := enterVoteTerm_lifted
    (s.observeVoteRequestCandidate target request.candidateId request.preVote)
    target request.term
  exact (observed.trans entered).trans (castVote_lifted target reached)

theorem enterElection_lifted (s : RaftCluster) (candidateId : Nat) (role : StateRole) :
    Lifted s (s.enterElection candidateId role) := by
  have readied : Still s (invalidateFollowerLease (resetLeaderLeaseEpoch (clearReorderQueues
      (clearElectionResponses { s with lastIndexBeforeCurrentTerm := s.lastLogIndex })))) :=
    .of_cleared rfl rfl rfl
  exact (Lifted.of_still readied).trans (adoptElection_lifted rfl candidateId role)

theorem becomeLeaderCurrentTerm_lifted (candidateId : Nat) :
    Moves Lifted (becomeLeaderCurrentTerm candidateId) := by
  intro s
  unfold becomeLeaderCurrentTerm
  split
  · exact .refl s
  have claimed : Lifted s { s with leaderId := some candidateId } := .of_still (.of_eq rfl rfl rfl)
  have led := (claimed.trans (enterElection_lifted _ candidateId .leader)).trans
    (.of_still (resetReplicationPipelinesForLeader_still _ candidateId))
  dsimp only
  split
  · rw [bind_pure_state]
    exact led.trans (proposeWithOptions_lifted _ _ _)
  · exact led

theorem startVoteAfterPreVoteQuorum_lifted (candidateId : Nat) (fits : s.currentTerm ≤ u64Max) :
    Lifted s (startVoteAfterPreVoteQuorum candidateId s).2 := by
  have answered : ∀ t : RaftCluster, Still t { t with
      voteResponses := t.voteResponses.insert candidateId true } := fun t => .of_eq rfl rfl rfl
  unfold startVoteAfterPreVoteQuorum
  split
  · exact .refl s
  have later : Lifted s { s with currentTerm := satAdd s.currentTerm 1, leaderId := none } :=
    .of_raised rfl (le_min (Nat.le_succ _) fits) (.inl rfl)
  exact (later.trans (enterElection_lifted _ candidateId .candidate)).trans (.of_still (answered _))

theorem decideElection_lifted (localNodeId : Nat) (preVote : Bool) (fits : s.currentTerm ≤ u64Max) :
    Lifted s (decideElection localNodeId preVote s).2 := by
  unfold decideElection
  extract_lets votes membership
  split
  · split
    · exact startVoteAfterPreVoteQuorum_lifted localNodeId fits
    · exact becomeLeaderCurrentTerm_lifted localNodeId s
  · split
    · refine Lifted.trans ?_ (.of_still (.modifyNode fun node _ => Eq.refl _))
      exact .of_still (.of_eq rfl rfl rfl)
    · exact .refl s

theorem recordVoteResponse_lifted (localNodeId peerId : Nat) (granted preVote : Bool)
    (fits : s.currentTerm ≤ u64Max) :
    Lifted s (recordVoteResponse localNodeId peerId granted preVote s).2 := by
  unfold recordVoteResponse
  split
  · exact .refl s
  split
  · exact .refl s
  have current : Still s s.discardElectionResponsesFromAnEarlierTerm := by
    unfold discardElectionResponsesFromAnEarlierTerm
    split <;> exact .of_eq rfl rfl rfl
  have recorded : Still s (if preVote then
      { s.discardElectionResponsesFromAnEarlierTerm with
        preVoteResponses := recordAnswer
          s.discardElectionResponsesFromAnEarlierTerm.preVoteResponses localNodeId peerId granted }
      else { s.discardElectionResponsesFromAnEarlierTerm with
        voteResponses := recordAnswer
          s.discardElectionResponsesFromAnEarlierTerm.voteResponses localNodeId peerId granted }) := by
    split <;> exact current.trans (.of_eq rfl rfl rfl)
  exact (Lifted.of_still recorded).trans
    (decideElection_lifted localNodeId preVote (recorded.term.trans_le fits))

theorem handleVoteResponseInner_lifted (localNodeId : Nat) (peerId : Option Nat)
    (response : VoteResponse) (preVote : Bool) (fits : s.currentTerm ≤ u64Max) :
    Lifted s (handleVoteResponseInner localNodeId peerId response preVote s).2 := by
  unfold handleVoteResponseInner
  split
  · exact .refl s
  split
  · split
    · exact recordVoteResponse_lifted _ _ _ _ fits
    · exact .refl s
  · rename_i later
    split
    · exact .refl s
    · exact .refl s
    split
    · split
      · exact recordVoteResponse_lifted _ _ _ _ fits
      · exact .refl s
    · exact .of_entered rfl (not_le.mp later).le rfl fun node => rfl

/-! ## Appends and heartbeats -/

theorem observeLeader_term {term leaderId : Nat} (current : s.currentTerm ≤ term)
    (known : s.leaderId = some leaderId → term ≤ s.currentTerm) :
    (s.observeLeader term leaderId).currentTerm = term := by
  unfold observeLeader
  split
  · grind
  dsimp only
  rw [concludeTransferFor_eq]
  rfl

variable {request : AppendEntriesRequest}

theorem appendEntries_reaches (target : Nat) (changes : List Nat) (within : Within s) (known :
    s.leaderId = some request.leaderId → request.term ≤ s.currentTerm) :
    (appendEntriesWithMembershipChangeIndexesTo target request changes s).2 = s ∨ s.currentTerm ≤
    request.term ∧ request.term ≤ (appendEntriesWithMembershipChangeIndexesTo target request changes
    s).2.currentTerm := by
  unfold appendEntriesWithMembershipChangeIndexesTo appendEntriesWith
  split
  · exact .inl rfl
  split
  · split <;> exact .inl rfl
  split
  · split <;> exact .inl rfl
  rename_i _ _ stale
  have current := not_lt.mp stale
  have cached : CachedTerms (· ≤ request.term) s :=
    within.cached.mono fun _ _ bounded => le_trans bounded current
  have rule := @lifts_appendRule (· ≤ request.term)
  let P : Nat → AppendEntriesRequest → Prop := fun _ other => other.term ≤ request.term
  obtain ⟨granted, toGrant⟩ := grantLease_delivers (P := P) rule _ target request
    (observeLeader_cached (fun _ => cached) request.term)
  obtain ⟨-, toAnswer⟩ := @deliverAppend_delivers _ P _ target request changes _ rule
    (drainReorderedAppends_delivers (P := P) rule _) (le_refl request.term) _ granted
  exact .inr ⟨current, (observeLeader_term current known).ge.trans (toGrant.trans toAnswer).term⟩

/-- **Appends.** Unless the known leader sends it with a term the cluster has not
reached, an append, with all it replays, lifts. -/
theorem appendEntries_lifted (target : Nat) (changes : List Nat)
    (known : s.leaderId = some request.leaderId → request.term ≤ s.currentTerm) :
    Lifted s (appendEntriesWithMembershipChangeIndexesTo target request changes s).2 := by
  intro within
  rcases appendEntries_reaches target changes within known with same | ⟨current, reached⟩
  · rw [same]
    exact Lifted.refl s within
  -- every term the request brings is at most its own, which the cluster has reached
  have cached : CachedTerms (· ≤ request.term) s :=
    within.cached.mono fun _ _ bounded => le_trans bounded current
  obtain ⟨cached', lifts⟩ := appendEntries_delivers (@lifts_appendRule (· ≤ request.term))
    (le_refl request.term) target changes s cached
  refine ⟨⟨fun nodeId node' held' => ?_, cached'.mono fun _ _ bounded => le_trans bounded reached⟩,
    lifts.term, lifts.nodes.mono fun _ _ rises => rises.term⟩
  obtain ⟨node, held, rises⟩ := lifts.nodes.back held'
  rcases rises.source with same | bounded
  · rw [same]
    exact (within.nodes nodeId node held).trans lifts.term
  · exact le_trans bounded reached

variable (leaderId peerId : Nat)

theorem heartbeatAppend_lifted (s : RaftCluster) :
    Lifted s (appendEntriesTo peerId (s.heartbeatRequest leaderId peerId) s).2 :=
  appendEntries_lifted peerId [] fun _ => le_rfl

theorem heartbeatPeer_lifted : Moves Lifted (heartbeatPeer leaderId peerId) := by
  intro s
  unfold heartbeatPeer
  split
  · exact .refl s
  refine moved_bind (heartbeatAppend_lifted leaderId peerId s) fun response => ?_
  refine bind (handleAppendEntriesResponseInner_lifted _ _ _ _ _) fun _ =>
    bind (update fun reached =>
      .of_still (modifyPipeline_still reached peerId _)) fun _ => ?_
  intro reached
  dsimp only
  split
  · rw [bind_pure_state]
    exact catchUpPeerWithReason_lifted _ _ reached
  · exact .refl reached

theorem heartbeatRound_lifted (leaderId : Nat) : ∀ (peerIds : List Nat) (sent : Nat),
    Moves Lifted (heartbeatRound leaderId peerIds sent)
  | [], _ => pure _
  | peerId :: rest, sent => by
    refine bind (heartbeatPeer_lifted leaderId peerId) fun beat => ?_
    split <;> exact heartbeatRound_lifted leaderId rest _

theorem broadcastHeartbeat_lifted : Moves Lifted broadcastHeartbeat := by
  intro s
  unfold broadcastHeartbeat
  split
  · exact .refl s
  split
  · exact .refl s
  refine bind (lifts_of_settles (markPeerActive_settles _)) (fun _ => ?_) s
  split
  · exact pure _
  refine bind (heartbeatRound_lifted _ _ _) fun sent =>
    bind (update fun reached => ?_) fun _ => pure _
  split
  · exact .of_still ((refreshCommitIndex_still reached).trans (.of_eq rfl rfl rfl))
  · exact .refl reached

theorem unpausePeer_lifted : Moves Lifted (unpausePeer leaderId peerId) := by
  intro s
  unfold unpausePeer
  iterate 3
    split
    · exact .refl s
  rename_i pipeline _ _
  have stored : Lifted s { s with
      peerPipelines := s.peerPipelines.insert peerId pipeline.takeEmptyAppendDueToOldPause.2 } :=
    .of_still (.of_eq rfl rfl rfl)
  dsimp only
  split
  · exact stored
  exact stored.trans (moved_bind (heartbeatAppend_lifted leaderId peerId _)
    fun response => bind
      (handleAppendEntriesResponseInner_lifted _ _ _ _ _) fun _ => pure _)

theorem unpauseRound_lifted (leaderId : Nat) : ∀ (peerIds : List Nat) (sent : Nat),
    Moves Lifted (unpauseRound leaderId peerIds sent)
  | [], _ => pure _
  | peerId :: rest, sent => by
    refine bind (unpausePeer_lifted leaderId peerId) fun sentNow => ?_
    split <;> exact unpauseRound_lifted leaderId rest _

theorem broadcastCommitIndexToOldPausedPeers_lifted :
    Moves Lifted broadcastCommitIndexToOldPausedPeers := by
  intro s
  unfold broadcastCommitIndexToOldPausedPeers
  split
  · exact .refl s
  · exact unpauseRound_lifted _ _ _ s

/-! ## Members -/

def Climbs (s s' : RaftCluster) : Prop :=
  Within s → Within s' ∧ s.currentTerm ≤ s'.currentTerm ∧
    ∀ (nodeId : Nat) (node node' : Node), s.nodes[nodeId]? = some node →
      s'.nodes[nodeId]? = some node' → Node.TermUp node node'

namespace Climbs

theorem of_lifted (lifted : Lifted s s') : Climbs s s' := by
  intro within
  obtain ⟨within', term, nodes⟩ := lifted within
  refine ⟨within', term, fun nodeId node node' held held' => ?_⟩
  obtain ⟨reached, heldReached, up⟩ := (nodes nodeId).1 node held
  grind

theorem of_still (still : Still s s') : Climbs s s' := of_lifted (.of_still still)

theorem of_settles (settles : Settles s s') : Climbs s s' := of_still (.of_settles settles)

theorem refl (s : RaftCluster) : Climbs s s := of_lifted (.refl s)

theorem lifted (climbs : Climbs s s') (lifted : Lifted s' s'') : Climbs s s'' := by
  intro within
  obtain ⟨within', term, nodes⟩ := climbs within
  obtain ⟨within'', term', nodes'⟩ := lifted within'
  refine ⟨within'', term.trans term', fun nodeId node node'' held held'' => ?_⟩
  obtain ⟨node', held', up⟩ := nodes'.back held''
  exact le_trans (nodes nodeId node node' held held') up

theorem still (climbs : Climbs s s') (still : Still s' s'') : Climbs s s'' :=
  climbs.lifted (.of_still still)

theorem after (lifted : Lifted s s') (climbs : Climbs s' s'') : Climbs s s'' := by
  intro within
  obtain ⟨within', term, nodes⟩ := lifted within
  obtain ⟨within'', term', nodes'⟩ := climbs within'
  refine ⟨within'', term.trans term', fun nodeId node node'' held held'' => ?_⟩
  obtain ⟨node', held', up⟩ := (nodes nodeId).1 node held
  exact up.trans (nodes' nodeId node' node'' held' held'')

theorem of_forgets {gone : Nat → Prop} (forgets : Forgets gone s s') : Climbs s s' := by
  intro within
  have kept : ∀ (nodeId : Nat) (node : Node), s'.nodes[nodeId]? = some node →
      s.nodes[nodeId]? = some node := by
    intro nodeId node held
    rw [← (forgets.nodes nodeId).2 fun is => by grind [forgets.nodes]]
    exact held
  refine ⟨⟨fun nodeId node held => ?_, ?_⟩, forgets.currentTerm.ge, fun nodeId node node' held held' => ?_⟩
  · rw [forgets.currentTerm]
    exact within.nodes nodeId node (kept nodeId node held)
  · rw [forgets.currentTerm]
    exact forgets.cached _ within.cached
  · obtain rfl := Option.some.inj (held.symm.trans (kept nodeId node' held'))
    exact .refl node

end Climbs

theorem climbs_bind {α β : Type} {m : ClusterM α} {f : α → ClusterM β}
    (first : Climbs s (m s).2) (rest : ∀ a, Moves Lifted (f a)) : Climbs s ((m >>= f) s).2 :=
  reached_bind first fun a s' climbs => climbs.lifted (rest a s')

theorem resetLeaderLeaseEpoch_settles (s : RaftCluster) : Settles s s.resetLeaderLeaseEpoch :=
  .of_core rfl rfl rfl

theorem admitPeer_climbs {peer : Peer} (absent : s.nodes.contains peer.nodeId = false) :
    Climbs s (s.admitPeer peer) := by
  have inserted : Climbs s { s with
      reorderQueues := s.reorderQueues.erase peer.nodeId
      nodes := s.nodes.insert peer.nodeId (Node.new peer.nodeId peer.role peer.autoPromote) } := by
    intro within
    refine ⟨⟨fun nodeId node held => ?_, within.cached.erase rfl⟩, le_rfl,
      fun nodeId node node' held held' => ?_⟩
    · rw [getElem?_insert] at held
      split at held
      · cases held
        exact Nat.zero_le _
      · exact within.nodes nodeId node held
    · rw [getElem?_insert, if_neg, held] at held'
      · cases held'
        exact .refl node
      · grind
  unfold admitPeer
  refine Climbs.still ?_ (.of_settles (refreshReplicationPipelines_settles _))
  exact inserted.still (.of_eq rfl rfl rfl)

theorem addPeer_climbs (peer : Peer) : Climbs s (addPeer peer s).2 := by
  unfold addPeer
  split
  · exact .refl s
  split
  · exact .refl s
  rename_i absent
  have admitted := admitPeer_climbs (Bool.eq_false_iff.mpr absent)
  split
  · rw [bind_pure_state]
    exact admitted.lifted (catchUpPeerWithReason_lifted _ _ _)
  · exact admitted

theorem removePeer_climbs (nodeId : Nat) : Climbs s (removePeer nodeId s).2 := by
  unfold removePeer
  split
  · exact .refl s
  split
  · exact .refl s
  have forgotten := Forgets.forgetPeer s nodeId "transferee_removed"
  split
  · have vacated := Climbs.of_forgets forgotten.vacated
    split
    · exact vacated.still (.of_settles (refreshReplicationPipelines_settles _))
    exact vacated.lifted (bind (campaign_lifted _ _) (fun _ =>
      update fun reached =>
        .of_still (.of_settles (refreshReplicationPipelines_settles reached))) _)
  · have reset := (Climbs.of_forgets forgotten).still
      (.of_settles (resetLeaderLeaseEpoch_settles _))
    exact (reset.still (refreshCommitIndex_still _)).still
      (.of_settles (refreshReplicationPipelines_settles _))

theorem promoteCommitted_still (s : RaftCluster) (nodeId : Nat) : Still s (s.promoteCommitted nodeId) := by
  have promoted : Still s (s.modifyNode nodeId promoted) := .modifyNode fun node _ => Eq.refl _
  exact (promoted.trans (.of_settles (resetLeaderLeaseEpoch_settles _))).trans
    (.of_settles (refreshReplicationPipelines_settles _))

theorem applyCommittedAdd_climbs (peer : Peer) : Climbs s (applyCommittedAdd peer s).2 := by
  unfold applyCommittedAdd
  split
  · rw [bind_pure_state]
    exact addPeer_climbs peer
  split
  · exact .of_still (promoteCommitted_still s _)
  · exact .refl s

variable (operation : MembershipOperation)

theorem applyCommittedMembershipOperation_climbs :
    Climbs s (applyCommittedMembershipOperation operation s).2 := by
  unfold applyCommittedMembershipOperation
  cases operation with
  | addNode | addVoter | addLearner | addWitness => exact applyCommittedAdd_climbs _
  | promote =>
    dsimp only
    split
    · exact .refl s
    split
    · exact .refl s
    · exact .of_still (promoteCommitted_still s _)
    · exact .refl s
  | remove nodeId =>
    dsimp only
    split
    · exact .refl s
    · rw [bind_pure_state]
      exact removePeer_climbs nodeId
  | transferLeader nodeId =>
    rw [bind_pure_state]
    exact .of_lifted (transferLeader_lifted nodeId s)

theorem executePromotion_lifted (nodeId : Nat) : Moves Lifted (executePromotion nodeId) := by
  refine bind (learnerCatchUpLoop_lifted nodeId) fun caughtUp => ?_
  intro reached
  dsimp only
  split
  · exact .refl reached
  split
  · exact .refl reached
  split
  · exact lifts_of_settles (@promotePeer_settles nodeId nodeId) reached
  · exact .refl reached

theorem execute_climbs : Climbs s (execute operation s).2 := by
  unfold execute
  split
  · unfold executeValidated
    cases operation with
    | addNode | addVoter =>
      rw [bind_pure_state]
      exact applyCommittedMembershipOperation_climbs _
    | addLearner | addWitness => exact addPeer_climbs _
    | promote nodeId => exact .of_lifted (executePromotion_lifted nodeId s)
    | remove nodeId => exact removePeer_climbs nodeId
    | transferLeader nodeId => exact .of_lifted (transferLeader_lifted nodeId s)
  · exact .refl s

theorem setAutoPromote_settles (s : RaftCluster) (nodeId : Nat) (autoPromote : Bool) :
    SettlesFor nodeId s (s.setAutoPromote nodeId autoPromote) :=
  .modifyNode fun _ _ => .of_same rfl rfl rfl rfl rfl rfl rfl fun well => well

theorem setAutoPromoteState_settles (s : RaftCluster) (nodeId : Nat)
    (state : LearnerAutoPromoteState) : SettlesFor nodeId s (s.setAutoPromoteState nodeId state) :=
  .modifyNode fun _ _ => .of_same rfl rfl rfl rfl rfl rfl rfl fun well => well

theorem concludeAutoPromotion_settles (learnerId : Nat) (learner : Node)
    (checking : LearnerAutoPromoteState) (catchup : LearnerCatchUpLoopReport) :
    Moves (SettlesFor learnerId) (concludeAutoPromotion learnerId learner checking catchup) := by
  intro s
  unfold concludeAutoPromotion
  dsimp only
  iterate 3
    split
    · exact .refl s
  split
  · exact .refl s
  · rw [bind_pure_state]
    exact (setAutoPromoteState_settles s _ _).trans (promotePeer_settles _ _)

theorem autoPromoteLearner_lifted (learnerId : Nat) :
    Moves Lifted (autoPromoteLearner learnerId) := by
  intro s
  unfold autoPromoteLearner
  split
  · exact .refl s
  extract_lets before checking ready caught restored
  iterate 4
    split
    · exact .refl s
  -- flags down, caught up, flags back
  have readied : SettlesFor learnerId s ready :=
    (setAutoPromoteState_settles s _ _).trans (setAutoPromote_settles _ _ _)
  have ran : Lifted s restored := ((Lifted.of_still (.of_settles readied.toSettles)).trans
    (learnerCatchUpLoop_lifted learnerId ready)).trans
      (.of_still (.of_settles (setAutoPromote_settles _ _ _).toSettles))
  split
  · exact ran
  · exact ran.trans (lifts_of_settles (concludeAutoPromotion_settles _ _ _ _) _)

/-! ## Snapshots -/

theorem relisted_climbs (s : RaftCluster) (target : Nat) (membership : List Nat)
    (members : List Peer) : Climbs s (s.relisted target membership members) := by
  intro within
  have forgets := relisted_forgets s target membership members
  refine ⟨⟨fun nodeId node' held' => ?_, ?_⟩, forgets.currentTerm.ge,
    fun nodeId node node' held held' => ?_⟩
  · obtain ⟨node, _, _, _, rfl, held | ⟨-, rfl⟩⟩ := relisted_from held'
    · exact (within.nodes nodeId node held).trans forgets.currentTerm.ge
    · exact Nat.zero_le _
  · have cached := forgets.cached _ within.cached
    rw [← forgets.currentTerm] at cached
    exact cached.of_eq rfl
  · obtain ⟨found, _, _, _, rfl, heldFound | ⟨absent, -⟩⟩ := relisted_from held'
    · obtain rfl := Option.some.inj (held.symm.trans heldFound)
      exact .refl _
    · grind

theorem assignRoles_still (s : RaftCluster) : Still s s.assignRoles := by
  unfold assignRoles
  split
  · exact .refl s
  · exact .mapNodes fun node => Eq.refl _

theorem resetMembershipFromSnapshot_climbs (s : RaftCluster) (target : Nat) (membership : List Nat)
    (members : List Peer) : Climbs s (s.resetMembershipFromSnapshot target membership members) := by
  have reset := (relisted_climbs s target membership members).still
    (.of_settles (resetLeaderLeaseEpoch_settles _))
  exact ((reset.still (refreshCommitIndex_still _)).still
    (.of_settles (refreshReplicationPipelines_settles _))).still (assignRoles_still _)

theorem installSnapshot_sameTerm (node : Node) (snapshot : RaftSnapshot) :
    Node.SameTerm node (node.installSnapshot snapshot) := by
  unfold Node.installSnapshot Node.discardLogThrough
  dsimp only
  split <;> exact Eq.refl _

theorem adoptSnapshot_climbs (s : RaftCluster) (target : Nat) (snapshot : RaftSnapshot) :
    Climbs s (s.adoptSnapshot target snapshot) := by
  have floored : ∀ (t : RaftCluster) (index : Nat), Still t (t.markSnapshotMembershipFloorApplied index) :=
    fun t index => .of_eq rfl rfl rfl
  have forgotten : ∀ t : RaftCluster, Still t { t with
      snapshotInstallers := t.snapshotInstallers.erase target
      pendingSnapshots := t.pendingSnapshots.erase target } := fun t => .of_eq rfl rfl rfl
  have stored : Still s ((s.modifyNode target fun node =>
      node.installSnapshot snapshot).clearReorderQueueFor target) :=
    Still.trans (.modifyNode fun node _ => installSnapshot_sameTerm node snapshot)
      ⟨EachNode.refl Node.SameTerm.refl _, rfl, fun P cached => cached.erase rfl⟩
  have reset := Climbs.after (.of_still stored) (resetMembershipFromSnapshot_climbs _ target
    snapshot.snapshotMeta.membership snapshot.snapshotMeta.members)
  exact (((reset.still (floored _ _)).still (forgotten _)).still (modifyPipeline_still _ _ _)).still
    (refreshClusterIndexes_still _)

variable (snapshot : RaftSnapshot)

theorem installSnapshotTo_climbs (fence : ApplySnapshotFence)
    (s : RaftCluster) : Climbs s (installSnapshotTo target snapshot fence s).2 := by
  unfold installSnapshotTo
  iterate 3
    split
    · exact .refl s
  split
  · exact .refl s
  · exact adoptSnapshot_climbs s target snapshot

theorem appendTail_still (tail : List LogEntry) : Moves Still (appendTail target tail) := by
  intro s
  unfold appendTail
  split
  · exact .refl s
  rename_i node held
  have appended : ∀ (tail : List LogEntry) (node : Node),
      Node.SameTerm node (tail.foldl Node.appendEntry node) := by
    intro tail
    induction tail with
    | nil => exact Node.SameTerm.refl
    | cons entry rest ih =>
      exact fun node => (ih (node.appendEntry entry)).trans
        (congrArg HardState.currentTerm (Node.appendEntry_same node entry).hardState)
  refine Still.trans (Still.trans (.modifyNode fun found heldFound => ?_)
    (modifyPipeline_still _ _ _)) (refreshClusterIndexes_still _)
  obtain rfl := Option.some.inj (held.symm.trans heldFound)
  rw [Node.advanceCommit_eq]
  exact appended tail node

theorem installSnapshotWithTailTo_climbs (fence : ApplySnapshotFence) (tail : List LogEntry) :
    Climbs s (installSnapshotWithTailTo target snapshot fence tail s).2 := by
  have both := climbs_bind (f := fun _ => appendTail target tail)
    (installSnapshotTo_climbs target snapshot fence s)
    fun _ => lifts_of_still (appendTail_still target tail)
  unfold installSnapshotWithTailTo
  dsimp only
  split
  · exact .refl s
  split
  · exact .refl s
  split
  · exact both
  split
  · exact .of_still (appendTail_still target tail s)
  split
  · exact .refl s
  · exact both

theorem installOrQueueCompletedSnapshot_climbs (fence : ApplySnapshotFence) :
    Climbs s (installOrQueueCompletedSnapshot target snapshot fence s).2 := by
  have installed := installSnapshotTo_climbs target snapshot fence s
  unfold installOrQueueCompletedSnapshot
  split
  · grind
  rename_i ran
  rw [ran] at installed
  split
  · exact installed.still (.of_eq rfl rfl rfl)
  · exact installed

theorem tryInstallPendingSnapshotTo_climbs (s : RaftCluster) :
    Climbs s (tryInstallPendingSnapshotTo target s).2 := by
  unfold tryInstallPendingSnapshotTo
  split
  · exact .refl s
  rename_i pending _
  have installed := installSnapshotTo_climbs target pending.snapshot pending.fence s
  grind

theorem handOverAfterRejectedApply_lifted (s : RaftCluster) (nodeId : Nat) :
    Lifted s (s.handOverAfterRejectedApply nodeId) := by
  unfold handOverAfterRejectedApply
  extract_lets target followed campaigned
  have stepped : Lifted s followed := .of_still (.modifyNode fun node _ => Eq.refl _)
  have ran : Lifted s campaigned.2 := by
    rcases found : target with _ | candidate
    · simpa only [campaigned, found] using stepped
    · simpa only [campaigned, found] using stepped.trans (campaign_lifted candidate true followed)
  split
  · exact ran.trans (.of_still (.of_eq rfl rfl rfl))
  · exact ran

theorem submitApplyResult_climbs (nodeId appliedIndex : Nat) (rejected : Bool) :
    Climbs s (submitApplyResult nodeId appliedIndex rejected s).2 := by
  unfold submitApplyResult
  split
  · exact .refl s
  split
  · exact .refl s
  extract_lets reported handedOver
  have stated : Lifted s reported := .of_still (.modifyNode fun node _ => Eq.refl _)
  have handed : Lifted s handedOver := by
    unfold handedOver
    split
    · exact stated.trans (handOverAfterRejectedApply_lifted _ _)
    · exact stated
  exact Climbs.after handed (climbs_bind (tryInstallPendingSnapshotTo_climbs nodeId handedOver)
    fun _ => update fun reached => .of_still (refreshClusterIndexes_still reached))

/-! ## Snapshot chunks -/

theorem observeSnapshotLeader_lifted (s : RaftCluster) (term leaderId : Nat) :
    Lifted s (s.observeSnapshotLeader term leaderId) := by
  unfold observeSnapshotLeader
  split
  · exact .refl s
  rename_i stale
  extract_lets inTerm concluded following
  have reached : inTerm.currentTerm = term := by
    unfold inTerm
    split
    · rfl
    · omega
  have entered : Lifted s inTerm := by
    unfold inTerm
    split
    · rename_i later
      exact .of_raised rfl later.le (.inr rfl)
    · exact .refl s
  have followed : Still inTerm following := by
    unfold following
    split
    · exact .refl inTerm
    · have ended : Still inTerm concluded := concludeTransferFor_still inTerm leaderId _
      exact ended.trans (.of_cleared rfl rfl rfl)
  refine (entered.trans (.of_still followed)).trans fun within => ?_
  have bounded : ∀ node : Node, node.hardState.currentTerm ≤ following.currentTerm →
      max node.hardState.currentTerm term ≤ following.currentTerm := fun node le =>
    max_le le (followed.term.trans reached).ge
  refine ⟨⟨fun nodeId node' held' => ?_, within.cached.of_eq rfl⟩, le_rfl,
    EachNode.mapNodes (R := Node.TermUp) fun node => Nat.le_max_left _ _⟩
  grind [mapNodes, within.nodes]

theorem acceptChunk_climbs (node : Node) (request : InstallSnapshotRequest) (nextOffset : Nat) :
    Climbs s (acceptChunk target node request nextOffset s).2 := by
  have dropped : ∀ t : RaftCluster, Still t (t.dropInstaller target) := fun t => .of_eq rfl rfl rfl
  unfold acceptChunk
  dsimp only
  split
  · exact .of_still (dropped s)
  split
  · exact .of_still (dropped s)
  split
  · exact .refl s
  unfold receiveChunk
  split
  · exact .refl s
  split
  · exact .of_still (.of_eq rfl rfl rfl)
  split
  · refine Climbs.after (.of_still (dropped s)) ?_
    unfold installCompleted
    split
    · exact .refl _
    · rw [bind_pure_state]
      exact installOrQueueCompletedSnapshot_climbs _ _ _
  · exact .of_still (.of_eq rfl rfl rfl)

theorem installSnapshotChunkTo_climbs (request : InstallSnapshotRequest) :
    Climbs s (installSnapshotChunkTo target request s).2 := by
  unfold installSnapshotChunkTo
  split
  · exact .refl s
  dsimp only
  split
  · exact .refl s
  split
  · exact .refl s
  have observed := observeSnapshotLeader_lifted s request.term request.leaderId
  split
  · exact .of_lifted observed
  · exact Climbs.after observed (acceptChunk_climbs _ _ _ _)

theorem installFromLifecycle_climbs (request : InstallSnapshotRequest)
    (nextOffset installedIndex : Nat) (snapshot : RaftSnapshot) :
    Climbs s (installFromLifecycle target request nextOffset installedIndex snapshot s).2 := by
  unfold installFromLifecycle
  dsimp only
  split
  · exact .refl s
  · exact climbs_bind (installSnapshotTo_climbs target snapshot _ s) fun _ installed => .refl installed

theorem installSnapshotLifecycleRequestTo_climbs (lifecycle : SnapshotLifecycle)
    (request : InstallSnapshotRequest) :
    Climbs s (s.installSnapshotLifecycleRequestTo target lifecycle request).1.2 := by
  unfold installSnapshotLifecycleRequestTo
  split
  · exact .refl s
  dsimp only
  split
  · exact .refl s
  split
  · exact .refl s
  have observed := observeSnapshotLeader_lifted s request.term request.leaderId
  split
  · exact .of_lifted observed
  refine Climbs.after observed ?_
  unfold acceptLifecycleChunk
  split
  · exact .of_still (.of_eq rfl rfl rfl)
  split
  · exact .refl _
  · exact .refl _
  · exact installFromLifecycle_climbs _ _ _ _ _

/-! ## Recovery -/

theorem restoreNode_term (record : WalRecord) (node : Node) :
    (restoreNode record node).hardState.currentTerm = record.hardState.currentTerm := by
  unfold restoreNode Node.acknowledgeWitnessIndex
  grind

theorem restoreWalRecord_climbs {record : WalRecord}
    (recent : ∀ node, s.nodes[record.nodeId]? = some node →
      node.hardState.currentTerm ≤ record.hardState.currentTerm) :
    Climbs s (restoreWalRecord record s).2 := by
  unfold restoreWalRecord
  iterate 3
    split
    · exact .refl s
  have joins : Climbs s (s.restoreMembershipFromRecord record.nodeId record.membership) := by
    unfold restoreMembershipFromRecord
    dsimp only
    split
    · exact .refl s
    · exact resetMembershipFromSnapshot_climbs _ _ _ _
  dsimp only
  split
  · exact joins
  rename_i node held
  have term := restoreNode_term record node
  refine Climbs.still (Climbs.still ?_ (refreshClusterIndexes_still _))
    (.of_settles (refreshReplicationPipelines_settles _))
  intro within
  obtain ⟨within', up, nodes⟩ := joins within
  refine ⟨⟨fun nodeId node' held' => ?_, ?_⟩, up.trans (le_max_left _ _),
    fun nodeId before node' held' held'' => ?_⟩
  · rw [modifyNode, getElem?_modify] at held'
    split at held'
    · grind
    · exact (within'.nodes nodeId node' held').trans (le_max_left _ _)
  · exact (within'.cached.mono fun _ _ bounded => bounded.trans (le_max_left _ _)).of_eq rfl
  · rw [modifyNode, getElem?_modify] at held''
    split at held''
    · rename_i same
      obtain rfl := compare_eq_iff_eq.mp same
      obtain ⟨_, -, rfl⟩ := Option.map_eq_some_iff.mp held''
      exact (recent before held').trans term.ge
    · exact nodes nodeId before node' held' held''

/-! ## Fresh clusters -/

theorem new_within {groupId : Nat} {config : Config} {peers : List Peer} {fresh : RaftCluster}
    (created : new groupId config peers = .ok fresh) : Within fresh := by
  refine ⟨new_members created (P := fun _ node => node.hardState.currentTerm ≤ fresh.currentTerm)
    fun peer => Nat.zero_le _, ?_⟩
  obtain ⟨nodes, -, rfl, -⟩ := new_eq created
  exact .of_empty rfl

end RaftCluster

/-! ## Operations -/

namespace Operation
open RaftCluster

def KeepsTerms (s : RaftCluster) : Operation → Prop
  | appendEntriesTo _ request => s.leaderId = some request.leaderId → request.term ≤ s.currentTerm
  | appendEntriesWithMembershipChangeIndexesTo _ request _ =>
    s.leaderId = some request.leaderId → request.term ≤ s.currentTerm
  | restoreWalRecord record =>
    (s.nodes[record.nodeId]?).all fun node =>
      node.hardState.currentTerm ≤ record.hardState.currentTerm
  | handleVoteResponse .. => s.currentTerm ≤ u64Max
  | handleVoteResponseFrom .. => s.currentTerm ≤ u64Max
  | _ => True

/-- **One operation.** Its state is within its term, and no term has gone back. -/
theorem climbs {s : RaftCluster} (operation : Operation) (keeps : operation.KeepsTerms s) :
    Climbs s (operation.run s) := by
  have pipeline : ∀ {α : Type} (peerId : Nat) (op : PipelineM α),
      Climbs s (withPipeline peerId op s).2 := fun peerId op =>
    .of_settles (withPipeline_settles peerId op s).toSettles
  cases operation with
  | start => exact .of_lifted (start_lifted s)
  | stop | tickReorderQueues | expireLeaderLease | markMembershipChangeApplied
  | markSnapshotMembershipFloorApplied | resetPendingMembershipChangeAfterTruncation
  | setProhibitsElection => exact .of_still (.of_eq rfl rfl rfl)
  | setNodeHealthy => exact .of_still (setNodeHealthy_still _ _ s)
  | partitionPeer => exact .of_still (setNodeHealthy_still _ false s)
  | healPeer nodeId =>
    exact .of_lifted (bind (lifts_of_still (setNodeHealthy_still nodeId true))
      (fun _ => catchUpPeerWithReason_lifted nodeId _) s)
  | tickPeerLiveness => exact .of_still (tickPeerLiveness_still s _)
  | broadcastHeartbeat => exact .of_lifted (broadcastHeartbeat_lifted s)
  | broadcastCommitIndexToOldPausedPeers =>
    exact .of_lifted (broadcastCommitIndexToOldPausedPeers_lifted s)
  | setLeaderLeaseValid => exact .of_settles (setLeaderLeaseValid_settles s _)
  | setFollowerLeaseValid => exact .of_settles (setFollowerLeaseValid_settles s _)
  | tickFollowerLease => exact .of_settles (tickFollowerLease_settles s _)
  | receiveFollowerLeaseItem => exact .of_settles (receiveFollowerLeaseItem_settles s _)
  | renewLeaderLeaseFromLiveQuorum => exact .of_settles (renewLeaderLeaseFromLiveQuorum_settles s)
  | tickLeaderLease => exact .of_still (tickLeaderLease_still s _)
  | receiveLeaderLeaseConfirmation nodeId | receiveLeaderLeaseConfirmationWithDuration nodeId =>
    exact .of_settles (@receiveLeaderLeaseConfirmation_settles s _ _ _ _ nodeId).toSettles
  | setIgnoreWitness => exact .of_still (setIgnoreWitness_still s _)
  | refreshWitnessCommitQuorumPolicy => exact .of_still (refreshWitnessCommitQuorumPolicy_still s)
  | stepDownLeaderIfLostQuorum => exact .of_still (stepDownLeaderIfLostQuorum_still s)
  | witnessQuorumReport => exact .of_still (witnessQuorumReport_still s _)
  | beginPendingMembershipChange => exact .of_still (beginPendingMembershipChange_still _ s)
  | beginSavingMembershipChange => exact .of_still (beginSavingMembershipChange_still _ s)
  | markMembershipChangeStabled => exact .of_still (markMembershipChangeStabled_still s _)
  | submitStabledResult => exact .of_still (submitStabledResult_still _ _ _ s)
  | markApplyTaskInflight => exact .of_still (markApplyTaskInflight_still _ _ s)
  | markApplyTaskInflightWithFence => exact .of_still (markApplyTaskInflightWithFence_still _ _ _ s)
  | submitApplyResult => exact submitApplyResult_climbs _ _ _
  | campaign => exact .of_lifted (campaign_lifted _ _ s)
  | timeoutNow => exact .of_lifted (timeoutNow_lifted _ _ s)
  | voteTo => exact .of_lifted (voteTo_lifted _ _ s)
  | handleVoteResponse => exact .of_lifted (handleVoteResponseInner_lifted _ none _ _ keeps)
  | handleVoteResponseFrom => exact .of_lifted (handleVoteResponseInner_lifted _ (some _) _ _ keeps)
  | beginLeaderTransfer => exact .of_still (beginLeaderTransfer_still _ s)
  | transferLeader => exact .of_lifted (transferLeader_lifted _ s)
  | transferLeaderOutcome => exact .of_lifted (transferLeaderOutcome_lifted _ s)
  | tryCompleteLeaderTransfer => exact .of_lifted (tryCompleteLeaderTransfer_lifted s)
  | tickLeaderTransfer => exact .of_still (tickLeaderTransfer_still s)
  | abortLeaderTransfer => exact .of_still (abortLeaderTransfer_still s _)
  | stepDown => exact .of_lifted (stepDown_lifted _ s)
  | resignLeader => exact .of_still (resignLeader_still s)
  | applyFatalEvent => exact .of_lifted (applyFatalEvent_lifted _ s)
  | propose | proposeWithOptions => exact .of_lifted (proposeWithOptions_lifted _ _ s)
  | proposeMembershipChange => exact .of_lifted (proposeMembershipChange_lifted _ s)
  | appendEntriesTo => exact .of_lifted (appendEntries_lifted _ [] keeps)
  | appendEntriesWithMembershipChangeIndexesTo => exact .of_lifted (appendEntries_lifted _ _ keeps)
  | handleAppendEntriesResponse =>
    exact .of_lifted (handleAppendEntriesResponseInner_lifted _ _ _ _ _ s)
  | catchUpPeer => exact .of_lifted (catchUpPeerWithReason_lifted _ _ s)
  | catchUpLaggingPeers => exact .of_lifted (catchUpChunks_lifted _ _ s)
  | learnerCatchUpLoop => exact .of_lifted (learnerCatchUpLoop_lifted _ s)
  | addPeer | addLearner | addWitness => exact addPeer_climbs _
  | promotePeer nodeId => exact .of_settles (@promotePeer_settles nodeId nodeId s).toSettles
  | removePeer => exact removePeer_climbs _
  | applyCommittedMembershipOperation => exact applyCommittedMembershipOperation_climbs _
  | execute => exact execute_climbs _
  | autoPromoteLearner => exact .of_lifted (autoPromoteLearner_lifted _ s)
  | compactLogsThrough => exact .of_still (compactLogs_still s _ _)
  | compactLogsWithStorageFence => exact .of_still (compactLogsWithStorageFence_still s _ _)
  | releaseMemory => exact .of_still (releaseMemory_still s)
  | installSnapshotTo => exact installSnapshotTo_climbs _ _ _ s
  | installSnapshotWithTailTo => exact installSnapshotWithTailTo_climbs _ _ _ _
  | installSnapshotChunkTo => exact installSnapshotChunkTo_climbs _ _
  | installSnapshotLifecycleRequestTo => exact installSnapshotLifecycleRequestTo_climbs _ _ _
  | handleInstallSnapshotResponse => exact .of_lifted (handleInstallSnapshotResponse_lifted _ _ _ s)
  | triggerSnapshot => exact .of_lifted (lifts_of_settles (@triggerSnapshot_settles 0) s)
  | tickSnapshotTrigger => exact .of_still (tickSnapshotTrigger_still s)
  | completeSnapshotTrigger => exact .of_still (completeSnapshotTrigger_still _ s)
  | handleSnapshotReady => exact .of_still (handleSnapshotReady_still _ _ s)
  | restoreWalRecord =>
    exact restoreWalRecord_climbs fun node held => by simpa [KeepsTerms, held] using keeps
  | receiveOutOfOrderAppendFor | expirePeerReorderQueue | beginSnapshotSendTo
  | recordSnapshotChunkSentTo | acknowledgeSnapshotChunkTo | updateSnapshotProgressFrom
  | retrySnapshotChunkTo | cancelSnapshotSendTo | beginSnapshotInstallFrom
  | receiveSnapshotChunkFrom | rollbackSnapshotInstallFrom => exact pipeline _ _
  | recordNetworkErrorFor => exact .of_lifted (recordNetworkErrorFor_lifted _ s)
  | recordReplicationTaskResultFor => exact .of_still (recordReplicationTaskResultFor_still _ _ s)
  | handleSnapshotFinishFrom => exact .of_lifted (handleSnapshotFinishFrom_lifted _ _ _ s)

/-! ## Runs -/

def KeepTerms : RaftCluster → List Operation → Prop
  | _, [] => True
  | s, operation :: rest => operation.KeepsTerms s ∧ KeepTerms (operation.run s) rest

def TermsClimb : RaftCluster → List Operation → Prop
  | s, [] => ∀ (nodeId : Nat) (node : Node), s.nodes[nodeId]? = some node →
      node.hardState.currentTerm ≤ s.currentTerm
  | s, operation :: rest =>
    (∀ (nodeId : Nat) (node : Node), s.nodes[nodeId]? = some node →
      node.hardState.currentTerm ≤ s.currentTerm) ∧
    s.currentTerm ≤ (operation.run s).currentTerm ∧
    (∀ (nodeId : Nat) (node node' : Node), s.nodes[nodeId]? = some node →
      (operation.run s).nodes[nodeId]? = some node' →
        node.hardState.currentTerm ≤ node'.hardState.currentTerm) ∧
    TermsClimb (operation.run s) rest

theorem termsClimb : ∀ (operations : List Operation) (s : RaftCluster), Within s →
    KeepTerms s operations → TermsClimb s operations
  | [], _, within, _ => within.nodes
  | operation :: rest, s, within, keep => by
    obtain ⟨within', term, nodes⟩ := operation.climbs keep.1 within
    exact ⟨within.nodes, term, nodes, termsClimb rest (operation.run s) within' keep.2⟩

/-- **Terms climb.** In every run of a new cluster whose operations keep terms. -/
theorem terms_climb {groupId : Nat} {config : Config} {peers : List Peer} {fresh : RaftCluster}
    (created : new groupId config peers = .ok fresh) (operations : List Operation)
    (keep : KeepTerms fresh operations) : TermsClimb fresh operations :=
  termsClimb operations fresh (new_within created) keep

def bareAppend (leaderId term : Nat) : AppendEntriesRequest := ⟨1, term, leaderId, none, [], 0, 0⟩

def bareRecord (term : Nat) : WalRecord :=
  ⟨1, 1, ⟨term, none, none⟩, ⟨1, [], [], [], 0⟩, [], false, none, ⟨0, 0, 0, 0⟩⟩

/-- A later sender, a vote request and a campaign raise the term; a record of term 9 brings voter 1
back. -/
theorem terms_climb_to_nine : ∃ fresh, new 1 Config.default (votersOf [1, 2, 3]) = .ok fresh ∧
    TermsClimb fresh [start, propose [7], appendEntriesTo 3 (bareAppend 2 4),
      voteTo 3 ⟨1, 6, 1, none, false, true⟩, campaign 3 true, restoreWalRecord (bareRecord 9)] ∧
    (runs fresh [start, propose [7], appendEntriesTo 3 (bareAppend 2 4),
      voteTo 3 ⟨1, 6, 1, none, false, true⟩, campaign 3 true,
      restoreWalRecord (bareRecord 9)]).currentTerm = 9 := by
  refine ⟨_, rfl, terms_climb
    (show new 1 Config.default (votersOf [1, 2, 3]) = _ from rfl) _
    ⟨trivial, trivial, ?_, trivial, trivial, ?_, trivial⟩, by decide +kernel⟩
  · exact fun leads => absurd leads (by decide +kernel)
  · unfold KeepsTerms
    decide +kernel

/-- An append of term 5 from the leader of term 1 takes voter 2 past the cluster's term, and the next
campaign takes it back to term 2.  A record of term 0 takes voter 1 back. -/
theorem known_leader_raises_one : ∃ fresh,
    new 1 Config.default (votersOf [1, 2, 3]) = .ok fresh ∧
    let sent := runs fresh [start, appendEntriesTo 2 (bareAppend 1 5)]
    sent.currentTerm = 1 ∧
    (sent.nodes[2]?).map (fun node => node.hardState.currentTerm) = some 5 ∧
    (((campaign 3 true).run sent).nodes[2]?).map (fun node => node.hardState.currentTerm) = some 2 ∧
    let started := runs fresh [start]
    (started.nodes[1]?).map (fun node => node.hardState.currentTerm) = some 1 ∧
    (((restoreWalRecord (bareRecord 0)).run started).nodes[1]?).map
      (fun node => node.hardState.currentTerm) = some 0 := by
  refine ⟨_, rfl, ?_⟩
  decide +kernel

end Operation
end MatrixRaft
