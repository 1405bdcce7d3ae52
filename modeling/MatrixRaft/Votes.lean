/-
# Votes — granting votes and counting the answers

`vote_to` is the voter's side of an election between processes and
`handle_vote_response_from` the candidate's: answers are recorded by sender, a
quorum of pre-votes starts the vote, a quorum of votes makes the leader.
-/
import MatrixRaft.Append

namespace MatrixRaft.RaftCluster
open Theory

/-! ## Granting -/

variable (s : RaftCluster) (candidateId : Nat)

def observeVoteRequestCandidate (target candidateId : Nat) (preVote : Bool) : RaftCluster :=
  if (s.nodes[target]?).any fun node => node.raftRole == .leader then
    s.modifyNode candidateId fun candidate =>
      if candidate.replicaRole.canBeLeader then
        { candidate with raftRole := if preVote then .preCandidate else .candidate }
      else candidate
  else s

def voterInLease (voter : Node) (request : VoteRequest) : Bool :=
  request.term > voter.hardState.currentTerm && !request.force && s.config.enableLeaseRead
    && if voter.raftRole = .leader then s.leaderLeaseValid else s.isFollowerLeaseValid

def candidateFault : Option VoteReason :=
  match s.nodes[candidateId]? with
  | none => some .candidateNotMember
  | some candidate =>
    if !candidate.replicaRole.canBeLeader then some .candidateCannotBeLeader
    else if !candidate.healthy then some .candidateUnhealthy
    else none

def answerPreVote (voter : Node) (request : VoteRequest) : VoteResponse :=
  let term := voter.hardState.currentTerm
  if !s.config.enablePreVote then ⟨term, false, .preVoteDisabled⟩
  else match s.candidateFault request.candidateId with
    | some fault => ⟨term, false, fault⟩
    | none =>
      if request.term ≤ term then ⟨term, false, .stalePreVoteTerm⟩
      else if !voter.isFreshCandidateLog request.lastLogId then ⟨term, false, .candidateLogStale⟩
      else ⟨request.term, true, .preVoteGranted⟩

def enterVoteTerm (target term : Nat) : RaftCluster :=
  if term > s.currentTerm then
    let moved := (s.adoptLaterTerm term).modifyNode target fun voter =>
      { voter with hardState.currentTerm := term, hardState.votedFor := none }
    moved.mapNodes fun node => { node with raftRole := followerRole node }
  else s

def followVoteTerm (voter : Node) (term : Nat) : Node :=
  if term > voter.hardState.currentTerm then
    { voter with hardState.currentTerm := term, hardState.votedFor := none }
  else voter

def recordVote (target : Nat) (voter : Node) (candidateId : Nat)
    (resetLeases : Bool) : RaftCluster :=
  let voted := s.modifyNode target fun _ =>
    { voter with hardState.votedFor := some candidateId }
  let reset :=
    if resetLeases then voted.clearReorderQueues.invalidateFollowerLease.invalidateLeaderLease
    else voted
  { reset with currentTerm := max reset.currentTerm voter.hardState.currentTerm }

def castVote (target : Nat) (request : VoteRequest) : ClusterM VoteResponse := fun s =>
  match s.nodes[target]? with
  | none => (.error (.nodeNotFound target), s)
  | some voter =>
    let knownLeader := s.leaderId.isSome
    if knownLeader ∧ voter.hardState.votedFor ≠ some request.candidateId then
      (.ok ⟨voter.hardState.currentTerm, false, .knownLeader⟩, s)
    else if !voter.isFreshCandidateLog request.lastLogId then
      (.ok ⟨max s.currentTerm request.term, false, .candidateLogStale⟩, s)
    else if request.term < voter.hardState.currentTerm then
      (.ok ⟨voter.hardState.currentTerm, false, .staleTerm⟩, s)
    else
      let following := followVoteTerm voter request.term
      let moved := s.modifyNode target fun _ => following
      if knownLeader ∧ following.hardState.votedFor ≠ some request.candidateId then
        (.ok ⟨following.hardState.currentTerm, false, .knownLeader⟩, moved)
      else if following.hardState.votedFor.any fun votedFor =>
          votedFor ≠ request.candidateId then
        (.ok ⟨following.hardState.currentTerm, false, .alreadyVoted⟩, moved)
      else
        (.ok ⟨following.hardState.currentTerm, true, .voteGranted⟩,
          s.recordVote target following request.candidateId
            (request.term > voter.hardState.currentTerm))

/-- A voter's answer to a vote or pre-vote request. -/
def voteTo (target : Nat) (request : VoteRequest) : ClusterM VoteResponse := fun s =>
  if request.groupId ≠ s.groupId then
    (.ok ⟨max s.currentTerm request.term, false, .groupIdMismatch⟩, s)
  else match s.nodes[target]? with
    | none => (.error (.nodeNotFound target), s)
    | some asked =>
      if !asked.replicaRole.participatesInQuorum then
        (.ok ⟨max s.currentTerm request.term, false, .targetCannotVote⟩, s)
      else
        let observed := s.observeVoteRequestCandidate target request.candidateId request.preVote
        match observed.nodes[target]? with
        | none => (.error (.nodeNotFound target), observed)
        | some voter =>
          if observed.voterInLease voter request then
            (.ok ⟨voter.hardState.currentTerm, false, .inLease⟩, observed)
          else if request.preVote then (.ok (observed.answerPreVote voter request), observed)
          else match observed.candidateFault request.candidateId with
            | some fault => (.ok ⟨max observed.currentTerm request.term, false, fault⟩, observed)
            | none => castVote target request (observed.enterVoteTerm target request.term)

/-! ## Counting -/

def electable (unfit : Nat → InvalidRequest) : Except RaftError Unit :=
  match s.nodes[candidateId]? with
  | none => .error (.nodeNotFound candidateId)
  | some candidate =>
    if !candidate.replicaRole.canBeLeader then .error (.invalidRequest (unfit candidateId))
    else if !candidate.healthy then .error (.invalidRequest (.notHealthy candidateId))
    else .ok ()

def enterElection (role : StateRole) : RaftCluster :=
  (invalidateFollowerLease (resetLeaderLeaseEpoch (clearReorderQueues (clearElectionResponses
    { s with lastIndexBeforeCurrentTerm := s.lastLogIndex })))).adoptElection candidateId role

def becomeLeaderCurrentTerm : ClusterM Unit := fun s =>
  match s.electable candidateId .cannotBecomeLeader with
  | .error error => (.error error, s)
  | .ok () =>
    let led := (enterElection { s with leaderId := some candidateId } candidateId
      .leader).resetReplicationPipelinesForLeader candidateId
    if led.running ∧ led.lastIndexBeforeCurrentTerm > 0 then
      (propose noopPayload >>= fun _ => pure ()) led
    else (.ok (), led)

def startVoteAfterPreVoteQuorum : ClusterM Unit := fun s =>
  match s.electable candidateId .cannotBecomeCandidate with
  | .error error => (.error error, s)
  | .ok () =>
    let standing := enterElection
      { s with currentTerm := satAdd s.currentTerm 1, leaderId := none } candidateId .candidate
    (.ok (), { standing with voteResponses := standing.voteResponses.insert candidateId true })

def recordAnswer (responses : Std.TreeMap Nat Bool) (localNodeId peerId : Nat)
    (granted : Bool) : Std.TreeMap Nat Bool :=
  (responses.insertIfNew localNodeId true).insert peerId granted

def grantedIds (responses : Std.TreeMap Nat Bool) : List Nat :=
  (responses.toList.filter fun response => response.2).map Prod.fst

variable (localNodeId : Nat)

def giveUpElection : RaftCluster :=
  (clearElectionResponses (invalidateLeaderLease (invalidateFollowerLease
    { s with leaderId := none }))).modifyNode localNodeId fun node =>
      { node with raftRole := .follower }

def decideElection (preVote : Bool) : ClusterM Unit := fun s =>
  let votes := if preVote then s.preVoteResponses else s.voteResponses
  let membership := s.membership
  if membership.quorumReachedWithWitnessPolicy (grantedIds votes) s.ignoreWitness then
    if preVote then startVoteAfterPreVoteQuorum localNodeId s
    else becomeLeaderCurrentTerm localNodeId s
  else
    let rejected := votes.toList.countP fun response => !response.2
    let participants := membership.voters.length + membership.witnesses.length
    if rejected > participants - membership.quorumSizeWithWitnessPolicy s.ignoreWitness then
      (.ok (), s.giveUpElection localNodeId)
    else (.ok (), s)

def recordVoteResponse (localNodeId peerId : Nat) (granted preVote : Bool) :
    ClusterM Unit := fun s =>
  match s.nodes[peerId]? with
  | none => (.error (.nodeNotFound peerId), s)
  | some peer =>
    if !peer.replicaRole.participatesInQuorum
        || (s.ignoreWitness && peer.replicaRole == .witness) then (.ok (), s)
    else
      let current := s.discardElectionResponsesFromAnEarlierTerm
      decideElection localNodeId preVote (if preVote then
          { current with
            preVoteResponses := recordAnswer current.preVoteResponses localNodeId peerId granted }
        else
          { current with
            voteResponses := recordAnswer current.voteResponses localNodeId peerId granted })

def stepIntoVoteTerm (term : Nat) : RaftCluster :=
  (s.adoptLaterTerm term).clearElectionResponses.mapNodes (followTerm term)

def handleVoteResponseInner (peerId : Option Nat)
    (response : VoteResponse) (preVote : Bool) : ClusterM Unit := fun s =>
  match s.nodes[localNodeId]? with
  | none => (.error (.nodeNotFound localNodeId), s)
  | some _ =>
    if response.term ≤ s.currentTerm then
      match peerId with
      | some peer => recordVoteResponse localNodeId peer response.voteGranted preVote s
      | none => (.ok (), s)
    else match (peerId.map s.peerResponseIsActive).getD (.ok true) with
      | .error error => (.error error, s)
      | .ok false => (.ok (), s)
      | .ok true =>
        if preVote && response.voteGranted then
          match peerId with
          | some peer => recordVoteResponse localNodeId peer true preVote s
          | none => (.ok (), s)
        else (.ok (), s.stepIntoVoteTerm response.term)

def handleVoteResponse (response : VoteResponse) (preVote : Bool) : ClusterM Unit :=
  handleVoteResponseInner localNodeId none response preVote

def handleVoteResponseFrom (localNodeId peerId : Nat) (response : VoteResponse)
    (preVote : Bool) : ClusterM Unit :=
  handleVoteResponseInner localNodeId (some peerId) response preVote

end MatrixRaft.RaftCluster
