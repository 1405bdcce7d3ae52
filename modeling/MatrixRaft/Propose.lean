/-
# Propose — one entry through the leader to every replica

`propose_with_options` mints the next entry and visits every replica in id order: the leader
appends, a healthy contiguous follower appends, and each follower's answer is handled on the
spot; the commit point is recomputed once at the end.
-/
import MatrixRaft.Compaction

namespace MatrixRaft.RaftCluster
open Theory

/-! ## Admission -/

def proposingLeader (s : RaftCluster) (payload : Payload) (options : ProposeOptions) :
    Except RaftError (Nat × Node) :=
  match options.expectedTerm.filter fun expected =>
      !options.isMembershipChange && expected ≠ s.currentTerm with
  | some expected => .error (.invalidRequest (.expectedTermMismatch expected s.currentTerm))
  | none =>
    match s.leaderId with
    | none => .error .noLeader
    | some leaderId =>
      match s.requireRunning "propose" with
      | .error error => .error error
      | .ok () =>
        if payload.length > s.config.maxPayloadBytes then
          .error (.invalidRequest .payloadTooLarge)
        else match s.nodes[leaderId]? with
          | none => .error (.nodeNotFound leaderId)
          | some leader =>
            if leader.healthy then .ok (leaderId, leader)
            else .error (.notLeader leaderId)

/-- Release memory under pressure, and refuse the proposal if that frees nothing. -/
def makeRoom : ClusterM Unit := fun s =>
  (do
    if s.shouldReleaseMemory then
      let _ ← releaseMemory
    fun released =>
      if released.isBusy then
        (releaseMemory >>= fun freed =>
          if freed then pure () else throw (.invalidRequest .outOfMemoryBuffer)) released
      else (.ok (), released) : ClusterM Unit) s

/-! ## The entry and its round -/

structure Proposal where
  entry : LogEntry
  isMembershipChange : Bool
  deriving DecidableEq

def mintProposal (s : RaftCluster) (payload : Payload) (options : ProposeOptions)
    (leaderSafetyAppliedIndex index : Nat) : Proposal :=
  let changePending := s.pendingMembershipChangeIndex.any fun pending =>
    pending > leaderSafetyAppliedIndex
  let isMembershipChange := options.isMembershipChange && !changePending
  { entry := ⟨⟨s.currentTerm, index⟩, payload, options.isCommand && !isMembershipChange⟩
    isMembershipChange := isMembershipChange }

def registerProposal (s : RaftCluster) (proposal : Proposal) : RaftCluster :=
  let index := proposal.entry.index
  { s with
    lastLogIndex := index
    pendingMembershipChangeIndex :=
      if proposal.isMembershipChange then some index else s.pendingMembershipChangeIndex
    membershipChangeIndexes :=
      if proposal.isMembershipChange then s.membershipChangeIndexes.insert index
      else s.membershipChangeIndexes }

/-- A healthy follower takes an entry that continues its log. -/
def receiveProposal (proposal : Proposal) (node : Node) : Node :=
  if satAdd node.matchIndex 1 = proposal.entry.index then
    if node.replicaRole.canServeData then node.appendEntry proposal.entry
    else if node.replicaRole = .witness then
      node.appendWitnessEntry proposal.entry proposal.isMembershipChange
    else node
  else node

def proposalAnswer (proposal : Proposal) (before after : Node) : AppendEntriesResponse :=
  let contiguous := satAdd before.matchIndex 1 = proposal.entry.index
  { term := after.hardState.currentTerm
    success := contiguous
    matchIndex := after.matchIndex
    rejectionHint := if contiguous then none else some (satAdd after.matchIndex 1)
    rejectedIndex := if contiguous then none else some proposal.entry.index
    requireSnapshot := none
    snapshotState := .none
    leaseConfirmationEpoch := 0
    leaseDurationMs := 0 }

def deliverProposal (leaderId nodeId : Nat) (proposal : Proposal) (renewingLease : Bool)
    (node : Node) : ClusterM Unit := fun s =>
  if node.healthy then
    let after := receiveProposal proposal node
    let received := s.modifyNode nodeId fun _ => after
    let answer := proposalAnswer proposal node after
    let confirmed :=
      if answer.success && renewingLease then
        received.recordLeaderLeaseConfirmationInner nodeId false
      else received
    (.ok (), (handleAppendEntriesResponseInner leaderId nodeId answer false false confirmed).2)
  else (.ok (), s)

/-- One replica's turn in the round. -/
def proposeToNode (leaderId : Nat) (proposal : Proposal) (renewingLease : Bool)
    (nodeId : Nat) : ClusterM Unit := fun s =>
  match s.nodes[nodeId]? with
  | none => (.ok (), s)
  | some node =>
    if nodeId = leaderId then
      (.ok (), s.modifyNode nodeId fun leader => leader.appendEntry proposal.entry)
    else match s.peerPipelines[nodeId]? with
      | none => (.ok (), s)
      | some pipeline =>
        let queued := ReplicationPipeline.queueAppend proposal.entry pipeline
        let stored := { s with peerPipelines := s.peerPipelines.insert nodeId queued.2 }
        match queued.1 with
        -- a full pipeline ends the whole proposal here
        | .error error => (.error error, stored)
        | .ok () =>
          deliverProposal leaderId nodeId proposal renewingLease node
            (stored.modifyPipeline nodeId fun pipeline =>
              pipeline.flushAppendBatch 64 (max s.config.maxPayloadBytes 1))

/-- The round and the aggregates recomputed after it.  No answer adds or removes a
replica, so the ids the source reads chunk by chunk are those of the start. -/
def replicateProposal (leaderId : Nat) (proposal : Proposal) : ClusterM LogId := fun s =>
  let renewal := s.beginLeaderLeaseRenewal
  let begun :=
    if renewal.1 then renewal.2.recordLeaderLeaseConfirmationInner leaderId false else renewal.2
  (do
    Attempt.forEach (proposeToNode leaderId proposal renewal.1) s.nodes.keys
    Attempt.update refreshCommitIndex
    Attempt.update fun s => if renewal.1 then s.finishLeaderLeaseRenewal else s
    pure proposal.entry.logId : ClusterM LogId) begun

def proposeWithOptions (payload : Payload) (options : ProposeOptions) : ClusterM LogId := fun s =>
  match s.proposingLeader payload options with
  | .error error => (.error error, s)
  | .ok (leaderId, leader) =>
    (do
      makeRoom
      fun s =>
        match s.nextLogIndex with
        | .error error => (.error error, s)
        | .ok index =>
          let proposal := s.mintProposal payload options leader.safetyAppliedIndex index
          replicateProposal leaderId proposal (s.registerProposal proposal) :
      ClusterM LogId) s

def propose (payload : Payload) : ClusterM LogId :=
  proposeWithOptions payload ProposeOptions.default

inductive MembershipProposalOutcome where
  | accepted (index : Nat)
  | downgraded (index pendingAt : Nat)
  deriving DecidableEq

def proposeMembershipChange (payload : Payload) : ClusterM MembershipProposalOutcome := fun s =>
  (proposeWithOptions payload ⟨none, false, true⟩ >>= fun logId => fun after =>
    if after.pendingMembershipChangeIndex = some logId.index then
      (.ok (.accepted logId.index), after)
    else
      (.ok (.downgraded logId.index ((after.pendingMembershipChangeIndex <|>
        s.pendingMembershipChangeIndex).getD 0)), after)) s

end MatrixRaft.RaftCluster
