/-
# Members — changing who belongs to the group

Adding, promoting and removing replicas, applying a committed membership operation,
and taking the membership a snapshot or a recovered record describes.
-/
import MatrixRaft.Votes

namespace MatrixRaft

inductive MembershipOperation where
  | addNode (peer : Peer)
  | addVoter (peer : Peer)
  | addLearner (peer : Peer)
  | addWitness (peer : Peer)
  | promote (nodeId : Nat)
  | remove (nodeId : Nat)
  | transferLeader (nodeId : Nat)
  deriving DecidableEq

namespace RaftCluster
open Std (TreeMap TreeSet)
open Theory

/-! ## Adding -/

variable (s : RaftCluster) (peer : Peer)

def admitPeer : RaftCluster :=
  let cleared := clearReorderQueueFor { s with
    snapshotInstallers := s.snapshotInstallers.erase peer.nodeId
    pendingSnapshots := s.pendingSnapshots.erase peer.nodeId } peer.nodeId
  refreshReplicationPipelines (resetLeaderLeaseEpoch { cleared with
    nodes := s.nodes.insert peer.nodeId (Node.new peer.nodeId peer.role peer.autoPromote)
    peerPipelines := s.peerPipelines.insert peer.nodeId
      (ReplicationPipeline.new peer.nodeId ((s.lastLogIndex + 1) % (u64Max + 1))
        s.config.pipelineLimits) })

def addPeer : ClusterM Unit := fun s =>
  match s.requireRunning "add a peer" with
  | .error error => (.error error, s)
  | .ok () =>
    if s.nodes.contains peer.nodeId then
      (.error (.invalidRequest (.duplicateNode peer.nodeId)), s)
    else if s.leaderId.any fun leaderId => leaderId ≠ peer.nodeId then
      (catchUpPeerWithReason peer.nodeId "added_peer" >>= fun _ => pure ()) (s.admitPeer peer)
    else (.ok (), s.admitPeer peer)

def addLearner : ClusterM Unit := addPeer { peer with role := .learner }

def addWitness : ClusterM Unit := addPeer { peer with role := .witness }

/-! ## Removing -/

variable (nodeId : Nat)

def forgetPeer (abortReason : String) : RaftCluster :=
  let forgotten := removeElectionResponseFrom (clearReorderQueueFor { s with
    nodes := s.nodes.erase nodeId
    peerPipelines := s.peerPipelines.erase nodeId
    snapshotInstallers := s.snapshotInstallers.erase nodeId
    pendingSnapshots := s.pendingSnapshots.erase nodeId } nodeId) nodeId
  if s.activeLeaderTransfer.any fun transfer => transfer.transfereeId == nodeId then
    (forgotten.abortLeaderTransfer abortReason).2
  else forgotten

def vacateLeadership : RaftCluster :=
  invalidateLeaderLease { s with leaderId := none }

def removePeer : ClusterM Unit := fun s =>
  match s.requireRunning "remove a peer" with
  | .error error => (.error error, s)
  | .ok () =>
    if !s.nodes.contains nodeId then (.ok (), s)
    else
      let forgotten := s.forgetPeer nodeId "transferee_removed"
      if s.leaderId = some nodeId then
        match s.closestFollower with
        | none => (.ok (), forgotten.vacateLeadership.refreshReplicationPipelines)
        | some target =>
          (do
            campaign target true
            Attempt.update refreshReplicationPipelines : ClusterM Unit)
            forgotten.vacateLeadership
      else
        (.ok (), forgotten.resetLeaderLeaseEpoch.refreshCommitIndex.refreshReplicationPipelines)

/-! ## Membership from a snapshot or a record -/

def dropUnlisted : RaftCluster :=
  let forgotten := s.forgetPeer nodeId "snapshot_membership_removed_transferee"
  if s.leaderId = some nodeId then forgotten.vacateLeadership else forgotten

def listedMember (nodes : TreeMap Nat Node) (peer : Peer) : TreeMap Nat Node :=
  match nodes[peer.nodeId]? with
  | none => nodes.insert peer.nodeId (Node.new peer.nodeId peer.role peer.autoPromote)
  | some node => nodes.insert peer.nodeId
      { node with
        replicaRole := peer.role
        autoPromote := peer.role = .learner && peer.autoPromote
        raftRole := if peer.role = .learner then .learner else node.raftRole }

def retainedIds (target : Nat) (membership : List Nat) (members : List Peer) : List Nat :=
  membership ++ members.map Peer.nodeId ++ if s.nodes.contains target then [target] else []

def assignRoles : RaftCluster :=
  match s.leaderId with
  | none => s
  | some leaderId => s.mapNodes fun node =>
    { node with raftRole := if node.id = leaderId then .leader else followerRole node }

def resetMembershipFromSnapshot (target : Nat) (membership : List Nat)
    (members : List Peer) : RaftCluster :=
  let retained := s.retainedIds target membership members
  let removed := s.nodes.keys.filter fun nodeId => !retained.contains nodeId
  let dropped := removed.foldl dropUnlisted s
  let listed := members.foldl listedMember dropped.nodes
  let filled := retained.foldl
    (fun nodes nodeId => nodes.insertIfNew nodeId (Node.new nodeId .voter false)) listed
  assignRoles (refreshReplicationPipelines (refreshCommitIndex (resetLeaderLeaseEpoch
    { dropped with nodes := filled })))

def recordMembershipAsMembers (membership : Membership) : List Peer :=
  let asRole (role : ReplicaRole) (nodeId : Nat) : Peer := ⟨nodeId, "", "", role, false⟩
  membership.voters.map (asRole .voter) ++ membership.learners.map (asRole .learner)
    ++ membership.witnesses.map (asRole .witness)

def restoreMembershipFromRecord (target : Nat) (membership : Membership) : RaftCluster :=
  let members := recordMembershipAsMembers membership
  if members.isEmpty then s
  else s.resetMembershipFromSnapshot target (members.map Peer.nodeId) members

/-! ## Committed membership operations -/

/-- The replica becomes a voter, without the catch-up check of `promotePeer`. -/
def promoteCommitted : RaftCluster :=
  (s.modifyNode nodeId promoted).resetLeaderLeaseEpoch.refreshReplicationPipelines

def applyCommittedAdd : ClusterM Bool := fun s =>
  match s.nodes[peer.nodeId]? with
  | none => (addPeer peer >>= fun _ => pure true) s
  | some existing =>
    if existing.replicaRole = .learner ∧ peer.role = .voter then
      (.ok true, s.promoteCommitted peer.nodeId)
    else (.ok false, s)

def applyCommittedMembershipOperation : MembershipOperation → ClusterM Bool
  | .addNode peer => applyCommittedAdd peer
  | .addVoter peer => applyCommittedAdd { peer with role := .voter }
  | .addLearner peer => applyCommittedAdd { peer with role := .learner }
  | .addWitness peer => applyCommittedAdd { peer with role := .witness }
  | .promote nodeId => fun s =>
    match s.nodes[nodeId]? with
    | none => (.error (.nodeNotFound nodeId), s)
    | some node =>
      match node.replicaRole with
      | .voter => (.ok false, s)
      | .learner => (.ok true, s.promoteCommitted nodeId)
      | .witness => (.error (.invalidRequest (.notLearner nodeId)), s)
  | .remove nodeId => fun s =>
    if !s.nodes.contains nodeId then (.ok false, s)
    else (removePeer nodeId >>= fun _ => pure true) s
  | .transferLeader nodeId => transferLeader nodeId >>= fun _ => pure true

/-! ## Promoting a learner that caught up -/

inductive AutoPromoteReason where
  | promoted | disabled | noMatchedLog | checkTurnStarted | stillLagging | membershipChangePending
  deriving DecidableEq

structure LearnerAutoPromoteReport where
  learnerId : Nat
  autoPromote : Bool
  (stateBefore stateAfter : LearnerAutoPromoteState)
  catchup : Option LearnerCatchUpLoopReport
  promoted : Bool
  reason : AutoPromoteReason
  deriving DecidableEq

def setAutoPromote (autoPromote : Bool) : RaftCluster :=
  s.modifyNode nodeId fun node => { node with autoPromote := autoPromote }

def setAutoPromoteState (state : LearnerAutoPromoteState) : RaftCluster :=
  s.modifyNode nodeId fun node => { node with autoPromoteState := state }

def concludeAutoPromotion (learnerId : Nat) (learner : Node)
    (checking : LearnerAutoPromoteState) (catchup : LearnerCatchUpLoopReport) :
    ClusterM LearnerAutoPromoteReport := fun s =>
  let stateBefore := learner.autoPromoteState
  let report (stateAfter : LearnerAutoPromoteState) (promoted : Bool)
      (reason : AutoPromoteReason) : LearnerAutoPromoteReport :=
    ⟨learnerId, true, stateBefore, stateAfter, some catchup, promoted, reason⟩
  if stateBefore = .stop ∧ learner.matchIndex < s.lastLogIndex then
    (.ok (report checking false .checkTurnStarted), s)
  else if !catchup.caughtUp then (.ok (report checking false .stillLagging), s)
  else if s.membershipChangeFenceActive then
    (.ok (report checking false .membershipChangePending), s)
  else if (s.nodes[learnerId]?).any fun node => node.replicaRole == .voter then
    (.ok (report .promoted true .promoted), s)
  else
    (promotePeer learnerId >>= fun _ => pure (report .promoted true .promoted))
      (s.setAutoPromoteState learnerId .promoting)

def autoPromoteLearner (learnerId : Nat) : ClusterM LearnerAutoPromoteReport := fun s =>
  match s.nodes[learnerId]? with
  | none => (.error (.nodeNotFound learnerId), s)
  | some learner =>
    let before := learner.autoPromoteState
    if learner.replicaRole = .voter ∧ before = .promoted then
      (.ok ⟨learnerId, true, .promoted, .promoted, none, true, .promoted⟩, s)
    else if learner.replicaRole ≠ .learner then
      (.error (.invalidRequest (.notLearner learnerId)), s)
    else if !learner.autoPromote then
      (.ok ⟨learnerId, false, before, before, none, false, .disabled⟩, s)
    else if before = .stop ∧ learner.matchIndex = 0 then
      (.ok ⟨learnerId, true, before, before, none, false, .noMatchedLog⟩, s)
    else
      let checking := if before = .promoting then .promoting else .check
      -- the catch-up must not promote on its own, so the flag is down while it runs
      let ready := (s.setAutoPromoteState learnerId checking).setAutoPromote learnerId false
      let caught := learnerCatchUpLoop learnerId ready
      let restored := caught.2.setAutoPromote learnerId true
      match caught.1 with
      | .error error => (.error error, restored)
      | .ok catchup => concludeAutoPromotion learnerId learner checking catchup restored

/-! ## Witness quorum report -/

structure WitnessQuorumReport where
  (required acknowledged : Nat)
  reached : Bool
  (voters witnesses : List Nat)
  deriving DecidableEq

def witnessQuorumReport (acknowledgements : List Nat) : WitnessQuorumReport × RaftCluster :=
  let membership := s.membership
  let counted := membership.voters ++ if s.ignoreWitness then [] else membership.witnesses
  let acknowledged := counted.countP fun nodeId => acknowledgements.contains nodeId
  let required := membership.quorumSizeWithWitnessPolicy s.ignoreWitness
  (⟨required, acknowledged, acknowledged ≥ required, membership.voters, membership.witnesses⟩,
    membership.witnesses.foldl (fun s witnessId => s.modifyPipeline witnessId fun pipeline =>
        pipeline.recordWitnessQuorum acknowledged required) s)

end RaftCluster
end MatrixRaft
