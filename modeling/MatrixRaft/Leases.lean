/-
# Leases — leader and follower leases, and the witness policy they drive

A follower's promise not to elect, the confirmations a leader collects for its own lease,
and the two settings that decide whether witnesses count.  None of the operations fails;
where the source answers a flag the flag comes first.
-/
import MatrixRaft.Cluster

namespace MatrixRaft.RaftCluster
open Std (TreeMap)

/-! ## Follower lease -/

variable (s : RaftCluster)

def isFollowerLeaseValid : Bool :=
  s.config.enableLeaseRead && s.followerLeaseValid

def invalidateFollowerLease : RaftCluster :=
  { s with
    followerLeaseValid := false
    followerLeaseElapsedMs := 0
    followerLeaseDurationMs := 0
    followerLeaseEpoch := 0 }

def expireFollowerLease : RaftCluster :=
  { s with
    followerLeaseValid := false, followerLeaseElapsedMs := 0, followerLeaseDurationMs := 0 }

def receiveFollowerLeaseItem (epoch : Nat) : Bool × RaftCluster :=
  if epoch ≤ s.followerLeaseEpoch then (false, s)
  else
    let renewed := { s with
      followerLeaseEpoch := epoch
      followerLeaseValid := s.config.enableLeaseRead
      followerLeaseElapsedMs := 0
      followerLeaseDurationMs := s.config.leaderLeaseMs }
    (renewed.isFollowerLeaseValid, renewed)

def renewFollowerLease : RaftCluster :=
  (s.receiveFollowerLeaseItem (satAdd s.followerLeaseEpoch 1)).2

def renewFollowerLeaseFromAppendEntries (leaseEpoch : Nat) : RaftCluster :=
  if leaseEpoch > 0 then (s.receiveFollowerLeaseItem leaseEpoch).2 else s.renewFollowerLease

def setFollowerLeaseValid (valid : Bool) : RaftCluster :=
  if valid then s.renewFollowerLease else s.invalidateFollowerLease

def tickFollowerLease (elapsedMs : Nat) : Bool × RaftCluster :=
  if !s.isFollowerLeaseValid then (false, s)
  else
    let aged := { s with followerLeaseElapsedMs := satAdd s.followerLeaseElapsedMs elapsedMs }
    if aged.followerLeaseElapsedMs ≥ aged.followerLeaseDurationMs then
      (true, aged.expireFollowerLease)
    else (false, aged)

/-! ## Leader lease -/

def invalidateLeaderLease : RaftCluster :=
  { s with leaderLeaseValid := false, leaderLeaseElapsedMs := 0, leaderLeaseConfirmations := ∅ }

def expireLeaderLease : RaftCluster :=
  { s with leaderLeaseValid := false, leaderLeaseExpired := true, leaderLeaseConfirmations := ∅ }

def resetLeaderLeaseEpoch : RaftCluster :=
  { s with
    leaderLeaseEpoch := satAdd s.leaderLeaseEpoch 1
    leaderLeaseExpired := false
    leaderLeaseElapsedMs := 0
    leaderLeaseConfirmations := ∅
    leaderLeaseValid := false }

def leaseAcknowledged (leaderId : Nat) (node : Node) : Bool :=
  node.id == leaderId
    || (s.leaderLeaseConfirmations[node.id]?).any fun confirmation =>
      confirmation.epoch == s.leaderLeaseEpoch && confirmation.role == node.replicaRole
        && confirmation.elapsedMs < confirmation.durationMs

def leaderLeaseQuorumReached : Bool :=
  if s.leaderLeaseExpired then false
  else match s.leaderId with
    | none => false
    | some leaderId =>
      match s.nodes[leaderId]? with
      | none => false
      | some leader =>
        leader.healthy && leader.replicaRole.canBeLeader
          && s.leaderLeaseElapsedMs < s.config.leaderLeaseMs
          && (s.members.countP fun node =>
                (node.replicaRole == .voter
                  || (node.replicaRole == .witness && !s.ignoreWitness))
                  && s.leaseAcknowledged leaderId node)
              ≥ quorumSize (s.roleCount .voter) (s.roleCount .witness) s.ignoreWitness

def recomputeLeaderLease : RaftCluster :=
  { s with leaderLeaseValid := s.leaderLeaseQuorumReached }

def existingConfirmationLasts (role : ReplicaRole) (durationMs : Nat)
    (existing : LeaderLeaseConfirmation) : Bool :=
  existing.epoch == s.leaderLeaseEpoch && existing.role == role
    && existing.durationMs - existing.elapsedMs ≥ durationMs

def storeLeaseConfirmation (nodeId : Nat) (role : ReplicaRole)
    (confirmationEpoch durationMs : Nat) : RaftCluster :=
  let counted := { s with
    leaderLeaseConfirmationEpochs :=
      s.leaderLeaseConfirmationEpochs.insert nodeId confirmationEpoch }
  let fresh := { counted with
    leaderLeaseExpired := false
    leaderLeaseConfirmations := counted.leaderLeaseConfirmations.insert nodeId
      ⟨role, counted.leaderLeaseEpoch, confirmationEpoch, durationMs,
        counted.leaderLeaseElapsedMs⟩ }
  match counted.leaderLeaseConfirmations[nodeId]? with
  | none => fresh
  | some existing =>
    if counted.existingConfirmationLasts role durationMs existing then
      { counted with
        leaderLeaseConfirmations := counted.leaderLeaseConfirmations.insert nodeId
          { existing with confirmationEpoch := confirmationEpoch } }
    else fresh

def receiveLeaderLeaseConfirmationInner (nodeId confirmationEpoch durationMs : Nat) (recomputeQuorum : Bool) : Bool × RaftCluster :=
  if s.leaderId = some nodeId ∨ durationMs = 0 then (false, s)
  else match s.nodes[nodeId]? with
    | none => (false, s)
    | some node =>
      if !node.replicaRole.participatesInQuorum
          || (s.ignoreWitness && node.replicaRole == .witness) then (false, s)
      else if confirmationEpoch ≤ (s.leaderLeaseConfirmationEpochs[nodeId]?).getD 0 then
        (false, s)
      else
        let stored := s.storeLeaseConfirmation nodeId node.replicaRole confirmationEpoch durationMs
        (true, if recomputeQuorum then stored.recomputeLeaderLease else stored)

def receiveLeaderLeaseConfirmationWithDuration (nodeId confirmationEpoch durationMs : Nat) : Bool × RaftCluster :=
  s.receiveLeaderLeaseConfirmationInner nodeId confirmationEpoch durationMs true

def recordLeaderLeaseConfirmationInner (nodeId : Nat) (recomputeQuorum : Bool) : RaftCluster :=
  let confirmationEpoch := satAdd ((s.leaderLeaseConfirmationEpochs[nodeId]?).getD 0) 1
  (s.receiveLeaderLeaseConfirmationInner nodeId confirmationEpoch s.config.leaderLeaseMs
    recomputeQuorum).2

def beginLeaderLeaseRenewal : Bool × RaftCluster :=
  if s.leaderId.isNone then (false, s.invalidateLeaderLease)
  else
    (true, { s with
      leaderLeaseEpoch := satAdd s.leaderLeaseEpoch 1
      leaderLeaseExpired := false
      leaderLeaseElapsedMs := 0 })

def finishLeaderLeaseRenewal : RaftCluster := s.recomputeLeaderLease

def renewLeaderLeaseFromLiveQuorum : RaftCluster :=
  match s.leader? with
  | none => s.invalidateLeaderLease
  | some leader =>
    if !(leader.healthy && leader.replicaRole.canBeLeader) then s.invalidateLeaderLease
    else
      match s.beginLeaderLeaseRenewal with
      | (false, begun) => begun
      | (true, begun) =>
        let confirming := begun.members.filter fun node =>
          node.healthy && node.replicaRole.participatesInQuorum
            && !(begun.ignoreWitness && node.replicaRole == .witness)
        finishLeaderLeaseRenewal (confirming.foldl
            (fun s node => s.recordLeaderLeaseConfirmationInner node.id false) begun)

def setLeaderLeaseValid (valid : Bool) : RaftCluster :=
  if valid then s.renewLeaderLeaseFromLiveQuorum else s.invalidateLeaderLease

/-! ## Witness policy -/

def setIgnoreWitness (ignoreWitness : Bool) : RaftCluster :=
  if s.ignoreWitness = ignoreWitness then s
  else
    let flagged := { s with ignoreWitness := ignoreWitness }
    let forgotten :=
      if ignoreWitness then
        flagged.membership.witnesses.foldl removeElectionResponseFrom
          { flagged with countWitnessInCommitQuorum := false }
      else flagged
    forgotten.recomputeLeaderLease.refreshCommitIndex

/-- Whether the live replicas can only reach a quorum with the witnesses' help. -/
def shouldCountWitness : Bool :=
  let voters := s.roleCount .voter
  let witnesses := s.roleCount .witness
  let liveVoters := s.members.countP fun node => node.replicaRole == .voter && node.healthy
  let liveWitnesses := s.members.countP fun node => node.replicaRole == .witness && node.healthy
  if s.ignoreWitness || liveVoters ≥ quorumSize voters witnesses true then false
  else liveVoters + liveWitnesses ≥ quorumSize voters witnesses false

def refreshWitnessCommitQuorumPolicy : RaftCluster :=
  let decided := { s with countWitnessInCommitQuorum := s.shouldCountWitness }
  if s.countWitnessInCommitQuorum = s.shouldCountWitness then decided
  else decided.refreshCommitIndex

def tickLeaderLease (elapsedMs : Nat) : Bool × RaftCluster :=
  if !s.config.enableLeaseRead then (s.leaderLeaseValid, s.expireLeaderLease)
  else
    let aged := { s with
      leaderLeaseElapsedMs := satAdd s.leaderLeaseElapsedMs elapsedMs
      leaderLeaseConfirmations :=
        s.leaderLeaseConfirmations.map fun _ (confirmation : LeaderLeaseConfirmation) =>
          { confirmation with elapsedMs := satAdd confirmation.elapsedMs elapsedMs } }
    let decided := aged.recomputeLeaderLease.refreshWitnessCommitQuorumPolicy
    (s.leaderLeaseValid && !decided.leaderLeaseValid, decided)

end MatrixRaft.RaftCluster
