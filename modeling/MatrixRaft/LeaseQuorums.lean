/-
# LeaseQuorums — the lease quorum, counted in one pass

`leader_lease_quorum_reached` counts over the nodes what it once looked up in a `Membership`, and
`valid_lease_end_ms` selects or counts; both are compared with what they stand for.
-/
import MatrixRaft.LeaderLease
import MatrixRaft.Leases
import MatrixRaft.Quorums

namespace MatrixRaft
open Theory Statistic List RaftCluster

namespace RaftCluster
variable (s : RaftCluster)

def confirms (nodeId : Nat) (confirmation : LeaderLeaseConfirmation) : Bool :=
  (s.nodes[nodeId]?).any fun node =>
    confirmation.epoch == s.leaderLeaseEpoch && confirmation.role == node.replicaRole
      && confirmation.elapsedMs < confirmation.durationMs
      && node.replicaRole.participatesInQuorum
      && !(s.ignoreWitness && node.replicaRole == .witness)

def acknowledgements (leaderId : Nat) : List Nat :=
  leaderId :: (s.leaderLeaseConfirmations.toList.filter fun entry =>
    s.confirms entry.1 entry.2).map Prod.fst

/-- The check the single pass replaced, as the tests keep it. -/
def asItWas : Bool :=
  match s.leaderId with
  | none => false
  | some leaderId =>
    match s.nodes[leaderId]? with
    | none => false
    | some leader =>
      leader.healthy && leader.replicaRole.canBeLeader
        && s.leaderLeaseElapsedMs < s.config.leaderLeaseMs
        && s.membership.quorumReachedWithWitnessPolicy (s.acknowledgements leaderId)
          s.ignoreWitness

variable {s : RaftCluster}

theorem mem_acknowledgements {leaderId nodeId : Nat} : nodeId ∈ s.acknowledgements leaderId ↔
    nodeId = leaderId ∨ (s.leaderLeaseConfirmations[nodeId]?).any (s.confirms nodeId) := by
  simp [acknowledgements, Option.any_eq_true, Std.TreeMap.mem_toList_iff_getElem?_eq_some]

def counts (node : Node) : Bool :=
  node.replicaRole == .voter || (node.replicaRole == .witness && !s.ignoreWitness)

theorem contains_acknowledgements {leaderId : Nat} {node : Node}
    (held : s.nodes[node.id]? = some node) (counts : s.counts node = true) :
    (s.acknowledgements leaderId).contains node.id = s.leaseAcknowledged leaderId node := by
  rw [Bool.eq_iff_iff, contains_iff_mem, mem_acknowledgements]
  unfold leaseAcknowledged confirms
  rw [held]
  unfold RaftCluster.counts at counts
  rcases s.leaderLeaseConfirmations[node.id]? with _ | confirmation
  · simp
  · rcases role : node.replicaRole <;> simp_all [ReplicaRole.participatesInQuorum]

theorem countP_acknowledged (keyed : s.Keyed) (leaderId : Nat) :
    (s.members.countP fun node => s.counts node && s.leaseAcknowledged leaderId node) =
    ((s.membership.voters ++ if s.ignoreWitness then [] else s.membership.witnesses).filter
      fun nodeId => (s.acknowledgements leaderId).contains nodeId).length := by
  have same : ∀ node ∈ s.members, (s.counts node && s.leaseAcknowledged leaderId node) =
      (s.counts node && (s.acknowledgements leaderId).contains node.id) := by
    intro node member
    obtain ⟨nodeId, held⟩ := mem_members.mp member
    cases keyed nodeId node held
    grind [@contains_acknowledgements s leaderId node held]
  rw [countP_congr fun node member => by rw [same node member]]
  simp only [membership, counts]
  generalize s.acknowledgements leaderId = ids
  cases s.ignoreWitness <;> induction s.members with
  | nil => rfl
  | cons node rest ih => grind

/-- **The single pass** answers what the membership does. -/
theorem leaderLeaseQuorumReached_eq (keyed : s.Keyed) :
    s.leaderLeaseQuorumReached = (!s.leaderLeaseExpired && s.asItWas) := by
  have counted := s.countP_acknowledged keyed
  unfold leaderLeaseQuorumReached asItWas Membership.quorumReachedWithWitnessPolicy
  simp only [← counted, counts, quorumSize_membership]
  cases s.leaderLeaseExpired <;> rfl

end RaftCluster

/-- **Lease quorums.** While the lease is not given up, a cluster's single pass answers what its
membership does, and a lease ends at the greatest time a majority of the voting peers reaches, by
selection and by counting. -/
theorem lease_quorums_exact (s : RaftCluster) (keyed : s.Keyed) (lease : LeaderLease)
    (nowMs leaseEnd : Nat) : s.leaderLeaseQuorumReached = (!s.leaderLeaseExpired && s.asItWas) ∧
    (lease.validLeaseEndMs nowMs = some leaseEnd ↔ IsGreatest (Reached lease.quorum
      (lease.voting.map (lease.peerLeaseEndMs nowMs))) leaseEnd) ∧
    (lease.validLeaseEndMsByCounting nowMs = some leaseEnd ↔ IsGreatest (Reached lease.quorum
      (lease.voting.map (lease.peerLeaseEndMs nowMs))) leaseEnd) :=
  ⟨s.leaderLeaseQuorumReached_eq keyed, lease.validLeaseEndMs_eq_some_iff nowMs leaseEnd,
    lease.validLeaseEndMsByCounting_eq_some_iff nowMs leaseEnd⟩

theorem lease_quorums_exact_three : ∃ fresh, new 1 Config.default (votersOf [1, 2, 3]) = .ok fresh ∧
    fresh.leaderLeaseQuorumReached = (!fresh.leaderLeaseExpired && fresh.asItWas) ∧
    LeaderLease.validLeaseEndMs (.updateMembers [⟨1, .voter⟩] (.new 1 9)) 3 = some 12 := by
  obtain ⟨fresh, created⟩ : ∃ fresh,
    new 1 Config.default (votersOf [1, 2, 3]) = .ok fresh := ⟨_, rfl⟩
  have equal := lease_quorums_exact fresh (new_keyed created) (.new 1 9) 3 12
  exact ⟨fresh, created, equal.1, by decide +kernel⟩

end MatrixRaft
