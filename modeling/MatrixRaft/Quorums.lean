/-
# Quorums — the sets that commit and the sets that elect

The commit point is counted over the replicas `counts_toward_commit_quorum` accepts, an
election over the voters and, unless they are ignored, the witnesses.  Both counts are
majorities, but not always of the same replicas, so the two can miss each other.
-/
import MatrixRaft.AnswerRule
import MatrixRaft.Theory.Statistic

namespace MatrixRaft.RaftCluster
open Theory List Std.TreeMap
variable {s s' : RaftCluster}

/-! ## Replicas under their ids -/

def Keyed (s : RaftCluster) : Prop :=
  ∀ (nodeId : Nat) (node : Node), s.nodes[nodeId]? = some node → node.id = nodeId

theorem new_keyed {groupId : Nat} {config : Config} {peers : List Peer} {fresh : RaftCluster}
    (created : new groupId config peers = .ok fresh) : fresh.Keyed :=
  new_members created fun _ => rfl

def idsWhere (s : RaftCluster) (accepts : Node → Bool) : Finset Nat :=
  ((s.members.filter accepts).map Node.id).toFinset

namespace Keyed

section
variable (keyed : s.Keyed)
include keyed

theorem map_id_members : s.members.map Node.id = s.nodes.keys := by
  rw [← map_fst_toList_eq_keys, members, map_map]
  refine map_congr_left fun entry member => ?_
  exact keyed entry.1 entry.2 (mem_toList_iff_getElem?_eq_some.mp member)

theorem nodup_ids (accepts : Node → Bool) : ((s.members.filter accepts).map Node.id).Nodup := by
  have distinct : s.nodes.keys.Nodup :=
    (distinct_keys (t := s.nodes)).imp fun apart same => apart (by simp [same])
  rw [← keyed.map_id_members] at distinct
  exact distinct.sublist (filter_sublist.map Node.id)

theorem mem_ids {accepts : Node → Bool} {nodeId : Nat} :
    nodeId ∈ (s.members.filter accepts).map Node.id ↔
      ∃ node, s.nodes[nodeId]? = some node ∧ accepts node = true := by
  simp only [mem_map, mem_filter]
  constructor
  · rintro ⟨node, ⟨member, accepted⟩, rfl⟩
    obtain ⟨key, held⟩ := mem_members.mp member
    exact ⟨node, by rw [keyed key node held]; exact held, accepted⟩
  · rintro ⟨node, held, accepted⟩
    exact ⟨node, ⟨mem_members.mpr ⟨nodeId, held⟩, accepted⟩, keyed nodeId node held⟩

theorem mem_idsWhere {accepts : Node → Bool} {nodeId : Nat} :
    nodeId ∈ s.idsWhere accepts ↔ ∃ node, s.nodes[nodeId]? = some node ∧ accepts node = true := by
  rw [idsWhere, mem_toFinset, keyed.mem_ids]

theorem card_idsWhere (accepts : Node → Bool) :
    (s.idsWhere accepts).card = s.members.countP accepts := by
  rw [idsWhere, toFinset_card_of_nodup (keyed.nodup_ids accepts), length_map,
    countP_eq_length_filter]

end

end Keyed

/-! ## Elections -/

def takesPart (ignored : Bool) (role : ReplicaRole) : Bool :=
  role == .voter || (!ignored && role == .witness)

def electors (s : RaftCluster) (ignored : Bool) : Finset Nat :=
  s.idsWhere fun node => takesPart ignored node.replicaRole

theorem Keyed.card_electors (keyed : s.Keyed) (ignored : Bool) : (s.electors ignored).card =
      s.roleCount .voter + if ignored then 0 else s.roleCount .witness := by
  rw [electors, keyed.card_idsWhere, roleCount, roleCount]
  cases ignored with
  | true => simp [takesPart]
  | false =>
    simp only [takesPart, Bool.not_false, Bool.true_and, Bool.false_eq_true, if_false]
    induction s.members with
    | nil => rfl
    | cons node rest ih => grind

theorem quorumSize_membership (s : RaftCluster) (ignored : Bool) :
    s.membership.quorumSizeWithWitnessPolicy ignored =
      quorumSize (s.roleCount .voter) (s.roleCount .witness) ignored := by
  simp [Membership.quorumSizeWithWitnessPolicy, membership, roleCount, countP_eq_length_filter]

theorem quorumSize_eq (keyed : s.Keyed) (ignored : Bool) :
    s.membership.quorumSizeWithWitnessPolicy ignored = (s.electors ignored).card / 2 + 1 := by
  rw [keyed.card_electors, quorumSize_membership, quorumSize]
  cases ignored <;> simp

/-- **What an election counts.** The grants win when they hold a majority of the electors. -/
theorem quorumReached_iff (keyed : s.Keyed) (granted : List Nat) (ignored : Bool) :
    s.membership.quorumReachedWithWitnessPolicy granted ignored = true ↔
      (s.electors ignored).card / 2 + 1 ≤ (s.electors ignored ∩ granted.toFinset).card := by
  have voter : ∀ nodeId, nodeId ∈ s.membership.voters ↔ _ := fun _ => keyed.mem_ids
  have witness : ∀ nodeId, nodeId ∈ s.membership.witnesses ↔ _ := fun _ => keyed.mem_ids
  have counted : (s.membership.voters ++ if ignored then [] else s.membership.witnesses).Nodup ∧
      (s.membership.voters ++ if ignored then [] else s.membership.witnesses).toFinset
        = s.electors ignored := by
    cases ignored with
    | true =>
      rw [if_pos rfl, append_nil]
      refine ⟨keyed.nodup_ids _, ?_⟩
      ext nodeId
      simp [electors, keyed.mem_idsWhere, voter, takesPart]
    | false =>
      refine ⟨nodup_append.mpr ⟨keyed.nodup_ids _, keyed.nodup_ids _, ?_⟩, ?_⟩
      · -- no replica is a voter and a witness
        intro nodeId isVoter _ isWitness same
        subst same
        obtain ⟨node, held, accepted⟩ := (voter nodeId).mp isVoter
        obtain ⟨node', held', accepted'⟩ := (witness nodeId).mp isWitness
        rw [held] at held'
        cases held'
        rw [beq_iff_eq.mp accepted] at accepted'
        cases accepted'
      · ext nodeId
        rw [electors, keyed.mem_idsWhere, mem_toFinset, if_neg (by simp), mem_append,
          voter, witness, ← exists_or]
        simp [takesPart, and_or_left]
  unfold Membership.quorumReachedWithWitnessPolicy
  rw [decide_eq_true_iff, ge_iff_le, quorumSize_eq keyed, ← counted.2,
    ← toFinset_card_of_nodup (counted.1.filter _), toFinset_filter]
  have same : ∀ ids : Finset Nat, ids.filter (fun nodeId => granted.contains nodeId = true)
      = ids ∩ granted.toFinset := by
    intro ids
    ext nodeId
    simp
  rw [same]

/-! ## Commits -/

def commitsWithoutWitnesses (s : RaftCluster) : Bool :=
  !(!s.ignoreWitness && s.countWitnessInCommitQuorum)

theorem countsTowardCommitQuorum_eq (s : RaftCluster) (node : Node) :
    s.countsTowardCommitQuorum node = takesPart s.commitsWithoutWitnesses node.replicaRole := by
  unfold countsTowardCommitQuorum takesPart commitsWithoutWitnesses ReplicaRole.participatesInQuorum
  grind

theorem Keyed.commitQuorumSize_eq (keyed : s.Keyed) :
    s.commitQuorumSize = (s.electors s.commitsWithoutWitnesses).card / 2 + 1 := by
  simp [electors, keyed.card_idsWhere, commitQuorumSize, takesPart, commitsWithoutWitnesses]

def CommitSet (s : RaftCluster) (holders : Finset Nat) : Prop :=
  s.commitQuorumSize ≤ holders.card ∧
    ∀ nodeId ∈ holders, ∃ node, s.nodes[nodeId]? = some node ∧ s.countsTowardCommitQuorum node

/-- Grants that elect: the test `record_vote_response` makes. -/
def ElectionSet (s : RaftCluster) (granted : List Nat) : Prop :=
  s.membership.quorumReachedWithWitnessPolicy granted s.ignoreWitness = true

theorem Keyed.commitSet_iff (keyed : s.Keyed) (holders : Finset Nat) :
    s.CommitSet holders ↔ holders ⊆ s.electors s.commitsWithoutWitnesses ∧
      (s.electors s.commitsWithoutWitnesses).card / 2 + 1 ≤ holders.card := by
  rw [CommitSet, keyed.commitQuorumSize_eq, and_comm]
  grind [electors, keyed.mem_idsWhere, countsTowardCommitQuorum_eq]

/-! ## Meeting -/

def SameMembership (s s' : RaftCluster) : Prop :=
  ∀ nodeId : Nat, (s'.nodes[nodeId]?).map Node.replicaRole = (s.nodes[nodeId]?).map Node.replicaRole

theorem SameMembership.electors_eq (same : SameMembership s s') (keyed : s.Keyed)
    (keyed' : s'.Keyed) (ignored : Bool) : s'.electors ignored = s.electors ignored := by
  ext nodeId
  rw [electors, electors, keyed'.mem_idsWhere, keyed.mem_idsWhere]
  have roles := same nodeId
  grind

theorem electors_mono (keyed : s.Keyed) : s.electors true ⊆ s.electors false := by
  intro nodeId member
  obtain ⟨node, held, accepted⟩ := keyed.mem_idsWhere.mp member
  refine keyed.mem_idsWhere.mpr ⟨node, held, ?_⟩
  simp_all [takesPart]

def CommitsMeetElections (s s' : RaftCluster) : Prop :=
  ∀ holders granted, s.CommitSet holders → s'.ElectionSet granted →
    ∃ nodeId ∈ holders, nodeId ∈ granted

theorem commitsMeetElections_iff_thresholds (same : SameMembership s s') (keyed : s.Keyed)
    (keyed' : s'.Keyed) : CommitsMeetElections s s' ↔ ∀ Y ⊆ s.electors s.commitsWithoutWitnesses,
        (s.electors s.commitsWithoutWitnesses).card / 2 + 1 ≤ Y.card →
        ∀ Z ⊆ s.electors s'.ignoreWitness, (s.electors s'.ignoreWitness).card / 2 + 1 ≤ Z.card →
          (Y ∩ Z).Nonempty := by
  constructor
  · intro meet Y inY manyY Z inZ manyZ
    obtain ⟨nodeId, inHolders, inGranted⟩ := meet Y Z.toList ((keyed.commitSet_iff Y).mpr ⟨inY, manyY⟩)
      ((quorumReached_iff keyed' Z.toList _).mpr (by
        rw [same.electors_eq keyed keyed', Finset.toList_toFinset, Finset.inter_eq_right.mpr inZ]
        exact manyZ))
    exact ⟨nodeId, Finset.mem_inter.mpr ⟨inHolders, Finset.mem_toList.mp inGranted⟩⟩
  · intro meet holders granted commits elects
    obtain ⟨inHolders, many⟩ := (keyed.commitSet_iff holders).mp commits
    have won := (quorumReached_iff keyed' granted _).mp elects
    rw [same.electors_eq keyed keyed'] at won
    obtain ⟨nodeId, shared⟩ := meet holders inHolders many _ Finset.inter_subset_left won
    grind [mem_toFinset]

/-- Every commit meets every election, at the same time or later, exactly when the two
counts include the same replicas, when there are few enough witnesses, or when there
is no voter to commit or elect anything. -/
theorem Keyed.commitsMeetElections_iff (keyed : s.Keyed) (keyed' : s'.Keyed)
    (same : SameMembership s s') : CommitsMeetElections s s' ↔
      s.commitsWithoutWitnesses = s'.ignoreWitness ∨ s.roleCount .voter = 0 ∨
        s.roleCount .voter + s.roleCount .witness <
          s.roleCount .voter / 2 + 1 + ((s.roleCount .voter + s.roleCount .witness) / 2 + 1) := by
  have voters := keyed.card_electors true
  have both := keyed.card_electors false
  rw [commitsMeetElections_iff_thresholds same keyed keyed']
  cases s.commitsWithoutWitnesses with
  | true =>
    cases s'.ignoreWitness with
    | true =>
      rw [thresholds_meet_iff subset_rfl]
      grind
    | false =>
      rw [thresholds_meet_iff (electors_mono keyed), voters, both]
      grind
  | false =>
    cases s'.ignoreWitness with
    | true =>
      have swapped := @thresholds_meet_iff _ _ _ _
        ((s.electors true).card / 2 + 1) ((s.electors false).card / 2 + 1) (electors_mono keyed)
      have flip : (∀ Y ⊆ s.electors false, (s.electors false).card / 2 + 1 ≤ Y.card →
          ∀ Z ⊆ s.electors true, (s.electors true).card / 2 + 1 ≤ Z.card → (Y ∩ Z).Nonempty) ↔
          ∀ Y ⊆ s.electors true, (s.electors true).card / 2 + 1 ≤ Y.card →
          ∀ Z ⊆ s.electors false, (s.electors false).card / 2 + 1 ≤ Z.card →
            (Y ∩ Z).Nonempty := by grind [Finset.inter_comm]
      grind
    | false =>
      rw [thresholds_meet_iff subset_rfl]
      grind

/-- A single witness is few enough. -/
theorem one_witness_meets : ∃ fresh, new 1 Config.default
    (votersOf [1, 2, 3] ++ [⟨4, "", "", .witness, false⟩]) = .ok fresh ∧
    fresh.commitsWithoutWitnesses = true ∧ fresh.ignoreWitness = false ∧
    CommitsMeetElections fresh fresh := by
  have meets : ∀ fresh, new 1 Config.default
      (votersOf [1, 2, 3] ++ [⟨4, "", "", .witness, false⟩]) = .ok fresh →
      fresh.roleCount .voter = 3 → fresh.roleCount .witness = 1 → CommitsMeetElections fresh fresh := by
    intro fresh created voters witnesses
    refine ((new_keyed created).commitsMeetElections_iff (new_keyed created) fun _ => rfl).mpr
      (.inr (.inr ?_))
    rw [voters, witnesses]
    decide
  exact ⟨_, rfl, rfl, rfl, meets _ rfl (by decide +kernel) (by decide +kernel)⟩

/-- Three voters and two witnesses: two voters commit, and the third is elected with the
witnesses. -/
theorem witnesses_elect_past_commit : ∃ fresh, new 1 Config.default (votersOf [1, 2, 3] ++
      [⟨4, "", "", .witness, false⟩, ⟨5, "", "", .witness, false⟩]) = .ok fresh ∧
    fresh.CommitSet {1, 2} ∧ fresh.ElectionSet [3, 4, 5] ∧ ¬ CommitsMeetElections fresh fresh := by
  have commits : ∀ fresh : RaftCluster, fresh.commitQuorumSize = 2 →
      (∀ nodeId ∈ [1, 2], (fresh.nodes[nodeId]?).any fresh.countsTowardCommitQuorum = true) →
      fresh.CommitSet {1, 2} := by
    intro fresh size counts
    refine ⟨size.le, fun nodeId member => ?_⟩
    simpa [Option.any_eq_true] using counts nodeId (by simpa using member)
  have apart : ∀ fresh : RaftCluster, fresh.CommitSet {1, 2} → fresh.ElectionSet [3, 4, 5] →
      fresh.CommitSet {1, 2} ∧ fresh.ElectionSet [3, 4, 5] ∧ ¬ CommitsMeetElections fresh fresh := by
    refine fun fresh commits elects => ⟨commits, elects, fun meet => ?_⟩
    obtain ⟨nodeId, holds, grants⟩ := meet _ _ commits elects
    simp at holds grants
    omega
  exact ⟨_, rfl, apart _ (commits _ (by decide +kernel) (by decide +kernel))
    (by unfold ElectionSet; decide +kernel)⟩

end MatrixRaft.RaftCluster
