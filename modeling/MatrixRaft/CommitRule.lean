/-
# CommitRule — how far a recomputation moves the commit point

`commit_quorum_match_index` picks an order statistic of the match indexes in small groups
and counts candidate by candidate in larger ones.  `refresh_commit_index` moves the healthy
replicas towards that index, if the leader's entry there is of the current term, and reads
the commit point off the replicas; where nobody healthy holds the index, it rests below.
-/
import MatrixRaft.AppendAcks
import MatrixRaft.Theory.Statistic

namespace MatrixRaft.RaftCluster
open Theory Theory.Statistic List
variable {s : RaftCluster}

def counted (s : RaftCluster) : List Node := s.members.filter s.countsTowardCommitQuorum

def QuorumHeld (s : RaftCluster) : Set Nat :=
  {index | s.commitQuorumSize ≤ s.counted.countP fun node => decide (index ≤ node.matchIndex)}

theorem quorumHeld_eq (s : RaftCluster) :
    s.QuorumHeld = Reached s.commitQuorumSize (s.counted.map Node.matchIndex) := by
  ext index
  rw [mem_reached, countP_map]
  rfl

theorem commitQuorumSize_pos (s : RaftCluster) : 0 < s.commitQuorumSize := Nat.succ_pos _

/-! ## The quorum's index -/

theorem betterQuorumIndex_eq (values : List Nat) (quorum : Nat) :
    betterQuorumIndex values quorum = keepBest fun candidate =>
      decide (quorum ≤ values.countP fun other => decide (candidate ≤ other)) := by
  funext best candidate
  simp [betterQuorumIndex, keepBest]

theorem byCounting_isGreatest {values : List Nat} {quorum : Nat} (some_ : 0 < quorum) {index : Nat}
    (found : commitQuorumMatchIndexByCounting values quorum = some index) :
    IsGreatest (Reached quorum values) index := by
  unfold commitQuorumMatchIndexByCounting at found
  simp only [betterQuorumIndex_eq] at found
  split at found
  · cases found
  · exact counted_isGreatest some_ found

theorem byCounting_eq_none_iff {values : List Nat} {quorum : Nat} (some_ : 0 < quorum) :
    commitQuorumMatchIndexByCounting values quorum = none ↔ values.length < quorum := by
  unfold commitQuorumMatchIndexByCounting
  simp only [betterQuorumIndex_eq]
  split
  · grind
  · grind [counted_isSome]

/-- **Absent exactly when too few count.** -/
theorem commitQuorumMatchIndex_eq_none_iff (s : RaftCluster) :
    s.commitQuorumMatchIndex = none ↔ s.counted.length < s.commitQuorumSize := by
  have positive := s.commitQuorumSize_pos
  have length : (s.counted.map Node.matchIndex).length = s.counted.length := length_map _
  unfold commitQuorumMatchIndex
  dsimp only
  rw [show (s.members.filter s.countsTowardCommitQuorum).map Node.matchIndex
    = s.counted.map Node.matchIndex from rfl, ← length]
  split
  · exact byCounting_eq_none_iff positive
  split
  · grind
  · grind [length_insertionSort]

/-- **The greatest index a quorum holds**, on both paths. -/
theorem commitQuorumMatchIndex_isGreatest {index : Nat}
    (found : s.commitQuorumMatchIndex = some index) : IsGreatest s.QuorumHeld index := by
  have positive := s.commitQuorumSize_pos
  rw [quorumHeld_eq]
  unfold commitQuorumMatchIndex at found
  dsimp only at found
  rw [show (s.members.filter s.countsTowardCommitQuorum).map Node.matchIndex
    = s.counted.map Node.matchIndex from rfl] at found
  split at found
  · exact byCounting_isGreatest positive found
  split at found
  · cases found
  · grind [sorted_place_isGreatest]

theorem commitQuorumMatchIndex_eq_some_iff (s : RaftCluster) (index : Nat) :
    s.commitQuorumMatchIndex = some index ↔ IsGreatest s.QuorumHeld index := by
  rw [quorumHeld_eq]
  refine eq_some_iff_isGreatest (fun value found => ?_) fun enough => ?_
  · rw [← quorumHeld_eq]
    exact commitQuorumMatchIndex_isGreatest found
  · rw [Option.isSome_iff_ne_none, ne_eq, commitQuorumMatchIndex_eq_none_iff]
    simpa using enough

/-! ## Recomputing the commit point -/

theorem refreshCommitIndex_commitIndex_le (s : RaftCluster) :
    EachNode (fun before after => before.commitIndex ≤ after.commitIndex) s s.refreshCommitIndex := by
  rcases refreshCommitIndex_cases s with same | ⟨commitIndex, eq⟩
  · rw [same]
    exact EachNode.refl (fun node => le_refl node.commitIndex) s
  rw [eq]
  refine EachNode.mapNodes (s := { s with commitIndex := commitIndex }) fun node => ?_
  split
  all_goals simp

theorem refreshCommitIndex_advances (s : RaftCluster) : s.refreshCommitIndex = s ∨
    ∃ index leader, s.commitQuorumMatchIndex = some index ∧ s.leader? = some leader ∧
      leader.logTermAt index = some s.currentTerm ∧ s.refreshCommitIndex =
        (advanceHealthy { s with commitIndex := max s.commitIndex index }).refreshClusterIndexes := by
  unfold refreshCommitIndex
  grind

section Advance
variable {reach : Nat}

theorem mem_advanceHealthy {index : Nat} (member : index ∈
      (advanceHealthy { s with commitIndex := reach }).members.map Node.commitIndex) :
    ∃ node ∈ s.members, index = node.commitIndex ∨ index ≤ reach := by
  obtain ⟨after, isMember, rfl⟩ := mem_map.mp member
  obtain ⟨nodeId, held⟩ := mem_members.mp isMember
  obtain ⟨node, before, rfl⟩ : ∃ node, s.nodes[nodeId]? = some node ∧
      (if node.healthy then node.advanceCommit reach else node) = after := by
    grind [advanceHealthy, mapNodes]
  refine ⟨node, mem_members.mpr ⟨nodeId, before⟩, ?_⟩
  split
  · rw [Node.advanceCommit_commitIndex]
    omega
  · exact .inl rfl

theorem le_advanceHealthy {node : Node} (member : node ∈ s.members) (healthy : node.healthy = true) :
    min reach node.matchIndex ≤
      (advanceHealthy { s with commitIndex := reach }).refreshClusterIndexes.commitIndex := by
  obtain ⟨nodeId, held⟩ := mem_members.mp member
  have moved : (advanceHealthy { s with commitIndex := reach }).nodes[nodeId]?
      = some (node.advanceCommit reach) := by simp [advanceHealthy, mapNodes, held, healthy]
  refine le_trans ?_ (le_maximumIndex (mem_map_of_mem (mem_members.mpr ⟨nodeId, moved⟩)))
  simp

end Advance

/-- **The commit rule.** The quorum's index is the greatest that a commit quorum of the counted
replicas holds.  A recomputation lowers no replica's commit point, and raises the cluster's only to
a point some replica already had or up to the quorum's index, with an entry of the current term. -/
theorem commit_rule (s : RaftCluster) :
    (s.commitQuorumMatchIndex = none ↔ s.counted.length < s.commitQuorumSize) ∧
    (∀ index, s.commitQuorumMatchIndex = some index ↔ IsGreatest s.QuorumHeld index) ∧
    EachNode (fun before after => before.commitIndex ≤ after.commitIndex) s s.refreshCommitIndex ∧
    (s.commitIndex < s.refreshCommitIndex.commitIndex →
      (∃ node ∈ s.members, node.commitIndex = s.refreshCommitIndex.commitIndex) ∨
      ∃ index leader, s.commitQuorumMatchIndex = some index ∧ s.leader? = some leader ∧
        leader.logTermAt index = some s.currentTerm ∧ s.refreshCommitIndex.commitIndex ≤ index ∧
        ((∃ node ∈ s.members, node.healthy = true ∧ index ≤ node.matchIndex) →
          s.refreshCommitIndex.commitIndex = index)) := by
  refine ⟨s.commitQuorumMatchIndex_eq_none_iff, s.commitQuorumMatchIndex_eq_some_iff,
    s.refreshCommitIndex_commitIndex_le, fun raised => ?_⟩
  rcases refreshCommitIndex_advances s with same | ⟨index, leader, quorum, leads, current, eq⟩
  · grind
  rw [eq] at raised ⊢
  -- the highest commit point is one a replica had, or was cut off at the new one
  obtain ⟨node, member, own | low⟩ := mem_advanceHealthy
    (maximumIndex_mem (Nat.zero_lt_of_lt raised))
  · exact .inl ⟨node, member, own.symm⟩
  replace low : (advanceHealthy { s with
      commitIndex := max s.commitIndex index }).refreshClusterIndexes.commitIndex
      ≤ max s.commitIndex index := low
  have below : (advanceHealthy { s with
      commitIndex := max s.commitIndex index }).refreshClusterIndexes.commitIndex ≤ index := by
    omega
  refine .inr ⟨index, leader, quorum, leads, current, below, ?_⟩
  rintro ⟨holder, isMember, healthy, holds⟩
  have reached := @le_advanceHealthy s (max s.commitIndex index) holder isMember healthy
  omega

section Runs

/-- One entry of term 1 on all three voters, then one of term 2 on voters 1 and 2. -/
def overtaken (fresh : RaftCluster) : RaftCluster :=
  fresh.appends [ (1, ⟨1, 1, 1, none, [emptyEntry 1 1], 0, 0⟩, []),
      (2, ⟨1, 1, 1, none, [emptyEntry 1 1], 0, 0⟩, []),
      (3, ⟨1, 1, 1, none, [emptyEntry 1 1], 0, 0⟩, []),
      (1, ⟨1, 2, 2, some ⟨1, 1⟩, [emptyEntry 2 2], 0, 0⟩, []),
      (2, ⟨1, 2, 2, some ⟨1, 1⟩, [emptyEntry 2 2], 0, 0⟩, []) ]

/-- The holders of the entry of term 2 are marked unhealthy: the commit point moves to 1, where the
leader's entry is of term 1. -/
theorem commit_rests_below : ∃ fresh, new 1 Config.default threeVoters = .ok fresh ∧
    ∃ s, ((setNodeHealthy 1 false >>= fun _ => setNodeHealthy 2 false) (overtaken fresh)).2 = s ∧
    s.commitIndex = 0 ∧ s.refreshCommitIndex.commitIndex = 1 ∧
    s.leader?.map (fun leader => leader.logTermAt 1) = some (some 1) ∧ s.currentTerm = 2 :=
  ⟨_, rfl, _, rfl, by decide +kernel⟩

end Runs
end MatrixRaft.RaftCluster
