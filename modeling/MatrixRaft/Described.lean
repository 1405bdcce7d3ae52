/-
# Described — what a snapshot says about the replica it is taken of

A checkpoint is named by the replica's current term and by how far its log reaches, a trigger
by the cluster's term and commit point.  Neither asks which term the replica holds there, and
a checkpoint carries the log as it is, committed or not.
-/
import MatrixRaft.CommitRule

namespace MatrixRaft
namespace Node

def HasCommitted (node : Node) (position : LogId) : Prop :=
  position.index ≤ node.commitIndex ∧ node.logTermAt position.index = some position.term

def DescribedBy (node : Node) (snapshot : RaftSnapshot) : Prop :=
  node.HasCommitted snapshot.snapshotMeta.lastLogId ∧ ∀ entry ∈ node.log,
    node.commitIndex < entry.index → ¬ delimited 0x0a (encodeEntry entry) <:+: snapshot.payload

/-- The replica holds nothing past its commit point, where its log is of its own term. -/
structure AllCommitted (node : Node) : Prop where
  reach : node.matchIndex ≤ node.commitIndex
  term : node.logTermAt node.commitIndex = some node.hardState.currentTerm
  entries : ∀ entry ∈ node.log, entry.index ≤ node.commitIndex

end Node

theorem infix_encodeLog {entry : LogEntry} {entries : List LogEntry} (member : entry ∈ entries) :
    delimited 0x0a (encodeEntry entry) <:+: encodeLog entries := by
  obtain ⟨front, back, rfl⟩ := List.append_of_mem member
  exact ⟨encodeLog front, encodeLog back, by simp [encodeLog]⟩

namespace RaftCluster
variable {s : RaftCluster} {nodeId : Nat} {node : Node}

def KeepsUp (s : RaftCluster) (node : Node) : Prop :=
  match s.snapshotTrigger with
  | some trigger => node.HasCommitted trigger.snapshotMeta.lastLogId
  | none => s.commitIndex ≤ node.commitIndex ∧ node.logTermAt s.commitIndex = some s.currentTerm

/-- **Snapshots.** A checkpoint and a trigger describe committed state exactly when the replica
holds nothing else, in its own term, and keeps up with the cluster in the cluster's. -/
theorem snapshots_describe_iff (held : s.nodes[nodeId]? = some node) (snapshotId : SnapshotId) :
    ((∀ snapshot, s.checkpointSnapshot nodeId snapshotId = .ok snapshot →
        node.DescribedBy snapshot) ∧ ∀ described s', triggerSnapshot s = (.ok described, s') →
        node.HasCommitted described.lastLogId) ↔
      node.AllCommitted ∧ (s.running = true → s.KeepsUp node) := by
  refine and_congr ?_ ?_
  · simp only [checkpointSnapshot, held, Except.ok.injEq, forall_eq']
    constructor
    · rintro ⟨⟨reach, term⟩, payload⟩
      dsimp only at reach term payload
      have top : max node.commitIndex node.matchIndex = node.commitIndex := by omega
      rw [top] at term
      refine ⟨by omega, term, fun entry member => not_lt.mp fun past => ?_⟩
      exact payload entry member past (infix_encodeLog member)
    · intro all
      have top : max node.commitIndex node.matchIndex = node.commitIndex := max_eq_left all.reach
      rw [Node.DescribedBy, top]
      exact ⟨⟨le_rfl, all.term⟩, fun entry member past =>
        absurd (all.entries entry member) (not_le.mpr past)⟩
  · by_cases running : s.running = true
    · have ready : s.requireRunning "trigger a snapshot" = .ok () := if_pos running
      simp only [triggerSnapshot, ready, KeepsUp, running, forall_const]
      rcases s.snapshotTrigger with _ | trigger
      all_goals
        refine ⟨fun all => all _ _ rfl, ?_⟩
        rintro keeps _ _ ⟨⟩
        exact keeps
    · refine iff_of_true (fun described s' ran => ?_) fun runs => absurd runs running
      simp only [triggerSnapshot, requireRunning, if_neg running] at ran
      cases ran

section Runs

def firstEntry (leaderCommit : Nat) : Nat × AppendEntriesRequest × List Nat :=
  (2, ⟨1, 1, 1, none, [⟨⟨1, 1⟩, [7], true⟩], leaderCommit, 0⟩, [])

theorem snapshots_describe_committed : ∃ fresh node, new 1 Config.default threeVoters = .ok fresh ∧
    (start (fresh.appends [firstEntry 1])).2.nodes[2]? = some node ∧ node.commitIndex = 1 ∧
    ∀ snapshot, (start (fresh.appends [firstEntry 1])).2.checkpointSnapshot 2 "now" = .ok snapshot →
      node.DescribedBy snapshot := by
  refine ⟨_, _, rfl, rfl, by decide +kernel, ((snapshots_describe_iff rfl "now").mpr
    ⟨⟨by decide +kernel, by decide +kernel, by decide +kernel⟩, fun _ => ?_⟩).1⟩
  exact ⟨by decide +kernel, by decide +kernel⟩

/-- Voter 2 has committed nothing; once its entry is committed under a leader of term 2, its
checkpoint and the trigger give the entry that term. -/
theorem snapshots_mislead : ∃ fresh, new 1 Config.default threeVoters = .ok fresh ∧
    (((fresh.appends [firstEntry 0]).checkpointSnapshot 2 "now").toOption.map fun snapshot =>
      snapshot.snapshotMeta.lastLogId) = some ⟨1, 1⟩ ∧
    ((fresh.appends [firstEntry 0]).nodes[2]?.map Node.commitIndex) = some 0 ∧
    ∃ later, (start (fresh.appends [firstEntry 1, (2, ⟨1, 2, 3, none, [], 1, 0⟩, [])])).2 = later ∧
      ((later.checkpointSnapshot 2 "now").toOption.map fun snapshot =>
        snapshot.snapshotMeta.lastLogId) = some ⟨2, 1⟩ ∧
      ((triggerSnapshot later).1.toOption.map SnapshotMetadata.lastLogId) = some ⟨2, 1⟩ ∧
      (later.nodes[2]?.map fun node => node.logTermAt 1) = some (some 1) :=
  ⟨_, rfl, by decide +kernel, by decide +kernel, _, rfl, by decide +kernel⟩

end Runs
end RaftCluster
end MatrixRaft
