/-
# ProposeRule — a rule for proposals

A proposal releases memory if it must, mints an entry, visits every replica once and
recomputes the commit point.  A relation that contains the bookkeeping, and holds across the
few steps that touch a log, holds across the whole proposal, failed or not.
-/
import MatrixRaft.AnswerRule
import MatrixRaft.Propose

namespace MatrixRaft.RaftCluster
open Theory Attempt.Moves Attempt
variable {s s' : RaftCluster} {M : RaftCluster → RaftCluster → Prop}

/-! ## What a proposal starts from -/

theorem proposingLeader_eq_ok {payload : Payload} {options : ProposeOptions} {leaderId : Nat}
    {leader : Node} (admitted : s.proposingLeader payload options = .ok (leaderId, leader)) :
    s.leaderId = some leaderId ∧ s.nodes[leaderId]? = some leader := by
  unfold proposingLeader at admitted
  split at admitted
  · cases admitted
  split at admitted
  · cases admitted
  · grind

theorem nextLogIndex_eq_ok {index : Nat} (next : s.nextLogIndex = .ok index) :
    index = s.lastLogIndex + 1 ∧ index ≤ u64Max := by
  unfold nextLogIndex checkedAdd at next
  grind

theorem nodup_keys (s : RaftCluster) : s.nodes.keys.Nodup :=
  (Std.TreeMap.distinct_keys (t := s.nodes)).imp fun apart same => apart (by simp [same])

/-! ## Releasing memory -/

theorem makeRoom_eq (unpressed : s.shouldReleaseMemory = false) (spare : s.isBusy = false) :
    makeRoom s = (.ok (), s) := by
  unfold makeRoom
  simp [unpressed, spare]

theorem releaseMemory_moves [Std.Refl M]
    (release : ∀ (s : RaftCluster) index limit, M s (s.releaseThrough index limit).2) :
    Moves M releaseMemory := by
  intro s
  unfold releaseMemory
  split
  · exact release s _ _
  dsimp only
  split
  · exact Std.Refl.refl s
  · exact release s _ _

theorem makeRoom_moves [Std.Refl M] [IsTrans RaftCluster M]
    (release : ∀ (s : RaftCluster) index limit, M s (s.releaseThrough index limit).2) :
    Moves M makeRoom := by
  have releases := releaseMemory_moves release
  have second : Moves M (fun released =>
      if released.isBusy then
        (releaseMemory >>= fun freed =>
          if freed then pure () else throw (.invalidRequest .outOfMemoryBuffer)) released
      else (.ok (), released) : ClusterM Unit) := by
    intro released
    dsimp only
    split
    · refine bind releases (fun freed => ?_) released
      intro reached
      split <;> exact Std.Refl.refl reached
    · exact Std.Refl.refl released
  intro s
  unfold makeRoom
  split
  · exact bind releases (fun _ => second) s
  · exact second s

/-! ## The round -/

theorem beginLeaderLeaseRenewal_settles (s : RaftCluster) :
    Settles s s.beginLeaderLeaseRenewal.2 := by
  unfold beginLeaderLeaseRenewal
  split <;> exact .of_core rfl rfl rfl

theorem openRenewal_settles (s : RaftCluster) (leaderId : Nat) :
    Settles s (if s.beginLeaderLeaseRenewal.1 = true then
      s.beginLeaderLeaseRenewal.2.recordLeaderLeaseConfirmationInner leaderId false
      else s.beginLeaderLeaseRenewal.2) := by
  split
  · exact (beginLeaderLeaseRenewal_settles s).trans (recordLeaderLeaseConfirmation_settles _ _ _)
  · exact beginLeaderLeaseRenewal_settles s

/-- What has to be shown of a relation for the round of `proposal` to move along it. -/
structure ProposeRule (leaderId : Nat) (proposal : Proposal)
    (M : RaftCluster → RaftCluster → Prop) : Prop where
  trans : ∀ {first second third}, M first second → M second third → M first third
  settles : ∀ {s s'}, Settles s s' → M s s'
  lead : ∀ s : RaftCluster, M s (s.modifyNode leaderId fun leader =>
    leader.appendEntry proposal.entry)
  deliver : ∀ {s : RaftCluster} {nodeId : Nat} {node : Node} (renewing : Bool),
    nodeId ≠ leaderId → s.nodes[nodeId]? = some node →
    M s (deliverProposal leaderId nodeId proposal renewing node s).2
  commit : ∀ s : RaftCluster, M s s.refreshCommitIndex

section Turn
variable {leaderId nodeId : Nat} {proposal : Proposal} {renewing : Bool} {s : RaftCluster}

theorem deliverProposal_moves {node : Node}
    (rule : AnswerRule nodeId (proposalAnswer proposal node (receiveProposal proposal node)) false M)
    (received : M s (s.modifyNode nodeId fun _ => receiveProposal proposal node)) :
    M s (deliverProposal leaderId nodeId proposal renewing node s).2 := by
  unfold deliverProposal
  split
  · refine rule.trans (rule.trans received ?_)
      (handleAppendEntriesResponseInner_moves rule leaderId false _)
    split
    · exact rule.settles (receiveLeaderLeaseConfirmation_settles _ _ _ _ _)
    · exact rule.settles (.refl _)
  · exact rule.settles (.refl s)

theorem proposeToNode_turn
    (trans : ∀ {first second third}, M first second → M second third → M first third)
    (settles : ∀ {s s'}, SettlesFor nodeId s s' → M s s')
    (lead : nodeId = leaderId →
      M s (s.modifyNode nodeId fun leader => leader.appendEntry proposal.entry))
    (deliver : ∀ {s : RaftCluster} {node : Node}, nodeId ≠ leaderId → s.nodes[nodeId]? = some node →
      M s (deliverProposal leaderId nodeId proposal renewing node s).2) :
    M s (proposeToNode leaderId proposal renewing nodeId s).2 := by
  unfold proposeToNode
  split
  · exact settles (.refl s)
  rename_i node held
  split
  · rename_i leads
    exact lead leads
  rename_i follows
  split
  · exact settles (.refl s)
  have stored : ∀ pipeline, M s { s with peerPipelines := s.peerPipelines.insert nodeId pipeline } :=
    fun pipeline => settles ⟨.of_core rfl rfl rfl, fun other apart => by grind⟩
  dsimp only
  split
  · exact stored _
  · exact trans (stored _) (trans (settles (modifyPipeline_settles _ nodeId _)) (deliver follows held))

end Turn

section
variable {leaderId : Nat} {proposal : Proposal} (rule : ProposeRule leaderId proposal M)
include rule

theorem proposeToNode_moves (renewing : Bool) (nodeId : Nat) :
    Moves M (proposeToNode leaderId proposal renewing nodeId) := fun s =>
  proposeToNode_turn rule.trans (fun settles => rule.settles settles.toSettles)
    (fun leads => leads ▸ rule.lead s) (rule.deliver renewing)

/-- **A round.** Every replica's turn and the recomputation after them. -/
theorem replicateProposal_moves : Moves M (replicateProposal leaderId proposal) := by
  have : Std.Refl M := ⟨fun s => rule.settles (.refl s)⟩
  have : IsTrans RaftCluster M := ⟨fun _ _ _ => rule.trans⟩
  intro s
  unfold replicateProposal
  refine rule.trans (rule.settles (openRenewal_settles s leaderId)) (bind
    (forEach _ fun nodeId _ => proposeToNode_moves rule _ nodeId) (fun _ =>
      bind (update rule.commit) fun _ =>
        bind (update fun reached => ?_) fun _ =>
          pure _) _)
  split
  · exact rule.settles (.of_core rfl rfl rfl)
  · exact rule.settles (.refl reached)

end

/-- **A proposal**, failed or not. -/
theorem proposeWithOptions_moves [Std.Refl M] [IsTrans RaftCluster M]
    (release : ∀ (s : RaftCluster) index limit, M s (s.releaseThrough index limit).2)
    (register : ∀ (s : RaftCluster) proposal, M s (s.registerProposal proposal))
    (replicate : ∀ leaderId proposal, Moves M (replicateProposal leaderId proposal))
    (payload : Payload) (options : ProposeOptions) :
    Moves M (proposeWithOptions payload options) := by
  intro s
  unfold proposeWithOptions
  split
  · exact Std.Refl.refl s
  refine bind (makeRoom_moves release) (fun _ => ?_) s
  intro reached
  dsimp only
  split
  · exact Std.Refl.refl reached
  · exact IsTrans.trans _ _ _ (register reached _) (replicate _ _ _)

end MatrixRaft.RaftCluster
