/-
# FailedProposal — what a proposal that fails leaves behind

A proposal registers its entry, then hands it to one replica after another.  A pipeline
that refuses the entry in mid-round ends the proposal with an error, and nothing registered
or appended by then is taken back.  The round cannot fail in another way.
-/
import MatrixRaft.ProposeRule

namespace MatrixRaft
open Theory Attempt ReplicationPipeline

/-! ## Room in a pipeline -/

/-- The three checks of `queue_append` for an entry of `bytes` payload bytes. -/
def ReplicationPipeline.admits (p : ReplicationPipeline) (bytes : Nat) : Bool :=
  decide (bytes ≤ p.limits.maxApplyBatchBytes)
    && decide (p.appendQueue.length < p.status.appendQueueLimit)
    && decide (p.status.inflightBytes + p.appendQueueBytes + bytes
        ≤ p.limits.maxMemoryReplicateLogBytes)

def PipelineLimits.admits (limits : PipelineLimits) (bytes : Nat) : Bool :=
  decide (bytes ≤ limits.maxApplyBatchBytes) && decide (0 < limits.maxInflightsReplicate)
    && decide (bytes ≤ limits.maxMemoryReplicateLogBytes)

namespace ReplicationPipeline

theorem queueAppend_isOk (entry : LogEntry) (p : ReplicationPipeline) :
    (queueAppend entry p).1.isOk = p.admits entry.payload.length := by
  unfold queueAppend admits
  dsimp only
  split
  · rw [decide_eq_false (by omega), Bool.false_and, Bool.false_and]
    rfl
  · rw [decide_eq_true (by omega), Bool.true_and]
    split
    · rw [decide_eq_false (by omega), Bool.false_and]
      rfl
    · rw [decide_eq_true (by omega), Bool.true_and]
      split
      · rw [decide_eq_false (by omega)]
        rfl
      · rw [decide_eq_true (by omega)]
        rfl

theorem queueAppend_of_admits {entry : LogEntry} {p : ReplicationPipeline}
    (admits : p.admits entry.payload.length = true) : (queueAppend entry p).1 = .ok () := by
  rw [← queueAppend_isOk] at admits
  rcases outcome : (queueAppend entry p).1 with error | done
  · rw [outcome] at admits
    cases admits
  · rfl

theorem queueAppend_of_not_admits {entry : LogEntry} {p : ReplicationPipeline}
    (refuses : p.admits entry.payload.length = false) :
    ∃ error, (queueAppend entry p).1 = .error error := by
  rw [← queueAppend_isOk] at refuses
  rcases outcome : (queueAppend entry p).1 with error | done
  · exact ⟨error, rfl⟩
  · rw [outcome] at refuses
    cases refuses

theorem resetForLeaderTransition_admits (p : ReplicationPipeline) (matchIndex nextIndex : Nat)
    (progressState : ProgressState) (bytes : Nat) :
    (p.resetForLeaderTransition matchIndex nextIndex progressState).admits bytes
      = p.limits.admits bytes := by
  show (decide (bytes ≤ p.limits.maxApplyBatchBytes)
      && decide (0 < p.limits.maxInflightsReplicate)
      && decide (0 + 0 + bytes ≤ p.limits.maxMemoryReplicateLogBytes)) = _
  rw [Nat.zero_add]
  rfl

end ReplicationPipeline

theorem Node.discardLogThrough_matchIndex_le (node : Node) (index : Nat) :
    (node.discardLogThrough index).2.matchIndex ≤ node.matchIndex := by
  have last : (node.discardLogThrough index).2.lastLogIndex ≤ node.lastLogIndex := by
    unfold Node.discardLogThrough
    dsimp only
    split
    · exact le_refl node.lastLogIndex
    · unfold Node.lastLogIndex
      grind
  have same := Node.discardLogThrough_same node index
  have acknowledged : (node.discardLogThrough index).2.witnessAckIndex = node.witnessAckIndex := by
    unfold Node.discardLogThrough
    dsimp only
    split <;> rfl
  unfold Node.matchIndex
  rw [same.replicaRole, same.snapshotIndex, acknowledged]
  grind

namespace RaftCluster
variable {s s' : RaftCluster} {nodeId peerId bytes : Nat}

theorem resetPipelineFor_admits (s : RaftCluster) (leaderId nodeId bytes : Nat) :
    (s.resetPipelineFor leaderId nodeId).admits bytes
      = ((s.peerPipelines[nodeId]?).elim s.config.pipelineLimits
          ReplicationPipeline.limits).admits bytes := by
  have limits : ((s.peerPipelines[nodeId]?).getD (ReplicationPipeline.new nodeId
      (satAdd s.lastLogIndex 1) s.config.pipelineLimits)).limits
      = (s.peerPipelines[nodeId]?).elim s.config.pipelineLimits ReplicationPipeline.limits := by
    cases s.peerPipelines[nodeId]? <;> rfl
  unfold resetPipelineFor
  split <;> rw [resetForLeaderTransition_admits, limits]

structure LeasesAside (s s' : RaftCluster) : Prop where
  nodes : s'.nodes = s.nodes
  pipelines : s'.peerPipelines = s.peerPipelines
  config : s'.config = s.config
  transfer : s'.leaderTransfer = s.leaderTransfer
  lastLogIndex : s'.lastLogIndex = s.lastLogIndex

theorem receiveLeaderLeaseConfirmation_aside (s : RaftCluster)
    (nodeId confirmationEpoch durationMs : Nat) (recomputes : Bool) :
    LeasesAside s (s.receiveLeaderLeaseConfirmationInner nodeId confirmationEpoch durationMs
      recomputes).2 := by
  have stored : ∀ role, LeasesAside s (s.storeLeaseConfirmation nodeId role confirmationEpoch
      durationMs) := by
    intro role
    unfold storeLeaseConfirmation
    dsimp only
    split
    · exact ⟨rfl, rfl, rfl, rfl, rfl⟩
    · split <;> exact ⟨rfl, rfl, rfl, rfl, rfl⟩
  unfold receiveLeaderLeaseConfirmationInner
  split
  · exact ⟨rfl, rfl, rfl, rfl, rfl⟩
  split
  · exact ⟨rfl, rfl, rfl, rfl, rfl⟩
  rename_i node _
  split
  · exact ⟨rfl, rfl, rfl, rfl, rfl⟩
  split
  · exact ⟨rfl, rfl, rfl, rfl, rfl⟩
  obtain ⟨nodes, pipelines, config, transfer, last⟩ := stored node.replicaRole
  split <;> exact ⟨nodes, pipelines, config, transfer, last⟩

theorem openRenewal_aside (s : RaftCluster) (leaderId : Nat) :
    LeasesAside s (if s.beginLeaderLeaseRenewal.1 = true then
      s.beginLeaderLeaseRenewal.2.recordLeaderLeaseConfirmationInner leaderId false
      else s.beginLeaderLeaseRenewal.2) := by
  have begun : LeasesAside s s.beginLeaderLeaseRenewal.2 := by
    unfold beginLeaderLeaseRenewal
    split <;> exact ⟨rfl, rfl, rfl, rfl, rfl⟩
  split
  · obtain ⟨nodes, pipelines, config, transfer, last⟩ :=
      receiveLeaderLeaseConfirmation_aside s.beginLeaderLeaseRenewal.2 leaderId _ _ false
    exact ⟨nodes.trans begun.nodes, pipelines.trans begun.pipelines, config.trans begun.config,
      transfer.trans begun.transfer, last.trans begun.lastLogIndex⟩
  · exact begun

/-- The pipeline of `nodeId`, if it has one, has room for `bytes` more payload bytes; while
a transfer is in flight, so has the one a change of leader would leave it. -/
structure Admits (nodeId bytes : Nat) (s : RaftCluster) : Prop where
  now : ∀ pipeline, s.peerPipelines[nodeId]? = some pipeline → pipeline.admits bytes = true
  renewed : s.activeLeaderTransfer.isSome = true →
    ∀ leaderId, (s.resetPipelineFor leaderId nodeId).admits bytes = true

namespace Admits
section
variable (admits : Admits nodeId bytes s)

include admits

theorem of_eq (pipeline : s'.peerPipelines[nodeId]? = s.peerPipelines[nodeId]?)
    (config : s'.config = s.config)
    (transfer : s'.activeLeaderTransfer.isSome = true → s.activeLeaderTransfer.isSome = true) :
    Admits nodeId bytes s' where
  now := by
    rw [pipeline]
    exact admits.now
  renewed := by
    intro active leaderId
    simpa [resetPipelineFor_admits, pipeline,
      config] using admits.renewed (transfer active) leaderId

theorem of_leases (aside : LeasesAside s s') : Admits nodeId bytes s' := by
  grind [aside.pipelines, activeLeaderTransfer, aside.transfer, admits.of_eq, aside.config]

theorem modifyNode (otherId : Nat) (f : Node → Node) :
    Admits nodeId bytes (s.modifyNode otherId f) := admits.of_eq rfl rfl id

theorem of_settles (apart : peerId ≠ nodeId) (settles : SettlesFor peerId s s') :
    Admits nodeId bytes s' := by
  refine admits.of_eq (settles.others nodeId apart.symm) settles.bookkeeping.config ?_
  rw [settles.activeLeaderTransfer]
  exact id

theorem refreshCommitIndex : Admits nodeId bytes s.refreshCommitIndex := by
  rcases refreshCommitIndex_cases s with same | ⟨commitIndex, same⟩ <;> rw [same]
  · exact admits
  · exact admits.of_eq rfl rfl id

theorem abortLeaderTransfer (reason : String) :
    Admits nodeId bytes (s.abortLeaderTransfer reason).2 := by
  unfold RaftCluster.abortLeaderTransfer
  split
  · exact admits
  · exact admits.of_eq rfl rfl nofun

end
end Admits

/-! ## A change of leader within the round -/

theorem foldl_insert_lookup {β : Type} (f : Nat → β) (key : Nat) :
    ∀ (keys : List Nat) (map : Std.TreeMap Nat β),
      (keys.foldl (fun map key => map.insert key (f key)) map)[key]?
        = if key ∈ keys then some (f key) else map[key]?
  | [], map => by simp
  | first :: keys, map => by
    rw [List.foldl_cons, foldl_insert_lookup f key keys, Std.TreeMap.getElem?_insert]
    grind

theorem concludeTransferFor_idle (s : RaftCluster) (leaderId : Nat) (reason : String) :
    (s.concludeTransferFor leaderId reason).activeLeaderTransfer = none := by
  unfold concludeTransferFor completeLeaderTransfer abortLeaderTransfer
  split
  · assumption
  · split <;> rfl

theorem takeLeadership_eq (s : RaftCluster) (candidateId nextTerm : Nat) :
    ∃ claimed : RaftCluster, s.takeLeadership candidateId nextTerm
        = claimed.resetReplicationPipelinesForLeader candidateId
      ∧ claimed.peerPipelines = s.peerPipelines ∧ claimed.config = s.config
      ∧ claimed.activeLeaderTransfer = none := by
  refine ⟨_, rfl, ?_⟩
  set leads := s.claimLeadership candidateId nextTerm
  have claimed : leads.peerPipelines = s.peerPipelines ∧ leads.config = s.config
      ∧ leads.activeLeaderTransfer = none := by
    refine ⟨?_, (claimLeadership_bookkeeping s candidateId nextTerm).config,
      concludeTransferFor_idle _ _ _⟩
    exact concludeTransferFor_peerPipelines _ _ _
  obtain ⟨counts, same | same⟩ := refreshWitnessCommitQuorumPolicy_cases leads
  · rw [same]
    exact claimed
  rw [same]
  rcases refreshCommitIndex_cases { leads with
    countWitnessInCommitQuorum := counts } with still | ⟨commitIndex, moved⟩
  · rw [still]
    exact claimed
  · rw [moved]
    exact claimed

section
variable (admits : Admits nodeId bytes s) (active : s.activeLeaderTransfer.isSome = true)
include admits active

theorem Admits.takeLeadership (candidateId nextTerm : Nat) :
    Admits nodeId bytes (s.takeLeadership candidateId nextTerm) := by
  obtain ⟨claimed, elected, pipelines, config, idle⟩ := takeLeadership_eq s candidateId nextTerm
  rw [elected]
  constructor
  · intro pipeline found
    rw [resetReplicationPipelinesForLeader, foldl_insert_lookup] at found
    split at found
    · obtain rfl := Option.some.inj found
      simpa [resetPipelineFor_admits, pipelines, config] using admits.renewed active candidateId
    · grind [admits.now]
  · intro stillActive
    have ended : (claimed.resetReplicationPipelinesForLeader candidateId).activeLeaderTransfer
        = none := idle
    grind

theorem campaign_admits (candidateId : Nat) (forced : Bool) :
    Admits nodeId bytes (campaign candidateId forced s).2 := by
  have noop : Keeps (Admits nodeId bytes) broadcastLeaderNoop := by
    intro s admits
    unfold broadcastLeaderNoop
    split
    · exact admits
    · exact admits
    · exact admits.of_eq rfl rfl id
  unfold campaign
  iterate 8
    split
    · exact admits
  rename_i nextTerm _
  have elected := admits.takeLeadership active candidateId nextTerm
  split
  · rw [bind_pure_state]
    exact noop _ elected
  · exact elected

end

/-! ## The other pipelines while one peer answers -/

/-- **The other pipelines.** One peer's answer leaves the room of every other peer's
pipeline. -/
theorem admits_answerRule (apart : peerId ≠ nodeId) (response : AppendEntriesResponse)
    (recomputes : Bool) : AnswerRule peerId response recomputes
      (fun s s' => Admits nodeId bytes s → Admits nodeId bytes s') where
  trans := fun one two admits => two (one admits)
  settles := fun settles admits => admits.of_settles apart settles
  laterTerm := fun s _ admits => by
    have adopted : Admits nodeId bytes (s.adoptLaterTerm response.term) := admits.of_eq rfl rfl id
    exact (adopted.abortLeaderTransfer "append_response_high_term").of_eq rfl rfl id
  retry := fun _ =>
    { trans := fun one two admits => two (one admits)
      settles := fun settles admits => admits.of_settles apart settles
      caughtUp := fun _ _ _ admits => admits.modifyNode peerId _
      refresh := fun _ admits => admits.of_eq rfl rfl id }
  commit := fun _ _ admits => admits.refreshCommitIndex
  campaign := fun _ active _ _ admits => campaign_admits admits (by simp [active]) peerId true

/-! ## A round with room everywhere -/

variable (leaderId : Nat) (proposal : Proposal) (renewing : Bool)

theorem proposeToNode_admits (apart : peerId ≠ nodeId) :
    Keeps (Admits nodeId bytes) (proposeToNode leaderId proposal renewing peerId) := by
  have rule := fun response => @admits_answerRule nodeId peerId bytes apart response false
  intro s
  exact proposeToNode_turn (fun one two admits => two (one admits))
    (fun settles admits => admits.of_settles apart settles)
    (fun _ admits => admits.modifyNode peerId _) fun _ _ =>
      deliverProposal_moves (rule _) fun admits => admits.modifyNode peerId _

theorem proposeToNode_ok
    (admits : nodeId ≠ leaderId → Admits nodeId proposal.entry.payload.length s) :
    (proposeToNode leaderId proposal renewing nodeId s).1 = .ok () := by
  unfold proposeToNode
  split
  · rfl
  split
  · rfl
  rename_i follows
  split
  · rfl
  rename_i pipeline found
  have queued := queueAppend_of_admits
    ((admits follows).now pipeline found)
  dsimp only
  rw [queued]
  unfold deliverProposal
  dsimp only
  split <;> rfl

theorem forEach_proposeToNode_ok : ∀ {nodeIds : List Nat} {s : RaftCluster}, nodeIds.Nodup →
    (∀ nodeId ∈ nodeIds, nodeId ≠ leaderId → Admits nodeId proposal.entry.payload.length s) →
    (forEach (proposeToNode leaderId proposal renewing) nodeIds s).1 = .ok ()
  | [], s, _, _ => rfl
  | first :: rest, s, nodup, admits => by
    obtain ⟨fresh, nodup⟩ := List.nodup_cons.mp nodup
    have taken := proposeToNode_ok leaderId proposal renewing (admits first (by simp))
    rcases ran : proposeToNode leaderId proposal renewing first s with ⟨outcome, reached⟩
    rw [ran] at taken
    cases taken
    rw [forEach, bind_ok ran]
    refine forEach_proposeToNode_ok nodup fun nodeId member follows => ?_
    -- the peers still to come are not the one that was served
    have apart : first ≠ nodeId := fun same => fresh (same ▸ member)
    have kept := proposeToNode_admits leaderId proposal renewing apart s
      (admits nodeId (by simp [member]) follows)
    grind

/-- **The round.** With room in every follower's pipeline it succeeds. -/
theorem replicateProposal_ok (admits : ∀ nodeId ∈ s.nodes.keys, nodeId ≠ leaderId →
    Admits nodeId proposal.entry.payload.length s) :
    (replicateProposal leaderId proposal s).1 = .ok proposal.entry.logId := by
  have served := forEach_proposeToNode_ok leaderId proposal s.beginLeaderLeaseRenewal.1
    (nodup_keys s) fun nodeId member follows =>
      (admits nodeId member follows).of_leases (openRenewal_aside s leaderId)
  unfold replicateProposal
  rw [bind_apply]
  split
  · rfl
  · grind

/-! ## What a failure leaves -/

/-- Some releases of log memory lie between the two states. -/
inductive Compacts (s : RaftCluster) : RaftCluster → Prop where
  | refl : Compacts s s
  | release {s' : RaftCluster} (before : Compacts s s') (index : Nat) (limit : Option Nat) :
      Compacts s (s'.releaseThrough index limit).2

/-- The logs, the last log index and the membership changes on record are the same. -/
structure SameTrace (s s' : RaftCluster) : Prop where
  logs : ∀ nodeId : Nat, (s'.nodes[nodeId]?).map Node.log = (s.nodes[nodeId]?).map Node.log
  lastLogIndex : s'.lastLogIndex = s.lastLogIndex
  pending : s'.pendingMembershipChangeIndex = s.pendingMembershipChangeIndex
  marks : s'.membershipChangeIndexes = s.membershipChangeIndexes

variable (payload : Payload)

/-- A failed proposal of `payload` differs from `s` by compaction alone. -/
def LeavesNoTrace (options : ProposeOptions) (s : RaftCluster) : Prop :=
  ∀ error s', proposeWithOptions payload options s = (.error error, s') →
    ∃ compacted, Compacts s compacted ∧ SameTrace compacted s'

def FollowersAdmit (s : RaftCluster) : Prop :=
  ∀ (nodeId : Nat) (node : Node), s.nodes[nodeId]? = some node → s.leaderId ≠ some nodeId →
    Admits nodeId payload.length s

/-- The proposal is refused before its entry is registered: by the checks on the proposal and its
leader, by a buffer that stays full, or for want of a next index. -/
def refusedEarly (options : ProposeOptions) (s : RaftCluster) : Bool :=
  !(s.proposingLeader payload options).isOk ||
    match makeRoom s with
    | (.error _, _) => true
    | (.ok (), roomy) => !roomy.nextLogIndex.isOk

theorem SameTrace.refl (s : RaftCluster) : SameTrace s s := ⟨fun _ => rfl, rfl, rfl, rfl⟩

theorem Compacts.trans {s'' : RaftCluster} (first : Compacts s s') (second : Compacts s' s'') :
    Compacts s s'' := by
  induction second with
  | refl => exact first
  | release _ index limit ih => exact .release ih index limit

theorem makeRoom_compacts : Moves Compacts makeRoom := by
  have : Std.Refl Compacts := ⟨fun _ => .refl⟩
  have : IsTrans RaftCluster Compacts := ⟨fun _ _ _ => Compacts.trans⟩
  exact makeRoom_moves fun _ index limit => .release .refl index limit

theorem Compacts.frame (compacts : Compacts s s') :
    s'.leaderId = s.leaderId ∧ s'.peerPipelines = s.peerPipelines ∧ s'.config = s.config
      ∧ s'.leaderTransfer = s.leaderTransfer
      ∧ ∀ nodeId : Nat, (s'.nodes[nodeId]?).isSome = (s.nodes[nodeId]?).isSome := by
  induction compacts with
  | refl => exact ⟨rfl, rfl, rfl, rfl, fun _ => rfl⟩
  | release _ index limit ih =>
    unfold releaseThrough
    split
    · exact ih
    · grind [compactLogsThroughWithLeaderLimit, refreshClusterIndexes, mapNodes]

theorem FollowersAdmit.compacts {payload : Payload} (willing : FollowersAdmit payload s)
    (compacts : Compacts s s') : FollowersAdmit payload s' := by
  obtain ⟨leads, pipelines, config, transfer, ids⟩ := compacts.frame
  intro nodeId node held follows
  have before : (s.nodes[nodeId]?).isSome = true := by rw [← ids, held]; rfl
  obtain ⟨node, held⟩ := Option.isSome_iff_exists.mp before
  refine (willing nodeId node held (leads ▸ follows)).of_eq (by rw [pipelines]) config ?_
  rw [activeLeaderTransfer, transfer]
  exact id

theorem leavesNoTrace_of_willing {payload : Payload} {options : ProposeOptions}
    (harmless : FollowersAdmit payload s ∨ s.refusedEarly payload options = true) :
    LeavesNoTrace payload options s := by
  intro error s' failed
  unfold proposeWithOptions at failed
  split at failed
  · cases failed
    exact ⟨s, .refl, .refl s⟩
  rename_i leaderId leader admitted
  have compacts := makeRoom_compacts s
  rw [bind_apply] at failed
  rcases made : makeRoom s with ⟨refused | made, reached⟩
  · rw [made] at failed compacts
    cases failed
    exact ⟨_, compacts, .refl _⟩
  · rw [made] at failed compacts
    dsimp only at failed
    split at failed
    · cases failed
      exact ⟨_, compacts, .refl _⟩
    rename_i index next
    -- all checks are passed, so the followers are willing
    have willing : FollowersAdmit payload s := by
      refine harmless.resolve_right fun early => ?_
      rw [refusedEarly, admitted, made] at early
      dsimp only at early
      rw [next] at early
      cases early
    have leads : reached.leaderId = some leaderId :=
      compacts.frame.1.trans (proposingLeader_eq_ok admitted).1
    have done := replicateProposal_ok leaderId
      (reached.mintProposal payload options leader.safetyAppliedIndex index)
      (s := reached.registerProposal
        (reached.mintProposal payload options leader.safetyAppliedIndex index)) ?_
    · grind
    intro nodeId member follows
    obtain ⟨node, held⟩ := Option.isSome_iff_exists.mp
      (Std.TreeMap.isSome_getElem?_iff_mem.mpr (Std.TreeMap.mem_keys.mp member))
    refine (willing.compacts compacts nodeId node held ?_).of_eq rfl rfl id
    grind

/-! ## A round that meets a full pipeline -/

def FirstFollowerRefuses (s : RaftCluster) : Prop :=
  ∃ (nodeId : Nat) (node : Node) (pipeline : ReplicationPipeline),
    s.nodes[nodeId]? = some node ∧ s.leaderId ≠ some nodeId ∧
    s.peerPipelines[nodeId]? = some pipeline ∧ pipeline.admits payload.length = false ∧
    ∀ other ∈ s.nodes.keys, other < nodeId → s.leaderId = some other

structure ReachesRound (payload : Payload) (options : ProposeOptions) (s : RaftCluster) :
    Prop where
  admitted : ∃ leading, s.proposingLeader payload options = .ok leading
  unpressed : s.shouldReleaseMemory = false
  spare : s.isBusy = false
  numbered : s.lastLogIndex < u64Max
  reached : ∀ (nodeId : Nat) (node : Node), s.nodes[nodeId]? = some node →
    node.matchIndex ≤ s.lastLogIndex

theorem Compacts.lastLogIndex_le (compacts : Compacts s s') {bound : Nat}
    (last : s.lastLogIndex ≤ bound)
    (each : ∀ (nodeId : Nat) (node : Node), s.nodes[nodeId]? = some node →
      node.matchIndex ≤ bound) :
    s'.lastLogIndex ≤ bound ∧ ∀ (nodeId : Nat) (node : Node), s'.nodes[nodeId]? = some node →
      node.matchIndex ≤ bound := by
  induction compacts with
  | refl => exact ⟨last, each⟩
  | release before index limit ih =>
    rename_i middle
    unfold releaseThrough
    split
    · exact ih
    have compacted : ∀ (nodeId : Nat) (node : Node),
        (middle.compactLogsThroughWithLeaderLimit (index - 1) limit).2.nodes[nodeId]?
          = some node → node.matchIndex ≤ bound := by
      intro nodeId node held
      simp only [compactLogsThroughWithLeaderLimit, refreshClusterIndexes, mapNodes,
        Std.TreeMap.getElem?_map, Option.map_eq_some_iff] at held
      obtain ⟨node, held, rfl⟩ := held
      exact (node.discardLogThrough_matchIndex_le _).trans (ih.2 nodeId node held)
    exact ⟨refreshClusterIndexes_lastLogIndex_le compacted, compacted⟩

section Refused
variable {node : Node} {pipeline : ReplicationPipeline} (follows : nodeId ≠ leaderId)
  (refuses : pipeline.admits proposal.entry.payload.length = false)

include follows refuses

theorem forEach_proposeToNode_refused :
    ∀ {nodeIds : List Nat} {s : RaftCluster}, nodeIds.Pairwise (· < ·) → nodeId ∈ nodeIds →
      (∀ other ∈ nodeIds, other < nodeId → other = leaderId) → s.nodes[nodeId]? = some node →
      s.peerPipelines[nodeId]? = some pipeline →
      ∃ error s', forEach (proposeToNode leaderId proposal renewing) nodeIds s
          = (.error error, s') ∧ s'.lastLogIndex = s.lastLogIndex
  | [], _, _, member, _, _, _ => by cases member
  | first :: rest, s, sorted, member, leads, held, found => by
    obtain ⟨above, sorted⟩ := List.pairwise_cons.mp sorted
    rw [forEach]
    by_cases here : first = nodeId
    · obtain ⟨error, refused⟩ := queueAppend_of_not_admits refuses
      have ran : ∃ s', proposeToNode leaderId proposal renewing first s = (.error error, s')
          ∧ s'.lastLogIndex = s.lastLogIndex := by
        unfold proposeToNode
        grind
      grind [bind_error]
    · have later : nodeId ∈ rest := by grind
      have isLeader := leads first (by simp) (above nodeId later)
      -- the leader appends, which touches neither the pipeline nor the index
      have ran : ∃ s', proposeToNode leaderId proposal renewing first s = (.ok (), s')
          ∧ s'.lastLogIndex = s.lastLogIndex ∧ s'.nodes[nodeId]? = some node
          ∧ s'.peerPipelines[nodeId]? = some pipeline := by
        unfold proposeToNode
        split
        · exact ⟨s, rfl, rfl, held, found⟩
        · grind [modifyNode]
      obtain ⟨s', ran, last, held, found⟩ := ran
      obtain ⟨error, s'', failed, last'⟩ := forEach_proposeToNode_refused sorted
        later (fun other member => leads other (by simp [member])) held found
      exact ⟨error, s'', (bind_ok ran).trans failed, last'.trans last⟩

theorem replicateProposal_refused
    (held : s.nodes[nodeId]? = some node) (found : s.peerPipelines[nodeId]? = some pipeline)
    (leads : ∀ other ∈ s.nodes.keys, other < nodeId → other = leaderId) :
    ∃ error s', replicateProposal leaderId proposal s = (.error error, s')
      ∧ s'.lastLogIndex = s.lastLogIndex := by
  have sorted : s.nodes.keys.Pairwise (· < ·) :=
    Std.TreeMap.ordered_keys.imp fun below => compare_lt_iff_lt.mp below
  have aside := openRenewal_aside s leaderId
  have member : nodeId ∈ s.nodes.keys :=
    Std.TreeMap.mem_keys.mpr (Std.TreeMap.isSome_getElem?_iff_mem.mp (by rw [held]; rfl))
  rw [← aside.nodes] at held
  rw [← aside.pipelines] at found
  obtain ⟨error, s', ran, last⟩ := forEach_proposeToNode_refused leaderId proposal
    s.beginLeaderLeaseRenewal.1 follows refuses sorted member leads held found
  unfold replicateProposal
  rw [bind_error ran]
  exact ⟨error, s', rfl, last.trans aside.lastLogIndex⟩

end Refused

theorem not_leavesNoTrace_of_refused {payload : Payload} {options : ProposeOptions}
    (refused : FirstFollowerRefuses payload s) (reaches : ReachesRound payload options s) :
    ¬ LeavesNoTrace payload options s := by
  obtain ⟨nodeId, node, pipeline, held, follows, found, refuses, first⟩ := refused
  obtain ⟨⟨leaderId, leader⟩, admitted⟩ := reaches.admitted
  have leads := (proposingLeader_eq_ok admitted).1
  have next : s.nextLogIndex = .ok (s.lastLogIndex + 1) := by
    grind [nextLogIndex, checkedAdd, reaches.numbered]
  have failed : ∃ error s', proposeWithOptions payload options s = (.error error, s')
      ∧ s'.lastLogIndex = s.lastLogIndex + 1 := by
    unfold proposeWithOptions
    rw [admitted]
    dsimp only
    rw [bind_ok (makeRoom_eq reaches.unpressed reaches.spare), next]
    obtain ⟨error, s', ran, last⟩ := replicateProposal_refused leaderId
      (s.mintProposal payload options leader.safetyAppliedIndex (s.lastLogIndex + 1))
      (s := s.registerProposal (s.mintProposal payload options leader.safetyAppliedIndex
        (s.lastLogIndex + 1))) (fun same => follows (by rw [leads, same])) refuses held found
      fun other member below => Option.some.inj ((first other member below).symm.trans leads)
    exact ⟨error, s', ran, last⟩
  obtain ⟨error, s', failed, raised⟩ := failed
  intro clean
  obtain ⟨compacted, compacts, same⟩ := clean error s' failed
  have bounded := (compacts.lastLogIndex_le le_rfl reaches.reached).1
  grind [same.lastLogIndex]

/-- **Failed proposals.** With room in every follower's pipeline, or refused before its round, a failed
proposal leaves nothing but what compaction released; one that finds the first follower's pipeline
full leaves a trace. -/
theorem failed_proposal_leaves_no_trace (payload : Payload) (options : ProposeOptions)
    (s : RaftCluster) : (FollowersAdmit payload s ∨ s.refusedEarly payload options = true →
        LeavesNoTrace payload options s) ∧
      (FirstFollowerRefuses payload s → ReachesRound payload options s →
        ¬ LeavesNoTrace payload options s) :=
  ⟨leavesNoTrace_of_willing, not_leavesNoTrace_of_refused⟩

def smallBatches : Config := { Config.default with pipeline.maxApplyBatchBytes := 4 }

/-- A proposal for a term that is over, on started clusters of three: one with room everywhere, and one
whose pipelines refuse the payload. -/
theorem outdated_proposal_leaves_no_trace :
    (∃ fresh, new 1 Config.default (votersOf [1, 2, 3]) = .ok fresh ∧
      FollowersAdmit [7] (start fresh).2 ∧
      (proposeWithOptions [7] ⟨some 9, true, false⟩ (start fresh).2).1.isOk = false ∧
      LeavesNoTrace [7] ⟨some 9, true, false⟩ (start fresh).2) ∧
    ∃ fresh, new 1 smallBatches (votersOf [1, 2, 3]) = .ok fresh ∧
      refusedEarly [1, 2, 3, 4, 5] ⟨some 9, true, false⟩ (start fresh).2 = true ∧
      LeavesNoTrace [1, 2, 3, 4, 5] ⟨some 9, true, false⟩ (start fresh).2 := by
  have started : ∀ s : RaftCluster, s.leaderId = some 1 → s.nodes.keys = [1, 2, 3] →
      s.activeLeaderTransfer.isSome = false →
      (∀ nodeId ∈ [2, 3], (s.peerPipelines[nodeId]?).any
        (fun pipeline => pipeline.admits 1) = true) → FollowersAdmit [7] s := by
    intro s leads ids idle admits nodeId node held follows
    have member : nodeId ∈ s.nodes.keys :=
      Std.TreeMap.mem_keys.mpr (Std.TreeMap.isSome_getElem?_iff_mem.mp (by rw [held]; rfl))
    have follower : nodeId ∈ [2, 3] := by
      rw [ids] at member
      rw [leads] at follows
      simpa [show nodeId ≠ 1 from fun same => follows (by rw [same])] using member
    constructor
    · intro pipeline found
      simpa [found] using admits nodeId follower
    · rw [idle]
      nofun
  have willing := fun s leads ids idle admits =>
    (failed_proposal_leaves_no_trace [7] ⟨some 9, true, false⟩ s).1
      (.inl (started s leads ids idle admits))
  have refused := fun s early =>
    (failed_proposal_leaves_no_trace [1, 2, 3, 4, 5] ⟨some 9, true, false⟩ s).1 (.inr early)
  exact ⟨⟨_, rfl, started _ (by decide +kernel) (by decide +kernel) (by decide +kernel)
    (by decide +kernel), by decide +kernel, willing _ (by decide +kernel) (by decide +kernel)
    (by decide +kernel) (by decide +kernel)⟩,
    ⟨_, rfl, by decide +kernel, refused _ (by decide +kernel)⟩⟩

/-- Five bytes proposed to a started cluster of three: the proposal fails, and its index
stays taken. -/
theorem failed_proposal_keeps_index : ∃ fresh, new 1 smallBatches (votersOf [1, 2, 3]) = .ok fresh ∧
      ¬ LeavesNoTrace [1, 2, 3, 4, 5] .default (start fresh).2 := by
  have started : ∀ s : RaftCluster, s.leaderId = some 1 → s.nodes.keys = [1, 2, 3] →
      (s.peerPipelines[2]?).any (fun pipeline => !pipeline.admits 5) = true →
      (s.proposingLeader [1, 2, 3, 4, 5] .default).isOk = true →
      s.shouldReleaseMemory = false → s.isBusy = false → s.lastLogIndex < u64Max →
      (∀ node ∈ s.members, node.matchIndex ≤ s.lastLogIndex) →
      ¬ LeavesNoTrace [1, 2, 3, 4, 5] .default s := by
    intro s leads ids refuses admitted unpressed spare numbered reached
    obtain ⟨pipeline, found, refuses⟩ := (Option.any_eq_true _ _).mp refuses
    have member : (2 : Nat) ∈ s.nodes := Std.TreeMap.mem_keys.mp (by rw [ids]; decide)
    obtain ⟨node, held⟩ := Option.isSome_iff_exists.mp
      (Std.TreeMap.isSome_getElem?_iff_mem.mpr member)
    refine not_leavesNoTrace_of_refused
      ⟨2, node, pipeline, held, by rw [leads]; decide, found, by simpa using refuses, ?_⟩
      ⟨?_, unpressed, spare, numbered, fun nodeId node held =>
        reached node (mem_members.mpr ⟨nodeId, held⟩)⟩
    · rw [ids, leads]
      decide
    rcases outcome : s.proposingLeader [1, 2, 3, 4, 5] .default with error | leading
    · rw [outcome] at admitted
      cases admitted
    · exact ⟨leading, rfl⟩
  exact ⟨_, rfl, started _ (by decide +kernel) (by decide +kernel) (by decide +kernel)
    (by decide +kernel) (by decide +kernel) (by decide +kernel) (by decide +kernel)
    (by decide +kernel)⟩

end RaftCluster
end MatrixRaft
