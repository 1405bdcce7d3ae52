/-
# Cluster — the state of one consensus group

`RaftCluster` of `facade/cluster_runtime.rs`: every replica of the group in one object, with
the leader's pipelines, the lease, the election accumulator and the caches around them, its
construction, the quorum counts and the aggregates recomputed from the replicas.
-/
import MatrixRaft.Node
import MatrixRaft.Pipeline

namespace MatrixRaft
open Std (TreeMap TreeSet)
open Theory

/-! ## Parts of the state -/

inductive LeaderTransferConclusion where
  | completed | aborted
  deriving DecidableEq

structure LeaderTransferState where
  (transfereeId elapsedTicks timeoutTicks abortedTransfers duplicateRequests : Nat)
  reason : String
  /-- `none` while the transfer is in flight. -/
  conclusion : Option LeaderTransferConclusion
  deriving DecidableEq

structure SnapshotTriggerState where
  snapshotMeta : SnapshotMetadata
  (elapsedTicks timeoutTicks : Nat)
  timedOut : Bool
  deriving DecidableEq

structure LeaderLeaseConfirmation where
  role : ReplicaRole
  (epoch confirmationEpoch durationMs elapsedMs : Nat)
  deriving DecidableEq

/-- An append cached because its previous entry has not arrived. -/
structure ReorderedAppend where
  request : AppendEntriesRequest
  membershipChangeIndexes : List Nat
  deriving DecidableEq

structure PendingSnapshotInstall where
  snapshot : RaftSnapshot
  fence : ApplySnapshotFence
  deriving DecidableEq

structure SnapshotInstallState where
  snapshotMeta : SnapshotMetadata
  bytes : Payload
  nextOffset : Nat
  complete : Bool
  deriving DecidableEq

structure RaftCluster where
  groupId : Nat
  config : Config
  nodes : TreeMap Nat Node
  peerPipelines : TreeMap Nat ReplicationPipeline
  snapshotInstallers : TreeMap Nat SnapshotInstallState
  pendingSnapshots : TreeMap Nat PendingSnapshotInstall
  leaderId : Option Nat
  (currentTerm commitIndex appliedIndex lastLogIndex lastIndexBeforeCurrentTerm : Nat)
  pendingMembershipChangeIndex : Option Nat
  membershipChangeIndexes : TreeSet Nat
  savingMembershipChangeIndex : Option Nat
  stabledMembershipChangeIndex : Nat
  (running leaderLeaseValid leaderLeaseExpired : Bool)
  leaderLeaseElapsedMs : Nat
  followerLeaseValid : Bool
  (followerLeaseElapsedMs followerLeaseDurationMs followerLeaseEpoch leaderLeaseEpoch : Nat)
  leaderLeaseConfirmations : TreeMap Nat LeaderLeaseConfirmation
  leaderLeaseConfirmationEpochs : TreeMap Nat Nat
  reorderQueues : TreeMap Nat (TreeMap Nat ReorderedAppend)
  (ignoreWitness countWitnessInCommitQuorum prohibitsElection : Bool)
  leaderTransfer : Option LeaderTransferState
  (leaderTransferTimeoutTicks abortedLeaderTransfers duplicateLeaderTransferRequests : Nat)
  snapshotTrigger : Option SnapshotTriggerState
  duplicateSnapshotTriggerRequests : Nat
  (voteResponses preVoteResponses : TreeMap Nat Bool)
  /-- The term the two accumulators above were filled in. -/
  electionResponsesTerm : Nat

abbrev ClusterM := Attempt RaftCluster RaftError

def quorumSize (voters witnesses : Nat) (ignoreWitness : Bool) : Nat :=
  if ignoreWitness then voters / 2 + 1 else (voters + witnesses) / 2 + 1

structure Membership where
  groupId : Nat
  (voters learners witnesses : List Nat)
  epoch : Nat
  deriving DecidableEq, Inhabited

namespace Membership

def quorumSizeWithWitnessPolicy (membership : Membership) (ignoreWitness : Bool) : Nat :=
  quorumSize membership.voters.length membership.witnesses.length ignoreWitness

def quorumReachedWithWitnessPolicy (membership : Membership)
    (acknowledgements : List Nat) (ignoreWitness : Bool) : Bool :=
  let counted := membership.voters ++ if ignoreWitness then [] else membership.witnesses
  (counted.filter fun nodeId => acknowledgements.contains nodeId).length ≥
    membership.quorumSizeWithWitnessPolicy ignoreWitness

end Membership

namespace RaftCluster

/-! ## Replicas and pipelines -/

variable (s : RaftCluster)

/-- The replicas in key order. -/
def members : List Node := s.nodes.toList.map Prod.snd

variable (nodeId : Nat)

def modifyNode (f : Node → Node) : RaftCluster :=
  { s with nodes := s.nodes.modify nodeId f }

/-- Change every replica. -/
def mapNodes (f : Node → Node) : RaftCluster :=
  { s with nodes := s.nodes.map fun _ node => f node }

def modifyPipeline (f : ReplicationPipeline → ReplicationPipeline) : RaftCluster :=
  { s with peerPipelines := s.peerPipelines.modify nodeId f }

def requireNode : Except RaftError Node :=
  match s.nodes[nodeId]? with
  | some node => .ok node
  | none => .error (.nodeNotFound nodeId)

def requireRunning (operation : String) : Except RaftError Unit :=
  if s.running then .ok () else .error (.invalidRequest (.clusterStopped operation))

def leader? : Option Node := s.leaderId.bind fun leaderId => s.nodes[leaderId]?

def membership : Membership where
  groupId := s.groupId
  voters := (s.members.filter fun node => node.replicaRole == .voter).map Node.id
  learners := (s.members.filter fun node => node.replicaRole == .learner).map Node.id
  witnesses := (s.members.filter fun node => node.replicaRole == .witness).map Node.id
  epoch := s.currentTerm

def snapshotMembers : List Peer :=
  s.members.map fun node => ⟨node.id, "", "", node.replicaRole, node.autoPromote⟩

def roleCount (role : ReplicaRole) : Nat :=
  s.members.countP fun node => node.replicaRole == role

/-! ## Construction -/

def resolveLeaderTransferTimeoutTicks (config : Config) : Nat :=
  if config.leaderTransferTimeoutTicks > 0 then config.leaderTransferTimeoutTicks
  else max (config.electionTimeoutMs / max config.heartbeatIntervalMs 1) 1

def insertPeers : List Peer → TreeMap Nat Node → Except RaftError (TreeMap Nat Node)
  | [], nodes => .ok nodes
  | peer :: rest, nodes =>
    if nodes.contains peer.nodeId then
      .error (.invalidRequest (.duplicateNode peer.nodeId))
    else
      insertPeers rest (nodes.insert peer.nodeId (Node.new peer.nodeId peer.role peer.autoPromote))

def initialFollowerLeaseMs (config : Config) : Nat :=
  if config.enableLeaseRead && config.assumeLeaseWhenStart then
    if config.lastFollowerLeaseMs = 0 then config.leaderLeaseMs else config.lastFollowerLeaseMs
  else 0

/-- The cluster `new` builds once its replicas are settled. -/
def initial (groupId : Nat) (config : Config) (nodes : TreeMap Nat Node) : RaftCluster where
  groupId := groupId
  config := config
  nodes := nodes
  peerPipelines :=
    nodes.map fun nodeId _ => ReplicationPipeline.new nodeId 1 config.pipelineLimits
  snapshotInstallers := ∅
  pendingSnapshots := ∅
  leaderId := none
  currentTerm := 0
  commitIndex := 0
  appliedIndex := 0
  lastLogIndex := 0
  lastIndexBeforeCurrentTerm := 0
  pendingMembershipChangeIndex := none
  membershipChangeIndexes := ∅
  savingMembershipChangeIndex := none
  stabledMembershipChangeIndex := 0
  running := false
  leaderLeaseValid := false
  leaderLeaseExpired := false
  leaderLeaseElapsedMs := 0
  followerLeaseValid := initialFollowerLeaseMs config > 0
  followerLeaseElapsedMs := 0
  followerLeaseDurationMs := initialFollowerLeaseMs config
  followerLeaseEpoch := 0
  leaderLeaseEpoch := 0
  leaderLeaseConfirmations := ∅
  leaderLeaseConfirmationEpochs := ∅
  reorderQueues := ∅
  ignoreWitness := false
  countWitnessInCommitQuorum := false
  prohibitsElection := false
  leaderTransfer := none
  leaderTransferTimeoutTicks := resolveLeaderTransferTimeoutTicks config
  abortedLeaderTransfers := 0
  duplicateLeaderTransferRequests := 0
  snapshotTrigger := none
  duplicateSnapshotTriggerRequests := 0
  voteResponses := ∅
  preVoteResponses := ∅
  electionResponsesTerm := 0

def new (groupId : Nat) (config : Config) (peers : List Peer) : Except RaftError RaftCluster :=
  match config.validate with
  | .error error => .error (.config error)
  | .ok () =>
    if peers.isEmpty then .error (.invalidRequest .requiresPeer)
    else match insertPeers peers ∅ with
      | .error error => .error error
      | .ok nodes =>
        if nodes.toList.any fun entry => entry.2.replicaRole.canBeLeader then
          .ok (initial groupId config nodes)
        else .error (.invalidRequest .requiresVoter)

/-! ## Quorums -/

def countsTowardCommitQuorum (node : Node) : Bool :=
  node.replicaRole.participatesInQuorum && !(s.ignoreWitness && node.replicaRole == .witness)
    && (node.replicaRole != .witness || s.countWitnessInCommitQuorum)

def commitQuorumSize : Nat :=
  (s.members.countP fun node =>
    node.replicaRole == .voter
      || (!s.ignoreWitness && s.countWitnessInCommitQuorum && node.replicaRole == .witness)) / 2
    + 1

def inlineQuorumCandidates : Nat := 16

def betterQuorumIndex (matches_ : List Nat) (quorum : Nat) (best : Option Nat)
    (candidate : Nat) : Option Nat :=
  if best.any fun current => current ≥ candidate then best
  else if (matches_.countP fun other => decide (other ≥ candidate)) ≥ quorum then some candidate
  else best

def commitQuorumMatchIndexByCounting (matches_ : List Nat) (quorum : Nat) : Option Nat :=
  let best := matches_.foldl (betterQuorumIndex matches_ quorum) none
  if matches_.length < quorum then none else best

def commitQuorumMatchIndex : Option Nat :=
  let matches_ := (s.members.filter s.countsTowardCommitQuorum).map Node.matchIndex
  if matches_.length > inlineQuorumCandidates then
    commitQuorumMatchIndexByCounting matches_ s.commitQuorumSize
  else if matches_.length < s.commitQuorumSize then none
  else (matches_.insertionSort (· ≤ ·))[matches_.length - s.commitQuorumSize]?

def hasLiveQuorum : Bool :=
  (s.members.countP fun node =>
    node.healthy && node.replicaRole.participatesInQuorum
      && !(s.ignoreWitness && node.replicaRole == .witness))
    ≥ quorumSize (s.roleCount .voter) (s.roleCount .witness) s.ignoreWitness

/-! ## Aggregates -/

def maximumIndex (indexes : List Nat) : Nat := indexes.foldl max 0

def minimumIndex : List Nat → Nat
  | [] => 0
  | first :: rest => rest.foldl min first

def refreshClusterIndexes : RaftCluster :=
  { s with
    commitIndex := maximumIndex (s.members.map Node.commitIndex)
    appliedIndex := minimumIndex
      ((s.members.filter fun node => node.replicaRole.canServeData).map Node.safetyAppliedIndex)
    lastLogIndex := maximumIndex (s.members.map Node.matchIndex) }

def advanceHealthy : RaftCluster :=
  s.mapNodes fun node => if node.healthy then node.advanceCommit s.commitIndex else node

def refreshCommitIndex : RaftCluster :=
  match s.commitQuorumMatchIndex, s.leader? with
  | some commitIndex, some leader =>
    -- only an entry of the current term is committed by counting
    if leader.logTermAt commitIndex ≠ some s.currentTerm then s
    else
      (advanceHealthy { s with commitIndex := max s.commitIndex commitIndex }).refreshClusterIndexes
  | _, _ => s

/-! ## Pipelines at a leader change -/

def resetPipelineFor (leaderId nodeId : Nat) : ReplicationPipeline :=
  let nextIndex := satAdd s.lastLogIndex 1
  let pipeline := (s.peerPipelines[nodeId]?).getD
    (ReplicationPipeline.new nodeId nextIndex s.config.pipelineLimits)
  if nodeId = leaderId then
    pipeline.resetForLeaderTransition s.lastLogIndex nextIndex .replicate
  else pipeline.resetForLeaderTransition 0 nextIndex .probe

def resetReplicationPipelinesForLeader (leaderId : Nat) : RaftCluster :=
  { s with
    peerPipelines := s.nodes.keys.foldl
      (fun pipelines nodeId => pipelines.insert nodeId (s.resetPipelineFor leaderId nodeId))
      s.peerPipelines }

/-- The answer a leader records for itself. -/
def selfAcknowledgement (term matchIndex : Nat) : AppendEntriesResponse where
  term := term
  success := true
  matchIndex := matchIndex
  rejectionHint := none
  rejectedIndex := none
  requireSnapshot := none
  snapshotState := .none
  leaseConfirmationEpoch := 0
  leaseDurationMs := 0

def refreshReplicationPipelines : RaftCluster :=
  let pipelines := s.nodes.toList.foldl
    (fun pipelines entry => pipelines.insertIfNew entry.1
      (ReplicationPipeline.new entry.1 (satAdd entry.2.matchIndex 1) s.config.pipelineLimits))
    s.peerPipelines
  match s.leaderId with
  | none => { s with peerPipelines := pipelines }
  | some leaderId =>
    { s with
      peerPipelines := pipelines.modify leaderId fun pipeline =>
        (ReplicationPipeline.handleAppendResponse
          (selfAcknowledgement s.currentTerm s.lastLogIndex) pipeline).2 }

/-! ## Election answers and cached appends -/

def clearElectionResponses : RaftCluster :=
  { s with voteResponses := ∅, preVoteResponses := ∅, electionResponsesTerm := s.currentTerm }

def discardElectionResponsesFromAnEarlierTerm : RaftCluster :=
  if s.electionResponsesTerm = s.currentTerm then s else s.clearElectionResponses

def removeElectionResponseFrom : RaftCluster :=
  { s with
    voteResponses := s.voteResponses.erase nodeId
    preVoteResponses := s.preVoteResponses.erase nodeId }

def clearReorderQueues : RaftCluster := { s with reorderQueues := ∅ }

def clearReorderQueueFor : RaftCluster :=
  { s with reorderQueues := s.reorderQueues.erase nodeId }

def nextLogIndex : Except RaftError Nat :=
  match checkedAdd s.lastLogIndex 1 with
  | some index => .ok index
  | none => .error (.invalidRequest .logExhausted)

/-! ## The cluster `new` builds -/

variable {groupId : Nat} {config : Config} {peers : List Peer} {fresh : RaftCluster}

theorem insertPeers_each {P : Nat → Node → Prop}
    (each : ∀ peer : Peer, P peer.nodeId (Node.new peer.nodeId peer.role peer.autoPromote)) :
    ∀ (peers : List Peer) (nodes nodes' : Std.TreeMap Nat Node),
      insertPeers peers nodes = .ok nodes' →
      (∀ (nodeId : Nat) (node : Node), nodes[nodeId]? = some node → P nodeId node) →
      ∀ (nodeId : Nat) (node : Node), nodes'[nodeId]? = some node → P nodeId node
  | [], nodes, nodes', inserted, before => by
    cases inserted
    exact before
  | peer :: rest, nodes, nodes', inserted, before => by
    unfold insertPeers at inserted
    split at inserted
    · cases inserted
    · refine insertPeers_each each rest _ nodes' inserted fun nodeId node held => ?_
      grind

section
variable (created : new groupId config peers = .ok fresh)
include created

theorem new_eq : ∃ nodes, insertPeers peers ∅ = .ok nodes ∧ fresh = initial groupId config nodes ∧
      (nodes.toList.any fun entry => entry.2.replicaRole.canBeLeader) = true := by
  unfold new at created
  grind

theorem new_members {P : Nat → Node → Prop}
    (each : ∀ peer : Peer, P peer.nodeId (Node.new peer.nodeId peer.role peer.autoPromote)) :
    ∀ (nodeId : Nat) (node : Node), fresh.nodes[nodeId]? = some node → P nodeId node := by
  obtain ⟨nodes, inserted, rfl, -⟩ := new_eq created
  exact insertPeers_each each peers ∅ nodes inserted (by simp)

theorem new_nodes_eq {config' : Config} {fresh' : RaftCluster}
    (created' : new groupId config' peers = .ok fresh') : fresh'.nodes = fresh.nodes := by
  obtain ⟨nodes, inserted, rfl, -⟩ := new_eq created
  obtain ⟨nodes', inserted', rfl, -⟩ := new_eq created'
  exact (Except.ok.inj (inserted.symm.trans inserted')).symm

end

def votersOf (nodeIds : List Nat) : List Peer :=
  nodeIds.map fun nodeId => ⟨nodeId, "", "", .voter, false⟩

end RaftCluster
end MatrixRaft
