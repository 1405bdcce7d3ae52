/-
# Types — the words every part of the engine shares

Identifiers, log entries, roles, peers, snapshots and the configuration, as
`facade/membership_core.rs`, `facade/snapshot_runtime.rs` and `config.rs` declare
them, with the errors and reasons the engine answers with.
-/
import Mathlib.Tactic

namespace MatrixRaft

/-! ## Machine integers -/

def u64Max : Nat := 18446744073709551615

def satAdd (a b : Nat) : Nat := min (a + b) u64Max

def checkedAdd (a b : Nat) : Option Nat := if a + b ≤ u64Max then some (a + b) else none

theorem satAdd_le (a b : Nat) : satAdd a b ≤ a + b := min_le_left _ _

theorem satAdd_of_lt {a : Nat} (below : a < u64Max) : satAdd a 1 = a + 1 := by
  unfold satAdd
  omega

/-! ## Identifiers and log entries -/

abbrev SnapshotId := String
abbrev Payload := List UInt8

structure LogId where
  (term index : Nat)
  deriving DecidableEq, Inhabited

structure LogEntry where
  logId : LogId
  payload : Payload
  isCommand : Bool
  deriving DecidableEq, Inhabited

abbrev LogEntry.index (entry : LogEntry) : Nat := entry.logId.index

abbrev LogEntry.term (entry : LogEntry) : Nat := entry.logId.term

structure HardState where
  currentTerm : Nat
  votedFor : Option Nat
  committed : Option LogId
  deriving DecidableEq, Inhabited

/-! ## Roles and peers -/

inductive StateRole where
  | leader | follower | candidate | preCandidate | learner
  deriving DecidableEq, Inhabited

inductive ReplicaRole where
  | voter | learner | witness
  deriving DecidableEq, Inhabited

namespace ReplicaRole

def participatesInQuorum : ReplicaRole → Bool
  | voter | witness => true
  | learner => false

def canServeData : ReplicaRole → Bool
  | voter | learner => true
  | witness => false

def canBeLeader : ReplicaRole → Bool
  | voter => true
  | learner | witness => false

end ReplicaRole

structure Peer where
  nodeId : Nat
  (raftAddr snapshotAddr : String)
  role : ReplicaRole
  autoPromote : Bool
  deriving DecidableEq, Inhabited

/-! ## Snapshots -/

structure SnapshotMetadata where
  snapshotId : SnapshotId
  lastLogId : LogId
  membership : List Nat
  members : List Peer
  /-- Bytes the sender counted; zero means not declared. -/
  payloadBytes : Nat
  deriving DecidableEq, Inhabited

structure SnapshotChunk where
  snapshotMeta : SnapshotMetadata
  offset : Nat
  data : Payload
  done : Bool
  deriving DecidableEq, Inhabited

structure RaftSnapshot where
  groupId : Nat
  snapshotMeta : SnapshotMetadata
  payload : Payload
  deriving DecidableEq, Inhabited

/-- Progress a peer reports for a snapshot it is being sent. -/
inductive SnapshotState where
  | none | creating | receiving | received | notReady
  deriving DecidableEq, Inhabited

/-! ## Configuration -/

structure PipelineLimits where
  (maxInflightsReplicate maxMemoryReplicateLogBytes maxInflightsApplyTask maxApplyBatchBytes : Nat)
  enableReorderQueue : Bool
  (reorderWindowSize reorderTimeoutUs : Nat)
  deriving DecidableEq, Inhabited

def PipelineLimits.productionDefault : PipelineLimits where
  maxInflightsReplicate := 256
  maxMemoryReplicateLogBytes := 64 * 1024 * 1024
  maxInflightsApplyTask := 1024
  maxApplyBatchBytes := 8 * 1024 * 1024
  enableReorderQueue := true
  reorderWindowSize := 1024
  reorderTimeoutUs := 5000000

structure Config where
  (electionTimeoutMs heartbeatIntervalMs leaderLeaseMs lastFollowerLeaseMs maxPayloadBytes : Nat)
  (maxLogBufferBytes snapshotThresholdEntries maxSegmentBytes minKeepSegmentNum : Nat)
  (enablePreVote enableLeaseRead assumeLeaseWhenStart canTriggerSnapshot : Bool)
  (leaderTransferTimeoutTicks peerOfflineTimeoutTicks snapshotTriggerTimeoutTicks : Nat)
  pipeline : PipelineLimits
  deriving DecidableEq, Inhabited

inductive ConfigError where
  | zeroElectionTimeout | zeroHeartbeatInterval | zeroLeaderLease
  | heartbeatNotLessThanElection (heartbeatIntervalMs electionTimeoutMs : Nat)
  | leaseNotLessThanElection (leaderLeaseMs electionTimeoutMs : Nat)
  | zeroMaxPayloadBytes | zeroMaxLogBufferBytes | zeroSnapshotThreshold | zeroMaxSegmentBytes
  deriving DecidableEq

namespace Config

def default : Config where
  electionTimeoutMs := 1000
  heartbeatIntervalMs := 100
  leaderLeaseMs := 500
  lastFollowerLeaseMs := 0
  maxPayloadBytes := 8 * 1024 * 1024
  maxLogBufferBytes := 64 * 1024 * 1024
  snapshotThresholdEntries := 10000
  maxSegmentBytes := 64 * 1024 * 1024
  minKeepSegmentNum := 2
  enablePreVote := true
  enableLeaseRead := true
  assumeLeaseWhenStart := true
  canTriggerSnapshot := true
  leaderTransferTimeoutTicks := 0
  peerOfflineTimeoutTicks := 0
  snapshotTriggerTimeoutTicks := 0
  pipeline := PipelineLimits.productionDefault

/-- A capacity of zero becomes one; a reorder timeout of zero stays off. -/
def pipelineLimits (config : Config) : PipelineLimits where
  maxInflightsReplicate := max config.pipeline.maxInflightsReplicate 1
  maxMemoryReplicateLogBytes := max config.pipeline.maxMemoryReplicateLogBytes 1
  maxInflightsApplyTask := max config.pipeline.maxInflightsApplyTask 1
  maxApplyBatchBytes := max config.pipeline.maxApplyBatchBytes 1
  enableReorderQueue := config.pipeline.enableReorderQueue
  reorderWindowSize := max config.pipeline.reorderWindowSize 1
  reorderTimeoutUs := config.pipeline.reorderTimeoutUs

def validate (config : Config) : Except ConfigError Unit :=
  if config.electionTimeoutMs = 0 then .error .zeroElectionTimeout
  else if config.heartbeatIntervalMs = 0 then .error .zeroHeartbeatInterval
  else if config.leaderLeaseMs = 0 then .error .zeroLeaderLease
  else if config.heartbeatIntervalMs ≥ config.electionTimeoutMs then
    .error (.heartbeatNotLessThanElection config.heartbeatIntervalMs config.electionTimeoutMs)
  else if config.leaderLeaseMs ≥ config.electionTimeoutMs then
    .error (.leaseNotLessThanElection config.leaderLeaseMs config.electionTimeoutMs)
  else if config.maxPayloadBytes = 0 then .error .zeroMaxPayloadBytes
  else if config.maxLogBufferBytes = 0 then .error .zeroMaxLogBufferBytes
  else if config.snapshotThresholdEntries = 0 then .error .zeroSnapshotThreshold
  else if config.maxSegmentBytes = 0 then .error .zeroMaxSegmentBytes
  else .ok ()

example : Config.default.validate = .ok () := rfl

end Config
end MatrixRaft
