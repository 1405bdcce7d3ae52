/-
# Errors — what the engine answers when it refuses

`RaftError` as the cluster runtime declares it.  The source carries its refusals as strings
and in two places compares them; here each text is a constructor, with the values it is
formatted from.
-/
import MatrixRaft.Types

namespace MatrixRaft

/-- What stands against a membership operation. -/
inductive MembershipBlocker where
  | alreadyMember (nodeId : Nat)
  | notLearner (nodeId : Nat)
  | notMember (nodeId : Nat)
  | lastVoter | leaderWithoutTransfer
  | cannotBeLeader (nodeId : Nat)
  | lagging (nodeId : Nat)
  | notFound (nodeId : Nat)
  deriving DecidableEq

/-- The texts of `RaftError::InvalidRequest`. -/
inductive InvalidRequest where
  -- construction and lifecycle
  | requiresPeer
  | duplicateNode (nodeId : Nat)
  | requiresVoter | noHealthyVoter
  | clusterStopped (operation : String)
  -- membership change bookkeeping
  | membershipChangeIndexZero
  | savingMembershipChange (index : Nat)
  | pendingMembershipChange (index : Nat)
  | invalidStabledRange (first last : Nat)
  | stabledRangeIncomplete
  -- apply progress
  | applyPastDurable (appliedIndex heldBackAt needed durable : Nat)
  | inflightExceedsCommit (appliedIndex commitIndex : Nat)
  | inflightBelowSafety (appliedIndex safetyAppliedIndex : Nat)
  | appliedOutsideRange (appliedIndex safetyAppliedIndex nodeAppliedIndex : Nat)
  -- elections
  | campaignBeforeStart | electionProhibited | followerInLease
  | cannotBecomeLeader (nodeId : Nat)
  | cannotBecomeCandidate (nodeId : Nat)
  | notHealthy (nodeId : Nat)
  | termExhausted | logExhausted
  -- proposals and appends
  | expectedTermMismatch (expected current : Nat)
  | payloadTooLarge | outOfMemoryBuffer | appendGroupMismatch
  -- recovery
  | walGroupMismatch
  | walIndexExhausted (index : Nat)
  -- leader transfer and membership
  | noHealthyFollower
  | notLearner (nodeId : Nat)
  | behindCommitted (nodeId commitIndex : Nat)
  | membershipBlocked (blockers : List MembershipBlocker)
  | cannotBePromoted (nodeId : Nat) (reason : String)
  -- snapshots
  | snapshotGroupMismatch
  | snapshotBelowRejectedApply (snapshotIndex requiredIndex : Nat)
  | snapshotWhileApplyInflight (target safetyAppliedIndex appliedIndex : Nat)
  | snapshotWhileUnapplied (target appliedIndex commitIndex : Nat)
  | snapshotNotNewer (snapshotIndex committedIndex : Nat)
  | tailOverlapsSnapshot
  | snapshotOlderThanInstalled (snapshotIndex installedIndex : Nat)
  | snapshotInstallGroupMismatch
  | chunkBeforeStart (offset : Nat)
  | chunkMetadataChanged
  | chunkOffsetMismatch (offset nextOffset : Nat)
  | chunkPastDeclared (offset arriving declared : Nat)
  | snapshotIncomplete
  | snapshotLengthMismatch (received declared : Nat)
  | snapshotLifecycleGroupMismatch | noSnapshotTrigger
  | snapshotTriggerMismatch (expected got : SnapshotId)
  -- replication pipeline
  | appendExceedsBatch | appendQueueBackpressure | replicationMemoryBackpressure
  | appendRejectedByPipeline | applyInflightLimit | appendBelowNext | appendIndexExhausted
  | reorderDisabled | reorderWindowFull | snapshotTransferActive | snapshotSendInactive
  | snapshotTransferInactive | snapshotInstallInactive
  -- write-ahead log options
  | maxRecordsPerSegmentZero | maxSegmentBytesZero | minKeepSegmentsZero
  -- the snapshot lifecycle
  | snapshotChunkSizeZero | maxChunksPerTickZero | maxBytesPerTickZero | snapshotLifecycleActive
  | snapshotInstallCancelled
  deriving DecidableEq

/-- The texts of `RaftError::Storage`. -/
inductive StorageFault where
  | retainedOverlapsFloor | prevBelowFloor | floorTermMismatch | fenceMismatch
  -- the storage apply fence
  | appliedAheadOfCommitted | durableAheadOfApplied | flushBehindDurable | snapshotAheadOfApplied
  | retainedOverlapsSnapshot
  -- recovered records
  | logSkipsSnapshot (first continuesAt : Nat)
  | committedTermAhead | committedIndexAhead | fenceAheadOfCommitted | fenceCommitMismatch
  | fenceSnapshotMismatch
  -- the write-ahead log
  | frameTooLong
  | activeSegmentMoved (activeLen expected : Nat) (dir : String)
  | noActiveSegment
  | segmentUnreadable (cause : String)
  | recordMissing (field : String)
  | unknownReplicaRole (value : Int)
  | frameDigestFails (length trailing : Nat)
  | frameUndecodable (length : Nat) (cause : String) (trailing : Nat)
  deriving DecidableEq

/-- The texts of `RaftError::Transport`. -/
inductive TransportFault where
  | sendRetryBudgetExhausted | sendTimeoutBudgetExhausted
  -- framed messages
  | rpcMissing (what : String)
  | rpcSnapshotState (value : Int)
  | rpcTooLong | rpcNoMagic | rpcShort
  | rpcIncomplete (length carried : Nat)
  | rpcDigestFails
  | rpcUndecodable (cause : String)
  | rpcResponseUndecodable (cause : String)
  -- reading from a connection
  | rpcReadFailed (cause : String)
  | rpcFrameReadFailed (cause : String)
  | rpcMagicWithoutFrame
  deriving DecidableEq

/-- The error of every fallible call of the engine. -/
inductive RaftError where
  | config (error : ConfigError)
  | nodeNotFound (nodeId : Nat)
  | noLeader
  | notLeader (nodeId : Nat)
  | invalidRequest (reason : InvalidRequest)
  | transport (fault : TransportFault)
  | storage (fault : StorageFault)
  deriving DecidableEq

end MatrixRaft
