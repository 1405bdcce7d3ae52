/-
# Messages — requests, answers and the reasons they carry

The RPC records of `facade/api_messages.rs` and `facade/snapshot_runtime.rs` that
the cluster runtime reads and builds.
-/
import MatrixRaft.Errors

namespace MatrixRaft

/-! ## Append entries -/

/-- Entries, or a bare heartbeat, from a leader. -/
structure AppendEntriesRequest where
  (groupId term leaderId : Nat)
  prevLogId : Option LogId
  entries : List LogEntry
  (leaderCommit leaseEpoch : Nat)
  deriving DecidableEq, Inhabited

structure AppendEntriesResponse where
  term : Nat
  success : Bool
  matchIndex : Nat
  (rejectionHint rejectedIndex requireSnapshot : Option Nat)
  snapshotState : SnapshotState
  (leaseConfirmationEpoch leaseDurationMs : Nat)
  deriving DecidableEq, Inhabited

/-! ## Votes -/

structure VoteRequest where
  (groupId term candidateId : Nat)
  lastLogId : Option LogId
  (preVote force : Bool)
  deriving DecidableEq, Inhabited

inductive VoteReason where
  | electionProhibited | preVoteDisabled | candidateCannotBeLeader | candidateUnhealthy
  | candidateNotMember | candidateLogStale | termExhausted | preVoteGranted | groupIdMismatch
  | targetCannotVote | inLease | stalePreVoteTerm | knownLeader | staleTerm | alreadyVoted
  | voteGranted
  deriving DecidableEq, Inhabited

structure VoteResponse where
  term : Nat
  voteGranted : Bool
  reason : VoteReason
  deriving DecidableEq, Inhabited

inductive TimeoutNowReason where
  | ignored (role : ReplicaRole)
  | campaign
  deriving DecidableEq, Inhabited

structure TimeoutNowResponse where
  (nodeId «from» : Nat)
  campaigned : Bool
  term : Nat
  leaderId : Option Nat
  reason : TimeoutNowReason
  deriving DecidableEq, Inhabited

/-! ## Snapshots -/

structure InstallSnapshotRequest where
  (groupId term leaderId : Nat)
  chunk : SnapshotChunk
  deriving DecidableEq, Inhabited

inductive InstallReason where
  | staleSnapshotIgnored | ignoredWhileReceiving | chunkAccepted | pendingApply | installed
  | staleTerm | leaderUnavailable | leaderNotMember
  -- the downloader's own answers
  | downloaded | downloadChunkAccepted | downloadQuotaExhausted
  | refused (error : RaftError)
  deriving DecidableEq, Inhabited

structure InstallSnapshotResponse where
  term : Nat
  accepted : Bool
  (nextOffset committedIndex : Nat)
  reason : InstallReason
  throttled : Bool
  deriving DecidableEq, Inhabited

structure ApplySnapshotFence where
  (appliedIndex commitIndex installedSnapshotIndex firstRetainedLogIndex : Nat)
  deriving DecidableEq, Inhabited

structure StorageApplyFence where
  (groupId nodeId committedIndex appliedIndex durableAppliedIndex storageFlushedIndex : Nat)
  (installedSnapshotIndex firstRetainedLogIndex : Nat)
  deriving DecidableEq, Inhabited

/-! ## Proposals and reads -/

structure ProposeOptions where
  expectedTerm : Option Nat
  (isCommand isMembershipChange : Bool)
  deriving DecidableEq, Inhabited

def ProposeOptions.default : ProposeOptions where
  expectedTerm := none
  isCommand := true
  isMembershipChange := false

structure ReadIndexRequest where
  (groupId requesterId minCommitIndex : Nat)
  allowLeaseRead : Bool
  deriving DecidableEq, Inhabited

end MatrixRaft
