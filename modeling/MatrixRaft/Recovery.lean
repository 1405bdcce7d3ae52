/-
# Recovery — what a replica writes down and comes back from

`WalRecord` describes one replica: its hard state, the membership, its log or the tail the
write-ahead log does not hold yet, its snapshot and its apply fence; `restore_wal_record`
rebuilds the replica.  The checksum is a function of the other fields and is not carried.
-/
import MatrixRaft.Snapshots

namespace MatrixRaft

structure WalRecord where
  (groupId nodeId : Nat)
  hardState : HardState
  membership : Membership
  entries : List LogEntry
  /-- `entries` continues the previous record of the segment. -/
  entriesAreDelta : Bool
  installedSnapshot : Option SnapshotMetadata
  applySnapshotFence : ApplySnapshotFence
  deriving DecidableEq, Inhabited

variable (record : WalRecord)

def validateLogContinuesSnapshot : Except RaftError Unit :=
  match record.installedSnapshot with
  | none => .ok ()
  | some snapshot =>
    if record.entriesAreDelta then .ok ()
    else match record.entries.head? with
      | none => .ok ()
      | some first =>
        let continuesAt := satAdd snapshot.lastLogId.index 1
        if first.index > continuesAt then
          .error (.storage (.logSkipsSnapshot first.index continuesAt))
        else .ok ()

/-- What a write-ahead log's active segment describes of a replica's log. -/
structure WalCoverage where
  (firstIndex lastIndex lastTerm : Nat)
  deriving DecidableEq

/-- The slot past what `coverage` describes, when the log still extends it. -/
def Node.extendsCoverage (node : Node) (coverage : WalCoverage) : Option Nat :=
  match node.log.head?, node.logPosition coverage.lastIndex with
  | some first, some position =>
    if first.index > coverage.firstIndex then none
    else if (node.log[position]?).map LogEntry.term = some coverage.lastTerm then
      some (position + 1)
    else none
  | _, _ => none

namespace RaftCluster
open Theory

/-! ## Records -/

def walRecordShell (s : RaftCluster) (nodeId : Nat) (node : Node) : WalRecord where
  groupId := s.groupId
  nodeId := nodeId
  hardState := node.hardState
  membership := s.membership
  entries := []
  entriesAreDelta := false
  installedSnapshot := node.installedSnapshot
  applySnapshotFence :=
    { appliedIndex := node.appliedIndex
      commitIndex := node.commitIndex
      installedSnapshotIndex := node.snapshotIndex
      firstRetainedLogIndex :=
        if node.snapshotIndex > 0 then satAdd node.snapshotIndex 1
        else (node.log.head?.map LogEntry.index).getD 0 }

def walRecordFor (s : RaftCluster) (nodeId : Nat) : Except RaftError WalRecord :=
  match s.nodes[nodeId]? with
  | none => .error (.nodeNotFound nodeId)
  | some node => .ok { s.walRecordShell nodeId node with entries := node.log }

def walRecordForCoverage (s : RaftCluster) (nodeId : Nat) (coverage : Option WalCoverage) :
    Except RaftError WalRecord :=
  match s.nodes[nodeId]? with
  | none => .error (.nodeNotFound nodeId)
  | some node =>
    match coverage.bind node.extendsCoverage with
    | some start =>
      .ok { s.walRecordShell nodeId node with
        entries := node.log.drop start, entriesAreDelta := true }
    | none => .ok { s.walRecordShell nodeId node with entries := node.log }

/-! ## Restoring -/

def exhaustedIndex : Option Nat :=
  ((record.entries.getLast?.map LogEntry.index).toList
    ++ (record.installedSnapshot.map fun snapshot => snapshot.lastLogId.index).toList).find?
      (· == u64Max)

def restoreNode (node : Node) : Node :=
  let fence := record.applySnapshotFence
  let restored := { node.setLog record.entries with
    hardState := record.hardState
    installedSnapshot := record.installedSnapshot
    commitIndex := fence.commitIndex
    appliedIndex := fence.appliedIndex
    safetyAppliedIndex := fence.appliedIndex }
  if node.replicaRole = .witness then
    let committed := (record.hardState.committed.map LogId.index).getD 0
    restored.acknowledgeWitnessIndex
      (max (max (max committed fence.commitIndex) restored.snapshotIndex) restored.lastLogIndex)
  else restored

def restoreWalRecord : ClusterM Unit := fun s =>
  if record.groupId ≠ s.groupId then (.error (.invalidRequest .walGroupMismatch), s)
  else match validateLogContinuesSnapshot record with
    | .error error => (.error error, s)
    | .ok () =>
      match exhaustedIndex record with
      | some index => (.error (.invalidRequest (.walIndexExhausted index)), s)
      | none =>
        let joined := s.restoreMembershipFromRecord record.nodeId record.membership
        match joined.nodes[record.nodeId]? with
        | none => (.error (.nodeNotFound record.nodeId), joined)
        | some node =>
          let restored := restoreNode record node
          let stored := joined.modifyNode record.nodeId fun _ => restored
          let lastLogIndex := max joined.lastLogIndex restored.matchIndex
          let termed := { stored with
            lastLogIndex := lastLogIndex
            currentTerm := max joined.currentTerm restored.hardState.currentTerm
            lastIndexBeforeCurrentTerm := lastLogIndex }
          (.ok (), termed.refreshClusterIndexes.refreshReplicationPipelines)

/-- Take a replica out of service: it steps down if it leads, and counts as unhealthy. -/
def applyFatalEvent (nodeId : Nat) : ClusterM (Option Nat) := fun s =>
  let stepped : Except RaftError (Option Nat) × RaftCluster :=
    if s.leaderId = some nodeId then stepDown none s else (.ok none, s)
  match setNodeHealthy nodeId false stepped.2 with
  | (.error error, marked) => (.error error, marked)
  | (.ok (), marked) => (stepped.1, marked)

end RaftCluster
end MatrixRaft
