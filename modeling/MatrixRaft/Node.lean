/-
# Node — one replica of the group

`struct Node` of `facade/cluster_runtime.rs` and its own operations: where an entry
sits in the retained log, appending and truncating, following the commit point,
installing a snapshot and compacting.
-/
import MatrixRaft.Messages
import MatrixRaft.Theory.Search

namespace MatrixRaft
open Theory

inductive LearnerAutoPromoteState where
  | stop | check | promoting | promoted
  deriving DecidableEq, Inhabited

/-- One replica. -/
structure Node where
  id : Nat
  replicaRole : ReplicaRole
  raftRole : StateRole
  hardState : HardState
  log : List LogEntry
  /-- Running total of `log` payload bytes. -/
  retainedLogBytes : Nat
  installedSnapshot : Option SnapshotMetadata
  (commitIndex appliedIndex safetyAppliedIndex : Nat)
  rejectedApplyIndex : Option Nat
  witnessAckIndex : Nat
  healthy : Bool
  livenessElapsedMs : Nat
  autoPromote : Bool
  autoPromoteState : LearnerAutoPromoteState
  deriving DecidableEq, Inhabited

/-- Payload bytes of a run of entries. -/
def payloadBytes (entries : List LogEntry) : Nat :=
  (entries.map fun entry => entry.payload.length).sum

namespace Node

def new (id : Nat) (replicaRole : ReplicaRole) (autoPromote : Bool) : Node where
  id := id
  replicaRole := replicaRole
  raftRole := if replicaRole = .learner then .learner else .follower
  hardState := ⟨0, none, none⟩
  log := []
  retainedLogBytes := 0
  installedSnapshot := none
  commitIndex := 0
  appliedIndex := 0
  safetyAppliedIndex := 0
  rejectedApplyIndex := none
  witnessAckIndex := 0
  healthy := true
  livenessElapsedMs := 0
  autoPromote := replicaRole = .learner && autoPromote
  autoPromoteState := .stop

/-! ## Reading the log -/

variable (node : Node)

def lastLogIndex : Nat := (node.log.getLast?.map LogEntry.index).getD 0

def snapshotIndex : Nat :=
  (node.installedSnapshot.map fun snapshot => snapshot.lastLogId.index).getD 0

def matchIndex : Nat :=
  if node.replicaRole = .witness then node.witnessAckIndex
  else max node.lastLogIndex node.snapshotIndex

variable (logIndex : Nat)

def logPosition : Option Nat :=
  match node.log.head? with
  | none => none
  | some first =>
    if logIndex < first.index then none
    else
      let offset := logIndex - first.index
      if (node.log[offset]?).map LogEntry.index = some logIndex then some offset
      else match Search.binarySearchBy (fun entry => compare entry.index logIndex) node.log with
        | .ok position => some position
        | .error _ => none

def logPositionAtOrAfter : Option Nat :=
  if node.log.getLast?.all fun last => last.index < logIndex then none
  else some (Search.partitionPoint (fun entry => decide (entry.index < logIndex)) node.log)

def logTermAt : Option Nat :=
  if logIndex = 0 then some 0
  else
    match node.installedSnapshot with
    | some snapshot =>
      if snapshot.lastLogId.index = logIndex then some snapshot.lastLogId.term
      else (node.logPosition logIndex).bind fun position =>
        (node.log[position]?).map LogEntry.term
    | none =>
      (node.logPosition logIndex).bind fun position =>
        (node.log[position]?).map LogEntry.term

def isFreshCandidateLog (candidateLastLogId : Option LogId) : Bool :=
  let candidate := candidateLastLogId.getD ⟨0, 0⟩
  let localTerm := (node.logTermAt node.matchIndex).getD 0
  candidate.term > localTerm
    || (candidate.term == localTerm && candidate.index ≥ node.matchIndex)

/-! ## Changing the log -/

def truncateLogAt (position : Nat) : Node :=
  { node with
    retainedLogBytes := node.retainedLogBytes - payloadBytes (node.log.drop position)
    log := node.log.take position }

def discardLogThrough : Nat × Node :=
  let cut := Search.partitionPoint (fun entry => decide (entry.index ≤ logIndex)) node.log
  if cut = 0 then (0, node)
  else
    (cut, { node with
      retainedLogBytes := node.retainedLogBytes - payloadBytes (node.log.take cut)
      log := node.log.drop cut })

def setLog (log : List LogEntry) : Node :=
  { node with retainedLogBytes := payloadBytes log, log := log }

variable (entry : LogEntry)

def extendsTail : Bool :=
  node.log.getLast?.all fun last => last.index < entry.index

def pushEntry : Node :=
  { node with
    retainedLogBytes := satAdd node.retainedLogBytes entry.payload.length
    log := node.log ++ [entry] }

/-- Stores an entry past the end, or over one in conflict. -/
def appendEntry : Node :=
  if node.extendsTail entry then node.pushEntry entry
  else match node.logPosition entry.index with
    | none => node.pushEntry entry
    | some position =>
      -- an entry already present with the same term is that entry
      if (node.log[position]?).map LogEntry.term = some entry.term then node
      -- a committed slot is never overwritten
      else if entry.index ≤ node.commitIndex then node
      else (node.truncateLogAt position).pushEntry entry

def truncateLogFrom : Node :=
  if logIndex ≤ node.commitIndex then node
  else match node.logPositionAtOrAfter logIndex with
    | some position => node.truncateLogAt position
    | none => node

def conflictScan (node : Node) (conflictTerm : Nat) : Nat → Nat
  | 0 => satAdd node.commitIndex 1
  | index + 1 =>
    if index + 1 > node.commitIndex then
      if node.logTermAt (index + 1) ≠ some conflictTerm then satAdd (index + 1) 1
      else conflictScan node conflictTerm index
    else satAdd node.commitIndex 1

def conflictNextIndex (prevIndex : Nat) : Nat :=
  if prevIndex > node.matchIndex then satAdd node.matchIndex 1
  else match node.logTermAt prevIndex with
    | none => satAdd node.matchIndex 1
    | some conflictTerm => node.conflictScan conflictTerm prevIndex

def acknowledgeWitnessIndex : Node :=
  if node.replicaRole = .witness then
    { node with witnessAckIndex := max node.witnessAckIndex logIndex }
  else node

def witnessEntry (preservePayload : Bool) : LogEntry where
  logId := entry.logId
  payload := if preservePayload then entry.payload else []
  isCommand := false

def appendWitnessEntry (preservePayload : Bool) : Node :=
  (node.acknowledgeWitnessIndex entry.index).appendEntry (witnessEntry entry preservePayload)

/-! ## Commit point, snapshot, compaction -/

def followCommit : Node :=
  if (node.replicaRole.canServeData || node.replicaRole == .witness)
      && node.rejectedApplyIndex.isNone then
    let applied := max node.appliedIndex node.commitIndex
    { node with
      appliedIndex := applied
      safetyAppliedIndex :=
        if node.safetyAppliedIndex < node.appliedIndex then node.safetyAppliedIndex
        else max node.safetyAppliedIndex applied }
  else node

def advanceCommit (commitIndex : Nat) : Node :=
  let moved := followCommit
    { node with commitIndex := max node.commitIndex (min commitIndex node.matchIndex) }
  { moved with
    hardState.committed :=
      if moved.commitIndex > 0 then
        some ⟨(moved.logTermAt moved.commitIndex).getD moved.hardState.currentTerm,
          moved.commitIndex⟩
      else none }

def installSnapshot (snapshot : RaftSnapshot) : Node :=
  let index := snapshot.snapshotMeta.lastLogId.index
  let discarded :=
    (discardLogThrough { node with installedSnapshot := some snapshot.snapshotMeta } index).2
  { discarded with
    witnessAckIndex :=
      if node.replicaRole = .witness then max node.witnessAckIndex index
      else node.witnessAckIndex
    commitIndex := max node.commitIndex index
    rejectedApplyIndex := node.rejectedApplyIndex.filter fun required => required > index
    appliedIndex :=
      if node.replicaRole.canServeData then max node.appliedIndex index else node.appliedIndex
    safetyAppliedIndex :=
      if node.replicaRole.canServeData then max node.safetyAppliedIndex index
      else node.safetyAppliedIndex
    hardState.committed := some snapshot.snapshotMeta.lastLogId }

def compactLogThrough : Nat × Node :=
  let safe := if node.replicaRole.canServeData then node.safetyAppliedIndex else node.commitIndex
  node.discardLogThrough (min logIndex safe)

end Node
end MatrixRaft
