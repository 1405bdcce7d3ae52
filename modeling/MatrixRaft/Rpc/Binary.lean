/-
# Rpc.Binary — requests and responses as framed messages

`rpc_binary.rs` turns every request and response of the transport into a mirror message that
the protobuf library writes, and back.  The mirrors make optional what the library may find
missing, and nest in batches as requests and responses do.
-/
import MatrixRaft.WalEncode

namespace MatrixRaft.Rpc
open Theory List

/-! ## What travels -/

structure VoteResponse where
  term : Nat
  voteGranted : Bool
  reason : String
  deriving DecidableEq

structure InstallSnapshotResponse where
  term : Nat
  accepted : Bool
  (nextOffset committedIndex : Nat)
  reason : String
  throttled : Bool
  deriving DecidableEq

structure ReadIndexResponse where
  safe : Bool
  readIndex : Nat
  leaseRead : Bool
  reason : String
  deriving DecidableEq

/-- Either part may be there, or neither. -/
structure TcpRaftRpcResult (α : Type) where
  ok : Option α
  error : Option String
  deriving DecidableEq

inductive TcpRaftTransportRequest where
  | appendEntries (target : Nat) (request : AppendEntriesRequest)
  | vote (target : Nat) (request : VoteRequest)
  | installSnapshot (target : Nat) (request : InstallSnapshotRequest)
  | readIndex (target : Nat) (request : ReadIndexRequest)
  | batch (requests : List TcpRaftTransportRequest)

inductive TcpRaftTransportResponse where
  | appendEntries (result : TcpRaftRpcResult AppendEntriesResponse)
  | vote (result : TcpRaftRpcResult VoteResponse)
  | installSnapshot (result : TcpRaftRpcResult InstallSnapshotResponse)
  | readIndex (result : TcpRaftRpcResult ReadIndexResponse)
  | batch (responses : List TcpRaftTransportResponse)

structure TcpRaftTransportEnvelope where
  clusterId : Nat
  userPayload : Option String
  request : TcpRaftTransportRequest

/-! ## Mirrors -/

structure AppendEntriesRequestProto where
  (groupId term leaderId : Nat)
  prevLogId : Option LogId
  entries : List LogEntryProto
  (leaderCommit leaseEpoch : Nat)
  deriving DecidableEq

structure AppendEntriesResponseProto where
  term : Nat
  success : Bool
  matchIndex : Nat
  (rejectionHint rejectedIndex requireSnapshot : Option Nat)
  snapshotState : Int
  (leaseConfirmationEpoch leaseDurationMs : Nat)
  deriving DecidableEq

structure VoteRequestProto where
  (groupId term candidateId : Nat)
  lastLogId : Option LogId
  (preVote force : Bool)
  deriving DecidableEq

structure VoteResponseProto where
  term : Nat
  voteGranted : Bool
  reason : String
  deriving DecidableEq

structure SnapshotChunkProto where
  snapshotMeta : Option SnapshotMetadataProto
  offset : Nat
  data : Bytes
  done : Bool
  deriving DecidableEq

structure InstallSnapshotRequestProto where
  (groupId term leaderId : Nat)
  chunk : Option SnapshotChunkProto
  deriving DecidableEq

structure InstallSnapshotResponseProto where
  term : Nat
  accepted : Bool
  (nextOffset committedIndex : Nat)
  reason : String
  throttled : Bool
  deriving DecidableEq

structure ReadIndexRequestProto where
  (groupId requesterId minCommitIndex : Nat)
  allowLeaseRead : Bool
  deriving DecidableEq

structure ReadIndexResponseProto where
  safe : Bool
  readIndex : Nat
  leaseRead : Bool
  reason : String
  deriving DecidableEq

structure TargetedProto (α : Type) where
  target : Nat
  request : Option α
  deriving DecidableEq

structure ResultProto (α : Type) where
  ok : Option α
  error : Option String
  deriving DecidableEq

inductive RpcRequestProto where
  | empty
  | appendEntries (arm : TargetedProto AppendEntriesRequestProto)
  | vote (arm : TargetedProto VoteRequestProto)
  | installSnapshot (arm : TargetedProto InstallSnapshotRequestProto)
  | readIndex (arm : TargetedProto ReadIndexRequestProto)
  | batch (requests : List RpcRequestProto)

inductive RpcResponseProto where
  | empty
  | appendEntries (arm : ResultProto AppendEntriesResponseProto)
  | vote (arm : ResultProto VoteResponseProto)
  | installSnapshot (arm : ResultProto InstallSnapshotResponseProto)
  | readIndex (arm : ResultProto ReadIndexResponseProto)
  | batch (responses : List RpcResponseProto)

structure EnvelopeProto where
  clusterId : Nat
  userPayload : Option String
  request : Option RpcRequestProto

/-! ## Single messages -/

def missing (what : String) : RaftError := .transport (.rpcMissing what)

def required {α : Type} (what : String) : Option α → Except RaftError α
  | none => .error (missing what)
  | some value => .ok value

def snapshotStateToWire : SnapshotState → Int
  | .none => 0
  | .creating => 1
  | .receiving => 2
  | .received => 3
  | .notReady => 4

def snapshotStateFromWire (value : Int) : Except RaftError SnapshotState :=
  if value = 0 then .ok .none
  else if value = 1 then .ok .creating
  else if value = 2 then .ok .receiving
  else if value = 3 then .ok .received
  else if value = 4 then .ok .notReady
  else .error (.transport (.rpcSnapshotState value))

def AppendEntriesRequestProto.ofRequest (value : AppendEntriesRequest) :
    AppendEntriesRequestProto where
  groupId := value.groupId
  term := value.term
  leaderId := value.leaderId
  prevLogId := value.prevLogId
  entries := value.entries.map LogEntryProto.ofEntry
  leaderCommit := value.leaderCommit
  leaseEpoch := value.leaseEpoch

def AppendEntriesRequestProto.toRequest (proto : AppendEntriesRequestProto) :
    Except RaftError AppendEntriesRequest := do
  let entries ← proto.entries.mapM LogEntryProto.toEntry
  return {
    groupId := proto.groupId
    term := proto.term
    leaderId := proto.leaderId
    prevLogId := proto.prevLogId
    entries := entries
    leaderCommit := proto.leaderCommit
    leaseEpoch := proto.leaseEpoch }

def AppendEntriesResponseProto.ofResponse (value : AppendEntriesResponse) :
    AppendEntriesResponseProto where
  term := value.term
  success := value.success
  matchIndex := value.matchIndex
  rejectionHint := value.rejectionHint
  rejectedIndex := value.rejectedIndex
  requireSnapshot := value.requireSnapshot
  snapshotState := snapshotStateToWire value.snapshotState
  leaseConfirmationEpoch := value.leaseConfirmationEpoch
  leaseDurationMs := value.leaseDurationMs

def AppendEntriesResponseProto.toResponse (proto : AppendEntriesResponseProto) :
    Except RaftError AppendEntriesResponse := do
  let snapshotState ← snapshotStateFromWire proto.snapshotState
  return {
    term := proto.term
    success := proto.success
    matchIndex := proto.matchIndex
    rejectionHint := proto.rejectionHint
    rejectedIndex := proto.rejectedIndex
    requireSnapshot := proto.requireSnapshot
    snapshotState := snapshotState
    leaseConfirmationEpoch := proto.leaseConfirmationEpoch
    leaseDurationMs := proto.leaseDurationMs }

def VoteRequestProto.ofRequest (value : VoteRequest) : VoteRequestProto where
  groupId := value.groupId
  term := value.term
  candidateId := value.candidateId
  lastLogId := value.lastLogId
  preVote := value.preVote
  force := value.force

def VoteRequestProto.toRequest (proto : VoteRequestProto) : VoteRequest where
  groupId := proto.groupId
  term := proto.term
  candidateId := proto.candidateId
  lastLogId := proto.lastLogId
  preVote := proto.preVote
  force := proto.force

def VoteResponseProto.ofResponse (value : VoteResponse) : VoteResponseProto where
  term := value.term
  voteGranted := value.voteGranted
  reason := value.reason

def VoteResponseProto.toResponse (proto : VoteResponseProto) : VoteResponse where
  term := proto.term
  voteGranted := proto.voteGranted
  reason := proto.reason

def SnapshotChunkProto.ofChunk (value : SnapshotChunk) : SnapshotChunkProto where
  snapshotMeta := some (.ofMetadata value.snapshotMeta)
  offset := value.offset
  data := value.data
  done := value.done

def SnapshotChunkProto.toChunk (proto : SnapshotChunkProto) : Except RaftError SnapshotChunk := do
  let snapshotMeta ← required "a chunk's metadata" proto.snapshotMeta
  return {
    snapshotMeta := ← snapshotMeta.toMetadata
    offset := proto.offset
    data := proto.data
    done := proto.done }

def InstallSnapshotRequestProto.ofRequest (value : InstallSnapshotRequest) :
    InstallSnapshotRequestProto where
  groupId := value.groupId
  term := value.term
  leaderId := value.leaderId
  chunk := some (.ofChunk value.chunk)

def InstallSnapshotRequestProto.toRequest (proto : InstallSnapshotRequestProto) :
    Except RaftError InstallSnapshotRequest := do
  let chunk ← required "an install's chunk" proto.chunk
  return {
    groupId := proto.groupId
    term := proto.term
    leaderId := proto.leaderId
    chunk := ← chunk.toChunk }

def InstallSnapshotResponseProto.ofResponse (value : InstallSnapshotResponse) :
    InstallSnapshotResponseProto where
  term := value.term
  accepted := value.accepted
  nextOffset := value.nextOffset
  committedIndex := value.committedIndex
  reason := value.reason
  throttled := value.throttled

def InstallSnapshotResponseProto.toResponse (proto : InstallSnapshotResponseProto) :
    InstallSnapshotResponse where
  term := proto.term
  accepted := proto.accepted
  nextOffset := proto.nextOffset
  committedIndex := proto.committedIndex
  reason := proto.reason
  throttled := proto.throttled

def ReadIndexRequestProto.ofRequest (value : ReadIndexRequest) : ReadIndexRequestProto where
  groupId := value.groupId
  requesterId := value.requesterId
  minCommitIndex := value.minCommitIndex
  allowLeaseRead := value.allowLeaseRead

def ReadIndexRequestProto.toRequest (proto : ReadIndexRequestProto) : ReadIndexRequest where
  groupId := proto.groupId
  requesterId := proto.requesterId
  minCommitIndex := proto.minCommitIndex
  allowLeaseRead := proto.allowLeaseRead

def ReadIndexResponseProto.ofResponse (value : ReadIndexResponse) : ReadIndexResponseProto where
  safe := value.safe
  readIndex := value.readIndex
  leaseRead := value.leaseRead
  reason := value.reason

def ReadIndexResponseProto.toResponse (proto : ReadIndexResponseProto) : ReadIndexResponse where
  safe := proto.safe
  readIndex := proto.readIndex
  leaseRead := proto.leaseRead
  reason := proto.reason

/-! ## Requests, responses and envelopes -/

namespace RpcRequestProto

mutual
def ofRequest : TcpRaftTransportRequest → RpcRequestProto
  | .appendEntries target request =>
    .appendEntries { target := target, request := some (.ofRequest request) }
  | .vote target request => .vote { target := target, request := some (.ofRequest request) }
  | .installSnapshot target request =>
    .installSnapshot { target := target, request := some (.ofRequest request) }
  | .readIndex target request =>
    .readIndex { target := target, request := some (.ofRequest request) }
  | .batch requests => .batch (ofRequests requests)

def ofRequests : List TcpRaftTransportRequest → List RpcRequestProto
  | [] => []
  | request :: requests => ofRequest request :: ofRequests requests

end

mutual
def toRequest : RpcRequestProto → Except RaftError TcpRaftTransportRequest
  | .empty => .error (missing "its request")
  | .appendEntries arm => do
    let request ← required "an append request" arm.request
    return .appendEntries arm.target (← request.toRequest)
  | .vote arm => do
    let request ← required "a vote request" arm.request
    return .vote arm.target request.toRequest
  | .installSnapshot arm => do
    let request ← required "an install request" arm.request
    return .installSnapshot arm.target (← request.toRequest)
  | .readIndex arm => do
    let request ← required "a read index request" arm.request
    return .readIndex arm.target request.toRequest
  | .batch requests => do return .batch (← toRequests requests)

def toRequests : List RpcRequestProto →
    Except RaftError (List TcpRaftTransportRequest)
  | [] => .ok []
  | proto :: protos => do
    let request ← toRequest proto
    return request :: (← toRequests protos)

end
end RpcRequestProto

namespace RpcResponseProto

mutual
def ofResponse : TcpRaftTransportResponse → RpcResponseProto
  | .appendEntries result =>
    .appendEntries { ok := result.ok.map .ofResponse, error := result.error }
  | .vote result => .vote { ok := result.ok.map .ofResponse, error := result.error }
  | .installSnapshot result =>
    .installSnapshot { ok := result.ok.map .ofResponse, error := result.error }
  | .readIndex result => .readIndex { ok := result.ok.map .ofResponse, error := result.error }
  | .batch responses => .batch (ofResponses responses)

def ofResponses : List TcpRaftTransportResponse → List RpcResponseProto
  | [] => []
  | response :: responses =>
    ofResponse response :: ofResponses responses

end

mutual
def toResponse : RpcResponseProto → Except RaftError TcpRaftTransportResponse
  | .empty => .error (missing "its response")
  | .appendEntries arm => do
    return .appendEntries
      { ok := ← arm.ok.mapM AppendEntriesResponseProto.toResponse, error := arm.error }
  | .vote arm => .ok (.vote { ok := arm.ok.map VoteResponseProto.toResponse, error := arm.error })
  | .installSnapshot arm => .ok (.installSnapshot
      { ok := arm.ok.map InstallSnapshotResponseProto.toResponse, error := arm.error })
  | .readIndex arm => .ok (.readIndex
      { ok := arm.ok.map ReadIndexResponseProto.toResponse, error := arm.error })
  | .batch responses => do return .batch (← toResponses responses)

def toResponses : List RpcResponseProto →
    Except RaftError (List TcpRaftTransportResponse)
  | [] => .ok []
  | proto :: protos => do
    let response ← toResponse proto
    return response :: (← toResponses protos)

end
end RpcResponseProto

def EnvelopeProto.ofEnvelope (value : TcpRaftTransportEnvelope) : EnvelopeProto where
  clusterId := value.clusterId
  userPayload := value.userPayload
  request := some (.ofRequest value.request)

def EnvelopeProto.toEnvelope (proto : EnvelopeProto) :
    Except RaftError TcpRaftTransportEnvelope := do
  let request ← required "its request" proto.request
  return {
    clusterId := proto.clusterId
    userPayload := proto.userPayload
    request := ← request.toRequest }

/-! ## The conversions are inverse -/

theorem AppendEntriesRequestProto.toRequest_ofRequest (value : AppendEntriesRequest) :
    (AppendEntriesRequestProto.ofRequest value).toRequest = .ok value := by
  have entries := mapM_undoes LogEntryProto.toEntry_ofEntry value.entries
  simp only [toRequest, ofRequest, entries]
  rfl

theorem AppendEntriesResponseProto.toResponse_ofResponse (value : AppendEntriesResponse) :
    (AppendEntriesResponseProto.ofResponse value).toResponse = .ok value := by
  have state : snapshotStateFromWire (snapshotStateToWire value.snapshotState)
      = .ok value.snapshotState := by
    cases value.snapshotState <;> rfl
  simp only [toResponse, ofResponse, state]
  rfl

theorem InstallSnapshotRequestProto.toRequest_ofRequest (value : InstallSnapshotRequest) :
    (InstallSnapshotRequestProto.ofRequest value).toRequest = .ok value := by
  have metadata := SnapshotMetadataProto.toMetadata_ofMetadata value.chunk.snapshotMeta
  have chunk : (SnapshotChunkProto.ofChunk value.chunk).toChunk = .ok value.chunk := by
    show ((SnapshotMetadataProto.ofMetadata value.chunk.snapshotMeta).toMetadata >>= _) = _
    rw [metadata]
    rfl
  show ((SnapshotChunkProto.ofChunk value.chunk).toChunk >>= _) = _
  rw [chunk]
  rfl

namespace RpcRequestProto

mutual
/-- **Requests convert back**, at every nesting. -/
theorem toRequest_ofRequest : ∀ request,
    (ofRequest request).toRequest = .ok request
  | .appendEntries target request => by
    show ((AppendEntriesRequestProto.ofRequest request).toRequest >>= _) = _
    rw [AppendEntriesRequestProto.toRequest_ofRequest]
    rfl
  | .vote _ _ => rfl
  | .installSnapshot target request => by
    show ((InstallSnapshotRequestProto.ofRequest request).toRequest >>= _) = _
    rw [InstallSnapshotRequestProto.toRequest_ofRequest]
    rfl
  | .readIndex _ _ => rfl
  | .batch requests => by
    simp only [ofRequest, toRequest,
      toRequests_ofRequests requests]
    rfl

theorem toRequests_ofRequests : ∀ requests,
    toRequests (ofRequests requests) = .ok requests
  | [] => rfl
  | request :: requests => by
    simp only [ofRequests, toRequests,
      toRequest_ofRequest request, toRequests_ofRequests requests]
    rfl

end
end RpcRequestProto

theorem map_undoes {α β : Type} {make : α → β} {back : β → α}
    (undoes : ∀ value, back (make value) = value) (value : Option α) :
    (value.map make).map back = value := by
  cases value with
  | none => rfl
  | some value => exact congrArg some (undoes value)

namespace RpcResponseProto

mutual
/-- **Responses convert back**, at every nesting. -/
theorem toResponse_ofResponse : ∀ response,
    (ofResponse response).toResponse = .ok response
  | .appendEntries ⟨ok, error⟩ => by
    cases ok with
    | none => rfl
    | some =>
      simp [ofResponse, toResponse,
        AppendEntriesResponseProto.toResponse_ofResponse]
  | .vote ⟨ok, error⟩ => by
    simp only [ofResponse, toResponse]
    rw [map_undoes fun _ => rfl]
  | .installSnapshot ⟨ok, error⟩ => by
    simp only [ofResponse, toResponse]
    rw [map_undoes fun _ => rfl]
  | .readIndex ⟨ok, error⟩ => by
    simp only [ofResponse, toResponse]
    rw [map_undoes fun _ => rfl]
  | .batch responses => by
    simp only [ofResponse, toResponse,
      toResponses_ofResponses responses]
    rfl

theorem toResponses_ofResponses : ∀ responses,
    toResponses (ofResponses responses) = .ok responses
  | [] => rfl
  | response :: responses => by
    simp only [ofResponses, toResponses,
      toResponse_ofResponse response,
      toResponses_ofResponses responses]
    rfl

end
end RpcResponseProto

theorem EnvelopeProto.toEnvelope_ofEnvelope (value : TcpRaftTransportEnvelope) :
    (EnvelopeProto.ofEnvelope value).toEnvelope = .ok value := by
  show ((RpcRequestProto.ofRequest value.request).toRequest >>= _) = _
  rw [RpcRequestProto.toRequest_ofRequest]
  rfl

/-! ## Nesting -/

def above (levels : List Nat) : Nat := levels.foldr (fun level most => max (level + 1) most) 0

def entryLevels (proto : LogEntryProto) : Nat := above (proto.logId.toList.map fun _ => 0)

def metadataLevels (proto : SnapshotMetadataProto) : Nat :=
  above ((proto.lastLogId.toList.map fun _ => 0) ++ proto.members.map fun _ => 0)

def AppendEntriesRequestProto.levels (proto : AppendEntriesRequestProto) : Nat :=
  above ((proto.prevLogId.toList.map fun _ => 0) ++ proto.entries.map entryLevels)

def VoteRequestProto.levels (proto : VoteRequestProto) : Nat :=
  above (proto.lastLogId.toList.map fun _ => 0)

def InstallSnapshotRequestProto.levels (proto : InstallSnapshotRequestProto) : Nat :=
  above (proto.chunk.toList.map fun chunk => above (chunk.snapshotMeta.toList.map metadataLevels))

def TargetedProto.levels {α : Type} (levels : α → Nat) (arm : TargetedProto α) : Nat :=
  above [above (arm.request.toList.map levels)]

def ResultProto.levels {α : Type} (arm : ResultProto α) : Nat :=
  above [above (arm.ok.toList.map fun _ => 0)]

namespace RpcRequestProto

mutual
def levels : RpcRequestProto → Nat
  | .empty => 0
  | .appendEntries arm => arm.levels AppendEntriesRequestProto.levels
  | .vote arm => arm.levels VoteRequestProto.levels
  | .installSnapshot arm => arm.levels InstallSnapshotRequestProto.levels
  | .readIndex arm => arm.levels fun _ => 0
  -- a batch is a message of its own
  | .batch requests => above [above (eachLevels requests)]

def eachLevels : List RpcRequestProto → List Nat
  | [] => []
  | request :: requests => levels request :: eachLevels requests

end
end RpcRequestProto

namespace RpcResponseProto

mutual
def levels : RpcResponseProto → Nat
  | .empty => 0
  | .appendEntries arm => arm.levels
  | .vote arm => arm.levels
  | .installSnapshot arm => arm.levels
  | .readIndex arm => arm.levels
  | .batch responses => above [above (eachLevels responses)]

def eachLevels : List RpcResponseProto → List Nat
  | [] => []
  | response :: responses => levels response :: eachLevels responses

end
end RpcResponseProto

def EnvelopeProto.levels (proto : EnvelopeProto) : Nat :=
  above (proto.request.toList.map RpcRequestProto.levels)

/-- How many levels of messages `prost` reads. -/
def recursionLimit : Nat := 100

/-- The protobuf library, for the two messages that are framed. -/
structure Prost where
  encodeEnvelope : EnvelopeProto → Bytes
  decodeEnvelope : Bytes → Except String EnvelopeProto
  encodeResponse : RpcResponseProto → Bytes
  decodeResponse : Bytes → Except String RpcResponseProto

/-- It reads what it wrote, within its limit. -/
structure Prost.Lawful (prost : Prost) : Prop where
  envelope : ∀ envelope, (EnvelopeProto.ofEnvelope envelope).levels ≤ recursionLimit →
    prost.decodeEnvelope (prost.encodeEnvelope (.ofEnvelope envelope)) = .ok (.ofEnvelope envelope)
  response : ∀ response, (RpcResponseProto.ofResponse response).levels ≤ recursionLimit →
    prost.decodeResponse (prost.encodeResponse (.ofResponse response)) = .ok (.ofResponse response)

/-! ## Frames -/

def rpcMagic : Bytes := [77, 82, 82, 80]

/-- A length and a CRC-32C. -/
def rpcFrameBytes : Nat := 8

def rpcHeadBytes : Nat := 4 + rpcFrameBytes

/-- The magic, then the frame every record has. -/
def framed (body : Bytes) : Bytes :=
  rpcMagic ++ littleEndian 4 body.length ++ littleEndian 4 (FrameDigest.crc32c.of body).toNat ++ body

def frame (body : Bytes) : Except RaftError Bytes :=
  if 2 ^ 32 ≤ body.length then .error (.transport .rpcTooLong) else .ok (framed body)

def isFramedRpc (bytes : Bytes) : Bool := rpcMagic.isPrefixOf bytes

/-- The body of a frame; what follows the frame is not looked at. -/
def unframe (bytes : Bytes) : Except RaftError Bytes :=
  if ¬ isFramedRpc bytes then .error (.transport .rpcNoMagic)
  else
    let rest := bytes.drop rpcMagic.length
    if rest.length < rpcFrameBytes then .error (.transport .rpcShort)
    else
      let length := ofLittleEndian (rest.take 4)
      let digest := ofLittleEndian ((rest.drop 4).take 4)
      let stop := rpcFrameBytes + length
      if rest.length < stop then
        .error (.transport (.rpcIncomplete length (rest.length - rpcFrameBytes)))
      else
        let body := (rest.drop rpcFrameBytes).take length
        if (FrameDigest.crc32c.of body).toNat ≠ digest then .error (.transport .rpcDigestFails)
        else .ok body

def framedRpcLen (bytes : Bytes) : Option Nat :=
  if ¬ isFramedRpc bytes ∨ bytes.length < rpcMagic.length + rpcFrameBytes then none
  else
    let length := ofLittleEndian ((bytes.drop rpcMagic.length).take 4)
    some (rpcMagic.length + rpcFrameBytes + length)

section Messages
variable (prost : Prost)

def encodeRpcEnvelope (envelope : TcpRaftTransportEnvelope) : Except RaftError Bytes :=
  frame (prost.encodeEnvelope (.ofEnvelope envelope))

def decodeRpcEnvelope (bytes : Bytes) : Except RaftError TcpRaftTransportEnvelope := do
  let body ← unframe bytes
  match prost.decodeEnvelope body with
  | .error cause => .error (.transport (.rpcUndecodable cause))
  | .ok proto => proto.toEnvelope

def encodeRpcResponse (response : TcpRaftTransportResponse) : Except RaftError Bytes :=
  frame (prost.encodeResponse (.ofResponse response))

def decodeRpcResponse (bytes : Bytes) : Except RaftError TcpRaftTransportResponse := do
  let body ← unframe bytes
  match prost.decodeResponse body with
  | .error cause => .error (.transport (.rpcResponseUndecodable cause))
  | .ok proto => proto.toResponse

end Messages

/-! ## A frame is taken apart again -/

theorem frame_eq_ok {body bytes : Bytes} (wrote : frame body = .ok bytes) :
    body.length < 2 ^ 32 ∧ bytes = framed body := by
  unfold frame at wrote
  grind

theorem framed_eq (body : Bytes) : framed body = rpcMagic ++ MatrixRaft.frame body := by rfl

theorem length_framed (body : Bytes) : (framed body).length = rpcHeadBytes + body.length := by
  rw [framed_eq, length_append, length_frame, ← add_assoc]
  rfl

theorem isFramedRpc_append (rest : Bytes) : isFramedRpc (rpcMagic ++ rest) = true :=
  isPrefixOf_iff_prefix.mpr (prefix_append _ _)

theorem framedRpcLen_framed {body : Bytes} (short : body.length < 2 ^ 32) (rest : Bytes) :
    framedRpcLen ((framed body ++ rest).take rpcHeadBytes) = some (framed body).length := by
  have head : (framed body ++ rest).take rpcHeadBytes
      = rpcMagic ++ (MatrixRaft.frame body ++ rest).take frameBytes := by rfl
  have size : ((MatrixRaft.frame body ++ rest).take frameBytes).length = frameBytes := by rfl
  have length := (frame_parts short rest).1
  unfold framedRpcLen
  rw [head, isFramedRpc_append, if_neg, drop_left' rfl, take_take, length_framed]
  · rw [show min 4 frameBytes = 4 from rfl, length]
    rfl
  · rw [length_append, size]
    simp [rpcFrameBytes, frameBytes]

theorem unframe_framed {body : Bytes} (short : body.length < 2 ^ 32) :
    unframe (framed body) = .ok body := by
  have parts := frame_parts short []
  rw [append_nil] at parts
  obtain ⟨length, digest, taken⟩ := parts
  have size := length_frame body
  have same : rpcFrameBytes = frameBytes := rfl
  unfold unframe
  rw [framed_eq, isFramedRpc_append, if_neg (by simp), drop_left' rfl, if_neg (by omega)]
  simp only [length, digest, same, taken, append_nil]
  rw [if_neg (by omega), take_length, if_neg (by simp [FrameDigest.of])]

/-- **A framed envelope reads back.** -/
theorem decodeRpcEnvelope_encode {prost : Prost} (lawful : prost.Lawful)
    {envelope : TcpRaftTransportEnvelope}
    (nested : (EnvelopeProto.ofEnvelope envelope).levels ≤ recursionLimit) {bytes : Bytes}
    (wrote : encodeRpcEnvelope prost envelope = .ok bytes) :
    decodeRpcEnvelope prost bytes = .ok envelope := by
  obtain ⟨short, rfl⟩ := frame_eq_ok wrote
  unfold decodeRpcEnvelope
  rw [unframe_framed short]
  show (match prost.decodeEnvelope _ with | .error _ => _ | .ok proto => proto.toEnvelope) = _
  rw [lawful.envelope envelope nested]
  exact EnvelopeProto.toEnvelope_ofEnvelope envelope

/-- **A framed response reads back.** -/
theorem decodeRpcResponse_encode {prost : Prost} (lawful : prost.Lawful)
    {response : TcpRaftTransportResponse}
    (nested : (RpcResponseProto.ofResponse response).levels ≤ recursionLimit) {bytes : Bytes}
    (wrote : encodeRpcResponse prost response = .ok bytes) :
    decodeRpcResponse prost bytes = .ok response := by
  obtain ⟨short, rfl⟩ := frame_eq_ok wrote
  unfold decodeRpcResponse
  rw [unframe_framed short]
  show (match prost.decodeResponse _ with | .error _ => _ | .ok proto => proto.toResponse) = _
  rw [lawful.response response nested]
  exact RpcResponseProto.toResponse_ofResponse response

end MatrixRaft.Rpc
