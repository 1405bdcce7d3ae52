/-
# Rpc.Format — the protobuf format of the transport's messages

The fields of each mirror under their tags, and a reader of them that stops at the library's
limit on nested messages.
-/
import MatrixRaft.Rpc.Binary

namespace MatrixRaft.Rpc
open Theory List RpcRequestProto RpcResponseProto

/-! ## Parts -/

variable {α : Type}

def messageIn (ofFields : Fields → Option α) (tag : Nat) (fields : Fields) : Option (Option α) :=
  match (bytesAt tag fields).getLast? with
  | none => some none
  | some held => (decodeFields ofFields held).map some

def optionalTextAt (tag : Nat) (fields : Fields) : Option (Option String) :=
  match (bytesAt tag fields).getLast? with
  | none => some none
  | some held => (String.fromUTF8? ⟨held.toArray⟩).map some

/-! ## Requests -/

namespace AppendEntriesRequestProto

def fields (proto : AppendEntriesRequestProto) : Fields :=
  numberField 1 proto.groupId ++ numberField 2 proto.term ++ numberField 3 proto.leaderId ++
    optionalField 4 (proto.prevLogId.map fun logId => writeFields logId.fields) ++
    ((proto.entries.map fun entry => writeFields entry.fields).map fun held =>
      (5, Field.bytes held)) ++
    numberField 6 proto.leaderCommit ++ numberField 7 proto.leaseEpoch

def ofFields (fields : Fields) : Option AppendEntriesRequestProto := do
  some
    { groupId := numberAt 1 fields, term := numberAt 2 fields, leaderId := numberAt 3 fields
      prevLogId := ← messageAt logIdCodec 4 fields
      entries := ← messagesAt LogEntryProto.ofFields 5 fields
      leaderCommit := numberAt 6 fields, leaseEpoch := numberAt 7 fields }

theorem ofFields_fields (value : AppendEntriesRequest) : ofFields (ofRequest value).fields
      = some (.ofRequest value) := by
  have mirrors : (value.entries.map LogEntryProto.ofEntry).map (fun entry => writeFields entry.fields)
      = value.entries.map fun entry => writeFields entry.fields := map_map
  have log := @mapM_decodeFields _ _ _ _ _ value.entries fun entry _ =>
    LogEntryProto.ofFields_fields entry
  cases previous : value.prevLogId <;>
    simp [ofFields, fields,
      ofRequest, messageAt, messagesAt, mirrors, log, numberAt, previous,
      -map_map]

end AppendEntriesRequestProto

namespace VoteRequestProto

def fields (proto : VoteRequestProto) : Fields :=
  numberField 1 proto.groupId ++ numberField 2 proto.term ++ numberField 3 proto.candidateId ++
    optionalField 4 (proto.lastLogId.map fun logId => writeFields logId.fields) ++
    numberField 5 proto.preVote.toNat ++ numberField 6 proto.force.toNat

def ofFields (fields : Fields) : Option VoteRequestProto := do
  some
    { groupId := numberAt 1 fields, term := numberAt 2 fields, candidateId := numberAt 3 fields
      lastLogId := ← messageAt logIdCodec 4 fields
      preVote := numberAt 5 fields != 0, force := numberAt 6 fields != 0 }

theorem ofFields_fields (proto : VoteRequestProto) : ofFields proto.fields = some proto := by
  obtain ⟨groupId, term, candidateId, lastLogId, preVote, force⟩ := proto
  cases lastLogId <;> simp [ofFields, fields, messageAt, numberAt]

end VoteRequestProto

namespace SnapshotChunkProto

def fields (proto : SnapshotChunkProto) : Fields :=
  optionalField 1 (proto.snapshotMeta.map fun snapshot => writeFields snapshot.fields) ++
    numberField 2 proto.offset ++ bytesField 3 proto.data ++ numberField 4 proto.done.toNat

def ofFields (fields : Fields) : Option SnapshotChunkProto := do
  some
    { snapshotMeta := ← messageIn SnapshotMetadataProto.ofFields 1 fields
      offset := numberAt 2 fields, data := blobAt 3 fields, done := numberAt 4 fields != 0 }

theorem ofFields_fields (value : SnapshotChunk) :
    ofFields (ofChunk value).fields = some (.ofChunk value) := by
  simp [ofFields, fields, ofChunk, messageIn,
    numberAt, blobAt, SnapshotMetadataProto.fields_ofMetadata, SnapshotMetadataProto.ofFields_fields]

end SnapshotChunkProto

namespace InstallSnapshotRequestProto

def fields (proto : InstallSnapshotRequestProto) : Fields :=
  numberField 1 proto.groupId ++ numberField 2 proto.term ++ numberField 3 proto.leaderId ++
    optionalField 4 (proto.chunk.map fun chunk => writeFields chunk.fields)

def ofFields (fields : Fields) : Option InstallSnapshotRequestProto := do
  some
    { groupId := numberAt 1 fields, term := numberAt 2 fields, leaderId := numberAt 3 fields
      chunk := ← messageIn SnapshotChunkProto.ofFields 4 fields }

theorem ofFields_fields (value : InstallSnapshotRequest) : ofFields (ofRequest value).fields
      = some (.ofRequest value) := by
  simp [ofFields, fields,
    ofRequest, messageIn, numberAt, SnapshotChunkProto.ofFields_fields]

end InstallSnapshotRequestProto

namespace ReadIndexRequestProto

def fields (proto : ReadIndexRequestProto) : Fields :=
  numberField 1 proto.groupId ++ numberField 2 proto.requesterId ++
    numberField 3 proto.minCommitIndex ++ numberField 4 proto.allowLeaseRead.toNat

def ofFields (fields : Fields) : Option ReadIndexRequestProto :=
  some
    { groupId := numberAt 1 fields, requesterId := numberAt 2 fields
      minCommitIndex := numberAt 3 fields, allowLeaseRead := numberAt 4 fields != 0 }

theorem ofFields_fields (proto : ReadIndexRequestProto) : ofFields proto.fields = some proto := by
  simp [ofFields, fields, numberAt]

end ReadIndexRequestProto

def TargetedProto.fields (fields : α → Fields) (arm : TargetedProto α) : Fields :=
  numberField 1 arm.target ++
    optionalField 2 (arm.request.map fun request => writeFields (fields request))

def TargetedProto.ofFields (ofFields : Fields → Option α) (fields : Fields) :
    Option (TargetedProto α) := do
  some { target := numberAt 1 fields, request := ← messageIn ofFields 2 fields }

theorem TargetedProto.ofFields_fields {fields : α → Fields}
    {ofFields : Fields → Option α} {request : α} (undoes : ofFields (fields request) = some request)
    (target : Nat) :
    TargetedProto.ofFields ofFields (TargetedProto.fields fields ⟨target, some request⟩)
      = some ⟨target, some request⟩ := by
  simp [TargetedProto.ofFields, TargetedProto.fields, messageIn, numberAt, undoes]

theorem map_decodeFields {α β : Type} {ofFields : Fields → Option α} {fields : Fields} {value : α}
    (undoes : ofFields fields = some value) (make : α → β) :
    (decodeFields ofFields (writeFields fields)).map make = some (make value) := by
  simp [undoes]

theorem eq_map {α β : Type} {each : List α → List β} {one : α → β} (none : each [] = [])
    (more : ∀ value values, each (value :: values) = one value :: each values) (values : List α) :
    each values = values.map one := by
  induction values with
  | nil => exact none
  | cons value values ih => rw [more, ih, map_cons]

namespace RpcRequestProto

mutual
/-- One of the five kinds, each under a tag of its own. -/
def fields : RpcRequestProto → Fields
  | .empty => []
  | .appendEntries arm =>
    [(1, .bytes (writeFields (arm.fields AppendEntriesRequestProto.fields)))]
  | .vote arm => [(2, .bytes (writeFields (arm.fields VoteRequestProto.fields)))]
  | .installSnapshot arm =>
    [(3, .bytes (writeFields (arm.fields InstallSnapshotRequestProto.fields)))]
  | .readIndex arm => [(4, .bytes (writeFields (arm.fields ReadIndexRequestProto.fields)))]
  | .batch requests => [(5, .bytes (writeFields (eachField requests)))]

def eachField : List RpcRequestProto → Fields
  | [] => []
  | request :: requests =>
    (1, .bytes (writeFields (fields request))) :: eachField requests

end

def ofFields : Nat → Fields → Option RpcRequestProto
  | 0, _ => none
  | limit + 1, fields =>
    match fields.getLast? with
    | none => some .empty
    | some (1, .bytes held) =>
      (decodeFields (TargetedProto.ofFields AppendEntriesRequestProto.ofFields) held).map
        .appendEntries
    | some (2, .bytes held) =>
      (decodeFields (TargetedProto.ofFields VoteRequestProto.ofFields) held).map .vote
    | some (3, .bytes held) =>
      (decodeFields (TargetedProto.ofFields InstallSnapshotRequestProto.ofFields) held).map
        .installSnapshot
    | some (4, .bytes held) =>
      (decodeFields (TargetedProto.ofFields ReadIndexRequestProto.ofFields) held).map .readIndex
    | some (5, .bytes held) =>
      (decodeFields (messagesAt (ofFields limit) 1) held).map .batch
    | some _ => none

theorem eachField_eq : ∀ requests : List RpcRequestProto, eachField requests
      = requests.map fun request => (1, Field.bytes (writeFields request.fields)) :=
  eq_map rfl fun _ _ => rfl

theorem ofRequests_eq : ∀ requests, ofRequests requests = requests.map ofRequest :=
  eq_map rfl fun _ _ => rfl

theorem eachLevels_eq : ∀ requests, eachLevels requests = requests.map levels :=
  eq_map rfl fun _ _ => rfl

end RpcRequestProto

theorem lt_above {level : Nat} {levels : List Nat} (member : level ∈ levels) :
    level < above levels := by
  induction levels with
  | nil => cases member
  | cons first levels ih => grind [above]

theorem levels_lt_batch {request : TcpRaftTransportRequest} {requests : List TcpRaftTransportRequest}
    (member : request ∈ requests) :
    (RpcRequestProto.ofRequest request).levels < (RpcRequestProto.ofRequest (.batch requests)).levels := by
  refine lt_trans (lt_above ?_) (lt_above mem_cons_self)
  rw [eachLevels_eq, ofRequests_eq, map_map]
  exact mem_map_of_mem member

namespace RpcRequestProto

/-- **A request reads back** where its levels are within the limit.  By induction on the limit: a
batch uses up one of it. -/
theorem ofFields_fields (limit : Nat) (request : TcpRaftTransportRequest)
    (nested : (ofRequest request).levels < limit) : ofFields limit (ofRequest request).fields
      = some (.ofRequest request) := by
  induction limit generalizing request with
  | zero => omega
  | succ limit ih =>
    cases request with
    | appendEntries target request =>
      exact map_decodeFields (TargetedProto.ofFields_fields
        (AppendEntriesRequestProto.ofFields_fields request) target) _
    | vote target request =>
      exact map_decodeFields (TargetedProto.ofFields_fields
        (VoteRequestProto.ofFields_fields (.ofRequest request)) target) _
    | installSnapshot target request =>
      exact map_decodeFields (TargetedProto.ofFields_fields
        (InstallSnapshotRequestProto.ofFields_fields request) target) _
    | readIndex target request =>
      exact map_decodeFields (TargetedProto.ofFields_fields
        (ReadIndexRequestProto.ofFields_fields (.ofRequest request)) target) _
    | batch requests =>
      have inside := @mapM_decodeFields _ _ _ _ _ requests fun request member =>
        ih request (by have := levels_lt_batch member; omega)
      refine map_decodeFields ?_ _
      rw [eachField_eq, ofRequests_eq, messagesAt, bytesAt_messages,
        if_pos rfl, map_map]
      exact inside

end RpcRequestProto

/-! ## Responses -/

namespace AppendEntriesResponseProto

def fields (proto : AppendEntriesResponseProto) : Fields :=
  numberField 1 proto.term ++ numberField 2 proto.success.toNat ++
    numberField 3 proto.matchIndex ++ optionalNumberField 4 proto.rejectionHint ++
    optionalNumberField 5 proto.rejectedIndex ++ optionalNumberField 6 proto.requireSnapshot ++
    numberField 7 (proto.snapshotState % 2 ^ 64).toNat ++
    numberField 8 proto.leaseConfirmationEpoch ++ numberField 9 proto.leaseDurationMs

def ofFields (fields : Fields) : Option AppendEntriesResponseProto :=
  some
    { term := numberAt 1 fields, success := numberAt 2 fields != 0
      matchIndex := numberAt 3 fields, rejectionHint := (numbersAt 4 fields).getLast?
      rejectedIndex := (numbersAt 5 fields).getLast?
      requireSnapshot := (numbersAt 6 fields).getLast?
      snapshotState := Int.bmod (numberAt 7 fields) 4294967296
      leaseConfirmationEpoch := numberAt 8 fields, leaseDurationMs := numberAt 9 fields }

theorem ofFields_fields (value : AppendEntriesResponse) : ofFields (ofResponse value).fields
      = some (.ofResponse value) := by
  simp [ofFields, fields,
    ofResponse, numberAt]
  cases value.snapshotState <;> decide

end AppendEntriesResponseProto

namespace VoteResponseProto

def fields (proto : VoteResponseProto) : Fields :=
  numberField 1 proto.term ++ numberField 2 proto.voteGranted.toNat ++
    bytesField 3 (utf8 proto.reason)

def ofFields (fields : Fields) : Option VoteResponseProto := do
  some
    { term := numberAt 1 fields, voteGranted := numberAt 2 fields != 0
      reason := ← textAt 3 fields }

theorem ofFields_fields (proto : VoteResponseProto) : ofFields proto.fields = some proto := by
  simp [ofFields, fields, textAt, blobAt, numberAt]

end VoteResponseProto

namespace InstallSnapshotResponseProto

def fields (proto : InstallSnapshotResponseProto) : Fields :=
  numberField 1 proto.term ++ numberField 2 proto.accepted.toNat ++
    numberField 3 proto.nextOffset ++ numberField 4 proto.committedIndex ++
    bytesField 5 (utf8 proto.reason) ++ numberField 6 proto.throttled.toNat

def ofFields (fields : Fields) : Option InstallSnapshotResponseProto := do
  some
    { term := numberAt 1 fields, accepted := numberAt 2 fields != 0
      nextOffset := numberAt 3 fields, committedIndex := numberAt 4 fields
      reason := ← textAt 5 fields, throttled := numberAt 6 fields != 0 }

theorem ofFields_fields (proto : InstallSnapshotResponseProto) :
    ofFields proto.fields = some proto := by
  simp [ofFields, fields, textAt, blobAt,
    numberAt]

end InstallSnapshotResponseProto

namespace ReadIndexResponseProto

def fields (proto : ReadIndexResponseProto) : Fields :=
  numberField 1 proto.safe.toNat ++ numberField 2 proto.readIndex ++
    numberField 3 proto.leaseRead.toNat ++ bytesField 4 (utf8 proto.reason)

def ofFields (fields : Fields) : Option ReadIndexResponseProto := do
  some
    { safe := numberAt 1 fields != 0, readIndex := numberAt 2 fields
      leaseRead := numberAt 3 fields != 0, reason := ← textAt 4 fields }

theorem ofFields_fields (proto : ReadIndexResponseProto) : ofFields proto.fields = some proto := by
  simp [ofFields, fields, textAt, blobAt, numberAt]

end ReadIndexResponseProto

def ResultProto.fields (fields : α → Fields) (arm : ResultProto α) : Fields :=
  optionalField 1 (arm.ok.map fun ok => writeFields (fields ok)) ++
    optionalField 2 (arm.error.map utf8)

def ResultProto.ofFields (ofFields : Fields → Option α) (fields : Fields) :
    Option (ResultProto α) := do
  some { ok := ← messageIn ofFields 1 fields, error := ← optionalTextAt 2 fields }

theorem ResultProto.ofFields_fields {α β : Type} {fields : β → Fields}
    {ofFields : Fields → Option β} {make : α → β}
    (undoes : ∀ value, ofFields (fields (make value)) = some (make value)) (ok : Option α)
    (error : Option String) :
    ResultProto.ofFields ofFields (ResultProto.fields fields ⟨ok.map make, error⟩)
      = some ⟨ok.map make, error⟩ := by
  cases ok <;> cases error <;>
    simp [ResultProto.ofFields, ResultProto.fields, messageIn, optionalTextAt, undoes]

namespace RpcResponseProto

mutual
def fields : RpcResponseProto → Fields
  | .empty => []
  | .appendEntries arm =>
    [(1, .bytes (writeFields (arm.fields AppendEntriesResponseProto.fields)))]
  | .vote arm => [(2, .bytes (writeFields (arm.fields VoteResponseProto.fields)))]
  | .installSnapshot arm =>
    [(3, .bytes (writeFields (arm.fields InstallSnapshotResponseProto.fields)))]
  | .readIndex arm => [(4, .bytes (writeFields (arm.fields ReadIndexResponseProto.fields)))]
  | .batch responses => [(5, .bytes (writeFields (eachField responses)))]

def eachField : List RpcResponseProto → Fields
  | [] => []
  | response :: responses =>
    (1, .bytes (writeFields (fields response))) :: eachField responses

end

def ofFields : Nat → Fields → Option RpcResponseProto
  | 0, _ => none
  | limit + 1, fields =>
    match fields.getLast? with
    | none => some .empty
    | some (1, .bytes held) =>
      (decodeFields (ResultProto.ofFields AppendEntriesResponseProto.ofFields) held).map
        .appendEntries
    | some (2, .bytes held) =>
      (decodeFields (ResultProto.ofFields VoteResponseProto.ofFields) held).map .vote
    | some (3, .bytes held) =>
      (decodeFields (ResultProto.ofFields InstallSnapshotResponseProto.ofFields) held).map
        .installSnapshot
    | some (4, .bytes held) =>
      (decodeFields (ResultProto.ofFields ReadIndexResponseProto.ofFields) held).map .readIndex
    | some (5, .bytes held) =>
      (decodeFields (messagesAt (ofFields limit) 1) held).map .batch
    | some _ => none

theorem eachField_eq : ∀ responses : List RpcResponseProto, eachField responses
      = responses.map fun response => (1, Field.bytes (writeFields response.fields)) :=
  eq_map rfl fun _ _ => rfl

theorem ofResponses_eq : ∀ responses, ofResponses responses = responses.map ofResponse :=
  eq_map rfl fun _ _ => rfl

theorem eachLevels_eq : ∀ responses, eachLevels responses = responses.map levels :=
  eq_map rfl fun _ _ => rfl

end RpcResponseProto

theorem levels_lt_responses {response : TcpRaftTransportResponse}
    {responses : List TcpRaftTransportResponse} (member : response ∈ responses) :
    (RpcResponseProto.ofResponse response).levels
      < (RpcResponseProto.ofResponse (.batch responses)).levels := by
  refine lt_trans (lt_above ?_) (lt_above mem_cons_self)
  rw [RpcResponseProto.eachLevels_eq, RpcResponseProto.ofResponses_eq, map_map]
  exact mem_map_of_mem member

namespace RpcResponseProto

/-- **A response reads back** where its levels are within the limit. -/
theorem ofFields_fields (limit : Nat) (response : TcpRaftTransportResponse)
    (nested : (ofResponse response).levels < limit) : ofFields limit (ofResponse response).fields
      = some (.ofResponse response) := by
  induction limit generalizing response with
  | zero => omega
  | succ limit ih =>
    cases response with
    | appendEntries =>
      exact map_decodeFields
        (ResultProto.ofFields_fields AppendEntriesResponseProto.ofFields_fields _ _) _
    | vote =>
      exact map_decodeFields (ResultProto.ofFields_fields (fun value =>
        VoteResponseProto.ofFields_fields (.ofResponse value)) _ _) _
    | installSnapshot =>
      exact map_decodeFields (ResultProto.ofFields_fields (fun value =>
        InstallSnapshotResponseProto.ofFields_fields (.ofResponse value)) _ _) _
    | readIndex =>
      exact map_decodeFields (ResultProto.ofFields_fields (fun value =>
        ReadIndexResponseProto.ofFields_fields (.ofResponse value)) _ _) _
    | batch responses =>
      have inside := @mapM_decodeFields _ _ _ _ _ responses fun response member =>
        ih response (by have := levels_lt_responses member; omega)
      refine map_decodeFields ?_ _
      rw [eachField_eq, ofResponses_eq, messagesAt,
        bytesAt_messages, if_pos rfl, map_map]
      exact inside

end RpcResponseProto

/-! ## The library in this format -/

namespace EnvelopeProto

def fields (proto : EnvelopeProto) : Fields :=
  numberField 1 proto.clusterId ++ optionalField 2 (proto.userPayload.map utf8) ++
    optionalField 3 (proto.request.map fun request => writeFields request.fields)

def ofFields (fields : Fields) : Option EnvelopeProto := do
  some
    { clusterId := numberAt 1 fields, userPayload := ← optionalTextAt 2 fields
      request := ← messageIn (RpcRequestProto.ofFields recursionLimit) 3 fields }

theorem ofFields_fields (envelope : TcpRaftTransportEnvelope)
    (nested : (ofEnvelope envelope).levels ≤ recursionLimit) :
    ofFields (ofEnvelope envelope).fields = some (.ofEnvelope envelope) := by
  obtain ⟨clusterId, userPayload, request⟩ := envelope
  have within : (RpcRequestProto.ofRequest request).levels < recursionLimit :=
    (lt_above mem_cons_self).trans_le nested
  cases userPayload <;>
    simp [ofFields, fields, ofEnvelope, optionalTextAt,
      messageIn, numberAt, RpcRequestProto.ofFields_fields _ request within]

end EnvelopeProto

def protobufRpc : Prost where
  encodeEnvelope proto := writeFields proto.fields
  decodeEnvelope input :=
    match decodeFields EnvelopeProto.ofFields input with
    | some proto => .ok proto
    | none => .error "failed to decode Protobuf message"
  encodeResponse proto := writeFields proto.fields
  decodeResponse input :=
    match decodeFields (RpcResponseProto.ofFields (recursionLimit + 1)) input with
    | some proto => .ok proto
    | none => .error "failed to decode Protobuf message"

theorem protobufRpc_lawful : protobufRpc.Lawful where
  envelope value nested := by
    simp only [protobufRpc, decodeFields_writeFields, EnvelopeProto.ofFields_fields value nested]
  response value nested := by
    simp only [protobufRpc, decodeFields_writeFields,
      RpcResponseProto.ofFields_fields _ value (Nat.lt_succ_of_le nested)]

end MatrixRaft.Rpc
