/-
# Rpc.Stream — messages of two shapes on one connection

A peer sends frames, or one JSON object a line; `read_rpc_message` tells them apart by their
first byte and takes exactly one of them from the connection.
-/
import MatrixRaft.Rpc.Format

namespace MatrixRaft.Rpc
open Theory List

/-! ## Reading a connection -/

def readLine : Bytes → Bytes × Bytes
  | [] => ([], [])
  | byte :: rest =>
    if byte = 10 then ([byte], rest)
    else (byte :: (readLine rest).1, (readLine rest).2)

/-- `read_rpc_message` on the bytes a connection still holds; nothing where the peer has closed it. -/
def readRpcMessage (stream : Bytes) : Except RaftError (Option Bytes × Bytes) :=
  match stream.head? with
  | none => .ok (none, [])
  | some first =>
    if some first ≠ rpcMagic.head? then
      let (line, rest) := readLine stream
      if (String.fromUTF8? ⟨line.toArray⟩).isSome then .ok (some line, rest)
      else .error (.transport (.rpcReadFailed "stream did not contain valid UTF-8"))
    else if stream.length < rpcHeadBytes then
      .error (.transport (.rpcFrameReadFailed "failed to fill whole buffer"))
    else match framedRpcLen (stream.take rpcHeadBytes) with
      | none => .error (.transport .rpcMagicWithoutFrame)
      | some total =>
        if stream.length < total then
          .error (.transport (.rpcFrameReadFailed "failed to fill whole buffer"))
        else .ok (some (stream.take total), stream.drop total)

def readMessages : Nat → Bytes → Except RaftError (Option (List Bytes))
  | 0, _ => .ok none
  | calls + 1, stream => do
    match ← readRpcMessage stream with
    | (none, _) => return some []
    | (some message, rest) => return (← readMessages calls rest).map (message :: ·)

/-! ## Messages -/

structure SerdeJson where
  envelope : TcpRaftTransportEnvelope → String
  response : TcpRaftTransportResponse → String

def OneLineObject (text : String) : Prop := (utf8 text).head? = some 123 ∧ 10 ∉ utf8 text

/-- Both are written as objects without a line break. -/
structure SerdeJson.Lawful (json : SerdeJson) : Prop where
  envelope : ∀ envelope, OneLineObject (json.envelope envelope)
  response : ∀ response, OneLineObject (json.response response)

def jsonLine (text : String) : Bytes := utf8 (text ++ "\n")

/-- What a peer sends as one message. -/
inductive Sent (prost : Prost) (json : SerdeJson) : Bytes → Prop where
  | framedEnvelope {envelope : TcpRaftTransportEnvelope} {bytes : Bytes}
      (wrote : encodeRpcEnvelope prost envelope = .ok bytes) : Sent prost json bytes
  | framedResponse {response : TcpRaftTransportResponse} {bytes : Bytes}
      (wrote : encodeRpcResponse prost response = .ok bytes) : Sent prost json bytes
  | jsonEnvelope (envelope : TcpRaftTransportEnvelope) :
      Sent prost json (jsonLine (json.envelope envelope))
  | jsonResponse (response : TcpRaftTransportResponse) :
      Sent prost json (jsonLine (json.response response))

/-! ## One message -/

theorem readLine_line {line : Bytes} (whole : 10 ∉ line) (rest : Bytes) :
    readLine (line ++ 10 :: rest) = (line ++ [10], rest) := by
  induction line with
  | nil => rfl
  | cons byte line ih =>
    have other : byte ≠ 10 := fun same => whole (by simp [same])
    have later := ih fun member => whole (mem_cons_of_mem _ member)
    rw [cons_append, readLine, if_neg other, later]
    rfl

theorem readRpcMessage_framed {body : Bytes} (short : body.length < 2 ^ 32) (rest : Bytes) :
    readRpcMessage (framed body ++ rest) = .ok (some (framed body), rest) := by
  have size := length_framed body
  unfold readRpcMessage
  show (if some 77 ≠ rpcMagic.head? then _ else _) = _
  rw [if_neg (by decide), if_neg (by rw [length_append]; omega), framedRpcLen_framed short rest]
  simp

theorem readRpcMessage_line {text : String} (object : OneLineObject text) (rest : Bytes) :
    readRpcMessage (jsonLine text ++ rest) = .ok (some (jsonLine text), rest) := by
  obtain ⟨brace, whole⟩ := object
  have split : jsonLine text = utf8 text ++ [10] := by rfl
  have first : (jsonLine text ++ rest).head? = some 123 := by simp [split, brace]
  have line : readLine (jsonLine text ++ rest) = (jsonLine text, rest) := by
    rw [split, append_assoc]
    exact readLine_line whole rest
  have valid : (String.fromUTF8? ⟨(jsonLine text).toArray⟩).isSome := by
    rw [jsonLine, fromUTF8_utf8]
    rfl
  unfold readRpcMessage
  rw [first]
  dsimp only
  rw [if_pos (by decide), line]
  grind

/-- **One message.** It is taken whole, and nothing of what follows it. -/
theorem readRpcMessage_append {prost : Prost} {json : SerdeJson} (lawful : json.Lawful)
    {message : Bytes} (sent : Sent prost json message) (rest : Bytes) :
    readRpcMessage (message ++ rest) = .ok (some message, rest) := by
  cases sent with
  | framedEnvelope wrote | framedResponse wrote =>
    obtain ⟨short, rfl⟩ := frame_eq_ok wrote
    exact readRpcMessage_framed short rest
  | jsonEnvelope envelope => exact readRpcMessage_line (lawful.envelope envelope) rest
  | jsonResponse response => exact readRpcMessage_line (lawful.response response) rest

/-! ## All of them -/

theorem readMessages_flatten {prost : Prost} {json : SerdeJson} (lawful : json.Lawful)
    {messages : List Bytes} (sent : ∀ message ∈ messages, Sent prost json message) {calls : Nat}
    (enough : messages.length < calls) : readMessages calls messages.flatten = .ok (some messages) := by
  induction messages generalizing calls with
  | nil =>
    obtain ⟨calls, rfl⟩ : ∃ fewer, calls = fewer + 1 := ⟨calls - 1, by simp at enough; omega⟩
    rfl
  | cons message messages ih =>
    obtain ⟨calls, rfl⟩ : ∃ fewer, calls = fewer + 1 := ⟨calls - 1, by omega⟩
    have front := readRpcMessage_append lawful (sent message mem_cons_self) messages.flatten
    have later := ih (fun message member => sent message (mem_cons_of_mem _ member))
      (by simpa using enough)
    rw [flatten_cons, readMessages, front]
    show (readMessages calls messages.flatten >>= _) = _
    rw [later]
    rfl

/-- **RPC messages round trip.** Framed envelopes and responses decode to what they were, and a
connection that carries messages, framed or as JSON lines, is read as exactly those. -/
theorem rpc_messages_round_trip {prost : Prost} (lawful : prost.Lawful) {json : SerdeJson}
    (lines : json.Lawful) :
    (∀ envelope bytes, (EnvelopeProto.ofEnvelope envelope).levels ≤ recursionLimit →
      encodeRpcEnvelope prost envelope = .ok bytes → decodeRpcEnvelope prost bytes = .ok envelope ∧
        framedRpcLen (bytes.take rpcHeadBytes) = some bytes.length) ∧
    (∀ response bytes, (RpcResponseProto.ofResponse response).levels ≤ recursionLimit →
      encodeRpcResponse prost response = .ok bytes → decodeRpcResponse prost bytes = .ok response ∧
        framedRpcLen (bytes.take rpcHeadBytes) = some bytes.length) ∧
    ∀ messages, (∀ message ∈ messages, Sent prost json message) →
      ∀ calls, messages.length < calls → readMessages calls messages.flatten = .ok (some messages) := by
  have head : ∀ {body bytes : Bytes}, frame body = .ok bytes →
      framedRpcLen (bytes.take rpcHeadBytes) = some bytes.length := by
    intro body bytes wrote
    obtain ⟨short, rfl⟩ := frame_eq_ok wrote
    have told := framedRpcLen_framed short []
    rwa [List.append_nil] at told
  refine ⟨?_, ?_, ?_⟩
  · intro envelope bytes nested wrote
    exact ⟨decodeRpcEnvelope_encode lawful nested wrote, head wrote⟩
  · intro response bytes nested wrote
    exact ⟨decodeRpcResponse_encode lawful nested wrote, head wrote⟩
  · intro messages sent calls enough
    exact readMessages_flatten lines sent enough

def nestedBatch : TcpRaftTransportEnvelope where
  clusterId := 7
  userPayload := some ""
  request := .batch
    [.vote 2 ⟨1, 3, 1, some ⟨2, 9⟩, true, false⟩, .batch [.readIndex 2 ⟨1, 1, 0, true⟩, .batch []],
      .appendEntries 3 ⟨1, 3, 1, none, [⟨⟨3, 10⟩, [10, 77], true⟩], 9, 0⟩]

def bareObjects : SerdeJson := ⟨fun _ => "\x7b\x7d", fun _ => "\x7b\x7d"⟩

theorem nested_batch_round_trips : ∃ bytes, encodeRpcEnvelope protobufRpc nestedBatch = .ok bytes ∧
      decodeRpcEnvelope protobufRpc bytes = .ok nestedBatch ∧
      framedRpcLen (bytes.take rpcHeadBytes) = some bytes.length ∧
      readMessages 4 [bytes, jsonLine (bareObjects.envelope nestedBatch), bytes].flatten
        = .ok (some [bytes, jsonLine (bareObjects.envelope nestedBatch), bytes]) := by
  have bare : OneLineObject "\x7b\x7d" := ⟨by decide +kernel, by decide +kernel⟩
  have objects : bareObjects.Lawful := ⟨fun _ => bare, fun _ => bare⟩
  obtain ⟨envelopes, -, stream⟩ := rpc_messages_round_trip protobufRpc_lawful objects
  have wrote : encodeRpcEnvelope protobufRpc nestedBatch
      = .ok (framed (protobufRpc.encodeEnvelope (.ofEnvelope nestedBatch))) := by
    rw [encodeRpcEnvelope, frame, if_neg (by decide +kernel)]
  obtain ⟨decoded, head⟩ := envelopes nestedBatch _ (by decide +kernel) wrote
  refine ⟨_, wrote, decoded, head, stream _ ?_ 4 (by decide)⟩
  intro message member
  simp only [List.mem_cons, List.not_mem_nil, or_false] at member
  rcases member with rfl | rfl | rfl
  · exact .framedEnvelope wrote
  · exact .jsonEnvelope nestedBatch
  · exact .framedEnvelope wrote

end MatrixRaft.Rpc
