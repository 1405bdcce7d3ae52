/-
# Peer.Stream — checkpoints on their way between peers

A checkpoint that does not fit a packet travels in fragments: one outgoing and one
incoming transfer at a time.  An incoming payload file is completed by a worker, whose
result is taken up at a later poll.
-/
import MatrixRaft.Peer.Raw

namespace MatrixRaft.Peer
open Theory

namespace Fragment

def validate (fragment : Fragment) (options : PeerOptions) (term : Nat) : Except PeerError Unit :=
  let bound := if fragment.fileBacked then maxFileBytes + 8192 else snapshotEncodedLimit
  if fragment.to ≠ options.nodeId ∨ fragment.from = fragment.to ∨ fragment.from ∉ options.voters ∨
      fragment.term < term ∨ fragment.term = 0 ∨ u64Max ≤ fragment.term ∨ fragment.index = 0 ∨
      u64Max ≤ fragment.index ∨ fragment.total = 0 ∨ fragment.total > bound ∨
      fragment.offset > fragment.total then
    .error (.invalid .fragmentIdentity)
  else if fragment.ack then
    if fragment.data ≠ [] then .error (.invalid .ackData) else .ok ()
  else if fragment.offset = fragment.total ∨ fragment.offset % snapshotFragmentBytes ≠ 0 ∨
      fragment.data.length ≠ min (fragment.total - fragment.offset) snapshotFragmentBytes then
    .error (.invalid .fragmentExtent)
  else .ok ()

def sameStream (fragment other : Fragment) : Prop :=
  fragment.from = other.from ∧ fragment.to = other.to ∧ fragment.term = other.term ∧
    fragment.index = other.index ∧ fragment.total = other.total ∧
    fragment.checksum = other.checksum ∧ fragment.fileBacked = other.fileBacked

instance (fragment other : Fragment) : Decidable (fragment.sameStream other) :=
  inferInstanceAs (Decidable (_ ∧ _))

def identity (fragment : Fragment) : Fragment := { fragment with data := [], offset := 0 }

def acknowledgment (fragment : Fragment) (offset : Nat) : Fragment :=
  { fragment.identity with «from» := fragment.to, «to» := fragment.from, offset := offset, ack := true }

end Fragment

/-- Where the bytes of an outgoing checkpoint come from. -/
inductive Source where
  | memory (bytes : Bytes)
  /-- The envelope before the payload, and the payload file as it was opened. -/
  | file (envelope content : Bytes) (payload : Blob)
  deriving DecidableEq

def Source.len : Source → Nat
  | .memory bytes => bytes.length
  | .file envelope _ payload => envelope.length + payload.manifest.length

def Source.fragment (source : Source) (offset size : Nat) : Except PeerError Bytes :=
  match source with
  | .memory bytes => .ok ((bytes.drop offset).take size)
  | .file envelope content _ =>
    let part := ((envelope ++ content).drop offset).take size
    if part.length < size then .error (.storage .io) else .ok part

structure Sending where
  identity : Fragment
  bytes : Source
  (offset ticks idle : Nat)
  ready : Bool
  deriving DecidableEq

structure Receiving where
  identity : Fragment
  file : Bytes
  idle : Nat
  deriving DecidableEq

/-- A received payload file that a worker completes. -/
structure Finishing where
  identity : Fragment
  receiving : Receiving
  deriving DecidableEq

structure Stream where
  permitted : List Nat
  receivedPayload : Option Blob
  sending : Option Sending
  receiving : Option Receiving
  finishing : Option Finishing
  (completed ack : Option Fragment)
  deriving DecidableEq

abbrev StreamM (α : Type) := Attempt Stream PeerError α

variable (transport : Transport)

namespace Stream

def new (permitted : List Nat) : Stream where
  permitted := permitted
  receivedPayload := none
  sending := none
  receiving := none
  finishing := none
  completed := none
  ack := none

variable (stream : Stream)

def sendingTo (peer : Nat) : Bool :=
  stream.sending.any fun sending => sending.identity.to = peer

def completedSend (peer : Nat) (stream : Stream) : Stream :=
  if stream.sendingTo peer then { stream with sending := none } else stream

/-! ## Sending -/

def opening (message : Message) (source : Source) (checksum : UInt64) (fileBacked : Bool) : Sending where
  identity :=
    { «from» := message.from, «to» := message.to, term := message.term
      index := message.getSnapshot.getMetadata.index
      total := source.len, checksum := checksum, offset := 0, data := [], ack := false
      fileBacked := fileBacked }
  bytes := source
  offset := 0
  ticks := 0
  idle := 0
  ready := true

def carries (sending : Sending) (message : Message) : Bool :=
  sending.identity.to = message.to ∧ sending.identity.term = message.term ∧
    sending.identity.index = message.getSnapshot.getMetadata.index

def start (message : Message) : StreamM Bool := fun stream =>
  match stream.sending with
  | some sending => (.ok (carries sending message), stream)
  | none =>
    let bytes := transport.message.encode message
    if bytes.length > snapshotEncodedLimit then (.error (.invalid .transferBound), stream)
    else (.ok true, { stream with
      sending := some (opening message (.memory bytes) (digest bytes) false) })

/-- What stands before the payload: the length and checksum of the message, and the message. -/
def envelope (bytes : Bytes) : Bytes :=
  bigEndian 4 bytes.length ++ bigEndian 8 (digest bytes).toNat ++ bytes

def startFile (directory : Payloads) (message : Message) (payload : Blob) :
    StreamM Bool := fun stream =>
  match stream.sending with
  | some sending => (.ok (carries sending message && sending.identity.fileBacked), stream)
  | none =>
    let bytes := transport.message.encode message
    if message.getSnapshot.data ≠ [] then (.error (.invalid .transferInline), stream)
    else if bytes.length > 4096 then (.error (.invalid .transferMetadata), stream)
    else match directory payload.manifest.name with
      | none => (.error (.storage .io), stream)
      | some content => (.ok true, { stream with
          sending := some (opening message (.file (envelope bytes) content payload)
            payload.manifest.checksum true) })

def tickSending (term : Nat) (leader : Bool) (sending : Sending) : Option Sending :=
  if leader = false ∨ sending.identity.term ≠ term ∨ sending.idle + 1 ≥ 100 then none
  else if sending.ticks + 1 ≥ 10 then
    some { sending with ticks := 0, idle := sending.idle + 1, ready := true }
  else some { sending with ticks := sending.ticks + 1, idle := sending.idle + 1 }

def tickReceiving (term : Nat) (receiving : Receiving) : Option Receiving :=
  if receiving.identity.term < term ∨ receiving.idle + 1 ≥ 100 then none
  else some { receiving with idle := receiving.idle + 1 }

def tick (term : Nat) (leader : Bool) (stream : Stream) : Stream :=
  { stream with
    sending := stream.sending.bind (tickSending term leader)
    receiving := stream.receiving.bind (tickReceiving term)
    completed := stream.completed.filter fun fragment => ¬ fragment.term < term
    ack := stream.ack.filter fun fragment => ¬ fragment.term < term }

variable (part : Fragment)

/-- Take an acknowledgment: whether it ends the transfer. -/
def acknowledge (stream : Stream) : Bool × Stream :=
  match stream.sending with
  | none => (false, stream)
  | some sending =>
    let next := min (sending.offset + snapshotFragmentBytes) sending.bytes.len
    if ¬ (sending.identity.acknowledgment 0).sameStream part then (false, stream)
    else if part.offset = sending.bytes.len then (true, { stream with sending := none })
    else if part.offset = next then
      (false, { stream with
        sending := some { sending with offset := next, idle := 0, ticks := 0, ready := true } })
    else if part.offset = 0 ∧ sending.offset ≠ 0 then
      -- the receiver restarted or discarded an expired partial transfer
      (false, { stream with sending := some { sending with offset := 0, ready := true, ticks := 0 } })
    else (false, stream)

def dueAck : List Fragment := stream.ack.toList

def dueFragment : Except PeerError (List Fragment) :=
  match stream.sending with
  | none => .ok []
  | some sending =>
    if sending.ready then
      let stop := min (sending.offset + snapshotFragmentBytes) sending.bytes.len
      (sending.bytes.fragment sending.offset (stop - sending.offset)).map fun data =>
        [{ sending.identity with offset := sending.offset, data := data }]
    else .ok []

def sent : Stream :=
  { stream with ack := none, sending := stream.sending.map fun sending => { sending with ready := false } }

/-! ## Receiving -/

def complete (wire : Wire) (part : Fragment) (message : Message) (payload : Option Blob)
    (voters : List Nat) : StreamM (Option Message) := fun stream =>
  let metadata := message.getSnapshot.getMetadata
  if message.getMsgType ≠ .msgSnapshot ∨ message.from ≠ part.from ∨ message.to ≠ part.to ∨
      message.term ≠ part.term ∨ metadata.index ≠ part.index ∨ metadata.term > message.term ∨
      message.entries ≠ [] then
    (.error (.invalid .transferMismatch), stream)
  else match validateSnapshotFor wire message.getSnapshot voters stream.permitted with
    | .error error => (.error error, stream)
    | .ok () => (.ok (some message), { stream with
        receivedPayload := payload
        completed := some part.identity
        ack := some (part.acknowledgment part.total) })

def inlineMessage (bytes : Bytes) : Except PeerError Message :=
  if digest bytes ≠ part.checksum then .error (.invalid .transferChecksum)
  else match transport.message.decode bytes with
    | none => .error (.invalid .malformed)
    | some message =>
      if transport.message.encode message ≠ bytes then .error (.invalid .transferNoncanonical)
      else .ok message

def joined (stream : Stream) : Except PeerError (Option Receiving) :=
  match stream.receiving with
  | some receiving =>
    if receiving.identity.sameStream part then .ok (some receiving)
    else if part.term < receiving.identity.term ∨ (part.term = receiving.identity.term ∧
        (part.from ≠ receiving.identity.from ∨ part.index ≤ receiving.identity.index)) then
      .error (.invalid .transferConflict)
    else if part.offset ≠ 0 then .ok none
    else .ok (some { identity := part.identity, file := [], idle := 0 })
  | none =>
    if part.offset ≠ 0 then .ok none
    else .ok (some { identity := part.identity, file := [], idle := 0 })

def staged (receiving : Receiving) : Except PeerError Receiving :=
  if part.offset = receiving.file.length then
    .ok { receiving with file := receiving.file ++ part.data, idle := 0 }
  else if part.offset < receiving.file.length then
    let saved := (receiving.file.drop part.offset).take part.data.length
    if saved.length < part.data.length then .error (.storage .io)
    else if saved ≠ part.data then .error (.invalid .transferDuplicate)
    else .ok { receiving with idle := 0 }
  else .ok { receiving with idle := 0 }

/-- What a failed comparison leaves: the transfer, unless its file could not be read. -/
def afterStaging (error : PeerError) (receiving : Receiving) (stream : Stream) : Stream :=
  { stream with
    ack := none
    receiving := if error = .storage .io then none else some { receiving with idle := 0 } }

/-- A transfer that has all its bytes. -/
def arrived (wire : Wire) (transport : Transport) (part : Fragment) (voters : List Nat)
    (receiving : Receiving) : StreamM (Option Message) := fun stream =>
  let stream := { stream with ack := none, receiving := none }
  if part.fileBacked then
    (.ok none, { stream with finishing := some { identity := part.identity, receiving := receiving } })
  else match inlineMessage transport part receiving.file with
    | .error error => (.error error, stream)
    | .ok message => complete wire part message none voters stream

def receive (wire : Wire) (transport : Transport) (part : Fragment) (voters : List Nat) :
    StreamM (Option Message) := fun stream =>
  if stream.finishing ≠ none then (.ok none, stream)
  else if (stream.completed.any fun completed => completed.sameStream part) then
    (.ok none, { stream with ack := some (part.acknowledgment part.total) })
  else match stream.joined part with
    | .error error => (.error error, stream)
    | .ok none => (.ok none, { stream with ack := some (part.acknowledgment 0) })
    | .ok (some receiving) =>
      match staged part receiving with
      | .error error => (.error error, stream.afterStaging error receiving)
      | .ok receiving =>
        if receiving.file.length ≠ part.total then
          (.ok none, { stream with
            receiving := some receiving
            ack := some (part.acknowledgment receiving.file.length) })
        else arrived wire transport part voters receiving stream

end Stream

/-! ## Completing a payload file -/

def Blob.capture (name : Payloads → Bytes) (directory : Payloads) (content : Bytes) (length : Nat) :
    Except PeerError (Blob × Payloads) :=
  if length > maxFileBytes ∨ length > u64Max - 8192 then .error (.invalid .fileBound)
  else if content.length < length then .error (.storage .io)
  else if content.length > length then .error (.invalid .payloadExtra)
  else
    let fresh := name directory
    let manifest : Manifest :=
      { version := 1, name := fresh, length := content.length, checksum := digest content }
    manifest.validate.map fun _ =>
      ({ manifest := manifest }, fun file => if file = fresh then some content else directory file)

def envelopeMessage (file : Bytes) : Except PeerError (Message × Nat) :=
  if file.length < 12 then .error (.storage .io)
  else
    let length := ofBigEndian (file.take 4)
    if length = 0 ∨ length > 4096 ∨ length + 12 > file.length then .error (.invalid .envelopeInvalid)
    else
      let bytes := (file.drop 12).take length
      if (digest bytes).toNat ≠ ofBigEndian ((file.drop 4).take 8) then
        .error (.invalid .envelopeChecksum)
      else match transport.message.decode bytes with
        | none => .error (.invalid .malformed)
        | some message =>
          if transport.message.encode message ≠ bytes ∨ message.getSnapshot.data ≠ [] then
            .error (.invalid .envelopeEncoding)
          else .ok (message, length)

def Receiving.finishFile (name : Payloads → Bytes) (directory : Payloads)
    (receiving : Receiving) : Except PeerError (Message × Blob × Payloads) :=
  if receiving.file.length ≠ receiving.identity.total then .error (.storage .transferLength)
  else do
    let (message, length) ← envelopeMessage transport receiving.file
    let (payload, directory) ← Blob.capture name directory (receiving.file.drop (12 + length))
      (receiving.file.length - length - 12)
    if payload.manifest.checksum ≠ receiving.identity.checksum then .error (.invalid .fileChecksum)
    else pure (message, payload, directory)

def Stream.pollFinished (wire : Wire) (transport : Transport) (name : Payloads → Bytes) (done : Bool)
    (term : Nat) (voters : List Nat) (directory : Payloads) (stream : Stream) :
    Except PeerError (Option Message) × Payloads × Stream :=
  match stream.finishing with
  | none => (.ok none, directory, stream)
  | some finishing =>
    let stream' := { stream with finishing := none }
    if done = false then (.ok none, directory, stream)
    else if finishing.identity.term < term then (.ok none, directory, stream')
    else match finishing.receiving.finishFile transport name directory with
      | .error error => (.error error, directory, stream')
      | .ok (message, payload, directory) =>
        match complete wire finishing.identity message (some payload) voters stream' with
        | (outcome, stream) => (outcome, directory, stream)

end MatrixRaft.Peer
