/-
# Peer.Link — a checkpoint sent over a link that loses and repeats

One peer sends checkpoints and another receives them.  Whatever was put on the link can
be delivered in any order, any number of times or never; both ends expire and restart.
-/
import MatrixRaft.Peer.Stream

namespace MatrixRaft.Peer
open Theory MatrixRaft.Peer.Stream

/-! ## Streams by their identity -/

namespace Fragment

/-- What tells one stream from another. -/
def key (part : Fragment) : Nat × Nat × Nat × Nat × Nat × UInt64 × Bool :=
  (part.from, part.to, part.term, part.index, part.total, part.checksum, part.fileBacked)

theorem sameStream_iff (part other : Fragment) : part.sameStream other ↔ part.key = other.key := by
  simp only [sameStream, key, Prod.mk.injEq]

@[simp] theorem key_identity (part : Fragment) : part.identity.key = part.key := rfl

theorem key_eq_of_acknowledgment {part other : Fragment}
    (same : (part.acknowledgment 0).key = (other.acknowledgment 0).key) : part.key = other.key := by
  simp only [key, acknowledgment, identity, Prod.mk.injEq] at same ⊢
  grind

end Fragment

def Source.all : Source → Bytes
  | .memory bytes => bytes
  | .file envelope content _ => envelope ++ content

theorem Source.fragment_eq {source : Source} {offset size : Nat} {data : Bytes}
    (read : source.fragment offset size = .ok data) : data = (source.all.drop offset).take size := by
  cases source with
  | memory => exact (Except.ok.inj read).symm
  | file =>
    simp only [Source.fragment] at read
    split at read
    · cases read
    · exact (Except.ok.inj read).symm

theorem mem_dueFragment {stream : Stream} {parts : List Fragment} {part : Fragment}
    (due : stream.dueFragment = .ok parts) (member : part ∈ parts) :
    ∃ sending ∈ stream.sending, ∃ size data, sending.bytes.fragment sending.offset size = .ok data ∧
      part = { sending.identity with offset := sending.offset, data := data } := by
  unfold dueFragment at due
  split at due
  · cases due
    cases member
  split at due
  · obtain ⟨data, read, rfl⟩ := Checks.map_eq_ok due
    grind
  · cases due
    cases member

/-! ## What one fragment does -/

section Receive
variable {wire : Wire} {transport : Transport} {part : Fragment} {voters : List Nat} {stream : Stream}

inductive Received (wire : Wire) (transport : Transport) (part : Fragment) (voters : List Nat)
    (stream : Stream) : Except PeerError (Option Message) → Stream → Prop
  /-- A stream is being completed, or the fragment conflicts with the one under way. -/
  | refused (outcome : Except PeerError (Option Message))
      (nothing : ∀ message, outcome ≠ .ok (some message))
      (reason : stream.finishing ≠ none ∨ ∃ error, outcome = .error error) :
      Received wire transport part voters stream outcome stream
  | again (completed : Fragment) (member : completed ∈ stream.completed)
      (same : completed.sameStream part) :
      Received wire transport part voters stream (.ok none)
        { stream with ack := some (part.acknowledgment part.total) }
  | restart (later : part.offset ≠ 0)
      (unknown : ∀ receiving ∈ stream.receiving, ¬ receiving.identity.sameStream part) :
      Received wire transport part voters stream (.ok none)
        { stream with ack := some (part.acknowledgment 0) }
  | conflict (error : PeerError) (receiving : Receiving) (joined : stream.joined part = .ok (some receiving)) :
      Received wire transport part voters stream (.error error) (stream.afterStaging error receiving)
  | staged (receiving next : Receiving) (joined : stream.joined part = .ok (some receiving))
      (staged : Stream.staged part receiving = .ok next) (short : next.file.length ≠ part.total) :
      Received wire transport part voters stream (.ok none) { stream with
          receiving := some next, ack := some (part.acknowledgment next.file.length) }
  | arrived (receiving next : Receiving) (joined : stream.joined part = .ok (some receiving))
      (staged : Stream.staged part receiving = .ok next) (whole : next.file.length = part.total)
      (idle : stream.finishing = none) :
      Received wire transport part voters stream
        (arrived wire transport part voters next stream).1
        (arrived wire transport part voters next stream).2

theorem joined_none {part : Fragment} {stream : Stream} (joined : stream.joined part = .ok none) :
    part.offset ≠ 0 ∧ ∀ receiving ∈ stream.receiving, ¬ receiving.identity.sameStream part := by
  unfold Stream.joined at joined
  split at joined
  · grind
  · grind

theorem joined_some {receiving : Receiving} (joined : stream.joined part = .ok (some receiving)) :
    (receiving ∈ stream.receiving ∧ receiving.identity.sameStream part) ∨
      (part.offset = 0 ∧ receiving = { identity := part.identity, file := [], idle := 0 } ∧
        ∀ other ∈ stream.receiving, ¬ other.identity.sameStream part) := by
  unfold Stream.joined at joined
  split at joined
  · split at joined
    · grind
    · grind
  · grind

theorem staged_ok {receiving next : Receiving} (staged : Stream.staged part receiving = .ok next) :
    next.identity = receiving.identity ∧
      ((part.offset = receiving.file.length ∧ next.file = receiving.file ++ part.data) ∨
        (part.offset ≠ receiving.file.length ∧ next.file = receiving.file)) := by
  unfold Stream.staged at staged
  split at staged
  · grind
  · grind

theorem receive_received (wire : Wire) (transport : Transport) (part : Fragment) (voters : List Nat)
    (stream : Stream) : Received wire transport part voters stream
      (receive wire transport part voters stream).1
      (receive wire transport part voters stream).2 := by
  unfold receive
  split
  · exact .refused _ (by simp) (.inl ‹_›)
  rename_i idle
  split
  · rename_i known
    obtain ⟨completed, member, same⟩ := (Option.any_eq_true _ _).mp known
    exact .again completed member (of_decide_eq_true same)
  · split
    · exact .refused _ (by simp) (.inr ⟨_, rfl⟩)
    · rename_i joined
      exact .restart (joined_none joined).1 (joined_none joined).2
    · rename_i receiving joined
      split
      · exact .conflict _ receiving joined
      rename_i next staged
      split
      · exact .staged receiving next joined staged ‹_›
      · exact .arrived receiving next joined staged (of_not_not ‹_›) (of_not_not idle)

end Receive

/-! ## Both ends and the link -/

/-- A transfer the sender opened: its identity and bytes, and what they carry. -/
structure Carried where
  identity : Fragment
  source : Source
  message : Message
  content : Option Bytes
  deriving DecidableEq

structure Handed where
  identity : Fragment
  message : Message
  content : Option Bytes
  deriving DecidableEq

structure Link where
  (sender receiver : Stream)
  directory : Payloads
  /-- All the sender put on the link, and all the receiver did. -/
  (parts acks : List Fragment)
  started : List Carried
  handed : List Handed
  validated : List Fragment
  /-- The streams the sender finished on an acknowledgment. -/
  finished : List Fragment

inductive LinkEvent where
  | start (message : Message)
  | startFile (files : Payloads) (message : Message) (payload : Blob)
  | abandon (peer : Nat)
  | senderTick (term : Nat) (leader : Bool)
  | receiverTick (term : Nat) (leader : Bool)
  | emit | emitAcks
  /-- What the sender sent reaches the receiver, for the first time or again. -/
  | deliver (place term : Nat)
  /-- What the receiver sent reaches the sender, for the first time or again. -/
  | acknowledge (place term : Nat)
  | poll (done : Bool) (term : Nat)
  | restartSender | restartReceiver

/-- What a poll for packets puts on the link. -/
def Stream.emit (stream : Stream) : List Fragment × Stream :=
  match stream.dueFragment with
  | .error _ => ([], { stream with ack := none })
  | .ok parts => (stream.dueAck ++ parts, stream.sent)

structure Ends where
  wire : Wire
  transport : Transport
  (senderOptions receiverOptions : PeerOptions)
  permitted : List Nat
  name : Payloads → Bytes

namespace Link
variable (ends : Ends)

def fresh (directory : Payloads) : Link where
  sender := .new ends.permitted
  receiver := .new ends.permitted
  directory := directory
  parts := []
  acks := []
  started := []
  handed := []
  validated := []
  finished := []

variable (link : Link)

def opens (sender : Stream) (message : Message) (content : Option Bytes) : Link :=
  { link with
    sender := sender
    started := link.started ++
      match link.sender.sending, sender.sending with
      | none, some sending => [⟨sending.identity, sending.bytes, message, content⟩]
      | _, _ => [] }

def hands (outcome : Except PeerError (Option Message)) (directory : Payloads)
    (receiver : Stream) : Link :=
  match outcome, receiver.completed with
  | .ok (some message), some completed => { link with
      receiver := receiver
      directory := directory
      handed := link.handed ++ [⟨completed, message,
        receiver.receivedPayload.bind fun payload => directory payload.manifest.name⟩]
      validated := link.validated ++ [completed] }
  | _, _ => { link with receiver := receiver, directory := directory }

def delivers (part : Fragment) (term : Nat) : Link :=
  match part.validate ends.receiverOptions term with
  | .error _ => link
  | .ok () =>
    if part.ack then { link with receiver := (link.receiver.acknowledge part).2 }
    else
      let (outcome, receiver) := receive ends.wire ends.transport part
        ends.receiverOptions.voters link.receiver
      link.hands outcome link.directory receiver

def acknowledges (part : Fragment) (term : Nat) : Link :=
  match part.validate ends.senderOptions term with
  | .error _ => link
  | .ok () =>
    if part.ack then
      { link with
        sender := (link.sender.acknowledge part).2
        finished := link.finished ++
          if (link.sender.acknowledge part).1 then
            link.sender.sending.toList.map fun sending => sending.identity
          else [] }
    else link

def step : LinkEvent → Link
  | .start message => link.opens (start ends.transport message link.sender).2 message none
  | .startFile files message payload =>
    link.opens (startFile ends.transport files message payload link.sender).2 message
      (files payload.manifest.name)
  | .abandon peer => { link with sender := link.sender.completedSend peer }
  | .senderTick term leader => { link with sender := link.sender.tick term leader }
  | .receiverTick term leader => { link with receiver := link.receiver.tick term leader }
  | .emit => { link with sender := link.sender.emit.2, parts := link.parts ++ link.sender.emit.1 }
  | .emitAcks =>
    { link with receiver := link.receiver.emit.2, acks := link.acks ++ link.receiver.emit.1 }
  | .deliver place term =>
    match link.parts[place]? with
    | none => link
    | some part => link.delivers ends part term
  | .acknowledge place term =>
    match link.acks[place]? with
    | none => link
    | some part => link.acknowledges ends part term
  | .poll done term =>
    let (outcome, directory, receiver) := link.receiver.pollFinished ends.wire ends.transport
      ends.name done term ends.receiverOptions.voters link.directory
    link.hands outcome directory receiver
  | .restartSender => { link with sender := .new ends.permitted }
  | .restartReceiver => { link with receiver := .new ends.permitted }

def run (events : List LinkEvent) : Link := events.foldl (step ends) link

end Link

def LinkEvent.Honest : LinkEvent → Prop
  | .startFile files _ payload => ∀ content, files payload.manifest.name = some content →
      content.length = payload.manifest.length
  | _ => True

/-- Streams with one identity are one stream. -/
def CollisionFree (started : List Carried) : Prop :=
  ∀ carried ∈ started, ∀ other ∈ started, carried.identity.key = other.identity.key →
    carried.source.all = other.source.all

instance (started : List Carried) : Decidable (CollisionFree started) :=
  decidable_of_iff (started.all fun carried => started.all fun other =>
    decide (carried.identity.key = other.identity.key → carried.source.all = other.source.all))
    (by simp only [CollisionFree, List.all_eq_true, decide_eq_true_eq])

def pairedEnds : Ends where
  wire := protobuf
  transport := protobufTransport
  senderOptions := { groupId := 17, nodeId := 1, voters := [1, 2, 3] }
  receiverOptions := { groupId := 17, nodeId := 2, voters := [1, 2, 3] }
  permitted := []
  name := fun _ => blobMark ++ [48]

def checkpointMessage (data : Bytes) : Message :=
  { (default : Message) with
    msgType := MessageType.msgSnapshot.number, «from» := 1, «to» := 2, term := 4
    snapshot := some ⟨data, some ⟨some { (default : ConfState) with voters := [1, 2, 3] }, 9, 3⟩⟩ }

end MatrixRaft.Peer
