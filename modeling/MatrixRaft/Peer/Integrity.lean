/-
# Peer.Integrity — what arrives is what was sent

`Genuine` is the invariant: every fragment is a piece of a stream that was started, the
staged bytes are its beginning, and only a completed stream is acknowledged in full.  Every
event keeps it, for an honest sender whose streams are told apart by their identities.
-/
import MatrixRaft.Peer.Link

namespace MatrixRaft.Peer
open Theory List Option MatrixRaft.Peer.Stream Fragment Link

/-! ## The invariant -/

structure Carried.Opens (transport : Transport) (carried : Carried) : Prop where
  total : carried.identity.total = carried.source.len
  length : carried.source.all.length = carried.source.len
  ack : carried.identity.ack = false
  carries : (carried.content = none ∧ carried.identity.fileBacked = false ∧
      carried.source.all = transport.message.encode carried.message) ∨
    ∃ content, carried.content = some content ∧ carried.identity.fileBacked = true ∧
      (transport.message.encode carried.message).length ≤ 4096 ∧
      carried.source.all = envelope (transport.message.encode carried.message) ++ content

structure Piece (started : List Carried) (part : Fragment) : Prop where
  ack : part.ack = false
  stream : ∃ carried ∈ started, carried.identity.key = part.key ∧
    part.data <+: carried.source.all.drop part.offset

def Staged (started : List Carried) (receiving : Receiving) : Prop :=
  ∃ carried ∈ started, carried.identity.key = receiving.identity.key ∧
    receiving.file <+: carried.source.all

/-- Only a stream that was completed is acknowledged in full. -/
def Justified (validated : List Fragment) (ack : Fragment) : Prop :=
  ack.offset = ack.total → ∃ completed ∈ validated, (completed.acknowledgment 0).key = ack.key

def Faithful (started : List Carried) (handed : Handed) : Prop :=
  ∃ carried ∈ started, carried.identity.key = handed.identity.key ∧
    handed.message = carried.message ∧ handed.content = carried.content

structure Genuine (transport : Transport) (link : Link) : Prop where
  opened : ∀ carried ∈ link.started, carried.Opens transport
  sending : ∀ sending ∈ link.sender.sending, ∃ carried ∈ link.started,
    sending.identity = carried.identity ∧ sending.bytes = carried.source
  quietSender : link.sender.ack = none
  quietReceiver : link.receiver.sending = none
  pieces : ∀ part ∈ link.parts, Piece link.started part
  staged : ∀ receiving ∈ link.receiver.receiving, Staged link.started receiving
  finishing : ∀ finishing ∈ link.receiver.finishing, Staged link.started finishing.receiving ∧
    finishing.identity.key = finishing.receiving.identity.key ∧
    finishing.receiving.file.length = finishing.identity.total ∧ finishing.identity.fileBacked = true
  completed : ∀ completed ∈ link.receiver.completed, ∃ validated ∈ link.validated,
    validated.key = completed.key
  due : ∀ ack ∈ link.receiver.ack, Justified link.validated ack
  acks : ∀ ack ∈ link.acks, Justified link.validated ack
  handed : ∀ handed ∈ link.handed, Faithful link.started handed
  finished : ∀ finished ∈ link.finished, ∃ validated ∈ link.validated, validated.key = finished.key

variable {part : Fragment} {receiving : Receiving}

section Grows
variable {started more : List Carried}

theorem Piece.grows (piece : Piece started part) : Piece (started ++ more) part := by
  obtain ⟨ack, carried, member, rest⟩ := piece
  exact ⟨ack, carried, mem_append_left _ member, rest⟩

theorem Staged.grows (staged : Staged started receiving) :
    Staged (started ++ more) receiving := by
  obtain ⟨carried, member, rest⟩ := staged
  exact ⟨carried, mem_append_left _ member, rest⟩

theorem Faithful.grows {handed : Handed} (faithful : Faithful started handed) :
    Faithful (started ++ more) handed := by
  obtain ⟨carried, member, rest⟩ := faithful
  exact ⟨carried, mem_append_left _ member, rest⟩

theorem Justified.grows {validated later : List Fragment} {ack : Fragment}
    (justified : Justified validated ack) : Justified (validated ++ later) ack := by
  intro full
  obtain ⟨completed, member, same⟩ := justified full
  exact ⟨completed, mem_append_left _ member, same⟩

end Grows

variable {message : Message}

namespace Genuine
variable {transport : Transport} {link : Link}

/-! ### The sending end -/

section
variable (sound : Genuine transport link)

include sound

theorem senders {sender : Stream} (quiet : sender.ack = none)
    (kept : ∀ sending ∈ sender.sending, ∃ earlier ∈ link.sender.sending,
      sending.identity = earlier.identity ∧ sending.bytes = earlier.bytes) :
    Genuine transport { link with sender := sender } :=
  { sound with
    quietSender := quiet
    sending := by
      intro sending member
      obtain ⟨earlier, before, identity, bytes⟩ := kept sending member
      obtain ⟨carried, started, same, source⟩ := sound.sending earlier before
      grind}

theorem opens {sender : Stream} {content : Option Bytes}
    (opened : sender = link.sender ∨ link.sender.sending = none ∧ ∃ sending,
      sender = { link.sender with sending := some sending } ∧
        Carried.Opens transport ⟨sending.identity, sending.bytes, message, content⟩) :
    Genuine transport (link.opens sender message content) := by
  rcases opened with rfl | ⟨free, sending, rfl, carries⟩
  · have same : link.opens link.sender message content = link := by
      unfold Link.opens
      rcases link.sender.sending with _ | sending <;> simp
    rw [same]
    exact sound
  · have grown : link.opens { link.sender with sending := some sending } message content = { link with
        sender := { link.sender with sending := some sending }
        started := link.started ++ [⟨sending.identity, sending.bytes, message, content⟩] } := by
      simp only [Link.opens, free]
    rw [grown]
    refine
      { opened := ?_, sending := ?_, quietSender := sound.quietSender,
        quietReceiver := sound.quietReceiver
        pieces := fun part member => (sound.pieces part member).grows
        staged := fun receiving member => (sound.staged receiving member).grows
        finishing := fun finishing member =>
          ⟨(sound.finishing finishing member).1.grows, (sound.finishing finishing member).2⟩
        completed := sound.completed, due := sound.due, acks := sound.acks
        handed := fun handed member => (sound.handed handed member).grows
        finished := sound.finished }
    · grind [sound.opened]
    · simp

theorem start (message : Message) :
    Genuine transport (link.opens (Stream.start transport message link.sender).2 message none) := by
  refine sound.opens ?_
  unfold Stream.start
  split
  · exact .inl rfl
  rename_i free
  simp only
  split
  · exact .inl rfl
  · exact .inr ⟨free, _, rfl, rfl, rfl, rfl, .inl ⟨rfl, rfl, rfl⟩⟩

theorem startFile {files : Payloads} {payload : Blob}
    (honest : ∀ content, files payload.manifest.name = some content →
      content.length = payload.manifest.length) :
    Genuine transport (link.opens (Stream.startFile transport files message payload link.sender).2
      message (files payload.manifest.name)) := by
  refine sound.opens ?_
  unfold Stream.startFile
  split
  · exact .inl rfl
  rename_i free
  simp only
  split
  · exact .inl rfl
  split
  · exact .inl rfl
  rename_i small
  split
  · exact .inl rfl
  rename_i content found
  refine .inr ⟨free, _, rfl, rfl, ?_, rfl, .inr ⟨content, found, rfl, not_lt.mp small, rfl⟩⟩
  simp [opening, Source.all, Source.len, honest content found]

theorem emit : Genuine transport { link with
      sender := link.sender.emit.2, parts := link.parts ++ link.sender.emit.1 } := by
  have noAck : link.sender.dueAck = [] := by
    rw [dueAck, sound.quietSender]
    rfl
  unfold Stream.emit
  rcases due : link.sender.dueFragment with error | parts
  · grind [sound.senders]
  have pieces : ∀ part ∈ parts, Piece link.started part := by
    intro part member
    obtain ⟨sending, here, size, data, read, rfl⟩ := mem_dueFragment due member
    obtain ⟨carried, started, identity, source⟩ := sound.sending sending here
    refine ⟨by rw [identity]; exact (sound.opened carried started).ack, carried, started, ?_, ?_⟩
    · rw [identity]
      rfl
    · grind [Source.fragment_eq read]
  have kept := @senders _ _ sound link.sender.sent rfl (by
    intro sending member
    simp only [Stream.sent, mem_def, map_eq_some_iff] at member
    obtain ⟨earlier, before, rfl⟩ := member
    exact ⟨earlier, before, rfl, rfl⟩)
  refine { kept with pieces := fun part member => ?_ }
  grind [sound.pieces]

/-! ### The receiving end -/

section Receiver
variable {receiver : Stream} {directory : Payloads} {handed : List Handed}
  {validated : List Fragment} (quiet : receiver.sending = none)
  (staged : ∀ receiving ∈ receiver.receiving, Staged link.started receiving)
  (finishing : ∀ finishing ∈ receiver.finishing, Staged link.started finishing.receiving ∧
    finishing.identity.key = finishing.receiving.identity.key ∧
    finishing.receiving.file.length = finishing.identity.total ∧
    finishing.identity.fileBacked = true)

include quiet staged finishing

theorem receivers
    (completed : ∀ completed ∈ receiver.completed, ∃ earlier ∈ link.validated ++ validated,
      earlier.key = completed.key)
    (due : ∀ ack ∈ receiver.ack, Justified (link.validated ++ validated) ack)
    (faithful : ∀ other ∈ handed, Faithful link.started other) : Genuine transport { link with
      receiver := receiver
      directory := directory
      handed := link.handed ++ handed
      validated := link.validated ++ validated } :=
  { opened := sound.opened, sending := sound.sending, quietSender := sound.quietSender
    quietReceiver := quiet, pieces := sound.pieces, staged := staged, finishing := finishing
    completed := completed, due := due
    acks := fun ack member => (sound.acks ack member).grows
    handed := by grind [sound.handed]
    finished := by
      intro finished member
      obtain ⟨earlier, known, same⟩ := sound.finished finished member
      exact ⟨earlier, mem_append_left _ known, same⟩ }

theorem keeps (completed : ∀ completed ∈ receiver.completed, ∃ earlier ∈ link.validated,
      earlier.key = completed.key) (due : ∀ ack ∈ receiver.ack, Justified link.validated ack) :
    Genuine transport { link with receiver := receiver, directory := directory } :=
  { sound with
    quietReceiver := quiet, staged := staged, finishing := finishing, completed := completed
    due := due }

end Receiver

theorem receiverTick (term : Nat) (leader : Bool) :
    Genuine transport { link with receiver := link.receiver.tick term leader } := by
  refine sound.keeps ?_ ?_ sound.finishing ?_ ?_
  · simp [tick, sound.quietReceiver]
  · intro receiving member
    simp only [tick, mem_def, bind_eq_some_iff] at member
    obtain ⟨earlier, before, kept⟩ := member
    unfold tickReceiving at kept
    split at kept
    · cases kept
    · cases kept
      exact sound.staged earlier before
  · intro completed member
    simp only [tick, mem_def, filter_eq_some_iff] at member
    exact sound.completed completed member.1
  · intro ack member
    simp only [tick, mem_def, filter_eq_some_iff] at member
    exact sound.due ack member.1

theorem restartReceiver (permitted : List Nat) :
    Genuine transport { link with receiver := .new permitted } :=
  sound.keeps rfl (by simp [new]) (by simp [new]) (by simp [new])
    (by simp [new])

theorem emitAcks : Genuine transport { link with
      receiver := link.receiver.emit.2, acks := link.acks ++ link.receiver.emit.1 } := by
  have due : link.receiver.dueFragment = .ok [] := by
    rw [dueFragment, sound.quietReceiver]
  have sent : Genuine transport { link with receiver := link.receiver.sent } :=
    sound.keeps (by rw [Stream.sent, sound.quietReceiver]; rfl) sound.staged sound.finishing
      sound.completed (by simp [Stream.sent])
  simp only [Stream.emit, due, append_nil]
  refine { sent with acks := fun ack member => ?_ }
  rcases mem_append.mp member with old | new
  · exact sound.acks ack old
  · exact sound.due ack (mem_toList.mp new)

end
end Genuine

/-! ### A fragment arrives -/

theorem validate_total {options : PeerOptions} {term : Nat}
    (valid : part.validate options term = .ok ()) : part.total ≠ 0 := by
  intro zero
  have refused : part.validate options term = .error (.invalid .fragmentIdentity) :=
    if_pos (by simp [zero])
  grind

theorem complete_cases (wire : Wire) (part : Fragment) (message : Message) (payload : Option Blob)
    (voters : List Nat) (stream : Stream) :
    (∃ error, complete wire part message payload voters stream = (.error error, stream)) ∨
      complete wire part message payload voters stream = (.ok (some message), { stream with
        receivedPayload := payload
        completed := some part.identity
        ack := some (part.acknowledgment part.total) }) := by
  unfold complete
  grind

section Arrives
variable {started : List Carried} {part : Fragment} {stream : Stream}

theorem joined_staged (free : CollisionFree started) (piece : Piece started part)
    (staged : ∀ receiving ∈ stream.receiving, Staged started receiving)
    (joined : stream.joined part = .ok (some receiving)) :
    receiving.identity.key = part.key ∧ ∃ carried ∈ started, carried.identity.key = part.key ∧
      receiving.file <+: carried.source.all ∧ part.data <+: carried.source.all.drop part.offset := by
  obtain ⟨carried, member, same, data⟩ := piece.stream
  rcases joined_some joined with ⟨current, known⟩ | ⟨-, rfl, -⟩
  · have key := (sameStream_iff _ _).mp known
    obtain ⟨other, member', same', beginning⟩ := staged receiving current
    refine ⟨key, carried, member, same, ?_, data⟩
    rw [free carried member other member' (same.trans (key.symm.trans same'.symm))]
    exact beginning
  · exact ⟨rfl, carried, member, same, nil_prefix, data⟩

theorem append_initial {bytes file data : Bytes} (beginning : file <+: bytes)
    (next : data <+: bytes.drop file.length) : file ++ data <+: bytes := by
  obtain ⟨rest, rfl⟩ := beginning
  simpa using (prefix_append_right_inj file).mpr next

theorem staged_initial {bytes : Bytes} {receiving next : Receiving}
    (beginning : receiving.file <+: bytes) (data : part.data <+: bytes.drop part.offset)
    (staged : staged part receiving = .ok next) : next.file <+: bytes := by
  obtain ⟨-, ⟨here, grown⟩ | ⟨-, same⟩⟩ := staged_ok staged
  · rw [grown]
    exact append_initial beginning (here ▸ data)
  · rwa [same]

end Arrives

/-! ### A stream is complete -/

variable {transport : Transport} {message other : Message}

theorem inlineMessage_encode
    (read : inlineMessage transport part (transport.message.encode message) = .ok other) :
    other = message := by
  unfold inlineMessage at read
  rw [transport.message.decode_encode] at read
  grind

theorem take_envelope (bytes content : Bytes) :
    (envelope bytes ++ content).take 4 = bigEndian 4 bytes.length := by
  simp [envelope, append_assoc]

theorem drop_envelope (bytes content : Bytes) :
    (envelope bytes ++ content).drop 12 = bytes ++ content := by rfl

theorem envelopeMessage_encode {content : Bytes}
    {length : Nat} (small : (transport.message.encode message).length ≤ 4096)
    (read : envelopeMessage transport
      (envelope (transport.message.encode message) ++ content) = .ok (other, length)) :
    other = message ∧ length = (transport.message.encode message).length := by
  unfold envelopeMessage at read
  rw [take_envelope, drop_envelope, ofBigEndian_bigEndian 4 _ (by omega)] at read
  split at read
  · cases read
  · simp only [take_left, transport.message.decode_encode] at read
    grind

theorem capture_ok {name : Payloads → Bytes} {directory after : Payloads} {content : Bytes}
    {length : Nat} {payload : Blob}
    (captured : Blob.capture name directory content length = .ok (payload, after)) :
    after payload.manifest.name = some content := by
  unfold Blob.capture at captured
  iterate 3
    split at captured
    · cases captured
  obtain ⟨-, -, made⟩ := Checks.map_eq_ok captured
  cases made
  simp

theorem finishFile_encode {name : Payloads → Bytes}
    {directory after : Payloads} {content : Bytes}
    {payload : Blob} (small : (transport.message.encode message).length ≤ 4096)
    (whole : receiving.file = envelope (transport.message.encode message) ++ content)
    (finished : receiving.finishFile transport name directory = .ok (other, payload, after)) :
    other = message ∧ after payload.manifest.name = some content := by
  unfold Receiving.finishFile at finished
  split at finished
  · cases finished
  obtain ⟨⟨read, length⟩, envelope, finished⟩ := Checks.bind_eq_ok.mp finished
  obtain ⟨⟨blob, files⟩, captured, finished⟩ := Checks.bind_eq_ok.mp finished
  simp only at finished
  split at finished
  · cases finished
  cases finished
  rw [whole] at envelope captured
  obtain ⟨rfl, rfl⟩ := envelopeMessage_encode small envelope
  refine ⟨rfl, ?_⟩
  rw [← drop_drop, drop_envelope, drop_left] at captured
  exact capture_ok captured

variable {ends : Ends}

namespace Genuine
variable {transport : Transport} {link : Link}

theorem hands_nothing {outcome : Except PeerError (Option Message)}
    (nothing : ∀ message, outcome ≠ .ok (some message)) (link : Link) (directory : Payloads)
    (receiver : Stream) :
    link.hands outcome directory receiver = { link with receiver := receiver, directory := directory } := by
  unfold hands
  grind

section
variable (sound : Genuine transport link)

include sound

theorem hands_complete {wire : Wire}
    {payload : Option Blob} {voters : List Nat} {stream : Stream}
    {directory : Payloads} (quiet : stream.sending = none)
    (staged : ∀ receiving ∈ stream.receiving, Staged link.started receiving)
    (finishing : stream.finishing = none) (noAck : ∀ ack ∈ stream.ack, Justified link.validated ack)
    (completed : ∀ completed ∈ stream.completed, ∃ earlier ∈ link.validated,
      earlier.key = completed.key) (faithful : Faithful link.started ⟨part.identity, message,
      payload.bind fun payload => directory payload.manifest.name⟩) :
    Genuine transport (link.hands (complete wire part message payload voters stream).1 directory
      (complete wire part message payload voters stream).2) := by
  rcases complete_cases wire part message payload voters stream with ⟨error, refused⟩ | done
  · rw [refused, hands_nothing (by simp)]
    exact sound.keeps quiet staged (by simp [finishing]) completed noAck
  rw [done]
  refine sound.receivers quiet staged (by simp [finishing]) ?_ ?_ ?_
  · simp
  · rintro ack ⟨⟩ -
    exact ⟨_, mem_append_right _ (mem_singleton.mpr rfl), rfl⟩
  · grind

theorem arrives {wire : Wire} {voters : List Nat}
    {next : Receiving} {carried : Carried} (member : carried ∈ link.started)
    (same : carried.identity.key = part.key) (identity : next.identity.key = part.key)
    (beginning : next.file <+: carried.source.all) (whole : next.file.length = part.total)
    (idle : link.receiver.finishing = none) :
    Genuine transport (link.hands (arrived wire transport part voters next link.receiver).1
      link.directory (arrived wire transport part voters next link.receiver).2) := by
  have opens := sound.opened carried member
  have fields := same
  simp only [Fragment.key, Prod.mk.injEq] at fields
  obtain ⟨-, -, -, -, total, -, fileBacked⟩ := fields
  unfold arrived
  split
  · -- a payload file: a worker completes it
    rename_i backed
    rw [hands_nothing (by simp)]
    refine sound.keeps sound.quietReceiver (by simp) ?_ sound.completed (by simp)
    rintro finishing ⟨⟩
    exact ⟨⟨carried, member, same.trans identity.symm, beginning⟩, identity.symm, whole, backed⟩
  · have all : next.file = carried.source.all :=
      beginning.eq_of_length (by rw [whole, opens.length, ← opens.total, total])
    rcases opens.carries with ⟨content, -, encoded⟩ | ⟨content, -, backed, -⟩
    · rcases read : inlineMessage transport part next.file with error | message
      · exact sound.keeps sound.quietReceiver (by simp) (by simp [idle]) sound.completed (by simp)
      · rw [all, encoded] at read
        refine sound.hands_complete sound.quietReceiver (by simp) idle (by simp) sound.completed ?_
        exact ⟨carried, member, same, inlineMessage_encode read, content.symm⟩
    · grind

theorem delivers (free : CollisionFree link.started)
    (same : ends.transport = transport) (piece : Piece link.started part)
    (term : Nat) : Genuine transport (link.delivers ends part term) := by
  subst same
  unfold delivers
  rcases valid : part.validate ends.receiverOptions term with error | _
  · exact sound
  simp only [piece.ack, Bool.false_eq_true, if_false]
  have total := validate_total valid
  have received := receive_received ends.wire ends.transport part ends.receiverOptions.voters
    link.receiver
  rcases ran : receive ends.wire ends.transport part ends.receiverOptions.voters link.receiver
    with ⟨outcome, after⟩
  rw [ran] at received
  simp only at received ⊢
  cases received with
  | refused _ nothing =>
    rw [hands_nothing nothing]
    exact sound
  | again completed member known =>
    refine sound.keeps sound.quietReceiver sound.staged sound.finishing sound.completed ?_
    rintro ack ⟨⟩ -
    obtain ⟨earlier, validated, key⟩ := sound.completed completed member
    have key' : earlier.key = part.key := key.trans ((sameStream_iff _ _).mp known)
    grind [Fragment.key, acknowledgment, identity]
  | restart =>
    refine sound.keeps sound.quietReceiver sound.staged sound.finishing sound.completed ?_
    rintro ack ⟨⟩ full
    exact absurd full.symm total
  | conflict error receiving joined =>
    obtain ⟨key, carried, member, same, beginning, -⟩ := joined_staged free piece sound.staged joined
    refine sound.keeps sound.quietReceiver ?_ sound.finishing sound.completed
      (by simp [afterStaging])
    intro other member'
    simp only [afterStaging] at member'
    split at member'
    · cases member'
    · cases member'
      exact ⟨carried, member, same.trans key.symm, beginning⟩
  | staged receiving next joined staged short =>
    obtain ⟨key, carried, member, same, beginning, data⟩ :=
      joined_staged free piece sound.staged joined
    refine sound.keeps sound.quietReceiver ?_ sound.finishing sound.completed ?_
    · rintro other ⟨⟩
      refine ⟨carried, member, ?_, staged_initial beginning data staged⟩
      rw [(staged_ok staged).1]
      exact same.trans key.symm
    · rintro ack ⟨⟩ full
      exact absurd full short
  | arrived receiving next joined staged whole idle =>
    obtain ⟨key, carried, member, same, beginning, data⟩ :=
      joined_staged free piece sound.staged joined
    exact sound.arrives member same (by rw [(staged_ok staged).1]; exact key)
      (staged_initial beginning data staged) whole idle

theorem poll (same : ends.transport = transport)
    (done : Bool) (term : Nat) : Genuine transport (link.step ends (.poll done term)) := by
  subst same
  simp only [Link.step, pollFinished]
  rcases worker : link.receiver.finishing with _ | finishing
  · exact sound
  obtain ⟨⟨carried, member, key, beginning⟩, identity, whole, backed⟩ :=
    sound.finishing finishing worker
  have dropped : Genuine ends.transport { link with
      receiver := { link.receiver with finishing := none } } :=
    sound.keeps sound.quietReceiver sound.staged (by simp) sound.completed sound.due
  simp only
  split
  · exact sound
  split
  · exact dropped
  rcases finished : finishing.receiving.finishFile ends.transport ends.name link.directory with
    error | ⟨message, payload, directory⟩
  · exact dropped
  have opens := sound.opened carried member
  have fields := key.trans identity.symm
  simp only [Fragment.key, Prod.mk.injEq] at fields
  obtain ⟨-, -, -, -, total, -, fileBacked⟩ := fields
  have all : finishing.receiving.file = carried.source.all :=
    beginning.eq_of_length (by rw [whole, opens.length, ← opens.total, total])
  rcases opens.carries with ⟨-, inline, -⟩ | ⟨content, kept, -, small, encoded⟩
  · grind
  obtain ⟨rfl, captured⟩ := finishFile_encode small (all.trans encoded) finished
  refine sound.hands_complete sound.quietReceiver sound.staged rfl sound.due sound.completed
    ⟨carried, member, key.trans identity.symm, rfl, ?_⟩
  rw [kept]
  exact captured

theorem acknowledges
    (justified : Justified link.validated part) (term : Nat) :
    Genuine transport (link.acknowledges ends part term) := by
  unfold Link.acknowledges
  split
  · exact sound
  split
  swap
  · exact sound
  unfold acknowledge
  split
  · simpa using sound
  rename_i sending here
  have next (after : Sending) (identity : after.identity = sending.identity)
      (bytes : after.bytes = sending.bytes) :
      Genuine transport { link with sender := { link.sender with sending := some after } } := by
    grind [sound.senders, sound.quietSender]
  simp only
  split
  · simpa using sound
  rename_i known
  split
  · -- the transfer ends: the acknowledgment is one of a completed stream
    rename_i full
    have ended := @senders _ _ sound { link.sender with sending := none } sound.quietSender
      (by simp)
    simp only [if_true, here]
    refine { ended with finished := fun identity member => ?_ }
    rcases mem_append.mp member with old | new
    · exact sound.finished identity old
    obtain rfl : identity = sending.identity := by simpa using new
    have key := (sameStream_iff _ _).mp (of_not_not known)
    obtain ⟨carried, member, same, source⟩ := sound.sending sending here
    have total : part.total = sending.bytes.len := by
      have fields := key
      simp only [Fragment.key, Prod.mk.injEq] at fields
      rw [← fields.2.2.2.2.1, source]
      simp only [acknowledgment, identity, same]
      exact (sound.opened carried member).total
    obtain ⟨completed, validated, same'⟩ := justified (full.trans total.symm)
    exact ⟨completed, validated,
      key_eq_of_acknowledgment (same'.trans key.symm)⟩
  · split
    · grind
    · split
      · grind
      · simpa using sound

theorem senderTick (term : Nat) (leader : Bool) :
    Genuine transport { link with sender := link.sender.tick term leader } := by
  refine sound.senders (by simp [tick, sound.quietSender]) fun sending member => ?_
  simp only [tick, mem_def, bind_eq_some_iff] at member
  obtain ⟨earlier, before, kept⟩ := member
  refine ⟨earlier, before, ?_⟩
  unfold tickSending at kept
  grind

theorem abandon (peer : Nat) :
    Genuine transport { link with sender := link.sender.completedSend peer } := by
  unfold completedSend
  split
  · exact sound.senders sound.quietSender (by simp)
  · exact sound

end

theorem step (sound : Genuine ends.transport link) (free : CollisionFree link.started)
    {event : LinkEvent} (honest : event.Honest) : Genuine ends.transport (link.step ends event) := by
  cases event with
  | start message => exact sound.start message
  | startFile => exact sound.startFile honest
  | abandon peer => exact sound.abandon peer
  | senderTick term leader => exact sound.senderTick term leader
  | receiverTick term leader => exact sound.receiverTick term leader
  | emit => exact sound.emit
  | emitAcks => exact sound.emitAcks
  | deliver =>
    simp only [Link.step]
    split
    · exact sound
    · grind [sound.delivers, sound.pieces]
  | acknowledge =>
    simp only [Link.step]
    split
    · exact sound
    · grind [sound.acknowledges, sound.acks]
  | poll done term => exact sound.poll rfl done term
  | restartSender => exact sound.senders rfl (by simp [new])
  | restartReceiver => exact sound.restartReceiver ends.permitted

end Genuine

namespace Link

theorem started_hands (link : Link) (outcome : Except PeerError (Option Message))
    (directory : Payloads) (receiver : Stream) :
    (link.hands outcome directory receiver).started = link.started := by
  unfold hands
  split <;> rfl

theorem started_step (ends : Ends) (link : Link) (event : LinkEvent) :
    link.started <+: (link.step ends event).started := by
  cases event with
  | start | startFile => exact prefix_append _ _
  | deliver =>
    simp only [step]
    split
    · exact prefix_refl _
    unfold delivers
    split
    · exact prefix_refl _
    split
    · exact prefix_refl _
    · split
      rw [started_hands]
  | acknowledge =>
    simp only [step]
    split
    · exact prefix_refl _
    · unfold acknowledges
      grind
  | poll =>
    simp only [step]
    rw [started_hands]
  | _ => exact prefix_refl _

theorem started_run (ends : Ends) (link : Link) (events : List LinkEvent) :
    link.started <+: (link.run ends events).started := by
  induction events generalizing link with
  | nil => exact prefix_refl _
  | cons event events ih => exact (started_step ends link event).trans (ih _)

end Link

theorem CollisionFree.mono {started more : List Carried} (free : CollisionFree more)
    (sub : started <+: more) : CollisionFree started :=
  fun carried member other member' => free carried (sub.subset member) other (sub.subset member')

theorem Genuine.run {link : Link} (sound : Genuine ends.transport link)
    {events : List LinkEvent} (honest : ∀ event ∈ events, event.Honest)
    (free : CollisionFree (link.run ends events).started) :
    Genuine ends.transport (link.run ends events) := by
  induction events generalizing link with
  | nil => exact sound
  | cons event events ih =>
    have early := free.mono ((started_step ends link event).trans (started_run ends _ events))
    exact ih (sound.step early (honest event mem_cons_self))
      (fun other member => honest other (mem_cons_of_mem _ member)) free

theorem sound_fresh (ends : Ends) (directory : Payloads) :
    Genuine ends.transport (fresh ends directory) := by
  constructor <;> simp [fresh, new]

theorem Carried.Opens.carries_eq {carried other : Carried}
    (opens : carried.Opens transport) (opens' : other.Opens transport)
    (backed : carried.identity.fileBacked = other.identity.fileBacked)
    (same : carried.source.all = other.source.all) :
    carried.message = other.message ∧ carried.content = other.content := by
  rcases opens.carries with ⟨none, inline, encoded⟩ | ⟨content, some_, file, small, encoded⟩
  · rcases opens'.carries with ⟨none', -, encoded'⟩ | ⟨-, -, file', -⟩
    · have read := transport.message.decode_encode carried.message
      rw [← encoded, same, encoded', transport.message.decode_encode] at read
      exact ⟨(Option.some.inj read).symm, none.trans none'.symm⟩
    · grind
  · rcases opens'.carries with ⟨-, inline', -⟩ | ⟨content', some_', -, small', encoded'⟩
    · grind
    · rw [encoded, encoded'] at same
      have sizes := congrArg (fun bytes => ofBigEndian (bytes.take 4)) same
      simp only [take_envelope] at sizes
      rw [ofBigEndian_bigEndian 4 _ (by omega), ofBigEndian_bigEndian 4 _ (by omega)] at sizes
      have rest := congrArg (List.drop 12) same
      rw [drop_envelope, drop_envelope] at rest
      obtain ⟨messages, contents⟩ := append_inj rest sizes
      have read := transport.message.decode_encode carried.message
      rw [messages, transport.message.decode_encode] at read
      grind

/-- **Checkpoint stream integrity.**  With an honest sender whose streams are told apart by their
identities, what the receiver has staged is the beginning of the sender's stream, what it handed
over is what the sender started with, and a finished transfer was completed by the receiver. -/
theorem stream_integrity (ends : Ends) (directory : Payloads) (events : List LinkEvent)
    (honest : ∀ event ∈ events, event.Honest)
    (free : CollisionFree ((fresh ends directory).run ends events).started) :
    let link := (fresh ends directory).run ends events
    (∀ receiving, (receiving ∈ link.receiver.receiving ∨
        ∃ finishing ∈ link.receiver.finishing, finishing.receiving = receiving) →
      (∃ carried ∈ link.started, carried.identity.sameStream receiving.identity) ∧
      ∀ carried ∈ link.started, carried.identity.sameStream receiving.identity →
        receiving.file <+: carried.source.all) ∧
    (∀ handed ∈ link.handed,
      (∃ carried ∈ link.started, carried.identity.sameStream handed.identity) ∧
      ∀ carried ∈ link.started, carried.identity.sameStream handed.identity →
        handed.message = carried.message ∧ handed.content = carried.content) ∧
    ∀ finished ∈ link.finished, ∃ validated ∈ link.validated, validated.sameStream finished := by
  intro link
  have sound : Genuine ends.transport link := (sound_fresh ends directory).run honest free
  simp only [sameStream_iff]
  refine ⟨?_, ?_, sound.finished⟩
  · intro receiving held
    obtain ⟨carried, member, same, beginning⟩ : Staged link.started receiving := by
      rcases held with current | ⟨finishing, worker, rfl⟩
      · exact sound.staged receiving current
      · exact (sound.finishing finishing worker).1
    refine ⟨⟨carried, member, same⟩, fun other member' same' => ?_⟩
    rw [free other member' carried member (same'.trans same.symm)]
    exact beginning
  · intro handed member
    obtain ⟨carried, started, same, message, content⟩ := sound.handed handed member
    refine ⟨⟨carried, started, same⟩, fun other started' same' => ?_⟩
    have key := same.trans same'.symm
    have backed : carried.identity.fileBacked = other.identity.fileBacked := by
      simp only [Fragment.key, Prod.mk.injEq] at key
      exact key.2.2.2.2.2.2
    obtain ⟨messages, contents⟩ := (sound.opened carried started).carries_eq
      (sound.opened other started') backed (free carried started other started' key)
    exact ⟨message.trans messages, content.trans contents⟩

def smallCheckpoint : List LinkEvent :=
  [.start (checkpointMessage [5, 6, 7]), .emit, .deliver 0 4, .emitAcks, .acknowledge 0 4]

theorem stream_integrity_small :
    let link := (fresh pairedEnds fun _ => none).run pairedEnds smallCheckpoint
    link.handed.map (·.message) = [checkpointMessage [5, 6, 7]] ∧ link.finished.length = 1 ∧
      ∀ finished ∈ link.finished, ∃ validated ∈ link.validated, validated.sameStream finished :=
  ⟨by decide +kernel, by decide +kernel,
    (stream_integrity pairedEnds (fun _ => none) smallCheckpoint
      (by simp [smallCheckpoint, LinkEvent.Honest]) (by decide +kernel)).2.2⟩

end MatrixRaft.Peer
