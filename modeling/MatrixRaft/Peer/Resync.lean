/-
# Peer.Resync — when the two ends of a transfer find each other again

The sender takes an acknowledgment of the whole stream, of its next offset, or of none.
A receiver that has staged anything else answers with a length the sender ignores.
-/
import MatrixRaft.Peer.Integrity

namespace MatrixRaft.Peer
open Theory List Option MatrixRaft.Peer.Stream Link

/-! ## One exchange -/

/-- Where the sender's next fragment ends. -/
def Sending.stop (sending : Sending) : Nat :=
  min (sending.offset + snapshotFragmentBytes) sending.bytes.len

def Sending.next (sending : Sending) : Except PeerError Fragment :=
  (sending.bytes.fragment sending.offset (sending.stop - sending.offset)).map fun data =>
    { sending.identity with offset := sending.offset, data := data }

def Stream.stagedFor (stream : Stream) (identity : Fragment) : Nat :=
  match stream.receiving with
  | some receiving => if receiving.identity.sameStream identity then receiving.file.length else 0
  | none => 0

variable (ends : Ends) (link : Link)

def settled (part : Fragment) (term : Nat) : Stream :=
  let receiver := (receive ends.wire ends.transport part ends.receiverOptions.voters
    link.receiver).2
  if receiver.finishing.isSome then
    (receiver.pollFinished ends.wire ends.transport ends.name true term ends.receiverOptions.voters
      link.directory).2.2
  else receiver

def exchange (part : Fragment) (term : Nat) : Bool × Stream :=
  match (settled ends link part term).ack with
  | none => (false, link.sender)
  | some answer => link.sender.acknowledge answer

structure Welcomes (ends : Ends) (link : Link) (part : Fragment) (term : Nat) : Prop where
  valid : part.validate ends.receiverOptions term = .ok ()
  idle : link.receiver.finishing = none
  taken : ∃ handed, (receive ends.wire ends.transport part ends.receiverOptions.voters
    link.receiver).1 = .ok handed
  finishes : (receive ends.wire ends.transport part ends.receiverOptions.voters
      link.receiver).2.finishing ≠ none →
    ∃ message, ((receive ends.wire ends.transport part ends.receiverOptions.voters
      link.receiver).2.pollFinished ends.wire ends.transport ends.name true term
        ends.receiverOptions.voters link.directory).1 = .ok (some message)

def Resynchronized (part : Fragment) (term : Nat) : Prop :=
  (exchange ends link part term).1 = true ∨
    ∃ sending ∈ (exchange ends link part term).2.sending,
      sending.offset = (settled ends link part term).stagedFor part

/-! ## What the sender makes of an answer -/

section Acknowledge
variable {stream : Stream} {sending : Sending} {part : Fragment}

theorem sameStream_acknowledgment (part identity : Fragment) (same : part.key = identity.key)
    (offset : Nat) : (identity.acknowledgment 0).sameStream (part.acknowledgment offset) := by
  simp only [Fragment.key, Prod.mk.injEq] at same
  grind [Fragment.sameStream, Fragment.acknowledgment, Fragment.identity]

theorem acknowledge_eq (here : stream.sending = some sending) (same : part.key = sending.identity.key)
    (offset : Nat) : stream.acknowledge (part.acknowledgment offset) =
      if offset = sending.bytes.len then (true, { stream with sending := none })
      else if offset = sending.stop then
        (false, { stream with
          sending := some { sending with offset := sending.stop, idle := 0, ticks := 0, ready := true } })
      else if offset = 0 ∧ sending.offset ≠ 0 then
        (false, { stream with sending := some { sending with offset := 0, ready := true, ticks := 0 } })
      else (false, stream) := by
  have known := sameStream_acknowledgment part sending.identity same offset
  simp only [Stream.acknowledge, here, known, not_true_eq_false, if_false]
  rfl

end Acknowledge

/-! ## When an exchange brings both together -/

section Exchange
variable {ends : Ends} {link : Link} {sending : Sending} {part : Fragment} {term : Nat}

structure NextPart (sending : Sending) (part : Fragment) : Prop where
  key : part.key = sending.identity.key
  offset : part.offset = sending.offset
  total : part.total = sending.bytes.len
  before : sending.offset < sending.bytes.len
  length : sending.offset + part.data.length = sending.stop

theorem nextPart (framed : sending.identity.total = sending.bytes.len)
    (noAck : sending.identity.ack = false) (next : sending.next = .ok part)
    (valid : part.validate ends.receiverOptions term = .ok ()) : NextPart sending part := by
  obtain ⟨data, -, rfl⟩ := Checks.map_eq_ok next
  obtain ⟨before, size⟩ : sending.offset < sending.identity.total ∧ data.length
      = min (sending.identity.total - sending.offset) snapshotFragmentBytes := by
    unfold Fragment.validate at valid
    grind
  simp only [framed] at before size
  refine ⟨rfl, rfl, framed, before, ?_⟩
  simp only [Sending.stop, size]
  omega

theorem NextPart.stop_pos (next : NextPart sending part) : 0 < sending.stop ∧ sending.offset < sending.stop := by
  have := next.before
  have : 0 < snapshotFragmentBytes := by decide
  unfold Sending.stop
  omega

theorem stagedFor_of_same {stream : Stream} {receiving : Receiving} (here : stream.receiving = some receiving)
    (same : receiving.identity.sameStream part) : stream.stagedFor part = receiving.file.length := by
  simp only [stagedFor, here, if_pos same]

theorem stagedFor_of_unknown {stream : Stream}
    (unknown : ∀ receiving ∈ stream.receiving, ¬ receiving.identity.sameStream part) :
    stream.stagedFor part = 0 := by
  unfold stagedFor
  grind

theorem stagedFor_of_joined {stream : Stream} {receiving : Receiving}
    (joined : stream.joined part = .ok (some receiving)) :
    stream.stagedFor part = receiving.file.length := by
  rcases joined_some joined with ⟨current, same⟩ | ⟨-, rfl, unknown⟩
  · exact stagedFor_of_same current same
  · exact stagedFor_of_unknown unknown

theorem resynchronized_of_ack (here : link.sender.sending = some sending) (next : NextPart sending part)
    {other : Fragment} (same : other.key = part.key) {answered : Nat}
    (answer : (settled ends link part term).ack = some (other.acknowledgment answered)) :
    Resynchronized ends link part term ↔ answered = part.total ∨
        (if answered = sending.stop then sending.stop
          else if answered = 0 ∧ sending.offset ≠ 0 then 0 else sending.offset)
          = (settled ends link part term).stagedFor part := by
  have took : exchange ends link part term = link.sender.acknowledge (other.acknowledgment answered) := by
    rw [exchange, answer]
  rw [Resynchronized, took, acknowledge_eq here (same.trans next.key), ← next.total]
  by_cases whole : answered = part.total
  · simp [whole]
  simp only [whole, if_false, false_or]
  split
  · simp
  split
  · simp
  · simp [here]

theorem settled_of_receive (term : Nat) {outcome : Except PeerError (Option Message)} {after : Stream}
    (ran : receive ends.wire ends.transport part ends.receiverOptions.voters link.receiver
      = (outcome, after)) (idle : after.finishing = none) : settled ends link part term = after := by
  simp [settled, ran, idle]

theorem settled_arrived (welcomes : Welcomes ends link part term) {next : Receiving}
    (ran : receive ends.wire ends.transport part ends.receiverOptions.voters link.receiver
      = arrived ends.wire ends.transport part ends.receiverOptions.voters next link.receiver) :
    ∃ other : Fragment, other.key = part.key ∧
      (settled ends link part term).ack = some (other.acknowledgment part.total) := by
  obtain ⟨handed, taken⟩ := welcomes.taken
  have finishes := welcomes.finishes
  rw [ran] at taken finishes
  unfold settled
  rw [ran]
  unfold arrived at taken finishes ⊢
  split at taken
  · -- a worker completes the payload file
    rename_i backed
    rw [if_pos backed] at finishes ⊢
    obtain ⟨message, completed⟩ := finishes (by simp)
    simp only [isSome_some, if_true]
    simp only [pollFinished, Bool.true_eq_false, if_false] at completed ⊢
    split at completed
    · cases completed
    rename_i current
    rw [if_neg current]
    split at completed
    · cases completed
    rename_i message' payload directory finished
    rcases complete_cases ends.wire part.identity message' (some payload)
      ends.receiverOptions.voters
      { link.receiver with ack := none, receiving := none, finishing := none } with
      ⟨error, refused⟩ | done
    · grind
    · simp only [done]
      exact ⟨part.identity, rfl, rfl⟩
  · rename_i inline
    rcases read : inlineMessage ends.transport part next.file with error | message
    · grind
    rw [read] at taken
    rcases complete_cases ends.wire part message none ends.receiverOptions.voters
      { link.receiver with ack := none, receiving := none } with ⟨error, refused⟩ | done
    · grind
    · grind [welcomes.idle]

/-- **An exchange brings both ends together exactly when** the receiver has the stream, nothing of it,
as much as the sender believes, the next fragment as well, or all of it. -/
theorem exchange_resynchronizes_iff (here : link.sender.sending = some sending)
    (next : NextPart sending part) (welcomes : Welcomes ends link part term) :
    Resynchronized ends link part term ↔
      (∃ completed ∈ link.receiver.completed, completed.sameStream part) ∨
        link.receiver.stagedFor part ∈ [0, sending.offset, sending.stop, sending.bytes.len] := by
  have pos := next.stop_pos
  have received := receive_received ends.wire ends.transport part ends.receiverOptions.voters
    link.receiver
  by_cases known : ∃ completed ∈ link.receiver.completed, completed.sameStream part
  · -- the receiver completed the stream and says so
    have again : receive ends.wire ends.transport part ends.receiverOptions.voters link.receiver
        = (.ok none, { link.receiver with ack := some (part.acknowledgment part.total) }) := by
      obtain ⟨completed, member, same⟩ := known
      unfold receive
      rw [if_neg (by simp [welcomes.idle]), if_pos]
      rw [member, any_some]
      exact decide_eq_true same
    have after := settled_of_receive term again welcomes.idle
    have answer := resynchronized_of_ack here next (rfl : part.key = part.key) (by rw [after])
    exact ⟨fun _ => .inl known, fun _ => answer.mpr (.inl rfl)⟩
  · rw [or_iff_right known]
    rcases ran : receive ends.wire ends.transport part ends.receiverOptions.voters
      link.receiver with ⟨outcome, after⟩
    rw [ran] at received
    obtain ⟨handed, taken⟩ := welcomes.taken
    rw [ran] at taken
    cases received with
    | refused => grind [welcomes.idle]
    | again completed member same => exact absurd ⟨completed, member, same⟩ known
    | restart later unknown =>
      -- the sender is asked to start over
      have settles := settled_of_receive term ran welcomes.idle
      have none := stagedFor_of_unknown unknown
      rw [resynchronized_of_ack here next (rfl : part.key = part.key) (by rw [settles]), settles]
      have started : sending.offset ≠ 0 := next.offset ▸ later
      rw [if_neg (by omega), if_pos ⟨rfl, started⟩,
        show stagedFor { link.receiver with ack := some (part.acknowledgment 0) } part
          = link.receiver.stagedFor part from rfl, none]
      simp
    | conflict => cases taken
    | staged receiving staging joined staged short =>
      have settles := settled_of_receive term ran welcomes.idle
      obtain ⟨identity, grown⟩ := staged_ok staged
      have same : staging.identity.sameStream part := by
        rw [identity]
        rcases joined_some joined with ⟨-, same⟩ | ⟨-, rfl, -⟩
        · exact same
        · exact (Fragment.sameStream_iff _ _).mpr rfl
      rw [resynchronized_of_ack here next (rfl : part.key = part.key) (by rw [settles]), settles,
        stagedFor_of_same rfl same]
      have notAll : staging.file.length ≠ sending.bytes.len := next.total ▸ short
      rw [stagedFor_of_joined joined, next.total]
      have offset := next.offset
      have length := next.length
      rcases grown with ⟨end_, grown⟩ | ⟨elsewhere, same⟩
      · -- the fragment was the next one
        have reached : staging.file.length = sending.stop := by grind
        rw [if_pos reached, reached, ← end_, offset]
        simp
      · -- nothing new was staged
        rw [same] at notAll ⊢
        simp only [mem_cons, not_mem_nil, or_false]
        split
        · omega
        split
        · omega
        · omega
    | arrived receiving staging joined staged =>
      obtain ⟨other, same, answer⟩ := settled_arrived welcomes ran
      rw [resynchronized_of_ack here next same answer]
      obtain ⟨-, grown⟩ := staged_ok staged
      rw [stagedFor_of_joined joined, ← next.total]
      refine ⟨fun _ => ?_, fun _ => .inl rfl⟩
      rcases grown with ⟨end_, -⟩ | ⟨-, same⟩
      · rw [← end_, next.offset]
        simp
      · grind

end Exchange

/-! ## In every state a link reaches -/

/-- The transfer under way declares its length. -/
def InParts (stream : Stream) : Prop :=
  ∀ sending ∈ stream.sending, sending.identity.total = sending.bytes.len ∧ sending.identity.ack = false

namespace InParts
variable {stream : Stream}

section
variable (framed : InParts stream)
include framed

theorem start (transport : Transport) (message : Message) :
    InParts (Stream.start transport message stream).2 := by
  unfold Stream.start
  split
  · exact framed
  simp only
  split
  · exact framed
  · rintro sending ⟨⟩
    exact ⟨rfl, rfl⟩

theorem startFile (transport : Transport) (files : Payloads) (message : Message) (payload : Blob) :
    InParts (Stream.startFile transport files message payload stream).2 := by
  unfold Stream.startFile
  split
  · exact framed
  simp only
  split
  · exact framed
  split
  · exact framed
  split
  · exact framed
  · rintro sending ⟨⟩
    exact ⟨rfl, rfl⟩

theorem tick (term : Nat) (leader : Bool) : InParts (stream.tick term leader) := by
  intro sending member
  simp only [Stream.tick, mem_def, bind_eq_some_iff] at member
  obtain ⟨earlier, before, kept⟩ := member
  unfold Stream.tickSending at kept
  split at kept
  · cases kept
  · split at kept <;> cases kept <;> exact framed earlier before

theorem emit : InParts stream.emit.2 := by
  unfold Stream.emit
  split
  · exact framed
  intro sending member
  simp only [sent, mem_def, map_eq_some_iff] at member
  obtain ⟨earlier, before, rfl⟩ := member
  exact framed earlier before

theorem acknowledge (part : Fragment) : InParts (stream.acknowledge part).2 := by
  unfold Stream.acknowledge
  split
  · exact framed
  rename_i sending here
  simp only
  repeat' split
  · exact framed
  · rintro other ⟨⟩
  · rintro other ⟨⟩
    exact framed sending here
  · rintro other ⟨⟩
    exact framed sending here
  · exact framed

end
end InParts

theorem sender_hands (outcome : Except PeerError (Option Message))
    (directory : Payloads) (receiver : Stream) :
    (link.hands outcome directory receiver).sender = link.sender := by
  unfold hands
  split <;> rfl

variable {link : Link}

theorem inParts_step (framed : InParts link.sender) (event : LinkEvent) :
    InParts (link.step ends event).sender := by
  cases event with
  | start message => exact framed.start ends.transport message
  | startFile files message payload => exact framed.startFile ends.transport files message payload
  | abandon =>
    simp only [step, completedSend]
    split
    · rintro sending ⟨⟩
    · exact framed
  | senderTick term leader => exact framed.tick term leader
  | emit => exact framed.emit
  | deliver =>
    simp only [step]
    split
    · exact framed
    unfold delivers
    repeat' split
    · exact framed
    · exact framed
    · rw [sender_hands]
      exact framed
  | acknowledge =>
    simp only [step]
    split
    · exact framed
    unfold acknowledges
    repeat' split
    · exact framed
    all_goals first | exact framed.acknowledge _ | exact framed
  | poll =>
    simp only [step]
    rw [sender_hands]
    exact framed
  | restartSender => rintro sending ⟨⟩
  | receiverTick | emitAcks | restartReceiver => exact framed

theorem inParts_run (directory : Payloads) (events : List LinkEvent) :
    InParts ((fresh ends directory).run ends events).sender := by
  have all : ∀ (events : List LinkEvent) (link : Link), InParts link.sender →
      InParts (link.run ends events).sender := by
    intro events
    induction events with
    | nil => exact fun link framed => framed
    | cons event events ih => exact fun link framed => ih _ (inParts_step ends framed event)
  refine all events _ ?_
  rintro sending ⟨⟩

/-- **Resynchronization in every state a link reaches.**  The next fragment and its acknowledgment
complete the transfer or bring both ends together, exactly when the receiver has completed the
stream or has staged nothing of it, as much as the sender believes, the next fragment too, or all. -/
theorem resynchronizes_iff (ends : Ends) (directory : Payloads) (events : List LinkEvent)
    (sending : Sending) (part : Fragment) (term : Nat)
    (here : ((fresh ends directory).run ends events).sender.sending = some sending)
    (next : sending.next = .ok part)
    (welcomes : Welcomes ends ((fresh ends directory).run ends events) part term) :
    let link := (fresh ends directory).run ends events
    Resynchronized ends link part term ↔
      (∃ completed ∈ link.receiver.completed, completed.sameStream part) ∨
        link.receiver.stagedFor part ∈ [0, sending.offset, sending.stop, sending.bytes.len] := by
  obtain ⟨framed, noAck⟩ := inParts_run ends directory events sending here
  exact exchange_resynchronizes_iff here (nextPart framed noAck next welcomes.valid) welcomes

def smallStart : List LinkEvent := [.start (checkpointMessage [5, 6, 7])]

def smallSending : Sending :=
  let bytes := messageCodec.encode (checkpointMessage [5, 6, 7])
  opening (checkpointMessage [5, 6, 7]) (.memory bytes) (digest bytes) false

def smallPart : Fragment :=
  { smallSending.identity with data := messageCodec.encode (checkpointMessage [5, 6, 7]) }

theorem resynchronizes_iff_small :
    let link := (fresh pairedEnds fun _ => none).run pairedEnds smallStart
    Resynchronized pairedEnds link smallPart 4 ↔
      (∃ completed ∈ link.receiver.completed, completed.sameStream smallPart) ∨
        link.receiver.stagedFor smallPart ∈
          [0, smallSending.offset, smallSending.stop, smallSending.bytes.len] :=
  resynchronizes_iff pairedEnds (fun _ => none) smallStart smallSending smallPart 4
    (by decide +kernel) (by decide +kernel)
    { valid := by decide +kernel
      idle := by decide +kernel
      taken := ⟨some (checkpointMessage [5, 6, 7]), by decide +kernel⟩
      finishes := fun worker => absurd (by decide +kernel) worker }

/-! ## A pair that does not find each other again -/

theorem Link.run_append (events rest : List LinkEvent) :
    link.run ends (events ++ rest) = (link.run ends events).run ends rest :=
  foldl_append

theorem Link.run_singleton (event : LinkEvent) : link.run ends [event] = link.step ends event := rfl

structure Halfway (ends : Ends) (link : Link) (sending : Option Sending) (receiving : Option Receiving)
    (ack : Option Fragment) : Prop where
  sender : link.sender = { new ends.permitted with sending := sending }
  receiver : link.receiver = { new ends.permitted with receiving := receiving, ack := ack }

namespace Halfway
variable {ends : Ends} {link : Link} {sending : Sending} {receiving : Option Receiving}
  {ack : Option Fragment} {part : Fragment} {term : Nat}

theorem emit (half : Halfway ends link (some sending) receiving ack) (ready : sending.ready = true)
    (next : sending.next = .ok part) :
    Halfway ends (link.step ends .emit) (some { sending with ready := false }) receiving ack ∧
      (link.step ends .emit).parts = link.parts ++ [part] ∧
      (link.step ends .emit).acks = link.acks := by
  have due : link.sender.dueFragment = .ok [part] := by
    obtain ⟨data, read, rfl⟩ := Checks.map_eq_ok next
    simp only [Sending.stop] at read
    simp only [dueFragment, half.sender, ready, if_true, read]
    rfl
  have out : link.sender.emit = ([part], link.sender.sent) := by
    simp only [Stream.emit, due]
    rw [Stream.dueAck, half.sender]
    rfl
  simp only [step, out]
  exact ⟨⟨by rw [half.sender]; rfl, half.receiver⟩, trivial, trivial⟩

theorem receive_staged {sending : Option Sending} (half : Halfway ends link sending receiving ack)
    {before after : Receiving} (joined : link.receiver.joined part = .ok (some before))
    (staged : staged part before = .ok after) (short : after.file.length ≠ part.total) :
    receive ends.wire ends.transport part ends.receiverOptions.voters link.receiver
      = (.ok none, { link.receiver with
          receiving := some after, ack := some (part.acknowledgment after.file.length) }) := by
  unfold receive
  rw [if_neg (by simp [half.receiver, new]), if_neg (by simp [half.receiver, new])]
  simp only [joined, staged, if_pos short]

theorem deliver (half : Halfway ends link (some sending) receiving ack) (place : Nat)
    (there : link.parts[place]? = some part) (valid : part.validate ends.receiverOptions term = .ok ())
    (data : part.ack = false) {before after : Receiving}
    (joined : link.receiver.joined part = .ok (some before))
    (staged : staged part before = .ok after) (short : after.file.length ≠ part.total) :
    Halfway ends (link.step ends (.deliver place term)) (some sending) (some after)
        (some (part.acknowledgment after.file.length)) ∧
      (link.step ends (.deliver place term)).parts = link.parts ∧
      (link.step ends (.deliver place term)).acks = link.acks := by
  have took := half.receive_staged joined staged short
  have now : link.step ends (.deliver place term) = { link with receiver := { link.receiver with
      receiving := some after, ack := some (part.acknowledgment after.file.length) } } := by
    simp [step, there, delivers, valid, data, took, hands]
  rw [now]
  exact ⟨⟨half.sender, by rw [half.receiver]⟩, rfl, rfl⟩

theorem emitAcks (half : Halfway ends link (some sending) receiving (some part)) :
    Halfway ends (link.step ends .emitAcks) (some sending) receiving none ∧
      (link.step ends .emitAcks).parts = link.parts ∧
      (link.step ends .emitAcks).acks = link.acks ++ [part] := by
  have out : link.receiver.emit = ([part], link.receiver.sent) := by
    simp only [Stream.emit, dueFragment, Stream.dueAck, half.receiver]
    rfl
  simp only [step, out]
  exact ⟨⟨half.sender, by rw [half.receiver]; rfl⟩, trivial, trivial⟩

theorem acknowledge (half : Halfway ends link (some sending) receiving ack) (place : Nat)
    (there : link.acks[place]? = some (part.acknowledgment sending.stop))
    (valid : (part.acknowledgment sending.stop).validate ends.senderOptions term = .ok ())
    (same : part.key = sending.identity.key) (more : sending.stop ≠ sending.bytes.len) :
    Halfway ends (link.step ends (.acknowledge place term))
        (some { sending with offset := sending.stop, idle := 0, ticks := 0, ready := true }) receiving ack ∧
      (link.step ends (.acknowledge place term)).parts = link.parts := by
  have here : link.sender.sending = some sending := by rw [half.sender]
  have ack : (part.acknowledgment sending.stop).ack = true := rfl
  simp only [step, there, acknowledges, valid, ack, if_true,
    acknowledge_eq here same, if_neg more]
  exact ⟨⟨by rw [half.sender], half.receiver⟩, trivial⟩

theorem expire (ticks : Nat) : ∀ {link : Link} {sending : Sending},
    Halfway ends link (some sending) receiving ack → sending.idle + (ticks + 1) = 100 →
      sending.identity.term = term →
      Halfway ends (link.run ends (List.replicate (ticks + 1) (.senderTick term true))) none
        receiving ack := by
  induction ticks with
  | zero =>
    intro link sending half lasts current
    have expired : Stream.tickSending term true sending = none := by grind [Stream.tickSending]
    refine ⟨?_, half.receiver⟩
    simp only [run, List.replicate, foldl_cons, foldl_nil, step, half.sender,
      Stream.tick, bind_some, expired]
    rfl
  | succ ticks ih =>
    intro link sending half lasts current
    obtain ⟨held, kept, identity, idle⟩ : ∃ held, Stream.tickSending term true sending = some held ∧
        held.identity.term = term ∧ held.idle = sending.idle + 1 := by
      unfold Stream.tickSending
      rw [if_neg (by simp [current]; omega)]
      (repeat' split) <;> exact ⟨_, rfl, current, rfl⟩
    refine @ih _ held ⟨?_, half.receiver⟩ (by omega) identity
    simp only [step, half.sender, Stream.tick, bind_some, kept]
    rfl

end Halfway

/-- A checkpoint file of three fragments, after its envelope. -/
@[irreducible] def longContent : Bytes := List.replicate (3 * snapshotFragmentBytes) 0

def longBlob : Blob := ⟨1, blobMark ++ [49], 3 * snapshotFragmentBytes, digest longContent⟩

def longStart : LinkEvent :=
  .startFile (fun _ => some longContent) (checkpointMessage []) longBlob

/-- Two fragments arrive, the second acknowledgment is lost until the sender gives up, and the
leader sends the checkpoint again. -/
def longRun : List LinkEvent :=
  [longStart] ++ [.emit, .deliver 0 4, .emitAcks, .acknowledge 0 4] ++ [.emit, .deliver 1 4] ++
    List.replicate 100 (.senderTick 4 true) ++ [longStart]

def longSending (offset : Nat) (ready : Bool) : Sending :=
  { opening (checkpointMessage []) (.file (envelope (messageCodec.encode
      (checkpointMessage []))) longContent longBlob) longBlob.manifest.checksum true with
    offset := offset, ready := ready }

def longPart (offset : Nat) : Fragment :=
  { (longSending 0 true).identity with
    offset := offset
    data := ((longSending 0 true).bytes.all.drop offset).take snapshotFragmentBytes }

theorem key_longPart (offset reached : Nat) (ready : Bool) :
    (longPart offset).key = (longSending reached ready).identity.key := by
  simp only [Fragment.key, longPart, longSending, opening]

theorem length_longEnvelope :
    (envelope (messageCodec.encode (checkpointMessage []))).length = 35 := by
  decide +kernel

theorem length_longContent : longContent.length = 3 * snapshotFragmentBytes := by
  rw [longContent, length_replicate]

theorem length_all_longSending (offset : Nat) (ready : Bool) :
    (longSending offset ready).bytes.all.length = 35 + 3 * snapshotFragmentBytes := by
  simp only [longSending, opening, Source.all, length_append, length_longEnvelope,
    length_longContent]

theorem len_longSending (offset : Nat) (ready : Bool) :
    (longSending offset ready).bytes.len = 35 + 3 * snapshotFragmentBytes := by
  simp only [longSending, opening, Source.len, length_longEnvelope, longBlob]

section
variable {offset : Nat} (within : offset ≤ 2 * snapshotFragmentBytes)
include within

theorem stop_longSending (ready : Bool) :
    (longSending offset ready).stop = offset + snapshotFragmentBytes := by
  rw [Sending.stop, len_longSending]
  exact min_eq_left (by simp only [longSending]; omega)

theorem length_longPart : (longPart offset).data.length = snapshotFragmentBytes := by
  simp only [longPart, length_take, length_drop, length_all_longSending]
  omega

theorem next_longSending (ready : Bool) :
    (longSending offset ready).next = .ok (longPart offset) := by
  have long := length_longPart within
  rw [Sending.next, stop_longSending within]
  simp only [longSending, opening, Source.fragment, Nat.add_sub_cancel_left]
  simp only [longPart, longSending, opening, Source.all] at long ⊢
  rw [if_neg (by omega), Except.map]

theorem valid_longPart (aligned : offset % snapshotFragmentBytes = 0) :
    (longPart offset).validate pairedEnds.receiverOptions 4 = .ok () := by
  have total : (longPart offset).total = 35 + 3 * snapshotFragmentBytes := len_longSending 0 true
  have size := length_longPart within
  have ack : (longPart offset).ack = false := rfl
  have here : (longPart offset).offset = offset := rfl
  have known : (longPart offset).to = 2 ∧ (longPart offset).from = 1 ∧ (longPart offset).term = 4 ∧
      (longPart offset).index = 9 ∧ (longPart offset).fileBacked = true := ⟨rfl, rfl, rfl, rfl, rfl⟩
  have options : pairedEnds.receiverOptions.nodeId = 2 ∧
    pairedEnds.receiverOptions.voters = [1, 2, 3] := ⟨rfl, rfl⟩
  simp only [Fragment.validate, known, options, total, here, ack, size, if_true, if_false,
    Bool.false_eq_true, aligned]
  rw [if_neg (by simp [u64Max, maxFileBytes, snapshotFragmentBytes] at within ⊢; omega), if_neg (by omega)]

end

def longReceiving (file : Bytes) : Receiving := ⟨(longPart 0).identity, file, 0⟩

theorem same_longReceiving (file : Bytes) (offset : Nat) :
    (longReceiving file).identity.sameStream (longPart offset) := by
  rw [Fragment.sameStream_iff, longReceiving, Fragment.key_identity, key_longPart 0 0 true,
    key_longPart offset 0 true]

theorem start_long {receiving : Option Receiving} {ack : Option Fragment}
    (half : Halfway pairedEnds link none receiving ack) :
    Halfway pairedEnds (link.step pairedEnds longStart) (some (longSending 0 true)) receiving ack ∧
      (link.step pairedEnds longStart).parts = link.parts ∧
      (link.step pairedEnds longStart).acks = link.acks := by
  have opened : (Stream.startFile pairedEnds.transport (fun _ => some longContent)
      (checkpointMessage []) longBlob link.sender).2
      = { link.sender with sending := some (longSending 0 true) } := by
    unfold Stream.startFile
    rw [half.sender]
    rfl
  simp only [step, longStart, opens, opened]
  exact ⟨⟨by rw [half.sender], half.receiver⟩, trivial, trivial⟩

theorem staged_longPart {offset : Nat} {file : Bytes} (here : file.length = offset) :
    staged (longPart offset) (longReceiving file)
      = .ok (longReceiving (file ++ (longPart offset).data)) := by
  unfold staged
  rw [if_pos (show (longPart offset).offset = (longReceiving file).file.length from here.symm)]
  rfl

theorem valid_longAck :
    ((longPart 0).acknowledgment snapshotFragmentBytes).validate pairedEnds.senderOptions 4 = .ok () := by
  generalize acked : (longPart 0).acknowledgment snapshotFragmentBytes = ack
  have total : ack.total = 35 + 3 * snapshotFragmentBytes := acked ▸ len_longSending 0 true
  have here : ack.offset = snapshotFragmentBytes := acked ▸ rfl
  have known : ack.to = 1 ∧ ack.from = 2 ∧ ack.term = 4 ∧ ack.index = 9 ∧ ack.fileBacked = true ∧
      ack.ack = true ∧ ack.data = [] := acked ▸ ⟨rfl, rfl, rfl, rfl, rfl, rfl, rfl⟩
  have options : pairedEnds.senderOptions.nodeId = 1 ∧
    pairedEnds.senderOptions.voters = [1, 2, 3] := ⟨rfl, rfl⟩
  simp only [Fragment.validate, known, options, total, here, if_true]
  rw [if_neg (by simp [u64Max, maxFileBytes, snapshotFragmentBytes]), if_neg (by simp)]

theorem first_long (half : Halfway pairedEnds link (some (longSending 0 true)) none none)
    (parts : link.parts = []) (acks : link.acks = []) :
    let after := link.run pairedEnds [.emit, .deliver 0 4, .emitAcks, .acknowledge 0 4]
    Halfway pairedEnds after (some (longSending snapshotFragmentBytes true))
      (some (longReceiving (longPart 0).data)) none ∧ after.parts = [longPart 0] := by
  have within := Nat.zero_le (2 * snapshotFragmentBytes)
  have size := length_longPart within
  have stop := stop_longSending within false
  have total : (longPart 0).total = 35 + 3 * snapshotFragmentBytes := len_longSending 0 true
  simp only [run, foldl_cons, foldl_nil]
  obtain ⟨half, parts', acks'⟩ := half.emit rfl (next_longSending within true)
  rw [parts, nil_append] at parts'
  rw [acks] at acks'
  generalize link.step pairedEnds .emit = sent at *
  change Halfway pairedEnds sent (some (longSending 0 false)) none none at half
  have joined : sent.receiver.joined (longPart 0) = .ok (some (longReceiving [])) := by
    rw [half.receiver]
    rfl
  obtain ⟨half, parts, acks⟩ := half.deliver 0 (by rw [parts']; rfl)
    (valid_longPart within (Nat.zero_mod _)) rfl joined (staged_longPart rfl)
    (by rw [total]; simp only [longReceiving, nil_append]; omega)
  rw [parts'] at parts
  rw [acks'] at acks
  generalize sent.step pairedEnds (.deliver 0 4) = taken at *
  obtain ⟨half, parts', acks'⟩ := half.emitAcks
  rw [parts] at parts'
  rw [acks, nil_append] at acks'
  generalize taken.step pairedEnds .emitAcks = answered at *
  have ack : answered.acks[0]? = some ((longPart 0).acknowledgment (longSending 0 false).stop) := by
    rw [acks', stop]
    simp only [longReceiving, nil_append, size]
    rfl
  obtain ⟨half, parts⟩ := half.acknowledge 0 ack (by rw [stop]; exact valid_longAck)
    (key_longPart 0 0 false) (by rw [stop, len_longSending]; omega)
  rw [stop, nil_append] at half
  exact ⟨half, parts.trans parts'⟩

def longStaged : Bytes := (longPart 0).data ++ (longPart snapshotFragmentBytes).data

theorem length_longStaged : longStaged.length = 2 * snapshotFragmentBytes := by
  rw [longStaged, length_append, length_longPart (Nat.zero_le _), length_longPart (by omega)]
  omega

theorem second_long (half : Halfway pairedEnds link (some (longSending snapshotFragmentBytes true))
      (some (longReceiving (longPart 0).data)) none) (parts : link.parts = [longPart 0]) :
    ∃ ack, Halfway pairedEnds (link.run pairedEnds [.emit, .deliver 1 4])
      (some (longSending snapshotFragmentBytes false)) (some (longReceiving longStaged)) ack := by
  have within : snapshotFragmentBytes ≤ 2 * snapshotFragmentBytes := by omega
  have size := length_longPart (Nat.zero_le (2 * snapshotFragmentBytes))
  have size' := length_longPart within
  have total : (longPart snapshotFragmentBytes).total = 35 + 3 * snapshotFragmentBytes :=
    len_longSending 0 true
  simp only [run, foldl_cons, foldl_nil]
  obtain ⟨half, parts', -⟩ := half.emit rfl (next_longSending within true)
  rw [parts] at parts'
  generalize link.step pairedEnds .emit = sent at *
  have joined : sent.receiver.joined (longPart snapshotFragmentBytes)
      = .ok (some (longReceiving (longPart 0).data)) := by
    rw [half.receiver]
    simp only [joined, if_pos (same_longReceiving _ _)]
  obtain ⟨half, -⟩ := half.deliver 1 (by rw [parts']; rfl)
    (valid_longPart within (Nat.mod_self _)) rfl joined (staged_longPart size)
    (by rw [total]; simp only [longReceiving, length_append]; omega)
  exact ⟨_, half⟩

theorem halfway_longRun (fresh : Halfway pairedEnds link none none none)
    (noParts : link.parts = []) (noAcks : link.acks = []) :
    ∃ ack, Halfway pairedEnds (link.run pairedEnds longRun) (some (longSending 0 true))
      (some (longReceiving longStaged)) ack := by
  obtain ⟨started, parts, acks⟩ := start_long fresh
  obtain ⟨first, parts⟩ := first_long started (parts.trans noParts) (acks.trans noAcks)
  obtain ⟨ack, second⟩ := second_long first parts
  have expired := second.expire 99 rfl (rfl : _ = 4)
  refine ⟨ack, ?_⟩
  rw [longRun, run_append, run_append, run_append, run_append,
    run_singleton, run_singleton]
  exact (start_long expired).1

theorem staged_again (rest : Bytes) (more : rest ≠ []) :
    staged (longPart 0) (longReceiving ((longPart 0).data ++ rest))
      = .ok (longReceiving ((longPart 0).data ++ rest)) := by
  have some_ : 0 < rest.length := length_pos_iff.mpr more
  have first : (longPart 0).offset = 0 := rfl
  unfold staged
  simp only [longReceiving, first, length_append, drop_zero, take_left, lt_irrefl,
    if_false, ne_eq, not_true_eq_false]
  rw [if_neg (by omega), if_pos (by omega)]

section Stuck
variable {link : Link} {ack : Option Fragment} (half : Halfway pairedEnds link
  (some (longSending 0 true)) (some (longReceiving longStaged)) ack)
include half

theorem receive_long : receive pairedEnds.wire pairedEnds.transport (longPart 0)
      pairedEnds.receiverOptions.voters link.receiver = (.ok none, { link.receiver with
        receiving := some (longReceiving longStaged)
        ack := some ((longPart 0).acknowledgment (longReceiving longStaged).file.length) }) := by
  have one : 0 < snapshotFragmentBytes := by decide
  have total : (longPart 0).total = 35 + 3 * snapshotFragmentBytes := len_longSending 0 true
  have more := @length_longPart snapshotFragmentBytes (by omega)
  have joined : link.receiver.joined (longPart 0) = .ok (some (longReceiving longStaged)) := by
    rw [half.receiver]
    simp only [joined, if_pos (same_longReceiving _ _)]
  have again : staged (longPart 0) (longReceiving longStaged) = .ok (longReceiving longStaged) := by
    exact staged_again _ (ne_nil_of_length_pos (by rw [more]; exact one))
  have short : (longReceiving longStaged).file.length ≠ (longPart 0).total := by
    rw [longReceiving, length_longStaged, total]
    omega
  exact half.receive_staged joined again short

theorem accepts_long : Welcomes pairedEnds link (longPart 0) 4 := by
  have idle : link.receiver.finishing = none := by
    rw [half.receiver]
    rfl
  exact
    { valid := valid_longPart (Nat.zero_le _) (Nat.zero_mod _)
      idle := idle
      taken := ⟨none, by rw [receive_long half]⟩
      finishes := fun worker => absurd idle (by rw [receive_long half] at worker; exact worker) }

/-- The receiver has staged two fragments, and the sender offers the first: the answer tells the
sender nothing, and both stay where they are. -/
theorem not_resynchronized_long : ¬ Resynchronized pairedEnds link (longPart 0) 4 := by
  have within := Nat.zero_le (2 * snapshotFragmentBytes)
  have welcomes := accepts_long half
  have framed : (longSending 0 true).identity.total = (longSending 0 true).bytes.len := by
    simp only [longSending, opening]
  have part := nextPart framed rfl (next_longSending within true) welcomes.valid
  have staged : link.receiver.stagedFor (longPart 0) = 2 * snapshotFragmentBytes := by
    rw [stagedFor_of_same (by rw [half.receiver]) (same_longReceiving _ 0), longReceiving,
      length_longStaged]
  rw [exchange_resynchronizes_iff (by rw [half.sender]) part welcomes, staged, stop_longSending within,
    len_longSending, show link.receiver.completed = none by rw [half.receiver]; rfl,
    show (longSending 0 true).offset = 0 from rfl]
  rintro (⟨completed, none, -⟩ | inside)
  · cases none
  · exact absurd inside (by decide)

end Stuck

theorem resend_not_resynchronized :
    let link := (fresh pairedEnds fun _ => none).run pairedEnds longRun
    link.sender.sending = some (longSending 0 true) ∧
      (longSending 0 true).next = .ok (longPart 0) ∧ Welcomes pairedEnds link (longPart 0) 4 ∧
      ¬ Resynchronized pairedEnds link (longPart 0) 4 := by
  obtain ⟨ack, half⟩ := @halfway_longRun (fresh pairedEnds fun _ => none) ⟨rfl, rfl⟩ rfl rfl
  exact ⟨by rw [half.sender], next_longSending (Nat.zero_le _) true, accepts_long half,
    not_resynchronized_long half⟩

end MatrixRaft.Peer
