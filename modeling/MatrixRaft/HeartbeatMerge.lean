/-
# HeartbeatMerge — heartbeats that travel together

`heartbeat_merge.rs` holds heartbeats back in buckets of one lock each.  A flush takes them bucket
by bucket, and the calls and flushes of many threads interleave in between.
-/
import MatrixRaft.Messages
import MatrixRaft.Theory.Attempt

namespace MatrixRaft
open Theory Attempt List

inductive HeartbeatMergeMessage where
  | appendEntriesRequest (target : Nat) (request : AppendEntriesRequest)
  | appendEntriesResponse (localNodeId peerId : Nat) (response : AppendEntriesResponse)

def HeartbeatMergeMessage.fromNodeId : HeartbeatMergeMessage → Nat
  | .appendEntriesRequest _ request => request.leaderId
  | .appendEntriesResponse localNodeId _ _ => localNodeId

def HeartbeatMergeMessage.toNodeId : HeartbeatMergeMessage → Nat
  | .appendEntriesRequest target _ => target
  | .appendEntriesResponse _ peerId _ => peerId

/-- A message of the host; `α` are those that are no appends. -/
inductive Message (α : Type) where
  | appendEntries (target : Nat) (request : AppendEntriesRequest)
  | other (message : α)

abbrev AddressResolver := Nat → Nat → Except RaftError String

abbrev Addressed := String × HeartbeatMergeMessage

/-- A bucket holds its messages in the order of arrival; the vector of an address are its own. -/
structure HeartbeatMerger where
  enabled : Bool
  bucketCount : Nat
  hash : String → Nat
  buckets : Nat → List Addressed

variable {α : Type}

namespace HeartbeatMerger

variable (m : HeartbeatMerger)

def bucketForAddr (raftAddr : String) : Nat := m.hash raftAddr % max m.bucketCount 1

/-- The bucket of its address is locked, and the message put last in it. -/
def push (message : Addressed) : HeartbeatMerger :=
  let bucket := m.bucketForAddr message.1
  { m with buckets := Function.update m.buckets bucket (m.buckets bucket ++ [message]) }

/-- `std::mem::take` on one bucket. -/
def drain (bucket : Nat) : HeartbeatMerger :=
  { m with buckets := Function.update m.buckets bucket [] }

def queueHeartbeat (heartbeat : HeartbeatMergeMessage) (resolver : AddressResolver) :
    Attempt HeartbeatMerger RaftError Unit := fun m =>
  match resolver heartbeat.fromNodeId heartbeat.toNodeId with
  | .error error => (.error error, m)
  | .ok raftAddr => (.ok (), m.push (raftAddr, heartbeat))

def maybeMerge (message : Message α) (resolver : AddressResolver) :
    Attempt HeartbeatMerger RaftError (Option (Message α)) := fun m =>
  if m.enabled then
    match message with
    | .appendEntries target request =>
      if request.entries.isEmpty then
        (queueHeartbeat (.appendEntriesRequest target request) resolver >>= fun _ => pure none) m
      else (.ok (some message), m)
    | .other _ => (.ok (some message), m)
  else (.ok (some message), m)

def mergeHeartbeatResponse (localNodeId peerId : Nat) (response : AppendEntriesResponse)
    (resolver : AddressResolver) : Attempt HeartbeatMerger RaftError Unit := fun m =>
  if m.enabled then
    queueHeartbeat (.appendEntriesResponse localNodeId peerId response) resolver m
  else (.ok (), m)

end HeartbeatMerger

open HeartbeatMerger

/-! ## Offers -/

/-- What a caller offers: through `maybe_merge`, or through `merge_heartbeat_response`. -/
inductive Offered (α : Type) where
  | message (message : Message α)
  | response (localNodeId peerId : Nat) (response : AppendEntriesResponse)

namespace Offered

/-- The heartbeat in what is offered, if it is one. -/
def heartbeat : Offered α → Option HeartbeatMergeMessage
  | .message (.appendEntries target request) =>
    if request.entries.isEmpty then some (.appendEntriesRequest target request) else none
  | .message (.other _) => none
  | .response localNodeId peerId answer => some (.appendEntriesResponse localNodeId peerId answer)

/-- The call that offers it; a response has nothing to hand back but an error. -/
def call (resolver : AddressResolver) :
    Offered α → Attempt HeartbeatMerger RaftError (Option (Message α))
  | .message sent => maybeMerge sent resolver
  | .response localNodeId peerId answer => do
    mergeHeartbeatResponse localNodeId peerId answer resolver
    pure none

end Offered

/-- A call that has returned: what was offered, with which resolver, and the answer to it. -/
structure Offer (α : Type) where
  offered : Offered α
  resolver : AddressResolver
  answer : Except RaftError (Option (Message α))

namespace Offer

/-- The heartbeat that was offered, under the address its resolver gives for it. -/
def addressed (offer : Offer α) : Option Addressed :=
  offer.offered.heartbeat.bind fun heartbeat =>
    match offer.resolver heartbeat.fromNodeId heartbeat.toNodeId with
    | .error _ => none
    | .ok raftAddr => some (raftAddr, heartbeat)

/-- The call failed, or returned the very message it was given. -/
def HandedBack (offer : Offer α) : Prop :=
  (∃ error, offer.answer = .error error) ∨
    ∃ message, offer.offered = .message message ∧ offer.answer = .ok (some message)

/-- What the merger kept of the offer. -/
def kept (offer : Offer α) : Option Addressed :=
  match offer.answer with
  | .ok none => offer.addressed
  | _ => none

theorem HandedBack.kept {offer : Offer α} (back : offer.HandedBack) : offer.kept = none := by
  rcases back with ⟨error, answer⟩ | ⟨message, -, answer⟩ <;> rw [Offer.kept, answer]

end Offer

/-! ## The threads -/

inductive MergeAction (α : Type) where
  | offer (offered : Offered α) (resolver : AddressResolver)
  | beginFlush
  | takeBucket (flush : Nat)

/-- The next bucket of each flush, what each flush has taken, and the calls that have returned. -/
structure HeartbeatMerging (α : Type) where
  merger : HeartbeatMerger
  flushes : List Nat
  taken : List (Nat × Addressed)
  returned : List (Offer α)

namespace HeartbeatMerging

def start (merger : HeartbeatMerger) : HeartbeatMerging α := ⟨merger, [], [], []⟩

/-- A call takes its bucket's lock once, and a flush one lock after another. -/
def step (s : HeartbeatMerging α) : MergeAction α → HeartbeatMerging α
  | .offer offered resolver =>
    let called := offered.call resolver s.merger
    { s with
      merger := called.2
      returned := s.returned ++ [⟨offered, resolver, called.1⟩] }
  | .beginFlush => { s with flushes := s.flushes ++ [0] }
  | .takeBucket flush =>
    match s.flushes[flush]? with
    | none => s
    | some next =>
      if next < s.merger.bucketCount then
        { s with
          merger := s.merger.drain next
          flushes := s.flushes.set flush (next + 1)
          taken := s.taken ++ (s.merger.buckets next).map (flush, ·) }
      else s

/-- Responses are offered to an enabled merger. -/
def Enabled (s : HeartbeatMerging α) : MergeAction α → Prop
  | .offer (.response ..) _ => s.merger.enabled = true
  | _ => True

def For (raftAddr : String) (messages : List Addressed) : List Addressed :=
  messages.filter (·.1 = raftAddr)

end HeartbeatMerging

/-! ## One bucket -/

namespace HeartbeatMerger
open HeartbeatMerging
variable (m : HeartbeatMerger) (raftAddr : String)

def heldFor : List Addressed := For raftAddr (m.buckets (m.bucketForAddr raftAddr))

/-- Every message lies in the bucket of its address. -/
def Placed : Prop := ∀ bucket, ∀ message ∈ m.buckets bucket, m.bucketForAddr message.1 = bucket

theorem push_heldFor (message : Addressed) :
    (m.push message).heldFor raftAddr = m.heldFor raftAddr ++ For raftAddr [message] := by
  change For raftAddr ((m.push message).buckets (m.bucketForAddr raftAddr)) = _
  by_cases same : m.bucketForAddr raftAddr = m.bucketForAddr message.1
  · have grown : (m.push message).buckets (m.bucketForAddr raftAddr)
        = m.buckets (m.bucketForAddr raftAddr) ++ [message] := by
      rw [same]
      exact Function.update_self ..
    rw [grown, For, filter_append]
    rfl
  · have still : (m.push message).buckets (m.bucketForAddr raftAddr)
        = m.buckets (m.bucketForAddr raftAddr) := Function.update_of_ne same ..
    have elsewhere : message.1 ≠ raftAddr := fun here => same (by rw [here])
    have none : For raftAddr [message] = [] := by simp [For, elsewhere]
    rw [still, none, append_nil]
    rfl

theorem drain_heldFor (placed : m.Placed) (bucket : Nat) :
    m.heldFor raftAddr = For raftAddr (m.buckets bucket) ++ (m.drain bucket).heldFor raftAddr := by
  change _ = _ ++ For raftAddr ((m.drain bucket).buckets (m.bucketForAddr raftAddr))
  by_cases here : m.bucketForAddr raftAddr = bucket
  · have emptied : (m.drain bucket).buckets (m.bucketForAddr raftAddr) = [] := by
      rw [here]
      exact Function.update_self ..
    rw [emptied, ← here]
    exact (append_nil _).symm
  · have still : (m.drain bucket).buckets (m.bucketForAddr raftAddr)
        = m.buckets (m.bucketForAddr raftAddr) := Function.update_of_ne here ..
    have none : For raftAddr (m.buckets bucket) = [] := by
      refine filter_eq_nil_iff.mpr fun message member is => here ?_
      rw [← of_decide_eq_true is]
      exact placed bucket message member
    rw [still, none, nil_append]
    rfl

variable {m}

theorem Placed.push (placed : m.Placed) (message : Addressed) : (m.push message).Placed := by
  intro bucket other member
  change other ∈ Function.update m.buckets _ _ bucket at member
  by_cases here : bucket = m.bucketForAddr message.1
  · subst here
    rw [Function.update_self] at member
    rcases mem_append.mp member with old | new
    · exact placed _ other old
    · rw [mem_singleton.mp new]
      rfl
  · rw [Function.update_of_ne here] at member
    exact placed bucket other member

theorem Placed.drain (placed : m.Placed) (taken : Nat) : (m.drain taken).Placed := by
  intro bucket other member
  change other ∈ Function.update m.buckets _ _ bucket at member
  by_cases here : bucket = taken
  · subst here
    rw [Function.update_self] at member
    cases member
  · rw [Function.update_of_ne here] at member
    exact placed bucket other member

end HeartbeatMerger

/-! ## One call -/

/-- What a call does: it hands the message back and leaves the merger, or it puts the heartbeat in
the bucket of the address its resolver gives. -/
inductive Offer.Settles (offer : Offer α) (m m' : HeartbeatMerger) : Prop
  | handedBack (back : offer.HandedBack) (same : m' = m)
  | queued (message : Addressed) (none : offer.answer = .ok none)
      (addressed : offer.addressed = some message) (pushed : m' = m.push message)

section
variable (m : HeartbeatMerger) (resolver : AddressResolver)

theorem queueHeartbeat_settles {offered : Offered α} {heartbeat : HeartbeatMergeMessage}
    (found : offered.heartbeat = some heartbeat) :
    let called := (queueHeartbeat heartbeat resolver >>= fun _ => pure none) m
    Offer.Settles ⟨offered, resolver, called.1⟩ m called.2 := by
  rw [bind_apply, queueHeartbeat]
  rcases answer : resolver heartbeat.fromNodeId heartbeat.toNodeId with error | raftAddr
  · exact .handedBack (.inl ⟨error, rfl⟩) rfl
  · refine .queued (raftAddr, heartbeat) rfl ?_ rfl
    simp only [Offer.addressed, found, Option.bind_some, answer]

theorem Offered.call_settles (offered : Offered α)
    (enabled : ∀ localNodeId peerId response, offered = .response localNodeId peerId response →
      m.enabled = true) :
    Offer.Settles ⟨offered, resolver, (offered.call resolver m).1⟩ m (offered.call resolver m).2 := by
  cases offered with
  | message message =>
    unfold call maybeMerge
    dsimp only
    split
    · cases message with
      | appendEntries target request =>
        dsimp only
        split
        · rename_i empty
          exact queueHeartbeat_settles m resolver (by rw [heartbeat, if_pos empty])
        · exact .handedBack (.inr ⟨_, rfl, rfl⟩) rfl
      | other => exact .handedBack (.inr ⟨_, rfl, rfl⟩) rfl
    · exact .handedBack (.inr ⟨_, rfl, rfl⟩) rfl
  | response localNodeId peerId response =>
    have merges : mergeHeartbeatResponse localNodeId peerId response resolver m
        = queueHeartbeat (.appendEntriesResponse localNodeId peerId response) resolver m := by
      rw [mergeHeartbeatResponse, if_pos (enabled _ _ _ rfl)]
    rw [call, bind_apply, merges, ← bind_apply]
    exact queueHeartbeat_settles m resolver rfl

end

/-! ## Runs -/

namespace HeartbeatMerging

/-- Every call has handed its message back or kept it under its address; what was kept for an address
is what flushes took for it, in order, and what is left. -/
structure Sound (s : HeartbeatMerging α) : Prop where
  placed : s.merger.Placed
  settled : ∀ offer ∈ s.returned, offer.HandedBack ∨
    offer.answer = .ok none ∧ ∃ message, offer.addressed = some message
  ordered : ∀ raftAddr, For raftAddr (s.returned.filterMap Offer.kept)
    = For raftAddr (s.taken.map Prod.snd) ++ s.merger.heldFor raftAddr

variable {s : HeartbeatMerging α}

section
variable (sound : s.Sound)
include sound

theorem Sound.settle {offer : Offer α} {merger : HeartbeatMerger}
    (settles : offer.Settles s.merger merger) :
    Sound { s with merger := merger, returned := s.returned ++ [offer] } := by
  have settled : ∀ other ∈ s.returned ++ [offer], other.HandedBack ∨
      other.answer = .ok none ∧ ∃ message, other.addressed = some message := by
    intro other member
    rcases mem_append.mp member with old | new
    · exact sound.settled other old
    · rw [mem_singleton.mp new]
      cases settles with
      | handedBack back => exact .inl back
      | queued message none addressed => exact .inr ⟨none, message, addressed⟩
  have grows : ∀ raftAddr, For raftAddr ((s.returned ++ [offer]).filterMap Offer.kept)
      = For raftAddr (s.returned.filterMap Offer.kept) ++ For raftAddr offer.kept.toList := by
    intro raftAddr
    have last : [offer].filterMap Offer.kept = offer.kept.toList := by
      rcases kept : offer.kept with _ | message
      · rw [filterMap_cons_none kept]
        rfl
      · rw [filterMap_cons_some kept]
        rfl
    rw [filterMap_append, last, For, filter_append]
    rfl
  cases settles with
  | handedBack back same =>
    subst same
    refine ⟨sound.placed, settled, fun raftAddr => ?_⟩
    rw [grows, back.kept]
    exact (append_nil _).trans (sound.ordered raftAddr)
  | queued message none addressed pushed =>
    subst pushed
    refine ⟨sound.placed.push message, settled, fun raftAddr => ?_⟩
    have kept : offer.kept = some message := by rw [Offer.kept, none, addressed]
    rw [grows, kept, sound.ordered, append_assoc, push_heldFor]
    rfl

theorem Sound.take (flush next : Nat) : Sound { s with
    merger := s.merger.drain next
    flushes := s.flushes.set flush (next + 1)
    taken := s.taken ++ (s.merger.buckets next).map (flush, ·) } := by
  refine ⟨sound.placed.drain next, sound.settled, fun raftAddr => ?_⟩
  have batch : ((s.merger.buckets next).map (flush, ·)).map Prod.snd = s.merger.buckets next := by
    simp [Function.comp_def]
  rw [sound.ordered raftAddr, drain_heldFor _ raftAddr sound.placed next, ← append_assoc, map_append,
    batch, For, For, For, filter_append]

theorem Sound.step (action : MergeAction α) (enabled : s.Enabled action) :
    (s.step action).Sound := by
  cases action with
  | offer offered resolver =>
    refine sound.settle (Offered.call_settles s.merger resolver offered ?_)
    rintro localNodeId peerId response rfl
    exact enabled
  | beginFlush => exact ⟨sound.placed, sound.settled, sound.ordered⟩
  | takeBucket flush =>
    dsimp only [HeartbeatMerging.step]
    split
    · exact sound
    · split
      · exact sound.take flush _
      · exact sound

end

end HeartbeatMerging
end MatrixRaft
