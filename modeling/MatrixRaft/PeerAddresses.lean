/-
# PeerAddresses — a peer that moves while requests are on their way

`set_peer_addr` replaces an address under one lock and drops the pooled connections under another;
a send in between holds a connection of its own, and puts it into the pool when it is done.
-/
import MatrixRaft.Theory.Attempt

namespace MatrixRaft
open Theory List Function

/-- Where `send_rpc` is; a connection stands for the address it was opened to. -/
inductive SendStage where
  | addressed | connecting
  | holding (connection : String) (pooled : Bool)
  | written (connection : String) (pooled : Bool)

structure RpcSend where
  target : Nat
  addr : String
  stage : SendStage

structure TcpRaftTransport where
  peers : Nat → Option String
  idle : Nat → List String
  connectionsPerPeer : Nat
  sends : List RpcSend
  /-- A change of address that still has to drop the pool, with the address it replaced. -/
  moving : Nat → Option (Option String)
  /-- What the last change that has returned replaced. -/
  previous : Nat → Option String
  /-- Each request's connection, and `previous` of its peer as it was written. -/
  written : List (String × Option String)

inductive TransportAction where
  | setPeerAddr (target : Nat) (addr : String)
  | dropIdle (target : Nat)
  | sendRpc (target : Nat)
  /-- A send whose connect failed has asked the resolver. -/
  | reAddress (position : Nat)
  | advance (position : Nat) (ok : Bool)

namespace TcpRaftTransport

def new (peers : Nat → Option String) (connectionsPerPeer : Nat) : TcpRaftTransport :=
  ⟨peers, fun _ => [], connectionsPerPeer, [], fun _ => none, fun _ => none, []⟩

variable (s : TcpRaftTransport)

def storeIdle (target : Nat) (connection : String) : TcpRaftTransport :=
  if (s.idle target).length < s.connectionsPerPeer then
    { s with idle := update s.idle target (connection :: s.idle target) }
  else s

variable (position : Nat)

def goTo (send : RpcSend) (stage : SendStage) : TcpRaftTransport :=
  { s with sends := s.sends.set position { send with stage := stage } }

/-- A failure on a pooled connection is retried on a fresh one. -/
def failed (send : RpcSend) (pooled : Bool) : TcpRaftTransport :=
  if pooled then s.goTo position send .connecting else { s with sends := s.sends.eraseIdx position }

def advance (send : RpcSend) (ok : Bool) : TcpRaftTransport :=
  match send.stage with
  | .addressed =>
    match s.idle send.target with
    | [] => s.goTo position send .connecting
    | connection :: rest =>
      { s with idle := update s.idle send.target rest }.goTo position send
        (.holding connection true)
  | .connecting =>
    if ok then s.goTo position send (.holding send.addr false) else s.failed position send false
  | .holding connection pooled =>
    if ok then
      { s with written := s.written ++ [(connection, s.previous send.target)] }.goTo position send
        (.written connection pooled)
    else s.failed position send pooled
  | .written connection pooled =>
    if ok then { s.storeIdle send.target connection with sends := s.sends.eraseIdx position }
    else s.failed position send pooled

/-- An action that cannot be taken changes nothing. -/
def step : TransportAction → TcpRaftTransport
  | .setPeerAddr target addr =>
    if s.peers target = some addr then s
    else
      { s with
        peers := update s.peers target (some addr)
        moving := update s.moving target (some (s.peers target)) }
  | .dropIdle target =>
    match s.moving target with
    | none => s
    | some replaced =>
      { s with
        idle := update s.idle target []
        moving := update s.moving target none
        previous := update s.previous target replaced }
  | .sendRpc target =>
    match s.peers target with
    | none => s
    | some addr => { s with sends := s.sends ++ [⟨target, addr, .addressed⟩] }
  | .reAddress position =>
    match s.sends[position]? with
    | none => s
    | some send =>
      let addr := (s.peers send.target).getD send.addr
      { s with sends := s.sends.set position { send with addr := addr } }
  | .advance position ok =>
    match s.sends[position]? with
    | none => s
    | some send => s.advance position send ok

/-- A peer's address changes while no send to it is under way, and none begins before the change
has returned. -/
def Undisturbed : TransportAction → Prop
  | .setPeerAddr target _ => s.moving target = none ∧ ∀ send ∈ s.sends, send.target ≠ target
  | .sendRpc target => s.moving target = none
  | _ => True

/-- The connection of a stage, if there is one, was opened to the address. -/
def SendStage.To (addr : Option String) : SendStage → Prop
  | .holding connection _ | .written connection _ => some connection = addr
  | _ => True

structure Current (s : TcpRaftTransport) : Prop where
  pooled : ∀ target, s.moving target = none →
    ∀ connection ∈ s.idle target, some connection = s.peers target
  sent : ∀ send ∈ s.sends, s.moving send.target = none ∧ some send.addr = s.peers send.target ∧
    SendStage.To (s.peers send.target) send.stage
  moved : ∀ target addr, s.moving target = none → s.peers target = some addr →
    s.previous target ≠ some addr
  leaves : ∀ target replaced, s.moving target = some replaced → replaced ≠ s.peers target
  apart : ∀ request ∈ s.written, some request.1 ≠ request.2

variable {s : TcpRaftTransport}

section
variable (current : s.Current)
include current

theorem Current.goTo {position : Nat} {send : RpcSend} {stage : SendStage}
    (held : send ∈ s.sends) (opened : SendStage.To (s.peers send.target) stage) :
    (s.goTo position send stage).Current := by
  refine ⟨current.pooled, fun other member => ?_, current.moved, current.leaves, current.apart⟩
  rcases mem_or_eq_of_mem_set member with old | rfl
  · exact current.sent other old
  · exact ⟨(current.sent send held).1, (current.sent send held).2.1, opened⟩

theorem Current.drop : { s with sends := s.sends.eraseIdx position }.Current :=
  ⟨current.pooled, fun send member => current.sent send (mem_of_mem_eraseIdx member),
    current.moved, current.leaves, current.apart⟩

theorem Current.failed {position : Nat} {send : RpcSend} {pooled : Bool}
    (held : send ∈ s.sends) : (s.failed position send pooled).Current := by
  unfold TcpRaftTransport.failed
  split
  · exact current.goTo held trivial
  · exact current.drop position

theorem Current.advance {position : Nat} {send : RpcSend}
    (held : send ∈ s.sends) (ok : Bool) : (s.advance position send ok).Current := by
  obtain ⟨still, addressed, opened⟩ := current.sent send held
  unfold TcpRaftTransport.advance
  split
  case h_1 =>
    split
    · exact current.goTo held trivial
    · rename_i connection rest idle
      have taken : Current { s with idle := update s.idle send.target rest } :=
        ⟨by grind [current.pooled], current.sent, current.moved, current.leaves, current.apart⟩
      exact taken.goTo held (current.pooled send.target still connection (by simp [idle]))
  case h_2 =>
    split
    · exact current.goTo held addressed
    · exact current.failed held
  case h_3 connection pooled stage =>
    rw [stage] at opened
    split
    · have wrote : Current { s with
          written := s.written ++ [(connection, s.previous send.target)] } := by
        refine ⟨current.pooled, current.sent, current.moved, current.leaves, fun request member => ?_⟩
        rcases mem_append.mp member with old | new
        · exact current.apart request old
        · rw [mem_singleton.mp new]
          exact (current.moved send.target connection still opened.symm).symm
      exact wrote.goTo held opened
    · exact current.failed held
  case h_4 connection pooled stage =>
    rw [stage] at opened
    split
    · have stored : (s.storeIdle send.target connection).Current := by
        unfold TcpRaftTransport.storeIdle
        split
        · exact ⟨by grind [current.pooled, SendStage.To], current.sent, current.moved,
            current.leaves, current.apart⟩
        · exact current
      have same : (s.storeIdle send.target connection).sends = s.sends := by
        unfold TcpRaftTransport.storeIdle
        split <;> rfl
      rw [← same]
      exact stored.drop position
    · exact current.failed held

theorem Current.step (action : TransportAction)
    (undisturbed : s.Undisturbed action) : (s.step action).Current := by
  unfold TcpRaftTransport.step
  cases action with
  | setPeerAddr =>
    obtain ⟨still, none⟩ := undisturbed
    dsimp only
    split
    · exact current
    · exact ⟨by grind [current.pooled], by grind [current.sent], by grind [current.moved],
        by grind [current.leaves], current.apart⟩
  | dropIdle =>
    dsimp only
    split
    · exact current
    · exact ⟨by grind [current.pooled], by grind [current.sent],
        by grind [current.moved, current.leaves], by grind [current.leaves], current.apart⟩
  | sendRpc =>
    dsimp only
    split
    · exact current
    · refine ⟨current.pooled, ?_, current.moved, current.leaves, current.apart⟩
      intro send member
      rcases mem_append.mp member with old | new
      · exact current.sent send old
      · rw [mem_singleton.mp new]
        exact ⟨undisturbed, by grind, trivial⟩
  | reAddress =>
    dsimp only
    split
    · exact current
    · rename_i send found
      have held := mem_of_getElem? found
      refine ⟨current.pooled, fun other member => ?_, current.moved, current.leaves, current.apart⟩
      rcases mem_or_eq_of_mem_set member with old | rfl
      · exact current.sent other old
      · obtain ⟨still, addressed, opened⟩ := current.sent send held
        exact ⟨still, by grind, opened⟩
  | advance position ok =>
    dsimp only
    split
    · exact current
    · exact current.advance (mem_of_getElem? ‹_›) ok

end

/-- **Moved peers.** If addresses change undisturbed, no request is written to a connection that
was opened to the address the last change replaced. -/
theorem writes_to_current (peers : Nat → Option String) (connectionsPerPeer : Nat)
    (actions : List TransportAction)
    (careful : Along step Undisturbed (new peers connectionsPerPeer) actions) :
    ∀ request ∈ (actions.foldl step (new peers connectionsPerPeer)).written,
      some request.1 ≠ request.2 := by
  have begun : (new peers connectionsPerPeer).Current :=
    ⟨fun _ _ => nofun, nofun, fun _ _ _ _ => nofun, nofun, nofun⟩
  exact (careful.invariant (fun s action (current : Current s) => current.step action) begun).apart

theorem writes_to_current_moved :
    let s := [.setPeerAddr 1 "b", .dropIdle 1, .sendRpc 1, .advance 0 true, .advance 0 true,
      .advance 0 true].foldl step (new (fun _ => some "a") 4)
    s.written = [("b", some "a")] ∧ ∀ request ∈ s.written, some request.1 ≠ request.2 :=
  ⟨rfl, writes_to_current (fun _ => some "a") 4 _
    ⟨⟨rfl, nofun⟩, trivial, rfl, trivial, trivial, trivial, trivial⟩⟩

/-- A send that began before the move returns its connection to the pool after it. -/
theorem old_connection_reused :
    ([.sendRpc 1, .advance 0 true, .advance 0 true, .advance 0 true, .setPeerAddr 1 "b",
      .dropIdle 1, .advance 0 true, .sendRpc 1, .advance 0 true, .advance 0 true].foldl step
        (new (fun _ => some "a") 4)).written = [("a", none), ("a", some "a")] := rfl

end TcpRaftTransport
end MatrixRaft
