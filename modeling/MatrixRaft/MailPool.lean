/-
# MailPool — mail of a group that is being cancelled

A worker of `DriverWorkerPool` takes a group's handler under a lock, marks the group's
channel as in flight and calls the handler with the lock dropped.  A cancellation takes the
handler out and waits for the mark to go, unless it is made on that worker's own thread.
-/
import MatrixRaft.GroupTables
import MatrixRaft.Types

namespace MatrixRaft
open Theory
variable {Mail : Type}

structure PoolOptions (Mail : Type) where
  (maxQueueDepth driverBatchBytes : Nat)
  mailSize : Option (Mail → Nat)
  workerFor : DriverGroupKey → Nat

/-- The loop of `drain_channel` that cuts by bytes; `batch` is what it holds back. -/
def cutByBytes (size : Mail → Nat) (budget : Nat) : List Mail → List Mail → Nat → List (List Mail)
  | [], batch, _ => if batch.isEmpty then [] else [batch]
  | mail :: rest, batch, bytes =>
    if !batch.isEmpty && satAdd bytes (size mail) > budget then
      batch :: cutByBytes size budget rest [mail] (satAdd 0 (size mail))
    else cutByBytes size budget rest (batch ++ [mail]) (satAdd bytes (size mail))

def PoolOptions.batches (options : PoolOptions Mail) (mails : List Mail) : List (List Mail) :=
  match options.mailSize with
  | none => [mails]
  | some size => cutByBytes size (max options.driverBatchBytes 1) mails [] 0

structure PoolWorker (Mail : Type) where
  inFlight : Option Nat
  left : List (List Mail)
  running : Bool

/-- A call of `cancel_group` that is past the group table, and the worker it is made on. -/
structure PoolCancel where
  channel : Nat
  on : Option Nat

structure MailPool (Mail : Type) where
  groups : DriverGroupKey → Option Nat
  handlers : List Nat
  nextSlot : Nat
  /-- The key a channel was made for. -/
  keys : Nat → DriverGroupKey
  queues : Nat → List Mail
  workers : Nat → PoolWorker Mail
  cancelling : List PoolCancel
  waiting : List Nat
  /-- Channels whose cancellation has returned, and whether their own handler made it. -/
  cancelled : List (Nat × Bool)

inductive PoolAction (Mail : Type) where
  | registerGroup (key : DriverGroupKey)
  /-- A sender that has looked the channel up, perhaps before a cancellation. -/
  | send (channel : Nat) (mail : Mail)
  | drainChannel (channel count : Nat)
  | beginCall (worker : Nat)
  | endCall (worker : Nat)
  | finishedWith (worker : Nat)
  | cancelGroup (on : Option Nat) (key : DriverGroupKey)
  | removeHandler (position : Nat)
  | wakeUp (position : Nat)

namespace MailPool

def start : MailPool Mail :=
  ⟨fun _ => none, [], 1, fun _ => ⟨0, 0⟩, fun _ => [], fun _ => ⟨none, [], false⟩, [], [], []⟩

variable (options : PoolOptions Mail) (s : MailPool Mail)

def workerOf (channel : Nat) : Nat := options.workerFor (s.keys channel)

/-- A cancellation of the channel has to wait. -/
def busy (channel : Nat) : Bool :=
  (s.workers (s.workerOf options channel)).inFlight == some channel

def setWorker (worker : Nat) (now : PoolWorker Mail) : MailPool Mail :=
  { s with workers := Function.update s.workers worker now }

def step : PoolAction Mail → MailPool Mail
  | .registerGroup key =>
    if (s.groups key).isSome then s
    else
      { s with
        groups := Function.update s.groups key (some s.nextSlot)
        handlers := s.nextSlot :: s.handlers
        keys := Function.update s.keys s.nextSlot key
        nextSlot := s.nextSlot + 1 }
  | .send channel mail =>
    if s.nextSlot ≤ channel ∨ options.maxQueueDepth ≤ (s.queues channel).length then s
    else { s with queues := Function.update s.queues channel (s.queues channel ++ [mail]) }
  | .drainChannel channel count =>
    let worker := s.workerOf options channel
    let mails := (s.queues channel).take count
    if (s.workers worker).inFlight.isSome ∨ mails = [] then s
    else
      let taken :=
        { s with queues := Function.update s.queues channel ((s.queues channel).drop count) }
      if channel ∈ s.handlers then
        taken.setWorker worker ⟨some channel, options.batches mails, false⟩
      else taken
  | .beginCall worker =>
    if (s.workers worker).running ∨ (s.workers worker).left = [] then s
    else
      s.setWorker worker
        { s.workers worker with left := (s.workers worker).left.tail, running := true }
  | .endCall worker =>
    -- a handler that is inside `cancel_group` has not returned
    if s.cancelling.any (·.on == some worker) then s
    else s.setWorker worker { s.workers worker with running := false }
  | .finishedWith worker =>
    if (s.workers worker).running ∨ (s.workers worker).left ≠ [] then s
    else s.setWorker worker { s.workers worker with inFlight := none }
  | .cancelGroup on key =>
    match s.groups key with
    | none => s
    | some channel =>
      if on.any fun worker => !(s.workers worker).running then s
      else
        { s with
          groups := Function.update s.groups key none
          cancelling := s.cancelling ++ [⟨channel, on⟩] }
  | .removeHandler position =>
    match s.cancelling[position]? with
    | none => s
    | some call =>
      let own := call.on == some (s.workerOf options call.channel)
      let removed :=
        { s with
          handlers := s.handlers.filter (· ≠ call.channel)
          cancelling := s.cancelling.eraseIdx position }
      if s.busy options call.channel && !own then
        { removed with waiting := s.waiting ++ [call.channel] }
      else
        { removed with
          cancelled := s.cancelled ++ [(call.channel, own && s.busy options call.channel)] }
  | .wakeUp position =>
    match s.waiting[position]? with
    | none => s
    | some channel =>
      if s.busy options channel then s
      else
        { s with
          waiting := s.waiting.eraseIdx position
          cancelled := s.cancelled ++ [(channel, false)] }

def LastBatch : PoolAction Mail → Prop
  | .removeHandler position => ∀ call ∈ s.cancelling[position]?,
    call.on = some (s.workerOf options call.channel) → s.busy options call.channel = true →
      (s.workers (s.workerOf options call.channel)).left = []
  | _ => True

structure Settled (s : MailPool Mail) : Prop where
  handled : ∀ channel ∈ s.handlers, channel < s.nextSlot
  listed : ∀ key channel, s.groups key = some channel → channel < s.nextSlot
  calls : ∀ call ∈ s.cancelling, call.channel < s.nextSlot
  waits : ∀ channel ∈ s.waiting, channel < s.nextSlot ∧ channel ∉ s.handlers
  pinned : ∀ worker channel, (s.workers worker).inFlight = some channel →
    channel < s.nextSlot ∧ s.workerOf options channel = worker
  marked : ∀ worker, (s.workers worker).inFlight = none →
    (s.workers worker).left = [] ∧ (s.workers worker).running = false
  done : ∀ call ∈ s.cancelled, call.1 < s.nextSlot ∧ call.1 ∉ s.handlers ∧
    ∀ worker, (s.workers worker).inFlight = some call.1 →
      (s.workers worker).left = [] ∧ call.2 = true

variable {options} {s : MailPool Mail}

theorem Settled.setWorker (settled : s.Settled options) {worker : Nat} {now : PoolWorker Mail}
    (pinned : ∀ channel, now.inFlight = some channel →
      channel < s.nextSlot ∧ s.workerOf options channel = worker)
    (marked : now.inFlight = none → now.left = [] ∧ now.running = false)
    (done : ∀ call ∈ s.cancelled, now.inFlight = some call.1 → now.left = [] ∧ call.2 = true) :
    (s.setWorker worker now).Settled options := by
  refine ⟨settled.handled, settled.listed, settled.calls, settled.waits, ?_, ?_, ?_⟩
  · intro other channel flies
    by_cases is : other = worker
    · subst is
      exact pinned channel (by simpa [MailPool.setWorker] using flies)
    · exact settled.pinned other channel (by simpa [MailPool.setWorker, is] using flies)
  · intro other
    by_cases is : other = worker
    · subst is
      simpa [MailPool.setWorker] using marked
    · simpa [MailPool.setWorker, is] using settled.marked other
  · intro call returned
    refine ⟨(settled.done call returned).1, (settled.done call returned).2.1, fun other => ?_⟩
    by_cases is : other = worker
    · subst is
      simpa [MailPool.setWorker] using done call returned
    · simpa [MailPool.setWorker, is] using (settled.done call returned).2.2 other

theorem Settled.step (settled : s.Settled options) (action : PoolAction Mail)
    (last : s.LastBatch options action) : (s.step options action).Settled options := by
  obtain ⟨handled, listed, calls, waits, pinned, marked, done⟩ := id settled
  unfold MailPool.step
  cases action with
  | registerGroup =>
    dsimp only
    split
    · exact settled
    · exact ⟨by grind, by grind, by grind, by grind, by grind [workerOf], marked, by grind⟩
  | send =>
    dsimp only
    split
    · exact settled
    · exact ⟨handled, listed, calls, waits, pinned, marked, done⟩
  | drainChannel channel count =>
    dsimp only
    split
    · exact settled
    · have taken : Settled options { s with
          queues := Function.update s.queues channel ((s.queues channel).drop count) } :=
        ⟨handled, listed, calls, waits, pinned, marked, done⟩
      split
      · exact taken.setWorker (by grind [workerOf]) (by grind) (by grind)
      · exact taken
  | beginCall worker | endCall worker =>
    dsimp only
    split
    · exact settled
    · exact settled.setWorker (pinned worker) (by grind) (by grind)
  | finishedWith =>
    dsimp only
    split
    · exact settled
    · exact settled.setWorker (by grind) (by grind) (by grind)
  | cancelGroup =>
    dsimp only
    split
    · exact settled
    · split
      · exact settled
      · exact ⟨handled, by grind, by grind, waits, pinned, marked, done⟩
  | removeHandler position =>
    dsimp only
    split
    · exact settled
    · rename_i call found
      have low := calls call (List.mem_of_getElem? found)
      have rest : ∀ other ∈ s.cancelling.eraseIdx position, other.channel < s.nextSlot :=
        fun other kept => calls other (List.mem_of_mem_eraseIdx kept)
      have fits := last call found
      split
      · exact ⟨by grind, listed, rest, by grind, pinned, marked, by grind⟩
      · exact ⟨by grind, listed, rest, by grind, pinned, marked, by grind [busy]⟩
  | wakeUp =>
    dsimp only
    split
    · exact settled
    · rename_i channel found
      have gone := waits channel (List.mem_of_getElem? found)
      split
      · exact settled
      · exact ⟨handled, listed, calls, fun other kept => waits other (List.mem_of_mem_eraseIdx kept),
          pinned, marked, by grind [busy]⟩

/-- **Mail of a cancelled group.** If handlers cancel their own group only from the last batch of
a drain, then of a registration whose cancellation has returned no handler call begins, and one
that runs is the one that made it. -/
theorem cancelled_gets_no_mail (options : PoolOptions Mail) (actions : List (PoolAction Mail))
    (careful : Along (step options) (LastBatch options) start actions) :
    ∀ s, s = actions.foldl (step options) start → ∀ call ∈ s.cancelled, ∀ worker,
      (s.workers worker).inFlight = some call.1 →
      ((s.workers worker).running = true → call.2 = true) ∧ ((s.workers worker).running = false →
        ((s.step options (.beginCall worker)).workers worker).running = false) := by
  rintro s rfl call returned worker marked
  have begun : (start : MailPool Mail).Settled options :=
    ⟨nofun, nofun, nofun, nofun, nofun, fun _ _ => ⟨rfl, rfl⟩, nofun⟩
  have settled := careful.invariant
    (fun s action (settled : Settled options s) => settled.step action) begun
  obtain ⟨-, -, own⟩ := settled.done call returned
  obtain ⟨none, made⟩ := own worker marked
  refine ⟨fun _ => made, fun idle => ?_⟩
  simp only [step, none, or_true, if_true]
  exact idle

/-- One worker, batches of one byte. -/
def oneByOne : PoolOptions Nat := ⟨10, 1, some fun _ => 1, fun _ => 0⟩

def cancelsItself (mails : List Nat) : List (PoolAction Nat) :=
  .registerGroup group :: mails.map (.send 1) ++ [.drainChannel 1 10, .beginCall 0,
    .cancelGroup (some 0) group, .removeHandler 0, .endCall 0]

theorem cancelled_gets_no_mail_own :
    ((((cancelsItself [7]).foldl (step oneByOne) start).step oneByOne (.beginCall 0)).workers
      0).running = false :=
  (cancelled_gets_no_mail oneByOne (cancelsItself [7])
    ⟨trivial, trivial, trivial, trivial, trivial, fun _ is _ _ => by cases is; rfl, trivial, trivial⟩
    _ rfl (1, true) (List.mem_singleton_self _) 0 rfl).2 rfl

/-- The drain goes on to the second batch. -/
theorem second_batch_begins :
    ∃ s, s = (cancelsItself [7, 8]).foldl (step oneByOne) start ∧ s.cancelled = [(1, true)] ∧
      (s.workers 0).running = false ∧
      ((s.step oneByOne (.beginCall 0)).workers 0).inFlight = some 1 ∧
      ((s.step oneByOne (.beginCall 0)).workers 0).running = true :=
  ⟨_, rfl, rfl, rfl, rfl, rfl⟩

end MailPool
end MatrixRaft
