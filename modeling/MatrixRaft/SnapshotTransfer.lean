/-
# SnapshotTransfer — a whole transfer over a link that loses and repeats

Everything that was ever sent stays on the link: a message is lost by never being
delivered, and repeated by being delivered again, in any order.  The sender counts the
accepting answers without knowing which chunk each one is for.
-/
import MatrixRaft.SnapshotResend

namespace MatrixRaft
open Theory List SnapshotLifecycle SnapshotDownloader

/-! ## The chunks of a checkpoint -/

def chunkBytes (chunks : List SnapshotChunk) : Payload := chunks.flatMap fun chunk => chunk.data

theorem chunkBytes_append (chunks later : List SnapshotChunk) :
    chunkBytes (chunks ++ later) = chunkBytes chunks ++ chunkBytes later :=
  flatMap_append

structure Pieces (payload : Payload) (declared : SnapshotMetadata) (chunks : List SnapshotChunk) :
    Prop where
  nonempty : chunks ≠ []
  bytes : chunkBytes chunks = payload
  metadata : ∀ chunk ∈ chunks, chunk.snapshotMeta = declared
  offset : ∀ (place : Nat) (chunk : SnapshotChunk), chunks[place]? = some chunk →
    chunk.offset = (chunkBytes (chunks.take place)).length
  done : ∀ (place : Nat) (chunk : SnapshotChunk), chunks[place]? = some chunk →
    (chunk.done = true ↔ place + 1 = chunks.length)
  distinct : ∀ (place other : Nat) (chunk chunk' : SnapshotChunk), chunks[place]? = some chunk →
    chunks[other]? = some chunk' → chunk.offset = chunk'.offset → place = other

variable {chunks : List SnapshotChunk}

theorem Chained.offset {total start : Nat}
    (chained : Chained total start chunks) {place : Nat} {chunk : SnapshotChunk}
    (here : chunks[place]? = some chunk) :
    chunk.offset = start + (chunkBytes (chunks.take place)).length := by
  induction chunks generalizing start place with
  | nil => cases here
  | cons head rest ih =>
    obtain ⟨begins, follows⟩ := chained
    cases place with
    | zero =>
      cases here
      exact begins
    | succ => simp [ih follows here, chunkBytes, add_assoc]

theorem take_succ_of_getElem? {place : Nat} {chunk : SnapshotChunk}
    (here : chunks[place]? = some chunk) :
    chunkBytes (chunks.take (place + 1)) = chunkBytes (chunks.take place) ++ chunk.data := by
  simp [take_add_one, here, chunkBytes]

theorem length_take_lt (filled : ∀ chunk ∈ chunks, chunk.data ≠ [])
    (place other : Nat) (before : place < other) (inside : place < chunks.length) :
    (chunkBytes (chunks.take place)).length < (chunkBytes (chunks.take other)).length := by
  have here := getElem?_eq_getElem inside
  have some_ : 0 < chunks[place].data.length :=
    length_pos_of_ne_nil (filled _ (List.getElem_mem inside))
  have step := congrArg List.length (take_succ_of_getElem? here)
  obtain ⟨rest, more⟩ : chunks.take (place + 1) <+: chunks.take other :=
    take_prefix_take_left before
  grind [chunkBytes_append]

section Checkpoint
variable {declared : SnapshotMetadata} {payload : Payload} {chunkSize : Nat}

theorem chained_chunksFrom (declared : SnapshotMetadata) (payload : Payload) (positive : 0 < chunkSize) :
    ∀ {fuel offset : Nat}, offset ≤ payload.length → payload.length - offset ≤ fuel →
      Chained payload.length offset (chunksFrom declared payload chunkSize fuel offset) ∧
        ∀ chunk ∈ chunksFrom declared payload chunkSize fuel offset,
          chunk.snapshotMeta = declared ∧ chunk.data ≠ [] ∧
            (chunk.done = true ↔ chunk.offset + chunk.data.length = payload.length) := by
  intro fuel
  induction fuel with
  | zero =>
    intro offset inside enough
    refine ⟨?_, by simp [chunksFrom]⟩
    show offset = payload.length
    omega
  | succ fuel ih =>
    intro offset inside enough
    unfold chunksFrom
    split
    · set stop := min (offset + chunkSize) payload.length
      have size : (SnapshotChunk.cut declared payload offset stop).data.length = stop - offset := by
        grind [SnapshotChunk.cut]
      obtain ⟨follows, rest⟩ := @ih stop (by omega) (by omega)
      refine ⟨⟨rfl, ?_⟩, ?_⟩
      · grind
      intro chunk member
      rcases mem_cons.mp member with rfl | later
      · refine ⟨rfl, fun empty => ?_, ?_⟩
        · grind
        · rw [size]
          simp only [SnapshotChunk.cut, decide_eq_true_eq]
          omega
      · exact rest chunk later
    · refine ⟨?_, by simp⟩
      show offset = payload.length
      omega

theorem pieces_checkpoint {snapshot : RaftSnapshot}
    (cut : SnapshotLifecycle.checkpoint snapshot chunkSize = .ok chunks) :
    Pieces snapshot.payload (SnapshotLifecycle.declared snapshot) chunks := by
  unfold SnapshotLifecycle.checkpoint at cut
  split at cut
  · cases cut
  rename_i positive
  obtain ⟨chained, each⟩ := chained_chunksFrom (SnapshotLifecycle.declared snapshot) snapshot.payload
    (Nat.pos_of_ne_zero positive) (Nat.zero_le _) (Nat.sub_le _ 0)
  have laid := laid_chunksFrom snapshot.payload (SnapshotLifecycle.declared snapshot)
    (Nat.pos_of_ne_zero positive) (Nat.zero_le _) (Nat.sub_le _ 0)
  injection cut with cut
  revert chained each laid cut
  generalize chunksFrom _ _ _ _ _ = found
  intro chained each laid cut
  subst cut
  split
  · -- the empty payload: one empty chunk
    rename_i empty
    rw [List.isEmpty_iff] at empty
    subst empty
    have none : snapshot.payload = [] := List.eq_nil_of_length_eq_zero chained.symm
    refine ⟨by simp, none.symm, by simp, ?_, ?_, ?_⟩
    · rintro (_ | place) chunk here
      · cases here
        rfl
      · cases here
    · grind
    · grind
  · rename_i some_
    have bytes : chunkBytes found = snapshot.payload := laid.bytes_of_chained chained
    have offset {place : Nat} {chunk : SnapshotChunk} (here : found[place]? = some chunk) :
        chunk.offset = (chunkBytes (found.take place)).length := by
      rw [chained.offset here, zero_add]
    have filled : ∀ chunk ∈ found, chunk.data ≠ [] := fun chunk member => (each chunk member).2.1
    refine ⟨by simpa using some_, bytes, fun chunk member => (each chunk member).1,
      fun place chunk here => offset here, fun place chunk here => ?_, ?_⟩
    · -- the chunk that ends with the payload is the last one
      obtain ⟨inside, rfl⟩ := List.getElem?_eq_some_iff.mp here
      rw [(each _ (List.getElem_mem inside)).2.2, offset here, ← List.length_append,
        ← take_succ_of_getElem? here, ← bytes]
      constructor
      · intro ends
        by_contra short
        have := length_take_lt filled (place + 1) found.length (by omega) (by omega)
        grind
      · grind
    · intro place other chunk chunk' here there same
      rw [offset here, offset there] at same
      have inside := (List.getElem?_eq_some_iff.mp here).1
      have inside' := (List.getElem?_eq_some_iff.mp there).1
      rcases lt_trichotomy place other with before | same' | after
      · have := length_take_lt filled _ _ before inside
        omega
      · exact same'
      · have := length_take_lt filled _ _ after inside'
        omega

end Checkpoint

/-! ## The receiving end -/

structure Partial (declared : SnapshotMetadata) (chunks : List SnapshotChunk) (count : Nat)
    (l : SnapshotLifecycle) : Prop where
  open_ : l.installClosed = false
  installer : l.installerFor declared
    = ⟨declared, chunkBytes (chunks.take count), (chunkBytes (chunks.take count)).length, false⟩

theorem installerFor_opened (l : SnapshotLifecycle) (declared : SnapshotMetadata) :
    (l.opened declared).installerFor declared = l.installerFor declared := by
  unfold opened installerFor
  split <;> simp_all

theorem installClosed_opened (l : SnapshotLifecycle) (declared : SnapshotMetadata) :
    (l.opened declared).installClosed = l.installClosed := by
  unfold opened
  split <;> rfl

section Receive
variable {payload : Payload} {declared : SnapshotMetadata} {chunks : List SnapshotChunk} {count : Nat}
  {l : SnapshotLifecycle} {request : InstallSnapshotRequest}

theorem Partial.refuses (part : Partial declared chunks count l)
    (known : request.chunk.snapshotMeta = declared)
    (elsewhere : request.chunk.offset ≠ (chunkBytes (chunks.take count)).length) :
    ∃ error, (installRequest request l).1 = .error error ∧
      Partial declared chunks count (installRequest request l).2 := by
  have after : Partial declared chunks count (l.opened declared) :=
    ⟨(installClosed_opened l declared).trans part.open_,
      (installerFor_opened l declared).trans part.installer⟩
  simp only [installRequest, part.open_, known, after.installer,
    SnapshotInstallState.installChunk, elsewhere, ne_eq, not_true_eq_false, and_false, if_false,
    not_false_eq_true, if_true, Bool.false_eq_true]
  exact ⟨_, rfl, after⟩

theorem Partial.takes (part : Partial declared chunks count l) (pieces : Pieces payload declared chunks)
    (declares : declared.payloadBytes = payload.length) (fits : payload.length ≤ u64Max)
    (here : chunks[count]? = some request.chunk) :
    (count + 1 < chunks.length ∧ (installRequest request l).1 = .ok none ∧
        Partial declared chunks (count + 1) (installRequest request l).2) ∨
      ∃ snapshot, (installRequest request l).1 = .ok (some snapshot) ∧
        snapshot.payload = payload := by
  have known := pieces.metadata _ (List.mem_of_getElem? here)
  have begins := pieces.offset count _ here
  have last := pieces.done count _ here
  have inside := (List.getElem?_eq_some_iff.mp here).1
  have taken := take_succ_of_getElem? here
  have size := congrArg List.length taken
  rw [List.length_append] at size
  set joined := chunkBytes (chunks.take (count + 1)) with joined_eq
  have small : joined.length ≤ payload.length := by
    rw [← pieces.bytes]
    obtain ⟨rest, more⟩ := take_prefix (count + 1) chunks
    grind [chunkBytes_append]
  have arriving : satAdd (chunkBytes (chunks.take count)).length request.chunk.data.length
      = joined.length := by
    rw [satAdd, ← size]
    exact min_eq_left (small.trans fits)
  have inBounds : ¬ (declared.payloadBytes > 0 ∧
      joined.length > declared.payloadBytes) := by
    omega
  have installer : (l.opened declared).installerFor declared
      = ⟨declared, chunkBytes (chunks.take count), (chunkBytes (chunks.take count)).length, false⟩ :=
    (installerFor_opened l declared).trans part.installer
  have chunkTaken : SnapshotInstallState.installChunk
      ⟨declared, chunkBytes (chunks.take count), (chunkBytes (chunks.take count)).length, false⟩
      request.chunk
      = .ok ⟨declared, joined, joined.length, request.chunk.done⟩ := by
    simp only [SnapshotInstallState.installChunk, known, begins, ne_eq, not_true_eq_false, if_false,
      arriving, if_neg inBounds]
    rw [← taken]
  simp only [installRequest, part.open_, known, installer, ne_eq,
    not_true_eq_false, and_false, if_false, Bool.false_eq_true, chunkTaken]
  by_cases final : count + 1 = chunks.length
  · right
    have whole : joined = payload := by
      rw [joined_eq, final, take_length, pieces.bytes]
    rw [if_pos (last.mpr final)]
    have finished : SnapshotInstallState.finish ⟨declared, joined, joined.length,
        request.chunk.done⟩ request.groupId = .ok ⟨request.groupId, declared, payload⟩ := by
      simp [SnapshotInstallState.finish, last.mpr final, whole, declares]
    simp [finished]
  · left
    have more : request.chunk.done = false := by grind
    rw [more, if_neg (by simp)]
    exact ⟨by omega, rfl, (installClosed_opened l declared).trans part.open_, rfl⟩

end Receive

/-! ## Both ends and the link -/

structure Transfer where
  sender : SnapshotLifecycle
  receiver : SnapshotDownloader
  requests : List InstallSnapshotRequest
  answers : List InstallSnapshotResponse
  delivered : List Nat
  installed : List RaftSnapshot

inductive TransferEvent (ρ : Type) where
  | poll
  | pollWithLimiter (limiter : ρ)
  | timeout | cancel
  /-- A request reaches the receiver, for the first time or again. -/
  | deliver (place : Nat)
  /-- An answer of the receiver reaches the sender, for the first time or again. -/
  | answer (place : Nat)
  /-- A declining answer reaches the sender, whoever gave it. -/
  | decline (answer : InstallSnapshotResponse)
  | refill (limiter : Option ByteQuotaLimiter)

namespace Transfer
variable {ρ : Type} [RateLimiter ρ]

/-- A call on the sending end. -/
def calls (t : Transfer) (call : SendCall ρ) : Transfer :=
  { t with sender := (call.run t.sender).2, requests := t.requests ++ (call.run t.sender).1 }

def receives (t : Transfer) (request : InstallSnapshotRequest) : Transfer :=
  match download request t.receiver with
  | (.error _, receiver) => { t with receiver := receiver }
  | (.ok result, receiver) => { t with
      receiver := receiver
      answers := t.answers ++ [result.response]
      installed := t.installed ++ result.installedSnapshot.toList }

def hears (t : Transfer) (place : Nat) (answer : InstallSnapshotResponse) : Transfer :=
  { t with
    sender := (recordSendResponse answer t.sender).2
    delivered := if answer.accepted then place :: t.delivered else t.delivered }

def step (t : Transfer) : TransferEvent ρ → Transfer
  | .poll => t.calls (.poll : SendCall ρ)
  | .pollWithLimiter limiter => t.calls (.pollWithLimiter limiter)
  | .timeout => t.calls (.timeout : SendCall ρ)
  | .cancel => t.calls (.cancel : SendCall ρ)
  | .deliver place =>
    match t.requests[place]? with
    | none => t
    | some request => t.receives request
  | .answer place =>
    match t.answers[place]? with
    | none => t
    | some answer => t.hears place answer
  | .decline answer => if answer.accepted then t else t.calls (.response answer : SendCall ρ)
  | .refill limiter => { t with receiver := { t.receiver with limiter := limiter } }

def Whole (chunks : List SnapshotChunk) (t : Transfer) : Prop :=
  ∀ request ∈ t.requests, request.chunk ∈ chunks

instance (chunks : List SnapshotChunk) (t : Transfer) : Decidable (t.Whole chunks) :=
  inferInstanceAs (Decidable (∀ request ∈ t.requests, request.chunk ∈ chunks))

def Sound (chunks : List SnapshotChunk) (t : Transfer) : TransferEvent ρ → Prop
  | .answer place => place ∉ t.delivered ∧ t.Whole chunks
  | _ => True

def SoundRun (chunks : List SnapshotChunk) : Transfer → List (TransferEvent ρ) → Prop
  | _, [] => True
  | t, event :: events => t.Sound chunks event ∧ SoundRun chunks (t.step event) events

def run (t : Transfer) (events : List (TransferEvent ρ)) : Transfer := events.foldl step t

def Received (payload : Payload) (t : Transfer) : Prop :=
  ∃ snapshot ∈ t.installed, snapshot.payload = payload

def Progress (payload : Payload) (declared : SnapshotMetadata) (chunks : List SnapshotChunk)
    (t : Transfer) : Prop :=
  t.Received payload ∨
    (t.answers.countP (·.accepted) < chunks.length ∧
      Partial declared chunks (t.answers.countP (·.accepted)) t.receiver.lifecycle)

structure Counted (payload : Payload) (declared : SnapshotMetadata) (chunks : List SnapshotChunk)
    (t : Transfer) : Prop where
  length : ∀ sender ∈ t.sender.sender, sender.chunks.length = chunks.length ∧
    sender.acceptedChunks ≤ t.delivered.length
  open_ : t.sender.sender.isSome → t.sender.status.completed = false
  once : t.delivered.Nodup
  accepting : ∀ place ∈ t.delivered, ∃ answer, t.answers[place]? = some answer ∧
    answer.accepted = true
  progress : t.Whole chunks → t.Progress payload declared chunks
  completed : t.sender.status.completed = true → t.Received payload

end Transfer

/-! ## What every run keeps -/

theorem countP_range {α : Type} (values : List α) (p : α → Bool) :
    (List.range values.length).countP (fun place => values[place]?.any p) = values.countP p := by
  induction values with
  | nil => rfl
  | cons value values ih =>
    rw [length_cons, range_succ_eq_map, countP_cons, countP_map,
      countP_cons, ← ih]
    rfl

theorem length_le_countP {α : Type} {values : List α} {p : α → Bool} {places : List Nat}
    (once : places.Nodup) (each : ∀ place ∈ places, ∃ value, values[place]? = some value ∧
      p value = true) : places.length ≤ values.countP p := by
  rw [← countP_range, countP_eq_length_filter]
  refine (once.subperm fun place member => ?_).length_le
  grind

/-- A call on the sending end that is no accepting answer. -/
structure Quiet (before after : SnapshotLifecycle) : Prop where
  sender : ∀ sender ∈ after.sender, ∃ earlier ∈ before.sender,
    sender.chunks.length = earlier.chunks.length ∧ sender.acceptedChunks = earlier.acceptedChunks
  open_ : (before.sender.isSome → before.status.completed = false) →
    after.sender.isSome → after.status.completed = false
  completed : after.status.completed = true → before.status.completed = true

theorem Quiet.of_keeps {before after : SnapshotLifecycle} (keeps : KeepsSend before after) :
    Quiet before after where
  sender := by grind [keeps.sender]
  open_ := keeps.open_
  completed := keeps.completed

theorem quiet_pollWithLimiter {ρ : Type} [RateLimiter ρ] (l : SnapshotLifecycle) (limiter : ρ) :
    Quiet l ((SendCall.pollWithLimiter limiter).run l).2 := by
  rcases sending : l.sender with _ | sender
  · simp only [SendCall.run, pollSendRequestsWithLimiter, sending]
    exact ⟨by simp [sending], id, id⟩
  have same : ∀ poll : Polling ρ, poll.sender = sender →
      (Polling.run l.config l.config.maxChunksPerTick poll).closed.sender.chunks.length
          = sender.chunks.length ∧
        (Polling.run l.config l.config.maxChunksPerTick poll).closed.sender.acceptedChunks
          = sender.acceptedChunks := by
    intro poll first
    refine Polling.run_rule (P := fun after =>
      after.sender.chunks.length = sender.chunks.length ∧
        after.sender.acceptedChunks = sender.acceptedChunks) l.config
      (fun _ holds => holds) (fun _ _ holds => holds) ?_ _ poll (by rw [first]; exact ⟨rfl, rfl⟩)
    intro mid chunk grantedBytes limiter _ holds
    unfold Polling.send
    split
    · exact ⟨length_set.trans holds.1, holds.2⟩
    · exact holds
  rw [poll_of_sender sending]
  have kept := Polling.run_completed l.config l.config.maxChunksPerTick
    (⟨sender, l.status, limiter, [], 0⟩ : Polling ρ)
  refine ⟨?_, fun open_ _ => kept.trans (open_ (by rw [sending]; rfl)), fun done => kept ▸ done⟩
  grind

namespace Transfer.Counted
variable {payload : Payload} {declared : SnapshotMetadata} {chunks : List SnapshotChunk} {t : Transfer}

theorem calls {ρ : Type} [RateLimiter ρ] (counted : Counted payload declared chunks t)
    {call : SendCall ρ} (quiet : Quiet t.sender (call.run t.sender).2) :
    Counted payload declared chunks (t.calls call) where
  length := by
    intro sender member
    obtain ⟨earlier, sending, same, accepted⟩ := quiet.sender sender member
    rw [same, accepted]
    exact counted.length earlier sending
  open_ := quiet.open_ counted.open_
  once := counted.once
  accepting := counted.accepting
  progress := fun whole => counted.progress fun request member =>
    whole request (mem_append_left _ member)
  completed := fun done => counted.completed (quiet.completed done)

end Transfer.Counted

theorem charge_lifecycle (bytes : Nat) (downloader : SnapshotDownloader) :
    (downloader.charge bytes).2.lifecycle = downloader.lifecycle := by
  unfold charge
  split <;> rfl

namespace Transfer
variable {payload : Payload} {declared : SnapshotMetadata} {chunks : List SnapshotChunk} {t : Transfer}

theorem receives_grows (t : Transfer) (request : InstallSnapshotRequest) :
    ∃ more extra, t.receives request = { t with
      receiver := (t.receives request).receiver
      answers := t.answers ++ more
      installed := t.installed ++ extra } := by
  unfold receives
  split
  all_goals simp

theorem Received.grows (received : t.Received payload) (request : InstallSnapshotRequest) :
    (t.receives request).Received payload := by
  obtain ⟨snapshot, member, same⟩ := received
  obtain ⟨more, extra, grown⟩ := t.receives_grows request
  rw [grown]
  exact ⟨snapshot, mem_append_left _ member, same⟩

theorem progress_receives (pieces : Pieces payload declared chunks)
    (declares : declared.payloadBytes = payload.length) (fits : payload.length ≤ u64Max)
    {request : InstallSnapshotRequest} (whole : request.chunk ∈ chunks)
    (progress : t.Progress payload declared chunks) :
    (t.receives request).Progress payload declared chunks := by
  rcases progress with received | ⟨fewer, part⟩
  · exact .inl (received.grows request)
  set count := t.answers.countP (·.accepted) with count_eq
  have same := charge_lifecycle request.chunk.data.length t.receiver
  rcases charged : t.receiver.charge request.chunk.data.length with ⟨overQuota, downloader⟩
  rw [charged] at same
  simp only at same
  rcases overQuota with _ | _
  · rcases ran : installRequest request t.receiver.lifecycle with ⟨outcome, after⟩
    have received : t.receives request = match outcome with
        | .error _ => { t with receiver := { downloader with lifecycle := after } }
        | .ok installed => { t with
            receiver := { downloader with lifecycle := after }
            answers := t.answers ++ [(taken request.chunk installed).response]
            installed := t.installed ++ installed.toList } := by
      simp only [receives, download, part.open_, charged, same, ran,
        Bool.false_eq_true, if_false]
      cases outcome <;> rfl
    by_cases next : request.chunk.offset = (chunkBytes (chunks.take count)).length
    · -- the chunk that begins there is the next one
      obtain ⟨place, inside, here⟩ := getElem_of_mem whole
      have here' : chunks[place]? = some request.chunk := by
        rw [getElem?_eq_getElem inside, here]
      have ahead := getElem?_eq_getElem fewer
      obtain rfl : place = count := pieces.distinct place count _ _ here' ahead
        (next.trans (pieces.offset count _ ahead).symm)
      rcases part.takes pieces declares fits here' with
        ⟨more, answered, part'⟩ | ⟨snapshot, answered, whole'⟩
      · rw [ran] at answered part'
        right
        have counted : (t.answers ++ [(taken request.chunk none).response]).countP
            (·.accepted) = count + 1 := by
          rw [countP_append, ← count_eq]
          rfl
        grind
      · rw [ran] at answered
        subst answered
        left
        rw [received]
        exact ⟨snapshot, mem_append_right _ (mem_singleton.mpr rfl), whole'⟩
    · obtain ⟨error, refused, part'⟩ := part.refuses (pieces.metadata _ whole) next
      rw [ran] at refused part'
      right
      grind
  · -- over the quota: declined, and not counted
    right
    have received : t.receives request = { t with
        receiver := downloader
        answers := t.answers ++
          [(declined request.chunk.offset .downloadQuotaExhausted true).response]
        installed := t.installed ++ [] } := by
      simp only [receives, download, part.open_, charged, Bool.false_eq_true,
        if_false, if_true]
      rfl
    have counted : (t.answers ++ [(declined request.chunk.offset
        .downloadQuotaExhausted true).response]).countP (·.accepted) = count := by
      rw [countP_append, ← count_eq]
      rfl
    rw [received]
    simp only [counted, same]
    exact ⟨fewer, part⟩

namespace Counted
section
variable (counted : Counted payload declared chunks t)
include counted

theorem receives (pieces : Pieces payload declared chunks)
    (declares : declared.payloadBytes = payload.length) (fits : payload.length ≤ u64Max)
    {request : InstallSnapshotRequest} (sent : request ∈ t.requests) :
    Counted payload declared chunks (t.receives request) := by
  obtain ⟨more, extra, grown⟩ := t.receives_grows request
  have progress (whole : t.Whole chunks) :=
    progress_receives pieces declares fits (whole request sent) (counted.progress whole)
  have completed (done : t.sender.status.completed = true) := (counted.completed done).grows request
  rw [grown] at progress completed ⊢
  refine ⟨counted.length, counted.open_, counted.once, ?_, progress, completed⟩
  intro place member
  obtain ⟨answer, here, yes⟩ := counted.accepting place member
  grind

theorem hears {place : Nat}
    {answer : InstallSnapshotResponse} (here : t.answers[place]? = some answer)
    (fresh : place ∉ t.delivered) (whole : t.Whole chunks) :
    Counted payload declared chunks (t.hears place answer) := by
  rcases yes : answer.accepted with _ | _
  · -- a declining answer changes nothing that is counted
    have quiet := Quiet.of_keeps (keepsSend_declined t.sender yes)
    have unchanged : t.hears place answer
        = { t with sender := (recordSendResponse answer t.sender).2 } := by
      rw [Transfer.hears, yes]
      rfl
    rw [unchanged]
    refine ⟨fun sender member => ?_, quiet.open_ counted.open_, counted.once, counted.accepting,
      counted.progress, fun done => counted.completed (quiet.completed done)⟩
    obtain ⟨earlier, sending, same, accepted⟩ := quiet.sender sender member
    rw [same, accepted]
    exact counted.length earlier sending
  · have once : (place :: t.delivered).Nodup := nodup_cons.mpr ⟨fresh, counted.once⟩
    have accepting : ∀ other ∈ place :: t.delivered, ∃ answer, t.answers[other]? = some answer ∧
        answer.accepted = true := by
      intro other member
      rcases mem_cons.mp member with rfl | old
      · exact ⟨answer, here, yes⟩
      · exact counted.accepting other old
    have few : (place :: t.delivered).length ≤ t.answers.countP (·.accepted) :=
      length_le_countP once accepting
    rw [length_cons] at few
    rw [Transfer.hears, yes, if_pos rfl]
    rcases sending : t.sender.sender with _ | sender
    · have same : (recordSendResponse answer t.sender).2 = t.sender := by
        simp only [recordSendResponse, sending, if_pos yes]
      rw [same]
      exact ⟨by simp [sending], counted.open_, once, accepting, counted.progress, counted.completed⟩
    · obtain ⟨chunkCount, acceptedCount⟩ := counted.length sender sending
      have open_ := counted.open_ (by rw [sending]; rfl)
      have ran : (recordSendResponse answer t.sender).2
          = accepted sender t.sender := by
        simp only [recordSendResponse, sending, if_pos yes]
      rw [ran, accepted]
      split
      · -- the send completes: there were as many accepting answers as chunks
        rename_i all
        refine ⟨by simp, by simp, once, accepting, counted.progress, fun _ => ?_⟩
        rcases counted.progress whole with received | ⟨fewer, -⟩
        · exact received
        · omega
      · refine ⟨?_, fun _ => open_, once, accepting, counted.progress, fun done => ?_⟩
        all_goals grind

theorem step {ρ : Type} [RateLimiter ρ]
    (pieces : Pieces payload declared chunks) (declares : declared.payloadBytes = payload.length)
    (fits : payload.length ≤ u64Max) {event : TransferEvent ρ} (sound : t.Sound chunks event) :
    Counted payload declared chunks (t.step event) := by
  cases event with
  | poll => exact counted.calls (by rw [run_poll]; exact quiet_pollWithLimiter _ _)
  | pollWithLimiter limiter => exact counted.calls (quiet_pollWithLimiter t.sender limiter)
  | timeout => exact counted.calls (Quiet.of_keeps (keepsSend_timeout t.sender))
  | cancel => exact counted.calls (Quiet.of_keeps (keepsSend_cancel t.sender))
  | deliver =>
    simp only [Transfer.step]
    split
    · exact counted
    · grind [counted.receives]
  | answer =>
    simp only [Transfer.step]
    split
    · exact counted
    · exact counted.hears ‹_› sound.1 sound.2
  | decline =>
    simp only [Transfer.step]
    split
    · exact counted
    · rename_i no
      exact counted.calls (Quiet.of_keeps (keepsSend_declined t.sender (by simpa using no)))
  | refill =>
    exact ⟨counted.length, counted.open_, counted.once, counted.accepting, counted.progress,
      counted.completed⟩

end

theorem run {ρ : Type} [RateLimiter ρ] (pieces : Pieces payload declared chunks)
    (declares : declared.payloadBytes = payload.length) (fits : payload.length ≤ u64Max)
    {events : List (TransferEvent ρ)} (counted : Counted payload declared chunks t)
    (sound : SoundRun chunks t events) : Counted payload declared chunks (t.run events) := by
  induction events generalizing t with
  | nil => exact counted
  | cons event events ih => exact ih (counted.step pieces declares fits sound.1) sound.2

end Counted

/-- A send has begun, and nothing is on the link yet. -/
def start (sender receiver : SnapshotLifecycle) (limiter : Option ByteQuotaLimiter) : Transfer where
  sender := sender
  receiver := ⟨receiver, limiter⟩
  requests := []
  answers := []
  delivered := []
  installed := []

end Transfer

/-- **A completed send was received**, along every run in which no accepting answer is delivered twice
and every request sent before an answer is delivered carries a whole chunk of the checkpoint. -/
theorem completed_send_received (ρ : Type) [RateLimiter ρ] (l begun receiver : SnapshotLifecycle)
    (config : SnapshotLifecycleConfig) (limiter : Option ByteQuotaLimiter) (snapshot : RaftSnapshot)
    (term leaderId : Nat) (chunks : List SnapshotChunk) (fits : snapshot.payload.length ≤ u64Max)
    (cut : SnapshotLifecycle.checkpoint snapshot l.config.chunkSize = .ok chunks)
    (began : beginSend snapshot term leaderId l = (.ok (), begun))
    (fresh : new config = .ok receiver) (events : List (TransferEvent ρ))
    (sound : Transfer.SoundRun chunks (Transfer.start begun receiver limiter) events)
    (completed : ((Transfer.start begun receiver limiter).run events).sender.status.completed = true) :
    ∃ installed ∈ ((Transfer.start begun receiver limiter).run events).installed,
      installed.payload = snapshot.payload := by
  have pieces := pieces_checkpoint cut
  have started : Transfer.Counted snapshot.payload (SnapshotLifecycle.declared snapshot) chunks
      (Transfer.start begun receiver limiter) := by
    have empty : receiver.installer = none ∧ receiver.installClosed = false := by
      unfold new at fresh
      split at fresh
      · cases fresh
      · cases fresh
        exact ⟨rfl, rfl⟩
    have sending : begun.status.completed = false ∧
        ∀ sender ∈ begun.sender, sender.chunks = chunks ∧ sender.acceptedChunks = 0 := by
      unfold beginSend at began
      rw [cut] at began
      split at began
      · cases began
      cases began
      refine ⟨rfl, ?_⟩
      rintro sender ⟨⟩
      exact ⟨rfl, rfl⟩
    refine ⟨fun sender member => ?_, fun _ => sending.1, nodup_nil, by simp [Transfer.start],
      fun _ => .inr ⟨length_pos_of_ne_nil pieces.nonempty, empty.2, ?_⟩, fun done => ?_⟩
    · obtain ⟨rfl, none⟩ := sending.2 sender member
      exact ⟨rfl, le_of_eq none⟩
    · simp only [Transfer.start, installerFor, empty.1]
      rfl
    · rw [Transfer.start, sending.1] at done
      cases done
  exact (started.run pieces rfl fits sound).completed completed

def smallTransfer (chunkSize : Nat) : Transfer :=
  .start (beginSend smallSnapshot 3 1 (idleLifecycle chunkSize)).2 (idleLifecycle 8)
    none

def answeredOnce : List (TransferEvent ByteQuotaLimiter) :=
  [.poll, .deliver 0, .deliver 1, .answer 0, .answer 1]

theorem completed_send_received_small :
    ∃ installed ∈ ((smallTransfer 2).run answeredOnce).installed,
      installed.payload = smallSnapshot.payload :=
  completed_send_received ByteQuotaLimiter (idleLifecycle 2) _ (idleLifecycle 8) (idleLifecycle 8).config
    none smallSnapshot 3 1 _ (by decide) rfl rfl rfl answeredOnce
    ⟨trivial, trivial, trivial, ⟨by decide +kernel, by decide +kernel⟩,
      ⟨by decide +kernel, by decide +kernel⟩, trivial⟩ (by decide +kernel)

def answeredTwice : List (TransferEvent ByteQuotaLimiter) := [.poll, .deliver 0, .answer 0, .answer 0]

def answeredHalf : List (TransferEvent ByteQuotaLimiter) :=
  [.pollWithLimiter ⟨16, 2⟩, .deliver 0, .poll, .answer 0]

/-- Both sends complete, of two chunks and of one, and neither receiver installed anything. -/
theorem completed_send_not_received :
    ((smallTransfer 2).run answeredTwice).sender.status.completed = true ∧
      ((smallTransfer 2).run answeredTwice).installed = [] ∧
      ((smallTransfer 4).run answeredHalf).sender.status.completed = true ∧
      ((smallTransfer 4).run answeredHalf).installed = [] := by
  decide +kernel

/-- **Nothing lost, nothing twice.** Until a refusal moves it back, a send puts out the payload from
its first byte on, whatever the limiters grant and whenever it times out or is cancelled; once no chunk
is left, all of it. -/
theorem forward_send_exact {ρ : Type} [RateLimiter ρ] {l begun : SnapshotLifecycle}
    {snapshot : RaftSnapshot} {term leaderId : Nat}
    (began : beginSend snapshot term leaderId l = (.ok (), begun)) {calls : List (SendCall ρ)}
    (forward : ∀ call ∈ calls, call.rewinds = false) :
    sentBytes (sendRun begun calls).1 <+: snapshot.payload ∧
      ((sendRun begun calls).2.Finished → sentBytes (sendRun begun calls).1 = snapshot.payload) := by
  obtain ⟨start, sending, open_, whole⟩ : ∃ start, begun.sender = some start ∧
      begun.status.completed = false ∧ start.leftBytes = snapshot.payload := by
    unfold beginSend at began
    split at began
    · cases began
    split at began
    · cases began
    rename_i cut
    cases began
    exact ⟨_, rfl, rfl, (pieces_checkpoint cut).bytes⟩
  have since := (Since.refl sending open_).run forward
  have ⟨last, emits, _⟩ := since
  exact ⟨⟨last.leftBytes, by rw [← whole, emits.bytes]; rfl⟩,
    fun finished => (since.finished finished).1.trans whole⟩

/-- One byte is granted before the send times out. -/
theorem forward_send_exact_small : sentBytes (sendRun (beginSend smallSnapshot 3 1 (idleLifecycle 2)).2
    [.pollWithLimiter (⟨16, 1⟩ : ByteQuotaLimiter), .timeout, .poll]).1 = smallSnapshot.payload :=
  (forward_send_exact (show beginSend smallSnapshot 3 1 (idleLifecycle 2) = _ from rfl) (by decide)).2
    (.inr ⟨_, rfl, by decide +kernel⟩)

end MatrixRaft
