/-
# Peer.Replay — records replayed one after the other

Reopening a journal installs its records in order.  A sequence of plain records
(entries and a hard state, no snapshot) is described by what each of them carries, and
whether it replays is a question about positions and hard states alone.
-/
import MatrixRaft.Peer.Install

namespace MatrixRaft.Peer
open Theory MemStorage LawfulMemStorage List Entry

set_option linter.unusedSectionVars false

variable {σ : Type} [MemStorage σ] [LawfulMemStorage σ]

def replay (wire : Wire) (files : Payloads) (record : WalBatch) : StoreM σ Unit :=
  installWithScratch wire files { record := record, snapshot := none }

/-- Install records read back from the journal, in order. -/
def replayAll (wire : Wire) (files : Payloads) : List WalBatch → StoreM σ Unit :=
  Attempt.forEach (replay wire files)

structure Durable (before after : PeerStorage σ) : Prop where
  monotone : Monotone before after
  covered : (hardState after.memory).commit ≤ lastIndex after.memory

/-- Two stores that hold the same. -/
structure SameStore (left right : PeerStorage σ) : Prop where
  hardState_eq : hardState left.memory = hardState right.memory
  confState_eq : confState left.memory = confState right.memory
  floor_eq : floor left.memory = floor right.memory
  log_eq : log left.memory = log right.memory
  permitted_eq : left.permitted = right.permitted
  checkpoint_eq : left.checkpoint = right.checkpoint
  payload_eq : left.payload = right.payload
  retired_eq : left.retired = right.retired

theorem Durable.refl {store : PeerStorage σ} (contiguous : Contiguous store.memory)
    (covered : (hardState store.memory).commit ≤ lastIndex store.memory) : Durable store store :=
  ⟨⟨le_rfl, le_rfl, fun _ _ => rfl, fun _ member _ => .inl member, contiguous⟩, covered⟩

theorem Stored.same {store left right : PeerStorage σ} {entries : List Entry} {hs : Option HardState}
    (one : Stored store left entries hs) (two : Stored store right entries hs) :
    SameStore left right where
  hardState_eq := one.hardState_eq.trans two.hardState_eq.symm
  confState_eq := one.confState_eq.trans two.confState_eq.symm
  floor_eq := one.floor_eq.trans two.floor_eq.symm
  log_eq := one.log_eq.trans two.log_eq.symm
  permitted_eq := one.permitted_eq.trans two.permitted_eq.symm
  checkpoint_eq := one.checkpoint_eq.trans two.checkpoint_eq.symm
  payload_eq := one.payload_eq.trans two.payload_eq.symm
  retired_eq := one.retired_eq.trans two.retired_eq.symm

/-! ## Sequences of positions -/

theorem stepsValid_left {left right : List EntryHeader} (steps : stepsValid (left ++ right)) :
    stepsValid left := by
  fun_induction stepsValid left with
  | case1 first second rest ih => exact ⟨steps.1, ih steps.2⟩
  | case2 => trivial

theorem endsAt_append (last : Nat) (done more : List Entry) :
    endsAt last (done ++ more) = endsAt (endsAt last done) more := by
  cases more with
  | nil => simp [endsAt]
  | cons => simp [endsAt, getLast?_cons]

theorem PositionsValid.split {first last : Nat} {done more : List Entry}
    (positions : PositionsValid first last ((done ++ more).map header)) :
    PositionsValid first last (done.map header) ∧
      PositionsValid first (endsAt last done) (more.map header) ∧
      (done ≠ [] → ∀ next ∈ more.head?, next.index = endsAt last done + 1) := by
  induction done generalizing last with
  | nil => exact ⟨⟨trivial, by simp⟩, positions, fun nonempty => absurd rfl nonempty⟩
  | cons entry rest ih =>
    obtain ⟨later, follows⟩ := positions.tail rfl
    obtain ⟨-, after, next⟩ := ih later
    have ends : endsAt last (entry :: rest) = endsAt entry.index rest := endsAt_append last [entry] rest
    rw [ends]
    refine ⟨⟨?_, positions.2⟩, after, fun _ => ?_⟩
    · grind [stepsValid_left]
    cases rest with
    | nil => exact follows
    | cons => exact next (by simp)

theorem HardStateValid.trans {first second third : HardState} {middle last : Nat}
    {electorate : List Nat} {done more : List EntryHeader}
    (one : HardStateValid first second middle electorate done)
    (two : HardStateValid second third last electorate more) :
    HardStateValid first third last electorate (done ++ more) := by grind

/-! ## Two records in a row -/

section Placing
variable {store middle placed : PeerStorage σ} {previous : HardState} {batch : WalBatch}
  {done more : List Entry} {hs hs' : Option HardState}

theorem Stored.ends (stored : Stored store middle done hs) :
    lastIndex middle.memory = endsAt (lastIndex store.memory) done := by
  rw [lastIndex_eq, stored.floor_eq, stored.log_eq, lastOf_overwritten]

theorem Placed.starts (ran : Placed store middle previous batch .journal done hs)
    (contiguous : Contiguous store.memory) :
    firstIndex middle.memory = firstIndex store.memory := by
  rw [(ran.contiguous contiguous).firstIndex, contiguous.firstIndex, ran.stored.floor_eq]

theorem Stored.elects (stored : Stored store middle done hs) :
    middle.electorate batch = store.electorate batch := by
  simp [PeerStorage.electorate, stored.permitted_eq]

/-- A log overwritten in two steps, the second right after the first. -/
theorem Placed.overwritten_append (ran : Placed store middle previous batch .journal done hs)
    (contiguous : Contiguous store.memory) (follows : done ≠ [] → ∀ next ∈ more.head?,
      next.index = endsAt (lastIndex store.memory) done + 1) :
    overwritten middle.memory more = overwritten store.memory (done ++ more) := by
  cases more with
  | nil => rw [append_nil, overwritten, ran.stored.log_eq]
  | cons next rest =>
    cases done with
    | nil =>
      have same : log middle.memory = log store.memory := ran.stored.log_eq
      simp [overwritten, same, ran.starts contiguous]
    | cons entry rest' =>
      have step := follows (by simp) next rfl
      have length := (ran.contiguous contiguous).lastIndex
      have start := (ran.contiguous contiguous).firstIndex
      rw [ran.stored.ends] at length
      have all : (log middle.memory).take (next.index - firstIndex middle.memory)
          = log middle.memory := take_of_length_le (by omega)
      rw [overwritten, all, ran.stored.log_eq, overwritten, append_assoc]
      rfl

theorem Stored.trans (one : Stored store middle done hs) (two : Stored middle placed more hs')
    (whole : overwritten middle.memory more = overwritten store.memory (done ++ more)) :
    Stored store placed (done ++ more) (hs'.or hs) := by
  refine ⟨two.log_eq.trans whole, two.floor_eq.trans one.floor_eq, ?_,
    two.confState_eq.trans one.confState_eq, two.permitted_eq.trans one.permitted_eq,
    two.checkpoint_eq.trans one.checkpoint_eq, two.payload_eq.trans one.payload_eq,
    two.retired_eq.trans one.retired_eq⟩
  rw [two.hardState_eq, one.hardState_eq]
  cases hs' <;> rfl

theorem Placed.trans (contiguous : Contiguous store.memory)
    (one : Placed store middle previous batch .journal done hs)
    (two : Placed middle placed (hardState middle.memory) batch .journal more hs')
    (same : hardState store.memory = previous)
    (whole : PositionsValid (firstIndex store.memory) (lastIndex store.memory)
      ((done ++ more).map header)) (above : ∀ entry ∈ more, previous.commit < entry.index) :
    Placed store placed previous batch .journal (done ++ more) (hs'.or hs) := by
  have held : hardState middle.memory = hs.getD previous := by
    rw [one.stored.hardState_eq, same]
  refine ⟨whole, ?_, ?_, ?_⟩
  · intro journal entry member
    rcases mem_append.mp member with old | new
    · exact one.committed journal entry old
    · rw [checkCommitted, if_pos (above entry new)]
  · have valid := two.valid
    rw [held, one.stored.ends, ← endsAt_append, one.stored.elects] at valid
    simpa using one.valid.trans valid
  · exact one.stored.trans two.stored (one.overwritten_append contiguous whole.split.2.2)

end Placing

/-! ## One record -/

structure Carries (wire : Wire) (record : WalBatch) (entries : List Entry) (hs : Option HardState) :
    Prop where
  snapshot_eq : record.snapshot = []
  entries_eq : record.entries = entries.map encode
  hardState_eq : decodeHardState wire record = .ok hs

section Replaying
variable {wire : Wire} {files : Payloads} {store placed : PeerStorage σ} {record : WalBatch}
  {entries : List Entry} {hs : Option HardState}

theorem decodeEntry_encode (entry : Entry) : decodeEntry wire entry.encode = .ok entry := by
  rw [decodeEntry, wire.decodeEntry_encode]

theorem decodeContents_eq (encoded : record.entries = entries.map encode)
    (state : decodeHardState wire record = .ok hs) :
    decodeContents wire record = .ok (entries, hs) := by
  have decoded : record.entries.mapM (decodeEntry wire) = .ok entries := by
    grind [Checks.mapM_eq_ok, forall₂_same, decodeEntry_encode]
  rw [decodeContents, decoded, state]
  rfl

theorem Carries.contents (carries : Carries wire record entries hs) :
    decodeContents wire record = .ok (entries, hs) :=
  decodeContents_eq carries.entries_eq carries.hardState_eq

theorem decodeHardState_some {state : HardState} (encoded : record.hardState = wire.hardState.encode state)
    (present : wire.hardState.encode state ≠ []) : decodeHardState wire record = .ok (some state) := by
  rw [decodeHardState, encoded, if_neg present, wire.hardState.decode_encode]

variable {source : SnapshotSource} {wireValidated : Bool}

theorem installDecoded_plain
    (plain : record.snapshot = []) (arrived : checkArriving wire store source entries = .ok ())
    (ran : placeEntries store (hardState store.memory) record source entries hs = .ok placed) :
    installDecodedWithScratch wire files record source none wireValidated entries hs store
      = (.ok (), placed) := by
  have kept : replaceSnapshot wire files store record source none wireValidated hs = .ok store := by
    grind [replaceSnapshot]
  simp only [installDecodedWithScratch, arrived, kept, ran]

theorem installDecodedWithScratch_inv {snapshot : Option Snapshot}
    (ran : installDecodedWithScratch wire files record source snapshot wireValidated entries hs store
      = (.ok (), placed)) : checkArriving wire store source entries = .ok () ∧ ∃ replaced,
        replaceSnapshot wire files store record source snapshot wireValidated hs = .ok replaced ∧
        placeEntries replaced (hardState store.memory) record source entries hs = .ok placed := by
  cases arrived : checkArriving wire store source entries with
  | error =>
    simp only [installDecodedWithScratch, arrived] at ran
    cases ran
  | ok =>
    cases swapped : replaceSnapshot wire files store record source snapshot wireValidated hs with
    | error =>
      simp only [installDecodedWithScratch, arrived, swapped] at ran
      cases ran
    | ok replaced =>
      cases stored : placeEntries replaced (hardState store.memory) record source entries hs with
      | error =>
        simp only [installDecodedWithScratch, arrived, swapped, stored] at ran
        cases ran
      | ok =>
        simp only [installDecodedWithScratch, arrived, swapped, stored] at ran
        grind

theorem installDecoded_inv (plain : record.snapshot = [])
    (ran : installDecodedWithScratch wire files record source none wireValidated entries hs store
      = (.ok (), placed)) : checkArriving wire store source entries = .ok () ∧
      Placed store placed (hardState store.memory) record source entries hs := by
  obtain ⟨arrived, replaced, swapped, stored⟩ := installDecodedWithScratch_inv ran
  rw [replaceSnapshot, if_neg (by simp [plain]), Except.ok.injEq] at swapped
  subst swapped
  exact ⟨arrived, placeEntries_placed stored⟩

theorem checkArriving_journal : checkArriving wire store .journal entries = .ok () ↔
    ∀ entry ∈ entries, checkChange wire store.permitted entry = .ok () := by
  rw [checkArriving, Checks.bind_unit, Checks.forM_eq_ok, checkRetained_eq_ok]
  simp [SnapshotSource.isLocal]

theorem Placed.durable (contiguous : Contiguous store.memory)
    (changes : ∀ entry ∈ entries, checkChange wire store.permitted entry = .ok ())
    (ran : Placed store placed (hardState store.memory) record .journal entries hs) :
    Durable store placed := by
  refine ⟨placed_monotone_in_place contiguous (checkArriving_journal.mpr changes) ran, ?_⟩
  rw [ran.stored.hardState_eq, ran.stored.ends]
  exact ran.valid.2.2.1

theorem replay_placed (files : Payloads) (carries : Carries wire record entries hs)
    (changes : ∀ entry ∈ entries, checkChange wire store.permitted entry = .ok ())
    (above : ∀ entry ∈ entries, (hardState store.memory).commit < entry.index)
    (positions : PositionsValid (firstIndex store.memory) (lastIndex store.memory)
      (entries.map header))
    (valid : HardStateValid (hardState store.memory) (hs.getD (hardState store.memory))
      (endsAt (lastIndex store.memory) entries) (store.electorate record)
      (entries.map header)) : ∃ placed, replay wire files record store = (.ok (), placed) ∧
      Placed store placed (hardState store.memory) record .journal entries hs := by
  have committed : ∀ entry ∈ entries, checkCommitted store.memory (hardState store.memory).commit
      .changesCommitted entry = .ok () := fun entry member => by
    rw [checkCommitted, if_pos (above entry member)]
  unfold replay installWithScratch
  split
  · -- with entries: the recovery path, which stores them one at a time
    have recovered : checkRecovered wire store record = .ok (entries, hs) :=
      checkRecovered_eq_ok.mpr ⟨carries.contents,
        fun entry member => ⟨changes entry member, committed entry member⟩, positions, valid⟩
    exact installRecoveredEntries_placed recovered
  · obtain ⟨placed, ran⟩ := placeEntries_of_valid positions (fun _ => committed) valid
    refine ⟨placed, ?_, placeEntries_placed ran⟩
    rw [installFrom, carries.contents]
    exact installDecoded_plain carries.snapshot_eq (checkArriving_journal.mpr changes) ran

/-! ## A sequence of records -/

/-- A record and what it carries. -/
structure Step where
  record : WalBatch
  entries : List Entry
  hs : Option HardState

def stepEntries (steps : List Step) : List Entry := steps.flatMap Step.entries

def stepState (start : Option HardState) (steps : List Step) : Option HardState :=
  steps.foldl (fun current step => step.hs.or current) start

def Accepts (first last : Nat) (electorate : List Nat) : List Entry → HardState → List Step → Prop
  | _, _, [] => True
  | done, current, step :: rest =>
    (PositionsValid first last ((done ++ step.entries).map header) ∧
      (∀ entry ∈ step.entries, current.commit < entry.index) ∧
      HardStateValid current (step.hs.getD current) (endsAt last (done ++ step.entries)) electorate
        (step.entries.map header)) ∧
    Accepts first last electorate (done ++ step.entries) (step.hs.getD current) rest

variable {steps : List Step}

theorem Accepts.take {first last : Nat} {electorate : List Nat} {done : List Entry}
    {current : HardState}
    (accepts : Accepts first last electorate done current steps) (count : Nat) :
    Accepts first last electorate done current (steps.take count) := by
  induction steps generalizing done current count with
  | nil => simp [Accepts]
  | cons step rest ih =>
    cases count with
    | zero => trivial
    | succ count => exact ⟨accepts.1, ih accepts.2 count⟩

def Readable (wire : Wire) (permitted voters : List Nat) (steps : List Step) : Prop :=
  ∀ step ∈ steps, Carries wire step.record step.entries step.hs ∧ step.record.voters = voters ∧
    ∀ entry ∈ step.entries, checkChange wire permitted entry = .ok ()

theorem electorate_of_voters {batch other : WalBatch} (same : batch.voters = other.voters) :
    store.electorate batch = store.electorate other := by
  simp [PeerStorage.electorate, same]

theorem Placed.of_voters {batch other : WalBatch} {previous : HardState} {source : SnapshotSource}
    (ran : Placed store placed previous batch source entries hs) (same : batch.voters = other.voters) :
    Placed store placed previous other source entries hs := by
  refine ⟨ran.positions, ran.committed, ?_, ran.stored⟩
  rw [← electorate_of_voters same]
  exact ran.valid

theorem replayAll_after (files : Payloads) {middle : PeerStorage σ} {batch : WalBatch} {done : List Entry}
    {start : Option HardState} (contiguous : Contiguous store.memory)
    (before : Placed store middle (hardState store.memory) batch .journal done start)
    (readable : Readable wire store.permitted batch.voters steps)
    (accepts : Accepts (firstIndex store.memory) (lastIndex store.memory) (store.electorate batch) done
      (hardState middle.memory) steps) :
    ∃ reached, replayAll wire files (steps.map Step.record) middle = (.ok (), reached) ∧
      Placed store reached (hardState store.memory) batch .journal (done ++ stepEntries steps)
        (stepState start steps) := by
  induction steps generalizing middle done start with
  | nil => exact ⟨middle, rfl, by simpa [stepEntries, stepState] using before⟩
  | cons step rest ih =>
    obtain ⟨carries, voters, changes⟩ := readable step (by simp)
    obtain ⟨⟨positions, above, valid⟩, later⟩ := accepts
    have grown : (hardState store.memory).commit ≤ (hardState middle.memory).commit := by
      rw [before.stored.hardState_eq]
      exact before.valid.2.1
    have here : PositionsValid (firstIndex middle.memory) (lastIndex middle.memory)
        (step.entries.map header) := by
      rw [before.starts contiguous, before.stored.ends]
      exact positions.split.2.1
    rw [endsAt_append, ← before.stored.ends, ← before.stored.elects] at valid
    obtain ⟨next, ran, held⟩ := replay_placed files carries
      (by rwa [before.stored.permitted_eq]) above here (by rwa [electorate_of_voters voters])
    have both := before.trans contiguous (held.of_voters voters) rfl positions
      fun entry member => grown.trans_lt (above entry member)
    have reached : hardState next.memory = step.hs.getD (hardState middle.memory) :=
      held.stored.hardState_eq
    obtain ⟨last, ran', placed⟩ := ih both (fun other member => readable other (by simp [member]))
      (by rwa [reached])
    refine ⟨last, ?_, ?_⟩
    · rw [map_cons, replayAll, Attempt.forEach, Attempt.bind_ok ran]
      exact ran'
    · simpa [stepEntries, stepState] using placed

/-- **Accepted contents replay**, one record after the other, and leave what placing all of them at
once leaves. -/
theorem replayAll_placed (files : Payloads) {batch : WalBatch} (contiguous : Contiguous store.memory)
    (nonempty : steps ≠ []) (readable : Readable wire store.permitted batch.voters steps)
    (accepts : Accepts (firstIndex store.memory) (lastIndex store.memory) (store.electorate batch) []
      (hardState store.memory) steps) :
    ∃ reached, replayAll wire files (steps.map Step.record) store = (.ok (), reached) ∧
      Placed store reached (hardState store.memory) batch .journal (stepEntries steps)
        (stepState none steps) := by
  cases steps with
  | nil => exact absurd rfl nonempty
  | cons step =>
    obtain ⟨carries, voters, changes⟩ := readable step (by simp)
    obtain ⟨⟨positions, above, valid⟩, later⟩ := accepts
    obtain ⟨next, ran, held⟩ := replay_placed files carries changes above positions
      (by rwa [electorate_of_voters voters])
    have state : hardState next.memory = step.hs.getD (hardState store.memory) :=
      held.stored.hardState_eq
    obtain ⟨last, ran', placed⟩ := replayAll_after files contiguous (held.of_voters voters)
      (fun other member => readable other (mem_cons_of_mem _ member)) (by rwa [state])
    refine ⟨last, ?_, ?_⟩
    · rw [map_cons, replayAll, Attempt.forEach, Attempt.bind_ok ran]
      exact ran'
    · simpa [stepEntries, stepState] using placed

end Replaying
end MatrixRaft.Peer
