/-
# Peer.Install — what installing a record does to the durable state

An accepted record raises the term and the commit position, keeps the vote of a term and
what is committed, and leaves the log contiguous from its snapshot.  The runtime checks a
record's entries and hard state only after it put the record's snapshot in place, so a
refused record can leave its snapshot.
-/
import MatrixRaft.Peer.Store
import MatrixRaft.Theory.Numbered

namespace MatrixRaft.Peer
open Theory MemStorage LawfulMemStorage Entry Checks

set_option linter.unusedSectionVars false

variable {σ : Type} [MemStorage σ] [LawfulMemStorage σ]

/-! ## Contiguous logs -/

/-- The stored entries count up from the position after the snapshot. -/
def Contiguous (memory : σ) : Prop := Numbered index ((floor memory).index + 1) (log memory)

section
variable {start : Nat} {entries : List Entry} (numbered : Numbered index (start + 1) entries)
include numbered

theorem firstOf_numbered : firstOf start entries = start + 1 := by
  cases entries with
  | nil => rfl
  | cons entry => exact numbered 0 entry rfl

theorem lastOf_numbered : lastOf start entries = start + entries.length := by
  rcases eq_or_ne entries [] with rfl | nonempty
  · rfl
  have slot : entries[entries.length - 1]? = some (entries.getLast nonempty) := by grind
  have last := numbered _ _ slot
  have positive := List.length_pos_iff.mpr nonempty
  rw [lastOf, List.getLast?_eq_some_getLast nonempty, Option.map_some, Option.getD_some, last]
  omega

end

variable {memory : σ}

theorem Contiguous.firstIndex (contiguous : Contiguous memory) :
    firstIndex memory = (floor memory).index + 1 := by
  rw [firstIndex_eq, firstOf_numbered contiguous]

theorem Contiguous.lastIndex (contiguous : Contiguous memory) :
    lastIndex memory = (floor memory).index + (log memory).length := by
  rw [lastIndex_eq, lastOf_numbered contiguous]

theorem eq_of_checkedAdd {a b c : Nat} (sum : checkedAdd a b = some c) : c = a + b := by
  simp only [checkedAdd, Option.ite_none_right_eq_some, Option.some.injEq] at sum
  exact sum.2.symm

variable {entry : Entry} {rest : List Entry}

theorem numbered_of_stepsValid
    (steps : stepsValid ((entry :: rest).map header)) :
    Numbered index entry.index (entry :: rest) := by
  induction rest generalizing entry with
  | nil =>
    intro slot found at_slot
    grind
  | cons second rest ih =>
    obtain ⟨⟨next, -⟩, later⟩ := steps
    have follows : second.index = entry.index + 1 := eq_of_checkedAdd next
    intro slot found at_slot
    cases slot with
    | zero => simp_all
    | succ slot =>
      have := ih later slot found (by simpa using at_slot)
      omega

/-! ## The steps of an installation -/

theorem mem_of_checkCommitted {commit : Nat}
    {fault : Fault} (passed : checkCommitted memory commit fault entry = .ok ())
    (committed : entry.index ≤ commit) : entry ∈ log memory := by
  simp only [checkCommitted, if_neg (not_lt.mpr committed), ite_eq_ok] at passed
  obtain ⟨-, passed⟩ := passed
  split at passed
  · cases passed
  rename_i saved read
  split at passed
  · rename_i same
    rcases lt_or_ge entry.index (firstIndex memory) with below | above
    · rw [entries_compacted _ _ _ below] at read
      cases read
    rcases lt_or_ge (lastIndex memory + 1) (entry.index + 1) with past | inside
    · rw [entries_panics _ _ _ above past] at read
      cases read
    · rw [entries_eq _ _ _ above (by omega) inside, Except.ok.injEq] at read
      grind [List.mem_of_mem_drop, List.mem_of_mem_take]
  · cases passed

/-- What the log holds once `entries` overwrite its tail. -/
def overwritten (memory : σ) : List Entry → List Entry
  | [] => log memory
  | entry :: rest => (log memory).take (entry.index - firstIndex memory) ++ entry :: rest

structure Appended (before after : σ) (entries : List Entry) : Prop where
  log_eq : log after = overwritten before entries
  floor_eq : floor after = floor before
  hardState_eq : hardState after = hardState before
  confState_eq : confState after = confState before

variable {entries : List Entry} {memory memory' : σ}

theorem append_appended
    (stored : append entries memory = .ok memory') : Appended memory memory' entries := by
  cases entries with
  | nil =>
    rw [append_nil, Except.ok.injEq] at stored
    subst stored
    exact ⟨rfl, rfl, rfl, rfl⟩
  | cons entry rest =>
    by_cases outside : entry.index < firstIndex memory ∨ lastIndex memory + 1 < entry.index
    · rw [append_panics _ _ _ outside] at stored
      cases stored
    obtain ⟨reached, ran, log, floor, hardState, confState⟩ :=
      append_ok memory entry rest (by omega) (by omega)
    rw [ran, Except.ok.injEq] at stored
    subst stored
    exact ⟨log, floor, hardState, confState⟩

section Positions
variable {memory : σ} {entries : List Entry}
  (positions : PositionsValid (firstIndex memory) (lastIndex memory) (entries.map header))

include positions

theorem append_of_positions : ∃ memory', append entries memory = .ok memory' := by
  cases entries with
  | nil => exact ⟨memory, append_nil _⟩
  | cons entry rest =>
    obtain ⟨above, below⟩ := positions.2 entry.header rfl
    have := satAdd_le (lastIndex memory) 1
    obtain ⟨reached, ran, -⟩ := append_ok memory entry rest above (below.trans this)
    exact ⟨reached, ran⟩

theorem overwritten_contiguous (contiguous : Contiguous memory) :
    Numbered index ((floor memory).index + 1) (overwritten memory entries) := by
  cases entries with
  | nil => exact contiguous
  | cons entry =>
    obtain ⟨above, below⟩ := positions.2 entry.header rfl
    have bound := below.trans (satAdd_le (lastIndex memory) 1)
    rw [contiguous.firstIndex] at above
    rw [contiguous.lastIndex] at bound
    replace above : (floor memory).index + 1 ≤ entry.index := above
    replace bound : entry.index ≤ (floor memory).index + (log memory).length + 1 := bound
    have new := numbered_of_stepsValid positions.1
    have old := contiguous.take (entry.index - firstIndex memory)
    refine old.append_numbered ?_
    have start : (floor memory).index + 1 +
        ((log memory).take (entry.index - firstIndex memory)).length = entry.index := by
      grind [contiguous.firstIndex]
    rwa [start]

end Positions

def endsAt (last : Nat) (entries : List Entry) : Nat := (entries.getLast?.map index).getD last

structure Stored (store placed : PeerStorage σ) (entries : List Entry) (hs : Option HardState) :
    Prop where
  log_eq : log placed.memory = overwritten store.memory entries
  floor_eq : floor placed.memory = floor store.memory
  hardState_eq : hardState placed.memory = hs.getD (hardState store.memory)
  confState_eq : confState placed.memory = confState store.memory
  permitted_eq : placed.permitted = store.permitted
  checkpoint_eq : placed.checkpoint = store.checkpoint
  payload_eq : placed.payload = store.payload
  retired_eq : placed.retired = store.retired

variable {store : PeerStorage σ}

theorem Appended.stored {memory : σ}
    (appended : Appended store.memory memory entries) (hs : Option HardState) :
    Stored store { store with memory := hs.elim memory (setHardstate · memory) } entries hs := by
  refine ⟨?_, ?_, ?_, ?_, rfl, rfl, rfl, rfl⟩
  · cases hs <;> simp [appended.log_eq]
  · cases hs <;> simp [appended.floor_eq]
  · cases hs <;> simp [appended.hardState_eq]
  · cases hs <;> simp [appended.confState_eq]

structure Placed (store placed : PeerStorage σ) (previous : HardState) (batch : WalBatch)
    (source : SnapshotSource) (entries : List Entry) (hs : Option HardState) : Prop where
  positions : PositionsValid (firstIndex store.memory) (lastIndex store.memory)
    (entries.map header)
  committed : source.isLocal = false → ∀ entry ∈ entries,
    checkCommitted store.memory previous.commit .changesCommitted entry = .ok ()
  valid : HardStateValid previous (hs.getD previous) (endsAt (lastIndex store.memory) entries)
    (store.electorate batch) (entries.map header)
  stored : Stored store placed entries hs

theorem checkRetained_eq_ok {commit : Nat} {fault : Fault} {skipped : Bool} :
    checkRetained memory commit fault skipped entries = .ok () ↔
      (skipped = false → ∀ entry ∈ entries, checkCommitted memory commit fault entry = .ok ()) := by
  unfold checkRetained
  split
  · simp_all
  · rw [forM_eq_ok]
    simp_all

variable {source : SnapshotSource} {hs : Option HardState} {batch : WalBatch}

theorem placeEntries_placed {store placed : PeerStorage σ} {previous : HardState}
   
    (ran : placeEntries store previous batch source entries hs = .ok placed) :
    Placed store placed previous batch source entries hs := by
  simp only [placeEntries, ite_eq_ok, Decidable.not_not, bind_unit,
    checkRetained_eq_ok] at ran
  obtain ⟨positions, committed, valid, stored⟩ := ran
  split at stored
  · cases stored
  rename_i memory ran
  rw [← Except.ok.inj stored]
  exact ⟨positions, committed, valid, (append_appended ran).stored hs⟩

theorem placeEntries_of_valid {previous : HardState}
   
    (positions : PositionsValid (firstIndex store.memory) (lastIndex store.memory)
      (entries.map header)) (committed : source.isLocal = false → ∀ entry ∈ entries,
      checkCommitted store.memory previous.commit .changesCommitted entry = .ok ())
    (valid : HardStateValid previous (hs.getD previous)
      (endsAt (lastIndex store.memory) entries) (store.electorate batch) (entries.map header)) :
    ∃ placed, placeEntries store previous batch source entries hs = .ok placed := by
  obtain ⟨memory, ran⟩ := append_of_positions positions
  refine ⟨{ store with memory := hs.elim memory (setHardstate · memory) }, ?_⟩
  simp only [placeEntries, ite_eq_ok, Decidable.not_not, bind_unit,
    checkRetained_eq_ok]
  refine ⟨positions, committed, valid, ?_⟩
  rw [ran]

structure Admitted (store : PeerStorage σ) (batch : WalBatch) (source : SnapshotSource)
    (hs : Option HardState) (held : Snapshot) : Prop where
  covered : ∃ next, hs = some next ∧ held.getMetadata.index ≤ next.commit ∧
    held.getMetadata.term ≤ next.term
  committed : source.isLocal = false →
    (MemStorage.hardState store.memory).commit ≤ held.getMetadata.index
  bounded : held.getMetadata.index < u64Max

theorem validateSnapshotFor_index {wire : Wire} {snapshot : Snapshot} {voters permitted : List Nat}
    (valid : validateSnapshotFor wire snapshot voters permitted = .ok ()) :
    snapshot.getMetadata.index < u64Max := by
  simp only [validateSnapshotFor, ite_eq_ok, not_or, not_le] at valid
  exact valid.1.2.1

variable {held : Snapshot} {payload : Option Blob}

theorem admitSnapshot_admitted {wire : Wire} {files : Payloads} {store : PeerStorage σ}
    {snapshot : Option Snapshot} {wireValidated : Bool}
   
    (admitted : admitSnapshot wire files store batch source snapshot wireValidated hs
      = .ok (held, payload)) : Admitted store batch source hs held := by
  simp only [admitSnapshot, bind_eq_ok] at admitted
  obtain ⟨found, -, file, -, ⟨⟩, valid, admitted⟩ := admitted
  cases hs with
  | none => cases admitted
  | some next =>
    simp only [ite_eq_ok, not_or, Except.ok.injEq, Prod.mk.injEq] at admitted
    obtain ⟨⟨-, committed, commit, term, -⟩, rfl, rfl⟩ := admitted
    refine ⟨⟨next, rfl, by omega, by omega⟩, fun journal => ?_, validateSnapshotFor_index valid⟩
    by_contra early
    exact committed ⟨journal, by omega⟩

structure Adopted (store replaced : PeerStorage σ) (held : Snapshot) : Prop where
  newer : firstIndex store.memory ≤ held.getMetadata.index
  floor_eq : floor replaced.memory = held.getMetadata
  log_eq : log replaced.memory = []
  checkpoint_eq : replaced.checkpoint = some held
  permitted_eq : replaced.permitted = store.permitted

theorem adoptSnapshot_adopted {store replaced : PeerStorage σ}
    (ran : adoptSnapshot store held payload = .ok replaced) :
    Adopted store replaced held := by
  unfold adoptSnapshot at ran
  rcases lt_or_ge held.getMetadata.index (firstIndex store.memory) with old | new
  · rw [applySnapshot_old store.memory { held with data := [] } old] at ran
    cases ran
  obtain ⟨memory, applied, floor, log, -⟩ :=
    applySnapshot_ok store.memory { held with data := [] } new
  rw [applied, Except.ok.injEq] at ran
  subst ran
  exact ⟨new, floor, log, rfl, rfl⟩

theorem adoptSnapshot_of_newer (store : PeerStorage σ) (held : Snapshot) (payload : Option Blob)
    (newer : firstIndex store.memory ≤ held.getMetadata.index) :
    ∃ replaced, adoptSnapshot store held payload = .ok replaced := by
  obtain ⟨memory, applied, -⟩ := applySnapshot_ok store.memory { held with data := [] } newer
  simp [applied, adoptSnapshot]

section
variable {store replaced : PeerStorage σ} {held : Snapshot} (adopted : Adopted store replaced held)
include adopted

theorem Adopted.contiguous : Contiguous replaced.memory := by
  unfold Contiguous
  rw [adopted.log_eq]
  exact Numbered.nil _ _

theorem Adopted.ne (contiguous : Contiguous store.memory) :
    replaced ≠ store := by grind [contiguous.firstIndex, adopted.floor_eq, adopted.newer]

end

/-! ## What a placed suffix leaves -/

section Placing
variable {store placed : PeerStorage σ} {previous : HardState} {batch : WalBatch}
  {source : SnapshotSource} {entries : List Entry} {hs : Option HardState}

theorem mem_overwritten (member : entry ∈ overwritten memory entries) :
    entry ∈ log memory ∨ entry ∈ entries := by
  cases entries with
  | nil => exact .inl member
  | cons =>
    rcases List.mem_append.mp member with old | new
    all_goals grind

theorem lastOf_overwritten (memory : σ) (entries : List Entry) :
    lastOf (floor memory).index (overwritten memory entries) = endsAt (lastIndex memory) entries := by
  cases entries with
  | nil => rw [lastIndex_eq]; rfl
  | cons first rest =>
    have last : (overwritten memory (first :: rest)).getLast? = (first :: rest).getLast? :=
      List.getLast?_append_cons ..
    simp [lastOf, endsAt, last, List.getLast?_cons]

namespace Placed

theorem contiguous (ran : Placed store placed previous batch source entries hs)
    (contiguous : Contiguous store.memory) : Contiguous placed.memory := by
  unfold Contiguous
  rw [ran.stored.floor_eq, ran.stored.log_eq]
  exact overwritten_contiguous ran.positions contiguous

theorem holds (ran : Placed store placed previous batch source entries hs)
    (contiguous : Contiguous store.memory) {index : Nat} (above : (floor store.memory).index < index)
    (committed : index ≤ previous.commit) :
    ∃ entry, entry.index = index ∧ entry ∈ log placed.memory ∧
      (entry ∈ log store.memory ∨ entry ∈ entries) := by
  have kept := ran.contiguous contiguous
  have ends := lastOf_numbered kept
  rw [ran.stored.floor_eq, ran.stored.log_eq, lastOf_overwritten] at ends
  obtain ⟨-, grows, reaches, -⟩ := ran.valid
  obtain ⟨entry, member, same⟩ := kept.exists_mem (k := index)
    (by rw [ran.stored.floor_eq]; omega) (by rw [ran.stored.floor_eq, ran.stored.log_eq]; omega)
  refine ⟨entry, same, member, mem_overwritten ?_⟩
  rwa [← ran.stored.log_eq]

end Placed
end Placing

/-! ## Monotone installations -/

/-- What an accepted record may do to the durable state. -/
structure Monotone (before after : PeerStorage σ) : Prop where
  term : (hardState before.memory).term ≤ (hardState after.memory).term
  commit : (hardState before.memory).commit ≤ (hardState after.memory).commit
  vote : (hardState before.memory).vote ≠ 0 →
    (hardState after.memory).term = (hardState before.memory).term →
    (hardState after.memory).vote = (hardState before.memory).vote
  /-- A committed entry stays, or an accepted snapshot at or above it covers it. -/
  kept : ∀ entry ∈ log before.memory, entry.index ≤ (hardState before.memory).commit →
    entry ∈ log after.memory ∨
      ∃ snapshot, after.checkpoint = some snapshot ∧
        snapshot.getMetadata = floor after.memory ∧ entry.index ≤ snapshot.getMetadata.index
  contiguous : Contiguous after.memory

section Installing
variable {wire : Wire} {files : Payloads} {store replaced placed : PeerStorage σ}
  {batch : WalBatch} {source : SnapshotSource} {snapshot : Option Snapshot}
  {wireValidated : Bool} {entries : List Entry} {hs : Option HardState}

theorem checkArriving_committed (passed : checkArriving wire store source entries = .ok ())
    (captured : source.isLocal = true) : ∀ entry ∈ entries,
      checkCommitted store.memory (hardState store.memory).commit .checkpointChangesCommitted entry
        = .ok () := by
  rw [checkArriving, bind_unit, checkRetained_eq_ok] at passed
  exact passed.2 (by simp [captured])

theorem replaceSnapshot_cases
    (ran : replaceSnapshot wire files store batch source snapshot wireValidated hs = .ok replaced) :
    (snapshot = none ∧ batch.snapshot = [] ∧ replaced = store) ∨
      ∃ held payload, (snapshot.isSome ∨ batch.snapshot ≠ []) ∧
        admitSnapshot wire files store batch source snapshot wireValidated hs
          = .ok (held, payload) ∧ adoptSnapshot store held payload = .ok replaced := by
  unfold replaceSnapshot at ran
  split at ran
  · rw [bind_eq_ok] at ran
    grind
  · rename_i absent
    simp only [not_or, Option.not_isSome_iff_eq_none, ne_eq, Decidable.not_not] at absent
    grind

theorem Placed.monotone (ran : Placed replaced placed (hardState store.memory) batch source entries hs)
    (continues : Contiguous replaced.memory) (same : hs = none → replaced = store)
    (kept : ∀ entry ∈ log store.memory, entry.index ≤ (hardState store.memory).commit →
      entry ∈ log placed.memory ∨ ∃ snapshot, placed.checkpoint = some snapshot ∧
          snapshot.getMetadata = floor placed.memory ∧ entry.index ≤ snapshot.getMetadata.index) :
    Monotone store placed := by
  have next : hardState placed.memory = hs.getD (hardState store.memory) := by
    rw [ran.stored.hardState_eq]
    cases hs with
    | none => rw [same rfl]
    | some => rfl
  obtain ⟨terms, commits, -, votes, -⟩ := ran.valid
  refine ⟨by rwa [next], by rwa [next], ?_, kept, ran.contiguous continues⟩
  grind

section
variable (contiguous : Contiguous store.memory)
  (arrived : checkArriving wire store source entries = .ok ())
include contiguous arrived

theorem placed_monotone_in_place
    (ran : Placed store placed (hardState store.memory) batch source entries hs) :
    Monotone store placed := by
  refine ran.monotone contiguous (fun _ => rfl) fun entry member committed => .inl ?_
  -- a committed entry stays: the record repeats it or leaves it alone
  have above := (contiguous.bounds member).1
  obtain ⟨other, same, held, origin⟩ := ran.holds contiguous (by omega) committed
  have stored : other ∈ log store.memory := by
    rcases origin with old | new
    · exact old
    cases captured : source.isLocal with
    | false => exact mem_of_checkCommitted (ran.committed captured other new) (by omega)
    | true =>
      exact mem_of_checkCommitted (checkArriving_committed arrived captured other new) (by omega)
  rwa [← contiguous.eq_of_key_eq stored member same]

theorem placed_monotone_over_snapshot
    (admitted : Admitted store batch source hs held) (adopted : Adopted store replaced held)
    (ran : Placed replaced placed (hardState store.memory) batch source entries hs) :
    Monotone store placed := by
  refine ran.monotone adopted.contiguous ?_ fun entry member committed => ?_
  · intro absent
    obtain ⟨next, present, -⟩ := admitted.covered
    grind
  -- a snapshot below the commit position is a local one, whose suffix repeats the rest
  rcases lt_or_ge held.getMetadata.index entry.index with beyond | covered
  · left
    have captured : source.isLocal = true := by
      by_contra journal
      have := admitted.committed (by simpa using journal)
      omega
    obtain ⟨other, same, held', origin⟩ :=
      ran.holds adopted.contiguous (by rw [adopted.floor_eq]; exact beyond) committed
    have stored : other ∈ log store.memory := by
      rcases origin with old | new
      · rw [adopted.log_eq] at old
        cases old
      · exact mem_of_checkCommitted (checkArriving_committed arrived captured other new) (by omega)
    rwa [← contiguous.eq_of_key_eq stored member same]
  · grind [ran.stored.checkpoint_eq, adopted.checkpoint_eq, ran.stored.floor_eq, adopted.floor_eq]

end

/-! ## One record at a time on recovery -/

theorem Appended.start (one : Appended memory memory' [entry])
    (above : firstIndex memory ≤ entry.index) (below : entry.index ≤ lastIndex memory + 1) :
    firstIndex memory' = firstIndex memory := by
  rw [firstIndex_eq memory', one.log_eq, one.floor_eq, overwritten]
  rw [lastIndex_eq] at below
  rw [firstIndex_eq] at above ⊢
  cases held : log memory with
  | nil => grind [firstOf, lastOf]
  | cons first => cases lead : entry.index - first.index <;> grind [firstOf]

theorem Appended.followed
    (one : Appended memory memory' [entry]) (start : firstIndex memory' = firstIndex memory)
    (above : firstIndex memory ≤ entry.index)
    (follows : ∀ next ∈ rest.head?, next.index = entry.index + 1) :
    overwritten memory' rest = overwritten memory (entry :: rest) := by
  cases rest with
  | nil => exact one.log_eq
  | cons next =>
    have step := follows next rfl
    have all : (log memory').take (next.index - firstIndex memory') = log memory' := by
      apply List.take_of_length_le
      grind [one.log_eq, overwritten]
    rw [overwritten, all, one.log_eq]
    simp [overwritten]

theorem PositionsValid.tail {first last last' : Nat}
    (positions : PositionsValid first last ((entry :: rest).map header))
    (ends : last' = entry.index) : PositionsValid first last' (rest.map header) ∧
      ∀ next ∈ rest.head?, next.index = entry.index + 1 := by
  cases rest with
  | nil => exact ⟨⟨trivial, by simp⟩, by simp⟩
  | cons next =>
    obtain ⟨⟨⟨step, -⟩, steps⟩, bounds⟩ := positions
    have follows : next.index = entry.index + 1 := eq_of_checkedAdd step
    have fits : entry.index + 1 ≤ u64Max := by
      simp only [checkedAdd, Option.ite_none_right_eq_some] at step
      exact step.1
    have above := (bounds entry.header rfl).1
    replace above : first ≤ entry.index := above
    refine ⟨⟨steps, ?_⟩, by simpa using follows⟩
    simp only [List.map_cons, List.head?_cons, Option.mem_def, Option.some.injEq,
      forall_eq', header, satAdd]
    omega

/-- Appending entries one at a time leaves what appending them together does. -/
theorem forEach_appendOne (positions : PositionsValid (firstIndex store.memory) (lastIndex store.memory)
      (entries.map header)) :
    ∃ memory, Attempt.forEach appendOne entries store = (.ok (), { store with memory := memory }) ∧
      Appended store.memory memory entries := by
  induction entries generalizing store with
  | nil => exact ⟨store.memory, rfl, rfl, rfl, rfl, rfl⟩
  | cons entry rest ih =>
    have first : PositionsValid (firstIndex store.memory) (lastIndex store.memory)
        ([entry].map header) := ⟨trivial, positions.2⟩
    obtain ⟨above, below⟩ := positions.2 entry.header rfl
    obtain ⟨memory, ran⟩ := append_of_positions first
    have one := append_appended ran
    have last : lastIndex memory = entry.index := by
      rw [lastIndex_eq, one.floor_eq, one.log_eq, lastOf_overwritten]
      rfl
    have start := one.start above (below.trans (satAdd_le _ 1))
    obtain ⟨later, follows⟩ := positions.tail last
    rw [← start] at later
    obtain ⟨memory', ran', appended⟩ := @ih { store with memory := memory } later
    refine ⟨memory', ?_, ?_, ?_, ?_, ?_⟩
    · have step : appendOne entry store = (.ok (), { store with memory := memory }) := by
        unfold appendOne
        rw [ran]
      rw [Attempt.forEach, Attempt.bind_ok step, ran']
    · rw [appended.log_eq, one.followed start above follows]
    · rw [appended.floor_eq, one.floor_eq]
    · rw [appended.hardState_eq, one.hardState_eq]
    · rw [appended.confState_eq, one.confState_eq]

def Recovers (wire : Wire) (store : PeerStorage σ) (entry : Entry) : Prop :=
  checkChange wire store.permitted entry = .ok () ∧
    checkCommitted store.memory (hardState store.memory).commit .changesCommitted entry = .ok ()

theorem recoverEntry_eq_ok {encoded : Bytes} :
    recoverEntry wire store encoded = .ok entry ↔
      decodeEntry wire encoded = .ok entry ∧ Recovers wire store entry := by
  simp only [recoverEntry, bind_eq_ok, pure, Except.pure, Except.ok.injEq, Recovers]
  grind

theorem checkRecovered_eq_ok : checkRecovered wire store batch = .ok (entries, hs) ↔
    decodeContents wire batch = .ok (entries, hs) ∧ (∀ entry ∈ entries, Recovers wire store entry) ∧
      PositionsValid (firstIndex store.memory) (lastIndex store.memory) (entries.map header) ∧
      HardStateValid (hardState store.memory) (hs.getD (hardState store.memory))
        (endsAt (lastIndex store.memory) entries) (store.electorate batch)
        (entries.map header) := by
  have read : ∀ entries, batch.entries.mapM (recoverEntry wire store) = .ok entries ↔
      batch.entries.mapM (decodeEntry wire) = .ok entries ∧
        ∀ entry ∈ entries, Recovers wire store entry := by
    intro entries
    simp only [mapM_eq_ok, recoverEntry_eq_ok]
    induction batch.entries generalizing entries with
    | nil => simp +contextual
    | cons encoded rest ih =>
      simp only [List.forall₂_cons_left_iff, ih]
      grind
  simp only [checkRecovered, decodeContents, bind_eq_ok, ite_eq_ok, Decidable.not_not, read,
    pure, Except.pure, Except.ok.injEq, Prod.mk.injEq]
  unfold endsAt
  grind

theorem checkCommitted_fault {commit : Nat} {fault : Fault}
    (other : Fault) (passed : checkCommitted memory commit fault entry = .ok ()) :
    checkCommitted memory commit other entry = .ok () := by
  unfold checkCommitted at *
  grind

theorem checkArriving_of_recovers (recovers : ∀ entry ∈ entries, Recovers wire store entry)
    (source : SnapshotSource) : checkArriving wire store source entries = .ok () := by
  rw [checkArriving, bind_unit, forM_eq_ok, checkRetained_eq_ok]
  exact ⟨fun entry member => (recovers entry member).1,
    fun _ entry member => checkCommitted_fault _ (recovers entry member).2⟩

theorem installRecoveredEntries_placed
    (passed : checkRecovered wire store batch = .ok (entries, hs)) :
    ∃ placed, installRecoveredEntries wire batch store = (.ok (), placed) ∧
      Placed store placed (hardState store.memory) batch .journal entries hs := by
  obtain ⟨-, recovers, positions, valid⟩ := checkRecovered_eq_ok.mp passed
  obtain ⟨memory, ran, appended⟩ := forEach_appendOne positions
  refine ⟨{ store with memory := hs.elim memory (setHardstate · memory) }, ?_, positions,
    fun _ entry member => (recovers entry member).2, valid, appended.stored hs⟩
  simp only [installRecoveredEntries, passed, ran]

/-! ## The two installers -/

/-- Two installations both place the same contents, or both refuse and leave the store. -/
def Agree (store : PeerStorage σ) : (one two : Except PeerError Unit × PeerStorage σ) → Prop
  | (.ok (), placed), (.ok (), placed') =>
    hardState placed.memory = hardState placed'.memory ∧ log placed.memory = log placed'.memory
  | (.error _, left), (.error _, left') => left = store ∧ left' = store
  | _, _ => False

/-- **The two installers agree** on every record without a snapshot. -/
theorem installers_agree (wire : Wire) (files : Payloads) (store : PeerStorage σ) (batch : WalBatch)
    (bare : batch.snapshot = []) (source : SnapshotSource) (wireValidated : Bool) :
    Agree store (installRecoveredEntries wire batch store)
      (installFrom wire files batch source none wireValidated store) := by
  have stays : ∀ hs, replaceSnapshot wire files store batch source none wireValidated hs = .ok store := by
    simp [replaceSnapshot, bare]
  cases passed : checkRecovered wire store batch with
  | ok contents =>
    obtain ⟨entries, hs⟩ := contents
    obtain ⟨decoded, recovers, positions, valid⟩ := checkRecovered_eq_ok.mp passed
    obtain ⟨placed, ran, held⟩ := installRecoveredEntries_placed passed
    obtain ⟨placed', ran'⟩ : ∃ placed', placeEntries store (hardState store.memory) batch source
        entries hs = .ok placed' :=
      placeEntries_of_valid positions (fun _ entry member => (recovers entry member).2) valid
    have held' := (placeEntries_placed ran').stored
    simp only [ran, installFrom, decoded, installDecodedWithScratch,
      checkArriving_of_recovers recovers source, stays, ran']
    exact ⟨held.stored.hardState_eq.trans held'.hardState_eq.symm,
      held.stored.log_eq.trans held'.log_eq.symm⟩
  | error =>
    simp only [installRecoveredEntries, passed, installFrom, installDecodedWithScratch, stays]
    rcases decoded : decodeContents wire batch with _ | ⟨entries, hs⟩
    · exact ⟨rfl, rfl⟩
    rcases arrived : checkArriving wire store source entries with _ | ⟨⟩
    · simp only [arrived]
      exact ⟨rfl, rfl⟩
    rcases ran : placeEntries store (hardState store.memory) batch source entries hs with _ | placed
    · simp only [arrived, ran]
      exact ⟨rfl, rfl⟩
    -- what `install_from` accepts passes the checks of recovery
    have held := placeEntries_placed ran
    have recovers : ∀ entry ∈ entries, Recovers wire store entry := by
      intro entry member
      have changes := (bind_unit.mp arrived).1
      refine ⟨forM_eq_ok.mp changes entry member, ?_⟩
      cases captured : source.isLocal with
      | false => exact held.committed captured entry member
      | true => exact checkCommitted_fault _ (checkArriving_committed arrived captured entry member)
    have accepted := checkRecovered_eq_ok.mpr ⟨decoded, recovers, held.positions, held.valid⟩
    cases passed.symm.trans accepted

/-! ## Every way to install -/

def Sound (store : PeerStorage σ) (outcome : Except PeerError Unit × PeerStorage σ) : Prop :=
  match outcome with
  | (.ok (), after) => Monotone store after
  | (.error _, after) => after = store

theorem installRecoveredEntries_sound (contiguous : Contiguous store.memory) :
    Sound store (installRecoveredEntries wire batch store) := by
  cases passed : checkRecovered wire store batch with
  | error =>
    simp only [installRecoveredEntries, passed]
    rfl
  | ok =>
    obtain ⟨placed, ran, held⟩ := installRecoveredEntries_placed passed
    rw [ran]
    exact placed_monotone_in_place contiguous
      (checkArriving_of_recovers (checkRecovered_eq_ok.mp passed).2.1 _) held

structure SuffixFits (store : PeerStorage σ) (batch : WalBatch) (entries : List Entry)
    (hs : Option HardState) (held : Snapshot) : Prop where
  follows : ∀ first ∈ entries.head?, first.index = held.getMetadata.index + 1
  steps : stepsValid (entries.map header)
  hardState : HardStateValid (MemStorage.hardState store.memory)
    (hs.getD (MemStorage.hardState store.memory)) (endsAt held.getMetadata.index entries)
    (store.electorate batch) (entries.map header)

section
variable {held : Snapshot} (adopted : Adopted store replaced held)
include adopted

theorem Adopted.firstIndex_eq : firstIndex replaced.memory = held.getMetadata.index + 1 := by
  rw [adopted.contiguous.firstIndex, adopted.floor_eq]

theorem Adopted.lastIndex_eq : lastIndex replaced.memory = held.getMetadata.index := by
  rw [adopted.contiguous.lastIndex, adopted.floor_eq, adopted.log_eq]
  rfl

theorem Adopted.electorate_eq : replaced.electorate batch = store.electorate batch := by
  unfold PeerStorage.electorate
  rw [adopted.permitted_eq]

end

theorem starts_above {start : Nat} (steps : stepsValid (entries.map header))
    (follows : ∀ first ∈ entries.head?, first.index = start + 1)
    (member : entry ∈ entries) : start < entry.index := by
  cases entries with
  | nil => cases member
  | cons =>
    have := ((numbered_of_stepsValid steps).bounds member).1
    grind

theorem placeEntries_iff_fits (admitted : Admitted store batch source hs held)
    (adopted : Adopted store replaced held) :
    (∃ placed, placeEntries replaced (hardState store.memory) batch source entries hs = .ok placed) ↔
      SuffixFits store batch entries hs held := by
  constructor
  · rintro ⟨placed, ran⟩
    have placed := placeEntries_placed ran
    obtain ⟨steps, bounds⟩ := placed.positions
    have valid := placed.valid
    rw [adopted.lastIndex_eq, adopted.electorate_eq] at valid
    refine ⟨?_, steps, valid⟩
    intro first head
    have bound := bounds first.header (by simpa using ⟨first, head, rfl⟩)
    rw [adopted.firstIndex_eq, adopted.lastIndex_eq] at bound
    have := satAdd_le held.getMetadata.index 1
    grind [header]
  · rintro ⟨follows, steps, valid⟩
    apply placeEntries_of_valid
    · refine ⟨steps, ?_⟩
      rw [adopted.firstIndex_eq, adopted.lastIndex_eq, satAdd_of_lt admitted.bounded]
      intro header head
      simp only [List.head?_map, Option.mem_def, Option.map_eq_some_iff] at head
      obtain ⟨first, found, rfl⟩ := head
      have := follows first found
      simp only [header]
      omega
    · intro journal entry member
      have above := starts_above steps follows member
      have := admitted.committed journal
      rw [checkCommitted, if_pos (by omega)]
    · rwa [adopted.lastIndex_eq, adopted.electorate_eq]

/-- What an installation was called with, once the record is decoded. -/
structure Arguments where
  batch : WalBatch
  source : SnapshotSource
  snapshot : Option Snapshot
  wireValidated : Bool
  entries : List Entry
  hs : Option HardState

def Arguments.SnapshotFits (wire : Wire) (files : Payloads) (arguments : Arguments)
    (store : PeerStorage σ) : Prop :=
  checkArriving wire store arguments.source arguments.entries = .ok () →
  arguments.snapshot.isSome ∨ arguments.batch.snapshot ≠ [] →
  ∀ held payload,
    admitSnapshot wire files store arguments.batch arguments.source arguments.snapshot
      arguments.wireValidated arguments.hs = .ok (held, payload) →
    firstIndex store.memory ≤ held.getMetadata.index →
    SuffixFits store arguments.batch arguments.entries arguments.hs held

def Arguments.run (wire : Wire) (files : Payloads) (arguments : Arguments) : StoreM σ Unit :=
  installDecodedWithScratch wire files arguments.batch arguments.source arguments.snapshot
    arguments.wireValidated arguments.entries arguments.hs

theorem replaceSnapshot_of_admitted (present : snapshot.isSome ∨ batch.snapshot ≠ [])
   
    (admitted : admitSnapshot wire files store batch source snapshot wireValidated hs
      = .ok (held, payload)) :
    replaceSnapshot wire files store batch source snapshot wireValidated hs
      = adoptSnapshot store held payload := by
  rw [replaceSnapshot, if_pos present, admitted]
  rfl

theorem Arguments.sound_iff (contiguous : Contiguous store.memory) (arguments : Arguments) :
    Sound store (arguments.run wire files store) ↔ arguments.SnapshotFits wire files store := by
  obtain ⟨batch, source, snapshot, wireValidated, entries, hs⟩ := arguments
  unfold Arguments.run Arguments.SnapshotFits installDecodedWithScratch
  cases arrived : checkArriving wire store source entries with
  | error => simp [Sound]
  | ok =>
    cases swapped : replaceSnapshot wire files store batch source snapshot wireValidated hs with
    | error =>
      simp only [Sound, true_iff]
      intro _ present held payload admitted newer
      obtain ⟨replaced, adopted⟩ := adoptSnapshot_of_newer store held payload newer
      rw [replaceSnapshot_of_admitted present admitted, adopted] at swapped
      cases swapped
    | ok replaced =>
      rcases replaceSnapshot_cases swapped with
        ⟨rfl, absent, rfl⟩ | ⟨held, payload, present, admitted, adopted⟩
      · simp only [absent, Option.isSome_none, ne_eq, not_true_eq_false, or_false,
          Bool.false_eq_true, IsEmpty.forall_iff, implies_true, iff_true]
        cases ran : placeEntries replaced (hardState replaced.memory) batch source entries hs with
        | error => rfl
        | ok => exact placed_monotone_in_place contiguous arrived (placeEntries_placed ran)
      · have accepted := admitSnapshot_admitted admitted
        have moved := adoptSnapshot_adopted adopted
        have fits : (∃ placed, placeEntries replaced (hardState store.memory) batch source
            entries hs = .ok placed) ↔ SuffixFits store batch entries hs held :=
          placeEntries_iff_fits accepted moved
        cases ran : placeEntries replaced (hardState store.memory) batch source entries hs with
        | error =>
          -- the snapshot is in place and the suffix is not: the store changed
          simp only [ran, Sound]
          constructor
          · exact fun same => absurd same (moved.ne contiguous)
          intro all
          obtain ⟨placed, ok⟩ := fits.mpr (all trivial present held payload admitted moved.newer)
          rw [ran] at ok
          cases ok
        | ok =>
          simp only [ran, Sound]
          constructor
          · grind
          · exact fun _ => placed_monotone_over_snapshot contiguous arrived accepted moved
              (placeEntries_placed ran)

/-- The ways the runtime installs a record. -/
inductive Installation where
  /-- From the journal's own records while running (`install`). -/
  | journal (batch : WalBatch)
  /-- From a reopened journal (`install_with_scratch`). -/
  | recovered (recovered : RecoveredBatch)
  | localCheckpoint (batch : WalBatch) (snapshot : Snapshot) (captured : Option Blob)
  | receivedCheckpoint (batch : WalBatch) (snapshot : Snapshot) (payload : Option Blob)
  /-- From a live `Ready` (`install_decoded`). -/
  | decoded (batch : WalBatch) (source : SnapshotSource) (entries : List Entry)
      (hs : Option HardState)

namespace Installation

def run (wire : Wire) (files : Payloads) : Installation → StoreM σ Unit
  | journal batch => install wire files batch
  | recovered batch => installWithScratch wire files batch
  | localCheckpoint batch snapshot captured => installLocal wire files batch snapshot captured
  | receivedCheckpoint batch snapshot payload => installReceived wire files batch snapshot payload
  | decoded batch source entries hs => installDecoded wire files batch source entries hs

/-- The arguments of `install_from`, once the record is decoded. -/
def argumentsFrom (wire : Wire) (batch : WalBatch) (source : SnapshotSource)
    (snapshot : Option Snapshot) (wireValidated : Bool) : Except PeerError Arguments :=
  (decodeContents wire batch).map fun (entries, hs) =>
    ⟨batch, source, snapshot, wireValidated, entries, hs⟩

def arguments (wire : Wire) : Installation → Except PeerError Arguments
  | journal batch => argumentsFrom wire batch .journal none false
  | recovered batch =>
    argumentsFrom wire batch.record .journal batch.snapshot batch.snapshot.isSome
  | localCheckpoint batch snapshot captured =>
    argumentsFrom wire batch (captured.elim .journal .localCapture) (some snapshot) false
  | receivedCheckpoint batch snapshot payload =>
    argumentsFrom wire batch (payload.elim .journal .received) (some snapshot) false
  | decoded batch source entries hs => .ok ⟨batch, source, none, false, entries, hs⟩

def SnapshotFits (wire : Wire) (files : Payloads) (call : Installation) (store : PeerStorage σ) :
    Prop :=
  ∀ arguments, call.arguments wire = .ok arguments → arguments.SnapshotFits wire files store

end Installation

theorem installFrom_sound_iff (contiguous : Contiguous store.memory) :
    Sound store (installFrom wire files batch source snapshot wireValidated store) ↔
      ∀ arguments, Installation.argumentsFrom wire batch source snapshot wireValidated = .ok arguments →
        arguments.SnapshotFits wire files store := by
  unfold installFrom Installation.argumentsFrom
  cases decoded : decodeContents wire batch with
  | error => simp [Sound, Except.map]
  | ok contents =>
    obtain ⟨entries, hs⟩ := contents
    simp only [Except.map, Except.ok.injEq, forall_eq']
    exact Arguments.sound_iff contiguous ⟨batch, source, snapshot, wireValidated, entries, hs⟩

theorem arguments_snapshotFits_of_plain {arguments : Arguments} (bare : snapshot = none)
    (empty : batch.snapshot = [])
    (decoded : Installation.argumentsFrom wire batch source snapshot wireValidated = .ok arguments) :
    arguments.SnapshotFits wire files store := by
  unfold Installation.argumentsFrom at decoded
  cases contents : decodeContents wire batch with
  | error => simp [contents, Except.map] at decoded
  | ok =>
    simp only [contents, Except.map, Except.ok.injEq] at decoded
    subst decoded
    rintro - present
    simp [bare, empty] at present

/-- **Installing is monotone and leaves no trace of a refused record, exactly when the record's
entries and hard state fit its snapshot.** -/
theorem install_sound_iff (wire : Wire) (files : Payloads) (call : Installation)
    (store : PeerStorage σ) (contiguous : Contiguous store.memory) :
    Sound store (call.run wire files store) ↔ call.SnapshotFits wire files store := by
  cases call with
  | journal | localCheckpoint | receivedCheckpoint => exact installFrom_sound_iff contiguous
  | recovered batch =>
    show Sound store (installWithScratch wire files batch store) ↔ _
    unfold installWithScratch
    split
    · rename_i plain
      refine iff_of_true (installRecoveredEntries_sound contiguous) ?_
      intro arguments decoded
      exact arguments_snapshotFits_of_plain plain.1 plain.2.1 decoded
    · exact installFrom_sound_iff contiguous
  | decoded batch source entries hs =>
    unfold Installation.SnapshotFits Installation.arguments
    simp only [Except.ok.injEq, forall_eq']
    exact Arguments.sound_iff contiguous ⟨batch, source, none, false, entries, hs⟩

end Installing

/-! ## A refused record that changed the store -/

def normalEntry (term index : Nat) : Entry :=
  { entryType := entryNormal, term := term, index := index, data := [7], syncLog := false,
    context := [] }

def threeCommitted : PeerStorage LogImage where
  permitted := []
  memory :=
    { LogImage.newWithConfState [1] with
      hardState := { term := 1, vote := 1, commit := 3 }
      log := [normalEntry 1 1, normalEntry 1 2, normalEntry 1 3] }
  checkpoint := none
  payload := none
  retired := []

def batchOfOne (hs : HardState) : WalBatch :=
  { (default : WalBatch) with
    version := 1, group := 1, node := 1, voters := [1], hardState := protobuf.hardState.encode hs }

def shortOfCommit : WalBatch :=
  { batchOfOne { term := 1, vote := 1, commit := 9 } with
    version := 2
    snapshot := protobuf.encodeSnapshot
      { data := [1]
        metadata := some
          { confState := some { (default : ConfState) with voters := [1] }, index := 5, term := 1 } } }

theorem threeCommitted_contiguous : Contiguous threeCommitted.memory :=
  numbered_of_stepsValid (by decide)

/-- The record is refused for its hard state, and its snapshot has taken the place of the log. -/
theorem refused_snapshot_stays : (install protobuf (fun _ => none) shortOfCommit threeCommitted).1
        = .error (.storage .hardStateInvalid) ∧
      log (install protobuf (fun _ => none) shortOfCommit threeCommitted).2.memory = [] ∧
      (hardState (install protobuf (fun _ => none) shortOfCommit threeCommitted).2.memory).commit = 5 := by
  decide +kernel

def fourthEntry : WalBatch :=
  { batchOfOne { term := 1, vote := 1, commit := 4 } with entries := [(normalEntry 1 4).encode] }

theorem installers_agree_fourth : fourthEntry.snapshot = [] ∧
    (installRecoveredEntries protobuf fourthEntry threeCommitted).1 = .ok () ∧
    Agree threeCommitted (installRecoveredEntries protobuf fourthEntry threeCommitted)
      (install protobuf (fun _ => none) fourthEntry threeCommitted) :=
  ⟨rfl, by decide +kernel, installers_agree _ _ _ _ rfl _ _⟩

theorem fourth_entry_installs : Contiguous threeCommitted.memory ∧
      Sound threeCommitted ((Installation.journal fourthEntry).run protobuf (fun _ => none)
        threeCommitted) :=
  ⟨threeCommitted_contiguous,
    (install_sound_iff protobuf (fun _ => none) (.journal fourthEntry) threeCommitted
      threeCommitted_contiguous).mpr fun _ decoded => arguments_snapshotFits_of_plain rfl rfl decoded⟩

end MatrixRaft.Peer
