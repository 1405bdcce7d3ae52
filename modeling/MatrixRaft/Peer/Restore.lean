/-
# Peer.Restore — a rewritten journal read back

- `installFrom_floor` — a checkpoint's own record goes into an empty store
- `image_restores` — its records install what was published
-/
import MatrixRaft.Peer.Image

namespace MatrixRaft.Peer
open Theory MemStorage LawfulMemStorage Journal List Attempt WalAssembly

set_option linter.unusedSectionVars false

/-! ## The checkpoint in one record -/

variable {σ : Type} [MemStorage σ] [LawfulMemStorage σ] {wire : Wire} {files : Payloads}
  {store : PeerStorage σ} {snapshot : Snapshot} {payload : Option Blob} {hs : HardState}
  {options : PeerOptions} {length : Nat}

def Available (wire : Wire) (files : Payloads) (payload : Blob) : Prop :=
  Blob.open wire files (wire.manifest.encode payload.manifest) = .ok payload

def writtenCheckpoint (wire : Wire) (options : PeerOptions) (snapshot : Snapshot) (hs : HardState)
    (permitted : List Nat) : WalBatch :=
  { checkpointRecord wire options snapshot hs with permitted := permitted }

section Suited
variable {voters permitted : List Nat} (suits : Suits wire voters permitted snapshot hs)

include suits

theorem Suits.floor : Suits wire voters permitted snapshot (floorOf hs snapshot) :=
  ⟨suits.valid, le_rfl, suits.term, suits.elected⟩

theorem Suits.index_ne : snapshot.getMetadata.index ≠ 0 := by
  have valid := suits.valid
  simp only [validateSnapshotFor, Checks.ite_eq_ok, not_or] at valid
  exact valid.1.1

theorem Suits.index_lt : snapshot.getMetadata.index < u64Max := by
  have valid := suits.valid
  simp only [validateSnapshotFor, Checks.ite_eq_ok, not_or, not_le] at valid
  exact valid.1.2.1

theorem Suits.length_le : (wire.encodeSnapshot snapshot).length ≤ snapshotEncodedLimit - 1024 := by
  have valid := suits.valid
  simp only [validateSnapshotFor, Checks.ite_eq_ok, not_or, not_lt] at valid
  exact valid.1.2.2.2.2.2.2

theorem Suits.metadata :
    ∃ metadata, snapshot = { data := snapshot.data, metadata := some metadata } := by
  obtain ⟨data, metadata⟩ := snapshot
  cases metadata with
  | none => exact absurd rfl suits.index_ne
  | some metadata => exact ⟨metadata, rfl⟩

theorem encodeSnapshot_ne_nil : wire.encodeSnapshot snapshot ≠ [] := by
  obtain ⟨metadata, same⟩ := suits.metadata
  rw [same]
  simp [Wire.encodeSnapshot, Snapshot.fields, optionalField, writeFields, Field.write, varint_ne_nil]

theorem decodeOwnedSnapshot_suits (present : snapshot.data ≠ []) :
    decodeOwnedSnapshot wire (wire.encodeSnapshot snapshot) = .ok snapshot := by
  have length := suits.length_le
  obtain ⟨metadata, same⟩ := suits.metadata
  rw [same] at length ⊢
  exact decodeOwnedSnapshot_encode wire present metadata (length.trans (by decide))

theorem floor_encoded :
    wire.hardState.encode (floorOf hs snapshot) ≠ [] := fun empty =>
  suits.index_ne (congrArg HardState.commit (wire.hardState_empty _ empty))

end Suited

theorem installFrom_floor {record : WalBatch} {given : Option Snapshot} {wireValidated : Bool}
    (initial : Initial store) (suits : Suits wire options.voters store.permitted snapshot hs)
    (voters : record.voters = options.voters) (bare : record.entries = [])
    (state : record.hardState = wire.hardState.encode (floorOf hs snapshot))
    (held : heldSnapshot wire record given = .ok snapshot)
    (backed : heldPayload wire files record none snapshot = .ok payload)
    (present : given.isSome ∨ record.snapshot ≠ [])
    (exact : wireValidated = true ∨ wire.encodeSnapshot snapshot = record.snapshot) :
    ∃ based, installFrom wire files record .journal given wireValidated store = (.ok (), based) ∧
      Based store based snapshot payload [] (floorOf hs snapshot) := by
  have decoded := decodeHardState_some state (floor_encoded suits)
  have settled : (floorOf hs snapshot).commit = snapshot.getMetadata.index := rfl
  replace suits := suits.floor
  rw [← voters] at suits
  generalize floorOf hs snapshot = hs at decoded settled suits ⊢
  have contents : decodeContents wire record = .ok ([], some hs) := by
    rw [decodeContents, bare, decoded]
    rfl
  have agrees : ¬ SnapshotConflicts wire (hardState store.memory) hs record .journal wireValidated
      snapshot := by
    rw [initial.hardState_eq]
    have := suits.term
    have unvoted : (default : HardState).vote = 0 := rfl
    have early : (default : HardState).commit = 0 := rfl
    have first : (default : HardState).term = 0 := rfl
    grind
  have admitted : admitSnapshot wire files store record .journal given wireValidated (some hs)
      = .ok (snapshot, payload) := by
    simp only [admitSnapshot, held, SnapshotSource.captured, backed, suits.valid, bind, Except.bind,
      if_neg agrees]
  have positive : 1 ≤ snapshot.getMetadata.index := by
    have valid := suits.valid
    simp only [validateSnapshotFor, Checks.ite_eq_ok, not_or] at valid
    omega
  have newer : firstIndex store.memory ≤ snapshot.getMetadata.index := by
    rw [initial.contiguous.firstIndex, initial.floor_eq]
    omega
  obtain ⟨replaced, adopted⟩ := adoptSnapshot_of_newer store snapshot payload newer
  have moved := adoptSnapshot_adopted adopted
  obtain ⟨_, based⟩ := adoptSnapshot_based adopted
  have valid : HardStateValid (hardState store.memory) hs (endsAt (lastIndex replaced.memory) [])
      (replaced.electorate record) [] := by
    rw [initial.hardState_eq]
    refine ⟨Nat.zero_le _, Nat.zero_le _, ?_, fun voted => voted.2.1 rfl, ?_, by simp⟩
    · show hs.commit ≤ lastIndex replaced.memory
      rw [moved.lastIndex_eq, settled]
    · rw [PeerStorage.electorate, moved.permitted_eq]
      exact suits.elected
  obtain ⟨placed, ran⟩ : ∃ placed, placeEntries replaced (hardState store.memory) record .journal []
      (some hs) = .ok placed :=
    placeEntries_of_valid ⟨trivial, by simp⟩ (fun _ => by simp) valid
  refine ⟨placed, ?_, ?_⟩
  · have swapped := (replaceSnapshot_of_admitted present admitted).trans adopted
    have arrived : checkArriving wire store .journal [] = .ok () := checkArriving_journal.mpr (by simp)
    simp only [installFrom, contents, installDecodedWithScratch, arrived, swapped, ran]
  · have stored := (placeEntries_placed ran).stored
    exact ⟨stored.hardState_eq, stored.floor_eq.trans based.floor_eq, stored.log_eq.trans based.log_eq,
      stored.confState_eq.trans based.confState_eq, stored.checkpoint_eq.trans based.checkpoint_eq,
      stored.payload_eq.trans based.payload_eq, stored.permitted_eq.trans based.permitted_eq⟩

/-- What a checkpoint installed in place of its fragments or its record leaves. -/
def Restores (wire : Wire) (files : Payloads) (length : Nat) (store : PeerStorage σ) (snapshot : Snapshot)
    (payload : Option Blob) (hs : HardState) (records : List WalBatch) : Prop :=
  ∃ based, installRecords wire files 0 records { assembly := .new length, store := store }
      = (.ok (), { assembly := .new length, store := based }) ∧
    Based store based snapshot payload [] (floorOf hs snapshot)

theorem installRecords_singleton (offset : Nat) (record : WalBatch) (recovery : Recovery σ) :
    installRecords wire files offset [record] recovery
      = acceptRecord wire files offset record recovery :=
  bind_pure_unit (acceptRecord wire files offset record) recovery

theorem installRecords_append (offset : Nat) (left right : List WalBatch) :
    (installRecords wire files offset (left ++ right) : RecoveryM σ Unit)
      = (installRecords wire files offset left >>= fun _ =>
          installRecords wire files (offset + (framed left).length) right) :=
  Frames.forEachAt_append offset left right

theorem acceptRecord_of_recovered {offset : Nat} {record : WalBatch} {batch : RecoveredBatch}
    {recovery : Recovery σ} (plain : record.version ≠ 3) (whole : recovery.assembly.pending = none)
    (unused : record.snapshotOffset = 0 ∧ record.snapshotTotal = 0 ∧ record.snapshotDigest = 0)
    (read : recovered wire record = .ok batch) : acceptRecord wire files offset record recovery
      = ((installWithScratch wire files batch recovery.store).1,
          { recovery with store := (installWithScratch wire files batch recovery.store).2 }) := by
  have taken : recovery.assembly.accept wire record offset = .ok (recovery.assembly, some batch) := by
    rw [accept, if_pos plain, if_neg (by simp [whole, unused]), read]
    rfl
  simp only [acceptRecord, taken]
  rfl

theorem restores_file {blob : Blob} (initial : Initial store)
    (suits : Suits wire options.voters store.permitted snapshot hs) (bare : snapshot.data = [])
    (available : Available wire files blob) :
    Restores wire files length store snapshot (some blob) hs
      [{ writtenCheckpoint wire options snapshot hs store.permitted with
          version := 4, payloadManifest := wire.manifest.encode blob.manifest }] := by
  set record : WalBatch := { writtenCheckpoint wire options snapshot hs store.permitted with
    version := 4, payloadManifest := wire.manifest.encode blob.manifest } with record_eq
  have present := encodeSnapshot_ne_nil suits
  have held : heldSnapshot wire record none = .ok snapshot := by
    have decoded : wire.decodeSnapshot record.snapshot = some snapshot := wire.decodeSnapshot_encode snapshot
    simp only [heldSnapshot, decoded]
  have backed : heldPayload wire files record none snapshot = .ok (some blob) := by
    have opened : Blob.open wire files record.payloadManifest = .ok blob := available
    rw [heldPayload, if_neg (by simp [record_eq]), if_neg (by simp [bare])]
    simp only [opened]
    rfl
  obtain ⟨based, ran, holds⟩ := installFrom_floor initial suits rfl rfl rfl held backed
    (.inr present) (.inr rfl)
  refine ⟨based, ?_, holds⟩
  have read : recovered wire record = .ok { record := record, snapshot := none } := by
    rfl
  rw [installRecords_singleton, acceptRecord_of_recovered (by simp [record_eq]) rfl ⟨rfl, rfl, rfl⟩ read]
  have installed : installWithScratch wire files { record := record, snapshot := none } store
      = (.ok (), based) := by
    rw [installWithScratch, if_neg]
    · exact ran
    · rintro ⟨-, empty, -⟩
      exact present empty
  simp only [installed]

theorem restores_inline (initial : Initial store)
    (suits : Suits wire options.voters store.permitted snapshot hs) (present : snapshot.data ≠ []) :
    Restores wire files length store snapshot none hs
      [writtenCheckpoint wire options snapshot hs store.permitted] := by
  set record := writtenCheckpoint wire options snapshot hs store.permitted with record_eq
  have read : recovered wire record
      = .ok { record := { record with snapshot := [] }, snapshot := some snapshot } := by
    have shape : record.version = 2 ∧ record.entries.all (· = []) = true := ⟨rfl, rfl⟩
    have decoded : decodeOwnedSnapshot wire record.snapshot = .ok snapshot :=
      decodeOwnedSnapshot_suits suits present
    rw [recovered, if_pos shape, decoded]
    rfl
  obtain ⟨based, ran, holds⟩ := @installFrom_floor σ _ _ wire files store snapshot none hs options
    { record with snapshot := [] } (some snapshot) true initial suits rfl rfl rfl rfl
    (if_pos (by simp [record_eq, writtenCheckpoint, checkpointRecord])) (.inl rfl) (.inl rfl)
  refine ⟨based, ?_, holds⟩
  have plain : record.version ≠ 3 := by simp [record_eq, writtenCheckpoint, checkpointRecord]
  rw [installRecords_singleton, acceptRecord_of_recovered plain rfl ⟨rfl, rfl, rfl⟩ read]
  have installed : installWithScratch wire files
      { record := { record with snapshot := [] }, snapshot := some snapshot } store
        = (.ok (), based) := by exact ran
  simp only [installed]

theorem empty_not_restored {store : PeerStorage σ}
    (suits : Suits wire options.voters store.permitted snapshot hs) (empty : snapshot.data = []) :
    acceptRecord wire files 0 (writtenCheckpoint wire options snapshot hs store.permitted)
        { assembly := .new length, store := store }
      = (.error (.storage .snapshotEncoding), { assembly := .new length, store := store }) := by
  set record := writtenCheckpoint wire options snapshot hs store.permitted with record_eq
  obtain ⟨metadata, same⟩ := suits.metadata
  rw [empty] at same
  have refused : decodeOwnedSnapshot wire (wire.encodeSnapshot snapshot)
      = .error (.storage .snapshotEncoding) := by
    rw [same]
    rfl
  have read : recovered wire record = .error (.storage .snapshotEncoding) := by
    have shape : record.version = 2 ∧ record.entries.all (· = []) = true := ⟨rfl, rfl⟩
    have bytes : record.snapshot = wire.encodeSnapshot snapshot := rfl
    rw [recovered, if_pos shape, bytes, refused]
    rfl
  have taken : (new length).accept wire record 0 = .error (.storage .snapshotEncoding) := by
    rw [accept, if_pos (by simp [record_eq, writtenCheckpoint, checkpointRecord]),
      if_neg (by simp [new, record_eq, writtenCheckpoint, checkpointRecord, batch]), read]
    rfl
  simp only [acceptRecord, taken]

/-! ## The checkpoint in fragments -/

section Fragments
variable {encoded : Bytes} {first : WalBatch}

def gathered (first : WalBatch) (encoded : Bytes) (number : Nat) : WalFragments where
  record := { fragment first encoded 0 with snapshot := [] }
  snapshot := encoded.take (number * snapshotFragmentBytes)

variable {number : Nat}

theorem fragment_snapshot_ne (inside : number * snapshotFragmentBytes < encoded.length) :
    (fragment first encoded number).snapshot ≠ [] := by
  intro empty
  have length := congrArg List.length empty
  have some : 0 < snapshotFragmentBytes := by decide
  simp only [fragment, length_take, length_drop, length_nil] at length
  omega

theorem length_gathered (first : WalBatch) (inside : number * snapshotFragmentBytes < encoded.length) :
    (gathered first encoded number).snapshot.length = number * snapshotFragmentBytes := by
  simp only [gathered, length_take]
  omega

theorem gathered_succ (first : WalBatch) (encoded : Bytes) (number : Nat) :
    (gathered first encoded number).snapshot ++ (fragment first encoded number).snapshot
      = (gathered first encoded (number + 1)).snapshot := by
  simp only [gathered, fragment]
  rw [← take_add, Nat.succ_mul]

theorem gathered_record (first : WalBatch) (encoded : Bytes) (number : Nat) :
    (gathered first encoded number).record = { fragment first encoded 0 with snapshot := [] } := rfl

variable {assembly : WalAssembly}

theorem extend_first (stated : first.hardState ≠ [])
    (before : assembly.pending = none) :
    assembly.extend (fragment first encoded 0) 0 = .ok (gathered first encoded 1) := by
  set part := fragment first encoded 0 with part_eq
  have fits : part.snapshot.length ≤ encoded.length := by
    simp only [part_eq, fragment, length_take, length_drop]
    omega
  have begins : ¬ (0 ≠ 0 ∨ part.snapshotOffset ≠ 0 ∨ part.hardState = [] ∨
      part.snapshot.length > part.snapshotTotal) := by
    rintro (late | moved | stateless | long)
    · exact late rfl
    · exact moved (zero_mul _)
    · exact stated stateless
    · exact absurd fits (not_le.mpr long)
  have whole : part.snapshot = (gathered first encoded 1).snapshot := by
    rw [← gathered_succ, gathered, zero_mul, take_zero, nil_append]
  simp only [extend, before, if_neg begins]
  rw [whole, ← gathered_record first encoded 1]

theorem extend_next (offset : Nat) (later : number ≠ 0)
    (inside : number * snapshotFragmentBytes < encoded.length)
    (before : assembly.pending = some (gathered first encoded number)) :
    assembly.extend (fragment first encoded number) offset = .ok (gathered first encoded (number + 1)) := by
  set part := fragment first encoded number with part_eq
  have joined := gathered_succ first encoded number
  set held := gathered first encoded number with held_eq
  have continues : ¬ (part.snapshotOffset ≠ held.snapshot.length ∨
      part.snapshotTotal ≠ held.record.snapshotTotal ∨
      part.snapshotDigest ≠ held.record.snapshotDigest ∨
      part.hardState ≠ []) := by
    rw [length_gathered first inside]
    simp [part_eq, held_eq, fragment, gathered, later]
  have fits : ¬ held.snapshot.length + part.snapshot.length > held.record.snapshotTotal := by
    rw [← length_append, joined]
    simp only [held_eq, gathered, fragment, length_take]
    omega
  simp only [extend, before, if_neg continues, if_neg fits]
  rw [joined, held_eq, gathered_record first encoded number, ← gathered_record first encoded (number + 1)]

section Joining
variable {assembly : WalAssembly} {number offset : Nat} (stated : first.hardState ≠ [])
  (inside : number * snapshotFragmentBytes < encoded.length)
  (before : assembly.pending = if number = 0 then none else some (gathered first encoded number))
  (start : number = 0 → offset = 0)

include stated inside before start

theorem extend_fragment : assembly.extend (fragment first encoded number) offset = .ok (gathered first encoded (number + 1)) := by
  by_cases begins : number = 0
  · subst begins
    rw [start rfl]
    exact extend_first stated before
  · rw [if_neg begins] at before
    exact extend_next offset begins inside before

theorem accept_fragment (bare : first.entries = [])
    (small : encoded.length ≤ snapshotEncodedLimit) (covered : encoded.length ≤ assembly.walLength) :
    assembly.accept wire (fragment first encoded number) offset
      = assembly.complete wire (gathered first encoded (number + 1)) := by
  set part := fragment first encoded number with part_eq
  have bounded : ¬ (part.snapshotTotal = 0 ∨
      part.snapshotTotal > snapshotEncodedLimit ∨
      part.snapshotTotal > assembly.walLength ∨
      part.snapshot = [] ∨
      part.snapshot.length > snapshotFragmentBytes ∨
      part.entries ≠ []) := by
    have total : part.snapshotTotal = encoded.length := rfl
    have short : part.snapshot.length ≤ snapshotFragmentBytes := length_take_le _ _
    rintro (none | large | beyond | empty | long | full)
    · omega
    · omega
    · omega
    · exact fragment_snapshot_ne inside empty
    · omega
    · exact full bare
  have version : ¬ part.version ≠ 3 := by simp [part_eq, fragment]
  rw [accept, if_neg version, if_neg bounded, part_eq, extend_fragment stated inside before start]
  exact pure_bind (gathered first encoded (number + 1)) _

end Joining

theorem installRecords_fragments {count : Nat} (stated : first.hardState ≠ []) (bare : first.entries = [])
    (positive : 0 < count) (inside : count * snapshotFragmentBytes < encoded.length)
    (small : encoded.length ≤ snapshotEncodedLimit) (covered : encoded.length ≤ length) :
    installRecords wire files 0 ((List.range count).map (fragment first encoded))
        { assembly := .new length, store := store }
      = (.ok (), { assembly := { pending := some (gathered first encoded count), walLength := length }
                   store := store }) := by
  have kept : ∀ number (assembly : WalAssembly) offset, (number + 1) * snapshotFragmentBytes < encoded.length →
      assembly.walLength = length →
      assembly.pending = (if number = 0 then none else some (gathered first encoded number)) →
      (number = 0 → offset = 0) → acceptRecord wire files offset (fragment first encoded number)
          { assembly := assembly, store := store } = (.ok (),
        ⟨⟨some (gathered first encoded (number + 1)), length⟩, store⟩) := by
    intro number assembly offset next size before start
    have taken : assembly.accept wire (fragment first encoded number) offset
        = assembly.complete wire (gathered first encoded (number + 1)) :=
      accept_fragment stated (by rw [Nat.succ_mul] at next; omega) before start bare small (by omega)
    have missing : (gathered first encoded (number + 1)).snapshot.length
        ≠ (gathered first encoded (number + 1)).record.snapshotTotal := by
      rw [length_gathered first next]
      exact next.ne
    rw [complete, if_pos missing] at taken
    simp only [acceptRecord, taken, size]
  induction count with
  | zero => exact absurd positive (lt_irrefl 0)
  | succ count ih =>
    rcases Nat.eq_zero_or_pos count with rfl | more
    · exact (installRecords_singleton _ _ _).trans (kept 0 _ _ inside rfl rfl (fun _ => rfl))
    rw [range_succ, map_append, installRecords_append,
      bind_ok (ih more (by rw [Nat.succ_mul] at inside; omega))]
    refine (installRecords_singleton _ _ _).trans (kept count _ _ inside rfl ?_ (by omega))
    rw [if_neg (by omega)]

theorem fragmentCount_eq (present : encoded ≠ []) :
    ∃ last, fragmentCount encoded = last + 1 ∧ last * snapshotFragmentBytes < encoded.length ∧
      encoded.length ≤ (last + 1) * snapshotFragmentBytes := by
  have positive := length_pos_iff.mpr present
  have size : 0 < snapshotFragmentBytes := by decide
  refine ⟨(encoded.length - 1) / snapshotFragmentBytes, ?_, ?_, ?_⟩
  · have shift : encoded.length + snapshotFragmentBytes - 1
        = (encoded.length - 1) + snapshotFragmentBytes := by omega
    rw [fragmentCount, shift, Nat.add_div_right _ size]
  · have below := Nat.div_mul_le_self (encoded.length - 1) snapshotFragmentBytes
    omega
  · have above := Nat.lt_mul_div_succ (encoded.length - 1) size
    rw [mul_comm] at above
    omega

theorem complete_gathered
    (whole : encoded.length ≤ number * snapshotFragmentBytes)
    (decoded : decodeOwnedSnapshot wire encoded = .ok snapshot) :
    assembly.complete wire (gathered first encoded number) = .ok ({ assembly with pending := none },
          some { record := { first with
                    version := 2, snapshot := [], snapshotOffset := 0, snapshotTotal := 0
                    snapshotDigest := 0 }
                 snapshot := some snapshot }) := by
  have all : (gathered first encoded number).snapshot = encoded := take_of_length_le whole
  have total : (gathered first encoded number).record.snapshotTotal = encoded.length := rfl
  have sum : (gathered first encoded number).record.snapshotDigest = digest encoded := rfl
  rw [complete, all, total, sum, if_neg (by simp), if_neg (by simp), decoded,
    gathered_record]
  simp only [Except.map, fragment, zero_mul, if_true]

theorem restores_fragments (initial : Initial store)
    (suits : Suits wire options.voters store.permitted snapshot hs) (present : snapshot.data ≠ [])
    (large : snapshotFragmentBytes < (wire.encodeSnapshot snapshot).length)
    (covered : (wire.encodeSnapshot snapshot).length ≤ length) :
    Restores wire files length store snapshot none hs
      ((List.range (fragmentCount (wire.encodeSnapshot snapshot))).map
        (fragment (writtenCheckpoint wire options snapshot hs store.permitted)
          (wire.encodeSnapshot snapshot))) := by
  set first := writtenCheckpoint wire options snapshot hs store.permitted
  set encoded := wire.encodeSnapshot snapshot
  have stated : first.hardState ≠ [] := floor_encoded suits
  have small : encoded.length ≤ snapshotEncodedLimit := suits.length_le.trans (by decide)
  have decoded : decodeOwnedSnapshot wire encoded = .ok snapshot := decodeOwnedSnapshot_suits suits present
  have nonempty : encoded ≠ [] := encodeSnapshot_ne_nil suits
  obtain ⟨last, count, inside, ends⟩ := fragmentCount_eq nonempty
  have several : last ≠ 0 := by
    rintro rfl
    omega
  set record : WalBatch := { first with
    version := 2, snapshot := [], snapshotOffset := 0, snapshotTotal := 0, snapshotDigest := 0 }
    with record_eq
  obtain ⟨based, ran, holds⟩ := @installFrom_floor σ _ _ wire files store snapshot none hs options
    record (some snapshot) true initial suits rfl rfl rfl rfl (if_pos (by simp [record_eq])) (.inl rfl)
    (.inl rfl)
  refine ⟨based, ?_, holds⟩
  have installed : installWithScratch wire files { record := record, snapshot := some snapshot } store
      = (.ok (), based) := by
    exact ran
  have taken (offset : Nat) : acceptRecord wire files offset (fragment first encoded last)
      { assembly := { pending := some (gathered first encoded last), walLength := length }
        store := store }
        = (.ok (), { assembly := .new length, store := based }) := by
    have accepted : accept wire
        { pending := some (gathered first encoded last), walLength := length }
        (fragment first encoded last) offset
          = .ok (.new length, some { record := record, snapshot := some snapshot }) := by
      rw [accept_fragment stated inside (if_neg several).symm
        (fun start => absurd start several) rfl small covered, complete_gathered ends decoded]
      rfl
    simp only [acceptRecord, accepted, installed]
  rw [count, range_succ, map_append, installRecords_append, bind_ok
    (installRecords_fragments stated rfl (Nat.pos_of_ne_zero several) inside small covered)]
  exact (installRecords_singleton _ _ _).trans (taken _)

end Fragments

/-! ## Any checkpoint -/

theorem length_snapshot_le_encode (record : WalBatch) : record.snapshot.length ≤ record.encode.length := by
  by_cases empty : record.snapshot = []
  · simp [empty]
  simp only [WalBatch.encode, WalBatch.fields, writeFields_append, length_append]
  have written : record.snapshot.length ≤ (writeFields (bytesField 7 record.snapshot)).length := by
    simp only [bytesField, if_neg empty, writeFields, flatMap_cons, flatMap_nil, Field.write,
      Field.body, append_nil, length_append]
    omega
  omega

theorem length_take_le_framed (first : WalBatch) (encoded : Bytes) (count : Nat) :
    (encoded.take (count * snapshotFragmentBytes)).length
      ≤ (framed ((List.range count).map (fragment first encoded))).length := by
  induction count with
  | zero => simp
  | succ count ih =>
    have last : (fragment first encoded count).snapshot.length
        ≤ (framed [fragment first encoded count]).length := by
      have := length_snapshot_le_encode (fragment first encoded count)
      simp only [framed, flatMap_cons, flatMap_nil, append_nil, length_frame]
      omega
    have joined := congrArg List.length (gathered_succ first encoded count)
    simp only [gathered, length_append] at joined
    have split : framed ((List.range (count + 1)).map (fragment first encoded))
        = framed ((List.range count).map (fragment first encoded))
          ++ framed [fragment first encoded count] := by
      rw [range_succ, map_append, framed, flatMap_append]
      rfl
    rw [split, length_append]
    omega

def writtenCheckpoints (wire : Wire) (options : PeerOptions) (snapshot : Snapshot) (hs : HardState)
    (payload : Option Blob) (permitted : List Nat) : List WalBatch :=
  (checkpointRecords wire (checkpointRecord wire options snapshot hs) snapshot payload).map
    fun record => { record with permitted := permitted }

theorem length_data_lt {voters permitted : List Nat} (suits : Suits wire voters permitted snapshot hs)
    (present : snapshot.data ≠ []) : snapshot.data.length < (wire.encodeSnapshot snapshot).length := by
  obtain ⟨metadata, same⟩ := suits.metadata
  rw [same, encodeSnapshot_eq wire present]
  simp only [length_cons, length_append]
  omega

/-- **A checkpoint that is there can be restored**: with its payload file in the directory, or with
some data in the journal. -/
theorem restores_checkpoint (initial : Initial store)
    (suits : Suits wire options.voters store.permitted snapshot hs)
    (bare : payload.isSome → snapshot.data = []) (available : ∀ blob ∈ payload, Available wire files blob)
    (held : payload.isSome ∨ snapshot.data ≠ [])
    (covered : (framed (writtenCheckpoints wire options snapshot hs payload store.permitted)).length
      ≤ length) : Restores wire files length store snapshot payload hs
      (writtenCheckpoints wire options snapshot hs payload store.permitted) := by
  cases payload with
  | some blob => exact restores_file initial suits (bare rfl) (available blob rfl)
  | none =>
    have present : snapshot.data ≠ [] := held.resolve_left (by simp)
    unfold writtenCheckpoints checkpointRecords at covered ⊢
    by_cases inline : snapshot.data.length ≤ inlineCheckpointBytes
    · rw [if_pos inline]
      exact restores_inline initial suits present
    rw [if_neg inline, map_map] at covered ⊢
    have large : snapshotFragmentBytes < (wire.encodeSnapshot snapshot).length := by
      have longer := length_data_lt suits present
      have : snapshotFragmentBytes ≤ inlineCheckpointBytes := by decide
      omega
    refine restores_fragments initial suits present large (le_trans ?_ covered)
    obtain ⟨last, count, -, ends⟩ := fragmentCount_eq (encodeSnapshot_ne_nil suits)
    have whole := length_take_le_framed
      (writtenCheckpoint wire options snapshot hs store.permitted) (wire.encodeSnapshot snapshot)
      (last + 1)
    rw [take_of_length_le ends, ← count] at whole
    exact whole

/-! ## Records without a checkpoint -/

structure Plain (record : WalBatch) : Prop where
  version_eq : record.version = 1
  offset_eq : record.snapshotOffset = 0
  total_eq : record.snapshotTotal = 0
  digest_eq : record.snapshotDigest = 0

theorem acceptRecord_plain {offset : Nat} {record : WalBatch} {recovery : Recovery σ} (plain : Plain record)
    (whole : recovery.assembly.pending = none) : acceptRecord wire files offset record recovery
      = ((replay wire files record recovery.store).1,
          { recovery with store := (replay wire files record recovery.store).2 }) := by
  refine acceptRecord_of_recovered (by simp [plain.version_eq]) whole
    ⟨plain.offset_eq, plain.total_eq, plain.digest_eq⟩ ?_
  rw [recovered, if_neg (by simp [plain.version_eq])]

theorem installRecords_plain {records : List WalBatch} {offset : Nat} {recovery : Recovery σ}
    (plain : ∀ record ∈ records, Plain record) (whole : recovery.assembly.pending = none) :
    installRecords wire files offset records recovery
      = ((replayAll wire files records recovery.store).1,
          { recovery with store := (replayAll wire files records recovery.store).2 }) := by
  induction records generalizing offset recovery with
  | nil => rfl
  | cons record records ih =>
    have first := @acceptRecord_plain σ _ _ wire files offset record recovery (plain record (by simp)) whole
    rw [installRecords, Frames.forEachAt, replayAll, Attempt.forEach, bind_apply, bind_apply,
      first]
    rcases ran : replay wire files record recovery.store with ⟨error | ⟨⟨⟩⟩, reached⟩
    · rfl
    · exact @ih _ { recovery with store := reached }
        (fun other member => plain other (mem_cons_of_mem _ member)) whole

/-! ## A whole image -/

section Image
variable {entries : List Entry} {groups : List (List Entry)} {permitted : List Nat}

/-- The records after the checkpoint and what they carry. -/
def suffixSteps (wire : Wire) (options : PeerOptions) (snapshot : Snapshot) (hs : HardState)
    (permitted : List Nat) (groups : List (List Entry)) : List Step :=
  let suffix := { batch wire options none [] with permitted := permitted }
  ((groups.map fun group => (group, 0)).map fun span => ⟨suffix.withEntries span.1, span.1, none⟩) ++
    if hs ≠ floorOf hs snapshot then
      [⟨{ batch wire options (some hs) [] with permitted := permitted }, [], some hs⟩]
    else []

theorem suffixSteps_records : (suffixSteps wire options snapshot hs permitted groups).map Step.record
      = (groups.map (batch wire options none []).withEntries ++
          finalRecords wire options snapshot hs).map fun record => { record with permitted := permitted } := by
  unfold suffixSteps finalRecords
  by_cases moved : hs ≠ floorOf hs snapshot
  · simp only [if_pos moved, map_append, map_map]
    rfl
  · simp only [if_neg moved, map_append, map_map]
    rfl

theorem suffixSteps_entries :
    stepEntries (suffixSteps wire options snapshot hs permitted groups) = groups.flatten := by
  unfold suffixSteps stepEntries
  rw [flatMap_append, map_map, flatMap_map]
  split <;> simp [flatMap_id']

theorem suffixSteps_state :
    (stepState none (suffixSteps wire options snapshot hs permitted groups)).getD (floorOf hs snapshot)
      = hs := by
  have groupless : ∀ spans : List (List Entry × Nat), ∀ suffix : WalBatch, stepState none
      (spans.map fun span => (⟨suffix.withEntries span.1, span.1, none⟩ : Step)) = none := by
    intro spans suffix
    induction spans with
    | nil => rfl
    | cons span spans ih => exact ih
  unfold suffixSteps stepState
  rw [foldl_append]
  have before := groupless (groups.map fun group => (group, 0))
    { batch wire options none [] with permitted := permitted }
  rw [stepState] at before
  rw [before]
  by_cases moved : hs ≠ floorOf hs snapshot
  · rw [if_pos moved]
    rfl
  · rw [if_neg moved]
    exact (Decidable.not_not.mp moved).symm

theorem plain_suffix {record : WalBatch} (member : record ∈ groups.map (batch wire options none []).withEntries ++
    finalRecords wire options snapshot hs) : Plain { record with permitted := permitted } := by
  rcases mem_append.mp member with grouped | final
  · obtain ⟨group, -, rfl⟩ := mem_map.mp grouped
    exact ⟨rfl, rfl, rfl, rfl⟩
  unfold finalRecords at final
  split at final
  · obtain rfl := mem_singleton.mp final
    exact ⟨rfl, rfl, rfl, rfl⟩
  · exact absurd final (by simp)

theorem suffixSteps_readable (covered : wire.hardState.encode hs ≠ [])
    (changes : ∀ entry ∈ groups.flatten, checkChange wire permitted entry = .ok ()) :
    Readable wire permitted options.voters
      (suffixSteps wire options snapshot hs permitted groups) := by
  intro step member
  rcases mem_append.mp member with grouped | final
  · obtain ⟨span, inside, rfl⟩ := mem_map.mp grouped
    obtain ⟨group, listed, rfl⟩ := mem_map.mp inside
    exact ⟨⟨rfl, rfl, rfl⟩, rfl, fun entry held =>
      changes entry (mem_flatten.mpr ⟨group, listed, held⟩)⟩
  · split at final
    · obtain rfl := mem_singleton.mp final
      exact ⟨⟨rfl, rfl, decodeHardState_some rfl covered⟩, rfl, by simp⟩
    · exact absurd final (by simp)

theorem suffixSteps_accepts {electorate : List Nat} {floor : Nat}
    (position : snapshot.getMetadata.index = floor) (bounded : floor < u64Max)
    (whole : groups.flatten = entries) (present : ∀ group ∈ groups, group ≠ [])
    (follows : ∀ first ∈ entries.head?, first.index = floor + 1)
    (steps : stepsValid (entries.map Entry.header)) (commits : floor ≤ hs.commit)
    (reaches : hs.commit ≤ endsAt floor entries)
    (terms : ∀ entry ∈ entries, entry.term ≠ 0 ∧ entry.term ≤ hs.term)
    (elected : hs.vote ≠ 0 → hs.vote ∈ electorate) :
    Accepts (floor + 1) floor electorate [] (floorOf hs snapshot)
      (suffixSteps wire options snapshot hs permitted groups) := by
  have flat : (groups.map fun group => (group, 0)).flatMap Prod.fst = entries := by
    rw [flatMap_map, ← whole]
    exact flatMap_id'
  have next : satAdd floor 1 = floor + 1 := satAdd_of_lt bounded
  have positions : PositionsValid (floor + 1) floor (entries.map Entry.header) := by
    refine ⟨steps, ?_⟩
    cases entries with
    | nil => simp
    | cons first =>
      rintro header ⟨⟩
      have here : first.header.index = floor + 1 := follows first rfl
      omega
  have above : ∀ entry ∈ entries, floor < entry.index := by
    cases entries with
    | nil => simp
    | cons first =>
      intro entry member
      obtain ⟨place, inside, rfl⟩ := mem_iff_getElem.mp member
      have numbered := numbered_of_stepsValid steps place _ (getElem?_eq_getElem inside)
      have here := follows first rfl
      omega
  refine accepts_spans ?_ ?_ elected ?_ ?_ ?_
  · rwa [nil_append, flat]
  · rw [flat]
    intro entry member
    exact position.le.trans_lt (above entry member)
  · rw [flat]
    exact terms
  · intro span member
    obtain ⟨group, listed, rfl⟩ := mem_map.mp member
    exact present group listed
  · rw [nil_append, flat]
    split
    · refine ⟨⟨by simpa using positions, by simp, le_rfl, position.le.trans commits, ?_,
        fun changed => changed.2.2 rfl, elected, by simp⟩, trivial⟩
      simpa using reaches
    · trivial

/-- **A rewritten journal reads back as what was installed**: the same checkpoint, the same entries
after it and the same hard state. -/
theorem image_restores {fresh live : PeerStorage σ} {after : Journal} {records : List WalBatch}
    (initial : Initial fresh) (same : fresh.permitted = store.permitted)
    (published : Published wire options store live snapshot payload entries hs)
    (imaged : Imaged wire options snapshot hs entries payload store.permitted after groups records)
    (available : ∀ blob ∈ payload, Available wire files blob)
    (held : payload.isSome ∨ snapshot.data ≠ [])
    (covered : (framed (writtenCheckpoints wire options snapshot hs payload store.permitted)).length
      ≤ length) :
    ∃ restored, installRecords wire files 0 records { assembly := .new length, store := fresh }
        = (.ok (), { assembly := .new length, store := restored }) ∧
      Based fresh restored snapshot payload entries hs := by
  have suits := published.suits
  rw [← same] at suits covered
  obtain ⟨based, began, holds⟩ : Restores wire files length fresh snapshot payload hs _ :=
    restores_checkpoint initial suits published.bare available held covered
  have contiguous : Contiguous based.memory := by
    unfold Contiguous
    rw [holds.log_eq]
    exact Numbered.nil _ _
  have first : firstIndex based.memory = snapshot.getMetadata.index + 1 := by
    rw [contiguous.firstIndex, holds.floor_eq]
  have last : lastIndex based.memory = snapshot.getMetadata.index := by
    rw [contiguous.lastIndex, holds.floor_eq, holds.log_eq]
    rfl
  have elects : based.electorate (batch wire options none [])
      = if fresh.permitted = [] then options.voters else fresh.permitted := by
    rw [PeerStorage.electorate, holds.permitted_eq]
    rfl
  have here : Placed based based (hardState based.memory) (batch wire options none []) .journal [] none := by
    refine ⟨⟨trivial, by simp⟩, fun _ => by simp, ⟨le_rfl, le_rfl, ?_, fun changed => changed.2.2 rfl,
      ?_, by simp⟩, ⟨rfl, rfl, rfl, rfl, rfl, rfl, rfl, rfl⟩⟩
    · rw [holds.hardState_eq, last]
      exact le_rfl
    · rw [elects, holds.hardState_eq]
      exact suits.elected
  have encoded : wire.hardState.encode hs ≠ [] := by
    intro empty
    have early : hs.commit = 0 := congrArg HardState.commit (wire.hardState_empty hs empty)
    have := suits.covered
    exact suits.index_ne (by omega)
  set steps := suffixSteps wire options snapshot hs fresh.permitted groups with steps_eq
  have readable : Readable wire based.permitted (batch wire options none []).voters steps := by
    rw [holds.permitted_eq]
    refine suffixSteps_readable encoded ?_
    rw [imaged.groups_eq, same]
    exact published.changes
  have accepts : Accepts (firstIndex based.memory) (lastIndex based.memory)
      (based.electorate (batch wire options none [])) [] (hardState based.memory) steps := by
    rw [first, last, holds.hardState_eq, elects]
    exact suffixSteps_accepts rfl suits.index_lt imaged.groups_eq imaged.present published.follows
      published.steps suits.covered published.reaches published.terms suits.elected
  obtain ⟨restored, replayed, placed⟩ := replayAll_after files contiguous here readable accepts
  refine ⟨restored, ?_, ?_⟩
  · have plain : ∀ record ∈ steps.map Step.record, Plain record := by
      rw [steps_eq, suffixSteps_records]
      intro record member
      obtain ⟨bare, listed, rfl⟩ := mem_map.mp member
      exact plain_suffix listed
    have split : records = writtenCheckpoints wire options snapshot hs payload fresh.permitted ++
        steps.map Step.record := by
      rw [steps_eq, suffixSteps_records, imaged.records_eq, imageRecords, map_append, same]
      rfl
    rw [split, installRecords_append, bind_ok began, installRecords_plain plain rfl, replayed]
  · have stored := placed.stored
    rw [steps_eq, suffixSteps_entries, imaged.groups_eq, nil_append] at stored
    refine ⟨?_, stored.floor_eq.trans holds.floor_eq, ?_, stored.confState_eq.trans holds.confState_eq,
      stored.checkpoint_eq.trans holds.checkpoint_eq, stored.payload_eq.trans holds.payload_eq,
      stored.permitted_eq.trans holds.permitted_eq⟩
    · rw [stored.hardState_eq, holds.hardState_eq]
      exact suffixSteps_state
    rw [stored.log_eq]
    cases entries with
    | nil => exact holds.log_eq
    | cons => rw [overwritten, holds.log_eq, take_nil, nil_append]

end Image
end MatrixRaft.Peer
