/-
# Peer.Image — the image a checkpoint leaves in the journal

A checkpoint rewrites the journal.  This module says what the rewritten file holds, and
what the store holds once the checkpoint is installed in it.
-/
import MatrixRaft.Peer.Scan

namespace MatrixRaft.Peer
open Theory MemStorage LawfulMemStorage List Attempt

set_option linter.unusedSectionVars false

/-! ## The snapshot's encoding -/

theorem decodeVarint_varint {n : Nat} (fits : n ≤ u64Max) (rest : Bytes) :
    decodeVarint (varint n ++ rest) = some (n, rest) := by
  have small : n < 128 ^ 10 := lt_of_le_of_lt fits (by decide)
  have length := length_varint_le small (by decide)
  grind [decodeVarint, readVarint_varint]

theorem encodeSnapshot_eq (wire : Wire) {data : Bytes} (present : data ≠ [])
    (metadata : SnapshotMetadata) : wire.encodeSnapshot { data := data, metadata := some metadata }
      = 0x0a :: (varint data.length ++ (data ++ (0x12 ::
          (varint (wire.metadata.encode metadata).length ++ wire.metadata.encode metadata)))) := by
  have one : varint (1 * 8 + 2) = [0x0a] := by decide
  have two : varint (2 * 8 + 2) = [0x12] := by decide
  simp [Wire.encodeSnapshot, Snapshot.fields, bytesField, present, optionalField, writeFields,
    Field.write, Field.kind, Field.body, one, two]

theorem decodeOwnedSnapshot_encode (wire : Wire) {data : Bytes} (present : data ≠ [])
    (metadata : SnapshotMetadata)
    (fits : (wire.encodeSnapshot { data := data, metadata := some metadata }).length ≤ u64Max) :
    decodeOwnedSnapshot wire (wire.encodeSnapshot { data := data, metadata := some metadata })
      = .ok { data := data, metadata := some metadata } := by
  rw [encodeSnapshot_eq wire present] at fits ⊢
  simp only [length_cons, length_append] at fits
  set encoded := wire.metadata.encode metadata
  set tail : Bytes := 0x12 :: (varint encoded.length ++ encoded) with tail_eq
  have positive := length_pos_iff.mpr present
  have first : decodeVarint (varint data.length ++ (data ++ tail)) = some (data.length, data ++ tail) :=
    decodeVarint_varint (by omega) _
  have second : decodeVarint (varint encoded.length ++ encoded) = some (encoded.length, encoded) :=
    decodeVarint_varint (by omega) _
  have enough : ¬ (data ++ tail).length ≤ data.length := by simp [tail_eq]
  have start : (0x0a :: (varint data.length ++ (data ++ tail))).take
      ((0x0a :: (varint data.length ++ (data ++ tail))).length - (data ++ tail).length)
        = lengthDelimited 1 data.length := by
    have size : (0x0a :: (varint data.length ++ (data ++ tail))).length - (data ++ tail).length
        = (varint data.length).length + 1 := by grind
    have key : varint (1 * 8 + 2) = [0x0a] := by decide
    rw [size, take_succ_cons, take_left, lengthDelimited, key, singleton_append]
  have close : tail = lengthDelimited 2 encoded.length ++ encoded := by rfl
  unfold decodeOwnedSnapshot
  simp only [head?_cons, ne_eq, not_true_eq_false, if_false, tail_cons, first,
    if_neg positive.ne', if_neg enough, take_left, drop_left]
  have decoded : wire.metadata.decode encoded = some metadata := wire.metadata.decode_encode metadata
  grind

/-! ## The image's records -/

namespace Journal
variable {journal after : Journal}

theorem writePayload_ok {payload : Bytes}
    (ran : writePayload payload journal = (.ok (), after)) :
    payload.length ≤ limit ∧ journal.length + (frame payload).length ≤ walLimit := by
  unfold writePayload at ran
  split at ran
  · cases ran
  split at ran
  · cases ran
  rename_i small room
  rw [length_frame]
  exact ⟨not_lt.mp small, le_of_satAdd_le (not_lt.mp room) (by decide)⟩

structure Grew (before after : Journal) (records : List WalBatch) : Prop where
  small : ∀ record ∈ records, record.encode.length ≤ limit
  bytes_eq : after.bytes = before.bytes ++ framed records
  length_eq : after.length = before.length + (framed records).length
  permitted_eq : after.permitted = before.permitted
  bounded : before.length ≤ walLimit → after.length ≤ walLimit

theorem writeRecords_ok {records : List WalBatch}
    (ran : writeRecords records journal = (.ok (), after)) : Grew journal after records := by
  induction records generalizing journal with
  | nil =>
    cases ran
    exact ⟨by simp, by simp [framed], by simp [framed], rfl, id⟩
  | cons record records ih =>
    rcases first : writePayload record.encode journal with ⟨error | ⟨⟨⟩⟩, middle⟩
    · have failed : writeRecords (record :: records) journal = (.error error, middle) :=
        bind_error first
      grind
    · have rest : writeRecords (record :: records) journal = writeRecords records middle :=
        bind_ok first
      rw [rest] at ran
      obtain ⟨small, room⟩ := writePayload_ok first
      obtain ⟨reached, ⟨failed, -⟩ | ⟨done, bytes, length⟩, permitted⟩ :=
        writePayload_cases small room
      · grind
      rw [first] at done
      cases done
      have later := ih ran
      have shape : framed (record :: records) = frame record.encode ++ framed records := rfl
      refine ⟨?_, ?_, ?_, later.permitted_eq.trans permitted, fun _ => later.bounded (by omega)⟩
      · rintro other (- | ⟨-, member⟩)
        · exact small
        · exact later.small other member
      · rw [later.bytes_eq, bytes, shape, append_assoc]
      · rw [later.length_eq, length, shape, length_append, add_assoc]

theorem writeRecords_append {left right : List WalBatch} {journal middle after : Journal}
    (one : writeRecords left journal = (.ok (), middle))
    (two : writeRecords right middle = (.ok (), after)) :
    writeRecords (left ++ right) journal = (.ok (), after) := by
  have parts : writeRecords (left ++ right) = (writeRecords left >>= fun _ => writeRecords right) :=
    forEach_append left right
  rw [parts, bind_ok one, two]

def normalizedAll (journal : Journal) (records : List WalBatch) : List WalBatch :=
  records.map journal.normalized

theorem normalizedAll_cons (journal : Journal) (record : WalBatch) (records : List WalBatch) :
    journal.normalizedAll (record :: records)
      = journal.normalizedAll [record] ++ journal.normalizedAll records := rfl

theorem normalizedAll_append (journal : Journal) (left right : List WalBatch) :
    journal.normalizedAll (left ++ right)
      = journal.normalizedAll left ++ journal.normalizedAll right := map_append

theorem normalizedAll_of_permitted {journal other : Journal} (same : other.permitted = journal.permitted)
    (records : List WalBatch) : other.normalizedAll records = journal.normalizedAll records := by
  unfold normalizedAll normalized
  rw [same]

def WritesOne (run : JournalM Unit) (record : WalBatch) : Prop :=
  ∀ journal after, run journal = (.ok (), after) →
    writeRecords (journal.normalizedAll [record]) journal = (.ok (), after)

theorem writeSnapshotRecordInto_writes (record : WalBatch) :
    WritesOne (writeSnapshotRecordInto record) record := by
  intro journal after ran
  unfold writeSnapshotRecordInto at ran
  split at ran
  · cases ran
  · exact (writeRecords_singleton (journal.normalized record) journal).trans ran

theorem writeRecordInto_writes (record : WalBatch) : WritesOne (writeRecordInto record) record := by
  intro journal after ran
  refine (writeRecords_singleton (journal.normalized record) journal).trans ?_
  unfold writeRecordInto at ran
  split at ran
  · unfold writeEntryRecordInto at ran
    grind
  · exact ran

theorem forEach_writes {α : Type} {run : α → JournalM Unit} {record : α → WalBatch}
    (each : ∀ x, WritesOne (run x) (record x)) {xs : List α}
    (ran : Attempt.forEach run xs journal = (.ok (), after)) :
    writeRecords (journal.normalizedAll (xs.map record)) journal = (.ok (), after) := by
  induction xs generalizing journal with
  | nil =>
    cases ran
    rfl
  | cons x xs ih =>
    rcases first : run x journal with ⟨error | ⟨⟨⟩⟩, middle⟩
    · rw [forEach, bind_error first] at ran
      cases ran
    rw [forEach, bind_ok first] at ran
    have one := each x journal middle first
    grind [normalizedAll_of_permitted (writeRecords_ok one).permitted_eq, normalizedAll_cons,
      writeRecords_append]

def checkpointRecords (wire : Wire) (first : WalBatch) (snapshot : Snapshot) (payload : Option Blob) :
    List WalBatch :=
  match payload with
  | some payload =>
    [{ first with version := 4, payloadManifest := wire.manifest.encode payload.manifest }]
  | none =>
    if snapshot.data.length ≤ inlineCheckpointBytes then [first]
    else (List.range (fragmentCount first.snapshot)).map (fragment first first.snapshot)

theorem writeCheckpoint_writes {wire : Wire} {first : WalBatch} {snapshot : Snapshot}
    {payload : Option Blob}
    (ran : writeCheckpoint wire first snapshot payload journal = (.ok (), after)) :
    writeRecords (journal.normalizedAll (checkpointRecords wire first snapshot payload)) journal
      = (.ok (), after) := by
  unfold writeCheckpoint at ran
  unfold checkpointRecords
  cases payload with
  | some =>
    simp only at ran ⊢
    split at ran
    · cases ran
    · exact writeSnapshotRecordInto_writes _ journal after ran
  | none =>
    simp only at ran ⊢
    split at ran
    · rename_i small
      rw [if_pos small]
      exact writeSnapshotRecordInto_writes _ journal after ran
    · grind [forEach_writes, writeSnapshotRecordInto_writes]

theorem writeSuffix_writes {suffix : WalBatch} {overhead : Nat} {entries current : List Entry}
    {size : Nat}
    (ran : writeSuffix suffix overhead entries current size journal = (.ok (), after)) :
    ∃ groups : List (List Entry), groups.flatten = current ++ entries ∧ (∀ group ∈ groups, group ≠ []) ∧
      writeRecords (journal.normalizedAll (groups.map suffix.withEntries)) journal = (.ok (), after) := by
  induction entries generalizing current size journal with
  | nil =>
    rw [writeSuffix] at ran
    split at ran
    · rename_i none
      cases ran
      refine ⟨[], by simp [none], by simp, ?_⟩
      rfl
    · rename_i present
      exact ⟨[current], by simp, by simpa using present, writeRecordInto_writes _ journal after ran⟩
  | cons entry rest ih =>
    rw [writeSuffix] at ran
    split at ran
    · cases ran
    split at ran
    · -- the open group is full: it is written, and `entry` starts the next one
      rename_i full
      rcases first : writeRecordInto (suffix.withEntries current) journal with
        ⟨error | ⟨⟨⟩⟩, middle⟩
      · grind [bind_error]
      rw [bind_ok first] at ran
      have one := writeRecordInto_writes _ journal middle first
      obtain ⟨groups, whole, some, later⟩ := ih ran
      rw [normalizedAll_of_permitted (writeRecords_ok one).permitted_eq] at later
      refine ⟨current :: groups, by simp [whole], ?_, ?_⟩
      · grind
      · grind [normalizedAll_cons, writeRecords_append]
    · grind

def checkpointRecord (wire : Wire) (options : PeerOptions) (snapshot : Snapshot) (hs : HardState) :
    WalBatch :=
  { batch wire options (some (floorOf hs snapshot)) [] with
    version := 2, snapshot := wire.encodeSnapshot snapshot }

def finalRecords (wire : Wire) (options : PeerOptions) (snapshot : Snapshot) (hs : HardState) :
    List WalBatch :=
  if hs ≠ floorOf hs snapshot then [batch wire options (some hs) []] else []

def imageRecords (wire : Wire) (options : PeerOptions) (snapshot : Snapshot) (hs : HardState)
    (payload : Option Blob) (groups : List (List Entry)) : List WalBatch :=
  checkpointRecords wire (checkpointRecord wire options snapshot hs) snapshot payload ++
    (groups.map (batch wire options none []).withEntries ++ finalRecords wire options snapshot hs)

structure Imaged (wire : Wire) (options : PeerOptions) (snapshot : Snapshot) (hs : HardState)
    (entries : List Entry) (payload : Option Blob) (permitted : List Nat) (after : Journal)
    (groups : List (List Entry)) (records : List WalBatch) : Prop where
  groups_eq : groups.flatten = entries
  present : ∀ group ∈ groups, group ≠ []
  records_eq : records = (imageRecords wire options snapshot hs payload groups).map fun record =>
    { record with permitted := permitted }
  small : ∀ record ∈ records, record.encode.length ≤ limit
  bytes_eq : after.bytes = framed records
  length_eq : after.length = (framed records).length
  permitted_eq : after.permitted = permitted
  bounded : after.length ≤ walLimit

theorem syncAll_ok (ran : syncAll journal = (.ok (), after)) :
    after.bytes = journal.bytes ∧ after.length = journal.length ∧ after.permitted = journal.permitted := by
  unfold syncAll at ran
  split at ran <;> cases ran <;> exact ⟨rfl, rfl, rfl⟩

theorem call_ok (ran : call journal = (.ok (), after)) :
    after.bytes = journal.bytes ∧ after.length = journal.length ∧ after.permitted = journal.permitted := by
  unfold call at ran
  split at ran <;> cases ran <;> exact ⟨rfl, rfl, rfl⟩

theorem bind_ok_inv {run : JournalM Unit} {rest : Unit → JournalM Unit}
    (ran : (run >>= rest) journal = (.ok (), after)) :
    ∃ middle, run journal = (.ok (), middle) ∧ rest () middle = (.ok (), after) := by
  rcases first : run journal with ⟨error | ⟨⟨⟩⟩, middle⟩
  · grind [bind_error]
  · grind [bind_ok]

section Images
variable {wire : Wire} {options : PeerOptions} {snapshot : Snapshot} {hs : HardState}
  {entries : List Entry} {payload : Option Blob} {journal after : Journal}

theorem writeImage_ok (empty : journal.bytes = []) (start : journal.length = 0)
    (ran : writeImage wire options snapshot (wire.encodeSnapshot snapshot) hs entries payload journal
      = (.ok (), after)) : ∃ groups records,
      Imaged wire options snapshot hs entries payload journal.permitted after groups records := by
  obtain ⟨first, checkpointed, ran⟩ := bind_ok_inv ran
  obtain ⟨second, suffixed, ran⟩ := bind_ok_inv ran
  obtain ⟨third, finished, synced⟩ := bind_ok_inv ran
  have one := writeCheckpoint_writes checkpointed
  obtain ⟨groups, whole, present, two⟩ := writeSuffix_writes suffixed
  have grew := writeRecords_ok one
  rw [normalizedAll_of_permitted grew.permitted_eq] at two
  have kept := (writeRecords_ok two).permitted_eq.trans grew.permitted_eq
  have three : writeRecords (journal.normalizedAll (finalRecords wire options snapshot hs)) second
      = (.ok (), third) := by
    unfold finalRecords
    unfold writeFinal at finished
    split at finished
    · rename_i moved
      rw [if_pos moved, ← normalizedAll_of_permitted kept]
      exact writeRecordInto_writes _ second third finished
    · rename_i same
      cases finished
      rw [if_neg same]
      rfl
  obtain ⟨bytes, length, permitted⟩ := syncAll_ok synced
  have shape : journal.normalizedAll (checkpointRecords wire
        (checkpointRecord wire options snapshot hs) snapshot payload) ++
      (journal.normalizedAll (groups.map
          ({ batch wire options none [] with permitted := journal.permitted } : WalBatch).withEntries) ++
        journal.normalizedAll (finalRecords wire options snapshot hs))
      = journal.normalizedAll (imageRecords wire options snapshot hs payload groups) := by
    rw [imageRecords, normalizedAll_append, normalizedAll_append]
    simp only [normalizedAll, map_map]
    rfl
  have image : writeRecords (journal.normalizedAll
      (imageRecords wire options snapshot hs payload groups)) journal = (.ok (), third) := by
    rw [← shape]
    exact writeRecords_append one (writeRecords_append two three)
  have final := writeRecords_ok image
  refine ⟨groups, journal.normalizedAll (imageRecords wire options snapshot hs payload groups),
    by simpa using whole, present, rfl, final.small, ?_, ?_, ?_, ?_⟩
  · rw [bytes, final.bytes_eq, empty, nil_append]
  · rw [length, final.length_eq, start, zero_add]
  · rw [permitted, final.permitted_eq]
  · rw [length]
    exact final.bounded (by omega)

theorem rewrite_ok
    (ran : rewrite wire options snapshot (wire.encodeSnapshot snapshot) hs entries payload journal
      = (.ok (), after)) : ∃ groups records,
      Imaged wire options snapshot hs entries payload journal.permitted after groups records := by
  unfold rewrite at ran
  rcases wrote : (do
      call
      writeImage wire options snapshot (wire.encodeSnapshot snapshot) hs entries payload
      call : JournalM Unit) journal.replacement with ⟨error | ⟨⟨⟩⟩, image⟩
  · grind
  simp only [wrote] at ran
  obtain ⟨opened, began, rest⟩ := bind_ok_inv wrote
  obtain ⟨written, imaged, renamed⟩ := bind_ok_inv rest
  obtain ⟨empty, start, permitted⟩ := call_ok began
  obtain ⟨bytes, length, same⟩ := call_ok renamed
  obtain ⟨bytes', length', same'⟩ := call_ok ran
  obtain ⟨groups, records, held⟩ := writeImage_ok empty start imaged
  rw [permitted] at held
  exact ⟨groups, records, held.groups_eq, held.present, held.records_eq, held.small,
    by rw [bytes', bytes, held.bytes_eq], by rw [length', length, held.length_eq],
    by rw [same', same, held.permitted_eq]; rfl, by rw [length', length]; exact held.bounded⟩

end Images
end Journal

/-! ## Installing a checkpoint -/

section Publishing
variable {σ : Type} [MemStorage σ] [LawfulMemStorage σ]

structure Initial (store : PeerStorage σ) : Prop where
  hardState_eq : hardState store.memory = default
  log_eq : log store.memory = []
  floor_eq : (floor store.memory).index = 0

theorem Initial.contiguous {store : PeerStorage σ} (initial : Initial store) :
    Contiguous store.memory := by
  unfold Contiguous
  rw [initial.log_eq]
  exact Numbered.nil _ _

structure Based (store based : PeerStorage σ) (snapshot : Snapshot) (payload : Option Blob)
    (entries : List Entry) (hs : HardState) : Prop where
  hardState_eq : hardState based.memory = hs
  floor_eq : floor based.memory = snapshot.getMetadata
  log_eq : log based.memory = entries
  confState_eq : confState based.memory = snapshot.getMetadata.getConfState
  checkpoint_eq : based.checkpoint = some snapshot
  payload_eq : based.payload = payload
  permitted_eq : based.permitted = store.permitted

/-- What it takes for a checkpoint to be installed with `hs`. -/
structure Suits (wire : Wire) (voters permitted : List Nat) (snapshot : Snapshot) (hs : HardState) :
    Prop where
  valid : validateSnapshotFor wire snapshot voters permitted = .ok ()
  covered : snapshot.getMetadata.index ≤ hs.commit
  term : snapshot.getMetadata.term ≤ hs.term
  elected : hs.vote ≠ 0 → hs.vote ∈ if permitted = [] then voters else permitted

variable {wire : Wire} {files : Payloads} {store : PeerStorage σ} {record : WalBatch}
  {snapshot : Snapshot} {payload : Option Blob} {hs : HardState}

theorem adoptSnapshot_based {replaced : PeerStorage σ}
    (ran : adoptSnapshot store snapshot payload = .ok replaced) :
    ∃ hs, Based store replaced snapshot payload [] hs := by
  unfold adoptSnapshot at ran
  rcases lt_or_ge snapshot.getMetadata.index (firstIndex store.memory) with old | new
  · rw [applySnapshot_old store.memory { snapshot with data := [] } old] at ran
    cases ran
  obtain ⟨memory, applied, floor, log, state, conf⟩ :=
    applySnapshot_ok store.memory { snapshot with data := [] } new
  rw [applied, Except.ok.injEq] at ran
  subst ran
  exact ⟨_, state, floor, log, conf, rfl, rfl, rfl⟩

def publishedRecord (wire : Wire) (options : PeerOptions) (snapshot : Snapshot) (hs : HardState)
    (entries : List Entry) (payload : Option Blob) : WalBatch :=
  { batch wire options (some hs) entries with
    version := if payload.isSome then 4 else 2
    snapshot := wire.encodeSnapshot snapshot
    payloadManifest := payload.elim [] fun blob => wire.manifest.encode blob.manifest }

/-- What it takes for a checkpoint to be installed with its suffix, and what is stored then. -/
structure Published (wire : Wire) (options : PeerOptions) (store live : PeerStorage σ)
    (snapshot : Snapshot) (payload : Option Blob) (entries : List Entry) (hs : HardState) : Prop where
  suits : Suits wire options.voters store.permitted snapshot hs
  bare : payload.isSome → snapshot.data = []
  changes : ∀ entry ∈ entries, checkChange wire store.permitted entry = .ok ()
  follows : ∀ first ∈ entries.head?, first.index = snapshot.getMetadata.index + 1
  steps : stepsValid (entries.map Entry.header)
  reaches : hs.commit ≤ endsAt snapshot.getMetadata.index entries
  terms : ∀ entry ∈ entries, entry.term ≠ 0 ∧ entry.term ≤ hs.term
  based : Based store live snapshot payload entries hs

theorem admitSnapshot_inv {source : SnapshotSource} {given : Option Snapshot} {wireValidated : Bool}
    {state : Option HardState}
    (admitted : admitSnapshot wire files store record source given wireValidated state
      = .ok (snapshot, payload)) : heldSnapshot wire record given = .ok snapshot ∧
      heldPayload wire files record source.captured snapshot = .ok payload ∧
      validateSnapshotFor wire snapshot record.voters store.permitted = .ok () ∧
      ∃ next, state = some next ∧
        ¬ SnapshotConflicts wire (hardState store.memory) next record source wireValidated snapshot := by
  simp only [admitSnapshot, Checks.bind_eq_ok] at admitted
  grind

theorem heldPayload_published {options : PeerOptions} {entries : List Entry} {held : Option Blob}
    (ran : heldPayload wire files (publishedRecord wire options snapshot hs entries payload) payload
      snapshot = .ok held) : held = payload ∧ (payload.isSome → snapshot.data = []) := by
  unfold heldPayload at ran
  cases payload with
  | none =>
    rw [if_pos (by simp [publishedRecord]), Except.ok.injEq] at ran
    exact ⟨ran.symm, by simp⟩
  | some blob =>
    have version : ¬ (publishedRecord wire options snapshot hs entries (some blob)).version ≠ 4 := by
      simp [publishedRecord]
    grind

theorem installFrom_published {options : PeerOptions} {entries : List Entry} {source : SnapshotSource}
    {live : PeerStorage σ} (captured : source.captured = payload)
    (ran : installFrom wire files (publishedRecord wire options snapshot hs entries payload) source
      (some snapshot) false store = (.ok (), live)) :
    Published wire options store live snapshot payload entries hs := by
  set record := publishedRecord wire options snapshot hs entries payload with record_eq
  obtain ⟨state, contents⟩ : ∃ state, decodeContents wire record = .ok (entries, state) ∧
      (state = none ∨ state = some hs) := by
    by_cases empty : wire.hardState.encode hs = []
    · exact ⟨none, decodeContents_eq rfl (if_pos empty), .inl rfl⟩
    · exact ⟨some hs, decodeContents_eq rfl (decodeHardState_some rfl empty), .inr rfl⟩
  obtain ⟨contents, choice⟩ := contents
  simp only [installFrom, contents] at ran
  obtain ⟨arrived, replaced, swapped, stored⟩ := installDecodedWithScratch_inv ran
  rcases replaceSnapshot_cases swapped with ⟨⟨⟩, -, -⟩ | ⟨held, blob, -, admitted, adopted⟩
  have accepted := admitSnapshot_admitted admitted
  obtain ⟨same, backed, valid, next, rfl, agrees⟩ := admitSnapshot_inv admitted
  obtain rfl : next = hs := by simpa using choice
  obtain rfl : snapshot = held := Except.ok.inj same
  rw [captured] at backed
  obtain ⟨rfl, bare⟩ := heldPayload_published backed
  obtain ⟨_, based⟩ := adoptSnapshot_based adopted
  have fits := (placeEntries_iff_fits accepted (adoptSnapshot_adopted adopted)).mp ⟨live, stored⟩
  have placed := (placeEntries_placed stored).stored
  obtain ⟨covered, term⟩ : snapshot.getMetadata.index ≤ next.commit ∧
      snapshot.getMetadata.term ≤ next.term := by omega
  have checked := fits.hardState
  refine ⟨⟨valid, covered, term, checked.2.2.2.2.1⟩, bare, ?_, fits.follows, fits.steps,
    checked.2.2.1, fun entry member => checked.2.2.2.2.2 entry.header (mem_map_of_mem member), ?_⟩
  · rw [checkArriving, Checks.bind_unit, Checks.forM_eq_ok] at arrived
    exact arrived.1
  refine ⟨placed.hardState_eq, placed.floor_eq.trans based.floor_eq, ?_,
    placed.confState_eq.trans based.confState_eq, placed.checkpoint_eq.trans based.checkpoint_eq,
    placed.payload_eq.trans based.payload_eq, placed.permitted_eq.trans based.permitted_eq⟩
  rw [placed.log_eq]
  cases entries with
  | nil => exact based.log_eq
  | cons => rw [overwritten, based.log_eq, take_nil, nil_append]

end Publishing
end MatrixRaft.Peer
