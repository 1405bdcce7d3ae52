/-
# Peer.Split — a `Ready` written as several records

A `Ready` that does not fit one journal record is written as several: the new term and
vote over the old commit position, the entries in groups, and the commit position last.
-/
import MatrixRaft.Peer.Journal
import MatrixRaft.Peer.Replay

namespace MatrixRaft.Peer
open Theory List Attempt Entry

/-! ## Sizes -/

def framed (records : List WalBatch) : Bytes := records.flatMap fun record => frame record.encode

theorem length_frame (payload : Bytes) : (frame payload).length = 24 + payload.length := by
  simp [frame, frameMark, magic]
  omega

theorem length_encode_entries (batch : WalBatch) (bare : batch.entries = []) (entries : List Entry) :
    (batch.withEntries entries).encode.length =
      batch.encode.length + (entries.map Journal.entryField).sum := by
  have fields : (writeFields ((entries.map encode).map fun entry =>
      (6, Field.bytes entry))).length = (entries.map Journal.entryField).sum := by
    induction entries with
    | nil => rfl
    | cons entry rest ih =>
      have key : (varint (6 * 8 + 2)).length = 1 := by decide
      simp only [map_cons, writeFields, flatMap_cons, length_append, Field.write,
        Field.kind, Field.body, key, sum_cons, Journal.entryField] at ih ⊢
      omega
  simp only [WalBatch.encode, WalBatch.fields, WalBatch.withEntries, writeFields_append,
    length_append, fields, bare, map_nil, writeFields_nil, length_nil]
  omega

theorem le_of_satAdd_le {a b bound : Nat} (sum : satAdd a b ≤ bound) (small : bound < u64Max) :
    a + b ≤ bound := by
  unfold satAdd at sum
  omega

structure Spans (overhead : Nat) (entries : List Entry) (spans : List (List Entry × Nat)) : Prop where
  whole : spans.flatMap Prod.fst = entries
  each : ∀ span ∈ spans, span.1 ≠ [] ∧ span.2 = overhead + (span.1.map Journal.entryField).sum ∧
    span.2 ≤ limit

variable {spans : List (List Entry × Nat)} {entries current : List Entry} {overhead : Nat}

theorem overhead_le_of_packSpans {size : Nat} (nonempty : entries ≠ [])
    (packed : Journal.packSpans overhead entries current size = .ok spans) : overhead ≤ limit := by
  cases entries with
  | nil => exact absurd rfl nonempty
  | cons =>
    simp only [Journal.packSpans, Checks.ite_eq_ok, not_lt] at packed
    have := le_of_satAdd_le packed.1 (by decide)
    omega

theorem packSpans_spans {size : Nat}
    (open_size : size = overhead + (current.map Journal.entryField).sum) (fits : size ≤ limit)
    (nonempty : current = [] → entries ≠ [])
    (packed : Journal.packSpans overhead entries current size = .ok spans) :
    Spans overhead (current ++ entries) spans := by
  induction entries generalizing current size spans with
  | nil =>
    simp only [Journal.packSpans, Except.ok.injEq] at packed
    subst packed
    refine ⟨by simp, ?_⟩
    grind
  | cons entry rest ih =>
    simp only [Journal.packSpans, Checks.ite_eq_ok, not_lt] at packed
    obtain ⟨alone, packed⟩ := packed
    have single : overhead + Journal.entryField entry ≤ limit := le_of_satAdd_le alone (by decide)
    split at packed
    · -- the open group is full: `entry` starts the next one
      rename_i full
      obtain ⟨later, ran, rfl⟩ := Checks.map_eq_ok packed
      have closed : current ≠ [] := by grind
      obtain ⟨whole, each⟩ := ih (by simp) single (by simp) ran
      refine ⟨by simp [whole], ?_⟩
      intro span member
      rcases mem_cons.mp member with rfl | inside
      · exact ⟨closed, open_size, fits⟩
      · exact each span inside
    · rename_i room
      have grouped := ih (by simp [open_size, add_assoc]) (not_lt.mp room) (by simp) packed
      rwa [append_assoc, singleton_append] at grouped

/-! ## Writing -/

namespace Journal

def SplitReady.records (split : SplitReady) : List WalBatch :=
  (if split.floor.hardState = [] then [] else [split.floor]) ++
    (split.spans.map fun span => split.envelope.withEntries span.1) ++
    (if split.final.hardState = [] then [] else [split.final])

def readyRecords (wire : Wire) (permitted : List Nat) (record : WalBatch) (entries : List Entry)
    (previous : HardState) : Except PeerError (List WalBatch) :=
  let record := { record with permitted := permitted }
  let completeSize := record.encode.length + (entries.map entryField).sum
  if entries = [] then .ok [record]
  else if record.entries ≠ [] ∨ record.version ≠ 1 ∨ record.snapshot ≠ [] ∨
      record.payloadManifest ≠ [] then .error (.storage .decodedShape)
  else if completeSize > u64Max then .error (.storage .recordBound)
  else if completeSize ≤ limit then .ok [record.withEntries entries]
  else (splitReady wire record entries previous).map SplitReady.records

def writeRecords : List WalBatch → JournalM Unit :=
  Attempt.forEach fun record => writePayload record.encode

variable {journal : Journal}

theorem writePayload_cases {payload : Bytes} (small : payload.length ≤ limit)
    (room : journal.length + (frame payload).length ≤ walLimit) : ∃ after,
      ((writePayload payload journal = (.error (.storage .io), after) ∧
          ∃ kept, after.bytes = journal.bytes ++ (frame payload).take kept) ∨
        (writePayload payload journal = (.ok (), after) ∧
          after.bytes = journal.bytes ++ frame payload ∧
          after.length = journal.length + (frame payload).length)) ∧
      after.permitted = journal.permitted := by
  rw [length_frame] at room ⊢
  have capacity : ¬ satAdd journal.length (24 + payload.length) > walLimit :=
    not_lt.mpr ((satAdd_le _ _).trans room)
  rw [writePayload, if_neg (not_lt.mpr small), if_neg capacity]
  rcases pending : journal.faults with _ | ⟨_ | kept, faults⟩
  · have ran : writeAll (frame payload) journal
        = (.ok (), { journal with bytes := journal.bytes ++ frame payload }) := by
      rw [writeAll, pending]
    exact ⟨_, .inr ⟨bind_ok ran, rfl, rfl⟩, rfl⟩
  · have ran : writeAll (frame payload) journal
        = (.ok (), { journal with bytes := journal.bytes ++ frame payload, faults }) := by
      rw [writeAll, pending]
    exact ⟨_, .inr ⟨bind_ok ran, rfl, rfl⟩, rfl⟩
  · have ran : writeAll (frame payload) journal = (.error (.storage .io),
        { journal with bytes := journal.bytes ++ (frame payload).take kept, faults }) := by
      rw [writeAll, pending]
    exact ⟨_, .inl ⟨bind_error ran, kept, rfl⟩, rfl⟩

structure Splits (wire : Wire) (record : WalBatch) (entries : List Entry) (previous : HardState)
    (split : SplitReady) (floor final : Bytes) : Prop where
  envelope_eq : split.envelope = envelopeOf record
  floor_eq : split.floor = (envelopeOf record).withHardState floor
  final_eq : split.final = (envelopeOf record).withHardState final
  floorState : floorState wire record.hardState previous = .ok floor
  finalState : final = if record.hardState ≠ floor then record.hardState else []
  spans : Spans (envelopeOf record).encode.length entries split.spans
  small : ∀ state ∈ [split.floor, split.final], state.hardState ≠ [] → state.encode.length ≤ limit

variable {record : WalBatch} {entries : List Entry} {previous : HardState} {split : SplitReady} {wire : Wire}

theorem splitReady_splits (nonempty : entries ≠ [])
    (ran : splitReady wire record entries previous = .ok split) : ∃ floor final,
    Splits wire record entries previous split floor final := by
  simp only [splitReady, Checks.bind_eq_ok, Checks.ite_eq_ok, pure, Except.pure,
    Except.ok.injEq] at ran
  obtain ⟨spans, packed, floor, floored, small, rfl⟩ := ran
  refine ⟨floor, _, rfl, rfl, rfl, floored, rfl, ?_, ?_⟩
  · simpa using packSpans_spans (by simp) (overhead_le_of_packSpans nonempty packed)
      (fun _ => nonempty) packed
  · grind

/-! ## The calls that write -/

theorem writePayload_permitted (payload : Bytes) (journal : Journal) :
    (writePayload payload journal).2.permitted = journal.permitted := by
  unfold writePayload
  split
  · rfl
  split
  · rfl
  · rw [bind_apply, writeAll]
    split <;> rename_i ran <;> split at ran <;> cases ran <;> rfl

theorem normalized_eq {batch : WalBatch} (same : journal.permitted = batch.permitted) :
    journal.normalized batch = batch := by
  rw [normalized, same]

theorem writeState_eq {state : WalBatch} (bare : state.entries = [])
    (same : journal.permitted = state.permitted) : writeState state journal =
    writeRecords (if state.hardState = [] then [] else [state]) journal := by
  unfold writeState
  split
  · rfl
  · rw [writeRecords, forEach_singleton, writeRecordInto, if_neg (by simp [bare]),
      normalized_eq same]

structure Bare (record : WalBatch) : Prop where
  entries : record.entries = []
  snapshot : record.snapshot = []
  offset : record.snapshotOffset = 0
  total : record.snapshotTotal = 0
  digest : record.snapshotDigest = 0
  manifest : record.payloadManifest = []

theorem envelopeOf_bare (record : WalBatch) : Bare (envelopeOf record) :=
  ⟨rfl, rfl, rfl, rfl, rfl, rfl⟩

theorem writeDecodedEntryRecordInto_eq (bare : Bare record) (nonempty : entries ≠ [])
    (same : journal.permitted = record.permitted) :
    writeDecodedEntryRecordInto record entries journal =
    writePayload (record.withEntries entries).encode journal := by
  have held : journal.normalized (record.withEntries entries) = record.withEntries entries :=
    normalized_eq same
  obtain ⟨none, plain, offset, total, sum, manifest⟩ := bare
  rw [writeDecodedEntryRecordInto,
    if_neg (by simp [nonempty, none, plain, offset, total, sum, manifest]), held]

variable {floor final : Bytes}

section
variable (splits : Splits wire record entries previous split floor final)
include splits

theorem writeSplit_eq (same : journal.permitted = record.permitted) : writeSplit split journal =
    (writeRecords split.records >>= fun _ => barrier) journal := by
  -- each part leaves a journal with the same inventory to the next
  have keeps : ∀ records (reached after : Journal) result, reached.permitted = record.permitted →
      writeRecords records reached = (result, after) → after.permitted = record.permitted := by
    intro records reached after result held ran
    have kept : Attempt.Keeps (fun journal : Journal => journal.permitted = record.permitted)
        (writeRecords records) :=
      .forEach _ fun other _ journal held => (writePayload_permitted other.encode journal).trans held
    simpa [ran] using kept reached held
  have state : ∀ hardState (reached : Journal), reached.permitted = record.permitted →
      writeState ((envelopeOf record).withHardState hardState) reached
        = writeRecords (if hardState = [] then [] else [(envelopeOf record).withHardState hardState])
          reached :=
    fun hardState reached held => writeState_eq rfl held
  have spans : ∀ reached : Journal, reached.permitted = record.permitted →
      forEach (fun span => writeDecodedEntryRecordInto split.envelope span.1) split.spans reached
        = writeRecords (split.spans.map fun span => split.envelope.withEntries span.1) reached := by
    intro reached held
    rw [writeRecords, forEach_map]
    refine (forEach_congr (I := fun journal : Journal => journal.permitted = record.permitted)
      ?_ ?_ held).symm
    · intro span member journal held
      rw [splits.envelope_eq]
      exact (writeDecodedEntryRecordInto_eq (envelopeOf_bare record) (splits.spans.each span member).1
        held).symm
    · grind [writePayload_permitted]
  unfold writeSplit SplitReady.records
  rw [writeRecords, forEach_append, forEach_append, bind_assoc, bind_assoc,
    splits.floor_eq, splits.final_eq]
  refine bind_congr_at (state floor journal same) fun _ first ran => ?_
  rw [state floor journal same] at ran
  have held := keeps _ _ _ _ same ran
  refine bind_congr_at (spans first held) fun _ second ran => ?_
  rw [spans first held] at ran
  exact bind_congr_at (state final second (keeps _ _ _ _ held ran)) fun _ _ _ => rfl

theorem length_framed_records : (framed split.records).length = split.size := by
  have sum : ∀ records : List WalBatch,
      (framed records).length = (records.map fun record => 24 + record.encode.length).sum := by
    intro records
    induction records with
    | nil => rfl
    | cons => simp [framed, length_frame]
  have spans : ((split.spans.map fun span => split.envelope.withEntries span.1).map
      fun record => 24 + record.encode.length).sum = (split.spans.map fun span => 24 + span.2).sum := by
    rw [map_map]
    refine congrArg List.sum (map_congr_left fun span member => ?_)
    rw [Function.comp_apply, splits.envelope_eq, length_encode_entries _ rfl,
      (splits.spans.each span member).2.1]
  rw [sum, SplitReady.records, map_append, map_append, sum_append, sum_append,
    spans, SplitReady.size, SplitReady.states]
  grind

theorem records_small : ∀ written ∈ split.records, written.encode.length ≤ limit := by
  intro written member
  simp only [SplitReady.records, mem_append, mem_map] at member
  rcases member with (first | ⟨span, inside, rfl⟩) | last
  · split at first
    · cases first
    · rename_i present
      obtain rfl := mem_singleton.mp first
      exact splits.small _ (by simp) present
  · obtain ⟨-, size, fits⟩ := splits.spans.each span inside
    rwa [splits.envelope_eq, length_encode_entries _ rfl, ← size]
  · split at last
    · cases last
    · rename_i present
      obtain rfl := mem_singleton.mp last
      exact splits.small _ (by simp) present

end

theorem writeRecords_singleton (record : WalBatch) (journal : Journal) :
    writeRecords [record] journal = writePayload record.encode journal :=
  bind_pure_unit (writePayload record.encode) journal

def commitRecords (records : List WalBatch) : JournalM Unit := fun journal =>
  if ∃ record ∈ records, limit < record.encode.length then (.error (.storage .recordBound), journal)
  else if satAdd journal.length (framed records).length > walLimit then
    (.error (.storage .capacity), journal)
  else (writeRecords records >>= fun _ => barrier) journal

theorem commitRecords_singleton (record : WalBatch) (journal : Journal) :
    commitRecords [record] journal = (writePayload record.encode >>= fun _ => barrier) journal := by
  have single : (framed [record]).length = 24 + record.encode.length := by
    simp [framed, length_frame]
  simp only [commitRecords, single, mem_singleton, exists_eq_left]
  by_cases large : limit < record.encode.length
  · rw [if_pos large, bind_error (by rw [writePayload, if_pos large])]
  rw [if_neg large]
  by_cases full : satAdd journal.length (24 + record.encode.length) > walLimit
  · rw [if_pos full, bind_error (by rw [writePayload, if_neg large, if_pos full])]
  · grind [bind_congr_at, writeRecords_singleton]

/-- The fields of a checkpoint's fragments are not in use. -/
structure Unfragmented (record : WalBatch) : Prop where
  entries : record.entries = []
  offset : record.snapshotOffset = 0
  total : record.snapshotTotal = 0
  digest : record.snapshotDigest = 0

theorem appendDecodedReady_eq (wire : Wire) (plain : Unfragmented record)
    (entries : List Entry) (previous : HardState) (journal : Journal) :
    appendDecodedReady wire record entries previous journal
      = match readyRecords wire journal.permitted record entries previous with
        | .error error => (.error error, journal)
        | .ok records => commitRecords records journal := by
  by_cases none : entries = []
  · rw [readyRecords, if_pos none, appendDecodedReady, if_pos none]
    refine Eq.trans ?_ (commitRecords_singleton _ journal).symm
    refine bind_congr_at ?_ fun _ _ _ => rfl
    rw [writeRecordInto, if_neg (by simp [plain.entries])]
    rfl
  · by_cases shape : record.entries ≠ [] ∨ record.version ≠ 1 ∨ record.snapshot ≠ [] ∨
        record.payloadManifest ≠ []
    · grind [readyRecords, appendDecodedReady]
    · have bare : Bare (journal.normalized record) := by
        simp only [ne_eq, not_or, Decidable.not_not] at shape
        exact ⟨plain.entries, shape.2.2.1, plain.offset, plain.total, plain.digest, shape.2.2.2⟩
      have normal : { record with permitted := journal.permitted } = journal.normalized record := rfl
      simp only [readyRecords, appendDecodedReady, if_neg none, if_neg shape, normal]
      split
      · rfl
      split
      · refine Eq.trans ?_ (commitRecords_singleton _ journal).symm
        grind [bind_congr_at, writeDecodedEntryRecordInto_eq]
      cases ran : splitReady wire (journal.normalized record) entries previous with
      | error => rfl
      | ok split =>
        obtain ⟨floor, final, splits⟩ := splitReady_splits none ran
        have small : ¬ ∃ record ∈ split.records, limit < record.encode.length := by
          simpa using records_small splits
        grind [Except.map, commitRecords, length_framed_records, writeSplit_eq]

/-! ## What the records of a split carry -/

def SplitReady.steps (split : SplitReady) (floor final : Option HardState) : List Step :=
  (floor.map fun hs => ⟨split.floor, [], some hs⟩).toList ++
    (split.spans.map fun span => ⟨split.envelope.withEntries span.1, span.1, none⟩) ++
    (final.map fun hs => ⟨split.final, [], some hs⟩).toList

open SplitReady

structure States (hs : Option HardState) (previous : HardState) (floor final : Option HardState) :
    Prop where
  floor_eq : floor = hs.map fun next => { next with commit := previous.commit }
  final_eq : final = none ∨ final = hs
  or_eq : final.or floor = hs

theorem Splits.steps {hs : Option HardState}
    (splits : Splits wire record entries previous split floor final)
    (encoded : record.hardState = hs.elim [] wire.hardState.encode)
    (terms : ∀ next, hs = some next → next.term ≠ 0) : ∃ first last, States hs previous first last ∧
    split.records = (split.steps first last).map Step.record ∧ ∀ step ∈ split.steps first last,
    Carries wire step.record step.entries step.hs ∧ step.record.voters = record.voters := by
  obtain ⟨envelope_eq, floor_eq, final_eq, floored, finished, spans, -⟩ := splits
  have carried : ∀ span ∈ split.spans,
      Carries wire (split.envelope.withEntries span.1) span.1 none ∧
        (split.envelope.withEntries span.1).voters = record.voters := by
    intro span member
    rw [envelope_eq]
    exact ⟨⟨rfl, rfl, rfl⟩, rfl⟩
  cases hs with
  | none =>
    have bare : record.hardState = [] := encoded
    obtain rfl : [] = floor := by simpa [Journal.floorState, bare] using floored
    obtain rfl : final = [] := by simpa [bare] using finished
    refine ⟨none, none, ⟨rfl, .inl rfl, rfl⟩, ?_, ?_⟩
    · have noFloor : split.floor.hardState = [] := by rw [floor_eq]; rfl
      have noFinal : split.final.hardState = [] := by rw [final_eq]; rfl
      simp [SplitReady.records, steps, noFloor, noFinal]
    · simp only [steps, Option.map_none, Option.toList_none, append_nil,
        nil_append, mem_map]
      grind
  | some next =>
    have bytes : record.hardState = wire.hardState.encode next := encoded
    have present : ∀ hs : HardState, hs.term = next.term → wire.hardState.encode hs ≠ [] := by
      intro hs same empty
      have zero := congrArg HardState.term (wire.hardState_empty hs empty)
      exact terms next rfl (same.symm.trans zero)
    have shown : record.hardState ≠ [] := by grind
    obtain rfl : wire.hardState.encode { next with commit := previous.commit } = floor := by
      simpa [Journal.floorState, shown, bytes, present next rfl, wire.hardState.decode_encode] using floored
    have first : Carries wire split.floor [] (some { next with commit := previous.commit }) ∧
        split.floor.voters = record.voters := by
      rw [floor_eq]
      exact ⟨⟨rfl, rfl, decodeHardState_some rfl (present _ rfl)⟩, rfl⟩
    have isFloor : split.floor.hardState ≠ [] := by
      rw [floor_eq]
      exact present _ rfl
    by_cases moved : record.hardState ≠ wire.hardState.encode { next with commit := previous.commit }
    · rw [if_pos moved, bytes] at finished
      subst finished
      have last : Carries wire split.final [] (some next) ∧ split.final.voters = record.voters := by
        rw [final_eq]
        exact ⟨⟨rfl, rfl, decodeHardState_some rfl (present _ rfl)⟩, rfl⟩
      have isFinal : split.final.hardState ≠ [] := by
        rw [final_eq]
        exact present _ rfl
      refine ⟨_, some next, ⟨rfl, .inr rfl, rfl⟩, ?_, ?_⟩
      · simp [SplitReady.records, steps, isFloor, isFinal]
      simp only [steps, Option.map_some, Option.toList_some, mem_append,
        mem_singleton, mem_map]
      grind
    · rw [if_neg moved] at finished
      subst finished
      rw [ne_eq, Decidable.not_not, bytes] at moved
      have noFinal : split.final.hardState = [] := by rw [final_eq]; rfl
      have same : next = { next with commit := previous.commit } := by
        have decoded := wire.hardState.decode_encode next
        simpa [moved, wire.hardState.decode_encode] using decoded.symm
      refine ⟨_, none, ⟨rfl, .inl rfl, by simpa using same.symm⟩, ?_, ?_⟩
      · simp [SplitReady.records, steps, isFloor, noFinal]
      · grind [steps]

end Journal

/-! ## Replaying a split -/

open MemStorage LawfulMemStorage Journal SplitReady
variable {entries : List Entry}

section Accepting
variable {first last : Nat} {electorate : List Nat}

theorem accepts_spans {envelope : WalBatch} {spans : List (List Entry × Nat)} {done : List Entry}
    {current : HardState} {tail : List Step}
    (positions : PositionsValid first last ((done ++ spans.flatMap Prod.fst).map header))
    (above : ∀ entry ∈ spans.flatMap Prod.fst, current.commit < entry.index)
    (elected : current.vote ≠ 0 → current.vote ∈ electorate)
    (terms : ∀ entry ∈ spans.flatMap Prod.fst, entry.term ≠ 0 ∧ entry.term ≤ current.term)
    (nonempty : ∀ span ∈ spans, span.1 ≠ [])
    (after : Accepts first last electorate (done ++ spans.flatMap Prod.fst) current tail) :
    Accepts first last electorate done current
      ((spans.map fun span => ⟨envelope.withEntries span.1, span.1, none⟩) ++ tail) := by
  induction spans generalizing done with
  | nil => simpa using after
  | cons span rest ih =>
    simp only [flatMap_cons, mem_append] at positions above terms after
    rw [← append_assoc] at positions after
    refine ⟨⟨positions.split.1, fun entry member => above entry (.inl member), le_rfl, le_rfl, ?_, by simp,
      elected, ?_⟩, ih positions (fun entry member => above entry (.inr member))
        (fun entry member => terms entry (.inr member))
        (fun other member => nonempty other (mem_cons_of_mem _ member)) after⟩
    · -- the group ends above the commit position
      have present := nonempty span (by simp)
      have reaches := above _ (.inl (getLast_mem present))
      rw [endsAt_append, endsAt, getLast?_eq_some_getLast present, Option.map_some,
        Option.getD_some]
      exact reaches.le
    · simp only [mem_map, forall_exists_index, and_imp, forall_apply_eq_imp_iff₂]
      exact fun entry member => terms entry (.inl member)

theorem le_last_of_positions {commit : Nat} (nonempty : entries ≠ [])
    (positions : PositionsValid first last (entries.map header))
    (above : ∀ entry ∈ entries, commit < entry.index) : commit ≤ last := by
  cases entries with
  | nil => exact absurd rfl nonempty
  | cons entry =>
    have bound : entry.index ≤ satAdd last 1 := (positions.2 entry.header rfl).2
    have low := above entry (by simp)
    have := satAdd_le last 1
    omega

theorem accepts_split {split : SplitReady} {overhead : Nat} {hs : Option HardState}
    {previous : HardState} {floor final : Option HardState} (nonempty : entries ≠ [])
    (spans : Spans overhead entries split.spans) (states : States hs previous floor final)
    (positions : PositionsValid first last (entries.map header))
    (above : ∀ entry ∈ entries, previous.commit < entry.index)
    (valid : HardStateValid previous (hs.getD previous) (endsAt last entries) electorate
      (entries.map header)) :
    Accepts first last electorate [] previous (split.steps floor final) := by
  obtain ⟨rfl, final_eq, -⟩ := states
  obtain ⟨terms, commits, reaches, votes, elected, headers⟩ := valid
  have covered := le_last_of_positions nonempty positions above
  have entryTerms : ∀ entry ∈ entries, entry.term ≠ 0 ∧ entry.term ≤ (hs.getD previous).term :=
    fun entry member => headers entry.header (mem_map_of_mem member)
  -- the last record changes the commit position, over all the entries
  have finish : ∀ current : HardState, current = (hs.map fun next =>
        { next with commit := previous.commit }).getD previous →
      Accepts first last electorate entries current
        (final.map fun next => ⟨split.final, [], some next⟩).toList := by
    rintro current rfl
    rcases final_eq with rfl | rfl
    · trivial
    cases final with
    | none => trivial
    | some =>
      refine ⟨⟨by simpa using positions, by simp, le_rfl, commits, ?_, by simp, elected, by simp⟩,
        trivial⟩
      simpa using reaches
  have middle : ∀ current : HardState, current = (hs.map fun next =>
        { next with commit := previous.commit }).getD previous →
      Accepts first last electorate [] current ((split.spans.map fun span =>
        ⟨split.envelope.withEntries span.1, span.1, none⟩) ++
          (final.map fun next => ⟨split.final, [], some next⟩).toList) := by
    intro current same
    have commit : current.commit = previous.commit := by cases hs <;> simp [same]
    have term : current.term = (hs.getD previous).term := by cases hs <;> simp [same]
    have vote : current.vote = (hs.getD previous).vote := by cases hs <;> simp [same]
    refine accepts_spans ?_ ?_ ?_ ?_ (fun span member => (spans.each span member).1) ?_
    · rwa [nil_append, spans.whole]
    · rwa [spans.whole, commit]
    · rwa [vote]
    · rwa [spans.whole, term]
    · rw [nil_append, spans.whole]
      exact finish current same
  unfold steps
  cases hs with
  | none => simpa using middle previous rfl
  | some =>
    refine ⟨⟨⟨trivial, by simp⟩, by simp, terms, le_rfl, ?_, votes, elected, by simp⟩, ?_⟩
    · simpa [endsAt] using covered
    · simpa using middle _ rfl

end Accepting

theorem readyRecords_several {wire : Wire} {permitted : List Nat} {record : WalBatch}
    {previous : HardState} {records : List WalBatch}
    (ran : readyRecords wire permitted record entries previous = .ok records)
    (several : 1 < records.length) :
    entries ≠ [] ∧ record.snapshot = [] ∧ ∃ split, records = split.records ∧
      splitReady wire { record with permitted := permitted } entries previous = .ok split := by
  unfold readyRecords at ran
  split at ran
  · grind
  rename_i nonempty
  simp only [Checks.ite_eq_ok, ne_eq, not_or, Decidable.not_not] at ran
  obtain ⟨⟨-, -, plain, -⟩, -, ran⟩ := ran
  split at ran
  · grind
  · obtain ⟨split, done, same⟩ := Checks.map_eq_ok ran
    exact ⟨nonempty, plain, split, same.symm, done⟩

theorem stepEntries_split {split : SplitReady}
    (spans : Spans overhead entries split.spans) (floor final : Option HardState) :
    stepEntries (split.steps floor final) = entries := by
  have ends : ∀ (record : WalBatch) (hs : Option HardState),
      (hs.map fun next => (⟨record, [], some next⟩ : Step)).toList.flatMap Step.entries = [] := by
    simp
  simpa [stepEntries, steps, ends, flatMap_map] using spans.whole

theorem stepState_split (split : SplitReady) (floor final : Option HardState) :
    stepState none (split.steps floor final) = final.or floor := by
  have middle : ∀ start, stepState start (split.spans.map fun span =>
      (⟨split.envelope.withEntries span.1, span.1, none⟩ : Step)) = start := by
    intro start
    induction split.spans with
    | nil => rfl
    | cons span rest ih => exact ih
  have parts : ∀ start (left right : List Step),
      stepState start (left ++ right) = stepState (stepState start left) right :=
    fun start left right => foldl_append
  rw [steps, parts, parts, middle]
  cases floor <;> cases final <;> rfl

/-- What the core hands over to be made durable: a hard state, an encoded snapshot and entries. -/
structure DecodedReady where
  hs : Option HardState
  snapshot : Bytes
  entries : List Entry

def DecodedReady.record (wire : Wire) (options : PeerOptions) (ready : DecodedReady) : WalBatch :=
  { batch wire options ready.hs [] with
    version := if ready.snapshot = [] then 1 else 2
    snapshot := ready.snapshot }

section PrefixSafe
variable {σ : Type} [MemStorage σ] [LawfulMemStorage σ]

/-- **A split `Ready` is safe at every prefix.**  Its records replay up to any point; all of them leave
the store that installing at once leaves; and they are written together, or not at all. -/
theorem split_ready_safe_at_prefixes (wire : Wire) (files : Payloads) (options : PeerOptions)
    (ready : DecodedReady) (store whole : PeerStorage σ) (journal : Journal) (records : List WalBatch)
    (contiguous : Contiguous store.memory)
    (above : ∀ entry ∈ ready.entries, (hardState store.memory).commit < entry.index)
    (installs : installDecoded wire files (ready.record wire options) .journal ready.entries ready.hs
      store = (.ok (), whole))
    (split : readyRecords wire journal.permitted (ready.record wire options) ready.entries
      (hardState store.memory) = .ok records) (several : 1 < records.length) :
    (∀ count, ∃ reached, replayAll wire files (records.take count) store = (.ok (), reached) ∧
        Durable store reached) ∧
      (∃ reached, replayAll wire files records store = (.ok (), reached) ∧ SameStore reached whole) ∧
      appendDecodedReady wire (ready.record wire options) ready.entries (hardState store.memory) journal
        = if satAdd journal.length (framed records).length > walLimit then
            (.error (.storage .capacity), journal)
          else (writeRecords records >>= fun _ => barrier) journal := by
  have plain : Unfragmented (ready.record wire options) := ⟨rfl, rfl, rfl, rfl⟩
  have wrote := appendDecodedReady_eq wire plain ready.entries (hardState store.memory) journal
  rw [split] at wrote
  obtain ⟨nonempty, bare, parts, rfl, ran⟩ := readyRecords_several split several
  obtain ⟨arrived, placed⟩ := installDecoded_inv bare installs
  have changes := checkArriving_journal.mp arrived
  obtain ⟨floor, final, splits⟩ := splitReady_splits nonempty ran
  have headers := placed.valid.2.2.2.2.2
  have terms : ∀ next, ready.hs = some next → next.term ≠ 0 := by
    intro next some
    have bound := headers _ (mem_map_of_mem (head_mem nonempty))
    rw [some, Option.getD_some] at bound
    omega
  obtain ⟨first, last, states, records, carried⟩ := splits.steps rfl terms
  have accepts := accepts_split nonempty splits.spans states placed.positions above placed.valid
  have contents := stepEntries_split splits.spans first last
  have readable : Readable wire store.permitted (ready.record wire options).voters
      (parts.steps first last) := by
    intro step member
    refine ⟨(carried step member).1, (carried step member).2, fun entry inside => changes entry ?_⟩
    rw [← contents]
    exact mem_flatMap.mpr ⟨step, member, inside⟩
  refine ⟨fun count => ?_, ?_, ?_⟩
  · rw [records, ← map_take]
    have some : Readable wire store.permitted (ready.record wire options).voters
        ((parts.steps first last).take count) :=
      fun step member => readable step (mem_of_mem_take member)
    rcases eq_or_ne ((parts.steps first last).take count) [] with none | present
    · rw [none]
      exact ⟨store, rfl, .refl contiguous (le_last_of_positions nonempty placed.positions above)⟩
    obtain ⟨reached, replayed, held⟩ :=
      replayAll_placed files contiguous present some (accepts.take count)
    have changed : ∀ entry ∈ stepEntries ((parts.steps first last).take count),
        checkChange wire store.permitted entry = .ok () := by
      intro entry member
      obtain ⟨step, inside, found⟩ := mem_flatMap.mp member
      exact (some step inside).2.2 entry found
    exact ⟨reached, replayed, held.durable contiguous changed⟩
  · have present : parts.steps first last ≠ [] := by
      intro empty
      rw [empty] at contents
      exact nonempty contents.symm
    obtain ⟨reached, replayed, held⟩ := replayAll_placed files contiguous present readable accepts
    rw [records]
    refine ⟨reached, replayed, ?_⟩
    rw [contents, stepState_split, states.or_eq] at held
    exact held.stored.same placed.stored
  · have small : ¬ ∃ record ∈ parts.records, limit < record.encode.length := by
      simpa using records_small splits
    refine wrote.trans ?_
    simp only [commitRecords, if_neg small]

end PrefixSafe

/-! ## Two large entries -/

def payloadEntry (data : Bytes) (index : Nat) : Entry :=
  { entryType := entryNormal, term := 1, index := index, data := data, syncLog := false
    context := [] }

theorem entryField_payloadEntry {data : Bytes} (size : data.length = 5 * 1024 * 1024) {index : Nat}
    (low : index ≠ 0) (small : index < 128) :
    entryField (payloadEntry data index) = 5 * 1024 * 1024 + 14 := by
  have present : data ≠ [] := by
    rintro rfl
    cases size
  have fields : (payloadEntry data index).fields
      = [(2, .number 1), (3, .number index), (4, .bytes data)] := by
    simp [fields, payloadEntry, entryNormal, numberField, bytesField, low, present]
  have one : (varint index).length = 1 := by rw [varint_of_lt small]; rfl
  have four : (varint (5 * 1024 * 1024)).length = 4 ∧ (varint (5 * 1024 * 1024 + 9)).length = 4 := by
    decide +kernel
  have tags : (varint (2 * 8 + 0)).length = 1 ∧ (varint (3 * 8 + 0)).length = 1 ∧
    (varint (4 * 8 + 2)).length = 1 ∧ (varint 1).length = 1 := by decide
  simp [encode, fields, writeFields, Field.write, Field.kind, Field.body, size, one, four,
    tags, entryField]

/-- One member, and two entries that do not fit a record together. -/
def onePeer : PeerOptions := { groupId := 1, nodeId := 1, voters := [1] }

def freshStore : PeerStorage LogImage :=
  { permitted := [], memory := .newWithConfState [1], checkpoint := none, payload := none, retired := [] }

def emptyJournal : Journal :=
  { permitted := [], bytes := [], synced := 0, faults := [], length := 0, barriers := 0, records := 0 }

def largeReady (data : Bytes) : DecodedReady :=
  { hs := some { term := 1, vote := 1, commit := 2 }, snapshot := []
    entries := [payloadEntry data 1, payloadEntry data 2] }

theorem largeReady_records {data : Bytes} (size : data.length = 5 * 1024 * 1024) :
    ∃ records, readyRecords protobuf [] ((largeReady data).record protobuf onePeer)
      (largeReady data).entries (hardState freshStore.memory) = .ok records ∧ 1 < records.length := by
  set record : WalBatch := (largeReady data).record protobuf onePeer
  have first : entryField (payloadEntry data 1) = _ := entryField_payloadEntry size (by decide) (by decide)
  have second : entryField (payloadEntry data 2) = _ := entryField_payloadEntry size (by decide) (by decide)
  have fixed : record = (largeReady []).record protobuf onePeer := rfl
  have whole : record.encode.length ≤ 64 := by rw [fixed]; decide +kernel
  have overhead : (envelopeOf record).encode.length ≤ 64 := by rw [fixed]; decide +kernel
  have bound : limit = 8 * 1024 * 1024 := rfl
  have top : u64Max = 2 ^ 64 - 1 := rfl
  let groups := [([payloadEntry data 1], (envelopeOf record).encode.length + (5 * 1024 * 1024 + 14)),
    ([payloadEntry data 2], (envelopeOf record).encode.length + (5 * 1024 * 1024 + 14))]
  have packed : packSpans (envelopeOf record).encode.length (largeReady data).entries []
      (envelopeOf record).encode.length = .ok groups := by
    have alone : ¬ satAdd (envelopeOf record).encode.length (5 * 1024 * 1024 + 14) > limit :=
      not_lt.mpr ((satAdd_le _ _).trans (by omega))
    have room : ¬ (envelopeOf record).encode.length + (5 * 1024 * 1024 + 14) > limit := by omega
    have full : (envelopeOf record).encode.length + (5 * 1024 * 1024 + 14) + (5 * 1024 * 1024 + 14)
        > limit := by omega
    simp only [largeReady, packSpans, first, second, if_neg alone, if_neg room, if_pos full,
      Except.map, nil_append, groups]
  have floored : floorState protobuf record.hardState (hardState freshStore.memory) = .ok
      (protobuf.hardState.encode { term := 1, vote := 1, commit := 0 }) := by rfl
  have moved : record.hardState ≠ protobuf.hardState.encode { term := 1, vote := 1, commit := 0 } := by
    rw [fixed]
    decide +kernel
  have small : ¬ ([(envelopeOf record).withHardState
        (protobuf.hardState.encode { term := 1, vote := 1, commit := 0 }),
      (envelopeOf record).withHardState record.hardState].any fun state =>
        state.hardState ≠ [] ∧ state.encode.length > limit) = true := by
    rw [fixed]
    decide +kernel
  obtain ⟨split, ran, two⟩ : ∃ split, splitReady protobuf record (largeReady data).entries
      (hardState freshStore.memory) = .ok split ∧ split.spans.length = 2 := by
    have ran : splitReady protobuf record (largeReady data).entries (hardState freshStore.memory)
        = .ok ⟨envelopeOf record, (envelopeOf record).withHardState
            (protobuf.hardState.encode { term := 1, vote := 1, commit := 0 }), groups,
          (envelopeOf record).withHardState record.hardState⟩ := by
      simp only [splitReady, packed, floored, bind, Except.bind, if_pos moved, if_neg small]
      rfl
    exact ⟨_, ran, rfl⟩
  have same : { record with permitted := [] } = record := rfl
  have total : ((largeReady data).entries.map entryField).sum = 2 * (5 * 1024 * 1024 + 14) := by
    simp [largeReady, first, second]
  have large : ¬ record.encode.length + ((largeReady data).entries.map entryField).sum ≤ limit := by
    omega
  have fits : ¬ record.encode.length + ((largeReady data).entries.map entryField).sum > u64Max := by
    omega
  have shape : ¬ (record.entries ≠ [] ∨ record.version ≠ 1 ∨ record.snapshot ≠ [] ∨
      record.payloadManifest ≠ []) := by
    rw [fixed]
    decide
  have some : (largeReady data).entries ≠ [] := by simp [largeReady]
  refine ⟨split.records, ?_, ?_⟩
  · simp only [readyRecords, same, if_neg some, if_neg shape, if_neg fits, if_neg large, ran, Except.map]
  · grind [SplitReady.records]

theorem largeReady_above (data : Bytes) : ∀ entry ∈ (largeReady data).entries,
    (hardState freshStore.memory).commit < entry.index := by
  simpa [largeReady] using ⟨Nat.one_pos, Nat.two_pos⟩

theorem largeReady_installs (files : Payloads) (data : Bytes) :
    ∃ whole, installDecoded protobuf files ((largeReady data).record protobuf onePeer) .journal
      (largeReady data).entries (largeReady data).hs freshStore = (.ok (), whole) := by
  have headers : (largeReady data).entries.map header = [⟨1, 1⟩, ⟨2, 1⟩] := rfl
  have positions : PositionsValid (firstIndex freshStore.memory) (lastIndex freshStore.memory)
      ((largeReady data).entries.map header) := by
    rw [headers]
    decide
  have committed : ∀ entry ∈ (largeReady data).entries, checkCommitted freshStore.memory
      (hardState freshStore.memory).commit .changesCommitted entry = .ok () :=
    fun entry member => if_pos (largeReady_above data entry member)
  have valid : HardStateValid (hardState freshStore.memory)
      ((largeReady data).hs.getD (hardState freshStore.memory))
      (endsAt (lastIndex freshStore.memory) (largeReady data).entries)
      (freshStore.electorate ((largeReady data).record protobuf onePeer))
      ((largeReady data).entries.map header) := by
    show HardStateValid default { term := 1, vote := 1, commit := 2 } 2 [1] [⟨1, 1⟩, ⟨2, 1⟩]
    decide
  obtain ⟨whole, ran⟩ := placeEntries_of_valid positions (fun _ => committed) valid
  refine ⟨whole, installDecoded_plain rfl (checkArriving_journal.mpr ?_) ran⟩
  simp [largeReady, checkChange, payloadEntry]

/-- Two entries of five megabytes are written in four records. -/
theorem large_ready_split : ∃ (data : Bytes) (whole : PeerStorage LogImage) (records : List WalBatch),
    installDecoded protobuf (fun _ => none) ((largeReady data).record protobuf onePeer) .journal
        (largeReady data).entries (largeReady data).hs freshStore = (.ok (), whole) ∧
      readyRecords protobuf emptyJournal.permitted ((largeReady data).record protobuf onePeer)
        (largeReady data).entries (hardState freshStore.memory) = .ok records ∧ 1 < records.length ∧
      ∃ reached, replayAll protobuf (fun _ => none) records freshStore = (.ok (), reached) ∧
        SameStore reached whole := by
  have size : (List.replicate (5 * 1024 * 1024) (7 : UInt8)).length = 5 * 1024 * 1024 :=
    length_replicate
  generalize List.replicate (5 * 1024 * 1024) (7 : UInt8) = data at size
  obtain ⟨records, split, several⟩ := largeReady_records size
  obtain ⟨whole, installs⟩ := largeReady_installs (fun _ => none) data
  exact ⟨data, whole, records, installs, split, several,
    (split_ready_safe_at_prefixes protobuf (fun _ => none) onePeer (largeReady data) freshStore whole
      emptyJournal records (Numbered.nil _ _) (largeReady_above data) installs split several).2.1⟩

end MatrixRaft.Peer
