/-
# Peer.Scan — reading back the frames of a journal

- `framing` — `readFrame` reads the frames `frame` writes, and stops at a torn one
- `readFrame_inv` — what it reads was written by `frame`
-/
import MatrixRaft.Peer.Reopen
import MatrixRaft.Peer.Split

namespace MatrixRaft.Peer
open Theory List Attempt Frames

set_option linter.unusedSectionVars false

/-! ## One frame -/

variable (payload : Bytes)

def header : Bytes :=
  frameMark payload.length ++ bigEndian 8 (digest (frameMark payload.length)).toNat ++
    bigEndian 8 (digest payload).toNat

theorem frame_eq : frame payload = header payload ++ payload := rfl

theorem length_frameMark (size : Nat) : (frameMark size).length = 8 := by
  simp [frameMark, magic]

theorem length_header : (header payload).length = 24 := by
  simp [header, length_frameMark]

section Header
variable (payload rest : Bytes)

theorem header_take_four : (header payload ++ rest).take 4 = magic := rfl

theorem header_take_eight : (header payload ++ rest).take 8 = frameMark payload.length := by rfl

theorem header_size (small : payload.length ≤ limit) :
    ofBigEndian (((header payload ++ rest).drop 4).take 4) = payload.length := by
  have part : ((header payload ++ rest).drop 4).take 4 = bigEndian 4 payload.length := by rfl
  have bound : payload.length < 256 ^ 4 := lt_of_le_of_lt small (by decide)
  rw [part, ofBigEndian_bigEndian _ _ bound]

theorem header_checksum :
    checksumAt (header payload ++ rest) 8 = (digest (frameMark payload.length)).toNat := by
  have part : ((header payload ++ rest).drop 8).take 8
      = bigEndian 8 (digest (frameMark payload.length)).toNat := by rfl
  rw [checksumAt, part, ofBigEndian_bigEndian _ _ (UInt64.toNat_lt _)]

theorem payload_checksum : checksumAt (header payload ++ rest) 16 = (digest payload).toNat := by
  have part : ((header payload ++ rest).drop 16).take 8 = bigEndian 8 (digest payload).toNat := by
    rfl
  rw [checksumAt, part, ofBigEndian_bigEndian _ _ (UInt64.toNat_lt _)]

end Header

def Framed : Prop := payload ≠ [] ∧ payload.length ≤ limit

theorem readFrame_header {payload : Bytes} (fits : Framed payload) (offset : Nat) (rest : Bytes) :
    readFrame offset (header payload ++ rest) = if rest.length < payload.length then
          if offset = 0 then .error (.storage .incompletePayload) else .ok none
        else if (digest (rest.take payload.length)).toNat ≠ (digest payload).toNat then
          .error (.storage .recordChecksum)
        else .ok (some (rest.take payload.length, rest.drop payload.length)) := by
  have long : ¬ (header payload ++ rest).length < 24 := by simp [length_header]
  have marked : ¬ ((header payload ++ rest).take 4 ≠ magic ∨
      (digest ((header payload ++ rest).take 8)).toNat ≠ checksumAt (header payload ++ rest) 8) := by
    rw [header_take_four, header_take_eight, header_checksum]
    simp
  have sized : ¬ (payload.length = 0 ∨ payload.length > limit) := by grind [fits.1, fits.2]
  have left : (header payload ++ rest).length - 24 = rest.length := by simp [length_header]
  have body : (header payload ++ rest).drop 24 = rest := drop_left' (length_header _)
  have after : (header payload ++ rest).drop (24 + payload.length) = rest.drop payload.length := by
    rw [← drop_drop, body]
  simp only [readFrame, if_neg long, if_neg marked, header_size payload rest fits.2, if_neg sized, left,
    body, payload_checksum, after]

theorem framing : Framing Framed frame readFrame where
  nonempty payload fits := by
    rw [frame_eq]
    simp [fits.1]
  whole offset payload rest fits := by simp [frame_eq, readFrame_header fits]
  torn offset payload kept fits inside some short := by
    rw [frame_eq, length_append, length_header] at short
    rcases lt_or_ge kept 24 with cut | past
    · -- inside the header: the mark, as far as it goes
      have length : ((frame payload).take kept).length = kept := by grind [frame_eq, length_header]
      have mark : ((frame payload).take kept).take 4 = magic.take (min kept 4) := by
        have : (frame payload).take 4 = magic := header_take_four payload payload
        grind
      rw [readFrame, if_pos (by omega), if_neg inside, length, if_neg (by simp [mark])]
    · have split : (frame payload).take kept = header payload ++ payload.take (kept - 24) := by
        grind [frame_eq, take_append, take_of_length_le, length_header]
      rw [split, readFrame_header fits, if_pos, if_neg inside]
      grind

/-! ## One record -/

/-- A record this peer wrote. -/
structure Own (options : PeerOptions) (permitted : List Nat) (record : WalBatch) : Prop where
  shape : (record.version, decide (record.snapshot = []))
    ∈ [(1, true), (2, false), (3, false), (4, false)]
  manifest : decide (record.version = 4) ≠ decide (record.payloadManifest = [])
  group_eq : record.group = options.groupId
  node_eq : record.node = options.nodeId
  voters_eq : record.voters = options.voters
  permitted_eq : record.permitted = permitted

theorem readRecord_encode {wire : Wire} {options : PeerOptions} {permitted : List Nat}
    {record : WalBatch} (own : Own options permitted record) :
    readRecord wire options permitted record.encode = .ok record := by
  obtain ⟨shape, manifest, group, node, voters, permitted⟩ := own
  unfold readRecord
  rw [wire.decodeBatch_encode record]
  refine if_neg ?_
  simp only [not_or, Decidable.not_not]
  exact ⟨shape, manifest, group, node, voters, permitted, trivial⟩

section Records
variable {σ : Type} [MemStorage σ] [LawfulMemStorage σ] {wire : Wire} {files : Payloads}
  {options : PeerOptions}

theorem installFrom_permitted (batch : WalBatch) (source : SnapshotSource) (snapshot : Option Snapshot)
    (wireValidated : Bool) (store : PeerStorage σ) :
    (installFrom wire files batch source snapshot wireValidated store).2.permitted = store.permitted := by
  unfold installFrom
  rcases decodeContents wire batch with error | ⟨entries, hs⟩
  · rfl
  dsimp only
  unfold installDecodedWithScratch
  cases checkArriving wire store source entries with
  | error => rfl
  | ok =>
    cases swapped : replaceSnapshot wire files store batch source snapshot wireValidated hs with
    | error => rfl
    | ok replaced =>
      have same : replaced.permitted = store.permitted := by
        rcases replaceSnapshot_cases swapped with ⟨-, -, rfl⟩ | ⟨held, payload, -, -, adopted⟩
        · rfl
        · exact (adoptSnapshot_adopted adopted).permitted_eq
      cases ran : placeEntries replaced (MemStorage.hardState store.memory) batch source entries hs with
      | error => grind
      | ok =>
        simp only [ran]
        exact (placeEntries_placed ran).stored.permitted_eq.trans same

theorem forEach_appendOne_permitted (entries : List Entry) (store : PeerStorage σ) :
    (Attempt.forEach appendOne entries store).2.permitted = store.permitted := by
  have keeps : Attempt.Keeps (fun reached : PeerStorage σ => reached.permitted = store.permitted)
      (Attempt.forEach appendOne entries) := by
    refine .forEach entries fun entry _ reached held => ?_
    unfold appendOne
    split <;> exact held
  exact keeps store rfl

theorem installWithScratch_permitted (recovered : RecoveredBatch) (store : PeerStorage σ) :
    (installWithScratch wire files recovered store).2.permitted = store.permitted := by
  unfold installWithScratch
  split
  · unfold installRecoveredEntries
    cases checkRecovered wire store recovered.record with
    | error => rfl
    | ok contents =>
      have kept := forEach_appendOne_permitted contents.1 store
      grind
  · exact installFrom_permitted ..

theorem acceptRecord_permitted (offset : Nat) (record : WalBatch) (recovery : Recovery σ) :
    (acceptRecord wire files offset record recovery).2.store.permitted = recovery.store.permitted := by
  unfold acceptRecord
  rcases recovery.assembly.accept wire record offset with error | ⟨assembly, _ | batch⟩
  · rfl
  · rfl
  · exact installWithScratch_permitted batch recovery.store

/-! ## All records -/

def recordFrame (record : WalBatch) : Bytes := frame record.encode

def installRecords (wire : Wire) (files : Payloads) : Nat → List WalBatch → RecoveryM σ Unit :=
  forEachAt recordFrame (acceptRecord wire files)

theorem recoverPayloads_eq {records : List WalBatch} {offset : Nat} {recovery : Recovery σ}
    (own : ∀ record ∈ records, Own options recovery.store.permitted record) :
    forEachAt frame (recoverPayload wire files options) offset (records.map WalBatch.encode) recovery
      = installRecords wire files offset records recovery := by
  induction records generalizing offset recovery with
  | nil => rfl
  | cons record records ih =>
    have first : recoverPayload wire files options offset record.encode recovery
        = acceptRecord wire files offset record recovery := by
      grind [recoverPayload, readRecord_encode]
    refine bind_congr_at first fun _ reached ran => ?_
    have kept := @acceptRecord_permitted σ _ _ wire files offset record recovery
    exact ih fun other member => by grind

/-! ## The whole file -/

structure Recorded (options : PeerOptions) (permitted : List Nat) (record : WalBatch) : Prop where
  own : Own options permitted record
  small : record.encode.length ≤ limit

theorem Recorded.framed {permitted : List Nat} {record : WalBatch}
    (recorded : Recorded options permitted record) : Framed record.encode := by
  refine ⟨fun empty => ?_, recorded.small⟩
  have version : record.version ≠ 0 := by grind [recorded.own.shape]
  have first : record.encode.head?.isSome := by
    simp [WalBatch.encode, WalBatch.fields, numberField, version, writeFields,
      Field.write, varint_ne_nil]
  grind

theorem framed_eq_written (records : List WalBatch) :
    framed records = written frame (records.map WalBatch.encode) := by
  rw [framed, written, flatMap_map]

theorem scan_framed {records : List WalBatch} {tail : Bytes} {fuel : Nat} {recovery : Recovery σ}
    (recorded : ∀ record ∈ records, Recorded options recovery.store.permitted record)
    (torn : Torn Framed frame tail) (some : records ≠ [])
    (enough : (framed records ++ tail).length < fuel) :
    scan readFrame (recoverPayload wire files options) fuel 0 (framed records ++ tail) recovery
      = (installRecords wire files 0 records >>= fun _ => pure (framed records).length) recovery := by
  have fine : ∀ payload ∈ records.map WalBatch.encode, Framed payload := by
    intro payload member
    obtain ⟨record, inside, rfl⟩ := mem_map.mp member
    exact (recorded record inside).framed
  rw [framed_eq_written] at enough ⊢
  rw [scan_written framing fine torn enough (.inr (by simpa using some)), zero_add]
  refine bind_congr_at ?_ fun _ _ _ => rfl
  exact recoverPayloads_eq fun record member => (recorded record member).own

section Framing
variable {records : List WalBatch} {tail : Bytes} {store : PeerStorage σ} {reached : Recovery σ}
  (recorded : ∀ record ∈ records, Recorded options store.permitted record)
  (torn : Torn Framed frame tail) (present : records ≠ [])
  (ran : installRecords wire files 0 records
    { assembly := .new (framed records ++ tail).length, store := store } = (.ok (), reached))

include recorded torn present ran

theorem scan_ran :
    scan readFrame (recoverPayload wire files options) ((framed records ++ tail).length + 1) 0
      (framed records ++ tail) { assembly := .new (framed records ++ tail).length, store := store }
        = (.ok (framed records).length, reached) := by
  rw [scan_framed recorded torn present (Nat.lt_succ_self _), bind_ok ran]
  rfl

theorem recover_framed (whole : reached.assembly.pending = none) :
    Journal.recover wire files options (framed records ++ tail) store
      = (.ok (.reopened store.permitted (framed records)), reached.store) := by
  have finished : reached.assembly.finish = .ok () := by
    rw [WalAssembly.finish, if_neg (by simp [whole])]
  simp only [Journal.recover, scan_ran recorded torn present ran, finished, take_left]

end Framing
end Records
end MatrixRaft.Peer
