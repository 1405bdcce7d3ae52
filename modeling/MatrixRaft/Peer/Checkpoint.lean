/-
# Peer.Checkpoint — a published checkpoint and the journal opened again

`checkpoint_payload_at` writes the journal anew around an application checkpoint, which
takes the place of the history it covers.  Opening the journal again rebuilds what the live
peer holds, except for an inline checkpoint without data, which the peer accepts and the
reader takes for a damaged record.
-/
import MatrixRaft.Peer.Durable
import MatrixRaft.Peer.Restore

namespace MatrixRaft.Peer
open Theory MemStorage LawfulMemStorage Journal List Attempt

section Image
variable {σ : Type} [MemStorage σ] [LawfulMemStorage σ] {wire : Wire} {files : Payloads}
  {options : PeerOptions} {snapshot : Snapshot} {hs : HardState} {entries : List Entry}
  {payload : Option Blob} {permitted : List Nat} {after : Journal} {groups : List (List Entry)}
  {records : List WalBatch}

/-! ## The records of an image -/

theorem Own.relabelled {record : WalBatch} (own : Own options record.permitted record)
    (permitted : List Nat) : Own options permitted { record with permitted := permitted } :=
  ⟨own.shape, own.manifest, own.group_eq, own.node_eq, own.voters_eq, rfl⟩

theorem batch_own (wire : Wire) (options : PeerOptions) (hs : Option HardState)
    (entries : List Entry) : Own options [] (batch wire options hs entries) :=
  ⟨by simp [batch], by simp [batch], rfl, rfl, rfl, rfl⟩

theorem fragment_own {encoded : Bytes} (present : encoded ≠ []) {number : Nat}
    (listed : number ∈ List.range (fragmentCount encoded)) :
    Own options [] (fragment (checkpointRecord wire options snapshot hs) encoded number) := by
  obtain ⟨last, count, within, -⟩ := fragmentCount_eq present
  have inside : number * snapshotFragmentBytes < encoded.length := by
    have below : number ≤ last := by grind
    exact (Nat.mul_le_mul_right _ below).trans_lt within
  refine ⟨?_, by simp [fragment, checkpointRecord, batch], rfl, rfl, rfl, rfl⟩
  rw [decide_eq_false (fragment_snapshot_ne inside)]
  simp [fragment]

theorem checkpointRecords_own (present : wire.encodeSnapshot snapshot ≠ [])
    (manifests : ∀ blob ∈ payload, wire.manifest.encode blob.manifest ≠ []) :
    ∀ record ∈ checkpointRecords wire (checkpointRecord wire options snapshot hs) snapshot payload,
      Own options record.permitted record := by
  unfold checkpointRecords
  split
  · rename_i blob
    intro record member
    rw [mem_singleton.mp member]
    exact ⟨by simp [checkpointRecord, present], by simp [manifests blob rfl], rfl, rfl, rfl, rfl⟩
  · split
    · intro record member
      rw [mem_singleton.mp member]
      exact ⟨by simp [checkpointRecord, present], by simp [checkpointRecord, batch], rfl, rfl, rfl,
        rfl⟩
    · intro record member
      obtain ⟨number, listed, rfl⟩ := mem_map.mp member
      exact fragment_own present listed

variable {store fresh live : PeerStorage σ}

section Imaged
variable (imaged : Imaged wire options snapshot hs entries payload permitted after groups records)

include imaged

/-- **The records of an image** are this peer's, and fit their frames. -/
theorem imaged_recorded (present : wire.encodeSnapshot snapshot ≠ [])
    (manifests : ∀ blob ∈ payload, wire.manifest.encode blob.manifest ≠ []) :
    ∀ record ∈ records, Recorded options permitted record := by
  intro record member
  refine ⟨?_, imaged.small record member⟩
  rw [imaged.records_eq] at member
  obtain ⟨bare, listed, rfl⟩ := mem_map.mp member
  refine Own.relabelled ?_ permitted
  rcases mem_append.mp listed with checkpoint | later
  · grind [checkpointRecords_own]
  rcases mem_append.mp later with suffix | final
  · obtain ⟨group, -, rfl⟩ := mem_map.mp suffix
    exact batch_own wire options none group
  unfold finalRecords at final
  split at final
  · rw [mem_singleton.mp final]
    exact batch_own wire options (some hs) []
  · cases final

/-! ## Opening an image -/

theorem imaged_split :
    ∃ rest, records = writtenCheckpoints wire options snapshot hs payload permitted ++ rest := by
  have split := imaged.records_eq
  rw [imageRecords, map_append] at split
  exact ⟨_, split⟩

omit imaged in
theorem writtenCheckpoints_ne_nil (present : wire.encodeSnapshot snapshot ≠ []) :
    writtenCheckpoints wire options snapshot hs payload permitted ≠ [] := by
  obtain ⟨last, count, -, -⟩ := fragmentCount_eq present
  have fragments : fragmentCount (checkpointRecord wire options snapshot hs).snapshot = last + 1 :=
    count
  unfold writtenCheckpoints checkpointRecords
  split
  · simp
  split
  · simp
  · simp [fragments]

omit [LawfulMemStorage σ] in
theorem open_imaged (files : Payloads) (fresh : PeerStorage σ)
    (present : wire.encodeSnapshot snapshot ≠ []) (locked : Bool) :
    records ≠ [] ∧ Journal.open wire files options locked (some after.bytes) fresh
      = Journal.recover wire files options (framed records ++ []) fresh := by
  obtain ⟨rest, split⟩ := imaged_split imaged
  have some : records ≠ [] := by
    rw [split]
    exact append_ne_nil_of_left_ne_nil (writtenCheckpoints_ne_nil present) _
  have bytes : after.bytes ≠ [] := by
    rw [imaged.bytes_eq]
    obtain ⟨record, member⟩ := exists_mem_of_ne_nil _ some
    intro empty
    have := flatMap_eq_nil_iff.mp empty record member
    grind [length_frame]
  have bounded : ¬ after.bytes.length > walLimit := by
    grind [imaged.length_eq, imaged.bounded, imaged.bytes_eq]
  grind [Journal.open, imaged.bytes_eq]

end Imaged

/-- **An image opens** as the checkpoint it holds, when the reader can find its payload. -/
theorem open_image (initial : Initial fresh) (same : fresh.permitted = store.permitted)
    (published : Published wire options store live snapshot payload entries hs)
    (imaged : Imaged wire options snapshot hs entries payload store.permitted after groups records)
    (manifests : ∀ blob ∈ payload, wire.manifest.encode blob.manifest ≠ [])
    (available : ∀ blob ∈ payload, Available wire files blob)
    (held : payload.isSome ∨ snapshot.data ≠ []) (locked : Bool) : ∃ journal restored,
      Journal.open wire files options locked (some after.bytes) fresh = (.ok journal, restored) ∧
        Based fresh restored snapshot payload entries hs := by
  have present := encodeSnapshot_ne_nil published.suits
  obtain ⟨some, opens⟩ := open_imaged imaged files fresh present locked
  obtain ⟨rest, split⟩ := imaged_split imaged
  have covered : (framed (writtenCheckpoints wire options snapshot hs payload store.permitted)).length
      ≤ (framed records ++ []).length := by simp [split, framed]
  obtain ⟨restored, installed, based⟩ :=
    image_restores initial same published imaged available held covered
  have recorded := imaged_recorded imaged present manifests
  rw [← same] at recorded
  have torn : Frames.Torn Framed frame [] := .inl rfl
  exact ⟨_, _, opens.trans (recover_framed recorded torn some installed rfl), based⟩

theorem open_empty (same : fresh.permitted = store.permitted)
    (published : Published wire options store live snapshot none entries hs)
    (imaged : Imaged wire options snapshot hs entries none store.permitted after groups records)
    (empty : snapshot.data = []) (locked : Bool) :
    ∃ error, (Journal.open wire files options locked (some after.bytes) fresh).1 = .error error := by
  have present := encodeSnapshot_ne_nil published.suits
  obtain ⟨some, opens⟩ := open_imaged imaged files fresh present locked
  obtain ⟨rest, split⟩ := imaged_split imaged
  have recorded := imaged_recorded imaged present nofun
  rw [← same] at recorded
  have suits := published.suits
  rw [← same] at suits split
  have inline : writtenCheckpoints wire options snapshot hs none fresh.permitted
      = [writtenCheckpoint wire options snapshot hs fresh.permitted] := by
    unfold writtenCheckpoints checkpointRecords
    simp [empty, writtenCheckpoint]
  have refused : installRecords wire files 0 records
      { assembly := .new (framed records ++ []).length, store := fresh }
        = (.error (.storage .snapshotEncoding),
          { assembly := .new (framed records ++ []).length, store := fresh }) := by
    rw [split, inline, installRecords_append]
    grind [installRecords_singleton, bind_error, empty_not_restored]
  have torn : Frames.Torn Framed frame [] := .inl rfl
  have scanned : Frames.scan readFrame (recoverPayload wire files options)
      ((framed records ++ []).length + 1) 0 (framed records ++ [])
        { assembly := .new (framed records ++ []).length, store := fresh }
      = (.error (.storage .snapshotEncoding),
          { assembly := .new (framed records ++ []).length, store := fresh }) := by
    rw [scan_framed recorded torn some (Nat.lt_succ_self _)]
    exact bind_error refused
  rw [opens]
  simp only [Journal.recover, scanned]
  exact ⟨_, rfl⟩

end Image

/-! ## A peer's checkpoint -/

namespace DurablePeer
section Sequences
variable {σ κ α β : Type} {peer after : DurablePeer σ κ}

theorem bind_ok_inv {run : PeerM σ κ α} {rest : α → PeerM σ κ β} {value : β}
    (ran : (run >>= rest) peer = (.ok value, after)) :
    ∃ result middle, run peer = (.ok result, middle) ∧ rest result middle = (.ok value, after) := by
  rcases first : run peer with ⟨error | result, middle⟩
  · grind [bind_error]
  · grind [bind_ok]

theorem refuse_bind_ok {refused : DurablePeer σ κ → Bool} {error : PeerError}
    {rest : Unit → PeerM σ κ α} {value : α}
    (ran : (refuse refused error >>= rest) peer = (.ok value, after)) :
    refused peer = false ∧ rest () peer = (.ok value, after) := by
  obtain ⟨⟨⟩, middle, passed, ran⟩ := bind_ok_inv ran
  unfold refuse at passed
  grind

theorem outcome_bind_ok {result : Except PeerError α} {rest : α → PeerM σ κ β} {value : β}
    (ran : (outcome result >>= rest) peer = (.ok value, after)) :
    ∃ read, result = .ok read ∧ rest read peer = (.ok value, after) := by
  obtain ⟨read, middle, passed, ran⟩ := bind_ok_inv ran
  cases passed
  exact ⟨read, rfl, ran⟩

end Sequences

set_option linter.unusedSectionVars false

variable {σ κ : Type} [MemStorage σ] [LawfulMemStorage σ] [RawNode σ κ] {wire : Wire}
  {files : Payloads} {peer after : DurablePeer σ κ} {data : Bytes} {payload : Option Blob}
  {index : Nat} {configuration : Option ConfState}

/-- The hard state, the checkpoint with its payload and the entries after it are the same. -/
structure SameHistory (live restored : PeerStorage σ) : Prop where
  hardState_eq : hardState restored.memory = hardState live.memory
  floor_eq : floor restored.memory = floor live.memory
  log_eq : log restored.memory = log live.memory
  checkpoint_eq : restored.checkpoint = live.checkpoint
  payload_eq : restored.payload = live.payload

def Reopens (wire : Wire) (files : Payloads) (locked : Bool) (peer : DurablePeer σ κ) : Prop :=
  ∃ journal restored, Journal.open wire files peer.options locked (some peer.journal.bytes)
      (freshStore peer.options peer.store.permitted) = (.ok journal, restored) ∧
    SameHistory peer.store restored

structure Publishes (wire : Wire) (peer after : DurablePeer σ κ) (snapshot : Snapshot)
    (suffix : List Entry) (payload : Option Blob) : Prop where
  rewritten : rewrite wire peer.options snapshot (wire.encodeSnapshot snapshot)
    (hardState peer.store.memory) suffix payload peer.journal = (.ok (), after.journal)
  installed : ∃ live, installLocal wire peer.directory (checkpointBatch wire peer.options snapshot
      (hardState peer.store.memory) suffix payload) snapshot payload peer.store = (.ok (), live) ∧
    after.store = { live with memory := setConfState peer.confState live.memory }
  options_eq : after.options = peer.options

variable {snapshot : Snapshot} {suffix : List Entry}

theorem publish_ok {hs : HardState} {current : ConfState}
    (ran : publish wire snapshot hs suffix payload current peer = (.ok (), after)) :
    rewrite wire peer.options snapshot (wire.encodeSnapshot snapshot) hs suffix payload peer.journal
        = (.ok (), after.journal) ∧ (∃ live, installLocal wire peer.directory
          (checkpointBatch wire peer.options snapshot hs suffix payload) snapshot payload peer.store
          = (.ok (), live) ∧
        after.store = { live with memory := setConfState current live.memory }) ∧
      after.options = peer.options := by
  obtain ⟨⟨⟩, first, rewritten, ran⟩ := bind_ok_inv ran
  obtain ⟨⟨⟩, second, installed, ran⟩ := bind_ok_inv ran
  unfold onJournal at rewritten
  rcases wrote : rewrite wire peer.options snapshot (wire.encodeSnapshot snapshot) hs suffix payload
    peer.journal with ⟨outcome, journal⟩
  rw [wrote] at rewritten
  cases rewritten
  unfold onStore at installed
  rcases placed : installLocal wire peer.directory
    (checkpointBatch wire peer.options snapshot hs suffix payload) snapshot payload peer.store
    with ⟨outcome, live⟩
  simp only [placed] at installed
  cases installed
  cases ran
  exact ⟨rfl, ⟨live, rfl, rfl⟩, rfl⟩

theorem checkpointPayloadAt_publishes
    (ran : checkpointPayloadAt wire data payload index configuration peer = (.ok (), after)) :
    ∃ snapshot suffix, snapshot.data = data ∧
      snapshot.getMetadata.getConfState = configuration.getD peer.confState ∧
      Publishes wire peer after snapshot suffix payload := by
  obtain ⟨-, ran⟩ := refuse_bind_ok ran
  obtain ⟨-, ran⟩ := refuse_bind_ok ran
  obtain ⟨snapshot, captured, ran⟩ := outcome_bind_ok ran
  obtain ⟨⟨⟩, -, ran⟩ := outcome_bind_ok ran
  obtain ⟨suffix, -, ran⟩ := outcome_bind_ok ran
  have content : snapshot.data = data ∧
      snapshot.getMetadata.getConfState = configuration.getD peer.confState := by
    unfold capturedSnapshot at captured
    split at captured
    · cases captured
    · cases captured
      exact ⟨rfl, rfl⟩
  unfold stopping at ran
  rcases done : publish wire snapshot (hardState peer.store.memory) suffix payload peer.confState peer
    with ⟨error | done, reached⟩
  · grind
  rw [done] at ran
  cases ran
  obtain ⟨rewritten, installed, options⟩ := publish_ok done
  exact ⟨snapshot, suffix, content.1, content.2, rewritten, installed, options⟩

theorem checkpointBatch_eq (wire : Wire) (options : PeerOptions) (snapshot : Snapshot)
    (hs : HardState) (entries : List Entry) (payload : Option Blob) :
    checkpointBatch wire options snapshot hs entries payload
      = publishedRecord wire options snapshot hs entries payload := by
  cases payload <;> rfl

theorem freshStore_initial (options : PeerOptions) (permitted : List Nat) :
    Initial (freshStore options permitted : PeerStorage σ) where
  hardState_eq := hardState_new options.voters
  log_eq := log_new options.voters
  floor_eq := by
    show (floor (newWithConfState options.voters : σ)).index = 0
    rw [floor_new]
    rfl

theorem Publishes.published
    (publishes : Publishes wire peer after snapshot suffix payload)
    (same : peer.journal.permitted = peer.store.permitted) : ∃ live groups records,
      Published wire peer.options peer.store live snapshot payload suffix
        (hardState peer.store.memory) ∧
      Imaged wire peer.options snapshot (hardState peer.store.memory) suffix payload
        peer.store.permitted after.journal groups records ∧
      after.store = { live with memory := setConfState peer.confState live.memory } := by
  obtain ⟨live, installed, stored⟩ := publishes.installed
  obtain ⟨groups, records, imaged⟩ := rewrite_ok publishes.rewritten
  rw [same] at imaged
  rw [installLocal, checkpointBatch_eq] at installed
  have captured : (payload.elim SnapshotSource.journal .localCapture).captured = payload := by
    cases payload <;> rfl
  exact ⟨live, groups, records, installFrom_published captured installed, imaged, stored⟩

theorem manifest_ne_nil {blob : Blob}
    (bare : ∀ manifest, wire.manifest.encode manifest = [] → manifest = default)
    (available : Available wire files blob) : wire.manifest.encode blob.manifest ≠ [] := by
  intro empty
  have none := bare _ empty
  unfold Available Blob.open at available
  rw [wire.manifest.decode_encode, none] at available
  cases available

theorem Publishes.opens
    (publishes : Publishes wire peer after snapshot suffix payload)
    (same : peer.journal.permitted = peer.store.permitted)
    (bare : ∀ manifest, wire.manifest.encode manifest = [] → manifest = default)
    (available : ∀ blob ∈ payload, Available wire files blob)
    (held : payload.isSome ∨ snapshot.data ≠ []) (locked : Bool) :
    ∃ journal restored, Journal.open wire files after.options locked (some after.journal.bytes)
        (freshStore after.options after.store.permitted) = (.ok journal, restored) ∧
      SameHistory after.store restored ∧
      MemStorage.confState restored.memory = snapshot.getMetadata.getConfState := by
  obtain ⟨live, groups, records, published, imaged, stored⟩ := publishes.published same
  have based := published.based
  have permitted : after.store.permitted = peer.store.permitted := by
    rw [stored]
    exact based.permitted_eq
  rw [publishes.options_eq, permitted]
  have agrees : (freshStore peer.options peer.store.permitted : PeerStorage σ).permitted
      = peer.store.permitted := rfl
  obtain ⟨journal, restored, opened, rebuilt⟩ := open_image
    (freshStore_initial peer.options peer.store.permitted) agrees published imaged
    (fun blob member => manifest_ne_nil bare (available blob member)) available held locked
  refine ⟨journal, restored, opened, ?_, rebuilt.confState_eq⟩
  rw [stored]
  exact ⟨by rw [hardState_setConfState, rebuilt.hardState_eq, based.hardState_eq],
    by rw [floor_setConfState, rebuilt.floor_eq, based.floor_eq],
    by rw [log_setConfState, rebuilt.log_eq, based.log_eq],
    by rw [rebuilt.checkpoint_eq, based.checkpoint_eq],
    by rw [rebuilt.payload_eq, based.payload_eq]⟩

theorem Publishes.not_reopens
    (publishes : Publishes wire peer after snapshot suffix none)
    (same : peer.journal.permitted = peer.store.permitted) (empty : snapshot.data = [])
    (files : Payloads) (locked : Bool) : ¬ Reopens wire files locked after := by
  obtain ⟨live, groups, records, published, imaged, stored⟩ := publishes.published same
  have permitted : after.store.permitted = peer.store.permitted := by
    rw [stored]
    exact published.based.permitted_eq
  rintro ⟨journal, restored, opened, -⟩
  have agrees : (freshStore after.options after.store.permitted : PeerStorage σ).permitted
      = peer.store.permitted := permitted
  rw [publishes.options_eq] at agrees opened
  obtain ⟨error, refused⟩ := open_empty agrees published imaged empty locked
  rw [opened] at refused
  cases refused

/-- **Checkpoint and reopen.** A checkpoint the peer published is found again, with the hard
state and the entries after it, exactly when it has a payload file or some data. -/
theorem checkpoint_reopens_iff (same : peer.journal.permitted = peer.store.permitted)
    (ran : checkpointPayloadAt wire data payload index configuration peer = (.ok (), after))
    (bare : ∀ manifest, wire.manifest.encode manifest = [] → manifest = default)
    (available : ∀ blob ∈ payload, Available wire files blob) (locked : Bool) :
    Reopens wire files locked after ↔ payload.isSome ∨ data ≠ [] := by
  obtain ⟨snapshot, suffix, rfl, -, publishes⟩ := checkpointPayloadAt_publishes ran
  constructor
  · intro reopens
    by_contra missing
    obtain ⟨none, empty⟩ := not_or.mp missing
    obtain rfl : payload = .none := by simpa using none
    exact publishes.not_reopens same (by simpa using empty) files locked reopens
  · intro held
    obtain ⟨journal, restored, opened, rebuilt, -⟩ :=
      publishes.opens same bare available held locked
    exact ⟨journal, restored, opened, rebuilt⟩

/-! ## Two checkpoints of one entry -/

def oneEntryPeer : DurablePeer LogImage SettledCore where
  options := { groupId := 1, nodeId := 1, voters := [1] }
  raw := { term := 1, applied := 1, last := 1 }
  store :=
    { permitted := []
      memory :=
        { hardState := { term := 1, vote := 1, commit := 1 }
          confState := { (default : ConfState) with voters := [1] }
          floor := default
          log := [{ (default : Entry) with term := 1, index := 1, data := [7] }] }
      checkpoint := none
      payload := none
      retired := [] }
  journal := .reopened [] []
  failed := false
  pendingRead := none
  restoreOnOpen := none
  stream := .new []
  directory := fun _ => none
  history := []

theorem protobuf_bare (manifest : Manifest) (empty : protobuf.manifest.encode manifest = []) :
    manifest = default := by
  have read := protobuf.manifest.decode_encode manifest
  rw [empty] at read
  have blank : protobuf.manifest.decode [] = some default := by decide +kernel
  exact (Option.some.inj (blank.symm.trans read)).symm

theorem ran_of_ok {α : Type} {run : PeerM σ κ α} {value : α} (ok : (run peer).1 = .ok value) :
    run peer = (.ok value, (run peer).2) := Prod.ext ok rfl

theorem one_entry_checkpoint_reopens :
    ∃ after, checkpointPayloadAt protobuf [7] none 1 none oneEntryPeer = (.ok (), after) ∧
      Reopens protobuf (fun _ => none) false after := by
  have accepted : (checkpointPayloadAt protobuf [7] none 1 none oneEntryPeer).1 = .ok () := by
    decide +kernel
  exact ⟨_, ran_of_ok accepted, (checkpoint_reopens_iff rfl (ran_of_ok accepted) protobuf_bare nofun
    false).mpr (.inr (by decide))⟩

/-- The application hands over no bytes: the peer takes the checkpoint, and its journal cannot be
opened again. -/
theorem empty_checkpoint_is_lost :
    ∃ after, checkpointPayloadAt protobuf [] none 1 none oneEntryPeer = (.ok (), after) ∧
      ¬ Reopens protobuf (fun _ => none) false after := by
  have accepted : (checkpointPayloadAt protobuf [] none 1 none oneEntryPeer).1 = .ok () := by
    decide +kernel
  obtain ⟨snapshot, suffix, empty, -, publishes⟩ :=
    checkpointPayloadAt_publishes (ran_of_ok accepted)
  exact ⟨_, ran_of_ok accepted, publishes.not_reopens rfl empty _ false⟩

end DurablePeer
end MatrixRaft.Peer
