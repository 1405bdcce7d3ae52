/-
# Peer.Wire — the records of the peer journal as bytes

The bytes of a `WalBatch`, the record of the peer journal, of an `Entry` and of a `Snapshot`
are spelled out by `peer_runtime.rs` field by field (`exact_batch_encoding`,
`write_decoded_entry_record_into`, `exact_snapshot_encoding`); the decoders, and the raft
core's other messages, are the protobuf library's.
-/
import MatrixRaft.Peer.Core

namespace MatrixRaft.Peer
open Theory

/-! ## Records -/

structure WalBatch where
  (version group node : Nat)
  voters : List Nat
  hardState : Bytes
  entries : List Bytes
  snapshot : Bytes
  (snapshotOffset snapshotTotal : Nat)
  snapshotDigest : UInt64
  payloadManifest : Bytes
  permitted : List Nat
  deriving DecidableEq, Inhabited

/-- The file a streamed checkpoint keeps its payload in. -/
structure Manifest where
  version : Nat
  name : Bytes
  length : Nat
  checksum : UInt64
  deriving DecidableEq, Inhabited

/-! ## Encoding -/

def Entry.fields (entry : Entry) : Fields :=
  numberField 1 entry.entryType ++ numberField 2 entry.term ++ numberField 3 entry.index ++
    bytesField 4 entry.data ++ numberField 5 entry.syncLog.toNat ++ bytesField 6 entry.context

def Entry.encode (entry : Entry) : Bytes := writeFields entry.fields

def WalBatch.fields (batch : WalBatch) : Fields :=
  numberField 1 batch.version ++ numberField 2 batch.group ++ numberField 3 batch.node ++
    packedField 4 batch.voters ++ bytesField 5 batch.hardState ++
    (batch.entries.map fun entry => (6, Field.bytes entry)) ++ bytesField 7 batch.snapshot ++
    numberField 8 batch.snapshotOffset ++ numberField 9 batch.snapshotTotal ++
    numberField 10 batch.snapshotDigest.toNat ++ bytesField 11 batch.payloadManifest ++
    packedField 12 batch.permitted

def WalBatch.encode (batch : WalBatch) : Bytes := writeFields batch.fields

def Snapshot.fields (metadata : SnapshotMetadata → Bytes) (snapshot : Snapshot) : Fields :=
  bytesField 1 snapshot.data ++ optionalField 2 (snapshot.metadata.map metadata)

/-- The protobuf library: the encodings this repository does not spell out, and the decoders. -/
structure Wire where
  hardState : Codec HardState
  hardState_empty : ∀ hs, hardState.encode hs = [] → hs = default
  metadata : Codec SnapshotMetadata
  change : Codec ConfChangeV2
  manifest : Codec Manifest
  decodeEntry : Bytes → Option Entry
  decodeEntry_encode : ∀ entry : Entry, decodeEntry entry.encode = some entry
  decodeBatch : Bytes → Option WalBatch
  decodeBatch_encode : ∀ batch : WalBatch, decodeBatch batch.encode = some batch
  decodeSnapshot : Bytes → Option Snapshot
  decodeSnapshot_encode : ∀ snapshot : Snapshot,
    decodeSnapshot (writeFields (snapshot.fields metadata.encode)) = some snapshot

def Wire.encodeSnapshot (wire : Wire) (snapshot : Snapshot) : Bytes :=
  writeFields (snapshot.fields wire.metadata.encode)

/-! ## Checksums -/

def digestExtend (state : UInt64) (bytes : Bytes) : UInt64 :=
  bytes.foldl (fun hash byte => (hash ^^^ byte.toUInt64) * 0x100000001b3) state

def digest (bytes : Bytes) : UInt64 := digestExtend 0xcbf29ce484222325 bytes

/-! ## The library's format -/

def Entry.ofFields (fields : Fields) : Option Entry :=
  some
    { entryType := numberAt 1 fields
      term := numberAt 2 fields
      index := numberAt 3 fields
      data := blobAt 4 fields
      syncLog := numberAt 5 fields != 0
      context := blobAt 6 fields }

def WalBatch.ofFields (fields : Fields) : Option WalBatch := do
  let voters ← packedAt 4 fields
  let permitted ← packedAt 12 fields
  some
    { version := numberAt 1 fields
      group := numberAt 2 fields
      node := numberAt 3 fields
      voters := voters
      hardState := blobAt 5 fields
      entries := bytesAt 6 fields
      snapshot := blobAt 7 fields
      snapshotOffset := numberAt 8 fields
      snapshotTotal := numberAt 9 fields
      snapshotDigest := .ofNat (numberAt 10 fields)
      payloadManifest := blobAt 11 fields
      permitted := permitted }

theorem Entry.ofFields_fields (entry : Entry) : Entry.ofFields entry.fields = some entry := by
  obtain ⟨entryType, term, index, data, syncLog, context⟩ := entry
  cases syncLog <;> simp [Entry.ofFields, Entry.fields, numberAt, blobAt]

theorem WalBatch.ofFields_fields (batch : WalBatch) :
    WalBatch.ofFields batch.fields = some batch := by
  simp [WalBatch.ofFields, WalBatch.fields, numberAt, blobAt, packedAt, packedField,
    -List.flatMap_eq_nil_iff, -List.length_flatMap]

def entryCodec : Codec Entry := .ofFields Entry.fields Entry.ofFields Entry.ofFields_fields

def batchCodec : Codec WalBatch :=
  .ofFields WalBatch.fields WalBatch.ofFields WalBatch.ofFields_fields

def hardStateCodec : Codec HardState :=
  .ofFields
    (fun hs => numberField 1 hs.term ++ numberField 2 hs.vote ++ numberField 3 hs.commit)
    (fun fields => some ⟨numberAt 1 fields, numberAt 2 fields, numberAt 3 fields⟩)
    (fun hs => by simp [numberAt])

def confStateCodec : Codec ConfState :=
  .ofFields
    (fun conf =>
      packedField 1 conf.voters ++ packedField 2 conf.learners ++
        packedField 3 conf.votersOutgoing ++ packedField 4 conf.learnersNext ++
        numberField 5 conf.autoLeave.toNat)
    (fun fields => do
      some ⟨← packedAt 1 fields, ← packedAt 2 fields, ← packedAt 3 fields, ← packedAt 4 fields,
        numberAt 5 fields != 0⟩)
    (fun conf => by
      obtain ⟨voters, learners, votersOutgoing, learnersNext, autoLeave⟩ := conf
      cases autoLeave <;> simp [numberAt, blobAt, packedAt, packedField,
        -List.flatMap_eq_nil_iff, -List.length_flatMap])

def metadataCodec : Codec SnapshotMetadata :=
  .ofFields
    (fun metadata =>
      optionalField 1 (metadata.confState.map confStateCodec.encode) ++
        numberField 2 metadata.index ++ numberField 3 metadata.term)
    (fun fields =>
      match (bytesAt 1 fields).getLast? with
      | none => some ⟨none, numberAt 2 fields, numberAt 3 fields⟩
      | some held => (confStateCodec.decode held).map fun conf =>
        ⟨some conf, numberAt 2 fields, numberAt 3 fields⟩)
    (fun metadata => by
      obtain ⟨confState, index, term⟩ := metadata
      cases confState <;> simp [numberAt, confStateCodec.decode_encode])

def changeSingleCodec : Codec ConfChangeSingle :=
  .ofFields
    (fun change => numberField 1 change.changeType ++ numberField 2 change.nodeId)
    (fun fields => some ⟨numberAt 1 fields, numberAt 2 fields⟩)
    (fun change => by simp [numberAt])

def changeCodec : Codec ConfChangeV2 :=
  .ofFields
    (fun change =>
      numberField 1 change.transition ++
        ((change.changes.map changeSingleCodec.encode).map fun held => (2, Field.bytes held)) ++
        bytesField 3 change.context)
    (fun fields =>
      ((bytesAt 2 fields).mapM changeSingleCodec.decode).map fun changes =>
        ⟨numberAt 1 fields, changes, blobAt 3 fields⟩)
    (fun change => by
      simp [numberAt, blobAt, changeSingleCodec.mapM_decode, -List.map_map])

def manifestCodec : Codec Manifest :=
  .ofFields
    (fun manifest =>
      numberField 1 manifest.version ++ bytesField 2 manifest.name ++
        numberField 3 manifest.length ++ fixedField 4 manifest.checksum)
    (fun fields =>
      some ⟨numberAt 1 fields, blobAt 2 fields, numberAt 3 fields,
        (wordsAt 4 fields).getLast?.getD 0⟩)
    (fun manifest => by
      obtain ⟨version, name, length, checksum⟩ := manifest
      simp only [numberAt, blobAt, wordsAt_append, wordsAt_numberField, wordsAt_bytesField,
        wordsAt_fixedField]
      by_cases zero : checksum = 0 <;> simp [zero])

def snapshotCodec : Codec Snapshot :=
  .ofFields
    (Snapshot.fields metadataCodec.encode)
    (fun fields =>
      match (bytesAt 2 fields).getLast? with
      | none => some ⟨blobAt 1 fields, none⟩
      | some held => (metadataCodec.decode held).map fun metadata => ⟨blobAt 1 fields, some metadata⟩)
    (fun snapshot => by
      obtain ⟨data, metadata⟩ := snapshot
      cases metadata <;> simp [Snapshot.fields, blobAt, metadataCodec.decode_encode])

/-- The format the protobuf library writes and reads. -/
def protobuf : Wire where
  hardState := hardStateCodec
  hardState_empty := by
    intro hs empty
    have read := hardStateCodec.decode_encode hs
    rw [empty] at read
    exact (Option.some.inj read).symm
  metadata := metadataCodec
  change := changeCodec
  manifest := manifestCodec
  decodeEntry := entryCodec.decode
  decodeEntry_encode := entryCodec.decode_encode
  decodeBatch := batchCodec.decode
  decodeBatch_encode := batchCodec.decode_encode
  decodeSnapshot := snapshotCodec.decode
  decodeSnapshot_encode := snapshotCodec.decode_encode

end MatrixRaft.Peer
