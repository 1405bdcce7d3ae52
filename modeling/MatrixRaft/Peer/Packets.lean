/-
# Peer.Packets — one encoding for every packet

A packet is read by hand, field by field, and only in the form the writer gives it: a number
in its shortest form, a packet exactly when it is the packet's own encoding.
-/
import MatrixRaft.Peer.Raw

namespace MatrixRaft.Peer
open Theory List Option

/-! ## Numbers -/

theorem takeVarintFrom_varint {index value n : Nat} (rest : Bytes) (inside : index < 10)
    (room : n < 2 ^ (64 - 7 * index))
    (whole : (varint (value + n * 128 ^ index)).length = index + (varint n).length) :
    takeVarintFrom index value (varint n ++ rest) = some (value + n * 128 ^ index, rest) := by
  induction n using Nat.strongRecOn generalizing index value with
  | ind n ih =>
    rcases lt_or_ge n 128 with small | large
    · have digit : (UInt8.ofNat n).toNat = n := toNat_ofNat_of_lt (by omega)
      have last : ¬ (index ≥ 10 ∨ (index = 9 ∧ n > 1)) := by grind
      rw [varint_of_lt small, length_singleton] at whole
      rw [varint_of_lt small, singleton_append, takeVarintFrom, digit, if_neg last, if_pos small,
        Nat.mod_eq_of_lt small, if_pos whole]
    · have digit : (UInt8.ofNat (128 + n % 128)).toNat = 128 + n % 128 :=
        toNat_ofNat_of_lt (by omega)
      have early : index ≤ 8 := by grind
      have low : (128 + n % 128) % 128 = n % 128 := by omega
      have sum : value + n % 128 * 128 ^ index + n / 128 * 128 ^ (index + 1)
          = value + n * 128 ^ index := by
        have parts : n % 128 + n / 128 * 128 = n := by omega
        grind
      have fewer : n / 128 < 2 ^ (64 - 7 * (index + 1)) := by
        have width : 64 - 7 * index = 7 + (64 - 7 * (index + 1)) := by omega
        grind
      rw [varint_of_ge large] at whole ⊢
      rw [cons_append, takeVarintFrom, digit, if_neg (by omega), if_neg (by omega), low,
        ih (n / 128) (by omega) (by omega) fewer, sum]
      grind

variable {input rest : Bytes}

/-- A number the reader accepts was in its shortest form, and within 64 bits. -/
theorem takeVarintFrom_inv {index value result : Nat}
    (read : takeVarintFrom index value input = some (result, rest)) : ∃ n, readVarint input =
    some (n, rest) ∧ result = value + n * 128 ^ index ∧ (varint result).length + rest.length =
    index + input.length ∧ n < 2 ^ (64 - 7 * index) := by
  induction input generalizing index value with
  | nil => cases read
  | cons byte tail ih =>
    rw [takeVarintFrom] at read
    split at read
    · cases read
    split at read
    · rename_i small
      simp only at read
      split at read
      · cases read
        refine ⟨byte.toNat, by rw [readVarint, if_pos small], by rw [Nat.mod_eq_of_lt small], ?_, ?_⟩
        · grind
        rcases lt_or_ge index 9 with early | late
        · have wide : 7 ≤ 64 - 7 * index := by omega
          calc byte.toNat < 2 ^ 7 := small
            _ ≤ 2 ^ (64 - 7 * index) := Nat.pow_le_pow_right (by decide) wide
        · grind
      · cases read
    · rename_i large
      obtain ⟨n, found, rfl, short, fits⟩ := ih read
      have bound := byte.toNat_lt
      have digit : byte.toNat % 128 = byte.toNat - 128 := by omega
      refine ⟨byte.toNat - 128 + 128 * n, ?_, ?_, ?_, ?_⟩
      · rw [readVarint, if_neg large, found, map_some]
      · rw [digit]
        ring
      · grind
      have width : 64 - 7 * index = 7 + (64 - 7 * (index + 1)) := by omega
      grind

/-- **A number is accepted exactly in its shortest form.** -/
theorem takeCanonicalVarint_eq_some {n : Nat} : takeCanonicalVarint input = some (n, rest) ↔ input =
    varint n ++ rest ∧ n ≤ u64Max := by
  constructor
  · intro read
    obtain ⟨number, found, rfl, short, fits⟩ := takeVarintFrom_inv read
    rw [pow_zero, mul_one, zero_add] at short ⊢
    exact ⟨eq_of_readVarint found (by omega), Nat.le_of_lt_succ fits⟩
  · rintro ⟨rfl, fits⟩
    have read : takeVarintFrom 0 0 (varint n ++ rest) = some (0 + n * 128 ^ 0, rest) :=
      takeVarintFrom_varint rest (by decide) (Nat.lt_succ_of_le fits) (by simp)
    rwa [pow_zero, mul_one, zero_add] at read

/-! ## Fields -/

/-- A numbered field as the packet writes it: its key, and nothing when it is `0`. -/
def keyed (key : UInt8) (value : Nat) : Bytes := if value = 0 then [] else key :: varint value

def enclosed (message : Bytes) : Bytes :=
  if message = [] then [] else 0x1a :: (varint message.length ++ message)

theorem takeField_present {key : UInt8} {value : Nat} (present : value ≠ 0) (fits : value ≤ u64Max)
    (rest : Bytes) : takeField key (keyed key value ++ rest) = some (value, rest) := by
  have number : takeCanonicalVarint (varint value ++ rest) = some (value, rest) :=
    takeCanonicalVarint_eq_some.mpr ⟨rfl, fits⟩
  simp only [takeField, keyed, if_neg present, cons_append, head?_cons, if_true, tail_cons,
    number]

theorem takeField_absent {key : UInt8} {input : Bytes} (absent : input.head? ≠ some key) :
    takeField key input = some (0, input) := if_neg absent

theorem takeField_inv {key : UInt8} {value : Nat}
    (read : takeField key input = some (value, rest)) : input = keyed key value ++ rest ∧
    value ≤ u64Max := by
  unfold takeField at read
  split at read
  · rename_i here
    obtain ⟨tail, rfl⟩ := head?_eq_some_iff.mp here
    rw [tail_cons] at read
    rcases taken : takeCanonicalVarint tail with _ | ⟨number, left⟩
    · grind
    split at read
    · cases read
    · grind [keyed, takeCanonicalVarint_eq_some]
  · cases read
    exact ⟨rfl, Nat.zero_le _⟩

theorem takeMessage_enclosed {message : Bytes} (fits : message.length ≤ u64Max) :
    takeMessage (enclosed message) = some message := by
  unfold enclosed
  split
  · rename_i empty
    rw [empty]
    rfl
  · rename_i present
    have number : takeCanonicalVarint (varint message.length ++ message)
        = some (message.length, message) := takeCanonicalVarint_eq_some.mpr ⟨rfl, fits⟩
    simp [present, takeMessage, number]

theorem takeMessage_inv {input message : Bytes} (read : takeMessage input = some message) :
    input = enclosed message ∧ message.length ≤ u64Max := by
  unfold takeMessage at read
  split at read
  · rename_i here
    obtain ⟨tail, rfl⟩ := head?_eq_some_iff.mp here
    rw [tail_cons] at read
    rcases taken : takeCanonicalVarint tail with _ | ⟨length, rest⟩
    · grind
    simp only [taken] at read
    split at read
    · cases read
    rename_i fit
    grind [enclosed, takeCanonicalVarint_eq_some]
  · split at read
    · rename_i empty
      cases read
      exact ⟨empty, Nat.zero_le _⟩
    · cases read

/-! ## Packets -/

theorem writeFields_packetFields (version group : Nat) (message : Bytes) :
    writeFields (packetFields version group message)
      = keyed 0x08 version ++ (keyed 0x10 group ++ enclosed message) := by
  have one : varint (1 * 8 + 0) = [0x08] := by decide
  have two : varint (2 * 8 + 0) = [0x10] := by decide
  have three : varint (3 * 8 + 2) = [0x1a] := by decide
  have number (tag : Nat) (key : UInt8) (value : Nat) (shape : varint (tag * 8 + 0) = [key]) :
      writeFields (numberField tag value) = keyed key value := by
    unfold numberField keyed
    split
    · rfl
    · simp only [writeFields, flatMap_cons, flatMap_nil, Field.write, Field.kind, Field.body, shape,
        append_nil, singleton_append]
  have bytes : writeFields (bytesField 3 message) = enclosed message := by
    unfold bytesField enclosed
    split
    · rfl
    · simp [writeFields, Field.write, Field.kind, Field.body, three]
  simp [packetFields, number 1 0x08 version one, number 2 0x10 group two, bytes]

/-- **A packet is accepted exactly when it is its own encoding.** -/
theorem decodeCanonicalPacket_eq_some {bytes message : Bytes} {version group : Nat} :
    decodeCanonicalPacket bytes = some (version, group, message) ↔
      (version ≠ 0 ∧ version < 2 ^ 32 ∧ group ≤ u64Max ∧ message.length ≤ u64Max) ∧
        bytes = writeFields (packetFields version group message) := by
  rw [writeFields_packetFields]
  have absent : (enclosed message).head? ≠ some 0x10 := by
    unfold enclosed
    split <;> simp
  have wide : 2 ^ 32 ≤ u64Max := by decide
  unfold decodeCanonicalPacket
  constructor
  · intro read
    rw [bind_eq_bind, bind_eq_some_iff] at read
    obtain ⟨⟨first, rest⟩, one, read⟩ := read
    simp only at read
    split at read
    · cases read
    rw [bind_eq_bind, bind_eq_some_iff] at read
    obtain ⟨⟨second, left⟩, two, read⟩ := read
    rw [bind_eq_some_iff] at read
    obtain ⟨third, three, read⟩ := read
    cases read
    obtain ⟨rfl, -⟩ := takeField_inv one
    obtain ⟨rfl, small⟩ := takeField_inv two
    obtain ⟨rfl, short⟩ := takeMessage_inv three
    exact ⟨⟨by omega, by omega, small, short⟩, rfl⟩
  · rintro ⟨⟨present, small, grouped, short⟩, rfl⟩
    have one : takeField 0x08 (keyed 0x08 version ++ (keyed 0x10 group ++ enclosed message))
        = some (version, keyed 0x10 group ++ enclosed message) :=
      takeField_present present (by omega) _
    have two : takeField 0x10 (keyed 0x10 group ++ enclosed message)
        = some (group, enclosed message) := by
      by_cases zero : group = 0
      · rw [zero]
        exact takeField_absent absent
      · exact takeField_present zero grouped _
    have three : takeMessage (enclosed message) = some message := takeMessage_enclosed short
    grind

theorem encodeEnvelope_eq_ok {version group : Nat} {message bytes : Bytes} :
    encodeEnvelope version group message = .ok bytes ↔
      bytes.length ≤ limit ∧ bytes = writeFields (packetFields version group message) := by
  unfold encodeEnvelope
  grind

theorem length_message_le (version group : Nat) (message : Bytes) :
    message.length ≤ (writeFields (packetFields version group message)).length := by
  rw [writeFields_packetFields, length_append, length_append, enclosed]
  grind

/-- **The packet codec is exact.**  Up to `limit` bytes are accepted exactly when `encodeEnvelope`
produces them for what is returned.  No two byte strings decode to the same packet, and every
encoded packet decodes to itself. -/
theorem packet_codec_exact : (∀ bytes kind group message, bytes.length ≤ limit →
      (decodeCanonicalPacket bytes = some (kind, group, message) ↔
        (kind ≠ 0 ∧ kind < 2 ^ 32 ∧ group ≤ u64Max) ∧ encodeEnvelope kind group message = .ok bytes)) ∧
      (∀ bytes other packet, decodeCanonicalPacket bytes = some packet →
        decodeCanonicalPacket other = some packet → other = bytes) ∧
      ∀ kind group message encoded, kind ≠ 0 → kind < 2 ^ 32 → group ≤ u64Max →
        encodeEnvelope kind group message = .ok encoded →
          decodeCanonicalPacket encoded = some (kind, group, message) := by
  have wide : limit ≤ u64Max := by decide
  refine ⟨fun bytes kind group message small => ?_, ?_, ?_⟩
  · rw [decodeCanonicalPacket_eq_some, encodeEnvelope_eq_ok]
    constructor
    · rintro ⟨⟨present, kinds, groups, -⟩, rfl⟩
      exact ⟨⟨present, kinds, groups⟩, small, rfl⟩
    rintro ⟨⟨present, kinds, groups⟩, -, rfl⟩
    have short := length_message_le kind group message
    exact ⟨⟨present, kinds, groups, by omega⟩, rfl⟩
  · rintro bytes other ⟨kind, group, message⟩ mine theirs
    rw [(decodeCanonicalPacket_eq_some.mp mine).2, (decodeCanonicalPacket_eq_some.mp theirs).2]
  · intro kind group message encoded present kinds groups wrote
    obtain ⟨fits, rfl⟩ := encodeEnvelope_eq_ok.mp wrote
    have short := length_message_le kind group message
    exact decodeCanonicalPacket_eq_some.mpr ⟨⟨present, kinds, groups, by omega⟩, rfl⟩

theorem packet_codec_exact_short :
    decodeCanonicalPacket [0x08, 1, 0x10, 17, 0x1a, 2, 7, 9] = some (1, 17, [7, 9]) := by
  have written : encodeEnvelope 1 17 [7, 9] = .ok [0x08, 1, 0x10, 17, 0x1a, 2, 7, 9] := by decide +kernel
  exact (packet_codec_exact.1 [0x08, 1, 0x10, 17, 0x1a, 2, 7, 9] 1 17 [7, 9] (by decide)).mpr
    ⟨by decide, written⟩

/-- A packet that is too large to be sent is still decoded; its length is checked before. -/
theorem oversized_packet_decodes :
    decodeCanonicalPacket (writeFields (packetFields 1 17 (List.replicate limit 0)))
        = some (1, 17, List.replicate limit 0) ∧
      ∀ kind group message, encodeEnvelope kind group message
        ≠ .ok (writeFields (packetFields 1 17 (List.replicate limit 0))) := by
  have size : (List.replicate limit (0 : UInt8)).length = limit := length_replicate
  revert size
  generalize List.replicate limit (0 : UInt8) = message
  intro size
  refine ⟨decodeCanonicalPacket_eq_some.mpr ⟨⟨by decide, by decide, by decide, ?_⟩, rfl⟩, ?_⟩
  · rw [size]
    decide
  intro kind group other wrote
  have small := (encodeEnvelope_eq_ok.mp wrote).1
  have present : message ≠ [] := by
    rintro rfl
    exact absurd size (by decide)
  rw [writeFields_packetFields, length_append, length_append, enclosed, if_neg present,
    length_cons, length_append] at small
  omega

end MatrixRaft.Peer
