/-
# Theory.Wire — integers and tagged fields as bytes

The byte level of a record format: fixed-width big-endian integers, base-128
varints, messages as lists of numbered fields, and what whole blocks leave of a list.
-/
import Mathlib.Tactic

namespace Theory
open List

abbrev Bytes := List UInt8

theorem toNat_ofNat_of_lt {n : Nat} (small : n < 256) : (UInt8.ofNat n).toNat = n := by
  exact Nat.mod_eq_of_lt small

/-! ## Fixed-width integers -/

/-- The last `width` base-256 digits of a number, most significant first. -/
def bigEndian : Nat → Nat → Bytes
  | 0, _ => []
  | width + 1, n => bigEndian width (n / 256) ++ [UInt8.ofNat n]

def ofBigEndian (bytes : Bytes) : Nat := bytes.foldl (fun high byte => high * 256 + byte.toNat) 0

variable (width n : Nat)

@[simp] theorem length_bigEndian : (bigEndian width n).length = width := by
  induction width generalizing n with
  | zero => rfl
  | succ width ih => simp [bigEndian, ih]

theorem ofBigEndian_bigEndian (fits : n < 256 ^ width) : ofBigEndian (bigEndian width n) = n := by
  induction width generalizing n with
  | zero =>
    have : n = 0 := by simpa using fits
    simp [bigEndian, ofBigEndian, this]
  | succ width ih => grind [bigEndian, UInt8.toNat_ofNat', ofBigEndian]

/-- The digits with the least significant first. -/
def littleEndian (width n : Nat) : Bytes := (bigEndian width n).reverse

def ofLittleEndian (bytes : Bytes) : Nat := ofBigEndian bytes.reverse

@[simp] theorem length_littleEndian : (littleEndian width n).length = width := by
  simp [littleEndian]

theorem ofLittleEndian_littleEndian (fits : n < 256 ^ width) :
    ofLittleEndian (littleEndian width n) = n := by
  simp [ofLittleEndian, littleEndian, ofBigEndian_bigEndian width n fits]

/-! ## Hexadecimal text -/

def hexDigit (digit : Nat) : UInt8 := .ofNat (if digit < 10 then 48 + digit else 87 + digit)

def hexValue (character : UInt8) : Nat :=
  if character.toNat < 97 then character.toNat - 48 else character.toNat - 87

def isHexDigit (character : UInt8) : Bool :=
  (48 ≤ character && character ≤ 57) || (97 ≤ character && character ≤ 102)

def hexText : Nat → Nat → Bytes
  | 0, _ => []
  | width + 1, n => hexText width (n / 16) ++ [hexDigit (n % 16)]

/-- The number that hexadecimal digits spell. -/
def ofHexText (text : Bytes) : Nat :=
  text.foldl (fun high character => high * 16 + hexValue character) 0

theorem hexDigit_hexValue (character : UInt8) (digit : isHexDigit character = true) :
    hexValue character < 16 ∧ hexDigit (hexValue character) = character := by
  revert digit
  have every : ∀ value : Fin 256, isHexDigit (.ofNat value) = true →
      hexValue (.ofNat value) < 16 ∧ hexDigit (hexValue (.ofNat value)) = .ofNat value := by
    decide +kernel
  intro digit
  have spelled : UInt8.ofNat character.toNat = character := UInt8.ofNat_toNat
  have held := every ⟨character.toNat, character.toNat_lt⟩
  grind

theorem ofHexText_append (text : Bytes) (character : UInt8) :
    ofHexText (text ++ [character]) = ofHexText text * 16 + hexValue character := by
  simp [ofHexText]

theorem hexText_ofHexText (text : Bytes) (digits : text.all isHexDigit = true) :
    hexText text.length (ofHexText text) = text ∧ ofHexText text < 16 ^ text.length := by
  induction text using reverseRecOn with
  | nil => exact ⟨rfl, by decide⟩
  | append_singleton text character ih =>
    rw [all_append, Bool.and_eq_true] at digits
    obtain ⟨spelled, small⟩ := ih digits.1
    obtain ⟨value, digit⟩ := hexDigit_hexValue character (by simpa using digits.2)
    rw [ofHexText_append, length_append, length_singleton]
    constructor
    · rw [hexText, show (ofHexText text * 16 + hexValue character) / 16 = ofHexText text by omega,
        show (ofHexText text * 16 + hexValue character) % 16 = hexValue character by omega,
        spelled, digit]
    · omega

/-! ## Varints -/

/-- Seven bits a byte, least significant first, with at most `fuel` bytes. -/
def varintFrom : Nat → Nat → Bytes
  | 0, _ => []
  | fuel + 1, n =>
    if n < 128 then [UInt8.ofNat n]
    else UInt8.ofNat (128 + n % 128) :: varintFrom fuel (n / 128)

def varint (n : Nat) : Bytes := varintFrom (n.log2 + 1) n

def readVarint : Bytes → Option (Nat × Bytes)
  | [] => none
  | byte :: rest =>
    if byte.toNat < 128 then some (byte.toNat, rest)
    else (readVarint rest).map fun (high, tail) => (byte.toNat - 128 + 128 * high, tail)

theorem readVarint_varintFrom (fuel n : Nat) (rest : Bytes) (enough : n < 128 ^ (fuel + 1)) :
    readVarint (varintFrom (fuel + 1) n ++ rest) = some (n, rest) := by
  induction fuel generalizing n with
  | zero => grind [varintFrom, readVarint, toNat_ofNat_of_lt]
  | succ fuel ih =>
    rw [varintFrom]
    split
    · have read := toNat_ofNat_of_lt (show n < 256 by omega)
      simp_all only [singleton_append, readVarint, if_true]
    have high : n / 128 < 128 ^ (fuel + 1) := by omega
    have read := toNat_ofNat_of_lt (show 128 + n % 128 < 256 by omega)
    rw [cons_append, readVarint, read, if_neg (by omega), ih _ high, Option.map_some]
    grind

theorem lt_pow_log2 (n : Nat) : n < 128 ^ (n.log2 + 1) :=
  calc n < 2 ^ (n.log2 + 1) := Nat.lt_log2_self
    _ ≤ 128 ^ (n.log2 + 1) := Nat.pow_le_pow_left (by decide) _

theorem readVarint_varint (n : Nat) (rest : Bytes) :
    readVarint (varint n ++ rest) = some (n, rest) :=
  readVarint_varintFrom _ _ _ (lt_pow_log2 n)

theorem varint_ne_nil (n : Nat) : varint n ≠ [] := by
  intro empty
  have read := readVarint_varint n []
  rw [empty] at read
  cases read

theorem length_varintFrom_le {fuel n count : Nat} (small : n < 128 ^ count) (positive : 0 < count) :
    (varintFrom fuel n).length ≤ count := by
  induction fuel generalizing n count with
  | zero => exact Nat.zero_le _
  | succ fuel ih =>
    rw [varintFrom]
    split
    · exact positive
    obtain ⟨less, rfl⟩ : ∃ less, count = less + 1 := ⟨count - 1, by omega⟩
    have rest : n / 128 < 128 ^ less := by omega
    grind

theorem length_varint_le {n count : Nat} (small : n < 128 ^ count) (positive : 0 < count) :
    (varint n).length ≤ count := length_varintFrom_le small positive

theorem varint_of_lt {n : Nat} (small : n < 128) : varint n = [UInt8.ofNat n] := by
  rw [varint, varintFrom, if_pos small]

theorem varintFrom_of_fits {fuel other n : Nat} (fits : n < 128 ^ (fuel + 1))
    (fits' : n < 128 ^ (other + 1)) : varintFrom (fuel + 1) n = varintFrom (other + 1) n := by
  induction fuel generalizing n other with
  | zero => grind [varintFrom]
  | succ fuel ih =>
    rcases lt_or_ge n 128 with small | large
    · simp only [varintFrom, if_pos small]
    cases other with
    | zero => exact absurd fits' (by simpa using large)
    | succ => grind [varintFrom.eq_2]

theorem varint_of_ge {n : Nat} (large : 128 ≤ n) :
    varint n = UInt8.ofNat (128 + n % 128) :: varint (n / 128) := by
  have fits := lt_pow_log2 n
  obtain ⟨fuel, more⟩ : ∃ fuel, n.log2 = fuel + 1 := by
    refine ⟨n.log2 - 1, ?_⟩
    grind
  have high : n / 128 < 128 ^ (fuel + 1) := by grind
  rw [varint, varintFrom, if_neg (by omega), varint, more,
    varintFrom_of_fits high (lt_pow_log2 (n / 128))]

variable (tag : Nat)

theorem length_varint_key {kind : Nat} (small : kind < 8) :
    (varint (tag * 8 + kind)).length = (varint (tag * 8)).length := by
  by_cases short : tag * 8 < 128
  · rw [varint_of_lt short, varint_of_lt (by omega), length_singleton, length_singleton]
  · rw [varint_of_ge (by omega), varint_of_ge (n := tag * 8) (by omega),
      show (tag * 8 + kind) / 128 = tag * 8 / 128 by omega, length_cons, length_cons]

section
variable {input rest : Bytes} {n : Nat} (read : readVarint input = some (n, rest))
include read

theorem length_of_readVarint : rest.length < input.length := by
  induction input generalizing n with
  | nil => cases read
  | cons byte tail ih =>
    rw [readVarint] at read
    split at read
    · grind
    · rw [Option.map_eq_some_iff] at read
      grind

theorem eq_of_readVarint (short : (varint n).length + rest.length = input.length) :
    input = varint n ++ rest := by
  induction input generalizing n with
  | nil => cases read
  | cons byte tail ih =>
    rw [readVarint] at read
    split at read
    · grind [varint_of_lt, UInt8.ofNat_toNat]
    rw [Option.map_eq_some_iff] at read
    obtain ⟨⟨high, left⟩, read, same⟩ := read
    obtain ⟨rfl, rfl⟩ := same
    have bound := byte.toNat_lt
    rcases Nat.eq_zero_or_pos high with rfl | positive
    · -- the last byte has only zero bits: it is one too many
      rw [varint_of_lt (by omega)] at short
      have := length_of_readVarint read
      simp only [length_cons, length_nil] at short
      omega
    · have split : (byte.toNat - 128 + 128 * high) / 128 = high := by omega
      have low : (byte.toNat - 128 + 128 * high) % 128 = byte.toNat - 128 := by omega
      have first : UInt8.ofNat (128 + (byte.toNat - 128)) = byte := by grind [UInt8.ofNat_toNat]
      rw [varint_of_ge (by omega), split, low, first] at short ⊢
      grind

end

/-! ## Fields -/

inductive Field where
  | number (value : Nat)
  | fixed64 (value : UInt64)
  | bytes (value : Bytes)
  deriving DecidableEq

namespace Field

def kind : Field → Nat
  | number _ => 0
  | fixed64 _ => 1
  | bytes _ => 2

def body : Field → Bytes
  | number value => varint value
  | fixed64 value => (bigEndian 8 value.toNat).reverse
  | bytes value => varint value.length ++ value

def write (field : Field) : Bytes := varint (tag * 8 + field.kind) ++ field.body

def readBody (kind : Nat) (input : Bytes) : Option (Field × Bytes) :=
  match kind with
  | 0 => (readVarint input).map fun (value, rest) => (number value, rest)
  | 1 =>
    if 8 ≤ input.length then
      some (fixed64 (.ofNat (ofBigEndian (input.take 8).reverse)), input.drop 8)
    else none
  | 2 =>
    match readVarint input with
    | none => none
    | some (length, rest) =>
      if length ≤ rest.length then some (bytes (rest.take length), rest.drop length) else none
  | _ => none

theorem readBody_body (field : Field) (rest : Bytes) :
    readBody field.kind (field.body ++ rest) = some (field, rest) := by
  cases field with
  | number => simp [kind, body, readBody, readVarint_varint]
  | fixed64 value =>
    have read := ofBigEndian_bigEndian 8 value.toNat value.toNat_lt
    simp [kind, body, readBody, read]
  | bytes =>
    simp [kind, body, readBody, append_assoc, readVarint_varint]

end Field

abbrev Fields := List (Nat × Field)

variable (fields : Fields)

def writeFields : Bytes := fields.flatMap fun (tag, field) => field.write tag

@[simp] theorem writeFields_nil : writeFields [] = [] := rfl

@[simp] theorem writeFields_append (fields fields' : Fields) :
    writeFields (fields ++ fields') = writeFields fields ++ writeFields fields' :=
  flatMap_append

def readField (input : Bytes) : Option ((Nat × Field) × Bytes) :=
  match readVarint input with
  | none => none
  | some (key, rest) => (Field.readBody (key % 8) rest).map fun (field, tail) => ((key / 8, field), tail)

def readFieldsFrom : Nat → Bytes → Option Fields
  | _, [] => some []
  | 0, _ => none
  | fuel + 1, input =>
    match readField input with
    | none => none
    | some (field, rest) => (readFieldsFrom fuel rest).map (field :: ·)

def readFields (input : Bytes) : Option Fields := readFieldsFrom input.length input

theorem readField_write (field : Field) (rest : Bytes) :
    readField (field.write tag ++ rest) = some ((tag, field), rest) := by
  have kind : field.kind < 8 := by cases field <;> simp [Field.kind]
  rw [readField, Field.write, append_assoc, readVarint_varint]
  simp only
  rw [show (tag * 8 + field.kind) % 8 = field.kind by omega,
    show (tag * 8 + field.kind) / 8 = tag by omega, Field.readBody_body field rest]
  rfl

theorem write_ne_nil (field : Field) : field.write tag ≠ [] := by
  simp [Field.write, varint_ne_nil]

theorem readFieldsFrom_writeFields (fuel : Nat)
    (enough : fields.length ≤ fuel) : readFieldsFrom fuel (writeFields fields) = some fields := by
  induction fields generalizing fuel with
  | nil => cases fuel <;> rfl
  | cons entry fields ih =>
    obtain ⟨tag, field⟩ := entry
    obtain ⟨fuel, rfl⟩ : ∃ less, fuel = less + 1 := ⟨fuel - 1, by simp at enough; omega⟩
    have head := readField_write tag field (writeFields fields)
    have tail := ih fuel (by simpa using enough)
    have shape : writeFields ((tag, field) :: fields) = field.write tag ++ writeFields fields := rfl
    have nonempty : field.write tag ++ writeFields fields ≠ [] := by simp [write_ne_nil]
    rw [shape]
    rw [readFieldsFrom.eq_def]
    simp [head, tail]

theorem length_le_writeFields : fields.length ≤ (writeFields fields).length := by
  induction fields with
  | nil => simp
  | cons entry fields ih => grind [writeFields, length_pos_iff, write_ne_nil]

theorem readFields_writeFields : readFields (writeFields fields) = some fields :=
  readFieldsFrom_writeFields fields _ (length_le_writeFields fields)

/-! ## Messages -/

/-- An encoding with a decoder that undoes it. -/
structure Codec (α : Type) where
  encode : α → Bytes
  decode : Bytes → Option α
  decode_encode : ∀ value, decode (encode value) = some value

def Codec.ofFields {α : Type} (toFields : α → Fields) (fromFields : Fields → Option α)
    (undone : ∀ value, fromFields (toFields value) = some value) : Codec α where
  encode value := writeFields (toFields value)
  decode input := (readFields input).bind fromFields
  decode_encode value := by rw [readFields_writeFields, Option.bind_some, undone]

theorem Codec.mapM_decode {α : Type} (codec : Codec α) (values : List α) :
    (values.map codec.encode).mapM codec.decode = some values := by
  induction values with
  | nil => rfl
  | cons value values ih => simp [codec.decode_encode, ih]

def numberField (tag value : Nat) : Fields := if value = 0 then [] else [(tag, .number value)]

def bytesField (value : Bytes) : Fields :=
  if value = [] then [] else [(tag, .bytes value)]

variable (values : List Nat)

def packedField : Fields := bytesField tag (values.flatMap varint)

variable (value : Option Bytes)

def optionalField : Fields :=
  (value.map fun held => (tag, Field.bytes held)).toList

def optionalNumberField (value : Option Nat) : Fields :=
  (value.map fun held => (tag, Field.number held)).toList

def optionalWordField (value : Option UInt64) : Fields :=
  (value.map fun held => (tag, Field.fixed64 held)).toList

/-- A 64-bit word, left out when it is zero. -/
def fixedField (value : UInt64) : Fields :=
  if value = 0 then [] else [(tag, .fixed64 value)]

def numbersAt : List Nat :=
  fields.filterMap fun
    | (other, .number value) => if other = tag then some value else none
    | _ => none

def bytesAt : List Bytes :=
  fields.filterMap fun
    | (other, .bytes value) => if other = tag then some value else none
    | _ => none

def numberAt : Nat := (numbersAt tag fields).getLast?.getD 0

def blobAt : Bytes := (bytesAt tag fields).getLast?.getD []

def wordsAt : List UInt64 :=
  fields.filterMap fun
    | (other, .fixed64 value) => if other = tag then some value else none
    | _ => none

def messageAt {α : Type} (codec : Codec α) (tag : Nat) (fields : Fields) : Option (Option α) :=
  match (bytesAt tag fields).getLast? with
  | none => some none
  | some held => (codec.decode held).map some

def readVarintsFrom : Nat → Bytes → Option (List Nat)
  | _, [] => some []
  | 0, _ => none
  | fuel + 1, input =>
    match readVarint input with
    | none => none
    | some (value, rest) => (readVarintsFrom fuel rest).map (value :: ·)

def packedAt : Option (List Nat) :=
  readVarintsFrom (blobAt tag fields).length (blobAt tag fields)

section Reading
variable (tag : Nat) (fields fields' : Fields)

@[simp] theorem flag_written (flag : Bool) :
    ((if flag = false then [] else [flag.toNat]).getLast?.getD 0 != 0) = flag := by
  cases flag <;> rfl

@[simp] theorem getLast?_toList {α : Type} (value : Option α) : value.toList.getLast? = value := by
  cases value <;> rfl

@[simp] theorem bytesAt_nil : bytesAt tag [] = [] := rfl

@[simp] theorem wordsAt_append :
    wordsAt tag (fields ++ fields') = wordsAt tag fields ++ wordsAt tag fields' :=
  filterMap_append

@[simp] theorem numbersAt_append :
    numbersAt tag (fields ++ fields') = numbersAt tag fields ++ numbersAt tag fields' :=
  filterMap_append

@[simp] theorem bytesAt_append :
    bytesAt tag (fields ++ fields') = bytesAt tag fields ++ bytesAt tag fields' :=
  filterMap_append

@[simp] theorem numbersAt_numberField (other value : Nat) :
    numbersAt tag (numberField other value) =
      if other = tag then (if value = 0 then [] else [value]) else [] := by
  unfold numberField
  split <;> simp [numbersAt, filterMap_cons, *]
  split <;> simp_all

@[simp] theorem numbersAt_bytesField (other : Nat) (value : Bytes) :
    numbersAt tag (bytesField other value) = [] := by
  unfold bytesField
  split <;> simp [numbersAt]

@[simp] theorem bytesAt_numberField (other value : Nat) :
    bytesAt tag (numberField other value) = [] := by
  unfold numberField
  split <;> simp [bytesAt]

section
variable (other : Nat)

include other

@[simp] theorem bytesAt_bytesField (value : Bytes) : bytesAt tag (bytesField other value) =
      if other = tag then (if value = [] then [] else [value]) else [] := by
  unfold bytesField
  split <;> simp [bytesAt, filterMap_cons, *]
  split <;> simp_all

@[simp] theorem numbersAt_blobs (values : List Bytes) :
    numbersAt tag (values.map fun value => (other, Field.bytes value)) = [] := by
  simp [numbersAt]

@[simp] theorem bytesAt_blobs (values : List Bytes) :
    bytesAt tag (values.map fun value => (other, Field.bytes value)) =
      if other = tag then values else [] := by
  induction values with
  | nil => simp
  | cons value values ih =>
    simp only [bytesAt, map_cons, filterMap_cons] at ih ⊢
    grind

theorem bytesAt_messages {α : Type} (write : α → Bytes) (values : List α) :
    bytesAt tag (values.map fun value => (other, Field.bytes (write value))) =
      if other = tag then values.map write else [] := by
  rw [← bytesAt_blobs, map_map]
  rfl

@[simp] theorem numbersAt_optionalField : numbersAt tag (optionalField other value) = [] := by
  cases value <;> rfl

@[simp] theorem bytesAt_optionalField :
    bytesAt tag (optionalField other value) = if other = tag then value.toList else [] := by
  cases value with
  | none => simp [optionalField]
  | some value => exact bytesAt_blobs tag other [value]

@[simp] theorem numbersAt_fixedField (value : UInt64) :
    numbersAt tag (fixedField other value) = [] := by
  unfold fixedField
  split <;> rfl

@[simp] theorem bytesAt_fixedField (value : UInt64) :
    bytesAt tag (fixedField other value) = [] := by
  unfold fixedField
  split <;> rfl

@[simp] theorem numbersAt_optionalNumberField (value : Option Nat) :
    numbersAt tag (optionalNumberField other value) = if other = tag then value.toList else [] := by
  cases value <;> simp [optionalNumberField, numbersAt, filterMap_cons]
  split <;> simp_all

@[simp] theorem bytesAt_optionalNumberField (value : Option Nat) :
    bytesAt tag (optionalNumberField other value) = [] := by
  cases value <;> rfl

@[simp] theorem numbersAt_optionalWordField (value : Option UInt64) :
    numbersAt tag (optionalWordField other value) = [] := by
  cases value <;> rfl

@[simp] theorem bytesAt_optionalWordField (value : Option UInt64) :
    bytesAt tag (optionalWordField other value) = [] := by
  cases value <;> rfl

@[simp] theorem wordsAt_optionalWordField (value : Option UInt64) :
    wordsAt tag (optionalWordField other value) = if other = tag then value.toList else [] := by
  cases value <;> simp [optionalWordField, wordsAt, filterMap_cons]
  split <;> simp_all

@[simp] theorem wordsAt_optionalField : wordsAt tag (optionalField other value) = [] := by
  cases value <;> rfl

@[simp] theorem wordsAt_blobs (values : List Bytes) :
    wordsAt tag (values.map fun value => (other, Field.bytes value)) = [] := by
  simp [wordsAt]

end

@[simp] theorem wordsAt_numberField (other value : Nat) :
    wordsAt tag (numberField other value) = [] := by
  unfold numberField
  split <;> rfl

@[simp] theorem wordsAt_bytesField (other : Nat) (value : Bytes) :
    wordsAt tag (bytesField other value) = [] := by
  unfold bytesField
  split <;> rfl

@[simp] theorem wordsAt_fixedField (value : UInt64) :
    wordsAt tag (fixedField tag value) = if value = 0 then [] else [value] := by
  unfold fixedField
  split <;> simp [wordsAt]

@[simp] theorem getLast_number (value : Nat) :
    ((if value = 0 then [] else [value] : List Nat).getLast?).getD 0 = value := by
  split <;> simp_all

@[simp] theorem getLast_blob (value : Bytes) :
    ((if value = [] then [] else [value] : List Bytes).getLast?).getD [] = value := by
  split <;> simp_all

end Reading

theorem readVarintsFrom_flatMap (fuel : Nat) (enough : values.length ≤ fuel) :
    readVarintsFrom fuel (values.flatMap varint) = some values := by
  induction values generalizing fuel with
  | nil => cases fuel <;> rfl
  | cons value values ih =>
    obtain ⟨fuel, rfl⟩ : ∃ less, fuel = less + 1 := ⟨fuel - 1, by simp at enough; omega⟩
    have tail := ih fuel (by simpa using enough)
    have nonempty : varint value ++ values.flatMap varint ≠ [] := by simp [varint_ne_nil]
    rw [flatMap_cons, readVarintsFrom.eq_def]
    simp [readVarint_varint, tail]

theorem length_le_flatMap_varint : values.length ≤ (values.flatMap varint).length := by
  induction values with
  | nil => simp
  | cons value values ih => grind [length_pos_iff, varint_ne_nil]

@[simp] theorem readVarintsFrom_length :
    readVarintsFrom (values.flatMap varint).length (values.flatMap varint) = some values :=
  readVarintsFrom_flatMap values _ (length_le_flatMap_varint values)

/-! ## Blocks -/

namespace Blocks
variable {α : Type} (n : Nat) (xs ys : List α)

/-- What the blocks of `n` elements take of a list. -/
def whole : List α := xs.take (xs.length / n * n)

/-- What they leave over. -/
def remainder : List α := xs.drop (xs.length / n * n)

theorem length_whole : (whole n xs).length = xs.length / n * n := by
  rw [whole, length_take]
  exact min_eq_left (Nat.div_mul_le_self _ _)

theorem whole_append_remainder : whole n xs ++ remainder n xs = xs := take_append_drop _ _

theorem length_remainder : (remainder n xs).length = xs.length % n := by
  rw [remainder, length_drop, Nat.mod_eq_sub_div_mul]

/-- Whole blocks in front only move the place of the cut. -/
theorem cut_append : (xs ++ ys).length / n * n
    = (whole n xs).length + (remainder n xs ++ ys).length / n * n := by
  have split : (xs ++ ys).length = (remainder n xs ++ ys).length + n * (xs.length / n) := by
    have cut := Nat.mod_add_div xs.length n
    simp only [length_append, length_remainder]
    omega
  rcases Nat.eq_zero_or_pos n with rfl | positive
  · simp [whole]
  rw [split, Nat.add_mul_div_left _ _ positive, length_whole]
  ring

theorem whole_append : whole n (xs ++ ys) = whole n xs ++ whole n (remainder n xs ++ ys) := by
  have parts : xs ++ ys = whole n xs ++ (remainder n xs ++ ys) := by
    rw [← append_assoc, whole_append_remainder]
  rw [whole, cut_append, parts, take_length_add_append]
  rfl

theorem remainder_append : remainder n (xs ++ ys) = remainder n (remainder n xs ++ ys) := by
  have parts : xs ++ ys = whole n xs ++ (remainder n xs ++ ys) := by
    rw [← append_assoc, whole_append_remainder]
  rw [remainder, cut_append, parts, drop_length_add_append]
  rfl

end Blocks
end Theory
