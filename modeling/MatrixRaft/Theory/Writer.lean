/-
# Theory.Writer — messages written in two passes

A writer of tagged fields makes two passes: one adds up lengths, a second appends bytes.
`Writes` says that the two agree and that what they write is a given list of fields; the
rules below build it up along the writer's own steps.
-/
import MatrixRaft.Theory.Wire

namespace Theory

/-! ## Two passes -/

/-- The two passes over `fields`: their length, and their bytes. -/
structure Writes (length : Nat) (write : Bytes → Bytes) (fields : Fields) : Prop where
  length_eq : length = (writeFields fields).length
  write_eq : ∀ out, write out = out ++ writeFields fields

namespace Writes

theorem nothing : Writes 0 (fun out => out) [] := ⟨rfl, fun out => (List.append_nil out).symm⟩

theorem append {length length' : Nat} {write write' : Bytes → Bytes} {fields fields' : Fields}
    (first : Writes length write fields) (second : Writes length' write' fields') :
    Writes (length + length') (fun out => write' (write out)) (fields ++ fields') where
  length_eq := by grind [writeFields_append, first.length_eq, second.length_eq]
  write_eq out := by simp [second.write_eq, first.write_eq]

theorem each {α : Type} {length : α → Nat} {write : α → Bytes → Bytes} {fields : α → Fields}
    (one : ∀ value, Writes (length value) (write value) (fields value)) (values : List α) :
    Writes (values.map length).sum (fun out => values.foldl (fun out value => write value out) out)
      (values.flatMap fields) := by
  induction values with
  | nil => exact nothing
  | cons value values ih => exact (one value).append ih

end Writes

/-! ## Single fields -/

def encodedLenVarint (value : Nat) : Nat := (varint value).length

variable (tag : Nat)

def keyLen : Nat := encodedLenVarint (tag * 8)

def encodeVarint (value : Nat) (out : Bytes) : Bytes := out ++ varint value

def encodeKey (tag kind : Nat) (out : Bytes) : Bytes := encodeVarint (tag * 8 + kind) out

theorem length_varint_kind (field : Field) :
    (varint (tag * 8 + field.kind)).length = keyLen tag := by
  refine length_varint_key tag ?_
  cases field <;> simp [Field.kind]

theorem writes_field {length : Nat} {write : Bytes → Bytes} (field : Field)
    (size : length = field.body.length)
    (body : ∀ out, write out = out ++ (varint (tag * 8 + field.kind) ++ field.body)) :
    Writes (keyLen tag + length) write [(tag, field)] where
  length_eq := by simp [writeFields, Field.write, length_varint_kind, size]
  write_eq out := by
    rw [body, writeFields, List.flatMap_singleton]
    rfl

variable (values : List Nat)

namespace Uint64

def encodedLen (tag value : Nat) : Nat := keyLen tag + encodedLenVarint value

def encode (tag value : Nat) (out : Bytes) : Bytes := encodeVarint value (encodeKey tag 0 out)

def encodedLenPacked : Nat :=
  if values = [] then 0
  else
    let length := (values.map encodedLenVarint).sum
    keyLen tag + encodedLenVarint length + length

def encodePacked (out : Bytes) : Bytes :=
  if values = [] then out
  else
    let out := encodeVarint (values.map encodedLenVarint).sum (encodeKey tag 2 out)
    values.foldl (fun out value => encodeVarint value out) out

end Uint64

namespace Fixed64

def encodedLen : Nat := keyLen tag + 8

def encode (value : UInt64) (out : Bytes) : Bytes :=
  encodeKey tag 1 out ++ littleEndian 8 value.toNat

end Fixed64

namespace Text

def encodedLen (value : Bytes) : Nat :=
  keyLen tag + encodedLenVarint value.length + value.length

def encode (value out : Bytes) : Bytes :=
  encodeVarint value.length (encodeKey tag 2 out) ++ value

end Text

theorem writes_number (tag value : Nat) :
    Writes (Uint64.encodedLen tag value) (Uint64.encode tag value) [(tag, .number value)] :=
  writes_field tag (.number value) rfl fun out => List.append_assoc out _ _

theorem writes_word (value : UInt64) :
    Writes (Fixed64.encodedLen tag) (Fixed64.encode tag value) [(tag, .fixed64 value)] :=
  writes_field tag (.fixed64 value) (length_littleEndian 8 value.toNat).symm
    fun out => List.append_assoc out _ _

theorem writes_bytes (value : Bytes) :
    Writes (Text.encodedLen tag value) (Text.encode tag value) [(tag, .bytes value)] := by
  rw [Text.encodedLen, add_assoc]
  refine writes_field tag (.bytes value) List.length_append.symm fun out => ?_
  simp only [Text.encode, encodeVarint, encodeKey, List.append_assoc]
  rfl

theorem Writes.message {length : Nat} {write : Bytes → Bytes} {fields : Fields}
    (body : Writes length write fields) (tag : Nat) :
    Writes (keyLen tag + encodedLenVarint length + length)
      (fun out => write (encodeVarint length (encodeKey tag 2 out)))
      [(tag, .bytes (writeFields fields))] := by
  have same := writes_bytes tag (writeFields fields)
  rw [Text.encodedLen, ← body.length_eq] at same
  refine ⟨same.length_eq, fun out => ?_⟩
  rw [body.write_eq, ← same.write_eq, Text.encode, ← body.length_eq]

theorem foldl_encodeVarint (out : Bytes) :
    values.foldl (fun out value => encodeVarint value out) out = out ++ values.flatMap varint := by
  induction values generalizing out with
  | nil => exact (List.append_nil out).symm
  | cons value values ih =>
    rw [List.foldl_cons, ih, encodeVarint, List.flatMap_cons, List.append_assoc]

theorem writes_packed : Writes (Uint64.encodedLenPacked tag values) (Uint64.encodePacked tag values)
      (packedField tag values) := by
  have size : (values.map encodedLenVarint).sum = (values.flatMap varint).length := by
    rw [List.length_flatMap]
    rfl
  unfold packedField bytesField
  by_cases empty : values = []
  · subst empty
    exact .nothing
  obtain ⟨value, listed⟩ := List.exists_mem_of_ne_nil _ empty
  have present : values.flatMap varint ≠ [] := fun none =>
    varint_ne_nil value (List.flatMap_eq_nil_iff.mp none value listed)
  rw [if_neg present, Uint64.encodedLenPacked, if_neg empty, size]
  have whole := writes_bytes tag (values.flatMap varint)
  refine ⟨whole.length_eq, fun out => ?_⟩
  rw [← whole.write_eq, Uint64.encodePacked, if_neg empty, size]
  exact foldl_encodeVarint values _

end Theory
