/-
# Checksum — checksums of bytes that arrive in pieces

`ChecksumContext` of `checksum.rs` takes bytes piece by piece.  A CRC-32C continues from the
complement of the value reached; a Murmur3 hash carries the bytes that do not fill a block.
-/
import MatrixRaft.WalBinary

namespace MatrixRaft
open Theory List Blocks

/-! ## The two functions -/

def crc32cBit (value : UInt32) : UInt32 :=
  let mask := 0 - (value &&& 1)
  (value >>> 1) ^^^ (0x82f63b78 &&& mask)

def crc32cExtend (crc : UInt32) (data : Bytes) : UInt32 :=
  ~~~ data.foldl (fun value byte => crc32cBit^[8] (value ^^^ byte.toUInt32)) (~~~ crc)

variable (data : Bytes)

def matrixraftCrc32c : UInt32 := crc32cExtend 0 data

def rotateLeft (word : UInt32) (places : Nat) : UInt32 := ⟨word.toBitVec.rotateLeft places⟩

def scramble (block : UInt32) : UInt32 := rotateLeft (block * 0xcc9e2d51) 15 * 0x1b873593

def murmur3X8632MixBlock (hash block : UInt32) : UInt32 :=
  rotateLeft (hash ^^^ scramble block) 13 * 5 + 0xe6546b64

def fmix32 (hash : UInt32) : UInt32 :=
  let hash := (hash ^^^ (hash >>> 16)) * 0x85ebca6b
  let hash := (hash ^^^ (hash >>> 13)) * 0xc2b2ae35
  hash ^^^ (hash >>> 16)

def tailWord : Bytes → Option UInt32
  | [] => some 0
  | [a] => some a.toUInt32
  | [a, b] => some ((b.toUInt32 <<< 8) ^^^ a.toUInt32)
  | [a, b, c] => some ((c.toUInt32 <<< 16) ^^^ (b.toUInt32 <<< 8) ^^^ a.toUInt32)
  -- `unreachable!`
  | _ => none

def murmur3X8632Finalize (hash : UInt32) (tail : Bytes) (len : Nat) : Option UInt32 :=
  (tailWord tail).map fun k1 =>
    fmix32 ((if k1 ≠ 0 then hash ^^^ scramble k1 else hash) ^^^ UInt32.ofNat len)

/-- `as_chunks::<4>`, each block as `u32::from_le_bytes` reads it. -/
def asChunks : Bytes → List UInt32
  | a :: b :: c :: d :: rest => UInt32.ofNat (ofLittleEndian [a, b, c, d]) :: asChunks rest
  | _ => []

def mixBody (hash : UInt32) (data : Bytes) : UInt32 :=
  (asChunks (whole 4 data)).foldl murmur3X8632MixBlock hash

def murmur3X8632 (seed : UInt32) : Option UInt32 :=
  murmur3X8632Finalize (mixBody seed data) (remainder 4 data) data.length

def matrixraftMurmur32 : Option UInt32 := murmur3X8632 data 0

-- the value for `hello` that the repository's tests pin
example : matrixraftMurmur32 [104, 101, 108, 108, 111] = some 0x248bfa47 := by decide +kernel

/-! ## The context -/

inductive ChecksumType where
  | invalid | crc32 | murmur32
  deriving DecidableEq

def ChecksumType.name : ChecksumType → String
  | invalid => "invalid"
  | crc32 => "crc32"
  | murmur32 => "murmur32"

structure ChecksumResult where
  checksumType : ChecksumType
  checksumName : String
  value : UInt32
  (bytes chunks : Nat)

structure ChecksumContext where
  checksumType : ChecksumType
  finished : Bool
  value : UInt32
  (length bodyBytes : Nat)
  tail : Bytes
  chunks : Nat

namespace ChecksumContext

def new (checksumType : ChecksumType) : ChecksumContext := ⟨checksumType, false, 0, 0, 0, [], 0⟩

def extendMurmur32 (context : ChecksumContext) (data : Bytes) : ChecksumContext :=
  let combined := context.tail ++ data
  { context with
    value := mixBody context.value combined
    bodyBytes := satAdd context.bodyBytes (whole 4 combined).length
    tail := remainder 4 combined }

def extend : Attempt ChecksumContext String Unit := fun context =>
  if context.finished then (.error "checksum already finished", context)
  else if context.checksumType = .invalid then (.error "checksum type is invalid", context)
  else if data = [] then (.ok (), context)
  else
    let taken := match context.checksumType with
      | .crc32 => { context with value := crc32cExtend context.value data }
      | .murmur32 => context.extendMurmur32 data
      -- `unreachable!`
      | .invalid => context
    (.ok (), { taken with
      length := satAdd taken.length data.length
      chunks := satAdd taken.chunks 1 })

/-- Nothing where the tail is longer than the hash can take. -/
def finalize (context : ChecksumContext) : Option (ChecksumResult × ChecksumContext) := do
  let finished ←
    if ¬ context.finished ∧ context.checksumType = .murmur32 then do
      let value ← murmur3X8632Finalize context.value context.tail
        (satAdd context.bodyBytes context.tail.length)
      some { context with value := value, tail := [], finished := true }
    else some { context with finished := true }
  some (⟨finished.checksumType, finished.checksumType.name, finished.value, finished.length,
    finished.chunks⟩, finished)

end ChecksumContext

/-! ## Pieces -/

theorem crc32cBit_eq (value : UInt32) : crc32cBit value = crcBit value := by
  have low : (value &&& 1).toNat = value.toNat % 2 := by
    rw [UInt32.toNat_and]
    exact Nat.and_one_is_mod _
  unfold crc32cBit crcBit
  rcases Nat.mod_two_eq_zero_or_one value.toNat with even | odd
  · have bit : value &&& 1 = 0 := UInt32.toNat_inj.mp (low.trans even)
    simp [bit]
  · have bit : value &&& 1 = 1 := UInt32.toNat_inj.mp (low.trans odd)
    simp only [bit, if_true]
    congr 1

theorem matrixraftCrc32c_eq : matrixraftCrc32c data = crc32c data := by
  have step : crc32cBit = crcBit := funext crc32cBit_eq
  rw [matrixraftCrc32c, crc32cExtend, step]
  rfl

theorem crc32cExtend_append (crc : UInt32) (data more : Bytes) :
    crc32cExtend (crc32cExtend crc data) more = crc32cExtend crc (data ++ more) := by
  simp only [crc32cExtend, UInt32.not_not, foldl_append]

theorem asChunks_append : ∀ front back : Bytes, 4 ∣ front.length →
    asChunks (front ++ back) = asChunks front ++ asChunks back
  | [], _, _ => rfl
  | a :: b :: c :: d :: rest, back, fills => by
    have fills' : 4 ∣ rest.length := by
      simp only [length_cons] at fills
      omega
    simp only [cons_append, asChunks, asChunks_append rest back fills']
  | [_], _, fills | [_, _], _, fills | [_, _, _], _, fills => by
    simp only [length_cons, length_nil] at fills
    omega

theorem mixBody_append (hash : UInt32) (data more : Bytes) :
    mixBody hash (data ++ more) = mixBody (mixBody hash data) (remainder 4 data ++ more) := by
  have fills : 4 ∣ (whole 4 data).length := by
    rw [length_whole]
    exact Nat.dvd_mul_left _ _
  rw [mixBody, whole_append, asChunks_append _ _ fills, foldl_append]
  rfl

theorem matrixraftMurmur32_isSome : ∃ value, matrixraftMurmur32 data = some value := by
  have short : (remainder 4 data).length < 4 := by
    rw [length_remainder]
    exact Nat.mod_lt _ (by decide)
  unfold matrixraftMurmur32 murmur3X8632 murmur3X8632Finalize
  match remainder 4 data, short with
  | [], _ | [_], _ | [_, _], _ | [_, _, _], _ => exact ⟨_, rfl⟩
  | _ :: _ :: _ :: _ :: _, short =>
    simp only [length_cons] at short
    omega

namespace ChecksumContext

/-- What a context holds once it has taken `seen`. -/
structure Holds (kind : ChecksumType) (seen : Bytes) (context : ChecksumContext) : Prop where
  checksumType : context.checksumType = kind
  going : context.finished = false
  crc : kind = .crc32 → context.value = matrixraftCrc32c seen
  murmur : kind = .murmur32 → context.value = mixBody 0 seen ∧ context.tail = remainder 4 seen ∧
    context.bodyBytes = min (whole 4 seen).length u64Max

variable {kind : ChecksumType} {seen : Bytes} {context : ChecksumContext}

theorem Holds.new (kind : ChecksumType) : Holds kind [] (new kind) :=
  ⟨rfl, rfl, fun _ => rfl, fun _ => ⟨rfl, rfl, rfl⟩⟩

theorem Holds.extend (holds : Holds kind seen context) (valid : kind ≠ .invalid) (data : Bytes) :
    ∃ next, extend data context = (.ok (), next) ∧ Holds kind (seen ++ data) next := by
  obtain ⟨rfl, going, crc, murmur⟩ := holds
  simp only [ChecksumContext.extend, going, valid, Bool.false_eq_true, if_false]
  by_cases empty : data = []
  · rw [if_pos empty, empty, append_nil]
    exact ⟨context, rfl, rfl, going, crc, murmur⟩
  rw [if_neg empty]
  cases kind : context.checksumType with
  | invalid => exact absurd kind valid
  | crc32 =>
    refine ⟨_, rfl, rfl, rfl, fun _ => ?_, nofun⟩
    rw [matrixraftCrc32c, ← crc32cExtend_append]
    exact congrArg (crc32cExtend · data) (crc kind)
  | murmur32 =>
    obtain ⟨value, tail, body⟩ := murmur kind
    refine ⟨_, rfl, kind, going, nofun, fun _ => ?_⟩
    simp only [extendMurmur32, value, tail, body]
    rw [mixBody_append 0 seen, remainder_append 4 seen, whole_append 4 seen, length_append, satAdd]
    exact ⟨rfl, rfl, by omega⟩

theorem Holds.extends (holds : Holds kind seen context) (valid : kind ≠ .invalid)
    (pieces : List Bytes) :
    ∃ next, Attempt.forEach ChecksumContext.extend pieces context = (.ok (), next) ∧
      Holds kind (seen ++ pieces.flatten) next := by
  induction pieces generalizing seen context with
  | nil => exact ⟨context, rfl, by simpa using holds⟩
  | cons piece pieces ih =>
    obtain ⟨next, ran, held⟩ := holds.extend valid piece
    obtain ⟨last, ran', held'⟩ := ih held
    refine ⟨last, ?_, ?_⟩
    · rw [Attempt.forEach, Attempt.bind_ok ran, ran']
    · rwa [flatten_cons, ← append_assoc]

theorem Holds.finalize_murmur (holds : Holds .murmur32 seen context) (fits : seen.length ≤ u64Max) :
    murmur3X8632Finalize context.value context.tail
      (satAdd context.bodyBytes context.tail.length) = matrixraftMurmur32 seen := by
  obtain ⟨value, tail, body⟩ := holds.murmur rfl
  have parts := congrArg List.length (whole_append_remainder 4 seen)
  rw [length_append] at parts
  have total : satAdd context.bodyBytes context.tail.length = seen.length := by
    rw [body, tail, satAdd]
    omega
  rw [total, value, tail]
  rfl

/-- The value of a context that is extended with the pieces in order and finalized. -/
def streamed (kind : ChecksumType) (pieces : List Bytes) : Option UInt32 :=
  match Attempt.forEach extend pieces (new kind) with
  | (.ok (), context) => context.finalize.map (·.1.value)
  | (.error _, _) => none

/-- **Checksums do not depend on the pieces**, and both CRC-32C loops compute one function.  The
length of a slice is a `u64`. -/
theorem checksums_chunk_independent (pieces : List Bytes) :
    streamed .crc32 pieces = some (matrixraftCrc32c pieces.flatten) ∧
    (pieces.flatten.length ≤ u64Max → ∃ value, streamed .murmur32 pieces = some value ∧
      matrixraftMurmur32 pieces.flatten = some value) ∧
    ∀ data, matrixraftCrc32c data = crc32c data := by
  refine ⟨?_, fun fits => ?_, matrixraftCrc32c_eq⟩
  · obtain ⟨context, ran, held⟩ := (Holds.new .crc32).extends nofun pieces
    simp [streamed, ran, finalize, held.checksumType, held.crc rfl]
  · obtain ⟨context, ran, held⟩ := (Holds.new .murmur32).extends nofun pieces
    obtain ⟨value, reached⟩ := matrixraftMurmur32_isSome pieces.flatten
    have ends := held.finalize_murmur fits
    refine ⟨value, ?_, reached⟩
    simp [streamed, ran, finalize, held.checksumType, held.going, ends, reached]

theorem checksums_chunk_independent_hello : ∃ value,
    streamed .murmur32 [[104, 101], [108, 108, 111]] = some value ∧
      matrixraftMurmur32 [104, 101, 108, 108, 111] = some value :=
  (checksums_chunk_independent [[104, 101], [108, 108, 111]]).2.1 (by decide)

end ChecksumContext
end MatrixRaft
