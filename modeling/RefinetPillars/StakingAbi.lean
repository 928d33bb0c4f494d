import RefinetPillars.HexText
import RefinetPillars.PillarStakingStorage

/-!
# The reader's ABI functions

The encoding and decoding functions of the staking reader, and the standard
encodings they have to agree with.
-/

namespace RefinetPillars

namespace StakingReader

open HexText PillarStaking

/-- What encoding and decoding raise. -/
inductive AbiError where
  /-- "not a bytes32: …" -/
  | notBytes32 (argument : Text)
  /-- Raised by `bytes.fromhex`. -/
  | notHex
  /-- "ABI result is not word-aligned" -/
  | notWordAligned
  /-- "ABI array runs past the result" -/
  | arrayOverrun

def selPillarCount : Text := "ce90dc30".toList

def selPidsPage : Text := "6878efd3".toList

/-- An argument of a call: a `uint256`, or the text of a `bytes32`. -/
inductive Arg where
  | uint (value : Nat)
  | bytes32 (text : Text)

/-- Python's `text.removeprefix("0x")`. -/
def removePrefix : Text → Text
  | '0' :: 'x' :: rest => rest
  | text => text

def isLowerHex (character : Char) : Bool :=
  character ∈ "0123456789abcdef".toList

def encodeArg : Arg → Except AbiError Text
  | .uint value => return padded 64 value
  | .bytes32 text =>
      let value := removePrefix (text.map Char.toLower)
      if value.length = 64 ∧ value.all isLowerHex then return value
      else throw (.notBytes32 text)

def encodeCall (selector : Text) (args : List Arg) : Except AbiError Text := do
  let encoded ← args.mapM encodeArg
  return '0' :: 'x' :: selector ++ encoded.flatten

/-- `_words`: the bytes of a result, a whole number of words. -/
def words (result : Text) : Except AbiError (List UInt8) :=
  match fromHex (removePrefix result) with
  | none => throw .notHex
  | some data =>
      if data.length % 32 ≠ 0 then throw .notWordAligned else return data

def decodeUint (result : Text) : Except AbiError Nat := do
  let data ← words result
  return fromBigEndian (data.take 32)

def decodeBytes32Array (result : Text) : Except AbiError (List Text) := do
  let data ← words result
  let offset := fromBigEndian (data.take 32)
  let count := fromBigEndian (slice data offset (offset + 32))
  let start := offset + 32
  if data.length < start + 32 * count then throw .arrayOverrun
  else
    return (List.range count).map fun index =>
      toHex (slice data (start + 32 * index) (start + 32 * (index + 1)))

section StandardEncoding

/-- The standard encoding of a `uint256` as one word. -/
@[irreducible]
def word (value : Nat) : List UInt8 := bigEndian 32 value

/-- The text a node returns for a `uint256`. -/
def abiUint (value : Nat) : Text := '0' :: 'x' :: toHex (word value)

/-- The text a node returns for a `bytes32[]`. -/
def abiBytes32Array (values : List Pid) : Text :=
  '0' :: 'x' :: toHex (word 32 ++ word values.length ++
    (values.map fun value => word value.toNat).flatten)

/-- The call data for a function of `uint256` arguments. -/
def callData (selector : Text) (args : List Nat) : Text :=
  '0' :: 'x' :: selector ++ toHex (args.map word).flatten

/-- A PID as the reader writes it. -/
def pidText (pid : Pid) : Text := toHex (word pid.toNat)

end StandardEncoding

@[simp]
theorem length_word (value : Nat) : (word value).length = 32 := by
  rw [word, length_bigEndian]

theorem fromBigEndian_word {value : Nat} (fits : value < uint256Size) :
    fromBigEndian (word value) = value := by
  rw [word, fromBigEndian_bigEndian (by simpa [uint256Size] using fits)]

theorem length_flatten_words (values : List Nat) :
    (values.map word).flatten.length = 32 * values.length := by
  induction values with
  | nil => rfl
  | cons value values ih =>
      simp only [List.map_cons, List.flatten_cons, List.length_append, ih,
        length_word, List.length_cons]
      omega

theorem words_toHex {bytes : List UInt8} (aligned : bytes.length % 32 = 0) :
    words ('0' :: 'x' :: toHex bytes) = .ok bytes := by
  simp [words, removePrefix, aligned, pure, Except.pure]

/-- The reader decodes the standard encoding of a number. -/
theorem decodeUint_abiUint {value : Nat} (fits : value < uint256Size) :
    decodeUint (abiUint value) = .ok value := by
  have whole : (word value).take 32 = word value :=
    List.take_of_length_le (length_word value).le
  rw [decodeUint, abiUint, words_toHex (by simp)]
  simp only [bind, Except.bind, whole, fromBigEndian_word fits]
  rfl

/-- Decoding an array whose elements are words. -/
theorem decodeBytes32Array_blocks {result : Text} {count : Nat}
    {blocks : List (List UInt8)} (sized : ∀ block ∈ blocks, block.length = 32)
    (counted : count = blocks.length) (fits : count < uint256Size)
    (read : words result =
      .ok (word 32 ++ word count ++ blocks.flatten)) :
    decodeBytes32Array result = .ok (blocks.map toHex) := by
  subst counted
  have offset : fromBigEndian ((word 32 ++ word blocks.length ++
      blocks.flatten).take 32) = 32 := by
    rw [List.append_assoc, List.take_left' (length_word 32),
      fromBigEndian_word (by simp [uint256Size])]
  have count : fromBigEndian (slice (word 32 ++ word blocks.length ++
      blocks.flatten) 32 (32 + 32)) = blocks.length := by
    rw [slice, List.append_assoc, List.drop_left' (length_word 32),
      Nat.add_sub_cancel, List.take_left' (length_word blocks.length),
      fromBigEndian_word fits]
  have cut := slices_flatten sized (word 32 ++ word blocks.length)
  have headerLength : (word 32 ++ word blocks.length).length = 32 + 32 := by
    rw [List.length_append, length_word, length_word]
  have inBounds : ¬ (word 32 ++ word blocks.length ++ blocks.flatten).length <
      32 + 32 + 32 * blocks.length := by
    rw [List.length_append, headerLength, List.length_flatten,
      List.map_congr_left sized, List.map_const', List.sum_replicate_nat]
    omega
  rw [headerLength] at cut
  generalize word 32 ++ word blocks.length ++ blocks.flatten = data
    at read offset count cut inBounds
  rw [decodeBytes32Array, read]
  simp only [bind, Except.bind, offset, count, inBounds, if_false]
  rw [← congrArg (List.map toHex) cut, List.map_map]
  rfl

theorem words_abiBytes32Array (values : List Pid) :
    words (abiBytes32Array values) = .ok (word 32 ++ word values.length ++
      (values.map fun value => word value.toNat).flatten) := by
  have bodyLength := length_flatten_words (values.map BitVec.toNat)
  rw [List.map_map, List.length_map, Function.comp_def] at bodyLength
  apply words_toHex
  rw [List.length_append, List.length_append, length_word, length_word,
    bodyLength]
  omega

theorem map_pidText (values : List Pid) :
    (values.map fun value => word value.toNat).map toHex =
      values.map pidText := by
  rw [List.map_map]
  refine List.map_congr_left fun value _ => ?_
  rw [Function.comp_apply, pidText]

/-- The reader decodes the standard encoding of an array of PIDs. -/
theorem decodeBytes32Array_abi {values : List Pid}
    (fits : values.length < uint256Size) :
    decodeBytes32Array (abiBytes32Array values) =
      .ok (values.map pidText) := by
  have read := words_abiBytes32Array values
  have counted : values.length =
      (values.map fun value => word value.toNat).length :=
    (List.length_map _).symm
  have sized : ∀ block ∈ values.map fun value => word value.toNat,
      block.length = 32 := by
    intro block member
    obtain ⟨value, _, rfl⟩ := List.mem_map.mp member
    exact length_word _
  rw [← map_pidText]
  generalize (values.map fun value => word value.toNat) = blocks
    at read counted sized ⊢
  exact decodeBytes32Array_blocks sized counted fits read

theorem flatten_toHex_words (values : List Nat) :
    (values.map fun value => toHex (word value)).flatten =
      toHex (values.map word).flatten := by
  induction values with
  | nil => rfl
  | cons value values ih =>
      rw [List.map_cons, List.flatten_cons, ih, List.map_cons,
        List.flatten_cons, toHex_append]

/-- The reader's calls carry the standard call data. -/
theorem encodeCall_uints {selector : Text} {values : List Nat}
    (fit : ∀ value ∈ values, value < uint256Size) :
    encodeCall selector (values.map .uint) = .ok (callData selector values) := by
  have encoded : ∀ rest : List Nat, (∀ value ∈ rest, value < uint256Size) →
      (rest.map Arg.uint).mapM encodeArg =
        .ok (rest.map fun value => toHex (word value)) := by
    intro rest restFit
    induction rest with
    | nil => rfl
    | cons value rest ih =>
        have paddedEq : padded 64 value = toHex (word value) := by
          rw [padded_eq_hexDigits (by decide)
            (by simpa [uint256Size] using restFit value (by simp)), word,
            toHex_bigEndian]
        rw [List.map_cons, List.mapM_cons,
          ih fun other member => restFit other (by simp [member]), encodeArg,
          paddedEq]
        rfl
  rw [encodeCall, encoded values fit]
  simp only [bind, Except.bind, flatten_toHex_words]
  rfl

theorem pidText_injective {first second : Pid}
    (same : pidText first = pidText second) : first = second := by
  have sameWord := congrArg fromBigEndian (toHex_injective same)
  rw [fromBigEndian_word first.isLt, fromBigEndian_word second.isLt]
    at sameWord
  exact BitVec.eq_of_toNat_eq sameWord

end StakingReader

end RefinetPillars
