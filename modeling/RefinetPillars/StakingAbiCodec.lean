import RefinetPillars.StakingStatus

/-!
# The codec of the staking reader

The decoders read standard encodings back and the calls carry standard call
data.  The decoder of arrays returns a value only when it lies inside of the
result.  The one of strings also returns the empty string when the length word
is cut off by the end of the result and nothing but zeros is left of it.
-/

namespace RefinetPillars

namespace StakingReader

open HexText PillarStaking Utf8Text KeyRecovery

section Standard

/-- Bytes filled up with zeros to a whole number of words. -/
def rightPadded (bytes : List UInt8) : List UInt8 :=
  bytes ++ List.replicate ((32 - bytes.length % 32) % 32) 0

/-- The text a node returns for a `string`. -/
def abiString (text : Text) : Text :=
  '0' :: 'x' :: toHex (word 32 ++ word (encodeUtf8 text).length ++
    rightPadded (encodeUtf8 text))

/-- The text a node returns for an `address`. -/
def abiAddress (address : Address) : Text := abiUint address.toNat

/-- An address as the reader writes it. -/
def addressText (address : Address) : Text :=
  '0' :: 'x' :: toHex (bigEndian 20 address.toNat)

inductive ArgType where
  | uint256
  | bytes32
deriving DecidableEq

namespace Arg

def type : Arg → ArgType
  | .uint _ => .uint256
  | .bytes32 _ => .bytes32

/-- An argument up to letter case and `0x`. -/
def normal : Arg → Arg
  | .uint value => .uint value
  | .bytes32 text => .bytes32 (removePrefix (text.map Char.toLower))

/-- The standard encoding of an argument. -/
def standard : Arg → List UInt8
  | .uint value => word value
  | .bytes32 text =>
      (fromHex (removePrefix (text.map Char.toLower))).getD []

/-- A number of 256 bits, or 32 bytes in hexadecimal digits. -/
def Fits : Arg → Prop
  | .uint value => value < uint256Size
  | .bytes32 text =>
      ∃ bytes, bytes.length = 32 ∧
        removePrefix (text.map Char.toLower) = toHex bytes

end Arg

/-- Standard call data. -/
def standardCall (selector : Text) (args : List Arg) : Text :=
  '0' :: 'x' :: selector ++ toHex (args.map Arg.standard).flatten

/-- The offset that a result begins with. -/
def offsetWord (data : List UInt8) : Nat := fromBigEndian (data.take 32)

/-- The length word at that offset, or what is left of it. -/
def lengthWord (data : List UInt8) : Nat :=
  fromBigEndian (slice data (offsetWord data) (offsetWord data + 32))

/-- The offset word, the length word and a payload of elements of so many bytes
lie inside of a result. -/
def PayloadInside (size : Nat) (result : Text) : Prop :=
  ∃ data, words result = .ok data ∧ 32 ≤ data.length ∧
    offsetWord data + 32 ≤ data.length ∧
    offsetWord data + 32 + size * lengthWord data ≤ data.length

/-- The end of a result cuts the length word off, and what is left is zero. -/
def LengthClipped (result : Text) : Prop :=
  ∃ data, words result = .ok data ∧ data.length < offsetWord data + 32 ∧
    lengthWord data = 0

/-- The decoders read standard encodings back. -/
structure ReadsBack : Prop where
  uint : ∀ value < uint256Size, decodeUint (abiUint value) = .ok value
  address : ∀ address : Address,
    decodeAddress (abiAddress address) = .ok (addressText address)
  string : ∀ text, (encodeUtf8 text).length < uint256Size →
    decodeString (abiString text) = .ok text
  array : ∀ values : List Pid, values.length < uint256Size →
    decodeBytes32Array (abiBytes32Array values) = .ok (values.map pidText)

/-- Calls carry standard call data, and their arguments can be told from it. -/
structure EncodesCalls : Prop where
  standard : ∀ selector args, (∀ arg ∈ args, arg.Fits) →
    encodeCall selector args = .ok (standardCall selector args)
  injective : ∀ selector (first second : List Arg),
    (∀ arg ∈ first, arg.Fits) → (∀ arg ∈ second, arg.Fits) →
    first.map Arg.type = second.map Arg.type →
    standardCall selector first = standardCall selector second →
    first.map Arg.normal = second.map Arg.normal

/-- What the codec is for, on one result. -/
structure CodecKeeps (result : Text) : Prop where
  readsBack : ReadsBack
  encodesCalls : EncodesCalls
  string : ∀ text, decodeString result = .ok text → PayloadInside 1 result
  array : ∀ values, decodeBytes32Array result = .ok values →
    PayloadInside 32 result

end Standard

section Encodings

theorem drop_bigEndian (high low value : Nat) :
    (bigEndian (high + low) value).drop high = bigEndian low value := by
  induction low generalizing value with
  | zero => simp [bigEndian]
  | succ low ih =>
      rw [← Nat.add_assoc, bigEndian, List.drop_append_of_le_length (by simp),
        ih, bigEndian]

theorem decodeAddress_abiAddress (address : Address) :
    decodeAddress (abiAddress address) = .ok (addressText address) := by
  have low : slice (word address.toNat) 12 32 =
      bigEndian 20 address.toNat := by
    rw [slice, word, drop_bigEndian 12 20, List.take_of_length_le (by simp)]
  have read : words (abiAddress address) = .ok (word address.toNat) :=
    words_toHex (by simp)
  rw [decodeAddress, read, addressText, ← low]
  rfl

theorem decodeExactly_encodeUtf8 (text : Text) :
    decodeExactly (encodeUtf8 text) = .ok text := by
  simp [decodeExactly, decodeUtf8_encodeUtf8]

theorem length_rightPadded (bytes : List UInt8) :
    (rightPadded bytes).length % 32 = 0 := by
  simp only [rightPadded, List.length_append, List.length_replicate]
  omega

section Headed

variable {length : Nat} (payload : List UInt8)

theorem offsetWord_headed :
    offsetWord (word 32 ++ word length ++ payload) = 32 := by
  rw [offsetWord, List.append_assoc, List.take_left' (length_word 32),
    fromBigEndian_word (by simp [uint256Size])]

theorem lengthWord_headed (fits : length < uint256Size) :
    lengthWord (word 32 ++ word length ++ payload) = length := by
  rw [lengthWord, offsetWord_headed, slice, List.append_assoc,
    List.drop_left' (length_word 32), Nat.add_sub_cancel,
    List.take_left' (length_word _), fromBigEndian_word fits]

theorem slice_headed (count : Nat) :
    slice (word 32 ++ word length ++ payload) (32 + 32) (32 + 32 + count) =
      payload.take count := by
  rw [slice, List.drop_left' (by simp), Nat.add_sub_cancel_left]

end Headed

/-- The text a node returns for a `string` of these bytes. -/
def abiStringOf (bytes : List UInt8) : Text :=
  '0' :: 'x' :: toHex (word 32 ++ word bytes.length ++ rightPadded bytes)

theorem decodeString_abiStringOf {bytes : List UInt8}
    (fits : bytes.length < uint256Size) :
    decodeString (abiStringOf bytes) = decodeExactly bytes := by
  have read : words (abiStringOf bytes) =
      .ok (word 32 ++ word bytes.length ++ rightPadded bytes) := by
    refine words_toHex ?_
    have padded := length_rightPadded bytes
    rw [List.length_append, List.length_append, length_word, length_word]
    omega
  have length := lengthWord_headed (rightPadded bytes) fits
  rw [lengthWord] at length
  have raw : (rightPadded bytes).take bytes.length = bytes := List.take_left
  rw [decodeString, read]
  simp only [lifted, Except.mapError, bind, Except.bind]
  rw [← offsetWord, length, offsetWord_headed, slice_headed, raw]
  simp only [ne_eq, not_true_eq_false, if_false]

theorem decodeString_abiString {text : Text}
    (fits : (encodeUtf8 text).length < uint256Size) :
    decodeString (abiString text) = .ok text :=
  (decodeString_abiStringOf fits).trans (decodeExactly_encodeUtf8 text)

end Encodings

section Calls

theorem length_toHex (bytes : List UInt8) :
    (toHex bytes).length = 2 * bytes.length := by
  induction bytes with
  | nil => rfl
  | cons byte bytes ih =>
      rw [toHex, List.flatMap_cons, List.length_append, ← toHex, ih,
        List.length_cons, byteText]
      simp only [List.length_cons, List.length_nil]
      omega

theorem isLowerHex_toHex (bytes : List UInt8) :
    (toHex bytes).all isLowerHex = true := by
  rw [List.all_eq_true]
  intro character member
  obtain ⟨value, small, rfl⟩ := exists_digit_of_mem_toHex member
  have checked : ∀ digit : Fin 16, isLowerHex (digit : Nat).digitChar = true := by
    decide
  exact checked ⟨value, small⟩

theorem length_standard {arg : Arg} (fits : arg.Fits) :
    arg.standard.length = 32 := by
  cases arg with
  | uint value => exact length_word value
  | bytes32 text =>
      obtain ⟨bytes, length, spelled⟩ := fits
      simp [Arg.standard, spelled, length]

/-- An argument is encoded as its standard word. -/
theorem encodeArg_eq {arg : Arg} (fits : arg.Fits) :
    encodeArg arg = .ok (toHex arg.standard) := by
  cases arg with
  | uint value =>
      have digits : padded 64 value = toHex (word value) := by
        rw [padded_eq_hexDigits (by decide)
          (by simpa [uint256Size] using show value < uint256Size from fits),
          word, toHex_bigEndian]
      rw [encodeArg, digits]
      rfl
  | bytes32 text =>
      obtain ⟨bytes, length, spelled⟩ := fits
      have lengthHex : (toHex bytes).length = 64 := by
        rw [length_toHex, length]
      simp only [encodeArg, Arg.standard, spelled, fromHex_toHex,
        Option.getD_some, lengthHex, isLowerHex_toHex, and_self, if_true]
      rfl

theorem mapM_encodeArg {args : List Arg} (fit : ∀ arg ∈ args, arg.Fits) :
    args.mapM encodeArg = .ok (args.map fun arg => toHex arg.standard) := by
  induction args with
  | nil => rfl
  | cons arg args ih =>
      rw [List.forall_mem_cons] at fit
      rw [List.mapM_cons, encodeArg_eq fit.1, ih fit.2]
      rfl

theorem flatten_toHex (blocks : List (List UInt8)) :
    (blocks.map toHex).flatten = toHex blocks.flatten := by
  induction blocks with
  | nil => rfl
  | cons block blocks ih =>
      rw [List.map_cons, List.flatten_cons, ih, List.flatten_cons, toHex_append]

theorem encodeCall_standard (selector : Text) {args : List Arg}
    (fit : ∀ arg ∈ args, arg.Fits) :
    encodeCall selector args = .ok (standardCall selector args) := by
  have flat : (args.map fun arg => toHex arg.standard).flatten =
      toHex (args.map Arg.standard).flatten := by
    rw [← flatten_toHex, List.map_map]
    rfl
  rw [encodeCall, mapM_encodeArg fit]
  simp only [bind, Except.bind, flat, standardCall]
  rfl

/-- One word tells an argument of a known type. -/
theorem normal_eq_of_standard {first second : Arg} (firstFits : first.Fits)
    (secondFits : second.Fits) (sameType : first.type = second.type)
    (same : first.standard = second.standard) :
    first.normal = second.normal := by
  cases first with
  | uint value =>
      cases second with
      | uint other =>
          have read := congrArg fromBigEndian same
          simp only [Arg.standard] at read
          rw [fromBigEndian_word firstFits, fromBigEndian_word secondFits]
            at read
          rw [read]
      | bytes32 => cases sameType
  | bytes32 text =>
      cases second with
      | uint => cases sameType
      | bytes32 other =>
          obtain ⟨bytes, -, spelled⟩ := firstFits
          obtain ⟨otherBytes, -, otherSpelled⟩ := secondFits
          simp only [Arg.standard, spelled, otherSpelled, fromHex_toHex,
            Option.getD_some] at same
          simp only [Arg.normal, spelled, otherSpelled, same]

theorem normals_eq_of_flatten {first second : List Arg}
    (firstFit : ∀ arg ∈ first, arg.Fits) (secondFit : ∀ arg ∈ second, arg.Fits)
    (sameTypes : first.map Arg.type = second.map Arg.type)
    (same : (first.map Arg.standard).flatten =
      (second.map Arg.standard).flatten) :
    first.map Arg.normal = second.map Arg.normal := by
  induction first generalizing second with
  | nil =>
      cases second with
      | nil => rfl
      | cons arg args => cases sameTypes
  | cons arg args ih =>
      cases second with
      | nil => cases sameTypes
      | cons other others =>
          rw [List.forall_mem_cons] at firstFit secondFit
          rw [List.map_cons, List.map_cons] at sameTypes
          obtain ⟨sameType, restTypes⟩ := List.cons.inj sameTypes
          rw [List.map_cons, List.map_cons, List.flatten_cons,
            List.flatten_cons] at same
          have lengths : arg.standard.length = other.standard.length := by
            rw [length_standard firstFit.1, length_standard secondFit.1]
          obtain ⟨sameWord, restWords⟩ := List.append_inj same lengths
          rw [List.map_cons, List.map_cons,
            normal_eq_of_standard firstFit.1 secondFit.1 sameType sameWord,
            ih firstFit.2 secondFit.2 restTypes restWords]

theorem encodesCalls : EncodesCalls where
  standard selector _ fit := encodeCall_standard selector fit
  injective selector first second firstFit secondFit sameTypes same := by
    have digits := List.append_cancel_left (List.cons.inj (List.cons.inj same).2).2
    exact normals_eq_of_flatten firstFit secondFit sameTypes
      (toHex_injective digits)

theorem readsBack : ReadsBack where
  uint _ fits := decodeUint_abiUint fits
  address := decodeAddress_abiAddress
  string _ fits := decodeString_abiString fits
  array _ fits := decodeBytes32Array_abi fits

end Calls

section Acceptance

variable {result : Text} {data : List UInt8}

/-- A string that is returned lies inside of the result unless its length word
is cut off. -/
theorem payloadInside_string {text : Text}
    (decoded : decodeString result = .ok text)
    (whole : ¬ LengthClipped result) : PayloadInside 1 result := by
  cases read : words result with
  | error error =>
      rw [decodeString, read] at decoded
      cases decoded
  | ok data =>
      simp only [decodeString, read, lifted, Except.mapError, bind,
        Except.bind] at decoded
      rw [← offsetWord, ← lengthWord] at decoded
      split at decoded
      · cases decoded
      next exact =>
        rw [ne_eq, not_not, slice, List.length_take, List.length_drop,
          Nat.add_sub_cancel_left] at exact
        by_cases cut : data.length < offsetWord data + 32
        · have nothing : lengthWord data = 0 := by omega
          exact absurd ⟨data, read, cut, nothing⟩ whole
        · exact ⟨data, read, by omega, by omega, by omega⟩

theorem payloadInside_array {values : List Text}
    (decoded : decodeBytes32Array result = .ok values) :
    PayloadInside 32 result := by
  cases read : words result with
  | error error =>
      rw [decodeBytes32Array, read] at decoded
      cases decoded
  | ok data =>
      simp only [decodeBytes32Array, read, bind, Except.bind] at decoded
      rw [← offsetWord, ← lengthWord] at decoded
      split at decoded
      · cases decoded
      next inside => exact ⟨data, read, by omega, by omega, by omega⟩

/-- A length word that is cut off is read as an empty string. -/
theorem decodeString_of_lengthClipped (clipped : LengthClipped result) :
    decodeString result = .ok [] := by
  obtain ⟨data, read, short, zero⟩ := clipped
  have nothing : slice data (offsetWord data + 32) (offsetWord data + 32 + 0) =
      [] := by
    rw [slice, Nat.add_sub_cancel_left, List.take_zero]
  simp only [decodeString, read, lifted, Except.mapError, bind, Except.bind]
  rw [← offsetWord, ← lengthWord, zero, nothing]
  rfl

theorem not_payloadInside_of_lengthClipped {size : Nat}
    (clipped : LengthClipped result) : ¬ PayloadInside size result := by
  obtain ⟨data, read, short, -⟩ := clipped
  rintro ⟨other, otherRead, -, inside, -⟩
  rw [read] at otherRead
  obtain rfl := Except.ok.inj otherRead
  omega

theorem not_codecKeeps_of_lengthClipped (clipped : LengthClipped result) :
    ¬ CodecKeeps result := fun keeps =>
  not_payloadInside_of_lengthClipped clipped
    (keeps.string [] (decodeString_of_lengthClipped clipped))

/-- The codec keeps to the result unless the result cuts a zero length word
off. -/
theorem codecKeeps_iff (result : Text) :
    CodecKeeps result ↔ ¬ LengthClipped result := by
  constructor
  · exact fun keeps clipped => not_codecKeeps_of_lengthClipped clipped keeps
  · intro whole
    exact ⟨readsBack, encodesCalls,
      fun _ decoded => payloadInside_string decoded whole,
      fun _ decoded => payloadInside_array decoded⟩

/-- An empty result is read as an empty string. -/
theorem not_codecKeeps : ¬ CodecKeeps ['0', 'x'] :=
  not_codecKeeps_of_lengthClipped ⟨[], rfl, by decide, rfl⟩

end Acceptance

end StakingReader

end RefinetPillars
