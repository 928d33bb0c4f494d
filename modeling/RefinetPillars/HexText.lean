import Mathlib

/-!
# Hexadecimal text and big-endian words

Byte strings written as hexadecimal text read back unchanged, and so do numbers
written as big-endian bytes.  Text is a list of characters.
-/

namespace RefinetPillars

namespace HexText

abbrev Text := List Char

/-- Found before the general instances, so that membership of texts and byte
strings is decided the same way in every module. -/
instance lawfulBEqText : LawfulBEq Text := inferInstance

instance lawfulBEqBytes : LawfulBEq (List UInt8) := inferInstance

instance lawfulBEqBytesPair : LawfulBEq (List UInt8 × List UInt8) := inferInstance

/-- The value of a hexadecimal digit in either case. -/
def digitValue (character : Char) : Option Nat :=
  let code := character.toNat
  if 48 ≤ code ∧ code ≤ 57 then some (code - 48)
  else if 97 ≤ code ∧ code ≤ 102 then some (code - 87)
  else if 65 ≤ code ∧ code ≤ 70 then some (code - 55)
  else none

theorem digitValue_digitChar {value : Nat} (small : value < 16) :
    digitValue value.digitChar = some value := by
  have checked : ∀ digit : Fin 16,
      digitValue (digit : Nat).digitChar = some (digit : Nat) := by decide
  exact checked ⟨value, small⟩

/-- A byte as two lower-case digits. -/
def byteText (byte : UInt8) : Text :=
  [(byte.toNat / 16).digitChar, (byte.toNat % 16).digitChar]

/-- Bytes as lower-case hexadecimal text. -/
def toHex (bytes : List UInt8) : Text :=
  bytes.flatMap byteText

theorem toHex_append (first second : List UInt8) :
    toHex (first ++ second) = toHex first ++ toHex second :=
  List.flatMap_append

theorem exists_digit_of_mem_toHex {character : Char} {bytes : List UInt8}
    (member : character ∈ toHex bytes) :
    ∃ value < 16, character = value.digitChar := by
  obtain ⟨byte, -, digit⟩ := List.mem_flatMap.mp member
  have bound := byte.toNat_lt
  simp only [byteText, List.mem_cons, List.not_mem_nil, or_false] at digit
  rcases digit with isHigh | isLow
  · exact ⟨byte.toNat / 16, by omega, isHigh⟩
  · exact ⟨byte.toNat % 16, by omega, isLow⟩

/-- The digits are in lower case. -/
theorem map_toLower_toHex (bytes : List UInt8) :
    (toHex bytes).map Char.toLower = toHex bytes := by
  have checked : ∀ value : Fin 16,
      (value : Nat).digitChar.toLower = (value : Nat).digitChar := by
    decide
  conv_rhs => rw [← List.map_id (toHex bytes)]
  apply List.map_congr_left
  intro character member
  obtain ⟨value, small, rfl⟩ := exists_digit_of_mem_toHex member
  exact checked ⟨value, small⟩

theorem colon_notMem_toHex (bytes : List UInt8) : ':' ∉ toHex bytes := by
  intro member
  obtain ⟨value, small, isDigit⟩ := exists_digit_of_mem_toHex member
  have checked : ∀ value : Fin 16, (value : Nat).digitChar ≠ ':' := by decide
  exact checked ⟨value, small⟩ isDigit.symm

/-- ASCII whitespace. -/
def isBlank (character : Char) : Bool :=
  character = ' ' || (9 ≤ character.toNat && character.toNat ≤ 13)

/-- The bytes of a hexadecimal text, skipping blanks between bytes. -/
def fromHex : Text → Option (List UInt8)
  | [] => some []
  | [high] => if isBlank high then some [] else none
  | high :: low :: rest =>
      if isBlank high then fromHex (low :: rest)
      else do
        let highValue ← digitValue high
        let lowValue ← digitValue low
        let bytes ← fromHex rest
        return UInt8.ofNat (16 * highValue + lowValue) :: bytes

theorem not_isBlank_digitChar {value : Nat} (small : value < 16) :
    isBlank value.digitChar = false := by
  have checked : ∀ digit : Fin 16, isBlank (digit : Nat).digitChar = false := by
    decide
  exact checked ⟨value, small⟩

/-- Reading back what was written. -/
@[simp]
theorem fromHex_toHex (bytes : List UInt8) :
    fromHex (toHex bytes) = some bytes := by
  induction bytes with
  | nil => rfl
  | cons byte bytes ih =>
      have bound := byte.toNat_lt
      have high : byte.toNat / 16 < 16 := by omega
      have low : byte.toNat % 16 < 16 := by omega
      have whole : 16 * (byte.toNat / 16) + byte.toNat % 16 = byte.toNat := by
        omega
      change fromHex ((byte.toNat / 16).digitChar ::
        (byte.toNat % 16).digitChar :: toHex bytes) = _
      simp only [fromHex, not_isBlank_digitChar high,
        digitValue_digitChar high, digitValue_digitChar low, ih,
        Bool.false_eq_true, if_false, Option.bind_eq_bind, Option.bind_some,
        Option.pure_def, whole, UInt8.ofNat_toNat]

theorem toHex_injective {first second : List UInt8}
    (same : toHex first = toHex second) : first = second := by
  have readBack := congrArg fromHex same
  simpa using readBack

def isLowerHexDigit (character : Char) : Bool :=
  (48 ≤ character.toNat && character.toNat ≤ 57) ||
    (97 ≤ character.toNat && character.toNat ≤ 102)

theorem exists_digitChar {character : Char}
    (lowerHex : isLowerHexDigit character = true) :
    ∃ value < 16, value.digitChar = character := by
  have checked : ∀ code : Fin 103, isLowerHexDigit (Char.ofNat code) = true →
      ∃ value : Fin 16, (value : Nat).digitChar = Char.ofNat code := by
    decide
  have small : character.toNat < 103 := by
    simp only [isLowerHexDigit, Bool.or_eq_true, Bool.and_eq_true,
      decide_eq_true_eq] at lowerHex
    omega
  have found := checked ⟨character.toNat, small⟩
  simp only [Char.ofNat_toNat] at found
  obtain ⟨value, same⟩ := found lowerHex
  exact ⟨value, value.isLt, same⟩

/-- Lower-case hexadecimal text of even length spells bytes. -/
theorem exists_toHex {text : Text} (even : Even text.length)
    (lowerHex : ∀ character ∈ text, isLowerHexDigit character = true) :
    ∃ bytes, toHex bytes = text := by
  induction text using List.twoStepInduction with
  | nil => exact ⟨[], rfl⟩
  | singleton character => simp at even
  | cons_cons first second text ih _ =>
      simp only [List.forall_mem_cons] at lowerHex
      obtain ⟨firstHex, secondHex, restHex⟩ := lowerHex
      obtain ⟨high, highSmall, rfl⟩ := exists_digitChar firstHex
      obtain ⟨low, lowSmall, rfl⟩ := exists_digitChar secondHex
      have restEven : Even text.length := by
        simpa [Nat.even_add_one] using even
      obtain ⟨bytes, rfl⟩ := ih restEven restHex
      refine ⟨UInt8.ofNat (16 * high + low) :: bytes, ?_⟩
      have value : (UInt8.ofNat (16 * high + low)).toNat = 16 * high + low := by
        rw [UInt8.toNat_ofNat']
        omega
      have highDigit : (16 * high + low) / 16 = high := by omega
      have lowDigit : (16 * high + low) % 16 = low := by omega
      rw [toHex, List.flatMap_cons, byteText, value, highDigit, lowDigit]
      rfl

/-- The lowest `width` bytes of a number, most significant first. -/
def bigEndian : Nat → Nat → List UInt8
  | 0, _ => []
  | width + 1, value => bigEndian width (value / 256) ++ [UInt8.ofNat value]

/-- The number that bytes spell, most significant first. -/
def fromBigEndian (bytes : List UInt8) : Nat :=
  bytes.foldl (fun value byte => 256 * value + byte.toNat) 0

@[simp]
theorem length_bigEndian (width value : Nat) :
    (bigEndian width value).length = width := by
  induction width generalizing value with
  | zero => rfl
  | succ width ih => simp [bigEndian, ih]

/-- A number that fits is read back. -/
theorem fromBigEndian_bigEndian {width value : Nat}
    (fits : value < 256 ^ width) :
    fromBigEndian (bigEndian width value) = value := by
  induction width generalizing value with
  | zero =>
      have : value = 0 := by simpa using fits
      simp [bigEndian, fromBigEndian, this]
  | succ width ih =>
      have smaller : value / 256 < 256 ^ width := by
        rw [Nat.div_lt_iff_lt_mul (by decide), ← Nat.pow_succ]
        exact fits
      have front := ih smaller
      simp only [fromBigEndian] at front
      simp only [bigEndian, fromBigEndian, List.foldl_append, front,
        List.foldl_cons, List.foldl_nil, UInt8.toNat_ofNat']
      omega

theorem foldl_bytes (bytes : List UInt8) (first : Nat) :
    bytes.foldl (fun value byte => 256 * value + byte.toNat) first =
      256 ^ bytes.length * first + fromBigEndian bytes := by
  induction bytes generalizing first with
  | nil => simp [fromBigEndian]
  | cons byte bytes ih =>
      have alone := ih (256 * 0 + byte.toNat)
      rw [← List.foldl_cons, ← fromBigEndian] at alone
      rw [List.foldl_cons, ih, alone, List.length_cons]
      ring

theorem fromBigEndian_append (first second : List UInt8) :
    fromBigEndian (first ++ second) =
      256 ^ second.length * fromBigEndian first + fromBigEndian second := by
  rw [fromBigEndian, List.foldl_append, foldl_bytes]
  rfl

theorem fromBigEndian_eq_zero_iff (bytes : List UInt8) :
    fromBigEndian bytes = 0 ↔ ∀ byte ∈ bytes, byte = 0 := by
  induction bytes with
  | nil => simp [fromBigEndian]
  | cons byte bytes ih =>
      have whole := fromBigEndian_append [byte] bytes
      have alone : fromBigEndian [byte] = 0 ↔ byte = 0 := by
        rw [← UInt8.toNat_inj]
        simp [fromBigEndian]
      rw [List.singleton_append] at whole
      rw [whole, Nat.add_eq_zero_iff, Nat.mul_eq_zero, List.forall_mem_cons, ih,
        alone]
      simp

/-- The lowest `width` hexadecimal digits of a number. -/
def hexDigits : Nat → Nat → Text
  | 0, _ => []
  | width + 1, value =>
      hexDigits width (value / 16) ++ [(value % 16).digitChar]

/-- Bytes as text spell the digits of their number. -/
theorem toHex_bigEndian (width value : Nat) :
    toHex (bigEndian width value) = hexDigits (2 * width) value := by
  induction width generalizing value with
  | zero => rfl
  | succ width ih =>
      have front := ih (value / 256)
      have high : value % 256 / 16 = value / 16 % 16 := by omega
      have low : value % 256 % 16 = value % 16 := by omega
      have shifted : value / 16 / 16 = value / 256 := by omega
      simp only [toHex] at front
      rw [bigEndian, toHex, List.flatMap_append, front, Nat.mul_succ,
        hexDigits, hexDigits, shifted]
      simp [byteText, high, low]

theorem hexDigits_zero (width : Nat) :
    hexDigits width 0 = List.replicate width '0' := by
  induction width with
  | zero => rfl
  | succ width ih => simp [hexDigits, ih, List.replicate_succ']

/-- Lower-case digits without leading zeros, padded to a width. -/
def padded (width value : Nat) : Text :=
  (Nat.toDigits 16 value).leftpad width '0'

/-- Padding a number that fits gives its digits. -/
theorem padded_eq_hexDigits {width value : Nat} (positive : 0 < width)
    (fits : value < 16 ^ width) :
    padded width value = hexDigits width value := by
  induction width generalizing value with
  | zero => omega
  | succ width ih =>
      by_cases small : value < 16
      · have quotient : value / 16 = 0 := by omega
        have remainder : value % 16 = value := by omega
        simp [padded, List.leftpad, Nat.toDigits_of_lt_base small, hexDigits,
          quotient, remainder, hexDigits_zero]
      · have smaller : value / 16 < 16 ^ width := by
          rw [Nat.div_lt_iff_lt_mul (by decide), ← Nat.pow_succ]
          exact fits
        have wide : 0 < width := by
          by_contra narrow
          obtain rfl : width = 0 := by omega
          simp at fits
          omega
        rw [hexDigits, ← ih wide smaller, padded, padded,
          Nat.toDigits_of_base_le (by decide) (by omega)]
        simp [List.leftpad]

section Slices

variable {Element : Type*}

/-- The elements from index `first` up to index `stop`. -/
def slice (data : List Element) (first stop : Nat) : List Element :=
  (data.drop first).take (stop - first)

/-- Cutting concatenated blocks of one size gives the blocks back. -/
theorem slices_flatten {size : Nat} {blocks : List (List Element)}
    (sized : ∀ block ∈ blocks, block.length = size)
    (before : List Element) :
    (List.range blocks.length).map (fun index =>
      slice (before ++ blocks.flatten) (before.length + size * index)
        (before.length + size * (index + 1))) = blocks := by
  induction blocks generalizing before with
  | nil => rfl
  | cons block blocks ih =>
      have blockSize := sized block (by simp)
      have rest := ih (fun other member => sized other (by simp [member]))
        (before ++ block)
      rw [List.length_cons, List.range_succ_eq_map, List.map_cons,
        List.map_map]
      congr 1
      · simp [slice, blockSize]
      · refine Eq.trans (List.map_congr_left fun index _ => ?_) rest
        have first : before.length + size * (index + 1) =
            (before ++ block).length + size * index := by
          rw [List.length_append, blockSize, Nat.mul_succ]
          omega
        have stop : before.length + size * (index + 1 + 1) =
            (before ++ block).length + size * (index + 1) := by
          rw [List.length_append, blockSize, Nat.mul_succ size (index + 1)]
          omega
        simp only [Function.comp_apply, List.flatten_cons, Nat.succ_eq_add_one,
          first, stop, List.append_assoc]

end Slices

end HexText

end RefinetPillars
