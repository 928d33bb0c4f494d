import RefinetPillars.HexText

/-!
# Base64

Encoding bytes, and the lenient decoder, which skips characters outside the
alphabet and stops at the padding.  What was encoded is decoded unchanged.
-/

namespace RefinetPillars

namespace Base64

open HexText

/-- The character of a sextet. -/
def sextetChar (sextet : Nat) : Char :=
  if sextet < 26 then Char.ofNat (65 + sextet)
  else if sextet < 52 then Char.ofNat (97 + (sextet - 26))
  else if sextet < 62 then Char.ofNat (48 + (sextet - 52))
  else if sextet = 62 then '+'
  else '/'

/-- The sextet of a character of the alphabet. -/
def sextetValue (character : Char) : Option Nat :=
  let code := character.toNat
  if 65 ≤ code ∧ code ≤ 90 then some (code - 65)
  else if 97 ≤ code ∧ code ≤ 122 then some (code - 97 + 26)
  else if 48 ≤ code ∧ code ≤ 57 then some (code - 48 + 52)
  else if character = '+' then some 62
  else if character = '/' then some 63
  else none

def b64encode : List UInt8 → Text
  | [] => []
  | [first] =>
      [sextetChar (first.toNat / 4), sextetChar (first.toNat % 4 * 16), '=', '=']
  | [first, second] =>
      [sextetChar (first.toNat / 4),
        sextetChar (first.toNat % 4 * 16 + second.toNat / 16),
        sextetChar (second.toNat % 16 * 4), '=']
  | first :: second :: third :: rest =>
      sextetChar (first.toNat / 4) ::
        sextetChar (first.toNat % 4 * 16 + second.toNat / 16) ::
        sextetChar (second.toNat % 16 * 4 + third.toNat / 64) ::
        sextetChar (third.toNat % 64) :: b64encode rest

/-- The decoder in the middle of a text: the position in the group of four, the
bits left over from the last character, and the paddings seen. -/
def a2bBase64 : Nat → Nat → Nat → Text → Option (List UInt8)
  | quadPos, _, _, [] => if quadPos = 0 then some [] else none
  | quadPos, leftchar, pads, thisCh :: rest =>
      if thisCh = '=' then
        if 2 ≤ quadPos then
          if 4 ≤ quadPos + (pads + 1) then some []
          else a2bBase64 quadPos leftchar (pads + 1) rest
        else a2bBase64 quadPos leftchar pads rest
      else
        match sextetValue thisCh with
        | none => a2bBase64 quadPos leftchar pads rest
        | some value =>
            match quadPos with
            | 0 => a2bBase64 1 value 0 rest
            | 1 => do
                let data ← a2bBase64 2 (value % 16) 0 rest
                return UInt8.ofNat (leftchar * 4 + value / 16) :: data
            | 2 => do
                let data ← a2bBase64 3 (value % 4) 0 rest
                return UInt8.ofNat (leftchar * 16 + value / 4) :: data
            | _ => do
                let data ← a2bBase64 0 0 0 rest
                return UInt8.ofNat (leftchar * 64 + value) :: data

/-- Decode a text, unless it is not ASCII or ends within a group. -/
def b64decode (text : Text) : Option (List UInt8) :=
  if text.all fun character => character.toNat < 128 then a2bBase64 0 0 0 text
  else none

section RoundTrip

theorem sextetChar_spec {sextet : Nat} (small : sextet < 64) :
    sextetChar sextet ≠ '=' ∧
      sextetValue (sextetChar sextet) = some sextet ∧
      (sextetChar sextet).toNat < 128 := by
  have checked : ∀ sextet : Fin 64, sextetChar sextet ≠ '=' ∧
      sextetValue (sextetChar sextet) = some (sextet : Nat) ∧
      (sextetChar sextet).toNat < 128 := by
    decide
  exact checked ⟨sextet, small⟩

section Positions

variable {sextet leftchar pads : Nat} {rest : Text}

theorem a2bBase64_zero (small : sextet < 64) :
    a2bBase64 0 leftchar pads (sextetChar sextet :: rest) =
      a2bBase64 1 sextet 0 rest := by
  obtain ⟨notPad, value, _⟩ := sextetChar_spec small
  rw [a2bBase64, if_neg notPad, value]
  rfl

theorem a2bBase64_one (byte : UInt8) (small : sextet < 64)
    (spelled : leftchar * 4 + sextet / 16 = byte.toNat) :
    a2bBase64 1 leftchar pads (sextetChar sextet :: rest) =
      (a2bBase64 2 (sextet % 16) 0 rest).map (byte :: ·) := by
  obtain ⟨notPad, value, _⟩ := sextetChar_spec small
  rw [a2bBase64, if_neg notPad, value]
  dsimp only
  rw [spelled, UInt8.ofNat_toNat]
  cases a2bBase64 2 (sextet % 16) 0 rest <;> rfl

theorem a2bBase64_two (byte : UInt8) (small : sextet < 64)
    (spelled : leftchar * 16 + sextet / 4 = byte.toNat) :
    a2bBase64 2 leftchar pads (sextetChar sextet :: rest) =
      (a2bBase64 3 (sextet % 4) 0 rest).map (byte :: ·) := by
  obtain ⟨notPad, value, _⟩ := sextetChar_spec small
  rw [a2bBase64, if_neg notPad, value]
  dsimp only
  rw [spelled, UInt8.ofNat_toNat]
  cases a2bBase64 3 (sextet % 4) 0 rest <;> rfl

theorem a2bBase64_three (byte : UInt8) (small : sextet < 64)
    (spelled : leftchar * 64 + sextet = byte.toNat) :
    a2bBase64 3 leftchar pads (sextetChar sextet :: rest) =
      (a2bBase64 0 0 0 rest).map (byte :: ·) := by
  obtain ⟨notPad, value, _⟩ := sextetChar_spec small
  rw [a2bBase64, if_neg notPad, value]
  dsimp only
  rw [spelled, UInt8.ofNat_toNat]
  cases a2bBase64 0 0 0 rest <;> rfl

end Positions

theorem a2bBase64_b64encode (bytes : List UInt8) (leftchar pads : Nat) :
    a2bBase64 0 leftchar pads (b64encode bytes) = some bytes := by
  induction bytes using b64encode.induct generalizing leftchar pads with
  | case1 => rfl
  | case2 first =>
      have firstByte := first.toNat_lt
      rw [b64encode, a2bBase64_zero (by omega),
        a2bBase64_one first (by omega) (by omega)]
      rfl
  | case3 first second =>
      have firstByte := first.toNat_lt
      have secondByte := second.toNat_lt
      rw [b64encode, a2bBase64_zero (by omega),
        a2bBase64_one first (by omega) (by omega),
        a2bBase64_two second (by omega) (by omega)]
      rfl
  | case4 first second third rest ih =>
      have firstByte := first.toNat_lt
      have secondByte := second.toNat_lt
      have thirdByte := third.toNat_lt
      rw [b64encode, a2bBase64_zero (by omega),
        a2bBase64_one first (by omega) (by omega),
        a2bBase64_two second (by omega) (by omega),
        a2bBase64_three third (by omega) (by omega), ih]
      rfl

theorem b64encode_ascii (bytes : List UInt8) :
    ∀ character ∈ b64encode bytes, character.toNat < 128 := by
  have padAscii : '='.toNat < 128 := by decide
  induction bytes using b64encode.induct with
  | case1 => simp [b64encode]
  | case2 first =>
      have firstByte := first.toNat_lt
      simp only [b64encode, List.forall_mem_cons]
      exact ⟨(sextetChar_spec (by omega)).2.2,
        (sextetChar_spec (by omega)).2.2, padAscii, padAscii, by simp⟩
  | case3 first second =>
      have firstByte := first.toNat_lt
      have secondByte := second.toNat_lt
      simp only [b64encode, List.forall_mem_cons]
      exact ⟨(sextetChar_spec (by omega)).2.2,
        (sextetChar_spec (by omega)).2.2,
        (sextetChar_spec (by omega)).2.2, padAscii, by simp⟩
  | case4 first second third rest ih =>
      have firstByte := first.toNat_lt
      have secondByte := second.toNat_lt
      have thirdByte := third.toNat_lt
      simp only [b64encode, List.forall_mem_cons]
      exact ⟨(sextetChar_spec (by omega)).2.2,
        (sextetChar_spec (by omega)).2.2,
        (sextetChar_spec (by omega)).2.2,
        (sextetChar_spec (by omega)).2.2, ih⟩

/-- Decoding what was encoded. -/
@[simp]
theorem b64decode_b64encode (bytes : List UInt8) :
    b64decode (b64encode bytes) = some bytes := by
  rw [b64decode, if_pos (by simpa using b64encode_ascii bytes),
    a2bBase64_b64encode]

end RoundTrip

end Base64

end RefinetPillars
