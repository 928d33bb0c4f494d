import RefinetPillars.KeyRecovery

/-!
# Texts that are read from bytes

Decoding UTF-8 in which what cannot be decoded is replaced.  What was encoded
is decoded to itself.
-/

namespace RefinetPillars

namespace Utf8Text

open HexText KeyRecovery

/-- The replacement character. -/
def replacement : Char := Char.ofNat 65533

def isContinuation (byte : UInt8) : Bool :=
  128 ≤ byte.toNat && byte.toNat < 192

/-- Whether a byte can follow the first byte of a character. -/
def isSecond (first byte : UInt8) : Bool :=
  let code := byte.toNat
  if first = 224 then 160 ≤ code && code < 192
  else if first = 237 then 128 ≤ code && code < 160
  else if first = 240 then 144 ≤ code && code < 192
  else if first = 244 then 128 ≤ code && code < 144
  else isContinuation byte

/-- How many bytes are replaced by one character where no character starts: the
longest start of a character. -/
def invalidLength (bytes : List UInt8) : Nat :=
  match bytes with
  | first :: second :: third :: _ =>
      if 240 ≤ first.toNat ∧ first.toNat < 245 ∧ isSecond first second then
        if isContinuation third then 3 else 2
      else if 224 ≤ first.toNat ∧ first.toNat < 240 ∧ isSecond first second then
        2
      else 1
  | [first, second] =>
      if 224 ≤ first.toNat ∧ first.toNat < 245 ∧ isSecond first second then 2
      else 1
  | _ => 1

/-- Decode what follows so many more bytes of the character before. -/
def decodeFrom : Nat → List UInt8 → Text
  | _, [] => []
  | skipped + 1, _ :: rest => decodeFrom skipped rest
  | 0, first :: rest =>
      match (first :: rest).toByteArray.utf8DecodeChar? 0 with
      | some character =>
          character :: decodeFrom (character.utf8Size - 1) rest
      | none =>
          replacement :: decodeFrom (invalidLength (first :: rest) - 1) rest

/-- `bytes.decode` with replacements. -/
def decodeUtf8 (bytes : List UInt8) : Text := decodeFrom 0 bytes

example : decodeUtf8 [65, 226, 130, 172, 226, 130, 66] =
    ['A', Char.ofNat 8364, replacement, 'B'] := by
  decide +kernel

theorem decodeFrom_append (skipped rest : List UInt8) :
    decodeFrom skipped.length (skipped ++ rest) = decodeFrom 0 rest := by
  induction skipped with
  | nil => rfl
  | cons byte skipped ih =>
      rw [List.length_cons, List.cons_append, decodeFrom, ih]

theorem decodeUtf8_encodeChar_append (character : Char) (rest : List UInt8) :
    decodeUtf8 (String.utf8EncodeChar character ++ rest) =
      character :: decodeUtf8 rest := by
  have size := String.length_utf8EncodeChar character
  cases encoded : String.utf8EncodeChar character with
  | nil =>
      rw [encoded, List.length_nil] at size
      exact absurd size.symm character.utf8Size_pos.ne'
  | cons first tail =>
      have decoded : (first :: (tail ++ rest)).toByteArray.utf8DecodeChar? 0 =
          some character := by
        rw [← List.cons_append, ← encoded, List.toByteArray_append]
        exact ByteArray.utf8DecodeChar?_utf8EncodeChar_append
      rw [encoded, List.length_cons] at size
      rw [List.cons_append, decodeUtf8, decodeFrom, decoded]
      have skipped := decodeFrom_append tail rest
      rw [show tail.length = character.utf8Size - 1 by omega] at skipped
      exact congrArg _ skipped

/-- What was encoded is decoded to itself. -/
theorem decodeUtf8_encodeUtf8 (text : Text) :
    decodeUtf8 (encodeUtf8 text) = text := by
  induction text with
  | nil => rfl
  | cons character text ih =>
      rw [encodeUtf8, List.flatMap_cons, decodeUtf8_encodeChar_append]
      exact congrArg _ ih

end Utf8Text

end RefinetPillars
