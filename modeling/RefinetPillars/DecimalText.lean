import RefinetPillars.LineText

/-!
# Integers in decimal notation

The integers that a text can stand for: digits of any script, with single
underscores between them, a sign before them and blanks around.  The numeral of
a number reads back as that number.
-/

namespace RefinetPillars

namespace DecimalText

open HexText LineText

/-- The code points of the digit zero in every script. -/
def decimalZeros : List Nat :=
  [48, 1632, 1776, 1984, 2406, 2534, 2662, 2790, 2918, 3046, 3174, 3302, 3430,
    3558, 3664, 3792, 3872, 4160, 4240, 6112, 6160, 6470, 6608, 6784, 6800,
    6992, 7088, 7232, 7248, 42528, 43216, 43264, 43472, 43504, 43600, 44016,
    65296, 66720, 68912, 69734, 69872, 69942, 70096, 70384, 70736, 70864,
    71248, 71360, 71472, 71904, 72016, 72784, 73040, 73120, 92768, 92864,
    93008, 120782, 120792, 120802, 120812, 120822, 123200, 123632, 125264,
    130032]

def decimalValue (character : Char) : Option Nat :=
  (decimalZeros.find? fun first =>
      first ≤ character.toNat ∧ character.toNat < first + 10).map fun first =>
    character.toNat - first

/-- The value of digits after those that have been read; an underscore stands
after a digit and before one. -/
def digitsValue : Bool → Nat → Text → Option Nat
  | afterDigit, value, [] => if afterDigit then some value else none
  | afterDigit, value, character :: rest =>
      if character = '_' then
        if afterDigit then digitsValue false value rest else none
      else
        match decimalValue character with
        | none => none
        | some digit => digitsValue true (10 * value + digit) rest

/-- The blanks that may stand around an integer. -/
def isBlank (character : Char) : Bool :=
  isSpace character && !(28 ≤ character.toNat && character.toNat ≤ 31)

/-- `int` of a text. -/
def int (text : Text) : Option Int :=
  match ((text.dropWhile isBlank).reverse.dropWhile isBlank).reverse with
  | '-' :: digits => (digitsValue false 0 digits).map fun value => -(value : Int)
  | '+' :: digits => (digitsValue false 0 digits).map fun value => (value : Int)
  | digits => (digitsValue false 0 digits).map fun value => (value : Int)

/-- `str` of a natural number. -/
def numeral (number : Nat) : Text := Nat.toDigits 10 number

/-- `str` of an integer. -/
def intText : Int → Text
  | .ofNat number => numeral number
  | .negSucc number => '-' :: numeral (number + 1)

theorem decimalValue_digitChar {digit : Nat} (small : digit < 10) :
    decimalValue digit.digitChar = some digit := by
  have checked : ∀ digit : Fin 10,
      decimalValue (digit : Nat).digitChar = some (digit : Nat) := by decide
  exact checked ⟨digit, small⟩

/-- The characters of a numeral are the digits. -/
theorem exists_digit_of_mem_numeral {number : Nat} {character : Char}
    (member : character ∈ numeral number) :
    ∃ digit < 10, character = digit.digitChar := by
  induction number using Nat.strong_induction_on with
  | _ number ih =>
      rw [numeral, Nat.toDigits_eq_if (by decide)] at member
      split at member
      next small => exact ⟨number, small, List.mem_singleton.mp member⟩
      next large =>
        rcases List.mem_append.mp member with higher | lowest
        · exact ih (number / 10) (by omega) higher
        · exact ⟨number % 10, by omega, List.mem_singleton.mp lowest⟩

theorem digitsValue_digitChar {digit : Nat} (small : digit < 10)
    (afterDigit : Bool) (value : Nat) (rest : Text) :
    digitsValue afterDigit value (digit.digitChar :: rest) =
      digitsValue true (10 * value + digit) rest := by
  have notUnderscore : digit.digitChar ≠ '_' := by
    have checked : ∀ digit : Fin 10, (digit : Nat).digitChar ≠ '_' := by
      decide
    exact checked ⟨digit, small⟩
  rw [digitsValue, if_neg notUnderscore, decimalValue_digitChar small]

theorem digitsValue_digits {digits : Text}
    (areDigits : ∀ character ∈ digits, ∃ digit < 10,
      character = digit.digitChar) (value : Nat) :
    digitsValue true value digits =
      some (Nat.ofDigitChars 10 digits value) := by
  induction digits generalizing value with
  | nil => simp [digitsValue]
  | cons character digits ih =>
      obtain ⟨digit, small, rfl⟩ := areDigits character (by simp)
      rw [digitsValue_digitChar small,
        Nat.ofDigitChars_cons_digitChar_of_lt_ten small]
      exact ih (fun other member => areDigits other (by simp [member])) _

theorem numeral_ne_nil (number : Nat) : numeral number ≠ [] :=
  Nat.toDigits_ne_nil

/-- A digit is neither a blank nor a sign. -/
theorem digitChar_plain {digit : Nat} (small : digit < 10) :
    isBlank digit.digitChar = false ∧ digit.digitChar ≠ '-' ∧
      digit.digitChar ≠ '+' := by
  have checked : ∀ digit : Fin 10,
      isBlank (digit : Nat).digitChar = false ∧
        (digit : Nat).digitChar ≠ '-' ∧ (digit : Nat).digitChar ≠ '+' := by
    decide
  exact checked ⟨digit, small⟩

theorem dropWhile_isBlank_digits {digits : Text}
    (areDigits : ∀ character ∈ digits, ∃ digit < 10,
      character = digit.digitChar) : digits.dropWhile isBlank = digits := by
  cases digits with
  | nil => rfl
  | cons first digits =>
      obtain ⟨digit, small, rfl⟩ := areDigits first (by simp)
      rw [List.dropWhile_cons, (digitChar_plain small).1]
      simp

theorem trim_numeral (number : Nat) :
    (((numeral number).dropWhile isBlank).reverse.dropWhile
      isBlank).reverse = numeral number := by
  have areDigits : ∀ character ∈ numeral number, ∃ digit < 10,
      character = digit.digitChar := fun _ => exists_digit_of_mem_numeral
  rw [dropWhile_isBlank_digits areDigits, dropWhile_isBlank_digits
    fun character member => areDigits character (by simpa using member),
    List.reverse_reverse]

/-- A numeral starts with a digit, and all of it is read. -/
theorem numeral_eq_cons (number : Nat) :
    ∃ digit < 10, ∃ digits, numeral number = digit.digitChar :: digits ∧
      digitsValue false 0 (digit.digitChar :: digits) = some number := by
  have areDigits : ∀ character ∈ numeral number, ∃ digit < 10,
      character = digit.digitChar := fun _ => exists_digit_of_mem_numeral
  have value := digitsValue_digits areDigits 0
  rw [numeral, Nat.ofDigitChars_toDigits (by decide) (by decide),
    ← numeral] at value
  cases split : numeral number with
  | nil => exact absurd split (numeral_ne_nil number)
  | cons first digits =>
      obtain ⟨digit, small, rfl⟩ := areDigits first (by simp [split])
      rw [split, digitsValue_digitChar small,
        ← digitsValue_digitChar small false] at value
      exact ⟨digit, small, digits, rfl, value⟩

theorem int_numeral (number : Nat) :
    int (numeral number) = some (number : Int) := by
  have trimmed := trim_numeral number
  obtain ⟨digit, small, digits, split, value⟩ := numeral_eq_cons number
  obtain ⟨-, notMinus, notPlus⟩ := digitChar_plain small
  rw [split] at trimmed ⊢
  rw [int, trimmed]
  split
  next same => exact absurd (List.cons.inj same).1 notMinus
  next same => exact absurd (List.cons.inj same).1 notPlus
  next => rw [value]; rfl

theorem int_intText (number : Int) : int (intText number) = some number := by
  cases number with
  | ofNat number => exact int_numeral number
  | negSucc number =>
      obtain ⟨digit, small, digits, split, value⟩ :=
        numeral_eq_cons (number + 1)
      have trimmed := trim_numeral (number + 1)
      rw [dropWhile_isBlank_digits fun _ => exists_digit_of_mem_numeral]
        at trimmed
      have kept : ((numeral (number + 1)).reverse ++ ['-']).dropWhile isBlank =
          (numeral (number + 1)).reverse ++ ['-'] := by
        have reversed := congrArg List.reverse trimmed
        rw [List.reverse_reverse] at reversed
        have nonempty : ¬ (numeral (number + 1)).reverse.isEmpty := by
          simpa using numeral_ne_nil (number + 1)
        rw [List.dropWhile_append, reversed, if_neg nonempty]
      have minus : isBlank '-' = false := by decide
      rw [intText, int, List.dropWhile_cons, minus, if_neg (by simp),
        List.reverse_cons, kept, List.reverse_append, List.reverse_reverse,
        split]
      simp only [List.reverse_singleton, List.singleton_append, value,
        Int.negSucc_eq]
      rfl

theorem intText_injective : Function.Injective intText := by
  intro first second same
  have read := congrArg int same
  rw [int_intText, int_intText] at read
  exact Option.some.inj read

end DecimalText

end RefinetPillars
