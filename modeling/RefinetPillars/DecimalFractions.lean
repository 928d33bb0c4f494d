import RefinetPillars.DecimalText

/-!
# Decimal fractions

Digits after a point stand for a fraction.  Zeros at their end can be dropped,
and the first digits of a number that is padded to a width are its quotient.
-/

namespace RefinetPillars

namespace DecimalFractions

open DecimalText HexText

def digitsNat (digits : Text) : ℕ := Nat.ofDigitChars 10 digits 0

/-- What digits after a point stand for. -/
def fraction (digits : Text) : ℚ := digitsNat digits / 10 ^ digits.length

/-- `str.rjust` with zeros. -/
def padded (width : ℕ) (digits : Text) : Text :=
  List.replicate (width - digits.length) '0' ++ digits

def AreDigits (digits : Text) : Prop :=
  ∀ character ∈ digits, ∃ digit < 10, character = digit.digitChar

theorem areDigits_numeral (number : ℕ) : AreDigits (numeral number) :=
  fun _ => exists_digit_of_mem_numeral

theorem AreDigits.append {first second : Text} (firstDigits : AreDigits first)
    (secondDigits : AreDigits second) : AreDigits (first ++ second) := by
  intro character member
  rcases List.mem_append.mp member with inFirst | inSecond
  · exact firstDigits character inFirst
  · exact secondDigits character inSecond

theorem areDigits_padded (width number : ℕ) :
    AreDigits (padded width (numeral number)) := by
  refine AreDigits.append ?_ (areDigits_numeral number)
  intro character member
  exact ⟨0, by decide, List.eq_of_mem_replicate member⟩

theorem digitsNat_append (first second : Text) :
    digitsNat (first ++ second) =
      10 ^ second.length * digitsNat first + digitsNat second := by
  rw [digitsNat, Nat.ofDigitChars_append, Nat.ofDigitChars_eq_ofDigitChars_zero]
  rfl

theorem digitsNat_numeral (number : ℕ) : digitsNat (numeral number) = number :=
  Nat.ofDigitChars_toDigits (by decide) (by decide)

theorem digitsNat_padded (width : ℕ) (digits : Text) :
    digitsNat (padded width digits) = digitsNat digits := by
  rw [padded, digitsNat_append, digitsNat, Nat.ofDigitChars_replicate_zero]
  simp

theorem digitsNat_lt {digits : Text} (areDigits : AreDigits digits) :
    digitsNat digits < 10 ^ digits.length := by
  induction digits with
  | nil => decide
  | cons first digits ih =>
      obtain ⟨digit, small, rfl⟩ := areDigits first (.head _)
      have later := ih fun character member =>
        areDigits character (.tail _ member)
      rw [digitsNat, Nat.ofDigitChars_cons_digitChar_of_lt_ten small,
        Nat.ofDigitChars_eq_ofDigitChars_zero, List.length_cons, pow_succ]
      change _ + digitsNat digits < _
      have bound : 10 ^ digits.length * (10 * 0 + digit) ≤
          10 ^ digits.length * 9 := Nat.mul_le_mul_left _ (by omega)
      omega

theorem length_padded {width number : ℕ} (positive : 0 < width)
    (fits : number < 10 ^ width) :
    (padded width (numeral number)).length = width := by
  have short : (numeral number).length ≤ width :=
    (Nat.length_toDigits_le_iff (by decide) positive).mpr fits
  rw [padded, List.length_append, List.length_replicate]
  omega

/-- The first digits are the quotient by the others. -/
theorem digitsNat_take {digits : Text} (areDigits : AreDigits digits)
    (count : ℕ) :
    digitsNat (digits.take count) =
      digitsNat digits / 10 ^ (digits.length - count) := by
  have split := digitsNat_append (digits.take count) (digits.drop count)
  rw [List.take_append_drop, List.length_drop] at split
  have small := @digitsNat_lt (digits.drop count)
    fun character member => areDigits character (List.mem_of_mem_drop member)
  rw [List.length_drop] at small
  rw [split, Nat.mul_add_div (by positivity), Nat.div_eq_of_lt small,
    Nat.add_zero]

/-- Zeros at the end change no fraction. -/
theorem fraction_rdropWhile (digits : Text) :
    fraction (digits.rdropWhile (· = '0')) = fraction digits := by
  induction digits using List.reverseRecOn with
  | nil => rfl
  | append_singleton digits last ih =>
      by_cases zero : last = '0'
      · subst zero
        have ten : digitsNat (digits ++ ['0']) = digitsNat digits * 10 := by
          rw [digitsNat_append, mul_comm]
          rfl
        rw [List.rdropWhile_concat_pos _ _ _ (by simp), ih, fraction, fraction,
          ten, List.length_append, List.length_singleton, pow_succ,
          Nat.cast_mul]
        exact (mul_div_mul_right _ _ (by norm_num)).symm
      · rw [List.rdropWhile_concat_neg _ _ _ (by simpa using zero)]

end DecimalFractions

end RefinetPillars
