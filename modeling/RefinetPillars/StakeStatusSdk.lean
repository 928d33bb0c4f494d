import RefinetPillars.PillarClient
import RefinetPillars.StakingAbiCodec
import RefinetPillars.WellKnownAgreement

/-!
# Standings in JavaScript

The package for applications asks a staking contract about a PID as a Pillar
does.  It reads the results as text: numbers are the digits that a conversion
takes, and the endpoint is cut out of the text where the numbers in it say.
-/

namespace RefinetPillars

namespace JavaScript

open HexText
open StakingReader (Json removePrefix isLowerHex selIsActive selOperatorOf
  selEndpointOf selStakeOf)

section Conversions

def isHexDigit (character : Char) : Bool := (digitValue character).isSome

/-- The number that digits spell. -/
def hexNumber (digits : Text) : Nat :=
  digits.foldl (fun value digit => 16 * value + (digitValue digit).getD 0) 0

/-- Without the blanks at the end. -/
def unblanked (text : Text) : Text :=
  (text.reverse.dropWhile isBlankOrBreak).reverse

/-- Digits, at least one, and then nothing but blanks. -/
def IsNumber (text : Text) : Prop :=
  unblanked text ≠ [] ∧ (unblanked text).all isHexDigit

instance decidableIsNumber (text : Text) : Decidable (IsNumber text) :=
  inferInstanceAs (Decidable (_ ∧ _))

/-- `BigInt("0x" + text)`. -/
def bigInt (text : Text) : Option Nat :=
  if IsNumber text then some (hexNumber (unblanked text)) else none

/-- What follows after the mark of hexadecimal digits. -/
def afterRadix : Text → Text
  | '0' :: 'x' :: rest => rest
  | '0' :: 'X' :: rest => rest
  | text => text

def withoutSign : Text → Text
  | '+' :: rest => rest
  | '-' :: rest => rest
  | text => text

/-- `parseInt(text, 16)`, which takes the digits that come first; nothing stands
for `NaN`. -/
def parseInt (text : Text) : Option Int :=
  let trimmed := text.dropWhile isBlankOrBreak
  let digits := (afterRadix (withoutSign trimmed)).takeWhile isHexDigit
  if digits = [] then none
  else if trimmed.head? = some '-' then some (-(hexNumber digits : Int))
  else some (hexNumber digits : Int)

/-- Where `.slice` cuts: `NaN` counts as zero, and a negative index from the
end. -/
def position (length : Nat) : Option Int → Nat
  | none => 0
  | some index =>
      if index < 0 then (length + index).toNat else min index.toNat length

/-- `text.slice(first, stop)`. -/
def sliceOf (text : Text) (first stop : Option Int) : Text :=
  slice text (position text.length first) (position text.length stop)

/-- The code units of a text.  What makes up a character beyond the first plane
is neither a digit nor a blank, as the replacement character is not. -/
def codeUnits (text : Text) : Text :=
  text.flatMap fun character =>
    if character.toNat < 65536 then [character]
    else [Utf8Text.replacement, Utf8Text.replacement]

example : parseInt " -0x1fg".toList = some (-31) ∧
    sliceOf "abc".toList (some (-2)) none = [] ∧
    sliceOf "abc".toList (some (-2)) (some 9) = "bc".toList := by
  decide

end Conversions

section Standings

variable (rpc : Text → Text → Option Json)

/-- Everything that is not nothing counts as true, an empty object too. -/
def isTruthy : Json → Bool
  | .array _ => true
  | .object _ => true
  | value => value.truthy

/-- The result of a call, without `0x`. -/
def ethCall (contract data : Text) : Option Text :=
  match rpc contract data with
  | some (.object fields) =>
      if isTruthy ((fields.lookup "error".toList).getD .null) then none
      else
        match fields.lookup "result".toList with
        | some (.text result) => some (removePrefix (codeUnits result))
        | _ => none
  | _ => none

/-- The characters that a result announces as a string. -/
def announced (hex : Text) : Text :=
  let offset := (parseInt (sliceOf hex (some 0) (some 64))).map (2 * ·)
  let start := offset.map (· + 64)
  let length := parseInt (sliceOf hex offset start)
  sliceOf hex start
    (start.bind fun start => length.map fun length => start + 2 * length)

def decodeString (hex : Text) : Option Text :=
  (hexToBytes (announced hex)).map PillarClient.responseText

/-- What the package says of a Pillar. -/
structure Standing where
  active : Bool
  registered : Bool
  operator : Text
  endpoint : Text
  stakeUnits : Nat
deriving DecidableEq

def stakeStatus (contract pid : Text) : Option Standing :=
  let arg := removePrefix (pid.map Char.toLower)
  let call := fun selector => ethCall rpc contract ('0' :: 'x' :: selector ++ arg)
  if ¬ (arg.length = 64 ∧ arg.all isLowerHex) then none
  else do
    let active ← call selIsActive
    let operator ← call selOperatorOf
    let endpoint ← call selEndpointOf
    let stake ← call selStakeOf
    let address := slice operator 24 64
    return { active := (← bigInt active) ≠ 0
             registered := (← bigInt address) ≠ 0
             operator := '0' :: 'x' :: address
             endpoint := ← decodeString endpoint
             stakeUnits := ← bigInt stake }

end Standings

section Digits

variable {text : Text} {bytes : List UInt8}

theorem digitValue_lt {digit : Char} {value : Nat}
    (read : digitValue digit = some value) : value < 16 := by
  unfold digitValue at read
  dsimp only at read
  split_ifs at read <;> cases read <;> omega

theorem isHexDigit_of_digitValue {digit : Char} {value : Nat}
    (read : digitValue digit = some value) : isHexDigit digit = true := by
  rw [isHexDigit, read]
  rfl

theorem code_of_isHexDigit {digit : Char} (isDigit : isHexDigit digit = true) :
    (48 ≤ digit.toNat ∧ digit.toNat ≤ 57) ∨
      (65 ≤ digit.toNat ∧ digit.toNat ≤ 70) ∨
      (97 ≤ digit.toNat ∧ digit.toNat ≤ 102) := by
  unfold isHexDigit digitValue at isDigit
  dsimp only at isDigit
  split_ifs at isDigit <;> first | omega | cases isDigit

theorem not_isBlankOrBreak {digit : Char} (isDigit : isHexDigit digit = true) :
    isBlankOrBreak digit = false := by
  have code := code_of_isHexDigit isDigit
  simp only [isBlankOrBreak, Bool.or_eq_false_iff, Bool.and_eq_false_iff,
    decide_eq_false_iff_not]
  omega

theorem not_isBlank {digit : Char} (isDigit : isHexDigit digit = true) :
    isBlank digit = false := by
  have code := code_of_isHexDigit isDigit
  simp only [isBlank, Bool.or_eq_false_iff, Bool.and_eq_false_iff,
    decide_eq_false_iff_not]
  refine ⟨?_, by omega⟩
  rintro rfl
  simp at code

/-- Two digits are one byte, for the number as for the bytes. -/
theorem foldl_of_pairs :
    (text : Text) → {bytes : List UInt8} → (first : Nat) →
      pairs text = some bytes →
        text.foldl (fun value digit => 16 * value + (digitValue digit).getD 0)
            first =
          bytes.foldl (fun value byte => 256 * value + byte.toNat) first
  | [], _, _, read => by cases read; rfl
  | [_], _, _, read => by cases read
  | high :: low :: rest, bytes, first, read => by
      rw [pairs] at read
      obtain ⟨highValue, isHigh, read⟩ := Option.bind_eq_some_iff.mp read
      obtain ⟨lowValue, isLow, read⟩ := Option.bind_eq_some_iff.mp read
      obtain ⟨others, isRest, read⟩ := Option.bind_eq_some_iff.mp read
      cases read
      have highSmall := digitValue_lt isHigh
      have lowSmall := digitValue_lt isLow
      have byte : 16 * (16 * first + highValue) + lowValue =
          256 * first + (UInt8.ofNat (16 * highValue + lowValue)).toNat := by
        rw [UInt8.toNat_ofNat']
        omega
      rw [List.foldl_cons, List.foldl_cons, List.foldl_cons, isHigh, isLow,
        Option.getD_some, Option.getD_some, foldl_of_pairs rest _ isRest, byte]

theorem hexNumber_of_pairs (read : pairs text = some bytes) :
    hexNumber text = fromBigEndian bytes :=
  foldl_of_pairs text 0 read

theorem length_of_pairs :
    (text : Text) → {bytes : List UInt8} → pairs text = some bytes →
      text.length = 2 * bytes.length
  | [], _, read => by cases read; rfl
  | [_], _, read => by cases read
  | high :: low :: rest, bytes, read => by
      rw [pairs] at read
      obtain ⟨highValue, -, read⟩ := Option.bind_eq_some_iff.mp read
      obtain ⟨lowValue, -, read⟩ := Option.bind_eq_some_iff.mp read
      obtain ⟨others, isRest, read⟩ := Option.bind_eq_some_iff.mp read
      cases read
      rw [List.length_cons, List.length_cons, List.length_cons,
        length_of_pairs rest isRest]
      omega

theorem isHexDigit_of_pairs :
    (text : Text) → {bytes : List UInt8} → pairs text = some bytes →
      ∀ digit ∈ text, isHexDigit digit = true
  | [], _, _ => by simp
  | [_], _, read => by cases read
  | high :: low :: rest, bytes, read => by
      rw [pairs] at read
      obtain ⟨highValue, isHigh, read⟩ := Option.bind_eq_some_iff.mp read
      obtain ⟨lowValue, isLow, read⟩ := Option.bind_eq_some_iff.mp read
      obtain ⟨others, isRest, read⟩ := Option.bind_eq_some_iff.mp read
      rw [List.forall_mem_cons, List.forall_mem_cons]
      exact ⟨isHexDigit_of_digitValue isHigh, isHexDigit_of_digitValue isLow,
        isHexDigit_of_pairs rest isRest⟩

theorem pairs_drop :
    (count : Nat) → (text : Text) → {bytes : List UInt8} →
      pairs text = some bytes →
        pairs (text.drop (2 * count)) = some (bytes.drop count)
  | 0, _, _, read => read
  | _ + 1, [], _, read => by cases read; rfl
  | _ + 1, [_], _, read => by cases read
  | count + 1, high :: low :: rest, bytes, read => by
      rw [pairs] at read
      obtain ⟨highValue, -, read⟩ := Option.bind_eq_some_iff.mp read
      obtain ⟨lowValue, -, read⟩ := Option.bind_eq_some_iff.mp read
      obtain ⟨others, isRest, read⟩ := Option.bind_eq_some_iff.mp read
      cases read
      exact pairs_drop count rest isRest

theorem pairs_take :
    (count : Nat) → (text : Text) → {bytes : List UInt8} →
      pairs text = some bytes →
        pairs (text.take (2 * count)) = some (bytes.take count)
  | 0, _, _, _ => rfl
  | _ + 1, [], _, read => by cases read; rfl
  | _ + 1, [_], _, read => by cases read
  | count + 1, high :: low :: rest, bytes, read => by
      rw [pairs] at read
      obtain ⟨highValue, isHigh, read⟩ := Option.bind_eq_some_iff.mp read
      obtain ⟨lowValue, isLow, read⟩ := Option.bind_eq_some_iff.mp read
      obtain ⟨others, isRest, read⟩ := Option.bind_eq_some_iff.mp read
      cases read
      change pairs (high :: low :: rest.take (2 * count)) = _
      rw [pairs, isHigh, isLow, pairs_take count rest isRest]
      rfl

/-- Pairs of digits are cut as the bytes are. -/
theorem pairs_slice (first stop : Nat) (read : pairs text = some bytes) :
    pairs (slice text (2 * first) (2 * stop)) =
      some (slice bytes first stop) := by
  rw [slice, ← Nat.mul_sub]
  exact pairs_take _ _ (pairs_drop first text read)

theorem digitValue_eq_none {character : Char}
    (plain : isHexDigit character = false) : digitValue character = none := by
  simpa [isHexDigit] using plain

/-- A text without digits spells no bytes. -/
theorem eq_nil_of_fromHex :
    (rest : Text) → {bytes : List UInt8} →
      (∀ character ∈ rest, isHexDigit character = false) →
        fromHex rest = some bytes → bytes = []
  | [], _, _, read => by cases read; rfl
  | [_], _, _, read => by
      rw [fromHex] at read
      split_ifs at read
      cases read
      rfl
  | high :: low :: rest, bytes, plain, read => by
      rw [List.forall_mem_cons] at plain
      rw [fromHex] at read
      split_ifs at read
      · exact eq_nil_of_fromHex (low :: rest) plain.2 read
      · rw [digitValue_eq_none plain.1] at read
        cases read

/-- No digits come after the first ones, so these spell all of the bytes. -/
theorem pairs_of_fromHex {rest : Text}
    (plain : ∀ character ∈ rest, isHexDigit character = false) :
    (digits : Text) → {bytes : List UInt8} →
      (∀ digit ∈ digits, isHexDigit digit = true) →
        fromHex (digits ++ rest) = some bytes → pairs digits = some bytes
  | [], bytes, _, read => by
      rw [eq_nil_of_fromHex rest plain read]
      rfl
  | [digit], bytes, areDigits, read => by
      have isDigit := not_isBlank (areDigits digit (by simp))
      cases rest with
      | nil => simp [fromHex, isDigit] at read
      | cons character rest =>
          have notDigit := digitValue_eq_none (plain character (by simp))
          rw [List.cons_append, List.nil_append, fromHex,
            if_neg (by simp [isDigit]), notDigit] at read
          obtain ⟨value, -, read⟩ := Option.bind_eq_some_iff.mp read
          cases read
  | high :: low :: digits, bytes, areDigits, read => by
      rw [List.forall_mem_cons, List.forall_mem_cons] at areDigits
      obtain ⟨isHigh, -, areRest⟩ := areDigits
      rw [List.cons_append, List.cons_append, fromHex,
        if_neg (by simp [not_isBlank isHigh])] at read
      obtain ⟨highValue, highRead, read⟩ := Option.bind_eq_some_iff.mp read
      obtain ⟨lowValue, lowRead, read⟩ := Option.bind_eq_some_iff.mp read
      obtain ⟨others, restRead, read⟩ := Option.bind_eq_some_iff.mp read
      rw [pairs, highRead, lowRead, pairs_of_fromHex plain digits areRest restRead]
      exact read

/-- A text that spells bytes has only digits and blanks. -/
theorem isBlank_of_fromHex :
    (text : Text) → {bytes : List UInt8} → fromHex text = some bytes →
      ∀ character ∈ text, isHexDigit character = false →
        isBlank character = true
  | [], _, _ => by simp
  | [_], _, read => by
      rw [fromHex] at read
      split_ifs at read with blank
      simp [blank]
  | high :: low :: rest, bytes, read => by
      rw [fromHex] at read
      split_ifs at read with blank
      · rw [List.forall_mem_cons]
        exact ⟨fun _ => blank, isBlank_of_fromHex (low :: rest) read⟩
      · obtain ⟨highValue, isHigh, read⟩ := Option.bind_eq_some_iff.mp read
        obtain ⟨lowValue, isLow, read⟩ := Option.bind_eq_some_iff.mp read
        obtain ⟨others, isRest, read⟩ := Option.bind_eq_some_iff.mp read
        rw [List.forall_mem_cons, List.forall_mem_cons,
          isHexDigit_of_digitValue isHigh, isHexDigit_of_digitValue isLow]
        exact ⟨by simp, by simp, isBlank_of_fromHex rest isRest⟩

/-- The blanks that are left out. -/
theorem exists_blanks (text : Text) :
    ∃ blanks, text = unblanked text ++ blanks ∧
      ∀ blank ∈ blanks, isHexDigit blank = false := by
  refine ⟨(text.reverse.takeWhile isBlankOrBreak).reverse, ?_, ?_⟩
  · rw [unblanked, ← List.reverse_append, List.takeWhile_append_dropWhile,
      List.reverse_reverse]
  · intro blank member
    have isBlank := List.mem_takeWhile_imp (List.mem_reverse.mp member)
    by_contra isDigit
    rw [not_isBlankOrBreak (by simpa using isDigit)] at isBlank
    cases isBlank

/-- A number of a text that spells bytes is what the bytes spell. -/
theorem hexNumber_of_fromHex (number : IsNumber text)
    (read : fromHex text = some bytes) :
    hexNumber (unblanked text) = fromBigEndian bytes ∧ bytes ≠ [] := by
  obtain ⟨blanks, whole, plain⟩ := exists_blanks text
  rw [whole] at read
  have digits := List.all_eq_true.mp number.2
  have paired := pairs_of_fromHex plain _ digits read
  refine ⟨hexNumber_of_pairs paired, ?_⟩
  rintro rfl
  apply number.1
  rw [← List.length_eq_zero_iff, length_of_pairs _ paired]
  rfl

theorem digitValue_eq_zero_iff (digit : Char) :
    digitValue digit = some 0 ↔ digit = '0' := by
  constructor
  · intro read
    unfold digitValue at read
    dsimp only at read
    have code : digit.toNat = 48 := by
      split_ifs at read <;> simp only [Option.some.injEq] at read <;> omega
    rw [← Char.ofNat_toNat digit, code]
  · rintro rfl
    rfl

theorem hexNumber_append_singleton (digits : Text) (digit : Char) :
    hexNumber (digits ++ [digit]) =
      16 * hexNumber digits + (digitValue digit).getD 0 := by
  rw [hexNumber, List.foldl_append]
  rfl

theorem hexNumber_eq_zero_iff
    (digits : ∀ digit ∈ text, isHexDigit digit = true) :
    hexNumber text = 0 ↔ ∀ digit ∈ text, digit = '0' := by
  induction text using List.reverseRecOn with
  | nil => simp [hexNumber]
  | append_singleton text last ih =>
      have front := ih fun digit member => digits digit (by simp [member])
      obtain ⟨value, read⟩ := Option.isSome_iff_exists.mp
        (show (digitValue last).isSome from digits last (by simp))
      have isZero : value = 0 ↔ last = '0' := by
        rw [← digitValue_eq_zero_iff, read, Option.some.injEq]
      rw [hexNumber_append_singleton, read, Option.getD_some, Nat.add_eq_zero_iff,
        Nat.mul_eq_zero, List.forall_mem_append, ← front, isZero]
      simp

/-- A number is zero when all of its digits are. -/
theorem hexNumber_unblanked_ne_zero_iff (number : IsNumber text) :
    hexNumber (unblanked text) ≠ 0 ↔
      ∃ character ∈ text, isHexDigit character = true ∧ character ≠ '0' := by
  obtain ⟨blanks, whole, plain⟩ := exists_blanks text
  have digits := List.all_eq_true.mp number.2
  rw [ne_eq, hexNumber_eq_zero_iff digits, not_forall]
  constructor
  · rintro ⟨digit, nonzero⟩
    rw [Classical.not_imp] at nonzero
    refine ⟨digit, ?_, digits digit nonzero.1, nonzero.2⟩
    rw [whole]
    exact List.mem_append_left _ nonzero.1
  · rintro ⟨character, member, isDigit, nonzero⟩
    rw [whole, List.mem_append] at member
    rcases member with member | member
    · exact ⟨character, fun zero => nonzero (zero member)⟩
    · rw [plain character member] at isDigit
      cases isDigit

theorem small_of_fromHex (read : fromHex text = some bytes) :
    ∀ character ∈ text, character.toNat < 128 := by
  intro character member
  cases isDigit : isHexDigit character with
  | true =>
      have code := code_of_isHexDigit isDigit
      omega
  | false =>
      have blank := isBlank_of_fromHex text read character member isDigit
      simp only [isBlank, Bool.or_eq_true, decide_eq_true_eq, Bool.and_eq_true]
        at blank
      rcases blank with rfl | blank
      · decide
      · omega

theorem codeUnits_of_small (small : ∀ character ∈ text, character.toNat < 128) :
    codeUnits text = text := by
  induction text with
  | nil => rfl
  | cons character text ih =>
      rw [List.forall_mem_cons] at small
      have first : character.toNat < 65536 := by omega
      rw [codeUnits, List.flatMap_cons, if_pos first, ← codeUnits, ih small.2]
      rfl

end Digits

section Announced

open StakingReader (offsetWord lengthWord)

variable {digits blanks : Text} {bytes : List UInt8}

theorem isBlankOrBreak_of_isBlank {character : Char}
    (blank : isBlank character = true) : isBlankOrBreak character = true := by
  simp only [isBlank, Bool.or_eq_true, decide_eq_true_eq, Bool.and_eq_true]
    at blank
  rcases blank with rfl | blank
  · decide
  · simp [isBlankOrBreak, blank]

theorem isHexDigit_of_isBlank {character : Char}
    (blank : isBlank character = true) : isHexDigit character = false := by
  by_contra digit
  rw [not_isBlank (by simpa using digit)] at blank
  cases blank

/-- The blanks after digits end a number. -/
theorem parseInt_append (areDigits : ∀ digit ∈ digits, isHexDigit digit = true)
    (areBlanks : ∀ blank ∈ blanks, isBlank blank = true) :
    parseInt (digits ++ blanks) =
      if digits = [] then none else some (hexNumber digits : Int) := by
  have none : blanks.takeWhile isHexDigit = [] := by
    rw [List.takeWhile_eq_nil_iff]
    intro _
    rw [isHexDigit_of_isBlank (areBlanks _ (List.get_mem _ _))]
    exact Bool.false_ne_true
  cases digits with
  | nil =>
      have trimmed : blanks.dropWhile isBlankOrBreak = [] := by
        rw [List.dropWhile_eq_nil_iff]
        exact fun blank member => isBlankOrBreak_of_isBlank (areBlanks blank member)
      rw [if_pos rfl, List.nil_append, parseInt, trimmed]
      rfl
  | cons first rest =>
      have firstDigit := areDigits first (by simp)
      have trimmed : (first :: (rest ++ blanks)).dropWhile isBlankOrBreak =
          first :: (rest ++ blanks) :=
        List.dropWhile_cons_of_neg (by simp [not_isBlankOrBreak firstDigit])
      have plus : first ≠ '+' := by
        rintro rfl
        cases firstDigit
      have minus : first ≠ '-' := by
        rintro rfl
        cases firstDigit
      have unsigned : withoutSign (first :: (rest ++ blanks)) =
          first :: (rest ++ blanks) := by
        rw [withoutSign]
        · rintro _ ⟨⟩
          exact plus rfl
        · rintro _ ⟨⟩
          exact minus rfl
      have known : ∀ character ∈ rest ++ blanks,
          isHexDigit character = true ∨ isBlank character = true := by
        intro character member
        rcases List.mem_append.mp member with digit | blank
        · exact .inl (areDigits character (List.mem_cons_of_mem first digit))
        · exact .inr (areBlanks character blank)
      have radix : afterRadix (first :: (rest ++ blanks)) =
          first :: (rest ++ blanks) := by
        rw [afterRadix]
        · intro others same
          rcases known 'x' (by rw [(List.cons.inj same).2]; simp) with hex | blank
          · cases hex
          · cases blank
        · intro others same
          rcases known 'X' (by rw [(List.cons.inj same).2]; simp) with hex | blank
          · cases hex
          · cases blank
      have taken : (first :: (rest ++ blanks)).takeWhile isHexDigit =
          first :: rest := by
        rw [← List.cons_append, List.takeWhile_append_of_pos areDigits, none,
          List.append_nil]
      simp only [List.cons_append, parseInt, trimmed, unsigned, radix, taken]
      rw [if_neg (by simp), if_neg (by simpa using minus), if_neg (by simp)]

theorem slice_append (first second : Text) (start stop : Nat) :
    slice (first ++ second) start stop =
      slice first start stop ++
        slice second (start - first.length) (stop - first.length) := by
  rw [slice, List.drop_append, List.take_append, List.length_drop]
  congr 2
  omega

theorem slice_append_left (first second : Text) (start : Nat) {stop : Nat}
    (inside : stop ≤ first.length) :
    slice (first ++ second) start stop = slice first start stop := by
  rw [slice_append, Nat.sub_eq_zero_of_le inside, slice, slice, Nat.zero_sub,
    List.take_zero, List.append_nil]

/-- Indices beyond the end cut at the end. -/
theorem sliceOf_natCast (text : Text) (first stop : Nat) :
    sliceOf text (some first) (some stop) = slice text first stop := by
  have bounded : ∀ index : Nat,
      position text.length (some index) = min index text.length := by
    intro index
    rw [position, if_neg (by omega), Int.toNat_natCast]
  rw [sliceOf, bounded, bounded, slice, slice]
  by_cases inside : first < text.length
  · rw [Nat.min_eq_left inside.le, List.take_eq_take_iff, List.length_drop]
    omega
  · rw [List.drop_of_length_le (by omega), List.drop_of_length_le (by omega),
      List.take_nil, List.take_nil]

/-- Nothing comes before `NaN`. -/
theorem sliceOf_none (text : Text) (first : Option Int) :
    sliceOf text first none = [] := by
  rw [sliceOf, slice, position, Nat.zero_sub, List.take_zero]

/-- The number that a part of the text spells, unless it has no digits. -/
theorem parseInt_slice (read : pairs digits = some bytes)
    (areBlanks : ∀ blank ∈ blanks, isBlank blank = true) (first stop : Nat) :
    parseInt (slice (digits ++ blanks) (2 * first) (2 * stop)) =
      if slice bytes first stop = [] then none
      else some (fromBigEndian (slice bytes first stop) : Int) := by
  have cut := pairs_slice first stop read
  have length := length_of_pairs _ cut
  have cutBlanks : ∀ blank ∈ slice blanks (2 * first - digits.length)
      (2 * stop - digits.length), isBlank blank = true := by
    intro blank member
    exact areBlanks blank (List.mem_of_mem_drop (List.mem_of_mem_take member))
  have empty : slice digits (2 * first) (2 * stop) = [] ↔
      slice bytes first stop = [] := by
    rw [← List.length_eq_zero_iff, length, ← List.length_eq_zero_iff]
    omega
  rw [slice_append, parseInt_append (isHexDigit_of_pairs _ cut) cutBlanks,
    hexNumber_of_pairs cut]
  simp only [empty]

/-- The bytes of the string that a result announces. -/
def payload (data : List UInt8) : List UInt8 :=
  slice data (offsetWord data + 32) (offsetWord data + 32 + lengthWord data)

theorem announced_of_offset {text : Text} {offset : Nat}
    (read : parseInt (sliceOf text (some 0) (some 64)) = some (offset : Int)) :
    announced text =
      sliceOf text (some (2 * (offset + 32) : Nat))
        ((parseInt (slice text (2 * offset) (2 * (offset + 32)))).map
          fun length => ((2 * (offset + 32) : Nat) : Int) + 2 * length) := by
  have doubled : (2 : Int) * offset = ((2 * offset : Nat) : Int) := by
    omega
  have start : ((2 * offset : Nat) : Int) + 64 =
      ((2 * (offset + 32) : Nat) : Int) := by
    omega
  simp only [announced, read, Option.map_some, doubled, start, Option.bind_some,
    sliceOf_natCast]

/-- The characters of a string that lies inside of the result spell its bytes,
for every offset and length. -/
theorem pairs_announced (read : pairs digits = some bytes)
    (areBlanks : ∀ blank ∈ blanks, isBlank blank = true)
    (aligned : bytes.length % 32 = 0)
    (whole : (payload bytes).length = lengthWord bytes) :
    pairs (announced (digits ++ blanks)) = some (payload bytes) := by
  have lengths := length_of_pairs _ read
  have offsetRead : parseInt (sliceOf (digits ++ blanks) (some 0) (some 64)) =
      if slice bytes 0 32 = [] then none
      else some (fromBigEndian (slice bytes 0 32) : Int) :=
    (congrArg parseInt (sliceOf_natCast _ 0 64)).trans
      (parseInt_slice read areBlanks 0 32)
  by_cases empty : slice bytes 0 32 = []
  · have nothing : bytes = [] := by
      rw [← List.length_eq_zero_iff, slice, List.length_take, List.length_drop]
        at empty
      rw [← List.length_eq_zero_iff]
      omega
    rw [if_pos empty] at offsetRead
    simp only [announced, offsetRead, Option.map_none, Option.bind_none,
      sliceOf_none]
    rw [nothing]
    decide
  · rw [if_neg empty] at offsetRead
    have offset : fromBigEndian (slice bytes 0 32) = offsetWord bytes := rfl
    rw [offset] at offsetRead
    have size : (payload bytes).length = min (lengthWord bytes)
        (bytes.length - (offsetWord bytes + 32)) := by
      rw [payload, slice, List.length_take, List.length_drop,
        Nat.add_sub_cancel_left]
    rw [announced_of_offset offsetRead, parseInt_slice read areBlanks,
      ← lengthWord]
    split_ifs with clipped
    · have noLength : lengthWord bytes = 0 := by
        rw [lengthWord, clipped]
        rfl
      rw [Option.map_none, sliceOf_none, payload, noLength, slice,
        Nat.add_sub_cancel_left, List.take_zero]
      rfl
    · have stop : ((2 * (offsetWord bytes + 32) : Nat) : Int) +
          2 * lengthWord bytes =
          ((2 * (offsetWord bytes + 32 + lengthWord bytes) : Nat) : Int) := by
        omega
      rw [Option.map_some, stop, sliceOf_natCast]
      by_cases inside : offsetWord bytes + 32 + lengthWord bytes ≤ bytes.length
      · rw [slice_append_left _ _ _ (by omega)]
        exact pairs_slice _ _ read
      · have noLength : lengthWord bytes = 0 := by
          omega
        rw [noLength, payload, noLength, slice, slice, Nat.add_zero,
          Nat.sub_self, Nat.sub_self, List.take_zero, List.take_zero]
        rfl

theorem hexToBytes_of_pairs (read : pairs digits = some bytes) :
    hexToBytes digits = some bytes := by
  unfold hexToBytes
  split
  next rest => cases read
  next => exact read

end Announced

end JavaScript

end RefinetPillars
