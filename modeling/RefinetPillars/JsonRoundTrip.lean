import RefinetPillars.JsonText

/-!
# Documents that are printed and read again

A value whose objects have distinct keys, and whose numbers read as they are
printed, is what its text is read as.
-/

namespace RefinetPillars

namespace JsonText

open HexText LineText DecimalText

section Characters

variable (floatRepr : Text → Text) (frames : List Frame) (isKey : Bool)
  (read rest : Text)

theorem digitValue_hexDigit (value : Nat) :
    digitValue (value % 16).digitChar = some (value % 16) :=
  digitValue_digitChar (Nat.mod_lt _ (by decide))

theorem hexValue_hexDigits {code : Nat} (fits : code < 65536) :
    hexValue (hexDigits 4 code) = code := by
  simp only [hexValue, hexDigits, List.nil_append, List.cons_append,
    List.foldl_cons, List.foldl_nil, digitValue_hexDigit, Option.getD_some]
  omega

/-- One more digit of an escape. -/
theorem step_unicode (high : Option Nat) (digits : Text) (value : Nat) :
    step floatRepr ⟨frames, .unicode isKey read high digits⟩
        (value % 16).digitChar =
      if (digits ++ [(value % 16).digitChar]).length < 4 then
        some ⟨frames,
          .unicode isKey read high (digits ++ [(value % 16).digitChar])⟩
      else
        (afterUnicode isKey read high
          (hexValue (digits ++ [(value % 16).digitChar]))).map fun mode =>
            ⟨frames, mode⟩ := by
  rw [step]
  dsimp only
  rw [digitValue_hexDigit]

/-- The digits of an escape. -/
theorem run_hexDigits {code : Nat} (fits : code < 65536) (high : Option Nat) :
    (hexDigits 4 code ++ rest).foldlM (step floatRepr)
        ⟨frames, .unicode isKey read high []⟩ =
      ((afterUnicode isKey read high code).map fun mode =>
        (⟨frames, mode⟩ : Reader)).bind
          (rest.foldlM (step floatRepr)) := by
  have value := hexValue_hexDigits fits
  have spelled : hexDigits 4 code = [(code / 16 / 16 / 16 % 16).digitChar,
      (code / 16 / 16 % 16).digitChar, (code / 16 % 16).digitChar,
      (code % 16).digitChar] := rfl
  have last := step_unicode floatRepr frames isKey read high
    [(code / 16 / 16 / 16 % 16).digitChar, (code / 16 / 16 % 16).digitChar,
      (code / 16 % 16).digitChar] code
  rw [if_neg (by simp), List.cons_append, List.cons_append, List.cons_append,
    List.nil_append, ← spelled, value] at last
  rw [← last, spelled]
  simp only [List.cons_append, List.nil_append, List.foldlM_cons]
  have started := step_unicode floatRepr frames isKey read high
  rw [started, if_pos (by simp)]
  dsimp only [Option.bind_eq_bind, Option.bind_some]
  rw [started, if_pos (by simp), Option.bind_some, started,
    if_pos (by simp), Option.bind_some]
  rfl

/-- A code that is no half of a pair. -/
theorem run_unicodeEscape {code : Nat} (fits : code < 65536)
    (alone : ¬ (55296 ≤ code ∧ code < 57344)) :
    (unicodeEscape code ++ rest).foldlM (step floatRepr)
        ⟨frames, .text isKey read⟩ =
      rest.foldlM (step floatRepr)
        ⟨frames, .text isKey (read ++ [Char.ofNat code])⟩ := by
  have started : (unicodeEscape code ++ rest).foldlM (step floatRepr)
      ⟨frames, .text isKey read⟩ =
      (hexDigits 4 code ++ rest).foldlM (step floatRepr)
        ⟨frames, .unicode isKey read none []⟩ := rfl
  rw [started, run_hexDigits floatRepr frames isKey read rest fits none,
    afterUnicode, if_neg (by omega), if_neg (by omega)]
  rfl

/-- Two halves of a pair. -/
theorem run_pair {high low : Nat} (isHigh : 55296 ≤ high ∧ high < 56320)
    (isLow : 56320 ≤ low ∧ low < 57344) :
    (unicodeEscape high ++ unicodeEscape low ++ rest).foldlM (step floatRepr)
        ⟨frames, .text isKey read⟩ =
      rest.foldlM (step floatRepr)
        ⟨frames, .text isKey (read ++ [Char.ofNat
          (65536 + 1024 * (high - 55296) + (low - 56320))])⟩ := by
  have started : (unicodeEscape high ++ (unicodeEscape low ++ rest)).foldlM
      (step floatRepr) ⟨frames, .text isKey read⟩ =
      (hexDigits 4 high ++ (unicodeEscape low ++ rest)).foldlM (step floatRepr)
        ⟨frames, .unicode isKey read none []⟩ := rfl
  have between : (unicodeEscape low ++ rest).foldlM (step floatRepr)
      ⟨frames, .afterHigh isKey read high false⟩ =
      (hexDigits 4 low ++ rest).foldlM (step floatRepr)
        ⟨frames, .unicode isKey read (some high) []⟩ := rfl
  rw [List.append_assoc, started,
    run_hexDigits floatRepr frames isKey read _ (by omega) none,
    afterUnicode, if_pos isHigh, Option.map_some, Option.bind_some, between,
    run_hexDigits floatRepr frames isKey read rest (by omega) (some high),
    afterUnicode, if_pos isLow, Option.map_some, Option.bind_some]

/-- A character above the first plane is printed as two halves. -/
theorem run_surrogates {code : Nat} (above : 65536 ≤ code)
    (fits : code < 1114112) :
    (unicodeEscape (55296 + (code - 65536) / 1024) ++
        unicodeEscape (56320 + (code - 65536) % 1024) ++ rest).foldlM
        (step floatRepr) ⟨frames, .text isKey read⟩ =
      rest.foldlM (step floatRepr)
        ⟨frames, .text isKey (read ++ [Char.ofNat code])⟩ := by
  have whole : 65536 + 1024 * (55296 + (code - 65536) / 1024 - 55296) +
      (56320 + (code - 65536) % 1024 - 56320) = code := by omega
  rw [run_pair floatRepr frames isKey read rest (by omega) (by omega), whole]

theorem ofNat_toNat_of_eq {character : Char} {code : Nat}
    (isCode : character.toNat = code) : Char.ofNat code = character := by
  rw [← isCode, Char.ofNat_toNat]

theorem toNat_alone (character : Char) :
    ¬ (55296 ≤ character.toNat ∧ character.toNat < 57344) ∧
      character.toNat < 1114112 := by
  have valid := character.valid
  unfold UInt32.isValidChar Nat.isValidChar at valid
  have same : character.toNat = character.val.toNat := rfl
  omega

/-- A character is read as it is printed. -/
theorem run_escapeCharacter (ensureAscii : Bool) (character : Char) :
    (escapeCharacter ensureAscii character ++ rest).foldlM (step floatRepr)
        ⟨frames, .text isKey read⟩ =
      rest.foldlM (step floatRepr)
        ⟨frames, .text isKey (read ++ [character])⟩ := by
  obtain ⟨alone, bounded⟩ := toNat_alone character
  have short : ∀ letter meant, letter ≠ 'u' → escaped letter = some meant →
      (['\\', letter] ++ rest).foldlM (step floatRepr)
        ⟨frames, .text isKey read⟩ =
      rest.foldlM (step floatRepr)
        ⟨frames, .text isKey (read ++ [meant])⟩ := by
    intro letter meant notUnicode isMeant
    have started : (['\\', letter] ++ rest).foldlM (step floatRepr)
        ⟨frames, .text isKey read⟩ =
        (letter :: rest).foldlM (step floatRepr)
          ⟨frames, .escape isKey read⟩ := rfl
    rw [started, List.foldlM_cons, step]
    dsimp only
    rw [if_neg notUnicode, isMeant]
    rfl
  have escapedCode : character.toNat < 65536 →
      (unicodeEscape character.toNat ++ rest).foldlM (step floatRepr)
        ⟨frames, .text isKey read⟩ =
      rest.foldlM (step floatRepr)
        ⟨frames, .text isKey (read ++ [character])⟩ := by
    intro fits
    rw [run_unicodeEscape floatRepr frames isKey read rest fits alone,
      Char.ofNat_toNat]
  unfold escapeCharacter
  dsimp only
  by_cases isQuote : character = '"'
  · rw [if_pos isQuote, isQuote]
    exact short '"' '"' (by decide) rfl
  by_cases isBackslash : character = '\\'
  · rw [if_neg isQuote, if_pos isBackslash, isBackslash]
    exact short '\\' '\\' (by decide) rfl
  rw [if_neg isQuote, if_neg isBackslash]
  by_cases isLineFeed : character.toNat = 10
  · rw [if_pos isLineFeed, ← ofNat_toNat_of_eq isLineFeed]
    exact short 'n' _ (by decide) rfl
  rw [if_neg isLineFeed]
  by_cases isReturn : character.toNat = 13
  · rw [if_pos isReturn, ← ofNat_toNat_of_eq isReturn]
    exact short 'r' _ (by decide) rfl
  rw [if_neg isReturn]
  by_cases isTab : character.toNat = 9
  · rw [if_pos isTab, ← ofNat_toNat_of_eq isTab]
    exact short 't' _ (by decide) rfl
  rw [if_neg isTab]
  by_cases isFormFeed : character.toNat = 12
  · rw [if_pos isFormFeed, ← ofNat_toNat_of_eq isFormFeed]
    exact short 'f' _ (by decide) rfl
  rw [if_neg isFormFeed]
  by_cases isBackspace : character.toNat = 8
  · rw [if_pos isBackspace, ← ofNat_toNat_of_eq isBackspace]
    exact short 'b' _ (by decide) rfl
  rw [if_neg isBackspace]
  by_cases control : character.toNat < 32
  · rw [if_pos control]
    exact escapedCode (by omega)
  rw [if_neg control]
  by_cases plain : ensureAscii = false ∨ character.toNat < 127
  · rw [if_pos plain, List.singleton_append, List.foldlM_cons, step]
    dsimp only
    rw [if_neg isQuote, if_neg isBackslash, if_neg control]
    rfl
  rw [if_neg plain]
  by_cases firstPlane : character.toNat < 65536
  · rw [if_pos firstPlane]
    exact escapedCode firstPlane
  · rw [if_neg firstPlane, run_surrogates floatRepr frames isKey read rest
      (by omega) bounded, Char.ofNat_toNat]

/-- A text is read as it is printed. -/
theorem run_characters (ensureAscii : Bool) (text : Text) :
    (text.flatMap (escapeCharacter ensureAscii) ++ rest).foldlM
        (step floatRepr) ⟨frames, .text isKey read⟩ =
      rest.foldlM (step floatRepr)
        ⟨frames, .text isKey (read ++ text)⟩ := by
  induction text generalizing read with
  | nil => rw [List.append_nil]; rfl
  | cons character text ih =>
      rw [List.flatMap_cons, List.append_assoc, run_escapeCharacter, ih,
        List.append_assoc]
      rfl

/-- What stands after a quote, and the quote at the end. -/
theorem run_quoted (ensureAscii : Bool) (text : Text) :
    (text.flatMap (escapeCharacter ensureAscii) ++ '"' :: rest).foldlM
        (step floatRepr) ⟨frames, .text isKey []⟩ =
      (completeText isKey text frames).bind
        (rest.foldlM (step floatRepr)) := by
  rw [run_characters]
  rfl

theorem quote_append (ensureAscii : Bool) (text : Text) :
    quote ensureAscii text ++ rest =
      '"' :: (text.flatMap (escapeCharacter ensureAscii) ++ '"' :: rest) := by
  rw [quote, List.cons_append, List.cons_append, List.append_assoc]
  rfl

end Characters

section Numbers

variable (floatRepr : Text → Text) (frames : List Frame)

/-- The digits of a number after the first one. -/
theorem run_digits {digits : Text}
    (areDigits : ∀ digit ∈ digits, digit.isDigit = true) (token : Text) :
    digits.foldlM (step floatRepr) ⟨frames, .number token .digits⟩ =
      some ⟨frames, .number (token ++ digits) .digits⟩ := by
  induction digits generalizing token with
  | nil => rw [List.append_nil]; rfl
  | cons digit digits ih =>
      obtain ⟨isDigit, others⟩ := List.forall_mem_cons.mp areDigits
      have stepped : step floatRepr ⟨frames, .number token .digits⟩ digit =
          some ⟨frames, .number (token ++ [digit]) .digits⟩ := by
        rw [step]
        dsimp only
        rw [NumberPhase.step, if_pos isDigit]
      rw [List.foldlM_cons, stepped]
      exact (ih others _).trans (by rw [List.append_assoc]; rfl)

theorem isDigit_digitChar {digit : Nat} (small : digit < 10) :
    digit.digitChar.isDigit = true := by
  have checked : ∀ digit : Fin 10,
      (digit : Nat).digitChar.isDigit = true := by decide
  exact checked ⟨digit, small⟩

/-- The numeral of a positive number starts with a digit that is not zero. -/
theorem exists_numeral_eq_cons {number : Nat} (positive : 0 < number) :
    ∃ digit digits, 0 < digit ∧ digit < 10 ∧
      numeral number = digit.digitChar :: digits ∧
      ∀ character ∈ digits, character.isDigit = true := by
  induction number using Nat.strong_induction_on with
  | _ number ih =>
      rw [numeral, Nat.toDigits_eq_if (by decide)]
      split
      next small =>
        exact ⟨number, [], positive, small, rfl,
          fun _ member => absurd member List.not_mem_nil⟩
      next large =>
        obtain ⟨digit, digits, nonzero, small, higher, areDigits⟩ :=
          ih (number / 10) (by omega) (by omega)
        refine ⟨digit, digits ++ [(number % 10).digitChar], nonzero, small, ?_, ?_⟩
        · rw [← List.cons_append, ← higher, numeral]
        · intro character member
          rcases List.mem_append.mp member with former | last
          · exact areDigits character former
          · rw [List.mem_singleton.mp last]
            exact isDigit_digitChar (Nat.mod_lt _ (by decide))

/-- A text starts with a character that opens a value. -/
def Opens (text : Text) : Prop :=
  ∃ first rest, text = first :: rest ∧ isJsonSpace first = false ∧ first ≠ ']'

/-- A token is read as one number. -/
structure IsNumber (token : Text) (value : Json) : Prop where
  opens : Opens token
  reads : ∃ phase : NumberPhase, phase.value floatRepr token = some value ∧
    ∀ frames, token.foldlM (step floatRepr) ⟨frames, .value⟩ =
      some ⟨frames, .number token phase⟩

theorem opens_digitChar {digit : Nat} (small : digit < 10) (rest : Text) :
    Opens (digit.digitChar :: rest) := by
  have checked : ∀ digit : Fin 10,
      isJsonSpace (digit : Nat).digitChar = false ∧
        (digit : Nat).digitChar ≠ ']' := by decide
  exact ⟨_, rest, rfl, checked ⟨digit, small⟩⟩

theorem startValue_digitChar {digit : Nat} (nonzero : 0 < digit)
    (small : digit < 10) :
    startValue frames digit.digitChar =
      some ⟨frames, .number [digit.digitChar] .digits⟩ := by
  interval_cases digit <;> rfl

theorem step_value {character : Char}
    (opens : isJsonSpace character = false) :
    step floatRepr ⟨frames, .value⟩ character =
      startValue frames character := by
  rw [step]
  dsimp only
  rw [opens]
  exact if_neg Bool.false_ne_true

theorem isNumber_intText (value : Int) :
    IsNumber floatRepr (intText value) (.int value) := by
  have stands : ∀ phase : NumberPhase, phase = .leadingZero ∨ phase = .digits →
      phase.value floatRepr (intText value) = some (.int value) := by
    rintro phase (rfl | rfl) <;>
      exact congrArg (Option.map Json.int) (int_intText value)
  cases value with
  | ofNat number =>
      cases number with
      | zero =>
          exact ⟨⟨'0', [], rfl, by decide, by decide⟩, .leadingZero,
            stands _ (.inl rfl), fun _ => rfl⟩
      | succ number =>
          obtain ⟨digit, digits, nonzero, small, spelled, areDigits⟩ :=
            exists_numeral_eq_cons number.succ_pos
          have opens := opens_digitChar small digits
          refine ⟨?_, .digits, stands _ (.inr rfl), fun frames => ?_⟩
          · rw [intText, spelled]
            exact opens
          · obtain ⟨first, rest, same, notSpace, -⟩ := opens
            obtain ⟨rfl, rfl⟩ := List.cons.inj same
            rw [intText, spelled, List.foldlM_cons,
              step_value floatRepr frames notSpace,
              startValue_digitChar frames nonzero small]
            exact run_digits floatRepr frames areDigits _
  | negSucc number =>
      obtain ⟨digit, digits, nonzero, small, spelled, areDigits⟩ :=
        exists_numeral_eq_cons number.succ_pos
      refine ⟨⟨'-', _, rfl, by decide, by decide⟩, .digits,
        stands _ (.inr rfl), fun frames => ?_⟩
      have stepped : step floatRepr ⟨frames, .number ['-'] .minus⟩
          digit.digitChar =
          some ⟨frames, .number ['-', digit.digitChar] .digits⟩ := by
        interval_cases digit <;> rfl
      have started : ('-' :: (digit.digitChar :: digits)).foldlM
          (step floatRepr) ⟨frames, .value⟩ =
          (digit.digitChar :: digits).foldlM (step floatRepr)
            ⟨frames, .number ['-'] .minus⟩ := rfl
      rw [intText, spelled, started, List.foldlM_cons, stepped]
      exact run_digits floatRepr frames areDigits _

end Numbers

section Values

variable (floatRepr : Text → Text) {frames : List Frame}

/-- What becomes of a reader that reads a text to its end. -/
def outcome (reader : Option Reader) (text : Text) : Option Json :=
  (reader.bind (text.foldlM (step floatRepr))).bind (finish floatRepr)

theorem outcome_append (reader : Reader) (text rest : Text) :
    outcome floatRepr (some reader) (text ++ rest) =
      outcome floatRepr (text.foldlM (step floatRepr) reader) rest := by
  unfold outcome
  rw [Option.bind_some, List.foldlM_append]
  rfl

theorem outcome_cons (reader : Reader) (character : Char) (rest : Text) :
    outcome floatRepr (some reader) (character :: rest) =
      outcome floatRepr (step floatRepr reader character) rest := by
  unfold outcome
  rw [Option.bind_some, List.foldlM_cons]
  rfl

theorem outcome_nil (reader : Option Reader) :
    outcome floatRepr reader [] = reader.bind (finish floatRepr) := by
  cases reader <;> rfl

/-- What may stand after a value. -/
def Delimited (text : Text) : Prop :=
  ∀ first ∈ text.head?, first ∈ [',', ']', '}', Char.ofNat 10]

/-- A text is read as a value, whatever it stands in. -/
structure Reads (text : Text) (value : Json) : Prop where
  opens : Opens text
  reads : ∀ frames rest, Delimited rest →
    outcome floatRepr (some ⟨frames, .value⟩) (text ++ rest) =
      outcome floatRepr (complete value frames) rest

/-- A number ends before what may stand after it. -/
theorem step_delimiter {phase : NumberPhase} {token : Text} {value : Json}
    (stands : phase.value floatRepr token = some value) {character : Char}
    (ends : character ∈ [',', ']', '}', Char.ofNat 10]) :
    step floatRepr ⟨frames, .number token phase⟩ character =
      (complete value frames).bind (afterValue character) := by
  have stops : phase.step character = none := by
    simp only [List.mem_cons, List.not_mem_nil, or_false] at ends
    rcases ends with rfl | rfl | rfl | rfl <;> cases phase <;> rfl
  have notInfinity : ¬ (token = ['-'] ∧ character = 'I') := by
    rintro ⟨-, rfl⟩
    revert ends
    decide
  rw [step]
  dsimp only
  rw [stops]
  dsimp only
  rw [if_neg notInfinity, stands, Option.bind_some]

theorem step_of_complete {value : Json} {reader : Reader}
    (completed : complete value frames = some reader) (character : Char) :
    step floatRepr reader character = afterValue character reader := by
  unfold complete at completed
  split at completed <;> cases completed <;> rfl

theorem finish_of_complete {phase : NumberPhase} {token : Text} {value : Json}
    (stands : phase.value floatRepr token = some value) :
    finish floatRepr ⟨frames, .number token phase⟩ =
      (complete value frames).bind (finish floatRepr) := by
  match frames with
  | [] => exact stands
  | .array _ :: _ => rfl
  | .object _ (some _) :: _ => rfl
  | .object _ none :: _ => rfl

theorem reads_number {token : Text} {value : Json}
    (isNumber : IsNumber floatRepr token value) :
    Reads floatRepr token value := by
  refine ⟨isNumber.opens, fun frames rest delimited => ?_⟩
  obtain ⟨phase, stands, read⟩ := isNumber.reads
  rw [outcome_append, read frames]
  cases rest with
  | nil =>
      rw [outcome_nil, outcome_nil]
      exact finish_of_complete floatRepr stands
  | cons character rest =>
      rw [outcome_cons, step_delimiter floatRepr stands
        (delimited character (by simp))]
      cases completed : complete value frames with
      | none => rfl
      | some reader =>
          rw [outcome_cons, step_of_complete floatRepr completed]
          rfl

theorem reads_quote (ensureAscii : Bool) (text : Text) :
    Reads floatRepr (quote ensureAscii text) (.str text) := by
  refine ⟨⟨'"', _, rfl, by decide, by decide⟩, fun frames rest _ => ?_⟩
  have started : ∀ rest, outcome floatRepr (some ⟨frames, .value⟩)
      ('"' :: rest) = outcome floatRepr (some ⟨frames, .text false []⟩) rest :=
    fun _ => rfl
  rw [quote_append, started]
  unfold outcome
  rw [Option.bind_some, run_quoted]
  rfl

theorem reads_word {word : Text} {value : Json} (opens : Opens word)
    (read : ∀ frames, word.foldlM (step floatRepr) ⟨frames, .value⟩ =
      complete value frames) : Reads floatRepr word value :=
  ⟨opens, fun frames rest _ => by rw [outcome_append, read]⟩

end Values

section Structures

variable (floatRepr : Text → Text)

/-- Blanks are skipped. -/
theorem outcome_blanks {reader : Reader} {blanks : Text}
    (areBlanks : ∀ blank ∈ blanks, isJsonSpace blank = true)
    (skips : ∀ blank, isJsonSpace blank = true →
      step floatRepr reader blank = some reader) (rest : Text) :
    outcome floatRepr (some reader) (blanks ++ rest) =
      outcome floatRepr (some reader) rest := by
  induction blanks with
  | nil => rfl
  | cons blank blanks ih =>
      obtain ⟨isBlank, others⟩ := List.forall_mem_cons.mp areBlanks
      rw [List.cons_append, outcome_cons, skips blank isBlank]
      exact ih others

/-- The modes in which blanks are skipped. -/
theorem skips_blank {mode : Mode}
    (expects : mode ∈ [.value, .firstItem, .firstKey, .key, .colon, .next])
    (frames : List Frame) (blank : Char) (isBlank : isJsonSpace blank = true) :
    step floatRepr ⟨frames, mode⟩ blank = some ⟨frames, mode⟩ := by
  simp only [List.mem_cons, List.not_mem_nil, or_false] at expects
  rcases expects with rfl | rfl | rfl | rfl | rfl | rfl <;>
    exact if_pos isBlank

/-- A layout whose separators are a comma or a colon and blanks. -/
structure Layout.Plain (layout : Layout) : Prop where
  item : ∃ blanks, layout.itemSeparator = ',' :: blanks ∧
    ∀ blank ∈ blanks, isJsonSpace blank = true
  key : ∃ blanks, layout.keySeparator = ':' :: blanks ∧
    ∀ blank ∈ blanks, isJsonSpace blank = true

variable {layout : Layout}

theorem isJsonSpace_newLine (layout : Layout) (depth : Nat) :
    ∀ blank ∈ newLine layout depth, isJsonSpace blank = true := by
  unfold newLine
  cases layout.indent with
  | none => exact fun _ member => absurd member List.not_mem_nil
  | some width =>
      intro blank member
      rcases List.mem_cons.mp member with rfl | space
      · decide
      · rw [List.eq_of_mem_replicate space]
        decide

/-- A new line and a closing bracket may stand after a value. -/
theorem delimited_newLine (layout : Layout) (depth : Nat) {closing : Char}
    (closes : closing = ']' ∨ closing = '}') (rest : Text) :
    Delimited (newLine layout depth ++ closing :: rest) := by
  unfold newLine
  cases layout.indent with
  | none =>
      rintro first ⟨⟩
      rcases closes with rfl | rfl <;> simp
  | some width =>
      rintro first ⟨⟩
      simp

theorem delimited_item (plain : layout.Plain) (rest : Text) :
    Delimited (layout.itemSeparator ++ rest) := by
  obtain ⟨blanks, comma, -⟩ := plain.item
  rw [comma]
  rintro first ⟨⟩
  simp

/-- The blanks after a comma. -/
theorem outcome_item (plain : layout.Plain) (depth : Nat) {mode : Mode}
    (expects : mode ∈ [.value, .firstItem, .firstKey, .key, .colon, .next])
    {reader : Reader} {frames : List Frame}
    (comma : step floatRepr reader ',' = some ⟨frames, mode⟩) (rest : Text) :
    outcome floatRepr (some reader)
        (layout.itemSeparator ++ newLine layout depth ++ rest) =
      outcome floatRepr (some ⟨frames, mode⟩) rest := by
  obtain ⟨blanks, separator, areBlanks⟩ := plain.item
  have skips := skips_blank floatRepr expects frames
  rw [separator, List.append_assoc, List.cons_append, outcome_cons, comma,
    outcome_blanks floatRepr areBlanks skips,
    outcome_blanks floatRepr (isJsonSpace_newLine layout depth) skips]

/-- The blanks before a closing bracket. -/
theorem outcome_closing (depth : Nat) (frames : List Frame) (closing : Char)
    (rest : Text) :
    outcome floatRepr (some ⟨frames, .next⟩)
        (newLine layout depth ++ closing :: rest) =
      outcome floatRepr (afterValue closing ⟨frames, .next⟩) rest := by
  rw [outcome_blanks floatRepr (isJsonSpace_newLine layout depth)
    (skips_blank floatRepr (by simp) frames), outcome_cons]
  rfl

/-- The items of an array that is read, and its closing bracket. -/
theorem outcome_items (plain : layout.Plain) (depth : Nat) (frames : List Frame)
    (rest : Text) {item : Json} {items : List Json} {text : Text}
    {texts : List Text}
    (each : List.Forall₂ (Reads floatRepr) (text :: texts) (item :: items))
    (read : List Json) :
    outcome floatRepr (some ⟨.array read :: frames, .value⟩)
        ((layout.itemSeparator ++ newLine layout (depth + 1)).intercalate
          (text :: texts) ++ (newLine layout depth ++ ']' :: rest)) =
      outcome floatRepr (complete (.arr (read ++ item :: items)) frames)
        rest := by
  induction texts generalizing item items text read with
  | nil =>
      obtain ⟨first, others⟩ := List.forall₂_cons.mp each
      obtain rfl := List.forall₂_nil_left_iff.mp others
      rw [List.intercalate_singleton, first.reads _ _
        (delimited_newLine layout depth (.inl rfl) rest)]
      exact outcome_closing floatRepr depth _ ']' rest
  | cons next texts ih =>
      obtain ⟨first, others⟩ := List.forall₂_cons.mp each
      obtain ⟨other, items, -, -, rfl⟩ := List.forall₂_cons_left_iff.mp others
      have after : Delimited (layout.itemSeparator ++
          (newLine layout (depth + 1) ++
            ((layout.itemSeparator ++ newLine layout (depth + 1)).intercalate
              (next :: texts) ++ (newLine layout depth ++ ']' :: rest)))) :=
        delimited_item plain _
      rw [List.intercalate_cons_cons, List.append_assoc, List.append_assoc,
        List.append_assoc, first.reads _ _ after, ← List.append_assoc]
      have comma : step floatRepr ⟨.array (read ++ [item]) :: frames, .next⟩
          ',' = some ⟨.array (read ++ [item]) :: frames, .value⟩ := rfl
      refine (outcome_item floatRepr plain (depth + 1) (by simp) comma _).trans
        ?_
      rw [ih others, List.append_assoc]
      rfl

/-- What is printed of a field. -/
def fieldText (layout : Layout) (field : Text × Text) : Text :=
  quote layout.ensureAscii field.1 ++ layout.keySeparator ++ field.2

/-- A field of an object that is read. -/
theorem outcome_field (plain : layout.Plain) {text key : Text} {value : Json}
    (reads : Reads floatRepr text value) (read : List (Text × Json))
    (frames : List Frame) {rest : Text} (delimited : Delimited rest) :
    outcome floatRepr (some ⟨.object read none :: frames, .key⟩)
        (fieldText layout (key, text) ++ rest) =
      outcome floatRepr
        (some ⟨.object (setField key value read) none :: frames, .next⟩)
        rest := by
  obtain ⟨blanks, separator, areBlanks⟩ := plain.key
  have started : ∀ rest, outcome floatRepr
      (some ⟨.object read none :: frames, .key⟩) ('"' :: rest) =
      outcome floatRepr (some ⟨.object read none :: frames, .text true []⟩)
        rest := fun _ => rfl
  have quoted : ∀ rest, outcome floatRepr
      (some ⟨.object read none :: frames, .key⟩)
      (quote layout.ensureAscii key ++ rest) =
      outcome floatRepr (some ⟨.object read (some key) :: frames, .colon⟩)
        rest := by
    intro rest
    rw [quote_append, started]
    unfold outcome
    rw [Option.bind_some, run_quoted]
    rfl
  have colon : ∀ rest, outcome floatRepr
      (some ⟨.object read (some key) :: frames, .colon⟩) (':' :: rest) =
      outcome floatRepr (some ⟨.object read (some key) :: frames, .value⟩)
        rest := fun _ => rfl
  rw [fieldText, List.append_assoc, List.append_assoc, quoted, separator,
    List.cons_append, colon, outcome_blanks floatRepr areBlanks
      (skips_blank floatRepr (by simp) _), reads.reads _ _ delimited]
  rfl

/-- Fields that are read one by one. -/
def FieldReads (text : Text × Text) (field : Text × Json) : Prop :=
  text.1 = field.1 ∧ Reads floatRepr text.2 field.2

/-- The fields of an object that is read, and its closing bracket. -/
theorem outcome_fields (plain : layout.Plain) (depth : Nat)
    (frames : List Frame) (rest : Text) {field : Text × Json}
    {fields : List (Text × Json)} {text : Text × Text}
    {texts : List (Text × Text)}
    (each : List.Forall₂ (FieldReads floatRepr) (text :: texts)
      (field :: fields)) (read : List (Text × Json))
    (distinct : (read.map Prod.fst ++ (field :: fields).map Prod.fst).Nodup) :
    outcome floatRepr (some ⟨.object read none :: frames, .key⟩)
        ((layout.itemSeparator ++ newLine layout (depth + 1)).intercalate
          ((text :: texts).map (fieldText layout)) ++
            (newLine layout depth ++ '}' :: rest)) =
      outcome floatRepr (complete (.obj (read ++ field :: fields)) frames)
        rest := by
  have fresh : field.1 ∉ read.map Prod.fst := by
    intro member
    exact (List.nodup_append.mp distinct).2.2 _ member _ (by simp) rfl
  induction texts generalizing field fields text read with
  | nil =>
      obtain ⟨⟨named, reads⟩, others⟩ := List.forall₂_cons.mp each
      obtain rfl := List.forall₂_nil_left_iff.mp others
      rw [List.map_singleton, List.intercalate_singleton, ← Prod.eta text,
        outcome_field floatRepr plain reads _ _
          (delimited_newLine layout depth (.inr rfl) rest), named,
        setField_of_notMem fresh]
      exact outcome_closing floatRepr depth _ '}' rest
  | cons next texts ih =>
      obtain ⟨⟨named, reads⟩, others⟩ := List.forall₂_cons.mp each
      obtain ⟨other, fields, -, -, rfl⟩ := List.forall₂_cons_left_iff.mp others
      have after : Delimited (layout.itemSeparator ++
          (newLine layout (depth + 1) ++
            ((layout.itemSeparator ++ newLine layout (depth + 1)).intercalate
              ((next :: texts).map (fieldText layout)) ++
                (newLine layout depth ++ '}' :: rest)))) :=
        delimited_item plain _
      have later : ((read ++ [(field.1, field.2)]).map Prod.fst ++
          (other :: fields).map Prod.fst).Nodup := by
        simpa using distinct
      have otherFresh : other.1 ∉
          (read ++ [(field.1, field.2)]).map Prod.fst := by
        intro member
        exact (List.nodup_append.mp later).2.2 _ member _ (by simp) rfl
      have comma : step floatRepr
          ⟨.object (read ++ [(field.1, field.2)]) none :: frames, .next⟩ ',' =
          some ⟨.object (read ++ [(field.1, field.2)]) none :: frames, .key⟩ :=
        rfl
      rw [List.map_cons, List.map_cons, List.intercalate_cons_cons,
        List.append_assoc, List.append_assoc, List.append_assoc,
        ← Prod.eta text, ← List.map_cons,
        outcome_field floatRepr plain reads _ _ after, named,
        setField_of_notMem fresh, ← List.append_assoc]
      refine (outcome_item floatRepr plain (depth + 1) (by simp) comma _).trans
        ?_
      rw [ih others _ later otherFresh, List.append_assoc]
      rfl

end Structures

section Documents

variable (floatRepr : Text → Text)

/-- A value that can be printed and read again. -/
inductive Printable : Json → Prop where
  | null : Printable .null
  | bool (value : Bool) : Printable (.bool value)
  | int (value : Int) : Printable (.int value)
  | float {printed : Text}
      (isNumber : IsNumber floatRepr printed (.float printed)) :
      Printable (.float printed)
  | str (text : Text) : Printable (.str text)
  | arr {items : List Json} (all : ∀ item ∈ items, Printable item) :
      Printable (.arr items)
  | obj {fields : List (Text × Json)} (nodup : (fields.map Prod.fst).Nodup)
      (all : ∀ field ∈ fields, Printable field.2) : Printable (.obj fields)

variable {floatRepr} {layout : Layout}

theorem forall₂_dumpItems {depth : Nat} {items : List Json}
    (reads : ∀ item ∈ items,
      Reads floatRepr (dumps layout (depth + 1) item) item) :
    List.Forall₂ (Reads floatRepr) (dumpItems layout depth items) items := by
  induction items with
  | nil => exact .nil
  | cons item items ih =>
      obtain ⟨first, others⟩ := List.forall_mem_cons.mp reads
      exact .cons first (ih others)

theorem forall₂_dumpFields {depth : Nat} {fields : List (Text × Json)}
    (reads : ∀ field ∈ fields,
      Reads floatRepr (dumps layout (depth + 1) field.2) field.2) :
    List.Forall₂ (FieldReads floatRepr) (dumpFields layout depth fields)
      fields := by
  induction fields with
  | nil => exact .nil
  | cons field fields ih =>
      obtain ⟨first, others⟩ := List.forall_mem_cons.mp reads
      exact .cons ⟨rfl, first⟩ (ih others)

theorem enclose_append {texts : List Text} (nonempty : texts ≠ [])
    (layout : Layout) (depth : Nat) (opening closing : Char) (rest : Text) :
    enclose layout depth opening closing texts ++ rest =
      opening :: (newLine layout (depth + 1) ++
        ((layout.itemSeparator ++ newLine layout (depth + 1)).intercalate
          texts ++ (newLine layout depth ++ closing :: rest))) := by
  rw [enclose, if_neg nonempty]
  simp only [List.cons_append, List.append_assoc, List.nil_append]

theorem enclose_nil (layout : Layout) (depth : Nat) (opening closing : Char) :
    enclose layout depth opening closing [] = [opening, closing] :=
  if_pos rfl

theorem reads_array (plain : layout.Plain) (depth : Nat) {items : List Json}
    {texts : List Text}
    (each : List.Forall₂ (Reads floatRepr) texts items) :
    Reads floatRepr (enclose layout depth '[' ']' texts) (.arr items) := by
  cases each with
  | nil =>
      rw [enclose_nil]
      exact reads_word floatRepr ⟨'[', _, rfl, by decide, by decide⟩
        fun frames => bind_pure (complete _ frames)
  | @cons text item texts items first others =>
      refine ⟨⟨'[', _, if_neg (List.cons_ne_nil _ _), by decide, by decide⟩,
        fun frames rest _ => ?_⟩
      have opened : ∀ rest, outcome floatRepr (some ⟨frames, .value⟩)
          ('[' :: rest) =
          outcome floatRepr (some ⟨.array [] :: frames, .firstItem⟩) rest :=
        fun _ => rfl
      obtain ⟨character, characters, spelled, notSpace, notClosing⟩ := first.opens
      have entered : ∀ rest, outcome floatRepr
          (some ⟨.array [] :: frames, .firstItem⟩) (character :: rest) =
          outcome floatRepr (some ⟨.array [] :: frames, .value⟩)
            (character :: rest) := by
        intro rest
        rw [outcome_cons, outcome_cons, step_value floatRepr _ notSpace, step]
        dsimp only
        rw [notSpace, if_neg Bool.false_ne_true, if_neg notClosing]
      obtain ⟨itemCharacters, spelledItems⟩ : ∃ characters,
          (layout.itemSeparator ++ newLine layout (depth + 1)).intercalate
            (text :: texts) = character :: characters := by
        rw [spelled, List.intercalate_cons_cons_left]
        exact ⟨_, rfl⟩
      rw [enclose_append (List.cons_ne_nil _ _), opened,
        outcome_blanks floatRepr (isJsonSpace_newLine layout (depth + 1))
          (skips_blank floatRepr (by simp) _), spelledItems, List.cons_append,
        entered, ← List.cons_append, ← spelledItems]
      exact outcome_items floatRepr plain depth frames rest (.cons first others) []

theorem reads_object (plain : layout.Plain) (depth : Nat)
    {fields : List (Text × Json)} {texts : List (Text × Text)}
    (each : List.Forall₂ (FieldReads floatRepr) texts fields)
    (distinct : (fields.map Prod.fst).Nodup) :
    Reads floatRepr
      (enclose layout depth '\x7b' '\x7d' (texts.map (fieldText layout)))
      (.obj fields) := by
  cases each with
  | nil =>
      rw [List.map_nil, enclose_nil]
      exact reads_word floatRepr ⟨'\x7b', _, rfl, by decide, by decide⟩
        fun frames => bind_pure (complete _ frames)
  | @cons text field texts fields first others =>
      refine ⟨⟨'\x7b', _, if_neg (List.cons_ne_nil _ _), by decide, by decide⟩,
        fun frames rest _ => ?_⟩
      have opened : ∀ rest, outcome floatRepr (some ⟨frames, .value⟩)
          ('\x7b' :: rest) =
          outcome floatRepr (some ⟨.object [] none :: frames, .firstKey⟩) rest :=
        fun _ => rfl
      have entered : ∀ rest, outcome floatRepr
          (some ⟨.object [] none :: frames, .firstKey⟩) ('"' :: rest) =
          outcome floatRepr (some ⟨.object [] none :: frames, .key⟩)
            ('"' :: rest) := fun _ => rfl
      obtain ⟨characters, spelledFields⟩ : ∃ characters,
          (layout.itemSeparator ++ newLine layout (depth + 1)).intercalate
            ((text :: texts).map (fieldText layout)) = '"' :: characters := by
        rw [List.map_cons, fieldText, quote, List.cons_append, List.cons_append,
          List.cons_append, List.intercalate_cons_cons_left]
        exact ⟨_, rfl⟩
      have nonempty : (text :: texts).map (fieldText layout) ≠ [] :=
        List.cons_ne_nil _ _
      rw [enclose_append nonempty, opened,
        outcome_blanks floatRepr (isJsonSpace_newLine layout (depth + 1))
          (skips_blank floatRepr (by simp) _), spelledFields, List.cons_append,
        entered, ← List.cons_append, ← spelledFields]
      exact outcome_fields floatRepr plain depth frames rest
        (.cons first others) [] distinct

/-- A value is read as it is printed, whatever it stands in. -/
theorem reads_dumps (plain : layout.Plain) (unsorted : layout.sortKeys = false)
    {value : Json} (printable : Printable floatRepr value) (depth : Nat) :
    Reads floatRepr (dumps layout depth value) value := by
  induction printable generalizing depth with
  | null =>
      exact reads_word floatRepr ⟨'n', _, rfl, by decide, by decide⟩
        fun frames => bind_pure (complete _ frames)
  | bool value =>
      cases value with
      | true =>
          exact reads_word floatRepr ⟨'t', _, rfl, by decide, by decide⟩
            fun frames => bind_pure (complete _ frames)
      | false =>
          exact reads_word floatRepr ⟨'f', _, rfl, by decide, by decide⟩
            fun frames => bind_pure (complete _ frames)
  | int value => exact reads_number floatRepr (isNumber_intText floatRepr value)
  | float isNumber => exact reads_number floatRepr isNumber
  | str text => exact reads_quote floatRepr layout.ensureAscii text
  | arr all ih =>
      exact reads_array plain depth
        (forall₂_dumpItems fun item member => ih item member (depth + 1))
  | @obj fields nodup all ih =>
      have each : List.Forall₂ (FieldReads floatRepr)
          (dumpFields layout depth fields) fields :=
        forall₂_dumpFields fun field member => ih field member (depth + 1)
      have sorted : sortFields layout (dumpFields layout depth fields) =
          dumpFields layout depth fields := by
        rw [sortFields, unsorted]
        rfl
      rw [dumps, sorted]
      exact reads_object plain depth each nodup

/-- A document that has been printed is read as it was. -/
theorem loads_dumps (plain : layout.Plain) (unsorted : layout.sortKeys = false)
    {value : Json} (printable : Printable floatRepr value) :
    loads floatRepr (dumps layout 0 value) = some value := by
  have reads := (reads_dumps plain unsorted printable 0).reads [] [] nofun
  rw [List.append_nil] at reads
  exact reads

end Documents

end JsonText

end RefinetPillars
