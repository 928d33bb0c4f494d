import RefinetPillars.DecimalText

/-!
# Documents in JSON

Values, how they are printed, and a machine that reads one character of a
document after the other.  A number with a fraction or an exponent is kept as
it is printed.  Characters above the first plane are printed, and read, as two
surrogates; a text holds no surrogate that stands alone.
-/

namespace RefinetPillars

namespace JsonText

open HexText LineText DecimalText

inductive Json where
  | null
  | bool (value : Bool)
  | int (value : Int)
  | float (printed : Text)
  | str (value : Text)
  | arr (items : List Json)
  | obj (fields : List (Text × Json))

namespace Json

/-- The value of a key of an object. -/
def get (key : Text) : Json → Option Json
  | .obj fields => (fields.find? fun field => field.1 = key).map Prod.snd
  | _ => none

/-- Whether Python takes a value for false. -/
def isFalsy : Json → Bool
  | .null => true
  | .bool value => !value
  | .int value => value = 0
  | .float printed => printed = "0.0".toList || printed = "-0.0".toList
  | .str value => value = []
  | .arr items => items.isEmpty
  | .obj fields => fields.isEmpty

end Json

section Printing

/-- `indent`, `separators`, `ensure_ascii` and `sort_keys` of `json.dumps`. -/
structure Layout where
  indent : Option Nat := none
  itemSeparator : Text := [',', ' ']
  keySeparator : Text := [':', ' ']
  ensureAscii : Bool := true
  sortKeys : Bool := false

/-- `\u` and four digits. -/
def unicodeEscape (code : Nat) : Text := '\\' :: 'u' :: hexDigits 4 code

def escapeCharacter (ensureAscii : Bool) (character : Char) : Text :=
  let code := character.toNat
  if character = '"' then ['\\', '"']
  else if character = '\\' then ['\\', '\\']
  else if code = 10 then ['\\', 'n']
  else if code = 13 then ['\\', 'r']
  else if code = 9 then ['\\', 't']
  else if code = 12 then ['\\', 'f']
  else if code = 8 then ['\\', 'b']
  else if code < 32 then unicodeEscape code
  else if ensureAscii = false ∨ code < 127 then [character]
  else if code < 65536 then unicodeEscape code
  else
    unicodeEscape (55296 + (code - 65536) / 1024) ++
      unicodeEscape (56320 + (code - 65536) % 1024)

def quote (ensureAscii : Bool) (text : Text) : Text :=
  '"' :: text.flatMap (escapeCharacter ensureAscii) ++ ['"']

/-- The start of a line at a depth. -/
def newLine (layout : Layout) (depth : Nat) : Text :=
  match layout.indent with
  | none => []
  | some width => Char.ofNat 10 :: List.replicate (width * depth) ' '

/-- What stands between two brackets. -/
def enclose (layout : Layout) (depth : Nat) (opening closing : Char)
    (printed : List Text) : Text :=
  if printed = [] then [opening, closing]
  else
    opening :: newLine layout (depth + 1) ++
      (layout.itemSeparator ++ newLine layout (depth + 1)).intercalate printed ++
      newLine layout depth ++ [closing]

def sortFields (layout : Layout) (fields : List (Text × Text)) :
    List (Text × Text) :=
  if layout.sortKeys then
    fields.mergeSort fun first second => first.1 ≤ second.1
  else fields

mutual

/-- `json.dumps`, at a depth. -/
def dumps (layout : Layout) (depth : Nat) : Json → Text
  | .null => "null".toList
  | .bool true => "true".toList
  | .bool false => "false".toList
  | .int value => intText value
  | .float printed => printed
  | .str value => quote layout.ensureAscii value
  | .arr items => enclose layout depth '[' ']' (dumpItems layout depth items)
  | .obj fields =>
      enclose layout depth '{' '}'
        ((sortFields layout (dumpFields layout depth fields)).map fun field =>
          quote layout.ensureAscii field.1 ++ layout.keySeparator ++ field.2)

def dumpItems (layout : Layout) (depth : Nat) : List Json → List Text
  | [] => []
  | item :: items =>
      dumps layout (depth + 1) item :: dumpItems layout depth items

def dumpFields (layout : Layout) (depth : Nat) :
    List (Text × Json) → List (Text × Text)
  | [] => []
  | (key, value) :: fields =>
      (key, dumps layout (depth + 1) value) :: dumpFields layout depth fields

end

end Printing

section Reading

/-- What a reader is inside of; an object may have a key whose value is to
come. -/
inductive Frame where
  | array (items : List Json)
  | object (fields : List (Text × Json)) (key : Option Text)

/-- How far a number has been read. -/
inductive NumberPhase where
  | minus
  | leadingZero
  | digits
  | point
  | fraction
  | exponent
  | exponentSign
  | exponentDigits
deriving DecidableEq

/-- What a reader expects next. -/
inductive Mode where
  | value
  | firstItem
  | firstKey
  | key
  | colon
  | next
  | done (json : Json)
  | text (isKey : Bool) (read : Text)
  | escape (isKey : Bool) (read : Text)
  | unicode (isKey : Bool) (read : Text) (high : Option Nat) (digits : Text)
  | afterHigh (isKey : Bool) (read : Text) (high : Nat) (backslash : Bool)
  | number (token : Text) (phase : NumberPhase)
  | word (rest : Text) (letters : rest.all Char.isAlpha = true) (json : Json)

structure Reader where
  frames : List Frame
  mode : Mode

def isJsonSpace (character : Char) : Bool :=
  character.toNat ∈ [32, 9, 10, 13]

/-- A later value of a key replaces an earlier one. -/
def setField (key : Text) (value : Json) :
    List (Text × Json) → List (Text × Json)
  | [] => [(key, value)]
  | field :: fields =>
      if field.1 = key then (key, value) :: fields
      else field :: setField key value fields

/-- A value is complete. -/
def complete (value : Json) : List Frame → Option Reader
  | [] => some ⟨[], .done value⟩
  | .array items :: frames => some ⟨.array (items ++ [value]) :: frames, .next⟩
  | .object fields (some key) :: frames =>
      some ⟨.object (setField key value fields) none :: frames, .next⟩
  | .object _ none :: _ => none

/-- A text is complete. -/
def completeText (isKey : Bool) (read : Text) (frames : List Frame) :
    Option Reader :=
  if isKey then
    match frames with
    | .object fields none :: frames =>
        some ⟨.object fields (some read) :: frames, .colon⟩
    | _ => none
  else complete (.str read) frames

/-- The character after a value. -/
def afterValue (character : Char) (reader : Reader) : Option Reader :=
  if isJsonSpace character then some reader
  else
    match reader.mode, reader.frames, character with
    | .next, .array items :: frames, ',' =>
        some ⟨.array items :: frames, .value⟩
    | .next, .array items :: frames, ']' => complete (.arr items) frames
    | .next, .object fields key :: frames, ',' =>
        some ⟨.object fields key :: frames, .key⟩
    | .next, .object fields _ :: frames, '}' => complete (.obj fields) frames
    | _, _, _ => none

/-- The first character of a value. -/
def startValue (frames : List Frame) (character : Char) : Option Reader :=
  match character with
  | '"' => some ⟨frames, .text false []⟩
  | '{' => some ⟨.object [] none :: frames, .firstKey⟩
  | '[' => some ⟨.array [] :: frames, .firstItem⟩
  | '-' => some ⟨frames, .number ['-'] .minus⟩
  | '0' => some ⟨frames, .number ['0'] .leadingZero⟩
  | 'n' => some ⟨frames, .word "ull".toList (by decide) .null⟩
  | 't' => some ⟨frames, .word "rue".toList (by decide) (.bool true)⟩
  | 'f' => some ⟨frames, .word "alse".toList (by decide) (.bool false)⟩
  | 'N' => some ⟨frames, .word "aN".toList (by decide) (.float "NaN".toList)⟩
  | 'I' =>
      some ⟨frames, .word "nfinity".toList (by decide)
        (.float "Infinity".toList)⟩
  | _ =>
      if character.isDigit then some ⟨frames, .number [character] .digits⟩
      else none

/-- How a number goes on, unless it ends before the character. -/
def NumberPhase.step (character : Char) : NumberPhase → Option NumberPhase
  | .minus =>
      if character = '0' then some .leadingZero
      else if character.isDigit then some .digits
      else none
  | .leadingZero =>
      if character = '.' then some .point
      else if character = 'e' ∨ character = 'E' then some .exponent
      else none
  | .digits =>
      if character.isDigit then some .digits
      else if character = '.' then some .point
      else if character = 'e' ∨ character = 'E' then some .exponent
      else none
  | .point => if character.isDigit then some .fraction else none
  | .fraction =>
      if character.isDigit then some .fraction
      else if character = 'e' ∨ character = 'E' then some .exponent
      else none
  | .exponent =>
      if character.isDigit then some .exponentDigits
      else if character = '+' ∨ character = '-' then some .exponentSign
      else none
  | .exponentSign | .exponentDigits =>
      if character.isDigit then some .exponentDigits else none

section Floats

variable (floatRepr : Text → Text)

/-- The number that a token stands for when it ends here. -/
def NumberPhase.value (token : Text) : NumberPhase → Option Json
  | .leadingZero | .digits => (int token).map Json.int
  | .fraction | .exponentDigits => some (.float (floatRepr token))
  | .minus | .point | .exponent | .exponentSign => none

/-- The character that an escape stands for. -/
def escaped : Char → Option Char
  | '"' => some '"'
  | '\\' => some '\\'
  | '/' => some '/'
  | 'b' => some (Char.ofNat 8)
  | 'f' => some (Char.ofNat 12)
  | 'n' => some (Char.ofNat 10)
  | 'r' => some (Char.ofNat 13)
  | 't' => some (Char.ofNat 9)
  | _ => none

/-- The number of four hexadecimal digits. -/
def hexValue (digits : Text) : Nat :=
  digits.foldl (fun value digit => 16 * value + (digitValue digit).getD 0) 0

/-- The mode after the digits of an escape. -/
def afterUnicode (isKey : Bool) (read : Text) (high : Option Nat)
    (code : Nat) : Option Mode :=
  match high with
  | some high =>
      if 56320 ≤ code ∧ code < 57344 then
        some (.text isKey
          (read ++ [Char.ofNat
            (65536 + 1024 * (high - 55296) + (code - 56320))]))
      else none
  | none =>
      if 55296 ≤ code ∧ code < 56320 then some (.afterHigh isKey read code false)
      else if 56320 ≤ code ∧ code < 57344 then none
      else some (.text isKey (read ++ [Char.ofNat code]))

/-- One more character. -/
def step (reader : Reader) (character : Char) : Option Reader :=
  let frames := reader.frames
  match reader.mode with
  | .value =>
      if isJsonSpace character then some reader else startValue frames character
  | .firstItem =>
      if isJsonSpace character then some reader
      else if character = ']' then
        match frames with
        | .array items :: frames => complete (.arr items) frames
        | _ => none
      else startValue frames character
  | .firstKey =>
      if isJsonSpace character then some reader
      else if character = '"' then some ⟨frames, .text true []⟩
      else if character = '}' then
        match frames with
        | .object fields _ :: frames => complete (.obj fields) frames
        | _ => none
      else none
  | .key =>
      if isJsonSpace character then some reader
      else if character = '"' then some ⟨frames, .text true []⟩
      else none
  | .colon =>
      if isJsonSpace character then some reader
      else if character = ':' then some ⟨frames, .value⟩
      else none
  | .next | .done _ => afterValue character reader
  | .text isKey read =>
      if character = '"' then completeText isKey read frames
      else if character = '\\' then some ⟨frames, .escape isKey read⟩
      else if character.toNat < 32 then none
      else some ⟨frames, .text isKey (read ++ [character])⟩
  | .escape isKey read =>
      if character = 'u' then some ⟨frames, .unicode isKey read none []⟩
      else
        (escaped character).map fun meant =>
          ⟨frames, .text isKey (read ++ [meant])⟩
  | .unicode isKey read high digits =>
      match digitValue character with
      | none => none
      | some _ =>
          let digits := digits ++ [character]
          if digits.length < 4 then some ⟨frames, .unicode isKey read high digits⟩
          else
            (afterUnicode isKey read high (hexValue digits)).map fun mode =>
              ⟨frames, mode⟩
  | .afterHigh isKey read high backslash =>
      if backslash = false ∧ character = '\\' then
        some ⟨frames, .afterHigh isKey read high true⟩
      else if backslash = true ∧ character = 'u' then
        some ⟨frames, .unicode isKey read (some high) []⟩
      else none
  | .number token phase =>
      match phase.step character with
      | some next => some ⟨frames, .number (token ++ [character]) next⟩
      | none =>
          if token = ['-'] ∧ character = 'I' then
            some ⟨frames, .word "nfinity".toList (by decide)
              (.float "-Infinity".toList)⟩
          else
            (phase.value floatRepr token).bind fun value =>
              (complete value frames).bind (afterValue character)
  | .word [] _ _ => none
  | .word (first :: rest) letters json =>
      if character = first then
        if rest = [] then complete json frames
        else
          some ⟨frames, .word rest (Bool.and_eq_true_iff.mp letters).2 json⟩
      else none

/-- The document that has been read when the text ends. -/
def finish (reader : Reader) : Option Json :=
  match reader.frames, reader.mode with
  | [], .done json => some json
  | [], .number token phase => phase.value floatRepr token
  | _, _ => none

/-- `json.loads`; a float is what the parameter says it is printed as. -/
def loads (text : Text) : Option Json :=
  (text.foldlM (step floatRepr) ⟨[], .value⟩).bind (finish floatRepr)

example : loads id "[0, -12, \"\\u00e9\", 2.5e3 ]".toList =
    some (.arr [.int 0, .int (-12), .str [Char.ofNat 233],
      .float "2.5e3".toList]) := by
  rfl

theorem afterValue_dash (reader : Reader) : afterValue '-' reader = none := by
  obtain ⟨frames, mode⟩ := reader
  rcases frames with _ | ⟨_ | _, _⟩ <;> cases mode <;> rfl

/-- No document ends after a dash. -/
theorem finish_step_dash (reader : Reader) :
    (step floatRepr reader '-').bind (finish floatRepr) = none := by
  obtain ⟨frames, mode⟩ := reader
  cases mode with
  | value | firstItem =>
      cases frames <;> rfl
  | firstKey | key | colon => rfl
  | next | done =>
      rw [step, afterValue_dash]
      rfl
  | text | unicode | escape => cases frames <;> rfl
  | afterHigh isKey read high backslash =>
      cases frames <;> cases backslash <;> rfl
  | number token phase =>
      cases phase <;> cases frames <;>
        simp [step, NumberPhase.step, finish, NumberPhase.value,
          afterValue_dash]
  | word rest letters json =>
      cases rest with
      | nil => rfl
      | cons first rest =>
          have notDash : '-' ≠ first := by
            rintro rfl
            cases (Bool.and_eq_true_iff.mp letters).1
          simp [step, notDash]

/-- A text that ends in a dash is no document. -/
theorem loads_append_dash (text : Text) :
    loads floatRepr (text ++ ['-']) = none := by
  rw [loads, List.foldlM_append]
  cases List.foldlM (step floatRepr) ⟨[], .value⟩ text with
  | none => rfl
  | some reader =>
      have dashed := finish_step_dash floatRepr reader
      simpa using dashed

/-- Characters that stand for themselves in a printed text. -/
def IsPlain (text : Text) : Prop :=
  ∀ character ∈ text,
    character ≠ '"' ∧ character ≠ '\\' ∧ 32 ≤ character.toNat

instance (text : Text) : Decidable (IsPlain text) :=
  decidable_of_iff (text.all fun character => decide
      (character ≠ '"' ∧ character ≠ '\\' ∧ 32 ≤ character.toNat))
    (by simp only [List.all_eq_true, decide_eq_true_eq, IsPlain])

theorem run_text {text : Text} (plain : IsPlain text) (frames : List Frame)
    (isKey : Bool) (read rest : Text) :
    (text ++ rest).foldlM (step floatRepr) ⟨frames, .text isKey read⟩ =
      rest.foldlM (step floatRepr) ⟨frames, .text isKey (read ++ text)⟩ := by
  induction text generalizing read with
  | nil => rw [List.nil_append, List.append_nil]
  | cons character text ih =>
      obtain ⟨notQuote, notBackslash, printable⟩ := plain character (by simp)
      have stepped : step floatRepr ⟨frames, .text isKey read⟩ character =
          some ⟨frames, .text isKey (read ++ [character])⟩ := by
        simp only [step, if_neg notQuote, if_neg notBackslash,
          if_neg (not_lt.mpr printable)]
      rw [List.cons_append, List.foldlM_cons, stepped]
      have tail := ih (fun other member => plain other (by simp [member]))
        (read ++ [character])
      rw [List.append_assoc] at tail
      exact tail

/-- A key and its text, as they are printed without blanks. -/
def printedField (field : Text × Text) : Text :=
  '"' :: field.1 ++ '"' :: ':' :: '"' :: field.2 ++ ['"']

theorem setField_of_notMem {key : Text} {value : Json}
    {fields : List (Text × Json)} (fresh : key ∉ fields.map Prod.fst) :
    setField key value fields = fields ++ [(key, value)] := by
  induction fields with
  | nil => rfl
  | cons field fields ih =>
      rw [List.map_cons, List.mem_cons, not_or] at fresh
      rw [setField, if_neg (Ne.symm fresh.1), ih fresh.2, List.cons_append]

/-- What a key holds after one of them has been set. -/
theorem get_setField (key other : Text) (value : Json)
    (fields : List (Text × Json)) :
    (Json.obj (setField key value fields)).get other =
      if other = key then some value else (Json.obj fields).get other := by
  simp only [Json.get]
  induction fields with
  | nil =>
      rw [setField, List.find?_cons]
      by_cases same : other = key
      · simp [same]
      · simp [same, Ne.symm same]
  | cons field fields ih =>
      rw [setField]
      by_cases found : field.1 = key
      · rw [if_pos found, List.find?_cons, List.find?_cons, found]
        by_cases same : other = key
        · simp [same]
        · simp [same, Ne.symm same]
      · rw [if_neg found, List.find?_cons, List.find?_cons]
        by_cases here : field.1 = other
        · have differs : other ≠ key := here ▸ found
          simp [here, differs]
        · simpa [here] using ih

theorem run_printedField {field : Text × Text} (plainKey : IsPlain field.1)
    (plainText : IsPlain field.2) (fields : List (Text × Json))
    (frames : List Frame) (rest : Text) :
    (printedField field ++ rest).foldlM (step floatRepr)
        ⟨.object fields none :: frames, .key⟩ =
      rest.foldlM (step floatRepr)
        ⟨.object (setField field.1 (.str field.2) fields) none :: frames,
          .next⟩ := by
  have opened : step floatRepr ⟨.object fields none :: frames, .key⟩ '"' =
      some ⟨.object fields none :: frames, .text true []⟩ := rfl
  have keyed : ('"' :: ':' :: '"' :: (field.2 ++ ('"' :: rest))).foldlM
      (step floatRepr) ⟨.object fields none :: frames, .text true field.1⟩ =
      (field.2 ++ ('"' :: rest)).foldlM (step floatRepr)
        ⟨.object fields (some field.1) :: frames, .text false []⟩ := rfl
  have closed : ('"' :: rest).foldlM (step floatRepr)
      ⟨.object fields (some field.1) :: frames, .text false field.2⟩ =
      rest.foldlM (step floatRepr)
        ⟨.object (setField field.1 (.str field.2) fields) none :: frames,
          .next⟩ := rfl
  simp only [printedField, List.cons_append, List.append_assoc,
    List.nil_append]
  rw [List.foldlM_cons, opened]
  exact (run_text floatRepr plainKey _ _ _ _).trans
    (keyed.trans ((run_text floatRepr plainText _ _ _ _).trans closed))

def printedFields : List (Text × Text) → Text
  | [] => []
  | [field] => printedField field
  | field :: other :: fields =>
      printedField field ++ ',' :: printedFields (other :: fields)

theorem run_printedFields {field : Text × Text} {fields : List (Text × Text)}
    (plain : ∀ entry ∈ field :: fields, IsPlain entry.1 ∧ IsPlain entry.2)
    (read : List (Text × Json)) (frames : List Frame) (rest : Text)
    (distinct : (read.map Prod.fst ++
      (field :: fields).map Prod.fst).Nodup) :
    (printedFields (field :: fields) ++ rest).foldlM (step floatRepr)
        ⟨.object read none :: frames, .key⟩ =
      rest.foldlM (step floatRepr)
        ⟨.object (read ++ (field :: fields).map fun entry =>
            (entry.1, Json.str entry.2)) none :: frames, .next⟩ := by
  induction fields generalizing field read with
  | nil =>
      have first := plain field (by simp)
      have fresh : field.1 ∉ read.map Prod.fst := by
        intro member
        exact (List.nodup_append.mp distinct).2.2 _ member _ (by simp) rfl
      rw [printedFields, run_printedField floatRepr first.1 first.2,
        setField_of_notMem fresh]
      rfl
  | cons other fields ih =>
      have first := plain field (by simp)
      have fresh : field.1 ∉ read.map Prod.fst := by
        intro member
        exact (List.nodup_append.mp distinct).2.2 _ member _ (by simp) rfl
      have separated : (',' :: (printedFields (other :: fields) ++ rest)).foldlM
          (step floatRepr)
          ⟨.object (read ++ [(field.1, .str field.2)]) none :: frames, .next⟩ =
          (printedFields (other :: fields) ++ rest).foldlM (step floatRepr)
            ⟨.object (read ++ [(field.1, .str field.2)]) none :: frames,
              .key⟩ := rfl
      rw [printedFields, List.append_assoc,
        run_printedField floatRepr first.1 first.2, setField_of_notMem fresh,
        List.cons_append, separated,
        ih (fun entry member => plain entry (List.mem_cons_of_mem _ member))
          _ (by simpa using distinct)]
      simp

theorem exists_printedFields_eq_cons (field : Text × Text)
    (fields : List (Text × Text)) :
    ∃ text, printedFields (field :: fields) = '"' :: text := by
  cases fields with
  | nil => exact ⟨_, rfl⟩
  | cons other fields => exact ⟨_, rfl⟩

/-- A list of one object with texts. -/
def printedObject (fields : List (Text × Text)) : Text :=
  '[' :: '{' :: printedFields fields ++ ['}', ']']

theorem loads_printedObject {fields : List (Text × Text)}
    (nonempty : fields ≠ [])
    (plain : ∀ entry ∈ fields, IsPlain entry.1 ∧ IsPlain entry.2)
    (distinct : (fields.map Prod.fst).Nodup) :
    loads floatRepr (printedObject fields) =
      some (.arr [.obj (fields.map fun entry =>
        (entry.1, Json.str entry.2))]) := by
  cases fields with
  | nil => exact absurd rfl nonempty
  | cons field fields =>
      obtain ⟨text, quoted⟩ := exists_printedFields_eq_cons field fields
      have opened : ('[' :: '{' :: ('"' :: text ++ ['}', ']'])).foldlM
          (step floatRepr) ⟨[], .value⟩ =
          ('"' :: text ++ ['}', ']']).foldlM (step floatRepr)
            ⟨[.object [] none, .array []], .key⟩ := rfl
      have closed : ∀ read : List (Text × Json), ['}', ']'].foldlM
          (step floatRepr) ⟨[.object read none, .array []], .next⟩ =
          some ⟨[], .done (.arr [.obj read])⟩ := fun _ => rfl
      rw [loads, printedObject, quoted, List.cons_append, List.cons_append,
        opened, ← quoted, run_printedFields floatRepr plain [] _ _ distinct,
        closed]
      rfl

end Floats

end Reading

end JsonText

end RefinetPillars
