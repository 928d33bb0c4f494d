import RefinetPillars.SiweMessage

/-!
# Fields of sign-in messages

Messages by the grammar of EIP-4361, and messages as challenges are written, on
the lines of which the fields are looked up.  A line before the fields is taken
for one if it starts with its label.
-/

namespace RefinetPillars

namespace SiweMessage

open HexText LineText

section Grammar

def isUnreserved (character : Char) : Bool :=
  character.isAlphanum || character ∈ "-._~".toList

def isReserved (character : Char) : Bool :=
  character ∈ ":/?#[]@!$&'()*+,;=".toList

/-- The characters of URIs and of what they consist of. -/
def isUriCharacter (character : Char) : Bool :=
  isUnreserved character || isReserved character || character = '%'

def isStatementCharacter (character : Char) : Bool :=
  isUnreserved character || isReserved character || character = ' '

def isDateCharacter (character : Char) : Bool :=
  character.isDigit || character ∈ "-:.+TtZz".toList

/-- What follows the authority on the first line. -/
def wants : Text := " wants you to sign in with your Ethereum account:".toList

/-- A message of EIP-4361.  URIs, authorities, request ids and dates may be any
texts of the characters that the grammar has for them. -/
structure Message where
  scheme : Option Text
  authority : Text
  address : Text
  statement : Option Text
  uri : Text
  chainId : Text
  nonce : Text
  issuedAt : Text
  expirationTime : Option Text
  notBefore : Option Text
  requestId : Option Text
  resources : Option (List Text)

/-- The fields are spelled as the grammar has it. -/
structure Message.WellFormed (message : Message) : Prop where
  scheme : ∀ scheme ∈ message.scheme, ∀ character ∈ scheme,
    isUriCharacter character = true
  authority : ∀ character ∈ message.authority, isUriCharacter character = true
  address : ∃ digits : Text, message.address = '0' :: 'x' :: digits ∧
    digits.length = 40 ∧ ∀ digit ∈ digits, digit.isAlphanum = true
  statement : ∀ statement ∈ message.statement, statement ≠ [] ∧
    ∀ character ∈ statement, isStatementCharacter character = true
  uri : ∀ character ∈ message.uri, isUriCharacter character = true
  chainId : message.chainId ≠ [] ∧
    ∀ character ∈ message.chainId, character.isDigit = true
  nonce : 8 ≤ message.nonce.length ∧
    ∀ character ∈ message.nonce, character.isAlphanum = true
  issuedAt : ∀ character ∈ message.issuedAt, isDateCharacter character = true
  expirationTime : ∀ date ∈ message.expirationTime, ∀ character ∈ date,
    isDateCharacter character = true
  notBefore : ∀ date ∈ message.notBefore, ∀ character ∈ date,
    isDateCharacter character = true
  requestId : ∀ id ∈ message.requestId, ∀ character ∈ id,
    isUriCharacter character = true
  resources : ∀ resources ∈ message.resources, ∀ resource ∈ resources,
    ∀ character ∈ resource, isUriCharacter character = true

def Message.firstLine (message : Message) : Text :=
  (message.scheme.map (· ++ "://".toList)).getD [] ++ message.authority ++ wants

def Message.lines (message : Message) : List Text :=
  [message.firstLine, message.address, []] ++ message.statement.toList ++
    [[], "URI: ".toList ++ message.uri, "Version: 1".toList,
      "Chain ID: ".toList ++ message.chainId,
      "Nonce: ".toList ++ message.nonce,
      "Issued At: ".toList ++ message.issuedAt] ++
    (message.expirationTime.map ("Expiration Time: ".toList ++ ·)).toList ++
    (message.notBefore.map ("Not Before: ".toList ++ ·)).toList ++
    (message.requestId.map ("Request ID: ".toList ++ ·)).toList ++
    match message.resources with
    | none => []
    | some resources =>
        "Resources:".toList :: resources.map ("- ".toList ++ ·)

def Message.text (message : Message) : Text :=
  [Char.ofNat 10].intercalate message.lines

end Grammar

section Layouts

/-- A visible character of ASCII. -/
def IsGraphic (character : Char) : Prop :=
  33 ≤ character.toNat ∧ character.toNat ≤ 126

/-- A character that ends no line. -/
def IsPrintable (character : Char) : Prop :=
  IsGraphic character ∨ character = ' '

/-- A value of visible characters only. -/
def IsGraphicText (value : Text) : Prop :=
  ∀ character ∈ value, IsGraphic character

/-- The lines of a message with the fields that are looked up.  `above` holds the
lines before the statement, and `rest` those after the expiration time. -/
structure Layout where
  above : List Text
  statement : Option Text
  uri : Text
  chainId : Text
  nonce : Text
  issuedAt : Text
  expirationTime : Option Text
  rest : List Text

/-- The lines before the fields. -/
def Layout.head (layout : Layout) : List Text :=
  layout.above ++ layout.statement.toList ++ [[]]

/-- The lines from the first field to the expiration time. -/
def Layout.fieldLines (layout : Layout) : List Text :=
  ["URI: ".toList ++ layout.uri, "Version: 1".toList,
    "Chain ID: ".toList ++ layout.chainId, "Nonce: ".toList ++ layout.nonce,
    "Issued At: ".toList ++ layout.issuedAt] ++
  (layout.expirationTime.map ("Expiration Time: ".toList ++ ·)).toList

/-- The lines from the first field on. -/
def Layout.fields (layout : Layout) : List Text :=
  layout.fieldLines ++ layout.rest

/-- The last line with text, without the blanks at its ends. -/
def lastText (lines : List Text) : Text :=
  ((lines.reverse.find? fun line => strip line ≠ []).map strip).getD []

/-- A number without its sign. -/
def unsigned : Text → Text
  | '-' :: digits => digits
  | digits => digits

/-- A decimal number, perhaps negative. -/
def IsDecimal (number : Text) : Prop :=
  unsigned number ≠ [] ∧ ∀ digit ∈ unsigned number, digit.isDigit = true

/-- A value without blanks. -/
def IsWord (value : Text) : Prop :=
  ∀ character ∈ value, isSpace character = false

/-- The values are spelled with visible characters, the statement perhaps with
spaces; where there is none, there is text above; and nothing after the fields is
taken for an expiration time. -/
structure Layout.Proper (layout : Layout) : Prop where
  above : layout.statement = none → lastText layout.above ≠ []
  statement : ∀ statement ∈ layout.statement, statement ≠ [] ∧
    ∀ character ∈ statement, IsPrintable character
  uri : IsGraphicText layout.uri
  chainId : IsDecimal layout.chainId
  nonce : IsGraphicText layout.nonce
  issuedAt : IsGraphicText layout.issuedAt
  expirationTime : ∀ date ∈ layout.expirationTime, IsGraphicText date
  rest : layout.expirationTime = none → ∀ line ∈ layout.rest,
    "Expiration Time: ".toList.isPrefixOf line = false

/-- The number that a chain id spells. -/
def chainNumber : Text → Int
  | '-' :: digits => -(Nat.ofDigitChars 10 digits 0 : Int)
  | digits => Nat.ofDigitChars 10 digits 0

def maxStrDigits : Nat := 4300

/-- `int` reads decimal numbers unless they have too many digits. -/
def ReadsDecimals (env : Environment) : Prop :=
  ∀ number : Text, IsDecimal number →
    env.int number =
      if (unsigned number).length ≤ maxStrDigits then some (chainNumber number)
      else none

/-- What `parse_expiry` makes of the text of an expiration time. -/
def expiryOf (env : Environment) : Option Text → Except Raised DateTime
  | none => .error (.valueError "No Expiration Time found in SIWE message")
  | some date => (env.fromisoformat date).mapError .valueError

/-- The fields that are read from a text are those of the layout, and the kind
of the message and the Pillar that it names are decided by them. -/
structure Layout.ReadFrom (layout : Layout) (env : Environment) (text : Text) :
    Prop where
  statement : parseStatement text = layout.statement.getD []
  uri : parseUri text = layout.uri
  chainId : parseChainId env text = chainNumber layout.chainId
  nonce : parseNonce text = layout.nonce
  expiry : parseExpiry env text = expiryOf env layout.expirationTime
  binding : isBindingMessage text =
    bindingStatementPrefix.isPrefixOf (layout.statement.getD [])
  names : ∀ pid, messageNamesPid text pid = decide (layout.uri = pillarUri pid)

/-- A line that is taken for the first of the fields. -/
def startsFields (line : Text) : Bool :=
  "URI:".toList.isPrefixOf line || "URI ".toList.isPrefixOf line

/-- What follows the label on the first line that starts with it. -/
def carried (label : Text) (lines : List Text) : Option Text :=
  (lines.find? fun line => label.isPrefixOf line).map fun line =>
    strip (removeAll label line)

/-- The last line with text before the first one that is taken for a field. -/
def aboveFields (lines : List Text) : Option Text :=
  (lines.findIdx? startsFields).map fun index =>
    (((lines.take index).reverse.find? fun line => strip line ≠ []).map
      strip).getD []

/-- No line before the fields starts like one of them, unless it carries the
value of the field; the statement is there, without blanks at its ends; and the
chain id is not too long to be read. -/
structure Layout.Undisturbed (layout : Layout) (env : Environment) : Prop where
  statement : match aboveFields layout.head with
    | some above => above = layout.statement.getD []
    | none => ∃ statement, layout.statement = some statement ∧
        strip statement = statement
  uri : ∀ line, layout.head.find? ("URI:".toList.isPrefixOf ·) = some line →
    strip (afterColon line) = layout.uri
  chainId : match carried "Chain ID: ".toList layout.head with
    | some value => (env.int value).getD 1 = chainNumber layout.chainId
    | none => (unsigned layout.chainId).length ≤ maxStrDigits ∨
        chainNumber layout.chainId = 1
  nonce : ∀ value, carried "Nonce: ".toList layout.head = some value →
    value = layout.nonce
  expiry : ∀ value, carried "Expiration Time: ".toList layout.head =
    some value → expiryOf env (some value) = expiryOf env layout.expirationTime

end Layouts

section Characters

variable {character : Char}

theorem IsGraphic.isSpace_eq (graphic : IsGraphic character) :
    isSpace character = false := by
  obtain ⟨above, below⟩ := graphic
  simp only [isSpace, Bool.or_eq_false_iff, Bool.and_eq_false_iff,
    decide_eq_false_iff_not]
  omega

theorem IsGraphic.isLineBreak_eq (graphic : IsGraphic character) :
    isLineBreak character = false := by
  obtain ⟨above, below⟩ := graphic
  simp only [isLineBreak, List.mem_cons, List.not_mem_nil, or_false,
    decide_eq_false_iff_not]
  omega

theorem graphic_of_isAlphanum (alphanumeric : character.isAlphanum = true) :
    IsGraphic character := by
  simp only [Char.isAlphanum, Char.isAlpha, Char.isUpper, Char.isLower,
    Char.isDigit, Bool.or_eq_true, Bool.and_eq_true, decide_eq_true_eq,
    ge_iff_le, UInt32.le_iff_toNat_le] at alphanumeric
  have value : character.toNat = character.val.toNat := rfl
  simp at alphanumeric
  rw [IsGraphic]
  omega

theorem graphic_of_isDigit (digit : character.isDigit = true) :
    IsGraphic character :=
  graphic_of_isAlphanum (by simp [Char.isAlphanum, digit])

theorem graphic_of_mem {allowed : Text} (member : character ∈ allowed)
    (graphic : allowed.all fun character =>
      33 ≤ character.toNat && character.toNat ≤ 126) : IsGraphic character := by
  have inRange := List.all_eq_true.mp graphic character member
  simpa [IsGraphic] using inRange

theorem graphic_of_isUriCharacter (allowed : isUriCharacter character = true) :
    IsGraphic character := by
  simp only [isUriCharacter, isUnreserved, isReserved, Bool.or_eq_true,
    decide_eq_true_eq] at allowed
  rcases allowed with ((alphanumeric | mark) | reserved) | rfl
  · exact graphic_of_isAlphanum alphanumeric
  · exact graphic_of_mem mark (by simp)
  · exact graphic_of_mem reserved (by simp)
  · exact ⟨by decide, by decide⟩

theorem graphic_of_isDateCharacter (allowed : isDateCharacter character = true) :
    IsGraphic character := by
  simp only [isDateCharacter, Bool.or_eq_true, decide_eq_true_eq] at allowed
  rcases allowed with digit | mark
  · exact graphic_of_isDigit digit
  · exact graphic_of_mem mark (by simp)

theorem IsGraphicText.isWord {value : Text} (graphic : IsGraphicText value) :
    IsWord value :=
  fun character member => (graphic character member).isSpace_eq

theorem IsDecimal.graphic {number : Text} (decimal : IsDecimal number) :
    IsGraphicText number := by
  intro digit member
  have areDigits := decimal.2
  unfold unsigned at areDigits
  split at areDigits
  next digits =>
    rcases List.mem_cons.mp member with rfl | inDigits
    · exact ⟨by decide, by decide⟩
    · exact graphic_of_isDigit (areDigits digit inDigits)
  next => exact graphic_of_isDigit (areDigits digit member)

end Characters

section Reading

variable {env : Environment} {layout : Layout} {text : Text}

theorem removeFrom_append (removed start rest : Text) :
    removeFrom removed start.length (start ++ rest) =
      removeFrom removed 0 rest := by
  induction start with
  | nil => rfl
  | cons first start ih => exact ih

/-- A text without one of the characters of another one does not contain it. -/
theorem removeAll_of_notMem {removed text : Text} {character : Char}
    (inside : character ∈ removed) (free : character ∉ text) :
    removeAll removed text = text := by
  induction text with
  | nil => rfl
  | cons first text ih =>
      have notPrefix : removed.isPrefixOf (first :: text) = false := by
        rw [← Bool.not_eq_true, List.isPrefixOf_iff_prefix]
        exact fun starts => free (starts.mem inside)
      rw [removeAll, removeFrom, notPrefix]
      simp only [Bool.false_eq_true, if_false]
      exact congrArg _ (ih fun member => free (List.mem_cons_of_mem _ member))

/-- Removing a label leaves the value after it. -/
theorem removeAll_label {label value : Text} {character : Char}
    (inside : character ∈ label) (free : character ∉ value) :
    removeAll label (label ++ value) = value := by
  cases label with
  | nil => cases inside
  | cons first label =>
      have starts : (first :: label).isPrefixOf (first :: (label ++ value)) =
          true := by
        rw [List.isPrefixOf_iff_prefix, ← List.cons_append]
        exact List.prefix_append _ _
      rw [removeAll, List.cons_append, removeFrom, starts, if_pos rfl]
      exact (removeFrom_append _ label value).trans
        (removeAll_of_notMem inside free)

theorem IsWord.strip_eq {value : Text} (word : IsWord value) :
    strip value = value :=
  strip_eq_self (fun _ atHead => word _ (List.mem_of_mem_head? atHead))
    fun _ atEnd => word _ (List.mem_of_getLast? atEnd)

theorem IsWord.space_notMem {value : Text} (word : IsWord value) :
    ' ' ∉ value := by
  intro member
  have visible := word ' ' member
  revert visible
  decide

/-- A word is read back from behind its label. -/
theorem IsWord.strip_removeAll {label value : Text} (word : IsWord value)
    (spaced : ' ' ∈ label) : strip (removeAll label (label ++ value)) = value := by
  rw [removeAll_label spaced word.space_notMem, word.strip_eq]

theorem labelled_eq (label : Text) :
    labelled label text = carried label (splitLines text) := rfl

theorem carried_append (label : Text) (lines others : List Text) :
    carried label (lines ++ others) =
      (carried label lines).or (carried label others) := by
  rw [carried, carried, carried, List.find?_append]
  cases lines.find? fun line => label.isPrefixOf line <;> rfl

theorem parseExpiry_eq : parseExpiry env text =
    expiryOf env (carried "Expiration Time: ".toList (splitLines text)) := by
  rw [parseExpiry, labelled_eq]
  cases carried "Expiration Time: ".toList (splitLines text) with
  | none => rfl
  | some value =>
      simp only [expiryOf]
      cases env.fromisoformat value <;> rfl

/-- A line that begins with another character does not start with a label. -/
theorem not_label {label start value : Text} {own other : Char}
    (labelHead : label.head? = some own) (lineHead : start.head? = some other)
    (different : own ≠ other) : label.isPrefixOf (start ++ value) = false := by
  cases label with
  | nil => cases labelHead
  | cons first label =>
      cases start with
      | nil => cases lineHead
      | cons second start =>
          obtain rfl := Option.some.inj labelHead
          obtain rfl := Option.some.inj lineHead
          rw [List.cons_append, List.isPrefixOf_cons_cons,
            beq_eq_false_iff_ne.mpr different, Bool.false_and]

theorem isPrefixOf_append_self (label value : Text) :
    label.isPrefixOf (label ++ value) = true :=
  List.isPrefixOf_iff_prefix.mpr (List.prefix_append _ _)

/-- Looking for a label goes past the lines of other labels. -/
theorem carried_other {label start value : Text} {own other : Char}
    (labelHead : label.head? = some own) (lineHead : start.head? = some other)
    (different : own ≠ other) (lines : List Text) :
    carried label ((start ++ value) :: lines) = carried label lines := by
  rw [carried, List.find?_cons_of_neg
    (by rw [not_label labelHead lineHead different]; decide), carried]

theorem carried_own {label value : Text} (word : IsWord value)
    (spaced : ' ' ∈ label) (lines : List Text) :
    carried label ((label ++ value) :: lines) = some value := by
  rw [carried, List.find?_cons_of_pos (isPrefixOf_append_self label value),
    Option.map_some, word.strip_removeAll spaced]

/-- The fields are found after their labels. -/
theorem carried_fields (proper : layout.Proper) :
    carried "Chain ID: ".toList layout.fields = some layout.chainId ∧
      carried "Nonce: ".toList layout.fields = some layout.nonce ∧
      carried "Expiration Time: ".toList layout.fields =
        layout.expirationTime := by
  have chainWord : IsWord layout.chainId := proper.chainId.graphic.isWord
  have version : ("Version: 1".toList : Text) = "Version: 1".toList ++ [] :=
    (List.append_nil _).symm
  have uriHead : ("URI: ".toList).head? = some 'U' := by simp
  have versionHead : ("Version: 1".toList).head? = some 'V' := by simp
  have chainHead : ("Chain ID: ".toList).head? = some 'C' := by simp
  have nonceHead : ("Nonce: ".toList).head? = some 'N' := by simp
  have issuedHead : ("Issued At: ".toList).head? = some 'I' := by simp
  have expiryHead : ("Expiration Time: ".toList).head? = some 'E' := by
    simp
  rw [Layout.fields, Layout.fieldLines, version]
  simp only [List.cons_append, List.nil_append]
  refine ⟨?_, ?_, ?_⟩
  · rw [carried_other chainHead uriHead (by decide),
      carried_other chainHead versionHead (by decide),
      carried_own chainWord (by simp)]
  · rw [carried_other nonceHead uriHead (by decide),
      carried_other nonceHead versionHead (by decide),
      carried_other nonceHead chainHead (by decide),
      carried_own proper.nonce.isWord (by simp)]
  · rw [carried_other expiryHead uriHead (by decide),
      carried_other expiryHead versionHead (by decide),
      carried_other expiryHead chainHead (by decide),
      carried_other expiryHead nonceHead (by decide),
      carried_other expiryHead issuedHead (by decide)]
    cases expiration : layout.expirationTime with
    | some date =>
        exact carried_own (proper.expirationTime date expiration).isWord
          (by simp) _
    | none =>
        have absent := proper.rest expiration
        rw [carried, Option.map_eq_none_iff, List.find?_eq_none]
        intro line member
        rw [absent line (by simpa using member)]
        decide

theorem startsFields_uri (value : Text) :
    startsFields ("URI: ".toList ++ value) = true := by
  have label : ("URI:".toList : Text) <+: "URI: ".toList := by simp
  rw [startsFields, Bool.or_eq_true, List.isPrefixOf_iff_prefix]
  exact Or.inl (label.trans (List.prefix_append _ _))

/-- The statement is looked for above the first line that is taken for a
field. -/
theorem parseStatement_eq
    (split : splitLines text = layout.head ++ layout.fields) :
    parseStatement text =
      (aboveFields layout.head).getD (lastText layout.head) := by
  have fields : layout.fields.findIdx? startsFields = some 0 := by
    rw [Layout.fields, Layout.fieldLines]
    simp only [List.cons_append, List.nil_append]
    rw [List.findIdx?_cons, startsFields_uri, if_pos rfl]
  have parsed : parseStatement text =
      ((layout.head ++ layout.fields).findIdx? startsFields).elim []
        fun index => lastText ((layout.head ++ layout.fields).take index) := by
    simp only [parseStatement, split]
    split
    next absent =>
      have nowhere : (layout.head ++ layout.fields).findIdx? startsFields =
          none := absent
      rw [nowhere]
      rfl
    next index found =>
      have somewhere : (layout.head ++ layout.fields).findIdx? startsFields =
          some index := found
      rw [somewhere]
      dsimp only [Option.elim, lastText]
      cases (((layout.head ++ layout.fields).take index).reverse.find?
        fun line => strip line ≠ []) <;> rfl
  rw [parsed, List.findIdx?_append, fields, aboveFields]
  cases found : layout.head.findIdx? startsFields with
  | none => simp [List.take_append]
  | some index =>
      have inside : index ≤ layout.head.length :=
        (List.findIdx?_eq_some_iff_findIdx_eq.mp found).1.le
      simp [List.take_append_of_le_length inside, lastText]

theorem lastText_append (lines : List Text) (line : Text) :
    lastText (lines ++ [line]) =
      if strip line = [] then lastText lines else strip line := by
  rw [lastText, List.reverse_append, List.reverse_singleton,
    List.singleton_append]
  by_cases blank : strip line = []
  · rw [List.find?_cons_of_neg (by simp [blank]), if_pos blank, lastText]
  · rw [List.find?_cons_of_pos (by simp [blank]), if_neg blank]
    rfl

theorem strip_lastText (lines : List Text) :
    strip (lastText lines) = lastText lines := by
  rw [lastText]
  cases lines.reverse.find? fun line => strip line ≠ [] with
  | none => rfl
  | some line => exact strip_strip line

/-- Without a field above it, the statement is read if it is there and has no
blanks at its ends. -/
theorem lastText_head (proper : layout.Proper) :
    lastText layout.head = layout.statement.getD [] ↔
      ∃ statement, layout.statement = some statement ∧
        strip statement = statement := by
  have noText : strip [] = [] := rfl
  rw [Layout.head, lastText_append, if_pos noText]
  cases given : layout.statement with
  | none => simp [proper.above given]
  | some statement =>
      rw [Option.toList_some, lastText_append, Option.getD_some]
      by_cases blank : strip statement = []
      · have nonempty := (proper.statement statement given).1
        rw [if_pos blank]
        constructor
        · intro same
          have trimmed := strip_lastText layout.above
          rw [same, blank] at trimmed
          exact (nonempty trimmed.symm).elim
        · rintro ⟨_, ⟨⟩, trimmed⟩
          exact (nonempty (trimmed.symm.trans blank)).elim
      · rw [if_neg blank]
        simp

theorem strip_afterColon_uri {value : Text} (word : IsWord value) :
    strip (afterColon ("URI: ".toList ++ value)) = value := by
  have label : ("URI: ".toList : Text) = ['U', 'R', 'I', ':', ' '] := by
    simp
  have spaced : afterColon ("URI: ".toList ++ value) = ' ' :: value := by
    rw [label]
    rfl
  have trimmed : strip (' ' :: value) = strip value := by
    rw [strip, strip, List.dropWhile_cons_of_pos (by decide)]
  rw [spaced, trimmed, word.strip_eq]

theorem parseUri_eq (proper : layout.Proper)
    (split : splitLines text = layout.head ++ layout.fields) :
    parseUri text =
      ((layout.head.find? ("URI:".toList.isPrefixOf ·)).map fun line =>
        strip (afterColon line)).getD layout.uri := by
  have label : ("URI:".toList : Text) <+: "URI: ".toList := by simp
  have own : layout.fields.find? ("URI:".toList.isPrefixOf ·) =
      some ("URI: ".toList ++ layout.uri) := by
    rw [Layout.fields, Layout.fieldLines]
    simp only [List.cons_append, List.nil_append]
    exact List.find?_cons_of_pos (List.isPrefixOf_iff_prefix.mpr
      (label.trans (List.prefix_append _ _)))
  rw [parseUri, split, List.find?_append, own]
  cases layout.head.find? ("URI:".toList.isPrefixOf ·) with
  | none => exact strip_afterColon_uri proper.uri.isWord
  | some line => rfl

/-- What the parsers read is what the message has, exactly if nothing before the
fields disturbs them. -/
theorem readFrom_iff (reads : ReadsDecimals env) (proper : layout.Proper)
    (split : splitLines text = layout.head ++ layout.fields) :
    layout.ReadFrom env text ↔ layout.Undisturbed env := by
  obtain ⟨chainField, nonceField, expiryField⟩ := carried_fields proper
  have statement : parseStatement text = layout.statement.getD [] ↔
      match aboveFields layout.head with
      | some above => above = layout.statement.getD []
      | none => ∃ statement, layout.statement = some statement ∧
          strip statement = statement := by
    rw [parseStatement_eq split]
    cases aboveFields layout.head with
    | some above => rfl
    | none => exact lastText_head proper
  have uri : parseUri text = layout.uri ↔
      ∀ line, layout.head.find? ("URI:".toList.isPrefixOf ·) = some line →
        strip (afterColon line) = layout.uri := by
    rw [parseUri_eq proper split]
    cases layout.head.find? ("URI:".toList.isPrefixOf ·) <;> simp
  have chainId : parseChainId env text = chainNumber layout.chainId ↔
      match carried "Chain ID: ".toList layout.head with
      | some value => (env.int value).getD 1 = chainNumber layout.chainId
      | none => (unsigned layout.chainId).length ≤ maxStrDigits ∨
          chainNumber layout.chainId = 1 := by
    rw [parseChainId, labelled_eq, split, carried_append, chainField]
    cases carried "Chain ID: ".toList layout.head with
    | some value => rfl
    | none =>
        simp only [Option.none_or, Option.bind_some,
          reads _ proper.chainId]
        by_cases short : (unsigned layout.chainId).length ≤ maxStrDigits
        · simp [short]
        · simp [short, eq_comm]
  have nonce : parseNonce text = layout.nonce ↔
      ∀ value, carried "Nonce: ".toList layout.head = some value →
        value = layout.nonce := by
    rw [parseNonce, labelled_eq, split, carried_append, nonceField]
    cases carried "Nonce: ".toList layout.head <;> simp
  have expiry : parseExpiry env text = expiryOf env layout.expirationTime ↔
      ∀ value, carried "Expiration Time: ".toList layout.head = some value →
        expiryOf env (some value) = expiryOf env layout.expirationTime := by
    rw [parseExpiry_eq, split, carried_append, expiryField]
    cases carried "Expiration Time: ".toList layout.head <;> simp
  constructor
  · intro read
    exact ⟨statement.mp read.statement, uri.mp read.uri,
      chainId.mp read.chainId, nonce.mp read.nonce, expiry.mp read.expiry⟩
  · intro undisturbed
    have statementRead := statement.mpr undisturbed.statement
    have uriRead := uri.mpr undisturbed.uri
    exact ⟨statementRead, uriRead, chainId.mpr undisturbed.chainId,
      nonce.mpr undisturbed.nonce, expiry.mpr undisturbed.expiry,
      by rw [isBindingMessage, statementRead],
      fun pid => by rw [messageNamesPid, uriRead]⟩

end Reading

section Messages

variable {env : Environment}

/-- The fields of a message of the grammar. -/
def Message.layout (message : Message) : Layout where
  above := [message.firstLine, message.address, []]
  statement := message.statement
  uri := message.uri
  chainId := message.chainId
  nonce := message.nonce
  issuedAt := message.issuedAt
  expirationTime := message.expirationTime
  rest :=
    (message.notBefore.map ("Not Before: ".toList ++ ·)).toList ++
      (message.requestId.map ("Request ID: ".toList ++ ·)).toList ++
      match message.resources with
      | none => []
      | some resources =>
          "Resources:".toList :: resources.map ("- ".toList ++ ·)

theorem Message.lines_eq (message : Message) :
    message.lines = message.layout.head ++ message.layout.fields := by
  simp only [Message.lines, Layout.head, Layout.fields, Layout.fieldLines,
    Message.layout, List.append_assoc, List.cons_append, List.nil_append]

theorem IsPrintable.isLineBreak_eq {character : Char}
    (printable : IsPrintable character) : isLineBreak character = false := by
  rcases printable with graphic | rfl
  · exact graphic.isLineBreak_eq
  · decide

theorem printable_of_all {text : Text}
    (all : text.all fun character =>
      (33 ≤ character.toNat && character.toNat ≤ 126) || character = ' ') :
    ∀ character ∈ text, IsPrintable character := by
  intro character member
  have checked := List.all_eq_true.mp all character member
  simpa [IsPrintable, IsGraphic] using checked

theorem printable_append {label value : Text}
    (labelPrintable : ∀ character ∈ label, IsPrintable character)
    (valuePrintable : ∀ character ∈ value, IsPrintable character) :
    ∀ character ∈ label ++ value, IsPrintable character := by
  intro character member
  rcases List.mem_append.mp member with inLabel | inValue
  · exact labelPrintable character inLabel
  · exact valuePrintable character inValue

theorem IsGraphicText.printable {value : Text} (graphic : IsGraphicText value) :
    ∀ character ∈ value, IsPrintable character :=
  fun character member => Or.inl (graphic character member)

/-- The lines from the statement to the expiration time are not broken. -/
theorem Layout.Proper.printable {layout : Layout} (proper : layout.Proper) :
    ∀ line ∈ layout.statement.toList ++ [[]] ++ layout.fieldLines,
      ∀ character ∈ line, IsPrintable character := by
  have labels : ∀ label ∈ ["URI: ".toList, "Version: 1".toList,
      "Chain ID: ".toList, "Nonce: ".toList, "Issued At: ".toList,
      "Expiration Time: ".toList], ∀ character ∈ label,
        IsPrintable character := by
    intro label member
    apply printable_of_all
    revert label
    simp
  have labelled : ∀ label value, label ∈ ["URI: ".toList,
      "Version: 1".toList, "Chain ID: ".toList, "Nonce: ".toList,
      "Issued At: ".toList, "Expiration Time: ".toList] →
      IsGraphicText value → ∀ character ∈ label ++ value,
        IsPrintable character := fun label value member graphic =>
    printable_append (labels label member) graphic.printable
  intro line member
  simp only [Layout.fieldLines, List.mem_append, List.mem_cons,
    List.not_mem_nil, or_false, Option.mem_toList, Option.map_eq_some_iff]
    at member
  rcases member with (given | rfl) | (rfl | rfl | rfl | rfl | rfl) |
    ⟨date, given, rfl⟩
  · exact (proper.statement line given).2
  · exact nofun
  · exact labelled _ _ (by simp) proper.uri
  · exact labels _ (by simp)
  · exact labelled _ _ (by simp) proper.chainId.graphic
  · exact labelled _ _ (by simp) proper.nonce
  · exact labelled _ _ (by simp) proper.issuedAt
  · exact labelled _ _ (by simp) (proper.expirationTime date given)

theorem graphicText_of_uri {value : Text}
    (allowed : ∀ character ∈ value, isUriCharacter character = true) :
    IsGraphicText value :=
  fun character member => graphic_of_isUriCharacter (allowed character member)

theorem graphicText_of_date {value : Text}
    (allowed : ∀ character ∈ value, isDateCharacter character = true) :
    IsGraphicText value :=
  fun character member => graphic_of_isDateCharacter (allowed character member)

theorem printable_of_isStatementCharacter {character : Char}
    (allowed : isStatementCharacter character = true) :
    IsPrintable character := by
  simp only [isStatementCharacter, Bool.or_eq_true, decide_eq_true_eq]
    at allowed
  rcases allowed with visible | rfl
  · refine Or.inl (graphic_of_isUriCharacter ?_)
    rw [isUriCharacter, Bool.or_eq_true, Bool.or_eq_true]
    exact Or.inl visible
  · exact Or.inr rfl

theorem isDecimal_of_digits {digits : Text} (nonempty : digits ≠ [])
    (areDigits : ∀ digit ∈ digits, digit.isDigit = true) :
    IsDecimal digits := by
  cases digits with
  | nil => exact (nonempty rfl).elim
  | cons first digits =>
      have unsignedEq : unsigned (first :: digits) = first :: digits := by
        unfold unsigned
        split
        next same =>
          obtain ⟨rfl, -⟩ := List.cons.inj same
          cases areDigits '-' (by simp)
        next => rfl
      rw [IsDecimal, unsignedEq]
      exact ⟨nonempty, areDigits⟩

variable {message : Message}

/-- The address of a message has no blanks. -/
theorem Message.WellFormed.address_graphic (wellFormed : message.WellFormed) :
    IsGraphicText message.address := by
  obtain ⟨digits, spelled, -, alphanumeric⟩ := wellFormed.address
  rw [spelled]
  intro character member
  rcases List.mem_cons.mp member with rfl | member
  · exact ⟨by decide, by decide⟩
  rcases List.mem_cons.mp member with rfl | member
  · exact ⟨by decide, by decide⟩
  · exact graphic_of_isAlphanum (alphanumeric character member)

theorem Message.WellFormed.lastText_above (wellFormed : message.WellFormed) :
    lastText message.layout.above = message.address := by
  have trimmed := wellFormed.address_graphic.isWord.strip_eq
  have nonempty : message.address ≠ [] := by
    obtain ⟨digits, spelled, -⟩ := wellFormed.address
    rw [spelled]
    exact List.cons_ne_nil _ _
  have noText : strip [] = [] := rfl
  have split : message.layout.above =
      [message.firstLine] ++ [message.address] ++ [[]] := rfl
  rw [split, lastText_append, if_pos noText, lastText_append, trimmed,
    if_neg nonempty]

/-- The lines after the expiration time are labelled otherwise. -/
theorem Message.rest_labelled {line : Text}
    (member : line ∈ message.layout.rest) :
    ∃ label value, label ∈ ["Not Before: ".toList, "Request ID: ".toList,
        "Resources:".toList, "- ".toList] ∧ line = label ++ value ∧
      (value = [] ∨ message.notBefore = some value ∨
        message.requestId = some value ∨
        ∃ resources, message.resources = some resources ∧
          value ∈ resources) := by
  simp only [Message.layout, List.mem_append, Option.mem_toList,
    Option.map_eq_some_iff] at member
  rcases member with (⟨date, given, rfl⟩ | ⟨id, given, rfl⟩) | listed
  · exact ⟨_, date, by simp, rfl, Or.inr (Or.inl given)⟩
  · exact ⟨_, id, by simp, rfl, Or.inr (Or.inr (Or.inl given))⟩
  · cases given : message.resources with
    | none => simp [given] at listed
    | some resources =>
        rw [given] at listed
        rcases List.mem_cons.mp listed with rfl | inList
        · exact ⟨_, [], by simp, (List.append_nil _).symm, Or.inl rfl⟩
        · obtain ⟨resource, inResources, rfl⟩ := List.mem_map.mp inList
          exact ⟨_, resource, by simp, rfl,
            Or.inr (Or.inr (Or.inr ⟨resources, rfl, inResources⟩))⟩

theorem Message.WellFormed.proper (wellFormed : message.WellFormed) :
    message.layout.Proper := by
  have labelHeads : ∀ label ∈ ["Not Before: ".toList, "Request ID: ".toList,
      "Resources:".toList, "- ".toList],
      label.head? = some 'N' ∨ label.head? = some 'R' ∨
        label.head? = some '-' := by simp
  have expiryHead : ("Expiration Time: ".toList).head? = some 'E' := by
    simp
  constructor
  case above =>
    intro _ empty
    rw [wellFormed.lastText_above] at empty
    obtain ⟨digits, spelled, -⟩ := wellFormed.address
    rw [spelled] at empty
    cases empty
  case statement =>
    intro statement given
    obtain ⟨nonempty, allowed⟩ := wellFormed.statement statement given
    exact ⟨nonempty, fun character member =>
      printable_of_isStatementCharacter (allowed character member)⟩
  case uri => exact graphicText_of_uri wellFormed.uri
  case chainId =>
    exact isDecimal_of_digits wellFormed.chainId.1 wellFormed.chainId.2
  case nonce =>
    exact fun character member =>
      graphic_of_isAlphanum (wellFormed.nonce.2 character member)
  case issuedAt => exact graphicText_of_date wellFormed.issuedAt
  case expirationTime =>
    exact fun date given =>
      graphicText_of_date (wellFormed.expirationTime date given)
  case rest =>
    intro _ line member
    obtain ⟨label, value, known, rfl, -⟩ := Message.rest_labelled member
    rcases labelHeads label known with head | head | head
    · exact not_label expiryHead head (by decide)
    · exact not_label expiryHead head (by decide)
    · exact not_label expiryHead head (by decide)

/-- No line of a message is broken. -/
theorem Message.WellFormed.printable (wellFormed : message.WellFormed) :
    ∀ line ∈ message.lines, ∀ character ∈ line, IsPrintable character := by
  have labels : ∀ label ∈ ["Not Before: ".toList, "Request ID: ".toList,
      "Resources:".toList, "- ".toList], ∀ character ∈ label,
        IsPrintable character := by
    intro label member
    apply printable_of_all
    revert label
    simp
  have firstLine : ∀ character ∈ message.firstLine,
      IsPrintable character := by
    have scheme : ∀ character ∈
        (message.scheme.map (· ++ "://".toList)).getD [],
        IsPrintable character := by
      cases given : message.scheme with
      | none => simp
      | some scheme =>
          exact printable_append
            (graphicText_of_uri (wellFormed.scheme scheme given)).printable
            (printable_of_all (by simp))
    exact printable_append (printable_append scheme
      (graphicText_of_uri wellFormed.authority).printable)
      (printable_of_all (by decide +kernel))
  have own := wellFormed.proper.printable
  intro line member
  rw [Message.lines_eq, Layout.head, Layout.fields] at member
  rcases List.mem_append.mp member with inHead | inFields
  · rw [List.append_assoc] at inHead
    rcases List.mem_append.mp inHead with inAbove | inHead
    · simp only [Message.layout, List.mem_cons, List.not_mem_nil, or_false]
        at inAbove
      rcases inAbove with rfl | rfl | rfl
      · exact firstLine
      · exact wellFormed.address_graphic.printable
      · exact nofun
    · exact own line (List.mem_append_left _ inHead)
  · rcases List.mem_append.mp inFields with inFields | inRest
    · exact own line (List.mem_append_right _ inFields)
    · obtain ⟨label, value, known, rfl, origin⟩ := Message.rest_labelled inRest
      have value : ∀ character ∈ value, IsPrintable character := by
        rcases origin with rfl | given | given | ⟨resources, given, inList⟩
        · exact nofun
        · exact (graphicText_of_date
            (wellFormed.notBefore value given)).printable
        · exact (graphicText_of_uri
            (wellFormed.requestId value given)).printable
        · exact (graphicText_of_uri
            (wellFormed.resources resources given value inList)).printable
      exact printable_append (labels label known) value

/-- The lines of the fields are not empty. -/
theorem Message.fields_ne_nil {line : Text}
    (member : line ∈ message.layout.fields) : line ≠ [] := by
  have labels : ∀ label ∈ ["URI: ".toList, "Version: 1".toList,
      "Chain ID: ".toList, "Nonce: ".toList, "Issued At: ".toList,
      "Expiration Time: ".toList], label ≠ [] := by simp
  have restLabels : ∀ label ∈ ["Not Before: ".toList, "Request ID: ".toList,
      "Resources:".toList, "- ".toList], label ≠ [] := by simp
  rw [Layout.fields, Layout.fieldLines] at member
  rcases List.mem_append.mp member with inFields | inRest
  · simp only [List.mem_append, List.mem_cons, List.not_mem_nil, or_false,
      Option.mem_toList, Option.map_eq_some_iff] at inFields
    rcases inFields with (rfl | rfl | rfl | rfl | rfl) | ⟨date, -, rfl⟩
    · exact List.append_ne_nil_of_left_ne_nil (labels _ (by simp)) _
    · exact labels _ (by simp)
    · exact List.append_ne_nil_of_left_ne_nil (labels _ (by simp)) _
    · exact List.append_ne_nil_of_left_ne_nil (labels _ (by simp)) _
    · exact List.append_ne_nil_of_left_ne_nil (labels _ (by simp)) _
    · exact List.append_ne_nil_of_left_ne_nil (labels _ (by simp)) _
  · obtain ⟨label, value, known, rfl, -⟩ := Message.rest_labelled inRest
    exact List.append_ne_nil_of_left_ne_nil (restLabels label known) _

/-- A message is split into its lines again. -/
theorem Message.WellFormed.splitLines_text (wellFormed : message.WellFormed) :
    splitLines message.text = message.lines := by
  have unbroken : ∀ line ∈ message.lines, ∀ character ∈ line,
      isLineBreak character = false := fun line member character inLine =>
    (wellFormed.printable line member character inLine).isLineBreak_eq
  have nonempty : message.layout.fields ≠ [] := by
    simp [Layout.fields, Layout.fieldLines]
  have ends : message.lines =
      (message.layout.head ++ message.layout.fields.dropLast) ++
        [message.layout.fields.getLast nonempty] := by
    rw [List.append_assoc, List.dropLast_append_getLast, Message.lines_eq]
  rw [Message.text, ends]
  rw [ends] at unbroken
  exact splitLines_intercalate_self unbroken
    (Message.fields_ne_nil (List.getLast_mem nonempty))

end Messages

section Challenges

variable {env : Environment}

/-- The fields of a message as challenges are written.  The authority and the
resources after the Pillar's own may be any texts. -/
structure Fields.OfChallenge (fields : Fields) : Prop where
  pid : IsGraphicText fields.pid
  nonce : IsGraphicText fields.nonce
  statement : fields.statement = loginStatement fields.pid ∨
    ∃ role, bindingStatement fields.pid role = .ok fields.statement
  resources : ∃ more, fields.resources = pillarUri fields.pid :: more

/-- What stands before the statement. -/
def Fields.opening (fields : Fields) : Text :=
  fields.authority ++ wants ++ Char.ofNat 10 ::
    (fields.address ++ [Char.ofNat 10, Char.ofNat 10])

/-- What stands after the expiration time. -/
def Fields.resourceLines (fields : Fields) : List Text :=
  "Resources:".toList ::
    fields.resources.map fun resource => "- ".toList ++ resource

/-- The fields of a message as challenges are written. -/
def Fields.layout (env : Environment) (fields : Fields) : Layout where
  above := splitLines fields.opening
  statement := some fields.statement
  uri := pillarUri fields.pid
  chainId := (toString fields.chainId).toList
  nonce := fields.nonce
  issuedAt := env.isoformat fields.issuedAt
  expirationTime := some (env.isoformat fields.expiresAt)
  rest := splitLines ([Char.ofNat 10].intercalate fields.resourceLines)

theorem isDecimal_toString (number : Int) :
    IsDecimal (toString number).toList := by
  have digits : ∀ count : Nat, Nat.toDigits 10 count ≠ [] ∧
      ∀ digit ∈ Nat.toDigits 10 count, digit.isDigit = true := fun count =>
    ⟨List.ne_nil_of_length_pos Nat.length_toDigits_pos, fun digit member =>
      Nat.isDigit_of_mem_toDigits (by decide) (by decide) member⟩
  rw [Int.toString_eq_repr, Int.repr_eq_if]
  split
  next =>
    rw [Nat.toList_repr]
    exact isDecimal_of_digits (digits _).1 (digits _).2
  next =>
    rw [String.toList_append, Nat.toList_repr]
    exact digits _

theorem graphicText_pillarUri {pid : Text} (graphic : IsGraphicText pid) :
    IsGraphicText (pillarUri pid) := by
  intro character member
  rcases List.mem_append.mp member with inLabel | inPid
  · exact graphic_of_mem inLabel (by simp)
  · exact graphic character inPid

variable {fields : Fields}

theorem Fields.OfChallenge.statement_printable (challenge : fields.OfChallenge) :
    fields.statement ≠ [] ∧
      ∀ character ∈ fields.statement, IsPrintable character := by
  have pid := challenge.pid.printable
  rcases challenge.statement with login | ⟨role, binding⟩
  · rw [login, loginStatement]
    exact ⟨List.append_ne_nil_of_left_ne_nil (by decide +kernel) _,
      printable_append (printable_of_all (by decide +kernel)) pid⟩
  · rw [bindingStatement] at binding
    split at binding
    next known =>
      have printableRoles : ∀ role ∈ bindingRoles, role.all fun character =>
          (33 ≤ character.toNat && character.toNat ≤ 126) ||
            character = ' ' := by
        simp [bindingRoles]
      rw [← Except.ok.inj binding]
      refine ⟨List.append_ne_nil_of_left_ne_nil
        (List.append_ne_nil_of_left_ne_nil
          (List.append_ne_nil_of_left_ne_nil
            (by decide +kernel) _) _) _, ?_⟩
      exact printable_append (printable_append (printable_append
        (printable_of_all (by decide +kernel)) pid)
        (printable_of_all (by simp)))
        (printable_of_all (printableRoles role known))
    next => cases binding

theorem Fields.OfChallenge.proper (challenge : fields.OfChallenge)
    (dates : ∀ moment, IsGraphicText (env.isoformat moment)) :
    (fields.layout env).Proper where
  above := nofun
  statement := by
    rintro statement ⟨⟩
    exact challenge.statement_printable
  uri := graphicText_pillarUri challenge.pid
  chainId := isDecimal_toString _
  nonce := challenge.nonce
  issuedAt := dates _
  expirationTime := by
    rintro date ⟨⟩
    exact dates _
  rest := nofun

theorem intercalate_opening {first second : Text} {lines : List Text}
    (more : lines ≠ []) :
    [Char.ofNat 10].intercalate ([first, second, []] ++ lines) =
      first ++ Char.ofNat 10 :: (second ++ [Char.ofNat 10, Char.ofNat 10]) ++
        [Char.ofNat 10].intercalate lines := by
  obtain ⟨line, rest, rfl⟩ := List.exists_cons_of_ne_nil more
  simp only [List.cons_append, List.nil_append, List.append_assoc,
    List.intercalate_cons_cons]

/-- The text of a message as challenges are written, around the statement and
the fields. -/
theorem buildMessage_eq (challenge : fields.OfChallenge) :
    buildMessage env fields = fields.opening ++
      [Char.ofNat 10].intercalate
        ([fields.statement, []] ++ (fields.layout env).fieldLines ++
          fields.resourceLines) := by
  obtain ⟨others, listed⟩ := challenge.resources
  have given : fields.resources ≠ [] := by
    rw [listed]
    exact List.cons_ne_nil _ _
  have more : [fields.statement, []] ++ (fields.layout env).fieldLines ++
      fields.resourceLines ≠ [] := List.cons_ne_nil _ _
  have lines : fields.lines env =
      [fields.authority ++ wants, fields.address, []] ++
        ([fields.statement, []] ++ (fields.layout env).fieldLines ++
          fields.resourceLines) := by
    rw [Fields.lines, if_neg given]
    rfl
  rw [buildMessage, lines, intercalate_opening more, Fields.opening]

/-- Such a message is split into the lines of its layout. -/
theorem Fields.OfChallenge.splitLines_buildMessage
    (challenge : fields.OfChallenge)
    (dates : ∀ moment, IsGraphicText (env.isoformat moment)) :
    splitLines (buildMessage env fields) =
      (fields.layout env).head ++ (fields.layout env).fields := by
  have unbroken : ∀ line ∈ [fields.statement, []] ++
      (fields.layout env).fieldLines, ∀ character ∈ line,
        isLineBreak character = false := fun line member character inLine =>
    ((challenge.proper dates).printable line member character
      inLine).isLineBreak_eq
  have ends : fields.opening =
      (fields.authority ++ wants ++ Char.ofNat 10 ::
        (fields.address ++ [Char.ofNat 10])) ++ [Char.ofNat 10] := by
    simp [Fields.opening]
  have more : fields.resourceLines ≠ [] := List.cons_ne_nil _ _
  have openingSplit : ∀ rest, splitLines (fields.opening ++ rest) =
      splitLines fields.opening ++ splitLines rest := by
    intro rest
    rw [ends, List.append_assoc, List.singleton_append]
    exact linesFrom_append_feed _ _ _
  rw [buildMessage_eq challenge, openingSplit,
    splitLines_intercalate unbroken more, Layout.head, Layout.fields]
  simp only [List.append_assoc]
  rfl

/-- The challenges of the Pillar are such messages. -/
theorem generateChallenge_eq {pid text nonce : Text}
    {request : ChallengeRequest} (graphic : IsGraphicText pid)
    (generated : generateChallenge env pid request = .ok (text, nonce)) :
    ∃ fields : Fields, fields.OfChallenge ∧ fields.pid = pid ∧
      fields.nonce = nonce ∧ fields.chainId = request.chainId ∧
      text = buildMessage env fields := by
  have nonceGraphic : IsGraphicText (toHex request.urandom) := by
    intro character member
    obtain ⟨value, small, isDigit⟩ := exists_digit_of_mem_toHex member
    have digits : ∀ value < 16, 33 ≤ (Nat.digitChar value).toNat ∧
        (Nat.digitChar value).toNat ≤ 126 := by decide
    rw [isDigit]
    exact digits value small
  rw [generateChallenge] at generated
  by_cases missing : env.recoverMessage.isNone = true
  · rw [if_pos missing] at generated
    cases generated
  by_cases unknown : request.purpose ≠ loginPurpose ∧
      request.purpose ≠ bindingPurpose
  · rw [if_neg missing, if_pos unknown] at generated
    cases generated
  rw [if_neg missing, if_neg unknown] at generated
  by_cases binds : request.purpose = bindingPurpose
  · rw [if_pos binds] at generated
    cases spelled : bindingStatement pid request.bindingType with
    | error raised =>
        rw [spelled] at generated
        cases generated
    | ok statement =>
        rw [spelled] at generated
        obtain ⟨isText, isNonce⟩ := Prod.mk.inj (Except.ok.inj generated)
        refine ⟨_, ?_, ?_, isNonce, ?_, isText.symm⟩
        · exact ⟨graphic, nonceGraphic, Or.inr ⟨_, spelled⟩, _, rfl⟩
        · rfl
        · rfl
  · rw [if_neg binds] at generated
    obtain ⟨isText, isNonce⟩ := Prod.mk.inj (Except.ok.inj generated)
    refine ⟨_, ?_, ?_, isNonce, ?_, isText.symm⟩
    · exact ⟨graphic, nonceGraphic, Or.inl rfl, _, rfl⟩
    · rfl
    · rfl

/-- The fields that are read from a message are its own, exactly if no line
before the fields starts like one of them. -/
theorem fields_read_iff_undisturbed (env : Environment)
    (reads : ReadsDecimals env)
    (dates : ∀ moment, IsGraphicText (env.isoformat moment)) :
    (∀ message : Message, message.WellFormed →
        (message.layout.ReadFrom env message.text ↔
          message.layout.Undisturbed env)) ∧
      ∀ fields : Fields, fields.OfChallenge →
        ((fields.layout env).ReadFrom env (buildMessage env fields) ↔
          (fields.layout env).Undisturbed env) := by
  constructor
  · intro message wellFormed
    refine readFrom_iff reads wellFormed.proper ?_
    rw [wellFormed.splitLines_text, Message.lines_eq]
  · intro fields challenge
    exact readFrom_iff reads (challenge.proper dates)
      (challenge.splitLines_buildMessage dates)

end Challenges

section Samples

instance decidableIsDecimal (number : Text) : Decidable (IsDecimal number) :=
  inferInstanceAs (Decidable (_ ∧ _))

def readDecimal (number : Text) : Option Int :=
  if IsDecimal number ∧ (unsigned number).length ≤ maxStrDigits then
    some (chainNumber number)
  else none

/-- One moment is written and read, and decimals are the only numbers. -/
def plainEnvironment : Environment where
  isoformat _ := "2026-01-01T00:00:00+00:00".toList
  fromisoformat _ := .ok ⟨1767225600000000, true⟩
  int := readDecimal
  recoverMessage := none
  acceptedContractChains := []
  verifyEip1271 _ _ _ _ := (false, "no contract")

theorem readsDecimals_plain : ReadsDecimals plainEnvironment := by
  intro number decimal
  change readDecimal number = _
  rw [readDecimal]
  by_cases short : (unsigned number).length ≤ maxStrDigits
  · rw [if_pos ⟨decimal, short⟩, if_pos short]
  · rw [if_neg fun both => short both.2, if_neg short]

theorem graphic_isoformat_plain (moment : Int) :
    IsGraphicText (plainEnvironment.isoformat moment) := by
  change IsGraphicText "2026-01-01T00:00:00+00:00".toList
  exact fun _ member => graphic_of_mem member (by decide +kernel)

/-- A message with some statement or none. -/
def sampleMessage (statement : Option Text) : Message where
  scheme := none
  authority := "pillar.example".toList
  address := '0' :: 'x' :: List.replicate 40 'a'
  statement := statement
  uri := "https://pillar.example".toList
  chainId := "10".toList
  nonce := "0123456789abcdef".toList
  issuedAt := "2026-01-01T00:00:00+00:00".toList
  expirationTime := some "2026-01-01T00:00:00+00:00".toList
  notBefore := none
  requestId := none
  resources := some ["Nonce:other".toList]

theorem wellFormed_sample {statement : Option Text}
    (spelled : ∀ given ∈ statement, given ≠ [] ∧
      given.all isStatementCharacter = true) :
    (sampleMessage statement).WellFormed where
  scheme := nofun
  authority := List.all_eq_true.mp
    (show "pillar.example".toList.all isUriCharacter by decide +kernel)
  address := ⟨List.replicate 40 'a', rfl, rfl, List.all_eq_true.mp
    (show (List.replicate 40 'a').all Char.isAlphanum by decide +kernel)⟩
  statement := fun given member =>
    ⟨(spelled given member).1, List.all_eq_true.mp (spelled given member).2⟩
  uri := List.all_eq_true.mp
    (show "https://pillar.example".toList.all isUriCharacter by
      decide +kernel)
  chainId := ⟨show "10".toList ≠ [] by decide +kernel, List.all_eq_true.mp
    (show "10".toList.all Char.isDigit by decide +kernel)⟩
  nonce := ⟨show 8 ≤ "0123456789abcdef".toList.length by decide +kernel,
    List.all_eq_true.mp
      (show "0123456789abcdef".toList.all Char.isAlphanum by decide +kernel)⟩
  issuedAt := List.all_eq_true.mp
    (show "2026-01-01T00:00:00+00:00".toList.all isDateCharacter by
      decide +kernel)
  expirationTime := by
    rintro date ⟨⟩
    exact List.all_eq_true.mp
      (show "2026-01-01T00:00:00+00:00".toList.all isDateCharacter by
        decide +kernel)
  notBefore := nofun
  requestId := nofun
  resources := by
    rintro resources ⟨⟩ resource member
    obtain rfl := List.mem_singleton.mp member
    exact List.all_eq_true.mp
      (show "Nonce:other".toList.all isUriCharacter by decide +kernel)

/-- A message in plain words. -/
def plainMessage : Message := sampleMessage (some "Trade here.".toList)

theorem fields_read_iff_undisturbed_plain :
    plainMessage.layout.ReadFrom plainEnvironment plainMessage.text := by
  have wellFormed : plainMessage.WellFormed := wellFormed_sample (by
    rintro statement ⟨⟩
    exact ⟨by decide +kernel, by decide +kernel⟩)
  refine ((fields_read_iff_undisturbed plainEnvironment readsDecimals_plain
    graphic_isoformat_plain).1 _ wellFormed).mpr ?_
  have noUri : plainMessage.layout.head.find? ("URI:".toList.isPrefixOf ·) =
      none := by decide +kernel
  have noNonce : carried "Nonce: ".toList plainMessage.layout.head = none := by
    decide +kernel
  have noExpiry : carried "Expiration Time: ".toList
      plainMessage.layout.head = none := by decide +kernel
  have noChainId : carried "Chain ID: ".toList plainMessage.layout.head =
      none := by decide +kernel
  have noField : aboveFields plainMessage.layout.head = none := by
    decide +kernel
  constructor
  case statement =>
    rw [noField]
    exact ⟨_, rfl, by decide +kernel⟩
  case uri =>
    rw [noUri]
    exact nofun
  case chainId =>
    rw [noChainId]
    exact Or.inl (by decide +kernel)
  case nonce =>
    rw [noNonce]
    exact nofun
  case expiry =>
    rw [noExpiry]
    exact nofun

/-- A message whose statement starts like the first field. -/
def misleadingMessage : Message :=
  sampleMessage (some "URI: refinet://pillar/p".toList)

/-- A statement that starts like the first field is read as the URI, so the
message names a Pillar that its URI does not name.  Where the statement is
absent, the address is read in its place. -/
theorem statement_read_as_uri :
    misleadingMessage.WellFormed ∧
      messageNamesPid misleadingMessage.text ['p'] = true ∧
      misleadingMessage.uri ≠ pillarUri ['p'] ∧
      (sampleMessage none).WellFormed ∧
      parseStatement (sampleMessage none).text =
        (sampleMessage none).address ∧
      ¬ ∀ message : Message, message.WellFormed →
        message.layout.ReadFrom plainEnvironment message.text := by
  have wellFormed : (sampleMessage none).WellFormed := wellFormed_sample nofun
  have read : parseStatement (sampleMessage none).text =
      (sampleMessage none).address := by decide +kernel
  refine ⟨wellFormed_sample ?_, by decide +kernel, by decide +kernel,
    wellFormed, read, ?_⟩
  · rintro statement ⟨⟩
    exact ⟨by decide +kernel, by decide +kernel⟩
  · intro always
    have absent := (always (sampleMessage none) wellFormed).statement
    rw [read] at absent
    cases absent

end Samples

end SiweMessage

end RefinetPillars
