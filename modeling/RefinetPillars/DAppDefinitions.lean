import RefinetPillars.DecimalText
import RefinetPillars.HeadedBlocks

/-!
# Definitions of applications

A pillar describes the applications that it serves in plain texts: sections of
metadata, functions, documentation, flows and warnings, each with a syntax of
its own.  A definition that keeps to the syntax is written as one text and read
back as it was.
-/

namespace RefinetPillars

namespace DAppDefinitions

open DecimalText HeadedBlocks HexText LineText OrderedDict

structure DAppDefinition where
  name : Text
  slug : Text
  version : Text
  chainId : Int
  contract : Text
  authorPid : Text
  authorAddress : Text
  description : Text
  published : Text
  abiFunctions : List Text
  docs : Dict Text Text
  flows : Dict Text (List Text)
  warnings : List Text

def joined (lines : List Text) : Text := [Char.ofNat 10].intercalate lines

section Parser

-- The characters that count as parts of words.
variable (isWord : Char → Bool)

/-- The name in a line of the form `[name]`. -/
def sectionName (line : Text) : Option Text :=
  let trimmed := strip line
  let name := trimmed.tail.dropLast
  if trimmed = '[' :: (name ++ [']']) ∧ name ≠ [] ∧ name.all isWord then
    some name
  else none

/-- How a text is split into sections. -/
def sections : Format Text Text Text Text where
  heading := sectionName isWord
  isUnnamed name := name.isEmpty
  item := some
  finish := joined

def splitSections (text : Text) : Dict Text Text :=
  (sections isWord).blocks (splitLines text)

/-- The key and the value around the first equals sign of a line. -/
def metaEntry (line : Text) : Option (Text × Text) :=
  if '=' ∈ line then
    some (strip (line.takeWhile fun character => character ≠ '='),
      strip ((line.dropWhile fun character => character ≠ '=').drop 1))
  else none

def parseMeta (text : Text) : Dict Text Text :=
  Dict.empty.update ((splitLines text).filterMap metaEntry)

def parseAbi (text : Text) : List Text :=
  ((splitLines text).map strip).filter fun line =>
    !line.isEmpty && line.head? != some '#'

/-- How the documentation is split into its functions. -/
def docsFormat : Format Text Text Text Text where
  heading line :=
    if "# ".toList.isPrefixOf line then some (strip (line.drop 2)) else none
  isUnnamed name := name.isEmpty
  item := some
  finish lines := strip (joined lines)

def parseDocs (text : Text) : Dict Text Text :=
  docsFormat.blocks (splitLines text)

/-- `str.rstrip` of the characters that satisfy a condition. -/
def trimEnd (removed : Char → Bool) (text : Text) : Text :=
  (text.reverse.dropWhile removed).reverse

def isDigit (character : Char) : Bool := (decimalValue character).isSome

/-- A step without its number; lines without a number are no steps. -/
def stepOf (line : Text) : Option Text :=
  let trimmed := strip line
  if trimmed.takeWhile isDigit = [] then none
  else
    match trimmed.dropWhile isDigit with
    | '.' :: blank :: rest =>
        if isSpace blank then some (rest.dropWhile isSpace) else none
    | _ => none

/-- How the flows are split. -/
def flowsFormat : Format Text Text Text (List Text) where
  heading line :=
    if (trimEnd isSpace line).getLast? = some ':' ∧ line.head? ≠ some ' ' then
      some (strip (trimEnd (· = ':') line))
    else none
  isUnnamed name := name.isEmpty
  item := stepOf
  finish steps := steps

def parseFlows (text : Text) : Dict Text (List Text) :=
  flowsFormat.blocks (splitLines text)

def parseWarnings (text : Text) : List Text :=
  ((splitLines text).map strip).filter fun line => !line.isEmpty

/-- `int` refuses texts of more digits. -/
def maxStrDigits : Nat := 4300

def chainIdOf (fields : Dict Text Text) : Option Int :=
  match fields.get? "chain_id".toList with
  | none => some 1
  | some raw => if maxStrDigits < raw.countP isDigit then none else int raw

/-- A text with a chain number that is no integer defines nothing. -/
def parseDappFile (text : Text) : Option DAppDefinition :=
  let sections := splitSections isWord text
  let content (name : String) := (sections.get? name.toList).getD []
  let fields := parseMeta (content "meta")
  let field (name : String) (default : Text) :=
    (fields.get? name.toList).getD default
  (chainIdOf fields).map fun chainId =>
    { name := field "name" []
      slug := field "slug" []
      version := field "version" "1.0.0".toList
      chainId
      contract := field "contract" []
      authorPid := field "author_pid" []
      authorAddress := field "author_address" []
      description := field "description" []
      published := field "published" []
      abiFunctions := parseAbi (content "abi")
      docs := parseDocs (content "docs")
      flows := parseFlows (content "flows")
      warnings := parseWarnings (content "warnings") }

/-- Files that cannot be read or parsed are passed over. -/
def loadAllDapps (files : List (Option Text)) : List DAppDefinition :=
  files.filterMap fun text => text.bind (parseDappFile isWord)

end Parser

section Written

def metaLine (entry : Text × Text) : Text :=
  entry.1 ++ (" = ".toList ++ entry.2)

def DAppDefinition.fields (dapp : DAppDefinition) : List (Text × Text) :=
  [("name".toList, dapp.name), ("slug".toList, dapp.slug),
    ("version".toList, dapp.version),
    ("chain_id".toList, intText dapp.chainId),
    ("contract".toList, dapp.contract), ("author_pid".toList, dapp.authorPid),
    ("author_address".toList, dapp.authorAddress),
    ("description".toList, dapp.description),
    ("published".toList, dapp.published)]

/-- The documentation of a function under its heading. -/
def docsWritten (entry : Text × Text) : Written Text Text :=
  ⟨entry.1, "# ".toList ++ entry.1, splitLines entry.2⟩

def stepLine (number : Nat) (step : Text) : Text :=
  ' ' :: ' ' :: (numeral number ++ '.' :: ' ' :: step)

/-- A flow and its numbered steps. -/
def flowWritten (entry : Text × List Text) : Written Text Text :=
  ⟨entry.1, entry.1 ++ [':'],
    entry.2.mapIdx fun index step => stepLine (index + 1) step⟩

def sectionWritten (name : String) (lines : List Text) : Written Text Text :=
  ⟨name.toList, '[' :: (name.toList ++ [']']), lines⟩

def DAppDefinition.written (dapp : DAppDefinition) :
    List (Written Text Text) :=
  [sectionWritten "meta" (dapp.fields.map metaLine),
    sectionWritten "abi" dapp.abiFunctions,
    sectionWritten "docs"
      ((dapp.docs.entries.map docsWritten).flatMap Written.lines),
    sectionWritten "flows"
      ((dapp.flows.entries.map flowWritten).flatMap Written.lines),
    sectionWritten "warnings" dapp.warnings]

/-- A definition in the syntax of the files. -/
def DAppDefinition.text (dapp : DAppDefinition) : Text :=
  joined (dapp.written.flatMap Written.lines)

def Unbroken (line : Text) : Prop :=
  ∀ character ∈ line, isLineBreak character = false

/-- A text in one line, without blanks at its ends. -/
@[mk_iff]
structure Trimmed (text : Text) : Prop where
  unbroken : Unbroken text
  trimmed : strip text = text

variable (isWord : Char → Bool)

/-- A line that a section can hold and that is not passed over. -/
@[mk_iff]
structure Entry (line : Text) : Prop extends Trimmed line where
  nonempty : line ≠ []
  plain : sectionName isWord line = none

/-- A documentation in lines that line feeds separate and none of which starts
a section or another documentation. -/
structure Documentation (body : Text) : Prop where
  lines : joined (splitLines body) = body
  trimmed : strip body = body
  plain : ∀ line ∈ splitLines body, sectionName isWord line = none
  continued : ∀ line ∈ splitLines body, docsFormat.heading line = none

/-- What the syntax can express. -/
structure WellFormed (dapp : DAppDefinition) : Prop where
  fields : ∀ entry ∈ dapp.fields, Trimmed entry.2
  chainId : (intText dapp.chainId).countP isDigit ≤ maxStrDigits
  abi : ∀ line ∈ dapp.abiFunctions, Entry isWord line
  abiCode : ∀ line ∈ dapp.abiFunctions, line.head? ≠ some '#'
  docsNames : ∀ entry ∈ dapp.docs.entries, Trimmed entry.1 ∧ entry.1 ≠ []
  docs : ∀ entry ∈ dapp.docs.entries, Documentation isWord entry.2
  flowNames : ∀ entry ∈ dapp.flows.entries, Trimmed entry.1 ∧ entry.1 ≠ []
  flowPlain : ∀ entry ∈ dapp.flows.entries, entry.1.getLast? ≠ some ':'
  steps : ∀ entry ∈ dapp.flows.entries, ∀ step ∈ entry.2,
    Trimmed step ∧ step ≠ []
  warnings : ∀ line ∈ dapp.warnings, Entry isWord line

/-- The small letters are parts of words. -/
def HasLetters : Prop :=
  ∀ character, character.isLower = true → isWord character = true

end Written

section Lines

theorem Unbroken.append {first second : Text} (firstUnbroken : Unbroken first)
    (secondUnbroken : Unbroken second) : Unbroken (first ++ second) := by
  intro character member
  rcases List.mem_append.mp member with inFirst | inSecond
  · exact firstUnbroken character inFirst
  · exact secondUnbroken character inSecond

theorem Unbroken.cons {first : Char} {rest : Text}
    (firstUnbroken : isLineBreak first = false) (restUnbroken : Unbroken rest) :
    Unbroken (first :: rest) := by
  rintro character member
  rcases List.mem_cons.mp member with rfl | inRest
  · exact firstUnbroken
  · exact restUnbroken character inRest

theorem unbroken_equals : Unbroken " = ".toList := by
  simp [Unbroken, isLineBreak]

theorem unbroken_numeral (number : Nat) : Unbroken (numeral number) := by
  intro character member
  obtain ⟨digit, small, rfl⟩ := exists_digit_of_mem_numeral member
  have checked : ∀ digit : Fin 10,
      isLineBreak (digit : Nat).digitChar = false := by decide
  exact checked ⟨digit, small⟩

/-- Lines of which the last one is not empty. -/
def Ended (lines : List Text) : Prop := lines.getLast? ≠ some []

theorem Ended.append {first second : List Text} (firstEnded : Ended first)
    (secondEnded : Ended second) : Ended (first ++ second) := by
  rw [Ended, List.getLast?_append]
  cases atEnd : second.getLast? with
  | none => exact firstEnded
  | some last =>
      rw [Ended, atEnd] at secondEnded
      exact secondEnded

theorem ended_of_nonempty {lines : List Text}
    (nonempty : ∀ line ∈ lines, line ≠ []) : Ended lines :=
  fun atEnd => nonempty [] (List.mem_of_getLast? atEnd) rfl

theorem ended_flatMap {Piece : Type} {lines : Piece → List Text}
    {pieces : List Piece} (ended : ∀ piece ∈ pieces, Ended (lines piece)) :
    Ended (pieces.flatMap lines) := by
  induction pieces with
  | nil => exact ended_of_nonempty (by simp)
  | cons piece pieces ih =>
      rw [List.flatMap_cons]
      exact (ended piece (.head _)).append
        (ih fun other member => ended other (.tail _ member))

/-- Lines are joined and split again. -/
theorem splitLines_joined {lines : List Text}
    (unbroken : ∀ line ∈ lines, Unbroken line) (ended : Ended lines) :
    splitLines (joined lines) = lines := by
  rcases List.eq_nil_or_concat lines with rfl | ⟨init, last, rfl⟩
  · rfl
  · rw [List.concat_eq_append] at *
    refine splitLines_intercalate_self unbroken fun empty => ?_
    exact ended (by rw [List.getLast?_concat, empty])

theorem joined_append_empty {lines : List Text} (nonempty : lines ≠ []) :
    joined (lines ++ [[]]) = joined lines ++ [Char.ofNat 10] := by
  induction lines with
  | nil => exact absurd rfl nonempty
  | cons line lines ih =>
      cases lines with
      | nil =>
          rw [joined, joined, List.singleton_append,
            List.intercalate_cons_cons, List.intercalate_singleton,
            List.intercalate_singleton, List.append_nil]
      | cons next lines =>
          have later := ih (List.cons_ne_nil _ _)
          rw [joined, List.cons_append, List.cons_append,
            List.intercalate_cons_cons, ← List.cons_append, ← joined, later,
            joined, joined, List.intercalate_cons_cons, List.append_assoc,
            List.append_assoc, List.append_assoc]

end Lines

section Trimming

theorem isSpace_last_of_strip {text : Text} (trimmed : strip text = text)
    {last : Char} (atEnd : last ∈ text.getLast?) : isSpace last = false := by
  rw [← trimmed, strip, List.getLast?_reverse] at atEnd
  exact isSpace_head_dropWhile atEnd

theorem isSpace_first_of_strip {text : Text} (trimmed : strip text = text)
    {first : Char} (atHead : first ∈ text.head?) : isSpace first = false := by
  obtain ⟨rest, same⟩ := strip_prefix_dropWhile text
  apply isSpace_head_dropWhile
  rw [← same, trimmed, List.head?_append, Option.mem_def.mp atHead]
  rfl

theorem strip_cons_blank {blank : Char} (isBlank : isSpace blank = true)
    (text : Text) : strip (blank :: text) = strip text := by
  rw [strip, strip, List.dropWhile_cons_of_pos isBlank]

theorem head?_strip_cons {first : Char} (kept : isSpace first = false)
    (text : Text) : (strip (first :: text)).head? = some first := by
  have starts := strip_prefix_dropWhile (first :: text)
  rw [List.dropWhile_cons_of_neg (by simp [kept])] at starts
  cases trimmed : strip (first :: text) with
  | nil =>
      rw [strip, List.dropWhile_cons_of_neg (by simp [kept]),
        List.reverse_eq_nil_iff, List.dropWhile_eq_nil_iff] at trimmed
      have blank := trimmed first (by simp)
      rw [kept] at blank
      cases blank
  | cons other rest =>
      rw [trimmed] at starts
      rw [(List.cons_prefix_cons.mp starts).1]
      rfl

/-- The last line of a trimmed text that line feeds separate is not empty. -/
theorem ended_splitLines {body : Text}
    (lines : joined (splitLines body) = body) (trimmed : strip body = body) :
    Ended (splitLines body) := by
  intro atEnd
  obtain ⟨init, split⟩ := List.getLast?_eq_some_iff.mp atEnd
  by_cases single : init = []
  · have empty : body = [] := by
      rw [← lines, split, single]
      rfl
    rw [empty] at split
    simp [splitLines, linesFrom] at split
  · rw [split, joined_append_empty single] at lines
    have blank := @isSpace_last_of_strip body trimmed (Char.ofNat 10)
      (by rw [← lines, List.getLast?_concat]; rfl)
    exact absurd blank (by decide)

end Trimming

section Contents

variable {isWord : Char → Bool}

theorem sectionName_of_head {line : Text} {first : Char}
    (atHead : (strip line).head? = some first) (differs : first ≠ '[') :
    sectionName isWord line = none := by
  refine if_neg fun named => differs ?_
  rw [named.1] at atHead
  exact (Option.some.inj atHead).symm

theorem sectionName_of_last {line : Text} {last : Char}
    (atEnd : (strip line).getLast? = some last) (differs : last ≠ ']') :
    sectionName isWord line = none := by
  refine if_neg fun named => differs ?_
  rw [named.1, ← List.cons_append, List.getLast?_concat] at atEnd
  exact (Option.some.inj atEnd).symm

theorem sectionName_section {name : Text}
    (words : ∀ character ∈ name, isWord character = true)
    (nonempty : name ≠ []) :
    sectionName isWord ('[' :: (name ++ [']'])) = some name := by
  have trimmed : strip ('[' :: (name ++ [']'])) = '[' :: (name ++ [']']) :=
    strip_of_ends name (by decide) (by decide)
  rw [sectionName, trimmed, List.tail_cons, List.dropLast_concat]
  exact if_pos ⟨rfl, nonempty, List.all_eq_true.mpr words⟩

/-- Lines that can stand in a section. -/
structure Content (isWord : Char → Bool) (lines : List Text) : Prop where
  unbroken : ∀ line ∈ lines, Unbroken line
  ended : Ended lines
  plain : ∀ line ∈ lines, sectionName isWord line = none

theorem content_singleton {line : Text} (unbroken : Unbroken line)
    (nonempty : line ≠ []) (plain : sectionName isWord line = none) :
    Content isWord [line] where
  unbroken _ member := List.mem_singleton.mp member ▸ unbroken
  ended := ended_of_nonempty fun _ member =>
    List.mem_singleton.mp member ▸ nonempty
  plain _ member := List.mem_singleton.mp member ▸ plain

theorem content_flatMap {Piece : Type} {lines : Piece → List Text}
    {pieces : List Piece}
    (content : ∀ piece ∈ pieces, Content isWord (lines piece)) :
    Content isWord (pieces.flatMap lines) where
  unbroken line member := by
    obtain ⟨piece, inPieces, inPiece⟩ := List.mem_flatMap.mp member
    exact (content piece inPieces).unbroken line inPiece
  ended := ended_flatMap fun piece member => (content piece member).ended
  plain line member := by
    obtain ⟨piece, inPieces, inPiece⟩ := List.mem_flatMap.mp member
    exact (content piece inPieces).plain line inPiece

theorem Content.cons {head : Text} {lines : List Text}
    (first : Content isWord [head]) (content : Content isWord lines) :
    Content isWord (head :: lines) where
  unbroken := List.forall_mem_cons.mpr
    ⟨first.unbroken head (.head _), content.unbroken⟩
  ended := Ended.append first.ended content.ended
  plain := List.forall_mem_cons.mpr
    ⟨first.plain head (.head _), content.plain⟩

theorem content_map {Piece : Type} {line : Piece → Text} {pieces : List Piece}
    (content : ∀ piece ∈ pieces, Content isWord [line piece]) :
    Content isWord (pieces.map line) := by
  rw [← List.flatMap_singleton' (pieces.map line), List.flatMap_map]
  exact content_flatMap content

theorem content_entries {lines : List Text}
    (entries : ∀ line ∈ lines, Entry isWord line) : Content isWord lines where
  unbroken line member := (entries line member).unbroken
  ended := ended_of_nonempty fun line member => (entries line member).nonempty
  plain line member := (entries line member).plain

theorem Content.splitLines {lines : List Text}
    (content : Content isWord lines) :
    splitLines (joined lines) = lines :=
  splitLines_joined content.unbroken content.ended

end Contents

section Fields

variable {isWord : Char → Bool} {dapp : DAppDefinition}

def fieldNames : List Text :=
  ["name".toList, "slug".toList, "version".toList, "chain_id".toList,
    "contract".toList, "author_pid".toList, "author_address".toList,
    "description".toList, "published".toList]

theorem mem_fieldNames {entry : Text × Text} (member : entry ∈ dapp.fields) :
    entry.1 ∈ fieldNames :=
  List.mem_map_of_mem (f := Prod.fst) member

theorem fieldNames_plain : ∀ key ∈ fieldNames,
    strip (key ++ [' ']) = key ∧ '=' ∉ key ∧ (∀ character ∈ key,
      isLineBreak character = false) ∧ ∃ first ∈ key.head?,
        isSpace first = false ∧ first ≠ '[' := by
  simp [fieldNames, strip, isSpace, isLineBreak]

theorem metaEntry_metaLine {entry : Text × Text}
    (key : strip (entry.1 ++ [' ']) = entry.1) (free : '=' ∉ entry.1)
    (value : strip entry.2 = entry.2) :
    metaEntry (metaLine entry) = some entry := by
  have line : metaLine entry =
      (entry.1 ++ [' ']) ++ '=' :: ' ' :: entry.2 := by simp [metaLine]
  have differs : ∀ character ∈ entry.1 ++ [' '],
      decide (character ≠ '=') = true := by
    intro character member
    rcases List.mem_append.mp member with inKey | isBlank
    · exact decide_eq_true (ne_of_mem_of_not_mem inKey free)
    · rw [List.mem_singleton.mp isBlank]
      decide
  rw [metaEntry, line, if_pos (by simp), List.takeWhile_append_of_pos differs,
    List.dropWhile_append_of_pos differs, List.takeWhile_cons_of_neg (by simp),
    List.dropWhile_cons_of_neg (by simp), List.append_nil, key,
    List.drop_succ_cons, List.drop_zero, strip_cons_blank (by decide), value]

theorem content_fields (wellFormed : WellFormed isWord dapp) :
    Content isWord (dapp.fields.map metaLine) := by
  refine content_map fun entry member => ?_
  obtain ⟨-, -, unbroken, first, atHead, notBlank, notBracket⟩ :=
    fieldNames_plain entry.1 (mem_fieldNames member)
  obtain ⟨rest, key⟩ := List.head?_eq_some_iff.mp atHead
  have line : metaLine entry =
      first :: (rest ++ (" = ".toList ++ entry.2)) := by
    rw [metaLine, key, List.cons_append]
  refine content_singleton ?_ ?_ ?_
  · exact Unbroken.append unbroken (Unbroken.append unbroken_equals
      (wellFormed.fields entry member).unbroken)
  · rw [line]
    exact List.cons_ne_nil _ _
  · rw [line]
    exact sectionName_of_head (head?_strip_cons notBlank _) notBracket

/-- The metadata is read as it was written. -/
theorem get?_parseMeta (wellFormed : WellFormed isWord dapp)
    {entry : Text × Text} (member : entry ∈ dapp.fields) :
    (parseMeta (joined (dapp.fields.map metaLine))).get? entry.1 =
      some entry.2 := by
  have read : (dapp.fields.map metaLine).filterMap metaEntry =
      dapp.fields := by
    rw [List.filterMap_map]
    refine (List.filterMap_congr fun entry member => ?_).trans
      List.filterMap_some
    obtain ⟨key, free, -⟩ := fieldNames_plain entry.1 (mem_fieldNames member)
    exact metaEntry_metaLine key free (wellFormed.fields entry member).trimmed
  have unique : (dapp.fields.map Prod.fst).Nodup :=
    (by decide : fieldNames.Nodup)
  rw [parseMeta, (content_fields wellFormed).splitLines, read,
    Dict.get?_eq_some_iff, Dict.entries_update_empty unique]
  exact member

end Fields

section Lists

variable {isWord : Char → Bool} {lines : List Text}

theorem map_strip (trimmed : ∀ line ∈ lines, strip line = line) :
    lines.map strip = lines :=
  (List.map_congr_left trimmed).trans (List.map_id _)

theorem parseWarnings_joined (entries : ∀ line ∈ lines, Entry isWord line) :
    parseWarnings (joined lines) = lines := by
  rw [parseWarnings, (content_entries entries).splitLines,
    map_strip fun line member => (entries line member).trimmed,
    List.filter_eq_self]
  intro line member
  simpa using (entries line member).nonempty

theorem parseAbi_joined (entries : ∀ line ∈ lines, Entry isWord line)
    (code : ∀ line ∈ lines, line.head? ≠ some '#') :
    parseAbi (joined lines) = lines := by
  rw [parseAbi, (content_entries entries).splitLines,
    map_strip fun line member => (entries line member).trimmed,
    List.filter_eq_self]
  intro line member
  simpa using And.intro (entries line member).nonempty (code line member)

end Lists

section Docs

variable {isWord : Char → Bool} {entry : Text × Text} {docs : Dict Text Text}

theorem content_docsWritten (name : Trimmed entry.1)
    (documentation : Documentation isWord entry.2) :
    Content isWord (docsWritten entry).lines := by
  refine Content.cons (content_singleton ?_ (List.cons_ne_nil _ _) ?_) ?_
  · exact .cons (by decide) (.cons (by decide) name.unbroken)
  · exact sectionName_of_head (head?_strip_cons (by decide) _) (by decide)
  · exact
      { unbroken := fun line member => unbroken_of_mem_splitLines member
        ended := ended_splitLines documentation.lines documentation.trimmed
        plain := documentation.plain }

theorem content_docs
    (names : ∀ entry ∈ docs.entries, Trimmed entry.1 ∧ entry.1 ≠ [])
    (documented : ∀ entry ∈ docs.entries, Documentation isWord entry.2) :
    Content isWord
      ((docs.entries.map docsWritten).flatMap Written.lines) := by
  rw [List.flatMap_map]
  exact content_flatMap fun entry member =>
    content_docsWritten (names entry member).1 (documented entry member)

theorem proper_docsWritten (name : Trimmed entry.1) (named : entry.1 ≠ [])
    (documentation : Documentation isWord entry.2) :
    (docsWritten entry).Proper docsFormat where
  head := by
    have marked : "# ".toList.isPrefixOf (docsWritten entry).head = true :=
      List.isPrefixOf_iff_prefix.mpr (List.prefix_append _ _)
    dsimp only [docsFormat]
    rw [if_pos marked]
    exact congrArg some name.trimmed
  named := List.isEmpty_eq_false_iff.mpr named
  body := documentation.continued

theorem block_docsWritten (documentation : Documentation isWord entry.2) :
    (docsWritten entry).block docsFormat = entry.2 := by
  have kept : (splitLines entry.2).filterMap some = splitLines entry.2 :=
    List.filterMap_some
  exact (congrArg (fun lines => strip (joined lines)) kept).trans
    ((congrArg strip documentation.lines).trans documentation.trimmed)

/-- The documentation is read as it was written. -/
theorem parseDocs_joined
    (names : ∀ entry ∈ docs.entries, Trimmed entry.1 ∧ entry.1 ≠ [])
    (documented : ∀ entry ∈ docs.entries, Documentation isWord entry.2) :
    parseDocs (joined ((docs.entries.map docsWritten).flatMap Written.lines)) =
      docs := by
  apply Dict.eq_of_entries
  rw [parseDocs, (content_docs names documented).splitLines, entries_blocks,
    List.map_map]
  · refine (List.map_congr_left fun entry member => ?_).trans (List.map_id _)
    exact Prod.ext rfl (block_docsWritten (documented entry member))
  · intro written member
    obtain ⟨entry, inDocs, rfl⟩ := List.mem_map.mp member
    exact proper_docsWritten (names entry inDocs).1 (names entry inDocs).2
      (documented entry inDocs)
  · rw [List.map_map]
    exact docs.unique

theorem documentation_joined {lines : List Text}
    (unbroken : ∀ line ∈ lines, Unbroken line) (ended : Ended lines)
    (trimmed : strip (joined lines) = joined lines)
    (plain : ∀ line ∈ lines, sectionName isWord line = none)
    (continued : ∀ line ∈ lines, docsFormat.heading line = none) :
    Documentation isWord (joined lines) := by
  have split := splitLines_joined unbroken ended
  refine ⟨congrArg joined split, trimmed, ?_, ?_⟩
  · rwa [split]
  · rwa [split]

end Docs

section Flows

variable {isWord : Char → Bool} {entry : Text × List Text}
  {flows : Dict Text (List Text)} {number : Nat} {step : Text}

theorem first_of_numeral (number : Nat) (rest : Text) :
    ∃ first tail, numeral number ++ rest = first :: tail ∧
      isSpace first = false ∧ first ≠ '[' := by
  obtain ⟨digit, small, digits, numeral, -⟩ := numeral_eq_cons number
  have checked : ∀ digit : Fin 10, isSpace (digit : Nat).digitChar = false ∧
      (digit : Nat).digitChar ≠ '[' := by decide
  refine ⟨digit.digitChar, digits ++ rest, ?_, checked ⟨digit, small⟩⟩
  rw [numeral, List.cons_append]

theorem strip_stepLine (trimmed : strip step = step) (nonempty : step ≠ []) :
    strip (stepLine number step) = numeral number ++ '.' :: ' ' :: step := by
  rw [stepLine, strip_cons_blank (by decide), strip_cons_blank (by decide)]
  apply strip_eq_self
  · obtain ⟨first, tail, starts, notBlank, -⟩ :=
      first_of_numeral number ('.' :: ' ' :: step)
    rw [starts]
    rintro _ ⟨⟩
    exact notBlank
  · intro last atEnd
    refine isSpace_last_of_strip trimmed ?_
    rwa [List.getLast?_append_of_ne_nil _ (List.cons_ne_nil _ _),
      List.getLast?_cons_cons, List.getLast?_cons_of_ne_nil nonempty] at atEnd

theorem stepOf_stepLine (trimmed : strip step = step) (nonempty : step ≠ []) :
    stepOf (stepLine number step) = some step := by
  have digits : ∀ character ∈ numeral number, isDigit character = true := by
    intro character member
    obtain ⟨digit, small, rfl⟩ := exists_digit_of_mem_numeral member
    rw [isDigit, decimalValue_digitChar small]
    rfl
  have dot : isDigit '.' = false := by decide
  rw [stepOf, strip_stepLine trimmed nonempty,
    List.takeWhile_append_of_pos digits, List.dropWhile_append_of_pos digits,
    List.takeWhile_cons_of_neg (by simp [dot]),
    List.dropWhile_cons_of_neg (by simp [dot]), List.append_nil,
    if_neg (numeral_ne_nil number)]
  refine (if_pos (by decide)).trans (congrArg some ?_)
  exact dropWhile_isSpace_of_head fun first atHead =>
    isSpace_first_of_strip trimmed atHead

/-- What a numbered list is made of is found in it. -/
theorem filterMap_mapIdx {Item Line : Type} {line : Nat → Item → Line}
    {item : Line → Option Item} {items : List Item}
    (read : ∀ index, ∀ original ∈ items,
      item (line index original) = some original) :
    (items.mapIdx line).filterMap item = items := by
  induction items generalizing line with
  | nil => rfl
  | cons original items ih =>
      rw [List.mapIdx_cons,
        List.filterMap_cons_some (read 0 original (.head _)), ih fun index other member => read (index + 1) other (.tail _ member)]

theorem content_flowWritten (name : Trimmed entry.1) (named : entry.1 ≠ [])
    (steps : ∀ step ∈ entry.2, Trimmed step ∧ step ≠ []) :
    Content isWord (flowWritten entry).lines := by
  obtain ⟨first, rest, split⟩ := List.exists_cons_of_ne_nil named
  have notBlank := isSpace_first_of_strip name.trimmed
    (by rw [split]; rfl : first ∈ entry.1.head?)
  have colon : strip (entry.1 ++ [':']) = entry.1 ++ [':'] := by
    rw [split]
    exact strip_of_ends rest notBlank (by decide)
  have ends : (strip (flowWritten entry).head).getLast? = some ':' :=
    (congrArg List.getLast? colon).trans List.getLast?_concat
  refine Content.cons (content_singleton ?_ ?_ ?_) ?_
  · exact .append name.unbroken (.cons (by decide) (by simp [Unbroken]))
  · exact List.append_ne_nil_of_left_ne_nil named _
  · exact sectionName_of_last ends (by decide)
  · refine
      { unbroken := ?_, ended := ended_of_nonempty ?_, plain := ?_ }
    all_goals
      intro line member
      obtain ⟨index, bound, rfl⟩ := List.mem_mapIdx.mp member
      obtain ⟨trimmed, nonempty⟩ := steps _ (List.getElem_mem bound)
    · exact .cons (by decide) (.cons (by decide) (.append (unbroken_numeral _)
        (.cons (by decide) (.cons (by decide) trimmed.unbroken))))
    · exact List.cons_ne_nil _ _
    · obtain ⟨first, tail, starts, -, notBracket⟩ :=
        first_of_numeral (index + 1) ('.' :: ' ' :: entry.2[index])
      refine sectionName_of_head ?_ notBracket
      rw [strip_stepLine trimmed.trimmed nonempty, starts]
      rfl

theorem content_flows
    (names : ∀ entry ∈ flows.entries, Trimmed entry.1 ∧ entry.1 ≠ [])
    (steps : ∀ entry ∈ flows.entries, ∀ step ∈ entry.2,
      Trimmed step ∧ step ≠ []) :
    Content isWord
      ((flows.entries.map flowWritten).flatMap Written.lines) := by
  rw [List.flatMap_map]
  exact content_flatMap fun entry member =>
    content_flowWritten (names entry member).1 (names entry member).2
      (steps entry member)

theorem proper_flowWritten (name : Trimmed entry.1) (named : entry.1 ≠ [])
    (plain : entry.1.getLast? ≠ some ':') :
    (flowWritten entry).Proper flowsFormat where
  head := by
    have notBlank : entry.1.head? ≠ some ' ' := fun atHead =>
      absurd (isSpace_first_of_strip name.trimmed atHead) (by decide)
    have ended : (trimEnd isSpace (entry.1 ++ [':'])).getLast? = some ':' := by
      rw [trimEnd, List.reverse_concat, List.dropWhile_cons_of_neg (by decide),
        ← List.reverse_concat, List.reverse_reverse, List.getLast?_concat]
    have unmarked : trimEnd (· = ':') (entry.1 ++ [':']) = entry.1 := by
      rw [trimEnd, List.reverse_concat, List.dropWhile_cons_of_pos (by decide)]
      cases reversed : entry.1.reverse with
      | nil => exact absurd (List.reverse_eq_nil_iff.mp reversed) named
      | cons last front =>
          have differs : last ≠ ':' := by
            rintro rfl
            exact plain (by rw [← List.head?_reverse, reversed]; rfl)
          rw [List.dropWhile_cons_of_neg (by simpa using differs), ← reversed,
            List.reverse_reverse]
    have starts : (entry.1 ++ [':']).head? ≠ some ' ' := by
      rwa [List.head?_append_of_ne_nil _ named]
    exact (if_pos ⟨ended, starts⟩).trans
      (congrArg some ((congrArg strip unmarked).trans name.trimmed))
  named := List.isEmpty_eq_false_iff.mpr named
  body line member := by
    obtain ⟨index, bound, rfl⟩ := List.mem_mapIdx.mp member
    exact if_neg fun heading => heading.2 rfl

/-- The flows are read as they were written. -/
theorem parseFlows_joined
    (names : ∀ entry ∈ flows.entries, Trimmed entry.1 ∧ entry.1 ≠ [])
    (plain : ∀ entry ∈ flows.entries, entry.1.getLast? ≠ some ':')
    (steps : ∀ entry ∈ flows.entries, ∀ step ∈ entry.2,
      Trimmed step ∧ step ≠ []) :
    parseFlows
      (joined ((flows.entries.map flowWritten).flatMap Written.lines)) =
      flows := by
  have content : Content (fun _ => true) _ := content_flows names steps
  apply Dict.eq_of_entries
  rw [parseFlows, content.splitLines, entries_blocks, List.map_map]
  · refine (List.map_congr_left fun entry member => ?_).trans (List.map_id _)
    refine Prod.ext rfl (filterMap_mapIdx fun index step inSteps => ?_)
    obtain ⟨trimmed, nonempty⟩ := steps entry member step inSteps
    exact stepOf_stepLine trimmed.trimmed nonempty
  · intro written member
    obtain ⟨entry, inFlows, rfl⟩ := List.mem_map.mp member
    exact proper_flowWritten (names entry inFlows).1 (names entry inFlows).2
      (plain entry inFlows)
  · rw [List.map_map]
    exact flows.unique

end Flows

section RoundTrip

variable {isWord : Char → Bool} {dapp : DAppDefinition}

theorem content_written (wellFormed : WellFormed isWord dapp) :
    ∀ written ∈ dapp.written, Content isWord written.body := by
  simp only [DAppDefinition.written, List.forall_mem_cons, sectionWritten]
  exact ⟨content_fields wellFormed, content_entries wellFormed.abi,
    content_docs wellFormed.docsNames wellFormed.docs,
    content_flows wellFormed.flowNames wellFormed.steps,
    content_entries wellFormed.warnings, List.forall_mem_nil _⟩

def sectionNames : List Text :=
  ["meta".toList, "abi".toList, "docs".toList, "flows".toList,
    "warnings".toList]

theorem sectionNames_plain : ∀ name ∈ sectionNames, name ≠ [] ∧
    ∀ character ∈ name, character.isLower = true ∧
      isLineBreak character = false := by
  simp [sectionNames, isLineBreak, Char.isLower]

/-- A section of a definition has one of the names and stands under it. -/
theorem exists_name_of_mem_written {written : Written Text Text}
    (member : written ∈ dapp.written) :
    ∃ name ∈ sectionNames, written.name = name ∧
      written.head = '[' :: (name ++ [']']) := by
  have named : ∀ written ∈ dapp.written, written.name ∈ sectionNames ∧
      written.head = '[' :: (written.name ++ [']']) := by
    simp [DAppDefinition.written, sectionWritten, sectionNames]
  exact ⟨written.name, (named written member).1, rfl, (named written member).2⟩

theorem proper_written (letters : HasLetters isWord)
    (wellFormed : WellFormed isWord dapp) :
    ∀ written ∈ dapp.written, written.Proper (sections isWord) := by
  intro written member
  obtain ⟨name, isName, rfl, head⟩ := exists_name_of_mem_written member
  obtain ⟨named, plain⟩ := sectionNames_plain _ isName
  exact
    { head := head ▸ sectionName_section
        (fun character inName => letters character (plain character inName).1)
        named
      named := List.isEmpty_eq_false_iff.mpr named
      body := (content_written wellFormed written member).plain }

theorem splitLines_text (wellFormed : WellFormed isWord dapp) :
    splitLines dapp.text = dapp.written.flatMap Written.lines := by
  refine splitLines_joined ?_ (ended_flatMap fun written member => ?_)
  · intro line inText
    obtain ⟨written, member, inLines⟩ := List.mem_flatMap.mp inText
    obtain ⟨name, isName, -, head⟩ := exists_name_of_mem_written member
    rcases List.mem_cons.mp inLines with rfl | inBody
    · rw [head]
      exact .cons (by decide) (.append
        (fun character inName => ((sectionNames_plain name isName).2
          character inName).2)
        (.cons (by decide) (by simp [Unbroken])))
    · exact (content_written wellFormed written member).unbroken line inBody
  · obtain ⟨name, -, -, head⟩ := exists_name_of_mem_written member
    have first : Ended [written.head] :=
      ended_of_nonempty fun line isHead => by
        rw [List.mem_singleton.mp isHead, head]
        exact List.cons_ne_nil _ _
    exact first.append (content_written wellFormed written member).ended

/-- The sections of a text are what was written in them. -/
theorem get?_splitSections (letters : HasLetters isWord)
    (wellFormed : WellFormed isWord dapp) {written : Written Text Text}
    (member : written ∈ dapp.written) :
    (splitSections isWord dapp.text).get? written.name =
      some (joined written.body) := by
  have unique : (dapp.written.map Written.name).Nodup :=
    (by decide : sectionNames.Nodup)
  have kept : written.body.filterMap some = written.body :=
    List.filterMap_some
  rw [splitSections, splitLines_text wellFormed, Dict.get?_eq_some_iff,
    entries_blocks (proper_written letters wellFormed) unique]
  refine List.mem_map.mpr ⟨written, member, Prod.ext rfl ?_⟩
  exact congrArg joined kept

/-- What the syntax can express is written and read back. -/
theorem parseDappFile_text (letters : HasLetters isWord)
    (wellFormed : WellFormed isWord dapp) :
    parseDappFile isWord dapp.text = some dapp := by
  have content : ∀ written ∈ dapp.written,
      (splitSections isWord dapp.text).get? written.name =
        some (joined written.body) :=
    fun _ member => get?_splitSections letters wellFormed member
  simp only [DAppDefinition.written, List.forall_mem_cons, sectionWritten]
    at content
  obtain ⟨metadata, abi, docs, flows, warnings, -⟩ := content
  have field : ∀ entry ∈ dapp.fields,
      (parseMeta (joined (dapp.fields.map metaLine))).get? entry.1 =
        some entry.2 := fun _ member => get?_parseMeta wellFormed member
  simp only [parseDappFile, metadata, abi, docs, flows, warnings,
    Option.getD_some, parseAbi_joined wellFormed.abi wellFormed.abiCode,
    parseDocs_joined wellFormed.docsNames wellFormed.docs,
    parseFlows_joined wellFormed.flowNames wellFormed.flowPlain
      wellFormed.steps, parseWarnings_joined wellFormed.warnings]
  generalize parseMeta (joined (dapp.fields.map metaLine)) = fields at field ⊢
  simp only [DAppDefinition.fields, List.forall_mem_cons] at field
  obtain ⟨name, slug, version, chainId, contract, authorPid, authorAddress,
    description, published, -⟩ := field
  have number : chainIdOf fields = some dapp.chainId := by
    simp only [chainIdOf, chainId]
    rw [if_neg (not_lt.mpr wellFormed.chainId), int_intText]
  simp only [number, name, slug, version, contract, authorPid, authorAddress,
    description, published, Option.getD_some, Option.map_some]

/-- So is every definition of a directory. -/
theorem loadAllDapps_texts (letters : HasLetters isWord)
    {dapps : List DAppDefinition}
    (wellFormed : ∀ dapp ∈ dapps, WellFormed isWord dapp) :
    loadAllDapps isWord (dapps.map fun dapp => some dapp.text) = dapps := by
  rw [loadAllDapps, List.filterMap_map]
  refine (List.filterMap_congr fun dapp member => ?_).trans
    List.filterMap_some
  exact parseDappFile_text letters (wellFormed dapp member)

end RoundTrip

section Exchange

def exchange : DAppDefinition where
  name := "Swap V3".toList
  slug := "swap".toList
  version := "1.0".toList
  chainId := 137
  contract := "0x68".toList
  authorPid := "af1c".toList
  authorAddress := []
  description := "x = y".toList
  published := []
  abiFunctions := ["swap(uint)".toList, "[]".toList]
  docs := ⟨[("swap".toList, joined ["Two.".toList, [], "[a b]".toList]),
    ("pay".toList, joined [])], by decide⟩
  flows := ⟨[("swap".toList, ["Approve".toList, "2. Call".toList]),
    ("[x".toList, [])], by decide⟩
  warnings := ["# Fees".toList]

def isAsciiWord (character : Char) : Bool :=
  character.isAlphanum || character = '_'

theorem wellFormed_exchange : WellFormed isAsciiWord exchange where
  fields := by
    have number : intText 137 = "137".toList := by decide
    simp [exchange, DAppDefinition.fields, number, trimmed_iff, Unbroken,
      isLineBreak]
    decide
  chainId := by decide
  abi := by
    simp [exchange, entry_iff, trimmed_iff, Unbroken, isLineBreak]
    decide
  abiCode := by decide
  docsNames := by
    simp [exchange, trimmed_iff, Unbroken, isLineBreak]
    decide
  docs := by
    refine List.forall_mem_cons.mpr ⟨?_, ?_⟩
    · refine documentation_joined ?_ ?_ (by decide) (by decide) (by decide)
      · simp [Unbroken, isLineBreak]
      · simp [Ended]
    · refine List.forall_mem_cons.mpr ⟨?_, List.forall_mem_nil _⟩
      exact documentation_joined (List.forall_mem_nil _)
        (by simp [Ended]) rfl (List.forall_mem_nil _)
        (List.forall_mem_nil _)
  flowNames := by
    simp [exchange, trimmed_iff, Unbroken, isLineBreak]
    decide
  flowPlain := by decide
  steps := by
    simp [exchange, trimmed_iff, Unbroken, isLineBreak]
    decide
  warnings := by
    simp [exchange, entry_iff, trimmed_iff, Unbroken, isLineBreak]
    decide

theorem loadAllDapps_exchange :
    loadAllDapps isAsciiWord [some exchange.text] = [exchange] :=
  loadAllDapps_texts
    (fun character lower => by
      simp [isAsciiWord, Char.isAlphanum, Char.isAlpha, lower])
    (List.forall_mem_singleton.mpr wellFormed_exchange)

end Exchange

end DAppDefinitions

end RefinetPillars
