import RefinetPillars.RegularExpressions
import RefinetPillars.WellKnown

/-!
# Domain names

The expression for domains and the grammar that it stands for.  A line feed may
follow what the expression reads, so a name is accepted with one.
-/

namespace RefinetPillars

namespace WellKnown

open HexText LineText RegularExpressions

section Expressions

def isAlnum (character : Char) : Bool :=
  isLowerLetter character || character.isDigit

def isLabelCharacter (character : Char) : Bool :=
  isAlnum character || character = '-'

/-- `[a-z0-9]([a-z0-9-]{0,61}[a-z0-9])?`. -/
def labelRe : Regex :=
  .seq (.character isAlnum)
    (.optional (.seq (.repeated (.character isLabelCharacter) 0 (some 61))
      (.character isAlnum)))

/-- `_DOMAIN_RE`. -/
def domainRe : Regex :=
  .seq .start
    (.seq
      (.lookahead (.seq
        (.repeated (.character fun character => character ≠ Regex.lineFeed) 1
          (some 253)) .stop))
      (.seq labelRe
        (.seq (.oneOrMore
          (.seq (.character fun character => character = '.') labelRe)) .stop)))

/-- `[0-9.]+`. -/
def numericRe : Regex :=
  .oneOrMore (.character fun character =>
    character.isDigit || character = '.')

end Expressions

section Grammar

/-- A label of letters in lower case, digits and inner hyphens. -/
structure IsLabel (label : Text) : Prop where
  lengths : 1 ≤ label.length ∧ label.length ≤ 63
  characters : ∀ character ∈ label, isLabelCharacter character = true
  starts : label.head? ≠ some '-'
  ends : label.getLast? ≠ some '-'

/-- Two labels or more with dots between them. -/
structure IsDotted (value : Text) : Prop where
  labels : ∃ labels : List Text, 2 ≤ labels.length ∧
    (∀ label ∈ labels, IsLabel label) ∧ value = ['.'].intercalate labels
  short : value.length ≤ 253

/-- A dotted name that is not all digits. -/
structure IsHostName (value : Text) : Prop extends IsDotted value where
  named : ∃ character ∈ value, character.isDigit = false ∧ character ≠ '.'

/-- A dotted name with the end of a line after it. -/
def HasTrailingFeed (value : Text) : Prop :=
  ∃ name, IsDotted name ∧ value = name ++ [Regex.lineFeed]

end Grammar

section Labels

variable {label whole rest left : Text}

theorem isHostLabel_iff : isHostLabel label = true ↔ IsLabel label := by
  simp only [isHostLabel, Bool.and_eq_true, decide_eq_true_eq,
    List.all_eq_true]
  constructor
  · rintro ⟨⟨⟨⟨nonempty, short⟩, starts⟩, ends⟩, characters⟩
    exact ⟨⟨nonempty, short⟩, characters, starts, ends⟩
  · rintro ⟨⟨nonempty, short⟩, characters, starts, ends⟩
    exact ⟨⟨⟨⟨nonempty, short⟩, starts⟩, ends⟩, characters⟩

theorem isAlnum_of_ne_hyphen {character : Char}
    (inLabel : isLabelCharacter character = true) (notHyphen : character ≠ '-') :
    isAlnum character = true := by
  simpa [isLabelCharacter, notHyphen] using inLabel

theorem isLabelCharacter_of_isAlnum {character : Char}
    (alphanumeric : isAlnum character = true) :
    isLabelCharacter character = true := by
  simp [isLabelCharacter, alphanumeric]

theorem ne_hyphen_of_isAlnum {character : Char}
    (alphanumeric : isAlnum character = true) : character ≠ '-' := by
  rintro rfl
  revert alphanumeric
  decide

/-- The expression of a label reads the labels. -/
theorem reads_labelRe_iff :
    Regex.Reads whole labelRe rest left ↔
      ∃ label, IsLabel label ∧ rest = label ++ left := by
  constructor
  · rintro ⟨between, ⟨first, firstAlnum, rfl⟩, more⟩
    rcases Regex.reads_optional_iff.mp more with rfl |
      ⟨later, inner, last, lastAlnum, rfl⟩
    · refine ⟨[first], ⟨by simp, ?_, ?_, ?_⟩, rfl⟩
      · simpa using isLabelCharacter_of_isAlnum firstAlnum
      · simpa using ne_hyphen_of_isAlnum firstAlnum
      · simpa using ne_hyphen_of_isAlnum firstAlnum
    · obtain ⟨middle, rfl, -, short, characters⟩ :=
        Regex.reads_repeated_character_iff.mp inner
      have few := short 61 rfl
      refine ⟨first :: (middle ++ [last]), ⟨?_, ?_, ?_, ?_⟩, by simp⟩
      · simp only [List.length_cons, List.length_append, List.length_nil]
        omega
      · intro character member
        rcases List.mem_cons.mp member with rfl | member
        · exact isLabelCharacter_of_isAlnum firstAlnum
        rcases List.mem_append.mp member with inMiddle | atEnd
        · exact characters character inMiddle
        · rw [List.mem_singleton.mp atEnd]
          exact isLabelCharacter_of_isAlnum lastAlnum
      · simpa using ne_hyphen_of_isAlnum firstAlnum
      · rw [← List.cons_append, List.getLast?_concat]
        simpa using ne_hyphen_of_isAlnum lastAlnum
  · rintro ⟨label, ⟨⟨nonempty, short⟩, characters, starts, ends⟩, rfl⟩
    cases label with
    | nil => cases nonempty
    | cons first label =>
        have firstAlnum := isAlnum_of_ne_hyphen (characters first (by simp))
          (by simpa using starts)
        refine ⟨label ++ left, ⟨first, firstAlnum, rfl⟩, ?_⟩
        rw [Regex.reads_optional_iff]
        rcases List.eq_nil_or_concat' label with rfl | ⟨middle, last, rfl⟩
        · exact Or.inl rfl
        · have lastAlnum := isAlnum_of_ne_hyphen (characters last (by simp))
            (by rw [← List.cons_append, List.getLast?_concat] at ends
                simpa using ends)
          refine Or.inr ⟨last :: left, ?_, last, lastAlnum, rfl⟩
          refine Regex.reads_repeated_character_iff.mpr
            ⟨middle, by simp, Nat.zero_le _, ?_, ?_⟩
          · rintro bound ⟨⟩
            simp only [List.length_cons, List.length_append,
              List.length_nil] at short
            omega
          · exact fun character member => characters character (by simp [member])

/-- Labels behind dots. -/
theorem reads_dotLabel_iff :
    Regex.Reads whole
        (.seq (.character fun character => character = '.') labelRe) rest left ↔
      ∃ label, IsLabel label ∧ rest = '.' :: label ++ left := by
  constructor
  · rintro ⟨between, ⟨dot, isDot, rfl⟩, later⟩
    obtain rfl := of_decide_eq_true isDot
    obtain ⟨label, isLabel, rfl⟩ := reads_labelRe_iff.mp later
    exact ⟨label, isLabel, rfl⟩
  · rintro ⟨label, isLabel, rfl⟩
    exact ⟨label ++ left, ⟨'.', by decide, rfl⟩,
      reads_labelRe_iff.mpr ⟨label, isLabel, rfl⟩⟩

theorem intercalate_dots (first : Text) (labels : List Text) :
    ['.'].intercalate (first :: labels) =
      first ++ labels.flatMap fun label => '.' :: label := by
  induction labels generalizing first with
  | nil => simp
  | cons second labels ih =>
      rw [List.intercalate_cons_cons, ih, List.flatMap_cons]
      simp

theorem IsLabel.dot_notMem (isLabel : IsLabel label) : '.' ∉ label := by
  intro member
  have allowed := isLabel.characters _ member
  revert allowed
  decide

theorem characters_of_labels {labels : List Text}
    (areLabels : ∀ label ∈ labels, IsLabel label) :
    ∀ character ∈ ['.'].intercalate labels,
      isLabelCharacter character = true ∨ character = '.' := by
  intro character member
  cases labels with
  | nil => cases member
  | cons first labels =>
      rw [intercalate_dots] at member
      rcases List.mem_append.mp member with inFirst | inLater
      · exact Or.inl ((areLabels first (by simp)).characters character inFirst)
      · obtain ⟨label, labelMem, inLabel⟩ := List.mem_flatMap.mp inLater
        rcases List.mem_cons.mp inLabel with dot | inLabel
        · exact Or.inr dot
        · exact Or.inl ((areLabels label (by simp [labelMem])).characters
            character inLabel)

theorem lineFeed_notMem_of_labels {labels : List Text}
    (areLabels : ∀ label ∈ labels, IsLabel label) :
    Regex.lineFeed ∉ ['.'].intercalate labels := by
  intro member
  rcases characters_of_labels areLabels _ member with allowed | dot
  · revert allowed
    decide
  · revert dot
    decide

theorem IsDotted.characters {value : Text} (dotted : IsDotted value) :
    ∀ character ∈ value, isLabelCharacter character = true ∨
      character = '.' := by
  obtain ⟨labels, -, areLabels, rfl⟩ := dotted.labels
  exact characters_of_labels areLabels

theorem IsDotted.lineFeed_notMem {value : Text} (dotted : IsDotted value) :
    Regex.lineFeed ∉ value := by
  obtain ⟨labels, -, areLabels, rfl⟩ := dotted.labels
  exact lineFeed_notMem_of_labels areLabels

end Labels

section Matching

variable {value whole rest : Text}

/-- The look-ahead bounds the length up to a line feed at the end. -/
theorem lookahead_iff :
    (∃ after, Regex.Reads whole (.seq (.repeated
        (.character fun character => character ≠ Regex.lineFeed) 1 (some 253))
        .stop) rest after) ↔
      ∃ name : Text, 1 ≤ name.length ∧ name.length ≤ 253 ∧
        Regex.lineFeed ∉ name ∧
        (rest = name ∨ rest = name ++ [Regex.lineFeed]) := by
  constructor
  · rintro ⟨_, between, read, atEnd, rfl⟩
    obtain ⟨name, rfl, long, short, unbroken⟩ :=
      Regex.reads_repeated_character_iff.mp read
    have noFeed : Regex.lineFeed ∉ name := fun member =>
      of_decide_eq_true (unbroken _ member) rfl
    rcases atEnd with rfl | rfl
    · exact ⟨name, long, short 253 rfl, noFeed, Or.inl (List.append_nil _)⟩
    · exact ⟨name, long, short 253 rfl, noFeed, Or.inr rfl⟩
  · rintro ⟨name, long, short, noFeed, ends⟩
    have read : ∀ left, Regex.Reads whole (.repeated
        (.character fun character => character ≠ Regex.lineFeed) 1 (some 253))
        (name ++ left) left := by
      intro left
      refine Regex.reads_repeated_character_iff.mpr ⟨name, rfl, long, ?_, ?_⟩
      · rintro bound ⟨⟩
        exact short
      · intro character member
        rw [decide_eq_true_iff]
        rintro rfl
        exact noFeed member
    rcases ends with rfl | rfl
    · exact ⟨[], [], by simpa using read [], Or.inl rfl, rfl⟩
    · exact ⟨_, _, read _, Or.inr rfl, rfl⟩

/-- The expression reads the dotted names, with a line feed or without. -/
theorem matches_domainRe_iff :
    domainRe.Matches value ↔
      ∃ name, IsDotted name ∧
        (value = name ∨ value = name ++ [Regex.lineFeed]) := by
  constructor
  · rintro ⟨_, _, ⟨-, rfl⟩, _, ⟨ahead, rfl⟩, afterFirst, first, afterLabels,
      more, atEnd, rfl⟩
    obtain ⟨bounded, -, short, boundedFree, split⟩ := lookahead_iff.mp ahead
    obtain ⟨firstLabel, isFirst, rfl⟩ := reads_labelRe_iff.mp first
    obtain ⟨labels, nonempty, areLabels, rfl⟩ :=
      (Regex.reads_oneOrMore_pieces_iff fun _ _ => reads_dotLabel_iff).mp more
    have allLabels : ∀ label ∈ firstLabel :: labels, IsLabel label :=
      List.forall_mem_cons.mpr ⟨isFirst, areLabels⟩
    have free := lineFeed_notMem_of_labels allLabels
    have count : 2 ≤ (firstLabel :: labels).length := by
      have some := List.length_pos_iff.mpr nonempty
      rw [List.length_cons]
      omega
    rw [← List.append_assoc, ← intercalate_dots] at split ⊢
    refine ⟨_, ⟨⟨_, count, allLabels, rfl⟩, ?_⟩, ?_⟩
    · rcases atEnd with rfl | rfl
      · rw [List.append_nil] at split
        rcases split with rfl | feed
        · exact short
        · exact (free (by rw [feed]; simp)).elim
      · rcases split with rfl | feed
        · exact (boundedFree (by simp)).elim
        · rw [List.append_left_injective _ feed]
          exact short
    · rcases atEnd with rfl | rfl
      · exact Or.inl (List.append_nil _)
      · exact Or.inr rfl
  · rintro ⟨name, dotted, ends⟩
    obtain ⟨labels, count, areLabels, spelled⟩ := dotted.labels
    have free := dotted.lineFeed_notMem
    cases labels with
    | nil => simp at count
    | cons first labels =>
        have nonempty : labels ≠ [] := by
          rintro rfl
          simp at count
        have long : 1 ≤ name.length := by
          rw [spelled, intercalate_dots, List.length_append]
          have firstLong := (areLabels first (by simp)).lengths.1
          omega
        rw [intercalate_dots] at spelled
        obtain ⟨tail, atEnd, split⟩ : ∃ tail : Text,
            (tail = [] ∨ tail = [Regex.lineFeed]) ∧ value = name ++ tail := by
          rcases ends with rfl | rfl
          · exact ⟨[], Or.inl rfl, (List.append_nil _).symm⟩
          · exact ⟨_, Or.inr rfl, rfl⟩
        refine ⟨tail, value, ⟨rfl, rfl⟩, value, ⟨lookahead_iff.mpr
          ⟨name, long, dotted.short, free, ends⟩, rfl⟩, _,
          reads_labelRe_iff.mpr ⟨first, areLabels first (by simp), ?_⟩, tail,
          (Regex.reads_oneOrMore_pieces_iff fun _ _ => reads_dotLabel_iff).mpr
            ⟨labels, nonempty, fun label member =>
              areLabels label (by simp [member]), rfl⟩, atEnd, rfl⟩
        rw [split, spelled, List.append_assoc]

theorem fullMatches_numericRe_iff :
    numericRe.FullMatches value ↔ value ≠ [] ∧
      (value.all fun character => character.isDigit || character = '.') =
        true := by
  rw [Regex.FullMatches, numericRe, Regex.oneOrMore,
    Regex.reads_repeated_character_iff, List.all_eq_true]
  constructor
  · rintro ⟨read, rfl, long, -, numeric⟩
    rw [List.append_nil]
    exact ⟨List.ne_nil_of_length_pos long, numeric⟩
  · rintro ⟨nonempty, numeric⟩
    exact ⟨value, (List.append_nil _).symm, List.length_pos_iff.mpr nonempty,
      nofun, numeric⟩

end Matching

section Validity

variable {value : Text}

/-- A value without a line feed at its end. -/
def withoutFeed (value : Text) : Text :=
  if value.getLast? = some Regex.lineFeed then value.dropLast else value

theorem withoutFeed_append (name : Text) :
    withoutFeed (name ++ [Regex.lineFeed]) = name := by
  simp [withoutFeed]

theorem IsDotted.withoutFeed_eq (dotted : IsDotted value) :
    withoutFeed value = value := by
  refine if_neg fun isFeed => ?_
  exact dotted.lineFeed_notMem (List.mem_of_getLast? isFeed)

theorem isDotted_withoutFeed_iff :
    IsDotted (withoutFeed value) ↔
      ∃ name, IsDotted name ∧
        (value = name ∨ value = name ++ [Regex.lineFeed]) := by
  constructor
  · intro dotted
    refine ⟨_, dotted, ?_⟩
    rw [withoutFeed]
    split
    next feed => exact Or.inr (List.dropLast_append_getLast? _ feed).symm
    next => exact Or.inl rfl
  · rintro ⟨name, dotted, rfl | rfl⟩
    · rwa [dotted.withoutFeed_eq]
    · rwa [withoutFeed_append]

theorem isDotted_iff_splitOn {name : Text} :
    IsDotted name ↔ name.length ≤ 253 ∧ 2 ≤ (name.splitOn '.').length ∧
      ∀ label ∈ name.splitOn '.', IsLabel label := by
  constructor
  · intro dotted
    obtain ⟨labels, count, areLabels, spelled⟩ := dotted.labels
    have split : name.splitOn '.' = labels := by
      rw [spelled]
      refine List.splitOn_intercalate '.'
        (fun label member => (areLabels label member).dot_notMem) ?_
      rintro rfl
      simp at count
    rw [split]
    exact ⟨dotted.short, count, areLabels⟩
  · rintro ⟨short, count, areLabels⟩
    exact ⟨⟨_, count, areLabels, (List.intercalate_splitOn _).symm⟩, short⟩

theorem isValidDomain_iff :
    isValidDomain value = true ↔ IsDotted (withoutFeed value) ∧
      (value.all fun character => character.isDigit || character = '.') =
        false := by
  rw [isDotted_iff_splitOn]
  simp only [isValidDomain, Bool.and_eq_true, decide_eq_true_eq,
    List.all_eq_true (p := isHostLabel), isHostLabel_iff, Bool.not_eq_true',
    and_assoc]
  rfl

/-- The names are valid that the expressions let through. -/
theorem isValidDomain_iff_matches :
    isValidDomain value = true ↔
      domainRe.Matches value ∧ ¬ numericRe.FullMatches value := by
  rw [isValidDomain_iff, matches_domainRe_iff, ← isDotted_withoutFeed_iff,
    fullMatches_numericRe_iff]
  refine and_congr_right fun dotted => ?_
  have nonempty : value ≠ [] := by
    rintro rfl
    have count := (isDotted_iff_splitOn.mp dotted).2.1
    simp [withoutFeed] at count
  rw [not_and, Bool.not_eq_true]
  exact ⟨fun numeric _ => numeric, fun notNumeric => notNumeric nonempty⟩

theorem isHostName_iff :
    IsHostName value ↔ IsDotted value ∧
      (value.all fun character => character.isDigit || character = '.') =
        false := by
  rw [List.all_eq_false]
  constructor
  · rintro ⟨dotted, character, member, notDigit, notDot⟩
    exact ⟨dotted, character, member, by simp [notDigit, notDot]⟩
  · rintro ⟨dotted, character, member, notNumeric⟩
    exact ⟨dotted, character, member, by simpa using notNumeric⟩

/-- A name with a line feed is let through. -/
theorem isValidDomain_of_trailingFeed (feed : HasTrailingFeed value) :
    isValidDomain value = true := by
  obtain ⟨name, dotted, rfl⟩ := feed
  rw [isValidDomain_iff, withoutFeed_append, List.all_append]
  exact ⟨dotted, by simp [Regex.lineFeed]⟩

/-- The valid names are the host names, but for those with a line feed. -/
theorem isValidDomain_iff_isHostName :
    (isValidDomain value = true ↔ IsHostName value) ↔
      ¬ HasTrailingFeed value := by
  constructor
  · intro same feed
    have dotted := (same.mp (isValidDomain_of_trailingFeed feed)).toIsDotted
    obtain ⟨name, -, rfl⟩ := feed
    exact dotted.lineFeed_notMem (by simp)
  · intro noFeed
    rw [isValidDomain_iff, isHostName_iff]
    refine and_congr_left fun _ => ?_
    rw [isDotted_withoutFeed_iff]
    constructor
    · rintro ⟨name, dotted, rfl | rfl⟩
      · exact dotted
      · exact (noFeed ⟨name, dotted, rfl⟩).elim
    · exact fun dotted => ⟨value, dotted, Or.inl rfl⟩

end Validity

section Normalization

variable {name : Text}

/-- `str.lower` of an ASCII text changes its capital letters. -/
def LowersAscii (lower : Text → Text) : Prop :=
  ∀ text : Text, (∀ character ∈ text, character.toNat < 128) →
    lower text = text.map Char.toLower

/-- What host names consist of. -/
def isNameCharacter (character : Char) : Bool :=
  isLabelCharacter character || character = '.'

theorem toNat_lt_of_isNameCharacter {character : Char}
    (inName : isNameCharacter character = true) : character.toNat < 128 := by
  simp only [isNameCharacter, isLabelCharacter, isAlnum, isLowerLetter,
    Char.isDigit, Bool.or_eq_true, Bool.and_eq_true, decide_eq_true_eq,
    Char.le_def, UInt32.le_iff_toNat_le, ge_iff_le] at inName
  have value : character.toNat = character.val.toNat := rfl
  rcases inName with (((letter | digit) | rfl) | rfl)
  · have bound : ('z' : Char).val.toNat = 122 := rfl
    omega
  · have bound : ('9' : Char).val.toNat = 57 := rfl
    omega
  · decide
  · decide

/-- They are no blanks and stay as they are in lower case. -/
theorem isNameCharacter_facts {character : Char}
    (inName : isNameCharacter character = true) :
    isSpace character = false ∧ character.toLower = character ∧
      character ≠ ':' ∧ character ≠ '/' := by
  have small := toNat_lt_of_isNameCharacter inName
  have checked : ∀ code < 128, isNameCharacter (Char.ofNat code) = true →
      isSpace (Char.ofNat code) = false ∧
        (Char.ofNat code).toLower = Char.ofNat code ∧
        Char.ofNat code ≠ ':' ∧ Char.ofNat code ≠ '/' := by decide
  rw [← Char.ofNat_toNat character]
  exact checked _ small (by rwa [Char.ofNat_toNat])

theorem IsDotted.nameCharacters (dotted : IsDotted name) :
    ∀ character ∈ name, isNameCharacter character = true := by
  intro character member
  rcases dotted.characters character member with inLabel | rfl
  · simp [isNameCharacter, inLabel]
  · rfl

/-- A dotted name ends with its last label. -/
theorem IsDotted.last_ne_dot (dotted : IsDotted name) :
    name.getLast? ≠ some '.' := by
  intro isDot
  obtain ⟨labels, count, areLabels, rfl⟩ := dotted.labels
  match labels, count with
  | first :: more, count =>
      rcases List.eq_nil_or_concat' more with rfl | ⟨inner, last, rfl⟩
      · simp at count
      · have isLabel := areLabels last (by simp)
        have nonempty : last ≠ [] := List.ne_nil_of_length_pos isLabel.lengths.1
        rw [intercalate_dots, List.flatMap_append, List.flatMap_singleton,
          ← List.append_assoc, List.append_cons, List.getLast?_append,
          List.getLast?_eq_some_getLast nonempty, Option.some_or,
          Option.some.injEq] at isDot
        exact isLabel.dot_notMem (isDot ▸ List.getLast_mem nonempty)

/-- Dotted names are normalized to themselves. -/
theorem IsDotted.normalizeDomain_eq (dotted : IsDotted name)
    {lower : Text → Text} (ascii : LowersAscii lower) :
    normalizeDomain lower name = name := by
  have facts := fun character member =>
    isNameCharacter_facts (dotted.nameCharacters character member)
  have stripped : strip name = name :=
    strip_eq_self (fun first atHead =>
      (facts first (List.mem_of_mem_head? atHead)).1)
      fun last atEnd => (facts last (List.mem_of_getLast? atEnd)).1
  have lowered : lower name = name := by
    rw [ascii name fun character member =>
      toNat_lt_of_isNameCharacter (dotted.nameCharacters character member)]
    exact (List.map_congr_left fun character member =>
      (facts character member).2.1).trans (List.map_id' name)
  have noScheme : dropScheme name = name := by
    rw [dropScheme]
    refine if_neg ?_
    rintro ⟨-, colon⟩
    have inRest : ':' ∈ name.dropWhile isLowerLetter :=
      colon.mem (by decide +kernel)
    exact (facts ':' ((List.dropWhile_sublist _).mem inRest)).2.2.1 rfl
  have noSlash : beforeSlash name = name := by
    rw [beforeSlash, List.takeWhile_eq_self_iff]
    intro character member
    rw [decide_eq_true_iff]
    exact (facts character member).2.2.2
  have noDots : dropDots name = name := by
    have start : name.reverse.dropWhile (fun character => character = '.') =
        name.reverse := by
      cases reversed : name.reverse with
      | nil => rfl
      | cons last front =>
          refine List.dropWhile_cons_of_neg ?_
          rw [decide_eq_true_iff]
          rintro rfl
          apply dotted.last_ne_dot
          rw [← List.head?_reverse, reversed]
          rfl
    rw [dropDots, start, List.reverse_reverse]
  rw [normalizeDomain, stripped, lowered, noScheme, noSlash, noDots]

/-- A line feed after a dotted name is trimmed away the next time. -/
theorem IsDotted.normalizeDomain_append (dotted : IsDotted name)
    {lower : Text → Text} (ascii : LowersAscii lower) :
    normalizeDomain lower (name ++ [Regex.lineFeed]) = name := by
  have nonempty : name ≠ [] := by
    rintro rfl
    have count := (isDotted_iff_splitOn.mp dotted).2.1
    simp at count
  have trimmed : strip (name ++ [Regex.lineFeed]) = name := by
    obtain ⟨front, last, rfl⟩ := (List.eq_nil_or_concat' name).resolve_left
      nonempty
    have kept := fun character member =>
      (isNameCharacter_facts (dotted.nameCharacters character member)).1
    rw [List.append_assoc, List.singleton_append,
      strip_append_cons (kept last (by simp)) (by simp [Regex.lineFeed, isSpace])]
    congr 1
    exact dropWhile_isSpace_of_head fun first atHead =>
      kept first (List.mem_append_left _ (List.mem_of_mem_head? atHead))
  have again := dotted.normalizeDomain_eq ascii
  rw [normalizeDomain] at again ⊢
  rw [trimmed]
  have stripped : strip name = name := by
    rw [← trimmed, strip_strip]
  rwa [stripped] at again

/-- The expression for domains is the grammar of host names, and what it lets
through is normalized to itself, exactly as far as no line feed is left at the
end. -/
theorem validDomains (lower : Text → Text) (ascii : LowersAscii lower) :
    (∀ value, isValidDomain value = true ↔
        domainRe.Matches value ∧ ¬ numericRe.FullMatches value) ∧
      (∀ value, (isValidDomain value = true ↔ IsHostName value) ↔
        ¬ HasTrailingFeed value) ∧
      ∀ value, (isValidDomain (normalizeDomain lower value) = true →
          normalizeDomain lower (normalizeDomain lower value) =
            normalizeDomain lower value) ↔
        ¬ HasTrailingFeed (normalizeDomain lower value) := by
  refine ⟨fun _ => isValidDomain_iff_matches,
    fun _ => isValidDomain_iff_isHostName, fun value => ?_⟩
  constructor
  · intro idempotent feed
    have same := idempotent (isValidDomain_of_trailingFeed feed)
    obtain ⟨name, dotted, split⟩ := feed
    rw [split, dotted.normalizeDomain_append ascii] at same
    simp at same
  · intro noFeed valid
    have hostName := (isValidDomain_iff_isHostName.mpr noFeed).mp valid
    exact hostName.toIsDotted.normalizeDomain_eq ascii

end Normalization

section Samples

/-- A domain with a path after a line feed. -/
def brokenDomain : Text :=
  "https://pillar.example".toList ++ Char.ofNat 10 :: "/status".toList

theorem lowersAscii_map : LowersAscii (List.map Char.toLower) :=
  fun _ _ => rfl

theorem validDomains_lower :
    isValidDomain "pillar.example".toList = true ↔
      IsHostName "pillar.example".toList := by
  refine ((validDomains _ lowersAscii_map).2.1 _).mpr ?_
  rintro ⟨name, -, split⟩
  have last := congrArg List.getLast? split
  rw [List.getLast?_concat] at last
  revert last
  decide +kernel

/-- A line feed is accepted, also at the end of what was normalized. -/
theorem trailingFeed_accepted :
    isValidDomain (normalizeDomain (List.map Char.toLower) brokenDomain) =
        true ∧
      ¬ IsHostName (normalizeDomain (List.map Char.toLower) brokenDomain) ∧
      normalizeDomain (List.map Char.toLower)
          (normalizeDomain (List.map Char.toLower) brokenDomain) ≠
        normalizeDomain (List.map Char.toLower) brokenDomain := by
  have normalized : normalizeDomain (List.map Char.toLower) brokenDomain =
      "pillar.example".toList ++ [Regex.lineFeed] := by decide +kernel
  rw [normalized]
  refine ⟨by decide +kernel, ?_, by decide +kernel⟩
  intro hostName
  exact hostName.toIsDotted.lineFeed_notMem (by simp)

end Samples

end WellKnown

end RefinetPillars
