import RefinetPillars.GatewayRequests

/-!
# Which address a request is counted against

Behind a proxy the gateway believes the last header line that it reads as
X-Forwarded-For.  A proxy takes care of the lines with exactly this name; the
gateway also reads a name with blanks in front of it.
-/

namespace RefinetPillars

namespace ForwardedFor

open HexText LineText OrderedDict HttpGateway
open SignedJson (rstrip exists_rstrip_append)

section Statement

/-- A name in any case. -/
def IsName (name : Text) : Prop := name.map Char.toLower = forwardedFor

instance (name : Text) : Decidable (IsName name) :=
  inferInstanceAs (Decidable (_ = _))

/-- A line that a proxy takes for X-Forwarded-For. -/
def IsForwardedFor (line : Text) : Prop :=
  ':' ∈ line ∧ IsName (beforeColon line)

instance (line : Text) : Decidable (IsForwardedFor line) :=
  inferInstanceAs (Decidable (_ ∧ _))

/-- A line with blanks in front of the name. -/
def IsDisguised (line : Text) : Prop :=
  ':' ∈ line ∧ ∃ blanks name, beforeColon line = blanks ++ name ∧
    blanks ≠ [] ∧ (∀ character ∈ blanks, isSpace character = true) ∧
      IsName name

/-- An address has no blanks and no commas. -/
structure IsAddress (address : Text) : Prop where
  nonempty : address ≠ []
  plain : ∀ character ∈ address, isSpace character = false ∧ character ≠ ','

/-- A well-formed line whose last element is an address. -/
structure EndsWith (address line : Text) : Prop where
  written : ∃ name earlier blanks trailing, line =
      name ++ ':' :: (earlier ++ (blanks ++ address ++ trailing)) ∧
    ':' ∉ name ∧ IsName name ∧
    (earlier = [] ∨ ∃ elements, earlier = elements ++ [',']) ∧
    ∀ character ∈ blanks ++ trailing, character = ' ' ∨ character = Char.ofNat 9

/-- The header lines that a proxy sends on for those of a client: the lines
that it does not take for X-Forwarded-For in their order, and among them one of
its own. -/
structure Forwards (real : Text) (client : List Text) (before : List Text)
    (own : Text) (after : List Text) : Prop where
  others : before ++ after =
    client.filter fun line => decide (¬ IsForwardedFor line)
  ends : EndsWith real own

/-- A head as it is sent. -/
def IsHead (requestLine : Text) (lines : List Text) (head : List UInt8) :
    Prop :=
  (∀ line ∈ requestLine :: lines, ¬ crlf <:+: line) ∧
    decodeLatin1 head =
      ((requestLine :: lines).map (· ++ crlf)).flatten ++ crlf

/-- A value names an address as its last element; an empty one leaves the
address to the connection. -/
def Names (peer : Option Text) (real value : Text) : Prop :=
  if strip value = [] then peer.getD "unknown".toList = real
  else strip (lastElement (strip value)) = real

/-- The last disguised line, if there is one, names the address as well. -/
def Undisturbed (peer : Option Text) (real : Text) (after : List Text) :
    Prop :=
  ∀ earlier line later, after = earlier ++ line :: later →
    IsDisguised line → (∀ other ∈ later, ¬ IsDisguised other) →
    Names peer real (afterColon line)

/-- A request that a proxy sends on for a client at an address. -/
structure Proxied (real : Text) where
  requestLine : Text
  client : List Text
  before : List Text
  own : Text
  after : List Text
  head : List UInt8
  address : IsAddress real
  forwards : Forwards real client before own after
  isHead : IsHead requestLine (before ++ own :: after) head

end Statement

section Lines

theorem splitCrlf_append {line : Text} (unbroken : ¬ crlf <:+: line)
    (rest : Text) :
    splitCrlf (line ++ (crlf ++ rest)) = line :: splitCrlf rest := by
  induction line with
  | nil => rfl
  | cons character line ih =>
      have later : ¬ crlf <:+: line := fun within =>
        unbroken (within.trans (List.suffix_cons _ _).isInfix)
      have apart : ∀ other, character = '\r' →
          line ++ (crlf ++ rest) ≠ '\n' :: other := by
        rintro other rfl starts
        cases line with
        | nil => cases starts
        | cons second line =>
            obtain ⟨rfl, -⟩ := List.cons.inj starts
            exact unbroken ⟨[], line, rfl⟩
      rw [List.cons_append, splitCrlf, ih later]
      · rfl
      · rintro other rfl
        exact apart other rfl

/-- The lines of a head, and two empty ones after it. -/
theorem splitCrlf_flatten {lines : List Text}
    (unbroken : ∀ line ∈ lines, ¬ crlf <:+: line) :
    splitCrlf ((lines.map (· ++ crlf)).flatten ++ crlf) = lines ++ [[], []] := by
  induction lines with
  | nil => rfl
  | cons line lines ih =>
      rw [List.map_cons, List.flatten_cons, List.append_assoc,
        List.append_assoc, splitCrlf_append (unbroken line (by simp)),
        ih fun other member => unbroken other (by simp [member]),
        List.cons_append]

end Lines

section Headers

/-- What a line says about a header. -/
def valueIn (name line : Text) : Option Text :=
  (headerOf line).bind fun header =>
    if header.1 = name then some header.2 else none

/-- What the last of the lines says that say something. -/
def lastValue (name : Text) : List Text → Option Text
  | [] => none
  | line :: lines => (lastValue name lines).or (valueIn name line)

theorem get?_headersFrom (name : Text) (lines : List Text)
    (headers : Dict Text Text) :
    (headersFrom headers lines).get? name =
      (lastValue name lines).or (headers.get? name) := by
  induction lines generalizing headers with
  | nil => rfl
  | cons line lines ih =>
      rw [headersFrom, lastValue, valueIn]
      split
      next other value read =>
        rw [ih, Dict.get?_set, read, Option.or_assoc]
        by_cases same : other = name
        · simp [same]
        · simp [same, Ne.symm same]
      next read => rw [ih, read, Option.bind_none, Option.or_none]

theorem get?_headersOf (name : Text) (lines : List Text) :
    (headersOf lines).get? name = lastValue name lines := by
  rw [headersOf, get?_headersFrom, Dict.get?_empty, Option.or_none]

theorem lastValue_append (name : Text) (first second : List Text) :
    lastValue name (first ++ second) =
      (lastValue name second).or (lastValue name first) := by
  induction first with
  | nil => exact (Option.or_none).symm
  | cons line lines ih =>
      rw [List.cons_append, lastValue, ih, lastValue, Option.or_assoc]

theorem lastValue_eq_none_iff {name : Text} {lines : List Text} :
    lastValue name lines = none ↔ ∀ line ∈ lines, valueIn name line = none := by
  induction lines with
  | nil => exact iff_of_true rfl nofun
  | cons line lines ih =>
      rw [lastValue, Option.or_eq_none_iff, ih, List.forall_mem_cons, and_comm]

/-- The line that decides. -/
theorem exists_of_lastValue {name value : Text} {lines : List Text}
    (found : lastValue name lines = some value) :
    ∃ earlier line later, lines = earlier ++ line :: later ∧
      valueIn name line = some value ∧
      ∀ other ∈ later, valueIn name other = none := by
  induction lines with
  | nil => cases found
  | cons line lines ih =>
      rw [lastValue] at found
      match rest : lastValue name lines with
      | some later =>
          rw [rest, Option.some_or] at found
          obtain ⟨earlier, decisive, after, rfl, says', silent⟩ :=
            ih (rest.trans found)
          exact ⟨line :: earlier, decisive, after, rfl, says', silent⟩
      | none =>
          rw [rest, Option.none_or] at found
          exact ⟨[], line, lines, rfl, found, lastValue_eq_none_iff.mp rest⟩

end Headers

section Names

theorem toNat_lowerLatin1 {character : Char} (wide : 128 ≤ character.toNat) :
    128 ≤ (lowerLatin1 character).toNat := by
  rw [lowerLatin1]
  split
  next letter =>
    have valid : (character.toNat + 32).isValidChar := by
      left; omega
    rw [Char.toNat_ofNat, if_pos valid]
    omega
  next => exact wide

theorem toLower_of_wide {character : Char} (wide : 128 ≤ character.toNat) :
    character.toLower = character := by
  rw [Char.toLower, dif_neg]
  rintro ⟨_, small⟩
  have bound : character.toNat ≤ 90 := small
  omega

/-- A letter that is lowered to an ASCII character is one itself. -/
theorem lowerLatin1_eq_iff {character lowered : Char}
    (ascii : lowered.toNat < 128) :
    lowerLatin1 character = lowered ↔ character.toLower = lowered := by
  by_cases small : character.toNat < 128
  · have alike : ∀ code : Fin 128, lowerLatin1 (Char.ofNat code) =
        (Char.ofNat code).toLower := by decide
    have same := alike ⟨character.toNat, small⟩
    rw [Char.ofNat_toNat] at same
    rw [same]
  · have wide : 128 ≤ character.toNat := by omega
    have wider := toNat_lowerLatin1 wide
    rw [toLower_of_wide wide]
    constructor
    · rintro rfl
      omega
    · rintro rfl
      omega

theorem map_lowerLatin1_eq_iff {name lowered : Text}
    (ascii : ∀ character ∈ lowered, character.toNat < 128) :
    name.map lowerLatin1 = lowered ↔ name.map Char.toLower = lowered := by
  induction name generalizing lowered with
  | nil => simp
  | cons character name ih =>
      cases lowered with
      | nil => simp
      | cons first lowered =>
          rw [List.map_cons, List.map_cons, List.cons.injEq, List.cons.injEq,
            lowerLatin1_eq_iff (ascii first (by simp)),
            ih fun other member => ascii other (by simp [member])]

theorem plain_forwardedFor {letter : Char} (member : letter ∈ forwardedFor) :
    letter.toNat < 128 ∧ isSpace letter = false := by
  have plain : (forwardedFor.all fun letter =>
      decide (letter.toNat < 128 ∧ isSpace letter = false)) = true := by
    decide
  simpa using List.all_eq_true.mp plain letter member

theorem isName_iff {name : Text} :
    name.map lowerLatin1 = forwardedFor ↔ IsName name :=
  map_lowerLatin1_eq_iff fun _ member => (plain_forwardedFor member).1

theorem toLower_of_isSpace {character : Char}
    (blank : isSpace character = true) : character.toLower = character := by
  rw [Char.toLower, dif_neg]
  rintro ⟨large, small⟩
  have lower : 65 ≤ character.toNat := large
  have upper : character.toNat ≤ 90 := small
  simp only [isSpace, Bool.or_eq_true, Bool.and_eq_true, decide_eq_true_eq]
    at blank
  omega

theorem IsName.isSpace_eq_false {name : Text} (isName : IsName name)
    {character : Char} (member : character ∈ name) :
    isSpace character = false := by
  have lowered : character.toLower ∈ forwardedFor :=
    isName ▸ List.mem_map_of_mem member
  by_contra blank
  rw [Bool.not_eq_false] at blank
  rw [toLower_of_isSpace blank] at lowered
  exact absurd (plain_forwardedFor lowered).2 (by simp [blank])

/-- A text without blanks comes out of the blanks around it. -/
theorem strip_padded {text blanks trailing : Text}
    (plain : ∀ character ∈ text, isSpace character = false)
    (front : ∀ character ∈ blanks, isSpace character = true)
    (back : ∀ character ∈ trailing, isSpace character = true) :
    strip (blanks ++ text ++ trailing) = text := by
  rcases List.eq_nil_or_concat text with rfl | ⟨init, last, rfl⟩
  · have blank : (blanks ++ [] ++ trailing).dropWhile isSpace = [] := by
      rw [List.append_nil, List.dropWhile_eq_nil_iff]
      intro character member
      exact (List.mem_append.mp member).elim (front character) (back character)
    rw [strip, blank]
    rfl
  · have kept : isSpace last = false := plain last (by simp)
    have start : init.dropWhile isSpace = init :=
      dropWhile_isSpace_of_head fun first atHead =>
        plain first (by simp [List.mem_of_mem_head? atHead])
    have split : blanks ++ (init ++ [last]) ++ trailing =
        (blanks ++ init) ++ last :: trailing := by simp
    rw [List.concat_eq_append, split, strip_append_cons kept back,
      List.dropWhile_append_of_pos front, start]

theorem rstrip_append {text blanks : Text}
    (plain : ∀ character ∈ text, isSpace character = false)
    (nonempty : text ≠ []) : rstrip (blanks ++ text) = blanks ++ text := by
  have kept : (blanks ++ text).reverse.dropWhile isSpace =
      (blanks ++ text).reverse := by
    refine dropWhile_isSpace_of_head fun first atHead => plain first ?_
    rw [List.head?_reverse, List.getLast?_append_of_ne_nil _ nonempty] at atHead
    exact List.mem_of_getLast? atHead
  rw [rstrip, kept, List.reverse_reverse]

/-- A text that ends without a blank is what is left of it after blanks. -/
theorem exists_blanks {text : Text} (trimmed : text = rstrip text) :
    ∃ blanks, text = blanks ++ strip text ∧
      ∀ character ∈ blanks, isSpace character = true := by
  refine ⟨text.takeWhile isSpace, ?_, fun _ => List.mem_takeWhile_imp⟩
  have ends : ∀ last ∈ text.getLast?, isSpace last = false := by
    have kept : text.reverse = text.reverse.dropWhile isSpace := by
      rw [← List.reverse_inj, List.reverse_reverse]
      exact trimmed
    intro last atEnd
    rw [← List.head?_reverse, kept] at atEnd
    exact isSpace_head_dropWhile atEnd
  obtain ⟨trail, split, blank⟩ := exists_rstrip_append (text.dropWhile isSpace)
  have whole : text = text.takeWhile isSpace ++ (strip text ++ trail) := by
    rw [strip, ← rstrip, ← split, List.takeWhile_append_dropWhile]
  rcases List.eq_nil_or_concat trail with rfl | ⟨init, last, rfl⟩
  · rwa [List.append_nil] at whole
  · have atEnd : text.getLast? = some last := by
      rw [whole]
      simp
    have notBlank := ends last atEnd
    rw [blank last (by simp)] at notBlank
    cases notBlank

theorem valueIn_eq_some_iff {line value : Text} :
    valueIn forwardedFor line = some value ↔
      (':' ∈ line ∧ ∃ blanks name, beforeColon line = blanks ++ name ∧
        (∀ character ∈ blanks, isSpace character = true) ∧ IsName name) ∧
      value = strip (afterColon line) := by
  rw [valueIn, headerOf]
  constructor
  · intro found
    split at found
    next read =>
      dsimp only [Option.bind_some] at found
      split at found
      next isName =>
        obtain ⟨blanks, split, blank⟩ := exists_blanks read.2
        exact ⟨⟨read.1, blanks, _, split, blank, isName_iff.mp isName⟩,
          (Option.some.inj found).symm⟩
      next => cases found
    next => cases found
  · rintro ⟨⟨colon, blanks, name, split, blank, isName⟩, rfl⟩
    have plain : ∀ character ∈ name, isSpace character = false :=
      fun _ => isName.isSpace_eq_false
    have nonempty : name ≠ [] := by
      rintro rfl
      cases isName
    have trimmed : strip (blanks ++ name) = name := by
      simpa using strip_padded plain blank (List.forall_mem_nil _)
    rw [split, rstrip_append plain nonempty, if_pos ⟨colon, rfl⟩, trimmed,
      Option.bind_some, if_pos (isName_iff.mpr isName)]

end Names

section Elements

theorem lastElement_of_not_mem {text : Text} (single : ',' ∉ text) :
    lastElement text = text := by
  rw [lastElement, List.splitOn_eq_singleton single]
  rfl

theorem lastElement_append (elements : Text) {text : Text}
    (single : ',' ∉ text) : lastElement (elements ++ ',' :: text) = text := by
  rw [lastElement, List.splitOn_append_cons_self,
    List.splitOn_eq_singleton single, List.getLastD_concat]

theorem exists_dropWhile_comma (elements rest : Text) :
    ∃ front, (elements ++ ',' :: rest).dropWhile isSpace =
      front ++ ',' :: rest := by
  rw [List.dropWhile_append]
  split
  · exact ⟨[], by rw [List.dropWhile_cons_of_neg (by decide), List.nil_append]⟩
  · exact ⟨_, rfl⟩

/-- The last element of a value that ends with an address. -/
theorem lastElement_of_ends {real earlier blanks trailing : Text}
    (address : IsAddress real)
    (separated : earlier = [] ∨ ∃ elements, earlier = elements ++ [','])
    (front : ∀ character ∈ blanks, isSpace character = true ∧ character ≠ ',')
    (back : ∀ character ∈ trailing, isSpace character = true) :
    strip (earlier ++ (blanks ++ real ++ trailing)) ≠ [] ∧
      strip (lastElement (strip (earlier ++ (blanks ++ real ++ trailing)))) =
        real := by
  have plain : ∀ character ∈ real, isSpace character = false :=
    fun character member => (address.plain character member).1
  have single : ',' ∉ real := fun member => (address.plain _ member).2 rfl
  have blank : ∀ character ∈ blanks, isSpace character = true :=
    fun character member => (front character member).1
  have bare : strip real = real := by
    simpa using strip_padded plain (List.forall_mem_nil _)
      (List.forall_mem_nil _)
  rcases separated with rfl | ⟨elements, rfl⟩
  · rw [List.nil_append, strip_padded plain blank back,
      lastElement_of_not_mem single]
    exact ⟨address.nonempty, bare⟩
  · obtain ⟨init, last, ends⟩ :=
      (List.eq_nil_or_concat real).resolve_left address.nonempty
    rw [List.concat_eq_append] at ends
    have split : elements ++ [','] ++ (blanks ++ real ++ trailing) =
        (elements ++ ',' :: (blanks ++ init)) ++ last :: trailing := by
      simp [ends]
    have kept : isSpace last = false := plain last (by simp [ends])
    obtain ⟨front', dropped⟩ := exists_dropWhile_comma elements (blanks ++ init)
    have stripped : strip (elements ++ [','] ++ (blanks ++ real ++ trailing)) =
        front' ++ ',' :: (blanks ++ real) := by
      rw [split, strip_append_cons kept back, dropped]
      simp [ends]
    have alone : ',' ∉ blanks ++ real := by
      rw [List.mem_append]
      exact fun member => member.elim (fun member => (front _ member).2 rfl)
        single
    rw [stripped, lastElement_append front' alone]
    refine ⟨by simp, ?_⟩
    simpa using strip_padded plain blank (List.forall_mem_nil _)

end Elements

section Requests

variable {real : Text} {peer : Option Text}

/-- The line of a proxy gives the address. -/
theorem EndsWith.value {own : Text} (address : IsAddress real)
    (ends : EndsWith real own) :
    IsForwardedFor own ∧ Names peer real (afterColon own) := by
  obtain ⟨name, earlier, blanks, trailing, rfl, noColon, isName, separated,
    padding⟩ := ends.written
  have padded : ∀ character ∈ blanks ++ trailing,
      isSpace character = true ∧ character ≠ ',' := by
    intro character member
    rcases padding character member with rfl | rfl <;> decide
  have last := lastElement_of_ends address separated
    (fun character member => padded character (List.mem_append_left _ member))
    fun character member => (padded character (List.mem_append_right _ member)).1
  rw [IsForwardedFor, ResponseTrailer.beforeColon_append noColon,
    ResponseTrailer.afterColon_append noColon, Names, if_neg last.1]
  exact ⟨⟨by simp, isName⟩, last.2⟩

theorem valueIn_of_forwardedFor {line : Text} (isForwardedFor :
    IsForwardedFor line) :
    valueIn forwardedFor line = some (strip (afterColon line)) :=
  valueIn_eq_some_iff.mpr ⟨⟨isForwardedFor.1, [], _, rfl,
    List.forall_mem_nil _, isForwardedFor.2⟩, rfl⟩

/-- What a line says that a proxy takes for another one. -/
theorem valueIn_eq_some_iff_of_other {line value : Text}
    (other : ¬ IsForwardedFor line) :
    valueIn forwardedFor line = some value ↔
      IsDisguised line ∧ value = strip (afterColon line) := by
  rw [valueIn_eq_some_iff]
  refine and_congr_left fun _ => and_congr_right fun colon => ?_
  constructor
  · rintro ⟨blanks, name, split, blank, isName⟩
    refine ⟨blanks, name, split, ?_, blank, isName⟩
    rintro rfl
    rw [List.nil_append] at split
    exact other ⟨colon, split ▸ isName⟩
  · rintro ⟨blanks, name, split, _, blank, isName⟩
    exact ⟨blanks, name, split, blank, isName⟩

theorem valueIn_eq_none_iff_of_other {line : Text}
    (other : ¬ IsForwardedFor line) :
    valueIn forwardedFor line = none ↔ ¬ IsDisguised line := by
  constructor
  · intro silent disguised
    have read := (valueIn_eq_some_iff_of_other other).mpr ⟨disguised, rfl⟩
    cases silent.symm.trans read
  · intro plain
    rw [Option.eq_none_iff_forall_ne_some]
    exact fun value read =>
      plain ((valueIn_eq_some_iff_of_other other).mp read).1

/-- The address that the headers give. -/
theorem clientIp_of_lastValue {lines : List Text} {line : Text}
    (read : lastValue forwardedFor lines = some (strip (afterColon line))) :
    clientIp true peer (headersOf lines) = real ↔
      Names peer real (afterColon line) := by
  unfold clientIp
  rw [get?_headersOf, read, Names]
  cases strip (afterColon line) with
  | nil => rfl
  | cons first rest => rw [if_neg (List.cons_ne_nil _ _)]

/-- There is one last line of a kind. -/
theorem last_unique {Line : Type} {kind : Line → Prop}
    {first second laterFirst laterSecond : List Line} {line other : Line}
    (same : first ++ line :: laterFirst = second ++ other :: laterSecond)
    (isKind : kind line) (otherKind : kind other)
    (noLater : ∀ later ∈ laterFirst, ¬ kind later)
    (noOther : ∀ later ∈ laterSecond, ¬ kind later) : line = other := by
  rcases List.append_eq_append_iff.mp same with ⟨between, _, split⟩ |
    ⟨between, _, split⟩
  · cases between with
    | nil => exact (List.cons.inj split).1
    | cons between rest =>
        obtain ⟨rfl, rfl⟩ := List.cons.inj split
        exact (noLater other (by simp) otherKind).elim
  · cases between with
    | nil => exact (List.cons.inj split).1.symm
    | cons between rest =>
        obtain ⟨rfl, rfl⟩ := List.cons.inj split
        exact (noOther line (by simp) isKind).elim

theorem clientIp_iff_undisturbed {client before after : List Text} {own : Text}
    (address : IsAddress real) (forwards : Forwards real client before own after) :
    clientIp true peer (headersOf (before ++ own :: after)) = real ↔
      Undisturbed peer real after := by
  have others : ∀ line ∈ after, ¬ IsForwardedFor line := by
    intro line member
    have sent : line ∈ before ++ after := List.mem_append_right _ member
    rw [forwards.others] at sent
    exact of_decide_eq_true (List.mem_filter.mp sent).2
  obtain ⟨isForwardedFor, names⟩ :
      IsForwardedFor own ∧ Names peer real (afterColon own) :=
    forwards.ends.value address
  match disguised : lastValue forwardedFor after with
  | none =>
      have silent := lastValue_eq_none_iff.mp disguised
      have decided : lastValue forwardedFor (before ++ own :: after) =
          some (strip (afterColon own)) := by
        rw [lastValue_append, lastValue, disguised, Option.none_or,
          valueIn_of_forwardedFor isForwardedFor, Option.some_or]
      refine iff_of_true ((clientIp_of_lastValue decided).mpr names) ?_
      rintro earlier line later rfl isDisguised _
      have member : line ∈ earlier ++ line :: later := by simp
      exact ((valueIn_eq_none_iff_of_other (others line member)).mp
        (silent line member) isDisguised).elim
  | some value =>
      obtain ⟨earlier, line, later, rfl, read, silent⟩ :=
        exists_of_lastValue disguised
      have member : line ∈ earlier ++ line :: later := by simp
      obtain ⟨isDisguised, rfl⟩ :=
        (valueIn_eq_some_iff_of_other (others line member)).mp read
      have plain : ∀ other ∈ later, ¬ IsDisguised other := fun other isLater =>
        (valueIn_eq_none_iff_of_other (others other (by simp [isLater]))).mp
          (silent other isLater)
      have decided : lastValue forwardedFor
          (before ++ own :: (earlier ++ line :: later)) =
            some (strip (afterColon line)) := by
        rw [lastValue_append, lastValue, disguised, Option.some_or,
          Option.some_or]
      rw [clientIp_of_lastValue decided]
      constructor
      · intro named first other rest split otherDisguised noLater
        rw [← last_unique split isDisguised otherDisguised plain noLater]
        exact named
      · exact fun undisturbed => undisturbed earlier line later rfl isDisguised
          plain

theorem headersFrom_append (headers : Dict Text Text) (first second : List Text) :
    headersFrom headers (first ++ second) =
      headersFrom (headersFrom headers first) second := by
  induction first generalizing headers with
  | nil => rfl
  | cons line lines ih =>
      rw [List.cons_append, headersFrom, headersFrom]
      split
      · exact ih _
      · exact ih _

theorem limiterKey_eq {netlocAccepted : Text → Bool} {trustProxy : Bool}
    {requestLine key : Text} {lines : List Text} {head : List UInt8}
    (isHead : IsHead requestLine lines head)
    (passed : limiterKey netlocAccepted trustProxy peer head = some key) :
    key = clientIp trustProxy peer (headersOf lines) := by
  obtain ⟨request, parsed, passed⟩ := Option.bind_eq_some_iff.mp passed
  rw [parseHead] at parsed
  split at parsed
  · cases parsed
  · rw [isHead.2, splitCrlf_flatten isHead.1] at parsed
    obtain ⟨parts, _, rfl⟩ := Option.map_eq_some_iff.mp parsed
    have same : headersOf (lines ++ [[], []]) = headersOf lines := by
      rw [headersOf, headersFrom_append]
      rfl
    split at passed
    next => exact (Option.some.inj passed).symm.trans (congrArg _ same)
    next => cases passed

theorem limiterKey_of_untrusted {netlocAccepted : Text → Bool} {key : Text}
    {head : List UInt8}
    (passed : limiterKey netlocAccepted false peer head = some key) :
    key = peer.getD "unknown".toList := by
  obtain ⟨request, _, passed⟩ := Option.bind_eq_some_iff.mp passed
  split at passed
  next => exact (Option.some.inj passed).symm
  next => cases passed

/-- Behind a proxy a request is counted against the address of its client
exactly if no disguised line after the line of the proxy names another one.
Then requests are counted together exactly if they come from one address.
Without a proxy the headers do not matter. -/
theorem counted_iff_undisturbed (netlocAccepted : Text → Bool)
    (peer : Option Text) :
    (∀ (real : Text) (request : Proxied real) (key : Text),
      limiterKey netlocAccepted true peer request.head = some key →
        (key = real ↔ Undisturbed peer real request.after)) ∧
    (∀ (real other : Text) (first : Proxied real) (second : Proxied other)
      (key otherKey : Text),
      limiterKey netlocAccepted true peer first.head = some key →
      limiterKey netlocAccepted true peer second.head = some otherKey →
      Undisturbed peer real first.after →
      Undisturbed peer other second.after → (key = otherKey ↔ real = other)) ∧
    ∀ (head : List UInt8) (key : Text),
      limiterKey netlocAccepted false peer head = some key →
        key = peer.getD "unknown".toList := by
  have decided : ∀ (real : Text) (request : Proxied real) (key : Text),
      limiterKey netlocAccepted true peer request.head = some key →
        (key = real ↔ Undisturbed peer real request.after) := by
    intro real request key passed
    rw [limiterKey_eq request.isHead passed]
    exact clientIp_iff_undisturbed request.address request.forwards
  refine ⟨decided, ?_, fun _ _ => limiterKey_of_untrusted⟩
  intro real other first second key otherKey passed otherPassed undisturbed
    otherUndisturbed
  rw [(decided real first key passed).mpr undisturbed,
    (decided other second otherKey otherPassed).mpr otherUndisturbed]

def disguisedLine : Text :=
  Char.ofNat 160 :: "X-Forwarded-For: 9.9.9.9".toList

def disguisedHead : Text :=
  (["GET /health HTTP/1.1".toList,
    "X-Forwarded-For: 203.0.113.5".toList, disguisedLine].map
      (· ++ crlf)).flatten ++ crlf

def latin1 (text : Text) : List UInt8 :=
  text.map fun character => UInt8.ofNat character.toNat

theorem disguised_readings :
    (("203.0.113.5".toList.all fun character =>
        !isSpace character && character != ',') = true ∧
      (∀ line ∈ ["GET /health HTTP/1.1".toList,
        "X-Forwarded-For: 203.0.113.5".toList, disguisedLine],
          ¬ crlf <:+: line) ∧
      decodeLatin1 (latin1 disguisedHead) = disguisedHead ∧
      [disguisedLine] = [disguisedLine].filter fun line =>
        decide (¬ IsForwardedFor line)) ∧
    limiterKey (fun _ => true) true (some "127.0.0.1".toList)
      (latin1 disguisedHead) = some "9.9.9.9".toList := by
  decide +kernel

/-- A client sends a line whose name starts with a blank. -/
def disguisedRequest : Proxied "203.0.113.5".toList where
  requestLine := "GET /health HTTP/1.1".toList
  client := [disguisedLine]
  before := []
  own := "X-Forwarded-For: 203.0.113.5".toList
  after := [disguisedLine]
  head := latin1 disguisedHead
  address := ⟨by simp, fun character member => by
    simpa using List.all_eq_true.mp disguised_readings.1.1 character member⟩
  forwards := ⟨disguised_readings.1.2.2.2, ⟨"X-Forwarded-For".toList, [], [' '],
    [], by simp, by simp, by decide, .inl rfl, by simp⟩⟩
  isHead := ⟨disguised_readings.1.2.1, disguised_readings.1.2.2.1⟩

/-- Its request is counted against an address of its choice. -/
theorem disguisedLine_believed :
    limiterKey (fun _ => true) true (some "127.0.0.1".toList)
      disguisedRequest.head = some "9.9.9.9".toList ∧
    "9.9.9.9".toList ≠ "203.0.113.5".toList :=
  ⟨disguised_readings.2, by simp⟩

end Requests

end ForwardedFor

end RefinetPillars
