import RefinetPillars.JsonRoundTrip
import RefinetPillars.ResponseTrailer

/-!
# Signed documents on the wire

A document is served between nothing and a terminator, with a trailer after it.
A reader cuts the trailer and the terminator off again.
-/

namespace RefinetPillars

namespace SignedJson

open HexText LineText ContentSigning ResponseTrailer JsonText

section Definitions

variable (floatRepr : Text → Text)

/-- `.rstrip()`. -/
def rstrip (text : Text) : Text := (text.reverse.dropWhile isSpace).reverse

/-- What a terminator at the end leaves. -/
def withoutTerminator (body : Text) : Text :=
  if (crlf ++ ['.']).isSuffixOf body then body.take (body.length - 3)
  else if [Char.ofNat 10, '.'].isSuffixOf body then body.take (body.length - 2)
  else if ['.'].isSuffixOf body then body.take (body.length - 1)
  else body

def parseSignedJson (text : Text) : Option Json :=
  let body :=
    match cutAt sigBegin text with
    | some found => found.1
    | none => text
  loads floatRepr (withoutTerminator (rstrip body))

/-- `json.dumps(doc, indent=2)`. -/
def indented (doc : Json) : Text :=
  dumps { indent := some 2, itemSeparator := [','] } 0 doc

/-- The terminators that are sent. -/
def terminators : List Text := [crlf ++ '.' :: crlf, crlf ++ ['.']]

/-- What comes after the terminator: nothing, or a trailer as it is built. -/
def IsTrailer (scheme : Scheme) (trailer : Text) : Prop :=
  trailer = [] ∨ ∃ body privateKey pid publicKeyHex selector unixTime,
    trailer = buildSignatureTrailer scheme body privateKey pid publicKeyHex
      selector unixTime

/-- A document is read as it was served. -/
def Survives (scheme : Scheme) (doc : Json) : Prop :=
  ∀ terminator ∈ terminators, ∀ trailer, IsTrailer scheme trailer →
    parseSignedJson floatRepr (indented doc ++ terminator ++ trailer) = some doc

end Definitions

section Cutting

variable {marker text before after rest : Text} {separator : Char}

theorem isSome_cutAt_iff (nonempty : marker ≠ []) :
    (cutAt marker text).isSome = true ↔ marker <:+: text := by
  constructor
  · intro isSome
    obtain ⟨found, cut⟩ := Option.isSome_iff_exists.mp isSome
    rw [cutAt_eq_some cut]
    exact ⟨found.1, found.2, by simp⟩
  · intro inside
    induction text with
    | nil => exact absurd (List.infix_nil.mp inside) nonempty
    | cons character text ih =>
        rw [cutAt]
        split
        next => rfl
        next missing =>
          rw [Option.isSome_map]
          rcases List.infix_cons_iff.mp inside with atStart | later
          · exact absurd (List.isPrefixOf_iff_prefix.mpr atStart) missing
          · exact ih later

/-- More text after the first occurrence does not move it. -/
theorem cutAt_append_right (nonempty : marker ≠ [])
    (cut : cutAt marker text = some (before, after)) (more : Text) :
    cutAt marker (text ++ more) = some (before, after ++ more) := by
  induction text generalizing before with
  | nil => simp [cutAt, nonempty] at cut
  | cons character text ih =>
      rw [cutAt] at cut
      rw [List.cons_append, cutAt]
      split at cut
      next found =>
        obtain ⟨rest, whole⟩ := List.isPrefixOf_iff_prefix.mp found
        rw [← List.cons_append, ← whole, List.append_assoc, if_pos (by simp)]
        rw [← whole, List.drop_left] at cut
        cases cut
        simp
      next missing =>
        obtain ⟨⟨older, later⟩, cutText, same⟩ := Option.map_eq_some_iff.mp cut
        obtain ⟨rfl, rfl⟩ := Prod.mk.inj same
        have stillMissing : ¬ marker.isPrefixOf
            (character :: (text ++ more)) = true := by
          intro found
          refine missing (List.isPrefixOf_iff_prefix.mpr ?_)
          have short := congrArg List.length (cutAt_eq_some cutText)
          simp only [List.length_append] at short
          refine List.prefix_of_prefix_length_le
            (List.isPrefixOf_iff_prefix.mp found)
            (List.prefix_append (character :: text) more) ?_
          rw [List.length_cons]
          omega
        rw [if_neg stillMissing, ih cutText]
        rfl

/-- What does not contain a separator ends before it. -/
theorem prefix_append_cons_iff (apart : separator ∉ marker) :
    marker <+: before ++ separator :: after ↔ marker <+: before := by
  constructor
  · intro starts
    rcases List.prefix_or_prefix_of_prefix starts (List.prefix_append _ _) with
      short | ⟨excess, long⟩
    · exact short
    · cases excess with
      | nil => rw [← long, List.append_nil]
      | cons first excess =>
          rw [← long, List.prefix_append_right_inj] at starts
          obtain ⟨rfl, -⟩ := List.cons_prefix_cons.mp starts
          exact absurd (long ▸ by simp) apart
  · intro starts
    exact starts.trans (List.prefix_append _ _)

/-- A separator keeps the occurrences of a marker apart. -/
theorem infix_append_cons_iff (apart : separator ∉ marker)
    (nonempty : marker ≠ []) :
    marker <:+: before ++ separator :: after ↔
      marker <:+: before ∨ marker <:+: after := by
  induction before with
  | nil =>
      have noStart : ¬ marker <+: [] ++ separator :: after := by
        rw [prefix_append_cons_iff apart]
        exact fun starts => nonempty (List.prefix_nil.mp starts)
      rw [List.nil_append] at noStart ⊢
      rw [List.infix_cons_iff, List.infix_nil]
      simp [noStart, nonempty]
  | cons character before ih =>
      rw [List.cons_append, List.infix_cons_iff, ih, ← List.cons_append,
        prefix_append_cons_iff apart, List.infix_cons_iff, or_assoc]

/-- A marker after a separator is found there. -/
theorem cutAt_after_separator (apart : separator ∉ marker)
    (nonempty : marker ≠ []) (absent : ¬ marker <:+: before) :
    cutAt marker (before ++ separator :: (marker ++ after)) =
      some (before ++ [separator], after) := by
  have missing : ¬ marker.isPrefixOf
      (before ++ separator :: (marker ++ after)) = true := by
    rw [List.isPrefixOf_iff_prefix, prefix_append_cons_iff apart]
    exact fun starts => absent starts.isInfix
  induction before with
  | nil =>
      have found : cutAt marker (marker ++ after) = some ([], after) := by
        cases marker with
        | nil => exact absurd rfl nonempty
        | cons first marker => rw [List.cons_append, cutAt, if_pos (by simp)]; simp
      rw [List.nil_append] at missing ⊢
      rw [cutAt, if_neg missing, found]
      rfl
  | cons character before ih =>
      rw [List.infix_cons_iff, not_or] at absent
      rw [List.cons_append] at missing ⊢
      rw [cutAt, if_neg missing, ih absent.2]
      · rfl
      · rw [List.isPrefixOf_iff_prefix, prefix_append_cons_iff apart]
        exact fun starts => absent.2 starts.isInfix

end Cutting

section Ending

variable {floatRepr : Text → Text} {reader next : Reader} {value : Json}
  {text rest : Text}

/-- The phases of a number that stops before a dash. -/
def stoppingPhases : List NumberPhase :=
  [.leadingZero, .digits, .point, .fraction, .exponentDigits]

/-- A document has been read, perhaps up to the end of a number. -/
def Ended (reader : Reader) : Prop :=
  reader.frames = [] ∧
    ((∃ value, reader.mode = .done value) ∨
      ∃ token phase, reader.mode = .number token phase ∧
        phase ∈ stoppingPhases)

theorem ended_of_finish (finished : finish floatRepr reader = some value) :
    Ended reader := by
  obtain ⟨frames, mode⟩ := reader
  cases frames with
  | cons frame frames => cases mode <;> cases finished
  | nil =>
      cases mode with
      | done value => exact ⟨rfl, .inl ⟨value, rfl⟩⟩
      | number token phase =>
          refine ⟨rfl, .inr ⟨token, phase, rfl, ?_⟩⟩
          cases phase <;> first | (cases finished; done) | decide
      | value | firstItem | firstKey | key | colon | next | text | escape
        | unicode | afterHigh | word => cases finished

/-- After a document only blanks are read. -/
theorem afterValue_done {character : Char}
    (stepped : afterValue character ⟨[], .done value⟩ = some next) :
    Ended next := by
  unfold afterValue at stepped
  split at stepped
  · obtain rfl := Option.some.inj stepped
    exact ⟨rfl, .inl ⟨value, rfl⟩⟩
  · cases stepped

/-- Blanks and dots. -/
def Separates (character : Char) : Prop :=
  isSpace character = true ∨ character = '.'

theorem notDigit_of_separates {character : Char}
    (separates : Separates character) : character.isDigit = false := by
  rcases separates with blank | rfl
  · by_contra isDigit
    rw [Bool.not_eq_false, Char.isDigit_iff_toNat] at isDigit
    have least : 48 ≤ character.toNat := isDigit.1
    have greatest : character.toNat ≤ 57 := isDigit.2
    simp only [isSpace, Bool.or_eq_true, Bool.and_eq_true,
      decide_eq_true_eq] at blank
    omega
  · decide

theorem ne_of_separates {character letter : Char}
    (separates : Separates character)
    (isLetter : isSpace letter = false ∧ letter ≠ '.') : character ≠ letter := by
  rintro rfl
  rcases separates with blank | dot
  · rw [isLetter.1] at blank
    cases blank
  · exact isLetter.2 dot

/-- A number goes on after a dot only, and then it wants a digit. -/
theorem mem_stoppingPhases_of_step {character : Char} {phase later : NumberPhase}
    (separates : Separates character) (stops : phase ∈ stoppingPhases)
    (stepped : phase.step character = some later) : later ∈ stoppingPhases := by
  have notDigit := notDigit_of_separates separates
  have notLower : character ≠ 'e' := ne_of_separates separates (by decide)
  have notUpper : character ≠ 'E' := ne_of_separates separates (by decide)
  cases phase with
  | minus | exponent | exponentSign => exact absurd stops (by decide)
  | leadingZero | digits =>
      simp only [NumberPhase.step, notDigit, notLower, notUpper, or_self,
        if_false, Bool.false_eq_true] at stepped
      split at stepped
      · obtain rfl := Option.some.inj stepped
        decide
      · cases stepped
  | point | fraction | exponentDigits =>
      simp [NumberPhase.step, notDigit, notLower, notUpper] at stepped

/-- A blank or a dot does not begin anything new. -/
theorem ended_step {character : Char} (ended : Ended reader)
    (separates : Separates character)
    (stepped : step floatRepr reader character = some next) : Ended next := by
  obtain ⟨frames, mode⟩ := reader
  obtain ⟨rfl, ⟨value, rfl⟩ | ⟨token, phase, rfl, stops⟩⟩ := ended
  · exact afterValue_done stepped
  · have notI : character ≠ 'I' := ne_of_separates separates (by decide)
    simp only [step, notI, and_false, if_false] at stepped
    split at stepped
    next later goesOn =>
      obtain rfl := Option.some.inj stepped
      exact ⟨rfl, .inr ⟨_, later, rfl,
        mem_stoppingPhases_of_step separates stops goesOn⟩⟩
    next =>
      obtain ⟨value, -, completed⟩ := Option.bind_eq_some_iff.mp stepped
      exact afterValue_done completed

theorem step_dash_of_ended (ended : Ended reader) :
    step floatRepr reader '-' = none := by
  obtain ⟨frames, mode⟩ := reader
  obtain ⟨rfl, ⟨value, rfl⟩ | ⟨token, phase, rfl, stops⟩⟩ := ended
  · exact afterValue_dash _
  · cases phase with
    | minus | exponent | exponentSign => exact absurd stops (by decide)
    | leadingZero | digits | point | fraction | exponentDigits =>
        simp [step, NumberPhase.step, complete, afterValue_dash]

theorem ended_foldlM {between : Text} (ended : Ended reader)
    (separates : ∀ character ∈ between, Separates character)
    (run : between.foldlM (step floatRepr) reader = some next) :
    Ended next := by
  induction between generalizing reader with
  | nil =>
      obtain rfl := Option.some.inj run
      exact ended
  | cons character between ih =>
      obtain ⟨first, later⟩ := List.forall_mem_cons.mp separates
      rw [List.foldlM_cons] at run
      obtain ⟨middle, stepped, run⟩ := Option.bind_eq_some_iff.mp run
      exact ih (ended_step ended first stepped) later run

/-- A document is not one any more when a dash follows it. -/
theorem loads_append_dash_append {between : Text}
    (separates : ∀ character ∈ between, Separates character)
    (isLoaded : loads floatRepr text = some value) :
    loads floatRepr (text ++ between ++ '-' :: rest) = none := by
  obtain ⟨reader, run, finished⟩ := Option.bind_eq_some_iff.mp isLoaded
  rw [loads, List.foldlM_append, List.foldlM_append, run]
  cases later : between.foldlM (step floatRepr) reader with
  | none => simp [later]
  | some middle =>
      have ended := ended_foldlM (ended_of_finish finished) separates later
      simp [later, step_dash_of_ended ended]

end Ending

section Terminators

variable {text blanks : Text}

/-- What `rstrip` takes away is blank. -/
theorem exists_rstrip_append (text : Text) :
    ∃ blanks, text = rstrip text ++ blanks ∧
      ∀ character ∈ blanks, isSpace character = true := by
  refine ⟨(text.reverse.takeWhile isSpace).reverse, ?_, ?_⟩
  · rw [rstrip, ← List.reverse_append, List.takeWhile_append_dropWhile,
      List.reverse_reverse]
  · intro character member
    exact List.mem_takeWhile_imp (List.mem_reverse.mp member)

theorem exists_withoutTerminator_append (body : Text) :
    ∃ terminator, body = withoutTerminator body ++ terminator ∧
      ∀ character ∈ terminator, Separates character := by
  have taken : ∀ ending : Text, ending.isSuffixOf body = true →
      body = body.take (body.length - ending.length) ++ ending := by
    intro ending isEnding
    obtain ⟨front, rfl⟩ := List.isSuffixOf_iff_suffix.mp isEnding
    simp
  have separates : ∀ ending ∈ [crlf ++ ['.'], [Char.ofNat 10, '.'], ['.'], []],
      ∀ character ∈ ending, Separates character := by
    simp [crlf, Separates, isSpace]
  unfold withoutTerminator
  split
  next ends => exact ⟨_, taken _ ends, separates _ (by simp)⟩
  next =>
    split
    next ends => exact ⟨_, taken _ ends, separates _ (by simp)⟩
    next =>
      split
      next ends => exact ⟨_, taken _ ends, separates _ (by simp)⟩
      next => exact ⟨[], by simp, separates _ (by simp)⟩

theorem rstrip_append_dot (blank : ∀ character ∈ blanks, isSpace character = true) :
    rstrip (text ++ '.' :: blanks) = text ++ ['.'] := by
  have dropped : (text ++ '.' :: blanks).reverse.dropWhile isSpace =
      '.' :: text.reverse := by
    rw [List.reverse_append, List.reverse_cons, List.append_assoc,
      List.dropWhile_append_of_pos
        (fun character member => blank character (List.mem_reverse.mp member))]
    rfl
  rw [rstrip, dropped, List.reverse_cons, List.reverse_reverse]

/-- A terminator and the blanks after it are taken off again. -/
theorem withoutTerminator_rstrip
    (blank : ∀ character ∈ blanks, isSpace character = true) :
    withoutTerminator (rstrip (text ++ (crlf ++ '.' :: blanks))) = text := by
  rw [← List.append_assoc, rstrip_append_dot blank, List.append_assoc,
    withoutTerminator, if_pos]
  · simp [crlf]
  · exact List.isSuffixOf_iff_suffix.mpr (List.suffix_append _ _)

end Terminators

section RoundTrip

variable {floatRepr : Text → Text} {doc : Json}

theorem loads_indented (printable : Printable floatRepr doc) :
    loads floatRepr (indented doc) = some doc := by
  have plain : Layout.Plain { indent := some 2, itemSeparator := [','] } :=
    ⟨⟨[], rfl, by simp⟩, ⟨[' '], rfl, by simp [isJsonSpace]⟩⟩
  exact loads_dumps plain rfl printable

/-- The ends of lines do not begin a trailer. -/
theorem not_infix_terminated {text blanks : Text}
    (absent : ¬ sigBegin <:+: text)
    (isBlanks : blanks ∈ [[], crlf, [Char.ofNat 13], crlf ++ [Char.ofNat 13]]) :
    ¬ sigBegin <:+: text ++ (crlf ++ '.' :: blanks) := by
  have apart : Char.ofNat 13 ∉ sigBegin := by decide
  have later : ¬ sigBegin <:+: Char.ofNat 10 :: '.' :: blanks := by
    simp only [List.mem_cons, List.not_mem_nil, or_false] at isBlanks
    rcases isBlanks with rfl | rfl | rfl | rfl <;> decide
  rw [crlf, List.cons_append, infix_append_cons_iff apart (by decide), not_or]
  exact ⟨absent, later⟩

theorem exists_marker_append (scheme : Scheme) (body privateKey : List UInt8)
    (pid publicKeyHex selector : Text) (unixTime : Nat) :
    ∃ rest, buildSignatureTrailer scheme body privateKey pid publicKeyHex
      selector unixTime = marker ++ rest := by
  simp only [buildSignatureTrailer, List.append_assoc]
  exact ⟨_, rfl⟩

/-- What follows a document up to the trailer is a terminator and blanks. -/
theorem exists_body (scheme : Scheme) {text terminator trailer : Text}
    (absent : ¬ sigBegin <:+: text) (sent : terminator ∈ terminators)
    (isTrailer : IsTrailer scheme trailer) :
    ∃ blanks, (∀ character ∈ blanks, isSpace character = true) ∧
      (match cutAt sigBegin (text ++ terminator ++ trailer) with
        | some found => found.1
        | none => text ++ terminator ++ trailer) =
      text ++ (crlf ++ '.' :: blanks) := by
  have nonempty : sigBegin ≠ [] := by decide
  have apart : Char.ofNat 10 ∉ sigBegin := by decide
  obtain ⟨blanks, isBlanks, rfl⟩ :
      ∃ blanks, blanks ∈ [[], crlf] ∧ terminator = crlf ++ '.' :: blanks := by
    simp only [terminators, List.mem_cons, List.not_mem_nil, or_false] at sent
    rcases sent with rfl | rfl
    · exact ⟨crlf, by simp, rfl⟩
    · exact ⟨[], by simp, rfl⟩
  have blank : ∀ character ∈ blanks ++ crlf, isSpace character = true := by
    simp only [List.mem_cons, List.not_mem_nil, or_false] at isBlanks
    rcases isBlanks with rfl | rfl <;> simp [crlf, isSpace]
  rcases isTrailer with rfl | ⟨body, privateKey, pid, publicKeyHex, selector,
    unixTime, rfl⟩
  · refine ⟨blanks, fun character member => blank character (by simp [member]),
      ?_⟩
    have uncut : cutAt sigBegin (text ++ (crlf ++ '.' :: blanks)) = none := by
      rw [← Option.not_isSome_iff_eq_none, isSome_cutAt_iff nonempty]
      refine not_infix_terminated absent ?_
      simp only [List.mem_cons, List.not_mem_nil, or_false] at isBlanks ⊢
      tauto
    rw [List.append_nil, uncut]
  · refine ⟨blanks ++ crlf, blank, ?_⟩
    have before : ¬ sigBegin <:+:
        text ++ (crlf ++ '.' :: (blanks ++ [Char.ofNat 13])) := by
      apply not_infix_terminated absent
      simp only [List.mem_cons, List.not_mem_nil, or_false] at isBlanks
      rcases isBlanks with rfl | rfl <;> simp
    obtain ⟨rest, begins⟩ := exists_marker_append scheme body privateKey pid
      publicKeyHex selector unixTime
    have whole : text ++ (crlf ++ '.' :: blanks) ++ (marker ++ rest) =
        text ++ (crlf ++ '.' :: (blanks ++ [Char.ofNat 13])) ++
          Char.ofNat 10 :: (sigBegin ++ rest) := by
      simp [marker, crlf]
    rw [begins, whole, cutAt_after_separator apart nonempty before]
    simp [crlf]

theorem survives_iff (scheme : Scheme) (printable : Printable floatRepr doc) :
    Survives floatRepr scheme doc ↔ ¬ sigBegin <:+: indented doc := by
  have nonempty : sigBegin ≠ [] := by decide
  constructor
  · intro survives inside
    obtain ⟨⟨before, after⟩, cut⟩ := Option.isSome_iff_exists.mp
      ((isSome_cutAt_iff nonempty).mpr inside)
    have read := survives (crlf ++ '.' :: crlf) (by simp [terminators]) []
      (.inl rfl)
    rw [List.append_nil, parseSignedJson,
      cutAt_append_right nonempty cut] at read
    obtain ⟨blanks, stripped, blank⟩ := exists_rstrip_append before
    obtain ⟨terminator, ended, separates⟩ :=
      exists_withoutTerminator_append (rstrip before)
    have whole := cutAt_eq_some cut
    have lost : loads floatRepr (indented doc) = none := by
      rw [whole, stripped, ended, List.append_assoc _ terminator]
      refine loads_append_dash_append ?_ read
      intro character member
      rcases List.mem_append.mp member with inTerminator | inBlanks
      · exact separates character inTerminator
      · exact .inl (blank character inBlanks)
    rw [loads_indented printable] at lost
    cases lost
  · intro absent terminator sent trailer isTrailer
    obtain ⟨blanks, blank, isBody⟩ := exists_body scheme absent sent isTrailer
    simp only [parseSignedJson, isBody]
    rw [withoutTerminator_rstrip blank, loads_indented printable]

/-- A document with a text that is not in the way. -/
def plainDocument : Json := .obj [("name".toList, .str "a".toList)]

theorem plainDocument_printable (floatRepr : Text → Text) :
    Printable floatRepr plainDocument :=
  .obj (by decide) (by
    intro field member
    obtain rfl := List.mem_singleton.mp member
    exact .str _)

theorem survives_plainDocument :
    Survives id transparentScheme plainDocument ↔
      ¬ sigBegin <:+: indented plainDocument :=
  survives_iff transparentScheme (plainDocument_printable id)

/-- A document that names the marker. -/
def markedDocument : Json := .obj [("name".toList, .str sigBegin)]

theorem not_survives : ¬ Survives id transparentScheme markedDocument := by
  intro survives
  have read := survives (crlf ++ ['.']) (by simp [terminators]) [] (.inl rfl)
  have lost : parseSignedJson id
      (indented markedDocument ++ (crlf ++ ['.']) ++ []) = none := by
    decide +kernel
  rw [lost] at read
  cases read

end RoundTrip

end SignedJson

end RefinetPillars
