import RefinetPillars.UrlStandard

/-!
# Targets of addresses

A client writes a path below `/g` into an address, and the gateway reads a
selector from the target that the engine makes of it.  The selector is the path
when nothing of the path is resolved, left out or decoded, and not otherwise.
-/

namespace RefinetPillars

namespace ClientTargets

open HexText LineText ResponseTrailer
open HttpGateway hiding trailerFields Reply
open UrlStandard (Origin Encoded NoEscapes resolveDots joinSegments slashed
  trimEnd isPathCharacter queryOf isDot backslash unescaped)

section Routing

/-- The root is the empty selector. -/
def rooted (path : Text) : Text :=
  if path = ['/'] then [] else path

/-- What a split of a URL looks at, after the authority. -/
def located (text : Text) : Text :=
  if "//".toList.isPrefixOf text then
    (text.drop 2).dropWhile fun character => !endsAuthority character
  else text

def pathOf (text : Text) : Text :=
  ((located text).takeWhile fun character => character ≠ '#').takeWhile
    fun character => character ≠ '?'

/-- The query, with its question mark. -/
def askedOf (text : Text) : Text :=
  ((located text).takeWhile fun character => character ≠ '#').dropWhile
    fun character => character ≠ '?'

variable {netlocAccepted : Text → Bool} {raw target : Text}

/-- A target that starts with a slash is split at its delimiters alone. -/
theorem urlsplit_of_encoded (isEncoded : Encoded raw target)
    (starts : target.head? = some '/') :
    urlsplit netlocAccepted target =
      if "//".toList.isPrefixOf target = true ∧
          netlocAccepted ((target.drop 2).takeWhile fun character =>
            !endsAuthority character) = false then none
      else some ⟨pathOf target, (askedOf target).drop 1⟩ := by
  have printable := isEncoded.printable
  have kept : target.dropWhile (fun character => character.toNat ≤ 32) =
      target := by
    cases target with
    | nil => cases starts
    | cons first rest =>
        have above := (printable first List.mem_cons_self).1
        rw [List.dropWhile_cons_of_neg (by simpa using above)]
  have cleaned : target.filter (fun character =>
      character.toNat ∉ [9, 10, 13]) = target := by
    rw [List.filter_eq_self]
    intro character member
    have above := (printable character member).1
    simp
    omega
  have unschemed : withoutScheme target = target := by
    have front : (beforeColon target).head?.any Char.isAlpha = false := by
      cases target with
      | nil => cases starts
      | cons first rest =>
          obtain rfl : first = '/' := by simpa using starts
          rfl
    rw [withoutScheme, if_neg]
    rintro ⟨-, alpha, -⟩
    rw [front] at alpha
    cases alpha
  rw [urlsplit, kept, cleaned, unschemed]
  simp only [pathOf, askedOf, located]

theorem not_encodable_slash : ¬ UrlStandard.IsEncodable '/' :=
  fun encodable => encodable.1 (by decide)

theorem encoded_located (isEncoded : Encoded raw target)
    (starts : target.head? = some '/') :
    Encoded (located raw) (located target) := by
  cases target with
  | nil => cases starts
  | cons first rest =>
      obtain rfl : first = '/' := by simpa using starts
      obtain ⟨tail, rfl, later⟩ := isEncoded.of_cons (by decide)
      have same : "//".toList.isPrefixOf ('/' :: rest) =
          "//".toList.isPrefixOf ('/' :: tail) := by
        rw [Bool.eq_iff_iff]
        change (['/'].isPrefixOf rest = true) ↔ (['/'].isPrefixOf tail = true)
        rw [List.isPrefixOf_iff_prefix, List.isPrefixOf_iff_prefix]
        constructor
        · rintro ⟨others, rfl⟩
          obtain ⟨more, rfl, -⟩ := later.of_cons (by decide)
          exact ⟨more, rfl⟩
        · rintro ⟨others, rfl⟩
          obtain ⟨more, rfl, -⟩ := later.cons not_encodable_slash
          exact ⟨more, rfl⟩
      rw [located, located, same]
      split
      next double =>
        obtain ⟨others, rfl⟩ : ∃ others, tail = '/' :: others := by
          obtain ⟨others, shape⟩ := List.isPrefixOf_iff_prefix.mp double
          exact ⟨others, (List.cons.inj shape).2.symm⟩
        obtain ⟨more, rfl, after⟩ := later.cons not_encodable_slash
        refine (after.span fun character other => ?_).2
        simpa [endsAuthority, and_assoc] using other
      next => exact isEncoded

/-- The parts of an encoded text are those of the text, encoded. -/
theorem encoded_parts (isEncoded : Encoded raw target)
    (starts : target.head? = some '/') :
    Encoded (pathOf raw) (pathOf target) ∧
      Encoded (askedOf raw) (askedOf target) := by
  have unfragmented := (@Encoded.span _ _ (encoded_located isEncoded starts)
    (fun character => character ≠ '#') fun character other => by simp_all).1
  exact unfragmented.span fun character other => by simp_all

/-- A query that starts with a question mark is encoded after it. -/
theorem encoded_drop {asked encodedAsked : Text}
    (isEncoded : Encoded asked encodedAsked)
    (starts : asked = [] ∨ ∃ query, asked = '?' :: query) :
    Encoded (asked.drop 1) (encodedAsked.drop 1) := by
  rcases starts with rfl | ⟨query, rfl⟩
  · cases isEncoded
    exact .nil
  · obtain ⟨rest, rfl, later⟩ :=
      isEncoded.cons fun encodable => encodable.1 (by decide)
    exact later

theorem askedOf_cases (text : Text) :
    askedOf text = [] ∨ ∃ query, askedOf text = '?' :: query := by
  have stops := List.head?_dropWhile_not
    (fun character : Char => decide (character ≠ '?'))
    ((located text).takeWhile fun character => character ≠ '#')
  rw [askedOf]
  generalize ((located text).takeWhile fun character =>
    decide (character ≠ '#')).dropWhile (fun character =>
      decide (character ≠ '?')) = asked at stops ⊢
  cases asked with
  | nil => exact .inl rfl
  | cons first rest => exact .inr ⟨rest, by simpa using stops⟩

theorem length_located_le (text : Text) :
    (located text).length ≤ text.length := by
  rw [located]
  split
  · exact (List.dropWhile_suffix _).length_le.trans
      (by rw [List.length_drop]; omega)
  · rfl

/-- The parts of a text are not longer than the text. -/
theorem length_parts_le (text : Text) :
    (pathOf text).length + (askedOf text).length ≤ text.length := by
  have whole : pathOf text ++ askedOf text =
      (located text).takeWhile fun character => character ≠ '#' :=
    List.takeWhile_append_dropWhile
  have cut : ((located text).takeWhile fun character =>
      decide (character ≠ '#')).length ≤ (located text).length :=
    (List.takeWhile_prefix _).length_le
  have bound := length_located_le text
  rw [← whole, List.length_append] at cut
  omega

/-- The selector that is written in a text, and the root as an empty one. -/
def writtenSelector (text : Text) : Text :=
  unescaped ((pathOf text).drop 2) ++
    (if (askedOf text).drop 1 = [] then []
    else '?' :: unescaped ((askedOf text).drop 1))

/-- A path below `/g` is that of a text that starts so. -/
theorem exists_below {path encodedPath : Text}
    (isEncoded : Encoded path encodedPath)
    (inside : ¬ (encodedPath ≠ "/g".toList ∧ ¬ "/g/".toList <+: encodedPath)) :
    ∃ rest encodedRest, path = '/' :: 'g' :: rest ∧
      encodedPath = '/' :: 'g' :: encodedRest ∧ Encoded rest encodedRest := by
  obtain ⟨encodedRest, rfl⟩ :
      ∃ encodedRest, encodedPath = '/' :: 'g' :: encodedRest := by
    rw [not_and_or, not_not, not_not] at inside
    rcases inside with rfl | ⟨rest, rfl⟩
    · exact ⟨[], rfl⟩
    · exact ⟨'/' :: rest, rfl⟩
  obtain ⟨tail, rfl, later⟩ := isEncoded.of_cons (by decide)
  obtain ⟨rest, rfl, after⟩ := later.of_cons (by decide)
  exact ⟨rest, encodedRest, rfl, rfl, after⟩

/-- A selector is read from a target as it was written, if it is below `/g`. -/
theorem selectorFromPath_of_encoded (isEncoded : Encoded raw target)
    (starts : target.head? = some '/') :
    selectorFromPath netlocAccepted target =
      if "//".toList.isPrefixOf target = true ∧
          netlocAccepted ((target.drop 2).takeWhile fun character =>
            !endsAuthority character) = false then .error .url
      else if pathOf target ≠ "/g".toList ∧ ¬ "/g/".toList <+: pathOf target then
        .ok none
      else if ((rooted (writtenSelector raw)).any fun character =>
            character.toNat ∈ [9, 10, 13]) = true ∨
          maxSelectorChars < (rooted (writtenSelector raw)).length then
        .error .selector
      else .ok (some (rooted (writtenSelector raw))) := by
  obtain ⟨path, asked⟩ := encoded_parts isEncoded starts
  rw [selectorFromPath, urlsplit_of_encoded isEncoded starts]
  by_cases refused : "//".toList.isPrefixOf target = true ∧
      netlocAccepted ((target.drop 2).takeWhile fun character =>
        !endsAuthority character) = false
  · rw [if_pos refused, if_pos refused]
  rw [if_neg refused, if_neg refused]
  dsimp only
  by_cases outside : pathOf target ≠ "/g".toList ∧
      ¬ "/g/".toList <+: pathOf target
  · rw [if_pos outside, if_pos outside]
  rw [if_neg outside, if_neg outside]
  have below : unquote ((pathOf target).drop 2) =
      unescaped ((pathOf raw).drop 2) := by
    obtain ⟨rest, encodedRest, front, encodedFront, after⟩ :=
      exists_below path outside
    rw [front, encodedFront]
    exact UrlStandard.unquote_of_encoded after
  have query : ∀ encodedQuery, Encoded ((askedOf raw).drop 1) encodedQuery →
      (if encodedQuery = [] then [] else '?' :: unquote encodedQuery) =
        if (askedOf raw).drop 1 = [] then []
        else '?' :: unescaped ((askedOf raw).drop 1) := by
    intro encodedQuery isEncoded
    rw [UrlStandard.unquote_of_encoded isEncoded]
    simp only [isEncoded.eq_nil_iff]
  rw [below, query _ (encoded_drop asked (askedOf_cases raw))]
  rfl

/-- Decoding and splitting lose at least the two characters before a path. -/
theorem length_writtenSelector {text : Text} (below : 2 ≤ (pathOf text).length) :
    (writtenSelector text).length + 2 ≤ text.length := by
  have parts := length_parts_le text
  have path := UrlStandard.length_unescaped_le ((pathOf text).drop 2)
  have query := UrlStandard.length_unescaped_le ((askedOf text).drop 1)
  rw [List.length_drop] at path query
  rw [writtenSelector, List.length_append]
  split
  next => 
    simp only [List.length_nil]
    omega
  next asked =>
    have positive : 0 < ((askedOf text).drop 1).length :=
      List.length_pos_iff.mpr asked
    rw [List.length_drop] at positive
    simp only [List.length_cons]
    omega

/-- What is written below `/g`. -/
theorem parts_below {path asked : Text} (noQuestion : '?' ∉ path)
    (noHash : '#' ∉ path ++ asked)
    (starts : asked = [] ∨ ∃ query, asked = '?' :: query) :
    pathOf ('/' :: 'g' :: (path ++ asked)) = '/' :: 'g' :: path ∧
      askedOf ('/' :: 'g' :: (path ++ asked)) = asked := by
  have whole : located ('/' :: 'g' :: (path ++ asked)) =
      '/' :: 'g' :: (path ++ asked) :=
    if_neg (by simp [List.isPrefixOf])
  have unfragmented : ('/' :: 'g' :: (path ++ asked)).takeWhile
      (fun character => decide (character ≠ '#')) =
        '/' :: 'g' :: (path ++ asked) := by
    rw [List.takeWhile_eq_self_iff]
    intro character member
    rcases List.mem_cons.mp member with rfl | member
    · decide
    · rcases List.mem_cons.mp member with rfl | member
      · decide
      · exact decide_eq_true fun same => noHash (same ▸ member)
  have inside : ∀ character ∈ '/' :: 'g' :: path,
      decide (character ≠ '?') = true := by
    intro character member
    rcases List.mem_cons.mp member with rfl | member
    · decide
    · rcases List.mem_cons.mp member with rfl | member
      · decide
      · exact decide_eq_true fun same => noQuestion (same ▸ member)
  have shape : '/' :: 'g' :: (path ++ asked) = ('/' :: 'g' :: path) ++ asked :=
    rfl
  rw [pathOf, askedOf, whole, unfragmented, shape,
    List.takeWhile_append_of_pos inside, List.dropWhile_append_of_pos inside]
  rcases starts with rfl | ⟨query, rfl⟩ <;> simp

end Routing

section Addresses

/-- The query of a path with its question mark. -/
def askedQuery (text : Text) : Text :=
  (queryOf text).elim [] fun query => '?' :: query

theorem askedQuery_cases (text : Text) :
    askedQuery text = [] ∨ ∃ query, askedQuery text = '?' :: query := by
  rw [askedQuery]
  cases queryOf text with
  | none => exact .inl rfl
  | some query => exact .inr ⟨query, rfl⟩

/-- A path and its query end at the number sign. -/
theorem path_append_askedQuery (text : Text) :
    text.takeWhile isPathCharacter ++ askedQuery text =
      text.takeWhile fun character => character ≠ '#' := by
  induction text with
  | nil => rfl
  | cons character text ih =>
      by_cases inPath : isPathCharacter character = true
      · have notHash : character ≠ '#' := by
          rintro rfl
          cases inPath
        have query : askedQuery (character :: text) = askedQuery text := by
          rw [askedQuery, queryOf, List.dropWhile_cons_of_pos inPath,
            ← queryOf, askedQuery]
        rw [query, List.takeWhile_cons_of_pos inPath, List.cons_append, ih,
          List.takeWhile_cons_of_pos (by simpa using notHash)]
      · rw [List.takeWhile_cons_of_neg inPath, askedQuery, queryOf,
          List.dropWhile_cons_of_neg inPath]
        have ends : character = '?' ∨ character = '#' := by
          simp only [isPathCharacter, Bool.and_eq_true, decide_eq_true_eq]
            at inPath
          tauto
        rcases ends with rfl | rfl
        · simp
        · simp

/-- A path that an address, its decoding and its splitting leave as it is. -/
structure Plain (path : Text) : Prop where
  ended : trimEnd path = path
  noFragment : '#' ∉ path
  noDots : ∀ segment ∈ (path.takeWhile fun character =>
    character ≠ '?').splitOn '/', isDot segment = false
  noBackslash : backslash ∉ path.takeWhile fun character => character ≠ '?'
  asks : (path.dropWhile fun character => character ≠ '?') ≠ ['?']
  noEscapes : NoEscapes path

/-- The segments of a path on the server. -/
def segmentsOf (path : Text) : List Text :=
  (slashed ('g' :: path)).splitOn '/'

/-- The address of a path, as it is read by the engine. -/
def urlOf (origin : Origin) (path : Text) : UrlStandard.Url where
  scheme := origin.scheme
  authority := origin.authority
  path := resolveDots [] (segmentsOf ((trimEnd path).takeWhile isPathCharacter))
  query := queryOf (trimEnd path)

theorem rawTarget_urlOf (origin : Origin) (path : Text) :
    (urlOf origin path).rawTarget =
      joinSegments (resolveDots []
        (segmentsOf ((trimEnd path).takeWhile isPathCharacter))) ++
        askedQuery (trimEnd path) := rfl

theorem length_slashed (text : Text) : (slashed text).length = text.length :=
  List.length_map _

theorem trimEnd_prefix (text : Text) : trimEnd text <+: text := by
  rw [trimEnd, ← List.reverse_suffix, List.reverse_reverse]
  exact List.dropWhile_suffix _

theorem joinSegments_segmentsOf (path : Text) :
    joinSegments (segmentsOf path) = '/' :: 'g' :: slashed path := by
  rw [segmentsOf, UrlStandard.joinSegments_splitOn]
  rfl

theorem segmentsOf_ne_nil (path : Text) : segmentsOf path ≠ [] :=
  List.splitOnP_ne_nil _ _

theorem length_resolveDots_le (path : Text) :
    (joinSegments (resolveDots [] (segmentsOf path))).length ≤
      path.length + 2 := by
  have whole := congrArg List.length (joinSegments_segmentsOf path)
  simp only [List.length_cons, length_slashed] at whole
  rcases UrlStandard.resolveDots_cases [] (segmentsOf_ne_nil path) with
    ⟨-, same⟩ | ⟨-, less⟩
  · rw [same, List.reverse_nil, List.nil_append]
    exact whole.le
  · rw [whole] at less
    simp only [joinSegments, List.flatMap_nil, List.length_nil] at less ⊢
    omega

/-- The target of a path is at most as long as the path below `/g`, and as long
only if nothing is resolved or left out. -/
theorem rawTarget_cases (origin : Origin) (path : Text) :
    (trimEnd path = path ∧ '#' ∉ path ∧
      (∀ segment ∈ segmentsOf (path.takeWhile isPathCharacter),
        isDot segment = false) ∧
      (urlOf origin path).rawTarget =
        '/' :: 'g' :: (slashed (path.takeWhile isPathCharacter) ++
          askedQuery path)) ∨
      (urlOf origin path).rawTarget.length < path.length + 2 := by
  rw [rawTarget_urlOf]
  have trimmed := trimEnd_prefix path
  have cut := congrArg List.length (path_append_askedQuery (trimEnd path))
  have front : ((trimEnd path).takeWhile fun character =>
      decide (character ≠ '#')) <+: trimEnd path := List.takeWhile_prefix _
  have resolved :=
    length_resolveDots_le ((trimEnd path).takeWhile isPathCharacter)
  rw [List.length_append] at cut
  rw [List.length_append]
  by_cases ended : trimEnd path = path
  · rw [ended] at cut front resolved ⊢
    by_cases fragment : '#' ∈ path
    · right
      have shorter : (path.takeWhile fun character =>
          decide (character ≠ '#')).length ≠ path.length := by
        intro same
        have whole := List.takeWhile_eq_self_iff.mp
          (front.eq_of_length same) '#' fragment
        simp at whole
      have bound := front.length_le
      omega
    · have whole := congrArg List.length
        (joinSegments_segmentsOf (path.takeWhile isPathCharacter))
      simp only [List.length_cons, length_slashed] at whole
      rcases UrlStandard.resolveDots_cases []
        (segmentsOf_ne_nil (path.takeWhile isPathCharacter)) with
        ⟨none, same⟩ | ⟨-, less⟩
      · left
        refine ⟨rfl, fragment, none, ?_⟩
        rw [same, List.reverse_nil, List.nil_append, joinSegments_segmentsOf]
        rfl
      · right
        have bound := front.length_le
        simp only [joinSegments, List.flatMap_nil, List.length_nil] at less
        simp only [joinSegments] at whole ⊢
        omega
  · right
    have shorter : (trimEnd path).length ≠ path.length :=
      fun same => ended (trimmed.eq_of_length same)
    have bound := front.length_le
    have ends := trimmed.length_le
    omega

theorem mem_slashed {text : Text} {character : Char}
    (member : character ∈ slashed text) : character = '/' ∨ character ∈ text := by
  obtain ⟨other, inText, rfl⟩ := List.mem_map.mp member
  split
  · exact .inl rfl
  · exact .inr inText

theorem ends_takeWhile_isPathCharacter {text : Text} {character : Char}
    (member : character ∈ text.takeWhile isPathCharacter) :
    character ≠ '?' ∧ character ≠ '#' := by
  have inPath := List.mem_takeWhile_imp member
  simpa [isPathCharacter] using inPath

theorem encoded_urlOf (origin : Origin) (path : Text) :
    Encoded (urlOf origin path).rawTarget (urlOf origin path).target := by
  apply UrlStandard.Url.encoded_target
  · intro segment inPath character inSegment
    rcases UrlStandard.of_mem_resolveDots inPath with rfl | inNone | inSegments
    · cases inSegment
    · cases inNone
    · have inJoined : character ∈ joinSegments (segmentsOf
          ((trimEnd path).takeWhile isPathCharacter)) :=
        List.mem_flatMap.mpr
          ⟨segment, inSegments, List.mem_cons_of_mem _ inSegment⟩
      rw [joinSegments_segmentsOf] at inJoined
      rcases List.mem_cons.mp inJoined with rfl | inJoined
      · decide
      · rcases List.mem_cons.mp inJoined with rfl | inSlashed
        · decide
        · rcases mem_slashed inSlashed with rfl | inFront
          · decide
          · exact ends_takeWhile_isPathCharacter inFront
  · intro query asked isHash
    change queryOf (trimEnd path) = some query at asked
    rw [queryOf] at asked
    split at asked
    · rw [← Option.some.inj asked] at isHash
      have kept := List.mem_takeWhile_imp isHash
      simp at kept
    · cases asked

theorem head?_target (origin : Origin) (path : Text) :
    (urlOf origin path).target.head? = some '/' := by
  obtain ⟨segment, rest, segments⟩ := List.exists_cons_of_ne_nil
    (UrlStandard.resolveDots_ne_nil []
      (segmentsOf_ne_nil ((trimEnd path).takeWhile isPathCharacter)))
  have starts : (urlOf origin path).rawTarget =
      '/' :: (segment ++ joinSegments rest ++ askedQuery (trimEnd path)) := by
    rw [rawTarget_urlOf, segments, joinSegments, List.flatMap_cons]
    simp [joinSegments]
  have isEncoded := encoded_urlOf origin path
  rw [starts] at isEncoded
  obtain ⟨others, target, -⟩ := isEncoded.cons not_encodable_slash
  rw [target]
  rfl

/-- What the gateway reads from the target of a path of which nothing was
resolved or left out. -/
theorem writtenSelector_of_kept {origin : Origin} {path : Text}
    (noFragment : '#' ∉ path)
    (kept : (urlOf origin path).rawTarget =
      '/' :: 'g' :: (slashed (path.takeWhile isPathCharacter) ++
        askedQuery path)) :
    pathOf (urlOf origin path).rawTarget =
        '/' :: 'g' :: slashed (path.takeWhile isPathCharacter) ∧
      writtenSelector (urlOf origin path).rawTarget =
        unescaped (slashed (path.takeWhile isPathCharacter)) ++
          (if (askedQuery path).drop 1 = [] then []
          else '?' :: unescaped ((askedQuery path).drop 1)) := by
  have whole := path_append_askedQuery path
  have noQuestion : '?' ∉ slashed (path.takeWhile isPathCharacter) := by
    intro member
    rcases mem_slashed member with same | inFront
    · cases same
    · exact (ends_takeWhile_isPathCharacter inFront).1 rfl
  have noHash : '#' ∉ slashed (path.takeWhile isPathCharacter) ++
      askedQuery path := by
    intro member
    rcases List.mem_append.mp member with inFront | inQuery
    · rcases mem_slashed inFront with same | inFront
      · cases same
      · exact (ends_takeWhile_isPathCharacter inFront).2 rfl
    · have inWhole : '#' ∈ path.takeWhile fun character => character ≠ '#' := by
        rw [← whole]
        exact List.mem_append_right _ inQuery
      exact noFragment ((List.takeWhile_prefix _).mem inWhole)
  obtain ⟨front, asked⟩ :=
    parts_below noQuestion noHash (askedQuery_cases path)
  rw [kept, writtenSelector, front, asked]
  exact ⟨rfl, rfl⟩

/-- Without a number sign a path ends at its question mark. -/
theorem path_parts {path : Text} (noFragment : '#' ∉ path) :
    path.takeWhile isPathCharacter ++ askedQuery path = path ∧
      path.takeWhile (fun character => character ≠ '?') =
        path.takeWhile isPathCharacter ∧
      path.dropWhile (fun character => character ≠ '?') = askedQuery path := by
  have whole : path.takeWhile isPathCharacter ++ askedQuery path = path := by
    rw [path_append_askedQuery, List.takeWhile_eq_self_iff]
    intro character member
    exact decide_eq_true fun same => noFragment (same ▸ member)
  have inside : ∀ character ∈ path.takeWhile isPathCharacter,
      decide (character ≠ '?') = true := fun character member =>
    decide_eq_true (ends_takeWhile_isPathCharacter member).1
  have front := @List.takeWhile_append_of_pos _
    (fun character : Char => decide (character ≠ '?')) _ (askedQuery path) inside
  have back := @List.dropWhile_append_of_pos _
    (fun character : Char => decide (character ≠ '?')) _ (askedQuery path) inside
  rw [whole] at front back
  rw [front, back]
  refine ⟨whole, ?_, ?_⟩
  · rcases askedQuery_cases path with empty | ⟨query, asked⟩
    · rw [empty]
      simp
    · rw [asked]
      simp
  · rcases askedQuery_cases path with empty | ⟨query, asked⟩
    · rw [empty]
      simp
    · rw [asked]
      simp

theorem splitOn_slash (rest : Text) :
    ('/' :: rest).splitOn '/' = [] :: rest.splitOn '/' ∧
      ('g' :: '/' :: rest).splitOn '/' = ['g'] :: rest.splitOn '/' := by
  simp [List.splitOn, List.splitOnP_cons_eq_if_modifyHead]

/-- The segments on the server are those of the path after one of their own. -/
theorem noDots_iff {front : Text} (starts : front.head? = some '/')
    (same : slashed front = front) :
    (∀ segment ∈ segmentsOf front, isDot segment = false) ↔
      ∀ segment ∈ front.splitOn '/', isDot segment = false := by
  obtain ⟨rest, rfl⟩ : ∃ rest, front = '/' :: rest := by
    cases front with
    | nil => cases starts
    | cons first rest => exact ⟨rest, by simpa using starts⟩
  have whole : slashed ('g' :: '/' :: rest) = 'g' :: '/' :: rest := by
    rw [slashed, List.map_cons, ← slashed, same]
    rfl
  have dots : isDot ['g'] = false ∧ isDot [] = false := by decide
  rw [segmentsOf, whole, (splitOn_slash rest).1, (splitOn_slash rest).2]
  simp [dots]

theorem slashed_eq_self_iff {text : Text} :
    slashed text = text ↔ backslash ∉ text := by
  induction text with
  | nil => simp [slashed]
  | cons character text ih =>
      rw [slashed, List.map_cons, ← slashed, List.cons.injEq, ih, List.mem_cons,
        not_or]
      refine and_congr_left fun _ => ?_
      by_cases slash : character = '/'
      · subst slash
        decide
      · by_cases back : character = backslash
        · subst back
          decide
        · simp [UrlStandard.isSlash, slash, back, Ne.symm back]

/-- A path that is decoded to itself has nothing to decode and no backslash. -/
theorem of_unescaped_slashed {front : Text} {rest decoded : Text}
    (same : unescaped (slashed front) ++ decoded = front ++ rest)
    (shorter : decoded.length ≤ rest.length) :
    NoEscapes front ∧ backslash ∉ front ∧ decoded = rest := by
  have lengths := congrArg List.length same
  rw [List.length_append, List.length_append] at lengths
  rcases UrlStandard.unescaped_cases (slashed front) with
    ⟨none, kept⟩ | ⟨-, less⟩
  · rw [kept] at same
    obtain ⟨fronts, rests⟩ := List.append_inj same (length_slashed front)
    rw [fronts] at none
    exact ⟨none, slashed_eq_self_iff.mp fronts, rests⟩
  · rw [length_slashed] at less
    omega

theorem plain_root : Plain ['/'] where
  ended := by decide
  noFragment := by decide
  noDots := by decide
  noBackslash := by decide
  asks := by decide
  noEscapes high low isHigh isLow found := by
    have bound := found.length_le
    simp at bound

theorem exists_front {path : Text} (starts : path.head? = some '/') :
    ∃ front, path.takeWhile isPathCharacter = '/' :: front := by
  cases path with
  | nil => cases starts
  | cons first rest =>
      obtain rfl : first = '/' := by simpa using starts
      exact ⟨_, rfl⟩

/-- A path that is read as it was written is plain. -/
theorem plain_of_written {origin : Origin} {path : Text}
    (starts : path.head? = some '/')
    (below : 2 ≤ (pathOf (urlOf origin path).rawTarget).length)
    (written : writtenSelector (urlOf origin path).rawTarget = path) :
    Plain path := by
  have bound := length_writtenSelector below
  rw [written] at bound
  rcases rawTarget_cases origin path with
    ⟨ended, noFragment, noDots, kept⟩ | less
  · obtain ⟨whole, front, back⟩ := path_parts noFragment
    have read := (writtenSelector_of_kept noFragment kept).2
    rw [written] at read
    have same := whole.trans read
    have shorter : (if (askedQuery path).drop 1 = [] then []
        else '?' :: unescaped ((askedQuery path).drop 1)).length ≤
          (askedQuery path).length := by
      have query := UrlStandard.length_unescaped_le ((askedQuery path).drop 1)
      rw [List.length_drop] at query
      split
      next => exact Nat.zero_le _
      next asked =>
        have positive := List.length_pos_iff.mpr asked
        rw [List.length_drop] at positive
        rw [List.length_cons]
        omega
    obtain ⟨noEscapes, noBackslash, decoded⟩ :=
      of_unescaped_slashed same.symm shorter
    have slashes := slashed_eq_self_iff.mpr noBackslash
    obtain ⟨rest, shape⟩ := exists_front starts
    have frontStarts : (path.takeWhile isPathCharacter).head? = some '/' := by
      rw [shape]
      rfl
    refine ⟨ended, noFragment, ?_, ?_, ?_, ?_⟩
    · rw [front]
      exact (noDots_iff frontStarts slashes).mp noDots
    · rw [front]
      exact noBackslash
    · rw [back]
      intro empty
      rw [empty] at decoded
      cases decoded
    · rcases askedQuery_cases path with empty | ⟨query, asked⟩
      · rw [empty, List.append_nil] at whole
        rwa [whole] at noEscapes
      · rw [asked] at decoded whole
        rw [← whole, UrlStandard.noEscapes_append_question]
        refine ⟨noEscapes, ?_⟩
        rw [List.drop_one, List.tail_cons] at decoded
        split at decoded
        next => cases decoded
        next =>
          have read := (List.cons.inj decoded).2
          rcases UrlStandard.unescaped_cases query with ⟨none, -⟩ | ⟨-, less⟩
          · exact none
          · rw [read] at less
            exact absurd less (lt_irrefl _)
  · omega

/-- The target of a plain path is the path below `/g`. -/
theorem rawTarget_of_plain {origin : Origin} {path : Text}
    (starts : path.head? = some '/') (plain : Plain path) :
    (urlOf origin path).rawTarget = '/' :: 'g' :: path ∧
      slashed (path.takeWhile isPathCharacter) =
        path.takeWhile isPathCharacter := by
  obtain ⟨whole, front, -⟩ := path_parts plain.noFragment
  have noBackslash := plain.noBackslash
  have noDots := plain.noDots
  rw [front] at noBackslash noDots
  have slashes := slashed_eq_self_iff.mpr noBackslash
  obtain ⟨rest, shape⟩ := exists_front starts
  have frontStarts : (path.takeWhile isPathCharacter).head? = some '/' := by
    rw [shape]
    rfl
  refine ⟨?_, slashes⟩
  rw [rawTarget_urlOf, plain.ended]
  rcases UrlStandard.resolveDots_cases []
    (segmentsOf_ne_nil (path.takeWhile isPathCharacter)) with
    ⟨-, same⟩ | ⟨⟨segment, member, dot⟩, -⟩
  · rw [same, List.reverse_nil, List.nil_append, joinSegments_segmentsOf,
      slashes, List.cons_append, List.cons_append, whole]
  · have none := (noDots_iff frontStarts slashes).mpr noDots segment member
    exact Bool.noConfusion (dot.symm.trans none)

/-- A plain path is read as it was written. -/
theorem written_of_plain {origin : Origin} {path : Text}
    (starts : path.head? = some '/') (plain : Plain path) :
    writtenSelector (urlOf origin path).rawTarget = path := by
  obtain ⟨whole, -, back⟩ := path_parts plain.noFragment
  have asks := plain.asks
  have noEscapes := plain.noEscapes
  rw [back] at asks
  obtain ⟨kept, slashes⟩ := @rawTarget_of_plain origin path starts plain
  have shape : (urlOf origin path).rawTarget =
      '/' :: 'g' :: (slashed (path.takeWhile isPathCharacter) ++
        askedQuery path) := by
    rw [kept, slashes, whole]
  obtain ⟨-, written⟩ := writtenSelector_of_kept plain.noFragment shape
  rw [slashes] at written
  refine written.trans ?_
  have decodes : ∀ {text : Text}, NoEscapes text → unescaped text = text := by
    intro text none
    rcases UrlStandard.unescaped_cases text with ⟨-, same⟩ | ⟨some, -⟩
    · exact same
    · exact absurd none some
  rcases askedQuery_cases path with empty | ⟨query, asked⟩
  · rw [empty, List.append_nil] at whole
    rw [← whole] at noEscapes
    rw [decodes noEscapes, empty]
    exact (List.append_nil _).trans whole
  · rw [asked] at whole asks
    rw [← whole, UrlStandard.noEscapes_append_question] at noEscapes
    have nonempty : query ≠ [] := fun same => asks (same ▸ rfl)
    rw [decodes noEscapes.1, asked, List.drop_one, List.tail_cons,
      if_neg nonempty, decodes noEscapes.2]
    exact whole

end Addresses

section Dispatching

variable {netlocAccepted : Text → Bool} {origin : Origin} {path : Text}

/-- What the gateway refuses at its front is not asked for. -/
structure IsServed (selector : Text) : Prop where
  notDownload : ¬ (downloadRoute <+: selector ∧ selector.getLast? ≠ some '/')
  notPrivate : ¬ gatewayGate.Refuses selector

theorem signedSelector_rooted (starts : path.head? = some '/') :
    signedSelector (rooted path) = path := by
  rw [rooted]
  split
  next root => rw [root, signedSelector, if_pos rfl]
  next =>
    rw [signedSelector, if_neg]
    rintro rfl
    cases starts

/-- The target of a plain path is below `/g`. -/
theorem exists_target (origin : Origin) (starts : path.head? = some '/')
    (plain : Plain path) :
    ∃ rest, (urlOf origin path).target = '/' :: 'g' :: '/' :: rest := by
  have kept : ¬ UrlStandard.IsEncodable 'g' := by
    rintro ⟨-, notLetter⟩
    revert notLetter
    decide
  obtain ⟨front, rfl⟩ : ∃ front, path = '/' :: front := by
    cases path with
    | nil => cases starts
    | cons first rest => exact ⟨rest, by simpa using starts⟩
  have isEncoded := encoded_urlOf origin ('/' :: front)
  rw [(rawTarget_of_plain starts plain).1] at isEncoded
  obtain ⟨first, target, inFirst⟩ := isEncoded.cons not_encodable_slash
  obtain ⟨second, rfl, inSecond⟩ := inFirst.cons kept
  obtain ⟨third, rfl, -⟩ := inSecond.cons not_encodable_slash
  exact ⟨third, target⟩

/-- The path of a target below `/g`, which names no authority. -/
theorem exists_pathOf (rest : Text) :
    "//".toList.isPrefixOf ('/' :: 'g' :: '/' :: rest) = false ∧
      ∃ tail, pathOf ('/' :: 'g' :: '/' :: rest) = '/' :: 'g' :: '/' :: tail := by
  have single : "//".toList.isPrefixOf ('/' :: 'g' :: '/' :: rest) = false := by
    simp [List.isPrefixOf]
  refine ⟨single, ?_⟩
  rw [pathOf, located, single]
  simp

/-- A plain path that is served is routed as it was asked for. -/
theorem dispatch_of_plain (starts : path.head? = some '/') (plain : Plain path)
    (unbroken : ∀ character ∈ path, character.toNat ∉ [9, 10, 13])
    (short : path.length ≤ maxSelectorChars) (served : IsServed (rooted path)) :
    dispatch netlocAccepted "GET".toList (urlOf origin path).target true =
      .answer (rooted path) := by
  have isEncoded := encoded_urlOf origin path
  have targetStarts := head?_target origin path
  have written := @written_of_plain origin path starts plain
  obtain ⟨rest, target⟩ := exists_target origin starts plain
  obtain ⟨single, tail, below⟩ := exists_pathOf rest
  rw [← target] at single below
  have single : ¬ ("//".toList.isPrefixOf (urlOf origin path).target = true ∧
      netlocAccepted (((urlOf origin path).target.drop 2).takeWhile
        fun character => !endsAuthority character) = false) :=
    fun refused => Bool.noConfusion (single.symm.trans refused.1)
  have rootedLe : (rooted path).length ≤ path.length ∧
      ∀ character ∈ rooted path, character ∈ path := by
    rw [rooted]
    split
    · exact ⟨Nat.zero_le _, nofun⟩
    · exact ⟨le_rfl, fun _ member => member⟩
  have mapped : selectorFromPath netlocAccepted (urlOf origin path).target =
      .ok (some (rooted path)) := by
    rw [selectorFromPath_of_encoded isEncoded targetStarts, if_neg single,
      if_neg, written, if_neg]
    · rintro (breaks | long)
      · obtain ⟨character, member, isBreak⟩ := List.any_eq_true.mp breaks
        exact unbroken character (rootedLe.2 character member)
          (of_decide_eq_true isBreak)
      · omega
    · rintro ⟨-, outside⟩
      exact outside ⟨tail, by rw [below]; rfl⟩
  rw [dispatch, urlsplit_of_encoded isEncoded targetStarts, if_neg single]
  dsimp only
  rw [if_neg (by decide), if_neg (by decide), if_neg (by decide), if_neg,
    if_neg, mapped]
  · dsimp only
    rw [if_neg served.notDownload, if_neg served.notPrivate]
  · rw [below]
    simp
  · rw [below]
    simp

theorem selectorFromPath_of_dispatch {target selector : Text}
    (forwarded : dispatch netlocAccepted "GET".toList target true =
      .answer selector) :
    selectorFromPath netlocAccepted target = .ok (some selector) := by
  rw [dispatch] at forwarded
  repeat' split at forwarded
  all_goals try cases forwarded
  next mapped _ _ => exact mapped

/-- A path that is routed as it was asked for is plain. -/
theorem plain_of_dispatch (starts : path.head? = some '/')
    (forwarded : dispatch netlocAccepted "GET".toList
      (urlOf origin path).target true = .answer (rooted path)) :
    Plain path ∧ path.length ≤ maxSelectorChars := by
  have mapped := selectorFromPath_of_dispatch forwarded
  have isEncoded := encoded_urlOf origin path
  have targetStarts := head?_target origin path
  rw [selectorFromPath_of_encoded isEncoded targetStarts] at mapped
  split at mapped
  · cases mapped
  split at mapped
  · cases mapped
  next inside =>
    split at mapped
    · cases mapped
    next allowed =>
      have same := Option.some.inj (Except.ok.inj mapped)
      by_cases root : path = ['/']
      · rw [root]
        exact ⟨plain_root, by decide⟩
      have asked : rooted path = path := if_neg root
      have written : writtenSelector (urlOf origin path).rawTarget = path := by
        rw [asked, rooted] at same
        split at same
        next =>
          rw [← same] at starts
          cases starts
        next => exact same
      have below : 2 ≤ (pathOf (urlOf origin path).rawTarget).length := by
        obtain ⟨rest, -, front, -⟩ :=
          exists_below (encoded_parts isEncoded targetStarts).1 inside
        rw [front]
        simp
      refine ⟨plain_of_written starts below written, ?_⟩
      rw [written, asked] at allowed
      omega

end Dispatching

end ClientTargets

end RefinetPillars
