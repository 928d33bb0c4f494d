import RefinetPillars.HttpGateway

/-!
# Addresses as a client writes them

A text is made into an address of the schemes `http` and `https`: blanks around
it are cut off, what follows a number sign is left out, dots that stand for
directories are resolved, and some characters are percent-encoded.  A reader
that decodes the address gets at most as many characters back, and as many only
if nothing was cut off, resolved or decoded.
-/

namespace RefinetPillars

namespace UrlStandard

open HexText LineText KeyRecovery Utf8Text
open HttpGateway (escapedByte unquoteToBytes unquoteFrom unquote endsAuthority)

section Encoding

/-- The bytes of a character, each after a percent sign. -/
def percentEncode (character : Char) : Text :=
  (String.utf8EncodeChar character).flatMap fun byte =>
    '%' :: (byteText byte).map Char.toUpper

def isControl (character : Char) : Bool :=
  character.toNat < 32 || 126 < character.toNat

/-- The characters that are encoded in a query of these schemes. -/
def isQueryEncoded (character : Char) : Bool :=
  isControl character || character ∈ " \"#<>".toList || character.toNat = 39

/-- The characters that are encoded in a path. -/
def isPathEncoded (character : Char) : Bool :=
  isControl character || character ∈ " \"#<>?^`\x7b\x7d".toList

def encodeWith (isEncoded : Char → Bool) (text : Text) : Text :=
  text.flatMap fun character =>
    if isEncoded character then percentEncode character else [character]

end Encoding

section Parsing

/-- Without controls and blanks at the end. -/
def trimEnd (text : Text) : Text :=
  (text.reverse.dropWhile fun character => character.toNat ≤ 32).reverse

/-- Without controls and blanks at the ends, tabs and line ends. -/
def trimInput (input : Text) : Text :=
  (trimEnd (input.dropWhile fun character => character.toNat ≤ 32)).filter
    fun character => character.toNat ∉ [9, 10, 13]

def backslash : Char := Char.ofNat 92

def isSlash (character : Char) : Bool :=
  character = '/' || character = backslash

/-- A backslash stands for a slash. -/
def slashed (path : Text) : Text :=
  path.map fun character => if isSlash character then '/' else character

/-- A segment that stands for the directory above. -/
def isDoubleDot (segment : Text) : Bool :=
  segment.map Char.toLower ∈
    ["..".toList, ".%2e".toList, "%2e.".toList, "%2e%2e".toList]

/-- A segment that stands for the directory itself. -/
def isSingleDot (segment : Text) : Bool :=
  segment.map Char.toLower ∈ [".".toList, "%2e".toList]

/-- The segments that are kept, newest first, and then the others; at the end a
directory has an empty segment. -/
def resolveDots : List Text → List Text → List Text
  | kept, [] => kept.reverse
  | kept, [last] =>
      if isDoubleDot last then ([] :: kept.tail).reverse
      else if isSingleDot last then ([] :: kept).reverse
      else (last :: kept).reverse
  | kept, segment :: next :: rest =>
      if isDoubleDot segment then resolveDots kept.tail (next :: rest)
      else if isSingleDot segment then resolveDots kept (next :: rest)
      else resolveDots (segment :: kept) (next :: rest)

def joinSegments (segments : List Text) : Text :=
  segments.flatMap fun segment => '/' :: segment

structure Url where
  scheme : Text
  authority : Text
  path : List Text
  query : Option Text
deriving DecidableEq

def isPathCharacter (character : Char) : Bool :=
  character ≠ '?' && character ≠ '#'

/-- The query after a path, if there is a question mark. -/
def queryOf (located : Text) : Option Text :=
  match located.dropWhile isPathCharacter with
  | '?' :: query => some (query.takeWhile fun character => character ≠ '#')
  | _ => none

def isAuthorityCharacter (character : Char) : Bool :=
  !(endsAuthority character || isSlash character)

/-- The parser of URLs, for the two schemes.  A segment is compared with dots
before it is encoded, which changes nothing of what it is compared with. -/
def parse (input : Text) : Option Url :=
  let trimmed := trimInput input
  let scheme := (beforeColon trimmed).map Char.toLower
  if ':' ∈ trimmed ∧ scheme ∈ ["http".toList, "https".toList] then
    let rest := (afterColon trimmed).dropWhile isSlash
    let located := rest.dropWhile isAuthorityCharacter
    let path := located.takeWhile isPathCharacter
    some
      { scheme := scheme
        authority := rest.takeWhile isAuthorityCharacter
        path := resolveDots [] ((slashed (path.drop 1)).splitOn '/')
        query := queryOf located }
  else none

/-- What a client asks the server of an address for. -/
def Url.target (url : Url) : Text :=
  encodeWith isPathEncoded (joinSegments url.path) ++
    match url.query with
    | none => []
    | some query => '?' :: encodeWith isQueryEncoded query

example : (parse "https://a.example/g/x/../b c?d e#f".toList).map Url.target =
    some "/g/b%20c?d%20e".toList := by
  decide +kernel

end Parsing

section Encoded

/-- A character that may be encoded: no letter, no digit, and nothing that
splits an address. -/
def IsEncodable (character : Char) : Prop :=
  character ∉ "%/?#:".toList ∧ character.isAlphanum = false

/-- A text with some of its characters percent-encoded; what is left is
printable. -/
inductive Encoded : Text → Text → Prop where
  | nil : Encoded [] []
  | plain {character : Char} {raw encoded : Text} :
      32 < character.toNat → character.toNat < 127 → Encoded raw encoded →
      Encoded (character :: raw) (character :: encoded)
  | escaped {character : Char} {raw encoded : Text} :
      IsEncodable character → Encoded raw encoded →
      Encoded (character :: raw) (percentEncode character ++ encoded)

theorem Encoded.append {first second firstEncoded secondEncoded : Text}
    (encoded : Encoded first firstEncoded)
    (later : Encoded second secondEncoded) :
    Encoded (first ++ second) (firstEncoded ++ secondEncoded) := by
  induction encoded with
  | nil => exact later
  | plain above below _ ih => exact .plain above below ih
  | escaped encodable _ ih =>
      rw [List.append_assoc]
      exact .escaped encodable ih

/-- A way of encoding that leaves only printable characters as they are. -/
structure Encodes (isEncoded : Char → Bool) (allowed : Char → Prop) : Prop where
  encodable : ∀ character, isEncoded character = true → allowed character →
    IsEncodable character
  printable : ∀ character, isEncoded character = false →
    32 < character.toNat ∧ character.toNat < 127

theorem encoded_encodeWith {isEncoded : Char → Bool} {allowed : Char → Prop}
    (encodes : Encodes isEncoded allowed) {text : Text}
    (all : ∀ character ∈ text, allowed character) :
    Encoded text (encodeWith isEncoded text) := by
  induction text with
  | nil => exact .nil
  | cons character text ih =>
      have later := ih fun other member => all other (by simp [member])
      rw [encodeWith, List.flatMap_cons]
      split
      next encoded =>
        exact .escaped (encodes.encodable character encoded
          (all character List.mem_cons_self)) later
      next plain =>
        obtain ⟨above, below⟩ :=
          encodes.printable character (by simpa using plain)
        exact .plain above below later

theorem isEncodable_of_control {character : Char}
    (control : isControl character = true) : IsEncodable character := by
  have checked : ("%/?#:".toList.all fun other => !isControl other) = true := by
    decide
  constructor
  · intro member
    have plain := List.all_eq_true.mp checked character member
    rw [control] at plain
    cases plain
  · simp only [isControl, Bool.or_eq_true, decide_eq_true_eq] at control
    simp only [Char.isAlphanum, Char.isAlpha, Char.isUpper, Char.isLower,
      Char.isDigit, Bool.or_eq_false_iff, Bool.and_eq_false_iff,
      decide_eq_false_iff_not, ge_iff_le, UInt32.le_iff_toNat_le]
    have same : character.val.toNat = character.toNat := rfl
    simp
    omega

theorem encodes_path :
    Encodes isPathEncoded fun character =>
      character ≠ '?' ∧ character ≠ '#' := by
  constructor
  · rintro character encoded ⟨notQuestion, notHash⟩
    rcases Bool.or_eq_true_iff.mp encoded with control | member
    · exact isEncodable_of_control control
    · simp only [decide_eq_true_eq] at member
      have checked : (" \"#<>?^`\x7b\x7d".toList.all fun other =>
          other = '?' || other = '#' || (decide (other ∉ "%/?#:".toList) &&
            !other.isAlphanum)) = true := by
        decide
      have allowed := List.all_eq_true.mp checked character member
      simp only [Bool.or_eq_true, Bool.and_eq_true, decide_eq_true_eq,
        notQuestion, notHash, false_or, Bool.not_eq_true'] at allowed
      exact allowed
  · intro character plain
    simp only [isPathEncoded, isControl, Bool.or_eq_false_iff,
      decide_eq_false_iff_not] at plain
    obtain ⟨⟨above, below⟩, notMember⟩ := plain
    have notSpace : character.toNat ≠ 32 := by
      intro same
      apply notMember
      have isSpace : character = ' ' := Char.ofNat_toNat character ▸ same ▸ rfl
      rw [isSpace]
      decide
    omega

theorem encodes_query :
    Encodes isQueryEncoded fun character => character ≠ '#' := by
  constructor
  · intro character encoded notHash
    simp only [isQueryEncoded, Bool.or_eq_true, decide_eq_true_eq] at encoded
    rcases encoded with (control | member) | quote
    · exact isEncodable_of_control control
    · have checked : (" \"#<>".toList.all fun other => other = '#' ||
          (decide (other ∉ "%/?#:".toList) && !other.isAlphanum)) = true := by
        decide
      have allowed := List.all_eq_true.mp checked character member
      simp only [Bool.or_eq_true, Bool.and_eq_true, decide_eq_true_eq,
        notHash, false_or, Bool.not_eq_true'] at allowed
      exact allowed
    · have isQuote : character = Char.ofNat 39 :=
        Char.ofNat_toNat character ▸ quote ▸ rfl
      rw [isQuote]
      exact ⟨by decide, by decide⟩
  · intro character plain
    simp only [isQueryEncoded, isControl, Bool.or_eq_false_iff,
      decide_eq_false_iff_not] at plain
    obtain ⟨⟨⟨above, below⟩, notMember⟩, -⟩ := plain
    have notSpace : character.toNat ≠ 32 := by
      intro same
      apply notMember
      have isSpace : character = ' ' := Char.ofNat_toNat character ▸ same ▸ rfl
      rw [isSpace]
      decide
    omega

end Encoded

section Decoding

/-- The bytes of a text in which escapes are decoded. -/
def unescapedBytes : Text → List UInt8
  | [] => []
  | '%' :: high :: low :: rest =>
      match escapedByte high low with
      | some byte => byte :: unescapedBytes rest
      | none => 37 :: unescapedBytes (high :: low :: rest)
  | character :: rest => String.utf8EncodeChar character ++ unescapedBytes rest

def unescaped (text : Text) : Text := decodeUtf8 (unescapedBytes text)

/-- No escape follows a percent sign. -/
def NoEscape (rest : Text) : Prop :=
  ∀ high low tail, rest = high :: low :: tail → escapedByte high low = none

theorem utf8EncodeChar_ascii {character : Char}
    (ascii : character.toNat < 128) :
    String.utf8EncodeChar character = [UInt8.ofNat character.toNat] := by
  have checked : ∀ code : Fin 128, String.utf8EncodeChar (Char.ofNat code) =
      [UInt8.ofNat code] := by
    decide
  have encoded := checked ⟨character.toNat, ascii⟩
  rwa [Char.ofNat_toNat] at encoded

theorem unquoteToBytes_cons {character : Char} (notPercent : character ≠ '%')
    (rest : Text) :
    unquoteToBytes (character :: rest) =
      UInt8.ofNat character.toNat :: unquoteToBytes rest := by
  rw [unquoteToBytes]
  simp [notPercent]

theorem unquoteToBytes_percent {rest : Text} (none : NoEscape rest) :
    unquoteToBytes ('%' :: rest) = 37 :: unquoteToBytes rest := by
  match rest with
  | [] => rfl
  | [_] => rfl
  | high :: low :: tail => rw [unquoteToBytes, none high low tail rfl]

theorem unescapedBytes_cons {character : Char} (notPercent : character ≠ '%')
    (rest : Text) :
    unescapedBytes (character :: rest) =
      String.utf8EncodeChar character ++ unescapedBytes rest := by
  rw [unescapedBytes]
  simp [notPercent]

theorem unescapedBytes_percent {rest : Text} (none : NoEscape rest) :
    unescapedBytes ('%' :: rest) = 37 :: unescapedBytes rest := by
  match rest with
  | [] => rfl
  | [_] => rfl
  | high :: low :: tail => rw [unescapedBytes, none high low tail rfl]

theorem unquoteToBytes_byte (byte : UInt8) (rest : Text) :
    unquoteToBytes ('%' :: ((byteText byte).map Char.toUpper ++ rest)) =
      byte :: unquoteToBytes rest := by
  have checked : ∀ value : Fin 16,
      digitValue (value : Nat).digitChar.toUpper = some (value : Nat) := by
    decide
  have bound := byte.toNat_lt
  have high := checked ⟨byte.toNat / 16, by omega⟩
  have low := checked ⟨byte.toNat % 16, by omega⟩
  have escape : escapedByte (byte.toNat / 16).digitChar.toUpper
      (byte.toNat % 16).digitChar.toUpper = some byte := by
    rw [escapedByte, high, low]
    have whole : 16 * (byte.toNat / 16) + byte.toNat % 16 = byte.toNat := by
      omega
    change some (UInt8.ofNat (16 * (byte.toNat / 16) + byte.toNat % 16)) = _
    rw [whole, UInt8.ofNat_toNat]
  simp only [byteText, List.map_cons, List.map_nil, List.cons_append,
    List.nil_append]
  rw [unquoteToBytes, escape]

theorem unquoteToBytes_percentEncode (character : Char) (rest : Text) :
    unquoteToBytes (percentEncode character ++ rest) =
      String.utf8EncodeChar character ++ unquoteToBytes rest := by
  rw [percentEncode]
  induction String.utf8EncodeChar character with
  | nil => rfl
  | cons byte bytes ih =>
      rw [List.flatMap_cons, List.append_assoc, List.cons_append,
        unquoteToBytes_byte, ih, List.cons_append]

/-- What is encoded starts with a percent sign. -/
theorem exists_percentEncode (character : Char) :
    ∃ tail, percentEncode character = '%' :: tail := by
  have size := String.length_utf8EncodeChar character
  have positive := character.utf8Size_pos
  rw [percentEncode]
  cases encoded : String.utf8EncodeChar character with
  | nil =>
      rw [encoded, List.length_nil] at size
      omega
  | cons byte bytes => exact ⟨_, rfl⟩

theorem isSome_of_escapedByte {high low : Char} {byte : UInt8}
    (escape : escapedByte high low = some byte) :
    (digitValue high).isSome ∧ (digitValue low).isSome := by
  rw [escapedByte] at escape
  cases first : digitValue high with
  | none => simp [first] at escape
  | some value =>
      cases second : digitValue low with
      | none => simp [first, second] at escape
      | some other => exact ⟨rfl, rfl⟩

theorem ascii_of_isSome {character : Char}
    (digit : (digitValue character).isSome) : character.toNat < 128 := by
  by_contra above
  have none : digitValue character = none := by
    simp only [digitValue]
    split_ifs <;> first | omega | rfl
  rw [none] at digit
  cases digit

theorem ne_percent_of_isSome {character : Char}
    (digit : (digitValue character).isSome) : character ≠ '%' := by
  rintro rfl
  revert digit
  decide

theorem not_encodable_of_isSome {character : Char}
    (digit : (digitValue character).isSome) : ¬ IsEncodable character := by
  intro encodable
  have checked : ∀ code : Fin 128,
      (digitValue (Char.ofNat code)).isSome = true →
        (Char.ofNat code).isAlphanum = true := by
    decide
  have isAlphanum := checked ⟨character.toNat, ascii_of_isSome digit⟩
  rw [Char.ofNat_toNat, encodable.2] at isAlphanum
  exact Bool.noConfusion (isAlphanum digit)

/-- What may not be encoded is left as it is. -/
theorem Encoded.cons {character : Char} {raw encoded : Text}
    (isEncoded : Encoded (character :: raw) encoded)
    (kept : ¬ IsEncodable character) :
    ∃ rest, encoded = character :: rest ∧ Encoded raw rest := by
  cases isEncoded with
  | plain _ _ later => exact ⟨_, rfl, later⟩
  | escaped encodable _ => exact absurd encodable kept

/-- A character that is read, but a percent sign, is one that was written. -/
theorem Encoded.of_cons {character : Char} {raw rest : Text}
    (isEncoded : Encoded raw (character :: rest))
    (notPercent : character ≠ '%') :
    ∃ tail, raw = character :: tail ∧ Encoded tail rest := by
  generalize shape : character :: rest = encoded at isEncoded
  cases isEncoded with
  | nil => cases shape
  | plain _ _ later =>
      obtain ⟨rfl, rfl⟩ := List.cons.inj shape
      exact ⟨_, rfl, later⟩
  | @escaped other _ _ _ _ =>
      obtain ⟨tail, starts⟩ := exists_percentEncode other
      rw [starts, List.cons_append] at shape
      exact absurd (List.cons.inj shape).1 notPercent

theorem Encoded.eq_nil_iff {raw encoded : Text}
    (isEncoded : Encoded raw encoded) : encoded = [] ↔ raw = [] := by
  cases isEncoded with
  | nil => simp
  | plain _ _ _ => simp
  | @escaped character _ _ _ _ =>
      obtain ⟨tail, starts⟩ := exists_percentEncode character
      simp [starts]

theorem Encoded.noEscape_iff {raw encoded : Text}
    (isEncoded : Encoded raw encoded) : NoEscape encoded ↔ NoEscape raw := by
  constructor
  · rintro none high low tail rfl
    by_contra escape
    obtain ⟨byte, escape⟩ := Option.ne_none_iff_exists'.mp escape
    obtain ⟨isHigh, isLow⟩ := isSome_of_escapedByte escape
    obtain ⟨rest, rfl, later⟩ := isEncoded.cons (not_encodable_of_isSome isHigh)
    obtain ⟨others, rfl, -⟩ := later.cons (not_encodable_of_isSome isLow)
    rw [none high low others rfl] at escape
    cases escape
  · rintro none high low tail rfl
    by_contra escape
    obtain ⟨byte, escape⟩ := Option.ne_none_iff_exists'.mp escape
    obtain ⟨isHigh, isLow⟩ := isSome_of_escapedByte escape
    obtain ⟨rest, rfl, later⟩ := isEncoded.of_cons (ne_percent_of_isSome isHigh)
    obtain ⟨others, rfl, -⟩ := later.of_cons (ne_percent_of_isSome isLow)
    rw [none high low others rfl] at escape
    cases escape

/-- What is encoded is decoded, with the escapes that were there before. -/
theorem unquoteToBytes_of_encoded {raw encoded : Text}
    (isEncoded : Encoded raw encoded) :
    unquoteToBytes encoded = unescapedBytes raw := by
  induction isEncoded with
  | nil => rfl
  | @escaped character raw encoded encodable _ ih =>
      have notPercent : character ≠ '%' := by
        rintro rfl
        exact encodable.1 (by decide)
      rw [unquoteToBytes_percentEncode, unescapedBytes_cons notPercent, ih]
  | @plain character raw encoded above below later ih =>
      by_cases percent : character = '%'
      · subst percent
        by_cases none : NoEscape raw
        · rw [unescapedBytes_percent none,
            unquoteToBytes_percent (later.noEscape_iff.mpr none), ih]
        · simp only [NoEscape, not_forall] at none
          obtain ⟨high, low, tail, rfl, escape⟩ := none
          obtain ⟨byte, escape⟩ := Option.ne_none_iff_exists'.mp escape
          obtain ⟨isHigh, isLow⟩ := isSome_of_escapedByte escape
          obtain ⟨rest, shape, afterHigh⟩ :=
            later.cons (not_encodable_of_isSome isHigh)
          obtain ⟨others, rfl, -⟩ :=
            afterHigh.cons (not_encodable_of_isSome isLow)
          rw [shape, unquoteToBytes_cons (ne_percent_of_isSome isHigh),
            unquoteToBytes_cons (ne_percent_of_isSome isLow),
            unescapedBytes_cons (ne_percent_of_isSome isHigh),
            unescapedBytes_cons (ne_percent_of_isSome isLow),
            utf8EncodeChar_ascii (ascii_of_isSome isHigh),
            utf8EncodeChar_ascii (ascii_of_isSome isLow)] at ih
          have tails := (List.cons.inj (List.cons.inj ih).2).2
          rw [shape, unquoteToBytes, unescapedBytes, escape]
          exact congrArg (byte :: ·) tails
      · rw [unquoteToBytes_cons percent, unescapedBytes_cons percent, ih,
          utf8EncodeChar_ascii (by omega), List.singleton_append]

theorem unquoteFrom_of_ascii (ascii : Text) {text : Text}
    (all : ∀ character ∈ text, character.toNat < 128) :
    unquoteFrom ascii text = decodeUtf8 (unquoteToBytes (ascii ++ text)) := by
  induction text generalizing ascii with
  | nil => rw [unquoteFrom, List.append_nil]
  | cons character text ih =>
      rw [unquoteFrom, if_pos (all character List.mem_cons_self),
        ih _ fun other member => all other (List.mem_cons_of_mem _ member),
        List.append_assoc, List.singleton_append]

theorem printable_percentEncode (character : Char) :
    ∀ other ∈ percentEncode character, 32 < other.toNat ∧ other.toNat < 127 := by
  have checked : ∀ value : Fin 16,
      32 < (value : Nat).digitChar.toUpper.toNat ∧
        (value : Nat).digitChar.toUpper.toNat < 127 := by
    decide
  intro other member
  obtain ⟨byte, -, inByte⟩ := List.mem_flatMap.mp member
  have bound := byte.toNat_lt
  simp only [byteText, List.map_cons, List.map_nil, List.mem_cons,
    List.not_mem_nil, or_false] at inByte
  rcases inByte with rfl | rfl | rfl
  · decide
  · exact checked ⟨byte.toNat / 16, by omega⟩
  · exact checked ⟨byte.toNat % 16, by omega⟩

theorem Encoded.printable {raw encoded : Text}
    (isEncoded : Encoded raw encoded) :
    ∀ character ∈ encoded, 32 < character.toNat ∧ character.toNat < 127 := by
  induction isEncoded with
  | nil => exact nofun
  | plain above below _ ih =>
      intro other member
      rcases List.mem_cons.mp member with rfl | later
      · exact ⟨above, below⟩
      · exact ih other later
  | @escaped character _ _ _ _ ih =>
      intro other member
      rcases List.mem_append.mp member with first | later
      · exact printable_percentEncode character other first
      · exact ih other later

theorem unquote_of_encoded {raw encoded : Text}
    (isEncoded : Encoded raw encoded) : unquote encoded = unescaped raw := by
  have ascii : ∀ character ∈ encoded, character.toNat < 128 := by
    intro character member
    have printable := isEncoded.printable character member
    omega
  rw [unquote, unquoteFrom_of_ascii [] ascii, List.nil_append,
    unquoteToBytes_of_encoded isEncoded, unescaped]

end Decoding

section Lengths

theorem decodeUtf8_cons_of_not_first {first : UInt8}
    (isTail : ¬ first.IsUTF8FirstByte) (rest : List UInt8) :
    decodeUtf8 (first :: rest) = replacement :: decodeUtf8 rest := by
  have undecoded : (first :: rest).toByteArray.utf8DecodeChar? 0 = none := by
    by_contra decoded
    have starts := ByteArray.isUTF8FirstByte_of_isSome_utf8DecodeChar?
      (Option.isSome_iff_ne_none.mpr decoded)
    rw [List.getElem_toByteArray] at starts
    exact isTail starts
  have outside : first.toNat < 224 ∨ 245 ≤ first.toNat := by
    have checked : ∀ code : Fin 256, ¬ (UInt8.ofNat code).IsUTF8FirstByte →
        (code : Nat) < 224 ∨ 245 ≤ (code : Nat) := by
      decide +kernel
    have found := checked ⟨first.toNat, first.toNat_lt⟩
    rw [UInt8.ofNat_toNat] at found
    exact found isTail
  have single : invalidLength (first :: rest) = 1 := by
    match rest with
    | [] => rfl
    | [_] => rw [invalidLength, if_neg (by omega)]
    | _ :: _ :: _ => rw [invalidLength, if_neg (by omega), if_neg (by omega)]
  rw [decodeUtf8, decodeFrom, undecoded]
  simp only [single]
  rfl

/-- Bytes that start no character are decoded to a character each, unless they
are skipped. -/
theorem length_decodeFrom_le {skipped : Nat} {bytes : List UInt8}
    (tails : ∀ byte ∈ bytes.take skipped, ¬ byte.IsUTF8FirstByte) :
    (decodeFrom skipped bytes).length ≤ (decodeUtf8 bytes).length := by
  induction bytes generalizing skipped with
  | nil => cases skipped <;> rfl
  | cons byte bytes ih =>
      cases skipped with
      | zero => rfl
      | succ skipped =>
          rw [List.take_succ_cons] at tails
          have later := ih fun other member =>
            tails other (List.mem_cons_of_mem _ member)
          rw [decodeFrom, decodeUtf8_cons_of_not_first
            (tails byte List.mem_cons_self), List.length_cons]
          omega

theorem not_first_of_mem_tail {character : Char} {first : UInt8}
    {tail : List UInt8}
    (encoded : String.utf8EncodeChar character = first :: tail) :
    ∀ byte ∈ tail, ¬ byte.IsUTF8FirstByte := by
  intro byte member
  obtain ⟨index, inside, rfl⟩ := List.getElem_of_mem member
  have bound : index + 1 < (String.utf8EncodeChar character).length := by
    rw [encoded, List.length_cons]
    omega
  have starts := @UInt8.isUTF8FirstByte_getElem_utf8EncodeChar character
    (index + 1) bound
  have same : (String.utf8EncodeChar character)[index + 1] = tail[index] := by
    simp [encoded]
  rw [same] at starts
  rw [starts]
  omega

/-- What follows an invalid byte and is replaced with it starts no character. -/
theorem not_first_of_mem_invalid {first : UInt8} {rest : List UInt8} :
    ∀ byte ∈ rest.take (invalidLength (first :: rest) - 1),
      ¬ byte.IsUTF8FirstByte := by
  have continuation : ∀ byte : UInt8, 128 ≤ byte.toNat → byte.toNat < 192 →
      ¬ byte.IsUTF8FirstByte := by
    have checked : ∀ code : Fin 256, 128 ≤ (code : Nat) → (code : Nat) < 192 →
        ¬ (UInt8.ofNat code).IsUTF8FirstByte := by
      decide +kernel
    intro byte above below
    have found := checked ⟨byte.toNat, byte.toNat_lt⟩ above below
    rwa [UInt8.ofNat_toNat] at found
  have second : ∀ {byte : UInt8}, isSecond first byte = true →
      ¬ byte.IsUTF8FirstByte := by
    intro byte follows
    simp only [isSecond, isContinuation] at follows
    split_ifs at follows <;>
    · simp only [Bool.and_eq_true, decide_eq_true_eq] at follows
      exact continuation byte (by omega) (by omega)
  have third : ∀ {byte : UInt8}, isContinuation byte = true →
      ¬ byte.IsUTF8FirstByte := by
    intro byte follows
    simp only [isContinuation, Bool.and_eq_true, decide_eq_true_eq] at follows
    exact continuation byte follows.1 follows.2
  match rest with
  | [] => simp
  | [other] =>
      rw [invalidLength]
      split
      next follows => simpa using second follows.2.2
      next => simp
  | other :: another :: _ =>
      rw [invalidLength]
      split
      next follows =>
        split
        next continues => simpa using ⟨second follows.2.2, third continues⟩
        next => simpa using second follows.2.2
      next =>
        split
        next follows => simpa using second follows.2.2
        next => simp

/-- A byte adds at most one character in front. -/
theorem length_decodeUtf8_cons_le (first : UInt8) (rest : List UInt8) :
    (decodeUtf8 (first :: rest)).length ≤ (decodeUtf8 rest).length + 1 := by
  rw [decodeUtf8, decodeFrom]
  cases decoded : (first :: rest).toByteArray.utf8DecodeChar? 0 with
  | none =>
      dsimp only
      rw [List.length_cons]
      have later := length_decodeFrom_le (@not_first_of_mem_invalid first rest)
      omega
  | some character =>
      dsimp only
      rw [List.length_cons]
      obtain ⟨others, bytes⟩ :=
        ByteArray.exists_of_utf8DecodeChar?_eq_some decoded
      have split : first :: rest =
          String.utf8EncodeChar character ++ others.data.toList := by
        have lists := congrArg (fun array => array.data.toList) bytes
        simpa using lists
      have size := String.length_utf8EncodeChar character
      have positive := character.utf8Size_pos
      cases encoded : String.utf8EncodeChar character with
      | nil =>
          rw [encoded, List.length_nil] at size
          omega
      | cons head tail =>
          rw [encoded, List.cons_append] at split
          obtain ⟨rfl, rfl⟩ := List.cons.inj split
          rw [encoded, List.length_cons] at size
          have tails := not_first_of_mem_tail encoded
          have later := @length_decodeFrom_le (character.utf8Size - 1)
            (tail ++ others.data.toList) fun byte member => tails byte (by
              rwa [show character.utf8Size - 1 = tail.length by omega,
                List.take_left] at member)
          omega

/-- No percent sign is followed by two digits of an escape. -/
def NoEscapes (text : Text) : Prop :=
  ∀ high low, (digitValue high).isSome → (digitValue low).isSome →
    ¬ ['%', high, low] <:+: text

theorem noEscapes_cons {character : Char} {rest : Text} :
    NoEscapes (character :: rest) ↔
      NoEscapes rest ∧ (character = '%' → NoEscape rest) := by
  constructor
  · intro none
    refine ⟨fun high low isHigh isLow found =>
      none high low isHigh isLow
        (found.trans (List.suffix_cons _ _).isInfix), ?_⟩
    rintro rfl high low tail rfl
    by_contra escape
    obtain ⟨byte, escape⟩ := Option.ne_none_iff_exists'.mp escape
    obtain ⟨isHigh, isLow⟩ := isSome_of_escapedByte escape
    exact none high low isHigh isLow ⟨[], tail, rfl⟩
  · rintro ⟨later, here⟩ high low isHigh isLow found
    rcases List.infix_cons_iff.mp found with starts | inside
    · obtain ⟨rfl, tail, rfl⟩ := List.cons_prefix_cons.mp starts
      have escape := here rfl high low tail rfl
      obtain ⟨first, isFirst⟩ := Option.isSome_iff_exists.mp isHigh
      obtain ⟨second, isSecond⟩ := Option.isSome_iff_exists.mp isLow
      rw [escapedByte, isFirst, isSecond] at escape
      cases escape
    · exact later high low isHigh isLow inside

theorem unescaped_cons {character : Char} {rest : Text}
    (here : character = '%' → NoEscape rest) :
    unescaped (character :: rest) = character :: unescaped rest := by
  have percent : ∀ bytes, decodeUtf8 (37 :: bytes) = '%' :: decodeUtf8 bytes :=
    decodeUtf8_encodeChar_append '%'
  by_cases isPercent : character = '%'
  · subst isPercent
    rw [unescaped, unescapedBytes_percent (here rfl), percent, unescaped]
  · rw [unescaped, unescapedBytes_cons isPercent,
      decodeUtf8_encodeChar_append, unescaped]

theorem unescaped_cases_cons {character : Char} {rest : Text}
    (here : character = '%' → NoEscape rest)
    (later : NoEscapes rest ∧ unescaped rest = rest ∨
      ¬ NoEscapes rest ∧ (unescaped rest).length < rest.length) :
    NoEscapes (character :: rest) ∧
        unescaped (character :: rest) = character :: rest ∨
      ¬ NoEscapes (character :: rest) ∧
        (unescaped (character :: rest)).length < (character :: rest).length := by
  rw [unescaped_cons here, noEscapes_cons]
  rcases later with ⟨none, same⟩ | ⟨some, less⟩
  · exact .inl ⟨⟨none, here⟩, by rw [same]⟩
  · refine .inr ⟨fun none => some none.1, ?_⟩
    simp only [List.length_cons]
    omega

/-- A text without escapes is left as it is, and with one it gets shorter. -/
theorem unescaped_cases (text : Text) :
    NoEscapes text ∧ unescaped text = text ∨
      ¬ NoEscapes text ∧ (unescaped text).length < text.length := by
  induction text using unescapedBytes.induct with
  | case1 => exact .inl ⟨fun _ _ _ _ found => by simp at found, rfl⟩
  | case2 high low rest byte escape ih =>
      refine .inr ⟨fun none => ?_, ?_⟩
      · have absent := (noEscapes_cons.mp none).2 rfl high low rest rfl
        rw [escape] at absent
        cases absent
      · have shorter := length_decodeUtf8_cons_le byte (unescapedBytes rest)
        have length : (unescaped rest).length ≤ rest.length := by
          rcases ih with ⟨-, same⟩ | ⟨-, less⟩
          · rw [same]
          · exact less.le
        rw [unescaped] at length
        rw [unescaped, unescapedBytes, escape]
        simp only [List.length_cons]
        omega
  | case3 high low rest none ih =>
      refine unescaped_cases_cons (fun _ first second tail shape => ?_) ih
      obtain ⟨sameHigh, rests⟩ := List.cons.inj shape
      obtain ⟨sameLow, -⟩ := List.cons.inj rests
      rw [← sameHigh, ← sameLow]
      exact none
  | case4 character rest short ih =>
      refine unescaped_cases_cons (fun isPercent first second tail shape => ?_) ih
      exact (short first second tail isPercent shape).elim

theorem length_unescaped_le (text : Text) :
    (unescaped text).length ≤ text.length := by
  rcases unescaped_cases text with ⟨-, same⟩ | ⟨-, less⟩
  · rw [same]
  · exact less.le

theorem noEscape_append_question {front back : Text} :
    NoEscape (front ++ '?' :: back) ↔ NoEscape front := by
  have notDigit : ∀ first, escapedByte first '?' = none := by
    intro first
    rw [escapedByte]
    cases digitValue first <;> rfl
  match front with
  | [] =>
      refine iff_of_true (fun high low tail shape => ?_) nofun
      obtain ⟨rfl, -⟩ := List.cons.inj shape
      rfl
  | [first] =>
      refine iff_of_true (fun high low tail shape => ?_) nofun
      obtain ⟨-, rest⟩ := List.cons.inj shape
      obtain ⟨rfl, -⟩ := List.cons.inj rest
      exact notDigit high
  | first :: second :: front =>
      constructor
      · rintro none high low tail ⟨⟩
        exact none _ _ _ rfl
      · rintro none high low tail ⟨⟩
        exact none _ _ _ rfl

/-- No escape goes over a question mark. -/
theorem noEscapes_append_question {front back : Text} :
    NoEscapes (front ++ '?' :: back) ↔ NoEscapes front ∧ NoEscapes back := by
  induction front with
  | nil =>
      have empty : NoEscapes [] := fun _ _ _ _ found => by simp at found
      rw [List.nil_append, noEscapes_cons]
      simp [empty]
  | cons first front ih =>
      rw [List.cons_append, noEscapes_cons, noEscapes_cons, ih,
        noEscape_append_question]
      tauto

end Lengths

section Splitting

theorem not_delimiter_of_mem_percentEncode {character other : Char}
    (member : other ∈ percentEncode character) : other ∉ "/?#".toList := by
  have checked : ∀ value : Fin 16,
      (value : Nat).digitChar.toUpper ∉ "/?#".toList := by
    decide
  obtain ⟨byte, -, inByte⟩ := List.mem_flatMap.mp member
  have bound := byte.toNat_lt
  simp only [byteText, List.map_cons, List.map_nil, List.mem_cons,
    List.not_mem_nil, or_false] at inByte
  rcases inByte with rfl | rfl | rfl
  · decide
  · exact checked ⟨byte.toNat / 16, by omega⟩
  · exact checked ⟨byte.toNat % 16, by omega⟩

/-- A delimiter splits an encoded text where it splits the text. -/
theorem Encoded.span {raw encoded : Text} (isEncoded : Encoded raw encoded)
    {isInside : Char → Bool}
    (inside : ∀ character, character ∉ "/?#".toList →
      isInside character = true) :
    Encoded (raw.takeWhile isInside) (encoded.takeWhile isInside) ∧
      Encoded (raw.dropWhile isInside) (encoded.dropWhile isInside) := by
  induction isEncoded with
  | nil => exact ⟨.nil, .nil⟩
  | @plain character raw encoded above below later ih =>
      rw [List.takeWhile_cons, List.takeWhile_cons, List.dropWhile_cons,
        List.dropWhile_cons]
      split
      · exact ⟨.plain above below ih.1, ih.2⟩
      · exact ⟨.nil, .plain above below later⟩
  | @escaped character raw encoded encodable later ih =>
      have delimiters : "%/?#:".toList = '%' :: "/?#".toList ++ [':'] := by
        decide
      have kept : isInside character = true := by
        refine inside character fun member => encodable.1 ?_
        rw [delimiters]
        exact List.mem_append_left _ (List.mem_cons_of_mem _ member)
      have keptEncoded : ∀ other ∈ percentEncode character,
          isInside other = true := fun other member =>
        inside other (not_delimiter_of_mem_percentEncode member)
      rw [List.takeWhile_cons_of_pos kept, List.dropWhile_cons_of_pos kept,
        List.takeWhile_append_of_pos keptEncoded,
        List.dropWhile_append_of_pos keptEncoded]
      exact ⟨.escaped encodable ih.1, ih.2⟩

end Splitting

section Dots

def isDot (segment : Text) : Bool := isDoubleDot segment || isSingleDot segment

theorem length_pos_of_isDot {segment : Text} (dot : isDot segment = true) :
    0 < segment.length := by
  rw [List.length_pos_iff]
  rintro rfl
  revert dot
  decide

theorem length_joinSegments_cons (segment : Text) (segments : List Text) :
    (joinSegments (segment :: segments)).length =
      segment.length + 1 + (joinSegments segments).length := by
  rw [joinSegments, List.flatMap_cons, List.length_append, List.length_cons,
    joinSegments]

theorem length_joinSegments_reverse (segments : List Text) :
    (joinSegments segments.reverse).length = (joinSegments segments).length := by
  simp only [joinSegments, List.length_flatMap, List.map_reverse,
    List.sum_reverse]

theorem length_joinSegments_append (first second : List Text) :
    (joinSegments (first ++ second)).length =
      (joinSegments first).length + (joinSegments second).length := by
  rw [joinSegments, List.flatMap_append, List.length_append, joinSegments,
    joinSegments]

theorem length_joinSegments_tail_le (segments : List Text) :
    (joinSegments segments.tail).length ≤ (joinSegments segments).length := by
  cases segments with
  | nil => rfl
  | cons segment segments =>
      rw [List.tail_cons, length_joinSegments_cons]
      omega

/-- Segments without dots are kept, and with dots they get shorter. -/
theorem resolveDots_cases (kept : List Text) {segments : List Text}
    (nonempty : segments ≠ []) :
    (∀ segment ∈ segments, isDot segment = false) ∧
        resolveDots kept segments = kept.reverse ++ segments ∨
      (∃ segment ∈ segments, isDot segment = true) ∧
        (joinSegments (resolveDots kept segments)).length <
          (joinSegments kept).length + (joinSegments segments).length := by
  induction kept, segments using resolveDots.induct with
  | case1 kept => exact absurd rfl nonempty
  | case2 kept last double =>
      have dot : isDot last = true := by simp [isDot, double]
      have positive := length_pos_of_isDot dot
      have shorter := length_joinSegments_tail_le kept
      refine .inr ⟨⟨last, List.mem_cons_self, dot⟩, ?_⟩
      rw [resolveDots, if_pos double, length_joinSegments_reverse,
        length_joinSegments_cons, length_joinSegments_cons]
      simp only [List.length_nil]
      omega
  | case3 kept last notDouble single =>
      have dot : isDot last = true := by simp [isDot, single]
      have positive := length_pos_of_isDot dot
      refine .inr ⟨⟨last, List.mem_cons_self, dot⟩, ?_⟩
      rw [resolveDots, if_neg notDouble, if_pos single,
        length_joinSegments_reverse, length_joinSegments_cons,
        length_joinSegments_cons]
      simp only [List.length_nil]
      omega
  | case4 kept last notDouble notSingle =>
      left
      rw [resolveDots, if_neg notDouble, if_neg notSingle, List.reverse_cons]
      simp_all [isDot]
  | case5 kept segment next rest double ih =>
      have dot : isDot segment = true := by simp [isDot, double]
      have positive := length_pos_of_isDot dot
      have shorter := length_joinSegments_tail_le kept
      refine .inr ⟨⟨segment, List.mem_cons_self, dot⟩, ?_⟩
      rw [resolveDots, if_pos double, length_joinSegments_cons]
      rcases ih (by simp) with ⟨-, same⟩ | ⟨-, less⟩
      · rw [same, length_joinSegments_append, length_joinSegments_reverse]
        omega
      · omega
  | case6 kept segment next rest notDouble single ih =>
      have dot : isDot segment = true := by simp [isDot, single]
      have positive := length_pos_of_isDot dot
      refine .inr ⟨⟨segment, List.mem_cons_self, dot⟩, ?_⟩
      rw [resolveDots, if_neg notDouble, if_pos single, length_joinSegments_cons]
      rcases ih (by simp) with ⟨-, same⟩ | ⟨-, less⟩
      · rw [same, length_joinSegments_append, length_joinSegments_reverse]
        omega
      · omega
  | case7 kept segment next rest notDouble notSingle ih =>
      rw [resolveDots, if_neg notDouble, if_neg notSingle]
      rcases ih (by simp) with ⟨none, same⟩ | ⟨⟨other, inRest, dot⟩, less⟩
      · left
        rw [same, List.reverse_cons]
        simp_all [isDot]
      · refine .inr ⟨⟨other, List.mem_cons_of_mem _ inRest, dot⟩, ?_⟩
        rw [length_joinSegments_cons] at less ⊢
        omega

theorem resolveDots_ne_nil (kept : List Text) {segments : List Text}
    (nonempty : segments ≠ []) : resolveDots kept segments ≠ [] := by
  induction kept, segments using resolveDots.induct with
  | case1 => exact absurd rfl nonempty
  | case2 kept last double => simp [resolveDots, double]
  | case3 kept last notDouble single => simp [resolveDots, notDouble, single]
  | case4 kept last notDouble notSingle =>
      simp [resolveDots, notDouble, notSingle]
  | case5 kept segment next rest double ih =>
      rw [resolveDots, if_pos double]
      exact ih (by simp)
  | case6 kept segment next rest notDouble single ih =>
      rw [resolveDots, if_neg notDouble, if_pos single]
      exact ih (by simp)
  | case7 kept segment next rest notDouble notSingle ih =>
      rw [resolveDots, if_neg notDouble, if_neg notSingle]
      exact ih (by simp)

/-- A segment that is left is empty or was there before. -/
theorem of_mem_resolveDots {kept segments : List Text} {segment : Text}
    (member : segment ∈ resolveDots kept segments) :
    segment = [] ∨ segment ∈ kept ∨ segment ∈ segments := by
  induction kept, segments using resolveDots.induct with
  | case1 kept => exact .inr (.inl (List.mem_reverse.mp member))
  | case2 kept last double =>
      rw [resolveDots, if_pos double, List.mem_reverse] at member
      rcases List.mem_cons.mp member with empty | inTail
      · exact .inl empty
      · exact .inr (.inl (List.mem_of_mem_tail inTail))
  | case3 kept last notDouble single =>
      rw [resolveDots, if_neg notDouble, if_pos single, List.mem_reverse]
        at member
      rcases List.mem_cons.mp member with empty | inKept
      · exact .inl empty
      · exact .inr (.inl inKept)
  | case4 kept last notDouble notSingle =>
      rw [resolveDots, if_neg notDouble, if_neg notSingle, List.mem_reverse]
        at member
      rcases List.mem_cons.mp member with rfl | inKept
      · exact .inr (.inr List.mem_cons_self)
      · exact .inr (.inl inKept)
  | case5 kept other next rest double ih =>
      rw [resolveDots, if_pos double] at member
      rcases ih member with empty | inTail | inRest
      · exact .inl empty
      · exact .inr (.inl (List.mem_of_mem_tail inTail))
      · exact .inr (.inr (List.mem_cons_of_mem _ inRest))
  | case6 kept other next rest notDouble single ih =>
      rw [resolveDots, if_neg notDouble, if_pos single] at member
      rcases ih member with empty | inKept | inRest
      · exact .inl empty
      · exact .inr (.inl inKept)
      · exact .inr (.inr (List.mem_cons_of_mem _ inRest))
  | case7 kept other next rest notDouble notSingle ih =>
      rw [resolveDots, if_neg notDouble, if_neg notSingle] at member
      rcases ih member with empty | inKept | inRest
      · exact .inl empty
      · rcases List.mem_cons.mp inKept with rfl | inKept
        · exact .inr (.inr List.mem_cons_self)
        · exact .inr (.inl inKept)
      · exact .inr (.inr (List.mem_cons_of_mem _ inRest))

theorem joinSegments_splitOn (text : Text) :
    joinSegments (text.splitOn '/') = '/' :: text := by
  have joined : ∀ {segments : List Text}, segments ≠ [] →
      joinSegments segments = '/' :: ['/'].intercalate segments := by
    intro segments nonempty
    induction segments with
    | nil => exact absurd rfl nonempty
    | cons segment rest ih =>
        cases rest with
        | nil => simp [joinSegments, List.intercalate_singleton]
        | cons next rest =>
            have later := ih (by simp)
            rw [List.intercalate_cons_cons, joinSegments, List.flatMap_cons,
              ← joinSegments, later]
            simp
  have nonempty : text.splitOn '/' ≠ [] := List.splitOnP_ne_nil _ _
  rw [joined nonempty, List.intercalate_splitOn]

end Dots

section Targets

/-- The text of a target before it is encoded. -/
def Url.rawTarget (url : Url) : Text :=
  joinSegments url.path ++ url.query.elim [] fun query => '?' :: query

theorem Url.encoded_target (url : Url)
    (path : ∀ segment ∈ url.path, ∀ character ∈ segment,
      character ≠ '?' ∧ character ≠ '#')
    (query : ∀ query, url.query = some query → '#' ∉ query) :
    Encoded url.rawTarget url.target := by
  have pathEncoded : Encoded (joinSegments url.path)
      (encodeWith isPathEncoded (joinSegments url.path)) := by
    refine encoded_encodeWith encodes_path fun character member => ?_
    obtain ⟨segment, inPath, inSegment⟩ := List.mem_flatMap.mp member
    rcases List.mem_cons.mp inSegment with rfl | inSegment
    · decide
    · exact path segment inPath character inSegment
  refine pathEncoded.append ?_
  cases asked : url.query with
  | none => exact .nil
  | some text =>
      refine .plain (by decide) (by decide) ?_
      exact encoded_encodeWith encodes_query fun character member =>
        fun isHash => query text asked (isHash ▸ member)

end Targets

section Origins

/-- Where a server is found. -/
structure Origin where
  isSecure : Bool
  authority : Text
  nonempty : authority ≠ []
  plain : ∀ character ∈ authority, 32 < character.toNat ∧
    isAuthorityCharacter character = true

def Origin.scheme (origin : Origin) : Text :=
  if origin.isSecure then "https".toList else "http".toList

def Origin.text (origin : Origin) : Text :=
  origin.scheme ++ "://".toList ++ origin.authority

theorem Origin.scheme_cases (origin : Origin) :
    origin.scheme = "https".toList ∨ origin.scheme = "http".toList := by
  rw [Origin.scheme]
  split
  · exact .inl rfl
  · exact .inr rfl

theorem Origin.exists_text (origin : Origin) :
    ∃ rest, origin.text = 'h' :: rest := by
  rw [Origin.text]
  rcases origin.scheme_cases with scheme | scheme <;>
  · rw [scheme]
    exact ⟨_, rfl⟩

theorem Origin.printable_text (origin : Origin) :
    ∀ character ∈ origin.text, 32 < character.toNat := by
  intro character member
  rw [Origin.text] at member
  rcases List.mem_append.mp member with inFront | inAuthority
  · have checked : (("https".toList ++ "://".toList).all fun other =>
        decide (32 < other.toNat)) = true ∧
        (("http".toList ++ "://".toList).all fun other =>
          decide (32 < other.toNat)) = true := by
      decide
    rcases origin.scheme_cases with scheme | scheme
    · rw [scheme] at inFront
      simpa using List.all_eq_true.mp checked.1 character inFront
    · rw [scheme] at inFront
      simpa using List.all_eq_true.mp checked.2 character inFront
  · exact (origin.plain character inAuthority).1

theorem trimEnd_append_cons (front : Text) {last : Char}
    (printed : 32 < last.toNat) (path : Text) :
    trimEnd (front ++ last :: path) = front ++ last :: trimEnd path := by
  have kept : (last :: front.reverse).dropWhile
      (fun character => character.toNat ≤ 32) = last :: front.reverse :=
    List.dropWhile_cons_of_neg (by simpa using printed)
  have reversed : (front ++ last :: path).reverse =
      path.reverse ++ last :: front.reverse := by
    simp
  rw [trimEnd, reversed, List.dropWhile_append]
  split
  next empty =>
    rw [kept, trimEnd]
    simp_all
  next => simp [trimEnd]

theorem mem_of_mem_trimEnd {text : Text} {character : Char}
    (member : character ∈ trimEnd text) : character ∈ text := by
  rw [trimEnd, List.mem_reverse] at member
  exact List.mem_reverse.mp ((List.dropWhile_suffix _).mem member)

theorem trimInput_origin (origin : Origin) {path : Text}
    (plain : ∀ character ∈ path, character.toNat ∉ [9, 10, 13]) :
    trimInput (origin.text ++ '/' :: 'g' :: path) =
      origin.text ++ '/' :: 'g' :: trimEnd path := by
  obtain ⟨rest, starts⟩ := origin.exists_text
  have front : (origin.text ++ '/' :: 'g' :: path).dropWhile
      (fun character => character.toNat ≤ 32) =
        origin.text ++ '/' :: 'g' :: path := by
    rw [starts, List.cons_append, List.dropWhile_cons_of_neg (by decide)]
  have back : trimEnd (origin.text ++ '/' :: 'g' :: path) =
      origin.text ++ '/' :: 'g' :: trimEnd path := by
    have trimmed := trimEnd_append_cons (origin.text ++ ['/'])
      (by decide : 32 < 'g'.toNat) path
    simpa using trimmed
  rw [trimInput, front, back, List.filter_eq_self]
  intro character member
  rcases List.mem_append.mp member with inOrigin | inPath
  · have printable := origin.printable_text character inOrigin
    simp
    omega
  · rcases List.mem_cons.mp inPath with rfl | inPath
    · decide
    · rcases List.mem_cons.mp inPath with rfl | inPath
      · decide
      · simpa using plain character (mem_of_mem_trimEnd inPath)

theorem parse_origin (origin : Origin) {path : Text}
    (plain : ∀ character ∈ path, character.toNat ∉ [9, 10, 13]) :
    parse (origin.text ++ '/' :: 'g' :: path) =
      some
        { scheme := origin.scheme
          authority := origin.authority
          path := resolveDots [] ((slashed ('g' ::
            (trimEnd path).takeWhile isPathCharacter)).splitOn '/')
          query := queryOf (trimEnd path) } := by
  have shape : origin.text ++ '/' :: 'g' :: trimEnd path =
      origin.scheme ++ ':' :: '/' :: '/' ::
        (origin.authority ++ '/' :: 'g' :: trimEnd path) := by
    simp [Origin.text]
  have noColon : ':' ∉ origin.scheme := by
    rcases origin.scheme_cases with scheme | scheme <;> rw [scheme] <;> decide
  have lower : origin.scheme.map Char.toLower = origin.scheme := by
    rcases origin.scheme_cases with scheme | scheme <;> rw [scheme] <;> decide
  have known : origin.scheme ∈ ["http".toList, "https".toList] := by
    rcases origin.scheme_cases with scheme | scheme <;> rw [scheme] <;> simp
  have authority : ∀ rest : Text,
      (origin.authority ++ '/' :: rest).takeWhile isAuthorityCharacter =
          origin.authority ∧
        (origin.authority ++ '/' :: rest).dropWhile isAuthorityCharacter =
          '/' :: rest := by
    intro rest
    have inside := fun character member => (origin.plain character member).2
    rw [List.takeWhile_append_of_pos inside, List.dropWhile_append_of_pos inside]
    simp [isAuthorityCharacter, isSlash]
  have unslashed : ('/' :: '/' :: (origin.authority ++
      '/' :: 'g' :: trimEnd path)).dropWhile isSlash =
        origin.authority ++ '/' :: 'g' :: trimEnd path := by
    rw [List.dropWhile_cons_of_pos (by decide),
      List.dropWhile_cons_of_pos (by decide)]
    cases shape : origin.authority with
    | nil => exact absurd shape origin.nonempty
    | cons first rest =>
        have inside := (origin.plain first (by simp [shape])).2
        rw [List.cons_append, List.dropWhile_cons_of_neg]
        intro slash
        simp [isAuthorityCharacter, slash] at inside
  rw [parse, trimInput_origin origin plain, shape,
    ResponseTrailer.beforeColon_append noColon,
    ResponseTrailer.afterColon_append noColon, lower, unslashed,
    if_pos ⟨by simp, known⟩]
  dsimp only
  rw [(authority _).1, (authority _).2]
  rfl

end Origins

end UrlStandard

end RefinetPillars
