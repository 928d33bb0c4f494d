import RefinetPillars.HttpGateway

/-!
# Answers of the gateway and their readers

A client in JavaScript and the monitor read the signature of an answer from its
headers.  They agree with what was signed when the selector goes through lines,
trimming and the encoding of headers unchanged.
-/

namespace RefinetPillars

namespace HttpGateway

open HexText LineText DecimalText KeyRecovery ContentSigning
open ResponseTrailer hiding trailerFields

section Readers

/-- Headers are found in whatever case. -/
def header (name : Text) (headers : List (Text × Text)) : Option Text :=
  (headers.find? fun entry =>
    entry.1.map Char.toLower = name.map Char.toLower).map Prod.snd

/-- `hexToBytes` of the client, in which `0x` may stand before the digits. -/
def hexToBytes (hex : Text) : Option (List UInt8) :=
  let clean := if "0x".toList.isPrefixOf hex then hex.drop 2 else hex
  if clean.all (fun character => (digitValue character).isSome) = true then
    fromHex clean
  else none

/-- What the client finds out about an answer. -/
structure AnswerReport where
  pid : Text
  selector : Option Text
  time : Option Text
  pidValid : Bool
  hashValid : Bool
  bodySignatureValid : Bool
  envelopeValid : Option Bool
deriving DecidableEq

/-- The envelope is required. -/
def AnswerReport.valid (report : AnswerReport) : Bool :=
  report.pidValid && report.hashValid && report.bodySignatureValid &&
    report.envelopeValid = some true

variable (scheme : Scheme) (numberText : Text → Text)

def verifyEd25519 (signatureHex : Text) (message : List UInt8)
    (publicKeyHex : Text) : Bool :=
  match hexToBytes publicKeyHex, hexToBytes signatureHex with
  | some publicKey, some signature => scheme.verify publicKey signature message
  | _, _ => false

/-- `pidMatchesKey` of the client. -/
def pidHashesKey (pid publicKeyHex : Text) : Bool :=
  match hexToBytes publicKeyHex with
  | some publicKey => toHex (scheme.sha256 publicKey) = pid.map Char.toLower
  | none => false

/-- `verifyAnswer`; `numberText` is how a number that is read from a text is
printed again. -/
def verifyAnswer (body : List UInt8) (headers : List (Text × Text)) :
    AnswerReport :=
  let pid := (header "X-Refinet-Pid".toList headers).getD []
  let publicKeyHex := (header "X-Refinet-Pubkey".toList headers).getD []
  let hash := hashContent scheme body
  let selector := header "X-Refinet-Selector".toList headers
  let time := ((header "X-Refinet-Time".toList headers).filter fun value =>
    value ≠ []).map numberText
  { pid := pid
    selector := selector
    time := time
    pidValid := pidHashesKey scheme pid publicKeyHex
    hashValid := header "X-Refinet-Hash".toList headers = some hash
    bodySignatureValid := verifyEd25519 scheme
      ((header "X-Refinet-Sig".toList headers).getD []) body publicKeyHex
    envelopeValid :=
      if header "X-Refinet-V".toList headers = some ['1'] then
        some (verifyEd25519 scheme
          ((header "X-Refinet-Sig1".toList headers).getD [])
          (domainPreimage domainResponse
            [pid, selector.getD [], time.getD "null".toList, hash])
          publicKeyHex)
      else none }

def probeMaxSkewSec : ℚ := 600

/-- `verify_probe` of the monitor. -/
def verifyProbe (pid : Text) (headers : List (Text × Text))
    (body : List UInt8) (now : ℚ) : Bool :=
  let field := fun name : String => (header name.toList headers).getD []
  let bodyHash := hashContent scheme body
  if field "X-Refinet-Pid" ≠ pid then false
  else if pidMatchesKey scheme pid (field "X-Refinet-Pubkey") = false then false
  else if field "X-Refinet-Hash" ≠ bodyHash then false
  else
    match int (field "X-Refinet-Time") with
    | none => false
    | some signedAt =>
        if probeMaxSkewSec < |now - signedAt| then false
        else
          verifyDomain scheme domainResponse (field "X-Refinet-Sig1")
            (field "X-Refinet-Pubkey")
            [pid, field "X-Refinet-Selector", intText signedAt, bodyHash]

end Readers

section Answers

variable (scheme : Scheme) (numberText : Text → Text)
  (privateKey : List UInt8)

/-- The headers of the answer of a selector with a body. -/
def servedHeaders (body selector : Text) (unixTime : Nat) :
    List (Text × Text) :=
  answerHeaders (buildSignatureTrailer scheme (encodeUtf8 body) privateKey
    (pidOf scheme (scheme.publicKey privateKey))
    (toHex (scheme.publicKey privateKey)) (signedSelector selector) unixTime)

/-- Both readers accept an answer, with the selector that was routed. -/
structure AnswerVerifies (body selector : Text) (unixTime : Nat) : Prop where
  client : (verifyAnswer scheme numberText (encodeUtf8 body)
    (servedHeaders scheme privateKey body selector unixTime)).valid = true
  monitor : ∀ now : ℚ, |now - unixTime| ≤ probeMaxSkewSec →
    verifyProbe scheme (pidOf scheme (scheme.publicKey privateKey))
      (servedHeaders scheme privateKey body selector unixTime)
      (encodeUtf8 body) now = true
  reported : header "X-Refinet-Selector".toList
    (servedHeaders scheme privateKey body selector unixTime) =
      some (signedSelector selector)

/-- A text that lines, trimming and headers leave as it is. -/
structure Unchanged (text : Text) : Prop where
  unbroken : ∀ character ∈ text, isLineBreak character = false
  stripped : strip text = text
  latin1 : isLatin1 text = true

end Answers

section Changes

/-- A text without line breaks and blanks in Latin-1 is left as it is. -/
theorem unchanged_of_all {text : Text}
    (plain : ∀ character ∈ text, isLineBreak character = false ∧
      isSpace character = false ∧ character.toNat < 256) : Unchanged text where
  unbroken character member := (plain character member).1
  stripped := strip_eq_self
    (fun first atHead => (plain first (List.mem_of_mem_head? atHead)).2.1)
    (fun last atEnd => (plain last (List.mem_of_getLast? atEnd)).2.1)
  latin1 := List.all_eq_true.mpr fun character member =>
    decide_eq_true (plain character member).2.2

/-- What stands in an encoded text. -/
theorem plain_quoteByte (byte : UInt8) :
    ∀ character ∈ quoteByte byte, isLineBreak character = false ∧
      isSpace character = false ∧ character.toNat < 256 := by
  have checkedSafe : ∀ code : Fin 128,
      isQuoteSafe (Char.ofNat code) = true →
        isLineBreak (Char.ofNat code) = false ∧
        isSpace (Char.ofNat code) = false ∧ (Char.ofNat code).toNat < 256 := by
    decide +kernel
  have checkedDigit : ∀ value : Fin 16,
      isLineBreak (value : Nat).digitChar.toUpper = false ∧
        isSpace (value : Nat).digitChar.toUpper = false ∧
        (value : Nat).digitChar.toUpper.toNat < 256 := by
    decide
  have checkedPercent : isLineBreak '%' = false ∧ isSpace '%' = false ∧
      '%'.toNat < 256 := by
    decide
  intro character member
  rw [quoteByte] at member
  split at member
  next safe =>
    rw [List.mem_singleton.mp member]
    exact checkedSafe ⟨byte.toNat, safe.1⟩ safe.2
  next =>
    rcases List.mem_cons.mp member with rfl | isDigit
    · exact checkedPercent
    · obtain ⟨digit, digitMem, rfl⟩ := List.mem_map.mp isDigit
      have inHex : digit ∈ toHex [byte] := by
        rw [toHex]
        simpa using digitMem
      obtain ⟨value, small, rfl⟩ := exists_digit_of_mem_toHex inHex
      exact checkedDigit ⟨value, small⟩

theorem unchanged_quote (text : Text) : Unchanged (quote text) := by
  apply unchanged_of_all
  intro character member
  obtain ⟨byte, -, inByte⟩ := List.mem_flatMap.mp member
  exact plain_quoteByte byte character inByte

theorem unchanged_toHex (bytes : List UInt8) : Unchanged (toHex bytes) := by
  have checked : ∀ value : Fin 16,
      isLineBreak (value : Nat).digitChar = false ∧
        isSpace (value : Nat).digitChar = false ∧
        (value : Nat).digitChar.toNat < 256 := by
    decide
  apply unchanged_of_all
  intro character member
  obtain ⟨value, small, rfl⟩ := exists_digit_of_mem_toHex member
  exact checked ⟨value, small⟩

theorem unchanged_numeral (number : Nat) : Unchanged (numeral number) := by
  have checked : ∀ value : Fin 10,
      isLineBreak (value : Nat).digitChar = false ∧
        isSpace (value : Nat).digitChar = false ∧
        (value : Nat).digitChar.toNat < 256 := by
    decide
  apply unchanged_of_all
  intro character member
  obtain ⟨value, small, rfl⟩ := exists_digit_of_mem_numeral member
  exact checked ⟨value, small⟩

/-- Every value in a header is one that would be left as it is. -/
theorem unchanged_headerSafe {value : Text}
    (unbroken : ∀ character ∈ value, isLineBreak character = false)
    (stripped : strip value = value) : Unchanged (headerSafe value) := by
  rw [headerSafe]
  split
  next latin1 => exact ⟨unbroken, stripped, latin1⟩
  next => exact unchanged_quote value

theorem Unchanged.headerSafe_eq {value : Text} (unchanged : Unchanged value) :
    headerSafe value = value := by
  rw [headerSafe, if_pos unchanged.latin1]

/-- What is collected from a line is trimmed and on one line. -/
theorem unchanged_of_mem_trailerFields {sigBlock key value : Text}
    (member : (key, value) ∈ trailerFields sigBlock) :
    Unchanged (headerSafe value) := by
  obtain ⟨line, lineMem, collected⟩ := List.mem_filterMap.mp member
  split at collected
  · obtain ⟨-, rfl⟩ := Prod.mk.inj (Option.some.inj collected)
    refine unchanged_headerSafe ?_ (strip_strip _)
    intro character inValue
    apply unbroken_of_mem_splitLines lineMem
    exact (List.dropWhile_suffix _).mem
      (List.mem_of_mem_drop (mem_of_mem_strip inValue))
  · cases collected

theorem unchanged_of_header {sigBlock name value : Text}
    (found : header name (answerHeaders sigBlock) = some value) :
    Unchanged value := by
  obtain ⟨entry, entryFound, rfl⟩ := Option.map_eq_some_iff.mp found
  obtain ⟨known, -, made⟩ :=
    List.mem_filterMap.mp (List.mem_of_find?_eq_some entryFound)
  obtain ⟨field, fieldFound, rfl⟩ := Option.map_eq_some_iff.mp made
  exact unchanged_of_mem_trailerFields (mem_of_get fieldFound)

end Changes

section Collecting

theorem collectLines_field {key value : Text} (plain : PlainKey key)
    (unchanged : Unchanged value) (rest : Text) :
    collectLines (splitLines (field key value ++ rest)) =
      (key, value) :: collectLines (splitLines rest) := by
  have notMarker : ¬ "---".toList <+: key ++ ':' :: value := by
    have starts := plain.starts
    cases key with
    | nil => cases starts
    | cons first key =>
        obtain ⟨-, notDash⟩ : isSpace first = false ∧ first ≠ '-' := by
          simpa using starts
        rintro ⟨other, same⟩
        exact notDash (List.cons.inj same).1.symm
  rw [splitLines_field plain unchanged.unbroken, collectLines,
    List.filterMap_cons, if_pos ⟨by simp, notMarker⟩,
    beforeColon_append plain.noColon, afterColon_append plain.noColon,
    plain.stripped, unchanged.stripped]
  rfl

/-- The fields that the gateway collects from a trailer. -/
theorem trailerFields_buildSignatureTrailer (scheme : Scheme)
    (body privateKey : List UInt8) {selector : Text}
    (unchanged : Unchanged selector) (unixTime : Nat)
    (pidBytes keyBytes : List UInt8) :
    trailerFields (buildSignatureTrailer scheme body privateKey
        (toHex pidBytes) (toHex keyBytes) selector unixTime) =
      ResponseTrailer.trailerFields scheme privateKey body (toHex pidBytes)
        (toHex keyBytes) selector unixTime := by
  have version : Unchanged ['1'] :=
    unchanged_of_all (by simp [isLineBreak, isSpace])
  have opening : ∀ rest : Text,
      collectLines (splitLines (marker ++ (crlf ++ rest))) =
        collectLines (splitLines rest) := by
    intro rest
    have unbroken : ∀ character ∈ sigBegin, isLineBreak character = false := by
      have checked : (sigBegin.all fun character =>
          !isLineBreak character) = true := by decide
      intro character member
      simpa using List.all_eq_true.mp checked character member
    have unbrokenNil : ∀ character ∈ ([] : Text),
        isLineBreak character = false := by
      simp
    have lines : splitLines (marker ++ (crlf ++ rest)) =
        [] :: sigBegin :: splitLines rest := by
      rw [marker, List.append_assoc, ← splitLines_append_crlf unbroken rest]
      exact splitLines_append_crlf unbrokenNil _
    rw [lines]
    rfl
  have closing : collectLines (splitLines (sigEnd ++ crlf)) = [] := by
    decide +kernel
  simp only [buildSignatureTrailer, List.append_assoc, signContent,
    hashContent, responseEnvelopeSignature, signDomain]
  rw [trailerFields, opening,
    collectLines_field (plainKey_of_mem (by simp)) (unchanged_toHex _),
    collectLines_field (plainKey_of_mem (by simp)) (unchanged_toHex _),
    collectLines_field (plainKey_of_mem (by simp)) (unchanged_toHex _),
    collectLines_field (plainKey_of_mem (by simp)) (unchanged_toHex _),
    collectLines_field (plainKey_of_mem (by simp)) version,
    collectLines_field (plainKey_of_mem (by simp)) unchanged,
    collectLines_field (plainKey_of_mem (by simp)) (unchanged_numeral _),
    collectLines_field (plainKey_of_mem (by simp)) (unchanged_toHex _),
    closing]
  rfl

end Collecting

section Verification

variable {scheme : Scheme}

theorem hexToBytes_toHex (bytes : List UInt8) :
    hexToBytes (toHex bytes) = some bytes := by
  have checked : ∀ value : Fin 16, (digitValue (value : Nat).digitChar).isSome ∧
      (value : Nat).digitChar ≠ 'x' := by
    decide
  have digits : (toHex bytes).all (fun character =>
      (digitValue character).isSome) = true := by
    rw [List.all_eq_true]
    intro character member
    obtain ⟨value, small, rfl⟩ := exists_digit_of_mem_toHex member
    exact (checked ⟨value, small⟩).1
  have unprefixed : "0x".toList.isPrefixOf (toHex bytes) = false := by
    rw [Bool.eq_false_iff]
    intro starts
    have isIn : 'x' ∈ toHex bytes :=
      (List.isPrefixOf_iff_prefix.mp starts).mem (by decide)
    obtain ⟨value, small, isDigit⟩ := exists_digit_of_mem_toHex isIn
    exact (checked ⟨value, small⟩).2 isDigit.symm
  rw [hexToBytes, unprefixed]
  simp only [Bool.false_eq_true, if_false, digits, if_true, fromHex_toHex]

theorem pidHashesKey_toHex (publicKey : List UInt8) :
    pidHashesKey scheme (pidOf scheme publicKey) (toHex publicKey) = true := by
  rw [pidHashesKey, hexToBytes_toHex, pidOf, map_toLower_toHex]
  exact decide_eq_true rfl

theorem verifyEd25519_signContent (correct : scheme.Correct)
    (data privateKey : List UInt8) :
    verifyEd25519 scheme (signContent scheme data privateKey) data
      (toHex (scheme.publicKey privateKey)) = true := by
  rw [verifyEd25519, hexToBytes_toHex, signContent, hexToBytes_toHex]
  exact correct privateKey data

/-- The headers of an answer whose selector is left as it is. -/
theorem servedHeaders_eq (scheme : Scheme) (privateKey : List UInt8)
    (body : Text) {selector : Text}
    (unchanged : Unchanged (signedSelector selector)) (unixTime : Nat) :
    servedHeaders scheme privateKey body selector unixTime =
      let publicKey := scheme.publicKey privateKey
      let bodyHash := hashContent scheme (encodeUtf8 body)
      [("X-Refinet-Pid".toList, pidOf scheme publicKey),
        ("X-Refinet-Pubkey".toList, toHex publicKey),
        ("X-Refinet-Sig".toList,
          signContent scheme (encodeUtf8 body) privateKey),
        ("X-Refinet-Hash".toList, bodyHash), ("X-Refinet-V".toList, ['1']),
        ("X-Refinet-Selector".toList, signedSelector selector),
        ("X-Refinet-Time".toList, numeral unixTime),
        ("X-Refinet-Sig1".toList, responseEnvelopeSignature scheme privateKey
          (pidOf scheme publicKey) (signedSelector selector)
          (numeral unixTime) bodyHash)] := by
  let publicKey := scheme.publicKey privateKey
  let bodyHash := hashContent scheme (encodeUtf8 body)
  have version : Unchanged ['1'] :=
    unchanged_of_all (by simp [isLineBreak, isSpace])
  have pid : headerSafe (pidOf scheme publicKey) = pidOf scheme publicKey :=
    (unchanged_toHex _).headerSafe_eq
  have bodySignature : headerSafe
      (signContent scheme (encodeUtf8 body) privateKey) =
      signContent scheme (encodeUtf8 body) privateKey :=
    (unchanged_toHex _).headerSafe_eq
  have hash : headerSafe bodyHash = bodyHash :=
    (unchanged_toHex _).headerSafe_eq
  have envelope : headerSafe (responseEnvelopeSignature scheme privateKey
      (pidOf scheme publicKey) (signedSelector selector) (numeral unixTime)
      bodyHash) = responseEnvelopeSignature scheme privateKey
        (pidOf scheme publicKey) (signedSelector selector) (numeral unixTime)
        bodyHash :=
    (unchanged_toHex _).headerSafe_eq
  have shape : servedHeaders scheme privateKey body selector unixTime =
      [("X-Refinet-Pid".toList, headerSafe (pidOf scheme publicKey)),
        ("X-Refinet-Pubkey".toList, headerSafe (toHex publicKey)),
        ("X-Refinet-Sig".toList,
          headerSafe (signContent scheme (encodeUtf8 body) privateKey)),
        ("X-Refinet-Hash".toList, headerSafe bodyHash),
        ("X-Refinet-V".toList, headerSafe ['1']),
        ("X-Refinet-Selector".toList, headerSafe (signedSelector selector)),
        ("X-Refinet-Time".toList, headerSafe (numeral unixTime)),
        ("X-Refinet-Sig1".toList, headerSafe (responseEnvelopeSignature scheme
          privateKey (pidOf scheme publicKey) (signedSelector selector)
          (numeral unixTime) bodyHash))] := by
    rw [servedHeaders, answerHeaders, pidOf,
      trailerFields_buildSignatureTrailer scheme _ privateKey unchanged]
    rfl
  rw [shape, pid, bodySignature, hash, envelope,
    (unchanged_toHex _).headerSafe_eq, version.headerSafe_eq,
    unchanged.headerSafe_eq, (unchanged_numeral _).headerSafe_eq]

/-- Headers that carry the signatures of an answer. -/
structure Carries (scheme : Scheme) (privateKey : List UInt8)
    (body signed : Text) (unixTime : Nat) (headers : List (Text × Text)) :
    Prop where
  pid : header "X-Refinet-Pid".toList headers =
    some (pidOf scheme (scheme.publicKey privateKey))
  publicKey : header "X-Refinet-Pubkey".toList headers =
    some (toHex (scheme.publicKey privateKey))
  signature : header "X-Refinet-Sig".toList headers =
    some (signContent scheme (encodeUtf8 body) privateKey)
  hash : header "X-Refinet-Hash".toList headers =
    some (hashContent scheme (encodeUtf8 body))
  version : header "X-Refinet-V".toList headers = some ['1']
  selector : header "X-Refinet-Selector".toList headers = some signed
  time : header "X-Refinet-Time".toList headers = some (numeral unixTime)
  envelope : header "X-Refinet-Sig1".toList headers =
    some (responseEnvelopeSignature scheme privateKey
      (pidOf scheme (scheme.publicKey privateKey)) signed (numeral unixTime)
      (hashContent scheme (encodeUtf8 body)))

theorem carries_servedHeaders (scheme : Scheme) (privateKey : List UInt8)
    (body : Text) {selector : Text}
    (unchanged : Unchanged (signedSelector selector)) (unixTime : Nat) :
    Carries scheme privateKey body (signedSelector selector) unixTime
      (servedHeaders scheme privateKey body selector unixTime) := by
  rw [servedHeaders_eq scheme privateKey body unchanged unixTime]
  constructor <;> rfl

section Carried

variable {privateKey : List UInt8} {body selector : Text} {unixTime : Nat}
  {headers : List (Text × Text)}

/-- The client accepts what is carried so. -/
theorem Carries.valid_verifyAnswer
    (carries : Carries scheme privateKey body selector unixTime headers)
    (correct : scheme.Correct) {numberText : Text → Text}
    (printed : numberText (numeral unixTime) = numeral unixTime) :
    (verifyAnswer scheme numberText (encodeUtf8 body) headers).valid = true := by
  have time : (some (numeral unixTime)).filter (fun value => value ≠ []) =
      some (numeral unixTime) := by
    simp [numeral_ne_nil]
  have bodySigned :=
    verifyEd25519_signContent correct (encodeUtf8 body) privateKey
  have envelopeSigned := verifyEd25519_signContent correct
    (domainPreimage domainResponse [pidOf scheme (scheme.publicKey privateKey),
      selector, numeral unixTime, hashContent scheme (encodeUtf8 body)])
    privateKey
  simp only [AnswerReport.valid, verifyAnswer, carries.pid, carries.publicKey,
    carries.signature, carries.hash, carries.version, carries.selector,
    carries.time, carries.envelope, Option.getD_some, time, Option.map_some,
    printed, pidHashesKey_toHex, bodySigned, decide_true, if_true,
    Bool.and_true, Option.some.injEq]
  exact decide_eq_true envelopeSigned

/-- So does the monitor, near the time of the answer. -/
theorem Carries.verifyProbe_eq
    (carries : Carries scheme privateKey body selector unixTime headers)
    (correct : scheme.Correct) {now : ℚ}
    (fresh : |now - unixTime| ≤ probeMaxSkewSec) :
    verifyProbe scheme (pidOf scheme (scheme.publicKey privateKey)) headers
      (encodeUtf8 body) now = true := by
  have envelopeSigned := verifyDomain_signDomain correct domainResponse
    privateKey [pidOf scheme (scheme.publicKey privateKey), selector,
      numeral unixTime, hashContent scheme (encodeUtf8 body)]
  have notStale : ¬ probeMaxSkewSec < |now - ((unixTime : Int) : ℚ)| := by
    rw [Int.cast_natCast]
    exact not_lt.mpr fresh
  simp only [verifyProbe, carries.pid, carries.publicKey, carries.hash,
    carries.selector, carries.time, carries.envelope, Option.getD_some,
    pidMatchesKey_toHex, int_numeral, ne_eq, not_true, if_false,
    Bool.true_eq_false, notStale, intText_ofNat]
  exact envelopeSigned

end Carried

end Verification

section Gateway

variable {scheme : Scheme}

/-- Every answer to a request verifies, with the selector that was routed. -/
def RequestVerifies (scheme : Scheme) (numberText : Text → Text)
    (netlocAccepted : Text → Bool) (privateKey : List UInt8)
    (target body : Text) (unixTime : Nat) : Prop :=
  ∀ selector,
    dispatch netlocAccepted "GET".toList target true = .answer selector →
    AnswerVerifies scheme numberText privateKey body selector unixTime

/-- An answer verifies when its selector is left unchanged on its way, and not
otherwise. -/
theorem requestVerifies_iff (correct : scheme.Correct)
    {numberText : Text → Text}
    (printed : ∀ number < 2 ^ 53, numberText (numeral number) = numeral number)
    (netlocAccepted : Text → Bool) (privateKey : List UInt8)
    (target body : Text) {unixTime : Nat} (clock : unixTime < 2 ^ 53) :
    RequestVerifies scheme numberText netlocAccepted privateKey target body
        unixTime ↔
      ∀ selector,
        dispatch netlocAccepted "GET".toList target true = .answer selector →
        Unchanged (signedSelector selector) := by
  constructor
  · intro verifies selector forwarded
    exact unchanged_of_header (verifies selector forwarded).reported
  · intro unchanged selector forwarded
    have carries := carries_servedHeaders scheme privateKey body
      (unchanged selector forwarded) unixTime
    exact ⟨carries.valid_verifyAnswer correct (printed _ clock),
      fun _ fresh => carries.verifyProbe_eq correct fresh, carries.selector⟩

theorem requestVerifies_iff_status :
    RequestVerifies transparentScheme id (fun _ => true) [7]
        "/g/status.json".toList ['o', 'k'] 5 ↔
      ∀ selector, dispatch (fun _ => true) "GET".toList
          "/g/status.json".toList true = .answer selector →
        Unchanged (signedSelector selector) :=
  requestVerifies_iff transparentScheme_correct (fun _ _ => rfl) _ _ _ _
    (by decide)

/-- A selector with a vertical tab is cut at it. -/
theorem requestVerifies_verticalTab :
    ¬ ∀ (scheme : Scheme) (numberText : Text → Text)
      (netlocAccepted : Text → Bool) (privateKey : List UInt8)
      (target body : Text) (unixTime : Nat), scheme.Correct →
      (∀ number < 2 ^ 53, numberText (numeral number) = numeral number) →
      unixTime < 2 ^ 53 →
      RequestVerifies scheme numberText netlocAccepted privateKey target body
        unixTime := by
  intro claimed
  have verifies := claimed transparentScheme id (fun _ => true) [7]
    "/g/a%0Bb".toList ['o', 'k'] 5 transparentScheme_correct (fun _ _ => rfl)
    (by decide)
  have forwarded : dispatch (fun _ => true) "GET".toList "/g/a%0Bb".toList true =
      .answer ['/', 'a', Char.ofNat 11, 'b'] := by
    decide +kernel
  have unchanged := unchanged_of_header (verifies _ forwarded).reported
  have broken := unchanged.unbroken (Char.ofNat 11) (by decide)
  exact absurd broken (by decide)

end Gateway

end HttpGateway

end RefinetPillars
