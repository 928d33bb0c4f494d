import RefinetPillars.ContentSigning

/-!
# The signature after a response

A response ends with labelled lines between two markers.  They name the Pillar,
sign the body, and sign the body together with the selector and the time.  A
reader looks for the first marker and collects the lines after it.
-/

namespace RefinetPillars

namespace ResponseTrailer

open HexText LineText DecimalText KeyRecovery ContentSigning

def sigBegin : Text := "---BEGIN REFINET SIGNATURE---".toList

def sigEnd : Text := "---END REFINET SIGNATURE---".toList

/-- What a reader looks for. -/
def marker : Text := crlf ++ sigBegin

/-- A line of the trailer. -/
def field (key value : Text) : Text := key ++ ':' :: value ++ crlf

/-- What a client sends, without the blanks around it; `/` is the root. -/
def clientSelector (line : Text) : Text :=
  if strip line = ['/'] then [] else strip line

/-- The selector that is signed. -/
def signedSelector (selector : Text) : Text :=
  if selector = [] then ['/'] else selector

/-- The lines that are collected, each with its key, up to the last marker. -/
def collectFields : List Text → List (Text × Text)
  | [] => []
  | line :: lines =>
      if strip line = sigEnd then []
      else if ':' ∈ line then
        (strip (beforeColon line),
          ((afterColon line).reverse.dropWhile fun character =>
            character.toNat = 13).reverse) :: collectFields lines
      else collectFields lines

/-- A later line replaces an earlier one with the same key. -/
def get (key : Text) (fields : List (Text × Text)) : Option Text :=
  (fields.reverse.find? fun entry => entry.1 = key).map Prod.snd

/-- What is found out about a response with a trailer. -/
structure BlockReport where
  pid : Text
  selector : Option Text
  time : Option Text
  pidValid : Bool
  hashValid : Bool
  legacyValid : Bool
  envelopeValid : Option Bool
deriving DecidableEq

/-- Nothing that was checked is wrong. -/
def BlockReport.valid (report : BlockReport) : Bool :=
  report.pidValid && report.hashValid && report.legacyValid &&
    report.envelopeValid ≠ some false

section Scheme

variable (scheme : Scheme)

def responseEnvelopeSignature (privateKey : List UInt8)
    (pid selector unixTime bodyHash : Text) : Text :=
  signDomain scheme domainResponse privateKey [pid, selector, unixTime, bodyHash]

def buildSignatureTrailer (body privateKey : List UInt8)
    (pid publicKeyHex selector : Text) (unixTime : Nat) : Text :=
  let bodyHash := hashContent scheme body
  marker ++ crlf ++ field "pid".toList pid ++
    field "pubkey".toList publicKeyHex ++
    field "sig".toList (signContent scheme body privateKey) ++
    field "hash".toList bodyHash ++ field "v".toList ['1'] ++
    field "selector".toList selector ++
    field "time".toList (numeral unixTime) ++
    field "sig1".toList
      (responseEnvelopeSignature scheme privateKey pid selector
        (numeral unixTime) bodyHash) ++
    sigEnd ++ crlf

/-- What the fields after a body say. -/
def checkFields (body : List UInt8) (fields : List (Text × Text)) :
    BlockReport :=
  let pid := (get "pid".toList fields).getD []
  let publicKeyHex := (get "pubkey".toList fields).getD []
  let bodyHash := hashContent scheme body
  { pid := pid
    selector := get "selector".toList fields
    time := get "time".toList fields
    pidValid := pidMatchesKey scheme pid publicKeyHex
    hashValid := get "hash".toList fields = some bodyHash
    legacyValid := verifySignature scheme body
      ((get "sig".toList fields).getD []) publicKeyHex
    envelopeValid :=
      if get "v".toList fields = some ['1'] then
        match int ((get "time".toList fields).getD []) with
        | none => some false
        | some unixTime =>
            some (verifyDomain scheme domainResponse
              ((get "sig1".toList fields).getD []) publicKeyHex
              [pid, (get "selector".toList fields).getD [], intText unixTime,
                bodyHash])
      else none }

/-- The body before the trailer, and the fields. -/
def splitResponse (text : Text) : Option (Text × List (Text × Text)) :=
  (cutAt marker text).map fun found =>
    (found.1, collectFields (splitLines found.2))

/-- A response without a trailer is unsigned. -/
def verifyResponseBlock (text : Text) : Option BlockReport :=
  (splitResponse text).map fun response =>
    checkFields scheme (encodeUtf8 response.1) response.2

end Scheme

section Reading

/-- A key that is read back as it was written. -/
structure PlainKey (key : Text) : Prop where
  noColon : ':' ∉ key
  stripped : strip key = key
  starts : (key.head?.any fun first => !isSpace first && first ≠ '-') = true
  unbroken : (key.all fun character => !isLineBreak character) = true

theorem head?_strip {first : Char} (notSpace : isSpace first = false)
    (rest : Text) : (strip (first :: rest)).head? = some first := by
  rw [strip, List.dropWhile_cons, notSpace, if_neg (by simp),
    List.head?_reverse, List.reverse_cons, List.dropWhile_append]
  split
  · simp [notSpace]
  · simp

theorem strip_ne_sigEnd {key : Text} (plain : PlainKey key) (rest : Text) :
    strip (key ++ rest) ≠ sigEnd := by
  have starts := plain.starts
  cases key with
  | nil => cases starts
  | cons first key =>
      obtain ⟨notSpace, notDash⟩ : isSpace first = false ∧ first ≠ '-' := by
        simpa using starts
      intro same
      have atHead := head?_strip notSpace (key ++ rest)
      rw [← List.cons_append, same] at atHead
      exact notDash (Option.some.inj atHead).symm

theorem beforeColon_append {key : Text} (noColon : ':' ∉ key) (value : Text) :
    beforeColon (key ++ ':' :: value) = key := by
  rw [beforeColon, List.takeWhile_append_of_pos]
  · simp
  · intro character member
    have differ : character ≠ ':' := fun same => noColon (same ▸ member)
    simpa using differ

theorem afterColon_append {key : Text} (noColon : ':' ∉ key) (value : Text) :
    afterColon (key ++ ':' :: value) = value := by
  rw [afterColon, List.dropWhile_append_of_pos]
  · simp
  · intro character member
    have differ : character ≠ ':' := fun same => noColon (same ▸ member)
    simpa using differ

theorem dropWhile_return {value : Text}
    (unbroken : ∀ character ∈ value, isLineBreak character = false) :
    (value.reverse.dropWhile fun character =>
      character.toNat = 13).reverse = value := by
  have kept : value.reverse.dropWhile (fun character =>
      character.toNat = 13) = value.reverse := by
    cases reversed : value.reverse with
    | nil => rfl
    | cons last older =>
        have member : last ∈ value := by
          rw [← List.mem_reverse, reversed]
          exact List.mem_cons_self
        have notReturn : last.toNat ≠ 13 := by
          intro isReturn
          have lastUnbroken := unbroken last member
          simp [isLineBreak, isReturn] at lastUnbroken
        simp [notReturn]
  rw [kept, List.reverse_reverse]

/-- A line of the trailer is one line. -/
theorem splitLines_field {key value : Text} (plain : PlainKey key)
    (unbroken : ∀ character ∈ value, isLineBreak character = false)
    (rest : Text) :
    splitLines (field key value ++ rest) =
      (key ++ ':' :: value) :: splitLines rest := by
  have lineUnbroken : ∀ character ∈ key ++ ':' :: value,
      isLineBreak character = false := by
    intro character member
    rcases List.mem_append.mp member with inKey | inValue
    · simpa using List.all_eq_true.mp plain.unbroken character inKey
    · rcases List.mem_cons.mp inValue with rfl | inValue
      · decide
      · exact unbroken character inValue
  rw [field, List.append_assoc]
  exact splitLines_append_crlf lineUnbroken rest

/-- It is collected as it was written. -/
theorem collectFields_field {key value : Text} (plain : PlainKey key)
    (unbroken : ∀ character ∈ value, isLineBreak character = false)
    (rest : Text) :
    collectFields (splitLines (field key value ++ rest)) =
      (key, value) :: collectFields (splitLines rest) := by
  rw [splitLines_field plain unbroken, collectFields,
    if_neg (strip_ne_sigEnd plain _), if_pos (by simp),
    beforeColon_append plain.noColon, afterColon_append plain.noColon,
    plain.stripped, dropWhile_return unbroken]

theorem collectFields_sigEnd :
    collectFields (splitLines (sigEnd ++ crlf)) = [] := by
  have lines : splitLines (sigEnd ++ crlf) = [sigEnd] := by decide +kernel
  have stripped : strip sigEnd = sigEnd := by decide +kernel
  rw [lines, collectFields, if_pos stripped]

theorem collectFields_crlf (rest : Text) :
    collectFields (splitLines (crlf ++ rest)) =
      collectFields (splitLines rest) := by
  have unbroken : ∀ character ∈ ([] : Text), isLineBreak character = false := by
    simp
  have lines : splitLines (crlf ++ rest) = [] :: splitLines rest :=
    splitLines_append_crlf unbroken rest
  rw [lines, collectFields, if_neg (by decide), if_neg (by simp)]

theorem unbroken_toHex (bytes : List UInt8) :
    ∀ character ∈ toHex bytes, isLineBreak character = false := by
  intro character member
  obtain ⟨value, small, rfl⟩ := exists_digit_of_mem_toHex member
  have checked : ∀ value : Fin 16,
      isLineBreak (value : Nat).digitChar = false := by decide
  exact checked ⟨value, small⟩

theorem unbroken_numeral (number : Nat) :
    ∀ character ∈ numeral number, isLineBreak character = false := by
  intro character member
  obtain ⟨value, small, rfl⟩ := exists_digit_of_mem_numeral member
  have checked : ∀ value : Fin 10,
      isLineBreak (value : Nat).digitChar = false := by decide
  exact checked ⟨value, small⟩

/-- No field that is collected contains the end of a line. -/
theorem unbroken_of_mem_collectFields {lines : List Text} {key value : Text}
    (linesUnbroken : ∀ line ∈ lines, ∀ character ∈ line,
      isLineBreak character = false)
    (member : (key, value) ∈ collectFields lines) :
    ∀ character ∈ value, isLineBreak character = false := by
  induction lines with
  | nil => cases member
  | cons line lines ih =>
      have later := ih fun other otherMem =>
        linesUnbroken other (by simp [otherMem])
      rw [collectFields] at member
      split at member
      next => cases member
      next =>
        split at member
        next =>
          rcases List.mem_cons.mp member with same | inLater
          · obtain ⟨-, rfl⟩ := Prod.mk.inj same
            intro character characterMem
            refine linesUnbroken line (by simp) character ?_
            rw [List.mem_reverse] at characterMem
            have kept := (List.dropWhile_suffix _).mem characterMem
            rw [List.mem_reverse] at kept
            exact (List.dropWhile_suffix _).mem (List.mem_of_mem_drop kept)
          · exact later inLater
        next => exact later member

theorem mem_of_get {key value : Text} {fields : List (Text × Text)}
    (found : get key fields = some value) : (key, value) ∈ fields := by
  obtain ⟨entry, entryFound, rfl⟩ := Option.map_eq_some_iff.mp found
  have named : entry.1 = key := by simpa using List.find?_some entryFound
  have member := List.mem_of_find?_eq_some entryFound
  rw [← named]
  exact List.mem_reverse.mp member

end Reading

section RoundTrip

variable (scheme : Scheme) (privateKey : List UInt8)

/-- What is sent when a selector is answered with a body. -/
def servedText (body selector : Text) (unixTime : Nat) : Text :=
  let publicKey := scheme.publicKey privateKey
  body ++ buildSignatureTrailer scheme (encodeUtf8 body) privateKey
    (pidOf scheme publicKey) (toHex publicKey) (signedSelector selector) unixTime

/-- The answer verifies, with its envelope, and reports what was signed. -/
structure RoundTrips (body selector : Text) (unixTime : Nat) : Prop where
  checkedBody :
    (splitResponse (servedText scheme privateKey body selector unixTime)).map
      Prod.fst = some body
  reported : ∃ report ∈ verifyResponseBlock scheme
      (servedText scheme privateKey body selector unixTime),
    report.valid = true ∧ report.envelopeValid = some true ∧
      report.pid = pidOf scheme (scheme.publicKey privateKey) ∧
      report.selector = some (signedSelector selector) ∧
      report.time = some (numeral unixTime)

/-- The fields of a trailer. -/
def trailerFields (body : List UInt8) (pid publicKeyHex selector : Text)
    (unixTime : Nat) : List (Text × Text) :=
  [("pid".toList, pid), ("pubkey".toList, publicKeyHex),
    ("sig".toList, signContent scheme body privateKey),
    ("hash".toList, hashContent scheme body), ("v".toList, ['1']),
    ("selector".toList, selector), ("time".toList, numeral unixTime),
    ("sig1".toList, responseEnvelopeSignature scheme privateKey pid selector
      (numeral unixTime) (hashContent scheme body))]

variable {scheme privateKey}

theorem plainKey_of_mem {key : Text}
    (member : key ∈ ["pid".toList, "pubkey".toList, "sig".toList,
      "hash".toList, "v".toList, "selector".toList, "time".toList,
      "sig1".toList]) : PlainKey key := by
  simp only [List.mem_cons, List.not_mem_nil, or_false] at member
  rcases member with rfl | rfl | rfl | rfl | rfl | rfl | rfl | rfl <;>
    exact ⟨by decide +kernel, by decide +kernel, by decide +kernel,
      by decide +kernel⟩

/-- The fields are read back when the selector is on one line. -/
theorem splitResponse_servedText (scheme : Scheme) (privateKey : List UInt8)
    {body selector : Text} (unixTime : Nat) (absent : ¬ marker <:+: body)
    (unbroken : ∀ character ∈ selector, isLineBreak character = false)
    (pidBytes keyBytes : List UInt8) :
    splitResponse (body ++ buildSignatureTrailer scheme (encodeUtf8 body)
        privateKey (toHex pidBytes) (toHex keyBytes) selector unixTime) =
      some (body, trailerFields scheme privateKey (encodeUtf8 body)
        (toHex pidBytes) (toHex keyBytes) selector unixTime) := by
  have fresh : Char.ofNat 13 ∉ Char.ofNat 10 :: sigBegin := by decide +kernel
  simp only [buildSignatureTrailer, List.append_assoc, signContent,
    hashContent, responseEnvelopeSignature, signDomain]
  rw [splitResponse]
  erw [cutAt_append fresh absent]
  simp only [Option.map_some, Option.some.injEq, Prod.mk.injEq, true_and]
  rw [collectFields_crlf,
    collectFields_field (plainKey_of_mem (by simp)) (unbroken_toHex _),
    collectFields_field (plainKey_of_mem (by simp)) (unbroken_toHex _),
    collectFields_field (plainKey_of_mem (by simp)) (unbroken_toHex _),
    collectFields_field (plainKey_of_mem (by simp)) (unbroken_toHex _),
    collectFields_field (plainKey_of_mem (by simp)) (by simp [isLineBreak]),
    collectFields_field (plainKey_of_mem (by simp)) unbroken,
    collectFields_field (plainKey_of_mem (by simp)) (unbroken_numeral _),
    collectFields_field (plainKey_of_mem (by simp)) (unbroken_toHex _),
    collectFields_sigEnd]
  rfl

theorem intText_ofNat (number : Nat) : intText (number : Int) = numeral number :=
  rfl

theorem checkFields_trailerFields {body : List UInt8} {selector : Text}
    {unixTime : Nat}
    (bodyVerified : verifySignature scheme body
      (signContent scheme body privateKey)
      (toHex (scheme.publicKey privateKey)) = true)
    (envelopeVerified : verifyDomain scheme domainResponse
      (responseEnvelopeSignature scheme privateKey
        (pidOf scheme (scheme.publicKey privateKey)) selector
        (numeral unixTime) (hashContent scheme body))
      (toHex (scheme.publicKey privateKey))
      [pidOf scheme (scheme.publicKey privateKey), selector, numeral unixTime,
        hashContent scheme body] = true) :
    checkFields scheme body (trailerFields scheme privateKey body
        (pidOf scheme (scheme.publicKey privateKey))
        (toHex (scheme.publicKey privateKey)) selector unixTime) =
      { pid := pidOf scheme (scheme.publicKey privateKey)
        selector := some selector
        time := some (numeral unixTime)
        pidValid := true
        hashValid := true
        legacyValid := true
        envelopeValid := some true } := by
  let key := scheme.publicKey privateKey
  let fields := trailerFields scheme privateKey body (pidOf scheme key)
    (toHex key) selector unixTime
  have pid : get "pid".toList fields = some (pidOf scheme key) := rfl
  have publicKeyHex : get "pubkey".toList fields = some (toHex key) := rfl
  have hash : get "hash".toList fields = some (hashContent scheme body) := rfl
  have signature : get "sig".toList fields =
      some (signContent scheme body privateKey) := rfl
  have version : get "v".toList fields = some ['1'] := rfl
  have selectorField : get "selector".toList fields = some selector := rfl
  have time : get "time".toList fields = some (numeral unixTime) := rfl
  have envelope : get "sig1".toList fields =
      some (responseEnvelopeSignature scheme privateKey (pidOf scheme key)
        selector (numeral unixTime) (hashContent scheme body)) := rfl
  change checkFields scheme body fields = _
  simp only [checkFields, pid, publicKeyHex, hash, signature, version,
    selectorField, time, envelope, Option.getD_some, int_numeral,
    intText_ofNat, if_true, decide_true]
  rw [pidMatchesKey_toHex, bodyVerified, envelopeVerified]

/-- What was signed is reported when the parts can be told apart. -/
theorem verifyResponseBlock_servedText (scheme : Scheme)
    (privateKey : List UInt8) (body selector : Text) (unixTime : Nat)
    (absent : ¬ marker <:+: body)
    (unbroken : ∀ character ∈ selector, isLineBreak character = false)
    (bodyVerified : verifySignature scheme (encodeUtf8 body)
      (signContent scheme (encodeUtf8 body) privateKey)
      (toHex (scheme.publicKey privateKey)) = true)
    (envelopeVerified : verifyDomain scheme domainResponse
      (responseEnvelopeSignature scheme privateKey
        (pidOf scheme (scheme.publicKey privateKey)) (signedSelector selector)
        (numeral unixTime) (hashContent scheme (encodeUtf8 body)))
      (toHex (scheme.publicKey privateKey))
      [pidOf scheme (scheme.publicKey privateKey), signedSelector selector,
        numeral unixTime, hashContent scheme (encodeUtf8 body)] = true) :
    (splitResponse (servedText scheme privateKey body selector unixTime)).map
        Prod.fst = some body ∧
      verifyResponseBlock scheme
          (servedText scheme privateKey body selector unixTime) =
        some
          { pid := pidOf scheme (scheme.publicKey privateKey)
            selector := some (signedSelector selector)
            time := some (numeral unixTime)
            pidValid := true
            hashValid := true
            legacyValid := true
            envelopeValid := some true } := by
  have signedUnbroken : ∀ character ∈ signedSelector selector,
      isLineBreak character = false := by
    rw [signedSelector]
    split
    · simp [isLineBreak]
    · exact unbroken
  have split := splitResponse_servedText scheme privateKey unixTime absent
    signedUnbroken (scheme.sha256 (scheme.publicKey privateKey))
    (scheme.publicKey privateKey)
  rw [← pidOf] at split
  rw [verifyResponseBlock, servedText]
  rw [split, Option.map_some, Option.map_some,
    checkFields_trailerFields bodyVerified envelopeVerified]
  exact ⟨rfl, rfl⟩

/-- A response verifies and reports what was signed exactly when its body does
not contain the marker and its selector is on one line. -/
theorem roundTrips_iff (correct : scheme.Correct) (privateKey : List UInt8)
    (body line : Text) (unixTime : Nat) :
    RoundTrips scheme privateKey body (clientSelector line) unixTime ↔
      ¬ marker <:+: body ∧
        ∀ character ∈ clientSelector line, isLineBreak character = false := by
  constructor
  · intro roundTrips
    obtain ⟨response, split, sameBody⟩ := Option.map_eq_some_iff.mp
      roundTrips.checkedBody
    obtain ⟨pieces, cut, rfl⟩ := Option.map_eq_some_iff.mp split
    constructor
    · have nonempty : marker ≠ [] := by simp [marker, crlf]
      rw [← sameBody]
      exact not_infix_of_cutAt nonempty cut
    · obtain ⟨report, verified, -, -, -, selector, -⟩ := roundTrips.reported
      obtain ⟨response, split, rfl⟩ := Option.map_eq_some_iff.mp verified
      obtain ⟨_, _, rfl⟩ := Option.map_eq_some_iff.mp split
      have unbroken := unbroken_of_mem_collectFields
        (fun _ => unbroken_of_mem_splitLines) (mem_of_get selector)
      by_cases root : clientSelector line = []
      · simp [root]
      · rwa [signedSelector, if_neg root] at unbroken
  · rintro ⟨absent, unbroken⟩
    obtain ⟨checkedBody, reported⟩ := verifyResponseBlock_servedText scheme
      privateKey body (clientSelector line) unixTime absent unbroken
      (verifySignature_signContent correct _ privateKey)
      (verifyDomain_signDomain correct _ _ _)
    exact ⟨checkedBody, _, reported, rfl, rfl, rfl, rfl, rfl⟩

theorem roundTrips_iff_status :
    RoundTrips transparentScheme [7] ['o', 'k']
      (clientSelector "/status.json".toList) 5 := by
  refine (roundTrips_iff transparentScheme_correct [7] ['o', 'k']
    "/status.json".toList 5).mpr ⟨by decide +kernel, ?_⟩
  have unbroken : ((clientSelector "/status.json".toList).all fun character =>
      !isLineBreak character) = true := by decide +kernel
  simpa using List.all_eq_true.mp unbroken

/-- A selector with a vertical tab inside, as a client sends it. -/
def brokenLine : Text :=
  ['/', 'a', Char.ofNat 11, 'b', Char.ofNat 13, Char.ofNat 10]

theorem roundTrips_brokenLine :
    ¬ ∀ (scheme : Scheme) (privateKey : List UInt8) (body line : Text)
        (unixTime : Nat), scheme.Correct →
      RoundTrips scheme privateKey body (clientSelector line) unixTime := by
  intro claimed
  have roundTrips := claimed transparentScheme [7] ['o', 'k'] brokenLine 5
    transparentScheme_correct
  have unbroken := ((roundTrips_iff transparentScheme_correct _ _ _ _).mp
    roundTrips).2
  have selector : clientSelector brokenLine =
      ['/', 'a', Char.ofNat 11, 'b'] := by decide
  have broken := unbroken (Char.ofNat 11) (by simp [selector])
  simp [isLineBreak] at broken

end RoundTrip

end ResponseTrailer

end RefinetPillars
