import RefinetPillars.WellKnownSdk
import RefinetPillars.PeerAdmission

/-!
# When both verdicts about a domain proof agree

The two languages read some fields differently.  Each accepts what the other
does, except where only one of them can read a field.
-/

namespace RefinetPillars

namespace WellKnownAgreement

open HexText ContentSigning JsonText ExceptRules
open WalletBinding (IsText isText_iff item item_eq_ok pidMatchesValue
  pidMatchesValue_iff verifyValues)
open WellKnown (Expectation keyProblem_eq_none verifyWellKnown_cases)
open PeerAdmission (admittedKey admittedPid pidOf_admittedKey)
open JavaScript (Environment bytesOf stringOr hexToBytes pairs)

section Statement

variable (env : Environment) (truncate : Text → Option Int)
  (expectation : Expectation) (doc : Json)

/-- The same libraries in Python. -/
def pythonEnvironment : WellKnown.Environment :=
  ⟨env.scheme, env.lower, truncate⟩

/-- Python returns a verdict, and it is that of JavaScript. -/
def Agree : Prop :=
  ∃ reason, WellKnown.verifyWellKnown (pythonEnvironment env truncate)
      expectation doc =
    .ok ((JavaScript.verifyWellKnown env expectation doc).valid, reason)

/-- The bytes that Python reads in a value. -/
def pythonBytes : Option Json → Option (List UInt8)
  | some (.str text) => fromHex text
  | _ => none

/-- One of the languages reads these bytes. -/
def Reads (value : Option Json) (bytes : List UInt8) : Prop :=
  pythonBytes value = some bytes ∨ bytesOf env.numbers value = some bytes

/-- The signature that one of the languages reads verifies over these bytes,
by the key that one of them reads. -/
def SignedAs (message : List UInt8) : Prop :=
  ∃ key signature, Reads env (doc.get "public_key".toList) key ∧
    Reads env (doc.get "signature".toList) signature ∧
    env.scheme.verify key signature message = true

/-- The document is signed as Python prints it. -/
def SignedInPython : Prop :=
  SignedAs env doc (WellKnown.preimage (pythonEnvironment env truncate) doc)

/-- The document is signed as JavaScript prints it. -/
def SignedInJavaScript : Prop :=
  SignedAs env doc (JavaScript.preimage env doc)

/-- The document has the schema, the key that one of the languages reads hashes
to the PID, whatever its case, the document is signed, and no other PID is
expected. -/
structure Vouched : Prop where
  named : (doc.get "schema".toList).any (IsText WellKnown.schema) = true
  keyed : ∃ key pid, Reads env (doc.get "public_key".toList) key ∧
    stringOr env.numbers (doc.get "pid".toList) = some pid ∧
    env.lower pid = hashContent env.scheme key
  signed : SignedInPython env truncate doc ∨ SignedInJavaScript env doc
  expected :
    JavaScript.otherPid env expectation (doc.get "pid".toList) = false

/-- Python reads the PID, which it compares as it is, the key and the
signature. -/
structure KeyReadInPython : Prop where
  pid : ∃ text, doc.get "pid".toList = some (.str text) ∧
    env.lower text = text
  publicKey : (pythonBytes (doc.get "public_key".toList)).isSome
  signature : (pythonBytes (doc.get "signature".toList)).isSome
  signed : SignedInPython env truncate doc

def CurrentInPython : Prop :=
  WellKnown.ageProblem (pythonEnvironment env truncate) expectation doc =
    .ok none

def ClaimedInPython : Prop :=
  WellKnown.domainProblem (pythonEnvironment env truncate) expectation doc =
    .ok none

def CurrentInJavaScript : Prop :=
  JavaScript.ageProblem env expectation doc = .ok none

def ClaimedInJavaScript : Prop :=
  JavaScript.domainProblem env expectation doc = .ok none

/-- Every check passes in the reading of one of the languages. -/
structure PassesSomehow : Prop where
  vouched : Vouched env truncate expectation doc
  current : CurrentInPython env truncate expectation doc ∨
    CurrentInJavaScript env expectation doc
  claimed : ClaimedInPython env truncate expectation doc ∨
    ClaimedInJavaScript env expectation doc

/-- Python reads every field so that its check passes. -/
structure ReadInPython : Prop extends KeyReadInPython env truncate doc where
  current : CurrentInPython env truncate expectation doc
  claimed : ClaimedInPython env truncate expectation doc

/-- JavaScript reads every field so that its check passes. -/
structure ReadInJavaScript : Prop where
  publicKey : (bytesOf env.numbers (doc.get "public_key".toList)).isSome
  signature : (bytesOf env.numbers (doc.get "signature".toList)).isSome
  signed : SignedInJavaScript env doc
  current : CurrentInJavaScript env expectation doc
  claimed : ClaimedInJavaScript env expectation doc

/-- The time of a document that is vouched for is no number, or one that no
float holds. -/
structure Unhandled : Prop where
  vouched : Vouched env truncate expectation doc
  read : KeyReadInPython env truncate doc
  aged : expectation.maxAgeSec.isSome
  refused : WellKnown.ageOf (pythonEnvironment env truncate) expectation.now
    doc = .error .unhandled

end Statement

section Bytes

theorem digit_not_blank {character : Char} {value : Nat}
    (digit : digitValue character = some value) : isBlank character = false := by
  simp only [digitValue] at digit
  simp only [isBlank, Bool.or_eq_false_iff, Bool.and_eq_false_iff,
    decide_eq_false_iff_not]
  refine ⟨?_, ?_⟩
  · rintro rfl
    simp at digit
  · split_ifs at digit <;> omega

/-- Pairs of digits are read alike. -/
theorem fromHex_of_pairs :
    (text : Text) → {bytes : List UInt8} → pairs text = some bytes →
      fromHex text = some bytes
  | [], _, read => read
  | [_], _, read => by cases read
  | high :: low :: rest, bytes, read => by
      rw [pairs] at read
      obtain ⟨highValue, isHigh, read⟩ := Option.bind_eq_some_iff.mp read
      obtain ⟨lowValue, isLow, read⟩ := Option.bind_eq_some_iff.mp read
      obtain ⟨others, isRest, read⟩ := Option.bind_eq_some_iff.mp read
      rw [fromHex, if_neg (by simp [digit_not_blank isHigh]), isHigh, isLow,
        fromHex_of_pairs rest isRest]
      exact read

theorem fromHex_prefixed (rest : Text) :
    fromHex ('0' :: 'x' :: rest) = none := by
  rfl

theorem exists_text_of_pythonBytes {value : Option Json} {bytes : List UInt8}
    (read : pythonBytes value = some bytes) :
    ∃ text, value = some (.str text) ∧ fromHex text = some bytes := by
  unfold pythonBytes at read
  split at read
  next text => exact ⟨text, rfl, read⟩
  next => cases read

/-- Bytes that both languages read are the same. -/
theorem eq_of_reads {env : Environment} {value : Option Json}
    {first second : List UInt8} (python : pythonBytes value = some first)
    (javaScript : bytesOf env.numbers value = some second) :
    first = second := by
  cases value with
  | none => cases python
  | some value =>
      cases value with
      | str text =>
          change fromHex text = some first at python
          change hexToBytes text = some second at javaScript
          unfold hexToBytes at javaScript
          split at javaScript
          · rw [fromHex_prefixed] at python
            cases python
          · rw [fromHex_of_pairs _ javaScript] at python
            exact (Option.some.inj python).symm
      | null | bool | int | float | arr | obj => cases python

theorem Reads.unique {env : Environment} {value : Option Json}
    {first second : List UInt8} (reads : Reads env value first)
    (again : Reads env value second) : first = second := by
  rcases reads with python | javaScript <;> rcases again with other | other
  · exact Option.some.inj (python.symm.trans other)
  · exact eq_of_reads python other
  · exact (eq_of_reads other javaScript).symm
  · exact Option.some.inj (javaScript.symm.trans other)

end Bytes

section Keys

variable {env : Environment} {truncate : Text → Option Int}
  {expectation : Expectation} {doc : Json}

theorem verifyValues_iff {scheme : Scheme} {data : List UInt8}
    {signature publicKey : Json} :
    verifyValues scheme data signature publicKey = true ↔
      ∃ key signatureBytes, pythonBytes (some publicKey) = some key ∧
        pythonBytes (some signature) = some signatureBytes ∧
        scheme.verify key signatureBytes data = true := by
  unfold verifyValues
  split
  next signatureHex publicKeyHex =>
    simp only [verifySignature, pythonBytes]
    cases fromHex publicKeyHex <;> cases fromHex signatureHex <;> simp
  next differ =>
    refine iff_of_false Bool.false_ne_true ?_
    rintro ⟨key, signatureBytes, readKey, readSignature, -⟩
    cases publicKey <;> cases signature <;> first
      | exact differ _ _ rfl rfl
      | cases readKey
      | cases readSignature

theorem verifyEd25519_iff {data : List UInt8}
    {signature publicKey : Option Json} :
    JavaScript.verifyEd25519 env signature data publicKey = true ↔
      ∃ key signatureBytes, bytesOf env.numbers publicKey = some key ∧
        bytesOf env.numbers signature = some signatureBytes ∧
        env.scheme.verify key signatureBytes data = true := by
  rw [JavaScript.verifyEd25519]
  cases bytesOf env.numbers publicKey <;>
    cases bytesOf env.numbers signature <;> simp

theorem pidMatchesKey_iff {pid publicKey : Option Json} :
    JavaScript.pidMatchesKey env pid publicKey = true ↔
      ∃ key text, bytesOf env.numbers publicKey = some key ∧
        stringOr env.numbers pid = some text ∧
        hashContent env.scheme key = env.lower text := by
  rw [JavaScript.pidMatchesKey]
  cases bytesOf env.numbers publicKey <;>
    cases stringOr env.numbers pid <;> simp

end Keys

section Verdicts

variable {env : Environment} {truncate : Text → Option Int}
  {expectation : Expectation} {doc : Json}

theorem valid_iff :
    (JavaScript.verifyWellKnown env expectation doc).valid = true ↔
      JavaScript.keyProblem env expectation doc = none ∧
        JavaScript.ageProblem env expectation doc = .ok none ∧
        JavaScript.domainProblem env expectation doc = .ok none := by
  rw [JavaScript.verifyWellKnown]
  rcases JavaScript.keyProblem env expectation doc with _ | problem
  · rcases JavaScript.ageProblem env expectation doc with raised | _ | problem
    · simp [WellKnown.firstProblem]
    · rcases JavaScript.domainProblem env expectation doc with
        raised | _ | problem
      · simp [WellKnown.firstProblem]
      · simp [WellKnown.firstProblem]
      · simp [WellKnown.firstProblem]
    · simp [WellKnown.firstProblem]
  · simp [WellKnown.firstProblem]

/-- The verdicts agree when Python returns one and neither language is alone in
accepting the document. -/
theorem agree_iff_verdicts :
    Agree env truncate expectation doc ↔
      WellKnown.verifyWellKnown (pythonEnvironment env truncate) expectation
          doc ≠ .error .unhandled ∧
      ((∃ reason, WellKnown.verifyWellKnown (pythonEnvironment env truncate)
          expectation doc = .ok (true, reason)) ↔
        (JavaScript.verifyWellKnown env expectation doc).valid = true) := by
  have raises := (verifyWellKnown_cases (pythonEnvironment env truncate)
    expectation doc).2.2
  unfold Agree
  generalize WellKnown.verifyWellKnown (pythonEnvironment env truncate)
    expectation doc = python at raises ⊢
  generalize (JavaScript.verifyWellKnown env expectation doc).valid = valid
  rcases python with raised | ⟨ok, reason⟩
  · rw [raises raised rfl]
    simp
  · cases ok <;> cases valid <;> simp

theorem javaScript_keyProblem_eq_none :
    JavaScript.keyProblem env expectation doc = none ↔
      (doc.get "schema".toList).any (IsText WellKnown.schema) = true ∧
      JavaScript.pidMatchesKey env (doc.get "pid".toList)
        (doc.get "public_key".toList) = true ∧
      JavaScript.verifyEd25519 env (doc.get "signature".toList)
        (JavaScript.preimage env doc) (doc.get "public_key".toList) = true ∧
      JavaScript.otherPid env expectation (doc.get "pid".toList) = false := by
  simp only [JavaScript.keyProblem]
  split_ifs <;> simp_all

end Verdicts

section Agreement

variable {env : Environment} {truncate : Text → Option Int}
  {expectation : Expectation} {doc : Json}

theorem javaScript_accepts_iff (truncate : Text → Option Int) :
    JavaScript.keyProblem env expectation doc = none ↔
      Vouched env truncate expectation doc ∧
        (bytesOf env.numbers (doc.get "public_key".toList)).isSome ∧
        (bytesOf env.numbers (doc.get "signature".toList)).isSome ∧
        SignedInJavaScript env doc := by
  rw [javaScript_keyProblem_eq_none, pidMatchesKey_iff, verifyEd25519_iff]
  constructor
  · rintro ⟨named, ⟨key, pid, readKey, hasPid, hashed⟩,
      ⟨sameKey, signature, readAgain, readSignature, verified⟩, expected⟩
    have signed : SignedInJavaScript env doc :=
      ⟨sameKey, signature, .inr readAgain, .inr readSignature, verified⟩
    exact ⟨⟨named, ⟨key, pid, .inr readKey, hasPid, hashed.symm⟩,
      .inr signed, expected⟩, Option.isSome_of_eq_some readKey,
      Option.isSome_of_eq_some readSignature, signed⟩
  · rintro ⟨⟨named, ⟨key, pid, readsKey, hasPid, hashed⟩, -, expected⟩,
      keyRead, signatureRead,
      ⟨sameKey, signature, readsAgain, readsSignature, verified⟩⟩
    obtain ⟨readKey, isKey⟩ := Option.isSome_iff_exists.mp keyRead
    obtain ⟨readSignature, isSignature⟩ :=
      Option.isSome_iff_exists.mp signatureRead
    obtain rfl := readsKey.unique (.inr isKey)
    obtain rfl := readsAgain.unique (.inr isKey)
    obtain rfl := readsSignature.unique (.inr isSignature)
    exact ⟨named, ⟨_, pid, isKey, hasPid, hashed.symm⟩,
      ⟨_, signature, isKey, isSignature, verified⟩, expected⟩

theorem distinctKeys_unsigned (distinct : DistinctKeys doc) :
    DistinctKeys (WellKnown.unsigned doc) := by
  cases distinct with
  | obj nodup all =>
      refine .obj (nodup.sublist (List.filter_sublist.map _)) ?_
      exact fun field member => all field (List.mem_filter.mp member).1
  | arr all => exact .arr all
  | null | bool | int | float | str => constructor

theorem integersBelow_unsigned {bound : Nat}
    (integers : IntegersBelow bound doc) :
    IntegersBelow bound (WellKnown.unsigned doc) := by
  cases integers with
  | obj all =>
      exact .obj fun field member => all field (List.mem_filter.mp member).1
  | arr all => exact .arr all
  | int below => exact .int below
  | null | bool | str => constructor

/-- Both languages print the same document. -/
theorem preimage_eq (env : Environment) (truncate : Text → Option Int)
    (distinct : DistinctKeys doc) (integers : IntegersBelow (2 ^ 53) doc) :
    JavaScript.preimage env doc =
      WellKnown.preimage (pythonEnvironment env truncate) doc := by
  rw [JavaScript.preimage, JavaScript.canonicalJson_eq 0 _
    (distinctKeys_unsigned distinct) (integersBelow_unsigned integers)]
  rfl

theorem otherPid_some (env : Environment) (truncate : Text → Option Int)
    (expectation : Expectation) (pid : Json) :
    JavaScript.otherPid env expectation (some pid) =
      expectation.otherPid (pythonEnvironment env truncate) pid := by
  unfold JavaScript.otherPid Expectation.otherPid
  rcases expectation.pid with _ | _ | ⟨first, rest⟩
  · rfl
  · rfl
  · simp only [Option.any_some, decide_eq_true_eq]
    rfl

theorem python_accepts_iff :
    WellKnown.keyProblem (pythonEnvironment env truncate) expectation doc =
        .ok none ↔
      Vouched env truncate expectation doc ∧
        KeyReadInPython env truncate doc := by
  rw [keyProblem_eq_none]
  constructor
  · rintro ⟨named, pid, publicKey, signature, hasPid, hasKey, hasSignature,
      keyed, signed, expected⟩
    obtain ⟨text, keyHex, rfl, rfl, matched⟩ := pidMatchesValue_iff.mp keyed
    obtain ⟨key, readKey, hashed⟩ := ContentSigning.pidMatchesKey_iff.mp matched
    obtain ⟨again, signatureBytes, readAgain, readSignature, verified⟩ :=
      verifyValues_iff.mp signed
    have plain : env.lower text = text := hashed ▸ env.lower_hex _
    rw [← otherPid_some, ← hasPid] at expected
    have signedSo : SignedInPython env truncate doc :=
      ⟨again, signatureBytes, .inl (hasKey ▸ readAgain),
        .inl (hasSignature ▸ readSignature), verified⟩
    refine ⟨⟨named, ⟨key, text, ?_, ?_, ?_⟩, .inl signedSo, expected⟩,
      ⟨⟨text, hasPid, plain⟩, ?_, ?_, signedSo⟩⟩
    · exact .inl (hasKey ▸ readKey)
    · rw [hasPid]
      rfl
    · rw [plain]
      exact hashed.symm
    · rw [hasKey]
      exact Option.isSome_of_eq_some readKey
    · rw [hasSignature]
      exact Option.isSome_of_eq_some readSignature
  · rintro ⟨⟨named, ⟨key, pid, readsKey, isText, hashed⟩, -, expected⟩,
      ⟨text, hasPid, plain⟩, keyRead, signatureRead,
      ⟨again, signature, readsAgain, readsSignature, verified⟩⟩
    obtain ⟨_, isKey⟩ := Option.isSome_iff_exists.mp keyRead
    obtain ⟨_, isSignature⟩ := Option.isSome_iff_exists.mp signatureRead
    obtain rfl := readsKey.unique (.inl isKey)
    obtain rfl := readsAgain.unique (.inl isKey)
    obtain rfl := readsSignature.unique (.inl isSignature)
    obtain ⟨keyHex, hasKey, readKey⟩ := exists_text_of_pythonBytes isKey
    obtain ⟨signatureHex, hasSignature, -⟩ :=
      exists_text_of_pythonBytes isSignature
    rw [hasPid] at isText
    obtain rfl : text = pid := Option.some.inj isText
    refine ⟨named, .str text, .str keyHex, .str signatureHex, hasPid, hasKey,
      hasSignature, ?_, ?_, ?_⟩
    · refine pidMatchesValue_iff.mpr ⟨text, keyHex, rfl, rfl, ?_⟩
      exact ContentSigning.pidMatchesKey_iff.mpr
        ⟨_, readKey, hashed.symm.trans plain⟩
    · exact verifyValues_iff.mpr
        ⟨_, signature, hasKey ▸ isKey, hasSignature ▸ isSignature, verified⟩
    · rw [← otherPid_some, ← hasPid]
      exact expected

theorem ageProblem_eq_unhandled {python : WellKnown.Environment} :
    WellKnown.ageProblem python expectation doc = .error .unhandled ↔
      expectation.maxAgeSec.isSome ∧
        WellKnown.ageOf python expectation.now doc = .error .unhandled := by
  rw [WellKnown.ageProblem]
  cases expectation.maxAgeSec with
  | none => exact iff_of_false (by rintro ⟨⟩) (by rintro ⟨⟨⟩, -⟩)
  | some maxAge =>
      cases WellKnown.ageOf python expectation.now doc with
      | error raised =>
          exact ⟨fun same => ⟨rfl, by cases same; rfl⟩,
            fun same => by cases same.2; rfl⟩
      | ok issued => exact iff_of_false (by rintro ⟨⟩) (by rintro ⟨-, ⟨⟩⟩)

theorem raises_iff_unhandled :
    WellKnown.verifyWellKnown (pythonEnvironment env truncate) expectation doc =
        .error .unhandled ↔ Unhandled env truncate expectation doc := by
  rw [(verifyWellKnown_cases _ _ _).2.1, python_accepts_iff,
    ageProblem_eq_unhandled]
  exact ⟨fun ⟨⟨vouched, read⟩, aged, refused⟩ =>
      ⟨vouched, read, aged, refused⟩,
    fun ⟨vouched, read, aged, refused⟩ =>
      ⟨⟨vouched, read⟩, aged, refused⟩⟩

theorem valid_in_python_iff :
    (∃ reason, WellKnown.verifyWellKnown (pythonEnvironment env truncate)
        expectation doc = .ok (true, reason)) ↔
      PassesSomehow env truncate expectation doc ∧
        ReadInPython env truncate expectation doc := by
  rw [(verifyWellKnown_cases _ _ _).1, python_accepts_iff]
  constructor
  · rintro ⟨⟨vouched, read⟩, current, claimed⟩
    exact ⟨⟨vouched, .inl current, .inl claimed⟩, read, current, claimed⟩
  · rintro ⟨passes, read⟩
    exact ⟨⟨passes.vouched, read.toKeyReadInPython⟩, read.current,
      read.claimed⟩

theorem valid_in_javaScript_iff (truncate : Text → Option Int) :
    (JavaScript.verifyWellKnown env expectation doc).valid = true ↔
      PassesSomehow env truncate expectation doc ∧
        ReadInJavaScript env expectation doc := by
  rw [valid_iff, javaScript_accepts_iff truncate]
  constructor
  · rintro ⟨⟨vouched, key, signature, signed⟩, current, claimed⟩
    exact ⟨⟨vouched, .inr current, .inr claimed⟩, key, signature, signed,
      current, claimed⟩
  · rintro ⟨passes, key, signature, signed, current, claimed⟩
    exact ⟨⟨passes.vouched, key, signature, signed⟩, current, claimed⟩

end Agreement

section Examples

/-- The digits of the signature follow `0x`, as those of a wallet do. -/
def markedSignature : Text :=
  '0' :: 'x' :: toHex (List.replicate 64 94)

def markedFields : List (Text × Text) :=
  [("schema".toList, WellKnown.schema), ("pid".toList, admittedPid),
    ("public_key".toList, toHex admittedKey),
    ("signature".toList, markedSignature)]

def markedDocument : Json :=
  .obj (markedFields.map fun entry => (entry.1, Json.str entry.2))

theorem loads_markedDocument (floatRepr : Text → Text) :
    loads floatRepr (printedDocument markedFields) = some markedDocument :=
  loads_printedDocument floatRepr (by decide) (by decide +kernel)
    (by decide +kernel)

/-- What the key has signed. -/
def markedPreimage : List UInt8 :=
  domainPreimage domainWellKnown
    [toHex (Sha256.sha256 (WalletBinding.canonicalJson
      (WellKnown.unsigned markedDocument)))]

def markedEnvironment : Environment where
  scheme := ledgerScheme Sha256.sha256 [(admittedKey, markedPreimage)]
  lower text := text.map Char.toLower
  lower_hex := map_toLower_toHex
  numbers := JavaScript.decimalNumbers
  number _ := .notANumber
  notIterable _ := []

/-- Both languages give the same verdict about every document. -/
def VerdictsAgree : Prop :=
  ∀ (env : Environment) (truncate : Text → Option Int)
    (expectation : Expectation) (floatRepr : Text → Text) (text : Text)
    (doc : Json), loads floatRepr text = some doc →
    IntegersBelow (2 ^ 53) doc → Agree env truncate expectation doc

theorem pairs_toHex (bytes : List UInt8) :
    pairs (toHex bytes) = some bytes := by
  induction bytes with
  | nil => rfl
  | cons byte bytes ih =>
      have bound := byte.toNat_lt
      have high : byte.toNat / 16 < 16 := by omega
      have low : byte.toNat % 16 < 16 := by omega
      have whole : 16 * (byte.toNat / 16) + byte.toNat % 16 = byte.toNat := by
        omega
      change pairs ((byte.toNat / 16).digitChar ::
        (byte.toNat % 16).digitChar :: toHex bytes) = _
      simp only [pairs, digitValue_digitChar high, digitValue_digitChar low, ih,
        Option.bind_eq_bind, Option.bind_some, Option.pure_def, whole,
        UInt8.ofNat_toNat]

theorem bytesOf_text (numbers : JavaScript.Numbers) (text : Text) :
    bytesOf numbers (some (.str text)) = hexToBytes text := rfl

theorem get_signature_marked :
    markedDocument.get "signature".toList = some (.str markedSignature) := rfl

theorem hexToBytes_marked (bytes : List UInt8) :
    hexToBytes ('0' :: 'x' :: toHex bytes) = some bytes :=
  pairs_toHex bytes

theorem integersBelow_markedDocument :
    IntegersBelow (2 ^ 53) markedDocument := by
  refine .obj fun field member => ?_
  obtain ⟨entry, -, rfl⟩ := List.mem_map.mp member
  exact .str _

theorem hashContent_marked (data : List UInt8) :
    hashContent markedEnvironment.scheme data = toHex (Sha256.sha256 data) :=
  rfl

theorem preimage_marked :
    JavaScript.preimage markedEnvironment markedDocument = markedPreimage := by
  rw [preimage_eq markedEnvironment (fun _ => none)
    (distinctKeys_of_loads (loads_markedDocument id))
    integersBelow_markedDocument]
  exact congrArg (fun hash => domainPreimage domainWellKnown [hash])
    (hashContent_marked _)

/-- JavaScript reads the signature after `0x`. -/
theorem valid_in_javaScript_marked :
    (JavaScript.verifyWellKnown markedEnvironment { now := 0 }
      markedDocument).valid = true := by
  have readKey : hexToBytes (toHex admittedKey) = some admittedKey := by
    exact pairs_toHex _
  refine valid_iff.mpr ⟨javaScript_keyProblem_eq_none.mpr
    ⟨by decide +kernel, ?_, ?_, rfl⟩, rfl, rfl⟩
  · refine pidMatchesKey_iff.mpr ⟨admittedKey, admittedPid, ?_, rfl, ?_⟩
    · exact readKey
    · rw [hashContent_marked, pidOf_admittedKey]
      decide +kernel
  · refine verifyEd25519_iff.mpr ⟨admittedKey, List.replicate 64 94, ?_, ?_, ?_⟩
    · exact readKey
    · rw [get_signature_marked, bytesOf_text, markedSignature,
        hexToBytes_marked]
    · rw [preimage_marked]
      exact decide_eq_true List.mem_cons_self

end Examples

end WellKnownAgreement

end RefinetPillars
