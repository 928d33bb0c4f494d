import RefinetPillars.WellKnown

/-!
# Verifying any value

A document comes from a peer, so it may be any value that JSON can express.  Its
texts may hold surrogates that stand alone, which have no encoding.
-/

namespace RefinetPillars

namespace DocumentVerifiers

open HexText LineText DecimalText ContentSigning JsonText ExceptRules
open WellKnown (Expectation firstProblem schema normalizeDomain floatLimit)
open WalletBinding (quoted)

section Values

/-- A code point of a text; a surrogate is counted from the first one. -/
inductive CodePoint where
  | char (character : Char)
  | surrogate (offset : Fin 2048)
deriving DecidableEq

def CodePoint.character : CodePoint → Option Char
  | .char character => some character
  | .surrogate _ => none

/-- What `json.loads` can return. -/
inductive Value where
  | null
  | bool (value : Bool)
  | int (value : Int)
  | float (printed : Text)
  | str (value : List CodePoint)
  | arr (items : List Value)
  | obj (fields : List (List CodePoint × Value))

def plain (text : Text) : List CodePoint := text.map .char

/-- A text without surrogates. -/
def encodable (text : List CodePoint) : Option Text :=
  text.mapM CodePoint.character

namespace Value

/-- The value of a key of a dictionary. -/
def get (key : String) : Value → Option Value
  | .obj fields =>
      (fields.find? fun field => field.1 = plain key.toList).map Prod.snd
  | _ => none

def text : Value → Option Text
  | .str text => encodable text
  | _ => none

def isFalsy : Value → Bool
  | .null => true
  | .bool value => !value
  | .int value => value = 0
  | .float printed => printed = "0.0".toList || printed = "-0.0".toList
  | .str text => text.isEmpty
  | .arr items => items.isEmpty
  | .obj fields => fields.isEmpty

def typeName : Value → Text
  | .null => "NoneType".toList
  | .bool _ => "bool".toList
  | .int _ => "int".toList
  | .float _ => "float".toList
  | .str _ => "str".toList
  | .arr _ => "list".toList
  | .obj _ => "dict".toList

/-- Whether a value is the number three. -/
def isThree : Value → Bool
  | .int value => value = 3
  | .float printed => printed = "3.0".toList
  | _ => false

/-- A dictionary without a key. -/
def without (key : String) : Value → Value
  | .obj fields =>
      .obj (fields.filter fun field => field.1 ≠ plain key.toList)
  | value => value

mutual

/-- How many lists and dictionaries are inside of each other. -/
def depth : Value → Nat
  | .arr items => depthOfItems items + 1
  | .obj fields => depthOfFields fields + 1
  | .null | .bool _ | .int _ | .float _ | .str _ => 0

def depthOfItems : List Value → Nat
  | [] => 0
  | item :: items => max (depth item) (depthOfItems items)

def depthOfFields : List (List CodePoint × Value) → Nat
  | [] => 0
  | (_, value) :: fields => max (depth value) (depthOfFields fields)

end

mutual

/-- The same value, if all its texts can be encoded. -/
def toJson : Value → Option Json
  | .null => some .null
  | .bool value => some (.bool value)
  | .int value => some (.int value)
  | .float printed => some (.float printed)
  | .str text => (encodable text).map .str
  | .arr items => (itemsToJson items).map .arr
  | .obj fields => (fieldsToJson fields).map .obj

def itemsToJson : List Value → Option (List Json)
  | [] => some []
  | item :: items => do
      let item ← toJson item
      let items ← itemsToJson items
      return item :: items

def fieldsToJson : List (List CodePoint × Value) → Option (List (Text × Json))
  | [] => some []
  | (key, value) :: fields => do
      let key ← encodable key
      let value ← toJson value
      let fields ← fieldsToJson fields
      return (key, value) :: fields

end

end Value

end Values

section Definitions

/-- An exception.  That a text cannot be encoded is a value error. -/
inductive Raised where
  | keyError (key : Text)
  | typeError (message : Text)
  | attributeError (message : Text)
  | valueError
  | overflowError
  | recursionError

/-- The text of an exception that is handled. -/
def Raised.message : Raised → Text
  | .keyError key => quoted key
  | .typeError message | .attributeError message => message
  | .valueError | .overflowError | .recursionError => []

/-- What the program takes from elsewhere: signatures, lower case, how floats
are truncated unless they are not finite, and how deep a value may be that is
printed. -/
structure Environment where
  scheme : Scheme
  lower : Text → Text
  truncate : Text → Option Int
  maxDepth : Nat

/-- `int` refuses texts with more digits. -/
def maxStrDigits : Nat := 4300

def digitCount (text : Text) : Nat :=
  text.countP fun character => (decimalValue character).isSome

/-- `int` of a text. -/
def intOfText (text : List CodePoint) : Option Int := do
  let text ← encodable text
  if digitCount text ≤ maxStrDigits then int text else none

variable (env : Environment)

/-- `int` of a value. -/
def intOf : Value → Except Raised Int
  | .bool value => .ok (if value then 1 else 0)
  | .int value => .ok value
  | .float printed =>
      match env.truncate printed with
      | some value => .ok value
      | none =>
          .error (if printed = "NaN".toList then .valueError else .overflowError)
  | .str text =>
      match intOfText text with
      | some value => .ok value
      | none => .error .valueError
  | value =>
      .error (.typeError
        (("int() argument must be a string, a bytes-like object or a real " ++
          "number, not ").toList ++ quoted value.typeName))

def item (key : String) (doc : Value) : Except Raised Value :=
  match doc.get key with
  | some value => .ok value
  | none => .error (.keyError key.toList)

/-- `pid_matches_key` of any values. -/
def pidMatchesKey (pid publicKey : Value) : Bool :=
  match pid.text, publicKey.text with
  | some pid, some publicKey =>
      ContentSigning.pidMatchesKey env.scheme pid publicKey
  | _, _ => false

/-- `verify_domain` of any values. -/
def verifyDomain (domain : Text) (signature publicKey : Value)
    (digest : Text) : Bool :=
  match signature.text, publicKey.text with
  | some signature, some publicKey =>
      ContentSigning.verifyDomain env.scheme domain signature publicKey [digest]
  | _, _ => false

/-- Sorted keys, no blanks, UTF-8. -/
def canonicalJson (value : Value) : Except Raised (List UInt8) :=
  if env.maxDepth < value.depth then .error .recursionError
  else
    match value.toJson with
    | some json => .ok (WalletBinding.canonicalJson json)
    | none => .error .valueError

/-- What is wrong with the key or the signature of a document. -/
def ownerProblem (domain : Text) (signatureKey failed : String)
    (doc : Value) : Except Raised (Option Text) := do
  let pid ← item "pid" doc
  let publicKey ← item "public_key" doc
  if ¬ pidMatchesKey env pid publicKey then
    return some "public key does not hash to pid".toList
  let signature ← item signatureKey doc
  let body ← canonicalJson env (doc.without signatureKey)
  if ¬ verifyDomain env domain signature publicKey
      (hashContent env.scheme body) then
    return some failed.toList
  return none

/-- The verdict on a document, given the exceptions that are handled. -/
def verdict (handled : Raised → Bool) :
    Except Raised (Option Text) → Except Raised (Bool × Text)
  | .ok none => .ok (true, "valid".toList)
  | .ok (some problem) => .ok (false, problem)
  | .error raised =>
      if handled raised then
        .ok (false, "malformed document: ".toList ++ raised.message)
      else .error raised

section WellKnown

variable (expectation : Expectation)

def schemaProblem (doc : Value) : Except Raised (Option Text) :=
  if (doc.get "schema").any fun value => value.text = some schema then .ok none
  else .ok (some "not a refinet-pillar/1 document".toList)

def pidProblem (doc : Value) : Except Raised (Option Text) :=
  match expectation.pid with
  | none | some [] => .ok none
  | some expected => do
      let pid ← item "pid" doc
      return if pid.text = some (env.lower expected) then none
        else some "document names a different PID".toList

/-- A difference of floats. -/
def since (now : ℚ) (issued : Int) : Except Raised ℚ :=
  if issued.natAbs < floatLimit then .ok (now - issued)
  else .error .overflowError

/-- How many seconds ago a document was issued. -/
def ageOf (now : ℚ) (doc : Value) : Except Raised ℚ := do
  let issued ← intOf env ((doc.get "issued_at").getD (.int 0))
  since now issued

def ageProblem (doc : Value) : Except Raised (Option Text) :=
  match expectation.maxAgeSec with
  | none => .ok none
  | some maxAge => do
      let age ← ageOf env expectation.now doc
      return if maxAge < age then
          some ("document is ".toList ++ intText (age / 86400).floor ++
            " days old".toList)
        else none

/-- A value that is put into a set. -/
def hashed (value : Value) : Except Raised Value :=
  match value with
  | .arr _ | .obj _ =>
      .error (.typeError ("unhashable type: ".toList ++ quoted value.typeName))
  | .null | .bool _ | .int _ | .float _ | .str _ => .ok value

def iterate (value : Value) : Except Raised (List Value) :=
  match value with
  | .arr items => .ok items
  | .obj fields => .ok (fields.map fun field => .str field.1)
  | .str text => .ok (text.map fun point => .str [point])
  | .null | .bool _ | .int _ | .float _ =>
      .error (.typeError
        (quoted value.typeName ++ " object is not iterable".toList))

/-- `doc.get("linked_domains") or []`. -/
def linkedDomains (doc : Value) : Value :=
  match doc.get "linked_domains" with
  | some value => if value.isFalsy then .arr [] else value
  | none => .arr []

/-- The domains that a document claims. -/
def claimed (doc : Value) : Except Raised (List Value) := do
  let own ← hashed ((doc.get "domain").getD .null)
  let linked ← iterate (linkedDomains doc)
  let linked ← linked.mapM hashed
  return own :: linked

def domainProblem (doc : Value) : Except Raised (Option Text) :=
  match expectation.domain with
  | none | some [] => .ok none
  | some domain => do
      let want := normalizeDomain env.lower domain
      let claimed ← claimed doc
      return if claimed.any fun value => value.text = some want then none
        else some ("document does not claim ".toList ++ want)

def handledByWellKnown : Raised → Bool
  | .keyError _ | .typeError _ | .attributeError _ => true
  | .valueError | .overflowError | .recursionError => false

def verifyWellKnown (doc : Value) : Except Raised (Bool × Text) :=
  verdict handledByWellKnown (firstProblem [schemaProblem doc,
    ownerProblem env domainWellKnown "signature" "signature does not verify" doc,
    pidProblem env expectation doc, ageProblem env expectation doc,
    domainProblem env expectation doc])

end WellKnown

section Identity

def versionProblem (doc : Value) : Except Raised (Option Text) :=
  match doc with
  | .obj _ =>
      .ok (if (doc.get "schema_version").any Value.isThree then none
        else some "not a v3 identity document".toList)
  | _ =>
      .error (.attributeError
        (quoted doc.typeName ++ " object has no attribute 'get'".toList))

def handledByIdentity : Raised → Bool
  | .keyError _ | .typeError _ => true
  | .attributeError _ | .valueError | .overflowError | .recursionError => false

def verifyIdentityV3 (doc : Value) : Except Raised (Bool × Text) :=
  verdict handledByIdentity (firstProblem [versionProblem doc,
    ownerProblem env domainIdentity "document_signature"
      "document signature does not verify" doc])

end Identity

end Definitions

section Texts

@[simp]
theorem encodable_plain (text : Text) : encodable (plain text) = some text := by
  induction text with
  | nil => rfl
  | cons character text ih =>
      rw [encodable, plain] at ih
      simp [encodable, plain, CodePoint.character, ih]

@[simp]
theorem text_plain (text : Text) : (Value.str (plain text)).text = some text :=
  encodable_plain text

end Texts

section Specification

variable (env : Environment)

/-- A document names a key that hashes to its PID, and has a signature. -/
structure IsKeyed (signatureKey : String) (doc pid publicKey signature : Value) :
    Prop where
  hasPid : doc.get "pid" = some pid
  hasKey : doc.get "public_key" = some publicKey
  hasSignature : doc.get signatureKey = some signature
  hashes : pidMatchesKey env pid publicKey = true

/-- A value that `json.dumps` can print and UTF-8 can encode. -/
def IsPrintable (value : Value) : Prop :=
  value.depth ≤ env.maxDepth ∧ value.toJson.isSome = true

/-- The signature of a document verifies. -/
def Verifies (domain : Text) (signatureKey : String) (doc : Value) : Prop :=
  ∃ pid publicKey signature body,
    IsKeyed env signatureKey doc pid publicKey signature ∧
    (doc.without signatureKey).depth ≤ env.maxDepth ∧
    (doc.without signatureKey).toJson = some body ∧
    verifyDomain env domain signature publicKey
      (hashContent env.scheme (WalletBinding.canonicalJson body)) = true

/-- The owner of the key that hashes to the PID of a document has signed it. -/
def IsSignedByOwner (Signed : List UInt8 → List UInt8 → Prop) (domain : Text)
    (signatureKey : String) (doc : Value) : Prop :=
  ∃ pid publicKey body, doc.get "pid" = some pid ∧
    pid.text = some (pidOf env.scheme publicKey) ∧
    (doc.without signatureKey).toJson = some body ∧
    Signed publicKey (domainPreimage domain
      [hashContent env.scheme (WalletBinding.canonicalJson body)])

/-- A verifier returns a verdict, and refuses what the owner has not signed. -/
def Settles (result : Except Raised (Bool × Text)) (signed : Prop) : Prop :=
  (∃ verdict, result = .ok verdict) ∧
    (¬ signed → ∃ reason, result = .ok (false, reason))

def IsNamed (doc : Value) : Prop :=
  ∃ value, doc.get "schema" = some value ∧ value.text = some schema

def IsExpected (expectation : Expectation) (doc : Value) : Prop :=
  ∀ expected ∈ expectation.pid, expected ≠ [] →
    ∃ pid, doc.get "pid" = some pid ∧ pid.text = some (env.lower expected)

/-- What `int` turns into a number that a float can hold, or refuses by a type
error. -/
def isTime : Value → Bool
  | .null | .bool _ | .arr _ | .obj _ => true
  | .int value => value.natAbs < floatLimit
  | .float printed =>
      (env.truncate printed).any fun value => value.natAbs < floatLimit
  | .str text => (intOfText text).any fun value => value.natAbs < floatLimit

/-- When `verify_well_known` returns. -/
structure WellKnownReturns (expectation : Expectation) (doc : Value) :
    Prop where
  body : IsNamed doc → ∀ pid publicKey signature,
    IsKeyed env "signature" doc pid publicKey signature →
      IsPrintable env (doc.without "signature")
  time : IsNamed doc → Verifies env domainWellKnown "signature" doc →
    IsExpected env expectation doc → expectation.maxAgeSec ≠ none →
      isTime env ((doc.get "issued_at").getD (.int 0)) = true

/-- When `verify_identity_v3` returns. -/
structure IdentityReturns (doc : Value) : Prop where
  dictionary : ∃ fields, doc = .obj fields
  body : (doc.get "schema_version").any Value.isThree = true →
    ∀ pid publicKey signature,
      IsKeyed env "document_signature" doc pid publicKey signature →
        IsPrintable env (doc.without "document_signature")

end Specification

section Verdicts

variable {handled : Raised → Bool} {found : Except Raised (Option Text)}
  {checks : List (Except Raised (Option Text))} {reason : Text}

def IsHandled (handled : Raised → Bool) (raised : Raised) : Prop :=
  handled raised = true

theorem exists_verdict_iff :
    (∃ returned, verdict handled found = .ok returned) ↔
      Raises (IsHandled handled) found := by
  rcases found with raised | _ | problem
  · rw [Raises.error_iff, IsHandled, verdict]
    split
    next isHandled => simp [isHandled]
    next notHandled => simp [notHandled]
  · exact iff_of_true ⟨_, rfl⟩ .ok
  · exact iff_of_true ⟨_, rfl⟩ .ok

/-- A document is valid only if no problem is found. -/
theorem eq_none_of_verdict (valid : verdict handled found = .ok (true, reason)) :
    found = .ok none := by
  rcases found with raised | _ | problem
  · rw [verdict] at valid
    split at valid <;> cases valid
  · rfl
  · cases valid

theorem firstProblem_eq_none_iff :
    firstProblem checks = .ok none ↔ ∀ check ∈ checks, check = .ok none := by
  induction checks with
  | nil => simp [firstProblem]
  | cons check checks ih =>
      rw [List.forall_mem_cons, ← ih]
      rcases check with raised | _ | problem <;> simp [firstProblem]

theorem raises_firstProblem_nil {allowed : Raised → Prop} :
    Raises allowed (firstProblem []) := .ok

theorem raises_firstProblem_cons {allowed : Raised → Prop} :
    Raises allowed (firstProblem (found :: checks)) ↔
      Raises allowed found ∧
        (found = .ok none → Raises allowed (firstProblem checks)) := by
  rcases found with raised | _ | problem
  · simp [firstProblem]
  · simp [firstProblem, Raises.ok]
  · simp [firstProblem, Raises.ok]

end Verdicts

section Checks

variable {env : Environment} {allowed : Raised → Prop} {doc value : Value}
  {domain : Text} {signatureKey failed key : String}

theorem item_eq_ok : item key doc = .ok value ↔ doc.get key = some value := by
  rw [item]
  cases doc.get key <;> simp

theorem raises_item (known : ∀ key, allowed (.keyError key)) (key : String)
    (doc : Value) : Raises allowed (item key doc) := by
  rw [item]
  cases doc.get key with
  | some value => exact .ok
  | none => exact .error (known _)

theorem canonicalJson_eq_ok {bytes : List UInt8} :
    canonicalJson env value = .ok bytes ↔
      value.depth ≤ env.maxDepth ∧
        ∃ json, value.toJson = some json ∧
          WalletBinding.canonicalJson json = bytes := by
  rw [canonicalJson]
  split
  next deep => exact iff_of_false nofun fun shallow => absurd shallow.1 (by omega)
  next shallow =>
    cases value.toJson with
    | none => simp
    | some json => simp [not_lt.mp shallow]

theorem raises_canonicalJson (noValue : ¬ allowed .valueError)
    (noRecursion : ¬ allowed .recursionError) :
    Raises allowed (canonicalJson env value) ↔ IsPrintable env value := by
  rw [canonicalJson, IsPrintable]
  split
  next deep =>
    rw [Raises.error_iff]
    exact iff_of_false noRecursion fun shallow => absurd shallow.1 (by omega)
  next shallow =>
    cases value.toJson with
    | none => simp [Raises.error_iff, noValue]
    | some json => simp [Raises.ok, not_lt.mp shallow]

theorem ownerProblem_eq_none :
    ownerProblem env domain signatureKey failed doc = .ok none ↔
      Verifies env domain signatureKey doc := by
  constructor
  · intro passes
    obtain ⟨pid, hasPid, passes⟩ := bind_eq_ok.mp passes
    obtain ⟨publicKey, hasKey, passes⟩ := bind_eq_ok.mp passes
    split at passes
    · cases passes
    next hashes =>
      obtain ⟨signature, hasSignature, passes⟩ := bind_eq_ok.mp passes
      obtain ⟨bytes, printed, passes⟩ := bind_eq_ok.mp passes
      obtain ⟨shallow, body, encoded, rfl⟩ := canonicalJson_eq_ok.mp printed
      split at passes
      · cases passes
      next verified =>
        exact ⟨pid, publicKey, signature, body,
          ⟨item_eq_ok.mp hasPid, item_eq_ok.mp hasKey,
            item_eq_ok.mp hasSignature, not_not.mp hashes⟩,
          shallow, encoded, not_not.mp verified⟩
  · rintro ⟨pid, publicKey, signature, body, keyed, shallow, encoded, verified⟩
    refine bind_eq_ok.mpr ⟨pid, item_eq_ok.mpr keyed.hasPid, ?_⟩
    refine bind_eq_ok.mpr ⟨publicKey, item_eq_ok.mpr keyed.hasKey, ?_⟩
    rw [if_neg (not_not.mpr keyed.hashes)]
    refine bind_eq_ok.mpr ⟨signature, item_eq_ok.mpr keyed.hasSignature, ?_⟩
    refine bind_eq_ok.mpr
      ⟨_, canonicalJson_eq_ok.mpr ⟨shallow, body, encoded, rfl⟩, ?_⟩
    rw [if_neg (not_not.mpr verified)]
    rfl

/-- Only the printing of the body can raise more than a key error. -/
theorem raises_ownerProblem (known : ∀ key, allowed (.keyError key))
    (noValue : ¬ allowed .valueError)
    (noRecursion : ¬ allowed .recursionError) :
    Raises allowed (ownerProblem env domain signatureKey failed doc) ↔
      ∀ pid publicKey signature,
        IsKeyed env signatureKey doc pid publicKey signature →
          IsPrintable env (doc.without signatureKey) := by
  have items := raises_item known
  constructor
  · intro raises pid publicKey signature keyed
    have afterPid := (Raises.bind_iff.mp raises).2 pid
      (item_eq_ok.mpr keyed.hasPid)
    have afterKey := (Raises.bind_iff.mp afterPid).2 publicKey
      (item_eq_ok.mpr keyed.hasKey)
    rw [if_neg (not_not.mpr keyed.hashes)] at afterKey
    have afterSignature := (Raises.bind_iff.mp afterKey).2 signature
      (item_eq_ok.mpr keyed.hasSignature)
    exact (raises_canonicalJson noValue noRecursion).mp
      (Raises.bind_iff.mp afterSignature).1
  · intro printable
    refine (items "pid" doc).bind fun pid hasPid => ?_
    refine (items "public_key" doc).bind fun publicKey hasKey => ?_
    split
    · exact .ok
    next hashes =>
      refine (items signatureKey doc).bind fun signature hasSignature => ?_
      have keyed : IsKeyed env signatureKey doc pid publicKey signature :=
        ⟨item_eq_ok.mp hasPid, item_eq_ok.mp hasKey,
          item_eq_ok.mp hasSignature, not_not.mp hashes⟩
      refine ((raises_canonicalJson noValue noRecursion).mpr
        (printable pid publicKey signature keyed)).bind fun body _ => ?_
      split
      · exact .ok
      · exact .ok

end Checks

section Problems

variable {env : Environment} {allowed : Raised → Prop} {doc : Value}
  {expectation : Expectation}

theorem schemaProblem_eq_none : schemaProblem doc = .ok none ↔ IsNamed doc := by
  rw [schemaProblem, IsNamed]
  cases doc.get "schema" with
  | none => simp
  | some value => by_cases named : value.text = some schema <;> simp [named]

theorem raises_schemaProblem : Raises allowed (schemaProblem doc) := by
  rw [schemaProblem]
  split
  · exact .ok
  · exact .ok

theorem pidProblem_eq_none {pid : Value} (hasPid : doc.get "pid" = some pid) :
    pidProblem env expectation doc = .ok none ↔
      IsExpected env expectation doc := by
  have read : item "pid" doc = .ok pid := item_eq_ok.mpr hasPid
  unfold pidProblem IsExpected
  cases expectation.pid with
  | none => simp
  | some expected =>
      cases expected with
      | nil => simp
      | cons first rest =>
          simp only [read, bind, Except.bind, pure, Except.pure]
          by_cases same : pid.text = some (env.lower (first :: rest)) <;>
            simp [same, hasPid]

theorem raises_pidProblem (known : ∀ key, allowed (.keyError key)) :
    Raises allowed (pidProblem env expectation doc) := by
  unfold pidProblem
  split
  · exact .ok
  · exact .ok
  · exact (raises_item known _ _).bind fun _ _ => .ok

theorem one_lt_two_pow_sub {first second : Nat} (positive : 0 < first)
    (larger : first < second) : 1 < 2 ^ second - 2 ^ first := by
  have doubled : 2 ^ (first + 1) ≤ 2 ^ second :=
    Nat.pow_le_pow_right two_pos larger
  have two : 2 ^ 1 ≤ 2 ^ first := Nat.pow_le_pow_right two_pos positive
  rw [pow_succ] at doubled
  omega

theorem one_lt_floatLimit : 1 < floatLimit := by
  rw [floatLimit]
  exact one_lt_two_pow_sub (by omega) (by omega)

theorem raises_since (noOverflow : ¬ allowed .overflowError) (now : ℚ)
    (issued : Int) :
    Raises allowed (since now issued) ↔ issued.natAbs < floatLimit := by
  unfold since
  split
  next small => exact iff_of_true .ok small
  next large => exact iff_of_false (noOverflow <| Raises.error_iff.mp ·) large

/-- Only the time of issue can raise more than a type error. -/
theorem raises_ageOf (typed : ∀ message, allowed (.typeError message))
    (noValue : ¬ allowed .valueError) (noOverflow : ¬ allowed .overflowError)
    (now : ℚ) :
    Raises allowed (ageOf env now doc) ↔
      isTime env ((doc.get "issued_at").getD (.int 0)) = true := by
  have read := raises_since noOverflow now
  rw [ageOf]
  generalize (doc.get "issued_at").getD (.int 0) = issued
  cases issued with
  | null | arr items | obj fields =>
      rw [intOf, error_bind, isTime]
      · exact iff_of_true (.error (typed _)) rfl
      all_goals nofun
  | bool value =>
      rw [intOf, ok_bind, read, isTime]
      refine iff_of_true ?_ rfl
      cases value with
      | false => exact Nat.zero_lt_of_lt one_lt_floatLimit
      | true => exact one_lt_floatLimit
  | int value => rw [intOf, ok_bind, read, isTime, decide_eq_true_eq]
  | float printed =>
      rw [intOf, isTime]
      cases env.truncate printed with
      | some value =>
          dsimp only
          rw [ok_bind, read, Option.any_some, decide_eq_true_eq]
      | none =>
          dsimp only
          rw [error_bind, Raises.error_iff]
          refine iff_of_false ?_ Bool.false_ne_true
          split
          · exact noValue
          · exact noOverflow
  | str text =>
      rw [intOf, isTime]
      cases intOfText text with
      | some value =>
          dsimp only
          rw [ok_bind, read, Option.any_some, decide_eq_true_eq]
      | none =>
          dsimp only
          rw [error_bind, Raises.error_iff]
          exact iff_of_false noValue Bool.false_ne_true

theorem raises_ageProblem (typed : ∀ message, allowed (.typeError message))
    (noValue : ¬ allowed .valueError) (noOverflow : ¬ allowed .overflowError) :
    Raises allowed (ageProblem env expectation doc) ↔
      (expectation.maxAgeSec ≠ none →
        isTime env ((doc.get "issued_at").getD (.int 0)) = true) := by
  unfold ageProblem
  cases expectation.maxAgeSec with
  | none => simp [Raises.ok]
  | some maxAge =>
      rw [← raises_ageOf typed noValue noOverflow expectation.now]
      simp only [Raises.bind_iff, pure, Except.pure, Raises.ok, implies_true,
        and_true, ne_eq, reduceCtorEq, not_false_eq_true, forall_const]

theorem raises_hashed (typed : ∀ message, allowed (.typeError message))
    (value : Value) : Raises allowed (hashed value) := by
  unfold hashed
  split
  · exact .error (typed _)
  · exact .error (typed _)
  all_goals exact .ok

theorem raises_iterate (typed : ∀ message, allowed (.typeError message))
    (value : Value) : Raises allowed (iterate value) := by
  unfold iterate
  split
  · exact .ok
  · exact .ok
  · exact .ok
  all_goals exact .error (typed _)

theorem raises_domainProblem
    (typed : ∀ message, allowed (.typeError message)) :
    Raises allowed (domainProblem env expectation doc) := by
  unfold domainProblem
  split
  · exact .ok
  · exact .ok
  · have claims : Raises allowed (claimed doc) :=
      (raises_hashed typed _).bind fun _ _ =>
        (raises_iterate typed _).bind fun _ _ =>
          (Raises.mapM fun value _ => raises_hashed typed value).bind
            fun _ _ => .ok
    exact claims.bind fun _ _ => .ok

theorem versionProblem_eq_none :
    versionProblem doc = .ok none ↔
      (doc.get "schema_version").any Value.isThree = true := by
  unfold versionProblem
  cases doc with
  | obj fields =>
      by_cases three : ((Value.obj fields).get "schema_version").any
          Value.isThree = true
      · simp [three]
      · simp [three]
  | null | bool | int | float | str | arr => simp [Value.get]

theorem raises_versionProblem (noAttribute : ∀ message,
    ¬ allowed (.attributeError message)) :
    Raises allowed (versionProblem doc) ↔ ∃ fields, doc = .obj fields := by
  unfold versionProblem
  cases doc with
  | obj fields => exact iff_of_true .ok ⟨fields, rfl⟩
  | null | bool | int | float | str | arr =>
      exact iff_of_false (noAttribute _ <| Raises.error_iff.mp ·) (by simp)

end Problems

section Settlement

variable {env : Environment} {expectation : Expectation} {doc : Value}

theorem exists_verdict_verifyWellKnown_iff :
    (∃ returned, verifyWellKnown env expectation doc = .ok returned) ↔
      WellKnownReturns env expectation doc := by
  have known : ∀ key, IsHandled handledByWellKnown (.keyError key) :=
    fun _ => rfl
  have typed : ∀ message, IsHandled handledByWellKnown (.typeError message) :=
    fun _ => rfl
  rw [verifyWellKnown, exists_verdict_iff, raises_firstProblem_cons,
    raises_firstProblem_cons, raises_firstProblem_cons,
    raises_firstProblem_cons, raises_firstProblem_cons,
    raises_ownerProblem known nofun nofun,
    raises_ageProblem typed nofun nofun, schemaProblem_eq_none,
    ownerProblem_eq_none]
  constructor
  · rintro ⟨-, later⟩
    exact {
      body := fun named => (later named).1
      time := by
        intro named verifies expected limited
        have ⟨pid, _, _, _, keyed, _⟩ := verifies
        exact (((later named).2 verifies).2
          ((pidProblem_eq_none keyed.hasPid).mpr expected)).1 limited }
  · intro returns
    refine ⟨raises_schemaProblem, fun named => ⟨returns.body named, ?_⟩⟩
    intro verifies
    refine ⟨raises_pidProblem known, fun expected => ⟨?_, fun _ =>
      ⟨raises_domainProblem typed, fun _ => raises_firstProblem_nil⟩⟩⟩
    have ⟨pid, _, _, _, keyed, _⟩ := verifies
    exact returns.time named verifies
      ((pidProblem_eq_none keyed.hasPid).mp expected)

theorem exists_verdict_verifyIdentityV3_iff :
    (∃ returned, verifyIdentityV3 env doc = .ok returned) ↔
      IdentityReturns env doc := by
  have known : ∀ key, IsHandled handledByIdentity (.keyError key) :=
    fun _ => rfl
  rw [verifyIdentityV3, exists_verdict_iff, raises_firstProblem_cons,
    raises_firstProblem_cons, raises_ownerProblem known nofun nofun,
    raises_versionProblem nofun, versionProblem_eq_none]
  constructor
  · rintro ⟨dictionary, later⟩
    exact ⟨dictionary, fun three => (later three).1⟩
  · rintro ⟨dictionary, body⟩
    exact ⟨dictionary, fun three => ⟨body three, fun _ =>
      raises_firstProblem_nil⟩⟩

/-- Whatever verifies has been signed by the owner of the key. -/
theorem isSignedByOwner_of_verifies {Signed : List UInt8 → List UInt8 → Prop}
    (unforgeable : env.scheme.Unforgeable Signed) {domain : Text}
    {signatureKey : String} (verifies : Verifies env domain signatureKey doc) :
    IsSignedByOwner env Signed domain signatureKey doc := by
  obtain ⟨pid, publicKey, signature, body, keyed, -, encoded, verified⟩ :=
    verifies
  have hashes := keyed.hashes
  rw [pidMatchesKey] at hashes
  rw [verifyDomain] at verified
  split at hashes
  next pidText keyText hasPid hasKey =>
    rw [hasKey] at verified
    split at verified
    next signatureText other _ same =>
      obtain rfl := Option.some.inj same
      obtain ⟨key, decoded, rfl⟩ := pidMatchesKey_iff.mp hashes
      exact ⟨pid, key, body, keyed.hasPid, hasPid, encoded,
        unforgeable.signed decoded verified⟩
    · cases verified
  · cases hashes

/-- A verdict on a document that its owner has not signed is a refusal. -/
theorem settles_iff {result : Except Raised (Bool × Text)} {signed : Prop}
    (sound : ∀ reason, result = .ok (true, reason) → signed) :
    Settles result signed ↔ ∃ returned, result = .ok returned := by
  constructor
  · exact fun settles => settles.1
  · rintro ⟨⟨valid, reason⟩, returned⟩
    refine ⟨⟨_, returned⟩, fun unsigned => ⟨reason, ?_⟩⟩
    cases valid with
    | false => exact returned
    | true => exact absurd (sound reason returned) unsigned

end Settlement

section Examples

/-- No signature verifies. -/
def unsignedEnvironment : Environment where
  scheme := {
    sha256 := Sha256.sha256
    publicKey := id
    sign := fun _ _ => []
    verify := fun _ _ _ => false }
  lower := id
  truncate _ := none
  maxDepth := 900

/-- A document of the empty key with a surrogate that stands alone. -/
def surrogateDocument : Value :=
  .obj [(plain "schema".toList, .str (plain schema)),
    (plain "pid".toList,
      .str (plain (pidOf unsignedEnvironment.scheme []))),
    (plain "public_key".toList, .str []),
    (plain "signature".toList, .str []),
    (plain "domain".toList, .str [.surrogate 0])]

end Examples

end DocumentVerifiers

end RefinetPillars
