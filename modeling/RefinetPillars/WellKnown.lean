import RefinetPillars.WalletBinding

/-!
# Domain proofs

A Pillar on a live domain serves a signed document that names its PID, its key
and where it answers.  Whoever fetches it checks the key, the signature, the
age and the domain.
-/

namespace RefinetPillars

namespace WellKnown

open HexText LineText DecimalText ContentSigning JsonText ExceptRules
open WalletBinding (item item_eq_ok orElse iterate IsText pidMatchesValue
  verifyValues typeName quoted)

section Domains

def isLowerLetter (character : Char) : Bool :=
  'a' ≤ character && character ≤ 'z'

/-- Without letters followed by `://`. -/
def dropScheme (text : Text) : Text :=
  let letters := text.takeWhile isLowerLetter
  let rest := text.dropWhile isLowerLetter
  if letters ≠ [] ∧ "://".toList <+: rest then rest.drop 3 else text

def beforeSlash (text : Text) : Text :=
  text.takeWhile fun character => character ≠ '/'

/-- `.rstrip(".")`. -/
def dropDots (text : Text) : Text :=
  (text.reverse.dropWhile fun character => character = '.').reverse

def normalizeDomain (lower : Text → Text) (value : Text) : Text :=
  dropDots (beforeSlash (dropScheme (lower (strip value))))

/-- A label of a host name. -/
def isHostLabel (label : Text) : Bool :=
  1 ≤ label.length && label.length ≤ 63 && label.head? ≠ some '-' &&
    label.getLast? ≠ some '-' && label.all fun character =>
      isLowerLetter character || character.isDigit || character = '-'

/-- A dotted host name that is not all digits; the expression allows a line feed
at the end. -/
def isValidDomain (value : Text) : Bool :=
  let name := if value.getLast? = some (Char.ofNat 10) then value.dropLast
    else value
  let labels := name.splitOn '.'
  name.length ≤ 253 && 2 ≤ labels.length && labels.all isHostLabel &&
    !value.all fun character => character.isDigit || character = '.'

end Domains

section Verification

def schema : Text := "refinet-pillar/1".toList

/-- An exception; one about a number that cannot be read or held is not
handled. -/
inductive Raised where
  | known (raised : WalletBinding.Raised)
  | notANumber (value : Json)
  | unhashable (value : Json)
  | unhandled

def Raised.message : Raised → Text
  | .known raised => raised.message
  | .notANumber value =>
      ("int() argument must be a string, a bytes-like object or a real " ++
        "number, not ").toList ++ quoted (typeName value)
  | .unhashable value => "unhashable type: ".toList ++ quoted (typeName value)
  | .unhandled => []

/-- What the program takes from elsewhere: signatures, lower case and how
floats are truncated, unless they are not finite. -/
structure Environment where
  scheme : Scheme
  lower : Text → Text
  truncate : Text → Option Int

/-- What is expected of a document, and when it is verified, in seconds. -/
structure Expectation where
  pid : Option Text := none
  domain : Option Text := none
  maxAgeSec : Option ℚ := none
  now : ℚ

variable (env : Environment)

def unsigned : Json → Json
  | .obj fields =>
      .obj (fields.filter fun field => field.1 ≠ "signature".toList)
  | value => value

/-- What the signature of a document covers. -/
def preimage (doc : Json) : List UInt8 :=
  domainPreimage domainWellKnown
    [hashContent env.scheme (WalletBinding.canonicalJson (unsigned doc))]

/-- `int(doc.get("issued_at", 0))`. -/
def issuedAt (doc : Json) : Except Raised Int :=
  match doc.get "issued_at".toList with
  | none => .ok 0
  | some (.bool value) => .ok (if value then 1 else 0)
  | some (.int value) => .ok value
  | some (.float printed) =>
      match env.truncate printed with
      | some value => .ok value
      | none => .error .unhandled
  | some (.str text) =>
      match int text with
      | some value => .ok value
      | none => .error .unhandled
  | some value => .error (.notANumber value)

/-- Integers from here on are not converted to a float. -/
def floatLimit : Nat :=
  2 ^ 1024 - 2 ^ 970

/-- How many seconds ago a document was issued. -/
def ageOf (now : ℚ) (doc : Json) : Except Raised ℚ := do
  let issued ← issuedAt env doc
  if issued.natAbs < floatLimit then return now - issued
  else .error .unhandled

/-- A value that is put into a set. -/
def hashed : Json → Except Raised Json
  | .arr items => .error (.unhashable (.arr items))
  | .obj fields => .error (.unhashable (.obj fields))
  | value => .ok value

/-- The domains that a document claims. -/
def claimed (doc : Json) : Except Raised (List Json) := do
  let own ← hashed ((doc.get "domain".toList).getD .null)
  let linked ←
    (iterate (orElse (doc.get "linked_domains".toList) (.arr []))).mapError
      Raised.known
  let linked ← linked.mapM hashed
  return own :: linked

/-- Whether another PID is expected than the document names. -/
def Expectation.otherPid (expectation : Expectation) (pid : Json) : Bool :=
  match expectation.pid with
  | none | some [] => false
  | some expected => ¬ IsText (env.lower expected) pid

/-- What is wrong with the age of a document. -/
def ageProblem (expectation : Expectation) (doc : Json) :
    Except Raised (Option Text) :=
  match expectation.maxAgeSec with
  | none => .ok none
  | some maxAge => do
      let age ← ageOf env expectation.now doc
      return if maxAge < age then
          some ("document is ".toList ++ intText (age / 86400).floor ++
            " days old".toList)
        else none

/-- What is wrong with the domains of a document. -/
def domainProblem (expectation : Expectation) (doc : Json) :
    Except Raised (Option Text) :=
  match expectation.domain with
  | none | some [] => .ok none
  | some domain => do
      let want := normalizeDomain env.lower domain
      let claimed ← claimed doc
      return if claimed.any (IsText want) then none
        else some ("document does not claim ".toList ++ want)

/-- What is wrong with the schema, the key, the signature or the PID. -/
def keyProblem (expectation : Expectation) (doc : Json) :
    Except Raised (Option Text) := do
  if ¬ (doc.get "schema".toList).any (IsText schema) then
    return some "not a refinet-pillar/1 document".toList
  let pid ← (item "pid" doc).mapError Raised.known
  let publicKey ← (item "public_key" doc).mapError Raised.known
  if ¬ pidMatchesValue env.scheme pid publicKey then
    return some "public key does not hash to pid".toList
  let signature ← (item "signature" doc).mapError Raised.known
  if ¬ verifyValues env.scheme (preimage env doc) signature publicKey then
    return some "signature does not verify".toList
  if expectation.otherPid env pid then
    return some "document names a different PID".toList
  return none

/-- The first problem, where an exception ends the search. -/
def firstProblem {Failure : Type} :
    List (Except Failure (Option Text)) → Except Failure (Option Text)
  | [] => .ok none
  | .ok none :: others => firstProblem others
  | found :: _ => found

def verifyWellKnown (expectation : Expectation) (doc : Json) :
    Except Raised (Bool × Text) :=
  match firstProblem [keyProblem env expectation doc,
      ageProblem env expectation doc, domainProblem env expectation doc] with
  | .ok none => .ok (true, "valid".toList)
  | .ok (some problem) => .ok (false, problem)
  | .error .unhandled => .error .unhandled
  | .error raised =>
      .ok (false, "malformed document: ".toList ++ raised.message)

end Verification

section Verdicts

variable {expectation : Expectation} {doc : Json}

/-- The document passes the checks of the PID, the key and the signature. -/
theorem keyProblem_eq_none {env : Environment} :
    keyProblem env expectation doc = .ok none ↔
      (doc.get "schema".toList).any (IsText schema) = true ∧
      ∃ pid publicKey signature, doc.get "pid".toList = some pid ∧
        doc.get "public_key".toList = some publicKey ∧
        doc.get "signature".toList = some signature ∧
        pidMatchesValue env.scheme pid publicKey = true ∧
        verifyValues env.scheme (preimage env doc) signature
          publicKey = true ∧
        expectation.otherPid env pid = false := by
  constructor
  · intro passes
    unfold keyProblem at passes
    split at passes
    · cases passes
    next named =>
      obtain ⟨pid, hasPid, passes⟩ := bind_eq_ok.mp passes
      obtain ⟨publicKey, hasKey, passes⟩ := bind_eq_ok.mp passes
      split at passes
      · cases passes
      next keyed =>
        obtain ⟨signature, hasSignature, passes⟩ := bind_eq_ok.mp passes
        split at passes
        · cases passes
        next signed =>
          split at passes
          · cases passes
          next expected =>
            exact ⟨not_not.mp named, pid, publicKey, signature,
              item_eq_ok.mp (mapError_eq_ok.mp hasPid),
              item_eq_ok.mp (mapError_eq_ok.mp hasKey),
              item_eq_ok.mp (mapError_eq_ok.mp hasSignature),
              not_not.mp keyed, not_not.mp signed,
              Bool.not_eq_true _ ▸ expected⟩
  · rintro ⟨named, pid, publicKey, signature, hasPid, hasKey, hasSignature,
      keyed, signed, expected⟩
    rw [keyProblem, if_neg (not_not.mpr named)]
    refine bind_eq_ok.mpr
      ⟨pid, mapError_eq_ok.mpr (item_eq_ok.mpr hasPid), ?_⟩
    refine bind_eq_ok.mpr
      ⟨publicKey, mapError_eq_ok.mpr (item_eq_ok.mpr hasKey), ?_⟩
    rw [if_neg (not_not.mpr keyed)]
    refine bind_eq_ok.mpr
      ⟨signature, mapError_eq_ok.mpr (item_eq_ok.mpr hasSignature), ?_⟩
    rw [if_neg (not_not.mpr signed), if_neg (by simp [expected])]
    rfl

def IsKnown (raised : Raised) : Prop :=
  raised ≠ .unhandled

theorem raises_known {Value : Type}
    (action : Except WalletBinding.Raised Value) :
    Raises IsKnown (action.mapError Raised.known) := by
  cases action with
  | ok value => exact .ok
  | error raised => exact .error (by rintro ⟨⟩)

theorem raises_keyProblem (env : Environment)
    (expectation : Expectation) (doc : Json) :
    Raises IsKnown (keyProblem env expectation doc) := by
  unfold keyProblem
  split
  · exact .ok
  refine (raises_known _).bind fun pid _ => ?_
  refine (raises_known _).bind fun publicKey _ => ?_
  split
  · exact .ok
  refine (raises_known _).bind fun signature _ => ?_
  split
  · exact .ok
  split
  · exact .ok
  · exact .ok

theorem raises_hashed (value : Json) :
    Raises IsKnown (hashed value) := by
  unfold hashed
  split
  · exact .error (by rintro ⟨⟩)
  · exact .error (by rintro ⟨⟩)
  · exact .ok

theorem raises_domainProblem (env : Environment)
    (expectation : Expectation) (doc : Json) :
    Raises IsKnown (domainProblem env expectation doc) := by
  unfold domainProblem
  split
  · exact .ok
  · exact .ok
  · have claims : Raises IsKnown (claimed doc) :=
      (raises_hashed _).bind fun _ _ => (raises_known _).bind fun _ _ =>
        (Raises.mapM fun value _ => raises_hashed value).bind fun _ _ => .ok
    exact claims.bind fun _ _ => .ok

/-- A verdict is valid, an exception, or invalid. -/
theorem verifyWellKnown_cases (env : Environment)
    (expectation : Expectation) (doc : Json) :
    ((∃ reason, verifyWellKnown env expectation doc =
        .ok (true, reason)) ↔
      keyProblem env expectation doc = .ok none ∧
        ageProblem env expectation doc = .ok none ∧
        domainProblem env expectation doc = .ok none) ∧
    (verifyWellKnown env expectation doc = .error .unhandled ↔
      keyProblem env expectation doc = .ok none ∧
        ageProblem env expectation doc = .error .unhandled) ∧
    ∀ raised, verifyWellKnown env expectation doc =
      .error raised → raised = .unhandled := by
  have key := raises_keyProblem env expectation doc
  have domain := raises_domainProblem env expectation doc
  unfold verifyWellKnown
  generalize keyProblem env expectation doc = keyFound at key
  generalize ageProblem env expectation doc = ageFound
  generalize domainProblem env expectation doc = domainFound
    at domain
  rcases keyFound with raised | _ | problem
  · cases raised with
    | unhandled => exact absurd rfl (key _ rfl)
    | known | notANumber | unhashable => simp [firstProblem]
  · rcases ageFound with raised | _ | problem
    · cases raised <;> simp [firstProblem]
    · rcases domainFound with raised | _ | problem
      · cases raised with
        | unhandled => exact absurd rfl (domain _ rfl)
        | known | notANumber | unhashable => simp [firstProblem]
      · simp [firstProblem]
      · simp [firstProblem]
    · simp [firstProblem]
  · simp [firstProblem]

end Verdicts

end WellKnown

end RefinetPillars
