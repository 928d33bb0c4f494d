import RefinetPillars.ContentSigning
import RefinetPillars.ExceptRules
import RefinetPillars.JsonText
import RefinetPillars.SiweMessage

/-!
# Bindings of wallets and identity documents

A wallet is bound to a Pillar by a message that the wallet has signed and the
Pillar has countersigned.  A Pillar publishes its bindings in a signed document.
Both come from peers, so any value may stand under any key.
-/

namespace RefinetPillars

namespace WalletBinding

open HexText LineText ContentSigning JsonText ExceptRules
open KeyRecovery (encodeUtf8)
open SiweMessage (parseNonce parseStatement bindingStatementPrefix bindingRoles)

section Values

/-- An exception, with what its message is made of. -/
inductive Raised where
  | keyError (key : Text)
  | noAttribute (value : Json) (name : Text)
  | notIterable (value : Json)
  | notAdded (value : Json)
  | other (message : Text)

/-- The name of the type of a value. -/
def typeName : Json → Text
  | .null => "NoneType".toList
  | .bool _ => "bool".toList
  | .int _ => "int".toList
  | .float _ => "float".toList
  | .str _ => "str".toList
  | .arr _ => "list".toList
  | .obj _ => "dict".toList

def quoted (text : Text) : Text := "'".toList ++ text ++ "'".toList

def Raised.message : Raised → Text
  | .keyError key => quoted key
  | .noAttribute value name =>
      quoted (typeName value) ++ " object has no attribute ".toList ++
        quoted name
  | .notIterable value =>
      quoted (typeName value) ++ " object is not iterable".toList
  | .notAdded (.arr _) =>
      "can only concatenate list (not \"str\") to list".toList
  | .notAdded value =>
      "unsupported operand type(s) for +: ".toList ++ quoted (typeName value) ++
        " and 'str'".toList
  | .other message => message

/-- `.get(key)` of a value. -/
def dictGet (key : String) : Json → Except Raised (Option Json)
  | .obj fields => .ok ((Json.obj fields).get key.toList)
  | value => .error (.noAttribute value "get".toList)

/-- `[key]` of a dictionary. -/
def item (key : String) (record : Json) : Except Raised Json :=
  match record.get key.toList with
  | some value => .ok value
  | none => .error (.keyError key.toList)

/-- `value or default`. -/
def orElse (value : Option Json) (default : Json) : Json :=
  match value with
  | some value => if value.isFalsy then default else value
  | none => default

/-- A value as a text, of which a method is called. -/
def textWith (method : String) : Json → Except Raised Text
  | .str text => .ok text
  | value => .error (.noAttribute value method.toList)

/-- A value as a text, to which one is added. -/
def addend : Json → Except Raised Text
  | .str text => .ok text
  | value => .error (.notAdded value)

/-- The entries over which a loop goes. -/
def iterate : Json → Except Raised (List Json)
  | .arr items => .ok items
  | .obj fields => .ok (fields.map fun field => .str field.1)
  | .str text => .ok (text.map fun character => .str [character])
  | value => .error (.notIterable value)

/-- Whether a value is a text. -/
def IsText (text : Text) : Json → Prop
  | .str other => other = text
  | _ => False

instance (text : Text) (value : Json) : Decidable (IsText text value) :=
  match value with
  | .str other => inferInstanceAs (Decidable (other = text))
  | .null | .bool _ | .int _ | .float _ | .arr _ | .obj _ =>
      inferInstanceAs (Decidable False)

end Values

section Definitions

/-- What the program takes from elsewhere: lower case, and the recovery of an
account from a signature when that is installed. -/
structure Environment where
  lower : Text → Text
  recoverMessage : Option (Text → Json → Except Text Text)

/-- Whoever is recovered from a signature has signed the message. -/
def Environment.RecoversSigner (env : Environment)
    (WalletSigned : Text → Text → Prop) : Prop :=
  ∀ recover ∈ env.recoverMessage, ∀ message signature account,
    recover message signature = .ok account → WalletSigned account message

variable (scheme : Scheme) (env : Environment)

/-- The PID and the role that a binding message states. -/
def parseBindingStatement (messageText : Text) : Option (Text × Text) :=
  let statement := parseStatement messageText
  if bindingStatementPrefix <+: statement then
    match cutAt " as its ".toList
        (statement.drop bindingStatementPrefix.length) with
    | none => none
    | some (pid, role) =>
        if strip role ∈ bindingRoles then some (strip pid, strip role)
        else none
  else none

def isLegacyBinding (record : Json) : Except Raised Bool := do
  let message ← textWith "splitlines"
    ((record.get "siwe_message".toList).getD (.str []))
  return (parseBindingStatement message).isNone

def computeBindingId (pid : Json) (evmAddress nonce : Text) :
    Except Raised Text := do
  let pid ← addend pid
  return hashContent scheme (encodeUtf8 (pid ++ env.lower evmAddress ++ nonce))

/-- `verify_wallet_signature` without `allow_contract`; the exception is that no
account can be recovered at all. -/
def verifyWalletSignature (message : Text) (signature : Json)
    (address : Text) : Except Text (Bool × Text) :=
  match env.recoverMessage with
  | none =>
      .error
        ("SIWE auth requires eth-account. Install with: ".toList ++
          "pip install eth-account".toList)
  | some recover =>
      match recover message signature with
      | .error failed =>
          .ok (false, "Signature verification failed: ".toList ++ failed)
      | .ok recovered =>
          if env.lower recovered = env.lower address then
            .ok (true, "valid (EOA)".toList)
          else .ok (false, "signature does not match the address".toList)

/-- `verify_signature` of any values. -/
def verifyValues (data : List UInt8) (signature publicKey : Json) : Bool :=
  match signature, publicKey with
  | .str signature, .str publicKey =>
      verifySignature scheme data signature publicKey
  | _, _ => false

/-- What a message states must agree with the record, if it states anything. -/
def statedProblem (record : Json) : Option (Text × Text) → Option Text
  | none => none
  | some (statedPid, statedRole) =>
      if ¬ (record.get "pid".toList).any (IsText statedPid) then
        some "binding statement names a different PID".toList
      else if ¬ IsText statedRole
          (orElse (record.get "binding_type".toList)
            (.str "deployer".toList)) then
        some "binding statement names a different role".toList
      else none

/-- What the Pillar countersigns. -/
def counterText (stated : Option (Text × Text)) (bindingId : Text) :
    List UInt8 :=
  match stated with
  | none => encodeUtf8 bindingId
  | some _ => domainPreimage domainBinding [bindingId]

def verifyBinding (record : Json) : Except Raised (Bool × Text) := do
  let message ← textWith "splitlines" (← item "siwe_message" record)
  let pid ← item "pid" record
  let address ← textWith "lower" (← item "evm_address" record)
  let expectedId ← computeBindingId scheme env pid address
    (parseNonce message)
  let bindingId ← item "binding_id" record
  if ¬ IsText expectedId bindingId then
    return (false,
      "binding_id mismatch — record may be tampered".toList)
  let stated := parseBindingStatement message
  match statedProblem record stated with
  | some problem => return (false, problem)
  | none =>
      let siweSignature ← item "siwe_signature" record
      match verifyWalletSignature env message siweSignature address with
      | .error raised =>
          return (false, "SIWE verification error: ".toList ++ raised)
      | .ok (false, reason) =>
          return (false,
            "SIWE signature does not match evm_address — ".toList ++ reason)
      | .ok (true, _) =>
          let pidSignature ← item "pid_signature" record
          let publicKey ← item "public_key" record
          if ¬ verifyValues scheme (counterText stated expectedId) pidSignature
              publicKey then
            return (false, "Ed25519 pid_signature verification failed".toList)
          return (true,
            if stated.isNone then "valid (legacy)".toList
            else "valid".toList)

/-- Sorted keys, no blanks, UTF-8. -/
def canonicalJson (value : Json) : List UInt8 :=
  encodeUtf8 (dumps
    { itemSeparator := [','], keySeparator := [':'], ensureAscii := false,
      sortKeys := true } 0 value)

/-- A document without its signature. -/
def identityBody : Json → Json
  | .obj fields =>
      .obj (fields.filter fun field =>
        field.1 ≠ "document_signature".toList)
  | value => value

/-- What the signature of a document covers. -/
def identityPreimage (doc : Json) : List UInt8 :=
  domainPreimage domainIdentity
    [hashContent scheme (canonicalJson (identityBody doc))]

/-- Whether a value is the number three. -/
def isThree : Json → Bool
  | .int value => value = 3
  | .float printed => printed = "3.0".toList
  | _ => false

/-- `pid_matches_key` of any values. -/
def pidMatchesValue (pid publicKey : Json) : Bool :=
  match pid, publicKey with
  | .str pid, .str publicKey => pidMatchesKey scheme pid publicKey
  | _, _ => false

def identityChecks (doc : Json) : Except Raised (Bool × Text) := do
  let version ← dictGet "schema_version" doc
  if ¬ version.any isThree then
    return (false, "not a v3 identity document".toList)
  let pid ← item "pid" doc
  let publicKey ← item "public_key" doc
  if ¬ pidMatchesValue scheme pid publicKey then
    return (false, "public key does not hash to pid".toList)
  let signature ← item "document_signature" doc
  if ¬ verifyValues scheme (identityPreimage scheme doc) signature
      publicKey then
    return (false, "document signature does not verify".toList)
  return (true, "valid".toList)

/-- A missing key is a malformed document. -/
def verifyIdentityV3 (doc : Json) : Except Raised (Bool × Text) :=
  match identityChecks scheme doc with
  | .error (.keyError key) =>
      .ok (false, "malformed document: ".toList ++ quoted key)
  | checked => checked

end Definitions

section Lookups

variable {record value : Json} {text : Text} {key method : String}

theorem item_eq_ok :
    item key record = .ok value ↔ record.get key.toList = some value := by
  rw [item]
  cases record.get key.toList <;> simp

theorem textWith_eq_ok : textWith method value = .ok text ↔ value = .str text := by
  cases value <;> simp [textWith]

theorem isText_iff : IsText text value ↔ value = .str text := by
  cases value <;> simp [IsText]

theorem computeBindingId_eq_ok {scheme : Scheme} {env : Environment}
    {pid : Json} {evmAddress nonce : Text} :
    computeBindingId scheme env pid evmAddress nonce = .ok text ↔
      ∃ pidText, pid = .str pidText ∧
        hashContent scheme
          (encodeUtf8 (pidText ++ env.lower evmAddress ++ nonce)) = text := by
  rw [computeBindingId, bind_eq_ok]
  cases pid <;> simp [addend, pure, Except.pure]

end Lookups

section Statements

variable {record : Json} {message pid role : Text}

theorem pidMatchesValue_iff {scheme : Scheme} {pid publicKey : Json} :
    pidMatchesValue scheme pid publicKey = true ↔
      ∃ pidText publicKeyHex, pid = .str pidText ∧
        publicKey = .str publicKeyHex ∧
        pidMatchesKey scheme pidText publicKeyHex = true := by
  unfold pidMatchesValue
  split
  next pidText publicKeyHex => simp
  next differ =>
    refine iff_of_false Bool.false_ne_true ?_
    rintro ⟨pidText, publicKeyHex, rfl, rfl, -⟩
    exact differ pidText publicKeyHex rfl rfl

theorem role_mem_of_parseBindingStatement
    (stated : parseBindingStatement message = some (pid, role)) :
    role ∈ bindingRoles := by
  simp only [parseBindingStatement] at stated
  split at stated
  · split at stated
    · cases stated
    · split at stated
      next known =>
        cases stated
        exact known
      next => cases stated
  · cases stated

theorem pid_of_statedProblem
    (agrees : statedProblem record (some (pid, role)) = none) :
    record.get "pid".toList = some (.str pid) := by
  rw [statedProblem] at agrees
  split at agrees
  · cases agrees
  next named =>
    cases found : record.get "pid".toList with
    | none =>
        rw [found] at named
        exact absurd named (by simp)
    | some value =>
        rw [found, not_not, Option.any_some, decide_eq_true_iff] at named
        rw [isText_iff.mp named]

theorem role_of_statedProblem
    (agrees : statedProblem record (some (pid, role)) = none) :
    orElse (record.get "binding_type".toList) (.str "deployer".toList) =
      .str role := by
  rw [statedProblem] at agrees
  split at agrees
  · cases agrees
  · split at agrees
    · cases agrees
    next sameRole => exact isText_iff.mp (not_not.mp sameRole)

end Statements

section Soundness

variable {scheme : Scheme} {env : Environment} {record doc : Json}
  {reason : Text}

/-- What is known of a record that verifies. -/
structure Verifies (scheme : Scheme) (env : Environment) (record : Json)
    (message pid address : Text) (publicKey : Json) : Prop where
  hasMessage : record.get "siwe_message".toList = some (.str message)
  hasPid : record.get "pid".toList = some (.str pid)
  hasAddress : record.get "evm_address".toList = some (.str address)
  hasKey : record.get "public_key".toList = some publicKey
  hasId : record.get "binding_id".toList = some (.str
    (hashContent scheme
      (encodeUtf8 (pid ++ env.lower address ++ parseNonce message))))
  agrees : statedProblem record (parseBindingStatement message) = none
  wallet : ∃ signature reason,
    verifyWalletSignature env message signature address = .ok (true, reason)
  counter : ∃ signature,
    verifyValues scheme
      (counterText (parseBindingStatement message) (hashContent scheme
        (encodeUtf8 (pid ++ env.lower address ++ parseNonce message))))
      signature publicKey = true

/-- What is known of a record that verifies, and what is said of it. -/
theorem verifies_of_verifyBinding
    (verified : verifyBinding scheme env record = .ok (true, reason)) :
    ∃ message pid address publicKey,
      Verifies scheme env record message pid address publicKey ∧
        reason = if (parseBindingStatement message).isNone then
          "valid (legacy)".toList else "valid".toList := by
  simp only [verifyBinding, bind_eq_ok, item_eq_ok, textWith_eq_ok,
    computeBindingId_eq_ok] at verified
  obtain ⟨_, hasMessage, message, rfl, _, hasPid, _, hasAddress, address, rfl,
    _, ⟨pid, rfl, rfl⟩, bindingId, hasId, checked⟩ := verified
  split at checked
  · cases checked
  next isExpected =>
    obtain rfl := isText_iff.mp (not_not.mp isExpected)
    split at checked
    · cases checked
    next agrees =>
      obtain ⟨siweSignature, -, checked⟩ := bind_eq_ok.mp checked
      split at checked
      · cases checked
      · cases checked
      next wallet =>
        obtain ⟨pidSignature, -, checked⟩ := bind_eq_ok.mp checked
        obtain ⟨publicKey, hasKey, checked⟩ := bind_eq_ok.mp checked
        split at checked
        · cases checked
        next countersigned =>
          refine ⟨message, pid, address, publicKey, ⟨hasMessage, hasPid,
            hasAddress, item_eq_ok.mp hasKey, hasId, agrees,
            ⟨siweSignature, _, wallet⟩,
            ⟨pidSignature, not_not.mp countersigned⟩⟩, ?_⟩
          exact (congrArg Prod.snd (Except.ok.inj checked)).symm

theorem exists_verifies_of_verifyBinding
    (verified : verifyBinding scheme env record = .ok (true, reason)) :
    ∃ message pid address publicKey,
      Verifies scheme env record message pid address publicKey := by
  obtain ⟨message, pid, address, publicKey, verifies, -⟩ :=
    verifies_of_verifyBinding verified
  exact ⟨message, pid, address, publicKey, verifies⟩

/-- A wallet signature that verifies was made by an account of that address. -/
theorem exists_account_of_verifyWalletSignature
    {WalletSigned : Text → Text → Prop}
    (recovers : env.RecoversSigner WalletSigned) {message address : Text}
    {signature : Json}
    (verified : verifyWalletSignature env message signature address =
      .ok (true, reason)) :
    ∃ account, env.lower account = env.lower address ∧
      WalletSigned account message := by
  rw [verifyWalletSignature] at verified
  split at verified
  · cases verified
  next recover installed =>
    split at verified
    · cases verified
    next account recovered =>
      split at verified
      next same =>
        exact ⟨account, same, recovers recover installed _ _ _ recovered⟩
      next => cases verified

theorem signed_of_verifyValues {Signed : List UInt8 → List UInt8 → Prop}
    (unforgeable : scheme.Unforgeable Signed) {data publicKey : List UInt8}
    {signature : Json} {publicKeyHex : Text}
    (key : fromHex publicKeyHex = some publicKey)
    (verified :
      verifyValues scheme data signature (.str publicKeyHex) = true) :
    Signed publicKey data := by
  cases signature with
  | str signatureHex => exact unforgeable.signed key verified
  | null | bool | int | float | arr | obj => cases verified

/-- An identity document that verifies names the PID of the key under which it
verifies. -/
theorem exists_key_of_verifyIdentityV3
    (verified : verifyIdentityV3 scheme doc = .ok (true, reason)) :
    ∃ pid publicKeyHex publicKey signature,
      doc.get "pid".toList = some (.str pid) ∧
      doc.get "public_key".toList = some (.str publicKeyHex) ∧
      fromHex publicKeyHex = some publicKey ∧ pidOf scheme publicKey = pid ∧
      verifyValues scheme (identityPreimage scheme doc) signature
        (.str publicKeyHex) = true := by
  have checked : identityChecks scheme doc = .ok (true, reason) := by
    rw [verifyIdentityV3] at verified
    split at verified
    · cases verified
    · exact verified
  simp only [identityChecks, bind_eq_ok] at checked
  obtain ⟨version, -, checked⟩ := checked
  split at checked
  · cases checked
  obtain ⟨pid, hasPid, checked⟩ := bind_eq_ok.mp checked
  obtain ⟨publicKey, hasKey, checked⟩ := bind_eq_ok.mp checked
  split at checked
  · cases checked
  next matched =>
    obtain ⟨signature, -, checked⟩ := bind_eq_ok.mp checked
    split at checked
    · cases checked
    next signed =>
      obtain ⟨pid, publicKeyHex, rfl, rfl, hashes⟩ :=
        pidMatchesValue_iff.mp (not_not.mp matched)
      obtain ⟨publicKey, decoded, hashed⟩ := pidMatchesKey_iff.mp hashes
      exact ⟨pid, publicKeyHex, publicKey, signature, item_eq_ok.mp hasPid,
        item_eq_ok.mp hasKey, decoded, hashed, not_not.mp signed⟩

end Soundness

end WalletBinding

end RefinetPillars
