import RefinetPillars.CanonicalJson
import RefinetPillars.WellKnown

/-!
# Domain proofs in JavaScript

The package for applications verifies the same documents as a Pillar does.  It
reads values its own way: what is not a text is made into one, bytes may follow
`0x`, and what is missing may still be compared.
-/

namespace RefinetPillars

namespace JavaScript

open HexText DecimalText ContentSigning JsonText WalletBinding
open WellKnown (dropScheme beforeSlash schema firstProblem Expectation)
open KeyRecovery (encodeUtf8)

section Values

/-- A number that is not exact. -/
inductive Number where
  | notANumber
  | infinite (negative : Bool)
  | finite (value : ℚ)

/-- What the package takes from elsewhere: signatures, lower case, which leaves
the digits of hashes alone, how numbers are printed and read, and what the
engine says of a value that it cannot spread. -/
structure Environment where
  scheme : Scheme
  lower : Text → Text
  lower_hex : ∀ bytes, lower (toHex bytes) = toHex bytes
  numbers : Numbers
  number : Text → Number
  notIterable : Json → Text

/-- A value that counts as false. -/
def isFalsy : Json → Bool
  | .null => true
  | .bool value => !value
  | .int value => value = 0
  | .float printed => printed = "0.0".toList || printed = "-0.0".toList
  | .str text => text = []
  | .arr _ | .obj _ => false

variable (numbers : Numbers)

mutual

/-- `String(value)`, which fails where an object has its own `toString`. -/
def string : Json → Option Text
  | .null => some "null".toList
  | .bool true => some "true".toList
  | .bool false => some "false".toList
  | .int value => some (numbers.integer value)
  | .float printed => some (numbers.float printed)
  | .str text => some text
  | .arr items => (joined items).map fun texts => [','].intercalate texts
  | .obj fields =>
      if "toString".toList ∈ fields.map Prod.fst then none
      else some "[object Object]".toList

/-- The texts that `.join` puts together; nothing stands for null. -/
def joined : List Json → Option (List Text)
  | [] => some []
  | item :: items =>
      match item, string item, joined items with
      | .null, _, some texts => some ([] :: texts)
      | _, some text, some texts => some (text :: texts)
      | _, _, _ => none

end

/-- `String(value)` of a value that may be missing. -/
def stringOr : Option Json → Option Text
  | none => some "undefined".toList
  | some value => string numbers value

def pairs : Text → Option (List UInt8)
  | [] => some []
  | [_] => none
  | high :: low :: rest => do
      let highValue ← digitValue high
      let lowValue ← digitValue low
      let bytes ← pairs rest
      return UInt8.ofNat (16 * highValue + lowValue) :: bytes

/-- The bytes after `0x`, which may be left out. -/
def hexToBytes (text : Text) : Option (List UInt8) :=
  match text with
  | '0' :: 'x' :: rest => pairs rest
  | _ => pairs text

/-- The bytes of a value that may be missing. -/
def bytesOf (value : Option Json) : Option (List UInt8) :=
  (stringOr numbers value).bind hexToBytes

end Values

section Domains

/-- What `.trim` removes. -/
def isBlankOrBreak (character : Char) : Bool :=
  let code := character.toNat
  (9 ≤ code && code ≤ 13) || code = 32 || code = 160 || code = 5760 ||
    (8192 ≤ code && code ≤ 8202) || code = 8232 || code = 8233 ||
    code = 8239 || code = 8287 || code = 12288 || code = 65279

def trim (text : Text) : Text :=
  ((text.dropWhile isBlankOrBreak).reverse.dropWhile isBlankOrBreak).reverse

/-- `.replace(/\\.$/, "")`. -/
def dropLastDot (text : Text) : Text :=
  if text.getLast? = some '.' then text.dropLast else text

def normalizeDomain (lower : Text → Text) (value : Text) : Text :=
  dropLastDot (beforeSlash (dropScheme (lower (trim value))))

end Domains

section Verification

/-- A verdict; a valid one names the PID. -/
structure Verdict where
  valid : Bool
  reason : Text
  pid : Option Json := none

variable (env : Environment)

def pidMatchesKey (pid publicKey : Option Json) : Bool :=
  match bytesOf env.numbers publicKey, stringOr env.numbers pid with
  | some key, some text => hashContent env.scheme key = env.lower text
  | _, _ => false

def verifyEd25519 (signature : Option Json) (message : List UInt8)
    (publicKey : Option Json) : Bool :=
  match bytesOf env.numbers publicKey, bytesOf env.numbers signature with
  | some key, some signature => env.scheme.verify key signature message
  | _, _ => false

/-- What the signature of a document covers. -/
def preimage (doc : Json) : List UInt8 :=
  domainPreimage domainWellKnown
    [hashContent env.scheme
      (encodeUtf8 (canonicalJson env.numbers (WellKnown.unsigned doc)))]

/-- `Number(doc.issued_at || 0)`. -/
def issuedAt (doc : Json) : Option Number :=
  match doc.get "issued_at".toList with
  | none => some (.finite 0)
  | some value =>
      if isFalsy value then some (.finite 0)
      else
        match value with
        | .bool _ => some (.finite 1)
        | .int value => some (.finite value)
        | value => (string env.numbers value).map env.number

/-- `!(age <= maxAgeSec)`. -/
def isTooOld (now maxAge : ℚ) : Number → Bool
  | .notANumber => true
  | .infinite negative => negative
  | .finite issued => ¬ now - issued ≤ maxAge

/-- How many days old a document is. -/
def daysOld (now : ℚ) : Number → Text
  | .notANumber => "NaN".toList
  | .infinite true => "Infinity".toList
  | .infinite false => "-Infinity".toList
  | .finite issued => intText ((now - issued) / 86400 + 1 / 2).floor

/-- The values that are spread into a list. -/
def spread : Json → Except Text (List Json)
  | .arr items => .ok items
  | .str text => .ok (text.map fun character => .str [character])
  | value => .error (env.notIterable value)

/-- What a document claims; a domain that is missing is no value. -/
def claimed (doc : Json) : Except Text (List Json) := do
  let linked ←
    match doc.get "linked_domains".toList with
    | none => pure []
    | some value => if isFalsy value then pure [] else spread env value
  return (doc.get "domain".toList).toList ++ linked

def ageProblem (expectation : Expectation) (doc : Json) :
    Except Text (Option Text) :=
  match expectation.maxAgeSec with
  | none => .ok none
  | some maxAge =>
      match issuedAt env doc with
      | none => .error "Cannot convert object to primitive value".toList
      | some issued =>
          if isTooOld expectation.now maxAge issued then
            .ok (some ("document is ".toList ++
              daysOld expectation.now issued ++ " days old".toList))
          else .ok none

def domainProblem (expectation : Expectation) (doc : Json) :
    Except Text (Option Text) :=
  match expectation.domain with
  | none | some [] => .ok none
  | some domain => do
      let want := normalizeDomain env.lower domain
      let claimed ← claimed env doc
      return if claimed.any (IsText want) then none
        else some ("document does not claim ".toList ++ want)

/-- Whether another PID is expected than the document names. -/
def otherPid (expectation : Expectation) (pid : Option Json) : Bool :=
  match expectation.pid with
  | none | some [] => false
  | some expected => ¬ pid.any (IsText (env.lower expected))

/-- What is wrong with the schema, the key, the signature or the PID. -/
def keyProblem (expectation : Expectation) (doc : Json) : Option Text :=
  let pid := doc.get "pid".toList
  let publicKey := doc.get "public_key".toList
  if ¬ (doc.get "schema".toList).any (IsText schema) then
    some "not a refinet-pillar/1 document".toList
  else if ¬ pidMatchesKey env pid publicKey then
    some "public key does not hash to pid".toList
  else if ¬ verifyEd25519 env (doc.get "signature".toList) (preimage env doc)
      publicKey then
    some "signature does not verify".toList
  else if otherPid env expectation pid then
    some "document names a different PID".toList
  else none

def verifyWellKnown (expectation : Expectation) (doc : Json) : Verdict :=
  match firstProblem [.ok (keyProblem env expectation doc),
      ageProblem env expectation doc, domainProblem env expectation doc] with
  | .ok none => ⟨true, "valid".toList, doc.get "pid".toList⟩
  | .ok (some problem) => ⟨false, problem, none⟩
  | .error message => ⟨false, "malformed document: ".toList ++ message, none⟩

end Verification

end JavaScript

end RefinetPillars
