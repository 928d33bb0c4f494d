import RefinetPillars.WalletBinding
import RefinetPillars.PeerTable

/-!
# Receipts for what a Pillar has served

Whoever has received something from a Pillar may sign that.  Such receipts are
all that the Pillar files as proofs of its service, and what is filed stays.
-/

namespace RefinetPillars

namespace ServiceReceipts

open HexText LineText DecimalText KeyRecovery ContentSigning JsonText
open WalletBinding (IsText pidMatchesValue verifyValues)
open PeerTable (str)

/-- What the program takes from elsewhere: signatures, floats, and how lists
and dictionaries are printed. -/
structure Environment where
  scheme : Scheme
  floatRepr : Text → Text
  truncate : Text → Option Int
  repr : Json → Text

section Attestations

variable (env : Environment)

/-- The exceptions of an attestation; the verification handles all but the
last. -/
inductive Raised where
  | keyError (key : Text)
  | typeError
  | valueError
  | unhandled

def statuses : List Text :=
  ["match".toList, "mismatch".toList, "unreachable".toList]

/-- `== 1`. -/
def isOne : Json → Bool
  | .bool value => value
  | .int value => value = 1
  | .float printed => printed = "1.0".toList
  | _ => false

def item (key : String) (attestation : Json) : Except Raised Json :=
  match attestation.get key.toList with
  | some value => .ok value
  | none => .error (.keyError key.toList)

/-- `int` of a value. -/
def intOf : Json → Except Raised Int
  | .bool value => .ok (if value then 1 else 0)
  | .int value => .ok value
  | .float printed =>
      match env.truncate printed with
      | some value => .ok value
      | none =>
          if printed = "NaN".toList then .error .valueError
          else .error .unhandled
  | .str text =>
      match int text with
      | some value => .ok value
      | none => .error .valueError
  | .null | .arr _ | .obj _ => .error .typeError

/-- What the signature of an attestation covers. -/
structure Statement where
  pid : Text
  resource : Text
  fetchedAt : Int
  hash : Text
  status : Text
deriving DecidableEq

def Statement.preimage (statement : Statement) : List UInt8 :=
  domainPreimage domainWitness [statement.pid, statement.resource,
    intText statement.fetchedAt, statement.hash, statement.status]

/-- The fields of a dictionary that are signed, and the signature. -/
def signedFields (attestation : Json) : Except Raised (Json × Statement) := do
  let pid ← item "pid" attestation
  let signature ← item "sig" attestation
  let resource ← item "resource" attestation
  let fetchedAt ← intOf env (← item "fetched_at" attestation)
  let hash ← item "hash" attestation
  let status ← item "status" attestation
  return (signature, {
    pid := str env.repr pid
    resource := str env.repr resource
    fetchedAt := fetchedAt
    hash := str env.repr hash
    status := str env.repr status })

/-- The checks of an attestation. -/
def witnessChecks (attestation publicKey : Json) :
    Except Raised (Bool × Text) :=
  match attestation with
  | .obj _ => do
      if ¬ (attestation.get "v".toList).any isOne then
        return (false, "unsupported version".toList)
      if ¬ statuses.any fun status =>
          (attestation.get "status".toList).any (IsText status) then
        return (false, "unknown status".toList)
      let pid ← item "pid" attestation
      if ¬ pidMatchesValue env.scheme pid publicKey then
        return (false, "public key does not hash to pid".toList)
      let (signature, statement) ← signedFields env attestation
      if verifyValues env.scheme statement.preimage signature publicKey then
        return (true, "valid".toList)
      return (false, "signature does not verify".toList)
  | _ => .error .unhandled

/-- Why an attestation is not valid. -/
inductive Refusal where
  | reason (text : Text)
  | malformed (raised : Raised)

/-- What is malformed is refused, unless the exception is not handled. -/
def verifyWitness (attestation publicKey : Json) :
    Except Raised (Option Refusal) :=
  match witnessChecks env attestation publicKey with
  | .ok (true, _) => .ok none
  | .ok (false, reason) => .ok (some (.reason reason))
  | .error .unhandled => .error .unhandled
  | .error raised => .ok (some (.malformed raised))

end Attestations

section Ledger

/-- A row of the table `service_proofs`.  The receipt is stored as its text;
the day of its creation is counted from any day. -/
structure Row where
  proofId : Text
  pid : Text
  service : Text
  proofHash : Text
  signature : Text
  requesterPid : Text
  requesterPubkey : Text
  resource : Text
  receipt : Json
  createdOn : Nat

/-- The text of a receipt. -/
def canonicalText (receipt : Json) : Text :=
  dumps { sortKeys := true } 0 receipt

def Row.receiptJson (row : Row) : Text := canonicalText row.receipt

/-- Rows are neither changed nor deleted. -/
structure Ledger where
  rows : List Row
  unique : (rows.map Row.proofId).Nodup

def Ledger.empty : Ledger := ⟨[], List.nodup_nil⟩

/-- `INSERT OR IGNORE`, and whether a row was written. -/
def insertServiceProof (row : Row) (ledger : Ledger) : Ledger × Bool :=
  if present : row.proofId ∈ ledger.rows.map Row.proofId then (ledger, false)
  else
    (⟨ledger.rows ++ [row], by
      rw [List.map_append, List.nodup_append]
      refine ⟨ledger.unique, List.nodup_singleton _, ?_⟩
      rintro proofId member other otherMem rfl
      obtain rfl := List.mem_singleton.mp otherMem
      exact present member⟩, true)

/-- An empty text is no condition. -/
def meets (wanted text : Text) : Bool :=
  wanted = [] || text = wanted

/-- Rows that are created from a day on. -/
def countServiceProofsToday (pid requesterPid : Text) (today : Nat)
    (ledger : Ledger) : Nat :=
  ledger.rows.countP fun row =>
    today ≤ row.createdOn && meets pid row.pid &&
      meets requesterPid row.requesterPid

end Ledger

section Intake

variable (env : Environment)

def maxReceiptsPerRequesterPerDay : Nat := 500

def maxReceiptsPerDay : Nat := 5000

def maxReceiptResourceChars : Nat := 512

/-- The days on which the rows of a requester and all rows are counted, and on
which a row is created.  The clock does not go back meanwhile. -/
structure Moment where
  requesterToday : Nat
  today : Nat
  createdOn : Nat
  requesterToday_le : requesterToday ≤ createdOn
  today_le : today ≤ createdOn

/-- An error may end with the text of an exception.  An exception that is not
handled is no answer. -/
inductive Answer where
  | error (message : Text) (exception : Option Raised)
  | unhandled
  | filed (stored : Bool) (requesterPid resource status : Text)

def refuse (message : String) : Answer :=
  .error message.toList none

/-- What follows the first tab. -/
def queryOf (selector : Text) : Text :=
  (selector.dropWhile fun character => character.toNat ≠ 9).tail

def payloadItem (key : String) (payload : Json) : Except Answer Json :=
  match payload with
  | .obj _ =>
      match payload.get key.toList with
      | some value => .ok value
      | none => .error (.error "Malformed receipt: ".toList
          (some (.keyError key.toList)))
  | _ => .error (.error "Malformed receipt: ".toList (some .typeError))

/-- `len`, if there is one. -/
def length : Json → Option Nat
  | .str text => some text.length
  | .arr items => some items.length
  | .obj fields => some fields.length
  | .null | .bool _ | .int _ | .float _ => none

/-- A text is in another one, in a list or among the keys of a dictionary. -/
def contains (text : Text) : Json → Bool
  | .str other => decide (text <:+: other)
  | .arr items => items.any (IsText text)
  | .obj fields => fields.any fun field => field.1 = text
  | .null | .bool _ | .int _ | .float _ => false

/-- A receipt that has passed all checks; its texts are those that it has. -/
structure Checked where
  receipt : Json
  requesterPid : Text
  publicKey : Text
  signature : Text
  resource : Json
  status : Text

def textOf : Option Json → Except Answer Text
  | some (.str text) => .ok text
  | _ => .error .unhandled

def witnessed (receipt publicKey : Json) : Except Answer Unit :=
  match verifyWitness env receipt publicKey with
  | .ok none => .ok ()
  | .ok (some (.reason text)) =>
      .error (.error ("Receipt rejected: ".toList ++ text) none)
  | .ok (some (.malformed raised)) =>
      .error (.error "Receipt rejected: malformed attestation: ".toList
        (some raised))
  | .error _ => .error .unhandled

def resourceOf (receipt : Json) : Json :=
  (receipt.get "resource".toList).getD (.str [])

def readPayload (query : Text) : Except Answer Json :=
  if query = [] then
    .error (refuse ("Submit a signed receipt as JSON: " ++
      "\x7b\"receipt\": \x7b...\x7d, \"public_key\": \"<64 hex>\"\x7d"))
  else
    match loads env.floatRepr query with
    | some payload => .ok payload
    | none => .error (.error "Malformed receipt: ".toList (some .valueError))

def checkResource (ownPid : Text) (resource : Json) : Except Answer Unit :=
  match length resource with
  | none => .error .unhandled
  | some size =>
      if maxReceiptResourceChars < size then
        .error (refuse "Receipt rejected: resource is too long")
      else if ¬ contains ownPid resource then
        .error (refuse "Receipt rejected: resource does not name this Pillar")
      else .ok ()

def checkRequester (ownPid requesterPid : Text) : Except Answer Unit :=
  if requesterPid = ownPid then
    .error (refuse ("Receipt rejected: a Pillar cannot counter-sign its own " ++
      "service"))
  else .ok ()

/-- Intake caps, checked before the write. -/
def checkCaps (ownPid requesterPid : Text) (moment : Moment)
    (ledger : Ledger) : Except Answer Unit :=
  if maxReceiptsPerRequesterPerDay ≤ countServiceProofsToday ownPid
      requesterPid moment.requesterToday ledger then
    .error (refuse "Receipt rejected: daily limit reached for this requester")
  else if maxReceiptsPerDay ≤
      countServiceProofsToday ownPid [] moment.today ledger then
    .error (refuse
      "Receipt rejected: daily receipt limit reached for this Pillar")
  else .ok ()

/-- Everything that is checked before a receipt is filed. -/
def check (ownPid query : Text) (moment : Moment) (ledger : Ledger) :
    Except Answer Checked := do
  let payload ← readPayload env query
  let receipt ← payloadItem "receipt" payload
  let publicKey ← payloadItem "public_key" payload
  witnessed env receipt publicKey
  checkResource ownPid (resourceOf receipt)
  let requesterPid ← textOf (receipt.get "pid".toList)
  checkRequester ownPid requesterPid
  checkCaps ownPid requesterPid moment ledger
  let publicKey ← textOf (some publicKey)
  let signature ← textOf (receipt.get "sig".toList)
  let status ← textOf (receipt.get "status".toList)
  return {
    receipt := receipt
    requesterPid := requesterPid
    publicKey := publicKey
    signature := signature
    resource := resourceOf receipt
    status := status }

/-- The key of a receipt is derived from its signature. -/
def proofIdOf (signature : Text) : Text :=
  hashContent env.scheme
    (encodeUtf8 ("REFINET-RECEIPT-v1".toList ++ signature))

def Checked.row (checked : Checked) (ownPid resource : Text)
    (createdOn : Nat) : Row where
  proofId := proofIdOf env checked.signature
  pid := ownPid
  service := "gopher.serve".toList
  proofHash := hashContent env.scheme
    (encodeUtf8 (canonicalText checked.receipt))
  signature := checked.signature
  requesterPid := checked.requesterPid
  requesterPubkey := checked.publicKey
  resource := resource
  receipt := checked.receipt
  createdOn := createdOn

structure Submission where
  selector : Text
  moment : Moment

/-- The database holds no resource that is a list or a dictionary. -/
def handleReceipt (ownPid : Text) (submission : Submission) (ledger : Ledger) :
    Ledger × Answer :=
  match check env ownPid (queryOf submission.selector) submission.moment
      ledger with
  | .error answer => (ledger, answer)
  | .ok checked =>
      match checked.resource with
      | .str resource =>
          let (next, stored) := insertServiceProof
            (checked.row env ownPid resource submission.moment.createdOn) ledger
          (next, .filed stored checked.requesterPid resource checked.status)
      | _ => (ledger,
          .error "Could not record receipt: ".toList (some .typeError))

/-- The ledger after submissions, one after the other. -/
def run (ownPid : Text) (submissions : List Submission) (ledger : Ledger) :
    Ledger :=
  submissions.foldl
    (fun ledger submission => (handleReceipt env ownPid submission ledger).1)
    ledger

end Intake

end ServiceReceipts

end RefinetPillars
