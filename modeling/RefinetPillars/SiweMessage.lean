import RefinetPillars.LineText

/-!
# Sign-in messages

The text of a challenge, and what is read back from a text that claims to be
one.  A text has a label for each field; the first line with a label counts.
-/

namespace RefinetPillars

namespace SiweMessage

open HexText LineText

/-- An exception with its message. -/
inductive Raised where
  | valueError (message : String)
  | typeError (message : String)
  | importError (message : String)
  | integrityError (message : String)
deriving DecidableEq

/-- A moment in microseconds, with or without a time zone. -/
structure DateTime where
  micros : Int
  aware : Bool
deriving DecidableEq

/-- What the program takes from elsewhere: dates and integers in text form, the
recovery of an account from a signature when that is installed, and what
contracts answer about signatures. -/
structure Environment where
  isoformat : Int → Text
  fromisoformat : Text → Except String DateTime
  int : Text → Option Int
  recoverMessage : Option (Text → Text → Except String Text)
  acceptedContractChains : List Int
  verifyEip1271 : Text → Text → Text → Int → Bool × String

def loginPurpose : Text := "login".toList

def bindingPurpose : Text := "binding".toList

def loginStatementPrefix : Text := "Sign in to REFInet Pillar ".toList

def bindingStatementPrefix : Text :=
  "I bind this wallet to REFINET Pillar ".toList

def bindingRoles : List Text := ["deployer".toList, "operator".toList]

def loginNonceTtlSeconds : Int := 15 * 60

def bindingNonceTtlSeconds : Int := 10 * 60

def sessionDurationHours : Int := 24

def loopbackHosts : List Text :=
  [[], "localhost".toList, "127.0.0.1".toList, "0.0.0.0".toList, "::1".toList]

/-- The authority that identifies a Pillar; a port of zero is none. -/
def pillarAuthority (pid : Text) (hostname : Option Text) (port : Nat) : Text :=
  match hostname with
  | none => pid ++ ".pillar.refinet".toList
  | some host =>
      if host ∈ loopbackHosts then pid ++ ".pillar.refinet".toList
      else if port = 0 then host
      else host ++ ':' :: (toString port).toList

def pillarUri (pid : Text) : Text := "refinet://pillar/".toList ++ pid

def loginStatement (pid : Text) : Text := loginStatementPrefix ++ pid

def bindingStatement (pid role : Text) : Except Raised Text :=
  if role ∈ bindingRoles then
    .ok (bindingStatementPrefix ++ pid ++ " as its ".toList ++ role)
  else
    .error (.valueError
      "binding role must be one of ('deployer', 'operator')")

/-- The parts of a message. -/
structure Fields where
  authority : Text
  address : Text
  pid : Text
  statement : Text
  chainId : Int
  nonce : Text
  issuedAt : Int
  expiresAt : Int
  resources : List Text

section Environment

variable (env : Environment)

def Fields.lines (fields : Fields) : List Text :=
  [fields.authority ++
      " wants you to sign in with your Ethereum account:".toList,
    fields.address,
    [],
    fields.statement,
    [],
    "URI: ".toList ++ pillarUri fields.pid,
    "Version: 1".toList,
    "Chain ID: ".toList ++ (toString fields.chainId).toList,
    "Nonce: ".toList ++ fields.nonce,
    "Issued At: ".toList ++ env.isoformat fields.issuedAt,
    "Expiration Time: ".toList ++ env.isoformat fields.expiresAt] ++
  if fields.resources = [] then []
  else "Resources:".toList ::
    fields.resources.map fun resource => "- ".toList ++ resource

def buildMessage (fields : Fields) : Text :=
  [Char.ofNat 10].intercalate (fields.lines env)

/-- What a challenge is asked for, with what the call reads: the host and port
of the Pillar, random bytes, and the times when it is issued and recorded. -/
structure ChallengeRequest where
  address : Text
  chainId : Int := 1
  purpose : Text := loginPurpose
  bindingType : Text := "deployer".toList
  companyUrl : Text := []
  hostname : Option Text := none
  port : Nat := 0
  urandom : List UInt8
  issuedAt : Int
  recordedAt : Int
deriving DecidableEq

/-- The text of a challenge and its nonce. -/
def generateChallenge (pid : Text) (request : ChallengeRequest) :
    Except Raised (Text × Text) := do
  if env.recoverMessage.isNone then
    throw (.importError
      "SIWE auth requires eth-account. Install with: pip install eth-account")
  if request.purpose ≠ loginPurpose ∧ request.purpose ≠ bindingPurpose then
    throw (.valueError
      ("unknown challenge purpose: " ++ String.ofList request.purpose))
  let nonce := toHex request.urandom
  let issuedAt := request.issuedAt
  let (statement, expiresAt) ←
    if request.purpose = bindingPurpose then do
      let statement ← bindingStatement pid request.bindingType
      pure (statement, issuedAt + bindingNonceTtlSeconds * 1000000)
    else
      pure (loginStatement pid, issuedAt + sessionDurationHours * 3600000000)
  let resources :=
    pillarUri pid ::
      if request.companyUrl = [] then [] else [request.companyUrl]
  return (buildMessage env
    { authority := pillarAuthority pid request.hostname request.port
      address := request.address
      pid := pid
      statement := statement
      chainId := request.chainId
      nonce := nonce
      issuedAt := issuedAt
      expiresAt := expiresAt
      resources := resources }, nonce)

def parseExpiry (messageText : Text) : Except Raised DateTime :=
  match labelled "Expiration Time: ".toList messageText with
  | none => .error (.valueError "No Expiration Time found in SIWE message")
  | some field =>
      match env.fromisoformat field with
      | .error message => .error (.valueError message)
      | .ok expiry => .ok expiry

def parseNonce (messageText : Text) : Text :=
  (labelled "Nonce: ".toList messageText).getD []

def parseChainId (messageText : Text) : Int :=
  ((labelled "Chain ID: ".toList messageText).bind env.int).getD 1

def parseUri (messageText : Text) : Text :=
  match (splitLines messageText).find? fun line =>
      "URI:".toList.isPrefixOf line with
  | none => []
  | some line => strip (afterColon line)

/-- The last line with text before the fields. -/
def parseStatement (messageText : Text) : Text :=
  let lines := splitLines messageText
  let startsFields := fun line : Text =>
    "URI:".toList.isPrefixOf line || "URI ".toList.isPrefixOf line
  match lines.findIdx? startsFields with
  | none => []
  | some index =>
      match (lines.take index).reverse.find? fun line => strip line ≠ [] with
      | none => []
      | some candidate => strip candidate

def isBindingMessage (messageText : Text) : Bool :=
  bindingStatementPrefix.isPrefixOf (parseStatement messageText)

def messageNamesPid (messageText pid : Text) : Bool :=
  parseUri messageText = pillarUri pid

/-- ASCII letters in lower case, as addresses are compared. -/
def lower (text : Text) : Text := text.map Char.toLower

/-- Whether the account recovered from the signature is the expected one. -/
def verifySiweSignature (messageText signature expectedAddress : Text) :
    Except Raised Bool :=
  match env.recoverMessage with
  | none =>
      .error (.importError
        "SIWE auth requires eth-account. Install with: pip install eth-account")
  | some recover =>
      match recover messageText signature with
      | .error message =>
          .error (.valueError ("Signature verification failed: " ++ message))
      | .ok recovered => .ok (lower recovered = lower expectedAddress)

/-- The contract of the address is asked when its chain is accepted. -/
def askContract (messageText signature address : Text) (reason : String) :
    Bool × String :=
  let chainId := parseChainId env messageText
  if chainId ∉ env.acceptedContractChains then
    (false, reason ++ "; contract wallets are not accepted on chain " ++
      toString chainId)
  else
    let (ok, contractReason) :=
      env.verifyEip1271 messageText signature address chainId
    if ok then (true, contractReason)
    else (false, reason ++ "; " ++ contractReason)

def verifyWalletSignature (messageText signature address : Text) :
    Except Raised (Bool × String) :=
  match verifySiweSignature env messageText signature address with
  | .ok true => .ok (true, "valid (EOA)")
  | .ok false =>
      .ok (askContract env messageText signature address
        "signature does not match the address")
  | .error (.valueError message) =>
      .ok (askContract env messageText signature address message)
  | .error raised => .error raised

end Environment

end SiweMessage

end RefinetPillars
