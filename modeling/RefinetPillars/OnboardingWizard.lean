import RefinetPillars.BindingCreation
import RefinetPillars.CrashableActions
import RefinetPillars.PidFile
import RefinetPillars.SiweSession

/-!
# The onboarding wizard

A new Pillar makes an identity and binds a wallet to it, by menus or by messages
of a browser extension.  Both rewrite the same two files.  Every change of a
file, of a table or of the keys in memory is one by itself, so that a crash may
come after any of them.
-/

namespace RefinetPillars

namespace OnboardingWizard

open HexText LineText DecimalText ContentSigning JsonText NonceRegistry
open BindingCreation CrashableActions CrashableActions.Action
open PidFile (Seed generatePid encryptPrivateKey decryptPrivateKey)
open SiweMessage (ChallengeRequest generateChallenge bindingPurpose)
open WalletBinding (parseBindingStatement)

section Data

/-- A file, and what it holds if it can be read. -/
inductive Stored (Value : Type) where
  | missing
  | unreadable
  | holds (value : Value)

def Stored.loaded {Value : Type} : Stored Value → Option Value
  | .holds value => some value
  | .missing | .unreadable => none

/-- An identity as it has been generated. -/
structure Identity where
  password : Option Text
  seed : Seed

/-- The steps that a state file may name; a file without one is at the
beginning. -/
inductive WizardStep where
  | welcome
  | generatePid
  | connectWallet
  | siweChallenge
  | siweVerify
  | confirm
  | complete
  | other (name : Option Text)
deriving DecidableEq

/-- The value of a key that may be absent or null. -/
inductive Entry where
  | absent
  | null
  | text (value : Text)
deriving DecidableEq

/-- `onboarding_state.json`; the password is one that older releases left. -/
structure WizardState where
  step : WizardStep := .welcome
  pid : Option Text := none
  evmAddress : Entry := .null
  challengeNonce : Option Text := none
  siweMessage : Option Text := none
  pendingSignature : Option Text := none
  bindingId : Option Text := none
  password : Entry := .absent

/-- The files, the tables, and the PIDs whose keys are in memory. -/
structure World where
  pidJson : Stored Identity
  stateJson : Stored WizardState
  nonces : NonceTable
  bindings : BindingTable
  unlocked : List Text

/-- A Pillar before its first run. -/
def World.fresh : World :=
  ⟨.missing, .missing, .empty, ⟨[], List.nodup_nil⟩, []⟩

/-- Memory is lost. -/
def World.restarted (world : World) : World := { world with unlocked := [] }

inductive Raised where
  | valueError (message : Text)
  | typeError
  | overflowError
  | attributeError
  | keyError (key : Text)
  | siwe (raised : SiweMessage.Raised)

abbrev Wizard := Action World Raised

/-- What the program takes from elsewhere. -/
structure Environment extends PidFile.Environment where
  messages : SiweMessage.Environment
  lower : Text → Text
  truncate : Text → Option Int
  repr : Json → Text

/-- The libraries and the configuration as the creation of bindings needs
them. -/
def Environment.setting (env : Environment) : Setting where
  scheme := env.scheme
  env :=
    { lower := env.lower
      recoverMessage := env.messages.recoverMessage.map
        fun recover message signature =>
          match signature with
          | .str signature =>
              (recover message signature).mapError String.toList
          | _ => .error [] }
  int := env.messages.int
  acceptedContractChains := env.messages.acceptedContractChains
  verifyEip1271 message signature address chainId :=
    ((env.messages.verifyEip1271 message signature address chainId).1,
      (env.messages.verifyEip1271 message signature address chainId).2.toList)

/-- What a request reads besides the files and tables: random bytes, times, and
the configuration. -/
structure Circumstances where
  seed : Seed
  challengeSeed : Seed
  urandom : List UInt8
  hostname : Option Text
  port : Nat
  issuedAt : Int
  recordedAt : Int
  consumedAt : Int
  createdAt : Text

end Data

section Keys

variable (env : Environment) (identity : Identity)

def Identity.pidData : Json :=
  generatePid env.toEnvironment identity.password identity.seed

def Identity.pillar : Pillar env.setting.scheme where
  pid := pidOf env.scheme (env.scheme.publicKey identity.seed.privateKey)
  publicKey := toHex (env.scheme.publicKey identity.seed.privateKey)
  privateKey := identity.seed.privateKey
  ownKey := rfl

def Identity.pid : Text := (identity.pillar env).pid

def Identity.isEncrypted : Bool :=
  match identity.password with
  | none | some [] => false
  | some (_ :: _) => true

/-- A value as a password; an empty one is none. -/
def passwordText (password : Json) : Except Raised (Option Text) :=
  if password.isFalsy then .ok none
  else
    match password with
    | .str text => .ok (some text)
    | _ => .error .attributeError

def passwordRequired : Text := "PID is encrypted — password required".toList

/-- What is decrypted is the key that has been encrypted. -/
def Identity.getPrivateKey (password : Json) : Except Raised Unit :=
  match identity.password with
  | none | some [] => .ok ()
  | some (first :: rest) => do
      match ← passwordText password with
      | none => .error (.valueError passwordRequired)
      | some text =>
          match decryptPrivateKey env.toEnvironment
            (encryptPrivateKey env.toEnvironment
              (toHex identity.seed.privateKey) (first :: rest)
              identity.seed.random) text with
          | some _ => .ok ()
          | none =>
              .error (.valueError
                "Decryption failed — wrong password or corrupted data".toList)

def savePid : Wizard Unit := do
  perform fun world => { world with pidJson := .unreadable }
  perform fun world => { world with pidJson := .holds identity }

def unlock (password : Json) : Wizard Unit := do
  lift (identity.getPrivateKey env password)
  perform fun world =>
    { world with unlocked := identity.pid env :: world.unlocked }

def Identity.isUnlocked (world : World) : Bool :=
  !identity.isEncrypted || decide (identity.pid env ∈ world.unlocked)

/-- The exception if it is one of a wrong or missing password; other ones are
raised. -/
def unlockOrRefuse (password : Json) : Wizard (Option Raised) :=
  match identity.getPrivateKey env password with
  | .error (.valueError message) => return some (.valueError message)
  | _ => do
      unlock env identity password
      return none

/-- `unlock` if there is a password, else `get_unlocked_key`. -/
def keyOrRefuse (password : Json) : Wizard (Option Raised) := do
  let world ← read
  if password.isFalsy then
    return if identity.isUnlocked env world then none
      else some (.valueError passwordRequired)
  else unlockOrRefuse env identity password

end Keys

section States

variable (env : Environment)

def saveOnboardingState (state : WizardState) : Wizard Unit := do
  perform fun world => { world with stateJson := .unreadable }
  perform fun world =>
    { world with stateJson := .holds { state with password := .absent } }

def unlockWithLegacyPassword (password : Entry) : Wizard Unit := do
  let world ← read
  match password, world.pidJson.loaded with
  | .text (first :: rest), some identity =>
      if identity.isUnlocked env world then return ()
      else
        let _ ← unlockOrRefuse env identity (.str (first :: rest))
        return ()
  | _, _ => return ()

def getOnboardingState : Wizard WizardState := do
  let world ← read
  match world.stateJson.loaded with
  | none => return {}
  | some state =>
      if state.password = .absent then return state
      else
        unlockWithLegacyPassword env state.password
        saveOnboardingState { state with password := .absent }
        return { state with password := .absent }

/-- Both files are deleted. -/
def resetOnboarding : Wizard Unit := do
  perform fun world => { world with stateJson := .missing }
  perform fun world => { world with pidJson := .missing }

def getOrCreatePid (seed : Seed) : Wizard Identity := do
  let world ← read
  match world.pidJson.loaded with
  | some identity => return identity
  | none =>
      savePid ⟨none, seed⟩
      return ⟨none, seed⟩

/-- `create_challenge` for a binding. -/
def createChallenge (circumstances : Circumstances) (address : Option Text)
    (chainId : Int) (bindingType companyUrl : Text) :
    Wizard (Except SiweMessage.Raised (Text × Text)) := do
  let identity ← getOrCreatePid circumstances.challengeSeed
  let request : ChallengeRequest :=
    { address := address.getD "None".toList
      chainId := chainId
      purpose := bindingPurpose
      bindingType := bindingType
      companyUrl := companyUrl
      hostname := circumstances.hostname
      port := circumstances.port
      urandom := circumstances.urandom
      issuedAt := circumstances.issuedAt
      recordedAt := circumstances.recordedAt }
  match generateChallenge env.messages (identity.pid env) request with
  | .error raised => return .error raised
  | .ok (message, nonce) =>
      let row :=
        (SiweSession.recordingOf (identity.pid env) request nonce).row
      perform fun world =>
        { world with
          nonces := world.nonces.insertOrReplace
            { row with address := address } }
      return .ok (message, nonce)

/-- `create_binding`: the nonce is consumed and the row is inserted, one after
the other. -/
def createBinding (identity : Identity) (creation : Creation) :
    Wizard (Except Refusal BindingRow) := do
  let world ← read
  match statementProblem (identity.pid env) creation with
  | some problem => return .error (.valueError problem)
  | none =>
      let challenge := creation.challenge (identity.pid env) world.nonces
      perform fun world => { world with nonces := challenge.2 }
      if challenge.1.1 = false then
        return .error (.valueError
          ("Binding challenge rejected: ".toList ++ challenge.1.2.toList))
      else
        match persist env.setting (identity.pillar env) creation
          world.bindings with
        | .error refusal => return .error refusal
        | .ok (row, bindings) =>
            perform fun world => { world with bindings := bindings }
            return .ok row

def bindingExists (pid : Text) (table : BindingTable) : Bool :=
  table.rows.any fun row => row.pid = pid

/-- The first binding of a deployer that states so, or the first one. -/
def getDeployerBinding (pid : Text) (table : BindingTable) :
    Option BindingRow :=
  let deployers := (getAllBindings pid table).filter fun row =>
    row.bindingType = "deployer".toList ∨ row.bindingType = []
  ((deployers.find? fun row =>
    (parseBindingStatement row.siweMessage).isSome)).or deployers.head?

end States

end OnboardingWizard

end RefinetPillars
