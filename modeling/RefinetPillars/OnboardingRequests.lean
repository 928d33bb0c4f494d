import RefinetPillars.OnboardingWizard

/-!
# Requests of the onboarding wizard

The pages of the wizard, and the messages by which a browser extension goes
through the same steps.
-/

namespace RefinetPillars

namespace OnboardingWizard

open HexText LineText DecimalText ContentSigning JsonText
open BindingCreation CrashableActions CrashableActions.Action

section Pages

/-- What a page shows. -/
inductive Page where
  | welcome
  | about
  | generatePidPrompt
  | pidGenerated (pid publicKey : Text) (isEncrypted : Bool)
  | connectWalletPrompt
  | invalidAddress (address : Text)
  | siweChallenge (message : Text)
  | unlockPrompt (problem : Option Text)
  | verificationFailed (refusal : Refusal)
  | confirm (binding : BindingRow)
  | complete
  | cannotReset
  | wizardReset
  | error (message retrySelector : Text)

variable (env : Environment) (circumstances : Circumstances)

def pidNotFound : Page :=
  .error "pid.json not found — please restart the wizard.".toList
    "/onboarding".toList

def stepGeneratePidExecute (query : Text) (state : WizardState) :
    Wizard Page := do
  let password := if strip query = [] then none else some (strip query)
  let identity : Identity := ⟨password, circumstances.seed⟩
  savePid identity
  if password.isSome then
    unlock env identity (.str (strip query))
    saveOnboardingState
      { state with step := .connectWallet, pid := some (identity.pid env) }
    return .pidGenerated (identity.pid env) (identity.pillar env).publicKey true
  else
    saveOnboardingState
      { state with step := .connectWallet, pid := some (identity.pid env) }
    return .pidGenerated (identity.pid env) (identity.pillar env).publicKey
      false

/-- `^0x[0-9a-fA-F]{40}$` of a text that does not end in a line break. -/
def isEvmAddress (address : Text) : Bool :=
  "0x".toList.isPrefixOf address && address.length == 42 &&
    (address.drop 2).all fun character => (digitValue character).isSome

def stepSiweChallenge (state : WizardState) : Wizard Page := do
  let address ← lift (match state.evmAddress with
    | .absent => .error (.keyError "evm_address".toList)
    | .null => .ok none
    | .text value => .ok (some value))
  match ← createChallenge env circumstances address 1 "deployer".toList []
    with
  | .error raised => lift (.error (.siwe raised))
  | .ok (message, nonce) =>
      saveOnboardingState
        { state with
          challengeNonce := some nonce
          siweMessage := some message }
      return .siweChallenge message

def stepConnectWalletExecute (query : Text) (state : WizardState) :
    Wizard Page :=
  if isEvmAddress (strip query) then do
    let state :=
      { state with
        step := .siweChallenge
        evmAddress := .text (strip query) }
    saveOnboardingState state
    stepSiweChallenge env circumstances state
  else return .invalidAddress (strip query)

/-- The state is read again when the page is revisited. -/
def stepConfirm (binding : Option BindingRow) : Wizard Page :=
  match binding with
  | some row => return .confirm row
  | none => do
      let state ← getOnboardingState env
      let world ← read
      match state.pid.bind fun pid =>
        if pid = [] then none else getDeployerBinding pid world.bindings with
      | some row => return .confirm row
      | none =>
          return .error "Binding not found — please restart.".toList
            "/onboarding".toList

/-- The arguments of `create_binding`; a null address counts as empty. -/
def bindingOf (state : WizardState) (signature : Text) : Creation where
  evmAddress :=
    match state.evmAddress with
    | .text value => value
    | .absent | .null => []
  siweMessage := state.siweMessage.getD []
  siweSignature := signature
  consumedAt := circumstances.consumedAt
  createdAt := circumstances.createdAt

def stepSiweVerify (query : Text) (state : WizardState) : Wizard Page := do
  let world ← read
  match world.pidJson.loaded with
  | none => return pidNotFound
  | some identity =>
      if identity.isUnlocked env world then
        match ← createBinding env identity
          (bindingOf circumstances state (strip query)) with
        | .error refusal => return .verificationFailed refusal
        | .ok row =>
            saveOnboardingState
              { state with
                step := .confirm
                bindingId := some row.bindingId }
            stepConfirm env (some row)
      else
        saveOnboardingState
          { state with pendingSignature := some (strip query) }
        return .unlockPrompt none

def stepComplete : Wizard Page := do
  saveOnboardingState { step := .complete, evmAddress := .absent }
  return .complete

def stepReset : Wizard Page := do
  let state ← getOnboardingState env
  if state.step = .confirm ∨ state.step = .complete then return .cannotReset
  else
    resetOnboarding
    return .wizardReset

def stepUnlockExecute (query : Text) (state : WizardState) :
    Wizard Page := do
  let world ← read
  match world.pidJson.loaded with
  | none => return pidNotFound
  | some identity =>
      match ← unlockOrRefuse env identity (.str (strip query)) with
      | some (.valueError message) => return .unlockPrompt (some message)
      | some raised => lift (.error raised)
      | none =>
          let resumed := { state with pendingSignature := none }
          saveOnboardingState resumed
          match state.pendingSignature with
          | some (first :: rest) =>
              stepSiweVerify env circumstances (first :: rest) resumed
          | some [] | none => stepSiweChallenge env circumstances resumed

/-- `rstrip("/") or "/onboarding"`. -/
def normalized (selector : Text) : Text :=
  match (selector.reverse.dropWhile fun character => character = '/').reverse
    with
  | [] => "/onboarding".toList
  | first :: rest => first :: rest

/-- The routes that depend on the step. -/
def routeStep (selector query : Text) (state : WizardState) : Wizard Page :=
  if state.step = .welcome ∨ selector = "/onboarding".toList then
    if selector = "/onboarding/generate-pid".toList then
      if query ≠ [] then stepGeneratePidExecute env circumstances query state
      else return .generatePidPrompt
    else return .welcome
  else
    match state.step with
    | .generatePid =>
        if query ≠ [] then stepGeneratePidExecute env circumstances query state
        else return .generatePidPrompt
    | .connectWallet =>
        if selector = "/onboarding/connect-wallet".toList ∧ query ≠ [] then
          stepConnectWalletExecute env circumstances query state
        else return .connectWalletPrompt
    | .siweChallenge =>
        if selector = "/onboarding/siwe-verify".toList ∧ query ≠ [] then
          stepSiweVerify env circumstances query state
        else stepSiweChallenge env circumstances state
    | .siweVerify =>
        if query ≠ [] then stepSiweVerify env circumstances query state
        else stepSiweChallenge env circumstances state
    | .confirm => stepConfirm env none
    | .complete => stepComplete
    | .welcome | .other _ => return .welcome

def handleWizardStep (selector query : Text) : Wizard Page := do
  let state ← getOnboardingState env
  if normalized selector = "/onboarding/reset".toList then stepReset env
  else if normalized selector = "/onboarding/about".toList then return .about
  else if normalized selector = "/onboarding/complete".toList then stepComplete
  else if normalized selector = "/onboarding/unlock".toList then
    if query ≠ [] then stepUnlockExecute env circumstances query state
    else return .unlockPrompt none
  else routeStep env circumstances (normalized selector) query state

end Pages

section Messages

/-- What the bridge answers. -/
inductive Reply where
  | error (type message : Text)
  | failed (type message : Text) (raised : Raised)
  | locked (type : Text) (raised : Raised)
  | refused (type : Text) (refusal : Refusal)
  | challenge (type message pid : Text)
  | bound (type : Text) (binding : BindingRow)

variable (env : Environment) (circumstances : Circumstances)

/-- `request.get(key, "").strip()`. -/
def strippedField (key : String) (request : Json) : Except Raised Text :=
  match (request.get key.toList).getD (.str []) with
  | .str text => .ok (strip text)
  | _ => .error .attributeError

def hasAddressForm (address : Text) : Bool :=
  "0x".toList.isPrefixOf address && address.length == 42

/-- `int` of a value. -/
def intOf : Json → Except Raised Int
  | .bool value => .ok (if value then 1 else 0)
  | .int value => .ok value
  | .float printed =>
      match env.truncate printed with
      | some value => .ok value
      | none =>
          if printed = "NaN".toList then
            .error (.valueError "cannot convert float NaN to integer".toList)
          else .error .overflowError
  | .str text =>
      match int text with
      | some value => .ok value
      | none =>
          .error (.valueError
            "invalid literal for int() with base 10".toList)
  | .null | .arr _ | .obj _ => .error .typeError

def chainIdOf (request : Json) : Except Raised Int :=
  intOf env ((request.get "chain_id".toList).getD (.int 1))

/-- The company URL as a challenge shows it; an empty one is left out. -/
def companyUrlOf (request : Json) : Text :=
  match request.get "company_url".toList with
  | none => []
  | some value =>
      if value.isFalsy then []
      else
        match value with
        | .str text => text
        | _ => env.repr value

def fieldOf (key : String) (request : Json) : Json :=
  (request.get key.toList).getD .null

/-- The identity of the file, or a new one. -/
def ensurePid (password : Json) : Wizard Identity := do
  let world ← read
  match world.pidJson.loaded with
  | some identity => return identity
  | none =>
      let text ← lift (passwordText password)
      savePid ⟨text, circumstances.seed⟩
      return ⟨text, circumstances.seed⟩

def onboardingConnect : Text := "onboarding_connect".toList

/-- `onboarding_connect` once there is an identity and its key is warm. -/
def advanceState (address : Text) (identity : Identity) (request : Json) :
    Wizard Reply := do
  let state ← getOnboardingState env
  match chainIdOf env request with
  | .error raised =>
      return .failed onboardingConnect
        "Challenge generation failed: ".toList raised
  | .ok chainId =>
      match ← createChallenge env circumstances (some address) chainId
        "deployer".toList (companyUrlOf env request) with
      | .error raised =>
          return .failed onboardingConnect
            "Challenge generation failed: ".toList (.siwe raised)
      | .ok (message, nonce) =>
          saveOnboardingState
            { state with
              step := .siweChallenge
              pid := some (identity.pid env)
              evmAddress := .text address
              challengeNonce := some nonce
              siweMessage := some message }
          return .challenge "onboarding_challenge".toList message
            (identity.pid env)

def handleOnboardingConnect (request : Json) : Wizard Reply := do
  let address ← lift (strippedField "address" request)
  if hasAddressForm address = false then
    return .error onboardingConnect
      "Invalid EVM address. Format: 0x + 40 hex chars".toList
  else
    let identity ← ensurePid circumstances (fieldOf "password" request)
    if (fieldOf "password" request).isFalsy then
      advanceState env circumstances address identity request
    else
      match ← unlockOrRefuse env identity (fieldOf "password" request) with
      | some raised =>
          return .failed onboardingConnect
            "Cannot unlock private key: ".toList raised
      | none => advanceState env circumstances address identity request

def onboardingSignature : Text := "onboarding_signature".toList

/-- Whether a challenge is pending. -/
def WizardState.isPending (state : WizardState) : Bool :=
  match state.siweMessage, state.evmAddress with
  | some (_ :: _), .text (_ :: _) => true
  | _, _ => false

def handleOnboardingSignature (request : Json) : Wizard Reply := do
  let signature ← lift (strippedField "signature" request)
  let world ← read
  if signature = [] then
    return .error onboardingSignature "Missing signature".toList
  else
    match world.pidJson.loaded with
    | none =>
        return .error onboardingSignature
          "No PID found — send onboarding_connect first".toList
    | some identity =>
        let state ← getOnboardingState env
        if state.isPending = false then
          return .error onboardingSignature
            "No challenge pending — send onboarding_connect first".toList
        else
          match ← keyOrRefuse env identity (fieldOf "password" request) with
          | some raised => return .locked onboardingSignature raised
          | none =>
              match ← createBinding env identity
                (bindingOf circumstances state signature) with
              | .error refusal => return .refused onboardingSignature refusal
              | .ok row =>
                  saveOnboardingState
                    { state with
                      step := .complete
                      bindingId := some row.bindingId }
                  return .bound "onboarding_complete".toList row

def rebind : Text := "rebind".toList

/-- The role that a request to rebind names. -/
def bindingTypeOf (request : Json) : Option Text :=
  match (request.get "binding_type".toList).getD (.str "deployer".toList) with
  | .str text => if text ∈ SiweMessage.bindingRoles then some text else none
  | _ => none

/-- The second step of `rebind`. -/
def writeBinding (identity : Identity) (address bindingType signature : Text)
    (request : Json) : Wizard Reply := do
  if (fieldOf "message" request).isFalsy then
    return .error rebind "Missing the signed message".toList
  else
    match ← keyOrRefuse env identity (fieldOf "password" request) with
    | some raised => return .locked rebind raised
    | none =>
        match fieldOf "message" request with
        | .str message =>
            match ← createBinding env identity
              { evmAddress := address
                siweMessage := message
                siweSignature := signature
                bindingType := bindingType
                consumedAt := circumstances.consumedAt
                createdAt := circumstances.createdAt } with
            | .error refusal => return .refused rebind refusal
            | .ok row => return .bound "rebind_complete".toList row
        | _ => return .failed rebind "Binding failed: ".toList .attributeError

/-- The Gopher server has the identity with which it was started, if it
runs. -/
def handleRebind (served : Option Identity) (request : Json) :
    Wizard Reply := do
  let address ← lift (strippedField "address" request)
  let world ← read
  if hasAddressForm address = false then
    return .error rebind "Invalid EVM address. Format: 0x + 40 hex chars".toList
  else
    match bindingTypeOf request, served.or world.pidJson.loaded with
    | none, _ =>
        return .error rebind
          "binding_type must be 'deployer' or 'operator'".toList
    | some _, none => return .error rebind "No PID found".toList
    | some bindingType, some identity =>
        let signature ← lift (strippedField "signature" request)
        if signature = [] then
          match chainIdOf env request with
          | .error raised =>
              return .failed rebind "Challenge generation failed: ".toList
                raised
          | .ok chainId =>
              match ← createChallenge env circumstances (some address) chainId
                bindingType (companyUrlOf env request) with
              | .error raised =>
                  return .failed rebind "Challenge generation failed: ".toList
                    (.siwe raised)
              | .ok (message, _) =>
                  return .challenge "rebind_challenge".toList message
                    (identity.pid env)
        else
          writeBinding env circumstances identity address bindingType signature
            request

end Messages

end OnboardingWizard

end RefinetPillars
