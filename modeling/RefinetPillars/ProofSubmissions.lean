import RefinetPillars.OrderedDict
import RefinetPillars.RunHistory
import RefinetPillars.ServiceReceiptsOnce

/-!
# Submitted proofs

A Pillar takes receipts and proofs that somebody holds its key.  A proof of the
key answers a challenge that the Pillar has issued; what is submitted may be any
text.
-/

namespace RefinetPillars

namespace ProofSubmissions

open HexText ContentSigning JsonText ExceptRules OrderedDict
open RunHistory (Admitted admitted_nil)
open KeyRecovery (encodeUtf8)
open PeerAdmission (admittedKey admittedPid)
open WalletBinding (IsText pidMatchesValue)
open ServiceReceipts (Ledger Submission handleReceipt queryOf witnessChecks
  verifyWitness statuses isOne resourceOf)

section Definitions

/-- What stops the interpreter while it reads a document: a number with too many
digits is a value error, and nesting that is too deep a recursion error. -/
inductive Limit where
  | digits
  | nesting

/-- The limits of the interpreter, if a text exceeds one, are a parameter. -/
structure Environment extends ServiceReceipts.Environment where
  limit : Text → Option Limit

structure Pillar where
  pid : Text
  publicKey : Text

/-- A row of the table `siwe_sessions`; times are in seconds. -/
structure Session where
  sessionId : Text
  address : Text
  nonce : Json
  issuedAt : ℚ
  expiresAt : ℚ
  signature : Json
  pid : Text

structure State where
  challenges : Dict Text ℚ
  sessions : List Session
  ledger : Ledger

def challengeTtlSec : ℚ := 300

def sessionDurationHours : ℚ := 24

/-- An error may end with the text of an exception.  An exception that is not
handled is no answer. -/
inductive Answer where
  | issued (context : Text)
  | error (message : Text)
  | granted (session : Session)
  | receipt (answer : ServiceReceipts.Answer)
  | raised

variable (env : Environment) (pillar : Pillar)

/-- `/auth/zkp-challenge`; expired challenges are dropped. -/
def issueChallenge (context : Text) (now : ℚ) (state : State) :
    State × Answer :=
  ({ state with
    challenges := (state.challenges.filter fun entry => decide (now < entry.2)).set
      context (now + challengeTtlSec) }, .issued context)

/-- `KeyPossessionProof.verify`, whose exceptions are all handled. -/
def verifyPossession (proof : Json) (context : Text) : Bool :=
  (proof.get "type".toList).any (IsText "schnorr-zkp-v1".toList) &&
  (proof.get "public_key".toList).any (IsText pillar.publicKey) &&
  decide (IsText context ((proof.get "context".toList).getD (.str []))) &&
  match fromHex pillar.publicKey, proof.get "commitment".toList,
      proof.get "challenge".toList, proof.get "response".toList with
  | some publicKey, some (.str commitment), some (.str challenge),
      some (.str response) =>
      match fromHex commitment, fromHex response with
      | some commitment, some response =>
          challenge = toHex (env.scheme.sha256
            (commitment ++ publicKey ++ encodeUtf8 context)) &&
          env.scheme.verify publicKey response
            (encodeUtf8 (challenge ++ toHex commitment))
      | _, _ => false
  | _, _, _, _ => false

/-- `establish_session_zkp`. -/
def establishSessionZkp (sessionId : Text) (now : ℚ) (proof : Json) :
    Session where
  sessionId := sessionId
  address := "0x".toList ++ (toHex (env.scheme.sha256
    ((fromHex pillar.publicKey).getD []))).take 40
  nonce := (proof.get "challenge".toList).getD (.str "zkp".toList)
  issuedAt := now
  expiresAt := now + 3600 * sessionDurationHours
  signature := (proof.get "response".toList).getD (.str [])
  pid := pillar.pid

def unknownChallenge : Answer :=
  .error ("Unknown or expired challenge. Request one from " ++
    "/auth/zkp-challenge.").toList

/-- The clock is read when a challenge is looked up and when a session is
established. -/
structure Moment where
  now : ℚ
  established : ℚ

/-- A challenge is taken out of the outstanding ones before the proof is
verified. -/
def answerChallenge (proof : Json) (context sessionId : Text) (moment : Moment)
    (state : State) : State × Answer :=
  match state.challenges.get? context with
  | none => (state, unknownChallenge)
  | some expiry =>
      let left := { state with
        challenges := state.challenges.filter fun entry =>
          decide (entry.1 ≠ context) }
      if expiry ≤ moment.now then (left, unknownChallenge)
      else if verifyPossession env pillar proof context then
        let session := establishSessionZkp env pillar sessionId
          moment.established proof
        ({ left with sessions := left.sessions ++ [session] }, .granted session)
      else (left, .error "ZKP verification failed".toList)

/-- `json.loads`; a document that cannot be decoded has no limit. -/
def readJson (query : Text) : Except (Option Limit) Json :=
  match env.limit query with
  | some limit => .error (some limit)
  | none =>
      match loads env.floatRepr query with
      | some value => .ok value
      | none => .error none

def contextField (proof : Json) : Json :=
  (proof.get "context".toList).getD (.str [])

/-- A context is looked up, so it must have a hash. -/
def answerProof (proof : Json) (sessionId : Text) (moment : Moment)
    (state : State) : State × Answer :=
  match proof with
  | .obj fields =>
      match contextField (.obj fields) with
      | .str context =>
          answerChallenge env pillar (.obj fields) context sessionId moment state
      | .arr _ | .obj _ => (state, .raised)
      | .null | .bool _ | .int _ | .float _ => (state, unknownChallenge)
  | .null | .bool _ | .int _ | .float _ | .str _ | .arr _ => (state, .raised)

/-- `/auth/zkp-verify`. -/
def proveKey (selector sessionId : Text) (moment : Moment) (state : State) :
    State × Answer :=
  if queryOf selector = [] then
    (state, .error "Submit ZKP proof as JSON".toList)
  else
    match readJson env (queryOf selector) with
    | .ok proof => answerProof env pillar proof sessionId moment state
    | .error (some .nesting) => (state, .raised)
    | .error none | .error (some .digits) =>
        (state, .error "ZKP error: ".toList)

/-- `/proof/receipt`, where a value error of the reader is not handled. -/
def submitReceipt (submission : Submission) (state : State) : State × Answer :=
  if (env.limit (queryOf submission.selector)).isSome ∧
      queryOf submission.selector ≠ [] then (state, .raised)
  else
    match handleReceipt env.toEnvironment pillar.pid submission
        state.ledger with
    | (ledger, .unhandled) => ({ state with ledger := ledger }, .raised)
    | (ledger, answer) => ({ state with ledger := ledger }, .receipt answer)

inductive Event where
  | challenge (context : Text) (now : ℚ)
  | prove (selector sessionId : Text) (moment : Moment)
  | receipt (submission : Submission)

def step (state : State) : Event → State × Answer
  | .challenge context now => issueChallenge context now state
  | .prove selector sessionId moment =>
      proveKey env pillar selector sessionId moment state
  | .receipt submission => submitReceipt env pillar submission state

def after (event : Event) (state : State) : State :=
  (step env pillar state event).1

/-- The state after some events, newest first. -/
def run (start : State) (events : List Event) : State :=
  RunHistory.run (after env pillar) start events

/-- The context that a proof names. -/
def contextIn (proof : Json) : Option Text :=
  match proof, contextField proof with
  | .obj _, .str context => some context
  | _, _ => none

/-- The context that a submission names. -/
def contextOf (selector : Text) : Option Text :=
  (readJson env (queryOf selector)).toOption.bind contextIn

/-- The event is a proof that is accepted for a context. -/
def Spends (context : Text) (event : Event) (state : State) : Prop :=
  ∃ selector sessionId moment session,
    event = .prove selector sessionId moment ∧
    contextOf env selector = some context ∧
    (step env pillar state event).2 = .granted session

end Definitions

section Specification

variable (env : Environment) (pillar : Pillar)

/-- What is promised for one event. -/
structure IsFair (event : Event) (state : State) : Prop where
  answer : (step env pillar state event).2 ≠ .raised
  receipt : ∀ submission, event = .receipt submission →
    (∀ stored requesterPid resource status,
      (step env pillar state event).2 ≠
        .receipt (.filed stored requesterPid resource status)) →
    (after env pillar event state).ledger = state.ledger
  malformed : ∀ selector sessionId moment,
    event = .prove selector sessionId moment →
    (∀ context, contextOf env selector = some context →
      state.challenges.get? context = none) →
    (after env pillar event state).challenges = state.challenges

/-- What is promised for a run.  A challenge is accepted before it expires, and
only if it has not been accepted since it was issued. -/
structure KeepsFaith (start : State) (events : List Event) : Prop where
  each : Admitted (after env pillar) start (IsFair env pillar) events
  accepted : ∀ selector sessionId moment before session,
    .prove selector sessionId moment :: before <:+ events →
    (step env pillar (run env pillar start before)
      (.prove selector sessionId moment)).2 = .granted session →
    ∃ context issued between older, contextOf env selector = some context ∧
      before = between ++ .challenge context issued :: older ∧
      moment.now < issued + challengeTtlSec ∧
      Admitted (after env pillar)
        (run env pillar start (.challenge context issued :: older))
        (fun event state => ¬ Spends env pillar context event state) between

/-- A submission of a proof of the key that is answered. -/
def IsAnsweredProof (selector : Text) : Prop :=
  queryOf selector = [] ∨ env.limit (queryOf selector) = some .digits ∨
    env.limit (queryOf selector) = none ∧
      ∀ proof, loads env.floatRepr (queryOf selector) = some proof →
        (∃ fields, proof = .obj fields) ∧
          (∀ items, contextField proof ≠ .arr items) ∧
          ∀ fields, contextField proof ≠ .obj fields

/-- An attestation that is checked up to its time. -/
structure ReachesTime (receipt publicKey : Json) : Prop where
  version : (receipt.get "v".toList).any isOne = true
  status : (statuses.any fun status =>
    (receipt.get "status".toList).any (IsText status)) = true
  keyed : ∃ pid, receipt.get "pid".toList = some pid ∧
    pidMatchesValue env.scheme pid publicKey = true
  signed : receipt.get "sig".toList ≠ none
  named : receipt.get "resource".toList ≠ none

/-- A receipt whose handling ends with an answer. -/
structure IsAnsweredReceipt (receipt publicKey : Json) : Prop where
  dictionary : ∃ fields, receipt = .obj fields
  time : ReachesTime env receipt publicKey → ∀ printed,
    receipt.get "fetched_at".toList = some (.float printed) →
      env.truncate printed = none → printed = "NaN".toList
  resource : verifyWitness env.toEnvironment receipt publicKey = .ok none →
    ServiceReceipts.length (resourceOf receipt) ≠ none

def IsAnsweredSubmission (selector : Text) : Prop :=
  queryOf selector = [] ∨ env.limit (queryOf selector) = none ∧
    ∀ payload receipt publicKey,
      loads env.floatRepr (queryOf selector) = some payload →
      payload.get "receipt".toList = some receipt →
      payload.get "public_key".toList = some publicKey →
        IsAnsweredReceipt env receipt publicKey

/-- Whether an event is answered depends on its text alone. -/
def IsAnswered : Event → Prop
  | .challenge _ _ => True
  | .prove selector _ _ => IsAnsweredProof env selector
  | .receipt submission => IsAnsweredSubmission env submission.selector

end Specification

section Proofs

variable {env : Environment} {pillar : Pillar} {selector sessionId : Text}
  {moment : Moment} {state : State}

theorem answerChallenge_ne_raised {proof : Json} {context : Text} :
    (answerChallenge env pillar proof context sessionId moment state).2 ≠
      .raised := by
  rw [answerChallenge]
  split
  next => nofun
  next =>
    dsimp only
    split
    next => nofun
    next => split <;> nofun

theorem answerProof_ne_raised_iff {proof : Json} :
    (answerProof env pillar proof sessionId moment state).2 ≠ .raised ↔
      (∃ fields, proof = .obj fields) ∧
        (∀ items, contextField proof ≠ .arr items) ∧
        ∀ fields, contextField proof ≠ .obj fields := by
  cases proof with
  | obj fields =>
      rw [answerProof]
      cases field : contextField (.obj fields) with
      | str context =>
          exact iff_of_true answerChallenge_ne_raised ⟨⟨fields, rfl⟩, nofun, nofun⟩
      | null | bool | int | float =>
          exact iff_of_true nofun ⟨⟨fields, rfl⟩, nofun, nofun⟩
      | arr items =>
          exact iff_of_false (fun answered => answered rfl) fun object =>
            object.2.1 items rfl
      | obj others =>
          exact iff_of_false (fun answered => answered rfl) fun object =>
            object.2.2 others rfl
  | null | bool | int | float | str | arr =>
      exact iff_of_false (fun answered => answered rfl) (by simp)

theorem answerProof_of_contextIn_none {proof : Json}
    (unnamed : contextIn proof = none) :
    ∃ answer, answerProof env pillar proof sessionId moment state =
      (state, answer) ∧ ∀ session, answer ≠ .granted session := by
  cases proof with
  | obj fields =>
      rw [answerProof]
      cases field : contextField (.obj fields) with
      | str context => simp [contextIn, field] at unnamed
      | null | bool | int | float | arr | obj => exact ⟨_, rfl, nofun⟩
  | null | bool | int | float | str | arr => exact ⟨_, rfl, nofun⟩

theorem answerProof_of_contextIn_some {proof : Json} {context : Text}
    (named : contextIn proof = some context) :
    answerProof env pillar proof sessionId moment state =
      answerChallenge env pillar proof context sessionId moment state := by
  cases proof with
  | obj fields =>
      rw [answerProof]
      cases field : contextField (.obj fields) with
      | str other =>
          simp only [contextIn, field, Option.some.injEq] at named
          rw [named]
      | null | bool | int | float | arr | obj =>
          simp [contextIn, field] at named
  | null | bool | int | float | str | arr => simp [contextIn] at named

theorem proveKey_ne_raised_iff :
    (proveKey env pillar selector sessionId moment state).2 ≠ .raised ↔
      IsAnsweredProof env selector := by
  rw [proveKey, IsAnsweredProof]
  split
  next empty => exact iff_of_true nofun (.inl empty)
  next nonempty =>
    rw [or_iff_right nonempty, readJson]
    cases env.limit (queryOf selector) with
    | some limit =>
        cases limit with
        | digits => exact iff_of_true nofun (.inl rfl)
        | nesting =>
            refine iff_of_false (fun answered => answered rfl) ?_
            rintro (⟨⟨⟩⟩ | ⟨⟨⟩, -⟩)
    | none =>
        cases loads env.floatRepr (queryOf selector) with
        | none => exact iff_of_true nofun (.inr ⟨rfl, nofun⟩)
        | some proof =>
            refine answerProof_ne_raised_iff.trans ?_
            constructor
            · intro object
              refine .inr ⟨rfl, ?_⟩
              rintro _ ⟨⟩
              exact object
            · rintro (⟨⟨⟩⟩ | ⟨-, object⟩)
              exact object proof rfl

theorem contextOf_eq_none_of_nil (empty : queryOf selector = []) :
    contextOf env selector = none := by
  rw [contextOf, empty, readJson]
  cases env.limit [] with
  | none => rfl
  | some limit => rfl

/-- A submission that names no context leaves everything as it is. -/
theorem proveKey_of_contextOf_none (unnamed : contextOf env selector = none) :
    ∃ answer, proveKey env pillar selector sessionId moment state =
      (state, answer) ∧ ∀ session, answer ≠ .granted session := by
  rw [contextOf] at unnamed
  rw [proveKey]
  split
  next => exact ⟨_, rfl, nofun⟩
  next =>
    cases read : readJson env (queryOf selector) with
    | ok proof =>
        rw [read] at unnamed
        exact answerProof_of_contextIn_none unnamed
    | error limit =>
        rcases limit with _ | _ | _ <;> exact ⟨_, rfl, nofun⟩

theorem proveKey_of_contextOf_some {context : Text}
    (named : contextOf env selector = some context) :
    ∃ proof, proveKey env pillar selector sessionId moment state =
      answerChallenge env pillar proof context sessionId moment state := by
  have nonempty : queryOf selector ≠ [] := by
    intro empty
    rw [contextOf_eq_none_of_nil empty] at named
    cases named
  rw [contextOf] at named
  rw [proveKey, if_neg nonempty]
  cases read : readJson env (queryOf selector) with
  | ok proof =>
      rw [read] at named
      exact ⟨proof, answerProof_of_contextIn_some named⟩
  | error limit =>
      rw [read] at named
      cases named

theorem get?_without (challenges : Dict Text ℚ) (context other : Text) :
    (challenges.filter fun entry => decide (entry.1 ≠ context)).get? other =
      if other = context then none else challenges.get? other := by
  rw [Dict.get?_filter]
  by_cases same : other = context
  · rw [if_pos same, Option.filter_eq_none_iff]
    simp [same]
  · rw [if_neg same]
    cases challenges.get? other with
    | none => rfl
    | some expiry => exact Option.filter_some_pos (decide_eq_true same)

/-- A challenge that has been looked up is no longer there. -/
theorem get?_answerChallenge {proof : Json} {context : Text} (other : Text) :
    (answerChallenge env pillar proof context sessionId moment
        state).1.challenges.get? other =
      if other = context then none else state.challenges.get? other := by
  rw [answerChallenge]
  cases found : state.challenges.get? context with
  | none =>
      dsimp only
      split
      next same => rw [same, found]
      next => rfl
  | some expiry =>
      dsimp only
      rw [← get?_without]
      split
      next => rfl
      next => split <;> rfl

theorem granted_of_answerChallenge {proof : Json} {context : Text}
    {session : Session}
    (granted : (answerChallenge env pillar proof context sessionId moment
      state).2 = .granted session) :
    ∃ expiry, state.challenges.get? context = some expiry ∧
      moment.now < expiry := by
  rw [answerChallenge] at granted
  split at granted
  next => cases granted
  next expiry found =>
    dsimp only at granted
    split at granted
    next => cases granted
    next fresh => exact ⟨expiry, found, not_le.mp fresh⟩

/-- The challenge that a submission names is no longer there. -/
theorem get?_proveKey (other : Text) :
    (proveKey env pillar selector sessionId moment
        state).1.challenges.get? other =
      if contextOf env selector = some other then none
      else state.challenges.get? other := by
  cases named : contextOf env selector with
  | none =>
      obtain ⟨answer, same, -⟩ := @proveKey_of_contextOf_none env pillar selector
        sessionId moment state named
      rw [same, if_neg nofun]
  | some context =>
      obtain ⟨proof, same⟩ := @proveKey_of_contextOf_some env pillar selector
        sessionId moment state context named
      rw [same, get?_answerChallenge]
      simp only [Option.some.injEq, eq_comm]

theorem exists_of_granted {session : Session}
    (granted : (proveKey env pillar selector sessionId moment state).2 =
      .granted session) :
    ∃ context expiry, contextOf env selector = some context ∧
      state.challenges.get? context = some expiry ∧ moment.now < expiry := by
  cases named : contextOf env selector with
  | none =>
      obtain ⟨answer, same, refused⟩ := @proveKey_of_contextOf_none env pillar
        selector sessionId moment state named
      rw [same] at granted
      exact (refused session granted).elim
  | some context =>
      obtain ⟨proof, same⟩ := @proveKey_of_contextOf_some env pillar selector
        sessionId moment state context named
      rw [same] at granted
      obtain ⟨expiry, found, fresh⟩ := granted_of_answerChallenge granted
      exact ⟨context, expiry, rfl, found, fresh⟩

end Proofs

section Receipts

variable {env : Environment} {pillar : Pillar} {receipt publicKey : Json}
  {submission : Submission} {state : State}

/-- An exception of the verification that is handled. -/
def IsHandled (raised : ServiceReceipts.Raised) : Prop := raised ≠ .unhandled

/-- An answer that is not an exception. -/
def IsGiven (answer : ServiceReceipts.Answer) : Prop := answer ≠ .unhandled

theorem isHandled_keyError (key : Text) : IsHandled (.keyError key) := by
  rintro ⟨⟩

theorem isHandled_typeError : IsHandled .typeError := by
  rintro ⟨⟩

theorem isHandled_valueError : IsHandled .valueError := by
  rintro ⟨⟩

theorem isGiven_error (message : Text)
    (exception : Option ServiceReceipts.Raised) :
    IsGiven (.error message exception) := by
  rintro ⟨⟩

theorem item_raises (key : String) (attestation : Json) :
    Raises IsHandled (ServiceReceipts.item key attestation) := by
  rw [ServiceReceipts.item]
  cases attestation.get key.toList with
  | some value => exact Raises.ok
  | none => exact Raises.error (isHandled_keyError _)

theorem intOf_raises_iff {value : Json} :
    Raises IsHandled (ServiceReceipts.intOf env.toEnvironment value) ↔
      ∀ printed, value = .float printed → env.truncate printed = none →
        printed = "NaN".toList := by
  cases value with
  | float printed =>
      rw [ServiceReceipts.intOf]
      cases found : env.truncate printed with
      | some number =>
          refine iff_of_true Raises.ok ?_
          rintro _ ⟨⟩ infinite
          rw [found] at infinite
          cases infinite
      | none =>
          dsimp only
          split
          next isNaN =>
            refine iff_of_true (Raises.error isHandled_valueError) ?_
            rintro _ ⟨⟩ -
            exact isNaN
          next notNaN =>
            refine iff_of_false ?_ fun handled => notNaN (handled _ rfl found)
            exact fun raises => raises _ rfl rfl
  | null | arr | obj =>
      exact iff_of_true (Raises.error isHandled_typeError) (by rintro _ ⟨⟩)
  | bool | int => exact iff_of_true Raises.ok (by rintro _ ⟨⟩)
  | str text =>
      rw [ServiceReceipts.intOf]
      cases DecimalText.int text with
      | some number => exact iff_of_true Raises.ok (by rintro _ ⟨⟩)
      | none =>
          exact iff_of_true (Raises.error isHandled_valueError) (by rintro _ ⟨⟩)

theorem signedFields_raises_iff :
    Raises IsHandled
        (ServiceReceipts.signedFields env.toEnvironment receipt) ↔
      (receipt.get "pid".toList ≠ none → receipt.get "sig".toList ≠ none →
        receipt.get "resource".toList ≠ none → ∀ printed,
          receipt.get "fetched_at".toList = some (.float printed) →
            env.truncate printed = none → printed = "NaN".toList) := by
  unfold ServiceReceipts.signedFields
  simp only [Raises.bind_iff, item_raises, true_and,
    ServiceReceipts.item_eq_ok, intOf_raises_iff]
  constructor
  · intro handled pid signature resource printed time
    obtain ⟨pid, hasPid⟩ := Option.ne_none_iff_exists'.mp pid
    obtain ⟨signature, hasSignature⟩ := Option.ne_none_iff_exists'.mp signature
    obtain ⟨resource, hasResource⟩ := Option.ne_none_iff_exists'.mp resource
    exact (handled pid hasPid signature hasSignature resource hasResource
      (.float printed) time).1 printed rfl
  · intro handled pid hasPid signature hasSignature resource hasResource time
      hasTime
    constructor
    · rintro printed rfl
      exact handled (ne_of_eq_of_ne hasPid (Option.some_ne_none pid))
        (ne_of_eq_of_ne hasSignature (Option.some_ne_none signature))
        (ne_of_eq_of_ne hasResource (Option.some_ne_none resource))
        printed hasTime
    · intros
      exact Raises.ok

theorem witnessChecks_raises_iff :
    Raises IsHandled
        (witnessChecks env.toEnvironment receipt publicKey) ↔
      (∃ fields, receipt = .obj fields) ∧
        (ReachesTime env receipt publicKey → ∀ printed,
          receipt.get "fetched_at".toList = some (.float printed) →
            env.truncate printed = none → printed = "NaN".toList) := by
  cases receipt with
  | obj fields =>
      rw [and_iff_right ⟨fields, rfl⟩]
      unfold witnessChecks
      dsimp only
      by_cases version : ((Json.obj fields).get "v".toList).any isOne = true
      case neg =>
        rw [if_pos version]
        exact iff_of_true Raises.ok fun reached => (version reached.version).elim
      rw [if_neg (not_not.mpr version)]
      by_cases status : (statuses.any fun status =>
          ((Json.obj fields).get "status".toList).any (IsText status)) = true
      case neg =>
        rw [if_pos status]
        exact iff_of_true Raises.ok fun reached => (status reached.status).elim
      rw [if_neg (not_not.mpr status), Raises.bind_iff,
        and_iff_right (item_raises _ _)]
      constructor
      · intro handled reached
        obtain ⟨pid, hasPid, keyed⟩ := reached.keyed
        have fields := handled pid (ServiceReceipts.item_eq_ok.mpr hasPid)
        rw [if_neg (not_not.mpr keyed), Raises.bind_iff] at fields
        exact signedFields_raises_iff.mp fields.1
          (ne_of_eq_of_ne hasPid (Option.some_ne_none pid)) reached.signed
          reached.named
      · intro handled pid isPid
        have hasPid := ServiceReceipts.item_eq_ok.mp isPid
        split
        next => exact Raises.ok
        next keyed =>
          refine Raises.bind (signedFields_raises_iff.mpr ?_) ?_
          · intro _ signed named
            exact handled ⟨version, status, ⟨pid, hasPid, not_not.mp keyed⟩,
              signed, named⟩
          · intro fields _
            split <;> exact Raises.ok
  | null | bool | int | float | str | arr =>
      exact iff_of_false (fun raises => raises _ rfl rfl) (by simp)

theorem verifyWitness_raises_iff :
    Raises (fun _ => False) (verifyWitness env.toEnvironment receipt publicKey) ↔
      Raises IsHandled
        (witnessChecks env.toEnvironment receipt publicKey) := by
  rw [verifyWitness]
  cases witnessChecks env.toEnvironment receipt publicKey with
  | ok checked =>
      obtain ⟨valid, reason⟩ := checked
      cases valid <;> exact iff_of_true Raises.ok Raises.ok
  | error raised =>
      rw [Raises.error_iff]
      cases raised with
      | unhandled =>
          exact iff_of_false (fun raises => raises _ rfl)
            fun handled => handled rfl
      | keyError | typeError | valueError =>
          refine iff_of_true Raises.ok ?_
          rintro ⟨⟩

theorem witnessed_raises_iff :
    Raises IsGiven
        (ServiceReceipts.witnessed env.toEnvironment receipt publicKey) ↔
      Raises (fun _ => False)
        (verifyWitness env.toEnvironment receipt publicKey) := by
  rw [ServiceReceipts.witnessed]
  cases verifyWitness env.toEnvironment receipt publicKey with
  | ok refusal =>
      rcases refusal with _ | ⟨reason | raised⟩
      · exact iff_of_true Raises.ok Raises.ok
      · exact iff_of_true (Raises.error (isGiven_error _ _)) Raises.ok
      · exact iff_of_true (Raises.error (isGiven_error _ _)) Raises.ok
  | error raised =>
      exact iff_of_false (fun raises => raises _ rfl rfl)
        fun raises => raises _ rfl

theorem witnessed_eq_ok_iff :
    ServiceReceipts.witnessed env.toEnvironment receipt publicKey = .ok () ↔
      verifyWitness env.toEnvironment receipt publicKey = .ok none := by
  rw [ServiceReceipts.witnessed]
  cases verifyWitness env.toEnvironment receipt publicKey with
  | ok refusal =>
      rcases refusal with _ | ⟨reason | raised⟩
      · exact iff_of_true rfl rfl
      · exact iff_of_false (by rintro ⟨⟩) (by rintro ⟨⟩)
      · exact iff_of_false (by rintro ⟨⟩) (by rintro ⟨⟩)
  | error raised => exact iff_of_false (by rintro ⟨⟩) (by rintro ⟨⟩)

theorem checkResource_raises_iff {ownPid : Text} {resource : Json} :
    Raises IsGiven (ServiceReceipts.checkResource ownPid resource) ↔
      ServiceReceipts.length resource ≠ none := by
  rw [ServiceReceipts.checkResource]
  cases ServiceReceipts.length resource with
  | none => exact iff_of_false (fun raises => raises _ rfl rfl) fun some => some rfl
  | some size =>
      refine iff_of_true ?_ (Option.some_ne_none size)
      dsimp only
      split
      next => exact Raises.error (isGiven_error _ _)
      next =>
        split
        next => exact Raises.error (isGiven_error _ _)
        next => exact Raises.ok

/-- What the verification accepts has texts for all that is filed of it. -/
structure HasTexts (receipt publicKey : Json) : Prop where
  pid : ∃ pid, receipt.get "pid".toList = some (.str pid)
  publicKey : ∃ key, publicKey = .str key
  signature : ∃ signature, receipt.get "sig".toList = some (.str signature)
  status : ∃ status, receipt.get "status".toList = some (.str status)

theorem eq_str_of_isText {text : Text} {value : Json}
    (isText : IsText text value) : value = .str text := by
  cases value with
  | str other => exact congrArg Json.str isText
  | null | bool | int | float | arr | obj => exact isText.elim

theorem hasTexts_of_witnessed
    (accepted : ServiceReceipts.witnessed env.toEnvironment receipt publicKey =
      .ok ()) : HasTexts receipt publicKey := by
  obtain ⟨signature, statement, valid⟩ :=
    ServiceReceipts.exists_valid_of_witnessed accepted
  have hasSignature := (ServiceReceipts.exists_of_signedFields valid.fields).1
  rw [witnessed_eq_ok_iff, verifyWitness] at accepted
  split at accepted
  next checked =>
    unfold witnessChecks at checked
    split at checked
    next fields =>
      split at checked
      next => cases checked
      split at checked
      next => cases checked
      next status =>
        obtain ⟨pid, isPid, checked⟩ := bind_eq_ok.mp checked
        split at checked
        next => cases checked
        next keyed =>
          obtain ⟨pidText, key, rfl, isKey, -⟩ :=
            WalletBinding.pidMatchesValue_iff.mp (not_not.mp keyed)
          obtain ⟨named, -, isStatus⟩ := List.any_eq_true.mp (not_not.mp status)
          obtain ⟨value, hasStatus, isText⟩ :=
            (Option.any_eq_true _ _).mp isStatus
          obtain rfl := eq_str_of_isText (of_decide_eq_true isText)
          exact ⟨⟨pidText, ServiceReceipts.item_eq_ok.mp isPid⟩, ⟨key, isKey⟩,
            ⟨signature, hasSignature⟩, ⟨named, hasStatus⟩⟩
    next => cases checked
  all_goals cases accepted

theorem readPayload_raises (query : Text) :
    Raises IsGiven (ServiceReceipts.readPayload env.toEnvironment query) := by
  rw [ServiceReceipts.readPayload]
  split
  next => exact Raises.error (isGiven_error _ _)
  next =>
    split
    next => exact Raises.ok
    next => exact Raises.error (isGiven_error _ _)

theorem readPayload_eq_ok_iff {query : Text} {payload : Json} :
    ServiceReceipts.readPayload env.toEnvironment query = .ok payload ↔
      query ≠ [] ∧ loads env.floatRepr query = some payload := by
  rw [ServiceReceipts.readPayload]
  split
  next empty => exact iff_of_false (by rintro ⟨⟩) fun read => read.1 empty
  next nonempty =>
    rw [and_iff_right nonempty]
    cases loads env.floatRepr query <;> simp

theorem payloadItem_raises (key : String) (payload : Json) :
    Raises IsGiven (ServiceReceipts.payloadItem key payload) := by
  rw [ServiceReceipts.payloadItem.eq_def]
  split
  next =>
    split
    next => exact Raises.ok
    next => exact Raises.error (isGiven_error _ _)
  next => exact Raises.error (isGiven_error _ _)

theorem payloadItem_eq_ok_iff {key : String} {payload value : Json} :
    ServiceReceipts.payloadItem key payload = .ok value ↔
      payload.get key.toList = some value := by
  cases payload with
  | obj fields =>
      rw [ServiceReceipts.payloadItem]
      cases (Json.obj fields).get key.toList <;> simp
  | null | bool | int | float | str | arr =>
      exact iff_of_false (by rintro ⟨⟩) (by rintro ⟨⟩)

theorem textOf_raises {value : Option Json} {text : Text}
    (isText : value = some (.str text)) :
    Raises IsGiven (ServiceReceipts.textOf value) := by
  rw [isText]
  exact Raises.ok

theorem checkRequester_raises (ownPid requesterPid : Text) :
    Raises IsGiven (ServiceReceipts.checkRequester ownPid requesterPid) := by
  rw [ServiceReceipts.checkRequester]
  split
  next => exact Raises.error (isGiven_error _ _)
  next => exact Raises.ok

theorem checkCaps_raises (ownPid requesterPid : Text)
    (moment : ServiceReceipts.Moment) (ledger : Ledger) :
    Raises IsGiven
      (ServiceReceipts.checkCaps ownPid requesterPid moment ledger) := by
  rw [ServiceReceipts.checkCaps]
  split
  next => exact Raises.error (isGiven_error _ _)
  next =>
    split
    next => exact Raises.error (isGiven_error _ _)
    next => exact Raises.ok

theorem isAnsweredReceipt_iff :
    IsAnsweredReceipt env receipt publicKey ↔
      Raises IsGiven
          (ServiceReceipts.witnessed env.toEnvironment receipt publicKey) ∧
        (ServiceReceipts.witnessed env.toEnvironment receipt publicKey =
            .ok () →
          ServiceReceipts.length (resourceOf receipt) ≠ none) := by
  rw [witnessed_raises_iff, verifyWitness_raises_iff, witnessChecks_raises_iff,
    witnessed_eq_ok_iff]
  constructor
  · intro answered
    exact ⟨⟨answered.dictionary, answered.time⟩, answered.resource⟩
  · rintro ⟨⟨dictionary, time⟩, resource⟩
    exact ⟨dictionary, time, resource⟩

/-- What the checks do not answer is a receipt whose handling stops. -/
theorem check_raises_iff {ownPid query : Text}
    {moment : ServiceReceipts.Moment} {ledger : Ledger} :
    Raises IsGiven (ServiceReceipts.check env.toEnvironment ownPid query moment
        ledger) ↔
      (query ≠ [] → ∀ payload receipt publicKey,
        loads env.floatRepr query = some payload →
        payload.get "receipt".toList = some receipt →
        payload.get "public_key".toList = some publicKey →
          IsAnsweredReceipt env receipt publicKey) := by
  unfold ServiceReceipts.check
  simp only [Raises.bind_iff, readPayload_raises, payloadItem_raises, true_and,
    readPayload_eq_ok_iff, payloadItem_eq_ok_iff, checkResource_raises_iff,
    checkRequester_raises, checkCaps_raises]
  constructor
  · intro raises nonempty payload receipt publicKey read hasReceipt hasKey
    obtain ⟨witnessed, rest⟩ :=
      raises payload ⟨nonempty, read⟩ receipt hasReceipt publicKey hasKey
    exact isAnsweredReceipt_iff.mpr ⟨witnessed, fun accepted =>
      (rest () accepted).1⟩
  · rintro answered payload ⟨nonempty, read⟩ receipt hasReceipt publicKey hasKey
    have handled := isAnsweredReceipt_iff.mp
      (answered nonempty payload receipt publicKey read hasReceipt hasKey)
    refine ⟨handled.1, ?_⟩
    rintro ⟨⟩ accepted
    have texts := hasTexts_of_witnessed accepted
    obtain ⟨pid, hasPid⟩ := texts.pid
    obtain ⟨key, isKey⟩ := texts.publicKey
    obtain ⟨signature, hasSignature⟩ := texts.signature
    obtain ⟨status, hasStatus⟩ := texts.status
    refine ⟨handled.2 accepted, fun _ _ => ⟨textOf_raises hasPid, ?_⟩⟩
    intro _ _ _ _ _ _
    refine ⟨textOf_raises (congrArg some isKey), fun _ _ => ?_⟩
    refine ⟨textOf_raises hasSignature, fun _ _ => ?_⟩
    exact ⟨textOf_raises hasStatus, fun _ _ => Raises.ok⟩

theorem handleReceipt_ne_unhandled_iff {ownPid : Text} {ledger : Ledger} :
    (handleReceipt env.toEnvironment ownPid submission ledger).2 ≠ .unhandled ↔
      Raises IsGiven (ServiceReceipts.check env.toEnvironment ownPid
        (queryOf submission.selector) submission.moment ledger) := by
  rw [handleReceipt]
  cases ServiceReceipts.check env.toEnvironment ownPid
      (queryOf submission.selector) submission.moment ledger with
  | error answer =>
      rw [Raises.error_iff]
      rfl
  | ok checked =>
      refine iff_of_true ?_ Raises.ok
      dsimp only
      split <;> rintro ⟨⟩

/-- Only a receipt that is filed is written. -/
theorem ledger_of_handleReceipt {ownPid : Text} {ledger : Ledger}
    (refused : ∀ stored requesterPid resource status,
      (handleReceipt env.toEnvironment ownPid submission ledger).2 ≠
        .filed stored requesterPid resource status) :
    (handleReceipt env.toEnvironment ownPid submission ledger).1 = ledger := by
  rw [handleReceipt] at refused ⊢
  split
  next => rfl
  next checked passed =>
    rw [passed] at refused
    dsimp only at refused
    split
    next resource isText =>
      rw [isText] at refused
      exact (refused _ _ _ _ rfl).elim
    next => rfl

theorem submitReceipt_ne_raised_iff :
    (submitReceipt env pillar submission state).2 ≠ .raised ↔
      IsAnsweredSubmission env submission.selector := by
  rw [submitReceipt, IsAnsweredSubmission]
  split
  next limited =>
    obtain ⟨limit, isLimit⟩ := Option.isSome_iff_exists.mp limited.1
    refine iff_of_false (fun answered => answered rfl) ?_
    rintro (empty | ⟨unlimited, -⟩)
    · exact limited.2 empty
    · rw [isLimit] at unlimited
      cases unlimited
  next free =>
    have answered : (handleReceipt env.toEnvironment pillar.pid submission
        state.ledger).2 ≠ .unhandled ↔
        queryOf submission.selector = [] ∨
          env.limit (queryOf submission.selector) = none ∧
          ∀ payload receipt publicKey,
            loads env.floatRepr (queryOf submission.selector) = some payload →
            payload.get "receipt".toList = some receipt →
            payload.get "public_key".toList = some publicKey →
              IsAnsweredReceipt env receipt publicKey := by
      rw [handleReceipt_ne_unhandled_iff, check_raises_iff]
      by_cases empty : queryOf submission.selector = []
      · exact iff_of_true (fun nonempty => (nonempty empty).elim) (.inl empty)
      · have unlimited : env.limit (queryOf submission.selector) = none := by
          rw [← Option.not_isSome_iff_eq_none]
          exact fun limited => free ⟨limited, empty⟩
        rw [or_iff_right empty, and_iff_right unlimited, forall_prop_of_true empty]
    refine Iff.trans ?_ answered
    split
    next unhandled => simp [unhandled]
    next ledger answer given handled =>
      rw [handled]
      exact iff_of_true (by rintro ⟨⟩) given

theorem challenges_submitReceipt :
    (submitReceipt env pillar submission state).1.challenges =
      state.challenges := by
  rw [submitReceipt]
  split
  next => rfl
  next => split <;> rfl

theorem ledger_of_submitReceipt
    (refused : ∀ stored requesterPid resource status,
      (submitReceipt env pillar submission state).2 ≠
        .receipt (.filed stored requesterPid resource status)) :
    (submitReceipt env pillar submission state).1.ledger = state.ledger := by
  rw [submitReceipt] at refused ⊢
  split
  next => rfl
  next free =>
    rw [if_neg free] at refused
    have kept : (∀ stored requesterPid resource status,
        (handleReceipt env.toEnvironment pillar.pid submission
          state.ledger).2 ≠ .filed stored requesterPid resource status) →
        (handleReceipt env.toEnvironment pillar.pid submission
          state.ledger).1 = state.ledger := ledger_of_handleReceipt
    split at refused
    next ledger unhandled =>
      rw [unhandled] at kept
      exact kept (by rintro _ _ _ _ ⟨⟩)
    next ledger answer given handled =>
      rw [handled] at kept
      refine kept fun stored requesterPid resource status filed => ?_
      exact refused stored requesterPid resource status
        (congrArg Answer.receipt filed)

end Receipts

section Runs

variable {env : Environment} {pillar : Pillar} {start state : State}
  {event : Event} {events : List Event} {context : Text}

theorem step_ne_raised_iff :
    (step env pillar state event).2 ≠ .raised ↔ IsAnswered env event := by
  cases event with
  | challenge context now => exact iff_of_true nofun trivial
  | prove selector sessionId moment => exact proveKey_ne_raised_iff
  | receipt submission => exact submitReceipt_ne_raised_iff

/-- A proof that names no outstanding challenge leaves the challenges. -/
theorem challenges_of_unknown {selector sessionId : Text} {moment : Moment}
    (unknown : ∀ context, contextOf env selector = some context →
      state.challenges.get? context = none) :
    (proveKey env pillar selector sessionId moment state).1.challenges =
      state.challenges := by
  cases named : contextOf env selector with
  | none =>
      obtain ⟨answer, same, -⟩ := proveKey_of_contextOf_none named
      rw [same]
  | some context =>
      obtain ⟨proof, same⟩ := proveKey_of_contextOf_some named
      rw [same, answerChallenge, unknown context named]

theorem isFair_iff :
    IsFair env pillar event state ↔ IsAnswered env event := by
  rw [← step_ne_raised_iff]
  constructor
  · exact fun fair => fair.answer
  · intro answer
    refine ⟨answer, ?_, ?_⟩
    · rintro submission rfl refused
      exact ledger_of_submitReceipt refused
    · rintro selector sessionId moment rfl unknown
      exact challenges_of_unknown unknown

theorem not_spends_challenge {other : Text} {now : ℚ} :
    ¬ Spends env pillar context (.challenge other now) state := by
  rintro ⟨selector, sessionId, moment, session, ⟨⟩, -, -⟩

theorem not_spends_receipt {submission : Submission} :
    ¬ Spends env pillar context (.receipt submission) state := by
  rintro ⟨selector, sessionId, moment, session, ⟨⟩, -, -⟩

/-- What is outstanding after an event has just been issued, or it was
outstanding before and the event does not spend it. -/
theorem outstanding_of_after {expiry : ℚ}
    (outstanding : (after env pillar event state).challenges.get? context =
      some expiry) :
    (∃ issued, event = .challenge context issued ∧
      expiry = issued + challengeTtlSec) ∨
    state.challenges.get? context = some expiry ∧
      ¬ Spends env pillar context event state := by
  cases event with
  | challenge other now =>
      change ((state.challenges.filter _).set other _).get? context = _
        at outstanding
      rw [Dict.get?_set] at outstanding
      split at outstanding
      next same =>
        exact .inl ⟨now, congrArg₂ _ same.symm rfl,
          (Option.some.inj outstanding).symm⟩
      next =>
        rw [Dict.get?_filter] at outstanding
        exact .inr ⟨(Option.filter_eq_some_iff.mp outstanding).1,
          not_spends_challenge⟩
  | prove selector sessionId moment =>
      change (proveKey _ _ _ _ _ _).1.challenges.get? context = _ at outstanding
      rw [get?_proveKey] at outstanding
      split at outstanding
      next => cases outstanding
      next other =>
        refine .inr ⟨outstanding, ?_⟩
        rintro ⟨_, _, _, _, ⟨⟩, named, -⟩
        exact other named
  | receipt submission =>
      change (submitReceipt _ _ _ _).1.challenges.get? context = _
        at outstanding
      rw [challenges_submitReceipt] at outstanding
      exact .inr ⟨outstanding, not_spends_receipt⟩

/-- An outstanding challenge has been issued, and not been spent since. -/
theorem issued_of_outstanding (initially : start.challenges = .empty)
    {expiry : ℚ}
    (outstanding : (run env pillar start events).challenges.get? context =
      some expiry) :
    ∃ issued between older,
      events = between ++ .challenge context issued :: older ∧
      expiry = issued + challengeTtlSec ∧
      Admitted (after env pillar)
        (run env pillar start (.challenge context issued :: older))
        (fun event state => ¬ Spends env pillar context event state) between := by
  induction events with
  | nil =>
      rw [run, RunHistory.run_nil, initially] at outstanding
      cases outstanding
  | cons event events ih =>
      rcases outstanding_of_after outstanding with
        ⟨issued, rfl, isExpiry⟩ | ⟨earlier, unspent⟩
      · exact ⟨issued, [], events, rfl, isExpiry, admitted_nil⟩
      · obtain ⟨issued, between, older, rfl, isExpiry, none⟩ := ih earlier
        refine ⟨issued, event :: between, older, rfl, isExpiry, none.cons ?_⟩
        rw [RunHistory.run_append] at unspent
        exact unspent

theorem accepted_of_run (initially : start.challenges = .empty)
    {selector sessionId : Text} {moment : Moment} {session : Session}
    (granted : (step env pillar (run env pillar start events)
      (.prove selector sessionId moment)).2 = .granted session) :
    ∃ context issued between older, contextOf env selector = some context ∧
      events = between ++ .challenge context issued :: older ∧
      moment.now < issued + challengeTtlSec ∧
      Admitted (after env pillar)
        (run env pillar start (.challenge context issued :: older))
        (fun event state => ¬ Spends env pillar context event state)
        between := by
  obtain ⟨context, expiry, named, found, fresh⟩ := exists_of_granted granted
  obtain ⟨issued, between, older, isRun, rfl, none⟩ :=
    issued_of_outstanding initially found
  exact ⟨context, issued, between, older, named, isRun, fresh, none⟩

/-- What is promised for every event says which submissions there are. -/
theorem isAnswered_of_keepsFaith (faith : KeepsFaith env pillar start events) :
    ∀ event ∈ events, IsAnswered env event := by
  intro event member
  obtain ⟨later, earlier, rfl⟩ := List.mem_iff_append.mp member
  exact isFair_iff.mp (faith.each event earlier ⟨later, rfl⟩)

end Runs

section Concrete

def servingEnvironment : Environment where
  toEnvironment := ServiceReceipts.signedEnvironment
  limit _ := none

def servingPillar : Pillar := ⟨admittedPid, toHex admittedKey⟩

def freshState : State := ⟨.empty, [], .empty⟩

def firstMoment : ServiceReceipts.Moment := ⟨0, 0, 0, Nat.le_refl 0, Nat.le_refl 0⟩

/-- A proof that names a challenge and has no signature. -/
def unsignedProof : Text :=
  "/auth/zkp-verify\t\x7b\"context\":\"0a\"\x7d".toList

/-- A document without a receipt. -/
def emptyReceipt : Text := "/proof/receipt\t\x7b\x7d".toList

/-- A list instead of a proof. -/
def listProof : Text := "/auth/zkp-verify\t[]".toList

/-- A list instead of a receipt. -/
def listReceipt : Text :=
  "/proof/receipt\t\x7b\"receipt\":[],\"public_key\":\"\"\x7d".toList

theorem loads_unsignedProof : loads servingEnvironment.floatRepr
    (queryOf unsignedProof) =
      some (.obj [("context".toList, .str "0a".toList)]) := by
  rfl

theorem loads_emptyReceipt : loads servingEnvironment.floatRepr
    (queryOf emptyReceipt) = some (.obj []) := by
  rfl

theorem loads_listProof :
    loads servingEnvironment.floatRepr (queryOf listProof) = some (.arr []) := by
  rfl

theorem loads_listReceipt :
    loads servingEnvironment.floatRepr (queryOf listReceipt) = some (.obj
      [("receipt".toList, .arr []), ("public_key".toList, .str [])]) := by
  rfl

end Concrete

end ProofSubmissions

end RefinetPillars
