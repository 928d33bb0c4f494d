import RefinetPillars.JsonRoundTrip
import RefinetPillars.ProofSubmissions
import RefinetPillars.StakingAbiCodec

/-!
# Sessions for the holder of the key

A proof signs a challenge, which is made of a random commitment, the key and a
context.  A Pillar grants a session for a proof whose context it has issued, so
a session answers to a proof that the holder of the key has made for it.
-/

namespace RefinetPillars

namespace KeyPossession

open HexText KeyRecovery ContentSigning JsonText OrderedDict
open WalletBinding (IsText)
open ServiceReceipts (Ledger queryOf)
open ProofSubmissions

section Proving

variable (scheme : Scheme)

def commitmentOf (publicKey nonce : List UInt8) : List UInt8 :=
  scheme.sha256 (nonce ++ publicKey)

def challengeOf (publicKey commitment : List UInt8) (context : Text) : Text :=
  toHex (scheme.sha256 (commitment ++ publicKey ++ encodeUtf8 context))

def responseData (publicKey commitment : List UInt8) (context : Text) :
    List UInt8 :=
  encodeUtf8 (challengeOf scheme publicKey commitment context ++
    toHex commitment)

/-- `KeyPossessionProof.prove`, with the random bytes that it draws. -/
def prove (privateKey nonce : List UInt8) (context : Text) : Json :=
  let publicKey := scheme.publicKey privateKey
  let commitment := commitmentOf scheme publicKey nonce
  .obj [("type".toList, .str "schnorr-zkp-v1".toList),
    ("commitment".toList, .str (toHex commitment)),
    ("challenge".toList, .str (challengeOf scheme publicKey commitment context)),
    ("response".toList, .str (toHex (scheme.sign privateKey
      (responseData scheme publicKey commitment context)))),
    ("public_key".toList, .str (toHex publicKey)),
    ("context".toList, .str context)]

end Proving

section Verifying

variable {env : Environment} {pillar : Pillar} {proof : Json} {context : Text}
  {publicKey : List UInt8}

/-- What a proof that verifies contains. -/
structure Verified (env : Environment) (publicKey : List UInt8) (proof : Json)
    (context : Text) (commitment response : List UInt8) : Prop where
  challenge : proof.get "challenge".toList =
    some (.str (challengeOf env.scheme publicKey commitment context))
  verifies : env.scheme.verify publicKey response
    (responseData env.scheme publicKey commitment context) = true

theorem exists_verified (key : fromHex pillar.publicKey = some publicKey)
    (verified : verifyPossession env pillar proof context = true) :
    ∃ commitment response,
      Verified env publicKey proof context commitment response := by
  unfold verifyPossession at verified
  rw [key] at verified
  simp only [Bool.and_eq_true] at verified
  obtain ⟨-, verified⟩ := verified
  split at verified
  next publicKeyBytes commitmentHex challenge responseHex same hasCommitment
      hasChallenge hasResponse =>
    obtain rfl := Option.some.inj same
    split at verified
    next commitment response isCommitment isResponse =>
      simp only [Bool.and_eq_true, decide_eq_true_eq] at verified
      obtain ⟨rfl, verifies⟩ := verified
      exact ⟨commitment, response, hasChallenge, verifies⟩
    next => cases verified
  next => cases verified

/-- A proof that a Pillar has the key of verifies for its own context. -/
theorem verifyPossession_prove (correct : env.scheme.Correct)
    {privateKey : List UInt8}
    (key : pillar.publicKey = toHex (env.scheme.publicKey privateKey))
    (nonce : List UInt8) (context : Text) :
    verifyPossession env pillar (prove env.scheme privateKey nonce context)
      context = true := by
  have isType : (prove env.scheme privateKey nonce context).get "type".toList =
      some (.str "schnorr-zkp-v1".toList) := rfl
  have isKey : (prove env.scheme privateKey nonce context).get
      "public_key".toList = some (.str pillar.publicKey) := key ▸ rfl
  have isContext : (prove env.scheme privateKey nonce context).get
      "context".toList = some (.str context) := rfl
  have isCommitment : (prove env.scheme privateKey nonce context).get
      "commitment".toList = some (.str (toHex (commitmentOf env.scheme
        (env.scheme.publicKey privateKey) nonce))) := rfl
  have isChallenge : (prove env.scheme privateKey nonce context).get
      "challenge".toList = some (.str (challengeOf env.scheme
        (env.scheme.publicKey privateKey) (commitmentOf env.scheme
          (env.scheme.publicKey privateKey) nonce) context)) := rfl
  have isResponse : (prove env.scheme privateKey nonce context).get
      "response".toList = some (.str (toHex (env.scheme.sign privateKey
        (responseData env.scheme (env.scheme.publicKey privateKey)
          (commitmentOf env.scheme (env.scheme.publicKey privateKey) nonce)
          context)))) := rfl
  have typed : IsText "schnorr-zkp-v1".toList
      (.str "schnorr-zkp-v1".toList) := rfl
  have keyed : IsText pillar.publicKey (.str pillar.publicKey) := rfl
  have named : IsText context (.str context) := rfl
  unfold verifyPossession
  rw [isType, isKey, isContext, Option.any_some, Option.any_some,
    Option.getD_some, decide_eq_true typed, decide_eq_true keyed,
    decide_eq_true named, key, fromHex_toHex]
  rw [isCommitment, isChallenge, isResponse]
  dsimp only
  rw [fromHex_toHex, fromHex_toHex]
  simp only [Bool.and_self, Bool.true_and, Bool.and_eq_true,
    decide_eq_true_eq]
  exact ⟨rfl, correct _ _⟩

end Verifying

section Grants

variable (env : Environment) (pillar : Pillar)

/-- The session that an event is granted, and its context. -/
def grantOf (event : Event) (state : State) : Option (Text × Session) :=
  match event with
  | .prove selector sessionId moment =>
      match (proveKey env pillar selector sessionId moment state).2 with
      | .granted session =>
          (contextOf env selector).map fun context => (context, session)
      | _ => none
  | .challenge _ _ | .receipt _ => none

/-- What has been granted in a run, newest first. -/
def grants (start : State) : List Event → List (Text × Session)
  | [] => []
  | event :: earlier =>
      (grantOf env pillar event (run env pillar start earlier)).toList ++
        grants start earlier

def issues : Event → Option Text
  | .challenge context _ => some context
  | .prove _ _ _ | .receipt _ => none

/-- The contexts that have been issued. -/
def issuedContexts (events : List Event) : List Text :=
  events.filterMap issues

/-- A proof that the holder of the key has made. -/
structure Made where
  nonce : List UInt8
  context : Text

def Made.commitment (made : Made) (scheme : Scheme) (publicKey : List UInt8) :
    List UInt8 :=
  commitmentOf scheme publicKey made.nonce

/-- The holder signs what looks like a response only to make a proof. -/
def OnlyProves (scheme : Scheme) (Signed : List UInt8 → List UInt8 → Prop)
    (publicKey : List UInt8) (proofs : List Made) : Prop :=
  ∀ commitment context,
    Signed publicKey (responseData scheme publicKey commitment context) →
      ∃ made ∈ proofs, responseData scheme publicKey commitment context =
        responseData scheme publicKey (made.commitment scheme publicKey)
          made.context

/-- No proof has the challenge of another context that is issued. -/
def Apart (scheme : Scheme) (publicKey : List UInt8) (proofs : List Made)
    (contexts : List Text) : Prop :=
  ∀ made ∈ proofs, ∀ context ∈ contexts,
    challengeOf scheme publicKey (made.commitment scheme publicKey)
        made.context =
      challengeOf scheme publicKey (made.commitment scheme publicKey)
        context →
    made.context = context

end Grants

section Sessions

variable {env : Environment} {pillar : Pillar} {start state : State}
  {event : Event} {events : List Event} {publicKey : List UInt8}
  {context : Text} {session : Session}

theorem exists_proof_of_granted {selector sessionId : Text} {moment : Moment}
    (named : contextOf env selector = some context)
    (granted : (proveKey env pillar selector sessionId moment state).2 =
      .granted session) :
    (∃ expiry, state.challenges.get? context = some expiry) ∧
      ∃ proof, verifyPossession env pillar proof context = true ∧
        session = establishSessionZkp env pillar sessionId moment.established
          proof ∧
        (proveKey env pillar selector sessionId moment state).1.sessions =
          state.sessions ++ [session] := by
  obtain ⟨proof, same⟩ := @proveKey_of_contextOf_some env pillar selector
    sessionId moment state context named
  rw [same] at granted ⊢
  unfold answerChallenge at granted ⊢
  cases found : state.challenges.get? context with
  | none =>
      rw [found] at granted
      cases granted
  | some expiry =>
      rw [found] at granted
      refine ⟨⟨expiry, rfl⟩, proof, ?_⟩
      dsimp only at granted ⊢
      split at granted
      · cases granted
      next fresh =>
        split at granted
        next verified =>
          cases granted
          rw [if_neg fresh, if_pos verified]
          exact ⟨verified, rfl, rfl⟩
        next => cases granted

theorem sessions_of_refused {selector sessionId : Text} {moment : Moment}
    (refused : ∀ session,
      (proveKey env pillar selector sessionId moment state).2 ≠
        .granted session) :
    (proveKey env pillar selector sessionId moment state).1.sessions =
      state.sessions := by
  cases named : contextOf env selector with
  | none =>
      obtain ⟨answer, same, -⟩ := @proveKey_of_contextOf_none env pillar selector
        sessionId moment state named
      rw [same]
  | some context =>
      obtain ⟨proof, same⟩ := @proveKey_of_contextOf_some env pillar selector
        sessionId moment state context named
      rw [same] at refused ⊢
      unfold answerChallenge at refused ⊢
      split
      · rfl
      next expiry found =>
        rw [found] at refused
        dsimp only at refused ⊢
        split
        · rfl
        next fresh =>
          rw [if_neg fresh] at refused
          split
          next verified =>
            rw [if_pos verified] at refused
            exact absurd rfl (refused _)
          next => rfl

theorem exists_of_grantOf
    (granted : grantOf env pillar event state = some (context, session)) :
    ∃ selector sessionId moment, event = .prove selector sessionId moment ∧
      contextOf env selector = some context ∧
      (proveKey env pillar selector sessionId moment state).2 =
        .granted session := by
  unfold grantOf at granted
  split at granted
  next selector sessionId moment =>
    split at granted
    next other isGranted =>
      obtain ⟨found, named, same⟩ := Option.map_eq_some_iff.mp granted
      obtain ⟨rfl, rfl⟩ := Prod.mk.inj same
      exact ⟨selector, sessionId, moment, rfl, named, isGranted⟩
    next => cases granted
  next => cases granted
  next => cases granted

theorem grantOf_of_granted {selector sessionId : Text} {moment : Moment}
    (granted : (proveKey env pillar selector sessionId moment state).2 =
      .granted session) :
    ∃ context, contextOf env selector = some context ∧
      grantOf env pillar (.prove selector sessionId moment) state =
        some (context, session) := by
  obtain ⟨context, -, named, -⟩ := exists_of_granted granted
  refine ⟨context, named, ?_⟩
  simp only [grantOf, granted, named, Option.map_some]

theorem spends_of_grantOf
    (granted : grantOf env pillar event state = some (context, session)) :
    Spends env pillar context event state := by
  obtain ⟨selector, sessionId, moment, rfl, named, isGranted⟩ :=
    exists_of_grantOf granted
  exact ⟨selector, sessionId, moment, session, rfl, named, isGranted⟩

/-- The sessions of a Pillar are those that it has granted. -/
theorem sessions_after (event : Event) (state : State) :
    (after env pillar event state).sessions = state.sessions ++
      (grantOf env pillar event state).toList.map Prod.snd := by
  cases event with
  | challenge context now => exact (List.append_nil _).symm
  | receipt submission =>
      refine Eq.trans ?_ (List.append_nil _).symm
      change (submitReceipt env pillar submission state).1.sessions = _
      unfold submitReceipt
      split
      · rfl
      · split <;> rfl
  | prove selector sessionId moment =>
      change (proveKey env pillar selector sessionId moment state).1.sessions = _
      cases answer : (proveKey env pillar selector sessionId moment state).2 with
      | granted session =>
          obtain ⟨context, named, isGrant⟩ := grantOf_of_granted answer
          obtain ⟨-, proof, -, -, kept⟩ := exists_proof_of_granted named answer
          rw [kept, isGrant]
          rfl
      | issued | error | receipt | raised =>
          have none : grantOf env pillar (.prove selector sessionId moment)
              state = none := by
            simp only [grantOf, answer]
          rw [none, sessions_of_refused fun session granted => by
            cases answer.symm.trans granted]
          exact (List.append_nil _).symm

theorem sessions_run (start : State) (events : List Event) :
    (run env pillar start events).sessions = start.sessions ++
      ((grants env pillar start events).map Prod.snd).reverse := by
  induction events with
  | nil => exact (List.append_nil _).symm
  | cons event earlier ih =>
      refine (sessions_after event (run env pillar start earlier)).trans ?_
      rw [ih, grants]
      cases grantOf env pillar event (run env pillar start earlier) with
      | none => simp
      | some grant => simp

/-- What is granted has been issued, once for each grant. -/
structure Accounted (env : Environment) (pillar : Pillar) (start : State)
    (events : List Event) : Prop where
  issued : ∀ grant ∈ grants env pillar start events,
    grant.1 ∈ issuedContexts events
  nodup : ((grants env pillar start events).map Prod.fst).Nodup
  outstanding : ∀ {context expiry},
    (run env pillar start events).challenges.get? context = some expiry →
      context ∈ issuedContexts events ∧
        context ∉ (grants env pillar start events).map Prod.fst

theorem accounted (initially : start.challenges = .empty)
    (distinct : (issuedContexts events).Nodup) :
    Accounted env pillar start events := by
  induction events with
  | nil =>
      refine ⟨by rintro _ ⟨⟩, List.nodup_nil, fun outstanding => ?_⟩
      change start.challenges.get? _ = _ at outstanding
      rw [initially] at outstanding
      cases outstanding
  | cons event earlier ih =>
      have whole : issuedContexts (event :: earlier) =
          (issues event).toList ++ issuedContexts earlier := by
        rw [issuedContexts, List.filterMap_cons]
        cases issues event <;> rfl
      have within : ∀ {context}, context ∈ issuedContexts earlier →
          context ∈ issuedContexts (event :: earlier) := by
        intro context member
        rw [whole]
        exact List.mem_append_right _ member
      obtain ⟨issued, nodup, outstanding⟩ :=
        ih (List.nodup_append.mp (whole ▸ distinct)).2.1
      cases isGrant : grantOf env pillar event (run env pillar start earlier) with
      | none =>
          have same : grants env pillar start (event :: earlier) =
              grants env pillar start earlier := by
            rw [grants, isGrant]
            rfl
          rw [← same] at issued nodup outstanding
          refine ⟨fun grant member => within (issued grant member), nodup, ?_⟩
          intro context expiry remains
          rcases outstanding_of_after remains with
            ⟨now, rfl, -⟩ | ⟨before, -⟩
          · refine ⟨List.mem_cons_self, fun granted => ?_⟩
            obtain ⟨grant, isOld, rfl⟩ := List.mem_map.mp granted
            exact (List.nodup_cons.mp distinct).1 (issued grant isOld)
          · exact ⟨within (outstanding before).1, (outstanding before).2⟩
      | some grant =>
          obtain ⟨context, session⟩ := grant
          obtain ⟨selector, sessionId, moment, rfl, named, isGranted⟩ :=
            exists_of_grantOf isGrant
          obtain ⟨⟨expiry, before⟩, -⟩ :=
            exists_proof_of_granted named isGranted
          obtain ⟨isIssued, isNew⟩ := outstanding before
          have grown : grants env pillar start
              (.prove selector sessionId moment :: earlier) =
                (context, session) :: grants env pillar start earlier := by
            rw [grants, isGrant]
            rfl
          constructor
          · rw [grown]
            exact List.forall_mem_cons.mpr ⟨isIssued, issued⟩
          · rw [grown, List.map_cons]
            exact List.nodup_cons.mpr ⟨isNew, nodup⟩
          · intro other expiry remains
            rcases outstanding_of_after remains with
              ⟨now, ⟨⟩, -⟩ | ⟨before, unspent⟩
            obtain ⟨isIssued, isNew⟩ := outstanding before
            refine ⟨isIssued, ?_⟩
            rw [grown, List.map_cons, List.mem_cons, not_or]
            refine ⟨?_, isNew⟩
            rintro rfl
            exact unspent (spends_of_grantOf isGrant)

/-- Hashes of one length separate a challenge from its commitment. -/
theorem commitment_of_responseData {scheme : Scheme} {first second : List UInt8}
    {context other : Text} {length : Nat}
    (sized : ∀ data, (scheme.sha256 data).length = length)
    (same : responseData scheme publicKey first context =
      responseData scheme publicKey second other) :
    first = second ∧ challengeOf scheme publicKey first context =
      challengeOf scheme publicKey second other := by
  have texts := encodeUtf8_injective same
  have lengths : (challengeOf scheme publicKey first context).length =
      (challengeOf scheme publicKey second other).length := by
    rw [challengeOf, challengeOf, StakingReader.length_toHex,
      StakingReader.length_toHex, sized, sized]
  obtain ⟨challenges, commitments⟩ := List.append_inj texts lengths
  exact ⟨toHex_injective commitments, challenges⟩

/-- A session of a run answers to a proof made for its context. -/
theorem made_of_granted {Signed : List UInt8 → List UInt8 → Prop}
    {proofs : List Made} {contexts : List Text} {length : Nat}
    (unforgeable : env.scheme.Unforgeable Signed)
    (key : fromHex pillar.publicKey = some publicKey)
    (sized : ∀ data, (env.scheme.sha256 data).length = length)
    (onlyProves : OnlyProves env.scheme Signed publicKey proofs)
    (apart : Apart env.scheme publicKey proofs contexts)
    (isIssued : context ∈ contexts)
    (granted : grantOf env pillar event state = some (context, session)) :
    ∃ made ∈ proofs, made.context = context ∧
      session.nonce = .str (challengeOf env.scheme publicKey
        (made.commitment env.scheme publicKey) context) := by
  obtain ⟨selector, sessionId, moment, rfl, named, isGranted⟩ :=
    exists_of_grantOf granted
  obtain ⟨-, proof, verified, rfl, -⟩ := exists_proof_of_granted named isGranted
  obtain ⟨commitment, response, hasChallenge, verifies⟩ :=
    exists_verified key verified
  obtain ⟨made, isMade, same⟩ := onlyProves commitment context
    (unforgeable _ _ _ verifies)
  obtain ⟨rfl, challenges⟩ := commitment_of_responseData sized same
  have own : made.context = context :=
    apart made isMade context isIssued challenges.symm
  refine ⟨made, isMade, own, ?_⟩
  rw [establishSessionZkp, hasChallenge]
  rfl

/-- What is promised about the sessions of a run. -/
structure Authentic (env : Environment) (pillar : Pillar)
    (publicKey : List UInt8) (proofs : List Made) (start : State)
    (events : List Event) : Prop where
  sessions : (run env pillar start events).sessions = start.sessions ++
    ((grants env pillar start events).map Prod.snd).reverse
  once : ((grants env pillar start events).map Prod.fst).Nodup
  proved : ∀ grant ∈ grants env pillar start events,
    grant.1 ∈ issuedContexts events ∧
      ∃ made ∈ proofs, made.context = grant.1 ∧
        grant.2.nonce = .str (challengeOf env.scheme publicKey
          (made.commitment env.scheme publicKey) grant.1)

theorem exists_earlier_of_mem_grants {grant : Text × Session}
    (member : grant ∈ grants env pillar start events) :
    ∃ event state, grantOf env pillar event state = some grant := by
  induction events with
  | nil => cases member
  | cons event earlier ih =>
      rcases List.mem_append.mp member with newest | older
      · exact ⟨event, _, Option.mem_toList.mp newest⟩
      · exact ih older

/-- Whatever is submitted, every new session answers to a challenge that the
Pillar has issued and to a proof that the holder of its key has made for this
challenge, and no two sessions answer to the same one. -/
theorem sessions_authentic {Signed : List UInt8 → List UInt8 → Prop}
    {proofs : List Made} {length : Nat}
    (unforgeable : env.scheme.Unforgeable Signed)
    (key : fromHex pillar.publicKey = some publicKey)
    (sized : ∀ data, (env.scheme.sha256 data).length = length)
    (onlyProves : OnlyProves env.scheme Signed publicKey proofs)
    (initially : start.challenges = .empty)
    (distinct : (issuedContexts events).Nodup)
    (apart : Apart env.scheme publicKey proofs (issuedContexts events)) :
    Authentic env pillar publicKey proofs start events := by
  have account : Accounted env pillar start events :=
    accounted initially distinct
  refine ⟨sessions_run start events, account.nodup, fun grant member => ?_⟩
  obtain ⟨event, state, granted⟩ := exists_earlier_of_mem_grants member
  exact ⟨account.issued grant member,
    made_of_granted unforgeable key sized onlyProves apart
      (account.issued grant member) granted⟩

end Sessions

section Answers

variable {env : Environment} {pillar : Pillar} {start : State}
  {context : Text} {privateKey nonce : List UInt8} {layout : Layout}

/-- The selector by which a proof is submitted. -/
def submissionOf (layout : Layout) (proof : Json) : Text :=
  "/auth/zkp-verify".toList ++ Char.ofNat 9 :: dumps layout 0 proof

theorem queryOf_submissionOf (layout : Layout) (proof : Json) :
    queryOf (submissionOf layout proof) = dumps layout 0 proof := by
  rfl

theorem printable_prove (floatRepr : Text → Text) (scheme : Scheme)
    (privateKey nonce : List UInt8) (context : Text) :
    Printable floatRepr (prove scheme privateKey nonce context) := by
  have keys : ["type".toList, "commitment".toList, "challenge".toList,
      "response".toList, "public_key".toList, "context".toList].Nodup := by
    decide
  refine .obj keys ?_
  simp only [List.forall_mem_cons, List.not_mem_nil, false_implies,
    implies_true, and_true]
  exact ⟨.str _, .str _, .str _, .str _, .str _, .str _⟩

/-- An event lets an outstanding challenge stand. -/
def Spares (env : Environment) (context : Text) (expiry : ℚ) : Event → Prop
  | .challenge other now => other ≠ context ∧ now < expiry
  | .prove selector _ _ => contextOf env selector ≠ some context
  | .receipt _ => True

theorem outstanding_after {event : Event} {state : State} {expiry : ℚ}
    (outstanding : state.challenges.get? context = some expiry)
    (spares : Spares env context expiry event) :
    (after env pillar event state).challenges.get? context =
      some expiry := by
  cases event with
  | challenge other now =>
      change ((state.challenges.filter _).set other _).get? context = _
      rw [Dict.get?_set, if_neg spares.1.symm, Dict.get?_filter, outstanding]
      exact Option.filter_some_pos (decide_eq_true spares.2)
  | prove selector sessionId moment =>
      change (proveKey _ _ _ _ _ _).1.challenges.get? context = _
      rw [get?_proveKey, if_neg spares, outstanding]
  | receipt submission =>
      change (submitReceipt _ _ _ _).1.challenges.get? context = _
      rw [challenges_submitReceipt, outstanding]

end Answers

section Examples

def heldKey : List UInt8 := [1]

def heldPillar : Pillar := ⟨"00".toList, toHex heldKey⟩

/-- Every signature is what it signs. -/
def plainScheme : Scheme where
  sha256 := Sha256.sha256
  publicKey _ := heldKey
  sign _ data := data
  verify _ signature data := decide (signature = data)

def madeProof : Made := ⟨[7], "0a".toList⟩

def provedData : List UInt8 :=
  responseData plainScheme heldKey (madeProof.commitment plainScheme heldKey)
    madeProof.context

/-- Nothing but one proof has been signed. -/
def provedScheme : Scheme :=
  { plainScheme with
    verify := fun _ signature data =>
      decide (signature = data ∧ data = provedData) }

theorem responseData_proved (publicKey commitment : List UInt8) (context : Text) :
    responseData plainScheme publicKey commitment context =
      responseData provedScheme publicKey commitment context := rfl

theorem provedData_eq : provedData = responseData provedScheme heldKey
    (madeProof.commitment provedScheme heldKey) madeProof.context :=
  responseData_proved _ _ _

def heldEnvironment (scheme : Scheme) : Environment :=
  { servingEnvironment with scheme := scheme }

def provedSubmission : Text :=
  submissionOf {} (prove plainScheme [] madeProof.nonce madeProof.context)

theorem sessions_authentic_proved :
    Authentic (heldEnvironment provedScheme) heldPillar heldKey [madeProof]
      freshState
      [.prove provedSubmission "00".toList ⟨3, 3⟩,
        .prove provedSubmission "01".toList ⟨2, 2⟩,
        .challenge madeProof.context 1] := by
  have unforgeable : provedScheme.Unforgeable fun _ data =>
      data = provedData := fun _ _ _ verified =>
    (of_decide_eq_true verified).2
  have onlyProves : OnlyProves provedScheme (fun _ data => data = provedData)
      heldKey [madeProof] := fun _ _ isProof =>
    ⟨madeProof, List.mem_singleton_self _, isProof.trans provedData_eq⟩
  have sized : ∀ data, (provedScheme.sha256 data).length = 32 :=
    Sha256.length_sha256
  have key : fromHex heldPillar.publicKey = some heldKey := fromHex_toHex _
  refine @sessions_authentic (heldEnvironment provedScheme) heldPillar freshState
    _ heldKey _ _ _ unforgeable key sized onlyProves rfl
    (List.nodup_singleton _) ?_
  intro made isMade context isIssued _
  rw [List.mem_singleton.mp isMade]
  exact (List.mem_singleton.mp isIssued).symm

end Examples

end KeyPossession

end RefinetPillars
