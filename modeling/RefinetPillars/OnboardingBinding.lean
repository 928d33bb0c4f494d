import RefinetPillars.OnboardingRequests
import RefinetPillars.PidFileCrashes

/-!
# Bound identities and the onboarding wizard

An identity that is bound to a wallet stays in its file, and a finished wizard
has a bound identity, as long as nobody starts over when there is a binding or
asks for the last page when there is none.
-/

namespace RefinetPillars

namespace OnboardingWizard

open HexText JsonText BindingCreation
open PidFile (Seed)
open CrashableActions CrashableActions.Action

section Statement

variable (env : Environment)

inductive Request where
  | gopher (selector query : Text)
  | onboardingConnect (request : Json)
  | onboardingSignature (request : Json)
  | rebind (served : Option Identity) (request : Json)

/-- What handles a request. -/
def Request.action (circumstances : Circumstances) : Request → Wizard Unit
  | .gopher selector query => do
      let _ ← handleWizardStep env circumstances selector query
      return ()
  | .onboardingConnect request => do
      let _ ← handleOnboardingConnect env circumstances request
      return ()
  | .onboardingSignature request => do
      let _ ← handleOnboardingSignature env circumstances request
      return ()
  | .rebind served request => do
      let _ ← handleRebind env circumstances served request
      return ()

/-- A request, and after how many changes the process crashes, if it does. -/
structure Event where
  request : Request
  circumstances : Circumstances
  crash : Option Nat

def Event.after (event : Event) (world : World) : World :=
  match event.crash with
  | none => final (event.request.action env event.circumstances) world
  | some count =>
      (stopped count (event.request.action env event.circumstances)
        world).restarted

/-- The worlds between the events, with the first one. -/
def worlds : World → List Event → List World
  | world, [] => [world]
  | world, event :: events => world :: worlds (event.after env world) events

/-- There is a binding for the identity of the file. -/
def Bound (world : World) : Prop :=
  ∃ identity, world.pidJson = .holds identity ∧
    bindingExists (identity.pid env) world.bindings = true

def persistedStep (world : World) : WizardStep :=
  (world.stateJson.loaded.getD {}).step

def CompleteIsBound (world : World) : Prop :=
  persistedStep world = .complete → Bound env world

/-- The file of a bound identity stays as it is, and a finished wizard has a
bound identity. -/
structure IdentitySurvives (world : World) (events : List Event) : Prop where
  survives : (worlds env world events).Pairwise fun earlier later =>
    Bound env earlier → later.pidJson = earlier.pidJson
  complete : ∀ later ∈ worlds env world events, CompleteIsBound env later

/-- The routes that come before those that depend on the step. -/
def explicitRoutes : List Text :=
  ["/onboarding/reset".toList, "/onboarding/about".toList,
    "/onboarding/complete".toList, "/onboarding/unlock".toList]

/-- The wizard is reset, or an identity is generated. -/
def StartsOver (step : WizardStep) (selector query : Text) : Prop :=
  (normalized selector = "/onboarding/reset".toList ∧
      step ≠ .confirm ∧ step ≠ .complete) ∨
    query ≠ [] ∧
      (step = .welcome ∧
          normalized selector = "/onboarding/generate-pid".toList ∨
        step = .generatePid ∧ normalized selector ∉ explicitRoutes ∧
          normalized selector ≠ "/onboarding".toList)

/-- Nobody starts over with a bound identity, or asks for the last page without
one. -/
def Careful (world : World) : Request → Prop
  | .gopher selector query =>
      (StartsOver (persistedStep world) selector query → ¬ Bound env world) ∧
        (normalized selector = "/onboarding/complete".toList →
          Bound env world)
  | .onboardingConnect _ | .onboardingSignature _ | .rebind _ _ => True

def CarefulThroughout : World → List Event → Prop
  | _, [] => True
  | world, event :: events =>
      Careful env world event.request ∧
        CarefulThroughout (event.after env world) events

end Statement

section Agreement

variable (env : Environment)

/-- The bytes of `pid.json`; a file that has been truncated is empty. -/
def Stored.file : Stored Identity → PidFile.File
  | .missing => none
  | .unreadable => some []
  | .holds identity => some (PidFile.contents (identity.pidData env))

/-- `load_pid` reads from the bytes what the wizard takes the file to hold. -/
theorem loadPid_file (stored : Stored Identity) :
    PidFile.loadPid env.toEnvironment true (stored.file env) =
      .ok (stored.loaded.map (Identity.pidData env)) := by
  cases stored with
  | missing => rfl
  | unreadable => rfl
  | holds identity =>
      exact PidFile.loadPid_contents (PidFile.printable_generatePid _ _ _)

/-- Change by change, a binding is created as `create_binding` does it. -/
theorem createBinding_agrees (identity : Identity) (creation : Creation)
    (world : World) :
    let created := BindingCreation.createBinding env.setting
      (identity.pillar env) creation ⟨world.nonces, world.bindings⟩
    (createBinding env identity creation world).1 = .ok created.1 ∧
      final (createBinding env identity creation) world =
        { world with
          nonces := created.2.nonces
          bindings := created.2.bindings } := by
  dsimp only
  rw [BindingCreation.createBinding, final, createBinding, read_bind_apply,
    Identity.pid]
  cases statementProblem (identity.pillar env).pid creation with
  | some problem => exact ⟨rfl, rfl⟩
  | none =>
      dsimp only
      rw [perform_bind_apply]
      split
      · exact ⟨rfl, rfl⟩
      · cases persist env.setting (identity.pillar env) creation
          world.bindings with
        | error refusal => exact ⟨rfl, rfl⟩
        | ok made => exact ⟨rfl, rfl⟩

end Agreement

section Changes

/-- What every change of a careful request keeps. -/
structure Kept (env : Environment) (world later : World) : Prop where
  survives : Bound env world → later.pidJson = world.pidJson ∧ Bound env later
  complete : CompleteIsBound env world → CompleteIsBound env later

variable {env : Environment} {world later last : World}

instance refl_kept : Std.Refl (Kept env) :=
  ⟨fun _ => ⟨fun bound => ⟨rfl, bound⟩, id⟩⟩

instance trans_kept : IsTrans World (Kept env) := by
  refine ⟨fun first second third one two => ⟨fun bound => ?_, ?_⟩⟩
  · obtain ⟨same, stays⟩ := one.survives bound
    obtain ⟨again, remains⟩ := two.survives stays
    exact ⟨again.trans same, remains⟩
  · exact two.complete ∘ one.complete

/-- The files and the bindings are those of another world. -/
structure SameFiles (world later : World) : Prop where
  pidJson : later.pidJson = world.pidJson
  step : persistedStep later = persistedStep world
  bindings : later.bindings = world.bindings

theorem SameFiles.refl : SameFiles world world := ⟨rfl, rfl, rfl⟩

theorem SameFiles.trans (first : SameFiles world later)
    (second : SameFiles later last) : SameFiles world last :=
  ⟨second.pidJson.trans first.pidJson, second.step.trans first.step,
    second.bindings.trans first.bindings⟩

theorem bound_congr (samePid : later.pidJson = world.pidJson)
    (sameBindings : later.bindings = world.bindings) :
    Bound env later ↔ Bound env world := by
  rw [Bound, Bound, samePid, sameBindings]

theorem SameFiles.bound_iff (same : SameFiles world later) :
    Bound env later ↔ Bound env world :=
  bound_congr same.pidJson same.bindings

/-- A change that leaves the identity alone, and finishes the wizard only when
it is bound. -/
theorem kept_of_stays (samePid : later.pidJson = world.pidJson)
    (grows : ∀ pid, bindingExists pid world.bindings = true →
      bindingExists pid later.bindings = true)
    (finishes : persistedStep later = .complete →
      persistedStep world = .complete ∨ Bound env later) :
    Kept env world later := by
  have bound : Bound env world → Bound env later := by
    rintro ⟨identity, holds, isBound⟩
    exact ⟨identity, samePid.trans holds, grows _ isBound⟩
  refine ⟨fun isBound => ⟨samePid, bound isBound⟩, fun complete done => ?_⟩
  rcases finishes done with already | isBound
  · exact bound (complete already)
  · exact isBound

theorem SameFiles.kept (same : SameFiles world later) : Kept env world later :=
  kept_of_stays same.pidJson (fun _ isBound => by rwa [same.bindings])
    fun done => .inl (same.step ▸ done)

/-- As long as nothing is bound the identity may change. -/
theorem kept_of_not_bound (notBound : ¬ Bound env world)
    (finishes : persistedStep later = .complete →
      persistedStep world = .complete) : Kept env world later := by
  refine ⟨fun bound => absurd bound notBound, fun complete done => ?_⟩
  exact absurd (complete (finishes done)) notBound

end Changes

section Parts

variable {env : Environment} {world : World} {circumstances : Circumstances}

theorem keeps_unlock (identity : Identity) (password : Json) :
    Keeps (Kept env) (unlock env identity password)
      (fun _ later => SameFiles world later) world := by
  refine keeps_bind (keeps_lift fun _ _ => ?_)
  exact keeps_perform (SameFiles.kept ⟨rfl, rfl, rfl⟩) ⟨rfl, rfl, rfl⟩

theorem keeps_unlockOrRefuse (identity : Identity) (password : Json) :
    Keeps (Kept env) (unlockOrRefuse env identity password)
      (fun _ later => SameFiles world later) world := by
  unfold unlockOrRefuse
  split
  · exact keeps_pure .refl
  · refine keeps_bind ((keeps_unlock identity password).mono ?_)
    exact fun _ _ same => keeps_pure same

theorem keeps_keyOrRefuse (identity : Identity) (password : Json) :
    Keeps (Kept env) (keyOrRefuse env identity password)
      (fun _ later => SameFiles world later) world := by
  refine keeps_bind (keeps_read ?_)
  split
  · exact keeps_pure .refl
  · exact keeps_unlockOrRefuse identity password

theorem keeps_unlockWithLegacyPassword (password : Entry) :
    Keeps (Kept env) (unlockWithLegacyPassword env password)
      (fun _ later => SameFiles world later) world := by
  refine keeps_bind (keeps_read ?_)
  split
  · split
    · exact keeps_pure .refl
    · refine keeps_bind ((keeps_unlockOrRefuse _ _).mono ?_)
      exact fun _ _ same => keeps_pure same
  · exact keeps_pure .refl

/-- A state is saved that finishes the wizard only for a bound identity. -/
theorem keeps_saveOnboardingState {state : WizardState}
    (finishes : state.step = .complete → Bound env world) :
    Keeps (Kept env) (saveOnboardingState state)
      (fun _ later => later.pidJson = world.pidJson ∧
        later.bindings = world.bindings ∧ persistedStep later = state.step)
      world := by
  have cleared : Kept env world { world with stateJson := .unreadable } :=
    kept_of_stays rfl (fun _ => id) (fun done => by cases done)
  refine keeps_bind (keeps_perform cleared (keeps_perform ?_ ⟨rfl, rfl, rfl⟩))
  exact kept_of_stays rfl (fun _ => id)
    fun done => .inr ((bound_congr rfl rfl).mpr (finishes done))

theorem keeps_getOnboardingState (complete : CompleteIsBound env world) :
    Keeps (Kept env) (getOnboardingState env)
      (fun state later => SameFiles world later ∧
        state.step = persistedStep world) world := by
  refine keeps_bind (keeps_read ?_)
  cases loaded : world.stateJson.loaded with
  | none =>
      have first : persistedStep world = .welcome := by
        rw [persistedStep, loaded]
        rfl
      exact keeps_pure ⟨.refl, first.symm⟩
  | some state =>
      have step : persistedStep world = state.step := by
        rw [persistedStep, loaded]
        rfl
      dsimp only
      split
      · exact keeps_pure ⟨.refl, step.symm⟩
      · refine keeps_bind ((keeps_unlockWithLegacyPassword _).mono ?_)
        intro _ middle same
        have finishes : state.step = .complete → Bound env middle :=
          fun done => same.bound_iff.mpr (complete (step.trans done))
        refine keeps_bind ((keeps_saveOnboardingState finishes).mono ?_)
        rintro _ later ⟨samePid, sameBindings, saved⟩
        refine keeps_pure ⟨same.trans ⟨samePid, ?_, sameBindings⟩, step.symm⟩
        exact saved.trans (step.symm.trans same.step.symm)

/-- An identity is saved when none is bound. -/
theorem keeps_savePid (identity : Identity) (notBound : ¬ Bound env world) :
    Keeps (Kept env) (savePid identity)
      (fun _ later => persistedStep later = persistedStep world ∧
        later.bindings = world.bindings ∧ later.pidJson = .holds identity)
      world := by
  refine keeps_bind (keeps_perform (kept_of_not_bound notBound id) ?_)
  refine keeps_perform (kept_of_not_bound ?_ id) ⟨rfl, rfl, rfl⟩
  rintro ⟨other, ⟨⟩, -⟩

theorem not_bound_of_loaded (absent : world.pidJson.loaded = none) :
    ¬ Bound env world := by
  rintro ⟨identity, holds, -⟩
  rw [holds] at absent
  cases absent

theorem keeps_getOrCreatePid (seed : Seed) :
    Keeps (Kept env) (getOrCreatePid seed) (fun _ _ => True) world := by
  refine keeps_bind (keeps_read ?_)
  cases loaded : world.pidJson.loaded with
  | some identity => exact keeps_pure trivial
  | none =>
      have notBound : ¬ Bound env world := not_bound_of_loaded loaded
      refine keeps_bind ((keeps_savePid _ notBound).mono ?_)
      exact fun _ _ _ => keeps_pure trivial

theorem keeps_createChallenge (address : Option Text) (chainId : Int)
    (bindingType companyUrl : Text) :
    Keeps (Kept env)
      (createChallenge env circumstances address chainId bindingType companyUrl)
      (fun _ _ => True) world := by
  refine keeps_bind ((keeps_getOrCreatePid _).mono fun identity middle _ => ?_)
  dsimp only
  split
  · exact keeps_pure trivial
  · refine keeps_bind (keeps_perform ?_ (keeps_pure trivial))
    exact SameFiles.kept ⟨rfl, rfl, rfl⟩

/-- A binding that has been made is one of the identity. -/
theorem keeps_createBinding (identity : Identity) (creation : Creation) :
    Keeps (Kept env) (createBinding env identity creation)
      (fun result later => later.pidJson = world.pidJson ∧
        persistedStep later = persistedStep world ∧
        ∀ row, result = .ok row →
          bindingExists (identity.pid env) later.bindings = true) world := by
  refine keeps_bind (keeps_read ?_)
  split
  · exact keeps_pure ⟨rfl, rfl, nofun⟩
  · refine keeps_bind (keeps_perform (SameFiles.kept ⟨rfl, rfl, rfl⟩) ?_)
    split
    · exact keeps_pure ⟨rfl, rfl, nofun⟩
    · split
      · exact keeps_pure ⟨rfl, rfl, nofun⟩
      next row larger persisted =>
        obtain ⟨isRow, -, rows⟩ := persist_eq_ok persisted
        have grows : ∀ pid, bindingExists pid world.bindings = true →
            bindingExists pid larger = true := by
          intro pid isBound
          rw [bindingExists, rows, List.any_append]
          exact Bool.or_eq_true_iff.mpr (.inl isBound)
        have stored : bindingExists (identity.pid env) larger = true := by
          rw [bindingExists, rows, List.any_append, isRow]
          simp [rowOf, Identity.pid]
        refine keeps_bind (keeps_perform ?_ (keeps_pure ⟨rfl, rfl, ?_⟩))
        · exact kept_of_stays rfl grows .inl
        · exact fun _ _ => stored

end Parts

section Pages

variable {env : Environment} {world : World} {circumstances : Circumstances}
  {query : Text} {state : WizardState}

/-- A state that is saved later, too, finishes the wizard only for a bound
identity. -/
theorem Kept.finishes {later : World} (kept : Kept env world later)
    (finishes : state.step = .complete → Bound env world) :
    state.step = .complete → Bound env later :=
  fun done => (kept.survives (finishes done)).2

theorem keeps_save_return {Answer : Type} (answer : Answer)
    (finishes : state.step = .complete → Bound env world) :
    Keeps (Kept env) (do
      saveOnboardingState state
      return answer) (fun _ _ => True) world := by
  refine keeps_bind ((keeps_saveOnboardingState finishes).mono ?_)
  exact fun _ _ _ => keeps_pure trivial

theorem keeps_stepGeneratePidExecute (notBound : ¬ Bound env world) :
    Keeps (Kept env) (stepGeneratePidExecute env circumstances query state)
      (fun _ _ => True) world := by
  refine keeps_bind ((keeps_savePid _ notBound).mono fun _ middle _ => ?_)
  by_cases blank : LineText.strip query = []
  · rw [if_pos blank, if_neg nofun]
    exact keeps_save_return _ nofun
  · rw [if_neg blank, Option.isSome_some, if_pos rfl]
    refine keeps_bind ((keeps_unlock _ _).mono fun _ later _ => ?_)
    exact keeps_save_return _ nofun

theorem keeps_stepSiweChallenge
    (finishes : state.step = .complete → Bound env world) :
    Keeps (Kept env) (stepSiweChallenge env circumstances state)
      (fun _ _ => True) world := by
  refine keeps_bind (keeps_lift fun address _ => ?_)
  refine keeps_bind ((keeps_createChallenge _ _ _ _).and_kept.mono ?_)
  rintro result later ⟨-, kept⟩
  split
  · exact keeps_lift nofun
  · have still : state.step = .complete → Bound env later :=
      kept.finishes finishes
    exact keeps_save_return _ still

theorem keeps_stepConnectWalletExecute :
    Keeps (Kept env) (stepConnectWalletExecute env circumstances query state)
      (fun _ _ => True) world := by
  unfold stepConnectWalletExecute
  split
  · refine keeps_bind ((keeps_saveOnboardingState ?_).mono ?_)
    · exact nofun
    · exact fun _ _ _ => keeps_stepSiweChallenge nofun
  · exact keeps_pure trivial

theorem keeps_stepConfirm (binding : Option BindingRow)
    (complete : CompleteIsBound env world) :
    Keeps (Kept env) (stepConfirm env binding) (fun _ _ => True) world := by
  cases binding with
  | some row => exact keeps_pure trivial
  | none =>
      refine keeps_bind ((keeps_getOnboardingState complete).mono ?_)
      intro state later _
      refine keeps_bind (keeps_read ?_)
      split <;> exact keeps_pure trivial

theorem keeps_stepSiweVerify
    (finishes : state.step = .complete → Bound env world) :
    Keeps (Kept env) (stepSiweVerify env circumstances query state)
      (fun _ _ => True) world := by
  refine keeps_bind (keeps_read ?_)
  split
  · exact keeps_pure trivial
  · split
    · refine keeps_bind ((keeps_createBinding _ _).mono fun result later _ => ?_)
      split
      · exact keeps_pure trivial
      · refine keeps_bind ((keeps_saveOnboardingState ?_).mono ?_)
        · exact nofun
        · exact fun _ _ _ => keeps_pure trivial
    · exact keeps_save_return _ finishes

theorem keeps_stepComplete (bound : Bound env world) :
    Keeps (Kept env) stepComplete (fun _ _ => True) world := by
  refine keeps_bind ((keeps_saveOnboardingState fun _ => bound).mono ?_)
  exact fun _ _ _ => keeps_pure trivial

theorem keeps_stepReset (complete : CompleteIsBound env world)
    (notBound : persistedStep world ≠ .confirm →
      persistedStep world ≠ .complete → ¬ Bound env world) :
    Keeps (Kept env) (stepReset env) (fun _ _ => True) world := by
  refine keeps_bind ((keeps_getOnboardingState complete).mono ?_)
  rintro state later ⟨same, step⟩
  split
  · exact keeps_pure trivial
  next resets =>
    rw [step, not_or] at resets
    have free : ¬ Bound env later :=
      fun bound => notBound resets.1 resets.2 (same.bound_iff.mp bound)
    have cleared : Kept env later { later with stateJson := .missing } :=
      kept_of_not_bound free (fun done => by cases done)
    refine keeps_bind (keeps_bind (keeps_perform cleared
      (keeps_perform ?_ (keeps_pure trivial))))
    exact kept_of_not_bound (fun bound => free ((bound_congr rfl rfl).mp bound))
      id

theorem keeps_stepUnlockExecute
    (finishes : state.step = .complete → Bound env world) :
    Keeps (Kept env) (stepUnlockExecute env circumstances query state)
      (fun _ _ => True) world := by
  refine keeps_bind (keeps_read ?_)
  split
  · exact keeps_pure trivial
  · refine keeps_bind ((keeps_unlockOrRefuse _ _).and_kept.mono ?_)
    rintro result middle ⟨-, kept⟩
    split
    · exact keeps_pure trivial
    · exact keeps_lift nofun
    · have still : state.step = .complete → Bound env middle :=
        kept.finishes finishes
      refine keeps_bind ((keeps_saveOnboardingState ?_).and_kept.mono ?_)
      · exact still
      rintro _ later ⟨-, keptLater⟩
      have ever : state.step = .complete → Bound env later :=
        keptLater.finishes still
      split
      · exact keeps_stepSiweVerify ever
      · exact keeps_stepSiweChallenge ever
      · exact keeps_stepSiweChallenge ever

theorem keeps_routeStep {selector : Text}
    (finishes : state.step = .complete → Bound env world)
    (complete : CompleteIsBound env world)
    (notBound : query ≠ [] →
      (state.step = .welcome ∧ selector = "/onboarding/generate-pid".toList ∨
        state.step = .generatePid ∧ selector ≠ "/onboarding".toList) →
      ¬ Bound env world) :
    Keeps (Kept env) (routeStep env circumstances selector query state)
      (fun _ _ => True) world := by
  unfold routeStep
  split
  next starts =>
    split
    next generates =>
      split
      next asked =>
        refine keeps_stepGeneratePidExecute (notBound asked (.inl ⟨?_, generates⟩))
        rcases starts with first | root
        · exact first
        · rw [generates] at root
          exact absurd root (by decide +kernel)
      next => exact keeps_pure trivial
    next => exact keeps_pure trivial
  next later =>
    split
    next generates =>
      split
      next asked =>
        exact keeps_stepGeneratePidExecute (notBound asked
          (.inr ⟨generates, fun root => later (.inr root)⟩))
      next => exact keeps_pure trivial
    · split
      · exact keeps_stepConnectWalletExecute
      · exact keeps_pure trivial
    · split
      · exact keeps_stepSiweVerify finishes
      · exact keeps_stepSiweChallenge finishes
    · split
      · exact keeps_stepSiweVerify finishes
      · exact keeps_stepSiweChallenge finishes
    · exact keeps_stepConfirm none complete
    next done => exact keeps_stepComplete (finishes done)
    · exact keeps_pure trivial
    · exact keeps_pure trivial

theorem keeps_handleWizardStep {selector : Text}
    (complete : CompleteIsBound env world)
    (careful : Careful env world (.gopher selector query)) :
    Keeps (Kept env) (handleWizardStep env circumstances selector query)
      (fun _ _ => True) world := by
  obtain ⟨notBound, bound⟩ := careful
  refine keeps_bind ((keeps_getOnboardingState complete).and_kept.mono ?_)
  rintro state later ⟨⟨same, step⟩, kept⟩
  have completeLater : CompleteIsBound env later := kept.complete complete
  have finishes : state.step = .complete → Bound env later :=
    fun done => completeLater (same.step.trans (step.symm.trans done))
  split
  next resets =>
    refine keeps_stepReset completeLater fun unconfirmed incomplete => ?_
    rw [same.step] at unconfirmed incomplete
    rw [same.bound_iff]
    exact notBound (.inl ⟨resets, unconfirmed, incomplete⟩)
  next notReset =>
    split
    · exact keeps_pure trivial
    next notAbout =>
      split
      next asked => exact keeps_stepComplete (same.bound_iff.mpr (bound asked))
      next notComplete =>
        split
        · split
          · exact keeps_stepUnlockExecute finishes
          · exact keeps_pure trivial
        next notUnlock =>
          refine keeps_routeStep finishes completeLater fun asked generates => ?_
          rw [same.bound_iff]
          rw [step] at generates
          refine notBound (.inr ⟨asked, generates.imp id ?_⟩)
          rintro ⟨generating, notRoot⟩
          refine ⟨generating, ?_, notRoot⟩
          simp only [explicitRoutes, List.mem_cons, List.not_mem_nil, or_false,
            not_or]
          exact ⟨notReset, notAbout, notComplete, notUnlock⟩

end Pages

section Messages

variable {env : Environment} {world : World} {circumstances : Circumstances}
  {request : Json}

theorem keeps_ensurePid (password : Json) :
    Keeps (Kept env) (ensurePid circumstances password) (fun _ _ => True)
      world := by
  refine keeps_bind (keeps_read ?_)
  cases loaded : world.pidJson.loaded with
  | some identity => exact keeps_pure trivial
  | none =>
      have notBound : ¬ Bound env world := not_bound_of_loaded loaded
      refine keeps_bind (keeps_lift fun _ _ => ?_)
      refine keeps_bind ((keeps_savePid _ notBound).mono ?_)
      exact fun _ _ _ => keeps_pure trivial

theorem keeps_advanceState {address : Text} {identity : Identity}
    (complete : CompleteIsBound env world) :
    Keeps (Kept env) (advanceState env circumstances address identity request)
      (fun _ _ => True) world := by
  refine keeps_bind ((keeps_getOnboardingState complete).mono ?_)
  intro state later _
  split
  · exact keeps_pure trivial
  · refine keeps_bind ((keeps_createChallenge _ _ _ _).mono fun _ last _ => ?_)
    split
    · exact keeps_pure trivial
    · exact keeps_save_return _ nofun

theorem keeps_handleOnboardingConnect (complete : CompleteIsBound env world) :
    Keeps (Kept env) (handleOnboardingConnect env circumstances request)
      (fun _ _ => True) world := by
  refine keeps_bind (keeps_lift fun address _ => ?_)
  split
  · exact keeps_pure trivial
  · refine keeps_bind ((keeps_ensurePid _).and_kept.mono ?_)
    rintro identity middle ⟨-, kept⟩
    have completeMiddle : CompleteIsBound env middle := kept.complete complete
    split
    · exact keeps_advanceState completeMiddle
    · refine keeps_bind ((keeps_unlockOrRefuse _ _).and_kept.mono ?_)
      rintro refused later ⟨-, keptLater⟩
      split
      · exact keeps_pure trivial
      · exact keeps_advanceState (keptLater.complete completeMiddle)

theorem keeps_handleOnboardingSignature
    (complete : CompleteIsBound env world) :
    Keeps (Kept env) (handleOnboardingSignature env circumstances request)
      (fun _ _ => True) world := by
  refine keeps_bind (keeps_lift fun signature _ => ?_)
  refine keeps_bind (keeps_read ?_)
  split
  · exact keeps_pure trivial
  · cases loaded : world.pidJson.loaded with
    | none => exact keeps_pure trivial
    | some identity =>
        have holds : world.pidJson = .holds identity := by
          cases stored : world.pidJson with
          | holds other =>
              rw [stored] at loaded
              rw [Option.some.inj loaded]
          | missing => rw [stored] at loaded; cases loaded
          | unreadable => rw [stored] at loaded; cases loaded
        refine keeps_bind ((keeps_getOnboardingState complete).mono ?_)
        rintro state middle ⟨same, -⟩
        split
        · exact keeps_pure trivial
        · refine keeps_bind ((keeps_keyOrRefuse _ _).mono ?_)
          intro refused later unlocked
          split
          · exact keeps_pure trivial
          · refine keeps_bind ((keeps_createBinding _ _).mono ?_)
            rintro result last ⟨samePid, -, stored⟩
            split
            · exact keeps_pure trivial
            next row =>
              have bound : Bound env last :=
                ⟨identity, samePid.trans (unlocked.pidJson.trans
                  (same.pidJson.trans holds)), stored row rfl⟩
              exact keeps_save_return _ fun _ => bound

theorem keeps_writeBinding {identity : Identity}
    {address bindingType signature : Text} :
    Keeps (Kept env)
      (writeBinding env circumstances identity address bindingType signature
        request) (fun _ _ => True) world := by
  unfold writeBinding
  split
  · exact keeps_pure trivial
  · refine keeps_bind ((keeps_keyOrRefuse _ _).mono fun _ middle _ => ?_)
    split
    · exact keeps_pure trivial
    · split
      · refine keeps_bind ((keeps_createBinding _ _).mono fun _ later _ => ?_)
        split <;> exact keeps_pure trivial
      · exact keeps_pure trivial

theorem keeps_handleRebind (served : Option Identity) :
    Keeps (Kept env) (handleRebind env circumstances served request)
      (fun _ _ => True) world := by
  refine keeps_bind (keeps_lift fun address _ => ?_)
  refine keeps_bind (keeps_read ?_)
  split
  · exact keeps_pure trivial
  · split
    · exact keeps_pure trivial
    · exact keeps_pure trivial
    · refine keeps_bind (keeps_lift fun signature _ => ?_)
      split
      · split
        · exact keeps_pure trivial
        · refine keeps_bind ((keeps_createChallenge _ _ _ _).mono ?_)
          intro _ later _
          split <;> exact keeps_pure trivial
      · exact keeps_writeBinding

end Messages

section Runs

variable {env : Environment} {world : World}

/-- A careful request keeps a bound identity, wherever it stops. -/
theorem keeps_action {request : Request} {circumstances : Circumstances}
    (complete : CompleteIsBound env world)
    (careful : Careful env world request) :
    Keeps (Kept env) (request.action env circumstances) (fun _ _ => True)
      world := by
  have answered : ∀ {Answer : Type} {action : Wizard Answer},
      Keeps (Kept env) action (fun _ _ => True) world →
      Keeps (Kept env) (do
        let _ ← action
        return ()) (fun _ _ => True) world :=
    fun keeps => keeps_bind (keeps.mono fun _ _ _ => keeps_pure trivial)
  cases request with
  | gopher selector query =>
      exact answered (keeps_handleWizardStep complete careful)
  | onboardingConnect request =>
      exact answered (keeps_handleOnboardingConnect complete)
  | onboardingSignature request =>
      exact answered (keeps_handleOnboardingSignature complete)
  | rebind served request => exact answered (keeps_handleRebind served)

theorem kept_after {event : Event} (complete : CompleteIsBound env world)
    (careful : Careful env world event.request) :
    Kept env world (event.after env world) := by
  have keeps := @keeps_action env world _ event.circumstances complete careful
  unfold Event.after
  split
  · exact keeps.kept_final
  next count _ =>
    refine IsTrans.trans _ _ _ (keeps.kept_stopped count) ?_
    exact SameFiles.kept ⟨rfl, rfl, rfl⟩

theorem kept_worlds {events : List Event}
    (complete : CompleteIsBound env world)
    (careful : CarefulThroughout env world events) :
    (∀ later ∈ worlds env world events, Kept env world later) ∧
      (worlds env world events).Pairwise (Kept env) := by
  induction events generalizing world with
  | nil =>
      refine ⟨fun later member => ?_, List.pairwise_singleton _ _⟩
      rw [List.mem_singleton.mp member]
      exact Std.Refl.refl world
  | cons event events ih =>
      obtain ⟨now, afterwards⟩ := careful
      have first := kept_after complete now
      obtain ⟨all, pairwise⟩ := ih (first.complete complete) afterwards
      have later : ∀ later ∈ worlds env (event.after env world) events,
          Kept env world later :=
        fun later member => IsTrans.trans _ _ _ first (all later member)
      refine ⟨?_, List.pairwise_cons.mpr ⟨later, pairwise⟩⟩
      rw [worlds, List.forall_mem_cons]
      exact ⟨Std.Refl.refl world, later⟩

def wizardEnvironment : Environment where
  toEnvironment := PidFile.plainEnvironment
  messages :=
    { isoformat := DecimalText.intText
      fromisoformat := fun _ => .error "Invalid isoformat string"
      int := DecimalText.int
      recoverMessage := some fun _ _ => .error "bad signature"
      acceptedContractChains := []
      verifyEip1271 := fun _ _ _ _ => (false, "") }
  lower := id
  truncate _ := none
  repr _ := []

def wizardCircumstances : Circumstances where
  seed := PidFile.seedOf 1
  challengeSeed := PidFile.seedOf 2
  urandom := List.replicate 16 3
  hostname := none
  port := 7070
  issuedAt := 0
  recordedAt := 0
  consumedAt := 0
  createdAt := "2026-01-01 00:00:00".toList

def walletAddress : Text := "0x".toList ++ List.replicate 40 'a'

def connect : Event where
  request := .onboardingConnect
    (.obj [("type".toList, .str onboardingConnect),
      ("address".toList, .str walletAddress)])
  circumstances := wizardCircumstances
  crash := none

def visit (selector query : String) (crash : Option Nat) : Event where
  request := .gopher selector.toList query.toList
  circumstances := wizardCircumstances
  crash := crash

def boundIdentity : Identity := ⟨none, PidFile.seedOf 1⟩

/-- The wizard has finished with a binding. -/
def boundWorld : World where
  pidJson := .holds boundIdentity
  stateJson := .holds { step := .complete }
  nonces := .empty
  bindings :=
    ⟨[rowOf wizardEnvironment.setting (boundIdentity.pillar wizardEnvironment)
      { evmAddress := walletAddress
        siweMessage := []
        siweSignature := []
        consumedAt := 0
        createdAt := [] }], List.nodup_singleton _⟩
  unlocked := []

theorem bound_boundWorld : Bound wizardEnvironment boundWorld := by
  refine ⟨boundIdentity, rfl, ?_⟩
  rw [bindingExists, boundWorld, List.any_cons, Bool.or_eq_true]
  exact .inl (decide_eq_true rfl)

end Runs

end OnboardingWizard

end RefinetPillars
