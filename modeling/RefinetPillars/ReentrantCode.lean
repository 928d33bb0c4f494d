import Mathlib

/-!
# Contract code that hands over control

A smart-contract function runs until it reverts, returns, or calls another
contract.  In the last case everybody else may act before it is resumed.  Code
is therefore modelled as a function from the contract's state to the point at
which control leaves it, together with the continuation that runs when control
comes back.

This file gives the monad of such code, its plain execution against a callee
that does not call back, and a rely-guarantee calculus for all other callees.
-/

namespace RefinetPillars

namespace ReentrantCode

/-- The state of a contract together with the status of its reentrancy
guard. -/
structure Guarded (World : Type) where
  world : World
  entered : Bool

/-- Where a piece of code gives up control: it reverts, it returns a value, or
it makes an external call and waits to be resumed. -/
inductive Outcome (World Error Request Value : Type) where
  | revert (error : Error)
  | done (value : Value) (state : Guarded World)
  | external (request : Request) (state : Guarded World)
      (resume : Guarded World → Outcome World Error Request Value)

/-- Contract code that reads and writes a guarded state. -/
def Code (World Error Request Value : Type) : Type :=
  Guarded World → Outcome World Error Request Value

/-- Why a transaction failed: the code reverted, or the contract it called
did. -/
inductive Failure (Error Request : Type) where
  | reverted (error : Error)
  | callFailed (request : Request)
deriving DecidableEq

variable {World Error Request Value Result : Type}

/-- Continue an outcome with further code once it has returned. -/
def Outcome.bind :
    Outcome World Error Request Value →
      (Value → Code World Error Request Result) →
        Outcome World Error Request Result
  | .revert error, _ => .revert error
  | .done value state, next => next value state
  | .external request state resume, next =>
      .external request state fun returned => (resume returned).bind next

instance : Monad (Code World Error Request) where
  pure value := fun state => .done value state
  bind code next := fun state => (code state).bind next

/-- Abandon the call with an error. -/
def revert (error : Error) : Code World Error Request Value :=
  fun _ => .revert error

/-- Solidity's `if (condition) revert error`. -/
def revertIf (condition : Prop) [Decidable condition] (error : Error) :
    Code World Error Request Unit :=
  fun state => if condition then .revert error else .done () state

/-- Read a part of the state. -/
def read (view : World → Value) : Code World Error Request Value :=
  fun state => .done (view state.world) state

/-- Overwrite the state. -/
def modify (update : World → World) : Code World Error Request Unit :=
  fun state => .done () ⟨update state.world, state.entered⟩

/-- Call another contract and wait until it returns. -/
def call (request : Request) : Code World Error Request Unit :=
  fun state => .external request state fun returned => .done () returned

/-- Run the body with the reentrancy guard held, and refuse to run it while
the guard is already held. -/
def nonReentrant (reentered : Error) (body : Code World Error Request Value) :
    Code World Error Request Value := fun state =>
  if state.entered then .revert reentered
  else (body ⟨state.world, true⟩).bind fun value returned =>
    .done value ⟨returned.world, false⟩

section Steps

theorem seq_apply (code : Code World Error Request Value)
    (next : Value → Code World Error Request Result)
    (state : Guarded World) :
    (code >>= next) state = (code state).bind next := rfl

theorem pure_apply (value : Value) (state : Guarded World) :
    (pure value : Code World Error Request Value) state =
      .done value state := rfl

theorem read_apply (view : World → Value) (state : Guarded World) :
    (read view : Code World Error Request Value) state =
      .done (view state.world) state := rfl

theorem modify_apply (update : World → World) (state : Guarded World) :
    (modify update : Code World Error Request Unit) state =
      .done () ⟨update state.world, state.entered⟩ := rfl

theorem revertIf_apply (condition : Prop) [Decidable condition]
    (error : Error) (state : Guarded World) :
    (revertIf condition error : Code World Error Request Unit) state =
      if condition then .revert error else .done () state := rfl

theorem branch_apply (condition : Prop) [Decidable condition]
    (first second : Code World Error Request Value) (state : Guarded World) :
    (if condition then first else second) state =
      if condition then first state else second state := by
  split <;> rfl

end Steps

section Execution

/-- Execute an outcome against a callee that answers every external call
without calling back, or fails it. -/
def Outcome.settle (answer : Request → World → Option World) :
    Outcome World Error Request Value →
      Except (Failure Error Request) (Value × Guarded World)
  | .revert error => .error (.reverted error)
  | .done value state => .ok (value, state)
  | .external request state resume =>
      match answer request state.world with
      | none => .error (.callFailed request)
      | some world => (resume ⟨world, state.entered⟩).settle answer

variable {answer : Request → World → Option World}

theorem settle_bind_ok {outcome : Outcome World Error Request Value}
    {next : Value → Code World Error Request Result}
    {final : Result × Guarded World} :
    (outcome.bind next).settle answer = .ok final ↔
      ∃ value state, outcome.settle answer = .ok (value, state) ∧
        (next value state).settle answer = .ok final := by
  induction outcome with
  | revert error => simp [Outcome.bind, Outcome.settle]
  | done value state =>
      constructor
      · intro settled
        exact ⟨value, state, rfl, settled⟩
      · rintro ⟨_, _, returned, settled⟩
        cases returned
        exact settled
  | external request state resume ih =>
      simp only [Outcome.bind, Outcome.settle]
      cases answered : answer request state.world with
      | none => simp
      | some world => simpa using ih ⟨world, state.entered⟩

@[simp]
theorem settle_seq_ok {code : Code World Error Request Value}
    {next : Value → Code World Error Request Result}
    {state : Guarded World} {final : Result × Guarded World} :
    ((code >>= next) state).settle answer = .ok final ↔
      ∃ value middle, (code state).settle answer = .ok (value, middle) ∧
        (next value middle).settle answer = .ok final :=
  settle_bind_ok

@[simp]
theorem settle_pure_ok {value : Value} {state : Guarded World}
    {final : Value × Guarded World} :
    ((pure value : Code World Error Request Value) state).settle answer =
        .ok final ↔
      (value, state) = final := by
  change Except.ok (value, state) = Except.ok final ↔ _
  simp

@[simp]
theorem settle_revert_ok {error : Error} {state : Guarded World}
    {final : Value × Guarded World} :
    ((revert error : Code World Error Request Value) state).settle answer =
        .ok final ↔
      False := by
  simp [revert, Outcome.settle]

@[simp]
theorem settle_revertIf_ok {condition : Prop} [Decidable condition]
    {error : Error} {state : Guarded World} {final : Unit × Guarded World} :
    ((revertIf condition error : Code World Error Request Unit) state).settle
        answer = .ok final ↔
      ¬ condition ∧ ((), state) = final := by
  by_cases holds : condition <;> simp [revertIf, Outcome.settle, holds]

@[simp]
theorem settle_read_ok {view : World → Value} {state : Guarded World}
    {final : Value × Guarded World} :
    ((read view : Code World Error Request Value) state).settle answer =
        .ok final ↔
      (view state.world, state) = final := by
  simp [read, Outcome.settle]

@[simp]
theorem settle_modify_ok {update : World → World} {state : Guarded World}
    {final : Unit × Guarded World} :
    ((modify update : Code World Error Request Unit) state).settle answer =
        .ok final ↔
      ((), (⟨update state.world, state.entered⟩ : Guarded World)) = final := by
  simp [modify, Outcome.settle]

@[simp]
theorem settle_call_ok {request : Request} {state : Guarded World}
    {final : Unit × Guarded World} :
    ((call request : Code World Error Request Unit) state).settle answer =
        .ok final ↔
      ∃ world, answer request state.world = some world ∧
        ((), (⟨world, state.entered⟩ : Guarded World)) = final := by
  simp only [call, Outcome.settle]
  cases answered : answer request state.world <;> simp

@[simp]
theorem settle_nonReentrant_ok {reentered : Error}
    {body : Code World Error Request Value} {world : World}
    {final : Value × Guarded World} :
    ((nonReentrant reentered body) ⟨world, false⟩).settle answer = .ok final ↔
      ∃ value state, (body ⟨world, true⟩).settle answer = .ok (value, state) ∧
        (value, (⟨state.world, false⟩ : Guarded World)) = final := by
  have unguarded :
      ((body ⟨world, true⟩).bind fun value returned =>
          .done value ⟨returned.world, false⟩).settle answer = .ok final ↔ _ :=
    settle_bind_ok
  simpa only [nonReentrant, Bool.false_eq_true, if_false, Outcome.settle,
    Except.ok.injEq] using unguarded

end Execution

section RelyGuarantee

/-- Partial correctness under interference.  Every external call leaves from a
state satisfying `exit`; the code is resumed in any state that `rely` relates
to it; and if the code returns, `post` holds. -/
def Outcome.Ensures (rely : Guarded World → Guarded World → Prop)
    (exit : Guarded World → Prop) (post : Value → Guarded World → Prop) :
    Outcome World Error Request Value → Prop
  | .revert _ => True
  | .done value state => post value state
  | .external _ state resume =>
      exit state ∧
        ∀ returned, rely state returned →
          (resume returned).Ensures rely exit post

variable {rely : Guarded World → Guarded World → Prop}
  {exit : Guarded World → Prop}

theorem ensures_bind {outcome : Outcome World Error Request Value}
    {next : Value → Code World Error Request Result}
    {post : Result → Guarded World → Prop} :
    (outcome.bind next).Ensures rely exit post ↔
      outcome.Ensures rely exit fun value state =>
        (next value state).Ensures rely exit post := by
  induction outcome with
  | revert error => rfl
  | done value state => rfl
  | external request state resume ih =>
      simp only [Outcome.bind, Outcome.Ensures, ih]

@[simp]
theorem ensures_seq {code : Code World Error Request Value}
    {next : Value → Code World Error Request Result}
    {state : Guarded World} {post : Result → Guarded World → Prop} :
    ((code >>= next) state).Ensures rely exit post ↔
      (code state).Ensures rely exit fun value middle =>
        (next value middle).Ensures rely exit post :=
  ensures_bind

@[simp]
theorem ensures_pure {value : Value} {state : Guarded World}
    {post : Value → Guarded World → Prop} :
    ((pure value : Code World Error Request Value) state).Ensures
        rely exit post ↔
      post value state :=
  Iff.rfl

@[simp]
theorem ensures_revert {error : Error} {state : Guarded World}
    {post : Value → Guarded World → Prop} :
    ((revert error : Code World Error Request Value) state).Ensures
        rely exit post ↔
      True :=
  Iff.rfl

@[simp]
theorem ensures_revertIf {condition : Prop} [Decidable condition]
    {error : Error} {state : Guarded World}
    {post : Unit → Guarded World → Prop} :
    ((revertIf condition error : Code World Error Request Unit) state).Ensures
        rely exit post ↔
      (¬ condition → post () state) := by
  by_cases holds : condition <;> simp [revertIf, Outcome.Ensures, holds]

@[simp]
theorem ensures_read {view : World → Value} {state : Guarded World}
    {post : Value → Guarded World → Prop} :
    ((read view : Code World Error Request Value) state).Ensures
        rely exit post ↔
      post (view state.world) state :=
  Iff.rfl

@[simp]
theorem ensures_modify {update : World → World} {state : Guarded World}
    {post : Unit → Guarded World → Prop} :
    ((modify update : Code World Error Request Unit) state).Ensures
        rely exit post ↔
      post () ⟨update state.world, state.entered⟩ :=
  Iff.rfl

@[simp]
theorem ensures_call {request : Request} {state : Guarded World}
    {post : Unit → Guarded World → Prop} :
    ((call request : Code World Error Request Unit) state).Ensures
        rely exit post ↔
      exit state ∧ ∀ returned, rely state returned → post () returned :=
  Iff.rfl

@[simp]
theorem ensures_nonReentrant {reentered : Error}
    {body : Code World Error Request Value} {state : Guarded World}
    {post : Value → Guarded World → Prop} :
    ((nonReentrant reentered body) state).Ensures rely exit post ↔
      (state.entered = false →
        (body ⟨state.world, true⟩).Ensures rely exit fun value returned =>
          post value ⟨returned.world, false⟩) := by
  cases held : state.entered with
  | false =>
      simp only [nonReentrant, held, Bool.false_eq_true, if_false,
        forall_const]
      exact ensures_bind
  | true => simp [nonReentrant, held, Outcome.Ensures]

/-- Weaken the postcondition of an outcome. -/
theorem Outcome.Ensures.mono {outcome : Outcome World Error Request Value}
    {post weaker : Value → Guarded World → Prop}
    (ensured : outcome.Ensures rely exit post)
    (implies : ∀ value state, post value state → weaker value state) :
    outcome.Ensures rely exit weaker := by
  induction outcome with
  | revert error => trivial
  | done value state => exact implies value state ensured
  | external request state resume ih =>
      exact ⟨ensured.1, fun returned relied =>
        ih returned (ensured.2 returned relied)⟩

/-- A plain execution whose answers respect the rely relation ends in the
postcondition. -/
theorem Outcome.Ensures.settle {outcome : Outcome World Error Request Value}
    {post : Value → Guarded World → Prop}
    {answer : Request → World → Option World}
    {value : Value} {final : Guarded World}
    (ensured : outcome.Ensures rely exit post)
    (respects : ∀ request state world,
      exit state → answer request state.world = some world →
        rely state ⟨world, state.entered⟩)
    (settled : outcome.settle answer = .ok (value, final)) :
    post value final := by
  induction outcome with
  | revert error => simp [Outcome.settle] at settled
  | done result state =>
      simp only [Outcome.settle, Except.ok.injEq, Prod.mk.injEq] at settled
      obtain ⟨rfl, rfl⟩ := settled
      exact ensured
  | external request state resume ih =>
      simp only [Outcome.settle] at settled
      cases answered : answer request state.world with
      | none => simp [answered] at settled
      | some world =>
          simp only [answered] at settled
          exact ih ⟨world, state.entered⟩
            (ensured.2 _ (respects request state world ensured.1 answered))
            settled

end RelyGuarantee

end ReentrantCode

end RefinetPillars
