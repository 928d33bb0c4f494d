import Mathlib

/-!
# Computations that may crash

A computation reads and changes a state and ends with a value or an exception.
The states after its changes are recorded, so that a crash may stop it after any
of them.  The rules show that all of these states are related to the first one.
-/

namespace RefinetPillars

namespace CrashableActions

/-- A computation, with the states that it passes in their order. -/
def Action (State Raised Value : Type) : Type :=
  State → Except Raised Value × List State

namespace Action

variable {State Raised Value Result : Type}

/-- The state of a computation when it ends. -/
def final (action : Action State Raised Value) (state : State) : State :=
  (action state).2.getLastD state

/-- The state when a computation stops after so many changes. -/
def stopped (count : Nat) (action : Action State Raised Value)
    (state : State) : State :=
  ((action state).2.take count).getLastD state

instance monad : Monad (Action State Raised) where
  pure value := fun _ => (.ok value, [])
  bind action next := fun state =>
    match (action state).1 with
    | .ok value =>
        ((next value (final action state)).1,
          (action state).2 ++ (next value (final action state)).2)
    | .error raised => (.error raised, (action state).2)

/-- The present state. -/
def read : Action State Raised State := fun state => (.ok state, [])

/-- A change of the state. -/
def perform (change : State → State) : Action State Raised Unit :=
  fun state => (.ok (), [change state])

/-- An exception or a value. -/
def lift (result : Except Raised Value) : Action State Raised Value :=
  fun _ => (result, [])

/-- An exception is caught. -/
def handle (action : Action State Raised Value)
    (recover : Raised → Action State Raised Value) :
    Action State Raised Value := fun state =>
  match (action state).1 with
  | .ok value => (.ok value, (action state).2)
  | .error raised =>
      ((recover raised (final action state)).1,
        (action state).2 ++ (recover raised (final action state)).2)

/-- All states that are passed are related to the first one, and a value is
returned only in a state that fits it. -/
structure Keeps (kept : State → State → Prop)
    (action : Action State Raised Value) (after : Value → State → Prop)
    (state : State) : Prop where
  passes : ∀ passed ∈ (action state).2, kept state passed
  ends : ∀ value, (action state).1 = .ok value →
    after value (final action state)

/-- What holds at the end, with a value or with an exception. -/
structure Ends (action : Action State Raised Value)
    (after : Value → State → Prop) (raises : Raised → State → Prop)
    (state : State) : Prop where
  returns : ∀ value, (action state).1 = .ok value →
    after value (final action state)
  raised : ∀ raised, (action state).1 = .error raised →
    raises raised (final action state)

section Runs

variable (state : State)

@[simp]
theorem pure_apply (value : Value) :
    (pure value : Action State Raised Value) state = (.ok value, []) := rfl

@[simp]
theorem read_bind_apply (next : State → Action State Raised Result) :
    (read >>= next) state = next state state := rfl

@[simp]
theorem perform_bind_apply (change : State → State)
    (next : Unit → Action State Raised Result) :
    (perform change >>= next) state =
      ((next () (change state)).1,
        change state :: (next () (change state)).2) := rfl

/-- A computation that changes nothing only gives its value. -/
theorem bind_of_unchanged {action : Action State Raised Value}
    {next : Value → Action State Raised Result} {state : State} {value : Value}
    (ran : action state = (.ok value, [])) :
    (action >>= next) state = next value state := by
  have bound : (action >>= next) state =
      match (action state).1 with
      | .ok value =>
          ((next value (final action state)).1,
            (action state).2 ++ (next value (final action state)).2)
      | .error raised => (.error raised, (action state).2) := rfl
  rw [bound, final, ran]
  rfl

/-- The states of a sequence are those of its parts. -/
theorem mem_bind {action : Action State Raised Value}
    {next : Value → Action State Raised Result} {state passed : State} :
    passed ∈ ((action >>= next) state).2 ↔
      passed ∈ (action state).2 ∨ ∃ value, (action state).1 = .ok value ∧
        passed ∈ (next value (final action state)).2 := by
  have bound : (action >>= next) state =
      match (action state).1 with
      | .ok value =>
          ((next value (final action state)).1,
            (action state).2 ++ (next value (final action state)).2)
      | .error raised => (.error raised, (action state).2) := rfl
  cases returned : (action state).1 with
  | ok value => simp [bound, returned]
  | error raised => simp [bound, returned]

end Runs

section Rules

variable {kept : State → State → Prop} {action : Action State Raised Value}
  {after : Value → State → Prop} {state : State}

theorem mem_of_getLastD_ne {passed : List State}
    (moved : passed.getLastD state ≠ state) :
    passed.getLastD state ∈ passed := by
  cases passed with
  | nil => exact absurd rfl moved
  | cons first rest =>
      rw [List.getLastD_cons]
      exact List.getLastD_mem_cons

theorem getLastD_append (passed later : List State) :
    (passed ++ later).getLastD state =
      later.getLastD (passed.getLastD state) := by
  cases later with
  | nil => rw [List.append_nil, List.getLastD_nil]
  | cons first rest => simp [List.getLastD_eq_getLast?]

theorem kept_getLastD [Std.Refl kept] {passed : List State}
    (all : ∀ other ∈ passed, kept state other) :
    kept state (passed.getLastD state) := by
  by_cases moved : passed.getLastD state = state
  · rw [moved]
    exact Std.Refl.refl state
  · exact all _ (mem_of_getLastD_ne moved)

theorem Keeps.kept_final [Std.Refl kept] (keeps : Keeps kept action after state) :
    kept state (final action state) :=
  kept_getLastD keeps.passes

theorem Keeps.kept_stopped [Std.Refl kept]
    (keeps : Keeps kept action after state) (count : Nat) :
    kept state (stopped count action state) :=
  kept_getLastD fun other member =>
    keeps.passes other (List.mem_of_mem_take member)

theorem Keeps.mono {other : Value → State → Prop}
    (keeps : Keeps kept action after state)
    (weaker : ∀ value state, after value state → other value state) :
    Keeps kept action other state :=
  ⟨keeps.passes, fun value returned => weaker _ _ (keeps.ends value returned)⟩

/-- The last state is related to the first one, too. -/
theorem Keeps.and_kept [Std.Refl kept]
    (keeps : Keeps kept action after state) :
    Keeps kept action (fun value later => after value later ∧ kept state later)
      state :=
  ⟨keeps.passes, fun value returned =>
    ⟨keeps.ends value returned, keeps.kept_final⟩⟩

theorem keeps_pure {value : Value} (holds : after value state) :
    Keeps kept (pure value : Action State Raised Value) after state := by
  refine ⟨fun _ member => absurd member List.not_mem_nil, ?_⟩
  rintro _ ⟨⟩
  exact holds

theorem keeps_read {after : State → State → Prop} (holds : after state state) :
    Keeps kept (read : Action State Raised State) after state := by
  refine ⟨fun _ member => absurd member List.not_mem_nil, ?_⟩
  rintro _ ⟨⟩
  exact holds

theorem keeps_lift {result : Except Raised Value}
    (holds : ∀ value, result = .ok value → after value state) :
    Keeps kept (lift result : Action State Raised Value) after state :=
  ⟨fun _ member => absurd member List.not_mem_nil, holds⟩

theorem keeps_perform {change : State → State} {after : Unit → State → Prop}
    (changes : kept state (change state)) (holds : after () (change state)) :
    Keeps kept (perform change : Action State Raised Unit) after state := by
  refine ⟨fun other member => ?_, fun _ _ => holds⟩
  rw [List.mem_singleton.mp member]
  exact changes

variable [Std.Refl kept] [IsTrans State kept]

theorem keeps_bind {next : Value → Action State Raised Result}
    {after : Result → State → Prop}
    (first : Keeps kept action
      (fun value middle => Keeps kept (next value) after middle) state) :
    Keeps kept (action >>= next) after state := by
  have bound : (action >>= next) state =
      match (action state).1 with
      | .ok value =>
          ((next value (final action state)).1,
            (action state).2 ++ (next value (final action state)).2)
      | .error raised => (.error raised, (action state).2) := rfl
  have reached := first.kept_final
  cases returned : (action state).1 with
  | error raised =>
      rw [returned] at bound
      refine ⟨?_, ?_⟩
      · rw [bound]
        exact first.passes
      · rw [bound]
        exact nofun
  | ok value =>
      rw [returned] at bound
      have second := first.ends value returned
      refine ⟨?_, ?_⟩
      · rw [bound]
        intro other member
        rcases List.mem_append.mp member with early | late
        · exact first.passes other early
        · exact IsTrans.trans _ _ _ reached (second.passes other late)
      · rw [bound]
        intro result ended
        have last := second.ends result ended
        rw [final, bound]
        dsimp only
        rw [getLastD_append]
        exact last

end Rules

section Endings

variable {action : Action State Raised Value} {after : Value → State → Prop}
  {raises : Raised → State → Prop} {state : State}

theorem Ends.mono {otherAfter : Value → State → Prop}
    {otherRaises : Raised → State → Prop}
    (ends : Ends action after raises state)
    (weaker : ∀ value state, after value state → otherAfter value state)
    (weakerRaises : ∀ raised state, raises raised state →
      otherRaises raised state) :
    Ends action otherAfter otherRaises state :=
  ⟨fun value returned => weaker _ _ (ends.returns value returned),
    fun raised failed => weakerRaises _ _ (ends.raised raised failed)⟩

/-- What holds however a computation ends. -/
theorem Ends.holds {always : State → Prop}
    (ends : Ends action (fun _ => always) (fun _ => always) state) :
    always (final action state) := by
  cases returned : (action state).1 with
  | ok value => exact ends.returns value returned
  | error raised => exact ends.raised raised returned

theorem ends_pure {value : Value} (holds : after value state) :
    Ends (pure value : Action State Raised Value) after raises state := by
  refine ⟨?_, nofun⟩
  rintro _ ⟨⟩
  exact holds

theorem ends_read {after : State → State → Prop} (holds : after state state) :
    Ends (read : Action State Raised State) after raises state := by
  refine ⟨?_, nofun⟩
  rintro _ ⟨⟩
  exact holds

theorem ends_perform {change : State → State} {after : Unit → State → Prop}
    (holds : after () (change state)) :
    Ends (perform change : Action State Raised Unit) after raises state :=
  ⟨fun _ _ => holds, nofun⟩

theorem ends_lift {result : Except Raised Value}
    (returns : ∀ value, result = .ok value → after value state)
    (raised : ∀ raised, result = .error raised → raises raised state) :
    Ends (lift result : Action State Raised Value) after raises state :=
  ⟨returns, raised⟩

/-- The state of a computation that ends, and then of what follows. -/
theorem final_append {result : Except Raised Value} {passed later : List State}
    (ran : action state = (result, passed ++ later)) :
    final action state = later.getLastD (passed.getLastD state) := by
  rw [final, ran]
  exact getLastD_append passed later

theorem ends_bind {next : Value → Action State Raised Result}
    {after : Result → State → Prop}
    (first : Ends action
      (fun value middle => Ends (next value) after raises middle)
      raises state) :
    Ends (action >>= next) after raises state := by
  have bound : (action >>= next) state =
      match (action state).1 with
      | .ok value =>
          ((next value (final action state)).1,
            (action state).2 ++ (next value (final action state)).2)
      | .error raised => (.error raised, (action state).2) := rfl
  cases returned : (action state).1 with
  | ok value =>
      rw [returned] at bound
      have second := first.returns value returned
      constructor <;> intro result ended
      · rw [final_append bound]
        exact second.returns result (by rw [← ended, bound])
      · rw [final_append bound]
        exact second.raised result (by rw [← ended, bound])
  | error raised =>
      rw [returned] at bound
      have failed := first.raised raised returned
      refine ⟨fun result ended => ?_, fun other ended => ?_⟩
      · rw [bound] at ended
        cases ended
      · rw [bound] at ended
        obtain rfl := Except.error.inj ended
        rw [final, bound]
        exact failed

/-- A caught exception ends nothing. -/
theorem ends_handle {recover : Raised → Action State Raised Value}
    (first : Ends action after
      (fun raised middle => Ends (recover raised) after raises middle)
      state) :
    Ends (handle action recover) after raises state := by
  cases returned : (action state).1 with
  | ok value =>
      have ran : handle action recover state =
          (.ok value, (action state).2) := by
        rw [handle, returned]
      refine ⟨fun result ended => ?_, fun other ended => ?_⟩
      · rw [ran] at ended
        obtain rfl := Except.ok.inj ended
        rw [final, ran]
        exact first.returns value returned
      · rw [ran] at ended
        cases ended
  | error raised =>
      have ran : handle action recover state =
          ((recover raised (final action state)).1,
            (action state).2 ++ (recover raised (final action state)).2) := by
        rw [handle, returned]
      have second := first.raised raised returned
      constructor <;> intro result ended
      · rw [final_append ran]
        exact second.returns result (by rw [← ended, ran])
      · rw [final_append ran]
        exact second.raised result (by rw [← ended, ran])

end Endings

end Action

end CrashableActions

end RefinetPillars
