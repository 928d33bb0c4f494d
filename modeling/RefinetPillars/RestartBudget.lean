import RefinetPillars.RunHistory

/-!
# Attempts with a budget

A supervisor counts the attempts that have failed in a row.  It makes no more
once there are as many as its budget, and a success starts the count again.
-/

namespace RefinetPillars

namespace RestartBudget

open RunHistory

variable {State Input : Type*}

/-- How a count of failures follows the attempts that the inputs make; an input
that makes none keeps it. -/
structure Budgeted (apply : Input → State → State) (failures : State → Nat)
    (attempt : Input → State → Option Bool) (budget : Nat) : Prop where
  idle : ∀ {input : Input} {state : State}, attempt input state = none →
    failures (apply input state) = failures state
  spent : ∀ {input : Input} {state : State},
    attempt input state = some false →
      failures (apply input state) = failures state + 1
  reset : ∀ {input : Input} {state : State},
    attempt input state = some true → failures (apply input state) = 0
  within : ∀ {input : Input} {state : State} {succeeded : Bool},
    attempt input state = some succeeded → failures state < budget

/-- The attempts of a run, newest first. -/
def attempts (apply : Input → State → State) (start : State)
    (attempt : Input → State → Option Bool) : List Input → List Bool
  | [] => []
  | input :: inputs =>
      (attempt input (run apply start inputs)).toList ++
        attempts apply start attempt inputs

/-- The attempts that have failed since the newest success. -/
def failedInARow (made : List Bool) : Nat :=
  (made.takeWhile fun succeeded => !succeeded).length

@[simp]
theorem failedInARow_nil : failedInARow [] = 0 := rfl

@[simp]
theorem failedInARow_failure (made : List Bool) :
    failedInARow (false :: made) = failedInARow made + 1 := rfl

@[simp]
theorem failedInARow_success (made : List Bool) :
    failedInARow (true :: made) = 0 := rfl

theorem le_failedInARow_iff {count : Nat} {made : List Bool} :
    count ≤ failedInARow made ↔ List.replicate count false <+: made := by
  induction count generalizing made with
  | zero => simp
  | succ count ih =>
      cases made with
      | nil => simp [List.replicate_succ]
      | cons succeeded earlier =>
          cases succeeded with
          | true => simp [List.replicate_succ]
          | false => simp [List.replicate_succ, ih]

namespace Budgeted

variable {apply : Input → State → State} {failures : State → Nat}
  {attempt : Input → State → Option Bool} {budget : Nat} {start : State}

/-- The count is that of the failures since the newest success. -/
theorem failures_run (budgeted : Budgeted apply failures attempt budget)
    (fresh : failures start = 0) (inputs : List Input) :
    failures (run apply start inputs) =
      failedInARow (attempts apply start attempt inputs) := by
  induction inputs with
  | nil => exact fresh
  | cons input inputs ih =>
      rw [run_cons, attempts]
      cases made : attempt input (run apply start inputs) with
      | none => exact (budgeted.idle made).trans ih
      | some succeeded =>
          cases succeeded with
          | true => exact budgeted.reset made
          | false =>
              rw [budgeted.spent made, ih]
              rfl

theorem failures_run_le (budgeted : Budgeted apply failures attempt budget)
    (fresh : failures start = 0) (inputs : List Input) :
    failures (run apply start inputs) ≤ budget := by
  induction inputs with
  | nil => exact fresh ▸ Nat.zero_le _
  | cons input inputs ih =>
      rw [run_cons]
      cases made : attempt input (run apply start inputs) with
      | none => exact (budgeted.idle made).trans_le ih
      | some succeeded =>
          cases succeeded with
          | true => exact (budgeted.reset made).trans_le (Nat.zero_le _)
          | false => exact (budgeted.spent made).trans_le (budgeted.within made)

/-- Once the budget is spent there are no more attempts. -/
theorem attempts_of_exhausted (budgeted : Budgeted apply failures attempt budget)
    {earlier : List Input}
    (exhausted : budget ≤ failures (run apply start earlier))
    (later : List Input) :
    attempts apply start attempt (later ++ earlier) =
        attempts apply start attempt earlier ∧
      budget ≤ failures (run apply start (later ++ earlier)) := by
  induction later with
  | nil => exact ⟨rfl, exhausted⟩
  | cons input later ih =>
      obtain ⟨same, spent⟩ := ih
      have idle : attempt input (run apply start (later ++ earlier)) = none := by
        cases made : attempt input (run apply start (later ++ earlier)) with
        | none => rfl
        | some succeeded => exact absurd (budgeted.within made) (by omega)
      rw [List.cons_append, attempts, idle, run_cons, budgeted.idle idle]
      exact ⟨same, spent⟩

/-- As many failures in a row as the budget are the newest attempts. -/
theorem eq_nil_of_attempts (budgeted : Budgeted apply failures attempt budget)
    (positive : 0 < budget) (fresh : failures start = 0)
    {inputs : List Input} {newer older : List Bool}
    (made : attempts apply start attempt inputs =
      newer ++ List.replicate budget false ++ older) :
    newer = [] := by
  induction inputs generalizing newer with
  | nil =>
      have length := congrArg List.length made
      simp only [attempts, List.length_nil, List.length_append,
        List.length_replicate] at length
      omega
  | cons input inputs ih =>
      rw [attempts] at made
      cases attempted : attempt input (run apply start inputs) with
      | none =>
          rw [attempted] at made
          exact ih made
      | some succeeded =>
          rw [attempted] at made
          cases newer with
          | nil => rfl
          | cons newest newer =>
              have rest : attempts apply start attempt inputs =
                  newer ++ List.replicate budget false ++ older :=
                (List.cons.inj made).2
              obtain rfl : newer = [] := ih rest
              have spent : budget ≤
                  failedInARow (attempts apply start attempt inputs) := by
                rw [le_failedInARow_iff, rest]
                exact List.prefix_append _ _
              have failed := budgeted.failures_run fresh inputs
              have within := budgeted.within attempted
              omega

end Budgeted

end RestartBudget

end RefinetPillars
