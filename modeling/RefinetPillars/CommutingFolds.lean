import Mathlib

/-!
# Folds of commuting idempotent operations

Folding operations that commute and are idempotent depends only on which
operations occur, not on their order or multiplicity.
-/

namespace RefinetPillars

namespace CommutingFolds

variable {State Step : Type*}

/-- The operations commute with each other, and each is idempotent. -/
structure CommutingIdempotent (apply : State → Step → State) : Prop where
  commutes : ∀ state first second,
    apply (apply state first) second = apply (apply state second) first
  idempotent : ∀ state step, apply (apply state step) step = apply state step

namespace CommutingIdempotent

variable {apply : State → Step → State}

/-- An operation that occurs in a fold is absorbed by it. -/
theorem foldl_absorbs (laws : CommutingIdempotent apply) {steps : List Step}
    {step : Step} (member : step ∈ steps) (state : State) :
    steps.foldl apply (apply state step) = steps.foldl apply state := by
  induction steps generalizing state with
  | nil => cases member
  | cons first steps ih =>
      rw [List.foldl_cons, List.foldl_cons]
      rcases List.mem_cons.mp member with rfl | later
      · rw [laws.idempotent]
      · rw [laws.commutes, ih later]

theorem foldl_dedup [DecidableEq Step] (laws : CommutingIdempotent apply)
    (steps : List Step) (state : State) :
    steps.dedup.foldl apply state = steps.foldl apply state := by
  induction steps generalizing state with
  | nil => rfl
  | cons first steps ih =>
      by_cases again : first ∈ steps
      · rw [List.dedup_cons_of_mem again, ih, List.foldl_cons,
          laws.foldl_absorbs again]
      · rw [List.dedup_cons_of_notMem again, List.foldl_cons, List.foldl_cons,
          ih]

/-- Folds over the same operations agree. -/
theorem foldl_eq_of_mem_iff [DecidableEq Step]
    (laws : CommutingIdempotent apply) {steps others : List Step}
    (same : ∀ step, step ∈ steps ↔ step ∈ others) (state : State) :
    steps.foldl apply state = others.foldl apply state := by
  have permuted : steps.dedup.Perm others.dedup := by
    rw [List.perm_ext_iff_of_nodup steps.nodup_dedup others.nodup_dedup]
    intro step
    rw [List.mem_dedup, List.mem_dedup]
    exact same step
  have commutesAlways : ∀ first ∈ steps.dedup, ∀ second ∈ steps.dedup,
      ∀ state, apply (apply state first) second =
        apply (apply state second) first :=
    fun first _ second _ state => laws.commutes state first second
  calc
    steps.foldl apply state = steps.dedup.foldl apply state :=
      (laws.foldl_dedup steps state).symm
    _ = others.dedup.foldl apply state :=
      permuted.foldl_eq' commutesAlways state
    _ = others.foldl apply state := laws.foldl_dedup others state

end CommutingIdempotent

end CommutingFolds

end RefinetPillars
