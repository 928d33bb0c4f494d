import Mathlib

/-!
# Hash chains

A chain of rows, each with a hash that is computed from the row and from the
hash of the row before it.  A row extends a chain exactly when it continues from
the last hash, and where hashes determine what they are computed from, the last
hash determines the whole chain.
-/

namespace RefinetPillars

namespace HashChain

variable {Row Hash : Type*}

section Chains

variable (previous digest stored : Row → Hash)

/-- Every row continues from the hash before it and stores its own. -/
def Chained : Hash → List Row → Prop
  | _, [] => True
  | expected, row :: rows =>
      previous row = expected ∧ digest row = stored row ∧
        Chained (stored row) rows

/-- The hash that the next row continues from. -/
def headAfter (genesis : Hash) (rows : List Row) : Hash :=
  (rows.getLast?.map stored).getD genesis

variable {previous digest stored}

theorem headAfter_cons (genesis : Hash) (row : Row) (rows : List Row) :
    headAfter stored genesis (row :: rows) =
      headAfter stored (stored row) rows := by
  unfold headAfter
  cases rows with
  | nil => rfl
  | cons second rows =>
      rw [List.getLast?_cons_cons]
      cases last : (second :: rows).getLast? with
      | none => simp at last
      | some row => rfl

theorem chained_concat (genesis : Hash) (rows : List Row) (row : Row) :
    Chained previous digest stored genesis (rows ++ [row]) ↔
      Chained previous digest stored genesis rows ∧
        previous row = headAfter stored genesis rows ∧
        digest row = stored row := by
  induction rows generalizing genesis with
  | nil => simp [Chained, headAfter]
  | cons first rows ih =>
      rw [headAfter_cons]
      simp only [List.cons_append, Chained, ih, and_assoc]

end Chains

section Commitment

variable {previous digest stored : Row → Hash} {Proper : Hash → Prop}
  {Same : Row → Row → Prop}

/-- Two rows with equal hashes continue from the same hash, and are the same
as far as the hash goes. -/
def Binding (previous digest : Row → Hash) (Proper : Hash → Prop)
    (Same : Row → Row → Prop) : Prop :=
  ∀ row other, Proper (previous row) → Proper (previous other) →
    digest row = digest other → previous row = previous other ∧ Same row other

/-- Chains of one length with the same last hash start from the same hash and
are the same row by row. -/
theorem Chained.determined (binding : Binding previous digest Proper Same)
    (proper : ∀ row, Proper (digest row)) {start otherStart : Hash}
    {rows others : List Row}
    (chained : Chained previous digest stored start rows)
    (otherChained : Chained previous digest stored otherStart others)
    (properStart : Proper start) (properOther : Proper otherStart)
    (sameLength : rows.length = others.length)
    (sameHead : headAfter stored start rows =
      headAfter stored otherStart others) :
    start = otherStart ∧ List.Forall₂ Same rows others := by
  induction rows generalizing start otherStart others with
  | nil =>
      obtain rfl := List.length_eq_zero_iff.mp sameLength.symm
      exact ⟨sameHead, .nil⟩
  | cons row rows ih =>
      cases others with
      | nil => cases sameLength
      | cons other others =>
          obtain ⟨continues, storedEq, rest⟩ := chained
          obtain ⟨otherContinues, otherStoredEq, otherRest⟩ := otherChained
          rw [headAfter_cons, headAfter_cons] at sameHead
          obtain ⟨sameStored, sameRest⟩ := ih rest otherRest
            (storedEq ▸ proper row) (otherStoredEq ▸ proper other)
            (Nat.succ.inj sameLength) sameHead
          rw [← storedEq, ← otherStoredEq] at sameStored
          obtain ⟨sameStart, sameRow⟩ := binding row other
            (continues ▸ properStart) (otherContinues ▸ properOther) sameStored
          exact ⟨continues.symm.trans (sameStart.trans otherContinues),
            .cons sameRow sameRest⟩

end Commitment

end HashChain

end RefinetPillars
