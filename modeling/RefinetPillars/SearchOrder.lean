import Mathlib.Data.List.Perm.Basic

/-!
# Searches that stop early

A search goes through a list, passes over some entries, and stops at the first
that it does not pass over: it has found something if it accepts that entry.
It finds something in every order of the list exactly when no entry stops it in
vain.
-/

namespace RefinetPillars

namespace SearchOrder

variable {Entry : Type*} (Skipped Accepted : Entry → Prop)

/-- The first entry that is not passed over is accepted. -/
def Finds : List Entry → Prop
  | [] => False
  | entry :: entries => Accepted entry ∨ Skipped entry ∧ Finds entries

/-- Nothing is to be found, or nothing stops the search in vain. -/
def Unhindered (entries : List Entry) : Prop :=
  (∀ entry ∈ entries, ¬ Accepted entry) ∨
    ∀ entry ∈ entries, Skipped entry ∨ Accepted entry

variable {Skipped Accepted} {entry : Entry} {entries others : List Entry}

theorem exists_accepted (found : Finds Skipped Accepted entries) :
    ∃ entry ∈ entries, Accepted entry := by
  induction entries with
  | nil => exact found.elim
  | cons entry entries ih =>
      rcases found with accepted | ⟨-, found⟩
      · exact ⟨entry, List.mem_cons_self, accepted⟩
      · obtain ⟨other, member, accepted⟩ := ih found
        exact ⟨other, List.mem_cons_of_mem _ member, accepted⟩

theorem finds_of_forall
    (passes : ∀ entry ∈ entries, Skipped entry ∨ Accepted entry)
    (member : entry ∈ entries) (accepted : Accepted entry) :
    Finds Skipped Accepted entries := by
  induction entries with
  | nil => simp at member
  | cons head entries ih =>
      simp only [List.mem_cons, forall_eq_or_imp] at member passes
      rcases passes.1 with skipped | isAccepted
      · rcases member with rfl | member
        · exact Or.inl accepted
        · exact Or.inr ⟨skipped, ih passes.2 member⟩
      · exact Or.inl isAccepted

theorem finds_iff (unhindered : Unhindered Skipped Accepted entries) :
    Finds Skipped Accepted entries ↔ ∃ entry ∈ entries, Accepted entry := by
  constructor
  · exact exists_accepted
  · rintro ⟨entry, member, accepted⟩
    rcases unhindered with nothing | passes
    · exact absurd accepted (nothing entry member)
    · exact finds_of_forall passes member accepted

theorem Unhindered.of_subset (unhindered : Unhindered Skipped Accepted entries)
    (subset : others ⊆ entries) : Unhindered Skipped Accepted others := by
  rcases unhindered with nothing | passes
  · exact Or.inl fun entry member => nothing entry (subset member)
  · exact Or.inr fun entry member => passes entry (subset member)

/-- An entry that stops the search in vain hides the others when it comes
first. -/
theorem exists_perm_not_finds (hindered : ¬ Unhindered Skipped Accepted entries) :
    (∃ entry ∈ entries, Accepted entry) ∧
      ∃ others, others.Perm entries ∧ ¬ Finds Skipped Accepted others := by
  simp only [Unhindered, not_or, not_forall, not_not] at hindered
  obtain ⟨⟨good, isGood, accepted⟩, bad, isBad, notSkipped, notAccepted⟩ :=
    hindered
  obtain ⟨before, after, rfl⟩ := List.append_of_mem isBad
  refine ⟨⟨good, isGood, accepted⟩, bad :: (before ++ after),
    List.perm_middle.symm, ?_⟩
  rintro (isAccepted | ⟨isSkipped, -⟩)
  · exact notAccepted isAccepted
  · exact notSkipped isSkipped

/-- What is found does not depend on the order exactly when the search is
unhindered. -/
theorem forall_perm_iff :
    (∀ others, others.Perm entries →
      (Finds Skipped Accepted others ↔ ∃ entry ∈ entries, Accepted entry)) ↔
      Unhindered Skipped Accepted entries := by
  constructor
  · intro steady
    by_contra hindered
    obtain ⟨found, others, reordered, notFound⟩ := exists_perm_not_finds hindered
    exact notFound ((steady others reordered).mpr found)
  · intro unhindered others reordered
    rw [finds_iff (unhindered.of_subset reordered.subset)]
    simp only [reordered.mem_iff]

end SearchOrder

end RefinetPillars
