import RefinetPillars.RunHistory

/-!
# The newest write

Some part of a state is written by certain inputs of a run and kept by all
others.  Its value after the run is then the one that the newest of them wrote,
or the first value if none did.
-/

namespace RefinetPillars

namespace NewestWrite

open RunHistory

variable {State Input Value : Type*}

/-- What `observe` sees of a state is set by the inputs that write it and kept
by the others. -/
structure Register (apply : Input → State → State) (observe : State → Value)
    (writes : Input → State → Value → Prop) : Prop where
  written : ∀ {input : Input} {state : State} {value : Value},
    writes input state value → observe (apply input state) = value
  kept : ∀ {input : Input} {state : State},
    (∀ value, ¬ writes input state value) →
      observe (apply input state) = observe state

section Writes

variable (apply : Input → State → State) (start : State)
  (writes : Input → State → Value → Prop)

/-- No input after the earlier moment writes. -/
def Unwritten (later earlier : List Input) : Prop :=
  ∀ input moment, input :: moment <:+ later →
    ∀ value, ¬ writes input (run apply start (moment ++ earlier)) value

/-- The newest write of a run. -/
def Newest (inputs : List Input) (value : Value) : Prop :=
  ∃ later input earlier, inputs = later ++ input :: earlier ∧
    writes input (run apply start earlier) value ∧
    Unwritten apply start writes later (input :: earlier)

end Writes

variable {apply : Input → State → State} {start : State}
  {writes : Input → State → Value → Prop} {observe : State → Value}
  {later earlier inputs : List Input} {value : Value}

theorem unwritten_nil : Unwritten apply start writes [] earlier := by
  intro input moment suffix
  cases List.suffix_nil.mp suffix

theorem unwritten_cons {input : Input} :
    Unwritten apply start writes (input :: later) earlier ↔
      (∀ value, ¬ writes input (run apply start (later ++ earlier)) value) ∧
        Unwritten apply start writes later earlier := by
  constructor
  · intro unwritten
    refine ⟨unwritten input later (List.suffix_refl _), ?_⟩
    intro member moment suffix
    exact unwritten member moment (suffix.trans (List.suffix_cons input later))
  · rintro ⟨newest, unwritten⟩ member moment suffix
    rcases List.suffix_cons_iff.mp suffix with whole | older
    · obtain ⟨rfl, rfl⟩ := List.cons.inj whole
      exact newest
    · exact unwritten member moment older

namespace Register

/-- Where nothing is written, nothing changes. -/
theorem observe_unwritten (register : Register apply observe writes)
    (unwritten : Unwritten apply start writes later earlier) :
    observe (run apply start (later ++ earlier)) =
      observe (run apply start earlier) := by
  induction later with
  | nil => rfl
  | cons input later ih =>
      obtain ⟨silent, unwritten⟩ := unwritten_cons.mp unwritten
      rw [List.cons_append, run_cons, register.kept silent, ih unwritten]

/-- Either some input of a run is the newest to write, or none writes. -/
theorem exists_newest_or_unwritten (apply : Input → State → State)
    (start : State) (writes : Input → State → Value → Prop)
    (inputs : List Input) :
    (∃ value, Newest apply start writes inputs value) ∨
      Unwritten apply start writes inputs [] := by
  induction inputs with
  | nil => exact Or.inr unwritten_nil
  | cons input inputs ih =>
      by_cases silent : ∀ value, ¬ writes input (run apply start inputs) value
      · rcases ih with ⟨value, later, writer, earlier, rfl, wrote, after⟩ |
          unwritten
        · exact Or.inl ⟨value, input :: later, writer, earlier, rfl, wrote,
            unwritten_cons.mpr ⟨silent, after⟩⟩
        · exact Or.inr (unwritten_cons.mpr
            ⟨by simpa using silent, unwritten⟩)
      · push Not at silent
        obtain ⟨value, wrote⟩ := silent
        exact Or.inl ⟨value, [], input, inputs, rfl, wrote, unwritten_nil⟩

/-- The value after a run is what the newest write left. -/
theorem observe_newest (register : Register apply observe writes)
    (newest : Newest apply start writes inputs value) :
    observe (run apply start inputs) = value := by
  obtain ⟨later, input, earlier, rfl, wrote, after⟩ := newest
  rw [register.observe_unwritten after, run_cons, register.written wrote]

/-- The value after a run is what the newest write left, or the first value if
there was no write. -/
theorem observe_eq_iff (register : Register apply observe writes)
    (start : State) (inputs : List Input) (value : Value) :
    observe (run apply start inputs) = value ↔
      Newest apply start writes inputs value ∨
        Unwritten apply start writes inputs [] ∧ observe start = value := by
  constructor
  · rintro rfl
    rcases exists_newest_or_unwritten apply start writes inputs with
      ⟨value, newest⟩ | unwritten
    · rw [register.observe_newest newest]
      exact Or.inl newest
    · have same := register.observe_unwritten unwritten
      rw [List.append_nil] at same
      exact Or.inr ⟨unwritten, same.symm⟩
  · rintro (newest | ⟨unwritten, rfl⟩)
    · exact register.observe_newest newest
    · have same := register.observe_unwritten unwritten
      rwa [List.append_nil] at same

end Register

end NewestWrite

end RefinetPillars
