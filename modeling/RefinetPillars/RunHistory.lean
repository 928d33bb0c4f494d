import Mathlib

/-!
# Histories of deterministic runs

A run applies a list of inputs, newest first, to a starting state.  Every suffix
of the list is an earlier moment of the run.  This file has the induction rule
for runs, properties that hold throughout a stretch of a run, and the states in
force at an instant when every input carries a time.
-/

namespace RefinetPillars

namespace RunHistory

variable {State Input : Type*}

/-- The state after a list of inputs, newest first. -/
def run (apply : Input → State → State) (start : State) : List Input → State
  | [] => start
  | input :: inputs => apply input (run apply start inputs)

variable {apply : Input → State → State} {start : State}

@[simp]
theorem run_nil : run apply start [] = start := rfl

@[simp]
theorem run_cons (input : Input) (inputs : List Input) :
    run apply start (input :: inputs) =
      apply input (run apply start inputs) := rfl

theorem run_append (later earlier : List Input) :
    run apply start (later ++ earlier) =
      run apply (run apply start earlier) later := by
  induction later with
  | nil => rfl
  | cons input later ih => simp [ih]

/-- An invariant kept by every admitted input holds after every admitted
run. -/
theorem run_invariant {invariant : State → Prop} {admitted : Input → Prop}
    {inputs : List Input} (initially : invariant start)
    (kept : ∀ input state, admitted input → invariant state →
      invariant (apply input state))
    (allAdmitted : ∀ input ∈ inputs, admitted input) :
    invariant (run apply start inputs) := by
  induction inputs with
  | nil => exact initially
  | cons input inputs ih =>
      apply kept input _ (allAdmitted input (by simp))
      exact ih fun member memberMem => allAdmitted member (by simp [memberMem])

/-- Every input of a run is allowed in the state it meets. -/
def Admitted (apply : Input → State → State) (start : State)
    (allowed : Input → State → Prop) (inputs : List Input) : Prop :=
  ∀ input earlier, input :: earlier <:+ inputs →
    allowed input (run apply start earlier)

theorem Admitted.of_suffix {allowed : Input → State → Prop}
    {earlier inputs : List Input}
    (admitted : Admitted apply start allowed inputs)
    (suffix : earlier <:+ inputs) : Admitted apply start allowed earlier :=
  fun input moment before => admitted input moment (before.trans suffix)

theorem admitted_nil {allowed : Input → State → Prop} :
    Admitted apply start allowed [] := by
  intro input earlier suffix
  cases List.suffix_nil.mp suffix

theorem Admitted.cons {allowed : Input → State → Prop} {input : Input}
    {inputs : List Input} (admitted : Admitted apply start allowed inputs)
    (newest : allowed input (run apply start inputs)) :
    Admitted apply start allowed (input :: inputs) := by
  intro member earlier suffix
  rcases List.suffix_cons_iff.mp suffix with whole | older
  · obtain ⟨rfl, rfl⟩ := List.cons.inj whole
    exact newest
  · exact admitted member earlier older

theorem admitted_cons_iff {allowed : Input → State → Prop} {input : Input}
    {inputs : List Input} :
    Admitted apply start allowed (input :: inputs) ↔
      Admitted apply start allowed inputs ∧
        allowed input (run apply start inputs) :=
  ⟨fun admitted => ⟨admitted.of_suffix (List.suffix_cons input inputs),
    admitted input inputs (List.suffix_refl _)⟩,
    fun ⟨earlier, newest⟩ => earlier.cons newest⟩

instance decidableAdmitted {allowed : Input → State → Prop}
    [∀ input state, Decidable (allowed input state)] :
    (inputs : List Input) → Decidable (Admitted apply start allowed inputs)
  | [] => isTrue admitted_nil
  | _ :: inputs =>
      have : Decidable (Admitted apply start allowed inputs) :=
        decidableAdmitted inputs
      decidable_of_iff' _ admitted_cons_iff

/-- An invariant kept by every input allowed in its state holds after every
admitted run. -/
theorem Admitted.invariant {allowed : Input → State → Prop}
    {invariant : State → Prop} {inputs : List Input}
    (admitted : Admitted apply start allowed inputs)
    (initially : invariant start)
    (kept : ∀ input state, allowed input state → invariant state →
      invariant (apply input state)) :
    invariant (run apply start inputs) := by
  induction inputs with
  | nil => exact initially
  | cons input inputs ih =>
      apply kept input _ (admitted input inputs (List.suffix_refl _))
      exact ih (admitted.of_suffix (List.suffix_cons input inputs))

/-- The property holds from the earlier moment on, in every state the run
passes through up to now. -/
def Throughout (apply : Input → State → State) (start : State)
    (property : State → Prop) (earlier inputs : List Input) : Prop :=
  earlier <:+ inputs ∧ ∀ moment, earlier <:+ moment → moment <:+ inputs →
    property (run apply start moment)

namespace Throughout

variable {property : State → Prop} {earlier inputs : List Input}

theorem now (throughout : Throughout apply start property earlier inputs) :
    property (run apply start inputs) :=
  throughout.2 inputs throughout.1 (List.suffix_refl inputs)

theorem initially (throughout : Throughout apply start property earlier inputs) :
    property (run apply start earlier) :=
  throughout.2 earlier (List.suffix_refl earlier) throughout.1

theorem refl (holds : property (run apply start inputs)) :
    Throughout apply start property inputs inputs := by
  refine ⟨List.suffix_refl inputs, fun moment after before => ?_⟩
  rw [before.eq_of_length_le after.length_le]
  exact holds

/-- A stretch that started earlier grows by one input as long as the property
still holds. -/
theorem cons_iff {input : Input} (proper : earlier <:+ inputs) :
    Throughout apply start property earlier (input :: inputs) ↔
      Throughout apply start property earlier inputs ∧
        property (run apply start (input :: inputs)) := by
  constructor
  · intro throughout
    refine ⟨⟨proper, fun moment after before => ?_⟩, throughout.now⟩
    exact throughout.2 moment after
      (before.trans (List.suffix_cons input inputs))
  · rintro ⟨throughout, holds⟩
    refine ⟨proper.trans (List.suffix_cons input inputs), ?_⟩
    intro moment after before
    rcases List.suffix_cons_iff.mp before with atEnd | earlierMoment
    · rw [atEnd]
      exact holds
    · exact throughout.2 moment after earlierMoment

theorem within {first last : List Input}
    (throughout : Throughout apply start property earlier inputs)
    (after : earlier <:+ first) (order : first <:+ last)
    (before : last <:+ inputs) :
    Throughout apply start property first last :=
  ⟨order, fun moment later sooner =>
    throughout.2 moment (after.trans later) (sooner.trans before)⟩

theorem mono {stronger : State → Prop}
    (throughout : Throughout apply start stronger earlier inputs)
    (implies : ∀ state, stronger state → property state) :
    Throughout apply start property earlier inputs :=
  ⟨throughout.1, fun moment after before =>
    implies _ (throughout.2 moment after before)⟩

end Throughout

/-- A property that has come true since an earlier moment has a newest input
that made it true, and has held ever since. -/
theorem exists_onset (property : State → Prop) {earlier inputs : List Input}
    (suffix : earlier <:+ inputs)
    (before : ¬ property (run apply start earlier))
    (now : property (run apply start inputs)) :
    ∃ input moment, earlier <:+ moment ∧
      ¬ property (run apply start moment) ∧
      Throughout apply start property (input :: moment) inputs := by
  induction inputs with
  | nil =>
      rw [List.suffix_nil.mp suffix] at before
      exact (before now).elim
  | cons input inputs ih =>
      rcases List.suffix_cons_iff.mp suffix with atEnd | older
      · rw [atEnd] at before
        exact (before now).elim
      · by_cases held : property (run apply start inputs)
        · obtain ⟨onset, moment, after, absent, throughout⟩ := ih older held
          exact ⟨onset, moment, after, absent,
            (Throughout.cons_iff throughout.1).mpr ⟨throughout, now⟩⟩
        · exact ⟨input, inputs, older, held, .refl now⟩

section Time

variable (time : Input → Nat)

/-- The inputs come in the order of their times. -/
def Chronological (inputs : List Input) : Prop :=
  inputs.Pairwise fun later earlier => time earlier ≤ time later

theorem chronological_cons {input : Input} {inputs : List Input} :
    Chronological time (input :: inputs) ↔
      (∀ earlier ∈ inputs, time earlier ≤ time input) ∧
        Chronological time inputs :=
  List.pairwise_cons

/-- A state the run is in at an instant: every input before it happens no later
than the instant, and every input after it no earlier. -/
def InForce (apply : Input → State → State) (start : State)
    (inputs : List Input) (instant : Nat) (state : State) : Prop :=
  ∃ later earlier, inputs = later ++ earlier ∧
    state = run apply start earlier ∧
    (∀ input ∈ later, instant ≤ time input) ∧
    ∀ input ∈ earlier, time input ≤ instant

/-- A state in force is either the newest one, or was in force before the
newest input and at an instant no later than it. -/
theorem inForce_cons {input : Input} {inputs : List Input} {instant : Nat}
    {state : State} :
    InForce time apply start (input :: inputs) instant state ↔
      (state = run apply start (input :: inputs) ∧
        ∀ member ∈ input :: inputs, time member ≤ instant) ∨
      (instant ≤ time input ∧
        InForce time apply start inputs instant state) := by
  constructor
  · rintro ⟨later, earlier, split, stateEq, laterTimes, earlierTimes⟩
    cases later with
    | nil =>
        obtain rfl : input :: inputs = earlier := split
        exact Or.inl ⟨stateEq, earlierTimes⟩
    | cons newest later =>
        simp only [List.cons_append, List.cons.injEq] at split
        obtain ⟨rfl, rfl⟩ := split
        exact Or.inr ⟨laterTimes input (by simp), later, earlier, rfl, stateEq,
          fun member memberMem => laterTimes member (by simp [memberMem]),
          earlierTimes⟩
  · rintro (⟨stateEq, times⟩ | ⟨early, later, earlier, rfl, stateEq,
      laterTimes, earlierTimes⟩)
    · exact ⟨[], input :: inputs, rfl, stateEq, by simp, times⟩
    · refine ⟨input :: later, earlier, rfl, stateEq, ?_, earlierTimes⟩
      intro member memberMem
      rcases List.mem_cons.mp memberMem with rfl | memberMem
      · exact early
      · exact laterTimes member memberMem

end Time

end RunHistory

end RefinetPillars
