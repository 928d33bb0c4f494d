import Mathlib
import RefinetPillars.ReentrantCode

/-!
# The call stack of a reentered contract

While a contract waits for an external call, the callee may call any of its
entry points, and those calls may hand over control in turn.  The machine below
has one frame for every suspended call.  Its states are exactly the moments at
which control is outside the contract, so a property of all reachable machines
holds at every such moment, for every script of calls and every nesting.

The main result is the rule for contracts that only make external calls while
their reentrancy guard is held: it suffices to check each entry point once with
the guard free and once with the guard held.
-/

namespace RefinetPillars

namespace ReentrantCode

/-- A suspended call: the state to restore if it fails, and the code that runs
when control returns to it. -/
structure Frame (World Error Request : Type) where
  saved : Guarded World
  resume : Guarded World → Outcome World Error Request Unit

/-- A moment at which control is outside the contract. -/
structure Machine (World Error Request : Type) where
  state : Guarded World
  stack : List (Frame World Error Request)

variable {World Error Request Call : Type}

/-- One move of the parties outside the contract.  They change what is theirs
to change, call an entry point, return to the innermost suspended call, or
fail it. -/
inductive Machine.Step (entry : Call → Code World Error Request Unit)
    (disturbs : World → World → Prop) :
    Machine World Error Request → Machine World Error Request → Prop
  | disturb {world disturbed : World} {entered : Bool}
      {stack : List (Frame World Error Request)}
      (permitted : disturbs world disturbed) :
      Step entry disturbs ⟨⟨world, entered⟩, stack⟩
        ⟨⟨disturbed, entered⟩, stack⟩
  | callReverts {state : Guarded World}
      {stack : List (Frame World Error Request)} (call : Call) {error : Error}
      (reverts : entry call state = .revert error) :
      Step entry disturbs ⟨state, stack⟩ ⟨state, stack⟩
  | callReturns {state final : Guarded World}
      {stack : List (Frame World Error Request)} (call : Call)
      (returns : entry call state = .done () final) :
      Step entry disturbs ⟨state, stack⟩ ⟨final, stack⟩
  | callExits {state final : Guarded World}
      {stack : List (Frame World Error Request)} (call : Call)
      {request : Request}
      {resume : Guarded World → Outcome World Error Request Unit}
      (exits : entry call state = .external request final resume) :
      Step entry disturbs ⟨state, stack⟩ ⟨final, ⟨state, resume⟩ :: stack⟩
  | resumeReverts {state : Guarded World} {frame : Frame World Error Request}
      {stack : List (Frame World Error Request)} {error : Error}
      (reverts : frame.resume state = .revert error) :
      Step entry disturbs ⟨state, frame :: stack⟩ ⟨frame.saved, stack⟩
  | resumeReturns {state final : Guarded World}
      {frame : Frame World Error Request}
      {stack : List (Frame World Error Request)}
      (returns : frame.resume state = .done () final) :
      Step entry disturbs ⟨state, frame :: stack⟩ ⟨final, stack⟩
  | resumeExits {state final : Guarded World}
      {frame : Frame World Error Request}
      {stack : List (Frame World Error Request)} {request : Request}
      {resume : Guarded World → Outcome World Error Request Unit}
      (exits : frame.resume state = .external request final resume) :
      Step entry disturbs ⟨state, frame :: stack⟩
        ⟨final, ⟨frame.saved, resume⟩ :: stack⟩
  | callFails {state : Guarded World} {frame : Frame World Error Request}
      {stack : List (Frame World Error Request)} :
      Step entry disturbs ⟨state, frame :: stack⟩ ⟨frame.saved, stack⟩

/-- Any finite number of moves. -/
def Machine.Reaches (entry : Call → Code World Error Request Unit)
    (disturbs : World → World → Prop) :
    Machine World Error Request → Machine World Error Request → Prop :=
  Relation.ReflTransGen (Machine.Step entry disturbs)

/-- Control leaves the contract with the guard held and the invariant
intact. -/
def Exits (good : World → Prop) (state : Guarded World) : Prop :=
  state.entered = true ∧ good state.world

/-- Control comes back with the guard still held, the invariant intact, and
changes allowed by the rely relation. -/
def Returns (good : World → Prop) (rely : World → World → Prop)
    (state returned : Guarded World) : Prop :=
  returned.entered = true ∧ good returned.world ∧
    rely state.world returned.world

/-- A call ends with the guard free and the invariant intact. -/
def Ends (good : World → Prop) (state : Guarded World) : Prop :=
  state.entered = false ∧ good state.world

/-- What a contract has to satisfy so that its guard protects an invariant:
calls made while the guard is held neither hand over control nor change more
than the rely relation admits, and calls made while it is free keep the
invariant whatever happens in between. -/
structure GuardDiscipline (entry : Call → Code World Error Request Unit)
    (disturbs : World → World → Prop) (good : World → Prop)
    (rely : World → World → Prop) : Prop where
  rely_refl : ∀ world : World, rely world world
  rely_trans : ∀ {first middle last : World},
    rely first middle → rely middle last → rely first last
  disturbed : ∀ {world changed : World},
    good world → disturbs world changed →
      good changed ∧ rely world changed
  held : ∀ (call : Call) {world : World}, good world →
    (entry call ⟨world, true⟩).Ensures (fun _ _ => True) (fun _ => False)
      fun _ => Returns good rely ⟨world, true⟩
  free : ∀ (call : Call) {world : World}, good world →
    (entry call ⟨world, false⟩).Ensures (Returns good rely) (Exits good)
      fun _ => Ends good

/-- The machine invariant behind the guard discipline: at most one call is
suspended, exactly while the guard is held, and it may be resumed in any state
the rely relation admits from here. -/
inductive Machine.Disciplined (good : World → Prop)
    (rely : World → World → Prop) : Machine World Error Request → Prop
  | idle {state : Guarded World} (ends : Ends good state) :
      Disciplined good rely ⟨state, []⟩
  | suspended {state : Guarded World} {frame : Frame World Error Request}
      (exits : Exits good state) (restores : Ends good frame.saved)
      (resumes : ∀ returned, Returns good rely state returned →
        (frame.resume returned).Ensures (Returns good rely) (Exits good)
          fun _ => Ends good) :
      Disciplined good rely ⟨state, [frame]⟩

theorem Machine.Disciplined.good {good : World → Prop}
    {rely : World → World → Prop} {machine : Machine World Error Request}
    (disciplined : machine.Disciplined good rely) :
    good machine.state.world := by
  cases disciplined with
  | idle ends => exact ends.2
  | suspended exits restores resumes => exact exits.2

namespace GuardDiscipline

variable {entry : Call → Code World Error Request Unit}
  {disturbs : World → World → Prop} {good : World → Prop}
  {rely : World → World → Prop}

/-- A change admitted while a call is suspended leaves it resumable. -/
theorem resumes_of_rely
    (discipline : GuardDiscipline entry disturbs good rely)
    {state changed : Guarded World} {frame : Frame World Error Request}
    (relied : rely state.world changed.world)
    (resumes : ∀ returned, Returns good rely state returned →
      (frame.resume returned).Ensures (Returns good rely) (Exits good)
        fun _ => Ends good) :
    ∀ returned, Returns good rely changed returned →
      (frame.resume returned).Ensures (Returns good rely) (Exits good)
        fun _ => Ends good :=
  fun returned ⟨entered, kept, further⟩ =>
    resumes returned ⟨entered, kept, discipline.rely_trans relied further⟩

/-- One move keeps the machine disciplined. -/
theorem step (discipline : GuardDiscipline entry disturbs good rely)
    {before after : Machine World Error Request}
    (disciplined : before.Disciplined good rely)
    (move : Machine.Step entry disturbs before after) :
    after.Disciplined good rely := by
  cases disciplined with
  | @idle state ends =>
      obtain ⟨world, entered⟩ := state
      obtain ⟨rfl, kept⟩ : entered = false ∧ good world := ends
      cases move with
      | disturb permitted =>
          exact .idle ⟨rfl, (discipline.disturbed kept permitted).1⟩
      | callReverts call reverts => exact .idle ⟨rfl, kept⟩
      | callReturns call returns =>
          have ensured := discipline.free call kept
          rw [returns] at ensured
          exact .idle ensured
      | callExits call exits =>
          have ensured := discipline.free call kept
          rw [exits] at ensured
          exact .suspended ensured.1 ⟨rfl, kept⟩ ensured.2
  | @suspended state frame exits restores resumes =>
      obtain ⟨world, entered⟩ := state
      obtain ⟨rfl, kept⟩ : entered = true ∧ good world := exits
      cases move with
      | disturb permitted =>
          obtain ⟨changedGood, relied⟩ := discipline.disturbed kept permitted
          exact .suspended ⟨rfl, changedGood⟩ restores
            (discipline.resumes_of_rely relied resumes)
      | callReverts call reverts =>
          exact .suspended ⟨rfl, kept⟩ restores resumes
      | callReturns call returns =>
          have ensured := discipline.held call kept
          rw [returns] at ensured
          exact .suspended ⟨ensured.1, ensured.2.1⟩ restores
            (discipline.resumes_of_rely ensured.2.2 resumes)
      | callExits call exits =>
          -- A call under the guard cannot hand over control.
          have ensured := discipline.held call kept
          rw [exits] at ensured
          exact ensured.1.elim
      | resumeReverts reverts => exact .idle restores
      | resumeReturns returns =>
          have ensured := resumes ⟨world, true⟩
            ⟨rfl, kept, discipline.rely_refl world⟩
          rw [returns] at ensured
          exact .idle ensured
      | resumeExits exits =>
          have ensured := resumes ⟨world, true⟩
            ⟨rfl, kept, discipline.rely_refl world⟩
          rw [exits] at ensured
          exact .suspended ensured.1 restores ensured.2
      | callFails => exact .idle restores

/-- The invariant holds whenever control is outside the contract. -/
theorem reaches (discipline : GuardDiscipline entry disturbs good rely)
    {start machine : Machine World Error Request}
    (disciplined : start.Disciplined good rely)
    (run : start.Reaches entry disturbs machine) :
    machine.Disciplined good rely := by
  induction run with
  | refl => exact disciplined
  | tail _ move ih => exact discipline.step ih move

/-- A transaction executed against a callee that does not call back keeps the
invariant and leaves the guard free. -/
theorem settle (discipline : GuardDiscipline entry disturbs good rely)
    (call : Call) {world : World} {final : Guarded World}
    {answer : Request → World → Option World}
    (kept : good world)
    (answers : ∀ request before after,
      answer request before = some after → disturbs before after)
    (settled : (entry call ⟨world, false⟩).settle answer = .ok ((), final)) :
    Ends good final := by
  apply (discipline.free call kept).settle _ settled
  intro request state changed exits answered
  have disturbed := discipline.disturbed exits.2
    (answers request state.world changed answered)
  exact ⟨exits.1, disturbed.1, disturbed.2⟩

end GuardDiscipline

end ReentrantCode

end RefinetPillars
