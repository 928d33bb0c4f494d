import Mathlib
import RefinetPillars.RunHistory

/-!
# Calls on a shared database

Calls run on connections of their own to one database, a statement at a time.
A write takes the write lock, unless another connection holds it; its effect
stays private to the connection until the commit.  A read sees the last commit,
or the connection's own writes.  A call may be aborted at any time, which rolls
its writes back.
-/

namespace RefinetPillars

namespace SharedDatabase

open RunHistory

variable {Table Request Phase : Type*}

/-- The committed content, and what the connection with the write lock has
written since. -/
structure Database (Table : Type*) where
  committed : Table
  writer : Option (Nat × Table) := none

namespace Database

/-- What a connection reads. -/
def content (db : Database Table) (connection : Nat) : Table :=
  match db.writer with
  | some (holder, pending) =>
      if holder = connection then pending else db.committed
  | none => db.committed

/-- Another connection has the write lock. -/
def Busy (db : Database Table) (connection : Nat) : Prop :=
  ∃ holder ∈ db.writer, holder.1 ≠ connection

instance (db : Database Table) (connection : Nat) :
    Decidable (db.Busy connection) :=
  inferInstanceAs (Decidable (∃ holder ∈ db.writer, holder.1 ≠ connection))

def write (db : Database Table) (connection : Nat) (change : Table → Table) :
    Database Table :=
  { db with writer := some (connection, change (db.content connection)) }

def commit (db : Database Table) (connection : Nat) : Database Table :=
  { committed := db.content connection
    writer := db.writer.filter fun holder => holder.1 ≠ connection }

def rollback (db : Database Table) (connection : Nat) : Database Table :=
  { db with writer := db.writer.filter fun holder => holder.1 ≠ connection }

end Database

/-- What a call does next, and how it goes on. -/
inductive Statement (Table Phase : Type*) where
  | read (next : Table → Phase)
  | write (change : Table → Table) (next : Table → Phase)
  | commit (next : Phase)
  | rollback (next : Phase)
  | finished

/-- How requests are carried out. -/
structure Program (Table Request Phase : Type*) where
  start : Request → Phase
  statement : Phase → Statement Table Phase
  aborted : Phase → Phase

/-- The database and the calls, each with its own connection. -/
structure World (Table Phase : Type*) where
  database : Database Table
  calls : List Phase := []

/-- A new call, the next statement of a call, or the end of one. -/
inductive Action (Request : Type*) where
  | start (request : Request)
  | step (index : Nat)
  | abort (index : Nat)
deriving DecidableEq

namespace World

variable (world : World Table Phase) (index : Nat)

/-- A call waits while another connection has the write lock. -/
def perform : Statement Table Phase → World Table Phase
  | .read next =>
      { world with
        calls := world.calls.set index (next (world.database.content index)) }
  | .write change next =>
      if world.database.Busy index then world
      else
        { database := world.database.write index change
          calls := world.calls.set index (next (world.database.content index)) }
  | .commit next =>
      { database := world.database.commit index
        calls := world.calls.set index next }
  | .rollback next =>
      { database := world.database.rollback index
        calls := world.calls.set index next }
  | .finished => world

end World

section Program

variable (program : Program Table Request Phase)

def Action.apply : Action Request → World Table Phase → World Table Phase
  | .start request, world =>
      { world with calls := world.calls ++ [program.start request] }
  | .step index, world =>
      match world.calls[index]? with
      | some phase => world.perform index (program.statement phase)
      | none => world
  | .abort index, world =>
      match world.calls[index]? with
      | some phase =>
          { database := world.database.rollback index
            calls := world.calls.set index (program.aborted phase) }
      | none => world

/-- Nothing written and no calls. -/
def World.initial (table : Table) : World Table Phase := ⟨⟨table, none⟩, []⟩

abbrev runActions (table : Table) (actions : List (Action Request)) :
    World Table Phase :=
  run (Action.apply program) (.initial table) actions

/-- Every call writes with one statement, after its reads, and then commits or
rolls back; the phases in between are the writing ones. -/
structure Program.SingleWrite (writing : Phase → Bool) : Prop where
  start : ∀ request, writing (program.start request) = false
  read : ∀ phase next, program.statement phase = .read next →
    writing phase = false ∧ ∀ table, writing (next table) = false
  write : ∀ phase change next, program.statement phase = .write change next →
    writing phase = false ∧ ∀ table, writing (next table) = true
  commit : ∀ phase next, program.statement phase = .commit next →
    writing phase = true ∧ writing next = false
  rollback : ∀ phase next, program.statement phase = .rollback next →
    writing phase = true ∧ writing next = false
  aborted : ∀ phase, writing (program.aborted phase) = false

/-- The write lock is with the call that is writing. -/
def World.Locked (writing : Phase → Bool) (world : World Table Phase) : Prop :=
  ∀ index, (∃ pending, world.database.writer = some (index, pending)) ↔
    ∃ phase, world.calls[index]? = some phase ∧ writing phase = true

/-- What an action can do. -/
inductive Effect (world : World Table Phase) :
    Action Request → World Table Phase → Prop where
  | idle (action : Action Request)
      (waits : ∀ index phase, action = .step index →
        world.calls[index]? = some phase →
        program.statement phase = .finished ∨ ∃ change next,
          program.statement phase = .write change next ∧
            world.database.writer ≠ none) : Effect world action world
  | start (request : Request) : Effect world (.start request)
      { world with calls := world.calls ++ [program.start request] }
  | read (index : Nat) (phase : Phase) (next : Table → Phase)
      (current : world.calls[index]? = some phase)
      (statement : program.statement phase = .read next) :
      Effect world (.step index)
        { world with
          calls := world.calls.set index (next world.database.committed) }
  | write (index : Nat) (phase : Phase) (change : Table → Table)
      (next : Table → Phase) (current : world.calls[index]? = some phase)
      (statement : program.statement phase = .write change next)
      (free : world.database.writer = none) :
      Effect world (.step index)
        { database := ⟨world.database.committed,
            some (index, change world.database.committed)⟩
          calls := world.calls.set index (next world.database.committed) }
  | commit (index : Nat) (phase next : Phase) (pending : Table)
      (current : world.calls[index]? = some phase)
      (statement : program.statement phase = .commit next)
      (held : world.database.writer = some (index, pending)) :
      Effect world (.step index)
        { database := ⟨pending, none⟩
          calls := world.calls.set index next }
  | rollback (index : Nat) (phase next : Phase) (pending : Table)
      (current : world.calls[index]? = some phase)
      (statement : program.statement phase = .rollback next)
      (held : world.database.writer = some (index, pending)) :
      Effect world (.step index)
        { database := ⟨world.database.committed, none⟩
          calls := world.calls.set index next }
  | abort (index : Nat) (phase : Phase)
      (current : world.calls[index]? = some phase)
      (unlocked : ∀ pending, world.database.writer ≠ some (index, pending)) :
      Effect world (.abort index)
        { world with calls := world.calls.set index (program.aborted phase) }
  | abortWrite (index : Nat) (phase : Phase) (pending : Table)
      (current : world.calls[index]? = some phase)
      (held : world.database.writer = some (index, pending)) :
      Effect world (.abort index)
        { database := ⟨world.database.committed, none⟩
          calls := world.calls.set index (program.aborted phase) }

end Program

section Database

variable {db : Database Table} {connection : Nat}

theorem Database.content_of_unlocked
    (unlocked : ∀ pending, db.writer ≠ some (connection, pending)) :
    db.content connection = db.committed := by
  unfold Database.content
  cases held : db.writer with
  | none => rfl
  | some holder =>
      obtain ⟨other, pending⟩ := holder
      have differ : other ≠ connection := by
        rintro rfl
        exact unlocked pending held
      simp only [differ, if_false]

theorem Database.content_of_held {pending : Table}
    (held : db.writer = some (connection, pending)) :
    db.content connection = pending := by
  simp only [Database.content, held, if_true]

theorem Database.rollback_of_unlocked
    (unlocked : ∀ pending, db.writer ≠ some (connection, pending)) :
    db.rollback connection = db := by
  obtain ⟨committed, writer⟩ := db
  cases writer with
  | none => rfl
  | some holder =>
      obtain ⟨other, pending⟩ := holder
      have differ : other ≠ connection := by
        rintro rfl
        exact unlocked pending rfl
      simp [Database.rollback, Option.filter, differ]

theorem Database.rollback_of_held {pending : Table}
    (held : db.writer = some (connection, pending)) :
    db.rollback connection = ⟨db.committed, none⟩ := by
  simp [Database.rollback, held, Option.filter]

theorem Database.commit_of_held {pending : Table}
    (held : db.writer = some (connection, pending)) :
    db.commit connection = ⟨pending, none⟩ := by
  simp [Database.commit, held, Option.filter, Database.content_of_held held]

end Database

section Effects

variable {program : Program Table Request Phase} {writing : Phase → Bool}
  {world next : World Table Phase} {action : Action Request}

theorem getElem?_set_of_current {calls : List Phase} {index : Nat}
    {phase : Phase} (current : calls[index]? = some phase) (after : Phase)
    (other : Nat) :
    (calls.set index after)[other]? =
      if other = index then some after else calls[other]? := by
  obtain ⟨bound, -⟩ := List.getElem?_eq_some_iff.mp current
  rw [List.getElem?_set]
  by_cases same : other = index
  · subst same
    simp only [bound, if_true]
  · rw [if_neg (Ne.symm same), if_neg same]

theorem World.Locked.unlocked (locked : world.Locked writing) {index : Nat}
    {phase : Phase} (current : world.calls[index]? = some phase)
    (idle : writing phase = false) (pending : Table) :
    world.database.writer ≠ some (index, pending) := by
  intro held
  obtain ⟨found, foundCurrent, foundWriting⟩ :=
    (locked index).mp ⟨pending, held⟩
  rw [current] at foundCurrent
  rw [← Option.some.inj foundCurrent, idle] at foundWriting
  cases foundWriting

theorem World.Locked.idle (locked : world.Locked writing) {index : Nat}
    {phase : Phase} (current : world.calls[index]? = some phase)
    (unlocked : ∀ pending, world.database.writer ≠ some (index, pending)) :
    writing phase = false := by
  rw [← Bool.not_eq_true]
  intro busy
  obtain ⟨pending, held⟩ := (locked index).mpr ⟨phase, current, busy⟩
  exact unlocked pending held

theorem effect_apply (single : program.SingleWrite writing)
    (locked : world.Locked writing) (action : Action Request) :
    Effect program world action (action.apply program world) := by
  cases action with
  | start request => exact .start request
  | abort index =>
      simp only [Action.apply]
      cases current : world.calls[index]? with
      | none => exact .idle _ nofun
      | some phase =>
          dsimp only
          by_cases held : ∃ pending,
              world.database.writer = some (index, pending)
          · obtain ⟨pending, held⟩ := held
            rw [Database.rollback_of_held held]
            exact .abortWrite index phase pending current held
          · have unlocked := not_exists.mp held
            rw [Database.rollback_of_unlocked unlocked]
            exact .abort index phase current unlocked
  | step index =>
      simp only [Action.apply]
      cases current : world.calls[index]? with
      | none =>
          refine .idle _ ?_
          rintro other phase ⟨⟩ found
          rw [current] at found
          cases found
      | some phase =>
          dsimp only
          cases statement : program.statement phase with
          | finished =>
              refine .idle _ ?_
              rintro other found ⟨⟩ foundAt
              rw [current] at foundAt
              exact Or.inl (Option.some.inj foundAt ▸ statement)
          | read next =>
              have unlocked :=
                locked.unlocked current (single.read _ _ statement).1
              simp only [World.perform]
              rw [Database.content_of_unlocked unlocked]
              exact .read index phase next current statement
          | write change next =>
              have unlocked :=
                locked.unlocked current (single.write _ _ _ statement).1
              simp only [World.perform]
              by_cases busy : world.database.Busy index
              · simp only [busy, if_true]
                refine .idle _ ?_
                rintro other found ⟨⟩ foundAt
                rw [current] at foundAt
                refine Or.inr ⟨change, next,
                  Option.some.inj foundAt ▸ statement, fun free => ?_⟩
                obtain ⟨holder, held, -⟩ := busy
                rw [free] at held
                cases held
              · have free : world.database.writer = none := by
                  cases held : world.database.writer with
                  | none => rfl
                  | some holder =>
                      obtain ⟨other, pending⟩ := holder
                      by_cases same : other = index
                      · exact absurd (same ▸ held) (unlocked pending)
                      · exact absurd ⟨_, held, same⟩ busy
                simp only [busy, if_false]
                unfold Database.write
                rw [Database.content_of_unlocked unlocked]
                exact .write index phase change next current statement free
          | commit next =>
              obtain ⟨pending, held⟩ := (locked index).mpr
                ⟨phase, current, (single.commit _ _ statement).1⟩
              simp only [World.perform]
              rw [Database.commit_of_held held]
              exact .commit index phase next pending current statement held
          | rollback next =>
              obtain ⟨pending, held⟩ := (locked index).mpr
                ⟨phase, current, (single.rollback _ _ statement).1⟩
              simp only [World.perform]
              rw [Database.rollback_of_held held]
              exact .rollback index phase next pending current statement held

/-- The lock after a call has moved on. -/
theorem World.Locked.moved (locked : world.Locked writing) {index : Nat}
    {phase after : Phase} (current : world.calls[index]? = some phase)
    {writer : Option (Nat × Table)} (committed : Table)
    (others : ∀ other ≠ index, (∃ pending, writer = some (other, pending)) ↔
      ∃ pending, world.database.writer = some (other, pending))
    (here : (∃ pending, writer = some (index, pending)) ↔
      writing after = true) :
    World.Locked writing
      ⟨⟨committed, writer⟩, world.calls.set index after⟩ := by
  intro other
  dsimp only
  rw [getElem?_set_of_current current]
  by_cases same : other = index
  · rw [same, here]
    simp
  · simp only [same, if_false]
    exact (others other same).trans (locked other)

theorem World.Locked.effect (locked : world.Locked writing)
    (single : program.SingleWrite writing)
    (effect : Effect program world action next) : next.Locked writing := by
  cases effect with
  | idle => exact locked
  | start request =>
      intro index
      refine (locked index).trans ?_
      dsimp only
      rw [List.getElem?_append]
      by_cases bound : index < world.calls.length
      · simp only [bound, if_true]
      · rw [if_neg bound, List.getElem?_eq_none (by omega)]
        constructor
        · rintro ⟨phase, absent, -⟩
          cases absent
        · rintro ⟨phase, current, busy⟩
          obtain ⟨-, rfl⟩ : _ ∧ program.start request = phase := by
            simpa [List.getElem?_singleton] using current
          rw [single.start] at busy
          cases busy
  | read index phase next current statement =>
      obtain ⟨idle, idleNext⟩ := single.read _ _ statement
      refine locked.moved current _ (fun _ _ => Iff.rfl) ?_
      simp only [idleNext, Bool.false_eq_true, iff_false, not_exists]
      exact locked.unlocked current idle
  | write index phase change next current statement free =>
      obtain ⟨-, busyNext⟩ := single.write _ _ _ statement
      refine locked.moved current _ (fun other differ => ?_) ?_
      · simp [free, Ne.symm differ]
      · simp [busyNext]
  | commit index phase next pending current statement held =>
      refine locked.moved current _ (fun other differ => ?_) ?_
      · simp [held, Ne.symm differ]
      · simp [(single.commit _ _ statement).2]
  | rollback index phase next pending current statement held =>
      refine locked.moved current _ (fun other differ => ?_) ?_
      · simp [held, Ne.symm differ]
      · simp [(single.rollback _ _ statement).2]
  | abort index phase current unlocked =>
      refine locked.moved current _ (fun _ _ => Iff.rfl) ?_
      simp only [single.aborted, Bool.false_eq_true, iff_false, not_exists]
      exact unlocked
  | abortWrite index phase pending current held =>
      refine locked.moved current _ (fun other differ => ?_) ?_
      · simp [held, Ne.symm differ]
      · simp [single.aborted]

/-- A call that is over stays as it is. -/
theorem Effect.stays (effect : Effect program world action next)
    {index : Nat} {phase : Phase}
    (current : world.calls[index]? = some phase)
    (finished : program.statement phase = .finished)
    (kept : program.aborted phase = phase) :
    next.calls[index]? = some phase := by
  cases effect with
  | idle => exact current
  | start request =>
      obtain ⟨bound, -⟩ := List.getElem?_eq_some_iff.mp current
      dsimp only
      rw [List.getElem?_append_left bound, current]
  | abort moved other movedCurrent =>
      dsimp only
      rw [getElem?_set_of_current movedCurrent]
      by_cases same : index = moved
      · obtain rfl : phase = other := by
          rw [same, movedCurrent] at current
          exact (Option.some.inj current).symm
        rw [if_pos same, kept]
      · rw [if_neg same, current]
  | abortWrite moved other pending movedCurrent =>
      dsimp only
      rw [getElem?_set_of_current movedCurrent]
      by_cases same : index = moved
      · obtain rfl : phase = other := by
          rw [same, movedCurrent] at current
          exact (Option.some.inj current).symm
        rw [if_pos same, kept]
      · rw [if_neg same, current]
  | read moved other _ movedCurrent statement
  | write moved other _ _ movedCurrent statement
  | commit moved other _ _ movedCurrent statement
  | rollback moved other _ _ movedCurrent statement =>
      have differ : index ≠ moved := by
        rintro rfl
        rw [movedCurrent] at current
        rw [Option.some.inj current, finished] at statement
        cases statement
      dsimp only
      rw [getElem?_set_of_current movedCurrent, if_neg differ, current]

/-- A call of the next state was there before or is the one that moved. -/
theorem getElem?_set_cases {calls : List Phase} {index other : Nat}
    {phase after found : Phase} (current : calls[index]? = some phase)
    (foundAt : (calls.set index after)[other]? = some found) :
    (other = index ∧ found = after) ∨
      (other ≠ index ∧ calls[other]? = some found) := by
  rw [getElem?_set_of_current current] at foundAt
  by_cases same : other = index
  · rw [if_pos same] at foundAt
    exact Or.inl ⟨same, (Option.some.inj foundAt).symm⟩
  · rw [if_neg same] at foundAt
    exact Or.inr ⟨same, foundAt⟩

theorem getElem?_append_cases {calls : List Phase} {other : Nat}
    {after found : Phase}
    (foundAt : (calls ++ [after])[other]? = some found) :
    (other = calls.length ∧ found = after) ∨ calls[other]? = some found := by
  rw [List.getElem?_append] at foundAt
  by_cases bound : other < calls.length
  · rw [if_pos bound] at foundAt
    exact Or.inr foundAt
  · rw [if_neg bound] at foundAt
    obtain ⟨beyond, rfl⟩ : other - calls.length = 0 ∧ after = found := by
      simpa [List.getElem?_singleton] using foundAt
    exact Or.inl ⟨by omega, rfl⟩

theorem locked_initial (table : Table) :
    (World.initial table : World Table Phase).Locked writing := by
  intro index
  simp [World.initial]

theorem locked_runActions (single : program.SingleWrite writing)
    (table : Table) (actions : List (Action Request)) :
    (runActions program table actions).Locked writing := by
  induction actions with
  | nil => exact locked_initial table
  | cons action actions ih => exact ih.effect single (effect_apply single ih _)

/-- An invariant kept by every effect of an allowed action holds after every
admitted run. -/
theorem runActions_invariant {table : Table}
    {allowed : Action Request → World Table Phase → Prop}
    {invariant : World Table Phase → Prop} {actions : List (Action Request)}
    (single : program.SingleWrite writing)
    (admitted : Admitted (Action.apply program) (World.initial table) allowed
      actions)
    (initially : invariant (.initial table))
    (kept : ∀ action world next, world.Locked writing → allowed action world →
      Effect program world action next → invariant world → invariant next) :
    invariant (runActions program table actions) := by
  induction actions with
  | nil => exact initially
  | cons action actions ih =>
      have before := locked_runActions single table actions
      exact kept action _ _ before
        (admitted action actions (List.suffix_refl _))
        (effect_apply single before action)
        (ih (admitted.of_suffix (List.suffix_cons action actions)))

end Effects

end SharedDatabase

end RefinetPillars
