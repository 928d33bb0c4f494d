import Mathlib

/-!
# Computations that may raise an exception

When a sequence, a loop or a map of computations succeeds, and which exceptions
it may raise.
-/

namespace RefinetPillars

namespace ExceptRules

variable {Error Entry : Type*} {Value Result : Type}

theorem ok_bind {value : Value} {next : Value → Except Error Result} :
    Except.ok value >>= next = next value := rfl

theorem error_bind {raised : Error} {next : Value → Except Error Result} :
    Except.error raised >>= next = .error raised := rfl

theorem bind_eq_ok {action : Except Error Value}
    {next : Value → Except Error Result} {result : Result} :
    action >>= next = .ok result ↔
      ∃ value, action = .ok value ∧ next value = .ok result := by
  cases action with
  | ok value =>
      constructor
      · exact fun done => ⟨value, rfl, done⟩
      · rintro ⟨_, ⟨⟩, done⟩
        exact done
  | error raised =>
      constructor
      · exact nofun
      · rintro ⟨_, ⟨⟩, _⟩

/-- Two computations that begin alike raise an exception alike when what follows
does. -/
theorem bind_error_congr {action : Except Error Value}
    {first second : Value → Except Error Result} {raised : Error}
    (failed : action >>= first = .error raised)
    (alike : ∀ value, action = .ok value → first value = .error raised →
      second value = .error raised) :
    action >>= second = .error raised := by
  cases action with
  | ok value => exact alike value rfl failed
  | error other => exact congrArg Except.error (Except.error.inj failed)

/-- What follows a check that raises succeeds only when the check passes. -/
theorem guard_eq_ok {failing : Prop} [Decidable failing] {raised : Error}
    {next : PUnit → Except Error Result} {result : Result} :
    (if failing then throw raised >>= next else next PUnit.unit) =
        .ok result ↔
      ¬ failing ∧ next PUnit.unit = .ok result := by
  by_cases fails : failing
  · rw [if_pos fails]
    exact iff_of_false nofun fun passed => passed.1 fails
  · rw [if_neg fails]
    exact (and_iff_right fails).symm

theorem mapError_eq_ok {Other : Type*} {action : Except Error Value}
    {convert : Error → Other} {value : Value} :
    action.mapError convert = .ok value ↔ action = .ok value := by
  cases action <;> simp [Except.mapError]

/-- A loop succeeds when every entry does. -/
theorem forM_eq_ok {entries : List Entry} {check : Entry → Except Error Unit} :
    entries.forM check = .ok () ↔ ∀ entry ∈ entries, check entry = .ok () := by
  induction entries with
  | nil => exact ⟨fun _ _ member => (List.not_mem_nil member).elim, fun _ => rfl⟩
  | cons entry entries ih =>
      change (check entry >>= fun _ => entries.forM check) = .ok () ↔ _
      rw [bind_eq_ok, List.forall_mem_cons, ← ih]
      exact ⟨fun ⟨_, first, rest⟩ => ⟨first, rest⟩,
        fun ⟨first, rest⟩ => ⟨(), first, rest⟩⟩

/-- A map succeeds when every entry does, entry by entry. -/
theorem mapM_eq_ok {entries : List Entry} {apply : Entry → Except Error Value}
    {values : List Value} :
    entries.mapM apply = .ok values ↔
      List.Forall₂ (fun entry value => apply entry = .ok value)
        entries values := by
  induction entries generalizing values with
  | nil =>
      rw [List.mapM_nil, List.forall₂_nil_left_iff]
      exact ⟨fun done => (Except.ok.inj done).symm, fun empty => by rw [empty]; rfl⟩
  | cons entry entries ih =>
      rw [List.mapM_cons, bind_eq_ok]
      constructor
      · rintro ⟨value, first, rest⟩
        obtain ⟨others, mapped, done⟩ := bind_eq_ok.mp rest
        obtain rfl := Except.ok.inj done
        exact .cons first (ih.mp mapped)
      · intro mapped
        cases mapped with
        | cons first rest =>
            exact ⟨_, first, bind_eq_ok.mpr ⟨_, ih.mpr rest, rfl⟩⟩

theorem mapM_eq_ok_map {entries : List Entry}
    {apply : Entry → Except Error Value} {value : Entry → Value}
    (succeeds : ∀ entry ∈ entries, apply entry = .ok (value entry)) :
    entries.mapM apply = .ok (entries.map value) := by
  rw [mapM_eq_ok, List.forall₂_map_right_iff, List.forall₂_same]
  exact succeeds

/-- Every exception that a computation raises is an allowed one. -/
def Raises (allowed : Error → Prop) (action : Except Error Value) : Prop :=
  ∀ raised, action = .error raised → allowed raised

namespace Raises

variable {allowed : Error → Prop} {action : Except Error Value}
  {next : Value → Except Error Result}

theorem ok {value : Value} :
    Raises allowed (.ok value : Except Error Value) := nofun

theorem error {raised : Error} (isAllowed : allowed raised) :
    Raises allowed (.error raised : Except Error Value) := by
  rintro _ ⟨⟩
  exact isAllowed

theorem bind (first : Raises allowed action)
    (second : ∀ value, action = .ok value → Raises allowed (next value)) :
    Raises allowed (action >>= next) := by
  cases action with
  | ok value => exact second value rfl
  | error raised =>
      rintro _ ⟨⟩
      exact first raised rfl

theorem error_iff {raised : Error} :
    Raises allowed (.error raised : Except Error Value) ↔ allowed raised :=
  ⟨fun raises => raises raised rfl, error⟩

theorem bind_iff :
    Raises allowed (action >>= next) ↔
      Raises allowed action ∧
        ∀ value, action = .ok value → Raises allowed (next value) := by
  constructor
  · intro raises
    constructor
    · rintro raised rfl
      exact raises raised rfl
    · rintro value rfl
      exact raises
  · rintro ⟨first, second⟩
    exact first.bind second

theorem forM {entries : List Entry} {check : Entry → Except Error Unit}
    (each : ∀ entry ∈ entries, Raises allowed (check entry)) :
    Raises allowed (entries.forM check) := by
  induction entries with
  | nil => exact ok
  | cons entry entries ih =>
      rw [List.forall_mem_cons] at each
      exact each.1.bind fun _ _ => ih each.2

theorem mapM {entries : List Entry} {apply : Entry → Except Error Value}
    (each : ∀ entry ∈ entries, Raises allowed (apply entry)) :
    Raises allowed (entries.mapM apply) := by
  induction entries with
  | nil => exact ok
  | cons entry entries ih =>
      rw [List.forall_mem_cons] at each
      rw [List.mapM_cons]
      exact each.1.bind fun _ _ => (ih each.2).bind fun _ _ => ok

end Raises

end ExceptRules

end RefinetPillars
