import Mathlib

/-!
# Tables of routes behind a gate

A table runs the first action whose pattern matches a text.  A gate refuses some
texts before the table sees them.  An action whose patterns are covered by the
gate is never run.
-/

namespace RefinetPillars

namespace RouteTable

variable {Symbol Action : Type*}

/-- What the text of a request is compared with. -/
inductive Pattern (Symbol : Type*) where
  | oneOf (texts : List (List Symbol))
  | startsWith (front : List Symbol)
  | enclosed (front back : List Symbol)
deriving DecidableEq

def Pattern.Matches : Pattern Symbol → List Symbol → Prop
  | .oneOf texts, text => text ∈ texts
  | .startsWith front, text => front <+: text
  | .enclosed front back, text => front <+: text ∧ back <:+ text

instance [DecidableEq Symbol] (pattern : Pattern Symbol) (text : List Symbol) :
    Decidable (pattern.Matches text) :=
  match pattern with
  | .oneOf texts => inferInstanceAs (Decidable (text ∈ texts))
  | .startsWith front => inferInstanceAs (Decidable (front <+: text))
  | .enclosed front back =>
      inferInstanceAs (Decidable (front <+: text ∧ back <:+ text))

/-- A route is refused as it is, and with anything after a separator. -/
structure Gate (Symbol : Type*) where
  routes : List (List Symbol)
  separators : List Symbol

def Gate.Refuses (gate : Gate Symbol) (text : List Symbol) : Prop :=
  ∃ route ∈ gate.routes, text = route ∨
    ∃ separator ∈ gate.separators, route ++ [separator] <+: text

instance [DecidableEq Symbol] (gate : Gate Symbol) (text : List Symbol) :
    Decidable (gate.Refuses text) :=
  inferInstanceAs (Decidable (∃ route ∈ gate.routes, text = route ∨
    ∃ separator ∈ gate.separators, route ++ [separator] <+: text))

/-- Whatever follows this text, the gate refuses it. -/
def Gate.Bars (gate : Gate Symbol) (front : List Symbol) : Prop :=
  ∃ route ∈ gate.routes, ∃ separator ∈ gate.separators,
    route ++ [separator] <+: front

instance [DecidableEq Symbol] (gate : Gate Symbol) (front : List Symbol) :
    Decidable (gate.Bars front) :=
  inferInstanceAs (Decidable (∃ route ∈ gate.routes,
    ∃ separator ∈ gate.separators, route ++ [separator] <+: front))

/-- The gate refuses all that a pattern matches. -/
def Pattern.Covered (gate : Gate Symbol) : Pattern Symbol → Prop
  | .oneOf texts => ∀ text ∈ texts, gate.Refuses text
  | .startsWith front => gate.Bars front
  | .enclosed front _ => gate.Bars front

instance [DecidableEq Symbol] (gate : Gate Symbol) (pattern : Pattern Symbol) :
    Decidable (pattern.Covered gate) :=
  match pattern with
  | .oneOf texts =>
      inferInstanceAs (Decidable (∀ text ∈ texts, gate.Refuses text))
  | .startsWith front => inferInstanceAs (Decidable (gate.Bars front))
  | .enclosed front _ => inferInstanceAs (Decidable (gate.Bars front))

/-- Two texts of which neither starts with the other. -/
def Incomparable (first second : List Symbol) : Prop :=
  ¬ first <+: second ∧ ¬ second <+: first

instance [DecidableEq Symbol] (first second : List Symbol) :
    Decidable (Incomparable first second) :=
  inferInstanceAs (Decidable (¬ first <+: second ∧ ¬ second <+: first))

/-- A pattern matches nothing that starts with a text. -/
def Pattern.Apart (start : List Symbol) : Pattern Symbol → Prop
  | .oneOf texts => ∀ text ∈ texts, ¬ start <+: text
  | .startsWith front => Incomparable front start
  | .enclosed front _ => Incomparable front start

instance [DecidableEq Symbol] (start : List Symbol) (pattern : Pattern Symbol) :
    Decidable (pattern.Apart start) :=
  match pattern with
  | .oneOf texts =>
      inferInstanceAs (Decidable (∀ text ∈ texts, ¬ start <+: text))
  | .startsWith front =>
      inferInstanceAs (Decidable (Incomparable front start))
  | .enclosed front _ =>
      inferInstanceAs (Decidable (Incomparable front start))

section Gates

variable {gate : Gate Symbol} {pattern : Pattern Symbol}
  {front start text : List Symbol}

theorem Gate.Bars.refuses (bars : gate.Bars front) (starts : front <+: text) :
    gate.Refuses text := by
  obtain ⟨route, routeMem, separator, separatorMem, separated⟩ := bars
  exact ⟨route, routeMem, .inr
    ⟨separator, separatorMem, separated.trans starts⟩⟩

theorem Pattern.Covered.refuses (covered : pattern.Covered gate)
    (found : pattern.Matches text) : gate.Refuses text := by
  cases pattern with
  | oneOf texts => exact covered text found
  | startsWith front => exact Gate.Bars.refuses covered found
  | enclosed front back => exact Gate.Bars.refuses covered found.1

theorem Incomparable.not_startsWith (apart : Incomparable front start)
    (starts : start <+: text) : ¬ front <+: text := by
  intro found
  rcases List.prefix_or_prefix_of_prefix found starts with shorter | longer
  · exact apart.1 shorter
  · exact apart.2 longer

theorem Pattern.Apart.not_matches (apart : pattern.Apart start)
    (starts : start <+: text) : ¬ pattern.Matches text := by
  intro found
  cases pattern with
  | oneOf texts => exact apart text found starts
  | startsWith front => exact Incomparable.not_startsWith apart starts found
  | enclosed front back => exact Incomparable.not_startsWith apart starts found.1

theorem Gate.Refuses.exists_route (refused : gate.Refuses text) :
    ∃ route ∈ gate.routes, route <+: text ∧ (text = route ∨
      ∃ separator ∈ gate.separators, route ++ [separator] <+: text) := by
  obtain ⟨route, routeMem, same | ⟨separator, separatorMem, separated⟩⟩ :=
    refused
  · exact ⟨route, routeMem, same ▸ List.prefix_refl _, .inl same⟩
  · exact ⟨route, routeMem, (List.prefix_append _ _).trans separated,
      .inr ⟨separator, separatorMem, separated⟩⟩

/-- A gate whose other routes are incomparable with a start refuses what goes
on from there only by the route that is that start. -/
theorem Gate.Refuses.of_start (refused : gate.Refuses text)
    (apart : ∀ route ∈ gate.routes, route ≠ start → Incomparable route start)
    (starts : start <+: text) :
    start ∈ gate.routes ∧ (text = start ∨
      ∃ separator ∈ gate.separators, start ++ [separator] <+: text) := by
  obtain ⟨route, routeMem, routeStarts, refused⟩ := refused.exists_route
  obtain rfl : route = start := by
    by_contra differs
    exact (apart route routeMem differs).not_startsWith starts routeStarts
  exact ⟨routeMem, refused⟩

end Gates

section Tables

variable [DecidableEq Symbol] {gate : Gate Symbol}
  {table : List (Pattern Symbol × Action)} {text : List Symbol}
  {action : Action}

/-- The action of the first pattern that matches. -/
def firstMatch (table : List (Pattern Symbol × Action)) (text : List Symbol) :
    Option Action :=
  (table.find? fun entry => decide (entry.1.Matches text)).map Prod.snd

theorem exists_entry (run : firstMatch table text = some action) :
    ∃ pattern, (pattern, action) ∈ table ∧ pattern.Matches text := by
  obtain ⟨entry, found, rfl⟩ := Option.map_eq_some_iff.mp run
  exact ⟨entry.1, List.mem_of_find?_eq_some found,
    of_decide_eq_true (List.find?_some found :)⟩

/-- What is covered by a gate is run for no text that passes the gate. -/
theorem not_run_of_covered {guarded : Action → Prop}
    (covered : ∀ entry ∈ table, guarded entry.2 → entry.1.Covered gate)
    (run : firstMatch table text = some action)
    (passed : ¬ gate.Refuses text) : ¬ guarded action := by
  intro isGuarded
  obtain ⟨pattern, member, found⟩ := exists_entry run
  exact passed ((covered _ member isGuarded).refuses found)

/-- The table passes over patterns that are apart from the start of a text. -/
theorem firstMatch_append {before after : List (Pattern Symbol × Action)}
    {start : List Symbol} (apart : ∀ entry ∈ before, entry.1.Apart start)
    (starts : start <+: text) :
    firstMatch (before ++ after) text = firstMatch after text := by
  have none : before.find? (fun entry => decide (entry.1.Matches text)) =
      none :=
    List.find?_eq_none.mpr fun entry member found =>
      (apart entry member).not_matches starts (of_decide_eq_true found)
  rw [firstMatch, List.find?_append, none, Option.none_or]
  rfl

theorem firstMatch_cons {pattern : Pattern Symbol}
    (found : pattern.Matches text) :
    firstMatch ((pattern, action) :: table) text = some action := by
  rw [firstMatch, List.find?_cons_of_pos (by simpa using found)]
  rfl

end Tables

end RouteTable

end RefinetPillars
