import Mathlib

/-!
# Paths and their texts

An absolute path is a list of names.  Its text can start with the text of
another path without lying below it: the name of a sibling may start with the
name of that path.
-/

namespace RefinetPillars

namespace PathText

/-- The name of a file or a directory. -/
structure Component where
  name : List Char
  nonempty : name ≠ []
  noSlash : '/' ∉ name
deriving DecidableEq

abbrev Path := List Component

theorem Component.ext_name {first second : Component}
    (same : first.name = second.name) : first = second := by
  cases first
  cases second
  cases same
  rfl

/-- The texts between slashes. -/
def parts : List Char → List (List Char)
  | [] => [[]]
  | character :: rest =>
      if character = '/' then [] :: parts rest
      else
        match parts rest with
        | [] => [[character]]
        | first :: others => (character :: first) :: others

/-- A name, unless there is none or it is the directory itself. -/
def toComponent (name : List Char) : Option Component :=
  if valid : name ≠ [] ∧ '/' ∉ name then
    if name = ['.'] then none else some ⟨name, valid.1, valid.2⟩
  else none

/-- The names in a text. -/
def components (text : List Char) : Path := (parts text).filterMap toComponent

/-- The names, each after a slash. -/
def flat (path : Path) : List Char :=
  path.flatMap fun component => '/' :: component.name

/-- `str` of an absolute path. -/
def pathText (path : Path) : List Char :=
  if path = [] then ['/'] else flat path

/-- A path within a sibling whose name goes on where the other name ends. -/
def WithinSibling (root path : Path) : Prop :=
  ∃ parent component sibling suffix rest, root = parent ++ [component] ∧
    suffix ≠ [] ∧ sibling.name = component.name ++ suffix ∧
    path = parent ++ sibling :: rest

section Parts

theorem exists_parts (text : List Char) :
    ∃ first others, parts text = first :: others ∧ first <+: text ∧
      ∀ part ∈ others, part <:+: text := by
  induction text with
  | nil => exact ⟨[], [], rfl, List.prefix_refl _, by simp⟩
  | cons character rest ih =>
      obtain ⟨first, others, found, starts, inside⟩ := ih
      by_cases slash : character = '/'
      · refine ⟨[], first :: others, ?_, List.nil_prefix, ?_⟩
        · rw [parts, if_pos slash, found]
        · intro part member
          have inRest : part <:+: rest := by
            rcases List.mem_cons.mp member with rfl | later
            · exact starts.isInfix
            · exact inside part later
          exact inRest.trans (List.suffix_cons _ _).isInfix
      · refine ⟨character :: first, others, ?_, ?_, ?_⟩
        · rw [parts, if_neg slash, found]
        · exact List.cons_prefix_cons.mpr ⟨rfl, starts⟩
        · intro part member
          exact (inside part member).trans (List.suffix_cons _ _).isInfix

/-- A name in a text is a stretch of that text. -/
theorem infix_of_mem_components {text : List Char} {component : Component}
    (member : component ∈ components text) : component.name <:+: text := by
  obtain ⟨part, partMem, named⟩ := List.mem_filterMap.mp member
  have same : component.name = part := by
    rw [toComponent] at named
    split at named
    · split at named
      · cases named
      · cases named
        rfl
    · cases named
  obtain ⟨first, others, found, starts, inside⟩ := exists_parts text
  rw [found] at partMem
  rw [same]
  rcases List.mem_cons.mp partMem with rfl | later
  · exact starts.isInfix
  · exact inside part later

theorem parts_append_slash {name : List Char} (noSlash : '/' ∉ name)
    (rest : List Char) : parts (name ++ '/' :: rest) = name :: parts rest := by
  induction name with
  | nil => rfl
  | cons character name ih =>
      have kept : character ≠ '/' := by
        rintro rfl
        simp at noSlash
      rw [List.cons_append, parts, if_neg kept,
        ih fun member => noSlash (List.mem_cons_of_mem _ member)]

/-- The name before a slash is the first one of a text. -/
theorem components_append_slash {component : Component}
    (named : component.name ≠ ['.']) (rest : List Char) :
    components (component.name ++ '/' :: rest) =
      component :: components rest := by
  rw [components, parts_append_slash component.noSlash,
    List.filterMap_cons_some]
  · rfl
  · rw [toComponent, dif_pos ⟨component.nonempty, component.noSlash⟩,
      if_neg named]

end Parts

section Prefixes

theorem flat_cons (component : Component) (path : Path) :
    flat (component :: path) = '/' :: component.name ++ flat path := rfl

theorem flat_append (first second : Path) :
    flat (first ++ second) = flat first ++ flat second :=
  List.flatMap_append

/-- What follows a name starts with a slash. -/
theorem head?_flat {path : Path} {first : Char}
    (atHead : first ∈ (flat path).head?) : first = '/' := by
  cases path with
  | nil => cases atHead
  | cons component path => exact (Option.some.inj atHead).symm

/-- A name that is where another one starts is the start of that one. -/
theorem name_prefix {first second : List Char} {path : Path}
    (noSlash : '/' ∉ first) (starts : first <+: second ++ flat path) :
    first <+: second := by
  rcases List.prefix_or_prefix_of_prefix starts (List.prefix_append _ _) with
    shorter | ⟨more, same⟩
  · exact shorter
  · obtain ⟨after, whole⟩ := starts
    rw [← same, List.append_assoc, List.append_cancel_left_eq] at whole
    cases more with
    | nil =>
        rw [← same, List.append_nil]
    | cons character more =>
        have isSlash : character = '/' := by
          apply @head?_flat path
          rw [← whole]
          rfl
        refine absurd ?_ noSlash
        rw [← same, isSlash]
        simp

theorem withinSibling_cons (component : Component) {root path : Path}
    (within : WithinSibling root path) :
    WithinSibling (component :: root) (component :: path) := by
  obtain ⟨parent, last, sibling, suffix, rest, rfl, nonempty, named, rfl⟩ :=
    within
  exact ⟨component :: parent, last, sibling, suffix, rest, rfl, nonempty, named,
    rfl⟩

/-- A text that starts like a path starts with its first name. -/
theorem cons_of_flat_prefix {component : Component} {root path : Path}
    (starts : flat (component :: root) <+: flat path) :
    ∃ other rest, path = other :: rest ∧
      component.name ++ flat root <+: other.name ++ flat rest := by
  cases path with
  | nil =>
      rw [flat_cons, List.cons_append] at starts
      cases List.prefix_nil.mp starts
  | cons other rest =>
      rw [flat_cons, flat_cons, List.cons_append, List.cons_append,
        List.cons_prefix_cons] at starts
      exact ⟨other, rest, rfl, starts.2⟩

/-- The text of a path starts with that of a root only when the path is at or
below the root, or within a sibling whose name goes on. -/
theorem prefix_of_flat_prefix {root path : Path}
    (starts : flat root <+: flat path) :
    root <+: path ∨ WithinSibling root path := by
  induction root generalizing path with
  | nil => exact .inl List.nil_prefix
  | cons component root ih =>
      obtain ⟨other, rest, rfl, named⟩ := cons_of_flat_prefix starts
      obtain ⟨suffix, same⟩ := name_prefix component.noSlash
        ((List.prefix_append _ _).trans named)
      by_cases ends : suffix = []
      · rw [ends, List.append_nil] at same
        obtain rfl := Component.ext_name same
        rcases ih ((List.prefix_append_right_inj _).mp named) with
          below | within
        · exact .inl (List.cons_prefix_cons.mpr ⟨rfl, below⟩)
        · exact .inr (withinSibling_cons _ within)
      · right
        cases root with
        | nil =>
            exact ⟨[], component, other, suffix, rest, rfl, ends, same.symm,
              rfl⟩
        | cons second root =>
            exfalso
            rw [← same, List.append_assoc, List.prefix_append_right_inj] at named
            obtain ⟨first, suffix, rfl⟩ := List.exists_cons_of_ne_nil ends
            rw [flat_cons, List.cons_append, List.cons_append,
              List.cons_prefix_cons] at named
            apply other.noSlash
            rw [← same, ← named.1]
            simp

theorem flat_prefix_of_prefix {root path : Path} (below : root <+: path) :
    flat root <+: flat path := by
  obtain ⟨rest, rfl⟩ := below
  rw [flat_append]
  exact List.prefix_append _ _

theorem flat_prefix_of_withinSibling {root path : Path}
    (within : WithinSibling root path) : flat root <+: flat path := by
  obtain ⟨parent, last, sibling, suffix, rest, rfl, -, named, rfl⟩ := within
  rw [flat_append, flat_append, List.prefix_append_right_inj, flat_cons,
    flat_cons, named]
  exact ⟨suffix ++ flat rest, by simp [flat]⟩

theorem WithinSibling.append {root path : Path}
    (within : WithinSibling root path) (more : Path) :
    WithinSibling root (path ++ more) := by
  obtain ⟨parent, component, sibling, suffix, rest, rfl, nonempty, named, rfl⟩ :=
    within
  exact ⟨parent, component, sibling, suffix, rest ++ more, rfl, nonempty, named,
    by simp⟩

/-- What lies within a sibling does not lie below the path itself. -/
theorem WithinSibling.not_below {root path : Path}
    (within : WithinSibling root path) : ¬ root <+: path := by
  obtain ⟨parent, component, sibling, suffix, rest, rfl, nonempty, named, rfl⟩ :=
    within
  intro below
  obtain ⟨rfl, -⟩ := List.cons_prefix_cons.mp
    ((List.prefix_append_right_inj parent).mp below)
  exact nonempty (List.append_right_eq_self.mp named.symm)

/-- The text of a path starts with that of a root when the path is at or below
the root, or within a sibling whose name goes on, and not otherwise. -/
theorem pathText_prefix_iff {root path : Path} :
    pathText root <+: pathText path ↔
      root <+: path ∨ WithinSibling root path := by
  constructor
  · intro starts
    cases root with
    | nil => exact .inl List.nil_prefix
    | cons component root =>
        apply prefix_of_flat_prefix
        rw [pathText, if_neg (List.cons_ne_nil _ _)] at starts
        cases path with
        | nil =>
            rw [pathText, if_pos rfl, flat_cons, List.cons_append,
              List.cons_prefix_cons, List.prefix_nil,
              List.append_eq_nil_iff] at starts
            exact absurd starts.2.1 component.nonempty
        | cons other path =>
            rwa [pathText, if_neg (List.cons_ne_nil _ _)] at starts
  · intro related
    have flatStarts : flat root <+: flat path := by
      rcases related with below | within
      · exact flat_prefix_of_prefix below
      · exact flat_prefix_of_withinSibling within
    cases path with
    | nil =>
        rcases related with below | within
        · rw [List.prefix_nil.mp below]
        · obtain ⟨parent, last, sibling, suffix, rest, -, -, -, empty⟩ := within
          simp at empty
    | cons other path =>
        rw [pathText, pathText, if_neg (List.cons_ne_nil other path)]
        split
        · exact List.cons_prefix_cons.mpr ⟨rfl, List.nil_prefix⟩
        · exact flatStarts

end Prefixes

end PathText

end RefinetPillars
