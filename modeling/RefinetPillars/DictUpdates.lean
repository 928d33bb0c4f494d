import RefinetPillars.OrderedDict

/-!
# Updates of dictionaries

A dictionary is updated by a list of entries, or takes the entries of a list as
defaults.  What it holds afterwards is found in the lists and in the dictionary
one after the other.
-/

namespace RefinetPillars

namespace OrderedDict

namespace Dict

variable {Key Value : Type} [DecidableEq Key] {dict : Dict Key Value}
  {key other : Key} {entries : List (Key × Value)}

/-- The first value of a key in a list of entries. -/
def valueIn (key : Key) (entries : List (Key × Value)) : Option Value :=
  (entries.find? fun entry => entry.1 = key).map Prod.snd

@[simp]
theorem valueIn_nil : valueIn key ([] : List (Key × Value)) = none := rfl

theorem valueIn_cons (entry : Key × Value) :
    valueIn key (entry :: entries) =
      if key = entry.1 then some entry.2 else valueIn key entries := by
  by_cases isKey : key = entry.1
  · rw [if_pos isKey, valueIn, List.find?_cons_of_pos (by simp [isKey])]
    rfl
  · rw [if_neg isKey, valueIn,
      List.find?_cons_of_neg (by simp [Ne.symm isKey])]
    rfl

theorem valueIn_eq_none_iff :
    valueIn key entries = none ↔ key ∉ entries.map Prod.fst := by
  rw [valueIn, Option.map_eq_none_iff, List.find?_eq_none, List.mem_map]
  simp only [decide_eq_true_eq, not_exists, not_and]

/-- A key that is there keeps its value. -/
def setDefault (key : Key) (value : Value) (dict : Dict Key Value) :
    Dict Key Value :=
  if (dict.get? key).isSome then dict else dict.set key value

def setDefaults (entries : List (Key × Value)) (dict : Dict Key Value) :
    Dict Key Value :=
  entries.foldl (fun dict entry => dict.setDefault entry.1 entry.2) dict

def update (entries : List (Key × Value)) (dict : Dict Key Value) :
    Dict Key Value :=
  entries.foldl (fun dict entry => dict.set entry.1 entry.2) dict

theorem get?_setDefault (value : Value) :
    (dict.setDefault key value).get? other =
      (dict.get? other).or (if other = key then some value else none) := by
  by_cases isKey : other = key
  · subst isKey
    rw [if_pos rfl, setDefault]
    cases held : dict.get? other with
    | none => exact get?_set.trans (if_pos rfl)
    | some known => exact held
  · rw [if_neg isKey, Option.or_none, setDefault]
    split
    · rfl
    · rw [get?_set, if_neg isKey]

/-- The first default of a key counts, and only for a key that is not there. -/
theorem get?_setDefaults :
    (dict.setDefaults entries).get? key =
      (dict.get? key).or (valueIn key entries) := by
  induction entries generalizing dict with
  | nil => exact (Option.or_none).symm
  | cons entry entries ih =>
      rw [setDefaults, List.foldl_cons, ← setDefaults, ih, get?_setDefault,
        valueIn_cons, Option.or_assoc]
      by_cases isKey : key = entry.1
      · rw [if_pos isKey, if_pos isKey, Option.some_or]
      · rw [if_neg isKey, if_neg isKey, Option.none_or]

theorem get?_update_of_notMem (absent : key ∉ entries.map Prod.fst) :
    (dict.update entries).get? key = dict.get? key := by
  induction entries generalizing dict with
  | nil => rfl
  | cons entry entries ih =>
      obtain ⟨differs, absent⟩ := not_or.mp (mt List.mem_cons.mpr absent)
      rw [update, List.foldl_cons, ← update, ih absent, get?_set,
        if_neg differs]

/-- Entries of different keys come before what the dictionary holds. -/
theorem get?_update (unique : (entries.map Prod.fst).Nodup) :
    (dict.update entries).get? key =
      (valueIn key entries).or (dict.get? key) := by
  induction entries generalizing dict with
  | nil => rfl
  | cons entry entries ih =>
      rw [List.map_cons, List.nodup_cons] at unique
      rw [update, List.foldl_cons, ← update, valueIn_cons]
      by_cases isKey : key = entry.1
      · rw [if_pos isKey, get?_update_of_notMem (isKey ▸ unique.1), get?_set,
          if_pos isKey, Option.some_or]
      · rw [if_neg isKey, ih unique.2, get?_set, if_neg isKey]

omit [DecidableEq Key] in
theorem eq_of_entries {first second : Dict Key Value}
    (same : first.entries = second.entries) : first = second := by
  cases first
  cases same
  rfl

/-- Entries of new and different keys are appended. -/
theorem entries_update (unique : (entries.map Prod.fst).Nodup)
    (fresh : ∀ entry ∈ entries, entry.1 ∉ dict.entries.map Prod.fst) :
    (dict.update entries).entries = dict.entries ++ entries := by
  induction entries generalizing dict with
  | nil => exact (List.append_nil _).symm
  | cons entry entries ih =>
      rw [List.map_cons, List.nodup_cons] at unique
      have appended : (dict.set entry.1 entry.2).entries =
          dict.entries ++ [entry] := by
        rw [set, dif_neg (fresh entry (.head _))]
      rw [update, List.foldl_cons, ← update, ih unique.2, appended,
        List.append_assoc, List.singleton_append]
      intro other member
      rw [appended, List.map_append, List.mem_append, not_or]
      refine ⟨fresh other (.tail _ member), fun same => unique.1 ?_⟩
      rw [← List.mem_singleton.mp same]
      exact List.mem_map_of_mem member

theorem entries_update_empty (unique : (entries.map Prod.fst).Nodup) :
    ((empty : Dict Key Value).update entries).entries = entries := by
  refine (entries_update unique ?_).trans (List.nil_append _)
  rintro entry - ⟨⟩

end Dict

end OrderedDict

end RefinetPillars
