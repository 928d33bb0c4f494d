import Mathlib

/-!
# Dictionaries in the order of insertion

A dictionary has at most one value for each key and keeps its keys in the order
in which they came.
-/

namespace RefinetPillars

namespace OrderedDict

structure Dict (Key Value : Type) where
  entries : List (Key × Value)
  unique : (entries.map Prod.fst).Nodup

namespace Dict

variable {Key Value : Type}

def empty : Dict Key Value := ⟨[], List.nodup_nil⟩

def length (dict : Dict Key Value) : Nat := dict.entries.length

/-- The entries that satisfy a condition. -/
def filter (kept : Key × Value → Bool) (dict : Dict Key Value) :
    Dict Key Value where
  entries := dict.entries.filter kept
  unique := dict.unique.sublist (List.filter_sublist.map Prod.fst)

/-- The entries without the oldest ones. -/
def dropOldest (count : Nat) (dict : Dict Key Value) : Dict Key Value where
  entries := dict.entries.drop count
  unique := dict.unique.sublist ((List.drop_sublist count _).map Prod.fst)

variable [DecidableEq Key]

def get? (key : Key) (dict : Dict Key Value) : Option Value :=
  (dict.entries.find? fun entry => entry.1 = key).map Prod.snd

/-- A key that is there keeps its place. -/
def set (key : Key) (value : Value) (dict : Dict Key Value) :
    Dict Key Value :=
  if present : key ∈ dict.entries.map Prod.fst then
    { entries := dict.entries.map fun entry =>
        if entry.1 = key then (key, value) else entry
      unique := by
        have same : (dict.entries.map fun entry =>
            if entry.1 = key then (key, value) else entry).map Prod.fst =
              dict.entries.map Prod.fst := by
          rw [List.map_map]
          refine List.map_congr_left fun entry _ => ?_
          dsimp only [Function.comp_apply]
          split
          next isKey => exact isKey.symm
          next => rfl
        exact same ▸ dict.unique }
  else
    { entries := dict.entries ++ [(key, value)]
      unique := by
        rw [List.map_append]
        exact dict.unique.append (List.nodup_singleton _)
          (List.disjoint_singleton.mpr present) }

variable {dict : Dict Key Value} {key other : Key} {value : Value}

@[simp]
theorem get?_empty : (empty : Dict Key Value).get? key = none := rfl

theorem get?_eq_some_iff :
    dict.get? key = some value ↔ (key, value) ∈ dict.entries := by
  obtain ⟨entries, unique⟩ := dict
  change (entries.find? fun entry => entry.1 = key).map Prod.snd = _ ↔
    (key, value) ∈ entries
  induction entries with
  | nil => simp
  | cons entry entries ih =>
      rw [List.map_cons, List.nodup_cons] at unique
      have later := ih unique.2
      obtain ⟨first, found⟩ := entry
      by_cases isKey : first = key
      · subst isKey
        have absent : (first, value) ∉ entries := fun member =>
          unique.1 (List.mem_map.mpr ⟨_, member, rfl⟩)
        rw [List.find?_cons_of_pos (by simp)]
        simp [absent, eq_comm]
      · rw [List.find?_cons_of_neg (by simp [isKey]), later, List.mem_cons]
        simp [Ne.symm isKey]

theorem get?_eq_none_iff :
    dict.get? key = none ↔ key ∉ dict.entries.map Prod.fst := by
  rw [get?, Option.map_eq_none_iff, List.find?_eq_none, List.mem_map]
  simp only [decide_eq_true_eq, not_exists, not_and]

theorem get?_filter (kept : Key × Value → Bool) :
    (dict.filter kept).get? key =
      (dict.get? key).filter fun value => kept (key, value) := by
  ext value
  rw [get?_eq_some_iff, Option.filter_eq_some_iff, get?_eq_some_iff, filter,
    List.mem_filter]

/-- A key that was not among the oldest keeps its value. -/
theorem get?_dropOldest {count : Nat}
    (kept : ∀ entry ∈ dict.entries.take count, entry.1 ≠ key) :
    (dict.dropOldest count).get? key = dict.get? key := by
  ext value
  rw [get?_eq_some_iff, get?_eq_some_iff]
  constructor
  · exact fun member => List.mem_of_mem_drop member
  · intro member
    rw [← List.take_append_drop count dict.entries] at member
    rcases List.mem_append.mp member with old | young
    · exact (kept _ old rfl).elim
    · exact young

theorem get?_set :
    (dict.set key value).get? other =
      if other = key then some value else dict.get? other := by
  ext found
  rw [get?_eq_some_iff, set]
  split
  next present =>
    obtain ⟨old, oldMem, isOld⟩ := List.mem_map.mp present
    rw [List.mem_map]
    by_cases isKey : other = key
    · subst isKey
      rw [if_pos rfl, Option.some.injEq]
      constructor
      · rintro ⟨entry, member, same⟩
        split at same
        · exact (Prod.mk.inj same).2
        next notKey => exact (notKey (congrArg Prod.fst same)).elim
      · rintro rfl
        exact ⟨old, oldMem, if_pos isOld⟩
    · rw [if_neg isKey, get?_eq_some_iff]
      constructor
      · rintro ⟨entry, member, same⟩
        split at same
        · exact (isKey (Prod.mk.inj same).1.symm).elim
        · exact same ▸ member
      · exact fun member => ⟨_, member, if_neg isKey⟩
  next absent =>
    rw [List.mem_append, List.mem_singleton]
    by_cases isKey : other = key
    · subst isKey
      have fresh : (other, found) ∉ dict.entries := fun member =>
        absent (List.mem_map_of_mem (f := Prod.fst) member)
      simp [fresh, eq_comm]
    · rw [if_neg isKey, get?_eq_some_iff]
      simp [isKey]

theorem length_set_of_present (present : dict.get? key ≠ none) :
    (dict.set key value).length = dict.length := by
  rw [Ne, get?_eq_none_iff, not_not] at present
  rw [set, dif_pos present, length, length, List.length_map]

theorem length_set_of_absent (absent : dict.get? key = none) :
    (dict.set key value).length = dict.length + 1 := by
  rw [get?_eq_none_iff] at absent
  rw [set, dif_neg absent, length, length, List.length_append]
  rfl

end Dict

end OrderedDict

end RefinetPillars
