import Mathlib

/-!
# Append-only slots with tombstones

A directory keeps its keys in slots that never move: a new key is appended, and
a removed key leaves a zero behind.  A map records one plus the index of every
live key.  This file has the invariant relating the slots and the map, its
preservation by both operations, and the sense in which slots never move.
-/

namespace RefinetPillars

namespace SlotDirectory

variable {Key : Type*} [Zero Key]

/-- The map is the inverse of the slots: a nonzero key sits in a slot exactly
when the map holds one plus that slot's index. -/
structure Indexed (slots : List Key) (indexPlusOne : Key → Nat) : Prop where
  zero : indexPlusOne 0 = 0
  slot_iff : ∀ {key : Key}, key ≠ 0 → ∀ {index : Nat},
    slots[index]? = some key ↔ indexPlusOne key = index + 1

/-- No slot moves or disappears: it keeps its key or becomes empty. -/
def Persists (before after : List Key) : Prop :=
  before.length ≤ after.length ∧
    ∀ (index : Nat) (key : Key), before[index]? = some key →
      after[index]? = some key ∨ after[index]? = some 0

namespace Indexed

variable {slots : List Key} {indexPlusOne : Key → Nat} {key : Key}

theorem empty : Indexed ([] : List Key) fun _ => 0 where
  zero := rfl
  slot_iff _ _ := by simp

/-- The slot of a live key. -/
theorem slot (indexed : Indexed slots indexPlusOne)
    (live : indexPlusOne key ≠ 0) :
    slots[indexPlusOne key - 1]? = some key := by
  have nonzero : key ≠ 0 := by
    rintro rfl
    exact live indexed.zero
  exact (indexed.slot_iff nonzero).mpr (by omega)

theorem slot_lt_length (indexed : Indexed slots indexPlusOne)
    (live : indexPlusOne key ≠ 0) :
    indexPlusOne key - 1 < slots.length :=
  (List.getElem?_eq_some_iff.mp (indexed.slot live)).1

/-- The nonzero slots hold exactly the live keys. -/
theorem mem_iff (indexed : Indexed slots indexPlusOne) (nonzero : key ≠ 0) :
    key ∈ slots ↔ indexPlusOne key ≠ 0 := by
  constructor
  · intro member
    obtain ⟨index, atIndex⟩ := List.mem_iff_getElem?.mp member
    have := (indexed.slot_iff nonzero).mp atIndex
    omega
  · intro live
    exact List.mem_iff_getElem?.mpr ⟨_, indexed.slot live⟩

/-- A nonzero key occupies one slot only. -/
theorem slot_unique (indexed : Indexed slots indexPlusOne)
    (nonzero : key ≠ 0) {first second : Nat}
    (atFirst : slots[first]? = some key)
    (atSecond : slots[second]? = some key) :
    first = second := by
  have firstIndex := (indexed.slot_iff nonzero).mp atFirst
  have secondIndex := (indexed.slot_iff nonzero).mp atSecond
  omega

variable [DecidableEq Key]

/-- Appending a key that is not in the directory. -/
theorem push (indexed : Indexed slots indexPlusOne) (nonzero : key ≠ 0)
    (absent : indexPlusOne key = 0) :
    Indexed (slots ++ [key])
      (Function.update indexPlusOne key (slots.length + 1)) where
  zero := by
    rw [Function.update_of_ne nonzero.symm]
    exact indexed.zero
  slot_iff {other} otherNonzero {index} := by
    by_cases same : other = key
    · subst other
      rw [Function.update_self]
      have notMember : key ∉ slots := fun member =>
        (indexed.mem_iff nonzero).mp member absent
      have atNone : slots[index]? ≠ some key := fun atIndex =>
        notMember (List.mem_of_getElem? atIndex)
      rcases lt_trichotomy index slots.length with inside | atEnd | outside
      · rw [List.getElem?_append_left inside]
        constructor
        · intro atIndex
          exact (atNone atIndex).elim
        · omega
      · subst atEnd
        simp
      · rw [List.getElem?_eq_none (by simp; omega)]
        constructor
        · simp
        · omega
    · rw [Function.update_of_ne same, ← indexed.slot_iff otherNonzero]
      rcases lt_or_ge index slots.length with inside | outside
      · rw [List.getElem?_append_left inside]
      · rw [List.getElem?_append_right outside,
          List.getElem?_eq_none (l := slots) outside]
        cases index - slots.length with
        | zero => simp [Ne.symm same]
        | succ excess => simp

/-- Clearing the slot of a live key. -/
theorem clear (indexed : Indexed slots indexPlusOne)
    (live : indexPlusOne key ≠ 0) :
    Indexed (slots.set (indexPlusOne key - 1) 0)
      (Function.update indexPlusOne key 0) where
  zero := by
    by_cases same : (0 : Key) = key
    · rw [← same, Function.update_self]
    · rw [Function.update_of_ne same]
      exact indexed.zero
  slot_iff {other} otherNonzero {index} := by
    have inside := indexed.slot_lt_length live
    by_cases cleared : index = indexPlusOne key - 1
    · subst cleared
      rw [List.getElem?_set_self inside]
      constructor
      · intro atIndex
        exact (otherNonzero (Option.some.inj atIndex).symm).elim
      · intro mapped
        by_cases same : other = key
        · subst same
          simp at mapped
        · rw [Function.update_of_ne same,
            ← indexed.slot_iff otherNonzero, indexed.slot live] at mapped
          exact (same (Option.some.inj mapped).symm).elim
    · rw [List.getElem?_set_ne (Ne.symm cleared),
        indexed.slot_iff otherNonzero]
      by_cases same : other = key
      · subst same
        rw [Function.update_self]
        omega
      · rw [Function.update_of_ne same]

end Indexed

namespace Persists

variable {before middle after : List Key} {key : Key}

theorem refl (slots : List Key) : Persists slots slots :=
  ⟨le_rfl, fun _ _ atIndex => Or.inl atIndex⟩

theorem trans (first : Persists before middle)
    (second : Persists middle after) : Persists before after := by
  refine ⟨first.1.trans second.1, fun index key atIndex => ?_⟩
  rcases first.2 index key atIndex with kept | emptied
  · exact second.2 index key kept
  · exact Or.inr ((second.2 index 0 emptied).elim id id)

theorem push (slots : List Key) : Persists slots (slots ++ [key]) := by
  refine ⟨by simp, fun index other atIndex => Or.inl ?_⟩
  have inside := (List.getElem?_eq_some_iff.mp atIndex).1
  rw [List.getElem?_append_left inside]
  exact atIndex

theorem clear (slots : List Key) (cleared : Nat) :
    Persists slots (slots.set cleared 0) := by
  refine ⟨by simp, fun index other atIndex => ?_⟩
  have inside := (List.getElem?_eq_some_iff.mp atIndex).1
  by_cases same : index = cleared
  · subst same
    exact Or.inr (List.getElem?_set_self inside)
  · rw [List.getElem?_set_ne (Ne.symm same)]
    exact Or.inl atIndex

end Persists

end SlotDirectory

end RefinetPillars
