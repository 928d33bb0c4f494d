import Mathlib

/-!
# Tables with a key

A table has at most one row for each key.  A row that is inserted changes the
row with its key, if there is one.
-/

namespace RefinetPillars

namespace KeyedTable

/-- The rows of a table in the order of their insertion. -/
structure Table {Row Key : Type} (key : Row → Key) where
  rows : List Row
  unique : (rows.map key).Nodup

namespace Table

variable {Row Key : Type} {key : Row → Key}

def empty : Table key := ⟨[], List.nodup_nil⟩

def keys (table : Table key) : List Key := table.rows.map key

theorem nodup_keys (table : Table key) : table.keys.Nodup := table.unique

theorem length_keys (table : Table key) :
    table.keys.length = table.rows.length :=
  List.length_map key

variable [DecidableEq Key]

/-- A change of rows that leaves their keys alone. -/
structure Update (key : Row → Key) where
  change : Row → Row
  key_change : ∀ row, key (change row) = key row

/-- `INSERT ... ON CONFLICT DO UPDATE`. -/
def upsert (row : Row) (update : Update key) (table : Table key) : Table key :=
  if present : key row ∈ table.keys then
    { rows := table.rows.map fun old =>
        if key old = key row then update.change old else old
      unique := by
        rw [List.map_map]
        refine (List.map_congr_left fun old _ => ?_) ▸ table.unique
        dsimp only [Function.comp_apply]
        split
        · exact (update.key_change old).symm
        · rfl }
  else
    { rows := table.rows ++ [row]
      unique := by
        rw [List.map_append]
        exact table.unique.append (List.nodup_singleton _)
          (List.disjoint_singleton.mpr present) }

theorem keys_upsert (row : Row) (update : Update key) (table : Table key) :
    (table.upsert row update).keys =
      if key row ∈ table.keys then table.keys else table.keys ++ [key row] := by
  rw [upsert]
  split
  · rw [keys, List.map_map]
    refine List.map_congr_left fun old _ => ?_
    dsimp only [Function.comp_apply]
    split
    · exact update.key_change old
    · rfl
  · rw [keys, List.map_append]
    rfl

theorem mem_keys_upsert {row : Row} {update : Update key} {table : Table key}
    {wanted : Key} :
    wanted ∈ (table.upsert row update).keys ↔
      wanted ∈ table.keys ∨ wanted = key row := by
  rw [keys_upsert]
  split
  next present =>
    constructor
    · exact .inl
    · rintro (member | rfl)
      · exact member
      · exact present
  next => rw [List.mem_append, List.mem_singleton]

/-- The row with a key after an insertion. -/
theorem find?_upsert
    (row : Row) (update : Update key) (table : Table key) (wanted : Key) :
    (table.upsert row update).rows.find? (fun old => key old = wanted) =
      if wanted = key row then
        some ((table.rows.find? fun old => key old = wanted).elim row
          update.change)
      else table.rows.find? fun old => key old = wanted := by
  rw [upsert]
  split
  next present =>
    have kept : ((fun old => decide (key old = wanted)) ∘ fun old =>
        if key old = key row then update.change old else old) =
          fun old => decide (key old = wanted) := by
      funext old
      dsimp only [Function.comp_apply]
      split
      · rw [update.key_change]
      · rfl
    rw [List.find?_map, kept]
    split
    next same =>
      obtain ⟨old, member, isKey⟩ := List.mem_map.mp present
      have found : (table.rows.find? fun old => key old = wanted).isSome := by
        rw [List.find?_isSome]
        exact ⟨old, member, by simp [same, isKey]⟩
      obtain ⟨first, isFirst⟩ := Option.isSome_iff_exists.mp found
      have firstKey : key first = wanted := by
        simpa using List.find?_some isFirst
      rw [isFirst, Option.map_some, if_pos (firstKey.trans same)]
      rfl
    next differ =>
      cases found : table.rows.find? fun old => key old = wanted with
      | none => rfl
      | some first =>
          have firstKey : key first = wanted := by
            simpa using List.find?_some found
          rw [Option.map_some, if_neg (firstKey.symm ▸ differ)]
  next absent =>
    rw [List.find?_append]
    split
    next same =>
      have missing : (table.rows.find? fun old => key old = wanted) = none := by
        rw [List.find?_eq_none]
        intro old member isKey
        exact absent (List.mem_map.mpr ⟨old, member, by
          simpa [same] using isKey⟩)
      rw [missing, List.find?_cons_of_pos (by simp [same])]
      rfl
    next differ =>
      rw [List.find?_cons_of_neg (by simp [Ne.symm differ]), List.find?_nil,
        Option.or_none]

/-- A table whose new keys are among finitely many has grown by no more. -/
theorem length_le_add_card {table later : Table key} {allowed : Finset Key}
    (known : ∀ wanted ∈ later.keys, wanted ∈ table.keys ∨ wanted ∈ allowed) :
    later.rows.length ≤ table.rows.length + allowed.card := by
  rw [← length_keys, ← length_keys,
    ← List.toFinset_card_of_nodup later.nodup_keys,
    ← List.toFinset_card_of_nodup table.nodup_keys]
  refine (Finset.card_le_card fun wanted member => ?_).trans
    (Finset.card_union_le _ _)
  rw [Finset.mem_union, List.mem_toFinset]
  exact known wanted (List.mem_toFinset.mp member)

/-- A table that keeps its keys and has finitely many new ones has grown by as
many at least. -/
theorem add_card_le_length {table later : Table key} {added : Finset Key}
    (kept : ∀ wanted ∈ table.keys, wanted ∈ later.keys)
    (present : ∀ wanted ∈ added, wanted ∈ later.keys)
    (fresh : ∀ wanted ∈ added, wanted ∉ table.keys) :
    table.rows.length + added.card ≤ later.rows.length := by
  rw [← length_keys, ← length_keys,
    ← List.toFinset_card_of_nodup later.nodup_keys,
    ← List.toFinset_card_of_nodup table.nodup_keys]
  rw [← Finset.card_union_of_disjoint]
  · refine Finset.card_le_card fun wanted member => ?_
    rw [Finset.mem_union, List.mem_toFinset] at member
    rw [List.mem_toFinset]
    exact member.elim (kept wanted) (present wanted)
  · rw [Finset.disjoint_left]
    intro wanted isOld isNew
    exact fresh wanted isNew (List.mem_toFinset.mp isOld)

end Table

end KeyedTable

end RefinetPillars
