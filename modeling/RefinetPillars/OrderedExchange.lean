import Mathlib

/-!
# Requests that are answered in order

A client keeps a table of the requests that wait for an answer, and every
request is on its way, first to the server and then back as its answer.  The
server answers in order, so the identifiers on the way are sorted.  As long as
every entry of the table has its answer on the way, the next answer that comes
is the one of the first entry, or of no entry at all.
-/

namespace RefinetPillars

namespace OrderedExchange

variable {Entry Id : Type*} [LinearOrder Id] {identifier : Entry → Id}

/-- The table and the way are sorted by identifiers that were issued, and the
answer of every entry is on its way. -/
structure InOrder (identifier : Entry → Id) (table : List Entry)
    (way : List Id) (issued : Id) : Prop where
  sorted_table : (table.map identifier).Pairwise (· < ·)
  sorted_way : way.Pairwise (· < ·)
  le_issued : ∀ id ∈ way, id ≤ issued
  awaited : ∀ entry ∈ table, identifier entry ∈ way

namespace InOrder

variable {table : List Entry} {way : List Id} {issued first : Id}

theorem empty (issued : Id) : InOrder identifier ([] : List Entry) [] issued :=
  ⟨.nil, .nil, nofun, nofun⟩

theorem send {entry : Entry} (order : InOrder identifier table way issued)
    (fresh : issued < identifier entry) :
    InOrder identifier (table ++ [entry]) (way ++ [identifier entry])
      (identifier entry) where
  sorted_table := by
    rw [List.map_append, List.pairwise_append]
    refine ⟨order.sorted_table, by simp, ?_⟩
    intro id member last lastMem
    obtain ⟨older, olderMem, rfl⟩ := List.mem_map.mp member
    obtain rfl : last = identifier entry := by simpa using lastMem
    exact (order.le_issued _ (order.awaited older olderMem)).trans_lt fresh
  sorted_way := by
    rw [List.pairwise_append]
    refine ⟨order.sorted_way, by simp, ?_⟩
    intro id member last lastMem
    obtain rfl : last = identifier entry := by simpa using lastMem
    exact (order.le_issued id member).trans_lt fresh
  le_issued := by
    intro id member
    rcases List.mem_append.mp member with older | newest
    · exact (order.le_issued id older).trans fresh.le
    · exact (List.mem_singleton.mp newest).le
  awaited := by
    intro member isMember
    rcases List.mem_append.mp isMember with older | newest
    · exact List.mem_append_left _ (order.awaited member older)
    · rw [List.mem_singleton.mp newest]
      simp

/-- Entries may be dropped at any time. -/
theorem sublist {rest : List Entry} (kept : rest.Sublist table)
    (order : InOrder identifier table way issued) :
    InOrder identifier rest way issued :=
  ⟨order.sorted_table.sublist (kept.map identifier), order.sorted_way,
    order.le_issued, fun entry member => order.awaited entry (kept.subset member)⟩

/-- What comes first on the way is the oldest of all. -/
theorem le_of_mem (order : InOrder identifier table (first :: way) issued)
    {entry : Entry} (member : entry ∈ table) : first ≤ identifier entry := by
  rcases List.mem_cons.mp (order.awaited entry member) with same | later
  · exact same.ge
  · exact (List.rel_of_pairwise_cons order.sorted_way later).le

/-- The request whose answer comes is the first of the table, if it still
waits. -/
theorem head?_eq (order : InOrder identifier table (first :: way) issued)
    {entry : Entry} (member : entry ∈ table) (own : identifier entry = first) :
    table.head? = some entry := by
  cases table with
  | nil => cases member
  | cons oldest rest =>
      rcases List.mem_cons.mp member with rfl | later
      · rfl
      · have sorted := order.sorted_table
        rw [List.map_cons] at sorted
        have before : identifier oldest < identifier entry :=
          List.rel_of_pairwise_cons sorted (List.mem_map_of_mem later)
        have after : first ≤ identifier oldest :=
          order.le_of_mem List.mem_cons_self
        exact absurd (own ▸ before) after.not_gt

/-- An answer that came leaves the way, once its request is out of the
table. -/
theorem receive (order : InOrder identifier table (first :: way) issued)
    (settled : ∀ entry ∈ table, identifier entry ≠ first) :
    InOrder identifier table way issued where
  sorted_table := order.sorted_table
  sorted_way := order.sorted_way.of_cons
  le_issued := fun id member => order.le_issued id (List.mem_cons_of_mem _ member)
  awaited := by
    intro entry member
    rcases List.mem_cons.mp (order.awaited entry member) with same | later
    · exact absurd same (settled entry member)
    · exact later

end InOrder

end OrderedExchange

end RefinetPillars
