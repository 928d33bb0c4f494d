import RefinetPillars.DictUpdates

/-!
# Blocks under headings

A document is a list of lines, of which some are headings.  A block is the name
in a heading and the lines up to the next heading.  Lines before any heading
belong to no block, and a block without a name is dropped.
-/

namespace RefinetPillars

namespace HeadedBlocks

open OrderedDict

variable {Line Name Item Block : Type} [DecidableEq Name]

/-- How lines are read: the name in a heading, what another line adds to its
block, and what becomes of all that was added. -/
structure Format (Line Name Item Block : Type) where
  heading : Line → Option Name
  isUnnamed : Name → Bool
  item : Line → Option Item
  finish : List Item → Block

structure Scan (Name Item Block : Type) where
  found : Dict Name Block
  current : Option Name
  items : List Item

variable (format : Format Line Name Item Block)

/-- What has been found when the block that is being read ends. -/
def Format.close (scan : Scan Name Item Block) : Dict Name Block :=
  match scan.current with
  | none => scan.found
  | some name =>
      if format.isUnnamed name then scan.found
      else scan.found.set name (format.finish scan.items)

def Format.step (scan : Scan Name Item Block) (line : Line) :
    Scan Name Item Block :=
  match format.heading line with
  | some name => ⟨format.close scan, some name, []⟩
  | none => { scan with items := scan.items ++ (format.item line).toList }

def Format.blocks (lines : List Line) : Dict Name Block :=
  format.close (lines.foldl format.step ⟨.empty, none, []⟩)

variable {format}

/-- Lines that are no headings belong to the block that is being read. -/
theorem foldl_step_of_plain {lines : List Line}
    (plain : ∀ line ∈ lines, format.heading line = none)
    (scan : Scan Name Item Block) :
    lines.foldl format.step scan =
      { scan with items := scan.items ++ lines.filterMap format.item } := by
  induction lines generalizing scan with
  | nil => simp
  | cons line lines ih =>
      have stepped : format.step scan line =
          { scan with items := scan.items ++ (format.item line).toList } := by
        rw [Format.step, plain line (.head _)]
      rw [List.foldl_cons, stepped, ih fun other member =>
        plain other (.tail _ member), List.filterMap_cons]
      cases format.item line with
      | none => simp
      | some item => simp

/-- A block as it is written: its name, its heading and its lines. -/
structure Written (Line Name : Type) where
  name : Name
  head : Line
  body : List Line

def Written.lines (written : Written Line Name) : List Line :=
  written.head :: written.body

/-- A written block is read as it was meant. -/
structure Written.Proper (format : Format Line Name Item Block)
    (written : Written Line Name) : Prop where
  head : format.heading written.head = some written.name
  named : format.isUnnamed written.name = false
  body : ∀ line ∈ written.body, format.heading line = none

def Written.block (format : Format Line Name Item Block)
    (written : Written Line Name) : Block :=
  format.finish (written.body.filterMap format.item)

theorem close_foldl_step {documents : List (Written Line Name)}
    (proper : ∀ written ∈ documents, written.Proper format)
    (scan : Scan Name Item Block) :
    format.close ((documents.flatMap Written.lines).foldl format.step scan) =
      (format.close scan).update (documents.map fun written =>
        (written.name, written.block format)) := by
  induction documents generalizing scan with
  | nil => rfl
  | cons written documents ih =>
      obtain ⟨head, named, body⟩ := proper written (.head _)
      have opened : format.step scan written.head =
          ⟨format.close scan, some written.name, []⟩ := by
        rw [Format.step, head]
      rw [List.flatMap_cons, List.foldl_append, Written.lines, List.foldl_cons,
        opened, foldl_step_of_plain body,
        ih fun other member => proper other (.tail _ member), List.map_cons,
        Dict.update, Dict.update, List.foldl_cons]
      congr 1
      dsimp only [Format.close]
      rw [if_neg (by simp [named])]
      rfl

/-- What is written in blocks of different names is read back. -/
theorem entries_blocks {documents : List (Written Line Name)}
    (proper : ∀ written ∈ documents, written.Proper format)
    (unique : (documents.map Written.name).Nodup) :
    (format.blocks (documents.flatMap Written.lines)).entries =
      documents.map fun written => (written.name, written.block format) := by
  rw [Format.blocks, close_foldl_step proper]
  refine Dict.entries_update_empty ?_
  rw [List.map_map]
  exact unique

end HeadedBlocks

end RefinetPillars
