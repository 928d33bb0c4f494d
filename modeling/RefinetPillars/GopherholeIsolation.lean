import RefinetPillars.GopherholeRegistry

/-!
# Which directories are imported whole

Every record of a peer's directory that verifies is imported, whatever stands
beside it and in whatever order, as long as each element of the directory can
be looked up in the registry.
-/

namespace RefinetPillars

namespace GopherholeIsolation

open HexText ContentSigning JsonText ExceptRules
open GopherholeRecord (verifyGopherholeSignature)
open GopherholeRegistry

section Statement

variable (scheme : Scheme) (floatRepr : Text → Text)
  (realText : Text → Option Text) (peerPid today : Text)

/-- The row of an element that is a record with a valid signature. -/
def recordRow (hole : Json) : Option Row :=
  match hole with
  | .obj _ =>
      if verifyGopherholeSignature scheme hole = some true then
        (((registrationOf peerPid hole).dated today).row realText
          scheme).toOption
      else none
  | _ => none

local instance lawfulKey : LawfulBEq (Text × Text) := inferInstance

/-- That row, unless its PID and selector are in the registry. -/
def newRow (registry : Registry) (hole : Json) : Option Row :=
  (recordRow scheme realText peerPid today hole).filter fun row =>
    row.key ∉ registry.rows.map Row.key

/-- What a loop over the served value goes through. -/
def elements (holes : Json) : List Json :=
  (iterate holes).getD []

/-- The synchronization ends, and imports each new record of the elements, in
their order and without regard to the others. -/
structure ImportsEach (text : Text) (holes : Json) (registry : Registry) :
    Prop where
  returns :
    (syncPeerRegistry scheme floatRepr realText true peerPid today (some text)
      registry).2 =
      some ((elements holes).filterMap
        (newRow scheme realText peerPid today registry)).length
  imports :
    (syncPeerRegistry scheme floatRepr realText true peerPid today (some text)
      registry).1.rows =
      registry.rows ++ (elements holes).filterMap
        (newRow scheme realText peerPid today registry)

/-- The same directory in another order gives the same count and the same
rows. -/
def AnyOrder (text : Text) (holes : Json) (registry : Registry) : Prop :=
  ∀ other items, offered floatRepr other = some (.arr items) →
    (elements holes).Perm items →
    (syncPeerRegistry scheme floatRepr realText true peerPid today (some other)
      registry).2 =
      (syncPeerRegistry scheme floatRepr realText true peerPid today
        (some text) registry).2 ∧
    (syncPeerRegistry scheme floatRepr realText true peerPid today (some other)
      registry).1.rows.Perm
      (syncPeerRegistry scheme floatRepr realText true peerPid today
        (some text) registry).1.rows

/-- An element that can be looked up: an object whose PID and selector the
database takes. -/
def CanBeLookedUp : Json → Prop
  | .obj fields =>
      FitsColumn (field (.obj fields) "pid") ∧
        FitsColumn (field (.obj fields) "selector")
  | _ => False

end Statement

section Elements

variable {scheme : Scheme} {realText : Text → Option Text}
  {peerPid today : Text} {registry next : Registry} {hole : Json} {row : Row}

theorem exists_gopherholeExists_iff (realText : Text → Option Text)
    (registry : Registry) {pid selector : Json} :
    (∃ found, gopherholeExists realText registry pid selector = .ok found) ↔
      FitsColumn pid ∧ FitsColumn selector := by
  rw [← exists_columnText_iff realText pid,
    ← exists_columnText_iff realText selector]
  constructor
  · rintro ⟨found, looked⟩
    obtain ⟨pidText, isPid, looked⟩ := bind_eq_ok.mp looked
    obtain ⟨selectorText, isSelector, -⟩ := bind_eq_ok.mp looked
    exact ⟨⟨pidText, isPid⟩, ⟨selectorText, isSelector⟩⟩
  · rintro ⟨⟨pidText, isPid⟩, ⟨selectorText, isSelector⟩⟩
    rw [gopherholeExists, isPid, isSelector]
    cases pidText <;> cases selectorText <;> exact ⟨_, rfl⟩

/-- A record with a valid signature, and the row that is made of it. -/
theorem recordRow_eq_some :
    recordRow scheme realText peerPid today hole = some row ↔
      (∃ fields, hole = .obj fields) ∧
        verifyGopherholeSignature scheme hole = some true ∧
        ((registrationOf peerPid hole).dated today).row realText scheme =
          .ok row := by
  cases hole with
  | obj fields =>
      rw [recordRow]
      split
      next verified =>
        cases made : ((registrationOf peerPid (.obj fields)).dated today).row
            realText scheme with
        | error refused => simp [Except.toOption]
        | ok stored => simp [Except.toOption, verified]
      next unverified => simp [unverified]
  | null | bool | int | float | str | arr => simp [recordRow]

/-- A record is looked up by the key of its row. -/
theorem gopherholeExists_of_recordRow (registry : Registry)
    (made : recordRow scheme realText peerPid today hole = some row) :
    gopherholeExists realText registry (field hole "pid")
        (field hole "selector") =
      .ok (decide (row.key ∈ registry.rows.map Row.key)) := by
  obtain ⟨-, -, made⟩ := recordRow_eq_some.mp made
  obtain ⟨isPid, isSelector, -, -⟩ := row_eq_ok made
  rw [dated_pid] at isPid
  rw [dated_selector] at isSelector
  change columnText realText (field hole "pid") = _ at isPid
  change columnText realText (field hole "selector") = _ at isSelector
  rw [gopherholeExists, isPid, isSelector]
  rfl

theorem newRow_of_present
    (made : recordRow scheme realText peerPid today hole = some row)
    (present : row.key ∈ registry.rows.map Row.key) :
    newRow scheme realText peerPid today registry hole = none := by
  rw [newRow, made, Option.filter_some]
  exact if_neg fun absent => (of_decide_eq_true absent : _ ∉ _) present

theorem newRow_of_absent
    (made : recordRow scheme realText peerPid today hole = some row)
    (absent : row.key ∉ registry.rows.map Row.key) :
    newRow scheme realText peerPid today registry hole = some row := by
  rw [newRow, made, Option.filter_some]
  exact if_pos (decide_eq_true absent)

/-- What is not made into a row changes nothing. -/
theorem importHole_eq_of_none (lookedUp : CanBeLookedUp hole)
    (unmade : recordRow scheme realText peerPid today hole = none) :
    importHole scheme realText peerPid today registry hole =
      some (registry, 0) := by
  cases hole with
  | obj fields =>
      obtain ⟨found, looked⟩ :=
        (exists_gopherholeExists_iff realText registry).mpr lookedUp
      rw [importHole, looked]
      cases found with
      | true => rfl
      | false =>
          dsimp only
          split
          next verified =>
            cases done : registerGopherhole realText scheme today
                (registrationOf peerPid (.obj fields)) registry with
            | error refused => rfl
            | ok registered =>
                obtain ⟨row, made, -⟩ := registerGopherhole_eq_ok done
                have isMade := recordRow_eq_some.mpr
                  ⟨⟨fields, rfl⟩, verified, made⟩
                cases unmade.symm.trans isMade
          next => rfl
  | null | bool | int | float | str | arr => exact lookedUp.elim

/-- A row is inserted where its key is not there yet. -/
theorem registerGopherhole_eq {registration : Registration}
    (made : (registration.dated today).row realText scheme = .ok row)
    (absent : row.key ∉ registry.rows.map Row.key) :
    ∃ next, registerGopherhole realText scheme today registration registry =
        .ok next ∧ next.rows = registry.rows ++ [row] := by
  rw [registerGopherhole, made]
  change ∃ next, insertRow registry row = .ok next ∧ _
  rw [insertRow, dif_neg absent]
  exact ⟨_, rfl, rfl⟩

/-- An element that can be looked up adds its new row, if it has one. -/
theorem importHole_eq (scheme : Scheme) (realText : Text → Option Text)
    (peerPid today : Text) (registry : Registry)
    (lookedUp : CanBeLookedUp hole) :
    ∃ next, importHole scheme realText peerPid today registry hole =
        some (next,
          (newRow scheme realText peerPid today registry hole).toList.length) ∧
      next.rows = registry.rows ++
        (newRow scheme realText peerPid today registry hole).toList := by
  cases made : recordRow scheme realText peerPid today hole with
  | none =>
      rw [importHole_eq_of_none lookedUp made, newRow, made]
      exact ⟨registry, rfl, (List.append_nil _).symm⟩
  | some row =>
      have looked := gopherholeExists_of_recordRow registry made
      obtain ⟨⟨fields, rfl⟩, verified, stored⟩ := recordRow_eq_some.mp made
      rw [importHole, looked]
      by_cases present : row.key ∈ registry.rows.map Row.key
      · rw [decide_eq_true present, newRow_of_present made present]
        exact ⟨registry, rfl, (List.append_nil _).symm⟩
      · obtain ⟨next, registered, rows⟩ :=
          registerGopherhole_eq stored present
        rw [decide_eq_false present, newRow_of_absent made present]
        dsimp only
        rw [if_pos verified, registered]
        exact ⟨next, rfl, rows⟩


/-- An element that cannot be looked up ends the synchronization. -/
theorem importHole_eq_none (lost : ¬ CanBeLookedUp hole) :
    importHole scheme realText peerPid today registry hole = none := by
  cases hole with
  | obj fields =>
      have unread : ¬ ∃ found, gopherholeExists realText registry
          (field (.obj fields) "pid") (field (.obj fields) "selector") =
            .ok found := fun found => lost
          ((exists_gopherholeExists_iff realText registry).mp found)
      rw [importHole]
      split
      · rfl
      next looked => exact absurd ⟨true, looked⟩ unread
      next looked => exact absurd ⟨false, looked⟩ unread
  | null | bool | int | float | str | arr => rfl

end Elements

section Directories

variable {scheme : Scheme} {floatRepr : Text → Text}
  {realText : Text → Option Text} {peerPid today : Text}
  {registry next : Registry}

/-- A row that has been added hides no record with another key. -/
theorem newRow_after {row : Row} {hole : Json}
    (rows : next.rows = registry.rows ++ [row])
    (differs : ∀ other,
      recordRow scheme realText peerPid today hole = some other →
      other.key ≠ row.key) :
    newRow scheme realText peerPid today next hole =
      newRow scheme realText peerPid today registry hole := by
  unfold newRow
  cases made : recordRow scheme realText peerPid today hole with
  | none => rfl
  | some other =>
      have apart := differs other made
      rw [Option.filter_some, Option.filter_some, rows]
      simp [apart]

/-- What an element adds hides no record behind it. -/
theorem filterMap_newRow_after {hole : Json} {items : List Json}
    (distinct : (((hole :: items).filterMap
      (recordRow scheme realText peerPid today)).map Row.key).Nodup)
    (rows : next.rows = registry.rows ++
      (newRow scheme realText peerPid today registry hole).toList) :
    items.filterMap (newRow scheme realText peerPid today next) =
      items.filterMap (newRow scheme realText peerPid today registry) := by
  refine List.filterMap_congr fun item member => ?_
  cases added : newRow scheme realText peerPid today registry hole with
  | none =>
      rw [added, Option.toList_none, List.append_nil] at rows
      rw [newRow, newRow, rows]
  | some row =>
      rw [added] at rows
      have made := (Option.filter_eq_some_iff.mp added).1
      rw [List.filterMap_cons_some made, List.map_cons, List.nodup_cons]
        at distinct
      refine newRow_after rows fun other isOther same => distinct.1 ?_
      rw [← same]
      exact List.mem_map_of_mem (List.mem_filterMap.mpr ⟨item, member, isOther⟩)

/-- Elements that can all be looked up are imported one by one. -/
theorem importHoles_eq (registry : Registry) {items : List Json}
    (lookedUp : ∀ hole ∈ items, CanBeLookedUp hole)
    (distinct : ((items.filterMap
      (recordRow scheme realText peerPid today)).map Row.key).Nodup) :
    (importHoles scheme realText peerPid today registry items).2 =
        some (items.filterMap
          (newRow scheme realText peerPid today registry)).length ∧
      (importHoles scheme realText peerPid today registry items).1.rows =
        registry.rows ++ items.filterMap
          (newRow scheme realText peerPid today registry) := by
  induction items generalizing registry with
  | nil => exact ⟨rfl, (List.append_nil _).symm⟩
  | cons hole items ih =>
      rw [List.forall_mem_cons] at lookedUp
      obtain ⟨next, imported, rows⟩ :=
        importHole_eq scheme realText peerPid today registry lookedUp.1
      have distinctRest := distinct.sublist
        (((List.sublist_cons_self hole items).filterMap _).map Row.key)
      have after := filterMap_newRow_after distinct rows
      obtain ⟨counted, added⟩ := @ih next lookedUp.2 distinctRest
      rw [after] at counted added
      rw [importHoles, imported, List.filterMap_cons]
      dsimp only
      rw [counted, added, rows]
      cases newRow scheme realText peerPid today registry hole with
      | none => simp
      | some row => simp [Nat.add_comm]

/-- A synchronization ends only where every element can be looked up. -/
theorem lookedUp_of_returns {items : List Json} {count : Nat}
    (returned : (importHoles scheme realText peerPid today registry items).2 =
      some count) :
    ∀ hole ∈ items, CanBeLookedUp hole := by
  induction items generalizing registry count with
  | nil => exact fun _ member => absurd member List.not_mem_nil
  | cons hole items ih =>
      by_cases lookedUp : CanBeLookedUp hole
      · obtain ⟨next, imported, -⟩ :=
          importHole_eq scheme realText peerPid today registry lookedUp
        rw [importHoles, imported] at returned
        obtain ⟨rest, ended, -⟩ := Option.map_eq_some_iff.mp returned
        exact List.forall_mem_cons.mpr ⟨lookedUp, ih ended⟩
      · rw [importHoles, importHole_eq_none lookedUp] at returned
        cases returned

theorem syncPeerRegistry_eq {text : Text} {holes : Json}
    (served : offered floatRepr text = some holes) :
    syncPeerRegistry scheme floatRepr realText true peerPid today (some text)
        registry =
      match iterate holes with
      | none => (registry, none)
      | some items =>
          importHoles scheme realText peerPid today registry items := by
  rw [syncPeerRegistry, if_pos rfl, Option.bind_some]
  generalize offered floatRepr text = answer at served ⊢
  subst served
  rfl

end Directories

section Examples

/-- A scheme under which nothing is signed. -/
def unsignedScheme : Scheme := ledgerScheme Sha256.sha256 []

/-- Every directory is imported element by element. -/
def EveryDirectoryIsImported : Prop :=
  ∀ (scheme : Scheme) (floatRepr : Text → Text)
    (realText : Text → Option Text) (peerPid today text : Text)
    (holes : Json) (registry : Registry),
    offered floatRepr text = some holes →
    (((elements holes).filterMap
      (recordRow scheme realText peerPid today)).map Row.key).Nodup →
    ImportsEach scheme floatRepr realText peerPid today text holes registry

end Examples

end GopherholeIsolation

end RefinetPillars
