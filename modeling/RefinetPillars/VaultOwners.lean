import RefinetPillars.VaultStorage

/-!
# A vault with many owners

A vault is a map from owners and names to items, as long as nobody stores an
item under a name that has one already, whoever its owner is.
-/

namespace RefinetPillars

namespace VaultStorage

open HexText ContentSigning
open PidFile (Environment plainEnvironment seedOf)

section Statement

variable (env : Environment)

/-- An item that has been stored, with the data and the password. -/
structure Item where
  row : Row
  encrypted : List UInt8
  data : List UInt8
  password : Text
  opens : decryptData env encrypted password = some data

/-- What a vault is for: the items of owners by their names. -/
abbrev Items := Text → Text → Option (Item env)

def Items.empty : Items env := fun _ _ => none

def Storing.item (item : Storing) : Item env where
  row := item.row env
  encrypted := item.encrypted env
  data := item.data
  password := item.password
  opens := decryptData_encryptData item.data item.password item.random

/-- Change the item of an owner. -/
def Items.set {env : Environment} (items : Items env) (pid name : Text)
    (item : Option (Item env)) : Items env :=
  Function.update items pid (Function.update (items pid) name item)

variable {env}

/-- The items after an operation. -/
def Items.after (items : Items env) : Operation → Items env
  | .store item =>
      if (items item.pid item.name).isSome then items
      else items.set item.pid item.name (some (item.item env))
  | .retrieve _ _ _ | .list _ => items
  | .delete pid name => items.set pid name none

/-- What an operation has to answer. -/
def Expected (items : Items env) (answer : Answer) : Operation → Prop
  | .store item =>
      answer = if (items item.pid item.name).isSome then .alreadyExists
        else .stored (item.row env)
  | .retrieve pid name password =>
      match items pid name with
      | none => answer = .notFound
      | some item =>
          (password = item.password → answer = .retrieved item.data) ∧
            answer = match decryptData env item.encrypted password with
              | some data => .retrieved data
              | none => .decryptionFailed
  | .list pid =>
      ∃ rows, answer = .listed rows ∧ (rows.map Row.itemId).Nodup ∧
        ∀ row, row ∈ rows ↔
          ∃ name item, items pid name = some item ∧ item.row = row
  | .delete pid name =>
      answer = if (items pid name).isSome then .deleted else .notFound

/-- The rows and the files of a vault are those of its items. -/
structure Represents (vault : Vault) (items : Items env) : Prop where
  item : ∀ pid name item, items pid name = some item →
    item.row ∈ vault.rows ∧ item.row.pid = pid ∧ item.row.name = name
  row : ∀ row ∈ vault.rows, ∃ item,
    items row.pid row.name = some item ∧ item.row = row
  file : ∀ pid name item, items pid name = some item →
    vault.files (itemPath env name) = some item.encrypted ∧
      item.row.fileHash = hashContent env.scheme item.encrypted

/-- Every operation answers what it has to, and the vault goes on to have the
items that it has to. -/
def BehavesAs : Vault → Items env → List Operation → Prop
  | vault, items, [] => Represents vault items
  | vault, items, operation :: operations =>
      Represents vault items ∧
        Expected items (step env operation vault).2 operation ∧
        BehavesAs (step env operation vault).1 (items.after operation)
          operations

/-- Nobody has an item under a name that somebody stores, or retrieves without
having one. -/
def Apart (env : Environment) (vault : Vault) : Operation → Prop
  | .store item =>
      item.itemId ∉ vault.rows.map Row.itemId ∧
        ∀ row ∈ vault.rows, itemPath env row.name ≠ itemPath env item.name
  | .retrieve pid name _ =>
      (∃ row ∈ vault.rows, row.pid = pid ∧ row.name = name) ∨
        ∀ row ∈ vault.rows, itemPath env row.name ≠ itemPath env name
  | .list pid => pid = [] → ∀ row ∈ vault.rows, row.pid = []
  | .delete _ _ => True

/-- A condition on every operation and the vault that it meets. -/
def Throughout (env : Environment) (condition : Vault → Operation → Prop) :
    Vault → List Operation → Prop
  | _, [] => True
  | vault, operation :: operations =>
      condition vault operation ∧
        Throughout env condition (step env operation vault).1 operations

/-- The items of a vault have files of their own, and there are no others. -/
structure Consistent (vault : Vault) (items : Items env) : Prop
    extends Represents vault items where
  path : ∀ row ∈ vault.rows, ∀ other ∈ vault.rows,
    itemPath env row.name = itemPath env other.name → row = other
  owned : ∀ path, (vault.files path).isSome = true →
    ∃ row ∈ vault.rows, itemPath env row.name = path

end Statement

section Storing

variable {env : Environment} {vault : Vault} {items : Items env}

theorem set_same (pid name : Text) (item : Option (Item env)) :
    items.set pid name item pid name = item := by
  rw [Items.set, Function.update_self, Function.update_self]

theorem set_other {pid name otherPid otherName : Text}
    (item : Option (Item env)) (differ : otherPid ≠ pid ∨ otherName ≠ name) :
    items.set pid name item otherPid otherName = items otherPid otherName := by
  unfold Items.set
  by_cases same : otherPid = pid
  · subst same
    have named := differ.resolve_left (absurd rfl)
    rw [Function.update_self, Function.update_of_ne named]
  · rw [Function.update_of_ne same]

/-- Nobody has an item where there is no row. -/
theorem Represents.eq_none (represents : Represents vault items)
    {pid name : Text}
    (free : ∀ row ∈ vault.rows, itemPath env row.name ≠ itemPath env name) :
    items pid name = none := by
  cases owned : items pid name with
  | none => rfl
  | some item =>
      obtain ⟨member, -, named⟩ := represents.item pid name item owned
      exact absurd (congrArg (itemPath env) named) (free item.row member)

theorem storeItem_eq {item : Storing}
    (fresh : item.itemId ∉ vault.rows.map Row.itemId) :
    (storeItem env item vault).2 = .stored (item.row env) ∧
      (storeItem env item vault).1.rows = vault.rows ++ [item.row env] ∧
      (storeItem env item vault).1.files = Function.update vault.files
        (itemPath env item.name) (some (item.encrypted env)) := by
  have inserted : insertRow (item.row env) (vault.write
      (itemPath env item.name) (item.encrypted env)) = some _ := dif_neg fresh
  unfold storeItem
  dsimp only
  rw [inserted]
  exact ⟨rfl, rfl, rfl⟩

/-- Storing under a free name. -/
theorem consistent_store {item : Storing} {next : Vault}
    (consistent : Consistent vault items)
    (free : ∀ row ∈ vault.rows,
      itemPath env row.name ≠ itemPath env item.name)
    (rows : next.rows = vault.rows ++ [item.row env])
    (files : next.files = Function.update vault.files
      (itemPath env item.name) (some (item.encrypted env))) :
    Consistent next
      (items.set item.pid item.name (some (item.item env))) := by
  have cases_ : ∀ pid name found,
      items.set item.pid item.name (some (item.item env)) pid name =
        some found →
      (pid = item.pid ∧ name = item.name ∧ found = item.item env) ∨
        items pid name = some found ∧
          itemPath env name ≠ itemPath env item.name := by
    intro pid name found owned
    by_cases same : pid = item.pid ∧ name = item.name
    · obtain ⟨rfl, rfl⟩ := same
      rw [set_same] at owned
      exact .inl ⟨rfl, rfl, (Option.some.inj owned).symm⟩
    · rw [set_other _ (not_and_or.mp same)] at owned
      obtain ⟨member, -, named⟩ := consistent.item pid name found owned
      refine .inr ⟨owned, ?_⟩
      rw [← named]
      exact free _ member
  constructor
  case toRepresents =>
      constructor
      case item =>
          intro pid name found owned
          rw [rows]
          rcases cases_ pid name found owned with ⟨rfl, rfl, rfl⟩ | ⟨older, -⟩
          · exact ⟨List.mem_append_right _ (List.mem_singleton.mpr rfl), rfl, rfl⟩
          · obtain ⟨member, named⟩ := consistent.item pid name found older
            exact ⟨List.mem_append_left _ member, named⟩
      case row =>
          intro row member
          rw [rows] at member
          rcases List.mem_append.mp member with older | newest
          · obtain ⟨found, owned, isRow⟩ := consistent.row row older
            refine ⟨found, ?_, isRow⟩
            rw [set_other, owned]
            exact .inr fun named => free row older (congrArg _ named)
          · obtain rfl := List.mem_singleton.mp newest
            exact ⟨_, set_same _ _ _, rfl⟩
      case file =>
          intro pid name found owned
          rw [files]
          rcases cases_ pid name found owned with
            ⟨rfl, rfl, rfl⟩ | ⟨older, differs⟩
          · exact ⟨Function.update_self _ _ _, rfl⟩
          · rw [Function.update_of_ne differs]
            exact consistent.file pid name found older
  case path =>
      intro row member other otherMember same
      rw [rows] at member otherMember
      rcases List.mem_append.mp member with older | newest
      · rcases List.mem_append.mp otherMember with otherOlder | otherNewest
        · exact consistent.path row older other otherOlder same
        · obtain rfl := List.mem_singleton.mp otherNewest
          exact absurd same (free row older)
      · obtain rfl := List.mem_singleton.mp newest
        rcases List.mem_append.mp otherMember with otherOlder | otherNewest
        · exact absurd same.symm (free other otherOlder)
        · exact (List.mem_singleton.mp otherNewest).symm
  case owned =>
      intro path present
      rw [rows]
      rw [files] at present
      by_cases here : path = itemPath env item.name
      · exact ⟨_, List.mem_append_right _ (List.mem_singleton.mpr rfl),
          here.symm⟩
      · rw [Function.update_of_ne here] at present
        obtain ⟨row, member, isPath⟩ := consistent.owned path present
        exact ⟨row, List.mem_append_left _ member, isPath⟩

end Storing

section Deleting

variable {env : Environment} {vault : Vault} {items : Items env}

/-- Rows with one owner and one name are the same. -/
theorem Represents.row_eq (represents : Represents vault items)
    {row other : Row} (member : row ∈ vault.rows) (otherMem : other ∈ vault.rows)
    (pid : row.pid = other.pid) (name : row.name = other.name) :
    row = other := by
  obtain ⟨item, owned, isRow⟩ := represents.row row member
  obtain ⟨otherItem, otherOwned, isOther⟩ := represents.row other otherMem
  rw [pid, name, otherOwned] at owned
  rw [← isRow, ← isOther, Option.some.inj owned]

theorem itemId_inj {row other : Row} (member : row ∈ vault.rows)
    (otherMem : other ∈ vault.rows) (same : row.itemId = other.itemId) :
    row = other :=
  List.inj_on_of_nodup_map vault.unique member otherMem same

/-- What is deleted is the row of the owner, and the file. -/
theorem deleteItem_cases (represents : Represents vault items)
    (pid name : Text) :
    (items pid name = none ∧
      deleteItem env name pid vault = (vault, .notFound)) ∨
    ∃ item, items pid name = some item ∧
      (deleteItem env name pid vault).2 = .deleted ∧
      (deleteItem env name pid vault).1.rows = vault.rows.filter (fun row =>
        row.itemId ≠ item.row.itemId) ∧
      (deleteItem env name pid vault).1.files =
        Function.update vault.files (itemPath env name) none := by
  unfold deleteItem
  cases found : vault.rows.find? fun row => row.name = name ∧ row.pid = pid with
  | none =>
      refine .inl ⟨?_, rfl⟩
      cases owned : items pid name with
      | none => rfl
      | some item =>
          obtain ⟨member, isPid, isName⟩ := represents.item pid name item owned
          have absent := List.find?_eq_none.mp found item.row member
          exact absurd (decide_eq_true ⟨isName, isPid⟩) absent
  | some row =>
      have named : row.name = name ∧ row.pid = pid := by
        simpa using List.find?_some found
      obtain ⟨item, owned, rfl⟩ :=
        represents.row row (List.mem_of_find?_eq_some found)
      rw [named.1, named.2] at owned
      exact .inr ⟨item, owned, rfl, rfl, rfl⟩

theorem consistent_delete {pid name : Text} {item : Item env} {next : Vault}
    (consistent : Consistent vault items) (owned : items pid name = some item)
    (rows : next.rows = vault.rows.filter fun row =>
      row.itemId ≠ item.row.itemId)
    (files : next.files = Function.update vault.files (itemPath env name)
      none) :
    Consistent next (items.set pid name none) := by
  obtain ⟨itemMem, isPid, isName⟩ := consistent.item pid name item owned
  have kept : ∀ row, row ∈ next.rows ↔
      row ∈ vault.rows ∧ row.itemId ≠ item.row.itemId := by
    intro row
    rw [rows, List.mem_filter, decide_eq_true_eq]
  have others : ∀ otherPid otherName found,
      items.set pid name none otherPid otherName = some found →
      (otherPid ≠ pid ∨ otherName ≠ name) ∧
        items otherPid otherName = some found := by
    intro otherPid otherName found stillOwned
    by_cases same : otherPid = pid ∧ otherName = name
    · obtain ⟨rfl, rfl⟩ := same
      rw [set_same] at stillOwned
      cases stillOwned
    · have differ := not_and_or.mp same
      rw [set_other _ differ] at stillOwned
      exact ⟨differ, stillOwned⟩
  constructor
  case toRepresents =>
      constructor
      case item =>
          intro otherPid otherName found stillOwned
          obtain ⟨differ, older⟩ := others otherPid otherName found stillOwned
          obtain ⟨member, otherIsPid, otherIsName⟩ :=
            consistent.item otherPid otherName found older
          refine ⟨(kept _).mpr ⟨member, fun sameId => ?_⟩, otherIsPid,
            otherIsName⟩
          have same := itemId_inj member itemMem sameId
          rw [← otherIsPid, ← otherIsName, same, isPid, isName] at differ
          exact differ.elim (absurd rfl) (absurd rfl)
      case row =>
          intro row member
          obtain ⟨older, differs⟩ := (kept row).mp member
          obtain ⟨found, stillOwned, isRow⟩ := consistent.row row older
          refine ⟨found, ?_, isRow⟩
          rw [set_other, stillOwned]
          by_contra same
          obtain ⟨samePid, sameName⟩ := not_or.mp same
          exact differs (congrArg Row.itemId (consistent.row_eq older itemMem
            ((not_not.mp samePid).trans isPid.symm)
            ((not_not.mp sameName).trans isName.symm)))
      case file =>
          intro otherPid otherName found stillOwned
          obtain ⟨differ, older⟩ := others otherPid otherName found stillOwned
          obtain ⟨member, otherIsPid, otherIsName⟩ :=
            consistent.item otherPid otherName found older
          rw [files, Function.update_of_ne]
          · exact consistent.file otherPid otherName found older
          intro samePath
          rw [← otherIsName, ← isName] at samePath
          have same := consistent.path _ member _ itemMem samePath
          rw [← otherIsPid, ← otherIsName, same, isPid, isName] at differ
          exact differ.elim (absurd rfl) (absurd rfl)
  case path =>
      intro row member other otherMem same
      exact consistent.path row ((kept row).mp member).1 other
        ((kept other).mp otherMem).1 same
  case owned =>
      intro path present
      rw [files] at present
      by_cases here : path = itemPath env name
      · subst here
        rw [Function.update_self] at present
        cases present
      · rw [Function.update_of_ne here] at present
        obtain ⟨row, member, isPath⟩ := consistent.owned path present
        refine ⟨row, (kept row).mpr ⟨member, fun sameId => here ?_⟩, isPath⟩
        rw [← isPath, itemId_inj member itemMem sameId, isName]

end Deleting

section Runs

variable {env : Environment} {vault : Vault} {items : Items env}

theorem expected_retrieve (consistent : Consistent vault items)
    {pid name password : Text}
    (apart : Apart env vault (.retrieve pid name password)) :
    Expected items (retrieveItem env name password vault)
      (.retrieve pid name password) := by
  unfold Expected retrieveItem
  dsimp only
  rcases apart with ⟨row, member, isPid, isName⟩ | free
  · obtain ⟨item, owned, -⟩ := consistent.row row member
    rw [isPid, isName] at owned
    obtain ⟨present, -⟩ := consistent.file pid name item owned
    rw [owned, present]
    refine ⟨?_, rfl⟩
    rintro rfl
    dsimp only
    rw [item.opens]
  · rw [consistent.eq_none free]
    dsimp only
    cases present : vault.files (itemPath env name) with
    | none => rfl
    | some bytes =>
        obtain ⟨row, member, isPath⟩ := consistent.owned (itemPath env name)
          (by rw [present]; rfl)
        exact absurd isPath (free row member)

theorem expected_list (consistent : Consistent vault items) {pid : Text}
    (apart : Apart env vault (.list pid)) :
    Expected items (.listed (listItems pid vault)) (.list pid) := by
  have perm : (listItems pid vault).Perm
      (vault.rows.filter fun row => pid = [] || row.pid = pid) :=
    List.mergeSort_perm _ _
  refine ⟨listItems pid vault, rfl, ?_, fun row => ?_⟩
  · refine (perm.map Row.itemId).nodup_iff.mpr ?_
    exact (List.filter_sublist.map Row.itemId).nodup vault.unique
  · rw [perm.mem_iff, List.mem_filter, Bool.or_eq_true, decide_eq_true_eq,
      decide_eq_true_eq]
    constructor
    · rintro ⟨member, ofPid⟩
      obtain ⟨item, owned, isRow⟩ := consistent.row row member
      have isPid : row.pid = pid := by
        rcases ofPid with rfl | isPid
        · exact apart rfl row member
        · exact isPid
      rw [isPid] at owned
      exact ⟨row.name, item, owned, isRow⟩
    · rintro ⟨name, item, owned, rfl⟩
      obtain ⟨member, isPid, -⟩ := consistent.item pid name item owned
      exact ⟨member, .inr isPid⟩

/-- One operation. -/
theorem consistent_step {operation : Operation}
    (consistent : Consistent vault items)
    (apart : Apart env vault operation) :
    Expected items (step env operation vault).2 operation ∧
      Consistent (step env operation vault).1 (items.after operation) := by
  cases operation with
  | store item =>
      obtain ⟨fresh, free⟩ := apart
      obtain ⟨answer, rows, files⟩ := @storeItem_eq env _ item fresh
      have absent : items item.pid item.name = none := consistent.eq_none free
      rw [Items.after, Expected, absent]
      exact ⟨answer, consistent_store consistent free rows files⟩
  | retrieve pid name password =>
      exact ⟨expected_retrieve consistent apart, consistent⟩
  | list pid => exact ⟨expected_list consistent apart, consistent⟩
  | delete pid name =>
      rcases deleteItem_cases consistent.toRepresents pid name with
        ⟨absent, unchanged⟩ | ⟨item, owned, answer, rows, files⟩
      · have same : items.after (.delete pid name) = items := by
          funext otherPid otherName
          by_cases here : otherPid = pid ∧ otherName = name
          · obtain ⟨rfl, rfl⟩ := here
            exact (set_same _ _ _).trans absent.symm
          · exact set_other _ (not_and_or.mp here)
        rw [same, step, unchanged, Expected, absent]
        exact ⟨rfl, consistent⟩
      · rw [Expected, owned]
        exact ⟨answer, consistent_delete consistent owned rows files⟩

theorem behavesAs_of_consistent {operations : List Operation}
    (consistent : Consistent vault items)
    (apart : Throughout env (Apart env) vault operations) :
    BehavesAs vault items operations := by
  induction operations generalizing vault items with
  | nil => exact consistent.toRepresents
  | cons operation operations ih =>
      obtain ⟨expected, next⟩ := consistent_step consistent apart.1
      exact ⟨consistent.toRepresents, expected, ih next apart.2⟩

theorem consistent_empty (env : Environment) :
    Consistent Vault.empty (Items.empty env) where
  item _ _ _ := nofun
  row _ member := absurd member List.not_mem_nil
  file _ _ _ := nofun
  path _ member := absurd member List.not_mem_nil
  owned _ := nofun

/-- Whatever is done with a vault, it is a map from owners and names to items,
if nobody meets an item of another owner, or stores one again. -/
theorem vault_behavesAs {operations : List Operation}
    (apart : Throughout env (Apart env) Vault.empty operations) :
    BehavesAs Vault.empty (Items.empty env) operations :=
  behavesAs_of_consistent (consistent_empty env) apart

end Runs

section Examples

/-- Notes of an owner. -/
def notesOf (pid itemId : String) (data : List UInt8) : Storing where
  name := "notes".toList
  data := data
  password := "secret".toList
  pid := pid.toList
  mimeType := "text/plain".toList
  itemId := itemId.toList
  random := (seedOf 1).random
  createdAt := 0

/-- Notes are stored, retrieved, deleted and not found. -/
theorem vault_behavesAs_notes :
    BehavesAs Vault.empty (Items.empty plainEnvironment)
      [.store (notesOf "pid-1" "vault_1" [1, 2]),
        .retrieve "pid-1".toList "notes".toList "secret".toList,
        .delete "pid-2".toList "notes".toList] := by
  refine vault_behavesAs ⟨⟨List.not_mem_nil, ?_⟩, .inl ?_, trivial, trivial⟩
  · exact fun _ member => absurd member List.not_mem_nil
  · exact ⟨(notesOf "pid-1" "vault_1" [1, 2]).row plainEnvironment,
      List.mem_singleton.mpr rfl, rfl, rfl⟩

/-- Whatever is done with a vault, it is a map from owners and names to
items. -/
def VaultBehaves : Prop :=
  ∀ (env : Environment) (operations : List Operation),
    BehavesAs Vault.empty (Items.empty env) operations

/-- An owner stores notes twice. -/
theorem not_vaultBehaves : ¬ VaultBehaves := by
  intro claimed
  have behaves := claimed plainEnvironment
    [.store (notesOf "pid-1" "vault_1" [1, 2]),
      .store (notesOf "pid-1" "vault_2" [3])]
  obtain ⟨-, -, -, second, -⟩ := behaves
  have free : (Items.empty plainEnvironment "pid-1".toList
      "notes".toList).isSome = false := rfl
  have taken : ((Items.empty plainEnvironment).after
      (.store (notesOf "pid-1" "vault_1" [1, 2])) "pid-1".toList
        "notes".toList).isSome = true := by
    unfold Items.after
    dsimp only [notesOf]
    rw [if_neg (ne_true_of_eq_false free), set_same]
    rfl
  have expected : Answer.stored _ = Answer.alreadyExists :=
    second.trans (if_pos taken)
  cases expected

end Examples

end VaultStorage

end RefinetPillars
