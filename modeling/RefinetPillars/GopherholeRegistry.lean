import RefinetPillars.ExceptRules
import RefinetPillars.GopherholeRecord

/-!
# The registry of gopherholes

A registry has one row for a PID and a selector, and rows never change.  What a
peer serves as its directory is imported one hole after the other; what stands
in the document goes into the database as SQLite converts it.
-/

namespace RefinetPillars

namespace GopherholeRegistry

open HexText LineText DecimalText KeyRecovery ContentSigning JsonText
  GopherholeRecord

/-- A row of the table `gopherholes`. -/
structure Row where
  pid : Text
  selector : Text
  name : Text
  description : Option Text
  ownerAddress : Option Text
  pubkeyHex : Text
  signature : Text
  registeredAt : Text
  txHash : Text
  source : Option Text
deriving DecidableEq

def Row.key (row : Row) : Text × Text := (row.pid, row.selector)

/-- The rows in the order of their insertion. -/
structure Registry where
  rows : List Row
  unique : (rows.map Row.key).Nodup

def Registry.empty : Registry := ⟨[], List.nodup_nil⟩

/-- Why the database refuses a statement. -/
inductive DatabaseError where
  | unsupportedType
  | integerOverflow
  | notNull (column : String)
  | uniqueViolation
deriving DecidableEq

def insertRow (registry : Registry) (row : Row) :
    Except DatabaseError Registry :=
  if present : row.key ∈ registry.rows.map Row.key then
    .error .uniqueViolation
  else
    .ok ⟨registry.rows ++ [row], by
      rw [List.map_append, List.nodup_append]
      refine ⟨registry.unique, List.nodup_singleton _, ?_⟩
      rintro key keyMem other otherMem rfl
      obtain rfl := List.mem_singleton.mp otherMem
      exact present keyMem⟩

section Columns

variable (realText : Text → Option Text)

/-- What a column of texts holds of a value; NULL is nothing.  The parameter
says how the database prints a real number. -/
def columnText : Json → Except DatabaseError (Option Text)
  | .null => .ok none
  | .bool true => .ok (some ['1'])
  | .bool false => .ok (some ['0'])
  | .int value =>
      if -2 ^ 63 ≤ value ∧ value < 2 ^ 63 then .ok (some (intText value))
      else .error .integerOverflow
  | .float printed => .ok (realText printed)
  | .str value => .ok (some value)
  | .arr _ | .obj _ => .error .unsupportedType

def FitsInteger (value : Int) : Prop :=
  -2 ^ 63 ≤ value ∧ value < 2 ^ 63

instance decidableFitsInteger (value : Int) : Decidable (FitsInteger value) :=
  inferInstanceAs (Decidable (_ ∧ _))

/-- A value that a column of texts takes. -/
def FitsColumn : Json → Prop
  | .int value => FitsInteger value
  | .null | .bool _ | .float _ | .str _ => True
  | .arr _ | .obj _ => False

/-- A column that is never NULL. -/
def requiredText (column : String) (value : Json) :
    Except DatabaseError Text := do
  match ← columnText realText value with
  | some text => .ok text
  | none => .error (.notNull column)

def gopherholeExists (registry : Registry) (pid selector : Json) :
    Except DatabaseError Bool := do
  let pid ← columnText realText pid
  let selector ← columnText realText selector
  match pid, selector with
  | some pid, some selector =>
      .ok (decide ((pid, selector) ∈ registry.rows.map Row.key))
  | _, _ => .ok false

/-- The arguments of `register_gopherhole`. -/
structure Registration where
  pid : Json
  selector : Json
  name : Json
  description : Json
  ownerAddress : Json
  pubkeyHex : Json
  signature : Json
  source : Text
  registeredAt : Json

/-- A registration without a date is dated today. -/
def Registration.dated (registration : Registration) (today : Text) :
    Registration :=
  if registration.registeredAt.isFalsy then
    { registration with registeredAt := .str today }
  else registration

def Registration.record (registration : Registration) : Json :=
  .obj [("pid".toList, registration.pid),
    ("selector".toList, registration.selector),
    ("name".toList, registration.name),
    ("description".toList, registration.description),
    ("owner_address".toList, registration.ownerAddress),
    ("pubkey_hex".toList, registration.pubkeyHex),
    ("signature".toList, registration.signature),
    ("registered_at".toList, registration.registeredAt),
    ("source".toList, .str registration.source)]

variable (scheme : Scheme)

def Registration.txHash (registration : Registration) : Text :=
  hashContent scheme
    (encodeUtf8 (dumps { sortKeys := true } 0 registration.record))

/-- The row that is inserted. -/
def Registration.row (registration : Registration) :
    Except DatabaseError Row := do
  let pid ← requiredText realText "pid" registration.pid
  let selector ← requiredText realText "selector" registration.selector
  let name ← requiredText realText "name" registration.name
  let description ← columnText realText registration.description
  let ownerAddress ← columnText realText registration.ownerAddress
  let pubkeyHex ← requiredText realText "pubkey_hex" registration.pubkeyHex
  let signature ← requiredText realText "signature" registration.signature
  let registeredAt ←
    requiredText realText "registered_at" registration.registeredAt
  return {
    pid, selector, name, description, ownerAddress, pubkeyHex, signature,
    registeredAt
    txHash := registration.txHash scheme
    source := some registration.source }

def registerGopherhole (today : Text) (registration : Registration)
    (registry : Registry) : Except DatabaseError Registry := do
  let row ← (registration.dated today).row realText scheme
  insertRow registry row

/-- Why a gopherhole is not created. -/
inductive CreationError where
  | valueError (message : String)
  | fileExistsError (message : String)
  | database (error : DatabaseError)
deriving DecidableEq

/-- The flow of creating a gopherhole, without the files that it writes. -/
def createGopherhole (privateKey : List UInt8) (gopherRoot : Text)
    (name selector description ownerAddress : Text) (directoryExists : Bool)
    (year month day : Nat) (registry : Registry) :
    Except CreationError Registry :=
  let publicKey := scheme.publicKey privateKey
  let pid := pidOf scheme publicKey
  let registeredAt := accountingDate year month day
  let payload := signingPayload pid selector name registeredAt
  match validateSelector selector pid with
  | .error message => .error (.valueError message)
  | .ok () =>
      if directoryExists then
        .error (.fileExistsError ("Directory " ++
          String.ofList (gopherRoot ++ '/' :: selector.dropWhile (· = '/')) ++
          " already exists. Gopherhole '" ++ String.ofList selector ++
          "' may already be registered."))
      else
        match gopherholeExists realText registry (.str pid) (.str selector) with
        | .error error => .error (.database error)
        | .ok true =>
            .error (.fileExistsError ("Gopherhole '" ++
              String.ofList selector ++
              "' is already registered for this PID."))
        | .ok false =>
            (registerGopherhole realText scheme registeredAt {
              pid := .str pid
              selector := .str selector
              name := .str name
              description := .str description
              ownerAddress := .str ownerAddress
              pubkeyHex := .str (toHex publicKey)
              signature :=
                .str (signContent scheme (encodeUtf8 payload) privateKey)
              source := "local".toList
              registeredAt := .str registeredAt } registry).mapError
                .database

end Columns

section Import

variable (scheme : Scheme) (floatRepr : Text → Text)
  (realText : Text → Option Text)

/-- What a terminator at the end leaves. -/
def stripTerminator (raw : Text) : Text :=
  if (crlf ++ ['.']).isSuffixOf raw then raw.take (raw.length - 3)
  else if ['.'].isSuffixOf raw then raw.take (raw.length - 1)
  else raw

/-- The holes of a document, with or without an envelope. -/
def holesOf : Json → Option Json
  | .obj fields => (Json.obj fields).get "gopherholes".toList
  | .arr items => some (.arr items)
  | _ => none

/-- What a loop over a value goes through; nothing if it cannot. -/
def iterate : Json → Option (List Json)
  | .arr items => some items
  | .obj fields => some (fields.map fun field => .str field.1)
  | .str value => some (value.map fun character => .str [character])
  | _ => none

/-- The holes that a fetched answer offers. -/
def offered (text : Text) : Option Json :=
  (loads floatRepr (stripTerminator (strip text))).bind holesOf

/-- A value of a hole, or a default. -/
def field (hole : Json) (key : String) : Json :=
  (hole.get key.toList).getD (.str [])

/-- What is registered for a hole from a peer. -/
def registrationOf (peerPid : Text) (hole : Json) : Registration where
  pid := field hole "pid"
  selector := field hole "selector"
  name := field hole "name"
  description := field hole "description"
  ownerAddress := field hole "owner_address"
  pubkeyHex := field hole "pubkey_hex"
  signature := field hole "signature"
  source := peerPid
  registeredAt := field hole "registered_at"

/-- One hole: the registry after it and the number of imports; nothing if an
exception ends the synchronization. -/
def importHole (peerPid today : Text) (registry : Registry) (hole : Json) :
    Option (Registry × Nat) :=
  match hole with
  | .obj _ =>
      match gopherholeExists realText registry (field hole "pid")
          (field hole "selector") with
      | .error _ => none
      | .ok true => some (registry, 0)
      | .ok false =>
          if verifyGopherholeSignature scheme hole = some true then
            match registerGopherhole realText scheme today
                (registrationOf peerPid hole) registry with
            | .ok registered => some (registered, 1)
            | .error _ => some (registry, 0)
          else some (registry, 0)
  | _ => none

/-- All holes; what has been imported stays when an exception ends the
synchronization. -/
def importHoles (peerPid today : Text) (registry : Registry) :
    List Json → Registry × Option Nat
  | [] => (registry, some 0)
  | hole :: holes =>
      match importHole scheme realText peerPid today registry hole with
      | none => (registry, none)
      | some (next, count) =>
          let rest := importHoles peerPid today next holes
          (rest.1, rest.2.map (count + ·))

/-- `sync_peer_registry`: the registry after it, and the number of imports
unless an exception ends it.  There is no answer when fetching fails. -/
def syncPeerRegistry (admitted : Bool) (peerPid today : Text)
    (answer : Option Text) (registry : Registry) : Registry × Option Nat :=
  if admitted then
    match answer.bind (offered floatRepr) with
    | none => (registry, some 0)
    | some holes =>
        match iterate holes with
        | none => (registry, none)
        | some items =>
            importHoles scheme realText peerPid today registry items
  else (registry, some 0)

end Import

section Rows

variable {scheme : Scheme} {floatRepr : Text → Text}
  {realText : Text → Option Text} {registry next : Registry} {row : Row}
  {peerPid today : Text}

theorem rows_insertRow (inserted : insertRow registry row = .ok next) :
    next.rows = registry.rows ++ [row] := by
  rw [insertRow] at inserted
  split at inserted
  · cases inserted
  · cases inserted
    rfl

theorem exists_columnText_iff (realText : Text → Option Text) (value : Json) :
    (∃ stored, columnText realText value = .ok stored) ↔
      FitsColumn value := by
  cases value with
  | null => exact iff_of_true ⟨_, rfl⟩ trivial
  | bool value => cases value <;> exact iff_of_true ⟨_, rfl⟩ trivial
  | int value =>
      rw [columnText]
      split
      next fits => exact iff_of_true ⟨_, rfl⟩ fits
      next unfit => exact iff_of_false (by rintro ⟨_, ⟨⟩⟩) unfit
  | float printed => exact iff_of_true ⟨_, rfl⟩ trivial
  | str text => exact iff_of_true ⟨_, rfl⟩ trivial
  | arr | obj => exact iff_of_false (by rintro ⟨_, ⟨⟩⟩) id

theorem requiredText_eq_ok {column : String} {value : Json} {text : Text} :
    requiredText realText column value = .ok text ↔
      columnText realText value = .ok (some text) := by
  rw [requiredText, ExceptRules.bind_eq_ok]
  constructor
  · rintro ⟨stored, converted, present⟩
    cases stored with
    | none => cases present
    | some stored =>
        cases present
        exact converted
  · intro converted
    exact ⟨some text, converted, rfl⟩

/-- What a row holds of a registration. -/
theorem row_eq_ok {registration : Registration}
    (made : registration.row realText scheme = .ok row) :
    columnText realText registration.pid = .ok (some row.pid) ∧
      columnText realText registration.selector = .ok (some row.selector) ∧
      columnText realText registration.name = .ok (some row.name) ∧
      columnText realText registration.registeredAt =
        .ok (some row.registeredAt) := by
  simp only [Registration.row, ExceptRules.bind_eq_ok,
    requiredText_eq_ok] at made
  obtain ⟨pid, pidText, selector, selectorText, name, nameText, description, -,
    ownerAddress, -, pubkeyHex, -, signature, -, registeredAt, dateText,
    made⟩ := made
  cases made
  exact ⟨pidText, selectorText, nameText, dateText⟩

@[simp]
theorem dated_pid (registration : Registration) (today : Text) :
    (registration.dated today).pid = registration.pid := by
  rw [Registration.dated]
  split <;> rfl

@[simp]
theorem dated_selector (registration : Registration) (today : Text) :
    (registration.dated today).selector = registration.selector := by
  rw [Registration.dated]
  split <;> rfl

@[simp]
theorem dated_name (registration : Registration) (today : Text) :
    (registration.dated today).name = registration.name := by
  rw [Registration.dated]
  split <;> rfl

theorem dated_registeredAt {registration : Registration} {today : Text}
    (kept : registration.registeredAt.isFalsy = false ∨
      registration.registeredAt = .str today) :
    (registration.dated today).registeredAt = registration.registeredAt := by
  rw [Registration.dated]
  split
  next falsy =>
    rcases kept with truthy | same
    · rw [truthy] at falsy
      cases falsy
    · exact same.symm
  next => rfl

theorem registerGopherhole_eq_ok {registration : Registration}
    (registered :
      registerGopherhole realText scheme today registration registry =
        .ok next) :
    ∃ row, (registration.dated today).row realText scheme = .ok row ∧
      next.rows = registry.rows ++ [row] := by
  rw [registerGopherhole, ExceptRules.bind_eq_ok] at registered
  obtain ⟨row, made, inserted⟩ := registered
  exact ⟨row, made, rows_insertRow inserted⟩

/-- A created gopherhole has a valid selector and a row of its own. -/
theorem createGopherhole_eq_ok {privateKey : List UInt8}
    {gopherRoot name selector description ownerAddress : Text}
    {directoryExists : Bool} {year month day : Nat}
    (created : createGopherhole realText scheme privateKey gopherRoot name
      selector description ownerAddress directoryExists year month day
      registry = .ok next) :
    let pid := pidOf scheme (scheme.publicKey privateKey)
    validateSelector selector pid = .ok () ∧
      ∃ row, next.rows = registry.rows ++ [row] ∧ row.pid = pid ∧
        row.selector = selector ∧ row.name = name ∧
        row.registeredAt = accountingDate year month day := by
  intro pid
  rw [createGopherhole] at created
  split at created
  · cases created
  next valid =>
    refine ⟨valid, ?_⟩
    split at created
    · cases created
    · split at created
      · cases created
      · cases created
      · have registered := ExceptRules.mapError_eq_ok.mp created
        obtain ⟨row, made, rows⟩ := registerGopherhole_eq_ok registered
        obtain ⟨pidText, selectorText, nameText, dateText⟩ := row_eq_ok made
        rw [dated_pid] at pidText
        rw [dated_selector] at selectorText
        rw [dated_name] at nameText
        rw [dated_registeredAt (.inr rfl)] at dateText
        exact ⟨row, rows, (Option.some.inj (Except.ok.inj pidText)).symm,
          (Option.some.inj (Except.ok.inj selectorText)).symm,
          (Option.some.inj (Except.ok.inj nameText)).symm,
          (Option.some.inj (Except.ok.inj dateText)).symm⟩

/-- A text that does not end in a dot has no terminator. -/
theorem stripTerminator_append {last : Char} (notDot : last ≠ '.')
    (text : Text) : stripTerminator (text ++ [last]) = text ++ [last] := by
  have notSuffix : ∀ marker : Text,
      (marker ++ ['.']).isSuffixOf (text ++ [last]) = false := by
    intro marker
    rw [Bool.eq_false_iff]
    intro ends
    obtain ⟨front, same⟩ := List.isSuffixOf_iff_suffix.mp ends
    rw [← List.append_assoc] at same
    exact notDot (List.cons.inj (List.append_inj' same rfl).2).1.symm
  have noDot := notSuffix []
  rw [List.nil_append] at noDot
  rw [stripTerminator, notSuffix crlf, noDot]
  rfl

/-- One hole adds the row of a record that verifies, or nothing. -/
theorem importHole_eq_some {hole : Json} {count : Nat}
    (imported : importHole scheme realText peerPid today registry hole =
      some (next, count)) :
    (next = registry ∧ count = 0) ∨
      (count = 1 ∧ verifyGopherholeSignature scheme hole = some true ∧
        ∃ row, ((registrationOf peerPid hole).dated today).row realText
            scheme = .ok row ∧
          next.rows = registry.rows ++ [row]) := by
  cases hole with
  | obj fields =>
      rw [importHole] at imported
      split at imported
      · cases imported
      · cases imported
        exact .inl ⟨rfl, rfl⟩
      · split at imported
        next verified =>
          split at imported
          next registered =>
            cases imported
            exact .inr ⟨rfl, verified, registerGopherhole_eq_ok registered⟩
          next =>
            cases imported
            exact .inl ⟨rfl, rfl⟩
        next =>
          cases imported
          exact .inl ⟨rfl, rfl⟩
  | null | bool | int | float | str | arr => cases imported

/-- What holds of the rows of a registry and of all rows that a hole can add
holds of all rows after the import. -/
theorem importHoles_rows {holds : Row → Prop} {holes : List Json}
    (initially : ∀ row ∈ registry.rows, holds row)
    (imports : ∀ hole ∈ holes,
      verifyGopherholeSignature scheme hole = some true →
      ∀ row, ((registrationOf peerPid hole).dated today).row realText scheme =
        .ok row → holds row) :
    ∀ row ∈ (importHoles scheme realText peerPid today registry holes).1.rows,
      holds row := by
  induction holes generalizing registry with
  | nil => exact initially
  | cons hole holes ih =>
      rw [importHoles]
      cases imported :
          importHole scheme realText peerPid today registry hole with
      | none => exact initially
      | some result =>
          apply ih _ fun other member =>
            imports other (List.mem_cons_of_mem _ member)
          rcases importHole_eq_some imported with
            ⟨same, -⟩ | ⟨-, verified, row, made, rows⟩
          · rw [same]
            exact initially
          · rw [rows]
            intro other member
            rcases List.mem_append.mp member with older | newest
            · exact initially other older
            · rw [List.mem_singleton.mp newest]
              exact imports hole List.mem_cons_self verified row made

/-- The same for a synchronization with any answer. -/
theorem syncPeerRegistry_rows {holds : Row → Prop} {admitted : Bool}
    {answer : Option Text}
    (initially : ∀ row ∈ registry.rows, holds row)
    (imports : ∀ holes items, answer.bind (offered floatRepr) = some holes →
      iterate holes = some items → ∀ hole ∈ items,
      verifyGopherholeSignature scheme hole = some true →
      ∀ row, ((registrationOf peerPid hole).dated today).row realText scheme =
        .ok row → holds row) :
    ∀ row ∈ (syncPeerRegistry scheme floatRepr realText admitted peerPid today
      answer registry).1.rows, holds row := by
  rw [syncPeerRegistry]
  split
  · split
    · exact initially
    next holes found =>
      split
      · exact initially
      next items iterated =>
        exact importHoles_rows initially (imports holes items found iterated)
  · exact initially

end Rows

end GopherholeRegistry

end RefinetPillars
