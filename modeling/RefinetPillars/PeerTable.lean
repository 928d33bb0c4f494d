import RefinetPillars.GopherholeRegistry

/-!
# The table of peers

A peer has one row under its PID.  Registering it again replaces where it
answers, and keeps its key and its onion address.
-/

namespace RefinetPillars

namespace PeerTable

open HexText DecimalText JsonText ExceptRules
open GopherholeRegistry (DatabaseError FitsInteger columnText)

section Columns

/-- What a column of integers holds of a value.  The parameter says what
becomes of a text or of a real number there. -/
def columnInteger (numeric : Json → Json) : Json → Except DatabaseError Json
  | .null => .ok .null
  | .bool value => .ok (.int (if value then 1 else 0))
  | .int value =>
      if FitsInteger value then .ok (.int value) else .error .integerOverflow
  | .float printed => .ok (numeric (.float printed))
  | .str text => .ok (numeric (.str text))
  | .arr _ | .obj _ => .error .unsupportedType

/-- How the database converts what it stores.  What has been converted is
stored as it is, and an integer that is written as a text is an integer. -/
structure Database where
  realText : Text → Option Text
  numeric : Json → Json
  numeric_settled : ∀ value,
    columnInteger numeric (numeric value) = .ok (numeric value)
  numeric_intText : ∀ value, FitsInteger value →
    numeric (.str (intText value)) = .int value

variable {database : Database}

theorem columnInteger_settled {value stored : Json}
    (column : columnInteger database.numeric value = .ok stored) :
    columnInteger database.numeric stored = .ok stored := by
  cases value with
  | null =>
      cases column
      rfl
  | bool value =>
      cases column
      cases value <;> rfl
  | int value =>
      simp only [columnInteger] at column
      split at column
      next fits =>
        cases column
        exact if_pos fits
      next => cases column
  | float printed =>
      cases column
      exact database.numeric_settled _
  | str text =>
      cases column
      exact database.numeric_settled _
  | arr | obj => cases column

/-- A value whose text is stored as the value itself is. -/
inductive IsSpelled : Json → Prop where
  | int (value : Int) : IsSpelled (.int value)
  | str (text : Text) : IsSpelled (.str text)

/-- `str` of a value; the parameter prints lists and dictionaries. -/
def str (repr : Json → Text) (value : Json) : Text :=
  (GopherholeRecord.str value).getD (repr value)

theorem columnText_of_isSpelled {value : Json} (spelled : IsSpelled value)
    {repr : Json → Text} {stored : Option Text}
    (column : columnText database.realText value = .ok stored) :
    stored = some (str repr value) := by
  cases spelled with
  | int value =>
      simp only [columnText] at column
      split at column
      · exact (Except.ok.inj column).symm
      · cases column
  | str text => exact (Except.ok.inj column).symm

theorem columnInteger_of_isSpelled {value : Json} (spelled : IsSpelled value)
    {repr : Json → Text} {stored : Json}
    (column : columnInteger database.numeric value = .ok stored) :
    columnInteger database.numeric (.str (str repr value)) =
      .ok stored := by
  cases spelled with
  | int value =>
      simp only [columnInteger] at column
      split at column
      next fits =>
        rw [← column]
        exact congrArg Except.ok (database.numeric_intText value fits)
      next => cases column
  | str text => exact column

end Columns

section Rows

/-- A row of the table `peers`.  The port is a value that has been stored. -/
structure Peer (database : Database) where
  publicKey : Text
  hostname : Option Text
  port : Json
  settled : columnInteger database.numeric port = .ok port
  pillarName : Option Text
  protocolVersion : Option Text
  onionAddress : Option Text
  evmAddress : Option Text

/-- The rows by their PIDs. -/
abbrev Table (database : Database) := Text → Option (Peer database)

/-- The arguments of `upsert_peer`. -/
structure Registration where
  pid : Text
  publicKey : Text
  hostname : Json := .null
  port : Json := .int 7070
  pillarName : Json := .null
  protocolVersion : Json := .null
  evmAddress : Json := .null

variable {database : Database}

/-- What the column of ports holds of a value. -/
def columnPort (value : Json) : Except DatabaseError
    { port : Json // columnInteger database.numeric port = .ok port } :=
  match stored : columnInteger database.numeric value with
  | .ok port => .ok ⟨port, columnInteger_settled stored⟩
  | .error refused => .error refused

theorem columnPort_eq_ok {value : Json}
    {port : { port : Json // columnInteger database.numeric port = .ok port }} :
    columnPort value = .ok port ↔
      columnInteger database.numeric value = .ok port.1 := by
  unfold columnPort
  split
  next stored column => simp [column, Subtype.ext_iff]
  next refused column => simp [column]

/-- A row keeps what the registration does not replace. -/
def registered (registration : Registration) (known : Option (Peer database)) :
    Except DatabaseError (Peer database) := do
  let hostname ← columnText database.realText registration.hostname
  let port ← columnPort registration.port
  let pillarName ← columnText database.realText registration.pillarName
  let protocolVersion ←
    columnText database.realText registration.protocolVersion
  let evmAddress ← columnText database.realText registration.evmAddress
  return {
    publicKey := (known.map Peer.publicKey).getD registration.publicKey
    hostname
    port := port.1
    settled := port.2
    pillarName, protocolVersion
    onionAddress := known.bind Peer.onionAddress
    evmAddress := evmAddress <|> known.bind Peer.evmAddress }

def upsertPeer (registration : Registration) (peers : Table database) :
    Except DatabaseError (Table database) := do
  let peer ← registered registration (peers registration.pid)
  return Function.update peers registration.pid (some peer)

def updatePeerOnion (pid : Text) (onionAddress : Json)
    (peers : Table database) : Except DatabaseError (Table database) := do
  let onionAddress ← columnText database.realText onionAddress
  return Function.update peers pid
    ((peers pid).map fun peer => { peer with onionAddress })

/-- The database takes every value of a registration. -/
structure Storable (database : Database) (registration : Registration) :
    Prop where
  hostname : ∃ stored,
    columnText database.realText registration.hostname = .ok stored
  port : ∃ stored,
    columnInteger database.numeric registration.port = .ok stored
  pillarName : ∃ stored,
    columnText database.realText registration.pillarName = .ok stored
  protocolVersion : ∃ stored,
    columnText database.realText registration.protocolVersion = .ok stored
  evmAddress : ∃ stored,
    columnText database.realText registration.evmAddress = .ok stored

/-- What a row holds of the registration that made it. -/
structure Holds (registration : Registration) (known : Option (Peer database))
    (peer : Peer database) : Prop where
  hostname :
    columnText database.realText registration.hostname = .ok peer.hostname
  port : columnInteger database.numeric registration.port = .ok peer.port
  onionAddress : peer.onionAddress = known.bind Peer.onionAddress
  publicKey : peer.publicKey =
    (known.map Peer.publicKey).getD registration.publicKey

/-- What a registration does. -/
theorem exists_of_upsertPeer {registration : Registration}
    {peers next : Table database}
    (done : upsertPeer registration peers = .ok next) :
    Storable database registration ∧
      ∃ peer, Holds registration (peers registration.pid) peer ∧
        next = Function.update peers registration.pid (some peer) := by
  obtain ⟨peer, made, rest⟩ := bind_eq_ok.mp done
  obtain ⟨hostname, isHostname, made⟩ := bind_eq_ok.mp made
  obtain ⟨port, isPort, made⟩ := bind_eq_ok.mp made
  obtain ⟨pillarName, isName, made⟩ := bind_eq_ok.mp made
  obtain ⟨protocolVersion, isVersion, made⟩ := bind_eq_ok.mp made
  obtain ⟨evmAddress, isAddress, made⟩ := bind_eq_ok.mp made
  obtain rfl := Except.ok.inj made
  have isPort := columnPort_eq_ok.mp isPort
  exact ⟨⟨⟨_, isHostname⟩, ⟨_, isPort⟩, ⟨_, isName⟩, ⟨_, isVersion⟩,
    ⟨_, isAddress⟩⟩, _, ⟨isHostname, isPort, rfl, rfl⟩,
    (Except.ok.inj rest).symm⟩

/-- A registration is refused only where a value is. -/
theorem exists_upsertPeer {registration : Registration}
    (storable : Storable database registration) (peers : Table database) :
    ∃ next, upsertPeer registration peers = .ok next := by
  obtain ⟨⟨hostname, isHostname⟩, ⟨port, isPort⟩, ⟨pillarName, isName⟩,
    ⟨protocolVersion, isVersion⟩, ⟨evmAddress, isAddress⟩⟩ := storable
  have isPort : columnPort registration.port =
      .ok ⟨port, columnInteger_settled isPort⟩ := columnPort_eq_ok.mpr isPort
  exact ⟨_, bind_eq_ok.mpr ⟨_, bind_eq_ok.mpr ⟨_, isHostname,
    bind_eq_ok.mpr ⟨_, isPort, bind_eq_ok.mpr ⟨_, isName,
      bind_eq_ok.mpr ⟨_, isVersion, bind_eq_ok.mpr ⟨_, isAddress, rfl⟩⟩⟩⟩⟩,
    rfl⟩⟩

/-- What storing an onion address does. -/
theorem exists_of_updatePeerOnion {pid : Text} {onionAddress : Json}
    {peers next : Table database}
    (done : updatePeerOnion pid onionAddress peers = .ok next) :
    ∃ stored, columnText database.realText onionAddress = .ok stored ∧
      next = Function.update peers pid ((peers pid).map fun peer =>
        { peer with onionAddress := stored }) := by
  obtain ⟨stored, column, rest⟩ := bind_eq_ok.mp done
  exact ⟨stored, column, (Except.ok.inj rest).symm⟩

end Rows

section Examples

/-- A column of integers that converts nothing else. -/
def plainNumeric : Json → Json
  | .int value => if FitsInteger value then .int value else .null
  | .str text =>
      match int text with
      | some value =>
          if FitsInteger value ∧ intText value = text then .int value
          else .str text
      | none => .str text
  | .float printed => .float printed
  | .null | .bool _ | .arr _ | .obj _ => .null

theorem plainNumeric_str_cases (text : Text) :
    (∃ value, FitsInteger value ∧ plainNumeric (.str text) = .int value) ∨
      plainNumeric (.str text) = .str text := by
  simp only [plainNumeric]
  split
  next value isInt =>
    split
    next fits => exact .inl ⟨value, fits.1, rfl⟩
    next => exact .inr rfl
  next => exact .inr rfl

theorem plainNumeric_settled (value : Json) :
    columnInteger plainNumeric (plainNumeric value) =
      .ok (plainNumeric value) := by
  cases value with
  | int value =>
      by_cases fits : FitsInteger value
      · simp [plainNumeric, columnInteger, fits]
      · simp [plainNumeric, columnInteger, fits]
  | str text =>
      rcases plainNumeric_str_cases text with ⟨value, fits, same⟩ | same
      · rw [same]
        exact if_pos fits
      · rw [same]
        exact congrArg Except.ok same
  | null | bool | float | arr | obj => rfl

theorem plainNumeric_intText (value : Int) (fits : FitsInteger value) :
    plainNumeric (.str (intText value)) = .int value := by
  simp only [plainNumeric, int_intText]
  exact if_pos ⟨fits, trivial⟩

def plainDatabase : Database where
  realText := some
  numeric := plainNumeric
  numeric_settled := plainNumeric_settled
  numeric_intText := plainNumeric_intText

end Examples

end PeerTable

end RefinetPillars
