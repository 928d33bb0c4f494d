import RefinetPillars.PeerListener
import RefinetPillars.PeerAdmission
import RefinetPillars.JsonDocuments

/-!
# Where known peers answer

An announcement of a peer that is known already moves it only where its owner
has signed that it answers, as long as the announcement has nothing else in it
that the listener stores as its address.
-/

namespace RefinetPillars

namespace PeerListenerAddresses

open HexText DecimalText KeyRecovery ContentSigning JsonText ExceptRules
open GopherholeRegistry (columnText)
open WalletBinding (IsText signed_of_verifyValues)
open PeerAdmission (admittedKey admittedPid pidOf_admittedKey
  verifyValues_ledgerScheme)
open PeerTable (Database Peer Table Registration Storable IsSpelled
  columnInteger columnInteger_settled columnText_of_isSpelled
  columnInteger_of_isSpelled exists_of_upsertPeer exists_of_updatePeerOnion
  upsertPeer str plainDatabase)
open PeerListener

section Statement

variable {env : Environment} (Signed : List UInt8 → List UInt8 → Prop)
  (listener : Listener)

/-- The owner of a PID has signed a fresh announcement of where it answers. -/
def Announced (env : Environment) (pid : Text) (now : Int)
    (hostname port : Text) : Prop :=
  ∃ publicKey timestamp moment, pidOf env.scheme publicKey = pid ∧
    timestampOf env timestamp = .ok (some moment) ∧
    (now - moment).natAbs ≤ announceMaxSkewSeconds ∧
    Signed publicKey (domainPreimage domainAnnounce
      [pid, hostname, port, str env.repr timestamp])

/-- What changes in the address of a peer has been announced by its owner.  A
signed announcement names one host, which may be an onion address. -/
structure MovesOnWord (pid : Text) (now : Int)
    (before after : Peer env.database) : Prop where
  hostname : after.hostname ≠ before.hostname → ∃ hostname port,
    Announced Signed env pid now hostname port ∧
      after.hostname = some hostname
  port : after.port ≠ before.port → ∃ hostname port,
    Announced Signed env pid now hostname port ∧
      columnInteger env.database.numeric (.str port) = .ok after.port
  onionAddress : after.onionAddress ≠ before.onionAddress → ∃ hostname port,
    Announced Signed env pid now hostname port ∧
      after.onionAddress = some hostname

/-- A datagram moves the peers that are known on the word of their owners. -/
def MovesOnSignedWord (state : State env.database) (datagram : Datagram) :
    Prop :=
  ∀ pid before after, state.peers pid = some before →
    (receive listener datagram state).peers pid = some after →
    MovesOnWord Signed pid datagram.now before after

/-- What an announcement has to say of the address of a known peer is in its
signed fields, or is stored already. -/
structure KeepsToFields (sender : Text) (msg : Json)
    (known : Peer env.database) : Prop where
  hostname : columnText env.database.realText (hostnameOf sender msg) =
      .ok known.hostname ∨
    ∃ value, msg.get "hostname".toList = some value ∧
      hostnameOf sender msg = value ∧ IsSpelled value
  port : columnInteger env.database.numeric (portOf msg) = .ok known.port ∨
    ∃ value, msg.get "port".toList = some value ∧ IsSpelled value
  onionAddress : ∀ onion stored, msg.get "onion_address".toList = some onion →
    onion.isFalsy = false →
    columnText env.database.realText onion = .ok stored →
    stored = known.onionAddress ∨
      ∃ value, msg.get "hostname".toList = some value ∧
        stored = some (str env.repr value)

/-- An announcement is newer than the last one of its PID. -/
def IsNewer (env : Environment) (msg : Json) (pid : Text)
    (last : List (Text × Int)) : Prop :=
  ∀ timestamp known, readTimestamp env msg = .ok (some timestamp) →
    last.lookup pid = some known → known < timestamp

/-- A datagram with a new signed announcement of a known peer keeps to the
signed fields, unless the database refuses it. -/
def KeepsToWord (state : State env.database) (datagram : Datagram) : Prop :=
  ∀ msg pid publicKey known reason,
    parseAnnounceMessage env datagram.data = some msg →
    identify env listener msg = some (pid, publicKey) →
    state.peers pid = some known →
    verifyAnnounceSignature env datagram.now msg = .ok (true, reason) →
    IsNewer env msg pid state.lastAnnounce →
    Storable env.database
      (registrationOf datagram.sender msg pid publicKey) →
    KeepsToFields datagram.sender msg known

/-- A condition on every datagram and the state in which it is received. -/
def Throughout (condition : State env.database → Datagram → Prop) :
    State env.database → List Datagram → Prop
  | _, [] => True
  | state, datagram :: datagrams =>
      condition state datagram ∧
        Throughout condition (receive listener datagram state) datagrams

end Statement

section Announcements

variable {env : Environment} {now : Int} {msg : Json}

theorem field_eq_ok {key : String} {value : Json} :
    field key msg = .ok value ↔ msg.get key.toList = some value := by
  unfold field
  cases msg.get key.toList <;> simp

theorem exists_of_readTimestamp {moment : Int}
    (read : readTimestamp env msg = .ok (some moment)) :
    ∃ timestamp, msg.get "timestamp".toList = some timestamp ∧
      timestampOf env timestamp = .ok (some moment) := by
  unfold readTimestamp at read
  cases hasTimestamp : msg.get "timestamp".toList with
  | none =>
      rw [hasTimestamp] at read
      cases read
  | some timestamp =>
      rw [hasTimestamp] at read
      exact ⟨timestamp, rfl, read⟩

/-- What an announcement has that verifies. -/
structure Verified (env : Environment) (now : Int) (msg : Json)
    (hostname port timestamp : Json) (moment : Int) : Prop where
  hasHostname : msg.get "hostname".toList = some hostname
  hasPort : msg.get "port".toList = some port
  hasTimestamp : msg.get "timestamp".toList = some timestamp
  made : timestampOf env timestamp = .ok (some moment)
  fresh : (now - moment).natAbs ≤ announceMaxSkewSeconds
  signed : ∃ pid signature, msg.get "pid".toList = some pid ∧
    WalletBinding.verifyValues env.scheme
      (domainPreimage domainAnnounce
        ([pid, hostname, port, timestamp].map (str env.repr)))
      signature ((msg.get "public_key".toList).getD (.str [])) = true

theorem exists_verified {reason : Text}
    (verifies : verifyAnnounceSignature env now msg = .ok (true, reason)) :
    ∃ hostname port timestamp moment,
      Verified env now msg hostname port timestamp moment := by
  unfold verifyAnnounceSignature at verifies
  cases hasSignature : msg.get "sig".toList with
  | none =>
      rw [hasSignature] at verifies
      cases verifies
  | some signature =>
      rw [hasSignature] at verifies
      obtain ⟨read, isRead, verifies⟩ := bind_eq_ok.mp verifies
      cases read with
      | none => cases verifies
      | some moment =>
          dsimp only at verifies
          split at verifies
          · cases verifies
          next fresh =>
            obtain ⟨fields, hasFields, verifies⟩ := bind_eq_ok.mp verifies
            split at verifies
            next verified =>
              obtain ⟨timestamp, hasTimestamp, made⟩ :=
                exists_of_readTimestamp isRead
              obtain ⟨pid, hasPid, hasFields⟩ := bind_eq_ok.mp hasFields
              obtain ⟨hostname, hasHostname, hasFields⟩ :=
                bind_eq_ok.mp hasFields
              obtain ⟨port, hasPort, hasFields⟩ := bind_eq_ok.mp hasFields
              obtain ⟨time, hasTime, hasFields⟩ := bind_eq_ok.mp hasFields
              obtain rfl := Except.ok.inj hasFields
              obtain rfl : timestamp = time := Option.some.inj
                (hasTimestamp.symm.trans (field_eq_ok.mp hasTime))
              exact ⟨hostname, port, timestamp, moment,
                field_eq_ok.mp hasHostname, field_eq_ok.mp hasPort,
                hasTimestamp, made, not_lt.mp fresh, pid, signature,
                field_eq_ok.mp hasPid, verified⟩
            next => cases verifies

theorem exists_of_identify {listener : Listener} {pid publicKey : Text}
    (identified : identify env listener msg = some (pid, publicKey)) :
    msg.get "pid".toList = some (.str pid) ∧
      msg.get "public_key".toList = some (.str publicKey) ∧
      pidMatchesKey env.scheme pid publicKey = true := by
  unfold identify at identified
  split at identified
  next namedPid namedKey hasPid hasKey =>
    split at identified
    next checked =>
      obtain ⟨rfl, rfl⟩ := Prod.mk.inj (Option.some.inj identified)
      exact ⟨hasPid, hasKey, checked.2.2.2⟩
    next => cases identified
  next => cases identified

/-- What verifies under the key of a PID has been announced by its owner. -/
theorem Verified.announced {Signed : List UInt8 → List UInt8 → Prop}
    (unforgeable : env.scheme.Unforgeable Signed) {listener : Listener}
    {pid publicKey : Text} {hostname port timestamp : Json} {moment : Int}
    (verified : Verified env now msg hostname port timestamp moment)
    (identified : identify env listener msg = some (pid, publicKey)) :
    Announced Signed env pid now (str env.repr hostname)
      (str env.repr port) := by
  obtain ⟨hasPid, hasKey, matched⟩ := exists_of_identify identified
  obtain ⟨key, isKey, isPid⟩ := pidMatchesKey_iff.mp matched
  obtain ⟨named, signature, isNamed, signed⟩ := verified.signed
  obtain rfl : Json.str pid = named :=
    Option.some.inj (hasPid.symm.trans isNamed)
  rw [hasKey] at signed
  exact ⟨key, timestamp, moment, isPid, verified.made, verified.fresh,
    signed_of_verifyValues unforgeable isKey signed⟩

/-- Only a new signed announcement may move a peer. -/
theorem verifies_of_mayMove {listener : Listener} {pid : Text} {isKnown : Bool}
    {last next : List (Text × Int)} {verdict : Acceptance}
    (accepted : acceptAnnouncement env listener now msg pid isKnown last =
      .ok (verdict, next))
    (mayMove : verdict.mayMoveAddress = true) :
    ∃ reason, verifyAnnounceSignature env now msg = .ok (true, reason) ∧
      IsNewer env msg pid last := by
  obtain ⟨⟨signedOk, reason⟩, verifies, accepted⟩ := bind_eq_ok.mp accepted
  dsimp only at accepted
  split at accepted
  next signed =>
    subst signed
    obtain ⟨read, isRead, accepted⟩ := bind_eq_ok.mp accepted
    refine ⟨reason, verifies, ?_⟩
    cases read with
    | none => cases accepted
    | some timestamp =>
        dsimp only at accepted
        split at accepted
        next replayed =>
          obtain ⟨rfl, -⟩ := Prod.mk.inj (Except.ok.inj accepted)
          cases mayMove
        next fresh =>
          intro newer known isNewer isKnown
          obtain rfl : timestamp = newer := Option.some.inj
            (Except.ok.inj (isRead.symm.trans isNewer))
          rw [isKnown] at fresh
          simpa using fresh
  next =>
    have refused : verdict.mayMoveAddress = false := by
      split at accepted
      · obtain ⟨rfl, -⟩ := Prod.mk.inj (Except.ok.inj accepted)
        rfl
      · split at accepted
        · obtain ⟨rfl, -⟩ := Prod.mk.inj (Except.ok.inj accepted)
          rfl
        · obtain ⟨rfl, -⟩ := Prod.mk.inj (Except.ok.inj accepted)
          rfl
    cases refused.symm.trans mayMove

end Announcements

section Storing

variable {env : Environment} {peers next : Table env.database}

theorem upsertPeer_other {registration : Registration}
    (done : upsertPeer registration peers = .ok next) {other : Text}
    (differs : other ≠ registration.pid) : next other = peers other := by
  obtain ⟨-, peer, -, rfl⟩ := exists_of_upsertPeer done
  exact Function.update_of_ne differs _ _

/-- The address of a peer is stored only in its row, and its other fields are
kept. -/
theorem recordOnion_cases (msg : Json) (pid : Text)
    (peers : Table env.database) :
    recordOnion msg pid peers = peers ∨
      ∃ onion stored, msg.get "onion_address".toList = some onion ∧
        onion.isFalsy = false ∧
        columnText env.database.realText onion = .ok stored ∧
        recordOnion msg pid peers = Function.update peers pid
          ((peers pid).map fun peer =>
            { peer with onionAddress := stored }) := by
  unfold recordOnion
  cases hasOnion : msg.get "onion_address".toList with
  | none => exact .inl rfl
  | some onion =>
      dsimp only
      split
      · exact .inl rfl
      next truthy =>
        cases done : PeerTable.updatePeerOnion pid onion peers with
        | error refused => exact .inl rfl
        | ok next =>
            obtain ⟨stored, column, rfl⟩ := exists_of_updatePeerOnion done
            exact .inr ⟨onion, stored, rfl, Bool.not_eq_true _ ▸ truthy, column,
              rfl⟩

theorem recordOnion_other (msg : Json) {pid other : Text}
    (differs : other ≠ pid) : recordOnion msg pid peers other = peers other := by
  rcases recordOnion_cases msg pid peers with same | ⟨_, _, -, -, -, same⟩
  · rw [same]
  · rw [same, Function.update_of_ne differs]

/-- A peer is registered, and then its onion address may be stored. -/
theorem record_cases (sender : Text) (msg : Json) (pid publicKey : Text)
    (peers : Table env.database) :
    record sender msg pid publicKey peers = peers ∨
      ∃ peer, Storable env.database (registrationOf sender msg pid publicKey) ∧
        PeerTable.Holds (registrationOf sender msg pid publicKey) (peers pid)
          peer ∧
        (record sender msg pid publicKey peers pid = some peer ∨
          ∃ onion stored, msg.get "onion_address".toList = some onion ∧
            onion.isFalsy = false ∧
            columnText env.database.realText onion = .ok stored ∧
            record sender msg pid publicKey peers pid =
              some { peer with onionAddress := stored }) := by
  unfold record
  cases done : upsertPeer (registrationOf sender msg pid publicKey) peers with
  | error refused => exact .inl rfl
  | ok next =>
      obtain ⟨storable, peer, holds, rfl⟩ := exists_of_upsertPeer done
      refine .inr ⟨peer, storable, holds, ?_⟩
      dsimp only
      rcases recordOnion_cases msg pid (Function.update peers
          (registrationOf sender msg pid publicKey).pid (some peer)) with
        same | ⟨onion, stored, hasOnion, truthy, column, same⟩
      · rw [same]
        exact .inl (Function.update_self _ _ _)
      · refine .inr ⟨onion, stored, hasOnion, truthy, column, ?_⟩
        rw [same, Function.update_self]
        exact congrArg _ (Function.update_self _ _ _)

/-- A known peer is refreshed, unless its address may move. -/
theorem store_cases (mayMove : Bool) (sender : Text) (msg : Json)
    (pid publicKey : Text) (peers : Table env.database) :
    (store mayMove sender msg pid publicKey peers =
        record sender msg pid publicKey peers ∧
      (mayMove = true ∨ peers pid = none)) ∨
    ∃ known, peers pid = some known ∧
      store mayMove sender msg pid publicKey peers =
        settle peers (upsertPeer (refreshOf known msg pid publicKey) peers) := by
  unfold store
  cases knows : peers pid with
  | none => exact .inl ⟨rfl, .inr rfl⟩
  | some known =>
      cases mayMove with
      | true => exact .inl ⟨rfl, .inl rfl⟩
      | false => exact .inr ⟨known, rfl, rfl⟩

theorem store_other (mayMove : Bool) (sender : Text) (msg : Json)
    {pid other : Text} (publicKey : Text) (differs : other ≠ pid) :
    store mayMove sender msg pid publicKey peers other = peers other := by
  have recorded :
      record sender msg pid publicKey peers other = peers other := by
    unfold record
    cases done : upsertPeer (registrationOf sender msg pid publicKey) peers with
    | error refused => rfl
    | ok next =>
        exact (recordOnion_other msg differs).trans
          (upsertPeer_other done differs)
  rcases store_cases mayMove sender msg pid publicKey peers with
    ⟨stored, -⟩ | ⟨known, -, stored⟩
  · rw [stored, recorded]
  · rw [stored]
    cases done : upsertPeer (refreshOf known msg pid publicKey) peers with
    | error refused => rfl
    | ok next => exact upsertPeer_other done differs

theorem columnText_textOrNull (realText : Text → Option Text)
    (stored : Option Text) :
    columnText realText (textOrNull stored) = .ok stored := by
  cases stored <;> rfl

/-- A peer that is refreshed stays where it is. -/
theorem address_of_refresh {before after : Peer env.database} {msg : Json}
    {pid publicKey : Text} (isBefore : peers pid = some before)
    (isAfter : settle peers
      (upsertPeer (refreshOf before msg pid publicKey) peers) pid =
        some after) :
    after.hostname = before.hostname ∧ after.port = before.port ∧
      after.onionAddress = before.onionAddress := by
  cases done : upsertPeer (refreshOf before msg pid publicKey) peers with
  | error refused =>
      rw [done] at isAfter
      obtain rfl := Option.some.inj (isBefore.symm.trans isAfter)
      exact ⟨rfl, rfl, rfl⟩
  | ok next =>
      obtain ⟨-, peer, holds, rfl⟩ := exists_of_upsertPeer done
      rw [done] at isAfter
      have stored := Function.update_self pid (some peer) peers
      obtain rfl := Option.some.inj (stored.symm.trans isAfter)
      refine ⟨?_, ?_, ?_⟩
      · exact (Except.ok.inj
          ((columnText_textOrNull _ _).symm.trans holds.hostname)).symm
      · exact (Except.ok.inj (before.settled.symm.trans holds.port)).symm
      · rw [holds.onionAddress, refreshOf, isBefore]
        rfl

end Storing

section Steps

variable {env : Environment} {Signed : List UInt8 → List UInt8 → Prop}
  {listener : Listener} {state : State env.database} {datagram : Datagram}

theorem MovesOnWord.of_address {pid : Text} {now : Int}
    {before after : Peer env.database} (hostname : after.hostname = before.hostname)
    (port : after.port = before.port)
    (onionAddress : after.onionAddress = before.onionAddress) :
    MovesOnWord Signed pid now before after :=
  ⟨fun changed => (changed hostname).elim, fun changed => (changed port).elim,
    fun changed => (changed onionAddress).elim⟩

/-- A peer that is registered again keeps its word. -/
theorem movesOnWord_of_record (unforgeable : env.scheme.Unforgeable Signed)
    {msg : Json} {pid publicKey reason : Text} {before after : Peer env.database}
    {peers : Table env.database} {now : Int} {sender : Text}
    (identified : identify env listener msg = some (pid, publicKey))
    (verifies : verifyAnnounceSignature env now msg = .ok (true, reason))
    (keeps : Storable env.database (registrationOf sender msg pid publicKey) →
      KeepsToFields sender msg before)
    (isBefore : peers pid = some before)
    (isAfter : record sender msg pid publicKey peers pid = some after) :
    MovesOnWord Signed pid now before after := by
  obtain ⟨hostname, port, timestamp, moment, verified⟩ :=
    exists_verified verifies
  have announced := verified.announced unforgeable identified
  rcases record_cases sender msg pid publicKey peers with
    same | ⟨peer, storable, holds, recorded⟩
  · rw [same] at isAfter
    obtain rfl := Option.some.inj (isBefore.symm.trans isAfter)
    exact .of_address rfl rfl rfl
  have kept := keeps storable
  have hostnameMoves : peer.hostname ≠ before.hostname →
      peer.hostname = some (str env.repr hostname) := by
    intro changed
    rcases kept.hostname with stored | ⟨value, hasValue, same, spelled⟩
    · exact absurd (Except.ok.inj (holds.hostname.symm.trans stored)) changed
    · obtain rfl : hostname = value :=
        Option.some.inj (verified.hasHostname.symm.trans hasValue)
      have column := holds.hostname
      rw [registrationOf, same] at column
      exact columnText_of_isSpelled spelled column
  have portMoves : peer.port ≠ before.port →
      columnInteger env.database.numeric (.str (str env.repr port)) =
        .ok peer.port := by
    intro changed
    rcases kept.port with stored | ⟨value, hasValue, spelled⟩
    · exact absurd (Except.ok.inj (holds.port.symm.trans stored)) changed
    · obtain rfl : port = value :=
        Option.some.inj (verified.hasPort.symm.trans hasValue)
      have column := holds.port
      rw [registrationOf, portOf, hasValue] at column
      exact columnInteger_of_isSpelled spelled column
  have onionKept : peer.onionAddress = before.onionAddress := by
    rw [holds.onionAddress, isBefore]
    rfl
  rcases recorded with same | ⟨onion, stored, hasOnion, truthy, column, same⟩
  · obtain rfl := Option.some.inj (same.symm.trans isAfter)
    exact ⟨fun changed => ⟨_, _, announced, hostnameMoves changed⟩,
      fun changed => ⟨_, _, announced, portMoves changed⟩,
      fun changed => absurd onionKept changed⟩
  · obtain rfl := Option.some.inj (same.symm.trans isAfter)
    refine ⟨fun changed => ⟨_, _, announced, hostnameMoves changed⟩,
      fun changed => ⟨_, _, announced, portMoves changed⟩, fun changed => ?_⟩
    rcases kept.onionAddress onion stored hasOnion truthy column with
      known | ⟨value, hasValue, named⟩
    · exact absurd known changed
    · obtain rfl : hostname = value :=
        Option.some.inj (verified.hasHostname.symm.trans hasValue)
      exact ⟨_, _, announced, named⟩

/-- What is done with an announcement moves no peer but on its word. -/
theorem movesOnWord_of_handle (unforgeable : env.scheme.Unforgeable Signed)
    {msg : Json} {pid publicKey moved : Text} {before after : Peer env.database}
    (identified : identify env listener msg = some (pid, publicKey))
    (keeps : ∀ known reason, state.peers pid = some known →
      verifyAnnounceSignature env datagram.now msg = .ok (true, reason) →
      IsNewer env msg pid state.lastAnnounce →
      Storable env.database
        (registrationOf datagram.sender msg pid publicKey) →
      KeepsToFields datagram.sender msg known)
    (isBefore : state.peers moved = some before)
    (isAfter : (handle listener datagram msg pid publicKey state).peers moved =
      some after) :
    MovesOnWord Signed moved datagram.now before after := by
  have unmoved : state.peers moved = some after →
      MovesOnWord Signed moved datagram.now before after := by
    intro same
    obtain rfl := Option.some.inj (isBefore.symm.trans same)
    exact .of_address rfl rfl rfl
  unfold handle at isAfter
  split at isAfter
  · exact unmoved isAfter
  next verdict last accepted =>
    split at isAfter
    next =>
      by_cases named : moved = pid
      · subst named
        rcases store_cases verdict.mayMoveAddress datagram.sender msg moved
          publicKey state.peers with
          ⟨stored, mayMove⟩ | ⟨known, isKnown, stored⟩
        · have mayMove := mayMove.resolve_right (by rw [isBefore]; rintro ⟨⟩)
          obtain ⟨reason, verifies, newer⟩ := verifies_of_mayMove accepted mayMove
          exact movesOnWord_of_record unforgeable identified verifies
            (keeps before reason isBefore verifies newer) isBefore
            ((congrFun stored moved).symm.trans isAfter)
        · obtain rfl := Option.some.inj (isBefore.symm.trans isKnown)
          obtain ⟨hostname, port, onion⟩ := address_of_refresh isBefore
            ((congrFun stored moved).symm.trans isAfter)
          exact .of_address hostname port onion
      · exact unmoved ((store_other _ _ _ _ named).symm.trans isAfter)
    next => exact unmoved isAfter

/-- One datagram. -/
theorem movesOnSignedWord (unforgeable : env.scheme.Unforgeable Signed)
    (keeps : KeepsToWord listener state datagram) :
    MovesOnSignedWord Signed listener state datagram := by
  intro moved before after isBefore isAfter
  have unmoved : state.peers moved = some after →
      MovesOnWord Signed moved datagram.now before after := by
    intro same
    obtain rfl := Option.some.inj (isBefore.symm.trans same)
    exact .of_address rfl rfl rfl
  unfold receive at isAfter
  cases parsed : parseAnnounceMessage env datagram.data with
  | none =>
      rw [parsed] at isAfter
      exact unmoved isAfter
  | some msg =>
      rw [parsed] at isAfter
      dsimp only at isAfter
      cases identified : identify env listener msg with
      | none =>
          rw [identified] at isAfter
          exact unmoved isAfter
      | some named =>
          obtain ⟨pid, publicKey⟩ := named
          rw [identified] at isAfter
          refine movesOnWord_of_handle unforgeable identified ?_ isBefore
            isAfter
          intro known reason isMoved verifies newer storable
          exact keeps msg pid publicKey known reason parsed identified isMoved
            verifies newer storable

end Steps

section Runs

variable {env : Environment} {Signed : List UInt8 → List UInt8 → Prop}
  {listener : Listener} {datagrams : List Datagram}

end Runs

section Examples

/-- What the owner of a key has announced. -/
def announcedPreimage : List UInt8 :=
  domainPreimage domainAnnounce [admittedPid, "pillar.example".toList,
    "7070".toList, "1700000000".toList]

def announcedSignatures : List (List UInt8 × List UInt8) :=
  [(admittedKey, announcedPreimage)]

def announcedEnvironment : Environment where
  scheme := ledgerScheme Sha256.sha256 announcedSignatures
  floatRepr := id
  truncate _ := none
  repr _ := []
  database := plainDatabase

def announcedFields : List (Text × Text) :=
  [("type".toList, "pillar_announce".toList),
    ("protocol".toList, "REFInet".toList), ("pid".toList, admittedPid),
    ("public_key".toList, toHex admittedKey),
    ("hostname".toList, "pillar.example".toList),
    ("port".toList, "7070".toList),
    ("timestamp".toList, "1700000000".toList),
    ("sig".toList, toHex (List.replicate 64 94))]

/-- A copy of the announcement with an onion address that nobody has signed. -/
def copiedFields : List (Text × Text) :=
  announcedFields ++
    [("onion_address".toList, "elsewhere.onion".toList)]

def messageOf (fields : List (Text × Text)) : Json :=
  .obj (fields.map fun entry => (entry.1, Json.str entry.2))

def datagramOf (fields : List (Text × Text)) : Datagram where
  data := encodeUtf8 (printedDocument fields)
  sender := "10.0.0.66".toList
  now := 1700000007

def knownPeer : Peer plainDatabase where
  publicKey := toHex admittedKey
  hostname := some "earlier.example".toList
  port := .int 7070
  settled := rfl
  pillarName := none
  protocolVersion := none
  onionAddress := none
  evmAddress := none

def knownState : State announcedEnvironment.database where
  peers := fun pid => if pid = admittedPid then some knownPeer else none
  lastAnnounce := []

def announcedListener : Listener := ⟨"00".toList, true⟩

theorem identify_announced {fields : List (Text × Text)}
    (hasPid : (messageOf fields).get "pid".toList = some (.str admittedPid))
    (hasKey : (messageOf fields).get "public_key".toList =
      some (.str (toHex admittedKey))) :
    identify announcedEnvironment announcedListener (messageOf fields) =
      some (admittedPid, toHex admittedKey) := by
  have matched : pidMatchesKey announcedEnvironment.scheme admittedPid
      (toHex admittedKey) = true :=
    pidMatchesKey_iff.mpr ⟨admittedKey, fromHex_toHex _, pidOf_admittedKey⟩
  unfold identify
  rw [hasPid, hasKey]
  exact if_pos ⟨by decide +kernel, by decide +kernel, by decide +kernel, matched⟩

theorem parse_announced {fields : List (Text × Text)} (nonempty : fields ≠ [])
    (plain : ∀ entry ∈ fields, IsPlain entry.1 ∧ IsPlain entry.2)
    (distinct : (fields.map Prod.fst).Nodup)
    (announces : ((messageOf fields).get "type".toList).any
        (IsText "pillar_announce".toList) ∧
      ((messageOf fields).get "protocol".toList).any
        (IsText "REFInet".toList)) :
    parseAnnounceMessage announcedEnvironment (datagramOf fields).data =
      some (messageOf fields) := by
  have read := loads_printedDocument id nonempty plain distinct
  rw [parseAnnounceMessage, datagramOf, decode_encodeUtf8]
  change ((loads id (printedDocument fields)).bind _ : Option Json) = _
  rw [read]
  exact if_pos announces

/-- The announcement itself moves its peer. -/
theorem keepsToWord_announced :
    KeepsToWord announcedListener knownState (datagramOf announcedFields) := by
  intro msg pid publicKey known reason parsed identified isKnown _ _ _
  have read : parseAnnounceMessage announcedEnvironment
      (datagramOf announcedFields).data = some (messageOf announcedFields) :=
    parse_announced (by decide) (by decide +kernel) (by decide +kernel)
      (by decide +kernel)
  obtain rfl := Option.some.inj (read.symm.trans parsed)
  have unnamed : (messageOf announcedFields).get "onion_address".toList =
      none := rfl
  refine ⟨.inr ⟨_, rfl, rfl, .str _⟩, .inr ⟨_, rfl, .str _⟩, ?_⟩
  intro onion stored hasOnion
  cases unnamed.symm.trans hasOnion

theorem parse_copied :
    parseAnnounceMessage announcedEnvironment (datagramOf copiedFields).data =
      some (messageOf copiedFields) :=
  parse_announced (by decide) (by decide +kernel) (by decide +kernel)
    (by decide +kernel)

theorem readTimestamp_copied :
    readTimestamp announcedEnvironment (messageOf copiedFields) =
      .ok (some 1700000000) := by
  have isInt : int "1700000000".toList = some 1700000000 := by decide +kernel
  change Except.ok (int "1700000000".toList) = _
  rw [isInt]

theorem verifies_copied :
    verifyAnnounceSignature announcedEnvironment 1700000007
      (messageOf copiedFields) = .ok (true, "ok".toList) := by
  have hasFields :
      announcePreimageFields announcedEnvironment (messageOf copiedFields) =
        .ok [admittedPid, "pillar.example".toList, "7070".toList,
          "1700000000".toList] := rfl
  have verified : WalletBinding.verifyValues announcedEnvironment.scheme
      announcedPreimage (.str (toHex (List.replicate 64 94)))
      (.str (toHex admittedKey)) = true :=
    verifyValues_ledgerScheme List.mem_cons_self _
  unfold verifyAnnounceSignature
  have hasSignature : (messageOf copiedFields).get "sig".toList =
      some (.str (toHex (List.replicate 64 94))) := rfl
  rw [hasSignature]
  dsimp only
  rw [readTimestamp_copied]
  dsimp only [Bind.bind, Except.bind]
  rw [if_neg (by decide), hasFields]
  exact if_pos verified

theorem storable_copied :
    Storable announcedEnvironment.database
      (registrationOf (datagramOf copiedFields).sender
      (messageOf copiedFields) admittedPid (toHex admittedKey)) :=
  ⟨⟨_, rfl⟩, ⟨_, rfl⟩, ⟨_, rfl⟩, ⟨_, rfl⟩, ⟨_, rfl⟩⟩

theorem receive_eq {env : Environment} {listener : Listener}
    {datagram : Datagram} {msg : Json} {pid publicKey : Text}
    {state : State env.database}
    (parsed : parseAnnounceMessage env datagram.data = some msg)
    (identified : identify env listener msg = some (pid, publicKey)) :
    receive listener datagram state =
      handle listener datagram msg pid publicKey state := by
  unfold receive
  rw [parsed]
  dsimp only
  rw [identified]

/-- What is done with an announcement that may move its peer. -/
theorem peers_handle {env : Environment} {listener : Listener}
    {datagram : Datagram} {msg : Json} {pid publicKey reason : Text}
    {state : State env.database} {last : List (Text × Int)}
    (accepted : acceptAnnouncement env listener datagram.now msg pid
      (state.peers pid).isSome state.lastAnnounce =
        .ok (⟨true, true, reason⟩, last)) :
    (handle listener datagram msg pid publicKey state).peers =
      record datagram.sender msg pid publicKey state.peers := by
  rw [handle, accepted]
  dsimp only
  rw [if_pos rfl]
  unfold store
  cases state.peers pid <;> rfl

theorem peers_knownState : knownState.peers admittedPid = some knownPeer := by
  change (if admittedPid = admittedPid then some knownPeer else none) = _
  exact if_pos rfl

theorem accepted_copied :
    acceptAnnouncement announcedEnvironment announcedListener
      (datagramOf copiedFields).now (messageOf copiedFields) admittedPid
      (knownState.peers admittedPid).isSome knownState.lastAnnounce =
        .ok (⟨true, true, "signed".toList⟩, [(admittedPid, 1700000000)]) := by
  refine bind_eq_ok.mpr ⟨_, verifies_copied, ?_⟩
  dsimp only
  rw [if_pos rfl, readTimestamp_copied]
  rfl

theorem recordOnion_copied {peers : Table announcedEnvironment.database}
    {peer : Peer announcedEnvironment.database} (registered : peers admittedPid = some peer) :
    ∃ after, recordOnion (messageOf copiedFields) admittedPid peers
        admittedPid = some after ∧
      after.onionAddress = some "elsewhere.onion".toList := by
  have hasOnion : (messageOf copiedFields).get "onion_address".toList =
      some (.str "elsewhere.onion".toList) := rfl
  refine ⟨{ peer with onionAddress := some "elsewhere.onion".toList }, ?_, rfl⟩
  have updated : PeerTable.updatePeerOnion admittedPid
      (.str "elsewhere.onion".toList) peers =
        .ok (Function.update peers admittedPid ((peers admittedPid).map
          fun peer => { peer with
            onionAddress := some "elsewhere.onion".toList })) := rfl
  unfold recordOnion
  rw [hasOnion]
  dsimp only
  rw [if_neg (by decide), updated, registered]
  exact Function.update_self admittedPid _ peers

theorem identify_copied :
    identify announcedEnvironment announcedListener (messageOf copiedFields) =
      some (admittedPid, toHex admittedKey) :=
  identify_announced rfl rfl

/-- The copy moves the onion address of a known peer. -/
theorem receive_copied :
    ∃ after, (receive announcedListener (datagramOf copiedFields)
        knownState).peers admittedPid = some after ∧
      after.onionAddress = some "elsewhere.onion".toList := by
  obtain ⟨next, done⟩ := PeerTable.exists_upsertPeer storable_copied
    knownState.peers
  obtain ⟨-, peer, -, same⟩ := exists_of_upsertPeer done
  rw [receive_eq parse_copied identify_copied, peers_handle accepted_copied,
    record, done]
  exact recordOnion_copied (same ▸ Function.update_self _ _ _)

/-- Known peers move on the word of their owners only. -/
def AddressesMoveOnSignedWord : Prop :=
  ∀ (env : Environment) (Signed : List UInt8 → List UInt8 → Prop)
    (listener : Listener) (state : State env.database)
    (datagrams : List Datagram), env.scheme.Unforgeable Signed →
    Throughout listener (MovesOnSignedWord Signed listener) state datagrams

end Examples

end PeerListenerAddresses

end RefinetPillars
