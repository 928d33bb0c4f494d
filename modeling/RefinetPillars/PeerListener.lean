import RefinetPillars.PeerTable
import RefinetPillars.WalletBinding

/-!
# Announcements of peers

Pillars announce themselves in datagrams.  A listener checks the key of an
announcement and its signature, and registers the peer.
-/

namespace RefinetPillars

namespace PeerListener

open HexText LineText DecimalText KeyRecovery ContentSigning JsonText
open GopherholeRegistry (DatabaseError)
open WalletBinding (IsText verifyValues)
open PeerTable (Database Table Peer Registration upsertPeer updatePeerOnion str)

/-- An exception, after which the listener goes on. -/
inductive Raised where
  | keyError (key : Text)
  | overflow

/-- What the program takes from elsewhere: signatures, floats, how lists and
dictionaries are printed, and the database. -/
structure Environment where
  scheme : Scheme
  floatRepr : Text → Text
  truncate : Text → Option Int
  repr : Json → Text
  database : Database

section Verification

variable (env : Environment)

def announceMaxSkewSeconds : Nat := 60

def field (key : String) (msg : Json) : Except Raised Json :=
  match msg.get key.toList with
  | some value => .ok value
  | none => .error (.keyError key.toList)

/-- The fields that the signature of an announcement covers. -/
def announcePreimageFields (msg : Json) : Except Raised (List Text) := do
  let pid ← field "pid" msg
  let hostname ← field "hostname" msg
  let port ← field "port" msg
  let timestamp ← field "timestamp" msg
  return [pid, hostname, port, timestamp].map (str env.repr)

/-- `int` of a value, if it is a number.  An infinite one raises an exception
of another kind. -/
def timestampOf : Json → Except Raised (Option Int)
  | .bool value => .ok (some (if value then 1 else 0))
  | .int value => .ok (some value)
  | .float printed =>
      match env.truncate printed with
      | some value => .ok (some value)
      | none => if printed = "NaN".toList then .ok none else .error .overflow
  | .str text => .ok (int text)
  | .null | .arr _ | .obj _ => .ok none

def readTimestamp (msg : Json) : Except Raised (Option Int) :=
  match msg.get "timestamp".toList with
  | none => .ok none
  | some value => timestampOf env value

def verifyAnnounceSignature (now : Int) (msg : Json) :
    Except Raised (Bool × Text) :=
  match msg.get "sig".toList with
  | none => .ok (false, "unsigned".toList)
  | some signature => do
      match ← readTimestamp env msg with
      | none => return (false, "no timestamp".toList)
      | some timestamp =>
          if announceMaxSkewSeconds < (now - timestamp).natAbs then
            return (false, "stale or future-dated announcement".toList)
          let fields ← announcePreimageFields env msg
          if verifyValues env.scheme (domainPreimage domainAnnounce fields)
              signature ((msg.get "public_key".toList).getD (.str [])) then
            return (true, "ok".toList)
          return (false, "signature does not verify".toList)

/-- The bytes of a text, where they are UTF-8. -/
def decode (data : List UInt8) : Option Text :=
  (String.fromUTF8? data.toByteArray).map String.toList

theorem decode_encodeUtf8 (text : Text) : decode (encodeUtf8 text) = some text := by
  have valid : (encodeUtf8 text).toByteArray.IsValidUTF8 :=
    (String.ofList text).isValidUTF8
  have same : String.fromUTF8 (encodeUtf8 text).toByteArray valid =
      String.ofList text := rfl
  rw [decode, String.fromUTF8?, dif_pos valid, same, Option.map_some,
    String.toList_ofList]

/-- An announcement; what is no dictionary raises an exception, and is passed
over as well. -/
def parseAnnounceMessage (data : List UInt8) : Option Json := do
  let msg ← loads env.floatRepr (← decode data)
  if (msg.get "type".toList).any (IsText "pillar_announce".toList) ∧
      (msg.get "protocol".toList).any (IsText "REFInet".toList) then
    some msg
  else none

end Verification

section Listening

variable (env : Environment)

structure Listener where
  ownPid : Text
  requireSigned : Bool

/-- The table of peers, and when the last announcement of each PID that has
been accepted was made. -/
structure State (database : Database) where
  peers : Table database
  lastAnnounce : List (Text × Int)

/-- Bounded, as keys can be made at will. -/
def maxTrackedPids : Nat := 10000

/-- A dictionary keeps the place of a key that it holds. -/
def setAnnounce (pid : Text) (timestamp : Int) :
    List (Text × Int) → List (Text × Int)
  | [] => [(pid, timestamp)]
  | entry :: entries =>
      if entry.1 = pid then (pid, timestamp) :: entries
      else entry :: setAnnounce pid timestamp entries

/-- The oldest PID is dropped before there are too many. -/
def remember (pid : Text) (timestamp : Int) (last : List (Text × Int)) :
    List (Text × Int) :=
  setAnnounce pid timestamp
    (if last.lookup pid = none ∧ maxTrackedPids ≤ last.length then last.tail
    else last)

/-- What is done with an announcement. -/
structure Acceptance where
  accept : Bool
  mayMoveAddress : Bool
  reason : Text

def acceptAnnouncement (listener : Listener) (now : Int) (msg : Json)
    (pid : Text) (isKnown : Bool) (last : List (Text × Int)) :
    Except Raised (Acceptance × List (Text × Int)) := do
  let (signedOk, reason) ← verifyAnnounceSignature env now msg
  if signedOk then
    match ← readTimestamp env msg with
    | none => .error (.keyError "timestamp".toList)
    | some timestamp =>
        if (last.lookup pid).any fun known => timestamp ≤ known then
          return (⟨false, false, "replayed announcement".toList⟩, last)
        return (⟨true, true, "signed".toList⟩, remember pid timestamp last)
  else if listener.requireSigned then
    return (⟨false, false, "unsigned announcement refused (".toList ++ reason ++
      ")".toList⟩, last)
  else if isKnown then
    return (⟨true, false, "unsigned (".toList ++ reason ++
      ") — address not updated".toList⟩, last)
  else
    return (⟨true, false, "unsigned (".toList ++ reason ++
      ") — new peer".toList⟩, last)

/-- The PID and the key of an announcement, which must match. -/
def identify (listener : Listener) (msg : Json) : Option (Text × Text) :=
  match msg.get "pid".toList, msg.get "public_key".toList with
  | some (.str pid), some (.str publicKey) =>
      if pid ≠ [] ∧ publicKey ≠ [] ∧ pid ≠ listener.ownPid ∧
          pidMatchesKey env.scheme pid publicKey then
        some (pid, publicKey)
      else none
  | _, _ => none

def loopbackNames : List Text :=
  ["localhost".toList, "0.0.0.0".toList, "127.0.0.1".toList]

/-- The address of the sender stands for a name of the machine itself. -/
def hostnameOf (sender : Text) (msg : Json) : Json :=
  match msg.get "hostname".toList with
  | none => .str sender
  | some (.str hostname) =>
      if hostname ∈ loopbackNames then .str sender else .str hostname
  | some value => value

def portOf (msg : Json) : Json :=
  (msg.get "port".toList).getD (.int 7070)

/-- A value of an announcement, or None. -/
def getOrNull (key : String) (msg : Json) : Json :=
  (msg.get key.toList).getD .null

/-- A peer is registered where it announces to be. -/
def registrationOf (sender : Text) (msg : Json) (pid publicKey : Text) :
    Registration where
  pid := pid
  publicKey := publicKey
  hostname := hostnameOf sender msg
  port := portOf msg
  pillarName := getOrNull "pillar_name" msg
  protocolVersion := getOrNull "version" msg

def textOrNull : Option Text → Json
  | some text => .str text
  | none => .null

/-- A known peer is registered where it is. -/
def refreshOf {database : Database} (known : Peer database) (msg : Json)
    (pid publicKey : Text) : Registration where
  pid := pid
  publicKey := publicKey
  hostname := textOrNull known.hostname
  port := known.port
  pillarName := getOrNull "pillar_name" msg
  protocolVersion := getOrNull "version" msg

variable {env}

/-- A statement that the database refuses changes nothing. -/
def settle (peers : Table env.database)
    (result : Except DatabaseError (Table env.database)) : Table env.database :=
  result.toOption.getD peers

def recordOnion (msg : Json) (pid : Text) (peers : Table env.database) :
    Table env.database :=
  match msg.get "onion_address".toList with
  | none => peers
  | some onion =>
      if onion.isFalsy then peers
      else settle peers (updatePeerOnion pid onion peers)

/-- The onion address is stored when the peer has been registered. -/
def record (sender : Text) (msg : Json) (pid publicKey : Text)
    (peers : Table env.database) : Table env.database :=
  match upsertPeer (registrationOf sender msg pid publicKey) peers with
  | .ok next => recordOnion msg pid next
  | .error _ => peers

/-- An announcement that may not move a known peer does not. -/
def store (mayMove : Bool) (sender : Text) (msg : Json) (pid publicKey : Text)
    (peers : Table env.database) : Table env.database :=
  match peers pid, mayMove with
  | some known, false =>
      settle peers (upsertPeer (refreshOf known msg pid publicKey) peers)
  | _, _ => record sender msg pid publicKey peers

structure Datagram where
  data : List UInt8
  sender : Text
  now : Int

def handle (listener : Listener) (datagram : Datagram) (msg : Json)
    (pid publicKey : Text) (state : State env.database) :
    State env.database :=
  match acceptAnnouncement env listener datagram.now msg pid
      (state.peers pid).isSome state.lastAnnounce with
  | .error _ => state
  | .ok (verdict, last) =>
      if verdict.accept then
        ⟨store verdict.mayMoveAddress datagram.sender msg pid publicKey
          state.peers, last⟩
      else ⟨state.peers, last⟩

/-- One round of the loop in `run`. -/
def receive (listener : Listener) (datagram : Datagram)
    (state : State env.database) : State env.database :=
  match parseAnnounceMessage env datagram.data with
  | none => state
  | some msg =>
      match identify env listener msg with
      | none => state
      | some (pid, publicKey) => handle listener datagram msg pid publicKey state

end Listening

end PeerListener

end RefinetPillars
