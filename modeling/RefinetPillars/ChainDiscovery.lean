import RefinetPillars.PeerTable
import RefinetPillars.WellKnown

/-!
# Discovery through the staking directory

Each PID of the directory that is active has an endpoint, whose document is
fetched and verified.  The peers that have been found are then recorded one
after the other.
-/

namespace RefinetPillars

namespace ChainDiscovery

open HexText DecimalText JsonText
open GopherholeRegistry (DatabaseError)
open WalletBinding (orElse)
open WellKnown (normalizeDomain)
open PeerTable (Database Table Registration upsertPeer)

/-- An exception while a document is fetched or read. -/
inductive Raised where
  | outage (message : Text)
  | verification (raised : WellKnown.Raised)
  | noAttribute (value : Json)
  | notAText (value : Json)
  | keyError (key : Text)
  | tooManyDigits

section Endpoints

def isHostCharacter (character : Char) : Bool :=
  character ≠ '/' && character ≠ ':'

def isDecimal (character : Char) : Bool :=
  (decimalValue character).isSome

/-- `int` refuses longer texts. -/
def maxStrDigits : Nat := 4300

/-- The host and the digits after `gopher://`. -/
def matchEndpoint (text : Text) : Option (Text × Text) :=
  if "gopher://".toList.isPrefixOf text then
    let host := (text.drop 9).takeWhile isHostCharacter
    match host, (text.drop 9).dropWhile isHostCharacter with
    | [], _ => none
    | _, ':' :: rest =>
        match rest.takeWhile isDecimal with
        | [] => none
        | digits => some (host, digits)
    | _, _ => none
  else none

/-- The gopher endpoint of a verified document. -/
def gopherEndpoint (lower : Text → Text) (doc : Json) :
    Except Raised (Option (Text × Int)) :=
  match orElse (doc.get "endpoints".toList) (.obj []) with
  | .obj fields =>
      match ((Json.obj fields).get "gopher".toList).getD (.str []) with
      | .str text =>
          match matchEndpoint text with
          | none => .ok none
          | some (host, digits) =>
              if maxStrDigits < digits.length then .error .tooManyDigits
              else .ok ((int digits).map fun port => (lower host, port))
      | value => .error (.notAText value)
  | value => .error (.noAttribute value)

end Endpoints

section Entries

/-- What the reader has found out about a PID. -/
structure Status where
  active : Bool
  endpoint : Text

/-- A PID of the directory, what the reader returns for it, what its endpoint
serves, and when that is verified. -/
structure Entry where
  pid : Text
  status : Except Text Status
  fetched : Except Text Json
  now : ℚ

/-- The entries of a directory, which names each PID once. -/
structure Directory where
  entries : List Entry
  distinct : (entries.map Entry.pid).Nodup

def Directory.others (directory : Directory) (ownPid : Text) : List Entry :=
  directory.entries.filter fun entry => entry.pid ≠ ownPid

/-- A peer that has been found. -/
structure Record where
  pid : Text
  publicKey : Text
  hostname : Text
  port : Int
  domain : Text
  pillarName : Text
  protocolVersion : Json

variable (env : WellKnown.Environment)

def wellKnownMaxAgeSec : ℚ := 7 * 86400

/-- What a document of an entry is expected to be. -/
def expectationOf (entry : Entry) (status : Status) : WellKnown.Expectation where
  pid := some entry.pid
  domain := some status.endpoint
  maxAgeSec := some wellKnownMaxAgeSec
  now := entry.now

/-- The peer that a verified document describes, where it answers at its own
endpoint. -/
def recordOf (entry : Entry) (status : Status) (doc : Json) :
    Except Raised (Option Record) := do
  match ← gopherEndpoint env.lower doc with
  | none => return none
  | some (host, port) =>
      if host ≠ normalizeDomain env.lower status.endpoint then return none
      match doc.get "public_key".toList with
      | some (.str publicKey) =>
          return some {
            pid := entry.pid
            publicKey := publicKey
            hostname := host
            port := port
            domain := status.endpoint
            pillarName := status.endpoint
            protocolVersion := (doc.get "protocol".toList).getD .null }
      | _ => .error (.keyError "public_key".toList)

def discoverPeer (entry : Entry) : Except Raised (Option Record) := do
  let status ← entry.status.mapError Raised.outage
  if ¬ status.active ∨ status.endpoint = [] then return none
  let doc ← entry.fetched.mapError Raised.outage
  let (ok, _) ← (WellKnown.verifyWellKnown env (expectationOf entry status)
    doc).mapError Raised.verification
  if ok then recordOf env entry status doc else return none

/-- An exception about one entry is no peer. -/
def tryEntry (entry : Entry) : Option Record :=
  (discoverPeer env entry).toOption.join

end Entries

section Passes

variable {database : Database}

def Record.registration (record : Record) : Registration where
  pid := record.pid
  publicKey := record.publicKey
  hostname := .str record.hostname
  port := .int record.port
  pillarName := .str record.pillarName
  protocolVersion := record.protocolVersion

/-- Peers are recorded until the database refuses one.  What has been recorded
stays. -/
def recordAll : List Record → Table database →
    Table database × Except DatabaseError Nat
  | [], peers => (peers, .ok 0)
  | record :: records, peers =>
      match upsertPeer record.registration peers with
      | .error refused => (peers, .error refused)
      | .ok next =>
          let (final, recorded) := recordAll records next
          (final, recorded.map (· + 1))

/-- One pass over the directory, and how many peers were recorded unless it
raised an exception. -/
def discoverOnce (env : WellKnown.Environment) (ownPid : Text)
    (directory : Directory) (peers : Table database) :
    Table database × Except DatabaseError Nat :=
  recordAll ((directory.others ownPid).filterMap (tryEntry env)) peers

end Passes

end ChainDiscovery

end RefinetPillars
