import RefinetPillars.AuditLogEvidence
import RefinetPillars.GopherholeRegistry
import RefinetPillars.ResponseTrailer
import RefinetPillars.Utf8Text

/-!
# Replication of a directory as it is served

A Pillar serves its registry as a document, a terminator and the trailer with
the signatures.  The importing Pillar takes a terminator off the end, which is
the end of the trailer, and what is left is no document.
-/

namespace RefinetPillars

namespace GopherholeConvergence

open HexText LineText DecimalText KeyRecovery ContentSigning JsonText
  GopherholeRecord GopherholeRegistry ResponseTrailer Utf8Text

/-- `list_gopherholes`, newest first. -/
def listGopherholes (registry : Registry) : List Row :=
  registry.rows.mergeSort fun first second =>
    second.registeredAt ≤ first.registeredAt

def optionalText : Option Text → Json
  | none => .null
  | some text => .str text

/-- An entry of `/directory.json`. -/
def entryOf (row : Row) : Json :=
  .obj [("pid".toList, .str row.pid), ("selector".toList, .str row.selector),
    ("name".toList, .str row.name),
    ("description".toList, optionalText row.description),
    ("owner_address".toList, optionalText row.ownerAddress),
    ("pubkey_hex".toList, .str row.pubkeyHex),
    ("signature".toList, .str row.signature),
    ("registered_at".toList, .str row.registeredAt),
    ("tx_hash".toList, .str row.txHash),
    ("source".toList, optionalText row.source)]

def envelopeOf (generatedAt pillarPid : Text) (registry : Registry) : Json :=
  .obj [("schema_version".toList, .int 1),
    ("generated_at".toList, .str generatedAt),
    ("pillar_pid".toList, .str pillarPid),
    ("gopherholes".toList, .arr ((listGopherholes registry).map entryOf))]

/-- The answer of the route `/directory.json`. -/
def directoryBody (generatedAt pillarPid : Text) (registry : Registry) : Text :=
  dumps { indent := some 2, itemSeparator := [','] } 0
      (envelopeOf generatedAt pillarPid registry) ++
    crlf ++ '.' :: crlf

/-- When a directory is asked for. -/
structure Moment where
  generatedAt : Text
  unixTime : Nat

def maxResponseSize : Nat := 2 * 1024 * 1024

/-- `fetch` of a reachable peer, and the text of its answer. -/
def fetch (sent : List UInt8) : Option Text :=
  if sent.length ≤ maxResponseSize then some (decodeUtf8 sent) else none

section Scheme

variable (scheme : Scheme) (floatRepr : Text → Text)
  (realText : Text → Option Text)

/-- The bytes that a Pillar sends for its directory. -/
def sentDirectory (privateKey : List UInt8) (registry : Registry)
    (moment : Moment) : List UInt8 :=
  encodeUtf8 (servedText scheme privateKey
    (directoryBody moment.generatedAt
      (pidOf scheme (scheme.publicKey privateKey)) registry)
    "/directory.json".toList moment.unixTime)

/-- Importing the directory of the owner of a key. -/
def synchronize (privateKey : List UInt8) (served : Registry) (moment : Moment)
    (today : Text) (registry : Registry) : Registry × Option Nat :=
  syncPeerRegistry scheme floatRepr realText true
    (pidOf scheme (scheme.publicKey privateKey)) today
    (fetch (sentDirectory scheme privateKey served moment)) registry

/-- A row that verifies and that another registry does not have. -/
def Missing (registry : Registry) (row : Row) : Prop :=
  verifyGopherholeSignature scheme (entryOf row) = some true ∧
    row.key ∉ registry.rows.map Row.key

/-- An answer that fits brings all that is missing, and the next one brings
nothing more. -/
structure Converges (privateKey : List UInt8) (served : Registry)
    (moment later : Moment) (today : Text) (registry : Registry) : Prop where
  imports : (sentDirectory scheme privateKey served moment).length ≤
      maxResponseSize →
    ∀ row ∈ served.rows, Missing scheme registry row →
      row.key ∈ (synchronize scheme floatRepr realText privateKey served moment
        today registry).1.rows.map Row.key
  settled : synchronize scheme floatRepr realText privateKey served later today
      (synchronize scheme floatRepr realText privateKey served moment today
        registry).1 =
    ((synchronize scheme floatRepr realText privateKey served moment today
      registry).1, some 0)

end Scheme

section Trailers

variable {scheme : Scheme} {floatRepr : Text → Text}
  {realText : Text → Option Text}

/-- What is sent ends with a dash and the end of the line. -/
theorem exists_servedText_eq (scheme : Scheme) (privateKey : List UInt8)
    (body selector : Text) (unixTime : Nat) :
    ∃ text, servedText scheme privateKey body selector unixTime =
      text ++ '-' :: crlf := by
  have ends : sigEnd ++ crlf = sigEnd.dropLast ++ '-' :: crlf := by decide
  rw [servedText]
  simp only [buildSignatureTrailer, List.append_assoc]
  rw [ends]
  simp only [← List.append_assoc]
  exact ⟨_, rfl⟩

/-- No hole is found in an answer as it is sent. -/
theorem offered_servedText (floatRepr : Text → Text) (scheme : Scheme)
    (privateKey : List UInt8) (body selector : Text) (unixTime : Nat) :
    offered floatRepr
      (servedText scheme privateKey body selector unixTime) = none := by
  obtain ⟨text, ends⟩ :=
    exists_servedText_eq scheme privateKey body selector unixTime
  have blank : ∀ character ∈ crlf, isSpace character = true := by
    simp [crlf, isSpace]
  rw [offered, ends, strip_append_cons (by decide) blank,
    stripTerminator_append (by decide), loads_append_dash]
  rfl

/-- Importing what a Pillar sends changes nothing. -/
theorem synchronize_eq (scheme : Scheme) (floatRepr : Text → Text)
    (realText : Text → Option Text) (privateKey : List UInt8)
    (served : Registry) (moment : Moment) (today : Text)
    (registry : Registry) :
    synchronize scheme floatRepr realText privateKey served moment today
      registry = (registry, some 0) := by
  have nothing : (fetch (sentDirectory scheme privateKey served moment)).bind
      (offered floatRepr) = none := by
    rw [fetch]
    split
    · rw [sentDirectory, decodeUtf8_encodeUtf8, Option.bind_some,
        offered_servedText]
    · rfl
  rw [synchronize, syncPeerRegistry, if_pos rfl, nothing]

/-- Replication converges when there is nothing to import, and not
otherwise. -/
theorem converges_iff (scheme : Scheme) (floatRepr : Text → Text)
    (realText : Text → Option Text) (privateKey : List UInt8)
    (served : Registry) (moment later : Moment) (today : Text)
    (registry : Registry) :
    Converges scheme floatRepr realText privateKey served moment later today
        registry ↔
      ((sentDirectory scheme privateKey served moment).length ≤
          maxResponseSize →
        ∀ row ∈ served.rows, ¬ Missing scheme registry row) := by
  constructor
  · intro converges fits row member missing
    have imported := converges.imports fits row member missing
    rw [synchronize_eq] at imported
    exact missing.2 imported
  · intro complete
    constructor
    · intro fits row member missing
      exact absurd missing (complete fits row member)
    · rw [synchronize_eq, synchronize_eq]

end Trailers

section Examples

/-- The gopherhole that the owner of the key `[7]` has created. -/
def createdRow : Row where
  pid := toHex (AuditLog.pinned [7] [7])
  selector := "/holes/a".toList
  name := ['b']
  description := some []
  ownerAddress := some []
  pubkeyHex := toHex [7]
  signature := toHex []
  registeredAt := accountingDate 2025 1 2
  txHash := []
  source := some "local".toList

def createdRegistry : Registry := ⟨[createdRow], List.nodup_singleton _⟩

abbrev createdScheme : Scheme :=
  ledgerScheme (AuditLog.pinned [7])
    [([7], encodeUtf8 (signingPayload createdRow.pid createdRow.selector
      createdRow.name createdRow.registeredAt))]

theorem missing_createdRow :
    Missing createdScheme Registry.empty createdRow := by
  have keyed : pidMatchesKey createdScheme (pidOf createdScheme [7])
      (toHex [7]) = true :=
    pidMatchesKey_toHex [7]
  have signed : verifySignature createdScheme
      (encodeUtf8 (signingPayload createdRow.pid createdRow.selector
        createdRow.name createdRow.registeredAt)) (toHex []) (toHex [7]) =
      true :=
    verifySignature_ledgerScheme List.mem_cons_self []
  exact ⟨verifyGopherholeSignature_of_texts rfl rfl rfl rfl rfl rfl keyed rfl
    signed, List.not_mem_nil⟩

def firstMoment : Moment := ⟨"2025-01-03T00:00:00+00:00".toList, 5⟩

theorem fits_createdRegistry :
    (sentDirectory createdScheme [7] createdRegistry firstMoment).length ≤
      maxResponseSize := by
  decide +kernel

/-- A new peer is never given the only gopherhole of another one. -/
theorem converges_newPeer :
    ¬ ∀ (scheme : Scheme) (floatRepr : Text → Text)
      (realText : Text → Option Text) (privateKey : List UInt8)
      (served : Registry) (moment later : Moment) (today : Text)
      (registry : Registry),
      Converges scheme floatRepr realText privateKey served moment later today
        registry := by
  intro claimed
  have imported := (claimed createdScheme id some [7] createdRegistry
    firstMoment firstMoment [] Registry.empty).imports fits_createdRegistry
      createdRow List.mem_cons_self missing_createdRow
  rw [synchronize_eq] at imported
  exact List.not_mem_nil imported

end Examples

end GopherholeConvergence

end RefinetPillars
