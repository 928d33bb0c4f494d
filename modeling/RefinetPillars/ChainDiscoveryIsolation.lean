import RefinetPillars.ChainDiscovery
import RefinetPillars.PeerAdmission

/-!
# Which documents a pass survives

Every peer that a pass finds is recorded, as long as the database takes the
port and the protocol version of each of them.
-/

namespace RefinetPillars

namespace ChainDiscoveryIsolation

open HexText ContentSigning JsonText ExceptRules
open GopherholeRegistry (DatabaseError FitsInteger FitsColumn columnText
  exists_columnText_iff)
open PeerTable (Database Table Storable columnInteger upsertPeer
  exists_upsertPeer exists_of_upsertPeer plainDatabase)
open WalletBinding (isText_iff pidMatchesValue_iff)
open PeerAdmission (verifyValues_ledgerScheme)
open WellKnown (normalizeDomain)
open ChainDiscovery

section Statement

variable {database : Database} (env : WellKnown.Environment) (ownPid : Text)
  (directory : Directory) (peers : Table database)

/-- A pass ends, and every peer that it finds with a proper port is recorded
where it answers. -/
structure Isolates : Prop where
  completes : ∃ recorded,
    (discoverOnce env ownPid directory peers).2 = .ok recorded
  records : ∀ entry ∈ directory.entries, entry.pid ≠ ownPid → ∀ record,
    discoverPeer env entry = .ok (some record) →
    1 ≤ record.port → record.port ≤ 65535 → ∃ peer,
      (discoverOnce env ownPid directory peers).1 entry.pid = some peer ∧
        peer.hostname = some record.hostname ∧ peer.port = .int record.port

/-- The database takes what the document of a peer gives. -/
structure Fits (record : Record) : Prop where
  port : FitsInteger record.port
  protocolVersion : FitsColumn record.protocolVersion

end Statement

section Recording

variable {database : Database} {peers : Table database}

theorem exists_columnInteger_iff (value : Int) :
    (∃ stored, columnInteger database.numeric (.int value) = .ok stored) ↔
      FitsInteger value := by
  rw [columnInteger]
  split
  next fits => exact iff_of_true ⟨_, rfl⟩ fits
  next unfit => exact iff_of_false (by rintro ⟨_, ⟨⟩⟩) unfit

theorem storable_iff_fits {record : Record} :
    Storable database record.registration ↔ Fits record := by
  constructor
  · intro storable
    exact ⟨(exists_columnInteger_iff _).mp storable.port,
      (exists_columnText_iff _ _).mp storable.protocolVersion⟩
  · intro fits
    exact ⟨⟨_, rfl⟩, (exists_columnInteger_iff _).mpr fits.port, ⟨_, rfl⟩,
      (exists_columnText_iff _ _).mpr fits.protocolVersion, ⟨_, rfl⟩⟩

/-- The pass goes on exactly while the database takes what it is given. -/
theorem recordAll_completes_iff (records : List Record) :
    (∃ recorded, (recordAll records peers).2 = .ok recorded) ↔
      ∀ record ∈ records, Fits record := by
  induction records generalizing peers with
  | nil => exact iff_of_true ⟨0, rfl⟩ (by simp)
  | cons record records ih =>
      rw [List.forall_mem_cons, recordAll]
      cases done : upsertPeer record.registration peers with
      | error refused =>
          refine iff_of_false (by rintro ⟨_, ⟨⟩⟩) fun fits => ?_
          obtain ⟨next, stored⟩ :=
            exists_upsertPeer (storable_iff_fits.mpr fits.1) peers
          cases done.symm.trans stored
      | ok next =>
          have fits := storable_iff_fits.mp (exists_of_upsertPeer done).1
          rw [and_iff_right fits, ← @ih next]
          dsimp only
          cases (recordAll records next).2 with
          | ok recorded => exact iff_of_true ⟨_, rfl⟩ ⟨_, rfl⟩
          | error refused =>
              exact iff_of_false (by rintro ⟨_, ⟨⟩⟩) (by rintro ⟨_, ⟨⟩⟩)

/-- Nothing is recorded any more once the database refuses a peer. -/
theorem recordAll_refused {record : Record} (unfit : ¬ Fits record)
    (records : List Record) :
    (recordAll (record :: records) peers).1 = peers := by
  rw [recordAll]
  cases done : upsertPeer record.registration peers with
  | error refused => rfl
  | ok next =>
      exact absurd (storable_iff_fits.mp (exists_of_upsertPeer done).1) unfit

/-- A pass leaves the rows of other PIDs alone. -/
theorem recordAll_other {records : List Record} {pid : Text}
    (absent : pid ∉ records.map Record.pid) :
    (recordAll records peers).1 pid = peers pid := by
  induction records generalizing peers with
  | nil => rfl
  | cons record records ih =>
      rw [List.map_cons, List.mem_cons, not_or] at absent
      rw [recordAll]
      cases done : upsertPeer record.registration peers with
      | error refused => rfl
      | ok next =>
          obtain ⟨-, peer, -, rfl⟩ := exists_of_upsertPeer done
          exact (ih absent.2).trans (Function.update_of_ne absent.1 _ _)

/-- Every peer of a pass that ends has its row. -/
theorem exists_row_of_recordAll {records : List Record}
    (fits : ∀ record ∈ records, Fits record)
    (distinct : (records.map Record.pid).Nodup) {record : Record}
    (member : record ∈ records) :
    ∃ peer, (recordAll records peers).1 record.pid = some peer ∧
      peer.hostname = some record.hostname ∧
      peer.port = .int record.port := by
  induction records generalizing peers with
  | nil => cases member
  | cons first records ih =>
      rw [List.forall_mem_cons] at fits
      rw [List.map_cons, List.nodup_cons] at distinct
      obtain ⟨next, done⟩ :=
        exists_upsertPeer (storable_iff_fits.mpr fits.1) peers
      rw [recordAll, done]
      rcases List.mem_cons.mp member with rfl | later
      · obtain ⟨-, peer, holds, rfl⟩ := exists_of_upsertPeer done
        refine ⟨peer, ?_, ?_, ?_⟩
        · exact (recordAll_other distinct.1).trans (Function.update_self _ _ _)
        · exact (Except.ok.inj holds.hostname).symm
        · have column := holds.port
          rw [Record.registration, columnInteger, if_pos fits.1.port] at column
          exact (Except.ok.inj column).symm
      · exact ih fits.2 distinct.2 later

end Recording

section Passes

variable {database : Database} {env : WellKnown.Environment} {ownPid : Text}
  {directory : Directory} {peers : Table database}

theorem tryEntry_eq_some {entry : Entry} {record : Record} :
    tryEntry env entry = some record ↔
      discoverPeer env entry = .ok (some record) := by
  unfold tryEntry
  rcases discoverPeer env entry with raised | _ | found
  · exact iff_of_false (by rintro ⟨⟩) (by rintro ⟨⟩)
  · exact iff_of_false (by rintro ⟨⟩) (by rintro ⟨⟩)
  · simp [Except.toOption]

/-- A peer has the PID of its entry. -/
theorem pid_of_discoverPeer {entry : Entry} {record : Record}
    (found : discoverPeer env entry = .ok (some record)) :
    record.pid = entry.pid := by
  obtain ⟨status, -, found⟩ := bind_eq_ok.mp found
  split at found
  · cases found
  obtain ⟨doc, -, found⟩ := bind_eq_ok.mp found
  obtain ⟨⟨ok, reason⟩, -, found⟩ := bind_eq_ok.mp found
  dsimp only at found
  split at found
  · obtain ⟨endpoint, -, found⟩ := bind_eq_ok.mp found
    cases endpoint with
    | none => cases found
    | some endpoint =>
        dsimp only at found
        split at found
        · cases found
        · split at found
          · cases found
            rfl
          · cases found
  · cases found

theorem pids_sublist (env : WellKnown.Environment) (entries : List Entry) :
    List.Sublist ((entries.filterMap (tryEntry env)).map Record.pid)
      (entries.map Entry.pid) := by
  induction entries with
  | nil => exact .slnil
  | cons entry entries ih =>
      cases found : tryEntry env entry with
      | none =>
          rw [List.filterMap_cons_none found]
          exact ih.cons _
      | some record =>
          rw [List.filterMap_cons_some found, List.map_cons, List.map_cons,
            pid_of_discoverPeer (tryEntry_eq_some.mp found)]
          exact ih.cons_cons _

/-- A pass records every peer that it finds, exactly when the database takes
what each of their documents gives. -/
theorem isolates_iff (env : WellKnown.Environment) (ownPid : Text)
    (directory : Directory) (peers : Table database) :
    Isolates env ownPid directory peers ↔
      ∀ entry ∈ directory.entries, entry.pid ≠ ownPid → ∀ record,
        discoverPeer env entry = .ok (some record) → Fits record := by
  have found : (∀ record ∈ (directory.others ownPid).filterMap (tryEntry env),
        Fits record) ↔
      ∀ entry ∈ directory.entries, entry.pid ≠ ownPid → ∀ record,
        discoverPeer env entry = .ok (some record) → Fits record := by
    simp only [Directory.others, List.mem_filterMap, List.mem_filter,
      decide_eq_true_eq, tryEntry_eq_some]
    exact ⟨fun all entry member other record isFound =>
        all record ⟨entry, ⟨member, other⟩, isFound⟩,
      fun all record ⟨entry, ⟨member, other⟩, isFound⟩ =>
        all entry member other record isFound⟩
  rw [← found]
  constructor
  · intro isolates
    exact (recordAll_completes_iff _).mp isolates.completes
  · intro fits
    refine ⟨(recordAll_completes_iff _).mpr fits, ?_⟩
    intro entry member other record isFound _ _
    have kept : entry ∈ directory.others ownPid :=
      List.mem_filter.mpr ⟨member, decide_eq_true other⟩
    have sublist := (pids_sublist env (directory.others ownPid)).trans
      (List.filter_sublist.map Entry.pid)
    have distinct := directory.distinct.sublist sublist
    rw [← pid_of_discoverPeer isFound]
    exact exists_row_of_recordAll fits distinct
      (List.mem_filterMap.mpr ⟨entry, kept, tryEntry_eq_some.mpr isFound⟩)

end Passes

section Examples

/-- A Pillar that serves a document about itself. -/
structure Server where
  key : List UInt8
  pid : Text
  host : Text
  digits : Text
  port : Int

def Server.body (server : Server) : List (Text × Json) :=
  [("schema".toList, .str WellKnown.schema),
    ("protocol".toList, .str "0.4.0".toList),
    ("pid".toList, .str server.pid),
    ("public_key".toList, .str (toHex server.key)),
    ("domain".toList, .str server.host),
    ("endpoints".toList, .obj [("gopher".toList,
      .str ("gopher://".toList ++ server.host ++ ':' :: server.digits))]),
    ("issued_at".toList, .int 1700000000)]

def Server.document (server : Server) : Json :=
  .obj (server.body ++
    [("signature".toList, .str (toHex (List.replicate 64 94)))])

/-- What the key of a Pillar has signed. -/
def Server.preimage (server : Server) : List UInt8 :=
  domainPreimage domainWellKnown
    [toHex (Sha256.sha256 (WalletBinding.canonicalJson
      (WellKnown.unsigned server.document)))]

def Server.entry (server : Server) : Entry where
  pid := server.pid
  status := .ok ⟨true, server.host⟩
  fetched := .ok server.document
  now := 1700000100

def Server.record (server : Server) : Record where
  pid := server.pid
  publicKey := toHex server.key
  hostname := server.host
  port := server.port
  domain := server.host
  pillarName := server.host
  protocolVersion := .str "0.4.0".toList

/-- Its port is no integer of the database. -/
def extreme : Server where
  key := PeerAdmission.admittedKey
  pid := PeerAdmission.admittedPid
  host := "extreme.example".toList
  digits := "9223372036854775808".toList
  port := 9223372036854775808

def honest : Server where
  key := List.replicate 32 2
  pid := ("75877bb41d393b5fb8455ce60ecd8dda" ++
    "001d06316496b14dfa7f895656eeca4a").toList
  host := "honest.example".toList
  digits := "7070".toList
  port := 7070

def servedEnvironment : WellKnown.Environment where
  scheme := ledgerScheme Sha256.sha256
    [(extreme.key, extreme.preimage), (honest.key, honest.preimage)]
  lower text := text.map Char.toLower
  truncate _ := none

/-- What a Pillar must be for its document to be verified. -/
structure Server.Proper (server : Server) : Prop where
  signed : (server.key, server.preimage) ∈
    [(extreme.key, extreme.preimage), (honest.key, honest.preimage)]
  hashed : toHex (Sha256.sha256 server.key) = server.pid
  lowered : server.pid.map Char.toLower = server.pid
  named : server.host ≠ []
  normal : normalizeDomain servedEnvironment.lower server.host = server.host
  answers : gopherEndpoint servedEnvironment.lower server.document =
    .ok (some (server.host, server.port))

theorem keyProblem_served {server : Server} (proper : server.Proper) :
    WellKnown.keyProblem servedEnvironment
      (expectationOf server.entry ⟨true, server.host⟩) server.document =
        .ok none := by
  have named : server.document.get "schema".toList =
      some (.str WellKnown.schema) := rfl
  refine WellKnown.keyProblem_eq_none.mpr ⟨?_, .str server.pid,
    .str (toHex server.key), .str (toHex (List.replicate 64 94)), rfl, rfl, rfl,
    ?_, ?_, ?_⟩
  · rw [named, Option.any_some]
    exact decide_eq_true (isText_iff.mpr rfl)
  · exact pidMatchesValue_iff.mpr ⟨server.pid, toHex server.key, rfl, rfl,
      pidMatchesKey_iff.mpr ⟨server.key, fromHex_toHex _, proper.hashed⟩⟩
  · exact verifyValues_ledgerScheme proper.signed _
  · unfold WellKnown.Expectation.otherPid
    split
    · rfl
    · rfl
    next expected _ isExpected =>
      obtain rfl := Option.some.inj isExpected
      exact decide_eq_false (not_not.mpr
        (isText_iff.mpr (congrArg Json.str proper.lowered.symm)))

theorem ageProblem_served (server : Server) :
    WellKnown.ageProblem servedEnvironment
      (expectationOf server.entry ⟨true, server.host⟩) server.document =
        .ok none := by
  have aged : WellKnown.ageOf servedEnvironment 1700000100 server.document =
      .ok 100 := by
    refine bind_eq_ok.mpr ⟨1700000000, rfl, ?_⟩
    rw [if_pos (by decide +kernel)]
    exact congrArg Except.ok (by norm_num)
  refine bind_eq_ok.mpr ⟨100, aged, ?_⟩
  rw [if_neg (by norm_num [expectationOf, wellKnownMaxAgeSec])]
  rfl

theorem domainProblem_served {server : Server} (proper : server.Proper) :
    WellKnown.domainProblem servedEnvironment
      (expectationOf server.entry ⟨true, server.host⟩) server.document =
        .ok none := by
  have claims : WellKnown.claimed server.document = .ok [.str server.host] :=
    rfl
  unfold WellKnown.domainProblem
  split
  · rfl
  · rfl
  next domain _ isDomain =>
    obtain rfl := Option.some.inj isDomain
    refine bind_eq_ok.mpr ⟨_, claims, ?_⟩
    have found : [Json.str server.host].any
        (WalletBinding.IsText (normalizeDomain servedEnvironment.lower
          server.host)) = true := by
      rw [proper.normal, List.any_cons, List.any_nil, Bool.or_false]
      exact decide_eq_true (isText_iff.mpr rfl)
    exact congrArg Except.ok (if_pos found)

theorem discoverPeer_served {server : Server} (proper : server.Proper) :
    discoverPeer servedEnvironment server.entry = .ok (some server.record) := by
  obtain ⟨reason, valid⟩ := (WellKnown.verifyWellKnown_cases servedEnvironment
    (expectationOf server.entry ⟨true, server.host⟩) server.document).1.mpr
      ⟨keyProblem_served proper, ageProblem_served server,
        domainProblem_served proper⟩
  refine bind_eq_ok.mpr ⟨⟨true, server.host⟩, rfl, ?_⟩
  rw [if_neg (by simp [proper.named])]
  refine bind_eq_ok.mpr ⟨server.document, rfl, ?_⟩
  refine bind_eq_ok.mpr ⟨(true, reason), mapError_eq_ok.mpr valid, ?_⟩
  dsimp only
  rw [if_pos rfl]
  refine bind_eq_ok.mpr ⟨some (server.host, server.port), proper.answers, ?_⟩
  dsimp only
  rw [if_neg (not_not.mpr proper.normal.symm)]
  rfl

theorem extreme_proper : extreme.Proper where
  signed := List.mem_cons_self
  hashed := PeerAdmission.pidOf_admittedKey
  lowered := by decide +kernel
  named := by decide +kernel
  normal := by decide +kernel
  answers := by rfl

theorem honest_proper : honest.Proper where
  signed := List.mem_cons_of_mem _ List.mem_cons_self
  hashed := by decide +kernel
  lowered := by decide +kernel
  named := by decide +kernel
  normal := by decide +kernel
  answers := by rfl

/-- Both Pillars are staked. -/
def servedDirectory : Directory where
  entries := [extreme.entry, honest.entry]
  distinct := by decide +kernel

/-- Whatever is served, every peer that is found is recorded. -/
def EveryPassIsolates : Prop :=
  ∀ (database : Database) (env : WellKnown.Environment) (ownPid : Text)
    (directory : Directory) (peers : Table database),
    Isolates env ownPid directory peers

/-- The honest Pillar is not recorded. -/
theorem not_everyPassIsolates : ¬ EveryPassIsolates := by
  intro claimed
  have isolates := claimed plainDatabase servedEnvironment [] servedDirectory
    fun _ => none
  obtain ⟨peer, recorded, -, -⟩ := isolates.records honest.entry
    (List.mem_cons_of_mem _ List.mem_cons_self) (by decide +kernel)
    honest.record (discoverPeer_served honest_proper) (by decide) (by decide)
  have unfit : ¬ Fits extreme.record := fun fits => by
    have port := fits.port
    revert port
    decide
  have others : servedDirectory.others [] = [extreme.entry, honest.entry] :=
    List.filter_eq_self.mpr (by decide +kernel)
  rw [discoverOnce, others, List.filterMap_cons_some
    (tryEntry_eq_some.mpr (discoverPeer_served extreme_proper)),
    recordAll_refused unfit] at recorded
  cases recorded

end Examples

end ChainDiscoveryIsolation

end RefinetPillars
