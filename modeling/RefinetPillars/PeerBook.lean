import RefinetPillars.ChainDiscoveryIsolation
import RefinetPillars.PeerListenerAddresses
import RefinetPillars.RunHistory

/-!
# Everything that writes peers

Announcements, passes over the staking directory, the file of bootstrap peers
and the command line all write the table of peers.  Whatever they do, a peer
that is known stays known, under the key that it was first registered with.
-/

namespace RefinetPillars

namespace PeerBook

open HexText DecimalText JsonText KeyRecovery ContentSigning ExceptRules
open RunHistory
open GopherholeRegistry (DatabaseError columnText requiredText)
open PeerTable (Database Table Peer Registration Holds upsertPeer
  updatePeerOnion exists_of_upsertPeer exists_of_updatePeerOnion)
open PeerListenerAddresses (store_cases exists_of_identify)
open PeerListener (Listener Datagram State getOrNull receive)

section Growth

variable {database : Database} {fits : Text → Text → Prop}
  {before middle after : Table database}

/-- Peers are kept with their keys, and what is new has a key that fits. -/
structure Grows (fits : Text → Text → Prop) (before after : Table database) :
    Prop where
  kept : ∀ {pid peer}, before pid = some peer →
    ∃ next, after pid = some next ∧ next.publicKey = peer.publicKey
  fresh : ∀ {pid peer}, before pid = none → after pid = some peer →
    fits pid peer.publicKey

theorem Grows.refl (peers : Table database) : Grows fits peers peers where
  kept known := ⟨_, known, rfl⟩
  fresh absent known := by
    rw [absent] at known
    cases known

theorem Grows.trans (first : Grows fits before middle)
    (second : Grows fits middle after) : Grows fits before after where
  kept known := by
    obtain ⟨peer, isPeer, sameKey⟩ := first.kept known
    obtain ⟨next, isNext, nextKey⟩ := second.kept isPeer
    exact ⟨next, isNext, nextKey.trans sameKey⟩
  fresh {pid peer} absent known := by
    cases between : middle pid with
    | none => exact second.fresh between known
    | some other =>
        obtain ⟨next, isNext, sameKey⟩ := second.kept between
        rw [known] at isNext
        obtain rfl := Option.some.inj isNext
        rw [sameKey]
        exact first.fresh absent between

/-- A registration keeps the key of a known peer. -/
theorem grows_upsertPeer {registration : Registration}
    (done : upsertPeer registration before = .ok after)
    (keyed : before registration.pid = none →
      fits registration.pid registration.publicKey) :
    Grows fits before after := by
  obtain ⟨-, peer, holds, rfl⟩ := exists_of_upsertPeer done
  constructor
  · intro pid known isKnown
    by_cases same : pid = registration.pid
    · subst same
      refine ⟨peer, Function.update_self _ _ _, ?_⟩
      rw [holds.publicKey, isKnown]
      rfl
    · exact ⟨known, (Function.update_of_ne same _ _).trans isKnown, rfl⟩
  · intro pid next absent isNext
    by_cases same : pid = registration.pid
    · subst same
      rw [Function.update_self] at isNext
      obtain rfl := Option.some.inj isNext
      rw [holds.publicKey, absent]
      exact keyed absent
    · rw [Function.update_of_ne same, absent] at isNext
      cases isNext

theorem grows_updatePeerOnion {pid : Text} {onionAddress : Json}
    (done : updatePeerOnion pid onionAddress before = .ok after) :
    Grows fits before after := by
  obtain ⟨stored, -, rfl⟩ := exists_of_updatePeerOnion done
  constructor
  · intro other known isKnown
    by_cases same : other = pid
    · subst same
      rw [Function.update_self, isKnown]
      exact ⟨_, rfl, rfl⟩
    · exact ⟨known, (Function.update_of_ne same _ _).trans isKnown, rfl⟩
  · intro other next absent isNext
    by_cases same : other = pid
    · subst same
      rw [Function.update_self, absent] at isNext
      cases isNext
    · rw [Function.update_of_ne same, absent] at isNext
      cases isNext

end Growth

section Writers

/-- What the writers take from elsewhere. -/
structure Environment extends PeerListener.Environment where
  lower : Text → Text
  upper : Text → Text

variable (env : Environment)

def Environment.wellKnown : WellKnown.Environment where
  scheme := env.scheme
  lower := env.lower
  truncate := env.truncate

inductive Raised where
  | attributeError
  | database (refused : DatabaseError)

def isHexDigit (character : Char) : Bool :=
  character ∈ "0123456789abcdefABCDEF".toList

/-- A PID that is not filled in, or not 64 hexadecimal digits. -/
def isInvalidPid (pid : Text) : Bool :=
  decide ("REPLACE".toList <:+: env.upper pid) ||
    !(pid.length = 64 && pid.all isHexDigit)

/-- The key of a bootstrap peer, which may be left blank. -/
def bootstrapKey (peer : Json) : Json :=
  (peer.get "public_key".toList).getD (.str [])

def keyIsForged (pid : Text) (peer : Json) : Bool :=
  !(bootstrapKey peer).isFalsy &&
    !WalletBinding.pidMatchesValue env.scheme (.str pid) (bootstrapKey peer)

def recordBootstrapOnion (pid : Text) (peer : Json)
    (peers : Table env.database) : Table env.database × Except Raised Bool :=
  let onion := getOrNull "onion_address" peer
  if onion.isFalsy then (peers, .ok true)
  else
    match updatePeerOnion pid onion peers with
    | .error refused => (peers, .error (.database refused))
    | .ok next => (next, .ok true)

def recordBootstrapPeer (pid : Text) (peer : Json)
    (peers : Table env.database) : Table env.database × Except Raised Bool :=
  match requiredText env.database.realText "peers.public_key"
      (bootstrapKey peer) with
  | .error refused => (peers, .error (.database refused))
  | .ok publicKey =>
      match upsertPeer
          { pid := pid
            publicKey := publicKey
            hostname := getOrNull "hostname" peer
            port := (peer.get "port".toList).getD (.int 7070)
            pillarName := getOrNull "pillar_name" peer
            protocolVersion := getOrNull "version" peer } peers with
      | .error refused => (peers, .error (.database refused))
      | .ok next => recordBootstrapOnion env pid peer next

/-- One round of the loop in `load_bootstrap_peers`, and whether it counts. -/
def loadPeer (peer : Json) (peers : Table env.database) :
    Table env.database × Except Raised Bool :=
  match peer with
  | .obj _ =>
      if (getOrNull "hostname" peer).isFalsy ∨
          (getOrNull "pid" peer).isFalsy then (peers, .ok false)
      else
        match getOrNull "pid" peer with
        | .str pid =>
            if isInvalidPid env pid ∨ keyIsForged env pid peer then
              (peers, .ok false)
            else recordBootstrapPeer env pid peer peers
        | _ => (peers, .error .attributeError)
  | _ => (peers, .error .attributeError)

/-- What has been recorded when an exception is raised stays. -/
def loadPeers : List Json → Table env.database →
    Table env.database × Except Raised Nat
  | [], peers => (peers, .ok 0)
  | peer :: rest, peers =>
      match loadPeer env peer peers with
      | (next, .error raised) => (next, .error raised)
      | (next, .ok counted) =>
          let (final, count) := loadPeers rest next
          (final, count.map (· + counted.toNat))

/-- `load_bootstrap_peers`, given the file if it exists and is JSON. -/
def loadBootstrapPeers (file : Option Json) (peers : Table env.database) :
    Table env.database × Except Raised Nat :=
  match file with
  | some (.arr items) => loadPeers env items peers
  | _ => (peers, .ok 0)

/-- The arguments of `peer add`. -/
structure AddArguments where
  host : Text
  port : Int
  pid : Option Text
  name : Option Text

/-- `peer add`, which makes up a PID if there is none. -/
def addPeer (args : AddArguments) (peers : Table env.database) :
    Except DatabaseError (Table env.database) :=
  upsertPeer
    { pid := (args.pid.filter (· ≠ [])).getD
        (hashContent env.scheme
          (encodeUtf8 (args.host ++ ':' :: intText args.port)))
      publicKey := []
      hostname := .str args.host
      port := .int args.port
      pillarName := PeerListener.textOrNull args.name } peers

/-- A connection sees its own changes, which last when they are committed. -/
structure Connection (database : Database) where
  committed : Table database
  pending : Table database

namespace Connection

variable {database : Database}

def opened (peers : Table database) : Connection database := ⟨peers, peers⟩

def execute (statement : Table database → Table database)
    (connection : Connection database) : Connection database :=
  { connection with pending := statement connection.pending }

/-- What is left when the connection has been closed. -/
def closed (connection : Connection database) : Table database :=
  connection.committed

end Connection

/-- `peer remove`, given the PIDs that are listed.  The command deletes the row
and closes the connection without committing. -/
def removePeer (listed : List Text) (pidStart : Text)
    (peers : Table env.database) : Table env.database :=
  match listed.filter pidStart.isPrefixOf with
  | [pid] =>
      ((Connection.opened peers).execute fun rows =>
        Function.update rows pid none).closed
  | _ => peers

/-- A pass over a directory, whose PIDs are never blank. -/
structure ChainPass where
  ownPid : Text
  directory : ChainDiscovery.Directory
  named : ∀ entry ∈ directory.entries, entry.pid ≠ []

inductive Input where
  | announcement (listener : Listener) (datagram : Datagram)
  | chainPass (pass : ChainPass)
  | bootstrap (file : Option Json)
  | add (args : AddArguments)
  | remove (listed : List Text) (pidStart : Text)

def Input.apply (input : Input) (state : State env.database) :
    State env.database :=
  match input with
  | .announcement listener datagram => receive listener datagram state
  | .chainPass pass =>
      { state with
        peers := (ChainDiscovery.discoverOnce env.wellKnown pass.ownPid
          pass.directory state.peers).1 }
  | .bootstrap file =>
      { state with peers := (loadBootstrapPeers env file state.peers).1 }
  | .add args =>
      { state with
        peers := (addPeer env args state.peers).toOption.getD state.peers }
  | .remove listed pidStart =>
      { state with peers := removePeer env listed pidStart state.peers }

/-- A key that was left blank, or one whose hash is the PID. -/
def KeyFits (pid publicKey : Text) : Prop :=
  (∃ blank : Json, blank.isFalsy = true ∧
      columnText env.database.realText blank = .ok (some publicKey)) ∨
    pidMatchesKey env.scheme pid publicKey = true ∨
    pidMatchesKey env.scheme (env.lower pid) publicKey = true

end Writers

section Runs

variable {env : Environment}

theorem keyFits_blank {publicKey pid : Text} {value : Json}
    (blank : value.isFalsy = true)
    (column : requiredText env.database.realText "peers.public_key" value =
      .ok publicKey) :
    KeyFits env pid publicKey := by
  refine .inl ⟨value, blank, ?_⟩
  obtain ⟨stored, isStored, given⟩ := bind_eq_ok.mp column
  cases stored with
  | none => cases given
  | some text => exact Except.ok.inj given ▸ isStored

theorem grows_recordOnion (msg : Json) (pid : Text)
    (peers : Table env.database) :
    Grows (KeyFits env) peers (PeerListener.recordOnion msg pid peers) := by
  unfold PeerListener.recordOnion
  split
  · exact .refl peers
  · split
    · exact .refl peers
    next onion _ _ =>
      cases done : updatePeerOnion pid onion peers with
      | error refused => exact .refl peers
      | ok next => exact grows_updatePeerOnion done

theorem grows_store {mayMove : Bool} {sender : Text} {msg : Json}
    {pid publicKey : Text} (keyed : KeyFits env pid publicKey)
    (peers : Table env.database) :
    Grows (KeyFits env) peers
      (PeerListener.store mayMove sender msg pid publicKey peers) := by
  rcases store_cases mayMove sender msg pid publicKey peers with
    ⟨stored, -⟩ | ⟨known, -, stored⟩
  · rw [stored, PeerListener.record]
    split
    next next done =>
      exact (grows_upsertPeer done fun _ => keyed).trans
        (grows_recordOnion msg pid next)
    next => exact .refl peers
  · rw [stored]
    cases done : upsertPeer (PeerListener.refreshOf known msg pid publicKey)
        peers with
    | error refused => exact .refl peers
    | ok next => exact grows_upsertPeer done fun _ => keyed

/-- An announcement registers the key that hashes to its PID. -/
theorem grows_receive (listener : Listener) (datagram : Datagram)
    (state : State env.database) :
    Grows (KeyFits env) state.peers
      (receive listener datagram state).peers := by
  unfold receive
  split
  · exact .refl _
  next msg parsed =>
    split
    · exact .refl _
    next pid publicKey identified =>
      obtain ⟨-, -, keyed⟩ := exists_of_identify identified
      unfold PeerListener.handle
      split
      · exact .refl _
      next verdict last accepted =>
        split
        · exact grows_store (.inr (.inl keyed)) state.peers
        · exact .refl _

theorem pid_of_expected {entry : ChainDiscovery.Entry}
    {status : ChainDiscovery.Status} {pid : Text} (named : entry.pid ≠ [])
    (expected : WellKnown.Expectation.otherPid env.wellKnown
      (ChainDiscovery.expectationOf entry status) (.str pid) = false) :
    pid = env.lower entry.pid := by
  unfold WellKnown.Expectation.otherPid at expected
  split at expected
  next blank => cases blank
  next blank => exact absurd (Option.some.inj blank) named
  next wanted _ isWanted =>
    obtain rfl := Option.some.inj isWanted
    have named :
        WalletBinding.IsText (env.wellKnown.lower entry.pid) (.str pid) := by
      simpa using expected
    exact Json.str.inj (WalletBinding.isText_iff.mp named)

/-- A document is verified under the key that hashes to the PID of its
entry, whose letters are lowered. -/
theorem keyFits_discoverPeer {entry : ChainDiscovery.Entry}
    {record : ChainDiscovery.Record} (named : entry.pid ≠ [])
    (found : ChainDiscovery.discoverPeer env.wellKnown entry =
      .ok (some record)) :
    KeyFits env record.pid record.publicKey := by
  obtain ⟨status, -, found⟩ := bind_eq_ok.mp found
  split at found
  · cases found
  obtain ⟨doc, -, found⟩ := bind_eq_ok.mp found
  obtain ⟨⟨ok, reason⟩, verified, found⟩ := bind_eq_ok.mp found
  dsimp only at found
  split at found
  next isValid =>
    obtain ⟨endpoint, -, found⟩ := bind_eq_ok.mp found
    subst isValid
    have passes := ((WellKnown.verifyWellKnown_cases _ _ _).1.mp
      ⟨reason, mapError_eq_ok.mp verified⟩).1
    obtain ⟨-, pid, publicKey, signature, -, hasKey, -, keyed, -, expected⟩ :=
      WellKnown.keyProblem_eq_none.mp passes
    obtain ⟨pidText, keyText, rfl, rfl, keyed⟩ :=
      WalletBinding.pidMatchesValue_iff.mp keyed
    split at found
    · cases found
    · split at found
      · cases found
      · rw [hasKey] at found
        obtain rfl := Option.some.inj (Except.ok.inj found)
        exact .inr (.inr (pid_of_expected named expected ▸ keyed))
  next => cases found

theorem grows_recordAll {records : List ChainDiscovery.Record}
    (keyed : ∀ record ∈ records, KeyFits env record.pid record.publicKey)
    (peers : Table env.database) :
    Grows (KeyFits env) peers (ChainDiscovery.recordAll records peers).1 := by
  induction records generalizing peers with
  | nil => exact .refl peers
  | cons record records ih =>
      have rest := ih fun other isOther => keyed other (.tail _ isOther)
      unfold ChainDiscovery.recordAll
      split
      · exact .refl peers
      next next done =>
        exact (grows_upsertPeer done fun _ => keyed record (.head _)).trans
          (rest next)

theorem grows_discoverOnce (pass : ChainPass) (peers : Table env.database) :
    Grows (KeyFits env) peers
      (ChainDiscovery.discoverOnce env.wellKnown pass.ownPid pass.directory
        peers).1 := by
  refine grows_recordAll (fun record isRecord => ?_) peers
  obtain ⟨entry, isEntry, found⟩ := List.mem_filterMap.mp isRecord
  exact keyFits_discoverPeer
    (pass.named entry (List.mem_filter.mp isEntry).1)
    (ChainDiscoveryIsolation.tryEntry_eq_some.mp found)

theorem grows_recordBootstrapOnion (pid : Text) (peer : Json)
    (peers : Table env.database) :
    Grows (KeyFits env) peers (recordBootstrapOnion env pid peer peers).1 := by
  unfold recordBootstrapOnion
  dsimp only
  split
  · exact .refl peers
  · split
    · exact .refl peers
    next next done => exact grows_updatePeerOnion done

/-- A bootstrap peer has a blank key, or the one that hashes to its PID. -/
theorem keyFits_bootstrap {pid publicKey : Text} {peer : Json}
    (genuine : keyIsForged env pid peer = false)
    (column : requiredText env.database.realText "peers.public_key"
      (bootstrapKey peer) = .ok publicKey) :
    KeyFits env pid publicKey := by
  cases blank : (bootstrapKey peer).isFalsy with
  | true => exact keyFits_blank blank column
  | false =>
      have keyed : WalletBinding.pidMatchesValue env.scheme (.str pid)
          (bootstrapKey peer) = true := by
        simpa [keyIsForged, blank] using genuine
      obtain ⟨pidText, keyText, samePid, isKey, keyed⟩ :=
        WalletBinding.pidMatchesValue_iff.mp keyed
      obtain rfl := Json.str.inj samePid
      rw [isKey] at column
      obtain rfl := Except.ok.inj column
      exact .inr (.inl keyed)

theorem grows_loadPeer (peer : Json) (peers : Table env.database) :
    Grows (KeyFits env) peers (loadPeer env peer peers).1 := by
  unfold loadPeer
  split
  · split
    · exact .refl peers
    · split
      next pid _ =>
        split
        · exact .refl peers
        next passes =>
          have genuine : keyIsForged env pid _ = false :=
            Bool.eq_false_iff.mpr fun forged => passes (.inr forged)
          unfold recordBootstrapPeer
          split
          · exact .refl peers
          next publicKey column =>
            split
            · exact .refl peers
            next next done =>
              exact (grows_upsertPeer done fun _ =>
                keyFits_bootstrap genuine column).trans
                  (grows_recordBootstrapOnion pid _ next)
      · exact .refl peers
  · exact .refl peers

theorem grows_loadPeers (items : List Json) (peers : Table env.database) :
    Grows (KeyFits env) peers (loadPeers env items peers).1 := by
  induction items generalizing peers with
  | nil => exact .refl peers
  | cons peer rest ih =>
      have loaded := grows_loadPeer peer peers
      unfold loadPeers
      split
      next next raised stopped =>
        rw [stopped] at loaded
        exact loaded
      next next counted goesOn =>
        rw [goesOn] at loaded
        exact loaded.trans (ih next)

theorem grows_addPeer (args : AddArguments) (peers : Table env.database) :
    Grows (KeyFits env) peers
      ((addPeer env args peers).toOption.getD peers) := by
  cases done : addPeer env args peers with
  | error refused => exact .refl peers
  | ok next =>
      exact grows_upsertPeer done fun _ => .inl ⟨.str [], rfl, rfl⟩

theorem removePeer_eq (listed : List Text) (pidStart : Text)
    (peers : Table env.database) :
    removePeer env listed pidStart peers = peers := by
  unfold removePeer
  split
  · rfl
  · rfl

theorem grows_apply (input : Input) (state : State env.database) :
    Grows (KeyFits env) state.peers (input.apply env state).peers := by
  cases input with
  | announcement listener datagram =>
      exact grows_receive listener datagram state
  | chainPass pass => exact grows_discoverOnce pass state.peers
  | bootstrap file =>
      unfold Input.apply loadBootstrapPeers
      dsimp only
      split
      · exact grows_loadPeers _ state.peers
      · exact .refl _
  | add args => exact grows_addPeer args state.peers
  | remove listed pidStart =>
      unfold Input.apply
      dsimp only
      rw [removePeer_eq]
      exact .refl _

/-- Whatever writes peers, and in whichever order: a known PID stays known
with the key that it has, and the key of a new one is blank or hashes to it.
Not even the command that removes peers removes one. -/
theorem peers_grow (start : State env.database) 
    (later earlier : List Input) :
    Grows (KeyFits env)
      (run (Input.apply env) start earlier).peers
      (run (Input.apply env) start (later ++ earlier)).peers := by
  induction later with
  | nil => exact .refl _
  | cons input later ih => exact ih.trans (grows_apply input _)

end Runs

end PeerBook

end RefinetPillars
