import RefinetPillars.CrashableActions
import RefinetPillars.IpAddress
import RefinetPillars.KeyRecovery
import RefinetPillars.LineText
import RefinetPillars.Sha256

/-!
# The Gopher client

A Pillar fetches from other Pillars and pings them.  A target is refused by the
text of its host; then the system resolves the host, and its addresses are
dialled one after the other until one is connected.  What is asked of the system
is kept, newest first.
-/

namespace RefinetPillars

namespace GopherClient

open HexText LineText KeyRecovery IpAddress
open CrashableActions Action

section Network

/-- What comes of dialling an address; time that runs out ends everything. -/
inductive Attempt where
  | connected
  | failed
  | timedOut
deriving DecidableEq

inductive Raised where
  | portNotAllowed (port : Int)
  | hostBlocked (host : Text)
  | tooLarge
  | timeout
  | network (error : Text)
deriving DecidableEq

/-- What was asked of the system, and its answer. -/
inductive Exchange where
  | resolved (host : Text) (port : Int) (addresses : Except Raised (List Address))
  | dialled (address : Address) (port : Int) (attempt : Attempt)
  | sent (bytes : List UInt8) (result : Except Raised Unit)
  | received (count : Nat) (bytes : Except Raised (List UInt8))

/-- The answers of the system resolver. -/
abbrev Resolver : Type := Text → Int → Except Raised (List Address)

/-- The answers of the system, after what was asked before. -/
structure Network where
  getaddrinfo : Resolver
  dial : List Exchange → Address → Int → Attempt
  send : List Exchange → List UInt8 → Except Raised Unit
  receive : List Exchange → Nat → Except Raised (List UInt8)
  monotonic : List Exchange → ℚ

abbrev Routine (Value : Type) : Type := Action (List Exchange) Raised Value

def ask {Value : Type} (answer : List Exchange → Except Raised Value)
    (exchange : Except Raised Value → Exchange) : Routine Value := do
  let log ← read
  perform fun log => exchange (answer log) :: log
  lift (answer log)

variable (network : Network)

/-- The addresses are dialled in their order until one is connected. -/
def dialEach (port : Int) : List Address → Routine Unit
  | [] => lift (.error (.network []))
  | address :: rest => do
      let log ← read
      let attempt := network.dial log address port
      perform fun log => .dialled address port attempt :: log
      match attempt with
      | .connected => pure ()
      | .failed => dialEach port rest
      | .timedOut => lift (.error .timeout)

/-- `asyncio.open_connection`. -/
def openConnection (host : Text) (port : Int) : Routine Unit := do
  let addresses ← ask (fun _ => network.getaddrinfo host port)
    (.resolved host port)
  dialEach network port addresses

/-- `writer.write` and `writer.drain`. -/
def send (bytes : List UInt8) : Routine Unit :=
  ask (network.send · bytes) (.sent bytes)

/-- `reader.read`. -/
def receive (count : Nat) : Routine (List UInt8) :=
  ask (network.receive · count) (.received count)

end Network

section Targets

def allowedPorts : List Int := [70, 7070, 105]

def blockedHostPrefixes : List Text :=
  ["127.".toList, "0.".toList, "::1".toList]

/-- A host is blocked by how its text starts. -/
def IsBlocked (host : Text) : Prop :=
  ∃ start ∈ blockedHostPrefixes, start <+: host

instance decidableIsBlocked (host : Text) : Decidable (IsBlocked host) :=
  inferInstanceAs (Decidable (∃ start ∈ blockedHostPrefixes, start <+: host))

/-- `_validate_target`. -/
def validateTarget (host : Text) (port : Int) : Except Raised Unit :=
  if port ∉ allowedPorts then .error (.portNotAllowed port)
  else if IsBlocked host then .error (.hostBlocked host)
  else .ok ()

/-- An address of the networks 127.0.0.0/8 and 0.0.0.0/8, mapped or not, or the
loopback address of version 6. -/
def isInward (address : Address) : Bool :=
  match address.unmapped with
  | .v4 bits => (quad 127 0 0 0 8).has bits || (quad 0 0 0 0 8).has bits
  | .v6 bits => bits = 1

end Targets

section Fetching

structure GopherResponse where
  host : Text
  port : Int
  selector : Text
  rawBytes : List UInt8
  contentHash : Text
  itemType : Text
  sizeBytes : Nat
deriving DecidableEq

def maxResponseSize : Nat := 2 * 1024 * 1024

/-- A selector without a tab and what follows it on the last line, if that starts
with a plus or a dollar sign. -/
def stripGopherPlus : Text → Text
  | [] => []
  | first :: rest =>
      if first.toNat = 9 ∧ (rest.head? = some '+' ∨ rest.head? = some '$') ∧
          Char.ofNat 10 ∉ (rest.drop 1).dropLast then
        if (rest.drop 1).getLast? = some (Char.ofNat 10) then [Char.ofNat 10]
        else []
      else first :: stripGopherPlus rest

variable (network : Network)

/-- The bytes up to the end of a connection, while there is room for them. -/
def readAll (room : Nat) : Routine (List UInt8) := do
  let chunk ← receive network 65536
  if _ : chunk = [] then pure []
  else if _ : room < chunk.length then lift (.error .tooLarge)
  else do
    let rest ← readAll (room - chunk.length)
    pure (chunk ++ rest)
termination_by room
decreasing_by
  have nonempty := List.length_pos_iff.mpr ‹¬ chunk = []›
  omega

def fetch (host : Text) (port : Int) (selector itemType : Text) :
    Routine GopherResponse := do
  lift (validateTarget host port)
  let selector := stripGopherPlus selector
  openConnection network host port
  send network (encodeUtf8 (selector ++ crlf))
  let raw ← readAll network maxResponseSize
  pure
    { host := host
      port := port
      selector := selector
      rawBytes := raw
      contentHash := toHex (Sha256.sha256 raw)
      itemType := itemType
      sizeBytes := raw.length }

/-- `ping`: the milliseconds until an answer, or nothing. -/
def ping (host : Text) (port : Int) : Routine (Option ℚ) :=
  handle (do
      lift (validateTarget host port)
      let log ← read
      openConnection network host port
      send network (encodeUtf8 crlf)
      let _ ← receive network 1024
      let later ← read
      pure (some ((network.monotonic later - network.monotonic log) * 1000)))
    fun _ => pure none

end Fetching

section Connections

/-- The addresses that were connected. -/
def connections (log : List Exchange) : List Address :=
  log.filterMap fun
    | .dialled address _ .connected => some address
    | _ => none

/-- Whatever happens, an action ends with such connections. -/
def Leaves {Value : Type} (always : List Address → Prop)
    (action : Routine Value) (log : List Exchange) : Prop :=
  Ends action (fun _ later => always (connections later))
    (fun _ later => always (connections later)) log

variable {network : Network} {always : List Address → Prop}
  {log : List Exchange}

theorem leaves_bind {Value Result : Type} {action : Routine Value}
    {next : Value → Routine Result} (first : Leaves always action log)
    (later : ∀ value log, always (connections log) →
      Leaves always (next value) log) :
    Leaves always (action >>= next) log :=
  ends_bind (first.mono (fun value log held => later value log held)
    fun _ _ held => held)

theorem leaves_lift {Value : Type} (result : Except Raised Value)
    (held : always (connections log)) : Leaves always (lift result) log :=
  ends_lift (fun _ _ => held) fun _ _ => held

theorem leaves_pure {Value : Type} (value : Value)
    (held : always (connections log)) : Leaves always (pure value) log :=
  ends_pure held

theorem leaves_read (held : always (connections log)) :
    Leaves always read log :=
  ends_read held

theorem ends_ask {Value : Type} {answer : List Exchange → Except Raised Value}
    {exchange : Except Raised Value → Exchange}
    {after : Value → List Exchange → Prop}
    {raises : Raised → List Exchange → Prop}
    (returns : ∀ value, answer log = .ok value →
      after value (exchange (answer log) :: log))
    (raised : ∀ error, answer log = .error error →
      raises error (exchange (answer log) :: log)) :
    Ends (ask answer exchange) after raises log :=
  ends_bind (ends_read (ends_bind (ends_perform (ends_lift returns raised))))

/-- A question connects nothing, unless it is an address that is dialled. -/
theorem leaves_ask {Value : Type}
    {answer : List Exchange → Except Raised Value}
    {exchange : Except Raised Value → Exchange}
    (silent : ∀ result log, connections (exchange result :: log) =
      connections log) (held : always (connections log)) :
    Leaves always (ask answer exchange) log := by
  refine ends_ask (fun _ _ => ?_) fun _ _ => ?_ <;>
  · rw [silent]
    exact held

theorem leaves_send (bytes : List UInt8) (held : always (connections log)) :
    Leaves always (send network bytes) log :=
  leaves_ask (fun _ _ => rfl) held

theorem leaves_receive (count : Nat) (held : always (connections log)) :
    Leaves always (receive network count) log :=
  leaves_ask (fun _ _ => rfl) held

theorem leaves_readAll (room : Nat) (held : always (connections log)) :
    Leaves always (readAll network room) log := by
  induction room using Nat.strong_induction_on generalizing log with
  | _ room ih =>
      rw [readAll]
      refine leaves_bind (leaves_receive _ held) fun chunk log held => ?_
      split
      · exact leaves_pure _ held
      next nonempty =>
        split
        · exact leaves_lift _ held
        next fits =>
          have positive := List.length_pos_iff.mpr nonempty
          exact leaves_bind (ih _ (by omega) held)
            fun rest log held => leaves_pure _ held

/-- The addresses of a host are dialled. -/
theorem leaves_openConnection {host : Text} {port : Int}
    (unresolved : ∀ error, network.getaddrinfo host port = .error error →
      always (connections log))
    (dialled : ∀ addresses, network.getaddrinfo host port = .ok addresses →
      ∀ later, connections later = connections log →
        Leaves always (dialEach network port addresses) later) :
    Leaves always (openConnection network host port) log :=
  ends_bind (ends_ask (fun addresses found => dialled addresses found _ rfl)
    fun error failed => unresolved error failed)

section Targets

variable {host : Text} {port : Int}
  (refused : validateTarget host port ≠ .ok () → always (connections log))
  (opened : validateTarget host port = .ok () →
    Leaves always (openConnection network host port) log)

include refused opened

theorem leaves_fetch (selector itemType : Text) :
    Leaves always (fetch network host port selector itemType) log := by
  refine ends_bind (ends_lift (fun _ accepted => ?_) fun error failed => ?_)
  · refine leaves_bind (opened accepted) fun _ log held => ?_
    refine leaves_bind (leaves_send _ held) fun _ log held => ?_
    exact leaves_bind (leaves_readAll _ held)
      fun _ log held => leaves_pure _ held
  · exact refused (by simp [failed])

theorem leaves_ping : Leaves always (ping network host port) log := by
  refine ends_handle ((?_ : Leaves always _ log).mono (fun _ _ held => held)
    fun _ _ held => leaves_pure _ held)
  refine ends_bind (ends_lift (fun _ accepted => ?_) fun error failed => ?_)
  · refine ends_bind (ends_read ?_)
    refine leaves_bind (opened accepted) fun _ log held => ?_
    refine leaves_bind (leaves_send _ held) fun _ log held => ?_
    refine leaves_bind (leaves_receive _ held) fun _ log held => ?_
    exact leaves_bind (leaves_read held) fun _ log held => leaves_pure _ held
  · exact refused (by simp [failed])

end Targets

theorem leaves_dialEach_cons {address : Address} {rest : List Address}
    {port : Int}
    (connects : network.dial log address port = .connected →
      always (address :: connections log))
    (fails : network.dial log address port = .failed →
      ∀ later, connections later = connections log →
        Leaves always (dialEach network port rest) later)
    (timesOut : network.dial log address port = .timedOut →
      always (connections log)) :
    Leaves always (dialEach network port (address :: rest)) log := by
  refine ends_bind (ends_read (ends_bind (ends_perform ?_)))
  cases attempt : network.dial log address port with
  | connected => exact ends_pure (connects attempt)
  | failed => exact fails attempt _ rfl
  | timedOut =>
      have held := timesOut attempt
      exact ends_lift (fun _ _ => held) fun _ _ => held

/-- Only addresses that are dialled are connected. -/
theorem leaves_dialEach {allowed : Address → Prop} {port : Int}
    {addresses : List Address} (outside : ∀ address ∈ addresses, allowed address)
    (held : ∀ address ∈ connections log, allowed address) :
    Leaves (fun found => ∀ address ∈ found, allowed address)
      (dialEach network port addresses) log := by
  induction addresses generalizing log with
  | nil => exact leaves_lift _ held
  | cons address rest ih =>
      have ofRest : ∀ other ∈ rest, allowed other := fun other member =>
        outside other (List.mem_cons_of_mem _ member)
      refine leaves_dialEach_cons (fun _ other member => ?_)
        (fun _ later same => ih ofRest (same ▸ held)) (fun _ => held)
      rcases List.mem_cons.mp member with rfl | earlier
      · exact outside other List.mem_cons_self
      · exact held other earlier

/-- A system that resolves so, in which one address answers. -/
def reaching (resolver : Resolver) (address : Address) : Network where
  getaddrinfo := resolver
  dial _ other _ := if other = address then .connected else .failed
  send _ _ := .error .timeout
  receive _ _ := .error .timeout
  monotonic _ := 0

/-- The one address that answers is connected. -/
theorem leaves_dialEach_reaching {resolver : Resolver} {address : Address}
    {port : Int} {addresses : List Address} (member : address ∈ addresses) :
    Leaves (address ∈ ·)
      (dialEach (reaching resolver address) port addresses) log := by
  have answer : ∀ log other, (reaching resolver address).dial log other port =
      if other = address then .connected else .failed :=
    fun _ _ => rfl
  induction addresses generalizing log with
  | nil => cases member
  | cons first rest ih =>
      by_cases same : first = address
      · refine leaves_dialEach_cons (fun _ => same ▸ List.mem_cons_self)
          (fun failed => ?_) (fun timedOut => ?_) <;>
        simp_all
      · have inRest := (List.mem_cons.mp member).resolve_left (Ne.symm same)
        refine leaves_dialEach_cons (fun connected => ?_)
          (fun _ later _ => ih inRest) (fun timedOut => ?_) <;>
        simp_all

end Connections

section Loopback

/-- No fetch and no ping connects to a loopback address, and a host that has
other addresses only is accepted. -/
structure KeepsOff (resolver : Resolver) (host : Text) (port : Int) : Prop where
  fetched : ∀ network selector itemType, network.getaddrinfo = resolver →
    ∀ address ∈ connections
      (final (fetch network host port selector itemType) []),
      isInward address = false
  pinged : ∀ network, network.getaddrinfo = resolver →
    ∀ address ∈ connections (final (ping network host port) []),
      isInward address = false
  accepted : port ∈ allowedPorts → ∀ addresses,
    resolver host port = .ok addresses → addresses ≠ [] →
    (∀ address ∈ addresses, isInward address = false) →
      validateTarget host port = .ok ()

variable {resolver : Resolver} {host : Text} {port : Int}

theorem validateTarget_eq_ok :
    validateTarget host port = .ok () ↔
      port ∈ allowedPorts ∧ ¬ IsBlocked host := by
  rw [validateTarget]
  split <;> simp_all

theorem leaves_openConnection_outside {network : Network} {log : List Exchange}
    (held : ∀ address ∈ connections log, isInward address = false)
    (outside : ∀ addresses, network.getaddrinfo host port = .ok addresses →
      ∀ address ∈ addresses, isInward address = false) :
    Leaves (fun found => ∀ address ∈ found, isInward address = false)
      (openConnection network host port) log :=
  leaves_openConnection (fun _ _ => held) fun addresses found _ same =>
    leaves_dialEach (outside addresses found) (same ▸ held)

theorem leaves_openConnection_reaching {address : Address}
    {addresses : List Address} {log : List Exchange}
    (found : resolver host port = .ok addresses)
    (member : address ∈ addresses) :
    Leaves (address ∈ ·)
      (openConnection (reaching resolver address) host port) log := by
  refine leaves_openConnection (fun error failed => ?_)
    fun others resolved later _ => ?_
  · exact absurd (found.symm.trans failed) nofun
  · obtain rfl := Except.ok.inj (found.symm.trans resolved)
    exact leaves_dialEach_reaching member

/-- A loopback address is connected when the text of its host passes. -/
theorem not_keepsOff_of_passed {address : Address} {addresses : List Address}
    (allowed : port ∈ allowedPorts) (passed : ¬ IsBlocked host)
    (found : resolver host port = .ok addresses) (member : address ∈ addresses)
    (inward : isInward address = true) : ¬ KeepsOff resolver host port := by
  intro keepsOff
  have accepted := validateTarget_eq_ok.mpr ⟨allowed, passed⟩
  have reached : Leaves (address ∈ ·)
      (fetch (reaching resolver address) host port [] []) [] :=
    leaves_fetch (fun refused => absurd accepted refused)
      (fun _ => leaves_openConnection_reaching found member) [] []
  have outside := keepsOff.fetched (reaching resolver address) [] [] rfl
    address reached.holds
  exact Bool.noConfusion (inward.symm.trans outside)

/-- Loopback stays out of reach, and other hosts within it, on an allowed port
exactly when the texts of the hosts that resolve to loopback are those that are
blocked. -/
theorem keepsOff_iff (resolver : Resolver) (host : Text) (port : Int) :
    KeepsOff resolver host port ↔
      (port ∈ allowedPorts → ∀ addresses, resolver host port = .ok addresses →
        addresses ≠ [] →
        (IsBlocked host ↔ ∃ address ∈ addresses, isInward address = true)) := by
  constructor
  · intro keepsOff allowed addresses found nonempty
    constructor
    · intro blocked
      by_contra none
      push Not at none
      have accepted := keepsOff.accepted allowed addresses found nonempty
        fun address member => by simpa using none address member
      exact (validateTarget_eq_ok.mp accepted).2 blocked
    · rintro ⟨address, member, inward⟩
      by_contra passed
      exact not_keepsOff_of_passed allowed passed found member inward keepsOff
  · intro agrees
    have opened : ∀ network : Network, network.getaddrinfo = resolver →
        validateTarget host port = .ok () →
        Leaves (fun found => ∀ address ∈ found, isInward address = false)
          (openConnection network host port) [] := by
      intro network same accepted
      obtain ⟨allowed, passed⟩ := validateTarget_eq_ok.mp accepted
      refine leaves_openConnection_outside nofun fun addresses found => ?_
      rw [same] at found
      intro address member
      have nonempty := List.ne_nil_of_mem member
      rw [agrees allowed addresses found nonempty] at passed
      push Not at passed
      simpa using passed address member
    constructor
    · intro network selector itemType same
      exact (leaves_fetch (fun _ => nofun) (opened network same)
        selector itemType).holds
    · intro network same
      exact (leaves_ping (fun _ => nofun) (opened network same)).holds
    · intro allowed addresses found nonempty outside
      refine validateTarget_eq_ok.mpr ⟨allowed, fun blocked => ?_⟩
      obtain ⟨address, member, inward⟩ :=
        (agrees allowed addresses found nonempty).mp blocked
      exact Bool.noConfusion (inward.symm.trans (outside address member))

/-- The name `localhost`, which resolves to loopback. -/
def localResolver : Resolver := fun host _ =>
  if host = "localhost".toList then .ok [.v4 (BitVec.ofNat 32 0x7f000001)]
  else .error (.network [])

/-- The name of loopback is not blocked. -/
theorem not_keepsOff :
    ¬ ∀ (resolver : Resolver) (host : Text) (port : Int),
      KeepsOff resolver host port := by
  intro claimed
  have loopback : isInward (.v4 (BitVec.ofNat 32 0x7f000001)) = true := by
    decide +kernel
  exact not_keepsOff_of_passed (by decide) (by decide) rfl
    List.mem_cons_self loopback (claimed localResolver "localhost".toList 7070)

end Loopback

end GopherClient

end RefinetPillars
