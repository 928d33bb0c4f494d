import RefinetPillars.ForwardProxy

/-!
# Where the forward proxy connects to

Without Tor every connection is opened to an address that was resolved for the
request and is public.  With Tor the first connection is to its SOCKS port, and
there is no other one unless the route through it has failed.
-/

namespace RefinetPillars

namespace ForwardProxy

open HexText LineText Utf8Text KeyRecovery ContentSigning
open CrashableActions Action

section Connections

/-- The connections that were opened, newest first. -/
def openings : List Exchange → List (Text × Int)
  | [] => []
  | .opened host port _ :: log => (host, port) :: openings log
  | _ :: log => openings log

/-- Every connection was opened when it was allowed. -/
def OpenedAs (allowed : Text → Int → List Exchange → Prop)
    (log : List Exchange) : Prop :=
  ∀ host port result before,
    .opened host port result :: before <:+ log → allowed host port before

/-- An exchange that ends the route through Tor. -/
def Exchange.Fails : Exchange → Prop
  | .resolved _ _ _ => False
  | .opened _ _ result => ∃ error, result = .error error
  | .sent _ result => ∃ error, result = .error error
  | .received _ (.error _) => True
  | .received count (.ok bytes) =>
      (count = 2 ∧ bytes ≠ [5, 0]) ∨
        (count = 10 ∧ (bytes.length < 2 ∨ bytes[1]? ≠ some 0))

/-- Host, port and selector that a line asks for. -/
def requested (line : List UInt8) : Option (Text × Int × Text) :=
  parseRequest (strip (decodeUtf8 line))

/-- The route through Tor fails in an exchange, or at a host name that is too
long for it. -/
def RouteFailed (line : List UInt8) (log : List Exchange) : Prop :=
  (∃ exchange ∈ log, exchange.Fails) ∨
    ∃ host port selector, requested line = some (host, port, selector) ∧
      255 < (encodeUtf8 host).length

/-- When a connection may be opened. -/
def MayOpen (proxy : Proxy) (line : List UInt8) (host : Text) (port : Int)
    (before : List Exchange) : Prop :=
  match proxy.socksPort with
  | some socksPort =>
      (before = [] ∧ host = localhost ∧ port = socksPort) ∨
        (before ≠ [] ∧ RouteFailed line before)
  | none =>
      ∃ requestedHost selector addresses,
        requested line = some (requestedHost, port, selector) ∧
          port ∈ allowedPorts ∧
          .resolved (stripBrackets requestedHost) port (.ok addresses) ∈
            before ∧
          addresses.head? = some host ∧
          ∀ address ∈ addresses, addressIsPublic address

/-- The text of an address that is neither a loopback nor a private one. -/
def IsRemote (host : Text) : Prop :=
  ∃ address, IpAddress.ipAddress host = some address ∧
    address.unmapped.isLoopback = false ∧ address.unmapped.isPrivate = false

/-- Connections are opened as allowed, and without Tor never to the own host or
a private network. -/
structure OpensAsConfigured (proxy : Proxy) (line : List UInt8)
    (log : List Exchange) : Prop where
  opened : OpenedAs (MayOpen proxy line) log
  remote : proxy.socksPort = none → ∀ opening ∈ openings log,
    IsRemote opening.1

end Connections

section Openings

theorem exists_suffix_of_mem_openings {log : List Exchange} {host : Text}
    {port : Int} (member : (host, port) ∈ openings log) :
    ∃ result before, .opened host port result :: before <:+ log := by
  induction log with
  | nil => cases member
  | cons exchange log ih =>
      have older : (host, port) ∈ openings log →
          ∃ result before,
            .opened host port result :: before <:+ exchange :: log := by
        intro member
        obtain ⟨result, before, suffix⟩ := ih member
        exact ⟨result, before, suffix.trans (List.suffix_cons _ _)⟩
      cases exchange with
      | opened otherHost otherPort result =>
          rcases List.mem_cons.mp member with newest | earlier
          · obtain ⟨rfl, rfl⟩ := Prod.mk.inj newest
            exact ⟨result, log, List.suffix_refl _⟩
          · exact older earlier
      | resolved => exact older member
      | sent => exact older member
      | received => exact older member

theorem isRemote_of_addressIsPublic {host : Text}
    (isPublic : addressIsPublic host) : IsRemote host := by
  rw [addressIsPublic] at isPublic
  cases parsed : IpAddress.ipAddress host with
  | none => simp [parsed] at isPublic
  | some address =>
      simp only [parsed, Bool.not_eq_true', Bool.or_eq_false_iff] at isPublic
      exact ⟨address, parsed, by simp [isPublic], by simp [isPublic]⟩

/-- Without Tor a connection is opened to a public address only. -/
theorem isRemote_of_mayOpen {proxy : Proxy} {line : List UInt8} {host : Text}
    {port : Int} {before : List Exchange}
    (unconfigured : proxy.socksPort = none)
    (mayOpen : MayOpen proxy line host port before) : IsRemote host := by
  rw [MayOpen, unconfigured] at mayOpen
  obtain ⟨-, -, addresses, -, -, -, first, allPublic⟩ := mayOpen
  exact isRemote_of_addressIsPublic
    (allPublic host (List.mem_of_head? first))

end Openings

section Rules

variable {allowed : Text → Int → List Exchange → Prop} {log : List Exchange}
  {network : Network}

theorem openedAs_nil : OpenedAs allowed [] := by
  intro host port result before suffix
  cases List.suffix_nil.mp suffix

theorem openedAs_cons_iff {exchange : Exchange} :
    OpenedAs allowed (exchange :: log) ↔
      OpenedAs allowed log ∧ ∀ host port result,
        exchange = .opened host port result → allowed host port log := by
  constructor
  · intro opened
    refine ⟨fun host port result before suffix =>
      opened host port result before
        (suffix.trans (List.suffix_cons exchange log)), ?_⟩
    rintro host port result rfl
    exact opened host port result log (List.suffix_refl _)
  · rintro ⟨earlier, newest⟩ host port result before suffix
    rcases List.suffix_cons_iff.mp suffix with whole | older
    · obtain ⟨same, rfl⟩ := List.cons.inj whole
      exact newest host port result same.symm
    · exact earlier host port result before older

/-- What is asked is kept with its answer. -/
theorem ends_ask {Value : Type} {answer : List Exchange → Except Text Value}
    {exchange : Except Text Value → Exchange}
    {after : Value → List Exchange → Prop}
    {raises : Text → List Exchange → Prop}
    (returns : ∀ value, answer log = .ok value →
      after value (exchange (.ok value) :: log))
    (raised : ∀ error, answer log = .error error →
      raises error (exchange (.error error) :: log)) :
    Ends (ask answer exchange) after raises log := by
  refine ends_bind (ends_read (ends_bind (ends_perform (ends_lift ?_ ?_))))
  · intro value answered
    rw [answered]
    exact returns value answered
  · intro error answered
    rw [answered]
    exact raised error answered

/-- A connection that may be opened. -/
theorem ends_openConnection {host : Text} {port : Int}
    (opened : OpenedAs allowed log) (mayOpen : allowed host port log) :
    Ends (openConnection network host port)
      (fun _ later => OpenedAs allowed later)
      (fun _ later => OpenedAs allowed later ∧
        ∃ exchange ∈ later, exchange.Fails) log := by
  have kept : ∀ result, OpenedAs allowed (.opened host port result :: log) := by
    intro result
    refine openedAs_cons_iff.mpr ⟨opened, ?_⟩
    rintro _ _ _ ⟨⟩
    exact mayOpen
  exact ends_ask (fun _ _ => kept _)
    fun error _ => ⟨kept _, _, List.mem_cons_self, error, rfl⟩

theorem ends_send {bytes : List UInt8} (opened : OpenedAs allowed log) :
    Ends (send network bytes)
      (fun _ later => OpenedAs allowed later)
      (fun _ later => OpenedAs allowed later ∧
        ∃ exchange ∈ later, exchange.Fails) log :=
  ends_ask (fun _ _ => openedAs_cons_iff.mpr ⟨opened, nofun⟩)
    fun error _ => ⟨openedAs_cons_iff.mpr ⟨opened, nofun⟩, _,
      List.mem_cons_self, error, rfl⟩

theorem ends_receive {count : Nat} (opened : OpenedAs allowed log) :
    Ends (receive network count)
      (fun bytes later => OpenedAs allowed later ∧
        .received count (.ok bytes) ∈ later)
      (fun _ later => OpenedAs allowed later ∧
        ∃ exchange ∈ later, exchange.Fails) log :=
  ends_ask
    (fun _ _ => ⟨openedAs_cons_iff.mpr ⟨opened, nofun⟩, List.mem_cons_self⟩)
    fun _ _ => ⟨openedAs_cons_iff.mpr ⟨opened, nofun⟩, _, List.mem_cons_self,
      trivial⟩

end Rules

section Routes

variable {allowed : Text → Int → List Exchange → Prop} {log : List Exchange}
  {network : Network} {host : Text} {port : Int}

theorem ends_forwardDirect {selector : Text} (opened : OpenedAs allowed log)
    (mayOpen : allowed host port log) :
    Ends (forwardDirect network host port selector)
      (fun _ later => OpenedAs allowed later)
      (fun _ later => OpenedAs allowed later) log := by
  have dropped : ∀ {later : List Exchange}, OpenedAs allowed later ∧
      (∃ exchange ∈ later, exchange.Fails) → OpenedAs allowed later :=
    fun both => both.1
  refine ends_bind ((ends_openConnection opened mayOpen).mono
    (fun _ connected opened => ?_) fun _ _ => dropped)
  refine ends_bind ((ends_send opened).mono (fun _ sent opened => ?_)
    fun _ _ => dropped)
  exact (ends_receive opened).mono (fun _ _ both => both.1) fun _ _ => dropped

/-- The route through Tor opens one connection, and an exception comes from an
exchange that fails or from a long host name. -/
theorem ends_socksRoute {socksPort : Nat} {selector : Text}
    (opened : OpenedAs allowed log) (mayOpen : allowed localhost socksPort log) :
    Ends (socksRoute network socksPort host port selector)
      (fun _ later => OpenedAs allowed later)
      (fun _ later => OpenedAs allowed later ∧ later ≠ [] ∧
        ((∃ exchange ∈ later, exchange.Fails) ∨
          255 < (encodeUtf8 host).length)) log := by
  have failed : ∀ {later : List Exchange}, OpenedAs allowed later ∧
      (∃ exchange ∈ later, exchange.Fails) →
      OpenedAs allowed later ∧ later ≠ [] ∧
        ((∃ exchange ∈ later, exchange.Fails) ∨
          255 < (encodeUtf8 host).length) := by
    rintro later ⟨opened, exchange, member, fails⟩
    exact ⟨opened, List.ne_nil_of_mem member, .inl ⟨exchange, member, fails⟩⟩
  refine ends_bind ((ends_openConnection opened mayOpen).mono
    (fun _ connected opened => ?_) fun _ _ => failed)
  refine ends_bind ((ends_send opened).mono (fun _ greeted opened => ?_)
    fun _ _ => failed)
  refine ends_bind ((ends_receive opened).mono (fun greeting asked both => ?_)
    fun _ _ => failed)
  obtain ⟨opened, answered⟩ := both
  split
  next refused =>
    refine ends_lift nofun fun _ _ => failed ⟨opened, _, answered, ?_⟩
    exact .inl ⟨rfl, refused⟩
  dsimp only
  split
  next long =>
    exact ends_lift nofun fun _ _ =>
      ⟨opened, List.ne_nil_of_mem answered, .inr long⟩
  refine ends_bind ((ends_send opened).mono (fun _ connecting opened => ?_)
    fun _ _ => failed)
  refine ends_bind ((ends_receive opened).mono (fun answer told both => ?_)
    fun _ _ => failed)
  obtain ⟨opened, answered⟩ := both
  split
  next refused =>
    refine ends_lift nofun fun _ _ => failed ⟨opened, _, answered, ?_⟩
    exact .inr ⟨rfl, refused⟩
  refine ends_bind ((ends_send opened).mono (fun _ sent opened => ?_)
    fun _ _ => failed)
  exact (ends_receive opened).mono (fun _ _ both => both.1) fun _ _ => failed

/-- What `resolve_public_address` returns is the first of the addresses that
were resolved, and all of them are public. -/
theorem ends_resolvePublicAddress (opened : OpenedAs allowed log) :
    Ends (resolvePublicAddress network host port)
      (fun address later => OpenedAs allowed later ∧ ∃ addresses,
        .resolved (stripBrackets host) port (.ok addresses) ∈ later ∧
          addresses.head? = some address ∧
          ∀ other ∈ addresses, addressIsPublic other)
      (fun _ later => OpenedAs allowed later) log := by
  refine ends_bind (ends_ask (fun addresses _ => ?_)
    fun _ _ => openedAs_cons_iff.mpr ⟨opened, nofun⟩)
  have later : OpenedAs allowed
      (.resolved (stripBrackets host) port (.ok addresses) :: log) :=
    openedAs_cons_iff.mpr ⟨opened, nofun⟩
  cases addresses with
  | nil => exact ends_lift nofun fun _ _ => later
  | cons first rest =>
      cases blocked : (first :: rest).find? fun ip => !addressIsPublic ip with
      | some ip =>
          simp only [blocked]
          exact ends_lift nofun fun _ _ => later
      | none =>
          simp only [blocked]
          refine ends_pure ⟨later, first :: rest, List.mem_cons_self, rfl, ?_⟩
          intro other member
          simpa using List.find?_eq_none.mp blocked other member

end Routes

section Requests

variable {network : Network} {proxy : Proxy} {line : List UInt8} {host : Text}
  {port : Int} {selector : Text}

theorem ends_forwardViaTor {socksPort : Nat}
    (configured : proxy.socksPort = some socksPort)
    (asked : requested line = some (host, port, selector)) :
    Ends (forwardViaTor network socksPort host port selector)
      (fun _ later => OpenedAs (MayOpen proxy line) later)
      (fun _ later => OpenedAs (MayOpen proxy line) later) [] := by
  have first : MayOpen proxy line localhost socksPort [] := by
    rw [MayOpen, configured]
    exact .inl ⟨rfl, rfl, rfl⟩
  refine ends_handle ((ends_socksRoute openedAs_nil first).mono
    (fun _ _ opened => opened) ?_)
  rintro _ later ⟨opened, nonempty, failed⟩
  refine ends_forwardDirect opened ?_
  rw [MayOpen, configured]
  refine .inr ⟨nonempty, failed.imp_right fun long => ?_⟩
  exact ⟨host, port, selector, asked, long⟩

theorem ends_forwardRequest_tor {socksPort : Nat}
    (configured : proxy.socksPort = some socksPort)
    (asked : requested line = some (host, port, selector)) :
    Ends (forwardRequest network proxy host port selector)
      (fun _ later => OpenedAs (MayOpen proxy line) later)
      (fun _ later => OpenedAs (MayOpen proxy line) later) [] := by
  rw [forwardRequest, configured]
  exact ends_handle ((ends_forwardViaTor configured asked).mono
    (fun _ _ opened => opened) fun _ _ opened => ends_pure opened)

theorem ends_forwardRequest_direct {log : List Exchange}
    (unconfigured : proxy.socksPort = none)
    (opened : OpenedAs (MayOpen proxy line) log)
    (mayOpen : MayOpen proxy line host port log) :
    Ends (forwardRequest network proxy host port selector)
      (fun _ later => OpenedAs (MayOpen proxy line) later)
      (fun _ later => OpenedAs (MayOpen proxy line) later) log := by
  rw [forwardRequest, unconfigured]
  exact ends_handle ((ends_forwardDirect opened mayOpen).mono
    (fun _ _ opened => opened) fun _ _ opened => ends_pure opened)

end Requests

section Configuration

variable (network : Network) (scheme : Scheme) (timestamp : Nat)
  (proxy : Proxy) (line : List UInt8)

theorem ends_handleClient :
    Ends (handleClient network scheme timestamp proxy line)
      (fun _ later => OpenedAs (MayOpen proxy line) later)
      (fun _ later => OpenedAs (MayOpen proxy line) later) [] := by
  rw [handleClient]
  split
  · exact ends_pure openedAs_nil
  cases asked : parseRequest (strip (decodeUtf8 line)) with
  | none => exact ends_pure openedAs_nil
  | some request =>
      obtain ⟨host, port, selector⟩ := request
      dsimp only
      split
      · exact ends_pure openedAs_nil
      split
      · exact ends_pure openedAs_nil
      next admitted =>
        rw [not_not] at admitted
        refine ends_bind ?_
        rw [pin]
        cases configured : proxy.socksPort with
        | some socksPort =>
            refine ends_pure (ends_bind ?_)
            exact (ends_forwardRequest_tor configured asked).mono
              (fun _ _ opened => ends_pure opened) fun _ _ opened => opened
        | none =>
            refine ends_handle (ends_bind
              ((ends_resolvePublicAddress openedAs_nil).mono
                (fun address later both => ends_pure ?_)
                fun _ _ opened => ends_pure (ends_pure opened)))
            obtain ⟨opened, addresses, member, first, allPublic⟩ := both
            refine ends_bind ?_
            have mayOpen : MayOpen proxy line address port later := by
              rw [MayOpen, configured]
              exact ⟨host, selector, addresses, asked, admitted, member, first,
                allPublic⟩
            exact (ends_forwardRequest_direct configured opened mayOpen).mono
              (fun _ _ opened => ends_pure opened) fun _ _ opened => opened

/-- Whatever a client asks for and the network answers, the proxy opens a
connection only when its configuration allows it. -/
theorem opensAsConfigured :
    OpensAsConfigured proxy line
      (final (handleClient network scheme timestamp proxy line) []) := by
  have opened := (ends_handleClient network scheme timestamp proxy line).holds
  refine ⟨opened, ?_⟩
  rintro unconfigured ⟨host, port⟩ member
  obtain ⟨result, before, suffix⟩ := exists_suffix_of_mem_openings member
  exact isRemote_of_mayOpen unconfigured
    (opened host port result before suffix)

end Configuration

section Fallback

/-- With Tor, every connection is to its SOCKS port. -/
def OnlyThroughTor (proxy : Proxy) (log : List Exchange) : Prop :=
  ∀ socksPort ∈ proxy.socksPort, ∀ opening ∈ openings log,
    opening = (localhost, (socksPort : Int))

/-- A network where nothing answers. -/
def silentNetwork : Network where
  getaddrinfo _ _ _ := .error "Name or service not known".toList
  openConnection _ _ _ := .error "Connection refused".toList
  send _ _ := .error "Connection lost".toList
  receive _ _ := .error "Connection lost".toList

def torProxy : Proxy := ⟨some 9050, none⟩

/-- The SOCKS port refuses, and the requested host is connected to directly. -/
theorem not_onlyThroughTor :
    ¬ OnlyThroughTor torProxy
      (final (handleClient silentNetwork transparentScheme 0 torProxy
        (encodeUtf8 "10.0.0.1/status".toList)) []) := by
  have direct : ("10.0.0.1".toList, (7070 : Int)) ∈
      openings (final (handleClient silentNetwork transparentScheme 0 torProxy
        (encodeUtf8 "10.0.0.1/status".toList)) []) := by
    decide +kernel
  intro through
  have same := through 9050 rfl _ direct
  exact absurd same (by decide)

end Fallback

end ForwardProxy

end RefinetPillars
