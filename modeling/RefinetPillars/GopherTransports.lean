import RefinetPillars.HttpGateway
import RefinetPillars.JsonText

/-!
# Private routes on a public Pillar

Selectors come from the Gopher listener, from the HTTP gateway and from the
WebSocket bridge.  However they come, a public Pillar runs no handler of a
private route.
-/

namespace RefinetPillars

namespace GopherTransports

open HexText LineText Utf8Text JsonText RouteTable GopherRoutes

/-- What comes in. -/
inductive Request where
  | gopher (line : List UInt8)
  | http (method target : Text) (isAllowed : Bool)
  | webSocket (message : Text)

/-- What is done with it: a selector is routed, a file is sent as it is, or
neither. -/
inductive Reply where
  | routed (selector : Text) (answer : Answer)
  | binary (selector : Text)
  | unrouted
deriving DecidableEq

def binaryExtensions : List Text :=
  [".tar.gz".toList, ".zip".toList, ".gz".toList, ".bz2".toList, ".xz".toList]

/-- `handle_client`, of a client that is not rate limited. -/
def handleClient (server : Server) (line : List UInt8) : Reply :=
  let selector := ResponseTrailer.clientSelector (decodeUtf8 line)
  if HttpGateway.downloadRoute <+: selector ∧
      ∃ extension ∈ binaryExtensions, extension <:+ selector then
    .binary selector
  else .routed selector (route server selector)

/-- The types of messages that are not routed. -/
def messageTypes : List Text :=
  ["identity".toList, "auth_challenge".toList, "auth_verify".toList,
    "browse_remote".toList, "onboarding_connect".toList,
    "onboarding_signature".toList, "rebind".toList]

section Bridges

variable (netlocAccepted : Text → Bool) (floatRepr : Text → Text)
  (isSession : Json → Bool)

def handleRequest (server : Server) (method target : Text) (isAllowed : Bool) :
    Reply :=
  match HttpGateway.dispatch netlocAccepted method target isAllowed with
  | .answer selector => .routed selector (route server selector)
  | _ => .unrouted

/-- Whether a message has a handler of its own. -/
def isTyped (request : Json) : Bool :=
  match request.get "type".toList with
  | some (.str messageType) => decide (messageType ∈ messageTypes)
  | _ => false

/-- Whether a message names a session that is not valid. -/
def isSessionRefused (request : Json) : Bool :=
  match request.get "session_id".toList with
  | some session => !session.isFalsy && !isSession session
  | none => false

/-- `_handle_message` of a Pillar that is not in onboarding mode; a selector
that is no text raises an exception. -/
def handleMessage (server : Server) (message : Text) : Reply :=
  match loads floatRepr message with
  | some (.obj fields) =>
      if isTyped (.obj fields) ∨ isSessionRefused isSession (.obj fields) then
        .unrouted
      else
        match (Json.obj fields).get "selector".toList with
        | none => .routed [] (route server [])
        | some (.str selector) => .routed selector (route server selector)
        | some _ => .unrouted
  | _ => .unrouted

def serve (server : Server) : Request → Reply
  | .gopher line => handleClient server line
  | .http method target isAllowed =>
      handleRequest netlocAccepted server method target isAllowed
  | .webSocket message => handleMessage floatRepr isSession server message

end Bridges

section Private

variable {netlocAccepted : Text → Bool} {floatRepr : Text → Text}
  {isSession : Json → Bool} {server : Server} {selector : Text}

/-- However a selector comes, it is routed in one way. -/
theorem eq_route_of_serve {request : Request} {answer : Answer}
    (served : serve netlocAccepted floatRepr isSession server request =
      .routed selector answer) : answer = route server selector := by
  cases request with
  | gopher line =>
      rw [serve, handleClient] at served
      split at served
      · cases served
      · obtain ⟨rfl, rfl⟩ := Reply.routed.inj served
        rfl
  | http method target isAllowed =>
      rw [serve, handleRequest] at served
      split at served
      · obtain ⟨rfl, rfl⟩ := Reply.routed.inj served
        rfl
      · cases served
  | webSocket message =>
      rw [serve, handleMessage] at served
      split at served
      · split at served
        · cases served
        · split at served
          · obtain ⟨rfl, rfl⟩ := Reply.routed.inj served
            rfl
          · obtain ⟨rfl, rfl⟩ := Reply.routed.inj served
            rfl
          · cases served
      · cases served

/-- No branch takes what starts like a private route and passes the gate. -/
theorem firstMatch_private {privateRoute : Text}
    (isPrivate : privateRoute ∈ privateRoutes)
    (starts : privateRoute <+: selector)
    (passed : ¬ privateGate.Refuses selector) :
    firstMatch branches selector = none := by
  have checked : ∀ entry ∈ branches, entry.1.Covered privateGate ∨
      ∀ privateRoute ∈ privateRoutes, entry.1.Apart privateRoute := by
    decide +kernel
  cases found : firstMatch branches selector with
  | none => rfl
  | some branch =>
      obtain ⟨pattern, member, matched⟩ := exists_entry found
      rcases checked _ member with covered | apart
      · exact absurd (covered.refuses matched) passed
      · exact absurd matched
          ((apart privateRoute isPrivate).not_matches starts)

/-- On a public Pillar no handler of a private route runs, and what starts like
one is refused or looked for among the files. -/
structure PrivateUnreachable (netlocAccepted : Text → Bool)
    (floatRepr : Text → Text) (isSession : Json → Bool) (server : Server) :
    Prop where
  unreached : ∀ request selector handler,
    serve netlocAccepted floatRepr isSession server request =
      .routed selector (.ran handler) →
    ∀ privateRoute ∈ privateRoutes, ¬ handler.Belongs privateRoute
  answered : ∀ selector, ∀ privateRoute ∈ privateRoutes,
    privateRoute <+: selector →
    (∃ message, route server selector = .refused message) ∨
      route server selector = .static selector

theorem privateUnreachable (netlocAccepted : Text → Bool)
    (floatRepr : Text → Text) (isSession : Json → Bool) (isRefinet : Bool)
    (hasGophermap : Text → Bool) :
    PrivateUnreachable netlocAccepted floatRepr isSession
      ⟨true, isRefinet, hasGophermap⟩ := by
  constructor
  · intro request selector handler served privateRoute isPrivate belongs
    have answered := eq_route_of_serve served
    obtain ⟨notPrivate, -, runs⟩ := route_eq_ran answered.symm
    exact not_run_of_covered covered_private runs
      (fun refused => notPrivate ⟨rfl, refused⟩)
      ⟨privateRoute, isPrivate, belongs⟩
  · intro selector privateRoute isPrivate starts
    rw [route]
    split
    · exact .inl ⟨_, rfl⟩
    next passed =>
      split
      · exact .inl ⟨_, rfl⟩
      · have missed := firstMatch_private isPrivate starts
          (fun refused => passed ⟨rfl, refused⟩)
        rw [dispatch, missed]
        exact .inr rfl

end Private

end GopherTransports

end RefinetPillars
