import RefinetPillars.JsonRoundTrip
import RefinetPillars.OrderedExchange
import RefinetPillars.RunHistory

/-!
# Requests of the browser extension

One connection between the background worker of the extension and the WebSocket
bridge.  The worker keeps a table of pending requests, the bridge answers the
messages of the connection one by one, and the answers carry no number.  The
model writes beside every text on its way which request it belongs to; neither
side reads it.
-/

namespace RefinetPillars

namespace ExtensionRequests

open HexText JsonText

section Bridge

variable (floatRepr : Text → Text)

/-- A dictionary that `json.dumps` prints and every reader reads back. -/
structure Response where
  fields : List (Text × Json)
  printable : Printable floatRepr (.obj fields)

variable {floatRepr} in
def Response.json (response : Response floatRepr) : Json := .obj response.fields

def errorResponse (error : Text) : Response floatRepr where
  fields := [("status".toList, .str "error".toList),
    ("error".toList, .str error)]
  printable := by
    refine .obj ?_ ?_
    · simp only [List.map_cons, List.map_nil]
      decide
    · simp only [List.forall_mem_cons]
      exact ⟨.str _, .str _, nofun⟩

/-- What the handlers of the bridge do at one moment: they return, or raise an
exception with a text. -/
structure Handlers where
  isOnboarding : Bool
  identity : Except Text (Response floatRepr)
  authChallenge : Json → Except Text (Response floatRepr)
  authVerify : Json → Except Text (Response floatRepr)
  browseRemote : Json → Except Text (Response floatRepr)
  onboardingConnect : Json → Except Text (Response floatRepr)
  onboardingSignature : Json → Except Text (Response floatRepr)
  rebind : Json → Except Text (Response floatRepr)
  isSession : Json → Except Text Bool
  route : Json → Except Text Text
  signResponse : Json → Text → Except Text (Response floatRepr)

def onboardingError : Text :=
  ("Pillar is in onboarding mode. " ++
    "Use onboarding_connect to complete setup.").toList

/-- What Python calls the type of a value. -/
def typeName : Json → Text
  | .null => "NoneType".toList
  | .bool _ => "bool".toList
  | .int _ => "int".toList
  | .float _ => "float".toList
  | .str _ => "str".toList
  | .arr _ => "list".toList
  | .obj _ => "dict".toList

variable {floatRepr}

/-- A message that names a selector. -/
def routeMessage (handlers : Handlers floatRepr) (request : Json) :
    Except Text (Response floatRepr) :=
  if handlers.isOnboarding then
    .ok (errorResponse floatRepr onboardingError)
  else do
    let selector := (request.get "selector".toList).getD (.str [])
    let sessionId := (request.get "session_id".toList).getD .null
    let isAdmitted ← if sessionId.isFalsy then .ok true
      else handlers.isSession sessionId
    if !isAdmitted then
      .ok (errorResponse floatRepr "Invalid or expired session".toList)
    else match handlers.route selector with
      | .error error =>
          .ok (errorResponse floatRepr ("Route error: ".toList ++ error))
      | .ok responseText => handlers.signResponse selector responseText

/-- The handler of a type of message; anything else names a selector. -/
def dispatch (handlers : Handlers floatRepr) (request : Json) :
    Except Text (Response floatRepr) :=
  match request.get "type".toList with
  | some (.str messageType) =>
      if messageType = "identity".toList then handlers.identity
      else if messageType = "auth_challenge".toList then
        handlers.authChallenge request
      else if messageType = "auth_verify".toList then
        handlers.authVerify request
      else if messageType = "browse_remote".toList then
        handlers.browseRemote request
      else if messageType = "onboarding_connect".toList then
        handlers.onboardingConnect request
      else if messageType = "onboarding_signature".toList then
        handlers.onboardingSignature request
      else if messageType = "rebind".toList then handlers.rebind request
      else routeMessage handlers request
  | _ => routeMessage handlers request

/-- `_handle_message`. -/
def handleMessage (handlers : Handlers floatRepr) (rawMessage : Text) :
    Except Text (Response floatRepr) :=
  match loads floatRepr rawMessage with
  | none => .ok (errorResponse floatRepr "Invalid JSON".toList)
  | some (.obj fields) => dispatch handlers (.obj fields)
  | some request => .error
      ("'".toList ++ typeName request ++
        "' object has no attribute 'get'".toList)

/-- What `_handle_connection` answers a message with: an exception is an answer
too. -/
def answerTo (handlers : Handlers floatRepr) (message : Text) :
    Response floatRepr :=
  match handleMessage handlers message with
  | .ok response => response
  | .error error => errorResponse floatRepr error

end Bridge

section Worker

/-- An entry of `pendingRequests`. -/
structure Pending where
  id : Nat
  expectedType : Option Text
deriving DecidableEq

/-- `pending.expectedType === type || !pending.expectedType`. -/
def Pending.takes (pending : Pending) (type : Json) : Bool :=
  match pending.expectedType, type with
  | none, _ => true
  | some [], _ => true
  | some expectedType, .str type => expectedType = type
  | some _, _ => false

/-- Whether JavaScript takes a value for true. -/
def isTruthy : Json → Bool
  | .arr _ => true
  | .obj _ => true
  | value => !value.isFalsy

/-- The type that an answer is matched by, if it has one. -/
def matchedType (data : Json) : Option Json :=
  (data.get "type".toList).filter isTruthy

/-- The request that an answer is taken for: by its type, else first in first
out. -/
def answeredRequest (pendingRequests : List Pending) (data : Json) :
    Option Pending :=
  ((matchedType data).bind fun type => pendingRequests.find? (·.takes type)) <|>
    pendingRequests.head?

/-- What a promise came to.  Beside an answer stands the request it was given
for. -/
inductive Settlement where
  | resolved (id : Nat) (answerOf : Nat) (data : Json)
  | rejected (id : Option Nat) (error : Text)

/-- A text on its way, and the request it belongs to. -/
structure Envelope where
  request : Nat
  text : Text

structure Connection where
  isOpen : Bool
  requestId : Nat
  pendingRequests : List Pending
  toBridge : List Envelope
  toExtension : List Envelope
  settled : List Settlement

/-- A connection as it opens; the counter runs on from earlier ones. -/
def opened (requestId : Nat) : Connection := ⟨true, requestId, [], [], [], []⟩

inductive Event (floatRepr : Text → Text) where
  | sendTypedMessage (message : Json) (expectedType : Option Text)
  | handleMessage (handlers : Handlers floatRepr)
  | onmessage
  | timeout (id : Nat)
  | onclose

/-- `sendRequest`, with the session that is attached. -/
def sendRequest {floatRepr : Text → Text} (selector : Text)
    (session : Option Text) : Event floatRepr :=
  .sendTypedMessage (.obj (("selector".toList, .str selector) ::
    (session.toList.filter (· ≠ [])).map fun id =>
      ("session_id".toList, .str id))) none

/-- How `JSON.stringify` prints. -/
def stringifyLayout : Layout :=
  { itemSeparator := [','], keySeparator := [':'], ensureAscii := false }

/-- `pendingRequests.delete`. -/
def delete (pendingRequests : List Pending) (id : Nat) : List Pending :=
  pendingRequests.filter (·.id ≠ id)

variable (floatRepr : Text → Text)

/-- The data of an answer; a text that is no document raises an exception, and
so does reading the type of `null`. -/
def readAnswer (text : Text) : Option Json :=
  match loads floatRepr text with
  | some .null => none
  | data => data

def sendTypedMessage (connection : Connection) (message : Json)
    (expectedType : Option Text) : Connection :=
  if connection.isOpen then
    let id := connection.requestId + 1
    { connection with
      requestId := id
      pendingRequests := connection.pendingRequests ++ [⟨id, expectedType⟩]
      toBridge := connection.toBridge ++
        [⟨id, dumps stringifyLayout 0 message⟩] }
  else
    { connection with
      settled := connection.settled ++
        [.rejected none "Not connected to Pillar".toList] }

variable {floatRepr} in
/-- The bridge answers the oldest message. -/
def serve (connection : Connection) (handlers : Handlers floatRepr) :
    Connection :=
  match connection.toBridge with
  | [] => connection
  | message :: messages =>
      { connection with
        toBridge := messages
        toExtension := connection.toExtension ++
          [⟨message.request, dumps {} 0 (answerTo handlers message.text).json⟩] }

/-- `ws.onmessage`, once the answer is off its way. -/
def onmessage (connection : Connection) (answer : Envelope) : Connection :=
  match readAnswer floatRepr answer.text with
  | none => connection
  | some data =>
      match answeredRequest connection.pendingRequests data with
      | none => connection
      | some pending =>
          { connection with
            pendingRequests := delete connection.pendingRequests pending.id
            settled := connection.settled ++
              [.resolved pending.id answer.request data] }

def receive (connection : Connection) : Connection :=
  match connection.toExtension with
  | [] => connection
  | answer :: answers =>
      onmessage floatRepr { connection with toExtension := answers } answer

/-- Thirty seconds after a request. -/
def timeout (connection : Connection) (id : Nat) : Connection :=
  if connection.pendingRequests.any (·.id = id) then
    { connection with
      pendingRequests := delete connection.pendingRequests id
      settled := connection.settled ++
        [.rejected (some id) "Request timeout".toList] }
  else connection

/-- `ws.onclose`; what is on its way is lost. -/
def onclose (connection : Connection) : Connection :=
  { connection with
    isOpen := false
    pendingRequests := []
    toBridge := []
    toExtension := []
    settled := connection.settled ++ connection.pendingRequests.map fun pending =>
      .rejected (some pending.id) "Connection lost".toList }

def step (event : Event floatRepr) (connection : Connection) : Connection :=
  match event with
  | .sendTypedMessage message expectedType =>
      sendTypedMessage connection message expectedType
  | .handleMessage handlers => serve connection handlers
  | .onmessage => receive floatRepr connection
  | .timeout id => timeout connection id
  | .onclose => onclose connection

end Worker

end ExtensionRequests

end RefinetPillars
