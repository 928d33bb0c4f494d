import RefinetPillars.ContentSigning
import RefinetPillars.CrashableActions
import RefinetPillars.DecimalText
import RefinetPillars.IpAddress
import RefinetPillars.Utf8Text

/-!
# The forward proxy

A client names a host, a port and a selector, and the proxy forwards the
selector, through the SOCKS port of Tor or directly.  What is asked of the
network is kept, newest first, with what came of it; the network may answer
anything at any time.
-/

namespace RefinetPillars

namespace ForwardProxy

open HexText LineText DecimalText Utf8Text KeyRecovery ContentSigning IpAddress
open CrashableActions Action

section Network

/-- What was asked of the network, and its answer. -/
inductive Exchange where
  | resolved (host : Text) (port : Int) (addresses : Except Text (List Text))
  | opened (host : Text) (port : Int) (result : Except Text Unit)
  | sent (bytes : List UInt8) (result : Except Text Unit)
  | received (count : Nat) (bytes : Except Text (List UInt8))

/-- The answers of the network, after what was asked before.  A timeout is an
exception, and a connection that is closed gives fewer bytes. -/
structure Network where
  getaddrinfo : List Exchange → Text → Int → Except Text (List Text)
  openConnection : List Exchange → Text → Int → Except Text Unit
  send : List Exchange → List UInt8 → Except Text Unit
  receive : List Exchange → Nat → Except Text (List UInt8)

abbrev Routine (Value : Type) : Type := Action (List Exchange) Text Value

def ask {Value : Type} (answer : List Exchange → Except Text Value)
    (exchange : Except Text Value → Exchange) : Routine Value := do
  let log ← read
  perform fun log => exchange (answer log) :: log
  lift (answer log)

def raise {Value : Type} (error : Text) : Routine Value := lift (.error error)

variable (network : Network)

def getaddrinfo (host : Text) (port : Int) : Routine (List Text) :=
  ask (network.getaddrinfo · host port) (.resolved host port)

def openConnection (host : Text) (port : Int) : Routine Unit :=
  ask (network.openConnection · host port) (.opened host port)

/-- `writer.write` and `writer.drain`. -/
def send (bytes : List UInt8) : Routine Unit :=
  ask (network.send · bytes) (.sent bytes)

/-- `reader.read`. -/
def receive (count : Nat) : Routine (List UInt8) :=
  ask (network.receive · count) (.received count)

end Network

section Destinations

/-- `address_is_public`. -/
def addressIsPublic (ip : Text) : Bool :=
  match ipAddress ip with
  | none => false
  | some parsed =>
      let address := parsed.unmapped
      !(address.isPrivate || address.isLoopback || address.isLinkLocal ||
        address.isReserved || address.isMulticast || address.isUnspecified)

/-- `host.strip("[]")`. -/
def stripBrackets (host : Text) : Text :=
  let isBracket := fun character => character = '[' || character = ']'
  ((host.dropWhile isBracket).reverse.dropWhile isBracket).reverse

/-- `resolve_public_address`. -/
def resolvePublicAddress (network : Network) (host : Text) (port : Int) :
    Routine Text := do
  let addresses ← getaddrinfo network (stripBrackets host) port
  match addresses with
  | [] => raise (host ++ " did not resolve".toList)
  | first :: rest =>
      match (first :: rest).find? fun ip => !addressIsPublic ip with
      | some ip => raise (host ++ " resolves to ".toList ++ ip)
      | none => pure first

def allowedPorts : List Int := [70, 7070, 105]

/-- `_parse_request`: host, port and selector. -/
def parseRequest (request : Text) : Option (Text × Int × Text) :=
  let hostPart := request.takeWhile (· ≠ '/')
  let selector := request.dropWhile (· ≠ '/')
  if ':' ∈ hostPart then
    let backwards := hostPart.reverse
    let host := ((backwards.dropWhile (· ≠ ':')).drop 1).reverse
    (int (backwards.takeWhile (· ≠ ':')).reverse).map fun port =>
      (strip host, port, selector)
  else some (strip hostPart, 7070, selector)

end Destinations

section Forwarding

/-- How the proxy is configured: the SOCKS port of Tor, and the identity that
signs tokens. -/
structure Proxy where
  torSocksPort : Option Nat
  identity : Option (Text × List UInt8)

/-- The SOCKS port, unless it is none or zero. -/
def Proxy.socksPort (proxy : Proxy) : Option Nat :=
  proxy.torSocksPort.filter (· ≠ 0)

def localhost : Text := "127.0.0.1".toList

def errorReply (message : Text) : List UInt8 :=
  encodeUtf8 ('3' :: message ++ "\tfake\t(NULL)\t0\r\n.\r\n".toList)

variable (network : Network)

/-- `_forward_direct`. -/
def forwardDirect (host : Text) (port : Int) (selector : Text) :
    Routine (List UInt8) := do
  openConnection network host port
  send network (encodeUtf8 (selector ++ crlf))
  receive network 65536

/-- What `_forward_via_tor` tries first. -/
def socksRoute (socksPort : Nat) (host : Text) (port : Int) (selector : Text) :
    Routine (List UInt8) := do
  openConnection network localhost socksPort
  send network [5, 1, 0]
  let greeting ← receive network 2
  if greeting ≠ [5, 0] then raise "SOCKS5 handshake failed".toList
  else
    let hostBytes := encodeUtf8 host
    if 255 < hostBytes.length then
      raise "bytes must be in range(0, 256)".toList
    else
      send network ([5, 1, 0, 3, .ofNat hostBytes.length] ++ hostBytes ++
        bigEndian 2 port.toNat)
      let answer ← receive network 10
      if answer.length < 2 ∨ answer[1]? ≠ some 0 then
        raise "SOCKS5 connect failed".toList
      else
        send network (encodeUtf8 (selector ++ crlf))
        receive network 65536

/-- `_forward_via_tor`. -/
def forwardViaTor (socksPort : Nat) (host : Text) (port : Int)
    (selector : Text) : Routine (List UInt8) :=
  handle (socksRoute network socksPort host port selector) fun _ =>
    forwardDirect network host port selector

/-- `_forward_request`. -/
def forwardRequest (proxy : Proxy) (host : Text) (port : Int)
    (selector : Text) : Routine (List UInt8) :=
  handle
    (match proxy.socksPort with
      | some socksPort => forwardViaTor network socksPort host port selector
      | none => forwardDirect network host port selector)
    fun error => pure (errorReply ("Proxy error: ".toList ++ error))

/-- The token that is put after a response. -/
def tokenHeader (scheme : Scheme) (proxy : Proxy) (timestamp : Nat)
    (selector : Text) : List UInt8 :=
  match proxy.identity with
  | none => []
  | some (pid, privateKey) =>
      let tokenData := pid ++ ':' :: numeral timestamp ++ ':' :: selector
      let tokenSig := signContent scheme (encodeUtf8 tokenData) privateKey
      let tokenSig1 := signDomain scheme domainProxyToken privateKey
        [pid, numeral timestamp, selector]
      encodeUtf8 ("\r\n---BEGIN REFINET PROXY TOKEN---\r\npid:".toList ++ pid ++
        "\r\ntimestamp:".toList ++ numeral timestamp ++
        "\r\nsignature:".toList ++ tokenSig ++
        "\r\nv:1\r\nselector:".toList ++ selector ++
        "\r\nsig1:".toList ++ tokenSig1 ++
        "\r\n---END REFINET PROXY TOKEN---\r\n".toList)

/-- Where a request is forwarded to; a destination that may not be visited is
blocked.  Tor resolves names itself. -/
def pin (proxy : Proxy) (host : Text) (port : Int) : Routine (Option Text) :=
  match proxy.socksPort with
  | some _ => pure (some host)
  | none =>
      handle (do
          let address ← resolvePublicAddress network host port
          pure (some address))
        fun _ => pure none

/-- `_handle_client`, of a request line; it ends with what is written to the
client. -/
def handleClient (scheme : Scheme) (timestamp : Nat) (proxy : Proxy)
    (line : List UInt8) : Routine (List UInt8) :=
  let request := strip (decodeUtf8 line)
  if request = [] then pure (errorReply "Error: empty request".toList)
  else
    match parseRequest request with
    | none => pure (errorReply "Error: invalid request format".toList)
    | some (targetHost, targetPort, selector) =>
        if targetHost = [] then
          pure (errorReply "Error: invalid request format".toList)
        else if targetPort ∉ allowedPorts then
          pure (errorReply "Error: port not allowed".toList)
        else do
          let pinned ← pin network proxy targetHost targetPort
          match pinned with
          | none => pure (errorReply "Error: blocked destination".toList)
          | some pinned =>
              let response ←
                forwardRequest network proxy pinned targetPort selector
              pure (response ++ tokenHeader scheme proxy timestamp selector)

end Forwarding

end ForwardProxy

end RefinetPillars
