import RefinetPillars.HttpGateway
import RefinetPillars.OrderedDict
import RefinetPillars.SignedJson

/-!
# Requests to the gateway

The head of a request is split into lines and its headers are read, before the
gateway decides which address the request is counted against.  The characters
of a head are those of Latin-1.
-/

namespace RefinetPillars

namespace HttpGateway

open HexText LineText OrderedDict
open SignedJson (rstrip)

section Heads

def maxHeadBytes : Nat := 16 * 1024

def decodeLatin1 (bytes : List UInt8) : Text :=
  bytes.map fun byte => Char.ofNat byte.toNat

/-- `split("\r\n")`. -/
def splitCrlf : Text → List Text
  | '\r' :: '\n' :: rest => [] :: splitCrlf rest
  | character :: rest => (splitCrlf rest).modifyHead (character :: ·)
  | [] => [[]]

/-- `str.lower` in Latin-1, where only a multiplication sign stands among the
letters. -/
def lowerLatin1 (character : Char) : Char :=
  let code := character.toNat
  if (65 ≤ code ∧ code ≤ 90) ∨ (192 ≤ code ∧ code ≤ 222 ∧ code ≠ 215) then
    Char.ofNat (code + 32)
  else character

/-- `str.upper` in Latin-1, of which it leaves three letters. -/
def upperLatin1 (character : Char) : Text :=
  let code := character.toNat
  if (97 ≤ code ∧ code ≤ 122) ∨ (224 ≤ code ∧ code ≤ 254 ∧ code ≠ 247) then
    [Char.ofNat (code - 32)]
  else if code = 223 then ['S', 'S']
  else if code = 255 then [Char.ofNat 376]
  else if code = 181 then [Char.ofNat 924]
  else [character]

/-- The name and the value of a header line. -/
def headerOf (line : Text) : Option (Text × Text) :=
  if ':' ∈ line ∧ beforeColon line = rstrip (beforeColon line) then
    some ((strip (beforeColon line)).map lowerLatin1, strip (afterColon line))
  else none

/-- A later line replaces an earlier one of the same name. -/
def headersFrom (headers : Dict Text Text) : List Text → Dict Text Text
  | [] => headers
  | line :: lines =>
      match headerOf line with
      | some (name, value) => headersFrom (headers.set name value) lines
      | none => headersFrom headers lines

def headersOf (lines : List Text) : Dict Text Text :=
  headersFrom .empty lines

/-- `split(" ", 2)` of a request line, if it has three parts. -/
def requestParts (line : Text) : Option (Text × Text) := do
  let (method, rest) ← cutAt [' '] line
  let (target, _) ← cutAt [' '] rest
  return (method, target)

/-- What is asked, in capitals, of which target, with which headers. -/
structure Request where
  method : Text
  target : Text
  headers : Dict Text Text

/-- The first part of `handle`. -/
def parseHead (head : List UInt8) : Option Request :=
  if maxHeadBytes < head.length then none
  else
    match splitCrlf (decodeLatin1 head) with
    | [] => none
    | first :: lines =>
        (requestParts first).map fun parts =>
          ⟨parts.1.flatMap upperLatin1, parts.2, headersOf lines⟩

end Heads

section Clients

def forwardedFor : Text := "x-forwarded-for".toList

/-- `split(",")[-1]`. -/
def lastElement (value : Text) : Text :=
  (value.splitOn ',').getLastD []

/-- `_client_ip`. -/
def clientIp (trustProxy : Bool) (peer : Option Text)
    (headers : Dict Text Text) : Text :=
  match trustProxy, headers.get? forwardedFor with
  | true, some (character :: value) => strip (lastElement (character :: value))
  | _, _ => peer.getD "unknown".toList

/-- The key that `_dispatch` passes to the rate limiter, if it comes to it. -/
def limiterKey (netlocAccepted : Text → Bool) (trustProxy : Bool)
    (peer : Option Text) (head : List UInt8) : Option Text := do
  let request ← parseHead head
  if dispatch netlocAccepted request.method request.target false =
      .rateLimited then
    some (clientIp trustProxy peer request.headers)
  else none

end Clients

end HttpGateway

end RefinetPillars
