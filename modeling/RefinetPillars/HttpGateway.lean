import RefinetPillars.GopherRoutes
import RefinetPillars.ResponseTrailer
import RefinetPillars.Utf8Text

/-!
# The HTTP gateway

A request target is mapped to a selector, and the signature of the answer
travels in headers.  What the parser of URLs thinks of an authority is a
parameter: a refused one only ends in an error.
-/

namespace RefinetPillars

namespace HttpGateway

open HexText LineText KeyRecovery ContentSigning Utf8Text RouteTable
  GopherRoutes
open ResponseTrailer hiding trailerFields

section Targets

/-- The parts of a URL that are used. -/
structure SplitUrl where
  path : Text
  query : Text
deriving DecidableEq

def isSchemeCharacter (character : Char) : Bool :=
  character.isAlphanum || character = '+' || character = '-' || character = '.'

/-- What follows a scheme, if there is one. -/
def withoutScheme (url : Text) : Text :=
  let front := beforeColon url
  if ':' ∈ url ∧ (front.head?.any Char.isAlpha) = true ∧
      front.all isSchemeCharacter = true then
    afterColon url
  else url

/-- Whether a character ends an authority. -/
def endsAuthority (character : Char) : Bool :=
  character = '/' || character = '?' || character = '#'

variable (netlocAccepted : Text → Bool)

/-- `urlsplit`; nothing if the authority is refused. -/
def urlsplit (url : Text) : Option SplitUrl :=
  let cleaned := (url.dropWhile fun character => character.toNat ≤ 32).filter
    fun character => character.toNat ∉ [9, 10, 13]
  let rest := withoutScheme cleaned
  let hasNetloc := "//".toList.isPrefixOf rest
  let netloc := (rest.drop 2).takeWhile fun character =>
    !endsAuthority character
  let located :=
    if hasNetloc then (rest.drop 2).dropWhile fun character =>
      !endsAuthority character
    else rest
  let unfragmented := located.takeWhile fun character => character ≠ '#'
  if hasNetloc = true ∧ netlocAccepted netloc = false then none
  else
    some
      { path := unfragmented.takeWhile fun character => character ≠ '?'
        query := (unfragmented.dropWhile fun character =>
          character ≠ '?').drop 1 }

/-- The byte of two hexadecimal digits. -/
def escapedByte (high low : Char) : Option UInt8 := do
  let high ← digitValue high
  let low ← digitValue low
  return UInt8.ofNat (16 * high + low)

/-- `unquote_to_bytes` of an ASCII text. -/
def unquoteToBytes : Text → List UInt8
  | [] => []
  | '%' :: high :: low :: rest =>
      match escapedByte high low with
      | some byte => byte :: unquoteToBytes rest
      | none => 37 :: unquoteToBytes (high :: low :: rest)
  | character :: rest => UInt8.ofNat character.toNat :: unquoteToBytes rest

/-- Stretches of ASCII are decoded, other characters stay. -/
def unquoteFrom (ascii : Text) : Text → Text
  | [] => decodeUtf8 (unquoteToBytes ascii)
  | character :: rest =>
      if character.toNat < 128 then unquoteFrom (ascii ++ [character]) rest
      else decodeUtf8 (unquoteToBytes ascii) ++ character :: unquoteFrom [] rest

def unquote (text : Text) : Text := unquoteFrom [] text

def maxSelectorChars : Nat := 2048

inductive BadTarget where
  | url
  | selector
deriving DecidableEq

/-- `selector_from_path`; nothing if the path is not below `/g`. -/
def selectorFromPath (target : Text) : Except BadTarget (Option Text) :=
  match urlsplit netlocAccepted target with
  | none => .error .url
  | some parts =>
      if parts.path ≠ "/g".toList ∧ ¬ "/g/".toList <+: parts.path then .ok none
      else
        let asked :=
          if parts.query = [] then [] else '?' :: unquote parts.query
        let selector := unquote (parts.path.drop 2) ++ asked
        let selector := if selector = ['/'] then [] else selector
        if (selector.any fun character => character.toNat ∈ [9, 10, 13]) = true ∨
            maxSelectorChars < selector.length then .error .selector
        else .ok (some selector)

/-- The gate of the gateway has no tab: a selector here has none. -/
def gatewayGate : Gate Char := ⟨privateRoutes, ['/', '?']⟩

/-- How a request is answered; an answer of a selector is the only signed
one. -/
inductive Reply where
  | internalError
  | noContent
  | methodNotAllowed
  | rateLimited
  | health
  | wellKnown
  | badSelector
  | notFound (message : String)
  | answer (selector : Text)
deriving DecidableEq

def downloadRoute : Text := "/download/".toList

/-- `_dispatch`. -/
def dispatch (method target : Text) (isAllowed : Bool) : Reply :=
  match urlsplit netlocAccepted target with
  | none => .internalError
  | some parts =>
      if method = "OPTIONS".toList then .noContent
      else if method ≠ "GET".toList ∧ method ≠ "HEAD".toList then
        .methodNotAllowed
      else if isAllowed = false then .rateLimited
      else if parts.path = "/health".toList then .health
      else if parts.path = "/.well-known/refinet.json".toList then .wellKnown
      else
        match selectorFromPath netlocAccepted target with
        | .error _ => .badSelector
        | .ok none =>
            .notFound "Not found. Gopher selectors are served under /g/\n"
        | .ok (some selector) =>
            if downloadRoute <+: selector ∧ selector.getLast? ≠ some '/' then
              .notFound "Downloads are served over Gopher\n"
            else if gatewayGate.Refuses selector then .notFound "Not found\n"
            else .answer selector

example : dispatch (fun _ => true) "GET".toList "/g/search?q=%41b#x".toList
    true = .answer "/search?q=Ab".toList := by
  decide +kernel

end Targets

section Headers

/-- The header of each field. -/
def signatureHeaders : List (Text × Text) :=
  [("pid".toList, "X-Refinet-Pid".toList),
    ("pubkey".toList, "X-Refinet-Pubkey".toList),
    ("sig".toList, "X-Refinet-Sig".toList),
    ("hash".toList, "X-Refinet-Hash".toList),
    ("v".toList, "X-Refinet-V".toList),
    ("selector".toList, "X-Refinet-Selector".toList),
    ("time".toList, "X-Refinet-Time".toList),
    ("sig1".toList, "X-Refinet-Sig1".toList)]

def isLatin1 (text : Text) : Bool :=
  text.all fun character => character.toNat < 256

/-- What `quote` leaves as it is. -/
def isQuoteSafe (character : Char) : Bool :=
  character.isAlphanum || character ∈ "_.-~!#$&'()*+,/:;=?@[]".toList

def quoteByte (byte : UInt8) : Text :=
  let character := Char.ofNat byte.toNat
  if byte.toNat < 128 ∧ isQuoteSafe character = true then [character]
  else '%' :: (byteText byte).map Char.toUpper

def quote (text : Text) : Text := (encodeUtf8 text).flatMap quoteByte

/-- A value that can stand in a header. -/
def headerSafe (value : Text) : Text :=
  if isLatin1 value then value else quote value

/-- The lines of a trailer that have a key. -/
def collectLines (lines : List Text) : List (Text × Text) :=
  lines.filterMap fun line =>
    if ':' ∈ line ∧ ¬ "---".toList <+: line then
      some (strip (beforeColon line), strip (afterColon line))
    else none

def trailerFields (sigBlock : Text) : List (Text × Text) :=
  collectLines (splitLines sigBlock)

/-- The headers of an answer. -/
def answerHeaders (sigBlock : Text) : List (Text × Text) :=
  signatureHeaders.filterMap fun header =>
    (get header.1 (trailerFields sigBlock)).map fun value =>
      (header.2, headerSafe value)

end Headers

end HttpGateway

end RefinetPillars
