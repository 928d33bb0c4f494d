import RefinetPillars.ClientTargets
import RefinetPillars.TransportAgreement
import RefinetPillars.WellKnownSdk

/-!
# The client of a gateway

The package for applications writes a selector into an address, lets the engine
fetch it, and accepts an answer that verifies and was signed for what it asked.
An honest gateway is asked for what was meant, and its answer is accepted, when
the selector goes through the address, the decoding and the headers unchanged.
-/

namespace RefinetPillars

namespace PillarClient

open HexText LineText DecimalText KeyRecovery ContentSigning Utf8Text
open ResponseTrailer hiding trailerFields
open HttpGateway hiding Reply
open UrlStandard (Origin parse)
open TransportAgreement (Serving)
open ClientTargets

section Client

/-- What `fetch` resolves with. -/
structure Response where
  status : Nat
  headers : List (Text × Text)
  body : List UInt8
deriving DecidableEq

/-- `res.text()`, which leaves out a mark of the byte order. -/
def responseText (bytes : List UInt8) : Text :=
  decodeUtf8 (if [239, 187, 191] <+: bytes then bytes.drop 3 else bytes)

/-- Without the line of a dot at the end and its line ends. -/
def withoutTerminator (body : Text) : Text :=
  let lineReturn := Char.ofNat 13
  let feed := Char.ofNat 10
  let backwards :=
    match body.reverse with
    | first :: second :: rest =>
        if first = feed ∧ second = lineReturn then rest
        else if first = feed ∨ first = lineReturn then second :: rest
        else first :: second :: rest
    | short => short
  match backwards with
  | '.' :: second :: rest =>
      if second = feed then
        (if rest.head? = some lineReturn then rest.drop 1 else rest).reverse
      else body
  | _ => body

def gopherText (body : Text) : Text :=
  ((JavaScript.dropLastDot (withoutTerminator body)).reverse.dropWhile
    JavaScript.isBlankOrBreak).reverse

example : gopherText ['o', 'k', Char.ofNat 13, Char.ofNat 10, '.',
    Char.ofNat 13, Char.ofNat 10] = ['o', 'k'] := by
  decide

/-- Why no answer is returned. -/
inductive GetError where
  | rejected
  | notOk (status : Nat)
  | unverified (path : Text)
  | otherSelector (path : Text) (selector : Option Text)
  | otherPillar (pid expected : Text)
deriving DecidableEq

/-- What `get` resolves with. -/
structure Got where
  body : Text
  text : Text
  report : AnswerReport
deriving DecidableEq

/-- The path of a selector. -/
def askedPath (selector : Text) : Text :=
  if selector.head? = some '/' then selector else '/' :: selector

/-- The address of a path on a server. -/
def addressOf (baseUrl path : Text) : Text :=
  (baseUrl.reverse.dropWhile fun character => character = '/').reverse ++
    '/' :: 'g' :: path

/-- `createPillarClient(baseUrl, { pid, fetch }).get(selector)`. -/
def get (scheme : Scheme) (numberText : Text → Text)
    (fetch : Text → Option Response) (baseUrl : Text) (pid : Option Text)
    (selector : Text) : Except GetError Got :=
  let path := askedPath selector
  match fetch (addressOf baseUrl path) with
  | none => .error .rejected
  | some response =>
      let body := responseText response.body
      if response.status < 200 ∨ 299 < response.status then
        .error (.notOk response.status)
      else
        let check :=
          verifyAnswer scheme numberText (encodeUtf8 body) response.headers
        if check.valid = false then .error (.unverified path)
        else if check.selector ≠ some path then
          .error (.otherSelector path check.selector)
        else
          match pid.filter (· ≠ []) with
          | some expected =>
              if check.pid ≠ expected.map Char.toLower then
                .error (.otherPillar check.pid expected)
              else .ok ⟨body, gopherText body, check⟩
          | none => .ok ⟨body, gopherText body, check⟩

end Client

section Gateway

/-- An honest gateway behind an address, with what is shown where no selector
is answered, and the values of headers that the engine reads, visible ones
among them. -/
structure Gateway where
  origin : Origin
  serving : Serving
  netlocAccepted : Text → Bool
  shown : HttpGateway.Reply → List UInt8
  acceptsHeader : Text → Bool
  accepts_visible : ∀ value,
    (∀ character ∈ value, 32 < character.toNat ∧ character.toNat < 127) →
      acceptsHeader value = true

/-- The address of a gateway, with slashes after it. -/
def Gateway.baseUrl (gateway : Gateway) (slashes : Nat) : Text :=
  gateway.origin.text ++ List.replicate slashes '/'

def statusOf : HttpGateway.Reply → Nat
  | .internalError => 500
  | .noContent => 204
  | .methodNotAllowed => 405
  | .rateLimited => 429
  | .health => 200
  | .wellKnown => 200
  | .badSelector => 400
  | .notFound _ => 404
  | .answer _ => 200

/-- The response to a request; an exception of a handler is an internal
error. -/
def Gateway.respond (gateway : Gateway) (target : Text) : Response :=
  match dispatch gateway.netlocAccepted "GET".toList target true with
  | .answer selector =>
      match gateway.serving.body selector with
      | some body =>
          { status := 200
            headers := answerHeaders (gateway.serving.sigBlock body selector)
            body := encodeUtf8 body }
      | none =>
          { status := statusOf .internalError
            headers := []
            body := gateway.shown .internalError }
  | reply =>
      { status := statusOf reply
        headers := []
        body := gateway.shown reply }

/-- `fetch` where the one server is the gateway. -/
def Gateway.fetch (gateway : Gateway) (address : Text) : Option Response :=
  match parse address with
  | none => none
  | some url =>
      if url.scheme = gateway.origin.scheme ∧
          url.authority = gateway.origin.authority then
        let response := gateway.respond url.target
        if response.headers.all fun header =>
            gateway.acceptsHeader header.2 then
          some response
        else none
      else none

end Gateway

section Statement

/-- The selector is routed by the gateway as it was asked for, and its answer
is returned. -/
structure Delivers (numberText : Text → Text) (gateway : Gateway)
    (slashes : Nat) (selector body : Text) : Prop where
  routes : ∃ url,
    parse (addressOf (gateway.baseUrl slashes) (askedPath selector)) =
      some url ∧
    dispatch gateway.netlocAccepted "GET".toList url.target true =
      .answer (rooted (askedPath selector))
  resolves : ∃ got, get gateway.serving.scheme numberText gateway.fetch
      (gateway.baseUrl slashes) none selector = .ok got ∧ got.body = body

/-- A body was signed for a selector by the owner of a PID. -/
def SignedFor (scheme : Scheme) (Signed : List UInt8 → List UInt8 → Prop)
    (pid selector body : Text) : Prop :=
  ∃ publicKey time,
    pidOf scheme publicKey = pid.map Char.toLower ∧
    Signed publicKey (encodeUtf8 body) ∧
    Signed publicKey (domainPreimage domainResponse
      [pid, selector, time, hashContent scheme (encodeUtf8 body)])

/-- The honest answer is returned, and whatever is returned was signed for what
was asked. -/
structure GetsWhatItAsks (numberText : Text → Text)
    (Signed : List UInt8 → List UInt8 → Prop) (gateway : Gateway)
    (slashes : Nat) (selector body : Text) : Prop where
  delivers : Delivers numberText gateway slashes selector body
  signed : ∀ fetch baseUrl pid got,
    get gateway.serving.scheme numberText fetch baseUrl pid selector =
        .ok got →
      SignedFor gateway.serving.scheme Signed got.report.pid
        (askedPath selector) got.body

end Statement

section Answers

variable {numberText : Text → Text} {gateway : Gateway} {selector path : Text}

theorem head?_askedPath (selector : Text) :
    (askedPath selector).head? = some '/' := by
  rw [askedPath]
  split
  next starts => exact starts
  next => rfl

theorem unbroken_askedPath
    (unbroken : ∀ character ∈ selector, character.toNat ∉ [9, 10, 13]) :
    ∀ character ∈ askedPath selector, character.toNat ∉ [9, 10, 13] := by
  rw [askedPath]
  split
  · exact unbroken
  · intro character member
    rcases List.mem_cons.mp member with rfl | member
    · decide
    · exact unbroken character member

/-- The slashes after an address are left out. -/
theorem addressOf_baseUrl (gateway : Gateway) (slashes : Nat) (path : Text) :
    addressOf (gateway.baseUrl slashes) path =
      gateway.origin.text ++ '/' :: 'g' :: path := by
  have kept : gateway.origin.text.reverse.dropWhile (fun character =>
      decide (character = '/')) = gateway.origin.text.reverse := by
    rw [Origin.text, List.reverse_append]
    cases shape : gateway.origin.authority.reverse with
    | nil =>
        have empty := List.reverse_eq_nil_iff.mp shape
        exact absurd empty gateway.origin.nonempty
    | cons last rest =>
        have member : last ∈ gateway.origin.authority := by
          rw [← List.mem_reverse, shape]
          exact List.mem_cons_self
        have inside := (gateway.origin.plain last member).2
        rw [List.cons_append, List.dropWhile_cons_of_neg]
        intro slash
        rw [of_decide_eq_true slash] at inside
        revert inside
        decide
  rw [addressOf, Gateway.baseUrl, List.reverse_append,
    List.dropWhile_append_of_pos, kept, List.reverse_reverse]
  intro character member
  rw [List.mem_reverse] at member
  exact decide_eq_true (List.eq_of_mem_replicate member)

/-- The gateway is asked for the target of the address of a path. -/
theorem parse_addressOf (gateway : Gateway) (slashes : Nat)
    (unbroken : ∀ character ∈ path, character.toNat ∉ [9, 10, 13]) :
    parse (addressOf (gateway.baseUrl slashes) path) =
      some (urlOf gateway.origin path) := by
  rw [addressOf_baseUrl, UrlStandard.parse_origin _ unbroken]
  rfl

theorem fetch_addressOf (gateway : Gateway) (slashes : Nat)
    (unbroken : ∀ character ∈ path, character.toNat ∉ [9, 10, 13]) :
    gateway.fetch (addressOf (gateway.baseUrl slashes) path) =
      let response := gateway.respond (urlOf gateway.origin path).target
      if response.headers.all fun header => gateway.acceptsHeader header.2 then
        some response
      else none := by
  rw [Gateway.fetch, parse_addressOf gateway slashes unbroken]
  dsimp only
  rw [if_pos ⟨rfl, rfl⟩]

/-- A body that starts with a mark of the byte order. -/
def marked (body : Text) : Prop := body.head? = some (Char.ofNat 65279)

/-- A body is read back as it was, without its mark. -/
theorem responseText_encodeUtf8 (body : Text) :
    responseText (encodeUtf8 body) = body ↔ ¬ marked body := by
  have bytes : String.utf8EncodeChar (Char.ofNat 65279) = [239, 187, 191] := by
    decide
  have mark : ∀ others, decodeUtf8 ([239, 187, 191] ++ others) =
      Char.ofNat 65279 :: decodeUtf8 others := by
    intro others
    rw [← bytes]
    exact decodeUtf8_encodeChar_append _ others
  have starts : [239, 187, 191] <+: encodeUtf8 body ↔ marked body := by
    constructor
    · rintro ⟨others, same⟩
      have read := decodeUtf8_encodeUtf8 body
      rw [← same, mark] at read
      rw [marked, ← read]
      rfl
    · intro isMarked
      cases body with
      | nil => cases isMarked
      | cons first rest =>
          obtain rfl : first = Char.ofNat 65279 := by
            simpa [marked] using isMarked
          rw [encodeUtf8, List.flatMap_cons, bytes]
          exact List.prefix_append _ _
  rw [responseText]
  by_cases isMarked : marked body
  · rw [if_pos (starts.mpr isMarked)]
    refine iff_of_false (fun same => ?_) (not_not.mpr isMarked)
    obtain ⟨others, shape⟩ := starts.mpr isMarked
    have read := decodeUtf8_encodeUtf8 body
    rw [← shape, mark] at read
    rw [← shape] at same
    change decodeUtf8 others = body at same
    have lengths := congrArg List.length (read.trans same.symm)
    simp at lengths
  · rw [if_neg (mt starts.mp isMarked), decodeUtf8_encodeUtf8]
    exact iff_of_true rfl isMarked

/-- What the gateway responds with when it routes a path. -/
theorem respond_of_dispatch {target routed body : Text}
    (forwarded : dispatch gateway.netlocAccepted "GET".toList target true =
      .answer routed) (answers : gateway.serving.body routed = some body) :
    gateway.respond target =
      { status := 200
        headers := answerHeaders (gateway.serving.sigBlock body routed)
        body := encodeUtf8 body } := by
  rw [Gateway.respond, forwarded]
  dsimp only
  rw [answers]

theorem answerHeaders_sigBlock (serving : Serving) (body routed : Text) :
    answerHeaders (serving.sigBlock body routed) =
      servedHeaders serving.scheme serving.pillar.privateKey body routed
        serving.unixTime := by
  rw [servedHeaders, Serving.sigBlock, serving.own, Serving.publicKeyHex]
  rfl

theorem accepts_toHex (gateway : Gateway) (bytes : List UInt8) :
    gateway.acceptsHeader (toHex bytes) = true := by
  have checked : ∀ value : Fin 16, 32 < (value : Nat).digitChar.toNat ∧
      (value : Nat).digitChar.toNat < 127 := by
    decide
  refine gateway.accepts_visible _ fun character member => ?_
  obtain ⟨value, small, rfl⟩ := exists_digit_of_mem_toHex member
  exact checked ⟨value, small⟩

theorem accepts_numeral (gateway : Gateway) (number : Nat) :
    gateway.acceptsHeader (numeral number) = true := by
  have checked : ∀ value : Fin 10, 32 < (value : Nat).digitChar.toNat ∧
      (value : Nat).digitChar.toNat < 127 := by
    decide
  refine gateway.accepts_visible _ fun character member => ?_
  obtain ⟨value, small, rfl⟩ := exists_digit_of_mem_numeral member
  exact checked ⟨value, small⟩

/-- The headers of an answer are read if that of its selector is. -/
theorem all_acceptsHeader {routed : Text} (body : Text)
    (unchanged : Unchanged (signedSelector routed)) :
    ((answerHeaders (gateway.serving.sigBlock body routed)).all fun header =>
        gateway.acceptsHeader header.2) =
      gateway.acceptsHeader (signedSelector routed) := by
  have version : gateway.acceptsHeader ['1'] = true :=
    accepts_numeral gateway 1
  rw [answerHeaders_sigBlock, servedHeaders_eq _ _ _ unchanged]
  simp only [List.all_cons, List.all_nil, pidOf, signContent, hashContent,
    responseEnvelopeSignature, signDomain, accepts_toHex, accepts_numeral,
    version, Bool.true_and, Bool.and_true]

/-- What `get` makes of a response that is no error. -/
theorem get_eq_ok {scheme : Scheme} {fetch : Text → Option Response}
    {baseUrl : Text} {pid : Option Text} {got : Got}
    (returned : get scheme numberText fetch baseUrl pid selector = .ok got) :
    ∃ response, fetch (addressOf baseUrl (askedPath selector)) =
        some response ∧
      got.body = responseText response.body ∧
      got.report = verifyAnswer scheme numberText (encodeUtf8 got.body)
        response.headers ∧
      got.report.valid = true ∧
      got.report.selector = some (askedPath selector) := by
  rw [get] at returned
  dsimp only at returned
  split at returned
  · cases returned
  next response fetched =>
    split at returned
    · cases returned
    split at returned
    · cases returned
    next valid =>
      split at returned
      · cases returned
      next selector =>
        have same : got = ⟨responseText response.body,
            gopherText (responseText response.body),
            verifyAnswer scheme numberText
              (encodeUtf8 (responseText response.body)) response.headers⟩ := by
          split at returned
          · split at returned
            · cases returned
            · exact (Except.ok.inj returned).symm
          · exact (Except.ok.inj returned).symm
        subst same
        exact ⟨response, fetched, rfl, rfl, by simpa using valid,
          by simpa using selector⟩

theorem selector_verifyAnswer (scheme : Scheme) (numberText : Text → Text)
    (body : List UInt8) (headers : List (Text × Text)) :
    (verifyAnswer scheme numberText body headers).selector =
      header "X-Refinet-Selector".toList headers :=
  rfl

theorem signed_of_verifyEd25519 {scheme : Scheme}
    {Signed : List UInt8 → List UInt8 → Prop}
    (unforgeable : scheme.Unforgeable Signed) {signature publicKeyHex : Text}
    {message publicKey : List UInt8}
    (key : hexToBytes publicKeyHex = some publicKey)
    (verified : verifyEd25519 scheme signature message publicKeyHex = true) :
    Signed publicKey message := by
  rw [verifyEd25519, key] at verified
  cases bytes : hexToBytes signature with
  | none => simp [bytes] at verified
  | some signature =>
      rw [bytes] at verified
      exact unforgeable publicKey signature message verified

theorem exists_key_of_pidHashesKey {scheme : Scheme} {pid publicKeyHex : Text}
    (hashes : pidHashesKey scheme pid publicKeyHex = true) :
    ∃ publicKey, hexToBytes publicKeyHex = some publicKey ∧
      pidOf scheme publicKey = pid.map Char.toLower := by
  rw [pidHashesKey] at hashes
  cases key : hexToBytes publicKeyHex with
  | none => simp [key] at hashes
  | some publicKey =>
      rw [key] at hashes
      exact ⟨publicKey, rfl, of_decide_eq_true hashes⟩

/-- A response that verifies for what was asked is returned. -/
theorem get_of_valid {scheme : Scheme} {fetch : Text → Option Response}
    {baseUrl : Text} {response : Response}
    (fetched : fetch (addressOf baseUrl (askedPath selector)) = some response)
    (isOk : response.status = 200)
    (valid : (verifyAnswer scheme numberText
      (encodeUtf8 (responseText response.body)) response.headers).valid = true)
    (asked : (verifyAnswer scheme numberText
      (encodeUtf8 (responseText response.body)) response.headers).selector =
        some (askedPath selector)) :
    get scheme numberText fetch baseUrl none selector =
      .ok ⟨responseText response.body, gopherText (responseText response.body),
        verifyAnswer scheme numberText
          (encodeUtf8 (responseText response.body)) response.headers⟩ := by
  rw [get]
  dsimp only
  rw [fetched]
  dsimp only
  rw [if_neg (by omega), if_neg (by simp [valid]), if_neg (by simp [asked])]
  rfl

/-- What is returned was signed for what was asked. -/
theorem signedFor_of_get {scheme : Scheme}
    {Signed : List UInt8 → List UInt8 → Prop}
    (unforgeable : scheme.Unforgeable Signed) {fetch : Text → Option Response}
    {baseUrl : Text} {pid : Option Text} {got : Got}
    (returned : get scheme numberText fetch baseUrl pid selector = .ok got) :
    SignedFor scheme Signed got.report.pid (askedPath selector) got.body := by
  obtain ⟨response, -, -, report, valid, asked⟩ := get_eq_ok returned
  simp only [AnswerReport.valid, Bool.and_eq_true, decide_eq_true_eq] at valid
  obtain ⟨⟨⟨pidValid, -⟩, bodySigned⟩, envelope⟩ := valid
  rw [report] at pidValid bodySigned envelope asked ⊢
  obtain ⟨publicKey, key, owner⟩ := exists_key_of_pidHashesKey pidValid
  simp only [verifyAnswer] at envelope asked
  split at envelope
  · have envelopeSigned := Option.some.inj envelope
    rw [asked, Option.getD_some] at envelopeSigned
    exact ⟨publicKey, _, owner,
      signed_of_verifyEd25519 unforgeable key bodySigned,
      signed_of_verifyEd25519 unforgeable key envelopeSigned⟩
  · cases envelope

/-- A path of which nothing is lost on the way, and a body. -/
structure Goes (gateway : Gateway) (path body : Text) : Prop where
  plain : Plain path
  short : path.length ≤ maxSelectorChars
  unchanged : Unchanged path
  accepted : gateway.acceptsHeader path = true
  unmarked : ¬ marked body

section Delivery

variable {slashes : Nat} {body : Text}
  (unbroken : ∀ character ∈ selector, character.toNat ∉ [9, 10, 13])
  (served : IsServed (rooted (askedPath selector)))
  (answers : gateway.serving.body (rooted (askedPath selector)) = some body)

include unbroken answers

/-- A path that is delivered goes through unchanged. -/
theorem goes_of_delivers
    (delivers : Delivers numberText gateway slashes selector body) :
    Goes gateway (askedPath selector) body := by
  have pathUnbroken := unbroken_askedPath unbroken
  have starts := head?_askedPath selector
  obtain ⟨url, parsed, forwarded⟩ := delivers.routes
  rw [parse_addressOf gateway slashes pathUnbroken] at parsed
  obtain rfl := Option.some.inj parsed
  obtain ⟨plain, short⟩ := plain_of_dispatch starts forwarded
  obtain ⟨got, returned, sameBody⟩ := delivers.resolves
  obtain ⟨response, fetched, read, report, -, asked⟩ := get_eq_ok returned
  rw [fetch_addressOf gateway slashes pathUnbroken] at fetched
  dsimp only at fetched
  rw [respond_of_dispatch forwarded answers] at fetched
  split at fetched
  next accepted =>
    obtain rfl := Option.some.inj fetched
    rw [report, selector_verifyAnswer] at asked
    dsimp only at asked read accepted
    have unchanged := unchanged_of_header asked
    have unmarked := (responseText_encodeUtf8 body).mp (read.symm.trans sameBody)
    have signed := signedSelector_rooted starts
    have accepts := @all_acceptsHeader gateway (rooted (askedPath selector)) body
      (signed.symm ▸ unchanged)
    rw [signed] at accepts
    exact ⟨plain, short, unchanged, accepts.symm.trans accepted, unmarked⟩
  next => cases fetched

include served in
/-- A path that goes through unchanged is delivered. -/
theorem delivers_of_goes (correct : gateway.serving.scheme.Correct)
    (printed : ∀ number < 2 ^ 53, numberText (numeral number) = numeral number)
    (clock : gateway.serving.unixTime < 2 ^ 53)
    (goes : Goes gateway (askedPath selector) body) :
    Delivers numberText gateway slashes selector body := by
  have pathUnbroken := unbroken_askedPath unbroken
  have starts := head?_askedPath selector
  have forwarded : dispatch gateway.netlocAccepted "GET".toList
      (urlOf gateway.origin (askedPath selector)).target true =
        .answer (rooted (askedPath selector)) :=
    dispatch_of_plain starts goes.plain pathUnbroken goes.short served
  refine ⟨⟨_, parse_addressOf gateway slashes pathUnbroken, forwarded⟩, ?_⟩
  have signed := signedSelector_rooted starts
  have unchanged : Unchanged (signedSelector (rooted (askedPath selector))) :=
    signed.symm ▸ goes.unchanged
  have accepted := @all_acceptsHeader gateway (rooted (askedPath selector)) body
    unchanged
  rw [signed, goes.accepted] at accepted
  have fetched : gateway.fetch
      (addressOf (gateway.baseUrl slashes) (askedPath selector)) =
        some
          { status := 200
            headers := answerHeaders
              (gateway.serving.sigBlock body (rooted (askedPath selector)))
            body := encodeUtf8 body } := by
    rw [fetch_addressOf gateway slashes pathUnbroken,
      respond_of_dispatch forwarded answers]
    dsimp only
    rw [if_pos accepted]
  have carries := carries_servedHeaders gateway.serving.scheme
    gateway.serving.pillar.privateKey body unchanged gateway.serving.unixTime
  rw [← answerHeaders_sigBlock] at carries
  have read := (responseText_encodeUtf8 body).mpr goes.unmarked
  have valid := carries.valid_verifyAnswer correct (printed _ clock)
  have asked := carries.selector
  rw [signed] at asked
  have returned := @get_of_valid numberText selector gateway.serving.scheme
    gateway.fetch (gateway.baseUrl slashes) _ fetched rfl
    (by dsimp only; rw [read]; exact valid)
    (by rw [selector_verifyAnswer]; dsimp only; exact asked)
  exact ⟨_, returned, read⟩

end Delivery

/-- A gateway of a Pillar with nothing to say. -/
def silentGateway : Gateway where
  origin :=
    { isSecure := true
      authority := "a.example".toList
      nonempty := by decide
      plain := fun character member => by
        have checked : ("a.example".toList.all fun other =>
            decide (32 < other.toNat) &&
              UrlStandard.isAuthorityCharacter other) = true := by
          decide
        simpa using List.all_eq_true.mp checked character member }
  serving := TransportAgreement.silent
  netlocAccepted _ := true
  shown _ := []
  acceptsHeader value := value.all fun character =>
    decide (32 ≤ character.toNat ∧ character.toNat ≠ 127)
  accepts_visible value visible := by
    rw [List.all_eq_true]
    intro character member
    have bounds := visible character member
    exact decide_eq_true (by omega)

theorem unbroken_of_all {text : Text}
    (checked : (text.all fun character =>
      decide (character.toNat ∉ [9, 10, 13])) = true) :
    ∀ character ∈ text, character.toNat ∉ [9, 10, 13] :=
  fun character member =>
    of_decide_eq_true (List.all_eq_true.mp checked character member)

/-- Whoever has a private key may have signed anything. -/
def AnySigned (publicKey _data : List UInt8) : Prop :=
  ∃ privateKey, transparentScheme.publicKey privateKey = publicKey

theorem unforgeable_anySigned : transparentScheme.Unforgeable AnySigned :=
  fun publicKey _ _ _ => ⟨publicKey, rfl⟩

end Answers

end PillarClient

end RefinetPillars
