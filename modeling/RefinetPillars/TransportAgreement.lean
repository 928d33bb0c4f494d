import RefinetPillars.GopherTransports
import RefinetPillars.HttpGatewayAnswers
import RefinetPillars.StoreGrowthBounds

/-!
# One answer on two transports

The gateway hands the selector that it decodes from a target to the Pillar, and
the Gopher listener the line of a client without the blanks around it.  What
they send agrees when nothing stands around the selector and the headers carry
it as it is.
-/

namespace RefinetPillars

namespace TransportAgreement

open HexText LineText DecimalText KeyRecovery ContentSigning Utf8Text RouteTable
open ResponseTrailer hiding trailerFields
open HttpGateway hiding Reply
open GopherRoutes hiding dispatch
open StoreGrowth (Pillar Store LocalDay)
open ServiceReceipts (Moment)

/-- A Pillar at the moment of a request, with its store and its clocks. -/
structure Serving where
  pillar : Pillar
  store : Store
  moment : Moment
  countedOn : LocalDay
  updatedOn : LocalDay
  requestCount : Nat
  uptimeSeconds : Nat
  unixTime : Nat
  own : pillar.pid =
    pidOf pillar.env.scheme (pillar.env.scheme.publicKey pillar.privateKey)

/-- What is sent: a body, and the fields of its signature. -/
structure Sent where
  body : List UInt8
  fields : List (Text × Text)
deriving DecidableEq

namespace Serving

variable (serving : Serving)

def scheme : Scheme := serving.pillar.env.scheme

def publicKeyHex : Text :=
  toHex (serving.scheme.publicKey serving.pillar.privateKey)

/-- The body of `respond`, unless an exception is raised. -/
def body (selector : Text) : Option Text :=
  (StoreGrowth.respond serving.pillar
    { selector := selector
      moment := serving.moment
      countedOn := serving.countedOn
      updatedOn := serving.updatedOn
      requestCount := serving.requestCount
      uptimeSeconds := serving.uptimeSeconds } serving.store).1

/-- The trailer of `respond`. -/
def sigBlock (body selector : Text) : Text :=
  buildSignatureTrailer serving.scheme (encodeUtf8 body)
    serving.pillar.privateKey serving.pillar.pid serving.publicKeyHex
    (signedSelector selector) serving.unixTime

/-- The fields that are written in a trailer. -/
def fields (body selector : Text) : List (Text × Text) :=
  ResponseTrailer.trailerFields serving.scheme serving.pillar.privateKey
    (encodeUtf8 body) serving.pillar.pid serving.publicKeyHex
    (signedSelector selector) serving.unixTime

/-- A trailer has its fields between the markers. -/
theorem sigBlock_eq (body selector : Text) :
    serving.sigBlock body selector =
      marker ++ crlf ++
        ((serving.fields body selector).flatMap fun entry =>
          field entry.1 entry.2) ++ sigEnd ++ crlf := by
  simp only [sigBlock, fields, buildSignatureTrailer,
    ResponseTrailer.trailerFields, List.flatMap_cons, List.flatMap_nil,
    List.append_assoc, List.nil_append]

/-- The answer of `handle_client` that is signed; files are sent unsigned. -/
def listenerSends (line : List UInt8) : Option Sent :=
  match GopherTransports.handleClient serving.pillar.server line with
  | .routed selector _ =>
      (serving.body selector).map fun body =>
        ⟨encodeUtf8 body, serving.fields body selector⟩
  | _ => none

/-- The answer of `_dispatch` that is signed. -/
def gatewaySends (netlocAccepted : Text → Bool) (target : Text) : Option Sent :=
  match dispatch netlocAccepted "GET".toList target true with
  | .answer selector =>
      (serving.body selector).map fun body =>
        ⟨encodeUtf8 body, answerHeaders (serving.sigBlock body selector)⟩
  | _ => none

end Serving

/-- The name of the header of a field. -/
def headerName (key : Text) : Text :=
  ((signatureHeaders.find? fun entry => entry.1 = key).map Prod.snd).getD key

/-- What is sent, with each field under the name of its header. -/
def Sent.underHeaders (sent : Sent) : Sent :=
  { sent with
    fields := sent.fields.map fun entry => (headerName entry.1, entry.2) }

theorem headerName_eq :
    headerName "pid".toList = "X-Refinet-Pid".toList ∧
      headerName "pubkey".toList = "X-Refinet-Pubkey".toList ∧
      headerName "sig".toList = "X-Refinet-Sig".toList ∧
      headerName "hash".toList = "X-Refinet-Hash".toList ∧
      headerName "v".toList = "X-Refinet-V".toList ∧
      headerName "selector".toList = "X-Refinet-Selector".toList ∧
      headerName "time".toList = "X-Refinet-Time".toList ∧
      headerName "sig1".toList = "X-Refinet-Sig1".toList := by
  decide +kernel

/-- The fields of a trailer under the names of their headers. -/
theorem Serving.underHeaders_fields (serving : Serving) (body selector : Text) :
    ((serving.fields body selector).map fun entry =>
        (headerName entry.1, entry.2)) =
      let bodyHash := hashContent serving.scheme (encodeUtf8 body)
      [("X-Refinet-Pid".toList, serving.pillar.pid),
        ("X-Refinet-Pubkey".toList, serving.publicKeyHex),
        ("X-Refinet-Sig".toList, signContent serving.scheme (encodeUtf8 body)
          serving.pillar.privateKey),
        ("X-Refinet-Hash".toList, bodyHash), ("X-Refinet-V".toList, ['1']),
        ("X-Refinet-Selector".toList, signedSelector selector),
        ("X-Refinet-Time".toList, numeral serving.unixTime),
        ("X-Refinet-Sig1".toList, responseEnvelopeSignature serving.scheme
          serving.pillar.privateKey serving.pillar.pid (signedSelector selector)
          (numeral serving.unixTime) bodyHash)] := by
  obtain ⟨pid, publicKey, signature, hash, version, signed, time, envelope⟩ :=
    headerName_eq
  simp only [Serving.fields, ResponseTrailer.trailerFields, List.map_cons,
    List.map_nil, pid, publicKey, signature, hash, version, signed, time,
    envelope]

/-- The gateway sends what the listener sends for the line of the selector. -/
def Alike (netlocAccepted : Text → Bool) (target selector : Text)
    (serving : Serving) : Prop :=
  serving.gatewaySends netlocAccepted target =
    (serving.listenerSends (encodeUtf8 (selector ++ crlf))).map
      Sent.underHeaders

section Lines

/-- The end of a line is trimmed from it. -/
theorem strip_append_crlf (text : Text) : strip (text ++ crlf) = strip text := by
  have blank : (crlf.all isSpace) = true := by decide
  have front : (text ++ crlf).dropWhile isSpace =
      if text.dropWhile isSpace = [] then []
      else text.dropWhile isSpace ++ crlf := by
    rw [List.dropWhile_append]
    split <;> simp_all [crlf]
  rw [strip, strip, front]
  split
  next empty => simp [empty]
  next =>
    rw [List.reverse_append, List.dropWhile_append_of_pos]
    intro character member
    exact List.all_eq_true.mp blank character (List.mem_reverse.mp member)

theorem clientSelector_append_crlf {selector : Text}
    (stripped : strip selector = selector) (notRoot : selector ≠ ['/']) :
    clientSelector (selector ++ crlf) = selector := by
  rw [clientSelector, strip_append_crlf, stripped, if_neg notRoot]

end Lines

section Forwarded

variable {netlocAccepted : Text → Bool} {target selector : Text}

theorem ne_root_of_selectorFromPath
    (mapped : selectorFromPath netlocAccepted target = .ok (some selector)) :
    selector ≠ ['/'] := by
  rw [selectorFromPath] at mapped
  cases parsed : urlsplit netlocAccepted target with
  | none => simp [parsed] at mapped
  | some parts =>
      simp only [parsed] at mapped
      split at mapped
      · cases mapped
      · generalize unquote (parts.path.drop 2) ++
          (if parts.query = [] then [] else '?' :: unquote parts.query) = asked
          at mapped
        generalize chosen : (if asked = ['/'] then [] else asked) = given
          at mapped
        have notRoot : given ≠ ['/'] := by
          rw [← chosen]
          split
          · simp
          next other => exact other
        split at mapped
        · cases mapped
        · exact Option.some.inj (Except.ok.inj mapped) ▸ notRoot

/-- A selector that is forwarded is not the slash of the root, and among the
downloads it ends like a directory. -/
theorem of_forwarded
    (forwarded : dispatch netlocAccepted "GET".toList target true =
      .answer selector) :
    selector ≠ ['/'] ∧
      (downloadRoute <+: selector → selector.getLast? = some '/') := by
  rw [dispatch] at forwarded
  repeat' split at forwarded
  all_goals try cases forwarded
  next mapped notDownload _ =>
    refine ⟨ne_root_of_selectorFromPath mapped, fun downloads => ?_⟩
    by_contra other
    exact notDownload ⟨downloads, other⟩

/-- The listener routes a selector that was forwarded, if it has no blanks around
it. -/
theorem handleClient_append_crlf {server : Server}
    (forwarded : dispatch netlocAccepted "GET".toList target true =
      .answer selector) (stripped : strip selector = selector) :
    GopherTransports.handleClient server (encodeUtf8 (selector ++ crlf)) =
      .routed selector (route server selector) := by
  obtain ⟨notRoot, directory⟩ := of_forwarded forwarded
  have files : ∀ extension ∈ GopherTransports.binaryExtensions,
      extension.getLast?.any (· ≠ '/') = true := by decide
  rw [GopherTransports.handleClient, decodeUtf8_encodeUtf8,
    clientSelector_append_crlf stripped notRoot]
  rw [if_neg]
  rintro ⟨downloads, extension, member, other, rfl⟩
  have last := files extension member
  have slash := directory downloads
  rw [List.getLast?_append] at slash
  cases found : extension.getLast? with
  | none => simp [found] at last
  | some character =>
      rw [found] at last slash
      simp_all

/-- What leaves headers unchanged is sent alike. -/
theorem alike_of_unchanged
    (forwarded : dispatch netlocAccepted "GET".toList target true =
      .answer selector) (unchanged : Unchanged (signedSelector selector))
    (serving : Serving) : Alike netlocAccepted target selector serving := by
  have stripped : strip selector = selector := by
    by_cases root : selector = []
    · rw [root]
      rfl
    · have stripped := unchanged.stripped
      rwa [signedSelector, if_neg root] at stripped
  rw [Alike, Serving.gatewaySends, forwarded, Serving.listenerSends,
    handleClient_append_crlf forwarded stripped]
  dsimp only
  rw [Option.map_map]
  refine congrFun (congrArg Option.map (funext fun body => ?_)) _
  have headers := servedHeaders_eq serving.scheme serving.pillar.privateKey body
    unchanged serving.unixTime
  rw [servedHeaders, Serving.scheme, ← serving.own] at headers
  rw [Function.comp_apply, Sent.underHeaders, serving.underHeaders_fields,
    Serving.sigBlock, Serving.publicKeyHex, Serving.scheme, headers]
  dsimp only
  rw [← serving.own]

end Forwarded

section Headers

/-- The headers of a selector and its envelope. -/
theorem header_underHeaders (serving : Serving) (body selector : Text) :
    let headers := (serving.fields body selector).map fun entry =>
      (headerName entry.1, entry.2)
    header "X-Refinet-Selector".toList headers =
        some (signedSelector selector) ∧
      header "X-Refinet-Sig1".toList headers =
        some (responseEnvelopeSignature serving.scheme serving.pillar.privateKey
          serving.pillar.pid (signedSelector selector)
          (numeral serving.unixTime)
          (hashContent serving.scheme (encodeUtf8 body))) := by
  rw [serving.underHeaders_fields]
  constructor <;> rfl

theorem unchanged_envelope (scheme : Scheme) (privateKey : List UInt8)
    (pid selector unixTime bodyHash : Text) :
    Unchanged (responseEnvelopeSignature scheme privateKey pid selector unixTime
      bodyHash) :=
  unchanged_toHex _

/-- The line of the envelope is read whatever stands before it. -/
theorem get_sig1 (serving : Serving) (body selector : Text) :
    get "sig1".toList (trailerFields (serving.sigBlock body selector)) =
      some (responseEnvelopeSignature serving.scheme serving.pillar.privateKey
        serving.pillar.pid (signedSelector selector)
        (numeral serving.unixTime)
        (hashContent serving.scheme (encodeUtf8 body))) := by
  generalize made : responseEnvelopeSignature serving.scheme
    serving.pillar.privateKey serving.pillar.pid (signedSelector selector)
    (numeral serving.unixTime)
    (hashContent serving.scheme (encodeUtf8 body)) = envelope
  have unchanged : Unchanged envelope := by
    rw [← made]
    exact unchanged_envelope _ _ _ _ _ _
  have closing : collectLines (splitLines (sigEnd ++ crlf)) = [] := by
    decide +kernel
  obtain ⟨front, shape⟩ : ∃ front, serving.sigBlock body selector =
      front ++ Char.ofNat 10 ::
        (field "sig1".toList envelope ++ (sigEnd ++ crlf)) := by
    refine ⟨marker ++ crlf ++ field "pid".toList serving.pillar.pid ++
      field "pubkey".toList serving.publicKeyHex ++
      field "sig".toList (signContent serving.scheme (encodeUtf8 body)
        serving.pillar.privateKey) ++
      field "hash".toList (hashContent serving.scheme (encodeUtf8 body)) ++
      field "v".toList ['1'] ++
      field "selector".toList (signedSelector selector) ++ "time".toList ++
      ':' :: numeral serving.unixTime ++ [Char.ofNat 13], ?_⟩
    rw [Serving.sigBlock, buildSignatureTrailer, made]
    simp only [field, crlf, List.append_assoc, List.cons_append,
      List.nil_append]
  have collected : trailerFields (serving.sigBlock body selector) =
      collectLines (splitLines (front ++ [Char.ofNat 10])) ++
        [("sig1".toList, envelope)] := by
    rw [trailerFields, shape, splitLines, linesFrom_append_feed]
    change collectLines (_ ++ splitLines _) = _
    rw [collectLines, List.filterMap_append]
    change _ ++ collectLines _ = _
    rw [collectLines_field (plainKey_of_mem (by simp)) unchanged, closing]
    rfl
  rw [collected, ResponseTrailer.get, List.reverse_append, List.reverse_singleton,
    List.singleton_append, List.find?_cons_of_pos (by simp), Option.map_some]

/-- A header is made from the field of its key. -/
theorem header_answerHeaders {key name : Text} (sigBlock : Text)
    (known : (key, name) ∈ signatureHeaders) :
    header name (answerHeaders sigBlock) =
      (get key (trailerFields sigBlock)).map headerSafe := by
  have distinct : ∀ entry ∈ signatureHeaders, ∀ other ∈ signatureHeaders,
      entry.2.map Char.toLower = other.2.map Char.toLower → entry = other := by
    decide +kernel
  rw [header]
  cases found : (answerHeaders sigBlock).find? fun entry =>
      entry.1.map Char.toLower = name.map Char.toLower with
  | none =>
      cases asked : get key (trailerFields sigBlock) with
      | none => rfl
      | some value =>
          have sent : (name, headerSafe value) ∈ answerHeaders sigBlock :=
            List.mem_filterMap.mpr ⟨_, known, by rw [asked, Option.map_some]⟩
          have missed := List.find?_eq_none.mp found _ sent
          simp at missed
  | some entry =>
      obtain ⟨other, otherKnown, made⟩ :=
        List.mem_filterMap.mp (List.mem_of_find?_eq_some found)
      obtain ⟨value, asked, rfl⟩ := Option.map_eq_some_iff.mp made
      have same := distinct other otherKnown _ known
        (of_decide_eq_true (List.find?_some found :))
      rw [same] at asked
      rw [asked, Option.map_some, Option.map_some]

end Headers

section Silent

/-- A Pillar of the standard port with nothing to say. -/
def silentPillar : Pillar where
  env :=
    { scheme := transparentScheme
      floatRepr := id
      truncate := fun _ => none
      repr := fun _ => [] }
  pid := pidOf transparentScheme [7]
  privateKey := [7]
  server := ⟨false, false, fun _ => false⟩
  errorResponse _ := []
  receiptPage _ := []
  page _ _ := some fun _ => []
  serveStatic _ := some []
  runPrivate _ _ store := (some [], store)

def silent : Serving where
  pillar := silentPillar
  store := .empty
  moment := StoreGrowth.newYearMoment
  countedOn := StoreGrowth.newYear
  updatedOn := StoreGrowth.newYear
  requestCount := 1
  uptimeSeconds := 0
  unixTime := 5
  own := by
    simp only [silentPillar]
    rfl

/-- Receipts are not taken on the standard port. -/
theorem route_ne_proofReceipt {server : Server} {selector : Text}
    (standard : server.isRefinet = false) :
    route server selector ≠ .ran .proofReceipt := by
  have covered : ∀ entry ∈ branches, Branch.run .proofReceipt = entry.2 →
      entry.1.Covered refinetGate := by
    decide +kernel
  intro answered
  obtain ⟨-, passed, runs⟩ := route_eq_ran answered
  exact not_run_of_covered covered runs
    (fun refused => passed ⟨standard, refused⟩) rfl

theorem body_silent (selector : Text) : silent.body selector = some [] := by
  have answers : ∀ request : StoreGrowth.Request,
      (StoreGrowth.runRoute silentPillar request .empty).1 = some [] := by
    intro request
    rw [StoreGrowth.runRoute]
    split
    · rfl
    · rfl
    next handler ran =>
      split
      · rfl
      · have other : handler ≠ .proofReceipt := fun same =>
          route_ne_proofReceipt rfl (same ▸ ran)
        rw [if_neg other]
        rfl
  have responds : ∀ request : StoreGrowth.Request,
      (StoreGrowth.respond silentPillar request .empty).1 = some [] := by
    intro request
    have answered := answers request
    rw [StoreGrowth.respond]
    split
    next missing =>
      rw [missing] at answered
      cases answered
    next found =>
      rw [found] at answered
      exact answered
  exact responds _

/-- What the gateway sends of an empty body. -/
theorem gatewaySends_silent {netlocAccepted : Text → Bool}
    {target selector : Text}
    (forwarded : dispatch netlocAccepted "GET".toList target true =
      .answer selector) :
    silent.gatewaySends netlocAccepted target =
      some ⟨encodeUtf8 [], answerHeaders (silent.sigBlock [] selector)⟩ := by
  rw [Serving.gatewaySends, forwarded]
  dsimp only
  rw [body_silent, Option.map_some]

/-- What the listener sends has the fields of a selector. -/
theorem fields_of_listenerSends_silent {line : List UInt8} {sent : Sent}
    (sends : silent.listenerSends line = some sent) :
    ∃ selector, sent.fields = silent.fields [] selector := by
  rw [Serving.listenerSends] at sends
  split at sends
  next selector _ _ =>
    rw [body_silent, Option.map_some] at sends
    exact ⟨selector, (congrArg Sent.fields (Option.some.inj sends)).symm⟩
  next => cases sends

/-- The envelopes of two selectors with an empty body tell them apart. -/
theorem signedSelector_eq_of_envelope {first second : Text}
    (same : responseEnvelopeSignature silent.scheme silent.pillar.privateKey
        silent.pillar.pid first (numeral silent.unixTime)
        (hashContent silent.scheme (encodeUtf8 [])) =
      responseEnvelopeSignature silent.scheme silent.pillar.privateKey
        silent.pillar.pid second (numeral silent.unixTime)
        (hashContent silent.scheme (encodeUtf8 []))) : first = second := by
  have signed := List.append_cancel_left (toHex_injective same)
  have texts := domainPreimage_inj.mp signed
  simp only [domainText, List.intercalate_cons_cons, List.intercalate_singleton]
    at texts
  simpa using texts

/-- What is sent alike from every Pillar leaves headers unchanged. -/
theorem unchanged_of_alike {netlocAccepted : Text → Bool}
    {target selector : Text}
    (forwarded : dispatch netlocAccepted "GET".toList target true =
      .answer selector)
    (alike : Alike netlocAccepted target selector silent) :
    Unchanged (signedSelector selector) := by
  rw [Alike, gatewaySends_silent forwarded] at alike
  obtain ⟨sent, sends, same⟩ := Option.map_eq_some_iff.mp alike.symm
  obtain ⟨routed, fields⟩ := fields_of_listenerSends_silent sends
  have headers : answerHeaders (silent.sigBlock [] selector) =
      (silent.fields [] routed).map fun entry =>
        (headerName entry.1, entry.2) := by
    rw [Sent.underHeaders, Sent.mk.injEq] at same
    rw [← fields, same.2]
  obtain ⟨signed, envelope⟩ := header_underHeaders silent [] routed
  rw [← headers] at signed envelope
  rw [header_answerHeaders _ (by decide : ("sig1".toList, _) ∈ _), get_sig1,
    Option.map_some, (unchanged_envelope _ _ _ _ _ _).headerSafe_eq] at envelope
  rw [signedSelector_eq_of_envelope (Option.some.inj envelope)]
  exact unchanged_of_header signed

end Silent

section Agreement

/-- The transports answer a selector alike, whatever the Pillar and the clock,
when lines, trimming and headers leave it as it is, and not otherwise. -/
theorem alike_iff {netlocAccepted : Text → Bool} {target selector : Text}
    (forwarded : dispatch netlocAccepted "GET".toList target true =
      .answer selector) :
    (∀ serving, Alike netlocAccepted target selector serving) ↔
      Unchanged (signedSelector selector) :=
  ⟨fun alike => unchanged_of_alike forwarded (alike silent),
    fun unchanged => alike_of_unchanged forwarded unchanged⟩

theorem alike_iff_pid :
    (∀ serving, Alike (fun _ => true) "/g/pid".toList "/pid".toList serving) ↔
      Unchanged (signedSelector "/pid".toList) :=
  alike_iff (by decide +kernel)

/-- The gateway routes a blank at the end, which the listener trims. -/
theorem not_alike :
    ¬ ∀ (netlocAccepted : Text → Bool) (target selector : Text)
      (serving : Serving),
      dispatch netlocAccepted "GET".toList target true = .answer selector →
        Alike netlocAccepted target selector serving := by
  intro claimed
  have forwarded : dispatch (fun _ => true) "GET".toList "/g/pid%20".toList
      true = .answer "/pid ".toList := by
    decide +kernel
  have unchanged := unchanged_of_alike forwarded (claimed _ _ _ silent forwarded)
  have stripped := unchanged.stripped
  revert stripped
  decide

end Agreement

end TransportAgreement

end RefinetPillars
