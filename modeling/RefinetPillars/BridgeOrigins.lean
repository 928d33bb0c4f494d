import RefinetPillars.PeerTable
import RefinetPillars.WalletBinding

/-!
# Who may connect to the bridge

The bridge between a browser and a Pillar admits a connection by the origin that
the browser sends with it.  The origins are the built-in ones, those of the
configuration, and the extensions that the configuration lists.
-/

namespace RefinetPillars

namespace BridgeOrigins

open HexText LineText JsonText ExceptRules
open WalletBinding (orElse iterate)
open PeerTable (str)

def schemeEnd : Text := "://".toList

section Definitions

/-- A pattern that ends with `://` stands for all origins of a scheme, another
one for an origin and its ports. -/
def covers (pattern origin : Text) : Bool :=
  if schemeEnd.isSuffixOf pattern then pattern.isPrefixOf origin
  else origin = pattern || (pattern ++ [':']).isPrefixOf origin

def matchOrigin (origin : Text) (allowed : List Text) : Bool :=
  if origin = [] then false else allowed.any fun pattern => covers pattern origin

def websocketAllowedOrigins : List Text :=
  ["chrome-extension://".toList, "moz-extension://".toList,
    "http://localhost".toList, "http://127.0.0.1".toList]

/-- What the constructor may be given instead of the configuration. -/
structure Arguments where
  allowedOrigins : Option (List Text) := none
  extensionIds : Option (List Text) := none
  requireOrigin : Option Bool := none

structure Bridge where
  allowedOrigins : List Text
  extensionIds : List Text
  requireOrigin : Bool

def textOf : Json → Option Text
  | .str text => some text
  | _ => none

/-- The texts among the configured origins. -/
def configuredOrigins (config : Json) :
    Except WalletBinding.Raised (List Text) := do
  let entries ← iterate
    (orElse (config.get "websocket_allowed_origins".toList) (.arr []))
  return entries.filterMap textOf

/-- Whether a configured origin is more than a scheme. -/
def isExactOrigin (origin : Text) : Bool :=
  decide (schemeEnd <:+: origin) && !schemeEnd.isSuffixOf origin

def chromeExtension (id : Text) : Text := "chrome-extension://".toList ++ id

def mozExtension (id : Text) : Text := "moz-extension://".toList ++ id

/-- The patterns when extensions are listed. -/
def restricted (extensionIds allowed : List Text) : List Text :=
  if extensionIds = [] then allowed
  else
    extensionIds.map chromeExtension ++ extensionIds.map mozExtension ++
      allowed.filter fun origin => !schemeEnd.isSuffixOf origin

/-- The built-in origins and those of the configuration. -/
def allowedOf (arguments : Arguments) (config : Json) :
    Except WalletBinding.Raised (List Text) :=
  match arguments.allowedOrigins with
  | some allowed => .ok allowed
  | none => do
      let configured ← configuredOrigins config
      return websocketAllowedOrigins ++ configured.filter isExactOrigin

/-- The extensions that are listed; the parameter prints lists and
dictionaries. -/
def extensionIdsOf (repr : Json → Text) (arguments : Arguments)
    (config : Json) : Except WalletBinding.Raised (List Text) :=
  match arguments.extensionIds with
  | some extensionIds => .ok extensionIds
  | none => do
      let entries ← iterate
        (orElse (config.get "websocket_extension_ids".toList) (.arr []))
      return entries.map (str repr)

def requireOriginOf (arguments : Arguments) (config : Json) : Bool :=
  match arguments.requireOrigin with
  | some requireOrigin => requireOrigin
  | none =>
      !((config.get "websocket_require_origin".toList).getD
        (.bool false)).isFalsy

/-- `WebSocketBridge.__init__`. -/
def initBridge (repr : Json → Text) (arguments : Arguments) (config : Json) :
    Except WalletBinding.Raised Bridge := do
  let allowed ← allowedOf arguments config
  let extensionIds ← extensionIdsOf repr arguments config
  return {
    allowedOrigins := restricted extensionIds allowed
    extensionIds := extensionIds
    requireOrigin := requireOriginOf arguments config }

/-- The refusal of a connection by its `Origin` header, if it is refused. -/
def checkOrigin (bridge : Bridge) : Option Text → Option (Nat × Text)
  | none | some [] =>
      if bridge.requireOrigin then
        some (403, "Forbidden: Origin required".toList ++ [Char.ofNat 10])
      else none
  | some origin =>
      if matchOrigin origin bridge.allowedOrigins then none
      else some (403, "Forbidden: origin not allowed".toList ++ [Char.ofNat 10])

end Definitions

section Origins

/-- An origin that a browser sends.  Only a host in brackets holds colons. -/
structure Origin where
  scheme : Text
  host : Text
  port : Option Text
  scheme_plain : ':' ∉ scheme
  host_ne : host ≠ []
  host_plain : '/' ∉ host
  host_bracketed : ':' ∈ host → host.head? = some '['
  port_digits : ∀ digits ∈ port, digits.all Char.isDigit = true

namespace Origin

def portText (origin : Origin) : Text :=
  match origin.port with
  | none => []
  | some digits => ':' :: digits

def text (origin : Origin) : Text :=
  origin.scheme ++ schemeEnd ++ origin.host ++ origin.portText

end Origin

def extensionSchemes : List Text :=
  ["chrome-extension".toList, "moz-extension".toList]

def loopbackHosts : List Text := ["localhost".toList, "127.0.0.1".toList]

/-- An extension, a listed one if any are listed. -/
def IsExtension (extensionIds : List Text) (origin : Origin) : Prop :=
  if extensionIds = [] then origin.scheme ∈ extensionSchemes
  else
    origin.text ∈ extensionIds.map chromeExtension ∨
      origin.text ∈ extensionIds.map mozExtension

def IsLoopback (origin : Origin) : Prop :=
  origin.scheme = "http".toList ∧ origin.host ∈ loopbackHosts

/-- The origins that are to be admitted. -/
def IsWelcome (extensionIds configured : List Text) (origin : Origin) : Prop :=
  IsExtension extensionIds origin ∨ IsLoopback origin ∨
    origin.text ∈ configured

/-- What is to be admitted, with and without a header. -/
def MayConnect (bridge : Bridge) (configured : List Text) :
    Option Origin → Prop
  | none => bridge.requireOrigin = false
  | some origin => IsWelcome bridge.extensionIds configured origin

/-- A connection is admitted if and only if it is to be. -/
def Exact (bridge : Bridge) (configured : List Text)
    (header : Option Origin) : Prop :=
  checkOrigin bridge (header.map Origin.text) = none ↔
    MayConnect bridge configured header

/-- The origin adds a port to a configured origin or to a listed extension, or
an empty id is listed and the origin is an extension. -/
def IsNearlyNamed (extensionIds configured : List Text) (origin : Origin) :
    Prop :=
  (∃ named ∈ configured.filter isExactOrigin, named ++ [':'] <+: origin.text) ∨
    (∃ id ∈ extensionIds, chromeExtension id ++ [':'] <+: origin.text ∨
      mozExtension id ++ [':'] <+: origin.text) ∨
    [] ∈ extensionIds ∧ origin.scheme ∈ extensionSchemes

end Origins

section Matching

variable {origin : Origin} {scheme host : Text}

theorem append_cons_left_inj {Entry : Type} {separator : Entry}
    {first second firstRest secondRest : List Entry}
    (firstPlain : separator ∉ first) (secondPlain : separator ∉ second)
    (same : first ++ separator :: firstRest =
      second ++ separator :: secondRest) : first = second := by
  induction first generalizing second with
  | nil =>
      cases second with
      | nil => rfl
      | cons entry second =>
          obtain ⟨rfl, -⟩ := List.cons.inj same
          simp at secondPlain
  | cons entry first ih =>
      cases second with
      | nil =>
          obtain ⟨rfl, -⟩ := List.cons.inj same
          simp at firstPlain
      | cons other second =>
          obtain ⟨rfl, rest⟩ := List.cons.inj same
          simp only [List.mem_cons, not_or] at firstPlain secondPlain
          rw [ih firstPlain.2 secondPlain.2 rest]

/-- An origin starts with a scheme if it has that scheme. -/
theorem scheme_prefix_iff (plain : ':' ∉ scheme) :
    scheme ++ schemeEnd <+: origin.text ↔ origin.scheme = scheme := by
  constructor
  · rintro ⟨rest, same⟩
    have whole : origin.scheme ++
        ':' :: (['/', '/'] ++ origin.host ++ origin.portText) =
        scheme ++ ':' :: (['/', '/'] ++ rest) := by
      simpa [Origin.text, schemeEnd] using same.symm
    exact append_cons_left_inj origin.scheme_plain plain whole
  · rintro rfl
    exact ⟨origin.host ++ origin.portText, by simp [Origin.text]⟩

theorem slash_notMem (origin : Origin) :
    '/' ∉ origin.host ++ origin.portText := by
  rw [List.mem_append, not_or]
  refine ⟨origin.host_plain, ?_⟩
  cases hasPort : origin.port with
  | none => simp [Origin.portText, hasPort]
  | some port =>
      have digits := origin.port_digits port hasPort
      rw [Origin.portText, hasPort]
      intro member
      rcases List.mem_cons.mp member with colon | digit
      · exact absurd colon (by decide)
      · exact absurd (List.all_eq_true.mp digits _ digit) (by decide)

/-- No origin ends with `://`. -/
theorem not_schemeEnd_suffix (origin : Origin) :
    ¬ schemeEnd <:+ origin.text := by
  rintro ⟨before, same⟩
  have last : origin.text.getLast? = some '/' := by
    rw [← same, List.getLast?_append]
    rfl
  rw [Origin.text, List.append_assoc, List.getLast?_append_of_ne_nil _
    (by simp [origin.host_ne])] at last
  exact slash_notMem origin (List.mem_of_getLast? last)

theorem schemeEnd_inside (origin : Origin) : schemeEnd <:+: origin.text :=
  ⟨origin.scheme, origin.host ++ origin.portText, by simp [Origin.text]⟩

theorem text_ne_nil (origin : Origin) : origin.text ≠ [] := by
  simp [Origin.text, schemeEnd]

/-- Only the origins of a host are the host itself or go on with a colon. -/
theorem host_starts_iff (origin : Origin) (plain : ':' ∉ host)
    (open_ne : host.head? ≠ some '[') (nonempty : host ≠ []) :
    (origin.host ++ origin.portText = host ∨
      host ++ [':'] <+: origin.host ++ origin.portText) ↔
      origin.host = host := by
  have unbracketed : ∀ rest, origin.host ++ origin.portText = host ++ rest →
      ':' ∉ origin.host := by
    intro rest same colon
    have bracket := origin.host_bracketed colon
    have heads := congrArg List.head? same
    rw [List.head?_append_of_ne_nil _ origin.host_ne,
      List.head?_append_of_ne_nil _ nonempty, bracket] at heads
    exact open_ne heads.symm
  cases hasPort : origin.port with
  | none =>
      have noPort : origin.portText = [] := by rw [Origin.portText, hasPort]
      simp only [noPort, List.append_nil] at unbracketed ⊢
      constructor
      · rintro (same | ⟨rest, same⟩)
        · exact same
        · rw [List.append_assoc] at same
          exact absurd (by simp [← same]) (unbracketed _ same.symm)
      · exact .inl
  | some digits =>
      have port : origin.portText = ':' :: digits := by
        rw [Origin.portText, hasPort]
      simp only [port] at unbracketed ⊢
      constructor
      · rintro (same | ⟨rest, same⟩)
        · exact absurd (by simp [← same]) plain
        · rw [List.append_assoc] at same
          exact (append_cons_left_inj plain (unbracketed _ same.symm) same).symm
      · rintro rfl
        exact .inr ⟨digits, by simp⟩

theorem covers_of_not_suffix {pattern text : Text}
    (exact : ¬ schemeEnd <:+ pattern) :
    covers pattern text = true ↔
      text = pattern ∨ pattern ++ [':'] <+: text := by
  rw [covers, if_neg (by simpa using exact)]
  simp

/-- Whatever follows the scheme, the origin has it. -/
theorem scheme_eq_of_starts (plain : ':' ∉ scheme) {rest : Text}
    (starts : scheme ++ schemeEnd ++ rest <+: origin.text) :
    origin.scheme = scheme :=
  (scheme_prefix_iff plain).mp ((List.prefix_append _ _).trans starts)

theorem scheme_eq_of_named (plain : ':' ∉ scheme) {rest : Text}
    (named : origin.text = scheme ++ schemeEnd ++ rest ∨
      scheme ++ schemeEnd ++ rest ++ [':'] <+: origin.text) :
    origin.scheme = scheme := by
  rcases named with whole | starts
  · exact scheme_eq_of_starts plain ⟨[], by rw [List.append_nil, whole]⟩
  · exact scheme_eq_of_starts plain ((List.prefix_append _ _).trans starts)

/-- A pattern of a host covers the origins of that host. -/
theorem covers_host_iff (origin : Origin) (schemePlain : ':' ∉ scheme)
    (plain : ':' ∉ host) (open_ne : host.head? ≠ some '[') (nonempty : host ≠ [])
    (exact : ¬ schemeEnd <:+ scheme ++ schemeEnd ++ host) :
    covers (scheme ++ schemeEnd ++ host) origin.text = true ↔
      origin.scheme = scheme ∧ origin.host = host := by
  have hosts := host_starts_iff origin plain open_ne nonempty
  rw [covers_of_not_suffix exact]
  constructor
  · intro named
    obtain rfl := scheme_eq_of_named schemePlain named
    refine ⟨rfl, hosts.mp ?_⟩
    simpa [Origin.text] using named
  · rintro ⟨rfl, same⟩
    simpa [Origin.text] using hosts.mpr same

/-- What ends with `://` after another `://` is not the start of an origin. -/
theorem eq_nil_of_schemeEnd_suffix {id : Text}
    (ends : schemeEnd <:+ scheme ++ schemeEnd ++ id)
    (starts : scheme ++ schemeEnd ++ id <+: origin.text)
    (plain : ':' ∉ scheme) : id = [] := by
  obtain rfl := scheme_eq_of_starts plain starts
  by_contra nonempty
  obtain ⟨before, same⟩ := ends
  have last : id.getLast? = some '/' := by
    rw [← List.getLast?_append_of_ne_nil _ nonempty, ← same,
      List.getLast?_append]
    rfl
  rw [Origin.text, List.append_assoc _ origin.host,
    List.prefix_append_right_inj] at starts
  exact slash_notMem origin
    (starts.subset (List.mem_of_getLast? last))

/-- A pattern of an extension covers that extension with any port; without an id
it covers every extension of its scheme. -/
theorem covers_extension_iff (plain : ':' ∉ scheme) (id : Text) :
    covers (scheme ++ schemeEnd ++ id) origin.text = true ↔
      (origin.text = scheme ++ schemeEnd ++ id ∨
        scheme ++ schemeEnd ++ id ++ [':'] <+: origin.text) ∨
        id = [] ∧ origin.scheme = scheme := by
  by_cases ends : schemeEnd <:+ scheme ++ schemeEnd ++ id
  · rw [covers, if_pos (by simpa using ends), List.isPrefixOf_iff_prefix]
    constructor
    · intro starts
      exact .inr ⟨eq_nil_of_schemeEnd_suffix ends starts plain,
        scheme_eq_of_starts plain starts⟩
    · rintro (named | ⟨rfl, same⟩)
      · rcases named with whole | starts
        · exact ⟨[], by rw [List.append_nil, whole]⟩
        · exact (List.prefix_append _ _).trans starts
      · rw [List.append_nil]
        exact (scheme_prefix_iff plain).mpr same
  · rw [covers_of_not_suffix ends]
    exact (or_iff_left fun empty =>
      ends ⟨scheme, by rw [empty.1, List.append_nil]⟩).symm

end Matching

section Admission

variable {origin : Origin} {extensionIds configured : List Text}

theorem covers_loopback_iff (origin : Origin) :
    (covers "http://localhost".toList origin.text = true ∨
      covers "http://127.0.0.1".toList origin.text = true) ↔
      IsLoopback origin := by
  have localhost := @covers_host_iff "http".toList "localhost".toList origin
    (by decide) (by decide) (by decide) (by decide) (by decide)
  have address := @covers_host_iff "http".toList "127.0.0.1".toList origin
    (by decide) (by decide) (by decide) (by decide) (by decide)
  refine (or_congr localhost address).trans ?_
  rw [← and_or_left, IsLoopback, loopbackHosts, List.mem_pair]

theorem covers_scheme_iff (origin : Origin) {scheme : Text}
    (plain : ':' ∉ scheme) :
    covers (scheme ++ schemeEnd) origin.text = true ↔
      origin.scheme = scheme := by
  rw [covers, if_pos (by simp), List.isPrefixOf_iff_prefix,
    scheme_prefix_iff plain]

theorem isExactOrigin_text (origin : Origin) :
    isExactOrigin origin.text = true := by
  rw [isExactOrigin, Bool.and_eq_true, decide_eq_true_eq, Bool.not_eq_true',
    Bool.eq_false_iff, ne_eq, List.isSuffixOf_iff_suffix]
  exact ⟨schemeEnd_inside origin, not_schemeEnd_suffix origin⟩

theorem not_suffix_of_isExactOrigin {pattern : Text}
    (exact : isExactOrigin pattern = true) : ¬ schemeEnd <:+ pattern := by
  rw [isExactOrigin, Bool.and_eq_true, Bool.not_eq_true', Bool.eq_false_iff,
    ne_eq, List.isSuffixOf_iff_suffix] at exact
  exact exact.2

theorem covers_configured_iff (origin : Origin) (configured : List Text) :
    (∃ pattern ∈ configured.filter isExactOrigin,
      covers pattern origin.text = true) ↔
      origin.text ∈ configured ∨
        ∃ named ∈ configured.filter isExactOrigin,
          named ++ [':'] <+: origin.text := by
  constructor
  · rintro ⟨pattern, listed, covered⟩
    obtain ⟨member, exact⟩ := List.mem_filter.mp listed
    rcases (covers_of_not_suffix (not_suffix_of_isExactOrigin exact)).mp
      covered with same | port
    · exact .inl (same ▸ member)
    · exact .inr ⟨pattern, listed, port⟩
  · rintro (member | ⟨named, listed, port⟩)
    · exact ⟨origin.text, List.mem_filter.mpr ⟨member, isExactOrigin_text _⟩,
        (covers_of_not_suffix (not_schemeEnd_suffix origin)).mpr (.inl rfl)⟩
    · exact ⟨named, listed, (covers_of_not_suffix (not_suffix_of_isExactOrigin
        (List.mem_filter.mp listed).2)).mpr (.inr port)⟩

theorem covers_listed_iff (origin : Origin) (extensionIds : List Text)
    {scheme : Text} (plain : ':' ∉ scheme) :
    (∃ id ∈ extensionIds,
      covers (scheme ++ schemeEnd ++ id) origin.text = true) ↔
      origin.text ∈ extensionIds.map (scheme ++ schemeEnd ++ ·) ∨
        (∃ id ∈ extensionIds,
          scheme ++ schemeEnd ++ id ++ [':'] <+: origin.text) ∨
        [] ∈ extensionIds ∧ origin.scheme = scheme := by
  simp only [covers_extension_iff plain, List.mem_map]
  constructor
  · rintro ⟨id, member, (same | port) | ⟨rfl, schemes⟩⟩
    · exact .inl ⟨id, member, same.symm⟩
    · exact .inr (.inl ⟨id, member, port⟩)
    · exact .inr (.inr ⟨member, schemes⟩)
  · rintro (⟨id, member, same⟩ | ⟨id, member, port⟩ | ⟨member, schemes⟩)
    · exact ⟨id, member, .inl (.inl same.symm)⟩
    · exact ⟨id, member, .inl (.inr port)⟩
    · exact ⟨[], member, .inr ⟨rfl, schemes⟩⟩

theorem exists_mem_append {Holds : Text → Prop} {first second : List Text} :
    (∃ pattern ∈ first ++ second, Holds pattern) ↔
      (∃ pattern ∈ first, Holds pattern) ∨
        ∃ pattern ∈ second, Holds pattern := by
  simp only [List.mem_append, or_and_right, exists_or]

theorem exists_mem_map {Holds : Text → Prop} {ids : List Text}
    {name : Text → Text} :
    (∃ pattern ∈ ids.map name, Holds pattern) ↔
      ∃ id ∈ ids, Holds (name id) := by
  simp

theorem chromeExtension_eq (id : Text) :
    chromeExtension id = "chrome-extension".toList ++ schemeEnd ++ id := rfl

theorem mozExtension_eq (id : Text) :
    mozExtension id = "moz-extension".toList ++ schemeEnd ++ id := rfl

theorem matchOrigin_iff {allowed : List Text} :
    matchOrigin origin.text allowed = true ↔
      ∃ pattern ∈ allowed, covers pattern origin.text = true := by
  rw [matchOrigin, if_neg (text_ne_nil origin), List.any_eq_true]

theorem filter_allowed :
    (websocketAllowedOrigins ++ configured.filter isExactOrigin).filter
        (fun origin => !schemeEnd.isSuffixOf origin) =
      ["http://localhost".toList, "http://127.0.0.1".toList] ++
        configured.filter isExactOrigin := by
  have builtIn : websocketAllowedOrigins.filter
      (fun origin => !schemeEnd.isSuffixOf origin) =
      ["http://localhost".toList, "http://127.0.0.1".toList] := by decide
  rw [List.filter_append, builtIn, List.filter_filter]
  congr 1
  refine List.filter_congr fun pattern _ => ?_
  rw [isExactOrigin]
  cases schemeEnd.isSuffixOf pattern <;> simp

theorem covers_extensions_iff :
    (∃ pattern ∈ extensionIds.map chromeExtension ++
        extensionIds.map mozExtension, covers pattern origin.text = true) ↔
      (origin.text ∈ extensionIds.map chromeExtension ∨
        origin.text ∈ extensionIds.map mozExtension) ∨
      (∃ id ∈ extensionIds, chromeExtension id ++ [':'] <+: origin.text ∨
        mozExtension id ++ [':'] <+: origin.text) ∨
      [] ∈ extensionIds ∧ origin.scheme ∈ extensionSchemes := by
  have chromePlain : ':' ∉ "chrome-extension".toList := by decide
  have mozPlain : ':' ∉ "moz-extension".toList := by decide
  have chrome := covers_listed_iff origin extensionIds chromePlain
  have moz := covers_listed_iff origin extensionIds mozPlain
  simp only [← chromeExtension_eq] at chrome
  simp only [← mozExtension_eq] at moz
  rw [exists_mem_append, exists_mem_map, exists_mem_map, chrome, moz,
    or_or_or_comm]
  refine or_congr_right (or_or_or_comm.trans (or_congr ?_ ?_))
  · simp only [and_or_left, exists_or]
  · rw [← and_or_left, extensionSchemes, List.mem_pair]

theorem or_regroup {extension loopback web port others : Prop} :
    (extension ∨ others) ∨ loopback ∨ web ∨ port ↔
      (extension ∨ loopback ∨ web) ∨ port ∨ others := by
  tauto

/-- What the patterns of a bridge admit. -/
theorem matchOrigin_restricted_iff (origin : Origin)
    (extensionIds configured : List Text) :
    matchOrigin origin.text (restricted extensionIds
        (websocketAllowedOrigins ++ configured.filter isExactOrigin)) = true ↔
      IsWelcome extensionIds configured origin ∨
        IsNearlyNamed extensionIds configured origin := by
  have chromePlain : ':' ∉ "chrome-extension".toList := by decide
  have mozPlain : ':' ∉ "moz-extension".toList := by decide
  have loopback := covers_loopback_iff origin
  have named := covers_configured_iff origin configured
  rw [matchOrigin_iff, restricted, IsWelcome, IsNearlyNamed, IsExtension]
  split
  next empty =>
    subst empty
    have chrome := covers_scheme_iff origin chromePlain
    have moz := covers_scheme_iff origin mozPlain
    have builtIn : (∃ pattern ∈ websocketAllowedOrigins,
        covers pattern origin.text = true) ↔
        origin.scheme ∈ extensionSchemes ∨ IsLoopback origin := by
      rw [← loopback, extensionSchemes, List.mem_pair, ← chrome, ← moz, or_assoc]
      simp only [websocketAllowedOrigins, List.exists_mem_cons_iff,
        List.not_mem_nil, false_and, exists_false, or_false]
      rfl
    simp only [exists_mem_append, builtIn, named]
    simp [or_assoc]
  next nonempty =>
    have builtIn : (∃ pattern ∈ ["http://localhost".toList,
        "http://127.0.0.1".toList], covers pattern origin.text = true) ↔
        IsLoopback origin := by
      rw [← loopback]
      simp only [List.exists_mem_cons_iff, List.not_mem_nil, false_and,
        exists_false, or_false]
    rw [filter_allowed, exists_mem_append, covers_extensions_iff,
      exists_mem_append, builtIn, named]
    exact or_regroup

variable {repr : Json → Text} {arguments : Arguments} {config : Json}
  {bridge : Bridge}

theorem allowedOrigins_of_init (default : arguments.allowedOrigins = none)
    (read : configuredOrigins config = .ok configured)
    (built : initBridge repr arguments config = .ok bridge) :
    bridge.allowedOrigins = restricted bridge.extensionIds
      (websocketAllowedOrigins ++ configured.filter isExactOrigin) := by
  have allows : allowedOf arguments config =
      .ok (websocketAllowedOrigins ++ configured.filter isExactOrigin) := by
    rw [allowedOf, default]
    exact bind_eq_ok.mpr ⟨configured, read, rfl⟩
  obtain ⟨allowed, isAllowed, built⟩ := bind_eq_ok.mp built
  obtain rfl := Except.ok.inj (allows.symm.trans isAllowed)
  obtain ⟨ids, -, built⟩ := bind_eq_ok.mp built
  obtain rfl := Except.ok.inj built
  rfl

theorem checkOrigin_none :
    checkOrigin bridge none = none ↔ bridge.requireOrigin = false := by
  rw [checkOrigin]
  cases bridge.requireOrigin with
  | false => exact iff_of_true rfl rfl
  | true => exact iff_of_false nofun nofun

theorem checkOrigin_text :
    checkOrigin bridge (some origin.text) = none ↔
      matchOrigin origin.text bridge.allowedOrigins = true := by
  cases spelled : origin.text with
  | nil => exact absurd spelled (text_ne_nil origin)
  | cons first rest =>
      rw [checkOrigin]
      · cases matchOrigin (first :: rest) bridge.allowedOrigins with
        | false => exact iff_of_false nofun nofun
        | true => exact iff_of_true rfl rfl
      · rintro ⟨⟩

/-- The admission of a connection is exact unless its origin is close to one
that is named and not welcome by itself. -/
theorem exactAdmission_iff (header : Option Origin)
    (default : arguments.allowedOrigins = none)
    (read : configuredOrigins config = .ok configured)
    (built : initBridge repr arguments config = .ok bridge) :
    Exact bridge configured header ↔
      ∀ origin ∈ header,
        IsNearlyNamed bridge.extensionIds configured origin →
          IsWelcome bridge.extensionIds configured origin := by
  cases header with
  | none =>
      exact iff_of_true checkOrigin_none nofun
  | some origin =>
      have admitted :=
        matchOrigin_restricted_iff origin bridge.extensionIds configured
      rw [← allowedOrigins_of_init default read built] at admitted
      rw [Exact, Option.map_some, checkOrigin_text, admitted, MayConnect]
      simp

end Admission

section Examples

/-- A configuration with one paired app. -/
def pairedConfig : Json :=
  .obj [("websocket_allowed_origins".toList,
    .arr [.str "https://app.example.com".toList])]

/-- Another port of the app. -/
def otherPort : Origin where
  scheme := "https".toList
  host := "app.example.com".toList
  port := some "8443".toList
  scheme_plain := by decide
  host_ne := by decide
  host_plain := by decide
  host_bracketed := by decide
  port_digits := by decide

def pairedBridge : Bridge where
  allowedOrigins := websocketAllowedOrigins ++
    ["https://app.example.com".toList]
  extensionIds := []
  requireOrigin := false

theorem configuredOrigins_paired :
    configuredOrigins pairedConfig =
      .ok ["https://app.example.com".toList] := rfl

theorem initBridge_paired (repr : Json → Text) :
    initBridge repr {} pairedConfig = .ok pairedBridge := by
  have configured : allowedOf {} pairedConfig =
      .ok (websocketAllowedOrigins ++ ["https://app.example.com".toList]) := by
    have kept : ["https://app.example.com".toList].filter isExactOrigin =
        ["https://app.example.com".toList] := by decide
    rw [allowedOf, configuredOrigins_paired, ok_bind, kept]
    rfl
  rw [initBridge, configured]
  rfl

theorem exactAdmission_iff_otherPort :
    Exact pairedBridge ["https://app.example.com".toList] (some otherPort) ↔
      ∀ origin ∈ some otherPort,
        IsNearlyNamed [] ["https://app.example.com".toList] origin →
          IsWelcome [] ["https://app.example.com".toList] origin :=
  exactAdmission_iff (some otherPort) rfl configuredOrigins_paired
    (initBridge_paired fun _ => [])

/-- Another port of a configured origin is admitted. -/
theorem not_exactAdmission :
    initBridge (fun _ => []) {} pairedConfig = .ok pairedBridge ∧
      ¬ Exact pairedBridge ["https://app.example.com".toList]
        (some otherPort) := by
  refine ⟨initBridge_paired _, fun exact => ?_⟩
  have welcome : IsWelcome [] ["https://app.example.com".toList] otherPort :=
    exact.mp (by decide)
  rcases welcome with extension | loopback | configured
  · rw [IsExtension, if_pos rfl] at extension
    exact absurd extension (by decide)
  · exact absurd loopback.1 (by decide)
  · exact absurd configured (by decide)

end Examples

end BridgeOrigins

end RefinetPillars
