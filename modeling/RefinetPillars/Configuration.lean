import RefinetPillars.DecimalText
import RefinetPillars.DictUpdates
import RefinetPillars.JsonText
import RefinetPillars.LineText
import RefinetPillars.RunHistory

/-!
# The configuration of a Pillar

A setting comes from the environment, the file of settings or the defaults, in
this order.  The file is written when there is none, and whenever a Pillar is
started without a terminal; what the environment says is never written to it,
apart from what the latter asserts.
-/

namespace RefinetPillars

namespace Configuration

open HexText LineText DecimalText JsonText OrderedDict RunHistory

section Settings

abbrev Config := Dict Text Json

/-- The variables of the environment. -/
abbrev Environ := Text → Option Text

def gopherPort : Int := 7070

def protocolVersion : Text := "0.6.0".toList

def torDefaults : List (Text × Json) :=
  [("tor_enabled".toList, .bool false),
    ("tor_expose_port_70".toList, .bool true),
    ("tor_socks_port".toList, .int 9050),
    ("tor_control_port".toList, .int 9051)]

def websocketDefaults : List (Text × Json) :=
  [("websocket_extension_ids".toList, .arr []),
    ("websocket_require_origin".toList, .bool false),
    ("websocket_host".toList, .str "127.0.0.1".toList),
    ("websocket_allowed_origins".toList, .arr [])]

def publicDefaults : List (Text × Json) :=
  [("public_domain".toList, .str []),
    ("linked_domains".toList, .arr []),
    ("http_gateway_enabled".toList, .bool false),
    ("http_gateway_host".toList, .str "127.0.0.1".toList),
    ("http_gateway_port".toList, .int 7080),
    ("http_gateway_cors_origins".toList, .arr []),
    ("http_gateway_trust_proxy".toList, .bool false)]

def stakingDefaults : List (Text × Json) :=
  [("staking_chain_id".toList, .int 50),
    ("contract_wallet_chain_ids".toList, .arr []),
    ("staking_contracts".toList, .arr []),
    ("staking_rpc".toList, .str []),
    ("mesh_require_stake".toList, .bool false),
    ("chain_discovery_enabled".toList, .bool true)]

/-- How the value of a variable is read. -/
inductive Kind where
  | str
  | int
  | bool
  | list

/-- A variable, and the setting that it overrides. -/
structure Override where
  var : Text
  key : Text
  kind : Kind

def envOverrides : List Override :=
  [⟨"REFINET_PUBLIC_DOMAIN".toList, "public_domain".toList, .str⟩,
    ⟨"REFINET_LINKED_DOMAINS".toList, "linked_domains".toList, .list⟩,
    ⟨"REFINET_HTTP_GATEWAY".toList, "http_gateway_enabled".toList, .bool⟩,
    ⟨"REFINET_HTTP_GATEWAY_HOST".toList, "http_gateway_host".toList, .str⟩,
    ⟨"REFINET_HTTP_GATEWAY_PORT".toList, "http_gateway_port".toList, .int⟩,
    ⟨"REFINET_HTTP_TRUST_PROXY".toList, "http_gateway_trust_proxy".toList,
      .bool⟩,
    ⟨"REFINET_CORS_ORIGINS".toList, "http_gateway_cors_origins".toList,
      .list⟩,
    ⟨"REFINET_WEBSOCKET_HOST".toList, "websocket_host".toList, .str⟩,
    ⟨"REFINET_WEBSOCKET_ORIGINS".toList, "websocket_allowed_origins".toList,
      .list⟩,
    ⟨"REFINET_STAKING_CHAIN_ID".toList, "staking_chain_id".toList, .int⟩,
    ⟨"REFINET_CONTRACT_WALLET_CHAINS".toList,
      "contract_wallet_chain_ids".toList, .list⟩,
    ⟨"REFINET_STAKING_CONTRACTS".toList, "staking_contracts".toList, .list⟩,
    ⟨"REFINET_STAKING_RPC".toList, "staking_rpc".toList, .str⟩,
    ⟨"REFINET_MESH_REQUIRE_STAKE".toList, "mesh_require_stake".toList, .bool⟩,
    ⟨"REFINET_CHAIN_DISCOVERY".toList, "chain_discovery_enabled".toList,
      .bool⟩,
    ⟨"REFINET_PILLAR_NAME".toList, "pillar_name".toList, .str⟩]

/-- What is taken from Python: lower case, and how many digits are too many. -/
structure Environment where
  lower : Text → Text
  tooLong : Text → Bool

variable (env : Environment)

/-- `int` of a text. -/
def intOf (raw : Text) : Option Int :=
  if env.tooLong raw then none else int raw

def trueWords : List Text :=
  ["1".toList, "true".toList, "yes".toList, "on".toList]

/-- A number that cannot be read overrides nothing. -/
def Kind.read (kind : Kind) (raw : Text) : Option Json :=
  match kind with
  | .str => some (.str raw)
  | .int => (intOf env raw).map .int
  | .bool => some (.bool (decide (env.lower raw ∈ trueWords)))
  | .list =>
      some (.arr ((((raw.splitOn ',').map strip).filter (· ≠ [])).map .str))

def Override.value (override : Override) (environ : Environ) : Option Json :=
  (environ override.var).bind fun raw =>
    override.kind.read env (strip raw)

/-- The settings that the environment overrides. -/
def envValues (environ : Environ) : List (Text × Json) :=
  envOverrides.filterMap fun override =>
    (override.value env environ).map fun value => (override.key, value)

def applyEnvOverrides (environ : Environ) (cfg : Config) : Config :=
  cfg.update (envValues env environ)

def mergedDefaults : List (Text × Json) :=
  torDefaults ++ websocketDefaults ++ publicDefaults ++ stakingDefaults ++
    [("discovery_require_signed".toList, .bool false)]

def mergeDefaults (cfg : Config) : Config := cfg.setDefaults mergedDefaults

/-- What is written when there are no settings. -/
def firstSettings : Config :=
  Dict.empty.update
    ([("hostname".toList, .str "localhost".toList),
      ("port".toList, .int gopherPort),
      ("pillar_name".toList, .str "My REFInet Pillar".toList),
      ("description".toList, .str "A sovereign node in Gopherspace".toList),
      ("protocol_version".toList, .str protocolVersion)] ++
      torDefaults ++ websocketDefaults ++
      [("discovery_require_signed".toList, .bool false)])

end Settings

section Files

/-- The file of settings: it may be missing, no text, no JSON or no
dictionary. -/
inductive File where
  | absent
  | undecodable
  | malformed
  | other
  | settings (cfg : Config)

/-- How a file is written; a write that is cut off leaves no JSON. -/
inductive Write where
  | done
  | refused
  | cutOff

inductive Raised where
  | osError
  | unicodeError
  | attributeError
  | valueError

structure Load where
  environ : Environ
  readable : Bool
  write : Write

variable (env : Environment)

def writeSettings (write : Write) (cfg : Config) (file : File) :
    File × Except Raised Unit :=
  match write with
  | .done => (.settings cfg, .ok ())
  | .refused => (file, .error .osError)
  | .cutOff => (.malformed, .error .osError)

/-- The settings as they are in force. -/
def inForce (environ : Environ) (cfg : Config) : Config :=
  applyEnvOverrides env environ (mergeDefaults cfg)

/-- The settings of the first start are written over a file that cannot be
read. -/
def createSettings (load : Load) (file : File) :
    File × Except Raised Config :=
  match writeSettings load.write firstSettings file with
  | (next, .ok _) => (next, .ok (inForce env load.environ firstSettings))
  | (next, .error raised) => (next, .error raised)

def loadConfig (load : Load) (file : File) : File × Except Raised Config :=
  match file, load.readable with
  | .settings cfg, true => (file, .ok (inForce env load.environ cfg))
  | .undecodable, true => (file, .error .unicodeError)
  | .other, true => (file, .error .attributeError)
  | _, _ => createSettings env load file

/-- A start without a terminal. -/
structure Headless where
  environ : Environ
  readable : Bool
  write : Write

def variableOr (environ : Environ) (name : String) (default : Text) : Text :=
  (environ name.toList).getD default

/-- The key of the Pillar comes with the environment. -/
def bootstrapMode (environ : Environ) : Bool :=
  decide (variableOr environ "REFINET_PID_JSON" [] ≠ [])

def defaultHost (environ : Environ) : Text :=
  if bootstrapMode environ then "gopher.refinet.io".toList
  else
    match variableOr environ "REFINET_PUBLIC_DOMAIN" [] with
    | [] => "localhost".toList
    | domain => domain

def defaultName (environ : Environ) : Text :=
  if bootstrapMode environ then "REFInet Bootstrap Pillar".toList
  else "REFInet Pillar".toList

def defaultDescription (environ : Environ) : Text :=
  if bootstrapMode environ then
    "The canonical REFInet bootstrap node. gopher://gopher.refinet.io:7070".toList
  else "A sovereign node in Gopherspace".toList

/-- The settings that a start without a terminal asserts. -/
def asserted (environ : Environ) : Except Raised (List (Text × Json)) :=
  match intOf env (variableOr environ "REFINET_PORT" "7070".toList) with
  | none => .error .valueError
  | some port => .ok
      [("hostname".toList, .str
          (variableOr environ "REFINET_HOSTNAME" (defaultHost environ))),
        ("port".toList, .int port),
        ("pillar_name".toList, .str
          (variableOr environ "REFINET_PILLAR_NAME" (defaultName environ))),
        ("description".toList, .str (defaultDescription environ)),
        ("protocol_version".toList, .str protocolVersion),
        ("tor_enabled".toList, .bool false),
        ("websocket_enabled".toList, .bool false)]

def readSettings (readable : Bool) (file : File) : Except Raised Config :=
  match file, readable with
  | .settings cfg, true => .ok cfg
  | .undecodable, true => .error .unicodeError
  | .other, true => .error .attributeError
  | _, _ => .ok .empty

/-- The third step of `headless_start`. -/
def assertSettings (start : Headless) (file : File) :
    File × Except Raised Unit :=
  match readSettings start.readable file with
  | .error raised => (file, .error raised)
  | .ok cfg =>
      match asserted env start.environ with
      | .error raised => (file, .error raised)
      | .ok values => writeSettings start.write (cfg.update values) file

inductive Input where
  | load (load : Load)
  | headless (start : Headless)

def Input.apply (input : Input) (file : File) : File :=
  match input with
  | .load given => (loadConfig env given file).1
  | .headless start => (assertSettings env start file).1

/-- The file can be read, and is not cut off where it is written. -/
def Input.IsIntact : Input → Prop
  | .load given => given.readable = true
  | .headless start => start.readable = true ∧ start.write ≠ .cutOff

/-- What the newest start without a terminal has asserted. -/
def newestAsserted : List Input → List (Text × Json)
  | [] => []
  | .load _ :: earlier => newestAsserted earlier
  | .headless start :: earlier =>
      match start.write, asserted env start.environ with
      | .done, .ok values => values
      | _, _ => newestAsserted earlier

end Files

section Lookups

variable {env : Environment} {environ : Environ}

theorem keys_envValues (env : Environment) (environ : Environ) :
    ((envValues env environ).map Prod.fst).Nodup := by
  have whole : (envOverrides.map Override.key).Nodup := by decide
  refine whole.sublist ?_
  unfold envValues
  generalize envOverrides = overrides
  induction overrides with
  | nil => exact .slnil
  | cons override overrides ih =>
      rw [List.filterMap_cons]
      cases override.value env environ with
      | none => exact ih.cons _
      | some value => exact ih.cons_cons _

/-- The environment comes before the file, and the file before the defaults. -/
theorem get?_inForce (cfg : Config) (key : Text) :
    (inForce env environ cfg).get? key =
      (Dict.valueIn key (envValues env environ)).or
        ((cfg.get? key).or (Dict.valueIn key mergedDefaults)) := by
  rw [inForce, applyEnvOverrides,
    Dict.get?_update (keys_envValues env environ), mergeDefaults,
    Dict.get?_setDefaults]

def assertedKeys : List Text :=
  ["hostname".toList, "port".toList, "pillar_name".toList,
    "description".toList, "protocol_version".toList, "tor_enabled".toList,
    "websocket_enabled".toList]

theorem keys_asserted {values : List (Text × Json)}
    (isAsserted : asserted env environ = .ok values) :
    values.map Prod.fst = assertedKeys := by
  unfold asserted at isAsserted
  split at isAsserted
  · cases isAsserted
  · rw [← Except.ok.inj isAsserted]
    rfl

/-- The newest start asserts every setting that one before it has asserted. -/
theorem valueIn_asserted {values older : List (Text × Json)} {key : Text}
    (newer : values.map Prod.fst = assertedKeys)
    (before : older = [] ∨ older.map Prod.fst = assertedKeys)
    (held : Option Json) :
    (Dict.valueIn key values).or ((Dict.valueIn key older).or held) =
      (Dict.valueIn key values).or held := by
  cases found : Dict.valueIn key values with
  | some value => rfl
  | none =>
      have absent : key ∉ assertedKeys := by
        rw [← newer, ← Dict.valueIn_eq_none_iff, found]
      have none : Dict.valueIn key older = none := by
        rcases before with rfl | isOlder
        · rfl
        · rw [← isOlder, ← Dict.valueIn_eq_none_iff] at absent
          exact absent
      rw [none]
      rfl

theorem keys_newestAsserted (env : Environment) (inputs : List Input) :
    newestAsserted env inputs = [] ∨
      (newestAsserted env inputs).map Prod.fst = assertedKeys := by
  induction inputs with
  | nil => exact .inl rfl
  | cons input earlier ih =>
      cases input with
      | load load => exact ih
      | headless start =>
          unfold newestAsserted
          split
          next isAsserted => exact .inr (keys_asserted isAsserted)
          next => exact ih

end Lookups

section Runs

variable {env : Environment} {initial : Config} {inputs : List Input}

/-- The file has the settings that it had, apart from what starts without a
terminal have asserted. -/
def Holds (env : Environment) (initial : Config) (inputs : List Input)
    (cfg : Config) : Prop :=
  ∀ key, cfg.get? key =
    (Dict.valueIn key (newestAsserted env inputs)).or (initial.get? key)

theorem holds_update {start : Headless} {cfg : Config}
    {values : List (Text × Json)} (holds : Holds env initial inputs cfg)
    (isDone : start.write = .done)
    (isAsserted : asserted env start.environ = .ok values) :
    Holds env initial (.headless start :: inputs) (cfg.update values) := by
  intro key
  have newest : newestAsserted env (.headless start :: inputs) = values := by
    rw [newestAsserted, isDone, isAsserted]
  have keys := keys_asserted isAsserted
  have unique : (values.map Prod.fst).Nodup := keys ▸ (by decide)
  rw [newest, Dict.get?_update unique, holds key]
  exact valueIn_asserted keys (keys_newestAsserted env inputs) _

theorem holds_idle {start : Headless} {cfg : Config}
    (holds : Holds env initial inputs cfg)
    (idle : start.write ≠ .done ∨
      ∀ values, asserted env start.environ ≠ .ok values) :
    Holds env initial (.headless start :: inputs) cfg := by
  have same : newestAsserted env (.headless start :: inputs) =
      newestAsserted env inputs := by
    rw [newestAsserted]
    split
    next isDone isAsserted =>
      rcases idle with undone | refused
      · exact absurd isDone undone
      · exact absurd isAsserted (refused _)
    next => rfl
  intro key
  rw [same]
  exact holds key

theorem exists_settings_run (env : Environment) (initial : Config)
    (intact : ∀ input ∈ inputs, input.IsIntact) :
    ∃ cfg, run (Input.apply env) (.settings initial) inputs = .settings cfg ∧
      Holds env initial inputs cfg := by
  induction inputs with
  | nil => exact ⟨initial, rfl, fun key => rfl⟩
  | cons input earlier ih =>
      obtain ⟨cfg, isFile, holds⟩ := ih fun other member =>
        intact other (.tail _ member)
      have whole := intact input (.head _)
      rw [run_cons, isFile]
      cases input with
      | load load =>
          have readable : load.readable = true := whole
          refine ⟨cfg, ?_, holds⟩
          simp only [Input.apply, loadConfig, readable]
      | headless start =>
          obtain ⟨readable, uncut⟩ := whole
          simp only [Input.apply, assertSettings, readSettings, readable]
          cases isAsserted : asserted env start.environ with
          | error raised =>
              exact ⟨cfg, rfl, holds_idle holds (.inr fun values done => by
                cases isAsserted.symm.trans done)⟩
          | ok values =>
              cases isWrite : start.write with
              | done => exact ⟨_, rfl, holds_update holds isWrite isAsserted⟩
              | refused =>
                  exact ⟨cfg, rfl, holds_idle holds (.inl (by simp [isWrite]))⟩
              | cutOff => exact absurd isWrite uncut

/-- A Pillar begins with the settings in its file, or with those that its
first start has written. -/
inductive Begins (env : Environment) : File → Config → Prop where
  | kept (cfg : Config) : Begins env (.settings cfg) cfg
  | created {first : Load} (isDone : first.write = .done) :
      Begins env (loadConfig env first .absent).1 firstSettings

theorem Begins.eq_settings {start : File} (begins : Begins env start initial) :
    start = .settings initial := by
  cases begins with
  | kept => rfl
  | created isDone =>
      simp only [loadConfig, createSettings, writeSettings, isDone]

/-- Where each setting comes from.  However often a Pillar was started, and
whatever its environment said then, a setting is what the environment of the
moment says, or else what the newest start without a terminal has asserted, or
else what the file said at first, or else the default. -/
theorem config_settled {start : File} (begins : Begins env start initial)
    (intact : ∀ input ∈ inputs, input.IsIntact)
    {load : Load} (readable : load.readable = true) :
    ∃ cfg, loadConfig env load (run (Input.apply env) start inputs) =
        (run (Input.apply env) start inputs, .ok cfg) ∧
      ∀ key, cfg.get? key =
        (Dict.valueIn key (envValues env load.environ)).or
          ((Dict.valueIn key (newestAsserted env inputs)).or
            ((initial.get? key).or (Dict.valueIn key mergedDefaults))) := by
  rw [begins.eq_settings]
  obtain ⟨cfg, isFile, holds⟩ := exists_settings_run env initial intact
  refine ⟨inForce env load.environ cfg, ?_, fun key => ?_⟩
  · rw [isFile]
    simp only [loadConfig, readable]
  · rw [get?_inForce, holds key, Option.or_assoc]

def plainEnvironment : Environment := ⟨id, fun _ => false⟩

def noVariables : Environ := fun _ => none

/-- A Pillar that is to require stakes. -/
def strictVariables : Environ := fun name =>
  if name = "REFINET_MESH_REQUIRE_STAKE".toList then some "1".toList else none

theorem config_settled_strict :
    let start := (loadConfig plainEnvironment ⟨noVariables, true, .done⟩
      .absent).1
    let inputs : List Input := [.load ⟨strictVariables, true, .refused⟩,
      .headless ⟨strictVariables, true, .done⟩]
    ∃ cfg, loadConfig plainEnvironment ⟨noVariables, true, .done⟩
        (run (Input.apply plainEnvironment) start inputs) =
          (run (Input.apply plainEnvironment) start inputs, .ok cfg) ∧
      ∀ key, cfg.get? key =
        (Dict.valueIn key (envValues plainEnvironment noVariables)).or
          ((Dict.valueIn key (newestAsserted plainEnvironment inputs)).or
            ((firstSettings.get? key).or
              (Dict.valueIn key mergedDefaults))) := by
  intro start inputs
  have intact : ∀ input ∈ inputs, input.IsIntact := by
    simp only [inputs, List.forall_mem_cons, List.not_mem_nil, false_implies,
      implies_true, and_true]
    exact ⟨rfl, rfl, by simp⟩
  exact config_settled (.created rfl) intact rfl

end Runs

end Configuration

end RefinetPillars
