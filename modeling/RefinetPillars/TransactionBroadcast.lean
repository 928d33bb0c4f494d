import RefinetPillars.DecimalText
import RefinetPillars.RlpEncoding

/-!
# Broadcasting transactions

A signed transaction is handed to an endpoint of some chain.  Where the request
does not name the chain, it is read from the transaction itself.
-/

namespace RefinetPillars

namespace TransactionBroadcast

open HexText LineText DecimalText RlpEncoding

section Definitions

/-- What the program takes from elsewhere: the reader of recursive length
prefixes, whether `web3` is installed, which sessions are valid, the endpoints
of the configuration and of the built-in chains, and what an endpoint answers to
a transaction. -/
structure Environment where
  rlpDecode : List UInt8 → Option Item
  web3Available : Bool
  validSession : Text → Bool
  config : Int → List Text
  defaultChains : Int → Option Text
  sendRawTransaction : Text → List UInt8 → Except Text Text

/-- The reader finds exactly the items that are encoded. -/
def Environment.DecodesExactly (env : Environment) : Prop :=
  ∀ encoded item, env.rlpDecode encoded = some item ↔
    encode item = some encoded

variable (env : Environment)

/-- The chain of a transaction whose first byte is its type. -/
def typedChainId (payload : List UInt8) : Nat :=
  match env.rlpDecode payload with
  | some (.list (.bytes chainId :: _)) =>
      if chainId = [] then 1 else fromBigEndian chainId
  | _ => 1

/-- The chain of a transaction without a type. -/
def legacyChainId (raw : List UInt8) : Nat :=
  match env.rlpDecode raw with
  | some (.list fields) =>
      match (fields[6]? : Option Item) with
      | some (.bytes recovery) =>
          let v := if recovery = [] then 27 else fromBigEndian recovery
          if 35 ≤ v then (v - 35) / 2 else 1
      | _ => 1
  | _ => 1

/-- `bytes.fromhex` of a text without `0x`. -/
def rawTransaction (signedTxHex : Text) : Option (List UInt8) :=
  fromHex (removeAll "0x".toList signedTxHex)

def extractChainIdFromTx (signedTxHex : Text) : Nat :=
  match rawTransaction signedTxHex with
  | none | some [] => 1
  | some (first :: payload) =>
      if first = 1 ∨ first = 2 then typedChainId env payload
      else legacyChainId env (first :: payload)

inductive Refusal where
  | usage
  | pipeFormat
  | notANumber
  | missingWeb3
  | unauthorized
  | noEndpoint (chainId : Int)
  | notHexadecimal

/-- The text of a refusal, up to that of an exception of the interpreter. -/
def Refusal.message : Refusal → Text
  | .usage =>
      ("Usage: session_id:signed_tx_hex or " ++
        "session_id|chain_id|signed_tx_hex").toList
  | .pipeFormat => "Pipe format: session_id|chain_id|signed_tx_hex".toList
  | .missingWeb3 => "RPC requires: pip install web3".toList
  | .unauthorized =>
      ("Auth required: Valid SIWE session required to broadcast " ++
        "transactions").toList
  | .noEndpoint chainId =>
      "Broadcast error: No RPC endpoint configured for chain ".toList ++
        intText chainId
  | .notANumber | .notHexadecimal => "Broadcast error: ".toList

/-- A request is refused, or the bytes are submitted to an endpoint. -/
inductive Outcome where
  | refused (refusal : Refusal)
  | submitted (chainId : Int) (endpoint : Text) (raw : List UInt8)
      (answer : Except Text Text)

/-- The endpoints of a chain; only the first one is used. -/
def endpointsOf (chainId : Int) : List Text :=
  match env.config chainId with
  | [] => (env.defaultChains chainId).toList
  | endpoints => endpoints

/-- `RPCGateway.broadcast`. -/
def broadcast (chainId : Int) (signedTxHex sessionId : Text) : Outcome :=
  if env.validSession sessionId then
    match endpointsOf env chainId with
    | [] => .refused (.noEndpoint chainId)
    | endpoint :: _ =>
        match rawTransaction signedTxHex with
        | none => .refused .notHexadecimal
        | some raw =>
            .submitted chainId endpoint raw
              (env.sendRawTransaction endpoint raw)
  else .refused .unauthorized

def afterFirst (separator : Char) (text : Text) : Text :=
  (text.dropWhile fun character => character ≠ separator).drop 1

/-- What follows the first tab, or else the first question mark. -/
def queryOf (selector : Text) : Text :=
  match afterFirst (Char.ofNat 9) selector with
  | [] => afterFirst '?' selector
  | query => query

structure Request where
  sessionId : Text
  chainId : Int
  signedTx : Text

def parsePipes (query : Text) : Except Refusal Request :=
  match (strip query).splitOn '|' with
  | [sessionId, chainId, signedTx] =>
      match int (strip chainId) with
      | some chainId => .ok ⟨strip sessionId, chainId, strip signedTx⟩
      | none => .error .notANumber
  | _ => .error .pipeFormat

/-- The transaction after the first colon. -/
def colonTx (query : Text) : Text := strip (afterColon (strip query))

def parseQuery (query : Text) : Except Refusal Request :=
  if query = [] then .error .usage
  else if '|' ∈ query then parsePipes query
  else if ':' ∈ query then
    .ok ⟨strip (beforeColon (strip query)),
      extractChainIdFromTx env (colonTx query), colonTx query⟩
  else .error .usage

/-- The route `/rpc/broadcast`. -/
def route (selector : Text) : Outcome :=
  match parseQuery env (queryOf selector) with
  | .error refusal => .refused refusal
  | .ok request =>
      if env.web3Available then
        broadcast env request.chainId request.signedTx request.sessionId
      else .refused .missingWeb3

end Definitions

section Transactions

/-- How a transaction is wrapped. -/
inductive Envelope where
  | legacy
  | typed (type : UInt8)

/-- The bytes of a signed transaction that commits to a chain. -/
inductive CommitsTo : Envelope → List UInt8 → Nat → Prop where
  | legacy (chainId parity : Nat) (fields rest : List Item) (raw : List UInt8)
      (binary : parity < 2) (six : fields.length = 6)
      (written : encode (.list (fields ++
        .bytes (minimalBytes (chainId * 2 + 35 + parity)) :: rest)) =
          some raw) :
      CommitsTo .legacy raw chainId
  | typed (type : UInt8) (chainId : Nat) (fields : List Item)
      (payload : List UInt8) (small : type.toNat < 128)
      (written : encode (.list (.bytes (minimalBytes chainId) :: fields)) =
        some payload) :
      CommitsTo (.typed type) (type :: payload) chainId

/-- Whether the chain is read from the transaction. -/
def isRead (chainId : Nat) : Envelope → Bool
  | .legacy => true
  | .typed type => decide (type = 1 ∨ type = 2) && decide (chainId ≠ 0)

/-- The chain that is read, or the fallback. -/
def readChain (envelope : Envelope) (chainId : Nat) : Nat :=
  if isRead chainId envelope then chainId else 1

variable {env : Environment} {envelope : Envelope} {raw : List UInt8}
  {chainId : Nat}

theorem typedChainId_of_encode (exact : env.DecodesExactly)
    {fields : List Item} {payload : List UInt8}
    (written : encode (.list (.bytes (minimalBytes chainId) :: fields)) =
      some payload) :
    typedChainId env payload = if chainId = 0 then 1 else chainId := by
  rw [typedChainId, (exact _ _).mpr written]
  simp only [minimalBytes_eq_nil, fromBigEndian_minimalBytes]

theorem legacyChainId_of_encode (exact : env.DecodesExactly) {parity : Nat}
    {fields rest : List Item} (binary : parity < 2) (six : fields.length = 6)
    (written : encode (.list (fields ++
      .bytes (minimalBytes (chainId * 2 + 35 + parity)) :: rest)) = some raw) :
    legacyChainId env raw = chainId := by
  have seventh : (fields ++
      .bytes (minimalBytes (chainId * 2 + 35 + parity)) :: rest)[6]? =
      some (.bytes (minimalBytes (chainId * 2 + 35 + parity))) := by
    rw [List.getElem?_append_right six.le, six]
    rfl
  have nonempty : minimalBytes (chainId * 2 + 35 + parity) ≠ [] := by
    rw [Ne, minimalBytes_eq_nil]
    omega
  rw [legacyChainId, (exact _ _).mpr written]
  simp only [seventh, if_neg nonempty, fromBigEndian_minimalBytes]
  rw [if_pos (by omega)]
  omega

/-- No item starts with the byte of a type. -/
theorem legacyChainId_of_typed (exact : env.DecodesExactly) {type : UInt8}
    {items : List Item} {payload : List UInt8} (small : type.toNat < 128)
    (written : encode (.list items) = some payload) :
    legacyChainId env (type :: payload) = 1 := by
  obtain ⟨first, tail, rfl, -⟩ := exists_cons_of_encode_list written
  have refused : env.rlpDecode (type :: first :: tail) = none := by
    cases found : env.rlpDecode (type :: first :: tail) with
    | none => rfl
    | some item =>
        have empty := eq_nil_of_encode_small ((exact _ _).mp found) small
        cases empty
  rw [legacyChainId, refused]

/-- The chain that is read from a transaction. -/
theorem extractChainIdFromTx_of_commits (exact : env.DecodesExactly)
    (commits : CommitsTo envelope raw chainId) {signedTxHex : Text}
    (carries : rawTransaction signedTxHex = some raw) :
    extractChainIdFromTx env signedTxHex = readChain envelope chainId := by
  rw [extractChainIdFromTx, carries]
  cases commits with
  | legacy _ parity fields rest _ binary six written =>
      obtain ⟨first, tail, rfl, large⟩ := exists_cons_of_encode_list written
      have untyped : ¬ (first = 1 ∨ first = 2) := by
        rintro (rfl | rfl)
        · exact absurd large (by decide)
        · exact absurd large (by decide)
      exact (if_neg untyped).trans
        (legacyChainId_of_encode exact binary six written)
  | typed type _ fields payload small written =>
      by_cases known : type = 1 ∨ type = 2
      · refine (if_pos known).trans
          ((typedChainId_of_encode exact written).trans ?_)
        by_cases zero : chainId = 0 <;> simp [readChain, isRead, known, zero]
      · refine (if_neg known).trans
          ((legacyChainId_of_typed exact small written).trans ?_)
        simp [readChain, isRead, known]

theorem route_colon {selector : Text} (noPipe : '|' ∉ queryOf selector)
    (colon : ':' ∈ queryOf selector) :
    route env selector =
      if env.web3Available then
        broadcast env
          (extractChainIdFromTx env (colonTx (queryOf selector)))
          (colonTx (queryOf selector))
          (strip (beforeColon (strip (queryOf selector))))
      else .refused .missingWeb3 := by
  rw [route, parseQuery, if_neg (List.ne_nil_of_mem colon), if_neg noPipe,
    if_pos colon]

/-- What is submitted goes to an endpoint of the chain that is asked for. -/
theorem broadcast_cases {signedTxHex : Text}
    (carries : rawTransaction signedTxHex = some raw) (target : Int)
    (sessionId : Text) :
    (∃ refusal, broadcast env target signedTxHex sessionId =
      .refused refusal) ∨
      ∃ endpoint ∈ endpointsOf env target, ∃ answer,
        broadcast env target signedTxHex sessionId =
          .submitted target endpoint raw answer := by
  rw [broadcast, carries]
  split
  next =>
    split
    next => exact .inl ⟨_, rfl⟩
    next endpoint others listed =>
      exact .inr ⟨endpoint, by simp [listed], _, rfl⟩
  next => exact .inl ⟨_, rfl⟩

/-- A request in the colon format is refused, or its bytes are submitted to an
endpoint of the chain that is read from them. -/
theorem route_readChain (exact : env.DecodesExactly)
    (commits : CommitsTo envelope raw chainId) {selector : Text}
    (noPipe : '|' ∉ queryOf selector) (colon : ':' ∈ queryOf selector)
    (carries : rawTransaction (colonTx (queryOf selector)) = some raw) :
    (∃ refusal, route env selector = .refused refusal) ∨
      ∃ endpoint ∈ endpointsOf env (readChain envelope chainId), ∃ answer,
        route env selector =
          .submitted (readChain envelope chainId) endpoint raw answer := by
  rw [route_colon noPipe colon,
    extractChainIdFromTx_of_commits exact commits carries]
  split
  next => exact broadcast_cases carries _ _
  next => exact .inl ⟨_, rfl⟩

end Transactions

section Examples

/-- Two chains, every session, and an endpoint that takes everything. -/
def publicEnvironment : Environment where
  rlpDecode := decode
  web3Available := true
  validSession _ := true
  config chainId :=
    if chainId = 1 then ["https://eth.llamarpc.com".toList]
    else if chainId = 137 then ["https://polygon-rpc.com".toList]
    else []
  defaultChains _ := none
  sendRawTransaction _ _ := .ok []

theorem decodesExactly_public : publicEnvironment.DecodesExactly :=
  fun _ _ => decode_eq_some_iff

/-- A legacy transaction of chain 137. -/
def legacySelector : Text :=
  ("/rpc/broadcast?session:0xcb808080808080" ++ "8201350101").toList

def legacyTransaction : List UInt8 :=
  [0xcb, 0x80, 0x80, 0x80, 0x80, 0x80, 0x80, 0x82, 0x01, 0x35, 0x01, 0x01]

theorem minimalBytes_137 : minimalBytes 137 = [137] := by
  rw [minimalBytes_of_pos (by omega)]
  simp

theorem minimalBytes_309 : minimalBytes 309 = [1, 53] := by
  rw [minimalBytes_of_pos (by omega), minimalBytes_of_pos (by omega)]
  simp

theorem commitsTo_legacy : CommitsTo .legacy legacyTransaction 137 := by
  refine .legacy 137 0 (List.replicate 6 (.bytes []))
    [.bytes [1], .bytes [1]] _ (by omega) rfl ?_
  rw [minimalBytes_309]
  rfl

theorem route_readChain_legacy :
    (∃ refusal, route publicEnvironment legacySelector = .refused refusal) ∨
      ∃ endpoint ∈ endpointsOf publicEnvironment (readChain .legacy 137),
        ∃ answer, route publicEnvironment legacySelector =
          .submitted (readChain .legacy 137) endpoint legacyTransaction answer :=
  route_readChain decodesExactly_public commitsTo_legacy (by decide) (by decide)
    (by decide)

/-- A blob transaction (type 3) of chain 137. -/
def blobTransaction : List UInt8 :=
  [0x03, 0xe3, 0x81, 0x89, 0x80, 0x80, 0x80, 0x80, 0x94] ++
    List.replicate 20 0x11 ++
    [0x80, 0x80, 0xc0, 0x80, 0xc0, 0x80, 0x01, 0x01]

def blobSelector : Text :=
  ("/rpc/broadcast?session:0x03e381898080808094" ++
    "1111111111111111111111111111111111111111" ++ "8080c080c0800101").toList

theorem commitsTo_blob : CommitsTo (.typed 3) blobTransaction 137 := by
  refine .typed 3 137 (List.replicate 4 (.bytes []) ++
    [.bytes (List.replicate 20 0x11), .bytes [], .bytes [], .list [],
      .bytes [], .list [], .bytes [], .bytes [1], .bytes [1]]) _
    (by decide) ?_
  rw [minimalBytes_137]
  rfl

/-- A blob transaction of chain 137 is submitted to chain 1. -/
theorem route_blobTransaction :
    CommitsTo (.typed 3) blobTransaction 137 ∧
      route publicEnvironment blobSelector =
        .submitted 1 "https://eth.llamarpc.com".toList blobTransaction
          (.ok []) := by
  have carries : rawTransaction (colonTx (queryOf blobSelector)) =
      some blobTransaction := by decide
  refine ⟨commitsTo_blob, ?_⟩
  rw [route_colon (by decide) (by decide), extractChainIdFromTx_of_commits
    decodesExactly_public commitsTo_blob carries, broadcast, carries]
  rfl

end Examples

end TransactionBroadcast

end RefinetPillars
