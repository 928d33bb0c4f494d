import RefinetPillars.NonceRegistry
import RefinetPillars.PeerAdmission
import RefinetPillars.RunHistory

/-!
# How bindings are made

A binding is made from a message that a wallet has signed, is stored for good,
and is published in the identity document of the Pillar.  A wallet may be a
contract when the binding is made, but not when the record is verified.
-/

namespace RefinetPillars

namespace BindingCreation

open HexText LineText ContentSigning JsonText ExceptRules WalletBinding
open NonceRegistry PeerAdmission RunHistory
open SiweMessage (parseNonce messageNamesPid bindingPurpose)

section Tables

/-- A row of `pid_bindings`. -/
structure BindingRow where
  bindingId : Text
  pid : Text
  publicKey : Text
  evmAddress : Text
  chainId : Int
  siweMessage : Text
  siweSignature : Text
  pidSignature : Text
  bindingType : Text
  createdAt : Text

/-- `dict(row)`. -/
def BindingRow.record (row : BindingRow) : Json :=
  .obj
    [("binding_id".toList, .str row.bindingId),
      ("pid".toList, .str row.pid),
      ("public_key".toList, .str row.publicKey),
      ("evm_address".toList, .str row.evmAddress),
      ("chain_id".toList, .int row.chainId),
      ("siwe_message".toList, .str row.siweMessage),
      ("siwe_signature".toList, .str row.siweSignature),
      ("pid_signature".toList, .str row.pidSignature),
      ("binding_type".toList, .str row.bindingType),
      ("created_at".toList, .str row.createdAt)]

/-- The table `pid_bindings`, of which no row is changed or deleted. -/
structure BindingTable where
  rows : List BindingRow
  primaryKey : (rows.map BindingRow.bindingId).Nodup

/-- What a call raises. -/
inductive Refusal where
  | valueError (message : Text)
  | importError (message : Text)
  | integrityError
  | overflowError

/-- `INSERT INTO pid_bindings`; integers have 64 bits. -/
def BindingTable.insert (row : BindingRow) (table : BindingTable) :
    Except Refusal BindingTable :=
  if row.chainId < -2 ^ 63 ∨ 2 ^ 63 ≤ row.chainId then .error .overflowError
  else if fresh : row.bindingId ∈ table.rows.map BindingRow.bindingId then
    .error .integrityError
  else
    .ok
      { rows := table.rows ++ [row]
        primaryKey := by
          rw [List.map_append]
          exact table.primaryKey.append (List.nodup_singleton _)
            (by simpa using fresh) }

/-- The tables that `create_binding` uses. -/
structure Tables where
  nonces : NonceTable
  bindings : BindingTable

end Tables

section Creation

/-- What a Pillar depends on: libraries, its configuration, and what contracts
answer about signatures. -/
structure Setting where
  scheme : Scheme
  env : Environment
  int : Text → Option Int
  acceptedContractChains : List Int
  verifyEip1271 : Text → Text → Text → Int → Bool × Text

/-- The PID file of a Pillar and its private key. -/
structure Pillar (scheme : Scheme) where
  pid : Text
  publicKey : Text
  privateKey : List UInt8
  ownKey : publicKey = toHex (scheme.publicKey privateKey)

/-- The arguments of `create_binding`, with the times that it reads. -/
structure Creation where
  evmAddress : Text
  siweMessage : Text
  siweSignature : Text
  chainId : Option Int := none
  bindingType : Text := "deployer".toList
  consumeNonce : Bool := true
  consumedAt : Int
  createdAt : Text

variable (setting : Setting)

/-- `chain_id or 1`, unless the message states a chain. -/
def messageChainId (creation : Creation) : Int :=
  ((labelled "Chain ID: ".toList creation.siweMessage).bind setting.int).getD
    (match creation.chainId with
      | none => 1
      | some chainId => if chainId = 0 then 1 else chainId)

/-- `verify_wallet_signature` with a chain: a contract is asked when no account
of that address is recovered. -/
def verifyAnyWallet (message signature address : Text) (chainId : Int) :
    Except Text (Bool × Text) :=
  match verifyWalletSignature setting.env message (.str signature) address with
  | .error raised => .error raised
  | .ok (true, reason) => .ok (true, reason)
  | .ok (false, reason) =>
      if chainId ∉ setting.acceptedContractChains then
        .ok (false, reason ++
          "; contract wallets are not accepted on chain ".toList ++
          (toString chainId).toList)
      else
        match setting.verifyEip1271 message signature address chainId with
        | (true, contractReason) => .ok (true, contractReason)
        | (false, contractReason) =>
            .ok (false, reason ++ "; ".toList ++ contractReason)

/-- What is wrong with the statement of a message. -/
def statementProblem (pid : Text) (creation : Creation) : Option Text :=
  match parseBindingStatement creation.siweMessage with
  | none =>
      some ("Not a binding message: the statement must read " ++
        "'I bind this wallet to REFINET Pillar <pid> as its <role>'").toList
  | some (statedPid, statedRole) =>
      if statedPid ≠ pid then
        some "Binding message names a different Pillar".toList
      else if statedRole ≠ creation.bindingType then
        some ("Binding message says '".toList ++ statedRole ++
          "' but '".toList ++ creation.bindingType ++
          "' was requested".toList)
      else if ¬ messageNamesPid creation.siweMessage pid then
        some "Binding message URI does not name this Pillar".toList
      else none

def Creation.consumption (creation : Creation) (pid : Text) :
    Consumption where
  nonce := parseNonce creation.siweMessage
  purpose := bindingPurpose
  pid := pid
  now := creation.consumedAt

/-- Whether the challenge was issued for a binding, and its nonce consumed. -/
def Creation.challenge (creation : Creation) (pid : Text)
    (nonces : NonceTable) : (Bool × String) × NonceTable :=
  if creation.consumeNonce then
    consumeSiweNonce (creation.consumption pid) nonces
  else ((true, "ok"), nonces)

variable (pillar : Pillar setting.scheme)

/-- The row of a binding. -/
def rowOf (creation : Creation) : BindingRow :=
  let bindingId := hashContent setting.scheme
    (KeyRecovery.encodeUtf8
      (pillar.pid ++ setting.env.lower creation.evmAddress ++
        parseNonce creation.siweMessage))
  { bindingId := bindingId
    pid := pillar.pid
    publicKey := pillar.publicKey
    evmAddress := creation.evmAddress
    chainId := messageChainId setting creation
    siweMessage := creation.siweMessage
    siweSignature := creation.siweSignature
    pidSignature := signDomain setting.scheme domainBinding pillar.privateKey
      [bindingId]
    bindingType := creation.bindingType
    createdAt := creation.createdAt }

/-- The lines of `create_binding` after the nonce has been consumed. -/
def persist (creation : Creation) (bindings : BindingTable) :
    Except Refusal (BindingRow × BindingTable) := do
  let verdict ←
    (verifyAnyWallet setting creation.siweMessage creation.siweSignature
      creation.evmAddress (messageChainId setting creation)).mapError
      Refusal.importError
  if verdict.1 = false then
    throw (.valueError
      ("SIWE signature does not match the provided EVM address — ".toList ++
        verdict.2))
  let bindings ← bindings.insert (rowOf setting pillar creation)
  return (rowOf setting pillar creation, bindings)

def createBinding (creation : Creation) (tables : Tables) :
    Except Refusal BindingRow × Tables :=
  match statementProblem pillar.pid creation with
  | some problem => (.error (.valueError problem), tables)
  | none =>
      let challenge := creation.challenge pillar.pid tables.nonces
      if challenge.1.1 = false then
        (.error (.valueError
          ("Binding challenge rejected: ".toList ++ challenge.1.2.toList)),
          { tables with nonces := challenge.2 })
      else
        match persist setting pillar creation tables.bindings with
        | .error refusal =>
            (.error refusal, { tables with nonces := challenge.2 })
        | .ok (row, bindings) => (.ok row, ⟨challenge.2, bindings⟩)

end Creation

section Publishing

/-- `ORDER BY created_at ASC, rowid ASC`. -/
def getAllBindings (pid : Text) (table : BindingTable) : List BindingRow :=
  (table.rows.filter fun row => row.pid = pid).mergeSort fun row other =>
    row.createdAt ≤ other.createdAt

def getV1Bindings (pid : Text) (table : BindingTable) : List BindingRow :=
  (getAllBindings pid table).filter fun row =>
    (parseBindingStatement row.siweMessage).isSome

/-- How a row appears in the identity document. -/
def BindingRow.entry (row : BindingRow) : List (Text × Json) :=
  [("binding_id".toList, .str row.bindingId),
    ("type".toList, orElse (some (.str row.bindingType))
      (.str "deployer".toList)),
    ("evm_address".toList, .str row.evmAddress),
    ("chain_id".toList, .int row.chainId),
    ("siwe_message".toList, .str row.siweMessage),
    ("siwe_signature".toList, .str row.siweSignature),
    ("pid_signature".toList, .str row.pidSignature),
    ("created_at".toList, .str row.createdAt)]

variable (scheme : Scheme)

def identityFields (protocol authority : Text) (pillar : Pillar scheme)
    (bindings : List BindingRow) : List (Text × Json) :=
  [("schema_version".toList, .int 3),
    ("protocol".toList, .str protocol),
    ("pid".toList, .str pillar.pid),
    ("public_key".toList, .str pillar.publicKey),
    ("authority".toList, .str authority),
    ("bindings".toList, .arr (bindings.map fun row => .obj row.entry))]

def buildIdentityV3 (protocol authority : Text) (pillar : Pillar scheme)
    (bindings : List BindingRow) : Json :=
  let fields := identityFields scheme protocol authority pillar bindings
  .obj (fields ++
    [("document_signature".toList, .str
      (signDomain scheme domainIdentity pillar.privateKey
        [hashContent scheme (canonicalJson (.obj fields))]))])

end Publishing

section Statements

variable (setting : Setting) (pillar : Pillar setting.scheme)

/-- The signature of a row is one of an account with its address. -/
def Recovered (row : BindingRow) : Prop :=
  ∃ recover ∈ setting.env.recoverMessage, ∃ account,
    recover row.siweMessage (.str row.siweSignature) = .ok account ∧
      setting.env.lower account = setting.env.lower row.evmAddress

/-- Whether a verdict is that of a signature that an account has made. -/
def Decides (verdict : Except Raised (Bool × Text)) (row : BindingRow)
    (accepted : Text) : Prop :=
  (Recovered setting row → verdict = .ok (true, accepted)) ∧
    (¬ Recovered setting row → ∃ reason, verdict = .ok (false, reason))

inductive Input where
  | create (creation : Creation)
  | record (recording : Recording)
  | consume (call : Consumption)
  | purge (sweep : Purge)

def Input.apply : Input → Tables → Tables
  | .create creation, tables => (createBinding setting pillar creation tables).2
  | .record recording, tables =>
      { tables with nonces := tables.nonces.insertOrReplace recording.row }
  | .consume call, tables =>
      { tables with nonces := (consumeSiweNonce call tables.nonces).2 }
  | .purge sweep, tables =>
      { tables with nonces := tables.nonces.deleteExpired sweep.cutoff }

/-- What the Pillar publishes after a run that has started with older rows. -/
def published (older : BindingTable) (inputs : List Input) :
    List BindingRow :=
  getV1Bindings pillar.pid
    (run (Input.apply setting pillar) ⟨.empty, older⟩ inputs).bindings

/-- A record verifies, for whoever reads it, exactly when an account has signed
its message, and so does the first published one of a wallet; rows from before
this kind of message are not published. -/
structure StaysValid : Prop where
  returned : ∀ creation tables row after,
    createBinding setting pillar creation tables = (.ok row, after) →
    row ∈ getV1Bindings pillar.pid after.bindings ∧
      Decides setting (verifyBinding setting.scheme setting.env row.record)
        row "valid".toList
  operators : ∀ (older : BindingTable) inputs protocol authority operator row,
    (∀ old ∈ older.rows, parseBindingStatement old.siweMessage = none) →
    ((published setting pillar older inputs).find? fun row =>
      setting.env.lower row.evmAddress = setting.env.lower operator) =
        some row →
    Decides setting
      (operatorIsBound setting.scheme setting.env
        (buildIdentityV3 setting.scheme protocol authority pillar
          (published setting pillar older inputs)) (some operator))
      row "bound".toList

end Statements

section Rules

variable {setting : Setting} {pillar : Pillar setting.scheme}
  {creation : Creation} {tables after : Tables} {row : BindingRow}
  {record : Json}

/-- What is known of a row that `create_binding` has made. -/
structure Created (setting : Setting) (pillar : Pillar setting.scheme)
    (row : BindingRow) : Prop where
  ownPid : row.pid = pillar.pid
  publicKey : row.publicKey = pillar.publicKey
  stated : parseBindingStatement row.siweMessage =
    some (pillar.pid, row.bindingType)
  bindingId : row.bindingId = hashContent setting.scheme
    (KeyRecovery.encodeUtf8
      (pillar.pid ++ setting.env.lower row.evmAddress ++
        parseNonce row.siweMessage))
  pidSignature : row.pidSignature = signDomain setting.scheme domainBinding
    pillar.privateKey [row.bindingId]
  wallet : ∃ reason,
    verifyAnyWallet setting row.siweMessage row.siweSignature row.evmAddress
      row.chainId = .ok (true, reason)

theorem statementProblem_eq_none {pid : Text} :
    statementProblem pid creation = none ↔
      parseBindingStatement creation.siweMessage =
          some (pid, creation.bindingType) ∧
        messageNamesPid creation.siweMessage pid = true := by
  rw [statementProblem]
  cases parseBindingStatement creation.siweMessage with
  | none =>
      refine iff_of_false (Option.some_ne_none _) ?_
      rintro ⟨⟨⟩, -⟩
  | some stated =>
      obtain ⟨statedPid, statedRole⟩ := stated
      simp only [Option.some.injEq, Prod.ext_iff]
      by_cases samePid : statedPid = pid
      · rw [if_neg (not_not.mpr samePid)]
        by_cases sameRole : statedRole = creation.bindingType
        · rw [if_neg (not_not.mpr sameRole)]
          by_cases named : messageNamesPid creation.siweMessage pid = true
          · rw [if_neg (not_not.mpr named)]
            exact iff_of_true rfl ⟨⟨samePid, sameRole⟩, named⟩
          · rw [if_pos named]
            exact iff_of_false (Option.some_ne_none _) fun agrees =>
              named agrees.2
        · rw [if_pos sameRole]
          exact iff_of_false (Option.some_ne_none _) fun agrees =>
            sameRole agrees.1.2
      · rw [if_pos samePid]
        exact iff_of_false (Option.some_ne_none _) fun agrees =>
          samePid agrees.1.1

/-- Only the size of the chain number and the identifier matter. -/
theorem insert_of_fresh {table : BindingTable}
    (small : -2 ^ 63 ≤ row.chainId ∧ row.chainId < 2 ^ 63)
    (fresh : row.bindingId ∉ table.rows.map BindingRow.bindingId) :
    ∃ larger, table.insert row = .ok larger := by
  rw [BindingTable.insert, if_neg (by omega), dif_neg fresh]
  exact ⟨_, rfl⟩

theorem insert_eq_ok {table larger : BindingTable}
    (inserted : table.insert row = .ok larger) :
    larger.rows = table.rows ++ [row] := by
  rw [BindingTable.insert] at inserted
  split at inserted
  · cases inserted
  split at inserted
  · cases inserted
  · rw [← Except.ok.inj inserted]

theorem persist_eq_ok {bindings larger : BindingTable}
    (persisted : persist setting pillar creation bindings =
      .ok (row, larger)) :
    row = rowOf setting pillar creation ∧
      (∃ reason, verifyAnyWallet setting row.siweMessage row.siweSignature
        row.evmAddress row.chainId = .ok (true, reason)) ∧
      larger.rows = bindings.rows ++ [row] := by
  obtain ⟨⟨ok, reason⟩, verified, persisted⟩ := bind_eq_ok.mp persisted
  have verified := mapError_eq_ok.mp verified
  cases ok with
  | false => cases persisted
  | true =>
      obtain ⟨table, inserted, persisted⟩ := bind_eq_ok.mp persisted
      obtain ⟨rfl, rfl⟩ := Prod.mk.inj (Except.ok.inj persisted)
      exact ⟨rfl, ⟨reason, verified⟩, insert_eq_ok inserted⟩

/-- A row that is returned has been made and stored. -/
theorem created_of_createBinding
    (returned : createBinding setting pillar creation tables =
      (.ok row, after)) :
    Created setting pillar row ∧
      after.bindings.rows = tables.bindings.rows ++ [row] := by
  rw [createBinding] at returned
  split at returned
  · cases returned
  next agrees =>
    have stated := (statementProblem_eq_none.mp agrees).1
    simp only at returned
    split at returned
    · cases returned
    split at returned
    · cases returned
    next made larger persisted =>
      obtain ⟨same, rfl⟩ := Prod.mk.inj returned
      obtain rfl := Except.ok.inj same
      obtain ⟨rfl, wallet, stored⟩ := persist_eq_ok persisted
      exact ⟨⟨rfl, rfl, stated, rfl, rfl, wallet⟩, stored⟩

/-- A message that passes every check is made into a row. -/
theorem createBinding_of_accepted {reason : Text} {larger : BindingTable}
    (agrees : statementProblem pillar.pid creation = none)
    (challenged : (creation.challenge pillar.pid tables.nonces).1.1 = true)
    (wallet : verifyAnyWallet setting creation.siweMessage
      creation.siweSignature creation.evmAddress
      (messageChainId setting creation) = .ok (true, reason))
    (inserted : tables.bindings.insert (rowOf setting pillar creation) =
      .ok larger) :
    createBinding setting pillar creation tables =
      (.ok (rowOf setting pillar creation),
        ⟨(creation.challenge pillar.pid tables.nonces).2, larger⟩) := by
  have persisted : persist setting pillar creation tables.bindings =
      .ok (rowOf setting pillar creation, larger) := by
    refine bind_eq_ok.mpr ⟨(true, reason), mapError_eq_ok.mpr wallet, ?_⟩
    exact bind_eq_ok.mpr ⟨larger, inserted, rfl⟩
  rw [createBinding, agrees]
  simp [challenged, persisted]

theorem bindings_of_error {refusal : Refusal}
    (raised : createBinding setting pillar creation tables =
      (.error refusal, after)) : after.bindings = tables.bindings := by
  rw [createBinding] at raised
  split at raised
  · rw [← (Prod.mk.inj raised).2]
  simp only at raised
  split at raised
  · rw [← (Prod.mk.inj raised).2]
  split at raised
  · rw [← (Prod.mk.inj raised).2]
  · cases raised

end Rules

section Records

variable {setting : Setting} {pillar : Pillar setting.scheme}
  {row : BindingRow} {record : Json}

/-- A record says what a row says. -/
structure Carries (record : Json) (row : BindingRow) : Prop where
  bindingId : record.get "binding_id".toList = some (.str row.bindingId)
  pid : record.get "pid".toList = some (.str row.pid)
  publicKey : record.get "public_key".toList = some (.str row.publicKey)
  evmAddress : record.get "evm_address".toList = some (.str row.evmAddress)
  siweMessage : record.get "siwe_message".toList = some (.str row.siweMessage)
  siweSignature : record.get "siwe_signature".toList =
    some (.str row.siweSignature)
  pidSignature : record.get "pid_signature".toList =
    some (.str row.pidSignature)
  bindingType : record.get "binding_type".toList = some (.str row.bindingType)

theorem carries_record (row : BindingRow) : Carries row.record row :=
  ⟨rfl, rfl, rfl, rfl, rfl, rfl, rfl, rfl⟩

/-- A role is not the empty text. -/
theorem orElse_role {role : Text} {default : Json}
    (known : role ∈ SiweMessage.bindingRoles) :
    orElse (some (.str role)) default = .str role := by
  have nonempty : role ≠ [] := by
    rintro rfl
    revert known
    decide
  simp [orElse, Json.isFalsy, nonempty]

theorem Created.role_mem (created : Created setting pillar row) :
    row.bindingType ∈ SiweMessage.bindingRoles :=
  role_mem_of_parseBindingStatement created.stated

theorem statedProblem_of_carries (carries : Carries record row)
    (created : Created setting pillar row) :
    statedProblem record (some (pillar.pid, row.bindingType)) = none := by
  rw [statedProblem, carries.pid, carries.bindingType,
    orElse_role created.role_mem, created.ownPid, if_neg, if_neg]
  · exact not_not.mpr (isText_iff.mpr rfl)
  · rw [not_not, Option.any_some, decide_eq_true_iff]
    exact isText_iff.mpr rfl

/-- The record of a created row verifies as its wallet signature does. -/
theorem verifyBinding_of_carries (correct : setting.scheme.Correct)
    (carries : Carries record row) (created : Created setting pillar row)
    {ok : Bool} {reason : Text}
    (wallet : verifyWalletSignature setting.env row.siweMessage
      (.str row.siweSignature) row.evmAddress = .ok (ok, reason)) :
    verifyBinding setting.scheme setting.env record =
      .ok (if ok then (true, "valid".toList)
        else (false, "SIWE signature does not match evm_address — ".toList ++
          reason)) := by
  have countersigned : verifyValues setting.scheme
      (domainPreimage domainBinding [row.bindingId]) (.str row.pidSignature)
      (.str row.publicKey) = true := by
    rw [created.pidSignature, created.publicKey, pillar.ownKey]
    exact verifyDomain_signDomain correct _ _ _
  refine bind_eq_ok.mpr ⟨_, item_eq_ok.mpr carries.siweMessage, ?_⟩
  refine bind_eq_ok.mpr ⟨row.siweMessage, rfl, ?_⟩
  refine bind_eq_ok.mpr ⟨_, item_eq_ok.mpr carries.pid, ?_⟩
  refine bind_eq_ok.mpr ⟨_, item_eq_ok.mpr carries.evmAddress, ?_⟩
  refine bind_eq_ok.mpr ⟨row.evmAddress, rfl, ?_⟩
  refine bind_eq_ok.mpr ⟨row.bindingId, ?_, ?_⟩
  · exact computeBindingId_eq_ok.mpr
      ⟨row.pid, rfl, created.ownPid ▸ created.bindingId.symm⟩
  refine bind_eq_ok.mpr ⟨_, item_eq_ok.mpr carries.bindingId, ?_⟩
  rw [if_neg (not_not.mpr (isText_iff.mpr rfl))]
  simp only [created.stated, statedProblem_of_carries carries created]
  refine bind_eq_ok.mpr ⟨_, item_eq_ok.mpr carries.siweSignature, ?_⟩
  rw [wallet]
  cases ok with
  | false => rfl
  | true =>
      refine bind_eq_ok.mpr ⟨_, item_eq_ok.mpr carries.pidSignature, ?_⟩
      refine bind_eq_ok.mpr ⟨_, item_eq_ok.mpr carries.publicKey, ?_⟩
      rw [counterText, if_neg (not_not.mpr countersigned)]
      rfl

/-- A created row is of an account, or of a contract that has answered. -/
theorem Created.exists_verdict (created : Created setting pillar row) :
    ∃ ok reason, verifyWalletSignature setting.env row.siweMessage
        (.str row.siweSignature) row.evmAddress = .ok (ok, reason) ∧
      (ok = true ↔ Recovered setting row) := by
  obtain ⟨reason, accepted⟩ := created.wallet
  rw [verifyAnyWallet] at accepted
  unfold verifyWalletSignature at accepted ⊢
  unfold Recovered
  cases installed : setting.env.recoverMessage with
  | none =>
      rw [installed] at accepted
      cases accepted
  | some recover =>
      cases recovered : recover row.siweMessage (.str row.siweSignature) with
      | error failed => simp [recovered]
      | ok account =>
          by_cases same : setting.env.lower account =
              setting.env.lower row.evmAddress
          · simp [recovered, same]
          · simp [recovered, same]

theorem decides_verifyBinding (correct : setting.scheme.Correct)
    (carries : Carries record row) (created : Created setting pillar row) :
    Decides setting (verifyBinding setting.scheme setting.env record) row
      "valid".toList := by
  obtain ⟨ok, reason, wallet, recovered⟩ := created.exists_verdict
  rw [verifyBinding_of_carries correct carries created wallet]
  refine ⟨fun byAccount => ?_, fun byContract => ?_⟩
  · rw [if_pos (recovered.mpr byAccount)]
  · rw [if_neg (mt recovered.mp byContract)]
    exact ⟨_, rfl⟩

end Records

section Operators

variable {setting : Setting} {pillar : Pillar setting.scheme}
  {row : BindingRow} {bindings : List BindingRow}
  {protocol authority operator : Text}

theorem addressOf_entry (row : BindingRow) :
    addressOf row.entry = .ok row.evmAddress := by
  change textWith "lower" (orElse (some (.str row.evmAddress)) (.str [])) = _
  by_cases empty : row.evmAddress = []
  · simp [empty, orElse, Json.isFalsy, textWith]
  · simp [empty, orElse, Json.isFalsy, textWith]

/-- The first published row of a wallet decides. -/
theorem findBinding_entries (doc : Json) {wallet : Text}
    (first : (bindings.find? fun row =>
      setting.env.lower row.evmAddress = wallet) = some row) :
    findBinding setting.scheme setting.env doc wallet
        (bindings.map fun row => .obj row.entry) =
      checkEntry setting.scheme setting.env doc row.entry := by
  induction bindings with
  | nil => cases first
  | cons head bindings ih =>
      rw [List.find?_cons] at first
      rw [List.map_cons, findBinding, addressOf_entry]
      change (if _ then _ else _) = _
      by_cases same : setting.env.lower head.evmAddress = wallet
      · simp only [same, decide_true, Option.some.injEq] at first
        rw [if_neg (not_not.mpr same), first]
      · simp only [same, decide_false] at first
        rw [if_pos same, ih first]

theorem iterate_entries (bindings : List BindingRow) :
    iterate (orElse (some (.arr (bindings.map fun row => .obj row.entry)))
      (.arr [])) = .ok (bindings.map fun row => .obj row.entry) := by
  cases bindings with
  | nil => rfl
  | cons row bindings => rfl

/-- The record of a published entry says what the row says. -/
theorem exists_recordOf_entry (protocol authority : Text)
    (bindings : List BindingRow) (created : Created setting pillar row) :
    ∃ record, recordOf
        (buildIdentityV3 setting.scheme protocol authority pillar bindings)
        row.entry = .ok record ∧ Carries record row := by
  have role : orElse (some (.str row.bindingType)) (.str "deployer".toList) =
      .str row.bindingType := orElse_role created.role_mem
  refine ⟨_, bind_eq_ok.mpr ⟨.str pillar.pid, rfl, bind_eq_ok.mpr
    ⟨.str pillar.publicKey, rfl, rfl⟩⟩, ?_⟩
  refine ⟨rfl, ?_, ?_, rfl, rfl, rfl, rfl, ?_⟩
  · rw [created.ownPid]
    rfl
  · rw [created.publicKey]
    rfl
  · change some (orElse (some (orElse (some (.str row.bindingType)) _)) _) = _
    rw [role, role]

theorem decides_checkEntry (correct : setting.scheme.Correct)
    (created : Created setting pillar row) :
    Decides setting
      (checkEntry setting.scheme setting.env
        (buildIdentityV3 setting.scheme protocol authority pillar bindings)
        row.entry) row "bound".toList := by
  obtain ⟨record, made, carries⟩ :=
    exists_recordOf_entry protocol authority bindings created
  have current : isLegacyBinding record = .ok false := by
    rw [isLegacyBinding, carries.siweMessage]
    refine bind_eq_ok.mpr ⟨row.siweMessage, rfl, ?_⟩
    rw [created.stated]
    rfl
  obtain ⟨byAccount, byContract⟩ :=
    decides_verifyBinding correct carries created
  refine ⟨fun recovered => ?_, fun recovered => ?_⟩
  · refine bind_eq_ok.mpr ⟨record, made, bind_eq_ok.mpr ⟨false, current, ?_⟩⟩
    exact bind_eq_ok.mpr ⟨_, byAccount recovered, rfl⟩
  · obtain ⟨reason, refused⟩ := byContract recovered
    refine ⟨"binding for operator does not verify: ".toList ++ reason, ?_⟩
    refine bind_eq_ok.mpr ⟨record, made, bind_eq_ok.mpr ⟨false, current, ?_⟩⟩
    exact bind_eq_ok.mpr ⟨_, refused, rfl⟩

theorem decides_operatorIsBound (correct : setting.scheme.Correct)
    (created : Created setting pillar row)
    (first : (bindings.find? fun row =>
      setting.env.lower row.evmAddress = setting.env.lower operator) =
        some row) :
    Decides setting
      (operatorIsBound setting.scheme setting.env
        (buildIdentityV3 setting.scheme protocol authority pillar bindings)
        (some operator)) row "bound".toList := by
  have decided : operatorIsBound setting.scheme setting.env
      (buildIdentityV3 setting.scheme protocol authority pillar bindings)
        (some operator) =
      checkEntry setting.scheme setting.env
        (buildIdentityV3 setting.scheme protocol authority pillar bindings)
        row.entry := by
    change (iterate (orElse (some (.arr
      (bindings.map fun row => .obj row.entry))) (.arr [])) >>= _) = _
    rw [iterate_entries]
    exact findBinding_entries _ first
  rw [decided]
  exact decides_checkEntry correct created

end Operators

section Runs

variable {setting : Setting} {pillar : Pillar setting.scheme} {row : BindingRow}

/-- Whatever the table was before, every row has been there or was created. -/
theorem mem_or_created (older : BindingTable) (inputs : List Input) :
    ∀ row ∈ (run (Input.apply setting pillar) ⟨.empty, older⟩
        inputs).bindings.rows,
      row ∈ older.rows ∨ Created setting pillar row := by
  induction inputs with
  | nil => exact fun row => Or.inl
  | cons input inputs ih =>
      intro row member
      rw [run_cons] at member
      cases input with
      | record recording => exact ih row member
      | consume call => exact ih row member
      | purge sweep => exact ih row member
      | create creation =>
          change row ∈ (createBinding setting pillar creation _).2.bindings.rows
            at member
          generalize made : createBinding setting pillar creation
            (run (Input.apply setting pillar) ⟨.empty, older⟩ inputs) =
              result at member
          obtain ⟨returned, after⟩ := result
          cases returned with
          | error refusal =>
              rw [bindings_of_error made] at member
              exact ih row member
          | ok newest =>
              obtain ⟨created, stored⟩ := created_of_createBinding made
              rw [stored, List.mem_append, List.mem_singleton] at member
              rcases member with before | rfl
              · exact ih row before
              · exact Or.inr created

theorem mem_getV1Bindings {pid : Text} {table : BindingTable} :
    row ∈ getV1Bindings pid table ↔ row ∈ table.rows ∧ row.pid = pid ∧
      (parseBindingStatement row.siweMessage).isSome := by
  simp [getV1Bindings, getAllBindings, List.mem_mergeSort, and_assoc]

end Runs

section Contracts

/-- A Pillar that accepts contract wallets on one chain, where the contract of
the wallet accepts every signature. -/
def contractSetting (recover : Text → Json → Except Text Text) : Setting where
  scheme := transparentScheme
  env := { lower := SiweMessage.lower, recoverMessage := some recover }
  int text := if text = "50".toList then some 50 else none
  acceptedContractChains := [50]
  verifyEip1271 _ _ _ _ := (true, "valid (EIP-1271)".toList)

def contractPillar (recover : Text → Json → Except Text Text) :
    Pillar (contractSetting recover).scheme where
  pid := admittedPid
  publicKey := toHex admittedKey
  privateKey := admittedKey
  ownKey := rfl

def contractCreation : Creation where
  evmAddress := admittedWallet
  siweMessage := admittedMessage
  siweSignature := "0x".toList
  bindingType := "operator".toList
  consumedAt := 0
  createdAt := "2026-01-01 00:00:00".toList

/-- The challenge has been issued, and nothing is bound yet. -/
def contractTables : Tables where
  nonces := NonceTable.empty.insertOrReplace
    { nonce := "5e".toList, purpose := bindingPurpose, pid := admittedPid,
      address := none, chainId := none, issuedAt := 0, expiresAt := 1,
      spentAt := none }
  bindings := ⟨[], List.nodup_nil⟩

variable (recover : Text → Json → Except Text Text)

theorem contractPillar_pid : (contractPillar recover).pid = admittedPid := rfl

theorem messageChainId_contract :
    messageChainId (contractSetting recover) contractCreation = 50 := by
  have stated : labelled "Chain ID: ".toList admittedMessage =
      some "50".toList := by
    decide +kernel
  rw [messageChainId]
  change ((labelled "Chain ID: ".toList admittedMessage).bind _).getD _ = 50
  rw [stated]
  rfl

theorem exists_verifyAnyWallet_contract (message signature address : Text) :
    ∃ reason, verifyAnyWallet (contractSetting recover) message signature
      address 50 = .ok (true, reason) := by
  rw [verifyAnyWallet, verifyWalletSignature]
  cases recovered : recover message (.str signature) with
  | error failed => simp [contractSetting, recovered]
  | ok account => 
      by_cases same : SiweMessage.lower account = SiweMessage.lower address
      · simp [contractSetting, recovered, same]
      · simp [contractSetting, recovered, same]

theorem exists_createBinding_contract :
    ∃ after, createBinding (contractSetting recover) (contractPillar recover)
      contractCreation contractTables =
        (.ok (rowOf (contractSetting recover) (contractPillar recover)
          contractCreation), after) := by
  have stated : parseBindingStatement contractCreation.siweMessage =
      some (admittedPid, "operator".toList) := parseBindingStatement_admitted
  have named :
      messageNamesPid contractCreation.siweMessage admittedPid = true := by
    decide +kernel
  have challenged : (contractCreation.challenge (contractPillar recover).pid
      contractTables.nonces).1.1 = true := by
    rw [contractPillar_pid]
    decide +kernel
  have chain := messageChainId_contract recover
  obtain ⟨reason, wallet⟩ := exists_verifyAnyWallet_contract recover
    contractCreation.siweMessage contractCreation.siweSignature
    contractCreation.evmAddress
  obtain ⟨larger, inserted⟩ : ∃ larger, contractTables.bindings.insert
      (rowOf (contractSetting recover) (contractPillar recover)
        contractCreation) = .ok larger := by
    apply insert_of_fresh
    · rw [rowOf, chain]
      constructor <;> norm_num
    · exact List.not_mem_nil
  rw [← chain] at wallet
  have agrees : statementProblem (contractPillar recover).pid
      contractCreation = none :=
    statementProblem_eq_none.mpr ⟨stated, named⟩
  exact ⟨_, createBinding_of_accepted agrees challenged wallet inserted⟩

/-- Every record that a Pillar makes verifies. -/
def EveryRecordVerifies (setting : Setting)
    (pillar : Pillar setting.scheme) : Prop :=
  ∀ creation tables row after,
    createBinding setting pillar creation tables = (.ok row, after) →
      verifyBinding setting.scheme setting.env row.record =
        .ok (true, "valid".toList)

/-- No account is recovered from what a contract wallet signs. -/
def noAccount (_ : Text) (_ : Json) : Except Text Text :=
  .error "invalid signature".toList

end Contracts

end BindingCreation

end RefinetPillars
