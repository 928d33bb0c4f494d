import RefinetPillars.WalletBinding

/-!
# Admission of peers

A peer is admitted when its Pillar is active on the chain and the wallet that
staked for it is bound to it in its own signed document.  The document comes
from the peer, and so does every entry about a wallet.
-/

namespace RefinetPillars

namespace PeerAdmission

open HexText ContentSigning JsonText ExceptRules WalletBinding
open KeyRecovery (encodeUtf8)
open SiweMessage (parseNonce bindingRoles)

/-- What is read of a Pillar on the chain. -/
structure StakeStatus where
  active : Bool
  operator : Option Text
  error : Option Text

def whyInactive (status : StakeStatus) : Text :=
  if status.error.getD [] = [] then
    if status.operator.getD [] = [] then "not registered".toList
    else
      ("below 100,000 REFI, unstaking, or recorded inactive " ++
        "in the last 2 days").toList
  else status.error.getD []

section Checks

variable (scheme : Scheme) (env : Environment)

/-- The record of an entry; what the entry says about the Pillar is replaced by
what the document says. -/
def recordOf (doc : Json) (fields : List (Text × Json)) :
    Except Raised Json := do
  let pid ← item "pid" doc
  let publicKey ← item "public_key" doc
  let bindingType :=
    orElse ((Json.obj fields).get "type".toList) (.str "deployer".toList)
  return .obj
    (setField "binding_type".toList bindingType
      (setField "public_key".toList publicKey
        (setField "pid".toList pid fields)))

def checkEntry (doc : Json) (fields : List (Text × Json)) :
    Except Raised (Bool × Text) := do
  let record ← recordOf doc fields
  let legacy ← isLegacyBinding record
  if legacy then
    return (false, ("binding predates 0.5.0: its statement does not name " ++
      "this Pillar").toList)
  let verdict ← verifyBinding scheme env record
  if verdict.1 then return (true, "bound".toList)
  return (false, "binding for operator does not verify: ".toList ++ verdict.2)

/-- The address of an entry; nothing instead of one is the empty text. -/
def addressOf (fields : List (Text × Json)) : Except Raised Text :=
  textWith "lower"
    (orElse ((Json.obj fields).get "evm_address".toList) (.str []))

/-- The first entry of the wallet decides. -/
def findBinding (doc : Json) (wallet : Text) :
    List Json → Except Raised (Bool × Text)
  | [] => .ok (false, "staking wallet is not bound to this Pillar".toList)
  | .obj fields :: entries => do
      let address ← addressOf fields
      if env.lower address ≠ wallet then findBinding doc wallet entries
      else checkEntry scheme env doc fields
  | entry :: _ => .error (.noAttribute entry "get".toList)

def operatorIsBound (doc : Json) (operator : Option Text) :
    Except Raised (Bool × Text) := do
  let bindings ← dictGet "bindings" doc
  let entries ← iterate (orElse bindings (.arr []))
  findBinding scheme env doc (env.lower (operator.getD [])) entries

def peerChecks (reader : Text → Except Raised StakeStatus)
    (fetchIdentity : Text → Int → Except Raised Json) (pid host : Text)
    (port : Int) : Except Raised (Bool × Text) := do
  let status ← reader pid
  if ¬ status.active then
    return (false,
      "not active on-chain (".toList ++ whyInactive status ++ ")".toList)
  let doc ← fetchIdentity host port
  let verdict ← verifyIdentityV3 scheme doc
  if ¬ verdict.1 then
    return (false, "identity v3: ".toList ++ verdict.2)
  let named ← dictGet "pid" doc
  if ¬ named.any (IsText pid) then
    return (false, "identity document names a different PID".toList)
  operatorIsBound scheme env doc status.operator

/-- `check_peer`, which never raises an exception. -/
def checkPeer (reader : Text → Except Raised StakeStatus)
    (fetchIdentity : Text → Int → Except Raised Json) (pid host : Text)
    (port : Int) : Bool × Text :=
  match peerChecks scheme env reader fetchIdentity pid host port with
  | .ok verdict => verdict
  | .error raised =>
      (false, "admission check failed: ".toList ++ raised.message)

end Checks

section Statements

variable (scheme : Scheme) (env : Environment)
  (Signed : List UInt8 → List UInt8 → Prop) (WalletSigned : Text → Text → Prop)

/-- The text that the identifier of a binding is the hash of. -/
def bindingText (pid operator message : Text) : Text :=
  pid ++ env.lower operator ++ parseNonce message

/-- An entry carries a message that the wallet of the operator has signed, that
names the PID and a role, and that the Pillar has countersigned. -/
structure BindsWallet (publicKey : List UInt8) (pid operator : Text)
    (entry : Json) (message role account : Text) : Prop where
  hasMessage : entry.get "siwe_message".toList = some (.str message)
  stated : parseBindingStatement message = some (pid, role)
  known : role ∈ bindingRoles
  isOperator : env.lower account = env.lower operator
  walletSigned : WalletSigned account message
  hasId : entry.get "binding_id".toList = some (.str
    (hashContent scheme (encodeUtf8 (bindingText env pid operator message))))
  countersigned : Signed publicKey (domainPreimage domainBinding
    [hashContent scheme (encodeUtf8 (bindingText env pid operator message))])

/-- The key of the PID has signed the document, and an entry of it binds the
wallet of the operator. -/
def Vouched (pid operator : Text) (doc : Json) : Prop :=
  ∃ publicKey, pidOf scheme publicKey = pid ∧
    Signed publicKey (identityPreimage scheme doc) ∧
    ∃ entries, doc.get "bindings".toList = some (.arr entries) ∧
      ∃ entry ∈ entries, ∃ message role account,
        BindsWallet scheme env Signed WalletSigned publicKey pid operator entry
          message role account

/-- The messages of an entry for the wallet state no binding. -/
def LegacyFor (operator : Text) (entry : Json) : Prop :=
  ∀ address message, entry.get "evm_address".toList = some (.str address) →
    env.lower address = env.lower operator →
    entry.get "siwe_message".toList = some (.str message) →
    parseBindingStatement message = none

/-- Whoever is admitted is active and vouched for, and messages of the old kind
admit nobody. -/
structure AdmissionSound : Prop where
  vouched : ∀ reader fetchIdentity pid host port reason,
    checkPeer scheme env reader fetchIdentity pid host port = (true, reason) →
    ∃ status doc, reader pid = .ok status ∧ status.active = true ∧
      fetchIdentity host port = .ok doc ∧
      Vouched scheme env Signed WalletSigned pid (status.operator.getD []) doc
  legacyRefused : ∀ reader fetchIdentity pid host port status doc,
    reader pid = .ok status → fetchIdentity host port = .ok doc →
    (∀ entries, doc.get "bindings".toList = some (.arr entries) →
      ∀ entry ∈ entries, LegacyFor env (status.operator.getD []) entry) →
    (checkPeer scheme env reader fetchIdentity pid host port).1 = false

end Statements

section Records

variable {scheme : Scheme} {env : Environment} {doc record : Json}
  {fields : List (Text × Json)} {entries : List Json} {wallet reason : Text}

/-- The record of an entry has the PID and the key of the document, and what
the entry says about the wallet. -/
theorem recordOf_eq_ok (made : recordOf doc fields = .ok record) :
    record.get "pid".toList = doc.get "pid".toList ∧
      record.get "public_key".toList = doc.get "public_key".toList ∧
      ∀ key ∉ ["pid".toList, "public_key".toList, "binding_type".toList],
        record.get key = (Json.obj fields).get key := by
  simp only [recordOf, bind_eq_ok, item_eq_ok] at made
  obtain ⟨pid, hasPid, publicKey, hasKey, made⟩ := made
  obtain rfl := Except.ok.inj made
  refine ⟨?_, ?_, ?_⟩
  · rw [get_setField, if_neg (by decide), get_setField, if_neg (by decide),
      get_setField, if_pos rfl, hasPid]
  · rw [get_setField, if_neg (by decide), get_setField, if_pos rfl, hasKey]
  · intro key fresh
    simp only [List.mem_cons, List.not_mem_nil, or_false, not_or] at fresh
    rw [get_setField, if_neg fresh.2.2, get_setField, if_neg fresh.2.1,
      get_setField, if_neg fresh.1]

theorem checkEntry_eq_true
    (bound : checkEntry scheme env doc fields = .ok (true, reason)) :
    ∃ record reason, recordOf doc fields = .ok record ∧
      isLegacyBinding record = .ok false ∧
      verifyBinding scheme env record = .ok (true, reason) := by
  obtain ⟨record, made, bound⟩ := bind_eq_ok.mp bound
  obtain ⟨legacy, legacyRead, bound⟩ := bind_eq_ok.mp bound
  split at bound
  · cases bound
  next notLegacy =>
    obtain ⟨⟨ok, reason⟩, verified, bound⟩ := bind_eq_ok.mp bound
    split at bound
    next isOk =>
      obtain rfl : ok = true := isOk
      rw [Bool.not_eq_true] at notLegacy
      exact ⟨record, reason, made, notLegacy ▸ legacyRead, verified⟩
    next => cases bound

/-- The entry that decides is one of the wallet. -/
theorem exists_entry_of_findBinding
    (found : findBinding scheme env doc wallet entries = .ok (true, reason)) :
    ∃ fields address, .obj fields ∈ entries ∧
      addressOf fields = .ok address ∧ env.lower address = wallet ∧
      checkEntry scheme env doc fields = .ok (true, reason) := by
  induction entries with
  | nil => cases found
  | cons entry entries ih =>
      cases entry with
      | obj fields =>
          rw [findBinding] at found
          obtain ⟨address, read, found⟩ := bind_eq_ok.mp found
          split at found
          next =>
            obtain ⟨others, address, member, rest⟩ := ih found
            exact ⟨others, address, List.mem_cons_of_mem _ member, rest⟩
          next same =>
            exact ⟨fields, address, List.mem_cons_self, read,
              not_not.mp same, found⟩
      | null | bool | int | float | str | arr => cases found

/-- Only a list has dictionaries as its entries. -/
theorem eq_arr_of_iterate {value : Json}
    (iterated : iterate value = .ok entries) (member : .obj fields ∈ entries) :
    value = .arr entries := by
  cases value with
  | arr items =>
      obtain rfl := Except.ok.inj iterated
      rfl
  | obj others =>
      obtain rfl := Except.ok.inj iterated
      simp at member
  | str text =>
      obtain rfl := Except.ok.inj iterated
      simp at member
  | null | bool | int | float => cases iterated

theorem eq_some_of_orElse {value : Option Json} {default result : Json}
    (chosen : orElse value default = result) (other : result ≠ default) :
    value = some result := by
  unfold orElse at chosen
  split at chosen
  · split at chosen
    · exact absurd chosen.symm other
    · rw [chosen]
  · exact absurd chosen.symm other

theorem dictGet_eq_ok {key : String} {value : Option Json}
    (read : dictGet key doc = .ok value) : doc.get key.toList = value := by
  cases doc with
  | obj fields => exact Except.ok.inj read
  | null | bool | int | float | str | arr => cases read

end Records

section Soundness

variable {scheme : Scheme} {env : Environment} {doc : Json}
  {fields : List (Text × Json)} {operator : Option Text} {reason : Text}

theorem addressOf_of_get {address : Text}
    (hasAddress : (Json.obj fields).get "evm_address".toList =
      some (.str address)) : addressOf fields = .ok address := by
  rw [addressOf, hasAddress]
  cases address <;> rfl

/-- A record that is not of the old kind states a binding. -/
theorem exists_stated_of_isLegacyBinding {record : Json} {message : Text}
    (current : isLegacyBinding record = .ok false)
    (hasMessage : record.get "siwe_message".toList = some (.str message)) :
    ∃ pid role, parseBindingStatement message = some (pid, role) := by
  rw [isLegacyBinding, hasMessage] at current
  have isSome : (parseBindingStatement message).isNone = false :=
    Except.ok.inj current
  cases stated : parseBindingStatement message with
  | none =>
      rw [stated] at isSome
      cases isSome
  | some named => exact ⟨named.1, named.2, rfl⟩

/-- What is known of the entry on which a wallet counts as bound. -/
structure BoundEntry (scheme : Scheme) (env : Environment) (doc : Json)
    (operator : Text) (fields : List (Text × Json))
    (message pid role address : Text) (publicKey record : Json) : Prop where
  made : recordOf doc fields = .ok record
  verifies : Verifies scheme env record message pid address publicKey
  stated : parseBindingStatement message = some (pid, role)
  isOperator : env.lower address = env.lower operator

theorem exists_boundEntry_of_checkEntry {address : Text}
    (read : addressOf fields = .ok address)
    (isOperator : env.lower address = env.lower (operator.getD []))
    (bound : checkEntry scheme env doc fields = .ok (true, reason)) :
    ∃ message pid role publicKey record,
      BoundEntry scheme env doc (operator.getD []) fields message pid role
        address publicKey record := by
  obtain ⟨record, reason, made, current, verified⟩ := checkEntry_eq_true bound
  obtain ⟨message, pid, recordAddress, publicKey, verifies⟩ :=
    exists_verifies_of_verifyBinding verified
  obtain ⟨statedPid, role, stated⟩ :=
    exists_stated_of_isLegacyBinding current verifies.hasMessage
  have samePid := pid_of_statedProblem (stated ▸ verifies.agrees)
  rw [verifies.hasPid, Option.some.injEq, Json.str.injEq] at samePid
  have sameAddress := addressOf_of_get
    (((recordOf_eq_ok made).2.2 _ (by decide)).symm.trans verifies.hasAddress)
  rw [read, Except.ok.injEq] at sameAddress
  subst samePid sameAddress
  exact ⟨message, pid, role, publicKey, record, made, verifies, stated,
    isOperator⟩

/-- Whoever is bound is bound by an entry of a list. -/
theorem exists_entries_of_operatorIsBound
    (bound : operatorIsBound scheme env doc operator = .ok (true, reason)) :
    ∃ entries, doc.get "bindings".toList = some (.arr entries) ∧
      findBinding scheme env doc (env.lower (operator.getD [])) entries =
        .ok (true, reason) := by
  obtain ⟨bindings, got, bound⟩ := bind_eq_ok.mp bound
  obtain ⟨entries, iterated, bound⟩ := bind_eq_ok.mp bound
  obtain ⟨fields, address, member, -⟩ := exists_entry_of_findBinding bound
  have isList := eq_arr_of_iterate iterated member
  have notEmpty : Json.arr entries ≠ .arr [] := by
    rintro ⟨⟩
    simp at member
  have listed := eq_some_of_orElse isList notEmpty
  exact ⟨entries, (dictGet_eq_ok got).trans listed, bound⟩

theorem exists_boundEntry
    (bound : operatorIsBound scheme env doc operator = .ok (true, reason)) :
    ∃ entries, doc.get "bindings".toList = some (.arr entries) ∧
      ∃ fields, .obj fields ∈ entries ∧
        ∃ message pid role address publicKey record,
          BoundEntry scheme env doc (operator.getD []) fields message pid role
            address publicKey record := by
  obtain ⟨entries, listed, found⟩ := exists_entries_of_operatorIsBound bound
  obtain ⟨fields, address, member, read, isOperator, checked⟩ :=
    exists_entry_of_findBinding found
  obtain ⟨message, pid, role, publicKey, record, boundEntry⟩ :=
    exists_boundEntry_of_checkEntry read isOperator checked
  exact ⟨entries, listed, fields, member, message, pid, role, address,
    publicKey, record, boundEntry⟩

theorem peerChecks_eq_true {reader : Text → Except Raised StakeStatus}
    {fetchIdentity : Text → Int → Except Raised Json} {pid host : Text}
    {port : Int}
    (admitted : peerChecks scheme env reader fetchIdentity pid host port =
      .ok (true, reason)) :
    ∃ status doc, reader pid = .ok status ∧ status.active = true ∧
      fetchIdentity host port = .ok doc ∧
      (∃ reason, verifyIdentityV3 scheme doc = .ok (true, reason)) ∧
      doc.get "pid".toList = some (.str pid) ∧
      operatorIsBound scheme env doc status.operator = .ok (true, reason) := by
  obtain ⟨status, reported, admitted⟩ := bind_eq_ok.mp admitted
  split at admitted
  · cases admitted
  next active =>
    obtain ⟨doc, fetched, admitted⟩ := bind_eq_ok.mp admitted
    obtain ⟨⟨ok, reason⟩, verified, admitted⟩ := bind_eq_ok.mp admitted
    split at admitted
    · cases admitted
    next isOk =>
      obtain rfl : ok = true := not_not.mp isOk
      obtain ⟨named, got, admitted⟩ := bind_eq_ok.mp admitted
      split at admitted
      · cases admitted
      next isPid =>
        refine ⟨status, doc, reported, not_not.mp active, fetched,
          ⟨reason, verified⟩, ?_, admitted⟩
        rw [← dictGet_eq_ok got] at isPid
        cases found : doc.get "pid".toList with
        | none =>
            rw [found] at isPid
            exact absurd isPid (by simp)
        | some value =>
            rw [found, not_not, Option.any_some, decide_eq_true_iff] at isPid
            rw [isText_iff.mp isPid]

theorem checkPeer_eq_true {reader : Text → Except Raised StakeStatus}
    {fetchIdentity : Text → Int → Except Raised Json} {pid host : Text}
    {port : Int}
    (admitted : checkPeer scheme env reader fetchIdentity pid host port =
      (true, reason)) :
    peerChecks scheme env reader fetchIdentity pid host port =
      .ok (true, reason) := by
  rw [checkPeer] at admitted
  split at admitted
  next checked => rw [checked, admitted]
  next => cases admitted

variable {Signed : List UInt8 → List UInt8 → Prop}
  {WalletSigned : Text → Text → Prop}

/-- An entry on which a wallet counts as bound has been signed by the wallet and
by the owner of the key of the document. -/
theorem BoundEntry.bindsWallet {operator message pid role address : Text}
    {publicKeyHex : Text} {publicKey : List UInt8} {keyValue record : Json}
    (entry : BoundEntry scheme env doc operator fields message pid role address
      keyValue record)
    (unforgeable : scheme.Unforgeable Signed)
    (recovers : env.RecoversSigner WalletSigned)
    (hasKey : doc.get "public_key".toList = some (.str publicKeyHex))
    (decoded : fromHex publicKeyHex = some publicKey) :
    ∃ account, BindsWallet scheme env Signed WalletSigned publicKey pid operator
      (.obj fields) message role account := by
  obtain ⟨-, sameKey, kept⟩ := recordOf_eq_ok entry.made
  obtain ⟨signature, reason, walletVerified⟩ := entry.verifies.wallet
  obtain ⟨account, isAddress, walletSigned⟩ :=
    exists_account_of_verifyWalletSignature recovers walletVerified
  obtain ⟨counterSignature, countersigned⟩ := entry.verifies.counter
  have isKey := entry.verifies.hasKey
  rw [sameKey, hasKey, Option.some.injEq] at isKey
  have hasId := entry.verifies.hasId
  rw [kept _ (by decide)] at hasId
  have hasMessage := entry.verifies.hasMessage
  rw [kept _ (by decide)] at hasMessage
  rw [← isKey, entry.stated, entry.isOperator] at countersigned
  rw [entry.isOperator] at hasId
  exact ⟨account, hasMessage, entry.stated,
    role_mem_of_parseBindingStatement entry.stated,
    isAddress.trans entry.isOperator, walletSigned, hasId,
    signed_of_verifyValues unforgeable decoded countersigned⟩

theorem admissionSound (unforgeable : scheme.Unforgeable Signed)
    (recovers : env.RecoversSigner WalletSigned) :
    AdmissionSound scheme env Signed WalletSigned := by
  constructor
  · intro reader fetchIdentity pid host port reason admitted
    obtain ⟨status, doc, reported, active, fetched, ⟨_, verified⟩, hasPid,
      bound⟩ := peerChecks_eq_true (checkPeer_eq_true admitted)
    obtain ⟨docPid, publicKeyHex, publicKey, signature, hasDocPid, hasKey,
      decoded, hashed, signed⟩ := exists_key_of_verifyIdentityV3 verified
    obtain ⟨entries, listed, fields, member, message, statedPid, role, address,
      keyValue, record, entry⟩ := exists_boundEntry bound
    rw [hasPid, Option.some.injEq, Json.str.injEq] at hasDocPid
    have isPid := entry.verifies.hasPid
    rw [(recordOf_eq_ok entry.made).1, hasPid, Option.some.injEq,
      Json.str.injEq] at isPid
    subst hasDocPid isPid
    obtain ⟨account, binds⟩ :=
      entry.bindsWallet unforgeable recovers hasKey decoded
    exact ⟨status, doc, reported, active, fetched, publicKey, hashed,
      signed_of_verifyValues unforgeable decoded signed, entries, listed,
      .obj fields, member, message, role, account, binds⟩
  · intro reader fetchIdentity pid host port status doc reported fetched legacy
    cases checked : checkPeer scheme env reader fetchIdentity pid host port with
    | mk admitted reason =>
        cases admitted with
        | false => rfl
        | true =>
            obtain ⟨readStatus, readDoc, isStatus, -, isDoc, -, -, bound⟩ :=
              peerChecks_eq_true (checkPeer_eq_true checked)
            obtain rfl := Except.ok.inj (reported.symm.trans isStatus)
            obtain rfl := Except.ok.inj (fetched.symm.trans isDoc)
            obtain ⟨entries, listed, fields, member, message, statedPid, role,
              address, keyValue, record, entry⟩ := exists_boundEntry bound
            obtain ⟨-, -, kept⟩ := recordOf_eq_ok entry.made
            have unstated := legacy entries listed _ member address message
              ((kept _ (by decide)).symm.trans entry.verifies.hasAddress)
              entry.isOperator
              ((kept _ (by decide)).symm.trans entry.verifies.hasMessage)
            rw [entry.stated] at unstated
            cases unstated

end Soundness

section Admitted

theorem verifyValues_ledgerScheme {sha256 : List UInt8 → List UInt8}
    {signed : List (List UInt8 × List UInt8)} {publicKey data : List UInt8}
    (member : (publicKey, data) ∈ signed) (signature : List UInt8) :
    verifyValues (ledgerScheme sha256 signed) data (.str (toHex signature))
      (.str (toHex publicKey)) = true :=
  verifySignature_ledgerScheme member signature

def admittedKey : List UInt8 := List.replicate 32 1

def admittedPid : Text :=
  ("72cd6e8422c407fb6d098690f1130b7d" ++
    "ed7ec2f7f5e1d30bd9d521f015363793").toList

theorem pidOf_admittedKey :
    toHex (Sha256.sha256 admittedKey) = admittedPid := by
  decide +kernel

def admittedWallet : Text :=
  "0x00000000000000000000000000000000000000aa".toList

def admittedMessage : Text :=
  ("pillar.example wants you to sign in with your Ethereum account:\n" ++
    "0x00000000000000000000000000000000000000aa\n\n" ++
    "I bind this wallet to REFINET Pillar ").toList ++ admittedPid ++
    " as its operator\n\nURI: refinet://pillar/".toList ++ admittedPid ++
    "\nVersion: 1\nChain ID: 50\nNonce: 5e".toList

theorem parseBindingStatement_admitted :
    parseBindingStatement admittedMessage =
      some (admittedPid, "operator".toList) := by
  decide +kernel

/-- The account of a wallet that has signed one message. -/
def admittedRecover (message : Text) (_ : Json) : Except Text Text :=
  if message = admittedMessage then .ok admittedWallet
  else .error "no account".toList

def admittedEnvironment : Environment where
  lower := SiweMessage.lower
  recoverMessage := some admittedRecover

theorem admittedEnvironment_recoversSigner :
    admittedEnvironment.RecoversSigner fun account message =>
      account = admittedWallet ∧ message = admittedMessage := by
  intro recover installed message signature account recovered
  obtain rfl := Option.some.inj installed
  rw [admittedRecover] at recovered
  split at recovered
  next same => exact ⟨(Except.ok.inj recovered).symm, same⟩
  next => cases recovered

def admittedId : Text :=
  toHex (Sha256.sha256 (encodeUtf8
    (bindingText admittedEnvironment admittedPid admittedWallet
      admittedMessage)))

def admittedEntry : List (Text × Json) :=
  [("binding_id".toList, .str admittedId),
    ("type".toList, .str "operator".toList),
    ("evm_address".toList, .str admittedWallet),
    ("siwe_message".toList, .str admittedMessage),
    ("siwe_signature".toList, .str "0x".toList),
    ("pid_signature".toList, .str (toHex []))]

def admittedDocument : Json :=
  .obj [("schema_version".toList, .int 3), ("pid".toList, .str admittedPid),
    ("public_key".toList, .str (toHex admittedKey)),
    ("bindings".toList, .arr [.obj admittedEntry]),
    ("document_signature".toList, .str (toHex []))]

/-- A key has signed the document and the binding. -/
def admittedSignatures : List (List UInt8 × List UInt8) :=
  [(admittedKey, domainPreimage domainIdentity
      [toHex (Sha256.sha256 (canonicalJson (identityBody admittedDocument)))]),
    (admittedKey, domainPreimage domainBinding [admittedId])]

def admittedScheme : Scheme := ledgerScheme Sha256.sha256 admittedSignatures

theorem hashContent_ledgerScheme (sha256 : List UInt8 → List UInt8)
    (signed : List (List UInt8 × List UInt8)) (data : List UInt8) :
    hashContent (ledgerScheme sha256 signed) data = toHex (sha256 data) := rfl

theorem hashContent_admittedScheme (data : List UInt8) :
    hashContent admittedScheme data = toHex (Sha256.sha256 data) := rfl

theorem pidOf_admittedScheme :
    pidOf admittedScheme admittedKey = admittedPid := by
  change hashContent admittedScheme admittedKey = admittedPid
  rw [hashContent_admittedScheme, pidOf_admittedKey]

/-- A document of the key is valid if the key has signed it first. -/
theorem verifyIdentityV3_ledgerScheme {document : Json}
    {others : List (List UInt8 × List UInt8)}
    (version : dictGet "schema_version" document = .ok (some (.int 3)))
    (pid : item "pid" document = .ok (.str admittedPid))
    (publicKey : item "public_key" document = .ok (.str (toHex admittedKey)))
    (signature : item "document_signature" document = .ok (.str (toHex []))) :
    verifyIdentityV3 (ledgerScheme Sha256.sha256 ((admittedKey,
        domainPreimage domainIdentity [toHex (Sha256.sha256
          (canonicalJson (identityBody document)))]) :: others)) document =
      .ok (true, "valid".toList) := by
  generalize isScheme : ledgerScheme Sha256.sha256 ((admittedKey,
    domainPreimage domainIdentity [toHex (Sha256.sha256
      (canonicalJson (identityBody document)))]) :: others) = scheme
  have hashes : ∀ data, hashContent scheme data = toHex (Sha256.sha256 data) := by
    rw [← isScheme]
    exact hashContent_ledgerScheme _ _
  have matched : pidMatchesValue scheme (.str admittedPid)
      (.str (toHex admittedKey)) = true :=
    pidMatchesValue_iff.mpr ⟨admittedPid, toHex admittedKey, rfl, rfl,
      pidMatchesKey_iff.mpr
        ⟨admittedKey, fromHex_toHex _, (hashes _).trans pidOf_admittedKey⟩⟩
  have signed : verifyValues scheme (identityPreimage scheme document)
      (.str (toHex [])) (.str (toHex admittedKey)) = true := by
    rw [identityPreimage, hashes, ← isScheme]
    exact verifyValues_ledgerScheme List.mem_cons_self []
  have checked : identityChecks scheme document =
      .ok (true, "valid".toList) := by
    refine bind_eq_ok.mpr ⟨some (.int 3), version, ?_⟩
    rw [if_neg (by decide)]
    refine bind_eq_ok.mpr ⟨.str admittedPid, pid, ?_⟩
    refine bind_eq_ok.mpr ⟨.str (toHex admittedKey), publicKey, ?_⟩
    rw [if_neg (not_not.mpr matched)]
    refine bind_eq_ok.mpr ⟨.str (toHex []), signature, ?_⟩
    rw [if_neg (not_not.mpr signed)]
    rfl
  rw [verifyIdentityV3, checked]

theorem verifyIdentityV3_admitted :
    verifyIdentityV3 admittedScheme admittedDocument =
      .ok (true, "valid".toList) :=
  verifyIdentityV3_ledgerScheme rfl rfl rfl rfl

def admittedRecord : Json :=
  .obj
    (setField "binding_type".toList (.str "operator".toList)
      (setField "public_key".toList (.str (toHex admittedKey))
        (setField "pid".toList (.str admittedPid) admittedEntry)))

/-- The record of the entry in a document of any key. -/
def recordWith (key : List UInt8) : Json :=
  .obj
    (setField "binding_type".toList (.str "operator".toList)
      (setField "public_key".toList (.str (toHex key))
        (setField "pid".toList (.str admittedPid) admittedEntry)))

theorem pid_recordWith (key : List UInt8) :
    (recordWith key).get "pid".toList = some (.str admittedPid) := by
  rw [recordWith, get_setField, if_neg (by decide), get_setField,
    if_neg (by decide), get_setField, if_pos rfl]

theorem key_recordWith (key : List UInt8) :
    (recordWith key).get "public_key".toList = some (.str (toHex key)) := by
  rw [recordWith, get_setField, if_neg (by decide), get_setField, if_pos rfl]

theorem statedProblem_recordWith (key : List UInt8) :
    statedProblem (recordWith key) (some (admittedPid, "operator".toList)) =
      none := by
  have hasType : (recordWith key).get "binding_type".toList =
      some (.str "operator".toList) := by
    rw [recordWith, get_setField, if_pos rfl]
  have samePid : ¬ ¬ (some (Json.str admittedPid)).any (IsText admittedPid) := by
    rw [not_not, Option.any_some, decide_eq_true_iff]
    rfl
  rw [statedProblem, pid_recordWith, hasType, if_neg samePid, if_neg]
  exact not_not.mpr rfl

theorem verifyWalletSignature_admitted :
    verifyWalletSignature admittedEnvironment admittedMessage
      (.str "0x".toList) admittedWallet = .ok (true, "valid (EOA)".toList) := by
  have recovered : admittedRecover admittedMessage (.str "0x".toList) =
      .ok admittedWallet := if_pos rfl
  simp only [verifyWalletSignature, admittedEnvironment, recovered, if_true]

/-- The record verifies for the key that has signed the identifier. -/
theorem verifyBinding_recordWith {key : List UInt8}
    {signed : List (List UInt8 × List UInt8)}
    (member : (key, domainPreimage domainBinding [admittedId]) ∈ signed) :
    verifyBinding (ledgerScheme Sha256.sha256 signed) admittedEnvironment
      (recordWith key) = .ok (true, "valid".toList) := by
  have countersigned : verifyValues (ledgerScheme Sha256.sha256 signed)
      (domainPreimage domainBinding [admittedId]) (.str (toHex []))
      (.str (toHex key)) = true :=
    verifyValues_ledgerScheme member []
  refine bind_eq_ok.mpr ⟨.str admittedMessage, rfl, ?_⟩
  refine bind_eq_ok.mpr ⟨admittedMessage, rfl, ?_⟩
  refine bind_eq_ok.mpr ⟨.str admittedPid, rfl, ?_⟩
  refine bind_eq_ok.mpr ⟨.str admittedWallet, rfl, ?_⟩
  refine bind_eq_ok.mpr ⟨admittedWallet, rfl, ?_⟩
  refine bind_eq_ok.mpr ⟨admittedId, ?_, ?_⟩
  · exact computeBindingId_eq_ok.mpr
      ⟨admittedPid, rfl, hashContent_ledgerScheme _ _ _⟩
  refine bind_eq_ok.mpr ⟨.str admittedId, rfl, ?_⟩
  simp only [if_neg (not_not.mpr (isText_iff.mpr (rfl :
    Json.str admittedId = .str admittedId))), parseBindingStatement_admitted,
    statedProblem_recordWith]
  refine bind_eq_ok.mpr ⟨.str "0x".toList, rfl, ?_⟩
  simp only [verifyWalletSignature_admitted]
  refine bind_eq_ok.mpr ⟨.str (toHex []), rfl, ?_⟩
  refine bind_eq_ok.mpr ⟨.str (toHex key), rfl, ?_⟩
  rw [counterText, if_neg (not_not.mpr countersigned)]
  rfl

theorem verifyBinding_admitted {signed : List (List UInt8 × List UInt8)}
    (member : (admittedKey, domainPreimage domainBinding [admittedId]) ∈
      signed) :
    verifyBinding (ledgerScheme Sha256.sha256 signed) admittedEnvironment
      admittedRecord = .ok (true, "valid".toList) :=
  verifyBinding_recordWith member

theorem isLegacyBinding_admitted : isLegacyBinding admittedRecord = .ok false := by
  refine bind_eq_ok.mpr ⟨admittedMessage, rfl, ?_⟩
  rw [parseBindingStatement_admitted]
  rfl

theorem operatorIsBound_admitted :
    operatorIsBound admittedScheme admittedEnvironment admittedDocument
      (some admittedWallet) = .ok (true, "bound".toList) := by
  refine bind_eq_ok.mpr ⟨some (.arr [.obj admittedEntry]), rfl, ?_⟩
  refine bind_eq_ok.mpr ⟨[.obj admittedEntry], rfl, ?_⟩
  rw [findBinding]
  refine bind_eq_ok.mpr ⟨admittedWallet, rfl, ?_⟩
  rw [Option.getD_some, if_neg (not_not.mpr rfl)]
  refine bind_eq_ok.mpr ⟨admittedRecord, rfl, ?_⟩
  refine bind_eq_ok.mpr ⟨false, isLegacyBinding_admitted, ?_⟩
  have verified : verifyBinding admittedScheme admittedEnvironment
      admittedRecord = .ok (true, "valid".toList) :=
    verifyBinding_admitted (List.mem_cons_of_mem _ List.mem_cons_self)
  exact bind_eq_ok.mpr ⟨_, verified, rfl⟩

theorem checkPeer_admitted :
    checkPeer admittedScheme admittedEnvironment
        (fun _ => .ok ⟨true, some admittedWallet, none⟩)
        (fun _ _ => .ok admittedDocument) admittedPid
        "pillar.example".toList 7070 = (true, "bound".toList) := by
  have checked : peerChecks admittedScheme admittedEnvironment
      (fun _ => .ok ⟨true, some admittedWallet, none⟩)
      (fun _ _ => .ok admittedDocument) admittedPid
      "pillar.example".toList 7070 = .ok (true, "bound".toList) := by
    refine bind_eq_ok.mpr ⟨⟨true, some admittedWallet, none⟩, rfl, ?_⟩
    rw [if_neg (not_not.mpr rfl)]
    refine bind_eq_ok.mpr ⟨admittedDocument, rfl, ?_⟩
    refine bind_eq_ok.mpr ⟨_, verifyIdentityV3_admitted, ?_⟩
    rw [if_neg (not_not.mpr rfl)]
    refine bind_eq_ok.mpr ⟨some (.str admittedPid), rfl, ?_⟩
    have named : (some (Json.str admittedPid)).any (IsText admittedPid) := by
      rw [Option.any_some, decide_eq_true_iff]
      rfl
    rw [if_neg (not_not.mpr named)]
    exact operatorIsBound_admitted
  rw [checkPeer, checked]

theorem admissionSound_admitted :
    checkPeer admittedScheme admittedEnvironment
        (fun _ => .ok ⟨true, some admittedWallet, none⟩)
        (fun _ _ => .ok admittedDocument) admittedPid
        "pillar.example".toList 7070 = (true, "bound".toList) ∧
      AdmissionSound admittedScheme admittedEnvironment
        (fun publicKey data => (publicKey, data) ∈ admittedSignatures)
        (fun account message =>
          account = admittedWallet ∧ message = admittedMessage) := by
  exact ⟨checkPeer_admitted,
    admissionSound (ledgerScheme_unforgeable _ _)
      admittedEnvironment_recoversSigner⟩

end Admitted

end PeerAdmission

end RefinetPillars
