import RefinetPillars.JsonDocuments
import RefinetPillars.PeerAdmission
import RefinetPillars.ServiceReceipts

/-!
# Receipts that count once

What a requester has signed is filed once, as long as its signature is always
spelled in the same way, and no day has more receipts than the caps allow.
-/

namespace RefinetPillars

namespace ServiceReceipts

open HexText DecimalText KeyRecovery ContentSigning JsonText ExceptRules
open WalletBinding (IsText pidMatchesValue pidMatchesValue_iff verifyValues)
open PeerTable (str)
open PeerAdmission (admittedKey admittedPid pidOf_admittedKey)

section Statements

/-- A key has at most one signature of some data, and no two keys that have
signed share their PID. -/
structure SignsOnce (scheme : Scheme) : Prop where
  signature : ∀ {publicKey signature other data},
    scheme.verify publicKey signature data = true →
    scheme.verify publicKey other data = true → signature = other
  publicKey : ∀ {publicKey other signature otherSignature data},
    pidOf scheme publicKey = pidOf scheme other →
    scheme.verify publicKey signature data = true →
    scheme.verify other otherSignature data = true → publicKey = other

/-- What the signature of a receipt covers. -/
def statementOf (env : Environment) (receipt : Json) : Option Statement :=
  (signedFields env receipt).toOption.map Prod.snd

/-- At most one row is filed for a statement, and a day has no more rows than
the caps allow. -/
structure CountsOnce (env : Environment) (ledger : Ledger) : Prop where
  once : ∀ statement, (ledger.rows.countP fun row =>
    decide (statementOf env row.receipt = some statement)) ≤ 1
  perRequester : ∀ day requesterPid, (ledger.rows.countP fun row =>
    decide (row.createdOn = day ∧ row.requesterPid = requesterPid)) ≤
      maxReceiptsPerRequesterPerDay
  inTotal : ∀ day, (ledger.rows.countP fun row =>
    decide (row.createdOn = day)) ≤ maxReceiptsPerDay

variable (env : Environment) (ownPid : Text)

/-- A receipt that passes the checks spells its signature as the receipt on
file with the same statement and the same signature does. -/
def SpellsAlike (ledger : Ledger) (submission : Submission) : Prop :=
  ∀ checked, check env ownPid (queryOf submission.selector) submission.moment
      ledger = .ok checked →
    ∀ row ∈ ledger.rows,
      statementOf env row.receipt = statementOf env checked.receipt →
      fromHex row.signature = fromHex checked.signature →
      row.signature = checked.signature

/-- A condition on every submission and the ledger that it meets. -/
def Throughout (condition : Ledger → Submission → Prop) :
    Ledger → List Submission → Prop
  | _, [] => True
  | ledger, submission :: submissions =>
      condition ledger submission ∧
        Throughout condition (handleReceipt env ownPid submission ledger).1
          submissions

end Statements

section Checks

variable {env : Environment} {receipt : Json}

theorem item_eq_ok {key : String} {value : Json} :
    item key receipt = .ok value ↔ receipt.get key.toList = some value := by
  unfold item
  cases receipt.get key.toList <;> simp

theorem textOf_eq_ok {value : Option Json} {text : Text} :
    textOf value = .ok text ↔ value = some (.str text) := by
  unfold textOf
  split
  next found => simp
  next missing =>
    constructor
    · rintro ⟨⟩
    · rintro rfl
      exact (missing text rfl).elim

/-- What is valid has a signature by a key of its PID. -/
structure Valid (env : Environment) (receipt publicKey : Json)
    (signature : Text) (statement : Statement) : Prop where
  fields : signedFields env receipt = .ok (.str signature, statement)
  signed : ∃ key bytes, fromHex signature = some bytes ∧
    pidOf env.scheme key = statement.pid ∧
    env.scheme.verify key bytes statement.preimage = true

theorem exists_of_signedFields {signature : Json} {statement : Statement}
    (fields : signedFields env receipt = .ok (signature, statement)) :
    receipt.get "sig".toList = some signature ∧
      ∃ pid, receipt.get "pid".toList = some pid ∧
        statement.pid = str env.repr pid := by
  obtain ⟨pid, hasPid, fields⟩ := bind_eq_ok.mp fields
  obtain ⟨sig, hasSignature, fields⟩ := bind_eq_ok.mp fields
  obtain ⟨resource, -, fields⟩ := bind_eq_ok.mp fields
  obtain ⟨time, -, fields⟩ := bind_eq_ok.mp fields
  obtain ⟨fetchedAt, -, fields⟩ := bind_eq_ok.mp fields
  obtain ⟨hash, -, fields⟩ := bind_eq_ok.mp fields
  obtain ⟨status, -, fields⟩ := bind_eq_ok.mp fields
  obtain ⟨rfl, rfl⟩ := Prod.mk.inj (Except.ok.inj fields)
  exact ⟨item_eq_ok.mp hasSignature, pid, item_eq_ok.mp hasPid, rfl⟩

theorem exists_of_verifyValues {scheme : Scheme} {data : List UInt8}
    {signature publicKey : Json}
    (verified : verifyValues scheme data signature publicKey = true) :
    ∃ signatureHex publicKeyHex bytes key, signature = .str signatureHex ∧
      publicKey = .str publicKeyHex ∧ fromHex signatureHex = some bytes ∧
      fromHex publicKeyHex = some key ∧
      scheme.verify key bytes data = true := by
  unfold verifyValues at verified
  split at verified
  next signatureHex publicKeyHex =>
    unfold verifySignature at verified
    split at verified
    next key bytes hasKey hasBytes =>
      exact ⟨signatureHex, publicKeyHex, bytes, key, rfl, rfl, hasBytes, hasKey,
        verified⟩
    next => cases verified
  next => cases verified

theorem exists_valid_of_witnessChecks {publicKey : Json} {reason : Text}
    (checked : witnessChecks env receipt publicKey = .ok (true, reason)) :
    ∃ signature statement, Valid env receipt publicKey signature statement := by
  unfold witnessChecks at checked
  split at checked
  next entries =>
    split at checked
    · cases checked
    split at checked
    · cases checked
    obtain ⟨pid, hasPid, checked⟩ := bind_eq_ok.mp checked
    split at checked
    · cases checked
    next matched =>
      obtain ⟨⟨signature, statement⟩, fields, checked⟩ :=
        bind_eq_ok.mp checked
      dsimp only at checked
      split at checked
      next verified =>
        obtain ⟨pidText, publicKeyHex, rfl, rfl, hashes⟩ :=
          pidMatchesValue_iff.mp (not_not.mp matched)
        obtain ⟨key, hasKey, isPid⟩ := pidMatchesKey_iff.mp hashes
        obtain ⟨signatureHex, keyHex, bytes, named, rfl, isKey, hasBytes,
          hasNamed, verifies⟩ := exists_of_verifyValues verified
        obtain rfl := Json.str.inj isKey
        obtain rfl := Option.some.inj (hasKey.symm.trans hasNamed)
        obtain ⟨-, signer, hasSigner, stated⟩ := exists_of_signedFields fields
        obtain rfl := Option.some.inj
          ((item_eq_ok.mp hasPid).symm.trans hasSigner)
        exact ⟨signatureHex, statement, fields, key, bytes, hasBytes,
          isPid.trans stated.symm, verifies⟩
      next => cases checked
  next => cases checked

theorem exists_valid_of_witnessed {publicKey : Json}
    (verified : witnessed env receipt publicKey = .ok ()) :
    ∃ signature statement, Valid env receipt publicKey signature statement := by
  unfold witnessed at verified
  split at verified
  next accepted =>
    unfold verifyWitness at accepted
    split at accepted
    next reason checked => exact exists_valid_of_witnessChecks checked
    all_goals cases accepted
  all_goals cases verified

end Checks

section Rows

variable {env : Environment} {ownPid query : Text} {moment : Moment}
  {ledger : Ledger} {checked : Checked}

theorem exists_of_check (passed : check env ownPid query moment ledger =
    .ok checked) :
    ∃ publicKey, witnessed env checked.receipt publicKey = .ok () ∧
      checked.receipt.get "sig".toList = some (.str checked.signature) ∧
      checkCaps ownPid checked.requesterPid moment ledger = .ok () := by
  obtain ⟨payload, -, passed⟩ := bind_eq_ok.mp passed
  obtain ⟨receipt, -, passed⟩ := bind_eq_ok.mp passed
  obtain ⟨publicKey, -, passed⟩ := bind_eq_ok.mp passed
  obtain ⟨⟨⟩, verified, passed⟩ := bind_eq_ok.mp passed
  obtain ⟨⟨⟩, -, passed⟩ := bind_eq_ok.mp passed
  obtain ⟨requesterPid, -, passed⟩ := bind_eq_ok.mp passed
  obtain ⟨⟨⟩, -, passed⟩ := bind_eq_ok.mp passed
  obtain ⟨⟨⟩, room, passed⟩ := bind_eq_ok.mp passed
  obtain ⟨key, -, passed⟩ := bind_eq_ok.mp passed
  obtain ⟨signature, hasSignature, passed⟩ := bind_eq_ok.mp passed
  obtain ⟨status, -, passed⟩ := bind_eq_ok.mp passed
  obtain rfl := Except.ok.inj passed
  exact ⟨publicKey, verified, textOf_eq_ok.mp hasSignature, room⟩

/-- A checked receipt is valid, and neither cap has been reached. -/
theorem exists_valid_of_check (passed : check env ownPid query moment ledger =
    .ok checked) :
    ∃ publicKey statement, Valid env checked.receipt publicKey
      checked.signature statement := by
  obtain ⟨publicKey, verified, hasSignature, -⟩ := exists_of_check passed
  obtain ⟨signature, statement, valid⟩ := exists_valid_of_witnessed verified
  have same := (exists_of_signedFields valid.fields).1.symm.trans hasSignature
  obtain rfl := Json.str.inj (Option.some.inj same)
  exact ⟨publicKey, statement, valid⟩

theorem room_of_check (passed : check env ownPid query moment ledger =
    .ok checked) :
    countServiceProofsToday ownPid checked.requesterPid moment.requesterToday
        ledger < maxReceiptsPerRequesterPerDay ∧
      countServiceProofsToday ownPid [] moment.today ledger <
        maxReceiptsPerDay := by
  obtain ⟨-, -, -, room⟩ := exists_of_check passed
  unfold checkCaps at room
  split at room
  · cases room
  next perRequester =>
    split at room
    · cases room
    next inTotal => exact ⟨not_le.mp perRequester, not_le.mp inTotal⟩

theorem rows_insertServiceProof {row : Row} {ledger : Ledger}
    (absent : row.proofId ∉ ledger.rows.map Row.proofId) :
    (insertServiceProof row ledger).1.rows = ledger.rows ++ [row] := by
  rw [insertServiceProof, dif_neg absent]

theorem insertServiceProof_cases (row : Row) (ledger : Ledger) :
    (insertServiceProof row ledger).1 = ledger ∨
      row.proofId ∉ ledger.rows.map Row.proofId ∧
        (insertServiceProof row ledger).1.rows = ledger.rows ++ [row] := by
  by_cases present : row.proofId ∈ ledger.rows.map Row.proofId
  · rw [insertServiceProof, dif_pos present]
    exact .inl rfl
  · exact .inr ⟨present, rows_insertServiceProof present⟩

/-- What a submission adds to the ledger is a row for a checked receipt. -/
theorem handleReceipt_cases (env : Environment) (ownPid : Text)
    (submission : Submission) (ledger : Ledger) :
    (handleReceipt env ownPid submission ledger).1 = ledger ∨
      ∃ checked resource, check env ownPid (queryOf submission.selector)
          submission.moment ledger = .ok checked ∧
        proofIdOf env checked.signature ∉ ledger.rows.map Row.proofId ∧
        (handleReceipt env ownPid submission ledger).1.rows = ledger.rows ++
          [checked.row env ownPid resource submission.moment.createdOn] := by
  unfold handleReceipt
  split
  · exact .inl rfl
  next checked passed =>
    split
    next resource isText =>
      rcases insertServiceProof_cases (checked.row env ownPid resource
          submission.moment.createdOn) ledger with same | ⟨absent, rows⟩
      · exact .inl same
      · exact .inr ⟨checked, resource, passed, absent, rows⟩
    next => exact .inl rfl

end Rows

section Runs

variable {env : Environment} {ownPid : Text} {ledger : Ledger}
  {submission : Submission} {submissions : List Submission}

/-- What all rows have in common. -/
structure Filed (env : Environment) (ownPid : Text) (row : Row) : Prop where
  pid : row.pid = ownPid
  proofId : row.proofId = proofIdOf env row.signature
  valid : ∃ publicKey statement,
    Valid env row.receipt publicKey row.signature statement

/-- A predicate that every new row keeps holds of every row. -/
theorem forall_filed_of_handleReceipt
    (filed : ∀ row ∈ ledger.rows, Filed env ownPid row) :
    ∀ row ∈ (handleReceipt env ownPid submission ledger).1.rows,
      Filed env ownPid row := by
  rcases handleReceipt_cases env ownPid submission ledger with
    same | ⟨checked, resource, passed, -, rows⟩
  · rw [same]
    exact filed
  · rw [rows]
    intro row member
    rcases List.mem_append.mp member with older | newest
    · exact filed row older
    · obtain rfl := List.mem_singleton.mp newest
      exact ⟨rfl, rfl, exists_valid_of_check passed⟩

theorem countP_append_singleton_le {rows : List Row} {row : Row} {limit : Nat}
    {counted : Row → Bool} (bounded : rows.countP counted ≤ limit)
    (room : counted row = true → rows.countP counted < limit) :
    (rows ++ [row]).countP counted ≤ limit := by
  rw [List.countP_append, List.countP_singleton]
  split
  next isCounted =>
    have room := room isCounted
    omega
  next => omega

/-- Rows of one day are counted from that day, or an earlier one, on. -/
theorem countP_le_countServiceProofsToday {pid requesterPid : Text}
    {day today : Nat} {counted : Row → Bool} (notLater : today ≤ day)
    (meaning : ∀ row ∈ ledger.rows, counted row = true →
      row.createdOn = day ∧ row.pid = pid ∧
        (requesterPid = [] ∨ row.requesterPid = requesterPid)) :
    ledger.rows.countP counted ≤
      countServiceProofsToday pid requesterPid today ledger := by
  refine List.countP_mono_left fun row member isCounted => ?_
  obtain ⟨onDay, ofPid, ofRequester⟩ := meaning row member isCounted
  simp only [meets, Bool.and_eq_true, Bool.or_eq_true, decide_eq_true_eq]
  exact ⟨⟨notLater.trans_eq onDay.symm, .inr ofPid⟩, ofRequester⟩

/-- Two rows with one statement have the same signature. -/
theorem bytes_eq_of_valid (once : SignsOnce env.scheme)
    {receipt other publicKey otherKey : Json} {signature otherSignature : Text}
    {statement : Statement}
    (valid : Valid env receipt publicKey signature statement)
    (otherValid : Valid env other otherKey otherSignature statement) :
    fromHex signature = fromHex otherSignature := by
  obtain ⟨key, bytes, hasBytes, isPid, verifies⟩ := valid.signed
  obtain ⟨otherKey, otherBytes, hasOther, isOther, otherVerifies⟩ :=
    otherValid.signed
  obtain rfl := once.publicKey (isPid.trans isOther.symm) verifies
    otherVerifies
  rw [hasBytes, hasOther, once.signature verifies otherVerifies]

theorem Valid.statementOf_eq {receipt publicKey : Json} {signature : Text}
    {statement : Statement}
    (valid : Valid env receipt publicKey signature statement) :
    statementOf env receipt = some statement := by
  rw [statementOf, valid.fields]
  rfl

/-- A statement that is on file is not filed again. -/
theorem statement_fresh (once : SignsOnce env.scheme)
    (filed : ∀ row ∈ ledger.rows, Filed env ownPid row)
    (alike : SpellsAlike env ownPid ledger submission) {checked : Checked}
    (passed : check env ownPid (queryOf submission.selector) submission.moment
      ledger = .ok checked)
    (absent : proofIdOf env checked.signature ∉ ledger.rows.map Row.proofId)
    {row : Row} (member : row ∈ ledger.rows) :
    statementOf env row.receipt ≠ statementOf env checked.receipt := by
  intro same
  obtain ⟨publicKey, statement, valid⟩ := exists_valid_of_check passed
  obtain ⟨rowKey, rowStatement, rowValid⟩ := (filed row member).valid
  obtain rfl : rowStatement = statement := by
    rw [rowValid.statementOf_eq, valid.statementOf_eq] at same
    exact Option.some.inj same
  have spelled : row.signature = checked.signature :=
    alike checked passed row member same (bytes_eq_of_valid once rowValid valid)
  refine absent (List.mem_map.mpr ⟨row, member, ?_⟩)
  rw [(filed row member).proofId, spelled]

/-- One submission. -/
theorem countsOnce_of_handleReceipt (once : SignsOnce env.scheme)
    (filed : ∀ row ∈ ledger.rows, Filed env ownPid row)
    (alike : SpellsAlike env ownPid ledger submission)
    (counts : CountsOnce env ledger) :
    CountsOnce env (handleReceipt env ownPid submission ledger).1 := by
  rcases handleReceipt_cases env ownPid submission ledger with
    same | ⟨checked, resource, passed, absent, rows⟩
  · rw [same]
    exact counts
  have room := room_of_check passed
  constructor
  case once =>
      intro statement
      rw [rows]
      refine countP_append_singleton_le (counts.once statement) fun named => ?_
      rw [Nat.lt_one_iff, List.countP_eq_zero]
      intro row member isNamed
      exact statement_fresh once filed alike passed absent member
        ((of_decide_eq_true isNamed).trans (of_decide_eq_true named).symm)
  case perRequester =>
      intro day requesterPid
      rw [rows]
      refine countP_append_singleton_le (counts.perRequester day requesterPid)
        fun named => lt_of_le_of_lt ?_ room.1
      obtain ⟨rfl, rfl⟩ := of_decide_eq_true named
      refine countP_le_countServiceProofsToday
        submission.moment.requesterToday_le fun row member isCounted => ?_
      obtain ⟨onDay, ofRequester⟩ := of_decide_eq_true isCounted
      exact ⟨onDay, (filed row member).pid, .inr ofRequester⟩
  case inTotal =>
      intro day
      rw [rows]
      refine countP_append_singleton_le (counts.inTotal day)
        fun named => lt_of_le_of_lt ?_ room.2
      obtain rfl := of_decide_eq_true named
      refine countP_le_countServiceProofsToday submission.moment.today_le
        fun row member isCounted => ?_
      exact ⟨of_decide_eq_true isCounted, (filed row member).pid, .inl rfl⟩

theorem run_cons : run env ownPid (submission :: submissions) ledger =
    run env ownPid submissions
      (handleReceipt env ownPid submission ledger).1 := rfl

theorem countsOnce_of_run (once : SignsOnce env.scheme)
    (filed : ∀ row ∈ ledger.rows, Filed env ownPid row)
    (alike : Throughout env ownPid (SpellsAlike env ownPid) ledger submissions)
    (counts : CountsOnce env ledger) :
    CountsOnce env (run env ownPid submissions ledger) := by
  induction submissions generalizing ledger with
  | nil => exact counts
  | cons submission submissions ih =>
      rw [run_cons]
      exact ih (forall_filed_of_handleReceipt filed) alike.2
        (countsOnce_of_handleReceipt once filed alike.1 counts)

theorem countsOnce_empty : CountsOnce env Ledger.empty :=
  ⟨fun _ => Nat.zero_le _, fun _ _ => Nat.zero_le _, fun _ => Nat.zero_le _⟩

end Runs

section Examples

/-- What a requester has signed. -/
def signedStatement : Statement where
  pid := admittedPid
  resource := "refinet://pillar/0a/about".toList
  fetchedAt := 1700000000
  hash := "00".toList
  status := "match".toList

def signedBytes : List UInt8 := List.replicate 64 94

/-- Nothing but the one signature verifies. -/
def signedScheme : Scheme where
  sha256 := Sha256.sha256
  publicKey := id
  sign _ _ := signedBytes
  verify publicKey signature data := publicKey = admittedKey ∧
    signature = signedBytes ∧ data = signedStatement.preimage

theorem signsOnce_signedScheme : SignsOnce signedScheme where
  signature first second :=
    (of_decide_eq_true first).2.1.trans (of_decide_eq_true second).2.1.symm
  publicKey _ first second :=
    (of_decide_eq_true first).1.trans (of_decide_eq_true second).1.symm

def signedEnvironment : Environment where
  scheme := signedScheme
  floatRepr := id
  truncate _ := none
  repr _ := []

/-- The texts of a receipt with some spelling of the signature. -/
def receiptFields (spelled : Text) : List (Text × Text) :=
  [("pid".toList, admittedPid),
    ("resource".toList, "refinet://pillar/0a/about".toList),
    ("fetched_at".toList, "1700000000".toList), ("hash".toList, "00".toList),
    ("status".toList, "match".toList), ("sig".toList, spelled)]

def signedReceipt (spelled : Text) : Json :=
  .obj (("v".toList, .int 1) ::
    (receiptFields spelled).map fun entry => (entry.1, Json.str entry.2))

def keyFields : List (Text × Text) :=
  [("public_key".toList, toHex admittedKey)]

def signedQuery (spelled : Text) : Text :=
  '\x7b' :: (printedFields keyFields ++
    (",\"receipt\":\x7b\"v\":1,".toList ++
      (printedFields (receiptFields spelled) ++ ['\x7d', '\x7d'])))

def signedPayload (spelled : Text) : Json :=
  .obj [("public_key".toList, .str (toHex admittedKey)),
    ("receipt".toList, signedReceipt spelled)]

theorem loads_signedQuery {spelled : Text} (plain : IsPlain spelled) :
    loads id (signedQuery spelled) = some (signedPayload spelled) := by
  have plainKey : ∀ entry ∈ keyFields, IsPlain entry.1 ∧ IsPlain entry.2 := by
    decide +kernel
  have plainFields : ∀ entry ∈ receiptFields spelled,
      IsPlain entry.1 ∧ IsPlain entry.2 := by
    intro entry member
    simp only [receiptFields, List.mem_cons, List.not_mem_nil, or_false] at member
    rcases member with rfl | rfl | rfl | rfl | rfl | rfl
    case inr.inr.inr.inr.inr =>
        have plainName : IsPlain "sig".toList := by decide
        exact ⟨plainName, plain⟩
    all_goals exact ⟨by decide +kernel, by decide +kernel⟩
  have opened : ∀ rest : Text, ('\x7b' :: ('"' :: rest)).foldlM (step id)
      ⟨[], .value⟩ = ('"' :: rest).foldlM (step id)
        ⟨[.object [] none], .key⟩ := fun _ => rfl
  have between : ∀ rest : Text,
      (",\"receipt\":\x7b\"v\":1,".toList ++ rest).foldlM (step id)
        ⟨[.object [("public_key".toList, .str (toHex admittedKey))] none],
          .next⟩ =
      rest.foldlM (step id)
        ⟨[.object [("v".toList, .int 1)] none,
          .object [("public_key".toList, .str (toHex admittedKey))]
            (some "receipt".toList)], .key⟩ := fun _ => rfl
  have closed : ['\x7d', '\x7d'].foldlM (step id)
      ⟨[.object ([("v".toList, Json.int 1)] ++
          (receiptFields spelled).map fun entry => (entry.1, Json.str entry.2))
          none,
        .object [("public_key".toList, .str (toHex admittedKey))]
          (some "receipt".toList)], .next⟩ =
      some ⟨[], .done (signedPayload spelled)⟩ := rfl
  obtain ⟨text, quoted⟩ := exists_printedFields_eq_cons
    ("public_key".toList, toHex admittedKey) []
  have run : (signedQuery spelled).foldlM (step id) ⟨[], .value⟩ =
      some ⟨[], .done (signedPayload spelled)⟩ := by
    rw [signedQuery, keyFields, quoted, List.cons_append, opened,
      ← List.cons_append, ← quoted,
      run_printedFields id plainKey [] [] _ (by decide), List.nil_append]
    refine (between _).trans ?_
    rw [receiptFields, run_printedFields id plainFields _ _ _ (by simp)]
    exact closed
  rw [loads, run]
  rfl

theorem signedFields_signedReceipt (spelled : Text) :
    signedFields signedEnvironment (signedReceipt spelled) =
      .ok (.str spelled, signedStatement) := by
  have time : int "1700000000".toList = some 1700000000 := by decide +kernel
  refine bind_eq_ok.mpr ⟨.str admittedPid, rfl, ?_⟩
  refine bind_eq_ok.mpr ⟨.str spelled, rfl, ?_⟩
  refine bind_eq_ok.mpr ⟨.str "refinet://pillar/0a/about".toList, rfl, ?_⟩
  refine bind_eq_ok.mpr ⟨.str "1700000000".toList, rfl, ?_⟩
  refine bind_eq_ok.mpr ⟨1700000000, ?_, rfl⟩
  rw [intOf, time]

theorem verifyWitness_signedReceipt {spelled : Text}
    (reads : fromHex spelled = some signedBytes) :
    verifyWitness signedEnvironment (signedReceipt spelled)
      (.str (toHex admittedKey)) = .ok none := by
  have matched : pidMatchesValue signedEnvironment.scheme (.str admittedPid)
      (.str (toHex admittedKey)) = true :=
    pidMatchesValue_iff.mpr ⟨_, _, rfl, rfl, pidMatchesKey_iff.mpr
      ⟨admittedKey, fromHex_toHex _, pidOf_admittedKey⟩⟩
  have verified : verifyValues signedEnvironment.scheme
      signedStatement.preimage (.str spelled) (.str (toHex admittedKey)) =
        true := by
    rw [verifyValues, verifySignature, fromHex_toHex, reads]
    have same : admittedKey = admittedKey ∧ signedBytes = signedBytes ∧
        signedStatement.preimage = signedStatement.preimage := ⟨rfl, rfl, rfl⟩
    exact decide_eq_true same
  have checks : witnessChecks signedEnvironment (signedReceipt spelled)
      (.str (toHex admittedKey)) = .ok (true, "valid".toList) := by
    have version : ((signedReceipt spelled).get "v".toList).any isOne = true :=
      rfl
    have status : (statuses.any fun status =>
        ((signedReceipt spelled).get "status".toList).any
          (IsText status)) = true := rfl
    rw [signedReceipt] at version status ⊢
    rw [witnessChecks, if_neg (not_not.mpr version),
      if_neg (not_not.mpr status)]
    refine bind_eq_ok.mpr ⟨.str admittedPid, rfl, ?_⟩
    rw [if_neg (not_not.mpr matched)]
    exact bind_eq_ok.mpr
      ⟨_, signedFields_signedReceipt spelled, if_pos verified⟩
  rw [verifyWitness, checks]

def signedMoment : Moment := ⟨0, 0, 0, le_rfl, le_rfl⟩

def submissionOf (spelled : Text) : Submission where
  selector := "/proof/receipt".toList ++ Char.ofNat 9 :: signedQuery spelled
  moment := signedMoment

theorem queryOf_submissionOf (spelled : Text) :
    queryOf (submissionOf spelled).selector = signedQuery spelled :=
  rfl

def checkedReceipt (spelled : Text) : Checked where
  receipt := signedReceipt spelled
  requesterPid := admittedPid
  publicKey := toHex admittedKey
  signature := spelled
  resource := .str "refinet://pillar/0a/about".toList
  status := "match".toList

def servingPid : Text := "0a".toList

/-- There is room in a ledger with few rows. -/
theorem checkCaps_of_length {ledger : Ledger} {requesterPid : Text}
    (few : ledger.rows.length < 500) :
    checkCaps servingPid requesterPid signedMoment ledger = .ok () := by
  have counted : ∀ requesterPid today, countServiceProofsToday servingPid
      requesterPid today ledger < 500 :=
    fun _ _ => lt_of_le_of_lt List.countP_le_length few
  have perRequester := counted requesterPid signedMoment.requesterToday
  have inTotal := counted [] signedMoment.today
  rw [checkCaps, maxReceiptsPerRequesterPerDay, maxReceiptsPerDay,
    if_neg (by omega), if_neg (by omega)]

theorem check_submissionOf {spelled : Text} (plain : IsPlain spelled)
    (reads : fromHex spelled = some signedBytes) {ledger : Ledger}
    (few : ledger.rows.length < 500) :
    check signedEnvironment servingPid
      (queryOf (submissionOf spelled).selector) (submissionOf spelled).moment
        ledger = .ok (checkedReceipt spelled) := by
  rw [queryOf_submissionOf]
  refine bind_eq_ok.mpr ⟨signedPayload spelled, ?_, ?_⟩
  · have nonempty : signedQuery spelled ≠ [] := List.cons_ne_nil _ _
    have loaded : loads signedEnvironment.floatRepr (signedQuery spelled) = _ :=
      loads_signedQuery plain
    rw [readPayload, if_neg nonempty, loaded]
  refine bind_eq_ok.mpr ⟨signedReceipt spelled, rfl, ?_⟩
  refine bind_eq_ok.mpr ⟨.str (toHex admittedKey), rfl, ?_⟩
  refine bind_eq_ok.mpr ⟨(), ?_, ?_⟩
  · rw [witnessed, verifyWitness_signedReceipt reads]
  have resource : resourceOf (signedReceipt spelled) =
      .str "refinet://pillar/0a/about".toList := rfl
  refine bind_eq_ok.mpr ⟨(), ?_, ?_⟩
  · have size : length (.str "refinet://pillar/0a/about".toList) = some 25 :=
      rfl
    have named : contains servingPid
        (.str "refinet://pillar/0a/about".toList) = true := by decide +kernel
    rw [resource, checkResource, size]
    dsimp only
    rw [if_neg (by decide), if_neg (not_not.mpr named)]
  refine bind_eq_ok.mpr ⟨admittedPid, rfl, ?_⟩
  refine bind_eq_ok.mpr ⟨(), if_neg (by decide +kernel), ?_⟩
  exact bind_eq_ok.mpr ⟨(), checkCaps_of_length few, rfl⟩

theorem rows_handleReceipt {env : Environment} {ownPid resource : Text}
    {submission : Submission} {ledger : Ledger} {checked : Checked}
    (passed : check env ownPid (queryOf submission.selector) submission.moment
      ledger = .ok checked) (isText : checked.resource = .str resource)
    (absent : proofIdOf env checked.signature ∉
      ledger.rows.map Row.proofId) :
    (handleReceipt env ownPid submission ledger).1.rows = ledger.rows ++
      [checked.row env ownPid resource submission.moment.createdOn] := by
  rw [handleReceipt, passed]
  dsimp only
  rw [isText]
  exact rows_insertServiceProof absent

def rowOf (spelled : Text) : Row :=
  (checkedReceipt spelled).row signedEnvironment servingPid
    "refinet://pillar/0a/about".toList 0

theorem rows_filed {spelled : Text} (plain : IsPlain spelled)
    (reads : fromHex spelled = some signedBytes) {ledger : Ledger}
    (few : ledger.rows.length < 500)
    (absent : (rowOf spelled).proofId ∉ ledger.rows.map Row.proofId) :
    (handleReceipt signedEnvironment servingPid (submissionOf spelled)
      ledger).1.rows = ledger.rows ++ [rowOf spelled] := by
  have isText : (checkedReceipt spelled).resource =
      .str "refinet://pillar/0a/about".toList := rfl
  exact rows_handleReceipt (check_submissionOf plain reads few) isText absent

def lowerSpelling : Text := (List.replicate 64 ['5', 'e']).flatten

def upperSpelling : Text := (List.replicate 64 ['5', 'E']).flatten

theorem reads_spellings : fromHex lowerSpelling = some signedBytes ∧
    fromHex upperSpelling = some signedBytes := by
  constructor <;> decide +kernel

theorem plain_spellings : IsPlain lowerSpelling ∧ IsPlain upperSpelling := by
  constructor <;> decide +kernel

/-- The ledger with the receipt. -/
def firstLedger : Ledger :=
  (handleReceipt signedEnvironment servingPid (submissionOf lowerSpelling)
    Ledger.empty).1

theorem rows_firstLedger : firstLedger.rows = [rowOf lowerSpelling] := by
  have few : Ledger.empty.rows.length < 500 := Nat.zero_lt_succ _
  have absent : (rowOf lowerSpelling).proofId ∉
      Ledger.empty.rows.map Row.proofId := List.not_mem_nil
  rw [firstLedger, rows_filed plain_spellings.1 reads_spellings.1 few absent]
  rfl

theorem check_firstLedger {spelled : Text} (plain : IsPlain spelled)
    (reads : fromHex spelled = some signedBytes) :
    check signedEnvironment servingPid
      (queryOf (submissionOf spelled).selector) (submissionOf spelled).moment
        firstLedger = .ok (checkedReceipt spelled) :=
  check_submissionOf plain reads (by rw [rows_firstLedger]; decide)

/-- The receipt is submitted again. -/
theorem spellsAlike_again : SpellsAlike signedEnvironment servingPid
    firstLedger (submissionOf lowerSpelling) := by
  intro checked passed row member _ _
  have expected := check_firstLedger plain_spellings.1 reads_spellings.1
  obtain rfl := Except.ok.inj (expected.symm.trans passed)
  rw [rows_firstLedger] at member
  obtain rfl := List.mem_singleton.mp member
  rfl

/-- Whatever is submitted counts once. -/
def ReceiptsCountOnce : Prop :=
  ∀ (env : Environment) (ownPid : Text) (submissions : List Submission),
    SignsOnce env.scheme → CountsOnce env (run env ownPid submissions
      Ledger.empty)

theorem proofId_rowOf (spelled : Text) : (rowOf spelled).proofId =
    hashContent signedScheme
      (encodeUtf8 ("REFINET-RECEIPT-v1".toList ++ spelled)) :=
  rfl

theorem proofId_upper : (rowOf upperSpelling).proofId ∉
    [rowOf lowerSpelling].map Row.proofId := by
  have differ : hashContent signedScheme
      (encodeUtf8 ("REFINET-RECEIPT-v1".toList ++ upperSpelling)) ≠
      hashContent signedScheme
        (encodeUtf8 ("REFINET-RECEIPT-v1".toList ++ lowerSpelling)) := by
    decide +kernel
  rw [List.map_singleton, List.mem_singleton, proofId_rowOf, proofId_rowOf]
  exact differ

theorem rows_second :
    (run signedEnvironment servingPid
      [submissionOf lowerSpelling, submissionOf upperSpelling]
      Ledger.empty).rows = [rowOf lowerSpelling, rowOf upperSpelling] := by
  have few : firstLedger.rows.length < 500 := by
    rw [rows_firstLedger]
    decide
  have absent : (rowOf upperSpelling).proofId ∉
      firstLedger.rows.map Row.proofId := by
    rw [rows_firstLedger]
    exact proofId_upper
  have second := rows_filed plain_spellings.2 reads_spellings.2 few absent
  rw [rows_firstLedger, List.singleton_append] at second
  have steps : ∀ first second ledger,
      run signedEnvironment servingPid [first, second] ledger =
        (handleReceipt signedEnvironment servingPid second
          (handleReceipt signedEnvironment servingPid first ledger).1).1 :=
    fun _ _ _ => rfl
  rw [firstLedger] at second
  rw [steps, second]

theorem statementOf_rowOf (spelled : Text) :
    statementOf signedEnvironment (rowOf spelled).receipt =
      some signedStatement := by
  have fields := signedFields_signedReceipt spelled
  rw [rowOf, Checked.row, checkedReceipt, statementOf, fields]
  rfl

end Examples

end ServiceReceipts

end RefinetPillars
