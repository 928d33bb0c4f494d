import RefinetPillars.AuditLogEvidence
import RefinetPillars.GopherholeRecord
import RefinetPillars.ResponseTrailerSoundness

/-!
# Signatures for one purpose and for another

One key makes all signatures of a Pillar.  Signatures under two domains are told
apart, but some texts are signed as they are: whole responses, the tokens of
the proxy, the records of gopherholes and the hashes of audit entries.
-/

namespace RefinetPillars

namespace SigningPurposes

open HexText LineText DecimalText KeyRecovery ContentSigning JsonText
  GopherholeRecord ResponseTrailer

/-- What a Pillar signs, with what the request and the state contribute. -/
inductive Operation where
  | respond (body selector : Text) (unixTime : Nat)
  | proxyToken (selector : Text) (timestamp : Nat)
  | createGopherhole (selector name : Text) (year month day : Nat)
  | bindWallet (evmAddress nonce : Text)
  | publishIdentity (canonicalJson : List UInt8)
  | publishWellKnown (canonicalJson : List UInt8)
  | attest (resource : Text) (fetchedAt : Int) (bodyHash status : Text)
  | announce (hostname : Text) (port : Int) (timestamp : Int)
  | appendAudit (hashedText : Text)

def witnessStatuses : List Text :=
  ["match".toList, "mismatch".toList, "unreachable".toList]

section Scheme

variable (scheme : Scheme)

/-- The texts that an operation signs as they are. -/
def Operation.rawTexts (pid : Text) : Operation → List Text
  | .respond body _ _ => [body]
  | .proxyToken selector timestamp =>
      [pid ++ ':' :: numeral timestamp ++ ':' :: selector]
  | .createGopherhole selector name year month day =>
      match validateSelector selector pid with
      | .ok () =>
          [signingPayload pid selector name (accountingDate year month day)]
      | .error _ => []
  | .appendAudit hashedText => [hashContent scheme (encodeUtf8 hashedText)]
  | _ => []

/-- The domains that an operation signs under, and the fields. -/
def Operation.statements (pid : Text) : Operation → List (Text × List Text)
  | .respond body selector unixTime =>
      [(domainResponse,
        [pid, signedSelector selector, numeral unixTime,
          hashContent scheme (encodeUtf8 body)])]
  | .proxyToken selector timestamp =>
      [(domainProxyToken, [pid, numeral timestamp, selector])]
  | .bindWallet evmAddress nonce =>
      [(domainBinding,
        [hashContent scheme
          (encodeUtf8 (pid ++ evmAddress.map Char.toLower ++ nonce))])]
  | .publishIdentity canonicalJson =>
      [(domainIdentity, [hashContent scheme canonicalJson])]
  | .publishWellKnown canonicalJson =>
      [(domainWellKnown, [hashContent scheme canonicalJson])]
  | .attest resource fetchedAt bodyHash status =>
      if status ∈ witnessStatuses ∧ Char.ofNat 10 ∉ resource then
        [(domainWitness, [pid, resource, intText fetchedAt, bodyHash, status])]
      else []
  | .announce hostname port timestamp =>
      [(domainAnnounce, [pid, hostname, intText port, intText timestamp])]
  | .createGopherhole .. | .appendAudit _ => []

/-- All texts that an operation signs. -/
def Operation.signedTexts (pid : Text) (operation : Operation) : List Text :=
  operation.rawTexts scheme pid ++
    (operation.statements scheme pid).map fun statement =>
      domainText statement.1 statement.2

/-- What the owner of a key signs in the operations of its history. -/
def SignedIn (history : List UInt8 → List Operation)
    (publicKey data : List UInt8) : Prop :=
  ∃ operation ∈ history publicKey,
    ∃ text ∈ operation.signedTexts scheme (pidOf scheme publicKey),
      data = encodeUtf8 text

/-- What is signed as it is must not look like something else: a response like
a text under a domain or a record, a proxied selector like further fields, or a
name like the rest of a record. -/
def Operation.Separable (pid : Text) : Operation → Prop
  | .respond body _ _ =>
      (∀ domain ∈ domains, ¬ domain <+: body) ∧
        ∀ selector name registeredAt,
          body ≠ signingPayload pid selector name registeredAt
  | .proxyToken selector _ => ':' ∉ selector
  | .createGopherhole _ name _ _ _ => ':' ∉ name
  | _ => True

/-- Each verifier accepts only statements of its own signing operation. -/
structure Separated (history : List UInt8 → List Operation)
    (publicKey : List UInt8) (Presented : List (Text × Text) → Prop) :
    Prop where
  domains : ∀ domain ∈ domains, ∀ fields signatureHex publicKeyHex,
    fromHex publicKeyHex = some publicKey →
    verifyDomain scheme domain signatureHex publicKeyHex fields = true →
    ∃ operation ∈ history publicKey,
      ∃ own ∈ operation.statements scheme (pidOf scheme publicKey),
        own.1 = domain ∧ domainText own.1 own.2 = domainText domain fields
  gopherholes : ∀ record publicKeyHex,
    record.get "pubkey_hex".toList = some (.str publicKeyHex) →
    fromHex publicKeyHex = some publicKey →
    verifyGopherholeSignature scheme record = some true →
    ∃ selector name year month day,
      .createGopherhole selector name year month day ∈ history publicKey ∧
      record.get "selector".toList = some (.str selector) ∧
      (record.get "name".toList).bind str = some name ∧
      (record.get "registered_at".toList).bind str =
        some (accountingDate year month day)
  responses : ∀ text body fields,
    splitResponse text = some (body, fields) → Presented fields →
    fromHex ((get "pubkey".toList fields).getD []) = some publicKey →
    (checkFields scheme (encodeUtf8 body) fields).valid = true →
    ∃ (selector : Text) (unixTime : Nat),
      .respond body selector unixTime ∈ history publicKey ∧
      get "selector".toList fields = some (signedSelector selector) ∧
      int ((get "time".toList fields).getD []) = some (unixTime : Int)

end Scheme

section Separation

variable {scheme : Scheme} {history : List UInt8 → List Operation}
  {publicKey : List UInt8} {pid : Text} {operation : Operation}

/-- Every statement is made under one of the domains. -/
theorem domain_mem_of_statements {statement : Text × List Text}
    (member : statement ∈ operation.statements scheme pid) :
    statement.1 ∈ domains := by
  cases operation with
  | respond | proxyToken | bindWallet | publishIdentity | publishWellKnown
    | announce =>
      obtain rfl := List.mem_singleton.mp member
      simp only [domains, List.mem_cons, true_or, or_true]
  | attest =>
      rw [Operation.statements] at member
      split at member
      · obtain rfl := List.mem_singleton.mp member
        simp only [domains, List.mem_cons, true_or, or_true]
      · cases member
  | createGopherhole | appendAudit => cases member

theorem head?_of_mem_domains {domain : Text} (known : domain ∈ domains) :
    domain.head? = some 'R' := by
  have checked : ∀ domain ∈ domains, domain.head? = some 'R' := by decide
  exact checked domain known

theorem head?_domainText {domain : Text} (known : domain ∈ domains)
    (fields : List Text) : (domainText domain fields).head? = some 'R' := by
  rw [domainText, List.head?_append, head?_of_mem_domains known]
  rfl

/-- What starts with a PID is under no domain. -/
theorem head?_toHex_append (bytes : List UInt8) {suffix : Text}
    (suffixStarts : suffix.head? ≠ some 'R') :
    (toHex bytes ++ suffix).head? ≠ some 'R' := by
  intro starts
  rw [List.head?_append] at starts
  cases hexStarts : (toHex bytes).head? with
  | none => exact suffixStarts (by simpa [hexStarts] using starts)
  | some first =>
      obtain rfl : first = 'R' := by simpa [hexStarts] using starts
      obtain ⟨value, small, isDigit⟩ :=
        exists_digit_of_mem_toHex (List.mem_of_mem_head? hexStarts)
      have checked : ∀ value : Fin 16, (value : Nat).digitChar ≠ 'R' := by
        decide
      exact checked ⟨value, small⟩ isDigit.symm

theorem head?_signingPayload (bytes : List UInt8)
    (selector name registeredAt : Text) :
    (signingPayload (toHex bytes) selector name registeredAt).head? ≠
      some 'R' := by
  rw [signingPayload, List.append_assoc, List.append_assoc]
  exact head?_toHex_append bytes (by simp)

/-- No text that is signed as it is looks like a text under a domain. -/
theorem head?_of_mem_rawTexts {bytes : List UInt8} {text : Text}
    (separable : operation.Separable (toHex bytes))
    (member : text ∈ operation.rawTexts scheme (toHex bytes)) :
    ∀ domain ∈ domains, ¬ domain <+: text := by
  have of_head : text.head? ≠ some 'R' →
      ∀ domain ∈ domains, ¬ domain <+: text := by
    rintro differs domain known ⟨rest, rfl⟩
    rw [List.head?_append, head?_of_mem_domains known] at differs
    exact differs rfl
  cases operation with
  | respond =>
      obtain rfl := List.mem_singleton.mp member
      exact separable.1
  | proxyToken =>
      obtain rfl := List.mem_singleton.mp member
      apply of_head
      rw [List.append_assoc]
      exact head?_toHex_append bytes (by simp)
  | createGopherhole =>
      rw [Operation.rawTexts] at member
      split at member
      · obtain rfl := List.mem_singleton.mp member
        exact of_head (head?_signingPayload _ _ _ _)
      · cases member
  | appendAudit =>
      obtain rfl := List.mem_singleton.mp member
      apply of_head
      rw [hashContent, ← List.append_nil (toHex _)]
      exact head?_toHex_append _ (by simp)
  | bindWallet | publishIdentity | publishWellKnown | attest | announce =>
      cases member

/-- A text under a domain is signed by a statement under that domain. -/
theorem exists_statement {bytes : List UInt8} {domain : Text}
    {fields : List Text} (separable : operation.Separable (toHex bytes))
    (known : domain ∈ domains)
    (member : domainText domain fields ∈
      operation.signedTexts scheme (toHex bytes)) :
    ∃ own ∈ operation.statements scheme (toHex bytes),
      own.1 = domain ∧ domainText own.1 own.2 = domainText domain fields := by
  rcases List.mem_append.mp member with isRaw | isStatement
  · exact absurd (List.prefix_append _ _)
      (head?_of_mem_rawTexts separable isRaw domain known)
  · obtain ⟨own, ownMem, same⟩ := List.mem_map.mp isStatement
    refine ⟨own, ownMem, ?_, same⟩
    by_contra differ
    exact domainText_ne (domain_mem_of_statements ownMem) known differ _ _ same

/-- A text of a record is signed by the creation of that gopherhole. -/
theorem eq_createGopherhole {bytes : List UInt8}
    {selector name registeredAt : Text}
    (separable : operation.Separable (toHex bytes))
    (member : signingPayload (toHex bytes) selector name registeredAt ∈
      operation.signedTexts scheme (toHex bytes)) :
    ∃ year month day,
      operation = .createGopherhole selector name year month day ∧
      validateSelector selector (toHex bytes) = .ok () ∧
      registeredAt = accountingDate year month day := by
  have pidFree := colon_notMem_toHex bytes
  rcases List.mem_append.mp member with isRaw | isStatement
  · cases operation with
    | respond =>
        exact absurd (List.mem_singleton.mp isRaw).symm
          (separable.2 selector name registeredAt)
    | proxyToken other timestamp =>
        have counts := congrArg (List.count ':') (List.mem_singleton.mp isRaw)
        have otherFree : other.count ':' = 0 :=
          List.count_eq_zero.mpr separable
        have timeFree := List.count_eq_zero.mpr
          (colon_notMem_numeral timestamp)
        simp only [count_signingPayload, List.count_append, List.count_cons,
          beq_self_eq_true, if_true, List.count_eq_zero.mpr pidFree, otherFree,
          timeFree] at counts
        omega
    | createGopherhole otherSelector otherName year month day =>
        rw [Operation.rawTexts] at isRaw
        split at isRaw
        next valid =>
          obtain ⟨found, matched⟩ := exists_matchSelector valid
          obtain ⟨-, rfl, rfl, rfl⟩ := signingPayload_inj pidFree
            (colon_notMem_of_matchSelector matched) separable
            (colon_notMem_accountingDate year month day) pidFree
            (List.mem_singleton.mp isRaw).symm
          exact ⟨year, month, day, rfl, valid, rfl⟩
        next => cases isRaw
    | appendAudit hashedText =>
        have counts := congrArg (List.count ':') (List.mem_singleton.mp isRaw)
        have hashFree := List.count_eq_zero.mpr
          (colon_notMem_toHex (scheme.sha256 (encodeUtf8 hashedText)))
        rw [count_signingPayload, hashContent, hashFree] at counts
        omega
    | bindWallet | publishIdentity | publishWellKnown | attest | announce =>
        cases isRaw
  · obtain ⟨own, ownMem, same⟩ := List.mem_map.mp isStatement
    have starts := head?_domainText (domain_mem_of_statements ownMem) own.2
    rw [same] at starts
    exact absurd starts (head?_signingPayload _ _ _ _)

theorem domainResponse_notMem :
    domainResponse ∉ [domainProxyToken, domainBinding, domainIdentity,
      domainWellKnown, domainAnnounce, domainWitness] := by
  decide

/-- Only an answer is signed as a response. -/
theorem exists_respond {own : Text × List Text}
    (member : own ∈ operation.statements scheme pid)
    (isResponse : own.1 = domainResponse) :
    ∃ body selector unixTime, operation = .respond body selector unixTime ∧
      own.2 = [pid, signedSelector selector, numeral unixTime,
        hashContent scheme (encodeUtf8 body)] := by
  have differ := domainResponse_notMem
  rw [← isResponse] at differ
  cases operation with
  | respond body selector unixTime =>
      obtain rfl := List.mem_singleton.mp member
      exact ⟨body, selector, unixTime, rfl, rfl⟩
  | proxyToken | bindWallet | publishIdentity | publishWellKnown | announce =>
      obtain rfl := List.mem_singleton.mp member
      simp only [List.mem_cons, true_or, or_true, not_true] at differ
  | attest =>
      rw [Operation.statements] at member
      split at member
      · obtain rfl := List.mem_singleton.mp member
        simp only [List.mem_cons, true_or, or_true, not_true] at differ
      · cases member
  | createGopherhole | appendAudit => cases member

/-- The texts that a key has signed are the texts of its operations. -/
theorem exists_operation (unforgeable : scheme.Unforgeable
      (SignedIn scheme history)) {text signatureHex publicKeyHex : Text}
    (key : fromHex publicKeyHex = some publicKey)
    (verified : verifySignature scheme (encodeUtf8 text) signatureHex
      publicKeyHex = true) :
    ∃ operation ∈ history publicKey,
      text ∈ operation.signedTexts scheme (pidOf scheme publicKey) := by
  obtain ⟨operation, operationMem, signed, signedMem, same⟩ :=
    unforgeable.signed key verified
  rw [encodeUtf8_injective same]
  exact ⟨operation, operationMem, signedMem⟩

/-- The created gopherhole of a record that verifies. -/
theorem exists_createGopherhole (unforgeable : scheme.Unforgeable
      (SignedIn scheme history)) {record : Json} {publicKeyHex : Text}
    (separable : ∀ operation ∈ history publicKey,
      operation.Separable (pidOf scheme publicKey))
    (getPubkey : record.get "pubkey_hex".toList = some (.str publicKeyHex))
    (key : fromHex publicKeyHex = some publicKey)
    (verified : verifyGopherholeSignature scheme record = some true) :
    ∃ selector name year month day,
      .createGopherhole selector name year month day ∈ history publicKey ∧
      validateSelector selector (pidOf scheme publicKey) = .ok () ∧
      record.get "pid".toList = some (.str (pidOf scheme publicKey)) ∧
      record.get "selector".toList = some (.str selector) ∧
      (record.get "name".toList).bind str = some name ∧
      (record.get "registered_at".toList).bind str =
        some (accountingDate year month day) := by
  obtain ⟨pid, pubkeyHex, selector, name, registeredAt, signature, getPid,
    getKey, getSelector, getName, getDate, keyed, -, verified⟩ :=
      verifyGopherholeSignature_eq_some_true verified
  obtain rfl : pubkeyHex = publicKeyHex := by
    rw [getPubkey, Option.some.injEq, Json.str.injEq] at getKey
    exact getKey.symm
  obtain rfl : pidOf scheme publicKey = pid := by
    obtain ⟨other, otherKey, pid⟩ := pidMatchesKey_iff.mp keyed
    rw [key, Option.some.injEq] at otherKey
    rw [otherKey, pid]
  obtain ⟨operation, operationMem, signed⟩ :=
    exists_operation unforgeable key verified
  obtain ⟨year, month, day, rfl, valid, rfl⟩ :=
    eq_createGopherhole (separable operation operationMem) signed
  exact ⟨selector, name, year, month, day, operationMem, valid, getPid,
    getSelector, getName, getDate⟩

/-- Where nothing that is signed as it is looks like something else, every
verifier accepts only statements of its own operation; a response has to say
that its envelope is signed. -/
theorem purposes_separated
    (unforgeable : scheme.Unforgeable (SignedIn scheme history))
    (injective : Function.Injective scheme.sha256)
    (separable : ∀ operation ∈ history publicKey,
      operation.Separable (pidOf scheme publicKey)) :
    Separated scheme history publicKey fun fields =>
      get "v".toList fields = some ['1'] := by
  constructor
  · intro domain known fields signatureHex publicKeyHex key verified
    obtain ⟨operation, operationMem, signed⟩ :=
      exists_operation unforgeable key verified
    obtain ⟨own, ownMem, ownStatement⟩ :=
      exists_statement (separable operation operationMem) known signed
    exact ⟨operation, operationMem, own, ownMem, ownStatement⟩
  · intro record publicKeyHex getPubkey key verified
    obtain ⟨selector, name, year, month, day, created, -, -, fields⟩ :=
      exists_createGopherhole unforgeable separable getPubkey key verified
    exact ⟨selector, name, year, month, day, created, fields⟩
  · intro text body fields _ version key valid
    have present :
        (checkFields scheme (encodeUtf8 body) fields).envelopeValid ≠ none := by
      rw [checkFields, if_pos version]
      split <;> simp
    obtain ⟨⟨pid, -⟩, envelopeSigned⟩ :=
      signed_of_checkFields unforgeable key valid
    obtain ⟨unixTime, time, signed, determined⟩ := envelopeSigned present
    rw [← pid] at signed determined
    obtain ⟨operation, operationMem, text, textMem, same⟩ := signed
    rw [← encodeUtf8_injective same] at textMem
    have known : domainResponse ∈ domains := by decide
    obtain ⟨own, ownMem, isResponse, ownText⟩ :=
      exists_statement (separable operation operationMem) known textMem
    obtain ⟨answered, selector, answeredAt, rfl, ownFields⟩ :=
      exists_respond ownMem isResponse
    rw [isResponse, ownFields] at ownText
    obtain ⟨selectorEq, timeEq, hashEq⟩ := determined (signedSelector selector)
      answeredAt _ (congrArg encodeUtf8 ownText.symm)
    obtain rfl := encodeUtf8_injective (injective (toHex_injective hashEq))
    refine ⟨selector, answeredAt, operationMem, ?_, by rw [timeEq]; exact time⟩
    cases found : get "selector".toList fields with
    | none =>
        rw [checkFields, found, Option.getD_none] at selectorEq
        rw [signedSelector] at selectorEq
        split at selectorEq
        · cases selectorEq
        next nonempty => exact absurd selectorEq nonempty
    | some reported =>
        rw [checkFields, found, Option.getD_some] at selectorEq
        rw [selectorEq]

end Separation

section Examples

/-- Everything that the owner of one key signs in its operations. -/
def signedBy (sha256 : List UInt8 → List UInt8) (publicKey : List UInt8)
    (operations : List Operation) : List (List UInt8 × List UInt8) :=
  operations.flatMap fun operation =>
    (operation.signedTexts (ledgerScheme sha256 [])
        (toHex (sha256 publicKey))).map fun text =>
      (publicKey, encodeUtf8 text)

/-- The history in which only one key is used. -/
def historyOf (publicKey : List UInt8) (operations : List Operation)
    (key : List UInt8) : List Operation :=
  if key = publicKey then operations else []

abbrev operationScheme (sha256 : List UInt8 → List UInt8)
    (publicKey : List UInt8) (operations : List Operation) : Scheme :=
  ledgerScheme sha256 (signedBy sha256 publicKey operations)

theorem operationScheme_unforgeable (sha256 : List UInt8 → List UInt8)
    (publicKey : List UInt8) (operations : List Operation) :
    (operationScheme sha256 publicKey operations).Unforgeable
      (SignedIn (operationScheme sha256 publicKey operations)
        (historyOf publicKey operations)) := by
  intro key signature data verified
  obtain ⟨operation, operationMem, member⟩ :=
    List.mem_flatMap.mp (of_decide_eq_true verified)
  obtain ⟨text, textMem, pair⟩ := List.mem_map.mp member
  obtain ⟨rfl, rfl⟩ := Prod.mk.inj pair
  refine ⟨operation, ?_, text, textMem, rfl⟩
  rw [historyOf, if_pos rfl]
  exact operationMem

theorem mem_signedBy {sha256 : List UInt8 → List UInt8}
    {publicKey : List UInt8} {operations : List Operation}
    {operation : Operation} {text : Text} (performed : operation ∈ operations)
    (member : text ∈ operation.signedTexts (ledgerScheme sha256 [])
      (toHex (sha256 publicKey))) :
    (publicKey, encodeUtf8 text) ∈ signedBy sha256 publicKey operations :=
  List.mem_flatMap.mpr
    ⟨operation, performed, List.mem_map.mpr ⟨text, member, rfl⟩⟩

def answerOk : Operation := .respond ['o', 'k'] ['/'] 5

theorem answerOk_separable (pid : Text) : answerOk.Separable pid := by
  constructor
  · have checked : ∀ domain ∈ domains, domain.isPrefixOf ['o', 'k'] = false := by
      decide
    intro domain known starts
    have starts := List.isPrefixOf_iff_prefix.mpr starts
    rw [checked domain known] at starts
    cases starts
  · intro selector name registeredAt same
    have counts := congrArg (List.count ':') same
    rw [count_signingPayload] at counts
    have none : List.count ':' ['o', 'k'] = 0 := by decide
    omega

theorem purposes_separated_answerOk :
    Separated (operationScheme (AuditLog.pinned [7]) [7] [answerOk])
      (historyOf [7] [answerOk]) [7] fun fields =>
        get "v".toList fields = some ['1'] :=
  purposes_separated (operationScheme_unforgeable _ _ _)
    (AuditLog.pinned_injective [7]) (by
      intro operation performed
      obtain rfl := List.mem_singleton.mp performed
      exact answerOk_separable _)

/-- A page that reads like a binding. -/
def answerBinding : Operation :=
  .respond (domainText domainBinding [['0', '0']]) "/page.txt".toList 5

/-- A served page verifies as a binding that was never made. -/
theorem purposes_separated_bindingPage :
    ¬ ∀ (scheme : Scheme) (history : List UInt8 → List Operation)
      (publicKey : List UInt8), scheme.Unforgeable (SignedIn scheme history) →
        Function.Injective scheme.sha256 →
        Separated scheme history publicKey fun _ => True := by
  intro claimed
  have separated := claimed _ _ [7]
    (operationScheme_unforgeable (AuditLog.pinned [7]) [7] [answerBinding])
    (AuditLog.pinned_injective [7])
  have known : domainBinding ∈ domains := by decide
  have verified : verifyDomain
      (operationScheme (AuditLog.pinned [7]) [7] [answerBinding]) domainBinding
      (toHex []) (toHex [7]) [['0', '0']] = true :=
    verifySignature_ledgerScheme
      (mem_signedBy List.mem_cons_self List.mem_cons_self) []
  obtain ⟨operation, performed, own, ownMem, isBinding, -⟩ :=
    separated.domains domainBinding known _ _ _ (fromHex_toHex [7]) verified
  obtain rfl := List.mem_singleton.mp performed
  obtain rfl := List.mem_singleton.mp ownMem
  have differ : domainResponse ≠ domainBinding := by decide
  exact differ isBinding

end Examples

end SigningPurposes

end RefinetPillars
