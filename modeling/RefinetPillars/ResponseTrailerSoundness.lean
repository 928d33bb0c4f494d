import RefinetPillars.ResponseTrailer

/-!
# What a verified response says

The owner of the key of the reported PID has signed the body of a response that
verifies.  Only a trailer that says `v:1` must sign the selector and the time
as well; without that line they are whatever the trailer says.
-/

namespace RefinetPillars

namespace ResponseTrailer

open HexText LineText DecimalText KeyRecovery ContentSigning

/-- The bytes that the signature of an envelope covers. -/
def envelope (pid selector : Text) (unixTime : Int) (bodyHash : Text) :
    List UInt8 :=
  domainPreimage domainResponse [pid, selector, intText unixTime, bodyHash]

section Envelope

theorem lineFeed_notMem_toHex (bytes : List UInt8) :
    Char.ofNat 10 ∉ toHex bytes := by
  intro member
  have unbroken := unbroken_toHex bytes _ member
  simp [isLineBreak] at unbroken

theorem lineFeed_notMem_intText (number : Int) :
    Char.ofNat 10 ∉ intText number := by
  have digits : ∀ number, Char.ofNat 10 ∉ numeral number := by
    intro number member
    have unbroken := unbroken_numeral number _ member
    simp [isLineBreak] at unbroken
  cases number with
  | ofNat number => exact digits number
  | negSucc number => simpa [intText] using digits (number + 1)

/-- An envelope determines its fields. -/
theorem envelope_inj {pid selector bodyHash otherPid otherSelector
      otherHash : Text} {unixTime otherTime : Int}
    (pidFree : Char.ofNat 10 ∉ pid) (otherPidFree : Char.ofNat 10 ∉ otherPid)
    (hashFree : Char.ofNat 10 ∉ bodyHash)
    (otherHashFree : Char.ofNat 10 ∉ otherHash)
    (same : envelope pid selector unixTime bodyHash =
      envelope otherPid otherSelector otherTime otherHash) :
    pid = otherPid ∧ selector = otherSelector ∧ unixTime = otherTime ∧
      bodyHash = otherHash := by
  have text := domainPreimage_inj.mp same
  simp only [domainText, List.append_cancel_left_eq] at text
  simp only [List.intercalate, List.intersperse, List.flatten_cons,
    List.flatten_nil, List.singleton_append, List.append_nil] at text
  obtain ⟨pidEq, afterPid⟩ := split_at_first pidFree otherPidFree text
  rw [← List.cons_append, ← List.append_assoc, ← List.cons_append,
    ← List.append_assoc] at afterPid
  obtain ⟨beforeHash, hashEq⟩ := split_at_last hashFree otherHashFree afterPid
  obtain ⟨selectorEq, timeEq⟩ := split_at_last
    (lineFeed_notMem_intText unixTime) (lineFeed_notMem_intText otherTime)
    beforeHash
  exact ⟨pidEq, selectorEq, intText_injective timeEq, hashEq⟩

end Envelope

section Soundness

/-- The owner of a key has signed the body of a report. -/
structure BodySigned (scheme : Scheme)
    (Signed : List UInt8 → List UInt8 → Prop) (body : Text)
    (report : BlockReport) (publicKey : List UInt8) : Prop where
  pid : pidOf scheme publicKey = report.pid
  signed : Signed publicKey (encodeUtf8 body)

/-- The owner of a key has signed an envelope that says what is reported about
the body, and nothing else. -/
def EnvelopeSigned (scheme : Scheme)
    (Signed : List UInt8 → List UInt8 → Prop) (body : Text)
    (report : BlockReport) (publicKey : List UInt8) : Prop :=
  let selector := report.selector.getD []
  let bodyHash := hashContent scheme (encodeUtf8 body)
  ∃ unixTime, int (report.time.getD []) = some unixTime ∧
    Signed publicKey (envelope report.pid selector unixTime bodyHash) ∧
    ∀ otherSelector otherTime otherBytes,
      envelope report.pid selector unixTime bodyHash =
        envelope report.pid otherSelector otherTime (toHex otherBytes) →
      otherSelector = selector ∧ otherTime = unixTime ∧
        toHex otherBytes = bodyHash

variable {scheme : Scheme} {Signed : List UInt8 → List UInt8 → Prop}
  {body : Text} {fields : List (Text × Text)}

/-- A response that is valid names a key. -/
theorem exists_key_of_valid
    (valid : (checkFields scheme (encodeUtf8 body) fields).valid = true) :
    ∃ publicKey,
      fromHex ((get "pubkey".toList fields).getD []) = some publicKey := by
  simp only [BlockReport.valid, Bool.and_eq_true] at valid
  obtain ⟨publicKey, key, -⟩ := pidMatchesKey_iff.mp valid.1.1.1
  exact ⟨publicKey, key⟩

theorem signed_of_checkFields (unforgeable : scheme.Unforgeable Signed)
    {publicKey : List UInt8}
    (key : fromHex ((get "pubkey".toList fields).getD []) = some publicKey)
    (valid : (checkFields scheme (encodeUtf8 body) fields).valid = true) :
    BodySigned scheme Signed body
        (checkFields scheme (encodeUtf8 body) fields) publicKey ∧
      ((checkFields scheme (encodeUtf8 body) fields).envelopeValid ≠ none →
        EnvelopeSigned scheme Signed body
          (checkFields scheme (encodeUtf8 body) fields) publicKey) := by
  simp only [BlockReport.valid, Bool.and_eq_true, decide_eq_true_eq] at valid
  obtain ⟨⟨⟨pidValid, -⟩, legacyValid⟩, envelopeValid⟩ := valid
  have pid : pidOf scheme publicKey = (get "pid".toList fields).getD [] := by
    obtain ⟨other, otherKey, pid⟩ := pidMatchesKey_iff.mp pidValid
    rw [key, Option.some.injEq] at otherKey
    rw [otherKey, pid]
  refine ⟨⟨pid, unforgeable.signed key legacyValid⟩, ?_⟩
  intro present
  unfold checkFields at envelopeValid present
  dsimp only at envelopeValid present
  split at envelopeValid
  next version =>
    cases time : int ((get "time".toList fields).getD []) with
    | none => exact absurd (by rw [time]) envelopeValid
    | some unixTime =>
        rw [time] at envelopeValid
        have verified := Bool.ne_false_iff.mp fun refused =>
          envelopeValid (congrArg some refused)
        refine ⟨unixTime, time, unforgeable.signed key verified, ?_⟩
        intro otherSelector otherTime otherBytes same
        have pidFree : Char.ofNat 10 ∉
            (checkFields scheme (encodeUtf8 body) fields).pid := by
          have free := lineFeed_notMem_toHex (scheme.sha256 publicKey)
          rwa [← pidOf, pid] at free
        obtain ⟨-, selectorEq, timeEq, hashEq⟩ := envelope_inj pidFree pidFree
          (lineFeed_notMem_toHex _) (lineFeed_notMem_toHex _) same
        exact ⟨selectorEq.symm, timeEq.symm, hashEq.symm⟩
  next version => exact absurd (if_neg version) present

end Soundness

section Examples

/-- What a Pillar has signed that has answered one request. -/
def signedOnce : List (List UInt8 × List UInt8) :=
  let pid := toHex (Sha256.sha256 [7])
  let bodyHash := toHex (Sha256.sha256 (encodeUtf8 ['o', 'k']))
  [([7], encodeUtf8 ['o', 'k']), ([7], envelope pid ['/', 'a'] 5 bodyHash)]

abbrev signedOnceScheme : Scheme := ledgerScheme Sha256.sha256 signedOnce

def signedOnceText : Text :=
  servedText signedOnceScheme [7] ['o', 'k'] ['/', 'a'] 5

def signedOnceReport : BlockReport where
  pid := toHex (Sha256.sha256 [7])
  selector := some ['/', 'a']
  time := some (numeral 5)
  pidValid := true
  hashValid := true
  legacyValid := true
  envelopeValid := some true

theorem body_mem_signedOnce : ([7], encodeUtf8 ['o', 'k']) ∈ signedOnce :=
  List.mem_cons_self

theorem envelope_mem_signedOnce :
    ([7], domainPreimage domainResponse
      [pidOf signedOnceScheme [7], ['/', 'a'], numeral 5,
        hashContent signedOnceScheme (encodeUtf8 ['o', 'k'])]) ∈
      signedOnce := by
  unfold signedOnce
  exact List.mem_cons_of_mem _ List.mem_cons_self

theorem verifyResponseBlock_signedOnce :
    verifyResponseBlock signedOnceScheme signedOnceText =
      some signedOnceReport := by
  have selector : signedSelector ['/', 'a'] = ['/', 'a'] := rfl
  have served := verifyResponseBlock_servedText signedOnceScheme [7]
    ['o', 'k'] ['/', 'a'] 5 (by decide +kernel) (by simp [isLineBreak])
    (verifySignature_ledgerScheme body_mem_signedOnce [])
  rw [selector] at served
  have verified := served
    (verifyDomain_ledgerScheme envelope_mem_signedOnce [7])
  rw [pidOf_ledgerScheme] at verified
  rw [signedOnceText, signedOnceReport]
  exact verified.2

/-- The fields that are left when the line `v:1` and the envelope signature are
taken out and another selector is put in. -/
def strippedFields : List (Text × Text) :=
  [("pid".toList, toHex (Sha256.sha256 [7])), ("pubkey".toList, toHex [7]),
    ("sig".toList, []),
    ("hash".toList, toHex (Sha256.sha256 (encodeUtf8 ['o', 'k']))),
    ("selector".toList, ['/', 'b']), ("time".toList, ['5'])]

def strippedText : Text :=
  ['o', 'k'] ++ marker ++ crlf ++
    strippedFields.flatMap (fun entry => field entry.1 entry.2) ++ sigEnd ++
    crlf

theorem splitResponse_strippedText :
    splitResponse strippedText = some (['o', 'k'], strippedFields) := by
  have fresh : Char.ofNat 13 ∉ Char.ofNat 10 :: sigBegin := by decide +kernel
  have absent : ¬ (Char.ofNat 13 :: Char.ofNat 10 :: sigBegin) <:+:
      ['o', 'k'] := by decide +kernel
  simp only [strippedText, strippedFields, List.flatMap_cons, List.flatMap_nil,
    List.append_assoc, List.nil_append]
  rw [splitResponse]
  erw [cutAt_append fresh absent]
  simp only [Option.map_some, Option.some.injEq, Prod.mk.injEq, true_and]
  rw [collectFields_crlf,
    collectFields_field (plainKey_of_mem (by simp)) (unbroken_toHex _),
    collectFields_field (plainKey_of_mem (by simp)) (unbroken_toHex _),
    collectFields_field (plainKey_of_mem (by simp)) (by simp),
    collectFields_field (plainKey_of_mem (by simp)) (unbroken_toHex _),
    collectFields_field (plainKey_of_mem (by simp)) (by simp [isLineBreak]),
    collectFields_field (plainKey_of_mem (by simp)) (by simp [isLineBreak]),
    collectFields_sigEnd]

def strippedReport : BlockReport where
  pid := toHex (Sha256.sha256 [7])
  selector := some ['/', 'b']
  time := some ['5']
  pidValid := true
  hashValid := true
  legacyValid := true
  envelopeValid := none

theorem verifyResponseBlock_strippedText :
    verifyResponseBlock signedOnceScheme strippedText =
      some strippedReport := by
  have pidValid : pidMatchesKey signedOnceScheme
      (toHex (Sha256.sha256 [7])) (toHex [7]) = true :=
    pidMatchesKey_toHex [7]
  have legacyValid : verifySignature signedOnceScheme
      (encodeUtf8 ['o', 'k']) (toHex []) (toHex [7]) = true :=
    verifySignature_ledgerScheme body_mem_signedOnce []
  have pid : get "pid".toList strippedFields =
      some (toHex (Sha256.sha256 [7])) := rfl
  have publicKeyHex : get "pubkey".toList strippedFields =
      some (toHex [7]) := rfl
  have signature : get "sig".toList strippedFields = some (toHex []) := rfl
  have hash : get "hash".toList strippedFields =
      some (hashContent signedOnceScheme (encodeUtf8 ['o', 'k'])) :=
    rfl
  have version : get "v".toList strippedFields ≠ some ['1'] := nofun
  have selector : get "selector".toList strippedFields = some ['/', 'b'] := rfl
  have time : get "time".toList strippedFields = some ['5'] := rfl
  rw [verifyResponseBlock, splitResponse_strippedText, Option.map_some,
    checkFields]
  simp only [pid, publicKeyHex, signature, hash, if_neg version, selector, time,
    Option.getD_some, pidValid, legacyValid, decide_true]
  rfl

end Examples

end ResponseTrailer

end RefinetPillars
