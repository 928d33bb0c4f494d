import RefinetPillars.PeerAdmission

/-!
# What a binding proves by itself

A record names a PID, a key, a wallet, a message and two signatures.  That the
key is the key of the PID is left to whoever uses the record.
-/

namespace RefinetPillars

namespace WalletBinding

open HexText ContentSigning JsonText ExceptRules
open KeyRecovery (encodeUtf8)

section Statement

variable (scheme : Scheme) (env : Environment)
  (Signed : List UInt8 → List UInt8 → Prop) (WalletSigned : Text → Text → Prop)

/-- The key in a record hashes to the PID in it. -/
def KeyMatches (record : Json) : Prop :=
  ∃ pid publicKey, record.get "pid".toList = some pid ∧
    record.get "public_key".toList = some publicKey ∧
    pidMatchesValue scheme pid publicKey = true

/-- The wallet has signed a message that names the PID and the role. -/
structure WalletPart (record : Json) (pid address : Text) : Prop where
  hasPid : record.get "pid".toList = some (.str pid)
  hasAddress : record.get "evm_address".toList = some (.str address)
  signed : ∃ message role account,
    record.get "siwe_message".toList = some (.str message) ∧
      parseBindingStatement message = some (pid, role) ∧
      orElse (record.get "binding_type".toList) (.str "deployer".toList) =
        .str role ∧
      env.lower account = env.lower address ∧ WalletSigned account message

/-- The key of the PID, which is the one in the record, has signed the
identifier of the binding. -/
structure PidPart (record : Json) (pid : Text) : Prop where
  keyMatches : KeyMatches scheme record
  countersigned : ∃ publicKey bindingId, pidOf scheme publicKey = pid ∧
    record.get "binding_id".toList = some (.str bindingId) ∧
    Signed publicKey (domainPreimage domainBinding [bindingId])

def ProvesLink (record : Json) : Prop :=
  ∃ pid address, WalletPart env WalletSigned record pid address ∧
    PidPart scheme Signed record pid

end Statement

section Proof

variable {scheme : Scheme} {env : Environment}
  {Signed : List UInt8 → List UInt8 → Prop} {WalletSigned : Text → Text → Prop}
  {record publicKey : Json} {message pid role address : Text}

/-- A message that is not of the old kind names the PID and the role of the
record, and the wallet has signed it. -/
theorem Verifies.walletPart
    (verifies : Verifies scheme env record message pid address publicKey)
    (recovers : env.RecoversSigner WalletSigned)
    (stated : (parseBindingStatement message).isNone = false) :
    WalletPart env WalletSigned record pid address := by
  obtain ⟨⟨statedPid, role⟩, isStated⟩ :=
    Option.isSome_iff_exists.mp (Option.isNone_eq_false_iff.mp stated)
  obtain ⟨signature, reason, walletVerified⟩ := verifies.wallet
  obtain ⟨account, isAddress, walletSigned⟩ :=
    exists_account_of_verifyWalletSignature recovers walletVerified
  have agrees := verifies.agrees
  rw [isStated] at agrees
  have samePid := pid_of_statedProblem agrees
  rw [verifies.hasPid, Option.some.injEq, Json.str.injEq] at samePid
  subst samePid
  exact ⟨verifies.hasPid, verifies.hasAddress, message, role, account,
    verifies.hasMessage, isStated, role_of_statedProblem agrees, isAddress,
    walletSigned⟩

/-- What is counter-signed under a key that hashes to the PID, is counter-signed
by the owner of the PID. -/
theorem Verifies.pidPart
    (verifies : Verifies scheme env record message pid address publicKey)
    (unforgeable : scheme.Unforgeable Signed)
    (stated : (parseBindingStatement message).isNone = false)
    (keyMatches : KeyMatches scheme record) :
    PidPart scheme Signed record pid := by
  refine ⟨keyMatches, ?_⟩
  obtain ⟨pidValue, keyValue, hasPid, hasKey, matched⟩ := keyMatches
  rw [verifies.hasPid, Option.some.injEq] at hasPid
  rw [verifies.hasKey, Option.some.injEq] at hasKey
  subst hasPid hasKey
  obtain ⟨pidText, publicKeyHex, isPid, rfl, hashes⟩ :=
    pidMatchesValue_iff.mp matched
  obtain rfl := Json.str.inj isPid
  obtain ⟨key, decoded, hashed⟩ := pidMatchesKey_iff.mp hashes
  obtain ⟨signature, countersigned⟩ := verifies.counter
  obtain ⟨named, isStated⟩ :=
    Option.isSome_iff_exists.mp (Option.isNone_eq_false_iff.mp stated)
  rw [isStated, counterText] at countersigned
  exact ⟨key, _, hashed, verifies.hasId,
    signed_of_verifyValues unforgeable decoded countersigned⟩

/-- A record that counts as valid proves the link between the wallet and the
PID exactly when its key is the key of the PID. -/
theorem provesLink_iff (unforgeable : scheme.Unforgeable Signed)
    (recovers : env.RecoversSigner WalletSigned)
    (verified : verifyBinding scheme env record = .ok (true, "valid".toList)) :
    ProvesLink scheme env Signed WalletSigned record ↔
      KeyMatches scheme record := by
  obtain ⟨message, pid, address, publicKey, verifies, isValid⟩ :=
    verifies_of_verifyBinding verified
  have stated : (parseBindingStatement message).isNone = false := by
    by_contra legacy
    rw [if_pos (Bool.not_eq_false _ ▸ legacy)] at isValid
    exact absurd isValid (by decide)
  constructor
  · rintro ⟨pid, address, -, pidPart⟩
    exact pidPart.keyMatches
  · intro keyMatches
    exact ⟨pid, address, verifies.walletPart recovers stated,
      verifies.pidPart unforgeable stated keyMatches⟩

end Proof

section Unlinked

open PeerAdmission

def otherKey : List UInt8 := List.replicate 32 2

/-- Only the other key has signed anything. -/
def otherSignatures : List (List UInt8 × List UInt8) :=
  [(otherKey, domainPreimage domainBinding [admittedId])]

def otherScheme : Scheme := ledgerScheme Sha256.sha256 otherSignatures

def SignedByOther (publicKey data : List UInt8) : Prop :=
  (publicKey, data) ∈ otherSignatures

def SignedByWallet (account message : Text) : Prop :=
  account = admittedWallet ∧ message = admittedMessage

theorem verifyBinding_other :
    verifyBinding otherScheme admittedEnvironment (recordWith otherKey) =
      .ok (true, "valid".toList) :=
  verifyBinding_recordWith List.mem_cons_self

theorem not_keyMatches_other :
    ¬ KeyMatches otherScheme (recordWith otherKey) := by
  rintro ⟨pid, publicKey, hasPid, hasKey, matched⟩
  rw [pid_recordWith, Option.some.injEq] at hasPid
  rw [key_recordWith, Option.some.injEq] at hasKey
  subst hasPid hasKey
  obtain ⟨pid, publicKeyHex, isPid, isKey, hashes⟩ :=
    pidMatchesValue_iff.mp matched
  rw [← Json.str.inj isPid, ← Json.str.inj isKey] at hashes
  obtain ⟨key, decoded, hashed⟩ := pidMatchesKey_iff.mp hashes
  rw [fromHex_toHex, Option.some.injEq] at decoded
  subst decoded
  have differ : toHex (Sha256.sha256 otherKey) ≠ admittedPid := by
    decide +kernel
  exact differ hashed

theorem provesLink_admitted :
    verifyBinding admittedScheme admittedEnvironment admittedRecord =
        .ok (true, "valid".toList) ∧
      (ProvesLink admittedScheme admittedEnvironment
          (fun publicKey data => (publicKey, data) ∈ admittedSignatures)
          SignedByWallet admittedRecord ↔
        KeyMatches admittedScheme admittedRecord) := by
  have verified : verifyBinding admittedScheme admittedEnvironment
      admittedRecord = .ok (true, "valid".toList) :=
    verifyBinding_admitted (List.mem_cons_of_mem _ List.mem_cons_self)
  exact ⟨verified, provesLink_iff (ledgerScheme_unforgeable _ _)
    admittedEnvironment_recoversSigner verified⟩

/-- A record counts as valid although its key is not that of the PID, who has
signed nothing. -/
theorem not_provesLink :
    otherScheme.Unforgeable SignedByOther ∧
      admittedEnvironment.RecoversSigner SignedByWallet ∧
      verifyBinding otherScheme admittedEnvironment (recordWith otherKey) =
        .ok (true, "valid".toList) ∧
      ¬ ProvesLink otherScheme admittedEnvironment SignedByOther SignedByWallet
        (recordWith otherKey) := by
  refine ⟨ledgerScheme_unforgeable _ _, admittedEnvironment_recoversSigner,
    verifyBinding_other, ?_⟩
  rintro ⟨pid, address, -, pidPart⟩
  exact not_keyMatches_other pidPart.keyMatches

end Unlinked

end WalletBinding

end RefinetPillars
