import RefinetPillars.DecimalText
import RefinetPillars.KeyRecovery
import RefinetPillars.Sha256

/-!
# Signatures of a Pillar

Content is signed as it is or under a domain.  What is signed under a domain
starts with the name of the domain, and no name is the start of another one.
-/

namespace RefinetPillars

namespace ContentSigning

open HexText LineText DecimalText KeyRecovery

/-- SHA-256, and the signatures of Ed25519 by raw keys. -/
structure Scheme where
  sha256 : List UInt8 → List UInt8
  publicKey : List UInt8 → List UInt8
  sign : List UInt8 → List UInt8 → List UInt8
  verify : List UInt8 → List UInt8 → List UInt8 → Bool

/-- The owner of a private key makes signatures that verify. -/
def Scheme.Correct (scheme : Scheme) : Prop :=
  ∀ privateKey data,
    scheme.verify (scheme.publicKey privateKey) (scheme.sign privateKey data)
      data = true

/-- Only what the owner of a public key has signed verifies under it. -/
def Scheme.Unforgeable (scheme : Scheme)
    (Signed : List UInt8 → List UInt8 → Prop) : Prop :=
  ∀ publicKey signature data,
    scheme.verify publicKey signature data = true → Signed publicKey data

def domainResponse : Text := "REFINET-RESPONSE-v1".toList

def domainBinding : Text := "REFINET-BINDING-v1".toList

def domainIdentity : Text := "REFINET-IDENTITY-v3".toList

def domainWitness : Text := "REFINET-WITNESS-v1".toList

def domainAnnounce : Text := "REFINET-ANNOUNCE-v1".toList

def domainProxyToken : Text := "REFINET-PROXY-TOKEN-v1".toList

def domainWellKnown : Text := "REFINET-WELL-KNOWN-v1".toList

def domains : List Text :=
  [domainResponse, domainBinding, domainIdentity, domainWitness,
    domainAnnounce, domainProxyToken, domainWellKnown]

/-- The text that a signature under a domain covers. -/
def domainText (domain : Text) (fields : List Text) : Text :=
  domain ++ [Char.ofNat 10].intercalate fields

def domainPreimage (domain : Text) (fields : List Text) : List UInt8 :=
  encodeUtf8 (domainText domain fields)

section Scheme

variable (scheme : Scheme)

def hashContent (data : List UInt8) : Text := toHex (scheme.sha256 data)

def signContent (data privateKey : List UInt8) : Text :=
  toHex (scheme.sign privateKey data)

def verifySignature (data : List UInt8) (signatureHex publicKeyHex : Text) :
    Bool :=
  match fromHex publicKeyHex, fromHex signatureHex with
  | some publicKey, some signature => scheme.verify publicKey signature data
  | _, _ => false

def signDomain (domain : Text) (privateKey : List UInt8) (fields : List Text) :
    Text :=
  signContent scheme (domainPreimage domain fields) privateKey

def verifyDomain (domain signatureHex publicKeyHex : Text)
    (fields : List Text) : Bool :=
  verifySignature scheme (domainPreimage domain fields) signatureHex
    publicKeyHex

/-- Whether a PID is the hash of a key. -/
def pidMatchesKey (pid publicKeyHex : Text) : Bool :=
  match fromHex publicKeyHex with
  | some publicKey => toHex (scheme.sha256 publicKey) = pid
  | none => false

/-- The PID of a key. -/
def pidOf (publicKey : List UInt8) : Text := toHex (scheme.sha256 publicKey)

end Scheme

section Verification

variable {scheme : Scheme}

theorem verifySignature_signContent (correct : scheme.Correct)
    (data privateKey : List UInt8) :
    verifySignature scheme data (signContent scheme data privateKey)
      (toHex (scheme.publicKey privateKey)) = true := by
  simp [verifySignature, signContent, correct privateKey data]

theorem verifyDomain_signDomain (correct : scheme.Correct) (domain : Text)
    (privateKey : List UInt8) (fields : List Text) :
    verifyDomain scheme domain (signDomain scheme domain privateKey fields)
      (toHex (scheme.publicKey privateKey)) fields = true :=
  verifySignature_signContent correct _ _

theorem pidMatchesKey_toHex (publicKey : List UInt8) :
    pidMatchesKey scheme (pidOf scheme publicKey) (toHex publicKey) = true := by
  simp [pidMatchesKey, pidOf]

theorem pidMatchesKey_iff {pid publicKeyHex : Text} :
    pidMatchesKey scheme pid publicKeyHex = true ↔
      ∃ publicKey, fromHex publicKeyHex = some publicKey ∧
        pidOf scheme publicKey = pid := by
  unfold pidMatchesKey pidOf
  cases fromHex publicKeyHex <;> simp

/-- What verifies under the key of a PID has been signed by its owner. -/
theorem Scheme.Unforgeable.signed {Signed : List UInt8 → List UInt8 → Prop}
    (unforgeable : scheme.Unforgeable Signed) {data publicKey : List UInt8}
    {signatureHex publicKeyHex : Text}
    (key : fromHex publicKeyHex = some publicKey)
    (verified : verifySignature scheme data signatureHex publicKeyHex = true) :
    Signed publicKey data := by
  rw [verifySignature, key] at verified
  cases signature : fromHex signatureHex with
  | none => simp [signature] at verified
  | some bytes => exact unforgeable _ bytes _ (by simpa [signature] using verified)

end Verification

section Domains

theorem domainPreimage_inj {domain other : Text} {fields others : List Text} :
    domainPreimage domain fields = domainPreimage other others ↔
      domainText domain fields = domainText other others :=
  encodeUtf8_injective.eq_iff

/-- No domain starts with another one. -/
theorem not_prefix_domain {domain other : Text} (known : domain ∈ domains)
    (otherKnown : other ∈ domains) (differ : domain ≠ other) :
    ¬ domain <+: other := by
  have checked : ∀ domain ∈ domains, ∀ other ∈ domains, domain ≠ other →
      domain.isPrefixOf other = false := by decide
  intro starts
  have starts := List.isPrefixOf_iff_prefix.mpr starts
  rw [checked domain known other otherKnown differ] at starts
  cases starts

/-- Signatures under two domains never cover the same text. -/
theorem domainText_ne {domain other : Text} (known : domain ∈ domains)
    (otherKnown : other ∈ domains) (differ : domain ≠ other)
    (fields others : List Text) :
    domainText domain fields ≠ domainText other others := by
  intro same
  have starts : domain <+: domainText other others := by
    rw [← same]
    exact List.prefix_append _ _
  rcases List.prefix_or_prefix_of_prefix starts (List.prefix_append _ _) with
    shorter | longer
  · exact not_prefix_domain known otherKnown differ shorter
  · exact not_prefix_domain otherKnown known differ.symm longer

end Domains

section Examples

/-- A scheme whose signatures repeat what they sign. -/
def transparentScheme : Scheme where
  sha256 := Sha256.sha256
  publicKey := id
  sign privateKey data := privateKey ++ data
  verify publicKey signature data := signature = publicKey ++ data

theorem transparentScheme_correct : transparentScheme.Correct :=
  fun privateKey data => decide_eq_true (by simp [transparentScheme])

/-- A scheme in which exactly the listed data are signed. -/
def ledgerScheme (sha256 : List UInt8 → List UInt8)
    (signed : List (List UInt8 × List UInt8)) : Scheme where
  sha256 := sha256
  publicKey := id
  sign _ _ := []
  verify publicKey _ data := (publicKey, data) ∈ signed

theorem ledgerScheme_unforgeable (sha256 : List UInt8 → List UInt8)
    (signed : List (List UInt8 × List UInt8)) :
    (ledgerScheme sha256 signed).Unforgeable fun publicKey data =>
      (publicKey, data) ∈ signed :=
  fun _ _ _ verified => of_decide_eq_true verified

theorem pidOf_ledgerScheme (sha256 : List UInt8 → List UInt8)
    (signed : List (List UInt8 × List UInt8)) (privateKey : List UInt8) :
    pidOf (ledgerScheme sha256 signed)
        ((ledgerScheme sha256 signed).publicKey privateKey) =
      toHex (sha256 privateKey) :=
  rfl

theorem verifySignature_ledgerScheme {sha256 : List UInt8 → List UInt8}
    {signed : List (List UInt8 × List UInt8)} {publicKey data : List UInt8}
    (member : (publicKey, data) ∈ signed) (signature : List UInt8) :
    verifySignature (ledgerScheme sha256 signed) data (toHex signature)
      (toHex publicKey) = true := by
  rw [verifySignature, fromHex_toHex, fromHex_toHex]
  exact decide_eq_true member

theorem verifyDomain_ledgerScheme {sha256 : List UInt8 → List UInt8}
    {signed : List (List UInt8 × List UInt8)} {publicKey : List UInt8}
    {domain : Text} {fields : List Text}
    (member : (publicKey, domainPreimage domain fields) ∈ signed)
    (privateKey : List UInt8) :
    verifyDomain (ledgerScheme sha256 signed) domain
      (signDomain (ledgerScheme sha256 signed) domain privateKey fields)
      (toHex publicKey) fields = true :=
  verifySignature_ledgerScheme member []

end Examples

end ContentSigning

end RefinetPillars
