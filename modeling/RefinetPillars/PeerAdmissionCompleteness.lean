import RefinetPillars.PeerAdmission
import RefinetPillars.SearchOrder

/-!
# Which bindings of a document are found

A document may list several bindings of one wallet, since each signature of a
wallet adds one.  The first of them decides, so a binding that verifies may
stand behind one that does not.
-/

namespace RefinetPillars

namespace PeerAdmission

open HexText ContentSigning JsonText ExceptRules WalletBinding SearchOrder

section Entries

/-- The entries of a document about wallets. -/
def entriesOf (doc : Json) : List Json :=
  match doc.get "bindings".toList with
  | some (.arr entries) => entries
  | _ => []

/-- A document with other entries about wallets. -/
def withBindings (entries : List Json) : Json → Json
  | .obj fields => .obj (setField "bindings".toList (.arr entries) fields)
  | value => value

variable (scheme : Scheme) (env : Environment)

def IsBound (doc : Json) (operator : Option Text) : Prop :=
  ∃ reason, operatorIsBound scheme env doc operator = .ok (true, reason)

/-- An entry that names another address. -/
def OfAnother (wallet : Text) (entry : Json) : Prop :=
  ∃ fields address, entry = .obj fields ∧ addressOf fields = .ok address ∧
    env.lower address ≠ wallet

/-- An entry for an address that verifies for the PID and the key of the
document, and is not of the old kind. -/
def Binds (doc : Json) (wallet : Text) (entry : Json) : Prop :=
  ∃ fields address record reason, entry = .obj fields ∧
    addressOf fields = .ok address ∧ env.lower address = wallet ∧
    recordOf doc fields = .ok record ∧ isLegacyBinding record = .ok false ∧
    verifyBinding scheme env record = .ok (true, reason)

/-- A wallet is bound exactly when an entry binds it, in whichever order the
entries stand, and whatever entries that bind nothing stand among them. -/
structure Complete (doc : Json) (operator : Option Text) : Prop where
  bound_iff : IsBound scheme env doc operator ↔
    ∃ entry ∈ entriesOf doc,
      Binds scheme env doc (env.lower (operator.getD [])) entry
  reordered : ∀ others, others.Perm (entriesOf doc) →
    (IsBound scheme env (withBindings others doc) operator ↔
      IsBound scheme env doc operator)
  unaffected : ∀ others, others.Sublist (entriesOf doc) →
    (∀ entry ∈ entriesOf doc,
      Binds scheme env doc (env.lower (operator.getD [])) entry →
      entry ∈ others) →
    (IsBound scheme env (withBindings others doc) operator ↔
      IsBound scheme env doc operator)

/-- No entry binds the wallet, or all do that do not name another address. -/
def AllBind (doc : Json) (operator : Option Text) : Prop :=
  Unhindered (OfAnother env (env.lower (operator.getD [])))
    (Binds scheme env doc (env.lower (operator.getD []))) (entriesOf doc)

end Entries

section Searching

variable {scheme : Scheme} {env : Environment} {doc other : Json}
  {fields : List (Text × Json)} {entries : List Json} {wallet : Text}
  {operator : Option Text}

theorem checkEntry_eq_true_iff :
    (∃ reason, checkEntry scheme env doc fields = .ok (true, reason)) ↔
      ∃ record reason, recordOf doc fields = .ok record ∧
        isLegacyBinding record = .ok false ∧
        verifyBinding scheme env record = .ok (true, reason) := by
  constructor
  · rintro ⟨reason, bound⟩
    exact checkEntry_eq_true bound
  · rintro ⟨record, reason, made, current, verified⟩
    refine ⟨"bound".toList, bind_eq_ok.mpr ⟨record, made, ?_⟩⟩
    refine bind_eq_ok.mpr ⟨false, current, ?_⟩
    exact bind_eq_ok.mpr ⟨_, verified, rfl⟩

/-- The loop is a search that passes over the entries of other addresses. -/
theorem findBinding_iff_finds :
    (∃ reason, findBinding scheme env doc wallet entries =
        .ok (true, reason)) ↔
      Finds (OfAnother env wallet) (Binds scheme env doc wallet) entries := by
  induction entries with
  | nil => simp [findBinding, Finds]
  | cons entry entries ih =>
      cases entry with
      | obj fields =>
          rw [findBinding, Finds, ← ih]
          cases read : addressOf fields with
          | error raised => simp [bind, Except.bind, Binds, OfAnother, read]
          | ok address =>
              change (∃ reason, (if env.lower address ≠ wallet then
                findBinding scheme env doc wallet entries
                else checkEntry scheme env doc fields) =
                  .ok (true, reason)) ↔ _
              by_cases same : env.lower address = wallet
              · simp [same, read, Binds, OfAnother, checkEntry_eq_true_iff]
              · simp [same, read, Binds, OfAnother]
      | null | bool | int | float | str | arr =>
          simp [findBinding, Finds, Binds, OfAnother]

theorem entriesOf_eq (listed : doc.get "bindings".toList = some (.arr entries)) :
    entriesOf doc = entries := by
  rw [entriesOf, listed]

theorem mem_entriesOf {entry : Json} :
    entry ∈ entriesOf doc ↔
      ∃ entries, doc.get "bindings".toList = some (.arr entries) ∧
        entry ∈ entries := by
  constructor
  · intro member
    rw [entriesOf] at member
    split at member
    next entries listed => exact ⟨entries, listed, member⟩
    next => simp at member
  · rintro ⟨entries, listed, member⟩
    rw [entriesOf_eq listed]
    exact member

theorem operatorIsBound_eq
    (listed : doc.get "bindings".toList = some (.arr entries)) :
    operatorIsBound scheme env doc operator =
      findBinding scheme env doc (env.lower (operator.getD [])) entries := by
  cases doc with
  | obj fields =>
      rw [operatorIsBound, dictGet, listed]
      cases entries <;> rfl
  | null | bool | int | float | str | arr => cases listed

theorem isBound_iff_finds :
    IsBound scheme env doc operator ↔
      Finds (OfAnother env (env.lower (operator.getD [])))
        (Binds scheme env doc (env.lower (operator.getD [])))
        (entriesOf doc) := by
  rw [← findBinding_iff_finds]
  constructor
  · rintro ⟨reason, bound⟩
    obtain ⟨entries, listed, found⟩ := exists_entries_of_operatorIsBound bound
    rw [entriesOf_eq listed]
    exact ⟨reason, found⟩
  · rintro ⟨reason, found⟩
    obtain ⟨fields, address, member, -⟩ := exists_entry_of_findBinding found
    obtain ⟨entries, listed, -⟩ := mem_entriesOf.mp member
    rw [entriesOf_eq listed] at found
    exact ⟨reason, (operatorIsBound_eq listed).trans found⟩

end Searching

section Reordering

variable {scheme : Scheme} {env : Environment} {doc : Json}
  {others : List Json} {wallet : Text} {operator : Option Text} {key : Text}

theorem get_withBindings (other : key ≠ "bindings".toList) :
    (withBindings others doc).get key = doc.get key := by
  cases doc with
  | obj fields => rw [withBindings, get_setField, if_neg other]
  | null | bool | int | float | str | arr => rfl

theorem recordOf_withBindings (fields : List (Text × Json)) :
    recordOf (withBindings others doc) fields = recordOf doc fields := by
  rw [recordOf, item, item, get_withBindings (by decide),
    get_withBindings (by decide)]
  rfl

theorem binds_withBindings :
    Binds scheme env (withBindings others doc) wallet =
      Binds scheme env doc wallet := by
  funext entry
  simp only [Binds, recordOf_withBindings]

/-- The entries that are given to a document are its entries, if it can have
any. -/
theorem entriesOf_withBindings (member : others ⊆ entriesOf doc) :
    entriesOf (withBindings others doc) = others := by
  cases doc with
  | obj fields =>
      apply entriesOf_eq
      rw [withBindings, get_setField, if_pos rfl]
  | null | bool | int | float | str | arr =>
      exact (List.subset_nil.mp member).symm

theorem isBound_withBindings (member : others ⊆ entriesOf doc) :
    IsBound scheme env (withBindings others doc) operator ↔
      Finds (OfAnother env (env.lower (operator.getD [])))
        (Binds scheme env doc (env.lower (operator.getD []))) others := by
  rw [isBound_iff_finds, entriesOf_withBindings member, binds_withBindings]

theorem AllBind.complete (all : AllBind scheme env doc operator) :
    Complete scheme env doc operator := by
  constructor
  · rw [isBound_iff_finds, finds_iff all]
  · intro others reordered
    rw [isBound_withBindings reordered.subset, isBound_iff_finds,
      finds_iff all, finds_iff (all.of_subset reordered.subset)]
    simp only [reordered.mem_iff]
  · intro others sublist keeps
    rw [isBound_withBindings sublist.subset, isBound_iff_finds, finds_iff all,
      finds_iff (all.of_subset sublist.subset)]
    constructor
    · rintro ⟨entry, member, binds⟩
      exact ⟨entry, sublist.subset member, binds⟩
    · rintro ⟨entry, member, binds⟩
      exact ⟨entry, keeps entry member binds, binds⟩

/-- The bindings of a document are found exactly when none stands beside an
entry for the same address that does not verify, or beside one that cannot be
read. -/
theorem complete_iff :
    Complete scheme env doc operator ↔ AllBind scheme env doc operator := by
  constructor
  · intro complete
    refine forall_perm_iff.mp fun others reordered => ?_
    rw [← isBound_withBindings reordered.subset,
      complete.reordered others reordered, complete.bound_iff]
  · exact AllBind.complete

end Reordering

section Hidden

/-- A sign-in message that the wallet signed before bindings named a Pillar. -/
def olderFields : List (Text × Json) :=
  [("evm_address".toList, .str admittedWallet),
    ("siwe_message".toList, .str [])]

/-- The document that lists an older binding of the wallet first. -/
def hiddenDocument : Json :=
  withBindings [.obj olderFields, .obj admittedEntry] admittedDocument

def hiddenSignatures : List (List UInt8 × List UInt8) :=
  [(admittedKey, domainPreimage domainIdentity
      [toHex (Sha256.sha256 (canonicalJson (identityBody hiddenDocument)))]),
    (admittedKey, domainPreimage domainBinding [admittedId])]

def hiddenScheme : Scheme := ledgerScheme Sha256.sha256 hiddenSignatures

theorem verifyIdentityV3_hidden :
    verifyIdentityV3 hiddenScheme hiddenDocument =
      .ok (true, "valid".toList) :=
  verifyIdentityV3_ledgerScheme rfl rfl rfl rfl

theorem entriesOf_hidden :
    entriesOf hiddenDocument = [.obj olderFields, .obj admittedEntry] :=
  entriesOf_eq rfl

theorem checkEntry_older :
    checkEntry hiddenScheme admittedEnvironment hiddenDocument olderFields =
      .ok (false, ("binding predates 0.5.0: its statement does not name " ++
        "this Pillar").toList) := by
  have unstated : parseBindingStatement [] = none := by decide
  refine bind_eq_ok.mpr ⟨.obj _, rfl, ?_⟩
  refine bind_eq_ok.mpr ⟨true, bind_eq_ok.mpr ⟨[], rfl, ?_⟩, rfl⟩
  rw [unstated]
  rfl

theorem not_isBound_hidden :
    ¬ IsBound hiddenScheme admittedEnvironment hiddenDocument
      (some admittedWallet) := by
  rintro ⟨reason, bound⟩
  rw [operatorIsBound_eq rfl, findBinding] at bound
  obtain ⟨address, read, bound⟩ := bind_eq_ok.mp bound
  obtain rfl : admittedWallet = address := Except.ok.inj read
  rw [Option.getD_some, if_neg (not_not.mpr rfl), checkEntry_older] at bound
  cases bound

/-- The binding that verifies is not found behind the older one. -/
theorem not_complete :
    verifyIdentityV3 hiddenScheme hiddenDocument = .ok (true, "valid".toList) ∧
      ¬ Complete hiddenScheme admittedEnvironment hiddenDocument
        (some admittedWallet) := by
  refine ⟨verifyIdentityV3_hidden, fun complete => ?_⟩
  apply not_isBound_hidden
  rw [complete.bound_iff, entriesOf_hidden]
  exact ⟨_, List.mem_cons_of_mem _ List.mem_cons_self, admittedEntry,
    admittedWallet, admittedRecord, _, rfl, rfl, rfl, rfl,
    isLegacyBinding_admitted,
    verifyBinding_admitted (List.mem_cons_of_mem _ List.mem_cons_self)⟩

end Hidden

end PeerAdmission

end RefinetPillars
