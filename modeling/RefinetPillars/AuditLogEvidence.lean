import RefinetPillars.AuditLog
import RefinetPillars.LineText

/-!
# What the head of the audit log determines

When SHA-256 is injective, two accepted logs of the same length with the same
last hash agree in the text that the entry hashes are computed from.  That text
names neither the record key nor the signer, and its fields are told apart only
where they contain no colon.
-/

namespace RefinetPillars

namespace AuditLog

open HexText HashChain KeyRecovery LineText

/-- The fields before the last separator contain no separator. -/
def Entry.ColonFree (entry : Entry) : Prop :=
  ':' ∉ entry.recordHash ∧ ':' ∉ entry.tableName ∧ ':' ∉ entry.operation

/-- The entries are the same as far as their hashes go. -/
structure SameHashed (entry other : Entry) : Prop where
  hashedText : entry.hashedText = other.hashedText
  fields : entry.ColonFree → other.ColonFree →
    entry.tableName = other.tableName ∧ entry.operation = other.operation ∧
      entry.recordHash = other.recordHash ∧ entry.createdAt = other.createdAt

section Evidence

variable {crypto : Primitives}

theorem hexdigest_injective (injective : Function.Injective crypto.sha256) :
    Function.Injective (hexdigest crypto) := by
  intro first second same
  exact encodeUtf8_injective (injective (toHex_injective same))

theorem sameHashed_of_hashedText {entry other : Entry}
    (same : entry.hashedText = other.hashedText) : SameHashed entry other := by
  refine ⟨same, fun free otherFree => ?_⟩
  simp only [Entry.hashedText, List.append_assoc, List.cons_append] at same
  obtain ⟨recordHash, afterHash⟩ := split_at_first free.1 otherFree.1 same
  obtain ⟨tableName, afterTable⟩ :=
    split_at_first free.2.1 otherFree.2.1 afterHash
  obtain ⟨operation, createdAt⟩ :=
    split_at_first free.2.2 otherFree.2.2 afterTable
  exact ⟨tableName, operation, recordHash, createdAt⟩

/-- An entry hash determines the hash before it and the text of the entry. -/
theorem binding_computeEntryHash
    (injective : Function.Injective crypto.sha256) :
    Binding Entry.prevHash (computeEntryHash crypto) (fun hash => ':' ∉ hash)
      SameHashed := by
  intro entry other free otherFree same
  obtain ⟨prevHash, hashedText⟩ :=
    split_at_first free otherFree (hexdigest_injective injective same)
  exact ⟨prevHash, sameHashed_of_hashedText hashedText⟩

/-- Accepted logs of the same length with the same last hash are the same as
far as their hashes go. -/
theorem tamper_evident (injective : Function.Injective crypto.sha256)
    {log other : Log} (accepted : (verifyChain crypto 0 log).1 = true)
    (otherAccepted : (verifyChain crypto 0 other).1 = true)
    (sameLength : log.entries.length = other.entries.length)
    (sameHead : log.lastHash = other.lastHash) :
    List.Forall₂ SameHashed log.entries other.entries := by
  have genesisFree : ':' ∉ genesisHash := by simp [genesisHash]
  exact ((verifyChain_zero_iff.mp accepted).determined
    (binding_computeEntryHash injective)
    (fun entry => colon_notMem_toHex _) (verifyChain_zero_iff.mp otherAccepted)
    genesisFree genesisFree sameLength sameHead).2

end Evidence

section Examples

/-- SHA-256 at one message, and injective. -/
def pinned (message input : List UInt8) : List UInt8 :=
  if input = message then Sha256.sha256 message
  else List.replicate 33 0 ++ input

theorem pinned_injective (message : List UInt8) :
    Function.Injective (pinned message) := by
  have apart : ∀ input, input ≠ message →
      pinned message input ≠ pinned message message := by
    intro input differ same
    have lengths := congrArg List.length same
    simp only [pinned, if_neg differ, if_true, List.length_append,
      List.length_replicate, Sha256.length_sha256] at lengths
    omega
  intro first second same
  by_cases firstPinned : first = message
  · by_cases secondPinned : second = message
    · exact firstPinned.trans secondPinned.symm
    · exact absurd (firstPinned ▸ same).symm (apart second secondPinned)
  · by_cases secondPinned : second = message
    · exact absurd (secondPinned ▸ same) (apart first firstPinned)
    · simpa only [pinned, if_neg firstPinned, if_neg secondPinned,
        List.append_cancel_left_eq] using same

def Entry.payload (entry : Entry) : List UInt8 :=
  KeyRecovery.encodeUtf8 (entry.prevHash ++ ':' :: entry.hashedText)

def pinnedPrimitives (entry : Entry) : Primitives :=
  ⟨pinned entry.payload, fun _ _ => []⟩

/-- The log of one entry, with the hash that belongs to it. -/
def soleEntry (crypto : Primitives) (entry : Entry) : Log :=
  Log.empty.insert { entry with entryHash := computeEntryHash crypto entry }

theorem accepted_soleEntry (crypto : Primitives) {entry : Entry}
    (first : entry.prevHash = genesisHash) :
    (verifyChain crypto 0 (soleEntry crypto entry)).1 = true :=
  verifyChain_zero_iff.mpr ⟨first, rfl, trivial⟩

def forwardEntry : Entry where
  prevHash := genesisHash
  entryHash := []
  tableName := ['a', ':', 'b']
  operation := ['c']
  recordKey := ['k']
  recordHash := ['0']
  pid := ['p']
  signature := []
  createdAt := ['1']

theorem tamper_evident_otherKey :
    List.Forall₂ SameHashed
      (soleEntry (pinnedPrimitives forwardEntry) forwardEntry).entries
      (soleEntry (pinnedPrimitives forwardEntry)
        { forwardEntry with recordKey := ['l'] }).entries :=
  tamper_evident (pinned_injective _) (accepted_soleEntry _ rfl)
    (accepted_soleEntry _ rfl) rfl rfl

/-- Accepted logs with the same last hash are related row by row. -/
def HeadDetermines (Same : Entry → Entry → Prop) : Prop :=
  ∀ (crypto : Primitives) (log other : Log),
    Function.Injective crypto.sha256 →
    (verifyChain crypto 0 log).1 = true →
    (verifyChain crypto 0 other).1 = true →
    log.entries.length = other.entries.length →
    log.lastHash = other.lastHash →
    List.Forall₂ Same log.entries other.entries

def SameFields (entry other : Entry) : Prop :=
  entry.tableName = other.tableName ∧ entry.operation = other.operation ∧
    entry.recordKey = other.recordKey ∧
    entry.recordHash = other.recordHash ∧ entry.createdAt = other.createdAt

theorem HeadDetermines.soleEntry {Same : Entry → Entry → Prop}
    (determines : HeadDetermines Same) (entry other : Entry)
    (first : entry.prevHash = genesisHash)
    (otherFirst : other.prevHash = genesisHash)
    (sameText : entry.hashedText = other.hashedText) :
    Same
      { entry with
        seq := 1
        entryHash := computeEntryHash (pinnedPrimitives entry) entry }
      { other with
        seq := 1
        entryHash := computeEntryHash (pinnedPrimitives entry) other } := by
  have sameHash : computeEntryHash (pinnedPrimitives entry) entry =
      computeEntryHash (pinnedPrimitives entry) other := by
    simp only [computeEntryHash, first, otherFirst, sameText]
  have rows := determines (pinnedPrimitives entry) (AuditLog.soleEntry _ entry)
    (AuditLog.soleEntry _ other) (pinned_injective _) (accepted_soleEntry _ first)
    (accepted_soleEntry _ otherFirst) rfl sameHash
  exact (List.forall₂_cons.mp rows).1

/-- Neither the record key nor the border between table and operation can be
told from the hashes. -/
theorem tamper_evident_undetected :
    ¬ HeadDetermines SameFields ∧
      ¬ HeadDetermines fun entry other =>
        entry.tableName = other.tableName := by
  constructor
  · intro determines
    have same := determines.soleEntry forwardEntry
      { forwardEntry with recordKey := ['l'] } rfl rfl rfl
    exact absurd same.2.2.1 (by decide)
  · intro determines
    have same := determines.soleEntry forwardEntry
      { forwardEntry with tableName := ['a'], operation := ['b', ':', 'c'] }
      rfl rfl rfl
    exact absurd same (by decide)

end Examples

end AuditLog

end RefinetPillars
