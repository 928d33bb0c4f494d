import RefinetPillars.HashChain
import RefinetPillars.KeyRecovery
import RefinetPillars.SharedDatabase

/-!
# The audit log

A table of entries in the order of their numbers, each with the hash of the
entry before it.  Appending reads the last hash, computes the next one and
inserts the entry; verification walks the chain from the first entry.
-/

namespace RefinetPillars

namespace AuditLog

open HexText HashChain SharedDatabase

/-- SHA-256 and the signatures of Ed25519. -/
structure Primitives where
  sha256 : List UInt8 → List UInt8
  ed25519Sign : Text → List UInt8 → List UInt8

/-- A row of `audit_log`. -/
structure Entry where
  seq : Nat := 0
  prevHash : Text
  entryHash : Text
  tableName : Text
  operation : Text
  recordKey : Text
  recordHash : Text
  pid : Text
  signature : Text
  createdAt : Text
deriving DecidableEq

def genesisHash : Text := List.replicate 64 '0'

/-- The table `audit_log`, in the order of `seq`. -/
structure Log where
  entries : List Entry
  ordered : (entries.map Entry.seq).Pairwise (· < ·)

namespace Log

def empty : Log := ⟨[], .nil⟩

/-- The hash of the newest entry. -/
def lastHash (log : Log) : Text := headAfter Entry.entryHash genesisHash log.entries

def nextSeq (log : Log) : Nat := headAfter Entry.seq 0 log.entries + 1

theorem lt_nextSeq (log : Log) {entry : Entry} (member : entry ∈ log.entries) :
    entry.seq < log.nextSeq := by
  obtain ⟨entries, ordered⟩ := log
  rcases List.eq_nil_or_concat' entries with rfl | ⟨older, newest, rfl⟩
  · cases member
  · simp only [nextSeq, headAfter, List.getLast?_append, List.getLast?_singleton,
      Option.some_or, Option.map_some, Option.getD_some]
    rw [List.map_append, List.pairwise_append] at ordered
    rcases List.mem_append.mp member with old | new
    · have before := ordered.2.2 entry.seq (List.mem_map_of_mem old)
        newest.seq (by simp)
      omega
    · obtain rfl := List.mem_singleton.mp new
      omega

/-- `INSERT INTO audit_log`; the database numbers the entry. -/
def insert (entry : Entry) (log : Log) : Log where
  entries := log.entries ++ [{ entry with seq := log.nextSeq }]
  ordered := by
    rw [List.map_append, List.pairwise_append]
    refine ⟨log.ordered, List.pairwise_singleton _ _, ?_⟩
    intro seq member next nextMem
    obtain ⟨old, oldMem, rfl⟩ := List.mem_map.mp member
    obtain rfl : next = log.nextSeq := by simpa using nextMem
    exact log.lt_nextSeq oldMem

end Log

/-- A call of `append_audit_entry`: the record as canonical JSON, and the time
that is read before the database is. -/
structure Request where
  tableName : Text
  operation : Text
  recordKey : Text
  recordData : Text
  pid : Text
  privateKey : Text
  timestamp : Text
deriving DecidableEq

section Primitives

variable (crypto : Primitives)

def hexdigest (payload : Text) : Text :=
  toHex (crypto.sha256 (KeyRecovery.encodeUtf8 payload))

/-- The text that an entry hash is computed from, after the previous hash. -/
def Entry.hashedText (entry : Entry) : Text :=
  entry.recordHash ++ ':' :: entry.tableName ++ ':' :: entry.operation ++
    ':' :: entry.createdAt

/-- `_compute_entry_hash`, of the fields of an entry. -/
def computeEntryHash (entry : Entry) : Text :=
  hexdigest crypto (entry.prevHash ++ ':' :: entry.hashedText)

def signContent (data : List UInt8) (privateKey : Text) : Text :=
  toHex (crypto.ed25519Sign privateKey data)

/-- The entry of a request, after the hash that it has read. -/
def Request.entry (request : Request) (prevHash : Text) : Entry :=
  let unsigned : Entry :=
    { prevHash := prevHash
      entryHash := []
      tableName := request.tableName
      operation := request.operation
      recordKey := request.recordKey
      recordHash := hexdigest crypto request.recordData
      pid := request.pid
      signature := []
      createdAt := request.timestamp }
  let entryHash := computeEntryHash crypto unsigned
  { unsigned with
    entryHash := entryHash
    signature := signContent crypto (KeyRecovery.encodeUtf8 entryHash)
      request.privateKey }

/-- The loop of `verify_chain`. -/
def verifyRows : Text → Nat → List Entry → Bool × Nat × String
  | _, verified, [] => (true, verified, "")
  | expectedPrev, verified, row :: rows =>
      if row.prevHash ≠ expectedPrev then
        (false, verified,
          "Chain broken at seq " ++ toString row.seq ++
            ": expected prev_hash=" ++ String.ofList (expectedPrev.take 16) ++
            "..., got " ++ String.ofList (row.prevHash.take 16) ++ "...")
      else
        let recomputed := computeEntryHash crypto row
        if recomputed ≠ row.entryHash then
          (false, verified,
            "Hash mismatch at seq " ++ toString row.seq ++ ": stored=" ++
              String.ofList (row.entryHash.take 16) ++ "..., computed=" ++
              String.ofList (recomputed.take 16) ++ "...")
        else verifyRows row.entryHash (verified + 1) rows

/-- Whether the chain is valid, how many entries were verified, and what is
wrong with the next one. -/
def verifyChain (limit : Int) (log : Log) : Bool × Nat × String :=
  verifyRows crypto genesisHash 0
    (if 0 < limit then log.entries.take limit.toNat else log.entries)

/-- How far a call has come. -/
inductive Phase where
  | appending (request : Request)
  | selected (request : Request) (prevHash : Text)
  | inserted (request : Request) (prevHash : Text)
  | appended (entryHash : Text)
  | raised
deriving DecidableEq

def statement : Phase → Statement Log Phase
  | .appending request => .read fun log => .selected request log.lastHash
  | .selected request prevHash =>
      .write (Log.insert (request.entry crypto prevHash)) fun _ =>
        .inserted request prevHash
  | .inserted request prevHash =>
      .commit (.appended (request.entry crypto prevHash).entryHash)
  | .appended _ | .raised => .finished

/-- A database error ends a call that is not over yet. -/
def aborted : Phase → Phase
  | .appended entryHash => .appended entryHash
  | _ => .raised

def program : Program Log Request Phase where
  start := .appending
  statement := statement crypto
  aborted := aborted

/-- Between the insert of a call and its commit. -/
def Phase.writing : Phase → Bool
  | .inserted _ _ => true
  | _ => false

/-- The database after some actions, newest first. -/
abbrev runAppends (actions : List (Action Request)) : World Log Phase :=
  runActions (program crypto) .empty actions

end Primitives

section Verification

variable (crypto : Primitives)

/-- The log is a chain from the genesis hash. -/
abbrev ChainedFrom (start : Text) (rows : List Entry) : Prop :=
  Chained Entry.prevHash (computeEntryHash crypto) Entry.entryHash start rows

variable {crypto}

theorem verifyRows_of_chained {start : Text} {rows : List Entry}
    (chained : ChainedFrom crypto start rows) (verified : Nat) :
    verifyRows crypto start verified rows =
      (true, verified + rows.length, "") := by
  induction rows generalizing start verified with
  | nil => rfl
  | cons row rows ih =>
      obtain ⟨continues, storedEq, rest⟩ := chained
      rw [verifyRows, if_neg (not_not.mpr continues)]
      dsimp only
      rw [if_neg (not_not.mpr storedEq), ih rest, List.length_cons]
      congr 2
      omega

theorem verifyRows_fst_iff {start : Text} {verified : Nat}
    {rows : List Entry} :
    (verifyRows crypto start verified rows).1 = true ↔
      ChainedFrom crypto start rows := by
  constructor
  · intro accepted
    induction rows generalizing start verified with
    | nil => trivial
    | cons row rows ih =>
        rw [verifyRows] at accepted
        by_cases continues : row.prevHash = start
        · rw [if_neg (not_not.mpr continues)] at accepted
          dsimp only at accepted
          by_cases storedEq : computeEntryHash crypto row = row.entryHash
          · rw [if_neg (not_not.mpr storedEq)] at accepted
            exact ⟨continues, storedEq, ih accepted⟩
          · rw [if_pos storedEq] at accepted
            cases accepted
        · rw [if_pos continues] at accepted
          cases accepted
  · intro chained
    rw [verifyRows_of_chained chained]

/-- The whole log is accepted exactly when it is a chain. -/
theorem verifyChain_zero_iff {log : Log} :
    (verifyChain crypto 0 log).1 = true ↔
      ChainedFrom crypto genesisHash log.entries :=
  verifyRows_fst_iff

end Verification

end AuditLog

end RefinetPillars
