import Mathlib
import RefinetPillars.StakingAbi

/-!
# The staking reader

The JSON-RPC calls of the reader and its walk through the directories of the
configured contracts.  Every call gets the next request number, so what a
transport answers may change from call to call.
-/

namespace RefinetPillars

namespace StakingReader

open HexText

inductive Json where
  | null
  | boolean (value : Bool)
  | number (value : Rat)
  | text (value : Text)
  | array (items : List Json)
  | object (fields : List (Text × Json))

/-- Python's truth value. -/
def Json.truthy : Json → Bool
  | .null => false
  | .boolean value => value
  | .number value => value ≠ 0
  | .text value => value ≠ []
  | .array items => !items.isEmpty
  | .object fields => !fields.isEmpty

/-- What the reader raises. -/
inductive ReadError where
  | abi (error : AbiError)
  /-- The transport raised. -/
  | transport
  /-- "malformed RPC reply" -/
  | malformedReply
  /-- "RPC error: …" -/
  | rpcError (error : Json)
  /-- "RPC reply has no result" -/
  | noResult

/-- A computation that sends requests.  Its state is `_rpc_id`, the number of
the newest request. -/
abbrev Reading := ExceptT ReadError (StateM Nat)

def decoded {Value : Type} (result : Except AbiError Value) : Reading Value :=
  match result with
  | .ok value => return value
  | .error error => throw (.abi error)

structure Reader where
  contracts : List Text
  /-- The reply to a request, unless the transport raises. -/
  transport : Json → Option Json

/-- The body of an `eth_call` request at the latest block. -/
def callPayload (id : Nat) (contract data : Text) : Json :=
  .object
    [("jsonrpc".toList, .text "2.0".toList),
      ("id".toList, .number id),
      ("method".toList, .text "eth_call".toList),
      ("params".toList, .array
        [.object [("to".toList, .text contract), ("data".toList, .text data)],
          .text "latest".toList])]

def ethCall (reader : Reader) (contract data : Text) : Reading Text := do
  let id ← modifyGet fun newest => (newest + 1, newest + 1)
  match reader.transport (callPayload id contract data) with
  | none => throw .transport
  | some (.object fields) =>
      let error := (fields.lookup "error".toList).getD .null
      if error.truthy then throw (.rpcError error)
      else
        match fields.lookup "result".toList with
        | some (.text result) =>
            if "0x".toList.isPrefixOf result then return result
            else throw .noResult
        | _ => throw .noResult
  | some _ => throw .malformedReply

/-- Slots read by one call. -/
def directoryPage : Nat := 200

/-- What an empty slot reads as. -/
def emptySlot : Text := List.replicate 64 '0'

/-- The PIDs found so far, and the set that keeps them distinct. -/
structure Found where
  pids : List Text
  seen : Finset Text
  nodup : pids.Nodup
  mem_seen : ∀ {text : Text}, text ∈ seen ↔ text ∈ pids

namespace Found

def empty : Found where
  pids := []
  seen := ∅
  nodup := List.nodup_nil
  mem_seen := by simp

/-- Look at one slot. -/
def add (found : Found) (pid : Text) : Found :=
  if pid = emptySlot then found
  else if fresh : pid ∈ found.seen then found
  else
    { pids := found.pids ++ [pid]
      seen := insert pid found.seen
      nodup := by
        rw [found.mem_seen] at fresh
        exact found.nodup.append (List.nodup_singleton pid)
          (List.disjoint_singleton.mpr fresh)
      mem_seen := by
        simp [found.mem_seen, or_comm] }

def collect (found : Found) (page : List Text) : Found :=
  page.foldl add found

theorem mem_add {found : Found} {pid text : Text} :
    text ∈ (found.add pid).pids ↔
      text ∈ found.pids ∨ (text ≠ emptySlot ∧ text = pid) := by
  unfold add
  split
  · rename_i isEmpty
    constructor
    · exact Or.inl
    · rintro (member | ⟨nonempty, rfl⟩)
      · exact member
      · exact (nonempty isEmpty).elim
  · rename_i nonempty
    split
    · rename_i known
      constructor
      · exact Or.inl
      · rintro (member | ⟨_, rfl⟩)
        · exact member
        · exact found.mem_seen.mp known
    · rw [List.mem_append, List.mem_singleton]
      constructor
      · rintro (member | rfl)
        · exact Or.inl member
        · exact Or.inr ⟨nonempty, rfl⟩
      · rintro (member | ⟨_, rfl⟩)
        · exact Or.inl member
        · exact Or.inr rfl

theorem mem_collect {found : Found} {page : List Text} {text : Text} :
    text ∈ (found.collect page).pids ↔
      text ∈ found.pids ∨ (text ≠ emptySlot ∧ text ∈ page) := by
  induction page generalizing found with
  | nil => simp [collect]
  | cons pid page ih =>
      change text ∈ ((found.add pid).collect page).pids ↔ _
      rw [ih, mem_add, List.mem_cons, or_assoc, ← and_or_left]

end Found

/-- The pages of one contract's directory, from a slot on. -/
def pageLoop (reader : Reader) (maxEntries : Nat) (contract : Text)
    (count offset : Nat) (found : Found) : Reading Found :=
  if _more : offset < count ∧ found.pids.length < maxEntries then do
    let data ← decoded
      (encodeCall selPidsPage [.uint offset, .uint directoryPage])
    let result ← ethCall reader contract data
    let page ← decoded (decodeBytes32Array result)
    if _ended : page = [] then return found
    else
      pageLoop reader maxEntries contract count (offset + page.length)
        (found.collect page)
  else return found
termination_by count - offset
decreasing_by
  have := List.length_pos_of_ne_nil _ended
  omega

def contractLoop (reader : Reader) (maxEntries : Nat) :
    List Text → Found → Reading Found
  | [], found => return found
  | contract :: contracts, found => do
      let result ← ethCall reader contract ('0' :: 'x' :: selPillarCount)
      let count ← decoded (decodeUint result)
      let walked ← pageLoop reader maxEntries contract count 0 found
      contractLoop reader maxEntries contracts walked

/-- Every registered PID across the configured contracts. -/
def directory (reader : Reader) (maxEntries : Nat) :
    Reading (List Text) := do
  let found ← contractLoop reader maxEntries reader.contracts .empty
  return found.pids.take maxEntries

/-- The computation succeeds with a value and leaves `_rpc_id` at `after`. -/
def Reads {Value : Type} (reading : Reading Value) (before : Nat)
    (value : Value) (after : Nat) : Prop :=
  reading.run before = (.ok value, after)

section Reads

variable {Value Other : Type} {before middle after : Nat}

theorem Reads.pure (value : Value) (id : Nat) :
    Reads (pure value : Reading Value) id value id := rfl

theorem Reads.bind {reading : Reading Value} {value : Value}
    {next : Value → Reading Other} {other : Other}
    (first : Reads reading before value middle)
    (second : Reads (next value) middle other after) :
    Reads (reading >>= next) before other after := by
  unfold Reads at *
  rw [ExceptT.run_bind]
  change StateT.bind reading.run _ before = _
  rw [StateT.bind, first]
  exact second

theorem reads_decoded {result : Except AbiError Value} {value : Value}
    (isOk : result = .ok value) (id : Nat) :
    Reads (decoded result) id value id := by
  rw [isOk]
  rfl

/-- A reply without an error whose result is the text. -/
def Json.Answers (reply : Json) (result : Text) : Prop :=
  ∃ fields, reply = .object fields ∧
    fields.lookup "error".toList = none ∧
    fields.lookup "result".toList = some (.text result)

theorem reads_ethCall {reader : Reader} {contract data result : Text}
    {newest : Nat} {reply : Json}
    (replied : reader.transport (callPayload (newest + 1) contract data) =
      some reply)
    (answers : reply.Answers ('0' :: 'x' :: result)) :
    Reads (ethCall reader contract data) newest ('0' :: 'x' :: result)
      (newest + 1) := by
  obtain ⟨fields, rfl, noError, hasResult⟩ := answers
  have sent : Reads (modifyGet fun newest => (newest + 1, newest + 1))
      newest (newest + 1) (newest + 1) := rfl
  refine sent.bind ?_
  simp only [replied, noError, hasResult]
  rfl

end Reads

end StakingReader

end RefinetPillars
