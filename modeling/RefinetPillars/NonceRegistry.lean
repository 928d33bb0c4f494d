import RefinetPillars.HexText
import RefinetPillars.SharedDatabase

/-!
# The registry of sign-in nonces

The table `siwe_nonces` and the calls that record, consume and purge nonces,
each statement of a call by itself.  Times are in microseconds.
-/

namespace RefinetPillars

namespace NonceRegistry

open HexText SharedDatabase

/-- A row of `siwe_nonces`. -/
structure NonceRow where
  nonce : Text
  purpose : Text
  pid : Text
  address : Option Text
  chainId : Option Int
  issuedAt : Int
  expiresAt : Int
  spentAt : Option Int
deriving DecidableEq

/-- A row as it was before it was spent. -/
def NonceRow.asIssued (row : NonceRow) : NonceRow :=
  { row with spentAt := none }

/-- The table `siwe_nonces`, with at most one row for a nonce. -/
structure NonceTable where
  rows : List NonceRow
  primaryKey : (rows.map NonceRow.nonce).Nodup

namespace NonceTable

def empty : NonceTable := ⟨[], List.nodup_nil⟩

/-- `SELECT * FROM siwe_nonces WHERE nonce=?`. -/
def select (table : NonceTable) (nonce : Text) : Option NonceRow :=
  table.rows.find? fun row => row.nonce = nonce

/-- `INSERT OR REPLACE INTO siwe_nonces`. -/
def insertOrReplace (row : NonceRow) (table : NonceTable) : NonceTable where
  rows := table.rows.filter (fun other => other.nonce ≠ row.nonce) ++ [row]
  primaryKey := by
    rw [List.map_append, List.nodup_append]
    refine ⟨table.primaryKey.sublist (List.filter_sublist.map _), by simp, ?_⟩
    intro nonce member other otherMem
    obtain ⟨kept, keptMem, rfl⟩ := List.mem_map.mp member
    obtain rfl : other = row.nonce := by simpa using otherMem
    simpa using (List.mem_filter.mp keptMem).2

/-- `UPDATE siwe_nonces SET spent_at=? WHERE nonce=? AND spent_at IS NULL`. -/
def spend (nonce : Text) (now : Int) (table : NonceTable) : NonceTable where
  rows := table.rows.map fun row =>
    if row.nonce = nonce ∧ row.spentAt = none then
      { row with spentAt := some now }
    else row
  primaryKey := by
    rw [List.map_map]
    refine (List.map_congr_left fun row _ => ?_) ▸ table.primaryKey
    dsimp only [Function.comp_apply]
    split <;> rfl

/-- `DELETE FROM siwe_nonces WHERE expires_at < ?`. -/
def deleteExpired (cutoff : Int) (table : NonceTable) : NonceTable where
  rows := table.rows.filter fun row => ¬ row.expiresAt < cutoff
  primaryKey := table.primaryKey.sublist (List.filter_sublist.map _)

end NonceTable

/-- A call of `record_siwe_nonce`, with the time it reads. -/
structure Recording where
  nonce : Text
  purpose : Text
  pid : Text
  address : Option Text := none
  chainId : Option Int := none
  ttlSeconds : Int := 900
  now : Int
deriving DecidableEq

def Recording.expiresAt (recording : Recording) : Int :=
  recording.now + recording.ttlSeconds * 1000000

def Recording.row (recording : Recording) : NonceRow where
  nonce := recording.nonce
  purpose := recording.purpose
  pid := recording.pid
  address := recording.address
  chainId := recording.chainId
  issuedAt := recording.now
  expiresAt := recording.expiresAt
  spentAt := none

/-- A call of `consume_siwe_nonce`, with the time it reads. -/
structure Consumption where
  nonce : Text
  purpose : Text
  pid : Text
  now : Int
deriving DecidableEq

/-- How a consumption judges the row it has selected, and why. -/
def Consumption.judge (call : Consumption) (row : NonceRow) : Bool × String :=
  if row.spentAt ≠ none then (false, "nonce already used")
  else if row.pid ≠ call.pid then
    (false, "nonce was issued by a different Pillar")
  else if row.purpose ≠ call.purpose then
    (false, "nonce was issued for '" ++ String.ofList row.purpose ++
      "', not '" ++ String.ofList call.purpose ++ "'")
  else if row.expiresAt < call.now then (false, "challenge expired")
  else (true, "ok")

section Rows

variable {call : Consumption} {row : NonceRow} {table : NonceTable}
  {nonce : Text}

theorem judge_fst_iff :
    (call.judge row).1 = true ↔ row.spentAt = none ∧ row.pid = call.pid ∧
      row.purpose = call.purpose ∧ call.now ≤ row.expiresAt := by
  unfold Consumption.judge
  by_cases spent : row.spentAt = none
  · by_cases pid : row.pid = call.pid
    · by_cases purpose : row.purpose = call.purpose
      · by_cases expired : row.expiresAt < call.now
        · simp [spent, pid, purpose, expired]
        · simp [spent, pid, purpose, expired, not_lt.mp expired]
      · simp [spent, pid, purpose]
    · simp [spent, pid]
  · simp [spent]

theorem mem_of_select (found : table.select nonce = some row) :
    row ∈ table.rows ∧ row.nonce = nonce := by
  unfold NonceTable.select at found
  refine ⟨List.mem_of_find?_eq_some found, ?_⟩
  simpa using List.find?_some found

theorem mem_spend {now : Int} (member : row ∈ (table.spend nonce now).rows) :
    ∃ old ∈ table.rows, row.nonce = old.nonce ∧
      row.asIssued = old.asIssued ∧
      (row.spentAt = none → old.spentAt = none ∧ old.nonce ≠ nonce) := by
  obtain ⟨old, oldMem, rfl⟩ := List.mem_map.mp member
  refine ⟨old, oldMem, ?_⟩
  by_cases changed : old.nonce = nonce ∧ old.spentAt = none
  · simp [changed, NonceRow.asIssued]
  · simp only [changed, if_false, true_and]
    exact fun unspent => ⟨unspent, fun same => changed ⟨same, unspent⟩⟩

end Rows

/-- A call of `purge_expired_siwe_nonces`, with the time it reads. -/
structure Purge where
  olderThanDays : Int := 7
  now : Int
deriving DecidableEq

def Purge.cutoff (purge : Purge) : Int :=
  purge.now - purge.olderThanDays * 86400000000

inductive Request where
  | record (recording : Recording)
  | consume (call : Consumption)
  | purge (purge : Purge)
deriving DecidableEq

/-- How far a call has come; what it returns once it is over. -/
inductive Phase where
  | recording (recording : Recording)
  | recorded (recording : Recording)
  | registered (recording : Recording)
  | consuming (call : Consumption)
  | selected (call : Consumption) (row : NonceRow)
  | spent (call : Consumption) (row : NonceRow)
  | consumed (call : Consumption) (ok : Bool) (reason : String)
  | purging (purge : Purge)
  | purged (rowcount : Nat)
  | swept (rowcount : Nat)
  | raised
deriving DecidableEq

def start : Request → Phase
  | .record recording => .recording recording
  | .consume call =>
      if call.nonce = [] then .consumed call false "message carries no nonce"
      else .consuming call
  | .purge purge => .purging purge

/-- What a consumption does with the row it has selected. -/
def afterSelect (call : Consumption) : Option NonceRow → Phase
  | none => .consumed call false "nonce was not issued by this Pillar"
  | some row => .selected call row

def statement : Phase → Statement NonceTable Phase
  | .recording recording =>
      .write (NonceTable.insertOrReplace recording.row) fun _ =>
        .recorded recording
  | .recorded recording => .commit (.registered recording)
  | .consuming call =>
      .read fun table => afterSelect call (table.select call.nonce)
  -- the number of rows that the update has changed is not looked at
  | .selected call row =>
      .write (NonceTable.spend call.nonce call.now) fun _ => .spent call row
  | .spent call row =>
      .commit (.consumed call (call.judge row).1 (call.judge row).2)
  | .purging purge =>
      .write (NonceTable.deleteExpired purge.cutoff) fun table => .purged
        (table.rows.countP fun row => row.expiresAt < purge.cutoff)
  | .purged rowcount => .commit (.swept rowcount)
  | .registered _ | .consumed _ _ _ | .swept _ | .raised => .finished

/-- A database error ends a call that is not over yet. -/
def aborted : Phase → Phase
  | .registered recording => .registered recording
  | .consumed call ok reason => .consumed call ok reason
  | .swept rowcount => .swept rowcount
  | _ => .raised

def program : Program NonceTable Request Phase where
  start := start
  statement := statement
  aborted := aborted

/-- Between the write of a call and its commit. -/
def Phase.writing : Phase → Bool
  | .recorded _ | .spent _ _ | .purged _ => true
  | _ => false

abbrev Registry := World NonceTable Phase

/-- The registry after some actions, newest first. -/
abbrev runRegistry (actions : List (Action Request)) : Registry :=
  runActions program .empty actions

section Program

variable {phase after : Phase}

theorem start_cases (request : Request) :
    (∃ recording, program.start request = .recording recording) ∨
      (∃ call, program.start request = .consuming call) ∨
      (∃ call reason, program.start request = .consumed call false reason) ∨
      ∃ purge, program.start request = .purging purge := by
  cases request with
  | record recording => exact Or.inl ⟨recording, rfl⟩
  | consume call =>
      simp only [program, start]
      by_cases missing : call.nonce = []
      · rw [if_pos missing]
        exact Or.inr (Or.inr (Or.inl ⟨call, _, rfl⟩))
      · rw [if_neg missing]
        exact Or.inr (Or.inl ⟨call, rfl⟩)
  | purge purge => exact Or.inr (Or.inr (Or.inr ⟨purge, rfl⟩))

theorem statement_read {next : NonceTable → Phase}
    (reads : program.statement phase = .read next) :
    ∃ call, phase = .consuming call ∧
      next = fun table => afterSelect call (table.select call.nonce) := by
  cases phase with
  | consuming call =>
      exact ⟨call, rfl, (Statement.read.inj reads).symm⟩
  | _ => cases reads

theorem statement_write {change : NonceTable → NonceTable}
    {next : NonceTable → Phase}
    (writes : program.statement phase = .write change next) :
    (∃ recording, phase = .recording recording ∧
      change = .insertOrReplace recording.row ∧
      next = fun _ => .recorded recording) ∨
    (∃ call row, phase = .selected call row ∧
      change = .spend call.nonce call.now ∧ next = fun _ => .spent call row) ∨
    ∃ (purge : Purge) (rowcount : NonceTable → Nat), phase = .purging purge ∧
      change = .deleteExpired purge.cutoff ∧
      next = fun table => .purged (rowcount table) := by
  cases phase with
  | recording recording =>
      obtain ⟨rfl, rfl⟩ := Statement.write.inj writes
      exact Or.inl ⟨recording, rfl, rfl, rfl⟩
  | selected call row =>
      obtain ⟨rfl, rfl⟩ := Statement.write.inj writes
      exact Or.inr (Or.inl ⟨call, row, rfl, rfl, rfl⟩)
  | purging purge =>
      obtain ⟨rfl, rfl⟩ := Statement.write.inj writes
      exact Or.inr (Or.inr ⟨purge, _, rfl, rfl, rfl⟩)
  | _ => cases writes

theorem statement_commit (commits : program.statement phase = .commit after) :
    (∃ recording, phase = .recorded recording ∧
      after = .registered recording) ∨
    (∃ call row, phase = .spent call row ∧
      after = .consumed call (call.judge row).1 (call.judge row).2) ∨
    ∃ rowcount, phase = .purged rowcount ∧ after = .swept rowcount := by
  cases phase with
  | recorded recording =>
      exact Or.inl ⟨recording, rfl, (Statement.commit.inj commits).symm⟩
  | spent call row =>
      exact Or.inr (Or.inl ⟨call, row, rfl, (Statement.commit.inj commits).symm⟩)
  | purged rowcount =>
      exact Or.inr (Or.inr ⟨rowcount, rfl, (Statement.commit.inj commits).symm⟩)
  | _ => cases commits

theorem statement_ne_rollback :
    program.statement phase ≠ .rollback after := by
  cases phase <;> exact nofun

end Program

theorem singleWrite : program.SingleWrite Phase.writing where
  start request := by
    rcases start_cases request with ⟨_, begins⟩ | ⟨_, begins⟩ |
      ⟨_, _, begins⟩ | ⟨_, begins⟩ <;> simp [begins, Phase.writing]
  read phase next reads := by
    obtain ⟨call, rfl, rfl⟩ := statement_read reads
    refine ⟨rfl, fun table => ?_⟩
    dsimp only
    cases table.select call.nonce <;> rfl
  write phase change next writes := by
    rcases statement_write writes with ⟨_, rfl, -, rfl⟩ | ⟨_, _, rfl, -, rfl⟩ |
      ⟨_, _, rfl, -, rfl⟩ <;> exact ⟨rfl, fun _ => rfl⟩
  commit phase next commits := by
    rcases statement_commit commits with ⟨_, rfl, rfl⟩ | ⟨_, _, rfl, rfl⟩ |
      ⟨_, rfl, rfl⟩ <;> exact ⟨rfl, rfl⟩
  rollback phase next rolls := (statement_ne_rollback rolls).elim
  aborted phase := by cases phase <;> rfl

/-- `consume_siwe_nonce` when no other call comes in between: what it returns
and the table it leaves. -/
def consumeSiweNonce (call : Consumption) (table : NonceTable) :
    (Bool × String) × NonceTable :=
  if call.nonce = [] then ((false, "message carries no nonce"), table)
  else
    match table.select call.nonce with
    | none => ((false, "nonce was not issued by this Pillar"), table)
    | some row => (call.judge row, table.spend call.nonce call.now)

/-- A call whose statements follow each other. -/
theorem run_consume {registry : Registry}
    (free : registry.database.writer = none) (call : Consumption) :
    let index := registry.calls.length
    let result := consumeSiweNonce call registry.database.committed
    RunHistory.run (Action.apply program) registry
        [.step index, .step index, .step index, .start (.consume call)] =
      { database := ⟨result.2, none⟩
        calls := registry.calls ++ [.consumed call result.1.1 result.1.2] } := by
  obtain ⟨⟨committed, writer⟩, calls⟩ := registry
  obtain rfl : writer = none := free
  by_cases missing : call.nonce = []
  · simp [consumeSiweNonce, missing, Action.apply, program, start, statement,
      World.perform]
  · cases selected : committed.select call.nonce with
    | none =>
        simp [consumeSiweNonce, missing, selected, Action.apply, program, start,
          statement, World.perform, afterSelect, Database.content]
    | some row =>
        simp [consumeSiweNonce, missing, selected, Action.apply, program, start,
          statement, World.perform, afterSelect, Database.content,
          Database.Busy, Database.write, Database.commit, Option.filter]

section Alone

variable {call : Consumption} {table : NonceTable} {row : NonceRow}

/-- A nonce that is consumed has a row that passes the checks. -/
theorem exists_row_of_consumed
    (ok : (consumeSiweNonce call table).1.1 = true) :
    call.nonce ≠ [] ∧ ∃ row ∈ table.rows, row.nonce = call.nonce ∧
      (call.judge row).1 = true := by
  unfold consumeSiweNonce at ok
  split_ifs at ok with missing
  cases selected : table.select call.nonce with
  | none =>
      rw [selected] at ok
      cases ok
  | some row =>
      rw [selected] at ok
      obtain ⟨member, named⟩ := mem_of_select selected
      exact ⟨missing, row, member, named, ok⟩

/-- The rows after an attempt to consume a nonce; those of the nonce are
spent. -/
theorem mem_consumeSiweNonce
    (member : row ∈ (consumeSiweNonce call table).2.rows) :
    ∃ old ∈ table.rows, row.asIssued = old.asIssued ∧
      (row.spentAt = none → old.spentAt = none ∧
        (call.nonce ≠ [] → row.nonce ≠ call.nonce)) := by
  unfold consumeSiweNonce at member
  split_ifs at member with missing
  · exact ⟨row, member, rfl, fun unspent => ⟨unspent, (absurd missing ·)⟩⟩
  · cases selected : table.select call.nonce with
    | none =>
        rw [selected] at member
        refine ⟨row, member, rfl, fun unspent => ⟨unspent, fun _ => ?_⟩⟩
        have absent := List.find?_eq_none.mp selected row member
        simpa using absent
    | some found =>
        rw [selected] at member
        obtain ⟨old, oldMem, sameNonce, same, unchanged⟩ := mem_spend member
        refine ⟨old, oldMem, same, fun unspent => ?_⟩
        obtain ⟨oldUnspent, differ⟩ := unchanged unspent
        exact ⟨oldUnspent, fun _ => sameNonce ▸ differ⟩

end Alone

end NonceRegistry

end RefinetPillars
