import RefinetPillars.AuditLog

/-!
# The watchdog's check of the audit log

The watchdog verifies a hundred entries for speed.  Verification starts at the
first entry, so they are the oldest ones, and what comes after them is checked
by nothing.
-/

namespace RefinetPillars

namespace AuditLog

open HashChain

/-- What the watchdog reports about the log. -/
structure HealthStatus where
  auditChainOk : Bool := false
  auditChainLength : Nat := 0
  errors : List String := []

def HealthStatus.raise (status : HealthStatus) (message : String) :
    HealthStatus :=
  { status with
    auditChainOk := false
    errors := status.errors ++ ["audit: " ++ message] }

section Watchdog

variable (crypto : Primitives)

/-- `_check_audit_chain`, with the length of the log and the log as they are
read, or what was raised. -/
def checkAuditChain (length : Except String Nat) (read : Except String Log)
    (status : HealthStatus) : HealthStatus :=
  match length with
  | .error message => status.raise message
  | .ok length =>
      let status := { status with auditChainLength := length }
      if length = 0 then { status with auditChainOk := true }
      else
        match read with
        | .error message => status.raise message
        | .ok log =>
            let (valid, _, error) := verifyChain crypto 100 log
            { status with
              auditChainOk := valid
              errors := if valid then status.errors
                else status.errors ++ ["audit: " ++ error] }

/-- The row is hashed as it says and continues from the row before it. -/
structure IntactAt (rows : List Entry) (index : Nat) (row : Entry) : Prop where
  recomputed : computeEntryHash crypto row = row.entryHash
  linked : row.prevHash =
    headAfter Entry.entryHash genesisHash (rows.take index)

/-- So are the hundred newest rows, or all if they are fewer. -/
def NewestIntact (rows : List Entry) : Prop :=
  ∀ index row, rows[index]? = some row → rows.length ≤ index + 100 →
    IntactAt crypto rows index row

/-- Only a log of which the newest rows are intact is reported as valid,
whatever the reads of the database come to. -/
def ChecksNewest (log : Log) : Prop :=
  ∀ (status : HealthStatus) (length : Except String Nat)
    (read : Except String Log),
    (∀ count, length = .ok count → count = log.entries.length) →
    (∀ found, read = .ok found → found = log) →
    (checkAuditChain crypto length read status).auditChainOk = true →
      NewestIntact crypto log.entries

/-- If the oldest hundred rows are intact, so are those of the newest ones that
are not among them. -/
def LaterIntact (rows : List Entry) : Prop :=
  ChainedFrom crypto genesisHash (rows.take 100) →
    ∀ index row, rows[index]? = some row → 100 ≤ index →
      rows.length ≤ index + 100 → IntactAt crypto rows index row

end Watchdog

section Chains

variable {crypto : Primitives}

/-- A chain is intact row by row. -/
theorem chainedFrom_iff_intactAt {rows : List Entry} :
    ChainedFrom crypto genesisHash rows ↔
      ∀ index row, rows[index]? = some row → IntactAt crypto rows index row := by
  induction rows using List.reverseRecOn with
  | nil => simp [Chained]
  | append_singleton rows last ih =>
      have earlier : ∀ index row, rows[index]? = some row →
          (IntactAt crypto (rows ++ [last]) index row ↔
            IntactAt crypto rows index row) := by
        intro index row found
        obtain ⟨inside, -⟩ := List.getElem?_eq_some_iff.mp found
        have same : (rows ++ [last]).take index = rows.take index :=
          List.take_append_of_le_length inside.le
        constructor
        · rintro ⟨recomputed, linked⟩
          exact ⟨recomputed, same ▸ linked⟩
        · rintro ⟨recomputed, linked⟩
          exact ⟨recomputed, same.symm ▸ linked⟩
      rw [ChainedFrom, chained_concat, ← ChainedFrom, ih]
      constructor
      · rintro ⟨intact, continues, stored⟩ index row found
        rcases Nat.lt_or_ge index rows.length with inside | outside
        · rw [List.getElem?_append_left inside] at found
          exact (earlier index row found).mpr (intact index row found)
        · rw [List.getElem?_append_right outside] at found
          obtain ⟨atEnd, same⟩ := List.getElem?_eq_some_iff.mp found
          obtain rfl : index = rows.length := by
            simp only [List.length_singleton] at atEnd
            omega
          obtain rfl : last = row := by simpa using same
          exact ⟨stored, by rwa [List.take_left']; rfl⟩
      · intro intact
        obtain ⟨stored, continues⟩ := intact rows.length last (by simp)
        rw [List.take_left' rfl] at continues
        refine ⟨fun index row found => ?_, continues, stored⟩
        obtain ⟨inside, -⟩ := List.getElem?_eq_some_iff.mp found
        exact (earlier index row found).mp
          (intact index row (by rwa [List.getElem?_append_left inside]))

/-- The verdict is about the oldest hundred rows. -/
theorem auditChainOk_iff {log : Log} {status : HealthStatus} :
    (checkAuditChain crypto (.ok log.entries.length) (.ok log)
        status).auditChainOk = true ↔
      ChainedFrom crypto genesisHash (log.entries.take 100) := by
  by_cases empty : log.entries.length = 0
  · have none : log.entries = [] := List.length_eq_zero_iff.mp empty
    simp [checkAuditChain, none, Chained]
  · have verified : (verifyRows crypto genesisHash 0
        (log.entries.take 100)).1 = true ↔
          ChainedFrom crypto genesisHash (log.entries.take 100) :=
      verifyRows_fst_iff
    rw [← verified]
    simp only [checkAuditChain, empty, if_false]
    rfl

theorem checksNewest_iff_laterIntact (log : Log) :
    ChecksNewest crypto log ↔ LaterIntact crypto log.entries := by
  constructor
  · intro checks chained index row found late newest
    exact checks {} (.ok log.entries.length) (.ok log)
      (fun count same => (Except.ok.inj same).symm)
      (fun other same => (Except.ok.inj same).symm)
      (auditChainOk_iff.mpr chained) index row found newest
  · intro later status length read counted found accepted index row atIndex
      newest
    have chained : ChainedFrom crypto genesisHash (log.entries.take 100) := by
      cases length with
      | error message => cases accepted
      | ok count =>
          obtain rfl := counted count rfl
          cases read with
          | error message =>
              by_cases empty : log.entries.length = 0
              · have none : log.entries = [] := List.length_eq_zero_iff.mp empty
                simp [none, Chained]
              · simp [checkAuditChain, empty, HealthStatus.raise] at accepted
          | ok other =>
              obtain rfl := found other rfl
              exact auditChainOk_iff.mp accepted
    rcases Nat.lt_or_ge index 100 with early | late
    · obtain ⟨recomputed, linked⟩ := chainedFrom_iff_intactAt.mp chained index
        row (by rwa [List.getElem?_take_of_lt early])
      rw [List.take_take, Nat.min_eq_left early.le] at linked
      exact ⟨recomputed, linked⟩
    · exact later chained index row atIndex late newest

end Chains

section Logs

variable (crypto : Primitives)

/-- An entry after the last one of a log. -/
def nextEntry (log : Log) : Entry :=
  Request.entry crypto
    { tableName := "daily_tx".toList
      operation := "INSERT".toList
      recordKey := "key".toList
      recordData := []
      pid := ['p']
      privateKey := []
      timestamp := "2026-01-01".toList } log.lastHash

/-- A log of some entries. -/
def logOf : Nat → Log
  | 0 => Log.empty
  | count + 1 => (logOf count).insert (nextEntry crypto (logOf count))

/-- The last entry continues from no hash. -/
def tamperedLog (count : Nat) : Log :=
  (logOf crypto count).insert
    { nextEntry crypto (logOf crypto count) with
      prevHash := ':' :: (logOf crypto count).lastHash }

theorem length_logOf (count : Nat) :
    (logOf crypto count).entries.length = count := by
  induction count with
  | zero => rfl
  | succ count ih => simp [logOf, Log.insert, ih]

theorem chained_logOf (count : Nat) :
    ChainedFrom crypto genesisHash (logOf crypto count).entries := by
  induction count with
  | zero => trivial
  | succ count ih => exact (chained_concat _ _ _).mpr ⟨ih, rfl, rfl⟩

theorem length_tamperedLog (count : Nat) :
    (tamperedLog crypto count).entries.length = count + 1 := by
  simp [tamperedLog, Log.insert, length_logOf]

/-- A tampered entry after the first hundred is not noticed. -/
theorem auditChainOk_tamperedLog {count : Nat} (many : 100 ≤ count)
    (status : HealthStatus) :
    (checkAuditChain crypto (.ok (tamperedLog crypto count).entries.length)
      (.ok (tamperedLog crypto count)) status).auditChainOk = true := by
  have inside : 100 ≤ (logOf crypto count).entries.length := by
    rwa [length_logOf]
  have chained := chainedFrom_iff_intactAt.mp (chained_logOf crypto count)
  rw [auditChainOk_iff, tamperedLog, Log.insert,
    List.take_append_of_le_length inside, chainedFrom_iff_intactAt]
  intro index row found
  have early : index < 100 := by
    obtain ⟨bounded, -⟩ := List.getElem?_eq_some_iff.mp found
    simp only [List.length_take] at bounded
    omega
  obtain ⟨recomputed, linked⟩ := chained index row
    (by rwa [List.getElem?_take_of_lt early] at found)
  exact ⟨recomputed, by rwa [List.take_take, Nat.min_eq_left early.le]⟩

theorem not_newestIntact_tamperedLog (count : Nat) :
    ¬ NewestIntact crypto (tamperedLog crypto count).entries := by
  intro intact
  obtain ⟨-, linked⟩ := intact count _
    (by simp [tamperedLog, Log.insert, length_logOf]; rfl)
    (by rw [length_tamperedLog]; omega)
  have earlier : (tamperedLog crypto count).entries.take count =
      (logOf crypto count).entries := by
    rw [tamperedLog, Log.insert, List.take_left' (length_logOf crypto count)]
  rw [earlier] at linked
  have lengths := congrArg List.length linked
  simp [Log.lastHash] at lengths

/-- The check is about the newest entries exactly if those after the first
hundred are intact whenever these are; for all logs of a length it is so only up
to a hundred. -/
theorem checksNewest_iff :
    (∀ log, ChecksNewest crypto log ↔ LaterIntact crypto log.entries) ∧
      ∀ count, (∀ log : Log, log.entries.length = count →
        ChecksNewest crypto log) ↔ count ≤ 100 := by
  refine ⟨checksNewest_iff_laterIntact, fun count => ?_⟩
  constructor
  · intro checks
    by_contra many
    obtain ⟨older, rfl⟩ := Nat.exists_eq_add_of_lt (Nat.lt_of_not_le many)
    refine not_newestIntact_tamperedLog crypto (100 + older)
      (checks _ (length_tamperedLog crypto _) {} (.ok _) (.ok _) ?_ ?_
        (auditChainOk_tamperedLog crypto (Nat.le_add_right 100 older) {}))
    · exact fun count same => (Except.ok.inj same).symm
    · exact fun other same => (Except.ok.inj same).symm
  · rintro few log rfl
    rw [checksNewest_iff_laterIntact]
    intro _ index row found late
    obtain ⟨inside, -⟩ := List.getElem?_eq_some_iff.mp found
    omega

/-- A log of 101 entries of which the newest was altered is reported as valid. -/
theorem tampered_unnoticed :
    (checkAuditChain ⟨Sha256.sha256, fun _ _ => []⟩
        (.ok (tamperedLog ⟨Sha256.sha256, fun _ _ => []⟩ 100).entries.length)
        (.ok (tamperedLog ⟨Sha256.sha256, fun _ _ => []⟩ 100))
        {}).auditChainOk = true ∧
      ¬ NewestIntact ⟨Sha256.sha256, fun _ _ => []⟩
        (tamperedLog ⟨Sha256.sha256, fun _ _ => []⟩ 100).entries :=
  ⟨auditChainOk_tamperedLog _ le_rfl _, not_newestIntact_tamperedLog _ _⟩

end Logs

end AuditLog

end RefinetPillars
