import RefinetPillars.NonceRegistry

/-!
# Consumption of a nonce under interleaving

A consumption that succeeds was authorized by a recording, under every
interleaving.  That a nonce is consumed only once depends on the order of the
statements: a call selects the row and later updates it, and does not look at
whether the update has found the row unspent.
-/

namespace RefinetPillars

namespace NonceRegistry

open HexText SharedDatabase RunHistory

/-- A recording that is in the registry, and whose row this is but for when it
was spent. -/
def Issued (registry : Registry) (row : NonceRow) : Prop :=
  ∃ (index : Nat) (recording : Recording),
    registry.calls[index]? = some (.registered recording) ∧
    row.asIssued = recording.row

/-- A recording of the nonce for the purpose and the Pillar, not yet expired
when the consumption read the time. -/
def Authorized (registry : Registry) (call : Consumption) : Prop :=
  ∃ (index : Nat) (recording : Recording),
    registry.calls[index]? = some (.registered recording) ∧
    recording.nonce = call.nonce ∧ recording.purpose = call.purpose ∧
    recording.pid = call.pid ∧ call.now ≤ recording.expiresAt

/-- Each nonce is consumed at most once, and with authorization. -/
structure SingleUse (registry : Registry) : Prop where
  once : ∀ (first second : Nat) (call other : Consumption)
    (reason otherReason : String),
    registry.calls[first]? = some (.consumed call true reason) →
    registry.calls[second]? = some (.consumed other true otherReason) →
    call.nonce = other.nonce → first = second
  authorized : ∀ (index : Nat) (call : Consumption) (reason : String),
    registry.calls[index]? = some (.consumed call true reason) →
    Authorized registry call

/-- The consumption of the nonce succeeds unless the database fails. -/
def Phase.succeeding (nonce : Text) : Phase → Bool
  | .selected call row | .spent call row =>
      call.nonce = nonce && (call.judge row).1
  | .consumed call ok _ => call.nonce = nonce && ok
  | _ => false

def Phase.ended : Phase → Bool
  | .registered _ | .consumed _ _ _ | .swept _ | .raised => true
  | _ => false

/-- What the next statement of a call must not interfere with. -/
def Phase.IsolatedIn (registry : Registry) : Phase → Prop
  | .consuming call =>
      ∀ row ∈ registry.database.committed.select call.nonce,
        (call.judge row).1 = true → ∀ other ∈ registry.calls,
          other.succeeding call.nonce = true → other.ended = true
  | .recording issue =>
      registry.database.writer.isNone = true → ∀ other ∈ registry.calls,
        other.succeeding issue.nonce = true → other.ended = false
  | _ => True

/-- A row that passes the checks is not selected while another consumption
that has selected such a row is still before its commit, and a nonce is not
recorded again after it has been consumed. -/
def Isolated : Action Request → Registry → Prop
  | .step index, registry =>
      ∀ phase ∈ registry.calls[index]?, phase.IsolatedIn registry
  | _, _ => True

instance (registry : Registry) (phase : Phase) :
    Decidable (phase.IsolatedIn registry) :=
  match phase with
  | .consuming call => inferInstanceAs (Decidable
      (∀ row ∈ registry.database.committed.select call.nonce,
        (call.judge row).1 = true → ∀ other ∈ registry.calls,
          other.succeeding call.nonce = true → other.ended = true))
  | .recording recording => inferInstanceAs (Decidable
      (registry.database.writer.isNone = true → ∀ other ∈ registry.calls,
        other.succeeding recording.nonce = true → other.ended = false))
  | .recorded _ | .registered _ | .selected _ _ | .spent _ _
  | .consumed _ _ _ | .purging _ | .purged _ | .swept _ | .raised =>
      inferInstanceAs (Decidable True)

instance (action : Action Request) (registry : Registry) :
    Decidable (Isolated action registry) :=
  match action with
  | .step index => inferInstanceAs (Decidable
      (∀ phase ∈ registry.calls[index]?, phase.IsolatedIn registry))
  | .start _ | .abort _ => inferInstanceAs (Decidable True)

section Rows

variable {row : NonceRow} {table : NonceTable} {nonce : Text}

/-- Every row of the nonce has been spent. -/
def NonceTable.Spent (table : NonceTable) (nonce : Text) : Prop :=
  ∀ row ∈ table.rows, row.nonce = nonce → row.spentAt ≠ none

theorem NonceTable.Spent.spend (spent : table.Spent nonce) (other : Text)
    (now : Int) : (table.spend other now).Spent nonce := by
  intro row member named unspent
  obtain ⟨old, oldMem, sameNonce, -, unchanged⟩ := mem_spend member
  exact spent old oldMem (sameNonce ▸ named) (unchanged unspent).1

theorem NonceTable.spent_spend (table : NonceTable) (nonce : Text)
    (now : Int) : (table.spend nonce now).Spent nonce := by
  intro row member named unspent
  obtain ⟨old, -, sameNonce, -, unchanged⟩ := mem_spend member
  exact (unchanged unspent).2 (sameNonce ▸ named)

theorem NonceTable.Spent.insertOrReplace (spent : table.Spent nonce)
    (differ : row.nonce ≠ nonce) :
    (table.insertOrReplace row).Spent nonce := by
  intro member memberMem named
  rcases List.mem_append.mp memberMem with older | newest
  · exact spent member (List.mem_filter.mp older).1 named
  · obtain rfl : member = row := by simpa using newest
    exact (differ named).elim

theorem NonceTable.Spent.deleteExpired (spent : table.Spent nonce)
    (cutoff : Int) : (table.deleteExpired cutoff).Spent nonce :=
  fun row member => spent row (List.mem_filter.mp member).1

end Rows

/-- Where the rows in the database and in the calls come from. -/
structure Traced (registry : Registry) : Prop where
  committed : ∀ row ∈ registry.database.committed.rows, Issued registry row
  pending : ∀ (index : Nat) (pending : NonceTable),
    registry.database.writer = some (index, pending) →
    ∀ row ∈ pending.rows, Issued registry row ∨ ∃ recording : Recording,
      registry.calls[index]? = some (.recorded recording) ∧
        row = recording.row
  selected : ∀ (index : Nat) (call : Consumption) (row : NonceRow),
    registry.calls[index]? = some (.selected call row) ∨
      registry.calls[index]? = some (.spent call row) →
    row.nonce = call.nonce ∧ Issued registry row
  consumed : ∀ (index : Nat) (call : Consumption) (reason : String),
    registry.calls[index]? = some (.consumed call true reason) →
    Authorized registry call

section Provenance

variable {registry next : Registry} {action : Action Request} {row : NonceRow}
  {call : Consumption}

theorem registered_stays (effect : Effect program registry action next)
    {index : Nat} {recording : Recording}
    (current : registry.calls[index]? = some (.registered recording)) :
    next.calls[index]? = some (.registered recording) :=
  effect.stays current rfl rfl

theorem Issued.effect (issued : Issued registry row)
    (effect : Effect program registry action next) : Issued next row := by
  obtain ⟨index, recording, current, same⟩ := issued
  exact ⟨index, recording, registered_stays effect current, same⟩

theorem Authorized.effect (authorized : Authorized registry call)
    (effect : Effect program registry action next) : Authorized next call := by
  obtain ⟨index, recording, current, facts⟩ := authorized
  exact ⟨index, recording, registered_stays effect current, facts⟩

theorem Issued.congr (issued : Issued registry row) {other : NonceRow}
    (same : other.asIssued = row.asIssued) :
    Issued registry other := by
  obtain ⟨index, recording, current, rowEq⟩ := issued
  exact ⟨index, recording, current, same.trans rowEq⟩

/-- A row that passes the checks authorizes the consumption. -/
theorem Issued.authorized (issued : Issued registry row)
    (named : row.nonce = call.nonce) (passes : (call.judge row).1 = true) :
    Authorized registry call := by
  obtain ⟨index, recording, current, rowEq⟩ := issued
  obtain ⟨-, pid, purpose, inTime⟩ := judge_fst_iff.mp passes
  rw [NonceRow.asIssued, NonceRow.mk.injEq] at rowEq
  obtain ⟨nonceEq, purposeEq, pidEq, -, -, -, expiresEq, -⟩ := rowEq
  refine ⟨index, recording, current, ?_, ?_, ?_, ?_⟩
  · exact nonceEq.symm.trans named
  · exact purposeEq.symm.trans purpose
  · exact pidEq.symm.trans pid
  · exact inTime.trans_eq expiresEq

/-- The phases of the calls after a step, but for the call that moved. -/
theorem Traced.moved (traced : Traced registry)
    (effect : Effect program registry action next) {index : Nat}
    {phase after : Phase} (current : registry.calls[index]? = some phase)
    (calls : next.calls = registry.calls.set index after)
    (committed : ∀ row ∈ next.database.committed.rows, Issued next row)
    (pending : ∀ (holder : Nat) (pending : NonceTable),
      next.database.writer = some (holder, pending) →
      ∀ row ∈ pending.rows, Issued next row ∨ ∃ recording : Recording,
        next.calls[holder]? = some (.recorded recording) ∧
          row = recording.row)
    (selected : ∀ (call : Consumption) (row : NonceRow),
      after = .selected call row ∨ after = .spent call row →
      row.nonce = call.nonce ∧ Issued next row)
    (consumed : ∀ (call : Consumption) (reason : String),
      after = .consumed call true reason → Authorized next call) :
    Traced next := by
  refine ⟨committed, pending, ?_, ?_⟩
  · intro other call row found
    rw [calls] at found
    by_cases same : other = index
    · rw [getElem?_set_of_current current, if_pos same, Option.some.injEq,
        Option.some.injEq] at found
      exact selected call row found
    · rw [getElem?_set_of_current current, if_neg same] at found
      obtain ⟨named, issued⟩ := traced.selected other call row found
      exact ⟨named, issued.effect effect⟩
  · intro other call reason found
    rw [calls] at found
    rcases getElem?_set_cases current found with ⟨-, here⟩ | ⟨-, elsewhere⟩
    · exact consumed call reason here.symm
    · exact (traced.consumed other call reason elsewhere).effect effect

/-- The uncommitted rows stay where they are while another call moves. -/
theorem Traced.pending_moved (traced : Traced registry)
    (effect : Effect program registry action next) {index : Nat}
    {phase after : Phase} (current : registry.calls[index]? = some phase)
    (calls : next.calls = registry.calls.set index after)
    (writer : next.database.writer = registry.database.writer)
    (idle : phase.writing = false) (holder : Nat) (pending : NonceTable)
    (held : next.database.writer = some (holder, pending))
    (row : NonceRow) (member : row ∈ pending.rows) :
    Issued next row ∨ ∃ recording : Recording,
      next.calls[holder]? = some (.recorded recording) ∧
        row = recording.row := by
  rw [writer] at held
  rcases traced.pending holder pending held row member with issued |
    ⟨recording, found, rowEq⟩
  · exact Or.inl (issued.effect effect)
  · refine Or.inr ⟨recording, ?_, rowEq⟩
    have differ : holder ≠ index := by
      rintro rfl
      rw [current] at found
      rw [Option.some.inj found] at idle
      cases idle
    rw [calls, getElem?_set_of_current current, if_neg differ, found]

/-- A call that has just started has neither selected a row nor succeeded. -/
theorem start_ne (request : Request) (call : Consumption) :
    (∀ row, program.start request ≠ .selected call row ∧
      program.start request ≠ .spent call row) ∧
    ∀ reason, program.start request ≠ .consumed call true reason := by
  rcases start_cases request with ⟨_, begins⟩ | ⟨_, begins⟩ |
    ⟨_, _, begins⟩ | ⟨_, begins⟩ <;> simp [begins]

theorem aborted_ne_selected {phase : Phase} (call : Consumption)
    (row : NonceRow) :
    ¬ (aborted phase = .selected call row ∨
      aborted phase = .spent call row) := by
  cases phase <;> simp [aborted]

theorem eq_consumed_of_aborted {phase : Phase} {ok : Bool} {reason : String}
    (ended : aborted phase = .consumed call ok reason) :
    phase = .consumed call ok reason := by
  cases phase <;> simp_all [aborted]

/-- Rows that a call writes without recording a nonce. -/
theorem Traced.rewritten (traced : Traced registry)
    (effect : Effect program registry action next) {index : Nat}
    {phase after : Phase} (current : registry.calls[index]? = some phase)
    (calls : next.calls = registry.calls.set index after)
    (committed : next.database.committed = registry.database.committed)
    {written : NonceTable}
    (writer : next.database.writer = some (index, written))
    (rewritten : ∀ row ∈ written.rows,
      ∃ old ∈ registry.database.committed.rows,
        row.asIssued = old.asIssued)
    (selected : ∀ (call : Consumption) (row : NonceRow),
      after = .selected call row ∨ after = .spent call row →
      row.nonce = call.nonce ∧ Issued registry row)
    (consumed : ∀ (call : Consumption) (reason : String),
      after ≠ .consumed call true reason) : Traced next := by
  refine traced.moved effect current calls ?_ ?_ ?_ ?_
  · intro row member
    rw [committed] at member
    exact (traced.committed row member).effect effect
  · intro holder pending held row member
    rw [writer, Option.some.injEq, Prod.mk.injEq] at held
    rw [← held.2] at member
    obtain ⟨old, oldMem, same⟩ := rewritten row member
    exact Or.inl (((traced.committed old oldMem).congr same).effect effect)
  · intro call row found
    obtain ⟨named, issued⟩ := selected call row found
    exact ⟨named, issued.effect effect⟩
  · intro call reason found
    exact (consumed call reason found).elim

theorem Traced.effect (traced : Traced registry)
    (locked : registry.Locked Phase.writing)
    (effect : Effect program registry action next) : Traced next := by
  have taken := effect
  have committed := fun row member =>
    (traced.committed row member).effect taken
  cases effect with
  | idle => exact traced
  | start request =>
      refine ⟨committed, ?_, ?_, ?_⟩
      · intro holder pending held row member
        rcases traced.pending holder pending held row member with issued |
          ⟨recording, found, rowEq⟩
        · exact Or.inl (issued.effect taken)
        · obtain ⟨bound, -⟩ := List.getElem?_eq_some_iff.mp found
          refine Or.inr ⟨recording, ?_, rowEq⟩
          exact (List.getElem?_append_left bound).trans found
      · intro index call row found
        have older : registry.calls[index]? = some (.selected call row) ∨
            registry.calls[index]? = some (.spent call row) := by
          refine found.imp (fun here => ?_) fun here => ?_
          · exact (getElem?_append_cases here).resolve_left fun newest =>
              ((start_ne request call).1 row).1 newest.2.symm
          · exact (getElem?_append_cases here).resolve_left fun newest =>
              ((start_ne request call).1 row).2 newest.2.symm
        obtain ⟨named, issued⟩ := traced.selected index call row older
        exact ⟨named, issued.effect taken⟩
      · intro index call reason found
        rcases getElem?_append_cases found with ⟨-, newest⟩ | older
        · exact ((start_ne request call).2 reason newest.symm).elim
        · exact (traced.consumed index call reason older).effect taken
  | read index phase following current reads =>
      obtain ⟨call, rfl, rfl⟩ := statement_read reads
      refine traced.moved taken current rfl committed
        (traced.pending_moved taken current rfl rfl rfl) ?_ ?_
      · intro other row found
        cases selected : registry.database.committed.select call.nonce with
        | none => simp [selected, afterSelect] at found
        | some old =>
            obtain ⟨rfl, rfl⟩ : call = other ∧ old = row := by
              simpa [selected, afterSelect] using found
            obtain ⟨member, named⟩ := mem_of_select selected
            exact ⟨named, committed old member⟩
      · intro other reason found
        cases selected : registry.database.committed.select call.nonce <;>
          simp [selected, afterSelect] at found
  | write index phase change following current writes free =>
      rcases statement_write writes with ⟨recording, rfl, rfl, rfl⟩ |
        ⟨call, row, rfl, rfl, rfl⟩ | ⟨purge, rowcount, rfl, rfl, rfl⟩
      · refine traced.moved taken current rfl committed ?_ ?_ (by simp)
        · intro holder pending held row member
          obtain ⟨rfl, rfl⟩ := Prod.mk.inj (Option.some.inj held)
          rcases List.mem_append.mp member with older | newest
          · exact Or.inl (committed row (List.mem_filter.mp older).1)
          · refine Or.inr ⟨recording, ?_, by simpa using newest⟩
            exact (getElem?_set_of_current current _ _).trans (if_pos rfl)
        · simp
      · refine traced.rewritten taken current rfl rfl rfl ?_ ?_ (by simp)
        · intro row member
          obtain ⟨old, oldMem, -, same, -⟩ := mem_spend member
          exact ⟨old, oldMem, same⟩
        · intro other found same
          obtain ⟨rfl, rfl⟩ : call = other ∧ row = found := by simpa using same
          exact traced.selected index call row (Or.inl current)
      · refine traced.rewritten taken current rfl rfl rfl ?_ (by simp) (by simp)
        exact fun row member => ⟨row, (List.mem_filter.mp member).1, rfl⟩
  | commit index phase after pending current commits held =>
      refine traced.moved taken current rfl ?_ (by simp) ?_ ?_
      · intro row member
        rcases traced.pending index pending held row member with issued |
          ⟨recording, found, rowEq⟩
        · exact issued.effect taken
        · obtain rfl := Option.some.inj (current.symm.trans found)
          obtain rfl := (Statement.commit.inj commits).symm
          refine ⟨index, recording, ?_, by rw [rowEq]; rfl⟩
          exact (getElem?_set_of_current current _ _).trans (if_pos rfl)
      · rcases statement_commit commits with ⟨_, -, rfl⟩ | ⟨_, _, -, rfl⟩ |
          ⟨_, -, rfl⟩ <;> simp
      · intro call reason found
        rcases statement_commit commits with ⟨_, -, rfl⟩ |
          ⟨other, row, rfl, rfl⟩ | ⟨_, -, rfl⟩
        · cases found
        · obtain ⟨rfl, passes, -⟩ := Phase.consumed.inj found
          obtain ⟨named, issued⟩ :=
            traced.selected index other row (Or.inr current)
          exact (issued.authorized named passes).effect taken
        · cases found
  | rollback index phase after pending current rolls held =>
      exact (statement_ne_rollback rolls).elim
  | abort index phase current unlocked =>
      refine traced.moved taken current rfl committed
        (traced.pending_moved taken current rfl rfl
          (locked.idle current unlocked)) ?_ ?_
      · intro call row found
        exact (aborted_ne_selected call row found).elim
      · intro call reason found
        obtain rfl := eq_consumed_of_aborted found
        exact (traced.consumed index call reason current).effect taken
  | abortWrite index phase pending current held =>
      refine traced.moved taken current rfl committed (by simp) ?_ ?_
      · intro call row found
        exact (aborted_ne_selected call row found).elim
      · intro call reason found
        obtain rfl := eq_consumed_of_aborted found
        exact (traced.consumed index call reason current).effect taken

end Provenance

/-- At most one of the calls is to consume the nonce, for every nonce. -/
def Unique (calls : List Phase) : Prop :=
  ∀ (nonce : Text) (first second : Nat) (phase other : Phase),
    calls[first]? = some phase → calls[second]? = some other →
    phase.succeeding nonce = true → other.succeeding nonce = true →
    first = second

/-- What has been consumed is spent in the table. -/
def Settled (calls : List Phase) (table : NonceTable) : Prop :=
  ∀ (nonce : Text), ∀ phase ∈ calls, phase.succeeding nonce = true →
    phase.ended = true → table.Spent nonce

/-- Consumptions do not interfere. -/
structure Exclusive (registry : Registry) : Prop where
  unique : Unique registry.calls
  committed : Settled registry.calls registry.database.committed
  pending : ∀ (holder : Nat) (pending : NonceTable),
    registry.database.writer = some (holder, pending) →
    Settled registry.calls pending ∧
      ∀ (call : Consumption) (row : NonceRow),
        registry.calls[holder]? = some (.spent call row) →
        pending.Spent call.nonce

section Exclusion

variable {registry next : Registry} {action : Action Request}
  {calls : List Phase} {index : Nat} {phase after : Phase} {table : NonceTable}

theorem Unique.set (unique : Unique calls)
    (current : calls[index]? = some phase)
    (alone : ∀ nonce, after.succeeding nonce = true →
      phase.succeeding nonce = true ∨ ∀ (other : Nat) (found : Phase),
        calls[other]? = some found → found.succeeding nonce = false) :
    Unique (calls.set index after) := by
  have other_of_after : ∀ (nonce : Text) (other : Nat) (found : Phase),
      after.succeeding nonce = true → calls[other]? = some found →
      found.succeeding nonce = true → index = other := by
    intro nonce other found succeeds foundAt foundSucceeds
    rcases alone nonce succeeds with before | none
    · exact unique nonce index other phase found current foundAt before
        foundSucceeds
    · rw [none other found foundAt] at foundSucceeds
      cases foundSucceeds
  intro nonce first second one two oneAt twoAt oneSucceeds twoSucceeds
  rcases getElem?_set_cases current oneAt with ⟨rfl, rfl⟩ | ⟨-, oneOld⟩ <;>
    rcases getElem?_set_cases current twoAt with ⟨rfl, rfl⟩ | ⟨-, twoOld⟩
  · rfl
  · exact other_of_after nonce second two oneSucceeds twoOld twoSucceeds
  · exact (other_of_after nonce first one twoSucceeds oneOld oneSucceeds).symm
  · exact unique nonce first second one two oneOld twoOld oneSucceeds
      twoSucceeds

theorem Unique.append (unique : Unique calls)
    (idle : ∀ nonce, after.succeeding nonce = false) :
    Unique (calls ++ [after]) := by
  intro nonce first second one two oneAt twoAt oneSucceeds twoSucceeds
  rcases getElem?_append_cases oneAt with ⟨-, rfl⟩ | oneAt
  · rw [idle] at oneSucceeds
    cases oneSucceeds
  · rcases getElem?_append_cases twoAt with ⟨-, rfl⟩ | twoAt
    · rw [idle] at twoSucceeds
      cases twoSucceeds
    · exact unique nonce first second one two oneAt twoAt oneSucceeds
        twoSucceeds

theorem Settled.set (settled : Settled calls table)
    (current : calls[index]? = some phase)
    (here : ∀ nonce, after.succeeding nonce = true → after.ended = true →
      (phase.succeeding nonce = true ∧ phase.ended = true) ∨
        table.Spent nonce) : Settled (calls.set index after) table := by
  intro nonce found member succeeds ended
  rcases List.mem_or_eq_of_mem_set member with older | rfl
  · exact settled nonce found older succeeds ended
  · rcases here nonce succeeds ended with ⟨before, ended⟩ | spent
    · exact settled nonce phase (List.mem_of_getElem? current) before ended
    · exact spent

theorem Settled.append (settled : Settled calls table)
    (idle : ∀ nonce, after.succeeding nonce = false) :
    Settled (calls ++ [after]) table := by
  intro nonce found member succeeds ended
  rcases List.mem_append.mp member with older | newest
  · exact settled nonce found older succeeds ended
  · obtain rfl := List.mem_singleton.mp newest
    rw [idle] at succeeds
    cases succeeds

theorem succeeding_start (request : Request) (nonce : Text) :
    (program.start request).succeeding nonce = false := by
  rcases start_cases request with ⟨_, begins⟩ | ⟨_, begins⟩ |
    ⟨_, _, begins⟩ | ⟨_, begins⟩ <;> simp [begins, Phase.succeeding]

/-- Aborting a call makes it neither succeed nor end with success. -/
theorem succeeding_aborted {nonce : Text}
    (succeeds : (program.aborted phase).succeeding nonce = true) :
    program.aborted phase = phase := by
  cases phase <;> simp_all [program, aborted, Phase.succeeding]

/-- A call moves without writing. -/
theorem Exclusive.set (exclusive : Exclusive registry)
    (current : registry.calls[index]? = some phase)
    (alone : ∀ nonce, after.succeeding nonce = true →
      phase.succeeding nonce = true ∨ ∀ (other : Nat) (found : Phase),
        registry.calls[other]? = some found → found.succeeding nonce = false)
    (here : ∀ nonce, after.succeeding nonce = true → after.ended = true →
      phase.succeeding nonce = true ∧ phase.ended = true)
    (quiet : ∀ call row, after ≠ .spent call row) :
    Exclusive { registry with calls := registry.calls.set index after } := by
  refine ⟨exclusive.unique.set current alone, ?_,
    fun holder pending held => ?_⟩
  · exact exclusive.committed.set current fun nonce succeeds ended =>
      Or.inl (here nonce succeeds ended)
  · obtain ⟨settled, spends⟩ := exclusive.pending holder pending held
    refine ⟨settled.set current fun nonce succeeds ended =>
      Or.inl (here nonce succeeds ended), fun call row found => ?_⟩
    rcases getElem?_set_cases current found with ⟨-, newest⟩ | ⟨-, older⟩
    · exact (quiet call row newest.symm).elim
    · exact spends call row older

/-- A call writes, and keeps what it is to consume. -/
theorem Exclusive.write (exclusive : Exclusive registry)
    (current : registry.calls[index]? = some phase)
    (same : ∀ nonce, after.succeeding nonce = true →
      phase.succeeding nonce = true)
    (unended : after.ended = false) {written : NonceTable}
    (settled : Settled registry.calls written)
    (spends : ∀ call row, after = .spent call row →
      written.Spent call.nonce) :
    Exclusive
      { database := ⟨registry.database.committed, some (index, written)⟩
        calls := registry.calls.set index after } := by
  have here : ∀ (table : NonceTable) (nonce : Text),
      after.succeeding nonce = true → after.ended = true →
      (phase.succeeding nonce = true ∧ phase.ended = true) ∨
        table.Spent nonce := by
    intro table nonce _ ended
    rw [unended] at ended
    cases ended
  refine ⟨exclusive.unique.set current fun nonce succeeds =>
    Or.inl (same nonce succeeds), exclusive.committed.set current (here _),
    fun holder pending held => ?_⟩
  obtain ⟨rfl, rfl⟩ := Prod.mk.inj (Option.some.inj held)
  refine ⟨settled.set current (here _), fun call row found => ?_⟩
  rcases getElem?_set_cases current found with ⟨-, newest⟩ | ⟨differ, -⟩
  · exact spends call row newest.symm
  · exact (differ rfl).elim

/-- The lock is released. -/
theorem Exclusive.release (exclusive : Exclusive registry)
    (current : registry.calls[index]? = some phase)
    (same : ∀ nonce, after.succeeding nonce = true →
      phase.succeeding nonce = true) {table : NonceTable}
    (settled : Settled registry.calls table)
    (here : ∀ nonce, after.succeeding nonce = true → after.ended = true →
      table.Spent nonce) :
    Exclusive
      { database := ⟨table, none⟩
        calls := registry.calls.set index after } :=
  ⟨exclusive.unique.set current fun nonce succeeds =>
    Or.inl (same nonce succeeds),
    settled.set current fun nonce succeeds ended =>
      Or.inr (here nonce succeeds ended), nofun⟩

theorem Exclusive.effect (exclusive : Exclusive registry)
    (isolated : Isolated action registry)
    (effect : Effect program registry action next) : Exclusive next := by
  cases effect with
  | idle => exact exclusive
  | start request =>
      have idle := succeeding_start request
      refine ⟨exclusive.unique.append idle, exclusive.committed.append idle,
        fun holder pending held => ?_⟩
      obtain ⟨settled, spends⟩ := exclusive.pending holder pending held
      refine ⟨settled.append idle, fun call row found => ?_⟩
      rcases getElem?_append_cases found with ⟨-, newest⟩ | older
      · exact (((start_ne request call).1 row).2 newest.symm).elim
      · exact spends call row older
  | read index phase following current reads =>
      obtain ⟨call, rfl, rfl⟩ := statement_read reads
      cases selected : registry.database.committed.select call.nonce with
      | none =>
          apply exclusive.set current <;>
            simp [selected, afterSelect, Phase.succeeding]
      | some row =>
          refine exclusive.set current (fun nonce succeeds => Or.inr ?_) ?_ ?_
          · obtain ⟨rfl, passes⟩ : call.nonce = nonce ∧
                (call.judge row).1 = true := by
              simpa [selected, afterSelect, Phase.succeeding] using succeeds
            intro other found foundAt
            by_contra! busy
            have member := List.mem_of_getElem? foundAt
            have ended := isolated _ current row selected passes found
              member (by simpa using busy)
            obtain ⟨rowMem, named⟩ := mem_of_select selected
            exact exclusive.committed call.nonce found member (by simpa using busy) ended
              row rowMem named (judge_fst_iff.mp passes).1
          · simp [selected, afterSelect, Phase.ended]
          · simp [selected, afterSelect]
  | write index phase change following current writes free =>
      have settled := exclusive.committed
      rcases statement_write writes with ⟨recording, rfl, rfl, rfl⟩ |
        ⟨call, row, rfl, rfl, rfl⟩ | ⟨purge, rowcount, rfl, rfl, rfl⟩
      · refine exclusive.write current ?_ rfl ?_ (by simp)
        · simp [Phase.succeeding]
        · intro nonce found member succeeds ended
          refine (settled nonce found member succeeds ended).insertOrReplace ?_
          rintro rfl
          have unended := isolated _ current (by simp [free]) found
            member succeeds
          rw [ended] at unended
          cases unended
      · refine exclusive.write current ?_ rfl ?_ ?_
        · exact fun _ succeeds => succeeds
        · intro nonce found member succeeds ended
          exact (settled nonce found member succeeds ended).spend _ _
        · intro other found same
          obtain ⟨rfl, -⟩ := Phase.spent.inj same
          exact NonceTable.spent_spend _ _ _
      · refine exclusive.write current ?_ rfl ?_ (by simp)
        · simp [Phase.succeeding]
        · intro nonce found member succeeds ended
          exact (settled nonce found member succeeds ended).deleteExpired _
  | commit index phase after pending current commits held =>
      obtain ⟨settled, spends⟩ := exclusive.pending index pending held
      rcases statement_commit commits with ⟨recording, rfl, rfl⟩ |
        ⟨call, row, rfl, rfl⟩ | ⟨rowcount, rfl, rfl⟩
      · apply exclusive.release current _ settled <;> simp [Phase.succeeding]
      · refine exclusive.release current ?_ settled ?_
        · exact fun _ succeeds => succeeds
        · intro nonce succeeds _
          obtain rfl : call.nonce = nonce := by
            simp only [Phase.succeeding, Bool.and_eq_true,
              decide_eq_true_eq] at succeeds
            exact succeeds.1
          exact spends call row current
      · apply exclusive.release current _ settled <;> simp [Phase.succeeding]
  | rollback index phase after pending current rolls held =>
      exact (statement_ne_rollback rolls).elim
  | abort index phase current unlocked =>
      refine exclusive.set current ?_ ?_ ?_
      · intro nonce succeeds
        rw [succeeding_aborted succeeds] at succeeds
        exact Or.inl succeeds
      · intro nonce succeeds ended
        have same := succeeding_aborted succeeds
        rw [same] at succeeds ended
        exact ⟨succeeds, ended⟩
      · exact fun call row found => aborted_ne_selected call row (Or.inr found)
  | abortWrite index phase pending current held =>
      refine exclusive.release current ?_ exclusive.committed ?_
      · intro nonce succeeds
        rw [succeeding_aborted succeeds] at succeeds
        exact succeeds
      · intro nonce succeeds ended
        have same := succeeding_aborted succeeds
        rw [same] at succeeds ended
        exact exclusive.committed nonce phase (List.mem_of_getElem? current)
          succeeds ended

end Exclusion

theorem traced_runRegistry (actions : List (Action Request)) :
    Traced (runRegistry actions) := by
  induction actions with
  | nil => exact ⟨nofun, nofun, by simp [World.initial],
      by simp [World.initial]⟩
  | cons action actions ih =>
      have locked := locked_runActions singleWrite NonceTable.empty actions
      exact ih.effect locked (effect_apply singleWrite locked action)

theorem exclusive_runRegistry {actions : List (Action Request)}
    (isolated : Admitted (Action.apply program) (.initial .empty) Isolated
      actions) : Exclusive (runRegistry actions) := by
  apply runActions_invariant singleWrite isolated
  · exact ⟨by simp [Unique, World.initial], nofun, nofun⟩
  · exact fun action registry next _ allowed effect exclusive =>
      exclusive.effect allowed effect

/-- A nonce is consumed at most once, with authorization, in every run whose
steps are isolated. -/
theorem consumed_once {actions : List (Action Request)}
    (isolated : Admitted (Action.apply program) (.initial .empty) Isolated
      actions) : SingleUse (runRegistry actions) := by
  constructor
  · intro first second call other reason otherReason firstAt secondAt same
    refine (exclusive_runRegistry isolated).unique call.nonce first second _ _
      firstAt secondAt ?_ ?_
    · simp [Phase.succeeding]
    · simp [Phase.succeeding, same]
  · exact (traced_runRegistry actions).consumed

def loginNonce : Recording where
  nonce := ['n']
  purpose := ['l', 'o', 'g', 'i', 'n']
  pid := ['p']
  now := 0

def firstLogin : Consumption := ⟨['n'], ['l', 'o', 'g', 'i', 'n'], ['p'], 5⟩

/-- A nonce is recorded and then consumed twice, one call after the other. -/
def consumedTwice : List (Action Request) :=
  [.step 2, .step 2, .step 2, .start (.consume firstLogin), .step 1, .step 1,
    .step 1, .start (.consume firstLogin), .step 0, .step 0,
    .start (.record loginNonce)]

theorem consumed_once_sequential :
    (runRegistry consumedTwice).calls =
        [.registered loginNonce, .consumed firstLogin true "ok",
          .consumed firstLogin false "nonce already used"] ∧
      SingleUse (runRegistry consumedTwice) :=
  ⟨by decide, consumed_once (by decide)⟩

/-- Both calls select the row before either updates it. -/
def consumedTogether : List (Action Request) :=
  [.step 2, .step 2, .step 1, .step 1, .step 2, .step 1,
    .start (.consume firstLogin), .start (.consume firstLogin), .step 0,
    .step 0, .start (.record loginNonce)]

theorem consumed_once_together :
    ¬ ∀ actions, SingleUse (runRegistry actions) := by
  intro claimed
  have once := (claimed consumedTogether).once 1 2 firstLogin firstLogin
    "ok" "ok" (by decide) (by decide) rfl
  cases once

end NonceRegistry

end RefinetPillars
