import RefinetPillars.AuditLog

/-!
# The chain of the audit log under interleaving

An append reads the last hash of the log and inserts its entry with a later
statement.  The log stays a chain exactly as long as every append commits while
the hash it has read is still the last one.
-/

namespace RefinetPillars

namespace AuditLog

open HexText HashChain SharedDatabase RunHistory

/-- The hash that a call has read is still the last hash of the log. -/
def Phase.CurrentIn (log : Log) : Phase → Prop
  | .inserted _ prevHash => prevHash = log.lastHash
  | _ => True

/-- A call that commits has read the last hash of the log. -/
def Current : Action Request → World Log Phase → Prop
  | .step index, world =>
      ∀ phase ∈ world.calls[index]?, phase.CurrentIn world.database.committed
  | _, _ => True

instance (log : Log) (phase : Phase) : Decidable (phase.CurrentIn log) :=
  match phase with
  | .inserted _ prevHash => inferInstanceAs (Decidable (prevHash = log.lastHash))
  | .appending _ | .selected _ _ | .appended _ | .raised =>
      inferInstanceAs (Decidable True)

instance (action : Action Request) (world : World Log Phase) :
    Decidable (Current action world) :=
  match action with
  | .step index => inferInstanceAs (Decidable
      (∀ phase ∈ world.calls[index]?,
        phase.CurrentIn world.database.committed))
  | .start _ | .abort _ => inferInstanceAs (Decidable True)

section Effects

variable {crypto : Primitives} {world next : World Log Phase}
  {action : Action Request} {phase after : Phase}

theorem statement_read {following : Log → Phase}
    (reads : (program crypto).statement phase = .read following) :
    ∃ request, phase = .appending request ∧
      following = fun log => .selected request log.lastHash := by
  cases phase with
  | appending request =>
      exact ⟨request, rfl, (Statement.read.inj reads).symm⟩
  | _ => cases reads

theorem statement_write {change : Log → Log} {following : Log → Phase}
    (writes : (program crypto).statement phase = .write change following) :
    ∃ request prevHash, phase = .selected request prevHash ∧
      change = Log.insert (request.entry crypto prevHash) ∧
      following = fun _ => .inserted request prevHash := by
  cases phase with
  | selected request prevHash =>
      obtain ⟨rfl, rfl⟩ := Statement.write.inj writes
      exact ⟨request, prevHash, rfl, rfl, rfl⟩
  | _ => cases writes

theorem statement_commit
    (commits : (program crypto).statement phase = .commit after) :
    ∃ request prevHash, phase = .inserted request prevHash ∧
      after = .appended (request.entry crypto prevHash).entryHash := by
  cases phase with
  | inserted request prevHash =>
      exact ⟨request, prevHash, rfl, (Statement.commit.inj commits).symm⟩
  | _ => cases commits

theorem statement_ne_rollback :
    (program crypto).statement phase ≠ .rollback after := by
  cases phase <;> exact nofun

theorem singleWrite (crypto : Primitives) :
    (program crypto).SingleWrite Phase.writing where
  start _ := rfl
  read phase next reads := by
    obtain ⟨_, rfl, rfl⟩ := statement_read reads
    exact ⟨rfl, fun _ => rfl⟩
  write phase change next writes := by
    obtain ⟨_, _, rfl, -, rfl⟩ := statement_write writes
    exact ⟨rfl, fun _ => rfl⟩
  commit phase next commits := by
    obtain ⟨_, _, rfl, rfl⟩ := statement_commit commits
    exact ⟨rfl, rfl⟩
  rollback phase next rolls := (statement_ne_rollback rolls).elim
  aborted phase := by cases phase <;> rfl

/-- What is not committed yet is one entry of the call that has inserted it. -/
def OneEntryPending (crypto : Primitives) (world : World Log Phase) : Prop :=
  ∀ (index : Nat) (pending : Log),
    world.database.writer = some (index, pending) →
    ∃ request prevHash,
      world.calls[index]? = some (.inserted request prevHash) ∧
      pending = world.database.committed.insert (request.entry crypto prevHash)

theorem OneEntryPending.effect (pendingEntry : OneEntryPending crypto world)
    (effect : Effect (program crypto) world action next) :
    OneEntryPending crypto next := by
  cases effect with
  | idle => exact pendingEntry
  | start request =>
      intro holder pending held
      obtain ⟨inserting, prevHash, found, pendingEq⟩ :=
        pendingEntry holder pending held
      obtain ⟨bound, -⟩ := List.getElem?_eq_some_iff.mp found
      exact ⟨inserting, prevHash,
        (List.getElem?_append_left bound).trans found, pendingEq⟩
  | read index phase following current reads =>
      obtain ⟨request, rfl, rfl⟩ := statement_read reads
      intro holder pending held
      obtain ⟨inserting, prevHash, found, pendingEq⟩ :=
        pendingEntry holder pending held
      have differ : holder ≠ index := by
        rintro rfl
        cases current.symm.trans found
      refine ⟨inserting, prevHash, ?_, pendingEq⟩
      exact (getElem?_set_of_current current _ _).trans
        ((if_neg differ).trans found)
  | write index phase change following current writes free =>
      obtain ⟨request, prevHash, rfl, rfl, rfl⟩ := statement_write writes
      intro holder pending held
      obtain ⟨rfl, rfl⟩ := Prod.mk.inj (Option.some.inj held)
      refine ⟨request, prevHash, ?_, rfl⟩
      exact (getElem?_set_of_current current _ _).trans (if_pos rfl)
  | commit index phase after pending current commits held => exact nofun
  | rollback index phase after pending current rolls held => exact nofun
  | abort index phase current unlocked =>
      intro holder pending held
      obtain ⟨inserting, prevHash, found, pendingEq⟩ :=
        pendingEntry holder pending held
      have differ : holder ≠ index := by
        rintro rfl
        exact unlocked pending held
      refine ⟨inserting, prevHash, ?_, pendingEq⟩
      exact (getElem?_set_of_current current _ _).trans
        ((if_neg differ).trans found)
  | abortWrite index phase pending current held => exact nofun

theorem currentIn_of_not_commit (crypto : Primitives) (log : Log)
    (commitless : ∀ after, (program crypto).statement phase ≠ .commit after) :
    phase.CurrentIn log := by
  cases phase with
  | inserted request prevHash => exact (commitless _ rfl).elim
  | _ => trivial

/-- A step of a call that does not commit is current. -/
theorem current_of_not_commit (crypto : Primitives) {index : Nat}
    (current : world.calls[index]? = some phase)
    (commitless : ∀ after, (program crypto).statement phase ≠ .commit after) :
    Current (.step index) world := by
  intro found foundAt
  rw [current] at foundAt
  obtain rfl := Option.some.inj foundAt
  exact currentIn_of_not_commit crypto _ commitless

/-- The log is a chain after a step exactly when it was one before and the step
was current. -/
theorem chained_effect (pendingEntry : OneEntryPending crypto world)
    (effect : Effect (program crypto) world action next) :
    ChainedFrom crypto genesisHash next.database.committed.entries ↔
      ChainedFrom crypto genesisHash world.database.committed.entries ∧
        Current action world := by
  cases effect with
  | idle _ waits =>
      refine (and_iff_left ?_).symm
      cases action with
      | step index =>
          intro phase current
          have commitless : ∀ after,
              (program crypto).statement phase ≠ .commit after := by
            intro after commits
            rcases waits index phase rfl current with finished |
              ⟨change, following, writes, -⟩
            · cases finished.symm.trans commits
            · cases writes.symm.trans commits
          exact currentIn_of_not_commit crypto _ commitless
      | _ => trivial
  | start | abort | abortWrite => exact (and_iff_left trivial).symm
  | read index phase following current reads =>
      refine (and_iff_left (current_of_not_commit crypto current ?_)).symm
      exact fun after commits => by cases reads.symm.trans commits
  | write index phase change following current writes free =>
      refine (and_iff_left (current_of_not_commit crypto current ?_)).symm
      exact fun after commits => by cases writes.symm.trans commits
  | commit index phase after pending current commits held =>
      obtain ⟨request, prevHash, found, rfl⟩ :=
        pendingEntry index pending held
      rw [Log.insert, ChainedFrom, chained_concat]
      refine and_congr_right fun _ => ?_
      have linked : prevHash = world.database.committed.lastHash ↔
          Current (.step index) world := by
        simp [Current, found, Phase.CurrentIn]
      exact ⟨fun row => linked.mp row.1, fun now => ⟨linked.mpr now, rfl⟩⟩
  | rollback index phase after pending current rolls held =>
      exact (statement_ne_rollback rolls).elim

end Effects

theorem oneEntryPending_runAppends (crypto : Primitives)
    (actions : List (Action Request)) :
    OneEntryPending crypto (runAppends crypto actions) := by
  induction actions with
  | nil => exact nofun
  | cons action actions ih =>
      have locked := locked_runActions (singleWrite crypto) Log.empty actions
      exact ih.effect (effect_apply (singleWrite crypto) locked action)

/-- The log is accepted after a run exactly when every append of the run has
committed while the hash it had read was still the last one. -/
theorem verifyChain_iff (crypto : Primitives)
    (actions : List (Action Request)) :
    (verifyChain crypto 0 (runAppends crypto actions).database.committed).1 =
        true ↔
      Admitted (Action.apply (program crypto)) (.initial .empty) Current
        actions := by
  rw [verifyChain_zero_iff]
  induction actions with
  | nil => exact iff_of_true trivial admitted_nil
  | cons action actions ih =>
      have locked := locked_runActions (singleWrite crypto) Log.empty actions
      rw [admitted_cons_iff, ← ih]
      exact chained_effect (oneEntryPending_runAppends crypto actions)
        (effect_apply (singleWrite crypto) locked action)

/-- The hash that a call has read and not yet committed an entry after. -/
def Phase.pendingPrev : Phase → Option Text
  | .selected _ prevHash | .inserted _ prevHash => some prevHash
  | _ => none

/-- No append reads the last hash while another one is between its read and its
commit. -/
def Serial : Action Request → World Log Phase → Prop
  | .step index, world =>
      ∀ request, world.calls[index]? = some (.appending request) →
        ∀ other ∈ world.calls, other.pendingPrev = none
  | _, _ => True

/-- At most one call has read a hash, and it is the last one. -/
def Alone (world : World Log Phase) : Prop :=
  ∀ (index : Nat) (phase : Phase) (prevHash : Text),
    world.calls[index]? = some phase → phase.pendingPrev = some prevHash →
    prevHash = world.database.committed.lastHash ∧
      ∀ (other : Nat) (found : Phase), world.calls[other]? = some found →
        found.pendingPrev ≠ none → other = index

section Serialized

variable {crypto : Primitives} {world next : World Log Phase}
  {action : Action Request} {phase after : Phase}

theorem pendingPrev_aborted {prevHash : Text}
    (pending : ((program crypto).aborted phase).pendingPrev = some prevHash) :
    phase.pendingPrev = some prevHash := by
  cases phase <;> cases pending

/-- A call moves on without reading the log. -/
theorem Alone.set (alone : Alone world) {index : Nat}
    (current : world.calls[index]? = some phase)
    (same : ∀ prevHash, after.pendingPrev = some prevHash →
      phase.pendingPrev = some prevHash)
    (writer : Option (Nat × Log)) :
    Alone ⟨⟨world.database.committed, writer⟩, world.calls.set index after⟩ := by
  -- every call that has read a hash had read it before
  have before : ∀ (other : Nat) (found : Phase) (prevHash : Text),
      (world.calls.set index after)[other]? = some found →
      found.pendingPrev = some prevHash →
      ∃ old, world.calls[other]? = some old ∧
        old.pendingPrev = some prevHash := by
    intro other found prevHash foundAt pending
    rcases getElem?_set_cases current foundAt with ⟨rfl, rfl⟩ | ⟨-, older⟩
    · exact ⟨phase, current, same prevHash pending⟩
    · exact ⟨found, older, pending⟩
  intro first found prevHash foundAt pending
  obtain ⟨old, oldAt, oldPending⟩ := before first found prevHash foundAt pending
  obtain ⟨last, only⟩ := alone first old prevHash oldAt oldPending
  refine ⟨last, fun second other otherAt otherPending => ?_⟩
  obtain ⟨otherPrev, otherSome⟩ := Option.ne_none_iff_exists'.mp otherPending
  obtain ⟨older, olderAt, olderPending⟩ :=
    before second other otherPrev otherAt otherSome
  exact only second older olderAt (by simp [olderPending])

theorem Alone.effect (alone : Alone world) (serial : Serial action world)
    (effect : Effect (program crypto) world action next) : Alone next := by
  cases effect with
  | idle => exact alone
  | start request =>
      intro index phase prevHash found pending
      rcases getElem?_append_cases found with ⟨-, rfl⟩ | older
      · cases pending
      · obtain ⟨last, only⟩ := alone index phase prevHash older pending
        refine ⟨last, fun other busy busyAt busyPending => ?_⟩
        rcases getElem?_append_cases busyAt with ⟨-, rfl⟩ | busyOld
        · exact (busyPending rfl).elim
        · exact only other busy busyOld busyPending
  | read index phase following current reads =>
      obtain ⟨request, rfl, rfl⟩ := statement_read reads
      have idle := serial request current
      intro first found prevHash foundAt pending
      rcases getElem?_set_cases current foundAt with ⟨rfl, rfl⟩ | ⟨-, older⟩
      · refine ⟨(Option.some.inj pending).symm, ?_⟩
        intro other busy busyAt busyPending
        rcases getElem?_set_cases current busyAt with ⟨same, -⟩ | ⟨-, busyOld⟩
        · exact same
        · exact (busyPending (idle busy (List.mem_of_getElem? busyOld))).elim
      · rw [idle found (List.mem_of_getElem? older)] at pending
        cases pending
  | write index phase change following current writes free =>
      obtain ⟨request, prevHash, rfl, rfl, rfl⟩ := statement_write writes
      refine alone.set current ?_ _
      exact fun _ pending => pending
  | commit index phase after pending current commits held =>
      obtain ⟨request, prevHash, rfl, rfl⟩ := statement_commit commits
      obtain ⟨-, only⟩ := alone index _ prevHash current rfl
      intro first found foundPrev foundAt foundPending
      rcases getElem?_set_cases current foundAt with ⟨-, rfl⟩ |
        ⟨differ, older⟩
      · cases foundPending
      · exact (differ (only first found older (by simp [foundPending]))).elim
  | rollback index phase after pending current rolls held =>
      exact (statement_ne_rollback rolls).elim
  | abort index phase current unlocked =>
      exact alone.set current (fun _ => pendingPrev_aborted) _
  | abortWrite index phase pending current held =>
      exact alone.set current (fun _ => pendingPrev_aborted) _

theorem Alone.current (alone : Alone world) (action : Action Request) :
    Current action world := by
  cases action with
  | step index =>
      intro phase found
      cases phase with
      | inserted request prevHash => exact (alone index _ prevHash found rfl).1
      | _ => trivial
  | _ => trivial

end Serialized

/-- Appends that do not overlap commit with the last hash. -/
theorem current_of_serial {crypto : Primitives}
    {actions : List (Action Request)}
    (serial : Admitted (Action.apply (program crypto)) (.initial .empty) Serial
      actions) :
    Admitted (Action.apply (program crypto)) (.initial .empty) Current
      actions := by
  intro action earlier moment
  have before := serial.of_suffix
    ((List.suffix_cons action earlier).trans moment)
  have alone : Alone (runAppends crypto earlier) := by
    apply runActions_invariant (singleWrite crypto) before
    · exact nofun
    · exact fun action world next _ allowed effect alone =>
        alone.effect allowed effect
  exact alone.current action

/-- Both appends read the last hash before either inserts its entry. -/
def appendedTogether (request : Request) : List (Action Request) :=
  [.step 1, .step 1, .step 0, .step 0, .step 1, .step 0, .start request,
    .start request]

theorem entries_appendedTogether (crypto : Primitives) (request : Request) :
    (runAppends crypto (appendedTogether request)).database.committed.entries =
      [{ request.entry crypto genesisHash with seq := 1 },
        { request.entry crypto genesisHash with seq := 2 }] :=
  rfl

/-- SHA-256 with signatures left empty. -/
def plainPrimitives : Primitives := ⟨Sha256.sha256, fun _ _ => []⟩

def proxyRequest : Request where
  tableName := "proxy_requests".toList
  operation := "FORWARD".toList
  recordKey := "example:70/".toList
  recordData := "{}".toList
  pid := ['p']
  privateKey := []
  timestamp := "2026-01-01T00:00:00+00:00".toList

theorem entryHash_proxyRequest :
    (proxyRequest.entry plainPrimitives genesisHash).entryHash ≠
      genesisHash := by
  decide +kernel

theorem verifyChain_together :
    ¬ ∀ crypto actions, (verifyChain crypto 0
      (runAppends crypto actions).database.committed).1 = true := by
  intro accepted
  have chained := verifyChain_zero_iff.mp
    (accepted plainPrimitives (appendedTogether proxyRequest))
  rw [entries_appendedTogether] at chained
  obtain ⟨-, -, continues, -⟩ := chained
  exact entryHash_proxyRequest continues.symm

end AuditLog

end RefinetPillars
