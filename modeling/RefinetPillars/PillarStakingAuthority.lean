import RefinetPillars.NewestWrite
import RefinetPillars.PillarStakingFees

/-!
# Authority over Pillars and roles

A Pillar changes only at the word of its operator, apart from the inactive days
that the oracle records for it.  Roles change only at the word of an admin, or
of the holder who renounces.
-/

namespace RefinetPillars

namespace PillarStaking

open RunHistory NewestWrite

variable {this : Address}

/-- The PID whose Pillar a call manages on behalf of the operator. -/
def Call.manages : Call → Option Pid
  | .topUp pid _ | .setEndpoint pid _ | .requestUnstake pid |
    .cancelUnstake pid | .withdraw pid => some pid
  | _ => none

section Pillars

/-- Nothing happened to an account but records of inactive days, one for each
day that is newly flagged, and their fees. -/
structure OnlyRecorded (pid : Pid) (before after : Account)
    (events : List Event) : Prop where
  frame : after.pillar =
    { before.pillar with
      staked := after.pillar.staked
      lastInactiveDay := after.pillar.lastInactiveDay }
  balance : after.pillar.staked + (events.map Event.feeCharged).sum =
    before.pillar.staked
  records : ∀ event ∈ events, ∃ day fee staked,
    event = .inactiveDay pid day fee staked ∧ fee ≤ feePerDay
  flags : ∀ day, events.countP (·.recordsDay day) +
      (if before.recorded day then 1 else 0) =
    if after.recorded day then 1 else 0

namespace OnlyRecorded

variable {pid : Pid} {before account after : Account} {events : List Event}

theorem refl (account : Account) : OnlyRecorded pid account account [] where
  frame := rfl
  balance := rfl
  records := by simp
  flags := by simp

theorem operator_eq (only : OnlyRecorded pid before after events) :
    after.pillar.operator = before.pillar.operator := by
  rw [only.frame]

/-- One more day is recorded. -/
theorem record {day : Nat} (only : OnlyRecorded pid before account events)
    (recordable : account.Recordable day) :
    OnlyRecorded pid before (account.recordedOn day)
      (.inactiveDay pid day (account.pillar.feeDue day)
        (account.pillar.staked - account.pillar.feeDue day) :: events) := by
  have recordedEq : account.recordedOn day =
      ⟨account.pillar.recorded day,
        Function.update account.recorded day true⟩ :=
    Account.recordedOn_of_recordable recordable
  constructor
  case frame =>
    obtain ⟨_, _, frame⟩ := account.recordedOn_frame day
    rw [frame, only.frame]
  case balance =>
    have earlier := only.balance
    have charged := account.pillar.recorded_staked day
    simp only [recordedEq, List.map_cons, List.sum_cons, Event.feeCharged]
    omega
  case records =>
    intro event member
    rcases List.mem_cons.mp member with rfl | earlier
    · exact ⟨_, _, _, rfl, account.pillar.feeDue_le_feePerDay day⟩
    · exact only.records event earlier
  case flags =>
    intro other
    have earlier := only.flags other
    by_cases same : other = day
    · subst same
      simp only [recordable.2.2, Bool.false_eq_true, if_false] at earlier
      simp only [recordedEq, Function.update_self, if_true]
      rw [List.countP_cons_of_pos (by simp [Event.recordsDay])]
      omega
    · simp only [recordedEq, Function.update_of_ne same]
      rw [List.countP_cons_of_neg (by simp [Event.recordsDay, Ne.symm same])]
      exact earlier

/-- A step that its operator does not take leaves an account alone, except for
the recording of a day. -/
theorem step {msg : Msg this} {call : Call} {event : Option Event}
    (only : OnlyRecorded pid before account events)
    (registered : before.pillar.operator ≠ 0)
    (silent : msg.sender = before.pillar.operator → call.manages ≠ some pid)
    (step : Account.Step msg pid account call event after) :
    OnlyRecorded pid before after (event.toList ++ events) := by
  have unmanaged : account.OperatedBy msg → call.manages ≠ some pid :=
    fun operated => silent (operated.2.symm.trans only.operator_eq)
  cases step with
  | unaffected => exact only
  | registered nonzero blank =>
      apply (registered _).elim
      rw [← only.operator_eq, blank]
  | toppedUp operated => exact (unmanaged operated rfl).elim
  | endpointSet operated => exact (unmanaged operated rfl).elim
  | unstakeRequested operated => exact (unmanaged operated rfl).elim
  | unstakeCancelled operated => exact (unmanaged operated rfl).elim
  | withdrawn operated => exact (unmanaged operated rfl).elim
  | recorded member past recent recordable => exact only.record recordable

end OnlyRecorded

/-- Unless its operator makes the call, only a recording emits an event about
a registered PID. -/
theorem Account.Step.recordInactive_of_unmanaged {msg : Msg this} {pid : Pid}
    {call : Call} {event : Event} {account after : Account}
    (step : Account.Step msg pid account call (some event) after)
    (registered : account.pillar.operator ≠ 0)
    (unmanaged : account.OperatedBy msg → call.manages ≠ some pid) :
    ∃ pids day, call = .recordInactive pids day ∧ pid ∈ pids ∧
      event.recordsDay day = true := by
  cases step with
  | registered nonzero blank => exact (registered (by rw [blank])).elim
  | toppedUp operated => exact (unmanaged operated rfl).elim
  | endpointSet operated => exact (unmanaged operated rfl).elim
  | unstakeRequested operated => exact (unmanaged operated rfl).elim
  | unstakeCancelled operated => exact (unmanaged operated rfl).elim
  | withdrawn operated => exact (unmanaged operated rfl).elim
  | recorded member past recent recordable =>
      exact ⟨_, _, rfl, member, by simp [Event.recordsDay]⟩

/-- The operator makes no call that manages the PID. -/
def Silent (operator : Address) (pid : Pid) (inputs : List (Input this)) :
    Prop :=
  ∀ tx, .transaction tx ∈ inputs → tx.msg.sender = operator →
    tx.call.manages ≠ some pid

/-- The event records a day that an oracle listed for the PID after the
earlier moment. -/
def RecordedByOracle (start : World) (later earlier : List (Input this))
    (pid : Pid) (event : Event) : Prop :=
  ∃ tx moment pids day, .transaction tx :: moment <:+ later ∧
    (runInputs start (moment ++ earlier)).hasRole .oracle tx.msg.sender =
      true ∧
    tx.call = .recordInactive pids day ∧ pid ∈ pids ∧
    event.recordsDay day = true

theorem RecordedByOracle.cons {start : World} {input : Input this}
    {later earlier : List (Input this)} {pid : Pid} {event : Event}
    (recorded : RecordedByOracle start later earlier pid event) :
    RecordedByOracle start (input :: later) earlier pid event := by
  obtain ⟨tx, moment, pids, day, suffix, rest⟩ := recorded
  exact ⟨tx, moment, pids, day, suffix.trans (List.suffix_cons input later),
    rest⟩

/-- The authority of an operator.  While the operator of a registered PID makes
no call that manages it, the calls of everybody else leave its Pillar alone:
all that happens is that oracles record days, each of them once, at a fee of at
most one REFI for a day, which never takes the stake below the floor. -/
theorem pillar_kept {token admin feeRecipient : Address}
    {balanceOf : Balances} {start : World} {later earlier : List (Input this)}
    {pid : Pid}
    (deployed : deploy this token admin feeRecipient balanceOf = .ok start)
    (registered : (runInputs start earlier).Registered pid)
    (silent : Silent (operatorOf (runInputs start earlier).toStorage pid) pid
      later) :
    let before := runInputs start earlier
    let after := runInputs start (later ++ earlier)
    ∃ events, after.history pid = events ++ before.history pid ∧
      OnlyRecorded pid (before.account pid) (after.account pid) events ∧
      (∀ event ∈ events, RecordedByOracle start later earlier pid event) ∧
      feeFloor ≤ (after.pillars pid).staked := by
  intro before after
  suffices kept : ∃ events, after.history pid = events ++ before.history pid ∧
      OnlyRecorded pid (before.account pid) (after.account pid) events ∧
      ∀ event ∈ events, RecordedByOracle start later earlier pid event by
    obtain ⟨events, historyEq, only, recorded⟩ := kept
    refine ⟨events, historyEq, only, recorded, ?_⟩
    apply (sound_runInputs deployed (later ++ earlier)).floor
    change (after.account pid).pillar.operator ≠ 0
    rw [only.operator_eq]
    exact registered
  induction later with
  | nil => exact ⟨[], rfl, .refl _, by simp⟩
  | cons input later ih =>
      obtain ⟨events, historyEq, only, recorded⟩ :=
        ih fun tx member => silent tx (by simp [member])
      rcases account_apply input
        (sound_runInputs deployed (later ++ earlier)) pid with
        ⟨accountEq, historySame⟩ |
          ⟨tx, event, rfl, effect, step, historyNext⟩
      · refine ⟨events, ?_, ?_, fun event member => (recorded event member).cons⟩
        · exact historySame.trans historyEq
        · rw [show after.account pid = _ from accountEq]
          exact only
      · have unmanaged := silent tx (by simp)
        refine ⟨event.toList ++ events, ?_, only.step registered unmanaged step,
          ?_⟩
        · rw [List.append_assoc, ← historyEq]
          exact historyNext
        · intro member isMember
          rcases List.mem_append.mp isMember with newest | older
          · obtain rfl := Option.mem_toList.mp newest
            have standing :
                ((runInputs start (later ++ earlier)).account
                  pid).pillar.operator ≠ 0 := by
              rw [only.operator_eq]
              exact registered
            obtain ⟨pids, day, callEq, listed, records⟩ :=
              step.recordInactive_of_unmanaged standing fun operated =>
                unmanaged (operated.2.symm.trans only.operator_eq)
            refine ⟨tx, later, pids, day, List.suffix_refl _, ?_, callEq,
              listed, records⟩
            rw [Tx.Effect, callEq] at effect
            exact effect.1
          · exact (recorded member older).cons

/-- While the operator of `chargedRun` is silent, the oracle records one day
and charges one REFI. -/
theorem pillar_kept_charged :
    let registered := chargedRun.drop 2
    ∃ events, (runInputs fundedWorld chargedRun).history 7 =
        events ++ (runInputs fundedWorld registered).history 7 ∧
      OnlyRecorded 7 ((runInputs fundedWorld registered).account 7)
        ((runInputs fundedWorld chargedRun).account 7) events ∧
      (∀ event ∈ events, RecordedByOracle fundedWorld (chargedRun.take 2)
        registered 7 event) ∧
      feeFloor ≤ ((runInputs fundedWorld chargedRun).pillars 7).staked := by
  intro registered
  have silent : Silent (operatorOf (runInputs fundedWorld registered).toStorage 7)
      7 (chargedRun.take 2) := by
    intro tx member sender
    simp [chargedRun, Msg.sends] at member
    rcases member with rfl | rfl <;> simp [Call.manages]
  exact @pillar_kept _ _ _ _ _ _ (chargedRun.take 2) _ _ deploy_fundedWorld
    (by decide +kernel) silent

end Pillars

section Roles

/-- A transaction that sets a role of an account, in the world it meets. -/
inductive SetsRole (role : Role) (account : Address) :
    Input this → World → Bool → Prop
  | granted {tx : Tx this} {world : World}
      (call : tx.call = .grantRole role account)
      (admin : world.hasRole .defaultAdmin tx.msg.sender = true) :
      SetsRole role account (.transaction tx) world true
  | revoked {tx : Tx this} {world : World}
      (call : tx.call = .revokeRole role account)
      (admin : world.hasRole .defaultAdmin tx.msg.sender = true) :
      SetsRole role account (.transaction tx) world false
  | renounced {tx : Tx this} {world : World}
      (call : tx.call = .renounceRole role account)
      (own : tx.msg.sender = account) :
      SetsRole role account (.transaction tx) world false

/-- A transaction that sets the fee recipient, in the world it meets. -/
inductive SetsFeeRecipient : Input this → World → Address → Prop
  | set {tx : Tx this} {world : World} {feeRecipient : Address}
      (call : tx.call = .setFeeRecipient feeRecipient)
      (admin : world.hasRole .defaultAdmin tx.msg.sender = true)
      (nonzero : feeRecipient ≠ 0) (foreign : feeRecipient ≠ this) :
      SetsFeeRecipient (.transaction tx) world feeRecipient

variable {role : Role} {account : Address} {tx : Tx this}
  {world final : World}

/-- What a successful transaction does to the roles and the fee recipient. -/
theorem Tx.Effect.authority (effect : tx.Effect world final) :
    (final.hasRole = world.hasRole ∧
        final.feeRecipient = world.feeRecipient) ∨
      (∃ role account granted,
        SetsRole role account (.transaction tx) world granted ∧
        final = world.roleSet role account granted) ∨
      (SetsFeeRecipient (.transaction tx) world final.feeRecipient ∧
        final.hasRole = world.hasRole) := by
  obtain ⟨msg, call, token⟩ := tx
  cases call with
  | register pid amount endpoint =>
      obtain ⟨_, _, _, _, _, _, _, _, _, rfl⟩ := effect
      exact Or.inl ⟨rfl, rfl⟩
  | topUp pid amount =>
      obtain ⟨_, _, _, _, _, _, _, _, rfl⟩ := effect
      exact Or.inl ⟨rfl, rfl⟩
  | setEndpoint pid endpoint =>
      obtain ⟨_, _, rfl⟩ := effect
      exact Or.inl ⟨rfl, rfl⟩
  | requestUnstake pid =>
      obtain ⟨_, _, rfl⟩ := effect
      exact Or.inl ⟨rfl, rfl⟩
  | cancelUnstake pid =>
      obtain ⟨_, _, rfl⟩ := effect
      exact Or.inl ⟨rfl, rfl⟩
  | withdraw pid =>
      obtain ⟨_, _, _, _, _, _, _, _, rfl⟩ := effect
      exact Or.inl ⟨rfl, rfl⟩
  | recordInactive pids day =>
      obtain ⟨_, _, _, _, _, _, rfl⟩ := effect
      obtain ⟨_, _, _, frame⟩ := recordedAll_frame day world pids
      rw [World.recordedInactive, frame]
      exact Or.inl ⟨rfl, rfl⟩
  | sweepFees =>
      obtain ⟨_, _, _, rfl⟩ := effect
      exact Or.inl ⟨rfl, rfl⟩
  | sweepExcess =>
      obtain ⟨_, _, _, rfl⟩ := effect
      exact Or.inl ⟨rfl, rfl⟩
  | setFeeRecipient feeRecipient =>
      obtain ⟨isAdmin, nonzero, foreign, rfl⟩ := effect
      exact Or.inr (Or.inr ⟨.set rfl isAdmin nonzero foreign, rfl⟩)
  | grantRole role account =>
      obtain ⟨isAdmin, rfl⟩ := effect
      exact Or.inr (Or.inl ⟨role, account, true, .granted rfl isAdmin, rfl⟩)
  | revokeRole role account =>
      obtain ⟨isAdmin, rfl⟩ := effect
      exact Or.inr (Or.inl ⟨role, account, false, .revoked rfl isAdmin, rfl⟩)
  | renounceRole role confirmation =>
      obtain ⟨own, rfl⟩ := effect
      exact Or.inr (Or.inl ⟨role, msg.sender, false,
        .renounced (congrArg (Call.renounceRole role) own) rfl, rfl⟩)

theorem roleSet_hasRole (world : World) (role other : Role)
    (account holder : Address) (granted : Bool) :
    (world.roleSet other holder granted).hasRole role account =
      if role = other ∧ account = holder then granted
      else world.hasRole role account := by
  by_cases sameRole : role = other
  · subst sameRole
    by_cases sameAccount : account = holder
    · simp [World.roleSet, sameAccount]
    · simp [World.roleSet, sameAccount]
  · simp [World.roleSet, sameRole]

/-- The role of an account is set by what sets it, and by nothing else. -/
theorem role_register (this : Address) (role : Role) (account : Address) :
    Register (Input.apply : Input this → World → World)
      (fun world => world.hasRole role account) (SetsRole role account) where
  written {input world granted} sets := by
    have effected : ∃ tx, input = .transaction tx ∧
        tx.Effect world (world.roleSet role account granted) := by
      cases sets with
      | granted call isAdmin =>
          refine ⟨_, rfl, ?_⟩
          rw [Tx.Effect, call]
          exact ⟨isAdmin, rfl⟩
      | revoked call isAdmin =>
          refine ⟨_, rfl, ?_⟩
          rw [Tx.Effect, call]
          exact ⟨isAdmin, rfl⟩
      | renounced call own =>
          refine ⟨_, rfl, ?_⟩
          rw [Tx.Effect, call]
          exact ⟨own.symm, by rw [own]⟩
    obtain ⟨tx, rfl, effect⟩ := effected
    rw [apply_of_effect effect, roleSet_hasRole, if_pos ⟨rfl, rfl⟩]
  kept {input world} silent := by
    cases input with
    | tokenTransfer timestamp amount others =>
        simp only [Input.apply]
        split <;> rfl
    | transaction tx =>
        rcases apply_transaction_cases tx world with effect | unchanged
        · rcases effect.authority with ⟨roles, _⟩ |
            ⟨other, holder, granted, sets, finalEq⟩ | ⟨_, roles⟩
          · rw [roles]
          · rw [finalEq, roleSet_hasRole, if_neg]
            rintro ⟨rfl, rfl⟩
            exact silent granted sets
          · rw [roles]
        · rw [unchanged]

theorem feeRecipient_register (this : Address) :
    Register (Input.apply : Input this → World → World) (fun world => world.feeRecipient)
      SetsFeeRecipient where
  written {input world feeRecipient} sets := by
    obtain @⟨tx, _, _, call, isAdmin, nonzero, foreign⟩ := sets
    have effect : tx.Effect world
        { world with
          feeRecipient := feeRecipient
          log := .feeRecipientSet feeRecipient :: world.log } := by
      rw [Tx.Effect, call]
      exact ⟨isAdmin, nonzero, foreign, rfl⟩
    rw [apply_of_effect effect]
  kept {input world} silent := by
    cases input with
    | tokenTransfer timestamp amount others =>
        simp only [Input.apply]
        split <;> rfl
    | transaction tx =>
        rcases apply_transaction_cases tx world with effect | unchanged
        · rcases effect.authority with ⟨_, recipient⟩ |
            ⟨other, holder, granted, _, finalEq⟩ | ⟨sets, _⟩
          · exact recipient
          · rw [finalEq, World.roleSet]
          · exact (silent _ sets).elim
        · rw [unchanged]

end Roles

end PillarStaking

end RefinetPillars
