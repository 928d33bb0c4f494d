import RefinetPillars.PillarStakingAccount

/-!
# Fee accounting per registration

The history of a PID since its newest registration accounts for its stake:
deposits minus fees, with every day recorded at most once.
-/

namespace RefinetPillars

namespace PillarStaking

open RunHistory

variable {this : Address}

/-- What an event deposits. -/
def Event.deposited : Event → Nat
  | .registered _ _ amount _ => amount
  | .toppedUp _ amount _ => amount
  | _ => 0

/-- Whether an event records the day. -/
def Event.recordsDay (day : Nat) : Event → Bool
  | .inactiveDay _ other _ _ => decide (other = day)
  | _ => false

/-- The part of a PID's history from its newest registration on. -/
def sinceRegistration : List Event → List Event
  | [] => []
  | .registered pid operator amount endpoint :: _ =>
      [.registered pid operator amount endpoint]
  | event :: earlier => event :: sinceRegistration earlier

/-- The account of a registered PID agrees with its history. -/
structure Accounted (account : Account) (events : List Event) : Prop where
  balance : account.pillar.staked + (events.map Event.feeCharged).sum =
    (events.map Event.deposited).sum
  once : ∀ day, events.countP (·.recordsDay day) ≤ 1
  fresh : ∀ day, account.recorded day = false →
    events.countP (·.recordsDay day) = 0
  charges : ∀ pid day fee staked, .inactiveDay pid day fee staked ∈ events →
    fee ≤ feePerDay ∧ account.pillar.registrationDay < day

/-- An event that neither deposits nor records keeps the accounts in order. -/
theorem Accounted.cons {account after : Account} {event : Event}
    {events : List Event} (accounted : Accounted account events)
    (sameStake : after.pillar.staked + event.feeCharged =
      account.pillar.staked + event.deposited)
    (sameRegistration : after.pillar.registrationDay =
      account.pillar.registrationDay)
    (sameRecords : after.recorded = account.recorded)
    (noRecord : ∀ pid day fee staked,
      event ≠ .inactiveDay pid day fee staked) :
    Accounted after (event :: events) := by
  have noDay : ∀ day, event.recordsDay day = false := by
    intro day
    cases event with
    | inactiveDay pid other fee staked => exact (noRecord _ _ _ _ rfl).elim
    | _ => rfl
  constructor
  case balance =>
    have before := accounted.balance
    simp only [List.map_cons, List.sum_cons]
    omega
  case once =>
    intro day
    rw [List.countP_cons_of_neg (by simp [noDay])]
    exact accounted.once day
  case fresh =>
    intro day unrecorded
    rw [List.countP_cons_of_neg (by simp [noDay])]
    rw [sameRecords] at unrecorded
    exact accounted.fresh day unrecorded
  case charges =>
    intro pid day fee staked member
    rw [sameRegistration]
    rcases List.mem_cons.mp member with newest | earlier
    · exact (noRecord _ _ _ _ newest.symm).elim
    · exact accounted.charges pid day fee staked earlier

/-- Recording a day charges at most the daily fee, for a day after the
registration that was not recorded before. -/
theorem Accounted.recorded {account : Account} {pid : Pid} {day : Nat}
    {events : List Event} (accounted : Accounted account events)
    (recordable : account.Recordable day) :
    Accounted (account.recordedOn day)
      (.inactiveDay pid day (account.pillar.feeDue day)
        (account.pillar.staked - account.pillar.feeDue day) :: events) := by
  have recordedEq : account.recordedOn day =
      ⟨account.pillar.recorded day,
        Function.update account.recorded day true⟩ :=
    Account.recordedOn_of_recordable recordable
  constructor
  case balance =>
    have before := accounted.balance
    have charged := account.pillar.recorded_staked day
    simp only [recordedEq, List.map_cons, List.sum_cons, Event.feeCharged,
      Event.deposited]
    omega
  case once =>
    intro other
    by_cases same : other = day
    · subst same
      have none := accounted.fresh other recordable.2.2
      rw [List.countP_cons_of_pos (by simp [Event.recordsDay]), none]
    · rw [List.countP_cons_of_neg (by simp [Event.recordsDay, Ne.symm same])]
      exact accounted.once other
  case fresh =>
    intro other unrecorded
    have different : other ≠ day := by
      rintro rfl
      simp [recordedEq] at unrecorded
    rw [List.countP_cons_of_neg
      (by simp [Event.recordsDay, Ne.symm different])]
    apply accounted.fresh other
    simpa [recordedEq, different] using unrecorded
  case charges =>
    intro other charged fee staked member
    rw [Account.recordedOn_registrationDay]
    rcases List.mem_cons.mp member with newest | earlier
    · cases newest
      exact ⟨account.pillar.feeDue_le_feePerDay day, recordable.2.1⟩
    · exact accounted.charges other charged fee staked earlier

/-- Every step of a registered account is accounted for. -/
theorem Accounted.step {msg : Msg this} {pid : Pid} {call : Call}
    {event : Option Event} {account after : Account} {history : List Event}
    (accounted : account.pillar.operator ≠ 0 →
      Accounted account (sinceRegistration history))
    (step : Account.Step msg pid account call event after)
    (registered : after.pillar.operator ≠ 0) :
    Accounted after (sinceRegistration (event.toList ++ history)) := by
  cases step with
  | unaffected => exact accounted registered
  | registered nonzero blank fits enough =>
      simp only [Option.toList_some, List.cons_append, List.nil_append,
        sinceRegistration]
      constructor
      case balance => simp [Event.feeCharged, Event.deposited]
      case once => simp [Event.recordsDay]
      case fresh => simp [Event.recordsDay]
      case charges => simp
  | toppedUp operated idle =>
      exact (accounted operated.1).cons rfl rfl rfl (by simp)
  | endpointSet operated fits =>
      exact (accounted operated.1).cons rfl rfl rfl (by simp)
  | unstakeRequested operated idle =>
      exact (accounted operated.1).cons rfl rfl rfl (by simp)
  | unstakeCancelled operated pending =>
      exact (accounted operated.1).cons rfl rfl rfl (by simp)
  | withdrawn operated pending cooled => exact (registered rfl).elim
  | recorded member past recent recordable =>
      exact (accounted recordable.1).recorded recordable

/-- In the whole history of a PID no day is recorded twice, whatever the
registrations. -/
theorem recorded_once {token admin feeRecipient : Address}
    {balanceOf : Balances} {start : World}
    (deployed : deploy this token admin feeRecipient balanceOf = .ok start)
    (inputs : List (Input this)) (pid : Pid) (day : Nat) :
    ((runInputs start inputs).history pid).countP (·.recordsDay day) ≤ 1 := by
  have flagged : ((runInputs start inputs).history pid).countP
      (·.recordsDay day) =
        if ((runInputs start inputs).account pid).recorded day then 1 else 0 := by
    refine account_induction deployed pid
      (motive := fun account history => history.countP (·.recordsDay day) =
        if account.recorded day then 1 else 0) ?_ ?_ inputs
    · rfl
    · intro msg call event account after history counted step
      cases step with
      | @recorded pids other member past recent recordable =>
          rw [Account.recordedOn_of_recordable recordable, Option.toList_some,
            List.singleton_append]
          by_cases same : other = day
          · subst same
            rw [List.countP_cons_of_pos (by simp [Event.recordsDay]), counted,
              recordable.2.2]
            simp
          · rw [List.countP_cons_of_neg (by simp [Event.recordsDay, same]),
              counted]
            simp only [Function.update_of_ne (Ne.symm same)]
      | _ => simpa [Event.recordsDay] using counted
  rw [flagged]
  split <;> decide

/-- Fee accounting.  In every reachable state the stake of a registered PID is
what it deposited since its registration minus the fees charged since then;
every day was recorded at most once since then, at a fee of at most one REFI
and only if it is later than the registration day; and the stake is not below
the floor. -/
theorem fee_accounting {token admin feeRecipient : Address}
    {balanceOf : Balances} {start : World} {inputs : List (Input this)}
    {pid : Pid}
    (deployed : deploy this token admin feeRecipient balanceOf = .ok start)
    (registered : (runInputs start inputs).Registered pid) :
    let world := runInputs start inputs
    let events := sinceRegistration (world.history pid)
    (world.pillars pid).staked + (events.map Event.feeCharged).sum =
        (events.map Event.deposited).sum ∧
      (∀ day, events.countP (·.recordsDay day) ≤ 1) ∧
      (∀ day fee staked, .inactiveDay pid day fee staked ∈ events →
        fee ≤ feePerDay ∧ (world.pillars pid).registrationDay < day) ∧
      feeFloor ≤ (world.pillars pid).staked := by
  intro world events
  have accounted : Accounted (world.account pid) events := by
    refine account_induction deployed pid
      (motive := fun account history => account.pillar.operator ≠ 0 →
        Accounted account (sinceRegistration history)) ?_ ?_ inputs registered
    · exact fun absurdity => (absurdity rfl).elim
    · intro msg call event account after history accounted step
      exact Accounted.step accounted step
  exact ⟨accounted.balance, accounted.once,
    fun day fee staked => accounted.charges pid day fee staked,
    (sound_runInputs deployed inputs).floor pid registered⟩

/-- One fee has been charged since the registration. -/
theorem fee_accounting_charged :
    let events := sinceRegistration ((runInputs fundedWorld
      chargedRun).history 7)
    (events.map Event.feeCharged).sum = ether ∧
      ((runInputs fundedWorld chargedRun).pillars 7).staked +
          (events.map Event.feeCharged).sum =
        (events.map Event.deposited).sum := by
  have registered : (runInputs fundedWorld chargedRun).Registered 7 := by
    decide +kernel
  exact ⟨by decide +kernel, (fee_accounting deploy_fundedWorld registered).1⟩

end PillarStaking

end RefinetPillars
