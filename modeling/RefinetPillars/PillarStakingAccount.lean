import RefinetPillars.PillarStakingSolvency

/-!
# Accounts and their histories

Seen from one PID, the contract is a small machine: its state is the account of
the PID, its moves are labelled with the events that name the PID, and all
other activity leaves it alone.  This file defines the machine and proves that
every input moves every account by at most one of its steps.
-/

namespace RefinetPillars

namespace PillarStaking

open RunHistory

variable {this : Address}

/-- The PID an event is about. -/
def Event.about : Event → Option Pid
  | .registered pid _ _ _ | .toppedUp pid _ _ | .endpointSet pid _ |
    .unstakeRequested pid _ | .unstakeCancelled pid | .withdrawn pid _ _ |
    .inactiveDay pid _ _ _ => some pid
  | _ => none

/-- The events about a PID, newest first. -/
def World.history (world : World) (pid : Pid) : List Event :=
  world.log.filter fun event => event.about = some pid

/-- The operator of the account made the call. -/
def Account.OperatedBy (account : Account) (msg : Msg this) : Prop :=
  account.pillar.operator ≠ 0 ∧ account.pillar.operator = msg.sender

/-- What a successful call does to the account of a PID, and the event about
the PID that it emits. -/
inductive Account.Step (msg : Msg this) (pid : Pid) (account : Account) :
    Call → Option Event → Account → Prop
  | unaffected {call : Call} : Step msg pid account call none account
  | registered {amount received : Nat} {endpoint : List UInt8}
      (nonzero : pid ≠ 0) (blank : account.pillar = {})
      (fits : endpoint.length ≤ maxEndpointLength)
      (enough : threshold ≤ received) :
      Step msg pid account (.register pid amount endpoint)
        (some (.registered pid msg.sender received endpoint))
        { account with
          pillar :=
            { operator := msg.sender
              staked := received
              registeredAt := uint64 msg.timestamp
              endpoint := endpoint } }
  | toppedUp {amount received : Nat} (operated : account.OperatedBy msg)
      (idle : account.pillar.unstakeRequestedAt = 0) :
      Step msg pid account (.topUp pid amount)
        (some (.toppedUp pid received (account.pillar.staked + received)))
        { account with pillar := account.pillar.toppedUp received }
  | endpointSet {endpoint : List UInt8} (operated : account.OperatedBy msg)
      (fits : endpoint.length ≤ maxEndpointLength) :
      Step msg pid account (.setEndpoint pid endpoint)
        (some (.endpointSet pid endpoint))
        { account with pillar := { account.pillar with endpoint := endpoint } }
  | unstakeRequested (operated : account.OperatedBy msg)
      (idle : account.pillar.unstakeRequestedAt = 0) :
      Step msg pid account (.requestUnstake pid)
        (some (.unstakeRequested pid (msg.timestamp + cooldown)))
        { account with pillar := account.pillar.unstakeRequested msg }
  | unstakeCancelled (operated : account.OperatedBy msg)
      (pending : account.pillar.unstakeRequestedAt ≠ 0) :
      Step msg pid account (.cancelUnstake pid)
        (some (.unstakeCancelled pid))
        { account with pillar := account.pillar.unstakeCancelled msg }
  | withdrawn (operated : account.OperatedBy msg)
      (pending : account.pillar.unstakeRequestedAt ≠ 0)
      (cooled : account.pillar.unstakeRequestedAt + cooldown ≤
        msg.timestamp) :
      Step msg pid account (.withdraw pid)
        (some (.withdrawn pid account.pillar.operator account.pillar.staked))
        { account with pillar := {} }
  | recorded {pids : List Pid} {day : Nat} (member : pid ∈ pids)
      (past : day < msg.today) (recent : msg.today ≤ day + maxBackfillDays)
      (recordable : account.Recordable day) :
      Step msg pid account (.recordInactive pids day)
        (some (.inactiveDay pid day (account.pillar.feeDue day)
          (account.pillar.staked - account.pillar.feeDue day)))
        (account.recordedOn day)

/-- A step that flags a day records it. -/
theorem Account.Step.recorded_of_flag {msg : Msg this} {pid : Pid}
    {call : Call} {event : Option Event} {account after : Account} {day : Nat}
    (step : Account.Step msg pid account call event after)
    (fresh : account.recorded day = false)
    (flagged : after.recorded day = true) :
    account.Recordable day ∧ after = account.recordedOn day ∧
      day < msg.today ∧ msg.today ≤ day + maxBackfillDays := by
  cases step with
  | @recorded pids other member past recent recordable =>
      obtain rfl : other = day := by
        by_contra different
        simp [Account.recordedOn, recordable, Ne.symm different,
          fresh] at flagged
      exact ⟨recordable, rfl, past, recent⟩
  | _ => simp [fresh] at flagged

/-- A standing registration keeps its date. -/
theorem Account.Step.registeredAt {msg : Msg this} {pid : Pid}
    {call : Call} {event : Option Event} {account after : Account}
    (step : Account.Step msg pid account call event after)
    (before : account.pillar.operator ≠ 0)
    (registered : after.pillar.operator ≠ 0) :
    after.pillar.registeredAt = account.pillar.registeredAt := by
  cases step with
  | registered nonzero blank => exact (before (by rw [blank])).elim
  | withdrawn => exact (registered rfl).elim
  | @recorded pids day member past recent recordable =>
      obtain ⟨_, _, frame⟩ := account.recordedOn_frame day
      rw [frame]
  | _ => rfl

/-- A new registration is dated by the block. -/
theorem Account.Step.registrationDay {tx : Tx this} {pid : Pid}
    {event : Option Event} {account after : Account}
    {inputs : List (Input this)}
    (step : Account.Step tx.msg pid account tx.call event after)
    (before : ¬ account.pillar.operator ≠ 0)
    (registered : after.pillar.operator ≠ 0)
    (times : BlockTimes (.transaction tx :: inputs)) :
    after.pillar.registrationDay = tx.msg.timestamp / oneDay := by
  generalize tx.call = call at step
  cases step with
  | registered =>
      simp only [Pillar.registrationDay, times.timestamp]
      exact times.today
  | unaffected => exact (before registered).elim
  | toppedUp operated => exact (before operated.1).elim
  | endpointSet operated => exact (before operated.1).elim
  | unstakeRequested operated => exact (before operated.1).elim
  | unstakeCancelled operated => exact (before operated.1).elim
  | withdrawn operated => exact (before operated.1).elim
  | recorded member past recent recordable =>
      exact (before recordable.1).elim

section Recording

/-- One round of the loop emits a record if it records the day. -/
theorem recorded_history (day : Nat) (world : World) (first pid : Pid) :
    (World.recorded day world first).history pid =
      if pid = first ∧ (world.account pid).Recordable day then
        .inactiveDay pid day ((world.pillars pid).feeDue day)
          ((world.pillars pid).staked - (world.pillars pid).feeDue day) ::
          world.history pid
      else world.history pid := by
  by_cases recordable : world.Recordable day first
  · by_cases same : pid = first
    · subst same
      have accountRecordable : (world.account pid).Recordable day := recordable
      simp [World.recorded, World.history, recordable, accountRecordable,
        Event.about]
    · simp [World.recorded, World.history, recordable, Event.about, same,
        Ne.symm same]
  · have skipped : ¬ (pid = first ∧ (world.account pid).Recordable day) := by
      rintro ⟨rfl, accountRecordable⟩
      exact recordable accountRecordable
    rw [if_neg skipped, World.recorded, if_neg recordable]

/-- The loop emits one record for a recordable PID in its list. -/
theorem recordedAll_history (day : Nat) (world : World) (pids : List Pid)
    (pid : Pid) :
    (World.recordedAll day world pids).history pid =
      if pid ∈ pids ∧ (world.account pid).Recordable day then
        .inactiveDay pid day ((world.pillars pid).feeDue day)
          ((world.pillars pid).staked - (world.pillars pid).feeDue day) ::
          world.history pid
      else world.history pid := by
  induction pids generalizing world with
  | nil => simp [World.recordedAll]
  | cons first pids ih =>
      change (World.recordedAll day (World.recorded day world first)
        pids).history pid = _
      rw [ih, recorded_account, recorded_history]
      by_cases same : pid = first
      · subst same
        by_cases recordable : (world.account pid).Recordable day
        · simp [recordable]
        · simp [recordable, Account.recordedOn]
      · have pillarEq : (World.recorded day world first).pillars pid =
            world.pillars pid := by
          have accountEq := recorded_account day world first pid
          rw [if_neg same] at accountEq
          exact congrArg Account.pillar accountEq
        simp [same, pillarEq]

end Recording

section Simulation

/-- Between two worlds every account makes one step of a call. -/
def AccountsStep (msg : Msg this) (call : Call) (world final : World) : Prop :=
  ∀ pid, ∃ event,
    Account.Step msg pid (world.account pid) call event (final.account pid) ∧
      final.history pid = event.toList ++ world.history pid

variable {msg : Msg this} {call : Call} {world final : World}

/-- A change that concerns no account. -/
theorem AccountsStep.of_same (accounts : final.account = world.account)
    (histories : final.history = world.history) :
    AccountsStep msg call world final := by
  intro pid
  rw [accounts, histories]
  exact ⟨none, .unaffected, rfl⟩

/-- A change that concerns one account and emits an event about it. -/
theorem AccountsStep.of_step (target : Pid) {event : Event}
    (step : Account.Step msg target (world.account target) call (some event)
      (final.account target))
    (others : ∀ pid, pid ≠ target → final.account pid = world.account pid)
    (logEq : final.log = event :: world.log)
    (about : event.about = some target) :
    AccountsStep msg call world final := by
  intro pid
  by_cases same : pid = target
  · subst same
    exact ⟨some event, step, by simp [World.history, logEq, about]⟩
  · rw [others pid same]
    refine ⟨none, .unaffected, ?_⟩
    have elsewhere : event.about ≠ some pid := by
      rw [about]
      exact fun absurdity => same (Option.some.inj absurdity).symm
    simp [World.history, logEq, elsewhere]

theorem account_update {pillars : Pid → Pillar} {recorded : Pid → Nat → Bool}
    {target pid : Pid} {pillar : Pillar} (different : pid ≠ target) :
    (⟨Function.update pillars target pillar pid, recorded pid⟩ : Account) =
      ⟨pillars pid, recorded pid⟩ := by
  rw [Function.update_of_ne different]

/-- A successful transaction moves every account by one of its steps. -/
theorem Tx.Effect.accountsStep {tx : Tx this} (sound : Sound world)
    (effect : tx.Effect world final) :
    AccountsStep tx.msg tx.call world final := by
  obtain ⟨msg, call, token⟩ := tx
  cases call with
  | register pid amount endpoint =>
      obtain ⟨nonzero, absent, fits, _, balances, _, _, enough, _, rfl⟩ :=
        effect
      have blank := sound.unregistered pid absent
      refine .of_step pid ?_ (fun _ different =>
        account_update different) rfl rfl
      have step : Account.Step msg pid (world.account pid)
          (.register pid amount endpoint) _ _ :=
        .registered nonzero blank fits enough
      simpa [Storage.account, World.enrolled, World.rebalanced,
        Pillar.enrolled, blank] using step
  | topUp pid amount =>
      obtain ⟨operated, idle, _, balances, _, _, _, _, rfl⟩ := effect
      refine .of_step pid ?_ (fun _ different =>
        account_update different) rfl rfl
      have step : Account.Step msg pid (world.account pid)
          (.topUp pid amount)
          (some (.toppedUp pid (balances this - world.balanceOf this) _)) _ :=
        .toppedUp operated idle
      simpa [Storage.account, World.toppedUp, World.rebalanced] using step
  | setEndpoint pid endpoint =>
      obtain ⟨operated, fits, rfl⟩ := effect
      refine .of_step pid ?_ (fun _ different =>
        account_update different) rfl rfl
      have step : Account.Step msg pid (world.account pid)
          (.setEndpoint pid endpoint) _ _ :=
        .endpointSet operated fits
      simpa [Storage.account, World.emitted, World.setPillar] using step
  | requestUnstake pid =>
      obtain ⟨operated, idle, rfl⟩ := effect
      refine .of_step pid ?_ (fun _ different =>
        account_update different) rfl rfl
      have step : Account.Step msg pid (world.account pid)
          (.requestUnstake pid) _ _ :=
        .unstakeRequested operated idle
      simpa [Storage.account, World.emitted, World.setPillar] using step
  | cancelUnstake pid =>
      obtain ⟨operated, pending, rfl⟩ := effect
      refine .of_step pid ?_ (fun _ different =>
        account_update different) rfl rfl
      have step : Account.Step msg pid (world.account pid)
          (.cancelUnstake pid) _ _ :=
        .unstakeCancelled operated pending
      simpa [Storage.account, World.emitted, World.setPillar] using step
  | withdraw pid =>
      obtain ⟨operated, pending, cooled, _, _, _, balances, _, rfl⟩ := effect
      refine .of_step pid ?_ (fun _ different =>
        account_update different) rfl rfl
      have step : Account.Step msg pid (world.account pid)
          (.withdraw pid) _ _ :=
        .withdrawn operated pending cooled
      simpa [Storage.account, World.emitted, World.rebalanced,
        World.released] using step
  | recordInactive pids day =>
      obtain ⟨_, past, recent, _, _, _, rfl⟩ := effect
      intro pid
      have accountEq := recordedAll_account day world pids pid
      have historyEq := recordedAll_history day world pids pid
      change ∃ event, Account.Step msg pid (world.account pid)
        (.recordInactive pids day) event
          ((World.recordedAll day world pids).account pid) ∧
        (World.recordedAll day world pids).history pid = _
      rw [accountEq, historyEq]
      by_cases recorded : pid ∈ pids ∧ (world.account pid).Recordable day
      · rw [if_pos recorded.1, if_pos recorded]
        exact ⟨_, .recorded recorded.1 past recent recorded.2, rfl⟩
      · have unchanged :
            (if pid ∈ pids then (world.account pid).recordedOn day
              else world.account pid) = world.account pid := by
          split
          · rename_i member
            exact Account.recordedOn_of_not_recordable
              fun recordable => recorded ⟨member, recordable⟩
          · rfl
        rw [unchanged, if_neg recorded]
        exact ⟨none, .unaffected, rfl⟩
  | sweepFees =>
      obtain ⟨_, balances, _, rfl⟩ := effect
      exact .of_same rfl rfl
  | sweepExcess =>
      obtain ⟨_, balances, _, rfl⟩ := effect
      exact .of_same rfl rfl
  | setFeeRecipient feeRecipient =>
      obtain ⟨_, _, _, rfl⟩ := effect
      exact .of_same rfl rfl
  | grantRole role account =>
      obtain ⟨_, rfl⟩ := effect
      exact .of_same rfl rfl
  | revokeRole role account =>
      obtain ⟨_, rfl⟩ := effect
      exact .of_same rfl rfl
  | renounceRole role confirmation =>
      obtain ⟨_, rfl⟩ := effect
      exact .of_same rfl rfl

/-- The simulation: an input either leaves an account and its history alone, or
is a transaction that moves it by one step. -/
theorem account_apply (input : Input this) (sound : Sound world) (pid : Pid) :
    ((input.apply world).account pid = world.account pid ∧
        (input.apply world).history pid = world.history pid) ∨
      ∃ tx event, input = .transaction tx ∧ tx.Effect world (input.apply world) ∧
        Account.Step tx.msg pid (world.account pid) tx.call event
          ((input.apply world).account pid) ∧
        (input.apply world).history pid =
          event.toList ++ world.history pid := by
  cases input with
  | tokenTransfer timestamp amount others =>
      left
      simp only [Input.apply]
      split <;> exact ⟨rfl, rfl⟩
  | transaction tx =>
      rcases apply_transaction_cases tx world with effected | unchanged
      · obtain ⟨event, step, historyEq⟩ := effected.accountsStep sound pid
        exact Or.inr ⟨tx, event, rfl, effected, step, historyEq⟩
      · rw [unchanged]
        exact Or.inl ⟨rfl, rfl⟩

end Simulation

section Runs

variable {token admin feeRecipient : Address} {balanceOf : Balances}
  {start : World}

/-- A fresh deployment knows no PID. -/
theorem account_deploy
    (deployed : deploy this token admin feeRecipient balanceOf = .ok start)
    (pid : Pid) : start.account pid = {} ∧ start.history pid = [] := by
  unfold deploy at deployed
  split at deployed
  · cases deployed
  · obtain rfl := Except.ok.inj deployed
    exact ⟨rfl, rfl⟩

/-- Induction over a run as one PID sees it. -/
theorem account_induction
    (deployed : deploy this token admin feeRecipient balanceOf = .ok start)
    (pid : Pid) {motive : Account → List Event → Prop}
    (initially : motive {} [])
    (step : ∀ (msg : Msg this) (call : Call) (event : Option Event)
      (account after : Account) (history : List Event),
      motive account history → Account.Step msg pid account call event after →
        motive after (event.toList ++ history))
    (inputs : List (Input this)) :
    motive ((runInputs start inputs).account pid)
      ((runInputs start inputs).history pid) := by
  induction inputs with
  | nil =>
      obtain ⟨accountEq, historyEq⟩ := account_deploy deployed pid
      rw [runInputs, run_nil, accountEq, historyEq]
      exact initially
  | cons input inputs ih =>
      rcases account_apply input (sound_runInputs deployed inputs) pid with
        ⟨accountEq, historyEq⟩ |
          ⟨tx, event, rfl, _, stepped, historyEq⟩
      · rw [runInputs, run_cons, accountEq, historyEq]
        exact ih
      · rw [runInputs, run_cons, historyEq]
        exact step _ _ _ _ _ _ ih stepped

end Runs

end PillarStaking

end RefinetPillars
