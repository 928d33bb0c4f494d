import RefinetPillars.PillarStakingRecording

/-!
# Effects of the entry points

Each entry point either reverts or has one effect on the world.  This file
names the effects and proves, for every call, exactly when a transaction
succeeds and what it leaves behind.  Everything else about plain transactions
is derived from this characterization.
-/

namespace RefinetPillars

namespace PillarStaking

open ReentrantCode

variable {this : Address}

section Updates

variable (world : World)

/-- The token has moved balances. -/
def World.rebalanced (balances : Balances) : World :=
  { world with balanceOf := balances }

def World.emitted (event : Event) : World :=
  { world with log := event :: world.log }

def World.setPillar (pid : Pid) (pillar : Pillar) : World :=
  { world with pillars := Function.update world.pillars pid pillar }

/-- The record of a new registration.  The remaining fields keep what the slot
held, which is nothing for an unregistered PID. -/
def Pillar.enrolled (pillar : Pillar) (msg : Msg this) (received : Nat)
    (endpoint : List UInt8) : Pillar :=
  { pillar with
    operator := msg.sender
    staked := received
    registeredAt := uint64 msg.timestamp
    endpoint := endpoint }

def World.enrolled (msg : Msg this) (pid : Pid) (received : Nat)
    (endpoint : List UInt8) : World :=
  { world with
    pillars :=
      Function.update world.pillars pid
        ((world.pillars pid).enrolled msg received endpoint)
    totalStaked := world.totalStaked + received
    pids := world.pids ++ [pid]
    pidIndexPlusOne :=
      Function.update world.pidIndexPlusOne pid (world.pids.length + 1)
    log := .registered pid msg.sender received endpoint :: world.log }

def Pillar.toppedUp (pillar : Pillar) (received : Nat) : Pillar :=
  { pillar with staked := pillar.staked + received }

def World.toppedUp (pid : Pid) (received : Nat) : World :=
  { world with
    pillars :=
      Function.update world.pillars pid ((world.pillars pid).toppedUp received)
    totalStaked := world.totalStaked + received
    log := .toppedUp pid received ((world.pillars pid).staked + received) ::
      world.log }

def Pillar.unstakeRequested (pillar : Pillar) (msg : Msg this) : Pillar :=
  { pillar with
    unstakeRequestedAt := uint64 msg.timestamp
    unstakeFromDay := msg.today
    unstakeToDay := uint32Max }

def Pillar.unstakeCancelled (pillar : Pillar) (msg : Msg this) : Pillar :=
  { pillar with unstakeRequestedAt := 0, unstakeToDay := msg.today }

/-- The withdrawal up to the point at which the stake is paid out. -/
def World.released (pid : Pid) : World :=
  { world with
    totalStaked := world.totalStaked - (world.pillars pid).staked
    pids := world.pids.set (world.pidIndexPlusOne pid - 1) 0
    pidIndexPlusOne := Function.update world.pidIndexPlusOne pid 0
    pillars := Function.update world.pillars pid {}
    payments := .stake pid (world.pillars pid).operator
      (world.pillars pid).staked :: world.payments }

/-- The recording of a day for a list of PIDs, with its fees accrued. -/
def World.recordedInactive (day : Nat) (pids : List Pid) : World :=
  { World.recordedAll day world pids with
    totalStaked := world.totalStaked - World.feesDue day world pids
    pendingFees := world.pendingFees + World.feesDue day world pids }

/-- The sweep of the fees up to their payment. -/
def World.feesReleased : World :=
  { world with
    pendingFees := 0
    payments := .fees world.feeRecipient world.pendingFees :: world.payments }

/-- The sweep of the surplus up to its payment. -/
def World.excessReleased (excess : Nat) : World :=
  { world with payments := .excess world.feeRecipient excess :: world.payments }

def World.roleSet (role : Role) (account : Address) (granted : Bool) : World :=
  { world with
    hasRole :=
      Function.update world.hasRole role
        (Function.update (world.hasRole role) account granted) }

end Updates

/-- The caller operates the PID. -/
def Storage.OperatedBy (storage : Storage) (msg : Msg this) (pid : Pid) :
    Prop :=
  storage.Registered pid ∧ (storage.pillars pid).operator = msg.sender

/-- What a successful transaction does.  Every branch lists the checks that
passed and the world that results. -/
def Tx.Effect (tx : Tx this) (world final : World) : Prop :=
  match tx.call with
  | .register pid amount endpoint =>
      pid ≠ 0 ∧ ¬ world.Registered pid ∧
        endpoint.length ≤ maxEndpointLength ∧ amount ≠ 0 ∧
        ∃ balances,
          tx.token (.transferFrom tx.msg.sender amount) world.balanceOf =
            some balances ∧
          world.balanceOf this ≤ balances this ∧
          threshold ≤ balances this - world.balanceOf this ∧
          world.totalStaked + (balances this - world.balanceOf this) <
            uint256Size ∧
          (world.rebalanced balances).enrolled tx.msg pid
            (balances this - world.balanceOf this) endpoint = final
  | .topUp pid amount =>
      world.OperatedBy tx.msg pid ∧
        (world.pillars pid).unstakeRequestedAt = 0 ∧ amount ≠ 0 ∧
        ∃ balances,
          tx.token (.transferFrom tx.msg.sender amount) world.balanceOf =
            some balances ∧
          world.balanceOf this ≤ balances this ∧
          (world.pillars pid).staked +
            (balances this - world.balanceOf this) < uint256Size ∧
          world.totalStaked + (balances this - world.balanceOf this) <
            uint256Size ∧
          (world.rebalanced balances).toppedUp pid
            (balances this - world.balanceOf this) = final
  | .setEndpoint pid endpoint =>
      world.OperatedBy tx.msg pid ∧ endpoint.length ≤ maxEndpointLength ∧
        (world.setPillar pid
          { world.pillars pid with endpoint := endpoint }).emitted
            (.endpointSet pid endpoint) = final
  | .requestUnstake pid =>
      world.OperatedBy tx.msg pid ∧
        (world.pillars pid).unstakeRequestedAt = 0 ∧
        (world.setPillar pid
          ((world.pillars pid).unstakeRequested tx.msg)).emitted
            (.unstakeRequested pid (tx.msg.timestamp + cooldown)) = final
  | .cancelUnstake pid =>
      world.OperatedBy tx.msg pid ∧
        (world.pillars pid).unstakeRequestedAt ≠ 0 ∧
        (world.setPillar pid
          ((world.pillars pid).unstakeCancelled tx.msg)).emitted
            (.unstakeCancelled pid) = final
  | .withdraw pid =>
      world.OperatedBy tx.msg pid ∧
        (world.pillars pid).unstakeRequestedAt ≠ 0 ∧
        (world.pillars pid).unstakeRequestedAt + cooldown ≤
          tx.msg.timestamp ∧
        (world.pillars pid).staked ≤ world.totalStaked ∧
        world.pidIndexPlusOne pid ≠ 0 ∧
        world.pidIndexPlusOne pid - 1 < world.pids.length ∧
        ∃ balances,
          tx.token (.transfer (world.pillars pid).operator
            (world.pillars pid).staked) world.balanceOf = some balances ∧
          ((world.released pid).rebalanced balances).emitted
            (.withdrawn pid (world.pillars pid).operator
              (world.pillars pid).staked) = final
  | .recordInactive pids day =>
      world.hasRole .oracle tx.msg.sender = true ∧ day < tx.msg.today ∧
        tx.msg.today ≤ day + maxBackfillDays ∧
        World.feesDue day world pids < uint256Size ∧
        World.feesDue day world pids ≤ world.totalStaked ∧
        (0 < World.feesDue day world pids →
          world.pendingFees + World.feesDue day world pids < uint256Size) ∧
        world.recordedInactive day pids = final
  | .sweepFees =>
      world.pendingFees ≠ 0 ∧
        ∃ balances,
          tx.token (.transfer world.feeRecipient world.pendingFees)
            world.balanceOf = some balances ∧
          (world.feesReleased.rebalanced balances).emitted
            (.feesSwept world.feeRecipient world.pendingFees) = final
  | .sweepExcess =>
      world.totalStaked + world.pendingFees < world.balanceOf this ∧
        ∃ balances,
          tx.token (.transfer world.feeRecipient
            (world.balanceOf this - world.totalStaked - world.pendingFees))
            world.balanceOf = some balances ∧
          ((world.excessReleased
              (world.balanceOf this - world.totalStaked -
                world.pendingFees)).rebalanced balances).emitted
            (.excessSwept world.feeRecipient
              (world.balanceOf this - world.totalStaked -
                world.pendingFees)) = final
  | .setFeeRecipient feeRecipient =>
      world.hasRole .defaultAdmin tx.msg.sender = true ∧
        feeRecipient ≠ 0 ∧ feeRecipient ≠ this ∧
        { world with
          feeRecipient := feeRecipient
          log := .feeRecipientSet feeRecipient :: world.log } = final
  | .grantRole role account =>
      world.hasRole .defaultAdmin tx.msg.sender = true ∧
        world.roleSet role account true = final
  | .revokeRole role account =>
      world.hasRole .defaultAdmin tx.msg.sender = true ∧
        world.roleSet role account false = final
  | .renounceRole role confirmation =>
      confirmation = tx.msg.sender ∧
        world.roleSet role tx.msg.sender false = final

theorem answer_eq_some {token : Token} {request : TokenCall}
    {world final : World} :
    answer token request world = some final ↔
      ∃ balances, token request world.balanceOf = some balances ∧
        world.rebalanced balances = final := by
  simp [answer, World.rebalanced]

/-- A transaction succeeds with a result exactly when the result is its
effect. -/
theorem execute_ok_iff_effect {tx : Tx this} {world final : World} :
    tx.execute world = .ok final ↔ tx.Effect world final := by
  rw [execute_ok_iff]
  obtain ⟨msg, call, token⟩ := tx
  cases call with
  | register pid amount endpoint =>
      simp [Call.code, register, pull, checkedSub, checkedAdd, modifyPillar,
        setTotalStaked, emit, answer_eq_some, Tx.Effect, Storage.Registered,
        and_assoc, World.rebalanced, World.enrolled, Pillar.enrolled]
  | topUp pid amount =>
      simp [Call.code, topUp, operatorPillar, pull, checkedSub, checkedAdd,
        modifyPillar, setTotalStaked, emit, answer_eq_some, Tx.Effect,
        Storage.Registered, Storage.OperatedBy, and_assoc, World.rebalanced,
        World.toppedUp, Pillar.toppedUp]
      intro _ _ idle _
      simp [idle]
  | setEndpoint pid endpoint =>
      simp [Call.code, setEndpoint, operatorPillar, modifyPillar, emit,
        Tx.Effect, Storage.Registered, Storage.OperatedBy, and_assoc,
        World.setPillar, World.emitted]
  | requestUnstake pid =>
      simp [Call.code, requestUnstake, operatorPillar, modifyPillar, emit,
        Tx.Effect, Storage.Registered, Storage.OperatedBy, and_assoc,
        World.setPillar, World.emitted, Pillar.unstakeRequested]
  | cancelUnstake pid =>
      simp [Call.code, cancelUnstake, operatorPillar, modifyPillar, emit,
        Tx.Effect, Storage.Registered, Storage.OperatedBy, and_assoc,
        World.setPillar, World.emitted, Pillar.unstakeCancelled]
  | withdraw pid =>
      simp [Call.code, withdraw, operatorPillar, removePid, safeTransfer,
        checkedSub, modifyPillar, setTotalStaked, emit, answer_eq_some,
        Tx.Effect, Storage.Registered, Storage.OperatedBy, and_assoc,
        World.rebalanced, World.released, World.emitted, Payment.recipient,
        Payment.amount]
  | recordInactive pids day =>
      simp [Call.code, recordInactive, onlyRole, Tx.Effect, and_assoc]
      intro _ _ _ _
      by_cases charged : 0 < World.feesDue day world pids
      · simp [charged, checkedSub, checkedAdd, setTotalStaked, setPendingFees,
          World.recordedInactive, and_assoc]
      · have free : World.feesDue day world pids = 0 := by omega
        obtain ⟨_, _, _, frame⟩ := recordedAll_frame day world pids
        simp [free, World.recordedInactive, frame]
  | sweepFees =>
      simp [Call.code, sweepFees, safeTransfer, setPendingFees, emit,
        answer_eq_some, Tx.Effect, and_assoc, World.rebalanced,
        World.feesReleased, World.emitted, Payment.recipient, Payment.amount]
  | sweepExcess =>
      simp [Call.code, sweepExcess, safeTransfer, checkedSub, emit,
        answer_eq_some, Tx.Effect, and_assoc, World.rebalanced,
        World.excessReleased, World.emitted, Payment.recipient,
        Payment.amount]
      rw [← and_assoc, ← and_assoc]
      apply and_congr_left'
      omega
  | setFeeRecipient feeRecipient =>
      simp [Call.code, setFeeRecipient, onlyRole, emit, Tx.Effect, and_assoc]
  | grantRole role account =>
      simp [Call.code, grantRole, onlyRole, setRole, Tx.Effect,
        World.roleSet]
  | revokeRole role account =>
      simp [Call.code, revokeRole, onlyRole, setRole, Tx.Effect,
        World.roleSet]
  | renounceRole role confirmation =>
      simp [Call.code, renounceRole, setRole, Tx.Effect, World.roleSet]

/-- Only the token moves balances, and at most once in a transaction. -/
theorem Tx.Effect.balances {tx : Tx this} {world final : World}
    (effect : tx.Effect world final) :
    final.balanceOf = world.balanceOf ∨
      ∃ request, tx.token request world.balanceOf = some final.balanceOf := by
  obtain ⟨msg, call, token⟩ := tx
  cases call with
  | register pid amount endpoint =>
      obtain ⟨_, _, _, _, balances, answered, _, _, _, rfl⟩ := effect
      exact Or.inr ⟨_, answered⟩
  | topUp pid amount =>
      obtain ⟨_, _, _, balances, answered, _, _, _, rfl⟩ := effect
      exact Or.inr ⟨_, answered⟩
  | setEndpoint pid endpoint =>
      obtain ⟨_, _, rfl⟩ := effect
      exact Or.inl rfl
  | requestUnstake pid =>
      obtain ⟨_, _, rfl⟩ := effect
      exact Or.inl rfl
  | cancelUnstake pid =>
      obtain ⟨_, _, rfl⟩ := effect
      exact Or.inl rfl
  | withdraw pid =>
      obtain ⟨_, _, _, _, _, _, balances, answered, rfl⟩ := effect
      exact Or.inr ⟨_, answered⟩
  | recordInactive pids day =>
      obtain ⟨_, _, _, _, _, _, rfl⟩ := effect
      exact Or.inl (recordedAll_balanceOf day world pids)
  | sweepFees =>
      obtain ⟨_, balances, answered, rfl⟩ := effect
      exact Or.inr ⟨_, answered⟩
  | sweepExcess =>
      obtain ⟨_, balances, answered, rfl⟩ := effect
      exact Or.inr ⟨_, answered⟩
  | setFeeRecipient feeRecipient =>
      obtain ⟨_, _, _, rfl⟩ := effect
      exact Or.inl rfl
  | grantRole role account =>
      obtain ⟨_, rfl⟩ := effect
      exact Or.inl rfl
  | revokeRole role account =>
      obtain ⟨_, rfl⟩ := effect
      exact Or.inl rfl
  | renounceRole role confirmation =>
      obtain ⟨_, rfl⟩ := effect
      exact Or.inl rfl

theorem apply_of_effect {tx : Tx this} {world final : World}
    (effect : tx.Effect world final) :
    Input.apply (.transaction tx) world = final := by
  simp only [Input.apply, execute_ok_iff_effect.mpr effect]

theorem apply_of_not_effect {tx : Tx this} {world : World}
    (fails : ∀ final, ¬ tx.Effect world final) :
    Input.apply (.transaction tx) world = world := by
  cases executed : tx.execute world with
  | ok final => exact (fails final (execute_ok_iff_effect.mp executed)).elim
  | error failure => simp only [Input.apply, executed]

/-- Applying a transaction either has its effect or changes nothing. -/
theorem apply_transaction_cases (tx : Tx this) (world : World) :
    tx.Effect world (Input.apply (.transaction tx) world) ∨
      Input.apply (.transaction tx) world = world := by
  cases executed : tx.execute world with
  | ok final =>
      simp only [Input.apply, executed]
      exact Or.inl (execute_ok_iff_effect.mp executed)
  | error failure =>
      simp [Input.apply, executed]

end PillarStaking

end RefinetPillars
