import Mathlib
import RefinetPillars.ReentrantCode
import RefinetPillars.PillarStakingStorage

/-!
# Code of the staking contract

The functions of `PillarStaking`, statement by statement, as code that hands
over control at its token transfers.  Roles follow OpenZeppelin's
`AccessControl`, where the default admin administers both roles.
-/

namespace RefinetPillars

namespace PillarStaking

open ReentrantCode

/-- The transfers the contract asks its token for. -/
inductive TokenCall where
  | transferFrom (sender : Address) (amount : Nat)
  | transfer (recipient : Address) (amount : Nat)
deriving DecidableEq

abbrev ContractCode := Code World Error TokenCall

/-- The context of a call to the contract at address `this`.  A call is never
sent from the zero address, and the contract does not call itself. -/
structure Msg (this : Address) where
  sender : Address
  timestamp : Nat
  sender_ne_zero : sender ≠ 0
  sender_ne_this : sender ≠ this

variable {this : Address}

@[simp]
theorem Msg.sender_eq_zero (msg : Msg this) : msg.sender = 0#160 ↔ False :=
  iff_false_intro msg.sender_ne_zero

/-- The UTC day number of a call, as `uint32(block.timestamp / 1 days)`. -/
def Msg.today (msg : Msg this) : Nat := uint32 (msg.timestamp / oneDay)

def checkedAdd (first second : Nat) : ContractCode Nat := do
  revertIf (uint256Size ≤ first + second) .panic
  return first + second

def checkedSub (first second : Nat) : ContractCode Nat := do
  revertIf (first < second) .panic
  return first - second

def emit (event : Event) : ContractCode Unit :=
  modify fun world => { world with log := event :: world.log }

def modifyPillar (pid : Pid) (update : Pillar → Pillar) : ContractCode Unit :=
  modify fun world =>
    { world with
      pillars :=
        Function.update world.pillars pid (update (world.pillars pid)) }

def setTotalStaked (amount : Nat) : ContractCode Unit :=
  modify fun world => { world with totalStaked := amount }

def setPendingFees (amount : Nat) : ContractCode Unit :=
  modify fun world => { world with pendingFees := amount }

def onlyRole (msg : Msg this) (role : Role) : ContractCode Unit := do
  let granted ← read (·.hasRole role msg.sender)
  revertIf (granted = false)
    (.accessControlUnauthorizedAccount msg.sender role)

/-- The token's transfer out of the contract, entered in the payments. -/
def safeTransfer (payment : Payment) : ContractCode Unit := do
  modify fun world => { world with payments := payment :: world.payments }
  call (.transfer payment.recipient payment.amount)

/-- `_operatorPillar`: the Pillar, if the caller operates it. -/
def operatorPillar (msg : Msg this) (pid : Pid) : ContractCode Pillar := do
  let pillar ← read (·.pillars pid)
  revertIf (pillar.operator = 0) .notRegistered
  revertIf (pillar.operator ≠ msg.sender) .notOperator
  return pillar

/-- `_pull`: take a deposit and measure what arrived. -/
def pull (msg : Msg this) (amount : Nat) : ContractCode Nat := do
  revertIf (amount = 0) .zeroAmount
  let before ← read (·.balanceOf this)
  call (.transferFrom msg.sender amount)
  let after ← read (·.balanceOf this)
  checkedSub after before

/-- `_removePid`: clear the slot of a PID. -/
def removePid (pid : Pid) : ContractCode Unit := do
  let indexPlusOne ← read (·.pidIndexPlusOne pid)
  let index ← checkedSub indexPlusOne 1
  let count ← read (·.pids.length)
  revertIf (count ≤ index) .panic
  modify fun world =>
    { world with
      pids := world.pids.set index 0
      pidIndexPlusOne := Function.update world.pidIndexPlusOne pid 0 }

def register (msg : Msg this) (pid : Pid) (amount : Nat)
    (endpoint : List UInt8) : ContractCode Unit :=
  nonReentrant .reentrancyGuardReentrantCall do
    revertIf (pid = 0) .zeroPid
    let pillar ← read (·.pillars pid)
    revertIf (pillar.operator ≠ 0) .alreadyRegistered
    revertIf (maxEndpointLength < endpoint.length) .endpointTooLong
    let received ← pull msg amount
    revertIf (received < threshold) .belowThreshold
    modifyPillar pid fun pillar =>
      { pillar with
        operator := msg.sender
        staked := received
        registeredAt := uint64 msg.timestamp
        endpoint := endpoint }
    let totalStaked ← read (·.totalStaked)
    setTotalStaked (← checkedAdd totalStaked received)
    modify fun world =>
      { world with
        pids := world.pids ++ [pid]
        pidIndexPlusOne :=
          Function.update world.pidIndexPlusOne pid (world.pids.length + 1) }
    emit (.registered pid msg.sender received endpoint)

def topUp (msg : Msg this) (pid : Pid) (amount : Nat) : ContractCode Unit :=
  nonReentrant .reentrancyGuardReentrantCall do
    let pillar ← operatorPillar msg pid
    revertIf (pillar.unstakeRequestedAt ≠ 0) .unstaking
    let received ← pull msg amount
    -- The storage reference is read again: the token may have called back.
    let pillar ← read (·.pillars pid)
    revertIf (pillar.unstakeRequestedAt ≠ 0) .unstaking
    let staked ← checkedAdd pillar.staked received
    modifyPillar pid fun pillar => { pillar with staked := staked }
    let totalStaked ← read (·.totalStaked)
    setTotalStaked (← checkedAdd totalStaked received)
    emit (.toppedUp pid received staked)

def setEndpoint (msg : Msg this) (pid : Pid) (endpoint : List UInt8) :
    ContractCode Unit := do
  let _ ← operatorPillar msg pid
  revertIf (maxEndpointLength < endpoint.length) .endpointTooLong
  modifyPillar pid fun pillar => { pillar with endpoint := endpoint }
  emit (.endpointSet pid endpoint)

def requestUnstake (msg : Msg this) (pid : Pid) : ContractCode Unit := do
  let pillar ← operatorPillar msg pid
  revertIf (pillar.unstakeRequestedAt ≠ 0) .unstaking
  modifyPillar pid fun pillar =>
    { pillar with
      unstakeRequestedAt := uint64 msg.timestamp
      unstakeFromDay := msg.today
      unstakeToDay := uint32Max }
  emit (.unstakeRequested pid (msg.timestamp + cooldown))

def cancelUnstake (msg : Msg this) (pid : Pid) : ContractCode Unit := do
  let pillar ← operatorPillar msg pid
  revertIf (pillar.unstakeRequestedAt = 0) .notUnstaking
  modifyPillar pid fun pillar =>
    { pillar with unstakeRequestedAt := 0, unstakeToDay := msg.today }
  emit (.unstakeCancelled pid)

def withdraw (msg : Msg this) (pid : Pid) : ContractCode Unit :=
  nonReentrant .reentrancyGuardReentrantCall do
    let pillar ← operatorPillar msg pid
    revertIf (pillar.unstakeRequestedAt = 0) .notUnstaking
    let availableAt := pillar.unstakeRequestedAt + cooldown
    revertIf (msg.timestamp < availableAt) (.cooldownActive availableAt)
    let amount := pillar.staked
    let operator := pillar.operator
    let totalStaked ← read (·.totalStaked)
    setTotalStaked (← checkedSub totalStaked amount)
    removePid pid
    modifyPillar pid fun _ => {}
    safeTransfer (.stake pid operator amount)
    emit (.withdrawn pid operator amount)

/-- One round of the loop in `recordInactive`, returning the new total. -/
def recordOne (day : Nat) (pid : Pid) (total : Nat) : ContractCode Nat := do
  let pillar ← read (·.pillars pid)
  let recorded ← read (·.inactiveRecorded pid day)
  if pillar.operator = 0 then return total
  else if day ≤ uint32 (pillar.registeredAt / oneDay) then return total
  else if recorded = true then return total
  else
    modify fun world =>
      { world with
        inactiveRecorded :=
          Function.update world.inactiveRecorded pid
            (Function.update (world.inactiveRecorded pid) day true) }
    if pillar.UnstakingThatDay day then
      emit (.inactiveDay pid day 0 pillar.staked)
      return total
    else
      modifyPillar pid fun pillar =>
        { pillar with lastInactiveDay :=
            if pillar.lastInactiveDay < day then day
            else pillar.lastInactiveDay }
      if feeFloor < pillar.staked then
        let headroom := pillar.staked - feeFloor
        let fee := if headroom < feePerDay then headroom else feePerDay
        let staked ← checkedSub pillar.staked fee
        modifyPillar pid fun pillar => { pillar with staked := staked }
        let total ← checkedAdd total fee
        emit (.inactiveDay pid day fee staked)
        return total
      else
        emit (.inactiveDay pid day 0 pillar.staked)
        return total

/-- The loop of `recordInactive` over its list of PIDs. -/
def recordLoop (day : Nat) : List Pid → Nat → ContractCode Nat
  | [], total => return total
  | pid :: pids, total => do
      let total ← recordOne day pid total
      recordLoop day pids total

def recordInactive (msg : Msg this) (pids : List Pid) (day : Nat) :
    ContractCode Unit := do
  onlyRole msg .oracle
  nonReentrant .reentrancyGuardReentrantCall do
    let today := msg.today
    revertIf (today ≤ day ∨ day + maxBackfillDays < today)
      (.dayOutOfRange day)
    let total ← recordLoop day pids 0
    if 0 < total then
      let totalStaked ← read (·.totalStaked)
      setTotalStaked (← checkedSub totalStaked total)
      let pendingFees ← read (·.pendingFees)
      setPendingFees (← checkedAdd pendingFees total)
    else return ()

def sweepFees : ContractCode Unit :=
  nonReentrant .reentrancyGuardReentrantCall do
    let amount ← read (·.pendingFees)
    revertIf (amount = 0) .zeroAmount
    setPendingFees 0
    let recipient ← read (·.feeRecipient)
    safeTransfer (.fees recipient amount)
    emit (.feesSwept recipient amount)

def sweepExcess (this : Address) : ContractCode Unit :=
  nonReentrant .reentrancyGuardReentrantCall do
    let balance ← read (·.balanceOf this)
    let totalStaked ← read (·.totalStaked)
    let unstaked ← checkedSub balance totalStaked
    let pendingFees ← read (·.pendingFees)
    let excess ← checkedSub unstaked pendingFees
    revertIf (excess = 0) .zeroAmount
    let recipient ← read (·.feeRecipient)
    safeTransfer (.excess recipient excess)
    emit (.excessSwept recipient excess)

def setFeeRecipient (msg : Msg this) (feeRecipient : Address) :
    ContractCode Unit := do
  onlyRole msg .defaultAdmin
  revertIf (feeRecipient = 0 ∨ feeRecipient = this) .zeroAddress
  modify fun world => { world with feeRecipient := feeRecipient }
  emit (.feeRecipientSet feeRecipient)

def setRole (role : Role) (account : Address) (granted : Bool) :
    ContractCode Unit :=
  modify fun world =>
    { world with
      hasRole :=
        Function.update world.hasRole role
          (Function.update (world.hasRole role) account granted) }

def grantRole (msg : Msg this) (role : Role) (account : Address) :
    ContractCode Unit := do
  onlyRole msg .defaultAdmin
  setRole role account true

def revokeRole (msg : Msg this) (role : Role) (account : Address) :
    ContractCode Unit := do
  onlyRole msg .defaultAdmin
  setRole role account false

def renounceRole (msg : Msg this) (role : Role) (confirmation : Address) :
    ContractCode Unit := do
  revertIf (confirmation ≠ msg.sender) .accessControlBadConfirmation
  setRole role msg.sender false

/-- The entry points that change state, with their arguments. -/
inductive Call where
  | register (pid : Pid) (amount : Nat) (endpoint : List UInt8)
  | topUp (pid : Pid) (amount : Nat)
  | setEndpoint (pid : Pid) (endpoint : List UInt8)
  | requestUnstake (pid : Pid)
  | cancelUnstake (pid : Pid)
  | withdraw (pid : Pid)
  | recordInactive (pids : List Pid) (day : Nat)
  | sweepFees
  | sweepExcess
  | setFeeRecipient (feeRecipient : Address)
  | grantRole (role : Role) (account : Address)
  | revokeRole (role : Role) (account : Address)
  | renounceRole (role : Role) (confirmation : Address)
deriving DecidableEq

/-- The code an entry point runs. -/
def Call.code (msg : Msg this) : Call → ContractCode Unit
  | .register pid amount endpoint => PillarStaking.register msg pid amount endpoint
  | .topUp pid amount => PillarStaking.topUp msg pid amount
  | .setEndpoint pid endpoint => PillarStaking.setEndpoint msg pid endpoint
  | .requestUnstake pid => PillarStaking.requestUnstake msg pid
  | .cancelUnstake pid => PillarStaking.cancelUnstake msg pid
  | .withdraw pid => PillarStaking.withdraw msg pid
  | .recordInactive pids day => PillarStaking.recordInactive msg pids day
  | .sweepFees => PillarStaking.sweepFees
  | .sweepExcess => PillarStaking.sweepExcess this
  | .setFeeRecipient feeRecipient =>
      PillarStaking.setFeeRecipient msg feeRecipient
  | .grantRole role account => PillarStaking.grantRole msg role account
  | .revokeRole role account => PillarStaking.revokeRole msg role account
  | .renounceRole role confirmation =>
      PillarStaking.renounceRole msg role confirmation

/-- The constructor: the state of a fresh deployment, whose address may
already hold tokens. -/
def deploy (this token admin feeRecipient : Address) (balanceOf : Balances) :
    Except Error World :=
  if token = 0 ∨ admin = 0 ∨ feeRecipient = 0 ∨ feeRecipient = this then
    .error .zeroAddress
  else
    .ok
      { feeRecipient := feeRecipient
        totalStaked := 0
        pendingFees := 0
        pillars := fun _ => {}
        inactiveRecorded := fun _ _ => false
        pids := []
        pidIndexPlusOne := fun _ => 0
        hasRole := fun role account =>
          decide (role = .defaultAdmin ∧ account = admin)
        balanceOf := balanceOf
        log := [.feeRecipientSet feeRecipient]
        payments := [] }

end PillarStaking

end RefinetPillars
