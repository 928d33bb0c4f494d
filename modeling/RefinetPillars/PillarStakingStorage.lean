import Mathlib

/-!
# State of the staking contract

The storage variables of `PillarStaking`, its events and errors, and the part
of the world it can observe: the balances its token reports.  Besides the
events the model keeps the list of payments, the outgoing token transfers in
the order in which the contract makes them.
-/

namespace RefinetPillars

namespace PillarStaking

abbrev Address := BitVec 160

abbrev Pid := BitVec 256

noncomputable instance : Fintype Pid :=
  Fintype.ofInjective (BitVec.toFin (w := 256)) fun _ _ => BitVec.eq_of_toFin_eq

/-- One REFI in base units. -/
def ether : Nat := 10 ^ 18

/-- Seconds in a UTC day. -/
def oneDay : Nat := 86400

def threshold : Nat := 100000 * ether

def feePerDay : Nat := ether

def feeFloor : Nat := threshold - feePerDay

def cooldown : Nat := 14 * oneDay

def maxBackfillDays : Nat := 7

def maxEndpointLength : Nat := 253

def inactiveGraceDays : Nat := 2

/-- The largest `uint32`, used as the open end of an unstaking stretch. -/
def uint32Max : Nat := 2 ^ 32 - 1

/-- Solidity's truncating conversion to `uint32`. -/
def uint32 (value : Nat) : Nat := value % 2 ^ 32

/-- Solidity's truncating conversion to `uint64`. -/
def uint64 (value : Nat) : Nat := value % 2 ^ 64

/-- Values of type `uint256` lie below this bound. -/
def uint256Size : Nat := 2 ^ 256

structure Pillar where
  operator : Address := 0
  staked : Nat := 0
  registeredAt : Nat := 0
  /-- Zero while staked. -/
  unstakeRequestedAt : Nat := 0
  unstakeFromDay : Nat := 0
  unstakeToDay : Nat := 0
  lastInactiveDay : Nat := 0
  endpoint : List UInt8 := []
deriving DecidableEq

inductive Role where
  | defaultAdmin
  | oracle
deriving DecidableEq

inductive Event where
  | registered (pid : Pid) (operator : Address) (amount : Nat)
      (endpoint : List UInt8)
  | toppedUp (pid : Pid) (amount staked : Nat)
  | endpointSet (pid : Pid) (endpoint : List UInt8)
  | unstakeRequested (pid : Pid) (availableAt : Nat)
  | unstakeCancelled (pid : Pid)
  | withdrawn (pid : Pid) (operator : Address) (amount : Nat)
  | inactiveDay (pid : Pid) (day fee staked : Nat)
  | feeRecipientSet (feeRecipient : Address)
  | feesSwept (recipient : Address) (amount : Nat)
  | excessSwept (recipient : Address) (amount : Nat)
deriving DecidableEq

inductive Error where
  | zeroAddress
  | zeroPid
  | alreadyRegistered
  | notRegistered
  | notOperator
  | belowThreshold
  | zeroAmount
  | unstaking
  | notUnstaking
  | cooldownActive (availableAt : Nat)
  | endpointTooLong
  | dayOutOfRange (day : Nat)
  | reentrancyGuardReentrantCall
  | accessControlUnauthorizedAccount (account : Address) (role : Role)
  | accessControlBadConfirmation
  /-- Checked arithmetic and array bounds. -/
  | panic
deriving DecidableEq

/-- An outgoing token transfer, with the function that makes it. -/
inductive Payment where
  | stake (pid : Pid) (recipient : Address) (amount : Nat)
  | fees (recipient : Address) (amount : Nat)
  | excess (recipient : Address) (amount : Nat)
deriving DecidableEq

def Payment.recipient : Payment → Address
  | .stake _ recipient _ | .fees recipient _ | .excess recipient _ => recipient

def Payment.amount : Payment → Nat
  | .stake _ _ amount | .fees _ amount | .excess _ amount => amount

/-- The storage variables of the contract. -/
@[ext]
structure Storage where
  feeRecipient : Address
  totalStaked : Nat
  pendingFees : Nat
  pillars : Pid → Pillar
  inactiveRecorded : Pid → Nat → Bool
  pids : List Pid
  pidIndexPlusOne : Pid → Nat
  hasRole : Role → Address → Bool

/-- Balances as the token reports them. -/
abbrev Balances := Address → Nat

/-- The storage, the token balances, and what the contract has emitted and
paid so far, newest first. -/
structure World extends Storage where
  balanceOf : Balances
  log : List Event
  payments : List Payment

def Storage.Registered (storage : Storage) (pid : Pid) : Prop :=
  (storage.pillars pid).operator ≠ 0

instance (storage : Storage) (pid : Pid) : Decidable (storage.Registered pid) :=
  inferInstanceAs (Decidable (_ ≠ _))

/-- The UTC day on which a Pillar was registered. -/
def Pillar.registrationDay (pillar : Pillar) : Nat :=
  uint32 (pillar.registeredAt / oneDay)

/-- Whether a day lies strictly inside the recorded unstaking stretch. -/
def Pillar.UnstakingThatDay (pillar : Pillar) (day : Nat) : Prop :=
  pillar.unstakeFromDay ≠ 0 ∧ pillar.unstakeFromDay < day ∧
    day < pillar.unstakeToDay

instance (pillar : Pillar) (day : Nat) :
    Decidable (pillar.UnstakingThatDay day) :=
  inferInstanceAs (Decidable (_ ∧ _ ∧ _))

section Views

variable (storage : Storage)

def isActive (now : Nat) (pid : Pid) : Bool :=
  let pillar := storage.pillars pid
  if pillar.operator = 0 ∨ pillar.unstakeRequestedAt ≠ 0 ∨
      pillar.staked < threshold then false
  else if pillar.lastInactiveDay = 0 then true
  else decide (pillar.lastInactiveDay + inactiveGraceDays < now / oneDay)

def pillarOf (pid : Pid) : Pillar := storage.pillars pid

def operatorOf (pid : Pid) : Address := (storage.pillars pid).operator

def stakeOf (pid : Pid) : Nat := (storage.pillars pid).staked

def endpointOf (pid : Pid) : List UInt8 := (storage.pillars pid).endpoint

def pillarCount : Nat := storage.pids.length

/-- The slots from `offset` on, at most `limit` of them. -/
def pidsPage (offset limit : Nat) : List Pid :=
  let count := storage.pids.length
  if count ≤ offset then []
  else
    let stop := if count - offset < limit then count else offset + limit
    (storage.pids.drop offset).take (stop - offset)

end Views

end PillarStaking

end RefinetPillars
