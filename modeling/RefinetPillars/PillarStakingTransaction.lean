import RefinetPillars.ReentrantCallStack
import RefinetPillars.RunHistory
import RefinetPillars.PillarStakingContract

/-!
# Transactions and runs of the staking contract

A transaction is a call together with the token's behaviour during it.  A
reverted transaction changes nothing.  Runs consist of transactions and of
token transfers made without the contract, newest first.
-/

namespace RefinetPillars

namespace PillarStaking

open ReentrantCode RunHistory

/-- What a token does with its balances when the contract calls it, and when
it reverts. -/
abbrev Token := TokenCall → Balances → Option Balances

/-- Move exactly `amount` from one account to another. -/
def moveTokens (sender recipient : Address) (amount : Nat)
    (balances : Balances) : Balances :=
  let debited := Function.update balances sender (balances sender - amount)
  Function.update debited recipient (debited recipient + amount)

/-- An ERC-20 as seen by the contract at `this`: a transfer out of it moves
exactly the amount or reverts, and a transfer into it delivers at most the
amount. -/
structure Erc20 (this : Address) (token : Token) : Prop where
  transfer_exact : ∀ {recipient : Address} {amount : Nat}
    {before after : Balances},
    token (.transfer recipient amount) before = some after →
      amount ≤ before this ∧
        after = moveTokens this recipient amount before
  transferFrom_delivers : ∀ {sender : Address} {amount : Nat}
    {before after : Balances},
    token (.transferFrom sender amount) before = some after →
      before this ≤ after this ∧ after this ≤ before this + amount ∧
        after this < uint256Size

/-- The token lets the contract transfer out whatever it holds. -/
def PaysOut (this : Address) (token : Token) : Prop :=
  ∀ (recipient : Address) (amount : Nat) (balances : Balances),
    amount ≤ balances this →
      (token (.transfer recipient amount) balances).isSome

/-- A call to the contract and the token's behaviour during it. -/
structure Tx (this : Address) where
  msg : Msg this
  call : Call
  token : Token

variable {this : Address}

/-- The token's answer to an external call of the contract. -/
def answer (token : Token) (request : TokenCall) (world : World) :
    Option World :=
  (token request world.balanceOf).map fun balances =>
    { world with balanceOf := balances }

/-- Execute a transaction against a token that does not call back. -/
def Tx.execute (tx : Tx this) (world : World) :
    Except (Failure Error TokenCall) World :=
  match (tx.call.code tx.msg ⟨world, false⟩).settle (answer tx.token) with
  | .ok (_, final) => .ok final.world
  | .error failure => .error failure

/-- What happens on the chain: a transaction, or a token transfer made without
the contract that brings it `amount` and leaves `others` to everybody else. -/
inductive Input (this : Address) where
  | transaction (tx : Tx this)
  | tokenTransfer (timestamp amount : Nat) (others : Balances)

def Input.time : Input this → Nat
  | .transaction tx => tx.msg.timestamp
  | .tokenTransfer timestamp _ _ => timestamp

/-- The effect of an input; a reverted transaction changes nothing. -/
def Input.apply : Input this → World → World
  | .transaction tx, world =>
      match tx.execute world with
      | .ok final => final
      | .error _ => world
  | .tokenTransfer _ amount others, world =>
      if world.balanceOf this + amount < uint256Size then
        { world with
          balanceOf :=
            Function.update others this (world.balanceOf this + amount) }
      else world

/-- Every token behaviour in the input is that of an ERC-20. -/
def Input.Erc20 : Input this → Prop
  | .transaction tx => PillarStaking.Erc20 this tx.token
  | .tokenTransfer _ _ _ => True

/-- The world after a run of inputs, newest first. -/
abbrev runInputs (start : World) (inputs : List (Input this)) : World :=
  run Input.apply start inputs

/-- Block times never go back, and the day number of each fits the contract's
`uint32`. -/
def BlockTimes (inputs : List (Input this)) : Prop :=
  Chronological Input.time inputs ∧
    ∀ input ∈ inputs, input.time / oneDay < 2 ^ 32

theorem execute_ok_iff {tx : Tx this} {world final : World} :
    tx.execute world = .ok final ↔
      ∃ entered, (tx.call.code tx.msg ⟨world, false⟩).settle
        (answer tx.token) = .ok ((), ⟨final, entered⟩) := by
  unfold Tx.execute
  cases settled : (tx.call.code tx.msg ⟨world, false⟩).settle
      (answer tx.token) with
  | error failure => simp
  | ok result =>
      obtain ⟨⟨⟩, ended, entered⟩ := result
      simp

section BlockTimes

variable {input : Input this} {earlier inputs : List (Input this)}

theorem BlockTimes.of_sublist (times : BlockTimes inputs)
    (sublist : earlier.Sublist inputs) : BlockTimes earlier :=
  ⟨times.1.sublist sublist,
    fun member memberMem => times.2 member (sublist.subset memberMem)⟩

theorem BlockTimes.of_cons (times : BlockTimes (input :: inputs)) :
    BlockTimes inputs :=
  times.of_sublist (List.sublist_cons_self input inputs)

/-- Under the block-time assumption day numbers are not truncated. -/
theorem BlockTimes.today {tx : Tx this}
    (times : BlockTimes (.transaction tx :: inputs)) :
    tx.msg.today = tx.msg.timestamp / oneDay :=
  Nat.mod_eq_of_lt (times.2 (.transaction tx) (by simp))

theorem BlockTimes.timestamp {tx : Tx this}
    (times : BlockTimes (.transaction tx :: inputs)) :
    uint64 tx.msg.timestamp = tx.msg.timestamp := by
  have bound : tx.msg.timestamp / oneDay < 2 ^ 32 :=
    times.2 (.transaction tx) (by simp)
  apply Nat.mod_eq_of_lt
  simp only [oneDay] at bound
  omega

end BlockTimes

section ExactToken

/-- A token that moves exactly what it is asked to move, as long as the payer
holds it. -/
def exactToken (this : Address) : Token
  | .transferFrom sender amount, balances =>
      if amount ≤ balances sender ∧ balances this + amount < uint256Size then
        some (moveTokens sender this amount balances)
      else none
  | .transfer recipient amount, balances =>
      if amount ≤ balances this then
        some (moveTokens this recipient amount balances)
      else none

theorem exactToken_erc20 (this : Address) : Erc20 this (exactToken this) where
  transfer_exact {recipient amount before after} transferred := by
    simp only [exactToken] at transferred
    split at transferred
    · rename_i covered
      exact ⟨covered, (Option.some.inj transferred).symm⟩
    · cases transferred
  transferFrom_delivers {sender amount before after} transferred := by
    simp only [exactToken] at transferred
    split at transferred
    · rename_i covered
      obtain rfl := Option.some.inj transferred
      by_cases same : this = sender
      · subst same
        simp only [moveTokens, Function.update_self]
        omega
      · simp only [moveTokens, Function.update_self,
          Function.update_of_ne same]
        omega
    · cases transferred

theorem exactToken_paysOut (this : Address) :
    PaysOut this (exactToken this) := by
  intro recipient amount balances covered
  simp [exactToken, covered]

/-- A call made with the exact token. -/
def Msg.sends (msg : Msg this) (call : Call) : Input this :=
  .transaction ⟨msg, call, exactToken this⟩

theorem Msg.sends_erc20 (msg : Msg this) (call : Call) :
    (msg.sends call).Erc20 :=
  exactToken_erc20 this

/-- A fresh deployment in which everybody holds twice the threshold. -/
def fundedWorld : World where
  feeRecipient := 4
  totalStaked := 0
  pendingFees := 0
  pillars := fun _ => {}
  inactiveRecorded := fun _ _ => false
  pids := []
  pidIndexPlusOne := fun _ => 0
  hasRole := fun role account => decide (role = .defaultAdmin ∧ account = 3)
  balanceOf := fun _ => 2 * threshold
  log := [.feeRecipientSet 4]
  payments := []

theorem deploy_fundedWorld :
    deploy 1 2 3 4 (fun _ => 2 * threshold) = .ok fundedWorld := rfl

/-- The messages of four accounts, to a contract at address 1. -/
@[simps]
def byOperator (timestamp : Nat) : Msg 1 :=
  ⟨5, timestamp, by decide, by decide⟩

@[simps]
def byOracle (timestamp : Nat) : Msg 1 :=
  ⟨6, timestamp, by decide, by decide⟩

@[simps]
def byAdmin (timestamp : Nat) : Msg 1 :=
  ⟨3, timestamp, by decide, by decide⟩

@[simps]
def bySuccessor (timestamp : Nat) : Msg 1 :=
  ⟨8, timestamp, by decide, by decide⟩

/-- A Pillar registers with more than the threshold on day 1, the admin
appoints an oracle, and on day 3 the oracle records that it was inactive on
day 2. -/
def chargedRun : List (Input 1) :=
  [(byOracle (3 * oneDay)).sends (.recordInactive [7] 2),
    (byAdmin (2 * oneDay)).sends (.grantRole .oracle 6),
    (byOperator oneDay).sends
      (.register 7 (threshold + 20 * ether) [])]

theorem chargedRun_erc20 : ∀ input ∈ chargedRun, input.Erc20 := by
  simp [chargedRun, Msg.sends_erc20]

end ExactToken

end PillarStaking

end RefinetPillars
