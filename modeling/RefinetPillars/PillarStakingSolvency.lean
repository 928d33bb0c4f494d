import RefinetPillars.PillarStakingReentrancy

/-!
# Solvency of the staking contract

Plain runs keep the storage invariant for any token.  When the token is an
ERC-20, the contract moreover always holds all stakes and all pending fees, and
the fees it has charged are either pending or swept.
-/

namespace RefinetPillars

namespace PillarStaking

open ReentrantCode RunHistory

variable {this : Address}

section Runs

/-- Every input keeps the storage invariant, whatever the token does. -/
theorem Sound.apply {world : World} (sound : Sound world)
    (input : Input this) : Sound (input.apply world) := by
  cases input with
  | tokenTransfer timestamp amount others =>
      simp only [Input.apply]
      split
      · exact sound.rebalanced _
      · exact sound
  | transaction tx =>
      simp only [Input.apply]
      split
      · rename_i final executed
        obtain ⟨entered, settled⟩ := execute_ok_iff.mp executed
        exact (guardDiscipline.settle (tx.msg, tx.call) sound
          (fun request before after answered => by
            obtain ⟨balances, _, rfl⟩ := answer_eq_some.mp answered
            exact ⟨balances, rfl⟩) settled).2
      · exact sound

theorem sound_runInputs {token admin feeRecipient : Address}
    {balanceOf : Balances} {start : World}
    (deployed : deploy this token admin feeRecipient balanceOf = .ok start)
    (inputs : List (Input this)) : Sound (runInputs start inputs) :=
  run_invariant (sound_deploy deployed)
    (fun input _ (_ : True) sound => sound.apply input) fun _ _ => trivial

end Runs

/-- The fees a payment sweeps. -/
def Payment.feesSwept : Payment → Nat
  | .fees _ amount => amount
  | _ => 0

/-- The fee an event charges. -/
def Event.feeCharged : Event → Nat
  | .inactiveDay _ _ fee _ => fee
  | _ => 0

def World.feesSwept (world : World) : Nat :=
  (world.payments.map Payment.feesSwept).sum

def World.feesCharged (world : World) : Nat :=
  (world.log.map Event.feeCharged).sum

/-- The contract holds what it owes, and no fee is lost. -/
structure Solvent (this : Address) (world : World) : Prop where
  covered : world.totalStaked + world.pendingFees ≤ world.balanceOf this
  conserved : world.pendingFees + world.feesSwept = world.feesCharged

theorem feesCharged_recordedAll (day : Nat) (world : World)
    (pids : List Pid) :
    (World.recordedAll day world pids).feesCharged =
      World.feesDue day world pids + world.feesCharged := by
  induction pids generalizing world with
  | nil => simp [World.recordedAll, World.feesDue]
  | cons first pids ih =>
      change (World.recordedAll day (World.recorded day world first)
        pids).feesCharged = _
      rw [ih, World.feesDue]
      by_cases recordable : world.Recordable day first
      · simp [World.recorded, World.feeDue, recordable, World.feesCharged,
          Event.feeCharged]
        omega
      · simp [World.recorded, World.feeDue, recordable]

/-- An outgoing transfer takes at most its amount from the contract. -/
theorem Erc20.transfer_covers {token : Token} (erc20 : Erc20 this token)
    {recipient : Address} {amount : Nat} {before after : Balances}
    (transferred : token (.transfer recipient amount) before = some after) :
    before this ≤ after this + amount := by
  obtain ⟨_, rfl⟩ := erc20.transfer_exact transferred
  by_cases same : this = recipient
  · subst same
    simp [moveTokens]
    omega
  · simp [moveTokens, same]
    omega

namespace Solvent

variable {world final : World}

theorem deploy {token admin feeRecipient : Address} {balanceOf : Balances}
    (deployed : deploy this token admin feeRecipient balanceOf = .ok world) :
    Solvent this world := by
  unfold PillarStaking.deploy at deployed
  split at deployed
  · cases deployed
  · obtain rfl := Except.ok.inj deployed
    constructor
    · simp
    · simp [World.feesSwept, World.feesCharged, Event.feeCharged]

/-- The effect of a transaction with an ERC-20 keeps the contract solvent. -/
theorem effect {tx : Tx this} (solvent : Solvent this world)
    (erc20 : Erc20 this tx.token) (effect : tx.Effect world final) :
    Solvent this final := by
  have ⟨covered, conserved⟩ := solvent
  obtain ⟨msg, call, token⟩ := tx
  simp only [World.feesSwept, World.feesCharged] at conserved
  cases call with
  | register pid amount endpoint =>
      obtain ⟨_, _, _, _, balances, _, arrived, _, _, rfl⟩ := effect
      constructor
      · simp only [World.enrolled, World.rebalanced]
        omega
      · simpa [World.feesSwept, World.feesCharged, World.enrolled,
          World.rebalanced, Event.feeCharged] using conserved
  | topUp pid amount =>
      obtain ⟨_, _, _, balances, _, arrived, _, _, rfl⟩ := effect
      constructor
      · simp only [World.toppedUp, World.rebalanced]
        omega
      · simpa [World.feesSwept, World.feesCharged, World.toppedUp,
          World.rebalanced, Event.feeCharged] using conserved
  | setEndpoint pid endpoint =>
      obtain ⟨_, _, rfl⟩ := effect
      refine ⟨covered, ?_⟩
      simpa [World.feesSwept, World.feesCharged, World.emitted,
        World.setPillar, Event.feeCharged] using conserved
  | requestUnstake pid =>
      obtain ⟨_, _, rfl⟩ := effect
      refine ⟨covered, ?_⟩
      simpa [World.feesSwept, World.feesCharged, World.emitted,
        World.setPillar, Event.feeCharged] using conserved
  | cancelUnstake pid =>
      obtain ⟨_, _, rfl⟩ := effect
      refine ⟨covered, ?_⟩
      simpa [World.feesSwept, World.feesCharged, World.emitted,
        World.setPillar, Event.feeCharged] using conserved
  | withdraw pid =>
      obtain ⟨_, _, _, backed, _, _, balances, transferred, rfl⟩ := effect
      have paid := erc20.transfer_covers transferred
      constructor
      · simp only [World.emitted, World.rebalanced, World.released]
        omega
      · simpa [World.feesSwept, World.feesCharged, World.emitted,
          World.rebalanced, World.released, Event.feeCharged,
          Payment.feesSwept] using conserved
  | recordInactive pids day =>
      obtain ⟨_, _, _, _, backed, _, rfl⟩ := effect
      have charged := feesCharged_recordedAll day world pids
      simp only [World.feesCharged] at charged
      constructor
      · simp only [World.recordedInactive, recordedAll_balanceOf]
        omega
      · simp only [World.feesSwept, World.feesCharged,
          World.recordedInactive, recordedAll_payments]
        omega
  | sweepFees =>
      obtain ⟨_, balances, transferred, rfl⟩ := effect
      have paid := erc20.transfer_covers transferred
      constructor
      · simp only [World.emitted, World.rebalanced, World.feesReleased]
        omega
      · simp [World.feesSwept, World.feesCharged, World.emitted,
          World.rebalanced, World.feesReleased, Event.feeCharged,
          Payment.feesSwept]
        omega
  | sweepExcess =>
      obtain ⟨surplus, balances, transferred, rfl⟩ := effect
      have paid := erc20.transfer_covers transferred
      constructor
      · simp only [World.emitted, World.rebalanced, World.excessReleased]
        omega
      · simpa [World.feesSwept, World.feesCharged, World.emitted,
          World.rebalanced, World.excessReleased, Event.feeCharged,
          Payment.feesSwept] using conserved
  | setFeeRecipient feeRecipient =>
      obtain ⟨_, _, _, rfl⟩ := effect
      refine ⟨covered, ?_⟩
      simpa [World.feesSwept, World.feesCharged, Event.feeCharged] using
        conserved
  | grantRole role account =>
      obtain ⟨_, rfl⟩ := effect
      exact ⟨covered, conserved⟩
  | revokeRole role account =>
      obtain ⟨_, rfl⟩ := effect
      exact ⟨covered, conserved⟩
  | renounceRole role confirmation =>
      obtain ⟨_, rfl⟩ := effect
      exact ⟨covered, conserved⟩

theorem apply {input : Input this} (solvent : Solvent this world)
    (erc20 : input.Erc20) : Solvent this (input.apply world) := by
  cases input with
  | tokenTransfer timestamp amount others =>
      have ⟨covered, conserved⟩ := solvent
      simp only [Input.apply]
      split
      · constructor
        · simp only [Function.update_self]
          omega
        · exact conserved
      · exact solvent
  | transaction tx =>
      rcases apply_transaction_cases tx world with effected | unchanged
      · exact solvent.effect erc20 effected
      · rw [unchanged]
        exact solvent

theorem runInputs {start : World} {inputs : List (Input this)}
    (solvent : Solvent this start)
    (erc20 : ∀ input ∈ inputs, input.Erc20) :
    Solvent this (runInputs start inputs) :=
  run_invariant solvent (fun _ _ erc20 solvent => solvent.apply erc20) erc20

end Solvent

section Balance

/-- The contract's balance stays a `uint256`. -/
theorem Erc20.bounded {token : Token} (erc20 : Erc20 this token)
    {request : TokenCall} {before after : Balances}
    (answered : token request before = some after)
    (bounded : before this < uint256Size) : after this < uint256Size := by
  cases request with
  | transferFrom sender amount =>
      exact (erc20.transferFrom_delivers answered).2.2
  | transfer recipient amount =>
      obtain ⟨covered, rfl⟩ := erc20.transfer_exact answered
      by_cases same : this = recipient
      · subst same
        simp only [moveTokens, Function.update_self]
        omega
      · simp only [moveTokens, Function.update_self,
          Function.update_of_ne same]
        omega

theorem Input.Erc20.bounded {input : Input this} {world : World}
    (erc20 : input.Erc20) (bounded : world.balanceOf this < uint256Size) :
    (input.apply world).balanceOf this < uint256Size := by
  cases input with
  | tokenTransfer timestamp amount others =>
      simp only [Input.apply]
      split
      · rename_i fits
        simpa only [Function.update_self] using fits
      · exact bounded
  | transaction tx =>
      rcases apply_transaction_cases tx world with effected | unchanged
      · rcases effected.balances with same | ⟨request, answered⟩
        · rw [same]
          exact bounded
        · exact PillarStaking.Erc20.bounded erc20 answered bounded
      · rw [unchanged]
        exact bounded

theorem balance_bounded {token admin feeRecipient : Address}
    {balanceOf : Balances} {start : World} {inputs : List (Input this)}
    (deployed : deploy this token admin feeRecipient balanceOf = .ok start)
    (initially : balanceOf this < uint256Size)
    (erc20 : ∀ input ∈ inputs, input.Erc20) :
    (runInputs start inputs).balanceOf this < uint256Size := by
  induction inputs with
  | nil =>
      unfold PillarStaking.deploy at deployed
      split at deployed
      · cases deployed
      · obtain rfl := Except.ok.inj deployed
        exact initially
  | cons input inputs ih =>
      apply (erc20 input (by simp)).bounded
      exact ih fun earlier member => erc20 earlier (by simp [member])

end Balance

/-- A sweep changes no Pillar, in any world. -/
theorem sweep_pillars (msg : Msg this) (token : Token) (world : World)
    {call : Call} (sweep : call = .sweepFees ∨ call = .sweepExcess) :
    (Input.apply (.transaction ⟨msg, call, token⟩) world).pillars =
      world.pillars := by
  rcases apply_transaction_cases ⟨msg, call, token⟩ world with
    effected | unchanged
  · rcases sweep with rfl | rfl
    · obtain ⟨_, balances, _, finalEq⟩ := effected
      rw [← finalEq]
      rfl
    · obtain ⟨_, balances, _, finalEq⟩ := effected
      rw [← finalEq]
      rfl
  · rw [unchanged]

/-- The subtractions of `sweepExcess` do not underflow in a solvent world. -/
theorem Solvent.sweepExcess_ne_panic {world : World}
    (solvent : Solvent this world) (msg : Msg this) (token : Token) :
    Tx.execute ⟨msg, .sweepExcess, token⟩ world ≠
      .error (.reverted .panic) := by
  have covered := solvent.covered
  have enough : ¬ world.balanceOf this < world.totalStaked := by omega
  have remaining : ¬ world.balanceOf this - world.totalStaked <
      world.pendingFees := by omega
  simp only [Tx.execute, Call.code, sweepExcess, checkedSub, safeTransfer,
    emit, nonReentrant, seq_apply, read_apply, revertIf_apply, pure_apply,
    Outcome.bind, enough, remaining, if_false, Bool.false_eq_true]
  by_cases nothing :
      world.balanceOf this - world.totalStaked - world.pendingFees = 0
  · simp [nothing, Outcome.bind, Outcome.settle]
  · simp only [nothing, if_false, seq_apply, read_apply, modify_apply, call,
      Outcome.bind, Outcome.settle]
    cases answer token _ _ <;> simp

/-- Solvency.  In every state reached from a deployment the total is the sum of
the stakes of the registered PIDs, the contract's balance covers the total and
the pending fees, so that `sweepExcess` does not underflow, the fees ever
charged are those pending and those swept, and no sweep changes a stake. -/
theorem solvency {token admin feeRecipient : Address} {balanceOf : Balances}
    {start : World} {inputs : List (Input this)}
    (deployed : deploy this token admin feeRecipient balanceOf = .ok start)
    (erc20 : ∀ input ∈ inputs, input.Erc20) :
    let world := runInputs start inputs
    world.totalStaked =
        ∑ pid with world.Registered pid, (world.pillars pid).staked ∧
      world.totalStaked + world.pendingFees ≤ world.balanceOf this ∧
      (∀ (msg : Msg this) (token : Token),
        Tx.execute ⟨msg, .sweepExcess, token⟩ world ≠
          .error (.reverted .panic)) ∧
      world.pendingFees + world.feesSwept = world.feesCharged ∧
      ∀ (msg : Msg this) (token : Token) (call : Call),
        call = .sweepFees ∨ call = .sweepExcess →
        ∀ pid, ((Input.apply (.transaction ⟨msg, call, token⟩) world).pillars
          pid).staked = (world.pillars pid).staked := by
  intro world
  have solvent := (Solvent.deploy deployed).runInputs erc20
  refine ⟨(sound_runInputs deployed inputs).totalStaked_registered,
    solvent.covered, solvent.sweepExcess_ne_panic, solvent.conserved, ?_⟩
  intro msg token call sweep pid
  rw [sweep_pillars msg token world sweep]

/-- A fee has been charged and is still pending. -/
theorem solvency_charged :
    let world := runInputs fundedWorld chargedRun
    world.pendingFees = ether ∧
      world.totalStaked =
        ∑ pid with world.Registered pid, (world.pillars pid).staked ∧
      world.totalStaked + world.pendingFees ≤ world.balanceOf 1 ∧
      world.pendingFees + world.feesSwept = world.feesCharged := by
  obtain ⟨total, covered, _, conserved, _⟩ :=
    solvency deploy_fundedWorld chargedRun_erc20
  exact ⟨by decide +kernel, total, covered, conserved⟩

end PillarStaking

end RefinetPillars
