import RefinetPillars.PillarStakingAuthority

/-!
# Custody of the deposits

What was deposited is staked, pending as a fee, or paid out; and every payment
of a run was due when it was made, to an operator who withdrew or to the fee
recipient.
-/

namespace RefinetPillars

namespace PillarStaking

open RunHistory

variable {this : Address}

/-- What a payment takes from the deposits. -/
def Payment.drawn : Payment → Nat
  | .stake _ _ amount | .fees _ amount => amount
  | .excess _ _ => 0

def World.deposited (world : World) : Nat :=
  (world.log.map Event.deposited).sum

def World.drawn (world : World) : Nat :=
  (world.payments.map Payment.drawn).sum

/-- A payment that a transaction owes in the world it meets. -/
inductive Due (tx : Tx this) (world : World) : Payment → Prop
  | stake {pid : Pid} (call : tx.call = .withdraw pid)
      (operated : world.OperatedBy tx.msg pid)
      (pending : (world.pillars pid).unstakeRequestedAt ≠ 0)
      (cooled : (world.pillars pid).unstakeRequestedAt + cooldown ≤
        tx.msg.timestamp) :
      Due tx world (.stake pid tx.msg.sender (world.pillars pid).staked)
  | fees (call : tx.call = .sweepFees) (charged : world.pendingFees ≠ 0) :
      Due tx world (.fees world.feeRecipient world.pendingFees)
  | excess (call : tx.call = .sweepExcess)
      (surplus : world.totalStaked + world.pendingFees <
        world.balanceOf this) :
      Due tx world (.excess world.feeRecipient
        (world.balanceOf this - world.totalStaked - world.pendingFees))

/-- The token made the payment. -/
def Paid (tx : Tx this) (world final : World) (payment : Payment) : Prop :=
  tx.token (.transfer payment.recipient payment.amount) world.balanceOf =
    some final.balanceOf

/-- The accounts between deposits and payments balance, and nobody is paid at
the zero address or at the contract's own. -/
structure Custodial (this : Address) (world : World) : Prop where
  balanced : world.deposited =
    world.totalStaked + world.pendingFees + world.drawn
  recipient_ne_zero : world.feeRecipient ≠ 0
  recipient_ne_this : world.feeRecipient ≠ this
  payees : ∀ payment ∈ world.payments,
    payment.recipient ≠ 0 ∧ payment.recipient ≠ this

theorem Due.recipient {tx : Tx this} {world : World} {payment : Payment}
    (due : Due tx world payment) (custodial : Custodial this world) :
    payment.recipient ≠ 0 ∧ payment.recipient ≠ this := by
  cases due with
  | stake => exact ⟨tx.msg.sender_ne_zero, tx.msg.sender_ne_this⟩
  | fees => exact ⟨custodial.recipient_ne_zero, custodial.recipient_ne_this⟩
  | excess => exact ⟨custodial.recipient_ne_zero, custodial.recipient_ne_this⟩

variable {world final : World}

/-- Recording days deposits nothing. -/
theorem deposited_recordedAll (day : Nat) (world : World) (pids : List Pid) :
    (World.recordedAll day world pids).deposited = world.deposited := by
  obtain ⟨events, logEq, inactive⟩ := recordedAll_log day world pids
  have none : (events.map Event.deposited).sum = 0 := by
    rw [List.sum_eq_zero_iff]
    intro amount member
    obtain ⟨event, isEvent, rfl⟩ := List.mem_map.mp member
    obtain ⟨pid, fee, staked, rfl⟩ := inactive event isEvent
    rfl
  simp [World.deposited, logEq, none]

/-- A transaction either pays nothing or makes one payment that is due. -/
theorem Tx.Effect.payments {tx : Tx this} (effect : tx.Effect world final) :
    final.payments = world.payments ∨
      ∃ payment, final.payments = payment :: world.payments ∧
        Due tx world payment ∧ Paid tx world final payment := by
  obtain ⟨msg, call, token⟩ := tx
  cases call with
  | register pid amount endpoint =>
      obtain ⟨_, _, _, _, _, _, _, _, _, rfl⟩ := effect
      exact Or.inl rfl
  | topUp pid amount =>
      obtain ⟨_, _, _, _, _, _, _, _, rfl⟩ := effect
      exact Or.inl rfl
  | setEndpoint pid endpoint =>
      obtain ⟨_, _, rfl⟩ := effect
      exact Or.inl rfl
  | requestUnstake pid =>
      obtain ⟨_, _, rfl⟩ := effect
      exact Or.inl rfl
  | cancelUnstake pid =>
      obtain ⟨_, _, rfl⟩ := effect
      exact Or.inl rfl
  | withdraw pid =>
      obtain ⟨operated, pending, cooled, _, _, _, balances, transferred,
        rfl⟩ := effect
      refine Or.inr ⟨_, rfl, ?_, transferred⟩
      rw [operated.2]
      exact .stake rfl operated pending cooled
  | recordInactive pids day =>
      obtain ⟨_, _, _, _, _, _, rfl⟩ := effect
      exact Or.inl (recordedAll_payments day world pids)
  | sweepFees =>
      obtain ⟨charged, balances, transferred, rfl⟩ := effect
      exact Or.inr ⟨_, rfl, .fees rfl charged, transferred⟩
  | sweepExcess =>
      obtain ⟨surplus, balances, transferred, rfl⟩ := effect
      exact Or.inr ⟨_, rfl, .excess rfl surplus, transferred⟩
  | setFeeRecipient feeRecipient =>
      obtain ⟨_, _, _, rfl⟩ := effect
      exact Or.inl rfl
  | grantRole role account =>
      obtain ⟨_, rfl⟩ := effect
      exact Or.inl rfl
  | revokeRole role account =>
      obtain ⟨_, rfl⟩ := effect
      exact Or.inl rfl
  | renounceRole role confirmation =>
      obtain ⟨_, rfl⟩ := effect
      exact Or.inl rfl

/-- A transaction keeps the balance between deposits and payments. -/
theorem Tx.Effect.balanced {tx : Tx this} (effect : tx.Effect world final)
    (balanced : world.deposited =
      world.totalStaked + world.pendingFees + world.drawn) :
    final.deposited = final.totalStaked + final.pendingFees + final.drawn := by
  obtain ⟨msg, call, token⟩ := tx
  simp only [World.deposited, World.drawn] at balanced
  cases call with
  | register pid amount endpoint =>
      obtain ⟨_, _, _, _, _, _, _, _, _, rfl⟩ := effect
      simp [World.deposited, World.drawn, World.enrolled, World.rebalanced,
        Event.deposited]
      omega
  | topUp pid amount =>
      obtain ⟨_, _, _, _, _, _, _, _, rfl⟩ := effect
      simp [World.deposited, World.drawn, World.toppedUp, World.rebalanced,
        Event.deposited]
      omega
  | setEndpoint pid endpoint =>
      obtain ⟨_, _, rfl⟩ := effect
      simpa [World.deposited, World.drawn, World.emitted, World.setPillar,
        Event.deposited] using balanced
  | requestUnstake pid =>
      obtain ⟨_, _, rfl⟩ := effect
      simpa [World.deposited, World.drawn, World.emitted, World.setPillar,
        Event.deposited] using balanced
  | cancelUnstake pid =>
      obtain ⟨_, _, rfl⟩ := effect
      simpa [World.deposited, World.drawn, World.emitted, World.setPillar,
        Event.deposited] using balanced
  | withdraw pid =>
      obtain ⟨_, _, _, backed, _, _, _, _, rfl⟩ := effect
      simp [World.deposited, World.drawn, World.emitted, World.rebalanced,
        World.released, Event.deposited, Payment.drawn]
      omega
  | recordInactive pids day =>
      obtain ⟨_, _, _, _, backed, _, rfl⟩ := effect
      have deposited := deposited_recordedAll day world pids
      simp only [World.deposited] at deposited
      simp only [World.deposited, World.drawn, World.recordedInactive,
        recordedAll_payments]
      omega
  | sweepFees =>
      obtain ⟨_, _, _, rfl⟩ := effect
      simp [World.deposited, World.drawn, World.emitted, World.rebalanced,
        World.feesReleased, Event.deposited, Payment.drawn]
      omega
  | sweepExcess =>
      obtain ⟨_, _, _, rfl⟩ := effect
      simpa [World.deposited, World.drawn, World.emitted, World.rebalanced,
        World.excessReleased, Event.deposited, Payment.drawn] using balanced
  | setFeeRecipient feeRecipient =>
      obtain ⟨_, _, _, rfl⟩ := effect
      simpa [World.deposited, World.drawn, Event.deposited] using balanced
  | grantRole role account =>
      obtain ⟨_, rfl⟩ := effect
      exact balanced
  | revokeRole role account =>
      obtain ⟨_, rfl⟩ := effect
      exact balanced
  | renounceRole role confirmation =>
      obtain ⟨_, rfl⟩ := effect
      exact balanced

namespace Custodial

theorem deploy {token admin feeRecipient : Address} {balanceOf : Balances}
    (deployed : deploy this token admin feeRecipient balanceOf = .ok world) :
    Custodial this world := by
  unfold PillarStaking.deploy at deployed
  split at deployed
  · cases deployed
  · rename_i allowed
    push Not at allowed
    obtain rfl := Except.ok.inj deployed
    constructor
    case balanced => simp [World.deposited, World.drawn, Event.deposited]
    case recipient_ne_zero => exact allowed.2.2.1
    case recipient_ne_this => exact allowed.2.2.2
    case payees => simp

theorem effect {tx : Tx this} (custodial : Custodial this world)
    (effect : tx.Effect world final) : Custodial this final := by
  have recipient : final.feeRecipient ≠ 0 ∧ final.feeRecipient ≠ this := by
    rcases effect.authority with ⟨_, same⟩ | ⟨_, _, _, _, rfl⟩ |
      ⟨sets, _⟩
    · rw [same]
      exact ⟨custodial.recipient_ne_zero, custodial.recipient_ne_this⟩
    · exact ⟨custodial.recipient_ne_zero, custodial.recipient_ne_this⟩
    · generalize final.feeRecipient = named at sets
      cases sets with
      | set call isAdmin nonzero foreign => exact ⟨nonzero, foreign⟩
  refine ⟨effect.balanced custodial.balanced, recipient.1, recipient.2, ?_⟩
  rcases effect.payments with same | ⟨payment, paymentsEq, due, _⟩
  · rw [same]
    exact custodial.payees
  · rw [paymentsEq]
    intro member isMember
    rcases List.mem_cons.mp isMember with rfl | earlier
    · exact due.recipient custodial
    · exact custodial.payees member earlier

theorem apply (custodial : Custodial this world) (input : Input this) :
    Custodial this (input.apply world) := by
  cases input with
  | tokenTransfer timestamp amount others =>
      simp only [Input.apply]
      split
      · exact ⟨custodial.balanced, custodial.recipient_ne_zero,
          custodial.recipient_ne_this, custodial.payees⟩
      · exact custodial
  | transaction tx =>
      rcases apply_transaction_cases tx world with effected | unchanged
      · exact custodial.effect effected
      · rw [unchanged]
        exact custodial

end Custodial

/-- The payments of a run come from its transactions, one from each that
pays. -/
theorem exists_payment_of_append {start : World} (fresh : start.payments = [])
    {inputs : List (Input this)} {newer older : List Payment}
    {payment : Payment}
    (split : (runInputs start inputs).payments = newer ++ payment :: older) :
    ∃ tx moment, .transaction tx :: moment <:+ inputs ∧
      (runInputs start moment).payments = older ∧
      (runInputs start (.transaction tx :: moment)).payments =
        payment :: older ∧
      Due tx (runInputs start moment) payment ∧
      Paid tx (runInputs start moment)
        (runInputs start (.transaction tx :: moment)) payment := by
  induction inputs generalizing newer with
  | nil =>
      rw [runInputs, run_nil, fresh] at split
      cases newer <;> cases split
  | cons input inputs ih =>
      have extended {newer : List Payment} (same : (runInputs start inputs).payments =
          newer ++ payment :: older) :
          ∃ tx moment, .transaction tx :: moment <:+ input :: inputs ∧
            (runInputs start moment).payments = older ∧
            (runInputs start (.transaction tx :: moment)).payments =
              payment :: older ∧
            Due tx (runInputs start moment) payment ∧
            Paid tx (runInputs start moment)
              (runInputs start (.transaction tx :: moment)) payment := by
        obtain ⟨tx, moment, suffix, rest⟩ := ih same
        exact ⟨tx, moment, suffix.trans (List.suffix_cons input inputs), rest⟩
      rw [runInputs, run_cons] at split
      cases input with
      | tokenTransfer timestamp amount others =>
          have same : (runInputs start inputs).payments =
              newer ++ payment :: older := by
            rw [← split]
            simp only [Input.apply]
            split <;> rfl
          exact extended same
      | transaction tx =>
          rcases apply_transaction_cases tx (runInputs start inputs) with
            effect | unchanged
          · rcases effect.payments with same |
              ⟨newest, paymentsEq, due, paid⟩
            · exact extended (same.symm.trans split)
            · rw [paymentsEq] at split
              cases newer with
              | nil =>
                  obtain ⟨rfl, olderEq⟩ := List.cons.inj split
                  exact ⟨tx, inputs, List.suffix_refl _, olderEq,
                    paymentsEq.trans (by rw [olderEq]), due, paid⟩
              | cons first newer => exact extended (List.cons.inj split).2
          · rw [unchanged] at split
            exact extended split

end PillarStaking

end RefinetPillars
