import RefinetPillars.PillarStakingInvariant

/-!
# The staking contract against a hostile token

During its external calls the contract may be called back by anybody, with any
nesting.  The guarded entry points then revert, and the others keep every
registration and every stake.  This is the guard discipline under which the
storage invariant holds whenever control is outside the contract.
-/

namespace RefinetPillars

namespace PillarStaking

open ReentrantCode

variable {this : Address}

/-- A call together with its sender and time. -/
abbrev Entry (this : Address) : Type := Msg this × Call

def Entry.code (this : Address) (entry : Entry this) : ContractCode Unit :=
  entry.2.code entry.1

/-- What the token may change on its own: the balances it reports. -/
def Rebalances (world changed : World) : Prop :=
  ∃ balances, changed = world.rebalanced balances

/-- What calls may not change while the guard is held. -/
def KeepsStakes (before after : World) : Prop :=
  ∀ pid, (after.pillars pid).operator = (before.pillars pid).operator ∧
    (after.pillars pid).staked = (before.pillars pid).staked

theorem KeepsStakes.refl (world : World) : KeepsStakes world world :=
  fun _ => ⟨rfl, rfl⟩

theorem KeepsStakes.trans {first middle last : World}
    (earlier : KeepsStakes first middle) (later : KeepsStakes middle last) :
    KeepsStakes first last :=
  fun pid => ⟨(later pid).1.trans (earlier pid).1,
    (later pid).2.trans (earlier pid).2⟩

theorem KeepsStakes.registered_iff {before after : World}
    (kept : KeepsStakes before after) (pid : Pid) :
    after.Registered pid ↔ before.Registered pid := by
  rw [Storage.Registered, Storage.Registered, (kept pid).1]

theorem KeepsStakes.amended {world : World} {pid : Pid} {pillar : Pillar}
    {event : Event}
    (sameOperator : pillar.operator = (world.pillars pid).operator)
    (sameStake : pillar.staked = (world.pillars pid).staked) :
    KeepsStakes world ((world.setPillar pid pillar).emitted event) := by
  intro other
  by_cases same : other = pid
  · subst same
    simpa [World.emitted, World.setPillar] using ⟨sameOperator, sameStake⟩
  · simp [World.emitted, World.setPillar, same]

/-- The entry points declared `nonReentrant`. -/
def Call.guarded : Call → Bool
  | .register .. | .topUp .. | .withdraw .. | .recordInactive .. |
    .sweepFees | .sweepExcess => true
  | _ => false

section Calls

variable {world : World} {entered : Bool}
  {rely : Guarded World → Guarded World → Prop}
  {exit : Guarded World → Prop}

/-- Guarded entry points revert while the guard is held. -/
theorem ensures_guarded_held (msg : Msg this) {call : Call}
    (guarded : call.guarded = true)
    {post : Unit → Guarded World → Prop} :
    (call.code msg ⟨world, true⟩).Ensures rely exit post := by
  cases call with
  | register => simp [Call.code, register]
  | topUp => simp [Call.code, topUp]
  | withdraw => simp [Call.code, withdraw]
  | recordInactive => simp [Call.code, recordInactive, onlyRole]
  | sweepFees => simp [Call.code, sweepFees]
  | sweepExcess => simp [Call.code, sweepExcess]
  | _ => cases guarded

/-- The other entry points make no external call and keep all stakes. -/
theorem ensures_unguarded (msg : Msg this) {call : Call}
    (unguarded : call.guarded = false) (sound : Sound world) :
    (call.code msg ⟨world, entered⟩).Ensures rely exit fun _ final =>
      final.entered = entered ∧ Sound final.world ∧
        KeepsStakes world final.world := by
  cases call with
  | setEndpoint pid endpoint =>
      simp only [Call.code, setEndpoint, operatorPillar, modifyPillar, emit,
        ensures_seq, ensures_read, ensures_revertIf, ensures_pure,
        ensures_modify]
      intro registered _ _
      exact ⟨trivial, sound.amended registered rfl rfl rfl,
        KeepsStakes.amended rfl rfl⟩
  | requestUnstake pid =>
      simp only [Call.code, requestUnstake, operatorPillar, modifyPillar, emit,
        ensures_seq, ensures_read, ensures_revertIf, ensures_pure,
        ensures_modify]
      intro registered _ _
      exact ⟨trivial, sound.amended registered rfl rfl rfl,
        KeepsStakes.amended rfl rfl⟩
  | cancelUnstake pid =>
      simp only [Call.code, cancelUnstake, operatorPillar, modifyPillar, emit,
        ensures_seq, ensures_read, ensures_revertIf, ensures_pure,
        ensures_modify]
      intro registered _ _
      exact ⟨trivial, sound.amended registered rfl rfl rfl,
        KeepsStakes.amended rfl rfl⟩
  | setFeeRecipient feeRecipient =>
      simp only [Call.code, setFeeRecipient, onlyRole, emit, ensures_seq,
        ensures_read, ensures_revertIf, ensures_modify]
      intro _ _
      exact ⟨trivial, sound.feeRecipientSet feeRecipient, KeepsStakes.refl world⟩
  | grantRole role account =>
      simp only [Call.code, grantRole, onlyRole, setRole, ensures_seq,
        ensures_read, ensures_revertIf, ensures_modify]
      intro _
      exact ⟨trivial, sound.roleSet role account true, KeepsStakes.refl world⟩
  | revokeRole role account =>
      simp only [Call.code, revokeRole, onlyRole, setRole, ensures_seq,
        ensures_read, ensures_revertIf, ensures_modify]
      intro _
      exact ⟨trivial, sound.roleSet role account false, KeepsStakes.refl world⟩
  | renounceRole role confirmation =>
      simp only [Call.code, renounceRole, setRole, ensures_seq,
        ensures_revertIf, ensures_modify]
      intro _
      exact ⟨trivial, sound.roleSet role msg.sender false, KeepsStakes.refl world⟩
  | _ => cases unguarded

theorem ensures_register (msg : Msg this) {pid : Pid} {amount : Nat}
    {endpoint : List UInt8} (sound : Sound world) :
    (register msg pid amount endpoint ⟨world, false⟩).Ensures
      (Returns Sound KeepsStakes) (Exits Sound) fun _ => Ends Sound := by
  simp only [register, pull, checkedSub, checkedAdd, modifyPillar,
    setTotalStaked, emit, ensures_nonReentrant, ensures_seq, ensures_read,
    ensures_revertIf, ensures_pure, ensures_modify, ensures_call]
  intro _ nonzero unregistered _ _
  refine ⟨⟨rfl, sound⟩, ?_⟩
  rintro ⟨returned, entered⟩ ⟨_, returnedSound, kept⟩ _ enough _
  have absent : ¬ returned.Registered pid := by
    rw [kept.registered_iff pid]
    exact unregistered
  exact ⟨rfl, returnedSound.enrolled nonzero absent (not_lt.mp enough)⟩

theorem ensures_topUp (msg : Msg this) {pid : Pid} {amount : Nat}
    (sound : Sound world) :
    (topUp msg pid amount ⟨world, false⟩).Ensures
      (Returns Sound KeepsStakes) (Exits Sound) fun _ => Ends Sound := by
  simp only [topUp, operatorPillar, pull, checkedSub, checkedAdd,
    modifyPillar, setTotalStaked, emit, ensures_nonReentrant, ensures_seq,
    ensures_read, ensures_revertIf, ensures_pure, ensures_modify,
    ensures_call]
  intro _ registered _ _ _
  refine ⟨⟨rfl, sound⟩, ?_⟩
  -- The second check of the request is made in the state after the callback.
  rintro ⟨returned, entered⟩ ⟨_, returnedSound, kept⟩ _ idle _ _
  have standing : returned.Registered pid := by
    rw [kept.registered_iff pid]
    exact registered
  exact ⟨rfl, returnedSound.toppedUp standing (not_not.mp idle) _⟩

theorem ensures_withdraw (msg : Msg this) {pid : Pid} (sound : Sound world) :
    (withdraw msg pid ⟨world, false⟩).Ensures
      (Returns Sound KeepsStakes) (Exits Sound) fun _ => Ends Sound := by
  simp only [withdraw, operatorPillar, removePid, safeTransfer, checkedSub,
    modifyPillar, setTotalStaked, emit, ensures_nonReentrant, ensures_seq,
    ensures_read, ensures_revertIf, ensures_pure, ensures_modify,
    ensures_call]
  intro _ registered _ _ _ _ _ _
  refine ⟨⟨rfl, sound.released registered⟩, ?_⟩
  rintro ⟨returned, entered⟩ ⟨_, returnedSound, _⟩
  exact ⟨rfl, returnedSound.emitted rfl⟩

theorem ensures_recordInactive (msg : Msg this) {pids : List Pid} {day : Nat}
    (sound : Sound world) :
    (recordInactive msg pids day ⟨world, false⟩).Ensures
      (Returns Sound KeepsStakes) (Exits Sound) fun _ => Ends Sound := by
  have recorded := sound.recordedInactive day pids
  simp only [recordInactive, onlyRole, ensures_nonReentrant, ensures_seq,
    ensures_read, ensures_revertIf, ensures_recordLoop]
  intro _ _ _ _
  by_cases charged : 0 < World.feesDue day world pids
  · simp only [charged, if_true, checkedSub, checkedAdd, setTotalStaked,
      setPendingFees, ensures_seq, ensures_read, ensures_revertIf,
      ensures_pure, ensures_modify, recordedAll_totalStaked,
      recordedAll_pendingFees]
    intro _ _
    exact ⟨rfl, recorded⟩
  · have free : World.feesDue day world pids = 0 := by omega
    simp only [charged, if_false, ensures_pure]
    simp only [World.recordedInactive, free] at recorded
    refine ⟨rfl, ?_⟩
    obtain ⟨_, _, _, frame⟩ := recordedAll_frame day world pids
    simpa [frame] using recorded

theorem ensures_sweepFees (sound : Sound world) :
    (sweepFees ⟨world, false⟩).Ensures
      (Returns Sound KeepsStakes) (Exits Sound) fun _ => Ends Sound := by
  simp only [sweepFees, safeTransfer, setPendingFees, emit,
    ensures_nonReentrant, ensures_seq, ensures_read, ensures_revertIf,
    ensures_modify, ensures_call]
  intro _ _
  refine ⟨⟨rfl, sound.feesReleased⟩, ?_⟩
  rintro ⟨returned, entered⟩ ⟨_, returnedSound, _⟩
  exact ⟨rfl, returnedSound.emitted rfl⟩

theorem ensures_sweepExcess (sound : Sound world) :
    (sweepExcess this ⟨world, false⟩).Ensures
      (Returns Sound KeepsStakes) (Exits Sound) fun _ => Ends Sound := by
  simp only [sweepExcess, safeTransfer, checkedSub, emit,
    ensures_nonReentrant, ensures_seq, ensures_read, ensures_revertIf,
    ensures_pure, ensures_modify, ensures_call]
  intro _ _ _ _
  refine ⟨⟨rfl, sound.excessReleased _⟩, ?_⟩
  rintro ⟨returned, entered⟩ ⟨_, returnedSound, _⟩
  exact ⟨rfl, returnedSound.emitted rfl⟩

end Calls

/-- The guard of the contract protects its storage invariant. -/
theorem guardDiscipline :
    GuardDiscipline (Entry.code this) Rebalances Sound
      KeepsStakes where
  rely_refl := KeepsStakes.refl
  rely_trans := KeepsStakes.trans
  disturbed := by
    rintro world changed sound ⟨balances, rfl⟩
    exact ⟨sound.rebalanced balances, KeepsStakes.refl world⟩
  held entry world sound := by
    obtain ⟨msg, call⟩ := entry
    by_cases guarded : call.guarded = true
    · exact ensures_guarded_held msg guarded
    · exact ensures_unguarded msg (Bool.not_eq_true _ ▸ guarded) sound
  free entry world sound := by
    obtain ⟨msg, call⟩ := entry
    have unguarded : call.guarded = false →
        (Entry.code this (msg, call) ⟨world, false⟩).Ensures
          (Returns Sound KeepsStakes) (Exits Sound) fun _ => Ends Sound := by
      intro unguarded
      apply (ensures_unguarded msg unguarded sound).mono
      rintro _ final ⟨entered, kept, _⟩
      exact ⟨entered, kept⟩
    cases call with
    | register => exact ensures_register msg sound
    | topUp => exact ensures_topUp msg sound
    | withdraw => exact ensures_withdraw msg sound
    | recordInactive => exact ensures_recordInactive msg sound
    | sweepFees => exact ensures_sweepFees sound
    | sweepExcess => exact ensures_sweepExcess sound
    | _ => exact unguarded rfl

section Safety

/-- The machine at a fresh deployment. -/
def idleMachine (world : World) : Machine World Error TokenCall :=
  ⟨⟨world, false⟩, []⟩

/-- The storage invariant holds whenever control is outside the contract. -/
theorem sound_of_reaches {token admin feeRecipient : Address}
    {balanceOf : Balances} {start : World}
    {machine : Machine World Error TokenCall}
    (deployed : deploy this token admin feeRecipient balanceOf = .ok start)
    (reached : (idleMachine start).Reaches (Entry.code this)
      Rebalances machine) :
    Sound machine.state.world := by
  have idle : (idleMachine start).Disciplined Sound KeepsStakes :=
    .idle ⟨rfl, sound_deploy deployed⟩
  exact (guardDiscipline.reaches idle reached).good

/-- Reentrancy safety.  Whatever a hostile token calls, with any nesting, at
every moment at which control is outside the contract the total is the sum of
the stakes, the directory lists the registered PIDs, and every stake is above
the floor; the newest deposit went to a Pillar without a pending unstake; and
every registration has been paid back at most once, and not while it stands. -/
theorem reentrancy_safe {token admin feeRecipient : Address}
    {balanceOf : Balances} {start : World}
    {machine : Machine World Error TokenCall}
    (deployed : deploy this token admin feeRecipient balanceOf = .ok start)
    (reached : (idleMachine start).Reaches (Entry.code this)
      Rebalances machine) :
    let world := machine.state.world
    world.totalStaked =
        ∑ pid with world.Registered pid, (world.pillars pid).staked ∧
      (∀ pid, world.Registered pid ↔ pid ≠ 0 ∧ pid ∈ world.pids) ∧
      (∀ pid, pid ≠ 0 → ∀ index,
        world.pids[index]? = some pid ↔
          world.pidIndexPlusOne pid = index + 1) ∧
      (∀ pid, ¬ world.Registered pid → world.pidIndexPlusOne pid = 0) ∧
      (∀ pid, world.Registered pid →
        feeFloor ≤ (world.pillars pid).staked) ∧
      (∀ event ∈ world.log.head?, ∀ pid ∈ event.credited,
        (world.pillars pid).unstakeRequestedAt = 0) ∧
      ∀ pid,
        world.payments.countP (·.returnsStake pid) +
            (if world.Registered pid then 1 else 0) =
          world.log.countP (·.registers pid) := by
  intro world
  have sound : Sound world := sound_of_reaches deployed reached
  refine ⟨sound.totalStaked_registered, fun pid => sound.registered_iff_mem,
    fun pid nonzero index => sound.indexed.slot_iff nonzero, ?_,
    sound.floor, sound.credit, ?_⟩
  · intro pid unregistered
    by_contra mapped
    exact unregistered ((sound.registered_iff pid).mpr mapped)
  · intro pid
    rw [← sound.receipts pid]
    by_cases registered : world.Registered pid
    · rw [if_pos registered, if_neg registered]
    · rw [if_neg registered, if_pos (not_not.mp registered)]

/-- A first registration is suspended in the token, which takes the chance to
report other balances. -/
theorem reentrancy_safe_suspended :
    ∃ (start : World) (machine : Machine World Error TokenCall),
      deploy 1 2 3 4 (fun _ => 0) = .ok start ∧
        (idleMachine start).Reaches (Entry.code 1) Rebalances
          machine ∧
        machine.stack.length = 1 ∧
        machine.state.world.totalStaked =
          ∑ pid with machine.state.world.Registered pid,
            (machine.state.world.pillars pid).staked := by
  obtain ⟨start, deployed⟩ :
      ∃ start, deploy 1 2 3 4 (fun _ => 0) = .ok start := ⟨_, rfl⟩
  obtain ⟨final, resume, exits⟩ : ∃ final resume,
      Entry.code 1 (⟨5, 86400, by decide, by decide⟩,
          .register 1 threshold []) ⟨start, false⟩ =
        .external (.transferFrom 5 threshold) final resume := by
    obtain rfl := Except.ok.inj deployed
    exact ⟨_, _, rfl⟩
  have suspended : (idleMachine start).Reaches (Entry.code 1) Rebalances
      ⟨final, [⟨⟨start, false⟩, resume⟩]⟩ :=
    .single (.callExits _ exits)
  have reached := suspended.tail (.disturb ⟨fun _ => 7, rfl⟩)
  exact ⟨start, _, deployed, reached, rfl,
    (reentrancy_safe deployed reached).1⟩

end Safety

end PillarStaking

end RefinetPillars
