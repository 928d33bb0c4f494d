import Mathlib
import RefinetPillars.PillarStakingTransaction

/-!
# Recording inactive days

The loop of `recordInactive` as a fold of world updates.  The code of the loop
is proved equal to the fold, so that its effect is available without unfolding
the code again.
-/

namespace RefinetPillars

namespace PillarStaking

open ReentrantCode

/-- The fee for recording a day: nothing inside the unstaking stretch, and
otherwise at most one REFI and never below the floor. -/
def Pillar.feeDue (pillar : Pillar) (day : Nat) : Nat :=
  if pillar.UnstakingThatDay day then 0
  else if feeFloor < pillar.staked then
    if pillar.staked - feeFloor < feePerDay then pillar.staked - feeFloor
    else feePerDay
  else 0

/-- The Pillar after a day has been recorded for it. -/
def Pillar.recorded (pillar : Pillar) (day : Nat) : Pillar :=
  if pillar.UnstakingThatDay day then pillar
  else
    { pillar with
      lastInactiveDay :=
        if pillar.lastInactiveDay < day then day else pillar.lastInactiveDay
      staked := pillar.staked - pillar.feeDue day }

/-- Whether the loop of `recordInactive` records the day for the PID. -/
def World.Recordable (world : World) (day : Nat) (pid : Pid) : Prop :=
  world.Registered pid ∧ (world.pillars pid).registrationDay < day ∧
    world.inactiveRecorded pid day = false

instance (world : World) (day : Nat) (pid : Pid) :
    Decidable (world.Recordable day pid) :=
  inferInstanceAs (Decidable (_ ∧ _ ∧ _))

def World.feeDue (world : World) (day : Nat) (pid : Pid) : Nat :=
  if world.Recordable day pid then (world.pillars pid).feeDue day else 0

/-- One round of the recording loop, apart from the running total. -/
def World.recorded (day : Nat) (world : World) (pid : Pid) : World :=
  if world.Recordable day pid then
    { world with
      pillars :=
        Function.update world.pillars pid ((world.pillars pid).recorded day)
      inactiveRecorded :=
        Function.update world.inactiveRecorded pid
          (Function.update (world.inactiveRecorded pid) day true)
      log := .inactiveDay pid day ((world.pillars pid).feeDue day)
        ((world.pillars pid).staked - (world.pillars pid).feeDue day) ::
          world.log }
  else world

/-- The whole recording loop, apart from the running total. -/
def World.recordedAll (day : Nat) (world : World) (pids : List Pid) : World :=
  pids.foldl (World.recorded day) world

/-- The total the recording loop charges. -/
def World.feesDue (day : Nat) : World → List Pid → Nat
  | _, [] => 0
  | world, pid :: pids =>
      world.feeDue day pid + feesDue day (World.recorded day world pid) pids

theorem Pillar.feeDue_le (pillar : Pillar) (day : Nat) :
    pillar.feeDue day ≤ pillar.staked - feeFloor := by
  unfold Pillar.feeDue
  split_ifs <;> omega

theorem Pillar.feeDue_le_feePerDay (pillar : Pillar) (day : Nat) :
    pillar.feeDue day ≤ feePerDay := by
  unfold Pillar.feeDue
  split_ifs <;> omega

/-- One round of the loop records the day, adds the fee to the total, and
reverts only if the total overflows. -/
theorem recordOne_apply {day total : Nat} {pid : Pid} {world : World}
    {entered : Bool} (fits : total < uint256Size) :
    recordOne day pid total ⟨world, entered⟩ =
      if uint256Size ≤ total + world.feeDue day pid then .revert .panic
      else .done (total + world.feeDue day pid)
        ⟨World.recorded day world pid, entered⟩ := by
  have unfolded : ¬ uint256Size ≤ total := by omega
  simp only [recordOne, seq_apply, read_apply, modify_apply, pure_apply,
    branch_apply, Outcome.bind, emit, modifyPillar, checkedSub, checkedAdd]
  by_cases recordable : world.Recordable day pid
  · obtain ⟨registered, afterRegistration, fresh⟩ := id recordable
    have notBefore :
        ¬ day ≤ uint32 ((world.pillars pid).registeredAt / oneDay) := by
      simpa [Pillar.registrationDay] using afterRegistration
    rw [if_neg registered, if_neg notBefore, if_neg (by simp [fresh])]
    simp only [World.feeDue, World.recorded, recordable, if_true,
      Pillar.recorded]
    by_cases exempt : (world.pillars pid).UnstakingThatDay day
    · simp [Pillar.feeDue, exempt, unfolded]
    · by_cases aboveFloor : feeFloor < (world.pillars pid).staked
      · have fee : (world.pillars pid).feeDue day =
            if (world.pillars pid).staked - feeFloor < feePerDay then
              (world.pillars pid).staked - feeFloor
            else feePerDay := by
          simp [Pillar.feeDue, exempt, aboveFloor]
        have covered := (world.pillars pid).feeDue_le day
        have noUnderflow : ¬ (world.pillars pid).staked <
            (world.pillars pid).feeDue day := by omega
        rw [if_neg exempt, if_neg exempt, if_pos aboveFloor, ← fee]
        by_cases overflow :
            uint256Size ≤ total + (world.pillars pid).feeDue day <;>
          simp [seq_apply, pure_apply, modify_apply, revertIf_apply,
            Outcome.bind, noUnderflow, overflow]
      · simp [Pillar.feeDue, exempt, aboveFloor, unfolded]
  · have skipped : world.feeDue day pid = 0 ∧
        World.recorded day world pid = world := by
      simp [World.feeDue, World.recorded, recordable]
    rw [skipped.1, skipped.2, Nat.add_zero, if_neg unfolded]
    by_cases unregistered : (world.pillars pid).operator = 0
    · rw [if_pos unregistered]
    · rw [if_neg unregistered]
      by_cases early :
          day ≤ uint32 ((world.pillars pid).registeredAt / oneDay)
      · rw [if_pos early]
      · have recorded : world.inactiveRecorded pid day = true := by
          by_contra fresh
          exact recordable ⟨unregistered,
            by simpa [Pillar.registrationDay] using early, by simpa using fresh⟩
        rw [if_neg early, if_pos recorded]

/-- The recording loop records every recordable PID and adds up the fees; it
reverts only if their total overflows. -/
theorem recordLoop_apply {day total : Nat} {pids : List Pid} {world : World}
    {entered : Bool} (fits : total < uint256Size) :
    recordLoop day pids total ⟨world, entered⟩ =
      if uint256Size ≤ total + World.feesDue day world pids then .revert .panic
      else .done (total + World.feesDue day world pids)
        ⟨World.recordedAll day world pids, entered⟩ := by
  induction pids generalizing total world with
  | nil =>
      have unfolded : ¬ uint256Size ≤ total := by omega
      simp [recordLoop, pure_apply, World.feesDue, World.recordedAll,
        unfolded]
  | cons pid pids ih =>
      rw [recordLoop, seq_apply, recordOne_apply fits, World.feesDue,
        ← Nat.add_assoc]
      by_cases overflow : uint256Size ≤ total + world.feeDue day pid
      · rw [if_pos overflow, if_pos (by omega)]
        rfl
      · rw [if_neg overflow, Outcome.bind, ih (by omega)]
        rfl

@[simp]
theorem settle_recordLoop_ok {request : TokenCall → World → Option World}
    {day : Nat} {pids : List Pid} {state : Guarded World}
    {final : Nat × Guarded World} :
    (recordLoop day pids 0 state).settle request = .ok final ↔
      World.feesDue day state.world pids < uint256Size ∧
        (World.feesDue day state.world pids,
          (⟨World.recordedAll day state.world pids, state.entered⟩ :
            Guarded World)) = final := by
  rw [recordLoop_apply (by simp [uint256Size]), Nat.zero_add]
  by_cases overflow : uint256Size ≤ World.feesDue day state.world pids
  · simp [Outcome.settle, overflow]
  · simp [Outcome.settle, overflow, not_le.mp overflow]

@[simp]
theorem ensures_recordLoop
    {rely : Guarded World → Guarded World → Prop}
    {exit : Guarded World → Prop} {day : Nat} {pids : List Pid}
    {state : Guarded World} {post : Nat → Guarded World → Prop} :
    (recordLoop day pids 0 state).Ensures rely exit post ↔
      (World.feesDue day state.world pids < uint256Size →
        post (World.feesDue day state.world pids)
          ⟨World.recordedAll day state.world pids, state.entered⟩) := by
  rw [recordLoop_apply (by simp [uint256Size]), Nat.zero_add]
  by_cases overflow : uint256Size ≤ World.feesDue day state.world pids
  · simp [Outcome.Ensures, overflow, not_lt.mpr overflow]
  · simp [Outcome.Ensures, overflow, not_le.mp overflow]

section Frame

/-- Recording touches the Pillars, the records and the log only. -/
theorem recorded_frame (day : Nat) (world : World) (pid : Pid) :
    ∃ pillars inactiveRecorded log, World.recorded day world pid =
      { world with
        pillars := pillars
        inactiveRecorded := inactiveRecorded
        log := log } := by
  unfold World.recorded
  split
  · exact ⟨_, _, _, rfl⟩
  · exact ⟨world.pillars, world.inactiveRecorded, world.log, rfl⟩

theorem recordedAll_frame (day : Nat) (world : World) (pids : List Pid) :
    ∃ pillars inactiveRecorded log, World.recordedAll day world pids =
      { world with
        pillars := pillars
        inactiveRecorded := inactiveRecorded
        log := log } := by
  induction pids generalizing world with
  | nil => exact ⟨world.pillars, world.inactiveRecorded, world.log, rfl⟩
  | cons pid pids ih =>
      obtain ⟨pillars, inactiveRecorded, log, recordedEq⟩ :=
        recorded_frame day world pid
      obtain ⟨allPillars, allRecorded, allLog, allEq⟩ :=
        ih (World.recorded day world pid)
      refine ⟨allPillars, allRecorded, allLog, ?_⟩
      change World.recordedAll day (World.recorded day world pid) pids = _
      rw [allEq, recordedEq]

variable (day : Nat) (world : World) (pids : List Pid)

@[simp]
theorem recordedAll_totalStaked :
    (World.recordedAll day world pids).totalStaked = world.totalStaked := by
  obtain ⟨_, _, _, frame⟩ := recordedAll_frame day world pids
  rw [frame]

@[simp]
theorem recordedAll_pendingFees :
    (World.recordedAll day world pids).pendingFees = world.pendingFees := by
  obtain ⟨_, _, _, frame⟩ := recordedAll_frame day world pids
  rw [frame]

@[simp]
theorem recordedAll_pids :
    (World.recordedAll day world pids).pids = world.pids := by
  obtain ⟨_, _, _, frame⟩ := recordedAll_frame day world pids
  rw [frame]

@[simp]
theorem recordedAll_pidIndexPlusOne :
    (World.recordedAll day world pids).pidIndexPlusOne =
      world.pidIndexPlusOne := by
  obtain ⟨_, _, _, frame⟩ := recordedAll_frame day world pids
  rw [frame]

@[simp]
theorem recordedAll_balanceOf :
    (World.recordedAll day world pids).balanceOf = world.balanceOf := by
  obtain ⟨_, _, _, frame⟩ := recordedAll_frame day world pids
  rw [frame]

@[simp]
theorem recordedAll_payments :
    (World.recordedAll day world pids).payments = world.payments := by
  obtain ⟨_, _, _, frame⟩ := recordedAll_frame day world pids
  rw [frame]

end Frame

section Accounts

/-- What the storage holds about one PID. -/
structure Account where
  pillar : Pillar := {}
  recorded : Nat → Bool := fun _ => false

def Storage.account (storage : Storage) (pid : Pid) : Account :=
  ⟨storage.pillars pid, storage.inactiveRecorded pid⟩

/-- Whether a day that the range check admits is recorded for the account. -/
def Account.Recordable (account : Account) (day : Nat) : Prop :=
  account.pillar.operator ≠ 0 ∧ account.pillar.registrationDay < day ∧
    account.recorded day = false

instance (account : Account) (day : Nat) : Decidable (account.Recordable day) :=
  inferInstanceAs (Decidable (_ ∧ _ ∧ _))

/-- The account after its PID occurred in a recording of the day. -/
def Account.recordedOn (account : Account) (day : Nat) : Account :=
  if account.Recordable day then
    { pillar := account.pillar.recorded day
      recorded := Function.update account.recorded day true }
  else account

/-- Recording a day changes nothing of a Pillar but its stake and its last
inactive day. -/
theorem Pillar.recorded_frame (pillar : Pillar) (day : Nat) :
    ∃ staked lastInactiveDay, pillar.recorded day =
      { pillar with staked := staked, lastInactiveDay := lastInactiveDay } := by
  unfold Pillar.recorded
  split
  · exact ⟨pillar.staked, pillar.lastInactiveDay, rfl⟩
  · exact ⟨_, _, rfl⟩

theorem Pillar.recorded_staked (pillar : Pillar) (day : Nat) :
    (pillar.recorded day).staked + pillar.feeDue day = pillar.staked := by
  have covered := pillar.feeDue_le day
  by_cases exempt : pillar.UnstakingThatDay day
  · simp [Pillar.recorded, Pillar.feeDue, exempt]
  · simp only [Pillar.recorded, exempt, if_false]
    omega

namespace Account

theorem recordedOn_of_recordable {account : Account} {day : Nat}
    (recordable : account.Recordable day) :
    account.recordedOn day =
      ⟨account.pillar.recorded day,
        Function.update account.recorded day true⟩ :=
  if_pos recordable

theorem recordedOn_of_not_recordable {account : Account} {day : Nat}
    (skipped : ¬ account.Recordable day) : account.recordedOn day = account :=
  if_neg skipped

variable (account : Account) (day : Nat)

theorem recordedOn_frame :
    ∃ staked lastInactiveDay, (account.recordedOn day).pillar =
      { account.pillar with
        staked := staked
        lastInactiveDay := lastInactiveDay } := by
  unfold Account.recordedOn
  split
  · exact account.pillar.recorded_frame day
  · exact ⟨account.pillar.staked, account.pillar.lastInactiveDay, rfl⟩

@[simp]
theorem recordedOn_operator :
    (account.recordedOn day).pillar.operator = account.pillar.operator := by
  obtain ⟨_, _, frame⟩ := account.recordedOn_frame day
  rw [frame]

@[simp]
theorem recordedOn_registrationDay :
    (account.recordedOn day).pillar.registrationDay =
      account.pillar.registrationDay := by
  obtain ⟨_, _, frame⟩ := account.recordedOn_frame day
  rw [frame]
  rfl

@[simp]
theorem recordedOn_unstakeRequestedAt :
    (account.recordedOn day).pillar.unstakeRequestedAt =
      account.pillar.unstakeRequestedAt := by
  obtain ⟨_, _, frame⟩ := account.recordedOn_frame day
  rw [frame]

@[simp]
theorem recordedOn_unstakingThatDay {other : Nat} :
    (account.recordedOn day).pillar.UnstakingThatDay other ↔
      account.pillar.UnstakingThatDay other := by
  obtain ⟨_, _, frame⟩ := account.recordedOn_frame day
  rw [frame]
  rfl

/-- A day is recorded at most once. -/
@[simp]
theorem not_recordable_recordedOn :
    ¬ (account.recordedOn day).Recordable day := by
  unfold Account.recordedOn
  split
  · simp [Account.Recordable]
  · assumption

/-- Recording a day twice has no further effect. -/
@[simp]
theorem recordedOn_recordedOn :
    (account.recordedOn day).recordedOn day = account.recordedOn day := by
  exact recordedOn_of_not_recordable (account.not_recordable_recordedOn day)

/-- Fees never take a stake below the floor. -/
theorem floor_recordedOn {account : Account} {day : Nat}
    (above : feeFloor ≤ account.pillar.staked) :
    feeFloor ≤ (account.recordedOn day).pillar.staked := by
  have charged := account.pillar.recorded_staked day
  have covered := account.pillar.feeDue_le day
  unfold Account.recordedOn
  split
  · change feeFloor ≤ (account.pillar.recorded day).staked
    omega
  · exact above

end Account

/-- One round of the loop changes the account of its own PID only. -/
theorem recorded_account (day : Nat) (world : World) (pid other : Pid) :
    (World.recorded day world pid).account other =
      if other = pid then (world.account pid).recordedOn day
      else world.account other := by
  have recordableIff : world.Recordable day pid ↔
      (world.account pid).Recordable day := Iff.rfl
  by_cases recordable : world.Recordable day pid
  · by_cases same : other = pid
    · subst same
      rw [if_pos rfl,
        Account.recordedOn_of_recordable (recordableIff.mp recordable)]
      simp [World.recorded, recordable, Storage.account]
    · simp [World.recorded, recordable, same, Storage.account]
  · rw [World.recorded, if_neg recordable]
    split
    · rename_i same
      rw [Account.recordedOn_of_not_recordable
        (mt recordableIff.mpr recordable), same]
    · rfl

/-- The loop records the day once for every PID in its list and touches no
other account. -/
theorem recordedAll_account (day : Nat) (world : World) (pids : List Pid)
    (pid : Pid) :
    (World.recordedAll day world pids).account pid =
      if pid ∈ pids then (world.account pid).recordedOn day
      else world.account pid := by
  induction pids generalizing world with
  | nil => simp [World.recordedAll]
  | cons first pids ih =>
      change (World.recordedAll day (World.recorded day world first)
        pids).account pid = _
      rw [ih, recorded_account]
      by_cases same : pid = first
      · subst same
        simp
      · simp [same]

theorem recordedAll_pillar (day : Nat) (world : World) (pids : List Pid)
    (pid : Pid) :
    (World.recordedAll day world pids).pillars pid =
      if pid ∈ pids then ((world.account pid).recordedOn day).pillar
      else world.pillars pid := by
  have accountEq :=
    congrArg Account.pillar (recordedAll_account day world pids pid)
  rw [apply_ite Account.pillar] at accountEq
  exact accountEq

@[simp]
theorem recordedAll_operator (day : Nat) (world : World) (pids : List Pid)
    (pid : Pid) :
    ((World.recordedAll day world pids).pillars pid).operator =
      (world.pillars pid).operator := by
  rw [recordedAll_pillar]
  split
  · exact Account.recordedOn_operator _ day
  · rfl

@[simp]
theorem recordedAll_unstakeRequestedAt (day : Nat) (world : World)
    (pids : List Pid) (pid : Pid) :
    ((World.recordedAll day world pids).pillars pid).unstakeRequestedAt =
      (world.pillars pid).unstakeRequestedAt := by
  rw [recordedAll_pillar]
  split
  · exact Account.recordedOn_unstakeRequestedAt _ day
  · rfl

/-- The loop emits nothing but records of the day. -/
theorem recordedAll_log (day : Nat) (world : World) (pids : List Pid) :
    ∃ events, (World.recordedAll day world pids).log = events ++ world.log ∧
      ∀ event ∈ events, ∃ pid fee staked,
        event = .inactiveDay pid day fee staked := by
  induction pids generalizing world with
  | nil => exact ⟨[], rfl, by simp⟩
  | cons first pids ih =>
      obtain ⟨events, logEq, inactive⟩ := ih (World.recorded day world first)
      change ∃ events, (World.recordedAll day
        (World.recorded day world first) pids).log = _ ∧ _
      rw [logEq]
      by_cases recordable : world.Recordable day first
      · refine ⟨events ++ [.inactiveDay first day
          ((world.pillars first).feeDue day)
          ((world.pillars first).staked -
            (world.pillars first).feeDue day)], ?_, ?_⟩
        · simp [World.recorded, recordable]
        · intro event member
          rcases List.mem_append.mp member with later | newest
          · exact inactive event later
          · rw [List.mem_singleton.mp newest]
            exact ⟨_, _, _, rfl⟩
      · exact ⟨events, by simp [World.recorded, recordable], inactive⟩

end Accounts

section Stakes

/-- Replacing one Pillar changes the sum of the stakes by the difference. -/
theorem sum_staked_update (pillars : Pid → Pillar) (pid : Pid)
    (pillar : Pillar) :
    ∑ other, (Function.update pillars pid pillar other).staked +
        (pillars pid).staked =
      ∑ other, (pillars other).staked + pillar.staked := by
  have stakes : (fun other => (Function.update pillars pid pillar other).staked)
      = Function.update (fun other => (pillars other).staked) pid
        pillar.staked := by
    funext other
    exact Function.apply_update (fun _ => Pillar.staked) pillars pid pillar other
  rw [stakes, Finset.sum_update_of_mem (Finset.mem_univ pid),
    ← Finset.add_sum_erase Finset.univ (fun other => (pillars other).staked)
      (Finset.mem_univ pid), Finset.sdiff_singleton_eq_erase]
  omega

/-- The fees of the loop are exactly what the stakes lose. -/
theorem sum_staked_recordedAll (day : Nat) (world : World) (pids : List Pid) :
    ∑ pid, ((World.recordedAll day world pids).pillars pid).staked +
        World.feesDue day world pids =
      ∑ pid, (world.pillars pid).staked := by
  induction pids generalizing world with
  | nil => simp [World.recordedAll, World.feesDue]
  | cons first pids ih =>
      have rest := ih (World.recorded day world first)
      have firstFee :
          ∑ pid, ((World.recorded day world first).pillars pid).staked +
              world.feeDue day first =
            ∑ pid, (world.pillars pid).staked := by
        by_cases recordable : world.Recordable day first
        · have replaced := sum_staked_update world.pillars first
            ((world.pillars first).recorded day)
          have charged := (world.pillars first).recorded_staked day
          simp only [World.recorded, World.feeDue, recordable, if_true]
          omega
        · simp [World.recorded, World.feeDue, recordable]
      change ∑ pid, ((World.recordedAll day
        (World.recorded day world first) pids).pillars pid).staked + _ = _
      rw [World.feesDue]
      omega

end Stakes

end PillarStaking

end RefinetPillars
