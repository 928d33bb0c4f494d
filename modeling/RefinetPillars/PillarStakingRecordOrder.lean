import RefinetPillars.CommutingFolds
import RefinetPillars.PillarStakingSolvency

/-!
# Recording in any order

Recording days commutes and is idempotent, account by account.  Hence it does
not matter how the oracle splits, orders or repeats the days and PIDs it
records in a block, and in a reachable state none of its calls reverts.
-/

namespace RefinetPillars

namespace PillarStaking

open CommutingFolds ReentrantCode RunHistory

variable {this : Address}

section Accounts

/-- The stake left by a day that is not exempt. -/
def stakeAfterFee (staked : Nat) : Nat :=
  if feeFloor < staked then
    if staked - feeFloor < feePerDay then feeFloor else staked - feePerDay
  else staked

theorem Pillar.recorded_of_exempt {pillar : Pillar} {day : Nat}
    (exempt : pillar.UnstakingThatDay day) : pillar.recorded day = pillar := by
  rw [Pillar.recorded, if_pos exempt]

theorem Pillar.recorded_of_charged {pillar : Pillar} {day : Nat}
    (charged : ¬ pillar.UnstakingThatDay day) :
    pillar.recorded day =
      { pillar with
        lastInactiveDay := max pillar.lastInactiveDay day
        staked := stakeAfterFee pillar.staked } := by
  rw [Pillar.recorded, if_neg charged, Pillar.feeDue, if_neg charged]
  congr 1
  · rw [stakeAfterFee]
    split_ifs <;> omega
  · split_ifs <;> omega

/-- Recording two days for a Pillar, in either order. -/
theorem Pillar.recorded_comm (pillar : Pillar) (first second : Nat) :
    (pillar.recorded first).recorded second =
      (pillar.recorded second).recorded first := by
  have keeps : ∀ day other, (pillar.recorded day).UnstakingThatDay other ↔
      pillar.UnstakingThatDay other := by
    intro day other
    obtain ⟨_, _, frame⟩ := pillar.recorded_frame day
    rw [frame]
    rfl
  by_cases firstExempt : pillar.UnstakingThatDay first
  · rw [Pillar.recorded_of_exempt firstExempt,
      Pillar.recorded_of_exempt ((keeps second first).mpr firstExempt)]
  · by_cases secondExempt : pillar.UnstakingThatDay second
    · rw [Pillar.recorded_of_exempt secondExempt,
        Pillar.recorded_of_exempt ((keeps first second).mpr secondExempt)]
    · rw [Pillar.recorded_of_charged (mt (keeps first second).mp secondExempt),
        Pillar.recorded_of_charged (mt (keeps second first).mp firstExempt),
        Pillar.recorded_of_charged firstExempt,
        Pillar.recorded_of_charged secondExempt]
      simp only [max_right_comm]

open Account in
/-- Recording two days for an account, in either order. -/
theorem Account.recordedOn_comm (account : Account) (first second : Nat) :
    (account.recordedOn first).recordedOn second =
      (account.recordedOn second).recordedOn first := by
  by_cases same : first = second
  · rw [same]
  have recordableIff : ∀ day other, day ≠ other →
      ((account.recordedOn day).Recordable other ↔
        account.Recordable other) := by
    intro day other different
    have flag : (account.recordedOn day).recorded other =
        account.recorded other := by
      unfold Account.recordedOn
      split
      · exact Function.update_of_ne different.symm _ _
      · rfl
    rw [Account.Recordable, Account.Recordable, account.recordedOn_operator,
      account.recordedOn_registrationDay, flag]
  by_cases firstRecordable : account.Recordable first
  · by_cases secondRecordable : account.Recordable second
    · have afterFirst := (recordableIff first second same).mpr secondRecordable
      have afterSecond :=
        (recordableIff second first (Ne.symm same)).mpr firstRecordable
      rw [recordedOn_of_recordable afterFirst,
        recordedOn_of_recordable afterSecond,
        recordedOn_of_recordable firstRecordable,
        recordedOn_of_recordable secondRecordable]
      simp only [Pillar.recorded_comm, Function.update_comm same]
    · have skipped := mt (recordableIff first second same).mp secondRecordable
      rw [recordedOn_of_not_recordable skipped,
        recordedOn_of_not_recordable secondRecordable]
  · have skipped :=
      mt (recordableIff second first (Ne.symm same)).mp firstRecordable
    rw [recordedOn_of_not_recordable skipped,
      recordedOn_of_not_recordable firstRecordable]
theorem recordedOn_laws : CommutingIdempotent Account.recordedOn where
  commutes := Account.recordedOn_comm
  idempotent := Account.recordedOn_recordedOn

end Accounts

/-- One call of the oracle. -/
structure Batch where
  pids : List Pid
  day : Nat

/-- The range check of `recordInactive`. -/
def Batch.Accepted (batch : Batch) (msg : Msg this) : Prop :=
  batch.day < msg.today ∧ msg.today ≤ batch.day + maxBackfillDays

/-- The oracle's calls of one block, in sequence. -/
def recordInSequence (msg : Msg this) (token : Token) (world : World)
    (batches : List Batch) : Except (Failure Error TokenCall) World :=
  batches.foldlM
    (fun world batch =>
      Tx.execute ⟨msg, .recordInactive batch.pids batch.day, token⟩ world)
    world

/-- What the calls do if none reverts. -/
def World.recordedBatches (world : World) (batches : List Batch) : World :=
  batches.foldl (fun world batch => world.recordedInactive batch.day batch.pids)
    world

/-- The days that some batch records for the PID. -/
def daysFor (pid : Pid) (batches : List Batch) : List Nat :=
  (batches.filter fun batch => pid ∈ batch.pids).map Batch.day

section Batches

variable {world : World} {batches : List Batch}

/-- The calls act on every account by recording its days. -/
theorem recordedBatches_account (pid : Pid) :
    (world.recordedBatches batches).account pid =
      (daysFor pid batches).foldl Account.recordedOn (world.account pid) := by
  induction batches generalizing world with
  | nil => rfl
  | cons batch batches ih =>
      change ((world.recordedInactive batch.day batch.pids).recordedBatches
        batches).account pid = _
      have accountEq := recordedAll_account batch.day world batch.pids pid
      change (world.recordedInactive batch.day batch.pids).account pid = _
        at accountEq
      rw [ih, accountEq]
      by_cases member : pid ∈ batch.pids
      · simp [daysFor, member]
      · simp [daysFor, member]

/-- Recording changes nothing of an unregistered account. -/
theorem foldl_recordedOn_unregistered {account : Account}
    (absent : account.pillar.operator = 0) (days : List Nat) :
    days.foldl Account.recordedOn account = account := by
  induction days with
  | nil => rfl
  | cons day days ih =>
      rw [List.foldl_cons, Account.recordedOn_of_not_recordable
        fun recordable => recordable.1 absent, ih]

/-- A world in which the caller may record and no sum overflows. -/
structure RecordingReady (msg : Msg this) (world : World) : Prop where
  sound : Sound world
  bounded : world.totalStaked + world.pendingFees < uint256Size
  oracle : world.hasRole .oracle msg.sender = true

/-- The fees of a call are covered by the stakes. -/
theorem RecordingReady.feesDue_le {msg : Msg this}
    (ready : RecordingReady msg world) (day : Nat) (pids : List Pid) :
    World.feesDue day world pids ≤ world.totalStaked := by
  have conserved := sum_staked_recordedAll day world pids
  have total := ready.sound.totalStaked_eq
  omega

/-- A call moves fees from the total to the pending fees and leaves the rest of
the storage, other than the accounts, alone. -/
theorem RecordingReady.conserves {msg : Msg this}
    (ready : RecordingReady msg world) (day : Nat) (pids : List Pid) :
    (world.recordedInactive day pids).totalStaked +
        (world.recordedInactive day pids).pendingFees =
      world.totalStaked + world.pendingFees := by
  have covered := ready.feesDue_le day pids
  simp only [World.recordedInactive]
  omega

theorem recordedInactive_frame (world : World) (day : Nat) (pids : List Pid) :
    (world.recordedInactive day pids).feeRecipient = world.feeRecipient ∧
      (world.recordedInactive day pids).pids = world.pids ∧
      (world.recordedInactive day pids).pidIndexPlusOne =
        world.pidIndexPlusOne ∧
      (world.recordedInactive day pids).hasRole = world.hasRole := by
  obtain ⟨_, _, _, frame⟩ := recordedAll_frame day world pids
  simp only [World.recordedInactive, frame, and_self]

theorem RecordingReady.next {msg : Msg this}
    (ready : RecordingReady msg world) (day : Nat) (pids : List Pid) :
    RecordingReady msg (world.recordedInactive day pids) where
  sound := ready.sound.recordedInactive day pids
  bounded := by
    rw [ready.conserves day pids]
    exact ready.bounded
  oracle := by
    rw [(recordedInactive_frame world day pids).2.2.2]
    exact ready.oracle

/-- An accepted call does not revert. -/
theorem RecordingReady.execute {msg : Msg this} {token : Token}
    {batch : Batch} (ready : RecordingReady msg world)
    (accepted : batch.Accepted msg) :
    Tx.execute ⟨msg, .recordInactive batch.pids batch.day, token⟩ world =
      .ok (world.recordedInactive batch.day batch.pids) := by
  have covered := ready.feesDue_le batch.day batch.pids
  have bounded := ready.bounded
  rw [execute_ok_iff_effect]
  refine ⟨ready.oracle, accepted.1, accepted.2, ?_, covered, ?_, rfl⟩
  · omega
  · intro _
    omega

/-- None of the accepted calls reverts. -/
theorem RecordingReady.sequence {msg : Msg this} {token : Token}
    (ready : RecordingReady msg world)
    (accepted : ∀ batch ∈ batches, batch.Accepted msg) :
    recordInSequence msg token world batches =
        .ok (world.recordedBatches batches) ∧
      RecordingReady msg (world.recordedBatches batches) ∧
      (world.recordedBatches batches).totalStaked +
          (world.recordedBatches batches).pendingFees =
        world.totalStaked + world.pendingFees := by
  induction batches generalizing world with
  | nil => exact ⟨rfl, ready, rfl⟩
  | cons batch batches ih =>
      obtain ⟨sequenceEq, readyAfter, conserved⟩ :=
        ih (ready.next batch.day batch.pids)
          fun later member => accepted later (by simp [member])
      refine ⟨?_, readyAfter, conserved.trans
        (ready.conserves batch.day batch.pids)⟩
      rw [recordInSequence, List.foldlM_cons,
        ready.execute (accepted batch (by simp))]
      exact sequenceEq

/-- The calls leave the rest of the storage alone. -/
theorem recordedBatches_frame (world : World) (batches : List Batch) :
    (world.recordedBatches batches).feeRecipient = world.feeRecipient ∧
      (world.recordedBatches batches).pids = world.pids ∧
      (world.recordedBatches batches).pidIndexPlusOne =
        world.pidIndexPlusOne ∧
      (world.recordedBatches batches).hasRole = world.hasRole := by
  induction batches generalizing world with
  | nil => exact ⟨rfl, rfl, rfl, rfl⟩
  | cons batch batches ih =>
      have first := recordedInactive_frame world batch.day batch.pids
      have rest := ih (world.recordedInactive batch.day batch.pids)
      exact ⟨rest.1.trans first.1, rest.2.1.trans first.2.1,
        rest.2.2.1.trans first.2.2.1, rest.2.2.2.trans first.2.2.2⟩

end Batches

/-- Totality, idempotence and order independence of recording.  In a reachable
state, take any two sequences of accepted calls of the oracle in one block
that record the same days for every registered PID.  No call reverts, both
sequences end in the same storage, and PIDs outside them keep theirs. -/
theorem recording_order_independent
    {token admin feeRecipient : Address} {balanceOf : Balances}
    {start : World} {inputs : List (Input this)} {msg : Msg this}
    {firstToken secondToken : Token} {first second : List Batch}
    (deployed : deploy this token admin feeRecipient balanceOf = .ok start)
    (initially : balanceOf this < uint256Size)
    (erc20 : ∀ input ∈ inputs, input.Erc20)
    (oracle : (runInputs start inputs).hasRole .oracle msg.sender = true)
    (firstAccepted : ∀ batch ∈ first, batch.Accepted msg)
    (secondAccepted : ∀ batch ∈ second, batch.Accepted msg)
    (same : ∀ pid, (runInputs start inputs).Registered pid →
      ∀ day, day ∈ daysFor pid first ↔ day ∈ daysFor pid second) :
    let world := runInputs start inputs
    ∃ firstFinal secondFinal,
      recordInSequence msg firstToken world first = .ok firstFinal ∧
        recordInSequence msg secondToken world second = .ok secondFinal ∧
        firstFinal.toStorage = secondFinal.toStorage ∧
        ∀ pid, daysFor pid first = [] →
          firstFinal.account pid = world.account pid ∧
            firstFinal.pidIndexPlusOne pid = world.pidIndexPlusOne pid := by
  intro world
  have solvent := (Solvent.deploy deployed).runInputs erc20
  have ready : RecordingReady msg world :=
    ⟨sound_runInputs deployed inputs, solvent.covered.trans_lt
      (balance_bounded deployed initially erc20), oracle⟩
  obtain ⟨firstEq, firstReady, firstTotal⟩ := ready.sequence firstAccepted
  obtain ⟨secondEq, secondReady, secondTotal⟩ := ready.sequence secondAccepted
  have firstFrame := recordedBatches_frame world first
  have secondFrame := recordedBatches_frame world second
  have accounts : ∀ pid, (world.recordedBatches first).account pid =
      (world.recordedBatches second).account pid := by
    intro pid
    rw [recordedBatches_account, recordedBatches_account]
    by_cases registered : world.Registered pid
    · exact recordedOn_laws.foldl_eq_of_mem_iff (same pid registered) _
    · have absent : (world.account pid).pillar.operator = 0 :=
        not_not.mp registered
      rw [foldl_recordedOn_unregistered absent,
        foldl_recordedOn_unregistered absent]
  have pillars : (world.recordedBatches first).pillars =
      (world.recordedBatches second).pillars :=
    funext fun pid => congrArg Account.pillar (accounts pid)
  have totals : (world.recordedBatches first).totalStaked =
      (world.recordedBatches second).totalStaked := by
    rw [firstReady.sound.totalStaked_eq, secondReady.sound.totalStaked_eq,
      pillars]
  refine ⟨_, _, firstEq, secondEq, ?_, ?_⟩
  · apply Storage.ext
    case feeRecipient => exact firstFrame.1.trans secondFrame.1.symm
    case totalStaked => exact totals
    case pendingFees => omega
    case pillars => exact pillars
    case inactiveRecorded =>
      exact funext fun pid => congrArg Account.recorded (accounts pid)
    case pids => exact firstFrame.2.1.trans secondFrame.2.1.symm
    case pidIndexPlusOne =>
      exact firstFrame.2.2.1.trans secondFrame.2.2.1.symm
    case hasRole => exact firstFrame.2.2.2.trans secondFrame.2.2.2.symm
  · intro pid outside
    constructor
    · rw [recordedBatches_account, outside]
      rfl
    · rw [firstFrame.2.2.1]

/-- The oracle at noon of day 8. -/
def oracleCall : Msg 1 := byOracle (8 * oneDay + 43200)

/-- Two days, recorded in either order, with duplicates, the zero PID and an
unregistered PID. -/
theorem recording_order_independent_twoDays :
    ∃ firstFinal secondFinal,
      recordInSequence oracleCall (exactToken 1)
          (runInputs fundedWorld chargedRun)
          [⟨[7, 0, 7], 3⟩, ⟨[8, 7], 5⟩] = .ok firstFinal ∧
        recordInSequence oracleCall (exactToken 1)
          (runInputs fundedWorld chargedRun)
          [⟨[7], 5⟩, ⟨[8], 5⟩, ⟨[0, 7], 3⟩] = .ok secondFinal ∧
        firstFinal.toStorage = secondFinal.toStorage := by
  have sameDays : ∀ pid : Pid, (runInputs fundedWorld chargedRun).Registered
      pid → ∀ day, day ∈ daysFor pid [⟨[7, 0, 7], 3⟩, ⟨[8, 7], 5⟩] ↔
        day ∈ daysFor pid [⟨[7], 5⟩, ⟨[8], 5⟩, ⟨[0, 7], 3⟩] := by
    intro pid registered day
    have slots : (runInputs fundedWorld chargedRun).pids = [7] := by
      decide +kernel
    have member := ((sound_runInputs deploy_fundedWorld
      chargedRun).registered_iff_mem.mp registered).2
    rw [slots, List.mem_singleton] at member
    subst member
    simp [daysFor, or_comm]
  have firstAccepted : ∀ batch ∈ ([⟨[7, 0, 7], 3⟩, ⟨[8, 7], 5⟩] : List Batch),
      batch.Accepted oracleCall := by
    simp only [List.forall_mem_cons, Batch.Accepted]
    decide
  have secondAccepted : ∀ batch ∈
      ([⟨[7], 5⟩, ⟨[8], 5⟩, ⟨[0, 7], 3⟩] : List Batch),
      batch.Accepted oracleCall := by
    simp only [List.forall_mem_cons, Batch.Accepted]
    decide
  obtain ⟨firstFinal, secondFinal, firstRun, secondRun, same, _⟩ :=
    recording_order_independent deploy_fundedWorld (by decide)
      chargedRun_erc20 (by decide +kernel) firstAccepted secondAccepted
      sameDays
  exact ⟨firstFinal, secondFinal, firstRun, secondRun, same⟩

end PillarStaking

end RefinetPillars
