import RefinetPillars.PillarStakingSolvency

/-!
# The directory of the staking contract

The slots of the directory never move, and a PID keeps its slot for as long as
it stays registered.
-/

namespace RefinetPillars

namespace PillarStaking

open RunHistory SlotDirectory

variable {this : Address}

/-- What a transaction does to the directory: nothing, or it appends the slot
of a new PID, or it clears the slot of a PID that leaves. -/
theorem Tx.Effect.directory {tx : Tx this} {world final : World}
    (effect : tx.Effect world final) :
    (final.pids = world.pids ∧
        final.pidIndexPlusOne = world.pidIndexPlusOne) ∨
      (∃ pid, ¬ world.Registered pid ∧ final.pids = world.pids ++ [pid] ∧
        final.pidIndexPlusOne =
          Function.update world.pidIndexPlusOne pid (world.pids.length + 1)) ∨
      ∃ pid index, ¬ final.Registered pid ∧
        final.pids = world.pids.set index 0 ∧
        final.pidIndexPlusOne =
          Function.update world.pidIndexPlusOne pid 0 := by
  obtain ⟨msg, call, token⟩ := tx
  cases call with
  | register pid amount endpoint =>
      obtain ⟨_, absent, _, _, balances, _, _, _, _, rfl⟩ := effect
      exact Or.inr (Or.inl ⟨pid, absent, rfl, rfl⟩)
  | topUp pid amount =>
      obtain ⟨_, _, _, balances, _, _, _, _, rfl⟩ := effect
      exact Or.inl ⟨rfl, rfl⟩
  | setEndpoint pid endpoint =>
      obtain ⟨_, _, rfl⟩ := effect
      exact Or.inl ⟨rfl, rfl⟩
  | requestUnstake pid =>
      obtain ⟨_, _, rfl⟩ := effect
      exact Or.inl ⟨rfl, rfl⟩
  | cancelUnstake pid =>
      obtain ⟨_, _, rfl⟩ := effect
      exact Or.inl ⟨rfl, rfl⟩
  | withdraw pid =>
      obtain ⟨_, _, _, _, _, _, balances, _, rfl⟩ := effect
      refine Or.inr (Or.inr ⟨pid, _, ?_, rfl, rfl⟩)
      simp [World.emitted, World.rebalanced, World.released,
        Storage.Registered]
  | recordInactive pids day =>
      obtain ⟨_, _, _, _, _, _, rfl⟩ := effect
      exact Or.inl ⟨recordedAll_pids day world pids,
        recordedAll_pidIndexPlusOne day world pids⟩
  | sweepFees =>
      obtain ⟨_, balances, _, rfl⟩ := effect
      exact Or.inl ⟨rfl, rfl⟩
  | sweepExcess =>
      obtain ⟨_, balances, _, rfl⟩ := effect
      exact Or.inl ⟨rfl, rfl⟩
  | setFeeRecipient feeRecipient =>
      obtain ⟨_, _, _, rfl⟩ := effect
      exact Or.inl ⟨rfl, rfl⟩
  | grantRole role account =>
      obtain ⟨_, rfl⟩ := effect
      exact Or.inl ⟨rfl, rfl⟩
  | revokeRole role account =>
      obtain ⟨_, rfl⟩ := effect
      exact Or.inl ⟨rfl, rfl⟩
  | renounceRole role confirmation =>
      obtain ⟨_, rfl⟩ := effect
      exact Or.inl ⟨rfl, rfl⟩

section Slots

variable {world : World} {pid : Pid}

theorem apply_directory (input : Input this) (world : World) :
    ((input.apply world).pids = world.pids ∧
        (input.apply world).pidIndexPlusOne = world.pidIndexPlusOne) ∨
      (∃ pid, ¬ world.Registered pid ∧
        (input.apply world).pids = world.pids ++ [pid] ∧
        (input.apply world).pidIndexPlusOne =
          Function.update world.pidIndexPlusOne pid (world.pids.length + 1)) ∨
      ∃ pid index, ¬ (input.apply world).Registered pid ∧
        (input.apply world).pids = world.pids.set index 0 ∧
        (input.apply world).pidIndexPlusOne =
          Function.update world.pidIndexPlusOne pid 0 := by
  cases input with
  | tokenTransfer timestamp amount others =>
      left
      simp only [Input.apply]
      split <;> exact ⟨rfl, rfl⟩
  | transaction tx =>
      rcases apply_transaction_cases tx world with effected | unchanged
      · exact effected.directory
      · rw [unchanged]
        exact Or.inl ⟨rfl, rfl⟩

theorem persists_apply (input : Input this) (world : World) :
    Persists world.pids (input.apply world).pids := by
  rcases apply_directory input world with ⟨same, _⟩ | ⟨pid, _, pushed, _⟩ |
    ⟨pid, index, _, cleared, _⟩
  · rw [same]
    exact Persists.refl world.pids
  · rw [pushed]
    exact Persists.push world.pids
  · rw [cleared]
    exact Persists.clear world.pids index

/-- A PID that stays registered keeps its slot. -/
theorem slot_apply {input : Input this} (before : world.Registered pid)
    (after : (input.apply world).Registered pid) :
    (input.apply world).pidIndexPlusOne pid = world.pidIndexPlusOne pid := by
  rcases apply_directory input world with ⟨_, same⟩ |
    ⟨other, absent, _, pushed⟩ | ⟨other, index, gone, _, cleared⟩
  · rw [same]
  · rw [pushed, Function.update_of_ne]
    rintro rfl
    exact absent before
  · rw [cleared, Function.update_of_ne]
    rintro rfl
    exact gone after

end Slots

section Runs

variable {start : World} {earlier inputs : List (Input this)} {pid : Pid}

/-- The slots of the directory never move or disappear. -/
theorem persists_runInputs (suffix : earlier <:+ inputs) :
    Persists (runInputs start earlier).pids (runInputs start inputs).pids := by
  induction inputs with
  | nil =>
      rw [List.suffix_nil.mp suffix]
      exact Persists.refl _
  | cons input inputs ih =>
      rcases List.suffix_cons_iff.mp suffix with atEnd | older
      · rw [atEnd]
        exact Persists.refl _
      · exact (ih older).trans (persists_apply input (runInputs start inputs))

theorem slot_throughout
    (throughout : Throughout Input.apply start
      (fun world => world.Registered pid) earlier inputs) :
    (runInputs start inputs).pidIndexPlusOne pid =
      (runInputs start earlier).pidIndexPlusOne pid := by
  induction inputs with
  | nil => rw [List.suffix_nil.mp throughout.1]
  | cons input inputs ih =>
      rcases List.suffix_cons_iff.mp throughout.1 with atEnd | older
      · rw [atEnd]
      · obtain ⟨standing, registered⟩ :=
          (Throughout.cons_iff older).mp throughout
        rw [← ih standing]
        exact slot_apply standing.now registered

/-- The directory of a contract: the nonzero slots are distinct and hold
exactly the registered PIDs, and the map has the slot of each of them. -/
structure SlotsExact (world : World) : Prop where
  distinct : ∀ {pid : Pid}, pid ≠ 0 → ∀ {first second : Nat},
    world.pids[first]? = some pid → world.pids[second]? = some pid →
    first = second
  registered_iff : ∀ pid, world.Registered pid ↔ pid ≠ 0 ∧ pid ∈ world.pids
  slot : ∀ pid, world.Registered pid → 0 < world.pidIndexPlusOne pid ∧
    world.pids[world.pidIndexPlusOne pid - 1]? = some pid
  absent : ∀ pid, ¬ world.Registered pid → world.pidIndexPlusOne pid = 0

theorem Sound.slotsExact {world : World} (sound : Sound world) :
    SlotsExact world where
  distinct := sound.indexed.slot_unique
  registered_iff _ := sound.registered_iff_mem
  slot pid registered := by
    have live := (sound.registered_iff pid).mp registered
    exact ⟨Nat.pos_of_ne_zero live, sound.indexed.slot live⟩
  absent pid gone := by
    by_contra live
    exact gone ((sound.registered_iff pid).mpr live)

end Runs

end PillarStaking

end RefinetPillars
