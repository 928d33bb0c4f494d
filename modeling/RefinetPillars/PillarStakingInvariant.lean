import Mathlib
import RefinetPillars.SlotDirectory
import RefinetPillars.PillarStakingEffect

/-!
# The storage invariant of the staking contract

The invariant relates the accumulators, the directory, the Pillars and the
receipts of the contract.  Each effect of an entry point keeps it, whatever the
token does to the balances.
-/

namespace RefinetPillars

namespace PillarStaking

open SlotDirectory

variable {this : Address}

/-- Whether an event registers the PID. -/
def Event.registers (pid : Pid) : Event → Bool
  | .registered other _ _ _ => decide (other = pid)
  | _ => false

/-- Whether a payment returns a stake of the PID. -/
def Payment.returnsStake (pid : Pid) : Payment → Bool
  | .stake other _ _ => decide (other = pid)
  | _ => false

/-- The PID to which an event credits a deposit. -/
def Event.credited : Event → Option Pid
  | .registered pid _ _ _ => some pid
  | .toppedUp pid _ _ => some pid
  | _ => none

/-- An event that credits nothing registers nothing. -/
theorem registers_of_credited_none {event : Event}
    (silent : event.credited = none) (pid : Pid) :
    event.registers pid = false := by
  cases event with
  | registered => cases silent
  | toppedUp => cases silent
  | _ => rfl

/-- The invariant of the contract's storage and receipts. -/
structure Sound (world : World) : Prop where
  indexed : Indexed world.pids world.pidIndexPlusOne
  registered_iff : ∀ pid,
    world.Registered pid ↔ world.pidIndexPlusOne pid ≠ 0
  unregistered : ∀ pid, ¬ world.Registered pid → world.pillars pid = {}
  totalStaked_eq : world.totalStaked = ∑ pid, (world.pillars pid).staked
  floor : ∀ pid, world.Registered pid → feeFloor ≤ (world.pillars pid).staked
  /-- Every registration has been paid back once or still stands. -/
  receipts : ∀ pid,
    world.payments.countP (·.returnsStake pid) +
        (if (world.pillars pid).operator = 0 then 0 else 1) =
      world.log.countP (·.registers pid)
  /-- The newest event did not credit a Pillar that is unstaking. -/
  credit : ∀ event ∈ world.log.head?, ∀ pid ∈ event.credited,
    (world.pillars pid).unstakeRequestedAt = 0

/-- A fresh deployment is sound. -/
theorem sound_deploy {token admin feeRecipient : Address}
    {balanceOf : Balances} {world : World}
    (deployed : deploy this token admin feeRecipient balanceOf = .ok world) :
    Sound world := by
  unfold deploy at deployed
  split at deployed
  · cases deployed
  · obtain rfl := Except.ok.inj deployed
    constructor
    case indexed => exact Indexed.empty
    case registered_iff => simp [Storage.Registered]
    case unregistered => simp
    case totalStaked_eq => simp
    case floor => simp [Storage.Registered]
    case receipts => simp [Event.registers]
    case credit => simp [Event.credited]

namespace Sound

variable {world : World} {pid : Pid}

theorem not_registered_zero (sound : Sound world) : ¬ world.Registered 0 := by
  rw [sound.registered_iff, sound.indexed.zero]
  exact fun absurdity => absurdity rfl

/-- The registered PIDs are exactly the nonzero slots. -/
theorem registered_iff_mem (sound : Sound world) :
    world.Registered pid ↔ pid ≠ 0 ∧ pid ∈ world.pids := by
  constructor
  · intro registered
    have nonzero : pid ≠ 0 := by
      rintro rfl
      exact sound.not_registered_zero registered
    exact ⟨nonzero, (sound.indexed.mem_iff nonzero).mpr
      ((sound.registered_iff pid).mp registered)⟩
  · rintro ⟨nonzero, member⟩
    exact (sound.registered_iff pid).mpr
      ((sound.indexed.mem_iff nonzero).mp member)

/-- Unregistered PIDs hold no stake, so the total is the sum over the
registered ones. -/
theorem totalStaked_registered (sound : Sound world) :
    world.totalStaked =
      ∑ pid with world.Registered pid, (world.pillars pid).staked := by
  rw [sound.totalStaked_eq, Finset.sum_filter]
  apply Finset.sum_congr rfl
  intro pid _
  split
  · rfl
  · rename_i unregistered
    rw [sound.unregistered pid unregistered]

theorem staked_le_totalStaked (sound : Sound world) (pid : Pid) :
    (world.pillars pid).staked ≤ world.totalStaked := by
  rw [sound.totalStaked_eq]
  exact Finset.single_le_sum (f := fun pid => (world.pillars pid).staked)
    (fun _ _ => Nat.zero_le _) (Finset.mem_univ pid)

theorem rebalanced (sound : Sound world) (balances : Balances) :
    Sound (world.rebalanced balances) :=
  { sound with }

/-- An event that neither registers nor credits. -/
theorem emitted {event : Event} (sound : Sound world)
    (silent : event.credited = none) : Sound (world.emitted event) := by
  refine { sound with receipts := ?_, credit := ?_ }
  · intro pid
    have noRegistration := registers_of_credited_none silent pid
    rw [World.emitted, List.countP_cons_of_neg (by simp [noRegistration])]
    exact sound.receipts pid
  · intro newest member pid credited
    obtain rfl : event = newest := by simpa [World.emitted] using member
    simp [silent] at credited

/-- Replacing a registered Pillar's other data. -/
theorem amended {pillar : Pillar} {event : Event} (sound : Sound world)
    (registered : world.Registered pid)
    (sameOperator : pillar.operator = (world.pillars pid).operator)
    (sameStake : pillar.staked = (world.pillars pid).staked)
    (silent : event.credited = none) :
    Sound ((world.setPillar pid pillar).emitted event) := by
  have operators : ∀ other,
      (Function.update world.pillars pid pillar other).operator =
        (world.pillars other).operator := by
    intro other
    by_cases same : other = pid
    · subst same
      simpa using sameOperator
    · simp [same]
  have stakes : ∀ other,
      (Function.update world.pillars pid pillar other).staked =
        (world.pillars other).staked := by
    intro other
    by_cases same : other = pid
    · subst same
      simpa using sameStake
    · simp [same]
  have registeredIff : ∀ other,
      ((world.setPillar pid pillar).emitted event).Registered other ↔
        world.Registered other := fun other => by
    rw [Storage.Registered, Storage.Registered, ← operators other]
    rfl
  constructor
  case indexed => exact sound.indexed
  case registered_iff =>
    intro other
    exact (registeredIff other).trans (sound.registered_iff other)
  case unregistered =>
    intro other unregistered
    have absent := mt (registeredIff other).mpr unregistered
    have different : other ≠ pid := by
      rintro rfl
      exact absent registered
    simpa [World.emitted, World.setPillar, different] using
      sound.unregistered other absent
  case totalStaked_eq =>
    simpa [World.emitted, World.setPillar, stakes] using sound.totalStaked_eq
  case floor =>
    intro other standing
    simpa [World.emitted, World.setPillar, stakes] using
      sound.floor other ((registeredIff other).mp standing)
  case receipts =>
    intro other
    have noRegistration : event.registers other = false :=
      registers_of_credited_none silent other
    simpa [World.emitted, World.setPillar, operators, noRegistration] using
      sound.receipts other
  case credit =>
    intro newest member other credited
    obtain rfl : event = newest := by simpa [World.emitted] using member
    simp [silent] at credited

/-- A new registration of an unregistered PID. -/
theorem enrolled {msg : Msg this} {received : Nat} {endpoint : List UInt8}
    (sound : Sound world) (nonzero : pid ≠ 0)
    (absent : ¬ world.Registered pid) (enough : threshold ≤ received) :
    Sound (world.enrolled msg pid received endpoint) := by
  have blank := sound.unregistered pid absent
  have unmapped : world.pidIndexPlusOne pid = 0 := by
    by_contra mapped
    exact absent ((sound.registered_iff pid).mpr mapped)
  have aboveFloor : feeFloor ≤ received :=
    (Nat.sub_le threshold feePerDay).trans enough
  constructor
  case indexed => exact sound.indexed.push nonzero unmapped
  case registered_iff =>
    intro other
    by_cases same : other = pid
    · subst same
      simp [World.enrolled, Storage.Registered, Pillar.enrolled]
    · simpa [World.enrolled, Storage.Registered, same] using
        sound.registered_iff other
  case unregistered =>
    intro other unregistered
    by_cases same : other = pid
    · subst same
      simp [World.enrolled, Storage.Registered, Pillar.enrolled] at unregistered
    · simp only [World.enrolled, Storage.Registered,
        Function.update_of_ne same] at unregistered ⊢
      exact sound.unregistered other unregistered
  case totalStaked_eq =>
    have replaced := sum_staked_update world.pillars pid
      ((world.pillars pid).enrolled msg received endpoint)
    have total := sound.totalStaked_eq
    have nothing : (world.pillars pid).staked = 0 := by rw [blank]
    simp only [World.enrolled, Pillar.enrolled] at replaced ⊢
    omega
  case floor =>
    intro other standing
    by_cases same : other = pid
    · subst same
      simpa [World.enrolled, Pillar.enrolled] using aboveFloor
    · simp only [World.enrolled, Storage.Registered,
        Function.update_of_ne same] at standing ⊢
      exact sound.floor other standing
  case receipts =>
    intro other
    have before := sound.receipts other
    by_cases same : other = pid
    · subst same
      rw [blank] at before
      simpa [World.enrolled, Pillar.enrolled, Event.registers] using before
    · have elsewhere : (Event.registered pid msg.sender received
          endpoint).registers other = false := by
        simp [Event.registers, Ne.symm same]
      simpa [World.enrolled, same, elsewhere] using before
  case credit =>
    intro newest member other credited
    obtain rfl : Event.registered pid msg.sender received endpoint = newest :=
      by simpa [World.enrolled] using member
    obtain rfl : pid = other := by simpa [Event.credited] using credited
    simp [World.enrolled, Pillar.enrolled, blank]

/-- A deposit for a Pillar that is not unstaking. -/
theorem toppedUp (sound : Sound world) (registered : world.Registered pid)
    (idle : (world.pillars pid).unstakeRequestedAt = 0) (received : Nat) :
    Sound (world.toppedUp pid received) := by
  have operators : ∀ other,
      ((world.toppedUp pid received).pillars other).operator =
        (world.pillars other).operator := by
    intro other
    by_cases same : other = pid
    · subst same
      simp [World.toppedUp, Pillar.toppedUp]
    · simp [World.toppedUp, same]
  have registeredIff : ∀ other,
      (world.toppedUp pid received).Registered other ↔
        world.Registered other := fun other => by
    rw [Storage.Registered, Storage.Registered, operators other]
  constructor
  case indexed => exact sound.indexed
  case registered_iff =>
    intro other
    exact (registeredIff other).trans (sound.registered_iff other)
  case unregistered =>
    intro other unregistered
    have absent := mt (registeredIff other).mpr unregistered
    have different : other ≠ pid := by
      rintro rfl
      exact absent registered
    simpa [World.toppedUp, different] using sound.unregistered other absent
  case totalStaked_eq =>
    have replaced := sum_staked_update world.pillars pid
      ((world.pillars pid).toppedUp received)
    have total := sound.totalStaked_eq
    simp only [World.toppedUp, Pillar.toppedUp] at replaced ⊢
    omega
  case floor =>
    intro other standing
    have before := sound.floor other ((registeredIff other).mp standing)
    by_cases same : other = pid
    · subst same
      simp only [World.toppedUp, Pillar.toppedUp, Function.update_self]
      omega
    · simpa [World.toppedUp, same] using before
  case receipts =>
    intro other
    rw [operators other]
    exact sound.receipts other
  case credit =>
    intro newest member other credited
    obtain rfl : Event.toppedUp pid received
        ((world.pillars pid).staked + received) = newest := by
      simpa [World.toppedUp] using member
    obtain rfl : pid = other := by simpa [Event.credited] using credited
    simpa [World.toppedUp, Pillar.toppedUp] using idle

/-- The withdrawal of a registered PID. -/
theorem released (sound : Sound world) (registered : world.Registered pid) :
    Sound (world.released pid) := by
  have mapped := (sound.registered_iff pid).mp registered
  constructor
  case indexed => exact sound.indexed.clear mapped
  case registered_iff =>
    intro other
    by_cases same : other = pid
    · subst same
      simp [World.released, Storage.Registered]
    · simpa [World.released, Storage.Registered, same] using
        sound.registered_iff other
  case unregistered =>
    intro other unregistered
    by_cases same : other = pid
    · subst same
      simp [World.released]
    · simp only [World.released, Storage.Registered,
        Function.update_of_ne same] at unregistered ⊢
      exact sound.unregistered other unregistered
  case totalStaked_eq =>
    have replaced := sum_staked_update world.pillars pid {}
    have total := sound.totalStaked_eq
    simp only [World.released] at replaced ⊢
    omega
  case floor =>
    intro other standing
    by_cases same : other = pid
    · subst same
      simp [World.released, Storage.Registered] at standing
    · simp only [World.released, Storage.Registered,
        Function.update_of_ne same] at standing ⊢
      exact sound.floor other standing
  case receipts =>
    intro other
    have before := sound.receipts other
    by_cases same : other = pid
    · subst same
      rw [if_neg registered] at before
      simpa [World.released, Payment.returnsStake] using before
    · have elsewhere : (Payment.stake pid (world.pillars pid).operator
          (world.pillars pid).staked).returnsStake other = false := by
        simp [Payment.returnsStake, Ne.symm same]
      simpa [World.released, same, elsewhere] using before
  case credit =>
    intro newest member other credited
    by_cases same : other = pid
    · subst same
      simp [World.released]
    · simpa [World.released, same] using
        sound.credit newest member other credited

theorem feesReleased (sound : Sound world) : Sound world.feesReleased := by
  refine { sound with receipts := ?_ }
  intro pid
  rw [World.feesReleased,
    List.countP_cons_of_neg (by simp [Payment.returnsStake])]
  exact sound.receipts pid

theorem excessReleased (sound : Sound world) (excess : Nat) :
    Sound (world.excessReleased excess) := by
  refine { sound with receipts := ?_ }
  intro pid
  rw [World.excessReleased,
    List.countP_cons_of_neg (by simp [Payment.returnsStake])]
  exact sound.receipts pid

theorem roleSet (sound : Sound world) (role : Role) (account : Address)
    (granted : Bool) : Sound (world.roleSet role account granted) :=
  { sound with }

theorem feeRecipientSet (sound : Sound world) (feeRecipient : Address) :
    Sound
      { world with
        feeRecipient := feeRecipient
        log := .feeRecipientSet feeRecipient :: world.log } := by
  have emitted : Sound (world.emitted (.feeRecipientSet feeRecipient)) :=
    sound.emitted rfl
  exact { emitted with }

/-- The recording of a day for any list of PIDs. -/
theorem recordedInactive (sound : Sound world) (day : Nat) (pids : List Pid) :
    Sound (world.recordedInactive day pids) := by
  have operators : ∀ pid,
      ((world.recordedInactive day pids).pillars pid).operator =
        (world.pillars pid).operator :=
    recordedAll_operator day world pids
  have registeredIff : ∀ pid,
      (world.recordedInactive day pids).Registered pid ↔
        world.Registered pid := fun pid => by
    rw [Storage.Registered, Storage.Registered, operators pid]
  constructor
  case indexed => simpa [World.recordedInactive] using sound.indexed
  case registered_iff =>
    intro pid
    simpa [World.recordedInactive] using
      (registeredIff pid).trans (sound.registered_iff pid)
  case unregistered =>
    intro pid unregistered
    have absent := mt (registeredIff pid).mpr unregistered
    change (World.recordedAll day world pids).pillars pid = {}
    rw [recordedAll_pillar, ← sound.unregistered pid absent]
    split
    · have skipped : ¬ (world.account pid).Recordable day :=
        fun recordable => absent recordable.1
      rw [Account.recordedOn_of_not_recordable skipped]
      rfl
    · rfl
  case totalStaked_eq =>
    have conserved := sum_staked_recordedAll day world pids
    have total := sound.totalStaked_eq
    simp only [World.recordedInactive]
    omega
  case floor =>
    intro pid standing
    have before := sound.floor pid ((registeredIff pid).mp standing)
    change feeFloor ≤ ((World.recordedAll day world pids).pillars pid).staked
    rw [recordedAll_pillar]
    split
    · exact Account.floor_recordedOn before
    · exact before
  case receipts =>
    intro pid
    obtain ⟨events, logEq, inactive⟩ := recordedAll_log day world pids
    have silent : events.countP (·.registers pid) = 0 := by
      rw [List.countP_eq_zero]
      intro event member
      obtain ⟨_, _, _, rfl⟩ := inactive event member
      simp [Event.registers]
    rw [operators pid]
    simpa [World.recordedInactive, logEq, silent] using sound.receipts pid
  case credit =>
    intro newest member pid credited
    obtain ⟨events, logEq, inactive⟩ := recordedAll_log day world pids
    have kept : ((world.recordedInactive day pids).pillars
        pid).unstakeRequestedAt = (world.pillars pid).unstakeRequestedAt :=
      recordedAll_unstakeRequestedAt day world pids pid
    change newest ∈ (World.recordedAll day world pids).log.head? at member
    rw [kept]
    rw [logEq] at member
    cases events with
    | nil => exact sound.credit newest member pid credited
    | cons event events =>
        obtain rfl : event = newest := by simpa using member
        obtain ⟨_, _, _, rfl⟩ := inactive event (by simp)
        simp [Event.credited] at credited

end Sound

end PillarStaking

end RefinetPillars
