import Mathlib
import RefinetPillars.PillarStakingAccount

/-!
# Deactivation by recorded days

The days recorded against a Pillar during its registration, other than exempt
ones, decide whether it is active.  The contract keeps only their maximum; this
file shows that no sequence of calls separates that maximum from the history.
-/

namespace RefinetPillars

namespace PillarStaking

open RunHistory

variable {this : Address}

/-- During the current registration of the PID the day was newly recorded, and
it was not strictly inside the unstaking stretch. -/
def RecordedDuring (start : World) (inputs : List (Input this)) (pid : Pid)
    (day : Nat) : Prop :=
  ∃ input earlier,
    Throughout Input.apply start (fun world => world.Registered pid) earlier
        inputs ∧
      (input :: earlier) <:+ inputs ∧
      (runInputs start earlier).inactiveRecorded pid day = false ∧
      (runInputs start (input :: earlier)).inactiveRecorded pid day = true ∧
      ¬ ((runInputs start earlier).pillars pid).UnstakingThatDay day

section Histories

variable {start : World} {input : Input this} {inputs : List (Input this)}
  {pid : Pid} {day : Nat}

/-- The days of a registration after one more input: those of before, and the
day the input newly records. -/
theorem recordedDuring_cons :
    RecordedDuring start (input :: inputs) pid day ↔
      (runInputs start (input :: inputs)).Registered pid ∧
        (RecordedDuring start inputs pid day ∨
          ((runInputs start inputs).Registered pid ∧
            (runInputs start inputs).inactiveRecorded pid day = false ∧
            (runInputs start (input :: inputs)).inactiveRecorded pid day =
              true ∧
            ¬ ((runInputs start inputs).pillars pid).UnstakingThatDay
              day)) := by
  constructor
  · rintro ⟨recording, earlier, throughout, suffix, fresh, flagged, charged⟩
    refine ⟨throughout.now, ?_⟩
    rcases List.suffix_cons_iff.mp suffix with newest | older
    · obtain ⟨rfl, rfl⟩ := List.cons.inj newest
      exact Or.inr ⟨throughout.initially, fresh, flagged, charged⟩
    · have proper := (List.suffix_cons recording earlier).trans older
      exact Or.inl ⟨recording, earlier,
        ((Throughout.cons_iff proper).mp throughout).1, older, fresh, flagged,
        charged⟩
  · rintro ⟨registered, ⟨recording, earlier, throughout, suffix, rest⟩ |
      ⟨before, fresh, flagged, charged⟩⟩
    · have proper := (List.suffix_cons recording earlier).trans suffix
      exact ⟨recording, earlier,
        (Throughout.cons_iff proper).mpr ⟨throughout, registered⟩,
        suffix.trans (List.suffix_cons input inputs), rest⟩
    · exact ⟨input, inputs,
        (Throughout.cons_iff (List.suffix_refl inputs)).mpr
          ⟨.refl before, registered⟩,
        List.suffix_refl _, fresh, flagged, charged⟩

end Histories

/-- `last` is the maximum of a set of positive days, or zero if there are
none. -/
def Latest (last : Nat) (days : Set Nat) : Prop :=
  (∀ day ∈ days, 0 < day ∧ day ≤ last) ∧ (last ≠ 0 → last ∈ days)

theorem latest_empty : Latest 0 ∅ := ⟨by simp, by simp⟩

/-- Adding a day to the set and taking the larger of it and the maximum. -/
theorem Latest.record {last day : Nat} {days : Set Nat}
    (latest : Latest last days) (positive : 0 < day) :
    Latest (if last < day then day else last) (insert day days) := by
  constructor
  · intro member memberMem
    rcases Set.mem_insert_iff.mp memberMem with rfl | older
    · refine ⟨positive, ?_⟩
      split <;> omega
    · have bound := latest.1 member older
      refine ⟨bound.1, ?_⟩
      split <;> omega
  · intro nonzero
    split
    · exact Set.mem_insert day days
    · rename_i notLater
      rw [if_neg notLater] at nonzero
      exact Set.mem_insert_of_mem day (latest.2 nonzero)

/-- Whether `last` is followed by the grace days before today, phrased with the
set. -/
theorem Latest.grace_iff {last today : Nat} {days : Set Nat}
    (latest : Latest last days) :
    (last = 0 ∨ last + inactiveGraceDays < today) ↔
      days = ∅ ∨
        ∃ greatest, IsGreatest days greatest ∧ greatest + 2 < today := by
  constructor
  · intro grace
    by_cases none : last = 0
    · left
      ext day
      simp only [Set.mem_empty_iff_false, iff_false]
      intro member
      have := latest.1 day member
      omega
    · exact Or.inr ⟨last, ⟨latest.2 none, fun day member =>
        (latest.1 day member).2⟩, grace.resolve_left none⟩
  · rintro (rfl | ⟨greatest, isGreatest, grace⟩)
    · left
      by_contra some
      exact latest.2 some
    · right
      have nonzero : last ≠ 0 := by
        have := latest.1 greatest isGreatest.1
        omega
      have := isGreatest.2 (latest.2 nonzero)
      simp only [inactiveGraceDays]
      omega

/-- The days recorded during a registration after an account has changed. -/
def daysAfter (account after : Account) (days : Set Nat) : Set Nat :=
  {day | account.pillar.operator ≠ 0 ∧
    (day ∈ days ∨ (account.recorded day = false ∧
      after.recorded day = true ∧ ¬ account.pillar.UnstakingThatDay day))}

/-- Only new flags add days. -/
theorem daysAfter_of_unflagged {account after : Account} {days : Set Nat}
    (standing : account.pillar.operator ≠ 0)
    (sameRecords : after.recorded = account.recorded) :
    daysAfter account after days = days := by
  ext day
  simp only [daysAfter, Set.mem_ofPred_eq, sameRecords]
  constructor
  · rintro ⟨_, member | ⟨fresh, flagged, _⟩⟩
    · exact member
    · simp [fresh] at flagged
  · exact fun member => ⟨standing, Or.inl member⟩

theorem Latest.unflagged {account after : Account} {days : Set Nat}
    (latest : Latest account.pillar.lastInactiveDay days)
    (standing : account.pillar.operator ≠ 0)
    (sameRecords : after.recorded = account.recorded)
    (sameLast : after.pillar.lastInactiveDay =
      account.pillar.lastInactiveDay) :
    Latest after.pillar.lastInactiveDay (daysAfter account after days) := by
  rw [daysAfter_of_unflagged standing sameRecords, sameLast]
  exact latest

/-- A registration starts without recorded days. -/
theorem daysAfter_of_unregistered {account after : Account} {days : Set Nat}
    (absent : account.pillar.operator = 0) :
    daysAfter account after days = ∅ := by
  ext day
  simp only [daysAfter, Set.mem_ofPred_eq, Set.mem_empty_iff_false, iff_false]
  exact fun member => member.1 absent

/-- Recording a day adds it unless it is exempt. -/
theorem daysAfter_recordedOn {account : Account} {day : Nat} {days : Set Nat}
    (recordable : account.Recordable day) :
    daysAfter account (account.recordedOn day) days =
      if account.pillar.UnstakingThatDay day then days
      else insert day days := by
  have flag : ∀ other, (account.recordedOn day).recorded other =
      if other = day then true else account.recorded other := by
    intro other
    simp only [Account.recordedOn, recordable, if_true]
    split
    · rename_i same
      simp [same]
    · rename_i different
      simp [different]
  ext other
  simp only [daysAfter, Set.mem_ofPred_eq, flag]
  by_cases same : other = day
  · subst same
    have standing : ¬ account.pillar.operator = 0#160 := recordable.1
    by_cases exempt : account.pillar.UnstakingThatDay other
    · simp [exempt, standing]
    · simp [exempt, standing, recordable.2.2]
  · have kept : other ∈ (if account.pillar.UnstakingThatDay day then days
        else insert day days) ↔ other ∈ days := by
      split
      · rfl
      · simp [same]
    rw [kept]
    simp only [same, if_false]
    constructor
    · rintro ⟨_, member | ⟨fresh, flagged, _⟩⟩
      · exact member
      · simp [fresh] at flagged
    · exact fun member => ⟨recordable.1, Or.inl member⟩

/-- One step of an account changes the last inactive day along with the set of
days recorded during the registration. -/
theorem Latest.step {msg : Msg this} {pid : Pid} {call : Call}
    {event : Option Event} {account after : Account} {days : Set Nat}
    (latest : account.pillar.operator ≠ 0 →
      Latest account.pillar.lastInactiveDay days)
    (step : Account.Step msg pid account call event after)
    (registered : after.pillar.operator ≠ 0) :
    Latest after.pillar.lastInactiveDay (daysAfter account after days) := by
  cases step with
  | unaffected =>
      exact (latest registered).unflagged registered rfl rfl
  | registered nonzero blank fits enough =>
      rw [daysAfter_of_unregistered (by rw [blank])]
      exact latest_empty
  | toppedUp operated idle =>
      exact (latest operated.1).unflagged operated.1 rfl rfl
  | endpointSet operated fits =>
      exact (latest operated.1).unflagged operated.1 rfl rfl
  | unstakeRequested operated idle =>
      exact (latest operated.1).unflagged operated.1 rfl rfl
  | unstakeCancelled operated pending =>
      exact (latest operated.1).unflagged operated.1 rfl rfl
  | withdrawn operated pending cooled => exact (registered rfl).elim
  | @recorded pids day member past recent recordable =>
      have before := latest recordable.1
      have positive : 0 < day := by
        have := recordable.2.1
        omega
      rw [daysAfter_recordedOn recordable]
      by_cases exempt : account.pillar.UnstakingThatDay day
      · simpa [Account.recordedOn, recordable, Pillar.recorded, exempt] using
          before
      · simpa [Account.recordedOn, recordable, Pillar.recorded, exempt] using
          before.record positive

section Activity

variable {token admin feeRecipient : Address} {balanceOf : Balances}
  {start : World} {pid : Pid}

/-- The last inactive day of a registered Pillar is the latest day recorded
against it during its registration. -/
theorem latest_recordedDuring
    (deployed : deploy this token admin feeRecipient balanceOf = .ok start)
    {inputs : List (Input this)}
    (registered : (runInputs start inputs).Registered pid) :
    Latest ((runInputs start inputs).pillars pid).lastInactiveDay
      {day | RecordedDuring start inputs pid day} := by
  induction inputs with
  | nil =>
      have blank := (account_deploy deployed pid).1
      exact (registered (congrArg (·.pillar.operator) blank)).elim
  | cons input inputs ih =>
      have days : {day | RecordedDuring start (input :: inputs) pid day} =
          daysAfter ((runInputs start inputs).account pid)
            ((runInputs start (input :: inputs)).account pid)
            {day | RecordedDuring start inputs pid day} := by
        ext day
        simp only [daysAfter, Set.mem_ofPred_eq, recordedDuring_cons]
        constructor
        · rintro ⟨_, older | ⟨before, newly⟩⟩
          · obtain ⟨_, _, throughout, _⟩ := id older
            exact ⟨throughout.now, Or.inl older⟩
          · exact ⟨before, Or.inr newly⟩
        · rintro ⟨before, older | newly⟩
          · exact ⟨registered, Or.inl older⟩
          · exact ⟨registered, Or.inr ⟨before, newly⟩⟩
      rw [days]
      rcases account_apply input (sound_runInputs deployed inputs) pid with
        ⟨accountEq, _⟩ | ⟨tx, event, rfl, _, step, _⟩
      · have pillarEq := congrArg Account.pillar accountEq
        have standing : (runInputs start inputs).Registered pid := by
          rw [Storage.Registered]
          change ((runInputs start inputs).account pid).pillar.operator ≠ 0
          rw [← pillarEq]
          exact registered
        exact (ih standing).unflagged standing
          (congrArg Account.recorded accountEq)
          (congrArg Pillar.lastInactiveDay pillarEq)
      · exact Latest.step ih step registered

theorem isActive_iff {storage : Storage} {now : Nat}
    (registered : storage.Registered pid) :
    isActive storage now pid = true ↔
      threshold ≤ (storage.pillars pid).staked ∧
        (storage.pillars pid).unstakeRequestedAt = 0 ∧
        ((storage.pillars pid).lastInactiveDay = 0 ∨
          (storage.pillars pid).lastInactiveDay + inactiveGraceDays <
            now / oneDay) := by
  have standing : ¬ (storage.pillars pid).operator = 0 := registered
  simp only [isActive, standing, false_or]
  split_ifs with ejected never
  · simp only [false_iff]
    rintro ⟨enough, idle, _⟩
    omega
  · simp only [true_iff]
    omega
  · simp only [decide_eq_true_eq]
    omega

/-- Deactivation cannot be bought off.  A day recorded during the current
registration, and not exempt, keeps the Pillar inactive up to two days after
it; and a registered Pillar is active exactly if it holds the threshold, has no
unstake pending, and today is more than two days after the greatest such day,
if there is one. -/
theorem activity {inputs : List (Input this)}
    (deployed : deploy this token admin feeRecipient balanceOf = .ok start) :
    let world := runInputs start inputs
    let days := {day | RecordedDuring start inputs pid day}
    (∀ day ∈ days, ∀ now, now / oneDay ≤ day + 2 →
        isActive world.toStorage now pid = false) ∧
      (world.Registered pid → ∀ now,
        isActive world.toStorage now pid = true ↔
          threshold ≤ (world.pillars pid).staked ∧
            (world.pillars pid).unstakeRequestedAt = 0 ∧
            (days = ∅ ∨ ∃ greatest, IsGreatest days greatest ∧
              greatest + 2 < now / oneDay)) := by
  intro world days
  constructor
  · intro day member now soon
    obtain ⟨_, _, throughout, _⟩ := id member
    have registered : world.Registered pid := throughout.now
    have bound := (latest_recordedDuring deployed registered).1 day member
    rw [← Bool.not_eq_true, isActive_iff registered]
    rintro ⟨_, _, grace⟩
    change _ ∨ _ + inactiveGraceDays < _ at grace
    simp only [inactiveGraceDays] at grace
    change 0 < day ∧ day ≤ (world.pillars pid).lastInactiveDay at bound
    omega
  · intro registered now
    rw [isActive_iff registered,
      (latest_recordedDuring deployed registered).grace_iff]

/-- The recorded day 2 keeps the Pillar inactive on day 4. -/
theorem activity_charged :
    isActive (runInputs fundedWorld chargedRun).toStorage (4 * oneDay) 7 =
      false := by
  have recorded : RecordedDuring fundedWorld chargedRun 7 2 := by
    refine ⟨_, chargedRun.tail, ?_, List.suffix_refl chargedRun, ?_⟩
    · exact (Throughout.cons_iff (List.suffix_refl _)).mpr
        ⟨.refl (by decide +kernel), by decide +kernel⟩
    · decide +kernel
  exact (activity deploy_fundedWorld).1 2 recorded (4 * oneDay) (by decide)

end Activity

end PillarStaking

end RefinetPillars
