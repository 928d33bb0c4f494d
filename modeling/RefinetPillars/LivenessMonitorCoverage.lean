import RefinetPillars.LivenessMonitor

/-!
# How much of a day the monitor has covered

A day is judged by the number of its rounds, whenever they were run.  The number
measures how much of the day is covered as long as no round starts in a quarter
hour that already has one, but every restart of the monitor runs a round at
once.
-/

namespace RefinetPillars

namespace LivenessMonitor

open HexText RunHistory

def roundIntervalSec : Nat := 900

/-- The quarter hour of a time, counted from the epoch. -/
def quarterHour (ts : Int) : Int := ts / roundIntervalSec

/-- The quarter hours of a day in which a round was completed. -/
def Database.coveredSlots (db : Database) (day : Int) : Finset Nat :=
  (Finset.range roundsPerDay).filter fun slot =>
    ∃ ts ∈ db.rounds, quarterHour ts = day * roundsPerDay + slot

/-- Whoever is judged inactive is so on the strength of a day of which at least
four fifths is covered. -/
def Database.JudgesCovered (db : Database) : Prop :=
  ∀ day, (inactiveForDay db day).1 ≠ [] →
    4 * roundsPerDay ≤ 5 * (db.coveredSlots day).card

/-- A round that completes is the first one of its quarter hour. -/
def SlotFree : Input → Monitor → Prop
  | .tick found, ⟨db, some process⟩ =>
      process.phase = .probing → found.probed.isSome → ∀ ts ∈ db.rounds,
        quarterHour ts = quarterHour found.now → ts = found.now
  | _, _ => True

/-- Rounds at least a quarter hour after all others are in free slots. -/
theorem slotFree_of_spaced {found : Tick} {db : Database}
    {process : Option Process}
    (spaced : ∀ ts ∈ db.rounds, ts + roundIntervalSec ≤ found.now) :
    SlotFree (.tick found) ⟨db, process⟩ := by
  cases process with
  | none => trivial
  | some process =>
      intro _ _ ts recorded sameSlot
      have apart := spaced ts recorded
      simp only [quarterHour, roundIntervalSec] at apart sameSlot
      omega

/-- Only days with enough rounds are judged. -/
theorem enough_rounds {db : Database} {day : Int}
    (judged : (inactiveForDay db day).1 ≠ []) :
    4 * roundsPerDay ≤ 5 * db.rounds.countP (duringDay day) := by
  by_contra few
  apply judged
  rw [inactiveForDay, if_pos (by omega)]

/-- Rounds in different quarter hours cover as many slots as there are
rounds. -/
theorem countP_le_card_coveredSlots {db : Database} (day : Int)
    (distinct : (db.rounds.map quarterHour).Nodup) :
    db.rounds.countP (duringDay day) ≤ (db.coveredSlots day).card := by
  have slotsNodup : ((db.rounds.filter (duringDay day)).map fun ts =>
      (quarterHour ts - day * roundsPerDay).toNat).Nodup := by
    refine List.Nodup.map_on ?_ (distinct.of_map.filter _)
    intro first firstMem second secondMem same
    obtain ⟨firstMem, firstDay⟩ := List.mem_filter.mp firstMem
    obtain ⟨secondMem, secondDay⟩ := List.mem_filter.mp secondMem
    apply List.inj_on_of_nodup_map distinct firstMem secondMem
    rw [duringDay_iff, utcDay] at firstDay secondDay
    simp only [quarterHour, roundIntervalSec, roundsPerDay] at same ⊢
    omega
  rw [List.countP_eq_length_filter, ← List.length_map, ←
    List.toFinset_card_of_nodup slotsNodup]
  apply Finset.card_le_card
  intro slot slotMem
  obtain ⟨ts, tsMem, rfl⟩ := List.mem_map.mp (List.mem_toFinset.mp slotMem)
  obtain ⟨recorded, during⟩ := List.mem_filter.mp tsMem
  rw [duringDay_iff, utcDay] at during
  rw [Database.coveredSlots, Finset.mem_filter, Finset.mem_range]
  simp only [quarterHour, roundIntervalSec, roundsPerDay]
  refine ⟨by omega, ts, recorded, by omega⟩

/-- A step writes a round only while it is probing. -/
theorem Process.step_rounds (found : Tick) (db : Database)
    (process : Process) :
    (process.step found db).db.rounds = db.rounds ∨
      process.phase = .probing ∧ found.probed.isSome ∧
        (process.step found db).db.rounds =
          if found.now ∈ db.rounds then db.rounds
          else db.rounds ++ [found.now] := by
  unfold Process.step
  cases phaseEq : process.phase with
  | probing =>
      cases probedEq : found.probed with
      | some results => exact Or.inr ⟨rfl, rfl, rfl⟩
      | none => exact Or.inl rfl
  | probed => exact Or.inl rfl
  | finalizing yesterday =>
      left
      dsimp only
      split
      · split <;> rfl
      · rfl
  | submitting yesterday todo =>
      left
      cases found.tx with
      | some tx => exact (markSubmitted_tables db _ _ tx).1
      | none =>
          dsimp only
          split <;> rfl
  | finalized yesterday => exact Or.inl rfl

/-- The rounds stay in different quarter hours. -/
theorem distinct_apply {input : Input} {monitor : Monitor}
    (free : SlotFree input monitor)
    (distinct : (monitor.db.rounds.map quarterHour).Nodup) :
    ((input.apply monitor).db.rounds.map quarterHour).Nodup := by
  obtain ⟨db, process⟩ := monitor
  cases input with
  | start now => cases process <;> exact distinct
  | stop now => cases process <;> exact distinct
  | tick found =>
      cases process with
      | none => exact distinct
      | some process =>
          change ((process.step found db).db.rounds.map quarterHour).Nodup
          rcases process.step_rounds found db with
            same | ⟨probing, completed, recorded⟩
          · rw [same]
            exact distinct
          · rw [recorded]
            split
            · exact distinct
            · rename_i fresh
              rw [List.map_append, List.map_singleton, List.nodup_append']
              refine ⟨distinct, List.nodup_singleton _, ?_⟩
              rw [List.disjoint_singleton]
              intro taken
              obtain ⟨ts, known, sameSlot⟩ := List.mem_map.mp taken
              have sameTime := free probing completed ts known sameSlot
              exact fresh (sameTime ▸ known)

/-- A monitor whose rounds start in free slots judges only covered days. -/
theorem judgesCovered_of_slotFree {inputs : List Input}
    (free : Admitted Input.apply .initial SlotFree inputs) :
    ∀ moment, moment <:+ inputs → (runMonitor moment).db.JudgesCovered := by
  intro moment suffix day judged
  have distinct :
      ((runMonitor moment).db.rounds.map quarterHour).Nodup :=
    (free.of_suffix suffix).invariant (by simp [Monitor.initial])
      fun _ _ => distinct_apply
  have counted := countP_le_card_coveredSlots day distinct
  have enough := enough_rounds judged
  omega

section Restarts

/-- What a round finds: one Pillar answers and one does not. -/
def roundAt (now : Int) : Tick :=
  ⟨now, some [("aa".toList, true), ("bb".toList, false)], none⟩

/-- From the first second of a day on, the monitor is started every `gap`
seconds, completes a round and is stopped. -/
def restarting (gap : Nat) : Nat → List Input
  | 0 => []
  | restarts + 1 =>
      let now : Int := 20000 * 86400 + gap * restarts
      .stop now :: .tick (roundAt now) :: .start now :: restarting gap restarts

/-- Restarts within two minutes make up the rounds of a whole day. -/
theorem judgesCovered_restarting :
    ¬ ∀ inputs, (runMonitor inputs).db.JudgesCovered := by
  intro covered
  have judged :
      (inactiveForDay (runMonitor (restarting 1 77)).db 20000).1 ≠ [] ∧
        ¬ 4 * roundsPerDay ≤
          5 * ((runMonitor (restarting 1 77)).db.coveredSlots 20000).card := by
    decide +kernel
  exact judged.2 (covered _ 20000 judged.1)

/-- One restart of a monitor whose rounds are `gap` old. -/
theorem restart_rounds {gap now : Int} {db : Database}
    (spaced : ∀ ts ∈ db.rounds, ts + gap ≤ now) :
    ∃ after : Database,
      (Input.stop now).apply ((Input.tick (roundAt now)).apply
        ((Input.start now).apply ⟨db, none⟩)) = ⟨after, none⟩ ∧
      ∀ ts ∈ after.rounds, ts + gap ≤ now + gap ∨ ts + gap ≤ now := by
  refine ⟨_, rfl, fun ts recorded => ?_⟩
  change ts ∈ (if now ∈ db.rounds then db.rounds else db.rounds ++ [now])
    at recorded
  split at recorded
  · exact Or.inr (spaced ts recorded)
  · rcases List.mem_append.mp recorded with earlier | newest
    · exact Or.inr (spaced ts earlier)
    · exact Or.inl (by rw [List.mem_singleton.mp newest])

/-- Between restarts no process runs, and the rounds are `gap` apart. -/
theorem restarting_rounds (gap restarts : Nat) :
    ∃ db : Database, runMonitor (restarting gap restarts) = ⟨db, none⟩ ∧
      ∀ ts ∈ db.rounds, ts + gap ≤ 20000 * 86400 + gap * restarts := by
  induction restarts with
  | zero => exact ⟨{}, rfl, fun ts recorded => by cases recorded⟩
  | succ restarts ih =>
      obtain ⟨db, stopped, spaced⟩ := ih
      obtain ⟨after, restarted, recent⟩ := restart_rounds spaced
      refine ⟨after, ?_, fun ts recorded => ?_⟩
      · rw [← restarted, ← stopped]
        rfl
      · push_cast
        rcases recent ts recorded with newest | earlier <;> linarith

/-- Restarts every quarter hour. -/
theorem restarting_admitted (restarts : Nat) :
    Admitted Input.apply .initial SlotFree
      (restarting roundIntervalSec restarts) := by
  induction restarts with
  | zero => exact admitted_nil
  | succ restarts ih =>
      obtain ⟨db, stopped, spaced⟩ :=
        restarting_rounds roundIntervalSec restarts
      let now : Int := 20000 * 86400 + roundIntervalSec * restarts
      have started : Admitted Input.apply .initial SlotFree
          (.start now :: restarting roundIntervalSec restarts) :=
        ih.cons trivial
      have free : SlotFree (.tick (roundAt now))
          ((Input.start now).apply
            (runMonitor (restarting roundIntervalSec restarts))) := by
        rw [stopped]
        exact slotFree_of_spaced spaced
      exact (started.cons free).cons trivial

/-- A day judged on 77 rounds, in as many quarter hours. -/
theorem judgesCovered_quarterHourly :
    (inactiveForDay (runMonitor (restarting 900 77)).db 20000).1 =
        ["bb".toList] ∧
      (runMonitor (restarting 900 77)).db.JudgesCovered := by
  refine ⟨by decide +kernel, ?_⟩
  exact judgesCovered_of_slotFree (restarting_admitted 77) _
    (List.suffix_refl _)

end Restarts

end LivenessMonitor

end RefinetPillars
