import RefinetPillars.LivenessSubmissions

/-!
# Dry runs of the monitor

The loop of the monitor with and without a submitter.  A lifetime of the process
is a list of turns of the loop, and may be stopped inside a last one.  Two runs
are compared: in one of them some lifetimes are dry runs, in the other these
lifetimes only probe.
-/

namespace RefinetPillars

namespace LivenessMonitor

open CrashableActions CrashableActions.Action HexText PillarStaking RunHistory

variable {this : Address}

/-- What one turn of the loop finds: the time of its round, the results unless
the round fails, the time at which it looks for days to finalize, and the times
at which the days fail that do. -/
structure Turn where
  started : Int
  probed : Option (List (Text × Bool))
  judged : Int
  failedAt : Int → Int

/-- The newest day that the turn finalizes. -/
def Turn.yesterday (turn : Turn) : Int :=
  utcDay (turn.judged - finalizeDelaySec) - 1

/-- How the monitor is run: with a submitter, without one, or, for comparison,
without the part that finalizes. -/
inductive Mode (this : Address) where
  | submitting (submitter : Submitter this)
  | dryRun
  | probing

def System.round (ts : Int) (results : List (Text × Bool))
    (system : System this) : System this :=
  { system with db := system.db.recordRound ts results }

def System.setLastFinalizedDay (day : Int) (system : System this) :
    System this :=
  { system with db := system.db.setLastFinalizedDay day }

/-- The finalizing loop; its value is `last_finalized`. -/
def finalizeDays (submit : Option (Submitter this)) (failedAt : Int → Int) :
    Nat → Int → Action (System this) Text Int
  | 0, last => pure last
  | days + 1, last => do
      let finalized ← handle
        (do
          let _ ← finalizeDay (last + 1) submit
          pure true)
        fun _ => pure false
      if finalized = false ∧
          utcDay (failedAt (last + 1)) - LivenessMonitor.maxBackfillDays <
            last + 1 then
        pure last
      else do
        perform (System.setLastFinalizedDay (last + 1))
        finalizeDays submit failedAt days (last + 1)

/-- One turn of the loop of `run`. -/
def runTurn (mode : Mode this) (turn : Turn) (last : Int) :
    Action (System this) Text Int := do
  match turn.probed with
  | some results => perform (System.round turn.started results)
  | none => pure ()
  match mode with
  | .submitting submitter =>
      finalizeDays (some submitter) turn.failedAt
        (turn.yesterday - last).toNat last
  | .dryRun =>
      finalizeDays none turn.failedAt (turn.yesterday - last).toNat last
  | .probing => pure last

/-- The system and `last_finalized` after a whole turn. -/
def turned (mode : Mode this) (before : System this × Int) (turn : Turn) :
    System this × Int :=
  (final (runTurn mode turn before.2) before.1,
    match (runTurn mode turn before.2 before.1).1 with
    | .ok last => last
    | .error _ => before.2)

/-- One lifetime of the process: whole turns, and perhaps one in which it is
stopped after so many changes of the database and the chain. -/
structure Lifetime (this : Address) where
  mode : Mode this
  now : Int
  turns : List Turn
  cut : Option (Turn × Nat)

/-- `last_finalized` before the first turn. -/
def Lifetime.start (lifetime : Lifetime this) (system : System this) : Int :=
  (Process.started system.db lifetime.now).lastFinalized

def Lifetime.apply (lifetime : Lifetime this) (system : System this) :
    System this :=
  let ended := lifetime.turns.foldl (turned lifetime.mode)
    (system, lifetime.start system)
  match lifetime.cut with
  | none => ended.1
  | some (turn, count) =>
      stopped count (runTurn lifetime.mode turn ended.2) ended.1

/-- The system after a sequence of lifetimes, newest first. -/
abbrev runLifetimes (db : Database) (lifetimes : List (Lifetime this)) :
    System this :=
  run Lifetime.apply { db := db } lifetimes

/-- The same lifetime, but a dry run only probes. -/
def Lifetime.onlyProbing (lifetime : Lifetime this) : Lifetime this :=
  match lifetime.mode with
  | .dryRun => { lifetime with mode := .probing }
  | _ => lifetime

/-- The pairs of a day and a PID that a lifetime submits. -/
def Lifetime.submits (lifetime : Lifetime this) (system : System this) :
    Set (Int × Text) :=
  {pair | (lifetime.apply system).db.Submitted pair.1 pair.2 ∧
    ¬ system.db.Submitted pair.1 pair.2}

/-- The turns of a lifetime, the last one perhaps not whole. -/
def Lifetime.allTurns (lifetime : Lifetime this) : List Turn :=
  lifetime.turns ++ (lifetime.cut.map Prod.fst).toList

/-- No turn of a dry run comes to the end of a day later than the one from which
it starts. -/
def Lifetime.NoDryDay (lifetime : Lifetime this) (system : System this) : Prop :=
  lifetime.mode = .dryRun →
    ∀ turn ∈ lifetime.allTurns, turn.yesterday ≤ lifetime.start system

section Turns

variable {system : System this} {turn : Turn} {last : Int}

/-- A turn that finalizes nothing is only a round. -/
theorem runTurn_dryRun (nothing : turn.yesterday ≤ last) :
    runTurn (.dryRun : Mode this) turn last = runTurn .probing turn last := by
  have noDays : (turn.yesterday - last).toNat = 0 := by omega
  simp only [runTurn, noDays, finalizeDays]

theorem turned_probing :
    (turned .probing (system, last) turn).2 = last := by
  cases probed : turn.probed <;> simp [turned, runTurn, probed]

theorem foldl_turned_dryRun {turns : List Turn}
    (nothing : ∀ turn ∈ turns, turn.yesterday ≤ last) :
    turns.foldl (turned .dryRun) (system, last) =
        turns.foldl (turned .probing) (system, last) ∧
      (turns.foldl (turned .probing) (system, last)).2 = last := by
  induction turns generalizing system with
  | nil => exact ⟨rfl, rfl⟩
  | cons turn turns ih =>
      have first : turned .dryRun (system, last) turn =
          turned .probing (system, last) turn := by
        simp only [turned, runTurn_dryRun (nothing turn (by simp))]
      have stays : turned .probing (system, last) turn =
          ((turned .probing (system, last) turn).1, last) :=
        Prod.ext rfl turned_probing
      rw [List.foldl_cons, List.foldl_cons, first, stays]
      exact ih fun turn member => nothing turn (by simp [member])

theorem finalizeDays_none_succ (failedAt : Int → Int) (days : Nat) :
    finalizeDays none failedAt (days + 1) last system =
      ((finalizeDays none failedAt days (last + 1)
          (system.setLastFinalizedDay (last + 1))).1,
        system.setLastFinalizedDay (last + 1) ::
          (finalizeDays none failedAt days (last + 1)
            (system.setLastFinalizedDay (last + 1))).2) := by
  have judged : handle
      (do
        let _ ← finalizeDay (last + 1) none
        pure true)
      (fun _ => pure false) system = (.ok true, []) := by
    rw [handle, bind_of_unchanged (finalizeDay_apply none)]
    rfl
  rw [finalizeDays, bind_of_unchanged judged]
  simp

/-- A dry run moves the cursor past every day that it comes to. -/
theorem cursor_finalizeDays_none (failedAt : Int → Int) (days : Nat) :
    (final (finalizeDays none failedAt (days + 1) last) system).db.cursor =
      some (last + days + 1) := by
  induction days generalizing last system with
  | zero =>
      rw [final, finalizeDays_none_succ]
      simp [finalizeDays, System.setLastFinalizedDay,
        Database.setLastFinalizedDay]
  | succ days ih =>
      have total : last + ((days + 1 : Nat) : Int) + 1 =
          last + 1 + days + 1 := by omega
      rw [final, finalizeDays_none_succ, List.getLastD_cons, total]
      exact ih

/-- A whole turn that comes to the end of a day moves the cursor. -/
theorem cursor_runTurn_dryRun (due : last < turn.yesterday) :
    (final (runTurn .dryRun turn last) system).db.cursor =
      some turn.yesterday := by
  obtain ⟨days, count⟩ : ∃ days, (turn.yesterday - last).toNat = days + 1 :=
    ⟨(turn.yesterday - last).toNat - 1, by omega⟩
  have newest : last + (days : Int) + 1 = turn.yesterday := by omega
  rw [← newest]
  cases probed : turn.probed with
  | none =>
      have ran : runTurn .dryRun turn last system =
          finalizeDays none turn.failedAt (days + 1) last system := by
        simp only [runTurn, probed, count]
      rw [final, ran]
      exact cursor_finalizeDays_none _ _
  | some results =>
      have ran : (runTurn .dryRun turn last system).2 =
          system.round turn.started results ::
            (finalizeDays none turn.failedAt (days + 1) last
              (system.round turn.started results)).2 := by
        simp only [runTurn, probed, count, perform_bind_apply]
      rw [final, ran, List.getLastD_cons]
      exact cursor_finalizeDays_none _ _

end Turns

section Lifetimes

variable {lifetime : Lifetime this} {system : System this}

/-- Without a day to finalize, a dry run leaves what probing alone leaves. -/
theorem apply_onlyProbing
    (nothing : lifetime.NoDryDay system) :
    lifetime.onlyProbing.apply system = lifetime.apply system := by
  obtain ⟨mode, now, turns, cut⟩ := lifetime
  cases mode with
  | submitting submitter => rfl
  | probing => rfl
  | dryRun =>
      have quiet := nothing rfl
      obtain ⟨same, stays⟩ := @foldl_turned_dryRun _ system _ turns
        fun turn member => quiet turn (List.mem_append_left _ member)
      rw [Lifetime.onlyProbing, Lifetime.apply, Lifetime.apply]
      dsimp only
      cases cut with
      | none => exact congrArg Prod.fst same.symm
      | some last =>
          have quietLast := quiet last.1
            (List.mem_append_right _ (List.mem_singleton.mpr rfl))
          obtain ⟨turn, count⟩ := last
          rw [← stays] at quietLast
          change stopped count (runTurn .probing turn _) _ =
            stopped count (runTurn .dryRun turn
              (turns.foldl (turned .dryRun) (system, _)).2)
              (turns.foldl (turned .dryRun) (system, _)).1
          rw [same, runTurn_dryRun quietLast]
          rfl

/-- A dry run is inert as long as no turn of it comes to the end of a day later
than the one from which it starts.  Then a later lifetime submits what it
submits if the dry runs have only probed. -/
theorem dryRun_inert {db : Database} {lifetimes : List (Lifetime this)}
    (nothing : Admitted Lifetime.apply { db := db } Lifetime.NoDryDay
      lifetimes)
    (last : Lifetime this) :
    last.submits (runLifetimes db lifetimes) =
      last.submits (runLifetimes db (lifetimes.map Lifetime.onlyProbing)) := by
  have same : runLifetimes db (lifetimes.map Lifetime.onlyProbing) =
      runLifetimes db lifetimes := by
    induction lifetimes with
    | nil => rfl
    | cons lifetime earlier ih =>
        have before := ih (nothing.of_suffix (List.suffix_cons _ _))
        rw [List.map_cons]
        change lifetime.onlyProbing.apply (runLifetimes db _) = _
        rw [before]
        exact apply_onlyProbing
          (nothing lifetime earlier (List.suffix_refl _))
  rw [same]

/-- A turn at two o'clock on day 3, in which no probe is made. -/
def nightTurn : Turn where
  started := 3 * 86400 + 7200
  probed := none
  judged := 3 * 86400 + 7200
  failedAt _ := 3 * 86400 + 7200

/-- The monitor is run dry on the day after the judged one. -/
def dryNight : Lifetime 1 where
  mode := .dryRun
  now := 3 * 86400 + 7200
  turns := [nightTurn]
  cut := none

/-- The monitor is started with a submitter afterwards. -/
def submittingNight : Lifetime 1 where
  mode := .submitting fun _ _ _ => (.ok "01".toList, [])
  now := 3 * 86400 + 7200
  turns := [nightTurn]
  cut := none

/-- A dry run that is stopped before the day is over. -/
def dryEvening : Lifetime 1 where
  mode := .dryRun
  now := 3 * 86400 + 1800
  turns := [{ nightTurn with judged := 3 * 86400 + 1800 }]
  cut := none

/-- A day that was judged in a dry run is never submitted, although the contract
still accepts it. -/
theorem not_dryRun_inert :
    submittingNight.submits (runLifetimes judgedDay [dryNight]) ≠
        submittingNight.submits
          (runLifetimes judgedDay ([dryNight].map Lifetime.onlyProbing)) ∧
      ¬ Refused 2 submittingNight.now := by
  have lost : ¬ (submittingNight.apply (runLifetimes judgedDay
      [dryNight])).db.Submitted 2 (StakingReader.pidText 7) := by
    decide +kernel
  have kept : (submittingNight.apply (runLifetimes judgedDay
      ([dryNight].map Lifetime.onlyProbing))).db.Submitted 2
        (StakingReader.pidText 7) := by
    decide +kernel
  have open' : ¬ (runLifetimes judgedDay
      ([dryNight].map Lifetime.onlyProbing)).db.Submitted 2
        (StakingReader.pidText 7) := by
    decide +kernel
  refine ⟨fun same => ?_, by decide⟩
  have member : (2, StakingReader.pidText 7) ∈ submittingNight.submits
      (runLifetimes judgedDay ([dryNight].map Lifetime.onlyProbing)) :=
    ⟨kept, open'⟩
  rw [← same] at member
  exact lost member.1

/-- Half an hour after midnight there is no day to finalize. -/
theorem dryRun_inert_evening :
    submittingNight.submits (runLifetimes judgedDay [dryEvening]) =
      submittingNight.submits
        (runLifetimes judgedDay ([dryEvening].map Lifetime.onlyProbing)) := by
  have quiet : dryEvening.NoDryDay (runLifetimes judgedDay []) := by
    intro _ turn member
    obtain rfl := List.mem_singleton.mp member
    decide +kernel
  exact dryRun_inert (admitted_nil.cons quiet) submittingNight

end Lifetimes

end LivenessMonitor

end RefinetPillars
