import RefinetPillars.HttpGatewayAnswers
import RefinetPillars.LivenessDatabase
import RefinetPillars.StakingStatus
import RefinetPillars.WellKnown

/-!
# The rounds of the liveness monitor

A round reads the directory, asks for the standing of every Pillar in it, and
probes those that have an operator and an endpoint.  The tables then say which
Pillars were probed and what came back, and a day is judged from them.
-/

namespace RefinetPillars

namespace LivenessMonitor

open ContentSigning HexText StakingReader
open HttpGateway (verifyProbe)
open WellKnown (normalizeDomain isValidDomain)

section Probing

variable (scheme : Scheme) (lower : Text → Text)

/-- What a round finds.  `directory` is missing when reading it raises, and
`fetch` when no answer of the domain comes in time. -/
structure Round where
  ts : Int
  directory : Option (List Text)
  status : Text → StakeStatus
  fetch : Text → Option (List (Text × Text) × List UInt8)
  now : Text → ℚ

/-- `probe_health`, at the time at which the answer of the PID is checked. -/
def probeHealth (round : Round) (pid endpoint : Text) : Bool :=
  let domain := normalizeDomain lower endpoint
  if isValidDomain domain = false then false
  else
    match round.fetch domain with
    | none => false
    | some (headers, body) => verifyProbe scheme pid headers body (round.now pid)

theorem probeHealth_of_fetch {scheme : Scheme} {lower : Text → Text}
    {round : Round} {pid endpoint : Text} {headers : List (Text × Text)}
    {body : List UInt8}
    (valid : isValidDomain (normalizeDomain lower endpoint) = true)
    (fetched : round.fetch (normalizeDomain lower endpoint) =
      some (headers, body)) :
    probeHealth scheme lower round pid endpoint =
      verifyProbe scheme pid headers body (round.now pid) := by
  simp [probeHealth, valid, fetched]

/-- What comes of one PID of the directory. -/
def Round.one (round : Round) (pid : Text) : Option (Text × Bool) :=
  let status := round.status pid
  if status.operator.getD [] = [] ∨ status.endpoint = [] then none
  else some (pid, probeHealth scheme lower round pid status.endpoint)

def runRound (db : Database) (round : Round) : Database :=
  match round.directory with
  | none => db
  | some pids =>
      db.recordRound round.ts (pids.filterMap (round.one scheme lower))

/-- The tables after a sequence of rounds on a new database, oldest first. -/
def runRounds (rounds : List Round) : Database :=
  rounds.foldl (runRound scheme lower) {}

/-- The round is completed and probes the PID. -/
def Round.Probes (round : Round) (pid : Text) : Prop :=
  ∃ pids ∈ round.directory, pid ∈ pids ∧
    (round.status pid).operator.getD [] ≠ [] ∧ (round.status pid).endpoint ≠ []

/-- The round probes the PID, and the answer verifies. -/
def Round.Answered (round : Round) (pid : Text) : Prop :=
  round.Probes pid ∧
    probeHealth scheme lower round pid (round.status pid).endpoint = true

end Probing

section Judging

variable {db : Database} {day : Int} {pid : Text}

/-- On a day that is judged, a Pillar none of whose probes succeeded is inactive
if and only if it was probed. -/
theorem mem_inactiveForDay_of_silent
    (covered : 4 * roundsPerDay ≤ 5 * db.rounds.countP (duringDay day))
    (answered : ∃ row ∈ db.probes, duringDay day row.ts = true ∧ row.ok = true)
    (silent : ∀ row ∈ db.probes, duringDay day row.ts = true → row.pid = pid →
      row.ok = false) :
    pid ∈ (inactiveForDay db day).1 ↔
      ∃ row ∈ db.probes, duringDay day row.ts = true ∧ row.pid = pid := by
  obtain ⟨heard, heardMem, heardDay, heardOk⟩ := answered
  let rows := db.probes.filter fun row => duringDay day row.ts
  have heardRow : heard ∈ rows := List.mem_filter.mpr ⟨heardMem, heardDay⟩
  have judged : ¬ ((rows.map Probe.pid).dedup ≠ [] ∧
      ∀ pid ∈ (rows.map Probe.pid).dedup,
        (rows.countP fun row => row.pid = pid ∧ row.ok) = 0) := by
    rintro ⟨_, none⟩
    have zero := none heard.pid
      (List.mem_dedup.mpr (List.mem_map_of_mem heardRow))
    rw [List.countP_eq_zero] at zero
    exact zero heard heardRow (by simp [heardOk])
  have noSuccess : (rows.countP fun row => row.pid = pid ∧ row.ok) = 0 := by
    rw [List.countP_eq_zero]
    intro row member
    obtain ⟨inTable, during⟩ := List.mem_filter.mp member
    rw [decide_eq_true_eq]
    rintro ⟨own, ok⟩
    rw [silent row inTable during own] at ok
    cases ok
  have enough : ¬ 5 * db.rounds.countP (duringDay day) < 4 * roundsPerDay := by
    omega
  have unfolded : (inactiveForDay db day).1 =
      ((rows.map Probe.pid).dedup.filter fun pid =>
        0 < (rows.countP fun row => row.pid = pid) ∧
          5 * (rows.countP fun row => row.pid = pid ∧ row.ok) <
            4 * rows.countP fun row => row.pid = pid).insertionSort
              (· ≤ ·) := by
    rw [inactiveForDay, if_neg enough]
    dsimp only
    rw [if_neg judged]
  rw [unfolded, (List.perm_insertionSort _ _).mem_iff, List.mem_filter,
    List.mem_dedup, List.mem_map]
  constructor
  · rintro ⟨⟨row, member, own⟩, _⟩
    obtain ⟨inTable, during⟩ := List.mem_filter.mp member
    exact ⟨row, inTable, during, own⟩
  · rintro ⟨row, inTable, during, own⟩
    have member : row ∈ rows := List.mem_filter.mpr ⟨inTable, during⟩
    have probed : 0 < rows.countP fun row => row.pid = pid :=
      List.countP_pos_iff.mpr ⟨row, member, by simp [own]⟩
    refine ⟨⟨row, member, own⟩, ?_⟩
    rw [decide_eq_true_eq, noSuccess]
    omega

end Judging

section Tables

variable {ts : Int} {probes : List Probe} {results : List (Text × Bool)}
  {row : Probe}

/-- The rows after a round that no earlier round shares its time with. -/
theorem mem_insertProbes (fresh : ∀ row ∈ probes, row.ts ≠ ts)
    (consistent : ∀ first ∈ results, ∀ second ∈ results,
      first.1 = second.1 → first.2 = second.2) :
    row ∈ results.foldl (insertProbe ts) probes ↔
      row ∈ probes ∨ (row.ts = ts ∧ (row.pid, row.ok) ∈ results) := by
  induction results using List.reverseRecOn with
  | nil => simp
  | append_singleton results result ih =>
      have before := ih fun first firstMem second secondMem =>
        consistent first (List.mem_append_left _ firstMem) second
          (List.mem_append_left _ secondMem)
      rw [List.foldl_append, List.foldl_cons, List.foldl_nil, insertProbe,
        List.mem_append, List.mem_filter, before, List.mem_singleton,
        List.mem_append, List.mem_singleton]
      constructor
      · rintro (⟨earlier | ⟨now, earlier⟩, _⟩ | rfl)
        · exact Or.inl earlier
        · exact Or.inr ⟨now, Or.inl earlier⟩
        · exact Or.inr ⟨rfl, Or.inr rfl⟩
      · rintro (earlier | ⟨now, earlier | newest⟩)
        · have other := fresh row earlier
          exact Or.inl ⟨Or.inl earlier, by simp [other]⟩
        · by_cases same : row.pid = result.1
          · have value := consistent (row.pid, row.ok)
              (List.mem_append_left _ earlier) result (by simp) same
            right
            rw [← same, ← value, ← now]
          · exact Or.inl ⟨Or.inr ⟨now, earlier⟩, by simp [same]⟩
        · right
          rw [← newest, ← now]

variable {scheme : Scheme} {lower : Text → Text} {rounds : List Round}
  {round : Round} {pid : Text}

theorem mem_one {ok : Bool} {pids : List Text} :
    (pid, ok) ∈ pids.filterMap (round.one scheme lower) ↔
      pid ∈ pids ∧ (round.status pid).operator.getD [] ≠ [] ∧
        (round.status pid).endpoint ≠ [] ∧
        probeHealth scheme lower round pid (round.status pid).endpoint = ok := by
  rw [List.mem_filterMap]
  constructor
  · rintro ⟨other, member, found⟩
    rw [Round.one] at found
    split_ifs at found with skipped
    obtain ⟨rfl, rfl⟩ := Prod.mk.inj (Option.some.inj found)
    rw [not_or] at skipped
    exact ⟨member, skipped.1, skipped.2, rfl⟩
  · rintro ⟨member, operator, endpoint, rfl⟩
    refine ⟨pid, member, ?_⟩
    rw [Round.one, if_neg (not_or.mpr ⟨operator, endpoint⟩)]

theorem runRounds_append :
    runRounds scheme lower (rounds ++ [round]) =
      runRound scheme lower (runRounds scheme lower rounds) round := by
  rw [runRounds, List.foldl_append]
  rfl

/-- The rows are the probes of the rounds. -/
theorem mem_probes_runRounds (distinct : (rounds.map Round.ts).Nodup) :
    row ∈ (runRounds scheme lower rounds).probes ↔
      ∃ round ∈ rounds, round.ts = row.ts ∧ round.Probes row.pid ∧
        probeHealth scheme lower round row.pid
          (round.status row.pid).endpoint = row.ok := by
  induction rounds using List.reverseRecOn generalizing row with
  | nil => simp [runRounds]
  | append_singleton rounds round ih =>
      rw [List.map_append, List.nodup_append'] at distinct
      obtain ⟨distinct, _, apart⟩ := distinct
      have earlier := fun row => @ih row distinct
      rw [runRounds_append, runRound]
      simp only [List.mem_append, List.mem_singleton, or_and_right, exists_or,
        exists_eq_left]
      cases read : round.directory with
      | none =>
          have unprobed : ¬ round.Probes row.pid := by
            rintro ⟨pids, found, _⟩
            rw [read] at found
            cases found
          simp only [earlier, unprobed, false_and, and_false, or_false]
      | some pids =>
          have fresh : ∀ row ∈ (runRounds scheme lower rounds).probes,
              row.ts ≠ round.ts := by
            intro row member sameTime
            obtain ⟨other, otherMem, otherTime, _⟩ := (earlier row).mp member
            refine apart (List.mem_map_of_mem otherMem) ?_
            simp [otherTime, sameTime]
          have consistent : ∀ first ∈ pids.filterMap (round.one scheme lower),
              ∀ second ∈ pids.filterMap (round.one scheme lower),
              first.1 = second.1 → first.2 = second.2 := by
            rintro ⟨pid, ok⟩ firstMem ⟨other, value⟩ secondMem rfl
            exact (mem_one.mp firstMem).2.2.2.symm.trans
              (mem_one.mp secondMem).2.2.2
          have probes : round.Probes row.pid ↔ row.pid ∈ pids ∧
              (round.status row.pid).operator.getD [] ≠ [] ∧
              (round.status row.pid).endpoint ≠ [] := by
            simp [Round.Probes, read]
          change row ∈ (pids.filterMap _).foldl _ _ ↔ _
          rw [mem_insertProbes fresh consistent, earlier, mem_one, probes,
            eq_comm (a := row.ts)]
          simp only [and_assoc]

/-- The times of the completed rounds. -/
theorem rounds_runRounds (distinct : (rounds.map Round.ts).Nodup) :
    (runRounds scheme lower rounds).rounds =
      (rounds.filter (·.directory.isSome)).map Round.ts := by
  induction rounds using List.reverseRecOn with
  | nil => rfl
  | append_singleton rounds round ih =>
      rw [List.map_append, List.nodup_append'] at distinct
      obtain ⟨distinct, _, apart⟩ := distinct
      have earlier := ih distinct
      rw [runRounds_append, runRound, List.filter_append, List.map_append]
      cases read : round.directory with
      | none => simp [earlier, read]
      | some pids =>
          have fresh : round.ts ∉ (runRounds scheme lower rounds).rounds := by
            rw [earlier]
            intro member
            obtain ⟨other, otherMem, sameTime⟩ := List.mem_map.mp member
            refine apart (List.mem_map_of_mem (List.mem_filter.mp otherMem).1) ?_
            simp [sameTime]
          refine (if_neg fresh).trans ?_
          simp [earlier, read]

end Tables

section Days

variable {scheme : Scheme} {lower : Text → Text} {rounds : List Round}
  {day : Int} {pid : Text}

/-- The monitor ran its regular rounds all day: no two rounds at the same
second, and enough of the day's rounds were completed. -/
structure Regular (rounds : List Round) (day : Int) : Prop where
  distinct : (rounds.map Round.ts).Nodup
  covered : 4 * roundsPerDay ≤ 5 * rounds.countP fun round =>
    round.directory.isSome && duringDay day round.ts

/-- A day with regular rounds on which some Pillar answered judges a Pillar that
never answered as inactive if and only if one of its rounds probed it. -/
theorem inactive_iff_probed (regular : Regular rounds day)
    (answered : ∃ round ∈ rounds, utcDay round.ts = day ∧
      ∃ other, round.Answered scheme lower other)
    (silent : ∀ round ∈ rounds, utcDay round.ts = day →
      ¬ round.Answered scheme lower pid) :
    pid ∈ (inactiveForDay (runRounds scheme lower rounds) day).1 ↔
      ∃ round ∈ rounds, utcDay round.ts = day ∧ round.Probes pid := by
  have rows : ∀ row : Probe, row ∈ (runRounds scheme lower rounds).probes ↔ _ :=
    fun row => mem_probes_runRounds regular.distinct
  rw [mem_inactiveForDay_of_silent]
  · constructor
    · rintro ⟨row, member, during, rfl⟩
      obtain ⟨round, inRun, time, probed, _⟩ := (rows row).mp member
      refine ⟨round, inRun, ?_, probed⟩
      rw [time]
      exact duringDay_iff.mp during
    · rintro ⟨round, inRun, during, probed⟩
      let row : Probe := ⟨pid, round.ts,
        probeHealth scheme lower round pid (round.status pid).endpoint⟩
      exact ⟨row, (rows row).mpr ⟨round, inRun, rfl, probed, rfl⟩,
        duringDay_iff.mpr during, rfl⟩
  · rw [rounds_runRounds regular.distinct, List.countP_map, List.countP_filter]
    refine regular.covered.trans_eq ?_
    congr 2
    funext round
    exact Bool.and_comm _ _
  · obtain ⟨round, inRun, during, other, probed, ok⟩ := answered
    exact ⟨⟨other, round.ts, true⟩,
      (rows _).mpr ⟨round, inRun, rfl, probed, ok⟩, duringDay_iff.mpr during,
      rfl⟩
  · intro row member during own
    obtain ⟨round, inRun, time, probed, value⟩ := (rows row).mp member
    rw [← time] at during
    subst own
    rw [← value, ← Bool.not_eq_true]
    intro ok
    exact silent round inRun (duringDay_iff.mp during) ⟨probed, ok⟩

end Days

end LivenessMonitor

end RefinetPillars
