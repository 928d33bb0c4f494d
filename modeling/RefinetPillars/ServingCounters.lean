import RefinetPillars.RunHistory
import RefinetPillars.StoreGrowthBounds

/-!
# How requests are counted

The servers of a Pillar share a table of days.  Each answer adds one to the
requests of the day, and writes the running total of its own server over the
content served on the day.
-/

namespace RefinetPillars

namespace ServingCounters

open HexText KeyRecovery KeyedTable RunHistory
open ArchiveDatabase (DailyRow Metrics Month daily totalsOf)
open StoreGrowth

section Statement

/-- The servers with the table they share.  Servers have numbers that are not
used again after a restart.  Answers that are between their two writes are
listed with the day of the first write, those that are complete with the day of
the second. -/
structure World where
  today : LocalDay
  requestCount : Nat → Nat
  waiting : Nat → Nat
  between : List (Nat × AccountingDate)
  answered : List (Nat × AccountingDate)
  store : Store

def World.initial (today : LocalDay) : World :=
  ⟨today, fun _ => 0, fun _ => 0, [], [], .empty⟩

def World.date (world : World) : AccountingDate :=
  getAccountingDate world.today

/-- A request is accepted, to be answered by `respond` or with a file; its answer
makes its first write; its second; it fails in between. -/
inductive Step where
  | clock (today : LocalDay)
  | accept (server : Nat)
  | download (server : Nat)
  | count (server : Nat)
  | update (server : Nat) (countedOn : AccountingDate) (uptimeSeconds : Nat)
  | fail (server : Nat) (countedOn : AccountingDate)

def bump (server : Nat) (counts : Nat → Nat) : Nat → Nat :=
  Function.update counts server (counts server + 1)

variable (pid : Text)

def apply (step : Step) (world : World) : World :=
  match step with
  | .clock today => { world with today }
  | .accept server =>
      { world with
        requestCount := bump server world.requestCount
        waiting := bump server world.waiting }
  | .download server =>
      { world with requestCount := bump server world.requestCount }
  | .count server =>
      if world.waiting server = 0 then world
      else
        { world with
          waiting := Function.update world.waiting server
            (world.waiting server - 1)
          between := (server, world.date) :: world.between
          store := incrementRequestsServed pid world.today world.store }
  | .update server countedOn uptimeSeconds =>
      if (server, countedOn) ∈ world.between then
        { world with
          between := world.between.erase (server, countedOn)
          answered := (server, world.date) :: world.answered
          store := updateDailyMetrics pid (world.requestCount server)
            uptimeSeconds world.today world.store }
      else world
  | .fail server countedOn =>
      { world with between := world.between.erase (server, countedOn) }

/-- The row of a day. -/
def rowOf (store : Store) (date : AccountingDate) : Option DailyRow :=
  store.dailyMetrics.rows.find? fun row =>
    row.key = (date.1, date.2.1, date.2.2, pid)

def requestsServed (store : Store) (date : AccountingDate) : Nat :=
  (rowOf pid store date).elim 0 DailyRow.requestsServed

def contentServed (store : Store) (date : AccountingDate) : Nat :=
  (rowOf pid store date).elim 0 DailyRow.contentServed

/-- How many answers were completed on a day. -/
def World.completed (world : World) (date : AccountingDate) : Nat :=
  world.answered.countP fun answer => answer.2 = date

/-- The table as the archiver reads it. -/
def World.metrics (world : World) : Metrics :=
  ⟨world.store.dailyMetrics.rows, world.store.dailyMetrics.unique⟩

/-- How many answers were completed in a month. -/
def World.completedIn (world : World) (month : Month) : Nat :=
  world.answered.countP fun answer => (answer.2.2.2, answer.2.2.1) = month

/-- The counters of the days are the numbers of their answers, and so are the
sums that are archived. -/
structure CountsTruly (world : World) : Prop where
  days : ∀ date, (∀ respond ∈ world.between, respond.2 ≠ date) →
    requestsServed pid world.store date = world.completed date ∧
      contentServed pid world.store date = world.completed date
  months : world.between = [] → ∀ month,
    (totalsOf (daily world.metrics pid month)).requestsServed =
        world.completedIn month ∧
      (totalsOf (daily world.metrics pid month)).contentServed =
        world.completedIn month

/-- The answers of today of one server, and of the others. -/
def World.own (world : World) (server : Nat) : Nat :=
  world.answered.countP fun answer =>
    answer.1 = server ∧ answer.2 = world.date

def World.others (world : World) (server : Nat) : Nat :=
  world.answered.countP fun answer =>
    answer.1 ≠ server ∧ answer.2 = world.date

/-- The requests that a server has accepted and does not answer today: files,
open and failed ones, and those of earlier days. -/
def World.missed (world : World) (server : Nat) : Nat :=
  world.requestCount server - (world.own server + 1)

/-- An answer completes on the day of its first write, and its server has left
out as many requests as others have answered today; in particular none. -/
def Balanced (step : Step) (world : World) : Prop :=
  match step with
  | .update server countedOn _ =>
      (server, countedOn) ∈ world.between → countedOn = world.date ∧
        world.missed server = world.others server
  | .fail server countedOn => (server, countedOn) ∉ world.between
  | _ => True

instance decidableBalanced :
    (step : Step) → (world : World) → Decidable (Balanced step world)
  | .update server countedOn _, world =>
      inferInstanceAs (Decidable ((server, countedOn) ∈ world.between → _ ∧ _))
  | .fail server countedOn, world =>
      inferInstanceAs (Decidable ((server, countedOn) ∉ world.between))
  | .clock _, _ | .accept _, _ | .download _, _ | .count _, _ =>
      inferInstanceAs (Decidable True)

end Statement

section Rows

variable {pid : Text} {today : LocalDay} {store : Store}

/-- A counter of the days after an insertion into the row of one day. -/
theorem elim_upsert {field : DailyRow → Nat} {row : DailyRow}
    {update : Table.Update DailyRow.key} {table : Table DailyRow.key}
    (day : AccountingDate) (change : Nat → Nat)
    (isDay : row.key = (newDay day pid).key) (inserted : field row = change 0)
    (changed : ∀ old, field (update.change old) = change (field old))
    (date : AccountingDate) :
    ((table.upsert row update).rows.find? fun old =>
        old.key = (date.1, date.2.1, date.2.2, pid)).elim 0 field =
      if date = day then
        change ((table.rows.find? fun old =>
          old.key = (date.1, date.2.1, date.2.2, pid)).elim 0 field)
      else (table.rows.find? fun old =>
        old.key = (date.1, date.2.1, date.2.2, pid)).elim 0 field := by
  have sameKey : ((date.1, date.2.1, date.2.2, pid) : Int × Int × Int × Text) =
      row.key ↔ date = day := by
    rw [isDay]
    simp [DailyRow.key, newDay, Prod.ext_iff]
  rw [Table.find?_upsert]
  simp only [sameKey]
  split
  · cases table.rows.find? _ with
    | none => exact inserted
    | some old => exact changed old
  · rfl

theorem requestsServed_increment (date : AccountingDate) :
    requestsServed pid (incrementRequestsServed pid today store) date =
      if date = getAccountingDate today then requestsServed pid store date + 1
      else requestsServed pid store date := by
  unfold requestsServed rowOf incrementRequestsServed
  refine elim_upsert _ (· + 1) ?_ ?_ (fun _ => ?_) date <;> rfl

theorem contentServed_increment (date : AccountingDate) :
    contentServed pid (incrementRequestsServed pid today store) date =
      contentServed pid store date := by
  unfold contentServed rowOf incrementRequestsServed
  refine (elim_upsert (getAccountingDate today) id ?_ ?_ (fun _ => ?_) date).trans (ite_self _) <;> rfl

theorem requestsServed_update (content uptime : Nat) (date : AccountingDate) :
    requestsServed pid (updateDailyMetrics pid content uptime today store) date =
      requestsServed pid store date := by
  unfold requestsServed rowOf updateDailyMetrics
  refine (elim_upsert (getAccountingDate today) id ?_ ?_ (fun _ => ?_) date).trans (ite_self _) <;> rfl

theorem contentServed_update (content uptime : Nat) (date : AccountingDate) :
    contentServed pid (updateDailyMetrics pid content uptime today store) date =
      if date = getAccountingDate today then content
      else contentServed pid store date := by
  unfold contentServed rowOf updateDailyMetrics
  refine elim_upsert _ (fun _ => content) ?_ ?_ (fun _ => ?_) date <;> rfl

end Rows

section Runs

variable {pid : Text} {world : World}

/-- What holds while every step is balanced. -/
structure Sound (pid : Text) (world : World) : Prop where
  accepted : ∀ server,
    world.waiting server + world.between.countP (fun respond =>
      respond.1 = server) + world.answered.countP (fun answer =>
        answer.1 = server) ≤ world.requestCount server
  requests : ∀ date, requestsServed pid world.store date =
    world.completed date + world.between.countP fun respond =>
      respond.2 = date
  contents : ∀ date, contentServed pid world.store date = world.completed date

theorem sound_initial (today : LocalDay) :
    Sound pid (World.initial today) :=
  ⟨fun _ => le_rfl, fun _ => rfl, fun _ => rfl⟩

theorem World.own_add_others (world : World) (server : Nat) :
    world.own server + world.others server = world.completed world.date := by
  have split := List.countP_eq_countP_filter_add world.answered
    (fun answer => decide (answer.2 = world.date))
    fun answer => decide (answer.1 = server)
  rw [List.countP_filter, List.countP_filter] at split
  rw [World.own, World.others, World.completed, split]
  simp [Bool.and_comm]

/-- An answer is one of the requests that its server has accepted. -/
theorem Sound.own_lt (sound : Sound pid world) {server : Nat}
    {countedOn : AccountingDate}
    (between : (server, countedOn) ∈ world.between) :
    world.own server + 1 ≤ world.requestCount server := by
  have accepted := sound.accepted server
  have one : 0 < world.between.countP fun respond => respond.1 = server :=
    List.countP_pos_iff.mpr ⟨_, between, by simp⟩
  have some : world.own server ≤ world.answered.countP fun answer =>
      answer.1 = server :=
    List.countP_mono_left fun answer _ own => by simp at own ⊢; exact own.1
  omega

/-- The second write of an answer counts truly exactly if the server has left
out as many requests as others have answered. -/
theorem Sound.requestCount_eq_iff (sound : Sound pid world) {server : Nat}
    {countedOn : AccountingDate}
    (between : (server, countedOn) ∈ world.between) :
    world.requestCount server = world.completed world.date + 1 ↔
      world.missed server = world.others server := by
  have own := sound.own_lt between
  have all := world.own_add_others server
  rw [World.missed]
  omega

theorem Sound.count (sound : Sound pid world) (server : Nat) :
    Sound pid (apply pid (.count server) world) := by
  have today : getAccountingDate world.today = world.date := rfl
  rw [apply]
  split
  · exact sound
  next =>
    refine ⟨fun other => ?_, fun date => ?_, fun date => ?_⟩
    · have accepted := sound.accepted other
      simp only [Function.update_apply, List.countP_cons]
      by_cases same : other = server
      · subst same
        simp only [if_true, decide_true]
        omega
      · simpa [same, Ne.symm same] using accepted
    · have requests := sound.requests date
      dsimp only
      rw [requestsServed_increment, today, List.countP_cons]
      change _ = world.completed date + _
      by_cases same : date = world.date
      · rw [if_pos same, if_pos (by simp [same]), requests]
        omega
      · rw [if_neg same, if_neg (by simp [Ne.symm same]), requests, add_zero]
    · dsimp only
      rw [contentServed_increment]
      exact sound.contents date

theorem Sound.update (sound : Sound pid world) {server : Nat}
    (countedOn : AccountingDate) (uptimeSeconds : Nat)
    (balanced : Balanced (.update server countedOn uptimeSeconds) world) :
    Sound pid (apply pid (.update server countedOn uptimeSeconds) world) := by
  have today : getAccountingDate world.today = world.date := rfl
  rw [apply]
  split
  next between =>
    obtain ⟨rfl, even⟩ := balanced between
    have content := (sound.requestCount_eq_iff between).mpr even
    have erased : ∀ counted : Nat × AccountingDate → Bool,
        (world.between.erase (server, world.date)).countP counted +
          (if counted (server, world.date) then 1 else 0) =
            world.between.countP counted := by
      intro counted
      rw [(List.perm_cons_erase between).countP_eq counted, List.countP_cons]
    refine ⟨fun other => ?_, fun date => ?_, fun date => ?_⟩
    · have accepted := sound.accepted other
      have fewer := erased fun respond => respond.1 = other
      simp only [List.countP_cons]
      simp only at fewer
      omega
    · have requests := sound.requests date
      have fewer := erased fun respond => respond.2 = date
      dsimp only
      rw [requestsServed_update]
      simp only [World.completed, List.countP_cons] at requests fewer ⊢
      omega
    · dsimp only
      rw [contentServed_update, today]
      simp only [World.completed, List.countP_cons]
      by_cases same : date = world.date
      · rw [if_pos same, content, if_pos (by simp [same]), same]
        rfl
      · have contents := sound.contents date
        rw [World.completed] at contents
        rw [if_neg same, if_neg (by simp [Ne.symm same]), contents, add_zero]
  · exact sound

theorem sound_apply {step : Step} (balanced : Balanced step world)
    (sound : Sound pid world) : Sound pid (apply pid step world) := by
  cases step with
  | clock today => exact ⟨sound.accepted, sound.requests, sound.contents⟩
  | accept server =>
      refine ⟨fun other => ?_, sound.requests, sound.contents⟩
      have accepted := sound.accepted other
      simp only [apply, bump, Function.update_apply]
      split_ifs with same
      · subst same
        omega
      · exact accepted
  | download server =>
      refine ⟨fun other => ?_, sound.requests, sound.contents⟩
      have accepted := sound.accepted other
      simp only [apply, bump, Function.update_apply]
      split_ifs with same
      · subst same
        omega
      · exact accepted
  | count server => exact sound.count server
  | update server countedOn uptimeSeconds =>
      exact sound.update countedOn uptimeSeconds balanced
  | fail server countedOn =>
      have same : world.between.erase (server, countedOn) = world.between :=
        List.erase_of_not_mem balanced
      rw [apply, same]
      exact sound

theorem sound_run {today : LocalDay} {steps : List Step}
    (balanced : Admitted (apply pid) (.initial today) Balanced steps) :
    Sound pid (run (apply pid) (.initial today) steps) :=
  balanced.invariant (sound_initial today) fun _ _ => sound_apply

end Runs

section Months

variable {pid : Text} {world : World}

def dateOf (row : DailyRow) : AccountingDate := (row.day, row.month, row.year)

/-- Counting day by day counts everything on these days once. -/
theorem sum_countP {Day Item : Type} [DecidableEq Day] {days : List Day}
    (distinct : days.Nodup) (items : List Item) (dayOf : Item → Day) :
    (days.map fun day => items.countP fun item => dayOf item = day).sum =
      items.countP fun item => dayOf item ∈ days := by
  induction days with
  | nil => simp
  | cons day days ih =>
      obtain ⟨absent, distinct⟩ := List.nodup_cons.mp distinct
      rw [List.map_cons, List.sum_cons, ih distinct]
      clear ih
      induction items with
      | nil => rfl
      | cons item items ihItems =>
          simp only [List.countP_cons, decide_eq_true_eq, List.mem_cons]
            at ihItems ⊢
          by_cases isDay : dayOf item = day
          · simp only [isDay, absent, true_or, if_true, if_false]
            omega
          · simp only [isDay, false_or, if_false]
            omega

theorem rowOf_eq_some_iff {store : Store} {date : AccountingDate}
    {row : DailyRow} : rowOf pid store date = some row ↔
      row ∈ store.dailyMetrics.rows ∧ dateOf row = date ∧ row.pid = pid := by
  have isKey : ∀ other : DailyRow,
      other.key = (date.1, date.2.1, date.2.2, pid) ↔
        dateOf other = date ∧ other.pid = pid := by
    intro other
    simp [DailyRow.key, dateOf, Prod.ext_iff, and_assoc]
  rw [rowOf]
  constructor
  · intro found
    refine ⟨List.mem_of_find?_eq_some found, (isKey row).mp ?_⟩
    simpa using List.find?_some found
  · rintro ⟨member, named⟩
    have keyed := (isKey row).mpr named
    have present : (store.dailyMetrics.rows.find? fun other =>
        other.key = (date.1, date.2.1, date.2.2, pid)).isSome := by
      rw [List.find?_isSome]
      exact ⟨row, member, by simpa using keyed⟩
    obtain ⟨first, found⟩ := Option.isSome_iff_exists.mp present
    have firstKeyed : first.key = (date.1, date.2.1, date.2.2, pid) := by
      simpa using List.find?_some found
    rw [found, List.inj_on_of_nodup_map store.dailyMetrics.unique
      (List.mem_of_find?_eq_some found) member (firstKeyed.trans keyed.symm)]

/-- A counter that is true of every day sums to the answers of a month. -/
theorem sum_daily {field : DailyRow → Nat}
    (counted : ∀ date, (rowOf pid world.store date).elim 0 field =
      world.completed date) (month : Month) :
    ((daily world.metrics pid month).map field).sum =
      world.completedIn month := by
  have mem_daily : ∀ row, row ∈ daily world.metrics pid month ↔
      row ∈ world.store.dailyMetrics.rows ∧ row.inMonth = month ∧
        row.pid = pid := by
    intro row
    rw [daily, List.mem_filter, decide_eq_true_eq]
    rfl
  have distinct : ((daily world.metrics pid month).map dateOf).Nodup := by
    have keys : ((daily world.metrics pid month).map DailyRow.key).Nodup :=
      world.store.dailyMetrics.unique.sublist
        (List.filter_sublist.map DailyRow.key)
    have named : (daily world.metrics pid month).map DailyRow.key =
        ((daily world.metrics pid month).map dateOf).map fun date =>
          (date.1, date.2.1, date.2.2, pid) := by
      rw [List.map_map]
      refine List.map_congr_left fun row member => ?_
      rw [DailyRow.key, ((mem_daily row).mp member).2.2]
      rfl
    rw [named] at keys
    exact keys.of_map
  have each : (daily world.metrics pid month).map field =
      ((daily world.metrics pid month).map dateOf).map fun date =>
        world.answered.countP fun answer => answer.2 = date := by
    rw [List.map_map]
    refine List.map_congr_left fun row member => ?_
    obtain ⟨present, _, owned⟩ := (mem_daily row).mp member
    have count := counted (dateOf row)
    rw [rowOf_eq_some_iff.mpr ⟨present, rfl, owned⟩] at count
    exact count
  rw [each, sum_countP distinct, World.completedIn]
  refine List.countP_congr fun answer member => ?_
  simp only [decide_eq_true_eq]
  constructor
  · intro isDay
    obtain ⟨row, rowMem, same⟩ := List.mem_map.mp isDay
    rw [← same]
    exact ((mem_daily row).mp rowMem).2.1
  · intro inMonth
    have answered : 0 < world.completed answer.2 :=
      List.countP_pos_iff.mpr ⟨answer, member, by simp⟩
    rw [← counted answer.2] at answered
    match found : rowOf pid world.store answer.2 with
    | none =>
        rw [found] at answered
        exact (lt_irrefl 0 answered).elim
    | some row =>
        obtain ⟨present, same, owned⟩ := rowOf_eq_some_iff.mp found
        refine List.mem_map.mpr ⟨row, (mem_daily row).mpr ⟨present, ?_, owned⟩,
          same⟩
        rw [← inMonth, ← same]
        rfl

theorem Sound.countsTruly (sound : Sound pid world) :
    CountsTruly pid world := by
  have served : world.between = [] → ∀ date,
      requestsServed pid world.store date = world.completed date := by
    intro quiet date
    rw [sound.requests date, quiet]
    rfl
  constructor
  · intro date quiet
    refine ⟨?_, sound.contents date⟩
    rw [sound.requests date, List.countP_eq_zero.mpr fun respond member =>
      by simpa using quiet respond member, add_zero]
  · intro quiet month
    exact ⟨sum_daily (served quiet) month, sum_daily sound.contents month⟩

/-- While every step is balanced, the counters of the days and the archived sums
are the numbers of the answers, in every state. -/
theorem countsTruly_run (pid : Text) (today : LocalDay) (steps : List Step)
    (balanced : Admitted (apply pid) (.initial today) Balanced steps) :
    ∀ earlier, earlier <:+ steps →
      CountsTruly pid (run (apply pid) (.initial today) earlier) :=
  fun _ suffix => (sound_run (balanced.of_suffix suffix)).countsTruly

/-- A request that a server answers, newest step first. -/
def answerOf (server : Nat) : List Step :=
  [.update server (getAccountingDate newYear) 0, .count server, .accept server]

/-- One server alone counts truly. -/
theorem countsTruly_run_answerOf :
    CountsTruly ['p'] (run (apply ['p']) (.initial newYear)
      (answerOf 0 ++ answerOf 0)) :=
  countsTruly_run ['p'] newYear (answerOf 0 ++ answerOf 0) (by decide) _
    List.suffix_rfl

/-- Two listeners answer one request each: two requests, but one content. -/
theorem not_countsTruly :
    ¬ CountsTruly ['p'] (run (apply ['p']) (.initial newYear)
      (answerOf 1 ++ answerOf 0)) := by
  intro truly
  have content := (truly.days (getAccountingDate newYear) (by decide)).2
  revert content
  decide

end Months

end ServingCounters

end RefinetPillars
