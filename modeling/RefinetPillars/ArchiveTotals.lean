import RefinetPillars.ArchiveDatabase

/-!
# Totals of archived months and years

Every archived month has the sums of its days.  A year has the sums of its
archived months as long as all but the latest of them are empty.
-/

namespace RefinetPillars

namespace ArchiveDatabase

open HexText ContentSigning

section Statement

/-- The metrics, the number of the current month, and the archive. -/
structure World where
  metrics : Metrics
  current : Int
  archive : Archive

/-- The metrics change and time passes, or a Pillar is archived. -/
inductive Step where
  | pass (metrics : Metrics) (current : Int)
  | migrate (pid : Text)

variable (env : Environment)

def World.after (world : World) : Step → World
  | .pass metrics current => ⟨metrics, current, world.archive⟩
  | .migrate pid => { world with
      archive := (migrateToArchive env pid world.metrics world.current
        world.archive).1 }

/-- Days of a month do not change when the month is over. -/
def KeepsPast (world : World) : Step → Prop
  | .pass metrics current => world.current ≤ current ∧
      ∀ pid month, monthTotal month < world.current →
        daily metrics pid month = daily world.metrics pid month
  | .migrate _ => True

def KeepsPastThroughout : World → List Step → Prop
  | _, [] => True
  | world, step :: steps => KeepsPast world step ∧
      KeepsPastThroughout (world.after env step) steps

/-- A condition on every world in which a Pillar is archived. -/
def BeforeRuns (condition : World → Text → Prop) : World → List Step → Prop
  | _, [] => True
  | world, .pass metrics current :: steps =>
      BeforeRuns condition (world.after env (.pass metrics current)) steps
  | world, .migrate pid :: steps =>
      condition world pid ∧
        BeforeRuns condition (world.after env (.migrate pid)) steps

/-- A condition on every world after a Pillar has been archived. -/
def AfterRuns (condition : World → Text → Prop) : World → List Step → Prop
  | _, [] => True
  | world, .pass metrics current :: steps =>
      AfterRuns condition (world.after env (.pass metrics current)) steps
  | world, .migrate pid :: steps =>
      condition (world.after env (.migrate pid)) pid ∧
        AfterRuns condition (world.after env (.migrate pid)) steps

def monthTotals (metrics : Metrics) (pid : Text) (month : Month) : Totals :=
  totalsOf (daily metrics pid month)

/-- The months of a year that have been archived. -/
def archivedMonths (world : World) (pid : Text) (year : Int) : Finset Month :=
  (months world.metrics pid).toFinset.filter fun month =>
    month.1 = year ∧ (world.archive.monthly (month, pid)).isSome

/-- The sums over months, and the maximum of the numbers of peers. -/
def totalOver (metrics : Metrics) (pid : Text) (chosen : Finset Month) :
    Totals where
  txCount := ∑ month ∈ chosen, (monthTotals metrics pid month).txCount
  volume := ∑ month ∈ chosen, (monthTotals metrics pid month).volume
  contentServed :=
    ∑ month ∈ chosen, (monthTotals metrics pid month).contentServed
  uptimeSeconds :=
    ∑ month ∈ chosen, (monthTotals metrics pid month).uptimeSeconds
  requestsServed :=
    ∑ month ∈ chosen, (monthTotals metrics pid month).requestsServed
  peersSeen := chosen.sup fun month => (monthTotals metrics pid month).peersSeen

/-- A year has the totals of its archived months, if there are any. -/
def YearIsExact (world : World) (pid : Text) (year : Int) : Prop :=
  (world.archive.yearly (year, pid)).map Summary.totals =
    if archivedMonths world pid year = ∅ then none
    else some (totalOver world.metrics pid (archivedMonths world pid year))

/-- The archive after a Pillar has been archived. -/
structure Exact (world : World) (pid : Text) : Prop where
  monthly : ∀ pid month snapshot,
    world.archive.monthly (month, pid) = some snapshot →
      snapshot.txCount = (monthTotals world.metrics pid month).txCount ∧
        snapshot.requestsServed =
          (monthTotals world.metrics pid month).requestsServed
  archived : ∀ month, (world.archive.monthly (month, pid)).isSome = true ↔
    month ∈ oldMonths world.metrics pid world.current
  yearly : ∀ pid year, YearIsExact world pid year
  again : (migrateToArchive env pid world.metrics world.current
    world.archive).1 = world.archive

/-- A month that adds nothing to another one. -/
structure Totals.AddsNothing (totals other : Totals) : Prop where
  txCount : totals.txCount = 0
  volume : totals.volume = 0
  contentServed : totals.contentServed = 0
  uptimeSeconds : totals.uptimeSeconds = 0
  requestsServed : totals.requestsServed = 0
  peersSeen : totals.peersSeen ≤ other.peersSeen

/-- Of the months of a year that are archived, all but the latest one are
empty. -/
def OnlyLatestCounts (world : World) (pid : Text) : Prop :=
  ∀ latest ∈ oldMonths world.metrics pid world.current,
    (∀ month ∈ oldMonths world.metrics pid world.current,
      month.1 = latest.1 → month.2 ≤ latest.2) →
    ∀ month ∈ oldMonths world.metrics pid world.current,
      month.1 = latest.1 → month ≠ latest →
      (monthTotals world.metrics pid month).AddsNothing
        (monthTotals world.metrics pid latest)

end Statement

section Folds

variable {Key Value Entry : Type} [DecidableEq Key]

/-- Of the entries with a key that are written, the last one stays. -/
theorem foldl_update_apply (entries : List Entry) (key : Entry → Key)
    (value : Entry → Value) (table : Key → Option Value) (wanted : Key) :
    entries.foldl (fun table entry =>
        Function.update table (key entry) (some (value entry))) table wanted =
      match (entries.filter fun entry => key entry = wanted).getLast? with
      | some entry => some (value entry)
      | none => table wanted := by
  induction entries using List.reverseRecOn with
  | nil => rfl
  | append_singleton entries entry ih =>
      rw [List.foldl_append, List.foldl_cons, List.foldl_nil, List.filter_append]
      by_cases here : key entry = wanted
      · subst here
        rw [Function.update_self]
        simp
      · rw [Function.update_of_ne (Ne.symm here), ih]
        simp [here]

end Folds

section Archiving

variable (env : Environment) (metrics : Metrics) (pid : Text)

theorem monthly_foldl (old : List Month) (archive : Archive) :
    (old.foldl (archiveMonth env metrics pid) archive).monthly =
      old.foldl (fun table month => Function.update table (month, pid)
        (some (snapshotOf env (daily metrics pid month)))) archive.monthly := by
  induction old generalizing archive with
  | nil => rfl
  | cons month old ih => exact ih _

theorem yearly_foldl (old : List Month) (archive : Archive) :
    (old.foldl (archiveMonth env metrics pid) archive).yearly =
      old.foldl (fun table month => Function.update table (month.1, pid)
        (some (summaryOf (daily metrics pid month)))) archive.yearly := by
  induction old generalizing archive with
  | nil => rfl
  | cons month old ih => exact ih _

variable {env metrics pid} {current : Int} {archive : Archive}

/-- A month that is archived has the snapshot of its days, and other months
stay as they were. -/
theorem monthly_migrate (month : Month) (other : Text) :
    (migrateToArchive env pid metrics current archive).1.monthly
        (month, other) =
      if other = pid ∧ month ∈ oldMonths metrics pid current then
        some (snapshotOf env (daily metrics pid month))
      else archive.monthly (month, other) := by
  rw [migrateToArchive]
  dsimp only
  rw [monthly_foldl, foldl_update_apply]
  split
  next entry last =>
    obtain ⟨member, named⟩ :=
      List.mem_filter.mp (List.mem_of_getLast? last)
    obtain ⟨rfl, rfl⟩ := Prod.mk.inj (of_decide_eq_true named)
    rw [if_pos ⟨rfl, member⟩]
  next none =>
    rw [List.getLast?_eq_none_iff, List.filter_eq_nil_iff] at none
    rw [if_neg]
    rintro ⟨rfl, member⟩
    exact none month member (decide_eq_true rfl)

theorem monthLe_total (first second : Month) :
    (monthLe first second || monthLe second first) = true := by
  simp only [monthLe, Bool.or_eq_true, decide_eq_true_eq, Bool.and_eq_true]
  omega

theorem monthLe_trans (first second third : Month)
    (lower : monthLe first second = true)
    (upper : monthLe second third = true) : monthLe first third = true := by
  simp only [monthLe, Bool.or_eq_true, decide_eq_true_eq, Bool.and_eq_true] at *
  omega

theorem mem_months {month : Month} : month ∈ months metrics pid ↔
    daily metrics pid month ≠ [] := by
  rw [months, List.mem_mergeSort, List.mem_dedup, List.mem_map,
    ← List.length_pos_iff, List.length_pos_iff_exists_mem]
  constructor
  · rintro ⟨row, member, rfl⟩
    obtain ⟨isRow, ofPid⟩ := List.mem_filter.mp member
    exact ⟨row, List.mem_filter.mpr
      ⟨isRow, decide_eq_true ⟨rfl, of_decide_eq_true ofPid⟩⟩⟩
  · rintro ⟨row, member⟩
    obtain ⟨isRow, named⟩ := List.mem_filter.mp member
    obtain ⟨inMonth, ofPid⟩ := of_decide_eq_true named
    exact ⟨row, List.mem_filter.mpr ⟨isRow, decide_eq_true ofPid⟩, inMonth⟩

theorem mem_oldMonths {month : Month} : month ∈ oldMonths metrics pid current ↔
    daily metrics pid month ≠ [] ∧
      monthTotal month < current - liveDbRetentionMonths := by
  rw [oldMonths, List.mem_filter, mem_months, decide_eq_true_eq]

theorem pairwise_oldMonths :
    (oldMonths metrics pid current).Pairwise fun first second =>
      monthLe first second = true :=
  (List.pairwise_mergeSort monthLe_trans monthLe_total _).filter _

/-- A year that has archived months gets the summary of the latest one, and
other years stay as they were. -/
theorem yearly_migrate (year : Int) :
    ((∀ month ∈ oldMonths metrics pid current, month.1 ≠ year) ∧
      (migrateToArchive env pid metrics current archive).1.yearly (year, pid) =
        archive.yearly (year, pid)) ∨
    ∃ latest ∈ oldMonths metrics pid current, latest.1 = year ∧
      (∀ month ∈ oldMonths metrics pid current, month.1 = year →
        month.2 ≤ latest.2) ∧
      (migrateToArchive env pid metrics current archive).1.yearly (year, pid) =
        some (summaryOf (daily metrics pid latest)) := by
  rw [migrateToArchive]
  dsimp only
  rw [yearly_foldl, foldl_update_apply]
  split
  next latest last =>
    obtain ⟨member, named⟩ := List.mem_filter.mp (List.mem_of_getLast? last)
    have inYear := (Prod.mk.inj (of_decide_eq_true named)).1
    refine .inr ⟨latest, member, inYear, fun month monthMem sameYear => ?_, rfl⟩
    obtain ⟨init, split⟩ := List.getLast?_eq_some_iff.mp last
    have listed : month ∈ (oldMonths metrics pid current).filter fun entry =>
        (entry.1, pid) = (year, pid) :=
      List.mem_filter.mpr ⟨monthMem, decide_eq_true (by rw [sameYear])⟩
    have sorted := (@pairwise_oldMonths metrics pid current).filter
      fun entry => (entry.1, pid) = (year, pid)
    rw [split] at listed sorted
    rcases List.mem_append.mp listed with before | isLast
    · have ordered := (List.pairwise_append.mp sorted).2.2 month before latest
        (List.mem_singleton.mpr rfl)
      simp only [monthLe, Bool.or_eq_true, decide_eq_true_eq,
        Bool.and_eq_true] at ordered
      omega
    · rw [List.mem_singleton.mp isLast]
  next none =>
    rw [List.getLast?_eq_none_iff, List.filter_eq_nil_iff] at none
    refine .inl ⟨fun month member inYear => ?_, rfl⟩
    exact none month member (decide_eq_true (by rw [inYear]))

theorem yearly_migrate_other {other : Text} (differs : other ≠ pid)
    (year : Int) :
    (migrateToArchive env pid metrics current archive).1.yearly (year, other) =
      archive.yearly (year, other) := by
  rw [migrateToArchive]
  dsimp only
  rw [yearly_foldl, foldl_update_apply]
  split
  next entry last =>
    obtain ⟨-, named⟩ := List.mem_filter.mp (List.mem_of_getLast? last)
    exact absurd (Prod.mk.inj (of_decide_eq_true named)).2.symm differs
  next => rfl

/-- Archiving once more changes nothing. -/
theorem migrate_again :
    (migrateToArchive env pid metrics current
        (migrateToArchive env pid metrics current archive).1).1 =
      (migrateToArchive env pid metrics current archive).1 := by
  apply Archive.ext
  · funext key
    obtain ⟨month, other⟩ := key
    rw [monthly_migrate, monthly_migrate]
    split <;> rfl
  · funext key
    simp only [migrateToArchive, yearly_foldl]
    rw [foldl_update_apply]
    split
    next entry last => rw [foldl_update_apply, last]
    next => rfl

end Archiving

section Sums

variable {metrics : Metrics} {pid : Text} {chosen : Finset Month}

theorem sum_eq_apply_iff {Value : Type} [AddCommMonoid Value] [LinearOrder Value]
    [CanonicallyOrderedAdd Value] [IsOrderedCancelAddMonoid Value]
    (value : Month → Value) {latest : Month} (member : latest ∈ chosen) :
    ∑ month ∈ chosen, value month = value latest ↔
      ∀ month ∈ chosen, month ≠ latest → value month = 0 := by
  rw [← Finset.add_sum_erase chosen value member, add_eq_left,
    Finset.sum_eq_zero_iff]
  constructor
  · intro zero month isMember differs
    exact zero month (Finset.mem_erase.mpr ⟨differs, isMember⟩)
  · intro zero month isMember
    obtain ⟨differs, isMember⟩ := Finset.mem_erase.mp isMember
    exact zero month isMember differs

theorem totalOver_eq_iff {latest : Month} (member : latest ∈ chosen) :
    totalOver metrics pid chosen = monthTotals metrics pid latest ↔
      ∀ month ∈ chosen, month ≠ latest →
        (monthTotals metrics pid month).AddsNothing
          (monthTotals metrics pid latest) := by
  have sums := fun value : Totals → ℕ =>
    sum_eq_apply_iff (fun month => value (monthTotals metrics pid month)) member
  have volumes := sum_eq_apply_iff
    (fun month => (monthTotals metrics pid month).volume) member
  constructor
  · intro same month isMember differs
    refine ⟨(sums Totals.txCount).mp (congrArg Totals.txCount same) _ isMember
        differs,
      volumes.mp (congrArg Totals.volume same) _ isMember differs,
      (sums Totals.contentServed).mp (congrArg Totals.contentServed same) _
        isMember differs,
      (sums Totals.uptimeSeconds).mp (congrArg Totals.uptimeSeconds same) _
        isMember differs,
      (sums Totals.requestsServed).mp (congrArg Totals.requestsServed same) _
        isMember differs, ?_⟩
    have peers : _ = (monthTotals metrics pid latest).peersSeen :=
      congrArg Totals.peersSeen same
    rw [← peers]
    exact Finset.le_sup
      (f := fun month => (monthTotals metrics pid month).peersSeen) isMember
  · intro nothing
    have peers : (chosen.sup fun month =>
        (monthTotals metrics pid month).peersSeen) =
        (monthTotals metrics pid latest).peersSeen := by
      refine le_antisymm (Finset.sup_le fun month isMember => ?_)
        (Finset.le_sup
          (f := fun month => (monthTotals metrics pid month).peersSeen) member)
      by_cases differs : month = latest
      · rw [differs]
      · exact (nothing month isMember differs).peersSeen
    rw [totalOver, (sums Totals.txCount).mpr fun month isMember differs =>
        (nothing month isMember differs).txCount,
      volumes.mpr fun month isMember differs =>
        (nothing month isMember differs).volume,
      (sums Totals.contentServed).mpr fun month isMember differs =>
        (nothing month isMember differs).contentServed,
      (sums Totals.uptimeSeconds).mpr fun month isMember differs =>
        (nothing month isMember differs).uptimeSeconds,
      (sums Totals.requestsServed).mpr fun month isMember differs =>
        (nothing month isMember differs).requestsServed, peers]

theorem totalOver_congr {other : Metrics}
    (same : ∀ month ∈ chosen, daily other pid month = daily metrics pid month) :
    totalOver other pid chosen = totalOver metrics pid chosen := by
  have totals : ∀ month ∈ chosen,
      monthTotals other pid month = monthTotals metrics pid month :=
    fun month member => congrArg totalsOf (same month member)
  have sums := fun (Value : Type) [AddCommMonoid Value]
      (value : Totals → Value) =>
    Finset.sum_congr rfl fun month member =>
      congrArg value (totals month member)
  rw [totalOver, totalOver, sums ℕ Totals.txCount, sums ℚ≥0 Totals.volume,
    sums ℕ Totals.contentServed, sums ℕ Totals.uptimeSeconds,
    sums ℕ Totals.requestsServed, Finset.sup_congr rfl fun month member =>
      congrArg Totals.peersSeen (totals month member)]

end Sums

section Invariant

/-- A month of a set after all others of the set. -/
structure IsLatest (chosen : Finset Month) (latest : Month) : Prop where
  member : latest ∈ chosen
  last : ∀ month ∈ chosen, month.2 ≤ latest.2

/-- The archive has snapshots of months that are over, and of a year it has the
summary of the latest of them. -/
structure Sound (env : Environment) (world : World) : Prop where
  monthly : ∀ pid month snapshot,
    world.archive.monthly (month, pid) = some snapshot →
      month ∈ oldMonths world.metrics pid world.current ∧
        snapshot = snapshotOf env (daily world.metrics pid month)
  noYear : ∀ pid year, archivedMonths world pid year = ∅ →
    world.archive.yearly (year, pid) = none
  someYear : ∀ pid year, archivedMonths world pid year ≠ ∅ →
    ∃ latest, IsLatest (archivedMonths world pid year) latest ∧
      world.archive.yearly (year, pid) =
        some (summaryOf (daily world.metrics pid latest))

variable {env : Environment} {world : World} {pid : Text} {year : Int}

theorem sound_empty (metrics : Metrics) (current : Int) :
    Sound env ⟨metrics, current, .empty⟩ where
  monthly _ _ _ stored := by cases stored
  noYear _ _ _ := rfl
  someYear _ _ nonempty := by
    refine absurd (Finset.filter_false_of_mem ?_) nonempty
    rintro month - ⟨-, stored⟩
    cases stored

theorem Sound.isSome (sound : Sound env world) {month : Month}
    (stored : (world.archive.monthly (month, pid)).isSome = true) :
    month ∈ oldMonths world.metrics pid world.current :=
  (sound.monthly pid month _ (Option.some_get stored).symm).1

theorem Sound.mem_archivedMonths (sound : Sound env world) {month : Month} :
    month ∈ archivedMonths world pid year ↔
      month.1 = year ∧ (world.archive.monthly (month, pid)).isSome = true := by
  rw [archivedMonths, Finset.mem_filter, List.mem_toFinset, mem_months]
  constructor
  · rintro ⟨-, inYear⟩
    exact inYear
  · rintro ⟨inYear, stored⟩
    exact ⟨(mem_oldMonths.mp (sound.isSome stored)).1, inYear, stored⟩

/-- What a sound archive has of a year is exact when the archived months
before the latest one are empty. -/
theorem Sound.yearIsExact_iff (sound : Sound env world) :
    YearIsExact world pid year ↔
      ∀ latest, IsLatest (archivedMonths world pid year) latest →
        ∀ month ∈ archivedMonths world pid year, month ≠ latest →
          (monthTotals world.metrics pid month).AddsNothing
            (monthTotals world.metrics pid latest) := by
  by_cases empty : archivedMonths world pid year = ∅
  · rw [YearIsExact, sound.noYear pid year empty, if_pos empty, empty]
    refine iff_of_true rfl ?_
    rintro latest ⟨member, -⟩
    exact absurd member (Finset.notMem_empty latest)
  · obtain ⟨latest, isLatest, stored⟩ := sound.someYear pid year empty
    rw [YearIsExact, stored, if_neg empty, Option.map_some, Option.some_inj,
      eq_comm]
    refine (totalOver_eq_iff isLatest.member).trans ⟨?_, ?_⟩
    · intro nothing other otherLatest
      have same : other = latest := by
        have first := (sound.mem_archivedMonths.mp otherLatest.member).1
        have second := (sound.mem_archivedMonths.mp isLatest.member).1
        have lower := isLatest.last other otherLatest.member
        have upper := otherLatest.last latest isLatest.member
        exact Prod.ext (by omega) (by omega)
      rw [same]
      exact nothing
    · intro nothing
      exact nothing latest isLatest

end Invariant

section Passing

variable {env : Environment} {world : World} {metrics : Metrics}
  {current : Int}

theorem mem_oldMonths_pass (keeps : KeepsPast world (.pass metrics current))
    {pid : Text} {month : Month}
    (old : month ∈ oldMonths world.metrics pid world.current) :
    daily metrics pid month = daily world.metrics pid month ∧
      month ∈ oldMonths metrics pid current := by
  obtain ⟨later, past⟩ := keeps
  obtain ⟨nonempty, ended⟩ := mem_oldMonths.mp old
  have retention : liveDbRetentionMonths = 13 := rfl
  have same := past pid month (by omega)
  exact ⟨same, mem_oldMonths.mpr ⟨by rwa [same], by omega⟩⟩

theorem archivedMonths_pass (sound : Sound env world)
    (keeps : KeepsPast world (.pass metrics current)) (pid : Text)
    (year : Int) :
    archivedMonths (world.after env (.pass metrics current)) pid year =
      archivedMonths world pid year := by
  ext month
  rw [sound.mem_archivedMonths, archivedMonths, Finset.mem_filter,
    List.mem_toFinset, mem_months]
  constructor
  · rintro ⟨-, inYear⟩
    exact inYear
  · rintro ⟨inYear, stored⟩
    have old := (mem_oldMonths_pass keeps (sound.isSome stored)).2
    exact ⟨(mem_oldMonths.mp old).1, inYear, stored⟩

theorem Sound.pass (sound : Sound env world)
    (keeps : KeepsPast world (.pass metrics current)) :
    Sound env (world.after env (.pass metrics current)) where
  monthly pid month snapshot stored := by
    obtain ⟨old, rfl⟩ := sound.monthly pid month snapshot stored
    obtain ⟨same, stays⟩ := mem_oldMonths_pass keeps old
    exact ⟨stays, congrArg (snapshotOf env) same.symm⟩
  noYear pid year empty := by
    rw [archivedMonths_pass sound keeps] at empty
    exact sound.noYear pid year empty
  someYear pid year nonempty := by
    rw [archivedMonths_pass sound keeps] at nonempty ⊢
    obtain ⟨latest, isLatest, stored⟩ := sound.someYear pid year nonempty
    have archived := (sound.mem_archivedMonths.mp isLatest.member).2
    have same := (mem_oldMonths_pass keeps (sound.isSome archived)).1
    exact ⟨latest, isLatest,
      stored.trans (congrArg (fun rows => some (summaryOf rows)) same.symm)⟩

theorem yearIsExact_pass (sound : Sound env world)
    (keeps : KeepsPast world (.pass metrics current)) {pid : Text}
    {year : Int} (exact : YearIsExact world pid year) :
    YearIsExact (world.after env (.pass metrics current)) pid year := by
  have same : totalOver metrics pid (archivedMonths world pid year) =
      totalOver world.metrics pid (archivedMonths world pid year) := by
    refine totalOver_congr fun month member => ?_
    have archived := (sound.mem_archivedMonths.mp member).2
    exact (mem_oldMonths_pass keeps (sound.isSome archived)).1
  rw [YearIsExact, archivedMonths_pass sound keeps]
  change _ = if _ then none else some (totalOver metrics pid _)
  rw [same]
  exact exact

end Passing

section Running

variable {env : Environment} {world : World} {pid : Text}

theorem monthly_isSome_migrate (sound : Sound env world) (month : Month) :
    (((world.after env (.migrate pid)).archive.monthly
        (month, pid)).isSome = true) ↔
      month ∈ oldMonths world.metrics pid world.current := by
  change ((migrateToArchive env pid world.metrics world.current
    world.archive).1.monthly (month, pid)).isSome = true ↔ _
  rw [monthly_migrate]
  split
  next archived => exact iff_of_true rfl archived.2
  next apart =>
    have absent := fun old => apart ⟨rfl, old⟩
    exact iff_of_false (fun stored => absent (sound.isSome stored)) absent

theorem mem_archivedMonths_migrate (sound : Sound env world) {year : Int}
    {month : Month} :
    month ∈ archivedMonths (world.after env (.migrate pid)) pid year ↔
      month ∈ oldMonths world.metrics pid world.current ∧ month.1 = year := by
  rw [archivedMonths, Finset.mem_filter, List.mem_toFinset, mem_months,
    monthly_isSome_migrate sound]
  constructor
  · rintro ⟨-, inYear, old⟩
    exact ⟨old, inYear⟩
  · rintro ⟨old, inYear⟩
    exact ⟨(mem_oldMonths.mp old).1, inYear, old⟩

theorem archivedMonths_migrate_other {other : Text} (differs : other ≠ pid)
    (year : Int) :
    archivedMonths (world.after env (.migrate pid)) other year =
      archivedMonths world other year := by
  refine Finset.filter_congr fun month _ => ?_
  change (_ ∧ ((migrateToArchive env pid world.metrics world.current
    world.archive).1.monthly (month, other)).isSome = true) ↔ _
  rw [monthly_migrate, if_neg fun same => differs same.1]

theorem Sound.migrate (sound : Sound env world) (pid : Text) :
    Sound env (world.after env (.migrate pid)) where
  monthly other month snapshot stored := by
    change (migrateToArchive env pid world.metrics world.current
      world.archive).1.monthly (month, other) = _ at stored
    rw [monthly_migrate] at stored
    split at stored
    next archived =>
      obtain ⟨rfl, old⟩ := archived
      exact ⟨old, (Option.some.inj stored).symm⟩
    next => exact sound.monthly other month snapshot stored
  noYear other year empty := by
    by_cases same : other = pid
    · subst same
      obtain ⟨absent, stays⟩ | ⟨latest, old, inYear, -⟩ :=
        @yearly_migrate env world.metrics other world.current world.archive year
      · refine stays.trans (sound.noYear other year ?_)
        refine Finset.eq_empty_of_forall_notMem fun month member => ?_
        obtain ⟨inYear, stored⟩ := sound.mem_archivedMonths.mp member
        exact absent month (sound.isSome stored) inYear
      · have member := (mem_archivedMonths_migrate sound).mpr ⟨old, inYear⟩
        rw [empty] at member
        exact absurd member (Finset.notMem_empty latest)
    · rw [archivedMonths_migrate_other same] at empty
      exact (yearly_migrate_other same year).trans (sound.noYear other year empty)
  someYear other year nonempty := by
    by_cases same : other = pid
    · subst same
      obtain ⟨absent, -⟩ | ⟨latest, old, inYear, last, stored⟩ :=
        @yearly_migrate env world.metrics other world.current world.archive year
      · refine absurd (Finset.eq_empty_of_forall_notMem fun month member => ?_)
          nonempty
        obtain ⟨old, inYear⟩ := (mem_archivedMonths_migrate sound).mp member
        exact absent month old inYear
      · refine ⟨latest, ⟨?_, fun month member => ?_⟩, stored⟩
        · exact (mem_archivedMonths_migrate sound).mpr ⟨old, inYear⟩
        · obtain ⟨isOld, sameYear⟩ :=
            (mem_archivedMonths_migrate sound).mp member
          exact last month isOld sameYear
    · rw [archivedMonths_migrate_other same] at nonempty ⊢
      obtain ⟨latest, isLatest, stored⟩ := sound.someYear other year nonempty
      exact ⟨latest, isLatest,
        (yearly_migrate_other same year).trans stored⟩

theorem yearIsExact_migrate_other {other : Text} (differs : other ≠ pid)
    {year : Int} (exact : YearIsExact world other year) :
    YearIsExact (world.after env (.migrate pid)) other year := by
  rw [YearIsExact, archivedMonths_migrate_other differs]
  change Option.map _ ((migrateToArchive env pid world.metrics world.current
    world.archive).1.yearly (year, other)) = _
  rw [yearly_migrate_other differs]
  exact exact

theorem yearIsExact_migrate_iff (sound : Sound env world) :
    (∀ year, YearIsExact (world.after env (.migrate pid)) pid year) ↔
      OnlyLatestCounts world pid := by
  have spelled := fun year =>
    @Sound.yearIsExact_iff env _ pid year (sound.migrate pid)
  constructor
  · intro exact latest old last month isOld sameYear differs
    have isLatest : IsLatest
        (archivedMonths (world.after env (.migrate pid)) pid latest.1)
        latest := by
      refine ⟨(mem_archivedMonths_migrate sound).mpr ⟨old, rfl⟩, ?_⟩
      intro month member
      obtain ⟨isOld, sameYear⟩ := (mem_archivedMonths_migrate sound).mp member
      exact last month isOld sameYear
    exact (spelled latest.1).mp (exact latest.1) latest isLatest month
      ((mem_archivedMonths_migrate sound).mpr ⟨isOld, sameYear⟩) differs
  · intro counts year
    refine (spelled year).mpr fun latest isLatest month member differs => ?_
    obtain ⟨old, rfl⟩ := (mem_archivedMonths_migrate sound).mp isLatest.member
    obtain ⟨isOld, sameYear⟩ := (mem_archivedMonths_migrate sound).mp member
    refine counts latest old (fun month isOld sameYear => ?_) month isOld
      sameYear differs
    exact isLatest.last month
      ((mem_archivedMonths_migrate sound).mpr ⟨isOld, sameYear⟩)

theorem exact_migrate_iff (sound : Sound env world)
    (exact : ∀ pid year, YearIsExact world pid year) :
    Exact env (world.after env (.migrate pid)) pid ↔
      OnlyLatestCounts world pid := by
  rw [← yearIsExact_migrate_iff sound]
  constructor
  · intro all year
    exact all.yearly pid year
  · intro years
    refine ⟨?_, monthly_isSome_migrate sound, ?_, migrate_again⟩
    · intro other month snapshot stored
      obtain ⟨-, rfl⟩ := (sound.migrate pid).monthly other month snapshot stored
      exact ⟨rfl, rfl⟩
    · intro other year
      by_cases same : other = pid
      · rw [same]
        exact years year
      · exact yearIsExact_migrate_other same (exact other year)

theorem exact_runs (sound : Sound env world)
    (exact : ∀ pid year, YearIsExact world pid year) {steps : List Step}
    (keeps : KeepsPastThroughout env world steps) :
    AfterRuns env (Exact env) world steps ↔
      BeforeRuns env OnlyLatestCounts world steps := by
  induction steps generalizing world with
  | nil => exact Iff.rfl
  | cons step steps ih =>
      obtain ⟨now, afterwards⟩ := keeps
      cases step with
      | pass metrics current =>
          refine ih (sound.pass now) ?_ afterwards
          intro pid year
          exact yearIsExact_pass sound now (exact pid year)
      | migrate pid =>
          rw [AfterRuns, BeforeRuns, exact_migrate_iff sound exact]
          refine and_congr_right fun counts => ?_
          have all := (exact_migrate_iff sound exact).mpr counts
          exact ih (sound.migrate pid) all.yearly afterwards

/-- The archive is exact after every run just when in each run only the latest
of the months that are archived of a year counts. -/
theorem archive_exact (env : Environment) (metrics : Metrics) (current : Int)
    (steps : List Step)
    (keeps : KeepsPastThroughout env ⟨metrics, current, .empty⟩ steps) :
    AfterRuns env (Exact env) ⟨metrics, current, .empty⟩ steps ↔
      BeforeRuns env OnlyLatestCounts ⟨metrics, current, .empty⟩ steps := by
  have sound := @sound_empty env metrics current
  refine exact_runs sound (fun pid year => ?_) keeps
  refine sound.yearIsExact_iff.mpr ?_
  rintro latest ⟨member, -⟩
  cases (sound.mem_archivedMonths.mp member).2

/-- The first day of a month of 2020. -/
def firstDay (month : Int) (totalTxCount : ℕ) : DailyRow where
  day := 1
  month := month
  year := 2020
  pid := "0a".toList
  totalTxCount := totalTxCount
  totalVolume := 0
  avgLatencyMs := 0
  peersConnected := 0
  contentServed := 0
  requestsServed := 0
  uptimeSeconds := 0

def archivingEnvironment : Environment where
  scheme := ledgerScheme Sha256.sha256 []
  realText _ := "0.0".toList

/-- In January of 2022. -/
def laterMonth : Int := monthTotal (2022, 1)

def oneMonth : Metrics := ⟨[firstDay 1 5], by decide⟩

def oneMonthSteps : List Step :=
  [.migrate "0a".toList, .pass oneMonth (laterMonth + 1),
    .migrate "0a".toList]

theorem onlyLatestCounts_oneMonth (current : Int) (archive : Archive) :
    OnlyLatestCounts ⟨oneMonth, current, archive⟩ "0a".toList := by
  have january : ∀ month ∈ oldMonths oneMonth "0a".toList current,
      month = (2020, 1) := by
    intro month old
    have member : month ∈ months oneMonth "0a".toList :=
      mem_months.mpr (mem_oldMonths.mp old).1
    rw [months, List.mem_mergeSort, List.mem_dedup] at member
    exact List.mem_singleton.mp member
  intro latest isOld _ month old _ differs
  exact absurd ((january month old).trans (january latest isOld).symm) differs

theorem archive_exact_oneMonth :
    AfterRuns archivingEnvironment (Exact archivingEnvironment)
      ⟨oneMonth, laterMonth, .empty⟩ oneMonthSteps := by
  have keeps : KeepsPastThroughout archivingEnvironment
      ⟨oneMonth, laterMonth, .empty⟩ oneMonthSteps :=
    ⟨trivial, ⟨Int.le_add_one le_rfl, fun _ _ _ => rfl⟩, trivial, trivial⟩
  exact (archive_exact archivingEnvironment oneMonth laterMonth oneMonthSteps
    keeps).mpr
    ⟨onlyLatestCounts_oneMonth _ _, onlyLatestCounts_oneMonth _ _, trivial⟩

def twoMonths : Metrics := ⟨[firstDay 1 5, firstDay 2 7], by decide⟩

/-- When two months are archived at once, the year has the sums of the second
one. -/
theorem not_archive_exact :
    KeepsPastThroughout archivingEnvironment ⟨twoMonths, laterMonth, .empty⟩
        [.migrate "0a".toList] ∧
      ¬ AfterRuns archivingEnvironment (Exact archivingEnvironment)
        ⟨twoMonths, laterMonth, .empty⟩ [.migrate "0a".toList] := by
  refine ⟨⟨trivial, trivial⟩, fun exact => ?_⟩
  have counts := (yearIsExact_migrate_iff (sound_empty twoMonths laterMonth)).mp
    (exact.1.yearly "0a".toList)
  have listed : ∀ month, month ∈ oldMonths twoMonths "0a".toList laterMonth ↔
      month = (2020, 1) ∨ month = (2020, 2) := by
    intro month
    have rows : month ∈ months twoMonths "0a".toList ↔
        month ∈ [((2020, 1) : Month), (2020, 2)] := by
      rw [months, List.mem_mergeSort, List.mem_dedup]
      rfl
    rw [mem_oldMonths, ← mem_months, rows, List.mem_cons, List.mem_singleton]
    refine and_iff_left_of_imp ?_
    rintro (rfl | rfl) <;> decide
  have nothing := counts (2020, 2) ((listed _).mpr (.inr rfl))
    (fun month old _ => by
      rcases (listed month).mp old with rfl | rfl <;> decide)
    (2020, 1) ((listed _).mpr (.inl rfl)) rfl (by decide)
  have five : (monthTotals twoMonths "0a".toList (2020, 1)).txCount = 5 := by
    decide
  have none : (monthTotals twoMonths "0a".toList (2020, 1)).txCount = 0 :=
    nothing.txCount
  omega

end Running

end ArchiveDatabase

end RefinetPillars
