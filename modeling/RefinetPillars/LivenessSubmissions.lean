import RefinetPillars.CrashableActions
import RefinetPillars.LivenessMonitor
import RefinetPillars.PillarStakingFees
import RefinetPillars.StakingAbi

/-!
# Submitting the inactive Pillars of a day

`finalize_day` passes the pending PIDs to the submitter batch by batch and
records every batch after the submitter has returned.  The submitter may raise,
and the process may be stopped after any change of the chain or the database.
-/

namespace RefinetPillars

namespace LivenessMonitor

open CrashableActions CrashableActions.Action HexText PillarStaking RunHistory

variable {this : Address}

/-- A batch that was passed to the submitter, and the database at that
moment. -/
structure Passing where
  db : Database
  day : Int
  batch : List Text

/-- The database, what the chain has taken so far, newest first, and the batches
that were passed to a submitter, oldest first. -/
structure System (this : Address) where
  db : Database
  chain : List (PillarStaking.Input this) := []
  passed : List Passing := []

def System.pass (day : Int) (batch : List Text) (system : System this) :
    System this :=
  { system with passed := system.passed ++ [⟨system.db, day, batch⟩] }

def System.mark (day : Int) (batch : List Text) (tx : Text)
    (system : System this) : System this :=
  { system with db := system.db.markSubmitted day batch tx }

def System.take (input : PillarStaking.Input this) (system : System this) :
    System this :=
  { system with chain := input :: system.chain }

/-- What the submitter returns or raises, and what the chain takes meanwhile in
its order.  Both may depend on what the chain has taken before. -/
abbrev Submitter (this : Address) : Type :=
  List Text → Int → List (PillarStaking.Input this) →
    Except Text Text × List (PillarStaking.Input this)

/-- The chain takes one input after the other. -/
def takeAll : List (PillarStaking.Input this) → Action (System this) Text Unit
  | [] => pure ()
  | input :: inputs => do
      perform (System.take input)
      takeAll inputs

/-- `submit(batch, day)`. -/
def submitted (submitter : Submitter this) (batch : List Text) (day : Int) :
    Action (System this) Text Text := do
  let system ← read
  takeAll (submitter batch day system.chain).2
  lift (submitter batch day system.chain).1

/-- `bytes.fromhex`, as a `bytes32` of the call. -/
def pidWord (pid : Text) : Option PillarStaking.Pid :=
  (fromHex pid).bind fun bytes =>
    if bytes.length = 32 then some (BitVec.ofNat 256 (fromBigEndian bytes))
    else none

/-- What the submitter that sends `recordInactive` meets: the other transactions
that the chain takes first, whether its own is mined, and the message and the
hash that it has then. -/
structure Sending (this : Address) where
  others : List (PillarStaking.Input this)
  mined : Bool
  msg : Msg this
  token : Token
  hash : Text

/-- `Web3Submitter`, on a chain whose contract started as `start`. -/
def web3Submitter (start : World) (sending : Sending this) : Submitter this :=
  fun batch day chain =>
    match batch.mapM pidWord with
    | none => (.error "not a PID".toList, [])
    | some pids =>
        if day < 0 ∨ 2 ^ 32 ≤ day then (.error "not a uint32".toList, [])
        else if sending.mined then
          let tx : Tx this :=
            ⟨sending.msg, .recordInactive pids day.toNat, sending.token⟩
          (match tx.execute (runInputs start (sending.others.reverse ++ chain)) with
            | .ok _ => .ok sending.hash
            | .error _ => .error "recordInactive reverted".toList,
            sending.others ++ [.transaction tx])
        else (.error "no receipt".toList, sending.others)

/-- The slices of the source's loop. -/
def batches (todo : List Text) : List (List Text) :=
  (List.range ((todo.length + (submitBatch - 1)) / submitBatch)).map fun i =>
    (todo.drop (submitBatch * i)).take submitBatch

def submitBatches (submitter : Submitter this) (day : Int) (sent : List Text) :
    List (List Text) → Action (System this) Text (List Text)
  | [] => pure sent
  | batch :: rest => do
      perform (System.pass day batch)
      let tx ← submitted submitter batch day
      perform (System.mark day batch tx)
      submitBatches submitter day (sent ++ batch) rest

/-- The PIDs of a day that are still to be submitted. -/
def System.todo (system : System this) (day : Int) : List Text :=
  pendingForDay system.db day (inactiveForDay system.db day).1

/-- `finalize_day`; without a submitter it is a dry run. -/
def finalizeDay (day : Int) (submit : Option (Submitter this)) :
    Action (System this) Text (List Text) := do
  let system ← read
  let todo := system.todo day
  if todo = [] then pure []
  else
    match submit with
    | none => pure todo
    | some submitter => submitBatches submitter day [] (batches todo)

/-- A call of `finalize_day`, which a crash may stop after so many changes, or
something else that happens to the database or on the chain. -/
inductive Happening (this : Address) where
  | finalize (day : Int) (submit : Option (Submitter this))
      (crash : Option Nat)
  | round (ts : Int) (results : List (Text × Bool))
  | cursor (day : Int)
  | chain (input : PillarStaking.Input this)

/-- A call that ends, or that is stopped by a crash. -/
def System.after (system : System this) (day : Int)
    (submit : Option (Submitter this)) : Option Nat → System this
  | none => final (finalizeDay day submit) system
  | some count => stopped count (finalizeDay day submit) system

def Happening.apply : Happening this → System this → System this
  | .finalize day submit crash, system => system.after day submit crash
  | .round ts results, system =>
      { system with db := system.db.recordRound ts results }
  | .cursor day, system =>
      { system with db := system.db.setLastFinalizedDay day }
  | .chain input, system => system.take input

/-- The system after everything that happened, newest first. -/
abbrev runSystem (db : Database) (happenings : List (Happening this)) :
    System this :=
  run Happening.apply { db := db } happenings

section Batches

theorem flatten_slices (todo : List Text) (count : Nat) :
    ((List.range count).map fun i =>
        (todo.drop (submitBatch * i)).take submitBatch).flatten =
      todo.take (submitBatch * count) := by
  induction count with
  | zero => simp
  | succ count ih =>
      rw [List.range_succ, List.map_append, List.flatten_append, ih,
        Nat.mul_succ, List.take_add]
      simp

theorem flatten_batches (todo : List Text) : (batches todo).flatten = todo := by
  rw [batches, flatten_slices]
  apply List.take_of_length_le
  simp only [submitBatch]
  omega

theorem size_of_mem_batches {todo batch : List Text}
    (member : batch ∈ batches todo) :
    batch ≠ [] ∧ batch.length ≤ submitBatch := by
  obtain ⟨i, inRange, rfl⟩ := List.mem_map.mp member
  rw [List.mem_range] at inRange
  constructor
  · apply List.ne_nil_of_length_pos
    simp only [List.length_take, List.length_drop, submitBatch] at inRange ⊢
    omega
  · simp

/-- The batches cut the pending PIDs, in their order, into pieces. -/
structure Partitions (system : System this) (day : Int) : Prop where
  pending : ∀ pid, pid ∈ system.todo day ↔
    pid ∈ (inactiveForDay system.db day).1 ∧ ¬ system.db.Submitted day pid
  sorted : (system.todo day).Pairwise (· < ·)
  whole : (batches (system.todo day)).flatten = system.todo day
  sizes : ∀ batch ∈ batches (system.todo day),
    batch ≠ [] ∧ batch.length ≤ 100

theorem sorted_inactiveForDay (db : Database) (day : Int) :
    (inactiveForDay db day).1.Pairwise (· < ·) := by
  unfold inactiveForDay
  dsimp only
  split_ifs
  · exact List.Pairwise.nil
  · exact List.Pairwise.nil
  · refine ((List.pairwise_insertionSort _ _).and
      ((List.perm_insertionSort _ _).nodup_iff.mpr
        ((List.nodup_dedup _).filter _))).imp ?_
    intro first second related
    exact lt_of_le_of_ne related.1 related.2

theorem partitions (system : System this) (day : Int) :
    Partitions system day where
  pending pid := by simp [System.todo, pendingForDay]
  sorted := (sorted_inactiveForDay system.db day).filter _
  whole := flatten_batches _
  sizes _ := size_of_mem_batches

end Batches

section Progress

variable {day : Int} {left rest : List (List Text)} {batch : List Text}
  {before middle after system : System this} {submitter : Submitter this}
  {sent : List Text}

/-- How far a call has come: the batches that are still to be recorded, and
whether the first of them has been passed to the submitter. -/
inductive Progress (day : Int) : List (List Text) → System this →
    List (List Text) → Bool → System this → Prop
  | idle {left : List (List Text)} {before after : System this}
      (db : after.db = before.db) (passed : after.passed = before.passed) :
      Progress day left before left false after
  | passing {batch : List Text} {rest : List (List Text)}
      {before after : System this} (db : after.db = before.db)
      (passed : after.passed = before.passed ++ [⟨before.db, day, batch⟩]) :
      Progress day (batch :: rest) before (batch :: rest) true after
  | marked {batch : List Text} {rest left : List (List Text)} {isOpen : Bool}
      {before middle after : System this} (tx : Text)
      (db : middle.db = before.db.markSubmitted day batch tx)
      (passed : middle.passed = before.passed ++ [⟨before.db, day, batch⟩])
      (later : Progress day rest middle left isOpen after) :
      Progress day (batch :: rest) before left isOpen after

/-- The chain moves on, and nothing else. -/
def SameRecords (before after : System this) : Prop :=
  after.db = before.db ∧ after.passed = before.passed

instance SameRecords.refl : Std.Refl (@SameRecords this) :=
  ⟨fun _ => ⟨rfl, rfl⟩⟩

instance SameRecords.trans : IsTrans (System this) SameRecords :=
  ⟨fun _ _ _ first second =>
    ⟨second.1.trans first.1, second.2.trans first.2⟩⟩

theorem keeps_takeAll (inputs : List (PillarStaking.Input this))
    (system : System this) :
    Keeps SameRecords (takeAll inputs) (fun _ _ => True) system := by
  induction inputs generalizing system with
  | nil => exact keeps_pure trivial
  | cons input inputs ih =>
      exact keeps_bind (keeps_perform ⟨rfl, rfl⟩ (ih _))

theorem keeps_submitted (submitter : Submitter this) (batch : List Text)
    (day : Int) (system : System this) :
    Keeps SameRecords (submitted submitter batch day) (fun _ _ => True)
      system := by
  apply keeps_bind
  apply keeps_read
  exact keeps_bind ((keeps_takeAll _ _).mono fun _ _ _ =>
    keeps_lift fun _ _ => trivial)

theorem ends_submitted (submitter : Submitter this) (batch : List Text)
    (day : Int) (system : System this) :
    Ends (submitted submitter batch day) (fun _ => SameRecords system)
      (fun _ => SameRecords system) system :=
  ⟨fun _ _ => (keeps_submitted _ _ _ _).kept_final,
    fun _ _ => (keeps_submitted _ _ _ _).kept_final⟩

theorem Progress.of_pass
    (same : SameRecords (System.pass day batch before) after) :
    Progress day (batch :: rest) before (batch :: rest) true after :=
  .passing same.1 same.2

theorem Progress.of_mark {isOpen : Bool} {tx : Text}
    (same : SameRecords (System.pass day batch before) middle)
    (later : Progress day rest (System.mark day batch tx middle) left isOpen
      after) :
    Progress day (batch :: rest) before left isOpen after := by
  refine .marked tx ?_ ?_ later
  · rw [System.mark, same.1, System.pass]
  · exact same.2

/-- How a call ends. -/
theorem ends_submitBatches :
    Ends (submitBatches submitter day sent left)
      (fun value after => value = sent ++ left.flatten ∧
        Progress day left system [] false after)
      (fun _ after => ∃ rest, Progress day left system rest true after)
      system := by
  induction left generalizing sent system with
  | nil => exact ends_pure ⟨by simp, .idle rfl rfl⟩
  | cons batch rest ih =>
      apply ends_bind
      apply ends_perform
      apply ends_bind
      refine (ends_submitted _ _ _ _).mono ?_ ?_
      · intro tx middle same
        apply ends_bind
        apply ends_perform
        refine ih.mono ?_ ?_
        · rintro value after ⟨returned, later⟩
          exact ⟨by simp [returned], .of_mark same later⟩
        · rintro raised after ⟨left, later⟩
          exact ⟨left, .of_mark same later⟩
      · intro raised middle same
        exact ⟨_, .of_pass same⟩

/-- Where a call may be stopped. -/
theorem progress_of_mem_submitBatches
    (member : after ∈ (submitBatches submitter day sent left system).2) :
    ∃ rest isOpen, Progress day left system rest isOpen after := by
  induction left generalizing sent system with
  | nil => exact (List.not_mem_nil member).elim
  | cons batch rest ih =>
      rw [submitBatches, perform_bind_apply] at member
      rcases List.mem_cons.mp member with rfl | later
      · exact ⟨_, _, .of_pass (Std.Refl.refl _)⟩
      · rcases mem_bind.mp later with during | ⟨tx, _, marking⟩
        · have same := (keeps_submitted _ _ _ _).passes _ during
          exact ⟨_, _, .of_pass same⟩
        · have same := (keeps_submitted submitter batch day
            (System.pass day batch system)).kept_final
          rw [perform_bind_apply] at marking
          rcases List.mem_cons.mp marking with rfl | further
          · exact ⟨_, _, .of_mark same (.idle rfl rfl)⟩
          · obtain ⟨left, isOpen, progress⟩ := ih further
            exact ⟨left, isOpen, .of_mark same progress⟩

end Progress

section Calls

variable {day : Int} {left rest done opened : List (List Text)}
  {before after system : System this} {isOpen : Bool}

/-- A call has passed the batches `done` and `opened` to the submitter, and
recorded `done`. -/
structure Submits (day : Int) (done opened : List (List Text))
    (before after : System this) : Prop where
  passed : ∃ new, after.passed = before.passed ++ new ∧
    new.map Passing.batch = done ++ opened ∧ ∀ passing ∈ new, passing.day = day
  recorded : ∀ other pid, after.db.Submitted other pid ↔
    before.db.Submitted other pid ∨ (day = other ∧ pid ∈ done.flatten)
  judged : ∀ other,
    inactiveForDay after.db other = inactiveForDay before.db other

/-- What a call has done is described by the batches that it is through. -/
theorem Progress.submits (progress : Progress day left before rest isOpen after) :
    ∃ done, left = done ++ rest ∧
      Submits day done (if isOpen then rest.take 1 else []) before after := by
  induction progress with
  | idle db passed =>
      refine ⟨[], rfl, ⟨[], by simp [passed], by simp⟩, ?_, ?_⟩
      · simp [db]
      · simp [db]
  | @passing batch rest before after db passed =>
      refine ⟨[], rfl, ⟨[⟨before.db, day, batch⟩], passed, ?_⟩, ?_, ?_⟩
      · simp
      · simp [db]
      · simp [db]
  | @marked batch rest left isOpen before middle after tx db passed _ ih =>
      obtain ⟨done, rfl, ⟨new, extended, batchesOf, daysOf⟩, recorded, judged⟩ :=
        ih
      refine ⟨batch :: done, rfl,
        ⟨⟨before.db, day, batch⟩ :: new, ?_, ?_, ?_⟩, ?_, ?_⟩
      · simp [extended, passed]
      · simp [batchesOf]
      · simpa using daysOf
      · intro other pid
        rw [recorded, db, submitted_markSubmitted, List.flatten_cons,
          List.mem_append]
        tauto
      · intro other
        rw [judged, db, inactiveForDay_markSubmitted]

theorem Progress.rest_ne_nil
    (progress : Progress day left before rest isOpen after)
    (passed : isOpen = true) : rest ≠ [] := by
  induction progress with
  | idle => cases passed
  | passing => exact List.cons_ne_nil _ _
  | marked _ _ _ _ ih => exact ih passed

/-- No PID is passed to a submitter while it is in the table. -/
def PassesFresh (system : System this) : Prop :=
  ∀ passing ∈ system.passed, ∀ pid ∈ passing.batch,
    ¬ passing.db.Submitted passing.day pid

theorem Progress.passesFresh
    (progress : Progress day left before rest isOpen after)
    (distinct : left.flatten.Nodup)
    (pending : ∀ pid ∈ left.flatten, ¬ before.db.Submitted day pid)
    (fresh : PassesFresh before) : PassesFresh after := by
  have freshPass : ∀ {before middle : System this} {batch : List Text},
      middle.passed = before.passed ++ [⟨before.db, day, batch⟩] →
      (∀ pid ∈ batch, ¬ before.db.Submitted day pid) → PassesFresh before →
      PassesFresh middle := by
    intro before middle batch passed pending fresh passing member
    rw [passed, List.mem_append, List.mem_singleton] at member
    rcases member with earlier | rfl
    · exact fresh passing earlier
    · exact pending
  induction progress with
  | idle db passed =>
      rw [PassesFresh, passed]
      exact fresh
  | passing db passed =>
      exact freshPass passed
        (fun pid member => pending pid (by simp [member])) fresh
  | marked tx db passed _ ih =>
      rw [List.flatten_cons, List.nodup_append'] at distinct
      obtain ⟨_, distinctRest, disjoint⟩ := distinct
      refine ih distinctRest ?_ (freshPass passed
        (fun pid member => pending pid (by simp [member])) fresh)
      intro pid member
      rw [db, submitted_markSubmitted]
      rintro (earlier | ⟨_, marked⟩)
      · exact pending pid (by simp [member]) earlier
      · exact disjoint marked member

theorem finalizeDay_apply (submit : Option (Submitter this)) :
    finalizeDay day submit system =
      match submit with
      | none => (.ok (system.todo day), [])
      | some submitter =>
          submitBatches submitter day [] (batches (system.todo day))
            system := by
  by_cases nothing : system.todo day = []
  · cases submit with
    | none => simp [finalizeDay, nothing]
    | some submitter =>
        have noBatches : batches ([] : List Text) = [] := rfl
        simp [finalizeDay, nothing, noBatches, submitBatches]
  · cases submit <;> simp [finalizeDay, nothing]

theorem progress_of_mem_finalizeDay {submit : Option (Submitter this)}
    (member : after ∈ (finalizeDay day submit system).2) :
    ∃ rest isOpen,
      Progress day (batches (system.todo day)) system rest isOpen after := by
  rw [finalizeDay_apply] at member
  cases submit with
  | none => exact (List.not_mem_nil member).elim
  | some submitter => exact progress_of_mem_submitBatches member

theorem progress_of_getLastD {states : List (System this)}
    (all : ∀ after ∈ states, ∃ rest isOpen, Progress day left before rest
      isOpen after) :
    ∃ rest isOpen, Progress day left before rest isOpen
      (states.getLastD before) := by
  by_cases moved : states.getLastD before = before
  · rw [moved]
    exact ⟨_, _, .idle rfl rfl⟩
  · exact all _ (mem_of_getLastD_ne moved)

theorem progress_after (submit : Option (Submitter this))
    (crash : Option Nat) :
    ∃ rest isOpen, Progress day (batches (system.todo day)) system rest isOpen
      (system.after day submit crash) := by
  cases crash with
  | none =>
      exact progress_of_getLastD fun _ member =>
        progress_of_mem_finalizeDay member
  | some count =>
      exact progress_of_getLastD fun _ member =>
        progress_of_mem_finalizeDay (List.mem_of_mem_take member)

/-- One call of `finalize_day` in the state that it meets. -/
structure SubmitsOnce (system : System this) (day : Int)
    (submit : Option (Submitter this)) : Prop where
  partitions : Partitions system day
  /-- Wherever a call ends or is stopped, it has passed the first batches to the
  submitter, and all of them but the last one are recorded for certain. -/
  progress : ∀ crash, ∃ done opened left,
    batches (system.todo day) = done ++ opened ++ left ∧ opened.length ≤ 1 ∧
      Submits day done opened system (system.after day submit crash)
  dryRun : submit = none →
    finalizeDay day submit system = (.ok (system.todo day), [])
  returns : ∀ submitter value, submit = some submitter →
    (finalizeDay day submit system).1 = .ok value →
      value = system.todo day ∧
        Submits day (batches (system.todo day)) [] system
          (system.after day submit none) ∧
        (system.after day submit none).db.Settled day
  raises : ∀ raised, (finalizeDay day submit system).1 = .error raised →
    ∃ done failed left, batches (system.todo day) = done ++ failed :: left ∧
      Submits day done [failed] system (system.after day submit none)

theorem submitsOnce (system : System this) (day : Int)
    (submit : Option (Submitter this)) : SubmitsOnce system day submit where
  partitions := partitions system day
  progress crash := by
    obtain ⟨rest, isOpen, progress⟩ := progress_after submit crash
    obtain ⟨done, cut, submits⟩ := progress.submits
    refine ⟨done, _, if isOpen then rest.drop 1 else rest, ?_, ?_, submits⟩
    · cases isOpen with
      | false => simp [cut]
      | true =>
          rw [cut, if_pos rfl, if_pos rfl, List.append_assoc,
            List.take_append_drop]
    · cases isOpen <;> simp
  dryRun dry := by rw [finalizeDay_apply, dry]
  returns submitter value given returned := by
    subst given
    rw [finalizeDay_apply] at returned
    obtain ⟨valueEq, progress⟩ := ends_submitBatches.returns value returned
    obtain ⟨done, cut, submits⟩ := progress.submits
    have afterEq : system.after day (some submitter) none =
        final (submitBatches submitter day [] (batches (system.todo day)))
          system := by
      rw [System.after, final, finalizeDay_apply]
      rfl
    rw [List.append_nil] at cut
    subst cut
    rw [afterEq]
    refine ⟨by rw [valueEq, flatten_batches, List.nil_append], submits, ?_⟩
    intro pid inactive
    rw [submits.judged] at inactive
    rw [submits.recorded, flatten_batches,
      (partitions system day).pending]
    by_cases already : system.db.Submitted day pid
    · exact Or.inl already
    · exact Or.inr ⟨rfl, inactive, already⟩
  raises raised failed := by
    rw [finalizeDay_apply] at failed
    cases submit with
    | none => cases failed
    | some submitter =>
        obtain ⟨rest, progress⟩ := ends_submitBatches.raised raised failed
        have afterEq : system.after day (some submitter) none =
            final (submitBatches submitter day []
              (batches (system.todo day))) system := by
          rw [System.after, final, finalizeDay_apply]
          rfl
        obtain ⟨done, cut, submits⟩ := progress.submits
        rw [afterEq]
        cases rest with
        | nil => exact (progress.rest_ne_nil rfl rfl).elim
        | cons failed left => exact ⟨done, failed, left, cut, submits⟩

end Calls

section Runs

variable {token admin feeRecipient : Address} {balanceOf : Balances}
  {start : World}

theorem passesFresh_runSystem (db : Database)
    (happenings : List (Happening this)) :
    PassesFresh (runSystem db happenings) := by
  induction happenings with
  | nil => exact nofun
  | cons happening earlier fresh =>
      rw [runSystem, run_cons]
      cases happening with
      | finalize day submit crash =>
          have cuts := partitions (runSystem db earlier) day
          obtain ⟨rest, isOpen, progress⟩ := progress_after submit crash
          refine progress.passesFresh ?_ ?_ fresh
          · rw [cuts.whole]
            exact cuts.sorted.imp ne_of_lt
          · intro pid member
            rw [cuts.whole] at member
            exact ((cuts.pending pid).mp member).2
      | round ts results => exact fresh
      | cursor day => exact fresh
      | chain input => exact fresh

/-- Submissions are made exactly once up to crashes.  In every state that is
reached by calls of `finalize_day`, of which any may raise or be stopped by a
crash, and by rounds and other transactions in between, a further call passes
batches of at most 100 that cut the pending PIDs in sorted order, up to the
first failure, and a call that returns has settled the day; no PID was ever
passed while it was recorded as submitted; and the contract has recorded no day
of a PID twice. -/
theorem submits_exactly_once
    (deployed : deploy this token admin feeRecipient balanceOf = .ok start)
    (db : Database) (happenings : List (Happening this)) :
    let system := runSystem db happenings
    (∀ day submit, SubmitsOnce system day submit) ∧
      (∀ passing ∈ system.passed, ∀ pid ∈ passing.batch,
        ¬ passing.db.Submitted passing.day pid) ∧
      ∀ pid day, ((runInputs start system.chain).history pid).countP
        (·.recordsDay day) ≤ 1 := by
  intro system
  refine ⟨fun day submit => submitsOnce system day submit, ?_, ?_⟩
  · exact passesFresh_runSystem db happenings
  · exact recorded_once deployed system.chain

/-- A day on which the monitor was up, one Pillar answered and PID 7 did
not. -/
def judgedDay : Database where
  rounds := (List.range 96).map fun round => 2 * 86400 + 900 * (round : Int)
  probes :=
    [⟨StakingReader.pidText 7, 2 * 86400, false⟩, ⟨StakingReader.pidText 8, 2 * 86400, true⟩]

/-- The oracle records the day. -/
def sentByOracle : Sending 1 where
  others := []
  mined := true
  msg := byOracle (3 * oneDay)
  token := exactToken 1
  hash := "01".toList

/-- PID 7 registers, the oracle is appointed, a first call is stopped after its
transaction has been mined, and a second one submits the PID again. -/
def resubmittedRun : List (Happening 1) :=
  [.finalize 2 (some (web3Submitter fundedWorld sentByOracle)) none,
    .finalize 2 (some (web3Submitter fundedWorld sentByOracle)) (some 2),
    .chain ((byAdmin (2 * oneDay)).sends (.grantRole .oracle 6)),
    .chain ((byOperator oneDay).sends
      (.register 7 (threshold + 20 * ether) []))]

/-- The PID is passed twice, and charged once. -/
theorem submits_exactly_once_resubmitted :
    let system := runSystem judgedDay resubmittedRun
    system.passed.map Passing.batch = [[StakingReader.pidText 7], [StakingReader.pidText 7]] ∧
      system.db.Submitted 2 (StakingReader.pidText 7) ∧
      ((runInputs fundedWorld system.chain).history 7).countP
        (·.recordsDay 2) ≤ 1 := by
  refine ⟨by decide +kernel, by decide +kernel, ?_⟩
  exact (submits_exactly_once deploy_fundedWorld judgedDay
    resubmittedRun).2.2 7 2

end Runs

end LivenessMonitor

end RefinetPillars
