import RefinetPillars.OrderedDict
import RefinetPillars.RunHistory

/-!
# The rate limiter

Each address may make so many requests in a sliding window.  The limiter keeps
the moments of the allowed ones in a table that is swept and bounded; as long as
an address is not evicted, this is not noticed.
-/

namespace RefinetPillars

namespace RateLimiter

open OrderedDict RunHistory

/-- The parameters of a limiter, which tracks at least one address. -/
structure Limits where
  maxRequests : Nat
  windowSeconds : ℚ
  maxTrackedIps : Nat
  sweepEvery : Int
  tracks : 0 < maxTrackedIps

section Limiter

variable (Ip : Type)

/-- The state of a limiter: the moments of the requests of each address, the
oldest first. -/
structure State where
  requests : Dict Ip (List ℚ)
  blockedCount : Nat
  callsSinceSweep : Nat

/-- An address that is dropped for want of space, with its moments. -/
structure Eviction where
  ip : Ip
  moments : List ℚ
  cutoff : ℚ

variable {Ip}

/-- It had a request in the window. -/
def Eviction.Live (eviction : Eviction Ip) : Prop :=
  ∃ last ∈ eviction.moments.getLast?, eviction.cutoff ≤ last

structure Call (Ip : Type) where
  ip : Ip
  now : ℚ
deriving DecidableEq

/-- `_sweep`: addresses without a request in the window are forgotten. -/
def sweep (cutoff : ℚ) (requests : Dict Ip (List ℚ)) : Dict Ip (List ℚ) :=
  requests.filter fun entry =>
    entry.2.getLast?.any fun last => decide (cutoff ≤ last)

variable [DecidableEq Ip] (limits : Limits)

/-- Make room for an address that is not tracked. -/
def makeRoom (cutoff : ℚ) (requests : Dict Ip (List ℚ)) :
    Dict Ip (List ℚ) × List (Eviction Ip) :=
  if limits.maxTrackedIps ≤ requests.length then
    let swept := sweep cutoff requests
    let excess := swept.length + 1 - limits.maxTrackedIps
    (swept.dropOldest excess,
      (swept.entries.take excess).map fun entry =>
        ⟨entry.1, entry.2, cutoff⟩)
  else (requests, [])

/-- Every so many calls the table is swept. -/
def sweepInTurn (cutoff : ℚ) (state : State Ip) : State Ip :=
  if limits.sweepEvery ≤ state.callsSinceSweep + 1 then
    { state with
      requests := sweep cutoff state.requests
      callsSinceSweep := 0 }
  else { state with callsSinceSweep := state.callsSinceSweep + 1 }

/-- The table with the address in it, and what was dropped for it. -/
def track (cutoff : ℚ) (ip : Ip) (requests : Dict Ip (List ℚ)) :
    Dict Ip (List ℚ) × List (Eviction Ip) :=
  if requests.get? ip = none then
    let (requests, evicted) := makeRoom limits cutoff requests
    (requests.set ip [], evicted)
  else (requests, [])

/-- The answer of a call, the state after it, and what was evicted. -/
structure Outcome (Ip : Type) where
  allowed : Bool
  state : State Ip
  evicted : List (Eviction Ip)

def isAllowed (call : Call Ip) (state : State Ip) : Outcome Ip :=
  let cutoff := call.now - limits.windowSeconds
  let state := sweepInTurn limits cutoff state
  let (requests, evicted) := track limits cutoff call.ip state.requests
  let moments := ((requests.get? call.ip).getD []).dropWhile fun moment =>
    decide (moment < cutoff)
  if limits.maxRequests ≤ moments.length then
    { allowed := false
      state := { state with
        requests := requests.set call.ip moments
        blockedCount := state.blockedCount + 1 }
      evicted := evicted }
  else
    { allowed := true
      state := { state with
        requests := requests.set call.ip (moments ++ [call.now]) }
      evicted := evicted }

/-- A run with what it has answered, newest first, and evicted. -/
structure Run (Ip : Type) where
  state : State Ip
  answers : List (Call Ip × Bool)
  evicted : List (Eviction Ip)

def Run.initial : Run Ip := ⟨⟨Dict.empty, 0, 0⟩, [], []⟩

def Run.next (call : Call Ip) (before : Run Ip) : Run Ip :=
  let outcome := isAllowed limits call before.state
  { state := outcome.state
    answers := (call, outcome.allowed) :: before.answers
    evicted := outcome.evicted ++ before.evicted }

/-- The run of some calls, newest first. -/
abbrev runCalls (calls : List (Call Ip)) : Run Ip :=
  run (Run.next limits) Run.initial calls

end Limiter

section Ideal

variable {Ip : Type} [DecidableEq Ip] (limits : Limits)

/-- When the requests of an address were allowed, newest first. -/
def allowedAt (ip : Ip) (answers : List (Call Ip × Bool)) : List ℚ :=
  answers.filterMap fun answer =>
    if answer.1.ip = ip ∧ answer.2 = true then some answer.1.now else none

/-- How many requests of an address were allowed since some moment. -/
def countSince (cutoff : ℚ) (moments : List ℚ) : Nat :=
  (moments.filter fun moment => decide (cutoff ≤ moment)).length

/-- The answers of a limiter that never forgets. -/
def idealAnswers : List (Call Ip) → List (Call Ip × Bool)
  | [] => []
  | call :: earlier =>
      let answers := idealAnswers earlier
      (call, decide (countSince (call.now - limits.windowSeconds)
        (allowedAt call.ip answers) < limits.maxRequests)) :: answers

/-- The clock does not go back. -/
def Ordered (calls : List (Call Ip)) : Prop :=
  (calls.map Call.now).Pairwise (· ≥ ·)

/-- How many requests of an address were allowed in a window. -/
def countWithin (start length : ℚ) (moments : List ℚ) : Nat :=
  (moments.filter fun moment =>
    decide (start ≤ moment ∧ moment ≤ start + length)).length

/-- What a limiter does to its callers. -/
structure SlidingWindow (calls : List (Call Ip)) : Prop where
  bounded : (runCalls limits calls).state.requests.length ≤
    limits.maxTrackedIps
  ideal : (∀ eviction ∈ (runCalls limits calls).evicted, ¬ eviction.Live) →
    (runCalls limits calls).answers = idealAnswers limits calls
  window : ∀ ip, (∀ eviction ∈ (runCalls limits calls).evicted,
      eviction.ip ≠ ip) →
    ∀ start, countWithin start limits.windowSeconds
      (allowedAt ip (runCalls limits calls).answers) ≤ limits.maxRequests

end Ideal

section Table

variable {Ip : Type} {limits : Limits} {cutoff : ℚ}
  {requests : Dict Ip (List ℚ)}

theorem length_sweep_le : (sweep cutoff requests).length ≤ requests.length :=
  List.length_filter_le _ _

theorem length_sweepInTurn_le {state : State Ip} :
    (sweepInTurn limits cutoff state).requests.length ≤
      state.requests.length := by
  rw [sweepInTurn]
  split
  · exact length_sweep_le
  · exact le_rfl

/-- After making room there is space for one more. -/
theorem length_makeRoom_lt :
    (makeRoom limits cutoff requests).1.length < limits.maxTrackedIps := by
  have tracks := limits.tracks
  rw [makeRoom]
  split
  next =>
    simp only [Dict.dropOldest, Dict.length, List.length_drop]
    omega
  next space => exact Nat.lt_of_not_le space

/-- What is evicted for want of space is live. -/
theorem live_of_mem_makeRoom {eviction : Eviction Ip}
    (member : eviction ∈ (makeRoom limits cutoff requests).2) :
    eviction.Live := by
  rw [makeRoom] at member
  split at member
  · obtain ⟨entry, inTable, rfl⟩ := List.mem_map.mp member
    have kept := (List.mem_filter.mp (List.mem_of_mem_take inTable)).2
    rw [Option.any_eq_true] at kept
    obtain ⟨last, isLast, recent⟩ := kept
    exact ⟨last, isLast, of_decide_eq_true recent⟩
  · cases member

variable [DecidableEq Ip]

theorem length_track_le {ip : Ip}
    (bounded : requests.length ≤ limits.maxTrackedIps) :
    (track limits cutoff ip requests).1.length ≤ limits.maxTrackedIps := by
  rw [track]
  split
  next absent =>
    have room : (makeRoom limits cutoff requests).1.length <
        limits.maxTrackedIps := length_makeRoom_lt
    by_cases present : (makeRoom limits cutoff requests).1.get? ip = none
    · exact (Dict.length_set_of_absent present).trans_le room
    · exact (Dict.length_set_of_present present).trans_le room.le
  next => exact bounded

/-- The address is in the table when its moments are looked up. -/
theorem get?_track_self {ip : Ip} :
    (track limits cutoff ip requests).1.get? ip ≠ none := by
  rw [track]
  split
  · simp [Dict.get?_set]
  next present => exact present

theorem live_of_mem_track {ip : Ip} {eviction : Eviction Ip}
    (member : eviction ∈ (track limits cutoff ip requests).2) :
    eviction.Live := by
  rw [track] at member
  split at member
  · exact live_of_mem_makeRoom member
  · cases member

/-- What a call comes to. -/
theorem isAllowed_eq (call : Call Ip) (state : State Ip) :
    let cutoff := call.now - limits.windowSeconds
    let swept := sweepInTurn limits cutoff state
    let tracked := track limits cutoff call.ip swept.requests
    let moments := ((tracked.1.get? call.ip).getD []).dropWhile fun moment =>
      decide (moment < cutoff)
    (isAllowed limits call state).allowed =
        decide (moments.length < limits.maxRequests) ∧
      (isAllowed limits call state).state.requests =
        tracked.1.set call.ip
          (if moments.length < limits.maxRequests then moments ++ [call.now]
            else moments) ∧
      (isAllowed limits call state).evicted = tracked.2 := by
  intro cutoff swept tracked moments
  by_cases full : limits.maxRequests ≤ moments.length
  · have outcome : isAllowed limits call state =
        ⟨false, { swept with
          requests := tracked.1.set call.ip moments
          blockedCount := swept.blockedCount + 1 }, tracked.2⟩ := if_pos full
    rw [outcome, if_neg (Nat.not_lt.mpr full)]
    exact ⟨(decide_eq_false (Nat.not_lt.mpr full)).symm, rfl, rfl⟩
  · have outcome : isAllowed limits call state =
        ⟨true, { swept with
          requests := tracked.1.set call.ip (moments ++ [call.now]) },
          tracked.2⟩ := if_neg full
    rw [outcome, if_pos (Nat.lt_of_not_le full)]
    exact ⟨(decide_eq_true (Nat.lt_of_not_le full)).symm, rfl, rfl⟩

theorem length_isAllowed_le {call : Call Ip} {state : State Ip}
    (bounded : state.requests.length ≤ limits.maxTrackedIps) :
    (isAllowed limits call state).state.requests.length ≤
      limits.maxTrackedIps := by
  rw [(isAllowed_eq call state).2.1,
    Dict.length_set_of_present get?_track_self]
  exact length_track_le (length_sweepInTurn_le.trans bounded)

/-- The table never holds too many addresses. -/
theorem length_runCalls_le (calls : List (Call Ip)) :
    (runCalls limits calls).state.requests.length ≤ limits.maxTrackedIps := by
  induction calls with
  | nil => exact Nat.zero_le _
  | cons call calls ih => exact length_isAllowed_le ih

theorem live_of_mem_evicted {calls : List (Call Ip)} {eviction : Eviction Ip}
    (member : eviction ∈ (runCalls limits calls).evicted) :
    eviction.Live := by
  induction calls with
  | nil => cases member
  | cons call calls ih =>
      rcases List.mem_append.mp member with now | before
      · rw [(isAllowed_eq call _).2.2] at now
        exact live_of_mem_track now
      · exact ih before

end Table

section Refinement

variable {Ip : Type} [DecidableEq Ip] {limits : Limits} {ip : Ip}
  {answers : List (Call Ip × Bool)} {now : ℚ} {moments : List ℚ}

/-- The moments that are kept for an address are the allowed ones, but for some
that have left the window. -/
structure Follows (limits : Limits) (ip : Ip)
    (answers : List (Call Ip × Bool)) (now : ℚ) (moments : List ℚ) : Prop where
  kept : ∃ forgotten, allowedAt ip answers = moments.reverse ++ forgotten ∧
    ∀ moment ∈ forgotten, moment < now - limits.windowSeconds
  sorted : moments.Pairwise (· ≤ ·)
  past : ∀ moment ∈ moments, moment ≤ now

def momentsOf (ip : Ip) (requests : Dict Ip (List ℚ)) : List ℚ :=
  (requests.get? ip).getD []

theorem Follows.later {next : ℚ} (follows : Follows limits ip answers now moments)
    (order : now ≤ next) : Follows limits ip answers next moments := by
  obtain ⟨forgotten, split, old⟩ := follows.kept
  refine ⟨⟨forgotten, split, fun moment member => ?_⟩, follows.sorted,
    fun moment member => (follows.past moment member).trans order⟩
  linarith [old moment member]

/-- Moments before the window may be forgotten. -/
theorem Follows.forget {dropped left : List ℚ}
    (follows : Follows limits ip answers now (dropped ++ left))
    (old : ∀ moment ∈ dropped, moment < now - limits.windowSeconds) :
    Follows limits ip answers now left := by
  obtain ⟨forgotten, split, older⟩ := follows.kept
  refine ⟨⟨dropped.reverse ++ forgotten, ?_, ?_⟩,
    (List.pairwise_append.mp follows.sorted).2.1,
    fun moment member => follows.past moment (List.mem_append_right _ member)⟩
  · rw [split, List.reverse_append, List.append_assoc]
  · intro moment member
    rcases List.mem_append.mp member with inDropped | inForgotten
    · exact old moment (List.mem_reverse.mp inDropped)
    · exact older moment inForgotten

theorem le_getLast_of_sorted {last : ℚ} (sorted : moments.Pairwise (· ≤ ·))
    (isLast : moments.getLast? = some last) :
    ∀ moment ∈ moments, moment ≤ last := by
  obtain ⟨front, rfl⟩ := List.getLast?_eq_some_iff.mp isLast
  intro moment member
  rcases List.mem_append.mp member with inFront | atEnd
  · exact (List.pairwise_append.mp sorted).2.2 moment inFront last (by simp)
  · exact (List.mem_singleton.mp atEnd).le

theorem Follows.sweep {requests : Dict Ip (List ℚ)}
    (follows : Follows limits ip answers now (momentsOf ip requests)) :
    Follows limits ip answers now
      (momentsOf ip (sweep (now - limits.windowSeconds) requests)) := by
  rw [momentsOf, RateLimiter.sweep, Dict.get?_filter]
  rw [momentsOf] at follows
  cases found : requests.get? ip with
  | none => rwa [found] at follows
  | some moments =>
      rw [found, Option.getD_some] at follows
      rw [Option.filter_some]
      split
      next => exact follows
      next stale =>
        have appended := follows
        rw [← List.append_nil moments] at appended
        refine appended.forget ?_
        intro moment member
        cases isLast : moments.getLast? with
        | none =>
            rw [List.getLast?_eq_none_iff.mp isLast] at member
            cases member
        | some last =>
            have before := le_getLast_of_sorted follows.sorted isLast moment
              member
            simp only [isLast, Option.any_some, decide_eq_true_eq,
              not_le] at stale
            exact before.trans_lt stale

theorem Follows.sweepInTurn {state : State Ip}
    (follows : Follows limits ip answers now (momentsOf ip state.requests)) :
    Follows limits ip answers now (momentsOf ip
      (sweepInTurn limits (now - limits.windowSeconds) state).requests) := by
  rw [RateLimiter.sweepInTurn]
  split
  · exact follows.sweep
  · exact follows

/-- An address that is not evicted keeps its moments. -/
theorem Follows.makeRoom {requests : Dict Ip (List ℚ)}
    (follows : Follows limits ip answers now (momentsOf ip requests))
    (kept : ∀ eviction ∈
      (makeRoom limits (now - limits.windowSeconds) requests).2,
        eviction.ip ≠ ip) :
    Follows limits ip answers now (momentsOf ip
      (makeRoom limits (now - limits.windowSeconds) requests).1) := by
  rw [RateLimiter.makeRoom] at kept ⊢
  split at kept
  next full =>
    let swept := RateLimiter.sweep (now - limits.windowSeconds) requests
    have survives : (swept.dropOldest _).get? ip = swept.get? ip :=
      Dict.get?_dropOldest fun entry member =>
        kept _ (List.mem_map_of_mem member)
    rw [if_pos full, momentsOf, survives]
    exact follows.sweep
  next space =>
    rwa [if_neg space]

theorem Follows.track {requests : Dict Ip (List ℚ)} {asked : Ip}
    (follows : Follows limits ip answers now (momentsOf ip requests))
    (kept : ∀ eviction ∈
      (track limits (now - limits.windowSeconds) asked requests).2,
        eviction.ip ≠ ip) :
    Follows limits ip answers now (momentsOf ip
      (track limits (now - limits.windowSeconds) asked requests).1) := by
  rw [RateLimiter.track] at kept ⊢
  split at kept
  next absent =>
    rw [if_pos absent, momentsOf, Dict.get?_set]
    by_cases isAsked : ip = asked
    · subst isAsked
      rw [momentsOf, absent] at follows
      rwa [if_pos rfl]
    · rw [if_neg isAsked]
      exact follows.makeRoom kept
  next present =>
    rwa [if_neg present]

/-- The moments in the window are those after the first one that is in it. -/
theorem dropWhile_eq_filter {cutoff : ℚ} (sorted : moments.Pairwise (· ≤ ·)) :
    moments.dropWhile (fun moment => decide (moment < cutoff)) =
      moments.filter fun moment => decide (cutoff ≤ moment) := by
  induction moments with
  | nil => rfl
  | cons first moments ih =>
      rw [List.pairwise_cons] at sorted
      by_cases old : first < cutoff
      · rw [List.dropWhile_cons_of_pos (by simpa using old), ih sorted.2,
          List.filter_cons_of_neg (by simpa using old)]
      · have recent : cutoff ≤ first := not_lt.mp old
        rw [List.dropWhile_cons_of_neg (by simpa using recent),
          List.filter_eq_self.mpr]
        intro moment member
        rcases List.mem_cons.mp member with rfl | later
        · simpa using recent
        · simpa using recent.trans (sorted.1 moment later)

/-- What is left in the window is what was allowed in it. -/
theorem Follows.countSince_eq (follows : Follows limits ip answers now moments) :
    countSince (now - limits.windowSeconds) (allowedAt ip answers) =
      (moments.dropWhile fun moment =>
        decide (moment < now - limits.windowSeconds)).length := by
  obtain ⟨forgotten, split, old⟩ := follows.kept
  have none : forgotten.filter (fun moment =>
      decide (now - limits.windowSeconds ≤ moment)) = [] := by
    rw [List.filter_eq_nil_iff]
    intro moment member
    rw [decide_eq_true_iff, not_le]
    exact old moment member
  rw [dropWhile_eq_filter follows.sorted, countSince, split,
    List.filter_append, none, List.append_nil, List.filter_reverse,
    List.length_reverse]

theorem Follows.dropOld (follows : Follows limits ip answers now moments) :
    Follows limits ip answers now (moments.dropWhile fun moment =>
      decide (moment < now - limits.windowSeconds)) := by
  rw [← List.takeWhile_append_dropWhile (l := moments)
    (p := fun moment => decide (moment < now - limits.windowSeconds))] at follows
  refine follows.forget fun moment member => ?_
  simpa using List.mem_takeWhile_imp member

theorem allowedAt_cons {call : Call Ip} {allowed : Bool} :
    allowedAt ip ((call, allowed) :: answers) =
      if call.ip = ip ∧ allowed = true then call.now :: allowedAt ip answers
      else allowedAt ip answers := by
  rw [allowedAt, List.filterMap_cons]
  by_cases counted : call.ip = ip ∧ allowed = true
  · rw [if_pos counted, if_pos counted]
    rfl
  · rw [if_neg counted, if_neg counted]
    rfl

/-- An allowed request is remembered. -/
theorem Follows.append {call : Call Ip}
    (follows : Follows limits call.ip answers call.now moments) :
    Follows limits call.ip ((call, true) :: answers) call.now
      (moments ++ [call.now]) := by
  obtain ⟨forgotten, split, old⟩ := follows.kept
  refine ⟨⟨forgotten, ?_, old⟩, ?_, ?_⟩
  · rw [allowedAt_cons, if_pos ⟨rfl, rfl⟩, split, List.reverse_append]
    rfl
  · rw [List.pairwise_append]
    refine ⟨follows.sorted, List.pairwise_singleton _ _, ?_⟩
    intro moment member next nextMem
    rw [List.mem_singleton.mp nextMem]
    exact follows.past moment member
  · intro moment member
    rcases List.mem_append.mp member with inMoments | newest
    · exact follows.past moment inMoments
    · exact (List.mem_singleton.mp newest).le

/-- Other answers and refusals change nothing. -/
theorem Follows.other {call : Call Ip} {allowed : Bool}
    (follows : Follows limits ip answers now moments)
    (unrelated : call.ip = ip → allowed = false) :
    Follows limits ip ((call, allowed) :: answers) now moments := by
  have same : allowedAt ip ((call, allowed) :: answers) =
      allowedAt ip answers := by
    rw [allowedAt_cons]
    refine if_neg ?_
    rintro ⟨isIp, isAllowed⟩
    rw [unrelated isIp] at isAllowed
    cases isAllowed
  exact ⟨same ▸ follows.kept, follows.sorted, follows.past⟩

/-- The answer of a call is decided by what was allowed before. -/
theorem allowed_of_follows {call : Call Ip} {state : State Ip}
    (follows : Follows limits call.ip answers call.now
      (momentsOf call.ip state.requests))
    (kept : ∀ eviction ∈ (isAllowed limits call state).evicted,
      eviction.ip ≠ call.ip) :
    (isAllowed limits call state).allowed =
      decide (countSince (call.now - limits.windowSeconds)
        (allowedAt call.ip answers) < limits.maxRequests) := by
  have outcome := @isAllowed_eq _ limits _ call state
  dsimp only at outcome
  rw [outcome.2.2] at kept
  rw [outcome.1, (follows.sweepInTurn.track kept).countSince_eq, momentsOf]

/-- A call keeps every address that it does not evict. -/
theorem Follows.isAllowed {call : Call Ip} {state : State Ip}
    (follows : Follows limits ip answers call.now
      (momentsOf ip state.requests))
    (kept : ∀ eviction ∈ (isAllowed limits call state).evicted,
      eviction.ip ≠ ip) :
    Follows limits ip
      ((call, (RateLimiter.isAllowed limits call state).allowed) :: answers)
      call.now (momentsOf ip
        (RateLimiter.isAllowed limits call state).state.requests) := by
  have outcome := @isAllowed_eq _ limits _ call state
  dsimp only at outcome
  rw [outcome.2.2] at kept
  have tracked := follows.sweepInTurn.track kept
  rw [outcome.1, outcome.2.1, momentsOf, Dict.get?_set]
  by_cases isIp : ip = call.ip
  · subst isIp
    have recent := tracked.dropOld
    rw [if_pos rfl, Option.getD_some]
    split
    next free =>
      rw [decide_eq_true free]
      exact recent.append
    next full =>
      exact recent.other fun _ => decide_eq_false full
  · rw [if_neg isIp]
    exact tracked.other fun same => (isIp same.symm).elim

omit [DecidableEq Ip] in
theorem ordered_cons {call : Call Ip} {calls : List (Call Ip)} :
    Ordered (call :: calls) ↔
      (∀ earlier ∈ calls, earlier.now ≤ call.now) ∧ Ordered calls := by
  rw [Ordered, List.map_cons, List.pairwise_cons, List.forall_mem_map]
  rfl

/-- The limiter follows every address that it never evicted. -/
theorem follows_runCalls {calls : List (Call Ip)} (ordered : Ordered calls)
    (past : ∀ call ∈ calls, call.now ≤ now)
    (kept : ∀ eviction ∈ (runCalls limits calls).evicted, eviction.ip ≠ ip) :
    Follows limits ip (runCalls limits calls).answers now
      (momentsOf ip (runCalls limits calls).state.requests) := by
  induction calls generalizing now with
  | nil => exact ⟨⟨[], rfl, nofun⟩, .nil, nofun⟩
  | cons call calls ih =>
      rw [ordered_cons] at ordered
      have before := ih ordered.2 ordered.1 fun eviction member =>
        kept eviction (List.mem_append_right _ member)
      have after := before.isAllowed fun eviction member =>
        kept eviction (List.mem_append_left _ member)
      exact after.later (past call (by simp))

/-- The answer of the last call of a run. -/
theorem answers_runCalls_cons {call : Call Ip} {calls : List (Call Ip)}
    (ordered : Ordered (call :: calls))
    (kept : ∀ eviction ∈ (runCalls limits (call :: calls)).evicted,
      eviction.ip ≠ call.ip) :
    (runCalls limits (call :: calls)).answers =
      (call, decide (countSince (call.now - limits.windowSeconds)
        (allowedAt call.ip (runCalls limits calls).answers) <
          limits.maxRequests)) :: (runCalls limits calls).answers := by
  rw [ordered_cons] at ordered
  have before : Follows limits call.ip (runCalls limits calls).answers call.now
      (momentsOf call.ip (runCalls limits calls).state.requests) :=
    follows_runCalls ordered.2 ordered.1 fun eviction member =>
      kept eviction (List.mem_append_right _ member)
  have answer := allowed_of_follows before fun eviction member =>
    kept eviction (List.mem_append_left _ member)
  rw [← answer]
  rfl

theorem answers_eq_ideal {calls : List (Call Ip)} (ordered : Ordered calls)
    (none : (runCalls limits calls).evicted = []) :
    (runCalls limits calls).answers = idealAnswers limits calls := by
  induction calls with
  | nil => rfl
  | cons call calls ih =>
      have earlier := ih (ordered_cons.mp ordered).2
        (List.append_eq_nil_iff.mp none).2
      have kept : ∀ eviction ∈ (runCalls limits (call :: calls)).evicted,
          eviction.ip ≠ call.ip := by
        rw [none]
        exact nofun
      rw [answers_runCalls_cons ordered kept, idealAnswers, earlier]

/-- A request that is allowed now is the last one of its window. -/
theorem countWithin_cons_le {start length : ℚ} {earlier : List ℚ}
    (few : countSince (now - length) earlier < limits.maxRequests)
    (within : countWithin start length earlier ≤ limits.maxRequests) :
    countWithin start length (now :: earlier) ≤ limits.maxRequests := by
  rw [countWithin, List.filter_cons]
  split
  next inside =>
    rw [decide_eq_true_iff] at inside
    have recent : countWithin start length earlier ≤
        countSince (now - length) earlier := by
      refine List.Sublist.length_le (List.monotone_filter_right earlier ?_)
      intro moment selected
      rw [decide_eq_true_iff] at selected ⊢
      linarith
    rw [List.length_cons]
    exact recent.trans_lt few
  next => exact within

/-- In no window too many requests of an address are allowed. -/
theorem countWithin_le {calls : List (Call Ip)} (ordered : Ordered calls)
    (kept : ∀ eviction ∈ (runCalls limits calls).evicted, eviction.ip ≠ ip)
    (start : ℚ) :
    countWithin start limits.windowSeconds
      (allowedAt ip (runCalls limits calls).answers) ≤ limits.maxRequests := by
  induction calls with
  | nil => exact Nat.zero_le _
  | cons call calls ih =>
      have earlier := ih (ordered_cons.mp ordered).2 fun eviction member =>
        kept eviction (List.mem_append_right _ member)
      by_cases isIp : call.ip = ip
      · subst isIp
        rw [answers_runCalls_cons ordered kept, allowedAt_cons]
        by_cases few : countSince (call.now - limits.windowSeconds)
            (allowedAt call.ip (runCalls limits calls).answers) <
              limits.maxRequests
        · rw [if_pos ⟨rfl, decide_eq_true few⟩]
          exact countWithin_cons_le few earlier
        · rw [if_neg fun both => few (of_decide_eq_true both.2)]
          exact earlier
      · have same : allowedAt ip (runCalls limits (call :: calls)).answers =
            allowedAt ip (runCalls limits calls).answers := by
          rw [runCalls, run_cons, Run.next, allowedAt_cons,
            if_neg fun both => isIp both.1]
        rwa [same]

/-- The limiter is bounded, and a sliding window for whom it remembers. -/
theorem refines_slidingWindow (calls : List (Call Ip))
    (ordered : Ordered calls) : SlidingWindow limits calls where
  bounded := length_runCalls_le calls
  ideal := by
    intro dead
    have none : (runCalls limits calls).evicted = [] :=
      List.eq_nil_iff_forall_not_mem.mpr fun eviction member =>
        dead eviction member (live_of_mem_evicted member)
    exact answers_eq_ideal ordered none
  window := fun ip kept => countWithin_le ordered kept

end Refinement

section Samples

/-- Two requests in a second, of two addresses at most. -/
def sampleLimits : Limits := ⟨2, 1, 2, 3, by decide⟩

def sampleCalls : List (Call Nat) := [⟨1, 1⟩, ⟨2, 1⟩, ⟨1, 0⟩, ⟨1, 0⟩]

theorem refines_slidingWindow_sample : SlidingWindow sampleLimits sampleCalls :=
  refines_slidingWindow sampleCalls (by simp [Ordered, sampleCalls])

end Samples

end RateLimiter

end RefinetPillars
