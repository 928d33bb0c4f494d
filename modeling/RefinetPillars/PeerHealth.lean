import RefinetPillars.HexText
import RefinetPillars.RunHistory

/-!
# The health of peers

Known peers are pinged in rounds, and the row of a peer keeps what the newest
ping found and how many have failed in a row.  A restart of the Pillar forgets
the first, and keeps the second.  What a row shows is a function of the pings
since the peer was first known.
-/

namespace RefinetPillars

namespace PeerHealth

open HexText RunHistory

section Rows

inductive Status where
  | unknown
  | online
  | degraded
  | offline
  deriving DecidableEq, Repr

/-- The columns of a row about health, with their defaults. -/
structure Health where
  status : Status := .unknown
  latencyMs : Option ℚ := none
  consecutiveFailures : Nat := 0

/-- The rows of known peers by their PIDs. -/
abbrev Table := Text → Option Health

/-- `upsert_peer` leaves the health of a known peer alone. -/
def register (pid : Text) (peers : Table) : Table :=
  Function.update peers pid (some ((peers pid).getD {}))

/-- `reset_peer_statuses_to_unknown`, when a Pillar starts. -/
def resetPeerStatusesToUnknown (peers : Table) : Table := fun pid =>
  (peers pid).map fun row =>
    { row with status := .unknown, latencyMs := none }

def answered (latency : ℚ) : Health where
  status := if latency < 2000 then .online else .degraded
  latencyMs := some latency
  consecutiveFailures := 0

def failed (failures : Nat) : Health where
  status := if 5 ≤ failures then .offline else .degraded
  latencyMs := none
  consecutiveFailures := failures

/-- `update_peer_health`, with the milliseconds until an answer or nothing. -/
def updatePeerHealth (pid : Text) (latencyMs : Option ℚ) (peers : Table) :
    Table :=
  match latencyMs with
  | some latency =>
      Function.update peers pid ((peers pid).map fun _ => answered latency)
  | none =>
      let failures :=
        match peers pid with
        | some row => row.consecutiveFailures + 1
        | none => 1
      Function.update peers pid ((peers pid).map fun _ => failed failures)

/-- A peer as a round lists it, which peers become known while it is pinged,
what the ping finds, and whether the database refuses to store it. -/
structure Listed where
  pid : Text
  hostname : Option Text
  meanwhile : List Text
  latencyMs : Option ℚ
  refused : Bool

def Listed.isUnnamed (peer : Listed) : Bool :=
  peer.hostname.getD [] = []

/-- A round of `periodic_health_check`.  An exception ends the round, and the
peers after it are not pinged. -/
def healthCheck : List Listed → Table → Table
  | [], peers => peers
  | peer :: rest, peers =>
      if peer.isUnnamed then healthCheck rest peers
      else
        let known := peer.meanwhile.foldl (fun rows pid => register pid rows)
          peers
        if peer.refused then known
        else healthCheck rest (updatePeerHealth peer.pid peer.latencyMs known)

inductive Input where
  | registered (pid : Text)
  | restarted
  | round (listed : List Listed)

def Input.apply : Input → Table → Table
  | .registered pid => register pid
  | .restarted => resetPeerStatusesToUnknown
  | .round listed => healthCheck listed

end Rows

section Histories

/-- What happens to the rows, one at a time. -/
inductive Event where
  | registered (pid : Text)
  | restarted
  | pinged (pid : Text) (latencyMs : Option ℚ)
  deriving DecidableEq

def Event.apply : Event → Table → Table
  | .registered pid => register pid
  | .restarted => resetPeerStatusesToUnknown
  | .pinged pid latencyMs => updatePeerHealth pid latencyMs

/-- The events of a round, oldest first. -/
def roundEvents : List Listed → List Event
  | [] => []
  | peer :: rest =>
      if peer.isUnnamed then roundEvents rest
      else
        peer.meanwhile.map .registered ++
          if peer.refused then []
          else .pinged peer.pid peer.latencyMs :: roundEvents rest

def Input.events : Input → List Event
  | .registered pid => [.registered pid]
  | .restarted => [.restarted]
  | .round listed => (roundEvents listed).reverse

/-- The events of a run, newest first. -/
def history (inputs : List Input) : List Event := inputs.flatMap Input.events

variable (pid : Text)

/-- The pings of a peer since it is known, newest first. -/
def pings : List Event → List (Option ℚ)
  | [] => []
  | .pinged other latencyMs :: earlier =>
      if other = pid ∧ .registered pid ∈ earlier then
        latencyMs :: pings earlier
      else pings earlier
  | _ :: earlier => pings earlier

/-- The pings since the newest restart. -/
def recentPings : List Event → List (Option ℚ)
  | [] => []
  | .restarted :: _ => []
  | .pinged other latencyMs :: earlier =>
      if other = pid ∧ .registered pid ∈ earlier then
        latencyMs :: recentPings earlier
      else recentPings earlier
  | .registered _ :: earlier => recentPings earlier

/-- What the row of a peer shows of its pings. -/
structure Shown (events : List Event) (row : Health) : Prop where
  failures : row.consecutiveFailures =
    ((pings pid events).takeWhile Option.isNone).length
  latencyMs : row.latencyMs = (recentPings pid events).head?.join
  unknown : row.status = .unknown ↔ recentPings pid events = []
  online : row.status = .online ↔ ∃ latency earlier,
    recentPings pid events = some latency :: earlier ∧ latency < 2000
  offline : row.status = .offline ↔ recentPings pid events ≠ [] ∧
    List.replicate 5 none <+: pings pid events

end Histories

section Rounds

theorem run_registered (pids : List Text) (peers : Table) :
    run Event.apply peers (pids.map Event.registered).reverse =
      pids.foldl (fun rows pid => register pid rows) peers := by
  induction pids generalizing peers with
  | nil => rfl
  | cons pid pids ih =>
      rw [List.map_cons, List.reverse_cons, run_append, List.foldl_cons]
      exact ih _

/-- A round does what its events do. -/
theorem healthCheck_eq_run (listed : List Listed) (peers : Table) :
    healthCheck listed peers =
      run Event.apply peers (roundEvents listed).reverse := by
  induction listed generalizing peers with
  | nil => rfl
  | cons peer rest ih =>
      unfold healthCheck roundEvents
      split
      · exact ih peers
      · rw [List.reverse_append, run_append, run_registered]
        dsimp only
        split
        · rfl
        · rw [List.reverse_cons, run_append, ih]
          rfl

theorem run_history (inputs : List Input) (start : Table) :
    run Input.apply start inputs =
      run Event.apply start (history inputs) := by
  induction inputs with
  | nil => rfl
  | cons input inputs ih =>
      have flat : history (input :: inputs) = input.events ++ history inputs :=
        List.flatMap_cons
      rw [run_cons, ih, flat, run_append]
      cases input with
      | registered pid => rfl
      | restarted => rfl
      | round listed => exact healthCheck_eq_run listed _

end Rounds

section Reports

variable {pid : Text} {events : List Event}

theorem pings_unregistered (unknown : .registered pid ∉ events) :
    pings pid events = [] := by
  induction events with
  | nil => rfl
  | cons event earlier ih =>
      have before : Event.registered pid ∉ earlier := fun known =>
        unknown (.tail _ known)
      cases event with
      | registered | restarted => exact ih before
      | pinged other latencyMs =>
          rw [pings, if_neg fun counted => before counted.2, ih before]

theorem recentPings_prefix (pid : Text) (events : List Event) :
    recentPings pid events <+: pings pid events := by
  induction events with
  | nil => exact List.prefix_refl _
  | cons event earlier ih =>
      cases event with
      | registered => exact ih
      | restarted => exact List.nil_prefix
      | pinged other latencyMs =>
          unfold recentPings pings
          split
          · exact List.cons_prefix_cons.mpr ⟨rfl, ih⟩
          · exact ih

def failuresOf (pid : Text) (events : List Event) : Nat :=
  ((pings pid events).takeWhile Option.isNone).length

/-- The row that the pings of a peer make. -/
def report (pid : Text) (events : List Event) : Health :=
  match recentPings pid events with
  | [] =>
      { status := .unknown
        latencyMs := none
        consecutiveFailures := failuresOf pid events }
  | some latency :: _ => answered latency
  | none :: _ => failed (failuresOf pid events)

theorem failures_report (pid : Text) (events : List Event) :
    (report pid events).consecutiveFailures = failuresOf pid events := by
  have start := recentPings_prefix pid events
  unfold report
  split
  · rfl
  next latency _ recent =>
    obtain ⟨later, whole⟩ := recent ▸ start
    rw [failuresOf, ← whole]
    rfl
  · rfl

theorem report_unregistered (unknown : .registered pid ∉ events) :
    report pid events = {} := by
  have none := pings_unregistered unknown
  have start := recentPings_prefix pid events
  rw [none, List.prefix_nil] at start
  rw [report, start, failuresOf, none]
  rfl

/-- The rows are the reports of the peers that are known. -/
def Reports (events : List Event) (peers : Table) : Prop :=
  ∀ pid, peers pid =
    if .registered pid ∈ events then some (report pid events) else none

theorem reports_register (other : Text) {peers : Table}
    (reports : Reports events peers) :
    Reports (.registered other :: events) (register other peers) := by
  intro pid
  have same : report pid (.registered other :: events) = report pid events :=
    rfl
  by_cases isOther : pid = other
  · subst isOther
    rw [register, Function.update_self, reports pid, same,
      if_pos (List.mem_cons_self ..)]
    split
    · rfl
    next unknown =>
      rw [report_unregistered unknown]
      rfl
  · rw [register, Function.update_of_ne isOther, reports pid, same]
    simp [isOther]

theorem reports_restart {peers : Table} (reports : Reports events peers) :
    Reports (.restarted :: events) (resetPeerStatusesToUnknown peers) := by
  intro pid
  have failures := failures_report pid events
  rw [resetPeerStatusesToUnknown, reports pid]
  by_cases known : .registered pid ∈ events
  · rw [if_pos known, if_pos (.tail _ known), Option.map_some, failures]
    rfl
  · rw [if_neg known, if_neg (by simpa using known)]
    rfl

theorem pings_pinged {latencyMs : Option ℚ} (known : .registered pid ∈ events) :
    pings pid (.pinged pid latencyMs :: events) =
      latencyMs :: pings pid events :=
  if_pos ⟨rfl, known⟩

theorem report_pinged {latencyMs : Option ℚ}
    (known : .registered pid ∈ events) :
    report pid (.pinged pid latencyMs :: events) =
      match latencyMs with
      | some latency => answered latency
      | none => failed (failuresOf pid events + 1) := by
  have recent : recentPings pid (.pinged pid latencyMs :: events) =
      latencyMs :: recentPings pid events := if_pos ⟨rfl, known⟩
  rw [report, recent, failuresOf, pings_pinged known]
  cases latencyMs with
  | some latency => rfl
  | none => rfl

theorem reports_ping (other : Text) (latencyMs : Option ℚ) {peers : Table}
    (reports : Reports events peers) :
    Reports (.pinged other latencyMs :: events)
      (updatePeerHealth other latencyMs peers) := by
  intro pid
  have kept : (.registered pid ∈ .pinged other latencyMs :: events) ↔
      .registered pid ∈ events := by
    simp
  by_cases isOther : pid = other
  · subst isOther
    by_cases known : .registered pid ∈ events
    · have row : peers pid = some (report pid events) :=
        (reports pid).trans (if_pos known)
      rw [if_pos (kept.mpr known), report_pinged known]
      cases latencyMs with
      | some latency => simp [updatePeerHealth, row]
      | none => simp [updatePeerHealth, row, failures_report]
    · have row : peers pid = none := (reports pid).trans (if_neg known)
      rw [if_neg (kept.not.mpr known)]
      cases latencyMs with
      | some latency => simp [updatePeerHealth, row]
      | none => simp [updatePeerHealth, row]
  · have untouched : updatePeerHealth other latencyMs peers pid = peers pid := by
      cases latencyMs with
      | some latency => exact Function.update_of_ne isOther _ _
      | none => exact Function.update_of_ne isOther _ _
    have same : report pid (.pinged other latencyMs :: events) =
        report pid events := by
      have differs : ¬ (other = pid ∧ .registered pid ∈ events) :=
        fun counted => isOther counted.1.symm
      have recent : recentPings pid (.pinged other latencyMs :: events) =
          recentPings pid events := if_neg differs
      have all : pings pid (.pinged other latencyMs :: events) =
          pings pid events := if_neg differs
      rw [report, report, failuresOf, failuresOf, recent, all]
    rw [untouched, reports pid, same]
    simp [kept]

theorem reports_run (events : List Event) :
    Reports events (run Event.apply (fun _ => none) events) := by
  induction events with
  | nil => intro pid; rfl
  | cons event earlier ih =>
      cases event with
      | registered other => exact reports_register other ih
      | restarted => exact reports_restart ih
      | pinged other latencyMs => exact reports_ping other latencyMs ih

end Reports

section Main

theorem replicate_prefix_iff (count : Nat) (found : List (Option ℚ)) :
    List.replicate count none <+: found ↔
      count ≤ (found.takeWhile Option.isNone).length := by
  induction count generalizing found with
  | zero => simp
  | succ count ih =>
      cases found with
      | nil => simp [List.replicate_succ]
      | cons latencyMs earlier =>
          cases latencyMs with
          | none => simp [List.replicate_succ, ih]
          | some latency => simp [List.replicate_succ]

theorem status_answered (latency : ℚ) :
    (answered latency).status = .online ∧ latency < 2000 ∨
      (answered latency).status = .degraded ∧ ¬ latency < 2000 := by
  by_cases fast : latency < 2000
  · exact .inl ⟨if_pos fast, fast⟩
  · exact .inr ⟨if_neg fast, fast⟩

theorem status_failed (failures : Nat) :
    (failed failures).status = .offline ∧ 5 ≤ failures ∨
      (failed failures).status = .degraded ∧ ¬ 5 ≤ failures := by
  by_cases many : 5 ≤ failures
  · exact .inl ⟨if_pos many, many⟩
  · exact .inr ⟨if_neg many, many⟩

section Reported

variable {pid : Text} {events : List Event} {earlier : List (Option ℚ)}

theorem shown_unpinged (recent : recentPings pid events = []) :
    Shown pid events { consecutiveFailures := failuresOf pid events } where
  failures := rfl
  latencyMs := by rw [recent]; rfl
  unknown := by simp [recent]
  online := by simp [recent]
  offline := by simp [recent]

theorem shown_answered {latency : ℚ}
    (recent : recentPings pid events = some latency :: earlier)
    (failures : (answered latency).consecutiveFailures =
      failuresOf pid events) :
    Shown pid events (answered latency) where
  failures := failures
  latencyMs := by rw [recent]; rfl
  unknown := by
    rcases status_answered latency with ⟨status, -⟩ | ⟨status, -⟩ <;>
      simp [status, recent]
  online := by
    rcases status_answered latency with ⟨status, fast⟩ | ⟨status, slow⟩
    · exact iff_of_true status ⟨latency, earlier, recent, fast⟩
    · refine iff_of_false (by simp [status]) ?_
      rintro ⟨other, rest, newest, fast⟩
      rw [recent] at newest
      cases newest
      exact slow fast
  offline := by
    obtain ⟨before, whole⟩ := recentPings_prefix pid events
    rw [recent] at whole
    rcases status_answered latency with ⟨status, -⟩ | ⟨status, -⟩ <;>
      simp [status, ← whole, List.replicate_succ]

theorem shown_failed (recent : recentPings pid events = none :: earlier) :
    Shown pid events (failed (failuresOf pid events)) where
  failures := rfl
  latencyMs := by rw [recent]; rfl
  unknown := by
    rcases status_failed (failuresOf pid events) with
      ⟨status, -⟩ | ⟨status, -⟩ <;> simp [status, recent]
  online := by
    rcases status_failed (failuresOf pid events) with
      ⟨status, -⟩ | ⟨status, -⟩ <;> simp [status, recent]
  offline := by
    rw [replicate_prefix_iff, recent]
    rcases status_failed (failuresOf pid events) with
      ⟨status, many⟩ | ⟨status, few⟩
    · exact iff_of_true status ⟨List.cons_ne_nil _ _, many⟩
    · exact iff_of_false (by simp [status]) fun shown => few shown.2

theorem shown_report (pid : Text) (events : List Event) :
    Shown pid events (report pid events) := by
  have failures := failures_report pid events
  unfold report at failures ⊢
  split
  next recent => exact shown_unpinged recent
  next recent =>
    rw [recent] at failures
    exact shown_answered recent failures
  next recent => exact shown_failed recent

end Reported

/-- A known peer shows what the pings of the run found: it is online exactly
when the newest ping since the restart was answered within two seconds, and
offline exactly when it has been pinged since and the five newest pings, those
before the restart included, all failed. -/
theorem health_shown (inputs : List Input) (pid : Text) :
    ((run Input.apply (fun _ => none) inputs pid).isSome ↔
      .registered pid ∈ history inputs) ∧
    ∀ row, run Input.apply (fun _ => none) inputs pid = some row →
      Shown pid (history inputs) row := by
  have row := reports_run (history inputs) pid
  rw [← run_history] at row
  rw [row]
  constructor
  · split <;> simp_all
  · intro shown isRow
    split at isRow
    · exact Option.some.inj isRow ▸ shown_report pid _
    · cases isRow

end Main

end PeerHealth

end RefinetPillars
