import RefinetPillars.PeerAdmission
import RefinetPillars.RunHistory
import RefinetPillars.StakingStatus

/-!
# How old an admission can be

Standings are cached by the readers, and verdicts about peers by the Pillar.
Calls wait for replies while others run, so an older answer may replace a newer
one.  Still, every admission rests on a read of the chain and on a document that
are not too old.
-/

namespace RefinetPillars

namespace AdmissionFreshness

open HexText StakingReader ContentSigning WalletBinding RunHistory
open PeerAdmission (checkPeer operatorIsBound peerChecks_eq_true
  checkPeer_eq_true)

section System

/-- Ten minutes. -/
def admissionTtl : Int := 600 * 1000000

def maxVerdicts : Nat := 10000

/-- A call of `peer_admitted`, where a stake is required. -/
structure AdmissionCall where
  pid : Text
  host : Text
  port : Int
  startedAt : Int

/-- What happens, as far as admission depends on it. -/
inductive Event where
  | isActiveRead (reader : Nat) (pid contract : Text) (performedAt : Int)
      (active : Bool)
  | standing (reader : Nat) (pid : Text) (startedAt : Int)
      (status : StakeStatus)
  | fetched (host : Text) (port performedAt : Int) (document : JsonText.Json)
  | admitted (call : AdmissionCall) (ok : Bool)

/-- A call that waits, for itself or for a call that admits a peer. -/
inductive Task where
  | status (call : StatusCall) (admission : Option AdmissionCall)
  | fetching (admission : AdmissionCall) (status : StakeStatus) (issuedAt : Int)
  | finished

structure Verdict where
  decidedAt : Int
  ok : Bool
  reason : Text

structure Mesh where
  now : Int
  standings : AList fun _ : Nat × Text => StakeStatus
  verdicts : AList fun _ : Text × Text × Int => Verdict
  tasks : List Task
  events : List Event

/-- What a run depends on: cryptography, the contracts of each reader, and the
texts of exceptions. -/
structure Setting where
  scheme : Scheme
  env : Environment
  contracts : Nat → List Text
  errorText : StatusError → Text

def Mesh.log (mesh : Mesh) (event : Event) : Mesh :=
  { mesh with events := event :: mesh.events }

def Mesh.setTask (mesh : Mesh) (index : Nat) (task : Task) : Mesh :=
  { mesh with tasks := mesh.tasks.set index task }

def Mesh.store (mesh : Mesh) (reader : Nat) (pid : Text)
    (status : StakeStatus) : Mesh :=
  { mesh with standings := mesh.standings.insert (reader, pid) status }

/-- The end of `peer_admitted`. -/
def Mesh.conclude (mesh : Mesh) (index : Nat) (admission : AdmissionCall)
    (verdict : Bool × Text) : Mesh :=
  let kept :=
    if mesh.verdicts.keys.length > maxVerdicts then ∅ else mesh.verdicts
  { mesh with
    verdicts := kept.insert (admission.pid, admission.host, admission.port)
      ⟨admission.startedAt, verdict.1, verdict.2⟩
    tasks := mesh.tasks.set index .finished
    events := .admitted admission verdict.1 :: mesh.events }

namespace Setting

variable (setting : Setting)

/-- What `check_peer` reads of a standing. -/
def standingOf (status : StakeStatus) : PeerAdmission.StakeStatus :=
  ⟨status.active, status.operator, status.error.map fun error =>
    setting.errorText error⟩

/-- `check_peer` once both awaited answers are there. -/
def verdict (admission : AdmissionCall) (status : StakeStatus)
    (document : Except Raised JsonText.Json) : Bool × Text :=
  checkPeer setting.scheme setting.env
    (fun _ => .ok (setting.standingOf status)) (fun _ _ => document)
    admission.pid admission.host admission.port

/-- What is done with a standing: nothing more, or the document is fetched; a
Pillar that is not active is refused without it. -/
def afterStatus (mesh : Mesh) (index : Nat) (admission : Option AdmissionCall)
    (status : StakeStatus) : Mesh :=
  match admission with
  | none => mesh.setTask index .finished
  | some admission =>
      if status.active then
        mesh.setTask index (.fetching admission status mesh.now)
      else
        mesh.conclude index admission
          (setting.verdict admission status (.error (.other [])))

def settle (mesh : Mesh) (index reader : Nat) (pid : Text) (startedAt : Int)
    (admission : Option AdmissionCall) : Outcome → Mesh
  | .waiting call => mesh.setTask index (.status call admission)
  | .fresh status =>
      setting.afterStatus
        ((mesh.store reader pid status).log
          (.standing reader pid startedAt status)) index admission status
  | .returned status =>
      setting.afterStatus (mesh.log (.standing reader pid startedAt status))
        index admission status

def startStatus (mesh : Mesh) (reader : Nat) (pid : Text)
    (admission : Option AdmissionCall) : Mesh :=
  let lowered := setting.env.lower pid
  setting.settle { mesh with tasks := mesh.tasks ++ [.finished] }
    mesh.tasks.length reader lowered mesh.now admission
    (beginStatus (setting.contracts reader) reader lowered mesh.now
      (mesh.standings.lookup (reader, lowered)))

end Setting

/-- What a reply says about whether the Pillar is active, if that is what the
call has asked for. -/
def answeredActive (call : StatusCall) (reply : Option Json) : Option Bool :=
  match call.phase, replyResult reply with
  | .isActive, .ok result => (decodeBool result).toOption
  | _, _ => none

def Mesh.logReply (mesh : Mesh) (call : StatusCall) (performedAt : Int)
    (reply : Option Json) : Mesh :=
  match answeredActive call reply with
  | some active =>
      mesh.log (.isActiveRead call.reader call.pid call.contract performedAt
        active)
  | none => mesh

def Mesh.logDocument (mesh : Mesh) (admission : AdmissionCall)
    (performedAt : Int) : Except Raised JsonText.Json → Mesh
  | .ok document =>
      mesh.log (.fetched admission.host admission.port performedAt document)
  | .error _ => mesh

/-- What can happen next.  A reply tells what was so at some moment since the
request; between the two clock readings of an admission time may elapse. -/
inductive Action where
  | wait (micros : Nat)
  | status (reader : Nat) (pid : Text)
  | admitPeer (reader : Nat) (pid host : Text) (port : Int) (elapsed : Nat)
  | reply (index : Nat) (performedAt : Int) (reply : Option Json)
  | identity (index : Nat) (performedAt : Int)
      (document : Except Raised JsonText.Json)
  | clearCache

def Setting.apply (setting : Setting) : Action → Mesh → Mesh
  | .wait micros, mesh => { mesh with now := mesh.now + micros }
  | .status reader pid, mesh => setting.startStatus mesh reader pid none
  | .admitPeer reader pid host port elapsed, mesh =>
      let admission : AdmissionCall := ⟨pid, host, port, mesh.now⟩
      match (mesh.verdicts.lookup (pid, host, port)).filter fun verdict =>
          mesh.now - verdict.decidedAt < admissionTtl with
      | some verdict => mesh.log (.admitted admission verdict.ok)
      | none =>
          setting.startStatus { mesh with now := mesh.now + elapsed } reader pid
            (some admission)
  | .reply index performedAt reply, mesh =>
      match mesh.tasks[index]? with
      | some (.status call admission) =>
          if call.issuedAt ≤ performedAt ∧ performedAt ≤ mesh.now then
            setting.settle (mesh.logReply call performedAt reply) index
              call.reader call.pid call.startedAt admission
              (call.step setting.env.lower mesh.now reply)
          else mesh
      | _ => mesh
  | .identity index performedAt document, mesh =>
      match mesh.tasks[index]? with
      | some (.fetching admission status issuedAt) =>
          if issuedAt ≤ performedAt ∧ performedAt ≤ mesh.now then
            (mesh.logDocument admission performedAt document).conclude index
              admission (setting.verdict admission status document)
          else mesh
      | _ => mesh
  | .clearCache, mesh => { mesh with verdicts := ∅ }

/-- Nothing is cached when the Pillar starts. -/
def start (now : Int) : Mesh :=
  { now := now, standings := ∅, verdicts := ∅, tasks := [], events := [] }

end System

section Statement

variable (setting : Setting) (events : List Event)

/-- The chain has been asked since then, and has said that the Pillar is
active. -/
def ReadSince (reader : Nat) (pid : Text) (since : Int) : Prop :=
  ∃ contract ∈ setting.contracts reader, ∃ performedAt, since ≤ performedAt ∧
    .isActiveRead reader pid contract performedAt true ∈ events

/-- Since then a call has returned that the Pillar is active, and a document of
its PID has been fetched from the address and verified. -/
def VouchedSince (pid host : Text) (port since : Int) : Prop :=
  ∃ reader startedAt status, since ≤ startedAt ∧ status.active = true ∧
    .standing reader (setting.env.lower pid) startedAt status ∈ events ∧
    ∃ performedAt document, since ≤ performedAt ∧
      .fetched host port performedAt document ∈ events ∧
      (∃ reason,
        verifyIdentityV3 setting.scheme document = .ok (true, reason)) ∧
      document.get "pid".toList = some (.str pid)

/-- No standing rests on a read that is older than six hours, no admission on a
standing or a document that is older than ten minutes, and a Pillar that is no
longer active is not admitted when both times are over. -/
structure Fresh : Prop where
  standings : ∀ reader pid startedAt status,
    .standing reader pid startedAt status ∈ events → status.active = true →
    ReadSince setting events reader pid (startedAt - staleGrace)
  admissions : ∀ call, .admitted call true ∈ events →
    VouchedSince setting events call.pid call.host call.port
      (call.startedAt - admissionTtl)
  expired : ∀ pid inactiveSince,
    (∀ reader contract performedAt,
      .isActiveRead reader (setting.env.lower pid) contract performedAt true ∈
        events → performedAt ≤ inactiveSince) →
    ∀ call, call.pid = pid → .admitted call true ∈ events →
      call.startedAt ≤ inactiveSince + staleGrace + admissionTtl

end Statement

section Support

variable {setting : Setting} {events later : List Event} {reader : Nat}
  {pid host : Text} {port since earlier : Int}

theorem ReadSince.weaken (read : ReadSince setting events reader pid since)
    (before : earlier ≤ since) (grows : events ⊆ later) :
    ReadSince setting later reader pid earlier := by
  obtain ⟨contract, listed, performedAt, recent, logged⟩ := read
  exact ⟨contract, listed, performedAt, before.trans recent, grows logged⟩

theorem VouchedSince.weaken
    (vouched : VouchedSince setting events pid host port since)
    (before : earlier ≤ since) (grows : events ⊆ later) :
    VouchedSince setting later pid host port earlier := by
  obtain ⟨reader, startedAt, status, recent, active, returned, performedAt,
    document, fetchedSince, fetched, verified⟩ := vouched
  exact ⟨reader, startedAt, status, before.trans recent, active,
    grows returned, performedAt, document, before.trans fetchedSince,
    grows fetched, verified⟩

/-- A standing in a cache says when the chain was asked. -/
def Supports (setting : Setting) (events : List Event) (reader : Nat)
    (pid : Text) (status : StakeStatus) : Prop :=
  status.active = true → ReadSince setting events reader pid status.checkedAt

/-- What a waiting call relies on. -/
structure CallSupported (setting : Setting) (events : List Event)
    (call : StatusCall) : Prop where
  listed : call.contract ∈ setting.contracts call.reader
  laterListed : ∀ contract ∈ call.later,
    contract ∈ setting.contracts call.reader
  cached : ∀ status ∈ call.cached,
    Supports setting events call.reader call.pid status
  found : ∀ status ∈ call.found, status.active = false
  phase : call.phase.saysActive = true →
    ReadSince setting events call.reader call.pid call.startedAt
  issued : call.startedAt ≤ call.issuedAt

theorem CallSupported.weaken {call : StatusCall}
    (supported : CallSupported setting events call) (grows : events ⊆ later) :
    CallSupported setting later call :=
  { supported with
    cached := fun status member active =>
      (supported.cached status member active).weaken le_rfl grows
    phase := fun assured => (supported.phase assured).weaken le_rfl grows }

/-- What is known of a call when it goes on. -/
def OutcomeSupported (setting : Setting) (events : List Event) (reader : Nat)
    (pid : Text) (startedAt : Int) : Outcome → Prop
  | .waiting call =>
      CallSupported setting events call ∧ call.reader = reader ∧
        call.pid = pid ∧ call.startedAt = startedAt
  | .fresh status =>
      status.checkedAt = startedAt ∧ Supports setting events reader pid status
  | .returned status => status.active = true →
      ReadSince setting events reader pid (startedAt - staleGrace)

theorem failed_supported {startedAt : Int} {cached : Option StakeStatus}
    {error : StatusError}
    (supported : ∀ status ∈ cached,
      Supports setting events reader pid status) :
    OutcomeSupported setting events reader pid startedAt
      (.returned (StatusCall.failed pid startedAt cached error)) := by
  intro active
  cases cached with
  | none => cases active
  | some status =>
      rw [StatusCall.failed] at active
      split at active
      next recent =>
        exact (supported status rfl active).weaken (by omega)
          (List.Subset.refl _)
      next => cases active

theorem firstFound_inactive {call : StatusCall} {status : StakeStatus}
    (known : ∀ status ∈ call.found, status.active = false)
    (inactive : status.active = false) :
    ∀ found ∈ call.firstFound status, found.active = false := by
  intro found member
  rw [StatusCall.firstFound] at member
  split at member
  next first isFirst =>
    obtain rfl := Option.some.inj member
    exact known _ isFirst
  next =>
    split at member
    · obtain rfl := Option.some.inj member
      exact inactive
    · cases member

theorem afterContract_supported {call : StatusCall} {now : Int}
    {status : StakeStatus} (supported : CallSupported setting events call)
    (reads : status.active = true →
      ReadSince setting events call.reader call.pid call.startedAt)
    (inTime : call.startedAt ≤ now) :
    OutcomeSupported setting events call.reader call.pid call.startedAt
      (call.afterContract now status) := by
  rw [StatusCall.afterContract]
  split
  next active => exact ⟨rfl, fun _ => reads active⟩
  next inactive =>
    have found := firstFound_inactive supported.found
      (Bool.not_eq_true _ ▸ inactive)
    split
    next contract rest more =>
      refine ⟨⟨?_, ?_, supported.cached, found, ?_, inTime⟩, rfl, rfl, rfl⟩
      · exact supported.laterListed contract (by rw [more]; simp)
      · intro other member
        exact supported.laterListed other (by rw [more]; simp [member])
      · intro assured
        cases assured
    next =>
      refine ⟨rfl, fun active => ?_⟩
      change ((call.firstFound status).getD _).active = true at active
      cases chosen : call.firstFound status with
      | none =>
          rw [chosen] at active
          cases active
      | some first =>
          rw [chosen, Option.getD_some, found first chosen] at active
          cases active

/-- The answer of a contract supports what the call makes of it. -/
theorem next_saysActive {lower : Text → Text} {phase next : Phase}
    {contract result : Text}
    (asks : phase.next lower pid contract result = .ok (.asks next))
    (assured : next.saysActive = true) :
    phase.saysActive = true ∨
      phase = .isActive ∧ decodeBool result = .ok true := by
  cases phase with
  | isActive =>
      rw [Phase.next, ExceptRules.bind_eq_ok] at asks
      obtain ⟨active, decoded, asks⟩ := asks
      obtain rfl := Answer.asks.inj (Except.ok.inj asks)
      obtain rfl : active = true := assured
      exact .inr ⟨rfl, decoded⟩
  | operatorOf active =>
      simp only [Phase.next, ExceptRules.bind_eq_ok] at asks
      obtain ⟨operator, -, isZero, -, asks⟩ := asks
      split at asks
      · cases asks
      · obtain rfl := Answer.asks.inj (Except.ok.inj asks)
        exact .inl assured
  | endpointOf active operator =>
      rw [Phase.next, ExceptRules.bind_eq_ok] at asks
      obtain ⟨endpoint, -, asks⟩ := asks
      obtain rfl := Answer.asks.inj (Except.ok.inj asks)
      exact .inl assured
  | stakeOf active operator endpoint =>
      rw [Phase.next, ExceptRules.bind_eq_ok] at asks
      obtain ⟨stake, -, asks⟩ := asks
      cases asks

theorem next_active {lower : Text → Text} {phase : Phase}
    {contract result : Text} {status : StakeStatus}
    (read : phase.next lower pid contract result = .ok (.read status))
    (active : status.active = true) : phase.saysActive = true := by
  cases phase with
  | isActive =>
      rw [Phase.next, ExceptRules.bind_eq_ok] at read
      obtain ⟨active, -, read⟩ := read
      cases read
  | operatorOf assured =>
      simp only [Phase.next, ExceptRules.bind_eq_ok] at read
      obtain ⟨operator, -, isZero, -, read⟩ := read
      split at read
      · obtain rfl := Answer.read.inj (Except.ok.inj read)
        cases active
      · cases read
  | endpointOf assured operator =>
      rw [Phase.next, ExceptRules.bind_eq_ok] at read
      obtain ⟨endpoint, -, read⟩ := read
      cases read
  | stakeOf assured operator endpoint =>
      rw [Phase.next, ExceptRules.bind_eq_ok] at read
      obtain ⟨stake, -, read⟩ := read
      obtain rfl := Answer.read.inj (Except.ok.inj read)
      exact active

theorem subset_log (mesh : Mesh) (event : Event) :
    mesh.events ⊆ (mesh.log event).events :=
  fun _ => List.mem_cons_of_mem event

theorem subset_logReply (mesh : Mesh) (call : StatusCall) (performedAt : Int)
    (reply : Option Json) :
    mesh.events ⊆ (mesh.logReply call performedAt reply).events := by
  rw [Mesh.logReply]
  split
  · exact subset_log mesh _
  · exact List.Subset.refl _

/-- A reply keeps a call supported, whatever the call makes of it. -/
theorem step_supported {mesh : Mesh} {call : StatusCall} {performedAt : Int}
    {reply : Option Json} (supported : CallSupported setting mesh.events call)
    (since : call.issuedAt ≤ performedAt) (inTime : performedAt ≤ mesh.now) :
    OutcomeSupported setting (mesh.logReply call performedAt reply).events
      call.reader call.pid call.startedAt
      (call.step setting.env.lower mesh.now reply) := by
  have kept := supported.weaken (subset_logReply mesh call performedAt reply)
  have issued := supported.issued
  rw [StatusCall.step]
  split
  next => exact failed_supported kept.cached
  next phase asks =>
    obtain ⟨result, answered, asks⟩ := ExceptRules.bind_eq_ok.mp asks
    refine ⟨{ kept with phase := fun assured => ?_, issued := ?_ }, rfl, rfl,
      rfl⟩
    · rcases next_saysActive asks assured with before | ⟨isFirst, decoded⟩
      · exact kept.phase before
      · have logged : answeredActive call reply = some true := by
          rw [answeredActive, isFirst, ExceptRules.mapError_eq_ok.mp answered]
          simp only [decoded]
          rfl
        have recent : call.startedAt ≤ performedAt := issued.trans since
        refine ⟨call.contract, supported.listed, performedAt, recent, ?_⟩
        simp [Mesh.logReply, logged, Mesh.log]
    · change call.startedAt ≤ mesh.now
      omega
  next status read =>
    obtain ⟨result, answered, read⟩ := ExceptRules.bind_eq_ok.mp read
    exact afterContract_supported kept
      (fun active => kept.phase (next_active read active)) (by omega)

/-- A call is supported when it starts. -/
theorem begin_supported {pid : Text} {now : Int} {cached : Option StakeStatus}
    (supported : ∀ status ∈ cached, Supports setting events reader pid status) :
    OutcomeSupported setting events reader pid now
      (beginStatus (setting.contracts reader) reader pid now cached) := by
  unfold beginStatus
  split
  · intro active
    cases active
  split
  next status served =>
    obtain ⟨member, recent⟩ := Option.filter_eq_some_iff.mp served
    obtain ⟨-, recent⟩ := of_decide_eq_true recent
    intro active
    refine (supported status member active).weaken ?_ (List.Subset.refl _)
    rw [cacheTtl] at recent
    rw [staleGrace]
    omega
  split
  · refine ⟨rfl, fun active => ?_⟩
    cases active
  next contract rest listed =>
    split
    · exact failed_supported supported
    · refine ⟨⟨?_, ?_, supported, ?_, ?_, le_rfl⟩, rfl, rfl, rfl⟩
      · rw [listed]
        simp
      · intro other member
        rw [listed]
        simp [member]
      · intro status none
        cases none
      · intro assured
        cases assured

end Support

section Invariant

variable (setting : Setting) (events : List Event)

/-- What an event says is borne out by the others. -/
def EventSupported : Event → Prop
  | .standing reader pid startedAt status => status.active = true →
      ReadSince setting events reader pid (startedAt - staleGrace)
  | .admitted call ok => ok = true →
      VouchedSince setting events call.pid call.host call.port
        (call.startedAt - admissionTtl)
  | _ => True

/-- A status call has started after the call that admits a peer, and is about
the same PID. -/
def Serves (pid : Text) (startedAt : Int) (admission : AdmissionCall) : Prop :=
  admission.startedAt ≤ startedAt ∧ pid = setting.env.lower admission.pid

def TaskSupported : Task → Prop
  | .status call admission =>
      CallSupported setting events call ∧
        ∀ member ∈ admission, Serves setting call.pid call.startedAt member
  | .fetching admission status issuedAt =>
      admission.startedAt ≤ issuedAt ∧ status.active = true ∧
        ∃ reader startedAt, admission.startedAt ≤ startedAt ∧
          .standing reader (setting.env.lower admission.pid) startedAt status ∈
            events
  | .finished => True

/-- Everything cached, awaited or returned is borne out by the events. -/
structure Supported (mesh : Mesh) : Prop where
  standings : ∀ reader pid, ∀ status ∈ mesh.standings.lookup (reader, pid),
    Supports setting mesh.events reader pid status
  verdicts : ∀ pid host port,
    ∀ verdict ∈ mesh.verdicts.lookup (pid, host, port), verdict.ok = true →
      VouchedSince setting mesh.events pid host port verdict.decidedAt
  tasks : ∀ task ∈ mesh.tasks, TaskSupported setting mesh.events task
  events : ∀ event ∈ mesh.events, EventSupported setting mesh.events event

variable {setting} {events} {later : List Event} {mesh : Mesh}

theorem EventSupported.weaken {event : Event}
    (supported : EventSupported setting events event)
    (grows : events ⊆ later) : EventSupported setting later event := by
  cases event with
  | standing => exact fun active => (supported active).weaken le_rfl grows
  | admitted => exact fun ok => (supported ok).weaken le_rfl grows
  | isActiveRead | fetched => trivial

theorem TaskSupported.weaken {task : Task}
    (supported : TaskSupported setting events task) (grows : events ⊆ later) :
    TaskSupported setting later task := by
  cases task with
  | status => exact ⟨supported.1.weaken grows, supported.2⟩
  | fetching =>
      obtain ⟨issued, active, reader, startedAt, inTime, returned⟩ := supported
      exact ⟨issued, active, reader, startedAt, inTime, grows returned⟩
  | finished => trivial

theorem supported_start (now : Int) : Supported setting (start now) where
  standings := by simp [start]
  verdicts := by simp [start]
  tasks := by simp [start]
  events := by simp [start]

theorem Supported.log {event : Event} (supported : Supported setting mesh)
    (isSupported : EventSupported setting (event :: mesh.events) event) :
    Supported setting (mesh.log event) := by
  have grows := subset_log mesh event
  refine ⟨?_, ?_, ?_, ?_⟩
  · intro reader pid status cached active
    exact (supported.standings reader pid status cached active).weaken le_rfl
      grows
  · intro pid host port verdict cached ok
    exact (supported.verdicts pid host port verdict cached ok).weaken le_rfl
      grows
  · intro task member
    exact (supported.tasks task member).weaken grows
  · intro other member
    rcases List.mem_cons.mp member with rfl | older
    · exact isSupported
    · exact (supported.events other older).weaken grows

theorem Supported.setTask {index : Nat} {task : Task}
    (supported : Supported setting mesh)
    (isSupported : TaskSupported setting mesh.events task) :
    Supported setting (mesh.setTask index task) :=
  { supported with
    tasks := fun other member => by
      rcases List.mem_or_eq_of_mem_set member with older | rfl
      · exact supported.tasks other older
      · exact isSupported }

theorem Supported.store {reader : Nat} {pid : Text} {status : StakeStatus}
    (supported : Supported setting mesh)
    (supports : Supports setting mesh.events reader pid status) :
    Supported setting (mesh.store reader pid status) :=
  { supported with
    standings := fun otherReader other found cached => by
      by_cases same : (otherReader, other) = (reader, pid)
      · obtain ⟨rfl, rfl⟩ := Prod.mk.inj same
        rw [Mesh.store, AList.lookup_insert] at cached
        obtain rfl := Option.some.inj cached
        exact supports
      · rw [Mesh.store, AList.lookup_insert_ne same] at cached
        exact supported.standings otherReader other found cached }

/-- A call that admits a peer ends with a verdict that was just vouched for. -/
theorem Supported.conclude {index : Nat} {admission : AdmissionCall}
    {verdict : Bool × Text} (supported : Supported setting mesh)
    (vouched : verdict.1 = true →
      VouchedSince setting mesh.events admission.pid admission.host
        admission.port admission.startedAt) :
    Supported setting (mesh.conclude index admission verdict) := by
  have logged : Supported setting (mesh.log (.admitted admission verdict.1)) :=
    supported.log fun ok => (vouched ok).weaken
      (by rw [admissionTtl]; omega) (subset_log mesh _)
  have set : Supported setting
      ((mesh.log (.admitted admission verdict.1)).setTask index .finished) :=
    logged.setTask trivial
  refine ⟨set.standings, ?_, set.tasks, set.events⟩
  intro pid host port found cached ok
  rw [Mesh.conclude] at cached
  by_cases same : (pid, host, port) =
      (admission.pid, admission.host, admission.port)
  · obtain ⟨rfl, rfl, rfl⟩ : pid = admission.pid ∧ host = admission.host ∧
        port = admission.port := by simpa using same
    rw [AList.lookup_insert] at cached
    obtain rfl := Option.some.inj cached
    exact (vouched ok).weaken le_rfl (subset_log mesh _)
  · rw [AList.lookup_insert_ne same] at cached
    split at cached
    · simp at cached
    · exact set.verdicts pid host port found cached ok

end Invariant

section Steps

variable {setting : Setting} {mesh : Mesh}

/-- A Pillar that is not active is refused, and the others only with a document
that verifies. -/
theorem verdict_eq_true {admission : AdmissionCall} {status : StakeStatus}
    {document : Except Raised JsonText.Json}
    (ok : (setting.verdict admission status document).1 = true) :
    status.active = true ∧ ∃ doc, document = .ok doc ∧
      (∃ reason, verifyIdentityV3 setting.scheme doc = .ok (true, reason)) ∧
      doc.get "pid".toList = some (.str admission.pid) := by
  obtain ⟨standing, doc, reported, active, fetched, verified, named, -⟩ :=
    peerChecks_eq_true (checkPeer_eq_true (Prod.ext ok rfl))
  obtain rfl := Except.ok.inj reported
  exact ⟨active, doc, fetched, verified, named⟩

theorem Supported.afterStatus {index reader : Nat} {pid : Text}
    {startedAt : Int} {admission : Option AdmissionCall} {status : StakeStatus}
    (supported : Supported setting mesh)
    (serves : ∀ member ∈ admission, Serves setting pid startedAt member)
    (inTime : startedAt ≤ mesh.now)
    (returned : .standing reader pid startedAt status ∈ mesh.events) :
    Supported setting (setting.afterStatus mesh index admission status) := by
  cases admission with
  | none => exact supported.setTask trivial
  | some admission =>
      obtain ⟨before, rfl⟩ := serves admission rfl
      simp only [Setting.afterStatus]
      split
      next active =>
        exact supported.setTask ⟨before.trans inTime, active, reader, startedAt,
          before, returned⟩
      next inactive =>
        exact supported.conclude fun ok =>
          absurd (verdict_eq_true ok).1 inactive

/-- The mesh stays supported when a call goes on. -/
theorem Supported.settle {index reader : Nat} {pid : Text} {startedAt : Int}
    {admission : Option AdmissionCall} {outcome : Outcome}
    (supported : Supported setting mesh)
    (outcomeSupported : OutcomeSupported setting mesh.events reader pid
      startedAt outcome)
    (serves : ∀ member ∈ admission, Serves setting pid startedAt member)
    (inTime : startedAt ≤ mesh.now) :
    Supported setting
      (setting.settle mesh index reader pid startedAt admission outcome) := by
  cases outcome with
  | waiting call =>
      obtain ⟨callSupported, -, rfl, rfl⟩ := outcomeSupported
      exact supported.setTask ⟨callSupported, serves⟩
  | fresh status =>
      obtain ⟨checked, supports⟩ := outcomeSupported
      refine Supported.afterStatus ?_ serves inTime (List.mem_cons_self ..)
      refine (supported.store supports).log fun active => ?_
      refine (supports active).weaken ?_ (List.subset_cons_self ..)
      rw [staleGrace]
      omega
  | returned status =>
      refine Supported.afterStatus ?_ serves inTime (List.mem_cons_self ..)
      exact supported.log fun active =>
        (outcomeSupported active).weaken le_rfl (List.subset_cons_self ..)

theorem Supported.startStatus {reader : Nat} {pid : Text}
    {admission : Option AdmissionCall} (supported : Supported setting mesh)
    (serves : ∀ member ∈ admission,
      Serves setting (setting.env.lower pid) mesh.now member) :
    Supported setting (setting.startStatus mesh reader pid admission) := by
  have added : Supported setting
      { mesh with tasks := mesh.tasks ++ [.finished] } :=
    { supported with
      tasks := fun task member => by
        rcases List.mem_append.mp member with older | newest
        · exact supported.tasks task older
        · rw [List.mem_singleton.mp newest]
          trivial }
  exact added.settle
    (begin_supported (supported.standings reader (setting.env.lower pid)))
    serves le_rfl

theorem Supported.logReply {call : StatusCall} {performedAt : Int}
    {reply : Option Json} (supported : Supported setting mesh) :
    Supported setting (mesh.logReply call performedAt reply) := by
  rw [Mesh.logReply]
  split
  · exact supported.log trivial
  · exact supported

theorem Supported.logDocument {admission : AdmissionCall} {performedAt : Int}
    {document : Except Raised JsonText.Json}
    (supported : Supported setting mesh) :
    Supported setting (mesh.logDocument admission performedAt document) := by
  cases document with
  | ok document => exact supported.log trivial
  | error raised => exact supported

theorem logReply_now (mesh : Mesh) (call : StatusCall) (performedAt : Int)
    (reply : Option Json) :
    (mesh.logReply call performedAt reply).now = mesh.now := by
  rw [Mesh.logReply]
  split <;> rfl

/-- Whatever happens next, the mesh stays supported. -/
theorem Supported.apply (action : Action) (supported : Supported setting mesh) :
    Supported setting (setting.apply action mesh) := by
  cases action with
  | wait micros => exact { supported with }
  | status reader pid =>
      refine supported.startStatus ?_
      intro member none
      cases none
  | admitPeer reader pid host port elapsed =>
      simp only [Setting.apply]
      split
      next verdict served =>
        obtain ⟨cached, recent⟩ := Option.filter_eq_some_iff.mp served
        have recent := of_decide_eq_true recent
        refine supported.log fun ok => ?_
        exact (supported.verdicts pid host port verdict cached ok).weaken
          (by simp only; omega) (List.subset_cons_self ..)
      next =>
        refine Supported.startStatus { supported with } ?_
        intro member isCall
        obtain rfl := Option.some.inj isCall
        exact ⟨by simp only; omega, rfl⟩
  | reply index performedAt reply =>
      simp only [Setting.apply]
      split
      next call admission waits =>
        obtain ⟨callSupported, serves⟩ :=
          supported.tasks _ (List.mem_of_getElem? waits)
        split
        next inTime =>
          refine supported.logReply.settle
            (step_supported callSupported inTime.1 inTime.2) serves ?_
          rw [logReply_now]
          exact callSupported.issued.trans (inTime.1.trans inTime.2)
        next => exact supported
      next => exact supported
  | identity index performedAt document =>
      simp only [Setting.apply]
      split
      next admission status issuedAt waits =>
        obtain ⟨issued, active, reader, startedAt, before, returned⟩ :=
          supported.tasks _ (List.mem_of_getElem? waits)
        split
        next inTime =>
          refine supported.logDocument.conclude fun ok => ?_
          obtain ⟨-, doc, rfl, verified⟩ := verdict_eq_true ok
          exact ⟨reader, startedAt, status, before, active,
            List.mem_cons_of_mem _ returned, performedAt, doc,
            issued.trans inTime.1, List.mem_cons_self .., verified⟩
        next => exact supported
      next => exact supported
  | clearCache => exact { supported with verdicts := by simp [Setting.apply] }

/-- Every reachable mesh is supported. -/
theorem supported_run (setting : Setting) (now : Int) (actions : List Action) :
    Supported setting (run setting.apply (start now) actions) :=
  run_invariant (supported_start now)
    (fun action _ (_ : True) supported => supported.apply action)
    fun _ _ => trivial

/-- In every run, whatever answers when, no standing and no admission rests on
what is too old. -/
theorem admission_fresh (setting : Setting) (now : Int)
    (actions : List Action) :
    Fresh setting (run setting.apply (start now) actions).events := by
  have supported := supported_run setting now actions
  generalize run setting.apply (start now) actions = mesh at supported
  have standings : ∀ reader pid startedAt status,
      .standing reader pid startedAt status ∈ mesh.events →
        status.active = true →
        ReadSince setting mesh.events reader pid (startedAt - staleGrace) :=
    fun reader pid startedAt status returned =>
      supported.events _ returned
  have admissions : ∀ call, .admitted call true ∈ mesh.events →
      VouchedSince setting mesh.events call.pid call.host call.port
        (call.startedAt - admissionTtl) :=
    fun call returned => supported.events _ returned rfl
  refine ⟨standings, admissions, ?_⟩
  rintro pid inactiveSince noRead call rfl admitted
  obtain ⟨reader, startedAt, status, recent, active, returned, -⟩ :=
    admissions call admitted
  obtain ⟨contract, -, performedAt, fresh, read⟩ :=
    standings reader _ startedAt status returned active
  have before := noRead reader contract performedAt read
  omega

end Steps

end AdmissionFreshness

end RefinetPillars
