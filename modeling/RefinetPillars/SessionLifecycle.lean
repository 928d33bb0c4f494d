import RefinetPillars.NewestWrite
import RefinetPillars.SiweSession
import RefinetPillars.TransactionBroadcast

/-!
# The life of a session

A session is opened by a sign-in or by a proof that a key is held, it can be
revoked, and it expires.  A session is valid exactly if it was opened, has not
been revoked since, and has not expired.
-/

namespace RefinetPillars

namespace SiweSession

variable {sessions after : SessionTable} {session : Session}

theorem SessionTable.insert_fresh
    (inserted : sessions.insert session = .ok after) :
    session.sessionId ∉ sessions.rows.map Session.sessionId := by
  unfold SessionTable.insert at inserted
  split_ifs at inserted with known
  exact known

theorem establishSession_sessions_of_error {env : SiweMessage.Environment}
    {pid : HexText.Text} {attempt : Attempt} {tables : Tables}
    {raised : SiweMessage.Raised}
    (failed : (establishSession env pid attempt tables).1 = .error raised) :
    (establishSession env pid attempt tables).2.sessions =
      tables.sessions := by
  by_cases reaches : attempt.Reaches pid
  · rw [establishSession_of_reaches reaches] at failed ⊢
    dsimp only at failed ⊢
    split_ifs at failed ⊢
    · rfl
    · cases opened : openSession env pid attempt tables.sessions with
      | error other => rfl
      | ok pair =>
          rw [opened] at failed
          cases failed
  · rw [(establishSession_of_not_reaches env tables reaches).2]

/-- `revoke_session`: a session stays in its row, marked. -/
def Session.revokedFor (sessionId : HexText.Text) (row : Session) : Session :=
  if row.sessionId = sessionId then { row with revoked := true } else row

@[simp]
theorem Session.revokedFor_sessionId (sessionId : HexText.Text)
    (row : Session) : (row.revokedFor sessionId).sessionId = row.sessionId := by
  unfold Session.revokedFor
  split <;> rfl

@[simp]
theorem Session.revokedFor_nonce (sessionId : HexText.Text) (row : Session) :
    (row.revokedFor sessionId).nonce = row.nonce := by
  unfold Session.revokedFor
  split <;> rfl

def SessionTable.revoke (sessionId : HexText.Text) (table : SessionTable) :
    SessionTable where
  rows := table.rows.map (Session.revokedFor sessionId)
  uniqueId := by
    rw [List.map_map]
    simpa [Function.comp_def] using table.uniqueId
  uniqueNonce := by
    rw [List.map_map]
    simpa [Function.comp_def] using table.uniqueNonce

end SiweSession

namespace SessionLifecycle

open HexText SiweMessage SiweSession RunHistory NewestWrite

/-- A verified proof that a key is held, with the random bytes and the time that
are read when a session is opened for it. -/
structure KeyLogin where
  publicKey : List UInt8
  challenge : Text
  response : Text
  urandom : List UInt8
  now : Int
deriving DecidableEq

inductive Input where
  | pillar (input : SiweSession.Input)
  | prove (login : KeyLogin)
  | revoke (sessionId : Text)
deriving DecidableEq

section Pillar

variable (env : Environment) (sha256 : List UInt8 → List UInt8) (pid : Text)

/-- `establish_session_zkp`; the address is made of the key. -/
def establishSessionZkp (login : KeyLogin) (sessions : SessionTable) :
    Except Raised (Session × SessionTable) := do
  let session : Session :=
    { sessionId := toHex login.urandom
      address := "0x".toList ++ (toHex (sha256 login.publicKey)).take 40
      nonce := login.challenge
      issuedAt := login.now
      expiresAt := ⟨login.now + sessionDurationHours * 3600000000, true⟩
      signature := login.response
      pid := pid }
  let sessions ← sessions.insert session
  return (session, sessions)

def Input.apply : Input → Tables → Tables
  | .pillar input, tables => input.apply env pid tables
  | .prove login, tables =>
      match establishSessionZkp sha256 pid login tables.sessions with
      | .error _ => tables
      | .ok (_, sessions) => { tables with sessions := sessions }
  | .revoke sessionId, tables =>
      { tables with sessions := tables.sessions.revoke sessionId }

/-- The tables after some calls, newest first. -/
abbrev runSessions (inputs : List Input) : Tables :=
  run (Input.apply env sha256 pid) .empty inputs

/-- The input opens a session. -/
inductive Opens : Input → Tables → Session → Prop
  | signedIn {attempt : Attempt} {tables : Tables} {session : Session}
      (opened : (establishSession env pid attempt tables).1 = .ok session) :
      Opens (.pillar (.establish attempt)) tables session
  | proved {login : KeyLogin} {tables : Tables} {session : Session}
      {after : SessionTable}
      (opened : establishSessionZkp sha256 pid login tables.sessions =
        .ok (session, after)) :
      Opens (.prove login) tables session

/-- What an input makes of the session with an identifier. -/
inductive Decides (sessionId : Text) :
    Input → Tables → Option Session → Prop
  | opened {input : Input} {tables : Tables} {session : Session}
      (opens : Opens env sha256 pid input tables session)
      (named : session.sessionId = sessionId) :
      Decides sessionId input tables (some session)
  | revoked {tables : Tables} :
      Decides sessionId (.revoke sessionId) tables none

end Pillar

/-- The row that has not been revoked. -/
def SessionTable.standing (sessionId : Text) (table : SessionTable) :
    Option Session :=
  table.rows.find? fun row =>
    decide (row.sessionId = sessionId ∧ row.revoked = false)

/-- `validate_session`; an expiry without a time zone counts as UTC. -/
def validateSession (sessionId : Text) (now : Int) (table : SessionTable) :
    Option Session :=
  (SessionTable.standing sessionId table).filter fun row =>
    decide (now ≤ row.expiresAt.micros)

section Steps

variable {env : Environment} {sha256 : List UInt8 → List UInt8} {pid : Text}
  {tables : Tables} {session : Session} {input : Input} {sessionId : Text}

theorem establishSessionZkp_eq_ok {login : KeyLogin}
    {sessions after : SessionTable}
    (opened : establishSessionZkp sha256 pid login sessions =
      .ok (session, after)) :
    sessions.insert session = .ok after ∧ session.revoked = false := by
  unfold establishSessionZkp at opened
  obtain ⟨inserted, insertedEq, opened⟩ := ExceptRules.bind_eq_ok.mp opened
  obtain ⟨rfl, rfl⟩ := Prod.mk.inj (Except.ok.inj opened)
  exact ⟨insertedEq, rfl⟩

theorem openSession_inserts {attempt : Attempt} {sessions after : SessionTable}
    (opened : openSession env pid attempt sessions = .ok (session, after)) :
    sessions.insert session = .ok after ∧ session.revoked = false := by
  unfold openSession at opened
  obtain ⟨⟨sigOk, sigReason⟩, _, opened⟩ := ExceptRules.bind_eq_ok.mp opened
  obtain ⟨_, opened⟩ := ExceptRules.guard_eq_ok.mp opened
  obtain ⟨expiry, _, opened⟩ := ExceptRules.bind_eq_ok.mp opened
  obtain ⟨_, opened⟩ := ExceptRules.guard_eq_ok.mp opened
  obtain ⟨_, opened⟩ := ExceptRules.guard_eq_ok.mp opened
  obtain ⟨_, opened⟩ := ExceptRules.guard_eq_ok.mp opened
  obtain ⟨inserted, insertedEq, opened⟩ := ExceptRules.bind_eq_ok.mp opened
  obtain ⟨rfl, rfl⟩ := Prod.mk.inj (Except.ok.inj opened)
  exact ⟨insertedEq, rfl⟩

/-- A session that is opened is appended under an identifier of its own. -/
theorem Opens.inserted (opens : Opens env sha256 pid input tables session) :
    tables.sessions.insert session =
        .ok (input.apply env sha256 pid tables).sessions ∧
      session.revoked = false := by
  cases opens with
  | signedIn opened =>
      exact openSession_inserts (establishSession_eq_ok opened).2.2
  | proved opened =>
      obtain ⟨inserted, unrevoked⟩ := establishSessionZkp_eq_ok opened
      simp only [Input.apply, opened]
      exact ⟨inserted, unrevoked⟩

/-- Whatever does not open a session only marks sessions. -/
theorem sessions_apply (env : Environment)
    (sha256 : List UInt8 → List UInt8) (pid : Text) (input : Input)
    (tables : Tables) :
    (∃ session, Opens env sha256 pid input tables session) ∨
      (∃ sessionId, input = .revoke sessionId) ∨
      (input.apply env sha256 pid tables).sessions = tables.sessions := by
  cases input with
  | revoke sessionId => exact Or.inr (Or.inl ⟨sessionId, rfl⟩)
  | prove login =>
      cases result : establishSessionZkp sha256 pid login tables.sessions with
      | error raised =>
          exact Or.inr (Or.inr (by simp only [Input.apply, result]))
      | ok pair => exact Or.inl ⟨pair.1, .proved result⟩
  | pillar input =>
      cases input with
      | challenge request =>
          right; right
          simp only [Input.apply, SiweSession.Input.apply, createChallenge]
          cases generateChallenge env pid request <;> rfl
      | establish attempt =>
          cases result : (establishSession env pid attempt tables).1 with
          | error raised =>
              exact Or.inr (Or.inr (establishSession_sessions_of_error result))
          | ok session => exact Or.inl ⟨session, .signedIn result⟩
      | purge sweep => exact Or.inr (Or.inr rfl)

theorem standing_insert {table after : SessionTable}
    (inserted : table.insert session = .ok after)
    (unrevoked : session.revoked = false) :
    SessionTable.standing sessionId after =
      if session.sessionId = sessionId then some session
      else SessionTable.standing sessionId table := by
  have rows := SessionTable.insert_eq_ok inserted
  have fresh := SessionTable.insert_fresh inserted
  rw [SessionTable.standing, rows, List.find?_append]
  by_cases named : session.sessionId = sessionId
  · have absent : table.rows.find? (fun row =>
        decide (row.sessionId = sessionId ∧ row.revoked = false)) = none := by
      rw [List.find?_eq_none]
      intro row member matched
      have same := (of_decide_eq_true matched).1
      apply fresh
      rw [named, ← same]
      exact List.mem_map_of_mem member
    rw [absent, if_pos named, List.find?_cons_of_pos]
    · rfl
    · exact decide_eq_true ⟨named, unrevoked⟩
  · rw [if_neg named, List.find?_cons_of_neg, List.find?_nil, Option.or_none]
    · rfl
    · simp [named]

theorem standing_revoke (table : SessionTable) (other : Text) :
    SessionTable.standing sessionId (table.revoke other) =
      if other = sessionId then none
      else SessionTable.standing sessionId table := by
  split
  next same =>
    subst same
    rw [SessionTable.standing, List.find?_eq_none]
    intro row member matched
    obtain ⟨old, _, rfl⟩ := List.mem_map.mp member
    obtain ⟨named, unrevoked⟩ := of_decide_eq_true matched
    rw [Session.revokedFor_sessionId] at named
    simp [Session.revokedFor, named] at unrevoked
  next different =>
    have untouched : ∀ row : Session, row.sessionId = sessionId →
        row.revokedFor other = row := by
      intro row named
      exact if_neg fun same => different (same.symm.trans named)
    rw [SessionTable.standing, SessionTable.standing, SessionTable.revoke,
      List.find?_map]
    have samePredicate : (fun row : Session =>
        decide (row.sessionId = sessionId ∧ row.revoked = false)) ∘
          Session.revokedFor other =
        fun row => decide (row.sessionId = sessionId ∧ row.revoked = false) := by
      funext row
      by_cases named : row.sessionId = sessionId
      · rw [Function.comp_apply, untouched row named]
      · simp [named]
    rw [samePredicate]
    cases found : table.rows.find? fun row =>
        decide (row.sessionId = sessionId ∧ row.revoked = false) with
    | none => rfl
    | some row =>
        have matched := List.find?_some found
        rw [Option.map_some, untouched row (of_decide_eq_true matched).1]

/-- The standing session of an identifier is what the newest decision about it
left. -/
theorem session_register (env : Environment)
    (sha256 : List UInt8 → List UInt8) (pid sessionId : Text) :
    Register (Input.apply env sha256 pid)
      (fun tables => SessionTable.standing sessionId tables.sessions)
      (Decides env sha256 pid sessionId) where
  written {input tables value} decides := by
    cases decides with
    | opened opens named =>
        obtain ⟨inserted, unrevoked⟩ := opens.inserted
        rw [standing_insert inserted unrevoked, if_pos named]
    | revoked => exact (standing_revoke _ _).trans (if_pos rfl)
  kept {input tables} undecided := by
    rcases sessions_apply env sha256 pid input tables with
      ⟨session, opens⟩ | ⟨other, rfl⟩ | same
    · obtain ⟨inserted, unrevoked⟩ := opens.inserted
      rw [standing_insert inserted unrevoked, if_neg]
      exact fun named => undecided _ (.opened opens named)
    · refine (standing_revoke _ _).trans (if_neg ?_)
      rintro rfl
      exact undecided _ .revoked
    · rw [same]

/-- A row stays under its identifier. -/
theorem sessionId_mem_apply (input : Input)
    (known : sessionId ∈ tables.sessions.rows.map Session.sessionId) :
    sessionId ∈ (input.apply env sha256 pid tables).sessions.rows.map
      Session.sessionId := by
  rcases sessions_apply env sha256 pid input tables with
    ⟨session, opens⟩ | ⟨other, rfl⟩ | same
  · rw [SessionTable.insert_eq_ok opens.inserted.1, List.map_append]
    exact List.mem_append_left _ known
  · change sessionId ∈ (tables.sessions.revoke other).rows.map _
    rw [SessionTable.revoke, List.map_map]
    simpa [Function.comp_def] using known
  · rwa [same]

/-- An identifier that is taken is not given again. -/
theorem not_opens_of_mem
    (known : sessionId ∈ tables.sessions.rows.map Session.sessionId)
    (opens : Opens env sha256 pid input tables session) :
    session.sessionId ≠ sessionId := by
  rintro rfl
  exact SessionTable.insert_fresh opens.inserted.1 known

end Steps

section Runs

variable {env : Environment} {sha256 : List UInt8 → List UInt8} {pid : Text}
  {sessionId : Text} {later earlier : List Input}

/-- Once an identifier is taken, revoking it has effect for good. -/
theorem standing_eq_none_of_revoked
    (known : sessionId ∈ (runSessions env sha256 pid earlier).sessions.rows.map
      Session.sessionId) (revoked : .revoke sessionId ∈ later) :
    sessionId ∈ (runSessions env sha256 pid
        (later ++ earlier)).sessions.rows.map Session.sessionId ∧
      SessionTable.standing sessionId
        (runSessions env sha256 pid (later ++ earlier)).sessions = none := by
  have kept : ∀ between : List Input, sessionId ∈ (runSessions env sha256 pid
      (between ++ earlier)).sessions.rows.map Session.sessionId := by
    intro between
    induction between with
    | nil => exact known
    | cons input between ih => exact sessionId_mem_apply input ih
  refine ⟨kept later, ?_⟩
  induction later with
  | nil => cases revoked
  | cons input later ih =>
      have register := session_register env sha256 pid sessionId
      by_cases newest : input = .revoke sessionId
      · subst newest
        exact register.written .revoked
      · have older : .revoke sessionId ∈ later := by
          rcases List.mem_cons.mp revoked with same | older
          · exact (newest same.symm).elim
          · exact older
        rw [List.cons_append, runSessions, run_cons]
        refine (register.kept ?_).trans (ih older)
        intro value decides
        cases decides with
        | opened opens named => exact not_opens_of_mem (kept later) opens named
        | revoked => exact newest rfl

/-- The gateway for transactions, with the sessions of a moment. -/
def gatewayAt (gateway : TransactionBroadcast.Environment) (now : Int)
    (table : SessionTable) : TransactionBroadcast.Environment :=
  { gateway with
    validSession := fun sessionId =>
      (validateSession sessionId now table).isSome }

theorem validSession_of_submitted {gateway : TransactionBroadcast.Environment}
    {chainId submitted : Int} {signedTxHex sessionId endpoint : Text}
    {raw : List UInt8} {answer : Except Text Text}
    (broadcast : TransactionBroadcast.broadcast gateway chainId signedTxHex
      sessionId = .submitted submitted endpoint raw answer) :
    gateway.validSession sessionId = true := by
  unfold TransactionBroadcast.broadcast at broadcast
  split_ifs at broadcast with valid
  exact valid

/-- Which sessions are valid.  After every run a session validates at a moment
exactly if the newest decision about its identifier opened it, by a sign-in
that passed every check or by a proof of possession, and it has not expired;
one that is revoked never validates again; and the gateway submits a transaction
only under a session that validates. -/
theorem session_valid_iff (env : Environment)
    (sha256 : List UInt8 → List UInt8) (pid sessionId : Text)
    (inputs : List Input) (now : Int) :
    let sessions := (runSessions env sha256 pid inputs).sessions
    let ValidAs := fun session : Session =>
      Newest (Input.apply env sha256 pid) Tables.empty
          (Decides env sha256 pid sessionId) inputs (some session) ∧
        now ≤ session.expiresAt.micros
    (∀ session, validateSession sessionId now sessions = some session ↔
        ValidAs session) ∧
      (∀ later earlier, inputs = later ++ earlier →
        sessionId ∈ (runSessions env sha256 pid earlier).sessions.rows.map
          Session.sessionId → .revoke sessionId ∈ later →
        validateSession sessionId now sessions = none) ∧
      ∀ gateway chainId signedTxHex submitted endpoint raw answer,
        TransactionBroadcast.broadcast (gatewayAt gateway now sessions) chainId
            signedTxHex sessionId = .submitted submitted endpoint raw answer →
          ∃ session, ValidAs session := by
  intro sessions ValidAs
  have standing : ∀ session, SessionTable.standing sessionId sessions =
      some session ↔ Newest (Input.apply env sha256 pid) Tables.empty
        (Decides env sha256 pid sessionId) inputs (some session) := by
    intro session
    have newest := (session_register env sha256 pid sessionId).observe_eq_iff
      Tables.empty inputs (some session)
    refine newest.trans (or_iff_left ?_)
    rintro ⟨-, absent⟩
    cases absent
  have valid : ∀ session, validateSession sessionId now sessions =
      some session ↔ ValidAs session := by
    intro session
    rw [validateSession, Option.filter_eq_some_iff, standing,
      decide_eq_true_iff]
  refine ⟨valid, ?_, ?_⟩
  · rintro later earlier rfl known revoked
    rw [validateSession, (standing_eq_none_of_revoked known revoked).2]
    rfl
  · intro gateway chainId signedTxHex submitted endpoint raw answer broadcast
    obtain ⟨session, validates⟩ :=
      Option.isSome_iff_exists.mp (validSession_of_submitted broadcast)
    exact ⟨session, (valid session).mp validates⟩

end Runs

end SessionLifecycle

end RefinetPillars
