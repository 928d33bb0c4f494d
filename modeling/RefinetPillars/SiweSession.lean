import RefinetPillars.ExceptRules
import RefinetPillars.NonceRegistry
import RefinetPillars.SiweMessage

/-!
# Sign-in sessions

Challenges are issued and recorded, and a signed message opens a session.
Sessions are never deleted, and no two have the same nonce.
-/

namespace RefinetPillars

namespace SiweSession

open HexText ExceptRules NonceRegistry SiweMessage

/-- A row of `siwe_sessions`. -/
structure Session where
  sessionId : Text
  address : Text
  nonce : Text
  issuedAt : Int
  expiresAt : DateTime
  signature : Text
  pid : Text
  revoked : Bool := false
deriving DecidableEq

/-- The table `siwe_sessions` with its unique columns. -/
structure SessionTable where
  rows : List Session
  uniqueId : (rows.map Session.sessionId).Nodup
  uniqueNonce : (rows.map Session.nonce).Nodup

namespace SessionTable

def empty : SessionTable := ⟨[], List.nodup_nil, List.nodup_nil⟩

/-- `INSERT INTO siwe_sessions`. -/
def insert (session : Session) (table : SessionTable) :
    Except Raised SessionTable :=
  if newId : session.sessionId ∈ table.rows.map Session.sessionId then
    .error (.integrityError
      "UNIQUE constraint failed: siwe_sessions.session_id")
  else if newNonce : session.nonce ∈ table.rows.map Session.nonce then
    .error (.integrityError "UNIQUE constraint failed: siwe_sessions.nonce")
  else
    .ok
      { rows := table.rows ++ [session]
        uniqueId := by
          rw [List.map_append]
          exact table.uniqueId.append (List.nodup_singleton _)
            (by simpa using newId)
        uniqueNonce := by
          rw [List.map_append]
          exact table.uniqueNonce.append (List.nodup_singleton _)
            (by simpa using newNonce) }

end SessionTable

/-- The tables of a Pillar that sign-in uses. -/
structure Tables where
  nonces : NonceTable
  sessions : SessionTable

def Tables.empty : Tables := ⟨.empty, .empty⟩

/-- What `create_challenge` returns. -/
structure Challenge where
  message : Text
  nonce : Text
  purpose : Text
deriving DecidableEq

/-- A call of `establish_session`, with the random bytes and the times that it
reads. -/
structure Attempt where
  address : Text
  messageText : Text
  signature : Text
  urandom : List UInt8
  consumedAt : Int
  now : Int
deriving DecidableEq

section Pillar

variable (env : Environment) (pid : Text)

/-- How a challenge is recorded in the registry. -/
def recordingOf (request : ChallengeRequest) (nonce : Text) : Recording where
  nonce := nonce
  purpose := request.purpose
  pid := pid
  address := some request.address
  chainId := some request.chainId
  ttlSeconds :=
    if request.purpose = bindingPurpose then bindingNonceTtlSeconds
    else loginNonceTtlSeconds
  now := request.recordedAt

def createChallenge (request : ChallengeRequest) (tables : Tables) :
    Except Raised Challenge × Tables :=
  match generateChallenge env pid request with
  | .error raised => (.error raised, tables)
  | .ok (message, nonce) =>
      (.ok ⟨message, nonce, request.purpose⟩,
        { tables with
          nonces :=
            tables.nonces.insertOrReplace (recordingOf pid request nonce).row })

/-- What follows once the nonce has been spent. -/
def openSession (attempt : Attempt) (sessions : SessionTable) :
    Except Raised (Session × SessionTable) := do
  let (sigOk, sigReason) ← verifyWalletSignature env attempt.messageText
    attempt.signature attempt.address
  if sigOk = false then
    throw (.valueError ("Signature verification failed — " ++ sigReason))
  let expiry ← parseExpiry env attempt.messageText
  if expiry.aware = false then
    throw (.typeError
      "can't compare offset-naive and offset-aware datetimes")
  if expiry.micros < attempt.now then
    throw (.valueError "SIWE message has already expired")
  let nonce := parseNonce attempt.messageText
  if nonce ∈ sessions.rows.map Session.nonce then
    throw (.valueError "Nonce already used — possible replay attack")
  let session : Session :=
    { sessionId := toHex attempt.urandom
      address := attempt.address
      nonce := nonce
      issuedAt := attempt.now
      expiresAt := expiry
      signature := attempt.signature
      pid := pid }
  let sessions ← sessions.insert session
  return (session, sessions)

def Attempt.consumption (attempt : Attempt) : Consumption where
  nonce := parseNonce attempt.messageText
  purpose := loginPurpose
  pid := pid
  now := attempt.consumedAt

def establishSession (attempt : Attempt) (tables : Tables) :
    Except Raised Session × Tables :=
  if isBindingMessage attempt.messageText then
    (.error (.valueError
      "This message binds a wallet to a Pillar — it cannot open a session"),
      tables)
  else if messageNamesPid attempt.messageText pid = false then
    (.error (.valueError "Challenge was not issued by this Pillar"), tables)
  else
    let ((ok, reason), nonces) :=
      consumeSiweNonce (attempt.consumption pid) tables.nonces
    if ok = false then
      (.error (.valueError ("Challenge rejected: " ++ reason)),
        { tables with nonces := nonces })
    else
      match openSession env pid attempt tables.sessions with
      | .error raised => (.error raised, { tables with nonces := nonces })
      | .ok (session, sessions) => (.ok session, ⟨nonces, sessions⟩)

inductive Input where
  | challenge (request : ChallengeRequest)
  | establish (attempt : Attempt)
  | purge (sweep : Purge)
deriving DecidableEq

def Input.apply : Input → Tables → Tables
  | .challenge request, tables => (createChallenge env pid request tables).2
  | .establish attempt, tables => (establishSession env pid attempt tables).2
  | .purge sweep, tables =>
      { tables with nonces := tables.nonces.deleteExpired sweep.cutoff }

/-- The tables after some calls, newest first. -/
abbrev runPillar (inputs : List Input) : Tables :=
  RunHistory.run (Input.apply env pid) .empty inputs

end Pillar

section Rules

variable {env : Environment} {pid : Text} {attempt : Attempt}
  {sessions after : SessionTable} {session : Session} {tables : Tables}

theorem SessionTable.insert_eq_ok
    (inserted : sessions.insert session = .ok after) :
    after.rows = sessions.rows ++ [session] := by
  unfold SessionTable.insert at inserted
  split_ifs at inserted
  rw [← Except.ok.inj inserted]

/-- What a signed message must say to open a session, and what it opens. -/
theorem openSession_eq_ok
    (opened : openSession env pid attempt sessions = .ok (session, after)) :
    (∃ reason, verifyWalletSignature env attempt.messageText attempt.signature
        attempt.address = .ok (true, reason)) ∧
      (∃ expiry, parseExpiry env attempt.messageText = .ok expiry ∧
        expiry.aware = true ∧ attempt.now ≤ expiry.micros) ∧
      parseNonce attempt.messageText ∉ sessions.rows.map Session.nonce ∧
      after.rows = sessions.rows ++ [session] ∧
      session.nonce = parseNonce attempt.messageText := by
  unfold openSession at opened
  obtain ⟨⟨sigOk, sigReason⟩, verified, opened⟩ := bind_eq_ok.mp opened
  obtain ⟨sigPasses, opened⟩ := guard_eq_ok.mp opened
  obtain ⟨expiry, parsed, opened⟩ := bind_eq_ok.mp opened
  obtain ⟨aware, opened⟩ := guard_eq_ok.mp opened
  obtain ⟨inTime, opened⟩ := guard_eq_ok.mp opened
  obtain ⟨unused, opened⟩ := guard_eq_ok.mp opened
  obtain ⟨inserted, insertedEq, opened⟩ := bind_eq_ok.mp opened
  obtain ⟨rfl, rfl⟩ := Prod.mk.inj (Except.ok.inj opened)
  rw [Bool.not_eq_false] at sigPasses aware
  refine ⟨⟨sigReason, sigPasses ▸ verified⟩,
    ⟨expiry, parsed, aware, not_lt.mp inTime⟩, unused,
    SessionTable.insert_eq_ok insertedEq, rfl⟩

/-- The attempt is not refused before its nonce is looked up. -/
def Attempt.Reaches (attempt : Attempt) (pid : Text) : Prop :=
  isBindingMessage attempt.messageText = false ∧
    messageNamesPid attempt.messageText pid = true

theorem establishSession_of_not_reaches (env : Environment) (tables : Tables)
    (refused : ¬ attempt.Reaches pid) :
    (∃ raised, (establishSession env pid attempt tables).1 = .error raised) ∧
      (establishSession env pid attempt tables).2 = tables := by
  unfold establishSession
  by_cases binding : isBindingMessage attempt.messageText = true
  · rw [if_pos binding]
    exact ⟨⟨_, rfl⟩, rfl⟩
  · by_cases names : messageNamesPid attempt.messageText pid = false
    · rw [if_neg binding, if_pos names]
      exact ⟨⟨_, rfl⟩, rfl⟩
    · exact absurd ⟨by simpa using binding, by simpa using names⟩ refused

theorem establishSession_of_reaches (reaches : attempt.Reaches pid) :
    establishSession env pid attempt tables =
      let spent := consumeSiweNonce (attempt.consumption pid) tables.nonces
      if spent.1.1 = false then
        (.error (.valueError ("Challenge rejected: " ++ spent.1.2)),
          { tables with nonces := spent.2 })
      else
        match openSession env pid attempt tables.sessions with
        | .error raised => (.error raised, { tables with nonces := spent.2 })
        | .ok (session, sessions) => (.ok session, ⟨spent.2, sessions⟩) := by
  unfold establishSession
  rw [if_neg (by simp [reaches.1]), if_neg (by simp [reaches.2])]

theorem establishSession_nonces (env : Environment) (pid : Text)
    (attempt : Attempt) (tables : Tables) :
    (attempt.Reaches pid ∧ (establishSession env pid attempt tables).2.nonces =
        (consumeSiweNonce (attempt.consumption pid) tables.nonces).2) ∨
      (¬ attempt.Reaches pid ∧
        (establishSession env pid attempt tables).2.nonces =
          tables.nonces) := by
  by_cases reaches : attempt.Reaches pid
  · refine Or.inl ⟨reaches, ?_⟩
    rw [establishSession_of_reaches reaches]
    dsimp only
    split_ifs
    · rfl
    · cases openSession env pid attempt tables.sessions <;> rfl
  · exact Or.inr ⟨reaches, by
      rw [(establishSession_of_not_reaches env tables reaches).2]⟩

/-- A session is opened by an attempt that passes every check. -/
theorem establishSession_eq_ok
    (opened : (establishSession env pid attempt tables).1 = .ok session) :
    attempt.Reaches pid ∧
      (consumeSiweNonce (attempt.consumption pid) tables.nonces).1.1 = true ∧
      openSession env pid attempt tables.sessions = .ok
        (session, (establishSession env pid attempt tables).2.sessions) := by
  by_cases reaches : attempt.Reaches pid
  · refine ⟨reaches, ?_⟩
    rw [establishSession_of_reaches reaches] at opened ⊢
    dsimp only at opened ⊢
    split_ifs at opened ⊢ with rejected
    cases result : openSession env pid attempt tables.sessions with
    | error raised =>
        rw [result] at opened
        cases opened
    | ok pair =>
        rw [result] at opened
        obtain rfl := Except.ok.inj opened
        exact ⟨by simpa using rejected, rfl⟩
  · obtain ⟨⟨raised, refused⟩, -⟩ :=
      establishSession_of_not_reaches env tables reaches
    rw [refused] at opened
    cases opened

/-- No session is ever deleted. -/
theorem establishSession_sessions :
    tables.sessions.rows ⊆
      (establishSession env pid attempt tables).2.sessions.rows := by
  by_cases reaches : attempt.Reaches pid
  · rw [establishSession_of_reaches reaches]
    dsimp only
    split_ifs
    · exact List.Subset.refl _
    · cases result : openSession env pid attempt tables.sessions with
      | error raised => exact List.Subset.refl _
      | ok pair =>
          dsimp only
          rw [(openSession_eq_ok result).2.2.2.1]
          exact List.subset_append_left _ _
  · rw [(establishSession_of_not_reaches env tables reaches).2]
    exact List.Subset.refl _

end Rules

end SiweSession

end RefinetPillars
