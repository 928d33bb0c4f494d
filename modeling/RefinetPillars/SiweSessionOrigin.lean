import RefinetPillars.RunHistory
import RefinetPillars.SiweSession

/-!
# Where sessions come from

A session is opened only against a login challenge of this Pillar: its nonce was
issued for a login, has not been used since, and has not expired.  The rest of
the text is the signer's own: only the statement, the URI, the nonce and the
expiry are looked at.
-/

namespace RefinetPillars

namespace SiweSession

open HexText NonceRegistry SiweMessage RunHistory

variable (env : Environment) (pid : Text)

/-- A challenge that was issued with the nonce, and everything that has
happened since. -/
structure IssuedSince (inputs : List Input) (nonce : Text)
    (request : ChallengeRequest) (later : List Input) : Prop where
  history : ∃ earlier, inputs = later ++ .challenge request :: earlier
  issued : ∃ message, generateChallenge env pid request = .ok (message, nonce)

/-- No attempt since has come as far as looking the nonce up. -/
def Untried (nonce : Text) (later : List Input) : Prop :=
  ∀ attempt, .establish attempt ∈ later → attempt.Reaches pid →
    parseNonce attempt.messageText ≠ nonce

/-- Whether an attempt opens a session after the run. -/
def Opens (inputs : List Input) (attempt : Attempt) : Prop :=
  ∃ session,
    (establishSession env pid attempt (runPillar env pid inputs)).1 =
      .ok session

/-- What the text of an attempt has to do with this Pillar's challenges. -/
structure Authentic (inputs : List Input) (attempt : Attempt) : Prop where
  statement : isBindingMessage attempt.messageText = false
  uri : messageNamesPid attempt.messageText pid = true
  issued : ∃ request later,
    IssuedSince env pid inputs (parseNonce attempt.messageText) request later ∧
      request.purpose = loginPurpose ∧
      attempt.consumedAt ≤
        request.recordedAt + loginNonceTtlSeconds * 1000000 ∧
      Untried pid (parseNonce attempt.messageText) later
  unused : ∀ other earlier, .establish other :: earlier <:+ inputs →
    Opens env pid earlier other →
    parseNonce other.messageText ≠ parseNonce attempt.messageText
  signed : ∃ reason, verifyWalletSignature env attempt.messageText
    attempt.signature attempt.address = .ok (true, reason)
  unexpired : ∃ expiry, parseExpiry env attempt.messageText = .ok expiry ∧
    expiry.aware = true ∧ attempt.now ≤ expiry.micros

/-- A row of the registry comes from a challenge, and if it is unspent it has
not been tried since. -/
def Fresh (inputs : List Input) (row : NonceRow) : Prop :=
  ∃ request later, IssuedSince env pid inputs row.nonce request later ∧
    row.asIssued = (recordingOf pid request row.nonce).row ∧
    (row.spentAt = none → row.nonce ≠ [] → Untried pid row.nonce later)

variable {env pid} {inputs : List Input} {row : NonceRow} {attempt : Attempt}
  {session : Session}

theorem Fresh.of_older {old : NonceRow} {input : Input}
    (fresh : Fresh env pid inputs old)
    (same : row.asIssued = old.asIssued)
    (untried : row.spentAt = none → old.spentAt = none ∧
      (row.nonce ≠ [] → Untried pid row.nonce [input])) :
    Fresh env pid (input :: inputs) row := by
  obtain ⟨request, later, ⟨⟨earlier, history⟩, issued⟩, rowEq, still⟩ := fresh
  have sameNonce : row.nonce = old.nonce := by
    simpa only [NonceRow.asIssued] using congrArg NonceRow.nonce same
  refine ⟨request, input :: later, ⟨⟨earlier, ?_⟩, ?_⟩, ?_, ?_⟩
  · rw [history, List.cons_append]
  · rw [sameNonce]
    exact issued
  · rw [sameNonce, same, rowEq]
  · intro unspent named other member reaches
    obtain ⟨oldUnspent, newest⟩ := untried unspent
    rcases List.mem_cons.mp member with rfl | older
    · exact newest named other (List.mem_singleton_self _) reaches
    · rw [sameNonce]
      exact still oldUnspent (sameNonce ▸ named) other older reaches

theorem untried_of_ne {nonce : Text} {input : Input}
    (silent : ∀ attempt, input ≠ .establish attempt) :
    Untried pid nonce [input] := by
  intro attempt member
  exact (silent attempt (List.mem_singleton.mp member).symm).elim

theorem fresh_runPillar (env : Environment) (pid : Text) (inputs : List Input) :
    ∀ row ∈ (runPillar env pid inputs).nonces.rows,
      Fresh env pid inputs row := by
  induction inputs with
  | nil => exact nofun
  | cons input inputs ih =>
      intro row member
      rw [runPillar, run_cons] at member
      cases input with
      | challenge request =>
          have keeps : ∀ old ∈ (runPillar env pid inputs).nonces.rows,
              Fresh env pid (.challenge request :: inputs) old :=
            fun old oldMem => (ih old oldMem).of_older rfl fun unspent =>
              ⟨unspent, fun _ => untried_of_ne nofun⟩
          simp only [Input.apply, createChallenge] at member
          cases generated : generateChallenge env pid request with
          | error raised =>
              rw [generated] at member
              exact keeps row member
          | ok challenge =>
              obtain ⟨message, nonce⟩ := challenge
              rw [generated] at member
              rcases List.mem_append.mp member with older | newest
              · exact keeps row (List.mem_filter.mp older).1
              · obtain rfl := List.mem_singleton.mp newest
                exact ⟨request, [], ⟨⟨inputs, rfl⟩, message, generated⟩, rfl,
                  fun _ _ => nofun⟩
      | establish attempt =>
          simp only [Input.apply] at member
          rcases establishSession_nonces env pid attempt
              (runPillar env pid inputs) with
            ⟨-, after⟩ | ⟨refused, after⟩
          · rw [after] at member
            obtain ⟨old, oldMem, same, unspentOld⟩ :=
              mem_consumeSiweNonce member
            refine (ih old oldMem).of_older same fun unspent => ?_
            obtain ⟨oldUnspent, differ⟩ := unspentOld unspent
            refine ⟨oldUnspent, fun named other otherMem _ sameNonce => ?_⟩
            obtain rfl : other = attempt := by simpa using otherMem
            have found : (other.consumption pid).nonce = row.nonce := sameNonce
            exact differ (found ▸ named) found.symm
          · rw [after] at member
            refine (ih row member).of_older rfl fun unspent =>
              ⟨unspent, fun _ other otherMem reaches => ?_⟩
            obtain rfl : other = attempt := by simpa using otherMem
            exact (refused reaches).elim
      | purge sweep =>
          exact (ih row (List.mem_filter.mp member).1).of_older rfl
            fun unspent => ⟨unspent, fun _ => untried_of_ne nofun⟩

theorem sessions_apply (input : Input) (tables : Tables) :
    tables.sessions.rows ⊆ (input.apply env pid tables).sessions.rows := by
  cases input with
  | challenge request =>
      simp only [Input.apply, createChallenge]
      cases generateChallenge env pid request <;> exact List.Subset.refl _
  | establish attempt => exact establishSession_sessions
  | purge sweep => exact List.Subset.refl _

/-- The nonce of every session that was ever opened stays in the table. -/
theorem mem_sessions_of_opens {other : Attempt} {earlier : List Input}
    (moment : .establish other :: earlier <:+ inputs)
    (opens : Opens env pid earlier other) :
    parseNonce other.messageText ∈
      (runPillar env pid inputs).sessions.rows.map Session.nonce := by
  induction inputs with
  | nil => cases List.suffix_nil.mp moment
  | cons input inputs ih =>
      rcases List.suffix_cons_iff.mp moment with now | before
      · obtain ⟨rfl, rfl⟩ := List.cons.inj now
        obtain ⟨session, opened⟩ := opens
        have facts := openSession_eq_ok (establishSession_eq_ok opened).2.2
        rw [runPillar, run_cons, Input.apply, facts.2.2.2.1, ← facts.2.2.2.2]
        simp
      · exact List.map_subset _ (sessions_apply input _) (ih before)

/-- A session is opened only by a signed text that names this Pillar and an
unexpired login nonce of it that has not been used before. -/
theorem session_authentic (opens : Opens env pid inputs attempt) :
    Authentic env pid inputs attempt := by
  obtain ⟨session, opened⟩ := opens
  obtain ⟨reaches, consumed, opened⟩ := establishSession_eq_ok opened
  obtain ⟨signed, unexpired, unused, -, -⟩ := openSession_eq_ok opened
  obtain ⟨named, row, member, rowNonce, passes⟩ :=
    exists_row_of_consumed consumed
  have nonceEq : row.nonce = parseNonce attempt.messageText := rowNonce
  obtain ⟨unspent, -, login, inTime⟩ := judge_fst_iff.mp passes
  obtain ⟨request, later, issued, rowEq, untried⟩ :=
    fresh_runPillar env pid inputs row member
  have purpose : request.purpose = loginPurpose := by
    have recorded := congrArg NonceRow.purpose rowEq
    exact recorded.symm.trans login
  have expires : row.expiresAt =
      request.recordedAt + loginNonceTtlSeconds * 1000000 := by
    have recorded := congrArg NonceRow.expiresAt rowEq
    have noBinding : request.purpose ≠ bindingPurpose := by
      rw [purpose]
      decide
    rw [recordingOf, if_neg noBinding] at recorded
    exact recorded
  refine ⟨reaches.1, reaches.2, ⟨request, later, ?_, purpose, ?_, ?_⟩, ?_,
    signed, unexpired⟩
  · exact nonceEq ▸ issued
  · exact inTime.trans_eq expires
  · exact nonceEq ▸ untried unspent (nonceEq ▸ named)
  · intro other earlier moment otherOpens same
    exact unused (same ▸ mem_sessions_of_opens moment otherOpens)

section Examples

instance (env : Environment) (pid : Text) (inputs : List Input)
    (attempt : Attempt) : Decidable (Opens env pid inputs attempt) :=
  match result :
      (establishSession env pid attempt (runPillar env pid inputs)).1 with
  | .ok session => isTrue ⟨session, result⟩
  | .error raised => isFalse fun ⟨session, opened⟩ => by
      rw [result] at opened
      cases opened

def sampleDates : List (Int × Text) :=
  [(0, "1970-01-01T00:00:00+00:00".toList),
    (86400000000, "1970-01-02T00:00:00+00:00".toList)]

/-- Two dates, and signatures that name the account that signed. -/
def sampleEnvironment : Environment where
  isoformat micros :=
    ((sampleDates.find? fun date => date.1 = micros).map Prod.snd).getD []
  fromisoformat text :=
    match sampleDates.find? fun date => date.2 = text with
    | some date => .ok ⟨date.1, true⟩
    | none => .error "Invalid isoformat string"
  int text := if text = ['1'] then some 1 else none
  recoverMessage := some fun _ signature => .ok signature
  acceptedContractChains := [50]
  verifyEip1271 _ _ _ _ := (false, "no RPC endpoint configured for chain 50")

def sampleRequest : ChallengeRequest where
  address := "0xAA".toList
  urandom := List.replicate 16 0xab
  issuedAt := 0
  recordedAt := 0

/-- The text of the challenge, signed by the account it was issued to. -/
def ownAttempt : Attempt where
  address := "0xAA".toList
  messageText :=
    match generateChallenge sampleEnvironment ['p'] sampleRequest with
    | .ok (message, _) => message
    | .error _ => []
  signature := "0xaa".toList
  urandom := [1]
  consumedAt := 5
  now := 6

theorem session_authentic_own :
    Opens sampleEnvironment ['p'] [.challenge sampleRequest] ownAttempt ∧
      Authentic sampleEnvironment ['p'] [.challenge sampleRequest]
        ownAttempt :=
  ⟨by decide +kernel, session_authentic (by decide +kernel)⟩

/-- Another text with the nonce of the challenge, for another domain and
signed by another account. -/
def foreignAttempt : Attempt where
  address := "0xBB".toList
  messageText := [Char.ofNat 10].intercalate
    ["evil.example wants you to sign in with your Ethereum account:".toList,
      "0xBB".toList,
      [],
      "URI: refinet://pillar/p".toList,
      "Nonce: abababababababababababababababab".toList,
      "Expiration Time: 1970-01-02T00:00:00+00:00".toList]
  signature := "0xbb".toList
  urandom := [1]
  consumedAt := 5
  now := 6

theorem session_authentic_foreign :
    ¬ ∀ (env : Environment) (pid : Text) (inputs : List Input)
      (attempt : Attempt), Opens env pid inputs attempt →
      ∃ request, .challenge request ∈ inputs ∧
        generateChallenge env pid request = .ok
          (attempt.messageText, parseNonce attempt.messageText) ∧
        request.address = attempt.address := by
  intro claimed
  obtain ⟨request, member, generated, -⟩ := claimed sampleEnvironment ['p']
    [.challenge sampleRequest] foreignAttempt (by decide +kernel)
  obtain rfl := Input.challenge.inj (List.mem_singleton.mp member)
  exact absurd generated (by decide +kernel)

end Examples

end SiweSession

end RefinetPillars
