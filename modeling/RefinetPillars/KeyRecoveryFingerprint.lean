import RefinetPillars.KeyRecoveryInterpolation

/-!
# Which key a reconstruction gives

Unacceptable shares raise `ValueError` and nothing else.  Accepted shares always
give some key, which is not compared with the fingerprint of the shares.  It has
that fingerprint exactly when the shares are shares of a key that has it.
-/

namespace RefinetPillars

namespace KeyRecovery

open HexText GaloisField256 ExceptRules

/-- The key has the fingerprint of the shares, or there is a `ValueError`. -/
def RecoversOwnKey (shares : List Text) : Prop :=
  match recoverKey shares with
  | .error raised => ∃ message, raised = .valueError message
  | .ok key => ∃ parsed, shares.mapM parseShare = .ok parsed ∧
      ∀ share ∈ parsed, fingerprintOf key = share.fingerprint

/-- The used shares are shares of a key with their fingerprint: the values of
polynomials with few coefficients, whose constant terms spell the key. -/
def ShareOneKey (first : Share) (parsed : List Share) : Prop :=
  ∃ polynomials : List (List UInt8),
    polynomials.length = first.yValues.length ∧
    (∀ coeffs ∈ polynomials, coeffs.length ≤ first.threshold.toNat) ∧
    (∀ share ∈ parsed.take first.threshold.toNat,
      share.OnPolynomials polynomials) ∧
    fingerprintOf (toHex (polynomials.map fun coeffs => coeffs.headD 0)) =
      first.fingerprint

def IsValueError (raised : Raised) : Prop :=
  ∃ message, raised = .valueError message

section Exceptions

theorem raises_parseShare (shareStr : Text) :
    Raises IsValueError (parseShare shareStr) := by
  unfold parseShare
  split
  · cases b64decode : Base64.b64decode (shareStr.drop sharePrefix.length) with
    | none => exact .error ⟨_, rfl⟩
    | some raw =>
        dsimp only
        split
        · exact .error ⟨_, rfl⟩
        · rename_i long
          match raw, long with
          | x :: threshold :: rest, _ => exact .ok
          | [_], long => exact absurd (by simp) long
          | [], long => exact absurd (by simp) long
  · exact .error ⟨_, rfl⟩

theorem raises_checkShares (first : Share) (parsed : List Share) :
    Raises IsValueError (checkShares first parsed) := by
  have each : ∀ share, Raises IsValueError (checkShare first share) := by
    intro share
    unfold checkShare
    split_ifs
    · exact .error ⟨_, rfl⟩
    · exact .error ⟨_, rfl⟩
    · exact .error ⟨_, rfl⟩
    · exact .ok
  have unique : Raises IsValueError
      (if ¬ (parsed.map Share.x).Nodup then
        throw (.valueError "Duplicate shares provided") else pure ()) := by
    split
    · exact .error ⟨_, rfl⟩
    · exact .ok
  unfold checkShares
  by_cases few : parsed.length < first.threshold.toNat
  · rw [if_pos few]
    exact .error ⟨_, rfl⟩
  · rw [if_neg few]
    exact (Raises.forM fun share _ => each share).bind fun _ _ => unique

theorem raises_acceptShares (shares : List Text) :
    Raises IsValueError (acceptShares shares) := by
  unfold acceptShares
  split
  · exact .error ⟨_, rfl⟩
  · rename_i nonempty
    refine (Raises.mapM fun share _ => raises_parseShare share).bind ?_
    intro parsed parsedOk
    cases parsed with
    | nil =>
        cases shares with
        | nil => exact absurd rfl nonempty
        | cons share shares => nomatch mapM_eq_ok.mp parsedOk
    | cons first rest =>
        exact (raises_checkShares first (first :: rest)).bind fun _ _ => .ok

/-- No exception but `ValueError` is raised. -/
theorem raises_recoverKey (shares : List Text) :
    Raises IsValueError (recoverKey shares) := by
  cases accepted : acceptShares shares with
  | error raised =>
      intro other raisedEq
      rw [recoverKey, accepted] at raisedEq
      cases raisedEq
      exact raises_acceptShares shares raised accepted
  | ok value =>
      rw [recoverKey_eq accepted]
      exact .ok

end Exceptions

/-- A reconstruction gives a key with the fingerprint of the shares exactly when
they are rejected or are shares of such a key. -/
theorem recoversOwnKey_iff (shares : List Text) :
    RecoversOwnKey shares ↔
      ∀ first parsed, acceptShares shares = .ok (first, parsed) →
        ShareOneKey first parsed := by
  cases accepted : acceptShares shares with
  | error raised =>
      have rejected : recoverKey shares = .error raised := by
        rw [recoverKey, accepted]
        rfl
      rw [RecoversOwnKey, rejected]
      refine ⟨fun _ _ _ => nofun, fun _ => ?_⟩
      exact raises_acceptShares shares raised accepted
  | ok value =>
      obtain ⟨first, parsed⟩ := value
      obtain ⟨parsedOk, isFirst, consistent⟩ := acceptShares_eq_ok.mp accepted
      rw [RecoversOwnKey, recoverKey_eq accepted]
      constructor
      · rintro ⟨others, othersOk, own⟩ _ _ ⟨⟩
        obtain rfl := Except.ok.inj (parsedOk.symm.trans othersOk)
        obtain ⟨polynomials, count, length, onPolynomials⟩ :=
          consistent.exists_onPolynomials
        have short := fun coeffs member => (length coeffs member).le
        refine ⟨polynomials, count, short, onPolynomials, ?_⟩
        rw [← consistent.recoveredBytes_eq count short onPolynomials]
        exact own first consistent.member
      · intro shared
        obtain ⟨polynomials, count, short, onPolynomials, own⟩ :=
          shared first parsed rfl
        refine ⟨parsed, parsedOk, fun share member => ?_⟩
        rw [consistent.recoveredBytes_eq count short onPolynomials, own,
          consistent.fingerprint share member]

/-- A share of the key `ab`, any two of which give it back, with its byte. -/
def exampleShare (x y : UInt8) : Share :=
  ⟨x, 2, [0xfb, 0x8e, 0x20, 0xfc], [y]⟩

/-- Two shares, of which the first should hold the byte `0xa8`. -/
def corruptedShares : List Share :=
  [exampleShare 1 0xae, exampleShare 2 0xad]

theorem accept_corruptedShares :
    acceptShares (corruptedShares.map Share.encode) =
      .ok (exampleShare 1 0xae, corruptedShares) := by
  decide +kernel

theorem recover_corruptedShares :
    recoverKey (corruptedShares.map Share.encode) = .ok ['a', 'f'] := by
  have consistent := (acceptShares_eq_ok.mp accept_corruptedShares).2.2
  have line : ∀ x, evalPolynomial [0xaf, 1] x = x ^^^ 0xaf := by
    intro x
    rw [evalPolynomial]
    simp [zero_gfMul, one_gfMul]
  have onLine : ∀ share ∈ corruptedShares.take 2,
      share.OnPolynomials [[0xaf, 1]] := by
    simp only [corruptedShares, exampleShare, Share.OnPolynomials, List.map_cons,
      line]
    decide
  have bytes := consistent.recoveredBytes_eq rfl (by decide) onLine
  rw [recoverKey_eq accept_corruptedShares, bytes]
  rfl

/-- They are accepted and give another key. -/
theorem recoversOwnKey_corrupted : ¬ ∀ shares, RecoversOwnKey shares := by
  intro always
  have own := always (corruptedShares.map Share.encode)
  rw [RecoversOwnKey, recover_corruptedShares] at own
  obtain ⟨parsed, parsedOk, fingerprint⟩ := own
  have accepted := (acceptShares_eq_ok.mp accept_corruptedShares).1
  obtain rfl := Except.ok.inj (accepted.symm.trans parsedOk)
  have isFirst := fingerprint (exampleShare 1 0xae) (by simp [corruptedShares])
  exact absurd isFirst (by decide +kernel)

end KeyRecovery

end RefinetPillars
