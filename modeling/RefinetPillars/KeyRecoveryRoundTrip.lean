import RefinetPillars.KeyRecoveryInterpolation

/-!
# Enough shares give the key back

A split deals out shares of one polynomial for each byte.  Any list of enough
different ones among them passes the checks and is reconstructed to the key.
-/

namespace RefinetPillars

namespace KeyRecovery

open HexText Base64 GaloisField256 Sha256 ExceptRules

section Dealing

/-- The polynomials that a split draws, one for each byte. -/
def dealtPolynomials (secretBytes : List UInt8) (threshold : Nat)
    (urandom : Nat → UInt8) : List (List UInt8) :=
  secretBytes.zipIdx.map fun byte =>
    byte.1 :: (List.range (threshold - 1)).map fun draw =>
      urandom (byte.2 * (threshold - 1) + draw)

/-- The share with an index. -/
def dealtShare (polynomials : List (List UInt8)) (threshold : Nat)
    (fingerprint : List UInt8) (shareIdx : Nat) : Share :=
  { x := UInt8.ofNat (shareIdx + 1)
    threshold := UInt8.ofNat threshold
    fingerprint := fingerprint
    yValues := polynomials.map fun coeffs =>
      evalPolynomial coeffs (UInt8.ofNat (shareIdx + 1)) }

theorem splitByte_getD {numShares shareIdx : Nat}
    (inside : shareIdx < numShares) (byte : UInt8) (threshold : Nat)
    (draws : Nat → UInt8) :
    (splitByte byte threshold numShares draws).getD shareIdx (0, 0) =
      (UInt8.ofNat (shareIdx + 1), evalPolynomial
        (byte :: (List.range (threshold - 1)).map draws)
        (UInt8.ofNat (shareIdx + 1))) := by
  rw [List.getD_eq_getElem _ _ (by simpa [splitByte] using inside)]
  simp [splitByte]

/-- The bytes of a share are values of the polynomials. -/
theorem map_splitBytes {numShares shareIdx : Nat}
    (inside : shareIdx < numShares) (secretBytes : List UInt8)
    (threshold : Nat) (urandom : Nat → UInt8) :
    (splitBytes secretBytes threshold numShares urandom).map
        (fun byteShares => (byteShares.getD shareIdx (0, 0)).2) =
      (dealtPolynomials secretBytes threshold urandom).map fun coeffs =>
        evalPolynomial coeffs (UInt8.ofNat (shareIdx + 1)) := by
  rw [splitBytes, dealtPolynomials, List.map_map, List.map_map]
  exact List.map_congr_left fun byte _ =>
    congrArg Prod.snd (splitByte_getD inside byte.1 threshold _)

theorem assembleShares_splitBytes {secretBytes : List UInt8}
    (nonempty : secretBytes ≠ []) (threshold numShares : Nat)
    (urandom : Nat → UInt8) (fingerprint : List UInt8) :
    assembleShares (splitBytes secretBytes threshold numShares urandom)
        threshold numShares fingerprint =
      (List.range numShares).map (dealtShare
        (dealtPolynomials secretBytes threshold urandom) threshold
        fingerprint) := by
  refine List.map_congr_left fun shareIdx member => ?_
  have inside := List.mem_range.mp member
  have firstShares : ∃ byte draws,
      (splitBytes secretBytes threshold numShares urandom).getD 0 [] =
        splitByte byte threshold numShares draws := by
    cases secretBytes with
    | nil => exact absurd rfl nonempty
    | cons byte rest => exact ⟨byte, _, rfl⟩
  obtain ⟨byte, draws, isFirst⟩ := firstShares
  rw [isFirst, splitByte_getD inside, map_splitBytes inside, dealtShare]

theorem length_dealtPolynomials (secretBytes : List UInt8) (threshold : Nat)
    (urandom : Nat → UInt8) :
    (dealtPolynomials secretBytes threshold urandom).length =
      secretBytes.length := by
  simp [dealtPolynomials]

theorem dealtPolynomials_short {secretBytes : List UInt8} {threshold : Nat}
    (positive : 0 < threshold) {urandom : Nat → UInt8} :
    ∀ coeffs ∈ dealtPolynomials secretBytes threshold urandom,
      coeffs.length = threshold := by
  intro coeffs member
  obtain ⟨byte, _, rfl⟩ := List.mem_map.mp member
  rw [List.length_cons, List.length_map, List.length_range]
  omega

/-- The constant terms are the secret. -/
theorem map_headD_dealtPolynomials (secretBytes : List UInt8) (threshold : Nat)
    (urandom : Nat → UInt8) :
    (dealtPolynomials secretBytes threshold urandom).map
      (fun coeffs => coeffs.headD 0) = secretBytes := by
  rw [dealtPolynomials, List.map_map]
  exact List.zipIdx_map_fst 0 secretBytes

end Dealing

section Texts

theorem parseShare_encode {share : Share}
    (fingerprint : share.fingerprint.length = 4)
    (nonempty : share.yValues ≠ []) :
    parseShare share.encode = .ok share := by
  have some : 0 < share.yValues.length := List.length_pos_iff.mpr nonempty
  have isPrefix : sharePrefix.isPrefixOf share.encode = true := by
    rw [List.isPrefixOf_iff_prefix]
    exact List.prefix_append _ _
  have payload : share.encode.drop sharePrefix.length = b64encode
      (share.x :: share.threshold :: share.fingerprint ++ share.yValues) :=
    List.drop_left
  rw [parseShare, if_pos isPrefix, payload, b64decode_b64encode]
  have long : ¬ (share.x :: share.threshold :: share.fingerprint ++
      share.yValues).length < 7 := by
    simp only [List.cons_append, List.length_cons, List.length_append,
      fingerprint]
    omega
  dsimp only
  rw [if_neg long]
  dsimp only [List.cons_append]
  rw [← fingerprint, List.take_left, List.drop_left]

theorem length_fingerprintOf (privateKeyHex : Text) :
    (fingerprintOf privateKeyHex).length = 4 := by
  rw [fingerprintOf, List.length_take, length_sha256]
  rfl

end Texts

section RoundTrip

variable {polynomials : List (List UInt8)} {threshold : Nat}
  {fingerprint : List UInt8} {indices : List Nat}

/-- Different dealt shares pass the checks. -/
theorem consistent_dealt (polynomials : List (List UInt8))
    (fingerprint : List UInt8) (positive : 0 < threshold) (small : threshold ≤ 255)
    (inRange : ∀ shareIdx ∈ indices, shareIdx < 255) (distinct : indices.Nodup)
    (enough : threshold ≤ indices.length) :
    ∃ first, (indices.map (dealtShare polynomials threshold
        fingerprint)).head? = some first ∧
      first.threshold.toNat = threshold ∧
      Consistent first (indices.map (dealtShare polynomials threshold
        fingerprint)) := by
  cases indices with
  | nil => exact absurd enough (Nat.not_le.mpr positive)
  | cons shareIdx rest =>
      have threshold_toNat : (UInt8.ofNat threshold).toNat = threshold := by
        rw [UInt8.toNat_ofNat']
        omega
      refine ⟨dealtShare polynomials threshold fingerprint shareIdx, rfl,
        threshold_toNat, by simp, ?_, ?_, ?_, ?_, ?_⟩
      · rw [List.length_map]
        exact threshold_toNat.trans_le enough
      · rw [List.forall_mem_map]
        exact fun _ _ => rfl
      · rw [List.forall_mem_map]
        exact fun _ _ => rfl
      · rw [List.forall_mem_map]
        intro other _
        rw [dealtShare, dealtShare, List.length_map, List.length_map]
      · rw [List.map_map]
        refine List.Nodup.map_on ?_ distinct
        intro one oneMem other otherMem same
        have oneSmall := inRange one oneMem
        have otherSmall := inRange other otherMem
        have index := congrArg UInt8.toNat same
        simp only [Function.comp_apply, dealtShare, UInt8.toNat_ofNat'] at index
        omega

/-- Enough different dealt shares spell the constant terms. -/
theorem recoverKey_dealt (positive : 0 < threshold) (small : threshold ≤ 255)
    (inRange : ∀ shareIdx ∈ indices, shareIdx < 255) (distinct : indices.Nodup)
    (enough : threshold ≤ indices.length)
    (fingerprintLength : fingerprint.length = 4)
    (nonempty : polynomials ≠ [])
    (short : ∀ coeffs ∈ polynomials, coeffs.length ≤ threshold) :
    recoverKey (indices.map fun shareIdx =>
        (dealtShare polynomials threshold fingerprint shareIdx).encode) =
      .ok (toHex (polynomials.map fun coeffs => coeffs.headD 0)) := by
  obtain ⟨first, isFirst, thresholdEq, consistent⟩ :=
    consistent_dealt polynomials fingerprint positive small inRange distinct
      enough
  have parsed : (indices.map fun shareIdx =>
      (dealtShare polynomials threshold fingerprint shareIdx).encode).mapM
        parseShare =
      .ok (indices.map (dealtShare polynomials threshold fingerprint)) := by
    rw [mapM_eq_ok, List.forall₂_map_left_iff, List.forall₂_map_right_iff,
      List.forall₂_same]
    intro shareIdx _
    exact parseShare_encode fingerprintLength (by simpa [dealtShare] using nonempty)
  have count : polynomials.length = first.yValues.length := by
    obtain ⟨shareIdx, _, rfl⟩ := List.mem_map.mp consistent.member
    simp [dealtShare]
  rw [recoverKey_eq (acceptShares_eq_ok.mpr ⟨parsed, isFirst, consistent⟩),
    consistent.recoveredBytes_eq count]
  · rw [thresholdEq]
    exact short
  · intro share shareMem
    obtain ⟨shareIdx, _, rfl⟩ := List.mem_map.mp (List.mem_of_mem_take shareMem)
    rfl

/-- A list of dealt texts is a list of indices. -/
theorem exists_indices {numShares : Nat} {texts chosen : List Text}
    {deal : Nat → Text} (dealt : texts = (List.range numShares).map deal)
    (among : ∀ text ∈ chosen, text ∈ texts) :
    ∃ indices : List Nat, (∀ shareIdx ∈ indices, shareIdx < numShares) ∧
      indices.map deal = chosen := by
  induction chosen with
  | nil => exact ⟨[], by simp, rfl⟩
  | cons text chosen ih =>
      rw [List.forall_mem_cons] at among
      obtain ⟨indices, inRange, rfl⟩ := ih among.2
      rw [dealt] at among
      obtain ⟨shareIdx, member, rfl⟩ := List.mem_map.mp among.1
      refine ⟨shareIdx :: indices, ?_, rfl⟩
      rw [List.forall_mem_cons]
      exact ⟨List.mem_range.mp member, inRange⟩

/-- Any list of at least `threshold` distinct shares of a secret gives the
secret back, whatever random bytes were drawn. -/
theorem recoverKey_splitKey {secret : Text} {threshold numShares : Nat}
    (nonempty : secret ≠ []) (even : Even secret.length)
    (lowerHex : ∀ character ∈ secret, isLowerHexDigit character = true)
    (atLeastTwo : 2 ≤ threshold) (ordered : threshold ≤ numShares)
    (atMost : numShares ≤ 255) (urandom : Nat → UInt8) :
    ∃ shares, splitKey secret threshold numShares urandom = .ok shares ∧
      shares.length = numShares ∧
      ∀ chosen : List Text, chosen.Nodup → (∀ share ∈ chosen, share ∈ shares) →
        threshold ≤ chosen.length → recoverKey chosen = .ok secret := by
  obtain ⟨secretBytes, rfl⟩ := exists_toHex even lowerHex
  have bytesNonempty : secretBytes ≠ [] := by
    rintro rfl
    exact nonempty rfl
  let polynomials := dealtPolynomials secretBytes threshold urandom
  let deal := fun shareIdx => (dealtShare polynomials threshold
    (fingerprintOf (toHex secretBytes)) shareIdx).encode
  refine ⟨(List.range numShares).map deal, ?_, by simp, ?_⟩
  · rw [splitKey, if_neg (by omega), if_neg (by omega), if_neg (by omega),
      fromHex_toHex]
    dsimp only
    rw [if_neg bytesNonempty, assembleShares_splitBytes bytesNonempty,
      List.map_map]
    rfl
  · intro chosen distinct among enough
    obtain ⟨indices, inRange, rfl⟩ := exists_indices rfl among
    have polynomialsNonempty : polynomials ≠ [] := by
      rw [← List.length_pos_iff, length_dealtPolynomials, List.length_pos_iff]
      exact bytesNonempty
    rw [recoverKey_dealt (by omega) (by omega)
      (fun shareIdx member => (inRange shareIdx member).trans_le atMost)
      (distinct.of_map deal) (by simpa using enough) (length_fingerprintOf _)
      polynomialsNonempty
      (fun coeffs member => (dealtPolynomials_short (by omega) _ member).le),
      map_headD_dealtPolynomials]

/-- A key with a leading zero byte in three shares, any two of which do. -/
theorem recoverKey_splitKey_leadingZero :
    ∃ shares, splitKey ['0', '0', 'a', 'b'] 2 3 UInt8.ofNat = .ok shares ∧
      shares.length = 3 ∧
      ∀ chosen : List Text, chosen.Nodup → (∀ share ∈ chosen, share ∈ shares) →
        2 ≤ chosen.length → recoverKey chosen = .ok ['0', '0', 'a', 'b'] :=
  recoverKey_splitKey (by decide) (by decide) (by simp [isLowerHexDigit])
    (by decide) (by decide) (by decide) UInt8.ofNat

end RoundTrip

end KeyRecovery

end RefinetPillars
