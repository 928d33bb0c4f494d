import RefinetPillars.ExceptRules
import RefinetPillars.KeyRecovery
import RefinetPillars.PolynomialSharing

/-!
# What the reconstruction computes

The arithmetic of the shares is that of polynomials over the field of bytes, and
accepted shares are reconstructed without an exception, byte by byte, by the
values at zero of the interpolation polynomials.
-/

namespace RefinetPillars

namespace KeyRecovery

open HexText GaloisField256 PolynomialSharing ExceptRules

section Arithmetic

theorem evalPolynomial_eq (coeffs : List UInt8) (x : UInt8) :
    evalPolynomial coeffs x = (valueAt (coeffs.map GF256.mk) ⟨x⟩).byte := by
  rw [evalPolynomial, List.foldl_reverse]
  induction coeffs with
  | nil => rfl
  | cons coeff coeffs ih => rw [List.foldr_cons, ih]; rfl

/-- A point with its coordinates in the field. -/
def fieldPoint (point : UInt8 × UInt8) : GF256 × GF256 :=
  (⟨point.1⟩, ⟨point.2⟩)

theorem divided_eq {x xi xj : UInt8} (different : xj ≠ xi) :
    divided (x ^^^ xj) (xi ^^^ xj) =
      .ok (((⟨x⟩ : GF256) - ⟨xj⟩) / (⟨xi⟩ - ⟨xj⟩)).byte := by
  have nonzero : (⟨xi⟩ : GF256) - ⟨xj⟩ ≠ 0 := by
    intro zero
    exact different (congrArg GF256.byte (sub_eq_zero.mp zero)).symm
  have quotient := GF256.gfDiv_eq (a := (⟨x⟩ : GF256) - ⟨xj⟩) nonzero
  rw [GF256.byte_sub, GF256.byte_sub] at quotient
  rw [divided, quotient]

/-- The inner loop multiplies by the factors of a basis polynomial. -/
theorem lagrangeNumerator_eq {x xi yi : UInt8} {i : Nat}
    {points : List ((UInt8 × UInt8) × Nat)}
    (apart : ∀ point ∈ points, i ≠ point.2 → point.1.1 ≠ xi) :
    lagrangeNumerator x xi yi i points =
      .ok ((⟨yi⟩ : GF256) * (points.map fun point =>
        basisFactor ⟨x⟩ ⟨xi⟩ i (fieldPoint point.1, point.2)).prod).byte := by
  unfold lagrangeNumerator
  induction points generalizing yi with
  | nil => simp [pure, Except.pure]
  | cons point points ih =>
      have rest := fun other member =>
        apart other (List.mem_cons_of_mem point member)
      rw [List.foldlM_cons, List.map_cons, List.prod_cons]
      by_cases same : i = point.2
      · rw [if_neg (by simpa using same), basisFactor, if_neg (by simpa using same),
          one_mul]
        exact ih rest
      · rw [if_pos same, divided_eq (apart point (by simp) same), basisFactor,
          if_pos same, ← mul_assoc]
        exact ih rest

/-- The outer loop sums the terms of the interpolation polynomial. -/
theorem lagrangeSum_eq {x result : UInt8}
    {all points : List ((UInt8 × UInt8) × Nat)}
    (apart : ∀ point ∈ points, ∀ other ∈ all,
      point.2 ≠ other.2 → other.1.1 ≠ point.1.1) :
    points.foldlM (fun result point => do
        let num ← lagrangeNumerator x point.1.1 point.1.2 point.2 all
        return result ^^^ num) result =
      (.ok ((⟨result⟩ : GF256) + (points.map fun point =>
        ⟨point.1.2⟩ * (all.map fun other =>
          basisFactor ⟨x⟩ ⟨point.1.1⟩ point.2
            (fieldPoint other.1, other.2)).prod).sum).byte :
        Except Raised UInt8) := by
  induction points generalizing result with
  | nil => simp [pure, Except.pure]
  | cons point points ih =>
      rw [List.foldlM_cons, lagrangeNumerator_eq (apart point (by simp)),
        List.map_cons, List.sum_cons, ← add_assoc]
      exact ih fun other member => apart other (List.mem_cons_of_mem point member)

theorem lagrangeInterpolate_eq {points : List (UInt8 × UInt8)} (x : UInt8)
    (distinct : (points.map Prod.fst).Nodup) :
    lagrangeInterpolate points x =
      .ok (interpolated (points.map fieldPoint) ⟨x⟩).byte := by
  have apart : ∀ point ∈ points.zipIdx, ∀ other ∈ points.zipIdx,
      point.2 ≠ other.2 → other.1.1 ≠ point.1.1 := by
    rintro ⟨point, i⟩ pointMem ⟨other, j⟩ otherMem different same
    obtain ⟨pointInside, pointEq⟩ := List.mem_zipIdx' pointMem
    obtain ⟨otherInside, otherEq⟩ := List.mem_zipIdx' otherMem
    apply different
    rw [pointEq, otherEq] at same
    exact (@List.Nodup.getElem_inj_iff _ _ distinct i
      (by simpa using pointInside) j (by simpa using otherInside)).mp
      (by simpa using same.symm)
  rw [lagrangeInterpolate, lagrangeSum_eq apart, interpolated, List.zipIdx_map]
  simp only [List.map_map, show (⟨0⟩ : GF256) = 0 from rfl, zero_add]
  rfl

end Arithmetic

section Checks

/-- What accepted shares satisfy. -/
structure Consistent (first : Share) (parsed : List Share) : Prop where
  member : first ∈ parsed
  enough : first.threshold.toNat ≤ parsed.length
  fingerprint : ∀ share ∈ parsed, share.fingerprint = first.fingerprint
  threshold : ∀ share ∈ parsed, share.threshold = first.threshold
  length : ∀ share ∈ parsed, share.yValues.length = first.yValues.length
  distinct : (parsed.map Share.x).Nodup

theorem checkShare_eq_ok {first share : Share} :
    checkShare first share = .ok () ↔
      share.threshold = first.threshold ∧
        share.fingerprint = first.fingerprint ∧
        share.yValues.length = first.yValues.length := by
  unfold checkShare
  split_ifs with threshold fingerprint length <;> simp_all

theorem checkShares_eq_ok {first : Share} {parsed : List Share}
    (member : first ∈ parsed) :
    checkShares first parsed = .ok () ↔ Consistent first parsed := by
  unfold checkShares
  by_cases few : parsed.length < first.threshold.toNat
  · rw [if_pos few]
    exact ⟨nofun, fun consistent => absurd consistent.enough (by omega)⟩
  rw [if_neg few]
  change (parsed.forM (checkShare first) >>= fun _ => _) = .ok () ↔ _
  rw [bind_eq_ok]
  constructor
  · rintro ⟨_, checked, unique⟩
    have checked := fun share inside =>
      checkShare_eq_ok.mp (forM_eq_ok.mp checked share inside)
    refine ⟨member, by omega, fun share inside => (checked share inside).2.1,
      fun share inside => (checked share inside).1,
      fun share inside => (checked share inside).2.2, ?_⟩
    by_contra repeated
    rw [if_pos repeated] at unique
    cases unique
  · intro consistent
    refine ⟨(), forM_eq_ok.mpr fun share inside => checkShare_eq_ok.mpr
      ⟨consistent.threshold share inside, consistent.fingerprint share inside,
        consistent.length share inside⟩, ?_⟩
    rw [if_neg (not_not.mpr consistent.distinct)]
    rfl

theorem acceptShares_eq_ok {shares : List Text} {first : Share}
    {parsed : List Share} :
    acceptShares shares = .ok (first, parsed) ↔
      shares.mapM parseShare = .ok parsed ∧ parsed.head? = some first ∧
        Consistent first parsed := by
  unfold acceptShares
  by_cases none : shares = []
  · rw [if_pos none, none]
    refine ⟨nofun, ?_⟩
    rintro ⟨⟨⟩, ⟨⟩, _⟩
  rw [if_neg none]
  change (shares.mapM parseShare >>= fun _ => _) = _ ↔ _
  rw [bind_eq_ok]
  constructor
  · rintro ⟨shareList, parsedOk, checked⟩
    cases shareList with
    | nil => cases checked
    | cons head rest =>
        obtain ⟨_, valid, same⟩ := bind_eq_ok.mp checked
        obtain ⟨rfl, rfl⟩ := Prod.mk.inj (Except.ok.inj same)
        exact ⟨parsedOk, rfl, (checkShares_eq_ok (by simp)).mp valid⟩
  · rintro ⟨parsedOk, isFirst, consistent⟩
    refine ⟨parsed, parsedOk, ?_⟩
    cases parsed with
    | nil => cases isFirst
    | cons head rest =>
        obtain rfl := Option.some.inj isFirst
        exact bind_eq_ok.mpr
          ⟨(), (checkShares_eq_ok (by simp)).mpr consistent, rfl⟩

end Checks

section Reconstruction

variable {first : Share} {parsed : List Share}

/-- The points that the used shares hold for one byte of the key. -/
def usedPoints (first : Share) (parsed : List Share) (byteIdx : Nat) :
    List (UInt8 × UInt8) :=
  (parsed.take first.threshold.toNat).map fun share =>
    (share.x, share.yValues.getD byteIdx 0)

theorem Consistent.usedPoints_nodup (consistent : Consistent first parsed)
    (byteIdx : Nat) :
    ((usedPoints first parsed byteIdx).map Prod.fst).Nodup := by
  rw [usedPoints, List.map_map]
  exact consistent.distinct.sublist ((List.take_sublist _ _).map Share.x)

/-- The bytes of the reconstructed key. -/
def recoveredBytes (first : Share) (parsed : List Share) : List UInt8 :=
  (List.range first.yValues.length).map fun byteIdx =>
    (interpolated ((usedPoints first parsed byteIdx).map fieldPoint) 0).byte

theorem Consistent.recoverByte_eq (consistent : Consistent first parsed)
    {byteIdx : Nat} (inside : byteIdx < first.yValues.length) :
    recoverByte (parsed.take first.threshold.toNat) byteIdx =
      .ok (interpolated
        ((usedPoints first parsed byteIdx).map fieldPoint) 0).byte := by
  have points : (parsed.take first.threshold.toNat).mapM (sharePoint byteIdx) =
      .ok (usedPoints first parsed byteIdx) := by
    refine mapM_eq_ok_map fun share shareMem => ?_
    have length := consistent.length share (List.mem_of_mem_take shareMem)
    rw [sharePoint, List.getElem?_eq_getElem (by omega),
      List.getD_eq_getElem _ _ (by omega)]
  rw [recoverByte, points]
  exact lagrangeInterpolate_eq 0 (consistent.usedPoints_nodup byteIdx)

/-- Accepted shares are reconstructed. -/
theorem recoverKey_eq {shares : List Text}
    (accepted : acceptShares shares = .ok (first, parsed)) :
    recoverKey shares = .ok (toHex (recoveredBytes first parsed)) := by
  obtain ⟨_, _, consistent⟩ := acceptShares_eq_ok.mp accepted
  have bytes : (List.range first.yValues.length).mapM
      (recoverByte (parsed.take first.threshold.toNat)) =
        .ok (recoveredBytes first parsed) :=
    mapM_eq_ok_map fun byteIdx member =>
      consistent.recoverByte_eq (List.mem_range.mp member)
  exact bind_eq_ok.mpr ⟨_, accepted, bind_eq_ok.mpr ⟨_, bytes, rfl⟩⟩

/-- The bytes of a share are values of the polynomials. -/
def Share.OnPolynomials (share : Share) (polynomials : List (List UInt8)) :
    Prop :=
  share.yValues = polynomials.map fun coeffs => evalPolynomial coeffs share.x

theorem valueAt_zero (coeffs : List UInt8) :
    (valueAt (coeffs.map GF256.mk) 0).byte = coeffs.headD 0 := by
  cases coeffs with
  | nil => rfl
  | cons coeff coeffs =>
      rw [List.map_cons, valueAt_cons, mul_zero, zero_add]
      rfl

theorem Consistent.length_usedPoints (consistent : Consistent first parsed)
    (byteIdx : Nat) :
    (usedPoints first parsed byteIdx).length = first.threshold.toNat := by
  rw [usedPoints, List.length_map, List.length_take]
  exact min_eq_left consistent.enough

theorem Consistent.fieldPoints_nodup (consistent : Consistent first parsed)
    (byteIdx : Nat) :
    (((usedPoints first parsed byteIdx).map fieldPoint).map Prod.fst).Nodup := by
  have nodup := (consistent.usedPoints_nodup byteIdx).map
    (f := GF256.mk) fun _ _ same => congrArg GF256.byte same
  rw [List.map_map] at nodup ⊢
  exact nodup

/-- The points that shares on a polynomial hold are on it in the field. -/
theorem fieldPoints_iff {byteIdx : Nat} {coeffs : List UInt8} :
    (∀ point ∈ (usedPoints first parsed byteIdx).map fieldPoint,
        point.2 = valueAt (coeffs.map GF256.mk) point.1) ↔
      ∀ share ∈ parsed.take first.threshold.toNat,
        share.yValues.getD byteIdx 0 = evalPolynomial coeffs share.x := by
  simp only [usedPoints, List.map_map, List.forall_mem_map, evalPolynomial_eq,
    GF256.ext_iff]
  rfl

/-- Shares on polynomials with few coefficients yield the constant terms. -/
theorem Consistent.recoveredBytes_eq (consistent : Consistent first parsed)
    {polynomials : List (List UInt8)}
    (count : polynomials.length = first.yValues.length)
    (short : ∀ coeffs ∈ polynomials, coeffs.length ≤ first.threshold.toNat)
    (onPolynomials : ∀ share ∈ parsed.take first.threshold.toNat,
      share.OnPolynomials polynomials) :
    recoveredBytes first parsed =
      polynomials.map fun coeffs => coeffs.headD 0 := by
  apply List.ext_getElem
  · simp [recoveredBytes, count]
  intro byteIdx _ inside
  rw [List.length_map] at inside
  have values : ∀ share ∈ parsed.take first.threshold.toNat,
      share.yValues.getD byteIdx 0 =
        evalPolynomial polynomials[byteIdx] share.x := by
    intro share shareMem
    rw [onPolynomials share shareMem, List.getD_eq_getElem _ _ (by simpa),
      List.getElem_map]
  have enough : (polynomials[byteIdx].map GF256.mk).length ≤
      ((usedPoints first parsed byteIdx).map fieldPoint).length := by
    rw [List.length_map, List.length_map, consistent.length_usedPoints]
    exact short _ (List.getElem_mem inside)
  simp only [recoveredBytes, List.getElem_map, List.getElem_range]
  rw [interpolated_eq_valueAt (consistent.fieldPoints_nodup byteIdx) enough
    (fieldPoints_iff.mpr values), valueAt_zero]

/-- The used shares are always on such polynomials. -/
theorem Consistent.exists_onPolynomials (consistent : Consistent first parsed) :
    ∃ polynomials : List (List UInt8),
      polynomials.length = first.yValues.length ∧
      (∀ coeffs ∈ polynomials, coeffs.length = first.threshold.toNat) ∧
      ∀ share ∈ parsed.take first.threshold.toNat,
        share.OnPolynomials polynomials := by
  have curve : ∀ byteIdx, ∃ coeffs : List UInt8,
      coeffs.length = first.threshold.toNat ∧
      ∀ share ∈ parsed.take first.threshold.toNat,
        share.yValues.getD byteIdx 0 = evalPolynomial coeffs share.x := by
    intro byteIdx
    obtain ⟨coefficients, length, values⟩ :=
      exists_valueAt (consistent.fieldPoints_nodup byteIdx)
    have spelled : (coefficients.map GF256.byte).map GF256.mk = coefficients := by
      rw [List.map_map]
      exact List.map_id coefficients
    refine ⟨coefficients.map GF256.byte, ?_, fieldPoints_iff.mp ?_⟩
    · rw [List.length_map, length, List.length_map, consistent.length_usedPoints]
    · rw [spelled]
      exact values
  choose coeffs length values using curve
  refine ⟨(List.range first.yValues.length).map coeffs, by simp, ?_, ?_⟩
  · intro polynomial member
    obtain ⟨byteIdx, _, rfl⟩ := List.mem_map.mp member
    exact length byteIdx
  · intro share shareMem
    have sameLength := consistent.length share (List.mem_of_mem_take shareMem)
    apply List.ext_getElem
    · simp [sameLength]
    · intro byteIdx inside _
      have value := values byteIdx share shareMem
      rw [List.getD_eq_getElem _ _ inside] at value
      simpa using value

end Reconstruction

end KeyRecovery

end RefinetPillars
