import Mathlib

/-!
# Sharing a secret by a polynomial

A secret is the constant term of a polynomial, given by the list of its
coefficients, and the shares are values of the polynomial.  As many shares as
there are coefficients determine the secret.  Fewer shares away from zero say
nothing about it, since another secret yields the same shares after the other
coefficients are shifted.
-/

namespace RefinetPillars

namespace PolynomialSharing

variable {K : Type*} [Field K]

open Polynomial

/-- The value of the polynomial with the coefficients, constant term first. -/
def valueAt (coefficients : List K) (x : K) : K :=
  coefficients.foldr (fun coefficient value => value * x + coefficient) 0

/-- The polynomial of a list of coefficients. -/
noncomputable def ofCoefficients (coefficients : List K) : K[X] :=
  coefficients.foldr (fun coefficient rest => rest * X + C coefficient) 0

@[simp]
theorem valueAt_nil (x : K) : valueAt [] x = 0 := rfl

@[simp]
theorem valueAt_cons (coefficient : K) (coefficients : List K) (x : K) :
    valueAt (coefficient :: coefficients) x =
      valueAt coefficients x * x + coefficient := rfl

theorem ofCoefficients_cons (coefficient : K) (coefficients : List K) :
    ofCoefficients (coefficient :: coefficients) =
      ofCoefficients coefficients * X + C coefficient := rfl

theorem eval_ofCoefficients (coefficients : List K) (x : K) :
    (ofCoefficients coefficients).eval x = valueAt coefficients x := by
  induction coefficients with
  | nil => exact eval_zero
  | cons coefficient coefficients ih =>
      rw [ofCoefficients_cons, eval_add, eval_mul, eval_X, eval_C, ih,
        valueAt_cons]

theorem coeff_ofCoefficients (coefficients : List K) (index : Nat) :
    (ofCoefficients coefficients).coeff index =
      coefficients.getD index 0 := by
  induction coefficients generalizing index with
  | nil => rfl
  | cons coefficient coefficients ih =>
      rw [ofCoefficients_cons, coeff_add]
      cases index with
      | zero => rw [coeff_mul_X_zero, coeff_C_zero, zero_add]; rfl
      | succ index =>
          rw [coeff_mul_X, coeff_C_succ, add_zero, ih]
          rfl

theorem degree_ofCoefficients (coefficients : List K) :
    (ofCoefficients coefficients).degree < coefficients.length := by
  rw [degree_lt_iff_coeff_zero]
  intro index beyond
  rw [coeff_ofCoefficients, List.getD_eq_default _ _ beyond]

/-- Every polynomial of small degree has a list of coefficients. -/
theorem exists_coefficients {polynomial : K[X]} {count : Nat}
    (small : polynomial.degree < count) :
    ∃ coefficients : List K, coefficients.length = count ∧
      ofCoefficients coefficients = polynomial := by
  refine ⟨(List.range count).map polynomial.coeff, by simp, ?_⟩
  ext index
  rw [coeff_ofCoefficients, List.getD_eq_getElem?_getD]
  by_cases inside : index < count
  · simp [inside]
  · rw [degree_lt_iff_coeff_zero] at small
    simp [inside, small index (by omega)]

section Interpolation

/-- One factor of a basis polynomial at the point `x`. -/
def basisFactor (x xi : K) (i : Nat) (point : (K × K) × Nat) : K :=
  if i ≠ point.2 then (x - point.1.1) / (xi - point.1.1) else 1

/-- The value at `x` of the polynomial through the points. -/
def interpolated (points : List (K × K)) (x : K) : K :=
  (points.zipIdx.map fun point =>
    point.1.2 * (points.zipIdx.map (basisFactor x point.1.1 point.2)).prod).sum

theorem zipIdx_eq_ofFn {Entry : Type*} (entries : List Entry) :
    entries.zipIdx =
      List.ofFn fun i : Fin entries.length => (entries[i], (i : Nat)) := by
  apply List.ext_getElem
  · simp
  · intro index _ _
    simp

/-- The sum of the code is the interpolation polynomial at the point. -/
theorem interpolated_eq_eval (points : List (K × K)) (x : K) :
    interpolated points x =
      (Lagrange.interpolate Finset.univ
        (fun i : Fin points.length => points[i].1)
        (fun i => points[i].2)).eval x := by
  rw [interpolated, zipIdx_eq_ofFn, List.map_ofFn, List.sum_ofFn,
    Lagrange.interpolate_apply, eval_finsetSum]
  refine Finset.sum_congr rfl fun i _ => ?_
  rw [eval_mul, eval_C, Function.comp_apply, List.map_ofFn, List.prod_ofFn,
    Lagrange.basis, eval_prod, ← Finset.mul_prod_erase _ _ (Finset.mem_univ i)]
  congr 1
  simp only [Function.comp_apply, basisFactor]
  rw [if_neg (by simp), one_mul]
  refine Finset.prod_congr rfl fun j different => ?_
  have apart : (i : Nat) ≠ j :=
    fun same => Finset.ne_of_mem_erase different (Fin.ext same.symm)
  rw [if_pos apart, Lagrange.basisDivisor, eval_mul, eval_C, eval_sub, eval_X,
    eval_C, div_eq_inv_mul]

omit [Field K] in
theorem injOn_of_nodup {points : List (K × K)}
    (distinct : (points.map Prod.fst).Nodup) :
    Set.InjOn (fun i : Fin points.length => points[i].1)
      (Finset.univ : Finset (Fin points.length)) := by
  intro i _ j _ same
  exact Fin.ext <| (@List.Nodup.getElem_inj_iff _ _ distinct i (by simp) j
    (by simp)).mp (by simpa using same)

/-- Enough points of a polynomial determine its values. -/
theorem interpolated_eq_valueAt {points : List (K × K)}
    {coefficients : List K} (distinct : (points.map Prod.fst).Nodup)
    (enough : coefficients.length ≤ points.length)
    (onCurve : ∀ point ∈ points, point.2 = valueAt coefficients point.1)
    (x : K) : interpolated points x = valueAt coefficients x := by
  rw [interpolated_eq_eval, ← eval_ofCoefficients,
    ← Lagrange.eq_interpolate_of_eval_eq _ (injOn_of_nodup distinct)]
  · rw [Finset.card_univ, Fintype.card_fin]
    exact (degree_ofCoefficients coefficients).trans_le (by exact_mod_cast enough)
  · intro i _
    rw [eval_ofCoefficients]
    exact (onCurve _ (List.getElem_mem _)).symm

/-- Points with different arguments are on a polynomial with as many
coefficients. -/
theorem exists_valueAt {points : List (K × K)}
    (distinct : (points.map Prod.fst).Nodup) :
    ∃ coefficients : List K, coefficients.length = points.length ∧
      ∀ point ∈ points, point.2 = valueAt coefficients point.1 := by
  have injective := injOn_of_nodup distinct
  have degree := Lagrange.degree_interpolate_lt
    (fun i : Fin points.length => points[i].2) injective
  rw [Finset.card_univ, Fintype.card_fin] at degree
  obtain ⟨coefficients, length, polynomial⟩ := exists_coefficients degree
  refine ⟨coefficients, length, fun point pointMem => ?_⟩
  obtain ⟨index, inside, rfl⟩ := List.mem_iff_getElem.mp pointMem
  rw [← eval_ofCoefficients, polynomial]
  exact (Lagrange.eval_interpolate_at_node (fun i => points[i].2) injective
    (Finset.mem_univ ⟨index, inside⟩)).symm

end Interpolation

section Masking

theorem valueAt_zipWith {first second : List K}
    (length : first.length = second.length) (x : K) :
    valueAt (List.zipWith (· + ·) first second) x =
      valueAt first x + valueAt second x := by
  induction first generalizing second with
  | nil => simp [List.length_eq_zero_iff.mp length.symm]
  | cons a first ih =>
      cases second with
      | nil => simp at length
      | cons b second =>
          rw [List.zipWith_cons_cons, valueAt_cons, valueAt_cons, valueAt_cons,
            ih (by simpa using length)]
          ring

/-- For few points away from zero there is a polynomial with any given constant
term that vanishes at all of them. -/
theorem exists_mask (points : Finset K) (awayFromZero : (0 : K) ∉ points)
    {count : Nat} (few : points.card ≤ count) (constant : K) :
    ∃ mask : List K, mask.length = count ∧
      ∀ x ∈ points, valueAt (constant :: mask) x = 0 := by
  let nodal := Lagrange.nodal points id
  have atZero : nodal.eval 0 ≠ 0 :=
    Lagrange.eval_nodal_not_at_node fun point member zero =>
      awayFromZero (by rw [zero]; exact member)
  have degree :
      (C (constant / nodal.eval 0) * nodal).degree < (count + 1 : Nat) := by
    rw [C_mul']
    refine (degree_smul_le _ _).trans_lt ?_
    rw [Lagrange.degree_nodal]
    exact_mod_cast Nat.lt_succ_of_le few
  obtain ⟨coefficients, length, spelled⟩ := exists_coefficients degree
  obtain ⟨first, mask, rfl⟩ : ∃ first mask, coefficients = first :: mask :=
    List.exists_cons_of_length_eq_add_one length
  have values : ∀ x, valueAt (first :: mask) x =
      constant / nodal.eval 0 * nodal.eval x := by
    intro x
    rw [← eval_ofCoefficients, spelled, eval_mul, eval_C]
  have isConstant : first = constant := by
    have zeroValue := values 0
    rw [valueAt_cons, mul_zero, zero_add, div_mul_cancel₀ _ atZero] at zeroValue
    exact zeroValue
  refine ⟨mask, by simpa using length, fun x member => ?_⟩
  have vanishes : nodal.eval (id x) = 0 := Lagrange.eval_nodal_at_node member
  rw [id_eq] at vanishes
  rw [← isConstant, values, vanishes, mul_zero]

end Masking

end PolynomialSharing

end RefinetPillars
