import RefinetPillars.KeyRecoveryRoundTrip

/-!
# Too few shares say nothing

For fewer shares than the threshold, flipping bits of the random bytes turns the
shares of one secret into those of another one of the same length.
-/

namespace RefinetPillars

namespace KeyRecovery

open GaloisField256 PolynomialSharing

/-- The random bytes of a split, as many as it draws. -/
def urandomOf {draws : Nat} (drawn : Fin draws → UInt8) (draw : Nat) : UInt8 :=
  if inside : draw < draws then drawn ⟨draw, inside⟩ else 0

/-- Flip bits of the random bytes. -/
def flipped {draws : Nat} (mask : Nat → UInt8) :
    Equiv.Perm (Fin draws → UInt8) :=
  Function.Involutive.toPerm
    (fun drawn draw => drawn draw ^^^ mask draw) fun drawn => by
      funext draw
      dsimp only
      rw [UInt8.xor_assoc, UInt8.xor_self, UInt8.xor_zero]

theorem urandomOf_flipped {draws draw : Nat} (inside : draw < draws)
    (mask : Nat → UInt8) (drawn : Fin draws → UInt8) :
    urandomOf (flipped mask drawn) draw = urandomOf drawn draw ^^^ mask draw := by
  rw [urandomOf, dif_pos inside, urandomOf, dif_pos inside]
  rfl

section OneByte

theorem evalPolynomial_zipWith {first second : List UInt8}
    (length : first.length = second.length) (x : UInt8) :
    evalPolynomial (List.zipWith (· ^^^ ·) first second) x =
      evalPolynomial first x ^^^ evalPolynomial second x := by
  have spelled : (List.zipWith (· ^^^ ·) first second).map GF256.mk =
      List.zipWith (· + ·) (first.map GF256.mk) (second.map GF256.mk) := by
    rw [List.map_zipWith, List.zipWith_map]
    rfl
  rw [evalPolynomial_eq, evalPolynomial_eq, evalPolynomial_eq, spelled,
    valueAt_zipWith (by simpa using length), GF256.byte_add]

/-- Few nonzero points have a polynomial with a given constant term that
vanishes at all of them. -/
theorem exists_byteMask {points : List UInt8} (nonzero : 0 ∉ points)
    {count : Nat} (few : points.length ≤ count) (difference : UInt8) :
    ∃ mask : List UInt8, mask.length = count ∧
      ∀ x ∈ points, evalPolynomial (difference :: mask) x = 0 := by
  have awayFromZero : (0 : GF256) ∉ (points.map GF256.mk).toFinset := by
    rw [List.mem_toFinset, List.mem_map]
    rintro ⟨x, member, isZero⟩
    rw [show x = 0 from congrArg GF256.byte isZero] at member
    exact nonzero member
  have card : (points.map GF256.mk).toFinset.card ≤ count :=
    (List.toFinset_card_le _).trans (by simpa using few)
  obtain ⟨mask, length, vanishes⟩ := exists_mask _ awayFromZero card ⟨difference⟩
  refine ⟨mask.map GF256.byte, by simpa using length, fun x member => ?_⟩
  have spelled : (difference :: mask.map GF256.byte).map GF256.mk =
      ⟨difference⟩ :: mask := by
    rw [List.map_cons, List.map_map]
    exact congrArg _ (List.map_id mask)
  rw [evalPolynomial_eq, spelled, vanishes ⟨x⟩ (by simpa using member)]
  rfl

end OneByte

section AllBytes

variable {draws : Nat} {masks : Nat → List UInt8}

/-- Flip the draws of every byte with the mask of its position. -/
def flipAll (draws : Nat) (masks : Nat → List UInt8) (draw : Nat) : UInt8 :=
  (masks (draw / draws)).getD (draw % draws) 0

theorem flipAll_eq {position draw : Nat} (inside : draw < draws) :
    flipAll draws masks (position * draws + draw) =
      (masks position).getD draw 0 := by
  rw [flipAll, Nat.mul_comm, Nat.mul_add_div (by omega),
    Nat.div_eq_of_lt inside, Nat.add_zero, Nat.mul_add_mod,
    Nat.mod_eq_of_lt inside]

/-- The coefficients of one byte after its draws are flipped. -/
theorem map_urandomOf_flipped {positions position : Nat}
    (inside : position < positions)
    (length : (masks position).length = draws)
    (drawn : Fin (positions * draws) → UInt8) :
    (List.range draws).map (fun draw =>
        urandomOf (flipped (flipAll draws masks) drawn)
          (position * draws + draw)) =
      List.zipWith (· ^^^ ·)
        ((List.range draws).map fun draw =>
          urandomOf drawn (position * draws + draw))
        (masks position) := by
  apply List.ext_getElem
  · simp [length]
  intro draw drawInside _
  rw [List.length_map, List.length_range] at drawInside
  have within : position * draws + draw < positions * draws := by
    calc
      position * draws + draw < (position + 1) * draws := by
        rw [Nat.add_one_mul]
        omega
      _ ≤ positions * draws := Nat.mul_le_mul_right draws inside
  simp only [List.getElem_map, List.getElem_range, List.getElem_zipWith]
  rw [urandomOf_flipped within, flipAll_eq drawInside,
    List.getD_eq_getElem _ _ (by omega)]

/-- The bytes of a dealt share. -/
def dealtBytes (secretBytes : List UInt8) (threshold : Nat)
    (urandom : Nat → UInt8) (shareIdx : Nat) : List UInt8 :=
  (dealtPolynomials secretBytes threshold urandom).map fun coeffs =>
    evalPolynomial coeffs (UInt8.ofNat (shareIdx + 1))

theorem dealtBytes_flipped {threshold : Nat} {first second : List UInt8}
    (sameLength : first.length = second.length)
    (length : ∀ position, (masks position).length = threshold - 1)
    {shareIdx : Nat}
    (vanishes : ∀ position, evalPolynomial
      ((first.getD position 0 ^^^ second.getD position 0) :: masks position)
      (UInt8.ofNat (shareIdx + 1)) = 0)
    (drawn : Fin (first.length * (threshold - 1)) → UInt8) :
    dealtBytes second threshold
        (urandomOf (flipped (flipAll (threshold - 1) masks) drawn)) shareIdx =
      dealtBytes first threshold (urandomOf drawn) shareIdx := by
  apply List.ext_getElem
  · simp [dealtBytes, dealtPolynomials, sameLength]
  intro position inside _
  have inSecond : position < second.length := by
    simpa [dealtBytes, dealtPolynomials] using inside
  have inFirst : position < first.length := by omega
  have byte : second[position] =
      first[position] ^^^ (first[position] ^^^ second[position]) := by
    rw [← UInt8.xor_assoc, UInt8.xor_self, UInt8.zero_xor]
  have zero := vanishes position
  rw [List.getD_eq_getElem _ _ inFirst, List.getD_eq_getElem _ _ inSecond] at zero
  simp only [dealtBytes, dealtPolynomials, List.getElem_map,
    List.getElem_zipIdx, Nat.zero_add]
  rw [map_urandomOf_flipped inFirst (length position), byte]
  change evalPolynomial (List.zipWith (· ^^^ ·) (_ :: _) (_ :: _)) _ = _
  rw [evalPolynomial_zipWith (by simp [length]), zero, UInt8.xor_zero]

end AllBytes

section Secrecy

/-- The bytes of fewer shares than the threshold are the same for two secrets
of one length, after a bijection of the random bytes drawn. -/
theorem split_secrecy {threshold numShares : Nat} {indices : List Nat}
    (atMost : numShares ≤ 255)
    (inRange : ∀ shareIdx ∈ indices, shareIdx < numShares)
    (few : indices.length ≤ threshold - 1) {first second : List UInt8}
    (sameLength : first.length = second.length) :
    ∃ bijection : Equiv.Perm (Fin (first.length * (threshold - 1)) → UInt8),
      ∀ drawn firstFingerprint secondFingerprint, ∀ shareIdx ∈ indices,
        ∃ firstShare secondShare,
          (assembleShares
            (splitBytes first threshold numShares (urandomOf drawn))
            threshold numShares firstFingerprint)[shareIdx]? =
              some firstShare ∧
          (assembleShares
            (splitBytes second threshold numShares
              (urandomOf (bijection drawn)))
            threshold numShares secondFingerprint)[shareIdx]? =
              some secondShare ∧
          firstShare.yValues = secondShare.yValues := by
  have nonzero : 0 ∉ indices.map fun shareIdx => UInt8.ofNat (shareIdx + 1) := by
    intro member
    obtain ⟨shareIdx, shareMem, zero⟩ := List.mem_map.mp member
    have small := inRange shareIdx shareMem
    have value := congrArg UInt8.toNat zero
    rw [UInt8.toNat_ofNat'] at value
    simp only [UInt8.toNat_zero] at value
    omega
  choose masks length vanishes using fun position => exists_byteMask nonzero
    (by simpa using few) (first.getD position 0 ^^^ second.getD position 0)
  refine ⟨flipped (flipAll (threshold - 1) masks), ?_⟩
  intro drawn firstFingerprint secondFingerprint shareIdx member
  have inside := inRange shareIdx member
  have zero := fun position => vanishes position _ (List.mem_map_of_mem member)
  refine ⟨_, _, List.getElem?_eq_getElem (by simpa [assembleShares]),
    List.getElem?_eq_getElem (by simpa [assembleShares]), ?_⟩
  simp only [assembleShares, List.getElem_map, List.getElem_range]
  rw [map_splitBytes inside, map_splitBytes inside]
  exact (dealtBytes_flipped sameLength length zero drawn).symm

/-- The first and the last of five shares, when three are needed. -/
theorem split_secrecy_twoOfFive :
    ∃ bijection : Equiv.Perm (Fin (2 * 2) → UInt8),
      ∀ drawn firstFingerprint secondFingerprint, ∀ shareIdx ∈ [0, 4],
        ∃ firstShare secondShare,
          (assembleShares (splitBytes [0x00, 0xab] 3 5 (urandomOf drawn))
            3 5 firstFingerprint)[shareIdx]? = some firstShare ∧
          (assembleShares
            (splitBytes [0xff, 0x01] 3 5 (urandomOf (bijection drawn)))
            3 5 secondFingerprint)[shareIdx]? = some secondShare ∧
          firstShare.yValues = secondShare.yValues :=
  @split_secrecy 3 5 [0, 4] (by decide) (by decide) (by decide)
    [0x00, 0xab] [0xff, 0x01] rfl

end Secrecy

end KeyRecovery

end RefinetPillars
