import Mathlib

/-!
# The field with 256 elements

Bytes are multiplied and divided with tables of logarithms and of the powers of
two modulo the polynomial `0x11D`.  Two generates the nonzero bytes, so bytes
form a field with exclusive or as addition.
-/

namespace RefinetPillars

namespace GaloisField256

/-- The tables: `exp` of 512 powers and `log` of 256 logarithms. -/
structure Tables where
  exp : List UInt8
  log : List Nat

/-- Double a polynomial and reduce it. -/
def doubled (x : Nat) : Nat :=
  let shifted := x <<< 1
  if shifted &&& 0x100 ≠ 0 then shifted ^^^ 0x11D else shifted

/-- The first loop of the initialization, from index `i` on. -/
def fillTables : Nat → Nat → Nat → Tables → Tables
  | 0, _, _, tables => tables
  | remaining + 1, i, x, tables =>
      fillTables remaining (i + 1) (doubled x)
        { exp := tables.exp.set i (UInt8.ofNat x)
          log := tables.log.set x i }

/-- The second loop of the initialization, from index `i` on. -/
def repeatPowers : Nat → Nat → List UInt8 → List UInt8
  | 0, _, exp => exp
  | remaining + 1, i, exp =>
      repeatPowers remaining (i + 1) (exp.set i (exp.getD (i - 255) 0))

def initGf256 : Tables :=
  let tables := fillTables 255 0 1
    ⟨List.replicate 512 0, List.replicate 256 0⟩
  { tables with exp := repeatPowers (512 - 255) 255 tables.exp }

attribute [grind =] fillTables repeatPowers

/-- An entry of `_EXP`. -/
def expAt (index : Nat) : UInt8 := initGf256.exp.getD index 0

/-- The entry of a byte in `_LOG`. -/
def logOf (a : UInt8) : Nat := initGf256.log.getD a.toNat 0

def gfMul (a b : UInt8) : UInt8 :=
  if a = 0 ∨ b = 0 then 0 else expAt (logOf a + logOf b)

attribute [grind =] gfMul

/-- The quotient, unless the divisor is zero. -/
def gfDiv (a b : UInt8) : Option UInt8 :=
  if b = 0 then none
  else if a = 0 then some 0
  else some (expAt (((logOf a : Int) - logOf b) % 255).toNat)

section Doubling

/-- Doubling a byte. -/
def xtime (a : UInt8) : UInt8 := UInt8.ofNat (doubled a.toNat)

theorem doubled_lt {x : Nat} (isByte : x < 256) : doubled x < 256 := by
  have checked : ∀ byte : Fin 256, doubled byte < 256 := by
    decide +kernel
  exact checked ⟨x, isByte⟩

/-- Doubling is linear. -/
theorem doubled_xor (x y : Nat) :
    doubled (x ^^^ y) = doubled x ^^^ doubled y := by
  have topBit : ∀ z : Nat,
      z &&& 0x100 = 0 ∨ z &&& 0x100 = 0x100 := by
    intro z
    rw [show (0x100 : Nat) = 2 ^ 8 from rfl, Nat.and_two_pow]
    cases z.testBit 8 <;> simp
  unfold doubled
  simp only [Nat.shiftLeft_xor_distrib, Nat.and_xor_distrib_right]
  rcases topBit (x <<< 1) with xTop | xTop <;>
    rcases topBit (y <<< 1) with yTop | yTop <;>
    simp [xTop, yTop, Nat.xor_assoc, Nat.xor_comm, Nat.xor_left_comm]

theorem xtime_xor (a b : UInt8) : xtime (a ^^^ b) = xtime a ^^^ xtime b := by
  rw [xtime, UInt8.toNat_xor, doubled_xor, UInt8.ofNat_xor]
  rfl

theorem iterate_xtime_xor (count : Nat) (a b : UInt8) :
    xtime^[count] (a ^^^ b) = xtime^[count] a ^^^ xtime^[count] b := by
  induction count generalizing a b with
  | zero => rfl
  | succ count ih =>
      rw [Function.iterate_succ_apply, xtime_xor, ih]
      rfl

theorem iterate_xtime_zero (count : Nat) : xtime^[count] 0 = 0 :=
  Function.iterate_fixed (by decide) count

end Doubling

section Powers

/-- The powers of two. -/
def power (exponent : Nat) : UInt8 := xtime^[exponent] 1

theorem power_zero : power 0 = 1 := rfl

/-- No byte but zero is doubled to zero, and the powers of two come to one again
after 255 steps and not before. -/
theorem power_table :
    (∀ byte : Fin 256,
        xtime (UInt8.ofNat byte) = 0 → UInt8.ofNat byte = 0) ∧
      power 255 = 1 ∧ ∀ exponent : Fin 254, power (exponent + 1) ≠ 1 := by
  decide +kernel

theorem doubled_iterate_lt (count : Nat) : doubled^[count] 1 < 256 := by
  induction count with
  | zero => decide
  | succ count ih =>
      rw [Function.iterate_succ_apply']
      exact doubled_lt ih

theorem power_eq (exponent : Nat) :
    power exponent = UInt8.ofNat (doubled^[exponent] 1) := by
  induction exponent with
  | zero => rfl
  | succ exponent ih =>
      rw [power, Function.iterate_succ_apply', ← power, ih, xtime,
        Function.iterate_succ_apply', UInt8.toNat_ofNat',
        Nat.mod_eq_of_lt (doubled_iterate_lt exponent)]

theorem toNat_power (exponent : Nat) :
    (power exponent).toNat = doubled^[exponent] 1 := by
  rw [power_eq, UInt8.toNat_ofNat', Nat.mod_eq_of_lt]
  exact doubled_iterate_lt exponent

theorem power_add (first second : Nat) :
    power (first + second) = xtime^[first] (power second) :=
  Function.iterate_add_apply xtime first second 1

theorem power_period (exponent : Nat) : power (exponent + 255) = power exponent := by
  rw [power_add, power_table.2.1, power]

theorem power_mod (exponent : Nat) : power (exponent % 255) = power exponent := by
  induction exponent using Nat.strong_induction_on with
  | _ exponent ih =>
      by_cases small : exponent < 255
      · rw [Nat.mod_eq_of_lt small]
      · obtain ⟨rest, rfl⟩ : ∃ rest, exponent = rest + 255 :=
          ⟨exponent - 255, by omega⟩
        rw [Nat.add_mod_right, ih rest (by omega), power_period]

theorem xtime_injective : Function.Injective xtime := by
  intro a b same
  have vanishes : xtime (a ^^^ b) = 0 := by
    rw [xtime_xor, same, UInt8.xor_self]
  have equal := power_table.1 ⟨(a ^^^ b).toNat, (a ^^^ b).toNat_lt⟩
  rw [UInt8.ofNat_toNat] at equal
  exact UInt8.xor_eq_zero_iff.mp (equal vanishes)

theorem power_ne_zero (exponent : Nat) : power exponent ≠ 0 := by
  intro vanishes
  rw [power, ← iterate_xtime_zero exponent] at vanishes
  exact absurd (xtime_injective.iterate exponent vanishes) (by decide)

/-- Two has order 255. -/
theorem power_injOn {first second : Nat} (firstSmall : first < 255)
    (secondSmall : second < 255) (same : power first = power second) :
    first = second := by
  wlog ordered : first ≤ second generalizing first second
  · exact (this secondSmall firstSmall same.symm (by omega)).symm
  by_contra different
  obtain ⟨gap, rfl⟩ : ∃ gap, second = first + (gap + 1) :=
    ⟨second - first - 1, by omega⟩
  rw [power_add, power] at same
  apply power_table.2.2 ⟨gap, by omega⟩
  exact (xtime_injective.iterate first same).symm

/-- Every nonzero byte is a power of two. -/
theorem exists_power {a : UInt8} (nonzero : a ≠ 0) :
    ∃ exponent < 255, power exponent = a := by
  have powers : (Finset.range 255).image (fun i => (power i).toNat) =
      (Finset.range 256).erase 0 := by
    apply Finset.eq_of_subset_of_card_le
    · intro value valueMem
      obtain ⟨exponent, _, rfl⟩ := Finset.mem_image.mp valueMem
      rw [Finset.mem_erase, Finset.mem_range]
      refine ⟨fun zero => power_ne_zero exponent ?_, UInt8.toNat_lt _⟩
      exact UInt8.toNat_inj.mp zero
    · rw [Finset.card_image_of_injOn, Finset.card_erase_of_mem (by simp),
        Finset.card_range, Finset.card_range]
      intro first firstMem second secondMem same
      exact power_injOn (by simpa using firstMem) (by simpa using secondMem)
        (UInt8.toNat_inj.mp same)
  have isPower : a.toNat ∈ (Finset.range 256).erase 0 := by
    rw [Finset.mem_erase, Finset.mem_range]
    refine ⟨fun zero => nonzero (UInt8.toNat_inj.mp zero), a.toNat_lt⟩
  rw [← powers, Finset.mem_image] at isPower
  obtain ⟨exponent, inRange, same⟩ := isPower
  exact ⟨exponent, by simpa using inRange, UInt8.toNat_inj.mp same⟩

end Powers

section TableEntries

theorem getD_set_ne {Entry : Type*} {entries : List Entry} {i index : Nat}
    {entry other : Entry} (different : i ≠ index) :
    (entries.set i entry).getD index other = entries.getD index other := by
  rw [List.getD_eq_getElem?_getD, List.getElem?_set_ne different,
    List.getD_eq_getElem?_getD]

theorem getD_set_self {Entry : Type*} {entries : List Entry} {i : Nat}
    {entry other : Entry} (inside : i < entries.length) :
    (entries.set i entry).getD i other = entry := by
  rw [List.getD_eq_getElem _ _ (by rw [List.length_set]; exact inside),
    List.getElem_set_self]

theorem length_exp_fillTables (remaining i x : Nat) (tables : Tables) :
    (fillTables remaining i x tables).exp.length = tables.exp.length ∧
      (fillTables remaining i x tables).log.length = tables.log.length := by
  induction remaining generalizing i x tables with
  | zero => exact ⟨rfl, rfl⟩
  | succ remaining ih =>
      obtain ⟨exp, log⟩ := ih (i + 1) (doubled x)
        { exp := tables.exp.set i (UInt8.ofNat x)
          log := tables.log.set x i }
      rw [fillTables, exp, log]
      exact ⟨List.length_set, List.length_set⟩

/-- The first loop writes the powers of its range and keeps the rest. -/
theorem exp_fillTables {remaining i x : Nat} {tables : Tables}
    (room : i + remaining ≤ tables.exp.length) (index : Nat) :
    (fillTables remaining i x tables).exp.getD index 0 =
      if i ≤ index ∧ index < i + remaining
      then UInt8.ofNat (doubled^[index - i] x)
      else tables.exp.getD index 0 := by
  induction remaining generalizing i x tables with
  | zero => rw [if_neg (by omega)]; rfl
  | succ remaining ih =>
      rw [fillTables, ih (by rw [List.length_set]; omega)]
      by_cases later : i + 1 ≤ index ∧ index < i + 1 + remaining
      · have offset : index - i = (index - (i + 1)) + 1 := by omega
        rw [if_pos later, if_pos (by omega), offset,
          Function.iterate_succ_apply]
      · rw [if_neg later]
        by_cases here : index = i
        · subst here
          rw [if_pos (by omega), Nat.sub_self, getD_set_self (by omega)]
          rfl
        · rw [if_neg (by omega), getD_set_ne fun same => here same.symm]

/-- The first loop does not touch the logarithms of values it does not
reach. -/
theorem log_fillTables_of_ne {remaining i x value : Nat} {tables : Tables}
    (unreached : ∀ steps < remaining, doubled^[steps] x ≠ value) :
    (fillTables remaining i x tables).log.getD value 0 =
      tables.log.getD value 0 := by
  induction remaining generalizing i x tables with
  | zero => rfl
  | succ remaining ih =>
      rw [fillTables, ih fun steps few => unreached (steps + 1) (by omega)]
      exact getD_set_ne (unreached 0 (by omega))

/-- The first loop writes the logarithm of every value it reaches once. -/
theorem log_fillTables {remaining i x steps : Nat} {tables : Tables}
    (fits : ∀ other < remaining, doubled^[other] x < tables.log.length)
    (once : ∀ other < remaining, doubled^[other] x = doubled^[steps] x →
      other = steps)
    (reached : steps < remaining) :
    (fillTables remaining i x tables).log.getD (doubled^[steps] x) 0 =
      i + steps := by
  induction remaining generalizing i x steps tables with
  | zero => omega
  | succ remaining ih =>
      rw [fillTables]
      cases steps with
      | zero =>
          rw [log_fillTables_of_ne]
          · exact getD_set_self (fits 0 (by omega))
          · intro other few same
            have := once (other + 1) (by omega) same
            omega
      | succ steps =>
          rw [Function.iterate_succ_apply, ih _ _ (by omega)]
          · omega
          · intro other few
            rw [List.length_set]
            exact fits (other + 1) (by omega)
          · intro other few same
            have := once (other + 1) (by omega) same
            omega

/-- The second loop continues the powers. -/
theorem exp_repeatPowers {remaining i : Nat} {exp : List UInt8}
    (afterFirst : 255 ≤ i) (room : i + remaining ≤ exp.length)
    (before : ∀ index < i, exp.getD index 0 = power index) :
    ∀ index < i + remaining,
      (repeatPowers remaining i exp).getD index 0 = power index := by
  induction remaining generalizing i exp with
  | zero => exact before
  | succ remaining ih =>
      intro index inRange
      rw [repeatPowers]
      refine ih (by omega) (by rw [List.length_set]; omega) ?_ index (by omega)
      intro earlier small
      by_cases here : earlier = i
      · subst here
        rw [getD_set_self (by omega), before _ (by omega), ← power_period]
        congr 1
        omega
      · rw [getD_set_ne fun same => here same.symm, before _ (by omega)]

theorem expAt_eq {index : Nat} (inTable : index < 512) :
    expAt index = power index := by
  apply exp_repeatPowers (by omega) _ _ index inTable
  · rw [(length_exp_fillTables 255 0 1 _).1, List.length_replicate]
  · intro earlier small
    rw [exp_fillTables (by rw [List.length_replicate]; omega),
      if_pos (by omega), power_eq]
    rfl

theorem logOf_power {exponent : Nat} (small : exponent < 255) :
    logOf (power exponent) = exponent := by
  rw [logOf, toNat_power, initGf256, log_fillTables, Nat.zero_add]
  · intro other _
    rw [List.length_replicate]
    exact doubled_iterate_lt other
  · intro other otherSmall same
    refine power_injOn otherSmall small (UInt8.toNat_inj.mp ?_)
    rw [toNat_power, toNat_power, same]
  · exact small

theorem logOf_lt {a : UInt8} (nonzero : a ≠ 0) : logOf a < 255 := by
  obtain ⟨exponent, small, rfl⟩ := exists_power nonzero
  rw [logOf_power small]
  exact small

theorem power_logOf {a : UInt8} (nonzero : a ≠ 0) : power (logOf a) = a := by
  obtain ⟨exponent, small, rfl⟩ := exists_power nonzero
  rw [logOf_power small]

theorem gfMul_of_ne_zero {a b : UInt8} (aNonzero : a ≠ 0) (bNonzero : b ≠ 0) :
    gfMul a b = power (logOf a + logOf b) := by
  have aSmall := logOf_lt aNonzero
  have bSmall := logOf_lt bNonzero
  rw [gfMul, if_neg (not_or.mpr ⟨aNonzero, bNonzero⟩), expAt_eq (by omega)]

theorem gfMul_zero (a : UInt8) : gfMul a 0 = 0 := by simp [gfMul]

theorem zero_gfMul (a : UInt8) : gfMul 0 a = 0 := by simp [gfMul]

/-- Multiplication by a nonzero byte is repeated doubling. -/
theorem gfMul_eq_iterate {a : UInt8} (nonzero : a ≠ 0) (b : UInt8) :
    gfMul a b = xtime^[logOf a] b := by
  by_cases zero : b = 0
  · rw [zero, gfMul_zero, iterate_xtime_zero]
  · rw [gfMul_of_ne_zero nonzero zero, power_add, power_logOf zero]

theorem gfMul_comm (a b : UInt8) : gfMul a b = gfMul b a := by
  simp only [gfMul, or_comm, Nat.add_comm]

theorem one_gfMul (a : UInt8) : gfMul 1 a = a := by
  rw [← power_zero, gfMul_eq_iterate (power_ne_zero 0), logOf_power (by omega)]
  rfl

theorem gfMul_xor (a b c : UInt8) :
    gfMul a (b ^^^ c) = gfMul a b ^^^ gfMul a c := by
  by_cases zero : a = 0
  · rw [zero, zero_gfMul, zero_gfMul, zero_gfMul, UInt8.xor_self]
  · rw [gfMul_eq_iterate zero, gfMul_eq_iterate zero, gfMul_eq_iterate zero,
      iterate_xtime_xor]

theorem gfMul_assoc (a b c : UInt8) :
    gfMul (gfMul a b) c = gfMul a (gfMul b c) := by
  by_cases aZero : a = 0
  · simp [aZero, zero_gfMul]
  by_cases bZero : b = 0
  · simp [bZero, zero_gfMul, gfMul_zero]
  · rw [gfMul_comm _ c, gfMul_comm b c, gfMul_eq_iterate aZero (gfMul c b),
      gfMul_eq_iterate aZero b]
    by_cases cZero : c = 0
    · simp [cZero, zero_gfMul, iterate_xtime_zero]
    · rw [gfMul_eq_iterate cZero, gfMul_eq_iterate cZero,
        ← Function.iterate_add_apply, ← Function.iterate_add_apply,
        Nat.add_comm]

theorem gfMul_power (first second : Nat) :
    gfMul (power first) (power second) = power (first + second) := by
  rw [gfMul_eq_iterate (power_ne_zero first), ← power_add, ← power_mod first,
    logOf_power (Nat.mod_lt _ (by omega)), ← power_mod, Nat.mod_add_mod,
    power_mod]

theorem gfMul_inverse {a : UInt8} (nonzero : a ≠ 0) :
    gfMul a (power (255 - logOf a)) = 1 := by
  have small := logOf_lt nonzero
  calc
    gfMul a (power (255 - logOf a)) =
        gfMul (power (logOf a)) (power (255 - logOf a)) := by
          rw [power_logOf nonzero]
    _ = power (0 + 255) := by
          rw [gfMul_power, Nat.add_sub_cancel' small.le]
    _ = 1 := by rw [power_period, power_zero]

end TableEntries

section Field

/-- A byte as an element of the field. -/
@[ext]
structure GF256 where
  byte : UInt8
deriving DecidableEq

namespace GF256

instance : Zero GF256 := ⟨⟨0⟩⟩

instance : One GF256 := ⟨⟨1⟩⟩

instance : Add GF256 := ⟨fun a b => ⟨a.byte ^^^ b.byte⟩⟩

instance : Neg GF256 := ⟨id⟩

instance : Mul GF256 := ⟨fun a b => ⟨gfMul a.byte b.byte⟩⟩

instance : Inv GF256 :=
  ⟨fun a => if a = 0 then 0 else ⟨power (255 - logOf a.byte)⟩⟩

@[simp]
theorem byte_zero : (0 : GF256).byte = 0 := rfl

@[simp]
theorem byte_add (a b : GF256) : (a + b).byte = a.byte ^^^ b.byte := rfl

@[simp]
theorem byte_mul (a b : GF256) : (a * b).byte = gfMul a.byte b.byte := rfl

theorem byte_ne_zero {a : GF256} (nonzero : a ≠ 0) : a.byte ≠ 0 :=
  fun zero => nonzero (GF256.ext zero)

theorem inv_of_ne_zero {a : GF256} (nonzero : a ≠ 0) :
    a⁻¹ = ⟨power (255 - logOf a.byte)⟩ := if_neg nonzero

theorem mul_inv_of_ne_zero {a : GF256} (nonzero : a ≠ 0) : a * a⁻¹ = 1 := by
  ext
  rw [inv_of_ne_zero nonzero, byte_mul, gfMul_inverse (byte_ne_zero nonzero)]
  rfl

instance : Field GF256 where
  add_assoc a b c := GF256.ext (UInt8.xor_assoc a.byte b.byte c.byte)
  zero_add a := GF256.ext UInt8.zero_xor
  add_zero a := GF256.ext UInt8.xor_zero
  add_comm a b := GF256.ext (UInt8.xor_comm a.byte b.byte)
  neg_add_cancel a := GF256.ext UInt8.xor_self
  left_distrib a b c := GF256.ext (gfMul_xor a.byte b.byte c.byte)
  right_distrib a b c := GF256.ext <| by
    simp only [byte_add, byte_mul]
    rw [gfMul_comm, gfMul_xor, gfMul_comm c.byte, gfMul_comm c.byte]
  zero_mul a := GF256.ext (zero_gfMul a.byte)
  mul_zero a := GF256.ext (gfMul_zero a.byte)
  mul_assoc a b c := GF256.ext (gfMul_assoc a.byte b.byte c.byte)
  one_mul a := GF256.ext (one_gfMul a.byte)
  mul_one a := GF256.ext ((gfMul_comm a.byte 1).trans (one_gfMul a.byte))
  mul_comm a b := GF256.ext (gfMul_comm a.byte b.byte)
  exists_pair_ne := ⟨0, 1, fun same => absurd (congrArg byte same) (by decide)⟩
  mul_inv_cancel _ := mul_inv_of_ne_zero
  inv_zero := if_pos rfl
  nsmul := nsmulRec
  zsmul := zsmulRec
  nnqsmul := _
  qsmul := _

/-- Subtraction is addition. -/
@[simp]
theorem byte_sub (a b : GF256) : (a - b).byte = a.byte ^^^ b.byte := by
  rw [sub_eq_add_neg]
  rfl

/-- The quotient of the code is the quotient of the field. -/
theorem gfDiv_eq {a b : GF256} (nonzero : b ≠ 0) :
    gfDiv a.byte b.byte = some (a / b).byte := by
  rw [gfDiv, if_neg (byte_ne_zero nonzero)]
  by_cases zero : a = 0
  · rw [zero, byte_zero, if_pos rfl, zero_div]
    rfl
  · have aSmall := logOf_lt (byte_ne_zero zero)
    have bSmall := logOf_lt (byte_ne_zero nonzero)
    have exponent : (((logOf a.byte : Int) - logOf b.byte) % 255).toNat =
        (logOf a.byte + (255 - logOf b.byte)) % 255 := by
      omega
    rw [if_neg (byte_ne_zero zero), exponent, expAt_eq (by omega), power_mod,
      div_eq_mul_inv, inv_of_ne_zero nonzero, byte_mul, ← gfMul_power,
      power_logOf (byte_ne_zero zero)]

end GF256

end Field

end GaloisField256

end RefinetPillars
