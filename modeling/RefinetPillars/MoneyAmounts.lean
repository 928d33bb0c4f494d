import RefinetPillars.ChainDiscovery
import RefinetPillars.DecimalFractions
import RefinetPillars.DictUpdates

/-!
# Amounts of money

Amounts are integers in the smallest unit of an asset, kept as texts.  They are
added for each asset by itself, and shown with a point and so many digits after
it.
-/

namespace RefinetPillars

namespace MoneyAmounts

open ChainDiscovery (isDecimal maxStrDigits)
open DecimalFractions DecimalText HexText LineText OrderedDict

section Amounts

/-- `int(str(…))`, which refuses numbers of too many digits. -/
def intOf (text : Text) : Option Int :=
  if maxStrDigits < text.countP isDecimal then none else int text

/-- An amount as it is handed on. -/
inductive Amount where
  | missing
  | number (value : Int)
  | text (written : Text)

/-- Texts that are no numbers raise an exception. -/
def toUnits : Amount → Option Int
  | .missing => some 0
  | .number value => intOf (intText value)
  | .text written => if written = [] then some 0 else intOf written

/-- A row of a ledger, which may lack the column of the amount. -/
structure Row where
  chainId : Option Int
  address : Option Text
  decimals : Option Int
  amountUnits : Option Amount

abbrev AssetKey := Option Int × Text × Option Int

variable (lower : Text → Text)

def assetKey (row : Row) : AssetKey :=
  (row.chainId, lower (row.address.getD []), row.decimals)

/-- One round of the loop of `fold_units`. -/
def addUnits (total : Int) (row : Row) : Option Int :=
  match row.amountUnits with
  | none => some total
  | some amount => (toUnits amount).map (total + ·)

def foldUnits (rows : List Row) : Option Int := rows.foldlM addUnits 0

/-- One round of the loop of `fold_by_asset`. -/
def addToAsset (totals : Dict AssetKey Int) (row : Row) :
    Option (Dict AssetKey Int) :=
  match row.amountUnits with
  | none => some totals
  | some amount => (toUnits amount).map fun value =>
      totals.set (assetKey lower row)
        ((totals.get? (assetKey lower row)).getD 0 + value)

def foldByAsset (rows : List Row) : Option (Dict AssetKey Int) :=
  rows.foldlM (addToAsset lower) .empty

end Amounts

section Display

/-- The digits after the point. -/
def fracText (frac decimals precision : ℕ) : Text :=
  ((padded decimals (numeral frac)).take precision).rdropWhile (· = '0')

def magnitudeText (value decimals precision : ℕ) : Text :=
  let whole := numeral (value / 10 ^ decimals)
  let frac := fracText (value % 10 ^ decimals) decimals precision
  if frac = [] then whole else whole ++ '.' :: frac

def formatUnits (units : Amount) (decimals : Int) (precision : ℕ) :
    Option Text :=
  (toUnits units).map fun value =>
    if decimals ≤ 0 then intText value
    else
      (if value < 0 then ['-'] else []) ++
        magnitudeText value.natAbs decimals.toNat precision

end Display

section Specification

/-- The rows that count, with their assets. -/
def counted (lower : Text → Text) (rows : List Row) : List (AssetKey × Int) :=
  rows.filterMap fun row => (row.amountUnits.bind toUnits).map fun value =>
    (assetKey lower row, value)

def totalOf (entries : List (AssetKey × Int)) (asset : AssetKey) : Int :=
  ((entries.filter fun entry => entry.1 = asset).map Prod.snd).sum

def IsReadable (row : Row) : Prop :=
  ∀ amount ∈ row.amountUnits, (toUnits amount).isSome

/-- What a reader takes a text without a sign for. -/
def shownMagnitude (text : Text) : ℚ :=
  digitsNat (text.takeWhile (· ≠ '.')) +
    fraction ((text.dropWhile (· ≠ '.')).drop 1)

def shownValue (text : Text) : ℚ :=
  if text.head? = some '-' then -shownMagnitude text.tail
  else shownMagnitude text

/-- An amount without the digits that are not shown. -/
def truncated (value : Int) (decimals precision : ℕ) : ℚ :=
  value.sign * (value.natAbs / 10 ^ (decimals - precision) : ℕ) /
    10 ^ (decimals - (decimals - precision))

end Specification

section Totals

variable {lower : Text → Text}

/-- A readable row counts for its asset, or for none. -/
theorem addToAsset_cases {row : Row} (readable : IsReadable row)
    (totals : Dict AssetKey Int) :
    (∀ rows, counted lower (row :: rows) = counted lower rows) ∧
        addToAsset lower totals row = some totals ∨
      ∃ value, (∀ rows, counted lower (row :: rows) =
          (assetKey lower row, value) :: counted lower rows) ∧
        addToAsset lower totals row = some (totals.set (assetKey lower row)
          ((totals.get? (assetKey lower row)).getD 0 + value)) := by
  cases column : row.amountUnits with
  | none =>
      refine .inl ⟨fun rows => ?_, by rw [addToAsset, column]⟩
      rw [counted, List.filterMap_cons_none (by rw [column]; rfl), counted]
  | some amount =>
      obtain ⟨value, read⟩ := Option.isSome_iff_exists.mp
        (readable amount column)
      refine .inr ⟨value, fun rows => ?_, ?_⟩
      · rw [counted, List.filterMap_cons_some
          (by rw [column, Option.bind_some, read]; rfl), counted]
      · rw [addToAsset, column]
        dsimp only
        rw [read]
        rfl

theorem totalOf_cons (entry : AssetKey × Int) (entries : List (AssetKey × Int))
    (asset : AssetKey) :
    totalOf (entry :: entries) asset =
      (if entry.1 = asset then entry.2 else 0) + totalOf entries asset := by
  rw [totalOf, totalOf]
  split
  next same => rw [List.filter_cons_of_pos (by simpa using same)]; rfl
  next other => rw [List.filter_cons_of_neg (by simpa using other), zero_add]

/-- Later totals are the totals and what has been counted since. -/
structure Adds (totals later : Dict AssetKey Int)
    (entries : List (AssetKey × Int)) : Prop where
  total : ∀ asset, (later.get? asset).getD 0 =
    (totals.get? asset).getD 0 + totalOf entries asset
  absent : ∀ asset, later.get? asset = none ↔
    totals.get? asset = none ∧ asset ∉ entries.map Prod.fst

theorem adds_set (totals : Dict AssetKey Int) (asset : AssetKey) (value : Int) :
    Adds totals (totals.set asset ((totals.get? asset).getD 0 + value))
      [(asset, value)] where
  total other := by
    rw [Dict.get?_set, totalOf_cons]
    by_cases same : other = asset
    · rw [if_pos same, if_pos same.symm, same]
      simp [totalOf]
    · rw [if_neg same, if_neg (Ne.symm same)]
      exact (Int.add_zero _).symm
  absent other := by
    rw [Dict.get?_set]
    by_cases same : other = asset
    · simp [same]
    · simp [same]

theorem Adds.trans {first second third : Dict AssetKey Int}
    {entries more : List (AssetKey × Int)} (adds : Adds first second entries)
    (addsMore : Adds second third more) :
    Adds first third (entries ++ more) where
  total asset := by
    rw [addsMore.total, adds.total, totalOf, totalOf, totalOf,
      List.filter_append, List.map_append, List.sum_append, add_assoc]
  absent asset := by
    rw [addsMore.absent, adds.absent, List.map_append, List.mem_append, not_or,
      and_assoc]

/-- The loop adds every row to its asset. -/
theorem exists_foldlM_addToAsset {rows : List Row}
    (readable : ∀ row ∈ rows, IsReadable row) (totals : Dict AssetKey Int) :
    ∃ later, rows.foldlM (addToAsset lower) totals = some later ∧
      Adds totals later (counted lower rows) := by
  induction rows generalizing totals with
  | nil =>
      exact ⟨totals, rfl, fun asset => (Int.add_zero _).symm,
        fun asset => by simp [counted]⟩
  | cons row rows ih =>
      obtain ⟨first, others⟩ := List.forall_mem_cons.mp readable
      rcases @addToAsset_cases lower _ first totals with
        ⟨same, added⟩ | ⟨value, same, added⟩
      · rw [List.foldlM_cons, added, same]
        exact ih others totals
      · obtain ⟨later, folds, adds⟩ := ih others
          (totals.set (assetKey lower row)
            ((totals.get? (assetKey lower row)).getD 0 + value))
        rw [List.foldlM_cons, added, same]
        exact ⟨later, folds, (adds_set totals _ value).trans adds⟩

theorem isReadable_of_addUnits {total next : Int} {row : Row}
    (added : addUnits total row = some next) : IsReadable row := by
  intro amount column
  rw [addUnits, Option.mem_def.mp column] at added
  obtain ⟨value, read, -⟩ := Option.map_eq_some_iff.mp added
  rw [read]
  rfl

theorem isReadable_of_addToAsset {totals next : Dict AssetKey Int} {row : Row}
    (added : addToAsset lower totals row = some next) : IsReadable row := by
  intro amount column
  rw [addToAsset, Option.mem_def.mp column] at added
  obtain ⟨value, read, -⟩ := Option.map_eq_some_iff.mp added
  rw [read]
  rfl

/-- A loop that ends has read every row. -/
theorem forall_isReadable {Total : Type} {step : Total → Row → Option Total}
    (needs : ∀ {total next row}, step total row = some next → IsReadable row)
    {rows : List Row} {total later : Total}
    (folds : rows.foldlM step total = some later) :
    ∀ row ∈ rows, IsReadable row := by
  induction rows generalizing total with
  | nil => exact List.forall_mem_nil _
  | cons row rows ih =>
      rw [List.foldlM_cons] at folds
      obtain ⟨next, added, folds⟩ := Option.bind_eq_some_iff.mp folds
      exact List.forall_mem_cons.mpr ⟨needs added, ih folds⟩

theorem foldUnits_counted (lower : Text → Text) {rows : List Row}
    (readable : ∀ row ∈ rows, IsReadable row) (total : Int) :
    rows.foldlM addUnits total =
      some (total + ((counted lower rows).map Prod.snd).sum) := by
  induction rows generalizing total with
  | nil => simp [counted]
  | cons row rows ih =>
      obtain ⟨first, others⟩ := List.forall_mem_cons.mp readable
      rw [List.foldlM_cons, addUnits, counted]
      cases column : row.amountUnits with
      | none =>
          rw [List.filterMap_cons_none (by rw [column]; rfl)]
          exact ih others total
      | some amount =>
          obtain ⟨value, read⟩ := Option.isSome_iff_exists.mp
            (first amount column)
          rw [List.filterMap_cons_some (by rw [column, Option.bind_some, read]
                                           rfl)]
          dsimp only
          rw [read, List.map_cons, List.sum_cons, ← add_assoc]
          exact ih others (total + value)

end Totals

section Shown

theorem not_dot_of_areDigits {digits : Text} (areDigits : AreDigits digits) :
    ∀ character ∈ digits, decide (character ≠ '.') = true := by
  intro character member
  obtain ⟨digit, small, rfl⟩ := areDigits character member
  have checked : ∀ digit : Fin 10, (digit : ℕ).digitChar ≠ '.' := by decide
  exact decide_eq_true (checked ⟨digit, small⟩)

theorem shownMagnitude_whole {whole : Text} (areDigits : AreDigits whole) :
    shownMagnitude whole = digitsNat whole := by
  have plain := not_dot_of_areDigits areDigits
  have all : whole.takeWhile (· ≠ '.') = whole := by
    rw [List.takeWhile_eq_self_iff]
    exact plain
  have none : whole.dropWhile (· ≠ '.') = [] := by
    rw [List.dropWhile_eq_nil_iff]
    exact plain
  rw [shownMagnitude, all, none]
  simp [fraction, digitsNat]

theorem shownMagnitude_point {whole frac : Text} (areDigits : AreDigits whole) :
    shownMagnitude (whole ++ '.' :: frac) =
      digitsNat whole + fraction frac := by
  have plain := not_dot_of_areDigits areDigits
  rw [shownMagnitude, List.takeWhile_append_of_pos plain,
    List.dropWhile_append_of_pos plain, List.takeWhile_cons_of_neg (by simp),
    List.dropWhile_cons_of_neg (by simp), List.append_nil]
  rfl

/-- The digits after the point are the first ones of the fraction. -/
theorem fraction_fracText {frac decimals : ℕ} (positive : 0 < decimals)
    (fits : frac < 10 ^ decimals) (precision : ℕ) :
    fraction (fracText frac decimals precision) =
      (frac / 10 ^ (decimals - precision) : ℕ) /
        10 ^ (decimals - (decimals - precision)) := by
  have length := length_padded positive fits
  rw [fracText, fraction_rdropWhile, fraction,
    digitsNat_take (areDigits_padded _ _), digitsNat_padded, digitsNat_numeral,
    List.length_take, length]
  congr 2
  omega

theorem shownMagnitude_magnitudeText {decimals : ℕ} (positive : 0 < decimals)
    (value precision : ℕ) :
    shownMagnitude (magnitudeText value decimals precision) =
      (value / 10 ^ (decimals - precision) : ℕ) /
        10 ^ (decimals - (decimals - precision)) := by
  have fits : value % 10 ^ decimals < 10 ^ decimals :=
    Nat.mod_lt _ (by positivity)
  have shown := fraction_fracText positive fits precision
  have parts : shownMagnitude (magnitudeText value decimals precision) =
      (value / 10 ^ decimals : ℕ) +
        fraction (fracText (value % 10 ^ decimals) decimals precision) := by
    rw [magnitudeText]
    split
    next empty =>
      rw [empty, shownMagnitude_whole (areDigits_numeral _), digitsNat_numeral]
      simp [fraction, digitsNat]
    next =>
      rw [shownMagnitude_point (areDigits_numeral _), digitsNat_numeral]
  have split : 10 ^ decimals = 10 ^ (decimals - precision) *
      10 ^ (decimals - (decimals - precision)) := by
    rw [← pow_add]
    congr 1
    omega
  have quotient : value / 10 ^ (decimals - precision) =
      10 ^ (decimals - (decimals - precision)) * (value / 10 ^ decimals) +
        value % 10 ^ decimals / 10 ^ (decimals - precision) := by
    have whole := Nat.div_add_mod value (10 ^ decimals)
    rw [split, mul_assoc] at whole
    rw [← Nat.mul_add_div (by positivity : 0 < 10 ^ (decimals - precision)),
      split, whole]
  rw [parts, shown, quotient]
  push_cast
  field_simp

theorem head?_ne_minus {digits : Text} (areDigits : AreDigits digits)
    (rest : Text) (filled : digits ≠ []) :
    (digits ++ rest).head? ≠ some '-' := by
  obtain ⟨first, others, rfl⟩ := List.exists_cons_of_ne_nil filled
  obtain ⟨digit, small, rfl⟩ := areDigits first (.head _)
  have checked : ∀ digit : Fin 10, (digit : ℕ).digitChar ≠ '-' := by decide
  exact fun minus => checked ⟨digit, small⟩ (Option.some.inj minus)

theorem exists_magnitudeText (value decimals precision : ℕ) :
    ∃ rest, magnitudeText value decimals precision =
      numeral (value / 10 ^ decimals) ++ rest := by
  rw [magnitudeText]
  split
  · exact ⟨[], (List.append_nil _).symm⟩
  · exact ⟨_, rfl⟩

theorem shownValue_minus (text : Text) :
    shownValue ('-' :: text) = -shownMagnitude text := by
  rw [shownValue, if_pos (by rfl), List.tail_cons]

theorem shownValue_intText (value : Int) :
    shownValue (intText value) = value := by
  cases value with
  | ofNat number =>
      have plain := head?_ne_minus (areDigits_numeral number) []
        (numeral_ne_nil number)
      rw [List.append_nil] at plain
      rw [intText, shownValue, if_neg plain,
        shownMagnitude_whole (areDigits_numeral number), digitsNat_numeral]
      rfl
  | negSucc number =>
      rw [intText, shownValue_minus, shownMagnitude_whole (areDigits_numeral _),
        digitsNat_numeral, Int.cast_negSucc]

theorem truncated_zero (value : Int) (precision : ℕ) :
    truncated value 0 precision = value := by
  rw [truncated]
  simp only [Nat.zero_sub, pow_zero, Nat.div_one, div_one]
  have whole := congrArg (Int.cast : ℤ → ℚ) (Int.sign_mul_natAbs value)
  rwa [Int.cast_mul, Int.cast_natCast] at whole

/-- What is shown of an amount is the amount, cut off after the last digit that
is shown. -/
theorem shownValue_formatUnits {units : Amount} {value : Int}
    (read : toUnits units = some value) (decimals : Int) (precision : ℕ) :
    ∃ text, formatUnits units decimals precision = some text ∧
      shownValue text = truncated value decimals.toNat precision := by
  rw [formatUnits, read, Option.map_some]
  refine ⟨_, rfl, ?_⟩
  split
  next none =>
    rw [Int.toNat_of_nonpos none, truncated_zero, shownValue_intText]
  next some =>
    have magnitude := @shownMagnitude_magnitudeText decimals.toNat (by omega)
      value.natAbs precision
    split
    next negative =>
      rw [List.singleton_append, shownValue_minus, magnitude, truncated,
        Int.sign_eq_neg_one_of_neg negative]
      push_cast
      ring
    next other =>
      obtain ⟨rest, parts⟩ := exists_magnitudeText value.natAbs decimals.toNat
        precision
      have plain := head?_ne_minus (areDigits_numeral _) rest
        (numeral_ne_nil (value.natAbs / 10 ^ decimals.toNat))
      rw [← parts] at plain
      rw [List.nil_append, shownValue, if_neg plain, magnitude, truncated]
      rcases eq_or_ne value 0 with rfl | nonzero
      · simp
      · rw [Int.sign_eq_one_of_pos (by omega)]
        simp

end Shown

section Ledger

/-- A transfer of one and a half units of an asset. -/
def transfer : Row :=
  ⟨some 1, some "0xAb".toList, some 18,
    some (.text "1500000000000000000".toList)⟩

end Ledger

end MoneyAmounts

end RefinetPillars
