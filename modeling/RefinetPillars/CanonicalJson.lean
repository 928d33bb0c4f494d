import RefinetPillars.JsonDocuments
import RefinetPillars.WalletBinding

/-!
# Canonical JSON in two languages

A document is signed in one language and verified in the other, so both must
print it in the same way.  JavaScript has its own order of the keys of an
object, its own escapes and its own numbers.
-/

namespace RefinetPillars

namespace JavaScript

open HexText DecimalText JsonText

section Printing

/-- How numbers are printed.  Integers below 2^53 are exact; a float is given
as Python prints it. -/
structure Numbers where
  integer : Int → Text
  float : Text → Text
  exact : ∀ value : Int, value.natAbs < 2 ^ 53 → integer value = intText value

/-- A character within a text that `JSON.stringify` prints. -/
def quoteCharacter (character : Char) : Text :=
  let code := character.toNat
  if code = 8 then ['\\', 'b']
  else if code = 9 then ['\\', 't']
  else if code = 10 then ['\\', 'n']
  else if code = 12 then ['\\', 'f']
  else if code = 13 then ['\\', 'r']
  else if code = 34 then ['\\', '"']
  else if code = 92 then ['\\', '\\']
  else if code < 32 then unicodeEscape code
  else [character]

def quoteText (text : Text) : Text :=
  '"' :: text.flatMap quoteCharacter ++ ['"']

def compareCodePoints : Text → Text → Int
  | first :: firsts, second :: seconds =>
      let difference : Int := first.toNat - second.toNat
      if difference ≠ 0 then difference else compareCodePoints firsts seconds
  | firsts, seconds => firsts.length - seconds.length

/-- The number of an array index, for a key that is one. -/
def arrayIndex (key : Text) : Option Nat :=
  let number :=
    key.foldl (fun number digit => 10 * number + (digit.toNat - 48)) 0
  if (toString number).toList = key ∧ number < 2 ^ 32 - 1 then some number
  else none

/-- `Object.keys`: array indices come first, by their numbers. -/
def objectKeys (keys : List Text) : List Text :=
  (keys.filter fun key => (arrayIndex key).isSome).mergeSort
      (fun first second =>
        (arrayIndex first).getD 0 ≤ (arrayIndex second).getD 0) ++
    keys.filter fun key => (arrayIndex key).isNone

/-- `.sort(compareCodePoints)`. -/
def sortKeys (keys : List Text) : List Text :=
  keys.mergeSort fun first second => compareCodePoints first second ≤ 0

variable (numbers : Numbers)

mutual

def canonicalJson : Json → Text
  | .null => "null".toList
  | .bool true => "true".toList
  | .bool false => "false".toList
  | .int value => numbers.integer value
  | .float printed => numbers.float printed
  | .str text => quoteText text
  | .arr items => '[' :: [','].intercalate (canonicalItems items) ++ [']']
  | .obj fields =>
      let values := canonicalFields fields
      '{' :: [','].intercalate
        ((sortKeys (objectKeys (fields.map Prod.fst))).map fun key =>
          quoteText key ++ ':' :: (values.lookup key).getD []) ++ ['}']

def canonicalItems : List Json → List Text
  | [] => []
  | item :: items => canonicalJson item :: canonicalItems items

/-- `canonicalJson(value[key])` for every key. -/
def canonicalFields : List (Text × Json) → List (Text × Text)
  | [] => []
  | (key, value) :: fields =>
      (key, canonicalJson value) :: canonicalFields fields

end

end Printing

section Texts

theorem quoteCharacter_eq (character : Char) :
    quoteCharacter character = escapeCharacter false character := by
  have quotation : character = '"' ↔ character.toNat = 34 :=
    ⟨fun same => same ▸ rfl, fun same => Char.toNat_inj.mp same⟩
  have backslash : character = '\\' ↔ character.toNat = 92 :=
    ⟨fun same => same ▸ rfl, fun same => Char.toNat_inj.mp same⟩
  simp only [quoteCharacter, escapeCharacter, quotation, backslash]
  generalize character.toNat = code
  by_cases listed : code ∈ [8, 9, 10, 12, 13, 34, 92]
  · simp only [List.mem_cons, List.not_mem_nil, or_false] at listed
    rcases listed with rfl | rfl | rfl | rfl | rfl | rfl | rfl <;> rfl
  · simp only [List.mem_cons, List.not_mem_nil, or_false, not_or] at listed
    obtain ⟨isBackspace, isTab, isLineFeed, isFormFeed, isReturn, isQuote,
      isBackslash⟩ := listed
    simp only [isBackspace, isTab, isLineFeed, isFormFeed, isReturn, isQuote,
      isBackslash, if_false, true_or, if_true]

theorem quoteText_eq (text : Text) : quoteText text = quote false text := by
  rw [quoteText, quote]
  congr 2
  exact List.flatMap_congr fun character _ => quoteCharacter_eq character

/-- The comparison is that of Python's texts. -/
theorem compareCodePoints_le_zero (first second : Text) :
    compareCodePoints first second ≤ 0 ↔ first ≤ second := by
  have order : first ≤ second ↔ ¬ List.Lex (· < ·) second first :=
    not_lt.symm
  rw [order]
  clear order
  induction first generalizing second with
  | nil =>
      refine iff_of_true ?_ (by rintro ⟨⟩)
      simp [compareCodePoints]
  | cons head firsts ih =>
      cases second with
      | nil =>
          refine iff_of_false ?_ (not_not.mpr .nil)
          simp [compareCodePoints]
      | cons other seconds =>
          have order : other < head ↔ other.toNat < head.toNat := Iff.rfl
          rw [List.cons_lex_cons_iff, compareCodePoints, order]
          by_cases same : head = other
          · simp [same, ih]
          · have differ : head.toNat ≠ other.toNat := mt Char.toNat_inj.mp same
            have unequal : (head.toNat : Int) - other.toNat ≠ 0 := by omega
            rw [if_pos unequal]
            have others : other ≠ head := Ne.symm same
            simp only [others, false_and, or_false, not_lt]
            omega

end Texts

section Keys

theorem objectKeys_perm (keys : List Text) : (objectKeys keys).Perm keys := by
  rw [objectKeys]
  refine ((List.mergeSort_perm _ _).append_right _).trans ?_
  have parts := List.filter_append_perm
    (fun key => (arrayIndex key).isSome) keys
  simpa using parts

/-- Whatever the order of an object, its sorted keys are those of Python. -/
theorem sortKeys_objectKeys (keys : List Text) :
    sortKeys (objectKeys keys) =
      keys.mergeSort fun first second => first ≤ second := by
  have comparison : (fun first second => decide
      (compareCodePoints first second ≤ 0) : Text → Text → Bool) =
      fun first second => decide (first ≤ second) := by
    funext first second
    exact decide_eq_decide.mpr (compareCodePoints_le_zero first second)
  have sorted : ∀ texts : List Text,
      (texts.mergeSort fun first second => first ≤ second).Pairwise (· ≤ ·) := by
    intro texts
    have pairwise : (texts.mergeSort fun first second =>
        first ≤ second).Pairwise fun first second =>
          decide (first ≤ second) = true := by
      apply List.pairwise_mergeSort
      · intro first second third
        simpa using le_trans
      · intro first second
        simpa using le_total first second
    simpa using pairwise
  rw [sortKeys, comparison]
  apply List.Perm.eq_of_pairwise (fun _ _ _ _ => le_antisymm)
    (sorted _) (sorted _)
  exact (List.mergeSort_perm _ _).trans
    ((objectKeys_perm keys).trans (List.mergeSort_perm _ _).symm)

theorem lookup_of_mem {Value : Type} {fields : List (Text × Value)}
    (nodup : (fields.map Prod.fst).Nodup) {field : Text × Value}
    (member : field ∈ fields) : fields.lookup field.1 = some field.2 := by
  induction fields with
  | nil => cases member
  | cons head fields ih =>
      rw [List.map_cons, List.nodup_cons] at nodup
      rw [List.lookup_cons]
      rcases List.mem_cons.mp member with rfl | rest
      · simp
      · have differs : field.1 ≠ head.1 := fun same =>
          nodup.1 (List.mem_map.mpr ⟨field, rest, same⟩)
        rw [beq_eq_false_iff_ne.mpr differs]
        exact ih nodup.2 rest

/-- Fields sorted by their keys are those that the sorted keys name. -/
theorem map_sortKeys {fields : List (Text × Text)}
    (nodup : (fields.map Prod.fst).Nodup) (printed : Text × Text → Text) :
    (sortKeys (objectKeys (fields.map Prod.fst))).map
        (fun key => printed (key, (fields.lookup key).getD [])) =
      (fields.mergeSort fun first second => first.1 ≤ second.1).map
        printed := by
  rw [sortKeys_objectKeys, ← List.map_mergeSort
    (r := fun first second : Text × Text => decide (first.1 ≤ second.1))
    (fun _ _ _ _ => rfl), List.map_map]
  refine List.map_congr_left fun field member => ?_
  rw [Function.comp_apply, lookup_of_mem nodup (List.mem_mergeSort.mp member)]
  rfl

end Keys

section Agreement

variable {numbers : Numbers}

/-- The layout of `canonical_json`. -/
def canonicalLayout : Layout :=
  { itemSeparator := [','], keySeparator := [':'], ensureAscii := false,
    sortKeys := true }

theorem enclose_canonical (depth : Nat) (opening closing : Char)
    (printed : List Text) :
    enclose canonicalLayout depth opening closing printed =
      opening :: [','].intercalate printed ++ [closing] := by
  rw [enclose]
  split
  next empty =>
    rw [empty]
    rfl
  next => simp [newLine, canonicalLayout]

theorem map_fst_dumpFields (layout : Layout) (depth : Nat)
    (fields : List (Text × Json)) :
    (dumpFields layout depth fields).map Prod.fst = fields.map Prod.fst := by
  induction fields with
  | nil => rfl
  | cons field fields ih => rw [dumpFields, List.map_cons, List.map_cons, ih]

mutual

theorem canonicalJson_eq (depth : Nat) :
    (value : Json) → DistinctKeys value → IntegersBelow (2 ^ 53) value →
      canonicalJson numbers value = dumps canonicalLayout depth value
  | .null, _, _ | .bool true, _, _ | .bool false, _, _ => rfl
  | .int value, _, .int below => numbers.exact value below
  | .str text, _, _ => quoteText_eq text
  | .arr items, .arr distinct, .arr integers => by
      rw [canonicalJson, dumps, enclose_canonical,
        canonicalItems_eq depth items distinct integers]
  | .obj fields, .obj nodup distinct, .obj integers => by
      rw [canonicalJson, dumps, enclose_canonical,
        canonicalFields_eq depth fields distinct integers,
        ← map_fst_dumpFields canonicalLayout depth fields]
      rw [← map_fst_dumpFields canonicalLayout depth fields] at nodup
      have printed := map_sortKeys nodup fun field =>
        quote false field.1 ++ ':' :: field.2
      simp only [quoteText_eq, sortFields, canonicalLayout] at printed ⊢
      simp [printed]

theorem canonicalItems_eq (depth : Nat) :
    (items : List Json) → (∀ item ∈ items, DistinctKeys item) →
      (∀ item ∈ items, IntegersBelow (2 ^ 53) item) →
      canonicalItems numbers items = dumpItems canonicalLayout depth items
  | [], _, _ => rfl
  | item :: items, distinct, integers => by
      rw [List.forall_mem_cons] at distinct integers
      rw [canonicalItems, dumpItems,
        canonicalJson_eq (depth + 1) item distinct.1 integers.1,
        canonicalItems_eq depth items distinct.2 integers.2]

theorem canonicalFields_eq (depth : Nat) :
    (fields : List (Text × Json)) →
      (∀ field ∈ fields, DistinctKeys field.2) →
      (∀ field ∈ fields, IntegersBelow (2 ^ 53) field.2) →
      canonicalFields numbers fields = dumpFields canonicalLayout depth fields
  | [], _, _ => rfl
  | (key, value) :: fields, distinct, integers => by
      rw [List.forall_mem_cons] at distinct integers
      rw [canonicalFields, dumpFields,
        canonicalJson_eq (depth + 1) value distinct.1 integers.1,
        canonicalFields_eq depth fields distinct.2 integers.2]

end

/-- Numbers that are all printed in decimals. -/
def decimalNumbers : Numbers := ⟨intText, id, fun _ _ => rfl⟩

end Agreement

end JavaScript

end RefinetPillars
