import RefinetPillars.HexText

/-!
# Recursive length prefixes

Trees of byte strings as byte strings.  Every item has at most one encoding, and
a reader finds exactly the items that are encoded.
-/

namespace RefinetPillars

namespace RlpEncoding

open HexText

section Numbers

/-- The bytes of a number without leading zeros. -/
def minimalBytes (value : Nat) : List UInt8 :=
  bigEndian (Nat.digits 256 value).length value

@[simp]
theorem minimalBytes_zero : minimalBytes 0 = [] := by
  simp [minimalBytes, bigEndian]

theorem minimalBytes_of_pos {value : Nat} (positive : 0 < value) :
    minimalBytes value =
      minimalBytes (value / 256) ++ [UInt8.ofNat value] := by
  rw [minimalBytes, Nat.digits_def' (by omega) positive, List.length_cons,
    bigEndian, minimalBytes]

@[simp]
theorem fromBigEndian_minimalBytes (value : Nat) :
    fromBigEndian (minimalBytes value) = value :=
  fromBigEndian_bigEndian (Nat.lt_base_pow_length_digits (by omega))

theorem minimalBytes_eq_nil {value : Nat} :
    minimalBytes value = [] ↔ value = 0 := by
  constructor
  · intro empty
    rw [← fromBigEndian_minimalBytes value, empty]
    rfl
  · rintro rfl
    exact minimalBytes_zero

theorem fromBigEndian_append_singleton (bytes : List UInt8) (last : UInt8) :
    fromBigEndian (bytes ++ [last]) =
      256 * fromBigEndian bytes + last.toNat := by
  simp [fromBigEndian]

theorem fromBigEndian_lt (bytes : List UInt8) :
    fromBigEndian bytes < 256 ^ bytes.length := by
  induction bytes using List.reverseRecOn with
  | nil => simp [fromBigEndian]
  | append_singleton bytes last ih =>
      have small := last.toNat_lt
      rw [fromBigEndian_append_singleton, List.length_append,
        List.length_singleton, pow_succ]
      omega

/-- Bytes without a leading zero are those of their number. -/
theorem minimalBytes_fromBigEndian {bytes : List UInt8}
    (leading : bytes.head? ≠ some 0) :
    minimalBytes (fromBigEndian bytes) = bytes := by
  induction bytes using List.reverseRecOn with
  | nil => exact minimalBytes_zero
  | append_singleton bytes last ih =>
      have small := last.toNat_lt
      have value := fromBigEndian_append_singleton bytes last
      have lastByte : UInt8.ofNat (fromBigEndian (bytes ++ [last])) = last := by
        apply UInt8.toNat.inj
        rw [value, UInt8.toNat_ofNat']
        omega
      have front : fromBigEndian (bytes ++ [last]) / 256 =
          fromBigEndian bytes := by omega
      have positive : 0 < fromBigEndian (bytes ++ [last]) := by
        cases bytes with
        | nil =>
            have nonzero : last.toNat ≠ 0 := by
              intro zero
              exact leading (congrArg some (UInt8.toNat.inj zero))
            omega
        | cons first rest =>
            have nonzero : fromBigEndian (first :: rest) ≠ 0 := by
              intro zero
              have same := ih leading
              rw [zero, minimalBytes_zero] at same
              cases same
            omega
      rw [minimalBytes_of_pos positive, front, lastByte]
      cases bytes with
      | nil => rfl
      | cons first rest => rw [ih leading]

theorem head_minimalBytes (value : Nat) :
    (minimalBytes value).head? ≠ some 0 := by
  induction value using Nat.strong_induction_on with
  | _ value ih =>
      rcases Nat.eq_zero_or_pos value with rfl | positive
      · simp
      · rw [minimalBytes_of_pos positive]
        rcases Nat.eq_zero_or_pos (value / 256) with zero | larger
        · rw [zero, minimalBytes_zero, List.nil_append, List.head?_cons]
          intro isZero
          have value0 := congrArg UInt8.toNat (Option.some.inj isZero)
          rw [UInt8.toNat_ofNat'] at value0
          simp at value0
          omega
        · have nonempty : minimalBytes (value / 256) ≠ [] := by
            rw [Ne, minimalBytes_eq_nil]
            omega
          rw [List.head?_append_of_ne_nil _ nonempty]
          exact ih _ (by omega)

theorem length_minimalBytes_le {value width : Nat} (fits : value < 256 ^ width) :
    (minimalBytes value).length ≤ width := by
  rw [minimalBytes, length_bigEndian]
  exact (Nat.digits_length_le_iff (by omega) value).mpr fits

end Numbers

section Definitions

inductive Item where
  | bytes (data : List UInt8)
  | list (items : List Item)

/-- Where the lengths of byte strings and of lists start. -/
def bytesOffset : Nat := 128

def listOffset : Nat := 192

/-- What stands in front of a payload, unless it is too long. -/
def lengthPrefix (offset length : Nat) : Option (List UInt8) :=
  if length < 56 then some [UInt8.ofNat (offset + length)]
  else if length < 2 ^ 64 then
    some (UInt8.ofNat (offset + 55 + (minimalBytes length).length) ::
      minimalBytes length)
  else none

def withPrefix (offset : Nat) (payload : List UInt8) : Option (List UInt8) :=
  (lengthPrefix offset payload.length).map fun header => header ++ payload

/-- A small byte stands for itself. -/
def isSmall : List UInt8 → Bool
  | [byte] => byte.toNat < bytesOffset
  | _ => false

mutual

def encode : Item → Option (List UInt8)
  | .bytes data =>
      if isSmall data then some data else withPrefix bytesOffset data
  | .list items => do
      let payload ← encodeAll items
      withPrefix listOffset payload

def encodeAll : List Item → Option (List UInt8)
  | [] => some []
  | item :: items => do
      let first ← encode item
      let rest ← encodeAll items
      return first ++ rest

end

/-- The length that starts with a byte, and what follows it. -/
def readLength (offset first : Nat) (rest : List UInt8) :
    Option (Nat × List UInt8) :=
  if first - offset < 56 then some (first - offset, rest)
  else
    let count := first - offset - 55
    let digits := rest.take count
    if digits.length = count ∧ digits.head? ≠ some 0 ∧
        56 ≤ fromBigEndian digits then
      some (fromBigEndian digits, rest.drop count)
    else none

/-- The payload behind a length, and what follows it. -/
def readPayload (offset first : Nat) (rest : List UInt8) :
    Option (List UInt8 × List UInt8) := do
  let (length, rest) ← readLength offset first rest
  if length ≤ rest.length then some (rest.take length, rest.drop length)
  else none

mutual

/-- The first item and what follows it, with fuel. -/
def readItem : Nat → List UInt8 → Option (Item × List UInt8)
  | 0, _ | _, [] => none
  | fuel + 1, first :: rest =>
      if first.toNat < bytesOffset then some (.bytes [first], rest)
      else if first.toNat < listOffset then do
        let (data, rest) ← readPayload bytesOffset first.toNat rest
        if isSmall data then none else some (.bytes data, rest)
      else do
        let (payload, rest) ← readPayload listOffset first.toNat rest
        let items ← readItems fuel payload
        some (.list items, rest)

def readItems : Nat → List UInt8 → Option (List Item)
  | _, [] => some []
  | 0, _ :: _ => none
  | fuel + 1, first :: rest => do
      let (item, rest) ← readItem fuel (first :: rest)
      let items ← readItems fuel rest
      some (item :: items)

end

/-- The item that a byte string encodes; no item reads less than a byte. -/
def decode (encoded : List UInt8) : Option Item :=
  match readItem (2 * encoded.length) encoded with
  | some (item, []) => some item
  | _ => none

example : decode [0xc2, 0x81, 0x89] = some (.list [.bytes [0x89]]) := by rfl

end Definitions

section Prefixes

variable {offset length : Nat} {first : UInt8}
  {header payload encoded rest after : List UInt8}

theorem toNat_ofNat_of_lt {value : Nat} (small : value < 256) :
    (UInt8.ofNat value).toNat = value := by
  rw [UInt8.toNat_ofNat']
  exact Nat.mod_eq_of_lt small

theorem readLength_of_lengthPrefix (room : offset + 64 ≤ 256)
    (written : lengthPrefix offset length = some header)
    (rest : List UInt8) :
    ∃ first digits, header = first :: digits ∧ offset ≤ first.toNat ∧
      first.toNat < offset + 64 ∧
      readLength offset first.toNat (digits ++ rest) = some (length, rest) := by
  unfold lengthPrefix at written
  split at written
  next short =>
    obtain rfl := Option.some.inj written
    have value : (UInt8.ofNat (offset + length)).toNat = offset + length :=
      toNat_ofNat_of_lt (by omega)
    refine ⟨_, [], rfl, by omega, by omega, ?_⟩
    rw [value, readLength, if_pos (by omega), Nat.add_sub_cancel_left]
    rfl
  next long =>
    split at written
    next fits =>
      obtain rfl := Option.some.inj written
      have few : (minimalBytes length).length ≤ 8 :=
        length_minimalBytes_le (lt_of_lt_of_eq fits (by norm_num))
      have positive : 0 < (minimalBytes length).length := by
        rw [List.length_pos_iff, Ne, minimalBytes_eq_nil]
        omega
      have value : (UInt8.ofNat
          (offset + 55 + (minimalBytes length).length)).toNat =
          offset + 55 + (minimalBytes length).length :=
        toNat_ofNat_of_lt (by omega)
      have count : offset + 55 + (minimalBytes length).length - offset - 55 =
          (minimalBytes length).length := by omega
      refine ⟨_, _, rfl, by omega, by omega, ?_⟩
      rw [value, readLength, if_neg (by omega)]
      simp only [count, List.take_left, List.drop_left,
        fromBigEndian_minimalBytes]
      exact if_pos ⟨trivial, head_minimalBytes length, by omega⟩
    · cases written

theorem lengthPrefix_of_readLength (low : offset ≤ first.toNat)
    (high : first.toNat < offset + 64)
    (read : readLength offset first.toNat rest = some (length, after)) :
    ∃ digits, lengthPrefix offset length = some (first :: digits) ∧
      rest = digits ++ after := by
  unfold readLength at read
  split at read
  next short =>
    obtain ⟨rfl, rfl⟩ := Prod.mk.inj (Option.some.inj read)
    refine ⟨[], ?_, rfl⟩
    rw [lengthPrefix, if_pos short, Nat.add_sub_cancel' low, UInt8.ofNat_toNat]
  next long =>
    dsimp only at read
    split at read
    next canonical =>
      obtain ⟨rfl, rfl⟩ := Prod.mk.inj (Option.some.inj read)
      obtain ⟨count, leading, large⟩ := canonical
      refine ⟨_, ?_, (List.take_append_drop _ _).symm⟩
      have digits := minimalBytes_fromBigEndian leading
      have fits : fromBigEndian (rest.take (first.toNat - offset - 55)) <
          2 ^ 64 := by
        refine lt_of_lt_of_le (fromBigEndian_lt _) ?_
        rw [count]
        exact (Nat.pow_le_pow_right (by omega) (by omega)).trans_eq
          (by norm_num : 256 ^ 8 = 2 ^ 64)
      rw [lengthPrefix, if_neg (by omega), if_pos fits, digits, count]
      have value : offset + 55 + (first.toNat - offset - 55) = first.toNat := by
        omega
      rw [value, UInt8.ofNat_toNat]
    · cases read

/-- What is written with its length is read back. -/
theorem readPayload_of_withPrefix (room : offset + 64 ≤ 256)
    (written : withPrefix offset payload = some encoded)
    (rest : List UInt8) :
    ∃ first tail, encoded = first :: tail ∧ offset ≤ first.toNat ∧
      first.toNat < offset + 64 ∧ payload.length ≤ tail.length ∧
      readPayload offset first.toNat (tail ++ rest) = some (payload, rest) := by
  obtain ⟨header, wrote, rfl⟩ := Option.map_eq_some_iff.mp written
  obtain ⟨first, digits, rfl, low, high, read⟩ :=
    readLength_of_lengthPrefix room wrote (payload ++ rest)
  refine ⟨first, digits ++ payload, rfl, low, high, by simp, ?_⟩
  rw [readPayload, List.append_assoc, read]
  simp

/-- What is read with its length has been written so. -/
theorem withPrefix_of_readPayload (low : offset ≤ first.toNat)
    (high : first.toNat < offset + 64)
    (read : readPayload offset first.toNat rest = some (payload, after)) :
    ∃ tail, withPrefix offset payload = some (first :: tail) ∧
      rest = tail ++ after := by
  obtain ⟨⟨length, middle⟩, readLen, cut⟩ := Option.bind_eq_some_iff.mp read
  obtain ⟨digits, wrote, rfl⟩ := lengthPrefix_of_readLength low high readLen
  dsimp only at cut
  split at cut
  next enough =>
    obtain ⟨rfl, rfl⟩ := Prod.mk.inj (Option.some.inj cut)
    refine ⟨digits ++ middle.take length, ?_, by simp⟩
    rw [withPrefix, List.length_take, Nat.min_eq_left enough, wrote]
    rfl
  · cases cut

end Prefixes

section Items

theorem eq_singleton_of_isSmall {data : List UInt8}
    (small : isSmall data = true) :
    ∃ byte, data = [byte] ∧ byte.toNat < bytesOffset := by
  unfold isSmall at small
  split at small
  next byte => exact ⟨byte, rfl, of_decide_eq_true small⟩
  · cases small

theorem exists_cons_of_encode {item : Item} {encoded : List UInt8}
    (written : encode item = some encoded) :
    ∃ first tail, encoded = first :: tail := by
  cases item with
  | bytes data =>
      rw [encode] at written
      split at written
      next small =>
        obtain ⟨byte, rfl, -⟩ := eq_singleton_of_isSmall small
        exact ⟨byte, [], (Option.some.inj written).symm⟩
      next =>
        obtain ⟨first, tail, rfl, -⟩ :=
          readPayload_of_withPrefix (by decide) written []
        exact ⟨first, tail, rfl⟩
  | list items =>
      obtain ⟨payload, -, written⟩ := Option.bind_eq_some_iff.mp written
      obtain ⟨first, tail, rfl, -⟩ :=
        readPayload_of_withPrefix (by decide) written []
      exact ⟨first, tail, rfl⟩

mutual

/-- An encoded item is read back, whatever follows it. -/
theorem readItem_of_encode (item : Item) {fuel : Nat} {encoded : List UInt8}
    (written : encode item = some encoded)
    (enough : 2 * encoded.length ≤ fuel) (rest : List UInt8) :
    readItem fuel (encoded ++ rest) = some (item, rest) := by
  match item with
  | .bytes data =>
      rw [encode] at written
      split at written
      next small =>
        obtain ⟨byte, rfl, low⟩ := eq_singleton_of_isSmall small
        obtain rfl := Option.some.inj written
        obtain ⟨fuel, rfl⟩ := Nat.exists_eq_succ_of_ne_zero
          (show fuel ≠ 0 by simp at enough; omega)
        rw [List.singleton_append, readItem, if_pos low]
      next notSmall =>
        obtain ⟨first, tail, rfl, low, high, -, read⟩ :=
          readPayload_of_withPrefix (by decide) written rest
        obtain ⟨fuel, rfl⟩ := Nat.exists_eq_succ_of_ne_zero
          (show fuel ≠ 0 by simp at enough; omega)
        have isBytes : first.toNat < listOffset := high
        rw [List.cons_append, readItem, if_neg (by omega), if_pos isBytes, read]
        exact if_neg notSmall
  | .list items =>
      obtain ⟨payload, wrote, written⟩ := Option.bind_eq_some_iff.mp written
      obtain ⟨first, tail, rfl, low, high, shorter, read⟩ :=
        readPayload_of_withPrefix (by decide) written rest
      rw [List.length_cons] at enough
      obtain ⟨fuel, rfl⟩ := Nat.exists_eq_succ_of_ne_zero
        (show fuel ≠ 0 by omega)
      have items := readItems_of_encodeAll items wrote
        (show 2 * payload.length + 1 ≤ fuel by omega)
      have larger : bytesOffset ≤ listOffset := by decide
      rw [List.cons_append, readItem, if_neg (by omega), if_neg (by omega), read]
      simp [items]

theorem readItems_of_encodeAll (items : List Item) {fuel : Nat}
    {encoded : List UInt8} (written : encodeAll items = some encoded)
    (enough : 2 * encoded.length + 1 ≤ fuel) :
    readItems fuel encoded = some items := by
  match items with
  | [] =>
      obtain rfl := Option.some.inj written
      rw [readItems]
  | item :: items =>
      obtain ⟨front, wroteItem, written⟩ := Option.bind_eq_some_iff.mp written
      obtain ⟨back, wroteItems, written⟩ := Option.bind_eq_some_iff.mp written
      obtain rfl := Option.some.inj written
      rw [List.length_append] at enough
      obtain ⟨fuel, rfl⟩ := Nat.exists_eq_succ_of_ne_zero
        (show fuel ≠ 0 by omega)
      have first := readItem_of_encode item wroteItem
        (show 2 * front.length ≤ fuel by omega) back
      obtain ⟨head, tail, rfl⟩ := exists_cons_of_encode wroteItem
      rw [List.length_cons] at enough
      have others := readItems_of_encodeAll items wroteItems
        (show 2 * back.length + 1 ≤ fuel by omega)
      rw [List.cons_append] at first ⊢
      rw [readItems, first]
      simp [others]

end

/-- Whatever is read has been encoded. -/
theorem encode_of_readItem (fuel : Nat) :
    (∀ encoded item rest, readItem fuel encoded = some (item, rest) →
      ∃ front, encode item = some front ∧ encoded = front ++ rest) ∧
    ∀ encoded items, readItems fuel encoded = some items →
      encodeAll items = some encoded := by
  induction fuel with
  | zero =>
      constructor
      · intro encoded item rest read
        rw [readItem] at read
        cases read
      · intro encoded items read
        cases encoded with
        | nil =>
            rw [readItems] at read
            obtain rfl := Option.some.inj read
            rfl
        | cons first rest => cases read
  | succ fuel ih =>
      obtain ⟨readsItem, readsItems⟩ := ih
      constructor
      · intro encoded item rest read
        cases encoded with
        | nil => cases read
        | cons first tail =>
            have byte := first.toNat_lt
            rw [readItem] at read
            split at read
            next low =>
              obtain ⟨rfl, rfl⟩ := Prod.mk.inj (Option.some.inj read)
              exact ⟨[first], if_pos (decide_eq_true low), rfl⟩
            next notLow =>
              split at read
              next isBytes =>
                obtain ⟨⟨data, after⟩, readData, kept⟩ :=
                  Option.bind_eq_some_iff.mp read
                obtain ⟨back, written, rfl⟩ := withPrefix_of_readPayload
                  (not_lt.mp notLow) isBytes readData
                dsimp only at kept
                split at kept
                · cases kept
                next notSmall =>
                  obtain ⟨rfl, rfl⟩ := Prod.mk.inj (Option.some.inj kept)
                  exact ⟨_, (if_neg notSmall).trans written, rfl⟩
              next isList =>
                obtain ⟨⟨payload, after⟩, readData, read⟩ :=
                  Option.bind_eq_some_iff.mp read
                obtain ⟨items, readAll, read⟩ := Option.bind_eq_some_iff.mp read
                obtain ⟨rfl, rfl⟩ := Prod.mk.inj (Option.some.inj read)
                obtain ⟨back, written, rfl⟩ := withPrefix_of_readPayload
                  (not_lt.mp isList) byte readData
                refine ⟨_, Option.bind_eq_some_iff.mpr
                  ⟨payload, readsItems _ _ readAll, written⟩, rfl⟩
      · intro encoded items read
        cases encoded with
        | nil =>
            rw [readItems] at read
            obtain rfl := Option.some.inj read
            rfl
        | cons first tail =>
            rw [readItems] at read
            obtain ⟨⟨item, rest⟩, readFirst, read⟩ :=
              Option.bind_eq_some_iff.mp read
            obtain ⟨others, readOthers, read⟩ := Option.bind_eq_some_iff.mp read
            obtain rfl := Option.some.inj read
            obtain ⟨front, written, same⟩ := readsItem _ _ _ readFirst
            have wroteOthers := readsItems _ _ readOthers
            rw [same, encodeAll, written, wroteOthers]
            rfl

/-- What starts with a small byte is that byte alone. -/
theorem eq_nil_of_encode_small {item : Item} {first : UInt8}
    {tail : List UInt8} (written : encode item = some (first :: tail))
    (small : first.toNat < bytesOffset) : tail = [] := by
  cases item with
  | bytes data =>
      rw [encode] at written
      split at written
      next isSmall =>
        obtain ⟨byte, rfl, -⟩ := eq_singleton_of_isSmall isSmall
        obtain ⟨-, rfl⟩ := List.cons.inj (Option.some.inj written)
        rfl
      next =>
        obtain ⟨other, rest, same, low, -⟩ :=
          readPayload_of_withPrefix (by decide) written []
        obtain ⟨rfl, rfl⟩ := List.cons.inj same
        omega
  | list items =>
      obtain ⟨payload, -, written⟩ := Option.bind_eq_some_iff.mp written
      obtain ⟨other, rest, same, low, -⟩ :=
        readPayload_of_withPrefix (by decide) written []
      obtain ⟨rfl, rfl⟩ := List.cons.inj same
      have larger : bytesOffset ≤ listOffset := by decide
      omega

/-- A list does not start like a byte string. -/
theorem exists_cons_of_encode_list {items : List Item} {encoded : List UInt8}
    (written : encode (.list items) = some encoded) :
    ∃ first tail, encoded = first :: tail ∧ listOffset ≤ first.toNat := by
  obtain ⟨payload, -, written⟩ := Option.bind_eq_some_iff.mp written
  obtain ⟨first, tail, rfl, low, -⟩ :=
    readPayload_of_withPrefix (by decide) written []
  exact ⟨first, tail, rfl, low⟩

/-- The reader finds exactly the items that are encoded. -/
theorem decode_eq_some_iff {encoded : List UInt8} {item : Item} :
    decode encoded = some item ↔ encode item = some encoded := by
  constructor
  · intro decoded
    unfold decode at decoded
    split at decoded
    next other read =>
      obtain rfl := Option.some.inj decoded
      obtain ⟨front, written, same⟩ := (encode_of_readItem _).1 _ _ _ read
      rw [same, List.append_nil]
      exact written
    · cases decoded
  · intro written
    have read := readItem_of_encode item written le_rfl []
    rw [List.append_nil] at read
    rw [decode, read]

end Items

end RlpEncoding

end RefinetPillars
