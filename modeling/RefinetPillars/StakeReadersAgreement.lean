import RefinetPillars.ForwardedFor
import RefinetPillars.StakeStatusSdk
import RefinetPillars.StakingStatusOrder

/-!
# The two readers of standings

A node answers the four calls about a PID with four results.  The package for
applications and the reader of a Pillar report the same of them when the results
spell bytes, the string lies inside of its result, and the numbers are single
words.
-/

namespace RefinetPillars

namespace StakeReaders

open HexText LineText KeyRecovery Utf8Text
open StakingReader (Json StakeStatus StatusError Phase words removePrefix
  isLowerHex encodeArg lifted replyResult ask readOne readOperator readEndpoint
  readStake decodeUint decodeBool decodeAddress decodeExactly isZeroAddress
  selIsActive selOperatorOf selEndpointOf selStakeOf offsetWord lengthWord)
open JavaScript (Standing IsNumber isHexDigit hexNumber unblanked bigInt
  codeUnits ethCall announced payload stakeStatus hexToBytes)

section Results

/-- What a node returns for each of the calls. -/
structure Results where
  isActive : Text
  operatorOf : Text
  endpointOf : Text
  stakeOf : Text

/-- The reply to a result. -/
def reply (result : Text) : Json :=
  .object [("result".toList, .text result)]

def Results.table (results : Results) : List (Text × Text) :=
  [(selIsActive, results.isActive), (selOperatorOf, results.operatorOf),
    (selEndpointOf, results.endpointOf), (selStakeOf, results.stakeOf)]

/-- A node that tells the calls by their selectors. -/
def Results.node (results : Results) (_contract data : Text) : Option Json :=
  (results.table.lookup (slice data 2 10)).map reply

/-- A PID that can be asked about. -/
def IsPid (pid : Text) : Prop :=
  let argument := removePrefix (pid.map Char.toLower)
  argument.length = 64 ∧ argument.all isLowerHex

instance decidableIsPid (pid : Text) : Decidable (IsPid pid) :=
  inferInstanceAs (Decidable (_ ∧ _))

variable (lower : Text → Text)

/-- The same of a registered Pillar, up to what the reader does to its texts. -/
structure SameStanding (standing : Standing) (status : StakeStatus) : Prop where
  active : standing.active = status.active
  operator : some (lower standing.operator) = status.operator
  endpoint : lower (strip standing.endpoint) = status.endpoint
  stakeUnits : standing.stakeUnits = status.stakeUnits

/-- Both reject, or both report the same registration and, where there is one,
the same standing. -/
inductive Agree : Option Standing → Except StatusError StakeStatus → Prop
  | reject (error : StatusError) : Agree none (.error error)
  | report (standing : Standing) (status : StakeStatus)
      (registered : standing.registered = status.operator.isSome)
      (same : standing.registered = true → SameStanding lower standing status) :
      Agree (some standing) (.ok status)

variable {lower}

theorem agree_reports {standing : Standing} {status : StakeStatus} :
    Agree lower (some standing) (.ok status) ↔
      standing.registered = status.operator.isSome ∧
        (standing.registered = true → SameStanding lower standing status) := by
  constructor
  · rintro ⟨⟩
    constructor <;> assumption
  · rintro ⟨registered, same⟩
    exact .report _ _ registered same

end Results

section Conditions

/-- The characters that the package reads of a result. -/
def characters (result : Text) : Text := removePrefix (codeUnits result)

/-- The bytes that the reader takes a result for. -/
def spelled (result : Text) : Option (List UInt8) :=
  if "0x".toList.isPrefixOf result then (words result).toOption else none

def bytesOf (result : Text) : List UInt8 := (spelled result).getD []

/-- A string that is UTF-8 and lies inside of the result. -/
structure SpellsString (result : Text) : Prop where
  spells : (spelled result).isSome
  whole : (payload (bytesOf result)).length = lengthWord (bytesOf result)
  isUtf8 : encodeUtf8 (decodeUtf8 (payload (bytesOf result))) =
    payload (bytesOf result)

/-- There are blanks at the end at most. -/
def Unspaced (result : Text) : Prop :=
  ∃ digits blanks, characters result = digits ++ blanks ∧
    (∀ digit ∈ digits, isBlank digit = false) ∧
    ∀ blank ∈ blanks, isBlank blank = true

variable (results : Results)

/-- The characters of the operator's address. -/
def addressCharacters : Text := slice (characters results.operatorOf) 24 64

/-- The bytes of the operator's address. -/
def addressBytes : List UInt8 := slice (bytesOf results.operatorOf) 12 32

/-- There is an operator. -/
def Registered : Prop := ∃ byte ∈ addressBytes results, byte ≠ 0

/-- The package can read the results. -/
structure PackageReads : Prop where
  isActive : IsNumber (characters results.isActive)
  operatorOf : IsNumber (addressCharacters results)
  endpointOf : (hexToBytes (announced (characters results.endpointOf))).isSome
  stakeOf : IsNumber (characters results.stakeOf)

/-- The reader of a Pillar can; it does not look at the endpoint and the stake
of a Pillar without an operator. -/
structure ReaderReads : Prop where
  isActive : (spelled results.isActive).isSome
  operatorOf : (spelled results.operatorOf).isSome
  hasAddress : addressBytes results ≠ []
  endpointOf : Registered results → SpellsString results.endpointOf
  stakeOf : Registered results → (spelled results.stakeOf).isSome

/-- A number is its first word. -/
structure SpelledAlike : Prop where
  isActive : (∀ byte ∈ (bytesOf results.isActive).take 32, byte = 0) →
    ∀ byte ∈ bytesOf results.isActive, byte = 0
  operatorOf : (addressCharacters results).map Char.toLower =
    toHex (addressBytes results)
  unspaced : Unspaced results.endpointOf
  unmarked :
    ¬ PillarClient.marked (decodeUtf8 (payload (bytesOf results.endpointOf)))
  stakeOf : (bytesOf results.stakeOf).length = 32 ∨
    ∀ byte ∈ bytesOf results.stakeOf, byte = 0

/-- Both read the results or neither does, and what they read is the same. -/
structure ReadAlike : Prop where
  reads : PackageReads results ↔ ReaderReads results
  registered : PackageReads results →
    ((∃ character ∈ addressCharacters results,
      isHexDigit character = true ∧ character ≠ '0') ↔ Registered results)
  spelled : PackageReads results → Registered results → SpelledAlike results

end Conditions

section Package

variable (results : Results) (contract : Text) {pid : Text}

theorem slice_call {selector argument : Text} (short : selector.length = 8) :
    slice ('0' :: 'x' :: selector ++ argument) 2 10 = selector := by
  rw [slice]
  exact List.take_left' short

theorem ethCall_node {selector result argument : Text}
    (short : selector.length = 8)
    (answered : results.table.lookup selector = some result) :
    ethCall results.node contract ('0' :: 'x' :: selector ++ argument) =
      some (characters result) := by
  rw [ethCall, Results.node, slice_call short, answered]
  rfl

/-- What the package reports when it can read the results. -/
def packageStanding : Standing where
  active := hexNumber (unblanked (characters results.isActive)) ≠ 0
  registered := hexNumber (unblanked (addressCharacters results)) ≠ 0
  operator := '0' :: 'x' :: addressCharacters results
  endpoint := PillarClient.responseText
    ((hexToBytes (announced (characters results.endpointOf))).getD [])
  stakeUnits := hexNumber (unblanked (characters results.stakeOf))

theorem stakeStatus_node (valid : IsPid pid) :
    stakeStatus results.node contract pid = do
      let active ← bigInt (characters results.isActive)
      let registered ← bigInt (addressCharacters results)
      let endpoint ← JavaScript.decodeString (characters results.endpointOf)
      let stake ← bigInt (characters results.stakeOf)
      return { active := active ≠ 0
               registered := registered ≠ 0
               operator := '0' :: 'x' :: addressCharacters results
               endpoint := endpoint
               stakeUnits := stake } := by
  unfold stakeStatus
  dsimp only
  split
  next invalid => exact absurd valid invalid
  next =>
    rw [ethCall_node results contract rfl rfl,
      ethCall_node results contract rfl rfl,
      ethCall_node results contract rfl rfl,
      ethCall_node results contract rfl rfl]
    rfl

theorem isNumber_of_bigInt {text : Text} {value : Nat}
    (read : bigInt text = some value) : IsNumber text := by
  rw [bigInt] at read
  split_ifs at read with isNumber
  exact isNumber

theorem stakeStatus_of_reads (valid : IsPid pid) (reads : PackageReads results) :
    stakeStatus results.node contract pid = some (packageStanding results) := by
  obtain ⟨bytes, cut⟩ := Option.isSome_iff_exists.mp reads.endpointOf
  rw [stakeStatus_node results contract valid, bigInt, if_pos reads.isActive,
    bigInt, if_pos reads.operatorOf, bigInt, if_pos reads.stakeOf,
    JavaScript.decodeString, packageStanding, cut]
  rfl

theorem packageReads_of_stakeStatus (valid : IsPid pid) {standing : Standing}
    (reported : stakeStatus results.node contract pid = some standing) :
    PackageReads results := by
  rw [stakeStatus_node results contract valid] at reported
  obtain ⟨active, isActive, reported⟩ := Option.bind_eq_some_iff.mp reported
  obtain ⟨address, operatorOf, reported⟩ := Option.bind_eq_some_iff.mp reported
  obtain ⟨endpoint, endpointOf, reported⟩ := Option.bind_eq_some_iff.mp reported
  obtain ⟨stake, stakeOf, -⟩ := Option.bind_eq_some_iff.mp reported
  refine ⟨isNumber_of_bigInt isActive, isNumber_of_bigInt operatorOf, ?_,
    isNumber_of_bigInt stakeOf⟩
  obtain ⟨bytes, cut, -⟩ := Option.map_eq_some_iff.mp endpointOf
  rw [cut]
  rfl

theorem stakeStatus_eq_none (valid : IsPid pid) (unread : ¬ PackageReads results) :
    stakeStatus results.node contract pid = none := by
  cases reported : stakeStatus results.node contract pid with
  | none => rfl
  | some standing =>
      exact absurd (packageReads_of_stakeStatus results contract valid reported)
        unread

end Package

section Reader

variable (results : Results) (contract : Text) {pid : Text}

theorem toOption_bind {Error Value Other : Type}
    (computed : Except Error Value) (next : Value → Except Error Other) :
    (computed >>= next).toOption =
      computed.toOption.bind fun value => (next value).toOption := by
  cases computed <;> rfl

/-- The result that a phase asks for. -/
def resultOf : Phase → Text
  | .isActive => results.isActive
  | .operatorOf _ => results.operatorOf
  | .endpointOf _ _ => results.endpointOf
  | .stakeOf _ _ _ => results.stakeOf

/-- A result, unless it does not begin like one. -/
def asked (result : Text) : Except StatusError Text :=
  (replyResult (some (reply result))).mapError .read

theorem request_eq (valid : IsPid pid) (phase : Phase) :
    phase.request pid =
      .ok ('0' :: 'x' :: phase.selector ++ removePrefix (pid.map Char.toLower)) := by
  have argument : encodeArg (.bytes32 pid) =
      .ok (removePrefix (pid.map Char.toLower)) := if_pos valid
  rw [Phase.request, StakingReader.encodeCall, List.mapM_cons, argument,
    List.mapM_nil]
  exact congrArg Except.ok (by simp)

/-- The node tells the phases by their selectors. -/
theorem node_request (phase : Phase) (argument : Text) :
    results.node contract ('0' :: 'x' :: phase.selector ++ argument) =
      some (reply (resultOf results phase)) := by
  have short : phase.selector.length = 8 := by
    cases phase <;> rfl
  rw [Results.node, slice_call short]
  cases phase <;> rfl

theorem ask_node (valid : IsPid pid) (phase : Phase) :
    ask results.node pid contract phase = asked (resultOf results phase) := by
  rw [ask, request_eq valid, asked, ← node_request results contract phase]
  rfl

theorem toOption_asked (result : Text) :
    (asked result).toOption =
      if "0x".toList.isPrefixOf result then some result else none := by
  have carried : replyResult (some (reply result)) =
      if "0x".toList.isPrefixOf result then .ok result else .error .noResult :=
    rfl
  rw [asked, carried]
  split_ifs <;> rfl

theorem toOption_lifted {Value : Type}
    (decoded : Except StakingReader.AbiError Value) :
    (lifted decoded).toOption = decoded.toOption := by
  cases decoded <;> rfl

/-- What is decoded from a result is decoded from its bytes. -/
theorem toOption_decoded {Value : Type} (result : Text)
    (decode : List UInt8 → Except StatusError Value) :
    (asked result >>= fun text => lifted (words text) >>= decode).toOption =
      (spelled result).bind fun data => (decode data).toOption := by
  rw [toOption_bind, toOption_asked, spelled]
  split_ifs
  · rw [Option.bind_some, toOption_bind, toOption_lifted]
  · rfl

/-- What the reader reports of a Pillar with an operator. -/
def readerStanding (lower : Text → Text) (pid : Text) : StakeStatus where
  pid := pid
  active := fromBigEndian ((bytesOf results.isActive).take 32) ≠ 0
  operator := some (lower ('0' :: 'x' :: toHex (addressBytes results)))
  endpoint := lower (strip (decodeUtf8 (payload (bytesOf results.endpointOf))))
  stakeUnits := fromBigEndian ((bytesOf results.stakeOf).take 32)
  contract := some contract

variable (lower : Text → Text)

theorem decodeBool_eq (text : Text) :
    decodeBool text = lifted (words text) >>= fun data =>
      .ok (decide (fromBigEndian (data.take 32) ≠ 0)) := by
  rw [decodeBool, decodeUint]
  cases words text <;> rfl

theorem toOption_readOne (valid : IsPid pid) :
    (readOne lower results.node pid contract).toOption =
      (spelled results.isActive).bind fun data =>
        (readOperator lower results.node pid contract
          (decide (fromBigEndian (data.take 32) ≠ 0))).toOption := by
  have step := toOption_decoded results.isActive fun data =>
    readOperator lower results.node pid contract
      (decide (fromBigEndian (data.take 32) ≠ 0))
  rw [← step, readOne, ask_node results contract valid]
  simp only [decodeBool_eq, bind_assoc]
  rfl

theorem isZeroAddress_nil : isZeroAddress ['0', 'x'] = .error .notANumber := rfl

theorem isZeroAddress_toHex {bytes : List UInt8} (nonempty : bytes ≠ []) :
    isZeroAddress ('0' :: 'x' :: toHex bytes) =
      .ok ((toHex bytes).all fun digit => digit = '0') := by
  cases bytes with
  | nil => exact absurd rfl nonempty
  | cons byte bytes => rfl

theorem toOption_readOperator (valid : IsPid pid) (active : Bool) :
    (readOperator lower results.node pid contract active).toOption =
      (spelled results.operatorOf).bind fun data =>
        (isZeroAddress ('0' :: 'x' :: toHex (slice data 12 32))).toOption.bind
          fun isZero =>
            if isZero then some { pid, active := false, contract := some contract }
            else (readEndpoint lower results.node pid contract active
              ('0' :: 'x' :: toHex (slice data 12 32))).toOption := by
  rw [readOperator, ask_node results contract valid]
  simp only [decodeAddress, bind_assoc, pure_bind]
  refine (toOption_decoded results.operatorOf _).trans ?_
  congr 1
  funext data
  rw [toOption_bind]
  congr 1
  funext isZero
  cases isZero <;> rfl

theorem toOption_readEndpoint (valid : IsPid pid) (active : Bool)
    (operator : Text) :
    (readEndpoint lower results.node pid contract active operator).toOption =
      (spelled results.endpointOf).bind fun data =>
        if (payload data).length ≠ lengthWord data then none
        else (decodeExactly (payload data)).toOption.bind fun endpoint =>
          (readStake lower results.node pid contract active operator
            endpoint).toOption := by
  rw [readEndpoint, ask_node results contract valid]
  simp only [StakingReader.decodeString, bind_assoc]
  refine (toOption_decoded results.endpointOf _).trans ?_
  congr 1
  funext data
  rw [← offsetWord, ← lengthWord, ← payload]
  split_ifs
  · rfl
  · exact toOption_bind _ _

theorem toOption_readStake (valid : IsPid pid) (active : Bool)
    (operator endpoint : Text) :
    (readStake lower results.node pid contract active operator
        endpoint).toOption =
      (spelled results.stakeOf).map fun data =>
        { pid, active, operator := some (lower operator)
          endpoint := lower (strip endpoint)
          stakeUnits := fromBigEndian (data.take 32)
          contract := some contract } := by
  have decode : ∀ text, lifted (decodeUint text) =
      lifted (words text) >>= fun data => .ok (fromBigEndian (data.take 32)) := by
    intro text
    rw [decodeUint]
    cases words text <;> rfl
  rw [readStake, ask_node results contract valid]
  simp only [decode, bind_assoc]
  refine (toOption_decoded results.stakeOf _).trans ?_
  rw [Option.map_eq_bind]
  rfl

theorem ok_iff_toOption {Error Value : Type} {computed : Except Error Value}
    {value : Value} :
    computed = .ok value ↔ computed.toOption = some value := by
  cases computed with
  | error error => simp [Except.toOption]
  | ok other => simp [Except.toOption]

theorem digitChar_eq_zero_iff {value : Nat} (small : value < 16) :
    value.digitChar = '0' ↔ value = 0 := by
  have checked : ∀ digit : Fin 16,
      (digit : Nat).digitChar = '0' ↔ (digit : Nat) = 0 := by decide
  exact checked ⟨value, small⟩

/-- The digits are zeros when the bytes are. -/
theorem all_toHex_iff (bytes : List UInt8) :
    ((toHex bytes).all fun digit => digit = '0') = true ↔
      ∀ byte ∈ bytes, byte = 0 := by
  induction bytes with
  | nil => simp [toHex]
  | cons byte bytes ih =>
      have bound := byte.toNat_lt
      have zero : byte = 0 ↔ byte.toNat = 0 := by
        rw [← UInt8.toNat_inj]
        rfl
      rw [toHex, List.flatMap_cons, ← toHex, List.all_append, Bool.and_eq_true,
        ih, List.forall_mem_cons, byteText, zero]
      simp only [List.all_cons, List.all_nil, Bool.and_true, Bool.and_eq_true,
        decide_eq_true_eq]
      rw [digitChar_eq_zero_iff (by omega), digitChar_eq_zero_iff (by omega)]
      refine and_congr_left fun _ => ?_
      omega

theorem not_all_toHex {results : Results} (registered : Registered results) :
    ((toHex (addressBytes results)).all fun digit => digit = '0') = false := by
  rw [← Bool.not_eq_true, all_toHex_iff]
  simpa [Registered] using registered

theorem bytesOf_eq {result : Text} {data : List UInt8}
    (read : spelled result = some data) : bytesOf result = data := by
  rw [bytesOf, read]
  rfl

theorem spelled_eq {result : Text} (spells : (spelled result).isSome) :
    spelled result = some (bytesOf result) := by
  obtain ⟨data, read⟩ := Option.isSome_iff_exists.mp spells
  rw [bytesOf_eq read, read]

theorem isUtf8_of_decodeExactly {bytes : List UInt8} {text : Text}
    (decoded : (decodeExactly bytes).toOption = some text) :
    encodeUtf8 (decodeUtf8 bytes) = bytes := by
  unfold decodeExactly at decoded
  dsimp only at decoded
  split_ifs at decoded with isUtf8
  · exact isUtf8
  · cases decoded

variable {results} (valid : IsPid pid)

include valid

theorem readOne_unregistered (reads : ReaderReads results)
    (none : ¬ Registered results) :
    readOne lower results.node pid contract =
      .ok { pid, active := false, contract := some contract } := by
  have zero : ∀ byte ∈ addressBytes results, byte = 0 := by
    simpa [Registered] using none
  rw [ok_iff_toOption, toOption_readOne _ _ _ valid, spelled_eq reads.isActive,
    Option.bind_some, toOption_readOperator _ _ _ valid,
    spelled_eq reads.operatorOf, Option.bind_some, ← addressBytes,
    isZeroAddress_toHex reads.hasAddress, (all_toHex_iff _).mpr zero]
  rfl

theorem readOne_registered (reads : ReaderReads results)
    (registered : Registered results) :
    readOne lower results.node pid contract =
      .ok (readerStanding results contract lower pid) := by
  have string := reads.endpointOf registered
  have decoded : decodeExactly (payload (bytesOf results.endpointOf)) =
      .ok (decodeUtf8 (payload (bytesOf results.endpointOf))) :=
    if_pos string.isUtf8
  rw [ok_iff_toOption, toOption_readOne _ _ _ valid, spelled_eq reads.isActive,
    Option.bind_some, toOption_readOperator _ _ _ valid,
    spelled_eq reads.operatorOf, Option.bind_some, ← addressBytes,
    isZeroAddress_toHex reads.hasAddress, not_all_toHex registered]
  change (readEndpoint lower results.node pid contract _ _).toOption = _
  rw [toOption_readEndpoint _ _ _ valid, spelled_eq string.spells,
    Option.bind_some, if_neg (not_not.mpr string.whole), decoded]
  change (readStake lower results.node pid contract _ _ _).toOption = _
  rw [toOption_readStake _ _ _ valid, spelled_eq (reads.stakeOf registered)]
  rfl

/-- A reader that gets past the endpoint has read a string and a stake. -/
theorem string_of_readEndpoint {active : Bool} {operator : Text}
    {status : StakeStatus}
    (reported : (readEndpoint lower results.node pid contract active
      operator).toOption = some status) :
    SpellsString results.endpointOf ∧ (spelled results.stakeOf).isSome := by
  rw [toOption_readEndpoint _ _ _ valid] at reported
  obtain ⟨data, endpointOf, reported⟩ := Option.bind_eq_some_iff.mp reported
  split_ifs at reported with whole
  obtain ⟨endpoint, decoded, reported⟩ := Option.bind_eq_some_iff.mp reported
  rw [toOption_readStake _ _ _ valid] at reported
  obtain ⟨stake, stakeOf, -⟩ := Option.map_eq_some_iff.mp reported
  have same := bytesOf_eq endpointOf
  refine ⟨⟨Option.isSome_iff_exists.mpr ⟨data, endpointOf⟩, ?_, ?_⟩,
    Option.isSome_iff_exists.mpr ⟨stake, stakeOf⟩⟩
  · rw [same]
    exact not_not.mp whole
  · rw [same]
    exact isUtf8_of_decodeExactly decoded

theorem readerReads_of_readOne {status : StakeStatus}
    (reported : readOne lower results.node pid contract = .ok status) :
    ReaderReads results := by
  rw [ok_iff_toOption, toOption_readOne _ _ _ valid] at reported
  obtain ⟨active, isActive, reported⟩ := Option.bind_eq_some_iff.mp reported
  rw [toOption_readOperator _ _ _ valid] at reported
  obtain ⟨operator, operatorOf, reported⟩ := Option.bind_eq_some_iff.mp reported
  have address : slice operator 12 32 = addressBytes results := by
    rw [addressBytes, bytesOf_eq operatorOf]
  rw [address] at reported
  obtain ⟨isZero, checked, reported⟩ := Option.bind_eq_some_iff.mp reported
  have hasAddress : addressBytes results ≠ [] := by
    intro empty
    rw [empty] at checked
    cases checked
  have string : Registered results → SpellsString results.endpointOf ∧
      (spelled results.stakeOf).isSome := by
    intro registered
    rw [isZeroAddress_toHex hasAddress, (not_all_toHex registered)] at checked
    cases checked
    rw [if_neg Bool.false_ne_true] at reported
    exact string_of_readEndpoint _ _ valid reported
  exact ⟨Option.isSome_iff_exists.mpr ⟨active, isActive⟩,
    Option.isSome_iff_exists.mpr ⟨operator, operatorOf⟩, hasAddress,
    fun registered => (string registered).1,
    fun registered => (string registered).2⟩

end Reader

section Values

variable {result : Text} {data : List UInt8}

theorem exists_of_spelled (read : spelled result = some data) :
    ∃ rest, result = '0' :: 'x' :: rest ∧ fromHex rest = some data ∧
      data.length % 32 = 0 := by
  unfold spelled at read
  split_ifs at read with begins
  obtain ⟨rest, rfl⟩ := List.isPrefixOf_iff_prefix.mp begins
  refine ⟨rest, rfl, ?_⟩
  change (words ('0' :: 'x' :: rest)).toOption = some data at read
  unfold words at read
  rw [removePrefix] at read
  split at read
  next => cases read
  next bytes spells =>
    split_ifs at read with aligned
    · cases read
    · cases read
      exact ⟨spells, not_not.mp aligned⟩

theorem characters_prefixed {rest : Text}
    (small : ∀ character ∈ rest, character.toNat < 128) :
    characters ('0' :: 'x' :: rest) = rest := by
  have units : codeUnits ('0' :: 'x' :: rest) = '0' :: 'x' :: rest := by
    apply JavaScript.codeUnits_of_small
    simpa using small
  rw [characters, units, removePrefix]

/-- The package reads the same characters of what spells bytes. -/
theorem characters_of_spelled (read : spelled result = some data) :
    fromHex (characters result) = some data ∧ data.length % 32 = 0 ∧
      ∀ character ∈ characters result, character.toNat < 128 := by
  obtain ⟨rest, rfl, spells, aligned⟩ := exists_of_spelled read
  have small := JavaScript.small_of_fromHex spells
  rw [characters_prefixed small]
  exact ⟨spells, aligned, small⟩

/-- A number is its first word when it has one word, or is zero. -/
theorem fromBigEndian_take_iff (nonempty : data ≠ [])
    (aligned : data.length % 32 = 0) :
    fromBigEndian data = fromBigEndian (data.take 32) ↔
      data.length = 32 ∨ ∀ byte ∈ data, byte = 0 := by
  have positive := List.length_pos_iff.mpr nonempty
  have whole := fromBigEndian_append (data.take 32) (data.drop 32)
  rw [List.take_append_drop] at whole
  have rest : (data.drop 32).length = data.length - 32 := List.length_drop
  constructor
  · intro same
    by_cases single : data.length = 32
    · exact .inl single
    · have long : 1 < 256 ^ (data.drop 32).length :=
        Nat.one_lt_pow (by omega) (by omega)
      rw [same] at whole
      have zero : fromBigEndian (data.take 32) = 0 := by
        nlinarith
      exact .inr ((fromBigEndian_eq_zero_iff _).mp (same.trans zero))
  · rintro (single | zero)
    · rw [List.take_of_length_le single.le]
    · have isZero := (fromBigEndian_eq_zero_iff data).mpr zero
      rw [isZero, eq_comm, fromBigEndian_eq_zero_iff]
      exact fun byte member => zero byte (List.mem_of_mem_take member)

/-- The first word of a number tells whether it is zero, when the rest is zero
with it. -/
theorem ne_zero_iff_take (data : List UInt8) :
    (decide (fromBigEndian data ≠ 0) =
        decide (fromBigEndian (data.take 32) ≠ 0)) ↔
      ((∀ byte ∈ data.take 32, byte = 0) → ∀ byte ∈ data, byte = 0) := by
  rw [decide_eq_decide, not_iff_not, fromBigEndian_eq_zero_iff,
    fromBigEndian_eq_zero_iff]
  refine ⟨Iff.mpr, fun first => ⟨?_, first⟩⟩
  exact fun zero byte member => zero byte (List.mem_of_mem_take member)

/-- What the package reads as a number is what the bytes spell. -/
theorem hexNumber_of_spelled (number : IsNumber (characters result))
    (spells : (spelled result).isSome) :
    hexNumber (unblanked (characters result)) = fromBigEndian (bytesOf result) ∧
      bytesOf result ≠ [] ∧ (bytesOf result).length % 32 = 0 := by
  obtain ⟨read, aligned, -⟩ := characters_of_spelled (spelled_eq spells)
  obtain ⟨value, nonempty⟩ := JavaScript.hexNumber_of_fromHex number read
  exact ⟨value, nonempty, aligned⟩

/-- The string of the bytes, when there are no blanks between them. -/
theorem hexToBytes_announced (unspaced : Unspaced result)
    (string : SpellsString result) :
    hexToBytes (announced (characters result)) =
      some (payload (bytesOf result)) := by
  obtain ⟨hex, aligned, -⟩ := characters_of_spelled (spelled_eq string.spells)
  obtain ⟨digits, blanks, split, noBlank, areBlanks⟩ := unspaced
  have areDigits : ∀ digit ∈ digits, isHexDigit digit = true := by
    intro digit member
    by_contra notDigit
    have blank := JavaScript.isBlank_of_fromHex _ hex digit
      (by rw [split]; exact List.mem_append_left _ member)
      (by simpa using notDigit)
    rw [noBlank digit member] at blank
    cases blank
  have plain : ∀ blank ∈ blanks, isHexDigit blank = false :=
    fun blank member => JavaScript.isHexDigit_of_isBlank (areBlanks blank member)
  rw [split] at hex ⊢
  exact JavaScript.hexToBytes_of_pairs
    (JavaScript.pairs_announced
      (JavaScript.pairs_of_fromHex plain digits areDigits hex) areBlanks aligned
      string.whole)

/-- The mark of the byte order. -/
def mark : Char := Char.ofNat 65279

theorem responseText_mark (rest : Text) :
    PillarClient.responseText (encodeUtf8 (mark :: rest)) = rest := by
  have bytes : encodeUtf8 (mark :: rest) = [239, 187, 191] ++ encodeUtf8 rest := by
    have first : String.utf8EncodeChar mark = [239, 187, 191] := by decide
    rw [encodeUtf8, List.flatMap_cons, first]
    rfl
  rw [PillarClient.responseText, bytes, if_pos (List.prefix_append _ _)]
  exact decodeUtf8_encodeUtf8 rest

theorem count_dropWhile (text : Text) :
    (text.dropWhile isSpace).count mark = text.count mark := by
  have none : (text.takeWhile isSpace).count mark = 0 := by
    rw [List.count_eq_zero]
    intro member
    cases List.mem_takeWhile_imp member
  have whole : text.takeWhile isSpace ++ text.dropWhile isSpace = text :=
    List.takeWhile_append_dropWhile
  rw [← congrArg (List.count mark) whole, List.count_append, none, Nat.zero_add]

theorem count_strip (text : Text) :
    (strip text).count mark = text.count mark := by
  rw [strip, List.count_reverse, count_dropWhile, List.count_reverse,
    count_dropWhile]

/-- What `str.lower` does to letters of ASCII and to marks. -/
structure LowersCase (lower : Text → Text) : Prop where
  ascii : ∀ text, (∀ character ∈ text, character.toNat < 128) →
    lower text = text.map Char.toLower
  marks : ∀ text, (lower text).count mark = text.count mark

/-- A string is read alike when it does not begin with a mark. -/
theorem endpoint_iff {lower : Text → Text} (lowers : LowersCase lower)
    {bytes : List UInt8} (isUtf8 : encodeUtf8 (decodeUtf8 bytes) = bytes) :
    lower (strip (PillarClient.responseText bytes)) =
        lower (strip (decodeUtf8 bytes)) ↔
      ¬ PillarClient.marked (decodeUtf8 bytes) := by
  constructor
  · intro same begins
    obtain ⟨rest, shape⟩ : ∃ rest, decodeUtf8 bytes = mark :: rest := by
      cases decoded : decodeUtf8 bytes with
      | nil =>
          rw [decoded] at begins
          cases begins
      | cons first rest =>
          rw [decoded] at begins
          exact ⟨rest, congrArg (· :: rest) (Option.some.inj begins)⟩
    rw [← isUtf8, shape, decodeUtf8_encodeUtf8, responseText_mark] at same
    have counts := congrArg (List.count mark) same
    rw [lowers.marks, lowers.marks, count_strip, count_strip,
      List.count_cons_self] at counts
    omega
  · intro unmarked
    have read := (PillarClient.responseText_encodeUtf8 _).mpr unmarked
    rw [isUtf8] at read
    rw [read]

theorem operator_iff {lower : Text → Text} (lowers : LowersCase lower)
    {address : Text} (small : ∀ character ∈ address, character.toNat < 128)
    (bytes : List UInt8) :
    lower ('0' :: 'x' :: address) = lower ('0' :: 'x' :: toHex bytes) ↔
      address.map Char.toLower = toHex bytes := by
  have smallHex : ∀ character ∈ toHex bytes, character.toNat < 128 :=
    JavaScript.small_of_fromHex (fromHex_toHex bytes)
  rw [lowers.ascii _ (by simpa using small),
    lowers.ascii _ (by simpa using smallHex), List.map_cons, List.map_cons,
    List.map_cons, List.map_cons, map_toLower_toHex, List.cons.injEq,
    List.cons.injEq]
  simp

end Values

section Agreement

variable {lower : Text → Text} {results : Results} {contract pid : Text}

theorem registered_iff (reads : PackageReads results) :
    (packageStanding results).registered = true ↔
      ∃ character ∈ addressCharacters results,
        isHexDigit character = true ∧ character ≠ '0' := by
  rw [← JavaScript.hexNumber_unblanked_ne_zero_iff reads.operatorOf]
  exact decide_eq_true_iff

/-- Field by field, the standings are the same when the results are spelled
alike. -/
theorem sameStanding_iff (lowers : LowersCase lower)
    (unspaced : Unspaced results.endpointOf)
    (package : PackageReads results) (reader : ReaderReads results)
    (registered : Registered results) :
    SameStanding lower (packageStanding results)
        (readerStanding results contract lower pid) ↔
      SpelledAlike results := by
  have activeRead := hexNumber_of_spelled package.isActive reader.isActive
  have stakeRead :=
    hexNumber_of_spelled package.stakeOf (reader.stakeOf registered)
  have string := reader.endpointOf registered
  have cut := hexToBytes_announced unspaced string
  have small : ∀ character ∈ addressCharacters results,
      character.toNat < 128 := by
    intro character member
    have read := characters_of_spelled (spelled_eq reader.operatorOf)
    exact read.2.2 character
      (List.mem_of_mem_drop (List.mem_of_mem_take member))
  have cutText : PillarClient.responseText (payload (bytesOf results.endpointOf)) =
      (packageStanding results).endpoint := by
    rw [packageStanding, cut, Option.getD_some]
  have active := ne_zero_iff_take (bytesOf results.isActive)
  have operator := operator_iff lowers small (addressBytes results)
  have endpoint := endpoint_iff lowers string.isUtf8
  have stakeUnits := fromBigEndian_take_iff stakeRead.2.1 stakeRead.2.2
  rw [← activeRead.1] at active
  rw [cutText] at endpoint
  rw [← stakeRead.1] at stakeUnits
  constructor
  · intro same
    exact ⟨active.mp same.active, operator.mp (Option.some.inj same.operator),
      unspaced, endpoint.mp same.endpoint, stakeUnits.mp same.stakeUnits⟩
  · intro alike
    exact ⟨active.mpr alike.isActive,
      congrArg some (operator.mpr alike.operatorOf),
      endpoint.mpr alike.unmarked, stakeUnits.mpr alike.stakeOf⟩

theorem agree_iff_reads (valid : IsPid pid) :
    Agree lower (stakeStatus results.node contract pid)
        (readOne lower results.node pid contract) ↔
      (PackageReads results ↔ ReaderReads results) ∧
        (PackageReads results →
          ((packageStanding results).registered = true ↔ Registered results)) ∧
        (PackageReads results → Registered results →
          SameStanding lower (packageStanding results)
            (readerStanding results contract lower pid)) := by
  by_cases package : PackageReads results
  · rw [stakeStatus_of_reads results contract valid package]
    by_cases reader : ReaderReads results
    · by_cases registered : Registered results
      · rw [readOne_registered contract lower valid reader registered]
        simp only [agree_reports, readerStanding, Option.isSome_some, package, reader,
          registered, iff_true, forall_const, true_and]
        exact and_congr_right fun isRegistered =>
          forall_prop_of_true isRegistered
      · rw [readOne_unregistered contract lower valid reader registered]
        simp only [agree_reports, Option.isSome_none, package, reader, registered,
          iff_false, forall_const, true_and, false_implies, and_true,
          Bool.not_eq_true]
        refine and_iff_left_of_imp fun isUnregistered isRegistered => ?_
        rw [isUnregistered] at isRegistered
        cases isRegistered
    · cases reported : readOne lower results.node pid contract with
      | ok status =>
          exact absurd (readerReads_of_readOne contract lower valid reported)
            reader
      | error error =>
          refine iff_of_false (by rintro ⟨⟩) fun alike => ?_
          exact reader (alike.1.mp package)
  · rw [stakeStatus_eq_none results contract valid package]
    cases reported : readOne lower results.node pid contract with
    | ok status =>
        refine iff_of_false (by rintro ⟨⟩) fun alike => package ?_
        exact alike.1.mpr (readerReads_of_readOne contract lower valid reported)
    | error error =>
        have reader : ¬ ReaderReads results := by
          intro reads
          by_cases registered : Registered results
          · rw [readOne_registered contract lower valid reads registered]
              at reported
            cases reported
          · rw [readOne_unregistered contract lower valid reads registered]
              at reported
            cases reported
        exact iff_of_true (.reject error) (by simp [package, reader])

/-- Only a PID is asked about. -/
theorem agree_of_not_isPid (invalid : ¬ IsPid pid) :
    Agree lower (stakeStatus results.node contract pid)
      (readOne lower results.node pid contract) := by
  have rejected : stakeStatus results.node contract pid = none := by
    unfold stakeStatus
    dsimp only
    split
    next => rfl
    next valid => exact absurd (not_not.mp valid) invalid
  have refused : Phase.isActive.request pid =
      .error (.notBytes32 pid) := by
    have argument : encodeArg (.bytes32 pid) = .error (.notBytes32 pid) :=
      if_neg invalid
    rw [Phase.request, StakingReader.encodeCall, List.mapM_cons, argument]
    rfl
  rw [rejected, readOne, ask, refused]
  exact .reject _

/-- The readers agree when the results are read alike, and, unless there are
blanks in the endpoint, only then. -/
theorem same_report_iff (lowers : LowersCase lower) :
    ((IsPid pid → ReadAlike results) →
      Agree lower (stakeStatus results.node contract pid)
        (readOne lower results.node pid contract)) ∧
    (Unspaced results.endpointOf →
      Agree lower (stakeStatus results.node contract pid)
        (readOne lower results.node pid contract) →
      IsPid pid → ReadAlike results) := by
  constructor
  · intro alike
    by_cases valid : IsPid pid
    · obtain ⟨reads, registered, spelled⟩ := alike valid
      refine (agree_iff_reads valid).mpr ⟨reads, fun package => ?_,
        fun package isRegistered => ?_⟩
      · rw [registered_iff package]
        exact registered package
      · have same := spelled package isRegistered
        exact (sameStanding_iff lowers same.unspaced package
          (reads.mp package) isRegistered).mpr same
    · exact agree_of_not_isPid valid
  · intro unspaced agree valid
    obtain ⟨reads, registered, same⟩ := (agree_iff_reads valid).mp agree
    refine ⟨reads, fun package => ?_, fun package isRegistered => ?_⟩
    · rw [← registered_iff package]
      exact registered package
    · exact (sameStanding_iff lowers unspaced package (reads.mp package)
        isRegistered).mp (same package isRegistered)

end Agreement

section Samples

theorem toLower_eq_mark_iff (character : Char) :
    character.toLower = mark ↔ character = mark := by
  by_cases small : character.toNat < 128
  · have checked : ∀ code : Fin 128, (Char.ofNat code).toLower ≠ mark ∧
        Char.ofNat code ≠ mark := by decide
    have other := checked ⟨character.toNat, small⟩
    rw [Char.ofNat_toNat] at other
    exact iff_of_false other.1 other.2
  · rw [ForwardedFor.toLower_of_wide (by omega)]

theorem lowersCase_toLower : LowersCase (List.map Char.toLower) where
  ascii _ _ := rfl
  marks text := by
    induction text with
    | nil => rfl
    | cons first rest ih =>
        rw [List.map_cons, List.count_cons, List.count_cons, ih]
        simp only [beq_iff_eq, toLower_eq_mark_iff]

/-- A PID of zeros. -/
def zeroPid : Text := List.replicate 64 '0'

/-- An active Pillar with a stake of one unit, and a string whose length word
ends in two digits and whose first byte has the other two. -/
def sample (length byte : Text) : Results where
  isActive := '0' :: 'x' :: (List.replicate 63 '0' ++ ['1'])
  operatorOf := '0' :: 'x' :: (List.replicate 24 '0' ++ List.replicate 40 'A')
  endpointOf := '0' :: 'x' :: (List.replicate 62 '0' ++ ['2', '0'] ++
    List.replicate 62 '0' ++ length ++ byte ++ List.replicate 62 '0')
  stakeOf := '0' :: 'x' :: (List.replicate 63 '0' ++ ['1'])

def standard : Results := sample ['0', '1'] ['6', '1']

theorem readAlike_standard : ReadAlike standard := by
  have package : PackageReads standard :=
    ⟨by decide +kernel, by decide +kernel, by decide +kernel, by decide +kernel⟩
  have registered : Registered standard := by
    unfold Registered
    decide +kernel
  have string : SpellsString standard.endpointOf :=
    ⟨by decide +kernel, by decide +kernel, by decide +kernel⟩
  have plain : ((characters standard.endpointOf).all fun character =>
      !isBlank character) = true := by
    decide +kernel
  refine ⟨iff_of_true package ?_, fun _ => iff_of_true ?_ registered, fun _ _ => ?_⟩
  · exact ⟨by decide +kernel, by decide +kernel, by decide +kernel,
      fun _ => string, fun _ => by decide +kernel⟩
  · exact ⟨'A', by decide +kernel, by decide, by decide⟩
  · refine ⟨by decide +kernel, by decide +kernel,
      ⟨characters standard.endpointOf, [], by simp, ?_, by simp⟩, ?_,
      .inl (by decide +kernel)⟩
    · simpa using plain
    · unfold PillarClient.marked
      decide +kernel

/-- A standard encoding is read alike. -/
theorem same_report_standard :
    Agree (List.map Char.toLower) (stakeStatus standard.node [] zeroPid)
      (readOne (List.map Char.toLower) standard.node zeroPid []) := by
  exact (same_report_iff lowersCase_toLower).1 fun _ => readAlike_standard

theorem not_agree_of_refuses {lower : Text → Text}
    {read : Option Standing} {status : Except StatusError StakeStatus}
    (reports : read.isSome = true) (refuses : status.toOption.isSome = false) :
    ¬ Agree lower read status := by
  cases read with
  | none => cases reports
  | some standing =>
      cases status with
      | error error => rintro ⟨⟩
      | ok status => cases refuses

/-- The package reports a string of which half is missing, and one that is not
UTF-8. -/
theorem not_agree :
    ¬ Agree (List.map Char.toLower)
        (stakeStatus (sample ['4', '0'] ['6', '1']).node [] zeroPid)
        (readOne (List.map Char.toLower) (sample ['4', '0'] ['6', '1']).node
          zeroPid []) ∧
      ¬ Agree (List.map Char.toLower)
        (stakeStatus (sample ['0', '1'] ['f', 'f']).node [] zeroPid)
        (readOne (List.map Char.toLower) (sample ['0', '1'] ['f', 'f']).node
          zeroPid []) :=
  ⟨not_agree_of_refuses (by decide +kernel) (by decide +kernel),
    not_agree_of_refuses (by decide +kernel) (by decide +kernel)⟩

end Samples

end StakeReaders

end RefinetPillars
