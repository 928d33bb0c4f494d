import RefinetPillars.LivenessOffline
import RefinetPillars.StakeReadersAgreement

/-!
# Standings of a contract as read

Behind an honest node, the reader of a Pillar and the package for applications
report what the staking contract holds.  They differ in one case only: a Pillar
whose endpoint is not UTF-8 can be read by the package alone.
-/

namespace RefinetPillars

namespace PillarStaking

open RunHistory

variable {this : Address}

/-- A transaction keeps the total within its bound. -/
theorem Tx.Effect.totalStaked_lt {tx : Tx this} {world final : World}
    (effect : tx.Effect world final)
    (bounded : world.totalStaked < uint256Size) :
    final.totalStaked < uint256Size := by
  obtain ⟨msg, call, token⟩ := tx
  cases call with
  | register pid amount endpoint =>
      obtain ⟨_, _, _, _, _, _, _, _, fits, rfl⟩ := effect
      exact fits
  | topUp pid amount =>
      obtain ⟨_, _, _, _, _, _, _, fits, rfl⟩ := effect
      exact fits
  | setEndpoint pid endpoint =>
      obtain ⟨_, _, rfl⟩ := effect
      exact bounded
  | requestUnstake pid =>
      obtain ⟨_, _, rfl⟩ := effect
      exact bounded
  | cancelUnstake pid =>
      obtain ⟨_, _, rfl⟩ := effect
      exact bounded
  | withdraw pid =>
      obtain ⟨_, _, _, _, _, _, _, _, rfl⟩ := effect
      exact (Nat.sub_le _ _).trans_lt bounded
  | recordInactive pids day =>
      obtain ⟨_, _, _, _, _, _, rfl⟩ := effect
      exact (Nat.sub_le _ _).trans_lt bounded
  | sweepFees =>
      obtain ⟨_, _, _, rfl⟩ := effect
      exact bounded
  | sweepExcess =>
      obtain ⟨_, _, _, rfl⟩ := effect
      exact bounded
  | setFeeRecipient feeRecipient =>
      obtain ⟨_, _, _, rfl⟩ := effect
      exact bounded
  | grantRole role account =>
      obtain ⟨_, rfl⟩ := effect
      exact bounded
  | revokeRole role account =>
      obtain ⟨_, rfl⟩ := effect
      exact bounded
  | renounceRole role confirmation =>
      obtain ⟨_, rfl⟩ := effect
      exact bounded

theorem totalStaked_lt_apply (input : Input this) {world : World}
    (bounded : world.totalStaked < uint256Size) :
    (input.apply world).totalStaked < uint256Size := by
  cases input with
  | tokenTransfer timestamp amount others =>
      simp only [Input.apply]
      split <;> exact bounded
  | transaction tx =>
      rcases apply_transaction_cases tx world with effect | unchanged
      · exact effect.totalStaked_lt bounded
      · rw [unchanged]
        exact bounded

/-- In every reachable state the total of the stakes, and with it each of them,
is a number of 256 bits. -/
theorem staked_lt_runInputs {token admin feeRecipient : Address}
    {balanceOf : Balances} {start : World}
    (deployed : deploy this token admin feeRecipient balanceOf = .ok start)
    (inputs : List (Input this)) (pid : Pid) :
    stakeOf (runInputs start inputs).toStorage pid < uint256Size := by
  have initially : start.totalStaked < uint256Size := by
    unfold deploy at deployed
    split at deployed
    · cases deployed
    · rw [← Except.ok.inj deployed]
      simp [uint256Size]
  have kept : ∀ (input : Input this) (world : World), True →
      world.totalStaked < uint256Size →
      (input.apply world).totalStaked < uint256Size :=
    fun input world _ bounded => totalStaked_lt_apply input bounded
  have total : (runInputs start inputs).totalStaked < uint256Size :=
    @run_invariant _ _ _ start (fun world => world.totalStaked < uint256Size)
      (fun _ => True) inputs initially kept fun _ _ => trivial
  exact ((sound_runInputs deployed inputs).staked_le_totalStaked pid).trans_lt
    total

end PillarStaking

namespace StakeReaders

open HexText Utf8Text KeyRecovery LineText
open LivenessMonitor (nodeReply nodeResult)
open PillarStaking (Address Balances Input Pid Storage World deploy runInputs
  uint256Size)
open StakingReader (Json Phase StakeStatus StatusError abiAddress abiStringOf
  abiUint addressText ask decodeBool decodeExactly isZeroAddress lengthWord
  lifted pidText readEndpoint readOne readOperator readStake rightPadded
  slice_headed word words)
open JavaScript (isBlankOrBreak IsNumber Standing announced bigInt hexNumber hexToBytes
  isHexDigit payload stakeStatus unblanked)

section Encodings

theorem isHexDigit_toHex (bytes : List UInt8) :
    ∀ digit ∈ toHex bytes, isHexDigit digit = true :=
  JavaScript.isHexDigit_of_pairs _ (WellKnownAgreement.pairs_toHex bytes)

theorem unblanked_toHex (bytes : List UInt8) :
    unblanked (toHex bytes) = toHex bytes := by
  have first : ∀ digit ∈ (toHex bytes).reverse,
      isBlankOrBreak digit = false := fun digit member =>
    JavaScript.not_isBlankOrBreak
      (isHexDigit_toHex bytes digit (List.mem_reverse.mp member))
  have kept : (toHex bytes).reverse.dropWhile isBlankOrBreak =
      (toHex bytes).reverse := by
    cases reversed : (toHex bytes).reverse with
    | nil => rfl
    | cons digit rest =>
        rw [List.dropWhile_cons_of_neg]
        rw [reversed] at first
        simp [first digit (by simp)]
  rw [unblanked, kept, List.reverse_reverse]

/-- The package reads bytes as the number they spell. -/
theorem bigInt_toHex {bytes : List UInt8} (nonempty : bytes ≠ []) :
    bigInt (toHex bytes) = some (fromBigEndian bytes) := by
  have number : IsNumber (toHex bytes) := by
    rw [IsNumber, unblanked_toHex, List.all_eq_true]
    refine ⟨fun empty => nonempty ?_, isHexDigit_toHex bytes⟩
    exact toHex_injective empty
  rw [bigInt, if_pos number, JavaScript.hexNumber_of_fromHex number
    (fromHex_toHex bytes) |>.1]

theorem characters_toHex (bytes : List UInt8) :
    characters ('0' :: 'x' :: toHex bytes) = toHex bytes :=
  characters_prefixed (JavaScript.small_of_fromHex (fromHex_toHex bytes))

theorem word_ne_nil (value : Nat) : word value ≠ [] := by
  intro empty
  have length := StakingReader.length_word value
  rw [empty] at length
  cases length

theorem bigInt_abiUint {value : Nat} (fits : value < uint256Size) :
    bigInt (characters (abiUint value)) = some value := by
  rw [abiUint, characters_toHex, bigInt_toHex (word_ne_nil value),
    StakingReader.fromBigEndian_word fits]

/-- The characters of an address are those of its last twenty bytes. -/
theorem slice_abiAddress (address : Address) :
    slice (characters (abiAddress address)) 24 64 =
      toHex (bigEndian 20 address.toNat) := by
  have split : toHex (word address.toNat) =
      toHex ((word address.toNat).take 12) ++
        toHex (bigEndian 20 address.toNat) := by
    rw [← toHex_append, ← StakingReader.drop_bigEndian 12 20, word,
      List.take_append_drop]
  have high : (toHex ((word address.toNat).take 12)).length = 24 := by
    rw [StakingReader.length_toHex, List.length_take,
      StakingReader.length_word]
    rfl
  have low : (toHex (bigEndian 20 address.toNat)).length = 64 - 24 := by
    rw [StakingReader.length_toHex, length_bigEndian]
  rw [abiAddress, abiUint, characters_toHex, split, slice,
    List.drop_left' high, ← low, List.take_length]

theorem address_lt (address : Address) : address.toNat < 256 ^ 20 :=
  address.isLt.trans_le (by norm_num)

theorem bigInt_address (address : Address) :
    bigInt (slice (characters (abiAddress address)) 24 64) =
      some address.toNat := by
  have nonempty : bigEndian 20 address.toNat ≠ [] := by
    intro empty
    have length := length_bigEndian 20 address.toNat
    rw [empty] at length
    cases length
  rw [slice_abiAddress, bigInt_toHex nonempty,
    fromBigEndian_bigEndian (address_lt address)]

/-- The package cuts the bytes of a string out of its encoding. -/
theorem hexToBytes_abiStringOf {bytes : List UInt8}
    (fits : bytes.length < uint256Size) :
    hexToBytes (announced (characters (abiStringOf bytes))) = some bytes := by
  have cut : payload (word 32 ++ word bytes.length ++ rightPadded bytes) =
      bytes := by
    rw [payload, StakingReader.offsetWord_headed,
      StakingReader.lengthWord_headed _ fits, slice_headed]
    exact List.take_left
  have aligned : (word 32 ++ word bytes.length ++
      rightPadded bytes).length % 32 = 0 := by
    have padded := StakingReader.length_rightPadded bytes
    rw [List.length_append, List.length_append, StakingReader.length_word,
      StakingReader.length_word]
    omega
  have noBlanks : ∀ blank ∈ ([] : Text), isBlank blank = true := by simp
  have read := JavaScript.pairs_announced
    (WellKnownAgreement.pairs_toHex (word 32 ++ word bytes.length ++ rightPadded bytes))
    noBlanks aligned
    (by rw [cut, StakingReader.lengthWord_headed _ fits])
  rw [List.append_nil, cut] at read
  rw [abiStringOf, characters_toHex]
  exact JavaScript.hexToBytes_of_pairs read

end Encodings

section Node

variable {storage : Storage} {now : Nat} {contract : Text} {pid : Pid}

/-- The node finds the PID in the data of a call. -/
theorem nodeReply_call (phase : Phase) :
    nodeReply storage now contract
        ('0' :: 'x' :: phase.selector ++ toHex (word pid.toNat)) =
      some (reply (nodeResult storage now pid phase)) := by
  have length := LivenessMonitor.length_selector phase
  have selected : ((('0' :: 'x' :: phase.selector ++
      toHex (word pid.toNat)).drop 2).take 8) = phase.selector := by
    rw [List.cons_append, List.cons_append, List.drop_succ_cons,
      List.drop_succ_cons, List.drop_zero, List.take_left' length]
  have argument : ('0' :: 'x' :: phase.selector ++
      toHex (word pid.toNat)).drop 10 = toHex (word pid.toNat) := by
    rw [List.cons_append, List.cons_append, List.drop_succ_cons,
      List.drop_succ_cons, List.drop_left' length]
  have read : BitVec.ofNat 256 (fromBigEndian ((fromHex
      (toHex (word pid.toNat))).getD [])) = pid := by
    rw [fromHex_toHex, Option.getD_some,
      StakingReader.fromBigEndian_word pid.isLt, BitVec.ofNat_toNat,
      BitVec.setWidth_eq]
  simp only [nodeReply, selected, argument, read]
  cases phase <;> rfl

theorem ethCall_nodeReply (phase : Phase) :
    JavaScript.ethCall (nodeReply storage now) contract
        ('0' :: 'x' :: phase.selector ++ toHex (word pid.toNat)) =
      some (characters (nodeResult storage now pid phase)) := by
  rw [JavaScript.ethCall, nodeReply_call]
  rfl

/-- What the contract holds, as the package has it. -/
def contractStanding (storage : Storage) (now : Nat) (pid : Pid) :
    Standing where
  active := PillarStaking.isActive storage now pid
  registered := decide (storage.Registered pid)
  operator := addressText (PillarStaking.operatorOf storage pid)
  endpoint := PillarClient.responseText (PillarStaking.endpointOf storage pid)
  stakeUnits := PillarStaking.stakeOf storage pid

/-- What the contract holds, as the reader has it: a Pillar without an operator
has nothing else, and an endpoint has to be UTF-8. -/
def contractStatus (lower : Text → Text) (storage : Storage) (now : Nat)
    (contract : Text) (pid : Pid) : Except StatusError StakeStatus :=
  if storage.Registered pid then
    (decodeExactly (PillarStaking.endpointOf storage pid)).map fun endpoint =>
      { pid := pidText pid
        active := PillarStaking.isActive storage now pid
        operator :=
          some (lower (addressText (PillarStaking.operatorOf storage pid)))
        endpoint := lower (strip endpoint)
        stakeUnits := PillarStaking.stakeOf storage pid
        contract := some contract }
  else .ok { pid := pidText pid, active := false, contract := some contract }

theorem stakeStatus_nodeReply
    (stakeFits : PillarStaking.stakeOf storage pid < uint256Size)
    (endpointFits :
      (PillarStaking.endpointOf storage pid).length < uint256Size) :
    stakeStatus (nodeReply storage now) contract (pidText pid) =
      some (contractStanding storage now pid) := by
  have lowered : StakingReader.removePrefix ((pidText pid).map Char.toLower) =
      toHex (word pid.toNat) := by
    rw [pidText, map_toLower_toHex, LivenessMonitor.removePrefix_toHex]
  have active : bigInt (characters (nodeResult storage now pid .isActive)) =
      some (if PillarStaking.isActive storage now pid then 1 else 0) :=
    bigInt_abiUint (by split <;> decide)
  have address : slice (characters (nodeResult storage now pid
      (.operatorOf true))) 24 64 =
      toHex (bigEndian 20 (PillarStaking.operatorOf storage pid).toNat) :=
    slice_abiAddress _
  have operator := bigInt_address (PillarStaking.operatorOf storage pid)
  rw [slice_abiAddress] at operator
  have endpoint := hexToBytes_abiStringOf endpointFits
  have stake := bigInt_abiUint stakeFits
  have calls : ∀ phase : Phase, JavaScript.ethCall (nodeReply storage now)
      contract ('0' :: 'x' :: phase.selector ++ toHex (word pid.toNat)) =
        some (characters (nodeResult storage now pid phase)) :=
    fun phase => ethCall_nodeReply phase
  have isActiveCall := calls .isActive
  have operatorCall := calls (.operatorOf true)
  have endpointCall := calls (.endpointOf true [])
  have stakeCall := calls (.stakeOf true [] [])
  simp only [Phase.selector] at isActiveCall operatorCall endpointCall stakeCall
  have valid : (toHex (word pid.toNat)).length = 64 ∧
      (toHex (word pid.toNat)).all StakingReader.isLowerHex = true := by
    refine ⟨?_, StakingReader.isLowerHex_toHex _⟩
    rw [StakingReader.length_toHex, StakingReader.length_word]
  simp only [stakeStatus, lowered, valid, and_self, not_true_eq_false,
    if_false, isActiveCall, operatorCall, endpointCall, stakeCall,
    Option.bind_eq_bind, Option.bind_some, active, address, operator]
  have endpointText : JavaScript.decodeString
      (characters (nodeResult storage now pid (.endpointOf true []))) =
        some (PillarClient.responseText
          (PillarStaking.endpointOf storage pid)) := by
    rw [JavaScript.decodeString]
    exact congrArg (Option.map PillarClient.responseText) endpoint
  have stakeNumber : bigInt (characters (nodeResult storage now pid
      (.stakeOf true [] []))) = some (PillarStaking.stakeOf storage pid) :=
    stake
  have registered :
      (decide ((PillarStaking.operatorOf storage pid).toNat ≠ 0)) =
        decide (storage.Registered pid) := by
    rw [decide_eq_decide, Storage.Registered, not_iff_not, ← BitVec.toNat_inj]
    rfl
  rw [endpointText, Option.bind_some, stakeNumber, Option.bind_some,
    registered]
  have isActive : decide
      ((if PillarStaking.isActive storage now pid then 1 else 0) ≠ 0) =
        PillarStaking.isActive storage now pid := by
    cases PillarStaking.isActive storage now pid <;> rfl
  rw [isActive]
  rfl

/-- `_read_one` against a node that answers. -/
theorem readOne_eq_contractStatus {lower : Text → Text}
    (stakeFits : PillarStaking.stakeOf storage pid < uint256Size)
    (endpointFits :
      (PillarStaking.endpointOf storage pid).length < uint256Size) :
    readOne lower (nodeReply storage now) (pidText pid) contract =
      contractStatus lower storage now contract pid := by
  have bool : decodeBool
      (abiUint (if PillarStaking.isActive storage now pid then 1 else 0)) =
        .ok (PillarStaking.isActive storage now pid) := by
    rw [decodeBool, StakingReader.decodeUint_abiUint (by split <;> decide)]
    cases PillarStaking.isActive storage now pid <;> rfl
  simp only [readOne, readOperator, readEndpoint, readStake,
    LivenessMonitor.ask_nodeReply, nodeResult, bool,
    StakingReader.decodeAddress_abiAddress,
    LivenessMonitor.isZeroAddress_addressText,
    StakingReader.decodeString_abiStringOf endpointFits,
    StakingReader.decodeUint_abiUint stakeFits, bind, Except.bind,
    contractStatus]
  by_cases zero : PillarStaking.operatorOf storage pid = 0
  · have unregistered : ¬ storage.Registered pid := fun registered =>
      registered zero
    rw [if_neg unregistered]
    simp only [zero, if_true, decide_true]
    rfl
  · have registered : storage.Registered pid := zero
    rw [if_pos registered]
    simp only [zero, decide_false]
    cases decodeExactly (PillarStaking.endpointOf storage pid) <;> rfl

end Node

end StakeReaders

end RefinetPillars
