import RefinetPillars.LivenessRounds
import RefinetPillars.PillarStakingLiveness
import RefinetPillars.StakingAbiCodec
import RefinetPillars.StakingStatusOrder

/-!
# Pillars that are offline

Which Pillars a round probes when it reads the standing from a node of the
chain, and what becomes of a Pillar that does not answer all day.  A Pillar that
no round probes is left alone, so an operator escapes by leaving the endpoint
blank.
-/

namespace RefinetPillars

namespace LivenessMonitor

open ContentSigning HexText KeyRecovery LineText PillarStaking StakingReader
open HttpGateway (servedHeaders carries_servedHeaders)

section Node

/-- What a node answers to the calls of `_read_one` at a moment. -/
def nodeReply (storage : Storage) (now : Nat) (_contract data : Text) :
    Option Json :=
  let pid : PillarStaking.Pid :=
    BitVec.ofNat 256 (fromBigEndian ((fromHex (data.drop 10)).getD []))
  let selector := (data.drop 2).take 8
  let result :=
    if selector = selIsActive then
      abiUint (if isActive storage now pid then 1 else 0)
    else if selector = selOperatorOf then abiAddress (operatorOf storage pid)
    else if selector = selEndpointOf then abiStringOf (endpointOf storage pid)
    else abiUint (stakeOf storage pid)
  some (.object [("result".toList, .text result)])

variable {storage : Storage} {now : Nat} {contract : Text}
  {pid : PillarStaking.Pid}

theorem removePrefix_toHex (bytes : List UInt8) :
    removePrefix (toHex bytes) = toHex bytes := by
  unfold removePrefix
  split
  · rename_i rest spelled
    have digit : 'x' ∈ toHex bytes := by simp [spelled]
    obtain ⟨value, small, isX⟩ := exists_digit_of_mem_toHex digit
    have checked : ∀ digit : Fin 16, 'x' ≠ (digit : Nat).digitChar := by decide
    exact absurd isX (checked ⟨value, small⟩)
  · rfl

theorem fits_pidText (pid : PillarStaking.Pid) :
    (Arg.bytes32 (pidText pid)).Fits := by
  refine ⟨word pid.toNat, length_word _, ?_⟩
  rw [pidText, map_toLower_toHex, removePrefix_toHex]

theorem request_pidText (phase : StakingReader.Phase) :
    phase.request (pidText pid) =
      .ok ('0' :: 'x' :: phase.selector ++ toHex (word pid.toNat)) := by
  rw [StakingReader.Phase.request, encodeCall_standard phase.selector
    (by simpa using fits_pidText pid), standardCall]
  simp only [List.map_cons, List.map_nil, Arg.standard, pidText,
    map_toLower_toHex, removePrefix_toHex, fromHex_toHex,
    Option.getD_some, List.flatten_cons, List.flatten_nil, List.append_nil]

theorem length_selector (phase : StakingReader.Phase) : phase.selector.length = 8 := by
  cases phase <;> rfl

/-- The result that the node returns in a phase. -/
def nodeResult (storage : Storage) (now : Nat) (pid : PillarStaking.Pid) :
    StakingReader.Phase → Text
  | .isActive => abiUint (if isActive storage now pid then 1 else 0)
  | .operatorOf _ => abiAddress (operatorOf storage pid)
  | .endpointOf _ _ => abiStringOf (endpointOf storage pid)
  | .stakeOf _ _ _ => abiUint (stakeOf storage pid)

theorem ask_nodeReply (phase : StakingReader.Phase) :
    ask (nodeReply storage now) (pidText pid) contract phase =
      .ok (nodeResult storage now pid phase) := by
  have selected : ((('0' :: 'x' :: phase.selector ++
      toHex (word pid.toNat)).drop 2).take 8) = phase.selector := by
    rw [List.cons_append, List.cons_append, List.drop_succ_cons,
      List.drop_succ_cons, List.drop_zero,
      List.take_left' (length_selector phase)]
  have argument : ('0' :: 'x' :: phase.selector ++
      toHex (word pid.toNat)).drop 10 = toHex (word pid.toNat) := by
    rw [List.cons_append, List.cons_append, List.drop_succ_cons,
      List.drop_succ_cons, List.drop_left' (length_selector phase)]
  have read : BitVec.ofNat 256 (fromBigEndian ((fromHex
      (toHex (word pid.toNat))).getD [])) = pid := by
    rw [fromHex_toHex, Option.getD_some, fromBigEndian_word pid.isLt,
      BitVec.ofNat_toNat, BitVec.setWidth_eq]
  rw [ask, request_pidText]
  simp only [lifted, Except.mapError, bind, Except.bind, nodeReply, selected,
    argument, read]
  cases phase <;> rfl

/-- Only the number zero is written with zeros alone. -/
theorem toHex_zeros_iff {width value : Nat} (fits : value < 256 ^ width) :
    (∀ digit ∈ toHex (bigEndian width value), digit = '0') ↔ value = 0 := by
  constructor
  · intro zeros
    have spelled : toHex (bigEndian width value) =
        List.replicate (2 * width) '0' := by
      rw [List.eq_replicate_iff, length_toHex, length_bigEndian]
      exact ⟨rfl, zeros⟩
    have zero : toHex (bigEndian width 0) = List.replicate (2 * width) '0' := by
      rw [toHex_bigEndian, hexDigits_zero]
    have same := congrArg fromBigEndian
      (toHex_injective (spelled.trans zero.symm))
    rwa [fromBigEndian_bigEndian fits,
      fromBigEndian_bigEndian (Nat.pos_of_neZero _)] at same
  · rintro rfl digit member
    rw [toHex_bigEndian, hexDigits_zero] at member
    exact List.eq_of_mem_replicate member

theorem isZeroAddress_addressText (address : Address) :
    isZeroAddress (addressText address) = .ok (decide (address = 0)) := by
  have small : address.toNat < 256 ^ 20 :=
    address.isLt.trans_eq (by norm_num)
  have zeros := toHex_zeros_iff small
  have length := length_toHex (bigEndian 20 address.toNat)
  rw [length_bigEndian] at length
  rw [isZeroAddress, addressText, List.drop_succ_cons, List.drop_succ_cons,
    List.drop_zero]
  generalize toHex (bigEndian 20 address.toNat) = digits at zeros length ⊢
  cases digits with
  | nil => cases length
  | cons digit digits =>
      dsimp only
      congr 1
      rw [Bool.eq_iff_iff, decide_eq_true_eq, List.all_eq_true]
      simp only [decide_eq_true_eq]
      rw [zeros, ← BitVec.toNat_inj]
      rfl

theorem exists_decodeUint_abiUint (value : Nat) :
    ∃ read, decodeUint (abiUint value) = .ok read := by
  have read : words (abiUint value) = .ok (word value) := words_toHex (by simp)
  exact ⟨_, by rw [decodeUint, read]; rfl⟩

/-- What `_read_one` makes of a node that answers. -/
theorem readOne_nodeReply {lower : Text → Text}
    (fits : (endpointOf storage pid).length < uint256Size) :
    ∃ stake, readOne lower (nodeReply storage now) (pidText pid) contract =
      if operatorOf storage pid = 0 then
        .ok { pid := pidText pid, active := false, contract := some contract }
      else
        (decodeExactly (endpointOf storage pid)).map fun endpoint =>
          { pid := pidText pid
            active := isActive storage now pid
            operator := some (lower (addressText (operatorOf storage pid)))
            endpoint := lower (strip endpoint)
            stakeUnits := stake
            contract := some contract } := by
  obtain ⟨stake, readStakeEq⟩ := exists_decodeUint_abiUint (stakeOf storage pid)
  refine ⟨stake, ?_⟩
  have bool : decodeBool (abiUint (if isActive storage now pid then 1 else 0)) =
      .ok (isActive storage now pid) := by
    rw [decodeBool, decodeUint_abiUint (by split <;> decide)]
    cases isActive storage now pid <;> rfl
  simp only [readOne, readOperator, readEndpoint, readStake, ask_nodeReply,
    nodeResult, bool, decodeAddress_abiAddress, isZeroAddress_addressText,
    decodeString_abiStringOf fits, readStakeEq, bind, Except.bind]
  by_cases zero : operatorOf storage pid = 0
  · simp only [zero, if_true, decide_true]
    rfl
  · simp only [zero, if_false, decide_false]
    cases decodeExactly (endpointOf storage pid) <;> rfl

theorem isPid_pidText (pid : PillarStaking.Pid) : isPid (pidText pid) = true := by
  have length : (pidText pid).length = 64 := by
    rw [pidText, length_toHex, length_word]
  rw [isPid, List.take_of_length_le length.le, pidText, isLowerHex_toHex,
    ← pidText, length]
  rfl

/-- The round reads the standing of every Pillar from a node that answers, and
the directory of the only contract. -/
structure Round.ReadsNode (round : Round) (lower : Text → Text)
    (contract : Text) (storage : Storage) (now : Nat) : Prop where
  status : ∀ text, round.status text =
    statusOf lower (nodeReply storage now) text [contract] round.ts none

/-- An endpoint that is UTF-8 text with more than white space in it. -/
def Readable (endpoint : List UInt8) : Prop :=
  ∃ text, encodeUtf8 text = endpoint ∧ strip text ≠ []

theorem decodeExactly_eq_ok {bytes : List UInt8} {text : Text} :
    decodeExactly bytes = .ok text ↔ encodeUtf8 text = bytes := by
  constructor
  · intro decoded
    rw [decodeExactly] at decoded
    split_ifs at decoded with whole
    obtain rfl := Except.ok.inj decoded
    exact whole
  · rintro rfl
    exact decodeExactly_encodeUtf8 text

/-- With a node that answers, a round probes the Pillars of the directory that
are registered with a readable endpoint. -/
theorem Round.ReadsNode.probes_iff {round : Round} {lower : Text → Text}
    (reads : round.ReadsNode lower contract storage now)
    (keeps : ∀ text, lower text = [] ↔ text = [])
    (fits : (endpointOf storage pid).length < uint256Size) :
    round.Probes (pidText pid) ↔
      (∃ pids ∈ round.directory, pidText pid ∈ pids) ∧
        storage.Registered pid ∧ Readable (endpointOf storage pid) := by
  have standing : (round.status (pidText pid)).operator.getD [] ≠ [] ∧
      (round.status (pidText pid)).endpoint ≠ [] ↔
        storage.Registered pid ∧ Readable (endpointOf storage pid) := by
    obtain ⟨stake, read⟩ := @readOne_nodeReply storage now contract pid lower fits
    rw [reads.status, statusOf, if_neg (by rw [isPid_pidText]; decide)]
    simp only [Option.filter_none, readContracts, read]
    by_cases absent : operatorOf storage pid = 0
    · have unregistered : ¬ storage.Registered pid := fun registered =>
        registered absent
      simp [absent, unregistered, bind, Except.bind]
    · have registered : storage.Registered pid := absent
      rw [if_neg absent]
      cases decoded : decodeExactly (endpointOf storage pid) with
      | error error =>
          have unreadable : ¬ Readable (endpointOf storage pid) := by
            rintro ⟨text, encoded, _⟩
            rw [decodeExactly_eq_ok.mpr encoded] at decoded
            cases decoded
          simp [unreadable, bind, Except.bind, Except.map, StatusCall.failed]
      | ok text =>
          have readable : Readable (endpointOf storage pid) ↔
              lower (strip text) ≠ [] := by
            rw [Ne, keeps]
            constructor
            · rintro ⟨other, encoded, visible⟩
              rw [decodeExactly_eq_ok.mpr encoded] at decoded
              obtain rfl := Except.ok.inj decoded
              exact visible
            · exact fun visible =>
                ⟨text, decodeExactly_eq_ok.mp decoded, visible⟩
          have named : lower (addressText (operatorOf storage pid)) ≠ [] := by
            rw [Ne, keeps]
            exact List.cons_ne_nil _ _
          simp only [Except.map, bind, Except.bind, readable, registered,
            true_and]
          cases isActive storage now pid <;>
            simp [named, pure, Except.pure]
  constructor
  · rintro ⟨pids, found, member, standingOf⟩
    exact ⟨⟨pids, found, member⟩, standing.mp standingOf⟩
  · rintro ⟨⟨pids, found, member⟩, standingOf⟩
    exact ⟨pids, found, member, standing.mpr standingOf⟩

end Node

section Contract

variable {this : Address} {world final : World} {pid : PillarStaking.Pid}

/-- The endpoint of a Pillar fits the contract's bound. -/
theorem length_endpoint {token admin feeRecipient : Address}
    {balanceOf : Balances} {start : World}
    (deployed : deploy this token admin feeRecipient balanceOf = .ok start)
    (inputs : List (PillarStaking.Input this)) (pid : PillarStaking.Pid) :
    ((runInputs start inputs).pillars pid).endpoint.length ≤
      maxEndpointLength := by
  refine account_induction deployed pid
    (motive := fun account _ =>
      account.pillar.endpoint.length ≤ maxEndpointLength) ?_ ?_ inputs
  · exact Nat.zero_le _
  · intro msg call event account after history bounded step
    cases step with
    | registered _ _ fits => exact fits
    | endpointSet _ fits => exact fits
    | @recorded pids day =>
        obtain ⟨_, _, frame⟩ := account.recordedOn_frame day
        rw [frame]
        exact bounded
    | withdrawn => exact Nat.zero_le _
    | _ => exact bounded

/-- A day that is recorded for the first time deactivates a Pillar that was not
unstaking all of it, up to two days after it. -/
theorem isActive_of_recorded {msg : Msg this} {token : Token}
    {pids : List PillarStaking.Pid} {day now : Nat}
    (executed : Tx.execute ⟨msg, .recordInactive pids day, token⟩ world =
      .ok final)
    (member : pid ∈ pids) (recordable : world.Recordable day pid)
    (charged : ¬ (world.pillars pid).UnstakingThatDay day)
    (soon : now / oneDay ≤ day + 2) :
    isActive final.toStorage now pid = false := by
  obtain ⟨_, _, _, _, _, _, rfl⟩ := execute_ok_iff_effect.mp executed
  have account := recordedAll_account day world pids pid
  rw [if_pos member] at account
  have operator := congrArg (·.pillar.operator) account
  rw [Account.recordedOn_operator] at operator
  have ownRecordable : (world.account pid).Recordable day := recordable
  rw [Account.recordedOn_of_recordable ownRecordable] at account
  have pillar : ((world.recordedInactive day pids).pillars pid) =
      (world.pillars pid).recorded day := congrArg Account.pillar account
  have registered :
      (world.recordedInactive day pids).toStorage.Registered pid :=
    operator.trans_ne recordable.1
  rw [← Bool.not_eq_true, isActive_iff registered]
  rintro ⟨_, _, grace⟩
  rw [pillar, Pillar.recorded, if_neg charged] at grace
  have later := recordable.2.1
  simp only [inactiveGraceDays] at grace
  split_ifs at grace <;> omega

end Contract

section Claims

variable {scheme : Scheme} {lower : Text → Text} {rounds : List Round}
  {day : Nat} {pid : PillarStaking.Pid}

/-- The Pillar of the key 9. -/
def answeringPid : PillarStaking.Pid :=
  0x2b4c342f5433ebe591a1da77e013d1b72475562d48578dca8b84bac6651c3cb9

/-- PID 7 and the Pillar of the key 9 register with an endpoint each. -/
def namedRun : List (PillarStaking.Input 1) :=
  [(byOperator oneDay).sends
      (.register answeringPid threshold (encodeUtf8 "b.example.com".toList)),
    (byOperator oneDay).sends
      (.register 7 threshold (encodeUtf8 "a.example.com".toList))]

/-- The operator of PID 7 leaves the endpoint blank. -/
def blankRun : List (PillarStaking.Input 1) :=
  (byOperator oneDay).sends (.setEndpoint 7 []) :: namedRun

/-- A round of day 2, in which only the Pillar of the key 9 answers. -/
def sampleRound (inputs : List (PillarStaking.Input 1)) (index : Nat) :
    Round where
  ts := 2 * 86400 + 900 * index
  directory := some [pidText 7, pidText answeringPid]
  status text :=
    statusOf (List.map Char.toLower)
      (nodeReply (runInputs fundedWorld inputs).toStorage
        (2 * oneDay + 900 * index))
      text ["0x01".toList] (2 * 86400 + 900 * index) none
  fetch domain :=
    if domain = "b.example.com".toList then
      some (servedHeaders transparentScheme [9] ['o', 'k']
        "/status.json".toList (2 * 86400), encodeUtf8 ['o', 'k'])
    else none
  now _ := 2 * 86400

def sampleRounds (inputs : List (PillarStaking.Input 1)) : List Round :=
  (List.range 96).map (sampleRound inputs)

/-- What the contract, the monitor and the answering Pillar come to in the two
sample runs. -/
theorem sample_readings :
    (((sampleRound namedRun 0).status (pidText answeringPid)).operator.getD []
        ≠ [] ∧
      ((sampleRound namedRun 0).status (pidText answeringPid)).endpoint =
        "b.example.com".toList ∧
      ((sampleRound namedRun 0).status (pidText 7)).operator.getD [] ≠ [] ∧
      ((sampleRound namedRun 0).status (pidText 7)).endpoint ≠ []) ∧
    (((sampleRound blankRun 0).status (pidText answeringPid)).operator.getD []
        ≠ [] ∧
      ((sampleRound blankRun 0).status (pidText answeringPid)).endpoint =
        "b.example.com".toList ∧
      (runInputs fundedWorld blankRun).Registered 7 ∧
      ((runInputs fundedWorld blankRun).pillars 7).registrationDay < 2 ∧
      ((runInputs fundedWorld blankRun).pillars 7).unstakeRequestedAt = 0 ∧
      endpointOf (runInputs fundedWorld blankRun).toStorage 7 = []) ∧
    pidText answeringPid =
      pidOf transparentScheme (transparentScheme.publicKey [9]) ∧
    WellKnown.normalizeDomain (List.map Char.toLower)
      "b.example.com".toList = "b.example.com".toList ∧
    WellKnown.isValidDomain "b.example.com".toList = true ∧
    ((List.range 96).map fun index : Nat =>
      (2 * 86400 + 900 * index : Int)).Nodup ∧
    4 * roundsPerDay ≤ 5 * (List.range 96).countP fun index : Nat =>
      true && duringDay 2 (2 * 86400 + 900 * index) := by
  decide +kernel

theorem regular_sampleRounds (inputs : List (PillarStaking.Input 1)) :
    Regular (sampleRounds inputs) 2 := by
  constructor
  · rw [sampleRounds, List.map_map]
    exact sample_readings.2.2.2.2.2.1
  · rw [sampleRounds, List.countP_map]
    exact sample_readings.2.2.2.2.2.2

theorem pidText_answeringPid :
    pidText answeringPid =
      pidOf transparentScheme (transparentScheme.publicKey [9]) :=
  sample_readings.2.2.1

theorem carries_sample :
    HttpGateway.Carries transparentScheme [9] ['o', 'k']
      (ResponseTrailer.signedSelector "/status.json".toList) (2 * 86400)
      (servedHeaders transparentScheme [9] ['o', 'k'] "/status.json".toList
        (2 * 86400)) := by
  have spelled : ResponseTrailer.signedSelector "/status.json".toList =
      ['/', 's', 't', 'a', 't', 'u', 's', '.', 'j', 's', 'o', 'n'] := by
    simp [ResponseTrailer.signedSelector]
  apply carries_servedHeaders
  rw [spelled]
  exact HttpGateway.unchanged_of_all (by simp [isLineBreak, isSpace])

/-- The answer of the Pillar of the key 9 verifies. -/
theorem probeHealth_answering (inputs : List (PillarStaking.Input 1)) :
    probeHealth transparentScheme (List.map Char.toLower) (sampleRound inputs 0)
      (pidText answeringPid) "b.example.com".toList = true := by
  obtain ⟨_, _, _, domain, valid, _⟩ := sample_readings
  have fresh : |(2 * 86400 : ℚ) - (2 * 86400 : Nat)| ≤
      HttpGateway.probeMaxSkewSec := by
    norm_num [HttpGateway.probeMaxSkewSec]
  have verified := carries_sample.verifyProbe_eq transparentScheme_correct fresh
  have fetched : (sampleRound inputs 0).fetch "b.example.com".toList =
      some (servedHeaders transparentScheme [9] ['o', 'k']
        "/status.json".toList (2 * 86400), encodeUtf8 ['o', 'k']) := by
    simp only [sampleRound, if_true]
  have time : (sampleRound inputs 0).now (pidText answeringPid) = 2 * 86400 := by
    simp only [sampleRound]
  rw [probeHealth_of_fetch (by rw [domain, valid]) (by rw [domain, fetched]),
    time, pidText_answeringPid]
  exact verified

/-- It is not an answer of PID 7. -/
theorem probeHealth_seven (inputs : List (PillarStaking.Input 1)) (index : Nat)
    (endpoint : Text) :
    probeHealth transparentScheme (List.map Char.toLower)
      (sampleRound inputs index) (pidText 7) endpoint = false := by
  have different : pidOf transparentScheme (transparentScheme.publicKey [9]) ≠
      pidText 7 := by
    rw [← pidText_answeringPid]
    exact fun same => absurd (pidText_injective same) (by decide)
  rw [probeHealth]
  split
  · rfl
  · simp only [sampleRound]
    split
    · rfl
    · rename_i headers body fetched
      split_ifs at fetched
      obtain ⟨rfl, rfl⟩ := Prod.mk.inj (Option.some.inj fetched)
      rw [HttpGateway.verifyProbe]
      simp only [carries_sample.pid, Option.getD_some]
      rw [if_pos different]

theorem silent_sampleRounds (inputs : List (PillarStaking.Input 1)) :
    ∀ round ∈ sampleRounds inputs, utcDay round.ts = (2 : Nat) →
      ¬ round.Answered transparentScheme (List.map Char.toLower)
        (pidText 7) := by
  intro round member _ answered
  obtain ⟨index, _, rfl⟩ := List.mem_map.mp member
  have silent := answered.2
  rw [probeHealth_seven] at silent
  cases silent

theorem answered_sampleRounds {inputs : List (PillarStaking.Input 1)}
    (named : ((sampleRound inputs 0).status
      (pidText answeringPid)).operator.getD [] ≠ [])
    (endpoint : ((sampleRound inputs 0).status
      (pidText answeringPid)).endpoint = "b.example.com".toList) :
    ∃ round ∈ sampleRounds inputs, utcDay round.ts = (2 : Nat) ∧
      ∃ other, round.Answered transparentScheme (List.map Char.toLower)
        other := by
  refine ⟨sampleRound inputs 0, List.mem_map_of_mem (by simp),
    (by decide : utcDay (2 * 86400 + 900 * (0 : Nat)) = (2 : Nat)),
    pidText answeringPid, ⟨_, rfl, by simp, named, ?_⟩, ?_⟩
  · rw [endpoint]
    simp
  · rw [endpoint]
    exact probeHealth_answering inputs

end Claims

end LivenessMonitor

end RefinetPillars
