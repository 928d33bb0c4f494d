import RefinetPillars.SearchOrder
import RefinetPillars.StakingStatus

/-!
# The standing across several contracts

The contracts are read in the order in which they are configured, until one of
them has the Pillar as active.  A read that fails ends the loop, so it hides the
contracts behind it.
-/

namespace RefinetPillars

namespace StakingReader

open HexText SearchOrder

section Reading

variable (lower : Text → Text) (transport : Text → Text → Option Json)
  (pid : Text)

/-- `eth_call` with the data of a phase. -/
def ask (contract : Text) (phase : Phase) : Except StatusError Text := do
  let data ← lifted (phase.request pid)
  (replyResult (transport contract data)).mapError .read

/-- The end of `_read_one`, from the last call on. -/
def readStake (contract : Text) (active : Bool) (operator endpoint : Text) :
    Except StatusError StakeStatus := do
  let stake ← lifted
    (decodeUint (← ask transport pid contract (.stakeOf active operator endpoint)))
  return { pid, active, operator := some (lower operator),
           endpoint := lower (LineText.strip endpoint), stakeUnits := stake,
           contract := some contract }

def readEndpoint (contract : Text) (active : Bool) (operator : Text) :
    Except StatusError StakeStatus := do
  let endpoint ← decodeString
    (← ask transport pid contract (.endpointOf active operator))
  readStake lower transport pid contract active operator endpoint

def readOperator (contract : Text) (active : Bool) :
    Except StatusError StakeStatus := do
  let operator ← decodeAddress
    (← ask transport pid contract (.operatorOf active))
  if ← isZeroAddress operator then
    return { pid, active := false, contract := some contract }
  readEndpoint lower transport pid contract active operator

def readOne (contract : Text) : Except StatusError StakeStatus := do
  let active ← decodeBool (← ask transport pid contract .isActive)
  readOperator lower transport pid contract active

/-- The loop over the contracts, with the first registered standing so far. -/
def readContracts :
    List Text → Option StakeStatus → Except StatusError StakeStatus
  | [], found => .ok (found.getD { pid, active := false })
  | contract :: contracts, found => do
      let status ← readOne lower transport pid contract
      if status.active then return status
      readContracts contracts
        (found.or (if status.operator.isSome then some status else none))

/-- A call of `status` with what is cached for the PID, in lower case. -/
def statusOf (contracts : List Text) (now : Int)
    (cached : Option StakeStatus) : StakeStatus :=
  if ¬ isPid pid then
    { pid, active := false, checkedAt := now, error := some .notAPid }
  else
    match cached.filter fun status =>
        status.error.isNone ∧ now - status.checkedAt < cacheTtl with
    | some status => status
    | none =>
        match readContracts lower transport pid contracts none with
        | .ok status => { status with checkedAt := now }
        | .error error => StatusCall.failed pid now cached error

end Reading

section Waiting

variable (lower : Text → Text) (transport : Text → Text → Option Json)

/-- The rest of `_read_one` from a call on. -/
def Phase.rest (pid contract : Text) : Phase → Except StatusError StakeStatus
  | .isActive => readOne lower transport pid contract
  | .operatorOf active => readOperator lower transport pid contract active
  | .endpointOf active operator =>
      readEndpoint lower transport pid contract active operator
  | .stakeOf active operator endpoint =>
      readStake lower transport pid contract active operator endpoint

/-- The rest of the loop after a contract has been read. -/
def StatusCall.restAfter (call : StatusCall) (status : StakeStatus) :
    Except StatusError StakeStatus :=
  if status.active then .ok status
  else readContracts lower transport call.pid call.later (call.firstFound status)

/-- What a call that waits comes to when the contracts answer like this. -/
def StatusCall.result (call : StatusCall) : StakeStatus :=
  match call.phase.rest lower transport call.pid call.contract >>=
      call.restAfter lower transport with
  | .ok status => { status with checkedAt := call.startedAt }
  | .error error =>
      StatusCall.failed call.pid call.startedAt call.cached error

def Outcome.result : Outcome → StakeStatus
  | .waiting call => call.result lower transport
  | .fresh status | .returned status => status

variable {lower transport} {pid contract : Text} {call : StatusCall}

theorem Phase.rest_eq (phase : Phase) :
    phase.rest lower transport pid contract =
      ask transport pid contract phase >>= fun result =>
        phase.next lower pid contract result >>= fun answer =>
          match answer with
          | .asks later => later.rest lower transport pid contract
          | .read status => .ok status := by
  cases phase with
  | isActive =>
      simp only [Phase.rest, readOne, Phase.next, bind_assoc, pure_bind]
  | operatorOf active =>
      simp only [Phase.rest, readOperator, Phase.next, bind_assoc]
      congr 1
      funext result
      congr 1
      funext operator
      congr 1
      funext isZero
      cases isZero <;> rfl
  | endpointOf active operator =>
      simp only [Phase.rest, readEndpoint, Phase.next, bind_assoc, pure_bind]
  | stakeOf active operator endpoint =>
      simp only [Phase.rest, readStake, Phase.next, bind_assoc, pure_bind]
      rfl

theorem orElse_firstFound (status : StakeStatus) :
    call.found.or (if status.operator.isSome then some status else none) =
      call.firstFound status := by
  rw [StatusCall.firstFound]
  cases call.found <;> rfl

/-- A call that asks its contract first goes through the rest of the loop. -/
theorem result_of_isActive (asksFirst : call.phase = .isActive) :
    call.result lower transport =
      match readContracts lower transport call.pid
        (call.contract :: call.later) call.found with
      | .ok status => { status with checkedAt := call.startedAt }
      | .error error =>
          StatusCall.failed call.pid call.startedAt call.cached error := by
  have loop : call.restAfter lower transport = fun status =>
      if status.active then .ok status
      else readContracts lower transport call.pid call.later
        (call.found.or (if status.operator.isSome then some status else none)) := by
    funext status
    rw [StatusCall.restAfter, orElse_firstFound]
  rw [StatusCall.result, asksFirst, loop]
  rfl

theorem afterContract_result (now : Int) (status : StakeStatus) :
    (call.afterContract now status).result lower transport =
      match call.restAfter lower transport status with
      | .ok status => { status with checkedAt := call.startedAt }
      | .error error =>
          StatusCall.failed call.pid call.startedAt call.cached error := by
  rw [StatusCall.afterContract, StatusCall.restAfter]
  by_cases active : status.active = true
  · rw [if_pos active, if_pos active]
    rfl
  · rw [if_neg active, if_neg active]
    cases call.later with
    | nil => rfl
    | cons contract later => exact result_of_isActive rfl

/-- A reply of the contracts keeps what a call comes to. -/
theorem step_result {now : Int} {data : Text}
    (request : lifted (call.phase.request call.pid) = .ok data) :
    (call.step lower now (transport call.contract data)).result lower
      transport = call.result lower transport := by
  have asked : ask transport call.pid call.contract call.phase =
      (replyResult (transport call.contract data)).mapError .read := by
    rw [ask, request]
    rfl
  rw [StatusCall.step, StatusCall.result, Phase.rest_eq, asked]
  cases replyResult (transport call.contract data) with
  | error error => rfl
  | ok result =>
      simp only [Except.mapError, bind, Except.bind]
      cases call.phase.next lower call.pid call.contract result with
      | error error => rfl
      | ok answer =>
          cases answer with
          | asks phase => rfl
          | read status => exact afterContract_result now status

theorem beginStatus_result {contracts : List Text} {reader : Nat} {now : Int}
    {cached : Option StakeStatus} :
    (beginStatus contracts reader pid now cached).result lower transport =
      statusOf lower transport pid contracts now cached := by
  unfold beginStatus statusOf
  split
  · rfl
  · generalize cached.filter _ = usable
    cases usable with
    | some status => rfl
    | none =>
        cases contracts with
        | nil => rfl
        | cons contract later =>
            cases request : Phase.isActive.request pid with
            | error error =>
                have unread : readOne lower transport pid contract =
                    .error (.read (.abi error)) := by
                  rw [readOne, ask, request]
                  rfl
                simp only [readContracts, unread, bind, Except.bind]
                rfl
            | ok data => exact result_of_isActive rfl

end Waiting

section Statement

variable (lower : Text → Text) (transport : Text → Text → Option Json)
  (pid : Text)

/-- The reads of a contract succeed, and say whether the Pillar is active. -/
def Reports (active : Bool) (contract : Text) : Prop :=
  ∃ status, readOne lower transport pid contract = .ok status ∧
    status.active = active

/-- The Pillar is active exactly when a contract that can be read reports it,
in whichever order the contracts are configured. -/
structure CountsAny (contracts : List Text) (now : Int)
    (cached : Option StakeStatus) : Prop where
  active_iff :
    (statusOf lower transport pid contracts now cached).active = true ↔
      ∃ contract ∈ contracts, Reports lower transport pid true contract
  reordered : ∀ others, others.Perm contracts →
    (statusOf lower transport pid others now cached).active =
      (statusOf lower transport pid contracts now cached).active

/-- No contract reports the Pillar, or all of them can be read. -/
def NoneHidden (contracts : List Text) : Prop :=
  Unhindered (Reports lower transport pid false)
    (Reports lower transport pid true) contracts

end Statement

section Order

variable {lower : Text → Text} {transport : Text → Text → Option Json}
  {pid : Text} {contracts : List Text} {now : Int}
  {cached : Option StakeStatus}

theorem readContracts_active_iff {found : Option StakeStatus}
    (inactive : ∀ status ∈ found, status.active = false) :
    (∃ status, readContracts lower transport pid contracts found =
        .ok status ∧ status.active = true) ↔
      Finds (Reports lower transport pid false)
        (Reports lower transport pid true) contracts := by
  induction contracts generalizing found with
  | nil =>
      simp only [readContracts, Finds, Except.ok.injEq, exists_eq_left',
        iff_false, Bool.not_eq_true]
      cases found with
      | none => rfl
      | some status => exact inactive status rfl
  | cons contract contracts ih =>
      rw [readContracts, Finds]
      cases read : readOne lower transport pid contract with
      | error error => simp [bind, Except.bind, Reports, read]
      | ok status =>
          have later : ∀ other ∈ found.or
              (if status.operator.isSome then some status else none),
              status.active = false → other.active = false := by
            intro other member isInactive
            cases found with
            | none =>
                simp only [Option.none_or, Option.mem_ite_none_right,
                  Option.mem_some] at member
                rw [← member.2, isInactive]
            | some earlier => exact inactive other member
          cases active : status.active with
          | true =>
              simp [bind, Except.bind, Reports, read, active, pure,
                Except.pure]
          | false =>
              rw [← ih fun other member => later other member active]
              simp [bind, Except.bind, Reports, read, active]

/-- Without a usable cache the verdict is that of the loop. -/
theorem statusOf_active_iff (valid : isPid pid = true)
    (unusable : ∀ status ∈ cached, staleGrace ≤ now - status.checkedAt) :
    (statusOf lower transport pid contracts now cached).active = true ↔
      Finds (Reports lower transport pid false)
        (Reports lower transport pid true) contracts := by
  have nothing : cached.filter (fun status =>
      status.error.isNone ∧ now - status.checkedAt < cacheTtl) = none := by
    cases cached with
    | none => rfl
    | some status =>
        have old := unusable status rfl
        simp only [staleGrace] at old
        rw [Option.filter_some, if_neg]
        rw [decide_eq_true_iff]
        rintro ⟨-, recent⟩
        simp only [cacheTtl] at recent
        omega
  have loop : (∃ status, readContracts lower transport pid contracts none =
      .ok status ∧ status.active = true) ↔ _ :=
    readContracts_active_iff (by simp)
  rw [← loop, statusOf, if_neg (not_not.mpr valid), nothing]
  cases readContracts lower transport pid contracts none with
  | ok status => simp
  | error error =>
      cases cached with
      | none => simp [StatusCall.failed]
      | some status =>
          have old := unusable status rfl
          simp [StatusCall.failed, show ¬ now - status.checkedAt < staleGrace by omega]

theorem countsAny_iff (valid : isPid pid = true)
    (unusable : ∀ status ∈ cached, staleGrace ≤ now - status.checkedAt) :
    CountsAny lower transport pid contracts now cached ↔
      NoneHidden lower transport pid contracts := by
  rw [NoneHidden, ← forall_perm_iff]
  constructor
  · intro counts others reordered
    rw [← statusOf_active_iff valid unusable, counts.reordered others reordered,
      counts.active_iff]
  · intro steady
    have isActive : ∀ others, others.Perm contracts →
        ((statusOf lower transport pid others now cached).active = true ↔
          ∃ contract ∈ contracts, Reports lower transport pid true contract) := by
      intro others reordered
      rw [statusOf_active_iff valid unusable, steady others reordered]
    refine ⟨isActive contracts (List.Perm.refl _), fun others reordered => ?_⟩
    rw [Bool.eq_iff_iff, isActive others reordered,
      isActive contracts (List.Perm.refl _)]

end Order

section Hidden

def plainPid : Text := List.replicate 64 '0'

def goodContract : Text := '0' :: 'x' :: List.replicate 40 '1'

def silentContract : Text := '0' :: 'x' :: List.replicate 40 '2'

/-- One contract answers every call with the number thirty-two: the Pillar is
active and has an operator, a blank endpoint and a stake.  The other cannot be
read. -/
def oneSilent (contract _ : Text) : Option Json :=
  if contract = goodContract then
    some (.object [("result".toList,
      .text ('0' :: 'x' :: (List.replicate 62 '0' ++ "20".toList)))])
  else none

theorem reports_good : Reports id oneSilent plainPid true goodContract := by
  have active : (readOne id oneSilent plainPid goodContract).toOption.map
      StakeStatus.active = some true := by decide +kernel
  cases read : readOne id oneSilent plainPid goodContract with
  | error error =>
      rw [read] at active
      cases active
  | ok status =>
      rw [read] at active
      exact ⟨status, read, Option.some.inj active⟩

theorem countsAny_good :
    isPid plainPid = true ∧
      (CountsAny id oneSilent plainPid [goodContract] 0 none ↔
        NoneHidden id oneSilent plainPid [goodContract]) :=
  ⟨by decide, countsAny_iff (by decide) (by simp)⟩

theorem not_countsAny :
    ¬ CountsAny id oneSilent plainPid [silentContract, goodContract] 0 none := by
  intro counts
  have inactive : (statusOf id oneSilent plainPid
      [silentContract, goodContract] 0 none).active = false := by
    decide +kernel
  have active := counts.active_iff.mpr
    ⟨goodContract, by simp, reports_good⟩
  rw [inactive] at active
  cases active

end Hidden

end StakingReader

end RefinetPillars
