import RefinetPillars.LineText
import RefinetPillars.StakingReader
import RefinetPillars.Utf8Text

/-!
# The standing of a Pillar

What the reader asks the configured contracts about a PID, one request after
the other.  It waits for every reply, and other calls run in the meantime.
-/

namespace RefinetPillars

namespace StakingReader

open HexText

section Decoding

def selIsActive : Text := "5c36901c".toList

def selOperatorOf : Text := "63ea4ab2".toList

def selEndpointOf : Text := "ab091871".toList

def selStakeOf : Text := "07177c9c".toList

/-- Why a standing is not known. -/
inductive StatusError where
  /-- "not a PID" -/
  | notAPid
  | read (error : ReadError)
  /-- Raised by `int`. -/
  | notANumber
  /-- "ABI string runs past the result" -/
  | stringOverrun
  /-- Raised by `bytes.decode`. -/
  | notUtf8

def lifted {Value : Type} (decoded : Except AbiError Value) :
    Except StatusError Value :=
  decoded.mapError fun error => .read (.abi error)

/-- The result that a reply to `eth_call` carries. -/
def replyResult : Option Json → Except ReadError Text
  | none => .error .transport
  | some (.object fields) =>
      let error := (fields.lookup "error".toList).getD .null
      if error.truthy then .error (.rpcError error)
      else
        match fields.lookup "result".toList with
        | some (.text result) =>
            if "0x".toList.isPrefixOf result then .ok result
            else .error .noResult
        | _ => .error .noResult
  | some _ => .error .malformedReply

/-- A call takes the next request number and reads the reply. -/
theorem ethCall_run (reader : Reader) (contract data : Text) (newest : Nat) :
    (ethCall reader contract data).run newest =
      (replyResult (reader.transport (callPayload (newest + 1) contract data)),
        newest + 1) := by
  dsimp only [ethCall, bind, ExceptT.bind, ExceptT.mk, ExceptT.run,
    StateT.bind, modifyGet, MonadStateOf.modifyGet, liftM, monadLift,
    MonadLift.monadLift, ExceptT.lift, StateT.modifyGet, pure, StateT.pure,
    Functor.map, StateT.map, ExceptT.bindCont]
  generalize reader.transport (callPayload (newest + 1) contract data) = reply
  cases reply with
  | none => rfl
  | some reply =>
      cases reply with
      | object fields =>
          simp only [replyResult]
          split
          · rfl
          · cases fields.lookup "result".toList with
            | none => rfl
            | some value =>
                cases value with
                | text result => simp only; split <;> rfl
                | null | boolean | number | array | object => rfl
      | null | boolean | number | text | array => rfl

def decodeBool (result : Text) : Except StatusError Bool := do
  let value ← lifted (decodeUint result)
  return value ≠ 0

def decodeAddress (result : Text) : Except StatusError Text := do
  let data ← lifted (words result)
  return '0' :: 'x' :: toHex (slice data 12 32)

/-- Decode UTF-8 that has no errors. -/
def decodeExactly (bytes : List UInt8) : Except StatusError Text :=
  let text := Utf8Text.decodeUtf8 bytes
  if KeyRecovery.encodeUtf8 text = bytes then .ok text else .error .notUtf8

def decodeString (result : Text) : Except StatusError Text := do
  let data ← lifted (words result)
  let offset := fromBigEndian (data.take 32)
  let length := fromBigEndian (slice data offset (offset + 32))
  let raw := slice data (offset + 32) (offset + 32 + length)
  if raw.length ≠ length then throw .stringOverrun
  decodeExactly raw

/-- `int(operator, 16) == 0`. -/
def isZeroAddress (operator : Text) : Except StatusError Bool :=
  match operator.drop 2 with
  | [] => .error .notANumber
  | digits => .ok (digits.all fun digit => digit = '0')

/-- `_PID_RE`, which allows a line feed at the end. -/
def isPid (text : Text) : Bool :=
  (text.length = 64 ||
      (text.length = 65 && text.getLast? = some (Char.ofNat 10))) &&
    (text.take 64).all isLowerHex

end Decoding

section Standing

/-- Times are in microseconds. -/
structure StakeStatus where
  pid : Text
  active : Bool
  operator : Option Text := none
  endpoint : Text := []
  stakeUnits : Nat := 0
  contract : Option Text := none
  checkedAt : Int := 0
  error : Option StatusError := none
  stale : Bool := false

/-- Ten minutes. -/
def cacheTtl : Int := 600 * 1000000

/-- Six hours. -/
def staleGrace : Int := 6 * 3600 * 1000000

/-- The answer that a contract still owes, with the answers before it. -/
inductive Phase where
  | isActive
  | operatorOf (active : Bool)
  | endpointOf (active : Bool) (operator : Text)
  | stakeOf (active : Bool) (operator endpoint : Text)

/-- Whether the contract has said that the Pillar is active. -/
def Phase.saysActive : Phase → Bool
  | .isActive => false
  | .operatorOf active | .endpointOf active _ | .stakeOf active _ _ => active

def Phase.selector : Phase → Text
  | .isActive => selIsActive
  | .operatorOf _ => selOperatorOf
  | .endpointOf _ _ => selEndpointOf
  | .stakeOf _ _ _ => selStakeOf

/-- The data of the request of a phase. -/
def Phase.request (phase : Phase) (pid : Text) : Except AbiError Text :=
  encodeCall phase.selector [.bytes32 pid]

/-- A PID that can be sent in one phase can be sent in every phase. -/
theorem Phase.request_isOk (phase other : Phase) (pid : Text) :
    (phase.request pid).isOk = (other.request pid).isOk := by
  simp only [Phase.request, encodeCall, List.mapM_cons, List.mapM_nil]
  cases encodeArg (.bytes32 pid) <;> rfl

/-- What follows from the answer of a contract. -/
inductive Answer where
  | asks (phase : Phase)
  | read (status : StakeStatus)

/-- A call of `status` that waits for a reply. -/
structure StatusCall where
  reader : Nat
  pid : Text
  startedAt : Int
  cached : Option StakeStatus
  found : Option StakeStatus
  contract : Text
  later : List Text
  phase : Phase
  issuedAt : Int

/-- How a call goes on: it waits, or it returns a standing that is cached, or
one that is not. -/
inductive Outcome where
  | waiting (call : StatusCall)
  | fresh (status : StakeStatus)
  | returned (status : StakeStatus)

variable (lower : Text → Text)

/-- The lines of `_read_one` after a result. -/
def Phase.next (pid contract result : Text) :
    Phase → Except StatusError Answer
  | .isActive => do
      let active ← decodeBool result
      return .asks (.operatorOf active)
  | .operatorOf active => do
      let operator ← decodeAddress result
      if ← isZeroAddress operator then
        return .read { pid, active := false, contract := some contract }
      return .asks (.endpointOf active operator)
  | .endpointOf active operator => do
      let endpoint ← decodeString result
      return .asks (.stakeOf active operator endpoint)
  | .stakeOf active operator endpoint => do
      let stake ← lifted (decodeUint result)
      return .read
        { pid, active, operator := some (lower operator),
          endpoint := lower (LineText.strip endpoint), stakeUnits := stake,
          contract := some contract }

/-- A cached standing serves for a while when there is no answer. -/
def StatusCall.failed (pid : Text) (startedAt : Int)
    (cached : Option StakeStatus) (error : StatusError) : StakeStatus :=
  match cached with
  | some status =>
      if startedAt - status.checkedAt < staleGrace then
        { status with stale := true, error := some error }
      else
        { pid, active := false, checkedAt := startedAt, error := some error }
  | none =>
      { pid, active := false, checkedAt := startedAt, error := some error }

/-- The first registered standing that the loop over the contracts has met. -/
def StatusCall.firstFound (call : StatusCall) (status : StakeStatus) :
    Option StakeStatus :=
  match call.found with
  | some found => some found
  | none => if status.operator.isSome then some status else none

/-- The loop over the contracts after one of them has been read. -/
def StatusCall.afterContract (call : StatusCall) (now : Int)
    (status : StakeStatus) : Outcome :=
  if status.active then .fresh { status with checkedAt := call.startedAt }
  else
    match call.later with
    | contract :: later =>
        .waiting
          { call with
            found := call.firstFound status, contract := contract,
            later := later, phase := .isActive, issuedAt := now }
    | [] =>
        .fresh
          { (call.firstFound status).getD { pid := call.pid, active := false }
            with checkedAt := call.startedAt }

/-- A reply to a call that waits. -/
def StatusCall.step (call : StatusCall) (now : Int) (reply : Option Json) :
    Outcome :=
  match (replyResult reply).mapError StatusError.read >>= fun result =>
      call.phase.next lower call.pid call.contract result with
  | .error error =>
      .returned (StatusCall.failed call.pid call.startedAt call.cached error)
  | .ok (.asks phase) => .waiting { call with phase := phase, issuedAt := now }
  | .ok (.read status) => call.afterContract now status

/-- A call of `status` up to where it waits for the first time. -/
def beginStatus (contracts : List Text) (reader : Nat) (pid : Text)
    (now : Int) (cached : Option StakeStatus) : Outcome :=
  if ¬ isPid pid then
    .returned
      { pid, active := false, checkedAt := now, error := some .notAPid }
  else
    match cached.filter fun status =>
        status.error.isNone ∧ now - status.checkedAt < cacheTtl with
    | some status => .returned status
    | none =>
        match contracts with
        | [] => .fresh { pid, active := false, checkedAt := now }
        | contract :: later =>
            match Phase.isActive.request pid with
            | .error error =>
                .returned
                  (StatusCall.failed pid now cached (.read (.abi error)))
            | .ok _ =>
                .waiting
                  { reader, pid, startedAt := now, cached, found := none,
                    contract, later, phase := .isActive, issuedAt := now }

end Standing

end StakingReader

end RefinetPillars
