import RefinetPillars.PillarStakingDirectory
import RefinetPillars.StakingReader

/-!
# Contracts behind a transport

What the reader assumes of its transport: it answers with the standard encoding
of what the views of the contracts return at the block of the request.  A node
that parses the requests is such a transport.
-/

namespace RefinetPillars

namespace StakingReader

open HexText PillarStaking RunHistory

/-- The contracts as a walk meets them: where each is deployed, its state at
deployment, and the inputs it has executed at the block of each request. -/
structure Chain where
  address : Text → Address
  start : Text → World
  inputs : (contract : Text) → Nat → List (Input (address contract))

def Chain.world (chain : Chain) (contract : Text) (id : Nat) : World :=
  runInputs (chain.start contract) (chain.inputs contract id)

/-- The configured contracts are deployments of the staking contract, and the
transport returns the standard encoding of what their views return at the block
of the request. -/
structure ServedBy (reader : Reader) (chain : Chain) : Prop where
  deployed : ∀ contract ∈ reader.contracts,
    ∃ token admin feeRecipient balanceOf,
      deploy (chain.address contract) token admin feeRecipient balanceOf =
        .ok (chain.start contract)
  grows : ∀ contract ∈ reader.contracts, ∀ id,
    chain.inputs contract id <:+ chain.inputs contract (id + 1)
  count_fits : ∀ contract ∈ reader.contracts, ∀ id,
    PillarStaking.pillarCount (chain.world contract id).toStorage <
      uint256Size
  pillarCount : ∀ contract ∈ reader.contracts, ∀ id, ∃ reply,
    reader.transport
        (callPayload id contract (callData selPillarCount [])) = some reply ∧
      reply.Answers (abiUint
        (PillarStaking.pillarCount (chain.world contract id).toStorage))
  pidsPage : ∀ contract ∈ reader.contracts, ∀ id offset limit,
    offset < uint256Size → limit < uint256Size → ∃ reply,
    reader.transport
        (callPayload id contract (callData selPidsPage [offset, limit])) =
        some reply ∧
      reply.Answers (abiBytes32Array (PillarStaking.pidsPage
        (chain.world contract id).toStorage offset limit))

/-- The reply that carries a result. -/
def resultReply (id : Nat) (result : Text) : Json :=
  .object
    [("jsonrpc".toList, .text "2.0".toList),
      ("id".toList, .number id),
      ("result".toList, .text result)]

/-- A node that answers the two calls of the walk. -/
def node (chain : Chain) : Json → Option Json
  | .object [_, (_, .number id), _, (_, .array
        [.object [(_, .text contract), (_, .text data)], _])] => do
      let storage := (chain.world contract id.num.toNat).toStorage
      let arguments ← fromHex (data.drop 10)
      let first := fromBigEndian (arguments.take 32)
      let second := fromBigEndian ((arguments.drop 32).take 32)
      if (data.drop 2).take 8 = selPillarCount then
        return resultReply id.num.toNat
          (abiUint (PillarStaking.pillarCount storage))
      else if (data.drop 2).take 8 = selPidsPage then
        return resultReply id.num.toNat
          (abiBytes32Array (PillarStaking.pidsPage storage first second))
      else none
  | _ => none

theorem resultReply_answers (id : Nat) (result : Text) :
    (resultReply id result).Answers result :=
  ⟨_, rfl, rfl, rfl⟩

theorem node_pillarCount (chain : Chain) (contract : Text) (id : Nat) :
    node chain (callPayload id contract (callData selPillarCount [])) =
      some (resultReply id (abiUint (PillarStaking.pillarCount
        (chain.world contract id).toStorage))) := by
  have data : callData selPillarCount [] =
      '0' :: 'x' :: selPillarCount := rfl
  simp only [node, callPayload, data, Rat.num_natCast, Int.toNat_natCast]
  rfl

theorem callData_drop {selector : Text} (eight : selector.length = 8)
    (args : List Nat) :
    (callData selector args).drop 10 = toHex (args.map word).flatten := by
  rw [callData, List.drop_left' (by simp [eight])]

theorem callData_selector {selector : Text} (eight : selector.length = 8)
    (args : List Nat) :
    ((callData selector args).drop 2).take 8 = selector := by
  rw [callData, List.cons_append, List.cons_append, List.drop_succ_cons,
    List.drop_succ_cons, List.drop_zero, List.take_left' eight]

theorem node_pidsPage (chain : Chain) (contract : Text) (id : Nat)
    {offset limit : Nat} (offsetFits : offset < uint256Size)
    (limitFits : limit < uint256Size) :
    node chain (callPayload id contract (callData selPidsPage [offset, limit])) =
      some (resultReply id (abiBytes32Array (PillarStaking.pidsPage
        (chain.world contract id).toStorage offset limit))) := by
  have data := callData_drop (show selPidsPage.length = 8 from rfl)
    [offset, limit]
  have selector := callData_selector (show selPidsPage.length = 8 from rfl)
    [offset, limit]
  have different : selPidsPage ≠ selPillarCount := by decide
  have first : (word offset ++ word limit).take 32 = word offset :=
    List.take_left' (length_word offset)
  have second : ((word offset ++ word limit).drop 32).take 32 =
      word limit := by
    rw [List.drop_left' (length_word offset),
      List.take_of_length_le (length_word limit).le]
  simp only [List.map_cons, List.map_nil, List.flatten_cons,
    List.flatten_nil, List.append_nil] at data
  simp only [node, callPayload, data, selector, different, if_true, if_false,
    fromHex_toHex, Option.bind_eq_bind, Option.bind_some, Option.pure_def,
    first, second, fromBigEndian_word offsetFits,
    fromBigEndian_word limitFits, Rat.num_natCast, Int.toNat_natCast]

/-- The node serves the reader. -/
theorem servedBy_node {chain : Chain} {contracts : List Text}
    (deployed : ∀ contract ∈ contracts,
      ∃ token admin feeRecipient balanceOf,
        deploy (chain.address contract) token admin feeRecipient balanceOf =
          .ok (chain.start contract))
    (grows : ∀ contract ∈ contracts, ∀ id,
      chain.inputs contract id <:+ chain.inputs contract (id + 1))
    (count_fits : ∀ contract ∈ contracts, ∀ id,
      PillarStaking.pillarCount (chain.world contract id).toStorage <
        uint256Size) :
    ServedBy ⟨contracts, node chain⟩ chain where
  deployed := deployed
  grows := grows
  count_fits := count_fits
  pillarCount contract _ id :=
    ⟨_, node_pillarCount chain contract id, resultReply_answers _ _⟩
  pidsPage contract _ id _ _ offsetFits limitFits :=
    ⟨_, node_pidsPage chain contract id offsetFits limitFits,
      resultReply_answers _ _⟩

end StakingReader

end RefinetPillars
