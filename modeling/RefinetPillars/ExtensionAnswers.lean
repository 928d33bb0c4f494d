import RefinetPillars.ExtensionRequests

/-!
# Whose answer a promise is resolved with

The bridge answers in order, so a connection stays in order until an answer is
taken for another request.  That happens to an answer that comes while other
requests wait in two cases: its own request has timed out, or its type is taken
by a pending request and not by its own.
-/

namespace RefinetPillars

namespace ExtensionRequests

open HexText JsonText

/-- A promise is resolved with the answer to its own request. -/
def Settlement.IsOwn : Settlement → Prop
  | .resolved id answerOf _ => id = answerOf
  | .rejected _ _ => True

instance Settlement.decidableIsOwn (settlement : Settlement) :
    Decidable settlement.IsOwn := by
  cases settlement <;> unfold Settlement.IsOwn <;> infer_instance

def OwnAnswers (connection : Connection) : Prop :=
  ∀ settlement ∈ connection.settled, settlement.IsOwn

instance decidableOwnAnswers (connection : Connection) :
    Decidable (OwnAnswers connection) :=
  inferInstanceAs (Decidable (∀ settlement ∈ connection.settled, _))

section Matching

variable {pendingRequests : List Pending} {own other : Pending} {data : Json}

theorem mem_of_answeredRequest
    (answered : answeredRequest pendingRequests data = some other) :
    other ∈ pendingRequests := by
  rw [answeredRequest, Option.orElse_eq_some] at answered
  rcases answered with typed | ⟨-, oldest⟩
  · obtain ⟨type, -, found⟩ := Option.bind_eq_some_iff.mp typed
    exact List.mem_of_find?_eq_some found
  · exact List.mem_of_head? oldest

/-- An answer that comes while requests wait is taken for one of them. -/
theorem eq_nil_of_answeredRequest
    (answered : answeredRequest pendingRequests data = none) :
    pendingRequests = [] := by
  cases pendingRequests with
  | nil => rfl
  | cons oldest rest => simp [answeredRequest] at answered

/-- The oldest request gets an answer unless only others take its type. -/
theorem answeredRequest_eq_head (rest : List Pending) :
    answeredRequest (own :: rest) data = some own ↔
      ∀ type ∈ matchedType data, ∀ other ∈ own :: rest,
        other.takes type → own.takes type := by
  cases matched : matchedType data with
  | none => simp [answeredRequest, matched]
  | some type =>
      simp only [answeredRequest, matched, Option.bind_some,
        Option.mem_some_iff, forall_eq']
      cases taken : own.takes type with
      | true => simp [taken]
      | false =>
          rw [List.find?_cons_of_neg (by simp [taken])]
          cases found : rest.find? (·.takes type) with
          | none =>
              have missed := List.find?_eq_none.mp found
              refine iff_of_true rfl fun other member takes => ?_
              rcases List.mem_cons.mp member with rfl | later
              · exact taken ▸ takes
              · exact absurd takes (missed other later)
          | some other =>
              have takes := List.find?_some found
              have later := List.mem_of_find?_eq_some found
              refine iff_of_false ?_ fun fair =>
                Bool.noConfusion (fair other (List.mem_cons_of_mem _ later) takes)
              intro same
              obtain rfl : other = own := by simpa using same
              exact Bool.noConfusion (taken.symm.trans takes)

end Matching

section Order

variable {floatRepr : Text → Text}

/-- Beside the order of requests and answers, every answer on its way can be
read. -/
structure InOrder (floatRepr : Text → Text) (connection : Connection) :
    Prop where
  order : OrderedExchange.InOrder Pending.id connection.pendingRequests
    ((connection.toExtension ++ connection.toBridge).map Envelope.request)
    connection.requestId
  readable : ∀ answer ∈ connection.toExtension,
    (readAnswer floatRepr answer.text).isSome

/-- The request of an answer waits, and takes the type of the answer if any
pending request does. -/
def IsAwaited (floatRepr : Text → Text) (pendingRequests : List Pending)
    (answer : Envelope) : Prop :=
  ∃ own ∈ pendingRequests, own.id = answer.request ∧
    ∀ type ∈ (readAnswer floatRepr answer.text).bind matchedType,
      ∀ other ∈ pendingRequests, other.takes type → own.takes type

/-- An answer that comes while requests wait is awaited. -/
def Allowed (event : Event floatRepr) (connection : Connection) : Prop :=
  match event, connection.toExtension with
  | .onmessage, answer :: _ => connection.pendingRequests ≠ [] →
      IsAwaited floatRepr connection.pendingRequests answer
  | _, _ => True

theorem allowed_onmessage {connection : Connection} {answer : Envelope}
    {answers : List Envelope}
    (comes : connection.toExtension = answer :: answers) :
    Allowed (.onmessage : Event floatRepr) connection ↔
      (connection.pendingRequests ≠ [] →
        IsAwaited floatRepr connection.pendingRequests answer) := by
  unfold Allowed
  rw [comes]

theorem plain_default : ({} : Layout).Plain :=
  ⟨⟨[' '], rfl, by simp [isJsonSpace]⟩, ⟨[' '], rfl, by simp [isJsonSpace]⟩⟩

theorem readAnswer_dumps (response : Response floatRepr) :
    readAnswer floatRepr (dumps {} 0 response.json) = some response.json := by
  have read : loads floatRepr (dumps {} 0 response.json) =
      some response.json :=
    loads_dumps plain_default rfl response.printable
  rw [readAnswer, read]
  rfl

theorem inOrder_opened (requestId : Nat) :
    InOrder floatRepr (opened requestId) :=
  ⟨.empty requestId, nofun⟩

namespace InOrder

variable {connection : Connection}

theorem sendTypedMessage (order : InOrder floatRepr connection) (message : Json)
    (expectedType : Option Text) :
    InOrder floatRepr
      (ExtensionRequests.sendTypedMessage connection message expectedType) := by
  rw [ExtensionRequests.sendTypedMessage]
  split
  · refine ⟨?_, order.readable⟩
    have fresh : connection.requestId <
        Pending.id ⟨connection.requestId + 1, expectedType⟩ :=
      Nat.lt_succ_self _
    simpa using order.order.send fresh
  · exact ⟨order.order, order.readable⟩

theorem serve (order : InOrder floatRepr connection)
    (handlers : Handlers floatRepr) :
    InOrder floatRepr (ExtensionRequests.serve connection handlers) := by
  have ordered := order.order
  rw [ExtensionRequests.serve]
  cases waiting : connection.toBridge with
  | nil => exact order
  | cons message messages =>
      rw [waiting] at ordered
      refine ⟨by simpa using ordered, ?_⟩
      intro answer member
      rcases List.mem_append.mp member with older | newest
      · exact order.readable answer older
      · rw [List.mem_singleton.mp newest]
        exact Option.isSome_iff_exists.mpr ⟨_, readAnswer_dumps _⟩

theorem timeout (order : InOrder floatRepr connection) (id : Nat) :
    InOrder floatRepr (ExtensionRequests.timeout connection id) := by
  rw [ExtensionRequests.timeout]
  split
  · exact ⟨order.order.sublist List.filter_sublist, order.readable⟩
  · exact order

theorem onclose (connection : Connection) :
    InOrder floatRepr (ExtensionRequests.onclose connection) :=
  ⟨.empty _, nofun⟩

variable {answer : Envelope} {answers : List Envelope}

/-- The way of a connection whose next answer has come. -/
theorem on_way (order : InOrder floatRepr connection)
    (comes : connection.toExtension = answer :: answers) :
    OrderedExchange.InOrder Pending.id connection.pendingRequests
      (answer.request ::
        (answers ++ connection.toBridge).map Envelope.request)
      connection.requestId := by
  have ordered := order.order
  rw [comes] at ordered
  simpa using ordered

/-- An awaited answer is taken for its own request, the oldest of the table,
and no other answer is. -/
theorem answered_own_iff (order : InOrder floatRepr connection)
    (comes : connection.toExtension = answer :: answers) {data : Json}
    (read : readAnswer floatRepr answer.text = some data) {taken : Pending}
    (answered : answeredRequest connection.pendingRequests data =
      some taken) :
    taken.id = answer.request ↔
      IsAwaited floatRepr connection.pendingRequests answer := by
  have onWay := order.on_way comes
  rw [IsAwaited, read, Option.bind_some]
  constructor
  · intro own
    have member := mem_of_answeredRequest answered
    refine ⟨taken, member, own, ?_⟩
    obtain ⟨rest, table⟩ :=
      List.head?_eq_some_iff.mp (onWay.head?_eq member own)
    rw [table] at answered ⊢
    exact (answeredRequest_eq_head rest).mp answered
  · rintro ⟨own, member, same, fair⟩
    obtain ⟨rest, table⟩ :=
      List.head?_eq_some_iff.mp (onWay.head?_eq member same)
    rw [table] at answered fair
    have first := (answeredRequest_eq_head rest).mpr fair
    obtain rfl : taken = own := Option.some.inj (answered.symm.trans first)
    exact same

theorem receive (order : InOrder floatRepr connection)
    (allowed : Allowed (.onmessage : Event floatRepr) connection) :
    InOrder floatRepr (ExtensionRequests.receive floatRepr connection) := by
  rw [ExtensionRequests.receive]
  cases comes : connection.toExtension with
  | nil => exact order
  | cons answer answers =>
      have readable := order.readable
      rw [comes] at readable
      have onWay := order.on_way comes
      have rest := fun other member =>
        readable other (List.mem_cons_of_mem answer member)
      obtain ⟨data, read⟩ :=
        Option.isSome_iff_exists.mp (readable answer List.mem_cons_self)
      simp only [onmessage, read]
      cases answered : answeredRequest connection.pendingRequests data with
      | none =>
          have empty := eq_nil_of_answeredRequest answered
          refine ⟨onWay.receive ?_, rest⟩
          rw [empty]
          nofun
      | some taken =>
          have waiting : connection.pendingRequests ≠ [] :=
            List.ne_nil_of_mem (mem_of_answeredRequest answered)
          have own := (order.answered_own_iff comes read answered).mpr
            ((allowed_onmessage comes).mp allowed waiting)
          refine ⟨(onWay.sublist List.filter_sublist).receive ?_, rest⟩
          intro entry member same
          have different := (List.mem_filter.mp member).2
          simp [same, own] at different

theorem step (order : InOrder floatRepr connection) {event : Event floatRepr}
    (allowed : Allowed event connection) :
    InOrder floatRepr (ExtensionRequests.step floatRepr event connection) := by
  cases event with
  | sendTypedMessage message expectedType =>
      exact order.sendTypedMessage message expectedType
  | handleMessage handlers => exact order.serve handlers
  | onmessage => exact order.receive allowed
  | timeout id => exact order.timeout id
  | onclose => exact .onclose connection

end InOrder

theorem ownAnswers_append {connection later : Connection}
    {more : List Settlement}
    (settled : later.settled = connection.settled ++ more) :
    OwnAnswers later ↔
      OwnAnswers connection ∧ ∀ settlement ∈ more, settlement.IsOwn := by
  rw [OwnAnswers, settled, List.forall_mem_append]
  rfl

/-- What is rejected belongs to nobody else. -/
theorem ownAnswers_rejected {connection later : Connection}
    {more : List Settlement}
    (settled : later.settled = connection.settled ++ more)
    (rejected : ∀ settlement ∈ more, settlement.IsOwn) :
    OwnAnswers later ↔ OwnAnswers connection :=
  (ownAnswers_append settled).trans (and_iff_left rejected)

/-- What one event adds to the promises: their own answers, exactly when it is
allowed. -/
theorem ownAnswers_step {connection : Connection}
    (order : InOrder floatRepr connection) (event : Event floatRepr) :
    OwnAnswers (step floatRepr event connection) ↔
      OwnAnswers connection ∧ Allowed event connection := by
  cases event with
  | sendTypedMessage message expectedType =>
      rw [step, sendTypedMessage, and_iff_left (by trivial)]
      split
      · rfl
      · exact ownAnswers_rejected rfl (by simp [Settlement.IsOwn])
  | handleMessage handlers =>
      rw [step, serve, and_iff_left (by trivial)]
      split <;> rfl
  | onmessage =>
      rw [step, receive]
      cases comes : connection.toExtension with
      | nil => simp [Allowed, comes]
      | cons answer answers =>
          obtain ⟨data, read⟩ := Option.isSome_iff_exists.mp
            (order.readable answer (comes ▸ List.mem_cons_self))
          simp only [onmessage, read, allowed_onmessage comes]
          cases answered : answeredRequest connection.pendingRequests data with
          | none =>
              have empty := eq_nil_of_answeredRequest answered
              rw [and_iff_left fun waiting => absurd empty waiting]
              rfl
          | some taken =>
              have waiting : connection.pendingRequests ≠ [] :=
                List.ne_nil_of_mem (mem_of_answeredRequest answered)
              have own := order.answered_own_iff comes read answered
              refine (ownAnswers_append rfl).trans (and_congr_right fun _ => ?_)
              simp [Settlement.IsOwn, own, waiting]
  | timeout id =>
      rw [step, timeout, and_iff_left (by trivial)]
      split
      · exact ownAnswers_rejected rfl (by simp [Settlement.IsOwn])
      · rfl
  | onclose =>
      rw [step, onclose, and_iff_left (by trivial)]
      exact ownAnswers_rejected rfl (by simp [Settlement.IsOwn])

/-- A promise stays as it is settled. -/
theorem settled_prefix_step (event : Event floatRepr)
    (connection : Connection) :
    connection.settled <+: (step floatRepr event connection).settled := by
  cases event with
  | sendTypedMessage message expectedType =>
      rw [step, sendTypedMessage]
      split
      · exact List.prefix_rfl
      · exact List.prefix_append _ _
  | handleMessage handlers =>
      rw [step, serve]
      split <;> exact List.prefix_rfl
  | onmessage =>
      rw [step, receive]
      split
      · exact List.prefix_rfl
      · rw [onmessage]
        split
        · exact List.prefix_rfl
        · split
          · exact List.prefix_rfl
          · exact List.prefix_append _ _
  | timeout id =>
      rw [step, timeout]
      split
      · exact List.prefix_append _ _
      · exact List.prefix_rfl
  | onclose => exact List.prefix_append _ _

/-- Promises are resolved with their own answers in a run exactly when every
answer that comes while requests wait finds its own request waiting, which
takes its type if any pending request does. -/
theorem ownAnswers_iff (requestId : Nat) (events : List (Event floatRepr)) :
    OwnAnswers (RunHistory.run (step floatRepr) (opened requestId) events) ↔
      RunHistory.Admitted (step floatRepr) (opened requestId) Allowed
        events := by
  induction events with
  | nil => exact iff_of_true nofun RunHistory.admitted_nil
  | cons event events ih =>
      rw [RunHistory.admitted_cons_iff, ← ih, RunHistory.run_cons]
      by_cases earlier : OwnAnswers
          (RunHistory.run (step floatRepr) (opened requestId) events)
      · have order : InOrder floatRepr
            (RunHistory.run (step floatRepr) (opened requestId) events) :=
          (ih.mp earlier).invariant (inOrder_opened requestId)
            fun event connection allowed order => order.step allowed
        exact ownAnswers_step order event
      · refine iff_of_false (fun own => earlier ?_) fun both => earlier both.1
        exact fun settlement member =>
          own settlement ((settled_prefix_step event _).subset member)

end Order

section LateAnswer

/-- A Pillar whose routes take too long. -/
def slowPillar : Handlers id where
  isOnboarding := false
  identity := .error []
  authChallenge _ := .error []
  authVerify _ := .error []
  browseRemote _ := .error []
  onboardingConnect _ := .error []
  onboardingSignature _ := .error []
  rebind _ := .error []
  isSession _ := .ok true
  route _ := .error "timed out".toList
  signResponse _ _ := .error []

/-- A request times out, another one is sent, and the answer to the first
comes. -/
def lateAnswer : List (Event id) :=
  [.onmessage, .handleMessage slowPillar,
    sendRequest "/directory".toList none, .timeout 1,
    sendRequest "/rpc".toList none]

theorem not_ownAnswers :
    ¬ OwnAnswers (RunHistory.run (step id) (opened 0) lateAnswer) := by
  decide +kernel

end LateAnswer

end ExtensionRequests

end RefinetPillars
