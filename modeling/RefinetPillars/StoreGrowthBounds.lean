import RefinetPillars.ServiceReceiptsOnce
import RefinetPillars.StoreGrowth

/-!
# How far requests grow the store

On a public Pillar the requests of a day add few rows to all tables but one: the
index of content has a row for every selector that has been answered.
-/

namespace RefinetPillars

namespace StoreGrowth

open HexText JsonText ExceptRules KeyedTable KeyedTable.Table
open ArchiveDatabase (DailyRow)
open ServiceReceipts
open GopherRoutes (Handler route privateRoutes privateGate)

section Statement

variable (pillar : Pillar)

/-- A selector that is answered at some time. -/
def Pillar.MayAnswer (selector : Text) : Prop :=
  ∃ request store, request.selector = selector ∧
    (respond pillar request store).1.isSome = true

/-- The requests are served within an accounting day.  The date of a receipt is
that of another time zone; days are counted in all from the day before the first
day of each year. -/
structure OneDay (firstDay : Int → Int) (date : AccountingDate)
    (request : Request) : Prop where
  counted : getAccountingDate request.countedOn = date
  updated : getAccountingDate request.updatedOn = date
  filed : ∃ today : LocalDay, getAccountingDate today = date ∧
    firstDay today.year + today.dayOfYear - 1 ≤ request.moment.createdOn ∧
    request.moment.createdOn ≤ firstDay today.year + today.dayOfYear + 1

/-- The rows that the requests of a day add are bounded, if the selectors are
these. -/
def StaysBounded (selectors : Set Text) : Prop :=
  ∃ bound, ∀ firstDay date store requests,
    (∀ request ∈ requests, OneDay firstDay date request) →
    (∀ request ∈ requests, request.selector ∈ selectors) →
    (serve pillar requests store).rowCount ≤ store.rowCount + bound

end Statement

section Calendar

variable {today : LocalDay} {date : AccountingDate}

/-- The first day of a year with an accounting date. -/
def dayOf (date : AccountingDate) : Int := (date.2.1 - 1) * 28 + date.1

/-- No date has more than three days. -/
theorem day_of_getAccountingDate (isDate : getAccountingDate today = date) :
    today.year = date.2.2 ∧ dayOf date ≤ today.dayOfYear ∧
      today.dayOfYear ≤ dayOf date + 2 := by
  have first := today.first
  have last := today.last
  rw [getAccountingDate] at isDate
  split at isDate
  next balance =>
    subst isDate
    refine ⟨rfl, ?_, ?_⟩ <;> dsimp only [dayOf] <;> omega
  next =>
    subst isDate
    refine ⟨rfl, ?_, ?_⟩ <;> dsimp only [dayOf, accountingDaysPerMonth] <;> omega

/-- Receipts are filed on five days at most. -/
theorem OneDay.window {firstDay : Int → Int} {request : Request}
    (oneDay : OneDay firstDay date request) :
    firstDay date.2.2 + dayOf date - 1 ≤ request.moment.createdOn ∧
      request.moment.createdOn ≤ firstDay date.2.2 + dayOf date + 3 := by
  obtain ⟨today, isDate, lower, upper⟩ := oneDay.filed
  obtain ⟨sameYear, first, last⟩ := day_of_getAccountingDate isDate
  rw [sameYear] at lower upper
  omega

end Calendar

section Receipts

variable {env : ServiceReceipts.Environment} {ownPid query : Text}
  {receipt publicKey : Json}

/-- The texts of a receipt that verifies. -/
structure HasTexts (receipt publicKey : Json) : Prop where
  publicKey : ∃ text, publicKey = .str text
  signature : ∃ text, receipt.get "sig".toList = some (.str text)
  status : ∃ text, receipt.get "status".toList = some (.str text)

theorem hasTexts_of_witnessed
    (verified : witnessed env receipt publicKey = .ok ()) :
    HasTexts receipt publicKey := by
  obtain ⟨signature, statement, valid⟩ := exists_valid_of_witnessed verified
  have hasSignature := (exists_of_signedFields valid.fields).1
  unfold witnessed at verified
  split at verified
  next accepted =>
    unfold verifyWitness at accepted
    split at accepted
    next reason checked =>
      unfold witnessChecks at checked
      split at checked
      next fields =>
        split at checked
        · cases checked
        split at checked
        · cases checked
        next known =>
          obtain ⟨pid, -, checked⟩ := bind_eq_ok.mp checked
          split at checked
          · cases checked
          next matched =>
            obtain ⟨pidText, keyText, -, isKey, -⟩ :=
              WalletBinding.pidMatchesValue_iff.mp (not_not.mp matched)
            refine ⟨⟨keyText, isKey⟩, ⟨signature, hasSignature⟩, ?_⟩
            obtain ⟨status, -, found⟩ := List.any_eq_true.mp (not_not.mp known)
            obtain ⟨value, hasStatus, isText⟩ := (Option.any_eq_true _ _).mp found
            refine ⟨status, hasStatus.trans (congrArg some ?_)⟩
            exact WalletBinding.isText_iff.mp (of_decide_eq_true isText)
      next => cases checked
    all_goals cases accepted
  all_goals cases verified

/-- Whether a submission raises an exception that is not handled depends on its
text alone. -/
theorem check_unhandled {moment other : Moment} {ledger otherLedger : Ledger}
    (raised : check env ownPid query moment ledger = .error .unhandled) :
    check env ownPid query other otherLedger = .error .unhandled := by
  refine bind_error_congr raised fun payload _ raised => ?_
  refine bind_error_congr raised fun receipt _ raised => ?_
  refine bind_error_congr raised fun publicKey _ raised => ?_
  refine bind_error_congr raised fun _ verified raised => ?_
  refine bind_error_congr raised fun _ _ raised => ?_
  refine bind_error_congr raised fun requesterPid _ raised => ?_
  refine bind_error_congr raised fun _ _ raised => ?_
  obtain ⟨⟨key, rfl⟩, ⟨signature, hasSignature⟩, ⟨status, hasStatus⟩⟩ :=
    hasTexts_of_witnessed verified
  rw [hasSignature, hasStatus] at raised
  unfold checkCaps at raised
  split at raised
  · cases raised
  · split at raised <;> cases raised

end Receipts

section Routes

variable {pillar : Pillar} {request other : Request} {store otherStore : Store}

theorem not_isPrivate {handler : Handler}
    (isPublic : pillar.server.publicMode = true)
    (ran : route pillar.server request.selector = .ran handler) :
    ¬ IsPrivate handler := by
  obtain ⟨passed, -, runs⟩ := GopherRoutes.route_eq_ran ran
  have guarded : ¬ (GopherRoutes.Branch.run handler).Runs privateRoutes :=
    RouteTable.not_run_of_covered GopherRoutes.covered_private runs
      fun refused => passed ⟨isPublic, refused⟩
  exact guarded

/-- What a route of a public Pillar does: nothing, or it files a receipt. -/
theorem runRoute_cases (isPublic : pillar.server.publicMode = true) :
    (runRoute pillar request store).2 = store ∨
      (runRoute pillar request store).2 =
        { store with
          serviceProofs := (handleReceipt pillar.env pillar.pid
            ⟨request.selector, request.moment⟩ store.serviceProofs).1 } := by
  rw [runRoute]
  split
  · exact .inl rfl
  · exact .inl rfl
  next handler ran =>
    rw [if_neg (not_isPrivate isPublic ran)]
    split
    · split
      next => exact .inl rfl
      next ledger answer _ handled =>
        rw [handled]
        exact .inr rfl
    · exact .inl rfl

theorem handleReceipt_unhandled {submission : Submission} {ledger : Ledger} :
    (handleReceipt pillar.env pillar.pid submission ledger).2 = .unhandled ↔
      check pillar.env pillar.pid (queryOf submission.selector)
        submission.moment ledger = .error .unhandled := by
  unfold handleReceipt
  split
  next answer failed =>
    rw [failed]
    exact ⟨congrArg Except.error, Except.error.inj⟩
  next checked passed =>
    rw [passed]
    refine iff_of_false ?_ nofun
    split <;> nofun

/-- A selector is always answered, or never. -/
theorem isSome_runRoute (isPublic : pillar.server.publicMode = true)
    (same : request.selector = other.selector)
    (answered : (runRoute pillar request store).1.isSome = true) :
    (runRoute pillar other otherStore).1.isSome = true := by
  rw [runRoute, same] at answered
  rw [runRoute]
  split at answered
  next => rfl
  next => exact answered
  next handler ran =>
    have isOpen : ¬ IsPrivate handler := not_isPrivate isPublic ran
    rw [if_neg isOpen] at answered ⊢
    by_cases files : handler = .proofReceipt
    · rw [if_pos files] at answered ⊢
      cases before : handleReceipt pillar.env pillar.pid
          ⟨other.selector, request.moment⟩ store.serviceProofs with
      | mk earlier first =>
      cases handled : handleReceipt pillar.env pillar.pid
          ⟨other.selector, other.moment⟩ otherStore.serviceProofs with
      | mk ledger answer =>
      rw [before] at answered
      cases answer with
      | error message exception => rfl
      | filed stored requesterPid resource status => rfl
      | unhandled =>
          have raised := handleReceipt_unhandled.mp (congrArg Prod.snd handled)
          have always : (handleReceipt pillar.env pillar.pid
              ⟨other.selector, request.moment⟩ store.serviceProofs).2 =
                .unhandled :=
            handleReceipt_unhandled.mpr (check_unhandled raised)
          rw [before] at always
          obtain rfl : first = .unhandled := always
          exact answered
    · rw [if_neg files] at answered ⊢
      rw [Option.isSome_map] at answered ⊢
      exact answered

end Routes

section Steps

variable {pillar : Pillar} {request : Request} {store : Store}

theorem respond_eq (pillar : Pillar) (request : Request) (store : Store) :
    (∃ response, (respond pillar request store).1 = some response ∧
      (respond pillar request store).2 =
        indexContent (contentRow pillar request.selector response)
          (updateDailyMetrics pillar.pid request.requestCount
            request.uptimeSeconds request.updatedOn
            (incrementRequestsServed pillar.pid request.countedOn
              (runRoute pillar request store).2))) ∨
    (respond pillar request store).1 = none ∧
      (respond pillar request store).2 = (runRoute pillar request store).2 := by
  rw [respond]
  cases ran : runRoute pillar request store with
  | mk response after =>
      cases response with
      | none => exact .inr ⟨rfl, rfl⟩
      | some response => exact .inl ⟨response, rfl, rfl⟩

theorem isSome_respond : (respond pillar request store).1.isSome = true ↔
    (runRoute pillar request store).1.isSome = true := by
  rw [respond]
  cases ran : runRoute pillar request store with
  | mk response after => cases response <;> exact Iff.rfl

/-- The table of receipts gets no row, or one within the cap. -/
theorem serviceProofs_handleReceipt (env : ServiceReceipts.Environment)
    (ownPid : Text) (submission : Submission) (ledger : Ledger) :
    (handleReceipt env ownPid submission ledger).1 = ledger ∨
      ∃ row, (handleReceipt env ownPid submission ledger).1.rows =
          ledger.rows ++ [row] ∧
        row.pid = ownPid ∧ row.createdOn = submission.moment.createdOn ∧
        countServiceProofsToday ownPid [] submission.moment.today ledger <
          maxReceiptsPerDay := by
  rcases handleReceipt_cases env ownPid submission ledger with
    same | ⟨checked, resource, passed, -, rows⟩
  · exact .inl same
  · exact .inr ⟨_, rows, rfl, rfl, (room_of_check passed).2⟩

/-- What the requests of a day have added to a store. -/
structure Grown (pillar : Pillar) (date : AccountingDate) (first : Int)
    (known : Finset Text) (store later : Store) : Prop where
  dailyTx : later.dailyTx = store.dailyTx
  siwe : later.siwe = store.siwe
  metrics : ∀ key ∈ later.dailyMetrics.keys, key ∈ store.dailyMetrics.keys ∨
    key ∈ ({(date.1, date.2.1, date.2.2, pillar.pid)} :
      Finset (Int × Int × Int × Text))
  content : ∀ key ∈ later.contentIndex.keys, key ∈ store.contentIndex.keys ∨
    key ∈ known
  proofs : ∃ added, later.serviceProofs.rows =
      store.serviceProofs.rows ++ added ∧
    (∀ row ∈ added, row.pid = pillar.pid ∧ first ≤ row.createdOn ∧
      row.createdOn ≤ first + 4) ∧
    ∀ day, added.countP (fun row => row.createdOn = day) ≤ maxReceiptsPerDay

variable {date : AccountingDate} {first : Int} {known : Finset Text}
  {later : Store}

theorem grown_refl : Grown pillar date first known store store where
  dailyTx := rfl
  siwe := rfl
  metrics _ := .inl
  content _ := .inl
  proofs := ⟨[], (List.append_nil _).symm,
    fun _ member => absurd member List.not_mem_nil, fun _ => Nat.zero_le _⟩

/-- A receipt keeps the bound for its day, as the rows of that day have been
counted. -/
theorem proofs_append {added : List Row} {row : Row} {ledger : Ledger}
    {today : Nat} {ownPid : Text} {older : List Row}
    (rows : ledger.rows = older ++ added)
    (own : ∀ row ∈ added, row.pid = ownPid)
    (counted : ∀ day, added.countP (fun row => row.createdOn = day) ≤
      maxReceiptsPerDay)
    (notLater : today ≤ row.createdOn)
    (room : countServiceProofsToday ownPid [] today ledger <
      maxReceiptsPerDay) (day : Nat) :
    (added ++ [row]).countP (fun row => row.createdOn = day) ≤
      maxReceiptsPerDay := by
  refine countP_append_singleton_le (counted day) fun onDay => ?_
  obtain rfl := of_decide_eq_true onDay
  refine lt_of_le_of_lt ?_ room
  rw [countServiceProofsToday, rows, List.countP_append]
  refine le_trans ?_ (Nat.le_add_left _ _)
  refine List.countP_mono_left fun other member sameDay => ?_
  have sameDay := of_decide_eq_true sameDay
  simp only [meets, Bool.and_eq_true, Bool.or_eq_true, decide_eq_true_eq]
  exact ⟨⟨notLater.trans_eq sameDay.symm, .inr (own other member)⟩,
    .inl trivial⟩

theorem grown_runRoute (isPublic : pillar.server.publicMode = true)
    (inWindow : first ≤ request.moment.createdOn ∧
      request.moment.createdOn ≤ first + 4)
    (grown : Grown pillar date first known store later) :
    Grown pillar date first known store (runRoute pillar request later).2 := by
  rcases @runRoute_cases pillar request later isPublic with same | filed
  · rw [same]
    exact grown
  · rw [filed]
    refine ⟨grown.dailyTx, grown.siwe, grown.metrics, grown.content, ?_⟩
    rcases serviceProofs_handleReceipt pillar.env pillar.pid
        ⟨request.selector, request.moment⟩ later.serviceProofs with
      same | ⟨row, rows, own, onDay, room⟩
    · dsimp only
      rw [same]
      exact grown.proofs
    · obtain ⟨added, isAdded, each, counted⟩ := grown.proofs
      refine ⟨added ++ [row], ?_, ?_, ?_⟩
      · dsimp only
        rw [rows, isAdded, List.append_assoc]
      · intro other member
        rcases List.mem_append.mp member with older | newest
        · exact each other older
        · rw [List.mem_singleton.mp newest, onDay]
          exact ⟨own, inWindow⟩
      · refine proofs_append isAdded (fun row member => (each row member).1)
          counted ?_ room
        rw [onDay]
        exact request.moment.today_le

theorem grown_respond (isPublic : pillar.server.publicMode = true)
    (counted : getAccountingDate request.countedOn = date)
    (updated : getAccountingDate request.updatedOn = date)
    (inWindow : first ≤ request.moment.createdOn ∧
      request.moment.createdOn ≤ first + 4)
    (isKnown : (respond pillar request later).1.isSome = true →
      indexed request.selector ∈ known)
    (grown : Grown pillar date first known store later) :
    Grown pillar date first known store (respond pillar request later).2 := by
  have routed := grown_runRoute isPublic inWindow grown
  rcases respond_eq pillar request later with
    ⟨response, answered, wrote⟩ | ⟨-, wrote⟩
  · rw [wrote]
    refine ⟨routed.dailyTx, routed.siwe, ?_, ?_, routed.proofs⟩
    · intro key member
      rcases mem_keys_upsert.mp member with older | rfl
      · rcases mem_keys_upsert.mp older with oldest | rfl
        · exact routed.metrics key oldest
        · refine .inr (Finset.mem_singleton.mpr ?_)
          rw [← counted]
          rfl
      · refine .inr (Finset.mem_singleton.mpr ?_)
        rw [← updated]
        rfl
    · intro key member
      rcases mem_keys_upsert.mp member with older | rfl
      · exact routed.content key older
      · exact .inr (isKnown (by rw [answered]; rfl))
  · rw [wrote]
    exact routed

end Steps

section Runs

variable {pillar : Pillar} {store : Store} {date : AccountingDate} {first : Int}
  {known : Finset Text}

theorem grown_serve (isPublic : pillar.server.publicMode = true)
    {firstDay : Int → Int} {requests : List Request} {later : Store}
    (oneDay : ∀ request ∈ requests, OneDay firstDay date request)
    (isKnown : ∀ request ∈ requests, pillar.MayAnswer request.selector →
      indexed request.selector ∈ known)
    (grown : Grown pillar date (firstDay date.2.2 + dayOf date - 1) known store
      later) :
    Grown pillar date (firstDay date.2.2 + dayOf date - 1) known store
      (serve pillar requests later) := by
  induction requests generalizing later with
  | nil => exact grown
  | cons request requests ih =>
      rw [List.forall_mem_cons] at oneDay isKnown
      have window := oneDay.1.window
      refine ih oneDay.2 isKnown.2 (grown_respond isPublic oneDay.1.counted
        oneDay.1.updated ⟨window.1, by omega⟩ ?_ grown)
      exact fun answered => isKnown.1 ⟨request, later, rfl, answered⟩

/-- Five days have room for so many receipts. -/
theorem length_added {added : List Row}
    (window : ∀ row ∈ added, first ≤ row.createdOn ∧
      row.createdOn ≤ first + 4)
    (counted : ∀ day, added.countP (fun row => row.createdOn = day) ≤
      maxReceiptsPerDay) : added.length ≤ 5 * maxReceiptsPerDay := by
  let days := added.map Row.createdOn
  have perDay : ∀ day ∈ days.toFinset, days.count day ≤ maxReceiptsPerDay := by
    intro day _
    rw [List.count_eq_countP, List.countP_map]
    refine le_trans (List.countP_mono_left fun row _ same => ?_) (counted day)
    exact decide_eq_true (beq_iff_eq.mp same)
  have fewDays : days.toFinset.card ≤ 5 := by
    have inside : days.toFinset ⊆ Finset.Icc first.toNat (first + 4).toNat := by
      intro day member
      obtain ⟨row, rowMem, rfl⟩ := List.mem_map.mp (List.mem_toFinset.mp member)
      obtain ⟨lower, upper⟩ := window row rowMem
      rw [Finset.mem_Icc]
      omega
    have size := Finset.card_le_card inside
    rw [Nat.card_Icc] at size
    omega
  calc added.length = days.length := (List.length_map _).symm
    _ = ∑ day ∈ days.toFinset, days.count day :=
        (List.sum_toFinset_count_eq_length days).symm
    _ ≤ days.toFinset.card * maxReceiptsPerDay :=
        Finset.sum_le_card_nsmul _ _ _ perDay
    _ ≤ 5 * maxReceiptsPerDay := Nat.mul_le_mul_right _ fewDays

theorem Grown.rowCount_le {later : Store}
    (grown : Grown pillar date first known store later) :
    later.rowCount ≤
      store.rowCount + (1 + known.card + 5 * maxReceiptsPerDay) := by
  have metrics := length_le_add_card grown.metrics
  have content := length_le_add_card grown.content
  obtain ⟨added, rows, each, counted⟩ := grown.proofs
  have proofs := length_added (fun row member => (each row member).2) counted
  rw [Finset.card_singleton] at metrics
  have together := congrArg List.length rows
  rw [List.length_append] at together
  rw [Store.rowCount, Store.rowCount, grown.dailyTx, grown.siwe]
  omega

/-- A request that is answered leaves its selector in the index. -/
theorem content_respond (isPublic : pillar.server.publicMode = true)
    (request : Request) (wanted : Text) :
    (wanted ∈ store.contentIndex.keys →
      wanted ∈ (respond pillar request store).2.contentIndex.keys) ∧
    ((respond pillar request store).1.isSome = true →
      indexed request.selector ∈
        (respond pillar request store).2.contentIndex.keys) := by
  have routed : (runRoute pillar request store).2.contentIndex =
      store.contentIndex := by
    rcases @runRoute_cases pillar request store isPublic with same | filed
    · rw [same]
    · rw [filed]
  rcases respond_eq pillar request store with
    ⟨response, -, wrote⟩ | ⟨unanswered, wrote⟩
  · rw [wrote]
    constructor
    · intro member
      refine mem_keys_upsert.mpr (.inl ?_)
      change wanted ∈ (runRoute pillar request store).2.contentIndex.keys
      rw [routed]
      exact member
    · exact fun _ => mem_keys_upsert.mpr (.inr rfl)
  · rw [wrote, routed, unanswered]
    exact ⟨id, nofun⟩

theorem content_serve (isPublic : pillar.server.publicMode = true)
    {requests : List Request} {wanted : Text}
    (present : wanted ∈ store.contentIndex.keys ∨
      ∃ request ∈ requests, pillar.MayAnswer request.selector ∧
        wanted = indexed request.selector) :
    wanted ∈ (serve pillar requests store).contentIndex.keys := by
  induction requests generalizing store with
  | nil =>
      rcases present with member | ⟨request, listed, -⟩
      · exact member
      · exact absurd listed List.not_mem_nil
  | cons request requests ih =>
      have step := @content_respond pillar store isPublic request wanted
      refine ih ?_
      rcases present with member | ⟨asked, listed, mayAnswer, rfl⟩
      · exact .inl (step.1 member)
      · rcases List.mem_cons.mp listed with rfl | listed
        · obtain ⟨other, otherStore, same, answered⟩ := mayAnswer
          refine .inl (step.2 (isSome_respond.mpr ?_))
          exact isSome_runRoute isPublic same (isSome_respond.mp answered)
        · exact .inr ⟨asked, listed, mayAnswer, rfl⟩

def newYear : LocalDay := ⟨2026, 1, by omega, by omega⟩

def newYearMoment : Moment := ⟨1, 1, 1, le_rfl, le_rfl⟩

/-- A request on the first day of a year. -/
def requestOf (selector : Text) : Request where
  selector := selector
  moment := newYearMoment
  countedOn := newYear
  updatedOn := newYear
  requestCount := 0
  uptimeSeconds := 0

theorem oneDay_requestOf (selector : Text) :
    OneDay (fun _ => 0) (1, 1, 2026) (requestOf selector) := by
  have date : getAccountingDate newYear = (1, 1, 2026) := by decide
  have close : (0 : Int) + newYear.dayOfYear - 1 ≤ newYearMoment.createdOn ∧
      (newYearMoment.createdOn : Int) ≤ 0 + newYear.dayOfYear + 1 := by decide
  exact ⟨date, date, newYear, date, close⟩

/-- Each selector that is answered may add a row. -/
theorem finite_of_staysBounded (isPublic : pillar.server.publicMode = true)
    {selectors : Set Text} (bounded : StaysBounded pillar selectors) :
    {selector ∈ selectors | pillar.MayAnswer selector}.Finite := by
  obtain ⟨bound, bounded⟩ := bounded
  by_contra infinite
  have others := Set.Infinite.sdiff infinite (Set.finite_singleton [])
  obtain ⟨chosen, inside, size⟩ := others.exists_subset_card_eq (bound + 1)
  let requests := chosen.toList.map requestOf
  have rows := bounded (fun _ => 0) (1, 1, 2026) .empty requests (by
      intro request member
      obtain ⟨selector, -, rfl⟩ := List.mem_map.mp member
      exact oneDay_requestOf selector) (by
      intro request member
      obtain ⟨selector, listed, rfl⟩ := List.mem_map.mp member
      exact (inside (Finset.mem_toList.mp listed)).1.1)
  have indexes : ∀ selector ∈ chosen,
      selector ∈ (serve pillar requests .empty).contentIndex.keys := by
    intro selector member
    obtain ⟨⟨-, mayAnswer⟩, nonempty⟩ := inside member
    refine content_serve isPublic (.inr ⟨requestOf selector, ?_, mayAnswer, ?_⟩)
    · exact List.mem_map_of_mem (Finset.mem_toList.mpr member)
    · exact (if_neg nonempty).symm
  have none : ∀ selector, selector ∉ Store.empty.contentIndex.keys :=
    fun _ => List.not_mem_nil
  have grew := add_card_le_length
    (fun _ member => absurd member (none _)) indexes fun _ _ => none _
  have empty : Store.empty.rowCount = 0 := rfl
  rw [Store.rowCount] at rows
  omega

/-- The store of a public Pillar stays bounded just when finitely many of the
selectors are ever answered. -/
theorem staysBounded_iff (pillar : Pillar)
    (isPublic : pillar.server.publicMode = true) (selectors : Set Text) :
    StaysBounded pillar selectors ↔
      {selector ∈ selectors | pillar.MayAnswer selector}.Finite := by
  constructor
  · exact finite_of_staysBounded isPublic
  · intro finite
    refine ⟨1 + (finite.toFinset.image indexed).card + 5 * maxReceiptsPerDay, ?_⟩
    intro firstDay date store requests oneDay allowed
    refine (grown_serve isPublic oneDay ?_ grown_refl).rowCount_le
    intro request member mayAnswer
    refine Finset.mem_image_of_mem _ (finite.mem_toFinset.mpr ?_)
    exact ⟨allowed request member, mayAnswer⟩

/-- A Pillar that has an empty page for everything. -/
def publicPillar : Pillar where
  env := signedEnvironment
  pid := servingPid
  privateKey := []
  server := ⟨true, true, fun _ => false⟩
  errorResponse message := message
  receiptPage _ := []
  page _ _ := some fun _ => []
  serveStatic _ := some []
  runPrivate _ _ store := (none, store)

theorem staysBounded_about : StaysBounded publicPillar {"/about".toList} :=
  (staysBounded_iff publicPillar rfl {"/about".toList}).mpr
    ((Set.finite_singleton _).subset fun _ member => member.1)

theorem mayAnswer_search {selector : Text}
    (searches : GopherRoutes.searchRoute <+: selector) :
    publicPillar.MayAnswer selector := by
  have routed : route publicPillar.server selector = .ran .search := by
    rw [route, if_neg fun refused =>
        GopherRoutes.not_private_of_search searches refused.2,
      if_neg fun refused => Bool.noConfusion refused.1, GopherRoutes.dispatch,
      GopherRoutes.firstMatch_search searches]
  refine ⟨requestOf selector, .empty, rfl, isSome_respond.mpr ?_⟩
  have isOpen : ¬ IsPrivate .search := by decide +kernel
  have reads : (.search : Handler) ≠ .proofReceipt := by decide
  rw [runRoute]
  change (route publicPillar.server (requestOf selector).selector = _) at routed
  rw [routed]
  dsimp only
  rw [if_neg isOpen, if_neg reads]
  rfl

/-- Every text that is searched for has a row of its own. -/
theorem not_staysBounded : ¬ StaysBounded publicPillar Set.univ := by
  intro bounded
  have finite := finite_of_staysBounded rfl bounded
  have searches : Set.range (fun count : Nat =>
      GopherRoutes.searchRoute ++ List.replicate count 'a') ⊆
      {selector ∈ Set.univ | publicPillar.MayAnswer selector} := by
    rintro _ ⟨count, rfl⟩
    exact ⟨trivial, mayAnswer_search (List.prefix_append _ _)⟩
  refine Set.infinite_range_of_injective ?_ (finite.subset searches)
  intro count other same
  have lengths := congrArg List.length (List.append_cancel_left same)
  simpa using lengths

end Runs

end StoreGrowth

end RefinetPillars
