import Mathlib
import RefinetPillars.StakingReaderTransport

/-!
# The directory walk

The reader walks the directories of several contracts while registrations and
withdrawals go on between its calls.  It misses no PID that stays registered in
one contract, because slots never move.
-/

namespace RefinetPillars

namespace StakingReader

open HexText PillarStaking RunHistory SlotDirectory

/-- The PIDs registered in some contract at some moment between the first
request after `first` and the request `last`. -/
def Chain.seenDuring (chain : Chain) (contracts : List Text)
    (first last : Nat) : Set Pid :=
  {pid | ∃ contract ∈ contracts, ∃ moment,
    chain.inputs contract (first + 1) <:+ moment ∧
      moment <:+ chain.inputs contract last ∧
      (runInputs (chain.start contract) moment).Registered pid}

/-- The PID is registered in the contract from the first request after `first`
to the request `last`. -/
def Chain.Stays (chain : Chain) (contract : Text) (pid : Pid)
    (first last : Nat) : Prop :=
  Throughout Input.apply (chain.start contract)
    (fun world => world.Registered pid) (chain.inputs contract (first + 1))
    (chain.inputs contract last)

theorem pidsPage_eq (storage : Storage) (offset limit : Nat) :
    PillarStaking.pidsPage storage offset limit =
      (storage.pids.drop offset).take limit := by
  unfold PillarStaking.pidsPage
  by_cases past : storage.pids.length ≤ offset
  · simp [past]
  · by_cases rest : storage.pids.length - offset < limit
    · simp only [past, rest, if_true, if_false]
      rw [List.take_of_length_le (by simp), List.take_of_length_le]
      rw [List.length_drop]
      omega
    · simp only [past, rest, if_false, Nat.add_sub_cancel_left]

/-- A page of slots, from an offset on. -/
structure IsPage (slots : List Pid) (offset : Nat) (page : List Pid) :
    Prop where
  nonempty : page ≠ []
  subset : ∀ pid ∈ page, pid ∈ slots
  covers : ∀ {index : Nat} {pid : Pid}, offset ≤ index →
    index < offset + page.length → slots[index]? = some pid → pid ∈ page

theorem isPage_take_drop {slots : List Pid} {offset limit : Nat}
    (positive : 0 < limit) (inside : offset < slots.length) :
    IsPage slots offset ((slots.drop offset).take limit) where
  nonempty := by
    rw [← List.length_pos_iff, List.length_take, List.length_drop]
    omega
  subset pid member := List.mem_of_mem_drop (List.mem_of_mem_take member)
  covers {index pid} after before atIndex := by
    rw [List.length_take] at before
    refine List.mem_iff_getElem?.mpr ⟨index - offset, ?_⟩
    rw [List.getElem?_take_of_lt (by omega), List.getElem?_drop,
      Nat.add_sub_cancel' after]
    exact atIndex

theorem emptySlot_eq : emptySlot = pidText 0 := by
  have zero : (0 : Pid).toNat = 0 := rfl
  rw [pidText, word, toHex_bigEndian, zero, hexDigits_zero]
  rfl

theorem pidText_ne_emptySlot {pid : Pid} :
    pidText pid ≠ emptySlot ↔ pid ≠ 0 := by
  rw [emptySlot_eq]
  exact (Function.Injective.ne_iff fun _ _ => pidText_injective)

/-- The texts found are those of PIDs registered during the walk so far. -/
def Found.Witnessed (found : Found) (seen : Set Pid) : Prop :=
  ∀ text ∈ found.pids, ∃ pid ∈ seen, text = pidText pid

theorem Found.length_le {found later : Found}
    (kept : ∀ text ∈ found.pids, text ∈ later.pids) :
    found.pids.length ≤ later.pids.length :=
  (found.nodup.subperm kept).length_le

section Witnessed

variable {found : Found} {seen : Set Pid}

theorem Found.Witnessed.subset_image (witnessed : found.Witnessed seen) :
    {text | text ∈ found.pids} ⊆ pidText '' seen := by
  intro text member
  obtain ⟨pid, pidSeen, rfl⟩ := witnessed text member
  exact Set.mem_image_of_mem pidText pidSeen

theorem Found.ncard_pids (found : Found) :
    {text | text ∈ found.pids}.ncard = found.pids.length := by
  rw [← List.toFinset_card_of_nodup found.nodup, ← Set.ncard_coe_finset,
    List.coe_toFinset]

theorem Found.Witnessed.length_le (witnessed : found.Witnessed seen) :
    found.pids.length ≤ seen.ncard := by
  calc
    found.pids.length = {text | text ∈ found.pids}.ncard :=
      found.ncard_pids.symm
    _ ≤ (pidText '' seen).ncard :=
      Set.ncard_le_ncard witnessed.subset_image (Set.toFinite _)
    _ ≤ seen.ncard := Set.ncard_image_le (Set.toFinite _)

/-- As many distinct texts as there are PIDs cover all of them. -/
theorem Found.Witnessed.complete (witnessed : found.Witnessed seen)
    (enough : seen.ncard ≤ found.pids.length) {pid : Pid}
    (member : pid ∈ seen) : pidText pid ∈ found.pids := by
  have imageBound : (pidText '' seen).ncard ≤
      {text | text ∈ found.pids}.ncard := by
    rw [found.ncard_pids]
    exact (Set.ncard_image_le (Set.toFinite _)).trans enough
  have same := Set.eq_of_subset_of_ncard_le witnessed.subset_image imageBound
    (Set.toFinite _)
  have inImage := Set.mem_image_of_mem pidText member
  rw [← same] at inImage
  exact inImage

end Witnessed

section Walk

variable {reader : Reader} {chain : Chain} {contract : Text}

theorem ServedBy.inputs_suffix (served : ServedBy reader chain)
    (configured : contract ∈ reader.contracts) {earlier later : Nat}
    (order : earlier ≤ later) :
    chain.inputs contract earlier <:+ chain.inputs contract later := by
  induction order with
  | refl => exact List.suffix_refl _
  | step order ih => exact ih.trans (served.grows contract configured _)

theorem ServedBy.sound (served : ServedBy reader chain)
    (configured : contract ∈ reader.contracts)
    (inputs : List (Input (chain.address contract))) :
    Sound (runInputs (chain.start contract) inputs) := by
  obtain ⟨token, admin, feeRecipient, balanceOf, deployed⟩ :=
    served.deployed contract configured
  exact sound_runInputs deployed inputs

theorem seenDuring_mono (served : ServedBy reader chain)
    {first middle last : Nat} (order : middle ≤ last) :
    chain.seenDuring reader.contracts first middle ⊆
      chain.seenDuring reader.contracts first last := by
  rintro pid ⟨contract, configured, moment, after, before, registered⟩
  exact ⟨contract, configured, moment, after,
    before.trans (served.inputs_suffix configured order), registered⟩

theorem mem_seenDuring (served : ServedBy reader chain)
    (configured : contract ∈ reader.contracts) {pid : Pid}
    {first id last : Nat} (after : first < id) (before : id ≤ last)
    (registered : (chain.world contract id).Registered pid) :
    pid ∈ chain.seenDuring reader.contracts first last :=
  ⟨contract, configured, chain.inputs contract id,
    served.inputs_suffix configured after,
    served.inputs_suffix configured before, registered⟩

/-- One page: the reader gets some of the slots from an offset on. -/
theorem reads_page (served : ServedBy reader chain)
    (configured : contract ∈ reader.contracts) {offset : Nat}
    (fits : offset < uint256Size) {newest : Nat}
    (inside : offset < (chain.world contract (newest + 1)).pids.length) :
    ∃ data result page,
      encodeCall selPidsPage [.uint offset, .uint directoryPage] = .ok data ∧
      Reads (ethCall reader contract data) newest result (newest + 1) ∧
      decodeBytes32Array result = .ok (page.map pidText) ∧
      IsPage (chain.world contract (newest + 1)).pids offset page := by
  have pageFits : directoryPage < uint256Size := by decide
  obtain ⟨reply, replied, answers⟩ := served.pidsPage contract configured
    (newest + 1) offset directoryPage fits pageFits
  rw [pidsPage_eq] at answers
  have uints : ∀ value ∈ [offset, directoryPage], value < uint256Size := by
    simp [fits, pageFits]
  refine ⟨_, _, _, encodeCall_uints uints, reads_ethCall replied answers,
    decodeBytes32Array_abi ?_, isPage_take_drop (by decide) inside⟩
  exact (List.length_take_le _ _).trans_lt pageFits

/-- A part of the walk keeps what was found before it, and everything found is
registered in some contract during the walk. -/
structure Progress (reader : Reader) (chain : Chain) (first newest : Nat)
    (found : Found) (last : Nat) (final : Found) : Prop where
  later : newest ≤ last
  kept : ∀ text ∈ found.pids, text ∈ final.pids
  witnessed : final.Witnessed (chain.seenDuring reader.contracts first last)

theorem Progress.trans {first newest middle last : Nat}
    {found walked final : Found}
    (earlier : Progress reader chain first newest found middle walked)
    (rest : Progress reader chain first middle walked last final) :
    Progress reader chain first newest found last final where
  later := earlier.later.trans rest.later
  kept text member := rest.kept text (earlier.kept text member)
  witnessed := rest.witnessed

/-- Collecting a page of slots that hold registered PIDs. -/
theorem progress_collect (served : ServedBy reader chain)
    (configured : contract ∈ reader.contracts) {first newest : Nat}
    (started : first ≤ newest) {found : Found}
    (witnessed : found.Witnessed
      (chain.seenDuring reader.contracts first newest))
    {offset : Nat} {page : List Pid}
    (isPage : IsPage (chain.world contract (newest + 1)).pids offset page) :
    Progress reader chain first newest found (newest + 1)
      (found.collect (page.map pidText)) where
  later := Nat.le_succ newest
  kept text member := Found.mem_collect.mpr (Or.inl member)
  witnessed text member := by
    rcases Found.mem_collect.mp member with known | ⟨nonempty, fresh⟩
    · obtain ⟨pid, seen, textEq⟩ := witnessed text known
      exact ⟨pid, seenDuring_mono served (Nat.le_succ newest) seen, textEq⟩
    · obtain ⟨pid, onPage, rfl⟩ := List.mem_map.mp fresh
      have registered :=
        (served.sound configured _).registered_iff_mem.mpr
          ⟨pidText_ne_emptySlot.mp nonempty,
            isPage.subset pid onPage⟩
      exact ⟨pid, mem_seenDuring served configured (Nat.lt_succ_of_le started)
        le_rfl registered, rfl⟩

/-- The page loop: unless the reader has enough entries, it collects every PID
that keeps a slot of the remaining range. -/
theorem reads_pageLoop (served : ServedBy reader chain)
    (configured : contract ∈ reader.contracts) {maxEntries count first : Nat}
    (countFits : count < uint256Size) {offset newest : Nat} {found : Found}
    (started : first ≤ newest)
    (counted : count ≤ (chain.world contract newest).pids.length)
    (witnessed : found.Witnessed
      (chain.seenDuring reader.contracts first newest)) :
    ∃ final last,
      Reads (pageLoop reader maxEntries contract count offset found)
        newest final last ∧
      Progress reader chain first newest found last final ∧
      (maxEntries ≤ final.pids.length ∨
        ∀ index, offset ≤ index → index < count → ∀ pid : Pid, pid ≠ 0 →
          (∀ id, newest < id → id ≤ last →
            (chain.world contract id).pids[index]? = some pid) →
          pidText pid ∈ final.pids) := by
  obtain ⟨remaining, bound⟩ : ∃ remaining, count - offset ≤ remaining :=
    ⟨_, le_rfl⟩
  induction remaining generalizing offset newest found with
  | zero =>
      have done : ¬ (offset < count ∧ found.pids.length < maxEntries) := by
        omega
      refine ⟨found, newest, ?_, ⟨le_rfl, fun _ member => member, witnessed⟩,
        Or.inr fun index after before => by omega⟩
      rw [pageLoop, dif_neg done]
      exact Reads.pure found newest
  | succ remaining ih =>
      by_cases more : offset < count ∧ found.pids.length < maxEntries
      · have longer : count ≤
            (chain.world contract (newest + 1)).pids.length :=
          counted.trans
            (persists_runInputs (served.grows contract configured newest)).1
        obtain ⟨data, result, page, encoded, read, decodedPage, isPage⟩ :=
          reads_page served configured (more.1.trans countFits)
            (more.1.trans_le longer)
        have nonempty : page.map pidText ≠ [] :=
          fun isNil => isPage.nonempty (List.map_eq_nil_iff.mp isNil)
        have smaller :
            count - (offset + (page.map pidText).length) ≤ remaining := by
          have := List.length_pos_iff.mpr nonempty
          omega
        have collected := progress_collect served configured started witnessed
          isPage
        obtain ⟨final, last, rest, progress, complete⟩ := ih
          (started.trans (Nat.le_succ newest)) longer collected.witnessed
          smaller
        refine ⟨final, last, ?_, collected.trans progress, ?_⟩
        · rw [pageLoop, dif_pos more]
          refine (reads_decoded encoded newest).bind (read.bind
            ((reads_decoded decodedPage (newest + 1)).bind ?_))
          rw [dif_neg nonempty]
          exact rest
        · refine complete.imp_right fun complete => ?_
          intro index after before pid nonzero stays
          by_cases onPage : index < offset + page.length
          · have atIndex := stays (newest + 1) (Nat.lt_succ_self newest)
              progress.later
            exact progress.kept _ (Found.mem_collect.mpr (Or.inr
              ⟨pidText_ne_emptySlot.mpr nonzero,
                List.mem_map_of_mem (isPage.covers after onPage atIndex)⟩))
          · rw [List.length_map] at complete
            exact complete index (by omega) before pid nonzero
              fun id later => stays id (Nat.lt_of_succ_lt later)
      · refine ⟨found, newest, ?_, ⟨le_rfl, fun _ member => member, witnessed⟩,
          ?_⟩
        · rw [pageLoop, dif_neg more]
          exact Reads.pure found newest
        · by_cases enough : maxEntries ≤ found.pids.length
          · exact Or.inl enough
          · exact Or.inr fun index after before => by omega

/-- A PID that stays registered keeps one slot, which the count covers. -/
theorem Chain.Stays.slot (served : ServedBy reader chain)
    (configured : contract ∈ reader.contracts) {pid : Pid} {first last : Nat}
    (stays : chain.Stays contract pid first last) {id : Nat}
    (after : first < id) (before : id ≤ last) :
    (chain.world contract id).pids[
      (chain.world contract (first + 1)).pidIndexPlusOne pid - 1]? =
        some pid := by
  have soFar := stays.within (List.suffix_refl _)
    (served.inputs_suffix configured after)
    (served.inputs_suffix configured before)
  have sound := served.sound configured (chain.inputs contract id)
  have kept : (chain.world contract id).pidIndexPlusOne pid =
      (chain.world contract (first + 1)).pidIndexPlusOne pid :=
    slot_throughout soFar
  rw [← kept]
  exact sound.indexed.slot ((sound.registered_iff pid).mp soFar.now)

theorem reads_pillarCount (served : ServedBy reader chain)
    (configured : contract ∈ reader.contracts) (newest : Nat) :
    ∃ result,
      Reads (ethCall reader contract ('0' :: 'x' :: selPillarCount)) newest
        result (newest + 1) ∧
      decodeUint result =
        .ok (chain.world contract (newest + 1)).pids.length := by
  obtain ⟨reply, replied, answers⟩ :=
    served.pillarCount contract configured (newest + 1)
  rw [callData, List.map_nil, List.flatten_nil, toHex, List.flatMap_nil,
    List.append_nil] at replied
  exact ⟨_, reads_ethCall replied answers,
    decodeUint_abiUint (served.count_fits contract configured (newest + 1))⟩

/-- The walk through some of the contracts: unless the reader has enough
entries, it finds every PID that stays registered in one of them. -/
theorem reads_contractLoop (served : ServedBy reader chain)
    (maxEntries : Nat) {first : Nat} {contracts : List Text}
    (configured : ∀ contract ∈ contracts, contract ∈ reader.contracts)
    {newest : Nat} {found : Found} (started : first ≤ newest)
    (witnessed : found.Witnessed
      (chain.seenDuring reader.contracts first newest)) :
    ∃ final last,
      Reads (contractLoop reader maxEntries contracts found) newest final
        last ∧
      Progress reader chain first newest found last final ∧
      newest + contracts.length ≤ last ∧
      (maxEntries ≤ final.pids.length ∨
        ∀ contract ∈ contracts, ∀ pid : Pid,
          chain.Stays contract pid newest last →
          pidText pid ∈ final.pids) := by
  induction contracts generalizing newest found with
  | nil =>
      exact ⟨found, newest, Reads.pure found newest,
        ⟨le_rfl, fun _ member => member, witnessed⟩, le_rfl, Or.inr (by simp)⟩
  | cons contract contracts ih =>
      have here := configured contract (by simp)
      obtain ⟨result, read, decodedCount⟩ :=
        reads_pillarCount served here newest
      have counting : Progress reader chain first newest found (newest + 1)
          found :=
        ⟨Nat.le_succ newest, fun _ member => member, fun text member => by
          obtain ⟨pid, seen, textEq⟩ := witnessed text member
          exact ⟨pid, seenDuring_mono served (Nat.le_succ newest) seen,
            textEq⟩⟩
      obtain ⟨walked, middle, pages, paging, covered⟩ :=
        reads_pageLoop served here
          (served.count_fits contract here (newest + 1))
          (started.trans (Nat.le_succ newest)) le_rfl counting.witnessed
      obtain ⟨final, last, rest, resting, longEnough, complete⟩ := ih
        (fun other member => configured other (by simp [member]))
        ((started.trans (Nat.le_succ newest)).trans paging.later)
        paging.witnessed
      have pagingLater := paging.later
      refine ⟨final, last, ?_, (counting.trans paging).trans resting, ?_, ?_⟩
      · exact read.bind ((reads_decoded decodedCount (newest + 1)).bind
          (pages.bind rest))
      · rw [List.length_cons]
        omega
      · by_cases enough : maxEntries ≤ final.pids.length
        · exact Or.inl enough
        · refine Or.inr fun other member pid stays => ?_
          have walkedLength := Found.length_le resting.kept
          have covers := covered.resolve_left (by omega)
          have completes := complete.resolve_left enough
          rcases List.mem_cons.mp member with rfl | member
          · have nonzero : pid ≠ 0 := by
              rintro rfl
              exact (served.sound here _).not_registered_zero stays.now
            have atSlot := fun (id : Nat) (after : newest < id)
                (before : id ≤ last) => stays.slot served here after before
            have inside := (List.getElem?_eq_some_iff.mp
              (atSlot (newest + 1) (Nat.lt_succ_self newest)
                (by omega))).1
            exact resting.kept _ (covers _ (Nat.zero_le _) inside pid nonzero
              fun id after before => atSlot id (by omega)
                (before.trans resting.later))
          · have remaining := List.length_pos_of_mem member
            have reachable := configured other (by simp [member])
            exact completes other member pid (stays.within
              (served.inputs_suffix reachable (by omega))
              (served.inputs_suffix reachable (by omega))
              (List.suffix_refl _))

/-- The directory walk is complete.  In every contract the slots never move or
disappear, and they are exact.  A walk succeeds; it returns no duplicates and
only PIDs registered during it, and if `maxEntries` suffices for those, it
returns every PID registered in one contract the whole time. -/
theorem directory_complete :
    (∀ {this token admin feeRecipient : Address} {balanceOf : Balances}
      {start : World} {earlier inputs : List (Input this)},
      deploy this token admin feeRecipient balanceOf = .ok start →
      earlier <:+ inputs →
      Persists (runInputs start earlier).pids (runInputs start inputs).pids ∧
        SlotsExact (runInputs start inputs)) ∧
    ∀ {reader : Reader} {chain : Chain} (maxEntries first : Nat),
      ServedBy reader chain →
      ∃ pids last, Reads (directory reader maxEntries) first pids last ∧
        pids.Nodup ∧
        (∀ text ∈ pids, ∃ pid ∈ chain.seenDuring reader.contracts first last,
          text = pidText pid) ∧
        ((chain.seenDuring reader.contracts first last).ncard ≤ maxEntries →
          ∀ contract ∈ reader.contracts, ∀ pid : Pid,
            chain.Stays contract pid first last → pidText pid ∈ pids) := by
  constructor
  · intro this token admin feeRecipient balanceOf start earlier inputs
      deployed suffix
    exact ⟨persists_runInputs suffix,
      (sound_runInputs deployed inputs).slotsExact⟩
  · intro reader chain maxEntries first served
    have nothing : Found.empty.Witnessed
        (chain.seenDuring reader.contracts first first) := by
      simp [Found.Witnessed, Found.empty]
    obtain ⟨final, last, walk, progress, _, complete⟩ :=
      reads_contractLoop served maxEntries (fun _ member => member) le_rfl nothing
    refine ⟨final.pids.take maxEntries, last,
      walk.bind (Reads.pure _ last), final.nodup.sublist
        (List.take_sublist _ _), ?_, ?_⟩
    · intro text member
      exact progress.witnessed text (List.mem_of_mem_take member)
    · intro fewEnough contract configured pid stays
      have bounded := progress.witnessed.length_le.trans fewEnough
      rw [List.take_of_length_le bounded]
      have seen : pid ∈ chain.seenDuring reader.contracts first last :=
        ⟨contract, configured, _, stays.1, List.suffix_refl _, stays.now⟩
      rcases complete with enough | complete
      · exact progress.witnessed.complete (fewEnough.trans enough) seen
      · exact complete contract configured pid stays

end Walk

section Joining

/-- The registration of 7, made before the walk. -/
def earlyRegistration : Input 1 :=
  (byOperator oneDay).sends (.register 7 threshold [])

/-- The registration of 8, made between the two requests of the walk. -/
def lateRegistration : Input 1 :=
  (byOracle (oneDay + 12)).sends (.register 8 threshold [])

def joiningChain : Chain where
  address _ := 1
  start _ := fundedWorld
  inputs _ id :=
    if id < 2 then [earlyRegistration]
    else [lateRegistration, earlyRegistration]

theorem joiningChain_cases (contract : Text) (id : Nat) :
    joiningChain.inputs contract id = [earlyRegistration] ∨
      joiningChain.inputs contract id =
        [lateRegistration, earlyRegistration] := by
  simp only [joiningChain]
  split
  · exact Or.inl rfl
  · exact Or.inr rfl

theorem servedBy_joiningChain (contracts : List Text) :
    ServedBy ⟨contracts, node joiningChain⟩ joiningChain := by
  refine servedBy_node (fun _ _ => ⟨2, 3, 4, _, deploy_fundedWorld⟩) ?_ ?_
  · intro contract _ id
    by_cases early : id + 1 < 2
    · have sooner : id < 2 := by omega
      simp only [joiningChain, early, sooner, if_true]
      exact List.suffix_refl _
    · by_cases before : id < 2
      · simp only [joiningChain, early, before, if_true, if_false]
        exact List.suffix_cons _ _
      · simp only [joiningChain, early, before, if_false]
        exact List.suffix_refl _
  · intro contract _ id
    have fits : ∀ inputs : List (Input 1), inputs = [earlyRegistration] ∨
        inputs = [lateRegistration, earlyRegistration] →
        (runInputs fundedWorld inputs).pids.length < uint256Size := by
      rintro inputs (rfl | rfl)
      · decide +kernel
      · decide +kernel
    exact fits _ (joiningChain_cases contract id)

theorem joiningChain_moment {contract : Text} {first last : Nat}
    {moment : List (Input 1)}
    (after : joiningChain.inputs contract first <:+ moment)
    (before : moment <:+ joiningChain.inputs contract last) :
    moment = [earlyRegistration] ∨
      moment = [lateRegistration, earlyRegistration] := by
  have nonempty : moment ≠ [] := by
    rintro rfl
    have isNil := List.suffix_nil.mp after
    rcases joiningChain_cases contract first with inputs | inputs <;>
      rw [inputs] at isNil <;> cases isNil
  have whole : moment <:+ [lateRegistration, earlyRegistration] := by
    rcases joiningChain_cases contract last with inputs | inputs
    · rw [inputs] at before
      exact before.trans (List.suffix_cons _ _)
    · rw [inputs] at before
      exact before
  rcases List.suffix_cons_iff.mp whole with all | rest
  · exact Or.inr all
  · rcases List.suffix_cons_iff.mp rest with one | none
    · exact Or.inl one
    · exact (nonempty (List.suffix_nil.mp none)).elim

theorem joiningChain_registered {moment : List (Input 1)}
    (early : moment = [earlyRegistration] ∨
      moment = [lateRegistration, earlyRegistration]) :
    (runInputs fundedWorld moment).Registered 7 ∧
      ∀ pid, (runInputs fundedWorld moment).Registered pid →
        pid = 7 ∨ pid = 8 := by
  have slots : (runInputs fundedWorld moment).pids = [7] ∨
      (runInputs fundedWorld moment).pids = [7, 8] := by
    rcases early with rfl | rfl
    · exact Or.inl (by decide +kernel)
    · exact Or.inr (by decide +kernel)
  have registered : (runInputs fundedWorld moment).Registered 7 := by
    rcases early with rfl | rfl
    · decide +kernel
    · decide +kernel
  refine ⟨registered, fun pid present => ?_⟩
  have member := ((sound_runInputs deploy_fundedWorld
    moment).registered_iff_mem.mp present).2
  rcases slots with one | two
  · rw [one] at member
    exact Or.inl (List.mem_singleton.mp member)
  · rw [two] at member
    simpa using member

/-- A walk during which 8 registers finds 7. -/
theorem directory_complete_joining :
    SlotsExact (runInputs fundedWorld [lateRegistration, earlyRegistration]) ∧
      ∃ pids last,
        Reads (directory ⟨["0x01".toList], node joiningChain⟩ 5000) 0 pids
          last ∧
        pids.Nodup ∧ pidText 7 ∈ pids := by
  have exactNow := (directory_complete.1 deploy_fundedWorld
    (List.suffix_cons lateRegistration [earlyRegistration])).2
  obtain ⟨pids, last, reads, distinct, _, complete⟩ :=
    directory_complete.2 5000 0 (servedBy_joiningChain ["0x01".toList])
  have fewEnough : (joiningChain.seenDuring ["0x01".toList] 0 last).ncard ≤
      5000 := by
    have within : joiningChain.seenDuring ["0x01".toList] 0 last ⊆ {7, 8} := by
      rintro pid ⟨contract, _, moment, after, before, registered⟩
      exact (joiningChain_registered (joiningChain_moment after before)).2 pid
        registered
    exact (Set.ncard_le_ncard within (Set.toFinite _)).trans
      ((Set.ncard_insert_le 7 {8}).trans (by simp))
  have stays : joiningChain.Stays "0x01".toList 7 0 last := by
    refine ⟨?_, fun moment after before => ?_⟩
    · rcases joiningChain_cases "0x01".toList last with inputs | inputs
      · rw [inputs]
        exact List.suffix_refl _
      · rw [inputs]
        exact List.suffix_cons _ _
    · exact (joiningChain_registered (joiningChain_moment after before)).1
  exact ⟨exactNow, pids, last, reads, distinct,
    complete fewEnough _ (by simp) 7 stays⟩

end Joining

end StakingReader

end RefinetPillars
