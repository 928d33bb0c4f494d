import RefinetPillars.GopherholeRegistry
import RefinetPillars.RunHistory
import RefinetPillars.SigningPurposes

/-!
# Replication through untrusted Pillars

Every Pillar has a registry of its own.  Pillars create gopherholes and import
what any peer answers: nothing is assumed about an answer, so an answer
may have gone through any number of other Pillars.
-/

namespace RefinetPillars

namespace GopherholeReplication

open HexText LineText DecimalText KeyRecovery ContentSigning JsonText
  GopherholeRecord GopherholeRegistry SigningPurposes

/-- The registries of all Pillars, by their public keys. -/
abbrev Network := List UInt8 → Registry

inductive Event where
  | create (privateKey : List UInt8) (gopherRoot : Text)
      (name selector description ownerAddress : Text) (directoryExists : Bool)
      (year month day : Nat)
  | sync (pillar : List UInt8) (admitted : Bool) (peerPid today : Text)
      (answer : Option Text)

section Scheme

variable (scheme : Scheme) (floatRepr : Text → Text)
  (realText : Text → Option Text)

def apply : Event → Network → Network
  | .create privateKey gopherRoot name selector description ownerAddress
      directoryExists year month day, network =>
      let pillar := scheme.publicKey privateKey
      match createGopherhole realText scheme privateKey gopherRoot name selector
          description ownerAddress directoryExists year month day
          (network pillar) with
      | .ok created => Function.update network pillar created
      | .error _ => network
  | .sync pillar admitted peerPid today answer, network =>
      Function.update network pillar
        (syncPeerRegistry scheme floatRepr realText admitted peerPid today answer
          (network pillar)).1

def run (events : List Event) : Network :=
  RunHistory.run (apply scheme floatRepr realText) (fun _ => Registry.empty)
    events

/-- What the database keeps of a value is the text that is verified. -/
def KeptAsVerified (value : Json) : Prop :=
  ∀ stored, columnText realText value = .ok (some stored) →
    str value = some stored

/-- A creation is one of the operations of the owner, and the names and dates
of the offered records that verify are kept as they are verified. -/
def Event.Faithful (history : List UInt8 → List Operation) : Event → Prop
  | .create privateKey _ name selector _ _ _ year month day =>
      .createGopherhole selector name year month day ∈
        history (scheme.publicKey privateKey)
  | .sync _ _ _ _ answer =>
      ∀ holes items, answer.bind (offered floatRepr) = some holes →
        iterate holes = some items → ∀ hole ∈ items,
        verifyGopherholeSignature scheme hole = some true →
        KeptAsVerified realText (field hole "name") ∧
          KeptAsVerified realText (field hole "registered_at")

/-- A row is what the owner of a key that hashes to the PID has created, and
the text that was signed is split in no other way. -/
structure Authentic (history : List UInt8 → List Operation) (row : Row) :
    Prop where
  created : ∃ publicKey year month day, pidOf scheme publicKey = row.pid ∧
    validateSelector row.selector row.pid = .ok () ∧
    row.registeredAt = accountingDate year month day ∧
    .createGopherhole row.selector row.name year month day ∈ history publicKey
  unsplit : ∀ selector name registeredAt,
    signingPayload row.pid selector name registeredAt =
      signingPayload row.pid row.selector row.name row.registeredAt →
    selector = row.selector ∧ name = row.name ∧
      registeredAt = row.registeredAt

/-- Every row of every registry. -/
def AllAuthentic (history : List UInt8 → List Operation) (network : Network) :
    Prop :=
  ∀ pillar, ∀ row ∈ (network pillar).rows, Authentic scheme history row

end Scheme

section Dates

/-- A date has two dashes, and no value without content is printed so. -/
theorem two_le_count_accountingDate (year month day : Nat) :
    2 ≤ (accountingDate year month day).count '-' := by
  simp only [accountingDate, List.count_append, List.count_cons,
    beq_self_eq_true, if_true]
  omega

theorem count_str_of_isFalsy {value : Json} {text : Text}
    (falsy : value.isFalsy = true) (printed : str value = some text) :
    text.count '-' ≤ 1 := by
  cases value with
  | null =>
      cases printed
      decide
  | bool value =>
      cases value <;> cases printed <;> decide
  | int value =>
      obtain rfl : value = 0 := by simpa [Json.isFalsy] using falsy
      cases printed
      decide
  | float token =>
      simp only [Json.isFalsy, Bool.or_eq_true, decide_eq_true_eq] at falsy
      rcases falsy with rfl | rfl <;> cases printed <;> decide
  | str value =>
      obtain rfl : value = [] := by simpa [Json.isFalsy] using falsy
      cases printed
      decide
  | arr | obj => cases printed

theorem isFalsy_of_str_eq_date {value : Json} {year month day : Nat}
    (printed : str value = some (accountingDate year month day)) :
    value.isFalsy = false := by
  by_contra falsy
  have few := count_str_of_isFalsy (by simpa using falsy) printed
  have many := two_le_count_accountingDate year month day
  omega

end Dates

section Authenticity

variable {scheme : Scheme} {floatRepr : Text → Text}
  {realText : Text → Option Text} {history : List UInt8 → List Operation}

theorem allAuthentic_update {network : Network} {pillar : List UInt8}
    {registry : Registry} (authentic : AllAuthentic scheme history network)
    (updated : ∀ row ∈ registry.rows, Authentic scheme history row) :
    AllAuthentic scheme history (Function.update network pillar registry) := by
  intro other row member
  by_cases same : other = pillar
  · rw [same, Function.update_self] at member
    exact updated row member
  · rw [Function.update_of_ne same] at member
    exact authentic other row member

theorem authentic_of_mem {publicKey : List UInt8} {row : Row}
    {year month day : Nat} (pid : pidOf scheme publicKey = row.pid)
    (valid : validateSelector row.selector row.pid = .ok ())
    (date : row.registeredAt = accountingDate year month day)
    (created : .createGopherhole row.selector row.name year month day ∈
      history publicKey)
    (separable : ∀ operation ∈ history publicKey,
      operation.Separable (pidOf scheme publicKey)) :
    Authentic scheme history row := by
  refine ⟨⟨publicKey, year, month, day, pid, valid, date, created⟩, ?_⟩
  intro selector name registeredAt same
  have pidFree : ':' ∉ row.pid := by
    rw [← pid]
    exact colon_notMem_toHex _
  obtain ⟨found, matched⟩ := exists_matchSelector valid
  have dateFree : ':' ∉ row.registeredAt := by
    rw [date]
    exact colon_notMem_accountingDate _ _ _
  obtain ⟨-, selectorEq, nameEq, dateEq⟩ := signingPayload_inj pidFree
    (colon_notMem_of_matchSelector matched) (separable _ created) dateFree
    pidFree same.symm
  exact ⟨selectorEq.symm, nameEq.symm, dateEq.symm⟩

/-- The row of a record that verifies. -/
theorem authentic_of_verified {row : Row} {hole : Json} {peerPid today : Text}
    (unforgeable : scheme.Unforgeable (SignedIn scheme history))
    (separable : ∀ publicKey, ∀ operation ∈ history publicKey,
      operation.Separable (pidOf scheme publicKey))
    (keptName : KeptAsVerified realText (field hole "name"))
    (keptDate : KeptAsVerified realText (field hole "registered_at"))
    (verified : verifyGopherholeSignature scheme hole = some true)
    (made : ((registrationOf peerPid hole).dated today).row realText scheme =
      .ok row) : Authentic scheme history row := by
  obtain ⟨pid, pubkeyHex, -, -, -, -, getPid, getPubkey, -, -, -, keyed, -, -⟩ :=
    verifyGopherholeSignature_eq_some_true verified
  obtain ⟨publicKey, key, rfl⟩ := pidMatchesKey_iff.mp keyed
  obtain ⟨selector, name, year, month, day, created, valid, -, getSelector,
    getName, getDate⟩ := exists_createGopherhole unforgeable
      (separable publicKey) getPubkey key verified
  obtain ⟨nameValue, nameFound, nameStr⟩ := Option.bind_eq_some_iff.mp getName
  obtain ⟨dateValue, dateFound, dateStr⟩ := Option.bind_eq_some_iff.mp getDate
  obtain ⟨pidText, selectorText, nameText, dateText⟩ := row_eq_ok made
  have pidField : field hole "pid" = .str (pidOf scheme publicKey) := by
    rw [field, getPid, Option.getD_some]
  have selectorField : field hole "selector" = .str selector := by
    rw [field, getSelector, Option.getD_some]
  have nameField : field hole "name" = nameValue := by
    rw [field, nameFound, Option.getD_some]
  have dateField : field hole "registered_at" = dateValue := by
    rw [field, dateFound, Option.getD_some]
  have truthy := isFalsy_of_str_eq_date dateStr
  rw [← dateField] at truthy
  rw [dated_pid, registrationOf, pidField] at pidText
  rw [dated_selector, registrationOf, selectorField] at selectorText
  rw [dated_name] at nameText
  rw [dated_registeredAt (.inl truthy)] at dateText
  have samePid := Option.some.inj (Except.ok.inj pidText)
  have sameSelector := Option.some.inj (Except.ok.inj selectorText)
  have sameName := (keptName _ nameText).symm.trans (nameField ▸ nameStr)
  have sameDate := (keptDate _ dateText).symm.trans (dateField ▸ dateStr)
  rw [Option.some.injEq] at sameName sameDate
  rw [sameSelector, ← sameName] at created
  rw [sameSelector, samePid] at valid
  exact authentic_of_mem samePid valid sameDate created (separable publicKey)

/-- One event keeps all rows of all registries authentic. -/
theorem allAuthentic_apply {event : Event} {network : Network}
    (unforgeable : scheme.Unforgeable (SignedIn scheme history))
    (separable : ∀ publicKey, ∀ operation ∈ history publicKey,
      operation.Separable (pidOf scheme publicKey))
    (faithful : event.Faithful scheme floatRepr realText history)
    (authentic : AllAuthentic scheme history network) :
    AllAuthentic scheme history
      (apply scheme floatRepr realText event network) := by
  cases event with
  | create privateKey gopherRoot name selector description ownerAddress
      directoryExists year month day =>
      rw [apply]
      split
      next created =>
        obtain ⟨valid, row, rows, pid, rfl, rfl, date⟩ :=
          createGopherhole_eq_ok created
        rw [← pid] at valid
        apply allAuthentic_update authentic
        rw [rows]
        intro other member
        rcases List.mem_append.mp member with older | newest
        · exact authentic _ other older
        · rw [List.mem_singleton.mp newest]
          exact authentic_of_mem pid.symm valid date faithful
            (separable (scheme.publicKey privateKey))
      next => exact authentic
  | sync pillar admitted peerPid today answer =>
      apply allAuthentic_update authentic
      apply syncPeerRegistry_rows (authentic pillar)
      intro holes items found iterated hole member verified row made
      obtain ⟨keptName, keptDate⟩ :=
        faithful holes items found iterated hole member verified
      exact authentic_of_verified unforgeable separable keptName keptDate
        verified made

end Authenticity

section Examples

/-- The record of a gopherhole in a directory, with an empty signature. -/
def recordFields (scheme : Scheme) (publicKey : List UInt8)
    (selector name registeredAt : Text) : List (Text × Text) :=
  [("pid".toList, pidOf scheme publicKey),
    ("pubkey_hex".toList, toHex publicKey), ("selector".toList, selector),
    ("name".toList, name), ("registered_at".toList, registeredAt),
    ("signature".toList, toHex [])]

def recordOf (fields : List (Text × Text)) : Json :=
  .obj (fields.map fun entry => (entry.1, Json.str entry.2))

theorem isPlain_toHex (bytes : List UInt8) : IsPlain (toHex bytes) := by
  intro character member
  obtain ⟨value, small, rfl⟩ := exists_digit_of_mem_toHex member
  have checked : ∀ value : Fin 16, (value : Nat).digitChar ≠ '"' ∧
      (value : Nat).digitChar ≠ '\\' ∧ 32 ≤ (value : Nat).digitChar.toNat := by
    decide
  exact checked ⟨value, small⟩

/-- The directory that has one record only is read as that record. -/
theorem offered_recordFields (scheme : Scheme) (floatRepr : Text → Text)
    (publicKey : List UInt8) {selector name registeredAt : Text}
    (plainSelector : IsPlain selector) (plainName : IsPlain name)
    (plainDate : IsPlain registeredAt) :
    offered floatRepr (printedObject
        (recordFields scheme publicKey selector name registeredAt)) =
      some (.arr [recordOf
        (recordFields scheme publicKey selector name registeredAt)]) := by
  have plainKeys : ∀ key ∈ (recordFields scheme publicKey selector name
      registeredAt).map Prod.fst, IsPlain key := by
    have checked : ∀ key ∈ ["pid".toList, "pubkey_hex".toList,
        "selector".toList, "name".toList, "registered_at".toList,
        "signature".toList], IsPlain key := by decide
    exact checked
  have plain : ∀ entry ∈ recordFields scheme publicKey selector name
      registeredAt, IsPlain entry.1 ∧ IsPlain entry.2 := by
    intro entry member
    refine ⟨plainKeys _ (List.mem_map_of_mem member), ?_⟩
    simp only [recordFields, List.mem_cons, List.not_mem_nil, or_false]
      at member
    rcases member with rfl | rfl | rfl | rfl | rfl | rfl
    · exact isPlain_toHex _
    · exact isPlain_toHex _
    · exact plainSelector
    · exact plainName
    · exact plainDate
    · exact isPlain_toHex _
  have distinct : ((recordFields scheme publicKey selector name
      registeredAt).map Prod.fst).Nodup := by
    have checked : ["pid".toList, "pubkey_hex".toList, "selector".toList,
        "name".toList, "registered_at".toList, "signature".toList].Nodup := by
      decide
    exact checked
  have read := loads_printedObject floatRepr (by simp [recordFields]) plain
    distinct
  rw [printedObject] at read ⊢
  have ends : ('[' :: '{' :: printedFields (recordFields scheme publicKey
      selector name registeredAt) ++ ['}', ']']) =
      '[' :: ('{' :: printedFields (recordFields scheme publicKey
      selector name registeredAt) ++ ['}']) ++ [']'] := by simp
  rw [offered, ends, strip_of_ends _ (by decide) (by decide),
    stripTerminator_append (by decide), ← ends, read]
  rfl

/-- The record of a signed payload verifies. -/
theorem verifyGopherholeSignature_recordOf {sha256 : List UInt8 → List UInt8}
    {signed : List (List UInt8 × List UInt8)} {publicKey : List UInt8}
    {selector name registeredAt : Text}
    (unclaimed : matchSelector selector = none ∨
      matchSelector selector = some none)
    (member : (publicKey, encodeUtf8 (signingPayload (toHex (sha256 publicKey))
      selector name registeredAt)) ∈ signed) :
    verifyGopherholeSignature (ledgerScheme sha256 signed)
      (recordOf (recordFields (ledgerScheme sha256 signed) publicKey selector
        name registeredAt)) = some true := by
  have owned : (matchSelector selector).all (ownNamespace
      (pidOf (ledgerScheme sha256 signed) publicKey)) = true := by
    rcases unclaimed with unmatched | unmatched <;> rw [unmatched] <;> rfl
  exact verifyGopherholeSignature_of_texts rfl rfl rfl rfl rfl rfl
    (pidMatchesKey_toHex publicKey) owned
    (verifySignature_ledgerScheme member [])

/-- The owner of the key `[7]` has created one gopherhole. -/
def created (name : Text) : List Operation :=
  [.createGopherhole "/holes/a".toList name 2025 1 2]

abbrev createdScheme (name : Text) : Scheme :=
  operationScheme Sha256.sha256 [7] (created name)

theorem payload_mem_signedBy (name : Text) :
    ([7], encodeUtf8 (signingPayload (toHex (Sha256.sha256 [7]))
      "/holes/a".toList name (accountingDate 2025 1 2))) ∈
      signedBy Sha256.sha256 [7] (created name) := by
  apply mem_signedBy List.mem_cons_self
  have valid : ∀ pid, validateSelector "/holes/a".toList pid = .ok () :=
    fun _ => rfl
  rw [Operation.signedTexts, Operation.rawTexts, valid]
  exact List.mem_cons_self

def copied (selector name : Text) (scheme : Scheme) : Event :=
  .sync [8] true [] [] (some (printedObject
    (recordFields scheme [7] selector name (accountingDate 2025 1 2))))

theorem keptAsVerified_str (realText : Text → Option Text) (text : Text) :
    KeptAsVerified realText (.str text) := by
  intro stored converted
  cases converted
  rfl

/-- A record that verifies is imported as it is offered. -/
theorem exists_row_copied (selector name : Text) (scheme : Scheme)
    (plainSelector : IsPlain selector) (plainName : IsPlain name)
    (verified : verifyGopherholeSignature scheme (recordOf
      (recordFields scheme [7] selector name (accountingDate 2025 1 2))) =
      some true) :
    ∃ row ∈ (run scheme id some [copied selector name scheme] [8]).rows,
      row.pid = pidOf scheme [7] ∧ row.selector = selector ∧
        row.name = name := by
  have registered : ∃ registry row,
      registerGopherhole some scheme [] (registrationOf [] (recordOf
        (recordFields scheme [7] selector name (accountingDate 2025 1 2))))
        Registry.empty = .ok registry ∧ registry.rows = [row] ∧
      row.pid = pidOf scheme [7] ∧ row.selector = selector ∧
        row.name = name :=
    ⟨_, _, rfl, rfl, rfl, rfl, rfl⟩
  obtain ⟨registry, row, registered, rows, fields⟩ := registered
  refine ⟨row, ?_, fields⟩
  have absent : gopherholeExists some Registry.empty
      (field (recordOf (recordFields scheme [7] selector name
        (accountingDate 2025 1 2))) "pid")
      (field (recordOf (recordFields scheme [7] selector name
        (accountingDate 2025 1 2))) "selector") = .ok false := rfl
  rw [recordOf] at *
  rw [run, RunHistory.run_cons, RunHistory.run_nil, copied, apply,
    Function.update_self, syncPeerRegistry, if_pos rfl, Option.bind_some,
    offered_recordFields _ _ _ plainSelector plainName (by decide)]
  simp only [iterate, importHoles, importHole, recordOf, absent, verified,
    registered, rows, if_true, List.mem_singleton]

end Examples

end GopherholeReplication

end RefinetPillars
