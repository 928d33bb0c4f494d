import RefinetPillars.JsonDocuments
import RefinetPillars.PidFile

/-!
# The identity key and crashes

The key in the file of the identity stays there as long as no crash cuts off
what is saved and nobody saves another key, and as long as the file is read
when it exists.
-/

namespace RefinetPillars

namespace PidFile

open HexText KeyRecovery ContentSigning JsonText
open PeerListener (decode decode_encodeUtf8)

section Statement

variable (env : Environment)

/-- An identity has a private key, plain or encrypted. -/
def HasKey (privHex : Text) (pidData : Json) : Prop :=
  pidData.get "private_key".toList = some (.str privHex) ∨
    ∃ envelope password, pidData.get "private_key".toList = some envelope ∧
      decryptPrivateKey env envelope password = some privHex

/-- The file holds an identity with a private key. -/
def Holds (privHex : Text) (file : File) : Prop :=
  ∃ pidData, loadPid env true file = .ok (some pidData) ∧
    pidData.isFalsy = false ∧ HasKey env privHex pidData

/-- `get_or_create_pid` raises an exception when it reads the file. -/
def Refuses (file : File) : Prop :=
  ∀ attempt : Attempt, attempt.isReadable = true →
    ∃ raised, (getOrCreatePid env attempt file).2 = .raised raised

variable {env}

/-- In every later state the file holds the key, or no identity is got. -/
def Stays (privHex : Text) : File → List (Step env) → Prop
  | file, [] => Holds env privHex file ∨ Refuses env file
  | file, step :: steps =>
      (Holds env privHex file ∨ Refuses env file) ∧
        Stays privHex (step.after file) steps

/-- What one step does to a file. -/
structure KeepsFile (file : File) (step : Step env) : Prop where
  existing : ∀ attempt, step = .getOrCreatePid attempt → file.isSome = true →
    step.after file = file
  complete : ∀ pidData crash, step.written file = some (pidData, crash) →
    ∀ privHex, Holds env privHex file →
      Holds env privHex (step.after file) ∨
        step.after file = some (contents pidData)

/-- A key that the file holds stays there, whatever follows. -/
def IdentityKept : File → List (Step env) → Prop
  | _, [] => True
  | file, step :: steps =>
      (∀ privHex, Holds env privHex file → Stays privHex file (step :: steps)) ∧
        KeepsFile file step ∧ IdentityKept (step.after file) steps

/-- A crash leaves less than all of an identity. -/
def Crash.CutsOff (pidData : Json) : Crash → Prop
  | .none | .beforeTruncation => False
  | .after written => written < (contents pidData).length

/-- An identity with a key replaces the file as a whole, or not at all. -/
def KeepsKey (env : Environment) (privHex : Text) (pidData written : Json)
    (crash : Crash) : Prop :=
  crash = .beforeTruncation ∨
    HasKey env privHex pidData ∧ ¬ crash.CutsOff written

/-- A file that exists is read as an identity, and what is saved has the key
that the file holds and is not cut off by a crash. -/
def Careful (file : File) : Step env → Prop
  | .getOrCreatePid attempt => file.isSome = true →
      ∀ loaded, loadPid env attempt.isReadable file = .ok loaded →
        (existing loaded).isSome = true
  | .savePid pidData crash => ∀ privHex, Holds env privHex file →
      KeepsKey env privHex pidData.value pidData.value crash
  | .encryptExistingPid pidData password random crash =>
      ∀ encrypted,
        encryptExistingPid env pidData.value password random = .ok encrypted →
        ∀ privHex, Holds env privHex file →
          KeepsKey env privHex pidData.value encrypted crash

/-- A condition on every step and the file that it meets. -/
def Throughout (condition : File → Step env → Prop) :
    File → List (Step env) → Prop
  | _, [] => True
  | file, step :: steps =>
      condition file step ∧ Throughout condition (step.after file) steps

end Statement

section Documents

variable {env : Environment}

/-- What has been saved is read as it was. -/
theorem loadPid_contents {pidData : Json}
    (printable : Printable env.floatRepr pidData) :
    loadPid env true (some (contents pidData)) = .ok (some pidData) := by
  have plain : Layout.Plain { indent := some 2, itemSeparator := [','] } :=
    ⟨⟨[], rfl, fun _ member => absurd member List.not_mem_nil⟩,
      ⟨[' '], rfl, by simp [isJsonSpace]⟩⟩
  rw [loadPid, if_pos rfl, contents, decode_encodeUtf8]
  exact congrArg Except.ok (loads_dumps plain rfl printable)

theorem not_isFalsy_of_hasKey {privHex : Text} {pidData : Json}
    (hasKey : HasKey env privHex pidData) : pidData.isFalsy = false := by
  obtain ⟨value, hasValue⟩ : ∃ value,
      pidData.get "private_key".toList = some value := by
    rcases hasKey with plain | ⟨envelope, -, encrypted, -⟩
    · exact ⟨_, plain⟩
    · exact ⟨_, encrypted⟩
  cases pidData with
  | obj fields =>
      cases fields with
      | nil => cases hasValue
      | cons field fields => rfl
  | null | bool | int | float | str | arr => cases hasValue

theorem holds_contents {privHex : Text} {pidData : Json}
    (printable : Printable env.floatRepr pidData)
    (hasKey : HasKey env privHex pidData) :
    Holds env privHex (some (contents pidData)) :=
  ⟨pidData, loadPid_contents printable, not_isFalsy_of_hasKey hasKey, hasKey⟩

theorem printable_encryptPrivateKey (privHex password : Text) (random : Salt) :
    Printable env.floatRepr (encryptPrivateKey env privHex password random) := by
  have distinct : ["algorithm".toList, "kdf".toList, "salt".toList,
      "nonce".toList, "ciphertext".toList].Nodup := by decide
  refine .obj distinct fun field member => ?_
  simp only [List.mem_cons, List.not_mem_nil, or_false] at member
  rcases member with rfl | rfl | rfl | rfl | rfl <;> exact .str _

/-- An encrypted key is decrypted with its password. -/
theorem decryptPrivateKey_encryptPrivateKey (privHex password : Text)
    (random : Salt) :
    decryptPrivateKey env (encryptPrivateKey env privHex password random)
      password = some privHex := by
  have salt : envelopeBytes "salt"
      (encryptPrivateKey env privHex password random) = some random.salt :=
    fromHex_toHex _
  have nonce : envelopeBytes "nonce"
      (encryptPrivateKey env privHex password random) = some random.nonce :=
    fromHex_toHex _
  have ciphertext : envelopeBytes "ciphertext"
      (encryptPrivateKey env privHex password random) =
        some (env.aesgcmEncrypt (env.deriveKey (encodeUtf8 password)
          random.salt) random.nonce (encodeUtf8 privHex)) :=
    fromHex_toHex _
  rw [decryptPrivateKey, salt, nonce, ciphertext]
  dsimp only [Option.bind_eq_bind, Option.bind_some]
  rw [env.decrypts]
  exact decode_encodeUtf8 privHex

theorem encryptExistingPid_eq_ok {pidData encrypted : Json} {password : Text}
    {random : Salt}
    (done : encryptExistingPid env pidData password random = .ok encrypted) :
    ∃ fields privHex, pidData = .obj fields ∧
      pidData.get "private_key".toList = some (.str privHex) ∧
      encrypted = .obj (setField "private_key".toList
        (encryptPrivateKey env privHex password random) fields) := by
  unfold encryptExistingPid at done
  split at done
  next fields =>
    split at done
    · cases done
    next privHex isPlain =>
      exact ⟨fields, privHex, rfl, isPlain, (Except.ok.inj done).symm⟩
    all_goals cases done
  next => cases done

theorem printable_setField {floatRepr : Text → Text}
    {fields : List (Text × Json)} {key : Text} {value : Json}
    (printable : Printable floatRepr (.obj fields))
    (isPrintable : Printable floatRepr value) :
    Printable floatRepr (.obj (JsonText.setField key value fields)) := by
  cases printable with
  | obj nodup all =>
      refine .obj (nodup_setField key value nodup) fun field member => ?_
      rcases mem_setField member with rfl | older
      · exact isPrintable
      · exact all field older

/-- Encrypting an identity keeps its key. -/
theorem hasKey_encryptExistingPid {privHex : Text} {pidData : PidData env}
    {encrypted : Json} {password : Text} {random : Salt}
    (done : encryptExistingPid env pidData.value password random =
      .ok encrypted) (hasKey : HasKey env privHex pidData.value) :
    Printable env.floatRepr encrypted ∧ HasKey env privHex encrypted := by
  obtain ⟨fields, plainKey, isObject, isPlain, rfl⟩ :=
    encryptExistingPid_eq_ok done
  have printable := pidData.printable
  rw [isObject] at printable
  refine ⟨printable_setField printable (printable_encryptPrivateKey _ _ _),
    .inr ?_⟩
  have same : plainKey = privHex := by
    rcases hasKey with plain | ⟨envelope, other, isEnvelope, opened⟩
    · exact Json.str.inj (Option.some.inj (isPlain.symm.trans plain))
    · obtain rfl := Option.some.inj (isPlain.symm.trans isEnvelope)
      cases opened
  subst same
  refine ⟨encryptPrivateKey env plainKey password random, password, ?_,
    decryptPrivateKey_encryptPrivateKey plainKey password random⟩
  exact (get_setField "private_key".toList "private_key".toList _ fields).trans
    (if_pos rfl)

end Documents

section Steps

variable {env : Environment} {file : File} {privHex : Text}

theorem take_of_not_cutsOff {pidData : Json} {written : Nat}
    (whole : ¬ (Crash.after written).CutsOff pidData) :
    (contents pidData).take written = contents pidData :=
  List.take_of_length_le (not_lt.mp whole)

/-- What has been saved with care holds the key. -/
theorem holds_savePid {pidData written : Json} {crash : Crash}
    (printable : Printable env.floatRepr written)
    (hasKey : HasKey env privHex pidData → HasKey env privHex written)
    (holds : Holds env privHex file)
    (keeps : KeepsKey env privHex pidData written crash) :
    Holds env privHex (savePid written crash file) := by
  rcases keeps with rfl | ⟨has, whole⟩
  · exact holds
  · have saved := holds_contents printable (hasKey has)
    cases crash with
    | none => exact saved
    | beforeTruncation => exact holds
    | after written =>
        rw [savePid, take_of_not_cutsOff whole]
        exact saved

theorem after_getOrCreatePid {attempt : Attempt}
    (careful : Careful file (.getOrCreatePid attempt : Step env))
    (exists_ : file.isSome = true) :
    (Step.getOrCreatePid attempt : Step env).after file = file := by
  change (getOrCreatePid env attempt file).1 = file
  unfold getOrCreatePid
  cases loads : loadPid env attempt.isReadable file with
  | error raised => rfl
  | ok loaded =>
      obtain ⟨pidData, isExisting⟩ :=
        Option.isSome_iff_exists.mp (careful exists_ loaded loads)
      dsimp only
      rw [isExisting]

theorem isSome_of_holds (holds : Holds env privHex file) :
    file.isSome = true := by
  obtain ⟨pidData, loaded, -, -⟩ := holds
  cases file with
  | none => cases loaded
  | some bytes => rfl

/-- A careful step keeps the key. -/
theorem holds_after {step : Step env} (careful : Careful file step)
    (holds : Holds env privHex file) :
    Holds env privHex (step.after file) := by
  cases step with
  | getOrCreatePid attempt =>
      rw [after_getOrCreatePid careful (isSome_of_holds holds)]
      exact holds
  | savePid pidData crash =>
      exact holds_savePid pidData.printable id holds (careful privHex holds)
  | encryptExistingPid pidData password random crash =>
      unfold Step.after
      dsimp only
      cases done : encryptExistingPid env pidData.value password random with
      | error raised => exact holds
      | ok encrypted =>
          have keeps := careful encrypted done privHex holds
          rcases keeps with rfl | ⟨has, whole⟩
          · exact holds
          · obtain ⟨printable, hasKey⟩ := hasKey_encryptExistingPid done has
            exact holds_savePid printable (fun _ => hasKey) holds
              (.inr ⟨has, whole⟩)

/-- One step. -/
theorem keepsFile {step : Step env} (careful : Careful file step) :
    KeepsFile file step where
  existing attempt isAttempt exists_ := by
    subst isAttempt
    exact after_getOrCreatePid careful exists_
  complete _ _ _ _ holds := .inl (holds_after careful holds)

theorem stays {steps : List (Step env)}
    (careful : Throughout Careful file steps)
    (holds : Holds env privHex file) : Stays privHex file steps := by
  induction steps generalizing file with
  | nil => exact .inl holds
  | cons step steps ih =>
      exact ⟨.inl holds, ih careful.2 (holds_after careful.1 holds)⟩

/-- Whatever happens, the key in the file stays there, if every step is
careful. -/
theorem identity_kept {steps : List (Step env)}
    (careful : Throughout Careful file steps) : IdentityKept file steps := by
  induction steps generalizing file with
  | nil => exact trivial
  | cons step steps ih =>
      exact ⟨fun privHex holds => stays careful holds, keepsFile careful.1,
        ih careful.2⟩

end Steps

section Examples

/-- An environment in which nothing is hidden. -/
def plainEnvironment : Environment where
  scheme := transparentScheme
  deriveKey _ _ := []
  aesgcmEncrypt _ _ plaintext := plaintext
  aesgcmDecrypt _ _ ciphertext := some ciphertext
  decrypts _ _ _ := rfl
  floatRepr := id

def seedOf (byte : UInt8) : Seed where
  privateKey := List.replicate 32 byte
  random := ⟨List.replicate 16 7, List.replicate 12 9⟩
  createdAt := 1700000000

theorem printable_generatePid (env : Environment) (password : Option Text)
    (seed : Seed) : Printable env.floatRepr (generatePid env password seed) := by
  have distinct : ["pid".toList, "public_key".toList, "private_key".toList,
      "created_at".toList, "protocol".toList, "key_store".toList].Nodup := by
    decide
  refine .obj distinct fun field member => ?_
  simp only [List.mem_cons, List.not_mem_nil, or_false] at member
  rcases member with rfl | rfl | rfl | rfl | rfl | rfl
  case inr.inr.inl =>
      dsimp only
      split
      · exact .str _
      · exact .str _
      · exact printable_encryptPrivateKey _ _ _
  case inr.inr.inr.inl => exact .int _
  all_goals exact .str _

def pidDataOf (byte : UInt8) : PidData plainEnvironment where
  value := generatePid plainEnvironment none (seedOf byte)
  printable := printable_generatePid _ _ _

def attempt (isReadable : Bool) : Attempt :=
  ⟨isReadable, none, seedOf 2, .none⟩

/-- An identity is saved, got, encrypted and almost saved once more. -/
theorem identity_kept_encrypted :
    IdentityKept none [.savePid (pidDataOf 1) .none,
      .getOrCreatePid (attempt true),
      .encryptExistingPid (pidDataOf 1) "secret".toList (seedOf 1).random .none,
      .savePid (pidDataOf 2) .beforeTruncation] := by
  have read := loadPid_contents (pidDataOf 1).printable
  refine identity_kept ⟨?_, ?_, ?_, ?_, trivial⟩
  · rintro privHex ⟨pidData, loaded, -, -⟩
    cases loaded
  · intro _ loaded reads
    obtain rfl := Except.ok.inj (read.symm.trans reads)
    rfl
  · have unchanged :
        (.getOrCreatePid (attempt true) : Step plainEnvironment).after
          (some (contents (pidDataOf 1).value)) =
            some (contents (pidDataOf 1).value) := by
      refine after_getOrCreatePid ?_ rfl
      intro _ loaded reads
      obtain rfl := Except.ok.inj (read.symm.trans reads)
      rfl
    rintro encrypted done privHex ⟨pidData, loaded, -, has⟩
    have loaded := (congrArg _ unchanged).symm.trans loaded
    rw [read] at loaded
    obtain rfl := Option.some.inj (Except.ok.inj loaded)
    exact .inr ⟨has, not_false⟩
  · exact fun privHex _ => .inl rfl

/-- A key in the file of the identity stays there, whatever happens. -/
def IdentityNeverLost : Prop :=
  ∀ (env : Environment) (file : File) (steps : List (Step env)),
    IdentityKept file steps

/-- The file cannot be read for a moment after an identity has been saved. -/
theorem not_identityNeverLost : ¬ IdentityNeverLost := by
  intro claimed
  have kept := (claimed plainEnvironment none
    [.savePid (pidDataOf 1) .none, .getOrCreatePid (attempt false)]).2.2.2.1
  have same : some (contents (pidDataOf 2).value) =
      some (contents (pidDataOf 1).value) :=
    kept.existing (attempt false) rfl rfl
  have first := loadPid_contents (pidDataOf 1).printable
  have second := loadPid_contents (pidDataOf 2).printable
  rw [same, first] at second
  have keys := congrArg (fun pidData => pidData.get "private_key".toList)
    (Option.some.inj (Except.ok.inj second))
  have differ : toHex (List.replicate 32 1) ≠ toHex (List.replicate 32 2) := by
    decide +kernel
  exact differ (Json.str.inj (Option.some.inj keys))

end Examples

end PidFile

end RefinetPillars
