import RefinetPillars.JsonRoundTrip
import RefinetPillars.PeerListener

/-!
# The file of the identity key

A Pillar keeps its identity, and the private key in it, in one file.  Saving
truncates the file and writes the identity; a crash may leave any part of it.
-/

namespace RefinetPillars

namespace PidFile

open HexText LineText DecimalText KeyRecovery ContentSigning JsonText
open PeerListener (decode)

/-- What the program takes from elsewhere: SHA-256 and the keys of Ed25519,
Argon2id, AES-GCM, and how floats are printed.  What has been encrypted is
decrypted with the same key and nonce. -/
structure Environment where
  scheme : Scheme
  deriveKey : List UInt8 → List UInt8 → List UInt8
  aesgcmEncrypt : List UInt8 → List UInt8 → List UInt8 → List UInt8
  aesgcmDecrypt : List UInt8 → List UInt8 → List UInt8 → Option (List UInt8)
  decrypts : ∀ key nonce plaintext,
    aesgcmDecrypt key nonce (aesgcmEncrypt key nonce plaintext) = some plaintext
  floatRepr : Text → Text

section Encryption

variable (env : Environment)

/-- The random bytes of an envelope. -/
structure Salt where
  salt : List UInt8
  nonce : List UInt8

def encryptPrivateKey (privHex password : Text) (random : Salt) : Json :=
  let key := env.deriveKey (encodeUtf8 password) random.salt
  .obj [("algorithm".toList, .str "AES-256-GCM".toList),
    ("kdf".toList, .str "argon2id".toList),
    ("salt".toList, .str (toHex random.salt)),
    ("nonce".toList, .str (toHex random.nonce)),
    ("ciphertext".toList, .str (toHex
      (env.aesgcmEncrypt key random.nonce (encodeUtf8 privHex))))]

/-- The bytes of a field of an envelope. -/
def envelopeBytes (key : String) (envelope : Json) : Option (List UInt8) :=
  match envelope.get key.toList with
  | some (.str text) => fromHex text
  | _ => none

/-- Nothing where an exception is raised. -/
def decryptPrivateKey (envelope : Json) (password : Text) : Option Text := do
  let salt ← envelopeBytes "salt" envelope
  let nonce ← envelopeBytes "nonce" envelope
  let ciphertext ← envelopeBytes "ciphertext" envelope
  let plaintext ← env.aesgcmDecrypt
    (env.deriveKey (encodeUtf8 password) salt) nonce ciphertext
  decode plaintext

/-- What is random in a new identity, and when it is made. -/
structure Seed where
  privateKey : List UInt8
  random : Salt
  createdAt : Int

def protocolVersion : Text := "0.6.0".toList

/-- The private key is encrypted if there is a password. -/
def generatePid (password : Option Text) (seed : Seed) : Json :=
  let publicKey := env.scheme.publicKey seed.privateKey
  let privHex := toHex seed.privateKey
  .obj [("pid".toList, .str (pidOf env.scheme publicKey)),
    ("public_key".toList, .str (toHex publicKey)),
    ("private_key".toList,
      match password with
      | none | some [] => .str privHex
      | some (first :: rest) =>
          encryptPrivateKey env privHex (first :: rest) seed.random),
    ("created_at".toList, .int seed.createdAt),
    ("protocol".toList, .str protocolVersion),
    ("key_store".toList, .str "software".toList)]

inductive Raised where
  | alreadyEncrypted
  | keyError (key : Text)
  | attributeError
  | unicodeDecodeError

def encryptExistingPid (pidData : Json) (password : Text) (random : Salt) :
    Except Raised Json :=
  match pidData with
  | .obj fields =>
      match pidData.get "private_key".toList with
      | some (.obj _) => .error .alreadyEncrypted
      | some (.str privHex) =>
          .ok (.obj (setField "private_key".toList
            (encryptPrivateKey env privHex password random) fields))
      | some _ => .error .attributeError
      | none => .error (.keyError "private_key".toList)
  | _ => .error .attributeError

end Encryption

section Files

variable (env : Environment)

/-- The contents of the file, if it exists. -/
abbrev File := Option (List UInt8)

/-- Where a process crashes while it saves. -/
inductive Crash where
  | none
  | beforeTruncation
  | after (written : Nat)

/-- `json.dump(pid_data, f, indent=2)`. -/
def contents (pidData : Json) : List UInt8 :=
  encodeUtf8 (dumps { indent := some 2, itemSeparator := [','] } 0 pidData)

def savePid (pidData : Json) (crash : Crash) (file : File) : File :=
  match crash with
  | .none => some (contents pidData)
  | .beforeTruncation => file
  | .after written => some ((contents pidData).take written)

/-- A file that cannot be read, or that is no document, counts as absent. -/
def loadPid (isReadable : Bool) (file : File) :
    Except Raised (Option Json) :=
  match file with
  | none => .ok none
  | some bytes =>
      if isReadable then
        match decode bytes with
        | none => .error .unicodeDecodeError
        | some text => .ok (loads env.floatRepr text)
      else .ok none

/-- A call of `get_or_create_pid`: whether the file can be read, and what
happens if an identity is generated. -/
structure Attempt where
  isReadable : Bool
  password : Option Text
  seed : Seed
  crash : Crash

inductive Outcome where
  | returned (pidData : Json)
  | raised (exception : Raised)
  | crashed

def outcomeOf (pidData : Json) : Crash → Outcome
  | .none => .returned pidData
  | .beforeTruncation | .after _ => .crashed

/-- Whether an identity counts as existing. -/
def existing (loaded : Option Json) : Option Json :=
  loaded.filter fun pidData => !pidData.isFalsy

def getOrCreatePid (attempt : Attempt) (file : File) : File × Outcome :=
  match loadPid env attempt.isReadable file with
  | .error raised => (file, .raised raised)
  | .ok loaded =>
      match existing loaded with
      | some pidData => (file, .returned pidData)
      | none =>
          let pidData := generatePid env attempt.password attempt.seed
          (savePid pidData attempt.crash file, outcomeOf pidData attempt.crash)

/-- An identity that `json.dump` prints and `json.load` reads. -/
structure PidData where
  value : Json
  printable : Printable env.floatRepr value

/-- What the file goes through. -/
inductive Step where
  | getOrCreatePid (attempt : Attempt)
  | savePid (pidData : PidData env) (crash : Crash)
  | encryptExistingPid (pidData : PidData env) (password : Text)
      (random : Salt) (crash : Crash)

variable {env}

/-- The file after a step. -/
def Step.after (step : Step env) (file : File) : File :=
  match step with
  | .getOrCreatePid attempt => (PidFile.getOrCreatePid env attempt file).1
  | .savePid pidData crash => PidFile.savePid pidData.value crash file
  | .encryptExistingPid pidData password random crash =>
      match PidFile.encryptExistingPid env pidData.value password random with
      | .error _ => file
      | .ok encrypted => PidFile.savePid encrypted crash file

/-- What a step writes into the file, if it writes. -/
def Step.written (step : Step env) (file : File) : Option (Json × Crash) :=
  match step with
  | .getOrCreatePid attempt =>
      match loadPid env attempt.isReadable file with
      | .error _ => none
      | .ok loaded =>
          if (existing loaded).isSome then none
          else some (generatePid env attempt.password attempt.seed,
            attempt.crash)
  | .savePid pidData crash => some (pidData.value, crash)
  | .encryptExistingPid pidData password random crash =>
      (PidFile.encryptExistingPid env pidData.value password
        random).toOption.map fun encrypted => (encrypted, crash)

end Files

end PidFile

end RefinetPillars
