import RefinetPillars.PidFileCrashes

/-!
# The personal vault

Encrypted items are files named after the hash of their names.  A table has
their owners, under identifiers that are chosen at random.
-/

namespace RefinetPillars

namespace VaultStorage

open HexText KeyRecovery ContentSigning JsonText
open PeerListener (decode decode_encodeUtf8)
open PidFile (Environment Salt encryptPrivateKey decryptPrivateKey
  decryptPrivateKey_encryptPrivateKey printable_encryptPrivateKey)

section Encryption

variable (env : Environment)

def encryptData (data : List UInt8) (password : Text) (random : Salt) :
    List UInt8 :=
  encodeUtf8 (dumps {} 0 (encryptPrivateKey env (toHex data) password random))

/-- Nothing where an exception is raised. -/
def decryptData (encrypted : List UInt8) (password : Text) :
    Option (List UInt8) := do
  let text ← decode encrypted
  let envelope ← loads env.floatRepr text
  let hexData ← decryptPrivateKey env envelope password
  fromHex hexData

variable {env}

/-- What has been encrypted is decrypted with its password. -/
theorem decryptData_encryptData (data : List UInt8) (password : Text)
    (random : Salt) :
    decryptData env (encryptData env data password random) password =
      some data := by
  have plain : Layout.Plain {} :=
    ⟨⟨[' '], rfl, by simp [isJsonSpace]⟩, ⟨[' '], rfl, by simp [isJsonSpace]⟩⟩
  have read := loads_dumps plain rfl
    (@printable_encryptPrivateKey env (toHex data) password random)
  rw [decryptData, encryptData, decode_encodeUtf8]
  dsimp only [Option.bind_eq_bind, Option.bind_some]
  rw [read, Option.bind_some, decryptPrivateKey_encryptPrivateKey,
    Option.bind_some, fromHex_toHex]

end Encryption

section Storage

variable (env : Environment)

/-- A row of the table `vault_items`; when it was created is counted in
seconds. -/
structure Row where
  itemId : Text
  name : Text
  fileHash : Text
  sizeBytes : Nat
  mimeType : Text
  pid : Text
  createdAt : Nat

/-- The rows in the order of their insertion, and the files. -/
structure Vault where
  rows : List Row
  unique : (rows.map Row.itemId).Nodup
  files : Text → Option (List UInt8)

def Vault.empty : Vault := ⟨[], List.nodup_nil, fun _ => none⟩

/-- The name of the file of an item. -/
def itemPath (name : Text) : Text :=
  hashContent env.scheme (encodeUtf8 name) ++ ".vault".toList

def Vault.write (vault : Vault) (path : Text) (bytes : List UInt8) : Vault :=
  { vault with files := Function.update vault.files path (some bytes) }

def Vault.unlink (vault : Vault) (path : Text) : Vault :=
  { vault with files := Function.update vault.files path none }

/-- What an operation answers. -/
inductive Answer where
  | stored (row : Row)
  | alreadyExists
  | retrieved (data : List UInt8)
  | notFound
  | decryptionFailed
  | listed (rows : List Row)
  | deleted

/-- The arguments of `store_item`, and what is random or read from the clock. -/
structure Storing where
  name : Text
  data : List UInt8
  password : Text
  pid : Text
  mimeType : Text
  itemId : Text
  random : Salt
  createdAt : Nat

def Storing.encrypted (item : Storing) : List UInt8 :=
  encryptData env item.data item.password item.random

def Storing.row (item : Storing) : Row where
  itemId := item.itemId
  name := item.name
  fileHash := hashContent env.scheme (item.encrypted env)
  sizeBytes := item.data.length
  mimeType := item.mimeType
  pid := item.pid
  createdAt := item.createdAt

/-- `INSERT`, which fails if the identifier is taken. -/
def insertRow (row : Row) (vault : Vault) : Option Vault :=
  if taken : row.itemId ∈ vault.rows.map Row.itemId then none
  else
    some { vault with
      rows := vault.rows ++ [row]
      unique := by
        rw [List.map_append, List.nodup_append]
        refine ⟨vault.unique, List.nodup_singleton _, ?_⟩
        rintro itemId member other otherMem rfl
        obtain rfl := List.mem_singleton.mp otherMem
        exact taken member }

/-- The file is written before the row, and removed if there is no row. -/
def storeItem (item : Storing) (vault : Vault) : Vault × Answer :=
  let path := itemPath env item.name
  let written := vault.write path (item.encrypted env)
  match insertRow (item.row env) written with
  | some next => (next, .stored (item.row env))
  | none => (written.unlink path, .alreadyExists)

def retrieveItem (name password : Text) (vault : Vault) : Answer :=
  match vault.files (itemPath env name) with
  | none => .notFound
  | some encrypted =>
      match decryptData env encrypted password with
      | some data => .retrieved data
      | none => .decryptionFailed

/-- Newest first; all rows if there is no PID. -/
def listItems (pid : Text) (vault : Vault) : List Row :=
  (vault.rows.filter fun row => pid = [] || row.pid = pid).mergeSort
    fun first second => second.createdAt ≤ first.createdAt

def deleteRow (itemId : Text) (vault : Vault) : Vault :=
  { vault with
    rows := vault.rows.filter fun row => row.itemId ≠ itemId
    unique := (List.filter_sublist.map Row.itemId).nodup vault.unique }

def deleteItem (name pid : Text) (vault : Vault) : Vault × Answer :=
  match vault.rows.find? fun row => row.name = name ∧ row.pid = pid with
  | none => (vault, .notFound)
  | some row => ((deleteRow row.itemId vault).unlink (itemPath env name),
      .deleted)

/-- An operation, and whose it is. -/
inductive Operation where
  | store (item : Storing)
  | retrieve (pid name password : Text)
  | list (pid : Text)
  | delete (pid name : Text)

/-- An item is retrieved by its name only. -/
def step (operation : Operation) (vault : Vault) : Vault × Answer :=
  match operation with
  | .store item => storeItem env item vault
  | .retrieve _ name password => (vault, retrieveItem env name password vault)
  | .list pid => (vault, .listed (listItems pid vault))
  | .delete pid name => deleteItem env name pid vault

end Storage

end VaultStorage

end RefinetPillars
