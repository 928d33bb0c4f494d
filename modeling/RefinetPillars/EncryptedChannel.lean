import RefinetPillars.HexText

/-!
# The encrypted channel between two Pillars

The key that an endpoint derives, and how it encrypts and decrypts framed
messages.  The cryptographic functions are parameters.
-/

namespace RefinetPillars

namespace EncryptedChannel

open HexText

/-- X25519, HKDF and AES-GCM.  Both sides of an exchange get the same secret;
AES-GCM encrypts all data below two gigabytes, and what decrypts to a plaintext
is what that plaintext encrypts to. -/
structure Cryptography where
  x25519Public : List UInt8 → List UInt8
  exchange : List UInt8 → List UInt8 → List UInt8
  hkdf : List UInt8 → List UInt8 → List UInt8
  aesgcmEncrypt : List UInt8 → List UInt8 → List UInt8 → Option (List UInt8)
  aesgcmDecrypt : List UInt8 → List UInt8 → List UInt8 → Option (List UInt8)
  exchange_comm : ∀ ours theirs,
    exchange ours (x25519Public theirs) = exchange theirs (x25519Public ours)
  encrypts : ∀ key nonce plaintext, plaintext.length < 2 ^ 31 →
    (aesgcmEncrypt key nonce plaintext).isSome = true
  decrypts_iff : ∀ {key nonce ciphertext plaintext},
    aesgcmDecrypt key nonce ciphertext = some plaintext ↔
      aesgcmEncrypt key nonce plaintext = some ciphertext

/-- An exception with its message. -/
inductive Raised where
  | valueError (message : String)
  | overflowError (message : String)
  | structError (message : String)
deriving DecidableEq

def keyInfo : List UInt8 :=
  "REFInet-encrypted-channel-v1".toList.map fun character =>
    UInt8.ofNat character.toNat

structure Channel where
  aesKey : List UInt8
  sendCounter : Nat
  recvCounter : Nat

/-- The outcome of an encryption: the channel afterwards, the nonce that was
used, if any, and the framed message. -/
structure Encryption where
  channel : Channel
  nonce : Option (List UInt8)
  framed : Except Raised (List UInt8)

/-- The nonce of a counter. -/
def nonceOf (counter : Nat) : List UInt8 := bigEndian 12 counter

def frame (payload : List UInt8) : List UInt8 :=
  bigEndian 4 payload.length ++ payload

/-- The payload of a framed message. -/
def payloadOf (framedData : List UInt8) : Except Raised (List UInt8) :=
  if framedData.length < 4 then .error (.valueError "Framed data too short")
  else
    let length := fromBigEndian (framedData.take 4)
    let payload := (framedData.drop 4).take length
    if payload.length < 12 then
      .error (.valueError "Payload too short for nonce")
    else .ok payload

section Operations

variable (crypto : Cryptography)

def deriveSharedSecret (ourPrivate theirPublic : List UInt8) : List UInt8 :=
  crypto.hkdf (crypto.exchange ourPrivate theirPublic) keyInfo

def Channel.create (ourPrivate theirPublic : List UInt8) : Channel :=
  ⟨deriveSharedSecret crypto ourPrivate theirPublic, 0, 0⟩

def Channel.encrypt (channel : Channel) (plaintext : List UInt8) :
    Encryption :=
  if channel.sendCounter < 256 ^ 12 then
    let nonce := nonceOf channel.sendCounter
    let advanced := { channel with sendCounter := channel.sendCounter + 1 }
    match crypto.aesgcmEncrypt channel.aesKey nonce plaintext with
    | none =>
        ⟨advanced, none, .error (.overflowError
          "Data or associated data too long. Max 2**31 - 1 bytes")⟩
    | some ciphertext =>
        if (nonce ++ ciphertext).length < 2 ^ 32 then
          ⟨advanced, some nonce, .ok (frame (nonce ++ ciphertext))⟩
        else
          ⟨advanced, some nonce, .error (.structError "argument out of range")⟩
  else ⟨channel, none, .error (.overflowError "int too big to convert")⟩

/-- Decrypt the payload of a message. -/
def openPayload (key payload : List UInt8) : Option (List UInt8) :=
  crypto.aesgcmDecrypt key (payload.take 12) (payload.drop 12)

def Channel.decrypt (channel : Channel) (framedData : List UInt8) :
    Channel × Except Raised (List UInt8) :=
  match payloadOf framedData with
  | .error raised => (channel, .error raised)
  | .ok payload =>
      match openPayload crypto channel.aesKey payload with
      | some plaintext =>
          ({ channel with recvCounter := channel.recvCounter + 1 },
            .ok plaintext)
      | none =>
          (channel, .error (.valueError
            "Decryption failed — corrupted data or wrong key"))

end Operations

section Facts

variable {crypto : Cryptography} {channel : Channel}
  {plaintext payload : List UInt8}

/-- Both endpoints derive the same key. -/
theorem create_aesKey (ours theirs : List UInt8) :
    (Channel.create crypto ours (crypto.x25519Public theirs)).aesKey =
      (Channel.create crypto theirs (crypto.x25519Public ours)).aesKey := by
  unfold Channel.create deriveSharedSecret
  rw [crypto.exchange_comm]

theorem nonceOf_injective {first second : Nat} (firstFits : first < 256 ^ 12)
    (secondFits : second < 256 ^ 12) (same : nonceOf first = nonceOf second) :
    first = second := by
  rw [← fromBigEndian_bigEndian firstFits, ← fromBigEndian_bigEndian secondFits]
  exact congrArg fromBigEndian same

@[simp]
theorem length_nonceOf (counter : Nat) : (nonceOf counter).length = 12 :=
  length_bigEndian 12 counter

/-- Reading a frame back. -/
theorem payloadOf_frame (long : 12 ≤ payload.length)
    (fits : payload.length < 2 ^ 32) : payloadOf (frame payload) = .ok payload := by
  have header : (bigEndian 4 payload.length).length = 4 := length_bigEndian _ _
  have length : fromBigEndian ((frame payload).take 4) = payload.length := by
    rw [frame, List.take_left' header, fromBigEndian_bigEndian (by omega)]
  have rest : (frame payload).drop 4 = payload := List.drop_left' header
  have notShort : ¬ (frame payload).length < 4 := by
    rw [frame, List.length_append, header]
    omega
  rw [payloadOf, if_neg notShort]
  dsimp only
  rw [length, rest, List.take_length, if_neg (by omega)]

/-- The key of a channel never changes and its counter does not go back. -/
theorem encrypt_channel (crypto : Cryptography) (channel : Channel)
    (plaintext : List UInt8) :
    (channel.encrypt crypto plaintext).channel.aesKey = channel.aesKey ∧
      channel.sendCounter ≤
        (channel.encrypt crypto plaintext).channel.sendCounter := by
  unfold Channel.encrypt
  split_ifs
  · dsimp only
    split
    · exact ⟨rfl, Nat.le_succ _⟩
    · split_ifs <;> exact ⟨rfl, Nat.le_succ _⟩
  · exact ⟨rfl, le_rfl⟩

/-- A nonce that is used is that of the counter, which advances. -/
theorem encrypt_nonce {nonce : List UInt8}
    (used : (channel.encrypt crypto plaintext).nonce = some nonce) :
    channel.sendCounter < 256 ^ 12 ∧ nonce = nonceOf channel.sendCounter ∧
      (channel.encrypt crypto plaintext).channel.sendCounter =
        channel.sendCounter + 1 := by
  unfold Channel.encrypt at used ⊢
  split_ifs at used ⊢ with inRange
  dsimp only at used ⊢
  split at used
  · cases used
  · split_ifs at used ⊢ <;>
      exact ⟨inRange, (Option.some.inj used).symm, rfl⟩

/-- What is known of a message that was framed. -/
structure Framed (crypto : Cryptography) (channel : Channel)
    (plaintext framed payload : List UInt8) : Prop where
  framed_eq : framed = frame payload
  counter_fits : channel.sendCounter < 256 ^ 12
  advances : (channel.encrypt crypto plaintext).channel.sendCounter =
    channel.sendCounter + 1
  nonce : payload.take 12 = nonceOf channel.sendCounter
  readable : payloadOf framed = .ok payload
  opens : openPayload crypto channel.aesKey payload = some plaintext

theorem encrypt_framed {framed : List UInt8}
    (sent : (channel.encrypt crypto plaintext).framed = .ok framed) :
    ∃ payload, Framed crypto channel plaintext framed payload := by
  have advances : channel.sendCounter < 256 ^ 12 →
      (channel.encrypt crypto plaintext).channel.sendCounter =
        channel.sendCounter + 1 := by
    intro inRange
    rw [Channel.encrypt, if_pos inRange]
    dsimp only
    split
    · rfl
    · split_ifs <;> rfl
  rw [Channel.encrypt] at sent
  split_ifs at sent with inRange
  dsimp only at sent
  split at sent
  · cases sent
  · rename_i ciphertext encrypted
    split_ifs at sent with fits
    have header := length_nonceOf channel.sendCounter
    refine ⟨nonceOf channel.sendCounter ++ ciphertext,
      (Except.ok.inj sent).symm, inRange, advances inRange,
      List.take_left' header, ?_, ?_⟩
    · rw [← Except.ok.inj sent]
      exact payloadOf_frame (by rw [List.length_append]; omega) fits
    · rw [openPayload, List.take_left' header, List.drop_left' header,
        crypto.decrypts_iff, encrypted]

theorem decrypt_channel (crypto : Cryptography) (channel : Channel)
    (framedData : List UInt8) :
    (channel.decrypt crypto framedData).1.aesKey = channel.aesKey ∧
      (channel.decrypt crypto framedData).1.sendCounter =
        channel.sendCounter := by
  unfold Channel.decrypt
  cases payloadOf framedData with
  | error raised => exact ⟨rfl, rfl⟩
  | ok payload =>
      dsimp only
      split <;> exact ⟨rfl, rfl⟩

end Facts

/-- Functions that hide nothing, for runs on given inputs. -/
def plainCryptography : Cryptography where
  x25519Public := id
  exchange ours theirs := [ours.sum + theirs.sum]
  hkdf secret _ := secret
  aesgcmEncrypt _ _ plaintext :=
    if plaintext.length < 2 ^ 31 then some plaintext else none
  aesgcmDecrypt _ _ ciphertext :=
    if ciphertext.length < 2 ^ 31 then some ciphertext else none
  exchange_comm ours theirs := by rw [id_eq, id_eq, UInt8.add_comm]
  encrypts _ _ _ short := by rw [if_pos short]; rfl
  decrypts_iff := by
    intro _ _ ciphertext plaintext
    constructor
    · intro decrypted
      split_ifs at decrypted with short
      rw [← Option.some.inj decrypted, if_pos short]
    · intro encrypted
      split_ifs at encrypted with short
      rw [← Option.some.inj encrypted, if_pos short]

end EncryptedChannel

end RefinetPillars
