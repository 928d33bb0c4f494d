import RefinetPillars.EncryptedChannel
import RefinetPillars.RunHistory

/-!
# Nonces of the encrypted channels

All channels between two Pillars, in both directions and after every reconnect,
share one key, and each counts its messages from zero.  No nonce is used twice
with a key as long as a channel only encrypts while no other channel with its
key is ahead of it.
-/

namespace RefinetPillars

namespace EncryptedChannel

open RunHistory

/-- All channels opened so far, and the keys and nonces used to encrypt. -/
structure Network where
  channels : List Channel := []
  used : List (List UInt8 × List UInt8) := []

inductive Call where
  | create (ourPrivate theirPublic : List UInt8)
  | encrypt (index : Nat) (plaintext : List UInt8)
  | decrypt (index : Nat) (framedData : List UInt8)

section Network

variable (crypto : Cryptography)

/-- A call on one of the channels. -/
def Call.apply : Call → Network → Network
  | .create ourPrivate theirPublic, network =>
      { network with
        channels := network.channels ++
          [Channel.create crypto ourPrivate theirPublic] }
  | .encrypt index plaintext, network =>
      match network.channels[index]? with
      | none => network
      | some channel =>
          let done := channel.encrypt crypto plaintext
          { channels := network.channels.set index done.channel
            used := (done.nonce.toList.map fun nonce =>
              (channel.aesKey, nonce)) ++ network.used }
  | .decrypt index framedData, network =>
      match network.channels[index]? with
      | none => network
      | some channel =>
          { network with
            channels := network.channels.set index
              (channel.decrypt crypto framedData).1 }

abbrev runNetwork (calls : List Call) : Network :=
  run (Call.apply crypto) {} calls

end Network

/-- A channel that encrypts is not behind another channel with its key. -/
def NotBehind : Call → Network → Prop
  | .encrypt index _, network =>
      ∀ channel ∈ network.channels[index]?, ∀ other ∈ network.channels,
        other.aesKey = channel.aesKey → other.sendCounter ≤ channel.sendCounter
  | _, _ => True

/-- Every nonce used with a key has been counted by a channel with the key. -/
structure Network.Counted (network : Network) : Prop where
  nodup : network.used.Nodup
  counted : ∀ pair ∈ network.used, ∃ channel ∈ network.channels,
    channel.aesKey = pair.1 ∧ ∃ counter < channel.sendCounter,
      counter < 256 ^ 12 ∧ pair.2 = nonceOf counter

section Steps

variable {crypto : Cryptography} {network : Network}

/-- What is counted stays counted when channels advance. -/
theorem Network.Counted.of_set (counted : network.Counted) {index : Nat}
    {channel advanced : Channel}
    (isChannel : network.channels[index]? = some channel)
    (sameKey : advanced.aesKey = channel.aesKey)
    (forward : channel.sendCounter ≤ advanced.sendCounter) :
    ({ network with channels := network.channels.set index advanced } :
      Network).Counted where
  nodup := counted.nodup
  counted pair member := by
    obtain ⟨inside, rfl⟩ := List.getElem?_eq_some_iff.mp isChannel
    obtain ⟨holder, holderMem, key, counter, before, fits, nonce⟩ :=
      counted.counted pair member
    obtain ⟨position, positionInside, rfl⟩ := List.mem_iff_getElem.mp holderMem
    by_cases same : index = position
    · subst same
      exact ⟨advanced, List.mem_set inside advanced, sameKey.trans key,
        counter, before.trans_le forward, fits, nonce⟩
    · refine ⟨_, ?_, key, counter, before, fits, nonce⟩
      rw [List.mem_iff_getElem]
      exact ⟨position, by simpa using positionInside,
        List.getElem_set_ne same _⟩

/-- The nonce of a channel that is not behind has not been used. -/
theorem Network.Counted.fresh (counted : network.Counted) {channel : Channel}
    (fits : channel.sendCounter < 256 ^ 12)
    (notBehind : ∀ other ∈ network.channels,
      other.aesKey = channel.aesKey →
        other.sendCounter ≤ channel.sendCounter) :
    (channel.aesKey, nonceOf channel.sendCounter) ∉ network.used := by
  intro member
  obtain ⟨holder, holderMem, key, counter, before, counterFits, nonce⟩ :=
    counted.counted _ member
  have same : channel.sendCounter = counter :=
    nonceOf_injective fits counterFits nonce
  have limit := notBehind holder holderMem key
  omega

theorem Network.Counted.encrypt (counted : network.Counted) {index : Nat}
    {plaintext : List UInt8}
    (notBehind : NotBehind (.encrypt index plaintext) network) :
    (Call.apply crypto (.encrypt index plaintext) network).Counted := by
  rw [Call.apply]
  cases isChannel : network.channels[index]? with
  | none => exact counted
  | some channel =>
      obtain ⟨sameKey, forward⟩ :=
        encrypt_channel crypto channel plaintext
      have advanced := counted.of_set isChannel sameKey forward
      dsimp only
      cases used : (channel.encrypt crypto plaintext).nonce with
      | none => exact advanced
      | some nonce =>
          obtain ⟨fits, rfl, next⟩ := encrypt_nonce used
          have fresh := counted.fresh fits (notBehind channel isChannel)
          obtain ⟨inside, _⟩ := List.getElem?_eq_some_iff.mp isChannel
          refine ⟨List.nodup_cons.mpr ⟨fresh, counted.nodup⟩, ?_⟩
          refine List.forall_mem_cons.mpr ⟨?_, advanced.counted⟩
          exact ⟨_, List.mem_set inside _, sameKey, channel.sendCounter,
            by omega, fits, rfl⟩

theorem Network.Counted.apply {call : Call} (counted : network.Counted)
    (notBehind : NotBehind call network) :
    (call.apply crypto network).Counted := by
  cases call with
  | create ourPrivate theirPublic =>
      refine ⟨counted.nodup, fun pair member => ?_⟩
      obtain ⟨holder, holderMem, rest⟩ := counted.counted pair member
      exact ⟨holder, List.mem_append_left _ holderMem, rest⟩
  | encrypt index plaintext => exact counted.encrypt notBehind
  | decrypt index framedData =>
      rw [Call.apply]
      cases isChannel : network.channels[index]? with
      | none => exact counted
      | some channel =>
          obtain ⟨sameKey, sameCounter⟩ :=
            decrypt_channel crypto channel framedData
          exact counted.of_set isChannel sameKey sameCounter.ge

end Steps

/-- No nonce is used twice with a key while no channel encrypts behind another
one with its key. -/
theorem used_nodup {crypto : Cryptography} {calls : List Call}
    (notBehind : Admitted (Call.apply crypto) {} NotBehind calls) :
    ∀ moment, moment <:+ calls → (runNetwork crypto moment).used.Nodup := by
  intro moment suffix
  have counted : (runNetwork crypto moment).Counted :=
    (notBehind.of_suffix suffix).invariant ⟨List.nodup_nil, by simp⟩
      fun _ _ allowed counted => counted.apply allowed
  exact counted.nodup

section Reuse

/-- Both endpoints open a channel and encrypt an empty message. -/
def bothGreet (crypto : Cryptography) (ours theirs : List UInt8) : List Call :=
  [.encrypt 1 [], .encrypt 0 [],
    .create theirs (crypto.x25519Public ours),
    .create ours (crypto.x25519Public theirs)]

theorem create_encrypt_nonce (crypto : Cryptography)
    (ourPrivate theirPublic : List UInt8) :
    ((Channel.create crypto ourPrivate theirPublic).encrypt crypto []).nonce =
      some (nonceOf 0) := by
  have succeeds := crypto.encrypts
    (Channel.create crypto ourPrivate theirPublic).aesKey (nonceOf 0) []
    (by decide)
  obtain ⟨ciphertext, encrypted⟩ := Option.isSome_iff_exists.mp succeeds
  have inRange : (Channel.create crypto ourPrivate theirPublic).sendCounter <
      256 ^ 12 := Nat.pow_pos (by decide)
  have atZero : nonceOf
      (Channel.create crypto ourPrivate theirPublic).sendCounter = nonceOf 0 :=
    rfl
  rw [Channel.encrypt, if_pos inRange]
  dsimp only
  rw [atZero, encrypted]
  dsimp only
  split_ifs <;> rfl

/-- Whatever the functions are, both messages use one key and one nonce. -/
theorem bothGreet_reuses (crypto : Cryptography) (ours theirs : List UInt8) :
    ¬ (runNetwork crypto (bothGreet crypto ours theirs)).used.Nodup := by
  have used : (runNetwork crypto (bothGreet crypto ours theirs)).used =
      [((Channel.create crypto theirs (crypto.x25519Public ours)).aesKey,
          nonceOf 0),
        ((Channel.create crypto ours (crypto.x25519Public theirs)).aesKey,
          nonceOf 0)] := by
    change (((Channel.create crypto theirs (crypto.x25519Public ours)).encrypt
        crypto []).nonce.toList.map _) ++
      ((((Channel.create crypto ours (crypto.x25519Public theirs)).encrypt
        crypto []).nonce.toList.map _) ++ []) = _
    rw [create_encrypt_nonce, create_encrypt_nonce]
    rfl
  rw [used, create_aesKey]
  simp

theorem used_nodup_bothGreet :
    ¬ ∀ crypto calls, (runNetwork crypto calls).used.Nodup := by
  intro unique
  exact bothGreet_reuses plainCryptography [1] [2] (unique _ _)

/-- One endpoint opens channels to two others and encrypts three messages. -/
def twoPeers : List Call :=
  [.encrypt 0 [7], .encrypt 1 [8], .encrypt 0 [],
    .create [1] [3], .create [1] [2]]

theorem twoPeers_admitted :
    Admitted (Call.apply plainCryptography) {} NotBehind twoPeers := by
  have created : Admitted (Call.apply plainCryptography) {} NotBehind
      [.create [1] [3], .create [1] [2]] :=
    (admitted_nil.cons trivial).cons trivial
  refine ((created.cons ?_).cons ?_).cons ?_
  · rintro channel ⟨⟩
    decide
  · rintro channel ⟨⟩
    decide
  · rintro channel ⟨⟩
    decide

theorem used_nodup_twoPeers :
    (runNetwork plainCryptography twoPeers).used.length = 3 ∧
      ∀ moment, moment <:+ twoPeers →
        (runNetwork plainCryptography moment).used.Nodup :=
  ⟨rfl, used_nodup twoPeers_admitted⟩

end Reuse

end EncryptedChannel

end RefinetPillars
