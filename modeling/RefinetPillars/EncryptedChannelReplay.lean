import RefinetPillars.EncryptedChannel
import RefinetPillars.RunHistory

/-!
# Replayed and reflected messages

Decryption looks at neither the counter nor the direction of a message.  So one
endpoint accepts the messages of the other at most once, and none of its own,
exactly when the network delivers no payload again that was accepted before and
none that only the endpoint itself has sent.
-/

namespace RefinetPillars

namespace EncryptedChannel

open RunHistory

/-- A payload and what it decrypts to. -/
structure Message where
  payload : List UInt8
  plaintext : List UInt8
deriving DecidableEq

/-- The two ends of a channel, what each has sent, and what the second has
accepted, newest first. -/
structure Conversation where
  a : Channel
  b : Channel
  sentA : List Message := []
  sentB : List Message := []
  acceptedB : List Message := []

/-- What the ends send and what the network delivers. -/
inductive Event where
  | sendA (plaintext : List UInt8)
  | sendB (plaintext : List UInt8)
  | deliverA (framedData : List UInt8)
  | deliverB (framedData : List UInt8)

/-- The message of a framed text, if it was framed. -/
def messageOf (framedData : Except Raised (List UInt8))
    (plaintext : Except Raised (List UInt8)) : List Message :=
  match framedData.bind payloadOf, plaintext with
  | .ok payload, .ok plaintext => [⟨payload, plaintext⟩]
  | _, _ => []

section Conversation

variable (crypto : Cryptography)

def Event.apply : Event → Conversation → Conversation
  | .sendA plaintext, talk =>
      let done := talk.a.encrypt crypto plaintext
      { talk with
        a := done.channel
        sentA := messageOf done.framed (.ok plaintext) ++ talk.sentA }
  | .sendB plaintext, talk =>
      let done := talk.b.encrypt crypto plaintext
      { talk with
        b := done.channel
        sentB := messageOf done.framed (.ok plaintext) ++ talk.sentB }
  | .deliverA framedData, talk =>
      { talk with a := (talk.a.decrypt crypto framedData).1 }
  | .deliverB framedData, talk =>
      let done := talk.b.decrypt crypto framedData
      { talk with
        b := done.1
        acceptedB := messageOf (.ok framedData) done.2 ++ talk.acceptedB }

/-- Both ends open the channel. -/
def Conversation.opened (ours theirs : List UInt8) : Conversation :=
  { a := Channel.create crypto ours (crypto.x25519Public theirs)
    b := Channel.create crypto theirs (crypto.x25519Public ours) }

abbrev converse (ours theirs : List UInt8) (events : List Event) :
    Conversation :=
  run (Event.apply crypto) (.opened crypto ours theirs) events

/-- What decrypts was sent by one of the ends. -/
def Ideal : Event → Conversation → Prop
  | .deliverB framedData, talk =>
      ∀ payload, payloadOf framedData = .ok payload →
        (openPayload crypto talk.b.aesKey payload).isSome = true →
        payload ∈ talk.sentA.map Message.payload ∨
          payload ∈ talk.sentB.map Message.payload
  | _, _ => True

end Conversation

/-- The accepted messages are among those sent by the other end, each at most
as often as it was sent. -/
def Conversation.AcceptsOnce (talk : Conversation) : Prop :=
  talk.acceptedB.Subperm talk.sentA

/-- The payload delivered to the second end has not been accepted before, and
it is not reflected. -/
def Fresh : Event → Conversation → Prop
  | .deliverB framedData, talk =>
      ∀ payload, payloadOf framedData = .ok payload →
        payload ∉ talk.acceptedB.map Message.payload ∧
          (payload ∈ talk.sentB.map Message.payload →
            payload ∈ talk.sentA.map Message.payload)
  | _, _ => True

/-- The messages are what their payloads decrypt to with the key of both ends,
and the first end has used each nonce once. -/
structure Conversation.Sound (crypto : Cryptography) (talk : Conversation) :
    Prop where
  sameKey : talk.a.aesKey = talk.b.aesKey
  opensSentA : ∀ message ∈ talk.sentA,
    openPayload crypto talk.b.aesKey message.payload = some message.plaintext
  opensSentB : ∀ message ∈ talk.sentB,
    openPayload crypto talk.b.aesKey message.payload = some message.plaintext
  opensAccepted : ∀ message ∈ talk.acceptedB,
    openPayload crypto talk.b.aesKey message.payload = some message.plaintext
  counted : ∀ message ∈ talk.sentA, ∃ counter < talk.a.sendCounter,
    counter < 256 ^ 12 ∧ message.payload.take 12 = nonceOf counter
  nodup : (talk.sentA.map Message.payload).Nodup

section Messages

variable {crypto : Cryptography} {channel : Channel}
  {plaintext payload framedData : List UInt8}

theorem messageOf_encrypt (crypto : Cryptography) (channel : Channel)
    (plaintext : List UInt8) :
    messageOf (channel.encrypt crypto plaintext).framed (.ok plaintext) = [] ∨
      ∃ framed payload, Framed crypto channel plaintext framed payload ∧
        messageOf (channel.encrypt crypto plaintext).framed (.ok plaintext) =
          [⟨payload, plaintext⟩] := by
  cases sent : (channel.encrypt crypto plaintext).framed with
  | error raised => exact Or.inl rfl
  | ok framed =>
      obtain ⟨payload, facts⟩ := encrypt_framed sent
      refine Or.inr ⟨framed, payload, facts, ?_⟩
      simp only [messageOf, Except.bind, facts.readable]

/-- A payload that decrypts is accepted. -/
theorem messageOf_decrypt
    (readable : payloadOf framedData = .ok payload)
    (opens : openPayload crypto channel.aesKey payload = some plaintext) :
    messageOf (.ok framedData) (channel.decrypt crypto framedData).2 =
      [⟨payload, plaintext⟩] := by
  simp only [messageOf, Except.bind, Channel.decrypt, readable, opens]

/-- Nothing else is. -/
theorem messageOf_decrypt_cases (crypto : Cryptography) (channel : Channel)
    (framedData : List UInt8) :
    messageOf (.ok framedData) (channel.decrypt crypto framedData).2 = [] ∨
      ∃ payload plaintext, payloadOf framedData = .ok payload ∧
        openPayload crypto channel.aesKey payload = some plaintext ∧
        messageOf (.ok framedData) (channel.decrypt crypto framedData).2 =
          [⟨payload, plaintext⟩] := by
  cases readable : payloadOf framedData with
  | error raised =>
      left
      simp only [messageOf, Except.bind, readable]
  | ok payload =>
      cases opens : openPayload crypto channel.aesKey payload with
      | none =>
          left
          simp only [messageOf, Except.bind, Channel.decrypt, readable, opens]
      | some plaintext =>
          exact Or.inr ⟨payload, plaintext, rfl, opens,
            messageOf_decrypt readable opens⟩

end Messages

section Steps

variable {crypto : Cryptography} {talk : Conversation}

theorem Conversation.Sound.sendA (sound : talk.Sound crypto)
    (plaintext : List UInt8) :
    (Event.apply crypto (.sendA plaintext) talk).Sound crypto := by
  obtain ⟨sameKey, forward⟩ :=
    encrypt_channel crypto talk.a plaintext
  have counted : ∀ message ∈ talk.sentA,
      ∃ counter < (talk.a.encrypt crypto plaintext).channel.sendCounter,
        counter < 256 ^ 12 ∧ message.payload.take 12 = nonceOf counter := by
    intro message member
    obtain ⟨counter, before, rest⟩ := sound.counted message member
    exact ⟨counter, before.trans_le forward, rest⟩
  rcases messageOf_encrypt crypto talk.a plaintext with
    silent | ⟨framed, payload, facts, sent⟩
  · unfold Event.apply
    dsimp only
    rw [silent]
    exact ⟨sameKey.trans sound.sameKey, sound.opensSentA, sound.opensSentB,
      sound.opensAccepted, counted, sound.nodup⟩
  · unfold Event.apply
    dsimp only
    rw [sent]
    refine ⟨sameKey.trans sound.sameKey, ?_, sound.opensSentB,
      sound.opensAccepted, ?_, ?_⟩
    · refine List.forall_mem_cons.mpr ⟨?_, sound.opensSentA⟩
      rw [← sound.sameKey]
      exact facts.opens
    · refine List.forall_mem_cons.mpr ⟨?_, counted⟩
      exact ⟨talk.a.sendCounter, by rw [facts.advances]; exact Nat.lt_succ_self _,
        facts.counter_fits, facts.nonce⟩
    · refine List.nodup_cons.mpr ⟨fun known => ?_, sound.nodup⟩
      obtain ⟨message, member, samePayload⟩ := List.mem_map.mp known
      obtain ⟨counter, before, fits, nonce⟩ := sound.counted message member
      rw [samePayload, facts.nonce] at nonce
      have same := nonceOf_injective facts.counter_fits fits nonce
      omega

theorem Conversation.Sound.sendB (sound : talk.Sound crypto)
    (plaintext : List UInt8) :
    (Event.apply crypto (.sendB plaintext) talk).Sound crypto := by
  obtain ⟨sameKey, _⟩ :=
    encrypt_channel crypto talk.b plaintext
  have opensSentB : ∀ message ∈ messageOf
      (talk.b.encrypt crypto plaintext).framed (.ok plaintext) ++ talk.sentB,
      openPayload crypto talk.b.aesKey message.payload =
        some message.plaintext := by
    rcases messageOf_encrypt crypto talk.b plaintext with
      silent | ⟨framed, payload, facts, sent⟩
    · rw [silent]
      exact sound.opensSentB
    · rw [sent]
      exact List.forall_mem_cons.mpr ⟨facts.opens, sound.opensSentB⟩
  unfold Event.apply
  dsimp only
  rw [← sameKey] at opensSentB
  exact ⟨sound.sameKey.trans sameKey.symm, sameKey ▸ sound.opensSentA,
    opensSentB, sameKey ▸ sound.opensAccepted, sound.counted, sound.nodup⟩

theorem Conversation.Sound.deliverA (sound : talk.Sound crypto)
    (framedData : List UInt8) :
    (Event.apply crypto (.deliverA framedData) talk).Sound crypto := by
  obtain ⟨sameKey, sameCounter⟩ :=
    decrypt_channel crypto talk.a framedData
  have counted := sound.counted
  rw [← sameCounter] at counted
  exact ⟨sameKey.trans sound.sameKey, sound.opensSentA, sound.opensSentB,
    sound.opensAccepted, counted, sound.nodup⟩

theorem Conversation.Sound.deliverB (sound : talk.Sound crypto)
    (framedData : List UInt8) :
    (Event.apply crypto (.deliverB framedData) talk).Sound crypto := by
  obtain ⟨sameKey, _⟩ :=
    decrypt_channel crypto talk.b framedData
  have opensAccepted : ∀ message ∈ messageOf (.ok framedData)
      (talk.b.decrypt crypto framedData).2 ++ talk.acceptedB,
      openPayload crypto talk.b.aesKey message.payload =
        some message.plaintext := by
    rcases messageOf_decrypt_cases crypto talk.b framedData with
      refused | ⟨payload, plaintext, _, opens, accepted⟩
    · rw [refused]
      exact sound.opensAccepted
    · rw [accepted]
      exact List.forall_mem_cons.mpr ⟨opens, sound.opensAccepted⟩
  unfold Event.apply
  dsimp only
  rw [← sameKey] at opensAccepted
  exact ⟨sound.sameKey.trans sameKey.symm, sameKey ▸ sound.opensSentA,
    sameKey ▸ sound.opensSentB, opensAccepted, sound.counted, sound.nodup⟩

theorem Conversation.Sound.apply (sound : talk.Sound crypto) (event : Event) :
    (event.apply crypto talk).Sound crypto := by
  cases event with
  | sendA plaintext => exact sound.sendA plaintext
  | sendB plaintext => exact sound.sendB plaintext
  | deliverA framedData => exact sound.deliverA framedData
  | deliverB framedData => exact sound.deliverB framedData

theorem sound_converse (ours theirs : List UInt8) (events : List Event) :
    (converse crypto ours theirs events).Sound crypto := by
  induction events with
  | nil => exact ⟨create_aesKey ours theirs, by simp [Conversation.opened],
      by simp [Conversation.opened], by simp [Conversation.opened],
      by simp [Conversation.opened], by simp [Conversation.opened]⟩
  | cons event events ih => exact ih.apply event

/-- The message with a payload that the first end has sent. -/
theorem Conversation.Sound.mem_sentA (sound : talk.Sound crypto)
    {message : Message}
    (opens : openPayload crypto talk.b.aesKey message.payload =
      some message.plaintext)
    (sent : message.payload ∈ talk.sentA.map Message.payload) :
    message ∈ talk.sentA := by
  obtain ⟨other, member, samePayload⟩ := List.mem_map.mp sent
  have otherOpens := sound.opensSentA other member
  rw [samePayload, opens] at otherOpens
  have same : other = message := by
    cases message
    cases other
    simp only [Message.mk.injEq]
    exact ⟨samePayload, (Option.some.inj otherOpens).symm⟩
  exact same ▸ member

/-- A fresh delivery keeps the accepted messages among those sent. -/
theorem Conversation.AcceptsOnce.apply {event : Event}
    (once : talk.AcceptsOnce) (sound : talk.Sound crypto)
    (ideal : Ideal crypto event talk) (fresh : Fresh event talk) :
    (event.apply crypto talk).AcceptsOnce := by
  cases event with
  | sendA plaintext => exact once.trans (List.sublist_append_right _ _).subperm
  | sendB plaintext => exact once
  | deliverA framedData => exact once
  | deliverB framedData =>
      unfold Event.apply
      rcases messageOf_decrypt_cases crypto talk.b framedData with
        refused | ⟨payload, plaintext, readable, opens, accepted⟩
      · rw [Conversation.AcceptsOnce]
        dsimp only
        rw [refused]
        exact once
      · obtain ⟨notAccepted, notReflected⟩ := fresh payload readable
        have sent : payload ∈ talk.sentA.map Message.payload :=
          (ideal payload readable (by rw [opens]; rfl)).elim id notReflected
        have sentMessage : (⟨payload, plaintext⟩ : Message) ∈ talk.sentA :=
          sound.mem_sentA opens sent
        have notIn : (⟨payload, plaintext⟩ : Message) ∉ talk.acceptedB :=
          fun member => notAccepted (List.mem_map_of_mem member)
        rw [Conversation.AcceptsOnce]
        dsimp only
        rw [accepted]
        exact List.cons_subperm_of_not_mem_of_mem notIn sentMessage once

/-- A delivery that keeps them so was fresh. -/
theorem Conversation.AcceptsOnce.fresh {event : Event}
    (sound : talk.Sound crypto)
    (once : (event.apply crypto talk).AcceptsOnce) : Fresh event talk := by
  cases event with
  | sendA plaintext => trivial
  | sendB plaintext => trivial
  | deliverA framedData => trivial
  | deliverB framedData =>
      intro payload readable
      rw [Conversation.AcceptsOnce, Event.apply] at once
      dsimp only at once
      have acceptedOf : ∀ plaintext,
          openPayload crypto talk.b.aesKey payload = some plaintext →
            (⟨payload, plaintext⟩ :: talk.acceptedB).Subperm talk.sentA := by
        intro plaintext opens
        rw [messageOf_decrypt readable opens] at once
        exact once
      constructor
      · intro known
        obtain ⟨message, member, rfl⟩ := List.mem_map.mp known
        obtain ⟨kept, permuted, sublist⟩ :=
          acceptedOf _ (sound.opensAccepted message member)
        have nodup := (sound.nodup.of_map Message.payload).sublist sublist
        exact (List.nodup_cons.mp (permuted.nodup_iff.mp nodup)).1 member
      · intro reflected
        obtain ⟨message, member, rfl⟩ := List.mem_map.mp reflected
        have accepted := acceptedOf _ (sound.opensSentB message member)
        exact List.mem_map_of_mem
          (accepted.subset (List.mem_cons_self ..))

end Steps

/-- On a channel with ideal encryption, the messages that an end accepts are
always among those the other end has sent, without repetition, exactly when no
payload is delivered to it again or reflected. -/
theorem acceptsOnce_iff {crypto : Cryptography} {ours theirs : List UInt8}
    {events : List Event}
    (ideal : Admitted (Event.apply crypto) (.opened crypto ours theirs)
      (Ideal crypto) events) :
    (∀ moment, moment <:+ events →
        (converse crypto ours theirs moment).AcceptsOnce) ↔
      Admitted (Event.apply crypto) (.opened crypto ours theirs) Fresh
        events := by
  constructor
  · intro once event earlier suffix
    exact (once _ suffix).fresh (sound_converse ours theirs earlier)
  · intro fresh moment suffix
    induction moment with
    | nil => exact List.nil_subperm
    | cons event earlier ih =>
        have before := ih ((List.suffix_cons event earlier).trans suffix)
        exact before.apply (sound_converse ours theirs earlier)
          (ideal event earlier suffix) (fresh event earlier suffix)

section Schedules

theorem ideal_deliverB {crypto : Cryptography} {talk : Conversation}
    {framedData payload : List UInt8}
    (readable : payloadOf framedData = .ok payload)
    (sent : payload ∈ talk.sentA.map Message.payload ∨
      payload ∈ talk.sentB.map Message.payload) :
    Ideal crypto (.deliverB framedData) talk := by
  intro other otherReadable _
  obtain rfl := Except.ok.inj (readable.symm.trans otherReadable)
  exact sent

/-- The payload of a one-byte message when nothing is hidden. -/
def plainPayload (counter : Nat) (byte : UInt8) : List UInt8 :=
  nonceOf counter ++ [byte]

theorem payloadOf_plain (counter : Nat) (byte : UInt8) :
    payloadOf (frame (plainPayload counter byte)) =
      .ok (plainPayload counter byte) := by
  apply payloadOf_frame <;> simp [plainPayload]

/-- The second end sends a message, and the network reflects it. -/
def reflecting : List Event :=
  [.deliverB (frame (plainPayload 0 7)), .sendB [7]]

/-- The first end sends a message, and the network delivers it twice. -/
def replaying : List Event :=
  [.deliverB (frame (plainPayload 0 7)),
    .deliverB (frame (plainPayload 0 7)), .sendA [7]]

theorem reflecting_ideal :
    Admitted (Event.apply plainCryptography) (.opened plainCryptography [1] [2])
      (Ideal plainCryptography) reflecting := by
  have sent : Admitted (Event.apply plainCryptography)
      (.opened plainCryptography [1] [2]) (Ideal plainCryptography)
      [.sendB [7]] := admitted_nil.cons trivial
  exact sent.cons
    (ideal_deliverB (payloadOf_plain 0 7) (Or.inr (by decide +kernel)))

/-- A replayed message and a reflected one are accepted. -/
theorem acceptsOnce_replayed :
    ¬ (∀ events, Admitted (Event.apply plainCryptography)
        (.opened plainCryptography [1] [2]) (Ideal plainCryptography) events →
      (converse plainCryptography [1] [2] events).AcceptsOnce) ∧
    ¬ (converse plainCryptography [1] [2] replaying).AcceptsOnce ∧
    ¬ (converse plainCryptography [1] [2] reflecting).AcceptsOnce := by
  have replayed :
      ¬ (converse plainCryptography [1] [2] replaying).AcceptsOnce := by
    intro once
    have shorter := once.length_le
    revert shorter
    decide +kernel
  have reflected :
      ¬ (converse plainCryptography [1] [2] reflecting).AcceptsOnce := by
    intro once
    have shorter := once.length_le
    revert shorter
    decide +kernel
  exact ⟨fun once => reflected (once _ reflecting_ideal), replayed,
    reflected⟩

/-- Two messages are delivered in the opposite order. -/
def reordering : List Event :=
  [.deliverB (frame (plainPayload 0 7)), .deliverB (frame (plainPayload 1 8)),
    .sendA [8], .sendA [7]]

theorem reordering_ideal :
    Admitted (Event.apply plainCryptography) (.opened plainCryptography [1] [2])
      (Ideal plainCryptography) reordering := by
  have sent : Admitted (Event.apply plainCryptography)
      (.opened plainCryptography [1] [2]) (Ideal plainCryptography)
      [.sendA [8], .sendA [7]] := (admitted_nil.cons trivial).cons trivial
  have delivered := sent.cons
    (ideal_deliverB (payloadOf_plain 1 8) (Or.inl (by decide +kernel)))
  exact delivered.cons
    (ideal_deliverB (payloadOf_plain 0 7) (Or.inl (by decide +kernel)))

theorem acceptsOnce_iff_reordering :
    (converse plainCryptography [1] [2] reordering).acceptedB.map
        Message.plaintext = [[7], [8]] ∧
      ((∀ moment, moment <:+ reordering →
        (converse plainCryptography [1] [2] moment).AcceptsOnce) ↔
      Admitted (Event.apply plainCryptography)
        (.opened plainCryptography [1] [2]) Fresh reordering) :=
  ⟨by decide +kernel, acceptsOnce_iff reordering_ideal⟩

end Schedules

end EncryptedChannel

end RefinetPillars
