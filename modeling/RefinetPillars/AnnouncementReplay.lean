import RefinetPillars.PeerListener
import RefinetPillars.RunHistory
import RefinetPillars.ExceptRules

/-!
# Announcements that come again

A listener accepts a signed announcement only if it is newer than the one of
the same PID that it remembers.  It remembers a bounded number of PIDs, so what
has been accepted can be forgotten and accepted again.
-/

namespace RefinetPillars

namespace AnnouncementReplay

open HexText LineText KeyRecovery ContentSigning JsonText ExceptRules
open WalletBinding (verifyValues)
open PeerTable (str)
open PeerListener RunHistory

section Statement

/-- An announcement, when it comes, and whether its peer is known by then. -/
structure Announcement where
  now : Int
  msg : Json
  pid : Text
  isKnown : Bool
  hasPid : msg.get "pid".toList = some (.str pid)

/-- What a listener remembers, with all that it has accepted as signed and all
that it has dropped, newest first. -/
structure History where
  last : List (Text × Int)
  accepted : List (Text × Int)
  dropped : List (Text × Int)

def History.initial : History := ⟨[], [], []⟩

variable (env : Environment) (listener : Listener)

/-- The entry of an announcement that is accepted as signed. -/
def signedEntry (announcement : Announcement) (verdict : Acceptance) :
    List (Text × Int) :=
  match readTimestamp env announcement.msg with
  | .ok (some timestamp) =>
      if verdict.reason = "signed".toList then [(announcement.pid, timestamp)]
      else []
  | _ => []

/-- One call of `accept_announcement`. -/
def receive (announcement : Announcement) (history : History) : History :=
  match acceptAnnouncement env listener announcement.now announcement.msg
      announcement.pid announcement.isKnown history.last with
  | .error _ => history
  | .ok (verdict, last) =>
      { last
        accepted := signedEntry env announcement verdict ++ history.accepted
        dropped := (history.last.filter fun entry =>
          (last.lookup entry.1).isNone) ++ history.dropped }

/-- Nothing is accepted twice, and of each PID only what is newer. -/
structure NoReplay (history : History) : Prop where
  once : history.accepted.Nodup
  increasing : history.accepted.Pairwise fun newer older =>
    newer.1 = older.1 → older.2 < newer.2

/-- A signed announcement of a PID that is not remembered is newer than what
has been dropped of this PID. -/
def NewerThanDropped (announcement : Announcement) (history : History) : Prop :=
  ∀ reason timestamp,
    verifyAnnounceSignature env announcement.now announcement.msg =
      .ok (true, reason) →
    readTimestamp env announcement.msg = .ok (some timestamp) →
    history.last.lookup announcement.pid = none →
    ∀ entry ∈ history.dropped, entry.1 = announcement.pid →
      entry.2 < timestamp

end Statement

section Entries

variable {pid other : Text} {timestamp : Int} {last : List (Text × Int)}

theorem lookup_entry (key : Text) (known : Int) :
    ((key, known) :: last).lookup other =
      if other = key then some known else last.lookup other := by
  by_cases same : other = key
  · simp [same]
  · rw [List.lookup_cons, beq_false_of_ne same, if_neg same]

theorem lookup_setAnnounce :
    (setAnnounce pid timestamp last).lookup other =
      if other = pid then some timestamp else last.lookup other := by
  induction last with
  | nil => exact lookup_entry pid timestamp
  | cons entry entries ih =>
      obtain ⟨key, known⟩ := entry
      rw [setAnnounce, lookup_entry]
      by_cases same : key = pid
      · rw [if_pos same, lookup_entry, same]
        split <;> rfl
      · rw [if_neg same, lookup_entry, ih]
        split_ifs with isKey isPid
        · exact (same (isKey.symm.trans isPid)).elim
        all_goals rfl

theorem keys_setAnnounce :
    (setAnnounce pid timestamp last).map Prod.fst =
      if pid ∈ last.map Prod.fst then last.map Prod.fst
      else last.map Prod.fst ++ [pid] := by
  induction last with
  | nil => simp [setAnnounce]
  | cons entry entries ih =>
      by_cases same : entry.1 = pid
      · simp [setAnnounce, same]
      · simp only [setAnnounce, if_neg same, List.map_cons, ih, List.mem_cons,
          Ne.symm same, false_or]
        split <;> rfl

theorem setAnnounce_of_new (new : last.lookup pid = none) :
    setAnnounce pid timestamp last = last ++ [(pid, timestamp)] := by
  induction last with
  | nil => rfl
  | cons entry entries ih =>
      obtain ⟨key, known⟩ := entry
      rw [lookup_entry] at new
      split at new
      · cases new
      next differ => rw [setAnnounce, if_neg (Ne.symm differ), ih new]; rfl

theorem nodup_setAnnounce (distinct : (last.map Prod.fst).Nodup) :
    ((setAnnounce pid timestamp last).map Prod.fst).Nodup := by
  rw [keys_setAnnounce]
  split
  · exact distinct
  · next absent => exact List.nodup_append_comm.mp (distinct.cons absent)

/-- The others lose nothing when the oldest entry is dropped. -/
theorem lookup_tail (distinct : (last.map Prod.fst).Nodup) :
    last.tail.lookup other = none ∨
      last.tail.lookup other = last.lookup other := by
  cases last with
  | nil => exact .inl rfl
  | cons entry entries =>
      obtain ⟨key, known⟩ := entry
      have absent : key ∉ entries.map Prod.fst :=
        (List.nodup_cons.mp distinct).1
      rw [lookup_entry, List.tail_cons]
      split
      next same =>
        refine .inl (List.lookup_eq_none_iff.mpr fun entry member => ?_)
        have differ : key ≠ entry.1 := fun isKey =>
          absent (isKey ▸ List.mem_map_of_mem member)
        simpa [same] using differ
      next => exact .inr rfl

theorem nodup_remember (distinct : (last.map Prod.fst).Nodup) :
    ((remember pid timestamp last).map Prod.fst).Nodup := by
  rw [remember]
  split
  · exact nodup_setAnnounce (distinct.sublist
      ((List.tail_sublist last).map Prod.fst))
  · exact nodup_setAnnounce distinct

theorem lookup_remember_self :
    (remember pid timestamp last).lookup pid = some timestamp := by
  rw [remember, lookup_setAnnounce, if_pos rfl]

theorem lookup_remember_other (distinct : (last.map Prod.fst).Nodup)
    (differ : other ≠ pid) :
    (remember pid timestamp last).lookup other = none ∨
      (remember pid timestamp last).lookup other = last.lookup other := by
  rw [remember, lookup_setAnnounce, if_neg differ]
  split
  · exact lookup_tail distinct
  · exact .inr rfl

theorem mem_of_lookup (found : last.lookup pid = some timestamp) :
    (pid, timestamp) ∈ last := by
  induction last with
  | nil => cases found
  | cons entry entries ih =>
      obtain ⟨key, known⟩ := entry
      rw [lookup_entry] at found
      split at found
      next same =>
        obtain rfl := Option.some.inj found
        simp [same]
      next => exact List.mem_cons_of_mem _ (ih found)

theorem lookup_of_mem (distinct : (last.map Prod.fst).Nodup)
    {entry : Text × Int} (member : entry ∈ last) :
    last.lookup entry.1 = some entry.2 := by
  induction last with
  | nil => cases member
  | cons first rest ih =>
      obtain ⟨key, known⟩ := first
      obtain ⟨absent, distinct⟩ := List.nodup_cons.mp distinct
      rw [lookup_entry]
      rcases List.mem_cons.mp member with rfl | later
      · exact if_pos rfl
      · have differ : entry.1 ≠ key := fun same =>
          absent (List.mem_map.mpr ⟨entry, later, same⟩)
        rw [if_neg differ, ih distinct later]

end Entries

section Steps

variable {env : Environment} {listener : Listener} {history : History}
  {announcement : Announcement} {reason : Text} {timestamp : Int}

theorem exists_lookup {entry : Text × Int} {last : List (Text × Int)}
    (member : entry ∈ last) : (last.lookup entry.1).isNone = false := by
  rw [Option.isNone_eq_false_iff, Option.isSome_iff_ne_none, Ne,
    List.lookup_eq_none_iff]
  exact fun absent => by simpa using absent entry member

theorem filter_remembered (last : List (Text × Int)) :
    (last.filter fun entry => (last.lookup entry.1).isNone) = [] := by
  rw [List.filter_eq_nil_iff]
  intro entry member
  rw [exists_lookup member]
  exact Bool.false_ne_true

theorem signedEntry_of_ne {verdict : Acceptance}
    (unsigned : verdict.reason ≠ "signed".toList) :
    signedEntry env announcement verdict = [] := by
  rw [signedEntry]
  split
  · exact if_neg unsigned
  · rfl

/-- A call that neither accepts a signed announcement nor remembers one changes
nothing. -/
theorem receive_of_unsigned {verdict : Acceptance}
    (decided : acceptAnnouncement env listener announcement.now announcement.msg
      announcement.pid announcement.isKnown history.last =
        .ok (verdict, history.last))
    (unsigned : verdict.reason ≠ "signed".toList) :
    receive env listener announcement history = history := by
  rw [receive, decided]
  dsimp only
  rw [signedEntry_of_ne unsigned, filter_remembered]
  rfl

/-- A signed announcement is accepted unless it is remembered. -/
theorem receive_of_verified
    (verifies : verifyAnnounceSignature env announcement.now announcement.msg =
      .ok (true, reason))
    (made : readTimestamp env announcement.msg = .ok (some timestamp)) :
    receive env listener announcement history =
      if (history.last.lookup announcement.pid).any fun known =>
          timestamp ≤ known then history
      else
        { last := remember announcement.pid timestamp history.last
          accepted := (announcement.pid, timestamp) :: history.accepted
          dropped := (history.last.filter fun entry =>
            ((remember announcement.pid timestamp history.last).lookup
              entry.1).isNone) ++ history.dropped } := by
  have decided : acceptAnnouncement env listener announcement.now
      announcement.msg announcement.pid announcement.isKnown history.last =
      if (history.last.lookup announcement.pid).any fun known =>
          timestamp ≤ known then
        .ok (⟨false, false, "replayed announcement".toList⟩, history.last)
      else .ok (⟨true, true, "signed".toList⟩,
        remember announcement.pid timestamp history.last) := by
    rw [acceptAnnouncement, verifies]
    change (readTimestamp env announcement.msg >>= _) = _
    rw [made]
    rfl
  split_ifs at decided ⊢ with replayed
  · exact receive_of_unsigned decided (by simp)
  · rw [receive, decided]
    dsimp only
    rw [signedEntry, made]
    rfl

/-- What is no signed announcement changes nothing that is remembered. -/
theorem receive_of_unverified (unverified : ∀ reason timestamp,
      verifyAnnounceSignature env announcement.now announcement.msg =
        .ok (true, reason) →
      readTimestamp env announcement.msg ≠ .ok (some timestamp)) :
    receive env listener announcement history = history := by
  have raised : ∀ raised : PeerListener.Raised, acceptAnnouncement env listener
      announcement.now announcement.msg announcement.pid announcement.isKnown
      history.last = .error raised →
        receive env listener announcement history = history := by
    intro raised decided
    rw [receive, decided]
  match verifies : verifyAnnounceSignature env announcement.now
    announcement.msg with
  | .error exception =>
      refine raised exception ?_
      rw [acceptAnnouncement, verifies]
      rfl
  | .ok (true, reason) =>
      match made : readTimestamp env announcement.msg with
      | .error exception =>
          refine raised exception ?_
          rw [acceptAnnouncement, verifies]
          change (readTimestamp env announcement.msg >>= _) = _
          rw [made]
          rfl
      | .ok none =>
          refine raised (.keyError "timestamp".toList) ?_
          rw [acceptAnnouncement, verifies]
          change (readTimestamp env announcement.msg >>= _) = _
          rw [made]
          rfl
      | .ok (some timestamp) => exact (unverified reason timestamp verifies made).elim
  | .ok (false, reason) =>
      have decided : ∃ verdict, acceptAnnouncement env listener announcement.now
          announcement.msg announcement.pid announcement.isKnown history.last =
            .ok (verdict, history.last) ∧
          verdict.reason ≠ "signed".toList := by
        rw [acceptAnnouncement, verifies]
        change ∃ verdict, (if listener.requireSigned then _ else _) = _ ∧ _
        split_ifs
        all_goals exact ⟨_, rfl, by simp⟩
      obtain ⟨verdict, decided, unsigned⟩ := decided
      exact receive_of_unsigned decided unsigned

end Steps

section Runs

variable {env : Environment} {listener : Listener} {history : History}
  {announcement : Announcement}

/-- What is remembered is the newest accepted entry of each PID; what has been
accepted and is not remembered has been dropped. -/
structure Remembers (history : History) : Prop where
  distinct : (history.last.map Prod.fst).Nodup
  remembered : ∀ pid timestamp, history.last.lookup pid = some timestamp →
    history.accepted.lookup pid = some timestamp
  forgotten : ∀ pid timestamp, history.accepted.lookup pid = some timestamp →
    history.last.lookup pid = none → (pid, timestamp) ∈ history.dropped
  dropped : ∀ entry ∈ history.dropped, entry ∈ history.accepted

theorem remembers_initial : Remembers .initial :=
  ⟨List.nodup_nil, nofun, nofun, nofun⟩

theorem Remembers.accept (remembers : Remembers history) (pid : Text)
    (timestamp : Int) :
    Remembers
      { last := remember pid timestamp history.last
        accepted := (pid, timestamp) :: history.accepted
        dropped := (history.last.filter fun entry =>
          ((remember pid timestamp history.last).lookup entry.1).isNone) ++
            history.dropped } where
  distinct := nodup_remember remembers.distinct
  remembered other known found := by
    dsimp only at found ⊢
    rw [lookup_entry]
    split
    next same =>
      rw [same, lookup_remember_self] at found
      exact found
    next differ =>
      rcases @lookup_remember_other _ _ timestamp _ remembers.distinct
        differ with gone | kept
      · cases gone.symm.trans found
      · exact remembers.remembered other known (kept.symm.trans found)
  forgotten other known found gone := by
    dsimp only at found gone ⊢
    rw [lookup_entry] at found
    split at found
    next same =>
      rw [same, lookup_remember_self] at gone
      cases gone
    next differ =>
      rw [List.mem_append, List.mem_filter]
      match before : history.last.lookup other with
      | none => exact .inr (remembers.forgotten other known found before)
      | some value =>
          obtain rfl : value = known := Option.some.inj
            ((remembers.remembered other value before).symm.trans found)
          exact .inl ⟨mem_of_lookup before, by rw [gone]; rfl⟩
  dropped entry member := by
    rcases List.mem_append.mp member with now | before
    · have before := List.mem_of_mem_filter now
      have found := lookup_of_mem remembers.distinct before
      exact List.mem_cons_of_mem _
        (mem_of_lookup (remembers.remembered _ _ found))
    · exact List.mem_cons_of_mem _ (remembers.dropped entry before)

theorem remembers_receive (remembers : Remembers history) :
    Remembers (receive env listener announcement history) := by
  by_cases signed : ∃ reason timestamp,
      verifyAnnounceSignature env announcement.now announcement.msg =
        .ok (true, reason) ∧
      readTimestamp env announcement.msg = .ok (some timestamp)
  · obtain ⟨reason, timestamp, verifies, made⟩ := signed
    rw [receive_of_verified verifies made]
    split
    · exact remembers
    · exact remembers.accept announcement.pid timestamp
  · rw [receive_of_unverified fun reason timestamp verifies made =>
      signed ⟨reason, timestamp, verifies, made⟩]
    exact remembers

theorem noReplay_iff_increasing : NoReplay history ↔
    history.accepted.Pairwise fun newer older =>
      newer.1 = older.1 → older.2 < newer.2 :=
  ⟨NoReplay.increasing, fun increasing => ⟨increasing.imp fun less same =>
    (less (congrArg Prod.fst same)).ne (congrArg Prod.snd same).symm,
    increasing⟩⟩

/-- The newest entry of a PID is its greatest. -/
theorem le_of_lookup {entries : List (Text × Int)} {pid : Text}
    {newest : Int} {entry : Text × Int}
    (increasing : entries.Pairwise fun newer older =>
      newer.1 = older.1 → older.2 < newer.2)
    (found : entries.lookup pid = some newest) (member : entry ∈ entries)
    (same : entry.1 = pid) : entry.2 ≤ newest := by
  induction increasing with
  | nil => cases found
  | @cons first rest less _ ih =>
      obtain ⟨key, known⟩ := first
      rw [lookup_entry] at found
      split at found
      next isKey =>
        obtain rfl := Option.some.inj found
        rcases List.mem_cons.mp member with rfl | older
        · exact le_refl _
        · exact (less entry older (isKey.symm.trans same.symm)).le
      next differ =>
        rcases List.mem_cons.mp member with rfl | older
        · exact (differ same.symm).elim
        · exact ih found older

theorem noReplay_accept_iff {pid : Text} {timestamp : Int}
    {last dropped : List (Text × Int)} (remembers : Remembers history)
    (noReplay : NoReplay history)
    (fresh : ∀ known, history.last.lookup pid = some known →
      known < timestamp) :
    NoReplay ⟨last, (pid, timestamp) :: history.accepted, dropped⟩ ↔
      (history.last.lookup pid = none → ∀ entry ∈ history.dropped,
        entry.1 = pid → entry.2 < timestamp) := by
  rw [noReplay_iff_increasing, List.pairwise_cons]
  constructor
  · rintro ⟨newest, _⟩ _ entry member same
    exact newest entry (remembers.dropped entry member) same.symm
  · intro newer
    refine ⟨fun entry member same => ?_, noReplay.increasing⟩
    match accepted : history.accepted.lookup pid with
    | none =>
        have absent := List.lookup_eq_none_iff.mp accepted entry member
        exact (bne_iff_ne.mp absent same).elim
    | some newest =>
        have least : entry.2 ≤ newest :=
          le_of_lookup noReplay.increasing accepted member same.symm
        match last : history.last.lookup pid with
        | none => exact least.trans_lt (newer last _
            (remembers.forgotten pid newest accepted last) rfl)
        | some known =>
            obtain rfl : known = newest := Option.some.inj
              ((remembers.remembered pid known last).symm.trans accepted)
            exact least.trans_lt (fresh known last)

/-- One call keeps the law exactly if the announcement is newer than what has
been dropped of its PID. -/
theorem noReplay_receive_iff (remembers : Remembers history)
    (noReplay : NoReplay history) :
    NoReplay (receive env listener announcement history) ↔
      NewerThanDropped env announcement history := by
  by_cases signed : ∃ reason timestamp,
      verifyAnnounceSignature env announcement.now announcement.msg =
        .ok (true, reason) ∧
      readTimestamp env announcement.msg = .ok (some timestamp)
  · obtain ⟨reason, timestamp, verifies, made⟩ := signed
    have newer : NewerThanDropped env announcement history ↔
        (history.last.lookup announcement.pid = none →
          ∀ entry ∈ history.dropped, entry.1 = announcement.pid →
            entry.2 < timestamp) := by
      refine ⟨fun newer => newer reason timestamp verifies made, ?_⟩
      intro newer _ other _ read
      obtain rfl : timestamp = other :=
        Option.some.inj (Except.ok.inj (made.symm.trans read))
      exact newer
    rw [receive_of_verified verifies made, newer]
    split
    next replayed =>
      refine iff_of_true noReplay fun gone => ?_
      rw [gone] at replayed
      cases replayed
    next fresh =>
      refine noReplay_accept_iff remembers noReplay fun known found => ?_
      rw [found] at fresh
      simpa using fresh
  · rw [receive_of_unverified fun reason timestamp verifies made =>
      signed ⟨reason, timestamp, verifies, made⟩]
    exact iff_of_true noReplay fun reason timestamp verifies made =>
      (signed ⟨reason, timestamp, verifies, made⟩).elim

theorem NoReplay.of_receive
    (noReplay : NoReplay (receive env listener announcement history)) :
    NoReplay history := by
  rw [noReplay_iff_increasing] at noReplay ⊢
  rw [receive] at noReplay
  split at noReplay
  · exact noReplay
  · exact (List.pairwise_append.mp noReplay).2.1

theorem remembers_run (announcements : List Announcement) :
    Remembers (run (receive env listener) .initial announcements) := by
  induction announcements with
  | nil => exact remembers_initial
  | cons announcement earlier ih => exact remembers_receive ih

/-- A listener accepts no announcement twice, and of each PID only newer ones,
in exactly the runs in which every signed announcement of a PID that is not
remembered is newer than what has been dropped of this PID. -/
theorem noReplay_iff (env : Environment) (listener : Listener)
    (announcements : List Announcement) :
    NoReplay (run (receive env listener) .initial announcements) ↔
      Admitted (receive env listener) .initial (NewerThanDropped env)
        announcements := by
  induction announcements with
  | nil =>
      exact iff_of_true ⟨List.nodup_nil, List.Pairwise.nil⟩ admitted_nil
  | cons announcement earlier ih =>
      rw [run_cons, admitted_cons_iff, ← ih]
      constructor
      · intro noReplay
        exact ⟨noReplay.of_receive, (noReplay_receive_iff
          (remembers_run earlier) noReplay.of_receive).mp noReplay⟩
      · rintro ⟨noReplay, newer⟩
        exact (noReplay_receive_iff (remembers_run earlier) noReplay).mpr newer

end Runs

section Announcers

variable (env : Environment)

def protocolVersion : Text := "0.6.0".toList

/-- What a Pillar announces of itself. -/
structure Announcer where
  pid : Text
  publicKey : Text
  hostname : Text
  port : Int
  pillarName : Text
  onionAddress : Option Text
  privateKey : Option (List UInt8)

/-- The fields that every announcement has. -/
def announceFields (announcer : Announcer) (timestamp : Int) :
    List (Text × Json) :=
  [("type".toList, .str "pillar_announce".toList),
    ("protocol".toList, .str "REFInet".toList),
    ("version".toList, .str protocolVersion),
    ("pid".toList, .str announcer.pid),
    ("public_key".toList, .str announcer.publicKey),
    ("hostname".toList, .str announcer.hostname),
    ("port".toList, .int announcer.port),
    ("pillar_name".toList, .str announcer.pillarName),
    ("timestamp".toList, .int timestamp)]

/-- The message that is sent, as a dictionary.  It is unsigned if the key is
locked. -/
def buildAnnounceMessage (announcer : Announcer) (timestamp : Int) : Json :=
  .obj (announceFields announcer timestamp ++
    (match announcer.onionAddress with
      | some (character :: rest) =>
          [("onion_address".toList, .str (character :: rest))]
      | _ => []) ++
    match announcer.privateKey with
    | some privateKey =>
        [("sig".toList, .str (signDomain env.scheme domainAnnounce privateKey
          ([.str announcer.pid, .str announcer.hostname, .int announcer.port,
            .int timestamp].map (str env.repr))))]
    | none => [])

variable {env} {announcer : Announcer} {timestamp : Int}

theorem get_buildAnnounceMessage {key : Text} {value : Json}
    (found : (Json.obj (announceFields announcer timestamp)).get key =
      some value) :
    (buildAnnounceMessage env announcer timestamp).get key = some value := by
  rw [Json.get, Option.map_eq_some_iff] at found
  obtain ⟨field, found, isValue⟩ := found
  rw [buildAnnounceMessage, Json.get, List.append_assoc, List.find?_append]
  rw [found, Option.some_or, Option.map_some, isValue]

theorem get_sig {privateKey : List UInt8}
    (unlocked : announcer.privateKey = some privateKey) :
    (buildAnnounceMessage env announcer timestamp).get "sig".toList =
      some (.str (signDomain env.scheme domainAnnounce privateKey
        ([.str announcer.pid, .str announcer.hostname, .int announcer.port,
          .int timestamp].map (str env.repr)))) := by
  have unnamed : (announceFields announcer timestamp).find?
      (fun field => field.1 = "sig".toList) = none := rfl
  rw [buildAnnounceMessage, Json.get, List.append_assoc, List.find?_append]
  rw [unnamed, Option.none_or, unlocked]
  split <;> rfl

/-- What a Pillar with an unlocked key announces verifies while it is fresh. -/
theorem verifies_buildAnnounceMessage (correct : env.scheme.Correct)
    {privateKey : List UInt8} (unlocked : announcer.privateKey = some privateKey)
    (own : announcer.publicKey = toHex (env.scheme.publicKey privateKey))
    {now : Int} (fresh : (now - timestamp).natAbs ≤ announceMaxSkewSeconds) :
    verifyAnnounceSignature env now
      (buildAnnounceMessage env announcer timestamp) =
        .ok (true, "ok".toList) := by
  have hasPid : (buildAnnounceMessage env announcer timestamp).get
      "pid".toList = some (.str announcer.pid) := get_buildAnnounceMessage rfl
  have hasHostname : (buildAnnounceMessage env announcer timestamp).get
      "hostname".toList = some (.str announcer.hostname) :=
    get_buildAnnounceMessage rfl
  have hasPort : (buildAnnounceMessage env announcer timestamp).get
      "port".toList = some (.int announcer.port) := get_buildAnnounceMessage rfl
  have hasTimestamp : (buildAnnounceMessage env announcer timestamp).get
      "timestamp".toList = some (.int timestamp) := get_buildAnnounceMessage rfl
  have made : readTimestamp env (buildAnnounceMessage env announcer timestamp) =
      .ok (some timestamp) := by
    rw [readTimestamp, hasTimestamp]
    rfl
  have fields : announcePreimageFields env
      (buildAnnounceMessage env announcer timestamp) =
      .ok ([.str announcer.pid, .str announcer.hostname, .int announcer.port,
        .int timestamp].map (str env.repr)) := by
    simp only [announcePreimageFields, field, hasPid, hasHostname, hasPort,
      hasTimestamp]
    rfl
  have key : (buildAnnounceMessage env announcer timestamp).get
      "public_key".toList = some (.str announcer.publicKey) :=
    get_buildAnnounceMessage rfl
  rw [verifyAnnounceSignature, get_sig unlocked]
  change (readTimestamp _ _ >>= _) = _
  rw [made]
  change (if _ then _ else (announcePreimageFields _ _ >>= _)) = _
  rw [if_neg (not_lt.mpr fresh), fields, key, own]
  exact if_pos (verifyDomain_signDomain correct _ privateKey _)

end Announcers

section Floods

/-- A scheme whose PIDs are the keys themselves. -/
def floodEnvironment : Environment where
  scheme := { transparentScheme with sha256 := id }
  floatRepr := id
  truncate _ := none
  repr _ := []
  database := PeerTable.plainDatabase

def floodListener : Listener := ⟨"00".toList, true⟩

/-- As many keys as one likes. -/
def floodAnnouncer (index : Nat) : Announcer where
  pid := toHex (List.replicate (index + 1) 7)
  publicKey := toHex (List.replicate (index + 1) 7)
  hostname := "10.0.0.66".toList
  port := 7070
  pillarName := "flood".toList
  onionAddress := none
  privateKey := some (List.replicate (index + 1) 7)

def floodAnnouncement (index : Nat) : Announcement where
  now := 1700000000
  msg := buildAnnounceMessage floodEnvironment (floodAnnouncer index) 1700000000
  pid := (floodAnnouncer index).pid
  isKnown := false
  hasPid := get_buildAnnounceMessage rfl

/-- The first announcements of so many Pillars, newest first. -/
def flood : Nat → List Announcement
  | 0 => []
  | count + 1 => floodAnnouncement count :: flood count

theorem exists_of_mem_flood {count : Nat} {announcement : Announcement}
    (member : announcement ∈ flood count) :
    ∃ index, announcement = floodAnnouncement index := by
  induction count with
  | zero => cases member
  | succ count ih =>
      rcases List.mem_cons.mp member with rfl | earlier
      · exact ⟨count, rfl⟩
      · exact ih earlier

def floodEntry (index : Nat) : Text × Int :=
  ((floodAnnouncer index).pid, 1700000000)

theorem pid_injective {first second : Nat}
    (same : (floodAnnouncer first).pid = (floodAnnouncer second).pid) :
    first = second := by
  have bytes := congrArg List.length (toHex_injective same)
  simpa using bytes

theorem lookup_floodEntry {indices : List Nat} {index : Nat}
    (absent : index ∉ indices) :
    (indices.map floodEntry).lookup (floodAnnouncer index).pid = none := by
  rw [List.lookup_eq_none_iff]
  intro entry member
  obtain ⟨other, otherMem, rfl⟩ := List.mem_map.mp member
  refine bne_iff_ne.mpr fun same => absent ?_
  rw [pid_injective same]
  exact otherMem

/-- Every Pillar of the flood owns its PID. -/
theorem identify_floodAnnouncement (index : Nat) :
    identify floodEnvironment floodListener (floodAnnouncement index).msg =
      some ((floodAnnouncer index).pid, (floodAnnouncer index).publicKey) := by
  have hasKey : (floodAnnouncement index).msg.get "public_key".toList =
      some (.str (floodAnnouncer index).publicKey) :=
    get_buildAnnounceMessage rfl
  have matched : pidMatchesKey floodEnvironment.scheme
      (floodAnnouncer index).pid (floodAnnouncer index).publicKey = true :=
    @pidMatchesKey_toHex floodEnvironment.scheme _
  have long : (floodAnnouncer index).publicKey =
      '0' :: '7' :: toHex (List.replicate index 7) := rfl
  have nonempty : (floodAnnouncer index).publicKey ≠ [] := by simp [long]
  have other : (floodAnnouncer index).publicKey ≠ floodListener.ownPid := by
    simp [long, floodListener]
  rw [identify, (floodAnnouncement index).hasPid, hasKey]
  exact if_pos ⟨nonempty, nonempty, other, matched⟩

theorem receive_floodAnnouncement {index : Nat} {history : History}
    (new : history.last.lookup (floodAnnouncer index).pid = none) :
    receive floodEnvironment floodListener (floodAnnouncement index) history =
      { last := remember (floodAnnouncer index).pid 1700000000 history.last
        accepted := floodEntry index :: history.accepted
        dropped := (history.last.filter fun entry =>
          ((remember (floodAnnouncer index).pid 1700000000 history.last).lookup
            entry.1).isNone) ++ history.dropped } := by
  have verifies : verifyAnnounceSignature floodEnvironment 1700000000
      (floodAnnouncement index).msg = .ok (true, "ok".toList) :=
    verifies_buildAnnounceMessage (fun key data => decide_eq_true (by
      simp [floodEnvironment, transparentScheme])) rfl rfl (by decide)
  have made : readTimestamp floodEnvironment (floodAnnouncement index).msg =
      .ok (some 1700000000) := by
    have hasTimestamp : (floodAnnouncement index).msg.get "timestamp".toList =
        some (.int 1700000000) := get_buildAnnounceMessage rfl
    rw [readTimestamp, hasTimestamp]
    rfl
  rw [receive_of_verified verifies made]
  refine if_neg ?_
  change ¬ (history.last.lookup (floodAnnouncer index).pid).any _ = true
  rw [new]
  exact Bool.false_ne_true

/-- Until the listener has to drop an entry. -/
theorem last_flood {count : Nat} (few : count ≤ maxTrackedPids) :
    (run (receive floodEnvironment floodListener) .initial (flood count)).last =
      (List.range count).map floodEntry := by
  induction count with
  | zero => rfl
  | succ count ih =>
      have new : ((List.range count).map floodEntry).lookup
          (floodAnnouncer count).pid = none :=
        lookup_floodEntry (by simp)
      rw [flood, run_cons, receive_floodAnnouncement (by rw [ih (by omega), new]),
        ih (by omega)]
      dsimp only
      rw [remember, if_neg (by simp; omega), setAnnounce_of_new new,
        List.range_succ, List.map_append]
      rfl

theorem mem_accepted_receive {env : Environment} {listener : Listener}
    {announcement : Announcement} {history : History} {entry : Text × Int}
    (member : entry ∈ history.accepted) :
    entry ∈ (receive env listener announcement history).accepted := by
  rw [receive]
  split
  · exact member
  · exact List.mem_append_right _ member

theorem mem_accepted_flood (count : Nat) :
    floodEntry 0 ∈ (run (receive floodEnvironment floodListener) .initial
      (flood (count + 1))).accepted := by
  induction count with
  | zero =>
      rw [flood, run_cons, receive_floodAnnouncement rfl]
      exact List.mem_cons_self
  | succ count ih => exact mem_accepted_receive ih

/-- One Pillar more, and the first one is forgotten. -/
theorem forgotten_flood :
    (run (receive floodEnvironment floodListener) .initial
      (flood (maxTrackedPids + 1))).last.lookup (floodAnnouncer 0).pid =
        none := by
  have new : ((List.range maxTrackedPids).map floodEntry).lookup
      (floodAnnouncer maxTrackedPids).pid = none :=
    lookup_floodEntry (by simp)
  have differ : (floodAnnouncer 0).pid ≠ (floodAnnouncer maxTrackedPids).pid :=
    fun same => absurd (pid_injective same) (by decide)
  have bound : maxTrackedPids = 9999 + 1 := rfl
  have tail : (List.range maxTrackedPids).tail =
      (List.range 9999).map Nat.succ := by
    rw [bound, List.range_succ_eq_map, List.tail_cons]
  rw [flood, run_cons, receive_floodAnnouncement
    (by rw [last_flood (le_refl _), new]), last_flood (le_refl _)]
  dsimp only
  rw [remember, if_pos ⟨new, by simp⟩, lookup_setAnnounce, if_neg differ,
    ← List.map_tail, tail]
  exact lookup_floodEntry (by simp)

/-- As many Pillars as one likes announce themselves within a second, each with
its own key; then the first announcement is accepted a second time. -/
theorem not_noReplay :
    (∀ announcement ∈ floodAnnouncement 0 :: flood (maxTrackedPids + 1),
      ∃ publicKey, identify floodEnvironment floodListener announcement.msg =
        some (announcement.pid, publicKey)) ∧
    ¬ NoReplay (run (receive floodEnvironment floodListener) .initial
      (floodAnnouncement 0 :: flood (maxTrackedPids + 1))) := by
  constructor
  · intro announcement member
    have numbered : ∃ index, announcement = floodAnnouncement index := by
      rcases List.mem_cons.mp member with rfl | member
      · exact ⟨0, rfl⟩
      · exact exists_of_mem_flood member
    obtain ⟨index, rfl⟩ := numbered
    exact ⟨_, identify_floodAnnouncement index⟩
  · intro noReplay
    have once := noReplay.once
    rw [run_cons, receive_floodAnnouncement forgotten_flood] at once
    exact (List.nodup_cons.mp once).1 (mem_accepted_flood maxTrackedPids)

end Floods

end AnnouncementReplay

end RefinetPillars
