import RefinetPillars.ResponseTrailerSoundness
import RefinetPillars.Utf8Text

/-!
# Browsing other Pillars

The bridge fetches a page of another Pillar and tells the browser whose it is.
It takes the PID from the first line that is labelled so, wherever that stands,
and verifies the trailer, which has fields of its own.
-/

namespace RefinetPillars

namespace RemoteBrowsing

open HexText LineText DecimalText KeyRecovery ContentSigning ResponseTrailer

section Definitions

def lineFeed : Char := Char.ofNat 10

def carriageReturn : Char := Char.ofNat 13

def pidLabel : Text := "pid:".toList

/-- The PID on a line that is labelled so. -/
def pidOfLine (line : Text) : Option Text :=
  if pidLabel <+: line then some (strip (line.drop 4)) else none

/-- The PID on the first line that is labelled so. -/
def firstPid (text : Text) : Option Text :=
  (text.splitOn lineFeed).findSome? pidOfLine

/-- What the browser is told about a page. -/
structure RemoteAnswer where
  data : Text
  remotePid : Option Text
  remoteVerified : Option Bool

variable (scheme : Scheme)

/-- The end of `_handle_browse_remote`, from the bytes of the response on. -/
def browseRemote (response : List UInt8) : RemoteAnswer :=
  let text := Utf8Text.decodeUtf8 response
  if sigBegin <:+: text then
    { data := text
      remotePid := firstPid text
      remoteVerified :=
        some ((verifyResponseBlock scheme text).any BlockReport.valid) }
  else { data := text, remotePid := none, remoteVerified := none }

/-- A page that counts as verified is said to be of the PID whose key has been
verified. -/
def AttributedRightly (response : List UInt8) : Prop :=
  (browseRemote scheme response).remoteVerified = some true →
    ∃ report, verifyResponseBlock scheme (Utf8Text.decodeUtf8 response) =
        some report ∧
      (browseRemote scheme response).remotePid = some report.pid

/-- The first labelled line of the body names a PID, or else the first one from
the marker on. -/
def NamesFirst (pid body trailer : Text) : Prop :=
  firstPid body = some pid ∨ firstPid body = none ∧ firstPid trailer = some pid

/-- If the trailer verifies, the first labelled line names its PID. -/
def OwnPidFirst (response : List UInt8) : Prop :=
  ∀ body rest, cutAt marker (Utf8Text.decodeUtf8 response) = some (body, rest) →
    let report := checkFields scheme (encodeUtf8 body)
      (collectFields (splitLines rest))
    report.valid = true → NamesFirst report.pid body (sigBegin ++ rest)

end Definitions

section Lines

variable {line text body rest pid : Text}

theorem strip_append_return (text : Text) :
    strip (text ++ [carriageReturn]) = strip text := by
  have blank : isSpace carriageReturn = true := by decide
  simp only [strip]
  rw [List.dropWhile_append]
  split
  next empty =>
    rw [List.isEmpty_iff.mp empty]
    simp [blank]
  next => simp [blank]

/-- The end of a line is not part of the PID. -/
theorem pidOfLine_append_return (line : Text) :
    pidOfLine (line ++ [carriageReturn]) = pidOfLine line := by
  have labelled : pidLabel <+: line ++ [carriageReturn] ↔ pidLabel <+: line := by
    rw [List.prefix_concat_iff]
    constructor
    · rintro (whole | labelled)
      · have last := congrArg List.getLast? whole
        rw [List.getLast?_concat] at last
        exact absurd last (by decide)
      · exact labelled
    · exact Or.inr
  by_cases isLabelled : pidLabel <+: line
  · have long : 4 ≤ line.length := isLabelled.length_le
    rw [pidOfLine, pidOfLine, if_pos isLabelled,
      if_pos (labelled.mpr isLabelled), List.drop_append_of_le_length long,
      strip_append_return]
  · rw [pidOfLine, pidOfLine, if_neg isLabelled,
      if_neg (labelled.not.mpr isLabelled)]

theorem firstPid_append_lineFeed (text rest : Text) :
    firstPid (text ++ lineFeed :: rest) = (firstPid text).or (firstPid rest) := by
  simp only [firstPid]
  rw [List.splitOn_append_cons_self, List.findSome?_append]

theorem firstPid_of_line (oneLine : lineFeed ∉ line) :
    firstPid line = pidOfLine line := by
  rw [firstPid, List.splitOn_eq_singleton oneLine]
  cases found : pidOfLine line <;> simp [found]

/-- The first PID of a text is not changed by the end of its last line. -/
theorem firstPid_append_return (text : Text) :
    firstPid (text ++ [carriageReturn]) = firstPid text := by
  have fresh : lineFeed ≠ carriageReturn := by decide
  by_cases broken : lineFeed ∈ text
  · obtain ⟨last, before, reversed, oneLine⟩ :=
      List.eq_append_cons_of_mem (List.mem_reverse.mpr broken)
    have whole : text = before.reverse ++ lineFeed :: last.reverse := by
      rw [← List.reverse_reverse text, reversed]
      simp
    have lastLine : lineFeed ∉ last.reverse := by simpa using oneLine
    have returned : lineFeed ∉ last.reverse ++ [carriageReturn] := by
      simpa [fresh] using oneLine
    rw [whole, List.append_assoc, List.cons_append, firstPid_append_lineFeed,
      firstPid_append_lineFeed, firstPid_of_line returned,
      firstPid_of_line lastLine, pidOfLine_append_return]
  · have returned : lineFeed ∉ text ++ [carriageReturn] := by
      simpa [fresh] using broken
    rw [firstPid_of_line returned, firstPid_of_line broken,
      pidOfLine_append_return]

/-- The body is searched first, and then what follows. -/
theorem firstPid_eq_or (body rest : Text) :
    firstPid (body ++ (marker ++ rest)) =
      (firstPid body).or (firstPid (sigBegin ++ rest)) := by
  have whole : body ++ (marker ++ rest) =
      (body ++ [carriageReturn]) ++ lineFeed :: (sigBegin ++ rest) := by
    simp [marker, crlf, carriageReturn, lineFeed]
  rw [whole, firstPid_append_lineFeed, firstPid_append_return]

theorem or_eq_some_iff_namesFirst :
    (firstPid body).or (firstPid rest) = some pid ↔ NamesFirst pid body rest := by
  rw [NamesFirst, Option.or_eq_some_iff]

end Lines

section Attribution

variable {scheme : Scheme} {response : List UInt8} {body rest : Text}

/-- A response with a trailer is reported by the fields of its trailer. -/
theorem verifyResponseBlock_of_cutAt (scheme : Scheme) {text : Text}
    (cut : cutAt marker text = some (body, rest)) :
    verifyResponseBlock scheme text =
      some (checkFields scheme (encodeUtf8 body)
        (collectFields (splitLines rest))) := by
  simp [verifyResponseBlock, splitResponse, cut]

theorem browseRemote_of_cutAt (scheme : Scheme)
    (cut : cutAt marker (Utf8Text.decodeUtf8 response) = some (body, rest)) :
    (browseRemote scheme response).remotePid =
        (firstPid body).or (firstPid (sigBegin ++ rest)) ∧
      (browseRemote scheme response).remoteVerified =
        some (checkFields scheme (encodeUtf8 body)
          (collectFields (splitLines rest))).valid := by
  have whole := cutAt_eq_some cut
  have signed : sigBegin <:+: Utf8Text.decodeUtf8 response := by
    rw [whole]
    exact ⟨body ++ crlf, rest, by simp [marker]⟩
  rw [browseRemote, if_pos signed, verifyResponseBlock_of_cutAt scheme cut]
  refine ⟨?_, rfl⟩
  rw [← firstPid_eq_or, ← whole]

theorem exists_cutAt_of_verified
    (verified : (browseRemote scheme response).remoteVerified = some true) :
    ∃ body rest,
      cutAt marker (Utf8Text.decodeUtf8 response) = some (body, rest) := by
  rw [browseRemote] at verified
  split at verified
  next =>
    obtain ⟨report, isReport, -⟩ :=
      (Option.any_eq_true _ _).mp (Option.some.inj verified)
    obtain ⟨pieces, split, -⟩ := Option.map_eq_some_iff.mp isReport
    obtain ⟨cut, isCut, -⟩ := Option.map_eq_some_iff.mp split
    exact ⟨cut.1, cut.2, isCut⟩
  next => cases verified

/-- A verified page is attributed rightly exactly when no other PID stands on a
labelled line before that of the trailer. -/
theorem attributedRightly_iff :
    AttributedRightly scheme response ↔ OwnPidFirst scheme response := by
  constructor
  · intro attributed body rest cut report valid
    obtain ⟨isPid, isVerified⟩ := browseRemote_of_cutAt scheme cut
    obtain ⟨other, isReport, named⟩ :=
      attributed (isVerified.trans (congrArg some valid))
    rw [verifyResponseBlock_of_cutAt scheme cut, Option.some.injEq] at isReport
    rw [isPid, ← isReport] at named
    exact or_eq_some_iff_namesFirst.mp named
  · intro ownFirst verified
    obtain ⟨body, rest, cut⟩ := exists_cutAt_of_verified verified
    obtain ⟨isPid, isVerified⟩ := browseRemote_of_cutAt scheme cut
    refine ⟨_, verifyResponseBlock_of_cutAt scheme cut, ?_⟩
    rw [isPid, or_eq_some_iff_namesFirst]
    exact ownFirst body rest cut (Option.some.inj (isVerified.symm.trans verified))

end Attribution

section Served

variable {scheme : Scheme} {privateKey : List UInt8} {body selector : Text}

theorem strip_toHex (bytes : List UInt8) : strip (toHex bytes) = toHex bytes := by
  have kept : ∀ character ∈ toHex bytes, isSpace character = false := by
    intro character member
    obtain ⟨value, small, rfl⟩ := exists_digit_of_mem_toHex member
    have checked : ∀ value : Fin 16,
        isSpace (value : Nat).digitChar = false := by decide
    exact checked ⟨value, small⟩
  exact strip_eq_self (fun _ atHead => kept _ (List.mem_of_mem_head? atHead))
    fun _ atEnd => kept _ (List.mem_of_mem_getLast? atEnd)

/-- The first labelled line of the trailer of a Pillar is its own. -/
theorem firstPid_trailer (pidBytes : List UInt8) (rest : Text) :
    firstPid (sigBegin ++ (crlf ++ (field "pid".toList (toHex pidBytes) ++
      rest))) = some (toHex pidBytes) := by
  have lines : sigBegin ++ (crlf ++ (field "pid".toList (toHex pidBytes) ++
      rest)) = (sigBegin ++ [carriageReturn]) ++ lineFeed ::
        ((pidLabel ++ toHex pidBytes ++ [carriageReturn]) ++
          lineFeed :: rest) := by
    simp [crlf, field, pidLabel, carriageReturn, lineFeed]
  have oneLine : lineFeed ∉ pidLabel ++ toHex pidBytes ++ [carriageReturn] := by
    have fresh : lineFeed ∉ toHex pidBytes := lineFeed_notMem_toHex pidBytes
    have labelFresh : lineFeed ∉ pidLabel := by decide
    have returnFresh : lineFeed ∉ [carriageReturn] := by decide
    simp only [List.mem_append, fresh, labelFresh, returnFresh, or_self,
      not_false_eq_true]
  have unlabelled : pidOfLine (sigBegin ++ [carriageReturn]) = none := by
    decide +kernel
  have labelled : pidOfLine (pidLabel ++ toHex pidBytes) =
      some (toHex pidBytes) := by
    rw [pidOfLine, if_pos (List.prefix_append _ _)]
    exact congrArg some (strip_toHex pidBytes)
  rw [lines, firstPid_append_lineFeed, firstPid_of_line (by decide +kernel),
    unlabelled, Option.none_or, firstPid_append_lineFeed,
    firstPid_of_line oneLine, pidOfLine_append_return, labelled, Option.some_or]

/-- How the response of a Pillar is cut. -/
theorem exists_cutAt_servedText (scheme : Scheme) (privateKey : List UInt8)
    (selector : Text) (unixTime : Nat) (absent : ¬ marker <:+: body) :
    ∃ rest, cutAt marker (Utf8Text.decodeUtf8 (encodeUtf8
        (servedText scheme privateKey body selector unixTime))) =
          some (body, rest) ∧
      firstPid (sigBegin ++ rest) =
        some (pidOf scheme (scheme.publicKey privateKey)) := by
  have fresh : Char.ofNat 13 ∉ Char.ofNat 10 :: sigBegin := by decide +kernel
  rw [Utf8Text.decodeUtf8_encodeUtf8]
  simp only [servedText, buildSignatureTrailer, List.append_assoc]
  exact ⟨_, cutAt_append fresh absent, firstPid_trailer _ _⟩

/-- The page of a Pillar is attributed rightly exactly when its body names no
other PID first. -/
theorem attributedRightly_served (correct : scheme.Correct) (unixTime : Nat)
    (absent : ¬ marker <:+: body)
    (unbroken : ∀ character ∈ selector, isLineBreak character = false) :
    AttributedRightly scheme (encodeUtf8
        (servedText scheme privateKey body selector unixTime)) ↔
      ∀ named, firstPid body = some named →
        named = pidOf scheme (scheme.publicKey privateKey) := by
  obtain ⟨rest, cut, own⟩ := exists_cutAt_servedText scheme privateKey selector
    unixTime absent
  obtain ⟨isRemote, isVerified⟩ := browseRemote_of_cutAt scheme cut
  have isReport := (verifyResponseBlock_servedText scheme privateKey body
    selector unixTime absent unbroken
    (verifySignature_signContent correct _ privateKey)
    (verifyDomain_signDomain correct _ _ _)).2
  have isChecked := verifyResponseBlock_of_cutAt scheme cut
  rw [Utf8Text.decodeUtf8_encodeUtf8, isReport, Option.some.injEq] at isChecked
  rw [← isChecked] at isVerified
  rw [AttributedRightly, isRemote, own, Utf8Text.decodeUtf8_encodeUtf8, isReport]
  constructor
  · intro attributed named found
    obtain ⟨report, same, isNamed⟩ := attributed isVerified
    rw [← Option.some.inj same, found, Option.some_or] at isNamed
    exact Option.some.inj isNamed
  · intro ownFirst _
    refine ⟨_, rfl, ?_⟩
    cases found : firstPid body with
    | none => rfl
    | some named => rw [ownFirst named found, Option.some_or]

end Served

section Misattributed

def victimPid : Text := List.replicate 64 '0'

/-- A body that names another PID first. -/
def foreignBody : Text := pidLabel ++ victimPid

/-- What the owner of another key has signed. -/
def foreignSignatures : List (List UInt8 × List UInt8) :=
  [([7], encodeUtf8 foreignBody),
    ([7], envelope (toHex (Sha256.sha256 [7])) ['/', 'a'] 5
      (toHex (Sha256.sha256 (encodeUtf8 foreignBody))))]

abbrev foreignScheme : Scheme := ledgerScheme Sha256.sha256 foreignSignatures

def foreignResponse : List UInt8 :=
  encodeUtf8 (servedText foreignScheme [7] foreignBody ['/', 'a'] 5)

theorem foreign_verified :
    ∃ report, verifyResponseBlock foreignScheme
        (servedText foreignScheme [7] foreignBody ['/', 'a'] 5) = some report ∧
      report.valid = true ∧ report.pid = toHex (Sha256.sha256 [7]) := by
  have selector : signedSelector ['/', 'a'] = ['/', 'a'] := rfl
  have served := verifyResponseBlock_servedText foreignScheme [7] foreignBody
    ['/', 'a'] 5 (by decide +kernel) (by simp [isLineBreak])
    (verifySignature_ledgerScheme List.mem_cons_self [])
  rw [selector] at served
  have signed : ([7], domainPreimage domainResponse
      [pidOf foreignScheme [7], ['/', 'a'], numeral 5,
        hashContent foreignScheme (encodeUtf8 foreignBody)]) ∈
      foreignSignatures := by
    unfold foreignSignatures
    exact List.mem_cons_of_mem _ List.mem_cons_self
  have verified := served (verifyDomain_ledgerScheme signed [7])
  rw [pidOf_ledgerScheme] at verified
  exact ⟨_, verified.2, rfl, rfl⟩

/-- A page of another key is verified, and said to be of the victim. -/
theorem not_attributedRightly :
    ¬ AttributedRightly foreignScheme foreignResponse := by
  intro attributed
  obtain ⟨report, isReport, valid, isPid⟩ := foreign_verified
  obtain ⟨rest, cut, -⟩ := exists_cutAt_servedText foreignScheme [7]
    ['/', 'a'] 5 (show ¬ marker <:+: foreignBody by decide +kernel)
  obtain ⟨isRemote, isVerified⟩ := browseRemote_of_cutAt foreignScheme cut
  have isChecked := verifyResponseBlock_of_cutAt foreignScheme cut
  rw [Utf8Text.decodeUtf8_encodeUtf8, isReport, Option.some.injEq] at isChecked
  rw [← isChecked, valid] at isVerified
  obtain ⟨other, isOther, named⟩ := attributed isVerified
  rw [foreignResponse, Utf8Text.decodeUtf8_encodeUtf8, isReport,
    Option.some.injEq] at isOther
  have victim : firstPid foreignBody = some victimPid := by decide +kernel
  have differ : victimPid ≠ toHex (Sha256.sha256 [7]) := by decide +kernel
  rw [foreignResponse, isRemote, victim, Option.some_or, ← isOther, isPid,
    Option.some.injEq] at named
  exact differ named

end Misattributed

end RemoteBrowsing

end RefinetPillars
