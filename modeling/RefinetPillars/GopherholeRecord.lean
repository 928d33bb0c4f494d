import RefinetPillars.ContentSigning
import RefinetPillars.JsonText

/-!
# Records of gopherholes

A gopherhole is created under a selector of a fixed form and with any name.
Its record is signed as one text, with colons between the fields, and is
verified by putting that text together again.
-/

namespace RefinetPillars

namespace GopherholeRecord

open HexText LineText DecimalText KeyRecovery ContentSigning JsonText

def isSlugCharacter (character : Char) : Bool :=
  character.isAlphanum || character = '_' || character = '-'

def isSlug (slug : Text) : Bool :=
  1 ≤ slug.length && slug.length ≤ 64 && slug.all isSlugCharacter

def holesPrefix : Text := "/holes/".toList

/-- The pattern ends before a line feed at the end as well. -/
def withoutFinalLineFeed (text : Text) : Text :=
  if text.getLast? = some (Char.ofNat 10) then text.dropLast else text

/-- A slug, or a namespace and a slug. -/
def matchSlug (rest : Text) : Option (Option Text) :=
  if isSlug rest then some none
  else if (rest.take 16).length = 16 ∧ (rest.take 16).all isLowerHexDigit ∧
      rest[16]? = some '/' ∧ isSlug (rest.drop 17) then
    some (some (rest.take 16))
  else none

/-- `SELECTOR_PATTERN.match`, with the namespace if there is one. -/
def matchSelector (selector : Text) : Option (Option Text) :=
  if holesPrefix.isPrefixOf selector then
    matchSlug (withoutFinalLineFeed (selector.drop holesPrefix.length))
  else none

/-- A namespace is the start of the PID. -/
def ownNamespace (pid : Text) : Option Text → Bool
  | some namespaceText => namespaceText = pid.take 16
  | none => true

def validateSelector (selector pid : Text) : Except String Unit :=
  match matchSelector selector with
  | none =>
      .error ("Invalid selector '" ++ String.ofList selector ++
        "'. Must match /holes/<slug> or /holes/<pid16>/<slug> where slug is " ++
        "1-64 alphanumeric, dash, or underscore chars.")
  | some found =>
      if ownNamespace pid found then .ok ()
      else
        .error ("Namespaced selector '" ++ String.ofList selector ++
          "' does not belong to PID " ++ String.ofList (pid.take 16))

/-- The text that the signature of a record covers. -/
def signingPayload (pid selector name registeredAt : Text) : Text :=
  pid ++ ':' :: selector ++ ':' :: name ++ ':' :: registeredAt

/-- Two digits at least. -/
def twoDigits (number : Nat) : Text :=
  if number < 10 then '0' :: numeral number else numeral number

/-- A date of the accounting calendar. -/
def accountingDate (year month day : Nat) : Text :=
  numeral year ++ '-' :: twoDigits month ++ '-' :: twoDigits day

/-- `str` of a value, unless it is a list or a dictionary: the database takes
neither, so a record that has one is never stored. -/
def str : Json → Option Text
  | .null => some "None".toList
  | .bool true => some "True".toList
  | .bool false => some "False".toList
  | .int value => some (intText value)
  | .float printed =>
      some
        (if printed = "NaN".toList then "nan".toList
        else if printed = "Infinity".toList then "inf".toList
        else if printed = "-Infinity".toList then "-inf".toList
        else printed)
  | .str value => some value
  | .arr _ | .obj _ => none

section Scheme

variable (scheme : Scheme)

/-- `verify_gopherhole_signature`; nothing if it raises an exception. -/
def verifyGopherholeSignature (record : Json) : Option Bool := do
  let pid ← record.get "pid".toList
  let pubkeyHex ← record.get "pubkey_hex".toList
  match pid, pubkeyHex with
  | .str pid, .str pubkeyHex =>
      if pidMatchesKey scheme pid pubkeyHex = false then some false
      else
        match ← record.get "selector".toList with
        | .str selector =>
            if ((matchSelector selector).all (ownNamespace pid)) = false then
              some false
            else do
              let name ← (← record.get "name".toList) |> str
              let registeredAt ← (← record.get "registered_at".toList) |> str
              match ← record.get "signature".toList with
              | .str signature =>
                  some (verifySignature scheme
                    (encodeUtf8 (signingPayload pid selector name registeredAt))
                    signature pubkeyHex)
              | _ => some false
        | _ => none
  | _, _ => some false

end Scheme

section Colons

theorem colon_notMem_numeral (number : Nat) : ':' ∉ numeral number := by
  intro member
  obtain ⟨digit, small, isDigit⟩ := exists_digit_of_mem_numeral member
  have checked : ∀ digit : Fin 10, (digit : Nat).digitChar ≠ ':' := by decide
  exact checked ⟨digit, small⟩ isDigit.symm

theorem colon_notMem_accountingDate (year month day : Nat) :
    ':' ∉ accountingDate year month day := by
  have twoFree : ∀ number, ':' ∉ twoDigits number := by
    intro number
    rw [twoDigits]
    split <;> simp [colon_notMem_numeral]
  simp [accountingDate, colon_notMem_numeral, twoFree]

theorem colon_notMem_of_isSlug {slug : Text} (valid : isSlug slug = true) :
    ':' ∉ slug := by
  intro member
  simp only [isSlug, Bool.and_eq_true] at valid
  exact absurd (List.all_eq_true.mp valid.2 ':' member) (by decide)

theorem colon_notMem_of_matchSlug {rest : Text} {found : Option Text}
    (matched : matchSlug rest = some found) : ':' ∉ rest := by
  rw [matchSlug] at matched
  split at matched
  next slug => exact colon_notMem_of_isSlug slug
  next =>
    split at matched
    next namespaced =>
      obtain ⟨-, hexDigits, slash, slug⟩ := namespaced
      intro member
      rw [← List.take_append_drop 16 rest, List.mem_append] at member
      rcases member with inNamespace | afterNamespace
      · exact absurd (List.all_eq_true.mp hexDigits ':' inNamespace) (by decide)
      · obtain ⟨bound, isSlash⟩ := List.getElem?_eq_some_iff.mp slash
        rw [List.drop_eq_getElem_cons bound, isSlash] at afterNamespace
        rcases List.mem_cons.mp afterNamespace with same | inSlug
        · cases same
        · exact colon_notMem_of_isSlug slug inSlug
    next => cases matched

theorem mem_withoutFinalLineFeed {text : Text} {character : Char}
    (member : character ∈ text) (notLineFeed : character ≠ Char.ofNat 10) :
    character ∈ withoutFinalLineFeed text := by
  rw [withoutFinalLineFeed]
  split
  case isTrue ends =>
    obtain ⟨older, rfl⟩ := List.getLast?_eq_some_iff.mp ends
    rw [List.dropLast_concat]
    rcases List.mem_append.mp member with inOlder | newest
    · exact inOlder
    · exact absurd (List.mem_singleton.mp newest) notLineFeed
  case isFalse => exact member

/-- A selector under which a gopherhole can be created has no colon. -/
theorem colon_notMem_of_matchSelector {selector : Text}
    {found : Option Text} (matched : matchSelector selector = some found) :
    ':' ∉ selector := by
  rw [matchSelector] at matched
  split at matched
  next starts =>
    obtain ⟨rest, rfl⟩ := List.isPrefixOf_iff_prefix.mp starts
    rw [List.drop_left] at matched
    intro member
    rcases List.mem_append.mp member with inPrefix | inRest
    · exact absurd inPrefix (by decide)
    · exact colon_notMem_of_matchSlug matched
        (mem_withoutFinalLineFeed inRest (by decide))
  next => cases matched

theorem exists_matchSelector {selector pid : Text}
    (valid : validateSelector selector pid = .ok ()) :
    ∃ found, matchSelector selector = some found := by
  rw [validateSelector] at valid
  cases found : matchSelector selector with
  | none => simp [found] at valid
  | some namespaceText => exact ⟨namespaceText, rfl⟩

theorem count_signingPayload (pid selector name registeredAt : Text) :
    (signingPayload pid selector name registeredAt).count ':' =
      pid.count ':' + selector.count ':' + name.count ':' +
        registeredAt.count ':' + 3 := by
  simp only [signingPayload, List.count_append, List.count_cons, beq_self_eq_true,
    if_true]
  omega

/-- A payload with a colon between the fields only is split in one way. -/
theorem signingPayload_inj {pid selector name registeredAt otherPid
      otherSelector otherName otherRegisteredAt : Text}
    (pidFree : ':' ∉ pid) (selectorFree : ':' ∉ selector)
    (nameFree : ':' ∉ name) (registeredFree : ':' ∉ registeredAt)
    (otherPidFree : ':' ∉ otherPid)
    (same : signingPayload pid selector name registeredAt =
      signingPayload otherPid otherSelector otherName otherRegisteredAt) :
    pid = otherPid ∧ selector = otherSelector ∧ name = otherName ∧
      registeredAt = otherRegisteredAt := by
  have counts := congrArg (List.count ':') same
  rw [count_signingPayload, count_signingPayload, List.count_eq_zero.mpr pidFree,
    List.count_eq_zero.mpr selectorFree, List.count_eq_zero.mpr nameFree,
    List.count_eq_zero.mpr registeredFree] at counts
  have otherSelectorFree : ':' ∉ otherSelector :=
    List.count_eq_zero.mp (by omega)
  have otherNameFree : ':' ∉ otherName := List.count_eq_zero.mp (by omega)
  simp only [signingPayload, List.append_assoc, List.cons_append] at same
  obtain ⟨pidEq, afterPid⟩ := split_at_first pidFree otherPidFree same
  obtain ⟨selectorEq, afterSelector⟩ :=
    split_at_first selectorFree otherSelectorFree afterPid
  obtain ⟨nameEq, registeredEq⟩ :=
    split_at_first nameFree otherNameFree afterSelector
  exact ⟨pidEq, selectorEq, nameEq, registeredEq⟩

/-- A name with a colon lets the selector end later. -/
theorem signingPayload_resplit (pid selector before after registeredAt : Text) :
    signingPayload pid selector (before ++ ':' :: after) registeredAt =
      signingPayload pid (selector ++ ':' :: before) after registeredAt := by
  simp [signingPayload]

end Colons

section Verification

variable {scheme : Scheme}

/-- A record that verifies gives its fields, and its signature covers them. -/
theorem verifyGopherholeSignature_eq_some_true {record : Json}
    (verified : verifyGopherholeSignature scheme record = some true) :
    ∃ pid pubkeyHex selector name registeredAt signature,
      record.get "pid".toList = some (.str pid) ∧
      record.get "pubkey_hex".toList = some (.str pubkeyHex) ∧
      record.get "selector".toList = some (.str selector) ∧
      (record.get "name".toList).bind str = some name ∧
      (record.get "registered_at".toList).bind str = some registeredAt ∧
      pidMatchesKey scheme pid pubkeyHex = true ∧
      (matchSelector selector).all (ownNamespace pid) = true ∧
      verifySignature scheme
        (encodeUtf8 (signingPayload pid selector name registeredAt)) signature
        pubkeyHex = true := by
  simp only [verifyGopherholeSignature, Option.bind_eq_bind,
    Option.bind_eq_some_iff] at verified
  obtain ⟨pid, getPid, pubkeyHex, getPubkey, verified⟩ := verified
  split at verified
  next pid pubkeyHex =>
    split at verified
    next => cases verified
    next keyed =>
      simp only [Option.bind_eq_some_iff] at verified
      obtain ⟨selector, getSelector, verified⟩ := verified
      split at verified
      next selector =>
        split at verified
        next => cases verified
        next owned =>
          simp only [Option.bind_eq_some_iff] at verified
          obtain ⟨nameJson, getName, name, nameText, dateJson, getDate,
            registeredAt, dateText, signature, getSignature, verified⟩ :=
              verified
          split at verified
          next signature =>
            exact ⟨pid, pubkeyHex, selector, name, registeredAt, signature,
              getPid, getPubkey, getSelector, by rw [getName]; exact nameText,
              by rw [getDate]; exact dateText, by simpa using keyed,
              by simpa using owned, by simpa using verified⟩
          next => cases verified
      next => cases verified
  next => cases verified

/-- A record of texts that passes each check verifies. -/
theorem verifyGopherholeSignature_of_texts {record : Json}
    {pid pubkeyHex selector name registeredAt signature : Text}
    (getPid : record.get "pid".toList = some (.str pid))
    (getPubkey : record.get "pubkey_hex".toList = some (.str pubkeyHex))
    (getSelector : record.get "selector".toList = some (.str selector))
    (getName : record.get "name".toList = some (.str name))
    (getDate : record.get "registered_at".toList = some (.str registeredAt))
    (getSignature : record.get "signature".toList = some (.str signature))
    (keyed : pidMatchesKey scheme pid pubkeyHex = true)
    (owned : (matchSelector selector).all (ownNamespace pid) = true)
    (verified : verifySignature scheme
      (encodeUtf8 (signingPayload pid selector name registeredAt)) signature
      pubkeyHex = true) :
    verifyGopherholeSignature scheme record = some true := by
  simp only [verifyGopherholeSignature, getPid, getPubkey, getSelector, getName,
    getDate, getSignature, keyed, owned, verified, str, Option.bind_eq_bind,
    Option.bind_some, Bool.true_eq_false, if_false]

end Verification

end GopherholeRecord

end RefinetPillars
