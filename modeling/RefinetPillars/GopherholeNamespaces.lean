import RefinetPillars.GopherholeRegistry

/-!
# Whose namespace a selector is in

Whoever creates a gopherhole gives it a slug of its own, or one below the start
of the PID.  Records from elsewhere are held to that only when their selectors
have this form, and a line feed after a selector is overlooked.
-/

namespace RefinetPillars

namespace GopherholeNamespaces

open HexText LineText KeyRecovery ContentSigning JsonText GopherholeRecord
  GopherholeRegistry

section Definitions

/-- A slug, or one below the start of the PID, and nothing else. -/
def InNamespace (pid selector : Text) : Prop :=
  ∃ slug, isSlug slug = true ∧
    (selector = holesPrefix ++ slug ∨
      selector = holesPrefix ++ (pid.take 16 ++ '/' :: slug))

/-- A selector under which the Pillar may create a gopherhole. -/
structure Owned (pid selector : Text) : Prop where
  valid : validateSelector selector pid = .ok ()
  inNamespace : InNamespace pid selector

/-- The pattern matches the selector up to its end. -/
structure Matches (selector : Text) : Prop where
  isSome : (matchSelector selector).isSome = true
  toTheEnd : selector.getLast? ≠ some (Char.ofNat 10)

variable (scheme : Scheme) (floatRepr : Text → Text)
  (realText : Text → Option Text)

/-- The records that are accepted, and the rows that come from peers, are owned
exactly when their selectors match the pattern. -/
structure OwnedIfMatching : Prop where
  accepted : ∀ record pid selector,
    verifyGopherholeSignature scheme record = some true →
    record.get "pid".toList = some (.str pid) →
    record.get "selector".toList = some (.str selector) →
    (Owned pid selector ↔ Matches selector)
  imported : ∀ admitted peerPid today answer registry,
    ∀ row ∈ (syncPeerRegistry scheme floatRepr realText admitted peerPid today
      answer registry).1.rows, row ∉ registry.rows →
      (Owned row.pid row.selector ↔ Matches row.selector)

end Definitions

section Selectors

variable {pid selector rest : Text} {found : Option Text}

theorem withoutFinalLineFeed_eq
    (toTheEnd : (holesPrefix ++ rest).getLast? ≠ some (Char.ofNat 10)) :
    withoutFinalLineFeed rest = rest := by
  rw [withoutFinalLineFeed, if_neg]
  intro ends
  rw [List.getLast?_append, ends] at toTheEnd
  exact toTheEnd rfl

/-- What the pattern matches up to its end is a slug, perhaps below a
namespace. -/
theorem inNamespace_of_matchSlug (matched : matchSlug rest = some found)
    (own : ownNamespace pid found = true) :
    InNamespace pid (holesPrefix ++ rest) := by
  rw [matchSlug] at matched
  split at matched
  next slug => exact ⟨rest, slug, .inl rfl⟩
  next =>
    split at matched
    next namespaced =>
      obtain ⟨-, -, slash, slug⟩ := namespaced
      obtain rfl := Option.some.inj matched
      obtain ⟨bound, isSlash⟩ := List.getElem?_eq_some_iff.mp slash
      have start : rest.take 16 = pid.take 16 := by
        simpa [ownNamespace] using own
      refine ⟨rest.drop 17, slug, .inr ?_⟩
      rw [← start, ← isSlash, ← List.drop_eq_getElem_cons bound,
        List.take_append_drop]
    next => cases matched

theorem validateSelector_eq_ok (matched : matchSelector selector = some found)
    (own : ownNamespace pid found = true) :
    validateSelector selector pid = .ok () := by
  rw [validateSelector, matched]
  exact if_pos own

theorem InNamespace.toTheEnd (inNamespace : InNamespace pid selector) :
    selector.getLast? ≠ some (Char.ofNat 10) := by
  obtain ⟨slug, isSlug, isSelector⟩ := inNamespace
  simp only [GopherholeRecord.isSlug, Bool.and_eq_true, decide_eq_true_eq]
    at isSlug
  obtain ⟨⟨nonempty, -⟩, characters⟩ := isSlug
  have ends : selector.getLast? = slug.getLast? := by
    have hasLast : slug ≠ [] := List.length_pos_iff.mp nonempty
    obtain ⟨last, isLast⟩ := Option.ne_none_iff_exists'.mp
      (mt List.getLast?_eq_none_iff.mp hasLast)
    rcases isSelector with rfl | rfl <;>
      simp [List.getLast?_append, List.getLast?_cons, isLast]
  rw [ends]
  intro isLast
  exact absurd (List.all_eq_true.mp characters _ (List.mem_of_getLast? isLast))
    (by decide)

/-- A selector that is not in a foreign namespace, as far as the pattern tells,
is owned exactly when it matches. -/
theorem owned_iff_matches
    (own : (matchSelector selector).all (ownNamespace pid) = true) :
    Owned pid selector ↔ Matches selector := by
  constructor
  · intro owned
    obtain ⟨found, matched⟩ := exists_matchSelector owned.valid
    exact ⟨by rw [matched]; rfl, owned.inNamespace.toTheEnd⟩
  · rintro ⟨isSome, toTheEnd⟩
    obtain ⟨found, matched⟩ := Option.isSome_iff_exists.mp isSome
    rw [matched, Option.all_some] at own
    refine ⟨validateSelector_eq_ok matched own, ?_⟩
    rw [matchSelector] at matched
    split at matched
    next starts =>
      obtain ⟨rest, rfl⟩ := List.isPrefixOf_iff_prefix.mp starts
      rw [List.drop_left, withoutFinalLineFeed_eq toTheEnd] at matched
      exact inNamespace_of_matchSlug matched own
    next => cases matched

end Selectors

section Records

variable {scheme : Scheme} {floatRepr : Text → Text}
  {realText : Text → Option Text}

theorem ownNamespace_of_verified {record : Json} {pid selector : Text}
    (verified : verifyGopherholeSignature scheme record = some true)
    (getPid : record.get "pid".toList = some (.str pid))
    (getSelector : record.get "selector".toList = some (.str selector)) :
    (matchSelector selector).all (ownNamespace pid) = true := by
  obtain ⟨otherPid, -, otherSelector, -, -, -, hasPid, -, hasSelector, -, -, -,
    own, -⟩ := verifyGopherholeSignature_eq_some_true verified
  rw [getPid, Option.some.injEq, Json.str.injEq] at hasPid
  rw [getSelector, Option.some.injEq, Json.str.injEq] at hasSelector
  rw [hasPid, hasSelector]
  exact own

/-- The row of a record that verifies names its PID and its selector. -/
theorem ownNamespace_of_row {hole : Json} {row : Row} {peerPid today : Text}
    (verified : verifyGopherholeSignature scheme hole = some true)
    (made : ((registrationOf peerPid hole).dated today).row realText scheme =
      .ok row) :
    (matchSelector row.selector).all (ownNamespace row.pid) = true := by
  obtain ⟨pid, -, selector, -, -, -, getPid, -, getSelector, -, -, -, own, -⟩ :=
    verifyGopherholeSignature_eq_some_true verified
  obtain ⟨pidText, selectorText, -, -⟩ := row_eq_ok made
  have pidField : field hole "pid" = .str pid := by
    rw [field, getPid, Option.getD_some]
  have selectorField : field hole "selector" = .str selector := by
    rw [field, getSelector, Option.getD_some]
  rw [dated_pid, registrationOf, pidField] at pidText
  rw [dated_selector, registrationOf, selectorField] at selectorText
  rw [← Option.some.inj (Except.ok.inj pidText),
    ← Option.some.inj (Except.ok.inj selectorText)]
  exact own

theorem ownedIfMatching (scheme : Scheme) (floatRepr : Text → Text)
    (realText : Text → Option Text) :
    OwnedIfMatching scheme floatRepr realText := by
  constructor
  · intro record pid selector verified getPid getSelector
    exact owned_iff_matches
      (ownNamespace_of_verified verified getPid getSelector)
  · intro admitted peerPid today answer registry row member fresh
    have known : ∀ row ∈ (syncPeerRegistry scheme floatRepr realText admitted
        peerPid today answer registry).1.rows, row ∉ registry.rows →
        (matchSelector row.selector).all (ownNamespace row.pid) = true := by
      apply syncPeerRegistry_rows
      · intro row isOld isNew
        exact absurd isOld isNew
      · intro holes items _ _ hole _ verified row made _
        exact ownNamespace_of_row verified made
    exact owned_iff_matches (known row member fresh)

end Records

section Foreign

/-- A selector in the namespace of somebody else, with a dot in its slug. -/
def foreignSelector : Text := "/holes/0123456789abcdef/a.b".toList

/-- The pattern overlooks a line feed. -/
example : matchSelector ("/holes/a".toList ++ [Char.ofNat 10]) = some none := by
  decide

def foreignRecord : Json :=
  .obj [("pid".toList, .str (toHex (Sha256.sha256 [7]))),
    ("pubkey_hex".toList, .str (toHex [7])),
    ("selector".toList, .str foreignSelector), ("name".toList, .str ['n']),
    ("registered_at".toList, .str "2025-01-01".toList),
    ("signature".toList, .str (toHex []))]

/-- The scheme in which the key has signed the record. -/
abbrev foreignScheme : Scheme :=
  ledgerScheme Sha256.sha256 [([7], encodeUtf8 (signingPayload
    (toHex (Sha256.sha256 [7])) foreignSelector ['n'] "2025-01-01".toList))]

theorem not_owned :
    verifyGopherholeSignature foreignScheme foreignRecord = some true ∧
      ¬ Owned (toHex (Sha256.sha256 [7])) foreignSelector := by
  have unmatched : matchSelector foreignSelector = none := by decide +kernel
  constructor
  · exact verifyGopherholeSignature_of_texts rfl rfl rfl rfl rfl rfl
      (pidMatchesKey_toHex [7]) (by rw [unmatched]; rfl)
      (verifySignature_ledgerScheme List.mem_cons_self [])
  · intro owned
    obtain ⟨found, matched⟩ := exists_matchSelector owned.valid
    rw [unmatched] at matched
    cases matched

end Foreign

end GopherholeNamespaces

end RefinetPillars
