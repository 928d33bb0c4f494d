import Mathlib

/-!
# Gopher URLs in the extension

A selector, a host, a port and an item type are made into a URL, and a URL is
taken apart again.  Strings are lists of UTF-16 code units.
-/

namespace RefinetPillars

namespace GopherUrls

abbrev JsString := List UInt16

/-- A literal of ASCII characters. -/
def literal (text : String) : JsString :=
  text.toList.map fun character => UInt16.ofNat character.toNat

def slash : UInt16 := 47

def colon : UInt16 := 58

section Definitions

def isHostUnit (unit : UInt16) : Bool := unit ≠ slash && unit ≠ colon

/-- `\d` of a regular expression. -/
def isDigit (unit : UInt16) : Bool := 48 ≤ unit && unit ≤ 57

/-- What `.` of a regular expression does not match. -/
def isLineTerminator (unit : UInt16) : Bool :=
  unit ∈ [10, 13, 0x2028, 0x2029]

/-- The groups of a match. -/
structure Groups where
  host : JsString
  port : Option JsString
  path : Option JsString

/-- `(\/.*)?$`. -/
def matchPath : JsString → Option (Option JsString)
  | [] => some none
  | first :: rest =>
      if first = slash ∧ rest.all fun unit => !isLineTerminator unit then
        some (some (first :: rest))
      else none

/-- `(?::(\d+))?(\/.*)?$`. -/
def matchPort : JsString → Option (Option JsString × Option JsString)
  | [] => some (none, none)
  | first :: rest =>
      if first = colon then
        if rest.takeWhile isDigit = [] then none
        else
          (matchPath (rest.dropWhile isDigit)).map fun path =>
            (some (rest.takeWhile isDigit), path)
      else (matchPath (first :: rest)).map fun path => (none, path)

/-- `^gopher:\/\/([^/:]+)(?::(\d+))?(\/.*)?$`. -/
def matchUrl (url : JsString) : Option Groups :=
  if (literal "gopher://").isPrefixOf url then
    let rest := url.drop 9
    if rest.takeWhile isHostUnit = [] then none
    else
      (matchPort (rest.dropWhile isHostUnit)).map fun (port, path) =>
        ⟨rest.takeWhile isHostUnit, port, path⟩
  else none

/-- `parseInt` of digits, in base ten. -/
def parseInt (digits : JsString) : Nat :=
  digits.foldl (fun value unit => 10 * value + (unit.toNat - 48)) 0

/-- What a URL names. -/
structure Location where
  host : JsString
  port : Nat
  type : JsString
  selector : JsString
deriving DecidableEq

/-- `value || fallback` of a string. -/
def orElse (value fallback : JsString) : JsString :=
  if value = [] then fallback else value

def withSlash (selector : JsString) : JsString :=
  if selector.head? = some slash then selector else slash :: selector

def gopherUrlToSelector (url : JsString) : Option Location :=
  (matchUrl url).map fun groups =>
    let port := (groups.port.map parseInt).getD 70
    match groups.path.getD [slash] with
    | _ :: type :: selector =>
        ⟨groups.host, port, [type], withSlash (orElse selector [slash])⟩
    | _ => ⟨groups.host, port, literal "1", [slash]⟩

/-- A number as a string. -/
def decimal (number : Nat) : JsString :=
  if number = 0 then literal "0"
  else (Nat.digits 10 number).reverse.map fun digit => UInt16.ofNat (48 + digit)

def withoutSlash (selector : JsString) : JsString :=
  if selector.head? = some slash then selector.drop 1 else selector

/-- A missing type is the empty string, a missing port is zero. -/
def selectorToGopherUrl (selector host : JsString) (port : Nat)
    (type : JsString) : JsString :=
  let type := orElse type (literal "1")
  let port := if port = 0 then 70 else port
  let portStr := if port = 70 then [] else colon :: decimal port
  literal "gopher://" ++ host ++ portStr ++ slash :: type ++
    withoutSlash selector

end Definitions

section Matching

variable {url host rest : JsString} {groups : Groups}

def portText (port : Option JsString) : JsString :=
  (port.map fun digits => colon :: digits).getD []

/-- The parts of a URL as the expression describes them. -/
structure IsMatch (url : JsString) (groups : Groups) : Prop where
  whole : url = literal "gopher://" ++ groups.host ++ portText groups.port ++
    groups.path.getD []
  host_ne : groups.host ≠ []
  host_plain : groups.host.all isHostUnit = true
  port_digits : ∀ digits ∈ groups.port,
    digits ≠ [] ∧ digits.all isDigit = true
  path_plain : ∀ path ∈ groups.path, ∃ rest, path = slash :: rest ∧
    ∀ unit ∈ rest, isLineTerminator unit = false

theorem matchPath_eq_some {path : Option JsString} :
    matchPath rest = some path ↔
      rest = path.getD [] ∧ ∀ text ∈ path, ∃ tail, text = slash :: tail ∧
        ∀ unit ∈ tail, isLineTerminator unit = false := by
  cases rest with
  | nil =>
      rw [matchPath]
      constructor
      · rintro ⟨⟩
        exact ⟨rfl, nofun⟩
      · rintro ⟨empty, plain⟩
        cases path with
        | none => rfl
        | some text =>
            obtain ⟨tail, rfl, -⟩ := plain text rfl
            cases empty
  | cons first tail =>
      rw [matchPath]
      constructor
      · intro found
        split at found
        next isPath =>
          obtain rfl := Option.some.inj found
          refine ⟨rfl, ?_⟩
          rintro _ ⟨⟩
          refine ⟨tail, by rw [isPath.1], fun unit member => ?_⟩
          simpa using List.all_eq_true.mp isPath.2 unit member
        · cases found
      · rintro ⟨whole, plain⟩
        cases path with
        | none => cases whole
        | some text =>
            obtain ⟨other, rfl, clean⟩ := plain text rfl
            obtain ⟨rfl, rfl⟩ := List.cons.inj whole
            exact if_pos ⟨rfl, List.all_eq_true.mpr fun unit member => by
              simp [clean unit member]⟩

/-- A run of units that a test accepts ends where another one follows. -/
theorem span_append {accepts : UInt16 → Bool} {front : JsString}
    (back : JsString) (accepted : front.all accepts = true)
    (stops : ∀ unit ∈ back.head?, accepts unit = false) :
    (front ++ back).takeWhile accepts = front ∧
      (front ++ back).dropWhile accepts = back := by
  have each := List.all_eq_true.mp accepted
  rw [List.takeWhile_append_of_pos each, List.dropWhile_append_of_pos each]
  cases back with
  | nil => simp
  | cons first rest =>
      have stop := stops first rfl
      simp [stop]

theorem head_path {path : Option JsString}
    (plain : ∀ text ∈ path, ∃ tail, text = slash :: tail ∧
      ∀ unit ∈ tail, isLineTerminator unit = false) :
    ∀ unit ∈ (path.getD []).head?, unit = slash := by
  cases path with
  | none => exact nofun
  | some text =>
      obtain ⟨tail, rfl, -⟩ := plain text rfl
      rintro _ ⟨⟩
      rfl

theorem matchPort_eq_some {port path : Option JsString} :
    matchPort rest = some (port, path) ↔
      rest = portText port ++ path.getD [] ∧
      (∀ digits ∈ port, digits ≠ [] ∧ digits.all isDigit = true) ∧
      ∀ text ∈ path, ∃ tail, text = slash :: tail ∧
        ∀ unit ∈ tail, isLineTerminator unit = false := by
  constructor
  · intro found
    cases rest with
    | nil =>
        obtain ⟨rfl, rfl⟩ := Prod.mk.inj (Option.some.inj found)
        exact ⟨rfl, nofun, nofun⟩
    | cons first tail =>
        rw [matchPort] at found
        split at found
        next isColon =>
          split at found
          · cases found
          next nonempty =>
            obtain ⟨other, pathFound, same⟩ := Option.map_eq_some_iff.mp found
            obtain ⟨rfl, rfl⟩ := Prod.mk.inj same
            obtain ⟨left, plain⟩ := matchPath_eq_some.mp pathFound
            refine ⟨?_, ?_, plain⟩
            · rw [← left, isColon]
              simp [portText]
            · rintro _ ⟨⟩
              exact ⟨nonempty, List.all_takeWhile⟩
        next notColon =>
          obtain ⟨other, pathFound, same⟩ := Option.map_eq_some_iff.mp found
          obtain ⟨rfl, rfl⟩ := Prod.mk.inj same
          obtain ⟨left, plain⟩ := matchPath_eq_some.mp pathFound
          exact ⟨left, nofun, plain⟩
  · rintro ⟨rfl, digits, plain⟩
    have pathFound : matchPath (path.getD []) = some path :=
      matchPath_eq_some.mpr ⟨rfl, plain⟩
    have starts := head_path plain
    cases port with
    | none =>
        rw [portText, Option.map_none, Option.getD_none, List.nil_append]
        cases spelled : path.getD [] with
        | nil =>
            rw [spelled] at pathFound
            obtain rfl := Option.some.inj pathFound
            rfl
        | cons first tail =>
            rw [spelled] at pathFound starts
            obtain rfl := starts first rfl
            rw [matchPort, if_neg (by decide), pathFound]
            rfl
    | some text =>
        obtain ⟨nonempty, allDigits⟩ := digits text rfl
        obtain ⟨taken, dropped⟩ := span_append (path.getD []) allDigits
          (fun unit member => starts unit member ▸ rfl)
        rw [portText, Option.map_some, Option.getD_some, List.cons_append,
          matchPort, if_pos rfl, taken, dropped, if_neg nonempty, pathFound]
        rfl

theorem head_portText {port path : Option JsString}
    (plain : ∀ text ∈ path, ∃ tail, text = slash :: tail ∧
      ∀ unit ∈ tail, isLineTerminator unit = false) :
    ∀ unit ∈ (portText port ++ path.getD []).head?,
      isHostUnit unit = false := by
  cases port with
  | none =>
      intro unit member
      rw [head_path plain unit member]
      rfl
  | some digits =>
      rintro _ ⟨⟩
      rfl

theorem drop_scheme (rest : JsString) :
    (literal "gopher://" ++ rest).drop 9 = rest :=
  List.drop_left' (by decide)

/-- The groups are those that the expression describes, and there is only one
choice of them. -/
theorem matchUrl_eq_some : matchUrl url = some groups ↔ IsMatch url groups := by
  constructor
  · intro found
    unfold matchUrl at found
    split at found
    next starts =>
      obtain ⟨rest, rfl⟩ := List.isPrefixOf_iff_prefix.mp starts
      dsimp only at found
      rw [drop_scheme] at found
      split at found
      · cases found
      next nonempty =>
        obtain ⟨⟨port, path⟩, matched, rfl⟩ := Option.map_eq_some_iff.mp found
        obtain ⟨left, digits, plain⟩ := matchPort_eq_some.mp matched
        refine ⟨?_, nonempty, List.all_takeWhile, digits, plain⟩
        rw [List.append_assoc, List.append_assoc, ← left,
          List.takeWhile_append_dropWhile]
    · cases found
  · rintro ⟨whole, nonempty, hostUnits, digits, plain⟩
    obtain ⟨taken, dropped⟩ := span_append
      (portText groups.port ++ groups.path.getD []) hostUnits
      (head_portText plain)
    have matched : matchPort (portText groups.port ++ groups.path.getD []) =
        some (groups.port, groups.path) :=
      matchPort_eq_some.mpr ⟨rfl, digits, plain⟩
    rw [whole, List.append_assoc, List.append_assoc, matchUrl, if_pos (by simp)]
    dsimp only
    rw [drop_scheme, taken, dropped, if_neg nonempty, matched]
    rfl

end Matching

section Numbers

theorem parseInt_reverse (digits : List Nat)
    (small : ∀ digit ∈ digits, digit < 10) :
    parseInt (digits.reverse.map fun digit => UInt16.ofNat (48 + digit)) =
      Nat.ofDigits 10 digits := by
  induction digits with
  | nil => rfl
  | cons digit digits ih =>
      have isDigit := small digit List.mem_cons_self
      have others := ih fun other member => small other (by simp [member])
      have value : (UInt16.ofNat (48 + digit)).toNat = 48 + digit := by
        rw [UInt16.toNat_ofNat']
        omega
      rw [parseInt] at others
      rw [parseInt, List.reverse_cons, List.map_append, List.foldl_append,
        others, List.map_singleton, List.foldl_cons, List.foldl_nil, value,
        Nat.ofDigits_cons]
      exact (Nat.add_comm _ _).trans (by simp)

@[simp]
theorem parseInt_decimal (number : Nat) : parseInt (decimal number) = number := by
  rw [decimal]
  split
  next zero =>
    subst zero
    rfl
  next =>
    rw [parseInt_reverse _ fun digit member =>
      Nat.digits_lt_base (by omega) member, Nat.ofDigits_digits]

theorem decimal_ne_nil (number : Nat) : decimal number ≠ [] := by
  rw [decimal]
  split
  next => decide
  next positive =>
    simpa using Nat.digits_ne_nil_iff_ne_zero.mpr positive

theorem all_isDigit_decimal (number : Nat) :
    (decimal number).all isDigit = true := by
  rw [decimal]
  split
  next => decide
  next =>
    rw [List.all_eq_true]
    intro unit member
    obtain ⟨digit, isDigit, rfl⟩ := List.mem_map.mp member
    have small : digit < 10 :=
      Nat.digits_lt_base (by omega) (List.mem_reverse.mp isDigit)
    have checked : ∀ digit : Fin 10,
        GopherUrls.isDigit (UInt16.ofNat (48 + (digit : Nat))) = true := by
      decide
    exact checked ⟨digit, small⟩

end Numbers

section RoundTrip

variable {selector host : JsString} {port : Nat} {type : UInt16}

/-- How a selector comes back: with a slash in front, and with one slash fewer
if it starts with two. -/
def cameBack (selector : JsString) : JsString :=
  if [slash, slash].isPrefixOf selector then selector.drop 1
  else withSlash selector

theorem withSlash_withoutSlash (selector : JsString) :
    withSlash (orElse (withoutSlash selector) [slash]) = cameBack selector := by
  cases selector with
  | nil => rfl
  | cons first rest =>
      by_cases isSlash : first = slash
      · subst isSlash
        cases rest with
        | nil => rfl
        | cons second rest =>
            by_cases again : second = slash
            · subst again
              simp [withSlash, orElse, withoutSlash, cameBack]
            · simp [withSlash, orElse, withoutSlash, cameBack, again,
                Ne.symm again]
      · simp [withSlash, orElse, withoutSlash, cameBack, isSlash,
          Ne.symm isSlash]

/-- What a URL is taken apart into when it has been made of parts. -/
theorem gopherUrlToSelector_selectorToGopherUrl (host_ne : host ≠ [])
    (host_plain : slash ∉ host ∧ colon ∉ host) (isPort : 1 ≤ port ∧ port ≤ 65535)
    (type_plain : isLineTerminator type = false)
    (selector_plain : ∀ unit ∈ selector, isLineTerminator unit = false) :
    gopherUrlToSelector (selectorToGopherUrl selector host port [type]) =
      some ⟨host, port, [type], cameBack selector⟩ := by
  have matched : IsMatch (selectorToGopherUrl selector host port [type])
      ⟨host, if port = 70 then none else some (decimal port),
        some (slash :: type :: withoutSlash selector)⟩ := by
    refine ⟨?_, host_ne, ?_, ?_, ?_⟩
    · simp only [selectorToGopherUrl, orElse, if_neg (List.cons_ne_nil _ _),
        if_neg (Nat.one_le_iff_ne_zero.mp isPort.1)]
      by_cases standard : port = 70 <;> simp [standard, portText]
    · rw [List.all_eq_true]
      rintro unit member
      have notSlash : unit ≠ slash := fun same => host_plain.1 (same ▸ member)
      have notColon : unit ≠ colon := fun same => host_plain.2 (same ▸ member)
      simp [isHostUnit, notSlash, notColon]
    · intro digits isPort
      by_cases standard : port = 70
      · simp [standard] at isPort
      · rw [if_neg standard] at isPort
        obtain rfl := Option.some.inj isPort
        exact ⟨decimal_ne_nil port, all_isDigit_decimal port⟩
    · rintro _ ⟨⟩
      refine ⟨_, rfl, fun unit member => ?_⟩
      rcases List.mem_cons.mp member with rfl | inSelector
      · exact type_plain
      · refine selector_plain unit ?_
        rw [withoutSlash] at inSelector
        split at inSelector
        · exact List.mem_of_mem_drop inSelector
        · exact inSelector
  rw [gopherUrlToSelector, matchUrl_eq_some.mpr matched, Option.map_some,
    ← withSlash_withoutSlash]
  by_cases standard : port = 70 <;> simp [standard]

theorem gopherUrlToSelector_selectorToGopherUrl_local :
    gopherUrlToSelector (selectorToGopherUrl (literal "/about")
      (literal "localhost") 7070 [49]) =
      some ⟨literal "localhost", 7070, [49], cameBack (literal "/about")⟩ := by
  have plain : (literal "/about").all (fun unit => !isLineTerminator unit) =
      true := by decide
  exact gopherUrlToSelector_selectorToGopherUrl (by decide) (by decide)
    (by omega) (by decide) fun unit member => by
      simpa using List.all_eq_true.mp plain unit member

/-- A selector comes back as it is if it starts with exactly one slash. -/
theorem cameBack_eq_self_iff :
    cameBack selector = selector ↔
      selector.head? = some slash ∧ ¬ [slash, slash] <+: selector := by
  rw [cameBack, withSlash]
  split
  next found =>
    have doubled := List.isPrefixOf_iff_prefix.mp found
    refine iff_of_false (fun same => ?_) fun single => single.2 doubled
    have lengths := congrArg List.length same
    have long := doubled.length_le
    simp only [List.length_drop, List.length_cons, List.length_nil]
      at lengths long
    omega
  next missing =>
    have single := missing ∘ List.isPrefixOf_iff_prefix.mpr
    split
    next starts => exact iff_of_true rfl ⟨starts, single⟩
    next plain =>
      refine iff_of_false (fun same => ?_) fun starts => plain starts.1
      have lengths := congrArg List.length same
      simp at lengths

/-- A selector without a slash comes back with one, and a slash is lost of
two. -/
theorem selectors_changed :
    gopherUrlToSelector (selectorToGopherUrl (literal "URL:http://a.example")
      (literal "localhost") 70 (literal "h")) =
      some ⟨literal "localhost", 70, literal "h",
        literal "/URL:http://a.example"⟩ ∧
    gopherUrlToSelector (selectorToGopherUrl (literal "//a")
      (literal "localhost") 70 (literal "1")) =
      some ⟨literal "localhost", 70, literal "1", literal "/a"⟩ := by
  constructor <;> decide

end RoundTrip

end GopherUrls

end RefinetPillars
