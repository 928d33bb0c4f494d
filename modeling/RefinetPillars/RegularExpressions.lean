import Mathlib

/-!
# Regular expressions

Expressions with anchors, bounded repetition and look-ahead, and what they leave
of a text.  An expression matches if there is some way to read the text by it, in
whatever order the ways are tried.
-/

namespace RefinetPillars

namespace RegularExpressions

/-- A repetition is bounded below and perhaps above. -/
inductive Regex where
  | start
  | stop
  | character (allowed : Char → Bool)
  | seq (first second : Regex)
  | repeated (body : Regex) (least : Nat) (most : Option Nat)
  | lookahead (body : Regex)

namespace Regex

def lineFeed : Char := Char.ofNat 10

/-- A relation taken some times. -/
def Iterated {State : Type} (step : State → State → Prop) :
    Nat → State → State → Prop
  | 0, before, after => before = after
  | count + 1, before, after =>
      ∃ between, step before between ∧ Iterated step count between after

/-- The expression may read the text up to what is left.  The stop is at the end
of the text or at a line feed that ends it. -/
def Reads (whole : List Char) : Regex → List Char → List Char → Prop
  | .start, rest, left => rest = whole ∧ rest = left
  | .stop, rest, left => (rest = [] ∨ rest = [lineFeed]) ∧ rest = left
  | .character allowed, rest, left =>
      ∃ next, allowed next = true ∧ rest = next :: left
  | .seq first second, rest, left =>
      ∃ between, Reads whole first rest between ∧
        Reads whole second between left
  | .repeated body least most, rest, left =>
      ∃ count, least ≤ count ∧ (∀ bound ∈ most, count ≤ bound) ∧
        Iterated (Reads whole body) count rest left
  | .lookahead body, rest, left =>
      (∃ after, Reads whole body rest after) ∧ rest = left

/-- `Pattern.match`: the expression reads a start of the text. -/
def Matches (regex : Regex) (text : List Char) : Prop :=
  ∃ left, Reads text regex text left

/-- `Pattern.fullmatch`: the expression reads the whole text. -/
def FullMatches (regex : Regex) (text : List Char) : Prop :=
  Reads text regex text []

def optional (body : Regex) : Regex := .repeated body 0 (some 1)

def oneOrMore (body : Regex) : Regex := .repeated body 1 none

section Rules

variable {whole rest left : List Char} {allowed : Char → Bool}

/-- Repeated characters are a stretch of the text. -/
theorem iterated_character_iff {count : Nat} :
    Iterated (Reads whole (.character allowed)) count rest left ↔
      ∃ read, rest = read ++ left ∧ read.length = count ∧
        ∀ character ∈ read, allowed character = true := by
  induction count generalizing rest with
  | zero =>
      constructor
      · rintro rfl
        exact ⟨[], rfl, rfl, nofun⟩
      · rintro ⟨read, rfl, empty, -⟩
        rw [List.length_eq_zero_iff.mp empty]
        rfl
  | succ count ih =>
      constructor
      · rintro ⟨between, ⟨next, nextAllowed, rfl⟩, later⟩
        obtain ⟨read, rfl, rfl, readAllowed⟩ := ih.mp later
        refine ⟨next :: read, rfl, rfl, ?_⟩
        intro character member
        rcases List.mem_cons.mp member with rfl | inRead
        · exact nextAllowed
        · exact readAllowed character inRead
      · rintro ⟨read, rfl, length, readAllowed⟩
        cases read with
        | nil => cases length
        | cons next read =>
            refine ⟨read ++ left, ⟨next, readAllowed next (by simp), rfl⟩,
              ih.mpr ⟨read, rfl, Nat.succ.inj length, ?_⟩⟩
            exact fun character member => readAllowed character (by simp [member])

theorem reads_repeated_character_iff {least : Nat} {most : Option Nat} :
    Reads whole (.repeated (.character allowed) least most) rest left ↔
      ∃ read, rest = read ++ left ∧ least ≤ read.length ∧
        (∀ bound ∈ most, read.length ≤ bound) ∧
        ∀ character ∈ read, allowed character = true := by
  constructor
  · rintro ⟨_, enough, bounded, iterated⟩
    obtain ⟨read, split, rfl, allAllowed⟩ := iterated_character_iff.mp iterated
    exact ⟨read, split, enough, bounded, allAllowed⟩
  · rintro ⟨read, split, enough, bounded, allAllowed⟩
    exact ⟨_, enough, bounded,
      iterated_character_iff.mpr ⟨read, split, rfl, allAllowed⟩⟩

theorem reads_optional_iff {body : Regex} :
    Reads whole body.optional rest left ↔
      rest = left ∨ Reads whole body rest left := by
  simp only [optional, Reads]
  constructor
  · rintro ⟨count, -, bounded, iterated⟩
    match count, bounded 1 rfl, iterated with
    | 0, _, same => exact Or.inl same
    | 1, _, ⟨_, read, rfl⟩ => exact Or.inr read
  · rintro (same | read)
    · exact ⟨0, le_rfl, fun _ _ => Nat.zero_le _, same⟩
    · exact ⟨1, Nat.zero_le _, by rintro bound ⟨⟩; exact le_rfl, left, read, rfl⟩

/-- What is read some times of a body that reads pieces of some kind. -/
theorem iterated_pieces_iff {Piece : Type} {body : Regex}
    {text : Piece → List Char} {IsPiece : Piece → Prop}
    (reads : ∀ rest left, Reads whole body rest left ↔
      ∃ piece, IsPiece piece ∧ rest = text piece ++ left) {count : Nat} :
    Iterated (Reads whole body) count rest left ↔
      ∃ pieces : List Piece, pieces.length = count ∧
        (∀ piece ∈ pieces, IsPiece piece) ∧
        rest = pieces.flatMap text ++ left := by
  induction count generalizing rest with
  | zero =>
      constructor
      · rintro rfl
        exact ⟨[], rfl, nofun, rfl⟩
      · rintro ⟨pieces, empty, -, rfl⟩
        rw [List.length_eq_zero_iff.mp empty]
        rfl
  | succ count ih =>
      constructor
      · rintro ⟨between, first, later⟩
        obtain ⟨piece, isPiece, rfl⟩ := (reads _ _).mp first
        obtain ⟨pieces, rfl, arePieces, rfl⟩ := ih.mp later
        refine ⟨piece :: pieces, rfl, ?_, by simp⟩
        exact List.forall_mem_cons.mpr ⟨isPiece, arePieces⟩
      · rintro ⟨pieces, length, arePieces, rfl⟩
        cases pieces with
        | nil => cases length
        | cons piece pieces =>
            obtain ⟨isPiece, others⟩ := List.forall_mem_cons.mp arePieces
            exact ⟨pieces.flatMap text ++ left,
              (reads _ _).mpr ⟨piece, isPiece, by simp⟩,
              ih.mpr ⟨pieces, Nat.succ.inj length, others, rfl⟩⟩

theorem reads_oneOrMore_pieces_iff {Piece : Type} {body : Regex}
    {text : Piece → List Char} {IsPiece : Piece → Prop}
    (reads : ∀ rest left, Reads whole body rest left ↔
      ∃ piece, IsPiece piece ∧ rest = text piece ++ left) :
    Reads whole body.oneOrMore rest left ↔
      ∃ pieces : List Piece, pieces ≠ [] ∧
        (∀ piece ∈ pieces, IsPiece piece) ∧
        rest = pieces.flatMap text ++ left := by
  constructor
  · rintro ⟨_, enough, -, iterated⟩
    obtain ⟨pieces, rfl, arePieces, split⟩ :=
      (iterated_pieces_iff reads).mp iterated
    exact ⟨pieces, List.ne_nil_of_length_pos enough, arePieces, split⟩
  · rintro ⟨pieces, nonempty, arePieces, split⟩
    exact ⟨_, List.length_pos_iff.mpr nonempty, nofun,
      (iterated_pieces_iff reads).mpr ⟨pieces, rfl, arePieces, split⟩⟩

end Rules

end Regex

end RegularExpressions

end RefinetPillars
