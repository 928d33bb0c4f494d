import RefinetPillars.HexText

/-!
# Lines and fields of texts

The text operations that parsers of labelled lines are made of: splitting into
lines, trimming, removing a substring and looking for the line with a label.
-/

namespace RefinetPillars

namespace LineText

open HexText

/-- The characters that end a line. -/
def isLineBreak (character : Char) : Bool :=
  character.toNat ∈ [10, 11, 12, 13, 28, 29, 30, 133, 8232, 8233]

/-- The lines of a text of which `line` has been read already; a carriage
return and a line feed end one line. -/
def linesFrom (line : Text) : Text → List Text
  | [] => if line = [] then [] else [line]
  | [last] => if isLineBreak last then [line] else [line ++ [last]]
  | first :: second :: rest =>
      if first.toNat = 13 ∧ second.toNat = 10 then line :: linesFrom [] rest
      else if isLineBreak first then line :: linesFrom [] (second :: rest)
      else linesFrom (line ++ [first]) (second :: rest)

/-- `str.splitlines`. -/
def splitLines (text : Text) : List Text := linesFrom [] text

/-- The characters that `str.strip` removes. -/
def isSpace (character : Char) : Bool :=
  let code := character.toNat
  (9 ≤ code && code ≤ 13) || (28 ≤ code && code ≤ 32) || code = 133 ||
    code = 160 || code = 5760 || (8192 ≤ code && code ≤ 8202) ||
    code = 8232 || code = 8233 || code = 8239 || code = 8287 || code = 12288

/-- `str.strip`. -/
def strip (text : Text) : Text :=
  ((text.dropWhile isSpace).reverse.dropWhile isSpace).reverse

/-- Remove the occurrences of a text, after so many more characters of the one
that is being removed. -/
def removeFrom (removed : Text) : Nat → Text → Text
  | _, [] => []
  | skipped + 1, _ :: rest => removeFrom removed skipped rest
  | 0, character :: rest =>
      if removed.isPrefixOf (character :: rest) then
        removeFrom removed (removed.length - 1) rest
      else character :: removeFrom removed 0 rest

/-- `str.replace` of a nonempty text by the empty one. -/
def removeAll (removed text : Text) : Text := removeFrom removed 0 text

/-- The text after the first colon. -/
def afterColon (text : Text) : Text :=
  (text.dropWhile fun character => character ≠ ':').drop 1

/-- The text before the first colon. -/
def beforeColon (text : Text) : Text :=
  text.takeWhile fun character => character ≠ ':'

/-- The text before the first occurrence of a marker and the text after it. -/
def cutAt (marker : Text) : Text → Option (Text × Text)
  | [] => if marker = [] then some ([], []) else none
  | character :: rest =>
      if marker.isPrefixOf (character :: rest) then
        some ([], (character :: rest).drop marker.length)
      else
        (cutAt marker rest).map fun found =>
          (character :: found.1, found.2)

/-- The end of a line on the wire. -/
def crlf : Text := [Char.ofNat 13, Char.ofNat 10]

/-- The first line that starts with the label, without the label. -/
def labelled (label text : Text) : Option Text :=
  ((splitLines text).find? fun line => label.isPrefixOf line).map fun line =>
    strip (removeAll label line)

section Fields

/-- A field without the separator is read off a text. -/
theorem split_at_first {separator : Char} {first second rest otherRest : Text}
    (firstFree : separator ∉ first) (secondFree : separator ∉ second)
    (same : first ++ separator :: rest = second ++ separator :: otherRest) :
    first = second ∧ rest = otherRest := by
  induction first generalizing second with
  | nil =>
      cases second with
      | nil => exact ⟨rfl, (List.cons.inj same).2⟩
      | cons character second =>
          obtain ⟨rfl, -⟩ := List.cons.inj same
          simp at secondFree
  | cons character first ih =>
      cases second with
      | nil =>
          obtain ⟨rfl, -⟩ := List.cons.inj same
          simp at firstFree
      | cons other second =>
          obtain ⟨rfl, sameRest⟩ := List.cons.inj same
          obtain ⟨sameField, sameTail⟩ := ih
            (fun member => firstFree (List.mem_cons_of_mem _ member))
            (fun member => secondFree (List.mem_cons_of_mem _ member)) sameRest
          exact ⟨congrArg _ sameField, sameTail⟩

/-- So is a field after the last separator. -/
theorem split_at_last {separator : Char} {first second rest otherRest : Text}
    (restFree : separator ∉ rest) (otherFree : separator ∉ otherRest)
    (same : first ++ separator :: rest = second ++ separator :: otherRest) :
    first = second ∧ rest = otherRest := by
  have reversed := congrArg List.reverse same
  simp only [List.reverse_append, List.reverse_cons, List.append_assoc,
    List.singleton_append] at reversed
  obtain ⟨sameRest, sameFirst⟩ := split_at_first
    (fun member => restFree (List.mem_reverse.mp member))
    (fun member => otherFree (List.mem_reverse.mp member)) reversed
  exact ⟨List.reverse_injective sameFirst, List.reverse_injective sameRest⟩

end Fields

section Trimming

/-- Blanks after the last other character are trimmed away. -/
theorem strip_append_cons {last : Char} {blanks : Text}
    (kept : isSpace last = false)
    (blank : ∀ character ∈ blanks, isSpace character = true) (text : Text) :
    strip (text ++ last :: blanks) = text.dropWhile isSpace ++ [last] := by
  have front : (text ++ last :: blanks).dropWhile isSpace =
      text.dropWhile isSpace ++ last :: blanks := by
    rw [List.dropWhile_append]
    split
    next empty =>
      rw [List.isEmpty_iff.mp empty, List.nil_append,
        List.dropWhile_cons_of_neg (by simp [kept])]
    next => rfl
  have back : (blanks.reverse ++ last :: (text.dropWhile isSpace).reverse).dropWhile
      isSpace = last :: (text.dropWhile isSpace).reverse := by
    rw [List.dropWhile_append_of_pos
      (fun character member => blank character (List.mem_reverse.mp member)),
      List.dropWhile_cons_of_neg (by simp [kept])]
  rw [strip, front, List.reverse_append, List.reverse_cons, List.append_assoc,
    List.singleton_append, back, List.reverse_cons, List.reverse_reverse]

theorem strip_of_ends {first last : Char} (text : Text)
    (firstKept : isSpace first = false) (lastKept : isSpace last = false) :
    strip (first :: text ++ [last]) = first :: text ++ [last] := by
  rw [strip_append_cons lastKept (by simp),
    List.dropWhile_cons_of_neg (by simp [firstKept])]

theorem dropWhile_isSpace_of_head {text : Text}
    (starts : ∀ first ∈ text.head?, isSpace first = false) :
    text.dropWhile isSpace = text := by
  cases text with
  | nil => rfl
  | cons first text =>
      rw [List.dropWhile_cons_of_neg (by simp [starts first rfl])]

theorem isSpace_head_dropWhile {text : Text} {first : Char}
    (atHead : first ∈ (text.dropWhile isSpace).head?) :
    isSpace first = false := by
  have kept := List.head?_dropWhile_not isSpace text
  rw [Option.mem_def.mp atHead] at kept
  simpa using kept

/-- A text without blanks at its ends is trimmed to itself. -/
theorem strip_eq_self {text : Text}
    (starts : ∀ first ∈ text.head?, isSpace first = false)
    (ends : ∀ last ∈ text.getLast?, isSpace last = false) :
    strip text = text := by
  have fromEnd : text.reverse.dropWhile isSpace = text.reverse :=
    dropWhile_isSpace_of_head (by rwa [List.head?_reverse])
  rw [strip, dropWhile_isSpace_of_head starts, fromEnd, List.reverse_reverse]

/-- Trimming leaves the start of what was trimmed on the left. -/
theorem strip_prefix_dropWhile (text : Text) :
    strip text <+: text.dropWhile isSpace := by
  rw [← List.reverse_suffix, strip, List.reverse_reverse]
  exact List.dropWhile_suffix _

theorem strip_strip (text : Text) : strip (strip text) = strip text := by
  apply strip_eq_self
  · intro first atHead
    obtain ⟨rest, same⟩ := strip_prefix_dropWhile text
    apply isSpace_head_dropWhile
    rw [← same, List.head?_append, Option.mem_def.mp atHead]
    rfl
  · intro last atEnd
    rw [strip, List.getLast?_reverse] at atEnd
    exact isSpace_head_dropWhile atEnd

theorem mem_of_mem_strip {text : Text} {character : Char}
    (member : character ∈ strip text) : character ∈ text :=
  (List.dropWhile_suffix _).mem ((strip_prefix_dropWhile text).mem member)

end Trimming

section Dots

theorem removeAll_dots (text : Text) :
    removeAll ['.', '.'] ('.' :: '.' :: text) = removeAll ['.', '.'] text := by
  rw [removeAll, removeFrom, if_pos (by simp)]
  rfl

theorem removeAll_cons {character : Char} {text : Text}
    (single : ¬ ['.', '.'] <+: character :: text) :
    removeAll ['.', '.'] (character :: text) =
      character :: removeAll ['.', '.'] text := by
  rw [removeAll, removeFrom,
    if_neg fun starts => single (List.isPrefixOf_iff_prefix.mp starts)]
  rfl

/-- Removing pairs of dots leaves a dot in front only where one was. -/
theorem dot_prefix_of_removeAll {text : Text}
    (starts : ['.'] <+: removeAll ['.', '.'] text) : ['.'] <+: text := by
  cases text with
  | nil => exact starts
  | cons first rest =>
      by_cases dots : ['.', '.'] <+: first :: rest
      · exact List.IsPrefix.trans ⟨['.'], rfl⟩ dots
      · rw [removeAll_cons dots] at starts
        obtain ⟨rfl, -⟩ := List.cons_prefix_cons.mp starts
        exact List.cons_prefix_cons.mpr ⟨rfl, List.nil_prefix⟩

/-- No two dots follow each other where they have been removed. -/
theorem not_infix_removeAll (text : Text) :
    ¬ ['.', '.'] <:+: removeAll ['.', '.'] text := by
  induction length : text.length using Nat.strong_induction_on
    generalizing text with
  | _ bound ih =>
      cases text with
      | nil => simp [removeAll, removeFrom]
      | cons first rest =>
          have shorter : rest.length < bound := by
            rw [← length, List.length_cons]
            omega
          by_cases dots : ['.', '.'] <+: first :: rest
          · obtain ⟨rest, same⟩ := dots
            obtain ⟨rfl, rfl⟩ := List.cons.inj same
            have shorterRest : rest.length < bound := by
              change rest.length + 1 < bound at shorter
              omega
            change ¬ _ <:+: removeAll _ ('.' :: '.' :: rest)
            rw [removeAll_dots]
            exact ih _ shorterRest rest rfl
          · rw [removeAll_cons dots, List.infix_cons_iff, not_or]
            refine ⟨?_, ih _ shorter rest rfl⟩
            intro starts
            obtain ⟨rfl, dotNext⟩ := List.cons_prefix_cons.mp starts
            exact dots (List.cons_prefix_cons.mpr
              ⟨rfl, dot_prefix_of_removeAll dotNext⟩)

/-- A start without dots is kept. -/
theorem removeAll_append {start : Text} (free : '.' ∉ start) (rest : Text) :
    removeAll ['.', '.'] (start ++ rest) =
      start ++ removeAll ['.', '.'] rest := by
  induction start with
  | nil => rfl
  | cons first start ih =>
      have single : ¬ ['.', '.'] <+: first :: (start ++ rest) := by
        intro dots
        obtain ⟨rfl, -⟩ := List.cons_prefix_cons.mp dots
        simp at free
      rw [List.cons_append, removeAll_cons single,
        ih fun member => free (List.mem_cons_of_mem _ member)]
      rfl

end Dots

section Lines

/-- A line that is ended on the wire is read back. -/
theorem linesFrom_append_crlf {line : Text}
    (unbroken : ∀ character ∈ line, isLineBreak character = false)
    (read rest : Text) :
    linesFrom read (line ++ (crlf ++ rest)) =
      (read ++ line) :: linesFrom [] rest := by
  induction line generalizing read with
  | nil => simp [crlf, linesFrom, List.cons_append]
  | cons first line ih =>
      have firstUnbroken := unbroken first (by simp)
      have notReturn : first.toNat ≠ 13 := by
        intro isReturn
        simp [isLineBreak, isReturn] at firstUnbroken
      obtain ⟨second, following, split⟩ : ∃ second following,
          line ++ (crlf ++ rest) = second :: following := by
        cases line <;> simp [crlf]
      have tail := ih
        (fun character member => unbroken character (by simp [member]))
        (read ++ [first])
      rw [List.cons_append, split, linesFrom, if_neg (by simp [notReturn]),
        firstUnbroken, if_neg (by simp), ← split, tail]
      simp

theorem splitLines_append_crlf {line : Text}
    (unbroken : ∀ character ∈ line, isLineBreak character = false)
    (rest : Text) :
    splitLines (line ++ (crlf ++ rest)) = line :: splitLines rest :=
  linesFrom_append_crlf unbroken [] rest

/-- A text without the end of a line is one line. -/
theorem linesFrom_of_unbroken {line : Text}
    (unbroken : ∀ character ∈ line, isLineBreak character = false)
    (read : Text) :
    linesFrom read line = if read ++ line = [] then [] else [read ++ line] := by
  induction line generalizing read with
  | nil => simp [linesFrom]
  | cons first line ih =>
      have firstUnbroken := unbroken first (by simp)
      have later := ih fun character member => unbroken character (by simp [member])
      cases line with
      | nil => simp [linesFrom, firstUnbroken]
      | cons second line =>
          have notReturn : first.toNat ≠ 13 := by
            intro isReturn
            simp [isLineBreak, isReturn] at firstUnbroken
          rw [linesFrom, if_neg (by simp [notReturn]), firstUnbroken,
            if_neg (by simp), later]
          simp

/-- A line that is ended by a line feed is read back. -/
theorem linesFrom_append_lf {line : Text}
    (unbroken : ∀ character ∈ line, isLineBreak character = false)
    (read rest : Text) :
    linesFrom read (line ++ Char.ofNat 10 :: rest) =
      (read ++ line) :: linesFrom [] rest := by
  induction line generalizing read with
  | nil =>
      cases rest with
      | nil => simp [linesFrom, isLineBreak]
      | cons second rest => simp [linesFrom, isLineBreak]
  | cons first line ih =>
      have firstUnbroken := unbroken first (by simp)
      have notReturn : first.toNat ≠ 13 := by
        intro isReturn
        simp [isLineBreak, isReturn] at firstUnbroken
      obtain ⟨second, following, split⟩ : ∃ second following,
          line ++ Char.ofNat 10 :: rest = second :: following := by
        cases line <;> simp
      have tail := ih
        (fun character member => unbroken character (by simp [member]))
        (read ++ [first])
      rw [List.cons_append, split, linesFrom, if_neg (by simp [notReturn]),
        firstUnbroken, if_neg (by simp), ← split, tail]
      simp

theorem splitLines_append_lf {line : Text}
    (unbroken : ∀ character ∈ line, isLineBreak character = false)
    (rest : Text) :
    splitLines (line ++ Char.ofNat 10 :: rest) = line :: splitLines rest :=
  linesFrom_append_lf unbroken [] rest

/-- Lines are joined and split again, before others that may be broken. -/
theorem splitLines_intercalate {lines others : List Text}
    (unbroken : ∀ line ∈ lines, ∀ character ∈ line,
      isLineBreak character = false)
    (more : others ≠ []) :
    splitLines ([Char.ofNat 10].intercalate (lines ++ others)) =
      lines ++ splitLines ([Char.ofNat 10].intercalate others) := by
  induction lines with
  | nil => rfl
  | cons line lines ih =>
      obtain ⟨next, rest, split⟩ := List.exists_cons_of_ne_nil
        (List.append_ne_nil_of_right_ne_nil lines more)
      have later := ih fun line member => unbroken line (by simp [member])
      rw [List.cons_append, split, List.intercalate_cons_cons, ← split,
        List.append_assoc, List.singleton_append,
        splitLines_append_lf (unbroken line (by simp)), later,
        List.cons_append]

/-- So are lines of which the last one is not empty. -/
theorem splitLines_intercalate_self {lines : List Text} {last : Text}
    (unbroken : ∀ line ∈ lines ++ [last], ∀ character ∈ line,
      isLineBreak character = false) (nonempty : last ≠ []) :
    splitLines ([Char.ofNat 10].intercalate (lines ++ [last])) =
      lines ++ [last] := by
  rw [splitLines_intercalate (fun line member => unbroken line (by simp [member]))
    (by simp), List.intercalate_singleton]
  have alone := linesFrom_of_unbroken (unbroken last (by simp)) []
  rw [splitLines, alone, if_neg (by simpa using nonempty), List.nil_append]

/-- A line feed ends a line whatever stands before it. -/
theorem linesFrom_append_feed (read text rest : Text) :
    linesFrom read (text ++ Char.ofNat 10 :: rest) =
      linesFrom read (text ++ [Char.ofNat 10]) ++ linesFrom [] rest := by
  have feed : ∀ read, linesFrom read (Char.ofNat 10 :: rest) =
      linesFrom read [Char.ofNat 10] ++ linesFrom [] rest := by
    intro read
    have line := @linesFrom_append_lf [] (by simp) read
    simp only [List.nil_append, List.append_nil] at line
    rw [line rest, line []]
    rfl
  induction read, text using linesFrom.induct with
  | case1 => exact feed _
  | case2 => exact feed _
  | case3 read first broken =>
      by_cases ends : first.toNat = 13
      · simp [linesFrom, ends]
      · have step : ∀ rest, linesFrom read (first :: Char.ofNat 10 :: rest) =
            read :: linesFrom [] (Char.ofNat 10 :: rest) := by
          intro rest
          rw [linesFrom, if_neg (by simp [ends]), if_pos broken]
        rw [List.singleton_append, List.singleton_append, step, step, feed,
          List.cons_append]
  | case4 read first unbroken =>
      have notReturn : first.toNat ≠ 13 := by
        intro isReturn
        simp [isLineBreak, isReturn] at unbroken
      have step : ∀ rest, linesFrom read (first :: Char.ofNat 10 :: rest) =
          linesFrom (read ++ [first]) (Char.ofNat 10 :: rest) := by
        intro rest
        rw [linesFrom, if_neg (by simp [notReturn]), if_neg unbroken]
      rw [List.singleton_append, List.singleton_append, step, step, feed]
  | case5 read first second text ends ih =>
      simp only [List.cons_append, linesFrom, ends, and_self, if_true] at ih ⊢
      rw [ih]
  | case6 read first second text notEnd broken ih =>
      simp only [List.cons_append, linesFrom, if_neg notEnd, if_pos broken]
        at ih ⊢
      rw [ih]
  | case7 read first second text notEnd unbroken ih =>
      simp only [List.cons_append, linesFrom, if_neg notEnd, if_neg unbroken]
        at ih ⊢
      rw [ih]

/-- No line contains the end of a line. -/
theorem unbroken_of_mem_linesFrom {read text line : Text}
    (readUnbroken : ∀ character ∈ read, isLineBreak character = false)
    (member : line ∈ linesFrom read text) :
    ∀ character ∈ line, isLineBreak character = false := by
  induction read, text using linesFrom.induct with
  | case1 => simp [linesFrom] at member
  | case2 read nonempty =>
      obtain rfl : line = read := by simpa [linesFrom, nonempty] using member
      exact readUnbroken
  | case3 read last broken =>
      obtain rfl : line = read := by simpa [linesFrom, broken] using member
      exact readUnbroken
  | case4 read last unbroken =>
      obtain rfl : line = read ++ [last] := by
        simpa [linesFrom, unbroken] using member
      intro character characterMem
      rcases List.mem_append.mp characterMem with older | newest
      · exact readUnbroken character older
      · obtain rfl := List.mem_singleton.mp newest
        simpa using unbroken
  | case5 read first second rest ends ih =>
      rw [linesFrom, if_pos ends] at member
      rcases List.mem_cons.mp member with rfl | later
      · exact readUnbroken
      · exact ih (by simp) later
  | case6 read first second rest notReturn broken ih =>
      rw [linesFrom, if_neg notReturn, if_pos broken] at member
      rcases List.mem_cons.mp member with rfl | later
      · exact readUnbroken
      · exact ih (by simp) later
  | case7 read first second rest notReturn unbroken ih =>
      rw [linesFrom, if_neg notReturn, if_neg unbroken] at member
      refine ih ?_ member
      intro character characterMem
      rcases List.mem_append.mp characterMem with older | newest
      · exact readUnbroken character older
      · obtain rfl := List.mem_singleton.mp newest
        simpa using unbroken

theorem unbroken_of_mem_splitLines {text line : Text}
    (member : line ∈ splitLines text) :
    ∀ character ∈ line, isLineBreak character = false :=
  unbroken_of_mem_linesFrom (by simp) member

end Lines

section Marker

theorem cutAt_eq_some {marker text before after : Text}
    (cut : cutAt marker text = some (before, after)) :
    text = before ++ (marker ++ after) := by
  induction text generalizing before with
  | nil =>
      by_cases empty : marker = []
      · simp_all [cutAt]
      · simp [cutAt, empty] at cut
  | cons character rest ih =>
      rw [cutAt] at cut
      split at cut
      next found =>
        obtain ⟨tail, whole⟩ := List.isPrefixOf_iff_prefix.mp found
        obtain ⟨rfl, rfl⟩ : [] = before ∧
            (character :: rest).drop marker.length = after := by
          simpa using cut
        simp [← whole]
      next =>
        obtain ⟨⟨older, later⟩, cutRest, same⟩ := Option.map_eq_some_iff.mp cut
        obtain ⟨rfl, rfl⟩ := Prod.mk.inj same
        rw [ih cutRest, List.cons_append]

/-- The text is cut at the first occurrence. -/
theorem not_infix_of_cutAt {marker text before after : Text}
    (nonempty : marker ≠ []) (cut : cutAt marker text = some (before, after)) :
    ¬ marker <:+: before := by
  induction text generalizing before with
  | nil => simp [cutAt, nonempty] at cut
  | cons character rest ih =>
      have whole := cutAt_eq_some cut
      rw [cutAt] at cut
      split at cut
      next found =>
        obtain ⟨rfl, -⟩ : [] = before ∧
            (character :: rest).drop marker.length = after := by
          simpa using cut
        simp [nonempty]
      next missing =>
        obtain ⟨⟨older, later⟩, cutRest, same⟩ := Option.map_eq_some_iff.mp cut
        obtain ⟨rfl, rfl⟩ := Prod.mk.inj same
        intro inside
        rcases List.infix_cons_iff.mp inside with atStart | inRest
        · refine missing (List.isPrefixOf_iff_prefix.mpr ?_)
          rw [whole]
          exact atStart.trans (List.prefix_append _ _)
        · exact ih cutRest inRest

/-- A marker whose first character does not come again in it is found where it
was put, unless the text before contains it. -/
theorem cutAt_append {first : Char} {tail body after : Text}
    (fresh : first ∉ tail) (absent : ¬ (first :: tail) <:+: body) :
    cutAt (first :: tail) (body ++ (first :: tail ++ after)) =
      some (body, after) := by
  induction body with
  | nil =>
      rw [List.nil_append, List.cons_append, cutAt, if_pos (by simp)]
      simp
  | cons character body ih =>
      have missing : ¬ (first :: tail).isPrefixOf
          (character :: (body ++ (first :: tail ++ after))) := by
        intro found
        obtain ⟨rfl, later⟩ := List.cons_prefix_cons.mp
          (List.isPrefixOf_iff_prefix.mp found)
        refine absent ?_
        have inBody : tail <+: body := by
          rcases List.prefix_or_prefix_of_prefix later
            (List.prefix_append _ _) with short | ⟨excess, long⟩
          · exact short
          · rw [← long, List.prefix_append_right_inj] at later
            cases excess with
            | nil => simp [← long]
            | cons next excess =>
                obtain ⟨rfl, -⟩ := List.cons_prefix_cons.mp later
                simp [← long] at fresh
        exact (List.cons_prefix_cons.mpr ⟨rfl, inBody⟩).isInfix
      rw [List.cons_append, cutAt, if_neg missing,
        ih fun inside => absent (List.infix_cons inside)]
      rfl

end Marker

end LineText

end RefinetPillars
