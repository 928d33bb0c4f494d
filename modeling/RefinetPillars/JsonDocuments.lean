import RefinetPillars.JsonText

/-!
# Documents that have been read

An object that is read from a text keeps one value for each key.
-/

namespace RefinetPillars

namespace JsonText

open HexText

section Documents

/-- In no object do two fields have the same key. -/
inductive DistinctKeys : Json → Prop where
  | null : DistinctKeys .null
  | bool (value : Bool) : DistinctKeys (.bool value)
  | int (value : Int) : DistinctKeys (.int value)
  | float (printed : Text) : DistinctKeys (.float printed)
  | str (text : Text) : DistinctKeys (.str text)
  | arr {items : List Json} (all : ∀ item ∈ items, DistinctKeys item) :
      DistinctKeys (.arr items)
  | obj {fields : List (Text × Json)}
      (nodup : (fields.map Prod.fst).Nodup)
      (all : ∀ field ∈ fields, DistinctKeys field.2) :
      DistinctKeys (.obj fields)

/-- Every number is an integer whose absolute value is below a bound. -/
inductive IntegersBelow (bound : Nat) : Json → Prop where
  | null : IntegersBelow bound .null
  | bool (value : Bool) : IntegersBelow bound (.bool value)
  | int {value : Int} (below : value.natAbs < bound) :
      IntegersBelow bound (.int value)
  | str (text : Text) : IntegersBelow bound (.str text)
  | arr {items : List Json} (all : ∀ item ∈ items, IntegersBelow bound item) :
      IntegersBelow bound (.arr items)
  | obj {fields : List (Text × Json)}
      (all : ∀ field ∈ fields, IntegersBelow bound field.2) :
      IntegersBelow bound (.obj fields)

/-- What has been read so far has distinct keys. -/
def Frame.Distinct : Frame → Prop
  | .array items => ∀ item ∈ items, DistinctKeys item
  | .object fields _ => (fields.map Prod.fst).Nodup ∧
      ∀ field ∈ fields, DistinctKeys field.2

def Mode.Distinct : Mode → Prop
  | .done json | .word _ _ json => DistinctKeys json
  | _ => True

/-- Whatever a reader has read has distinct keys. -/
structure Reader.Distinct (reader : Reader) : Prop where
  frames : ∀ frame ∈ reader.frames, Frame.Distinct frame
  mode : Mode.Distinct reader.mode

theorem mem_setField {key : Text} {value : Json} {fields : List (Text × Json)}
    {field : Text × Json} (member : field ∈ setField key value fields) :
    field = (key, value) ∨ field ∈ fields := by
  induction fields with
  | nil => exact Or.inl (List.mem_singleton.mp member)
  | cons head fields ih =>
      rw [setField] at member
      split at member
      · rcases List.mem_cons.mp member with rfl | rest
        · exact Or.inl rfl
        · exact Or.inr (List.mem_cons_of_mem head rest)
      · rcases List.mem_cons.mp member with rfl | rest
        · exact Or.inr List.mem_cons_self
        · exact (ih rest).imp_right (List.mem_cons_of_mem head)

theorem nodup_setField (key : Text) (value : Json)
    {fields : List (Text × Json)} (nodup : (fields.map Prod.fst).Nodup) :
    ((setField key value fields).map Prod.fst).Nodup := by
  induction fields with
  | nil => exact List.nodup_singleton key
  | cons head fields ih =>
      rw [List.map_cons, List.nodup_cons] at nodup
      rw [setField]
      split
      next same =>
        rw [List.map_cons, List.nodup_cons, ← same]
        exact nodup
      next differs =>
        rw [List.map_cons, List.nodup_cons]
        refine ⟨fun member => ?_, ih nodup.2⟩
        obtain ⟨field, fieldMem, named⟩ := List.mem_map.mp member
        rcases mem_setField fieldMem with rfl | older
        · exact differs named.symm
        · exact nodup.1 (List.mem_map.mpr ⟨field, older, named⟩)

theorem Frame.Distinct.setField {fields : List (Text × Json)}
    {oldKey newKey : Option Text} {key : Text} {value : Json}
    (distinct : Frame.Distinct (.object fields oldKey))
    (valueDistinct : DistinctKeys value) :
    Frame.Distinct (.object (JsonText.setField key value fields) newKey) := by
  refine ⟨nodup_setField key value distinct.1, fun field member => ?_⟩
  rcases mem_setField member with rfl | older
  · exact valueDistinct
  · exact distinct.2 field older

variable {reader next : Reader} {frames : List Frame} {value : Json}

theorem distinct_of_complete (valueDistinct : DistinctKeys value)
    (framesDistinct : ∀ frame ∈ frames, Frame.Distinct frame)
    (completed : complete value frames = some next) : next.Distinct := by
  match frames with
  | [] =>
      obtain rfl := Option.some.inj completed
      exact ⟨framesDistinct, valueDistinct⟩
  | .array items :: frames =>
      obtain rfl := Option.some.inj completed
      obtain ⟨here, others⟩ := List.forall_mem_cons.mp framesDistinct
      refine ⟨List.forall_mem_cons.mpr ⟨fun item member => ?_, others⟩, trivial⟩
      rcases List.mem_append.mp member with older | newest
      · exact here item older
      · rw [List.mem_singleton.mp newest]
        exact valueDistinct
  | .object fields (some key) :: frames =>
      obtain rfl := Option.some.inj completed
      obtain ⟨here, others⟩ := List.forall_mem_cons.mp framesDistinct
      exact ⟨List.forall_mem_cons.mpr ⟨here.setField valueDistinct, others⟩,
        trivial⟩

theorem distinct_of_completeText {isKey : Bool} {read : Text}
    (framesDistinct : ∀ frame ∈ frames, Frame.Distinct frame)
    (completed : completeText isKey read frames = some next) :
    next.Distinct := by
  cases isKey with
  | false => exact distinct_of_complete (.str read) framesDistinct completed
  | true =>
      unfold completeText at completed
      rw [if_pos rfl] at completed
      split at completed
      next fields frames =>
        obtain rfl := Option.some.inj completed
        obtain ⟨here, others⟩ := List.forall_mem_cons.mp framesDistinct
        exact ⟨List.forall_mem_cons.mpr ⟨here, others⟩, trivial⟩
      next => cases completed

theorem distinct_of_afterValue {character : Char} (distinct : reader.Distinct)
    (after : afterValue character reader = some next) : next.Distinct := by
  obtain ⟨frames, mode⟩ := reader
  have framesDistinct : ∀ frame ∈ frames, Frame.Distinct frame :=
    distinct.frames
  unfold afterValue at after
  dsimp only at after
  split at after
  · obtain rfl := Option.some.inj after
    exact distinct
  split at after
  · obtain rfl := Option.some.inj after
    exact ⟨framesDistinct, trivial⟩
  · obtain ⟨here, others⟩ := List.forall_mem_cons.mp framesDistinct
    exact distinct_of_complete (.arr here) others after
  · obtain rfl := Option.some.inj after
    exact ⟨framesDistinct, trivial⟩
  · obtain ⟨here, others⟩ := List.forall_mem_cons.mp framesDistinct
    exact distinct_of_complete (.obj here.1 here.2) others after
  · cases after

theorem distinct_of_startValue {character : Char}
    (framesDistinct : ∀ frame ∈ frames, Frame.Distinct frame)
    (started : startValue frames character = some next) : next.Distinct := by
  have nothing : ∀ key, Frame.Distinct (.object [] key) := fun _ =>
    ⟨List.nodup_nil, fun _ member => absurd member List.not_mem_nil⟩
  unfold startValue at started
  split at started
  case h_2 =>
    obtain rfl := Option.some.inj started
    exact ⟨List.forall_mem_cons.mpr ⟨nothing none, framesDistinct⟩, trivial⟩
  case h_3 =>
    obtain rfl := Option.some.inj started
    exact ⟨List.forall_mem_cons.mpr
      ⟨fun _ member => absurd member List.not_mem_nil, framesDistinct⟩, trivial⟩
  case h_6 =>
    obtain rfl := Option.some.inj started
    exact ⟨framesDistinct, .null⟩
  case h_7 | h_8 =>
    obtain rfl := Option.some.inj started
    exact ⟨framesDistinct, .bool _⟩
  case h_9 | h_10 =>
    obtain rfl := Option.some.inj started
    exact ⟨framesDistinct, .float _⟩
  case h_11 =>
    split at started
    · obtain rfl := Option.some.inj started
      exact ⟨framesDistinct, trivial⟩
    · cases started
  all_goals
    obtain rfl := Option.some.inj started
    exact ⟨framesDistinct, trivial⟩

theorem NumberPhase.distinct_of_value {floatRepr : Text → Text} {token : Text}
    {phase : NumberPhase} (stands : phase.value floatRepr token = some value) :
    DistinctKeys value := by
  cases phase with
  | leadingZero | digits =>
      obtain ⟨number, -, rfl⟩ := Option.map_eq_some_iff.mp stands
      exact .int number
  | fraction | exponentDigits =>
      obtain rfl := Option.some.inj stands
      exact .float _
  | minus | point | exponent | exponentSign => cases stands

theorem distinct_of_afterUnicode {isKey : Bool} {read : Text}
    {high : Option Nat} {code : Nat} {mode : Mode}
    (after : afterUnicode isKey read high code = some mode) :
    Mode.Distinct mode := by
  unfold afterUnicode at after
  split at after
  · split at after
    · obtain rfl := Option.some.inj after
      trivial
    · cases after
  · split at after
    · obtain rfl := Option.some.inj after
      trivial
    split at after
    · cases after
    · obtain rfl := Option.some.inj after
      trivial

/-- One more character keeps the keys distinct. -/
theorem distinct_of_step {floatRepr : Text → Text} {character : Char}
    (distinct : reader.Distinct)
    (stepped : step floatRepr reader character = some next) :
    next.Distinct := by
  obtain ⟨frames, mode⟩ := reader
  have framesDistinct : ∀ frame ∈ frames, Frame.Distinct frame :=
    distinct.frames
  have goesOn : ∀ {mode : Mode},
      (some ⟨frames, mode⟩ : Option Reader) = some next →
      Mode.Distinct mode → next.Distinct := by
    intro mode same modeDistinct
    obtain rfl := Option.some.inj same
    exact ⟨framesDistinct, modeDistinct⟩
  cases mode with
  | value =>
      simp only [step] at stepped
      split at stepped
      · exact goesOn stepped trivial
      · exact distinct_of_startValue framesDistinct stepped
  | firstItem =>
      simp only [step] at stepped
      split at stepped
      · exact goesOn stepped trivial
      split at stepped
      · split at stepped
        · obtain ⟨here, others⟩ := List.forall_mem_cons.mp framesDistinct
          exact distinct_of_complete (.arr here) others stepped
        · cases stepped
      · exact distinct_of_startValue framesDistinct stepped
  | firstKey =>
      simp only [step] at stepped
      split at stepped
      · exact goesOn stepped trivial
      split at stepped
      · exact goesOn stepped trivial
      split at stepped
      · split at stepped
        · obtain ⟨here, others⟩ := List.forall_mem_cons.mp framesDistinct
          exact distinct_of_complete (.obj here.1 here.2) others stepped
        · cases stepped
      · cases stepped
  | key | colon =>
      simp only [step] at stepped
      split at stepped
      · exact goesOn stepped trivial
      split at stepped
      · exact goesOn stepped trivial
      · cases stepped
  | next | done => exact distinct_of_afterValue distinct stepped
  | text isKey read =>
      simp only [step] at stepped
      split at stepped
      · exact distinct_of_completeText framesDistinct stepped
      split at stepped
      · exact goesOn stepped trivial
      split at stepped
      · cases stepped
      · exact goesOn stepped trivial
  | escape isKey read =>
      simp only [step] at stepped
      split at stepped
      · exact goesOn stepped trivial
      · obtain ⟨meant, -, same⟩ := Option.map_eq_some_iff.mp stepped
        exact goesOn (congrArg some same) trivial
  | unicode isKey read high digits =>
      simp only [step] at stepped
      split at stepped
      · cases stepped
      split at stepped
      · exact goesOn stepped trivial
      · obtain ⟨mode, after, same⟩ := Option.map_eq_some_iff.mp stepped
        exact goesOn (congrArg some same) (distinct_of_afterUnicode after)
  | afterHigh isKey read high backslash =>
      simp only [step] at stepped
      split at stepped
      · exact goesOn stepped trivial
      split at stepped
      · exact goesOn stepped trivial
      · cases stepped
  | number token phase =>
      simp only [step] at stepped
      split at stepped
      · exact goesOn stepped trivial
      split at stepped
      · exact goesOn stepped (.float _)
      · obtain ⟨value, stands, stepped⟩ := Option.bind_eq_some_iff.mp stepped
        obtain ⟨reader, completed, after⟩ := Option.bind_eq_some_iff.mp stepped
        exact distinct_of_afterValue
          (distinct_of_complete (NumberPhase.distinct_of_value stands)
            framesDistinct completed) after
  | word rest letters json =>
      have jsonDistinct : DistinctKeys json := distinct.mode
      cases rest with
      | nil => cases stepped
      | cons first rest =>
          simp only [step] at stepped
          split at stepped
          · split at stepped
            · exact distinct_of_complete jsonDistinct framesDistinct stepped
            · exact goesOn stepped jsonDistinct
          · cases stepped

/-- Characters that are read one after the other keep the keys distinct. -/
theorem distinct_of_run {floatRepr : Text → Text} {text : Text}
    (distinct : reader.Distinct)
    (run : text.foldlM (step floatRepr) reader = some next) :
    next.Distinct := by
  induction text generalizing reader with
  | nil =>
      obtain rfl := Option.some.inj run
      exact distinct
  | cons character text ih =>
      rw [List.foldlM_cons] at run
      obtain ⟨middle, stepped, rest⟩ := Option.bind_eq_some_iff.mp run
      exact ih (distinct_of_step distinct stepped) rest

/-- A document that has been read has distinct keys. -/
theorem distinctKeys_of_loads {floatRepr : Text → Text} {text : Text}
    (parsed : loads floatRepr text = some value) : DistinctKeys value := by
  obtain ⟨reader, run, finished⟩ := Option.bind_eq_some_iff.mp parsed
  have initially : (⟨[], .value⟩ : Reader).Distinct :=
    ⟨fun _ member => absurd member List.not_mem_nil, trivial⟩
  have distinct := distinct_of_run initially run
  obtain ⟨frames, mode⟩ := reader
  unfold finish at finished
  dsimp only at finished
  split at finished
  · obtain rfl := Option.some.inj finished
    exact distinct.mode
  · exact NumberPhase.distinct_of_value finished
  · cases finished

/-- An object with texts. -/
def printedDocument (fields : List (Text × Text)) : Text :=
  '{' :: printedFields fields ++ ['}']

theorem loads_printedDocument (floatRepr : Text → Text)
    {fields : List (Text × Text)} (nonempty : fields ≠ [])
    (plain : ∀ entry ∈ fields, IsPlain entry.1 ∧ IsPlain entry.2)
    (distinct : (fields.map Prod.fst).Nodup) :
    loads floatRepr (printedDocument fields) =
      some (.obj (fields.map fun entry => (entry.1, Json.str entry.2))) := by
  cases fields with
  | nil => exact absurd rfl nonempty
  | cons field fields =>
      obtain ⟨text, quoted⟩ := exists_printedFields_eq_cons field fields
      have opened : ('{' :: ('"' :: text ++ ['}'])).foldlM
          (step floatRepr) ⟨[], .value⟩ =
          ('"' :: text ++ ['}']).foldlM (step floatRepr)
            ⟨[.object [] none], .key⟩ := rfl
      have closed : ∀ read : List (Text × Json), ['}'].foldlM
          (step floatRepr) ⟨[.object read none], .next⟩ =
          some ⟨[], .done (.obj read)⟩ := fun _ => rfl
      rw [loads, printedDocument, quoted, List.cons_append, opened, ← quoted,
        run_printedFields floatRepr plain [] _ _ distinct, closed]
      rfl

end Documents

end JsonText

end RefinetPillars
