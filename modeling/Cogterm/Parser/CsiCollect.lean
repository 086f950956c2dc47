import Cogterm.Parser.Chunks
import Cogterm.Parser.CsiParameters

namespace Cogterm.VirtualTerminal

open AsciiChars ParserState Library List Step

variable {Host : Type}

theorem leading_digits_snoc_colon (field : List WChar) : leadingDigits (field ++ [0x3A]) = leadingDigits field := by
  have nonempty := splitOn_ne_nil (0x3A : WChar) field
  cases pieces : field.splitOn (0x3A : WChar) with
  | nil => exact absurd pieces nonempty
  | cons head tail => simp [leadingDigits, split_on_snoc_separator]

theorem sub_fields_snoc_colon (field : List WChar) : subFields (field ++ [0x3A]) = subFields field ++ [[]] := by
  have nonempty := splitOn_ne_nil (0x3A : WChar) field
  cases pieces : field.splitOn (0x3A : WChar) with
  | nil => exact absurd pieces nonempty
  | cons head tail => simp [subFields, split_on_snoc_separator]

variable {field : List WChar}

theorem field_snoc_digit_plain (different : digit ≠ 0x3A) (plain : subFields field = []) :
    leadingDigits (field ++ [digit]) = leadingDigits field ++ [digit] ∧ subFields (field ++ [digit]) = [] := by
  obtain ⟨init, last, before, after⟩ := split_on_snoc_other different field
  cases init with
  | nil => simp [leadingDigits, subFields, before, after]
  | cons head rest => simp [subFields, before] at plain

theorem field_snoc_digit_sub (different : digit ≠ 0x3A) (sub : subFields field ≠ []) :
    ∃ group digits, subFields field = group ++ [digits] ∧ leadingDigits (field ++ [digit]) = leadingDigits field ∧
      subFields (field ++ [digit]) = group ++ [digits ++ [digit]] := by
  obtain ⟨init, last, before, after⟩ := split_on_snoc_other different field
  cases init with
  | nil => simp [subFields, before] at sub
  | cons head rest =>
    exact ⟨rest, last, by simp [subFields, before], by simp [leadingDigits, before, after], by simp [subFields, after]⟩

def paramStep (wch : WChar) (parser : ParserState) : ParserState :=
  if isSubParameterDelimiter wch || (parser.state == .csiSubParam && !isParameterDelimiter wch) then
    (actionSubParam wch parser).enterCsiSubParam
  else (actionParam wch parser).enterCsiParam

def inCsiParameters (parser : ParserState) : Prop :=
  parser.state = .csiEntry ∨ parser.state = .csiParam ∨ parser.state = .csiSubParam

theorem parameter_byte_classes (byte : isParameterByte wch = true) : isHeaderByte wch = true ∧ isIntermediate wch = false := by
  grind [isParameterByte, isNumericParamValue, isParameterDelimiter, isSubParameterDelimiter, isHeaderByte, isIntermediate]

theorem parameter_byte_cases (byte : isParameterByte wch = true) :
    (isNumericParamValue wch = true ∧ isParameterDelimiter wch = false ∧ isSubParameterDelimiter wch = false) ∨
      (isNumericParamValue wch = false ∧ isParameterDelimiter wch = true ∧ isSubParameterDelimiter wch = false) ∨
      (isNumericParamValue wch = false ∧ isParameterDelimiter wch = false ∧ isSubParameterDelimiter wch = true) := by
  grind [isParameterByte, isNumericParamValue, isParameterDelimiter, isSubParameterDelimiter]

theorem parameter_byte_step (ctx : Context Host) (wch : WChar) (byte : isParameterByte wch = true)
    (inside : inCsiParameters m.parser) : processCharacter ctx wch m = update (paramStep wch) m := by
  obtain ⟨header, notIntermediate⟩ := parameter_byte_classes byte
  obtain ⟨notC0, notDelete⟩ := header_byte_classes header
  rw [inert_event (header_byte_inert header)]
  rcases inside with state | state | state <;>
    rcases parameter_byte_cases byte with ⟨digit, delimiter, colon⟩ | ⟨digit, delimiter, colon⟩ |
      ⟨digit, delimiter, colon⟩ <;>
    simp [event, state, eventCsiEntry, eventCsiParam, eventCsiSubParam, notC0, notDelete, notIntermediate, digit, delimiter,
      colon, paramStep, update, andThen, enterCsiParam, enterCsiSubParam, enter_same_state,
      action_param_frame, action_sub_param_frame]

theorem param_step_stays (wch : WChar) (parser : ParserState) : inCsiParameters (paramStep wch parser) := by
  unfold paramStep
  split
  · exact .inr (.inr rfl)
  · exact .inr (.inl rfl)

theorem parameter_bytes_run (ctx : Context Host) {parameters : List WChar} (m : Machine Host)
    (bytes : ∀ wch ∈ parameters, isParameterByte wch = true) (inside : inCsiParameters m.parser) :
    processCharacters ctx parameters m =
      update (fun parser => parameters.foldl (fun parser wch => paramStep wch parser) parser) m := by
  induction parameters generalizing m with
  | nil => rfl
  | cons wch rest ih =>
    have first := parameter_byte_step ctx wch (bytes wch (by simp)) inside
    rw [processCharacters, andThen, first]
    rw [ih _ (fun c member => bytes c (mem_cons_of_mem wch member)) (param_step_stays wch m.parser)]
    rfl

variable {closed : List (List (List WChar))} {current : List (List WChar)} {values : List VTParameter} {state : VTStates}

theorem collects_enter (collects : Collects parser values closed current) : Collects (parser.enter state) values closed current :=
  { collects with }

variable {parser : ParserState}

theorem collects_open (collects : Collects parser values closed current) : parser.openParameter = parser := by
  have count := collects.count
  rw [← collects.parameters] at count
  have nonempty : parser.parameters.isEmpty = false := by
    cases values : parser.parameters with
    | nil => simp [values] at count
    | cons head tail => rfl
  simp [openParameter, nonempty]

-- What the parser holds after the fields before the last one and what is read
-- of the last one. The group of the 32nd field also receives the sub-fields of
-- every field after it.
def valuesOf (before : List (List WChar)) (last : List WChar) : List VTParameter :=
  ((before ++ [last]).take maxParameterCount).map (fun field => fieldValue (leadingDigits field))

def closedGroups (before : List (List WChar)) : List (List (List WChar)) :=
  (before.take (maxParameterCount - 1)).map subFields

def currentGroup (before : List (List WChar)) (last : List WChar) : List (List WChar) :=
  (before.drop (maxParameterCount - 1)).flatMap subFields ++ subFields last

structure CsiCollected (before : List (List WChar)) (last : List WChar) (parser : ParserState) : Prop where
  collects : Collects parser.openParameter (valuesOf before last) (closedGroups before) (currentGroup before last)
  overflowed : parser.parameterLimitOverflowed = true ↔ maxParameterCount ≤ before.length
  inside : inCsiParameters parser
  sub : parser.state = .csiSubParam ↔ subFields last ≠ []
  unopened : parser.parameters = [] → parser.subParameters = [] ∧ parser.subParameterRanges = []

theorem csi_collected_of_collects (before : List (List WChar)) (last : List WChar) (parser : ParserState)
    (collects : Collects parser (valuesOf before last) (closedGroups before) (currentGroup before last))
    (overflowed : parser.parameterLimitOverflowed = true ↔ maxParameterCount ≤ before.length)
    (inside : inCsiParameters parser)
    (sub : parser.state = .csiSubParam ↔ subFields last ≠ []) : CsiCollected before last parser := by
  have count := collects.count
  rw [← collects.parameters] at count
  refine ⟨?_, overflowed, inside, sub, ?_⟩
  · rwa [collects_open collects]
  · intro empty
    simp [empty] at count

theorem values_of_lengths (before : List (List WChar)) (last : List WChar) :
    (valuesOf before last).length = min maxParameterCount (before.length + 1) := by
  simp [valuesOf]

theorem values_of_room (room : before.length < maxParameterCount) :
    valuesOf before last = before.map (fun field => fieldValue (leadingDigits field)) ++ [fieldValue (leadingDigits last)] := by
  rw [valuesOf, take_of_length_le (by simpa using Nat.succ_le_of_lt room)]
  simp

theorem values_of_full (full : maxParameterCount ≤ before.length) : valuesOf before last = valuesOf before other := by
  simp [valuesOf, take_append_of_le_length full]

theorem open_parameter_flags (parser : ParserState) :
    parser.openParameter.parameterLimitOverflowed = parser.parameterLimitOverflowed ∧
      parser.openParameter.subParameterLimitOverflowed = parser.subParameterLimitOverflowed ∧
      parser.openParameter.subParameterCounter = parser.subParameterCounter := by
  unfold openParameter
  split <;> exact ⟨rfl, rfl, rfl⟩

theorem collected_ignored (collected : CsiCollected before last parser)
    (collects : Collects parser.openParameter (valuesOf before' last') (closedGroups before') (currentGroup before' last'))
    (length : maxParameterCount ≤ before'.length ↔ maxParameterCount ≤ before.length)
    (inside : inCsiParameters (parser.enter state)) (sub : state = .csiSubParam ↔ subFields last' ≠ []) :
    CsiCollected before' last' (parser.enter state) := by
  have opened : (parser.enter state).openParameter = parser.openParameter.enter state := by
    unfold openParameter enter
    split <;> rfl
  refine ⟨?_, collected.overflowed.trans length.symm, inside, sub, collected.unopened⟩
  rw [opened]
  exact collects_enter collects

theorem groups_at_limit (before : List (List WChar)) (last : List WChar) (full : maxParameterCount ≤ before.length + 1) :
    valuesOf (before ++ [last]) [] = valuesOf before last ∧ closedGroups (before ++ [last]) = closedGroups before ∧
      currentGroup (before ++ [last]) [] = currentGroup before last := by
  have cut : maxParameterCount - 1 ≤ before.length := by omega
  refine ⟨?_, ?_, ?_⟩
  · rw [valuesOf, take_append_of_le_length (by simpa using full), valuesOf]
  · simp [take_append_of_le_length cut, closedGroups]
  · simp [currentGroup, drop_append_of_le_length cut, subFields]

theorem groups_below_limit (before : List (List WChar)) (last : List WChar) (room : before.length + 1 < maxParameterCount) :
    valuesOf (before ++ [last]) [] = valuesOf before last ++ [none] ∧
      closedGroups (before ++ [last]) = closedGroups before ++ [currentGroup before last] ∧
      currentGroup (before ++ [last]) [] = [] := by
  have cut : before.length ≤ maxParameterCount - 1 := by omega
  have longer : (before ++ [last]).length ≤ maxParameterCount - 1 := by
    rw [length_append, length_singleton]
    omega
  refine ⟨?_, ?_, ?_⟩
  · rw [values_of_room (by simpa using room), values_of_room (by omega)]
    simp [leadingDigits, fieldValue]
  · simp [closedGroups, currentGroup, drop_of_length_le cut, take_of_length_le cut, take_of_length_le longer]
  · simp [currentGroup, drop_of_length_le longer, subFields]

theorem collected_delimiter (collected : CsiCollected before last parser) :
    CsiCollected (before ++ [last]) [] (paramStep 0x3B parser) := by
  have delimiter : isParameterDelimiter 0x3B = true := rfl
  have noColon : isSubParameterDelimiter 0x3B = false := rfl
  have noSub : subFields [] = [] := by simp [subFields]
  have stepped : paramStep 0x3B parser = (actionParam 0x3B parser).enter .csiParam := by
    simp [paramStep, delimiter, noColon, enterCsiParam]
  have collects := collected.collects
  have count : parser.openParameter.parameters.length = min maxParameterCount (before.length + 1) := by
    rw [collects.parameters, values_of_lengths]
  rw [stepped]
  by_cases full : maxParameterCount ≤ before.length
  · obtain ⟨values, closed, current⟩ := groups_at_limit before last (by omega)
    have unchanged : actionParam 0x3B parser = parser := by simp [actionParam, collected.overflowed.mpr full]
    rw [unchanged]
    apply collected_ignored collected
    · rwa [values, closed, current]
    · rw [length_append]
      omega
    · exact .inr (.inl rfl)
    · simp [noSub]
  · have notYet : parser.parameterLimitOverflowed = false := by simpa [full] using collected.overflowed
    by_cases limit : before.length + 1 = maxParameterCount
    · obtain ⟨values, closed, current⟩ := groups_at_limit before last (by omega)
      have result : actionParam 0x3B parser = { parser.openParameter with parameterLimitOverflowed := true } := by
        have stop : parser.openParameter.parameters.length ≥ maxParameterCount := by omega
        simp [actionParam, notYet, delimiter, stop]
      rw [result]
      apply csi_collected_of_collects
      · rw [values, closed, current]
        exact collects_enter { collects with }
      · simp [enter, limit]
      · exact .inr (.inl rfl)
      · simp [enter, noSub]
    · obtain ⟨values, closed, current⟩ := groups_below_limit before last (by omega)
      have result : actionParam 0x3B parser = parser.openParameter.nextParameter := by
        have more : ¬ parser.openParameter.parameters.length ≥ maxParameterCount := by omega
        simp [actionParam, notYet, delimiter, more]
      have still : parser.openParameter.nextParameter.parameterLimitOverflowed = false := by
        simpa only [nextParameter, (open_parameter_flags parser).1] using notYet
      rw [result]
      apply csi_collected_of_collects
      · rw [values, closed, current]
        exact collects_enter (collects_next collects (by rw [values_of_lengths]; omega))
      · simp only [enter, still, length_append, length_singleton, Bool.false_eq_true, false_iff]
        omega
      · exact .inr (.inl rfl)
      · simp [enter, noSub]

theorem digit_not_delimiter (isDigit : isNumericParamValue digit = true) :
    digit ≠ 0x3A ∧ isSubParameterDelimiter digit = false ∧ isParameterDelimiter digit = false := by
  grind [isNumericParamValue, isSubParameterDelimiter, isParameterDelimiter]

theorem collected_plain_digit (isDigit : isNumericParamValue digit = true) (plain : subFields last = [])
    (collected : CsiCollected before last parser) : CsiCollected before (last ++ [digit]) (paramStep digit parser) := by
  obtain ⟨noColon, notSub, notDelimiter⟩ := digit_not_delimiter isDigit
  obtain ⟨leading, stillPlain⟩ := field_snoc_digit_plain noColon plain
  have outside : parser.state ≠ .csiSubParam := fun state => collected.sub.mp state plain
  have stepped : paramStep digit parser = (actionParam digit parser).enter .csiParam := by
    simp [paramStep, notSub, outside, enterCsiParam]
  have current : currentGroup before (last ++ [digit]) = currentGroup before last := by simp [currentGroup, stillPlain, plain]
  have collects := collected.collects
  rw [stepped]
  by_cases full : maxParameterCount ≤ before.length
  · have unchanged : actionParam digit parser = parser := by simp [actionParam, collected.overflowed.mpr full]
    rw [unchanged]
    apply collected_ignored collected
    · rwa [values_of_full full, current]
    · exact Iff.rfl
    · exact .inr (.inl rfl)
    · simp [stillPlain]
  · have notYet : parser.parameterLimitOverflowed = false := by simpa [full] using collected.overflowed
    have room : before.length < maxParameterCount := by omega
    have result : actionParam digit parser =
        { parser.openParameter with parameters := accumulateLast digit parser.openParameter.parameters } := by
      simp [actionParam, notYet, notDelimiter]
    rw [values_of_room room] at collects
    rw [result]
    apply csi_collected_of_collects
    · rw [values_of_room room, current, leading]
      exact collects_enter (collects_digit collects)
    · simpa only [enter, (open_parameter_flags parser).1] using collected.overflowed
    · exact .inr (.inl rfl)
    · simp [enter, stillPlain]

theorem collected_sub_digit (isDigit : isNumericParamValue digit = true) (sub : subFields last ≠ [])
    (collected : CsiCollected before last parser) : CsiCollected before (last ++ [digit]) (paramStep digit parser) := by
  obtain ⟨noColon, notSub, notDelimiter⟩ := digit_not_delimiter isDigit
  obtain ⟨group, digits, groupEq, leading, nextGroup⟩ := field_snoc_digit_sub noColon sub
  have stepped : paramStep digit parser = (actionSubParam digit parser).enter .csiSubParam := by
    simp [paramStep, notDelimiter, collected.sub.mpr sub, enterCsiSubParam]
  have values : valuesOf before (last ++ [digit]) = valuesOf before last := by
    by_cases full : maxParameterCount ≤ before.length
    · exact values_of_full full
    · rw [values_of_room (by omega), values_of_room (by omega), leading]
  have stillSub : subFields (last ++ [digit]) ≠ [] := by simp [nextGroup]
  have collects := collected.collects
  have flag := collects.overflowed
  rw [(open_parameter_flags parser).2.1] at flag
  -- The group without its last sub-field, and with one more digit at its end.
  have currentEq : currentGroup before last = ((before.drop (maxParameterCount - 1)).flatMap subFields ++ group) ++ [digits] := by
    simp [currentGroup, groupEq]
  have currentNext : currentGroup before (last ++ [digit]) =
      ((before.drop (maxParameterCount - 1)).flatMap subFields ++ group) ++ [digits ++ [digit]] := by
    simp [currentGroup, nextGroup]
  generalize (before.drop (maxParameterCount - 1)).flatMap subFields ++ group = earlier at currentEq currentNext
  rw [stepped]
  by_cases full : maxSubParameterCount < (currentGroup before last).length
  · have unchanged : actionSubParam digit parser = parser := by simp [actionSubParam, flag.mpr full]
    have behind : maxSubParameterCount ≤ earlier.length := by
      rw [currentEq, length_append, length_singleton] at full
      omega
    rw [unchanged]
    apply collected_ignored collected
    · rw [values]
      apply collects_ignored collects (Nat.le_of_lt full)
      · simp [currentEq, currentNext, take_append_of_le_length behind]
      · rw [collects.overflowed, currentEq, currentNext]
        simp
      · simp [currentEq, currentNext]
    · exact Iff.rfl
    · exact .inr (.inr rfl)
    · simp [stillSub]
  · have notYet : parser.subParameterLimitOverflowed = false := by simpa [full] using flag
    have result : actionSubParam digit parser =
        { parser.openParameter with subParameters := accumulateLast digit parser.openParameter.subParameters } := by
      simp [actionSubParam, notYet, notSub]
    rw [result]
    rw [currentEq] at collects full
    apply csi_collected_of_collects
    · rw [values, currentNext]
      exact collects_enter (collects_sub_digit collects (by omega))
    · simpa only [enter, (open_parameter_flags parser).1] using collected.overflowed
    · exact .inr (.inr rfl)
    · simp [enter, stillSub]

theorem collected_colon (collected : CsiCollected before last parser) :
    CsiCollected before (last ++ [0x3A]) (paramStep 0x3A parser) := by
  have colon : isSubParameterDelimiter 0x3A = true := rfl
  have stepped : paramStep 0x3A parser = (actionSubParam 0x3A parser).enter .csiSubParam := by
    simp [paramStep, colon, enterCsiSubParam]
  have values : valuesOf before (last ++ [0x3A]) = valuesOf before last := by
    by_cases full : maxParameterCount ≤ before.length
    · exact values_of_full full
    · rw [values_of_room (by omega), values_of_room (by omega), leading_digits_snoc_colon]
  have current : currentGroup before (last ++ [0x3A]) = currentGroup before last ++ [[]] := by
    simp [sub_fields_snoc_colon, currentGroup]
  have isSub : subFields (last ++ [0x3A]) ≠ [] := by simp [sub_fields_snoc_colon]
  have collects := collected.collects
  have flag := collects.overflowed
  have counter := collects.counter
  rw [(open_parameter_flags parser).2.1] at flag
  rw [stepped]
  by_cases past : maxSubParameterCount < (currentGroup before last).length
  · have unchanged : actionSubParam 0x3A parser = parser := by simp [actionSubParam, flag.mpr past]
    rw [unchanged]
    apply collected_ignored collected
    · rw [values, current]
      apply collects_ignored collects (Nat.le_of_lt past)
      · rw [take_append_of_le_length (Nat.le_of_lt past)]
      · rw [collects.overflowed, length_append]
        omega
      · simp
    · exact Iff.rfl
    · exact .inr (.inr rfl)
    · simp [isSub]
  · have notYet : parser.subParameterLimitOverflowed = false := by simpa [past] using flag
    by_cases full : maxSubParameterCount ≤ (currentGroup before last).length
    · have stop : parser.openParameter.subParameterCounter ≥ maxSubParameterCount := by omega
      have result : actionSubParam 0x3A parser = { parser.openParameter with subParameterLimitOverflowed := true } := by
        simp [actionSubParam, notYet, colon, stop]
      rw [result]
      apply csi_collected_of_collects
      · rw [values, current]
        exact collects_enter (collects_overflow collects full)
      · simpa only [enter, (open_parameter_flags parser).1] using collected.overflowed
      · exact .inr (.inr rfl)
      · simp [enter, isSub]
    · have more : ¬ parser.openParameter.subParameterCounter ≥ maxSubParameterCount := by omega
      have result : actionSubParam 0x3A parser = { parser.openParameter with
            subParameters := parser.openParameter.subParameters ++ [none]
            subParameterRanges := extendLastRange parser.openParameter.subParameterRanges
            subParameterCounter := (parser.openParameter.subParameterCounter + 1) % 256 } := by
        simp [actionSubParam, notYet, colon, more]
      rw [result]
      apply csi_collected_of_collects
      · rw [values, current]
        exact collects_enter (collects_colon collects (by omega))
      · simpa only [enter, (open_parameter_flags parser).1] using collected.overflowed
      · exact .inr (.inr rfl)
      · simp [enter, isSub]

end Cogterm.VirtualTerminal
