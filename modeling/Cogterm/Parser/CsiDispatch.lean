import Mathlib.Data.List.GetD
import Mathlib.Data.List.Induction
import Cogterm.Parser.CsiCollect
import Cogterm.Parser.EventRules

namespace Cogterm.VirtualTerminal

open AsciiChars ParserState Library List Step VTIDBuilder

variable {Host : Type} {parameters : List WChar} {m : Machine Host} {final : WChar}

section

variable {wch : WChar} {parser : ParserState} {before : List (List WChar)} {last : List WChar}

theorem collected_byte (byte : isParameterByte wch = true) (different : wch ≠ 0x3B)
    (collected : CsiCollected before last parser) : CsiCollected before (last ++ [wch]) (paramStep wch parser) := by
  rcases parameter_byte_cases byte with ⟨digit, _⟩ | ⟨_, delimiter, _⟩ | ⟨_, _, colon⟩
  · by_cases plain : subFields last = []
    · exact collected_plain_digit digit plain collected
    · exact collected_sub_digit digit plain collected
  · simp [isParameterDelimiter, different] at delimiter
  · have same : wch = 0x3A := by simpa [isSubParameterDelimiter] using colon
    subst same
    exact collected_colon collected

theorem collected_run (start : CsiCollected [] [] parser) (bytes : ∀ wch ∈ parameters, isParameterByte wch = true) :
    ∃ before last, fieldsOf parameters = before ++ [last] ∧
      CsiCollected before last (parameters.foldl (fun parser wch => paramStep wch parser) parser) := by
  induction parameters using reverseRecOn with
  | nil => exact ⟨[], [], by simp [fieldsOf], start⟩
  | append_singleton parameters wch ih =>
    obtain ⟨before, last, split, collected⟩ := ih (fun c member => bytes c (mem_append_left _ member))
    rw [foldl_append, foldl_cons]
    by_cases delimiter : wch = 0x3B
    · subst delimiter
      refine ⟨before ++ [last], [], ?_, collected_delimiter collected⟩
      rw [fieldsOf, split_on_snoc_separator]
      exact congrArg (· ++ [[]]) split
    · obtain ⟨init, final, old, new⟩ := split_on_snoc_other delimiter parameters
      obtain ⟨sameInit, sameLast⟩ := append_inj' (split.symm.trans old) rfl
      have same : last = final := by simpa using sameLast
      subst sameInit same
      exact ⟨before, last ++ [wch], new, collected_byte (bytes wch (by simp)) delimiter collected⟩

theorem sub_ranges_cut (earlier : List VTParameter) (groups : List (List (List WChar))) (index : Nat) :
    VTParameters.subParamsFor ⟨[], earlier ++ groups.flatMap subValues, subRanges earlier.length groups⟩ index =
      (groups.map subValues).getD index [] := by
  induction groups generalizing earlier index with
  | nil => simp [VTParameters.subParamsFor, subRanges]
  | cons group rest ih =>
    cases index with
    | zero => simp [VTParameters.subParamsFor, subRanges]
    | succ index =>
      have tail := ih (earlier ++ subValues group) index
      simpa [VTParameters.subParamsFor, subRanges] using tail

theorem collects_fields (collects : Collects parser values closed current) :
    parser.fullParameters.fields = values.zip ((closed ++ [current]).map subValues) := by
  have count := collects.count
  have size : parser.fullParameters.size = values.length := by
    simp only [VTParameters.size, fullParameters, collects.parameters]
    omega
  apply ext_getElem
  · simp only [VTParameters.fields, length_map, length_range, length_zip, length_append, length_singleton]
    omega
  · intro index low high
    have cut := sub_ranges_cut [] (closed ++ [current]) index
    have inside : index < values.length := by simpa only [VTParameters.fields, size, length_map, length_range] using low
    have subs : parser.fullParameters.subParamsFor index = ((closed ++ [current]).map subValues).getD index [] := by
      simpa only [VTParameters.subParamsFor, fullParameters, collects.subParameters, collects.ranges, nil_append,
        length_nil] using cut
    have value : parser.fullParameters.get index = values.getD index none := by
      simp [VTParameters.get, fullParameters, collects.parameters]
    have grouped : index < ((closed ++ [current]).map subValues).length := by
      simp only [length_map, length_append, length_singleton]
      omega
    simp only [VTParameters.fields, getElem_map, getElem_range, getElem_zip, subs, value,
      getD_eq_getElem _ _ inside, getD_eq_getElem _ _ grouped]

theorem collected_fields (collected : CsiCollected before last parser) : parser.fullParameters.fields =
      (valuesOf before last).zip ((closedGroups before ++ [currentGroup before last]).map subValues) := by
  rw [← collects_fields collected.collects]
  cases values : parser.parameters with
  | nil =>
    -- Nothing was read: the missing parameter and the opened one look alike.
    obtain ⟨noSubs, noRanges⟩ := collected.unopened values
    simp [VTParameters.fields, VTParameters.size, VTParameters.get, VTParameters.subParamsFor, fullParameters, openParameter,
      values, noRanges]
  | cons head tail => simp [openParameter, values]

def csiDispatches (trace : List Action) : List (VTID × VTParameters) :=
  trace.filterMap (fun action => match action with
    | .csiDispatch id parameters => some (id, parameters)
    | _ => none)

theorem intermediate_classes (intermediate : isIntermediate wch = true) :
    isHeaderByte wch = true ∧ isNumericParamValue wch = false ∧ isParameterDelimiter wch = false ∧
      isSubParameterDelimiter wch = false := by
  grind [isIntermediate, isHeaderByte, isNumericParamValue, isParameterDelimiter, isSubParameterDelimiter]

def beforeCsiFinal (parser : ParserState) : Prop := inCsiParameters parser ∨ parser.state = .csiIntermediate

theorem csi_intermediate_step (ctx : Context Host) (intermediate : isIntermediate wch = true)
    (waiting : beforeCsiFinal m.parser) :
    processCharacter ctx wch m = update (fun parser => (actionCollect wch parser).enterCsiIntermediate) m := by
  obtain ⟨header, notDigit, notDelimiter, notColon⟩ := intermediate_classes intermediate
  obtain ⟨notC0, notDelete⟩ := header_byte_classes header
  rw [inert_event (header_byte_inert header)]
  rcases waiting with (state | state | state) | state <;>
    simp [event, eventCsiEntry, eventCsiParam, eventCsiSubParam, eventCsiIntermediate, state, intermediate, notC0, notDelete,
      notDigit, notDelimiter, notColon, update, andThen, actionCollect, enterCsiIntermediate, enter]

theorem csi_final_step (ctx : Context Host) (m : Machine Host) (final : isCsiFinal wch = true)
    (waiting : beforeCsiFinal m.parser) : processCharacter ctx wch m = completeCsi ctx wch m := by
  obtain ⟨notC0, notDelete, notDigit, notDelimiter, notColon, notIntermediate, notMarker⟩ := final_classes final
  rw [inert_event (final_inert final)]
  rcases waiting with (state | state | state) | state <;>
    simp [event, eventCsiEntry, eventCsiParam, eventCsiSubParam, eventCsiIntermediate, isIntermediateInvalid, isParameterInvalid,
      state, notC0, notDelete, notDigit, notDelimiter, notColon, notIntermediate, notMarker]

theorem csi_finish (ctx : Context Host) (m : Machine Host)
    (collected : ∀ wch ∈ intermediates, isIntermediate wch = true) (isFinal : isCsiFinal final = true)
    (waiting : beforeCsiFinal m.parser) : (csiDispatches (processCharacters ctx (intermediates ++ [final]) m).2).head? =
      some ((intermediates.foldl addIntermediate m.parser.identifier).finalize final, m.parser.fullParameters) := by
  induction intermediates generalizing m with
  | nil =>
    simp [processCharacters, csi_final_step ctx m isFinal waiting, completeCsi, actionCsiDispatch, callEngine, andThen,
      csiDispatches]
  | cons wch rest ih =>
    have stepped := csi_intermediate_step ctx (collected wch (by simp)) waiting
    rw [cons_append, processCharacters, andThen, stepped]
    exact ih _ (fun c member => collected c (mem_cons_of_mem wch member)) (.inr rfl)

theorem csi_dispatches_append (quiet : Quiet left) : csiDispatches (left ++ right) = csiDispatches right := by
  have none : csiDispatches left = [] := by
    apply filterMap_eq_nil_iff.mpr
    intro action member
    obtain ⟨wch, rfl⟩ := quiet action member
    rfl
  rw [csiDispatches, filterMap_append]
  exact congrArg (· ++ csiDispatches right) none

theorem private_marker_classes (marker : isCsiPrivateMarker wch = true) :
    isHeaderByte wch = true ∧ isNumericParamValue wch = false ∧ isParameterDelimiter wch = false ∧
      isSubParameterDelimiter wch = false ∧ isIntermediate wch = false := by
  simp only [isCsiPrivateMarker, Bool.or_eq_true, beq_iff_eq] at marker
  rcases marker with ((rfl | rfl) | rfl) | rfl <;> decide

theorem csi_entry_collected (parser : ParserState) : CsiCollected [] [] parser.enterCsiEntry := by
  refine ⟨?_, by simp [enterCsiEntry, actionClear, maxParameterCount], .inl rfl, ?_, fun _ => ⟨rfl, rfl⟩⟩
  · constructor <;>
      simp [openParameter, enterCsiEntry, actionClear, valuesOf, closedGroups, currentGroup, subFields, leadingDigits,
        fieldValue, subValues, subRanges, maxParameterCount]
  · simp [enterCsiEntry, enter, actionClear, subFields]

theorem marker_starts_collecting (ctx : Context Host) {marker : Option WChar} (parser : ParserState) (host : Host)
    (isMarker : ∀ wch ∈ marker, isCsiPrivateMarker wch = true) :
    ∃ started, processCharacters ctx marker.toList ⟨enterCsiEntry parser, host⟩ = (⟨started, host⟩, []) ∧
      CsiCollected [] [] started ∧ started.identifier = marker.toList.foldl addIntermediate clear := by
  have entry := csi_entry_collected parser
  cases marker with
  | none => exact ⟨enterCsiEntry parser, rfl, entry, rfl⟩
  | some wch =>
    obtain ⟨header, notDigit, notDelimiter, notColon, notIntermediate⟩ := private_marker_classes (isMarker wch rfl)
    obtain ⟨notC0, notDelete⟩ := header_byte_classes header
    have state : parser.enterCsiEntry.state = .csiEntry := rfl
    refine ⟨(actionCollect wch parser.enterCsiEntry).enterCsiParam, ?_, ?_, rfl⟩
    · simp [processCharacters, inert_event (header_byte_inert header), event, eventCsiEntry, state, isMarker wch rfl, notC0,
        notDelete, notDigit, notDelimiter, notColon, notIntermediate, andThen, update, skip]
    · have collects := entry.collects
      refine ⟨{ collects with }, entry.overflowed, .inr (.inl rfl), ?_, entry.unopened⟩
      simp [enterCsiParam, enter, subFields]

def dispatchedFields (parameters : List WChar) : List (VTParameter × List VTParameter) :=
  let before := (fieldsOf parameters).dropLast
  let last := (fieldsOf parameters).getLastD []
  (valuesOf before last).zip ((closedGroups before ++ [currentGroup before last]).map subValues)

theorem param_step_modes : SameModes parser (paramStep wch parser) := by
  unfold paramStep
  split
  · exact same_modes_trans (action_sub_param_modes parser) ⟨rfl, rfl, rfl⟩
  · exact same_modes_trans (action_param_modes parser) ⟨rfl, rfl, rfl⟩

theorem param_steps_modes (parameters : List WChar) (parser : ParserState) :
    SameModes parser (parameters.foldl (fun parser wch => paramStep wch parser) parser) := by
  induction parameters generalizing parser with
  | nil => exact ⟨rfl, rfl, rfl⟩
  | cons wch rest ih => exact same_modes_trans param_step_modes (ih _)

section

variable {ctx : Context Host} (introducer : List WChar) (marker : Option WChar) (intermediates : List WChar) (final : WChar)
  (introduced : isIntroducer 0x5B 0x9B introducer m) (ansi : (processSevenBit ctx ESC m).1.parser.ansi = true)
  (isMarker : ∀ wch ∈ marker, isCsiPrivateMarker wch = true) (bytes : ∀ wch ∈ parameters, isParameterByte wch = true)
  (collected : ∀ wch ∈ intermediates, isIntermediate wch = true) (isFinal : isCsiFinal final = true)

include introduced ansi isMarker bytes collected isFinal

theorem csi_dispatched : ∃ sent : VTParameters, (csiDispatches (processCharacters ctx
      (introducer ++ (marker.toList ++ (parameters ++ (intermediates ++ [final])))) m).2).head? =
      some ((intermediates.foldl addIntermediate (marker.toList.foldl addIntermediate clear)).finalize final, sent) ∧
    sent.fields = dispatchedFields parameters := by
  obtain ⟨parser, host, trace, entered, quiet⟩ := introducer_enters
    bracket_enters_csi ⟨rfl, rfl, rfl⟩ introduced ansi
  obtain ⟨started, marked, start, named⟩ := marker_starts_collecting ctx parser host isMarker
  obtain ⟨before, last, split, gathered⟩ := collected_run start bytes
  have read := parameter_bytes_run ctx ⟨started, host⟩ bytes start.inside
  have closed : dispatchedFields parameters =
      (valuesOf before last).zip ((closedGroups before ++ [currentGroup before last]).map subValues) := by
    simp [dispatchedFields, split]
  have finished := csi_finish ctx
    ⟨parameters.foldl (fun parser wch => paramStep wch parser) started, host⟩ collected isFinal (.inl gathered.inside)
  rw [(param_steps_modes parameters started).identifier, named] at finished
  refine ⟨_, ?_, (collected_fields gathered).trans closed.symm⟩
  simp only [process_characters_append, andThen, entered, marked, read, update, nil_append] at finished ⊢
  rw [csi_dispatches_append quiet, finished]

theorem csi_dispatch_fields : (csiDispatches (processCharacters ctx
        (introducer ++ (marker.toList ++ (parameters ++ (intermediates ++ [final])))) m).2).head?.map
      (fun dispatch => dispatch.2.fields) = some (dispatchedFields parameters) := by
  obtain ⟨sent, isSent, fields⟩ := csi_dispatched introducer marker intermediates final introduced ansi isMarker bytes
    collected isFinal
  rw [isSent, ← fields]
  rfl

end

-- A colon after the 32nd field only does no harm when that field has its six
-- sub-parameters already.
def SubParametersConfined (parameters : List WChar) : Prop :=
  (∀ field ∈ (fieldsOf parameters).drop maxParameterCount, 0x3A ∉ field) ∨
    ∀ field ∈ (fieldsOf parameters)[maxParameterCount - 1]?, maxSubParameterCount ≤ (subFields field).length

theorem sub_values_append_iff (group more : List (List WChar)) :
    subValues (group ++ more) = subValues group ↔ more = [] ∨ maxSubParameterCount ≤ group.length := by
  constructor
  · intro same
    have lengths := congrArg length same
    rw [sub_values_length, sub_values_length, length_append] at lengths
    rw [← length_eq_zero_iff]
    omega
  · rintro (rfl | full)
    · simp
    · simp [take_append_of_le_length full, subValues]

theorem intended_fields_zip (parameters : List WChar) : intendedFields parameters =
      (((fieldsOf parameters).take maxParameterCount).map (fun field => fieldValue (leadingDigits field))).zip
        (((fieldsOf parameters).take maxParameterCount).map (fun field => subValues (subFields field))) := by
  rw [zip_map']
  rfl

theorem zip_left_cancel_iff (values : List VTParameter) (left right : List (List VTParameter))
    (leftLength : left.length = values.length) (rightLength : right.length = values.length) :
    values.zip left = values.zip right ↔ left = right := by
  constructor
  · intro same
    have seconds := congrArg (map Prod.snd) same
    rwa [map_snd_zip (Nat.le_of_eq leftLength), map_snd_zip (Nat.le_of_eq rightLength)] at seconds
  · rintro rfl
    rfl

theorem dispatched_eq_intended_iff :
    dispatchedFields parameters = intendedFields parameters ↔ SubParametersConfined parameters := by
  have nonempty : fieldsOf parameters ≠ [] := splitOn_ne_nil _ _
  have split := dropLast_append_getLast nonempty
  rw [intended_fields_zip, SubParametersConfined, dispatchedFields, getLastD_eq_getLast?, getLast?_eq_some_getLast nonempty,
    Option.getD_some]
  generalize (fieldsOf parameters).dropLast = before at split ⊢
  generalize (fieldsOf parameters).getLast nonempty = last at split ⊢
  rw [← split]
  have values : ((before ++ [last]).take maxParameterCount).map (fun field => fieldValue (leadingDigits field)) =
      valuesOf before last := rfl
  rw [values, zip_left_cancel_iff]
  · by_cases full : maxParameterCount ≤ before.length
    · -- The group at the limit is the 32nd field's own followed by all later ones.
      have inside : maxParameterCount - 1 < before.length := Nat.lt_of_lt_of_le (by decide) full
      have next : maxParameterCount - 1 + 1 = maxParameterCount := rfl
      have limit : (before ++ [last])[maxParameterCount - 1]? = some before[maxParameterCount - 1] := by
        rw [getElem?_append_left inside, getElem?_eq_getElem inside]
      have kept : (before ++ [last]).take maxParameterCount =
          before.take (maxParameterCount - 1) ++ [before[maxParameterCount - 1]] := by
        rw [take_append_of_le_length full]
        exact take_succ_eq_append_getElem inside
      have rest : (before ++ [last]).drop maxParameterCount = before.drop maxParameterCount ++ [last] :=
        drop_append_of_le_length full
      have current : currentGroup before last =
          subFields before[maxParameterCount - 1] ++ ((before ++ [last]).drop maxParameterCount).flatMap subFields := by
        rw [currentGroup, drop_eq_getElem_cons inside, next, rest]
        simp
      have spilled : ((before ++ [last]).drop maxParameterCount).flatMap subFields = [] ↔
          ∀ field ∈ (before ++ [last]).drop maxParameterCount, 0x3A ∉ field := by
        simp [subFields, split_on_tail_eq_nil_iff]
      rw [limit, kept, map_append, map_append, closedGroups, map_map, current]
      simp only [map_cons, map_nil, Option.mem_def, Option.some.injEq, forall_eq', ← spilled,
        ← sub_values_append_iff, Function.comp_def, append_cancel_left_eq, cons.injEq, and_true]
    · have cut : before.length ≤ maxParameterCount - 1 := by omega
      have whole : (before ++ [last]).length ≤ maxParameterCount := by
        rw [length_append, length_singleton]
        omega
      have nothing : (before ++ [last]).drop maxParameterCount = [] := drop_of_length_le whole
      rw [nothing, take_of_length_le whole, closedGroups, take_of_length_le cut, currentGroup, drop_of_length_le cut]
      simp
  · simp only [length_map, length_append, length_singleton, closedGroups, length_take, values_of_lengths, maxParameterCount]
    omega
  · simp [values_of_lengths]

theorem csi_parameters_exact_iff (ctx : Context Host) (m : Machine Host) (introducer : List WChar) (marker : Option WChar)
    (parameters intermediates : List WChar) (final : WChar) (introduced : isIntroducer 0x5B 0x9B introducer m)
    (ansi : (processSevenBit ctx ESC m).1.parser.ansi = true) (isMarker : ∀ wch ∈ marker, isCsiPrivateMarker wch = true)
    (bytes : ∀ wch ∈ parameters, isParameterByte wch = true)
    (collected : ∀ wch ∈ intermediates, isIntermediate wch = true) (isFinal : isCsiFinal final = true) :
    (csiDispatches (processCharacters ctx
        (introducer ++ (marker.toList ++ (parameters ++ (intermediates ++ [final])))) m).2).head?.map
      (fun dispatch => dispatch.2.fields) = some (intendedFields parameters) ↔ SubParametersConfined parameters := by
  simpa [csi_dispatch_fields introducer marker intermediates final introduced ansi isMarker bytes collected isFinal] using
    dispatched_eq_intended_iff

-- CSI 38:2;5m, where every sub-parameter stays with its field.
theorem csi_parameters_exact_sgr : (csiDispatches (processCharacters silentContext
        ([ESC, 0x5B] ++ (none.toList ++ ([0x33, 0x38, 0x3A, 0x32, 0x3B, 0x35] ++ ([] ++ [0x6D]))))
        (initialMachine false ())).2).head?.map (fun dispatch => dispatch.2.fields) =
      some [(some 38, [some 2]), (some 5, [])] := by
  have exact' := csi_parameters_exact_iff silentContext (initialMachine false ()) [ESC, 0x5B] none
    [0x33, 0x38, 0x3A, 0x32, 0x3B, 0x35] [] 0x6D (.inl rfl) rfl (by simp) (by decide) (by simp) rfl
  exact exact'.mpr (.inl (by decide))

-- 32 delimiters and then :5. The sub-parameter of the 33rd field is reported for the 32nd.
theorem csi_colon_past_limit_misattributed : (csiDispatches (processCharacters silentContext
        ([ESC, 0x5B] ++ (none.toList ++ ((replicate 32 0x3B ++ [0x3A, 0x35]) ++ ([] ++ [0x6D]))))
        (initialMachine false ())).2).head?.map (fun dispatch => dispatch.2.fields) ≠
      some (intendedFields (replicate 32 0x3B ++ [0x3A, 0x35])) := by
  rw [csi_dispatch_fields [ESC, 0x5B] none [] 0x6D (.inl rfl) rfl (by simp) (by decide) (by simp) rfl]
  decide

end

variable (ctx : Context Host)

theorem vt_loop_goes_on (wch : WChar) (rest : List WChar) (m n : Machine Host) (step : processCharacter ctx wch m = (n, []))
    (inside : n.parser.state ≠ .ground) : vtLoop ctx (wch :: rest) m = vtLoop ctx rest n := by
  rw [vtLoop, step, if_neg inside]
  rfl

theorem in_parameters_not_ground (inside : inCsiParameters parser) : parser.state ≠ .ground := by
  rcases inside with state | state | state <;> rw [state] <;> decide

theorem vt_loop_parameters (m : Machine Host)
    (bytes : ∀ wch ∈ parameters, isParameterByte wch = true) (inside : inCsiParameters m.parser) :
    vtLoop ctx (parameters ++ rest) m =
      vtLoop ctx rest ⟨parameters.foldl (fun parser wch => paramStep wch parser) m.parser, m.host⟩ := by
  induction parameters generalizing m with
  | nil => rfl
  | cons wch tail ih =>
    have first := parameter_byte_step ctx wch (bytes wch mem_cons_self) inside
    have stays := param_step_stays wch m.parser
    simpa [vt_loop_goes_on ctx wch _ m _ first (in_parameters_not_ground stays)] using ih _
      (fun c member => bytes c (mem_cons_of_mem wch member)) stays

theorem escape_from_ground (ground : m.parser.state = .ground) :
    processCharacter ctx ESC m = (⟨m.parser.enterEscape, m.host⟩, []) := by
  simp [processCharacter, processSevenBit, isC1ControlCharacter, ESC, CAN, SUB, isEscape, ground, actionInterrupt, Step.andThen,
    Step.update]

theorem bracket_from_escape (m : Machine Host) (escape : m.parser.state = .escape) (ansi : m.parser.ansi = true) :
    processCharacter ctx 0x5B m = (⟨m.parser.enterCsiEntry, m.host⟩, []) := by
  simp [processCharacter, processSevenBit, isC1ControlCharacter, CAN, SUB, isEscape, ESC, escape, event, eventEscape, isC0Code,
    ETB, EM, US, isDelete, DEL, isIntermediate, ansi, isCsiIndicator, Step.update]

theorem collected_dispatches (parser : ParserState) (bytes : ∀ wch ∈ parameters, isParameterByte wch = true) :
    (parameters.foldl (fun parser wch => paramStep wch parser) parser.enterCsiEntry).fullParameters.fields =
      dispatchedFields parameters := by
  obtain ⟨before, last, split, collected⟩ := collected_run (csi_entry_collected parser) bytes
  rw [collected_fields collected, dispatchedFields, split]
  simp

def csiCollects (parameters : List WChar) (parser : ParserState) : ParserState :=
  parameters.foldl (fun parser wch => paramStep wch parser) parser.enterEscape.enterCsiEntry

theorem csi_vt_loop (ground : m.parser.state = .ground)
    (ansi : m.parser.ansi = true) (bytes : ∀ wch ∈ parameters, isParameterByte wch = true)
    (isFinal : isCsiFinal final = true) : vtLoop ctx (ESC :: 0x5B :: (parameters ++ [final])) m =
      (completeCsi ctx final ⟨csiCollects parameters m.parser, m.host⟩, []) := by
  have escaping : VTStates.escape ≠ .ground := by decide
  have entering : VTStates.csiEntry ≠ .ground := by decide
  have entered : inCsiParameters m.parser.enterEscape.enterCsiEntry := .inl rfl
  have waiting : inCsiParameters (csiCollects parameters m.parser) :=
    (collected_run (csi_entry_collected m.parser.enterEscape) bytes).choose_spec.choose_spec.2.inside
  have last := csi_final_step ctx ⟨csiCollects parameters m.parser, m.host⟩ isFinal (.inl waiting)
  rw [vt_loop_goes_on ctx ESC _ m _ (escape_from_ground ctx ground) escaping,
    vt_loop_goes_on ctx 0x5B _ _ _ (bracket_from_escape ctx ⟨m.parser.enterEscape, m.host⟩ rfl ansi) entering,
    vt_loop_parameters ctx _ bytes entered]
  rw [csiCollects] at last ⊢
  simp [vtLoop, last]

theorem escape_found_first (isa : Isa) (rest : List WChar) :
    findActionableControlCharacter isa (ESC :: rest) = ([], ESC :: rest) := by
  have first : actionableOffset isa (ESC :: rest) = 0 := by
    rw [actionable_offset_plain, plainSearch]
    rfl
  rw [findActionableControlCharacter, first]
  rfl

theorem process_one_sequence (ground : m.parser.state = .ground) (looped : vtLoop ctx (ESC :: rest) m = (outcome, []))
    (ended : outcome.1.parser.state = .ground) : processString ctx (ESC :: rest) m = outcome := by
  have idle : flushInput ctx (ESC :: rest) outcome.1 = (outcome.1, []) := by
    rw [flushInput, ended]
    rfl
  have loops : stringLoop ctx (ESC :: rest).length (ESC :: rest) m = (ESC :: rest, outcome) := by
    rw [length_cons, stringLoop, escape_found_first]
    simp only [isEmpty_nil, if_true, looped]
    cases rest with
    | nil => simp [stringLoop]
    | cons next tail => simp [stringLoop]
  rw [processString, if_pos ground, loops]
  simp [idle]

theorem process_csi_string (parameters : List WChar) (final : WChar) (m : Machine Host) (ground : m.parser.state = .ground)
    (ansi : m.parser.ansi = true) (bytes : ∀ wch ∈ parameters, isParameterByte wch = true) (isFinal : isCsiFinal final = true)
    (ended : (completeCsi ctx final ⟨csiCollects parameters m.parser, m.host⟩).1.parser.state = .ground) :
    processString ctx (ESC :: 0x5B :: (parameters ++ [final])) m =
      completeCsi ctx final ⟨csiCollects parameters m.parser, m.host⟩ :=
  process_one_sequence ctx ground (csi_vt_loop ctx ground ansi bytes isFinal) ended

end Cogterm.VirtualTerminal
