import Cogterm.Library.Coalesce
import Cogterm.Parser.Machine

namespace Cogterm.VirtualTerminal

open AsciiChars ParserState Library List Step

section

-- Printing reaches no setter of the parser, and what it leaves in the host for
-- later replies does not depend on how the printed text was cut.
structure OutputEngine (Host : Type) extends Engine Host where
  print_silent : ∀ host wch, (act host (.print wch)).2 = .silent
  print_string_silent : ∀ host string, (act host (.printString string)).2 = .silent
  print_single : ∀ host wch, (act host (.print wch)).1 = (act host (.printString [wch])).1
  print_append : ∀ host s t,
    (act (act host (.printString s)).1 (.printString t)).1 = (act host (.printString (s ++ t))).1

-- The least engine: it keeps nothing and never answers.
def silentEngine : OutputEngine Unit where
  act := fun _ _ => ((), .silent)
  encounteredWin32InputModeSequence := fun _ => false
  invokeMacro := fun _ => ((), none)
  macroDone := fun _ => ()
  print_silent := fun _ _ => rfl
  print_string_silent := fun _ _ => rfl
  print_single := fun _ _ => rfl
  print_append := fun _ _ _ => rfl

def silentContext : Context Unit := stateMachine silentEngine.toEngine false .scalar

def Action.output : Action → Output WChar Action
  | .print wch => .text [wch]
  | .printString string => .text string
  | action => .mark action

def engineActions (trace : List Action) : List (Output WChar Action) := coalesce (trace.map Action.output)

variable {Host : Type}

def SameRun (left right : Machine Host × List Action) : Prop :=
  left.1 = right.1 ∧ engineActions left.2 = engineActions right.2

theorem engine_actions_append_congr (sameLeft : engineActions left = engineActions left')
    (sameRight : engineActions right = engineActions right') :
    engineActions (left ++ right) = engineActions (left' ++ right') := by
  simp only [engineActions, map_append]
  exact coalesce_append_congr sameLeft sameRight

theorem same_run_refl : SameRun run run := ⟨rfl, rfl⟩

variable {m : Machine Host}

theorem same_run_and_then {first first' : Step Host} (sameFirst : SameRun (first m) (first' m))
    (sameSecond : SameRun (second (first m).1) (second' (first m).1)) :
    SameRun (first.andThen second m) (first'.andThen second' m) := by
  obtain ⟨machine, actions⟩ := sameFirst
  refine ⟨?_, ?_⟩
  · simpa only [andThen, ← machine] using sameSecond.1
  · simp only [andThen, ← machine]
    exact engine_actions_append_congr actions sameSecond.2

theorem process_characters_append (ctx : Context Host) (a b : List WChar) (m : Machine Host) :
    processCharacters ctx (a ++ b) m = (processCharacters ctx a).andThen (processCharacters ctx b) m := by
  induction a generalizing m with
  | nil => rfl
  | cons wch rest ih =>
    simp [processCharacters, andThen, ih]

theorem apply_silent_reply (parser : ParserState) : applyReply parser .silent = parser := rfl

theorem ground_prints_plain (ground : m.parser.state = .ground)
    (plain : isActionableFromGround wch = false) : processCharacter ctx wch m = actionPrint ctx wch m := by
  obtain ⟨notC0, notDelete, notC1, notEscape, notCan, notSub⟩ := not_actionable_is_plain plain
  simp [processCharacter, processSevenBit, event, eventGround, ground, notC0, notDelete, notC1, notEscape, notCan, notSub]

section

variable (engine : OutputEngine Host) (isa : Isa) (callback : Step Host)

def outputContext : Context Host := ⟨engine.toEngine, false, isa, callback⟩

theorem print_string_result (text : List WChar) (m : Machine Host) :
    actionPrintString (outputContext engine isa callback) text m =
      (⟨m.parser, (engine.act m.host (.printString text)).1⟩, [.printString text]) := by
  simp [actionPrintString, callEngine, outputContext, engine.print_string_silent, apply_silent_reply]

theorem print_plain_result (ground : m.parser.state = .ground) (plain : isActionableFromGround wch = false) :
    processCharacter (outputContext engine isa callback) wch m =
      (⟨m.parser, (engine.act m.host (.printString [wch])).1⟩, [.print wch]) := by
  rw [ground_prints_plain ground plain]
  simp [actionPrint, callEngine, outputContext, engine.print_silent, engine.print_single, apply_silent_reply]

theorem print_run_merges (wch : WChar) (m : Machine Host) (ground : m.parser.state = .ground)
    (plain : ∀ c ∈ wch :: rest, isActionableFromGround c = false) :
    SameRun (processCharacters (outputContext engine isa callback) (wch :: rest) m)
      (actionPrintString (outputContext engine isa callback) (wch :: rest) m) := by
  have first := print_plain_result engine isa callback ground (plain wch (by simp))
  induction rest generalizing wch m with
  | nil =>
    rw [processCharacters, andThen, first, print_string_result]
    exact ⟨rfl, rfl⟩
  | cons next rest ih =>
    -- The tail is one printed string by induction; the host law glues the first unit to it.
    have tailPlain : ∀ c ∈ next :: rest, isActionableFromGround c = false :=
      fun c member => plain c (mem_cons_of_mem wch member)
    obtain ⟨machine, actions⟩ := ih next ⟨m.parser, (engine.act m.host (.printString [wch])).1⟩ ground tailPlain
      (print_plain_result engine isa callback ground (tailPlain next (by simp)))
    rw [print_string_result] at machine actions
    rw [processCharacters, andThen, first, print_string_result]
    refine ⟨?_, ?_⟩
    · rw [machine]
      simp [engine.print_append]
    · exact engine_actions_append_congr rfl actions

theorem printed_run_merges (ground : m.parser.state = .ground) (plain : ∀ c ∈ run, isActionableFromGround c = false) :
    SameRun (if run.isEmpty then (m, []) else actionPrintString (outputContext engine isa callback) run m)
      (processCharacters (outputContext engine isa callback) run m) := by
  cases run with
  | nil => exact same_run_refl
  | cons wch rest =>
    have merged := print_run_merges engine isa callback wch m ground plain
    exact ⟨merged.1.symm, merged.2.symm⟩

theorem vt_loop_runs_characters (ctx : Context Host) (text : List WChar) (m : Machine Host) :
    processCharacters ctx text m = ((processCharacters ctx (vtLoop ctx text m).2 (vtLoop ctx text m).1.1).1,
        (vtLoop ctx text m).1.2 ++ (processCharacters ctx (vtLoop ctx text m).2 (vtLoop ctx text m).1.1).2) := by
  induction text generalizing m with
  | nil => rfl
  | cons wch rest ih =>
    by_cases done : (processCharacter ctx wch m).1.parser.state = .ground
    · simp [vtLoop, if_pos done, processCharacters, andThen]
    · simp only [vtLoop, if_neg done, processCharacters, andThen]
      rw [ih]
      simp

theorem vt_loop_stops_in_ground (ctx : Context Host) (text : List WChar) (m : Machine Host)
    (more : (vtLoop ctx text m).2 ≠ []) : (vtLoop ctx text m).1.1.parser.state = .ground := by
  induction text generalizing m with
  | nil => exact absurd rfl more
  | cons wch rest ih =>
    by_cases done : (processCharacter ctx wch m).1.parser.state = .ground
    · simpa only [vtLoop, if_pos done] using done
    · simp only [vtLoop, if_neg done] at more ⊢
      exact ih _ more

theorem vt_loop_remaining_length (ctx : Context Host) (text : List WChar) (m : Machine Host) :
    (vtLoop ctx text m).2.length ≤ text.length - 1 := by
  induction text generalizing m with
  | nil => simp [vtLoop]
  | cons wch rest ih =>
    by_cases done : (processCharacter ctx wch m).1.parser.state = .ground
    · simp [vtLoop, done]
    · have shorter := ih (processCharacter ctx wch m).1
      simp only [vtLoop, if_neg done, length_cons]
      omega

theorem string_loop_runs_characters (fuel : Nat) (text : List WChar) (m : Machine Host)
    (ground : text ≠ [] → m.parser.state = .ground) (enough : text.length ≤ fuel) :
    SameRun (stringLoop (outputContext engine isa callback) fuel text m).2
      (processCharacters (outputContext engine isa callback) text m) := by
  induction fuel generalizing text m with
  | zero =>
    have empty : text = [] := length_eq_zero_iff.mp (by omega)
    subst empty
    exact same_run_refl
  | succ fuel ih =>
    cases text with
    | nil => exact same_run_refl
    | cons wch rest =>
      have inGround := ground (by simp)
      obtain ⟨split, plain⟩ := find_actionable_splits isa (wch :: rest)
      have compiled : (outputContext engine isa callback).isa = isa := rfl
      rw [stringLoop, compiled]
      generalize runEq : findActionableControlCharacter isa (wch :: rest) = run at split plain ⊢
      rw [← split, process_characters_append]
      have printed := printed_run_merges engine isa callback inGround plain
      by_cases ended : run.2.isEmpty
      · rw [if_pos ended, List.isEmpty_iff.mp ended]
        simpa only [andThen, processCharacters, skip, append_nil] using printed
      rw [if_neg ended]
      generalize (if run.1.isEmpty then (m, []) else
        actionPrintString (outputContext engine isa callback) run.1 m) = result at printed ⊢
      have shorter := vt_loop_remaining_length (outputContext engine isa callback) run.2 result.1
      have total : run.1.length + run.2.length = (wch :: rest).length := by rw [← length_append, split]
      have tail := ih _ _ (vt_loop_stops_in_ground (outputContext engine isa callback) run.2 result.1) (by omega)
      simp only [andThen, ← printed.1]
      rw [vt_loop_runs_characters]
      exact ⟨tail.1, engine_actions_append_congr printed.2 (engine_actions_append_congr rfl tail.2)⟩

theorem process_string_runs_characters (text : List WChar) (m : Machine Host) :
    SameRun (processString (outputContext engine isa callback) text m)
      (processCharacters (outputContext engine isa callback) text m) := by
  have idle (run : List WChar) (n : Machine Host) : flushInput (outputContext engine isa callback) run n = (n, []) := by
    simp [flushInput, outputContext]
  by_cases ground : m.parser.state = .ground
  · have looped := string_loop_runs_characters engine isa callback text.length text m (fun _ => ground) (Nat.le_refl _)
    simpa only [processString, if_pos ground, idle, append_nil] using looped
  have looped := string_loop_runs_characters engine isa callback _ _ _
    (vt_loop_stops_in_ground (outputContext engine isa callback) text m) (Nat.le_refl _)
  rw [vt_loop_runs_characters]
  simp only [processString, if_neg ground, idle, append_nil]
  exact ⟨looped.1, engine_actions_append_congr rfl looped.2⟩

theorem process_strings_run_characters (chunks : List (List WChar)) (m : Machine Host) :
    SameRun (processStrings (outputContext engine isa callback) chunks m)
      (processCharacters (outputContext engine isa callback) chunks.flatten m) := by
  induction chunks generalizing m with
  | nil => exact same_run_refl
  | cons chunk rest ih =>
    rw [flatten_cons, process_characters_append]
    exact same_run_and_then (process_string_runs_characters engine isa callback chunk m) (ih _)

end

theorem output_parsing_ignores_chunks (engine : OutputEngine Host) (isa : Isa) (chunks : List (List WChar)) (m : Machine Host) :
    let ctx := stateMachine engine.toEngine false isa
    (processStrings ctx chunks m).1 = (processString ctx chunks.flatten m).1 ∧
      engineActions (processStrings ctx chunks m).2 = engineActions (processString ctx chunks.flatten m).2 ∧
      (processCharacters ctx chunks.flatten m).1 = (processString ctx chunks.flatten m).1 ∧
      engineActions (processCharacters ctx chunks.flatten m).2 =
        engineActions (processString ctx chunks.flatten m).2 := by
  intro ctx
  have pieces := process_strings_run_characters engine isa (csiCallback engine.toEngine false isa maxInvokeDepth) chunks m
  have whole := process_string_runs_characters engine isa (csiCallback engine.toEngine false isa maxInvokeDepth) chunks.flatten m
  exact ⟨pieces.1.trans whole.1.symm, pieces.2.trans whole.2.symm, whole.1.symm, whole.2.symm⟩

end

variable {Host : Type}

def Quiet (trace : List Action) : Prop := ∀ action ∈ trace, ∃ wch, action = .dcsString wch

def escaped (parser : ParserState) : Prop := parser.state = .escape ∨ parser.state = .oscTermination

theorem escape_from_anywhere (ctx : Context Host) (m : Machine Host) :
    escaped (processSevenBit ctx ESC m).1.parser ∧ Quiet (processSevenBit ctx ESC m).2 := by
  by_cases osc : m.parser.state = .oscString ∨ m.parser.state = .oscParam
  · rcases osc with state | state <;>
      simp [processSevenBit, ESC, CAN, SUB, isEscape, isOscTerminator, BEL, state, event, eventOscString, eventOscParam,
        update, enterOscTermination, enter, escaped, Quiet]
  obtain ⟨notString, notParam⟩ := not_or.mp osc
  by_cases passing : m.parser.state = .dcsPassThrough
  · simp [processSevenBit, ESC, CAN, SUB, isEscape, passing, actionInterrupt, callEngine, andThen, update,
      enterEscape, enter, actionClear, escaped, Quiet]
  · simp [processSevenBit, ESC, CAN, SUB, isEscape, notString, notParam, passing, actionInterrupt, andThen,
      update, enterEscape, enter, actionClear, escaped, Quiet]

theorem bracket_enters_csi (m : Machine Host) (ansi : m.parser.ansi = true) (start : escaped m.parser) :
    ∃ parser, processSevenBit ctx 0x5B m = (⟨enterCsiEntry parser, m.host⟩, []) := by
  rcases start with state | state
  · refine ⟨m.parser, ?_⟩
    simp [processSevenBit, CAN, SUB, isEscape, ESC, state, event, eventEscape, isC0Code, ETB, EM, US, isDelete, DEL,
      isIntermediate, ansi, isCsiIndicator, update]
  · refine ⟨m.parser.enterEscape, ?_⟩
    simp [processSevenBit, CAN, SUB, isEscape, ESC, state, event, eventOscTermination, isStringTerminatorIndicator, eventEscape,
      isC0Code, ETB, EM, US, isDelete, DEL, isIntermediate, ansi, isCsiIndicator, update, andThen, enterEscape, enter,
      actionClear]

theorem letter_p_enters_dcs (m : Machine Host) (ansi : m.parser.ansi = true) (start : escaped m.parser) :
    ∃ parser, processSevenBit ctx 0x50 m = (⟨enterDcsEntry parser, m.host⟩, []) := by
  rcases start with state | state
  · refine ⟨m.parser, ?_⟩
    simp [processSevenBit, CAN, SUB, isEscape, ESC, state, event, eventEscape, isC0Code, ETB, EM, US, isDelete, DEL,
      isIntermediate, ansi, isCsiIndicator, isOscIndicator, isSs3Indicator, isDcsIndicator, update]
  · refine ⟨m.parser.enterEscape, ?_⟩
    simp [processSevenBit, CAN, SUB, isEscape, ESC, state, event, eventOscTermination, isStringTerminatorIndicator, eventEscape,
      isC0Code, ETB, EM, US, isDelete, DEL, isIntermediate, ansi, isCsiIndicator, isOscIndicator, isSs3Indicator, isDcsIndicator,
      update, andThen, enterEscape, enter, actionClear]

def isInert (wch : WChar) : Prop := isC1ControlCharacter wch = false ∧ isEscape wch = false ∧ wch ≠ CAN ∧ wch ≠ SUB
def isHeaderByte (wch : WChar) : Bool := 0x20 ≤ wch && wch ≤ 0x3F
def isCsiFinal (wch : WChar) : Bool := 0x40 ≤ wch && !isDelete wch && !isC1ControlCharacter wch

theorem inert_event (inert : isInert wch) : processCharacter ctx wch m = event ctx m.parser.state wch m := by
  obtain ⟨notC1, notEscape, notCan, notSub⟩ := inert
  simp [processCharacter, processSevenBit, notC1, notEscape, notCan, notSub]

theorem header_byte_inert (byte : isHeaderByte wch = true) : isInert wch := by
  grind [isHeaderByte, isInert, isC1ControlCharacter, isEscape, ESC, CAN, SUB]

theorem header_byte_classes (byte : isHeaderByte wch = true) : isC0Code wch = false ∧ isDelete wch = false := by
  grind [isHeaderByte, isC0Code, isDelete, ETB, EM, FS, US, DEL]

theorem final_inert (final : isCsiFinal wch = true) : isInert wch := by
  grind [isCsiFinal, isInert, isC1ControlCharacter, isEscape, ESC, CAN, SUB]

theorem final_classes (final : isCsiFinal wch = true) :
    isC0Code wch = false ∧ isDelete wch = false ∧ isNumericParamValue wch = false ∧ isParameterDelimiter wch = false ∧
      isSubParameterDelimiter wch = false ∧ isIntermediate wch = false ∧ isCsiPrivateMarker wch = false := by
  grind [isCsiFinal, isNumericParamValue, isParameterDelimiter, isSubParameterDelimiter, isC0Code, isDelete, isIntermediate,
    isCsiPrivateMarker, ETB, EM, FS, US, DEL]

-- The two ways to write an introducer: ESC and its indicator, or the C1 control.
def isIntroducer (indicator c1 : WChar) (introducer : List WChar) (m : Machine Host) : Prop :=
  introducer = [ESC, indicator] ∨ (introducer = [c1] ∧ m.parser.acceptC1 = true)

theorem introducer_enters {enterState : ParserState → ParserState}
    (enters : ∀ n : Machine Host, n.parser.ansi = true → escaped n.parser →
      ∃ parser, processSevenBit ctx indicator n = (⟨enterState parser, n.host⟩, []))
    (paired : isC1ControlCharacter c1 = true ∧ c1To7Bit c1 = indicator ∧ isC1ControlCharacter indicator = false)
    (introduced : isIntroducer indicator c1 introducer m) (ansi : (processSevenBit ctx ESC m).1.parser.ansi = true) :
    ∃ parser host trace, processCharacters ctx introducer m = (⟨enterState parser, host⟩, trace) ∧ Quiet trace := by
  obtain ⟨start, quiet⟩ := escape_from_anywhere ctx m
  obtain ⟨parser, entered⟩ := enters _ ansi start
  obtain ⟨isC1, seven, notC1⟩ := paired
  have escape : isC1ControlCharacter ESC = false := rfl
  refine ⟨parser, (processSevenBit ctx ESC m).1.host, (processSevenBit ctx ESC m).2, ?_, quiet⟩
  rcases introduced with sevenBit | ⟨eightBit, accepted⟩
  · simp [sevenBit, processCharacters, processCharacter, andThen, skip, escape, notC1, entered]
  · simp [eightBit, processCharacters, processCharacter, isC1, seven, accepted, andThen, skip, entered]

end Cogterm.VirtualTerminal
