import Cogterm.Adapter.MacroAccounting

namespace Cogterm.VirtualTerminal

open Library AsciiChars List

namespace MacroBuffer

theorem init_parser_invoked {buffer : MacroBuffer} (invoked : buffer.invokedDepth ≠ 0) :
    buffer.initParser macroId deleteControl encoding = (buffer, false) := by
  by_cases known : macroId < 64
  · simp [initParser, if_neg invoked]
  · rw [initParser, dif_neg known]

structure SameInvocation (before after : MacroBuffer) : Prop where
  depth : after.invokedDepth = before.invokedDepth
  length : after.invokedSequenceLength = before.invokedSequenceLength

theorem same_invocation_trans (a b c : MacroBuffer) (first : SameInvocation a b) (second : SameInvocation b c) :
    SameInvocation a c := ⟨second.depth.trans first.depth, second.length.trans first.length⟩

theorem delete_all_same (buffer : MacroBuffer) : SameInvocation buffer buffer.deleteAll := by
  unfold deleteAll
  generalize List.finRange 64 = macroIds
  induction macroIds generalizing buffer with
  | nil => exact ⟨rfl, rfl⟩
  | cons macroId rest ih =>
    exact same_invocation_trans _ (buffer.deleteMacro macroId) _ ⟨rfl, rfl⟩ (ih (buffer.deleteMacro macroId))

theorem init_parser_same (buffer : MacroBuffer) (macroId deleteControl encoding : Nat) :
    SameInvocation buffer (buffer.initParser macroId deleteControl encoding).1 := by
  unfold initParser
  split
  · split
    · cases encodingState encoding with
      | none => exact ⟨rfl, rfl⟩
      | some parseState =>
        dsimp only
        split
        · exact ⟨rfl, rfl⟩
        · split
          · exact ⟨(delete_all_same _).depth, (delete_all_same _).length⟩
          · exact ⟨rfl, rfl⟩
    · exact ⟨rfl, rfl⟩
  · exact ⟨rfl, rfl⟩

theorem decode_hex_digit_same (buffer : MacroBuffer) (ch : WChar) : SameInvocation buffer (buffer.decodeHexDigit ch).1 := by
  unfold decodeHexDigit
  split
  · exact ⟨rfl, rfl⟩
  split
  · exact ⟨rfl, rfl⟩
  · split
    · exact ⟨rfl, rfl⟩
    · exact ⟨rfl, rfl⟩

theorem append_to_active_same (buffer : MacroBuffer) (ch : WChar) : SameInvocation buffer (buffer.appendToActiveMacro ch).1 := by
  unfold appendToActiveMacro
  split
  · exact ⟨rfl, rfl⟩
  · exact ⟨rfl, rfl⟩

theorem append_repeats_same {sequenceLength count : Nat} (buffer : MacroBuffer) :
    SameInvocation buffer (appendRepeats sequenceLength count buffer) := by
  induction count generalizing buffer with
  | zero => exact ⟨rfl, rfl⟩
  | succ count ih =>
    exact same_invocation_trans _ (buffer.appendRepeat sequenceLength) _ ⟨rfl, rfl⟩ (ih (buffer.appendRepeat sequenceLength))

theorem apply_pending_repeat_same (buffer : MacroBuffer) : SameInvocation buffer buffer.applyPendingRepeat.1 := by
  unfold applyPendingRepeat
  split
  · dsimp only
    split
    · exact ⟨rfl, rfl⟩
    · exact same_invocation_trans _ _ _ (append_repeats_same buffer) ⟨rfl, rfl⟩
  · exact ⟨rfl, rfl⟩

theorem parse_character_same (buffer : MacroBuffer) (ch : WChar) : SameInvocation buffer (buffer.parseCharacter ch).1 := by
  have decoded := decode_hex_digit_same buffer ch
  unfold parseCharacter
  split
  · exact append_to_active_same buffer ch
  · generalize buffer.decodeHexDigit ch = result at decoded ⊢
    obtain ⟨next, isDigit⟩ := result
    dsimp only at decoded ⊢
    split
    · exact ⟨decoded.depth, decoded.length⟩
    split
    · exact ⟨decoded.depth, decoded.length⟩
    · split
      · exact same_invocation_trans _ _ _ decoded (apply_pending_repeat_same next)
      · exact decoded
  · generalize buffer.decodeHexDigit ch = result at decoded ⊢
    obtain ⟨next, isDigit⟩ := result
    have appended := same_invocation_trans _ _ _ decoded (append_to_active_same next next.decodedChar)
    cases isDigit with
    | true => exact ⟨appended.depth, appended.length⟩
    | false => exact ⟨decoded.depth, decoded.length⟩
  · split
    · exact ⟨rfl, rfl⟩
    · split
      · exact ⟨rfl, rfl⟩
      · exact ⟨rfl, rfl⟩

theorem parse_definition_same (buffer : MacroBuffer) (ch : WChar) : SameInvocation buffer (buffer.parseDefinition ch).1 := by
  unfold parseDefinition
  split
  · split
    · have applied := apply_pending_repeat_same buffer
      generalize buffer.applyPendingRepeat = result at applied ⊢
      obtain ⟨next, success⟩ := result
      cases success with
      | true => exact applied
      | false => exact ⟨applied.depth, applied.length⟩
    · exact ⟨rfl, rfl⟩
  · split
    · exact ⟨rfl, rfl⟩
    · have parsed := parse_character_same buffer ch
      generalize buffer.parseCharacter ch = result at parsed ⊢
      obtain ⟨next, success⟩ := result
      cases success with
      | true => exact parsed
      | false => exact ⟨parsed.depth, parsed.length⟩

theorem begin_invoke_cases (buffer : MacroBuffer) (macroId : Nat) :
    (buffer.beginInvoke macroId).2 = none ∨
      ∃ text, buffer.invokedDepth < 16 ∧ text.length < sizeSub maxSpace buffer.invokedSequenceLength ∧
        buffer.beginInvoke macroId = ({ buffer with
          invokedSequenceLength := buffer.invokedSequenceLength + text.length, invokedDepth := buffer.invokedDepth + 1 },
            some text) := by
  unfold beginInvoke
  by_cases known : macroId < 64
  · rw [dif_pos known]
    by_cases accepted : buffer.invokedDepth < 16 ∧
      (buffer.macros ⟨macroId, known⟩).length < sizeSub maxSpace buffer.invokedSequenceLength
    · exact Or.inr ⟨buffer.macros ⟨macroId, known⟩, accepted.1, accepted.2, if_pos accepted⟩
    · exact Or.inl (by rw [if_neg accepted])
  · exact Or.inl (by rw [dif_neg known])

end MacroBuffer

open MacroBuffer

-- InvokeMacro processes the text of the macro before it returns, so the calls
-- made by that text come between the call and its return.
inductive MacroOperation where
  | initParser (macroId deleteControl encoding : Nat)
  | parseDefinition (ch : WChar)
  | invokeMacro (macroId : Nat)
  | processStringReturns
  | clearMacrosIfInUse

-- running and processed are ghosts: the texts of the invocations in progress,
-- the innermost first, and the number of characters given to the state machine
-- since the outermost of them began. handler tells whether DefineMacro has
-- returned a string handler that still is in use.
structure MacroSystem where
  buffer : MacroBuffer
  handler : Bool
  running : List (List WChar)
  processed : Nat

namespace MacroSystem

def initial : MacroSystem := ⟨MacroBuffer.empty, false, [], 0⟩

-- Outside of an invocation any call can come next. The text of a macro reaches
-- ParseDefinition through the handler only.
def perform (system : MacroSystem) : MacroOperation → MacroSystem
  | .initParser macroId deleteControl encoding =>
    let (buffer, success) := system.buffer.initParser macroId deleteControl encoding
    { system with buffer := buffer, handler := success }
  | .parseDefinition ch =>
    if system.running ≠ [] ∧ system.handler = false then system
    else
      let (buffer, success) := system.buffer.parseDefinition ch
      { system with buffer := buffer, handler := system.handler && success }
  | .invokeMacro macroId =>
    match system.buffer.beginInvoke macroId with
    | (_, none) => system
    | (buffer, some text) =>
      { buffer := buffer
        handler := false
        running := text :: system.running
        processed := (if system.running = [] then 0 else system.processed) + text.length }
  | .processStringReturns =>
    match system.running with
    | [] => system
    | _ :: outer => { system with buffer := system.buffer.resetInvokeDepth, running := outer }
  | .clearMacrosIfInUse => { system with buffer := system.buffer.clearMacrosIfInUse }

def KeepsMacros (before after : MacroBuffer) : MacroOperation → Prop
  | .clearMacrosIfInUse => ∀ macroId, after.macros macroId = List.replicate (before.macros macroId).length NUL
  | _ => after.macros = before.macros

structure Accounted (system : MacroSystem) : Prop where
  used : system.buffer.spaceUsed = system.buffer.totalLength
  bounded : system.buffer.spaceUsed ≤ maxSpace
  depth : system.running.length ≤ 16
  processed : system.processed < maxSpace

structure Invariant (system : MacroSystem) : Prop where
  balanced : system.buffer.Balanced
  depth : system.buffer.invokedDepth = system.running.length
  nested : system.running.length ≤ 16
  length : system.buffer.invokedSequenceLength = if system.running = [] then 0 else system.processed
  processed : system.processed < maxSpace
  unhandled : system.running ≠ [] → system.handler = false

variable {system : MacroSystem}

theorem invariant_accounted (invariant : system.Invariant) : system.Accounted :=
  ⟨invariant.balanced.used, invariant.balanced.bounded, invariant.nested, invariant.processed⟩

theorem initial_invariant : initial.Invariant :=
  ⟨empty_balanced, rfl, Nat.zero_le _, rfl, by decide, fun running => absurd rfl running⟩

theorem invoke_invariant (macroId : Nat) (invariant : system.Invariant) : (system.perform (.invokeMacro macroId)).Invariant ∧
      (system.perform (.invokeMacro macroId)).buffer.macros = system.buffer.macros := by
  simp only [perform]
  rcases begin_invoke_cases system.buffer macroId with refused | ⟨text, shallow, short, accepted⟩
  · generalize system.buffer.beginInvoke macroId = result at refused ⊢
    obtain ⟨next, processed⟩ := result
    cases refused
    exact ⟨invariant, rfl⟩
  · rw [accepted]
    have balanced := invariant.balanced
    have depth := invariant.depth
    have length := invariant.length
    have processed := invariant.processed
    have allowed : sizeSub maxSpace system.buffer.invokedSequenceLength = maxSpace - system.buffer.invokedSequenceLength := by
      refine size_sub_of_le ?_ (by decide)
      split at length <;> omega
    refine ⟨⟨{ balanced with }, ?_, ?_, ?_, ?_, fun _ => rfl⟩, rfl⟩
    · simp [depth]
    · rw [length_cons]; omega
    · simp [length]
    · dsimp only
      omega

theorem returns_invariant (invariant : system.Invariant) : (system.perform .processStringReturns).Invariant ∧
      (system.perform .processStringReturns).buffer.macros = system.buffer.macros := by
  have balanced := invariant.balanced
  have depth := invariant.depth
  have nested := invariant.nested
  have length := invariant.length
  simp only [perform]
  cases isRunning : system.running with
  | nil => exact ⟨invariant, rfl⟩
  | cons text outer =>
    rw [isRunning, length_cons] at depth nested
    rw [isRunning] at length
    have less : sizeSub system.buffer.invokedDepth 1 = outer.length := by
      rw [size_sub_of_le (by omega) (by omega)]
      omega
    simp only [resetInvokeDepth, less]
    refine ⟨⟨{ balanced with }, rfl, Nat.le_of_succ_le nested, ?_,
      invariant.processed, fun _ => invariant.unhandled (by rw [isRunning]; exact cons_ne_nil text outer)⟩, trivial⟩
    cases outer with
    | nil => rfl
    | cons next rest => exact length

theorem clear_invariant (invariant : system.Invariant) : (system.perform .clearMacrosIfInUse).Invariant := by
  have balanced := invariant.balanced
  have depth := invariant.depth
  have nested := invariant.nested
  have length := invariant.length
  have unhandled := invariant.unhandled
  simp only [perform, MacroBuffer.clearMacrosIfInUse]
  split
  · refine ⟨{ balanced with used := ?_ }, depth, nested, length, invariant.processed, unhandled⟩
    simpa [MacroBuffer.totalLength] using balanced.used
  · exact invariant

variable {operation : MacroOperation}

theorem perform_invariant (invariant : system.Invariant) : (system.perform operation).Invariant := by
  have balanced := invariant.balanced
  have depth := invariant.depth
  have length := invariant.length
  cases operation with
  | initParser macroId deleteControl encoding =>
    have same := init_parser_same system.buffer macroId deleteControl encoding
    refine ⟨init_parser_balanced balanced, same.depth.trans depth, invariant.nested, same.length.trans length,
      invariant.processed, fun running => ?_⟩
    have invoked : system.buffer.invokedDepth ≠ 0 := by
      rw [depth]
      exact fun nothing => running (length_eq_zero_iff.mp nothing)
    simp [perform, init_parser_invoked invoked]
  | parseDefinition ch =>
    simp only [perform]
    split
    · exact invariant
    have same := parse_definition_same system.buffer ch
    refine ⟨parse_definition_balanced balanced, same.depth.trans depth, invariant.nested, same.length.trans length,
      invariant.processed, fun running => ?_⟩
    simp [invariant.unhandled running]
  | invokeMacro macroId => exact (invoke_invariant macroId invariant).1
  | processStringReturns => exact (returns_invariant invariant).1
  | clearMacrosIfInUse => exact clear_invariant invariant

theorem perform_keeps_macros (invariant : system.Invariant) (inProgress : system.running ≠ []) :
    KeepsMacros system.buffer (system.perform operation).buffer operation := by
  have invoked : system.buffer.invokedDepth ≠ 0 := by
    rw [invariant.depth]
    exact fun nothing => inProgress (length_eq_zero_iff.mp nothing)
  cases operation with
  | initParser macroId deleteControl encoding =>
    simp [KeepsMacros, perform, init_parser_invoked invoked]
  | parseDefinition ch =>
    simp only [KeepsMacros, perform]
    rw [if_pos ⟨inProgress, invariant.unhandled inProgress⟩]
  | invokeMacro macroId => exact (invoke_invariant macroId invariant).2
  | processStringReturns => exact (returns_invariant invariant).2
  | clearMacrosIfInUse =>
    intro macroId
    simp only [perform, MacroBuffer.clearMacrosIfInUse]
    rw [if_pos (Nat.pos_of_ne_zero invoked)]

def Protected (system : MacroSystem) (operation : MacroOperation) : Prop :=
  system.running ≠ [] → KeepsMacros system.buffer (system.perform operation).buffer operation

theorem every_state_invariant : EveryState perform initial operations Invariant :=
  every_state_of_steps perform (fun _ _ => True) initial_invariant
    (fun _ _ invariant _ => perform_invariant invariant) (fun _ _ _ => trivial)

theorem macros_accounted (operations : List MacroOperation) :
    EveryState perform initial operations Accounted ∧ EveryStep perform initial operations Protected :=
  ⟨fun index => invariant_accounted (every_state_invariant index),
    fun index _ _ => perform_keeps_macros (every_state_invariant index)⟩

end MacroSystem

end Cogterm.VirtualTerminal
