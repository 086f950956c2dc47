import Cogterm.Library.Runs
import Cogterm.Parser.Characters
import Mathlib.Algebra.BigOperators.Group.Finset.Piecewise
import Mathlib.Algebra.BigOperators.Group.Finset.Basic
import Mathlib.Data.Fintype.Basic

namespace Cogterm.VirtualTerminal

open Library AsciiChars

def NUL : WChar := 0x00

inductive MacroState where
  | expectingText
  | expectingHexDigit
  | expectingSecondHexDigit
  | expectingRepeatCount
deriving DecidableEq, Repr

abbrev MacroId := Fin 64

def sizeSub (a b : Nat) : Nat := (a + (2 ^ 64 - b)) % 2 ^ 64

theorem size_sub_of_le (le : b ≤ a) (small : a < 2 ^ 64) : sizeSub a b = a - b := by
  unfold sizeSub
  omega

structure MacroBuffer where
  parseState : MacroState
  decodedChar : WChar
  repeatPending : Bool
  repeatCount : Nat
  repeatStart : Nat
  macros : MacroId → List WChar
  activeMacroId : MacroId
  spaceUsed : Nat
  invokedDepth : Nat
  invokedSequenceLength : Nat

namespace MacroBuffer

open MacroState

def maxSpace : Nat := 0x40000

def empty : MacroBuffer :=
  { parseState := expectingText
    decodedChar := 0
    repeatPending := false
    repeatCount := 0
    repeatStart := 0
    macros := fun _ => []
    activeMacroId := 0
    spaceUsed := 0
    invokedDepth := 0
    invokedSequenceLength := 0 }

def getSpaceAvailable (buffer : MacroBuffer) : Nat := sizeSub maxSpace buffer.spaceUsed

def activeMacro (buffer : MacroBuffer) : List WChar := buffer.macros buffer.activeMacroId

def deleteMacro (buffer : MacroBuffer) (macroId : MacroId) : MacroBuffer :=
  { buffer with
    spaceUsed := sizeSub buffer.spaceUsed (buffer.macros macroId).length
    macros := Function.update buffer.macros macroId [] }

def deleteAll (buffer : MacroBuffer) : MacroBuffer := (List.finRange 64).foldl deleteMacro buffer

-- InvokeMacro up to the call of ProcessString. The result is the text that is
-- processed, or none where the invocation is refused.
def beginInvoke (buffer : MacroBuffer) (macroId : Nat) : MacroBuffer × Option (List WChar) :=
  if known : macroId < 64 then
    let macroSequence := buffer.macros ⟨macroId, known⟩
    let allowedLength := sizeSub maxSpace buffer.invokedSequenceLength
    if buffer.invokedDepth < 16 ∧ macroSequence.length < allowedLength then
      ({ buffer with
          invokedSequenceLength := buffer.invokedSequenceLength + macroSequence.length
          invokedDepth := buffer.invokedDepth + 1 }, some macroSequence)
    else (buffer, none)
  else (buffer, none)

def resetInvokeDepth (buffer : MacroBuffer) : MacroBuffer :=
  let invokedDepth := sizeSub buffer.invokedDepth 1
  { buffer with
    invokedDepth := invokedDepth
    invokedSequenceLength := if invokedDepth = 0 then 0 else buffer.invokedSequenceLength }

def clearMacrosIfInUse (buffer : MacroBuffer) : MacroBuffer :=
  if buffer.invokedDepth > 0 then
    { buffer with macros := fun macroId => List.replicate (buffer.macros macroId).length NUL }
  else buffer

def encodingState (encoding : Nat) : Option MacroState :=
  if encoding = 1 then some expectingHexDigit
  else if encoding = 0 then some expectingText
  else none

def initParser (buffer : MacroBuffer) (macroId deleteControl encoding : Nat) : MacroBuffer × Bool :=
  if known : macroId < 64 then
    if buffer.invokedDepth = 0 then
      let started := { buffer with activeMacroId := ⟨macroId, known⟩, decodedChar := 0, repeatPending := false }
      match encodingState encoding with
      | none => (started, false)
      | some parseState =>
        let parser := { started with parseState := parseState }
        if deleteControl = 0 then (parser.deleteMacro parser.activeMacroId, true)
        else if deleteControl = 1 then (parser.deleteAll, true)
        else (parser, false)
    else (buffer, false)
  else (buffer, false)

-- The shift takes place even when the character is not a digit.
def decodeHexDigit (buffer : MacroBuffer) (ch : WChar) : MacroBuffer × Bool :=
  let shifted := buffer.decodedChar <<< 4
  if 0x30 ≤ ch ∧ ch ≤ 0x39 then ({ buffer with decodedChar := shifted + (ch - 0x30) }, true)
  else if 0x41 ≤ ch ∧ ch ≤ 0x46 then ({ buffer with decodedChar := shifted + (ch - 0x41 + 10) }, true)
  else if 0x61 ≤ ch ∧ ch ≤ 0x66 then ({ buffer with decodedChar := shifted + (ch - 0x61 + 10) }, true)
  else ({ buffer with decodedChar := shifted }, false)

def setActiveMacro (buffer : MacroBuffer) (text : List WChar) : MacroBuffer :=
  { buffer with macros := Function.update buffer.macros buffer.activeMacroId text }

def appendToActiveMacro (buffer : MacroBuffer) (ch : WChar) : MacroBuffer × Bool :=
  if buffer.getSpaceAvailable > 0 then
    ({ buffer.setActiveMacro (buffer.activeMacro ++ [ch]) with spaceUsed := buffer.spaceUsed + 1 }, true)
  else (buffer, false)

def appendRepeat (sequenceLength : Nat) (buffer : MacroBuffer) : MacroBuffer :=
  { buffer.setActiveMacro (buffer.activeMacro ++ (buffer.activeMacro.drop buffer.repeatStart).take sequenceLength) with
    spaceUsed := buffer.spaceUsed + sequenceLength }

def appendRepeats (sequenceLength : Nat) : Nat → MacroBuffer → MacroBuffer
  | 0, buffer => buffer
  | count + 1, buffer => appendRepeats sequenceLength count (buffer.appendRepeat sequenceLength)

def applyPendingRepeat (buffer : MacroBuffer) : MacroBuffer × Bool :=
  if buffer.repeatCount > 1 then
    let sequenceLength := sizeSub buffer.activeMacro.length buffer.repeatStart
    let spaceRequired := (buffer.repeatCount - 1) * sequenceLength % 2 ^ 64
    if spaceRequired > buffer.getSpaceAvailable then (buffer, false)
    else ({ appendRepeats sequenceLength (buffer.repeatCount - 1) buffer with repeatPending := false }, true)
  else ({ buffer with repeatPending := false }, true)

-- The character is neither a control nor ESC.
def parseCharacter (buffer : MacroBuffer) (ch : WChar) : MacroBuffer × Bool :=
  match buffer.parseState with
  | expectingText => buffer.appendToActiveMacro ch
  | expectingHexDigit =>
    let (decoded, isDigit) := buffer.decodeHexDigit ch
    if isDigit then ({ decoded with parseState := expectingSecondHexDigit }, true)
    else if ch = 0x21 ∧ buffer.repeatPending = false then
      ({ decoded with parseState := expectingRepeatCount, repeatCount := 0 }, true)
    else if ch = 0x3B ∧ buffer.repeatPending = true then decoded.applyPendingRepeat
    else (decoded, false)
  | expectingSecondHexDigit =>
    let (decoded, isDigit) := buffer.decodeHexDigit ch
    let (appended, success) := if isDigit then decoded.appendToActiveMacro decoded.decodedChar else (decoded, false)
    ({ appended with decodedChar := 0, parseState := expectingHexDigit }, success)
  | expectingRepeatCount =>
    if 0x30 ≤ ch ∧ ch ≤ 0x39 then
      ({ buffer with repeatCount := min (buffer.repeatCount * 10 + (ch.toNat - 0x30)) maxParameterValue }, true)
    else if ch = 0x3B then
      ({ buffer with repeatPending := true, repeatStart := buffer.activeMacro.length, parseState := expectingHexDigit }, true)
    else (buffer, false)

def parseDefinition (buffer : MacroBuffer) (ch : WChar) : MacroBuffer × Bool :=
  if ch = ESC then
    if buffer.repeatPending then
      let (applied, success) := buffer.applyPendingRepeat
      (if success then applied else applied.deleteMacro applied.activeMacroId, false)
    else (buffer, false)
  else if ch < 0x20 then (buffer, true)
  else
    let (parsed, success) := buffer.parseCharacter ch
    (if success then parsed else parsed.deleteMacro parsed.activeMacroId, success)

end MacroBuffer

open MacroBuffer List Function Nat

namespace MacroBuffer

def totalLength (buffer : MacroBuffer) : Nat := ∑ macroId, (buffer.macros macroId).length

theorem total_split (macros : MacroId → List WChar) (macroId : MacroId) :
    ∑ id, (macros id).length = (macros macroId).length + ∑ id ∈ Finset.univ.erase macroId, (macros id).length :=
  (Finset.add_sum_erase Finset.univ (fun id => (macros id).length) (Finset.mem_univ macroId)).symm

theorem total_update (macros : MacroId → List WChar) (macroId : MacroId) (text : List WChar) :
    ∑ id, (update macros macroId text id).length + (macros macroId).length = ∑ id, (macros id).length + text.length := by
  have others : ∑ id ∈ Finset.univ.erase macroId, (update macros macroId text id).length =
      ∑ id ∈ Finset.univ.erase macroId, (macros id).length := by
    refine Finset.sum_congr rfl fun id member => ?_
    rw [update_of_ne (Finset.ne_of_mem_erase member)]
  rw [total_split (update macros macroId text) macroId, total_split macros macroId, update_self]
  omega

theorem length_le_total (buffer : MacroBuffer) (macroId : MacroId) : (buffer.macros macroId).length ≤ buffer.totalLength := by
  have split := total_split buffer.macros macroId
  unfold totalLength
  omega

-- The repeat fields are bounded as well, since the space a repeat needs is
-- computed from them without a test for overflow.
structure Balanced (buffer : MacroBuffer) : Prop where
  used : buffer.spaceUsed = buffer.totalLength
  bounded : buffer.spaceUsed ≤ maxSpace
  count : buffer.repeatCount ≤ maxParameterValue
  start : buffer.repeatStart ≤ maxSpace

theorem empty_balanced : empty.Balanced :=
  ⟨by simp [empty, totalLength], zero_le _, zero_le _, zero_le _⟩

variable {buffer : MacroBuffer}

theorem space_available (balanced : buffer.Balanced) : buffer.getSpaceAvailable = maxSpace - buffer.spaceUsed :=
  size_sub_of_le balanced.bounded (by decide)

theorem delete_macro_balanced (balanced : buffer.Balanced) : (buffer.deleteMacro macroId).Balanced := by
  have removed := total_update buffer.macros macroId []
  have length := length_le_total buffer macroId
  have used := balanced.used
  have bounded := balanced.bounded
  have exactly : sizeSub buffer.spaceUsed (buffer.macros macroId).length = buffer.spaceUsed - (buffer.macros macroId).length :=
    size_sub_of_le (by omega) (by unfold maxSpace at bounded; omega)
  refine ⟨?_, ?_, balanced.count, balanced.start⟩
  · show sizeSub _ _ = ∑ id, (update buffer.macros macroId [] id).length
    unfold totalLength at used
    rw [length_nil] at removed
    omega
  · show sizeSub _ _ ≤ maxSpace
    omega

theorem delete_all_balanced (buffer : MacroBuffer) (balanced : buffer.Balanced) : buffer.deleteAll.Balanced := by
  unfold deleteAll
  generalize List.finRange 64 = macroIds
  induction macroIds generalizing buffer with
  | nil => exact balanced
  | cons macroId rest ih => exact ih (buffer.deleteMacro macroId) (delete_macro_balanced balanced)

theorem init_parser_balanced (balanced : buffer.Balanced) : (buffer.initParser macroId deleteControl encoding).1.Balanced := by
  unfold initParser
  split
  · split
    · cases encodingState encoding with
      | none => exact { balanced with }
      | some parseState =>
        have started : ({ buffer with
            activeMacroId := ⟨macroId, by assumption⟩, decodedChar := 0, repeatPending := false, parseState := parseState } :
            MacroBuffer).Balanced :=
          { balanced with }
        dsimp only
        split
        · exact delete_macro_balanced started
        · split
          · exact delete_all_balanced _ started
          · exact started
    · exact balanced
  · exact balanced

theorem decode_hex_digit_balanced (ch : WChar) (balanced : buffer.Balanced) : (buffer.decodeHexDigit ch).1.Balanced := by
  unfold decodeHexDigit
  split
  · exact { balanced with }
  split
  · exact { balanced with }
  · split
    · exact { balanced with }
    · exact { balanced with }

theorem extended_balanced (balanced : buffer.Balanced) (room : buffer.spaceUsed + added.length ≤ maxSpace) :
    ({ buffer.setActiveMacro (buffer.activeMacro ++ added) with spaceUsed := buffer.spaceUsed + added.length } :
      MacroBuffer).Balanced := by
  have grown := total_update buffer.macros buffer.activeMacroId (buffer.activeMacro ++ added)
  have used := balanced.used
  refine ⟨?_, room, balanced.count, balanced.start⟩
  show buffer.spaceUsed + added.length = ∑ id,
    (update buffer.macros buffer.activeMacroId (buffer.activeMacro ++ added) id).length
  unfold totalLength at used
  rw [length_append] at grown
  unfold activeMacro at grown ⊢
  omega

theorem append_to_active_balanced (ch : WChar) (balanced : buffer.Balanced) : (buffer.appendToActiveMacro ch).1.Balanced := by
  unfold appendToActiveMacro
  split
  · rename_i room
    rw [space_available balanced] at room
    exact extended_balanced balanced (by rw [length_singleton]; omega)
  · exact balanced

theorem append_repeats_balanced {sequenceLength count : Nat} (buffer : MacroBuffer) (balanced : buffer.Balanced)
    (inside : buffer.repeatStart + sequenceLength ≤ buffer.activeMacro.length)
    (room : buffer.spaceUsed + count * sequenceLength ≤ maxSpace) : (appendRepeats sequenceLength count buffer).Balanced := by
  induction count generalizing buffer with
  | zero => exact balanced
  | succ count ih =>
    rw [succ_mul] at room
    obtain ⟨repeated, isRepeated⟩ :
      ∃ repeated, repeated = (buffer.activeMacro.drop buffer.repeatStart).take sequenceLength :=
      ⟨_, rfl⟩
    have length : repeated.length = sequenceLength := by
      rw [isRepeated, length_take, length_drop]
      omega
    have appended : buffer.appendRepeat sequenceLength =
        { buffer.setActiveMacro (buffer.activeMacro ++ repeated) with spaceUsed := buffer.spaceUsed + repeated.length } := by
      rw [appendRepeat, ← isRepeated, length]
    have active : (buffer.appendRepeat sequenceLength).activeMacro = buffer.activeMacro ++ repeated := by
      simp [appended, activeMacro, setActiveMacro]
    refine ih (buffer.appendRepeat sequenceLength) ?_ ?_ ?_
    · rw [appended]
      exact extended_balanced balanced (by omega)
    · rw [active, length_append]
      show buffer.repeatStart + sequenceLength ≤ _
      omega
    · show buffer.spaceUsed + sequenceLength + count * sequenceLength ≤ maxSpace
      omega

-- A repeat that starts behind the end of the macro (the macro was deleted in
-- between) needs nearly the whole range of size_t, so it is refused.
theorem repeat_fits (balanced : buffer.Balanced) (several : buffer.repeatCount > 1)
    (room : ¬ (buffer.repeatCount - 1) * sizeSub buffer.activeMacro.length buffer.repeatStart % 2 ^ 64 >
      buffer.getSpaceAvailable) :
    buffer.repeatStart ≤ buffer.activeMacro.length ∧
      buffer.spaceUsed + (buffer.repeatCount - 1) * (buffer.activeMacro.length - buffer.repeatStart) ≤ maxSpace := by
  have used := balanced.used
  have bounded := balanced.bounded
  have count := balanced.count
  have start := balanced.start
  have length : buffer.activeMacro.length ≤ buffer.totalLength := length_le_total buffer buffer.activeMacroId
  rw [space_available balanced] at room
  unfold maxSpace at bounded start room ⊢
  unfold maxParameterValue at count
  obtain ⟨copies, isCopies⟩ : ∃ copies, copies = buffer.repeatCount - 1 := ⟨_, rfl⟩
  rw [← isCopies] at room ⊢
  by_cases inside : buffer.repeatStart ≤ buffer.activeMacro.length
  · refine ⟨inside, ?_⟩
    rw [size_sub_of_le inside (by omega)] at room
    have product : copies * (buffer.activeMacro.length - buffer.repeatStart) ≤ 65534 * 0x40000 :=
      Nat.mul_le_mul (by omega) (by omega)
    omega
  · exfalso
    obtain ⟨missing, isMissing⟩ : ∃ missing, missing = buffer.repeatStart - buffer.activeMacro.length := ⟨_, rfl⟩
    have wrapped : sizeSub buffer.activeMacro.length buffer.repeatStart = 2 ^ 64 - missing := by
      unfold sizeSub
      omega
    have product : copies * missing ≤ 65534 * 0x40000 := Nat.mul_le_mul (by omega) (by omega)
    have positive : 1 ≤ copies * missing := Nat.mul_pos (by omega) (by omega)
    have turned : copies * (2 ^ 64 - missing) % 2 ^ 64 = 2 ^ 64 - copies * missing := by
      have whole : copies * (2 ^ 64 - missing) + copies * missing = copies * 2 ^ 64 := by
        rw [← Nat.mul_add, Nat.sub_add_cancel (by omega)]
      omega
    rw [wrapped, turned] at room
    omega

theorem apply_pending_repeat_balanced (balanced : buffer.Balanced) : buffer.applyPendingRepeat.1.Balanced := by
  unfold applyPendingRepeat
  split
  · rename_i several
    dsimp only
    split
    · exact balanced
    rename_i room
    obtain ⟨inside, fits⟩ := repeat_fits balanced several room
    have used := balanced.used
    have bounded := balanced.bounded
    have length : buffer.activeMacro.length ≤ buffer.totalLength := length_le_total buffer buffer.activeMacroId
    unfold maxSpace at bounded
    rw [size_sub_of_le inside (by omega)]
    have appended := append_repeats_balanced buffer balanced (by omega) fits
    exact { appended with }
  · exact { balanced with }

theorem parse_character_balanced (ch : WChar) (balanced : buffer.Balanced) : (buffer.parseCharacter ch).1.Balanced := by
  have decoded := decode_hex_digit_balanced ch balanced
  unfold parseCharacter
  split
  · exact append_to_active_balanced ch balanced
  · generalize buffer.decodeHexDigit ch = result at decoded ⊢
    dsimp only at decoded ⊢
    split
    · exact { decoded with }
    split
    · exact { decoded with count := zero_le _ }
    · split
      · exact apply_pending_repeat_balanced decoded
      · exact decoded
  · generalize buffer.decodeHexDigit ch = result at decoded ⊢
    obtain ⟨next, isDigit⟩ := result
    have appended := append_to_active_balanced next.decodedChar decoded
    cases isDigit with
    | true => exact { appended with }
    | false => exact { decoded with }
  · split
    · exact { balanced with count := min_le_right _ _ }
    · split
      · refine { balanced with start := ?_ }
        have used := balanced.used
        have bounded := balanced.bounded
        have length := length_le_total buffer buffer.activeMacroId
        show (buffer.macros buffer.activeMacroId).length ≤ maxSpace
        omega
      · exact balanced

theorem parse_definition_balanced (balanced : buffer.Balanced) : (buffer.parseDefinition ch).1.Balanced := by
  unfold parseDefinition
  split
  · split
    · have applied := apply_pending_repeat_balanced balanced
      generalize buffer.applyPendingRepeat = result at applied ⊢
      obtain ⟨next, success⟩ := result
      cases success with
      | true => exact applied
      | false => exact delete_macro_balanced applied
    · exact balanced
  · split
    · exact balanced
    · have parsed := parse_character_balanced ch balanced
      generalize buffer.parseCharacter ch = result at parsed ⊢
      obtain ⟨next, success⟩ := result
      cases success with
      | true => exact parsed
      | false => exact delete_macro_balanced parsed

end MacroBuffer

end Cogterm.VirtualTerminal
