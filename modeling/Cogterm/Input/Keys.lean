import Cogterm.Input.Win32Input

namespace Cogterm.Input

open VirtualTerminal

-- VkKeyScanW and MapVirtualKeyW. The former returns -1 for a character that no
-- key produces.
structure Keyboard where
  vkKeyScan : WChar → Int16
  mapVirtualKey : UInt16 → UInt32

def leftAltPressed : UInt32 := 0x02
def leftCtrlPressed : UInt32 := 0x08
def shiftPressed : UInt32 := 0x10

section

variable (keyboard : Keyboard)

def generateKeyFromChar (wch : WChar) : Option (UInt16 × UInt32) :=
  let keyscan := (keyboard.vkKeyScan wch).toInt
  -- LOBYTE and HIBYTE, which are not negative.
  let key := keyscan % 256
  let keyscanModifiers := keyscan / 256 % 256
  if key = -1 ∧ keyscanModifiers = -1 then none
  else some (UInt16.ofNat key.toNat, (if keyscanModifiers.toNat.testBit 0 then shiftPressed else 0) |||
      (if keyscanModifiers.toNat.testBit 1 then leftCtrlPressed else 0) |||
      if keyscanModifiers.toNat.testBit 2 then leftAltPressed else 0)

def keyEvent (bKeyDown : Bool) (wch : WChar) (vkey : UInt16) (modifierState : UInt32) : InputRecord :=
  .key (synthesizeKeyEvent bKeyDown 1 vkey (keyboard.mapVirtualKey vkey).toUInt16 wch modifierState)

def getSingleKeypress (wch : WChar) (vkey : UInt16) (modifierState : UInt32) : List InputRecord :=
  [keyEvent keyboard true wch vkey modifierState, keyEvent keyboard false wch vkey modifierState]

-- The modifier keys that are set are pressed around the events.
def wrapModifiers (modifierState : UInt32) (events : List InputRecord) :
    List (UInt32 × UInt16) → UInt32 → List InputRecord
  | [], _ => events
  | (flag, vkey) :: keys, currentModifiers =>
    if modifierState &&& flag = 0 then wrapModifiers modifierState events keys currentModifiers
    else keyEvent keyboard true 0 vkey (currentModifiers ||| flag) ::
      (wrapModifiers modifierState events keys (currentModifiers ||| flag) ++ [keyEvent keyboard false 0 vkey currentModifiers])

def generateWrappedSequence (wch : WChar) (vkey : UInt16) (modifierState : UInt32) : List InputRecord :=
  wrapModifiers keyboard modifierState (getSingleKeypress keyboard wch vkey modifierState)
    [(shiftPressed, 0x10), (leftAltPressed, 0x12), (leftCtrlPressed, 0x11)] 0

-- Of the rest of the engine only _expectingStringTerminator is looked at.
def writeSingleKey (wch : WChar) (vkey : UInt16) (modifierState : UInt32) (host : InputHost Bool) : InputHost Bool :=
  host.call (.writeInput (generateWrappedSequence keyboard wch vkey modifierState))

-- What happens to the key that was generated, if any.
def writeGenerated (wch : WChar) (key : Option (UInt16 × UInt32)) (flags : UInt32) (host : InputHost Bool) : InputHost Bool :=
  match key with
  | none => host
  | some (vkey, modifierState) => writeSingleKey keyboard wch vkey (modifierState ||| flags) host

def actionPrint (wch : WChar) (host : InputHost Bool) : InputHost Bool :=
  writeGenerated keyboard wch (generateKeyFromChar keyboard wch) 0 host

def doControlCharacter (wch : WChar) (writeAlt : Bool) (host : InputHost Bool) : InputHost Bool :=
  let alt := if writeAlt then leftAltPressed else 0
  if wch = 0x03 ∧ writeAlt = false then
    (host.call (.writeCtrlKey (.key (synthesizeKeyEvent true 1 0x43 0 0x03 leftCtrlPressed)))).call
      (.writeCtrlKey (.key (synthesizeKeyEvent false 1 0x43 0 0x03 leftCtrlPressed)))
  else if wch = 0x08 then
    writeGenerated keyboard 0x7F ((generateKeyFromChar keyboard 0x7F).map fun key => (key.1, 0)) (leftCtrlPressed ||| alt) host
  else if wch = 0x0D then writeGenerated keyboard wch ((generateKeyFromChar keyboard wch).map fun key => (key.1, 0)) alt host
  else if wch = 0x1B then writeSingleKey keyboard wch 0x1B alt host
  else if wch < 0x20 then
    writeGenerated keyboard wch (generateKeyFromChar keyboard wch) ((if wch = 0x09 then 0 else leftCtrlPressed) ||| alt) host
  else if wch = 0x7F then writeSingleKey keyboard 0x08 0x08 alt host
  else actionPrint keyboard wch host

def actionEscDispatch (id : VTID) (host : InputHost Bool) : InputHost Bool × Bool :=
  let wch := UInt16.ofNat id.value
  if host.rest = true ∧ id.value = fromString [0x5C] then ({ host with rest := false }, false)
  else if host.isVtInputEnabled then (host, false)
  else if wch = 0x7F then (doControlCharacter keyboard wch true host, true)
  else (writeGenerated keyboard wch (generateKeyFromChar keyboard wch) leftAltPressed host, true)

def characterHandlers (handlers : InputHandlers Bool) : InputHandlers Bool :=
  { handlers with
    other := fun action host => match action with
      | .print wch => (actionPrint keyboard wch host, true)
      | .execute wch => (doControlCharacter keyboard wch false host, true)
      | .escDispatch id => actionEscDispatch keyboard id host
      | action => handlers.other action host }

-- The character that VkKeyScanW is asked for. Ctrl+C, ESC and DEL have keys of
-- their own, and backspace is taken for DEL with Ctrl.
def lookedUp (host : InputHost Bool) : Action → Option WChar
  | .print wch => some wch
  | .execute wch => if wch = 0x03 ∨ wch = 0x1B ∨ wch = 0x7F then none else some (if wch = 0x08 then 0x7F else wch)
  | .escDispatch id =>
    if (host.rest = true ∧ id.value = fromString [0x5C]) ∨ host.isVtInputEnabled = true ∨
      UInt16.ofNat id.value = 0x7F then none
    else some (UInt16.ofNat id.value)
  | _ => none

theorem generates_key (wch : WChar) : (generateKeyFromChar keyboard wch).isSome := by
  have notNegative : ¬ ((keyboard.vkKeyScan wch).toInt % 256 = -1 ∧ (keyboard.vkKeyScan wch).toInt / 256 % 256 = -1) := by
    omega
  rw [generateKeyFromChar, if_neg notNegative]
  rfl

theorem generated_writes (generated : key.isSome) (wch : WChar) (flags : UInt32) (host : InputHost Bool) : ∃ inputEvents,
      (writeGenerated keyboard wch key flags host).calls = host.calls ++ [.writeInput inputEvents] := by
  cases key with
  | none => simp at generated
  | some found => exact ⟨_, rfl⟩

theorem lookup_writes (handlers : InputHandlers Bool) (host : InputHost Bool) (action : Action) (wch : WChar)
    (asked : lookedUp host action = some wch) : ∃ inputEvents,
      (handle (characterHandlers keyboard handlers) host action).1.calls = host.calls ++ [.writeInput inputEvents] := by
  have generated := generates_key keyboard
  cases action with
  | print character => exact generated_writes keyboard (generated character) _ _ host
  | execute character =>
    obtain ⟨notEtx, notEsc, notDel⟩ : character ≠ 0x03 ∧ character ≠ 0x1B ∧ character ≠ 0x7F := by
      by_contra special
      rw [lookedUp, if_pos (by tauto)] at asked
      cases asked
    simp only [handle, characterHandlers, doControlCharacter, notEtx, false_and, if_neg notEsc, if_neg notDel, if_false]
    split
    · exact generated_writes keyboard (by simp [generated]) _ _ host
    · split
      · exact generated_writes keyboard (by simp [generated]) _ _ host
      · split <;> exact generated_writes keyboard (generated character) _ _ host
  | escDispatch id =>
    by_cases unasked : (host.rest = true ∧ id.value = fromString [0x5C]) ∨ host.isVtInputEnabled = true ∨
        UInt16.ofNat id.value = 0x7F
    · rw [lookedUp, if_pos unasked] at asked
      cases asked
    · obtain ⟨unawaited, disabled, notDel⟩ := by simpa only [not_or] using unasked
      simp only [handle, characterHandlers, actionEscDispatch, if_neg unawaited, if_neg disabled, if_neg notDel]
      exact generated_writes keyboard (generated _) _ _ host
  | _ => cases asked

-- A key is made up for every character that is looked up, so nothing is left
-- out unless the lookup finds a key.
theorem unmapped_silent_iff (handlers : InputHandlers Bool) (host : InputHost Bool) (action : Action) :
    (∀ wch, lookedUp host action = some wch → keyboard.vkKeyScan wch = -1 →
        (handle (characterHandlers keyboard handlers) host action).1.calls = host.calls) ↔
      ∀ wch, lookedUp host action = some wch → keyboard.vkKeyScan wch ≠ -1 := by
  constructor
  · intro silent wch asked unmapped
    obtain ⟨inputEvents, writes⟩ := lookup_writes keyboard handlers host action wch asked
    rw [silent wch asked unmapped] at writes
    simp at writes
  · intro mapped wch asked unmapped
    exact absurd unmapped (mapped wch asked)

end

-- No key produces a Greek letter: Shift, Alt and Ctrl are pressed around key 255.
theorem unmapped_character_presses_modifiers :
    (actionPrint ⟨fun _ => -1, fun _ => 0⟩ 0x3B1 ⟨false, false, [], false⟩).calls =
      [.writeInput [.key ⟨1, 1, 0x10, 0, 0, 0x10⟩, .key ⟨1, 1, 0x12, 0, 0, 0x12⟩, .key ⟨1, 1, 0x11, 0, 0, 0x1A⟩,
        .key ⟨1, 1, 0xFF, 0, 0x3B1, 0x1A⟩, .key ⟨0, 1, 0xFF, 0, 0x3B1, 0x1A⟩,
        .key ⟨0, 1, 0x11, 0, 0, 0x12⟩, .key ⟨0, 1, 0x12, 0, 0, 0x10⟩, .key ⟨0, 1, 0x10, 0, 0, 0⟩]] := by
  decide +kernel

end Cogterm.Input
