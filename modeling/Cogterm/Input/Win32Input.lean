import Cogterm.Host.InputBuffer
import Cogterm.TextBuffer.Renditions

namespace Cogterm.Input

open VirtualTerminal

-- The calls of IInteractDispatch, without the window manipulations that no
-- sequence leads to.
inductive InteractCall where
  | writeInput (inputEvents : List InputRecord)
  | writeCtrlKey (event : InputRecord)
  | writeString (string : List WChar)
  | writeStringRaw (string : List WChar)
  | moveCursor (row col : Nat)
  | focusChanged (focused : Bool)
deriving DecidableEq, Repr

-- What the engine keeps and what it has asked of its dispatcher. Rest is the
-- state of the handlers that are not looked at here.
structure InputHost (Rest : Type) where
  isVtInputEnabled : Bool
  encounteredWin32InputModeSequence : Bool
  calls : List InteractCall
  rest : Rest

-- The other handlers of the engine. flush is what the machine does with a
-- sequence that was not handled.
structure InputHandlers (Rest : Type) where
  csi : VTID → VTParameters → InputHost Rest → InputHost Rest × Bool
  other : Action → InputHost Rest → InputHost Rest × Bool
  flush : Action → InputHost Rest → InputHost Rest

namespace CsiActionCodes

def focusIn : Nat := fromString [0x49]
def focusOut : Nat := fromString [0x4F]
def win32KeyboardInput : Nat := fromString [0x5F]

end CsiActionCodes

def synthesizeKeyEvent (bKeyDown : Bool) (wRepeatCount wVirtualKeyCode wVirtualScanCode unicodeChar : UInt16)
    (dwControlKeyState : UInt32) : KeyEventRecord :=
  ⟨if bKeyDown then 1 else 0, wRepeatCount, wVirtualKeyCode, wVirtualScanCode, unicodeChar, dwControlKeyState⟩

def saturatedWord (value : Nat) : UInt16 := UInt16.ofNat (min value 0xFFFF)
def saturatedDword (value : Nat) : UInt32 := UInt32.ofNat (min value 0xFFFFFFFF)

def generateWin32Key (parameters : VTParameters) : KeyEventRecord :=
  synthesizeKeyEvent ((parameters.get 3).getD 0 != 0) (saturatedWord ((parameters.get 5).getD 1))
    (saturatedWord ((parameters.get 0).getD 0)) (saturatedWord ((parameters.get 1).getD 0))
    (saturatedWord ((parameters.get 2).getD 0)) (saturatedDword ((parameters.get 4).getD 0))

section

variable {Rest : Type} (handlers : InputHandlers Rest)

def InputHost.call (host : InputHost Rest) (made : InteractCall) : InputHost Rest := { host with calls := host.calls ++ [made] }

def actionCsiDispatch (id : VTID) (parameters : VTParameters) (host : InputHost Rest) : InputHost Rest × Bool :=
  if host.isVtInputEnabled && id.value != CsiActionCodes.win32KeyboardInput && id.value != CsiActionCodes.focusIn &&
      id.value != CsiActionCodes.focusOut then (host, false)
  else if id.value = CsiActionCodes.focusIn then (host.call (.focusChanged true), true)
  else if id.value = CsiActionCodes.focusOut then (host.call (.focusChanged false), true)
  else if id.value = CsiActionCodes.win32KeyboardInput then
    ({ host.call (.writeCtrlKey (.key (generateWin32Key parameters))) with encounteredWin32InputModeSequence := true }, true)
  else handlers.csi id parameters host

def handle (host : InputHost Rest) : Action → InputHost Rest × Bool
  | .csiDispatch id parameters => actionCsiDispatch handlers id parameters host
  | action => handlers.other action host

-- The engine has no means to reach the modes of its machine.
def inputEngine : Engine (InputHost Rest) where
  act := fun host action =>
    let handled := handle handlers host action
    (if handled.2 then handled.1 else handlers.flush action handled.1, { Reply.silent with accepted := handled.2 })
  encounteredWin32InputModeSequence := InputHost.encounteredWin32InputModeSequence
  invokeMacro := fun host => (host, none)
  macroDone := fun host => host

def inputMachine (isa : Isa) : Context (InputHost Rest) := stateMachine (inputEngine handlers) true isa

end

variable {parser : ParserState}

section

open AsciiChars ParserState

variable {Rest : Type}

-- An input machine stays in ANSI mode and never has a callback to run.
structure Steady (parser : ParserState) : Prop where
  ansi : parser.ansi = true
  idle : parser.onCsiCompleteCallback = false

theorem reply_steady (steady : Steady parser) : Steady (applyReply parser ((inputEngine handlers).act host action).2) :=
  ⟨steady.ansi, steady.idle⟩

theorem steady_rules :
    EventRules Steady (fun _ => True) ⟨inputEngine handlers, true, isa, callback⟩ where
  call := fun action _ m steady => ⟨reply_steady steady, fun _ _ => trivial⟩
  escDispatch := fun _ _ m steady => ⟨reply_steady steady, fun _ _ => trivial⟩
  freshEscDispatch := fun _ m steady =>
    ⟨reply_steady ⟨steady.ansi, steady.idle⟩, fun _ _ => trivial⟩
  csiDispatch := fun _ _ m steady => ⟨reply_steady steady, fun _ _ => trivial⟩
  dcsDispatch := by
    intro wch m steady
    refine ⟨?_, fun _ _ => trivial⟩
    simp only [actionDcsDispatch]
    split <;> exact ⟨steady.ansi, steady.idle⟩
  passThrough := by
    intro wch m steady
    unfold eventDcsPassThrough
    split
    · refine ⟨?_, fun _ _ => trivial⟩
      simp only
      split <;> exact ⟨steady.ansi, steady.idle⟩
    · exact keeps_skip m steady
  complete := by
    intro m steady
    rw [executeCsiCompleteCallback, steady.idle]
    exact keeps_skip m steady
  clear := keeps_update (fun _ steady => ⟨steady.ansi, steady.idle⟩)
  collect := fun _ _ => keeps_update (fun _ steady => ⟨steady.ansi, steady.idle⟩)
  same := fun _ same => keeps_update
    (fun parser steady => ⟨(same parser).ansi.trans steady.ansi, (same parser).onCsiCompleteCallback.trans steady.idle⟩)

theorem input_runs_steady (handlers : InputHandlers Rest) (isa : Isa) (host : InputHost Rest) (texts : List (List WChar)) :
    Steady (processStrings (inputMachine handlers isa) texts (initialMachine true host)).1.parser :=
  (rules_keep_runs Steady (fun _ => True) (inputEngine handlers) true isa (fun _ _ => steady_rules) texts
    (initialMachine true host) ⟨rfl, rfl⟩).1

end

open Buffer AsciiChars ParserState List Nat

def win32Fields (key : KeyEventRecord) : List Nat :=
  [key.wVirtualKeyCode.toNat, key.wVirtualScanCode.toNat, key.unicodeChar.toNat, if key.bKeyDown ≠ 0 then 1 else 0,
    key.dwControlKeyState.toUInt16.toNat, key.wRepeatCount.toNat]

-- CSI Vk ; Sc ; Uc ; Kd ; Cs ; Rc _
def makeWin32Output (csi : List WChar) (key : KeyEventRecord) : List WChar :=
  csi ++ ([0x3B].intercalate ((win32Fields key).map formatNumber) ++ [0x5F])

theorem win32_fields_fit (key : KeyEventRecord) : ∀ field ∈ win32Fields key, field ≤ maxParameterValue := by
  have small : ∀ word : UInt16, word.toNat ≤ 65535 := fun word => le_of_lt_succ word.toNat_lt
  intro field member
  simp only [win32Fields, mem_cons, not_mem_nil, or_false] at member
  unfold maxParameterValue
  rcases member with rfl | rfl | rfl | rfl | rfl | rfl
  · exact small _
  · exact small _
  · exact small _
  · split <;> omega
  · exact small _
  · exact small _

theorem intercalate_bytes (numbers : List Nat) :
    ∀ wch ∈ [0x3B].intercalate (numbers.map formatNumber), isParameterByte wch = true := by
  have digits : ∀ number, ∀ wch ∈ formatNumber number, isParameterByte wch = true := by
    intro number wch member
    rw [isParameterByte, format_digits number wch member]
    rfl
  induction numbers with
  | nil => simp
  | cons number rest ih =>
    cases rest with
    | nil =>
      simpa using digits number
    | cons next tail =>
      intro wch member
      rw [map_cons, map_cons, intercalate_cons_cons] at member
      rcases mem_append.mp member with early | late
      · rcases mem_append.mp early with own | separator
        · exact digits number wch own
        · rw [mem_singleton.mp separator]
          decide
      · exact ih wch late

theorem dispatched_numbers (nonempty : numbers ≠ []) (few : numbers.length ≤ maxParameterCount)
    (fit : ∀ number ∈ numbers, number ≤ maxParameterValue) :
    dispatchedFields ([0x3B].intercalate (numbers.map formatNumber)) = numbers.map (fun number => (some number, [])) := by
  rw [dispatched_fields _ (by simpa using nonempty) (by simpa using few), map_map]
  · apply map_congr_left
    intro number member
    exact parse_literal (format_digits number) (format_value (fit number member))
  · intro field member
    obtain ⟨number, _, rfl⟩ := mem_map.mp member
    exact (digits_not_delimiter (format_digits number)).1

variable {parameters : VTParameters}

theorem get_of_fields (rest : List VTParameter)
    (listed : parameters.fields[index]? = some (value, rest)) : parameters.get index = value := by
  rw [VTParameters.fields, getElem?_map] at listed
  obtain ⟨found, inRange, isPair⟩ := Option.map_eq_some_iff.mp listed
  obtain ⟨_, same⟩ := List.getElem?_eq_some_iff.mp inRange
  rw [getElem_range] at same
  rw [same]
  exact congrArg Prod.fst isPair

structure SameKey (key record : KeyEventRecord) : Prop where
  wVirtualKeyCode : record.wVirtualKeyCode = key.wVirtualKeyCode
  wVirtualScanCode : record.wVirtualScanCode = key.wVirtualScanCode
  unicodeChar : record.unicodeChar = key.unicodeChar
  dwControlKeyState : record.dwControlKeyState = key.dwControlKeyState
  wRepeatCount : record.wRepeatCount = key.wRepeatCount
  bKeyDown : record.bKeyDown ≠ 0 ↔ key.bKeyDown ≠ 0

theorem saturated_word (word : UInt16) : saturatedWord word.toNat = word := by
  have small : word.toNat ≤ 0xFFFF := le_of_lt_succ word.toNat_lt
  simp [saturatedWord, min_eq_left small]

theorem saturated_dword (small : dword < 0x10000) : saturatedDword dword.toUInt16.toNat = dword := by
  have bound : dword.toNat < 0x10000 := UInt32.lt_iff_toNat_lt.mp small
  have low : dword.toUInt16.toNat = dword.toNat := by exact mod_eq_of_lt bound
  rw [saturatedDword, low, min_eq_left (by omega), UInt32.ofNat_toNat]

theorem generated_same_key (small : key.dwControlKeyState < 0x10000)
    (isFields : parameters.fields = (win32Fields key).map (fun number => (some number, []))) :
    SameKey key (generateWin32Key parameters) := by
  have value (index number : Nat) (listed : (win32Fields key)[index]? = some number) : parameters.get index = some number := by
    apply get_of_fields []
    simp [isFields, listed]
  rw [generateWin32Key, value 0 _ rfl, value 1 _ rfl, value 2 _ rfl, value 3 _ rfl, value 4 _ rfl, value 5 _ rfl]
  simp only [Option.getD_some, saturated_word, saturated_dword small]
  refine ⟨rfl, rfl, rfl, rfl, rfl, ?_⟩
  by_cases down : key.bKeyDown ≠ 0
  · simp [synthesizeKeyEvent]
  · simp [synthesizeKeyEvent]

section

variable {Rest : Type} (handlers : InputHandlers Rest)

theorem win32_dispatch (parameters : VTParameters) (host : InputHost Rest) (spelling : List WChar) :
    (inputEngine handlers).act host (.csiDispatch ⟨CsiActionCodes.win32KeyboardInput, spelling⟩ parameters) =
      ({ host.call (.writeCtrlKey (.key (generateWin32Key parameters))) with encounteredWin32InputModeSequence := true },
        .silent) := by
  have handled : actionCsiDispatch handlers ⟨CsiActionCodes.win32KeyboardInput, spelling⟩ parameters host =
      ({ host.call (.writeCtrlKey (.key (generateWin32Key parameters))) with encounteredWin32InputModeSequence := true },
        true) := by
    have apart : CsiActionCodes.win32KeyboardInput ≠ CsiActionCodes.focusIn ∧
        CsiActionCodes.win32KeyboardInput ≠ CsiActionCodes.focusOut := by decide
    simp [actionCsiDispatch, if_neg apart.1, if_neg apart.2]
  simp only [inputEngine, handle, handled]
  rfl

theorem complete_win32 (isa : Isa) (host : InputHost Rest) (fresh : parser.identifier = .clear)
    (idle : parser.onCsiCompleteCallback = false) :
    completeCsi (inputMachine handlers isa) 0x5F ⟨parser, host⟩ =
      (⟨parser.enterGround, { host.call (.writeCtrlKey (.key (generateWin32Key parser.fullParameters))) with
          encounteredWin32InputModeSequence := true }⟩,
        [.csiDispatch (VTIDBuilder.clear.finalize 0x5F) parser.fullParameters]) := by
  have isId : VTIDBuilder.clear.finalize 0x5F = ⟨CsiActionCodes.win32KeyboardInput, [0x5F]⟩ := by decide
  have answer := win32_dispatch handlers parser.fullParameters host [0x5F]
  rw [← isId] at answer
  have dispatched : VirtualTerminal.actionCsiDispatch (inputMachine handlers isa) 0x5F ⟨parser, host⟩ =
      (⟨parser, { host.call (.writeCtrlKey (.key (generateWin32Key parser.fullParameters))) with
          encounteredWin32InputModeSequence := true }⟩,
        [.csiDispatch (VTIDBuilder.clear.finalize 0x5F) parser.fullParameters]) := by
    have engine : (inputMachine handlers isa).engine = inputEngine handlers := rfl
    simp [VirtualTerminal.actionCsiDispatch, callEngine, fresh, engine, answer, apply_silent_reply]
  simp only [completeCsi, Step.andThen, dispatched, Step.update, executeCsiCompleteCallback]
  simp [enterGround, enter, idle]

end

theorem win32_input_round_trip {Rest : Type} (handlers : InputHandlers Rest) (isa : Isa) (first later : InputHost Rest)
    (texts : List (List WChar)) (key : KeyEventRecord) (parser : ParserState)
    (reached : (processStrings (inputMachine handlers isa) texts (initialMachine true first)).1.parser = parser)
    (ground : parser.state = .ground) (small : key.dwControlKeyState < 0x10000) : ∃ record, SameKey key record ∧
      (processString (inputMachine handlers isa) (makeWin32Output [ESC, 0x5B] key) ⟨parser, later⟩).1.host.calls =
        later.calls ++ [.writeCtrlKey (.key record)] := by
  have steady := input_runs_steady handlers isa first texts
  rw [reached] at steady
  have bytes := intercalate_bytes (win32Fields key)
  have isFields := (collected_dispatches parser.enterEscape bytes).trans
    (dispatched_numbers (cons_ne_nil _ _) (by simp [win32Fields, maxParameterCount]) (win32_fields_fit key))
  have modes := param_steps_modes ([0x3B].intercalate ((win32Fields key).map formatNumber)) parser.enterEscape.enterCsiEntry
  have completed := complete_win32 handlers isa later modes.identifier (modes.onCsiCompleteCallback.trans steady.idle)
  have processed := process_csi_string (inputMachine handlers isa) ([0x3B].intercalate ((win32Fields key).map formatNumber)) 0x5F
    ⟨parser, later⟩ ground steady.ansi bytes (by decide) (by rw [csiCollects, completed]; rfl)
  refine ⟨_, generated_same_key small isFields, ?_⟩
  rw [makeWin32Output, cons_append, cons_append, nil_append, processed, csiCollects, completed]
  rfl

def idleHandlers : InputHandlers Unit := ⟨fun _ _ host => (host, false), fun _ host => (host, true), fun _ host => host⟩

theorem win32_input_shift_a : ∃ record, SameKey ⟨1, 1, 0x41, 0x1E, 0x41, 0x10⟩ record ∧
      (processString (inputMachine idleHandlers .scalar) (makeWin32Output [ESC, 0x5B] ⟨1, 1, 0x41, 0x1E, 0x41, 0x10⟩)
        ⟨(processStrings (inputMachine idleHandlers .scalar) [[0x61]] (initialMachine true ⟨true, false, [], ()⟩)).1.parser,
          ⟨true, false, [], ()⟩⟩).1.host.calls = [.writeCtrlKey (.key record)] :=
  win32_input_round_trip idleHandlers .scalar ⟨true, false, [], ()⟩ ⟨true, false, [], ()⟩ [[0x61]] _ _ rfl
    (by decide +kernel) (by decide)

end Cogterm.Input
