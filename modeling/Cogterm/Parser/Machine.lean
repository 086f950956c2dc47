import Cogterm.Parser.Scan

namespace Cogterm.VirtualTerminal

inductive VTStates where
  | ground
  | escape
  | escapeIntermediate
  | csiEntry
  | csiIntermediate
  | csiIgnore
  | csiParam
  | csiSubParam
  | oscParam
  | oscString
  | oscTermination
  | ss3Entry
  | ss3Param
  | vt52Param
  | dcsEntry
  | dcsIgnore
  | dcsIntermediate
  | dcsParam
  | dcsPassThrough
  | sosPmApcString
deriving DecidableEq, Repr

-- One call into the engine. dcsString is a call of the string handler that an
-- earlier dcsDispatch returned.
inductive Action where
  | execute (wch : WChar)
  | executeFromEscape (wch : WChar)
  | print (wch : WChar)
  | printString (string : List WChar)
  | escDispatch (id : VTID)
  | vt52EscDispatch (id : VTID) (parameters : VTParameters)
  | csiDispatch (id : VTID) (parameters : VTParameters)
  | dcsDispatch (id : VTID) (parameters : VTParameters)
  | dcsString (wch : WChar)
  | oscDispatch (parameter : Nat) (string : List WChar)
  | ss3Dispatch (wch : WChar) (parameters : VTParameters)
deriving DecidableEq, Repr

-- What a call may change in the machine that made it: the two parser modes and
-- the registration of a completion callback. accepted is the result of a
-- dcsDispatch (a handler was returned) or of a dcsString (keep the handler).
structure Reply where
  acceptC1 : Option Bool
  ansi : Option Bool
  onCsiComplete : Bool
  accepted : Bool
deriving DecidableEq, Repr

def Reply.silent : Reply := ⟨none, none, false, true⟩

-- Host is whatever the engine keeps between calls. invokeMacro is the body of
-- the registered callback up to the text it injects, macroDone the rest of it.
structure Engine (Host : Type) where
  act : Host → Action → Host × Reply
  encounteredWin32InputModeSequence : Host → Bool
  invokeMacro : Host → Host × Option (List WChar)
  macroDone : Host → Host

structure ParserState where
  state : VTStates
  acceptC1 : Bool
  ansi : Bool
  identifier : VTIDBuilder
  parameters : List VTParameter
  parameterLimitOverflowed : Bool
  subParameters : List VTParameter
  subParameterRanges : List (Nat × Nat)
  subParameterLimitOverflowed : Bool
  subParameterCounter : Nat
  oscString : List WChar
  oscParameter : Nat
  dcsStringHandler : Bool
  onCsiCompleteCallback : Bool
deriving DecidableEq, Repr

structure Machine (Host : Type) where
  parser : ParserState
  host : Host
deriving DecidableEq, Repr

abbrev Step (Host : Type) := Machine Host → Machine Host × List Action

namespace Step

variable {Host : Type}

def skip : Step Host := fun m => (m, [])

def andThen (first second : Step Host) : Step Host := fun m =>
  ((second (first m).1).1, (first m).2 ++ (second (first m).1).2)

def update (change : ParserState → ParserState) : Step Host := fun m => ({ m with parser := change m.parser }, [])

end Step

-- callback runs the completion callback of a CSI sequence. It is a parameter
-- here because it calls ProcessString again.
structure Context (Host : Type) where
  engine : Engine Host
  isEngineForInput : Bool
  isa : Isa
  callback : Step Host

def applyReply (parser : ParserState) (reply : Reply) : ParserState :=
  { parser with
    acceptC1 := reply.acceptC1.getD parser.acceptC1
    ansi := reply.ansi.getD parser.ansi
    onCsiCompleteCallback := reply.onCsiComplete || parser.onCsiCompleteCallback }

namespace ParserState

def actionClear (parser : ParserState) : ParserState :=
  { parser with
    identifier := .clear
    parameters := []
    parameterLimitOverflowed := false
    subParameters := []
    subParameterRanges := []
    subParameterCounter := 0
    subParameterLimitOverflowed := false
    oscString := []
    oscParameter := 0
    dcsStringHandler := false }

def actionCollect (wch : WChar) (parser : ParserState) : ParserState :=
  { parser with identifier := parser.identifier.addIntermediate wch }

-- The prologue shared by Param and SubParam: the first character of a sequence
-- opens its first parameter, with an empty range. Range bounds are bytes.
def openParameter (parser : ParserState) : ParserState :=
  if parser.parameters.isEmpty then
    let rangeStart := parser.subParameters.length % 256
    { parser with
      parameters := [none]
      subParameterRanges := parser.subParameterRanges ++ [(rangeStart, rangeStart)] }
  else parser

def nextParameter (parser : ParserState) : ParserState :=
  let rangeStart := parser.subParameters.length % 256
  { parser with
    parameters := parser.parameters ++ [none]
    subParameterCounter := 0
    subParameterLimitOverflowed := false
    subParameterRanges := parser.subParameterRanges ++ [(rangeStart, rangeStart)] }

def accumulateLast (wch : WChar) (values : List VTParameter) : List VTParameter :=
  values.dropLast ++ [some (accumulateTo wch ((values.getLastD none).getD 0))]

def actionParam (wch : WChar) (parser : ParserState) : ParserState :=
  if parser.parameterLimitOverflowed then parser
  else
    let parser := parser.openParameter
    if isParameterDelimiter wch then
      if parser.parameters.length ≥ maxParameterCount then { parser with parameterLimitOverflowed := true }
      else parser.nextParameter
    else { parser with parameters := accumulateLast wch parser.parameters }

def extendLastRange (ranges : List (Nat × Nat)) : List (Nat × Nat) :=
  match ranges.getLast? with
  | some range => ranges.dropLast ++ [(range.1, (range.2 + 1) % 256)]
  | none => ranges

-- Unlike actionParam this does not look at parameterLimitOverflowed.
def actionSubParam (wch : WChar) (parser : ParserState) : ParserState :=
  if parser.subParameterLimitOverflowed then parser
  else
    let parser := parser.openParameter
    if isSubParameterDelimiter wch then
      if parser.subParameterCounter ≥ maxSubParameterCount then
        { parser with subParameterLimitOverflowed := true }
      else
        { parser with
          subParameters := parser.subParameters ++ [none]
          subParameterRanges := extendLastRange parser.subParameterRanges
          subParameterCounter := (parser.subParameterCounter + 1) % 256 }
    else { parser with subParameters := accumulateLast wch parser.subParameters }

def actionOscParam (wch : WChar) (parser : ParserState) : ParserState :=
  { parser with oscParameter := accumulateTo wch parser.oscParameter }

def actionOscPut (wch : WChar) (parser : ParserState) : ParserState :=
  { parser with oscString := parser.oscString ++ [wch] }

def enter (state : VTStates) (parser : ParserState) : ParserState := { parser with state := state }

def enterGround : ParserState → ParserState := enter .ground
def enterEscape (parser : ParserState) : ParserState := (parser.enter .escape).actionClear
def enterEscapeIntermediate : ParserState → ParserState := enter .escapeIntermediate
def enterCsiEntry (parser : ParserState) : ParserState := (parser.enter .csiEntry).actionClear
def enterCsiParam : ParserState → ParserState := enter .csiParam
def enterCsiSubParam : ParserState → ParserState := enter .csiSubParam
def enterCsiIgnore : ParserState → ParserState := enter .csiIgnore
def enterCsiIntermediate : ParserState → ParserState := enter .csiIntermediate
def enterOscParam : ParserState → ParserState := enter .oscParam
def enterOscString : ParserState → ParserState := enter .oscString
def enterOscTermination : ParserState → ParserState := enter .oscTermination
def enterSs3Entry (parser : ParserState) : ParserState := (parser.enter .ss3Entry).actionClear
def enterSs3Param : ParserState → ParserState := enter .ss3Param
def enterVt52Param : ParserState → ParserState := enter .vt52Param
def enterDcsEntry (parser : ParserState) : ParserState := (parser.enter .dcsEntry).actionClear
def enterDcsParam : ParserState → ParserState := enter .dcsParam
def enterDcsIgnore : ParserState → ParserState := enter .dcsIgnore
def enterDcsIntermediate : ParserState → ParserState := enter .dcsIntermediate
def enterDcsPassThrough : ParserState → ParserState := enter .dcsPassThrough
def enterSosPmApcString : ParserState → ParserState := enter .sosPmApcString

def plainParameters (parser : ParserState) : VTParameters := ⟨parser.parameters, [], []⟩
def fullParameters (parser : ParserState) : VTParameters :=
  ⟨parser.parameters, parser.subParameters, parser.subParameterRanges⟩

def initial (isEngineForInput : Bool) : ParserState :=
  { state := .ground
    acceptC1 := isEngineForInput
    ansi := true
    identifier := .clear
    parameters := []
    parameterLimitOverflowed := false
    subParameters := []
    subParameterRanges := []
    subParameterLimitOverflowed := false
    subParameterCounter := 0
    oscString := []
    oscParameter := 0
    dcsStringHandler := false
    onCsiCompleteCallback := false }

@[simp]
theorem open_parameter_frame (parser : ParserState) :
    parser.openParameter.state = parser.state ∧ parser.openParameter.identifier = parser.identifier := by
  unfold openParameter
  split <;> exact ⟨rfl, rfl⟩

theorem action_param_frame (wch : WChar) (parser : ParserState) :
    (actionParam wch parser).state = parser.state ∧ (actionParam wch parser).identifier = parser.identifier := by
  simp only [actionParam]
  split
  · exact ⟨rfl, rfl⟩
  · split
    · split <;> simp [nextParameter]
    · simp

theorem action_sub_param_frame (wch : WChar) (parser : ParserState) :
    (actionSubParam wch parser).state = parser.state ∧ (actionSubParam wch parser).identifier = parser.identifier := by
  simp only [actionSubParam]
  split
  · exact ⟨rfl, rfl⟩
  · split
    · split <;> simp
    · simp

theorem enter_same_state (state : VTStates) (parser : ParserState) (same : parser.state = state) :
    enter state parser = parser := by
  subst same
  rfl

end ParserState

open AsciiChars ParserState Step

section

variable {Host : Type} (ctx : Context Host)

def callEngine (action : Action) : Step Host := fun m =>
  let answer := ctx.engine.act m.host action
  (⟨applyReply m.parser answer.2, answer.1⟩, [action])

def actionExecute (wch : WChar) : Step Host := callEngine ctx (.execute wch)
def actionExecuteFromEscape (wch : WChar) : Step Host := callEngine ctx (.executeFromEscape wch)
def actionPrint (wch : WChar) : Step Host := callEngine ctx (.print wch)
def actionPrintString (string : List WChar) : Step Host := callEngine ctx (.printString string)

def actionEscDispatch (wch : WChar) : Step Host := fun m =>
  callEngine ctx (.escDispatch (m.parser.identifier.finalize wch)) m

def actionVt52EscDispatch (wch : WChar) : Step Host := fun m =>
  callEngine ctx (.vt52EscDispatch (m.parser.identifier.finalize wch) m.parser.plainParameters) m

def actionCsiDispatch (wch : WChar) : Step Host := fun m =>
  callEngine ctx (.csiDispatch (m.parser.identifier.finalize wch) m.parser.fullParameters) m

def actionOscDispatch : Step Host := fun m =>
  callEngine ctx (.oscDispatch m.parser.oscParameter m.parser.oscString) m

def actionSs3Dispatch (wch : WChar) : Step Host := fun m =>
  callEngine ctx (.ss3Dispatch wch m.parser.plainParameters) m

-- A missing handler means that the sequence is not supported.
def actionDcsDispatch (wch : WChar) : Step Host := fun m =>
  let action := Action.dcsDispatch (m.parser.identifier.finalize wch) m.parser.plainParameters
  let answer := ctx.engine.act m.host action
  let parser := { applyReply m.parser answer.2 with dcsStringHandler := answer.2.accepted }
  (⟨if answer.2.accepted then enterDcsPassThrough parser else enterDcsIgnore parser, answer.1⟩, [action])

def actionInterrupt : Step Host := fun m =>
  if m.parser.state = .dcsPassThrough then
    (callEngine ctx (.dcsString ESC)).andThen (.update fun parser => { parser with dcsStringHandler := false }) m
  else (m, [])

def executeCsiCompleteCallback : Step Host := fun m =>
  if m.parser.onCsiCompleteCallback then
    ctx.callback { m with parser := { m.parser with onCsiCompleteCallback := false } }
  else (m, [])

def eventGround (wch : WChar) : Step Host :=
  if isC0Code wch || isDelete wch then actionExecute ctx wch
  else actionPrint ctx wch

def eventEscape (wch : WChar) : Step Host := fun m =>
  if isC0Code wch then
    if ctx.isEngineForInput then (actionExecuteFromEscape ctx wch).andThen (.update enterGround) m
    else actionExecute ctx wch m
  else if isDelete wch then (m, [])
  else if isIntermediate wch then
    if ctx.isEngineForInput then (actionEscDispatch ctx wch).andThen (.update enterGround) m
    else andThen (.update (actionCollect wch)) (.update enterEscapeIntermediate) m
  else if m.parser.ansi then
    if isCsiIndicator wch then update enterCsiEntry m
    else if isOscIndicator wch then update enterOscParam m
    else if isSs3Indicator wch && ctx.isEngineForInput then update enterSs3Entry m
    else if isDcsIndicator wch then update enterDcsEntry m
    else if isSosIndicator wch || isPmIndicator wch || isApcIndicator wch then update enterSosPmApcString m
    else (actionEscDispatch ctx wch).andThen (.update enterGround) m
  else if isVt52CursorAddress wch then update enterVt52Param m
  else (actionVt52EscDispatch ctx wch).andThen (.update enterGround) m

def eventEscapeIntermediate (wch : WChar) : Step Host := fun m =>
  if isC0Code wch then actionExecute ctx wch m
  else if isIntermediate wch then update (actionCollect wch) m
  else if isDelete wch then (m, [])
  else if m.parser.ansi then (actionEscDispatch ctx wch).andThen (.update enterGround) m
  else if isVt52CursorAddress wch then update enterVt52Param m
  else (actionVt52EscDispatch ctx wch).andThen (.update enterGround) m

-- The common end of the CSI states: the callback runs in the ground state.
def completeCsi (wch : WChar) : Step Host :=
  (actionCsiDispatch ctx wch).andThen (andThen (.update enterGround) (executeCsiCompleteCallback ctx))

def eventCsiEntry (wch : WChar) : Step Host :=
  if isC0Code wch then actionExecute ctx wch
  else if isDelete wch then .skip
  else if isIntermediate wch then andThen (.update (actionCollect wch)) (.update enterCsiIntermediate)
  else if isNumericParamValue wch || isParameterDelimiter wch then
    andThen (.update (actionParam wch)) (.update enterCsiParam)
  else if isSubParameterDelimiter wch then
    andThen (.update (actionSubParam wch)) (.update enterCsiSubParam)
  else if isCsiPrivateMarker wch then andThen (.update (actionCollect wch)) (.update enterCsiParam)
  else completeCsi ctx wch

def eventCsiIntermediate (wch : WChar) : Step Host :=
  if isC0Code wch then actionExecute ctx wch
  else if isIntermediate wch then .update (actionCollect wch)
  else if isDelete wch then .skip
  else if isIntermediateInvalid wch then .update enterCsiIgnore
  else completeCsi ctx wch

def eventCsiIgnore (wch : WChar) : Step Host :=
  if isC0Code wch then actionExecute ctx wch
  else if isDelete wch then .skip
  else if isIntermediate wch then .skip
  else if isIntermediateInvalid wch then .skip
  else .update enterGround

def eventCsiParam (wch : WChar) : Step Host :=
  if isC0Code wch then actionExecute ctx wch
  else if isDelete wch then .skip
  else if isNumericParamValue wch || isParameterDelimiter wch then .update (actionParam wch)
  else if isSubParameterDelimiter wch then
    andThen (.update (actionSubParam wch)) (.update enterCsiSubParam)
  else if isIntermediate wch then andThen (.update (actionCollect wch)) (.update enterCsiIntermediate)
  else if isParameterInvalid wch then .update enterCsiIgnore
  else completeCsi ctx wch

def eventCsiSubParam (wch : WChar) : Step Host :=
  if isC0Code wch then actionExecute ctx wch
  else if isDelete wch then .skip
  else if isNumericParamValue wch || isSubParameterDelimiter wch then .update (actionSubParam wch)
  else if isParameterDelimiter wch then andThen (.update (actionParam wch)) (.update enterCsiParam)
  else if isIntermediate wch then andThen (.update (actionCollect wch)) (.update enterCsiIntermediate)
  else if isParameterInvalid wch then .update enterCsiIgnore
  else completeCsi ctx wch

def eventOscParam (wch : WChar) : Step Host :=
  if isOscTerminator wch then (actionOscDispatch ctx).andThen (.update enterGround)
  else if isEscape wch then .update enterOscTermination
  else if isNumericParamValue wch then .update (actionOscParam wch)
  else if isOscDelimiter wch then .update enterOscString
  else .skip

def eventOscString (wch : WChar) : Step Host :=
  if isOscTerminator wch then (actionOscDispatch ctx).andThen (.update enterGround)
  else if isEscape wch then .update enterOscTermination
  else if isOscInvalid wch then .skip
  else .update (actionOscPut wch)

def eventOscTermination (wch : WChar) : Step Host :=
  if isStringTerminatorIndicator wch then (actionOscDispatch ctx).andThen (.update enterGround)
  else andThen (.update enterEscape) (eventEscape ctx wch)

def eventSs3Entry (wch : WChar) : Step Host :=
  if isC0Code wch then actionExecute ctx wch
  else if isDelete wch then .skip
  else if isSubParameterDelimiter wch then .update enterCsiIgnore
  else if isNumericParamValue wch || isParameterDelimiter wch then
    andThen (.update (actionParam wch)) (.update enterSs3Param)
  else (actionSs3Dispatch ctx wch).andThen (.update enterGround)

def eventSs3Param (wch : WChar) : Step Host :=
  if isC0Code wch then actionExecute ctx wch
  else if isDelete wch then .skip
  else if isNumericParamValue wch || isParameterDelimiter wch then .update (actionParam wch)
  else if isParameterInvalid wch || isSubParameterDelimiter wch then .update enterCsiIgnore
  else (actionSs3Dispatch ctx wch).andThen (.update enterGround)

def eventVt52Param (wch : WChar) : Step Host := fun m =>
  if isC0Code wch then actionExecute ctx wch m
  else if isDelete wch then (m, [])
  else
    let parser := { m.parser with parameters := m.parser.parameters ++ [some wch.toNat] }
    if parser.parameters.length = 2 then
      (actionVt52EscDispatch ctx 0x59).andThen (.update enterGround) { m with parser := parser }
    else ({ m with parser := parser }, [])

def eventDcsEntry (wch : WChar) : Step Host :=
  if isC0Code wch then .skip
  else if isDelete wch then .skip
  else if isSubParameterDelimiter wch then .update enterDcsIgnore
  else if isNumericParamValue wch || isParameterDelimiter wch then
    andThen (.update (actionParam wch)) (.update enterDcsParam)
  else if isIntermediate wch then andThen (.update (actionCollect wch)) (.update enterDcsIntermediate)
  else actionDcsDispatch ctx wch

def eventDcsIntermediate (wch : WChar) : Step Host :=
  if isC0Code wch then .skip
  else if isDelete wch then .skip
  else if isIntermediate wch then .update (actionCollect wch)
  else if isIntermediateInvalid wch then .update enterDcsIgnore
  else actionDcsDispatch ctx wch

-- The second test starts a new if statement in the source, so a C0 control or
-- DEL is ignored by the first chain and then still reaches the second one.
def eventDcsParam (wch : WChar) : Step Host :=
  andThen (if isC0Code wch then .skip else if isDelete wch then .skip else .skip)
    (if isNumericParamValue wch || isParameterDelimiter wch then .update (actionParam wch)
     else if isIntermediate wch then andThen (.update (actionCollect wch)) (.update enterDcsIntermediate)
     else if isParameterInvalid wch || isSubParameterDelimiter wch then .update enterDcsIgnore
     else actionDcsDispatch ctx wch)

def eventDcsPassThrough (wch : WChar) : Step Host := fun m =>
  if isC0Code wch || isDcsPassThroughValid wch then
    let answer := ctx.engine.act m.host (.dcsString wch)
    let parser := applyReply m.parser answer.2
    (⟨if answer.2.accepted then parser else enterDcsIgnore parser, answer.1⟩, [.dcsString wch])
  else (m, [])

def event (state : VTStates) (wch : WChar) : Step Host :=
  match state with
  | .ground => eventGround ctx wch
  | .escape => eventEscape ctx wch
  | .escapeIntermediate => eventEscapeIntermediate ctx wch
  | .csiEntry => eventCsiEntry ctx wch
  | .csiIntermediate => eventCsiIntermediate ctx wch
  | .csiIgnore => eventCsiIgnore ctx wch
  | .csiParam => eventCsiParam ctx wch
  | .csiSubParam => eventCsiSubParam ctx wch
  | .oscParam => eventOscParam ctx wch
  | .oscString => eventOscString ctx wch
  | .oscTermination => eventOscTermination ctx wch
  | .ss3Entry => eventSs3Entry ctx wch
  | .ss3Param => eventSs3Param ctx wch
  | .vt52Param => eventVt52Param ctx wch
  | .dcsEntry => eventDcsEntry ctx wch
  | .dcsIgnore => .skip
  | .dcsIntermediate => eventDcsIntermediate ctx wch
  | .dcsParam => eventDcsParam ctx wch
  | .dcsPassThrough => eventDcsPassThrough ctx wch
  | .sosPmApcString => .skip

-- ProcessCharacter without its C1 branch, which is the only one that recurses.
def processSevenBit (wch : WChar) : Step Host := fun m =>
  if (wch == CAN || wch == SUB) && !(m.parser.state == .escape && ctx.isEngineForInput) then
    (actionInterrupt ctx).andThen ((actionExecute ctx wch).andThen (.update enterGround)) m
  else if isEscape wch && m.parser.state != .oscString && m.parser.state != .oscParam then
    (actionInterrupt ctx).andThen (.update enterEscape) m
  else event ctx m.parser.state wch m

def processCharacter (wch : WChar) : Step Host := fun m =>
  if isC1ControlCharacter wch then
    if m.parser.acceptC1 then (processSevenBit ctx ESC).andThen (processSevenBit ctx (c1To7Bit wch)) m
    else (m, [])
  else processSevenBit ctx wch m

def processCharacters : List WChar → Step Host
  | [] => .skip
  | wch :: rest => (processCharacter ctx wch).andThen (processCharacters rest)

end

variable {Host : Type}

-- The do-while loop: at least one character, then until the ground state is
-- reached. The second component is the text that is left.
def vtLoop (ctx : Context Host) : List WChar → Machine Host → (Machine Host × List Action) × List WChar
  | [], m => ((m, []), [])
  | wch :: rest, m =>
    let first := processCharacter ctx wch m
    if first.1.parser.state = .ground then (first, rest)
    else
      let tail := vtLoop ctx rest first.1
      ((tail.1.1, first.2 ++ tail.1.2), tail.2)

-- The while loop. The first component is the run at which the last do-while
-- loop started: _CurrentRun at the end of the string unless that is in ground.
def stringLoop (ctx : Context Host) : Nat → List WChar → Machine Host → List WChar × (Machine Host × List Action)
  | 0, text, m => (text, (m, []))
  | _ + 1, [], m => ([], (m, []))
  | fuel + 1, wch :: rest, m =>
    let run := findActionableControlCharacter ctx.isa (wch :: rest)
    let printed := if run.1.isEmpty then (m, []) else actionPrintString ctx run.1 m
    if run.2.isEmpty then ([], printed)
    else
      let looped := vtLoop ctx run.2 printed.1
      let tail := stringLoop ctx fuel looped.2 looped.1.1
      (if looped.2.isEmpty then run.2 else tail.1, (tail.2.1, printed.2 ++ (looped.1.2 ++ tail.2.2)))

-- A lone ESC, or ESC and one more character, at the end of the input.
def flushInput (ctx : Context Host) (run : List WChar) : Step Host := fun m =>
  if m.parser.state != .ground && ctx.isEngineForInput && !ctx.engine.encounteredWin32InputModeSequence m.host &&
      decide (run.length ≤ 2) && run.head? == some ESC then
    Step.andThen (.update enterGround)
      (Step.andThen (if run.length = 1 then actionExecute ctx ESC
         else Step.andThen (.update enterEscape) (actionEscDispatch ctx (run.getLastD ESC)))
        (.update enterGround)) m
  else (m, [])

def processString (ctx : Context Host) (text : List WChar) : Step Host := fun m =>
  if m.parser.state = .ground then
    let looped := stringLoop ctx text.length text m
    let flushed := flushInput ctx looped.1 looped.2.1
    (flushed.1, looped.2.2 ++ flushed.2)
  else
    let resumed := vtLoop ctx text m
    let looped := stringLoop ctx resumed.2.length resumed.2 resumed.1.1
    let flushed := flushInput ctx (if resumed.2.isEmpty then text else looped.1) looped.2.1
    (flushed.1, resumed.1.2 ++ (looped.2.2 ++ flushed.2))

def processStrings (ctx : Context Host) : List (List WChar) → Step Host
  | [] => .skip
  | text :: rest => (processString ctx text).andThen (processStrings ctx rest)

-- The completion callback of the engine with at most depth nested invocations
-- left. The macro buffer refuses to go deeper than 16.
def csiCallback (engine : Engine Host) (isEngineForInput : Bool) (isa : Isa) : Nat → Step Host
  | 0 => .skip
  | depth + 1 => fun m =>
    let invoked := engine.invokeMacro m.host
    match invoked.2 with
    | none => ({ m with host := invoked.1 }, [])
    | some text =>
      let processed :=
        processString ⟨engine, isEngineForInput, isa, csiCallback engine isEngineForInput isa depth⟩ text
          { m with host := invoked.1 }
      ({ processed.1 with host := engine.macroDone processed.1.host }, processed.2)

def maxInvokeDepth : Nat := 16

def stateMachine (engine : Engine Host) (isEngineForInput : Bool) (isa : Isa) : Context Host :=
  ⟨engine, isEngineForInput, isa, csiCallback engine isEngineForInput isa maxInvokeDepth⟩

def initialMachine (isEngineForInput : Bool) (host : Host) : Machine Host :=
  ⟨.initial isEngineForInput, host⟩

end Cogterm.VirtualTerminal
