import Mathlib.Data.UInt

namespace Cogterm.VirtualTerminal

abbrev WChar := UInt16

-- A bound over a text is decided along the text.
scoped instance (priority := high) {p : WChar → Prop} [DecidablePred p] (text : List WChar) :
  Decidable (∀ wch ∈ text, p wch) :=
  List.decidableBAll p text

namespace AsciiChars

def BEL : WChar := 0x07
def ETB : WChar := 0x17
def CAN : WChar := 0x18
def EM : WChar := 0x19
def SUB : WChar := 0x1A
def ESC : WChar := 0x1B
def FS : WChar := 0x1C
def US : WChar := 0x1F
def SPC : WChar := 0x20
def DEL : WChar := 0x7F

end AsciiChars

open AsciiChars

def isNumericParamValue (wch : WChar) : Bool := 0x30 ≤ wch && wch ≤ 0x39

-- ETB is the last control before CAN; CAN, SUB and ESC are excluded because
-- the machine treats them as events "from anywhere".
def isC0Code (wch : WChar) : Bool := wch ≤ ETB || wch == EM || (FS ≤ wch && wch ≤ US)

def isC1ControlCharacter (wch : WChar) : Bool := 0x80 ≤ wch && wch ≤ 0x9F
def c1To7Bit (wch : WChar) : WChar := wch - 0x40
def isIntermediate (wch : WChar) : Bool := 0x20 ≤ wch && wch ≤ 0x2F
def isDelete (wch : WChar) : Bool := wch == DEL
def isEscape (wch : WChar) : Bool := wch == ESC
def isParameterDelimiter (wch : WChar) : Bool := wch == 0x3B
def isSubParameterDelimiter (wch : WChar) : Bool := wch == 0x3A
def isCsiIndicator (wch : WChar) : Bool := wch == 0x5B
def isCsiPrivateMarker (wch : WChar) : Bool := wch == 0x3C || wch == 0x3D || wch == 0x3E || wch == 0x3F

def isIntermediateInvalid (wch : WChar) : Bool :=
  isNumericParamValue wch || isSubParameterDelimiter wch || isParameterDelimiter wch || isCsiPrivateMarker wch

def isParameterInvalid (wch : WChar) : Bool := isCsiPrivateMarker wch
def isStringTerminatorIndicator (wch : WChar) : Bool := wch == 0x5C
def isSs3Indicator (wch : WChar) : Bool := wch == 0x4F
def isVt52CursorAddress (wch : WChar) : Bool := wch == 0x59
def isOscIndicator (wch : WChar) : Bool := wch == 0x5D
def isOscDelimiter (wch : WChar) : Bool := wch == 0x3B
def isOscInvalid (wch : WChar) : Bool := wch ≤ 0x17 || wch == 0x19 || (0x1C ≤ wch && wch ≤ 0x1F)
def isOscTerminator (wch : WChar) : Bool := wch == BEL
def isDcsIndicator (wch : WChar) : Bool := wch == 0x50
def isDcsPassThroughValid (wch : WChar) : Bool := SPC ≤ wch && wch < DEL
def isSosIndicator (wch : WChar) : Bool := wch == 0x58
def isPmIndicator (wch : WChar) : Bool := wch == 0x5E
def isApcIndicator (wch : WChar) : Bool := wch == 0x5F

-- The subtraction wraps, so one comparison covers the range 0x7f..0x9f.
def isActionableFromGround (wch : WChar) : Bool := wch ≤ 0x1F || wch - 0x7F ≤ 0x20

theorem not_actionable_is_plain (plain : isActionableFromGround wch = false) :
    isC0Code wch = false ∧ isDelete wch = false ∧ isC1ControlCharacter wch = false ∧ isEscape wch = false ∧
      wch ≠ CAN ∧ wch ≠ SUB := by
  grind [isActionableFromGround, isC0Code, isDelete, isC1ControlCharacter, isEscape, ETB, EM, FS, US, DEL, ESC, CAN, SUB]

-- value is the 56-bit integer the engines switch on. spelling is a ghost: the
-- characters the identifier was built from. No engine can observe it.
structure VTID where
  value : Nat
  spelling : List WChar
deriving DecidableEq, Repr

def fromString (s : List WChar) : Nat := s.foldr (fun ch value => value * 256 + ch.toNat) 0

-- collected is the ghost record of every intermediate added since Clear, the
-- ones that no longer fit into the accumulator included.
structure VTIDBuilder where
  idAccumulator : Nat
  idShift : Nat
  collected : List WChar
deriving DecidableEq, Repr

namespace VTIDBuilder

def clear : VTIDBuilder := ⟨0, 0, []⟩

def addIntermediate (builder : VTIDBuilder) (intermediateChar : WChar) : VTIDBuilder :=
  if builder.idShift + 8 * 2 ≥ 64 then
    { builder with idAccumulator := 0, collected := builder.collected ++ [intermediateChar] }
  else
    { idAccumulator := (builder.idAccumulator + intermediateChar.toNat * 2 ^ builder.idShift) % 2 ^ 64
      idShift := builder.idShift + 8
      collected := builder.collected ++ [intermediateChar] }

def finalize (builder : VTIDBuilder) (finalChar : WChar) : VTID :=
  { value := (builder.idAccumulator + finalChar.toNat * 2 ^ builder.idShift) % 2 ^ 64 % 2 ^ 56
    spelling := builder.collected ++ [finalChar] }

end VTIDBuilder

def maxParameterValue : Nat := 65535
def maxParameterCount : Nat := 32
def maxSubParameterCount : Nat := 6

-- The source stores an int whose negative values mean "omitted"; only -1 occurs.
abbrev VTParameter := Option Nat

structure VTParameters where
  params : List VTParameter
  subParams : List VTParameter
  subParamRanges : List (Nat × Nat)
deriving DecidableEq, Repr

namespace VTParameters

def get (parameters : VTParameters) (index : Nat) : VTParameter := parameters.params.getD index none

-- An empty list counts as one omitted parameter.
def size (parameters : VTParameters) : Nat := max parameters.params.length 1

def subParamsFor (parameters : VTParameters) (index : Nat) : List VTParameter :=
  match parameters.subParamRanges[index]? with
  | some range => (parameters.subParams.drop range.1).take (range.2 - range.1)
  | none => []

def fields (parameters : VTParameters) : List (VTParameter × List VTParameter) :=
  (List.range parameters.size).map (fun index => (parameters.get index, parameters.subParamsFor index))

end VTParameters

def accumulateTo (wch : WChar) (value : Nat) : Nat :=
  let value := value * 10 + (wch.toNat - 0x30)
  if value > maxParameterValue then maxParameterValue else value

end Cogterm.VirtualTerminal
