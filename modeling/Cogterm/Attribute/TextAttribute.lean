import Mathlib.Data.List.Basic

namespace Cogterm.Buffer

inductive ColorType where
  | isDefault
  | isIndex16
  | isIndex256
  | isRgb
deriving DecidableEq, Repr

-- The unused bytes of a color are zero, so that colors are equal when their bytes are.
inductive TextColor where
  | default
  | index16 (index : UInt8)
  | index256 (index : UInt8)
  | rgb (red green blue : UInt8)
deriving DecidableEq, Repr

namespace TextColor

def getType : TextColor → ColorType
  | .default => .isDefault
  | .index16 _ => .isIndex16
  | .index256 _ => .isIndex256
  | .rgb _ _ _ => .isRgb

-- The index and the red component share a byte.
def getIndex : TextColor → UInt8
  | .default => 0
  | .index16 index | .index256 index => index
  | .rgb red _ _ => red

def getR (color : TextColor) : UInt8 := color.getIndex

def getG : TextColor → UInt8
  | .rgb _ green _ => green
  | _ => 0

def getB : TextColor → UInt8
  | .rgb _ _ blue => blue
  | _ => 0

end TextColor

instance neZeroStyles : @NeZero Nat Zero.ofOfNat0 8 := ⟨by decide⟩

-- One field for every bit, and the three bits of the underline style as a number.
structure CharacterAttributes where
  intense : Bool := false
  italics : Bool := false
  blinking : Bool := false
  invisible : Bool := false
  crossedOut : Bool := false
  faint : Bool := false
  underlineStyle : Fin 8 := 0
  unused1 : Bool := false
  topGridline : Bool := false
  leftGridline : Bool := false
  rightGridline : Bool := false
  isProtected : Bool := false
  reverseVideo : Bool := false
  bottomGridline : Bool := false
deriving DecidableEq, Repr

def CharacterAttributes.normal : CharacterAttributes := {}

inductive MarkKind where
  | none
  | prompt
  | command
  | output
deriving DecidableEq, Repr

structure TextAttribute where
  attrs : CharacterAttributes := .normal
  hyperlinkId : Nat := 0
  foreground : TextColor := .default
  background : TextColor := .default
  underlineColor : TextColor := .default
  markKind : MarkKind := .none
deriving DecidableEq, Repr

instance : Inhabited TextAttribute := ⟨{}⟩

namespace TextAttribute

def isHyperlink (attr : TextAttribute) : Bool := attr.hyperlinkId != 0

def setHyperlinkId (attr : TextAttribute) (id : Nat) : TextAttribute := { attr with hyperlinkId := id }

def setStandardErase (attr : TextAttribute) : TextAttribute :=
  { attr with attrs := .normal, hyperlinkId := 0, markKind := .none }

def setIntense (attr : TextAttribute) (isIntense : Bool) : TextAttribute :=
  { attr with attrs := { attr.attrs with intense := isIntense } }

def setFaint (attr : TextAttribute) (isFaint : Bool) : TextAttribute :=
  { attr with attrs := { attr.attrs with faint := isFaint } }

def setItalic (attr : TextAttribute) (isItalic : Bool) : TextAttribute :=
  { attr with attrs := { attr.attrs with italics := isItalic } }

def setBlinking (attr : TextAttribute) (isBlinking : Bool) : TextAttribute :=
  { attr with attrs := { attr.attrs with blinking := isBlinking } }

def setInvisible (attr : TextAttribute) (isInvisible : Bool) : TextAttribute :=
  { attr with attrs := { attr.attrs with invisible := isInvisible } }

def setCrossedOut (attr : TextAttribute) (isCrossedOut : Bool) : TextAttribute :=
  { attr with attrs := { attr.attrs with crossedOut := isCrossedOut } }

def setUnderlineStyle (attr : TextAttribute) (style : Fin 8) : TextAttribute :=
  { attr with attrs := { attr.attrs with underlineStyle := style } }

def setOverlined (attr : TextAttribute) (isOverlined : Bool) : TextAttribute :=
  { attr with attrs := { attr.attrs with topGridline := isOverlined } }

def setReverseVideo (attr : TextAttribute) (isReversed : Bool) : TextAttribute :=
  { attr with attrs := { attr.attrs with reverseVideo := isReversed } }

def setForeground (attr : TextAttribute) (color : TextColor) : TextAttribute := { attr with foreground := color }

def setBackground (attr : TextAttribute) (color : TextColor) : TextAttribute := { attr with background := color }

def setUnderlineColor (attr : TextAttribute) (color : TextColor) : TextAttribute := { attr with underlineColor := color }

def setDefaultRenditionAttributes (attr : TextAttribute) : TextAttribute :=
  { attr with attrs := { isProtected := attr.attrs.isProtected } }

end TextAttribute

end Cogterm.Buffer
