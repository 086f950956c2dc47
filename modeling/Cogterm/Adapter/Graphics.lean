import Cogterm.Attribute.TextAttribute
import Cogterm.Parser.CsiParameters

namespace Cogterm.VirtualTerminal

open Buffer (TextAttribute TextColor)

def setUnderlineStyleHelper (option : VTParameter) (attr : TextAttribute) : TextAttribute :=
  let style := option.getD 0
  if style ≤ 5 then attr.setUnderlineStyle (Fin.ofNat 8 style) else attr

def applyColor (colorItem : Nat) (color : TextColor) (attr : TextAttribute) : TextAttribute :=
  if colorItem = 38 then attr.setForeground color
  else if colorItem = 48 then attr.setBackground color
  else if colorItem = 58 then attr.setUnderlineColor color
  else attr

-- A color is only applied when its values fit within a byte.
def rgbColor (red green blue : Nat) : Option TextColor :=
  if red ≤ 255 ∧ green ≤ 255 ∧ blue ≤ 255 then some (.rgb (UInt8.ofNat red) (UInt8.ofNat green) (UInt8.ofNat blue))
  else none

def tableColor (tableIndex : Nat) : Option TextColor :=
  if tableIndex ≤ 255 then some (.index256 (UInt8.ofNat tableIndex)) else none

def applyColorIf (colorItem : Nat) (color : Option TextColor) (attr : TextAttribute) : TextAttribute :=
  match color with
  | none => attr
  | some color => applyColor colorItem color attr

-- The options behind 38 or 48, and how many of them are consumed.
def setRgbColorsHelper (options : List VTParameter) (attr : TextAttribute) (isForeground : Bool) : TextAttribute × Nat :=
  let option := fun index => (options.getD index none).getD 0
  let colorItem := if isForeground then 38 else 48
  if option 0 = 2 then (applyColorIf colorItem (rgbColor (option 1) (option 2) (option 3)) attr, 4)
  else if option 0 = 5 then (applyColorIf colorItem (tableColor (option 1)) attr, 2)
  else (attr, 1)

def setRgbColorsHelperFromSubParams (colorItem : Nat) (options : List VTParameter) (attr : TextAttribute) : TextAttribute :=
  let option := fun index => (options.getD index none).getD 0
  if option 0 = 2 then
    -- A color space is not supported.
    if (options.getD 1 none).isSome then attr
    else applyColorIf colorItem (rgbColor (option 2) (option 3) (option 4)) attr
  else if option 0 = 5 then applyColorIf colorItem (tableColor (option 1)) attr
  else attr

def applyGraphicsOptionWithSubParams (option : Nat) (subParams : List VTParameter) (attr : TextAttribute) : TextAttribute :=
  if option = 4 then setUnderlineStyleHelper (subParams.getD 0 none) attr
  else if option = 38 ∨ option = 48 ∨ option = 58 then setRgbColorsHelperFromSubParams option subParams attr
  else attr

def indexedColor (option : Nat) (attr : TextAttribute) : TextAttribute :=
  if 30 ≤ option ∧ option ≤ 37 then attr.setForeground (.index16 (UInt8.ofNat (option - 30)))
  else if 40 ≤ option ∧ option ≤ 47 then attr.setBackground (.index16 (UInt8.ofNat (option - 40)))
  else if 90 ≤ option ∧ option ≤ 97 then attr.setForeground (.index16 (UInt8.ofNat (option - 90 + 8)))
  else if 100 ≤ option ∧ option ≤ 107 then attr.setBackground (.index16 (UInt8.ofNat (option - 100 + 8)))
  else attr

def simpleGraphicsOption (option : Nat) (attr : TextAttribute) : TextAttribute :=
  match option with
  | 0 =>
    (((attr.setForeground .default).setBackground .default).setUnderlineColor .default).setDefaultRenditionAttributes
  | 39 => attr.setForeground .default
  | 49 => attr.setBackground .default
  | 59 => attr.setUnderlineColor .default
  | 1 => attr.setIntense true
  | 2 => attr.setFaint true
  | 22 => (attr.setIntense false).setFaint false
  | 3 => attr.setItalic true
  | 23 => attr.setItalic false
  -- Rapid blink is an alias of blink.
  | 5 | 6 => attr.setBlinking true
  | 25 => attr.setBlinking false
  | 8 => attr.setInvisible true
  | 28 => attr.setInvisible false
  | 9 => attr.setCrossedOut true
  | 29 => attr.setCrossedOut false
  | 7 => attr.setReverseVideo true
  | 27 => attr.setReverseVideo false
  | 4 => attr.setUnderlineStyle 1
  | 21 => attr.setUnderlineStyle 2
  | 24 => attr.setUnderlineStyle 0
  | 53 => attr.setOverlined true
  | 55 => attr.setOverlined false
  | _ => indexedColor option attr

-- One option, with its sub-parameters and the options behind it. The number of
-- options that are consumed is returned too.
def applyGraphicsOption (field : VTParameter × List VTParameter) (rest : List (VTParameter × List VTParameter))
    (attr : TextAttribute) : TextAttribute × Nat :=
  let option := field.1.getD 0
  if !field.2.isEmpty then (applyGraphicsOptionWithSubParams option field.2 attr, 1)
  else if option = 38 then
    let applied := setRgbColorsHelper (rest.map Prod.fst) attr true
    (applied.1, 1 + applied.2)
  else if option = 48 then
    let applied := setRgbColorsHelper (rest.map Prod.fst) attr false
    (applied.1, 1 + applied.2)
  else (simpleGraphicsOption option attr, 1)

def graphicsOptionsLoop : Nat → List (VTParameter × List VTParameter) → TextAttribute → TextAttribute
  | 0, _, attr => attr
  | _ + 1, [], attr => attr
  | fuel + 1, field :: rest, attr =>
    let applied := applyGraphicsOption field rest attr
    graphicsOptionsLoop fuel ((field :: rest).drop applied.2) applied.1

def applyGraphicsOptions (options : List (VTParameter × List VTParameter)) (attr : TextAttribute) : TextAttribute :=
  graphicsOptionsLoop options.length options attr

end Cogterm.VirtualTerminal
