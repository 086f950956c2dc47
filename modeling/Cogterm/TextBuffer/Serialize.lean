import Cogterm.Adapter.Graphics
import Cogterm.Parser.ActionCodes
import Cogterm.TextBuffer.TextBuffer

namespace Cogterm.Buffer

open Til CharacterAttributes
open VirtualTerminal (asciiCode)
open Unicode (WChar)

-- What is appended to the buffer. A graphics rendition has its parameters.
inductive Serialized where
  | lineRendition (code : WChar)
  | graphics (parameters : List WChar)
  | hyperlink (uri : List WChar)
  | lineBreak
  | eraseInLine
  | text (chars : List WChar)
deriving DecidableEq, Repr

def Serialized.chars : Serialized → List WChar
  | .lineRendition code => [0x1B, 0x23, code]
  | .graphics parameters => [0x1B, 0x5B] ++ parameters ++ [0x6D]
  | .hyperlink uri => [0x1B, 0x5D, 0x38, 0x3B, 0x3B] ++ uri ++ [0x1B, 0x5C]
  | .lineBreak => [0x0D, 0x0A]
  | .eraseInLine => [0x1B, 0x5B, 0x4B]
  | .text chars => chars

def formatNumber (number : Nat) : List WChar := (Nat.toDigits 10 number).map (fun digit => UInt16.ofNat digit.toNat)

def formatByte (byte : UInt8) : List WChar := formatNumber byte.toNat

namespace CharacterAttributes

-- The bits of the two underline styles are compared too.
def delta (attr previous : CharacterAttributes) : CharacterAttributes where
  intense := attr.intense ^^ previous.intense
  italics := attr.italics ^^ previous.italics
  blinking := attr.blinking ^^ previous.blinking
  invisible := attr.invisible ^^ previous.invisible
  crossedOut := attr.crossedOut ^^ previous.crossedOut
  faint := attr.faint ^^ previous.faint
  underlineStyle := attr.underlineStyle ^^^ previous.underlineStyle
  unused1 := attr.unused1 ^^ previous.unused1
  topGridline := attr.topGridline ^^ previous.topGridline
  leftGridline := attr.leftGridline ^^ previous.leftGridline
  rightGridline := attr.rightGridline ^^ previous.rightGridline
  isProtected := attr.isProtected ^^ previous.isProtected
  reverseVideo := attr.reverseVideo ^^ previous.reverseVideo
  bottomGridline := attr.bottomGridline ^^ previous.bottomGridline

end CharacterAttributes

structure Mapping where
  attr : CharacterAttributes → Bool
  off : Nat
  on : Nat

def mappings : List Mapping :=
  [⟨intense, 22, 1⟩, ⟨italics, 23, 3⟩, ⟨blinking, 25, 5⟩, ⟨invisible, 28, 8⟩, ⟨crossedOut, 29, 9⟩,
    ⟨faint, 22, 2⟩, ⟨topGridline, 55, 53⟩, ⟨reverseVideo, 27, 7⟩]

def underlineStyles : List (List WChar) :=
  [asciiCode "24", asciiCode "4", asciiCode "21", asciiCode "4:3", asciiCode "4:4", asciiCode "4:5"]

def underlineSequence (style : Fin 8) : List WChar := underlineStyles.getD style (asciiCode "4")

-- Both flags were set, and at least one is to be turned off.
def turnsOffBoth (attr previous : CharacterAttributes) : Bool :=
  (previous.intense && previous.faint) && ((attr.delta previous).intense || (attr.delta previous).faint)

def intensitySequence (attr : CharacterAttributes) : List WChar :=
  if attr.intense || attr.faint then asciiCode "22;" ++ (if attr.intense then asciiCode "1" else asciiCode "2")
  else asciiCode "22"

def mappingSequences (attr attrDelta : CharacterAttributes) : List (List WChar) :=
  mappings.flatMap (fun mapping =>
    if mapping.attr attrDelta then [formatNumber (if mapping.attr attr then mapping.on else mapping.off)] else [])

def attributeSequences (attr previous : CharacterAttributes) : List (List WChar) :=
  if previous ≠ attr then
    let attrDelta := attr.delta previous
    let both := turnsOffBoth attr previous
    let left := if both then { attrDelta with intense := false, faint := false } else attrDelta
    (if both then [intensitySequence attr] else []) ++ (mappingSequences attr left ++
        (if left.underlineStyle ≠ 0 then [underlineSequence attr.underlineStyle] else []))
  else []

def colorSequence (dark bright : Nat) (off extended : List WChar) (color : TextColor) : List WChar :=
  match color.getType with
  | .isDefault => off
  | .isIndex16 => formatNumber ((if color.getIndex &&& 8 ≠ 0 then bright else dark) + (color.getIndex &&& 7).toNat)
  | .isIndex256 => extended ++ (asciiCode ";5;" ++ formatByte color.getIndex)
  | .isRgb => extended ++ (asciiCode ";2;" ++ (formatByte color.getR ++ (0x3B :: formatByte color.getG ++
      (0x3B :: formatByte color.getB))))

def foregroundSequence (color : TextColor) : List WChar := colorSequence 30 90 (asciiCode "39") (asciiCode "38") color

def backgroundSequence (color : TextColor) : List WChar := colorSequence 40 100 (asciiCode "49") (asciiCode "48") color

-- The type that is looked at is the one of the foreground.
def underlineColorSequences (foreground color : TextColor) : List (List WChar) :=
  match foreground.getType with
  | .isDefault => [asciiCode "59"]
  | .isIndex16 => []
  | .isIndex256 => [asciiCode "58:5:" ++ formatByte color.getIndex]
  | .isRgb =>
    [asciiCode "58:2::" ++ (formatByte color.getR ++ (0x3A :: formatByte color.getG ++ (0x3A :: formatByte color.getB)))]

def graphicsSequences (attr previous : TextAttribute) : List (List WChar) :=
  attributeSequences attr.attrs previous.attrs ++
    ((if previous.foreground ≠ attr.foreground then [foregroundSequence attr.foreground] else []) ++
      ((if previous.background ≠ attr.background then [backgroundSequence attr.background] else []) ++
        (if previous.underlineColor ≠ attr.underlineColor then underlineColorSequences attr.foreground attr.underlineColor
          else [])))

def effectivePrevious (previousTextAttr : Option TextAttribute) : TextAttribute :=
  previousTextAttr.getD { attrs := { unused1 := true } }

variable (getHyperlinkUriFromId : Nat → Option (List WChar))

-- The map throws where there is no entry.
def hyperlinkSequences (attr previous : TextAttribute) : Option (List Serialized) :=
  if previous.hyperlinkId ≠ attr.hyperlinkId then
    if attr.hyperlinkId ≠ 0 then
      match getHyperlinkUriFromId attr.hyperlinkId with
      | none => none
      | some uri => if uri.isEmpty then some [] else some [.hyperlink uri]
    else some [.hyperlink []]
  else some []

def runText (row : Row TextAttribute) (first : TextAttribute) (lastCharX oldX : Int) (run : TextAttribute × Nat)
    (isLast : Bool) : List Serialized × Int :=
  let newX := oldX + run.2
  let trimTrailingWhitespaces := isLast && decide (lastCharX < newX)
  let clearToEndOfLine := trimTrailingWhitespaces && (first != {} || run.1 != {})
  let newX := if trimTrailingWhitespaces then lastCharX else newX
  (.text (row.getText oldX newX) :: (if clearToEndOfLine then [.eraseInLine] else []), newX)

structure SerializeState where
  buffer : List Serialized
  previousTextAttr : Option TextAttribute
  delayedLineBreak : Bool

def serializeRuns (row : Row TextAttribute) (first : TextAttribute) (lastCharX : Int) :
    List (TextAttribute × Nat) → Int → SerializeState → Option SerializeState
  | [], _, state => some state
  | run :: rest, oldX, state =>
    let previous := effectivePrevious state.previousTextAttr
    match hyperlinkSequences getHyperlinkUriFromId run.1 previous with
    | none => none
    | some links =>
      let written := runText row first lastCharX oldX run rest.isEmpty
      serializeRuns row first lastCharX rest written.2
        { buffer := state.buffer ++ ((graphicsSequences run.1 previous).map .graphics ++ (links ++
            ((if state.delayedLineBreak then [.lineBreak] else []) ++ written.1)))
          previousTextAttr := some run.1
          delayedLineBreak := false }

def lineRenditionSequence : LineRendition → List Serialized
  | .singleWidth => []
  | .doubleWidth => [.lineRendition 0x36]
  | .doubleHeightTop => [.lineRendition 0x33]
  | .doubleHeightBottom => [.lineRendition 0x34]

def serializedRuns (row : Row TextAttribute) (startX endX : Int) : List (TextAttribute × Nat) :=
  (row.attr.slice 16 (narrow16 startX) (narrow16 endX)).runs.map (fun run => (run.value, run.length))

def lastRowSequences (previousTextAttr : Option TextAttribute) (addLineBreak : Bool) : List Serialized :=
  (if (previousTextAttr.getD {}).hyperlinkId ≠ 0 then [.hyperlink []] else []) ++
    (.graphics (asciiCode "0") :: (if addLineBreak then [.lineBreak] else []))

def serializeRow (row : Row TextAttribute) (startX endX : Int) (addLineBreak isLastRow : Bool) (state : SerializeState) :
    Option SerializeState :=
  let runs := serializedRuns row startX endX
  let first := (runs.headD ({}, 0)).1
  match serializeRuns getHyperlinkUriFromId row first row.measureRight runs startX
      { state with buffer := state.buffer ++ lineRenditionSequence row.lineRendition } with
  | none => none
  | some state =>
    some
      { state with
        buffer := state.buffer ++ ((if state.delayedLineBreak then [.lineBreak] else []) ++
          (if isLastRow then lastRowSequences state.previousTextAttr addLineBreak else []))
        delayedLineBreak := !row.wrapForced && addLineBreak }

end Cogterm.Buffer
