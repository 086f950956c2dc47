import Cogterm.Adapter.Pages

namespace Cogterm.VirtualTerminal

open Buffer Cogterm.Types

structure CellSize where
  width : Int
  height : Int
  wide : 0 < width
  tall : 6 ≤ height

inductive SixelBackground where
  | default
  | transparent
  | opaqueFill
deriving DecidableEq, Repr

inductive SixelStates where
  | normal
  | attributes
  | color
  | repetition
deriving DecidableEq, Repr

inductive SixelChar where
  | sixelValue
  | parameter
  | colorIntroducer
  | repeatIntroducer
  | carriageReturn
  | nextLine
  | home
  | rasterAttributes
  | endOfImage
  | ignored
deriving DecidableEq, Repr

def sixelChar (ch : WChar) : SixelChar :=
  if 0x3F ≤ ch ∧ ch ≤ 0x7E then .sixelValue
  else if (0x30 ≤ ch ∧ ch ≤ 0x39) ∨ ch = 0x3B then .parameter
  else if ch = 0x23 then .colorIntroducer
  else if ch = 0x21 then .repeatIntroducer
  else if ch = 0x24 then .carriageReturn
  else if ch = 0x2D then .nextLine
  else if ch = 0x2B then .home
  else if ch = 0x22 then .rasterAttributes
  else if ch = AsciiChars.ESC then .endOfImage
  else .ignored

-- The image buffer is known by the number of its pixels, the color map by the
-- color numbers in use. The page is the active one.
structure SixelParser where
  conformanceLevel : Int
  cellSize : CellSize
  displayMode : Bool
  page : Page
  textMargins : Rect
  textCursor : Point
  availablePixelWidth : Int
  availablePixelHeight : Int
  maxPixelAspectRatio : Int
  pixelAspectRatio : Int
  sixelHeight : Int
  segmentHeight : Int
  pendingTextScrollCount : Int
  backgroundWidth : Int
  backgroundHeight : Int
  backgroundFillRequired : Bool
  filledBackgroundHeight : Option Int
  colorMapUsed : Nat → Bool
  imageSize : Nat
  imageOriginCell : Point
  imageCursor : Point
  imageWidth : Int
  imageMaxWidth : Int
  imageLineCount : Nat
  lastFlushLine : Nat
  state : SixelStates
  parameters : List VTParameter

-- Whether more than 500 ms have passed since the last flush, and which line
-- feeds of a scroll pan the viewport.
structure Moment where
  late : Bool
  pans : Nat → Bool

-- A character and what the parser is told while it works on it: a pending
-- command may flush before the character's own command does.
structure SixelInput where
  ch : WChar
  lastCharacter : Bool
  pending : Moment
  own : Moment

namespace SixelParser

def maxColors : Nat := 256

def maxColorsForLevel (conformanceLevel : Int) : Nat :=
  if conformanceLevel = 1 ∨ conformanceLevel = 2 then 4 else if conformanceLevel = 3 then 16 else maxColors

-- static_cast<size_t>
def toSize (value : Int) : Nat := if value < 0 then 2 ^ 64 - value.natAbs else value.toNat

def executeCarriageReturn (parser : SixelParser) : SixelParser :=
  { parser with
    imageWidth := max parser.imageWidth parser.imageCursor.x
    imageCursor := ⟨0, parser.imageCursor.y⟩ }

def resizeImageBuffer (requiredHeight : Int) (parser : SixelParser) : SixelParser :=
  let requiredSize := (parser.imageCursor.y + requiredHeight) * parser.imageMaxWidth
  if toSize requiredSize > parser.imageSize then { parser with imageSize := toSize requiredSize } else parser

-- The overload that fills; what it writes is not kept, how wide it makes the
-- image is.
def fillImageBackgroundRows (parser : SixelParser) : SixelParser :=
  { parser with imageWidth := max parser.imageWidth (min parser.backgroundWidth parser.availablePixelWidth) }

def fillImageBackgroundWhenScrolled (parser : SixelParser) : SixelParser :=
  let imageHeight := parser.imageCursor.y + parser.sixelHeight
  match parser.filledBackgroundHeight with
  | none => parser
  | some filled =>
    if imageHeight > filled then
      let filled := (imageHeight + parser.cellSize.height - 1).tdiv parser.cellSize.height * parser.cellSize.height
      let parser := { parser with filledBackgroundHeight := some filled }
      (parser.resizeImageBuffer (filled - parser.imageCursor.y)).fillImageBackgroundRows
    else parser

def fillImageBackground (parser : SixelParser) : SixelParser :=
  if parser.backgroundFillRequired then
    let parser := { parser with backgroundFillRequired := false }
    let parser := (parser.resizeImageBuffer (min parser.backgroundHeight parser.availablePixelHeight)).fillImageBackgroundRows
    { parser with
      filledBackgroundHeight := some (parser.imageCursor.y + parser.availablePixelHeight) }.fillImageBackgroundWhenScrolled
  else parser

def decreaseFilledBackgroundHeight (decreasedHeight : Int) (parser : SixelParser) : SixelParser :=
  { parser with filledBackgroundHeight := parser.filledBackgroundHeight.map (fun filled => filled - decreasedHeight) }

def eraseImageBufferRows (rowCount rowOffset : Int) (parser : SixelParser) : SixelParser :=
  let pixelCount := rowCount * parser.cellSize.height
  let bufferOffset := rowOffset * parser.cellSize.height * parser.imageMaxWidth
  let bufferOffsetEnd := bufferOffset + pixelCount * parser.imageMaxWidth
  if toSize bufferOffsetEnd ≥ parser.imageSize then
    { parser.decreaseFilledBackgroundHeight parser.imageCursor.y with
      imageSize := 0
      imageCursor := ⟨parser.imageCursor.x, 0⟩ }
  else
    { parser.decreaseFilledBackgroundHeight pixelCount with
      imageSize := parser.imageSize - toSize (bufferOffsetEnd - bufferOffset)
      imageCursor := ⟨parser.imageCursor.x, parser.imageCursor.y - pixelCount⟩ }

-- The line feeds of _scrollTextBuffer pan the page, and the margins and the
-- text cursor go with it.
def panDown (panAmount : Nat) (parser : SixelParser) : SixelParser :=
  let margins := parser.textMargins
  { parser with
    page := { parser.page with top := parser.page.top + panAmount, bottom := parser.page.bottom + panAmount }
    textCursor := ⟨parser.textCursor.x, margins.bottom - 1 + panAmount⟩
    textMargins := ⟨margins.left, margins.top + panAmount, margins.right, margins.bottom + panAmount⟩ }

def marginsConstrain (parser : SixelParser) : Prop :=
  parser.textMargins.top > parser.page.top ∨ parser.textMargins.left > 0 ∨ parser.textMargins.right < parser.page.width - 1

instance (parser : SixelParser) : Decidable parser.marginsConstrain := inferInstanceAs (Decidable (_ ∨ _ ∨ _))

def moveImageUp (expectedMovement : Int) (parser : SixelParser) : SixelParser :=
  let availableSpace := max (parser.imageOriginCell.y - parser.textMargins.top) 0
  if parser.marginsConstrain ∧ expectedMovement > availableSpace then
    let eraseRowCount := expectedMovement - availableSpace
    let eraseOffset := max (parser.textMargins.top - parser.imageOriginCell.y) 0
    let parser := parser.eraseImageBufferRows eraseRowCount eraseOffset
    { parser with imageOriginCell := ⟨parser.imageOriginCell.x, parser.imageOriginCell.y - availableSpace⟩ }
  else { parser with imageOriginCell := ⟨parser.imageOriginCell.x, parser.imageOriginCell.y - expectedMovement⟩ }

def scrollTextBuffer (scrollAmount : Int) (pans : Nat → Bool) (parser : SixelParser) : SixelParser :=
  let panAmount := ((List.range scrollAmount.toNat).filter pans).length
  let parser := parser.panDown panAmount
  if scrollAmount > panAmount then parser.moveImageUp (scrollAmount - panAmount) else parser

def marginPixelHeight (parser : SixelParser) : Int := parser.textMargins.height * parser.cellSize.height

-- The loop at the start of _maybeFlushImageBuffer: how much is pending and how
-- much is available. It ends because the available height grows.
def makeRoom (segmentHeight marginPixelHeight cellHeight : Int) : Nat → Int × Int → Int × Int
  | 0, counts => counts
  | fuel + 1, (pending, available) =>
    if available < marginPixelHeight ∧ segmentHeight ≥ available then
      makeRoom segmentHeight marginPixelHeight cellHeight fuel (pending + 1, available + cellHeight)
    else (pending, available)

def calculateScroll (parser : SixelParser) : SixelParser :=
  let counts :=
    if parser.segmentHeight > parser.availablePixelHeight ∧ !parser.displayMode then
      makeRoom parser.segmentHeight parser.marginPixelHeight parser.cellSize.height
        (parser.marginPixelHeight - parser.availablePixelHeight).toNat
        (parser.pendingTextScrollCount, parser.availablePixelHeight)
    else (parser.pendingTextScrollCount, parser.availablePixelHeight)
  { parser with
    pendingTextScrollCount := counts.1
    availablePixelHeight := counts.2
    segmentHeight := parser.sixelHeight }

def scrollPending (pans : Nat → Bool) (parser : SixelParser) : SixelParser :=
  if parser.pendingTextScrollCount > 0 then
    { parser.scrollTextBuffer parser.pendingTextScrollCount pans with pendingTextScrollCount := 0 }
  else parser

-- What has been rendered above the page is not needed any more.
def deleteRendered (parser : SixelParser) : SixelParser :=
  if parser.imageWidth > 0 ∧ parser.imageOriginCell.y < parser.page.top then
    let rowsToDelete := parser.page.top - parser.imageOriginCell.y
    let parser := parser.eraseImageBufferRows rowsToDelete 0
    { parser with imageOriginCell := ⟨parser.imageOriginCell.x, parser.imageOriginCell.y + rowsToDelete⟩ }
  else parser

def flushImageBuffer (pans : Nat → Bool) (parser : SixelParser) : SixelParser :=
  ({ parser with lastFlushLine := parser.imageLineCount }.scrollPending pans).deleteRendered

def maybeFlushImageBuffer (endOfSequence lastCharacter : Bool) (moment : Moment) (parser : SixelParser) : SixelParser :=
  let parser := parser.calculateScroll
  if endOfSequence ∨ moment.late ∨ (parser.imageLineCount - parser.lastFlushLine ≤ 1 ∧ lastCharacter) then
    parser.flushImageBuffer moment.pans
  else parser

def countLine (parser : SixelParser) : SixelParser := { parser with imageLineCount := parser.imageLineCount + 1 }

def moveDown (parser : SixelParser) : SixelParser :=
  { parser with
    imageCursor := ⟨parser.imageCursor.x, parser.imageCursor.y + parser.sixelHeight⟩
    availablePixelHeight := parser.availablePixelHeight - parser.sixelHeight }

def executeNextLine (lastCharacter : Bool) (moment : Moment) (parser : SixelParser) : SixelParser :=
  let moved := (parser.executeCarriageReturn.countLine.maybeFlushImageBuffer false lastCharacter moment).moveDown
  (moved.resizeImageBuffer moved.sixelHeight).fillImageBackgroundWhenScrolled

def executeMoveToHome (lastCharacter : Bool) (moment : Moment) (parser : SixelParser) : SixelParser :=
  let parser := parser.executeCarriageReturn.maybeFlushImageBuffer false lastCharacter moment
  { parser with
    imageCursor := ⟨parser.imageCursor.x, 0⟩
    availablePixelHeight := parser.marginPixelHeight }

-- The overload that is given the color. HLS is 1, RGB is 2.
def defineColorNumber (colorNumber : Nat) (lastCharacter : Bool) (moment : Moment) (parser : SixelParser) : SixelParser :=
  if parser.colorMapUsed colorNumber then
    if parser.imageWidth > 0 ∧ lastCharacter then parser.maybeFlushImageBuffer false lastCharacter moment else parser
  else { parser with colorMapUsed := Function.update parser.colorMapUsed colorNumber true }

def parameter (parser : SixelParser) (index : Nat) : Nat := (parser.parameters.getD index none).getD 0

def defineColor (lastCharacter : Bool) (moment : Moment) (parser : SixelParser) : SixelParser :=
  let colorNumber := parser.parameter 0 % maxColors
  if parser.parameters.length > 1 ∧ parser.conformanceLevel > 1 ∧ (parser.parameter 1 = 1 ∨ parser.parameter 1 = 2) then
    parser.defineColorNumber colorNumber lastCharacter moment
  else parser

-- std::clamp of the quotient, rounded up.
def requestedAspectRatio (parser : SixelParser) (yAspect xAspect : Nat) : Int :=
  clamp (((yAspect + xAspect - 1) / xAspect : Nat) : Int) 1 parser.maxPixelAspectRatio

def setAspectRatio (pixelAspectRatio : Int) (parser : SixelParser) : SixelParser :=
  let sixelHeight := 6 * pixelAspectRatio
  let parser := { parser with
    pixelAspectRatio := pixelAspectRatio
    sixelHeight := sixelHeight
    segmentHeight := max parser.segmentHeight sixelHeight }
  parser.resizeImageBuffer sixelHeight

def changeAspectRatio (yAspect xAspect : Nat) (parser : SixelParser) : SixelParser :=
  if xAspect > 0 then parser.setAspectRatio (parser.requestedAspectRatio yAspect xAspect) else parser

def changeBackgroundSize (width height : Nat) (parser : SixelParser) : SixelParser :=
  { parser with
    backgroundWidth := if width > 0 then width else parser.backgroundWidth
    backgroundHeight := if height > 0 then height else parser.backgroundHeight }

def updateRasterAttributes (parser : SixelParser) : SixelParser :=
  let resized := (parser.changeAspectRatio (parser.parameter 0) (parser.parameter 1)).changeBackgroundSize
    (parser.parameter 2) (parser.parameter 3)
  resized.fillImageBackgroundWhenScrolled.executeCarriageReturn

def normalState (parser : SixelParser) : SixelParser := { parser with state := .normal }

def applyPendingCommand (lastCharacter : Bool) (moment : Moment) (parser : SixelParser) : SixelParser × Int :=
  match parser.state with
  | .normal => (parser.normalState, 1)
  | .color => (parser.normalState.defineColor lastCharacter moment, 1)
  | .repetition => (parser.normalState, max 1 (parser.parameter 0))
  | .attributes => (parser.normalState.updateRasterAttributes, 1)

-- Without the pixels.
def writeToImageBuffer (repeatCount : Int) (parser : SixelParser) : SixelParser :=
  let parser := parser.fillImageBackground
  let repeatCount := min repeatCount (parser.imageMaxWidth - parser.imageCursor.x)
  { parser with imageCursor := ⟨parser.imageCursor.x + repeatCount, parser.imageCursor.y⟩ }

def parseParameterChar (ch : WChar) (parser : SixelParser) : SixelParser :=
  if parser.parameters.length ≤ 5 then
    let parameters := if parser.parameters.isEmpty then [none] else parser.parameters
    if ch = 0x3B then { parser with parameters := parameters ++ [none] }
    else
      let currentValue := (parameters.getLastD none).getD 0
      { parser with parameters := parameters.dropLast ++ [some (accumulateTo ch currentValue)] }
  else parser

def introduce (state : SixelStates) (parser : SixelParser) : SixelParser := { parser with state := state, parameters := [] }

def parseCommandChar (parser : SixelParser) (input : SixelInput) : SixelParser :=
  let applied := parser.applyPendingCommand input.lastCharacter input.pending
  match sixelChar input.ch with
  | .sixelValue => applied.1.writeToImageBuffer applied.2
  | .parameter => parser.parseParameterChar input.ch
  | .colorIntroducer => applied.1.introduce .color
  | .repeatIntroducer => applied.1.introduce .repetition
  | .carriageReturn => applied.1.executeCarriageReturn
  | .nextLine => applied.1.executeNextLine input.lastCharacter input.own
  | .home => if parser.conformanceLevel = 2 then applied.1.executeMoveToHome input.lastCharacter input.own else parser
  | .rasterAttributes => if parser.conformanceLevel ≥ 3 then applied.1.introduce .attributes else parser
  | .endOfImage =>
    let parser := if parser.state = .color then applied.1 else parser
    parser.fillImageBackground.executeCarriageReturn.maybeFlushImageBuffer true input.lastCharacter input.own
  | .ignored => parser

end SixelParser

structure SixelSetup where
  conformanceLevel : Int
  cellSize : CellSize
  displayMode : Bool
  page : Page
  margins : Margins
  cursor : Point
  macroParameter : Int
  backgroundSelect : SixelBackground
  backgroundColor : VTParameter

namespace SixelSetup

open SixelParser

-- The mode cannot be reset below level 3.
def clamped (setup : SixelSetup) : Bool := decide (setup.conformanceLevel < 3) || setup.displayMode

def initialAspectRatio (setup : SixelSetup) : Int :=
  if setup.conformanceLevel < 3 then 2
  else if setup.macroParameter = 0 ∨ setup.macroParameter = 1 ∨ setup.macroParameter = 5 ∨ setup.macroParameter = 6 then 2
  else if setup.macroParameter = 2 then 5
  else if setup.macroParameter = 3 ∨ setup.macroParameter = 4 then 3
  else 1

def textMargins (setup : SixelSetup) : Rect :=
  if setup.clamped then ⟨0, setup.page.top, setup.page.width, setup.page.bottom⟩
  else
    let vertical := setup.margins.getVerticalMargins setup.page
    let horizontal := vertical.1.getHorizontalMargins setup.page.width
    ⟨horizontal.2.1, setup.page.top + vertical.2.1, horizontal.2.2 + 1, setup.page.top + vertical.2.2 + 1⟩

def textCursor (setup : SixelSetup) : Point := if setup.clamped then setup.textMargins.origin else setup.cursor

def validOrigin (setup : SixelSetup) : Prop :=
  setup.clamped ∨ (setup.textMargins.left ≤ setup.cursor.x ∧ setup.cursor.x < setup.textMargins.right ∧
    setup.cursor.y < setup.textMargins.bottom)

instance (setup : SixelSetup) : Decidable setup.validOrigin := inferInstanceAs (Decidable (_ ∨ _))

def prepared (setup : SixelSetup) : SixelParser :=
  let margins := setup.textMargins
  let availablePixelWidth := (margins.right - setup.textCursor.x) * setup.cellSize.width
  { conformanceLevel := setup.conformanceLevel
    cellSize := setup.cellSize
    displayMode := setup.clamped
    page := setup.page
    textMargins := margins
    textCursor := setup.textCursor
    availablePixelWidth := availablePixelWidth
    availablePixelHeight := (margins.bottom - setup.textCursor.y) * setup.cellSize.height
    maxPixelAspectRatio := (margins.height * setup.cellSize.height).tdiv 6
    pixelAspectRatio := setup.initialAspectRatio
    sixelHeight := 6 * setup.initialAspectRatio
    segmentHeight := 6 * setup.initialAspectRatio
    pendingTextScrollCount := 0
    backgroundWidth := coordTypeMax
    backgroundHeight := coordTypeMax
    backgroundFillRequired := decide (setup.conformanceLevel = 1) || decide (setup.backgroundSelect ≠ .transparent)
    filledBackgroundHeight := none
    colorMapUsed := fun colorNumber => decide (setup.conformanceLevel = 2) &&
      decide (setup.backgroundColor = some colorNumber) && decide (colorNumber < maxColorsForLevel setup.conformanceLevel)
    imageSize := 0
    imageOriginCell := setup.textCursor
    imageCursor := ⟨0, 0⟩
    imageWidth := 0
    imageMaxWidth := availablePixelWidth
    imageLineCount := 0
    lastFlushLine := 0
    state := .normal
    parameters := [] }

def defineImage (setup : SixelSetup) : Option SixelParser :=
  if setup.validOrigin then
    let parser := setup.prepared.resizeImageBuffer setup.prepared.sixelHeight
    some (if setup.conformanceLevel < 3 then parser.fillImageBackground else parser)
  else none

end SixelSetup

end Cogterm.VirtualTerminal
