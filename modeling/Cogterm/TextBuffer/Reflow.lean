import Cogterm.Library.Loop
import Cogterm.TextBuffer.TextBuffer

namespace Cogterm.Buffer

open Library Til

structure ViewRows where
  top : Int
  bottomInclusive : Int
deriving DecidableEq, Repr

structure PositionInformation where
  mutableViewportTop : Int
  visibleViewportTop : Int
deriving DecidableEq, Repr

def Row.adjustToGlyphStart (row : Row TextAttribute) (column : Int) : Int := row.adjustBackward (row.clampedColumn column)

namespace TextBuffer

-- To look at a row commits it.
def touchRow (buffer : TextBuffer) (y : Int) : TextBuffer := buffer.commit (buffer.storageIndex y + 1)

def lastNonSpaceLoop : Nat → Int → TextBuffer → TextBuffer × Point
  | 0, y, buffer => (buffer.touchRow y, ⟨(buffer.getRow y).measureRight - 1, y⟩)
  | fuel + 1, y, buffer =>
    let x := (buffer.getRow y).measureRight - 1
    if x < 0 then lastNonSpaceLoop fuel (y - 1) (buffer.touchRow y) else (buffer.touchRow y, ⟨x, y⟩)

def getLastNonSpaceCharacter (buffer : TextBuffer) (viewOptional : Option ViewRows) : TextBuffer × Point :=
  let viewport := viewOptional.getD ⟨0, buffer.height - 1⟩
  let y := min viewport.bottomInclusive buffer.estimateOffsetOfLastCommittedRow
  let found := lastNonSpaceLoop (y - viewport.top).toNat y buffer
  (found.1, ⟨max found.2.x 0, max found.2.y 0⟩)

end TextBuffer

def Cursor.setPosition (position : Point) (cursor : Cursor) : Cursor := { cursor with position := position, delayedAt := none }

structure Reflowing where
  oldBuffer : TextBuffer
  newBuffer : TextBuffer
  newX : Int
  newY : Int
  newYLimit : Int
  newCursorPos : Point
  mutableViewportTop : Int
  visibleViewportTop : Int
  positionInfo : Option PositionInformation

namespace Reflowing

def trackMutableViewport (oldY : Int) (s : Reflowing) : Reflowing :=
  if oldY ≥ s.mutableViewportTop then
    { s with
      positionInfo := s.positionInfo.map (fun info => { info with mutableViewportTop := s.newY })
      mutableViewportTop := coordTypeMax }
  else s

def trackVisibleViewport (oldY : Int) (s : Reflowing) : Reflowing :=
  if oldY ≥ s.visibleViewportTop then
    { s with
      positionInfo := s.positionInfo.map (fun info => { info with visibleViewportTop := s.newY })
      visibleViewportTop := coordTypeMax }
  else s

def trackViewports (oldY : Int) (s : Reflowing) : Reflowing := (s.trackMutableViewport oldY).trackVisibleViewport oldY

def newline (s : Reflowing) : Reflowing := { s with newX := 0, newY := s.newY + 1 }

def freshLine (s : Reflowing) : Reflowing := if s.newX ≠ 0 then s.newline else s

section

variable (env : Environment) (oldCursorPos : Point) (newWidth newHeight : Int)

def placeWideRow (newRow : Row TextAttribute) (oldY : Int) (s : Reflowing) : Reflowing :=
  let s := { s with newBuffer := s.newBuffer.setRow s.newY newRow }
  let s := if oldY = oldCursorPos.y then
      { s with newCursorPos := ⟨newRow.adjustToGlyphStart oldCursorPos.x, s.newY⟩ }
    else s
  let s := s.trackViewports oldY
  { s with newY := s.newY + 1 }

-- A row of another line rendition is copied as it is. There is no result when
-- an exception is thrown.
def copyWideRow (oldRow : Row TextAttribute) (oldY : Int) (s : Reflowing) : Option Reflowing :=
  let s := s.freshLine
  let newRow := s.newBuffer.getRow s.newY
  let newRow := if s.newY ≥ newHeight then newRow.reset s.newBuffer.initialAttributes else newRow
  let copied := newRow.copyFrom env (some oldRow)
  copied.2.map (fun _ => s.placeWideRow oldCursorPos { copied.1 with wrapForced := false } oldY)

def wrapLine (s : Reflowing) : Reflowing :=
  if s.newX ≥ newWidth then
    { s with newBuffer := s.newBuffer.setRow s.newY { s.newBuffer.getRow s.newY with wrapForced := true } }.newline
  else s

def copyAttributes (oldRow newRow : Row TextAttribute) (oldX newX : Int) : Option (Row TextAttribute) := do
  let attributes := oldRow.attr.slice 16 (narrow16 oldX) oldRow.attr.total
  let replaced ← newRow.attr.replaceRuns 16 (narrow16 newX) newRow.attr.total attributes.runs
  let resized ← replaced.resizeTrailingExtent 16 (narrow16 newWidth)
  return { newRow with attr := resized }

-- The cursor moves with the text. From then on its row must not be overwritten.
def trackCursor (oldY oldX : Int) (newRow : Row TextAttribute) (s : Reflowing) : Reflowing :=
  if oldY = oldCursorPos.y ∧ oldCursorPos.x ≥ oldX then
    { s with
      newCursorPos := ⟨newRow.adjustToGlyphStart (oldCursorPos.x - oldX + s.newX), s.newY⟩
      newYLimit := s.newY + newHeight }
  else s

-- The result has the old column to go on with.
def copyPiece (oldRow : Row TextAttribute) (oldY oldRowLimit oldX : Int) (s : Reflowing) : Option (Int × Reflowing) := do
  let newRow := s.newBuffer.getRow s.newY
  let copied := newRow.copyTextFrom env (some oldRow) ⟨s.newX, coordTypeMax, oldX, oldRowLimit, 0, 0, 0, 0⟩
  let state ← copied.2
  let newRow ← copyAttributes newWidth oldRow copied.1 oldX s.newX
  let s := { s with newBuffer := s.newBuffer.setRow s.newY newRow }
  let s := s.trackCursor oldCursorPos newHeight oldY oldX newRow
  let s := s.trackViewports oldY
  return (state.sourceColumnEnd, { s with newX := state.columnEnd })

-- A row that was written already is reset before it is written again.
def resetLine (s : Reflowing) : Reflowing :=
  if s.newY ≥ newHeight ∧ s.newX = 0 then
    { s with newBuffer := s.newBuffer.setRow s.newY ((s.newBuffer.getRow s.newY).reset s.newBuffer.initialAttributes) }
  else s

-- One iteration of the inner loop, whose result is none when an exception is
-- thrown. It must not overwrite the row that the cursor is on.
def copyStep (oldRow : Row TextAttribute) (oldY oldRowLimit : Int) (current : Int × Reflowing) :
    Iteration (Int × Reflowing) (Option Reflowing) :=
  let s := current.2.wrapLine newWidth
  if s.newY ≥ newHeight ∧ s.newX = 0 ∧ s.newY ≥ s.newYLimit then .done (some s)
  else
    match (s.resetLine newHeight).copyPiece env oldCursorPos newWidth newHeight oldRow oldY oldRowLimit current.1 with
    | none => .done none
    | some next => if next.1 < oldRowLimit then .again next else .done (some next.2)

def oldRowLimit (oldRow : Row TextAttribute) (oldY : Int) : Int :=
  if oldY = oldCursorPos.y then max oldRow.measureRight (oldCursorPos.x + 1) else oldRow.measureRight

-- The result is none when the fuel does not suffice.
def reflowRow (fuel : Nat) (oldY : Int) (s : Reflowing) : Option (Option Reflowing) :=
  let oldRow := s.oldBuffer.getRow oldY
  let s := { s with oldBuffer := s.oldBuffer.touchRow oldY }
  if oldRow.lineRendition ≠ .singleWidth then some (s.copyWideRow env oldCursorPos newHeight oldRow oldY)
  else
    (runLoop (copyStep env oldCursorPos newWidth newHeight oldRow oldY (oldRowLimit oldCursorPos oldRow oldY)) fuel (0, s)).map
      (fun copied => copied.map (fun s => if oldRow.wrapForced then s else s.newline))

-- The outer loop for a number of old rows. The result has the old row to go on with.
def reflowRows (fuel : Nat) : Nat → Int → Reflowing → Option (Option (Int × Reflowing))
  | 0, oldY, s => some (some (oldY, s))
  | count + 1, oldY, s =>
    if s.newY < s.newYLimit then
      match s.reflowRow env oldCursorPos newWidth newHeight fuel oldY with
      | none => none
      | some none => some none
      | some (some s) => reflowRows fuel count (oldY + 1) s
    else some (some (oldY, s))

end

-- Rows below the text keep their attributes.
def copyTrailingAttributes (newWidth : Int) : Nat → Int → Reflowing → Option Reflowing
  | 0, _, s => some s
  | count + 1, oldY, s =>
    match (s.oldBuffer.getRow oldY).attr.resizeTrailingExtent 16 (narrow16 newWidth) with
    | none => none
    | some attr =>
      copyTrailingAttributes newWidth count (oldY + 1)
        { s with
          oldBuffer := s.oldBuffer.touchRow oldY
          newBuffer := s.newBuffer.setRow s.newY { s.newBuffer.getRow s.newY with attr := attr }
          newY := s.newY + 1 }

-- The first row is the one that IncrementCircularBuffer would have reached.
def settleFirstRow (newHeight : Int) (s : Reflowing) : Reflowing :=
  if s.newY > newHeight then
    let firstRow := s.newY % newHeight
    { s with
      newBuffer := { s.newBuffer with firstRow := firstRow.toNat }
      newCursorPos := { s.newCursorPos with y := (s.newCursorPos.y - firstRow + newHeight) % newHeight } }
  else s

end Reflowing

namespace TextBuffer

def copyHyperlinkMaps (buffer other : TextBuffer) : TextBuffer :=
  { buffer with
    hyperlinkMap := other.hyperlinkMap
    hyperlinkCustomIdMap := other.hyperlinkCustomIdMap
    currentHyperlinkId := other.currentHyperlinkId }

def reflowCursor (oldBuffer : TextBuffer) : Point :=
  ⟨clamp oldBuffer.cursor.position.x 0 (oldBuffer.width - 1), clamp oldBuffer.cursor.position.y 0 (oldBuffer.height - 1)⟩

def reflowHeight (oldBuffer : TextBuffer) (lastCharacterViewport : Option ViewRows) : Int :=
  max (oldBuffer.getLastNonSpaceCharacter lastCharacterViewport).2.y oldBuffer.reflowCursor.y + 1

def startReflow (oldBuffer newBuffer : TextBuffer) (lastCharacterViewport : Option ViewRows)
    (positionInfo : Option PositionInformation) : Reflowing :=
  { oldBuffer := (oldBuffer.getLastNonSpaceCharacter lastCharacterViewport).1
    newBuffer := newBuffer
    newX := 0
    newY := 0
    newYLimit := coordTypeMax
    newCursorPos := ⟨0, 0⟩
    mutableViewportTop := (positionInfo.map PositionInformation.mutableViewportTop).getD coordTypeMax
    visibleViewportTop := (positionInfo.map PositionInformation.visibleViewportTop).getD coordTypeMax
    positionInfo := positionInfo }

def finishReflow (oldBuffer : TextBuffer) (newWidth newHeight oldY : Int) (s : Reflowing) :
    Option (TextBuffer × Option PositionInformation) := do
  let s := s.freshLine
  let initializedRowsEnd := s.oldBuffer.estimateOffsetOfLastCommittedRow + 1
  let s ← s.copyTrailingAttributes newWidth (min (initializedRowsEnd - oldY) (newHeight - s.newY)).toNat oldY
  let s := s.settleFirstRow newHeight
  let newBuffer := s.newBuffer.copyHyperlinkMaps oldBuffer
  return ({ newBuffer with cursor := newBuffer.cursor.setPosition s.newCursorPos }, s.positionInfo)

-- The outer option is none when the fuel does not suffice, the inner one when
-- an exception is thrown.
def reflow (env : Environment) (fuel : Nat) (oldBuffer newBuffer : TextBuffer) (lastCharacterViewport : Option ViewRows)
    (positionInfo : Option PositionInformation) : Option (Option (TextBuffer × Option PositionInformation)) :=
  ((oldBuffer.startReflow newBuffer lastCharacterViewport positionInfo).reflowRows env oldBuffer.reflowCursor newBuffer.width
      newBuffer.height fuel (oldBuffer.reflowHeight lastCharacterViewport).toNat 0).map
    (fun copied => copied.bind (fun reached => oldBuffer.finishReflow newBuffer.width newBuffer.height reached.1 reached.2))

end TextBuffer

end Cogterm.Buffer
