import Cogterm.Adapter.Pages
import Cogterm.TextBuffer.Reflow

namespace Cogterm.Buffer

open Cogterm.Types

namespace TextBuffer

variable (env : Environment)

def isDoubleWidthLine (buffer : TextBuffer) (y : Int) : Bool := (buffer.getRow y).lineRendition != .singleWidth

def getLineWidth (buffer : TextBuffer) (y : Int) : Int := if buffer.isDoubleWidthLine y then buffer.width / 2 else buffer.width

def clampPositionWithinLine (buffer : TextBuffer) (position : Point) : Point :=
  ⟨min position.x (buffer.getLineWidth position.y - 1), position.y⟩

def IsInBounds (buffer : TextBuffer) (pos : Point) : Prop :=
  0 ≤ pos.x ∧ pos.x < buffer.width ∧ 0 ≤ pos.y ∧ pos.y < buffer.height

instance (buffer : TextBuffer) (pos : Point) : Decidable (buffer.IsInBounds pos) :=
  inferInstanceAs (Decidable (_ ∧ _ ∧ _ ∧ _))

-- None is an exception, here and below.
def getCellDataAt (buffer : TextBuffer) (pos : Point) : Option (OutputCellView TextAttribute) :=
  if buffer.IsInBounds pos then (buffer.getRow pos.y).cellView pos.x else none

def writeLine (buffer : TextBuffer) (cell : OutputCellView TextAttribute) (target : Point) : Option TextBuffer :=
  if buffer.IsInBounds target then
    let written := (buffer.getRow target.y).writeCells env ⟨[(cell, 0)], cell⟩ target.x none none
    written.2.map (fun _ => buffer.setRow target.y written.1)
  else some buffer

def resetLineRenditionRange (buffer : TextBuffer) (startRow endRow : Int) : TextBuffer :=
  changeRows (fun _ row => { row with lineRendition := .singleWidth }) (endRow - startRow).toNat startRow buffer

-- FillRect with whitespace, which the scratchpad is reset to.
def fillRow (left right : Int) (attributes : TextAttribute) (y : Int) (buffer : TextBuffer) : Option TextBuffer :=
  let copied := (buffer.getRow y).copyTextFrom env (some buffer.scratchpad) ⟨left, right, left, coordTypeMax, 0, 0, 0, 0⟩
  match copied.2 with
  | none => none
  | some _ => (copied.1.replaceAttributes left right attributes).map (buffer.setRow y)

def fillRows (left right : Int) (attributes : TextAttribute) : Nat → Int → TextBuffer → Option TextBuffer
  | 0, _, buffer => some buffer
  | count + 1, y, buffer => (fillRow env left right attributes y buffer).bind (fillRows left right attributes count (y + 1))

def fillRect (buffer : TextBuffer) (rect : VirtualTerminal.Rect) (attributes : TextAttribute) : Option TextBuffer :=
  if rect.filled then
    fillRows env rect.left rect.right attributes rect.height.toNat rect.top (buffer.getScratchpadRow attributes)
  else some buffer

end TextBuffer

end Cogterm.Buffer

namespace Cogterm.VirtualTerminal

open Buffer Cogterm.Types Viewport

structure OutputSettings where
  wrapAtEOL : Bool
  insertReplace : Bool
  eraseColor : Bool
  scrollMargins : Margins

section

variable (env : Environment)

def moveCells (srcView dstView : Viewport) (walkDirection : Int) : Nat → Point → Point → TextBuffer → Option TextBuffer
  | 0, _, _, buffer => some buffer
  | fuel + 1, srcPos, dstPos, buffer => do
      let current ← buffer.getCellDataAt srcPos
      let buffer ← buffer.writeLine env current dstPos
      let srcPos := (srcView.walkInBounds srcPos walkDirection).1
      match dstView.walkInBounds dstPos walkDirection with
      | (dstPos, true) => moveCells srcView dstView walkDirection fuel srcPos dstPos buffer
      | (_, false) => return buffer

def moveRows (page : Page) (scrollRect : Rect) (top height actualDelta : Int) (buffer : TextBuffer) : Option TextBuffer :=
  if scrollRect.width = page.width then
    let scrolled := buffer.scrollRows env top height actualDelta
    scrolled.2.map (fun _ => scrolled.1)
  else
    let srcView := fromDimensions ⟨scrollRect.left, top⟩ scrollRect.width height
    let dstView := fromDimensions ⟨scrollRect.left, top + actualDelta⟩ scrollRect.width height
    let walkDirection := determineWalkDirection srcView dstView
    moveCells env srcView dstView walkDirection dstView.count (srcView.getWalkOrigin walkDirection)
      (dstView.getWalkOrigin walkDirection) buffer

def absoluteDelta (scrollRect : Rect) (delta : Int) : Int := min (delta.natAbs : Int) scrollRect.height

def moveContent (page : Page) (scrollRect : Rect) (delta : Int) (buffer : TextBuffer) : Option TextBuffer :=
  if absoluteDelta scrollRect delta < scrollRect.height then
    moveRows env page scrollRect (if delta > 0 then scrollRect.top else scrollRect.top + absoluteDelta scrollRect delta)
      (scrollRect.height - absoluteDelta scrollRect delta)
      (if delta > 0 then absoluteDelta scrollRect delta else -absoluteDelta scrollRect delta) buffer
  else some buffer

def eraseRect (scrollRect : Rect) (delta : Int) : Rect :=
  let top := if delta > 0 then scrollRect.top else scrollRect.bottom - absoluteDelta scrollRect delta
  { scrollRect with top := top, bottom := top + absoluteDelta scrollRect delta }

def eraseRevealed (eraseColor : Bool) (scrollRect : Rect) (delta : Int) (buffer : TextBuffer) : Option TextBuffer :=
  (buffer.fillRect env (eraseRect scrollRect delta) (buffer.getEraseAttributes eraseColor)).map
    (fun buffer => buffer.resetLineRenditionRange (eraseRect scrollRect delta).top (eraseRect scrollRect delta).bottom)

def scrollRectVertically (eraseColor : Bool) (page : Page) (scrollRect : Rect) (delta : Int) (buffer : TextBuffer) :
    Option TextBuffer :=
  (moveContent env page scrollRect delta buffer).bind (eraseRevealed env eraseColor scrollRect delta)

end

variable (env : Environment) (settings : OutputSettings)

-- The margins in absolute coordinates. They are the same for every call, although
-- margins that are out of range are reset in the first one.
def topMargin (page : Page) : Int := page.top + (settings.scrollMargins.getVerticalMargins page).2.1
def bottomMargin (page : Page) : Int := page.top + (settings.scrollMargins.getVerticalMargins page).2.2
def leftMargin (page : Page) : Int := (settings.scrollMargins.getHorizontalMargins page.width).2.1
def rightMargin (page : Page) : Int := (settings.scrollMargins.getHorizontalMargins page.width).2.2

def Page.moveViewportDown (page : Page) : Page := { page with top := page.top + 1, bottom := page.bottom + 1 }

def panViewport (page : Page) (y : Int) (buffer : TextBuffer) : Option TextBuffer :=
  if bottomMargin settings page < page.bottom - 1 then
    scrollRectVertically env settings.eraseColor page ⟨0, bottomMargin settings page + 1, page.width, page.bottom + 1⟩ 1
      buffer
  else some (buffer.setRow (y + 1) ((buffer.getRow (y + 1)).reset (buffer.getEraseAttributes settings.eraseColor)))

def cycleRows (page : Page) (buffer : TextBuffer) : Option TextBuffer :=
  let buffer := buffer.incrementCircularBuffer (buffer.getEraseAttributes settings.eraseColor)
  if bottomMargin settings page < page.bottom - 1 then
    scrollRectVertically env settings.eraseColor page ⟨0, bottomMargin settings page, page.width, page.bufferHeight⟩ 1 buffer
  else some buffer

def doLineFeed (page : Page) (withReturn wrapForced : Bool) (buffer : TextBuffer) : Option (TextBuffer × Bool) :=
  let currentPosition := buffer.cursor.position
  let buffer := buffer.setRow currentPosition.y { buffer.getRow currentPosition.y with wrapForced := wrapForced }
  let clampToMargin := currentPosition.y ≥ topMargin settings page ∧ currentPosition.y ≤ bottomMargin settings page ∧
    currentPosition.x ≥ leftMargin settings page
  let newX := if withReturn then (if clampToMargin then leftMargin settings page else 0) else currentPosition.x
  let moveTo := fun (position : Point) (buffer : TextBuffer) => { buffer with cursor := buffer.cursor.setPosition position }
  if currentPosition.y ≠ bottomMargin settings page ∨ newX < leftMargin settings page ∨
    newX > rightMargin settings page then
    let newPosition := buffer.clampPositionWithinLine ⟨newX, min (currentPosition.y + 1) (page.bottom - 1)⟩
    some (moveTo newPosition buffer, false)
  else if topMargin settings page > page.top ∨ leftMargin settings page > 0 ∨ rightMargin settings page < page.width - 1 then
    (scrollRectVertically env settings.eraseColor page
      ⟨leftMargin settings page, topMargin settings page, rightMargin settings page + 1, bottomMargin settings page + 1⟩
      (-1) buffer).map (fun buffer => (moveTo ⟨newX, currentPosition.y⟩ buffer, false))
  else if page.bottom < page.bufferHeight then
    (panViewport env settings page currentPosition.y buffer).map
      (fun buffer => (moveTo ⟨newX, currentPosition.y + 1⟩ buffer, true))
  else (cycleRows env settings page buffer).map (fun buffer => (moveTo ⟨newX, currentPosition.y⟩ buffer, false))

end Cogterm.VirtualTerminal
