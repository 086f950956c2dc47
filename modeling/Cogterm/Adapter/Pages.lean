import Cogterm.Parser.Characters
import Cogterm.Row.Lines
import Cogterm.Types.Viewport

namespace Cogterm.VirtualTerminal

open Buffer Cogterm.Types

-- til::rect, without the right column and the bottom row.
structure Rect where
  left : Int
  top : Int
  right : Int
  bottom : Int
deriving DecidableEq, Repr

namespace Rect

def width (rect : Rect) : Int := rect.right - rect.left
def height (rect : Rect) : Int := rect.bottom - rect.top
def origin (rect : Rect) : Point := ⟨rect.left, rect.top⟩

def filled (rect : Rect) : Bool :=
  decide (rect.left ≥ 0) && decide (rect.top ≥ 0) && decide (rect.right > rect.left) && decide (rect.bottom > rect.top)

end Rect

-- A page is known by its number: two numbers that Get returns are the same
-- exactly when the buffers are. The width is that of the buffer.
structure Page where
  number : Int
  top : Int
  bottom : Int
  width : Int
  bufferHeight : Int
deriving DecidableEq, Repr

def Page.height (page : Page) : Int := page.bottom - page.top

def maxPages : Int := 6

-- What GetBufferAndViewport returns, and the page that it shows.
structure Screen where
  isMainBuffer : Bool
  visiblePageNumber : Int
  viewport : Rect
  bufferWidth : Int
  bufferHeight : Int
deriving DecidableEq, Repr

namespace Screen

-- PageManager::Get. A background buffer is resized to the size of the viewport.
def get (screen : Screen) (pageNumber : Int) : Page :=
  let requestedPageNumber := min (max pageNumber 1) maxPages
  if !screen.isMainBuffer then ⟨1, screen.viewport.top, screen.viewport.bottom, screen.bufferWidth, screen.bufferHeight⟩
  else if requestedPageNumber = screen.visiblePageNumber then
    ⟨screen.visiblePageNumber, screen.viewport.top, screen.viewport.bottom, screen.bufferWidth, screen.bufferHeight⟩
  else ⟨requestedPageNumber, 0, screen.viewport.height, screen.viewport.width, screen.viewport.height⟩

structure Valid (screen : Screen) : Prop where
  left : 0 ≤ screen.viewport.left
  columns : screen.viewport.left < screen.viewport.right
  right : screen.viewport.right ≤ screen.bufferWidth
  top : 0 ≤ screen.viewport.top
  rows : screen.viewport.top < screen.viewport.bottom
  bottom : screen.viewport.bottom ≤ screen.bufferHeight

end Screen

structure Page.Valid (page : Page) : Prop where
  wide : 0 < page.width
  top : 0 ≤ page.top
  rows : page.top < page.bottom
  bottom : page.bottom ≤ page.bufferHeight

variable {screen : Screen}

theorem get_valid (valid : screen.Valid) (pageNumber : Int) : (screen.get pageNumber).Valid := by
  obtain ⟨left, columns, right, top, rows, bottom⟩ := valid
  rw [Screen.get]
  split
  · exact ⟨by dsimp only; omega, top, rows, bottom⟩
  split
  · exact ⟨by dsimp only; omega, top, rows, bottom⟩
  refine ⟨?_, Int.le_refl 0, ?_, Int.le_refl _⟩
  · simp only [Rect.width]
    omega
  · simp only [Rect.height]
    omega

theorem get_same (same : (screen.get first).number = (screen.get second).number) : screen.get first = screen.get second := by
  revert same
  simp only [Screen.get]
  split
  · exact fun _ => rfl
  split <;> split
  · exact fun _ => rfl
  · rename_i other
    exact fun same => absurd same.symm other
  · rename_i other _
    exact fun same => absurd same other
  · intro same
    simp only at same
    rw [same]

-- _scrollMargins, as it was set.
structure Margins where
  left : Int
  top : Int
  right : Int
  bottom : Int
deriving DecidableEq, Repr

namespace Margins

structure Valid (margins : Margins) : Prop where
  left : 0 ≤ margins.left
  top : 0 ≤ margins.top

-- The margins relative to the page, and _scrollMargins as it is reset on the way.
def getVerticalMargins (margins : Margins) (page : Page) : Margins × Int × Int :=
  let bottommostRow := page.height - 1
  let margins := if margins.top ≥ bottommostRow then { margins with top := 0, bottom := 0 } else margins
  let marginsSet := margins.top < margins.bottom
  (margins, if marginsSet then margins.top else 0, min (if marginsSet then margins.bottom else bottommostRow) bottommostRow)

def getHorizontalMargins (margins : Margins) (pageWidth : Int) : Margins × Int × Int :=
  let rightmostColumn := pageWidth - 1
  let margins := if margins.left ≥ rightmostColumn then { margins with left := 0, right := 0 } else margins
  let marginsSet := margins.left < margins.right
  (margins, if marginsSet then margins.left else 0, min (if marginsSet then margins.right else rightmostColumn) rightmostColumn)

end Margins

structure Bounds where
  xOffset : Int
  yOffset : Int
  xMaximum : Int
  yMaximum : Int
deriving DecidableEq, Repr

def rectBounds (margins : Margins) (originMode : Bool) (page : Page) : Margins × Bounds :=
  let vertical := margins.getVerticalMargins page
  let horizontal := vertical.1.getHorizontalMargins page.width
  (horizontal.1,
    { yOffset := if originMode then vertical.2.1 else 0
      yMaximum := if originMode then vertical.2.2 + 1 else page.height
      xOffset := if originMode then horizontal.2.1 else 0
      xMaximum := if originMode then horizontal.2.2 + 1 else page.width })

def Bounds.rectArea (bounds : Bounds) (page : Page) (top left bottom right : Int) : Rect :=
  let fillLeft := min (left + bounds.xOffset) bounds.xMaximum - 1
  let fillRight := min (if right ≠ 0 then right + bounds.xOffset else bounds.xMaximum) bounds.xMaximum - 1
  let fillTop := min (top + bounds.yOffset) bounds.yMaximum - 1
  let fillBottom := min (if bottom ≠ 0 then bottom + bounds.yOffset else bounds.yMaximum) bounds.yMaximum - 1
  ⟨fillLeft, fillTop + page.top, fillRight + 1, fillBottom + page.top + 1⟩

def calculateRectArea (margins : Margins) (originMode : Bool) (page : Page) (top left bottom right : Int) : Margins × Rect :=
  let bounded := rectBounds margins originMode page
  (bounded.1, bounded.2.rectArea page top left bottom right)

structure Bounds.Within (bounds : Bounds) (page : Page) : Prop where
  xOffset : 0 ≤ bounds.xOffset
  columns : bounds.xOffset < bounds.xMaximum
  xMaximum : bounds.xMaximum ≤ page.width
  yOffset : 0 ≤ bounds.yOffset
  rows : bounds.yOffset < bounds.yMaximum
  yMaximum : bounds.yMaximum ≤ page.height

variable {margins : Margins} {page : Page}

theorem vertical_margins (valid : margins.Valid) (high : 0 < page.height) :
    (margins.getVerticalMargins page).1.Valid ∧ 0 ≤ (margins.getVerticalMargins page).2.1 ∧
      (margins.getVerticalMargins page).2.1 ≤ (margins.getVerticalMargins page).2.2 ∧
      (margins.getVerticalMargins page).2.2 < page.height := by
  obtain ⟨left, top⟩ := valid
  simp only [Margins.getVerticalMargins]
  by_cases reset : margins.top ≥ page.height - 1
  · rw [if_pos reset]
    exact ⟨⟨left, Int.le_refl 0⟩, by simp; omega⟩
  · rw [if_neg reset]
    refine ⟨⟨left, top⟩, ?_⟩
    split <;> omega

theorem horizontal_margins (valid : margins.Valid) (wide : 0 < pageWidth) :
    (margins.getHorizontalMargins pageWidth).1.Valid ∧ 0 ≤ (margins.getHorizontalMargins pageWidth).2.1 ∧
      (margins.getHorizontalMargins pageWidth).2.1 ≤ (margins.getHorizontalMargins pageWidth).2.2 ∧
      (margins.getHorizontalMargins pageWidth).2.2 < pageWidth := by
  obtain ⟨left, top⟩ := valid
  simp only [Margins.getHorizontalMargins]
  by_cases reset : margins.left ≥ pageWidth - 1
  · rw [if_pos reset]
    exact ⟨⟨Int.le_refl 0, top⟩, by simp; omega⟩
  · rw [if_neg reset]
    refine ⟨⟨left, top⟩, ?_⟩
    split <;> omega

theorem rect_bounds_within (valid : margins.Valid) (originMode : Bool) (validPage : page.Valid) :
    (rectBounds margins originMode page).1.Valid ∧ (rectBounds margins originMode page).2.Within page := by
  have high : 0 < page.height := by
    have rows := validPage.rows
    rw [Page.height]
    omega
  obtain ⟨validVertical, top, rows, bottom⟩ := vertical_margins valid high
  obtain ⟨validHorizontal, left, columns, right⟩ := horizontal_margins validVertical validPage.wide
  refine ⟨validHorizontal, ?_⟩
  simp only [rectBounds]
  cases originMode with
  | true => constructor <;> simp only [if_true] <;> omega
  | false => constructor <;> simp <;> omega

theorem rect_bounds_again (margins : Margins) (originMode : Bool) (page : Page) :
    rectBounds (rectBounds margins originMode page).1 originMode page = rectBounds margins originMode page := by
  obtain ⟨left, top, right, bottom⟩ := margins
  simp only [rectBounds, Margins.getVerticalMargins, Margins.getHorizontalMargins]
  by_cases vertical : top ≥ page.height - 1 <;> by_cases horizontal : left ≥ page.width - 1 <;> simp [vertical, horizontal]

end Cogterm.VirtualTerminal
