import Cogterm.Adapter.LineFeed
import Cogterm.Library.Copies
import Cogterm.TextBuffer.ScrollRows
import Cogterm.TextBuffer.Sizes

namespace Cogterm.VirtualTerminal

open Buffer Cogterm.Types Library Viewport Function Prod

variable {Attr : Type} [Inhabited Attr]

-- The rows of the buffer of every page, by the number of the page.
abbrev Lines (Attr : Type) := Int → Int → Line Attr

namespace Lines

def cell (lines : Lines Attr) (place : Int × Int × Nat) : OutputCellView Attr := (lines place.1 place.2.1).cellView place.2.2

def InBuffer (page : Page) (pos : Point) : Prop :=
  0 ≤ pos.x ∧ pos.x < page.width ∧ 0 ≤ pos.y ∧ pos.y < page.bufferHeight

instance (page : Page) (pos : Point) : Decidable (InBuffer page pos) :=
  inferInstanceAs (Decidable (_ ∧ _ ∧ _ ∧ _))

-- GetCellDataAt, which throws outside the buffer.
@[irreducible]
def getCellDataAt (lines : Lines Attr) (page : Page) (pos : Point) : Option (OutputCellView Attr) :=
  if InBuffer page pos then some (lines.cell (page.number, pos.y, pos.x.toNat)) else none

def getLineWidth (lines : Lines Attr) (page : Page) (y : Int) : Int :=
  if (lines page.number y).lineRendition = .singleWidth then page.width else page.width / 2

def writeLine (lines : Lines Attr) (page : Page) (pos : Point) (cell : OutputCellView Attr) : Lines Attr :=
  if InBuffer page pos then
    update lines page.number (update (lines page.number) pos.y ((lines page.number pos.y).writeCell pos.x.toNat cell))
  else lines

-- The text of a row has to be short enough for its offsets.
def fits (lines : Lines Attr) (page : Page) (y : Int) : Bool :=
  decide ((Glyphs.text (lines page.number y).glyphs).length ≤ charOffsetsMask)

end Lines

structure CopyState (Attr : Type) where
  lines : Lines Attr
  next : OutputCellView Attr
  srcPos : Point
  dstPos : Point
  reads : List Point
  fits : Bool

-- One iteration, and whether there is another one. There is no answer if a read throws.
def copyStep (src dst : Page) (srcView dstView : Viewport) (walkDirection : Int) (state : CopyState Attr) :
    CopyState Attr × Option Bool :=
  let current := state.next
  let currentSrcPos := state.srcPos
  let srcPos := (srcView.walkInBounds state.srcPos walkDirection).1
  let reads := state.reads ++ [srcPos]
  match state.lines.getCellDataAt src srcPos with
  | none => ({ state with reads := reads }, none)
  | some next =>
    let lines :=
      if currentSrcPos.x < state.lines.getLineWidth src currentSrcPos.y then state.lines.writeLine dst state.dstPos current
      else state.lines
    let moved := dstView.walkInBounds state.dstPos walkDirection
    (⟨lines, next, srcPos, moved.1, reads, state.fits && lines.fits dst state.dstPos.y⟩, some moved.2)

-- The second component says whether the loop came to its end.
def copyLoop (src dst : Page) (srcView dstView : Viewport) (walkDirection : Int) :
    Nat → CopyState Attr → CopyState Attr × Bool
  | 0, state => (state, false)
  | fuel + 1, state =>
    match copyStep src dst srcView dstView walkDirection state with
    | (state, none) => (state, false)
    | (state, some true) => copyLoop src dst srcView dstView walkDirection fuel state
    | (state, some false) => (state, true)

structure Request where
  top : Int
  left : Int
  bottom : Int
  right : Int
  page : Int
  dstTop : Int
  dstLeft : Int
  dstPage : Int
deriving DecidableEq, Repr

structure Request.Valid (request : Request) : Prop where
  top : 1 ≤ request.top
  left : 1 ≤ request.left
  bottom : 0 ≤ request.bottom
  right : 0 ≤ request.right
  dstTop : 1 ≤ request.dstTop
  dstLeft : 1 ≤ request.dstLeft

structure CopyResult (Attr : Type) where
  lines : Lines Attr
  reads : List Point
  returned : Bool
  -- whether the rows that were written had offsets for their text, at each write
  fits : Bool

-- The part of CopyRectangularArea under the condition that there is something to copy.
def copyViews (lines : Lines Attr) (src dst : Page) (srcView dstView : Viewport) : CopyResult Attr :=
  let walkDirection := determineWalkDirection srcView dstView
  let srcPos := srcView.getWalkOrigin walkDirection
  let dstPos := dstView.getWalkOrigin walkDirection
  match lines.getCellDataAt src srcPos with
  | none => ⟨lines, [srcPos], false, true⟩
  | some next =>
    let copied := copyLoop src dst srcView dstView walkDirection dstView.count ⟨lines, next, srcPos, dstPos, [srcPos], true⟩
    ⟨copied.1.lines, copied.1.reads, copied.2, copied.1.fits⟩

def copyRectangularArea (screen : Screen) (margins : Margins) (originMode : Bool) (lines : Lines Attr) (request : Request) :
    CopyResult Attr :=
  let src := screen.get request.page
  let dst := screen.get request.dstPage
  let srcArea := calculateRectArea margins originMode src request.top request.left request.bottom request.right
  let srcRect := srcArea.2
  let dstBottom := request.dstTop + srcRect.height - 1
  let dstRight := request.dstLeft + srcRect.width - 1
  let dstRect := (calculateRectArea srcArea.1 originMode dst request.dstTop request.dstLeft dstBottom dstRight).2
  if dstRect.filled ∧ (dstRect.origin ≠ srcRect.origin ∨ src.number ≠ dst.number) then
    copyViews lines src dst (fromDimensions srcRect.origin dstRect.width dstRect.height)
      (fromDimensions dstRect.origin dstRect.width dstRect.height)
  else ⟨lines, [], true, true⟩

def PlainPage (page : Page) (lines : Lines Attr) : Prop :=
  ∀ y, 0 ≤ y → y < page.bufferHeight → (lines page.number y).Plain page.width.toNat

def Lines.Plain (screen : Screen) (lines : Lines Attr) : Prop := ∀ pageNumber, PlainPage (screen.get pageNumber) lines

variable {page other : Page}

section

variable (src dst : Page) (srcView dstView : Viewport) (lines : Lines Attr)

def InsideBuffer (page : Page) (view : Viewport) : Prop :=
  0 ≤ view.left ∧ view.right < page.width ∧ 0 ≤ view.top ∧ view.bottom < page.bufferHeight

theorem inside_buffer (inside : InsideBuffer page view) (pos : Point) (contains : view.Contains pos) :
    Lines.InBuffer page pos := by
  obtain ⟨left, right, top, bottom⟩ := inside
  obtain ⟨fromLeft, toRight, fromTop, toBottom⟩ := contains
  exact ⟨by omega, by omega, by omega, by omega⟩

def placeOf (page : Page) (pos : Point) : Int × Int × Nat := (page.number, pos.y, pos.x.toNat)

variable {pos : Point}

omit [Inhabited Attr] in
theorem write_line_row (inside : Lines.InBuffer page pos) (cell : OutputCellView Attr) (number y : Int) :
    lines.writeLine page pos cell number y =
      if number = page.number ∧ y = pos.y then (lines page.number pos.y).writeCell pos.x.toNat cell else lines number y := by
  rw [Lines.writeLine, if_pos inside]
  by_cases sameNumber : number = page.number
  · simp [sameNumber, update_apply]
  · rw [update_of_ne sameNumber, if_neg (fun both => sameNumber both.1)]

-- Lines.writeLine is what TextBuffer's does to the rows, as long as their text is short.
omit [Inhabited Attr] in
theorem write_line_shows {env : Environment} {buffer : TextBuffer} {lines : Lines TextAttribute}
    {cell : OutputCellView TextAttribute}
    {width height : Nat} (plenty : ∀ size, size ≤ 0xFFFF → (env.heap.allocate size).isSome) (narrow : width ≤ 0xFFFD)
    (size : buffer.HasSize width height) (isWidth : page.width = width) (isHeight : page.bufferHeight = height)
    (shows : ∀ y : Int, 0 ≤ y → y < height → (buffer.getRow y).Shows (lines page.number y))
    (inside : Lines.InBuffer page pos)
    (stored : cell.textAttrBehavior = .stored) (fits : (lines.writeLine page pos cell).fits page pos.y = true) :
    ∃ changed, buffer.writeLine env cell pos = some changed ∧
      ∀ y : Int, 0 ≤ y → y < height → (changed.getRow y).Shows (lines.writeLine page pos cell page.number y) := by
  have row := write_line_row lines inside cell page.number
  obtain ⟨left, right, top, bottom⟩ := inside
  have count : (buffer.getRow pos.y).columnCount = width := size.rows _
  have isColumn : (pos.x.toNat : Int) = pos.x := Int.toNat_of_nonneg left
  rw [Lines.fits, row, if_pos ⟨rfl, rfl⟩, decide_eq_true_eq] at fits
  obtain ⟨changed, it, written, changedShows⟩ := write_cells_single env plenty (shows pos.y top (by omega)) (by omega)
    (show pos.x.toNat < (buffer.getRow pos.y).columnCount by omega) cell fits stored
  rw [isColumn] at written
  have bounds : buffer.IsInBounds pos := ⟨left, by rw [size.wide]; omega, top, by rw [size.high]; omega⟩
  refine ⟨buffer.setRow pos.y changed, by simp [TextBuffer.writeLine, if_pos bounds, written], fun y low high => ?_⟩
  rw [get_row_set, row]
  by_cases same : y = pos.y
  · rw [same, if_pos rfl, if_pos ⟨rfl, rfl⟩]
    exact changedShows
  · have apart := mt (storage_index_injective low (by rw [size.high]; exact high) top (by rw [size.high]; omega)) same
    rw [if_neg apart, if_neg (fun both => same both.2)]
    exact shows y low high

theorem write_line_cell (plain : PlainPage page lines) (inside : Lines.InBuffer page pos)
    (narrow : cell.Narrow) : (lines.writeLine page pos cell).cell = update lines.cell (placeOf page pos) cell := by
  funext place
  obtain ⟨number, y, x⟩ := place
  have row := write_line_row lines inside cell number y
  obtain ⟨left, right, top, bottom⟩ := inside
  simp only [Lines.cell, row, update_apply, placeOf, Prod.mk.injEq]
  by_cases here : number = page.number ∧ y = pos.y
  · rw [if_pos here, plain_write_view (plain pos.y top bottom) (by omega) narrow]
    simp [here]
  · rw [if_neg here, if_neg (fun all => here ⟨all.1, all.2.1⟩)]

omit [Inhabited Attr] in
theorem write_line_plain (plain : PlainPage page lines) (plainOther : PlainPage other lines)
    (same : page.number = other.number → page = other) (inside : Lines.InBuffer page pos)
    (narrow : cell.Narrow) : PlainPage other (lines.writeLine page pos cell) := by
  intro y top bottom
  rw [write_line_row lines inside cell]
  by_cases here : other.number = page.number ∧ y = pos.y
  · rw [if_pos here, ← same here.1.symm]
    exact plain_write (plain pos.y inside.2.2.1 inside.2.2.2) (by have right := inside.2.1; have left := inside.1; omega)
      narrow
  · rw [if_neg here]
    exact plainOther y top bottom

theorem read_cell (plain : PlainPage page lines) (inside : Lines.InBuffer page pos) :
    lines.getCellDataAt page pos = some (lines.cell (placeOf page pos)) ∧ (lines.cell (placeOf page pos)).Narrow ∧
      lines.getLineWidth page pos.y = page.width := by
  have row := plain pos.y inside.2.2.1 inside.2.2.2
  refine ⟨by rw [Lines.getCellDataAt, if_pos inside, placeOf], plain_view row ?_, if_pos row.lineRendition⟩
  obtain ⟨left, right, _, _⟩ := inside
  dsimp only [placeOf]
  omega

end

section

variable (src dst : Page) (same : src.number = dst.number → src = dst) (srcView dstView : Viewport) (filled : srcView.Filled)
  (filledTarget : dstView.Filled) (sameCount : dstView.count = srcView.count) (insideSrc : InsideBuffer src srcView)
  (insideDst : InsideBuffer dst dstView) (delta : Int) (direction : delta = 1 ∨ delta = -1) (initial : Lines Attr)

structure CopiedUpTo (count : Nat) (state : CopyState Attr) : Prop where
  plainSrc : PlainPage src state.lines
  plainDst : PlainPage dst state.lines
  cells : (state.lines.cell, state.next) =
    copyAhead (fun step => placeOf src (srcView.walked delta step)) (fun step => placeOf dst (dstView.walked delta step))
      initial.cell count
  srcPos : state.srcPos = srcView.walked delta count
  dstPos : state.dstPos = dstView.walked delta count
  narrow : state.next.Narrow
  reads : ∀ pos ∈ state.reads, srcView.Contains pos

include same filled filledTarget sameCount insideSrc insideDst direction

theorem copy_loop_runs (fuel count : Nat) (left : count + fuel = srcView.count) (remains : 0 < fuel) (state : CopyState Attr)
    (copied : CopiedUpTo src dst srcView dstView delta initial count state) :
    ∃ final, copyLoop src dst srcView dstView delta fuel state = (final, true) ∧
      CopiedUpTo src dst srcView dstView delta initial srcView.count final := by
  induction fuel generalizing count state with
  | zero => cases remains
  | succ fuel ih =>
    have walkedSrc := walk_step srcView filled delta direction count (by omega)
    have walkedDst := walk_step dstView filledTarget delta direction count (by omega)
    have containsSrc := walked_inside srcView filled delta count
    have containsNext := walked_inside srcView filled delta (count + 1)
    have inSrc := inside_buffer insideSrc _ containsSrc
    have inNext := inside_buffer insideSrc _ containsNext
    have inDst := inside_buffer insideDst _ (walked_inside dstView filledTarget delta count)
    obtain ⟨_, _, lineWidth⟩ := read_cell state.lines copied.plainSrc inSrc
    obtain ⟨isNext, narrowNext, _⟩ := read_cell state.lines copied.plainSrc inNext
    obtain ⟨next, isState⟩ :
      ∃ next : CopyState Attr, next = ⟨state.lines.writeLine dst (dstView.walked delta count) state.next,
        state.lines.cell (placeOf src (srcView.walked delta (count + 1))), srcView.walked delta (count + 1),
        dstView.walked delta (count + 1), state.reads ++ [srcView.walked delta (count + 1)], state.fits &&
          (state.lines.writeLine dst (dstView.walked delta count) state.next).fits dst (dstView.walked delta count).y⟩ :=
          ⟨_, rfl⟩
    have step : copyStep src dst srcView dstView delta state = (next, some (decide (count + 1 < dstView.count))) := by
      rw [copyStep, copied.srcPos, copied.dstPos, walkedSrc, walkedDst, isState]
      simp [isNext, lineWidth, if_pos inSrc.2.1]
    have advanced : CopiedUpTo src dst srcView dstView delta initial (count + 1) next := by
      have cells := congrArg fst copied.cells
      have read := congrArg snd copied.cells
      rw [isState]
      refine ⟨write_line_plain _ copied.plainDst copied.plainSrc (fun eq => (same eq.symm).symm) inDst copied.narrow,
        write_line_plain _ copied.plainDst copied.plainDst (fun _ => rfl) inDst copied.narrow, ?_, rfl, rfl,
        narrowNext, ?_⟩
      · rw [copyAhead, ← cells, ← read]
        exact Prod.ext (write_line_cell _ copied.plainDst inDst copied.narrow) rfl
      · intro pos member
        rcases List.mem_append.mp member with old | new
        · exact copied.reads pos old
        · rw [List.mem_singleton.mp new]
          exact containsNext
    rw [copyLoop, step]
    by_cases more : count + 1 < dstView.count
    · rw [decide_eq_true more]
      exact ih (count + 1) (by omega) (by omega) next advanced
    · have ended : count + 1 = srcView.count := by omega
      rw [decide_eq_false more]
      exact ⟨next, rfl, by rw [← ended]; exact advanced⟩

end

theorem place_injective (insideFirst : Lines.InBuffer page first)
    (insideSecond : Lines.InBuffer other second) (same : placeOf page first = placeOf other second) : first = second := by
  obtain ⟨left, _, _, _⟩ := insideFirst
  obtain ⟨left', _, _, _⟩ := insideSecond
  cases first
  cases second
  simp only [placeOf, Prod.mk.injEq] at same left left'
  simp only [Point.mk.injEq]
  omega

def shiftBack (srcView dstView : Viewport) (pos : Point) : Point :=
  ⟨pos.x - dstView.left + srcView.left, pos.y - dstView.top + srcView.top⟩

theorem walked_shift (sameWidth : dstView.width = srcView.width) (sameCount : dstView.count = srcView.count) :
    shiftBack srcView dstView (dstView.walked delta step) = srcView.walked delta step := by
  simp only [shiftBack, walked, position, sameWidth, sameCount, Point.mk.injEq]
  omega

structure CopiesView (src dst : Page) (srcView dstView : Viewport) (lines : Lines Attr) (result : CopyResult Attr) : Prop where
  returned : result.returned = true
  reads : ∀ pos ∈ result.reads, srcView.Contains pos
  copies : ∀ pos, dstView.Contains pos →
    result.lines.cell (placeOf dst pos) = lines.cell (placeOf src (shiftBack srcView dstView pos))
  keeps : ∀ place, (∀ pos, dstView.Contains pos → place ≠ placeOf dst pos) → result.lines.cell place = lines.cell place

structure Fits (src dst : Page) (srcView dstView : Viewport) : Prop where
  filledSrc : srcView.Filled
  filledDst : dstView.Filled
  sameWidth : dstView.width = srcView.width
  sameHeight : dstView.height = srcView.height
  insideSrc : InsideBuffer src srcView
  insideDst : InsideBuffer dst dstView
  apart : dstView.origin ≠ srcView.origin ∨ src.number ≠ dst.number

theorem copy_views_copies (same : src.number = dst.number → src = dst)
    (fits : Fits src dst srcView dstView) {lines : Lines Attr} (plainSrc : PlainPage src lines) (plainDst : PlainPage dst lines) :
    CopiesView src dst srcView dstView lines (copyViews lines src dst srcView dstView) := by
  obtain ⟨filled, filledTarget, sameWidth, sameHeight, insideSrc, insideDst, apart⟩ := fits
  have sameCount : dstView.count = srcView.count := by simp [count, sameWidth, sameHeight]
  have direction : determineWalkDirection srcView dstView = 1 ∨ determineWalkDirection srcView dstView = -1 := by
    rw [determineWalkDirection]
    split
    · exact .inl rfl
    · exact .inr rfl
  have positive := (view_count srcView filled).2
  have order : ∀ first second, first < second → second < srcView.count →
      placeOf src (srcView.walked (determineWalkDirection srcView dstView) second) ≠
        placeOf dst (dstView.walked (determineWalkDirection srcView dstView) first) := by
    intro first second less inside meets
    rcases apart with origins | numbers
    · exact walks_ordered filled sameWidth sameHeight origins less inside
        (place_injective (inside_buffer insideSrc _ (walked_inside srcView filled _ second))
          (inside_buffer insideDst _ (walked_inside dstView filledTarget _ first)) meets)
    · exact numbers (congrArg fst meets)
  have originSrc := walk_origin srcView filled _ direction
  have originDst := walk_origin dstView filledTarget _ direction
  rw [copyViews]
  generalize determineWalkDirection srcView dstView = delta at *
  have contains := walked_inside srcView filled delta 0
  obtain ⟨read, narrow, _⟩ := read_cell lines plainSrc (inside_buffer insideSrc _ contains)
  have distinct : ∀ first second, first < second → second < srcView.count →
      placeOf dst (dstView.walked delta second) ≠ placeOf dst (dstView.walked delta first) := by
    intro first second less inside meets
    exact walked_distinct dstView delta less (by omega)
      (place_injective (inside_buffer insideDst _ (walked_inside dstView filledTarget delta second))
        (inside_buffer insideDst _ (walked_inside dstView filledTarget delta first)) meets)
  obtain ⟨final, looped, copied⟩ :=
    copy_loop_runs src dst same srcView dstView filled filledTarget sameCount insideSrc insideDst
    delta direction lines dstView.count 0 (by omega) (by omega)
    ⟨lines, lines.cell (placeOf src (srcView.walked delta 0)), srcView.walked delta 0, dstView.walked delta 0,
      [srcView.walked delta 0], true⟩
    ⟨plainSrc, plainDst, rfl, rfl, rfl, narrow, by
      intro pos member
      rw [List.mem_singleton.mp member]
      exact contains⟩
  simp only [originSrc, originDst, read, looped]
  have cells := congrArg fst copied.cells
  simp only at cells
  refine ⟨rfl, copied.reads, ?_, ?_⟩
  · intro pos inside
    obtain ⟨step, bounded, isPos⟩ := walked_covers dstView filledTarget delta inside
    rw [← isPos, walked_shift sameWidth sameCount, cells]
    exact copy_ahead_copies _ lines.cell order distinct (Nat.le_refl _) (by omega)
  · intro place untouched
    rw [cells]
    exact copy_ahead_frame _ lines.cell (fun step _ => untouched _ (walked_inside dstView filledTarget delta step))

end Cogterm.VirtualTerminal
