import Cogterm.Adapter.LineFeed
import Cogterm.TextBuffer.Sizes

namespace Cogterm.Buffer

open Cogterm.Types Option TextBuffer

variable {buffer changed : TextBuffer}

section

variable {env : Environment} {width height : Nat}

theorem write_line_size (size : buffer.HasSize width height)
    (written : buffer.writeLine env cell target = some changed) : changed.HasSize width height := by
  rw [writeLine] at written
  split at written
  · obtain ⟨rest, isRest, isChanged⟩ := map_eq_some_iff.mp written
    rw [← isChanged]
    exact set_row_size size target.y _ ((write_cells_count env isRest).trans (size.rows _))
  · cases written
    exact size

theorem fill_row_size (size : buffer.HasSize width height)
    (filled : fillRow env left right attributes y buffer = some changed) : changed.HasSize width height := by
  have count := outcome_count (copy_text_outcome env (buffer.getRow y) (some buffer.scratchpad)
    ⟨left, right, left, coordTypeMax, 0, 0, 0, 0⟩)
  rw [fillRow] at filled
  generalize (buffer.getRow y).copyTextFrom env (some buffer.scratchpad) ⟨left, right, left, coordTypeMax, 0, 0, 0, 0⟩ =
    copied at *
  split at filled
  · cases filled
  obtain ⟨row, colored, isChanged⟩ := map_eq_some_iff.mp filled
  obtain ⟨_, _, isRow⟩ := map_eq_some_iff.mp colored
  rw [← isChanged]
  refine set_row_size size y row ?_
  rw [← isRow]
  exact count.trans (size.rows _)

theorem fill_rows_size (y : Int) (buffer : TextBuffer) (size : buffer.HasSize width height)
    (filled : fillRows env left right attributes count y buffer = some changed) : changed.HasSize width height := by
  induction count generalizing y buffer with
  | zero =>
    cases filled
    exact size
  | succ count ih =>
    obtain ⟨next, first, rest⟩ := bind_eq_some_iff.mp filled
    exact ih (y + 1) next (fill_row_size size first) rest

theorem fill_rect_size (size : buffer.HasSize width height)
    (filled : buffer.fillRect env rect attributes = some changed) : changed.HasSize width height := by
  rw [fillRect] at filled
  split at filled
  · have scratch : (buffer.getScratchpadRow attributes).HasSize width height :=
      { size with }
    exact fill_rows_size _ _ scratch filled
  · cases filled
    exact size

theorem increment_size (size : buffer.HasSize width height) (fill : TextAttribute) :
    (buffer.incrementCircularBuffer fill).HasSize width height := by
  obtain ⟨⟨watermark, map, ids, frame⟩, _⟩ := prune_hyperlinks_spec buffer
  have reset := set_row_size size 0 ((buffer.getRow 0).reset fill) (size.rows _)
  have first : (if buffer.firstRow + 1 ≥ buffer.height then 0 else buffer.firstRow + 1) < height := by
    have inside := size.first
    rw [size.high]
    split <;> omega
  rw [incrementCircularBuffer, frame]
  exact { reset with first := first }

theorem increment_last (size : buffer.HasSize width height) (fill : TextAttribute) :
    (buffer.incrementCircularBuffer fill).getRow (height - 1) = (buffer.getRow 0).reset fill := by
  obtain ⟨⟨watermark, map, ids, frame⟩, _⟩ := prune_hyperlinks_spec buffer
  have first := size.first
  have high := (increment_size size fill).high
  have firstRow : (buffer.incrementCircularBuffer fill).firstRow =
      if buffer.firstRow + 1 ≥ buffer.height then 0 else buffer.firstRow + 1 := by
    rw [incrementCircularBuffer, frame]
    rfl
  have rows : (buffer.incrementCircularBuffer fill).rows =
      Function.update buffer.rows (buffer.storageIndex 0) ((buffer.getRow 0).reset fill) := by
    rw [incrementCircularBuffer, frame]
    rfl
  have index : (buffer.incrementCircularBuffer fill).storageIndex (height - 1) = buffer.storageIndex 0 := by
    rw [storageIndex, storageIndex, firstRow, high, size.high]
    split
    · have last : (buffer.firstRow : Int) = height - 1 := by omega
      simp [last]
    · simp
  simp [getRow, rows, index]

end

end Cogterm.Buffer

namespace Cogterm.VirtualTerminal

open Buffer Cogterm.Types

variable {changed buffer : TextBuffer} {page : Page}

section

variable {env : Environment} {width height : Nat}

theorem move_cells_size {srcView dstView : Viewport} (srcPos dstPos : Point)
    (buffer : TextBuffer) (size : buffer.HasSize width height)
    (moved : moveCells env srcView dstView walkDirection fuel srcPos dstPos buffer = some changed) :
    changed.HasSize width height := by
  induction fuel generalizing srcPos dstPos buffer with
  | zero =>
    cases moved
    exact size
  | succ fuel ih =>
    obtain ⟨cell, _, read⟩ := Option.bind_eq_some_iff.mp moved
    obtain ⟨next, written, rest⟩ := Option.bind_eq_some_iff.mp read
    have sized := write_line_size size written
    split at rest
    · exact ih _ _ next sized rest
    · cases rest
      exact sized

theorem move_rows_size (size : buffer.HasSize width height)
    (moved : moveRows env page scrollRect top count actualDelta buffer = some changed) : changed.HasSize width height := by
  rw [moveRows] at moved
  split at moved
  · obtain ⟨_, _, isChanged⟩ := Option.map_eq_some_iff.mp moved
    rw [← isChanged]
    exact scroll_rows_size env size
  · exact move_cells_size _ _ buffer size moved

theorem scroll_rect_erases (one : delta.natAbs = 1)
    (rows : scrollRect.top < scrollRect.bottom) (size : buffer.HasSize width height)
    (scrolled : scrollRectVertically env eraseColor page scrollRect delta buffer = some changed) :
    changed.HasSize width height ∧
      (changed.getRow (if delta > 0 then scrollRect.top else scrollRect.bottom - 1)).lineRendition = .singleWidth := by
  have absolute : absoluteDelta scrollRect delta = 1 := by
    rw [absoluteDelta, Rect.height]
    omega
  obtain ⟨moved, isMoved, erased⟩ := Option.bind_eq_some_iff.mp scrolled
  have movedSize : moved.HasSize width height := by
    rw [moveContent] at isMoved
    split at isMoved
    · exact move_rows_size size isMoved
    · cases isMoved
      exact size
  obtain ⟨filled, isFilled, isChanged⟩ := Option.map_eq_some_iff.mp erased
  have filledSize := fill_rect_size movedSize isFilled
  rw [← isChanged]
  refine ⟨change_rows_size (fun _ row => { row with lineRendition := .singleWidth }) (fun _ _ => rfl) _ _ filled filledSize,
    ?_⟩
  simp only [TextBuffer.resetLineRenditionRange, eraseRect, absolute]
  generalize (if delta > 0 then scrollRect.top else scrollRect.bottom - 1) = y
  rw [show (y + 1 - y).toNat = 1 by omega]
  exact congrArg Row.lineRendition ((get_row_set filled y y).trans (if_pos rfl))

end

structure MarginsFit (settings : OutputSettings) (page : Page) : Prop where
  top : page.top ≤ topMargin settings page
  rows : topMargin settings page ≤ bottomMargin settings page
  bottom : bottomMargin settings page < page.bottom
  left : 0 ≤ leftMargin settings page
  columns : leftMargin settings page ≤ rightMargin settings page
  right : rightMargin settings page < page.width
  indented : 0 < leftMargin settings page → leftMargin settings page < rightMargin settings page

theorem margins_fit (settings : OutputSettings) (valid : settings.scrollMargins.Valid) (page : Page) (validPage : page.Valid) :
    MarginsFit settings page := by
  have wide := validPage.wide
  have high : 0 < page.height := by
    have rows := validPage.rows
    rw [Page.height]
    omega
  obtain ⟨_, top, rows, bottom⟩ := vertical_margins valid high
  obtain ⟨_, left, columns, right⟩ := horizontal_margins valid wide
  rw [Page.height] at bottom
  refine ⟨?_, ?_, ?_, left, columns, right, ?_⟩
  · rw [topMargin]
    omega
  · rw [topMargin, bottomMargin]
    omega
  · rw [bottomMargin]
    omega
  · rw [leftMargin, rightMargin]
    simp only [Margins.getHorizontalMargins]
    by_cases reset : settings.scrollMargins.left ≥ page.width - 1
    · simp [reset]
    · split <;> omega

theorem moved_margins (settings : OutputSettings) (page : Page) :
    topMargin settings page.moveViewportDown = topMargin settings page + 1 ∧
      bottomMargin settings page.moveViewportDown = bottomMargin settings page + 1 := by
  have height : page.moveViewportDown.height = page.height := by
    simp only [Page.height, Page.moveViewportDown]
    omega
  simp only [topMargin, bottomMargin, Margins.getVerticalMargins, height]
  simp only [Page.moveViewportDown]
  omega

variable {env : Environment} (settings : OutputSettings) {width height : Nat}

def returnColumn (page : Page) (position : Point) : Int :=
  if position.y ≥ topMargin settings page ∧ position.y ≤ bottomMargin settings page ∧
    position.x ≥ leftMargin settings page then
    leftMargin settings page
  else 0

theorem pan_viewport_row (size : buffer.HasSize width height)
    (panned : panViewport env settings page (bottomMargin settings page) buffer = some changed) :
    changed.HasSize width height ∧ (changed.getRow (bottomMargin settings page + 1)).lineRendition = .singleWidth := by
  rw [panViewport] at panned
  split at panned
  · exact scroll_rect_erases rfl (by dsimp only; omega) size panned
  · cases panned
    exact ⟨set_row_size size _ _ (size.rows _), congrArg Row.lineRendition ((get_row_set buffer _ _).trans (if_pos rfl))⟩

theorem cycle_rows_row (fit : MarginsFit settings page) (isHeight : page.bufferHeight = height)
    (lowest : ¬ page.bottom < page.bufferHeight) (inside : page.bottom ≤ page.bufferHeight)
    (size : buffer.HasSize width height) (cycled : cycleRows env settings page buffer = some changed) :
    changed.HasSize width height ∧ (changed.getRow (bottomMargin settings page)).lineRendition = .singleWidth := by
  have bottom := fit.bottom
  have incremented := increment_size size (buffer.getEraseAttributes settings.eraseColor)
  rw [cycleRows] at cycled
  split at cycled
  · exact scroll_rect_erases rfl (by dsimp only; omega) incremented cycled
  cases cycled
  refine ⟨incremented, ?_⟩
  have last : bottomMargin settings page = height - 1 := by omega
  rw [last, increment_last size]
  rfl

structure FedDown (page : Page) (buffer next : TextBuffer) : Prop where
  lower : buffer.cursor.position.y ≠ bottomMargin settings page ∨
    returnColumn settings page buffer.cursor.position < leftMargin settings page
  renditions : ∀ y, (next.getRow y).lineRendition = (buffer.getRow y).lineRendition
  row : next.cursor.position.y = min (buffer.cursor.position.y + 1) (page.bottom - 1)
  column : next.cursor.position.x =
    min (returnColumn settings page buffer.cursor.position) (next.getLineWidth next.cursor.position.y - 1)

structure FedScrolled (page nextPage : Page) (buffer next : TextBuffer) : Prop where
  lowest : buffer.cursor.position.y = bottomMargin settings page
  row : next.cursor.position.y = bottomMargin settings nextPage
  column : next.cursor.position.x = leftMargin settings page
  single : (next.getRow next.cursor.position.y).lineRendition = .singleWidth

theorem line_feed_cases (validPage : page.Valid) (fit : MarginsFit settings page) (isHeight : page.bufferHeight = height)
    (size : buffer.HasSize width height) (fed : doLineFeed env settings page true true buffer = some (next, moved)) :
    next.HasSize width height ∧ ((moved = false ∧ FedDown settings page buffer next) ∨
      ((moved = true → page.bottom < page.bufferHeight) ∧
        FedScrolled settings page (if moved then page.moveViewportDown else page) buffer next)) := by
  obtain ⟨top, rows, bottom, left, columns, right, indented⟩ := fit
  have fit : MarginsFit settings page := ⟨top, rows, bottom, left, columns, right, indented⟩
  have returned : returnColumn settings page buffer.cursor.position = leftMargin settings page ∨
      returnColumn settings page buffer.cursor.position = 0 := by
    rw [returnColumn]
    split
    · exact .inl rfl
    · exact .inr rfl
  rw [doLineFeed] at fed
  simp only [if_true] at fed
  rw [← returnColumn] at fed
  generalize isColumn : returnColumn settings page buffer.cursor.position = column at *
  have wrapped : (buffer.setRow buffer.cursor.position.y
      { buffer.getRow buffer.cursor.position.y with wrapForced := true }).HasSize width height :=
    set_row_size size _ _ (size.rows _)
  have sameRenditions : ∀ y, ((buffer.setRow buffer.cursor.position.y
      { buffer.getRow buffer.cursor.position.y with wrapForced := true }).getRow y).lineRendition =
      (buffer.getRow y).lineRendition :=
    fun y => set_row_rendition rfl
  generalize buffer.setRow buffer.cursor.position.y { buffer.getRow buffer.cursor.position.y with wrapForced := true } =
    started at *
  split at fed
  · rename_i lower
    cases fed
    refine ⟨{ wrapped with }, .inl ⟨rfl, ?_, sameRenditions, rfl, ?_⟩⟩
    · omega
    · rw [isColumn]
      rfl
  · rename_i within
    have lowest : buffer.cursor.position.y = bottomMargin settings page := by omega
    have isLeft : column = leftMargin settings page := by omega
    split at fed
    · obtain ⟨scrolled, isScrolled, isNext⟩ := Option.map_eq_some_iff.mp fed
      obtain ⟨scrolledSize, single⟩ := scroll_rect_erases rfl (by dsimp only; omega) wrapped isScrolled
      cases isNext
      refine ⟨{ scrolledSize with }, .inr ⟨Bool.noConfusion, lowest, lowest, isLeft, ?_⟩⟩
      refine Eq.trans (congrArg (fun y => (scrolled.getRow y).lineRendition) ?_) single
      simp only [Cursor.setPosition]
      omega
    · split at fed
      · rename_i room
        obtain ⟨panned, isPanned, isNext⟩ := Option.map_eq_some_iff.mp fed
        rw [lowest] at isPanned
        obtain ⟨pannedSize, single⟩ := pan_viewport_row settings wrapped isPanned
        cases isNext
        refine ⟨{ pannedSize with }, .inr ⟨fun _ => room, lowest, ?_, isLeft, ?_⟩⟩
        · rw [if_pos rfl, (moved_margins settings page).2, ← lowest]
          rfl
        · rw [← lowest] at single
          exact single
      · rename_i full
        obtain ⟨cycled, isCycled, isNext⟩ := Option.map_eq_some_iff.mp fed
        obtain ⟨cycledSize, single⟩ := cycle_rows_row settings fit isHeight full validPage.bottom wrapped isCycled
        cases isNext
        refine ⟨{ cycledSize with }, .inr ⟨Bool.noConfusion, lowest, lowest, isLeft, ?_⟩⟩
        rw [← lowest] at single
        exact single

end Cogterm.VirtualTerminal
