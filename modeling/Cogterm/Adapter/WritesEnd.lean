import Cogterm.Adapter.WriteToBuffer
import Cogterm.Row.System

namespace Cogterm.VirtualTerminal

open Buffer Library Cogterm.Types Writing Option WriteHelper TextBuffer

theorem spared_next (env : Environment) (settings : OutputSettings) {w next : Writing}
    (taken : w.writeStep env settings = .again next) (spared : w.Spared env settings) : next.Spared env settings := by
  intro count reached isReached
  exact spared (count + 1) reached (by rw [afterRounds, taken]; exact isReached)

def narrowPage : Page := ⟨1, 0, 4, 1, 4⟩

def narrowSettings : OutputSettings := ⟨true, false, false, ⟨0, 0, 0, 1⟩⟩

def narrowBuffer (y : Int) : TextBuffer :=
  let buffer := TextBuffer.construct 1 4 {}
  { buffer.setRow 3 { buffer.getRow 3 with lineRendition := .doubleWidth } with cursor := ⟨⟨0, y⟩, some ⟨0, y⟩⟩ }

theorem narrow_buffer_size : (narrowBuffer y).HasSize 1 4 := by
  have blank : (TextBuffer.construct 1 4 {}).HasSize 1 4 := ⟨rfl, rfl, by decide, fun _ => rfl, rfl⟩
  have set := set_row_size blank 3 { (TextBuffer.construct 1 4 {}).getRow 3 with lineRendition := .doubleWidth } rfl
  exact { set with }

theorem replace_nothing (env : Environment) {row : Row TextAttribute} {state : RowWriteState} (first : state.columnBegin = -1)
    (limit : state.columnLimit = 0) :
    (row.replace env attributes state).2 = some { state with columnEnd := 0, columnBeginDirty := 0, columnEndDirty := 0 } := by
  have isFirst : row.clampedColumnInclusive (-1) = 0 := by
    rw [Row.clampedColumnInclusive, clamp]
    split <;> omega
  have isLimit : row.clampedColumnInclusive 0 = 0 := clamped_between (by omega)
  have nothing : (start row state.columnBegin state.columnLimit state.text).isValid = false := by
    simp [isValid, start, limit, isLimit]
  rw [Row.replace, Row.replaceText, nothing]
  simp [Row.replaceAttributes, start, first, isFirst, Til.Rle.replaceValue, Til.Rle.checkIndices]

structure Stuck (w : Writing) : Prop where
  size : w.buffer.HasSize 1 4
  page : w.page = narrowPage
  blocked : w.Blocked narrowSettings
  position : w.buffer.cursor.position = w.cursorPosition
  row : 2 ≤ w.cursorPosition.y
  double : (w.buffer.getRow 3).lineRendition = .doubleWidth
  text : w.state.text = [0x62]

theorem stuck_feeds (env : Environment) {buffer : TextBuffer} (size : buffer.HasSize 1 4) (row : 2 ≤ buffer.cursor.position.y)
    (double : (buffer.getRow 3).lineRendition = .doubleWidth) :
    ∃ next, doLineFeed env narrowSettings narrowPage true true buffer = some (next, false) ∧ next.HasSize 1 4 ∧
      next.cursor.position = ⟨-1, 3⟩ ∧ (next.getRow 3).lineRendition = .doubleWidth := by
  have bottomRow : bottomMargin narrowSettings narrowPage = 1 := by decide
  have below : ¬ (buffer.cursor.position.y = bottomMargin narrowSettings narrowPage) := by omega
  obtain ⟨next, fed⟩ : ∃ next, doLineFeed env narrowSettings narrowPage true true buffer = some (next, false) := by
    rw [doLineFeed, if_pos (.inl below)]
    exact ⟨_, rfl⟩
  have fit := margins_fit narrowSettings ⟨by decide, by decide⟩ narrowPage ⟨by decide, by decide, by decide, by decide⟩
  obtain ⟨nextSize, ⟨_, _, renditions, isRow, isColumn⟩ | ⟨_, lowest, _⟩⟩ := line_feed_cases narrowSettings
    ⟨by decide, by decide, by decide, by decide⟩ fit rfl size fed
  · have isThree : next.cursor.position.y = 3 := by
      rw [isRow, show narrowPage.bottom = 4 from rfl]
      omega
    have narrow : next.getLineWidth 3 = 0 := by
      rw [getLineWidth, isDoubleWidthLine, renditions, double, nextSize.wide]
      rfl
    have zero : returnColumn narrowSettings narrowPage buffer.cursor.position = 0 := by rw [returnColumn, if_neg (by omega)]
    refine ⟨next, fed, nextSize, ?_, (renditions 3).trans double⟩
    rw [isThree, narrow, zero] at isColumn
    generalize next.cursor.position = fedTo at *
    obtain ⟨x, y⟩ := fedTo
    cases isColumn
    cases isThree
    rfl
  · exact absurd lowest below

theorem stuck_goes_on (w : Writing) (stuck : Stuck w) :
    ∃ next, w.writeStep graphemeEnvironment narrowSettings = .again next ∧ Stuck next := by
  obtain ⟨size, isPage, ⟨_, delayed⟩, position, row, double, text⟩ := stuck
  have reset : ({ w.buffer with cursor := { w.buffer.cursor with delayedAt := none } } : TextBuffer).HasSize 1 4 :=
    { size with }
  obtain ⟨fed, isFed, fedSize, fedPosition, fedDouble⟩ :=
    stuck_feeds graphemeEnvironment reset (by rw [← position] at row; exact row) double
  have limit : clippedLineWidth narrowSettings narrowPage fed 3 = 0 := by
    rw [clippedLineWidth, getLineWidth, isDoubleWidthLine, fedDouble, fedSize.wide]
    rfl
  have line : w.wrapLine graphemeEnvironment narrowSettings =
    some ⟨fed, narrowPage, ⟨-1, 3⟩, { w.state with columnLimit := 0 }⟩ := by
    rw [wrapLine, delayed]
    simp only [narrowSettings, if_true]
    rw [nextLine, isPage]
    simp only [narrowSettings] at isFed
    rw [isFed]
    simp only [map_some, Bool.false_eq_true, if_false, fedPosition]
    simp only [narrowSettings] at limit
    rw [limit]
  -- No column is left of the row, and so none is written.
  obtain ⟨changed, isChanged⟩ : ∃ changed, fed.replace graphemeEnvironment 3 fed.currentAttributes
      { w.state with columnBegin := -1, columnLimit := 0 } = (changed, some
        { w.state with columnBegin := -1, columnLimit := 0, columnEnd := 0, columnBeginDirty := 0, columnEndDirty := 0 }) :=
    ⟨_, Prod.ext rfl (replace_nothing graphemeEnvironment rfl rfl)⟩
  obtain ⟨_, changedSize, _, renditions⟩ := replace_size graphemeEnvironment fedSize
    (by rw [text]; exact List.cons_ne_nil _ _) ⟨Int.le_refl 0, (by decide : (0 : Int) ≤ 1)⟩ isChanged
  have written : writeText graphemeEnvironment narrowSettings
    ⟨fed, narrowPage, ⟨-1, 3⟩, { w.state with columnLimit := 0 }⟩ = some ⟨changed, narrowPage, ⟨-1, 3⟩,
        { w.state with columnBegin := -1, columnLimit := 0, columnEnd := 0, columnBeginDirty := 0, columnEndDirty := 0 }⟩ := by
    rw [writeText]
    simp [narrowSettings, isChanged]
  refine ⟨_, by rw [writeStep, text, if_neg (by decide), line, bind_some, written], ?_⟩
  rw [moveCursor, if_pos (Int.le_refl 0)]
  refine ⟨{ changedSize with }, rfl, ⟨rfl, rfl⟩, rfl,
    (by decide : (2 : Int) ≤ 3), (renditions 3).trans fedDouble, ?_⟩
  rw [discardGlyph, if_neg (by simp [narrowSettings])]
  exact text

end Cogterm.VirtualTerminal
