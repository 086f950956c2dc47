import Cogterm.TextBuffer.ReflowWindow

namespace Cogterm.Buffer

open Library Til Glyphs Option Int Nat Reflowing TextBuffer
open Unicode (WChar)

namespace TextBuffer

def fullReflow (env : Environment) (fuel : Nat) (oldBuffer : TextBuffer) (newWidth : Nat) (attributes : TextAttribute)
    (lastCharacterViewport : Option ViewRows) : Option (Option Reflowing) :=
  let newBuffer := TextBuffer.construct newWidth coordTypeMax.toNat attributes
  ((oldBuffer.startReflow newBuffer lastCharacterViewport none).reflowRows env oldBuffer.reflowCursor newBuffer.width
    newBuffer.height fuel (oldBuffer.reflowHeight lastCharacterViewport).toNat 0).map
    (fun copied => copied.map (fun reached => reached.2.freshLine))

def ShowsWindow (buffer : TextBuffer) (attributes : TextAttribute) (full : Reflowing) : Prop :=
  ∃ first : Nat,
    (∀ row : Nat, row < buffer.height →
      (first + row < full.newY → buffer.getRow row = full.newBuffer.getRow (first + row)) ∧
        (full.newY ≤ first + row → (buffer.getRow row).Blank attributes)) ∧
    buffer.cursor.position.x = full.newCursorPos.x ∧ first + buffer.cursor.position.y = full.newCursorPos.y ∧
    0 ≤ buffer.cursor.position.y ∧ buffer.cursor.position.y < buffer.height ∧ full.newCursorPos.y < full.newY

-- What the copying without a limit has to meet, row by row.
abbrev ReflowFits (env : Environment) (fuel : Nat) (oldBuffer : TextBuffer) (newWidth newHeight : Nat)
    (attributes : TextAttribute) (lastCharacterViewport : Option ViewRows) : Prop :=
  RowsFit env fuel oldBuffer newWidth coordTypeMax.toNat newHeight (oldBuffer.reflowHeight lastCharacterViewport).toNat 0
    (oldBuffer.startReflow (TextBuffer.construct newWidth coordTypeMax.toNat attributes) lastCharacterViewport none)

end TextBuffer

theorem full_row {tall width : Nat} {full : Reflowing} (unlimited : full.Unlimited tall width) (inside : row < tall) :
    full.newBuffer.getRow row = full.newBuffer.rows row := by
  rw [getRow, storage_index_start unlimited.firstRow, unlimited.height, mod_eq_of_lt inside]

theorem finish_shows {small tall width : Nat} (narrow : width ≤ charOffsetsMask) {oldBuffer : TextBuffer}
    (oldMaintained : Maintained oldBuffer) (oldY : Int) {s full : Reflowing} (sameOld : s.oldBuffer.SameRows oldBuffer)
    (covers : s.freshLine.Covers small attributes full) (unlimited : full.Unlimited tall width) (enough : full.newY ≤ tall) :
    ∃ buffer info, oldBuffer.finishReflow width small oldY s = some (buffer, info) ∧ buffer.ShowsWindow attributes full := by
  obtain ⟨reached, isReached⟩ : ∃ reached, s.freshLine = reached := ⟨_, rfl⟩
  have reachedOld : reached.oldBuffer.SameRows oldBuffer := by
    rw [← isReached, freshLine]
    split <;> exact sameOld
  rw [isReached] at covers
  obtain ⟨firstRow, height, newY, rows, blank, cursor, inside⟩ := covers
  obtain ⟨count, isCount⟩ : ∃ count, count = (min (reached.oldBuffer.estimateOffsetOfLastCommittedRow + 1 - oldY)
      ((small : Int) - reached.newY)).toNat := ⟨_, rfl⟩
  obtain ⟨last, copied, lastY, lastCursor, lastFirst, lastHeight, keeps, stays⟩ := copy_trailing_result narrow
    oldMaintained count oldY reached reachedOld firstRow height (by omega) (by omega) blank
  -- The first row shown is the one after the newest where the buffer is full.
  obtain ⟨settled, isSettled, first, isFirst, position, sameRows, sameHeight, place⟩ :
    ∃ settled, last.settleFirstRow small = settled ∧ ∃ first : Nat, settled.newBuffer.firstRow = first % small ∧
        settled.newCursorPos = ⟨last.newCursorPos.x, last.newCursorPos.y - first⟩ ∧
        settled.newBuffer.rows = last.newBuffer.rows ∧ settled.newBuffer.height = small ∧
        ((first = reached.newY - small ∧ count = 0) ∨ (first = 0 ∧ last.newY ≤ small)) := by
    refine ⟨_, rfl, ?_⟩
    rw [settleFirstRow]
    by_cases past : last.newY > small
    · have turned := cursor_remainder last.newCursorPos.y last.newY small (by rw [lastCursor]; omega) (by rw [lastCursor]; omega)
      obtain ⟨first, isFirst⟩ := eq_ofNat_of_zero_le (show 0 ≤ reached.newY - small by omega)
      rw [if_pos past]
      refine ⟨first, ?_, ?_, rfl, lastHeight, .inl ⟨isFirst.symm, by omega⟩⟩
      · show (last.newY % small).toNat = first % small
        rw [show last.newY = ((first + small : Nat) : Int) by omega, ← natCast_emod, toNat_natCast, add_mod_right]
      · show Point.mk last.newCursorPos.x ((last.newCursorPos.y - last.newY % small + small) % small) = _
        rw [turned, show last.newY - small = first by omega]
    · rw [if_neg past]
      exact ⟨0, by rw [lastFirst, zero_mod], by simp, rfl, lastHeight, .inr ⟨rfl, by omega⟩⟩
  refine ⟨{ settled.newBuffer.copyHyperlinkMaps oldBuffer with
    cursor := settled.newBuffer.cursor.setPosition settled.newCursorPos },
    settled.positionInfo, ?_, first, fun row isRow => ?_, ?_⟩
  · rw [finishReflow]
    simp only [isReached, ← isCount, copied, bind_eq_bind, bind_some, isSettled, pure_def]
    rfl
  · have isInside : row < small := sameHeight ▸ isRow
    show (_ → settled.newBuffer.rows ((settled.newBuffer.firstRow + row) % settled.newBuffer.height) = _) ∧
      (_ → (settled.newBuffer.rows ((settled.newBuffer.firstRow + row) % settled.newBuffer.height)).Blank attributes)
    rw [sameRows, sameHeight, isFirst, mod_add_mod]
    refine ⟨fun above => ?_, fun beyond => ?_⟩
    · rw [← natCast_add, full_row unlimited (by omega), ← rows _ (by omega) (by omega)]
      refine keeps _ ?_
      rcases place with ⟨_, noTrailing⟩ | ⟨start, _⟩
      · exact .inr noTrailing
      · rw [start, zero_add, mod_eq_of_lt isInside]
        exact .inl (by omega)
    · obtain ⟨start, _⟩ := place.resolve_left (by omega)
      rw [start, zero_add, mod_eq_of_lt isInside]
      exact stays row (by omega) isInside
  · show settled.newCursorPos.x = full.newCursorPos.x ∧ first + settled.newCursorPos.y = full.newCursorPos.y ∧
      0 ≤ settled.newCursorPos.y ∧ settled.newCursorPos.y < settled.newBuffer.height ∧ full.newCursorPos.y < full.newY
    rw [position, lastCursor, sameHeight, ← cursor]
    refine ⟨rfl, ?_⟩
    dsimp only
    omega

section

variable {oldBuffer : TextBuffer} (height : 0 < oldBuffer.height) (committed : oldBuffer.commitWatermark ≤ oldBuffer.height + 1)
  (lastCharacterViewport : Option ViewRows)

theorem last_non_space_le (fuel : Nat) (y : Int) (buffer : TextBuffer) : (lastNonSpaceLoop fuel y buffer).2.y ≤ y := by
  induction fuel generalizing y buffer with
  | zero => exact le_refl y
  | succ fuel ih =>
    rw [lastNonSpaceLoop]
    split
    · have found := ih (y - 1) (buffer.touchRow y)
      omega
    · exact le_refl y

include height committed in
theorem reflow_height_bounds : oldBuffer.reflowCursor.y < oldBuffer.reflowHeight lastCharacterViewport ∧
    0 ≤ oldBuffer.reflowCursor.y ∧ oldBuffer.reflowHeight lastCharacterViewport ≤ oldBuffer.height := by
  have cursor := clamp_bounds oldBuffer.cursor.position.y (oldBuffer.height - 1) (by omega)
  rw [← show oldBuffer.reflowCursor.y = clamp oldBuffer.cursor.position.y 0 (oldBuffer.height - 1) from rfl] at cursor
  have found := last_non_space_le
    (min (lastCharacterViewport.getD ⟨0, oldBuffer.height - 1⟩).bottomInclusive oldBuffer.estimateOffsetOfLastCommittedRow -
      (lastCharacterViewport.getD ⟨0, oldBuffer.height - 1⟩).top).toNat
    (min (lastCharacterViewport.getD ⟨0, oldBuffer.height - 1⟩).bottomInclusive oldBuffer.estimateOffsetOfLastCommittedRow)
      oldBuffer
  have estimate : oldBuffer.estimateOffsetOfLastCommittedRow ≤ oldBuffer.height - 1 := by
    rw [estimateOffsetOfLastCommittedRow]
    omega
  rw [reflowHeight, getLastNonSpaceCharacter]
  simp only
  omega

end

section

variable {width : Nat} (wide : 0 < width) (attributes : TextAttribute)

include wide in
theorem construct_rows (height index : Nat) :
    (TextBuffer.construct width height attributes).rows index = Row.construct width attributes := by
  rw [TextBuffer.construct]
  simp [Nat.max_eq_left wide]

include wide in
theorem construct_width (height : Nat) : (TextBuffer.construct width height attributes).width = width := Nat.max_eq_left wide

omit wide in
theorem construct_height {height : Nat} (tall : 0 < height) : (TextBuffer.construct width height attributes).height = height :=
  max_eq_left tall

variable (oldBuffer : TextBuffer) (lastCharacterViewport : Option ViewRows) (positionInfo : Option PositionInformation)

include wide

theorem start_shaped {height : Nat} :
    (oldBuffer.startReflow (TextBuffer.construct width height attributes) lastCharacterViewport positionInfo).Shaped width := by
  refine ⟨fun index => ?_, ⟨le_refl 0, natCast_nonneg width⟩, le_refl 0⟩
  show ((TextBuffer.construct width height attributes).rows index).columnCount = width
  rw [construct_rows wide]
  rfl

theorem start_between (narrow : width ≤ charOffsetsMask) (small tall : Nat) (low : 0 < small) (short : small ≤ coordTypeMax)
    (high : 0 < tall) (cursor : 0 ≤ oldBuffer.reflowCursor.y) :
    Reflowing.Between small tall width attributes oldBuffer.reflowCursor 0 true
      (oldBuffer.startReflow (TextBuffer.construct width small attributes) lastCharacterViewport positionInfo)
      (oldBuffer.startReflow (TextBuffer.construct width tall attributes) lastCharacterViewport none) := by
  obtain ⟨formed, total⟩ := construct_formed wide narrow attributes
  refine ⟨⟨rfl, rfl, rfl, rfl, start_shaped wide attributes _ _ _, start_shaped wide attributes _ _ _, rfl, max_eq_left low,
    rfl, rfl, max_eq_left high, fun row _ _ => ?_, nofun, fun row _ => construct_rows wide attributes tall row,
    fun _ row _ => ⟨_, formed, total, construct_rows wide attributes tall row⟩⟩,
    fun _ => rfl, fun passed => by omega, short, ⟨le_refl 0, le_refl 0⟩,
    .inl (show (0 : Int) < coordTypeMax by decide), nofun⟩
  show (TextBuffer.construct width small attributes).rows (row % small) = (TextBuffer.construct width tall attributes).rows row
  simp [construct_rows wide]

end

theorem reflow_window (env : Environment) (fuel : Nat) (oldBuffer : TextBuffer) (oldMaintained : Maintained oldBuffer)
    (single : ∀ y, (oldBuffer.getRow y).lineRendition = .singleWidth)
    (height : 0 < oldBuffer.height ∧ oldBuffer.height ≤ 0xFFFF)
    (committed : oldBuffer.commitWatermark ≤ oldBuffer.height + 1) (newWidth newHeight : Nat)
    (newWide : 2 ≤ newWidth ∧ newWidth ≤ charOffsetsMask) (newTall : 0 < newHeight ∧ newHeight ≤ 0xFFFF)
    (attributes : TextAttribute)
    (lastCharacterViewport : Option ViewRows) (positionInfo : Option PositionInformation) (full : Reflowing)
    (copied : oldBuffer.fullReflow env fuel newWidth attributes lastCharacterViewport = some (some full))
    (fits : oldBuffer.ReflowFits env fuel newWidth newHeight attributes lastCharacterViewport) :
    ∃ newBuffer info, oldBuffer.reflow env fuel (TextBuffer.construct newWidth newHeight attributes) lastCharacterViewport
    positionInfo = some (some (newBuffer, info)) ∧ newBuffer.ShowsWindow attributes full := by
  obtain ⟨tall, isTall⟩ : ∃ tall, tall = coordTypeMax.toNat := ⟨_, rfl⟩
  have large : tall = 2147483647 := isTall
  have wide : 0 < newWidth := by omega
  obtain ⟨cursorRow, cursorStart, heightBound⟩ := reflow_height_bounds height.1 committed lastCharacterViewport
  obtain ⟨count, isCount⟩ := eq_ofNat_of_zero_le (show 0 ≤ oldBuffer.reflowHeight lastCharacterViewport by omega)
  have oldNarrow : oldBuffer.width ≤ 32767 := by
    rw [← oldMaintained.widths 0]
    exact (oldMaintained.rows 0).sound.narrow
  have product : (count : Int) * (oldBuffer.width + 1) ≤ 0xFFFF * 32768 := by
    have most : count * (oldBuffer.width + 1) ≤ 0xFFFF * 32768 := Nat.mul_le_mul (by omega) (by omega)
    have cast : (count : Int) * (oldBuffer.width + 1) = ((count * (oldBuffer.width + 1) : Nat) : Int) := by rfl
    omega
  have enough : (0 : Int) + count * (oldBuffer.width + 1) ≤ tall := by omega
  rw [fullReflow, isCount, ← isTall, construct_width wide, construct_height attributes (by omega)] at copied
  obtain ⟨result, ran, isResult⟩ := map_eq_some_iff.mp copied
  obtain ⟨⟨lastY, final⟩, isFinal, isFull⟩ := map_eq_some_iff.mp isResult
  rw [isFinal] at ran
  simp only at isFull
  rw [TextBuffer.ReflowFits, isCount, ← isTall] at fits
  have between := start_between wide attributes oldBuffer lastCharacterViewport positionInfo newWide.2 newHeight tall (by omega)
    (by omega) (by omega) cursorStart
  have unlimited : (oldBuffer.startReflow (TextBuffer.construct newWidth tall attributes) lastCharacterViewport none).Unlimited
    tall newWidth :=
    ⟨between.same.tallShaped, between.same.tallFirst, between.same.tallHeight, by rw [large]; exact le_refl coordTypeMax⟩
  have sameOld := start_reflow_same oldBuffer (TextBuffer.construct newWidth tall attributes) lastCharacterViewport none
  obtain ⟨finalUnlimited, finalBound, _⟩ := reflow_rows_unlimited newWide.1 newWide.2 oldMaintained single 0 0
    _ unlimited sameOld (le_refl 0) enough ran
  have freshY : final.freshLine.newY ≤ final.newY + 1 := by
    rw [freshLine]
    split
    · exact le_refl _
    · omega
  obtain ⟨reachedY, last, taken, lastOld, covers⟩ := reflow_rows_follows newTall.1 newWide.1 newWide.2 (by omega)
    oldMaintained single 0 0 true _ _ between unlimited sameOld (le_refl 0) enough (by omega) (by omega) fits ran
  have fullUnlimited : full.Unlimited tall newWidth := by
    rw [← isFull]
    exact fresh_line_unlimited finalUnlimited
  obtain ⟨newBuffer, info, finished, window⟩ := finish_shows newWide.2 oldMaintained reachedY lastOld
    (isFull ▸ covers) fullUnlimited (by rw [← isFull]; omega)
  refine ⟨newBuffer, info, ?_, window⟩
  rw [reflow, isCount, toNat_natCast, construct_width wide, construct_height attributes (by omega), taken]
  exact congrArg some finished

def sixLetters (column : Int) : TextBuffer :=
  let buffer := ((TextBuffer.construct 6 1 {}).replace graphemeEnvironment 0 {}
    ⟨[0x61, 0x62, 0x63, 0x64, 0x65, 0x66], 0, 6, 0, 0, 0⟩).1
  { buffer with cursor := buffer.cursor.setPosition ⟨column, 0⟩ }

theorem six_letters_maintained : Maintained (sixLetters column) := by
  have written := write_maintained graphemeEnvironment (maintained_construct 6 1 (by decide) {})
    (.replace 0 {} ⟨[0x61, 0x62, 0x63, 0x64, 0x65, 0x66], 0, 6, 0, 0, 0⟩)
    ⟨spaces 6, blank_represents _ (by decide) rfl rfl, by decide +kernel, .inl (by decide +kernel)⟩
  exact { written with }

-- The row is continued in the next one, which is not there.
def sixLettersWrapped : TextBuffer := (sixLetters 0).setRow 0 { (sixLetters 0).getRow 0 with wrapForced := true }

theorem six_letters_wrapped_maintained : Maintained sixLettersWrapped := by
  have maintained : Maintained (sixLetters 0) := six_letters_maintained
  obtain ⟨⟨narrow, glyphs, models⟩, formed, total⟩ := maintained.rows 0
  exact maintained_set_row maintained 0 ⟨⟨narrow, glyphs, { models with }⟩, formed, total⟩ rfl

theorem six_letters_wrapped_row (y : Int) : sixLettersWrapped.getRow y = sixLettersWrapped.rows 0 := by
  have index : sixLettersWrapped.storageIndex y = 0 := by
    show (((0 : Nat) + y) % ((1 : Nat) : Int)).toNat = 0
    omega
  rw [getRow, index]

theorem nested_result {result : Option (Option Value)} {value : Shown}
    (evaluated : result.map (fun inner => inner.map shown) = some (some value)) : ∃ final, result = some (some final) ∧
    shown final = value := by
  obtain ⟨inner, isResult, isInner⟩ := map_eq_some_iff.mp evaluated
  obtain ⟨final, isFinal, isValue⟩ := map_eq_some_iff.mp isInner
  exact ⟨final, by rw [isResult, isFinal], isValue⟩

-- The copying stops behind the second piece of three.
theorem reflow_window_letters :
    ∃ full newBuffer info, sixLettersWrapped.fullReflow graphemeEnvironment 3 2 {} none = some (some full) ∧
      full.newY = 3 ∧ full.newCursorPos = ⟨0, 0⟩ ∧
      sixLettersWrapped.reflow graphemeEnvironment 3 (TextBuffer.construct 2 2 {}) none none = some (some (newBuffer, info)) ∧
      newBuffer.ShowsWindow {} full := by
  have evaluated : (sixLettersWrapped.fullReflow graphemeEnvironment 3 2 {} none).map
      (fun copied => copied.map (fun full => (full.newY, full.newCursorPos))) = some (some (3, ⟨0, 0⟩)) := by
    decide +kernel
  obtain ⟨full, copied, shown⟩ := nested_result evaluated
  rw [Prod.mk.injEq] at shown
  obtain ⟨newBuffer, info, reflowed, window⟩ := reflow_window graphemeEnvironment 3 sixLettersWrapped
    six_letters_wrapped_maintained (fun y => by rw [six_letters_wrapped_row]; decide +kernel) ⟨by decide, by decide⟩
    (by decide +kernel) 2 2 ⟨by decide, by decide⟩ ⟨by decide, by decide⟩ {} none none full copied (by decide +kernel)
  exact ⟨full, newBuffer, info, copied, shown.1, shown.2, reflowed, window⟩

def shownRows (count : Nat) (buffer : TextBuffer) : List (List WChar) :=
  (List.range count).map (fun row => (buffer.getRow row).chars)

-- In two rows the row with the cursor is read last although it is the first one.
-- A single row is not the one that the cursor is on.
theorem reflow_window_turned :
    (∃ full newBuffer, (sixLetters 0).fullReflow graphemeEnvironment 3 2 {} none = some (some full) ∧
        shownRows 3 full.newBuffer = [[0x61, 0x62], [0x63, 0x64], [0x65, 0x66]] ∧
        (sixLetters 0).reflow graphemeEnvironment 3 (TextBuffer.construct 2 2 {}) none none = some (some (newBuffer, none)) ∧
        shownRows 2 newBuffer = [[0x63, 0x64], [0x61, 0x62]] ∧ ¬ newBuffer.ShowsWindow {} full) ∧
      ∃ full newBuffer, (sixLetters 3).fullReflow graphemeEnvironment 3 2 {} none = some (some full) ∧
        full.newCursorPos = ⟨1, 1⟩ ∧
        (sixLetters 3).reflow graphemeEnvironment 3 (TextBuffer.construct 2 1 {}) none none = some (some (newBuffer, none)) ∧
        shownRows 1 newBuffer = [[0x61, 0x62]] ∧ ¬ newBuffer.ShowsWindow {} full := by
  refine ⟨?_, ?_⟩
  · have evaluatedFull : ((sixLetters 0).fullReflow graphemeEnvironment 3 2 {} none).map
        (fun copied => copied.map (fun full => (full.newCursorPos, shownRows 3 full.newBuffer))) =
          some (some (⟨0, 0⟩, [[0x61, 0x62], [0x63, 0x64], [0x65, 0x66]])) := by
      decide +kernel
    have evaluated : ((sixLetters 0).reflow graphemeEnvironment 3 (TextBuffer.construct 2 2 {}) none none).map
        (fun copied => copied.map (fun final => (final.2, final.1.cursor.position, shownRows 2 final.1))) =
          some (some (none, ⟨0, 1⟩, [[0x63, 0x64], [0x61, 0x62]])) := by
      decide +kernel
    obtain ⟨full, copied, shownFull⟩ := nested_result evaluatedFull
    obtain ⟨⟨newBuffer, info⟩, reflowed, shown⟩ := nested_result evaluated
    simp only [Prod.mk.injEq] at shownFull shown
    refine ⟨full, newBuffer, copied, shownFull.2, by rw [reflowed, shown.1], shown.2.2, ?_⟩
    rintro ⟨first, _, _, sameRow, _⟩
    rw [shown.2.1, shownFull.1] at sameRow
    simp only at sameRow
    omega
  · have evaluatedFull : ((sixLetters 3).fullReflow graphemeEnvironment 3 2 {} none).map
        (fun copied => copied.map (fun full => (full.newY, full.newCursorPos, (full.newBuffer.getRow 1).chars))) =
          some (some (3, ⟨1, 1⟩, [0x63, 0x64])) := by
      decide +kernel
    have evaluated : ((sixLetters 3).reflow graphemeEnvironment 3 (TextBuffer.construct 2 1 {}) none none).map
        (fun copied => copied.map (fun final => (final.2, final.1.cursor.position, shownRows final.1.height final.1))) =
          some (some (none, ⟨1, 0⟩, [[0x61, 0x62]])) := by
      decide +kernel
    obtain ⟨full, copied, shownFull⟩ := nested_result evaluatedFull
    obtain ⟨⟨newBuffer, info⟩, reflowed, shown⟩ := nested_result evaluated
    simp only [Prod.mk.injEq] at shownFull shown
    obtain ⟨fullY, fullCursor, fullRow⟩ := shownFull
    obtain ⟨noInfo, position, rows⟩ := shown
    have height : newBuffer.height = 1 := by simpa [shownRows] using congrArg List.length rows
    rw [height] at rows
    refine ⟨full, newBuffer, copied, fullCursor, by rw [reflowed, noInfo], rows, ?_⟩
    rintro ⟨first, window, _, sameRow, _⟩
    rw [position, fullCursor] at sameRow
    simp only [add_zero] at sameRow
    have equal := (window 0 (by rw [height]; decide)).1 (by omega)
    rw [show (first : Int) + ((0 : Nat) : Int) = 1 by omega] at equal
    have chars := congrArg Row.chars equal
    rw [fullRow] at chars
    have shownRow : (newBuffer.getRow ((0 : Nat) : Int)).chars = [0x61, 0x62] := List.head_eq_of_cons_eq rows
    rw [shownRow] at chars
    cases chars

end Cogterm.Buffer
