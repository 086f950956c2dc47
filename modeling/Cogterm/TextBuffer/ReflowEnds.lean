import Cogterm.TextBuffer.ReflowSteps

namespace Cogterm.Buffer

open Library Til Glyphs Option Int Nat Reflowing TextBuffer

variable {s : Reflowing} {result : Option Reflowing} {fuel : Nat}

namespace Reflowing

-- A wide glyph that does not fit into a row of one column is tried again in the
-- next row. That only goes on for ever as long as the limit moves along.
def RowPasses (oldCursorPos : Point) (newWidth : Nat) (newHeight : Int) (oldRow : Row TextAttribute) (oldY oldRowLimit : Int) :
    Prop :=
  2 ≤ newWidth ∨ newHeight ≤ 1 ∨
    (oldY = oldCursorPos.y → ∀ column : Nat, column ≤ oldCursorPos.x → column + 2 ≤ oldRowLimit →
      oldRow.uncheckedIsTrailer (column + 1) = false)

def copyMeasure (newWidth : Nat) (newHeight oldRowLimit : Int) (current : Int × Reflowing) : Nat × Nat × Nat :=
  ((oldRowLimit - current.1).toNat, if 2 ≤ newWidth then 0 else (max newHeight current.2.newYLimit - current.2.newY).toNat,
    if current.2.newX ≥ newWidth then 0 else 1)

def Below : Nat × Nat × Nat → Nat × Nat × Nat → Prop := Prod.Lex (· < ·) (Prod.Lex (· < ·) (· < ·))

theorem below_well_founded : WellFounded Below := WellFounded.prod_lex lt_wfRel.wf (WellFounded.prod_lex lt_wfRel.wf lt_wfRel.wf)

theorem copy_loop_ends (env : Environment) (oldCursorPos : Point) (newWidth : Nat) (narrow : newWidth ≤ charOffsetsMask)
    (wide : 0 < newWidth) (newHeight : Int) (tall : 0 < newHeight) (oldRow : Row TextAttribute) (glyphs : Glyphs)
    (models : Represents oldRow glyphs) (oldY oldRowLimit : Int) (limited : oldRowLimit ≤ oldRow.columnCount)
    (passes : RowPasses oldCursorPos newWidth newHeight oldRow oldY oldRowLimit) (s : Reflowing) (shaped : s.Shaped newWidth) :
    Ends (copyStep env oldCursorPos newWidth newHeight oldRow oldY oldRowLimit) (0, s) := by
  refine ends_of_variant below_well_founded (copyMeasure newWidth newHeight oldRowLimit)
    (fun current => (0 ≤ current.1 ∧ current.1 ≤ oldRow.columnCount) ∧ current.2.Shaped newWidth) ?_ (0, s)
    ⟨⟨le_refl 0, natCast_nonneg _⟩, shaped⟩
  rintro ⟨oldX, s⟩ ⟨started, shaped⟩
  rcases copy_step_cases env oldCursorPos narrow newHeight models oldY limited started shaped wide
    with ⟨result, ended, _⟩ | ⟨next, wrapped, again, isWrapped, more, nextShaped, _, nextY, unbroken, nextLimit, progress⟩
  · exact .inl ⟨result, ended⟩
  refine .inr ⟨next, again, ⟨by omega, nextShaped⟩, ?_⟩
  obtain ⟨wrappedShaped, sameLimit, moved⟩ := wrap_line_cases s shaped
  rw [← isWrapped] at wrappedShaped sameLimit moved
  rw [Below, copyMeasure, copyMeasure, Prod.lex_def, Prod.lex_def]
  simp only
  rcases progress with further | ⟨same, full, tight, room, trailer⟩
  · exact .inl (by omega)
  refine .inr ⟨by omega, ?_⟩
  rw [full, if_pos (le_refl _)]
  by_cases double : 2 ≤ newWidth
  · rw [if_pos double, if_pos double, if_neg (by omega)]
    exact .inr ⟨rfl, by decide⟩
  rw [if_neg double, if_neg double]
  have limit : max newHeight next.2.newYLimit ≤ max newHeight s.newYLimit ∨ next.2.newYLimit = next.2.newY + 1 := by
    rw [nextLimit, nextY, sameLimit]
    split
    case isFalse => exact .inl (le_refl _)
    case isTrue here =>
      rcases passes with double' | short | clear
      · exact absurd double' double
      · exact .inr (by omega)
      · have plain := clear here.1 oldX.toNat (by omega) (by omega)
        rw [trailer] at plain
        cases plain
  rcases moved with ⟨isFull, _, further⟩ | ⟨notFull, _, stays⟩
  · exact .inl (by omega)
  rw [if_neg (by omega)]
  rcases lt_or_ge (max newHeight next.2.newYLimit - next.2.newY).toNat (max newHeight s.newYLimit - s.newY).toNat with
    less | notLess
  · exact .inl less
  · exact .inr ⟨by omega, by decide⟩

section

variable {env : Environment} (oldCursorPos : Point) {newWidth : Nat} (narrow : newWidth ≤ charOffsetsMask) (wide : 0 < newWidth)
  {newHeight : Int}

include narrow wide in
theorem copy_loop_shaped (models : Represents oldRow glyphs) {oldY oldRowLimit : Int}
    (limited : oldRowLimit ≤ oldRow.columnCount) (shaped : s.Shaped newWidth)
    (ended : runLoop (copyStep env oldCursorPos newWidth newHeight oldRow oldY oldRowLimit) fuel (0, s) = some result) :
    ∀ final ∈ result, final.Shaped newWidth ∧ final.oldBuffer = s.oldBuffer := by
  refine run_loop_invariant
    (fun current : Int × Reflowing =>
      (0 ≤ current.1 ∧ current.1 ≤ oldRow.columnCount) ∧ current.2.Shaped newWidth ∧ current.2.oldBuffer = s.oldBuffer)
    (fun result => ∀ final ∈ result, final.Shaped newWidth ∧ final.oldBuffer = s.oldBuffer) ?_ (0, s)
    ⟨⟨le_refl 0, natCast_nonneg _⟩, shaped, rfl⟩ ended
  rintro ⟨oldX, current⟩ ⟨started, currentShaped, sameOld⟩
  rcases copy_step_cases env oldCursorPos narrow newHeight models oldY limited started
    currentShaped wide with ⟨other, ended, finished⟩ |
    ⟨other, wrapped, goesOn, _, more, nextShaped, nextOld, _, _, _, progress⟩
  · refine .inl ⟨other, ended, fun final isFinal => ?_⟩
    obtain ⟨finalShaped, finalOld⟩ := finished final isFinal
    exact ⟨finalShaped, finalOld.trans sameOld⟩
  · exact .inr ⟨other, goesOn, by omega, nextShaped, nextOld.trans sameOld⟩

theorem place_wide_row_shaped (count : row.columnCount = newWidth) (shaped : s.Shaped newWidth) :
    (s.placeWideRow oldCursorPos row oldY).Shaped newWidth ∧ (s.placeWideRow oldCursorPos row oldY).oldBuffer =
    s.oldBuffer := by
  have moved := shaped_set_row shaped s.newY count
  rw [placeWideRow]
  split
  all_goals
    obtain ⟨mutableTop, visibleTop, info, viewed⟩ := track_viewports_frame oldY _
    rw [viewed]
    exact ⟨⟨moved.rows, moved.newX, add_nonneg moved.newY (by decide)⟩, rfl⟩

theorem copy_wide_row_shaped (shaped : s.Shaped newWidth)
    (copied : s.copyWideRow env oldCursorPos newHeight oldRow oldY = some final) :
    final.Shaped newWidth ∧ final.oldBuffer = s.oldBuffer := by
  obtain ⟨startedShaped, sameOld⟩ := fresh_line_shaped shaped
  obtain ⟨_, _, isFinal⟩ := map_eq_some_iff.mp copied
  rw [← isFinal, ← sameOld]
  refine place_wide_row_shaped oldCursorPos ?_ startedShaped
  refine (copy_from_count env _ (some oldRow)).trans ?_
  split
  · exact startedShaped.rows _
  · exact startedShaped.rows _

end

end Reflowing

structure TextBuffer.SameRows (buffer other : TextBuffer) : Prop where
  rows : buffer.rows = other.rows
  firstRow : buffer.firstRow = other.firstRow
  height : buffer.height = other.height

theorem same_rows_touch {buffer other : TextBuffer} (same : buffer.SameRows other) (y : Int) :
    (buffer.touchRow y).SameRows other :=
  { same with }

theorem same_rows_get (buffer other : TextBuffer) (same : buffer.SameRows other) (y : Int) :
    buffer.getRow y = other.getRow y := by
  simp [getRow, storageIndex, same.rows, same.firstRow, same.height]

theorem last_non_space_loop_same (y : Int) (buffer : TextBuffer) (same : buffer.SameRows other) :
    (lastNonSpaceLoop fuel y buffer).1.SameRows other := by
  induction fuel generalizing y buffer with
  | zero => exact same_rows_touch same y
  | succ fuel ih =>
    rw [lastNonSpaceLoop]
    split
    · exact ih (y - 1) (buffer.touchRow y) (same_rows_touch same y)
    · exact same_rows_touch same y

theorem start_reflow_same (oldBuffer newBuffer : TextBuffer) (lastCharacterViewport : Option ViewRows)
    (positionInfo : Option PositionInformation) :
    (oldBuffer.startReflow newBuffer lastCharacterViewport positionInfo).oldBuffer.SameRows oldBuffer :=
  last_non_space_loop_same _ oldBuffer ⟨rfl, rfl, rfl⟩

theorem clamp_bounds (value high : Int) (ordered : 0 ≤ high) : 0 ≤ clamp value 0 high ∧ clamp value 0 high ≤ high := by
  rw [clamp]
  split
  · omega
  · split <;> omega

namespace Reflowing

section

variable (env : Environment) (oldBuffer : TextBuffer) (oldMaintained : Maintained oldBuffer) {newWidth : Nat}
  (narrow : newWidth ≤ charOffsetsMask) (wide : 0 < newWidth) {newHeight : Int}

include oldMaintained

theorem old_row_limit_le (oldY : Int) :
    oldRowLimit oldBuffer.reflowCursor (oldBuffer.getRow oldY) oldY ≤ (oldBuffer.getRow oldY).columnCount := by
  have right := measure_right_le (oldBuffer.getRow oldY)
  have count : (oldBuffer.getRow oldY).columnCount = oldBuffer.width := oldMaintained.widths _
  have positive := oldMaintained.wide
  have cursor := (clamp_bounds oldBuffer.cursor.position.x (oldBuffer.width - 1) (by omega)).2
  rw [← show oldBuffer.reflowCursor.x = clamp oldBuffer.cursor.position.x 0 (oldBuffer.width - 1) from rfl] at cursor
  rw [oldRowLimit]
  split <;> omega

include narrow wide

theorem reflow_row_shaped {oldY : Int} (shaped : s.Shaped newWidth) (same : s.oldBuffer.SameRows oldBuffer)
    (ended : s.reflowRow env oldBuffer.reflowCursor newWidth newHeight fuel oldY = some result) :
    ∀ final ∈ result, final.Shaped newWidth ∧ final.oldBuffer.SameRows oldBuffer := by
  intro final isFinal
  obtain ⟨glyphs, models⟩ := (oldMaintained.rows (oldBuffer.storageIndex oldY)).sound.stored
  have touched := same_rows_touch same oldY
  have touchedShaped : { s with oldBuffer := s.oldBuffer.touchRow oldY }.Shaped newWidth := { shaped with }
  rw [reflowRow, same_rows_get s.oldBuffer oldBuffer same oldY] at ended
  split at ended
  · rw [Option.some.injEq] at ended
    rw [← ended] at isFinal
    obtain ⟨finalShaped, finalOld⟩ := copy_wide_row_shaped oldBuffer.reflowCursor touchedShaped isFinal
    exact ⟨finalShaped, by rw [finalOld]; exact touched⟩
  · obtain ⟨copied, looped, isResult⟩ := map_eq_some_iff.mp ended
    rw [← isResult] at isFinal
    obtain ⟨reached, isReached, isLast⟩ := map_eq_some_iff.mp isFinal
    obtain ⟨reachedShaped, reachedOld⟩ := copy_loop_shaped oldBuffer.reflowCursor narrow wide models
      (old_row_limit_le oldBuffer oldMaintained oldY) touchedShaped looped reached isReached
    have reachedSame : reached.oldBuffer.SameRows oldBuffer := by
      rw [reachedOld]
      exact touched
    rw [← isLast]
    split
    · exact ⟨reachedShaped, reachedSame⟩
    · exact ⟨shaped_newline reachedShaped, reachedSame⟩

variable (tall : 0 < newHeight)
  (passes : ∀ oldY, (oldBuffer.getRow oldY).lineRendition = .singleWidth →
    RowPasses oldBuffer.reflowCursor newWidth newHeight (oldBuffer.getRow oldY) oldY
      (oldRowLimit oldBuffer.reflowCursor (oldBuffer.getRow oldY) oldY))

include tall passes

theorem reflow_row_ends (oldY : Int) (shaped : s.Shaped newWidth) (same : s.oldBuffer.SameRows oldBuffer) :
    ∃ fuel result, ∀ more, s.reflowRow env oldBuffer.reflowCursor newWidth newHeight (fuel + more) oldY = some result := by
  obtain ⟨glyphs, models⟩ := (oldMaintained.rows (oldBuffer.storageIndex oldY)).sound.stored
  have touchedShaped : { s with oldBuffer := s.oldBuffer.touchRow oldY }.Shaped newWidth := { shaped with }
  by_cases single : (oldBuffer.getRow oldY).lineRendition = .singleWidth
  · obtain ⟨fuel, ended⟩ :=
      copy_loop_ends env oldBuffer.reflowCursor newWidth narrow wide newHeight tall (oldBuffer.getRow oldY) glyphs
      models oldY _ (old_row_limit_le oldBuffer oldMaintained oldY) (passes oldY single) _ touchedShaped
    obtain ⟨result, looped⟩ := isSome_iff_exists.mp ended
    refine ⟨fuel, result.map (fun s => if (oldBuffer.getRow oldY).wrapForced then s else s.newline), fun more => ?_⟩
    simp [reflowRow, same_rows_get s.oldBuffer oldBuffer same oldY, if_neg (not_not.mpr single),
      run_loop_more _ fuel more _ result looped]
  · refine ⟨0, copyWideRow env oldBuffer.reflowCursor newHeight (oldBuffer.getRow oldY) oldY
      { s with oldBuffer := s.oldBuffer.touchRow oldY }, fun more => ?_⟩
    rw [reflowRow, same_rows_get s.oldBuffer oldBuffer same oldY, if_pos single]

theorem reflow_rows_end (count : Nat) (oldY : Int) (s : Reflowing) (shaped : s.Shaped newWidth)
    (same : s.oldBuffer.SameRows oldBuffer) :
    ∃ fuel result, ∀ more, s.reflowRows env oldBuffer.reflowCursor newWidth newHeight (fuel + more) count oldY =
    some result := by
  induction count generalizing oldY s with
  | zero => exact ⟨0, _, fun _ => rfl⟩
  | succ count ih =>
    by_cases below : s.newY < s.newYLimit
    · obtain ⟨fuel, result, ended⟩ := reflow_row_ends env oldBuffer oldMaintained narrow wide tall passes oldY shaped same
      cases result with
      | none => exact ⟨fuel, none, fun more => by rw [reflowRows, if_pos below, ended more]⟩
      | some next =>
        obtain ⟨nextShaped, nextSame⟩ :=
          reflow_row_shaped env oldBuffer oldMaintained narrow wide shaped same (ended 0) next rfl
        obtain ⟨rest, final, finished⟩ := ih (oldY + 1) next nextShaped nextSame
        refine ⟨fuel + rest, final, fun more => ?_⟩
        rw [reflowRows, if_pos below, add_assoc, ended (rest + more)]
        rw [← add_assoc, add_comm fuel rest, add_assoc]
        exact finished (fuel + more)
    · exact ⟨0, _, fun more => by rw [reflowRows, if_neg below]⟩

end

end Reflowing

def TextBuffer.ReflowPasses (oldBuffer : TextBuffer) (newWidth newHeight : Nat) : Prop :=
  let cursor := oldBuffer.reflowCursor
  let row := oldBuffer.getRow cursor.y
  2 ≤ newWidth ∨ newHeight ≤ 1 ∨ row.lineRendition ≠ .singleWidth ∨
    ∀ column : Nat, column ≤ cursor.x → column + 2 ≤ oldRowLimit cursor row cursor.y →
    row.uncheckedIsTrailer (column + 1) = false

theorem reflow_ends (env : Environment) (oldBuffer newBuffer : TextBuffer) (oldMaintained : Maintained oldBuffer)
    (newMaintained : Maintained newBuffer) (tall : 0 < newBuffer.height) (lastCharacterViewport : Option ViewRows)
    (positionInfo : Option PositionInformation) (passes : oldBuffer.ReflowPasses newBuffer.width newBuffer.height) :
    ∃ fuel result, reflow env fuel oldBuffer newBuffer lastCharacterViewport positionInfo = some result := by
  have narrow : newBuffer.width ≤ charOffsetsMask := by
    rw [← newMaintained.widths 0]
    exact (newMaintained.rows 0).sound.narrow
  have rowPasses : ∀ oldY, (oldBuffer.getRow oldY).lineRendition = .singleWidth →
      Reflowing.RowPasses oldBuffer.reflowCursor newBuffer.width newBuffer.height (oldBuffer.getRow oldY) oldY
        (oldRowLimit oldBuffer.reflowCursor (oldBuffer.getRow oldY) oldY) := by
    intro oldY single
    rcases passes with double | short | other | clear
    · exact .inl double
    · exact .inr (.inl (by omega))
    · refine .inr (.inr fun isCursor => ?_)
      rw [isCursor] at single
      exact absurd single other
    · refine .inr (.inr fun isCursor => ?_)
      rw [isCursor]
      exact clear
  obtain ⟨fuel, result, ended⟩ := reflow_rows_end env oldBuffer oldMaintained narrow newMaintained.wide
    (by omega) rowPasses (oldBuffer.reflowHeight lastCharacterViewport).toNat 0
    (oldBuffer.startReflow newBuffer lastCharacterViewport positionInfo)
    ⟨newMaintained.widths, ⟨le_refl 0, natCast_nonneg _⟩, le_refl 0⟩
    (start_reflow_same oldBuffer newBuffer lastCharacterViewport positionInfo)
  refine ⟨fuel, result.bind (fun reached => oldBuffer.finishReflow newBuffer.width newBuffer.height reached.1 reached.2), ?_⟩
  exact congrArg _ (ended 0)

def wideLetter : TextBuffer := ((TextBuffer.construct 2 1 {}).replace graphemeEnvironment 0 {} ⟨[0x4E00], 0, 2, 0, 0, 0⟩).1

theorem wide_letter_maintained : Maintained wideLetter :=
  write_maintained graphemeEnvironment (maintained_construct 2 1 (by decide) {}) (.replace 0 {} ⟨[0x4E00], 0, 2, 0, 0, 0⟩)
    ⟨spaces 2, blank_represents _ (by decide) rfl rfl, by decide +kernel, .inl (by decide +kernel)⟩

theorem reflow_wide_letter_ends :
    ∃ fuel result, reflow graphemeEnvironment fuel wideLetter (TextBuffer.construct 2 2 {}) none none = some result :=
  reflow_ends graphemeEnvironment wideLetter (TextBuffer.construct 2 2 {}) wide_letter_maintained
    (maintained_construct 2 2 (by decide) {}) (by decide) none none (.inl (by decide))

structure Trying (current : Int × Reflowing) : Prop where
  oldX : current.1 = 0
  shaped : current.2.Shaped 1
  newX : current.2.newX = 1
  newYLimit : current.2.newYLimit = current.2.newY + 2
  attributes : current.2.newBuffer.initialAttributes = {}
  fresh : current.2.newY = 0 → current.2.newBuffer.storageIndex 0 ≠ current.2.newBuffer.storageIndex 1 ∧
    current.2.newBuffer.getRow 1 = Row.construct 1 {}

theorem wide_letter_piece (s : Reflowing) (blank : s.newBuffer.getRow s.newY = Row.construct 1 {}) (start : s.newX = 0) :
    ∃ next, s.copyPiece graphemeEnvironment ⟨0, 0⟩ 1 2 (wideLetter.getRow 0) 0 2 0 = some next ∧ next.1 = 0 ∧
    next.2.newX = 1 := by
  have copied : ((Row.construct 1 {}).copyTextFrom graphemeEnvironment (some (wideLetter.getRow 0))
      ⟨0, coordTypeMax, 0, 2, 0, 0, 0, 0⟩).2 = some ⟨0, coordTypeMax, 0, 2, 1, 0, 1, 0⟩ := by
    decide +kernel
  have colored : (copyAttributes 1 (wideLetter.getRow 0) ((Row.construct 1 {}).copyTextFrom graphemeEnvironment
      (some (wideLetter.getRow 0)) ⟨0, coordTypeMax, 0, 2, 0, 0, 0, 0⟩).1 0 0).isSome := by
    decide +kernel
  obtain ⟨row, isRow⟩ := isSome_iff_exists.mp colored
  rw [copyPiece, blank, start, copied]
  simp only [isRow]
  exact ⟨_, rfl, rfl, rfl⟩

theorem wide_letter_step (isWrapped : wrapped = s.wrapLine 1) (shaped : wrapped.Shaped 1)
    (start : wrapped.newX = 0) (below : wrapped.newY < max 2 wrapped.newYLimit)
    (blank : (wrapped.resetLine 2).newBuffer.getRow wrapped.newY = Row.construct 1 {}) :
    ∃ next row, copyStep graphemeEnvironment ⟨0, 0⟩ 1 2 (wideLetter.getRow 0) 0 2 (0, s) = .again next ∧ next.1 = 0 ∧
      next.2.newX = 1 ∧ next.2.Shaped 1 ∧ next.2.newY = wrapped.newY ∧ next.2.newYLimit = wrapped.newY + 2 ∧
      next.2.newBuffer = (wrapped.resetLine 2).newBuffer.setRow wrapped.newY row := by
  obtain ⟨readyShaped, sameX, sameY, _, _⟩ := reset_line_frame 2 wrapped shaped
  obtain ⟨next, copied, oldX, newX⟩ :=
    wide_letter_piece (wrapped.resetLine 2) (by rw [sameY]; exact blank) (by rw [sameX, start])
  obtain ⟨state, row, _, _, ends⟩ := copy_piece_cases copied
  obtain ⟨glyphs, models⟩ := (wide_letter_maintained.rows (wideLetter.storageIndex 0)).sound.stored
  obtain ⟨nextShaped, _, nextY, nextLimit, _⟩ := copy_piece_step graphemeEnvironment ⟨0, 0⟩
    (by decide : 1 ≤ charOffsetsMask) 2 models 0 (by decide +kernel) (by decide +kernel) readyShaped
    (by rw [sameX, start]; decide) copied
  refine ⟨next, row, ?_, oldX, newX, nextShaped, by rw [nextY, sameY], ?_, by rw [ends.newBuffer, sameY]⟩
  · rw [copyStep]
    simp only [← isWrapped]
    rw [if_neg (by omega), copied]
    simp only [oldX]
    rfl
  · rw [nextLimit, sameY]
    rfl

theorem trying_goes_on (current : Int × Reflowing) (trying : Trying current) :
    ∃ next, copyStep graphemeEnvironment ⟨0, 0⟩ 1 2 (wideLetter.getRow 0) 0 2 current = .again next ∧ Trying next := by
  obtain ⟨oldX, s⟩ := current
  obtain ⟨isOldX, shaped, newX, newYLimit, attributes, fresh⟩ := trying
  simp only at isOldX shaped newX newYLimit attributes fresh
  have positive := shaped.newY
  have isWrapped : s.wrapLine 1 =
      { s with newBuffer := s.newBuffer.setRow s.newY { s.newBuffer.getRow s.newY with wrapForced := true } }.newline := by
    rw [wrapLine, if_pos (by omega)]
  obtain ⟨wrapped, same⟩ : ∃ wrapped, wrapped = s.wrapLine 1 := ⟨_, rfl⟩
  have wrappedShaped : wrapped.Shaped 1 := by rw [same]; exact (wrap_line_cases s shaped).1
  have wrappedX : wrapped.newX = 0 := by rw [same, isWrapped]; rfl
  have wrappedY : wrapped.newY = s.newY + 1 := by rw [same, isWrapped]; rfl
  have wrappedLimit : wrapped.newYLimit = s.newYLimit := by rw [same, isWrapped]; rfl
  have wrappedAttributes : wrapped.newBuffer.initialAttributes = {} := by rw [same, isWrapped]; exact attributes
  have resetAttributes : (wrapped.resetLine 2).newBuffer.initialAttributes = {} := by
    rw [resetLine]
    split
    · exact wrappedAttributes
    · exact wrappedAttributes
  have blank : (wrapped.resetLine 2).newBuffer.getRow wrapped.newY = Row.construct 1 {} := by
    rw [resetLine]
    by_cases again : wrapped.newY ≥ 2
    · rw [if_pos ⟨again, wrappedX⟩, get_set_row, wrappedAttributes]
      exact reset_construct (wrappedShaped.rows _)
    have first : s.newY = 0 := by omega
    obtain ⟨apart, unwritten⟩ := fresh first
    rw [same, isWrapped, first, ← unwritten]
    exact get_set_other (Ne.symm apart)
  obtain ⟨next, row, again, nextX, nextNewX, nextShaped, nextY, nextLimit, nextBuffer⟩ := wide_letter_step same wrappedShaped
    wrappedX (by omega) blank
  refine ⟨next, by rw [isOldX]; exact again, nextX, nextShaped, nextNewX, by rw [nextLimit, nextY], ?_, ?_⟩
  · rw [nextBuffer]
    exact resetAttributes
  · intro zero
    omega

def oneColumn : Reflowing :=
  { wideLetter.startReflow (TextBuffer.construct 1 2 {}) none none with
    oldBuffer := (wideLetter.startReflow (TextBuffer.construct 1 2 {}) none none).oldBuffer.touchRow 0 }

theorem one_column_tries :
    ∃ next, copyStep graphemeEnvironment ⟨0, 0⟩ 1 2 (wideLetter.getRow 0) 0 2 (0, oneColumn) = .again next ∧
    Trying next := by
  have wrapped : oneColumn = oneColumn.wrapLine 1 := by rw [wrapLine, if_neg (by decide)]
  have ready : oneColumn.resetLine 2 = oneColumn := by rw [resetLine, if_neg (by decide)]
  obtain ⟨next, row, again, nextX, nextNewX, nextShaped, nextY, nextLimit, nextBuffer⟩ := wide_letter_step wrapped
    ⟨fun _ => rfl, by decide, by decide⟩ rfl (by decide) (by rfl)
  refine ⟨next, again, nextX, nextShaped, nextNewX, by rw [nextLimit, nextY], by rw [nextBuffer]; rfl, fun _ => ?_⟩
  rw [nextBuffer]
  have apart : oneColumn.newBuffer.storageIndex 1 ≠ oneColumn.newBuffer.storageIndex 0 := by decide
  exact ⟨Ne.symm apart, get_set_other apart⟩

theorem one_column_loops (fuel : Nat) :
    (wideLetter.startReflow (TextBuffer.construct 1 2 {}) none none).reflowRow graphemeEnvironment ⟨0, 0⟩ 1 2 fuel 0 =
    none := by
  have looping : runLoop (copyStep graphemeEnvironment ⟨0, 0⟩ 1 2 (wideLetter.getRow 0) 0 2) fuel (0, oneColumn) = none := by
    cases fuel with
    | zero => rfl
    | succ fuel =>
      obtain ⟨next, again, trying⟩ := one_column_tries
      rw [runLoop, again]
      exact never_ends trying_goes_on next trying
  have limit : oldRowLimit ⟨0, 0⟩ (wideLetter.getRow 0) 0 = 2 := by decide +kernel
  have single : (wideLetter.getRow 0).lineRendition = .singleWidth := by decide +kernel
  have same := same_rows_get _ _ (start_reflow_same wideLetter (TextBuffer.construct 1 2 {}) none none) 0
  rw [reflowRow, same, if_neg (not_not.mpr single), limit]
  exact congrArg (Option.map _) looping

theorem reflow_wide_letter_never_ends :
    ¬ ∃ fuel result, reflow graphemeEnvironment fuel wideLetter (TextBuffer.construct 1 2 {}) none none = some result := by
  rintro ⟨fuel, result, ended⟩
  have looping : (wideLetter.startReflow (TextBuffer.construct 1 2 {}) none none).reflowRows graphemeEnvironment
    ⟨0, 0⟩ 1 2 fuel 1 0 = none := by
    rw [reflowRows, if_pos (by decide), one_column_loops]
  obtain ⟨reached, isReached, _⟩ := map_eq_some_iff.mp ended
  cases looping.symm.trans isReached

end Cogterm.Buffer
