import Cogterm.Row.CopyColumns
import Cogterm.TextBuffer.Ready
import Cogterm.TextBuffer.Reflow

namespace Cogterm.Buffer

open Library Til Glyphs Function Option

theorem measure_right_le (row : Row TextAttribute) : row.measureRight ≤ row.columnCount := by
  rw [Row.measureRight]
  split
  · split <;> omega
  rw [Row.getLastNonSpaceColumn, Row.getReadableColumnCount]
  split
  · split <;> omega
  · split <;> omega

theorem get_set_row (buffer : TextBuffer) (y : Int) (row : Row TextAttribute) : (buffer.setRow y row).getRow y = row :=
  update_self _ _ _

theorem get_set_other {buffer : TextBuffer}
    (apart : buffer.storageIndex other ≠ buffer.storageIndex y) : (buffer.setRow y row).getRow other = buffer.getRow other :=
  update_of_ne apart _ _

namespace Reflowing

structure Shaped (newWidth : Nat) (s : Reflowing) : Prop where
  rows : ∀ index, (s.newBuffer.rows index).columnCount = newWidth
  newX : 0 ≤ s.newX ∧ s.newX ≤ newWidth
  newY : 0 ≤ s.newY

variable {s : Reflowing} {oldX newX : Int} {next : Int × Reflowing}

section

variable {newWidth : Nat}

theorem shaped_set_row (shaped : s.Shaped newWidth) (y : Int) (columnCount : row.columnCount = newWidth) :
    { s with newBuffer := s.newBuffer.setRow y row }.Shaped newWidth := by
  refine ⟨fun index => ?_, shaped.newX, shaped.newY⟩
  show (update s.newBuffer.rows (s.newBuffer.storageIndex y) row index).columnCount = newWidth
  by_cases same : index = s.newBuffer.storageIndex y
  · simp [same, columnCount]
  · rw [update_of_ne same, shaped.rows index]

theorem shaped_newline (shaped : s.Shaped newWidth) : s.newline.Shaped newWidth :=
  ⟨shaped.rows, ⟨Int.le_refl 0, Int.natCast_nonneg newWidth⟩, Int.add_nonneg shaped.newY (by decide)⟩

theorem fresh_line_shaped (shaped : s.Shaped newWidth) : s.freshLine.Shaped newWidth ∧ s.freshLine.oldBuffer = s.oldBuffer := by
  rw [freshLine]
  split
  · exact ⟨shaped_newline shaped, rfl⟩
  · exact ⟨shaped, rfl⟩

theorem wrap_line_cases (s : Reflowing) (shaped : s.Shaped newWidth) :
    (s.wrapLine newWidth).Shaped newWidth ∧ (s.wrapLine newWidth).newYLimit = s.newYLimit ∧
      ((s.newX = newWidth ∧ (s.wrapLine newWidth).newX = 0 ∧ (s.wrapLine newWidth).newY = s.newY + 1) ∨
        (s.newX < newWidth ∧ (s.wrapLine newWidth).newX = s.newX ∧ (s.wrapLine newWidth).newY = s.newY)) := by
  have bounds := shaped.newX
  rw [wrapLine]
  by_cases full : s.newX ≥ newWidth
  · rw [if_pos full]
    refine ⟨shaped_newline (shaped_set_row shaped _ (shaped.rows _)), rfl, .inl ⟨by omega, rfl, rfl⟩⟩
  · rw [if_neg full]
    exact ⟨shaped, rfl, .inr ⟨by omega, rfl, rfl⟩⟩

theorem wrap_line_cursor (s : Reflowing) (newWidth : Int) : (s.wrapLine newWidth).newCursorPos = s.newCursorPos := by
  rw [wrapLine]
  split <;> rfl

theorem reset_line_cursor (s : Reflowing) (newHeight : Int) : (s.resetLine newHeight).newCursorPos = s.newCursorPos := by
  rw [resetLine]
  split <;> rfl

theorem reset_line_frame (newHeight : Int) (s : Reflowing) (shaped : s.Shaped newWidth) :
    (s.resetLine newHeight).Shaped newWidth ∧ (s.resetLine newHeight).newX = s.newX ∧
    (s.resetLine newHeight).newY = s.newY ∧
      (s.resetLine newHeight).newYLimit = s.newYLimit ∧ (s.resetLine newHeight).oldBuffer = s.oldBuffer := by
  rw [resetLine]
  split
  · exact ⟨shaped_set_row shaped _ (shaped.rows _), rfl, rfl, rfl, rfl⟩
  · exact ⟨shaped, rfl, rfl, rfl, rfl⟩

theorem track_viewports_frame (oldY : Int) (s : Reflowing) : ∃ mutableTop visibleTop info, s.trackViewports oldY =
      { s with mutableViewportTop := mutableTop, visibleViewportTop := visibleTop, positionInfo := info } := by
  rw [trackViewports, trackVisibleViewport, trackMutableViewport]
  split
  · split
    · exact ⟨_, _, _, rfl⟩
    · exact ⟨_, _, _, rfl⟩
  · split
    · exact ⟨_, _, _, rfl⟩
    · exact ⟨_, _, _, rfl⟩

theorem copy_attributes_frame {newWidth : Int} (copied : copyAttributes newWidth oldRow newRow oldX newX = some changed) :
    ∃ attr, changed = { newRow with attr := attr } := by
  rw [copyAttributes] at copied
  simp only [bind_eq_bind, bind_eq_some_iff, pure_def, Option.some.injEq] at copied
  obtain ⟨_, _, resized, _, isChanged⟩ := copied
  exact ⟨resized, isChanged.symm⟩

def place (row : Row TextAttribute) (newX : Int) (position : Point) (s : Reflowing) : Reflowing :=
  { s with newBuffer := s.newBuffer.setRow s.newY row, newX := newX, newCursorPos := position }

def SameView (s t : Reflowing) : Prop :=
  s.newX = t.newX ∧ s.newY = t.newY ∧ s.oldBuffer = t.oldBuffer ∧ s.newCursorPos = t.newCursorPos ∧
    s.newBuffer.rows = t.newBuffer.rows ∧
    s.newBuffer.firstRow = t.newBuffer.firstRow ∧ s.newBuffer.height = t.newBuffer.height ∧
    s.newBuffer.initialAttributes = t.newBuffer.initialAttributes

def cursorAt (oldCursorPos : Point) (oldY oldX : Int) (row : Row TextAttribute) (s : Reflowing) : Point :=
  if oldY = oldCursorPos.y ∧ oldCursorPos.x ≥ oldX then ⟨row.adjustToGlyphStart (oldCursorPos.x - oldX + s.newX), s.newY⟩
  else s.newCursorPos

structure Pieced (env : Environment) (newWidth : Int) (oldRow : Row TextAttribute) (oldRowLimit oldX newX : Int)
    (target : Row TextAttribute) (state : RowCopyTextFromState) (row : Row TextAttribute) : Prop where
  text : (target.copyTextFrom env (some oldRow) ⟨newX, coordTypeMax, oldX, oldRowLimit, 0, 0, 0, 0⟩).2 = some state
  attributes : copyAttributes newWidth oldRow
    (target.copyTextFrom env (some oldRow) ⟨newX, coordTypeMax, oldX, oldRowLimit, 0, 0, 0, 0⟩).1 oldX newX = some row

structure PieceEnds (oldCursorPos : Point) (newHeight oldY oldX : Int) (state : RowCopyTextFromState) (row : Row TextAttribute)
    (s next : Reflowing) : Prop where
  view : SameView next (s.place row state.columnEnd (s.cursorAt oldCursorPos oldY oldX row))
  newBuffer : next.newBuffer = s.newBuffer.setRow s.newY row
  newYLimit : next.newYLimit = if oldY = oldCursorPos.y ∧ oldCursorPos.x ≥ oldX then s.newY + newHeight else s.newYLimit

variable {env : Environment} {oldRow target row : Row TextAttribute} {oldY oldRowLimit : Int}
  {state : RowCopyTextFromState}

theorem pieced_count {newWidth : Int} (pieced : Pieced env newWidth oldRow oldRowLimit oldX newX target state row) :
    row.columnCount = target.columnCount := by
  obtain ⟨attr, isRow⟩ := copy_attributes_frame pieced.attributes
  have returned := pieced.text
  rw [isRow]
  rcases copy_text_outcome env target (some oldRow) ⟨newX, coordTypeMax, oldX, oldRowLimit, 0, 0, 0, 0⟩ with frame | failed
  · exact frame.columnCount
  · rw [failed] at returned
    cases returned

theorem copy_piece_some {newWidth : Int} (oldCursorPos : Point) (newHeight oldY : Int)
    (pieced : Pieced env newWidth oldRow oldRowLimit oldX s.newX (s.newBuffer.getRow s.newY) state row) :
    ∃ next, s.copyPiece env oldCursorPos newWidth newHeight oldRow oldY oldRowLimit oldX =
      some (state.sourceColumnEnd, next) ∧ PieceEnds oldCursorPos newHeight oldY oldX state row s next := by
  rw [copyPiece, pieced.text, bind_eq_bind, pieced.attributes]
  refine ⟨_, rfl, ?_⟩
  obtain ⟨moved, isMoved⟩ : ∃ moved, moved = { s with newBuffer := s.newBuffer.setRow s.newY row } := ⟨_, rfl⟩
  obtain ⟨mutableTop, visibleTop, info, viewed⟩ :=
    track_viewports_frame oldY (moved.trackCursor oldCursorPos newHeight oldY oldX row)
  simp only [← isMoved]
  rw [viewed, trackCursor]
  by_cases here : oldY = oldCursorPos.y ∧ oldCursorPos.x ≥ oldX
  · refine ⟨?_, ?_, ?_⟩ <;> rw [isMoved, if_pos here]
    · exact ⟨rfl, rfl, rfl, (if_pos here).symm, rfl, rfl, rfl, rfl⟩
    · exact (if_pos here).symm
  · refine ⟨?_, ?_, ?_⟩ <;> rw [isMoved, if_neg here]
    · exact ⟨rfl, rfl, rfl, (if_neg here).symm, rfl, rfl, rfl, rfl⟩
    · exact (if_neg here).symm

theorem copy_piece_cases {newWidth newHeight : Int}
    (copied : s.copyPiece env oldCursorPos newWidth newHeight oldRow oldY oldRowLimit oldX = some next) :
    ∃ state row, Pieced env newWidth oldRow oldRowLimit oldX s.newX (s.newBuffer.getRow s.newY) state row ∧
      next.1 = state.sourceColumnEnd ∧ PieceEnds oldCursorPos newHeight oldY oldX state row s next.2 := by
  have unfolded := copied
  rw [copyPiece] at unfolded
  simp only [bind_eq_bind, bind_eq_some_iff] at unfolded
  obtain ⟨state, returned, row, colored, _⟩ := unfolded
  obtain ⟨other, isOther, ends⟩ := copy_piece_some oldCursorPos newHeight oldY ⟨returned, colored⟩
  rw [copied, Option.some.injEq] at isOther
  rw [isOther]
  exact ⟨state, row, ⟨returned, colored⟩, rfl, ends⟩

end

variable {target : Row TextAttribute}

section

variable (env : Environment) (oldCursorPos : Point) {newWidth : Nat} (narrow : newWidth ≤ charOffsetsMask) (newHeight : Int)
  {oldRow : Row TextAttribute} (models : Represents oldRow glyphs) (oldY : Int) {oldRowLimit : Int}
  (limited : oldRowLimit ≤ oldRow.columnCount)

include narrow models limited

section

variable (started : 0 ≤ oldX ∧ oldX ≤ oldRow.columnCount) (count : target.columnCount = newWidth)
  (bounds : 0 ≤ newX ∧ newX ≤ newWidth)

include started count bounds

omit models in
theorem piece_clamps :
    target.clampedColumnInclusive newX = newX.toNat ∧ target.clampedColumnInclusive coordTypeMax = newWidth ∧
      oldRow.clampedColumnInclusive oldX = oldX.toNat ∧ oldRow.clampedColumnInclusive oldRowLimit = oldRowLimit.toNat := by
  refine ⟨clamped_between (by omega), ?_, clamped_between (by omega), ?_⟩
  · rw [clamped_maximum (by rw [count]; exact narrow), count]
  · rw [Row.clampedColumnInclusive, clamp]
    split <;> omega

theorem piece_columns
    (returned : (target.copyTextFrom env (some oldRow) ⟨newX, coordTypeMax, oldX, oldRowLimit, 0, 0, 0, 0⟩).2 = some state) :
    CopyColumns newX.toNat newWidth oldRow.columnCount glyphs oldX.toNat oldRowLimit.toNat state := by
  obtain ⟨column, limit, first, last⟩ := piece_clamps narrow limited started count bounds
  exact copy_text_columns models (by rw [count]; exact Nat.le_trans narrow (by decide)) returned column limit first last

theorem piece_stays (stays : ¬ (newX.toNat < newWidth ∧ between oldX.toNat oldRowLimit.toNat glyphs ≠ [])) :
    (target.copyTextFrom env (some oldRow) ⟨newX, coordTypeMax, oldX, oldRowLimit, 0, 0, 0, 0⟩).1 = target := by
  obtain ⟨column, limit, first, last⟩ := piece_clamps narrow limited started count bounds
  rw [copy_text_stays env models _ column limit first last stays]

end

theorem copy_piece_step (started : 0 ≤ oldX ∧ oldX ≤ oldRow.columnCount) (shaped : s.Shaped newWidth)
    (room : s.newX < newWidth)
    (copied : s.copyPiece env oldCursorPos newWidth newHeight oldRow oldY oldRowLimit oldX = some next) :
    next.2.Shaped newWidth ∧ next.2.oldBuffer = s.oldBuffer ∧ next.2.newY = s.newY ∧
      next.2.newYLimit = (if oldY = oldCursorPos.y ∧ oldCursorPos.x ≥ oldX then s.newY + newHeight else s.newYLimit) ∧
      (oldRowLimit ≤ next.1 ∨ oldX < next.1 ∨
        (next.1 = oldX ∧ next.2.newX = newWidth ∧ newWidth = s.newX + 1 ∧ oldX + 2 ≤ oldRowLimit ∧
          oldRow.uncheckedIsTrailer (oldX.toNat + 1) = true)) := by
  obtain ⟨state, row, pieced, isEnd, ⟨view, isBuffer, limit⟩⟩ := copy_piece_cases copied
  have isX : next.2.newX = state.columnEnd := view.1
  have isY : next.2.newY = s.newY := view.2.1
  have bounds := shaped.newX
  have columns := piece_columns env narrow models limited started (shaped.rows _) bounds pieced.text
  obtain ⟨range, progress⟩ := copy_columns_step (by omega) (by omega) columns
  have moved := shaped_set_row shaped s.newY ((pieced_count pieced).trans (shaped.rows _))
  refine ⟨⟨fun index => by rw [isBuffer]; exact moved.rows index, by rw [isX]; exact range, by rw [isY]; exact shaped.newY⟩,
    view.2.2.1, isY, limit, ?_⟩
  rw [isEnd, isX]
  rcases progress with ended | further | ⟨same, full, tight, wide, rest, isBetween, isWide⟩
  · exact .inl (by omega)
  · exact .inr (.inl (by omega))
  · have trailer := between_wide models (by omega) isBetween isWide
    exact .inr (.inr ⟨by omega, full, by omega, by omega, trailer.2⟩)

theorem copy_step_cases (started : 0 ≤ oldX ∧ oldX ≤ oldRow.columnCount) (shaped : s.Shaped newWidth)
    (wide : 0 < newWidth) :
    (∃ result, copyStep env oldCursorPos newWidth newHeight oldRow oldY oldRowLimit (oldX, s) = .done result ∧
        ∀ final ∈ result, final.Shaped newWidth ∧ final.oldBuffer = s.oldBuffer) ∨
      ∃ next wrapped, copyStep env oldCursorPos newWidth newHeight oldRow oldY oldRowLimit (oldX, s) = .again next ∧
        wrapped = s.wrapLine newWidth ∧ next.1 < oldRowLimit ∧ next.2.Shaped newWidth ∧ next.2.oldBuffer = s.oldBuffer ∧
        next.2.newY = wrapped.newY ∧ (wrapped.newX = 0 → wrapped.newY < max newHeight wrapped.newYLimit) ∧
        next.2.newYLimit = (if oldY = oldCursorPos.y ∧ oldCursorPos.x ≥ oldX then wrapped.newY + newHeight
          else wrapped.newYLimit) ∧
        (oldX < next.1 ∨ (next.1 = oldX ∧ next.2.newX = newWidth ∧ newWidth = wrapped.newX + 1 ∧
          oldX + 2 ≤ oldRowLimit ∧ oldRow.uncheckedIsTrailer (oldX.toNat + 1) = true)) := by
  obtain ⟨wrapped, isWrapped⟩ : ∃ wrapped, wrapped = s.wrapLine newWidth := ⟨_, rfl⟩
  obtain ⟨wrappedShaped, sameLimit, moved⟩ := wrap_line_cases s shaped
  have sameOld : wrapped.oldBuffer = s.oldBuffer := by
    rw [isWrapped, wrapLine]
    split <;> rfl
  rw [← isWrapped] at wrappedShaped sameLimit moved
  obtain ⟨step, isStep⟩ : ∃ step, copyStep env oldCursorPos newWidth newHeight oldRow oldY oldRowLimit (oldX, s) = step :=
    ⟨_, rfl⟩
  rw [isStep]
  rw [copyStep] at isStep
  simp only [← isWrapped] at isStep
  by_cases broken : wrapped.newY ≥ newHeight ∧ wrapped.newX = 0 ∧ wrapped.newY ≥ wrapped.newYLimit
  · rw [if_pos broken] at isStep
    refine .inl ⟨some wrapped, isStep.symm, fun final isFinal => ?_⟩
    cases isFinal
    exact ⟨wrappedShaped, sameOld⟩
  · rw [if_neg broken] at isStep
    obtain ⟨readyShaped, sameX, sameY, sameYLimit, sameReady⟩ := reset_line_frame newHeight wrapped wrappedShaped
    generalize wrapped.resetLine newHeight = ready at *
    cases copied : ready.copyPiece env oldCursorPos newWidth newHeight oldRow oldY oldRowLimit oldX with
    | none =>
      rw [copied] at isStep
      refine .inl ⟨none, isStep.symm, fun final isFinal => ?_⟩
      cases isFinal
    | some next =>
      obtain ⟨nextShaped, nextOld, nextY, nextLimit, progress⟩ := copy_piece_step env oldCursorPos narrow newHeight
        models oldY limited started readyShaped (by omega) copied
      rw [sameY, sameYLimit] at nextLimit
      rw [sameX] at progress
      rw [copied] at isStep
      simp only at isStep
      by_cases more : next.1 < oldRowLimit
      · rw [if_pos more] at isStep
        refine .inr ⟨next, wrapped, isStep.symm, isWrapped, more,
          nextShaped, by rw [nextOld, sameReady, sameOld], by rw [nextY, sameY],
          ?_, nextLimit, progress.resolve_left (by omega)⟩
        intro atStart
        omega
      · rw [if_neg more] at isStep
        refine .inl ⟨some next.2, isStep.symm, fun final isFinal => ?_⟩
        cases isFinal
        exact ⟨nextShaped, by rw [nextOld, sameReady, sameOld]⟩

end

end Reflowing

open List Nat

section

variable {T : Type} [DecidableEq T] {runs : List (Run T)}

omit [DecidableEq T] in
theorem decode_eq_nil (positive : Positive runs) (empty : decode runs = []) : runs = [] := by
  by_contra nonempty
  have some := total_length_pos positive nonempty
  rw [← decode_length, empty, length_nil] at some
  omega

theorem replace_whole (wellFormed : WellFormed 16 rle) (fits : totalLength runs < 2 ^ 16) :
    rle.replaceRuns 16 0 rle.total runs = some ⟨runs, totalLength runs⟩ := by
  have canonical := wellFormed.canonical
  have front : (cutRuns 0 rle.runs).1 = [] :=
    decode_eq_nil (cut_positive 0 canonical.positive).1 (by simp [(decode_cut 0 rle.runs).1])
  have back : (cutRuns rle.total rle.runs).2 = [] :=
    decode_eq_nil (cut_positive rle.total canonical.positive).2
      (by rw [(decode_cut rle.total rle.runs).2, wellFormed.total, ← decode_length, drop_length])
  rw [Rle.replaceRuns, Rle.checkIndices, min_self, if_neg (not_lt_zero _), Option.map_some,
    replace_unchecked_result wellFormed (zero_le _) (le_refl _) (by omega), front, back, join_nil]
  simp [joinRuns]

theorem resize_leads {rle : Rle T} (wellFormed : WellFormed 16 rle) (nonempty : 0 < rle.total) (newSize : Nat)
    (fits : newSize < 2 ^ 16) :
    ∃ result, rle.resizeTrailingExtent 16 newSize = some result ∧ WellFormed 16 result ∧ result.total = newSize ∧
      ∀ index, index < newSize → index < rle.total → (decode result.runs)[index]? = (decode rle.runs)[index]? := by
  have agrees := Til.Operation.resize_agrees wellFormed fits
  have length : (decode rle.runs).length = rle.total := by simp [wellFormed.total]
  by_cases shorter : newSize ≤ (decode rle.runs).length
  · obtain ⟨result, isResult, formed, values⟩ := Til.Operation.agrees_listed agrees (if_pos shorter)
    refine ⟨result, isResult, formed, ?_, fun index small _ => ?_⟩
    · rw [formed.total, ← decode_length, values, length_take]
      omega
    · rw [values, getElem?_take_of_lt small]
  · have isLast := getLast?_eq_some_getLast (ne_nil_of_length_pos (l := decode rle.runs) (by omega))
    obtain ⟨result, isResult, formed, values⟩ :=
      Til.Operation.agrees_listed agrees ((if_neg shorter).trans (by rw [isLast]; rfl))
    refine ⟨result, isResult, formed, ?_, fun index _ inside => ?_⟩
    · rw [formed.total, ← decode_length, values, length_append, length_replicate]
      omega
    · rw [values, getElem?_append_left (by omega)]

end

namespace Reflowing

theorem copy_attributes_start (newWidth : Int) (oldRow : Row TextAttribute) (oldFormed : WellFormed 16 oldRow.attr) (oldX : Int)
    (newRow : Row TextAttribute) (newFormed : WellFormed 16 newRow.attr) (other : Rle TextAttribute)
    (otherFormed : WellFormed 16 other) :
    copyAttributes newWidth oldRow { newRow with attr := other } oldX 0 = copyAttributes newWidth oldRow newRow oldX 0 := by
  have sliced := Til.Operation.slice_agrees oldFormed (narrow16 oldX) oldRow.attr.total
  have formed : WellFormed 16 (oldRow.attr.slice 16 (narrow16 oldX) oldRow.attr.total) := sliced.1
  have fits : totalLength (oldRow.attr.slice 16 (narrow16 oldX) oldRow.attr.total).runs < 2 ^ 16 := by
    rw [← formed.total]
    exact formed.fits
  have zero : narrow16 0 = 0 := rfl
  simp [copyAttributes, zero, replace_whole otherFormed fits, replace_whole newFormed fits]

variable {newWidth : Nat} (wide : 0 < newWidth) (narrow : newWidth ≤ charOffsetsMask) {oldRow : Row TextAttribute}
  (oldFormed : WellFormed 16 oldRow.attr) (oldNarrow : oldRow.attr.total ≤ charOffsetsMask) {newRow : Row TextAttribute}
  (newFormed : WellFormed 16 newRow.attr) (total : newRow.attr.total = newWidth) (oldX newX : Nat)
  (left : oldX < oldRow.attr.total) (inside : newX ≤ newWidth)

include wide narrow oldFormed oldNarrow newFormed total left inside

theorem copy_attributes_result :
    ∃ attr, copyAttributes newWidth oldRow newRow oldX newX = some { newRow with attr := attr } ∧ WellFormed 16 attr ∧
      attr.total = newWidth ∧ (∀ column, column < newX →
        (decode attr.runs)[column]? = (decode newRow.attr.runs)[column]?) ∧
      ∀ column, newX + column < newWidth → oldX + column < oldRow.attr.total →
        (decode attr.runs)[newX + column]? = (decode oldRow.attr.runs)[oldX + column]? := by
  have mask : charOffsetsMask = 32767 := rfl
  have oldLength : (decode oldRow.attr.runs).length = oldRow.attr.total := by simp [oldFormed.total]
  have newLength : (decode newRow.attr.runs).length = newWidth := by simp [← newFormed.total, total]
  have narrowOld : narrow16 oldX = oldX := narrow_small oldX (by omega)
  have narrowNew : narrow16 newX = newX := narrow_small newX (by omega)
  have narrowWidth : narrow16 newWidth = newWidth := narrow_small newWidth (by omega)
  obtain ⟨slice, isSlice⟩ : ∃ slice, slice = oldRow.attr.slice 16 oldX oldRow.attr.total := ⟨_, rfl⟩
  obtain ⟨sliceFormed, sliced⟩ := Til.Operation.slice_agrees oldFormed oldX oldRow.attr.total
  rw [← isSlice] at sliceFormed sliced
  rw [take_of_length_le (by omega)] at sliced
  have sliceLength : totalLength slice.runs = oldRow.attr.total - oldX := by simp [← decode_length, sliced, oldLength]
  obtain ⟨replaced, isReplaced, replacedFormed, replacedValues⟩ := Til.Operation.agrees_listed
    ((Til.Operation.replace_runs_agrees_iff newFormed newX newRow.attr.total sliceFormed.canonical).mpr
      (.inr (by omega))) (if_neg (by omega))
  rw [Til.Operation.run] at isReplaced
  rw [drop_of_length_le (by omega), append_nil, sliced] at replacedValues
  have replacedTotal : replaced.total = newX + (oldRow.attr.total - oldX) := by
    rw [replacedFormed.total, ← decode_length, replacedValues, length_append, length_take, length_drop]
    omega
  obtain ⟨attr, resized, formed, size, keeps⟩ := resize_leads replacedFormed (by omega) newWidth (by omega)
  refine ⟨attr, ?_, formed, size, fun column before => ?_, fun column fits copied => ?_⟩
  · rw [copyAttributes]
    simp [narrowOld, narrowNew, narrowWidth, ← isSlice, isReplaced, resized]
  · rw [keeps column (by omega) (by omega), replacedValues, getElem?_append_left (by rw [length_take]; omega),
      getElem?_take_of_lt before]
  · rw [keeps (newX + column) fits (by omega), replacedValues, getElem?_append_right (by simp),
      length_take, Nat.min_eq_left (by omega), Nat.add_sub_cancel_left, getElem?_drop]

end Reflowing

end Cogterm.Buffer
