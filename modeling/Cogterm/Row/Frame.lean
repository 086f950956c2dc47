import Cogterm.Row.Operations

namespace Cogterm.Buffer

open Library Til Option WriteHelper
open Unicode (WChar)

variable {Attr : Type}

structure Row.Frame (row changed : Row Attr) : Prop where
  columnCount : changed.columnCount = row.columnCount
  attr : changed.attr = row.attr
  lineRendition : changed.lineRendition = row.lineRendition
  wrapForced : changed.wrapForced = row.wrapForced

variable {row : Row Attr}

theorem frame_refl : row.Frame row := ⟨rfl, rfl, rfl, rfl⟩

theorem frame_trans {first second third : Row Attr} (left : first.Frame second) (right : second.Frame third) :
    first.Frame third :=
  ⟨right.columnCount.trans left.columnCount, right.attr.trans left.attr, right.lineRendition.trans left.lineRendition,
    right.wrapForced.trans left.wrapForced⟩

variable {h : WriteHelper Attr}

section

theorem put_offset_frame : h.row.Frame (h.putOffset offset).row := ⟨rfl, rfl, rfl, rfl⟩

theorem put_trailers_frame (h : WriteHelper Attr) : h.row.Frame (h.putTrailers ch colEndNew fuel).row := by
  induction fuel generalizing h with
  | zero => exact frame_refl
  | succ fuel ih =>
    rw [putTrailers]
    split
    · exact frame_trans put_offset_frame (ih _)
    · exact frame_refl

theorem put_glyph_frame (ch colEndNew : Nat) (h : WriteHelper Attr) : h.row.Frame (h.putGlyph ch colEndNew).row :=
  frame_trans put_offset_frame (put_trailers_frame _)

theorem put_joined_frame : h.row.Frame (putGlyph ch colEndNew { h with colBegDirty := column, colEnd := column }).row :=
  put_glyph_frame ch colEndNew { h with colBegDirty := column, colEnd := column }

theorem helper_replace_characters_frame (width : Int) (h : WriteHelper Attr) : h.row.Frame (h.replaceCharacters width).row := by
  rw [replaceCharacters]
  split
  · exact frame_refl
  · exact put_glyph_frame _ _ h

variable {measure : TextMeasure}

theorem cluster_loop_frame (ch : Nat) (text : List WChar) (h : WriteHelper Attr) :
    h.row.Frame (h.clusterLoop measure fuel ch text).row := by
  induction fuel generalizing ch text h with
  | zero => exact frame_refl
  | succ fuel ih =>
    rw [clusterLoop]
    split
    · exact frame_refl
    simp only
    split
    · exact frame_refl
    · exact frame_trans (put_glyph_frame _ _ h) (ih _ _ _)

theorem replace_text_unicode_frame : h.row.Frame (h.replaceTextUnicode measure ch it).row := by
  rw [replaceTextUnicode]
  split
  · simp only
    split
    · split
      · exact frame_refl
      · refine frame_trans ?_ (cluster_loop_frame _ _ _)
        exact put_joined_frame
    · exact cluster_loop_frame _ _ h
  · exact cluster_loop_frame _ _ { h with colEnd := h.colEnd - 1 }

theorem ascii_loop_frame (ch : Nat) (h : WriteHelper Attr) : h.row.Frame (h.asciiLoop measure text ch).row := by
  induction text generalizing ch h with
  | nil => exact frame_refl
  | cons c rest ih =>
    rw [asciiLoop]
    split
    · exact replace_text_unicode_frame
    · exact frame_trans put_offset_frame (ih _ _)

theorem finish_frame (finished : h.finish heap = some final) : h.row.Frame final.row := by
  obtain ⟨row, resized, isFinal⟩ := map_eq_some_iff.mp finished
  have same : h.row.Frame row := by
    split at resized
    · obtain ⟨_, _, isRow⟩ := map_eq_some_iff.mp resized
      rw [← isRow]
      exact ⟨rfl, rfl, rfl, rfl⟩
    · cases resized
      exact frame_refl
  rw [← isFinal]
  exact { same with }

end

def Row.withAttr (attr : Rle Attr) (row : Row Attr) : Row Attr := { row with attr := attr }

def WriteHelper.withAttr (attr : Rle Attr) (h : WriteHelper Attr) : WriteHelper Attr := { h with row := h.row.withAttr attr }

section

variable (attr : Rle Attr)

theorem adjust_backward_with_attr (row : Row Attr) (column : Nat) :
    (row.withAttr attr).adjustBackward column = row.adjustBackward column := by
  induction column with
  | zero => rfl
  | succ column ih =>
    rw [Row.adjustBackward, ih]
    rfl

theorem adjust_forward_with_attr : (row.withAttr attr).adjustForward column = row.adjustForward column := by
  have loops : ∀ fuel column, (row.withAttr attr).adjustForwardLoop fuel column = row.adjustForwardLoop fuel column := by
    intro fuel
    induction fuel with
    | zero => exact fun _ => rfl
    | succ fuel ih =>
      intro column
      rw [Row.adjustForwardLoop, ih]
      rfl
  exact loops _ column

theorem start_with_attr (row : Row Attr) (columnBegin columnLimit : Int) (chars : List WChar) :
    start (row.withAttr attr) columnBegin columnLimit chars = (start row columnBegin columnLimit chars).withAttr attr := by
  rw [start, adjust_backward_with_attr]
  rfl

theorem finish_with_attr (heap : Heap) (h : WriteHelper Attr) :
    (h.withAttr attr).finish heap = (h.finish heap).map (withAttr attr) := by
  have resize : ∀ colEndDirty chBegDirty chEndDirty chEndDirtyOld,
      (h.row.withAttr attr).resizeChars heap colEndDirty chBegDirty chEndDirty chEndDirtyOld =
        (h.row.resizeChars heap colEndDirty chBegDirty chEndDirty chEndDirtyOld).map (Row.withAttr attr) := by
    intro colEndDirty chBegDirty chEndDirty chEndDirtyOld
    rw [Row.resizeChars, Row.resizeChars, map_map]
    rfl
  have forward : (h.withAttr attr).row.adjustForward (h.withAttr attr).colEndDirty = h.row.adjustForward h.colEndDirty :=
    adjust_forward_with_attr attr
  rw [finish, finish, forward]
  by_cases changed : h.chBegDirty + h.charsConsumed + h.leadingSpaces + narrow16
    (h.row.adjustForward h.colEndDirty - h.colEnd) ≠ h.row.uncheckedCharOffset (h.row.adjustForward h.colEndDirty)
  · rw [if_pos changed, map_map]
    refine (congrArg _ (if_pos changed)).trans ?_
    refine (congrArg _ (resize _ _ _ _)).trans ?_
    rw [map_map]
    rfl
  · rw [if_neg changed]
    refine (congrArg _ (if_neg changed)).trans ?_
    rfl

end

variable [Inhabited Attr]

def Row.Outcome {σ : Type} (row : Row Attr) (outcome : Row Attr × Option σ) : Prop :=
  row.Frame outcome.1 ∨ outcome = (row.reset default, none)

theorem copy_text_with_attr (env : Environment) (attr : Rle Attr) (row source : Row Attr) (state : RowCopyTextFromState) :
    ((row.withAttr attr).copyTextFrom env (some source) state).2 = (row.copyTextFrom env (some source) state).2 ∧
      ∀ final, (row.copyTextFrom env (some source) state).2 = some final →
        ((row.withAttr attr).copyTextFrom env (some source) state).1 =
        (row.copyTextFrom env (some source) state).1.withAttr attr := by
  rw [Row.copyTextFrom, Row.copyTextFrom]
  simp only [getD_some]
  generalize source.clampedColumnInclusive state.sourceColumnBegin = first
  generalize source.clampedColumnInclusive state.sourceColumnLimit = last
  generalize (if first < last then (source.charOffsets.drop first).take (last - first + 1) else []) = charOffsets
  generalize (if first < last then (source.chars.take (charOffsets.getLastD 0 &&& charOffsetsMask)).drop
    (charOffsets.getD 0 0 &&& charOffsetsMask) else []) = chars
  rw [start_with_attr]
  generalize start row state.columnBegin state.columnLimit chars = h
  have copied : (h.withAttr attr).copyTextFrom charOffsets = (h.copyTextFrom charOffsets).withAttr attr := rfl
  have valid : (h.withAttr attr).isValid = h.isValid := rfl
  rw [copied, valid, finish_with_attr]
  split
  · exact ⟨rfl, fun _ _ => rfl⟩
  · cases (h.copyTextFrom charOffsets).finish env.heap with
    | none => exact ⟨rfl, nofun⟩
    | some final => exact ⟨rfl, fun _ _ => rfl⟩

theorem outcome_finish (frame : row.Frame h.row) {value : WriteHelper Attr → σ} :
    row.Outcome (match h.finish heap with
      | none => (row.reset default, none)
      | some final => (final.row, some (value final))) := by
  cases finished : h.finish heap with
  | none => exact Or.inr rfl
  | some final => exact Or.inl (frame_trans frame (finish_frame finished))

section

variable (env : Environment)

theorem replace_characters_outcome {chars : List WChar} : row.Outcome (row.replaceCharacters env columnBegin width chars) := by
  rw [Row.replaceCharacters]
  split
  · refine outcome_finish ?_
    exact helper_replace_characters_frame width (start row columnBegin row.columnCount chars)
  · exact Or.inl frame_refl

theorem replace_text_outcome (row : Row Attr) (state : RowWriteState) : row.Outcome (row.replaceText env state) := by
  rw [Row.replaceText]
  split
  · refine outcome_finish ?_
    exact ascii_loop_frame _ (start row state.columnBegin state.columnLimit state.text)
  · exact Or.inl frame_refl

theorem copy_text_ends (row : Row Attr) (other : Option (Row Attr)) (state : RowCopyTextFromState) :
    row.Outcome (row.copyTextFrom env other state) ∧
      ((row.copyTextFrom env other state).2 = none → (row.copyTextFrom env other state).1 = row.reset default) := by
  rw [Row.copyTextFrom]
  generalize (other.getD row).clampedColumnInclusive state.sourceColumnBegin = first
  generalize (other.getD row).clampedColumnInclusive state.sourceColumnLimit = last
  generalize (if first < last then ((other.getD row).charOffsets.drop first).take (last - first + 1) else []) = charOffsets
  generalize (if first < last then ((other.getD row).chars.take (charOffsets.getLastD 0 &&& charOffsetsMask)).drop
    (charOffsets.getD 0 0 &&& charOffsetsMask) else []) = chars
  split
  · exact ⟨Or.inl frame_refl, nofun⟩
  refine ⟨outcome_finish (by exact ⟨rfl, rfl, rfl, rfl⟩), fun failed => ?_⟩
  split at failed
  · rfl
  · cases failed

theorem copy_text_outcome (row : Row Attr) (other : Option (Row Attr)) (state : RowCopyTextFromState) :
    row.Outcome (row.copyTextFrom env other state) :=
  (copy_text_ends env row other state).1

theorem outcome_count (isOutcome : row.Outcome outcome) : outcome.1.columnCount = row.columnCount := by
  rcases isOutcome with frame | failed
  · exact frame.columnCount
  · rw [failed]
    rfl

theorem copy_from_count (row : Row Attr) (other : Option (Row Attr)) :
    (row.copyFrom env other).1.columnCount = row.columnCount := by
  have count := outcome_count (copy_text_outcome env
    { row with lineRendition := (other.getD row).lineRendition, wrapForced := (other.getD row).wrapForced } other
    ⟨0, coordTypeMax, 0, (other.getD row).getReadableColumnCount, 0, 0, 0, 0⟩)
  rw [Row.copyFrom, Row.copyAttributesFrom]
  generalize Row.copyTextFrom env _ other _ = copied at count ⊢
  split
  · exact count
  · split
    · exact count
    · exact count

end

variable (env : Environment)

theorem write_text_count (finalColumnInRow : Nat) (cell : OutputCellView Attr) (position : Nat) (w : CellWriting Attr) :
    (w.writeText env finalColumnInRow cell position).1.1.columnCount = w.row.columnCount := by
  have replaced : ∀ column width chars, (w.row.replaceCharacters env column width chars).1.columnCount = w.row.columnCount :=
    fun column width chars => outcome_count (replace_characters_outcome env)
  rw [CellWriting.writeText]
  cases cell.dbcsAttr with
  | leading =>
    dsimp only
    split
    · exact replaced _ _ _
    · exact replaced _ _ _
  | trailing =>
    dsimp only
    split
    · exact replaced _ _ _
    · split
      · exact replaced _ _ _
      · rfl
  | single => exact replaced _ _ _

variable [DecidableEq Attr]

theorem write_cell_count {cell : OutputCellView Attr} {position : Nat} {rest : List (OutputCellView Attr × Nat)}
    {w next : CellWriting Attr} (written : (w.writeCell env wrap finalColumnInRow cell position rest).2 = some next) :
    next.row.columnCount = w.row.columnCount := by
  have colored : ∀ colored, w.writeColor cell = some colored → colored.row.columnCount = w.row.columnCount := by
    intro colored isColored
    rw [CellWriting.writeColor] at isColored
    split at isColored
    · cases isColored
      rfl
    split at isColored
    · cases isColored
      rfl
    · obtain ⟨attr, _, isColored⟩ := map_eq_some_iff.mp isColored
      rw [← isColored]
  rw [CellWriting.writeCell] at written
  split at written
  · cases written
  rename_i changed isColored
  have same := colored changed isColored
  split at written
  · cases written
    exact same
  have count := (write_text_count env finalColumnInRow cell position changed).trans same
  dsimp only at written
  split at written
  · cases written
  cases written
  split
  · exact count
  · exact count

theorem write_cells_loop_count (wrap : Option Bool) (finalColumnInRow fuel : Nat) (w final : CellWriting Attr)
    (written : (w.writeCellsLoop env wrap finalColumnInRow fuel).2 = some final) : final.row.columnCount = w.row.columnCount := by
  induction fuel generalizing w with
  | zero =>
    cases written
    rfl
  | succ fuel ih =>
    rw [CellWriting.writeCellsLoop] at written
    split at written
    · cases written
      rfl
    split at written
    · dsimp only at written
      split at written
      · cases written
      · rename_i following next
        exact (ih following written).trans (write_cell_count env next)
    · cases written
      rfl

theorem write_cells_count (written : (row.writeCells env it columnBegin wrap limitRight).2 = some rest) :
    (row.writeCells env it columnBegin wrap limitRight).1.columnCount = row.columnCount := by
  rw [Row.writeCells] at written ⊢
  split at written
  · cases written
  rename_i inside
  rw [if_neg inside]
  dsimp only at written ⊢
  have count := write_cells_loop_count env wrap (narrow16 (limitRight.getD (row.columnCount - 1))) (2 * it.cells.length + 1)
    (row.startCells it columnBegin)
  generalize (row.startCells it columnBegin).writeCellsLoop env wrap _ _ = looped at *
  split at written
  · cases written
  rename_i w ended
  have same : w.row.columnCount = row.columnCount := count w ended
  split
  · exact same
  · split
    · exact same
    · exact same

end Cogterm.Buffer
