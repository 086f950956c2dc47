import Cogterm.Row.CopyText
import Cogterm.Row.Settled

namespace Cogterm.Buffer

open Library Glyphs List Bool
open Unicode (WChar)

section

variable {Attr : Type}

theorem start_valid (row : Row Attr) (columnBegin columnLimit : Int) (chars : List WChar) :
    (WriteHelper.start row columnBegin columnLimit chars).isValid = true ↔
      row.clampedColumnInclusive columnBegin < row.clampedColumnInclusive columnLimit ∧ chars ≠ [] := by
  rw [WriteHelper.isValid, and_eq_true, decide_eq_true_iff, not_eq_true', isEmpty_eq_false_iff]
  rfl

theorem written_rest (row : Row Attr) (initial h : WriteHelper Attr) (before : List WChar) (layout : Layout)
    (written : Written row initial h before layout) : initial.chars.drop h.charsConsumed = layout.rest := by
  have longer := written.longer
  have dropped := congrArg (List.drop (text layout.front).length) written.text
  rw [drop_left, show (text layout.front).length = before.length + h.charsConsumed by rw [written.consumed]; omega,
    drop_length_add_append] at dropped
  exact dropped.symm

theorem settled_rest (written : Written row initial h before layout) (settled : Settled row glyphs layout h final) :
    initial.chars.drop final.charsConsumed = layout.rest := by
  rw [congrArg WriteHelper.charsConsumed settled.helper]
  exact written_rest row initial h before layout written

variable {layout : Layout}

theorem settled_column_end (written : Written row initial h before layout) (settled : Settled row glyphs layout h final) :
    (if (initial.chars.drop final.charsConsumed).isEmpty then (final.colEnd : Int) else final.colLimit) =
      layout.columnEnd initial.colLimit := by
  have helper := settled.helper
  have charsConsumed := congrArg WriteHelper.charsConsumed helper
  have colEnd := congrArg WriteHelper.colEnd helper
  have colLimit := congrArg WriteHelper.colLimit helper
  rw [charsConsumed, colEnd, colLimit, progress_col_end written.progress, progress_col_limit written.progress]
  rw [written_rest row initial h before layout written, Layout.columnEnd]
  split <;> rfl

theorem replace_characters_written (models : Represents row glyphs) {initial : WriteHelper Attr}
    (started : Started row glyphs initial) (valid : initial.colBeg < initial.colLimit)
    (columnCount : row.columnCount ≤ 0xFFFD) (glyph : Glyph) (isText : glyph.text = initial.chars) :
    let layout := layoutGlyph initial.colLimit (leadIn initial.colBeg glyphs) glyph
    Written row initial (initial.replaceCharacters glyph.width) (text (leadIn initial.colBeg glyphs)) layout ∧
      KeepsLead glyphs initial (initial.replaceCharacters glyph.width) layout := by
  have room := room_for_limit models started
  have narrow := offsets_narrow models columnCount
  have width := lead_in_columns glyphs initial.colBeg started.colBeg
  have progress := progress_initial models started valid
  have colEndNew : narrow16 (initial.colEnd + glyph.width) = columns (leadIn initial.colBeg glyphs) + glyph.width := by
    have small := glyph.narrow
    rw [started.colEnd, narrow16]
    omega
  simp only [layoutGlyph, WriteHelper.replaceCharacters, colEndNew]
  by_cases fits : initial.colLimit < columns (leadIn initial.colBeg glyphs) + glyph.width
  · rw [if_pos fits, if_pos fits]
    refine ⟨⟨progress_exit progress (Nat.le_of_lt valid) (Nat.le_refl _), rfl, ?_,
      Nat.le_refl _, by rw [isText]⟩, keeps_lead_in started rfl [] (append_nil _).symm⟩
    simpa using started.charsConsumed
  · rw [if_neg fits, if_neg fits]
    obtain ⟨put, begDirty⟩ := progress_glyph room narrow progress glyph started.chBeg (Nat.le_of_not_lt fits)
    have further : columns (leadIn initial.colBeg glyphs ++ [glyph]) = columns (leadIn initial.colBeg glyphs) + glyph.width := by
      simp
    have behind : initial.colBeg ≤ columns (leadIn initial.colBeg glyphs) + glyph.width := by omega
    refine ⟨⟨progress_exit put (Nat.max_le.mpr ⟨behind, Nat.le_refl _⟩) (Nat.le_of_not_lt fits), ?_, ?_, ?_, ?_⟩,
      keeps_lead_in started begDirty [glyph] rfl⟩
    · exact (progress_col_end put).trans further
    · simp only [progress_chars put, ← isText]
      simp
    · simp
    · simp [isText]

variable [Inhabited Attr]

structure Updates (row changed : Row Attr) (result : Glyphs) : Prop where
  frame : changed =
    { row with
      chars := changed.chars
      charOffsets := changed.charOffsets
      doubleBytePadded := changed.doubleBytePadded }
  charSize : changed.charSize = (text result).length
  models : (text result).length ≤ charOffsetsMask → Represents changed result

def Performs {σ : Type} (heap : Heap) (row : Row Attr) (result : Glyphs) (returns : σ → Prop)
    (outcome : Row Attr × Option σ) : Prop :=
  (Refused heap row (text result).length ∧ outcome = (row.reset default, none)) ∨
    (¬ Refused heap row (text result).length ∧ (∃ value, outcome.2 = some value ∧ returns value) ∧
      Updates row outcome.1 result)

section

variable {σ : Type} (heap : Heap) {row : Row Attr} {glyphs : Glyphs} (models : Represents row glyphs)

include models

omit [Inhabited Attr] in
theorem represented_char_size : row.charSize = (text glyphs).length := by
  simp [Row.charSize, models.offsets, ← models.columns, encode]

omit [Inhabited Attr] in
theorem stored_not_refused : ¬ Refused heap row (text glyphs).length := by
  obtain ⟨spare, isChars⟩ := models.chars
  have capacity := models.capacity
  rw [isChars, length_append] at capacity
  rintro (large | ⟨long, _⟩)
  · omega
  · rw [isChars, length_append] at long
    omega

theorem performs_nothing (returned : returns value) : Performs heap row glyphs returns (row, some value) :=
  Or.inr ⟨stored_not_refused heap models, ⟨value, rfl, returned⟩, rfl, represented_char_size models, fun _ => models⟩

theorem performs_finish (started : Started row glyphs initial) (columnCount : row.columnCount ≤ 0xFFFD)
    (written : Written row initial h (text (leadIn initial.colBeg glyphs)) layout) (keeps : KeepsLead glyphs initial h layout)
    (value : WriteHelper Attr → σ) (returns : σ → Prop)
    (returned : ∀ final, Settled row glyphs layout h final → returns (value final))
    (isOutcome : outcome = match h.finish heap with
      | none => (row.reset default, none)
      | some final => (final.row, some (value final))) :
    Performs heap row (settle glyphs layout) returns outcome := by
  rcases finish_settles models started columnCount written keeps heap with
    ⟨refused, failed⟩ | ⟨accepted, final, finished, settled⟩
  · rw [failed] at isOutcome
    exact Or.inl ⟨refused, isOutcome⟩
  · rw [finished] at isOutcome
    rw [isOutcome]
    exact Or.inr ⟨accepted, ⟨value final, rfl, returned final settled⟩, settled.row, settled.charSize, settled.models⟩

end

structure Reports (measure : TextMeasure) (glyphs : Glyphs) (column limit : Nat) (state final : RowWriteState) : Prop where
  columnBegin : final.columnBegin = state.columnBegin
  columnLimit : final.columnLimit = state.columnLimit
  columnEnd : final.columnEnd = replacedEnd measure glyphs column limit state.text
  text : column < limit ∧ state.text ≠ [] → final.text = (textLayout measure glyphs column limit state.text).rest

structure Copied (row : Row Attr) (glyphs : Glyphs) (layout : Layout) (column limit first : Nat) (state : RowCopyTextFromState)
    (changed : Row Attr) (final : RowCopyTextFromState) : Prop where
  frame : changed =
    { row with
      chars := changed.chars
      charOffsets := changed.charOffsets
      doubleBytePadded := changed.doubleBytePadded }
  charSize : changed.charSize = (text (settle glyphs layout)).length
  models : (text (settle glyphs layout)).length ≤ charOffsetsMask → Represents changed (settle glyphs layout)
  padded : changed.doubleBytePadded =
    if columns (dropColumns layout.endDirty glyphs) = 0 then decide (columns layout.front < columns glyphs)
    else row.doubleBytePadded
  columnBegin : final.columnBegin = state.columnBegin
  columnEnd : final.columnEnd = layout.columnEnd limit
  sourceColumnEnd : final.sourceColumnEnd = first + columns layout.front - column

-- Nothing is copied without columns to copy to and glyphs to copy.
def CopyOutcome (heap : Heap) (row : Row Attr) (glyphs : Glyphs) (column limit sourceCount : Nat) (source : Glyphs)
    (first last : Nat) (state : RowCopyTextFromState) (outcome : Row Attr × Option RowCopyTextFromState) : Prop :=
  let copies := column < limit ∧ between first last source ≠ []
  let layout := layoutGlyphs (min (limit - column) (last - first)) (leadIn column glyphs) (between first last source)
  (¬ copies ∧ outcome = (row, some
      { state with
        columnEnd := column
        columnBeginDirty := column
        columnEndDirty := column
        sourceColumnEnd := sourceCount })) ∨
    (copies ∧ Refused heap row (text (settle glyphs layout)).length ∧ outcome = (row.reset default, none)) ∨
    (copies ∧ ¬ Refused heap row (text (settle glyphs layout)).length ∧
      ∃ final, outcome.2 = some final ∧ Copied row glyphs layout column limit first state outcome.1 final)

theorem copy_finishes (models : Represents row glyphs)
    (columnCount : row.columnCount ≤ 0xFFFD) (started : Started row glyphs initial)
    (copies : initial.colBeg < initial.colLimit ∧ between first last source ≠ [])
    {outcome : Row Attr × Option RowCopyTextFromState}
    (written : Written row initial h (text (leadIn initial.colBeg glyphs))
      (layoutGlyphs (min (initial.colLimit - initial.colBeg) (last - first)) (leadIn initial.colBeg glyphs)
        (between first last source)))
    (keeps : KeepsLead glyphs initial h
      (layoutGlyphs (min (initial.colLimit - initial.colBeg) (last - first)) (leadIn initial.colBeg glyphs)
        (between first last source)))
    (isOutcome : outcome = match h.finish heap with
      | none => (row.reset default, none)
      | some h => (h.row, some
          { state with
            columnEnd := if h.charsConsumed = initial.chars.length then h.colEnd else h.colLimit
            columnBeginDirty := h.colBegDirty
            columnEndDirty := h.colEndDirty
            sourceColumnEnd := first + h.colEnd - h.colBeg })) :
    CopyOutcome heap row glyphs initial.colBeg initial.colLimit sourceCount source first last state outcome := by
  rw [CopyOutcome]
  generalize layoutGlyphs (min (initial.colLimit - initial.colBeg) (last - first)) (leadIn initial.colBeg glyphs)
    (between first last source) = layout at *
  rcases finish_settles models started columnCount written keeps heap with
    ⟨refused, failed⟩ | ⟨accepted, final, finished, settled⟩
  · rw [failed] at isOutcome
    exact Or.inr (Or.inl ⟨copies, refused, isOutcome⟩)
  rw [finished] at isOutcome
  refine Or.inr (Or.inr ⟨copies, accepted, _, congrArg Prod.snd isOutcome, ?_⟩)
  rw [isOutcome]
  have helper := settled.helper
  have charsConsumed := congrArg WriteHelper.charsConsumed helper
  have colEnd := congrArg WriteHelper.colEnd helper
  have colLimit := congrArg WriteHelper.colLimit helper
  have colBeg := congrArg WriteHelper.colBeg helper
  have length := congrArg List.length written.text
  have consumed := written.consumed
  have longer := written.longer
  rw [length_append, length_append] at length
  refine ⟨settled.row, settled.charSize, settled.models, settled.padded, rfl, ?_, ?_⟩
  · simp only [charsConsumed, colEnd, colLimit]
    rw [progress_col_end written.progress, progress_col_limit written.progress, Layout.columnEnd]
    by_cases rest : layout.rest = []
    · rw [rest, length_nil] at length
      rw [if_pos (by omega), rest]
      rfl
    · have positive := length_pos_of_ne_nil rest
      rw [if_neg (by omega), if_neg (by rwa [List.isEmpty_iff])]
  · have sameBegin : h.colBeg = initial.colBeg := by rw [written.progress.frame]
    simp only [colEnd, colBeg, sameBegin]
    rw [progress_col_end written.progress]

section

variable (env : Environment) {row source : Row Attr} (sourceModels : Represents source sourceGlyphs)
  (state : RowCopyTextFromState) {column limit first last : Nat}
  (isColumn : row.clampedColumnInclusive state.columnBegin = column)
  (isLimit : row.clampedColumnInclusive state.columnLimit = limit)
  (isFirst : source.clampedColumnInclusive state.sourceColumnBegin = first)
  (isLast : source.clampedColumnInclusive state.sourceColumnLimit = last)

include sourceModels isColumn isLimit isFirst isLast

theorem copy_text_starts (copies : column < limit ∧ between first last sourceGlyphs ≠ []) :
    ∃ charOffsets chars start rest, Span charOffsets chars start (last - first) rest (between first last sourceGlyphs) ∧
      row.copyTextFrom env (some source) state =
        match ((WriteHelper.start row state.columnBegin state.columnLimit chars).copyTextFrom charOffsets).finish env.heap with
        | none => (row.reset default, none)
        | some h => (h.row, some
            { state with
              columnEnd := if h.charsConsumed = chars.length then h.colEnd else h.colLimit
              columnBeginDirty := h.colBegDirty
              columnEndDirty := h.colEndDirty
              sourceColumnEnd := first + h.colEnd - h.colBeg }) := by
  rw [Row.copyTextFrom]
  have inside := clamped_le source state.sourceColumnLimit
  simp only [Option.getD_some, isFirst, isLast] at inside ⊢
  have order : first < last := by
    by_contra order
    rw [between, Nat.sub_eq_zero_of_le (Nat.le_of_not_lt order), take_columns_zero, ite_self] at copies
    exact copies.2 rfl
  have boundary : columns (takeColumns first sourceGlyphs) = first := by
    by_contra cut
    rw [between, if_neg cut] at copies
    exact copies.2 rfl
  simp only [if_pos order]
  obtain ⟨span, plain⟩ := source_span sourceModels order inside boundary rfl
  generalize (source.charOffsets.drop first).take (last - first + 1) = charOffsets at *
  generalize (source.chars.take (charOffsets.getLastD 0 &&& charOffsetsMask)).drop (charOffsets.getD 0 0 &&& charOffsetsMask) =
    chars at *
  have valid := (start_valid row state.columnBegin state.columnLimit chars).mpr
    ⟨by rw [isColumn, isLimit]; exact copies.1, by rw [span.isChars]; exact mt (text_nil_iff _).mp copies.2⟩
  have long : ¬ charOffsets.length < 2 := by
    have most := span.inside
    rw [span.isOffsets, length_take, encode_length]
    omega
  simp only [valid, plain, long, bne_self_eq_false]
  exact ⟨charOffsets, chars, _, _, span, rfl⟩

theorem copy_text_stays (stays : ¬ (column < limit ∧ between first last sourceGlyphs ≠ [])) :
    row.copyTextFrom env (some source) state = (row, some
      { state with
        columnEnd := column
        columnBeginDirty := column
        columnEndDirty := column
        sourceColumnEnd := source.columnCount }) := by
  rw [Row.copyTextFrom]
  have inside := clamped_le source state.sourceColumnLimit
  have before := clamped_le source state.sourceColumnBegin
  subst isColumn
  simp only [Option.getD_some, isFirst, isLast] at inside before ⊢
  generalize isOffsets : (if first < last then (source.charOffsets.drop first).take (last - first + 1) else []) = charOffsets
  generalize isChars : (if first < last then (source.chars.take (charOffsets.getLastD 0 &&& charOffsetsMask)).drop
    (charOffsets.getD 0 0 &&& charOffsetsMask) else []) = chars
  refine if_pos ?_
  by_cases valid : (WriteHelper.start row state.columnBegin state.columnLimit chars).isValid = true
  · obtain ⟨limited, nonempty⟩ := (start_valid row state.columnBegin state.columnLimit chars).mp valid
    rw [isLimit] at limited
    have order : first < last := by
      by_contra order
      rw [if_neg order] at isChars
      exact nonempty isChars.symm
    rw [if_pos order] at isOffsets isChars
    have cut : columns (takeColumns first sourceGlyphs) ≠ first := by
      intro boundary
      have span := (source_span sourceModels order inside boundary isOffsets.symm).1
      rw [isChars] at span
      exact stays ⟨limited, fun none => nonempty (by rw [span.isChars, none]; rfl)⟩
    have trailer := source_inside sourceModels last before cut
    rw [isOffsets] at trailer
    rw [trailer, or_eq_true]
    exact Or.inr rfl
  · rw [eq_false_of_not_eq_true valid]
    rfl

variable {glyphs : Glyphs} (models : Represents row glyphs) (columnCount : row.columnCount ≤ 0xFFFD)

include models columnCount

theorem copy_text_cases : CopyOutcome env.heap row glyphs column limit source.columnCount sourceGlyphs first last state
    (row.copyTextFrom env (some source) state) := by
  by_cases copies : column < limit ∧ between first last sourceGlyphs ≠ []
  · obtain ⟨charOffsets, chars, start, rest, span, unfolded⟩ :=
      copy_text_starts env sourceModels state isColumn isLimit isFirst isLast copies
    have begins := started row glyphs models state.columnBegin state.columnLimit chars
    subst isColumn isLimit
    obtain ⟨written, keeps⟩ := copy_text_written models begins copies.1 columnCount span
    exact copy_finishes models columnCount begins copies written keeps unfolded
  · exact Or.inl ⟨copies, copy_text_stays env sourceModels state isColumn isLimit isFirst isLast copies⟩

theorem copy_text_performs : Performs env.heap row (copyText glyphs column limit sourceGlyphs first last) (fun _ => True)
    (row.copyTextFrom env (some source) state) := by
  rcases copy_text_cases env sourceModels state isColumn isLimit isFirst isLast models columnCount with
    ⟨stays, same⟩ | ⟨copies, refused, failed⟩ | ⟨copies, accepted, final, returned, copied⟩
  · rw [copyText, if_neg stays, same]
    exact performs_nothing env.heap models trivial
  · rw [copyText, if_pos copies]
    exact Or.inl ⟨refused, failed⟩
  · rw [copyText, if_pos copies]
    exact Or.inr ⟨accepted, ⟨final, returned, trivial⟩, copied.frame, copied.charSize, copied.models⟩

end

section

variable (env : Environment) {row : Row Attr} {glyphs : Glyphs} (models : Represents row glyphs)
  (columnCount : row.columnCount ≤ 0xFFFD)

include models columnCount

theorem replace_text_performs (state : RowWriteState) : Performs env.heap row
      (replaceText env.measure glyphs (row.clampedColumnInclusive state.columnBegin)
        (row.clampedColumnInclusive state.columnLimit) state.text)
      (Reports env.measure glyphs (row.clampedColumnInclusive state.columnBegin)
        (row.clampedColumnInclusive state.columnLimit) state)
      (row.replaceText env state) := by
  have begins := started row glyphs models state.columnBegin state.columnLimit state.text
  have isValid := start_valid row state.columnBegin state.columnLimit state.text
  by_cases valid : row.clampedColumnInclusive state.columnBegin < row.clampedColumnInclusive state.columnLimit ∧
    state.text ≠ []
  · obtain ⟨written, keeps⟩ := replace_text_written models begins valid.1 columnCount env.measure valid.2
    rw [replaceText, if_pos valid, Row.replaceText]
    simp only [isValid.mpr valid]
    refine performs_finish env.heap models begins columnCount written keeps _ _ ?_ rfl
    intro final settled
    refine ⟨rfl, rfl, ?_, fun _ => settled_rest written settled⟩
    rw [replacedEnd, if_pos valid]
    exact settled_column_end written settled
  · rw [replaceText, if_neg valid, Row.replaceText]
    simp only [mt isValid.mp valid]
    exact performs_nothing env.heap models ⟨rfl, rfl, by rw [replacedEnd, if_neg valid]; rfl, fun some => absurd some valid⟩

theorem replace_characters_performs (columnBegin : Int) (glyph : Glyph) :
    Performs env.heap row (replaceGlyph glyphs (row.clampedColumnInclusive columnBegin) row.columnCount glyph) (fun _ => True)
      (row.replaceCharacters env columnBegin glyph.width glyph.text) := by
  have begins := started row glyphs models columnBegin row.columnCount glyph.text
  have isValid := start_valid row columnBegin row.columnCount glyph.text
  have limit := clamped_above row row.columnCount (Int.le_refl _)
  rw [limit] at isValid
  by_cases valid : row.clampedColumnInclusive columnBegin < row.columnCount
  · have inside : (WriteHelper.start row columnBegin row.columnCount glyph.text).colBeg <
        (WriteHelper.start row columnBegin row.columnCount glyph.text).colLimit := by
      rw [WriteHelper.start, limit]
      exact valid
    obtain ⟨written, keeps⟩ := replace_characters_written models begins inside columnCount glyph rfl
    have performs := performs_finish env.heap models begins columnCount written keeps (fun _ => ())
      (fun _ => True) (fun _ _ => trivial) rfl
    rw [replaceGlyph, if_pos valid, Row.replaceCharacters]
    simp only [isValid.mpr ⟨valid, glyph.written⟩]
    simp only [WriteHelper.start, limit] at performs ⊢
    exact performs
  · rw [replaceGlyph, if_neg valid, Row.replaceCharacters]
    simp only [mt isValid.mp (fun both => valid both.1)]
    exact performs_nothing env.heap models trivial

end

end

variable {measure : TextMeasure}

theorem layout_clusters_le (front : Glyphs) (chars : List WChar)
    (inside : columns front ≤ limit) : columns (layoutClusters measure limit fuel front chars).front ≤ limit := by
  induction fuel generalizing front chars with
  | zero => exact inside
  | succ fuel ih =>
    rw [layoutClusters]
    split
    · simp only
      split
      · exact inside
      · refine ih _ _ ?_
        rw [columns_append, columns_cons, columns_nil]
        omega
    · exact inside

variable {front : Glyphs}

theorem layout_unicode_le
    (inside : columns front ≤ limit) : columns (layoutUnicode measure limit front previous chars).front ≤ limit := by
  rw [layoutUnicode]
  split
  · simp only
    split
    · exact inside
    · refine layout_clusters_le _ _ ?_
      rw [columns_append, columns_cons, columns_nil]
      omega
  · exact layout_clusters_le _ _ inside

theorem layout_text_le (measure : TextMeasure) (previous chars : List WChar) (isColumn : columns front = column)
    (inside : column ≤ limit) : columns (layoutText measure limit column front previous chars).front ≤ limit := by
  have taken : ((chars.take (limit - column)).takeWhile isAscii).length ≤ limit - column :=
    Nat.le_trans (List.IsPrefix.length_le <| takeWhile_prefix _) (length_take_le _ _)
  rw [layoutText]
  split
  · rw [columns_append, columns_of_chars]
    omega
  split
  · exact layout_unicode_le (by omega)
  · refine layout_clusters_le _ _ ?_
    rw [columns_append, columns_of_chars, length_dropLast]
    omega

theorem replaced_end_le (measure : TextMeasure) (glyphs : Glyphs) (column limit : Nat) (chars : List WChar)
    (inside : column ≤ columns glyphs) : replacedEnd measure glyphs column limit chars ≤ max column limit := by
  rw [replacedEnd]
  split
  · next valid =>
      rw [Layout.columnEnd]
      split
      · have laid := layout_text_le measure (previousText column glyphs) chars
          (lead_in_columns glyphs column inside) (Nat.le_of_lt valid.1)
        omega
      · exact Nat.le_max_right _ _
  · exact Nat.le_max_left _ _

end Cogterm.Buffer
