import Cogterm.Row.Glyphs

namespace Cogterm.Buffer

open Library Glyphs List Nat WriteHelper
open Unicode (WChar)

variable {Attr : Type}

structure Started (row : Row Attr) (glyphs : Glyphs) (h : WriteHelper Attr) : Prop where
  row : h.row = row
  colBeg : h.colBeg ≤ columns glyphs
  colLimit : h.colLimit ≤ columns glyphs
  colEnd : h.colEnd = h.colBeg
  colBegDirty : h.colBegDirty = columns (takeColumns h.colBeg glyphs)
  chBegDirty : h.chBegDirty = (text (takeColumns h.colBeg glyphs)).length
  leadingSpaces : h.leadingSpaces = h.colBeg - columns (takeColumns h.colBeg glyphs)
  chBeg : h.chBeg = (text (leadIn h.colBeg glyphs)).length
  charsConsumed : h.charsConsumed = 0

theorem clamped_le (row : Row Attr) (column : Int) : row.clampedColumnInclusive column ≤ row.columnCount := by
  rw [Row.clampedColumnInclusive, clamp]
  split
  · omega
  · split <;> omega

theorem clamped_between {row : Row Attr} {column : Int} (inside : 0 ≤ column ∧ column ≤ row.columnCount) :
    row.clampedColumnInclusive column = column.toNat := by
  rw [Row.clampedColumnInclusive, clamp]
  split <;> omega

theorem clamped_inside {row : Row Attr} {column : Nat} (inside : column ≤ row.columnCount) :
    row.clampedColumnInclusive column = column :=
  clamped_between (by omega)

theorem clamped_above (row : Row Attr) (column : Int) (above : row.columnCount ≤ column) :
    row.clampedColumnInclusive column = row.columnCount := by
  rw [Row.clampedColumnInclusive, clamp]
  split
  · omega
  · split <;> omega

theorem started (row : Row Attr) (glyphs : Glyphs) (models : Represents row glyphs) (columnBegin columnLimit : Int)
    (chars : List WChar) : Started row glyphs (start row columnBegin columnLimit chars) := by
  have colBeg := clamped_le row columnBegin
  have colLimit := clamped_le row columnLimit
  rw [← models.columns] at colBeg colLimit
  obtain ⟨backward, offset⟩ := located_backward row models.fits _ colBeg models.offsets
  have near := take_columns_near glyphs _ colBeg
  have leading : narrow16 ((row.clampedColumnInclusive columnBegin : Nat) -
      (columns (takeColumns (row.clampedColumnInclusive columnBegin) glyphs) : Nat)) =
      row.clampedColumnInclusive columnBegin - columns (takeColumns (row.clampedColumnInclusive columnBegin) glyphs) := by
    rw [narrow16]
    omega
  refine ⟨rfl, colBeg, colLimit, rfl, backward, offset, ?_, ?_, rfl⟩
  · simp only [start]
    rw [backward, leading]
  · have before : (text (takeColumns (row.clampedColumnInclusive columnBegin) glyphs)).length ≤ charOffsetsMask := by
      rw [← offset]
      exact and_le_right
    simp only [start]
    rw [backward, leadIn, text_append, length_append, text_spaces, length_replicate, narrow16]
    rw [charOffsetsMask] at before
    omega

def Encodes (items : List Nat) (front : Glyphs) : Prop :=
  ∀ shown more, front = shown ++ more → (text shown).length ≤ charOffsetsMask →
    items.take (columns shown) = Glyphs.offsets 0 shown

theorem encodes_of_offsets {front : Glyphs} (offsets : items.take (columns front) = Glyphs.offsets 0 front) :
    Encodes items front := by
  intro shown more split _
  have cut := congrArg (List.take (columns shown)) offsets
  rw [take_take, split, columns_append, offsets_append, ← offsets_length 0 shown] at cut
  simpa using cut

theorem encodes_shorter {front : Glyphs} (more : Glyphs) (encodes : Encodes items (front ++ more)) : Encodes items front := by
  intro shown others split small
  exact encodes shown (others ++ more) (by simp [split]) small

structure Progress (row : Row Attr) (initial h : WriteHelper Attr) (front : Glyphs) (mark : Nat) : Prop where
  frame : h = { initial with
      row := { row with charOffsets := h.row.charOffsets }
      colEnd := columns front
      colBegDirty := h.colBegDirty
      colEndDirty := h.colEndDirty
      charsConsumed := h.charsConsumed }
  length : h.row.charOffsets.length = row.charOffsets.length
  encoded : Encodes h.row.charOffsets front
  untouched : h.row.charOffsets.drop mark = row.charOffsets.drop mark
  reached : columns front ≤ mark
  limited : mark ≤ initial.colLimit

def storedOffsets (ch width : Nat) : List Nat :=
  narrow16 ch :: List.replicate (width - 1) (narrow16 (ch ||| charOffsetsTrailer : Nat))

variable {glyph : Glyph}

theorem stored_offsets {start : Nat} (small : start < charOffsetsTrailer) :
    storedOffsets start glyph.width = glyph.offsets start := by
  have limit : charOffsetsTrailer = 32768 := rfl
  rw [storedOffsets, Glyph.offsets, or_trailer small, narrow_small start (by omega), narrow_small _ (by omega)]

theorem encodes_glyph {front : Glyphs} (encodes : Encodes items front)
    (inside : columns front ≤ items.length) {ch : Nat} (isEnd : ch = (text front).length) :
    Encodes (overwriteAt items (columns front) (storedOffsets ch glyph.width)) (front ++ [glyph]) := by
  intro shown more split small
  rcases eq_nil_or_concat' more with rfl | ⟨others, last, rfl⟩
  · rw [append_nil] at split
    rw [← split] at small ⊢
    have start : ch < charOffsetsTrailer := by
      rw [text_append, length_append, charOffsetsMask] at small
      rw [isEnd, charOffsetsTrailer]
      omega
    have before := encodes front [] (append_nil front).symm (by rw [text_append, length_append] at small; omega)
    have written := take_overwrite items (storedOffsets ch glyph.width) (columns front) inside
    rw [before, stored_offsets start, Glyph.offsets_length] at written
    simp [stored_offsets start, written, offsets_append, ← isEnd, Glyphs.offsets]
  · rw [← append_assoc] at split
    have isFront := (append_inj' split rfl).1
    have order : columns shown ≤ columns front := by simp [isFront]
    rw [take_overwrite_before order inside]
    exact encodes shown others isFront small

theorem put_glyph (ch : Nat) {width : Nat} (h : WriteHelper Attr) (positive : 0 < width) (narrow : width ≤ 2)
    (inside : h.colEnd + width ≤ h.row.charOffsets.length) (small : h.colEnd + width < 65536) :
    putGlyph ch (h.colEnd + width) h = { h with
        row := { h.row with charOffsets := overwriteAt h.row.charOffsets h.colEnd (storedOffsets ch width) }
        colEnd := h.colEnd + width } := by
  have first : h.putOffset ch = { h with
        row := { h.row with charOffsets := overwriteAt h.row.charOffsets h.colEnd [narrow16 ch] }
        colEnd := h.colEnd + 1 } := by
    rw [putOffset, set_is_overwrite (by omega)]
    congr 1
    exact narrow_small (h.colEnd + 1) (by omega)
  rw [putGlyph, first]
  have cases : width = 1 ∨ width = 2 := by omega
  rcases cases with rfl | rfl
  · rw [putTrailers, if_neg (lt_irrefl _)]
    rfl
  have room : (overwriteAt h.row.charOffsets h.colEnd [narrow16 ch]).length = h.row.charOffsets.length :=
    overwrite_length (by rw [length_singleton]; omega)
  have both := overwrite_overwrite h.row.charOffsets [narrow16 ch] [narrow16 (ch ||| charOffsetsTrailer : Nat)] h.colEnd
    (by omega)
  rw [length_singleton] at both
  have wraps : narrow16 ((h.colEnd + 1 : Nat) + 1) = h.colEnd + 2 := by
    rw [narrow16]
    omega
  rw [putTrailers, if_pos (lt_succ_self _), putTrailers, if_neg]
  · simp only [putOffset]
    rw [set_is_overwrite (by omega), both, wraps]
    rfl
  · simp only [putOffset]
    rw [wraps]
    exact lt_irrefl _

variable {further : Nat}

section

variable {row : Row Attr} {initial h : WriteHelper Attr} {front : Glyphs} {mark : Nat}
  (room : initial.colLimit < row.charOffsets.length) (narrow : row.charOffsets.length ≤ 0xFFFE)
  (progress : Progress row initial h front mark)

include progress

theorem progress_col_end : h.colEnd = columns front := by
  have frame := congrArg colEnd progress.frame
  exact frame

theorem progress_col_limit : h.colLimit = initial.colLimit := by
  have frame := congrArg colLimit progress.frame
  exact frame

theorem progress_ch_beg : h.chBeg = initial.chBeg := by
  have frame := congrArg chBeg progress.frame
  exact frame

theorem progress_chars : h.chars = initial.chars := by
  have frame := congrArg chars progress.frame
  exact frame

theorem progress_lead : h.chBegDirty = initial.chBegDirty ∧ h.leadingSpaces = initial.leadingSpaces := by
  have chBegDirty := congrArg chBegDirty progress.frame
  have leadingSpaces := congrArg leadingSpaces progress.frame
  exact ⟨chBegDirty, leadingSpaces⟩

theorem progress_row : h.row = { row with charOffsets := h.row.charOffsets } := by
  have frame := congrArg WriteHelper.row progress.frame
  exact frame

theorem progress_exit {colEndDirty charsConsumed : Nat} (order : mark ≤ further) (limited : further ≤ initial.colLimit) :
    Progress row initial { h with colEndDirty := colEndDirty, charsConsumed := charsConsumed } front further := by
  refine ⟨?_, progress.length, progress.encoded, ?_, le_trans progress.reached order, limited⟩
  · rw [progress.frame]
  · exact drop_further progress.untouched order

include room narrow

theorem progress_glyph (glyph : Glyph) {ch : Nat} (isEnd : ch = (text front).length)
    (fits : columns front + glyph.width ≤ initial.colLimit) :
    Progress row initial (putGlyph ch (columns front + glyph.width) h) (front ++ [glyph])
        (max mark (columns front + glyph.width)) ∧ (putGlyph ch (columns front + glyph.width) h).colBegDirty =
        h.colBegDirty := by
  have colEnd := progress_col_end progress
  have length := progress.length
  have put := put_glyph ch h glyph.positive glyph.narrow (by omega) (by omega)
  have count : (storedOffsets ch glyph.width).length = glyph.width := by
    have positive := glyph.positive
    rw [storedOffsets, length_cons, length_replicate]
    omega
  have inside : columns front ≤ h.row.charOffsets.length := by omega
  rw [colEnd] at put
  rw [put]
  refine ⟨⟨?_, ?_, ?_, ?_, ?_, ?_⟩, rfl⟩
  · rw [progress.frame]
    simp
  · exact (overwrite_length (by omega)).trans length
  · exact encodes_glyph progress.encoded inside isEnd
  · obtain ⟨extra, isMark⟩ := Nat.exists_eq_add_of_le (Nat.le_max_right mark (columns front + glyph.width))
    have dropped := drop_overwrite h.row.charOffsets (storedOffsets ch glyph.width) (columns front) extra inside
    rw [count, ← isMark] at dropped
    simp only [dropped]
    exact drop_further progress.untouched (le_max_left _ _)
  · exact le_trans (le_of_eq (by simp)) (le_max_right mark _)
  · have limited := progress.limited
    omega

end

structure Written (row : Row Attr) (initial h : WriteHelper Attr) (before : List WChar) (layout : Layout) : Prop where
  progress : Progress row initial h layout.front layout.endDirty
  colEndDirty : h.colEndDirty = layout.endDirty
  consumed : h.charsConsumed = (text layout.front).length - before.length
  longer : before.length ≤ (text layout.front).length
  text : text layout.front ++ layout.rest = before ++ initial.chars

theorem next_glyph_text {measure : TextMeasure} {chars : List WChar} (nonempty : chars ≠ []) :
    (nextGlyph measure chars nonempty).text ++ chars.drop (measure.next chars).1 = chars :=
  take_append_drop _ _

variable {row : Row Attr} {initial : WriteHelper Attr} {before : List WChar} (isBefore : initial.chBeg = before.length)

include isBefore

theorem written_at_exit {h : WriteHelper Attr} {front : Glyphs} {mark : Nat} (dirty : Nat) (rest : List WChar)
    (progress : Progress row initial h front mark) (isDirty : dirty = further) (order : mark ≤ further)
    (limited : further ≤ initial.colLimit)
    (longer : before.length ≤ (text front).length) (isText : text front ++ rest = before ++ initial.chars) :
    Written row initial { h with colEndDirty := dirty, charsConsumed := (text front).length - h.chBeg } before
      ⟨front, rest, further⟩ := by
  refine ⟨progress_exit progress order limited, isDirty, ?_, longer, isText⟩
  rw [progress_ch_beg progress, isBefore]

variable (room : initial.colLimit < row.charOffsets.length) (narrow : row.charOffsets.length ≤ 0xFFFE) (measure : TextMeasure)

omit isBefore in
include room narrow in
theorem col_end_new {h : WriteHelper Attr} {front : Glyphs} {mark : Nat} (progress : Progress row initial h front mark)
    {width : Nat} (small : width ≤ 2) : narrow16 (h.colEnd + max 1 width) = columns front + max 1 width := by
  have reached := progress.reached
  have limited := progress.limited
  rw [progress_col_end progress, narrow16]
  omega

include room narrow

theorem cluster_loop_written (fuel : Nat) (chars : List WChar) (enough : chars.length ≤ fuel) (h : WriteHelper Attr)
    (front : Glyphs) (mark : Nat) (progress : Progress row initial h front mark)
    (near : mark ≤ columns front + 1) (ended : chars = [] → mark = columns front)
    (longer : before.length ≤ (text front).length) (isText : text front ++ chars = before ++ initial.chars) :
    Written row initial (clusterLoop measure fuel (text front).length chars h) before
        (layoutClusters measure initial.colLimit fuel front chars) ∧
      (clusterLoop measure fuel (text front).length chars h).colBegDirty = h.colBegDirty ∧
      ∃ more, (layoutClusters measure initial.colLimit fuel front chars).front = front ++ more := by
  induction fuel generalizing chars h front mark with
  | zero =>
    have noText : chars = [] := length_eq_zero_iff.mp (le_zero.mp enough)
    have isMark := ended noText
    exact ⟨written_at_exit isBefore _ _ progress
      (progress_col_end progress) (le_of_eq isMark) (isMark ▸ progress.limited) longer isText, rfl, [],
      (append_nil _).symm⟩
  | succ fuel ih =>
    by_cases nonempty : chars ≠ []
    · have colLimit := progress_col_limit progress
      have colEndNew := col_end_new room narrow progress (measure.next_narrow chars)
      rw [clusterLoop, layoutClusters, if_neg (by simpa using nonempty), dif_pos nonempty]
      simp only [colEndNew]
      by_cases beyond : initial.colLimit < columns front + (nextGlyph measure chars nonempty).width
      · rw [if_pos (by rw [colLimit]; exact beyond), if_pos beyond]
        exact ⟨written_at_exit isBefore _ _ progress colLimit progress.limited (le_refl _)
          longer isText, rfl, [], (append_nil _).symm⟩
      rw [if_neg (by rw [colLimit]; exact beyond), if_neg beyond]
      have positive := (nextGlyph measure chars nonempty).positive
      obtain ⟨step, begDirty⟩ := progress_glyph room narrow progress (nextGlyph measure chars nonempty) rfl
        (not_lt.mp beyond)
      rw [max_eq_right (by omega)] at step
      have advanced : (text front).length + (measure.next chars).1 =
        (text (front ++ [nextGlyph measure chars nonempty])).length := by
        simp [nextGlyph, cluster, length_take_of_le (measure.next_inside chars)]
      have shorter : (chars.drop (measure.next chars).1).length ≤ fuel := by
        have some := measure.next_positive chars nonempty
        rw [length_drop]
        omega
      rw [advanced]
      obtain ⟨written, sameDirty, more, isFront⟩ := ih (chars.drop (measure.next chars).1) shorter _ _ _ step
        (by simp) (by simp) (by omega) (by simp [next_glyph_text, isText])
      refine ⟨written, sameDirty.trans begDirty, nextGlyph measure chars nonempty :: more, ?_⟩
      simp [isFront]
    · have noText : chars = [] := Decidable.not_not.mp nonempty
      have isMark := ended noText
      rw [noText] at isText
      rw [clusterLoop, layoutClusters, if_pos (by simpa using noText), dif_neg nonempty]
      exact ⟨written_at_exit isBefore _ _ progress
        (progress_col_end progress) (le_of_eq isMark) (isMark ▸ progress.limited) longer isText, rfl,
        [], (append_nil _).symm⟩

end Cogterm.Buffer
