import Cogterm.Row.Frame
import Cogterm.TextBuffer.TextBuffer

namespace Cogterm.Buffer

open Library Til List Nat WriteHelper
open Unicode (WChar)

section

variable {Attr : Type}

namespace WriteHelper

theorem narrow_le (column width : Nat) : narrow16 (column + width) ≤ column + width := by
  rw [narrow16]
  omega

theorem put_trailers_kept (h : WriteHelper Attr) :
    (h.putTrailers ch colEndNew fuel).chBeg = h.chBeg ∧ (h.putTrailers ch colEndNew fuel).colLimit = h.colLimit := by
  induction fuel generalizing h with
  | zero => exact ⟨rfl, rfl⟩
  | succ fuel ih =>
    rw [putTrailers]
    split
    · exact ih _
    · exact ⟨rfl, rfl⟩

theorem put_glyph_kept (ch colEndNew : Nat) (h : WriteHelper Attr) :
    (h.putGlyph ch colEndNew).chBeg = h.chBeg ∧ (h.putGlyph ch colEndNew).colLimit = h.colLimit :=
  put_trailers_kept (h.putOffset ch)

theorem cluster_loop_consumed (measure : TextMeasure) (fuel ch : Nat) (text : List WChar) (h : WriteHelper Attr) :
    ch - h.chBeg ≤ (h.clusterLoop measure fuel ch text).charsConsumed ∧
      (h.clusterLoop measure fuel ch text).colLimit = h.colLimit := by
  induction fuel generalizing ch text h with
  | zero => exact ⟨le_refl _, rfl⟩
  | succ fuel ih =>
    rw [clusterLoop]
    split
    · exact ⟨le_refl _, rfl⟩
    dsimp only
    split
    · exact ⟨le_refl _, rfl⟩
    obtain ⟨consumed, limit⟩ := ih (ch + (measure.next text).1) (text.drop (measure.next text).1)
      (h.putGlyph ch (narrow16 (h.colEnd + max 1 (measure.next text).2)))
    obtain ⟨begins, limits⟩ := put_glyph_kept ch (narrow16 (h.colEnd + max 1 (measure.next text).2)) h
    exact ⟨by omega, limit.trans limits⟩

variable {measure : TextMeasure} {text : List WChar}

theorem cluster_loop_reads {ch : Nat} {h : WriteHelper Attr} (nonempty : text ≠ []) (positive : 0 < fuel)
    (room : h.colEnd + 2 ≤ h.colLimit) (begun : h.chBeg ≤ ch) : 1 ≤ (h.clusterLoop measure fuel ch text).charsConsumed := by
  obtain ⟨fuel, rfl⟩ : ∃ less, fuel = less + 1 := ⟨fuel - 1, by omega⟩
  have wide := measure.next_narrow text
  have long := measure.next_positive text nonempty
  have fits : ¬ narrow16 (h.colEnd + max 1 (measure.next text).2) > h.colLimit := by
    have bound := narrow_le h.colEnd (max 1 (measure.next text).2)
    omega
  rw [clusterLoop, if_neg (by simpa using nonempty)]
  rw [if_neg fits]
  obtain ⟨consumed, _⟩ := cluster_loop_consumed measure fuel (ch + (measure.next text).1) (text.drop (measure.next text).1)
    (h.putGlyph ch (narrow16 (h.colEnd + max 1 (measure.next text).2)))
  rw [(put_glyph_kept ch _ h).1] at consumed
  omega

theorem previous_column_le (row : Row Attr) (column : Nat) : previousColumn row column ≤ column := by
  have backward : ∀ column, row.adjustBackward column ≤ column := by
    intro column
    induction column with
    | zero => exact le_refl 0
    | succ column ih =>
      rw [Row.adjustBackward]
      split
      · exact le_succ_of_le ih
      · exact le_refl _
  cases column with
  | zero => exact le_refl 0
  | succ column => exact le_succ_of_le (backward column)

theorem replace_text_unicode_limit {h : WriteHelper Attr} : (h.replaceTextUnicode measure ch it).colLimit = h.colLimit := by
  rw [replaceTextUnicode]
  split
  · dsimp only
    split
    · split
      · rfl
      · exact (cluster_loop_consumed _ _ _ _ _).2.trans (put_glyph_kept _ _ _).2
    · exact (cluster_loop_consumed _ _ _ _ _).2
  · exact (cluster_loop_consumed _ _ _ _ _).2

theorem ascii_loop_limit (ch : Nat) (h : WriteHelper Attr) : (h.asciiLoop measure text ch).colLimit = h.colLimit := by
  induction text generalizing ch h with
  | nil => rfl
  | cons c rest ih =>
    rw [asciiLoop]
    split
    · exact replace_text_unicode_limit
    · exact ih _ _

variable {h : WriteHelper Attr}

theorem unicode_consumes (nonempty : h.chars ≠ []) (begun : h.colEnd = h.colBeg)
    (room : h.colBeg + 2 ≤ h.colLimit) : 1 ≤ (h.replaceTextUnicode measure h.chBeg 0).charsConsumed := by
  have long : 0 < h.chars.length := length_pos_iff.mpr nonempty
  rw [replaceTextUnicode, if_pos rfl]
  dsimp only
  generalize (h.row.chars.take h.chBeg).drop (h.row.uncheckedCharOffset (previousColumn h.row h.colBeg)) = charsPrev
  split
  · -- The joined glyph begins at or before the column, and is no wider than two.
    have fits : ¬ narrow16 (previousColumn h.row h.colBeg + max 1 (measure.join charsPrev h.chars).2) > h.colLimit := by
      have wide := measure.join_narrow charsPrev h.chars
      have before := previous_column_le h.row h.colBeg
      have bound := narrow_le (previousColumn h.row h.colBeg) (max 1 (measure.join charsPrev h.chars).2)
      omega
    rw [if_neg fits]
    have consumed := (cluster_loop_consumed measure h.chars.length (h.chBeg + (measure.join charsPrev h.chars).1)
      (h.chars.drop (measure.join charsPrev h.chars).1)
      (putGlyph (h.row.uncheckedCharOffset (previousColumn h.row h.colBeg))
        (narrow16 (previousColumn h.row h.colBeg + max 1 (measure.join charsPrev h.chars).2))
        { h with colBegDirty := previousColumn h.row h.colBeg, colEnd := previousColumn h.row h.colBeg })).1
    rw [(put_glyph_kept _ _ _).1] at consumed
    dsimp only at consumed
    omega
  · exact cluster_loop_reads nonempty long (by omega) (le_refl _)

theorem ascii_consumes (ch : Nat) (h : WriteHelper Attr) (nonempty : h.chars ≠ []) (read : h.chBeg < ch)
    (room : ch = h.chBeg + 1 → h.colEnd - 1 + 2 ≤ h.colLimit) : 1 ≤ (h.asciiLoop measure text ch).charsConsumed := by
  induction text generalizing ch h with
  | nil =>
    rw [asciiLoop]
    dsimp only
    omega
  | cons c rest ih =>
    rw [asciiLoop]
    split
    · rw [replaceTextUnicode, if_neg (by omega)]
      by_cases first : ch = h.chBeg + 1
      · -- A single character may be read again together with what follows it.
        rw [first, Nat.add_sub_cancel_left]
        exact cluster_loop_reads nonempty (length_pos_iff.mpr nonempty) (room first) (le_refl _)
      · have consumed := (cluster_loop_consumed measure h.chars.length (ch - 1) (h.chars.drop (ch - h.chBeg - 1))
          { h with colEnd := h.colEnd - 1 }).1
        dsimp only at consumed
        omega
    · refine ih (ch + 1) (h.putOffset ch) nonempty (lt_succ_of_lt read) (fun first => ?_)
      have same : ch + 1 = h.chBeg + 1 := first
      omega

theorem replace_text_consumes (measure : TextMeasure) (nonempty : h.chars ≠ []) (begun : h.colEnd = h.colBeg)
    (room : h.colBeg + 2 ≤ h.colLimit) : 1 ≤ (h.replaceText measure).charsConsumed := by
  rw [replaceText]
  cases isChars : h.chars with
  | nil => exact absurd isChars nonempty
  | cons c rest =>
    rw [show h.colLimit - h.colBeg = (h.colLimit - h.colBeg - 1) + 1 by omega, take_succ_cons, asciiLoop]
    split
    · simpa using unicode_consumes nonempty begun room
    refine ascii_consumes (h.chBeg + 1) (h.putOffset h.chBeg) nonempty (lt_succ_self _) (fun _ => ?_)
    have bound := narrow_le h.colEnd 1
    simp only [putOffset]
    push_cast at bound
    omega

theorem finish_consumed (finished : h.finish heap = some final) :
    final.charsConsumed = h.charsConsumed ∧ final.colLimit = h.colLimit := by
  obtain ⟨row, _, isFinal⟩ := Option.map_eq_some_iff.mp finished
  rw [← isFinal]
  exact ⟨rfl, rfl⟩

end WriteHelper

-- What a write of text reports: either some of the text is written, or nothing
-- is and the limit is reached. Two columns are enough for something.
structure RowWriteState.Progress (state final : RowWriteState) : Prop where
  columnBegin : final.columnBegin = state.columnBegin
  columnLimit : final.columnLimit = state.columnLimit
  columnEnd : 0 ≤ final.columnEnd
  written : final.text.length < state.text.length ∨ (final.text = state.text ∧ state.columnLimit ≤ final.columnEnd)
  enough : 0 ≤ state.columnBegin → state.columnBegin + 2 ≤ state.columnLimit → final.text.length < state.text.length

theorem replace_text_progress [Inhabited Attr] (env : Environment) (row : Row Attr) (state final : RowWriteState)
    (nonempty : state.text ≠ []) (limit : 0 ≤ state.columnLimit ∧ state.columnLimit ≤ row.columnCount)
    (written : (row.replaceText env state).2 = some final) : state.Progress final := by
  have long : 0 < state.text.length := length_pos_iff.mpr nonempty
  have isLimit : (row.clampedColumnInclusive state.columnLimit : Int) = state.columnLimit := by
    rw [Row.clampedColumnInclusive, clamp]
    split <;> omega
  have isBegin : 0 ≤ state.columnBegin → state.columnBegin ≤ row.columnCount →
      (row.clampedColumnInclusive state.columnBegin : Int) = state.columnBegin := by
    intro first last
    rw [Row.clampedColumnInclusive, clamp]
    split <;> omega
  rw [Row.replaceText] at written
  obtain ⟨h, isHelper⟩ : ∃ h, h = start row state.columnBegin state.columnLimit state.text := ⟨_, rfl⟩
  have begins : h.colBeg = row.clampedColumnInclusive state.columnBegin := by rw [isHelper]; rfl
  have limits : h.colLimit = row.clampedColumnInclusive state.columnLimit := by rw [isHelper]; rfl
  have chars : h.chars = state.text := by rw [isHelper]; rfl
  have begun : h.colEnd = h.colBeg := by rw [isHelper]; rfl
  simp only [← isHelper] at written
  by_cases valid : h.isValid
  · rw [if_pos valid] at written
    cases finished : (h.replaceText env.measure).finish env.heap with
    | none =>
      rw [finished] at written
      cases written
    | some last =>
      rw [finished] at written
      cases written
      obtain ⟨consumed, limited⟩ := finish_consumed finished
      have lastLimit : last.colLimit = h.colLimit := limited.trans (ascii_loop_limit _ h)
      refine ⟨rfl, rfl, ?_, ?_, fun first room => ?_⟩
      · dsimp only
        split <;> omega
      · by_cases none : last.charsConsumed = 0
        · right
          simp [none, if_neg (by simpa using nonempty), lastLimit, limits, isLimit]
        · left
          rw [length_drop]
          omega
      · have some := replace_text_consumes env.measure (chars ▸ nonempty) begun (by omega)
        rw [length_drop]
        omega
  · rw [if_neg valid] at written
    cases written
    have past : ¬ h.colBeg < h.colLimit := by
      intro inside
      apply valid
      simpa [isValid, chars] using ⟨inside, by simpa using nonempty⟩
    refine ⟨rfl, rfl, ?_, .inr ⟨rfl, ?_⟩, fun first room => ?_⟩
    · dsimp only
      omega
    · dsimp only
      omega
    · omega

end

open Function TextBuffer

variable {state final : RowWriteState} {attributes : TextAttribute} {row : Row TextAttribute}

section

variable (env : Environment)

def SameShape (row changed : Row TextAttribute) : Prop :=
  changed.columnCount = row.columnCount ∧ changed.lineRendition = row.lineRendition

theorem replace_text_shape (ended : (row.replaceText env state).2 = some final) :
    SameShape row (row.replaceText env state).1 := by
  rcases replace_text_outcome env row state with frame | failed
  · exact ⟨frame.columnCount, frame.lineRendition⟩
  · rw [failed] at ended
    cases ended

variable {changed scratch : Row TextAttribute}

theorem row_replace_progress (nonempty : state.text ≠ [])
    (limit : 0 ≤ state.columnLimit ∧ state.columnLimit ≤ row.columnCount)
    (written : row.replace env attributes state = (changed, some final)) : state.Progress final ∧ SameShape row changed := by
  rw [Row.replace] at written
  split at written
  · cases written
  rename_i ended
  split at written
  · cases written
  rename_i colored
  cases written
  obtain ⟨_, _, isOther⟩ := Option.map_eq_some_iff.mp colored
  rw [← isOther]
  exact ⟨replace_text_progress env row state final nonempty limit ended, replace_text_shape env ended⟩

theorem row_restore_shape (restored : row.restoreText env scratch state = (changed, some final)) :
    final = state ∧ SameShape row changed := by
  rw [Row.restoreText] at restored
  split at restored
  · cases restored
  rename_i ended
  have shape := replace_text_shape env ended
  split at restored
  · cases restored
  rename_i colored
  cases restored
  refine ⟨rfl, ?_⟩
  rcases restore_attributes_cases colored with rfl | ⟨_, _, _, _, _, rfl, _⟩
  · exact shape
  · exact shape

theorem row_insert_progress (nonempty : state.text ≠ [])
    (limit : 0 ≤ state.columnLimit ∧ state.columnLimit ≤ row.columnCount)
    (written : row.insert env scratch attributes state = (changed, some final)) :
    state.Progress final ∧ SameShape row changed := by
  rw [Row.insert] at written
  generalize isResult : row.replace env attributes state = result at written
  obtain ⟨inserted, ended⟩ := result
  cases ended with
  | none => cases written
  | some last =>
    obtain ⟨progress, count, rendition⟩ := row_replace_progress env nonempty limit isResult
    obtain ⟨isFinal, countAfter, renditionAfter⟩ := row_restore_shape env written
    rw [isFinal]
    exact ⟨progress, countAfter.trans count, renditionAfter.trans rendition⟩

end

structure TextBuffer.HasSize (width height : Nat) (buffer : TextBuffer) : Prop where
  wide : buffer.width = width
  high : buffer.height = height
  first : buffer.firstRow < height
  rows : ∀ index, (buffer.rows index).columnCount = width
  scratchpad : buffer.scratchpad.columnCount = width

variable {buffer : TextBuffer}

variable (env : Environment) {width height : Nat}

theorem set_row_size (size : buffer.HasSize width height) (y : Int) (row : Row TextAttribute) (count : row.columnCount = width) :
    (buffer.setRow y row).HasSize width height := by
  refine { size with rows := fun index => ?_ }
  simp only [setRow]
  by_cases same : index = buffer.storageIndex y
  · simpa [same] using count
  · rw [update_of_ne same]
    exact size.rows index

theorem get_row_set (buffer : TextBuffer) (y other : Int) :
    (buffer.setRow y row).getRow other = if buffer.storageIndex other = buffer.storageIndex y then row
    else buffer.getRow other := by
  have index : (buffer.setRow y row).storageIndex other = buffer.storageIndex other := rfl
  rw [getRow]
  simp only [setRow, update_apply]
  rfl

theorem set_row_rendition (rendition : row.lineRendition = (buffer.getRow y).lineRendition) :
    ((buffer.setRow y row).getRow other).lineRendition = (buffer.getRow other).lineRendition := by
  rw [get_row_set]
  split
  · rename_i same
    simp [rendition, getRow, same]
  · rfl

theorem scroll_loop_size {count : Nat} (y : Int) (buffer : TextBuffer) (size : buffer.HasSize width height) :
    (scrollLoop env delta step count y buffer).1.HasSize width height := by
  induction count generalizing y buffer with
  | zero => exact size
  | succ count ih =>
    have copied : (buffer.copyRow env y (y + delta)).1.HasSize width height := by
      have set := set_row_size size (y + delta) _
        ((copy_from_count env (buffer.getRow (y + delta)) (if buffer.storageIndex y = buffer.storageIndex (y + delta) then none
          else some (buffer.getRow y))).trans (size.rows _))
      exact { set with }
    rw [scroll_loop_succ]
    split
    · exact copied
    · exact ih _ _ copied

theorem scroll_rows_size {firstRow rowCount delta : Int} (size : buffer.HasSize width height) :
    (buffer.scrollRows env firstRow rowCount delta).1.HasSize width height := by
  rw [scrollRows]
  split
  · exact size
  · split
    · exact scroll_loop_size env _ _ size
    · exact scroll_loop_size env _ _ size

theorem change_rows_size (change : TextBuffer → Row TextAttribute → Row TextAttribute)
    (kept : ∀ buffer row, (change buffer row).columnCount = row.columnCount) (count : Nat) (y : Int) (buffer : TextBuffer)
    (size : buffer.HasSize width height) : (changeRows change count y buffer).HasSize width height := by
  induction count generalizing y buffer with
  | zero => exact size
  | succ count ih =>
    exact ih _ _ (set_row_size size y _ ((kept _ _).trans (size.rows _)))

variable {changed : TextBuffer}

def SameCursor (buffer changed : TextBuffer) : Prop :=
  changed.cursor = buffer.cursor ∧ ∀ other, (changed.getRow other).lineRendition = (buffer.getRow other).lineRendition

theorem replace_size (size : buffer.HasSize width height) (nonempty : state.text ≠ [])
    (limit : 0 ≤ state.columnLimit ∧ state.columnLimit ≤ width)
    (written : buffer.replace env y attributes state = (changed, some final)) :
    state.Progress final ∧ changed.HasSize width height ∧ SameCursor buffer changed := by
  rw [TextBuffer.replace] at written
  have count : (buffer.getRow y).columnCount = width := size.rows _
  generalize isResult : (buffer.getRow y).replace env attributes state = result at written
  obtain ⟨row, ended⟩ := result
  cases written
  obtain ⟨progress, sameCount, sameRendition⟩ := row_replace_progress env nonempty (by rw [count]; exact limit) isResult
  exact ⟨progress, set_row_size size y row (sameCount.trans count), rfl, fun other => set_row_rendition sameRendition⟩

theorem insert_size (size : buffer.HasSize width height) (nonempty : state.text ≠ [])
    (limit : 0 ≤ state.columnLimit ∧ state.columnLimit ≤ width)
    (written : buffer.insert env y attributes state = (changed, some final)) :
    state.Progress final ∧ changed.HasSize width height ∧ SameCursor buffer changed := by
  rw [TextBuffer.insert] at written
  have count : (buffer.getRow y).columnCount = width := size.rows _
  have scratchCount := copy_from_count env (buffer.scratchpad.reset buffer.currentAttributes) (some (buffer.getRow y))
  dsimp only at written
  generalize (buffer.scratchpad.reset buffer.currentAttributes).copyFrom env (some (buffer.getRow y)) = scratch at *
  split at written
  · cases written
  generalize isResult : (buffer.getRow y).insert env scratch.1 attributes state = result at written
  obtain ⟨row, ended⟩ := result
  cases written
  obtain ⟨progress, sameCount, sameRendition⟩ := row_insert_progress env nonempty (by rw [count]; exact limit) isResult
  refine ⟨progress, set_row_size ?_ y row (sameCount.trans count), rfl, fun other => set_row_rendition sameRendition⟩
  exact ⟨size.wide, size.high, size.first, size.rows, scratchCount.trans size.scratchpad⟩

end Cogterm.Buffer
