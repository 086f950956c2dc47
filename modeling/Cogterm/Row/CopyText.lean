import Cogterm.Row.ReplaceText

namespace Cogterm.Buffer

open Library Glyphs List Nat WriteHelper
open Unicode (WChar)

variable {Attr : Type} {count start : Nat}

section

theorem take_columns_take (room more : Nat) (order : room ≤ more) :
    takeColumns room (takeColumns more glyphs) = takeColumns room glyphs := by
  induction glyphs generalizing room more with
  | nil => rfl
  | cons glyph rest ih =>
    by_cases fits : glyph.width ≤ room
    · rw [takeColumns, if_pos (by omega), takeColumns, if_pos fits, takeColumns, if_pos fits, ih _ _ (by omega)]
    · by_cases wide : glyph.width ≤ more
      · simp [if_pos wide, takeColumns, if_neg fits]
      · simp [if_neg wide, takeColumns, if_neg fits]

variable {items : List Nat}

theorem getD_take (inside : column < count) : (items.take count).getD column 0 = items.getD column 0 := by
  simp [getElem?_take_of_lt inside]

theorem last_glyph_start (count room : Nat) (fits : start + (text glyphs).length ≤ charOffsetsMask)
    (order : room ≤ count) (inside : room ≤ columns glyphs) :
    lastGlyphStart ((encode start glyphs).take (count + 1)) room = columns (takeColumns room glyphs) ∧
      ((encode start glyphs).take (count + 1)).getD (columns (takeColumns room glyphs)) 0 =
        start + (text (takeColumns room glyphs)).length ∧
      ((encode start glyphs).take (count + 1)).getD room 0 &&& charOffsetsMask =
        start + (text (takeColumns room glyphs)).length := by
  have limit : charOffsetsTrailer = charOffsetsMask + 1 := rfl
  rcases column_cases glyphs room inside with ⟨before, after, split, isRoom⟩ |
    ⟨before, wide, after, split, isWide, isRoom⟩
  · have small : start + (text before).length < charOffsetsTrailer := by
      rw [split, text_append, length_append] at fits
      omega
    obtain ⟨rest, head⟩ := encode_head (start + (text before).length) after
    have entry : ((encode start glyphs).take (count + 1)).getD room 0 = start + (text before).length := by
      rw [getD_take (by omega), split, isRoom]
      exact getD_of_drop rest (by rw [encode_drop_boundary, head])
    have isTaken : takeColumns room glyphs = before := by rw [split, isRoom, (cut_boundary before after).1]
    rw [isTaken, ← isRoom]
    refine ⟨?_, entry, by rw [entry, (mask_offset small).1]⟩
    cases room with
    | zero => rfl
    | succ room => rw [lastGlyphStart, entry, (mask_offset small).2]; rfl
  · have small : start + (text before).length < charOffsetsTrailer := by
      rw [split, text_append, length_append] at fits
      omega
    obtain ⟨rest, head⟩ := encode_head (start + (text before).length) (wide :: after)
    have entry : ((encode start glyphs).take (count + 1)).getD (columns before) 0 = start + (text before).length := by
      rw [getD_take (by omega), split]
      exact getD_of_drop rest (by rw [encode_drop_boundary, head])
    have trailer : ((encode start glyphs).take (count + 1)).getD (columns before + 1) 0 =
        start + (text before).length + charOffsetsTrailer := by
      rw [getD_take (by omega), split]
      exact getD_of_drop _ (encode_drop_inside start before after wide isWide)
    have isTaken : takeColumns room glyphs = before := by rw [split, isRoom, (cut_inside before after isWide).1]
    rw [isTaken, isRoom]
    refine ⟨?_, entry, by rw [trailer, (mask_trailer _ small).1]⟩
    rw [lastGlyphStart, trailer, (mask_trailer _ small).2]
    cases isColumn : columns before with
    | zero => rfl
    | succ column =>
      rw [isColumn] at entry
      rw [lastGlyphStart, entry, (mask_offset small).2]
      rfl

theorem copied_glyph {source target offset : Nat} (isOffset : offset = narrow16 (target - source)) (glyph : Glyph)
    (old : source < charOffsetsTrailer) (new : target < charOffsetsTrailer) :
    copyOffsets (glyph.offsets source) offset = glyph.offsets target := by
  have limit : charOffsetsTrailer = 32768 := rfl
  have moved : narrow16 (source + offset) = target := by
    rw [isOffset, narrow16, narrow16]
    omega
  have plain : narrow16 ((source &&& charOffsetsMask : Nat) + offset) ||| (source &&& charOffsetsTrailer) = target := by
    simp [(mask_offset old).1, (mask_offset old).2, moved]
  have trailer : narrow16 (((source + charOffsetsTrailer) &&& charOffsetsMask : Nat) + offset) |||
      ((source + charOffsetsTrailer) &&& charOffsetsTrailer) = target + charOffsetsTrailer := by
    rw [(mask_trailer source old).1, (mask_trailer source old).2, moved, or_trailer new]
  simp [copyOffsets, plain, trailer, Glyph.offsets]

theorem copied_offsets (source target : Nat) (isOffset : offset = narrow16 (target - source))
    (old : source + (text glyphs).length ≤ charOffsetsMask) (new : target + (text glyphs).length ≤ charOffsetsMask) :
    copyOffsets (Glyphs.offsets source glyphs) offset = Glyphs.offsets target glyphs := by
  have limit : charOffsetsTrailer = charOffsetsMask + 1 := rfl
  induction glyphs generalizing source target with
  | nil => rfl
  | cons glyph rest ih =>
    rw [text_cons, length_append] at old new
    have further : offset = narrow16 ((target + glyph.text.length : Nat) - (source + glyph.text.length : Nat)) := by
      rw [isOffset]
      congr 1
      omega
    have others := ih (source + glyph.text.length) (target + glyph.text.length) further (by omega) (by omega)
    have first := copied_glyph isOffset glyph (by omega) (by omega)
    rw [copyOffsets] at others first
    simp [copyOffsets, first, others, Glyphs.offsets]

theorem encodes_copied (encodes : Encodes items front) (inside : columns front ≤ items.length) {source : Nat} (offset : Nat)
    (isOffset : offset = narrow16 ((text front).length - source)) (old : source + (text glyphs).length ≤ charOffsetsMask) :
    Encodes (overwriteAt items (columns front) (copyOffsets (Glyphs.offsets source glyphs) offset)) (front ++ glyphs) := by
  intro shown more split small
  rcases append_eq_append_iff.mp split with ⟨part, isShown, isGlyphs⟩ | ⟨part, isFront, _⟩
  · have before := encodes front [] (append_nil front).symm (by rw [isShown, text_append, length_append] at small; omega)
    rw [isShown, text_append, length_append] at small
    rw [isGlyphs, text_append, length_append] at old
    have copied := copied_offsets source (text front).length isOffset (by omega) small
    have written : copyOffsets (Glyphs.offsets source glyphs) offset = Glyphs.offsets (text front).length part ++
          copyOffsets (Glyphs.offsets (source + (text part).length) more) offset := by
      simp [← copied, isGlyphs, offsets_append, copyOffsets]
    have length : (items.take (columns front) ++ Glyphs.offsets (text front).length part).length = columns shown := by
      simp [length_take_of_le inside, isShown]
    rw [overwriteAt, written, ← append_assoc, append_assoc, take_left' length, before, isShown, offsets_append, zero_add]
  · have order : columns shown ≤ columns front := by simp [isFront]
    rw [take_overwrite_before order inside]
    exact encodes shown part isFront small

end

-- A part of a source that starts with a glyph, as CopyTextFrom sees it.
structure Span (charOffsets : List Nat) (chars : List WChar) (start count : Nat) (rest copied : Glyphs) : Prop where
  isOffsets : charOffsets = (encode start rest).take (count + 1)
  inside : count ≤ columns rest
  fits : start + (text rest).length ≤ charOffsetsMask
  isCopied : copied = takeColumns count rest
  isChars : chars = text copied

theorem text_nil_iff (glyphs : Glyphs) : text glyphs = [] ↔ glyphs = [] := by
  cases glyphs with
  | nil => simp
  | cons glyph rest => simp [glyph.written]

theorem source_inside (models : Represents source glyphs) (last : Nat)
    (inside : first ≤ source.columnCount) (cut : columns (takeColumns first glyphs) ≠ first) :
    ((source.charOffsets.drop first).take (last - first + 1)).getD 0 0 &&& charOffsetsTrailer = charOffsetsTrailer := by
  have fits := models.fits
  rw [← models.columns] at inside
  rcases column_cases glyphs first inside with ⟨before, after, split, isFirst⟩ |
    ⟨before, wide, after, split, isWide, isFirst⟩
  · rw [split, isFirst, (cut_boundary before after).1] at cut
    exact absurd rfl cut
  have small : 0 + (text before).length < charOffsetsTrailer := by
    rw [split, text_append, length_append, charOffsetsMask] at fits
    rw [charOffsetsTrailer]
    omega
  rw [models.offsets, split, isFirst, encode_drop_inside 0 before after wide isWide]
  exact (mask_trailer _ small).2

theorem source_span (models : Represents source glyphs)
    (order : first < last) (inside : last ≤ source.columnCount) (boundary : columns (takeColumns first glyphs) = first)
    (isOffsets : charOffsets = (source.charOffsets.drop first).take (last - first + 1)) : Span charOffsets
        ((source.chars.take (charOffsets.getLastD 0 &&& charOffsetsMask)).drop (charOffsets.getD 0 0 &&& charOffsetsMask))
        (text (takeColumns first glyphs)).length (last - first) (dropColumns first glyphs) (between first last glyphs) ∧
      charOffsets.getD 0 0 &&& charOffsetsTrailer = 0 := by
  have fits := models.fits
  rw [← models.columns] at inside
  rcases column_cases glyphs first (by omega) with ⟨before, after, split, isFirst⟩ |
    ⟨before, wide, after, split, isWide, isFirst⟩
  · have cut := cut_boundary before after
    rw [← split, ← isFirst] at cut
    rw [cut.1, between, if_pos boundary, cut.2]
    rw [split, columns_append] at inside
    rw [split, text_append, length_append] at fits
    have entries : charOffsets = (encode (text before).length after).take (last - first + 1) := by
      simp [isOffsets, models.offsets, split, isFirst, encode_drop_boundary]
    have small : (text before).length < charOffsetsTrailer := by
      rw [charOffsetsMask] at fits
      rw [charOffsetsTrailer]
      omega
    have start : charOffsets.getD 0 0 = (text before).length := by
      obtain ⟨rest, head⟩ := encode_head (text before).length after
      rw [entries, head]
      rfl
    have finish : charOffsets.getLastD 0 &&& charOffsetsMask =
        (text before).length + (text (takeColumns (last - first) after)).length := by
      have count : charOffsets.length - 1 = last - first := by
        rw [entries, length_take, encode_length]
        omega
      have entry := (last_glyph_start (last - first) (last - first) fits (le_refl _) (by omega)).2.2
      rw [← entries] at entry
      simp [← entry, getLast?_eq_getElem?, count]
    rw [start, finish, (mask_offset small).1]
    refine ⟨⟨entries, by omega, fits, rfl, ?_⟩, (mask_offset small).2⟩
    obtain ⟨spare, isChars⟩ := models.chars
    obtain ⟨rest, isRest⟩ := take_columns_leads (last - first) after
    have isText : text after = text (takeColumns (last - first) after) ++ text rest := by rw [← text_append, ← isRest]
    simp [drop_take, isChars, split, isText]
  · have cut := (cut_inside before after isWide).1
    rw [← split, ← isFirst] at cut
    rw [cut] at boundary
    omega

theorem span_taken {chars : List WChar} {rest copied : Glyphs}
    (span : Span charOffsets chars start count rest copied) (few : input ≤ count) :
    takeColumns input copied = takeColumns input rest := by
  rw [span.isCopied, take_columns_take _ _ few]

theorem helper_copy_text {h : WriteHelper Attr}
    (span : Span charOffsets h.chars start count rest copied) (started : h.colEnd = h.colBeg) (order : h.colBeg ≤ h.colLimit)
    (narrow : h.colLimit ≤ 0xFFFF) {input : Nat} (isInput : min (h.colLimit - h.colBeg) count = input) :
    h.copyTextFrom charOffsets = { h with
        row :=
          { h.row with
            charOffsets := overwriteAt h.row.charOffsets h.colBeg
              (copyOffsets (Glyphs.offsets start (takeColumns input rest)) (narrow16 (h.chBeg - start))) }
        colEnd := h.colBeg + columns (takeColumns input rest)
        colEndDirty := h.colBeg + input
        charsConsumed := (text (takeColumns input rest)).length } := by
  have most := span.inside
  have length : charOffsets.length - 1 = count := by
    rw [span.isOffsets, length_take, encode_length]
    omega
  have limitInput : narrow16 (h.colLimit - h.colBeg) = h.colLimit - h.colBeg := by
    rw [narrow16]
    omega
  have inside : input ≤ columns rest := by omega
  obtain ⟨isStart, isEnd, _⟩ := last_glyph_start count input span.fits (by omega) inside
  obtain ⟨_, isBase, _⟩ := last_glyph_start count 0 span.fits (zero_le _) (zero_le _)
  rw [take_columns_zero, columns_nil, text_nil, length_nil, add_zero] at isBase
  rw [← span.isOffsets] at isStart isEnd isBase
  obtain ⟨others, isRest⟩ := take_columns_leads input rest
  have near := take_columns_near rest input inside
  have isCopied : charOffsets.take (columns (takeColumns input rest)) = Glyphs.offsets start (takeColumns input rest) := by
    rw [span.isOffsets, take_take, min_eq_left (by omega)]
    nth_rewrite 2 [isRest]
    exact encode_take_boundary
  have colEndNew : narrow16 (h.colBeg + columns (takeColumns input rest) : Nat) =
      h.colBeg + columns (takeColumns input rest) := narrow_small _ (by omega)
  have colEndDirty : narrow16 (h.colBeg + input : Nat) = h.colBeg + input := narrow_small _ (by omega)
  rw [copyTextFrom]
  simp only [limitInput, length, isInput, isStart, isBase, isCopied, started]
  congr 1
  omega

variable {row : Row Attr} {glyphs : Glyphs} (models : Represents row glyphs) {initial : WriteHelper Attr}
  (started : Started row glyphs initial) (valid : initial.colBeg < initial.colLimit) (columnCount : row.columnCount ≤ 0xFFFD)

include models started valid columnCount

theorem copy_text_written (span : Span charOffsets initial.chars start count rest copied) :
    let layout := layoutGlyphs (min (initial.colLimit - initial.colBeg) count) (leadIn initial.colBeg glyphs) copied
    Written row initial (initial.copyTextFrom charOffsets) (text (leadIn initial.colBeg glyphs)) layout ∧
      KeepsLead glyphs initial (initial.copyTextFrom charOffsets) layout := by
  have room := room_for_limit models started
  have narrow := offsets_narrow models columnCount
  have width := lead_in_columns glyphs initial.colBeg started.colBeg
  have progress := progress_initial models started valid
  generalize isInput : min (initial.colLimit - initial.colBeg) count = input
  have most := span.inside
  have isTaken := span_taken span (show input ≤ count by omega)
  have near := take_columns_near rest input (by omega)
  obtain ⟨others, isRest⟩ := take_columns_leads input rest
  have unfolded := helper_copy_text span started.colEnd (by omega) (by omega) isInput
  obtain ⟨more, isMore⟩ := take_columns_leads input copied
  rw [isTaken] at isMore
  rw [unfolded]
  have isFront : (layoutGlyphs input (leadIn initial.colBeg glyphs) copied).front =
      leadIn initial.colBeg glyphs ++ takeColumns input rest := by
    rw [layoutGlyphs, isTaken]
  have isDirty : (layoutGlyphs input (leadIn initial.colBeg glyphs) copied).endDirty = initial.colBeg + input := by
    rw [layoutGlyphs, width]
  have isLeft : (layoutGlyphs input (leadIn initial.colBeg glyphs) copied).rest = text more := by
    rw [layoutGlyphs, isTaken]
    nth_rewrite 1 [isMore]
    simp
  have copiedLength : (copyOffsets (Glyphs.offsets start (takeColumns input rest)) (narrow16 (initial.chBeg - start))).length =
      columns (takeColumns input rest) := by
    simp [copyOffsets]
  have rowLength := progress.length
  refine ⟨⟨⟨?_, ?_, ?_, ?_, ?_, ?_⟩, ?_, ?_, ?_, ?_⟩, ?_⟩
  · simp [isFront, width, started.row]
  · exact (overwrite_length (by omega)).trans rowLength
  · rw [isFront]
    have old : start + (text (takeColumns input rest)).length ≤ charOffsetsMask := by
      have fits := span.fits
      rw [isRest, text_append, length_append] at fits
      omega
    have encoded := encodes_copied progress.encoded (by omega) (narrow16 (initial.chBeg - start)) (by rw [started.chBeg]) old
    rw [width] at encoded
    exact encoded
  · obtain ⟨extra, isExtra⟩ :=
      Nat.exists_eq_add_of_le (show initial.colBeg + columns (takeColumns input rest) ≤ initial.colBeg + input by omega)
    have dropped := drop_overwrite initial.row.charOffsets
      (copyOffsets (Glyphs.offsets start (takeColumns input rest)) (narrow16 (initial.chBeg - start))) initial.colBeg extra
      (by omega)
    rw [copiedLength, ← isExtra, started.row] at dropped
    rw [isDirty, started.row]
    exact dropped
  · rw [isFront, columns_append]
    omega
  · omega
  · exact isDirty.symm
  · simp [isFront]
  · simp [isFront, text_append]
  · rw [isFront, isLeft, text_append, span.isChars, isMore, text_append, append_assoc]
  · exact keeps_lead_in started rfl _ isFront

end Cogterm.Buffer
