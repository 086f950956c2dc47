import Cogterm.Row.Refinement

namespace Cogterm.Buffer

open Library Glyphs List Nat
open Unicode (WChar)

variable {Attr : Type}

-- What the accessors of a row rely on, in terms of its fields.
structure Row.Valid (row : Row Attr) : Prop where
  count : row.charOffsets.length = row.columnCount + 1
  stored : ∀ column, row.charOffsets.getD column 0 ≤ 0xFFFF
  capacity : row.chars.length ≤ 0xFFFF
  first : row.charOffsets.getD 0 0 = 0
  increasing : ∀ left right, left < right → right ≤ row.columnCount →
    row.uncheckedIsTrailer left = false → row.uncheckedIsTrailer right = false →
    row.charOffsets.getD left 0 < row.charOffsets.getD right 0
  trailers : ∀ column ≤ row.columnCount, row.uncheckedIsTrailer column = true →
    ∃ head < column, row.uncheckedIsTrailer head = false ∧
      (∀ between, head < between → between ≤ column → row.uncheckedIsTrailer between = true) ∧
      row.uncheckedCharOffset column = row.charOffsets.getD head 0
  narrow : ∀ column, row.uncheckedIsTrailer column = true → row.uncheckedIsTrailer (column + 1) = false
  last : row.uncheckedIsTrailer row.columnCount = false
  inside : row.charSize ≤ row.chars.length
  glyphs : ∀ column : Nat, column < row.columnCount → row.glyphAt column ≠ []

theorem text_shorter {left right before after : Glyphs} (same : before ++ after = left ++ right)
    (less : columns before < columns left) : (text before).length < (text left).length := by
  rcases append_eq_append_iff.mp same with ⟨part, isLeft, _⟩ | ⟨part, isBefore, _⟩
  · cases part with
    | nil =>
      rw [isLeft, append_nil] at less
      exact absurd less (lt_irrefl _)
    | cons glyph rest =>
      have some := length_pos_iff.mpr glyph.written
      rw [isLeft, text_append, text_cons, length_append, length_append]
      omega
  · rw [isBefore, columns_append] at less
    omega

section

variable (row : Row Attr) (glyphs : Glyphs) (models : Represents row glyphs) (column : Nat) (inside : column ≤ row.columnCount)

inductive Entry (row : Row Attr) (glyphs : Glyphs) : Nat → Prop where
  | head (before after : Glyphs) (split : glyphs = before ++ after) (plain : row.uncheckedIsTrailer (columns before) = false)
      (entry : row.charOffsets.getD (columns before) 0 = (text before).length) : Entry row glyphs (columns before)
  | trailer (before after : Glyphs) (wide : Glyph) (split : glyphs = before ++ wide :: after) (isWide : wide.width = 2)
      (raw : row.charOffsets.getD (columns before + 1) 0 = (text before).length + charOffsetsTrailer)
      (flagged : row.uncheckedIsTrailer (columns before + 1) = true) (plain : row.uncheckedIsTrailer (columns before) = false)
      (entry : row.uncheckedCharOffset (columns before + 1) = row.charOffsets.getD (columns before) 0) :
      Entry row glyphs (columns before + 1)

include models in
theorem boundary_entry (before after : Glyphs) (split : glyphs = before ++ after) :
    row.uncheckedIsTrailer (columns before) = false ∧ row.charOffsets.getD (columns before) 0 = (text before).length := by
  have fits := models.fits
  rw [split, text_append, length_append, charOffsetsMask] at fits
  obtain ⟨rest, head⟩ := encode_head (0 + (text before).length) after
  have dropped : row.charOffsets.drop (columns before) = (0 + (text before).length) :: rest := by
    rw [models.offsets, split, encode_drop_boundary, head]
  rw [zero_add] at dropped
  exact ⟨(offset_at row _ rest dropped (by rw [charOffsetsTrailer]; omega)).2, getD_of_drop rest dropped⟩

include models inside in
theorem represents_entry : Entry row glyphs column := by
  rw [← models.columns] at inside
  rcases column_cases glyphs column inside with ⟨before, after, split, isColumn⟩ |
    ⟨before, wide, after, split, isWide, isColumn⟩
  · obtain ⟨plain, entry⟩ := boundary_entry row glyphs models before after split
    rw [isColumn]
    exact .head before after split plain entry
  obtain ⟨plain, entry⟩ := boundary_entry row glyphs models before (wide :: after) split
  have fits := models.fits
  rw [split, text_append, length_append, charOffsetsMask] at fits
  have dropped := encode_drop_inside 0 before after wide isWide
  rw [← split, ← models.offsets] at dropped
  obtain ⟨offset, flagged⟩ := trailer_at row _ dropped (by rw [charOffsetsTrailer]; omega)
  rw [isColumn]
  have raw := getD_of_drop _ dropped
  rw [zero_add] at raw
  exact .trailer before after wide split isWide raw flagged plain (by rw [offset, entry, zero_add])

end

theorem glyph_at_written (models : Represents row glyphs) (inside : column < row.columnCount) : row.glyphAt column ≠ [] := by
  have width := models.columns
  have clamped : row.clampedColumn column = column := by
    rw [Row.clampedColumn, clamp]
    split
    · omega
    · split <;> omega
  have start := (located_backward row models.fits column (by omega) models.offsets).2
  have near := (take_columns_near glyphs column (by omega)).1
  obtain ⟨rest, taken⟩ := take_columns_leads column glyphs
  obtain ⟨before, split, behind, forward, finish, _⟩ := located_forward row models.fits (column + 1) (by omega)
    (by rw [models.offsets, encode_length]) (by rw [models.offsets])
  have longer := text_shorter (taken.symm.trans split) (by omega)
  obtain ⟨spare, isChars⟩ := models.chars
  have capacity : (text before).length ≤ row.chars.length := by
    rw [isChars, split, text_append, length_append, length_append]
    omega
  simp only [Row.glyphAt, clamped, forward, finish, ne_eq, drop_eq_nil_iff, length_take]
  omega

theorem represents_valid (models : Represents row glyphs) : row.Valid := by
  have count : row.charOffsets.length = row.columnCount + 1 := by rw [models.offsets, encode_length, models.columns]
  refine ⟨count, ?_, models.capacity, (boundary_entry row glyphs models [] glyphs rfl).2, ?_, ?_, ?_, ?_, ?_, ?_⟩
  · intro column
    by_cases bounded : column ≤ row.columnCount
    · cases represents_entry row glyphs models column bounded with
      | head before after split plain entry =>
        have fits := models.fits
        rw [split, text_append, length_append, charOffsetsMask] at fits
        omega
      | trailer before after wide split isWide raw =>
        have fits := models.fits
        rw [split, text_append, length_append, charOffsetsMask] at fits
        rw [raw, charOffsetsTrailer]
        omega
    · rw [getD_eq_default _ _ (by omega)]
      exact zero_le _
  · intro left right less bounded plainLeft plainRight
    have first := represents_entry row glyphs models left (by omega)
    have second := represents_entry row glyphs models right bounded
    cases first with
    | trailer _ _ _ _ _ _ flagged => rw [flagged] at plainLeft; contradiction
    | head before after split plain entry =>
      cases second with
      | trailer _ _ _ _ _ _ flagged => rw [flagged] at plainRight; contradiction
      | head before' after' split' plain' entry' =>
        rw [entry, entry']
        exact text_shorter (split.symm.trans split') less
  · intro column bounded flagged
    cases represents_entry row glyphs models column bounded with
    | head before after split plain entry => rw [plain] at flagged; contradiction
    | trailer before after wide split isWide raw flagged plain entry =>
      refine ⟨columns before, lt_succ_self _, plain, ?_, entry⟩
      intro between above below
      rwa [show between = columns before + 1 by omega]
  · intro column flagged
    by_cases bounded : column ≤ row.columnCount
    · cases represents_entry row glyphs models column bounded with
      | head before after split plain entry => rw [plain] at flagged; contradiction
      | trailer before after wide split isWide =>
        have ends := (boundary_entry row glyphs models (before ++ [wide]) after (by simp [split])).1
        rwa [columns_append, columns_cons, isWide] at ends
    · rw [Row.uncheckedIsTrailer, getD_eq_default _ _ (by omega)] at flagged
      contradiction
  · have ends := (boundary_entry row glyphs models glyphs [] (append_nil _).symm).1
    rwa [models.columns] at ends
  · obtain ⟨spare, isChars⟩ := models.chars
    simp [represented_char_size models, isChars]
  · exact fun column bounded => glyph_at_written models bounded

section

variable (row : Row Attr) (valid : row.Valid)

include valid

theorem valid_offset_inside (inside : column ≤ row.columnCount) (plain : row.uncheckedIsTrailer column = false) :
    row.charOffsets.getD column 0 ≤ row.charSize := by
  rcases lt_or_eq_of_le inside with less | same
  · exact le_of_lt (valid.increasing column _ less (le_refl _) plain valid.last)
  · rw [same]
    exact le_refl _

def Decodes (row : Row Attr) (column : Nat) (glyphs : Glyphs) : Prop :=
  columns glyphs = row.columnCount - column ∧ row.charOffsets.drop column = encode (row.charOffsets.getD column 0) glyphs ∧
    text glyphs = (row.chars.take row.charSize).drop (row.charOffsets.getD column 0)

theorem decodes_cons (positive : 0 < width) (narrow : width ≤ 2) (inside : column + width ≤ row.columnCount)
    (plain : row.uncheckedIsTrailer column = false) (plainNext : row.uncheckedIsTrailer (column + width) = false)
    (entries : row.charOffsets.drop column = row.charOffsets.getD column 0 ::
      replicate (width - 1) (row.charOffsets.getD column 0 + charOffsetsTrailer) ++ row.charOffsets.drop (column + width))
    (decodes : Decodes row (column + width) rest) : ∃ glyphs, Decodes row column glyphs := by
  have less := valid.increasing column (column + width) (by omega) inside plain plainNext
  have bounded := valid_offset_inside row valid inside plainNext
  have stored := valid.inside
  obtain ⟨count, offsets, isText⟩ := decodes
  generalize isStart : row.charOffsets.getD column 0 = start at *
  generalize row.charOffsets.getD (column + width) 0 = finish at *
  generalize isStored : row.chars.take row.charSize = chars at *
  have length : ((chars.drop start).take (finish - start)).length = finish - start := by
    rw [length_take, length_drop, ← isStored, length_take]
    omega
  have written : (chars.drop start).take (finish - start) ≠ [] := by
    apply ne_nil_of_length_pos
    omega
  obtain ⟨glyph, glyphText, glyphWidth⟩ : ∃ glyph : Glyph, glyph.text = (chars.drop start).take (finish - start) ∧
    glyph.width = width := ⟨⟨_, width, written, positive, narrow⟩, rfl, rfl⟩
  refine ⟨glyph :: rest, ?_, ?_, ?_⟩
  · rw [columns_cons]
    omega
  · have behind : start + (text [glyph]).length = finish := by
      rw [text_cons, text_nil, append_nil, glyphText]
      omega
    rw [entries, isStart, offsets, ← singleton_append (l := rest), encode_append, behind, Glyphs.offsets, Glyph.offsets,
      glyphWidth]
    simp [Glyphs.offsets]
  · rw [isStart, isStored, text_cons, isText, glyphText, show finish = start + (finish - start) by omega, ← drop_drop,
      Nat.add_sub_cancel_left, take_append_drop]

theorem valid_entry (inside : column ≤ row.columnCount) :
    row.charOffsets.drop column = row.charOffsets.getD column 0 :: row.charOffsets.drop (column + 1) := by
  have count := valid.count
  rw [drop_eq_getElem_cons (by omega), getD_eq_getElem _ _ (by omega)]

theorem valid_trailer (inside : column + 1 ≤ row.columnCount) (plain : row.uncheckedIsTrailer column = false)
    (trailer : row.uncheckedIsTrailer (column + 1) = true) :
    row.charOffsets.getD (column + 1) 0 = row.charOffsets.getD column 0 + charOffsetsTrailer := by
  obtain ⟨head, before, _, between, offset⟩ := valid.trailers (column + 1) inside trailer
  have isHead : head = column := by
    by_contra other
    have flagged := between column (by omega) (le_succ column)
    rw [plain] at flagged
    contradiction
  have stored := valid.stored (column + 1)
  have large : charOffsetsTrailer ≤ row.charOffsets.getD (column + 1) 0 := by
    by_contra small
    rw [Row.uncheckedIsTrailer, (mask_offset (Nat.lt_of_not_le small)).2] at trailer
    contradiction
  rw [Row.uncheckedCharOffset, isHead, charOffsetsMask, and_two_pow_sub_one_eq_mod _ 15] at offset
  rw [charOffsetsTrailer] at large ⊢
  omega

theorem valid_glyphs (column : Nat) (inside : column ≤ row.columnCount) (plain : row.uncheckedIsTrailer column = false) :
    ∃ glyphs, Decodes row column glyphs := by
  generalize left : row.columnCount - column = fuel
  induction fuel using Nat.strongRecOn generalizing column with
  | ind fuel ih =>
    rcases lt_or_eq_of_le inside with less | same
    · by_cases trailer : row.uncheckedIsTrailer (column + 1) = true
      · have further : column + 2 ≤ row.columnCount := by
          by_contra ends
          rw [show column + 1 = row.columnCount by omega, valid.last] at trailer
          contradiction
        have plainNext := valid.narrow (column + 1) trailer
        obtain ⟨rest, decodes⟩ := ih (row.columnCount - (column + 2)) (by omega) (column + 2) further plainNext rfl
        refine decodes_cons row valid (by decide) (by decide) further plain plainNext ?_ decodes
        rw [valid_entry row valid inside, valid_entry row valid less, valid_trailer row valid less plain trailer]
        rfl
      · have plainNext := Bool.eq_false_of_not_eq_true trailer
        obtain ⟨rest, decodes⟩ := ih (row.columnCount - (column + 1)) (by omega) (column + 1) less plainNext rfl
        exact decodes_cons row valid (by decide) (by decide) less plain plainNext (valid_entry row valid inside) decodes
    · refine ⟨[], by simp [same], ?_, ?_⟩
      · rw [valid_entry row valid inside, drop_eq_nil_of_le (by rw [valid.count, same])]
        rfl
      · rw [same, drop_eq_nil_of_le]
        · rfl
        · rw [length_take]
          exact min_le_left _ _

theorem valid_represents : ∃ glyphs, Represents row glyphs := by
  have plain : row.uncheckedIsTrailer 0 = false := by rw [Row.uncheckedIsTrailer, valid.first]; rfl
  obtain ⟨glyphs, count, offsets, isText⟩ := valid_glyphs row valid 0 (zero_le _) plain
  rw [valid.first] at offsets isText
  have small : row.charSize ≤ charOffsetsMask := by
    have stored := valid.stored row.columnCount
    have last := valid.last
    by_contra large
    rw [Row.uncheckedIsTrailer] at last
    rw [Row.charSize] at large
    generalize row.charOffsets.getD row.columnCount 0 = size at *
    have rest := mask_trailer (size - charOffsetsTrailer) (by rw [charOffsetsTrailer]; omega)
    rw [charOffsetsMask] at large
    rw [Nat.sub_add_cancel (by rw [charOffsetsTrailer]; omega)] at rest
    rw [rest.2] at last
    contradiction
  refine ⟨glyphs, count, offsets, ⟨row.chars.drop row.charSize, ?_⟩, ?_, valid.capacity⟩
  · simp [isText]
  · simpa [isText] using le_trans (min_le_left _ _) small

end

theorem valid_iff_represents : row.Valid ↔ ∃ glyphs, Represents row glyphs :=
  ⟨valid_represents row, fun ⟨_, models⟩ => represents_valid models⟩

theorem blank_represents (row : Row Attr) (narrow : row.columnCount ≤ charOffsetsMask)
    (chars : row.chars = replicate row.columnCount unicodeSpace) (offsets : row.charOffsets = iota (row.columnCount + 1) 0) :
    Represents row (spaces row.columnCount) := by
  refine ⟨columns_spaces, ?_, ⟨[], ?_⟩, ?_, ?_⟩
  · have small : 0 + row.columnCount < charOffsetsTrailer := by
      rw [charOffsetsMask] at narrow
      rw [charOffsetsTrailer]
      omega
    have last : narrow16 (0 + row.columnCount : Nat) = 0 + row.columnCount :=
      narrow_small _ (lt_trans small (by decide))
    have front := iota_spaces small
    rw [iota] at front
    rw [offsets, iota, range_succ, map_append, front, map_singleton, last, encode, text_spaces, length_replicate]
  · simp [chars]
  · simpa using narrow
  · simpa [chars] using le_trans narrow (by decide)

theorem glyph_eq {left right : Glyph} (sameText : left.text = right.text) (sameWidth : left.width = right.width) :
    left = right := by
  cases left
  cases right
  cases sameText
  cases sameWidth
  rfl

theorem encode_cons (start : Nat) (glyph : Glyph) (rest : Glyphs) :
    encode start (glyph :: rest) = glyph.offsets start ++ encode (start + glyph.text.length) rest := by
  simp [Glyphs.offsets, encode, add_assoc]

theorem encode_width (narrow : glyph.width = 1) (isWide : other.width = 2)
    (small : start + glyph.text.length ≤ charOffsetsMask) :
    encode start (glyph :: rest) ≠ encode start (other :: others) := by
  intro same
  have mask : charOffsetsMask = 32767 := rfl
  have trailer : charOffsetsTrailer = 32768 := rfl
  obtain ⟨more, isRest⟩ := encode_head (start + glyph.text.length) rest
  rw [encode_cons, encode_cons, Glyph.offsets, Glyph.offsets, narrow, isWide, isRest] at same
  simp at same
  omega

theorem encode_unique (start : Nat) (right : Glyphs) (same : encode start left = encode start right)
    (chars : text left ++ spare = text right ++ other) (leftFits : start + (text left).length ≤ charOffsetsMask)
    (rightFits : start + (text right).length ≤ charOffsetsMask) : left = right := by
  induction left generalizing start right with
  | nil =>
    cases right with
    | nil => rfl
    | cons glyph rest =>
      have length := congrArg length same
      have positive := glyph.positive
      rw [encode_length, encode_length, columns_cons, columns_nil] at length
      omega
  | cons glyph rest ih =>
    cases right with
    | nil =>
      have length := congrArg length same
      have positive := glyph.positive
      rw [encode_length, encode_length, columns_cons, columns_nil] at length
      omega
    | cons second others =>
      rw [text_cons, length_append] at leftFits rightFits
      have firstNarrow := glyph.narrow
      have firstPositive := glyph.positive
      have secondNarrow := second.narrow
      have secondPositive := second.positive
      have sameWidth : glyph.width = second.width := by
        by_contra different
        rcases lt_or_gt_of_ne different with less | less
        · exact encode_width (by omega) (by omega) (by omega) same
        · exact encode_width (by omega) (by omega) (by omega) same.symm
      rw [encode_cons, encode_cons, Glyph.offsets, sameWidth] at same
      have behind := append_cancel_left same
      obtain ⟨firstMore, isFirst⟩ := encode_head (start + glyph.text.length) rest
      obtain ⟨secondMore, isSecond⟩ := encode_head (start + second.text.length) others
      have sameLength : glyph.text.length = second.text.length := by
        rw [isFirst, isSecond] at behind
        have heads := (cons.inj behind).1
        omega
      rw [text_cons, text_cons, append_assoc, append_assoc] at chars
      obtain ⟨sameText, restText⟩ := append_inj chars sameLength
      rw [sameLength] at behind
      rw [glyph_eq sameText sameWidth, ih (start + second.text.length) others behind restText (by omega) (by omega)]

theorem represents_unique (isLeft : Represents row left) (isRight : Represents row right) : left = right := by
  obtain ⟨spare, isChars⟩ := isLeft.chars
  obtain ⟨other, isOther⟩ := isRight.chars
  refine encode_unique 0 right (isLeft.offsets.symm.trans isRight.offsets) (isChars.symm.trans isOther) ?_ ?_
  · simpa using isLeft.fits
  · simpa using isRight.fits

end Cogterm.Buffer
