import Cogterm.Row.System

namespace Cogterm.Buffer

open Library Glyphs List

variable {Attr : Type} [Inhabited Attr]

-- The flag is set on columns that continue a glyph and on no others. An offset
-- of more than 15 bits sets it as well.
structure Row.OffsetsFit (row : Row Attr) : Prop where
  last : row.uncheckedIsTrailer row.columnCount = false
  trailers : ∀ column ≤ row.columnCount, row.uncheckedIsTrailer column = true →
    ∃ head < column, row.uncheckedIsTrailer head = false ∧
      (∀ between, head < between → between ≤ column → row.uncheckedIsTrailer between = true) ∧
      row.uncheckedCharOffset column = row.charOffsets.getD head 0

-- The new text of the row has at most 15 bits of length, or it is refused and
-- a blank row has.
def TextFits (heap : Heap) (row : Row Attr) (result : Glyphs) : Prop :=
  (Refused heap row (text result).length ∧ row.columnCount ≤ charOffsetsMask) ∨
    (¬ Refused heap row (text result).length ∧ (text result).length ≤ charOffsetsMask)

omit [Inhabited Attr] in
theorem large_size_flagged (row : Row Attr) (large : charOffsetsMask < row.charSize) (stored : row.charSize ≤ 0xFFFF) :
    row.uncheckedIsTrailer row.columnCount = true := by
  rw [Row.charSize] at large stored
  rw [Row.uncheckedIsTrailer]
  generalize row.charOffsets.getD row.columnCount 0 = size at *
  rw [charOffsetsMask] at large
  have flagged := (mask_trailer (size - charOffsetsTrailer) (by rw [charOffsetsTrailer]; omega)).2
  rw [Nat.sub_add_cancel (by rw [charOffsetsTrailer]; omega)] at flagged
  rw [flagged]
  rfl

variable {row : Row Attr} {glyphs : Glyphs}

omit [Inhabited Attr] in
theorem represents_offsets_fit (models : Represents row glyphs) : row.OffsetsFit :=
  ⟨(represents_valid models).last, (represents_valid models).trailers⟩

omit [Inhabited Attr] in
theorem blank_char_size (columns : row.columnCount ≤ 0xFFFF) (offsets : row.charOffsets = iota (row.columnCount + 1) 0) :
    row.charSize = row.columnCount := by
  rw [Row.charSize, offsets, iota, range_succ, map_append, getD_append_right _ _ _ _ (by simp)]
  simp only [length_map, length_range, Nat.sub_self, Nat.zero_add]
  exact narrow_small _ (Nat.lt_succ_of_le columns)

theorem performs_offsets_fit_iff (models : Represents row glyphs) (columns : row.columnCount ≤ 0xFFFF)
    (performs : Performs heap row result returns outcome) :
    (outcome.2 = none ∧ outcome.1.charOffsets = row.charOffsets ∨ outcome.1.OffsetsFit) ↔ TextFits heap row result := by
  rcases performs with ⟨refused, failed⟩ | ⟨accepted, ⟨value, returned, _⟩, updates⟩
  · have size : (row.reset default).charSize = row.columnCount := blank_char_size columns rfl
    rw [failed]
    constructor
    · rintro (⟨_, unchanged⟩ | fits)
      · refine Or.inl ⟨refused, ?_⟩
        have same : (row.reset default).charSize = row.charSize :=
          congrArg (fun offsets => offsets.getD row.columnCount 0) unchanged
        rw [← size, same, represented_char_size models]
        exact models.fits
      · refine Or.inl ⟨refused, ?_⟩
        by_contra large
        have flagged := large_size_flagged (row.reset default) (by omega) (by rw [size]; exact columns)
        rw [fits.last] at flagged
        contradiction
    · rintro (⟨_, narrow⟩ | ⟨accepted, _⟩)
      · exact Or.inr (represents_offsets_fit (blank_represents (row.reset default) narrow rfl rfl))
      · exact absurd refused accepted
  · have short : (text result).length ≤ 0xFFFF := by
      by_contra long
      exact accepted (Or.inl (by omega))
    rw [returned]
    constructor
    · rintro (⟨none, _⟩ | fits)
      · cases none
      · refine Or.inr ⟨accepted, ?_⟩
        by_contra large
        have flagged := large_size_flagged outcome.1 (by rw [updates.charSize]; omega) (by rw [updates.charSize]; exact short)
        rw [fits.last] at flagged
        contradiction
    · rintro (⟨refused, _⟩ | ⟨_, fits⟩)
      · exact absurd refused accepted
      · exact Or.inr (represents_offsets_fit (updates.models fits))

theorem replace_text_offsets_fit_iff (env : Environment) (row : Row Attr) (valid : row.Valid)
    (columnCount : row.columnCount ≤ 0xFFFD) (state : RowWriteState) :
    ((row.replaceText env state).2 = none ∧ (row.replaceText env state).1.charOffsets = row.charOffsets ∨
        (row.replaceText env state).1.OffsetsFit) ↔ ∃ glyphs, Represents row glyphs ∧ TextFits env.heap row
          (replaceText env.measure glyphs (row.clampedColumnInclusive state.columnBegin)
            (row.clampedColumnInclusive state.columnLimit) state.text) := by
  have columns : row.columnCount ≤ 0xFFFF := Nat.le_trans columnCount (by decide)
  constructor
  · intro fits
    obtain ⟨glyphs, models⟩ := valid_represents row valid
    exact ⟨glyphs, models, (performs_offsets_fit_iff models columns (replace_text_performs env models columnCount state)).mp
      fits⟩
  · rintro ⟨glyphs, models, fits⟩
    exact (performs_offsets_fit_iff models columns (replace_text_performs env models columnCount state)).mpr fits

theorem replace_text_offsets_fit_letter :
    ((Row.construct 2 0).replaceText graphemeEnvironment ⟨[0x61], 0, 1, 0, 0, 0⟩).1.OffsetsFit := by
  have valid : (Row.construct 2 0).Valid :=
    valid_iff_represents.mpr ⟨_, blank_represents (Row.construct 2 0) (by decide) rfl rfl⟩
  have fits := (replace_text_offsets_fit_iff graphemeEnvironment (Row.construct 2 0) valid (by decide)
    ⟨[0x61], 0, 1, 0, 0, 0⟩).mpr ⟨spaces 2, blank_represents (Row.construct 2 0) (by decide) rfl rfl, .inr (by decide)⟩
  rcases fits with ⟨failed, _⟩ | fits
  · exact absurd failed (by decide)
  · exact fits

def Row.ofGlyphs (glyphs : Glyphs) (attr : Attr) : Row Attr :=
  { Row.construct (columns glyphs) attr with
    chars := text glyphs
    charOffsets := encode 0 glyphs }

omit [Inhabited Attr] in
theorem of_glyphs_represents (fits : (text glyphs).length ≤ charOffsetsMask) : Represents (Row.ofGlyphs glyphs attr) glyphs :=
  ⟨rfl, rfl, ⟨[], (append_nil _).symm⟩, fits, Nat.le_trans fits (by decide)⟩

-- A letter with all the combining marks that leave room for one more glyph.
def crowdedGlyph : Glyph := ⟨0x61 :: List.replicate 32765 0x301, 1, cons_ne_nil _ _, Nat.zero_lt_one, Glyph.space.narrow⟩

theorem crowded_length (glyph : Glyph) : (text [glyph, crowdedGlyph]).length = glyph.text.length + 32766 := by
  rw [text_cons, text_cons, text_nil, append_nil, length_append, crowdedGlyph, length_cons, length_replicate]

-- The surrogate pair of U+1D400, a narrow letter, takes the place of a space.
theorem replace_text_with_letter (measure : TextMeasure) (letter : measure.join [] [0xD835, 0xDC00] = (2, 1)) (glyph : Glyph)
    (narrow : glyph.width = 1) :
    (text (replaceText measure [Glyph.space, glyph] 0 1 [0xD835, 0xDC00])).length = 2 + glyph.text.length := by
  have layout : layoutUnicode measure 1 [] [] [0xD835, 0xDC00] =
      ⟨[⟨[0xD835, 0xDC00], 1, by decide, by decide, by decide⟩], [], 1⟩ := by
    simp [layoutUnicode, letter, joinedGlyph, cluster, layoutClusters]
  have isText : layoutText measure 1 0 (leadIn 0 [Glyph.space, glyph]) (previousText 0 [Glyph.space, glyph]) [0xD835, 0xDC00] =
      layoutUnicode measure 1 [] [] [0xD835, 0xDC00] := rfl
  rw [replaceText, if_pos (by decide), isText, layout]
  have after : dropColumns 1 [Glyph.space, glyph] = [glyph] := rfl
  have width : Glyph.space.width = 1 := rfl
  simp only [settle, after, columns_cons, text_append, text_spaces, text_cons, text_nil, length_append, length_replicate,
    length_cons, length_nil, width, narrow]
  omega

def crowdedRow : Row Nat := Row.ofGlyphs [Glyph.space, crowdedGlyph] 0

theorem replace_text_overflows_offsets : crowdedRow.Valid ∧
    let written := crowdedRow.replaceText graphemeEnvironment ⟨[0xD835, 0xDC00], 0, 1, 0, 0, 0⟩
    ¬ (written.2 = none ∧ written.1.charOffsets = crowdedRow.charOffsets ∨ written.1.OffsetsFit) := by
  rw [crowdedRow]
  have length := crowded_length Glyph.space
  have models : Represents (Row.ofGlyphs [Glyph.space, crowdedGlyph] 0) [Glyph.space, crowdedGlyph] :=
    of_glyphs_represents (by rw [length]; decide)
  refine ⟨valid_iff_represents.mpr ⟨_, models⟩, ?_⟩
  intro written fits
  simp only [written] at fits
  have iff := performs_offsets_fit_iff models (by decide)
    (replace_text_performs graphemeEnvironment models (by decide) ⟨[0xD835, 0xDC00], 0, 1, 0, 0, 0⟩)
  have grown := replace_text_with_letter graphemeEnvironment.measure (by decide +kernel) crowdedGlyph rfl
  have size : crowdedGlyph.text.length = 32766 := by rw [crowdedGlyph, length_cons, length_replicate]
  rw [size] at grown
  -- Neither is the text too long for 16 bits nor does the allocation fail.
  rcases iff.mp fits with ⟨refused, _⟩ | ⟨_, small⟩
  · rcases refused with long | ⟨_, failed⟩
    · exact absurd (grown ▸ long) (by decide)
    · cases failed
  · exact absurd (grown ▸ small) (by decide)

end Cogterm.Buffer
