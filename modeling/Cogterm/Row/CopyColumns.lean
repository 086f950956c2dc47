import Cogterm.Row.Refinement

namespace Cogterm.Buffer

open Library Glyphs List Nat

variable {Attr : Type} [Inhabited Attr]

-- The columns that CopyTextFrom reports depend on the source alone, so nothing
-- is asked of the row that is copied to.
def CopyColumns (column limit sourceCount : Nat) (source : Glyphs) (first last : Nat) (final : RowCopyTextFromState) : Prop :=
  let copied := takeColumns (min (limit - column) (last - first)) (between first last source)
  (¬ (column < limit ∧ between first last source ≠ []) ∧ final.columnEnd = column ∧
    final.sourceColumnEnd = sourceCount) ∨ ((column < limit ∧ between first last source ≠ []) ∧
      (copied = between first last source → final.columnEnd = column + columns copied) ∧
      (copied ≠ between first last source → final.columnEnd = limit) ∧ final.sourceColumnEnd = first + columns copied)

omit [Inhabited Attr] in
theorem finish_columns {h final : WriteHelper Attr} (finished : h.finish heap = some final) :
    final.colBeg = h.colBeg ∧ final.colEnd = h.colEnd ∧ final.colLimit = h.colLimit ∧
    final.charsConsumed = h.charsConsumed := by
  obtain ⟨row, _, isFinal⟩ := Option.map_eq_some_iff.mp finished
  rw [← isFinal]
  exact ⟨rfl, rfl, rfl, rfl⟩

theorem taken_text_iff : (text (takeColumns room glyphs)).length = (text glyphs).length ↔ takeColumns room glyphs = glyphs := by
  obtain ⟨rest, split⟩ := take_columns_leads room glyphs
  constructor
  · intro same
    nth_rewrite 2 [split] at same
    rw [text_append, length_append] at same
    have none : rest = [] := (text_nil_iff rest).mp (length_eq_zero_iff.mp (by omega))
    rw [none, append_nil] at split
    exact split.symm
  · intro same
    rw [same]

omit [Inhabited Attr] in
theorem helper_copy_columns (h : WriteHelper Attr) (charOffsets : List Nat) (start count : Nat) (rest copied : Glyphs)
    (span : Span charOffsets h.chars start count rest copied) (started : h.colEnd = h.colBeg) (order : h.colBeg ≤ h.colLimit)
    (narrow : h.colLimit ≤ 0xFFFF) : let taken := takeColumns (min (h.colLimit - h.colBeg) count) copied
    (h.copyTextFrom charOffsets).colEnd = h.colBeg + columns taken ∧
    (h.copyTextFrom charOffsets).charsConsumed = (text taken).length := by
  simp only [span_taken span (min_le_right _ _)]
  rw [helper_copy_text span started order narrow rfl]
  exact ⟨rfl, rfl⟩

variable {final : RowCopyTextFromState} {row : Row Attr}

theorem copy_text_columns {source : Row Attr} {sourceGlyphs : Glyphs}
    (sourceModels : Represents source sourceGlyphs) (narrow : row.columnCount ≤ 0xFFFF) {state : RowCopyTextFromState}
    (returned : (row.copyTextFrom env (some source) state).2 = some final) {column limit first last : Nat}
    (isColumn : row.clampedColumnInclusive state.columnBegin = column)
    (isLimit : row.clampedColumnInclusive state.columnLimit = limit)
    (isFirst : source.clampedColumnInclusive state.sourceColumnBegin = first)
    (isLast : source.clampedColumnInclusive state.sourceColumnLimit = last) :
    CopyColumns column limit source.columnCount sourceGlyphs first last final := by
  by_cases copies : column < limit ∧ between first last sourceGlyphs ≠ []
  · obtain ⟨charOffsets, chars, start, rest, span, unfolded⟩ :=
      copy_text_starts env sourceModels state isColumn isLimit isFirst isLast copies
    subst isColumn isLimit
    obtain ⟨colEnd, charsConsumed⟩ :=
      helper_copy_columns (WriteHelper.start row state.columnBegin state.columnLimit chars) charOffsets
      _ _ _ _ span rfl (le_of_lt copies.1) (le_trans (clamped_le row _) narrow)
    rw [unfolded] at returned
    split at returned
    · cases returned
    rename_i h finished
    obtain ⟨sameBeg, sameEnd, sameLimit, sameConsumed⟩ := finish_columns finished
    cases returned
    rw [charsConsumed] at sameConsumed
    have begins : h.colBeg = row.clampedColumnInclusive state.columnBegin := sameBeg
    have ends := sameEnd.trans colEnd
    simp only [WriteHelper.start] at ends
    refine Or.inr ⟨copies, fun whole => ?_, fun cut => ?_, ?_⟩
    · have all : h.charsConsumed = chars.length := by
        rw [sameConsumed, span.isChars]
        exact taken_text_iff.mpr whole
      simp only [all, ends]
      rfl
    · have some : h.charsConsumed ≠ chars.length := by
        rw [sameConsumed, span.isChars]
        exact mt taken_text_iff.mp cut
      simp only [some, sameLimit]
      rfl
    · push_cast
      omega
  · rw [copy_text_stays env sourceModels state isColumn isLimit isFirst isLast copies] at returned
    cases returned
    exact Or.inl ⟨copies, rfl, rfl⟩

theorem take_columns_le (room : Nat) (glyphs : Glyphs) : columns (takeColumns room glyphs) ≤ room := by
  induction glyphs generalizing room with
  | nil => exact zero_le room
  | cons glyph rest ih =>
    rw [takeColumns]
    split
    · have rest := ih (room - glyph.width)
      rw [columns_cons]
      omega
    · exact zero_le room

theorem between_le (first last : Nat) (glyphs : Glyphs) : columns (between first last glyphs) ≤ last - first := by
  rw [between]
  split
  · exact take_columns_le _ _
  · exact zero_le _

variable {first last : Nat} {rest : Glyphs}

theorem between_starts (inside : first ≤ columns glyphs) (isBetween : between first last glyphs = glyph :: rest) :
    ∃ before after, glyphs = before ++ glyph :: after ∧ columns before = first := by
  rw [between] at isBetween
  split at isBetween
  case isFalse => cases isBetween
  case isTrue boundary =>
    obtain ⟨before, after, split, isFirst⟩ | ⟨before, wide, after, split, isWide, isFirst⟩ :=
      column_cases glyphs first inside
    · have cut := cut_boundary before after
      rw [← split, ← isFirst] at cut
      rw [cut.2] at isBetween
      obtain ⟨more, leads⟩ := take_columns_leads (last - first) after
      rw [isBetween] at leads
      exact ⟨before, rest ++ more, by rw [split, leads]; rfl, isFirst.symm⟩
    · have cut := cut_inside before after isWide
      rw [← split, ← isFirst] at cut
      rw [cut.1] at boundary
      omega

variable {before after : Glyphs} {wide : Glyph}

omit [Inhabited Attr] in
theorem wide_trailer (models : Represents row (before ++ wide :: after)) (isWide : wide.width = 2) :
    row.uncheckedIsTrailer (columns before + 1) = true := by
  have dropped := encode_drop_inside 0 before after wide isWide
  rw [← models.offsets] at dropped
  exact (trailer_at row (columns before + 1) dropped (front_small models.fits)).2

omit [Inhabited Attr] in
theorem between_wide (models : Represents row glyphs) (inside : first ≤ row.columnCount)
    (isBetween : between first last glyphs = wide :: rest) (isWide : wide.width = 2) :
    first + 2 ≤ last ∧ row.uncheckedIsTrailer (first + 1) = true := by
  have most := between_le first last glyphs
  obtain ⟨before, after, split, isFirst⟩ := between_starts (by rwa [models.columns]) isBetween
  rw [isBetween, columns_cons] at most
  rw [split] at models
  exact ⟨by omega, isFirst ▸ wide_trailer models isWide⟩

variable {column limit sourceCount : Nat} {source : Glyphs}

theorem copy_columns_start (copied : CopyColumns column limit sourceCount source first last final)
    (start : final.columnEnd = 0) : column = 0 ∧ ¬ (column < limit ∧ between first last source ≠ []) := by
  obtain ⟨stays, columnEnd, _⟩ | ⟨copies, whole, part, _⟩ := copied
  · exact ⟨by omega, stays⟩
  exfalso
  by_cases all : takeColumns (min (limit - column) (last - first)) (between first last source) = between first last source
  · have ends := whole all
    rw [all] at ends
    cases isBetween : between first last source with
    | nil => exact copies.2 isBetween
    | cons glyph rest =>
      have positive := glyph.positive
      rw [isBetween, columns_cons] at ends
      omega
  · have ends := part all
    omega

theorem copy_columns_step (inside : last ≤ sourceCount) (room : column < limit)
    (copied : CopyColumns column limit sourceCount source first last final) :
    (0 ≤ final.columnEnd ∧ final.columnEnd ≤ limit) ∧
    (last ≤ final.sourceColumnEnd ∨ first < final.sourceColumnEnd ∨
        (final.sourceColumnEnd = first ∧ final.columnEnd = limit ∧ limit = column + 1 ∧
          ∃ wide rest, between first last source = wide :: rest ∧ wide.width = 2)) := by
  obtain ⟨_, columnEnd, sourceColumnEnd⟩ | ⟨copies, whole, part, sourceColumnEnd⟩ := copied
  · exact ⟨by omega, .inl (by omega)⟩
  obtain ⟨taken, isTaken⟩ :
    ∃ taken, taken = takeColumns (min (limit - column) (last - first)) (between first last source) :=
    ⟨_, rfl⟩
  rw [← isTaken] at whole part sourceColumnEnd
  have most := take_columns_le (min (limit - column) (last - first)) (between first last source)
  rw [← isTaken] at most
  have range : 0 ≤ final.columnEnd ∧ final.columnEnd ≤ limit := by
    by_cases all : taken = between first last source
    · rw [whole all]
      omega
    · rw [part all]
      omega
  refine ⟨range, ?_⟩
  cases isBetween : between first last source with
  | nil => exact absurd isBetween copies.2
  | cons glyph rest =>
    rw [isBetween, takeColumns] at isTaken
    by_cases fits : glyph.width ≤ min (limit - column) (last - first)
    · rw [if_pos fits] at isTaken
      have positive := glyph.positive
      rw [isTaken, columns_cons] at sourceColumnEnd
      exact .inr (.inl (by omega))
    · rw [if_neg fits] at isTaken
      have narrow := glyph.narrow
      have least := between_le first last source
      rw [isBetween, columns_cons] at least
      rw [isTaken, columns_nil] at sourceColumnEnd
      refine .inr (.inr ⟨by omega, part (by simp [isTaken, isBetween]), by omega, glyph, rest, rfl, by omega⟩)

end Cogterm.Buffer
