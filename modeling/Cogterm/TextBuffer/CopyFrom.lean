import Cogterm.TextBuffer.Ready

namespace Cogterm.Buffer

open Library Til Glyphs List Nat

def Glyphs.leadOut (column : Nat) (glyphs : Glyphs) : Glyphs :=
  spaces (columns glyphs - columns (dropColumns column glyphs) - column) ++ dropColumns column glyphs

section

variable (glyphs source : Glyphs) (readable : Nat)

theorem drop_columns_fit (inside : readable ≤ columns glyphs) :
    columns (dropColumns readable glyphs) + readable ≤ columns glyphs := by
  rcases column_cases glyphs readable inside with ⟨before, after, split, isColumn⟩ |
    ⟨before, wide, after, split, isWide, isColumn⟩
  · rw [isColumn, split, (cut_boundary before after).2, columns_append]
    omega
  · rw [isColumn, split, (cut_inside before after isWide).2, columns_append, columns_cons]
    omega

theorem settle_source_iff (rest : List Unicode.WChar) (inside : readable ≤ columns source)
    (same : columns glyphs = columns source) : settle glyphs ⟨takeColumns readable source, rest, readable⟩ = source ↔
      columns (takeColumns readable source) = readable ∧ dropColumns readable source = leadOut readable glyphs := by
  have fit := drop_columns_fit glyphs readable (by rw [same]; exact inside)
  rw [settle, leadOut]
  rcases column_cases source readable inside with ⟨before, after, split, isColumn⟩ |
    ⟨before, wide, after, split, isWide, isColumn⟩
  · have cut := cut_boundary before after
    rw [← isColumn, ← split] at cut
    simp only [cut.1, cut.2, ← isColumn, true_and, append_assoc]
    constructor
    · intro whole
      exact (append_cancel_left (whole.trans split)).symm
    · intro same
      rw [← same, split]
  · have cut := cut_inside before after isWide
    rw [← isColumn, ← split] at cut
    simp only [cut.1]
    constructor
    · intro whole
      rw [append_assoc] at whole
      have rest := append_cancel_left (whole.trans split)
      obtain ⟨gap, isGap⟩ : ∃ gap, columns glyphs - columns (dropColumns readable glyphs) - columns before = gap + 1 :=
        ⟨columns glyphs - columns (dropColumns readable glyphs) - readable, by omega⟩
      rw [isGap, spaces, replicate_succ] at rest
      have width := congrArg Glyph.width (List.cons.inj rest).1
      rw [isWide] at width
      cases width
    · intro boundary
      omega

end

def Row.readableColumns (source : Row TextAttribute) : Nat := source.clampedColumnInclusive source.getReadableColumnCount

-- The columns that are not copied are the same already, and so is the flag
-- unless the write reaches the end of the row.
inductive RestAgrees (source target : Row TextAttribute) (sourceGlyphs glyphs : Glyphs) : Prop where
  | nothing (none : takeColumns source.readableColumns sourceGlyphs = []) (same : glyphs = sourceGlyphs)
      (padded : target.doubleBytePadded = source.doubleBytePadded)
  | written (some : takeColumns source.readableColumns sourceGlyphs ≠ [])
      (boundary : columns (takeColumns source.readableColumns sourceGlyphs) = source.readableColumns)
      (rest : dropColumns source.readableColumns sourceGlyphs = leadOut source.readableColumns glyphs)
      (padded : source.doubleBytePadded =
        if columns (dropColumns source.readableColumns glyphs) = 0 then decide (source.readableColumns < target.columnCount)
        else target.doubleBytePadded)

structure CopyOf (source copied : Row TextAttribute) (sourceGlyphs : Glyphs) : Prop where
  glyphs : Represents copied sourceGlyphs
  attr : copied.attr = source.attr
  wrapForced : copied.wrapForced = source.wrapForced
  doubleBytePadded : copied.doubleBytePadded = source.doubleBytePadded
  lineRendition : copied.lineRendition = source.lineRendition

def TextCopied (source : Row TextAttribute) (sourceGlyphs : Glyphs) (outcome : Row TextAttribute × Option RowCopyTextFromState) :
    Prop :=
  outcome.2.isSome ∧ Represents outcome.1 sourceGlyphs ∧ outcome.1.doubleBytePadded = source.doubleBytePadded

section

variable (env : Environment) (plenty : ∀ size, size ≤ 0xFFFF → (env.heap.allocate size).isSome)
  {row source : Row TextAttribute}
  (glyphs sourceGlyphs : Glyphs) (models : Represents row glyphs) (sourceModels : Represents source sourceGlyphs)
  (sameWidth : row.columnCount = source.columnCount) (wide : 0 < row.columnCount) (narrow : row.columnCount ≤ 0xFFFD)

include models sourceModels sameWidth wide narrow in
theorem copy_readable_cases :
    CopyOutcome env.heap row glyphs 0 row.columnCount source.columnCount sourceGlyphs 0 source.readableColumns
      ⟨0, coordTypeMax, 0, source.getReadableColumnCount, 0, 0, 0, 0⟩
      (row.copyTextFrom env (some source) ⟨0, coordTypeMax, 0, source.getReadableColumnCount, 0, 0, 0, 0⟩) := by
  have isLimit := clamped_above row coordTypeMax (by rw [coordTypeMax]; omega)
  exact copy_text_cases env sourceModels ⟨0, coordTypeMax, 0, source.getReadableColumnCount, 0, 0, 0, 0⟩
    (clamped_inside (zero_le _)) isLimit (clamped_inside (zero_le _)) rfl models narrow

theorem readable_inside (source : Row TextAttribute) : source.readableColumns ≤ source.columnCount := clamped_le source _

include sameWidth in
theorem layout_readable : between 0 source.readableColumns sourceGlyphs = takeColumns source.readableColumns sourceGlyphs ∧
      layoutGlyphs (min (row.columnCount - 0) (source.readableColumns - 0)) (leadIn 0 glyphs)
        (takeColumns source.readableColumns sourceGlyphs) =
          ⟨takeColumns source.readableColumns sourceGlyphs, [], source.readableColumns⟩ := by
  have inside := readable_inside source
  have none := cut_boundary [] sourceGlyphs
  rw [columns_nil, nil_append] at none
  have lead : leadIn 0 glyphs = [] := by
    rw [leadIn, take_columns_zero]
    rfl
  have room : min (row.columnCount - 0) (source.readableColumns - 0) = source.readableColumns := by omega
  refine ⟨by simp [between, none.1, none.2], ?_⟩
  rw [layoutGlyphs, lead, room, take_columns_take _ _ (le_refl _)]
  simp

include plenty models sourceModels sameWidth wide narrow in
theorem copy_text_exact_iff : TextCopied source sourceGlyphs
        (row.copyTextFrom env (some source) ⟨0, coordTypeMax, 0, source.getReadableColumnCount, 0, 0, 0, 0⟩) ↔
      RestAgrees source row sourceGlyphs glyphs := by
  obtain ⟨outcome, isOutcome⟩ : ∃ outcome, outcome =
    row.copyTextFrom env (some source) ⟨0, coordTypeMax, 0, source.getReadableColumnCount, 0, 0, 0, 0⟩ := ⟨_, rfl⟩
  have inside := readable_inside source
  have width := models.columns
  have sourceWidth := sourceModels.columns
  have exactly := settle_source_iff glyphs sourceGlyphs source.readableColumns [] (by omega) (by omega)
  have cases := copy_readable_cases env glyphs sourceGlyphs models sourceModels sameWidth wide narrow
  obtain ⟨isBetween, isLayout⟩ := layout_readable glyphs sourceGlyphs sameWidth
  rw [CopyOutcome] at cases
  simp only [isBetween, isLayout, wide, true_and] at cases
  rw [← isOutcome] at cases ⊢
  rcases cases with ⟨none, stays⟩ | ⟨some, refused, failed⟩ | ⟨some, _, final, returned, copied⟩
  · rw [stays]
    refine ⟨?_, ?_⟩
    · rintro ⟨_, represented, padded⟩
      exact .nothing (not_not.mp none) (represents_unique models represented) padded
    · intro agrees
      cases agrees with
      | nothing _ same padded => exact ⟨rfl, same ▸ models, padded⟩
      | written some _ _ _ => exact absurd some none
  · rw [failed]
    refine ⟨fun found => absurd found.1 Bool.false_ne_true, ?_⟩
    intro agrees
    cases agrees with
    | nothing none _ _ => exact absurd none some
    | written _ boundary rest _ =>
      rw [exactly.mpr ⟨boundary, rest⟩] at refused
      exact absurd refused (not_refused plenty (le_trans sourceModels.fits (by decide)))
  · have isSome : outcome.2.isSome := by
      rw [returned]
      rfl
    have padded := copied.padded
    have represented := copied.models
    have size := copied.charSize
    refine ⟨?_, ?_⟩
    · rintro ⟨_, isSource, samePadded⟩
      rw [← represented_char_size isSource |>.symm.trans size] at represented
      have whole := represents_unique (represented sourceModels.fits) isSource
      obtain ⟨boundary, rest⟩ := exactly.mp whole
      refine .written some boundary rest ?_
      rw [← samePadded, ← width]
      simp only [boundary] at padded
      exact padded
    · intro agrees
      cases agrees with
      | nothing none _ _ => exact absurd none some
      | written _ boundary rest samePadded =>
        rw [exactly.mpr ⟨boundary, rest⟩] at represented
        refine ⟨isSome, represented sourceModels.fits, ?_⟩
        rw [samePadded, ← width]
        simp only [boundary] at padded
        exact padded

include sourceModels sameWidth wide in
theorem plain_agrees (single : source.lineRendition = .singleWidth) (unpadded : source.doubleBytePadded = false)
    (width : columns glyphs = row.columnCount) : RestAgrees source row sourceGlyphs glyphs := by
  have sourceWidth := sourceModels.columns
  have readable : source.readableColumns = source.columnCount := by
    rw [Row.readableColumns, readable_plain single unpadded, clamped_inside (le_refl _)]
  have whole := cut_boundary sourceGlyphs []
  rw [append_nil, sourceWidth] at whole
  have dropped := drop_whole glyphs (width.trans sameWidth)
  refine .written ?_ ?_ ?_ ?_
  · rw [readable, whole.1]
    intro none
    rw [none, columns_nil] at sourceWidth
    omega
  · rw [readable, whole.1, sourceWidth]
  · rw [readable, whole.2, leadOut, dropped, columns_nil, width, sameWidth, Nat.sub_zero, Nat.sub_self]
    rfl
  · simp [readable, dropped, sameWidth, unpadded]

end

-- A copy is exact when the columns that are not readable agree beforehand. There
-- are none if the source has neither a padding column nor a wider rendition.
theorem copy_from_exact_iff (env : Environment) (plenty : ∀ size, size ≤ 0xFFFF → (env.heap.allocate size).isSome)
    (row source : Row TextAttribute) (glyphs sourceGlyphs : Glyphs) (represents : Represents row glyphs)
    (sourceRepresents : Represents source sourceGlyphs) (sameWidth : row.columnCount = source.columnCount)
    (wide : 0 < row.columnCount) (narrow : row.columnCount ≤ 0xFFFD) (attributes : source.attr.total = source.columnCount) :
    ((row.copyFrom env (some source)).2 = some () ∧ CopyOf source (row.copyFrom env (some source)).1 sourceGlyphs ↔
        RestAgrees source row sourceGlyphs glyphs) ∧
      (source.lineRendition = .singleWidth → source.doubleBytePadded = false →
        RestAgrees source row sourceGlyphs glyphs) := by
  refine ⟨?_, fun single unpadded => plain_agrees glyphs sourceGlyphs sourceRepresents sameWidth wide single unpadded
    represents.columns⟩
  obtain ⟨framed, isFramed⟩ : ∃ framed, framed =
      { row with lineRendition := source.lineRendition, wrapForced := source.wrapForced } := ⟨_, rfl⟩
  have framedRepresents : Represents framed glyphs := by
    rw [isFramed]
    exact { represents with }
  have exactly := copy_text_exact_iff env plenty glyphs sourceGlyphs framedRepresents sourceRepresents
    (by rw [isFramed]; exact sameWidth) (by rw [isFramed]; exact wide) (by rw [isFramed]; exact narrow)
  have agrees : RestAgrees source framed sourceGlyphs glyphs ↔ RestAgrees source row sourceGlyphs glyphs := by
    rw [isFramed]
    constructor <;> rintro (⟨none, same, padded⟩ | ⟨some, boundary, rest, padded⟩)
    · exact .nothing none same padded
    · exact .written some boundary rest padded
    · exact .nothing none same padded
    · exact .written some boundary rest padded
  rw [← agrees, ← exactly]
  have resized := resize_same 16 source.attr row.columnCount wide (attributes.trans sameWidth.symm)
  have frame := copy_text_outcome env framed (some source) ⟨0, coordTypeMax, 0, source.getReadableColumnCount, 0, 0, 0, 0⟩
  rw [Row.copyFrom]
  simp only [Option.getD_some, ← isFramed]
  generalize framed.copyTextFrom env (some source) _ = outcome at *
  rw [TextCopied, Row.copyAttributesFrom]
  cases returned : outcome.2 with
  | none =>
    exact ⟨fun copied => absurd copied.1 (Option.some_ne_none ()).symm, fun copied => absurd copied.1 Bool.false_ne_true⟩
  | some final =>
    rw [resized]
    rcases frame with frame | failed
    · rw [isFramed] at frame
      constructor
      · rintro ⟨_, copied⟩
        have stored := copied.glyphs
        exact ⟨rfl, { stored with }, copied.doubleBytePadded⟩
      · rintro ⟨_, stored, padded⟩
        exact ⟨rfl, { stored with }, rfl, frame.wrapForced, padded, frame.lineRendition⟩
    · rw [failed] at returned
      cases returned

theorem copy_from_exact_cat :
    let source := ((Row.construct 2 (default : TextAttribute)).replaceText graphemeEnvironment ⟨[0x61], 0, 2, 0, 0, 0⟩).1
    let stale := ((Row.construct 2 (default : TextAttribute)).replaceText graphemeEnvironment ⟨[0x732B], 0, 2, 0, 0, 0⟩).1
    (stale.copyFrom graphemeEnvironment (some source)).2 = some () ∧
      CopyOf source (stale.copyFrom graphemeEnvironment (some source)).1 [Glyph.ofChar 0x61, Glyph.space] := by
  have exactly := copy_from_exact_iff graphemeEnvironment (fun _ _ => rfl)
    ((Row.construct 2 (default : TextAttribute)).replaceText graphemeEnvironment ⟨[0x732B], 0, 2, 0, 0, 0⟩).1
    ((Row.construct 2 (default : TextAttribute)).replaceText graphemeEnvironment ⟨[0x61], 0, 2, 0, 0, 0⟩).1
    [⟨[0x732B], 2, by decide, by decide, by decide⟩] [Glyph.ofChar 0x61, Glyph.space]
    ⟨by decide +kernel, by decide +kernel, ⟨[0x20], by decide +kernel⟩, by decide +kernel, by decide +kernel⟩
    ⟨by decide +kernel, by decide +kernel, ⟨[], by decide +kernel⟩, by decide +kernel, by decide +kernel⟩
    (by decide +kernel) (by decide +kernel) (by decide +kernel) (by decide +kernel)
  exact exactly.1.mpr (exactly.2 (by decide +kernel) (by decide +kernel))

-- The letter of the last column stays in a copy of a row that ends in padding.
theorem copy_from_keeps_letter :
    let padded := ((Row.construct 2 (default : TextAttribute)).replaceText graphemeEnvironment
      ⟨[0x61, 0x732B], 0, 2, 0, 0, 0⟩).1
    let stale := ((Row.construct 2 (default : TextAttribute)).replaceText graphemeEnvironment ⟨[0x62, 0x63], 0, 2, 0, 0, 0⟩).1
    let copied := (stale.copyFrom graphemeEnvironment (some padded)).1
    (padded.doubleBytePadded = true ∧ padded.glyphAt 1 = [unicodeSpace]) ∧ copied.doubleBytePadded = false ∧
      copied.glyphAt 1 = [0x63] := by
  decide +kernel

end Cogterm.Buffer
