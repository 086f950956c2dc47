import Cogterm.Row.Writing

namespace Cogterm.Buffer

open Library Glyphs List Nat WriteHelper
open Unicode (WChar)

variable {Attr : Type}

section

theorem lead_in_boundary (before after : Glyphs) : leadIn (columns before) (before ++ after) = before := by
  simp [leadIn, (cut_boundary before after).1, spaces]

theorem lead_in_inside {before after : Glyphs} (isWide : wide.width = 2) :
    leadIn (columns before + 1) (before ++ wide :: after) = before ++ [Glyph.space] := by
  rw [leadIn, (cut_inside before after isWide).1, Nat.add_sub_cancel_left]
  rfl

theorem last_glyph_cut (front after : Glyphs) (last : Glyph) :
    takeColumns (columns front + last.width - 1) (front ++ last :: after) = front := by
  have positive := last.positive
  have narrow := last.narrow
  have cases : last.width = 1 ∨ last.width = 2 := by omega
  rcases cases with one | two
  · simpa [one] using (cut_boundary front (last :: after)).1
  · rw [two]
    exact (cut_inside front after two).1

variable {row : Row Attr} {glyphs : Glyphs} (models : Represents row glyphs)

include models

theorem row_text_between {before middle after : Glyphs} (split : glyphs = before ++ middle ++ after) :
    (row.chars.take ((text before).length + (text middle).length)).drop (text before).length = text middle := by
  obtain ⟨spare, isChars⟩ := models.chars
  simp [isChars, split, drop_take]

theorem located_previous {column : Nat} (inside : column ≤ columns glyphs) :
    previousColumn row column = columns (leadIn column glyphs).dropLast ∧
      row.uncheckedCharOffset (columns (leadIn column glyphs).dropLast) = (text (leadIn column glyphs).dropLast).length ∧
      (row.chars.take (text (leadIn column glyphs)).length).drop (text (leadIn column glyphs).dropLast).length =
        previousText column glyphs := by
  have located (place : Nat) (within : place ≤ columns glyphs) :=
    located_backward row models.fits place within models.offsets
  rcases column_cases glyphs column inside with ⟨before, after, split, isColumn⟩ |
    ⟨before, wide, after, split, isWide, isColumn⟩
  · rw [split, isColumn, lead_in_boundary, previousText, (cut_boundary before after).1]
    rcases eq_nil_or_concat' before with rfl | ⟨front, last, rfl⟩
    · have first := (located 0 (zero_le _)).2
      rw [take_columns_zero] at first
      exact ⟨rfl, first, by simp⟩
    have positive := last.positive
    have atFront := located (columns front) (by simp [split])
    have atLast := located (columns front + last.width - 1)
      (by rw [split, columns_append, columns_append, columns_cons]; omega)
    rw [split, append_assoc] at atFront atLast
    rw [singleton_append, (cut_boundary front (last :: after)).1] at atFront
    rw [singleton_append, last_glyph_cut] at atLast
    have between := row_text_between models split
    have count : columns (front ++ [last]) = (columns front + last.width - 1) + 1 := by
      rw [columns_append, columns_cons, columns_nil]
      omega
    rw [dropLast_concat, text_append, length_append, between, count, previousColumn, atLast.1]
    exact ⟨rfl, atFront.2, by simp⟩
  · have atBefore := located (columns before) (by simp [split])
    rw [split, (cut_boundary before (wide :: after)).1] at atBefore
    obtain ⟨spare, isChars⟩ := models.chars
    rw [split, isColumn, lead_in_inside isWide, previousText, (cut_inside before after isWide).1,
      if_neg (by omega), dropLast_concat]
    refine ⟨atBefore.1, atBefore.2, ?_⟩
    rw [isChars, split, text_append, text_append, length_append, drop_take, Nat.add_sub_cancel_left, append_assoc,
      drop_left, drop_left, text_cons, text_cons]
    cases chars : wide.text with
    | nil => exact absurd chars wide.written
    | cons first others => rfl

end

theorem joined_text {chars : List WChar} {count width : Nat} (nonempty : chars ≠ []) (some : 0 < count) (narrow : width ≤ 2) :
    text (front.dropLast ++ [joinedGlyph front chars count width nonempty some narrow]) = text front ++ chars.take count := by
  rcases eq_nil_or_concat' front with rfl | ⟨others, last, rfl⟩
  · simp [joinedGlyph, cluster]
  · simp [joinedGlyph, cluster]

theorem columns_drop_last (front : Glyphs) : front = [] ∨ columns front.dropLast < columns front := by
  rcases eq_nil_or_concat' front with rfl | ⟨others, last, rfl⟩
  · exact Or.inl rfl
  · have positive := last.positive
    rw [dropLast_concat, columns_append, columns_cons]
    exact Or.inr (by omega)

@[simp]
theorem text_of_chars (chars : List WChar) : text (chars.map Glyph.ofChar) = chars := by
  induction chars with
  | nil => rfl
  | cons c rest ih => rw [map_cons, text_cons, ih]; rfl

@[simp]
theorem columns_of_chars (chars : List WChar) : columns (chars.map Glyph.ofChar) = chars.length := by
  induction chars with
  | nil => rfl
  | cons c rest ih => rw [map_cons, columns_cons, ih, add_comm]; rfl

theorem put_offset_is_glyph (h : WriteHelper Attr) (ch : Nat) (small : h.colEnd + 1 < 65536) :
    putGlyph ch (h.colEnd + 1) h = h.putOffset ch := by
  have colEnd : (h.putOffset ch).colEnd = h.colEnd + 1 := narrow_small (h.colEnd + 1) small
  simp [putGlyph, putTrailers, colEnd]

theorem progress_shorter {row : Row Attr} (progress : Progress row initial h (front ++ [glyph]) mark) {colEnd : Nat}
    (isEnd : colEnd = columns front) : Progress row initial { h with colEnd := colEnd } front mark := by
  have reached := progress.reached
  rw [columns_append] at reached
  refine ⟨?_, progress.length, encodes_shorter [glyph] progress.encoded, progress.untouched, by omega, progress.limited⟩
  rw [progress.frame, isEnd]

theorem ascii_leads (remaining : List WChar) (ascii : ∀ c ∈ done, isAscii c = true) :
    (done ++ remaining).takeWhile isAscii = done ++ remaining.takeWhile isAscii :=
  takeWhile_append_of_pos ascii

-- Half a wide glyph in front of the write is still a glyph of its own.
def KeepsLead (glyphs : Glyphs) (initial h : WriteHelper Attr) (layout : Layout) : Prop :=
  initial.leadingSpaces ≠ 0 → h.colBegDirty = initial.colBegDirty ∧
    ∃ glyph more, layout.front = takeColumns initial.colBeg glyphs ++ glyph :: more

variable {row : Row Attr} {glyphs : Glyphs} (models : Represents row glyphs) {initial : WriteHelper Attr}
  (started : Started row glyphs initial) (valid : initial.colBeg < initial.colLimit) (columnCount : row.columnCount ≤ 0xFFFD)
  (measure : TextMeasure)

include models

theorem offsets_count : row.charOffsets.length = columns glyphs + 1 := by
  rw [models.offsets, encode_length]

include columnCount in
theorem offsets_narrow : row.charOffsets.length ≤ 0xFFFE := by
  rw [offsets_count models, models.columns]
  omega

include started

theorem room_for_limit : initial.colLimit < row.charOffsets.length := by
  rw [offsets_count models]
  exact lt_succ_of_le started.colLimit

include valid

theorem progress_initial : Progress row initial initial (leadIn initial.colBeg glyphs) initial.colBeg := by
  have count := lead_in_columns glyphs initial.colBeg started.colBeg
  refine ⟨?_, by rw [started.row], encodes_of_offsets ?_, by rw [started.row], le_of_eq count, le_of_lt valid⟩
  · have colEnd := started.colEnd
    have isRow := started.row
    rw [count]
    cases initial with
    | mk => simp only [WriteHelper.mk.injEq, true_and, and_true] at colEnd isRow ⊢; exact ⟨by rw [isRow], colEnd⟩
  · rw [started.row, models.offsets, count]
    exact lead_in_offsets glyphs initial.colBeg started.colBeg

theorem progress_back :
    Progress row initial
      { initial with
        colBegDirty := columns (leadIn initial.colBeg glyphs).dropLast
        colEnd := columns (leadIn initial.colBeg glyphs).dropLast }
      (leadIn initial.colBeg glyphs).dropLast (columns (leadIn initial.colBeg glyphs).dropLast) := by
  have encoded := lead_in_offsets glyphs initial.colBeg started.colBeg
  rw [← models.offsets] at encoded
  have count := lead_in_columns glyphs initial.colBeg started.colBeg
  generalize leadIn initial.colBeg glyphs = front at *
  have shorter : columns front.dropLast ≤ columns front := by
    rcases columns_drop_last front with rfl | less
    · exact le_refl _
    · exact le_of_lt less
  refine ⟨?_, by rw [started.row], ?_, by rw [started.row], le_refl _, by omega⟩
  · have isRow := started.row
    cases initial with
    | mk => simp only at isRow ⊢; rw [isRow]
  · rw [started.row]
    rw [← count] at encoded
    rcases eq_nil_or_concat' front with rfl | ⟨others, last, rfl⟩
    · exact encodes_of_offsets encoded
    · simpa using encodes_shorter [last] (encodes_of_offsets encoded)

omit valid models in
theorem keeps_lead_in (begDirty : h.colBegDirty = initial.colBegDirty) (more : Glyphs)
    (isFront : layout.front = leadIn initial.colBeg glyphs ++ more) : KeepsLead glyphs initial h layout := by
  intro leading
  rw [started.leadingSpaces] at leading
  obtain ⟨count, isCount⟩ := exists_eq_succ_of_ne_zero leading
  refine ⟨begDirty, Glyph.space, spaces count ++ more, ?_⟩
  simp [isFront, leadIn, isCount, spaces, replicate_succ]

omit valid models in
theorem lead_in_drop_last (leading : initial.leadingSpaces ≠ 0) :
    (leadIn initial.colBeg glyphs).dropLast = takeColumns initial.colBeg glyphs := by
  have near := take_columns_near glyphs initial.colBeg started.colBeg
  rw [started.leadingSpaces] at leading
  have one : initial.colBeg - columns (takeColumns initial.colBeg glyphs) = 1 := by omega
  rw [leadIn, one]
  exact dropLast_concat

include columnCount

theorem joined_written (isFront : front = leadIn initial.colBeg glyphs) (nonempty : initial.chars ≠ [])
    {joined : Nat × Nat} (some : 0 < joined.1) (inside : joined.1 ≤ initial.chars.length) (small : joined.2 ≤ 2)
    {backed : WriteHelper Attr}
    (isBacked : backed = { initial with colBegDirty := columns front.dropLast, colEnd := columns front.dropLast }) :
    let glyph := joinedGlyph front initial.chars joined.1 joined.2 nonempty some small
    let h := if narrow16 (columns front.dropLast + max 1 joined.2) > initial.colLimit then
        { backed with colEndDirty := initial.colLimit, charsConsumed := initial.chBeg - initial.chBeg }
      else
        clusterLoop measure initial.chars.length (initial.chBeg + joined.1) (initial.chars.drop joined.1)
          (putGlyph (text front.dropLast).length (narrow16 (columns front.dropLast + max 1 joined.2)) backed)
    let layout := if initial.colLimit < columns front.dropLast + glyph.width then ⟨front, initial.chars, initial.colLimit⟩
      else
        layoutClusters measure initial.colLimit initial.chars.length (front.dropLast ++ [glyph]) (initial.chars.drop joined.1)
    Written row initial h (text front) layout ∧ KeepsLead glyphs initial h layout := by
  intro glyph h layout
  have narrow := offsets_narrow models columnCount
  have room := room_for_limit models started
  have isBefore := started.chBeg
  have back := progress_back models started valid
  have count := lead_in_columns glyphs initial.colBeg started.colBeg
  have dropped := lead_in_drop_last started
  rw [← isFront] at isBefore back count dropped
  rw [← isBacked] at back
  have isText : text (front.dropLast ++ [glyph]) = text front ++ initial.chars.take joined.1 :=
    joined_text nonempty some small
  have colEndNew := col_end_new room narrow back small
  rw [progress_col_end back] at colEndNew
  by_cases beyond : initial.colLimit < columns front.dropLast + max 1 joined.2
  · -- Only a glyph in the first column can fail to fit.
    have empty : front = [] := by
      rcases columns_drop_last front with empty | less
      · exact empty
      · omega
    have isH : h = { backed with colEndDirty := initial.colLimit, charsConsumed := (text front).length - backed.chBeg } := by
      have none : (text front).length - backed.chBeg = initial.chBeg - initial.chBeg := by rw [progress_ch_beg back, isBefore]
      rw [none]
      simp only [h, colEndNew]
      exact if_pos beyond
    have isLayout : layout = ⟨front, initial.chars, initial.colLimit⟩ := if_pos beyond
    rw [empty] at isH isLayout back isBefore count
    rw [isH, isLayout, empty]
    refine ⟨written_at_exit isBefore _ _ back rfl (zero_le _) (le_refl _) (le_refl _) rfl, fun leading => ?_⟩
    rw [started.leadingSpaces, ← count, columns_nil, Nat.zero_sub] at leading
    exact absurd rfl leading
  · have isH : h = clusterLoop measure initial.chars.length (text (front.dropLast ++ [glyph])).length
        (initial.chars.drop joined.1)
        (putGlyph (text front.dropLast).length (columns front.dropLast + glyph.width) backed) := by
      rw [isText, length_append, length_take_of_le inside, ← isBefore]
      simp only [h, colEndNew]
      exact if_neg beyond
    have isLayout : layout = layoutClusters measure initial.colLimit initial.chars.length (front.dropLast ++ [glyph])
        (initial.chars.drop joined.1) := if_neg beyond
    obtain ⟨step, begDirty⟩ := progress_glyph room narrow back glyph rfl (not_lt.mp beyond)
    rw [isH, isLayout]
    obtain ⟨written, sameDirty, more, isMore⟩ := cluster_loop_written isBefore room narrow measure
      initial.chars.length (initial.chars.drop joined.1) (by simp) _ _ _ step (by simp) (by simp) (by simp [isText])
      (by simp [isText])
    refine ⟨written, fun leading => ⟨?_, glyph, more, ?_⟩⟩
    · rw [sameDirty, begDirty, isBacked, dropped leading, started.colBegDirty]
    · rw [isMore, dropped leading, append_assoc]
      rfl

theorem unicode_written (nonempty : initial.chars ≠ []) :
    Written row initial (replaceTextUnicode measure initial.chBeg 0 initial) (text (leadIn initial.colBeg glyphs))
        (unicodeLayout measure glyphs initial.colBeg initial.colLimit initial.chars) ∧
      KeepsLead glyphs initial (replaceTextUnicode measure initial.chBeg 0 initial)
        (unicodeLayout measure glyphs initial.colBeg initial.colLimit initial.chars) := by
  have narrow := offsets_narrow models columnCount
  have room := room_for_limit models started
  have isBefore := started.chBeg
  have start := progress_initial models started valid
  have count := lead_in_columns glyphs initial.colBeg started.colBeg
  obtain ⟨isColumn, isOffset, isPrevious⟩ := located_previous models started.colBeg
  rw [← started.row] at isColumn isOffset isPrevious
  rw [← isBefore] at isPrevious
  rw [replaceTextUnicode]
  simp only [isColumn, isOffset, isPrevious]
  by_cases joins : 0 < (measure.join (previousText initial.colBeg glyphs) initial.chars).1
  · rw [if_pos joins, unicodeLayout, layoutUnicode, dif_pos ⟨nonempty, joins⟩]
    exact joined_written models started valid columnCount measure rfl nonempty joins
      (measure.join_inside _ _) (measure.join_narrow _ _) rfl
  rw [if_neg joins, unicodeLayout, layoutUnicode, dif_neg (fun both => joins both.2), isBefore]
  obtain ⟨written, begDirty, more, isMore⟩ := cluster_loop_written isBefore room narrow measure
    initial.chars.length initial.chars (le_refl _) initial _ _ start (by omega) (fun noText => absurd noText nonempty)
    (le_refl _) rfl
  exact ⟨written, keeps_lead_in started begDirty more isMore⟩

theorem ascii_loop_written (nonempty : initial.chars ≠ []) {remaining : List WChar} (done : List WChar)
    (isRoom : initial.chars.take (initial.colLimit - initial.colBeg) = done ++ remaining)
    (ascii : ∀ c ∈ done, isAscii c = true) (h : WriteHelper Attr)
    (progress : Progress row initial h (leadIn initial.colBeg glyphs ++ done.map Glyph.ofChar) (initial.colBeg + done.length))
    (begDirty : h.colBegDirty = initial.colBegDirty) (untouched : done = [] → h = initial) :
    let layout := textLayout measure glyphs initial.colBeg initial.colLimit initial.chars
    Written row initial (asciiLoop measure remaining (initial.chBeg + done.length) h)
        (text (leadIn initial.colBeg glyphs)) layout ∧
      KeepsLead glyphs initial (asciiLoop measure remaining (initial.chBeg + done.length) h) layout := by
  have narrow := offsets_narrow models columnCount
  have room := room_for_limit models started
  have isBefore := started.chBeg
  have count := lead_in_columns glyphs initial.colBeg started.colBeg
  intro layout
  induction remaining generalizing done h with
  | nil =>
    obtain ⟨tail, isChars⟩ : done <+: initial.chars := by
      rw [append_nil] at isRoom
      rw [← isRoom]
      exact take_prefix _ _
    have isAll := ascii_leads [] ascii
    have isLayout : layout = ⟨leadIn initial.colBeg glyphs ++ done.map Glyph.ofChar, tail, initial.colBeg + done.length⟩ := by
      simp only [layout, layoutText, isRoom, isAll]
      simp [← isChars, count]
    have ended := written_at_exit isBefore h.colEnd tail progress (by simp [progress_col_end progress, count]) (le_refl _)
      progress.limited (by simp) (by simp [isChars])
    rw [text_append, length_append, text_of_chars, ← isBefore] at ended
    simpa [isLayout] using ⟨ended, keeps_lead_in started begDirty _ rfl⟩
  | cons c rest ih =>
    rw [asciiLoop]
    by_cases wide : c ≥ 0x80
    · rw [if_pos wide]
      have stops : (done ++ c :: rest).takeWhile isAscii = done := by
        rw [ascii_leads (c :: rest) ascii, takeWhile_cons_of_neg (by simpa [isAscii] using wide), append_nil]
      rcases eq_nil_or_concat' done with rfl | ⟨others, last, rfl⟩
      · have isLayout : layout = unicodeLayout measure glyphs initial.colBeg initial.colLimit initial.chars := by
          simp only [layout, layoutText, isRoom, stops]
          rfl
        simpa [untouched rfl, isLayout] using unicode_written models started valid columnCount measure nonempty
      · have length : (others ++ [last]).length = others.length + 1 := by simp
        have isFront : leadIn initial.colBeg glyphs ++ (others ++ [last]).map Glyph.ofChar =
            (leadIn initial.colBeg glyphs ++ others.map Glyph.ofChar) ++ [Glyph.ofChar last] := by simp
        have isLayout : layout = layoutClusters measure initial.colLimit initial.chars.length
            (leadIn initial.colBeg glyphs ++ others.map Glyph.ofChar) (initial.chars.drop others.length) := by
          simp only [layout, layoutText, isRoom, stops]
          simp
        obtain ⟨tail, isChars⟩ : others ++ [last] <+: initial.chars :=
          List.IsPrefix.trans ⟨c :: rest, isRoom.symm⟩ <| take_prefix _ _
        have isEnd : h.colEnd - 1 = columns (leadIn initial.colBeg glyphs ++ others.map Glyph.ofChar) := by
          rw [progress_col_end progress, isFront, columns_append]
          exact Nat.add_sub_cancel _ 1
        have isText : (text (leadIn initial.colBeg glyphs ++ others.map Glyph.ofChar)).length =
            initial.chBeg + (others.length + 1) - 1 := by
          simp [← isBefore]
        rw [isFront] at progress
        have shorter := progress_shorter progress isEnd
        have more : initial.chars.drop others.length = last :: tail := by simp [← isChars]
        obtain ⟨written, sameDirty, extra, isExtra⟩ := cluster_loop_written isBefore room narrow measure
          initial.chars.length (initial.chars.drop others.length) (by simp) _ _ _ shorter
          (by rw [columns_append, columns_of_chars, count]; omega) (by simp [more]) (by simp) (by simp [← isChars])
        rw [isText] at written sameDirty
        have it : initial.chBeg + (others.length + 1) - h.chBeg = others.length + 1 := by simp [progress_ch_beg progress]
        have unfolded : replaceTextUnicode measure (initial.chBeg + (others.length + 1)) (others.length + 1) h =
            clusterLoop measure initial.chars.length (initial.chBeg + (others.length + 1) - 1)
              (initial.chars.drop others.length) { h with colEnd := h.colEnd - 1 } := by
          simp [replaceTextUnicode, ← progress_chars progress]
        simpa [it, unfolded, isLayout] using ⟨written,
          keeps_lead_in started (sameDirty.trans begDirty) (others.map Glyph.ofChar ++ extra) (by rw [isExtra, append_assoc])⟩
    · rw [if_neg wide]
      have fits : initial.colBeg + done.length + 1 ≤ initial.colLimit := by
        have length := congrArg List.length isRoom
        rw [length_take, length_append, length_cons] at length
        omega
      have front : columns (leadIn initial.colBeg glyphs ++ done.map Glyph.ofChar) = initial.colBeg + done.length := by
        simp [count]
      have isEnd : initial.chBeg + done.length = (text (leadIn initial.colBeg glyphs ++ done.map Glyph.ofChar)).length := by
        simp [← isBefore]
      have colEnd := progress_col_end progress
      obtain ⟨step, sameDirty⟩ := progress_glyph room narrow progress (Glyph.ofChar c) isEnd (by rw [front]; exact fits)
      have put := put_offset_is_glyph h (initial.chBeg + done.length) (by omega)
      rw [colEnd] at put
      rw [show (Glyph.ofChar c).width = 1 from rfl, put] at step sameDirty
      have length : (done ++ [c]).length = done.length + 1 := by simp
      rw [front, max_eq_right (le_add_right _ 1), append_assoc, ← map_singleton, ← map_append, add_assoc, ← length] at step
      rw [add_assoc, ← length]
      refine ih (done ++ [c]) (by simp [isRoom]) ?_ _ step (sameDirty.trans begDirty) (by simp)
      intro x member
      rcases mem_append.mp member with old | new
      · exact ascii x old
      · rw [mem_singleton.mp new]
        simpa [isAscii] using wide

theorem replace_text_written (nonempty : initial.chars ≠ []) :
    let layout := textLayout measure glyphs initial.colBeg initial.colLimit initial.chars
    Written row initial (initial.replaceText measure) (text (leadIn initial.colBeg glyphs)) layout ∧
      KeepsLead glyphs initial (initial.replaceText measure) layout := by
  have start := progress_initial models started valid
  refine ascii_loop_written models started valid columnCount measure nonempty [] rfl (by simp) initial ?_
    rfl (fun _ => rfl)
  simpa using start

end Cogterm.Buffer
