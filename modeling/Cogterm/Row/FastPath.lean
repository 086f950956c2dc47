import Cogterm.Row.AsciiPath
import Cogterm.Row.Rewrites

namespace Cogterm.Buffer

open Library Unicode Segmenter Glyphs List Nat

variable {Attr : Type}

variable {rest chars : List WChar} {column : Nat}

section

variable (measure : TextMeasure)

theorem next_glyph_alone (alone : Alone measure (c :: rest)) :
    nextGlyph measure (c :: rest) (cons_ne_nil c rest) = Glyph.ofChar c := by
  refine glyph_eq ?_ ?_
  · show (c :: rest).take (measure.next (c :: rest)).1 = [c]
    rw [alone.1]
    rfl
  · have narrow := alone.2
    show max 1 (measure.next (c :: rest)).2 = 1
    omega

theorem alone_of_next_glyph (same : nextGlyph measure (c :: rest) (cons_ne_nil c rest) = Glyph.ofChar c) :
    Alone measure (c :: rest) := by
  have width := congrArg Glyph.width same
  have length := congrArg (fun glyph => glyph.text.length) same
  have inside := measure.next_inside (c :: rest)
  have isWidth : max 1 (measure.next (c :: rest)).2 = 1 := width
  have isLength : ((c :: rest).take (measure.next (c :: rest)).1).length = 1 := length
  rw [length_take_of_le inside] at isLength
  exact ⟨isLength, by omega⟩

theorem layout_clusters_alone (limit : Nat) (front : Glyphs) (chars text : List WChar)
    (alone : ∀ index, index < chars.length → Alone measure ((chars ++ text).drop index))
    (fits : columns front + chars.length ≤ limit) : layoutClusters measure limit (chars ++ text).length front (chars ++ text) =
      layoutClusters measure limit text.length (front ++ chars.map Glyph.ofChar) text := by
  induction chars generalizing front with
  | nil => simp
  | cons c rest ih =>
    have first : Alone measure (c :: (rest ++ text)) := alone 0 (succ_pos _)
    have isGlyph := next_glyph_alone measure first
    rw [length_cons] at fits
    rw [cons_append, length_cons, layoutClusters]
    simp only [isGlyph, first.1, drop_succ_cons, drop_zero]
    rw [if_neg (by show ¬ limit < columns front + 1; omega), ih (front ++ [Glyph.ofChar c]) ?_ ?_, append_assoc]
    · rfl
    · intro index less
      exact alone (index + 1) (succ_lt_succ less)
    · rw [columns_append]
      show columns front + 1 + rest.length ≤ limit
      omega

theorem segments_shorter (segments : Segments measure chars written rest) : rest.length ≤ chars.length := by
  induction segments with
  | done chars => exact le_refl _
  | cluster chars rest more nonempty tail ih =>
    rw [length_drop] at ih
    omega

theorem fast_count_bounds (room : Nat) (chars : List WChar) :
    fastCount room chars ≤ room ∧ fastCount room chars ≤ chars.length := by
  have count := List.IsPrefix.length_le <| takeWhile_prefix (p := isAscii) (l := chars.take room)
  rw [length_take] at count
  simp only [fastCount]
  split <;> omega

theorem layout_text_fast (front : Glyphs) (previous : List WChar) (others : List WChar)
    (ascii : isAscii c = true) (valid : column < limit) :
    ∃ more, (layoutText measure limit column front previous (c :: others)).front =
        front ++ ((c :: others).take (fastCount (limit - column) (c :: others))).map Glyph.ofChar ++ more ∧
      (layoutText measure limit column front previous (c :: others)).rest.length ≤
        (c :: others).length - fastCount (limit - column) (c :: others) := by
  obtain ⟨room, isRoom⟩ := exists_eq_succ_of_ne_zero (sub_ne_zero_of_lt valid)
  have first : ((c :: others).take (limit - column)).takeWhile isAscii <+: (c :: others).take (limit - column) :=
    takeWhile_prefix _
  obtain ⟨behind, isSplit⟩ := first.trans <| take_prefix _ _
  have some : 0 < (((c :: others).take (limit - column)).takeWhile isAscii).length := by
    simp [isRoom, takeWhile_cons_of_pos ascii]
  rw [layoutText, fastCount]
  generalize ((c :: others).take (limit - column)).takeWhile isAscii = done at *
  have taken (count : Nat) (less : count ≤ done.length) : (c :: others).take count = done.take count := by
    rw [← isSplit, take_append_of_le_length less]
  by_cases all : done.length = ((c :: others).take (limit - column)).length
  · rw [if_pos all, if_pos all]
    refine ⟨[], ?_, ?_⟩
    · simp [taken done.length (le_refl _)]
    · simp
  · rw [if_neg all, if_neg all, if_neg (by simpa using length_pos_iff.mp some)]
    obtain ⟨more, isFront, segments⟩ := layout_clusters_segments measure limit (c :: others).length
      (front ++ done.dropLast.map Glyph.ofChar) ((c :: others).drop (done.length - 1))
    refine ⟨more, ?_, ?_⟩
    · rw [isFront, taken (done.length - 1) (sub_le _ _), dropLast_eq_take]
    · have shorter := segments_shorter measure segments
      rw [length_drop] at shorter
      exact shorter

variable (fresh : ∀ chars, chars ≠ [] → measure.join [] chars = measure.next chars)

theorem joined_glyph_longer (others : Glyphs) (isFront : front = others ++ [last]) {count width : Nat} (nonempty : chars ≠ [])
    (some : 0 < count) (narrow : width ≤ 2) : joinedGlyph front chars count width nonempty some narrow ≠ last := by
  intro same
  have length := congrArg (fun glyph => glyph.text.length) same
  have isText : (joinedGlyph front chars count width nonempty some narrow).text = last.text ++ chars.take count := by
    simp [joinedGlyph, isFront, cluster]
  simp only [isText, length_append, length_take] at length
  have positive := length_pos_iff.mpr nonempty
  omega

theorem settle_front (glyphs : Glyphs) (layout : Layout) : ∃ behind, settle glyphs layout = layout.front ++ behind :=
  ⟨_, append_assoc _ _ _⟩

include fresh in
theorem layouts_apart (inside : column ≤ columns glyphs) (valid : column < limit)
    (nonempty : chars ≠ []) (sameGlyphs : settle glyphs (textLayout measure glyphs column limit chars) =
      settle glyphs (unicodeLayout measure glyphs column limit chars))
    (sameRest : (textLayout measure glyphs column limit chars).rest = (unicodeLayout measure glyphs column limit chars).rest) :
    AsciiApart measure glyphs column limit chars := by
  have count := lead_in_columns glyphs column inside
  obtain ⟨c, others, isChars⟩ := exists_cons_of_ne_nil nonempty
  cases ascii : isAscii c with
  | false =>
    refine ⟨?_, ?_⟩
    · rintro ⟨d, member, isChar⟩
      simp_all
    · intro index less
      rw [isChars, fast_count_wide ascii] at less
      exact absurd less (not_lt_zero _)
  | true =>
    obtain ⟨more, isFront, isRest⟩ := layout_text_fast measure (leadIn column glyphs) (previousText column glyphs) others
      ascii valid
    rw [← isChars] at isFront isRest
    obtain ⟨behind, isText⟩ := settle_front glyphs (textLayout measure glyphs column limit chars)
    obtain ⟨after, isUnicode⟩ := settle_front glyphs (unicodeLayout measure glyphs column limit chars)
    rw [isText, isUnicode, isFront] at sameGlyphs
    rw [sameRest] at isRest
    generalize isCount : fastCount (limit - column) chars = taken at isFront isRest sameGlyphs
    have apart : column = 0 ∨ (measure.join (previousText column glyphs) chars).1 = 0 := by
      by_contra joins
      obtain ⟨later, joined⟩ := not_or.mp joins
      rcases eq_nil_or_concat' (leadIn column glyphs) with empty | ⟨front, last, isLead⟩
      · rw [empty] at count
        exact later count.symm
      have some : 0 < (measure.join (previousText column glyphs) chars).1 := Nat.pos_of_ne_zero joined
      have narrow := measure.join_narrow (previousText column glyphs) chars
      have positive := last.positive
      have shorter : columns (leadIn column glyphs).dropLast + 1 ≤ column := by
        rw [isLead, columns_append, columns_cons] at count
        rw [isLead, dropLast_concat]
        omega
      obtain ⟨further, isFurther, _⟩ := layout_unicode_joined measure limit nonempty some narrow (by omega)
      rw [isFurther, isLead, dropLast_concat] at sameGlyphs
      simp only [append_assoc] at sameGlyphs
      have heads := (cons.inj (append_cancel_left sameGlyphs)).1
      exact joined_glyph_longer front rfl nonempty some narrow heads.symm
    refine ⟨fun _ => apart, ?_⟩
    rw [isCount]
    rw [layout_unicode_clusters measure fresh nonempty apart] at sameGlyphs isRest
    have bounds := fast_count_bounds (limit - column) chars
    intro index
    induction index using Nat.strong_induction_on with
    | _ index ih =>
      intro less
      by_contra notAlone
      have laid := layout_clusters_alone measure limit (leadIn column glyphs) (chars.take index) (chars.drop index) (by
        intro smaller isSmaller
        rw [length_take] at isSmaller
        simpa using ih smaller (by omega) (by omega)) (by rw [length_take]; omega)
      rw [take_append_drop] at laid
      obtain ⟨d, rest, isDrop⟩ : ∃ d rest, chars.drop index = d :: rest := exists_cons_of_ne_nil (by
        intro isNil
        have length := congrArg length isNil
        rw [length_drop, length_nil] at length
        omega)
      have length := congrArg length isDrop
      rw [length_drop] at length
      rw [isDrop, length_cons, layoutClusters, dif_pos (cons_ne_nil d rest)] at laid
      rw [laid] at sameGlyphs isRest
      simp only at sameGlyphs isRest
      split at isRest
      · rw [← length] at isRest
        omega
      rename_i fits
      rw [if_neg fits] at sameGlyphs
      obtain ⟨further, isFurther, _⟩ := layout_clusters_segments measure limit rest.length
        (leadIn column glyphs ++ (chars.take index).map Glyph.ofChar ++ [nextGlyph measure (d :: rest) (cons_ne_nil d rest)])
        ((d :: rest).drop (measure.next (d :: rest)).1)
      obtain ⟨extra, isTaken⟩ := Nat.exists_eq_add_of_lt less
      rw [isFurther, isTaken, add_assoc, take_add, isDrop] at sameGlyphs
      simp only [map_append, append_assoc] at sameGlyphs
      have heads := (cons.inj (append_cancel_left (append_cancel_left sameGlyphs))).1
      rw [isDrop] at notAlone
      exact notAlone (alone_of_next_glyph measure heads.symm)

end

theorem same_results_apart [Inhabited Attr] (env : Environment) {row : Row Attr} (models : Represents row glyphs)
    (columnCount : row.columnCount ≤ 0xFFFD) {state : RowWriteState}
    (isColumn : column = row.clampedColumnInclusive state.columnBegin)
    (isLimit : limit = row.clampedColumnInclusive state.columnLimit) (valid : column < limit) (nonempty : state.text ≠ [])
    (fresh : ∀ chars, chars ≠ [] → env.measure.join [] chars = env.measure.next chars)
    (plenty : ∀ size, size ≤ 0xFFFF → (env.heap.allocate size).isSome)
    (fits : (text (replaceText env.measure glyphs column limit state.text)).length ≤ charOffsetsMask)
    (generalFits : (text (replaceTextGeneral env.measure glyphs column limit state.text)).length ≤ charOffsetsMask)
    (same : row.replaceText env state = row.replaceTextGeneral env state) :
    AsciiApart env.measure glyphs column limit state.text := by
  have fast := replace_text_performs env models columnCount state
  have general := general_performs env row glyphs models columnCount fresh state isColumn isLimit ⟨valid, nonempty⟩
  rw [← same] at general
  rw [← isColumn, ← isLimit] at fast
  rcases fast with ⟨refused, _⟩ | ⟨_, ⟨final, isFinal, reports⟩, updates⟩
  · exact absurd refused (not_refused plenty (le_trans fits (by decide)))
  rcases general with ⟨refused, _⟩ | ⟨_, ⟨generalFinal, isGeneralFinal, generalRest, _⟩, generalUpdates⟩
  · exact absurd refused (not_refused plenty (le_trans generalFits (by decide)))
  have sameFinal : final = generalFinal := Option.some.inj (isFinal.symm.trans isGeneralFinal)
  have sameGlyphs := represents_unique (updates.models fits) (generalUpdates.models generalFits)
  rw [← sameFinal] at generalRest
  have sameRest := (reports.text ⟨valid, nonempty⟩).symm.trans generalRest
  rw [replaceText, replaceTextGeneral, if_pos ⟨valid, nonempty⟩, if_pos ⟨valid, nonempty⟩] at sameGlyphs
  refine layouts_apart env.measure fresh ?_ valid nonempty sameGlyphs sameRest
  rw [models.columns, isColumn]
  exact clamped_le row state.columnBegin

-- The fast path is the general loop exactly where each ASCII character it takes
-- for a glyph is a cluster of its own. The results have to be kept for this to
-- show: they have to fit and the memory has to be there.
theorem fast_path_exact_iff [Inhabited Attr] (cwd : CodepointWidthDetector) (consistent : cwd.mode = .console → Consistent cwd)
    (heap : Heap) (row : Row Attr) (glyphs : Glyphs) (represents : Represents row glyphs)
    (columnCount : row.columnCount ≤ 0xFFFD) (state : RowWriteState) : let measure := textMeasure cwd consistent
    let column := row.clampedColumnInclusive state.columnBegin
    let limit := row.clampedColumnInclusive state.columnLimit
    let sameResult := row.replaceText ⟨measure, heap⟩ state = row.replaceTextGeneral ⟨measure, heap⟩ state
    let apart := column < limit → state.text ≠ [] → AsciiApart measure glyphs column limit state.text
    (apart → sameResult) ∧ ((∀ size, size ≤ 0xFFFF → (heap.allocate size).isSome) →
        (text (replaceText measure glyphs column limit state.text)).length ≤ charOffsetsMask →
        (text (replaceTextGeneral measure glyphs column limit state.text)).length ≤ charOffsetsMask → sameResult →
        apart) := by
  have fresh : ∀ chars, chars ≠ [] → (textMeasure cwd consistent).join [] chars = (textMeasure cwd consistent).next chars :=
    join_cluster_nothing consistent
  refine ⟨?_, ?_⟩
  · intro apart
    exact replace_text_is_general fresh represents columnCount apart
  · intro plenty fits generalFits same valid nonempty
    exact same_results_apart ⟨textMeasure cwd consistent, heap⟩ represents columnCount rfl rfl valid nonempty fresh plenty
      fits generalFits same

theorem fast_path_exact_accent : (Row.construct 4 0).replaceText graphemeEnvironment ⟨[0x62, 0x61, 0x301], 0, 4, 0, 0, 0⟩ =
      (Row.construct 4 0).replaceTextGeneral graphemeEnvironment ⟨[0x62, 0x61, 0x301], 0, 4, 0, 0, 0⟩ := by
  refine (fast_path_exact_iff ⟨.graphemes, none, []⟩ (by simp) graphemeEnvironment.heap (Row.construct 4 0) (spaces 4) ?_
    (by decide) ⟨[0x62, 0x61, 0x301], 0, 4, 0, 0, 0⟩).1 ?_
  · exact blank_represents (Row.construct 4 0) (by decide) rfl rfl
  · intro _ _
    refine ⟨fun _ => .inl rfl, ?_⟩
    intro index before
    have first : index = 0 := by
      have count : fastCount 4 [0x62, 0x61, 0x301] = 1 := by decide
      exact lt_one_iff.mp (count ▸ before)
    rw [first]
    exact ⟨by decide +kernel, by decide +kernel⟩

-- At the limit it does not go back: the accent stays behind, where the general
-- loop takes it with the letter.
theorem fast_path_splits_accent :
    ((Row.construct 2 0).replaceText graphemeEnvironment ⟨[0x61, 0x62, 0x301], 0, 2, 0, 0, 0⟩).2.map RowWriteState.text =
      some [0x301] ∧ ((Row.construct 2 0).replaceTextGeneral graphemeEnvironment ⟨[0x61, 0x62, 0x301], 0, 2, 0, 0, 0⟩).2.map
      RowWriteState.text = some [] := by
  decide +kernel

end Cogterm.Buffer
