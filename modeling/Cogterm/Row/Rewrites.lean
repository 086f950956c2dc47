import Cogterm.Row.AsciiPath
import Cogterm.Row.System

namespace Cogterm.Buffer

open Library Unicode Glyphs List Nat

variable {Attr : Type}

theorem put_offset_beg_dirty (h : WriteHelper Attr) (offset : Int) : (h.putOffset offset).colBegDirty = h.colBegDirty := rfl

theorem put_trailers_beg_dirty (ch colEndNew fuel : Nat) (h : WriteHelper Attr) :
    (h.putTrailers ch colEndNew fuel).colBegDirty = h.colBegDirty := by
  induction fuel generalizing h with
  | zero => rfl
  | succ fuel ih =>
    rw [WriteHelper.putTrailers]
    split
    · rw [ih, put_offset_beg_dirty]
    · rfl

theorem cluster_loop_beg_dirty (measure : TextMeasure) (fuel ch : Nat) (text : List WChar) (h : WriteHelper Attr) :
    (h.clusterLoop measure fuel ch text).colBegDirty = h.colBegDirty := by
  induction fuel generalizing ch text h with
  | zero => rfl
  | succ fuel ih =>
    rw [WriteHelper.clusterLoop]
    split
    · rfl
    simp only
    split
    · rfl
    · rw [ih, WriteHelper.putGlyph, put_trailers_beg_dirty, put_offset_beg_dirty]

theorem unicode_beg_dirty (models : Represents row glyphs) {initial : WriteHelper Attr}
    (started : Started row glyphs initial) (measure : TextMeasure) :
    (initial.replaceTextUnicode measure initial.chBeg 0).colBegDirty =
    if 0 < (measure.join (previousText initial.colBeg glyphs) initial.chars).1 then
      columns (leadIn initial.colBeg glyphs).dropLast
    else columns (takeColumns initial.colBeg glyphs) := by
  obtain ⟨isColumn, isOffset, isPrevious⟩ := located_previous models started.colBeg
  rw [← started.row] at isColumn isOffset isPrevious
  rw [← started.chBeg] at isPrevious
  rw [WriteHelper.replaceTextUnicode, if_pos rfl]
  simp only [isColumn, isOffset, isPrevious]
  by_cases joins : 0 < (measure.join (previousText initial.colBeg glyphs) initial.chars).1
  · rw [if_pos joins, if_pos joins]
    split
    · rfl
    · rw [cluster_loop_beg_dirty, WriteHelper.putGlyph, put_trailers_beg_dirty, put_offset_beg_dirty]
  · rw [if_neg joins, if_neg joins, cluster_loop_beg_dirty, started.colBegDirty]

-- The text cut into glyphs from its start, a cluster at a time.
inductive Segments (measure : TextMeasure) : List WChar → Glyphs → List WChar → Prop where
  | done (chars : List WChar) : Segments measure chars [] chars
  | cluster (chars rest : List WChar) (more : Glyphs) (nonempty : chars ≠ [])
      (tail : Segments measure (chars.drop (measure.next chars).1) more rest) :
      Segments measure chars (nextGlyph measure chars nonempty :: more) rest

variable {column : Nat} {chars : List WChar} {written : Glyphs} {layout : Layout}

section

variable (measure : TextMeasure)

theorem layout_clusters_segments (limit fuel : Nat) (front : Glyphs) (chars : List WChar) :
    ∃ more, (layoutClusters measure limit fuel front chars).front = front ++ more ∧
      Segments measure chars more (layoutClusters measure limit fuel front chars).rest := by
  induction fuel generalizing front chars with
  | zero => exact ⟨[], (append_nil front).symm, .done chars⟩
  | succ fuel ih =>
    rw [layoutClusters]
    by_cases nonempty : chars ≠ []
    · rw [dif_pos nonempty]
      simp only
      split
      · exact ⟨[], (append_nil front).symm, .done chars⟩
      · obtain ⟨more, isFront, segments⟩ :=
          ih (front ++ [nextGlyph measure chars nonempty]) (chars.drop (measure.next chars).1)
        exact ⟨nextGlyph measure chars nonempty :: more, by simp [isFront], .cluster _ _ _ nonempty segments⟩
    · rw [dif_neg nonempty, not_not.mp nonempty]
      exact ⟨[], (append_nil front).symm, .done []⟩

theorem layout_unicode_joined (limit : Nat) (nonempty : chars ≠ [])
    (some : 0 < (measure.join (previousText column glyphs) chars).1)
    (narrow : (measure.join (previousText column glyphs) chars).2 ≤ 2)
    (fits : ¬ limit < columns (leadIn column glyphs).dropLast + max 1 (measure.join (previousText column glyphs) chars).2) :
    ∃ more, (unicodeLayout measure glyphs column limit chars).front =
        (leadIn column glyphs).dropLast ++ joinedGlyph (leadIn column glyphs) chars _ _ nonempty some narrow :: more ∧
      Segments measure (chars.drop (measure.join (previousText column glyphs) chars).1) more
        (unicodeLayout measure glyphs column limit chars).rest := by
  have isLayout : unicodeLayout measure glyphs column limit chars = layoutClusters measure limit chars.length
      ((leadIn column glyphs).dropLast ++ [joinedGlyph (leadIn column glyphs) chars _ _ nonempty some narrow])
      (chars.drop (measure.join (previousText column glyphs) chars).1) := by
    rw [unicodeLayout, layoutUnicode, dif_pos ⟨nonempty, some⟩]
    exact if_neg fits
  rw [isLayout]
  refine (layout_clusters_segments measure limit chars.length _ _).imp (fun more both => ⟨?_, both.2⟩)
  rw [both.1, append_assoc]
  rfl

theorem layout_clusters_enough (limit fuel more : Nat) (front : Glyphs) (text : List WChar) (enough : text.length ≤ fuel)
    (enoughMore : text.length ≤ more) :
    layoutClusters measure limit fuel front text = layoutClusters measure limit more front text := by
  induction fuel generalizing more front text with
  | zero =>
    rw [length_eq_zero_iff.mp (le_zero.mp enough)]
    cases more <;> rfl
  | succ fuel ih =>
    cases text with
    | nil => cases more <;> rfl
    | cons c rest =>
      obtain ⟨left, isMore⟩ := exists_eq_succ_of_ne_zero (ne_of_gt (lt_of_lt_of_le (succ_pos _) enoughMore))
      have positive := measure.next_positive (c :: rest) (cons_ne_nil c rest)
      have shorter : ((c :: rest).drop (measure.next (c :: rest)).1).length ≤ rest.length := by
        rw [length_drop, length_cons]
        omega
      simp [isMore, layoutClusters, ih left _ _ (le_trans shorter (le_of_succ_le_succ enough))
        (le_trans shorter (le_of_succ_le_succ (isMore ▸ enoughMore)))]

variable (fresh : ∀ chars, chars ≠ [] → measure.join [] chars = measure.next chars)

include fresh in
theorem layout_unicode_first (nonempty : chars ≠ []) :
    layoutUnicode measure limit [] [] chars = layoutClusters measure limit chars.length [] chars := by
  have isNext := fresh chars nonempty
  have positive := measure.next_positive chars nonempty
  obtain ⟨left, isLength⟩ := exists_eq_succ_of_ne_zero (ne_of_gt (length_pos_iff.mpr nonempty))
  have shorter : (chars.drop (measure.next chars).1).length ≤ left := by
    rw [length_drop]
    omega
  rw [layoutUnicode, dif_pos ⟨nonempty, by rw [isNext]; exact positive⟩]
  have step : layoutClusters measure limit chars.length [] chars =
    layoutClusters measure limit (left + 1) [] chars := by rw [isLength]
  rw [step, layoutClusters, dif_pos nonempty]
  simp only [isNext, layout_clusters_enough measure limit chars.length left _ _ (by simp) shorter]
  rfl

include fresh in
theorem layout_unicode_clusters (nonempty : chars ≠ [])
    (apart : column = 0 ∨ (measure.join (previousText column glyphs) chars).1 = 0) :
    unicodeLayout measure glyphs column limit chars = layoutClusters measure limit chars.length (leadIn column glyphs) chars := by
  rcases apart with first | none
  · obtain ⟨noLead, noText⟩ := lead_in_zero glyphs
    rw [unicodeLayout, first, noLead, noText, layout_unicode_first measure fresh nonempty]
  · rw [unicodeLayout, layoutUnicode, dif_neg (fun both => by omega)]

-- The text in front of the written one goes on in it, up to the first boundary of a cluster.
def Joined (glyphs : Glyphs) (column : Nat) (chars : List WChar) (kept written : Glyphs) (rest : List WChar) : Prop :=
  ∃ cell glyph more, takeColumns column glyphs = kept ++ [cell] ∧ written = glyph :: more ∧
    glyph.text = cell.text ++ chars.take (measure.join cell.text chars).1 ∧
    glyph.width = max 1 (measure.join cell.text chars).2 ∧
    Segments measure (chars.drop (measure.join cell.text chars).1) more rest

def LaysOut (glyphs : Glyphs) (column : Nat) (chars : List WChar) (kept : Glyphs) (lead : Nat) (written : Glyphs)
    (rest : List WChar) : Prop :=
  if 0 < column ∧ 0 < (measure.join (previousText column glyphs) chars).1 then
    lead = 0 ∧ Joined measure glyphs column chars kept written rest
  else columns kept + lead = column ∧ Segments measure chars written rest

include fresh in
theorem layout_unicode_lays_out (inside : column ≤ columns glyphs) (valid : column < limit) (nonempty : chars ≠ [])
    (whole : 0 < (measure.join (previousText column glyphs) chars).1 → columns (takeColumns column glyphs) = column) :
    ∃ kept lead written, (unicodeLayout measure glyphs column limit chars).front = kept ++ spaces lead ++ written ∧
      kept <+: glyphs ∧ LaysOut measure glyphs column chars kept lead written
      (unicodeLayout measure glyphs column limit chars).rest ∧
      columns kept = if 0 < (measure.join (previousText column glyphs) chars).1 then columns (leadIn column glyphs).dropLast
        else columns (takeColumns column glyphs) := by
  obtain ⟨rest, isSplit⟩ := take_columns_leads column glyphs
  by_cases joins : 0 < column ∧ 0 < (measure.join (previousText column glyphs) chars).1
  · have boundary := whole joins.2
    have isLead : leadIn column glyphs = takeColumns column glyphs := by
      rw [leadIn, boundary, Nat.sub_self]
      exact append_nil _
    rcases eq_nil_or_concat' (takeColumns column glyphs) with empty | ⟨kept, cell, isTaken⟩
    · rw [empty, columns_nil] at boundary
      omega
    have isPrevious : previousText column glyphs = cell.text := by
      rw [previousText, if_pos boundary, isTaken, getLast?_concat]
      rfl
    have narrow := measure.join_narrow (previousText column glyphs) chars
    have positive := cell.positive
    have isColumn : columns kept + cell.width = column := by
      rw [← boundary, isTaken, columns_append, columns_cons, columns_nil]
      rfl
    have dropped : (leadIn column glyphs).dropLast = kept := by rw [isLead, isTaken, dropLast_concat]
    obtain ⟨more, isFront, segments⟩ := layout_unicode_joined measure limit nonempty joins.2 narrow (by rw [dropped]; omega)
    rw [dropped] at isFront
    refine ⟨kept, 0, joinedGlyph (leadIn column glyphs) chars _ _ nonempty joins.2 narrow :: more,
      by rw [isFront]; simp [spaces], ⟨[cell] ++ rest, ?_⟩, ?_, ?_⟩
    · rw [← append_assoc, ← isTaken, ← isSplit]
    · rw [LaysOut, if_pos joins]
      exact ⟨rfl, cell, _, more, isTaken, rfl, by simp [joinedGlyph, cluster, isLead, isTaken, isPrevious],
        by rw [← isPrevious]; rfl, isPrevious ▸ segments⟩
    · rw [if_pos joins.2, dropped]
  · have apart : column = 0 ∨ (measure.join (previousText column glyphs) chars).1 = 0 := by omega
    have near := take_columns_near glyphs column inside
    obtain ⟨more, isFront, segments⟩ := layout_clusters_segments measure limit chars.length (leadIn column glyphs) chars
    rw [layout_unicode_clusters measure fresh nonempty apart]
    refine ⟨takeColumns column glyphs, column - columns (takeColumns column glyphs), more, by rw [isFront, leadIn],
      ⟨rest, isSplit.symm⟩, by rw [LaysOut, if_neg joins]; exact ⟨by omega, segments⟩, ?_⟩
    split
    · have first : column = 0 := by omega
      rw [first, (lead_in_zero glyphs).1, take_columns_zero]
      rfl
    · rfl

end

-- kept stays in front of the dirty columns and tail behind them. The glyphs
-- that were written have blank columns on both sides at most.
structure Rewritten (measure : TextMeasure) (glyphs result : Glyphs) (column limit : Nat) (chars : List WChar)
    (final : RowWriteState) (kept cut tail : Glyphs) (lead : Nat) (written : Glyphs) (trail : Nat) : Prop where
  old : glyphs = kept ++ cut ++ tail
  new : result = kept ++ (spaces lead ++ written ++ spaces trail) ++ tail
  width : columns cut = lead + columns written + trail
  beginDirty : final.columnBeginDirty = columns kept
  endDirty : final.columnEndDirty = columns kept + columns cut
  text : LaysOut measure glyphs column chars kept lead written final.text
  columnEnd : final.columnEnd = if final.text.isEmpty then ((columns kept + lead + columns written : Nat) : Int) else limit

theorem no_columns (glyphs : Glyphs) (empty : columns glyphs = 0) : glyphs = [] := by
  cases glyphs with
  | nil => rfl
  | cons glyph rest =>
    have positive := glyph.positive
    rw [columns_cons] at empty
    omega

theorem prefix_of_columns (second : Glyphs) (firstLeads : first <+: glyphs) (secondLeads : second <+: glyphs)
    (order : columns first ≤ columns second) : first <+: second := by
  rcases prefix_or_prefix_of_prefix firstLeads secondLeads with shorter | ⟨more, isFirst⟩
  · exact shorter
  rw [← isFirst, columns_append] at order
  rw [no_columns more (by omega), append_nil] at isFirst
  exact ⟨[], by simp [isFirst]⟩

theorem settled_rewritten (models : Represents row glyphs) {initial : WriteHelper Attr} (started : Started row glyphs initial)
    (valid : initial.colBeg < initial.colLimit) (columnCount : row.columnCount ≤ 0xFFFD) {measure : TextMeasure}
    (nonempty : initial.chars ≠ []) (fresh : ∀ chars, chars ≠ [] → measure.join [] chars = measure.next chars)
    (whole : 0 < (measure.join (previousText initial.colBeg glyphs) initial.chars).1 →
      columns (takeColumns initial.colBeg glyphs) = initial.colBeg)
    (isLayout : layout = unicodeLayout measure glyphs initial.colBeg initial.colLimit initial.chars)
    (settled : Settled row glyphs layout (initial.replaceTextUnicode measure initial.chBeg 0) final) (state : RowWriteState)
    (isReported : reported =
      { state with
        text := initial.chars.drop final.charsConsumed
        columnEnd := if (initial.chars.drop final.charsConsumed).isEmpty then (final.colEnd : Int) else final.colLimit
        columnBeginDirty := final.colBegDirty
        columnEndDirty := final.colEndDirty }) :
    ∃ kept cut tail lead written trail,
      Rewritten measure glyphs (settle glyphs layout) initial.colBeg initial.colLimit initial.chars reported kept cut tail lead
      written trail := by
  obtain ⟨isWritten, _⟩ := unicode_written models started valid columnCount measure nonempty
  have begDirty := unicode_beg_dirty models started measure
  obtain ⟨kept, lead, written, isFront, keptLeads, laid, width⟩ := layout_unicode_lays_out measure fresh
    started.colBeg valid nonempty whole
  simp only [← isLayout] at isWritten isFront laid
  obtain ⟨before, after, trailing, closes⟩ := closing models started isWritten columnCount
  have helper := settled.helper
  have isRest := settled_rest isWritten settled
  have isEnd := settled_column_end isWritten settled
  have isBegin : final.colBegDirty = columns kept := by
    rw [congrArg WriteHelper.colBegDirty helper, begDirty, width]
  have isDirty : final.colEndDirty = columns before := by
    simp [congrArg WriteHelper.colEndDirty helper, ← closes.behind, congrArg columns closes.split]
  have frontWidth : columns layout.front = columns kept + lead + columns written := by
    rw [isFront, columns_append, columns_append, columns_spaces]
  have closedWidth := closes.width
  obtain ⟨cut, isBefore⟩ := prefix_of_columns before keptLeads ⟨after, closes.split.symm⟩ (by omega)
  have beforeWidth := congrArg columns isBefore
  rw [columns_append] at beforeWidth
  rw [isEnd, isRest, isBegin, isDirty] at isReported
  refine ⟨kept, cut, after, lead, written, trailing, ?_, ?_, by omega, ?_, ?_, ?_, ?_⟩
  · rw [isBefore]
    exact closes.split
  · rw [closes.settled, isFront]
    simp
  · rw [isReported]
  · rw [isReported, ← beforeWidth]
    exact Int.natCast_add _ _
  · rw [isReported]
    exact laid
  · rw [isReported, Layout.columnEnd, frontWidth]
    split <;> rfl

theorem join_cluster_nothing (consistent : cwd.mode = .console → Consistent cwd) (chars : List WChar)
    (nonempty : chars ≠ []) : joinCluster cwd [] chars = nextCluster cwd chars := by
  obtain ⟨σ, K, valid, _, fresh⟩ := detector_measures consistent
  obtain ⟨_, read, cluster, reads, isNext⟩ := next_cluster_reads fresh valid nonempty
  have none := grapheme_next_empty cwd .initial (viewOf 0 []) rfl
  have length := length_pos_iff.mpr nonempty
  obtain ⟨_, read', cluster', outcome, _⟩ := fresh_call fresh valid .initial rfl (viewOf (0 + 1) chars) 2
    (reset_before 2 (2 + chars.length) 0 (by decide) (le_add_right _ _)) (by rw [view_finish]; omega)
  have reads' := outcome.reads
  obtain ⟨sameRead, sameCluster, _⟩ := Segmenter.pulls_unique reads.pulls reads'.pulls
  have unfolded : joinCluster cwd [] chars =
      ((cwd.GraphemeNext .initial (viewOf (0 + 1) chars)).2.1.len,
        (cwd.GraphemeNext .initial (viewOf (0 + 1) chars)).2.1.width) := by
    simp [joinCluster, if_neg (by simpa using nonempty), none]
  rw [unfolded, isNext, sameRead, sameCluster, outcome.len, outcome.measured]

def Glyphs.replaceTextGeneral (measure : TextMeasure) (glyphs : Glyphs) (column limit : Nat) (chars : List WChar) : Glyphs :=
  if column < limit ∧ chars ≠ [] then
    settle glyphs (layoutUnicode measure limit (leadIn column glyphs) (previousText column glyphs) chars)
  else glyphs

section

variable [Inhabited Attr] (env : Environment) (row : Row Attr) (glyphs : Glyphs) (models : Represents row glyphs)
  (columnCount : row.columnCount ≤ 0xFFFD)
  (fresh : ∀ chars, chars ≠ [] → env.measure.join [] chars = env.measure.next chars)
  (state : RowWriteState) {column limit : Nat} (isColumn : column = row.clampedColumnInclusive state.columnBegin)
  (isLimit : limit = row.clampedColumnInclusive state.columnLimit)

include models columnCount fresh isColumn isLimit

theorem general_performs (valid : column < limit ∧ state.text ≠ []) :
    Performs env.heap row (replaceTextGeneral env.measure glyphs column limit state.text)
      (fun final => final.text = (unicodeLayout env.measure glyphs column limit state.text).rest ∧
        ((0 < (env.measure.join (previousText column glyphs) state.text).1 → columns (takeColumns column glyphs) = column) →
          ∃ kept cut tail lead written trail, Rewritten env.measure glyphs
            (replaceTextGeneral env.measure glyphs column limit state.text) column limit state.text final kept cut tail lead
            written trail))
      (row.replaceTextGeneral env state) := by
  subst isColumn isLimit
  have begins := started row glyphs models state.columnBegin state.columnLimit state.text
  have isValid := start_valid row state.columnBegin state.columnLimit state.text
  obtain ⟨isWritten, keeps⟩ := unicode_written models begins valid.1 columnCount env.measure valid.2
  rw [replaceTextGeneral, if_pos valid, Row.replaceTextGeneral]
  simp only [isValid.mpr valid]
  refine performs_finish env.heap models begins columnCount isWritten keeps _ _ ?_ rfl
  intro final settled
  exact ⟨settled_rest isWritten settled, fun whole =>
    settled_rewritten models begins valid.1 columnCount valid.2 fresh whole rfl settled state rfl⟩

-- The fast path is left out where it takes an ASCII character from its cluster, and so is text that
-- joins a wide glyph it is written into.
theorem replace_text_rewrites
    (whole : 0 < (env.measure.join (previousText column glyphs) state.text).1 → columns (takeColumns column glyphs) = column)
    (plenty : ∀ size, size ≤ 0xFFFF → (env.heap.allocate size).isSome)
    (apart : column < limit → state.text ≠ [] → AsciiApart env.measure glyphs column limit state.text)
    (fits : (text (replaceTextGeneral env.measure glyphs column limit state.text)).length ≤ charOffsetsMask) :
    ∃ changed final result, row.replaceText env state = (changed, some final) ∧ Represents changed result ∧
      if column < limit ∧ state.text ≠ [] then
        ∃ kept cut tail lead written trail,
          Rewritten env.measure glyphs result column limit state.text final kept cut tail lead written trail
      else
        changed = row ∧ final = { state with columnEnd := column, columnBeginDirty := column, columnEndDirty := column } := by
  rw [replace_text_is_general fresh models columnCount (isColumn ▸ isLimit ▸ apart)]
  by_cases valid : column < limit ∧ state.text ≠ []
  · rcases general_performs env row glyphs models columnCount fresh state isColumn isLimit valid with
      ⟨refused, _⟩ | ⟨_, ⟨final, returned, _, rewritten⟩, updates⟩
    · exact absurd refused (not_refused plenty (le_trans fits (by decide)))
    · refine ⟨_, final, _, Prod.ext rfl returned, updates.models fits, ?_⟩
      rw [if_pos valid]
      exact rewritten whole
  · refine ⟨row, _, glyphs, ?_, models, by rw [if_neg valid]; exact ⟨rfl, rfl⟩⟩
    subst isColumn isLimit
    rw [Row.replaceTextGeneral]
    simp only [mt (start_valid row state.columnBegin state.columnLimit state.text).mp valid]
    rfl

end

theorem replace_text_rewrites_letter :
    ∃ changed final result, (Row.construct 3 0).replaceText graphemeEnvironment ⟨[0x61], 1, 3, 0, 0, 0⟩ =
    (changed, some final) ∧ Represents changed result ∧ ∃ kept cut tail lead written trail,
        Rewritten graphemeEnvironment.measure (spaces 3) result 1 3 [0x61] final kept cut tail lead written trail := by
  have apart : AsciiApart graphemeEnvironment.measure (spaces 3) 1 3 [0x61] := by
    refine ⟨fun _ => .inr (by decide +kernel), fun index before => ?_⟩
    rw [lt_one_iff.mp (show index < 1 from before)]
    exact ⟨by decide +kernel, by decide +kernel⟩
  obtain ⟨changed, final, result, returned, models, rewritten⟩ :=
    replace_text_rewrites graphemeEnvironment (Row.construct 3 0)
    (spaces 3) (blank_represents _ (by decide) rfl rfl) (by decide) (join_cluster_nothing (by simp)) ⟨[0x61], 1, 3, 0, 0, 0⟩
    rfl rfl (by decide +kernel) (fun _ _ => rfl) (fun _ _ => apart) (by decide +kernel)
  exact ⟨changed, final, result, returned, models, rewritten⟩

def WritesInPlace (measure : TextMeasure) (row changed : Row Attr) (state final : RowWriteState) : Prop :=
  ∃ glyphs result kept cut tail lead written trail, Represents row glyphs ∧ Represents changed result ∧
    glyphs = kept ++ cut ++ tail ∧ result = kept ++ (spaces lead ++ written ++ spaces trail) ++ tail ∧
    columns cut = lead + columns written + trail ∧
    final.columnBeginDirty = columns kept ∧ final.columnEndDirty = columns kept + columns cut ∧
    columns kept + lead = row.clampedColumnInclusive state.columnBegin ∧ Segments measure state.text written final.text ∧
    final.columnEnd = columns kept + lead + columns written ∧
    (final.text = [] ∨ final.columnEnd = row.clampedColumnInclusive state.columnLimit)

def WritesElsewhere (row : Row Nat) (state : RowWriteState) : Prop :=
  ∃ final, (row.replaceText graphemeEnvironment state).2 = some final ∧
    ¬ WritesInPlace graphemeEnvironment.measure row (row.replaceText graphemeEnvironment state).1 state final

theorem segments_text {measure : TextMeasure}
    (segments : Segments measure chars written rest) : text written ++ rest = chars := by
  induction segments with
  | done chars => rfl
  | cluster chars rest more nonempty _ ih =>
    simpa [ih] using next_glyph_text nonempty

def letterRow : Row Nat := ((Row.construct 3 0).replaceText graphemeEnvironment ⟨[0x65], 0, 3, 0, 0, 0⟩).1

-- An accent behind a letter goes into the letter's cell, a wide glyph is not
-- put into the last column, and no text goes behind the limit.
theorem replace_text_out_of_place : WritesElsewhere letterRow ⟨[0x301], 1, 3, 0, 0, 0⟩ ∧
    WritesElsewhere letterRow ⟨[0x4E00], 2, 3, 0, 0, 0⟩ ∧ WritesElsewhere letterRow ⟨[0x61], 2, 1, 0, 0, 0⟩ := by
  have second : letterRow.clampedColumnInclusive 1 = 1 := by decide +kernel
  have third : letterRow.clampedColumnInclusive 2 = 2 := by decide +kernel
  refine ⟨⟨⟨[], 1, 3, 1, 0, 1⟩, by decide +kernel, ?_⟩, ⟨⟨[0x4E00], 2, 3, 3, 2, 3⟩, by decide +kernel, ?_⟩,
    ⟨⟨[0x61], 2, 1, 2, 2, 2⟩, by decide +kernel, ?_⟩⟩
  · rintro ⟨_, _, kept, _, _, lead, written, _, _, _, _, _, _, _, _, isColumn, segments, isEnd, _⟩
    have none := no_columns written (by simp only [second] at isColumn; simp only at isEnd; omega)
    have all := segments_text segments
    rw [none] at all
    exact absurd all (by decide)
  · rintro ⟨_, _, kept, _, _, lead, written, _, _, _, _, _, _, _, _, isColumn, segments, isEnd, _⟩
    have all := segments_text segments
    simp only [third] at isColumn
    simp only at isEnd
    cases written with
    | nil => rw [columns_nil] at isEnd; omega
    | cons glyph rest => exact glyph.written (append_eq_nil_iff.mp (append_left_eq_self.mp all)).1
  · rintro ⟨_, _, _, _, _, _, _, _, _, _, _, _, _, _, _, _, _, _, done | limit⟩
    · cases done
    · exact absurd limit (by decide)

end Cogterm.Buffer
