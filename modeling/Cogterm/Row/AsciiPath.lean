import Cogterm.Row.Refinement

namespace Cogterm.Buffer

open Library Glyphs List Option Nat WriteHelper
open Unicode (WChar)

variable {Attr : Type}

-- ReplaceText as it would be without the fast path.
def Row.replaceTextGeneral [Inhabited Attr]
    (env : Environment) (row : Row Attr) (state : RowWriteState) : Row Attr × Option RowWriteState :=
  let h := start row state.columnBegin state.columnLimit state.text
  if h.isValid then
    match (h.replaceTextUnicode env.measure h.chBeg 0).finish env.heap with
    | none => (row.reset default, none)
    | some h =>
      let text := state.text.drop h.charsConsumed
      (h.row, some
        { state with
          text := text
          columnEnd := if text.isEmpty then h.colEnd else h.colLimit
          columnBeginDirty := h.colBegDirty
          columnEndDirty := h.colEndDirty })
  else (row, some { state with columnEnd := h.colBeg, columnBeginDirty := h.colBeg, columnEndDirty := h.colBeg })

def Alone (measure : TextMeasure) (text : List WChar) : Prop := (measure.next text).1 = 1 ∧ (measure.next text).2 ≤ 1

-- How many characters the fast path takes for glyphs. The last one is measured
-- again if other text follows.
def fastCount (room : Nat) (text : List WChar) : Nat :=
  let ascii := (text.take room).takeWhile isAscii
  if ascii.length = (text.take room).length then ascii.length else ascii.length - 1

variable {rest text : List WChar} {room : Nat} {c : WChar}

theorem fast_count_zero : fastCount 0 text = 0 := by
  simp [fastCount]

theorem fast_count_wide (wide : isAscii c = false) : fastCount room (c :: rest) = 0 := by
  cases room with
  | zero => exact fast_count_zero
  | succ room => simp [fastCount, wide]

theorem fast_count_cons (ascii : isAscii c = true) (goesOn : ∀ d ∈ (rest.take room).head?, isAscii d = true) :
    fastCount (room + 1) (c :: rest) = fastCount room rest + 1 := by
  simp only [fastCount, take_succ_cons, takeWhile_cons_of_pos ascii, length_cons, add_right_cancel_iff]
  by_cases all : ((rest.take room).takeWhile isAscii).length = (rest.take room).length
  · rw [if_pos all, if_pos all]
  rw [if_neg all, if_neg all]
  cases isRest : rest.take room with
  | nil =>
    rw [isRest] at all
    exact absurd rfl all
  | cons d others =>
    have next : isAscii d = true := goesOn d (by rw [isRest]; rfl)
    simp [takeWhile_cons_of_pos next]

variable {h : WriteHelper Attr}

section

variable (measure : TextMeasure)

theorem cluster_loop_enough (fuel more ch : Nat) (text : List WChar) (h : WriteHelper Attr) (enough : text.length ≤ fuel)
    (enoughMore : text.length ≤ more) : h.clusterLoop measure fuel ch text = h.clusterLoop measure more ch text := by
  induction fuel generalizing more ch text h with
  | zero =>
    rw [length_eq_zero_iff.mp (le_zero.mp enough)]
    cases more <;> rfl
  | succ fuel ih =>
    cases text with
    | nil => cases more <;> rfl
    | cons c rest =>
      obtain ⟨left, isMore⟩ := exists_eq_succ_of_ne_zero (ne_of_gt (lt_of_lt_of_le (succ_pos _) enoughMore))
      have positive := measure.next_positive (c :: rest) (cons_ne_nil c rest)
      have shorter : ((c :: rest).drop (measure.next (c :: rest)).1).length ≤ rest.length := by
        rw [length_drop, length_cons]
        omega
      simp [isMore, clusterLoop, ih left _ _ _ (le_trans shorter (le_of_succ_le_succ enough))
        (le_trans shorter (le_of_succ_le_succ (isMore ▸ enoughMore)))]

theorem cluster_loop_alone (alone : Alone measure (c :: rest)) (room : h.colEnd < h.colLimit) (small : h.colEnd + 1 < 65536) :
    h.clusterLoop measure (fuel + 1) ch (c :: rest) = (h.putOffset ch).clusterLoop measure fuel (ch + 1) rest := by
  have colEndNew : narrow16 (h.colEnd + max 1 (measure.next (c :: rest)).2) = h.colEnd + 1 := by
    have narrow := alone.2
    rw [narrow16]
    omega
  rw [clusterLoop, if_neg (by simp)]
  simp only [colEndNew, alone.1]
  rw [if_neg (by omega), put_offset_is_glyph h ch small]
  rfl

end

-- The results are the same, or they differ in a column that is cleared anyway.
def Agrees (fast general : WriteHelper Attr) : Prop :=
  fast = general ∨
    ((∃ offset, fast = { general with
      row := { general.row with charOffsets := general.row.charOffsets.set general.colEnd offset } }) ∧
      general.colBegDirty + general.leadingSpaces ≤ general.colEnd ∧ general.colEnd < general.colEndDirty)

section

variable (measure : TextMeasure)

theorem step_back_agrees (fuel ch : Nat) (nonempty : text ≠ []) (enough : text.length ≤ fuel)
    (room : h.colEnd < h.colLimit) (lead : h.colBegDirty + h.leadingSpaces ≤ h.colEnd) :
    Agrees ({ h with row := { h.row with charOffsets := h.row.charOffsets.set h.colEnd (narrow16 ch) } }.clusterLoop measure
      fuel ch text) (h.clusterLoop measure text.length ch text) := by
  obtain ⟨left, isFuel⟩ := exists_eq_succ_of_ne_zero (ne_of_gt (lt_of_lt_of_le (length_pos_iff.mpr nonempty) enough))
  have notEmpty : text.isEmpty = false := isEmpty_eq_false_iff.mpr nonempty
  rw [← cluster_loop_enough measure fuel text.length ch text h enough (le_refl _), isFuel, clusterLoop, clusterLoop]
  simp only [notEmpty, Bool.false_eq_true, if_false]
  by_cases beyond : narrow16 (h.colEnd + max 1 (measure.next text).2) > h.colLimit
  · rw [if_pos beyond, if_pos beyond]
    exact Or.inr ⟨⟨_, rfl⟩, lead, room⟩
  rw [if_neg beyond, if_neg beyond]
  refine Or.inl ?_
  have put : putGlyph ch (narrow16 (h.colEnd + max 1 (measure.next text).2))
      { h with row := { h.row with charOffsets := h.row.charOffsets.set h.colEnd (narrow16 ch) } } =
    putGlyph ch (narrow16 (h.colEnd + max 1 (measure.next text).2)) h := by
    simp [putGlyph, putOffset]
  rw [put]

theorem ascii_loop_agrees (ch : Nat) (text : List WChar) (h : WriteHelper Attr) (isText : text = h.chars.drop (ch - h.chBeg))
    (later : h.chBeg ≤ ch) (isRoom : h.colEnd + room = h.colLimit) (small : h.colLimit ≤ 0xFFFD)
    (lead : h.colBegDirty + h.leadingSpaces ≤ h.colEnd) (first : ∀ c ∈ text.head?, 0 < room → isAscii c = true)
    (alone : ∀ index, index < fastCount room text → Alone measure (text.drop index)) :
    Agrees (h.asciiLoop measure (text.take room) ch) (h.clusterLoop measure text.length ch text) := by
  induction room generalizing ch text h with
  | zero =>
    refine Or.inl ?_
    rw [take_zero, asciiLoop]
    cases text with
    | nil => rfl
    | cons c rest =>
      have narrow := measure.next_narrow (c :: rest)
      have beyond : narrow16 (h.colEnd + max 1 (measure.next (c :: rest)).2) > h.colLimit := by
        rw [narrow16]
        omega
      rw [length_cons, clusterLoop, if_neg (by simp)]
      rw [if_pos beyond, show h.colEnd = h.colLimit by omega]
  | succ room ih =>
    cases text with
    | nil => exact Or.inl rfl
    | cons c rest =>
      have ascii : isAscii c = true := first c rfl (succ_pos _)
      have notWide : ¬ c ≥ 0x80 := by simpa [isAscii] using ascii
      rw [take_succ_cons, asciiLoop, if_neg notWide]
      have colEnd : (h.putOffset ch).colEnd = h.colEnd + 1 := by
        rw [putOffset]
        simp only [narrow16]
        omega
      by_cases goesOn : ∀ d ∈ (rest.take room).head?, isAscii d = true
      · have count := fast_count_cons ascii goesOn
        rw [length_cons, cluster_loop_alone measure (alone 0 (by omega)) (by omega) (by omega)]
        refine ih (ch + 1) rest (h.putOffset ch) ?_ (le_succ_of_le later) ?_ small ?_ ?_ ?_
        · have dropped := congrArg (List.drop 1) isText
          rw [drop_drop] at dropped
          rw [show ch + 1 - (h.putOffset ch).chBeg = ch - h.chBeg + 1 by simp only [putOffset]; omega]
          exact dropped
        · rw [colEnd]
          simp only [putOffset]
          omega
        · rw [colEnd]
          simp only [putOffset]
          omega
        · intro d member some
          refine goesOn d ?_
          obtain ⟨more, isRoom⟩ := exists_eq_succ_of_ne_zero (ne_of_gt some)
          cases rest with
          | nil => cases member
          | cons e others =>
            rw [isRoom]
            exact member
        · intro index less
          exact alone (index + 1) (by omega)
      · simp only [not_forall] at goesOn
        obtain ⟨d, member, notAscii⟩ := goesOn
        obtain ⟨others, isRest⟩ : ∃ others, rest.take room = d :: others := by
          cases isTake : rest.take room with
          | nil =>
            rw [isTake] at member
            cases member
          | cons e others =>
            rw [isTake] at member
            cases member
            exact ⟨others, rfl⟩
        have wide : d ≥ 0x80 := by simpa [isAscii] using notAscii
        rw [isRest, asciiLoop, if_pos wide, replaceTextUnicode]
        have sameBeg : (h.putOffset ch).chBeg = h.chBeg := rfl
        rw [sameBeg, if_neg (by omega), show ch + 1 - h.chBeg - 1 = ch - h.chBeg by omega, colEnd]
        have sameChars : (h.putOffset ch).chars = h.chars := rfl
        rw [sameChars, ← isText]
        have back := step_back_agrees measure h.chars.length ch (cons_ne_nil c rest) (by simp [isText]) (by omega) lead
        exact back

end

section

variable (row : Row Attr) {column other : Nat}

theorem set_char_offset (offset : Nat) (apart : column < other) :
    { row with charOffsets := row.charOffsets.set column offset }.charOffsets.getD other 0 = row.charOffsets.getD other 0 := by
  simp [getElem?_set_ne (Nat.ne_of_lt apart)]

theorem set_adjust_forward (apart : column < other) :
    { row with charOffsets := row.charOffsets.set column offset }.adjustForward other = row.adjustForward other := by
  have loops : ∀ fuel other, column < other →
      { row with charOffsets := row.charOffsets.set column offset }.adjustForwardLoop fuel other =
      row.adjustForwardLoop fuel other := by
    intro fuel
    induction fuel with
    | zero => exact fun _ _ => rfl
    | succ fuel ih =>
      intro other apart
      have same := set_char_offset row offset apart
      rw [Row.adjustForwardLoop, Row.adjustForwardLoop, ih (other + 1) (lt_succ_of_lt apart), Row.uncheckedIsTrailer,
        Row.uncheckedIsTrailer, same]
  simp [Row.adjustForward, loops _ _ apart]

theorem adjust_forward_le (column : Nat) : column ≤ row.adjustForward column := by
  have loops : ∀ fuel column, column ≤ row.adjustForwardLoop fuel column := by
    intro fuel
    induction fuel with
    | zero => exact fun column => le_refl column
    | succ fuel ih =>
      intro column
      rw [Row.adjustForwardLoop]
      split
      · exact le_trans (le_succ column) (ih (column + 1))
      · exact le_refl column
  exact loops _ column

theorem adjust_forward_within (column : Nat) : row.adjustForward column ≤ max column row.charOffsets.length := by
  have loops : ∀ fuel column, row.adjustForwardLoop fuel column ≤ max column row.charOffsets.length := by
    intro fuel
    induction fuel with
    | zero => exact fun column => le_max_left _ _
    | succ fuel ih =>
      intro column
      rw [Row.adjustForwardLoop]
      split
      · rename_i trailer
        have inside : column < row.charOffsets.length := by
          by_contra outside
          rw [Row.uncheckedIsTrailer, getD_eq_default _ _ (Nat.le_of_not_lt outside)] at trailer
          cases trailer
        have next := ih (column + 1)
        omega
      · exact le_max_left _ _
  exact loops _ column

theorem set_resize_chars {offset colEndDirty chBegDirty chEndDirty chEndDirtyOld : Nat} (apart : column < colEndDirty)
    (inside : column < row.columnCount) (stored : column < row.charOffsets.length) :
    { row with charOffsets := row.charOffsets.set column offset }.resizeChars heap colEndDirty chBegDirty chEndDirty
    chEndDirtyOld = (row.resizeChars heap colEndDirty chBegDirty chEndDirty chEndDirtyOld).map
        (fun resized => { resized with charOffsets := resized.charOffsets.set column offset }) := by
  have size : { row with charOffsets := row.charOffsets.set column offset }.charSize = row.charSize :=
    set_char_offset row offset inside
  rw [Row.resizeChars, Row.resizeChars, Row.resizedChars, size, Option.map_map]
  refine congrArg (fun change => Option.map change _) (funext fun chars => ?_)
  simp only [Function.comp]
  rw [take_set, drop_set_of_lt apart, set_append_left _ _ (by rw [length_take]; omega)]

omit row in
theorem agrees_finish (heap : Heap) {fast general : WriteHelper Attr} (agrees : Agrees fast general)
    (limited : general.colEndDirty ≤ general.row.columnCount)
    (stored : general.row.charOffsets.length = general.row.columnCount + 1) (small : general.row.columnCount < 65535) :
    fast.finish heap = general.finish heap := by
  rcases agrees with same | ⟨⟨offset, isFast⟩, lead, dirty⟩
  · rw [same]
  have further := adjust_forward_le general.row general.colEndDirty
  have within := adjust_forward_within general.row general.colEndDirty
  rw [isFast, finish, finish]
  simp only [set_adjust_forward general.row dirty]
  generalize general.row.adjustForward general.colEndDirty = colEndDirty at *
  have old : { general.row with charOffsets := general.row.charOffsets.set general.colEnd offset }.uncheckedCharOffset
    colEndDirty = general.row.uncheckedCharOffset colEndDirty := by
    rw [Row.uncheckedCharOffset, Row.uncheckedCharOffset, set_char_offset general.row offset (by omega)]
  simp only [old]
  generalize general.row.uncheckedCharOffset colEndDirty = chEndDirtyOld
  have trailing : 0 < narrow16 (colEndDirty - general.colEnd) := by
    rw [narrow16]
    omega
  -- The entry that differs is written over in the end.
  have cleared (offsets : List Nat) (length : offsets.length = general.row.columnCount + 1) (source : List Nat)
      (some : 0 < source.length) :
      overwriteAt (overwriteAt (offsets.set general.colEnd offset) general.colBegDirty
        (iota general.leadingSpaces general.chBegDirty)) general.colEnd source =
      overwriteAt (overwriteAt offsets general.colBegDirty (iota general.leadingSpaces general.chBegDirty)) general.colEnd
        source := by
    rw [overwrite_set_behind (by rw [iota_length]; exact lead) (by omega), overwrite_set_over some]
  have lengthOf : ∀ count start, 0 < count → 0 < (iota count start).length := fun count start some => by
    rw [iota_length]
    exact some
  split
  · rw [set_resize_chars general.row (by omega) (by omega) (by omega)]
    cases isResized : general.row.resizeChars heap colEndDirty general.chBegDirty
        (general.chBegDirty + general.charsConsumed + general.leadingSpaces + narrow16 (colEndDirty - general.colEnd))
        chEndDirtyOld with
    | none => rfl
    | some resized =>
      obtain ⟨chars, _, isRow⟩ := map_eq_some_iff.mp isResized
      have length : resized.charOffsets.length = general.row.columnCount + 1 := by
        rw [← isRow]
        simp only [length_append, length_take, length_map, length_drop]
        omega
      simp [cleared _ length _ (lengthOf _ _ trailing)]
  · simp [cleared _ stored _ (lengthOf _ _ trailing)]

end

-- Nothing in front of the write joins the text, and the characters that the
-- fast path takes for glyphs are clusters.
structure AsciiApart (measure : TextMeasure) (glyphs : Glyphs) (column limit : Nat) (text : List WChar) : Prop where
  first : (∃ c ∈ text.head?, isAscii c = true) → column = 0 ∨ (measure.join (previousText column glyphs) text).1 = 0
  alone : ∀ index, index < fastCount (limit - column) text → Alone measure (text.drop index)

-- There is nothing in front of the first column.
theorem lead_in_zero (glyphs : Glyphs) : leadIn 0 glyphs = [] ∧ previousText 0 glyphs = [] := by
  rw [previousText, leadIn, take_columns_zero]
  exact ⟨rfl, rfl⟩

section

variable {row : Row Attr} {glyphs : Glyphs} (models : Represents row glyphs) {initial : WriteHelper Attr}
  (started : Started row glyphs initial) (valid : initial.colBeg < initial.colLimit) {measure : TextMeasure}
  (fresh : ∀ text, text ≠ [] → measure.join [] text = measure.next text)

include models started valid fresh

theorem unicode_clusters (nonempty : initial.chars ≠ [])
    (apart : initial.colBeg = 0 ∨ (measure.join (previousText initial.colBeg glyphs) initial.chars).1 = 0) :
    initial.replaceTextUnicode measure initial.chBeg 0 =
    initial.clusterLoop measure initial.chars.length initial.chBeg initial.chars := by
  obtain ⟨isColumn, isOffset, isPrevious⟩ := located_previous models started.colBeg
  rw [← started.row] at isColumn isOffset isPrevious
  rw [← started.chBeg] at isPrevious
  rw [replaceTextUnicode, if_pos rfl]
  simp only [isColumn, isOffset, isPrevious]
  rcases apart with first | none
  · obtain ⟨noLead, noText⟩ := lead_in_zero glyphs
    rw [← first] at noLead noText
    have begDirty : initial.colBegDirty = 0 := by
      rw [started.colBegDirty, first, take_columns_zero]
      rfl
    have colEnd : initial.colEnd = 0 := by rw [started.colEnd, first]
    have chBeg : initial.chBeg = 0 := by
      rw [started.chBeg, noLead]
      rfl
    have same : { initial with colBegDirty := columns ([] : Glyphs), colEnd := columns ([] : Glyphs) } = initial := by
      rw [columns_nil]
      cases initial
      simp only at begDirty colEnd
      rw [begDirty, colEnd]
    obtain ⟨left, isLength⟩ := exists_eq_succ_of_ne_zero (ne_of_gt (length_pos_iff.mpr nonempty))
    have positive := measure.next_positive initial.chars nonempty
    have shorter : (initial.chars.drop (measure.next initial.chars).1).length ≤ left := by
      rw [length_drop]
      omega
    rw [noText, noLead, fresh initial.chars nonempty, if_pos positive, dropLast_nil, same]
    have step : initial.clusterLoop measure initial.chars.length initial.chBeg initial.chars =
        initial.clusterLoop measure (left + 1) initial.chBeg initial.chars := by rw [isLength]
    have notEmpty : initial.chars.isEmpty = false := isEmpty_eq_false_iff.mpr nonempty
    rw [step, clusterLoop]
    simp only [notEmpty, colEnd, chBeg, begDirty, cluster_loop_enough measure initial.chars.length left _ _ _ (by omega) shorter]
    rfl
  · rw [if_neg (by omega)]

theorem replace_text_agrees (nonempty : initial.chars ≠ []) (columnCount : row.columnCount ≤ 0xFFFD)
    (apart : AsciiApart measure glyphs initial.colBeg initial.colLimit initial.chars) :
    Agrees (initial.replaceText measure) (initial.replaceTextUnicode measure initial.chBeg 0) := by
  obtain ⟨c, rest, isChars⟩ := exists_cons_of_ne_nil nonempty
  have limited := started.colLimit
  rw [models.columns] at limited
  rw [WriteHelper.replaceText]
  by_cases ascii : isAscii c = true
  · rw [unicode_clusters models started valid fresh nonempty (apart.first ⟨c, by rw [isChars]; rfl, ascii⟩)]
    refine ascii_loop_agrees measure initial.chBeg initial.chars initial (by simp) (Nat.le_refl _) ?_
      (by omega) ?_ ?_ apart.alone
    · rw [started.colEnd]
      omega
    · have near := take_columns_near glyphs initial.colBeg started.colBeg
      rw [started.colBegDirty, started.leadingSpaces, started.colEnd]
      omega
    · intro d member _
      rw [isChars] at member
      cases member
      exact ascii
  · obtain ⟨room, isRoom⟩ := exists_eq_succ_of_ne_zero (sub_ne_zero_of_lt valid)
    have wide : c ≥ 0x80 := by simpa [isAscii] using ascii
    refine Or.inl ?_
    have taken : initial.chars.take (initial.colLimit - initial.colBeg) = c :: rest.take room := by simp [isRoom, isChars]
    simp [taken, asciiLoop, if_pos wide]

end

theorem replace_text_is_general [Inhabited Attr]
    (fresh : ∀ text, text ≠ [] → env.measure.join [] text = env.measure.next text) {row : Row Attr} {glyphs : Glyphs}
    (models : Represents row glyphs) (columnCount : row.columnCount ≤ 0xFFFD) {state : RowWriteState}
    (apart : row.clampedColumnInclusive state.columnBegin < row.clampedColumnInclusive state.columnLimit → state.text ≠ [] →
      AsciiApart env.measure glyphs (row.clampedColumnInclusive state.columnBegin) (row.clampedColumnInclusive state.columnLimit)
        state.text) : row.replaceText env state = row.replaceTextGeneral env state := by
  have begins := started row glyphs models state.columnBegin state.columnLimit state.text
  have isValid := start_valid row state.columnBegin state.columnLimit state.text
  rw [Row.replaceText, Row.replaceTextGeneral]
  by_cases valid : row.clampedColumnInclusive state.columnBegin < row.clampedColumnInclusive state.columnLimit ∧
    state.text ≠ []
  · have agrees := replace_text_agrees models begins valid.1 fresh valid.2 columnCount (apart valid.1 valid.2)
    obtain ⟨written, _⟩ := unicode_written models begins valid.1 columnCount env.measure valid.2
    have limited := begins.colLimit
    rw [models.columns] at limited
    have isRow := progress_row written.progress
    have count : ((start row state.columnBegin state.columnLimit state.text).replaceTextUnicode env.measure
        (start row state.columnBegin state.columnLimit state.text).chBeg 0).row.columnCount = row.columnCount := by
      rw [isRow]
    have finished := agrees_finish env.heap agrees
      (by rw [count, written.colEndDirty]; exact le_trans written.progress.limited limited)
      (by rw [count, written.progress.length, offsets_count models, models.columns]) (by omega)
    rewrite [finished]
    rfl
  · simp only [mt isValid.mp valid]
    rfl

end Cogterm.Buffer
