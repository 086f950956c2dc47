import Cogterm.Row.ReplaceText

namespace Cogterm.Buffer

open Library Glyphs List Nat
open Unicode (WChar)

variable {Attr : Type}

def Refused (heap : Heap) (row : Row Attr) (length : Nat) : Prop :=
  0xFFFF < length ∨ (row.chars.length < length ∧ heap.allocate (Row.newCapacity row.chars.length length) = none)

instance (heap : Heap) (row : Row Attr) (length : Nat) : Decidable (Refused heap row length) :=
  inferInstanceAs (Decidable (0xFFFF < length ∨
    (row.chars.length < length ∧ heap.allocate (Row.newCapacity row.chars.length length) = none)))

theorem not_refused (plenty : ∀ size, size ≤ 0xFFFF → (heap.allocate size).isSome) {row : Row Attr} {length : Nat}
    (small : length ≤ 0xFFFF) : ¬ Refused heap row length := by
  rintro (large | ⟨_, failed⟩)
  · omega
  · have allocated := plenty (Row.newCapacity row.chars.length length) (by rw [Row.newCapacity]; omega)
    rw [failed] at allocated
    cases allocated

def shifted (source target : Nat) (offset : Nat) : Nat := narrow16 (offset + (target - source))

theorem shifted_small (source target extra : Nat) (small : target + extra < 65536) :
    shifted source target (source + extra) = target + extra := by
  rw [shifted, narrow16]
  omega

theorem shift_glyph {glyph : Glyph} (small : target < charOffsetsTrailer) :
    (glyph.offsets source).map (shifted source target) = glyph.offsets target := by
  have limit : charOffsetsTrailer = 32768 := rfl
  have first := shifted_small source target 0 (by omega)
  have later := shifted_small source target charOffsetsTrailer (by omega)
  rw [add_zero, add_zero] at first
  simp [first, later, Glyph.offsets]

theorem shift_encode (small : target + (text glyphs).length < charOffsetsTrailer) :
    (encode source glyphs).map (shifted source target) = encode target glyphs := by
  have limit : charOffsetsTrailer = 32768 := rfl
  have offsets (extra : Nat) (glyphs : Glyphs) (fits : target + extra + (text glyphs).length < charOffsetsTrailer) :
      (Glyphs.offsets (source + extra) glyphs).map (shifted source target) = Glyphs.offsets (target + extra) glyphs := by
    induction glyphs generalizing extra with
    | nil => rfl
    | cons glyph rest ih =>
      rw [text_cons, length_append] at fits
      have same : shifted source target = shifted (source + extra) (target + extra) := by
        funext offset
        rw [shifted, shifted]
        congr 1
        omega
      rw [Glyphs.offsets, map_append, add_assoc, ih (extra + glyph.text.length) (by omega), same,
        shift_glyph (by omega), Glyphs.offsets, add_assoc]
  rw [encode, map_append, map_singleton, shifted_small source target _ (by omega)]
  exact congrArg (· ++ _) (offsets 0 glyphs small)

theorem iota_spaces {count start : Nat} (small : start + count < charOffsetsTrailer) :
    iota count start = Glyphs.offsets start (spaces count) := by
  have limit : charOffsetsTrailer = 32768 := rfl
  induction count with
  | zero => rfl
  | succ count ih =>
    have last : spaces (count + 1) = spaces count ++ [Glyph.space] := replicate_succ'
    rw [iota, range_succ, map_append, ← iota, ih (by omega), last, offsets_append, text_spaces, length_replicate,
      map_singleton]
    congr 1
    rw [narrow16]
    congr 1
    omega

theorem iota_length (count start : Nat) : (iota count start).length = count := by
  simp [iota]

-- What Finish finds: the glyphs in front of the end of the write and behind it,
-- and the number of columns to clear in between.
structure Closing (row : Row Attr) (glyphs : Glyphs) (initial h : WriteHelper Attr) (layout : Layout) (before after : Glyphs)
    (trailing : Nat) : Prop where
  behind : after = dropColumns layout.endDirty glyphs
  split : glyphs = before ++ after
  settled : settle glyphs layout = layout.front ++ spaces trailing ++ after
  width : columns layout.front + trailing = columns before
  forward : h.row.adjustForward h.colEndDirty = columns before
  spaces : narrow16 (columns before - h.colEnd) = trailing
  old : h.row.uncheckedCharOffset (columns before) = (text before).length
  tail : h.row.charOffsets.drop (columns before) = encode (text before).length after
  new : h.chBegDirty + h.charsConsumed + h.leadingSpaces = (text layout.front).length
  consumed : text layout.front = text (leadIn initial.colBeg glyphs) ++ h.chars.take h.charsConsumed

section

variable {row : Row Attr} {glyphs : Glyphs} (models : Represents row glyphs) {initial h : WriteHelper Attr}
  (started : Started row glyphs initial) {layout : Layout}
  (written : Written row initial h (text (leadIn initial.colBeg glyphs)) layout)

include models started written

theorem closing (columnCount : row.columnCount ≤ 0xFFFD) :
    ∃ before after trailing, Closing row glyphs initial h layout before after trailing := by
  have progress := written.progress
  have limited := le_trans progress.limited started.colLimit
  have untouched := progress.untouched
  rw [models.offsets] at untouched
  have length := progress.length
  rw [offsets_count models] at length
  obtain ⟨before, split, order, forward, old, tail⟩ :=
    located_forward h.row models.fits layout.endDirty limited length untouched
  have reached := progress.reached
  have wide : columns before ≤ 0xFFFD := by
    have total := models.columns
    rw [split, columns_append] at total
    omega
  have colEnd := progress_col_end progress
  obtain ⟨chBegDirty, leadingSpaces⟩ := progress_lead progress
  have longer := written.longer
  refine ⟨before, dropColumns layout.endDirty glyphs, columns before - columns layout.front, rfl, split,
    ?_, by omega, ?_, ?_, old, tail, ?_, ?_⟩
  · rw [settle]
    congr 3
    have total := congrArg columns split
    rw [columns_append] at total
    omega
  · rw [written.colEndDirty, forward]
  · rw [colEnd, narrow16]
    omega
  · rw [chBegDirty, leadingSpaces, written.consumed, started.chBegDirty, started.leadingSpaces]
    rw [leadIn, text_append, length_append, text_spaces, length_replicate] at longer ⊢
    omega
  · have all := written.text
    rw [← progress_chars progress] at all
    have cut := congrArg (List.take (text layout.front).length) all
    rw [take_left, take_append, take_of_length_le longer, ← written.consumed] at cut
    exact cut

variable {before after : Glyphs} {trailing : Nat} (closes : Closing row glyphs initial h layout before after trailing)

include closes

omit started in
theorem closing_char_size : h.row.charSize = (text glyphs).length := by
  have total := models.columns
  rw [closes.split] at total
  have last : (encode (text before).length after).getD (columns after) 0 = (text glyphs).length := by simp [encode, closes.split]
  have isRow := progress_row written.progress
  have isCount : h.row.columnCount = row.columnCount := by rw [isRow]
  rw [Row.charSize, isCount, ← total, ← last, ← closes.tail]
  simp

theorem resized (isMoved : moved = if (text layout.front).length + trailing ≠ (text before).length then
        h.row.resizedChars heap h.chBegDirty ((text layout.front).length + trailing) (text before).length else some h.row.chars) :
    (Refused heap row (text (settle glyphs layout)).length ∧ moved = none) ∨
      (¬ Refused heap row (text (settle glyphs layout)).length ∧ ∃ chars spare, moved = some chars ∧
        chars.length ≤ 0xFFFF ∧
          chars.take (text (takeColumns initial.colBeg glyphs)).length = text (takeColumns initial.colBeg glyphs) ∧
          chars.drop ((text layout.front).length + trailing) = text after ++ spare ∧
          (text layout.front).length + trailing ≤ chars.length) := by
  obtain ⟨spare, isChars⟩ := models.chars
  have capacity := models.capacity
  have isRow := progress_row written.progress
  have rowChars : h.row.chars = row.chars := by rw [isRow]
  have charSize := closing_char_size models written closes
  have lead : h.chBegDirty = (text (takeColumns initial.colBeg glyphs)).length := by
    rw [(progress_lead written.progress).1, started.chBegDirty]
  have isBefore : row.chars.take (text (takeColumns initial.colBeg glyphs)).length =
    text (takeColumns initial.colBeg glyphs) := by
    obtain ⟨rest, split⟩ := take_columns_leads initial.colBeg glyphs
    rw [isChars]
    nth_rewrite 2 [split]
    simp
  have isAfter : (row.chars.take (text glyphs).length).drop (text before).length = text after := by
    rw [isChars, take_left, closes.split, text_append, drop_left]
  have shorter : (text (takeColumns initial.colBeg glyphs)).length ≤ (text layout.front).length := by
    have longer := written.longer
    rw [leadIn, text_append, length_append] at longer
    omega
  have total : (text (settle glyphs layout)).length = (text layout.front).length + trailing + (text after).length := by
    rw [closes.settled, text_append, text_append, text_spaces, length_append, length_append, length_replicate]
  have oldTotal : (text glyphs).length = (text before).length + (text after).length := by simp [closes.split]
  have stored : (text glyphs).length ≤ row.chars.length := by simp [isChars]
  have newLength : (text glyphs).length + ((text layout.front).length + trailing) - (text before).length =
      (text (settle glyphs layout)).length := by
    omega
  by_cases same : (text layout.front).length + trailing = (text before).length
  · rw [if_neg (by simpa using same)] at isMoved
    refine Or.inr ⟨?_, row.chars, spare, by rw [isMoved, rowChars], capacity, isBefore, ?_, by omega⟩
    · rintro (large | ⟨long, _⟩)
      · omega
      · omega
    · simp [same, isChars, closes.split]
  · rw [if_pos same, Row.resizedChars] at isMoved
    simp only [charSize, newLength, rowChars, lead, isAfter] at isMoved
    by_cases room : (text (settle glyphs layout)).length ≤ row.chars.length
    · rw [if_pos room] at isMoved
      refine Or.inr ⟨?_, _, _, isMoved, ?_, ?_, drop_at_overwrite (by omega), ?_⟩
      · rintro (large | ⟨long, _⟩)
        · omega
        · omega
      · rw [overwrite_length (by omega)]
        exact capacity
      · rw [take_overwrite_before (by omega) (by omega)]
        exact isBefore
      · rw [overwrite_length (by omega)]
        omega
    · rw [if_neg room] at isMoved
      have capacities : Row.newCapacity row.chars.length (text (settle glyphs layout)).length > 0xFFFF ↔
          0xFFFF < (text (settle glyphs layout)).length := by
        rw [Row.newCapacity]
        omega
      by_cases large : 0xFFFF < (text (settle glyphs layout)).length
      · rw [if_pos (capacities.mpr large)] at isMoved
        exact Or.inl ⟨Or.inl large, isMoved⟩
      rw [if_neg (fun more => large (capacities.mp more))] at isMoved
      cases allocated : heap.allocate (Row.newCapacity row.chars.length (text (settle glyphs layout)).length) with
      | none =>
        rw [allocated] at isMoved
        exact Or.inl ⟨Or.inr ⟨not_le.mp room, allocated⟩, isMoved⟩
      | some buffer =>
        rw [allocated] at isMoved
        have size := heap.sized _ buffer allocated
        have enough : (text (settle glyphs layout)).length ≤ buffer.length := by
          rw [size]
          exact le_max_left _ _
        have bounded : buffer.length ≤ 0xFFFF := by omega
        have front : (overwriteAt buffer 0 (row.chars.take (text (takeColumns initial.colBeg glyphs)).length)).length =
            buffer.length := by
          apply overwrite_length
          rw [isBefore]
          omega
        refine Or.inr ⟨?_, _, _, isMoved, ?_, ?_, drop_at_overwrite (by omega), ?_⟩
        · rintro (tooLarge | ⟨_, failed⟩)
          · exact large tooLarge
          · rw [allocated] at failed
            cases failed
        · rw [overwrite_length (by omega), front]
          exact bounded
        · rw [take_overwrite_before (by omega) (by omega), isBefore]
          have copied := take_overwrite buffer (text (takeColumns initial.colBeg glyphs)) 0 (zero_le _)
          rw [zero_add] at copied
          exact copied
        · rw [overwrite_length (by omega)]
          omega

end

theorem tail_offsets {after : Glyphs}
    (isItems : items = if target ≠ source then (encode source after).map (shifted source target) else encode source after) :
    items.length = columns after + 1 ∧
      (target + (text after).length ≤ 0xFFFF → items.getD (columns after) 0 = target + (text after).length) ∧
      (target + (text after).length ≤ charOffsetsMask → items = encode target after) := by
  have last (start : Nat) : (encode start after)[columns after]? = some (start + (text after).length) := by simp [encode]
  by_cases same : target = source
  · rw [if_neg (by simpa using same), ← same] at isItems
    rw [isItems]
    refine ⟨encode_length, fun _ => ?_, fun _ => rfl⟩
    simp [last]
  · rw [if_pos same] at isItems
    rw [isItems]
    refine ⟨by simp [encode_length], fun small => ?_, fun small => ?_⟩
    · simpa [last] using shifted_small source target _ (by omega)
    · have limit : charOffsetsTrailer = charOffsetsMask + 1 := rfl
      exact shift_encode (by omega)

section

variable {row : Row Attr} {glyphs : Glyphs} (models : Represents row glyphs) {initial h : WriteHelper Attr}
  (started : Started row glyphs initial) {layout : Layout}
  (written : Written row initial h (text (leadIn initial.colBeg glyphs)) layout) (keeps : KeepsLead glyphs initial h layout)
  {before after : Glyphs} {trailing : Nat} (closes : Closing row glyphs initial h layout before after trailing)

include started written keeps

theorem lead_inside : h.leadingSpaces ≠ 0 → h.colBegDirty + h.leadingSpaces ≤ columns layout.front := by
  intro leading
  have isLead := (progress_lead written.progress).2
  rw [isLead] at leading ⊢
  obtain ⟨begDirty, glyph, more, isFront⟩ := keeps leading
  have near := take_columns_near glyphs initial.colBeg started.colBeg
  have positive := glyph.positive
  rw [begDirty, started.colBegDirty, isFront, columns_append, columns_cons, started.leadingSpaces]
  omega

theorem lead_offsets (isItems : items = Glyphs.offsets 0 layout.front ++ rest)
    (small : (text layout.front).length ≤ charOffsetsMask) :
    overwriteAt items h.colBegDirty (iota h.leadingSpaces h.chBegDirty) = items := by
  obtain ⟨chBegDirty, leadingSpaces⟩ := progress_lead written.progress
  have near := take_columns_near glyphs initial.colBeg started.colBeg
  by_cases leading : initial.leadingSpaces = 0
  · rw [leadingSpaces, leading]
    exact overwrite_nothing
  obtain ⟨begDirty, glyph, more, isFront⟩ := keeps leading
  have one : initial.leadingSpaces = 1 := by
    rw [started.leadingSpaces] at leading ⊢
    omega
  have start : narrow16 ((text (takeColumns initial.colBeg glyphs)).length + 0 : Nat) =
      (text (takeColumns initial.colBeg glyphs)).length := by
    rw [isFront, text_append, length_append, charOffsetsMask] at small
    exact narrow_small _ (by omega)
  have single : iota h.leadingSpaces h.chBegDirty = [(text (takeColumns initial.colBeg glyphs)).length] := by
    rw [leadingSpaces, chBegDirty, started.chBegDirty, one]
    exact congrArg (fun value => [value]) start
  have found : items = Glyphs.offsets 0 (takeColumns initial.colBeg glyphs) ++
      [(text (takeColumns initial.colBeg glyphs)).length] ++
        (replicate (glyph.width - 1) ((text (takeColumns initial.colBeg glyphs)).length + charOffsetsTrailer) ++
          Glyphs.offsets ((text (takeColumns initial.colBeg glyphs)).length + glyph.text.length) more ++ rest) := by
    simp [isItems, isFront, offsets_append, Glyphs.offsets, Glyph.offsets]
  rw [single, found, begDirty, started.colBegDirty, ← offsets_length 0 (takeColumns initial.colBeg glyphs)]
  exact overwrite_same

include models closes

theorem front_length : (h.row.charOffsets.take (columns before)).length = columns before ∧
    (overwriteAt (h.row.charOffsets.take (columns before)) h.colBegDirty (iota h.leadingSpaces h.chBegDirty)).length =
      columns before := by
  have width := closes.width
  have length : (h.row.charOffsets.take (columns before)).length = columns before := by
    rw [length_take_of_le]
    rw [written.progress.length, offsets_count models, closes.split, columns_append]
    omega
  refine ⟨length, ?_⟩
  by_cases leading : h.leadingSpaces = 0
  · rw [leading]
    exact (congrArg List.length overwrite_nothing).trans length
  · have inside := lead_inside started written keeps leading
    rw [overwrite_length (by rw [iota_length]; omega), length]

theorem offsets_split (items : List Nat) (first : Nat) : overwriteAt
        (overwriteAt (h.row.charOffsets.take (columns before) ++ items) h.colBegDirty (iota h.leadingSpaces h.chBegDirty))
        h.colEnd (iota trailing first) = overwriteAt
        (overwriteAt (h.row.charOffsets.take (columns before)) h.colBegDirty (iota h.leadingSpaces h.chBegDirty)) h.colEnd
        (iota trailing first) ++ items := by
  have colEnd := progress_col_end written.progress
  have width := closes.width
  obtain ⟨length, leadLength⟩ := front_length models started written keeps closes
  have lead : overwriteAt (h.row.charOffsets.take (columns before) ++ items) h.colBegDirty (iota h.leadingSpaces h.chBegDirty) =
      overwriteAt (h.row.charOffsets.take (columns before)) h.colBegDirty (iota h.leadingSpaces h.chBegDirty) ++ items := by
    by_cases leading : h.leadingSpaces = 0
    · rw [leading]
      exact overwrite_nothing.trans (congrArg (· ++ items) overwrite_nothing.symm)
    · have inside := lead_inside started written keeps leading
      exact overwrite_append (by rw [iota_length]; omega)
  rw [lead, overwrite_append (by rw [iota_length]; omega)]

theorem front_offsets
    (isItems : items = overwriteAt (overwriteAt (h.row.charOffsets.take (columns before)) h.colBegDirty
      (iota h.leadingSpaces h.chBegDirty)) h.colEnd (iota trailing (narrow16 (h.chBeg + h.charsConsumed))))
    : items.length = columns before ∧ ((text layout.front).length + trailing ≤ charOffsetsMask →
        items = Glyphs.offsets 0 (layout.front ++ spaces trailing)) := by
  have colEnd := progress_col_end written.progress
  have width := closes.width
  obtain ⟨_, leadLength⟩ := front_length models started written keeps closes
  have ended := overwrite_end (overwriteAt (h.row.charOffsets.take (columns before)) h.colBegDirty
    (iota h.leadingSpaces h.chBegDirty)) (iota trailing (narrow16 (h.chBeg + h.charsConsumed))) h.colEnd
    (by rw [iota_length, leadLength, colEnd, width])
  rw [isItems, ended]
  constructor
  · rw [length_append, iota_length, length_take]
    omega
  · intro small
    have stored := written.progress.encoded layout.front [] (append_nil _).symm (by omega)
    have split : h.row.charOffsets.take (columns before) = Glyphs.offsets 0 layout.front ++
        (h.row.charOffsets.take (columns before)).drop (columns layout.front) := by
      rw [← stored, ← min_eq_left (show columns layout.front ≤ columns before by omega), ← take_take,
        min_eq_left (show columns layout.front ≤ columns before by omega), take_append_drop]
    have limit : charOffsetsTrailer = charOffsetsMask + 1 := rfl
    have target : narrow16 (h.chBeg + h.charsConsumed) = (text layout.front).length := by
      have chBeg := progress_ch_beg written.progress
      have longer := written.longer
      rw [chBeg, started.chBeg, written.consumed, narrow16]
      rw [charOffsetsMask] at small
      omega
    rw [lead_offsets started written keeps split (by omega), colEnd, take_take,
      min_eq_left (by omega), stored, target, iota_spaces (by omega), offsets_append, zero_add]

omit keeps models in
theorem settled_chars
    (isBefore : chars.take (text (takeColumns initial.colBeg glyphs)).length = text (takeColumns initial.colBeg glyphs))
    (isAfter : chars.drop ((text layout.front).length + trailing) = text after ++ spare)
    (room : (text layout.front).length + trailing ≤ chars.length) : overwriteAt
        (overwriteAt (overwriteAt chars h.chBeg (h.chars.take h.charsConsumed)) h.chBegDirty
          (replicate h.leadingSpaces unicodeSpace)) (h.chBeg + h.charsConsumed) (replicate trailing unicodeSpace) =
      text (settle glyphs layout) ++ spare := by
  obtain ⟨chBegDirty, leadingSpaces⟩ := progress_lead written.progress
  have chBeg := progress_ch_beg written.progress
  rw [started.chBeg, leadIn, text_append, length_append, text_spaces, length_replicate, ← started.leadingSpaces,
    ← leadingSpaces] at chBeg
  rw [started.chBegDirty] at chBegDirty
  have isFront := closes.consumed
  rw [leadIn, text_append, text_spaces, ← started.leadingSpaces, ← leadingSpaces] at isFront
  have count : (h.chars.take h.charsConsumed).length = h.charsConsumed := by
    have consumed := written.consumed
    have length := congrArg length closes.consumed
    rw [length_append] at length
    omega
  have total : (text layout.front).length =
      (text (takeColumns initial.colBeg glyphs)).length + h.leadingSpaces + h.charsConsumed := by
    rw [isFront, length_append, length_append, length_replicate, count]
  have gap := overwrite_gap (text after ++ spare)
    (replicate h.leadingSpaces unicodeSpace) (h.chars.take h.charsConsumed) (replicate trailing unicodeSpace)
    isBefore (by simp [count, ← total, isAfter]) (by simpa [count, ← total] using room)
  rw [length_replicate, count, ← chBeg, ← chBegDirty] at gap
  simp [gap, closes.settled, isFront]

end

structure Settled (row : Row Attr) (glyphs : Glyphs) (layout : Layout) (h final : WriteHelper Attr) : Prop where
  helper : final = { h with row := final.row, colEndDirty := columns glyphs - columns (dropColumns layout.endDirty glyphs) }
  padded : final.row.doubleBytePadded =
    if columns (dropColumns layout.endDirty glyphs) = 0 then decide (columns layout.front < columns glyphs)
    else row.doubleBytePadded
  row : final.row =
    { row with
      chars := final.row.chars
      charOffsets := final.row.charOffsets
      doubleBytePadded := final.row.doubleBytePadded }
  charSize : final.row.charSize = (text (settle glyphs layout)).length
  models : (text (settle glyphs layout)).length ≤ charOffsetsMask → Represents final.row (settle glyphs layout)

theorem finish_settles (models : Represents row glyphs)
    (started : Started row glyphs initial) (columnCount : row.columnCount ≤ 0xFFFD)
    (written : Written row initial h (text (leadIn initial.colBeg glyphs)) layout) (keeps : KeepsLead glyphs initial h layout)
    (heap : Heap) : (Refused heap row (text (settle glyphs layout)).length ∧ h.finish heap = none) ∨
      (¬ Refused heap row (text (settle glyphs layout)).length ∧
        ∃ final, h.finish heap = some final ∧ Settled row glyphs layout h final) := by
  obtain ⟨before, after, trailing, closes⟩ := closing models started written columnCount
  have isRow := progress_row written.progress
  have isCount : h.row.columnCount = row.columnCount := by rw [isRow]
  have edge : columns before = columns glyphs - columns (dropColumns layout.endDirty glyphs) := by
    rw [← closes.behind, closes.split, columns_append, Nat.add_sub_cancel]
  -- The row with the text moved, whether that was needed or not.
  generalize isTail : (if (text layout.front).length + trailing ≠ (text before).length then
      (encode (text before).length after).map (shifted (text before).length ((text layout.front).length + trailing))
    else encode (text before).length after) = items
  generalize isMoved : (if (text layout.front).length + trailing ≠ (text before).length then
      h.row.resizedChars heap h.chBegDirty ((text layout.front).length + trailing) (text before).length
    else some h.row.chars) = moved
  have isResized : (if (text layout.front).length + trailing ≠ (text before).length then
        h.row.resizeChars heap (columns before) h.chBegDirty ((text layout.front).length + trailing) (text before).length
      else some h.row) = moved.map (fun chars =>
        { h.row with chars := chars, charOffsets := h.row.charOffsets.take (columns before) ++ items }) := by
    rw [← isMoved, ← isTail, ← closes.tail]
    by_cases same : (text layout.front).length + trailing ≠ (text before).length
    · rw [if_pos same, if_pos same, if_pos same]
      rfl
    · simp [if_neg same]
  have unfolded : h.finish heap = (moved.map (fun chars =>
      { h.row with chars := chars, charOffsets := h.row.charOffsets.take (columns before) ++ items })).map (fun row =>
        { h with
          row :=
            { row with
              chars := overwriteAt
                (overwriteAt (overwriteAt row.chars h.chBeg (h.chars.take h.charsConsumed)) h.chBegDirty
                  (replicate h.leadingSpaces unicodeSpace))
                (h.chBeg + h.charsConsumed) (replicate trailing unicodeSpace)
              charOffsets := overwriteAt
                (overwriteAt row.charOffsets h.colBegDirty (iota h.leadingSpaces h.chBegDirty)) h.colEnd
                (iota trailing (narrow16 (h.chBeg + h.charsConsumed)))
              doubleBytePadded := if columns before = row.columnCount then decide (h.colEnd < row.columnCount)
                else row.doubleBytePadded }
          colEndDirty := columns before }) := by
    rw [← isResized, WriteHelper.finish]
    simp [closes.forward, closes.spaces, closes.old, closes.new]
  have total : (text (settle glyphs layout)).length = (text layout.front).length + trailing + (text after).length := by
    rw [closes.settled, text_append, text_append, text_spaces, length_append, length_append, length_replicate]
  rcases resized models started written closes isMoved.symm with
    ⟨refused, isNone⟩ | ⟨accepted, chars, spare, isSome, capacity, isBefore, isAfter, room⟩
  · exact Or.inl ⟨refused, by rw [unfolded, isNone]; rfl⟩
  rw [isSome, Option.map_some, Option.map_some] at unfolded
  refine Or.inr ⟨accepted, _, unfolded, ?_⟩
  obtain ⟨tailLength, tailLast, isTailEncoded⟩ := tail_offsets isTail.symm
  have splitOffsets := offsets_split models started written keeps closes items (narrow16 (h.chBeg + h.charsConsumed))
  generalize isFront : overwriteAt
      (overwriteAt (h.row.charOffsets.take (columns before)) h.colBegDirty (iota h.leadingSpaces h.chBegDirty)) h.colEnd
      (iota trailing (narrow16 (h.chBeg + h.charsConsumed))) = front at splitOffsets
  obtain ⟨frontLength, isEncoded⟩ := front_offsets models started written keeps closes isFront.symm
  have settledText := settled_chars started written closes isBefore isAfter room
  have count : columns glyphs = columns before + columns after := by simp [closes.split]
  rw [splitOffsets, settledText]
  have bounded : (text (settle glyphs layout)).length ≤ 0xFFFF := by
    apply not_lt.mp
    exact fun large => accepted (Or.inl large)
  refine ⟨by rw [edge], ?_, ?_, ?_, fun small => ⟨?_, ?_, ⟨spare, rfl⟩, small, ?_⟩⟩
  · have reached : columns before = h.row.columnCount ↔ columns (dropColumns layout.endDirty glyphs) = 0 := by
      rw [isCount, ← models.columns, ← closes.behind]
      omega
    have isPadded : h.row.doubleBytePadded = row.doubleBytePadded := by rw [isRow]
    simp only [reached, isPadded]
    rw [progress_col_end written.progress, isCount, ← models.columns]
  · rw [isRow]
  · rw [Row.charSize, isCount, ← models.columns, count, ← frontLength, getD_append_right _ _ _ _ (by omega),
      Nat.add_sub_cancel_left, tailLast (by omega), total]
  · rw [closes.settled, columns_append, columns_append, columns_spaces, closes.width, ← count, models.columns]
    exact isCount.symm
  · rw [isEncoded (by omega), isTailEncoded (by omega), closes.settled, encode_append]
    simp
  · have length := congrArg length isAfter
    rw [length_drop, length_append] at length
    rw [length_append, total]
    omega

end Cogterm.Buffer
