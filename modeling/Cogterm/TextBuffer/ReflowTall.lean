import Cogterm.TextBuffer.ReflowEnds
import Cogterm.TextBuffer.ReflowMatches

namespace Cogterm.Buffer

open Library Til Glyphs Function Int

namespace Reflowing

structure Unlimited (tall width : Nat) (t : Reflowing) : Prop where
  shaped : t.Shaped width
  firstRow : t.newBuffer.firstRow = 0
  height : t.newBuffer.height = tall
  limit : tall ≤ t.newYLimit

structure Extends (t later : Reflowing) : Prop where
  newY : t.newY ≤ later.newY
  rows : ∀ row : Nat, row < t.newY → later.newBuffer.rows row = t.newBuffer.rows row

theorem extends_refl : Extends t t := ⟨le_refl _, fun _ _ => rfl⟩

theorem extends_trans (first : Extends t later) (second : Extends later last) : Extends t last := by
  refine ⟨le_trans first.newY second.newY, fun row above => ?_⟩
  rw [second.rows row (lt_of_lt_of_le above first.newY), first.rows row above]

def Passed (oldCursorPos : Point) (oldY oldX : Int) : Prop :=
  oldCursorPos.y < oldY ∨ (oldCursorPos.y = oldY ∧ oldCursorPos.x < oldX)

structure Going (tall width : Nat) (oldRow : Row TextAttribute) (base oldX : Int) (t : Reflowing) : Prop where
  unlimited : t.Unlimited tall width
  started : 0 ≤ oldX ∧ oldX < oldRow.columnCount
  reached : t.newY ≤ base + oldX

structure Gone (tall width : Nat) (oldRow : Row TextAttribute) (base : Int) (t : Reflowing) : Prop where
  unlimited : t.Unlimited tall width
  reached : t.newY ≤ base + oldRow.columnCount

variable {t final : Reflowing} {oldX : Int} {fuel : Nat} {base : Int}

section

variable {tall width : Nat}

theorem unlimited_row (unlimited : t.Unlimited tall width) (inside : t.newY < tall) :
    t.newBuffer.storageIndex t.newY = t.newY.toNat := by
  obtain ⟨index, isIndex⟩ := eq_ofNat_of_zero_le unlimited.shaped.newY
  rw [isIndex, storage_index_start unlimited.firstRow, unlimited.height, Nat.mod_eq_of_lt (by omega), toNat_natCast]

theorem set_row_above (unlimited : t.Unlimited tall width) (inside : t.newY < tall) {above : Nat}
    (isAbove : above < t.newY) : (t.newBuffer.setRow t.newY row).rows above = t.newBuffer.rows above := by
  show update t.newBuffer.rows (t.newBuffer.storageIndex t.newY) row above = _
  rw [unlimited_row unlimited inside, update_of_ne (by omega)]

theorem newline_unlimited (unlimited : t.Unlimited tall width) : t.newline.Unlimited tall width ∧ Extends t t.newline := by
  refine ⟨{ unlimited with shaped := shaped_newline unlimited.shaped }, ?_, fun _ _ => rfl⟩
  exact Int.le_of_lt (Int.lt_succ t.newY)

theorem fresh_line_unlimited (unlimited : t.Unlimited tall width) : t.freshLine.Unlimited tall width := by
  rw [freshLine]
  split
  · exact (newline_unlimited unlimited).1
  · exact unlimited

theorem wrap_line_unlimited (unlimited : t.Unlimited tall width) (inside : t.newY < tall) :
    (t.wrapLine width).Unlimited tall width ∧ Extends t (t.wrapLine width) := by
  obtain ⟨shaped, sameLimit, moved⟩ := wrap_line_cases t unlimited.shaped
  have limit := unlimited.limit
  have kept : Extends t (t.wrapLine width) := by
    refine ⟨by omega, fun row above => ?_⟩
    rw [wrapLine]
    split
    · exact set_row_above unlimited inside above
    · rfl
  refine ⟨⟨shaped, ?_, ?_, by omega⟩, kept⟩
  · rw [wrapLine]
    split <;> exact unlimited.firstRow
  · rw [wrapLine]
    split <;> exact unlimited.height

variable (double : 2 ≤ width) (narrow : width ≤ charOffsetsMask) (env : Environment) (oldCursorPos : Point)
  {oldRow : Row TextAttribute}
  (kept : Kept oldRow) (oldY : Int) {oldRowLimit : Int} (limited : oldRowLimit ≤ oldRow.columnCount)

include kept narrow limited

variable {next : Int × Reflowing}

theorem copy_piece_unlimited (started : 0 ≤ oldX ∧ oldX ≤ oldRow.columnCount) (unlimited : t.Unlimited tall width)
    (inside : t.newY < tall) (room : t.newX < width)
    (copied : t.copyPiece env oldCursorPos width tall oldRow oldY oldRowLimit oldX = some next) :
    next.2.Unlimited tall width ∧ Extends t next.2 ∧ next.2.newY = t.newY ∧
      (Passed oldCursorPos oldY oldX → next.2.newCursorPos = t.newCursorPos) ∧
      (oldY = oldCursorPos.y → oldX ≤ oldCursorPos.x → next.2.newCursorPos.y = t.newY) := by
  obtain ⟨glyphs, models⟩ := kept.sound.stored
  obtain ⟨shaped, _, sameY, sameLimit, _⟩ := copy_piece_step env oldCursorPos narrow tall models oldY limited started
    unlimited.shaped room copied
  obtain ⟨state, row, _, _, ends⟩ := copy_piece_cases copied
  obtain ⟨_, _, _, _, isRows, isFirst, isHeight, _⟩ := ends.view
  have tracked := (copy_piece_cursor copied).2
  have limit := unlimited.limit
  have positive := unlimited.shaped.newY
  refine ⟨⟨shaped, isFirst.trans unlimited.firstRow, isHeight.trans unlimited.height, ?_⟩,
    ⟨by omega, fun above isAbove => ?_⟩, sameY, fun passed => ?_, by omega⟩
  · rw [sameLimit]
    split <;> omega
  · rw [isRows]
    exact set_row_above unlimited inside isAbove
  · rw [Passed] at passed
    rcases tracked with tracked | tracked
    · omega
    · exact tracked.2.1

include double

-- One iteration when there is no end of rows: every wrap is followed by a step
-- in the old row, as its next glyph fits at the start of a row.
theorem copy_step_unlimited (enough : base + oldRow.columnCount < tall) (going : Going tall width oldRow base oldX t) :
    (t.wrapLine width).newY < tall ∧ (copyStep env oldCursorPos width tall oldRow oldY oldRowLimit (oldX, t) =
      match (t.wrapLine width).copyPiece env oldCursorPos width tall oldRow oldY oldRowLimit oldX with
      | none => .done none
      | some next => if next.1 < oldRowLimit then .again next else .done (some next.2)) ∧
    ∀ next, (t.wrapLine width).copyPiece env oldCursorPos width tall oldRow oldY oldRowLimit oldX = some next →
      Extends (t.wrapLine width) next.2 ∧ (Passed oldCursorPos oldY oldX → next.2.newCursorPos = t.newCursorPos) ∧
        (oldY = oldCursorPos.y → oldX ≤ oldCursorPos.x → next.2.newCursorPos.y = (t.wrapLine width).newY) ∧
        (next.1 < oldRowLimit → oldX ≤ next.1 ∧ Going tall width oldRow base next.1 next.2) ∧
        (¬ next.1 < oldRowLimit → Gone tall width oldRow base next.2) := by
  obtain ⟨unlimited, started, reached⟩ := going
  have wrappedUnlimited := (wrap_line_unlimited unlimited (by omega)).1
  obtain ⟨_, _, moved⟩ := wrap_line_cases t unlimited.shaped
  refine ⟨by omega, ?_, fun next copied => ?_⟩
  · rw [copyStep]
    simp only
    rewrite [if_neg (by omega), resetLine, if_neg (by omega)]
    cases (t.wrapLine width).copyPiece env oldCursorPos width tall oldRow oldY oldRowLimit oldX <;> rfl
  · obtain ⟨glyphs, models⟩ := kept.sound.stored
    obtain ⟨nextUnlimited, further, sameY, cursor, here⟩ := copy_piece_unlimited narrow env oldCursorPos kept oldY limited
      (by omega) wrappedUnlimited (by omega) (by omega) copied
    obtain ⟨_, _, _, _, progress⟩ := copy_piece_step env oldCursorPos narrow tall models oldY limited
      (by omega) wrappedUnlimited.shaped (by omega) copied
    refine ⟨further, fun passed => by rw [cursor passed, wrap_line_cursor], here, fun more => ?_, fun _ => ?_⟩
    · exact ⟨by omega, nextUnlimited, by omega, by omega⟩
    · exact ⟨nextUnlimited, by omega⟩

theorem copy_loop_unlimited (base : Int) (enough : base + oldRow.columnCount < tall)
    (going : Going tall width oldRow base oldX t)
    (ended : runLoop (copyStep env oldCursorPos width tall oldRow oldY oldRowLimit) fuel (oldX, t) = some (some final)) :
    Gone tall width oldRow base final ∧ Extends (t.wrapLine width) final ∧
      (Passed oldCursorPos oldY oldX → final.newCursorPos = t.newCursorPos) ∧
      (oldY = oldCursorPos.y → oldX ≤ oldCursorPos.x → (t.wrapLine width).newY ≤ final.newCursorPos.y) := by
  refine run_loop_invariant
    (fun current : Int × Reflowing => oldX ≤ current.1 ∧ Going tall width oldRow base current.1 current.2 ∧
      Extends (t.wrapLine width) (current.2.wrapLine width) ∧
      (Passed oldCursorPos oldY oldX → current.2.newCursorPos = t.newCursorPos) ∧
      (oldY = oldCursorPos.y → oldX ≤ oldCursorPos.x → current.1 ≤ oldCursorPos.x ∨
        (t.wrapLine width).newY ≤ current.2.newCursorPos.y))
    (fun result => ∀ final ∈ result, Gone tall width oldRow base final ∧ Extends (t.wrapLine width) final ∧
      (Passed oldCursorPos oldY oldX → final.newCursorPos = t.newCursorPos) ∧
      (oldY = oldCursorPos.y → oldX ≤ oldCursorPos.x → (t.wrapLine width).newY ≤ final.newCursorPos.y))
    ?_ (oldX, t) ⟨le_refl _, going, extends_refl, fun _ => rfl, fun _ => .inl⟩ ended final rfl
  rintro ⟨column, current⟩ ⟨above, currentGoing, extended, sameCursor, reaches⟩
  obtain ⟨inside, isStep, copies⟩ := copy_step_unlimited double narrow env oldCursorPos kept oldY limited enough currentGoing
  rw [isStep]
  cases copied : (current.wrapLine width).copyPiece env oldCursorPos width tall oldRow oldY oldRowLimit column with
  | none => exact .inl ⟨none, rfl, fun last isLast => by cases isLast⟩
  | some other =>
    obtain ⟨further, cursor, here, goesOn, ends⟩ := copies other copied
    have tracked (passed : Passed oldCursorPos oldY oldX) : other.2.newCursorPos = t.newCursorPos := by
      rw [cursor (by rw [Passed] at passed ⊢; omega), sameCursor passed]
    have placed (isRow : oldY = oldCursorPos.y) (before : oldX ≤ oldCursorPos.x) :
        (t.wrapLine width).newY ≤ other.2.newCursorPos.y := by
      by_cases isHere : column ≤ oldCursorPos.x
      · rw [here isRow isHere]
        exact extended.newY
      · rw [cursor (.inr ⟨isRow.symm, by omega⟩)]
        exact (reaches isRow before).resolve_left isHere
    by_cases more : other.1 < oldRowLimit
    · obtain ⟨grows, nextGoing⟩ := goesOn more
      have reached := nextGoing.reached
      have wraps := (wrap_line_unlimited nextGoing.unlimited (by omega)).2
      exact .inr ⟨other, if_pos more, by omega, nextGoing, extends_trans (extends_trans extended further) wraps, tracked,
        fun isRow before => .inr (placed isRow before)⟩
    · refine .inl ⟨some other.2, if_neg more, fun last isLast => ?_⟩
      cases isLast
      exact ⟨ends more, extends_trans extended further, tracked, placed⟩

end

def endRow (oldRow : Row TextAttribute) (s : Reflowing) : Reflowing := if oldRow.wrapForced then s else s.newline

theorem end_row_unlimited (gone : Gone tall width oldRow base t) :
    (t.endRow oldRow).Unlimited tall width ∧ (t.endRow oldRow).newY ≤ base + oldRow.columnCount + 1 ∧
      Extends t (t.endRow oldRow) ∧ (t.endRow oldRow).newCursorPos = t.newCursorPos ∧
      (oldRow.wrapForced = true ∨ t.newY < (t.endRow oldRow).newY) := by
  obtain ⟨unlimited, reached⟩ := gone
  rw [endRow]
  by_cases wraps : oldRow.wrapForced = true
  · rw [if_pos wraps]
    exact ⟨unlimited, by omega, extends_refl, rfl, .inl wraps⟩
  · obtain ⟨nextUnlimited, further⟩ := newline_unlimited unlimited
    rw [if_neg wraps]
    exact ⟨nextUnlimited, by simp only [newline]; omega, further, rfl, .inr (Int.lt_succ t.newY)⟩

theorem reflow_cursor_column {oldBuffer : TextBuffer} (wide : 0 < oldBuffer.width) :
    0 ≤ oldBuffer.reflowCursor.x ∧ oldBuffer.reflowCursor.x < oldBuffer.width := by
  have inside := clamp_bounds oldBuffer.cursor.position.x (oldBuffer.width - 1) (by omega)
  have column : oldBuffer.reflowCursor.x = clamp oldBuffer.cursor.position.x 0 (oldBuffer.width - 1) := rfl
  omega

theorem rows_left (count width : Nat) : ((count + 1 : Nat) : Int) * (width + 1) = count * (width + 1) + width + 1 ∧
    (0 : Int) ≤ count * (width + 1) := by
  rw [Int.natCast_succ, Int.add_mul, Int.one_mul]
  exact ⟨rfl, Int.mul_nonneg (by omega) (by omega)⟩

variable {tall width : Nat} (double : 2 ≤ width) (narrow : width ≤ charOffsetsMask) {env : Environment}
  {oldBuffer : TextBuffer}
  (oldMaintained : Maintained oldBuffer) (single : ∀ y, (oldBuffer.getRow y).lineRendition = .singleWidth)

include oldMaintained

omit oldMaintained in
theorem unlimited_touched (oldY : Int) (unlimited : t.Unlimited tall width) :
    { t with oldBuffer := t.oldBuffer.touchRow oldY }.Unlimited tall width :=
  { unlimited with shaped := { unlimited.shaped with } }

include single in
omit oldMaintained in
theorem reflow_row_loop (same : t.oldBuffer.SameRows oldBuffer)
    (ended : t.reflowRow env oldBuffer.reflowCursor width tall fuel oldY = some (some final)) :
    ∃ last, runLoop (copyStep env oldBuffer.reflowCursor width tall (oldBuffer.getRow oldY) oldY
        (oldRowLimit oldBuffer.reflowCursor (oldBuffer.getRow oldY) oldY)) fuel
        (0, { t with oldBuffer := t.oldBuffer.touchRow oldY }) =
      some (some last) ∧ last.endRow (oldBuffer.getRow oldY) = final := by
  rw [reflowRow, same_rows_get t.oldBuffer oldBuffer same oldY, if_neg (not_not.mpr (single oldY))] at ended
  obtain ⟨copied, looped, isCopied⟩ := Option.map_eq_some_iff.mp ended
  obtain ⟨last, isLast, isFinal⟩ := Option.map_eq_some_iff.mp isCopied
  exact ⟨last, isLast ▸ looped, isFinal⟩

omit oldMaintained in
theorem reflow_rows_next (before : t.newY < t.newYLimit)
    (ended : t.reflowRows env oldBuffer.reflowCursor width tall fuel (count + 1) oldY = some (some result)) :
    ∃ next, t.reflowRow env oldBuffer.reflowCursor width tall fuel oldY = some (some next) ∧
      next.reflowRows env oldBuffer.reflowCursor width tall fuel count (oldY + 1) = some (some result) := by
  rw [reflowRows, if_pos before] at ended
  split at ended
  · cases ended
  · cases ended
  · exact ⟨_, ‹_›, ended⟩

include double narrow single

theorem reflow_row_unlimited (unlimited : t.Unlimited tall width) (same : t.oldBuffer.SameRows oldBuffer)
    (reached : t.newY ≤ base) (enough : base + oldBuffer.width < tall)
    (ended : t.reflowRow env oldBuffer.reflowCursor width tall fuel oldY = some (some final)) :
    final.Unlimited tall width ∧ final.oldBuffer.SameRows oldBuffer ∧ Extends t final ∧
      final.newY ≤ base + oldBuffer.width + 1 ∧
      (oldBuffer.reflowCursor.y < oldY → final.newCursorPos = t.newCursorPos) := by
  have finalSame := (reflow_row_shaped env oldBuffer oldMaintained narrow (by omega) unlimited.shaped same ended final
    rfl).2
  have count : (oldBuffer.getRow oldY).columnCount = oldBuffer.width := oldMaintained.widths _
  have rowKept : Kept (oldBuffer.getRow oldY) := oldMaintained.rows _
  have wide := oldMaintained.wide
  have touched := unlimited_touched oldY unlimited
  obtain ⟨last, looped, isEnd⟩ := reflow_row_loop single same ended
  obtain ⟨gone, further, cursor, _⟩ := copy_loop_unlimited double narrow env oldBuffer.reflowCursor rowKept oldY
    (old_row_limit_le oldBuffer oldMaintained oldY) base (by omega) ⟨touched, by omega, by simp only; omega⟩ looped
  have wraps := (wrap_line_unlimited touched (by simp only; omega)).2
  obtain ⟨finalUnlimited, bound, ends, sameCursor, _⟩ := end_row_unlimited gone
  rw [isEnd] at finalUnlimited bound ends sameCursor
  have joined := extends_trans wraps further
  have through : Extends t last := ⟨joined.newY, joined.rows⟩
  refine ⟨finalUnlimited, finalSame, extends_trans through ends, by omega, fun passed => ?_⟩
  rw [sameCursor, cursor (.inl passed)]

theorem reflow_rows_unlimited {count : Nat} (oldY base : Int) (t : Reflowing) (unlimited : t.Unlimited tall width)
    (same : t.oldBuffer.SameRows oldBuffer) (reached : t.newY ≤ base) (enough : base + count * (oldBuffer.width + 1) ≤ tall)
    (ended : t.reflowRows env oldBuffer.reflowCursor width tall fuel count oldY = some (some (lastY, final))) :
    final.Unlimited tall width ∧ final.newY ≤ base + count * (oldBuffer.width + 1) ∧ Extends t final ∧
      (oldBuffer.reflowCursor.y < oldY → final.newCursorPos = t.newCursorPos) := by
  induction count generalizing oldY base t with
  | zero =>
    cases ended
    exact ⟨unlimited, by omega, extends_refl, fun _ => rfl⟩
  | succ count ih =>
    have limit := unlimited.limit
    obtain ⟨rows, rest⟩ := rows_left count oldBuffer.width
    obtain ⟨next, copied, ended⟩ := reflow_rows_next (by omega) ended
    obtain ⟨nextUnlimited, nextSame, further, bound, cursor⟩ := reflow_row_unlimited double narrow
      oldMaintained single unlimited same reached (by omega) copied
    obtain ⟨finalUnlimited, finalBound, extended, sameCursor⟩ := ih (oldY + 1) (base + oldBuffer.width + 1) next
      nextUnlimited nextSame bound (by omega) ended
    refine ⟨finalUnlimited, by omega, extends_trans further extended, fun passed => ?_⟩
    rw [sameCursor (by omega), cursor passed]

end Reflowing

end Cogterm.Buffer
