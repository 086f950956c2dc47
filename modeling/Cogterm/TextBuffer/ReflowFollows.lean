import Cogterm.TextBuffer.ReflowTall

namespace Cogterm.Buffer

open Library Til Glyphs

namespace Reflowing

-- How far the copying may go: there is no limit before the cursor's row. In this row the limit is
-- behind the row that was written last, which is not above the first one of the old row.
structure Limited (small : Nat) (oldCursorPos : Point) (first oldY oldX : Int) (s : Reflowing) : Prop where
  above : oldY < oldCursorPos.y → s.newYLimit = coordTypeMax
  here : oldY = oldCursorPos.y → oldX ≤ oldCursorPos.x → s.newYLimit = coordTypeMax ∨
    (s.newY + small ≤ s.newYLimit ∧ first ≤ s.newY)
  below : Passed oldCursorPos oldY oldX → s.newYLimit = s.newCursorPos.y + small
  least : small ≤ s.newYLimit
  cursor : 0 ≤ s.newCursorPos.y ∧ s.newCursorPos.y ≤ s.newY

-- The copying is at the limit, behind the cursor or, with one row only, in front of it.
structure Stops (small tall width : Nat) (attributes : TextAttribute) (oldCursorPos : Point) (first oldY oldX : Int)
    (s t : Reflowing) : Prop where
  same : Matches small tall width attributes false s t
  atLimit : s.newY = s.newYLimit
  cursor : 0 ≤ s.newCursorPos.y ∧ s.newCursorPos.y < s.newY
  place : (Passed oldCursorPos oldY oldX ∧ s.newYLimit = s.newCursorPos.y + small) ∨
    (small = 1 ∧ oldY = oldCursorPos.y ∧ oldX ≤ oldCursorPos.x ∧ first < s.newY)

structure Follows (small tall width : Nat) (attributes : TextAttribute) (oldCursorPos : Point)
    (oldRow : Row TextAttribute) (base first oldY : Int) (current ahead : Int × Reflowing) : Prop where
  column : current.1 = ahead.1
  same : ∃ visited, Matches small tall width attributes visited current.2 ahead.2
  going : Going tall width oldRow base ahead.1 ahead.2
  limits : Limited small oldCursorPos first oldY ahead.1 current.2
  before : current.2.newY < current.2.newYLimit
  begun : first ≤ (ahead.2.wrapLine width).newY

structure RowCopied (small tall width : Nat) (attributes : TextAttribute) (oldCursorPos : Point)
    (oldRow : Row TextAttribute) (base first oldY : Int) (last final : Reflowing) : Prop where
  same : Matches small tall width attributes true last final
  gone : Gone tall width oldRow base final
  limits : Limited small oldCursorPos first oldY oldRow.columnCount last
  before : last.newY < last.newYLimit

variable {s t : Reflowing} {visited : Bool} {final : Reflowing} {oldX base first : Int}

section

variable {small tall width : Nat} (low : 0 < small) (double : 2 ≤ width) (narrow : width ≤ charOffsetsMask)
  (bounded : tall ≤ coordTypeMax) {attributes : TextAttribute} (env : Environment) {oldCursorPos : Point}
  {oldRow : Row TextAttribute} (kept : Kept oldRow) {oldY oldRowLimit : Int} (limited : oldRowLimit ≤ oldRow.columnCount)

include low in
theorem piece_limited (grows : oldX ≤ further) {ready : Reflowing}
    (limits : Limited small oldCursorPos first oldY oldX s) (sameLimit : ready.newYLimit = s.newYLimit)
    (sameCursor : ready.newCursorPos = s.newCursorPos) (sameY : s.newY ≤ ready.newY) (begun : first ≤ ready.newY)
    (before : ready.newY < ready.newYLimit) {next : Int × Reflowing}
    (copied : ready.copyPiece env oldCursorPos width small oldRow oldY oldRowLimit oldX = some next) :
    Limited small oldCursorPos first oldY further next.2 ∧ next.2.newY < next.2.newYLimit := by
  obtain ⟨above, here, below, least, cursor⟩ := limits
  obtain ⟨nextY, ⟨isRow, isColumn, nextCursor, nextLimit⟩ | ⟨notHere, nextCursor, nextLimit⟩⟩ :=
    copy_piece_cursor copied
  · exact ⟨⟨by omega, by omega, by omega, by omega, by omega⟩, by omega⟩
  rw [sameCursor] at nextCursor
  refine ⟨⟨by omega, by omega, fun passed => ?_, by omega, by rw [nextCursor]; omega⟩, by omega⟩
  rw [Passed] at passed below
  rw [nextCursor, nextLimit, sameLimit]
  exact below (by omega)

include low double narrow bounded

theorem wrap_stops (same : Matches small tall width attributes visited s t) (inside : (t.wrapLine width).newY < tall)
    (limits : Limited small oldCursorPos first oldY oldX s) (before : s.newY < s.newYLimit)
    (stopped : (s.wrapLine width).newX = 0 ∧ (s.wrapLine width).newY ≥ (s.wrapLine width).newYLimit) :
    Stops small tall width attributes oldCursorPos first oldY oldX (s.wrapLine width) (t.wrapLine width) := by
  obtain ⟨_, sameLimit, moved⟩ := wrap_line_cases s same.smallShaped
  obtain ⟨_, _, otherMoved⟩ := wrap_line_cases t same.tallShaped
  have sameX := same.newX
  have sameY := same.newY
  have wraps := wrap_line_matches low (by omega) narrow same (by omega)
  have wrapCursor := wrap_line_cursor s width
  have cursor := limits.cursor
  rw [show (visited && decide (t.newX < width)) = false by simp; omega] at wraps
  refine ⟨wraps, by omega, by rw [wrapCursor]; omega, ?_⟩
  by_cases passed : Passed oldCursorPos oldY oldX
  · exact .inl ⟨passed, by rw [sameLimit, wrapCursor]; exact limits.below passed⟩
  · have above := limits.above
    have here := limits.here
    rw [Passed] at passed
    exact .inr (by omega)

include kept limited

theorem copy_step_follows (enough : base + oldRow.columnCount < tall) (current ahead : Int × Reflowing)
    (follows : Follows small tall width attributes oldCursorPos oldRow base first oldY current ahead) :
    (copyStep env oldCursorPos width small oldRow oldY oldRowLimit current = .done (some (current.2.wrapLine width)) ∧
        Stops small tall width attributes oldCursorPos first oldY ahead.1 (current.2.wrapLine width)
          (ahead.2.wrapLine width)) ∨
      (∃ next other, copyStep env oldCursorPos width small oldRow oldY oldRowLimit current = .again next ∧
        copyStep env oldCursorPos width tall oldRow oldY oldRowLimit ahead = .again other ∧
        Follows small tall width attributes oldCursorPos oldRow base first oldY next other) ∨
      ∃ result reached, copyStep env oldCursorPos width small oldRow oldY oldRowLimit current = .done result ∧
        copyStep env oldCursorPos width tall oldRow oldY oldRowLimit ahead = .done reached ∧
        ∀ final ∈ reached, ∃ last, result = some last ∧
          RowCopied small tall width attributes oldCursorPos oldRow base first oldY last final := by
  obtain ⟨oldX, s⟩ := current
  obtain ⟨_, t⟩ := ahead
  obtain ⟨rfl, ⟨visited, same⟩, going, limits, before, begun⟩ := follows
  have started := going.started
  have reached := going.reached
  have sameX := same.newX
  have sameY := same.newY
  obtain ⟨inside, tallStep, copies⟩ := copy_step_unlimited double narrow env oldCursorPos kept oldY limited enough going
  have wraps := wrap_line_matches (by omega) (by omega) narrow same (by omega)
  obtain ⟨_, sameLimit, moved⟩ := wrap_line_cases s same.smallShaped
  have stops := wrap_stops low double narrow bounded same inside limits before
  have wrapCursor := wrap_line_cursor s width
  rw [tallStep, copyStep]
  dsimp only at *
  generalize s.wrapLine width = wrapped at *
  generalize t.wrapLine width = other at *
  have wrapX := wraps.newX
  have wrapY := wraps.newY
  by_cases broken : wrapped.newY ≥ small ∧ wrapped.newX = 0 ∧ wrapped.newY ≥ wrapped.newYLimit
  · rw [if_pos broken]
    exact .inl ⟨rfl, stops broken.2⟩
  rw [if_neg broken]
  have least := limits.least
  obtain ⟨column, isColumn⟩ := Int.eq_ofNat_of_zero_le started.1
  obtain ⟨_, readyX, readyY, readyLimit, _⟩ := reset_line_frame (small : Int) wrapped wraps.smallShaped
  rcases copy_piece_matches (by omega) (by omega) narrow env oldCursorPos oldRow kept oldY oldRowLimit limited column
    (by omega) wraps inside (by omega) with
    ⟨smallFails, tallFails⟩ | ⟨oldEnd, next, final, smallCopied, tallCopied, nextSame⟩
  · rw [← isColumn] at smallFails tallFails
    rw [smallFails, tallFails]
    exact .inr (.inr ⟨none, none, rfl, rfl, fun final isFinal => by cases isFinal⟩)
  · rw [← isColumn] at smallCopied tallCopied
    obtain ⟨further, _, _, goesOn, ends⟩ := copies (oldEnd, final) tallCopied
    have limitedTo (column : Int) (grows : oldX ≤ column) := piece_limited low env grows limits
      (readyLimit.trans sameLimit) ((reset_line_cursor ..).trans wrapCursor) (by omega) (by omega) (by omega) smallCopied
    rw [smallCopied, tallCopied]
    dsimp only at *
    by_cases more : oldEnd < oldRowLimit
    · rw [if_pos more, if_pos more]
      obtain ⟨grows, nextGoing⟩ := goesOn more
      obtain ⟨nextLimits, nextBefore⟩ := limitedTo oldEnd grows
      have higher := further.newY
      obtain ⟨_, _, nextMoved⟩ := wrap_line_cases final nextSame.tallShaped
      exact .inr (.inl ⟨_, _, rfl, rfl, rfl, ⟨true, nextSame⟩, nextGoing, nextLimits, nextBefore, by dsimp only; omega⟩)
    · rw [if_neg more, if_neg more]
      obtain ⟨nextLimits, nextBefore⟩ := limitedTo oldRow.columnCount (Int.le_of_lt started.2)
      refine .inr (.inr ⟨_, _, rfl, rfl, fun reached isReached => ?_⟩)
      cases isReached
      exact ⟨next, rfl, nextSame, ends more, nextLimits, nextBefore⟩

theorem copy_loop_follows (base : Int) (enough : base + oldRow.columnCount < tall)
    (follows : Follows small tall width attributes oldCursorPos oldRow base first oldY (0, s) (0, t))
    (ended : runLoop (copyStep env oldCursorPos width tall oldRow oldY oldRowLimit) fuel (0, t) = some (some final)) :
    (∃ left oldX last reached, Going tall width oldRow base oldX reached ∧
        Stops small tall width attributes oldCursorPos first oldY oldX last (reached.wrapLine width) ∧
        runLoop (copyStep env oldCursorPos width tall oldRow oldY oldRowLimit) left (oldX, reached) = some (some final) ∧
        runLoop (copyStep env oldCursorPos width small oldRow oldY oldRowLimit) fuel (0, s) = some (some last)) ∨
      ∃ last, runLoop (copyStep env oldCursorPos width small oldRow oldY oldRowLimit) fuel (0, s) = some (some last) ∧
        RowCopied small tall width attributes oldCursorPos oldRow base first oldY last final := by
  rcases run_loop_follows _ _ _ _ (copy_step_follows low double narrow bounded env kept limited enough) (0, s) (0, t)
    follows ended with ⟨left, ⟨_, current⟩, ⟨oldX, reached⟩, related, stops, finished, same⟩ |
    ⟨result, finished, good⟩
  · refine .inl ⟨left, oldX, _, reached, related.going, stops.2, finished, ?_⟩
    cases left with
    | zero => cases finished
    | succ left => rw [same, runLoop, stops.1]
  · obtain ⟨last, isResult, rest⟩ := good final rfl
    exact .inr ⟨last, isResult ▸ finished, rest⟩

end

structure Between (small tall width : Nat) (attributes : TextAttribute) (oldCursorPos : Point) (oldY : Int) (visited : Bool)
    (s t : Reflowing) : Prop where
  same : Matches small tall width attributes visited s t
  above : oldY ≤ oldCursorPos.y → s.newYLimit = coordTypeMax
  below : oldCursorPos.y < oldY → s.newYLimit = s.newCursorPos.y + small
  least : small ≤ s.newYLimit
  cursor : 0 ≤ s.newCursorPos.y ∧ s.newCursorPos.y ≤ s.newY
  line : s.newY < s.newYLimit ∨ (visited = false ∧ s.newY = s.newYLimit)
  behind : visited = false → s.newCursorPos.y < s.newY

theorem wrap_line_touched (t : Reflowing) (width oldY : Int) :
    ({ t with oldBuffer := t.oldBuffer.touchRow oldY }.wrapLine width).newY = (t.wrapLine width).newY := by
  rw [wrapLine, wrapLine]
  split <;> rfl

theorem end_row_follows (low : 0 < small) (wide : 0 < width) (narrow : width ≤ charOffsetsMask)
    (inside : oldCursorPos.x < oldRow.columnCount)
    (copied : RowCopied small tall width attributes oldCursorPos oldRow base first oldY s t) :
    Between small tall width attributes oldCursorPos (oldY + 1) oldRow.wrapForced (s.endRow oldRow) (t.endRow oldRow) := by
  obtain ⟨same, _, ⟨above, _, below, least, cursor⟩, before⟩ := copied
  rw [endRow, endRow]
  rw [Passed] at below
  cases wraps : oldRow.wrapForced with
  | true =>
    rw [if_pos rfl, if_pos rfl]
    exact ⟨same, by omega, by omega, least, cursor, .inl before, fun none => absurd none Bool.noConfusion⟩
  | false =>
    rw [if_neg Bool.false_ne_true, if_neg Bool.false_ne_true]
    refine ⟨matches_newline low wide narrow same, ?_, ?_, least, ?_, ?_, fun _ => ?_⟩ <;> simp only [newline]
    · omega
    · omega
    · omega
    · by_cases more : s.newY + 1 < s.newYLimit
      · exact .inl more
      · exact .inr ⟨trivial, by omega⟩
    · omega

variable {small tall width : Nat} (low : 0 < small) (double : 2 ≤ width) (narrow : width ≤ charOffsetsMask)
  (bounded : tall ≤ coordTypeMax) {attributes : TextAttribute} {env : Environment} {oldBuffer : TextBuffer}
  (oldMaintained : Maintained oldBuffer) (single : ∀ y, (oldBuffer.getRow y).lineRendition = .singleWidth)

-- What the copying of one old row without a limit has to meet: with one row only the cursor is in
-- the first piece, and the limit is not passed in an old row that ends its line.
def RowFits (oldBuffer : TextBuffer) (width small : Nat) (oldY : Int) (t final : Reflowing) : Prop :=
  (small = 1 → oldY = oldBuffer.reflowCursor.y → final.newCursorPos.y ≤ (t.wrapLine width).newY) ∧
    (oldBuffer.reflowCursor.y ≤ oldY → t.newY < final.newCursorPos.y + small →
      final.newCursorPos.y + small < final.newY → (oldBuffer.getRow oldY).wrapForced = true)

instance (oldBuffer : TextBuffer) (width small : Nat) (oldY : Int) (t final : Reflowing) :
    Decidable (RowFits oldBuffer width small oldY t final) :=
  inferInstanceAs (Decidable (_ ∧ _))

include low double narrow bounded oldMaintained single

theorem reflow_row_follows (between : Between small tall width attributes oldBuffer.reflowCursor oldY visited s t)
    (before : s.newY < s.newYLimit) (unlimited : t.Unlimited tall width) (sameOld : t.oldBuffer.SameRows oldBuffer)
    (reached : t.newY ≤ base) (enough : base + oldBuffer.width < tall)
    (ended : t.reflowRow env oldBuffer.reflowCursor width tall fuel oldY = some (some final))
    (fits : RowFits oldBuffer width small oldY t final) :
    ∃ last, s.reflowRow env oldBuffer.reflowCursor width small fuel oldY = some (some last) ∧
      (Between small tall width attributes oldBuffer.reflowCursor (oldY + 1) (oldBuffer.getRow oldY).wrapForced last final ∨
        (oldBuffer.reflowCursor.y ≤ oldY ∧ ∃ stopped, Extends stopped final ∧
          final.newCursorPos = stopped.newCursorPos ∧
          Between small tall width attributes oldBuffer.reflowCursor (oldY + 1) false last stopped ∧
          last.newY = last.newYLimit)) := by
  have count : (oldBuffer.getRow oldY).columnCount = oldBuffer.width := oldMaintained.widths _
  have rowKept : Kept (oldBuffer.getRow oldY) := oldMaintained.rows _
  have wide := oldMaintained.wide
  have rowLimit := old_row_limit_le oldBuffer oldMaintained oldY
  have inside := reflow_cursor_column oldMaintained.wide
  have touched := unlimited_touched oldY unlimited
  have oldSame : s.oldBuffer.SameRows oldBuffer := between.same.oldBuffer ▸ sameOld
  obtain ⟨reachedRow, looped, isEnd⟩ := reflow_row_loop single sameOld ended
  have going : Going tall width (oldBuffer.getRow oldY) base 0 { t with oldBuffer := t.oldBuffer.touchRow oldY } :=
    ⟨touched, by omega, by simp only; omega⟩
  have follows : Follows small tall width attributes oldBuffer.reflowCursor (oldBuffer.getRow oldY) base
      (t.wrapLine width).newY oldY (0, { s with oldBuffer := s.oldBuffer.touchRow oldY })
      (0, { t with oldBuffer := t.oldBuffer.touchRow oldY }) :=
    ⟨rfl, ⟨visited, matches_touch between.same⟩, going, ⟨fun higher => between.above (Int.le_of_lt higher),
      fun isRow _ => .inl (between.above (Int.le_of_eq isRow)), fun passed => between.below (by rw [Passed] at passed; omega),
      between.least, between.cursor⟩, before, by rw [wrap_line_touched]⟩
  have rowEnds {last : Reflowing} (finished : runLoop (copyStep env oldBuffer.reflowCursor width small
      (oldBuffer.getRow oldY) oldY (oldRowLimit oldBuffer.reflowCursor (oldBuffer.getRow oldY) oldY)) fuel
        (0, { s with oldBuffer := s.oldBuffer.touchRow oldY }) = some (some last)) :
      s.reflowRow env oldBuffer.reflowCursor width small fuel oldY = some (some (last.endRow (oldBuffer.getRow oldY))) := by
    rw [reflowRow, same_rows_get s.oldBuffer oldBuffer oldSame oldY, if_neg (not_not.mpr (single oldY)), finished]
    rfl
  rcases copy_loop_follows low double narrow bounded env rowKept rowLimit base (by omega) follows looped with
    ⟨left, oldX, last, reachedAt, goingOn, stops, further, finished⟩ | ⟨last, finished, copied⟩
  · refine ⟨_, rowEnds finished, .inr ?_⟩
    have belowRow := goingOn.started.2
    have reachedRows := goingOn.reached
    obtain ⟨gone, extended, cursor, later⟩ := copy_loop_unlimited double narrow env oldBuffer.reflowCursor rowKept oldY
      rowLimit base (by omega) goingOn further
    obtain ⟨_, _, sinceStart, started⟩ := copy_loop_unlimited double narrow env oldBuffer.reflowCursor rowKept oldY
      rowLimit base (by omega) going looped
    obtain ⟨_, _, ends, sameCursor, longer⟩ := end_row_unlimited gone
    rw [isEnd] at ends sameCursor longer
    rw [wrap_line_touched] at started
    have startY := (wrap_line_unlimited unlimited (by omega)).2.newY
    have sameY := stops.same.newY
    have higher := extended.newY
    have atLimit := stops.atLimit
    rcases stops.place with ⟨passed, limit⟩ | ⟨one, isRow, early, below⟩
    · have lastCursor : final.newCursorPos = last.newCursorPos := by
        rw [sameCursor, cursor passed, stops.same.cursor, wrap_line_cursor]
      have wraps : (oldBuffer.getRow oldY).wrapForced = true := by
        rcases longer with wraps | longer
        · exact wraps
        have cursorRow : oldBuffer.reflowCursor.y ≤ oldY := by
          rw [Passed] at passed
          omega
        refine fits.2 cursorRow ?_ (by rw [lastCursor]; omega)
        by_cases isRow : oldY = oldBuffer.reflowCursor.y
        · have placed := started isRow inside.1
          rw [sameCursor]
          omega
        · have startCursor : final.newCursorPos = s.newCursorPos := by
            rw [sameCursor, sinceStart (.inl (by omega)), between.same.cursor]
          have startLimit := between.below (by omega)
          have startSame := between.same.newY
          rw [startCursor]
          omega
      have stays : last.endRow (oldBuffer.getRow oldY) = last := if_pos wraps
      have lastPlace := stops.cursor
      rw [stays]
      rw [Passed] at passed
      refine ⟨by omega, _, extends_trans extended ends, by rw [lastCursor, stops.same.cursor], ?_, atLimit⟩
      exact ⟨stops.same, by omega, fun _ => limit, by omega, by omega, .inr ⟨rfl, atLimit⟩, fun _ => lastPlace.2⟩
    · have placed := later isRow early
      have first := fits.1 one isRow
      rw [sameCursor] at first
      omega
  · exact ⟨_, rowEnds finished, .inl (isEnd ▸ end_row_follows low (by omega) narrow (by omega) copied)⟩

end Reflowing

end Cogterm.Buffer
