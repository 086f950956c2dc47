import Cogterm.TextBuffer.ReflowFollows

namespace Cogterm.Buffer

open Library Til Glyphs Function Int

def Row.Blank (attributes : TextAttribute) (row : Row TextAttribute) : Prop :=
  ∃ attr, row = (Row.construct row.columnCount attributes).withAttr attr

variable {attr : Rle TextAttribute}

theorem construct_blank : ((Row.construct width attributes).withAttr attr).Blank attributes := ⟨attr, rfl⟩

theorem with_attr_blank {row : Row TextAttribute} (blank : row.Blank attributes) : (row.withAttr attr).Blank attributes := by
  obtain ⟨before, isBlank⟩ := blank
  have both := congrArg (Row.withAttr attr) isBlank
  exact ⟨attr, both⟩

namespace Reflowing

-- The last rows before the place at hand are those of the whole.
structure Covers (small : Nat) (attributes : TextAttribute) (s final : Reflowing) : Prop where
  firstRow : s.newBuffer.firstRow = 0
  height : s.newBuffer.height = small
  newY : s.newY = final.newY ∨ (small ≤ s.newY ∧ s.newY ≤ final.newY)
  rows : ∀ row : Nat, s.newY ≤ row + small → row < s.newY → s.newBuffer.rows (row % small) = final.newBuffer.rows row
  blank : ∀ row : Nat, s.newY ≤ row → row < small → (s.newBuffer.rows row).Blank attributes
  cursor : s.newCursorPos = final.newCursorPos
  inside : 0 ≤ s.newCursorPos.y ∧ s.newCursorPos.y < s.newY ∧ s.newY ≤ s.newCursorPos.y + small

variable {t final : Reflowing} {count : Nat} {lastY : Int}

section

variable {small tall width : Nat} {attributes : TextAttribute} {s : Reflowing}

theorem matches_covers (same : Matches small tall width attributes false s t)
    (extended : Extends t final) (newY : s.newY = final.newY ∨ small ≤ s.newY) (cursor : final.newCursorPos = t.newCursorPos)
    (inside : 0 ≤ s.newCursorPos.y ∧ s.newCursorPos.y < s.newY ∧ s.newY ≤ s.newCursorPos.y + small) :
    Covers small attributes s final := by
  have sameY := same.newY
  have grows := extended.newY
  refine ⟨same.smallFirst, same.smallHeight, by omega, fun row near above => ?_, fun row below inside => ?_, ?_, inside⟩
  · rw [extended.rows row (by omega)]
    by_cases oldest : t.newY = row + small
    · exact (same.oldest rfl).2 row oldest
    · exact same.rows row (by omega) (by omega)
  · have equal := same.rows row (by omega) (by omega)
    rw [Nat.mod_eq_of_lt inside] at equal
    rw [equal]
    by_cases here : t.newY = row
    · obtain ⟨attr, _, _, isBlank⟩ := same.blank (same.oldest rfl).1 row here
      rw [isBlank]
      exact construct_blank
    · rw [same.fresh row (by omega)]
      exact construct_blank
  · rw [cursor, same.cursor]

omit attributes in
theorem fresh_line_extends (t : Reflowing) : Extends t t.freshLine ∧ t.freshLine.newCursorPos = t.newCursorPos := by
  rw [freshLine]
  split
  · exact ⟨⟨Int.le_of_lt (Int.lt_succ t.newY), fun _ _ => rfl⟩, rfl⟩
  · exact ⟨extends_refl, rfl⟩

variable (low : 0 < small) (double : 2 ≤ width) (narrow : width ≤ charOffsetsMask) (bounded : tall ≤ coordTypeMax)

variable {oldY : Int}

theorem matches_unvisited (same : Matches small tall width attributes true s t) (start : t.newX = 0) (room : t.newY < small) :
    Matches small tall width attributes false s t :=
  { same with
    rows := fun row near place => same.rows row near (by omega)
    oldest := fun _ => ⟨start, fun row isRow => by omega⟩ }

include low double narrow in
theorem between_covers (passed : oldCursorPos.y < oldY)
    (between : Between small tall width attributes oldCursorPos oldY visited s t)
    (shows : t.newX = 0 → visited = true → t.newCursorPos.y < t.newY ∧ t.newY < small) :
    Covers small attributes s.freshLine t.freshLine := by
  obtain ⟨same, _, below, _, cursor, line, behind⟩ := between
  have limit := below passed
  have sameX := same.newX
  have sameY := same.newY
  rw [freshLine, freshLine]
  by_cases start : t.newX = 0
  · rw [if_neg (by omega), if_neg (by omega)]
    cases visited with
    | true =>
      obtain ⟨earlier, room⟩ := shows start rfl
      rw [← same.cursor] at earlier
      exact matches_covers (matches_unvisited same start room) extends_refl (.inl sameY) rfl (by omega)
    | false =>
      have earlier := behind rfl
      exact matches_covers same extends_refl (.inl sameY) rfl (by omega)
  · have isVisited : visited = true := by
      cases visited with
      | true => rfl
      | false => exact absurd (same.oldest rfl).1 start
    rw [isVisited] at same line
    have before : s.newY < s.newYLimit := line.resolve_right (by simp)
    rw [if_pos (by omega), if_pos start]
    have moved := matches_newline (by omega) (by omega) narrow same
    refine matches_covers moved extends_refl (.inl moved.newY) rfl ?_
    simp only [newline]
    omega

-- The last old row has put text in the row it ended in, unless it ends its line, no row is lost by
-- it, or the limit is reached before.
def RowsFit (env : Environment) (fuel : Nat) (oldBuffer : TextBuffer) (width tall small : Nat) : Nat → Int → Reflowing →
    Prop
  | 0, _, _ => True
  | count + 1, oldY, t => ∀ next ∈ (t.reflowRow env oldBuffer.reflowCursor width tall fuel oldY).join,
    RowFits oldBuffer width small oldY t next ∧
      (count = 0 → (oldBuffer.getRow oldY).wrapForced = true → next.newX = 0 →
        (next.newCursorPos.y < next.newY ∧ next.newY < small) ∨ next.newCursorPos.y + small ≤ next.newY) ∧
      RowsFit env fuel oldBuffer width tall small count (oldY + 1) next

instance decidableRowsFit (env : Environment) (fuel : Nat) (oldBuffer : TextBuffer) (width tall small : Nat) :
    ∀ count oldY t, Decidable (RowsFit env fuel oldBuffer width tall small count oldY t)
  | 0, _, _ => isTrue trivial
  | count + 1, oldY, t =>
    have := decidableRowsFit env fuel oldBuffer width tall small count (oldY + 1)
    inferInstanceAs (Decidable (∀ next ∈ (t.reflowRow env oldBuffer.reflowCursor width tall fuel oldY).join, _ ∧ _ ∧ _))

variable {env : Environment} {oldBuffer : TextBuffer} (oldMaintained : Maintained oldBuffer)
  (single : ∀ y, (oldBuffer.getRow y).lineRendition = .singleWidth)

include low double narrow bounded oldMaintained single

variable {fuel : Nat} {base : Int}

omit low double narrow bounded oldMaintained single in
theorem reflow_rows_halted (halts : ¬ s.newY < s.newYLimit) :
    s.reflowRows env oldBuffer.reflowCursor width small fuel count oldY = some (some (oldY, s)) := by
  cases count with
  | zero => rfl
  | succ count => rw [reflowRows, if_neg halts]

omit bounded in
theorem reflow_rows_stopped (between : Between small tall width attributes oldBuffer.reflowCursor oldY visited s halted)
    (stopped : ¬ s.newY < s.newYLimit) (extended : Extends halted t) (sameCursor : t.newCursorPos = halted.newCursorPos)
    (passed : oldBuffer.reflowCursor.y < oldY) (unlimited : t.Unlimited tall width)
    (sameOld : t.oldBuffer.SameRows oldBuffer) (above : t.newY ≤ base) (enough : base + count * (oldBuffer.width + 1) ≤ tall)
    (ended : t.reflowRows env oldBuffer.reflowCursor width tall fuel count oldY = some (some (lastY, final))) :
    Covers small attributes s.freshLine final.freshLine := by
  obtain ⟨same, _, below, _, cursor, line, behind⟩ := between
  obtain ⟨fresh, atLimit⟩ := line.resolve_left stopped
  rw [fresh] at same
  have limit := below passed
  obtain ⟨_, _, later, keptCursor⟩ := reflow_rows_unlimited double narrow oldMaintained single oldY base t unlimited
    sameOld above enough ended
  obtain ⟨further, freshCursor⟩ := fresh_line_extends final
  have start : s.newX = 0 := same.newX.trans (same.oldest rfl).1
  rw [show s.freshLine = s by rw [freshLine, if_neg (not_not.mpr start)]]
  exact matches_covers same (extends_trans extended (extends_trans later further)) (.inr (by omega))
    (by rw [freshCursor, keptCursor passed, sameCursor]) (by omega)

theorem reflow_rows_follows (oldY base : Int) (visited : Bool) (s t : Reflowing)
    (between : Between small tall width attributes oldBuffer.reflowCursor oldY visited s t) (unlimited : t.Unlimited tall width)
    (sameOld : t.oldBuffer.SameRows oldBuffer) (reached : t.newY ≤ base)
    (enough : base + count * (oldBuffer.width + 1) ≤ tall) (copiesCursor : oldBuffer.reflowCursor.y < oldY + count)
    (shows : count = 0 → t.newX = 0 → visited = true → t.newCursorPos.y < t.newY ∧ t.newY < small)
    (fits : RowsFit env fuel oldBuffer width tall small count oldY t)
    (ended : t.reflowRows env oldBuffer.reflowCursor width tall fuel count oldY = some (some (lastY, final))) :
    ∃ reachedY last, s.reflowRows env oldBuffer.reflowCursor width small fuel count oldY = some (some (reachedY, last)) ∧
      last.oldBuffer.SameRows oldBuffer ∧ Covers small attributes last.freshLine final.freshLine := by
  induction count generalizing oldY base visited s t with
  | zero =>
    cases ended
    refine ⟨_, s, rfl, between.same.oldBuffer ▸ sameOld, ?_⟩
    exact between_covers low double narrow (by omega) between (shows rfl)
  | succ count ih =>
    have limit := unlimited.limit
    obtain ⟨rows, rest⟩ := rows_left count oldBuffer.width
    by_cases before : s.newY < s.newYLimit
    · obtain ⟨next, copied, ended⟩ := reflow_rows_next (by omega) ended
      obtain ⟨nextUnlimited, nextSame, _, bound, _⟩ := reflow_row_unlimited double narrow oldMaintained single unlimited
        sameOld reached (by omega) copied
      obtain ⟨rowFits, lastFits, nextFits⟩ := fits next (by rw [copied]; rfl)
      obtain ⟨last, taken, later | ⟨passed, stopped, extended, sameCursor, later, atLimit⟩⟩ :=
        reflow_row_follows low double
        narrow bounded oldMaintained single between before unlimited sameOld reached (by omega) copied rowFits
      · rw [reflowRows, if_pos before, taken]
        refine ih (oldY + 1) (base + oldBuffer.width + 1) _ last next later nextUnlimited nextSame bound (by omega) (by omega)
          (fun isZero start wraps => ?_) nextFits ended
        have lastLimit := later.below (by omega)
        have lastY := later.same.newY
        have lastCursor := later.same.cursor
        have lastBefore := later.line.resolve_right (fun both => by rw [wraps] at both; cases both.1)
        have room := lastFits isZero wraps start
        rw [lastCursor] at lastLimit
        omega
      · have lastOld := (reflow_row_shaped env oldBuffer oldMaintained narrow (by omega) between.same.smallShaped
          (between.same.oldBuffer ▸ sameOld) taken last rfl).2
        have halts : ¬ last.newY < last.newYLimit := by omega
        rw [reflowRows, if_pos before, taken]
        refine ⟨_, last, reflow_rows_halted halts, lastOld, ?_⟩
        exact reflow_rows_stopped low double narrow oldMaintained single later halts extended sameCursor (by omega)
          nextUnlimited nextSame bound (by omega) ended
    · have passed : oldBuffer.reflowCursor.y < oldY := by
        have above := between.above
        have atLimit := (between.line.resolve_left before).2
        have sameY := between.same.newY
        omega
      refine ⟨_, s, reflow_rows_halted before, between.same.oldBuffer ▸ sameOld, ?_⟩
      exact reflow_rows_stopped low double narrow oldMaintained single between before extends_refl rfl passed unlimited
        sameOld reached enough ended

end

variable {small width : Nat} {attributes : TextAttribute} (narrow : width ≤ charOffsetsMask) {oldBuffer : TextBuffer}
  (oldMaintained : Maintained oldBuffer)

include narrow oldMaintained

theorem copy_trailing_result (count : Nat) (oldY : Int) (s : Reflowing) (sameOld : s.oldBuffer.SameRows oldBuffer)
    (firstRow : s.newBuffer.firstRow = 0) (height : s.newBuffer.height = small) (positive : 0 ≤ s.newY)
    (fits : count = 0 ∨ s.newY + count ≤ small)
    (blank : ∀ row : Nat, s.newY ≤ row → row < small → (s.newBuffer.rows row).Blank attributes) :
    ∃ last, s.copyTrailingAttributes width count oldY = some last ∧ last.newY = s.newY + count ∧
    last.newCursorPos = s.newCursorPos ∧ last.newBuffer.firstRow = 0 ∧ last.newBuffer.height = small ∧
      (∀ row : Nat, (row < s.newY ∨ count = 0) → last.newBuffer.rows row = s.newBuffer.rows row) ∧
      ∀ row : Nat, s.newY ≤ row → row < small → (last.newBuffer.rows row).Blank attributes := by
  induction count generalizing oldY s with
  | zero => exact ⟨s, rfl, by omega, rfl, firstRow, height, fun _ _ => rfl, blank⟩
  | succ count ih =>
    have mask : charOffsetsMask = 32767 := rfl
    have oldKept : Kept (oldBuffer.getRow oldY) := oldMaintained.rows _
    have oldCount : (oldBuffer.getRow oldY).columnCount = oldBuffer.width := oldMaintained.widths _
    have total := oldKept.total
    have wide := oldMaintained.wide
    obtain ⟨attr, resized, _⟩ := resize_leads oldKept.wellFormed (by omega) width (by omega)
    obtain ⟨index, isIndex⟩ := eq_ofNat_of_zero_le positive
    have stored : s.newBuffer.storageIndex s.newY = index := by
      rw [isIndex, storage_index_start firstRow, Nat.mod_eq_of_lt (by omega)]
    obtain ⟨next, isNext⟩ : ∃ next : Reflowing, next = { s with
          oldBuffer := s.oldBuffer.touchRow oldY
          newBuffer := s.newBuffer.setRow s.newY { s.newBuffer.getRow s.newY with attr := attr }
          newY := s.newY + 1 } := ⟨_, rfl⟩
    have nextRows : ∀ row, next.newBuffer.rows row =
        update s.newBuffer.rows index { s.newBuffer.rows index with attr := attr } row := by
      intro row
      rw [isNext, ← stored]
      rfl
    have nextY : next.newY = s.newY + 1 := by rw [isNext]
    have here : (next.newBuffer.rows index).Blank attributes := by
      rw [nextRows, update_self]
      exact with_attr_blank (blank index (by omega) (by omega))
    obtain ⟨last, copied, lastY, cursor, lastFirst, lastHeight, keeps, stays⟩ := ih (oldY + 1) next
      (by rw [isNext]; exact same_rows_touch sameOld oldY) (by rw [isNext]; exact firstRow) (by rw [isNext]; exact height)
      (by omega) (by omega) (fun row below inside => by
        rw [nextRows, update_of_ne (by omega)]
        exact blank row (by omega) inside)
    refine ⟨last, ?_, by omega, by rw [cursor, isNext], lastFirst, lastHeight, fun row above => ?_,
      fun row below inside => ?_⟩
    · rw [copyTrailingAttributes, same_rows_get s.oldBuffer oldBuffer sameOld oldY, narrow_small width (by omega), resized]
      simp only
      rw [← isNext]
      exact copied
    · rw [keeps row (by omega), nextRows, update_of_ne (by omega)]
    · by_cases isHere : row = index
      · rw [keeps row (by omega), isHere]
        exact here
      · exact stays row (by omega) inside

omit narrow oldMaintained in
theorem cursor_remainder (cursor newY height : Int) (first : newY - height ≤ cursor) (last : cursor < newY) :
    (cursor - newY % height + height) % height = cursor - (newY - height) := by
  have remainder : newY % height = newY - height * (newY / height) := by
    have parts := mul_ediv_add_emod newY height
    omega
  have turned : cursor - newY % height + height = cursor - (newY - height) + height * (newY / height) := by omega
  rw [turned, add_mul_emod_self_left, emod_eq_of_lt (by omega) (by omega)]

end Reflowing

end Cogterm.Buffer
