import Cogterm.TextBuffer.ReflowSteps

namespace Cogterm.Buffer

open Library Til Glyphs Function Option Int Nat

theorem storage_index_start {buffer : TextBuffer} (start : buffer.firstRow = 0) (row : Nat) :
    buffer.storageIndex row = row % buffer.height := by
  simp [storage_index_nat, start]

theorem mod_apart {row other : Nat} (before : row < other) (near : other < row + height) : row % height ≠ other % height := by
  intro same
  have divides : other - row ≡ 0 [MOD height] := by
    have congruent : row + (other - row) ≡ row + 0 [MOD height] := by
      rw [Nat.add_sub_cancel' (Nat.le_of_lt before)]
      exact same.symm
    exact Nat.ModEq.add_left_cancel' row congruent
  have multiple := (modEq_zero_iff_dvd.mp divides)
  have large := le_of_dvd (by omega) multiple
  omega

namespace Reflowing

-- The same place in a buffer of few rows and in one that has all of them. The
-- row at hand is visited once something was copied to it.
structure Matches (small tall width : Nat) (attributes : TextAttribute) (visited : Bool) (s t : Reflowing) : Prop where
  newX : s.newX = t.newX
  newY : s.newY = t.newY
  oldBuffer : s.oldBuffer = t.oldBuffer
  cursor : s.newCursorPos = t.newCursorPos
  smallShaped : s.Shaped width
  tallShaped : t.Shaped width
  smallFirst : s.newBuffer.firstRow = 0
  smallHeight : s.newBuffer.height = small
  smallAttributes : s.newBuffer.initialAttributes = attributes
  tallFirst : t.newBuffer.firstRow = 0
  tallHeight : t.newBuffer.height = tall
  rows : ∀ row : Nat, t.newY < row + small → (row < t.newY ∨ (row = t.newY ∧ visited = true) ∨ row < small) →
    s.newBuffer.rows (row % small) = t.newBuffer.rows row
  oldest : visited = false → t.newX = 0 ∧ ∀ row : Nat, t.newY = row + small →
    s.newBuffer.rows (row % small) = t.newBuffer.rows row
  fresh : ∀ row : Nat, t.newY < row → t.newBuffer.rows row = Row.construct width attributes
  blank : t.newX = 0 → ∀ row : Nat, t.newY = row → ∃ attr, WellFormed 16 attr ∧ attr.total = width ∧
    t.newBuffer.rows row = (Row.construct width attributes).withAttr attr

variable {visited : Bool} {s t : Reflowing} {row : Row TextAttribute}

section

variable {small tall width : Nat} {attributes : TextAttribute} {index : Nat}

theorem matches_rows (same : Matches small tall width attributes visited s t) (isIndex : t.newY = index)
    (inside : index < tall) {other : Nat} (near : index < other + small) (place : other ≤ index ∨ other < small)
    (equal : other ≠ index → s.newBuffer.rows (other % small) = t.newBuffer.rows other) :
    (s.newBuffer.setRow s.newY row).rows (other % small) = (t.newBuffer.setRow t.newY row).rows other := by
  have storedSmall : s.newBuffer.storageIndex s.newY = index % small := by
    rw [same.newY, isIndex, storage_index_start same.smallFirst, same.smallHeight]
  have storedTall : t.newBuffer.storageIndex t.newY = index := by
    rw [isIndex, storage_index_start same.tallFirst, same.tallHeight, mod_eq_of_lt inside]
  show update s.newBuffer.rows (s.newBuffer.storageIndex s.newY) row (other % small) =
    update t.newBuffer.rows (t.newBuffer.storageIndex t.newY) row other
  rw [storedSmall, storedTall]
  by_cases here : other = index
  · simp [here]
  have apart : other % small ≠ index % small := by
    rcases lt_or_gt_of_ne here with before | behind
    · exact mod_apart before near
    · exact Ne.symm (mod_apart behind (by omega))
  rw [update_of_ne apart, update_of_ne here, equal here]

theorem matches_place (same : Matches small tall width attributes visited s t) (inside : t.newY < tall)
    (row : Row TextAttribute) (count : row.columnCount = width) (newX : Int) (bounds : 0 ≤ newX ∧ newX ≤ width)
    (position : Point)
    (blank : newX = 0 → ∃ attr, WellFormed 16 attr ∧ attr.total = width ∧
      row = (Row.construct width attributes).withAttr attr) :
    Matches small tall width attributes true (s.place row newX position) (t.place row newX position) := by
  obtain ⟨index, isIndex⟩ := eq_ofNat_of_zero_le same.tallShaped.newY
  have stored : t.newBuffer.storageIndex t.newY = index := by
    rw [isIndex, storage_index_start same.tallFirst, same.tallHeight, mod_eq_of_lt (by omega)]
  have smallShaped := shaped_set_row same.smallShaped s.newY count
  have tallShaped := shaped_set_row same.tallShaped t.newY count
  refine { same with
    newX := rfl, cursor := rfl, smallShaped := ⟨smallShaped.rows, bounds, smallShaped.newY⟩
    tallShaped := ⟨tallShaped.rows, bounds, tallShaped.newY⟩, rows := fun other near here => ?_, oldest := nofun
    fresh := fun other behind => ?_, blank := fun start other here => ?_ }
  · simp only [place] at near here
    refine matches_rows same isIndex (by omega) (by omega) (by omega) (fun apart => ?_)
    exact same.rows other near (by omega)
  · simp only [place] at behind
    show update t.newBuffer.rows (t.newBuffer.storageIndex t.newY) row other = _
    rw [update_of_ne (by omega), same.fresh other behind]
  · simp only [place] at start here
    show ∃ attr, _ ∧ _ ∧ update t.newBuffer.rows (t.newBuffer.storageIndex t.newY) row other = _
    have isOther : other = index := by omega
    rw [stored, isOther, update_self]
    exact blank start

omit small tall width attributes in
theorem same_view_trans (first : SameView s t) (second : SameView t u) : SameView s u := by
  obtain ⟨newX, newY, oldBuffer, cursor, rows, firstRow, height, initial⟩ := first
  obtain ⟨newX', newY', oldBuffer', cursor', rows', firstRow', height', initial'⟩ := second
  exact ⟨newX.trans newX', newY.trans newY', oldBuffer.trans oldBuffer', cursor.trans cursor', rows.trans rows',
    firstRow.trans firstRow', height.trans height', initial.trans initial'⟩

theorem matches_view (same : Matches small tall width attributes visited s t)
    (smallView : SameView s' s) (tallView : SameView t' t) : Matches small tall width attributes visited s' t' := by
  obtain ⟨smallX, smallY, smallOld, smallCursor, smallRows, smallFirst, smallHeight, smallAttributes⟩ := smallView
  obtain ⟨tallX, tallY, tallOld, tallCursor, tallRows, tallFirst, tallHeight, _⟩ := tallView
  obtain ⟨newX, newY, oldBuffer, cursor, smallShaped, tallShaped, isSmallFirst, isSmallHeight, isSmallAttributes, isTallFirst,
    isTallHeight, rows, oldest, fresh, blank⟩ := same
  refine ⟨by rw [smallX, tallX, newX], by rw [smallY, tallY, newY], by rw [smallOld, tallOld, oldBuffer],
    by rw [smallCursor, tallCursor, cursor], ⟨fun index => by rw [smallRows]; exact smallShaped.rows index,
      by rw [smallX]; exact smallShaped.newX, by rw [smallY]; exact smallShaped.newY⟩,
      ⟨fun index => by rw [tallRows]; exact tallShaped.rows index, by rw [tallX]; exact tallShaped.newX,
      by rw [tallY]; exact tallShaped.newY⟩, by rw [smallFirst, isSmallFirst], by rw [smallHeight, isSmallHeight],
    by rw [smallAttributes, isSmallAttributes], by
      rw [tallFirst, isTallFirst], by rw [tallHeight, isTallHeight], ?_, ?_, ?_, ?_⟩
  · rw [tallY, smallRows, tallRows]
    exact rows
  · rw [tallX, tallY, smallRows, tallRows]
    exact oldest
  · rw [tallY, tallRows]
    exact fresh
  · rw [tallX, tallY, tallRows]
    exact blank

theorem matches_touch (same : Matches small tall width attributes visited s t) :
    Matches small tall width attributes visited { s with oldBuffer := s.oldBuffer.touchRow y }
      { t with oldBuffer := t.oldBuffer.touchRow y } :=
  { same with
    oldBuffer := congrArg (fun buffer => buffer.touchRow y) same.oldBuffer
    smallShaped := { same.smallShaped with }
    tallShaped := { same.tallShaped with } }

theorem matches_visited (same : Matches small tall width attributes true s t) {row : Nat} (near : t.newY < row + small)
    (place : row ≤ t.newY ∨ row < small) : s.newBuffer.rows (row % small) = t.newBuffer.rows row := by
  refine same.rows row near ?_
  by_cases here : row = t.newY
  · exact .inr (.inl ⟨here, rfl⟩)
  · omega

theorem tall_row (same : Matches small tall width attributes visited s t) (isIndex : t.newY = index)
    (inside : t.newY < tall) : t.newBuffer.getRow t.newY = t.newBuffer.rows index := by
  rw [TextBuffer.getRow, isIndex, storage_index_start same.tallFirst, same.tallHeight, mod_eq_of_lt (by omega)]

theorem small_row (same : Matches small tall width attributes visited s t) (isIndex : t.newY = index) :
    s.newBuffer.getRow s.newY = s.newBuffer.rows (index % small) := by
  rw [TextBuffer.getRow, same.newY, isIndex, storage_index_start same.smallFirst, same.smallHeight]

theorem construct_formed (wide : 0 < width) (narrow : width ≤ charOffsetsMask) (attributes : TextAttribute) :
    WellFormed 16 (Row.construct width attributes).attr ∧ (Row.construct width attributes).attr.total = width := by
  have mask : charOffsetsMask = 32767 := rfl
  exact ⟨⟨canonical_singleton wide, by simp [Row.construct], by simp only [Row.construct]; omega⟩, rfl⟩

variable (low : 0 < small) (wide : 0 < width) (narrow : width ≤ charOffsetsMask)

include low wide narrow

theorem matches_newline {s t : Reflowing} (same : Matches small tall width attributes true s t) :
    Matches small tall width attributes false s.newline t.newline := by
  obtain ⟨formed, total⟩ := construct_formed wide narrow attributes
  refine { same with
    newX := rfl, newY := congrArg (· + 1) same.newY, smallShaped := shaped_newline same.smallShaped
    tallShaped := shaped_newline same.tallShaped, rows := fun row near place => ?_
    oldest := fun _ => ⟨rfl, fun row isRow => ?_⟩, fresh := fun row behind => ?_, blank := fun _ row isRow => ?_ }
  · simp only [newline, Bool.false_eq_true, and_false, false_or] at near place
    exact matches_visited same (by omega) (by omega)
  · simp only [newline] at isRow
    exact matches_visited same (by omega) (by omega)
  · simp only [newline] at behind
    exact same.fresh row (by omega)
  · simp only [newline] at isRow
    exact ⟨_, formed, total, same.fresh row (by omega)⟩

omit wide narrow in
theorem matches_get (same : Matches small tall width attributes true s t) (inside : t.newY < tall) :
    s.newBuffer.getRow s.newY = t.newBuffer.getRow t.newY := by
  obtain ⟨index, isIndex⟩ := eq_ofNat_of_zero_le same.tallShaped.newY
  rw [small_row same isIndex, tall_row same isIndex inside]
  exact matches_visited same (by omega) (by omega)

theorem wrap_line_matches (same : Matches small tall width attributes visited s t) (inside : t.newY < tall) :
    Matches small tall width attributes (visited && decide (t.newX < width)) (s.wrapLine width) (t.wrapLine width) := by
  have bounds := same.tallShaped.newX
  have sameX := same.newX
  rw [wrapLine, wrapLine]
  by_cases full : t.newX ≥ width
  · have isVisited : visited = true := by
      cases visited with
      | true => rfl
      | false =>
        have start := (same.oldest rfl).1
        omega
    rw [isVisited] at same
    have equal := matches_get low same inside
    rw [if_pos (by omega), if_pos full, decide_eq_false (by omega), Bool.and_false, equal]
    have set := matches_place same inside { t.newBuffer.getRow t.newY with wrapForced := true }
      (same.tallShaped.rows _) t.newX bounds t.newCursorPos (by omega)
    refine matches_newline low wide narrow (matches_view set ?_ ?_)
    · exact ⟨sameX, rfl, rfl, same.cursor, rfl, rfl, rfl, rfl⟩
    · exact ⟨rfl, rfl, rfl, rfl, rfl, rfl, rfl, rfl⟩
  · rw [if_neg (by omega), if_neg full, decide_eq_true (by omega), Bool.and_true]
    exact same

end

theorem reset_line_place (newHeight : Int) (s : Reflowing) (row : Row TextAttribute) (newX : Int) (position : Point) :
    SameView ((s.resetLine newHeight).place row newX position) (s.place row newX position) := by
  rw [resetLine]
  split
  · refine ⟨rfl, rfl, rfl, rfl, ?_, rfl, rfl, rfl⟩
    exact update_idem _ _ _
  · exact ⟨rfl, rfl, rfl, rfl, rfl, rfl, rfl, rfl⟩

def Alike (width : Nat) (attributes : TextAttribute) (newX : Int) (row other : Row TextAttribute) : Prop :=
  row = other ∨ (newX = 0 ∧ ∃ attr otherAttr, WellFormed 16 attr ∧ WellFormed 16 otherAttr ∧
    row = (Row.construct width attributes).withAttr attr ∧ other = (Row.construct width attributes).withAttr otherAttr)

theorem copies_alike {width : Nat} {attributes : TextAttribute} {newWidth oldRowLimit oldX newX : Int}
    {other oldRow : Row TextAttribute} (alike : Alike width attributes newX row other) (oldFormed : WellFormed 16 oldRow.attr)
    {result : Row TextAttribute} : Pieced env newWidth oldRow oldRowLimit oldX newX row state result ↔
      Pieced env newWidth oldRow oldRowLimit oldX newX other state result := by
  rcases alike with rfl | ⟨rfl, attr, otherAttr, formed, otherFormed, rfl, rfl⟩
  · rfl
  obtain ⟨sameState, sameRow⟩ := copy_text_with_attr env attr (Row.construct width attributes) oldRow
    ⟨0, coordTypeMax, oldX, oldRowLimit, 0, 0, 0, 0⟩
  obtain ⟨otherState, otherRow⟩ := copy_text_with_attr env otherAttr (Row.construct width attributes) oldRow
    ⟨0, coordTypeMax, oldX, oldRowLimit, 0, 0, 0, 0⟩
  have start (newRow : Row TextAttribute) := copy_attributes_start newWidth oldRow oldFormed oldX (newRow.withAttr otherAttr)
    otherFormed attr formed
  constructor
  · intro ⟨text, colors⟩
    rw [sameState] at text
    rw [sameRow state text] at colors
    exact ⟨otherState.trans text, by rw [otherRow state text, ← colors]; exact (start _).symm⟩
  · intro ⟨text, colors⟩
    rw [otherState] at text
    rw [otherRow state text] at colors
    exact ⟨sameState.trans text, by rw [sameRow state text, ← colors]; exact start _⟩

theorem copy_piece_cursor {oldCursorPos : Point} {newWidth newHeight : Int} {oldRow : Row TextAttribute}
    {oldY oldRowLimit oldX : Int} {next : Int × Reflowing}
    (copied : s.copyPiece env oldCursorPos newWidth newHeight oldRow oldY oldRowLimit oldX = some next) :
    next.2.newY = s.newY ∧ ((oldY = oldCursorPos.y ∧ oldCursorPos.x ≥ oldX ∧ next.2.newCursorPos.y = s.newY ∧
        next.2.newYLimit = s.newY + newHeight) ∨
      (¬ (oldY = oldCursorPos.y ∧ oldCursorPos.x ≥ oldX) ∧ next.2.newCursorPos = s.newCursorPos ∧
        next.2.newYLimit = s.newYLimit)) := by
  obtain ⟨state, row, _, _, ⟨⟨_, sameY, _, cursor, _⟩, _, limit⟩⟩ := copy_piece_cases copied
  refine ⟨sameY, ?_⟩
  rw [cursor, limit]
  by_cases here : oldY = oldCursorPos.y ∧ oldCursorPos.x ≥ oldX
  · refine .inl ⟨here.1, here.2, ?_, if_pos here⟩
    show (s.cursorAt oldCursorPos oldY oldX row).y = s.newY
    rw [cursorAt, if_pos here]
  · refine .inr ⟨here, ?_, if_neg here⟩
    show s.cursorAt oldCursorPos oldY oldX row = s.newCursorPos
    rw [cursorAt, if_neg here]

theorem copy_piece_placed (wide : 0 < width) (narrow : width ≤ charOffsetsMask) (env : Environment)
    (oldRow : Row TextAttribute) (kept : Kept oldRow) (oldRowLimit : Int) (limited : oldRowLimit ≤ oldRow.columnCount)
    (oldX : Nat)
    (started : oldX < oldRow.columnCount) (target : Row TextAttribute) (count : target.columnCount = width) (newX : Int)
    (room : 0 ≤ newX ∧ newX < width) (pieced : Pieced env width oldRow oldRowLimit oldX newX target state row) :
    (0 ≤ state.columnEnd ∧ state.columnEnd ≤ width) ∧ row.columnCount = width ∧
      (state.columnEnd = 0 → newX = 0 ∧ (WellFormed 16 target.attr → target.attr.total = width →
        ∃ attr, WellFormed 16 attr ∧ attr.total = width ∧ row = target.withAttr attr)) := by
  obtain ⟨glyphs, models⟩ := kept.sound.stored
  have columns := piece_columns env narrow models limited (by omega) count (by omega) pieced.text
  obtain ⟨range, _⟩ := copy_columns_step (by omega) (by omega) columns
  refine ⟨range, (pieced_count pieced).trans count, fun start => ?_⟩
  obtain ⟨isStart, stays⟩ := copy_columns_start columns start
  have zero : newX = 0 := by omega
  refine ⟨zero, fun formed total => ?_⟩
  have oldNarrow := kept.sound.narrow
  have oldTotal := kept.total
  have colored := pieced.attributes
  rw [piece_stays env narrow models limited (by omega) count (by omega) stays, zero] at colored
  obtain ⟨result, isResult, resultFormed, resultTotal, _⟩ := copy_attributes_result wide narrow kept.wellFormed
    (by omega) formed total oldX 0 (by omega) (by omega)
  rw [Int.natCast_zero, colored] at isResult
  cases isResult
  exact ⟨result, resultFormed, resultTotal, rfl⟩

variable {small tall width : Nat} (low : 0 < small) (wide : 0 < width) (narrow : width ≤ charOffsetsMask)
  {attributes : TextAttribute}

include low wide narrow

theorem reset_line_alike (same : Matches small tall width attributes visited s t) (inside : t.newY < tall) :
    Alike width attributes t.newX ((s.resetLine small).newBuffer.getRow s.newY) (t.newBuffer.getRow t.newY) := by
  obtain ⟨index, isIndex⟩ := eq_ofNat_of_zero_le same.tallShaped.newY
  have sameX := same.newX
  have sameY := same.newY
  rw [resetLine]
  by_cases resets : s.newY ≥ small ∧ s.newX = 0
  · obtain ⟨formed, _⟩ := construct_formed wide narrow attributes
    obtain ⟨attr, attrFormed, _, isRow⟩ := same.blank (by omega) index isIndex
    refine .inr ⟨by omega, _, attr, formed, attrFormed, ?_, ?_⟩
    · rw [if_pos resets, get_set_row, same.smallAttributes]
      exact reset_construct (same.smallShaped.rows _)
    · rw [tall_row same isIndex inside, isRow]
  · rw [if_neg resets]
    refine .inl ?_
    rw [small_row same isIndex, tall_row same isIndex inside]
    refine same.rows index (by omega) ?_
    cases visited with
    | true => exact .inr (.inl ⟨isIndex.symm, rfl⟩)
    | false =>
      have start := (same.oldest rfl).1
      exact .inr (.inr (by omega))

variable (env : Environment) (oldCursorPos : Point) (oldRow : Row TextAttribute) (kept : Kept oldRow) (oldY oldRowLimit : Int)
  (limited : oldRowLimit ≤ oldRow.columnCount)

include kept limited

theorem copy_piece_matches (oldX : Nat) (started : oldX < oldRow.columnCount)
    (same : Matches small tall width attributes visited s t) (inside : t.newY < tall) (room : t.newX < width) :
    ((s.resetLine small).copyPiece env oldCursorPos width small oldRow oldY oldRowLimit oldX = none ∧
        t.copyPiece env oldCursorPos width tall oldRow oldY oldRowLimit oldX = none) ∨
      ∃ oldEnd next other, (s.resetLine small).copyPiece env oldCursorPos width small oldRow oldY oldRowLimit oldX =
        some (oldEnd, next) ∧ t.copyPiece env oldCursorPos width tall oldRow oldY oldRowLimit oldX = some (oldEnd, other) ∧
        Matches small tall width attributes true next other := by
  have alike := reset_line_alike low wide narrow same inside
  obtain ⟨_, readyX, readyY, _, _⟩ := reset_line_frame (small : Int) s same.smallShaped
  rw [← readyY] at alike
  have sameX := readyX.trans same.newX
  cases copied : t.copyPiece env oldCursorPos width tall oldRow oldY oldRowLimit oldX with
  | none =>
    refine .inl ⟨?_, rfl⟩
    cases small : (s.resetLine small).copyPiece env oldCursorPos width small oldRow oldY oldRowLimit oldX with
    | none => rfl
    | some next =>
      obtain ⟨state, row, pieced, _⟩ := copy_piece_cases small
      rw [sameX, copies_alike alike kept.wellFormed] at pieced
      obtain ⟨other, isOther, _⟩ := copy_piece_some oldCursorPos tall oldY pieced
      cases copied.symm.trans isOther
  | some after =>
    obtain ⟨state, row, pieced, isEnd, ends⟩ := copy_piece_cases copied
    have readied := (copies_alike alike kept.wellFormed).mpr pieced
    rw [← sameX] at readied
    obtain ⟨next, isNext, nextEnds⟩ := copy_piece_some oldCursorPos small oldY readied
    have nextView := nextEnds.view
    have samePosition : (s.resetLine small).cursorAt oldCursorPos oldY oldX row = t.cursorAt oldCursorPos oldY oldX row := by
      simp [cursorAt, readyX, readyY, reset_line_cursor, same.newX, same.newY, same.cursor]
    rw [samePosition] at nextView
    refine .inr ⟨_, next, after.2, isNext, by rw [← isEnd], ?_⟩
    obtain ⟨range, count, blank⟩ := copy_piece_placed wide narrow env oldRow kept oldRowLimit limited oldX started
      (t.newBuffer.getRow t.newY) (same.tallShaped.rows _) t.newX ⟨same.tallShaped.newX.1, room⟩ pieced
    have placed := matches_place same inside row count state.columnEnd range (t.cursorAt oldCursorPos oldY oldX row) ?_
    · refine matches_view placed ?_ ends.view
      exact same_view_trans nextView (reset_line_place small s row state.columnEnd _)
    · intro start
      obtain ⟨zero, leaves⟩ := blank start
      obtain ⟨index, isIndex⟩ := eq_ofNat_of_zero_le same.tallShaped.newY
      obtain ⟨attr, formed, total, isBlank⟩ := same.blank zero index isIndex
      rw [tall_row same isIndex inside, isBlank] at leaves
      exact leaves formed total

end Reflowing

end Cogterm.Buffer
