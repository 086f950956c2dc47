import Cogterm.Row.Lines
import Cogterm.TextBuffer.Attributes
import Cogterm.Types.Viewport

namespace Cogterm.Types.Viewport

open Buffer

-- operator++ of a TextBufferCellIterator, which stays where it is once it has exceeded its bounds.
def nextCell (view : Viewport) (pos : Point) : Point × Bool :=
  if pos.x = view.right then
    if pos.y + 1 > view.bottom then (pos, true) else (⟨view.left, pos.y + 1⟩, false)
  else (⟨pos.x + 1, pos.y⟩, false)

end Cogterm.Types.Viewport

namespace Cogterm.Buffer

open Cogterm.Types

instance : LE Point := ⟨fun first second => first.y < second.y ∨ (first.y = second.y ∧ first.x ≤ second.x)⟩

instance (first second : Point) : Decidable (first ≤ second) :=
  inferInstanceAs (Decidable (first.y < second.y ∨ (first.y = second.y ∧ first.x ≤ second.x)))

namespace TextBuffer

variable (buffer : TextBuffer)

def getSize : Viewport := Viewport.fromDimensions ⟨0, 0⟩ buffer.width buffer.height

def dbcsAttrAt (pos : Point) : DbcsAttribute := (buffer.getRow pos.y).dbcsAttrAt pos.x

-- Nothing comes out if GetCellDataAt throws.
def moveToNextGlyph (pos : Point) (allowExclusiveEnd : Bool) (limitOptional : Option Point) : Option (Point × Bool) :=
  let limit := limitOptional.getD buffer.getSize.endExclusive
  let distanceToLimit := buffer.getSize.compareInBounds pos limit
  if distanceToLimit ≥ 0 then some (limit, false)
  else if !allowExclusiveEnd && distanceToLimit = -1 then some (pos, false)
  else if buffer.getSize.isInBounds pos then
    let iter := buffer.getSize.nextCell pos
    let success := !iter.2 && buffer.getSize.isInBounds iter.1
    some (if success && buffer.dbcsAttrAt iter.1 = .trailing then (buffer.getSize.nextCell iter.1).1 else iter.1, success)
  else none

def moveToPreviousGlyph (pos : Point) (limitOptional : Option Point) : Option (Point × Bool) :=
  let limit := limitOptional.getD buffer.getSize.endExclusive
  if buffer.getSize.compareInBounds pos limit > 0 then some (limit, true)
  else
    let moved := buffer.getSize.walkToEndExclusive pos (-1)
    if moved.1 = buffer.getSize.endExclusive then some moved
    else if buffer.getSize.isInBounds moved.1 then
      some (if buffer.dbcsAttrAt moved.1 = .leading then (buffer.getSize.walkToEndExclusive moved.1 (-1)).1 else moved.1, moved.2)
    else none

def moveGlyph2 (delta : Int) (pos : Point) (limitOptional : Option Point) : Point × Bool :=
  let limit := limitOptional.getD buffer.getSize.bottomInclusiveRightExclusive
  if limit ≤ pos then (limit, false)
  else
    let moved := buffer.getSize.walkInExclusiveBounds pos delta
    if moved.2 && buffer.getSize.isInBounds moved.1 && buffer.dbcsAttrAt moved.1 = .trailing then
      ((buffer.getSize.walkInExclusiveBounds moved.1 delta).1, moved.2)
    else moved

def moveToNextGlyph2 : Point → Option Point → Point × Bool := buffer.moveGlyph2 1
def moveToPreviousGlyph2 : Point → Option Point → Point × Bool := buffer.moveGlyph2 (-1)

end TextBuffer

open TextBuffer

section

variable (buffer : TextBuffer) (maintained : Maintained buffer)

theorem size_contains (pos : Point) :
    buffer.getSize.Contains pos ↔ 0 ≤ pos.x ∧ pos.x < buffer.width ∧ 0 ≤ pos.y ∧ pos.y < buffer.height := by
  simp only [getSize, Viewport.fromDimensions, Viewport.Contains]
  omega

theorem size_width : buffer.getSize.width = buffer.width ∧ buffer.getSize.height = buffer.height := by
  simp only [getSize, Viewport.fromDimensions, Viewport.width, Viewport.height]
  omega

theorem walk_row (below : y < buffer.height) (column other : Nat) (delta : Int) (isDelta : column + delta = other)
    (within : other ≤ buffer.width) : buffer.getSize.walkInExclusiveBounds ⟨column, y⟩ delta = (⟨other, y⟩, true) := by
  have isWidth : max 0 (buffer.getSize.right - buffer.getSize.left + 2) = (buffer.width : Int) + 1 := by
    simp only [getSize, Viewport.fromDimensions]
    omega
  have rows := Int.mul_le_mul_of_nonneg_left (show (y : Int) + 1 ≤ buffer.height by omega)
    (show 0 ≤ (buffer.width : Int) + 1 by omega)
  rw [Int.mul_add] at rows
  have left : buffer.getSize.left = 0 := rfl
  have top : buffer.getSize.top = 0 := rfl
  rw [Viewport.walkInExclusiveBounds, isWidth, (size_width buffer).2]
  apply walk_reaches <;> simp only [top, Int.sub_zero] <;> omega

include maintained

theorem row_edges (y : Int) :
    (buffer.getRow y).uncheckedIsTrailer 0 = false ∧ (buffer.getRow y).uncheckedIsTrailer buffer.width = false := by
  obtain ⟨glyphs, models⟩ := (maintained.rows (buffer.storageIndex y)).sound.stored
  have first := (boundary_entry _ glyphs models [] glyphs rfl).1
  have last := (boundary_entry _ glyphs models glyphs [] (List.append_nil glyphs).symm).1
  rw [models.columns, maintained.widths] at last
  exact ⟨first, last⟩

theorem dbcs_attr_at (x : Nat) (y : Int) (inside : x < buffer.width) :
    buffer.dbcsAttrAt ⟨x, y⟩ = if (buffer.getRow y).uncheckedIsTrailer x then .trailing
      else if (buffer.getRow y).uncheckedIsTrailer (x + 1) then .leading else .single := by
  rw [dbcsAttrAt, Row.dbcsAttrAt, clamped_column (by rw [getRow, maintained.widths]; exact inside)]

variable {x : Nat} {y : Int} (inside : x < buffer.width) (first : buffer.dbcsAttrAt ⟨x, y⟩ ≠ .trailing)

include inside first

theorem wide_glyph_iff :
    buffer.dbcsAttrAt ⟨x, y⟩ = .leading ↔ x + 1 < buffer.width ∧
    buffer.dbcsAttrAt ⟨(x : Int) + 1, y⟩ = .trailing := by
  have isFirst := dbcs_attr_at buffer maintained x y inside
  have notTrailer : (buffer.getRow y).uncheckedIsTrailer x = false := by
    by_contra trailer
    exact first (isFirst.trans (if_pos (by simpa using trailer)))
  rw [isFirst, notTrailer]
  by_cases last : x + 1 = buffer.width
  · rw [last, (row_edges buffer maintained y).2]
    simp
  have next := dbcs_attr_at buffer maintained (x + 1) y (by omega)
  rw [Int.natCast_add, Int.natCast_one] at next
  rw [next]
  cases (buffer.getRow y).uncheckedIsTrailer (x + 1) with
  | false => simp; split <;> simp
  | true => simp; omega

end

section

variable (buffer : TextBuffer) (maintained : Maintained buffer) (x y : Nat) (inside : x < buffer.width)
  (below : y < buffer.height)

theorem compare_offsets (first second : Point) :
    buffer.getSize.compareInBounds first second = buffer.width * first.y + first.x - (buffer.width * second.y + second.x) := by
  rw [Viewport.compareInBounds, (size_width buffer).1, Int.sub_mul, Int.mul_comm first.y, Int.mul_comm second.y]
  omega

include inside below

theorem offset_limited : (buffer.width : Int) * y + x + 1 ≤ buffer.width * buffer.height := by
  have rows := Int.mul_le_mul_of_nonneg_left (show (y : Int) + 1 ≤ buffer.height by omega) (Int.natCast_nonneg buffer.width)
  rw [Int.mul_add] at rows
  omega

theorem walk_back (pos : Point) (isNext : buffer.width * pos.y + pos.x = buffer.width * y + x + 1) :
    buffer.getSize.walkToEndExclusive pos (-1) = (⟨x, y⟩, true) := by
  obtain ⟨width, height⟩ := size_width buffer
  have limited := offset_limited buffer x y inside below
  have left : buffer.getSize.left = 0 := rfl
  have top : buffer.getSize.top = 0 := rfl
  rw [Viewport.walkToEndExclusive, width, height]
  apply walk_reaches <;> simp only [top, Int.sub_zero] <;> omega

variable {limitOptional : Option Point}

theorem previous_glyph {pos : Point} (isNext : buffer.width * pos.y + pos.x = buffer.width * y + x + 1)
    (near : buffer.getSize.compareInBounds pos (limitOptional.getD buffer.getSize.endExclusive) ≤ 0) :
    buffer.moveToPreviousGlyph pos limitOptional =
      some (if buffer.dbcsAttrAt ⟨x, y⟩ = .leading then (buffer.getSize.walkToEndExclusive ⟨x, y⟩ (-1)).1
        else ⟨x, y⟩, true) := by
  have moved := walk_back buffer x y inside below pos isNext
  have within : buffer.getSize.isInBounds ⟨x, y⟩ = true := by
    rw [Viewport.isInBounds, decide_eq_true_eq, size_contains]
    simp only
    omega
  have notEnd : (⟨x, y⟩ : Point) ≠ buffer.getSize.endExclusive := by
    simp only [getSize, Viewport.fromDimensions, Viewport.endExclusive, ne_eq, Point.mk.injEq]
    omega
  simp [moveToPreviousGlyph, moved, if_neg (Int.not_lt.mpr near), if_neg notEnd, within]

variable (first : buffer.dbcsAttrAt ⟨x, y⟩ ≠ .trailing)

include maintained first

variable {allowExclusiveEnd : Bool} {result : Point}

-- Behind a wide glyph at the end of the buffer there is no cell to go to, and the
-- iterator stays on its second half.
theorem next_glyph (moved : buffer.moveToNextGlyph ⟨x, y⟩ allowExclusiveEnd limitOptional = some (result, true)) :
    buffer.getSize.compareInBounds ⟨x, y⟩ (limitOptional.getD buffer.getSize.endExclusive) < 0 ∧
      (buffer.dbcsAttrAt ⟨x, y⟩ ≠ .leading ∧ buffer.width * result.y + result.x = buffer.width * y + x + 1 ∨
        buffer.dbcsAttrAt ⟨x, y⟩ = .leading ∧ x + 1 < buffer.width ∧
          if x + 2 = buffer.width ∧ y + 1 = buffer.height then result = ⟨(x : Int) + 1, y⟩
          else buffer.width * result.y + result.x = buffer.width * y + x + 2) := by
  have wide := wide_glyph_iff buffer maintained inside first
  have right : buffer.getSize.right = buffer.width - 1 := by simp [getSize, Viewport.fromDimensions]
  have bottom : buffer.getSize.bottom = buffer.height - 1 := by simp [getSize, Viewport.fromDimensions]
  have left : buffer.getSize.left = 0 := rfl
  have nextRow : (buffer.width : Int) * (y + 1) = buffer.width * y + buffer.width := by simp [Int.mul_add]
  rw [moveToNextGlyph] at moved
  split at moved
  · simp at moved
  rename_i before
  split at moved
  · simp at moved
  split at moved
  · refine ⟨Int.not_le.mp before, ?_⟩
    simp only [Option.some.injEq, Prod.mk.injEq] at moved
    obtain ⟨isResult, succeeds⟩ := moved
    rw [succeeds] at isResult
    by_cases last : (x : Int) = buffer.width - 1
    · have narrow : buffer.dbcsAttrAt ⟨x, y⟩ ≠ .leading := fun leading => by
        have two := (wide.mp leading).1
        omega
      by_cases past : (y : Int) + 1 > buffer.height - 1
      · simp [Viewport.nextCell, right, bottom, last, past] at succeeds
      have notTrailing : buffer.dbcsAttrAt ⟨0, y + 1⟩ ≠ .trailing := by
        have isFirst := dbcs_attr_at buffer maintained 0 (y + 1) maintained.wide
        rw [(row_edges buffer maintained (y + 1)).1] at isFirst
        rw [Int.natCast_zero] at isFirst
        rw [isFirst]
        simp only [Bool.false_eq_true, if_false]
        split <;> simp
      simp only [Viewport.nextCell, right, bottom, left, if_pos last, if_neg past, Bool.true_and, decide_eq_true_eq,
        if_neg notTrailing] at isResult
      rw [← isResult]
      exact .inl ⟨narrow, by simp only; omega⟩
    · simp only [Viewport.nextCell, right, if_neg last, Bool.true_and, decide_eq_true_eq] at isResult
      by_cases trailing : buffer.dbcsAttrAt ⟨(x : Int) + 1, y⟩ = .trailing
      · refine .inr ⟨wide.mpr ⟨by omega, trailing⟩, by omega, ?_⟩
        rw [if_pos trailing] at isResult
        rw [← isResult]
        by_cases ends : x + 2 = buffer.width ∧ y + 1 = buffer.height
        · rw [if_pos ends, if_pos (by omega), if_pos (by omega)]
        rw [if_neg ends]
        split
        · rw [if_neg (by omega)]
          simp only
          omega
        · simp only
          omega
      · rw [if_neg trailing] at isResult
        rw [← isResult]
        exact .inl ⟨fun leading => trailing (wide.mp leading).2, by simp only; omega⟩
  · simp at moved

theorem next_previous_iff (moved : buffer.moveToNextGlyph ⟨x, y⟩ allowExclusiveEnd limitOptional = some (result, true)) :
    buffer.moveToPreviousGlyph result limitOptional = some (⟨x, y⟩, true) ↔
      buffer.dbcsAttrAt ⟨x, y⟩ ≠ .leading ∨ (x = 0 ∧ y = 0 ∧ buffer.width = 2 ∧ buffer.height = 1) := by
  obtain ⟨before, narrow | ⟨leading, room, behind⟩⟩ :=
    next_glyph buffer maintained x y inside below first moved
  · have near := compare_offsets buffer result (limitOptional.getD buffer.getSize.endExclusive)
    rw [compare_offsets buffer] at before
    rw [previous_glyph buffer x y inside below narrow.2 (by simp only at before; omega)]
    simp [narrow.1]
  · have trailing := ((wide_glyph_iff buffer maintained inside first).mp leading).2
    rw [compare_offsets buffer] at before
    simp only at before
    split at behind
    · rename_i ends
      rw [behind, previous_glyph buffer x y inside below (by simp only; omega)
        (by rw [compare_offsets buffer]; simp only; omega), if_pos leading, or_iff_right (not_not.mpr leading)]
      cases x with
      | zero =>
        cases y with
        | zero =>
          have isSize : buffer.getSize = ⟨0, 0, 1, 0⟩ := by
            simp only [getSize, ← ends.1, ← ends.2]
            rfl
          refine iff_of_true ?_ ⟨rfl, rfl, ends.1.symm, ends.2.symm⟩
          rw [isSize]
          decide
        | succ y =>
          have nextRow : (buffer.width : Int) * (y + 1) = buffer.width * y + buffer.width := by simp [Int.mul_add]
          rw [walk_back buffer 1 y (by omega) (by omega) _ (by simp only [Int.natCast_add, Int.natCast_one]; omega)]
          simp
      | succ x =>
        rw [walk_back buffer x y (by omega) below _ (by simp only; omega)]
        simp only [Option.some.injEq, Prod.mk.injEq, Point.mk.injEq]
        omega
    · rename_i further
      refine iff_of_false ?_ (by rw [not_or]; exact ⟨not_not.mpr leading, by omega⟩)
      by_cases past : buffer.getSize.compareInBounds result (limitOptional.getD buffer.getSize.endExclusive) > 0
      · intro same
        rw [moveToPreviousGlyph] at same
        simp only [if_pos past, Option.some.injEq, Prod.mk.injEq, and_true] at same
        rw [same] at before
        simp only at before
        omega
      · simp [previous_glyph buffer (x + 1) y room below (by omega) (Int.not_lt.mp past), trailing]

theorem glyph_moves2 (limitOptional : Option Point)
    (isBehind : behind = x + if buffer.dbcsAttrAt ⟨x, y⟩ = .leading then 2 else 1) :
    buffer.moveToNextGlyph2 ⟨x, y⟩ limitOptional =
        (if limitOptional.getD buffer.getSize.bottomInclusiveRightExclusive ≤ ⟨x, y⟩ then
          (limitOptional.getD buffer.getSize.bottomInclusiveRightExclusive, false)
        else (⟨behind, y⟩, true)) ∧ buffer.moveToPreviousGlyph2 ⟨behind, y⟩ limitOptional =
        (if limitOptional.getD buffer.getSize.bottomInclusiveRightExclusive ≤ ⟨behind, y⟩ then
          (limitOptional.getD buffer.getSize.bottomInclusiveRightExclusive, false) else (⟨x, y⟩, true)) := by
  have wide := wide_glyph_iff buffer maintained inside first
  have walks := walk_row buffer below
  have bounds (column : Nat) : buffer.getSize.isInBounds ⟨column, y⟩ = decide (column < buffer.width) := by
    simp only [Viewport.isInBounds, size_contains, decide_eq_decide]
    omega
  rw [moveToNextGlyph2, moveToPreviousGlyph2, moveGlyph2, moveGlyph2]
  by_cases leading : buffer.dbcsAttrAt ⟨x, y⟩ = .leading
  · obtain ⟨room, isTrailing⟩ := wide.mp leading
    have trailing : buffer.dbcsAttrAt ⟨(x + 1 : Nat), y⟩ = .trailing := isTrailing
    rw [if_pos leading] at isBehind
    simp only [walks x (x + 1) 1 (by omega) (by omega), walks (x + 1) behind 1 (by omega) (by omega),
      walks behind (x + 1) (-1) (by omega) (by omega), walks (x + 1) x (-1) (by omega) (by omega), bounds, trailing, room,
      decide_true, Bool.and_true, if_true, and_true]
  · rw [if_neg leading] at isBehind
    have alone : (decide (behind < buffer.width) && decide (buffer.dbcsAttrAt ⟨behind, y⟩ = .trailing)) = false := by
      simpa [isBehind] using fun both => leading (wide.mpr both)
    simp [walks x behind 1 (by omega) (by omega), walks behind x (-1) (by omega) (by omega), bounds, alone, first]

theorem next_previous2_iff (result : Point) (moved : buffer.moveToNextGlyph2 ⟨x, y⟩ limitOptional = (result, true)) :
    buffer.moveToPreviousGlyph2 result limitOptional = (⟨x, y⟩, true) ↔
      ¬ limitOptional.getD buffer.getSize.bottomInclusiveRightExclusive ≤
        ⟨(x : Int) + if buffer.dbcsAttrAt ⟨x, y⟩ = .leading then 2 else 1, y⟩ := by
  obtain ⟨next, previous⟩ := glyph_moves2 buffer maintained x y inside below first limitOptional rfl
  rw [next] at moved
  split at moved
  · simp at moved
  · simp only [Prod.mk.injEq, and_true] at moved
    rw [← moved, previous]
    split <;> simp

end

-- MoveToPreviousGlyph looks for the first half of a wide glyph where it has to look
-- for the second one, so it stops between the two. MoveToPreviousGlyph2 does not
-- move from the limit, where MoveToNextGlyph2 may have gone.
theorem glyph_moves_inverse_iff (buffer : TextBuffer) (maintained : Maintained buffer) (pos : Point)
    (cell : buffer.getSize.Contains pos) (first : buffer.dbcsAttrAt pos ≠ .trailing) (limitOptional : Option Point) :
    (∀ allowExclusiveEnd result, buffer.moveToNextGlyph pos allowExclusiveEnd limitOptional = some (result, true) →
      (buffer.moveToPreviousGlyph result limitOptional = some (pos, true) ↔
        buffer.dbcsAttrAt pos ≠ .leading ∨ (pos = ⟨0, 0⟩ ∧ buffer.width = 2 ∧ buffer.height = 1))) ∧
    (∀ result, buffer.moveToNextGlyph2 pos limitOptional = (result, true) →
      (buffer.moveToPreviousGlyph2 result limitOptional = (pos, true) ↔
        ¬ limitOptional.getD buffer.getSize.bottomInclusiveRightExclusive ≤
          ⟨pos.x + if buffer.dbcsAttrAt pos = .leading then 2 else 1, pos.y⟩)) := by
  obtain ⟨left, right, top, bottom⟩ := (size_contains buffer pos).mp cell
  obtain ⟨x, y⟩ := pos
  obtain ⟨column, rfl⟩ := Int.eq_ofNat_of_zero_le left
  obtain ⟨row, rfl⟩ := Int.eq_ofNat_of_zero_le top
  have inside : column < buffer.width := Int.ofNat_lt.mp right
  have below : row < buffer.height := Int.ofNat_lt.mp bottom
  refine ⟨?_, next_previous2_iff buffer maintained column row inside below first⟩
  intro allowExclusiveEnd result moved
  rw [next_previous_iff buffer maintained column row inside below first moved]
  simp [and_assoc]

def catLetter : TextBuffer :=
  (Write.replace 0 {} ⟨[0x732B, 0x61], 0, 4, 0, 0, 0⟩).perform graphemeEnvironment (TextBuffer.construct 4 2 {})

-- The letter behind a wide glyph is left and found again, and so is the glyph by the second pair.
theorem glyph_moves_inverse_letter :
    catLetter.moveToPreviousGlyph ⟨3, 0⟩ none = some (⟨2, 0⟩, true) ∧
    catLetter.moveToPreviousGlyph2 ⟨2, 0⟩ none = (⟨0, 0⟩, true) := by
  have maintained : Maintained catLetter := write_maintained graphemeEnvironment (maintained_construct 4 2 (by decide) {}) _
    ⟨Glyphs.spaces 4, blank_represents _ (by decide) rfl rfl, by decide +kernel, .inl (by decide +kernel)⟩
  have letter := glyph_moves_inverse_iff catLetter maintained ⟨2, 0⟩ (by decide) (by decide +kernel) none
  have glyph := glyph_moves_inverse_iff catLetter maintained ⟨0, 0⟩ (by decide) (by decide +kernel) none
  exact ⟨(letter.1 true ⟨3, 0⟩ (by decide +kernel)).mpr (.inl (by decide +kernel)),
    (glyph.2 ⟨2, 0⟩ (by decide +kernel)).mpr (by decide +kernel)⟩

def catBuffer : TextBuffer :=
  (TextBuffer.construct 4 1 {}).setRow 0 ((Row.construct 4 {}).replaceText graphemeEnvironment ⟨[0x732B], 0, 4, 0, 0, 0⟩).1

theorem glyph_moves_not_inverse : catBuffer.moveToNextGlyph ⟨0, 0⟩ true none = some (⟨2, 0⟩, true) ∧
      catBuffer.moveToPreviousGlyph ⟨2, 0⟩ none = some (⟨1, 0⟩, true) ∧
      catBuffer.moveToNextGlyph2 ⟨3, 0⟩ none = (⟨4, 0⟩, true) ∧ catBuffer.moveToPreviousGlyph2 ⟨4, 0⟩ none =
      (⟨4, 0⟩, false) := by
  decide +kernel

end Cogterm.Buffer
