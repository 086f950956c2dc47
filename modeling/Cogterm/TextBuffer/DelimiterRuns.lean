import Cogterm.Library.Loop
import Cogterm.TextBuffer.GlyphMoves
import Mathlib.Data.Nat.ModEq

namespace Cogterm.Buffer

open Library Cogterm.Types Int Nat Viewport
open Unicode (WChar)

inductive DelimiterClass where
  | controlChar
  | delimiterChar
  | regularChar
deriving DecidableEq, Repr

def Row.delimiterClassAt {Attr : Type} (row : Row Attr) (column : Int) (wordDelimiters : List WChar) : DelimiterClass :=
  let glyph := row.chars.getD (row.uncheckedCharOffset (row.clampedColumn column)) 0
  if glyph ≤ unicodeSpace then .controlChar else if wordDelimiters.contains glyph then .delimiterChar else .regularChar

namespace TextBuffer

variable (buffer : TextBuffer) (wordDelimiters : List WChar)

def screenToBufferPosition (position : Point) : Point :=
  ⟨if (buffer.getRow position.y).lineRendition = .singleWidth then position.x else position.x / 2, position.y⟩

def getDelimiterClassAt (pos : Point) : DelimiterClass :=
  let realPos := buffer.screenToBufferPosition pos
  (buffer.getRow realPos.y).delimiterClassAt realPos.x wordDelimiters

def wasWrapForced (y : Int) : Bool := (buffer.getRow y).wrapForced

def initialDelimClass (pos : Point) : DelimiterClass :=
  if buffer.getSize.isInBounds pos then buffer.getDelimiterClassAt wordDelimiters pos else .controlChar

def runStartStep (initial : DelimiterClass) (pos : Point) : Iteration Point Point :=
  if pos = buffer.getSize.origin then .done pos
  else
    let nextPos := (buffer.getSize.walkInExclusiveBounds pos (-1)).1
    if nextPos.x = buffer.getSize.rightExclusive then
      if buffer.wasWrapForced nextPos.y then .again nextPos else .done pos
    else if buffer.getDelimiterClassAt wordDelimiters nextPos ≠ initial then .done pos
    else .again nextPos

def runEndStep (initial : DelimiterClass) (pos : Point) : Iteration Point Point :=
  if pos = buffer.getSize.bottomInclusiveRightExclusive then .done pos
  else
    let nextPos := (buffer.getSize.walkInExclusiveBounds pos 1).1
    if nextPos.x = buffer.getSize.left then
      if !buffer.wasWrapForced pos.y || buffer.getDelimiterClassAt wordDelimiters nextPos ≠ initial then .done pos
      else .again nextPos
    else if buffer.getSize.isInBounds nextPos && buffer.getDelimiterClassAt wordDelimiters nextPos ≠ initial then .done nextPos
    else .again nextPos

-- Nothing comes out if the fuel does not last.
def getDelimiterClassRunStart (fuel : Nat) (pos : Point) : Option Point :=
  runLoop (buffer.runStartStep wordDelimiters (buffer.initialDelimClass wordDelimiters pos)) fuel pos

def getDelimiterClassRunEnd (fuel : Nat) (pos : Point) : Option Point :=
  runLoop (buffer.runEndStep wordDelimiters (buffer.initialDelimClass wordDelimiters pos)) fuel pos

def exclusivePosition (index : Nat) : Point := ⟨(index % (buffer.width + 1) : Nat), (index / (buffer.width + 1) : Nat)⟩

def IsRowEnd (index : Nat) : Prop := index % (buffer.width + 1) = buffer.width

instance (index : Nat) : Decidable (buffer.IsRowEnd index) := inferInstanceAs (Decidable (_ = _))

def Passes (initial : DelimiterClass) (index : Nat) : Prop :=
  if buffer.IsRowEnd index then buffer.wasWrapForced (buffer.exclusivePosition index).y = true
  else buffer.getDelimiterClassAt wordDelimiters (buffer.exclusivePosition index) = initial

instance (initial : DelimiterClass) (index : Nat) : Decidable (buffer.Passes wordDelimiters initial index) :=
  inferInstanceAs (Decidable (ite _ _ _))

-- The cells of a run, which can not be made longer: something separates it from
-- every cell in front of it and behind it.
structure MaximalRun (initial : DelimiterClass) (first last : Nat) : Prop where
  passes : ∀ index, first ≤ index → index ≤ last → buffer.Passes wordDelimiters initial index
  cells : ¬ buffer.IsRowEnd first ∧ ¬ buffer.IsRowEnd last
  front : ∀ cell < first, ¬ buffer.IsRowEnd cell → ∃ index, cell ≤ index ∧ index < first ∧
    ¬ buffer.Passes wordDelimiters initial index
  behind : ∀ cell < (buffer.width + 1) * buffer.height, last < cell → ¬ buffer.IsRowEnd cell →
    ∃ index, last < index ∧ index ≤ cell ∧ ¬ buffer.Passes wordDelimiters initial index

end TextBuffer

open TextBuffer

variable {index : Nat}

section

variable (buffer : TextBuffer)

theorem exclusive_row_start (index : Nat) : (buffer.exclusivePosition (index + 1)).x = 0 ↔ buffer.IsRowEnd index := by
  rw [IsRowEnd, ← succ_mod_succ_eq_zero_iff]
  exact natCast_eq_zero

theorem exclusive_row_end (index : Nat) : (buffer.exclusivePosition index).x = buffer.getSize.rightExclusive ↔
    buffer.IsRowEnd index := by
  simp only [exclusivePosition, getSize, fromDimensions, rightExclusive, IsRowEnd]
  omega

theorem exclusive_in_bounds (index : Nat) (inside : index < (buffer.width + 1) * buffer.height) :
    buffer.getSize.isInBounds (buffer.exclusivePosition index) = !decide (buffer.IsRowEnd index) := by
  have column : index % (buffer.width + 1) < buffer.width + 1 := mod_lt _ (succ_pos _)
  have row : index / (buffer.width + 1) < buffer.height := Nat.div_lt_of_lt_mul inside
  rw [isInBounds, ← decide_not, decide_eq_decide, size_contains, IsRowEnd]
  simp only [exclusivePosition]
  generalize index / (buffer.width + 1) = y at *
  omega

theorem exclusive_walk (index other : Nat) (delta : Int) (isOther : index + delta = other)
    (inside : other < (buffer.width + 1) * buffer.height) :
    buffer.getSize.walkInExclusiveBounds (buffer.exclusivePosition index) delta = (buffer.exclusivePosition other, true) := by
  have isWidth : max 0 (buffer.getSize.right - buffer.getSize.left + 2) = ((buffer.width + 1 : Nat) : Int) := by
    simp only [getSize, fromDimensions]
    omega
  have offset (place : Nat) :
    ((buffer.width + 1 : Nat) : Int) * (place / (buffer.width + 1) : Nat) + (place % (buffer.width + 1) : Nat) =
      place := by
    rw [← natCast_mul, ← natCast_add, div_add_mod]
  have column : other % (buffer.width + 1) < buffer.width + 1 := mod_lt _ (succ_pos _)
  have left : buffer.getSize.left = 0 := rfl
  have top : buffer.getSize.top = 0 := rfl
  rw [walkInExclusiveBounds, isWidth, (size_width buffer).2]
  apply walk_reaches
  all_goals simp only [left, top, sub_zero, exclusivePosition, offset]
  all_goals first | omega | exact natCast_nonneg _

theorem exclusive_injective (same : buffer.exclusivePosition index = buffer.exclusivePosition other) : index = other := by
  simp only [exclusivePosition, Point.mk.injEq, natCast_inj] at same
  rw [← div_add_mod index (buffer.width + 1), ← div_add_mod other (buffer.width + 1), same.1, same.2]

theorem exclusive_at (inside : column ≤ buffer.width) :
    buffer.exclusivePosition ((buffer.width + 1) * row + column) = ⟨column, row⟩ := by
  have small : column < buffer.width + 1 := lt_succ_of_le inside
  simp [exclusivePosition, mod_eq_of_lt small, mul_add_div (succ_pos _), div_eq_of_lt small]

theorem cell_index (cell : buffer.getSize.Contains pos) :
    ∃ index, buffer.exclusivePosition index = pos ∧ index < (buffer.width + 1) * buffer.height ∧
    ¬ buffer.IsRowEnd index := by
  obtain ⟨left, right, top, bottom⟩ := (size_contains buffer pos).mp cell
  obtain ⟨x, y⟩ := pos
  obtain ⟨column, rfl⟩ := eq_ofNat_of_zero_le left
  obtain ⟨row, rfl⟩ := eq_ofNat_of_zero_le top
  simp only at right bottom
  have rows := mul_le_mul_left (buffer.width + 1) (show row + 1 ≤ buffer.height by omega)
  rw [mul_succ] at rows
  refine ⟨_, exclusive_at buffer (by omega), by omega, ?_⟩
  rw [← exclusive_row_end, exclusive_at buffer (by omega)]
  simp only [getSize, fromDimensions, rightExclusive]
  omega

theorem exclusive_end (index : Nat) (inside : index < (buffer.width + 1) * buffer.height) :
    buffer.exclusivePosition index = buffer.getSize.bottomInclusiveRightExclusive ↔
    index + 1 = (buffer.width + 1) * buffer.height := by
  obtain ⟨above, isHeight⟩ :=
    Nat.exists_eq_succ_of_ne_zero (Nat.ne_of_gt (Nat.pos_of_mul_pos_left (Nat.zero_lt_of_lt inside)))
  have isEnd : buffer.getSize.bottomInclusiveRightExclusive =
    buffer.exclusivePosition ((buffer.width + 1) * above + buffer.width) := by
    rw [exclusive_at buffer (Nat.le_refl _)]
    simp [getSize, fromDimensions, bottomInclusiveRightExclusive, rightExclusive, isHeight]
  rw [isEnd, isHeight, Nat.mul_succ]
  refine ⟨fun same => ?_, fun same => congrArg _ (by omega)⟩
  have index := exclusive_injective buffer same
  omega

theorem total_row_end (index : Nat) (ends : index + 1 = (buffer.width + 1) * buffer.height) : buffer.IsRowEnd index := by
  simp [IsRowEnd, ← succ_mod_succ_eq_zero_iff, ends]

theorem row_end_alone (wide : 0 < buffer.width) (index : Nat) (rowEnd : buffer.IsRowEnd index) :
    ¬ buffer.IsRowEnd (index + 1) := by
  rw [IsRowEnd, ← succ_mod_succ_eq_zero_iff] at rowEnd
  rw [IsRowEnd]
  omega

end

section

variable (buffer : TextBuffer) (wordDelimiters : List WChar) (initial : DelimiterClass)

theorem run_start_step (inside : index + 1 < (buffer.width + 1) * buffer.height) :
    buffer.runStartStep wordDelimiters initial (buffer.exclusivePosition (index + 1)) =
      if buffer.Passes wordDelimiters initial index then .again (buffer.exclusivePosition index)
      else .done (buffer.exclusivePosition (index + 1)) := by
  have walk := exclusive_walk buffer (index + 1) index (-1) (by omega) (by omega)
  have origin : buffer.exclusivePosition 0 = buffer.getSize.origin := by simp [exclusivePosition]; rfl
  rw [runStartStep, if_neg]
  · simp only [walk, exclusive_row_end, Passes]
    split <;> split <;> simp_all
  · rw [← origin]
    exact fun same => absurd (exclusive_injective buffer same) (succ_ne_zero index)

theorem run_start_ends (inside : index < (buffer.width + 1) * buffer.height) :
    ∃ first ≤ index, runLoop (buffer.runStartStep wordDelimiters initial) (index + 1) (buffer.exclusivePosition index) =
        some (buffer.exclusivePosition first) ∧
      (∀ between, first ≤ between → between < index → buffer.Passes wordDelimiters initial between) ∧
      (first ≠ 0 → ¬ buffer.Passes wordDelimiters initial (first - 1)) := by
  induction index with
  | zero =>
    refine ⟨0, le_refl 0, ?_, fun between _ before => absurd before (not_lt_zero between), fun some => absurd rfl some⟩
    rw [runLoop, runStartStep, if_pos (by simp [exclusivePosition]; rfl)]
  | succ index ih =>
    have step := run_start_step buffer wordDelimiters initial inside
    by_cases passes : buffer.Passes wordDelimiters initial index
    · obtain ⟨first, order, ended, between, front⟩ := ih (by omega)
      rw [if_pos passes] at step
      refine ⟨first, by omega, by rw [runLoop, step]; exact ended, fun other above below => ?_, front⟩
      by_cases here : other = index
      · exact here ▸ passes
      · exact between other above (by omega)
    · rw [if_neg passes] at step
      exact ⟨index + 1, le_refl _, by rw [runLoop, step], fun other above below => by omega, fun _ => passes⟩

theorem run_end_step (wide : 0 < buffer.width) (index : Nat) (inside : index < (buffer.width + 1) * buffer.height) :
    buffer.runEndStep wordDelimiters initial (buffer.exclusivePosition index) = if buffer.IsRowEnd index then
        if index + 1 ≠ (buffer.width + 1) * buffer.height ∧ buffer.Passes wordDelimiters initial index ∧
          buffer.Passes wordDelimiters initial (index + 1) then .again (buffer.exclusivePosition (index + 1))
        else .done (buffer.exclusivePosition index)
      else if buffer.IsRowEnd (index + 1) ∨ buffer.Passes wordDelimiters initial (index + 1) then
        .again (buffer.exclusivePosition (index + 1)) else .done (buffer.exclusivePosition (index + 1)) := by
  have isEnd := exclusive_end buffer index inside
  have left : buffer.getSize.left = 0 := rfl
  rw [runEndStep]
  by_cases ends : index + 1 = (buffer.width + 1) * buffer.height
  · rw [if_pos (isEnd.mpr ends), if_pos (total_row_end buffer index ends), if_neg (fun all => all.1 ends)]
  have nextRow := exclusive_row_start buffer index
  rw [if_neg (mt isEnd.mp ends)]
  simp only [exclusive_walk buffer index (index + 1) 1 (by omega) (by omega), exclusive_in_bounds buffer (index + 1) (by omega),
    left, nextRow]
  by_cases rowEnd : buffer.IsRowEnd index
  · cases forced : buffer.wasWrapForced (buffer.exclusivePosition index).y <;>
      simp [rowEnd, ends, Passes, row_end_alone buffer wide index rowEnd, forced]
  · by_cases nextEnd : buffer.IsRowEnd (index + 1)
    · simp [rowEnd, nextEnd]
    · simp [rowEnd, nextEnd, Passes]

theorem run_end_ends (wide : 0 < buffer.width) (cell : Nat) (inside : cell < (buffer.width + 1) * buffer.height)
    (isCell : ¬ buffer.IsRowEnd cell) (passes : buffer.Passes wordDelimiters initial cell) :
    ∃ fuel last, cell ≤ last ∧ ¬ buffer.IsRowEnd last ∧
      runLoop (buffer.runEndStep wordDelimiters initial) fuel (buffer.exclusivePosition cell) =
        some (buffer.exclusivePosition (last + 1)) ∧
      (∀ between, cell ≤ between → between ≤ last → buffer.Passes wordDelimiters initial between) ∧
      ∀ other < (buffer.width + 1) * buffer.height, last < other → ¬ buffer.IsRowEnd other →
        ∃ index, last < index ∧ index ≤ other ∧ ¬ buffer.Passes wordDelimiters initial index := by
  generalize isLeft : (buffer.width + 1) * buffer.height - cell = left
  induction left using Nat.strong_induction_on generalizing cell with
  | _ left ih =>
    have notLast : cell + 1 ≠ (buffer.width + 1) * buffer.height := fun ends => isCell (total_row_end buffer cell ends)
    have first := run_end_step buffer wordDelimiters initial wide cell inside
    have second := run_end_step buffer wordDelimiters initial wide (cell + 1) (by omega)
    have here (between : Nat) (above : cell ≤ between) (below : between ≤ cell) :
      buffer.Passes wordDelimiters initial between :=
      le_antisymm above below ▸ passes
    rw [if_neg isCell] at first
    by_cases rowEnd : buffer.IsRowEnd (cell + 1)
    · rw [if_pos (.inl rowEnd)] at first
      rw [if_pos rowEnd] at second
      by_cases goes : cell + 2 ≠ (buffer.width + 1) * buffer.height ∧ buffer.Passes wordDelimiters initial (cell + 1) ∧
        buffer.Passes wordDelimiters initial (cell + 2)
      · rw [if_pos goes] at second
        obtain ⟨fuel, last, order, isLast, ended, between, behind⟩ := ih _ (by omega) (cell + 2) (by omega)
          (row_end_alone buffer wide _ rowEnd) goes.2.2 rfl
        refine ⟨fuel + 2, last, by omega, isLast, ?_, fun other above below => ?_, behind⟩
        · rw [runLoop, first]
          show runLoop _ (fuel + 1) _ = _
          rw [runLoop, second]
          exact ended
        · by_cases further : cell + 2 ≤ other
          · exact between other further below
          · by_cases isNext : other = cell + 1
            · exact isNext ▸ goes.2.1
            · exact here other above (by omega)
      · rw [if_neg goes] at second
        refine ⟨2, cell, le_refl _, isCell, ?_, here, fun other bound above notEnd => ?_⟩
        · rw [runLoop, first]
          show runLoop _ 1 _ = _
          rw [runLoop, second]
        · have apart : other ≠ cell + 1 := fun same => notEnd (same ▸ rowEnd)
          by_cases closed : buffer.Passes wordDelimiters initial (cell + 1)
          · exact ⟨cell + 2, by omega, by omega, fun next => goes ⟨by omega, closed, next⟩⟩
          · exact ⟨cell + 1, by omega, by omega, closed⟩
    · by_cases next : buffer.Passes wordDelimiters initial (cell + 1)
      · rw [if_pos (.inr next)] at first
        obtain ⟨fuel, last, order, isLast, ended, between, behind⟩ := ih _ (by omega) (cell + 1) (by omega) rowEnd next rfl
        refine ⟨fuel + 1, last, by omega, isLast, by rw [runLoop, first]; exact ended, fun other above below => ?_, behind⟩
        by_cases further : cell + 1 ≤ other
        · exact between other further below
        · exact here other above (by omega)
      · rw [if_neg (fun either => either.elim rowEnd next)] at first
        exact ⟨1, cell, le_refl _, isCell, by rw [runLoop, first], here,
          fun other _ above _ => ⟨cell + 1, by omega, above, next⟩⟩

end

-- A run that begins a row is missed where the row above was forced to wrap: the
-- end of that row comes out, which is no cell.
theorem delimiter_runs_iff (buffer : TextBuffer) (wordDelimiters : List WChar) (pos : Point)
    (cell : buffer.getSize.Contains pos) :
    ∃ index first last fuel, buffer.exclusivePosition index = pos ∧ first ≤ index ∧ index ≤ last ∧
      buffer.MaximalRun wordDelimiters (buffer.getDelimiterClassAt wordDelimiters pos) first last ∧
      buffer.getDelimiterClassRunEnd wordDelimiters fuel pos = some (buffer.exclusivePosition (last + 1)) ∧
      (buffer.getDelimiterClassRunStart wordDelimiters fuel pos).isSome ∧
      (buffer.getDelimiterClassRunStart wordDelimiters fuel pos = some (buffer.exclusivePosition first) ↔
        ¬ (0 < first ∧ buffer.IsRowEnd (first - 1) ∧ buffer.wasWrapForced (buffer.exclusivePosition (first - 1)).y =
          true)) := by
  have wide : 0 < buffer.width := by
    have bounds := (size_contains buffer pos).mp cell
    omega
  have isInitial : buffer.initialDelimClass wordDelimiters pos = buffer.getDelimiterClassAt wordDelimiters pos :=
    if_pos (decide_eq_true cell)
  simp only [getDelimiterClassRunEnd, getDelimiterClassRunStart, isInitial]
  obtain ⟨index, isPos, inside, isCell⟩ := cell_index buffer cell
  have passes : buffer.Passes wordDelimiters (buffer.getDelimiterClassAt wordDelimiters pos) index := by
    rw [Passes, if_neg isCell, isPos]
  generalize buffer.getDelimiterClassAt wordDelimiters pos = initial at passes ⊢
  obtain ⟨place, order, started, between, front⟩ := run_start_ends buffer wordDelimiters initial inside
  obtain ⟨fuel, last, behind, isLast, ended, after, stops⟩ :=
    run_end_ends buffer wordDelimiters initial wide index inside isCell passes
  rw [isPos] at started ended
  have startedMore := run_loop_more _ _ fuel _ _ started
  have endedMore := run_loop_more _ _ (index + 1) _ _ ended
  rw [add_comm fuel] at endedMore
  have whole (other : Nat) (above : place ≤ other) (below : other ≤ last) : buffer.Passes wordDelimiters initial other := by
    by_cases early : other < index
    · exact between other above early
    · exact after other (by omega) below
  refine ⟨index, if buffer.IsRowEnd place then place + 1 else place, last, index + 1 + fuel, isPos, ?_⟩
  rw [startedMore, endedMore]
  by_cases rowEnd : buffer.IsRowEnd place
  · have apart : place ≠ index := fun same => isCell (same ▸ rowEnd)
    have forced := whole place (le_refl _) (by omega)
    rw [Passes, if_pos rowEnd] at forced
    rw [if_pos rowEnd]
    refine ⟨by omega, behind, ⟨fun other above => whole other (by omega),
      ⟨row_end_alone buffer wide place rowEnd, isLast⟩,
      fun other before notEnd => ?_, stops⟩, rfl, rfl, iff_of_false ?_ (fun holds => holds ⟨succ_pos _, rowEnd, forced⟩)⟩
    · have different : other ≠ place := fun same => notEnd (same ▸ rowEnd)
      exact ⟨place - 1, by omega, by omega, front (by omega)⟩
    · exact fun same => absurd (exclusive_injective buffer (Option.some.inj same)) (by omega)
  · rw [if_neg rowEnd]
    refine ⟨order, behind, ⟨whole, ⟨rowEnd, isLast⟩,
      fun other before _ => ⟨place - 1, by omega, by omega, front (by omega)⟩, stops⟩,
      rfl, rfl, iff_of_true rfl ?_⟩
    rintro ⟨some, isEnd, forced⟩
    refine front (by omega) ?_
    rw [Passes, if_pos isEnd]
    exact forced

def wrappedBuffer : TextBuffer :=
  (TextBuffer.construct 2 2 {}).setRow 0
    { ((Row.construct 2 {}).replaceText graphemeEnvironment ⟨[0x61, 0x62], 0, 2, 0, 0, 0⟩).1 with wrapForced := true }

theorem delimiter_runs_letters :
    ∃ first last fuel, wrappedBuffer.MaximalRun [] .regularChar first last ∧
      wrappedBuffer.getDelimiterClassRunEnd [] fuel ⟨1, 0⟩ = some (wrappedBuffer.exclusivePosition (last + 1)) ∧
      wrappedBuffer.getDelimiterClassRunStart [] fuel ⟨1, 0⟩ = some (wrappedBuffer.exclusivePosition first) := by
  obtain ⟨index, first, last, fuel, isPos, before, _, run, ended, _, started⟩ :=
    delimiter_runs_iff wrappedBuffer [] ⟨1, 0⟩ (by decide)
  have isIndex : index = 1 := exclusive_injective wrappedBuffer isPos
  refine ⟨first, last, fuel, run, ended, started.mpr fun ⟨_, rowEnd, _⟩ => ?_⟩
  rw [show first - 1 = 0 by omega] at rowEnd
  exact absurd rowEnd (by decide)

theorem delimiter_run_starts_outside :
    wrappedBuffer.getDelimiterClassRunStart [] 9 ⟨1, 1⟩ = some ⟨2, 0⟩ ∧ ¬ wrappedBuffer.getSize.Contains ⟨2, 0⟩ ∧
      wrappedBuffer.getDelimiterClassAt [] ⟨0, 1⟩ = .controlChar ∧ wrappedBuffer.getDelimiterClassAt [] ⟨1, 0⟩ =
      .regularChar := by
  decide +kernel

end Cogterm.Buffer
