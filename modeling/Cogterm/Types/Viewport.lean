import Cogterm.TextBuffer.TextBuffer

namespace Cogterm.Types

open Buffer Int

structure Viewport where
  left : Int
  top : Int
  right : Int
  bottom : Int
deriving DecidableEq, Repr

namespace Viewport

def fromDimensions (origin : Point) (width height : Int) : Viewport :=
  ⟨origin.x, origin.y, origin.x + width - 1, origin.y + height - 1⟩

def origin (view : Viewport) : Point := ⟨view.left, view.top⟩
def width (view : Viewport) : Int := max 0 (view.right - view.left + 1)
def height (view : Viewport) : Int := max 0 (view.bottom - view.top + 1)

-- Without the exclusive end.
def walkInBounds (view : Viewport) (pos : Point) (delta : Int) : Point × Bool :=
  let off := view.width * (pos.y - view.top) + (pos.x - view.left) + delta
  let offClamped := clamp off 0 (view.width * view.height - 1)
  (⟨offClamped % view.width + view.left, offClamped / view.width + view.top⟩, decide (off = offClamped))

def getWalkOrigin (view : Viewport) (delta : Int) : Point :=
  ⟨if delta ≥ 0 then view.left else view.right, if delta ≥ 0 then view.top else view.bottom⟩

def determineWalkDirection (source target : Viewport) : Int :=
  if target.top < source.top ∨ (target.top = source.top ∧ target.left < source.left) then 1 else -1

def position (view : Viewport) (index : Nat) : Point := ⟨index % view.width + view.left, index / view.width + view.top⟩

def count (view : Viewport) : Nat := (view.width * view.height).toNat

def walked (view : Viewport) (delta : Int) (step : Nat) : Point :=
  view.position (if delta = 1 then min step (view.count - 1) else view.count - 1 - step)

structure Filled (view : Viewport) : Prop where
  columns : view.left ≤ view.right
  rows : view.top ≤ view.bottom

def Contains (view : Viewport) (pos : Point) : Prop :=
  view.left ≤ pos.x ∧ pos.x ≤ view.right ∧ view.top ≤ pos.y ∧ pos.y ≤ view.bottom

instance (view : Viewport) (pos : Point) : Decidable (view.Contains pos) :=
  inferInstanceAs (Decidable (view.left ≤ pos.x ∧ pos.x ≤ view.right ∧ view.top ≤ pos.y ∧ pos.y ≤ view.bottom))

def isInBounds (view : Viewport) (pos : Point) : Bool := decide (view.Contains pos)
def rightExclusive (view : Viewport) : Int := view.right + 1
def endExclusive (view : Viewport) : Point := ⟨view.left, view.bottom + 1⟩
def bottomInclusiveRightExclusive (view : Viewport) : Point := ⟨view.rightExclusive, view.bottom⟩

def compareInBounds (view : Viewport) (first second : Point) : Int :=
  (first.y - second.y) * view.width + (first.x - second.x)

-- The rows are w columns wide for a walk, and it goes up to an offset of max.
def walk (view : Viewport) (w max : Int) (pos : Point) (delta : Int) : Point × Bool :=
  let off := w * (pos.y - view.top) + (pos.x - view.left) + delta
  let offClamped := clamp off 0 max
  (⟨offClamped % w + view.left, offClamped / w + view.top⟩, decide (off = offClamped))

def walkToEndExclusive (view : Viewport) : Point → Int → Point × Bool := view.walk view.width (view.width * view.height)

def walkInExclusiveBounds (view : Viewport) : Point → Int → Point × Bool :=
  view.walk (max 0 (view.right - view.left + 2)) (max 0 (view.right - view.left + 2) * view.height)

end Viewport

open Viewport

section

variable (view : Viewport) (filled : view.Filled)

include filled

theorem view_size : view.width = view.right - view.left + 1 ∧ view.height = view.bottom - view.top + 1 ∧
    0 < view.width ∧ 0 < view.height := by
  have columns := filled.columns
  have rows := filled.rows
  simp only [width, height]
  omega

theorem view_count : (view.count : Int) = view.width * view.height ∧ 0 < view.count := by
  obtain ⟨_, _, wide, high⟩ := view_size view filled
  have positive := Int.mul_pos wide high
  rw [count]
  omega

theorem position_inside (index : Nat) (inside : index < view.count) : view.Contains (view.position index) := by
  obtain ⟨isWidth, isHeight, wide, _⟩ := view_size view filled
  have bound := (view_count view filled).1
  have left := emod_nonneg (index : Int) (by omega : view.width ≠ 0)
  have right := emod_lt_of_pos (index : Int) wide
  have top := ediv_nonneg (natCast_nonneg index) (by omega : 0 ≤ view.width)
  have below : (index : Int) / view.width < view.height := by
    apply Int.ediv_lt_of_lt_mul wide
    rw [Int.mul_comm]
    omega
  simp only [Contains, position]
  omega

omit filled in
theorem position_offset (index : Nat) :
    view.width * ((view.position index).y - view.top) + ((view.position index).x - view.left) = index := by
  have split := mul_ediv_add_emod (index : Int) view.width
  simp only [position]
  rw [show (index : Int) / view.width + view.top - view.top = index / view.width by omega]
  omega

omit filled in
theorem position_injective (same : view.position first = view.position second) : first = second := by
  have left := position_offset view first
  have right := position_offset view second
  rw [same] at left
  omega

theorem inside_position (inside : view.Contains pos) : ∃ index < view.count, view.position index = pos := by
  obtain ⟨isWidth, isHeight, wide, _⟩ := view_size view filled
  have bound := (view_count view filled).1
  obtain ⟨left, right, top, bottom⟩ := inside
  have rows : 0 ≤ view.width * (pos.y - view.top) := Int.mul_nonneg (by omega) (by omega)
  have within : view.width * (pos.y - view.top) + (pos.x - view.left) < view.width * view.height := by
    have above := Int.mul_le_mul_of_nonneg_left (show pos.y - view.top + 1 ≤ view.height by omega)
      (show 0 ≤ view.width by omega)
    rw [Int.mul_add] at above
    omega
  refine ⟨(view.width * (pos.y - view.top) + (pos.x - view.left)).toNat, by omega, ?_⟩
  rw [position, Int.toNat_of_nonneg (by omega), Int.add_comm (view.width * _), Int.add_mul_emod_self_left,
    add_mul_ediv_left _ _ (by omega), emod_eq_of_lt (by omega) (by omega), ediv_eq_zero_of_lt (by omega) (by omega)]
  cases pos
  simp only [Point.mk.injEq]
  omega

theorem walk_position {index next : Nat} (isNext : clamp (index + delta) 0 (view.count - 1) = next) :
    view.walkInBounds (view.position index) delta = (view.position next, decide ((index : Int) + delta = next)) := by
  have bound := (view_count view filled).1
  rw [walkInBounds, position_offset view index, ← bound, isNext]
  rfl

variable (delta : Int) (direction : delta = 1 ∨ delta = -1)

theorem walked_inside (step : Nat) : view.Contains (view.walked delta step) := by
  have some := (view_count view filled).2
  apply position_inside view filled
  split <;> omega

theorem walked_covers (inside : view.Contains pos) : ∃ step < view.count, view.walked delta step = pos := by
  obtain ⟨index, bounded, isPos⟩ := inside_position view filled inside
  by_cases forward : delta = 1
  · refine ⟨index, bounded, ?_⟩
    rw [walked, if_pos forward, Nat.min_eq_left (by omega), isPos]
  · refine ⟨view.count - 1 - index, by omega, ?_⟩
    rw [walked, if_neg forward, show view.count - 1 - (view.count - 1 - index) = index by omega, isPos]

omit filled in
theorem walked_distinct (order : first < second) (inside : second < view.count) :
    view.walked delta second ≠ view.walked delta first := by
  intro same
  have index := position_injective view same
  split at index <;> omega

include direction in
theorem walk_origin : view.getWalkOrigin delta = view.walked delta 0 := by
  obtain ⟨isWidth, isHeight, wide, high⟩ := view_size view filled
  obtain ⟨bound, some⟩ := view_count view filled
  rcases direction with forward | backward
  · simp [forward, walked, getWalkOrigin, position]
  rw [backward, walked, if_neg (by decide), Nat.sub_zero, position, Int.natCast_sub (by omega), bound]
  have last : view.width * view.height - (1 : Nat) = (view.width - 1) + view.width * (view.height - 1) := by simp [Int.mul_sub]
  rw [last, add_mul_emod_self_left, add_mul_ediv_left _ _ (by omega), emod_eq_of_lt (by omega) (by omega),
    ediv_eq_zero_of_lt (by omega) (by omega)]
  simp only [getWalkOrigin, Point.mk.injEq]
  omega

include direction in
theorem walk_step (step : Nat) (inside : step < view.count) :
    view.walkInBounds (view.walked delta step) delta = (view.walked delta (step + 1), decide (step + 1 < view.count)) := by
  rcases direction with forward | backward
  · have isNext : clamp ((min step (view.count - 1) : Nat) + 1) 0 (view.count - 1) =
      (min (step + 1) (view.count - 1) : Nat) := by
      rw [clamp]
      split
      · omega
      · split <;> omega
    simp only [walked, forward, if_true]
    rw [walk_position view filled isNext]
    refine Prod.ext rfl ?_
    simp only [decide_eq_decide]
    omega
  · have isNext : clamp ((view.count - 1 - step : Nat) + (-1)) 0 (view.count - 1) = (view.count - 1 - (step + 1) : Nat) := by
      rw [clamp]
      split
      · omega
      · split <;> omega
    simp only [walked, backward, if_neg (show ¬ (-1 : Int) = 1 by decide)]
    rw [walk_position view filled isNext]
    refine Prod.ext rfl ?_
    simp only [decide_eq_decide]
    omega

end

theorem walk_reaches {view : Viewport} {pos target : Point} (left : view.left ≤ target.x) (top : view.top ≤ target.y)
    (right : target.x - view.left < w)
    (same : w * (pos.y - view.top) + (pos.x - view.left) + delta = w * (target.y - view.top) + (target.x - view.left))
    (limited : w * (target.y - view.top) + (target.x - view.left) ≤ most) : view.walk w most pos delta = (target, true) := by
  have rows : 0 ≤ w * (target.y - view.top) := Int.mul_nonneg (by omega) (by omega)
  have within : clamp (w * (target.y - view.top) + (target.x - view.left)) 0 most =
      target.x - view.left + w * (target.y - view.top) := by
    rw [clamp, if_neg (by omega), if_pos limited, add_comm]
  simp only [walk, same, within, add_mul_emod_self_left, add_mul_ediv_left _ _ (show w ≠ 0 by omega),
    emod_eq_of_lt (show 0 ≤ target.x - view.left by omega) right,
    ediv_eq_zero_of_lt (show 0 ≤ target.x - view.left by omega) right]
  refine Prod.ext ?_ (by simp only [decide_eq_true_eq]; omega)
  cases target
  simp only [Point.mk.injEq]
  omega

theorem position_order {above below : Viewport} (wide : 0 < above.width) (sameWidth : below.width = above.width)
    (before : above.top < below.top ∨ (above.top = below.top ∧ above.left < below.left))
    (same : above.position upper = below.position lower) : lower < upper := by
  simp only [position, Point.mk.injEq, sameWidth] at same
  by_contra order
  have quotient := Int.ediv_le_ediv wide (show (upper : Int) ≤ lower by omega)
  have first := Int.mul_ediv_add_emod (upper : Int) above.width
  have second := Int.mul_ediv_add_emod (lower : Int) above.width
  have level : (upper : Int) / above.width = lower / above.width := by omega
  rw [level] at first
  omega

variable {source target : Viewport} (filled : source.Filled) (sameWidth : target.width = source.width)
  (sameHeight : target.height = source.height) (apart : target.origin ≠ source.origin)

include filled sameWidth sameHeight apart

theorem walks_ordered (order : first < second) (inside : second < source.count) :
    source.walked (determineWalkDirection source target) second ≠ target.walked
    (determineWalkDirection source target) first := by
  obtain ⟨_, _, wide, _⟩ := view_size source filled
  have sameCount : target.count = source.count := by simp [count, sameWidth, sameHeight]
  intro same
  rw [determineWalkDirection] at same
  by_cases before : target.top < source.top ∨ (target.top = source.top ∧ target.left < source.left)
  · simp only [if_pos before, walked, if_true] at same
    have index := position_order (by omega) sameWidth.symm before same.symm
    omega
  simp only [if_neg before, walked, if_neg (show ¬ (-1 : Int) = 1 by decide)] at same
  have behind : source.top < target.top ∨ (source.top = target.top ∧ source.left < target.left) := by
    simp only [origin, ne_eq, Point.mk.injEq] at apart
    omega
  have index := position_order wide sameWidth behind same
  omega

end Cogterm.Types
