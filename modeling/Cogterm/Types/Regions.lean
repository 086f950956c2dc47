import Cogterm.Types.Viewport

namespace Cogterm.Types

open Buffer Viewport Function Int

namespace Viewport

def isInExclusiveBounds (view : Viewport) (pos : Point) : Bool :=
  decide (view.left ≤ pos.x ∧ pos.x ≤ view.rightExclusive ∧ view.top ≤ pos.y ∧ pos.y ≤ view.bottom)

def compareInExclusiveBounds (view : Viewport) (first second : Point) : Int :=
  (first.y - second.y) * view.width + (first.x - second.x)

-- The place of a position if every row has its exclusive end as one more column.
def exclusiveOffset (view : Viewport) (pos : Point) : Int :=
  (view.right - view.left + 2) * (pos.y - view.top) + (pos.x - view.left)

def isValid (view : Viewport) : Bool :=
  decide (0 ≤ view.left ∧ 0 ≤ view.top ∧ view.left ≤ view.right ∧ view.top ≤ view.bottom)

def empty : Viewport := ⟨0, 0, -1, -1⟩

def intersect (lhs rhs : Viewport) : Viewport :=
  let intersection : Viewport :=
    ⟨max lhs.left rhs.left, max lhs.top rhs.top, min lhs.right rhs.right, min lhs.bottom rhs.bottom⟩
  if !intersection.isValid then empty else intersection

def subtract (original removeMe : Viewport) : List Viewport :=
  let intersection := intersect original removeMe
  if !original.isValid then []
  else if !intersection.isValid then [original]
  else if original ≠ intersection then
    let top : Viewport := ⟨original.left, original.top, original.right, intersection.top - 1⟩
    let bottom : Viewport := ⟨original.left, intersection.bottom + 1, original.right, original.bottom⟩
    let left : Viewport := ⟨original.left, intersection.top, intersection.left - 1, intersection.bottom⟩
    let right : Viewport := ⟨intersection.right + 1, intersection.top, original.right, intersection.bottom⟩
    [top, bottom, left, right].filter isValid
  else []

-- A copy that walks through both viewports until the walk through the target ends.
def copyCells {Cell : Type} (source target : Viewport) (delta : Int) : Nat → Point → Point → (Point → Cell) →
    Option (Point → Cell)
  | 0, _, _, _ => none
  | fuel + 1, srcPos, dstPos, grid =>
    let grid := update grid dstPos (grid srcPos)
    match target.walkInBounds dstPos delta with
    | (dstPos, true) => copyCells source target delta fuel (source.walkInBounds srcPos delta).1 dstPos grid
    | (_, false) => some grid

end Viewport

section

variable (view : Viewport) (pos : Point) (delta : Int)

structure WalkLaws : Prop where
  inside : view.isInExclusiveBounds (view.walkInExclusiveBounds pos delta).1 = true
  reports : (view.walkInExclusiveBounds pos delta).2 = true ↔ ∃ target, view.isInExclusiveBounds target = true ∧
    view.exclusiveOffset target = view.exclusiveOffset pos + delta
  undone : (view.walkInExclusiveBounds pos delta).2 = true →
    view.walkInExclusiveBounds (view.walkInExclusiveBounds pos delta).1 (-delta) = (pos, true)
  compares : (view.walkInExclusiveBounds pos delta).2 = true →
    view.compareInExclusiveBounds (view.walkInExclusiveBounds pos delta).1 pos = delta

variable {view pos delta} {target : Point}

theorem exclusive_bounds_iff : view.isInExclusiveBounds pos = true ↔
    view.left ≤ pos.x ∧ pos.x ≤ view.right + 1 ∧ view.top ≤ pos.y ∧ pos.y ≤ view.bottom := decide_eq_true_iff

variable (inside : view.isInExclusiveBounds pos = true)

include inside

theorem exclusive_size : 0 < view.right - view.left + 2 ∧ max 0 (view.right - view.left + 2) = view.right - view.left + 2 ∧
    view.height = view.bottom - view.top + 1 ∧ view.width = view.right - view.left + 1 := by
  have bounds := exclusive_bounds_iff.mp inside
  simp only [height, width]
  omega

theorem exclusive_offset_lt : view.exclusiveOffset pos < (view.right - view.left + 2) * (view.bottom - view.top + 1) := by
  have bounds := exclusive_bounds_iff.mp inside
  have below := Int.mul_le_mul_of_nonneg_left (show pos.y - view.top + 1 ≤ view.bottom - view.top + 1 by omega)
    (show 0 ≤ view.right - view.left + 2 by omega)
  rw [Int.mul_add] at below
  rw [exclusiveOffset]
  omega

theorem exclusive_offset_reached (first : 0 ≤ offset)
    (last : offset < (view.right - view.left + 2) * (view.bottom - view.top + 1)) :
    ∃ target, view.isInExclusiveBounds target = true ∧ view.exclusiveOffset target = offset := by
  have wide := (exclusive_size inside).1
  refine ⟨⟨offset % (view.right - view.left + 2) + view.left, offset / (view.right - view.left + 2) + view.top⟩, ?_, ?_⟩
  · have column := emod_nonneg offset (by omega : view.right - view.left + 2 ≠ 0)
    have columnLt := emod_lt_of_pos offset wide
    have row := ediv_nonneg first (by omega : 0 ≤ view.right - view.left + 2)
    have rowLt := Int.ediv_lt_of_lt_mul wide (by rwa [Int.mul_comm])
    exact exclusive_bounds_iff.mpr (by dsimp only; omega)
  · have split := Int.mul_ediv_add_emod offset (view.right - view.left + 2)
    simp only [exclusiveOffset, Int.add_sub_cancel]
    exact split

theorem walk_to_target (isTarget : view.isInExclusiveBounds target = true)
    (moved : view.exclusiveOffset target = view.exclusiveOffset pos + delta) :
    view.walkInExclusiveBounds pos delta = (target, true) := by
  obtain ⟨_, isWidth, isHeight, _⟩ := exclusive_size inside
  have limited := exclusive_offset_lt isTarget
  have bounds := exclusive_bounds_iff.mp isTarget
  rw [exclusiveOffset] at limited
  rw [walkInExclusiveBounds, isWidth, isHeight]
  exact walk_reaches (by omega) (by omega) (by omega) moved.symm (by omega)

-- CompareInExclusiveBounds counts a row without its exclusive end.
theorem laws_at_target (isTarget : view.isInExclusiveBounds target = true)
    (moved : view.exclusiveOffset target = view.exclusiveOffset pos + delta) : WalkLaws view pos delta ↔ target.y = pos.y := by
  have walked := walk_to_target inside isTarget moved
  have back : view.walkInExclusiveBounds target (-delta) = (pos, true) := walk_to_target isTarget inside (by omega)
  have compared : view.compareInExclusiveBounds target pos = delta - (target.y - pos.y) := by
    rw [exclusiveOffset, exclusiveOffset] at moved
    rw [compareInExclusiveBounds, (exclusive_size inside).2.2.2]
    simp only [Int.mul_add, Int.mul_sub, Int.mul_comm] at moved ⊢
    omega
  constructor
  · intro laws
    have compares := laws.compares (by rw [walked])
    rw [walked, compared] at compares
    omega
  · intro level
    refine ⟨by rwa [walked], ?_, ?_, ?_⟩
    · rw [walked]
      exact iff_of_true rfl ⟨target, isTarget, moved⟩
    · intro _
      rwa [walked]
    · intro _
      rw [walked, compared]
      omega

theorem walk_outside (outside : view.exclusiveOffset pos + delta < 0 ∨
      (view.right - view.left + 2) * (view.bottom - view.top + 1) ≤ view.exclusiveOffset pos + delta) :
    WalkLaws view pos delta ↔ view.exclusiveOffset pos + delta < 0 := by
  obtain ⟨wide, isWidth, isHeight, _⟩ := exclusive_size inside
  have bounds := exclusive_bounds_iff.mp inside
  have none : ¬ ∃ target, view.isInExclusiveBounds target = true ∧
    view.exclusiveOffset target = view.exclusiveOffset pos + delta := by
    rintro ⟨target, isTarget, moved⟩
    have last := exclusive_offset_lt isTarget
    have columns := exclusive_bounds_iff.mp isTarget
    have first : 0 ≤ (view.right - view.left + 2) * (target.y - view.top) := Int.mul_nonneg (by omega) (by omega)
    rw [exclusiveOffset] at moved last
    omega
  by_cases before : view.exclusiveOffset pos + delta < 0
  · have walked : view.walkInExclusiveBounds pos delta = (view.origin, false) := by
      rw [exclusiveOffset] at before
      simp [walkInExclusiveBounds, walk, isWidth, clamp, before, origin]
      omega
    refine iff_of_true ⟨?_, ?_, ?_, ?_⟩ before
    · rw [walked]
      exact exclusive_bounds_iff.mpr (by simp only [origin]; omega)
    · rw [walked]
      exact iff_of_false Bool.false_ne_true none
    all_goals
      intro reported
      rw [walked] at reported
      cases reported
  · refine iff_of_false (fun laws => ?_) before
    have row := (exclusive_bounds_iff.mp laws.inside).2.2.2
    have last : clamp (view.exclusiveOffset pos + delta) 0 ((view.right - view.left + 2) * (view.bottom - view.top + 1)) =
        (view.right - view.left + 2) * (view.bottom - view.top + 1) := by
      rw [clamp, if_neg before]
      split <;> omega
    rw [exclusiveOffset] at last
    simp only [walkInExclusiveBounds, walk, isWidth, isHeight, last, Int.mul_ediv_cancel_left _ (Int.ne_of_gt wide)] at row
    omega

end

theorem walk_laws_iff (view : Viewport) (pos : Point) (delta : Int) (inside : view.isInExclusiveBounds pos = true) :
    WalkLaws view pos delta ↔
      (view.left ≤ pos.x + delta ∧ pos.x + delta ≤ view.rightExclusive) ∨ view.exclusiveOffset pos + delta < 0 := by
  constructor
  · intro laws
    by_cases within : 0 ≤ view.exclusiveOffset pos + delta ∧
        view.exclusiveOffset pos + delta < (view.right - view.left + 2) * (view.bottom - view.top + 1)
    · obtain ⟨target, isTarget, moved⟩ := exclusive_offset_reached inside within.1 within.2
      have columns := exclusive_bounds_iff.mp isTarget
      have level := (laws_at_target inside isTarget moved).mp laws
      rw [exclusiveOffset, exclusiveOffset, level] at moved
      exact .inl (by simp only [rightExclusive]; omega)
    · exact .inr ((walk_outside inside (by omega)).mp laws)
  · rintro (row | before)
    · have bounds := exclusive_bounds_iff.mp inside
      simp only [rightExclusive] at row
      have isTarget : view.isInExclusiveBounds ⟨pos.x + delta, pos.y⟩ = true :=
        exclusive_bounds_iff.mpr (by dsimp only; omega)
      exact (laws_at_target inside isTarget (by simp only [exclusiveOffset]; omega)).mpr rfl
    · exact (walk_outside inside (.inl before)).mpr before

theorem walk_laws_row : WalkLaws ⟨0, 0, 9, 4⟩ ⟨3, 1⟩ 7 :=
  (walk_laws_iff ⟨0, 0, 9, 4⟩ ⟨3, 1⟩ 7 (by decide)).mpr (by decide)

-- From the end of the first row to the second one, and from the last place to behind it.
theorem walk_laws_broken :
    walkInExclusiveBounds ⟨0, 0, 9, 4⟩ ⟨10, 0⟩ 1 = (⟨0, 1⟩, true) ∧
    compareInExclusiveBounds ⟨0, 0, 9, 4⟩ ⟨0, 1⟩ ⟨10, 0⟩ = 0 ∧
      walkInExclusiveBounds ⟨0, 0, 9, 4⟩ ⟨10, 4⟩ 1 = (⟨0, 5⟩, true) ∧
      isInExclusiveBounds ⟨0, 0, 9, 4⟩ ⟨0, 5⟩ = false := by
  decide

section

structure Subtracts (original removeMe : Viewport) (parts : List Viewport) : Prop where
  valid : ∀ part ∈ parts, part.isValid = true
  disjoint : parts.Pairwise fun first second => ∀ pos, ¬ (first.Contains pos ∧ second.Contains pos)
  inside : ∀ part ∈ parts, ∀ pos, part.Contains pos → original.Contains pos
  cells : ∀ pos, (∃ part ∈ parts, part.Contains pos) ↔ original.Contains pos ∧ ¬ removeMe.Contains pos

variable (original removeMe : Viewport)

theorem valid_iff (view : Viewport) :
    view.isValid = true ↔ 0 ≤ view.left ∧ 0 ≤ view.top ∧ view.left ≤ view.right ∧ view.top ≤ view.bottom :=
    decide_eq_true_iff

theorem subtracts_filter {parts : List Viewport} (corner : ∀ part ∈ parts, 0 ≤ part.left ∧ 0 ≤ part.top)
    (disjoint : parts.Pairwise fun first second => ∀ pos, ¬ (first.Contains pos ∧ second.Contains pos))
    (cells : ∀ pos, (∃ part ∈ parts, part.Contains pos) ↔ original.Contains pos ∧ ¬ removeMe.Contains pos) :
    Subtracts original removeMe (parts.filter isValid) := by
  have same (pos : Point) : (∃ part ∈ parts.filter isValid, part.Contains pos) ↔ ∃ part ∈ parts, part.Contains pos := by
    constructor
    · rintro ⟨part, member, contains⟩
      exact ⟨part, (List.mem_filter.mp member).1, contains⟩
    · rintro ⟨part, member, contains⟩
      have bounds := corner part member
      have area : part.left ≤ part.right ∧ part.top ≤ part.bottom := by
        simp only [Contains] at contains
        omega
      exact ⟨part, List.mem_filter.mpr ⟨member, (valid_iff part).mpr ⟨bounds.1, bounds.2, area⟩⟩, contains⟩
  refine ⟨fun part member => (List.mem_filter.mp member).2, disjoint.filter _, ?_, fun pos => (same pos).trans (cells pos)⟩
  intro part member pos contains
  exact (((same pos).trans (cells pos)).mp ⟨part, member, contains⟩).1

theorem intersect_cases (valid : original.isValid = true) : ((intersect original removeMe).isValid = true ∧
      ∀ pos, (intersect original removeMe).Contains pos ↔ original.Contains pos ∧ removeMe.Contains pos) ∨
    ((intersect original removeMe).isValid = false ∧ ∀ pos, ¬ (original.Contains pos ∧ removeMe.Contains pos)) := by
  have bounds := (valid_iff original).mp valid
  rw [intersect]
  split
  · rename_i apart
    rw [Bool.not_eq_true', ← Bool.not_eq_true, valid_iff] at apart
    refine .inr ⟨by decide, fun pos => ?_⟩
    simp only [Contains]
    dsimp only at apart
    omega
  · rename_i common
    refine .inl ⟨by rwa [Bool.not_eq_true', Bool.not_eq_false] at common, fun pos => ?_⟩
    simp only [Contains]
    omega

theorem contains_corners {view other : Viewport} (valid : view.isValid = true)
    (inside : ∀ pos, view.Contains pos → other.Contains pos) :
    other.left ≤ view.left ∧ other.top ≤ view.top ∧ view.right ≤ other.right ∧ view.bottom ≤ other.bottom := by
  have bounds := (valid_iff view).mp valid
  have first := inside ⟨view.left, view.top⟩ (by simp only [Contains]; omega)
  have last := inside ⟨view.right, view.bottom⟩ (by simp only [Contains]; omega)
  exact ⟨first.1, first.2.2.1, last.2.1, last.2.2.2⟩

theorem subtract_valid (valid : original.isValid = true) : Subtracts original removeMe (subtract original removeMe) := by
  have bounds := (valid_iff original).mp valid
  rw [subtract, if_neg (by rw [valid]; decide)]
  rcases intersect_cases original removeMe valid with ⟨common, both⟩ | ⟨apart, both⟩
  · rw [if_neg (by rw [common]; decide)]
    generalize intersect original removeMe = shared at common both
    have corners := contains_corners common (fun pos contains => ((both pos).mp contains).1)
    have area := (valid_iff shared).mp common
    have outside (pos : Point) : original.Contains pos ∧ ¬ removeMe.Contains pos ↔ original.Contains pos ∧
      ¬ shared.Contains pos := by
      have iff := both pos
      tauto
    split
    · apply subtracts_filter
      · simp only [List.mem_cons, List.not_mem_nil, or_false, forall_eq_or_imp, forall_eq]
        omega
      · simp only [List.pairwise_cons, List.forall_mem_cons, Contains]
        refine ⟨⟨?_, ?_, ?_, by simp⟩, ⟨?_, ?_, by simp⟩, ⟨?_, by simp⟩, by simp⟩ <;> intro pos <;> omega
      · intro pos
        rw [outside]
        simp only [List.mem_cons, List.not_mem_nil, or_false, exists_eq_or_imp, exists_eq_left, Contains]
        omega
    · rename_i whole
      rw [ne_eq, not_not] at whole
      refine ⟨by simp, List.Pairwise.nil, by simp, fun pos => ?_⟩
      rw [outside, whole]
      exact iff_of_false (by simp) (fun left => left.2 left.1)
  · have kept : [original].filter isValid = [original] := List.filter_cons_of_pos valid
    rw [if_pos (by rw [apart]; rfl), ← kept]
    apply subtracts_filter
    · intro part member
      rw [List.mem_singleton.mp member]
      omega
    · exact List.pairwise_singleton _ _
    · intro pos
      simp only [List.mem_singleton, exists_eq_left]
      have iff := both pos
      tauto

theorem subtract_iff : Subtracts original removeMe (subtract original removeMe) ↔
    original.isValid = true ∨ ∀ pos, original.Contains pos → removeMe.Contains pos := by
  by_cases valid : original.isValid = true
  · exact iff_of_true (subtract_valid original removeMe valid) (.inl valid)
  have nothing : subtract original removeMe = [] := by rw [subtract, if_pos (by rw [Bool.eq_false_iff.mpr valid]; rfl)]
  rw [nothing, or_iff_right valid]
  constructor
  · intro subtracts pos contains
    by_contra kept
    obtain ⟨part, member, _⟩ := (subtracts.cells pos).mpr ⟨contains, kept⟩
    cases member
  · intro covered
    refine ⟨by simp, List.Pairwise.nil, by simp, fun pos => ?_⟩
    exact iff_of_false (by simp) (fun left => left.2 (covered pos left.1))

-- IsValid asks for coordinates that are not negative.
theorem subtract_loses_cells : subtract ⟨-1, 0, 1, 0⟩ ⟨5, 5, 6, 6⟩ = [] ∧ Contains ⟨-1, 0, 1, 0⟩ ⟨0, 0⟩ ∧
    ¬ Contains ⟨5, 5, 6, 6⟩ ⟨0, 0⟩ := by
  decide

end

section

variable {Cell : Type} {source target : Viewport} (filled : source.Filled) (sameWidth : target.width = source.width)
  (sameHeight : target.height = source.height)

def Viewport.shifted (source target : Viewport) (pos : Point) : Point :=
  ⟨pos.x - target.left + source.left, pos.y - target.top + source.top⟩

structure CopiedPlaces (source target : Viewport) (delta : Int) (grid : Point → Cell) (count : Nat) (copied : Point → Cell) :
    Prop where
  places : ∀ step < count, copied (target.walked delta step) = grid (source.walked delta step)
  others : ∀ pos, (∀ step < count, pos ≠ target.walked delta step) → copied pos = grid pos

theorem walk_direction : determineWalkDirection source target = 1 ∨ determineWalkDirection source target = -1 := by
  rw [determineWalkDirection]
  split <;> simp

include sameWidth sameHeight

theorem same_count : target.count = source.count := by simp [count, sameWidth, sameHeight]

theorem walked_shifted (delta : Int) (step : Nat) :
    source.walked delta step = source.shifted target (target.walked delta step) := by
  simp [walked, Viewport.shifted, position, same_count sameWidth sameHeight, sameWidth]

include filled

theorem filled_target : target.Filled := by
  obtain ⟨_, _, wide, high⟩ := view_size source filled
  rw [← sameWidth, width] at wide
  rw [← sameHeight, height] at high
  exact ⟨by omega, by omega⟩

variable {delta : Int} (isDelta : determineWalkDirection source target = delta) {grid : Point → Cell}

include isDelta

variable {copied : Point → Cell} {count : Nat}

theorem copied_step (inside : count < source.count) (before : CopiedPlaces source target delta grid count copied) :
    CopiedPlaces source target delta grid (count + 1)
      (update copied (target.walked delta count) (copied (source.walked delta count))) := by
  have distinct (step : Nat) (earlier : step < count) : target.walked delta count ≠ target.walked delta step :=
    walked_distinct target delta earlier (by rwa [same_count sameWidth sameHeight])
  have read : copied (source.walked delta count) = grid (source.walked delta count) := by
    apply before.others
    intro step earlier
    by_cases apart : target.origin = source.origin
    · rw [walked_shifted sameWidth sameHeight]
      simp only [origin, Point.mk.injEq] at apart
      simp only [Viewport.shifted, apart, sub_add_cancel]
      exact distinct step earlier
    · rw [← isDelta]
      exact walks_ordered filled sameWidth sameHeight apart earlier inside
  refine ⟨fun step earlier => ?_, fun pos outside => ?_⟩
  · by_cases last : step = count
    · simp [last, read]
    · rw [update_of_ne (distinct step (by omega)).symm]
      exact before.places step (by omega)
  · rw [update_of_ne (outside count (by omega))]
    exact before.others pos (fun step earlier => outside step (by omega))

theorem copy_cells_places (left : count + fuel = source.count) (remains : 0 < fuel)
    (before : CopiedPlaces source target delta grid count copied) :
    ∃ final, copyCells source target delta fuel (source.walked delta count) (target.walked delta count) copied = some final ∧
      CopiedPlaces source target delta grid source.count final := by
  have direction := isDelta ▸ walk_direction
  induction fuel generalizing count copied with
  | zero => cases remains
  | succ fuel ih =>
    have next := copied_step filled sameWidth sameHeight isDelta (by omega) before
    rw [copyCells, walk_step source filled delta direction count (by omega),
      walk_step target (filled_target filled sameWidth sameHeight) delta direction count
        (by rw [same_count sameWidth sameHeight]; omega), same_count sameWidth sameHeight]
    by_cases more : count + 1 < source.count
    · rw [decide_eq_true more]
      exact ih (by omega) (by omega) next
    · rw [decide_eq_false more]
      have last : count + 1 = source.count := by omega
      exact ⟨_, rfl, last ▸ next⟩

end

theorem copy_cells_at_once {Cell : Type} (source target : Viewport) (filled : source.Filled)
    (sameWidth : target.width = source.width) (sameHeight : target.height = source.height) (grid : Point → Cell) :
    let delta := determineWalkDirection source target
    copyCells source target delta source.count (source.getWalkOrigin delta) (target.getWalkOrigin delta) grid =
      some fun pos => if target.Contains pos then grid (source.shifted target pos) else grid pos := by
  intro delta
  have direction : delta = 1 ∨ delta = -1 := walk_direction
  have targetFilled := filled_target filled sameWidth sameHeight
  have started : CopiedPlaces source target delta grid 0 grid := ⟨by simp, fun _ _ => rfl⟩
  obtain ⟨final, isFinal, copied⟩ :=
    copy_cells_places filled sameWidth sameHeight rfl (Nat.zero_add _) (view_count source filled).2 started
  rw [walk_origin source filled delta direction, walk_origin target targetFilled delta direction, isFinal, Option.some.injEq]
  funext pos
  split
  · rename_i contains
    obtain ⟨step, inside, isPos⟩ := walked_covers target targetFilled delta contains
    rw [same_count sameWidth sameHeight] at inside
    rw [← isPos, copied.places step inside, walked_shifted sameWidth sameHeight]
  · rename_i outside
    apply copied.others
    rintro step _ rfl
    exact outside (walked_inside target targetFilled delta step)

theorem copy_cells_at_once_overlap :
    ∃ final, copyCells ⟨0, 0, 1, 1⟩ ⟨1, 0, 2, 1⟩ (-1) 4 ⟨1, 1⟩ ⟨2, 1⟩ (fun pos => pos) = some final ∧
    final ⟨2, 0⟩ = ⟨1, 0⟩ :=
  ⟨_, copy_cells_at_once ⟨0, 0, 1, 1⟩ ⟨1, 0, 2, 1⟩ ⟨by decide, by decide⟩ rfl rfl fun pos => pos, rfl⟩

end Cogterm.Types
