import Cogterm.Adapter.CopyRectangle

namespace Cogterm.VirtualTerminal

open Buffer Cogterm.Types Viewport

variable {first last offset maximum : Int}

-- One dimension of an area: the first and the last coordinate after clamping.
def startOf (first offset maximum : Int) : Int := min (first + offset) maximum

def stopOf (last offset maximum : Int) : Int := min (if last ≠ 0 then last + offset else maximum) maximum

def extent (first last offset maximum : Int) : Int := stopOf last offset maximum - startOf first offset maximum + 1

-- The coordinates that were asked for, as far as they are in the area.
def Chosen (first last offset maximum coordinate : Int) : Prop :=
  first + offset ≤ coordinate ∧ coordinate ≤ maximum ∧ (last ≠ 0 → coordinate ≤ last + offset)

def Orderly (first last offset maximum : Int) : Prop := first + offset ≤ maximum ∧ (last = 0 ∨ first ≤ last)

instance (first last offset maximum : Int) : Decidable (Orderly first last offset maximum) :=
  inferInstanceAs (Decidable (_ ∧ (_ ∨ _)))

-- A negative extent is not taken for the default, nor clamped to the last coordinate.
def TakesNone (extent dstFirst offset maximum : Int) : Prop :=
  extent ≤ 0 ∧ dstFirst + extent ≠ 1 ∧ dstFirst + extent - 1 + offset < maximum

instance (extent dstFirst offset maximum : Int) : Decidable (TakesNone extent dstFirst offset maximum) :=
  inferInstanceAs (Decidable (_ ∧ _ ∧ _))

theorem taken_iff (size dstFirst offset maximum : Int) :
    0 < extent dstFirst (dstFirst + size - 1) offset maximum ↔ ¬ TakesNone size dstFirst offset maximum := by
  simp only [extent, stopOf, startOf, TakesNone]
  split <;> omega

theorem chosen_extent (chosen : Chosen first last offset maximum coordinate) : 0 < extent first last offset maximum := by
  simp only [extent, stopOf, startOf]
  obtain ⟨atLeast, atMost, inside⟩ := chosen
  split <;> omega

theorem chosen_orderly (chosen : Chosen first last offset maximum coordinate) : Orderly first last offset maximum := by
  obtain ⟨atLeast, atMost, inside⟩ := chosen
  refine ⟨by omega, ?_⟩
  by_cases default : last = 0
  · exact .inl default
  · exact .inr (by omega)

theorem orderly_extent (orderly : Orderly first last offset maximum) : 0 < extent first last offset maximum := by
  obtain ⟨inside, order⟩ := orderly
  simp only [extent, stopOf, startOf]
  split <;> omega

theorem taken_bounds (offset maximum : Int) (positive : 1 ≤ dstFirst) (some : 0 < size) :
    0 < extent dstFirst (dstFirst + size - 1) offset maximum ∧ extent dstFirst (dstFirst + size - 1) offset maximum ≤ size ∧
      startOf dstFirst offset maximum + extent dstFirst (dstFirst + size - 1) offset maximum - 1 ≤ maximum := by
  simp only [extent, stopOf, startOf]
  split <;> omega

theorem chosen_span (orderly : Orderly first last offset maximum) (atLeast : startOf first offset maximum ≤ coordinate)
    (atMost : coordinate ≤ startOf first offset maximum + extent first last offset maximum - 1) :
    Chosen first last offset maximum coordinate := by
  obtain ⟨inside, order⟩ := orderly
  simp only [extent, stopOf, startOf] at atLeast atMost
  refine ⟨by omega, by omega, ?_⟩
  intro given
  omega

theorem target_span (coordinate : Int) (positive : 1 ≤ dstFirst)
    (orderly : Orderly first last offset maximum) (placed : dstFirst + dstOffset ≤ dstMaximum) :
    (dstOffset < coordinate ∧ coordinate ≤ dstMaximum ∧
        Chosen first last offset maximum (coordinate - (dstFirst + dstOffset) + (first + offset))) ↔
      startOf dstFirst dstOffset dstMaximum ≤ coordinate ∧ coordinate ≤ startOf dstFirst dstOffset dstMaximum +
        extent dstFirst (dstFirst + extent first last offset maximum - 1) dstOffset dstMaximum - 1 := by
  obtain ⟨inside, order⟩ := orderly
  have isSize : extent first last offset maximum =
      (if last ≠ 0 then min (last + offset) maximum else maximum) - (first + offset) + 1 := by
    rw [extent, stopOf, startOf]
    split <;> omega
  generalize extent first last offset maximum = size at *
  rw [extent, stopOf, startOf, if_pos (show dstFirst + size - 1 ≠ 0 by omega), Chosen]
  by_cases given : last = 0
  · omega
  · omega

variable {Attr : Type} [Inhabited Attr]

variable (src dst : Page) (s d : Bounds) (request : Request)

-- The cells of the source rectangle, clipped to the area of its page.
def Source (pos : Point) : Prop :=
  Chosen request.top request.bottom s.yOffset s.yMaximum (pos.y - src.top + 1) ∧
    Chosen request.left request.right s.xOffset s.xMaximum (pos.x + 1)

-- The cell that goes to a place, if the corners of the rectangles are put on each other.
def sourceOf (pos : Point) : Point :=
  ⟨pos.x - (request.dstLeft + d.xOffset) + (request.left + s.xOffset),
    pos.y - (request.dstTop + d.yOffset + dst.top) + (request.top + s.yOffset + src.top)⟩

-- The rectangle of the same size at the destination, clipped to the area there.
def Target (pos : Point) : Prop :=
  d.yOffset ≤ pos.y - dst.top ∧ pos.y - dst.top < d.yMaximum ∧ d.xOffset ≤ pos.x ∧ pos.x < d.xMaximum ∧
    Source src s request (sourceOf src dst s d request pos)

structure Exact (lines : Lines Attr) (result : CopyResult Attr) : Prop where
  returned : result.returned = true
  fits : result.fits = true
  reads : ∀ pos ∈ result.reads, Source src s request pos
  copies : ∀ pos, Target src dst s d request pos →
    result.lines.cell (placeOf dst pos) = lines.cell (placeOf src (sourceOf src dst s d request pos))
  keeps : ∀ place, (∀ pos, Target src dst s d request pos → place ≠ placeOf dst pos) →
    result.lines.cell place = lines.cell place
  inverted : (request.bottom ≠ 0 ∧ request.bottom < request.top) ∨
    (request.right ≠ 0 ∧ request.right < request.left) → result.lines.cell = lines.cell

-- The source rectangle has its corner in the area and is not inverted, and the
-- destination has its corner in the area.
def Placed : Prop :=
  Orderly request.top request.bottom s.yOffset s.yMaximum ∧ Orderly request.left request.right s.xOffset s.xMaximum ∧
    request.dstTop + d.yOffset ≤ d.yMaximum ∧ request.dstLeft + d.xOffset ≤ d.xMaximum

def sourceHeight : Int := extent request.top request.bottom s.yOffset s.yMaximum

def sourceWidth : Int := extent request.left request.right s.xOffset s.xMaximum

-- Nothing is copied: no row or no column is left of the source, or the
-- rectangles begin at the same place.
def Idle : Prop :=
  TakesNone (sourceHeight s request) request.dstTop d.yOffset d.yMaximum ∨
    TakesNone (sourceWidth s request) request.dstLeft d.xOffset d.xMaximum ∨
    (src.number = dst.number ∧ startOf request.top s.yOffset s.yMaximum = startOf request.dstTop d.yOffset d.yMaximum ∧
      startOf request.left s.xOffset s.xMaximum = startOf request.dstLeft d.xOffset d.xMaximum)

instance : Decidable (Placed s d request) := inferInstanceAs (Decidable (_ ∧ _ ∧ _ ∧ _))

instance : Decidable (Idle src dst s d request) := inferInstanceAs (Decidable (_ ∨ _ ∨ (_ ∧ _ ∧ _)))

def copyBetween (lines : Lines Attr) : CopyResult Attr :=
  let srcRect := s.rectArea src request.top request.left request.bottom request.right
  let dstRect := d.rectArea dst request.dstTop request.dstLeft (request.dstTop + srcRect.height - 1)
    (request.dstLeft + srcRect.width - 1)
  if dstRect.filled ∧ (dstRect.origin ≠ srcRect.origin ∨ src.number ≠ dst.number) then
    copyViews lines src dst (fromDimensions srcRect.origin dstRect.width dstRect.height)
      (fromDimensions dstRect.origin dstRect.width dstRect.height)
  else ⟨lines, [], true, true⟩

def takenHeight : Int := extent request.dstTop (request.dstTop + sourceHeight s request - 1) d.yOffset d.yMaximum

def takenWidth : Int := extent request.dstLeft (request.dstLeft + sourceWidth s request - 1) d.xOffset d.xMaximum

def srcView : Viewport :=
  fromDimensions ⟨startOf request.left s.xOffset s.xMaximum - 1, startOf request.top s.yOffset s.yMaximum - 1 + src.top⟩
    (takenWidth s d request) (takenHeight s d request)

def dstView : Viewport :=
  fromDimensions ⟨startOf request.dstLeft d.xOffset d.xMaximum - 1, startOf request.dstTop d.yOffset d.yMaximum - 1 + dst.top⟩
    (takenWidth s d request) (takenHeight s d request)

theorem rect_area_spans (page : Page) (top left bottom right : Int) : s.rectArea page top left bottom right =
      ⟨startOf left s.xOffset s.xMaximum - 1, startOf top s.yOffset s.yMaximum - 1 + page.top,
        stopOf right s.xOffset s.xMaximum, stopOf bottom s.yOffset s.yMaximum + page.top⟩ := by
  simp only [Bounds.rectArea, startOf, stopOf, Rect.mk.injEq, true_and]
  omega

theorem rect_area_size (page : Page) (top left bottom right : Int) :
    (s.rectArea page top left bottom right).height = extent top bottom s.yOffset s.yMaximum ∧
      (s.rectArea page top left bottom right).width = extent left right s.xOffset s.xMaximum := by
  rw [rect_area_spans]
  simp only [Rect.height, Rect.width, extent]
  omega

theorem rect_area_filled (validPage : page.Valid) (within : s.Within page) {top left : Int} (bottom right : Int)
    (fromTop : 1 ≤ top) (fromLeft : 1 ≤ left) : (s.rectArea page top left bottom right).filled = true ↔
      0 < extent top bottom s.yOffset s.yMaximum ∧ 0 < extent left right s.xOffset s.xMaximum := by
  obtain ⟨xOffset, columns, _, yOffset, rows, _⟩ := within
  have pageTop := validPage.top
  rw [rect_area_spans]
  simp only [Rect.filled, Bool.and_eq_true, decide_eq_true_eq, extent]
  have column : 1 ≤ startOf left s.xOffset s.xMaximum := by
    rw [startOf]
    omega
  have row : 1 ≤ startOf top s.yOffset s.yMaximum := by
    rw [startOf]
    omega
  omega

variable (validDst : dst.Valid) (within : d.Within dst) (valid : request.Valid) (same : src.number = dst.number → src = dst)

include validDst within valid same

theorem copy_between_cases (lines : Lines Attr) :
    copyBetween src dst s d request lines = if Idle src dst s d request then ⟨lines, [], true, true⟩
      else copyViews lines src dst (srcView src s d request) (dstView dst s d request) := by
  obtain ⟨height, width⟩ := rect_area_size s src request.top request.left request.bottom request.right
  obtain ⟨taken, takenColumns⟩ := rect_area_size d dst request.dstTop request.dstLeft
    (request.dstTop + sourceHeight s request - 1) (request.dstLeft + sourceWidth s request - 1)
  have filled := rect_area_filled d validDst within
    (request.dstTop + sourceHeight s request - 1) (request.dstLeft + sourceWidth s request - 1) valid.dstTop valid.dstLeft
  rw [taken_iff, taken_iff] at filled
  have origins : (d.rectArea dst request.dstTop request.dstLeft (request.dstTop + sourceHeight s request - 1)
      (request.dstLeft + sourceWidth s request - 1)).origin ≠
        (s.rectArea src request.top request.left request.bottom request.right).origin ∨ src.number ≠ dst.number ↔
      ¬ (src.number = dst.number ∧ startOf request.top s.yOffset s.yMaximum = startOf request.dstTop d.yOffset d.yMaximum ∧
        startOf request.left s.xOffset s.xMaximum = startOf request.dstLeft d.xOffset d.xMaximum) := by
    simp only [rect_area_spans, Rect.origin, ne_eq, Point.mk.injEq]
    by_cases number : src.number = dst.number
    · rw [same number]
      omega
    · simp [number]
  simp only [copyBetween, height, width, ← sourceHeight.eq_1, ← sourceWidth.eq_1]
  rw [taken, takenColumns]
  by_cases idle : Idle src dst s d request
  · rw [if_pos idle, if_neg]
    rintro ⟨isFilled, moves⟩
    rcases idle with noRows | noColumns | stays
    · exact (filled.mp isFilled).1 noRows
    · exact (filled.mp isFilled).2 noColumns
    · exact origins.mp moves stays
  · rw [if_neg idle, if_pos]
    · rfl
    · exact ⟨filled.mpr ⟨fun noRows => idle (.inl noRows), fun noColumns => idle (.inr (.inl noColumns))⟩,
        origins.mpr (fun stays => idle (.inr (.inr stays)))⟩

end Cogterm.VirtualTerminal
