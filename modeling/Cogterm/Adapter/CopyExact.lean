import Cogterm.Adapter.CopyAreas

namespace Cogterm.VirtualTerminal

open Buffer Cogterm.Types Viewport List

variable {Attr : Type} [Inhabited Attr]

section

variable {src dst : Page} {s d : Bounds} {request : Request} {lines : Lines Attr}

theorem idle_exact (same : src.number = dst.number → src = dst ∧ s = d) (idle : Idle src dst s d request) :
    Exact src dst s d request lines ⟨lines, [], true, true⟩ := by
  refine ⟨rfl, rfl, (fun _ member => nomatch member), ?_, fun _ _ => rfl, fun _ => rfl⟩
  rintro pos ⟨above, below, leftOf, rightOf, rows, columns⟩
  rcases idle with noRows | noColumns | ⟨number, sameRow, sameColumn⟩
  · have some := chosen_extent rows
    exact absurd noRows.1 (by rw [sourceHeight]; omega)
  · have some := chosen_extent columns
    exact absurd noColumns.1 (by rw [sourceWidth]; omega)
  · obtain ⟨rfl, rfl⟩ := same number
    have isPos : sourceOf src src s s request pos = pos := by
      obtain ⟨fromTop, toBottom, _⟩ := rows
      obtain ⟨fromLeft, toRight, _⟩ := columns
      simp only [sourceOf] at *
      simp only [startOf] at sameRow sameColumn
      cases pos
      simp only [Point.mk.injEq] at *
      omega
    rw [isPos]

theorem views_fit (validSrc : src.Valid) (validDst : dst.Valid) (withinSrc : s.Within src) (withinDst : d.Within dst)
    (valid : request.Valid) (same : src.number = dst.number → src = dst ∧ s = d)
    (busy : ¬ Idle src dst s d request) (someRows : 0 < sourceHeight s request) (someColumns : 0 < sourceWidth s request) :
    Fits src dst (srcView src s d request) (dstView dst s d request) := by
  obtain ⟨highTaken, highLess, highInside⟩ := taken_bounds d.yOffset d.yMaximum valid.dstTop someRows
  obtain ⟨wideTaken, wideLess, wideInside⟩ := taken_bounds d.xOffset d.xMaximum valid.dstLeft someColumns
  rw [← takenHeight.eq_1] at highTaken highLess highInside
  rw [← takenWidth.eq_1] at wideTaken wideLess wideInside
  have rowsInside : startOf request.top s.yOffset s.yMaximum + sourceHeight s request - 1 ≤ s.yMaximum := by
    rw [sourceHeight, extent, stopOf]
    omega
  have columnsInside : startOf request.left s.xOffset s.xMaximum + sourceWidth s request - 1 ≤ s.xMaximum := by
    rw [sourceWidth, extent, stopOf]
    omega
  have starts : 1 ≤ startOf request.top s.yOffset s.yMaximum ∧ 1 ≤ startOf request.left s.xOffset s.xMaximum ∧
      1 ≤ startOf request.dstTop d.yOffset d.yMaximum ∧ 1 ≤ startOf request.dstLeft d.xOffset d.xMaximum := by
    obtain ⟨top, left, _, _, dstTop, dstLeft⟩ := valid
    obtain ⟨_, _, _, _, _, _⟩ := withinSrc
    obtain ⟨_, _, _, _, _, _⟩ := withinDst
    simp only [startOf]
    omega
  have heights : src.height = src.bottom - src.top ∧ dst.height = dst.bottom - dst.top := ⟨rfl, rfl⟩
  have filledSrc : (srcView src s d request).Filled := by
    constructor <;> simp only [srcView, fromDimensions] <;> omega
  have filledDst : (dstView dst s d request).Filled := by
    constructor <;> simp only [dstView, fromDimensions] <;> omega
  refine ⟨filledSrc, filledDst, ?_, ?_, ?_, ?_, ?_⟩
  · rw [(view_size _ filledSrc).1, (view_size _ filledDst).1]
    simp only [srcView, dstView, fromDimensions]
    omega
  · rw [(view_size _ filledSrc).2.1, (view_size _ filledDst).2.1]
    simp only [srcView, dstView, fromDimensions]
    omega
  · obtain ⟨_, _, xMaximum, _, _, yMaximum⟩ := withinSrc
    obtain ⟨_, top, _, bottom⟩ := validSrc
    simp only [InsideBuffer, srcView, fromDimensions]
    omega
  · obtain ⟨_, _, xMaximum, _, _, yMaximum⟩ := withinDst
    obtain ⟨_, top, _, bottom⟩ := validDst
    simp only [InsideBuffer, dstView, fromDimensions]
    omega
  · by_cases number : src.number = dst.number
    · left
      intro origins
      simp only [origin, srcView, dstView, fromDimensions, Point.mk.injEq, (same number).1] at origins
      refine busy (.inr (.inr ⟨number, ?_, ?_⟩)) <;> omega
    · exact .inr number

section

variable (valid : request.Valid) (rows : Orderly request.top request.bottom s.yOffset s.yMaximum)
  (columns : Orderly request.left request.right s.xOffset s.xMaximum)

include valid rows columns

theorem orderly_reads (contains : (srcView src s d request).Contains pos) : Source src s request pos := by
  obtain ⟨fromLeft, toRight, fromTop, toBottom⟩ := contains
  have high := (taken_bounds d.yOffset d.yMaximum valid.dstTop (orderly_extent rows)).2.1
  have wide := (taken_bounds d.xOffset d.xMaximum valid.dstLeft (orderly_extent columns)).2.1
  simp only [srcView, fromDimensions, takenHeight, takenWidth, sourceHeight, sourceWidth] at fromLeft toRight fromTop toBottom
  exact ⟨chosen_span rows (by omega) (by omega), chosen_span columns (by omega) (by omega)⟩

variable (dstTop : request.dstTop + d.yOffset ≤ d.yMaximum) (dstLeft : request.dstLeft + d.xOffset ≤ d.xMaximum)

include dstTop dstLeft

theorem target_view (pos : Point) : Target src dst s d request pos ↔ (dstView dst s d request).Contains pos := by
  have vertical := target_span (pos.y - dst.top + 1) valid.dstTop rows dstTop
  have horizontal := target_span (pos.x + 1) valid.dstLeft columns dstLeft
  have isRow : (sourceOf src dst s d request pos).y - src.top + 1 =
      pos.y - dst.top + 1 - (request.dstTop + d.yOffset) + (request.top + s.yOffset) := by
    simp only [sourceOf]
    omega
  have isColumn : (sourceOf src dst s d request pos).x + 1 =
      pos.x + 1 - (request.dstLeft + d.xOffset) + (request.left + s.xOffset) := by
    simp only [sourceOf]
    omega
  rw [← sourceHeight.eq_1, ← takenHeight.eq_1, ← isRow] at vertical
  rw [← sourceWidth.eq_1, ← takenWidth.eq_1, ← isColumn] at horizontal
  simp only [Contains, dstView, fromDimensions]
  constructor
  · rintro ⟨above, below, leftOf, rightOf, chosenRow, chosenColumn⟩
    have spanned := vertical.mp ⟨by omega, by omega, chosenRow⟩
    have spannedColumn := horizontal.mp ⟨by omega, by omega, chosenColumn⟩
    omega
  · rintro ⟨fromLeft, toRight, fromTop, toBottom⟩
    obtain ⟨above, below, chosenRow⟩ := vertical.mpr ⟨by omega, by omega⟩
    obtain ⟨leftOf, rightOf, chosenColumn⟩ := horizontal.mpr ⟨by omega, by omega⟩
    exact ⟨by omega, by omega, by omega, by omega, chosenRow, chosenColumn⟩

omit valid in
theorem shift_back_source (pos : Point) :
    shiftBack (srcView src s d request) (dstView dst s d request) pos = sourceOf src dst s d request pos := by
  have top := rows.1
  have left := columns.1
  simp only [shiftBack, srcView, dstView, fromDimensions, sourceOf, startOf, Point.mk.injEq]
  omega

end

-- The corner of a destination that is outside of the area is clamped. What is
-- copied there has to be there already.
def Unmoved (src dst : Page) (s d : Bounds) (request : Request) (lines : Lines Attr) : Prop :=
  Orderly request.top request.bottom s.yOffset s.yMaximum ∧ Orderly request.left request.right s.xOffset s.xMaximum ∧
    ∀ pos, (dstView dst s d request).Contains pos → lines.cell (placeOf dst pos) =
      lines.cell (placeOf src (shiftBack (srcView src s d request) (dstView dst s d request) pos))

theorem orderly_exact_iff (valid : request.Valid) (rows : Orderly request.top request.bottom s.yOffset s.yMaximum)
    (columns : Orderly request.left request.right s.xOffset s.xMaximum) {result : CopyResult Attr}
    (copied : CopiesView src dst (srcView src s d request) (dstView dst s d request) lines result) :
    Exact src dst s d request lines result ↔
      (Placed s d request ∨ Unmoved src dst s d request lines) ∧ result.fits = true := by
  have reads : ∀ pos ∈ result.reads, Source src s request pos := fun pos member =>
    orderly_reads valid rows columns (copied.reads pos member)
  have upright : ¬ ((request.bottom ≠ 0 ∧ request.bottom < request.top) ∨
    (request.right ≠ 0 ∧ request.right < request.left)) := by
    have ordered := rows.2
    have orderedColumns := columns.2
    omega
  by_cases inside : request.dstTop + d.yOffset ≤ d.yMaximum ∧ request.dstLeft + d.xOffset ≤ d.xMaximum
  · have target (pos : Point) : Target src dst s d request pos ↔ (dstView dst s d request).Contains pos :=
      target_view valid rows columns inside.1 inside.2 pos
    refine ⟨fun exactly => ⟨.inl ⟨rows, columns, inside⟩, exactly.fits⟩, fun condition => ?_⟩
    refine ⟨copied.returned, condition.2, reads, fun pos isTarget => ?_, fun place untouched => ?_,
      fun inverted => absurd inverted upright⟩
    · rw [copied.copies pos ((target pos).mp isTarget), shift_back_source rows columns inside.1 inside.2]
    · exact copied.keeps place (fun pos contains => untouched pos ((target pos).mpr contains))
  · have nowhere : ∀ pos, ¬ Target src dst s d request pos := by
      rintro pos ⟨above, below, leftOf, rightOf, chosenRow, chosenColumn⟩
      have fromTop := chosenRow.1
      have fromLeft := chosenColumn.1
      simp only [sourceOf] at fromTop fromLeft
      omega
    constructor
    · intro exactly
      refine ⟨.inr ⟨rows, columns, fun pos contains => ?_⟩, exactly.fits⟩
      rw [← copied.copies pos contains]
      exact (exactly.keeps _ (fun pos isTarget => absurd isTarget (nowhere pos))).symm
    · rintro ⟨placed | ⟨_, _, unmoved⟩, fits⟩
      · exact absurd placed.2.2 inside
      refine ⟨copied.returned, fits, reads, fun pos isTarget => absurd isTarget (nowhere pos), fun place _ => ?_,
        fun inverted => absurd inverted upright⟩
      by_cases written : ∃ pos, (dstView dst s d request).Contains pos ∧ place = placeOf dst pos
      · obtain ⟨pos, contains, rfl⟩ := written
        rw [copied.copies pos contains, unmoved pos contains]
      · exact copied.keeps place (fun pos contains same => written ⟨pos, contains, same⟩)

end

theorem copy_loop_reads {srcView dstView : Viewport} {delta : Int} {fuel : Nat} (state : CopyState Attr)
    {pos : Point} (read : pos ∈ state.reads) : pos ∈ (copyLoop src dst srcView dstView delta fuel state).1.reads := by
  induction fuel generalizing state with
  | zero => exact read
  | succ fuel ih =>
    have kept : pos ∈ (copyStep src dst srcView dstView delta state).1.reads := by
      simp only [copyStep]
      cases state.lines.getCellDataAt src (srcView.walkInBounds state.srcPos delta).1 with
      | none => exact mem_append_left _ read
      | some next => exact mem_append_left _ read
    rw [copyLoop]
    generalize copyStep src dst srcView dstView delta state = stepped at kept
    obtain ⟨next, more⟩ := stepped
    cases more with
    | none => exact kept
    | some goes =>
      cases goes with
      | false => exact kept
      | true => exact ih next kept

theorem copy_views_reads (src dst : Page) (srcView dstView : Viewport) (lines : Lines Attr) :
    ∃ pos, pos ∈ (copyViews lines src dst srcView dstView).reads := by
  refine ⟨srcView.getWalkOrigin (determineWalkDirection srcView dstView), ?_⟩
  simp only [copyViews]
  cases lines.getCellDataAt src (srcView.getWalkOrigin (determineWalkDirection srcView dstView)) with
  | none => exact mem_singleton_self _
  | some next => exact copy_loop_reads _ (mem_singleton_self _)

section

variable (screen : Screen) (validScreen : screen.Valid) (margins : Margins) (validMargins : margins.Valid) (originMode : Bool)
  (request : Request) (valid : request.Valid)

def sourceBounds : Bounds := (rectBounds margins originMode (screen.get request.page)).2

-- The margins may have been reset for the page of the source.
def targetBounds : Bounds :=
  (rectBounds (rectBounds margins originMode (screen.get request.page)).1 originMode (screen.get request.dstPage)).2

end

def smallScreen : Screen := ⟨true, 1, ⟨0, 0, 2, 3⟩, 2, 3⟩

def lettered : Lines TextAttribute := fun _ y =>
  ⟨replicate 2 (Glyph.ofChar (0x41 + .ofNat y.toNat)), replicate 2 default, .singleWidth⟩

theorem lettered_plain : lettered.Plain smallScreen := by
  intro pageNumber y _ _
  have width : (smallScreen.get pageNumber).width = 2 := by
    rw [Screen.get, if_neg (by decide)]
    split <;> rfl
  rw [width]
  exact ⟨fun glyph member => by rw [eq_of_mem_replicate member]; rfl, rfl, rfl, rfl⟩

end Cogterm.VirtualTerminal
