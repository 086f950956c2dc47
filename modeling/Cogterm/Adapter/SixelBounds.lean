import Cogterm.Adapter.SixelParser

namespace Cogterm.VirtualTerminal

open Buffer Cogterm.Types Int Nat List

variable {pans : Nat → Bool}

namespace SixelParser

structure Ready (parser : SixelParser) : Prop where
  left : 0 ≤ parser.imageCursor.x
  right : parser.imageCursor.x ≤ parser.imageMaxWidth
  above : 0 ≤ parser.imageCursor.y
  room : (parser.imageCursor.y + parser.sixelHeight) * parser.imageMaxWidth ≤ parser.imageSize

instance (parser : SixelParser) : Decidable parser.Ready :=
  decidable_of_iff (0 ≤ parser.imageCursor.x ∧ parser.imageCursor.x ≤ parser.imageMaxWidth ∧
    0 ≤ parser.imageCursor.y ∧ (parser.imageCursor.y + parser.sixelHeight) * parser.imageMaxWidth ≤ parser.imageSize)
    ⟨fun ⟨left, right, above, room⟩ => ⟨left, right, above, room⟩,
      fun ⟨left, right, above, room⟩ => ⟨left, right, above, room⟩⟩

-- The invariant of the parser. Between the scroll and the step down of a next
-- line the cursor may be above the image by the spare pixels. The reach says
-- that the bottom margin is not below the pixels counted as available.
structure Sound (spare : Int) (parser : SixelParser) : Prop where
  left : 0 ≤ parser.imageCursor.x
  right : parser.imageCursor.x ≤ parser.imageMaxWidth
  above : -spare ≤ parser.imageCursor.y
  room : (parser.imageCursor.y + parser.sixelHeight) * parser.imageMaxWidth ≤ parser.imageSize
  wide : 0 < parser.imageMaxWidth
  spared : spare < parser.sixelHeight
  segment : parser.sixelHeight ≤ parser.segmentHeight
  ratio : 1 ≤ parser.maxPixelAspectRatio
  rows : parser.textMargins.top < parser.textMargins.bottom
  page : parser.page.top ≤ parser.textMargins.top
  level : parser.conformanceLevel < 3 → parser.displayMode = true
  clamped : parser.displayMode = true → parser.pendingTextScrollCount = 0 ∧ parser.page.top ≤ parser.imageOriginCell.y
  pending : 0 ≤ parser.pendingTextScrollCount
  reach : parser.displayMode = false →
    (parser.textMargins.bottom - parser.imageOriginCell.y + parser.pendingTextScrollCount) * parser.cellSize.height ≤
      parser.imageCursor.y + parser.availablePixelHeight
  available : parser.displayMode = false → parser.availablePixelHeight ≤ parser.marginPixelHeight + spare ∨
    (parser.pendingTextScrollCount = 0 ∧ parser.page.top ≤ parser.imageOriginCell.y)

variable {parser : SixelParser}

theorem Sound.ready (sound : parser.Sound 0) : parser.Ready :=
  ⟨sound.left, sound.right, by simpa using sound.above, sound.room⟩

theorem Sound.weaken (sound : parser.Sound 0) (spare : Int) (nonneg : 0 ≤ spare) (less : spare < parser.sixelHeight) :
    parser.Sound spare := by
  refine { sound with above := ?_, spared := less, available := fun off => ?_ }
  · have above := sound.above
    omega
  · rcases sound.available off with fits | still
    · left
      omega
    · exact .inr still

theorem Sound.moving (sound : parser.Sound spare)
    (moves : parser.pendingTextScrollCount > 0 ∨ parser.imageOriginCell.y < parser.page.top) :
    parser.displayMode = false ∧ parser.availablePixelHeight ≤ parser.marginPixelHeight + spare := by
  cases mode : parser.displayMode with
  | true =>
    have still := sound.clamped mode
    omega
  | false =>
    refine ⟨rfl, ?_⟩
    rcases sound.available mode with fits | still
    · exact fits
    · omega

theorem to_size_nonneg (value : Int) (nonneg : 0 ≤ value) : (toSize value : Int) = value := by
  rw [toSize, if_neg (by omega)]
  omega

theorem le_to_size (value : Int) : value ≤ toSize value := by
  by_cases negative : value < 0
  · omega
  · rw [to_size_nonneg value (by omega)]

def Grown (parser grown : SixelParser) : Prop :=
  ∃ size width filled required, parser.imageSize ≤ size ∧
    grown = { parser with
      imageSize := size
      imageWidth := width
      filledBackgroundHeight := filled
      backgroundFillRequired := required }

theorem Grown.trans (first : Grown parser middle) (second : Grown middle grown) : Grown parser grown := by
  obtain ⟨size, width, filled, required, larger, rfl⟩ := first
  obtain ⟨size', width', filled', required', larger', rfl⟩ := second
  exact ⟨size', width', filled', required', le_trans larger larger', rfl⟩

theorem Grown.sound (grows : Grown parser grown) (sound : parser.Sound spare) : grown.Sound spare := by
  obtain ⟨size, width, filled, required, larger, rfl⟩ := grows
  exact { sound with room := le_trans sound.room (Int.ofNat_le.mpr larger) }

theorem resize_room (requiredHeight : Int) (parser : SixelParser) :
    ∃ size, parser.imageSize ≤ size ∧ parser.resizeImageBuffer requiredHeight = { parser with imageSize := size } ∧
      (parser.imageCursor.y + requiredHeight) * parser.imageMaxWidth ≤ size := by
  have required := le_to_size ((parser.imageCursor.y + requiredHeight) * parser.imageMaxWidth)
  simp only [resizeImageBuffer]
  by_cases more : toSize ((parser.imageCursor.y + requiredHeight) * parser.imageMaxWidth) > parser.imageSize
  · rw [if_pos more]
    exact ⟨_, le_of_lt more, rfl, required⟩
  · rw [if_neg more]
    exact ⟨parser.imageSize, Nat.le_refl _, rfl, le_trans required (Int.ofNat_le.mpr (Nat.le_of_not_lt more))⟩

theorem resize_grows (requiredHeight : Int) (parser : SixelParser) : Grown parser (parser.resizeImageBuffer requiredHeight) := by
  obtain ⟨size, larger, resized, _⟩ := resize_room requiredHeight parser
  rw [resized]
  exact ⟨size, _, _, _, larger, rfl⟩

theorem fill_rows_grows : Grown parser parser.fillImageBackgroundRows :=
  ⟨_, _, _, _, le_refl _, rfl⟩

theorem marked_grows (parser : SixelParser) (required : Bool) :
    Grown parser { parser with filledBackgroundHeight := filled, backgroundFillRequired := required } :=
  ⟨_, _, _, _, le_refl _, rfl⟩

theorem fill_when_scrolled_grows (parser : SixelParser) : Grown parser parser.fillImageBackgroundWhenScrolled := by
  rw [fillImageBackgroundWhenScrolled]
  cases parser.filledBackgroundHeight with
  | none => exact marked_grows parser _
  | some filled =>
    dsimp only
    split
    · exact ((marked_grows parser _).trans (resize_grows _ _)).trans fill_rows_grows
    · exact marked_grows parser _

theorem fill_grows (parser : SixelParser) : Grown parser parser.fillImageBackground := by
  rw [fillImageBackground]
  split
  · refine Grown.trans ?_ (fill_when_scrolled_grows _)
    refine Grown.trans ?_ (marked_grows _ _)
    exact ((marked_grows parser false).trans (resize_grows _ _)).trans fill_rows_grows
  · exact marked_grows parser _

theorem carriage_return_sound (spare : Int) (parser : SixelParser) (sound : parser.Sound spare) :
    parser.executeCarriageReturn.Sound spare :=
  { sound with left := le_refl 0, right := le_of_lt sound.wide }

-- The erased rows end above the cursor or in the spare pixels, and the rows
-- below them come to be where the origin says.
theorem erase_rows (rowCount rowOffset pending : Int)
    (sound : { parser with pendingTextScrollCount := pending }.Sound spare) (off : parser.displayMode = false)
    (fits : parser.availablePixelHeight ≤ parser.marginPixelHeight + spare) (count : 0 ≤ rowCount) (offset : 0 ≤ rowOffset)
    (ends : (rowOffset + rowCount) * parser.cellSize.height ≤ parser.imageCursor.y + spare) :
    ∃ filled size cursor, parser.eraseImageBufferRows rowCount rowOffset = { parser with
        filledBackgroundHeight := filled
        imageSize := size
        imageCursor := cursor } ∧
      ∀ origin left, 0 ≤ left → origin - left = parser.imageOriginCell.y + rowCount - pending → { parser with
        filledBackgroundHeight := filled
        imageSize := size
        imageCursor := cursor
        imageOriginCell := ⟨parser.imageOriginCell.x, origin⟩
        pendingTextScrollCount := left }.Sound spare := by
  have high : 0 ≤ parser.cellSize.height := le_trans (by decide) parser.cellSize.tall
  have wide := sound.wide
  have room := sound.room
  have less := sound.spared
  have reach := sound.reach off
  dsimp only at wide room less reach
  have counted := Int.mul_nonneg (Int.mul_nonneg count high) (Int.le_of_lt wide)
  have skipped := Int.mul_nonneg (Int.mul_nonneg offset high) (Int.le_of_lt wide)
  have before := Int.mul_lt_mul_of_pos_right (Int.lt_of_le_of_lt ends (Int.add_lt_add_left less _)) wide
  have fewer := Int.le_trans (Int.mul_le_mul_of_nonneg_right (Int.le_add_of_nonneg_left offset) high) ends
  rw [add_mul, add_mul] at before
  generalize isSkip : rowOffset * parser.cellSize.height * parser.imageMaxWidth = skip at *
  generalize isTaken : rowCount * parser.cellSize.height * parser.imageMaxWidth = taken at *
  have inside : ¬ toSize (skip + taken) ≥ parser.imageSize := by
    have value := to_size_nonneg (skip + taken) (by omega)
    omega
  refine ⟨(parser.decreaseFilledBackgroundHeight (rowCount * parser.cellSize.height)).filledBackgroundHeight,
    parser.imageSize - toSize (skip + taken - skip),
    ⟨parser.imageCursor.x, parser.imageCursor.y - rowCount * parser.cellSize.height⟩,
    ?_, fun origin left nonneg moved => ?_⟩
  · simp only [eraseImageBufferRows, isSkip, isTaken]
    rw [if_neg inside]
    rfl
  · refine { sound with
      above := ?_
      room := ?_
      clamped := fun on => absurd on (ne_true_of_eq_false off)
      pending := nonneg
      reach := fun _ => ?_
      available := fun _ => .inl fits }
    · dsimp only
      omega
    · have value := to_size_nonneg (skip + taken - skip) (by omega)
      have shorter : (parser.imageCursor.y - rowCount * parser.cellSize.height + parser.sixelHeight) * parser.imageMaxWidth =
          (parser.imageCursor.y + parser.sixelHeight) * parser.imageMaxWidth - taken := by
        rw [← isTaken, ← sub_mul]
        congr 1
        omega
      dsimp only
      omega
    · have kept : parser.textMargins.bottom - origin + left =
        parser.textMargins.bottom - parser.imageOriginCell.y + pending - rowCount := by
        omega
      dsimp only
      rw [kept, sub_mul]
      omega

section

variable {spare : Int}

theorem pan_margin_height : (parser.panDown panAmount).marginPixelHeight = parser.marginPixelHeight := by
  simp only [marginPixelHeight, panDown, Rect.height]
  congr 1
  omega

theorem pan_sound (panAmount : Nat) (sound : parser.Sound spare) (off : parser.displayMode = false)
    (fits : parser.availablePixelHeight ≤ parser.marginPixelHeight + spare)
    (most : (panAmount : Int) ≤ parser.pendingTextScrollCount) :
    { parser.panDown panAmount with pendingTextScrollCount := parser.pendingTextScrollCount - panAmount }.Sound spare := by
  refine { sound with
    rows := ?_
    page := ?_
    clamped := fun on => ?_
    pending := ?_
    reach := fun _ => ?_
    available := fun _ => ?_ }
  · have rows := sound.rows
    simp only [panDown]
    omega
  · have page := sound.page
    simp only [panDown]
    omega
  · exact absurd on (ne_true_of_eq_false off)
  · dsimp only
    omega
  · have reach := sound.reach off
    simp only [panDown]
    rwa [show parser.textMargins.bottom + (panAmount : Int) - parser.imageOriginCell.y +
      (parser.pendingTextScrollCount - panAmount) = parser.textMargins.bottom - parser.imageOriginCell.y +
        parser.pendingTextScrollCount by omega]
  · left
    rw [← pan_margin_height] at fits
    exact fits

theorem move_image_up_sound
    (sound : { parser with pendingTextScrollCount := movement }.Sound spare) (off : parser.displayMode = false)
    (fits : parser.availablePixelHeight ≤ parser.marginPixelHeight + spare) :
    { parser.moveImageUp movement with pendingTextScrollCount := 0 }.Sound spare := by
  have reach := sound.reach off
  simp only [moveImageUp]
  by_cases cut : parser.marginsConstrain ∧ movement > max (parser.imageOriginCell.y - parser.textMargins.top) 0
  · rw [if_pos cut]
    generalize isSpace : max (parser.imageOriginCell.y - parser.textMargins.top) 0 = space at cut
    generalize isOffset : max (parser.textMargins.top - parser.imageOriginCell.y) 0 = offset
    -- The erased rows end where the top margin comes to be in the image.
    have total : offset + (movement - space) = parser.textMargins.bottom - parser.imageOriginCell.y + movement -
        (parser.textMargins.bottom - parser.textMargins.top) := by
      omega
    have height : parser.availablePixelHeight ≤
      (parser.textMargins.bottom - parser.textMargins.top) * parser.cellSize.height + spare := fits
    dsimp only at reach
    obtain ⟨filled, size, cursor, erased, kept⟩ :=
      erase_rows (movement - space) offset movement sound off fits (by omega) (by omega) (by rw [total, sub_mul]; omega)
    rw [erased]
    exact kept _ 0 (le_refl 0) (by dsimp only; omega)
  · rw [if_neg cut]
    refine { sound with
      clamped := fun on => absurd on (ne_true_of_eq_false off)
      pending := le_refl 0
      reach := fun _ => ?_
      available := fun _ => .inl fits }
    rwa [show parser.textMargins.bottom - (parser.imageOriginCell.y - movement) + 0 =
      parser.textMargins.bottom - parser.imageOriginCell.y + movement by omega]

theorem scroll_pending_sound (sound : parser.Sound spare) : (parser.scrollPending pans).Sound spare := by
  rw [scrollPending]
  by_cases scrolls : parser.pendingTextScrollCount > 0
  · rw [if_pos scrolls]
    obtain ⟨off, fits⟩ := sound.moving (.inl scrolls)
    have most : ((List.range parser.pendingTextScrollCount.toNat).filter pans).length ≤
      parser.pendingTextScrollCount.toNat := by
      simpa using length_filter_le pans (List.range parser.pendingTextScrollCount.toNat)
    rw [scrollTextBuffer]
    generalize ((List.range parser.pendingTextScrollCount.toNat).filter pans).length = panAmount at most ⊢
    have panned := pan_sound panAmount sound off fits (by omega)
    have fitsPanned : (parser.panDown panAmount).availablePixelHeight ≤ (parser.panDown panAmount).marginPixelHeight +
      spare := by
      rw [pan_margin_height]
      exact fits
    split
    · exact move_image_up_sound panned off fitsPanned
    · rwa [show parser.pendingTextScrollCount - (panAmount : Int) = 0 by omega] at panned
  · rw [if_neg scrolls]
    exact sound

theorem delete_rendered_sound (sound : parser.Sound spare) : parser.deleteRendered.Sound spare := by
  rw [deleteRendered]
  by_cases passed : parser.imageWidth > 0 ∧ parser.imageOriginCell.y < parser.page.top
  · rw [if_pos passed]
    obtain ⟨off, fits⟩ := sound.moving (.inr passed.2)
    have reach := sound.reach off
    have page := sound.page
    have pending := sound.pending
    have height : parser.availablePixelHeight ≤
      (parser.textMargins.bottom - parser.textMargins.top) * parser.cellSize.height + spare := fits
    have most := Int.mul_le_mul_of_nonneg_right (c := parser.cellSize.height)
      (show 0 + (parser.page.top - parser.imageOriginCell.y) ≤
      parser.textMargins.bottom - parser.imageOriginCell.y + parser.pendingTextScrollCount -
        (parser.textMargins.bottom - parser.textMargins.top) by omega) (le_trans (by decide) parser.cellSize.tall)
    rw [sub_mul _ (parser.textMargins.bottom - parser.textMargins.top)] at most
    obtain ⟨filled, size, cursor, erased, kept⟩ := erase_rows (parser.page.top - parser.imageOriginCell.y) 0
      parser.pendingTextScrollCount sound off fits (by omega) (le_refl 0) (by omega)
    dsimp only
    rw [erased]
    exact kept _ _ pending rfl
  · rw [if_neg passed]
    exact sound

theorem flush_sound (sound : parser.Sound spare) : (parser.flushImageBuffer pans).Sound spare :=
  delete_rendered_sound (scroll_pending_sound { sound with })

end

theorem make_room_counts (segmentHeight marginPixelHeight cellHeight : Int) (fuel : Nat) (pending available : Int) :
    ∃ count : Nat, makeRoom segmentHeight marginPixelHeight cellHeight fuel (pending, available) =
        (pending + count, available + count * cellHeight) ∧
      (count = 0 ∨ (0 < count ∧ available + (count - 1) * cellHeight < marginPixelHeight ∧
        available + (count - 1) * cellHeight ≤ segmentHeight)) := by
  induction fuel generalizing pending available with
  | zero => exact ⟨0, by simp [makeRoom], .inl rfl⟩
  | succ fuel ih =>
    rw [makeRoom]
    by_cases more : available < marginPixelHeight ∧ segmentHeight ≥ available
    · rw [if_pos more]
      obtain ⟨count, counted, last⟩ := ih (pending + 1) (available + cellHeight)
      have next : ((count + 1 : Nat) : Int) * cellHeight = count * cellHeight + cellHeight := by simp [add_mul]
      refine ⟨count + 1, ?_, .inr ⟨Nat.succ_pos count, ?_⟩⟩
      · rw [counted, Prod.mk.injEq]
        omega
      · rw [Int.natCast_add, Int.natCast_one, Int.add_sub_cancel]
        rcases last with none | last
        · subst none
          simpa using more
        · rw [sub_mul] at last
          omega
    · rw [if_neg more]
      exact ⟨0, by simp, .inl rfl⟩

theorem make_room_ends (segmentHeight marginPixelHeight cellHeight : Int) (positive : 0 < cellHeight) (fuel : Nat)
    (counts : Int × Int) (enough : marginPixelHeight - counts.2 ≤ fuel) :
    marginPixelHeight ≤ (makeRoom segmentHeight marginPixelHeight cellHeight fuel counts).2 ∨
      segmentHeight < (makeRoom segmentHeight marginPixelHeight cellHeight fuel counts).2 := by
  induction fuel generalizing counts with
  | zero =>
    left
    rw [makeRoom]
    omega
  | succ fuel ih =>
    rw [makeRoom]
    split
    · refine ih _ ?_
      omega
    · omega

-- Whether the scroll leaves the top of a segment of the given height less than
-- the spare pixels above the margins. The scroll ends a multiple of the cell
-- height away from the available height, and the last such place below the
-- margin height is where the segment may still ask for more.
def ScrollFits (parser : SixelParser) (segment spare : Int) : Prop :=
  parser.displayMode = true ∨ segment ≤ parser.availablePixelHeight ∨
    parser.marginPixelHeight ≤ parser.availablePixelHeight ∨
    parser.availablePixelHeight % parser.cellSize.height ≤ spare ∨
    segment < parser.marginPixelHeight - parser.cellSize.height + parser.availablePixelHeight % parser.cellSize.height

instance (parser : SixelParser) (segment spare : Int) : Decidable (parser.ScrollFits segment spare) :=
  inferInstanceAs (Decidable (_ ∨ _ ∨ _ ∨ _ ∨ _))

theorem scroll_fits_count (nonneg : 0 ≤ spare) (off : parser.displayMode = false)
    (taller : parser.availablePixelHeight < parser.segmentHeight) (fits : parser.ScrollFits parser.segmentHeight spare)
    {count : Nat} (positive : 0 < count)
    (short : parser.availablePixelHeight + (count - 1) * parser.cellSize.height < parser.marginPixelHeight)
    (asked : parser.availablePixelHeight + (count - 1) * parser.cellSize.height ≤ parser.segmentHeight) :
    parser.availablePixelHeight + count * parser.cellSize.height ≤ parser.marginPixelHeight + spare := by
  have tall := parser.cellSize.tall
  have skipped : 0 ≤ ((count : Int) - 1) * parser.cellSize.height := Int.mul_nonneg (by omega) (by omega)
  rw [sub_mul] at short asked skipped
  by_cases inside : parser.availablePixelHeight + count * parser.cellSize.height ≤ parser.marginPixelHeight
  · omega
  have remainder : parser.availablePixelHeight % parser.cellSize.height =
      parser.availablePixelHeight + count * parser.cellSize.height - parser.marginPixelHeight := by
    have place : parser.availablePixelHeight = parser.availablePixelHeight + count * parser.cellSize.height -
        parser.marginPixelHeight + parser.cellSize.height * (parser.textMargins.height - count) := by
      rw [marginPixelHeight, mul_sub, mul_comm parser.cellSize.height, mul_comm parser.cellSize.height]
      omega
    rw [place, add_mul_emod_self_left, emod_eq_of_lt (by omega) (by omega), ← place]
  rcases fits with on | low | past | slight | small
  · exact absurd on (ne_true_of_eq_false off)
  · omega
  · omega
  · omega
  · omega

theorem calculate_scroll_sound {spare : Int} (nonneg : 0 ≤ spare) (less : spare < parser.sixelHeight)
    (sound : parser.Sound 0) (fits : parser.ScrollFits parser.segmentHeight spare) : parser.calculateScroll.Sound spare := by
  have weaker := sound.weaken spare nonneg less
  rw [calculateScroll]
  by_cases scrolls : parser.segmentHeight > parser.availablePixelHeight ∧ !parser.displayMode
  · rw [if_pos scrolls]
    have off : parser.displayMode = false := by simpa using scrolls.2
    obtain ⟨count, counted, last⟩ := make_room_counts parser.segmentHeight parser.marginPixelHeight parser.cellSize.height
      (parser.marginPixelHeight - parser.availablePixelHeight).toNat parser.pendingTextScrollCount parser.availablePixelHeight
    rw [counted]
    have pending := sound.pending
    refine { weaker with
      segment := le_refl _
      clamped := fun on => ?_
      pending := ?_
      reach := fun _ => ?_
      available := fun _ => ?_ }
    · exact absurd on (ne_true_of_eq_false off)
    · dsimp only
      omega
    · have reach := sound.reach off
      dsimp only
      rw [← add_assoc, add_mul]
      omega
    · rcases last with none | ⟨positive, short, asked⟩
      · subst none
        rw [Int.natCast_zero, Int.zero_mul, Int.add_zero, Int.add_zero]
        exact weaker.available off
      · exact .inl (scroll_fits_count nonneg off scrolls.1 fits positive short asked)
  · rw [if_neg scrolls]
    exact { weaker with segment := le_refl _ }

theorem maybe_flush_sound (endOfSequence lastCharacter : Bool) (moment : Moment) (parser : SixelParser) (spare : Int)
    (nonneg : 0 ≤ spare) (less : spare < parser.sixelHeight) (sound : parser.Sound 0)
    (fits : parser.ScrollFits parser.segmentHeight spare) :
    (parser.maybeFlushImageBuffer endOfSequence lastCharacter moment).Sound spare := by
  have scrolled := calculate_scroll_sound nonneg less sound fits
  rw [maybeFlushImageBuffer]
  split
  · exact flush_sound scrolled
  · exact scrolled

structure Kept (parser kept : SixelParser) : Prop where
  mode : kept.displayMode = parser.displayMode
  cell : kept.cellSize = parser.cellSize
  margins : kept.marginPixelHeight = parser.marginPixelHeight
  available : kept.availablePixelHeight = parser.availablePixelHeight
  sixel : kept.sixelHeight = parser.sixelHeight
  segment : kept.segmentHeight = parser.segmentHeight

theorem Kept.refl : Kept parser parser := ⟨rfl, rfl, rfl, rfl, rfl, rfl⟩

theorem Kept.trans (first : Kept parser middle) (second : Kept middle kept) : Kept parser kept :=
  ⟨second.mode.trans first.mode, second.cell.trans first.cell, second.margins.trans first.margins,
    second.available.trans first.available, second.sixel.trans first.sixel, second.segment.trans first.segment⟩

theorem erase_kept (parser : SixelParser) : Kept parser (parser.eraseImageBufferRows rowCount rowOffset) := by
  rw [eraseImageBufferRows]
  split <;> exact ⟨rfl, rfl, rfl, rfl, rfl, rfl⟩

theorem move_image_up_kept : Kept parser (parser.moveImageUp movement) := by
  rw [moveImageUp]
  split
  · exact (erase_kept parser).trans ⟨rfl, rfl, rfl, rfl, rfl, rfl⟩
  · exact ⟨rfl, rfl, rfl, rfl, rfl, rfl⟩

theorem scroll_kept (pans : Nat → Bool) (parser : SixelParser) : Kept parser (parser.scrollTextBuffer scrollAmount pans) := by
  have panned : ∀ panAmount, Kept parser (parser.panDown panAmount) :=
    fun panAmount => ⟨rfl, rfl, pan_margin_height, rfl, rfl, rfl⟩
  rw [scrollTextBuffer]
  split
  · exact (panned _).trans move_image_up_kept
  · exact panned _

theorem flush_kept : Kept parser (parser.flushImageBuffer pans) := by
  have deleted : ∀ parser : SixelParser, Kept parser parser.deleteRendered := by
    intro parser
    rw [deleteRendered]
    split
    · exact (erase_kept parser).trans ⟨rfl, rfl, rfl, rfl, rfl, rfl⟩
    · exact Kept.refl
  have scrolled : ∀ parser : SixelParser, Kept parser (parser.scrollPending pans) := by
    intro parser
    rw [scrollPending]
    split
    · exact (scroll_kept pans parser).trans ⟨rfl, rfl, rfl, rfl, rfl, rfl⟩
    · exact Kept.refl
  have marked : Kept parser { parser with lastFlushLine := parser.imageLineCount } := ⟨rfl, rfl, rfl, rfl, rfl, rfl⟩
  exact (marked.trans (scrolled _)).trans (deleted _)

theorem maybe_flush_kept (endOfSequence lastCharacter : Bool) (moment : Moment) (parser : SixelParser) :
    Kept parser.calculateScroll (parser.maybeFlushImageBuffer endOfSequence lastCharacter moment) := by
  rw [maybeFlushImageBuffer]
  split
  · exact flush_kept
  · exact Kept.refl

theorem calculate_scroll_settles (spare : Int) (segment : parser.sixelHeight ≤ parser.segmentHeight) :
    parser.calculateScroll.ScrollFits parser.calculateScroll.segmentHeight spare := by
  rw [calculateScroll]
  by_cases scrolls : parser.segmentHeight > parser.availablePixelHeight ∧ !parser.displayMode
  · rw [if_pos scrolls]
    have tall := parser.cellSize.tall
    rcases make_room_ends parser.segmentHeight parser.marginPixelHeight parser.cellSize.height (by omega)
        (parser.marginPixelHeight - parser.availablePixelHeight).toNat
        (parser.pendingTextScrollCount, parser.availablePixelHeight) (by omega) with past | low
    · exact .inr (.inr (.inl past))
    · refine .inr (.inl ?_)
      dsimp only
      omega
  · rw [if_neg scrolls]
    by_cases on : parser.displayMode = true
    · exact .inl on
    refine .inr (.inl ?_)
    have off : (!parser.displayMode) = true := by simpa using on
    have low : ¬ parser.segmentHeight > parser.availablePixelHeight := fun more => scrolls ⟨more, off⟩
    dsimp only
    omega

theorem maybe_flush_settles (segment : parser.sixelHeight ≤ parser.segmentHeight) :
    (parser.maybeFlushImageBuffer endOfSequence lastCharacter moment).ScrollFits
      (parser.maybeFlushImageBuffer endOfSequence lastCharacter moment).segmentHeight spare := by
  have settled := calculate_scroll_settles spare segment
  have kept := maybe_flush_kept endOfSequence lastCharacter moment parser
  rw [ScrollFits] at settled ⊢
  rwa [kept.mode, kept.cell, kept.margins, kept.available, kept.segment]

end SixelParser

end Cogterm.VirtualTerminal
