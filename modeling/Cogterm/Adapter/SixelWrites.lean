import Cogterm.Adapter.SixelBounds
import Cogterm.Library.Runs

namespace Cogterm.VirtualTerminal

open Buffer Cogterm.Types Int

namespace SixelParser

variable {parser : SixelParser}

def nextSixelHeight (parser : SixelParser) : Int :=
  if parser.state = .attributes ∧ parser.parameter 1 > 0 then
    6 * parser.requestedAspectRatio (parser.parameter 0) (parser.parameter 1)
  else parser.sixelHeight

def nextSegmentHeight (parser : SixelParser) : Int := max parser.segmentHeight parser.nextSixelHeight

theorem requested_ratio_pos (ratio : 1 ≤ parser.maxPixelAspectRatio) : 1 ≤ parser.requestedAspectRatio yAspect xAspect := by
  simp only [requestedAspectRatio, clamp]
  omega

theorem set_aspect_ratio_sound {pixelAspectRatio : Int} (positive : 1 ≤ pixelAspectRatio) (sound : parser.Sound 0) :
    (parser.setAspectRatio pixelAspectRatio).Sound 0 := by
  rw [setAspectRatio]
  obtain ⟨size, larger, resized, room⟩ := resize_room (6 * pixelAspectRatio) { parser with
    pixelAspectRatio := pixelAspectRatio
    sixelHeight := 6 * pixelAspectRatio
    segmentHeight := max parser.segmentHeight (6 * pixelAspectRatio) }
  rw [resized]
  exact { sound with
    room := room
    spared := Int.mul_pos (by decide) positive
    segment := le_max_right _ _ }

theorem change_aspect_ratio_sound {yAspect xAspect : Nat} (sound : parser.Sound 0) :
    (parser.changeAspectRatio yAspect xAspect).Sound 0 := by
  rw [changeAspectRatio]
  split
  · exact set_aspect_ratio_sound (requested_ratio_pos sound.ratio) sound
  · exact sound

theorem update_raster_sound (parser : SixelParser) (sound : parser.Sound 0) : parser.updateRasterAttributes.Sound 0 :=
  carriage_return_sound 0 _ ((fill_when_scrolled_grows _).sound { change_aspect_ratio_sound sound with })

theorem Grown.kept (grows : Grown parser grown) : Kept parser grown := by
  obtain ⟨_, _, _, _, _, rfl⟩ := grows
  exact ⟨rfl, rfl, rfl, rfl, rfl, rfl⟩

theorem carriage_return_kept : Kept parser parser.executeCarriageReturn :=
  ⟨rfl, rfl, rfl, rfl, rfl, rfl⟩

theorem define_color_cases (lastCharacter : Bool) (moment : Moment) (parser : SixelParser) :
    (∃ used, parser.defineColor lastCharacter moment = { parser with colorMapUsed := used }) ∨
      (lastCharacter = true ∧ parser.defineColor lastCharacter moment =
        parser.maybeFlushImageBuffer false lastCharacter moment) := by
  rw [defineColor]
  split
  · rw [defineColorNumber]
    split
    · split
      · rename_i flushes
        exact .inr ⟨flushes.2, rfl⟩
      · exact .inl ⟨parser.colorMapUsed, rfl⟩
    · exact .inl ⟨_, rfl⟩
  · exact .inl ⟨parser.colorMapUsed, rfl⟩

def rescaled (parser : SixelParser) : SixelParser :=
  if parser.parameter 1 > 0 then
    let sixelHeight := 6 * parser.requestedAspectRatio (parser.parameter 0) (parser.parameter 1)
    { parser with sixelHeight := sixelHeight, segmentHeight := max parser.segmentHeight sixelHeight }
  else parser

theorem update_raster_kept (parser : SixelParser) : Kept parser.rescaled parser.updateRasterAttributes := by
  have scaled : Kept parser.rescaled (parser.changeAspectRatio (parser.parameter 0) (parser.parameter 1)) := by
    rw [rescaled, changeAspectRatio]
    split
    · refine Kept.trans ?_ (resize_grows _ _).kept
      exact ⟨rfl, rfl, rfl, rfl, rfl, rfl⟩
    · exact Kept.refl
  have sized : ∀ parser width height, Kept parser (parser.changeBackgroundSize width height) :=
    fun _ _ _ => ⟨rfl, rfl, rfl, rfl, rfl, rfl⟩
  exact ((scaled.trans (sized _ _ _)).trans (fill_when_scrolled_grows _).kept).trans carriage_return_kept

structure Applied (parser applied : SixelParser) : Prop where
  sound : applied.Sound 0
  mode : applied.displayMode = parser.displayMode
  sixel : applied.sixelHeight = parser.nextSixelHeight
  fits : ∀ spare, parser.ScrollFits parser.nextSegmentHeight spare → applied.ScrollFits applied.segmentHeight spare

theorem applied_of_kept (sound : applied.Sound 0) (kept : Kept changed applied)
    (mode : changed.displayMode = parser.displayMode) (cell : changed.cellSize = parser.cellSize)
    (margins : changed.marginPixelHeight = parser.marginPixelHeight)
    (available : changed.availablePixelHeight = parser.availablePixelHeight)
    (sixel : changed.sixelHeight = parser.nextSixelHeight)
    (segment : changed.segmentHeight = parser.nextSegmentHeight) : Applied parser applied := by
  refine ⟨sound, kept.mode.trans mode, kept.sixel.trans sixel, fun spare fits => ?_⟩
  rw [ScrollFits] at fits ⊢
  rwa [kept.mode, kept.cell, kept.margins, kept.available, kept.segment, mode, cell, margins, available, segment]

theorem raster_applied (parser : SixelParser) (sound : parser.Sound 0) (attributes : parser.state = .attributes) :
    Applied parser parser.normalState.updateRasterAttributes := by
  have updated := update_raster_sound parser.normalState { sound with }
  have kept := update_raster_kept parser.normalState
  by_cases given : parser.parameter 1 > 0
  · have next : parser.nextSixelHeight = 6 * parser.requestedAspectRatio (parser.parameter 0) (parser.parameter 1) := by
      rw [nextSixelHeight, if_pos ⟨attributes, given⟩]
    rw [rescaled, if_pos (show parser.normalState.parameter 1 > 0 from given)] at kept
    exact applied_of_kept updated kept rfl rfl rfl rfl next.symm (by rw [nextSegmentHeight, next]; rfl)
  · have next : parser.nextSixelHeight = parser.sixelHeight := by rw [nextSixelHeight, if_neg (fun both => given both.2)]
    rw [rescaled, if_neg (show ¬ parser.normalState.parameter 1 > 0 from given)] at kept
    exact applied_of_kept updated kept rfl rfl rfl rfl next.symm (by rw [nextSegmentHeight, next, max_eq_left sound.segment]; rfl)

theorem next_heights (sound : parser.Sound 0) (others : parser.state ≠ .attributes) :
    parser.nextSixelHeight = parser.sixelHeight ∧ parser.nextSegmentHeight = parser.segmentHeight := by
  have next : parser.nextSixelHeight = parser.sixelHeight := by rw [nextSixelHeight, if_neg (fun both => others both.1)]
  exact ⟨next, by rw [nextSegmentHeight, next, max_eq_left sound.segment]⟩

theorem unchanged_applied (sound : parser.Sound 0) (others : parser.state ≠ .attributes)
    (soundApplied : applied.Sound 0) (kept : Kept parser applied) : Applied parser applied := by
  obtain ⟨sixel, segment⟩ := next_heights sound others
  exact applied_of_kept soundApplied kept rfl rfl rfl rfl sixel.symm segment.symm

theorem color_applied (sound : parser.Sound 0) (color : parser.state = .color)
    (fits : lastCharacter = true → parser.ScrollFits parser.nextSegmentHeight 0) :
    Applied parser (parser.normalState.defineColor lastCharacter moment) := by
  have others : parser.state ≠ .attributes := by simp [color]
  obtain ⟨sixel, segment⟩ := next_heights sound others
  rcases define_color_cases lastCharacter moment parser.normalState with ⟨used, defined⟩ | ⟨last, defined⟩
  · rw [defined]
    exact unchanged_applied sound others { sound with } ⟨rfl, rfl, rfl, rfl, rfl, rfl⟩
  rw [defined]
  have fits := fits last
  rw [segment] at fits
  have kept := maybe_flush_kept false lastCharacter moment parser.normalState
  refine ⟨maybe_flush_sound false lastCharacter moment _ 0 (le_refl 0) sound.spared { sound with } fits,
    kept.mode, kept.sixel.trans sixel.symm, fun spare _ => ?_⟩
  exact maybe_flush_settles sound.segment

theorem pending_applied (lastCharacter : Bool) (moment : Moment) (sound : parser.Sound 0)
    (fits : parser.state = .color → lastCharacter = true → parser.ScrollFits parser.nextSegmentHeight 0) :
    Applied parser (parser.applyPendingCommand lastCharacter moment).1 ∧
    1 ≤ (parser.applyPendingCommand lastCharacter moment).2 := by
  have same : Kept parser parser.normalState := ⟨rfl, rfl, rfl, rfl, rfl, rfl⟩
  cases state : parser.state with
  | normal =>
    simp only [applyPendingCommand, state]
    exact ⟨unchanged_applied sound (by simp [state]) { sound with } same, le_refl 1⟩
  | repetition =>
    simp only [applyPendingCommand, state]
    exact ⟨unchanged_applied sound (by simp [state]) { sound with } same, le_max_left _ _⟩
  | color =>
    simp only [applyPendingCommand, state]
    exact ⟨color_applied sound state (fits state), le_refl 1⟩
  | attributes =>
    simp only [applyPendingCommand, state]
    exact ⟨raster_applied parser sound state, le_refl 1⟩

theorem write_sound (positive : 1 ≤ repeatCount) (sound : parser.Sound 0) :
    (parser.writeToImageBuffer repeatCount).Sound 0 := by
  have filled := (fill_grows parser).sound sound
  have left := filled.left
  have right := filled.right
  rw [writeToImageBuffer]
  refine { filled with left := ?_, right := ?_ }
  · dsimp only
    omega
  · dsimp only
    omega

theorem move_down_sound (parser : SixelParser) (positive : 0 < parser.sixelHeight)
    (sound : parser.Sound (parser.sixelHeight - 1)) :
    (parser.moveDown.resizeImageBuffer parser.moveDown.sixelHeight).Sound 0 := by
  obtain ⟨size, larger, resized, room⟩ := resize_room parser.moveDown.sixelHeight parser.moveDown
  rw [resized]
  have above := sound.above
  refine { sound with
    above := ?_
    room := room
    spared := positive
    reach := fun off => ?_
    available := fun off => ?_ }
  · simp only [moveDown]
    omega
  · have reach := sound.reach off
    simp only [moveDown]
    omega
  · rcases sound.available off with fits | still
    · left
      have fits : parser.availablePixelHeight - parser.sixelHeight ≤ parser.marginPixelHeight + 0 := by omega
      exact fits
    · exact .inr still

theorem next_line_sound (lastCharacter : Bool) (moment : Moment) (parser : SixelParser) (sound : parser.Sound 0)
    (fits : parser.ScrollFits parser.segmentHeight (parser.sixelHeight - 1)) :
    (parser.executeNextLine lastCharacter moment).Sound 0 := by
  have positive := sound.spared
  have returned := carriage_return_sound 0 parser sound
  have counted : parser.executeCarriageReturn.countLine.Sound 0 := { returned with }
  have flushed := maybe_flush_sound false lastCharacter moment parser.executeCarriageReturn.countLine (parser.sixelHeight - 1)
    (by omega) (sub_one_lt_of_le (le_refl _)) counted fits
  have height := (maybe_flush_kept false lastCharacter moment parser.executeCarriageReturn.countLine).sixel
  rw [show parser.sixelHeight = _ from height.symm] at flushed positive
  exact (fill_when_scrolled_grows _).sound (move_down_sound _ positive flushed)

theorem move_to_home_sound (lastCharacter : Bool) (moment : Moment) (parser : SixelParser) (sound : parser.Sound 0)
    (on : parser.displayMode = true) : (parser.executeMoveToHome lastCharacter moment).Sound 0 := by
  have flushed := maybe_flush_sound false lastCharacter moment parser.executeCarriageReturn 0 (le_refl 0) sound.spared
    (carriage_return_sound 0 parser sound) (.inl on)
  have mode := (maybe_flush_kept false lastCharacter moment parser.executeCarriageReturn).mode.trans on
  rw [executeMoveToHome]
  generalize parser.executeCarriageReturn.maybeFlushImageBuffer false lastCharacter moment = home at *
  have lower : (0 + home.sixelHeight) * home.imageMaxWidth ≤ (home.imageCursor.y + home.sixelHeight) * home.imageMaxWidth := by
    have above := flushed.above
    exact Int.mul_le_mul_of_nonneg_right (by omega) (Int.le_of_lt flushed.wide)
  have off := ne_false_of_eq_true mode
  exact { flushed with
    above := le_refl 0
    room := le_trans lower flushed.room
    reach := fun isOff => absurd isOff off
    available := fun isOff => absurd isOff off }

end SixelParser

open Library

-- The state machine drops the handler of the string with the escape that ends
-- it.
structure SixelStream where
  parser : SixelParser
  finished : Bool

namespace SixelStream

open SixelParser

def feed (stream : SixelStream) (input : SixelInput) : SixelStream :=
  if stream.finished then stream
  else ⟨stream.parser.parseCommandChar input, decide (sixelChar input.ch = .endOfImage)⟩

def WritesInside (stream : SixelStream) (input : SixelInput) : Prop :=
  stream.finished = false → sixelChar input.ch = .sixelValue →
    (stream.parser.applyPendingCommand input.lastCharacter input.pending).1.Ready

instance (stream : SixelStream) (input : SixelInput) : Decidable (stream.WritesInside input) :=
  inferInstanceAs (Decidable (_ → _ → _))

-- A next line may scroll the top of the segment above the margins by less than it then goes down.
-- A change of the palette that is flushed may not. The sizes that are asked for do not overflow an
-- int of 32 bits: none is larger than the size in the end, or than that before a next line flushes.
def Fits (stream : SixelStream) (input : SixelInput) : Prop :=
  stream.finished = false →
    (stream.parser.state = .color → input.lastCharacter = true → sixelChar input.ch ≠ .parameter →
      stream.parser.ScrollFits stream.parser.nextSegmentHeight 0) ∧
    (sixelChar input.ch = .nextLine →
      stream.parser.ScrollFits stream.parser.nextSegmentHeight (stream.parser.nextSixelHeight - 1) ∧
        (stream.parser.applyPendingCommand input.lastCharacter input.pending).1.imageSize < 0x80000000) ∧
    (stream.feed input).parser.imageSize < 0x80000000

instance (stream : SixelStream) (input : SixelInput) : Decidable (stream.Fits input) :=
  inferInstanceAs (Decidable (_ → (_ → _ → _ → _) ∧ (_ → _ ∧ _) ∧ _))

def Sound (stream : SixelStream) : Prop := stream.finished = false → stream.parser.Sound 0

theorem parse_sound {parser : SixelParser} (sound : parser.Sound 0) (fits : Fits ⟨parser, false⟩ input)
    (goesOn : sixelChar input.ch ≠ .endOfImage) : (parser.parseCommandChar input).Sound 0 := by
  obtain ⟨colorFits, lineFits, _⟩ := fits rfl
  rw [parseCommandChar]
  by_cases parameter : sixelChar input.ch = .parameter
  · simp only [parameter, parseParameterChar]
    split
    · split <;> exact { sound with }
    · exact sound
  obtain ⟨applied, positive⟩ := pending_applied input.lastCharacter input.pending sound
    (fun color last => colorFits color last parameter)
  cases kind : sixelChar input.ch with
  | parameter => exact absurd kind parameter
  | ignored => exact sound
  | endOfImage => exact absurd kind goesOn
  | sixelValue => exact write_sound positive applied.sound
  | colorIntroducer => exact { applied.sound with }
  | repeatIntroducer => exact { applied.sound with }
  | carriageReturn => exact carriage_return_sound 0 _ applied.sound
  | nextLine =>
    have fits := applied.fits _ (lineFits kind).1
    rw [← applied.sixel] at fits
    exact SixelParser.next_line_sound _ _ _ applied.sound fits
  | home =>
    dsimp only
    split
    · exact move_to_home_sound _ _ _ applied.sound (applied.mode.trans (sound.level (by omega)))
    · exact sound
  | rasterAttributes =>
    dsimp only
    split
    · exact { applied.sound with }
    · exact sound

theorem feed_sound (stream : SixelStream) (input : SixelInput) (sound : stream.Sound) (fits : stream.Fits input) :
    (stream.feed input).Sound := by
  obtain ⟨parser, finished⟩ := stream
  cases finished with
  | true => exact fun unfinished => absurd unfinished Bool.noConfusion
  | false =>
    intro goesOn
    exact parse_sound (sound rfl) fits (by simpa [feed] using goesOn)

end SixelStream

namespace SixelSetup

open SixelParser

structure Valid (setup : SixelSetup) : Prop where
  page : setup.page.Valid
  margins : setup.margins.Valid
  cursor : setup.page.top ≤ setup.cursor.y

variable {setup : SixelSetup}

theorem text_margins (valid : setup.Valid) :
    setup.page.top ≤ setup.textMargins.top ∧ setup.textMargins.top < setup.textMargins.bottom ∧
      setup.textMargins.left < setup.textMargins.right := by
  have rows := valid.page.rows
  have wide := valid.page.wide
  rw [textMargins]
  cases setup.clamped with
  | true => exact ⟨le_refl _, rows, wide⟩
  | false =>
    have high : 0 < setup.page.height := by
      rw [Page.height]
      omega
    obtain ⟨kept, top, ordered, bottom⟩ := vertical_margins valid.margins high
    obtain ⟨_, left, columns, right⟩ := horizontal_margins kept wide
    simp only [Bool.false_eq_true, if_false]
    omega

theorem prepared_ready (valid : setup.Valid) (origin : setup.validOrigin) :
    (setup.prepared.resizeImageBuffer setup.prepared.sixelHeight).Sound 0 := by
  obtain ⟨top, rows, columns⟩ := text_margins valid
  obtain ⟨size, larger, resized, room⟩ := resize_room setup.prepared.sixelHeight setup.prepared
  have tall := setup.cellSize.tall
  have ratio : 1 ≤ setup.initialAspectRatio := by
    rw [initialAspectRatio]
    repeat' split
    all_goals decide
  have column : setup.textCursor.x < setup.textMargins.right := by
    rw [textCursor]
    rcases origin with on | inside
    · rw [if_pos on]
      exact columns
    · split
      · exact columns
      · exact inside.2.1
  have row : setup.page.top ≤ setup.textCursor.y := by
    rw [textCursor]
    split
    · exact top
    · exact valid.cursor
  rw [resized]
  refine {
    left := le_refl 0
    right := ?_
    above := le_refl 0
    room := room
    wide := Int.mul_pos (by omega) setup.cellSize.wide
    spared := ?_
    segment := le_refl _
    ratio := ?_
    rows := rows
    page := top
    level := fun low => ?_
    clamped := fun _ => ⟨rfl, row⟩
    pending := le_refl 0
    reach := fun _ => ?_
    available := fun _ => .inr ⟨rfl, row⟩ }
  · exact Int.mul_nonneg (by omega) (Int.le_of_lt setup.cellSize.wide)
  · simp only [prepared]
    omega
  · have least : 1 * 6 ≤ setup.textMargins.height * setup.cellSize.height :=
      Int.mul_le_mul (by rw [Rect.height]; omega) tall (by decide) (by rw [Rect.height]; omega)
    simp only [prepared]
    rw [tdiv_eq_ediv_of_nonneg (by omega)]
    omega
  · simp only [prepared, clamped, Bool.or_eq_true, decide_eq_true_eq]
    exact .inl low
  · simp only [prepared, add_zero, zero_add]
    exact le_refl _

theorem define_image_sound (valid : setup.Valid) (defined : setup.defineImage = some parser) : parser.Sound 0 := by
  rw [defineImage] at defined
  split at defined
  · rename_i origin
    have ready := prepared_ready valid origin
    cases Option.some.inj defined
    split
    · exact (fill_grows _).sound ready
    · exact ready
  · cases defined

end SixelSetup

theorem sixels_written_inside (setup : SixelSetup) (valid : setup.Valid) (parser : SixelParser)
    (defined : setup.defineImage = some parser) (inputs : List SixelInput)
    (fits : EveryStep SixelStream.feed ⟨parser, false⟩ inputs SixelStream.Fits) :
    EveryStep SixelStream.feed ⟨parser, false⟩ inputs SixelStream.WritesInside := by
  have sound := every_state_of_steps SixelStream.feed SixelStream.Fits
    (fun _ => SixelSetup.define_image_sound valid defined) SixelStream.feed_sound fits
  intro index input present unfinished isSixel
  have other : sixelChar input.ch ≠ .parameter := by simp [isSixel]
  have applied := SixelParser.pending_applied input.lastCharacter input.pending (sound index unfinished)
    (fun color last => (fits index input present unfinished).1 color last other)
  exact applied.1.sound.ready

def bottomRow : SixelSetup where
  conformanceLevel := 9
  cellSize := ⟨10, 20, by decide, by decide⟩
  displayMode := false
  page := ⟨1, 0, 24, 80, 24⟩
  margins := ⟨0, 0, 0, 0⟩
  cursor := ⟨0, 23⟩
  macroParameter := 0
  backgroundSelect := .default
  backgroundColor := none

def sixelInputs (data : List Char) (late : Bool) : List SixelInput :=
  data.map (fun ch => ⟨UInt16.ofNat ch.toNat, false, ⟨late, fun _ => false⟩, ⟨late, fun _ => false⟩⟩)

theorem sixels_written_inside_two_lines : ∃ parser, bottomRow.defineImage = some parser ∧
      EveryStep SixelStream.feed ⟨parser, false⟩ (sixelInputs ['~', '-', '~', '-', '~'] true) SixelStream.WritesInside := by
  have valid : bottomRow.Valid := ⟨⟨by decide, by decide, by decide, by decide⟩, ⟨by decide, by decide⟩, by decide⟩
  obtain ⟨parser, defined⟩ : ∃ parser, bottomRow.defineImage = some parser := ⟨_, rfl⟩
  refine ⟨parser, defined, sixels_written_inside bottomRow valid parser defined _ ?_⟩
  cases Option.some.inj defined
  decide +kernel

-- The segment is as high as the page when it is scrolled, and the available
-- eight pixels make the scroll end eight pixels above the page. The line that
-- follows goes down by six.
theorem sixel_above_image :
    ∃ parser, bottomRow.defineImage = some parser ∧ ¬ EveryStep SixelStream.feed ⟨parser, false⟩
        (sixelInputs ['~', '-', '"', '8', '0', ';', '1', '"', '1', ';', '1'] false ++ sixelInputs ['-', '~'] true)
        SixelStream.WritesInside := by
  refine ⟨_, rfl, ?_⟩
  decide +kernel

end Cogterm.VirtualTerminal
