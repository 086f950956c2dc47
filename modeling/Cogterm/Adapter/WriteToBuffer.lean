import Cogterm.Adapter.LineFeeds

namespace Cogterm.VirtualTerminal

open Buffer Library Cogterm.Types List TextBuffer

structure Writing where
  buffer : TextBuffer
  page : Page
  cursorPosition : Point
  state : RowWriteState

section

variable (env : Environment) (settings : OutputSettings)

def clippedLineWidth (page : Page) (buffer : TextBuffer) (y : Int) : Int :=
  if y ≥ topMargin settings page ∧ y ≤ bottomMargin settings page then min (buffer.getLineWidth y)
    (rightMargin settings page + 1)
  else buffer.getLineWidth y

-- A cursor beyond the right margin has the rest of the line.
def startWriting (page : Page) (buffer : TextBuffer) (string : List WChar) : Writing :=
  let position := buffer.cursor.position
  let lineWidth := if position.x ≤ rightMargin settings page then clippedLineWidth settings page buffer position.y
    else buffer.getLineWidth position.y
  ⟨buffer, page, position, ⟨string, 0, lineWidth, 0, 0, 0⟩⟩

namespace Writing

def nextLine (w : Writing) : Option Writing :=
  (doLineFeed env settings w.page true true w.buffer).map (fun fed =>
    let page := if fed.2 then w.page.moveViewportDown else w.page
    let position := fed.1.cursor.position
    ⟨fed.1, page, position, { w.state with columnLimit := clippedLineWidth settings page fed.1 position.y }⟩)

-- A delayed wrap is forgotten if the cursor was moved since.
def wrapLine (w : Writing) : Option Writing :=
  match settings.wrapAtEOL, w.buffer.cursor.delayedAt with
  | true, some delayedCursorPosition =>
    let reset := { w with buffer := { w.buffer with cursor := { w.buffer.cursor with delayedAt := none } } }
    if delayedCursorPosition = w.cursorPosition then reset.nextLine env settings else some reset
  | _, _ => some w

def writeText (w : Writing) : Option Writing :=
  let state := { w.state with columnBegin := w.cursorPosition.x }
  let written := if settings.insertReplace then w.buffer.insert env w.cursorPosition.y w.buffer.currentAttributes state
    else w.buffer.replace env w.cursorPosition.y w.buffer.currentAttributes state
  written.2.map (fun state => { w with buffer := written.1, state := state })

-- A glyph that does not fit is thrown away where it never would fit.
def discardGlyph (before : List WChar) (state : RowWriteState) : RowWriteState :=
  if state.text.length = before.length ∧ (state.columnBegin = 0 ∨ settings.wrapAtEOL = false) then
    { state with text := state.text.drop (env.measure.next state.text).1 }
  else state

def moveCursor (before : List WChar) (w : Writing) : Writing :=
  if w.state.columnEnd ≥ w.state.columnLimit then
    let position : Point := ⟨w.state.columnLimit - 1, w.cursorPosition.y⟩
    let cursor := w.buffer.cursor.setPosition position
    { w with
      buffer := { w.buffer with cursor := if settings.wrapAtEOL then { cursor with delayedAt := some position } else cursor }
      cursorPosition := position
      state := discardGlyph env settings before w.state }
  else
    let position : Point := ⟨w.state.columnEnd, w.cursorPosition.y⟩
    { w with buffer := { w.buffer with cursor := w.buffer.cursor.setPosition position }, cursorPosition := position }

-- One round of the loop. The result is none when a write throws.
def writeStep (w : Writing) : Iteration Writing (Option Writing) :=
  if w.state.text.isEmpty then .done (some w)
  else
    match (w.wrapLine env settings).bind (writeText env settings) with
    | none => .done none
    | some written => .again (moveCursor env settings w.state.text written)

end Writing

end

open Writing

structure OutputSettings.Passes (settings : OutputSettings) (page : Page) (buffer : TextBuffer) (y : Int) : Prop where
  passes : 2 ≤ buffer.width ∨ settings.wrapAtEOL = false ∨ y ≤ bottomMargin settings page ∨
    (buffer.getRow (page.bottom - 1)).lineRendition = .singleWidth

structure Writing.Sound (settings : OutputSettings) (width height : Nat) (spared : Prop) (w : Writing) : Prop where
  size : w.buffer.HasSize width height
  page : w.page.Valid
  pageWidth : w.page.width = width
  pageHeight : w.page.bufferHeight = height
  position : w.buffer.cursor.position = w.cursorPosition
  top : w.page.top ≤ w.cursorPosition.y
  bottom : w.cursorPosition.y < w.page.bottom
  limit : 0 ≤ w.state.columnLimit ∧ w.state.columnLimit ≤ width
  passes : spared ∨ settings.Passes w.page w.buffer w.cursorPosition.y

def Writing.Blocked (settings : OutputSettings) (w : Writing) : Prop :=
  settings.wrapAtEOL = true ∧ w.buffer.cursor.delayedAt = some w.cursorPosition

instance (settings : OutputSettings) (w : Writing) : Decidable (w.Blocked settings) := inferInstanceAs (Decidable (_ ∧ _))

-- The last row of the page has no column, and no line feed leaves it.
def Writing.AtEnd (settings : OutputSettings) (w : Writing) : Prop :=
  w.cursorPosition.y = w.page.bottom - 1 ∧ bottomMargin settings w.page < w.cursorPosition.y ∧
    w.buffer.getLineWidth w.cursorPosition.y = 0

def Writing.Deadlocked (settings : OutputSettings) (w : Writing) : Prop :=
  w.state.text ≠ [] ∧ w.Blocked settings ∧ w.AtEnd settings

def Writing.Spared (env : Environment) (settings : OutputSettings) (w : Writing) : Prop :=
  ∀ count reached, afterRounds (writeStep env settings) count w = some reached → ¬ reached.Deadlocked settings

variable {buffer : TextBuffer} {page : Page} {spared : Prop}

variable (env : Environment) (settings : OutputSettings) (valid : settings.scrollMargins.Valid) (width height : Nat)

theorem line_width_bounds (size : buffer.HasSize width height) (y : Int) :
    0 ≤ buffer.getLineWidth y ∧ buffer.getLineWidth y ≤ width ∧ (2 ≤ width → 1 ≤ buffer.getLineWidth y) := by
  have wide := size.wide
  rw [getLineWidth]
  split <;> omega

theorem line_width_single (size : buffer.HasSize width height) (y : Int)
    (single : (buffer.getRow y).lineRendition = .singleWidth) : buffer.getLineWidth y = width := by
  rw [getLineWidth, isDoubleWidthLine, single, size.wide]
  rfl

theorem clipped_bounds (fit : MarginsFit settings page) (size : buffer.HasSize width height) :
    0 ≤ clippedLineWidth settings page buffer y ∧ clippedLineWidth settings page buffer y ≤ width := by
  have bounds := line_width_bounds width height size y
  have left := fit.left
  have columns := fit.columns
  rw [clippedLineWidth]
  split <;> omega

def pannedPage (page : Page) (moved : Bool) : Page := if moved then page.moveViewportDown else page

theorem panned_valid (validPage : page.Valid) (room : moved = true → page.bottom < page.bufferHeight) :
    (pannedPage page moved).Valid ∧ (pannedPage page moved).width = page.width ∧
      (pannedPage page moved).bufferHeight = page.bufferHeight ∧
      leftMargin settings (pannedPage page moved) = leftMargin settings page := by
  cases moved with
  | false => exact ⟨validPage, rfl, rfl, rfl⟩
  | true =>
    obtain ⟨wide, top, rows, bottom⟩ := validPage
    have more := room rfl
    refine ⟨⟨wide, ?_, ?_, ?_⟩, rfl, rfl, rfl⟩ <;> simp only [pannedPage, if_true, Page.moveViewportDown] <;> omega

variable {w : Writing}

theorem fed_down_advances (wrap : settings.wrapAtEOL = true) (sound : w.Sound settings width height spared)
    (fit : MarginsFit settings w.page) (size : buffer.HasSize width height) (fed : FedDown settings w.page w.buffer buffer)
    (leaves : spared → ¬ w.AtEnd settings) :
    (w.page.top ≤ buffer.cursor.position.y ∧ buffer.cursor.position.y < w.page.bottom) ∧
      (spared ∨ settings.Passes w.page buffer buffer.cursor.position.y) ∧
      (w.page.bottom - buffer.cursor.position.y < w.page.bottom - w.cursorPosition.y ∨ buffer.cursor.position.x = 0) := by
  obtain ⟨top, rows, bottom, left, columns, right, indented⟩ := fit
  obtain ⟨lower, renditions, row, column⟩ := fed
  rw [sound.position] at lower row column
  have cursorTop := sound.top
  have cursorBottom := sound.bottom
  have wide := sound.pageWidth
  have lineWidth := line_width_bounds width height size buffer.cursor.position.y
  have returned : returnColumn settings w.page w.cursorPosition < leftMargin settings w.page →
      returnColumn settings w.page w.cursorPosition = 0 ∧ 2 ≤ width := by
    rw [returnColumn]
    split <;> omega
  refine ⟨⟨by omega, by omega⟩, ?_, ?_⟩
  · refine sound.passes.imp id (fun passes => ⟨?_⟩)
    replace passes := passes.passes
    rw [sound.size.wide] at passes
    rw [size.wide, renditions]
    rcases passes with enough | noWrap | above | last
    · exact .inl enough
    · exact .inr (.inl noWrap)
    · by_cases same : w.cursorPosition.y = bottomMargin settings w.page
      · exact .inl (returned (by omega)).2
      · exact .inr (.inr (.inl (by omega)))
    · exact .inr (.inr (.inr last))
  · by_cases down : w.cursorPosition.y + 1 < w.page.bottom
    · exact .inl (by omega)
    · right
      have last : buffer.cursor.position.y = w.page.bottom - 1 := by omega
      have zero : returnColumn settings w.page w.cursorPosition = 0 := by
        rcases lower with below | outside
        · rw [returnColumn, if_neg (by omega)]
        · exact (returned outside).1
      have positive : 1 ≤ buffer.getLineWidth buffer.cursor.position.y := by
        rcases sound.passes with isSpared | passes
        · by_contra none
          have sameWidth : w.buffer.getLineWidth w.cursorPosition.y = buffer.getLineWidth buffer.cursor.position.y := by
            rw [getLineWidth, getLineWidth, isDoubleWidthLine, isDoubleWidthLine, renditions, sound.size.wide, size.wide,
              show w.cursorPosition.y = buffer.cursor.position.y by omega]
          refine leaves isSpared ⟨by omega, ?_, by omega⟩
          rcases lower with below | outside
          · omega
          · exact absurd (lineWidth.2.2 (returned outside).2) none
        replace passes := passes.passes
        rw [sound.size.wide] at passes
        rcases passes with enough | noWrap | above | single
        · exact lineWidth.2.2 enough
        · rw [wrap] at noWrap
          cases noWrap
        · exact lineWidth.2.2 (returned (by omega)).2
        · have isWide := line_width_single width height size buffer.cursor.position.y (by rw [last, renditions]; exact single)
          omega
      rw [column, zero, Int.min_eq_left (by omega)]

include valid in
theorem next_line_sound (wrap : settings.wrapAtEOL = true) (w next : Writing) (sound : w.Sound settings width height spared)
    (leaves : spared → ¬ w.AtEnd settings) (fed : w.nextLine env settings = some next) :
    next.Sound settings width height spared ∧ next.state.text = w.state.text ∧
      (next.page.bottom - next.cursorPosition.y < w.page.bottom - w.cursorPosition.y ∨ next.cursorPosition.x = 0 ∨
        (0 ≤ next.cursorPosition.x ∧ next.cursorPosition.x + 2 ≤ next.state.columnLimit)) := by
  obtain ⟨⟨buffer, moved⟩, isFed, isNext⟩ := Option.map_eq_some_iff.mp fed
  have fit := margins_fit settings valid w.page sound.page
  obtain ⟨size, cases⟩ := line_feed_cases settings sound.page fit sound.pageHeight sound.size isFed
  rcases cases with ⟨isMoved, down⟩ | ⟨room, lowest, row, column, single⟩
  · obtain ⟨⟨top, bottom⟩, passes, advances⟩ := fed_down_advances settings width height wrap sound fit size down
      leaves
    simp only [isMoved] at isNext
    cases isNext
    exact ⟨⟨size, sound.page, sound.pageWidth, sound.pageHeight, rfl, top, bottom,
      clipped_bounds settings width height fit size, passes⟩, rfl, advances.imp id .inl⟩
  · -- The lines scroll, and the cursor is at the left margin of a new one.
    rw [← pannedPage] at row
    obtain ⟨validPage, sameWidth, sameHeight, sameLeft⟩ := panned_valid settings sound.page room
    have pannedFit := margins_fit settings valid (pannedPage w.page moved) validPage
    have isNext : (⟨buffer, pannedPage w.page moved, buffer.cursor.position, { w.state with
      columnLimit := clippedLineWidth settings (pannedPage w.page moved) buffer buffer.cursor.position.y }⟩ : Writing) = next :=
        isNext
    generalize pannedPage w.page moved = page at *
    have wide := sound.pageWidth
    have lineWidth := line_width_single width height size buffer.cursor.position.y single
    obtain ⟨top, rows, bottom, left, columns, right, indented⟩ := pannedFit
    rw [← isNext]
    refine ⟨⟨size, validPage, sameWidth.trans wide, sameHeight.trans sound.pageHeight, rfl, ?_, ?_,
      clipped_bounds settings width height (margins_fit settings valid page validPage) size, .inr ⟨.inr (.inr (.inl ?_))⟩⟩,
      rfl, .inr ?_⟩
    · dsimp only
      omega
    · dsimp only
      omega
    · exact Int.le_of_eq row
    · dsimp only
      rw [clippedLineWidth]
      omega

theorem same_passes (sameWidth : changed.width = buffer.width)
    (renditions : ∀ other, (changed.getRow other).lineRendition = (buffer.getRow other).lineRendition)
    (passes : settings.Passes page buffer y) : settings.Passes page changed y := by
  refine ⟨?_⟩
  rw [sameWidth, renditions]
  exact passes.passes

theorem write_text_progress {next : Writing} (sound : w.Sound settings width height spared) (nonempty : w.state.text ≠ [])
    (written : w.writeText env settings = some next) :
    next.Sound settings width height spared ∧ next.page = w.page ∧ next.cursorPosition = w.cursorPosition ∧
      ({ w.state with columnBegin := w.cursorPosition.x } : RowWriteState).Progress next.state := by
  obtain ⟨state, isState, isNext⟩ := Option.map_eq_some_iff.mp written
  have changed : ({ w.state with columnBegin := w.cursorPosition.x } : RowWriteState).Progress state ∧
      next.buffer.HasSize width height ∧ SameCursor w.buffer next.buffer := by
    rw [← isNext]
    cases mode : settings.insertReplace with
    | true =>
      rw [mode] at isState
      exact insert_size env sound.size nonempty sound.limit (Prod.ext rfl isState)
    | false =>
      rw [mode] at isState
      exact replace_size env sound.size nonempty sound.limit (Prod.ext rfl isState)
  obtain ⟨progress, size, cursor, renditions⟩ := changed
  have passes := sound.passes.imp id (same_passes settings (size.wide.trans sound.size.wide.symm) renditions)
  have isLimit := progress.columnLimit
  rw [← isNext] at size cursor passes ⊢
  refine ⟨⟨size, sound.page, sound.pageWidth, sound.pageHeight, ?_, sound.top, sound.bottom, ?_, passes⟩, rfl, rfl,
    progress⟩
  · exact (congrArg Cursor.position cursor).trans sound.position
  · rw [isLimit]
    exact sound.limit

theorem move_cursor_progress (nonempty : before ≠ []) (sound : w.Sound settings width height spared)
    (progress : w.state.text.length < before.length ∨ (w.state.text = before ∧ w.state.columnLimit ≤ w.state.columnEnd)) :
    (w.moveCursor env settings before).Sound settings width height spared ∧ (w.moveCursor env settings before).page = w.page ∧
      (w.moveCursor env settings before).cursorPosition.y = w.cursorPosition.y ∧
      ((w.moveCursor env settings before).state.text.length < before.length ∨
        (w.state.text = before ∧ (w.moveCursor env settings before).state.text = before ∧ w.state.columnBegin ≠ 0 ∧
          (w.moveCursor env settings before).Blocked settings)) := by
  have discarded : (discardGlyph env settings before w.state).columnLimit = w.state.columnLimit := by
    rw [discardGlyph]
    split <;> rfl
  rw [moveCursor]
  by_cases wrapping : w.state.columnEnd ≥ w.state.columnLimit
  · rw [if_pos wrapping]
    refine ⟨{ sound with
      size := { sound.size with }
      position := ?_
      limit := ?_
      passes := sound.passes.imp id (fun ⟨passes⟩ => ⟨passes⟩) }, rfl, rfl, ?_⟩
    · split <;> rfl
    · rw [discarded]
      exact sound.limit
    · dsimp only
      rcases progress with shorter | ⟨same, _⟩
      · left
        rw [discardGlyph]
        split
        · omega
        · exact shorter
      · by_cases never : w.state.columnBegin = 0 ∨ settings.wrapAtEOL = false
        · left
          rw [discardGlyph, if_pos ⟨congrArg List.length same, never⟩, same, length_drop]
          have positive := env.measure.next_positive before nonempty
          have long := length_pos_iff.mpr nonempty
          omega
        · right
          have wrap : settings.wrapAtEOL = true := by
            cases isWrap : settings.wrapAtEOL with
            | true => rfl
            | false => exact absurd (.inr isWrap) never
          refine ⟨same, ?_, fun zero => never (.inl zero), wrap, ?_⟩
          · rw [discardGlyph, if_neg (fun both => never both.2)]
            exact same
          · simp [wrap]
  · rw [if_neg wrapping]
    refine ⟨{ sound with
      size := { sound.size with }
      position := rfl
      passes := sound.passes.imp id (fun ⟨passes⟩ => ⟨passes⟩) }, rfl, rfl, ?_⟩
    rcases progress with shorter | ⟨_, reached⟩
    · exact .inl shorter
    · exact absurd reached wrapping

include valid in
theorem wrap_line_cases (w next : Writing) (sound : w.Sound settings width height spared)
    (leaves : spared → w.Blocked settings → ¬ w.AtEnd settings) (wrapped : w.wrapLine env settings = some next) :
    next.Sound settings width height spared ∧ next.state.text = w.state.text ∧
      ((¬ w.Blocked settings ∧ next.page = w.page ∧ next.cursorPosition = w.cursorPosition) ∨
        (w.Blocked settings ∧ (next.page.bottom - next.cursorPosition.y < w.page.bottom - w.cursorPosition.y ∨
          next.cursorPosition.x = 0 ∨ (0 ≤ next.cursorPosition.x ∧
            next.cursorPosition.x + 2 ≤ next.state.columnLimit)))) := by
  rw [wrapLine] at wrapped
  split at wrapped
  · rename_i delayed wrap isDelayed
    have reset : ({ w with buffer := { w.buffer with cursor := { w.buffer.cursor with delayedAt := none } } } : Writing).Sound
      settings width height spared :=
      { sound with size := { sound.size with }, passes := sound.passes.imp id (fun ⟨passes⟩ => ⟨passes⟩) }
    split at wrapped
    · rename_i same
      have blocked : w.Blocked settings := ⟨wrap, by rw [isDelayed, same]⟩
      obtain ⟨nextSound, sameText, advances⟩ := next_line_sound env settings valid width height wrap _ next reset
        (fun isSpared => leaves isSpared blocked) wrapped
      exact ⟨nextSound, sameText, .inr ⟨blocked, advances⟩⟩
    rename_i other
    cases wrapped
    refine ⟨reset, rfl, .inl ⟨fun blocked => ?_, rfl, rfl⟩⟩
    rw [Blocked, isDelayed, Option.some.injEq] at blocked
    exact other blocked.2
  · rename_i notBlocked
    cases wrapped
    exact ⟨sound, rfl, .inl ⟨fun blocked => notBlocked _ blocked.1 blocked.2, rfl, rfl⟩⟩

-- The text gets shorter, or the cursor is closer to the last row of the page, or the next round feeds a line.
def Writing.remaining (w : Writing) : Nat × Nat :=
  (w.state.text.length, (w.page.bottom - w.cursorPosition.y).toNat + if w.Blocked settings then 0 else 1)

include valid in
theorem write_step_progress (sound : w.Sound settings width height spared) (goesOn : spared → ¬ w.Deadlocked settings) :
    (∃ result, w.writeStep env settings = .done result) ∨ ∃ next, w.writeStep env settings = .again next ∧
      next.Sound settings width height spared ∧
      Prod.Lex (· < ·) (· < ·) (next.remaining settings) (w.remaining settings) := by
  rw [writeStep]
  by_cases empty : w.state.text.isEmpty
  · rw [if_pos empty]
    exact .inl ⟨some w, rfl⟩
  rw [if_neg empty]
  have nonempty : w.state.text ≠ [] := fun isNil => empty (List.isEmpty_iff.mpr isNil)
  cases isWritten : (w.wrapLine env settings).bind (writeText env settings) with
  | none => exact .inl ⟨none, rfl⟩
  | some written =>
    right
    obtain ⟨line, isLine, isText⟩ := Option.bind_eq_some_iff.mp isWritten
    obtain ⟨lineSound, sameText, advances⟩ := wrap_line_cases env settings valid width height w line sound
      (fun isSpared blocked atEnd => goesOn isSpared ⟨nonempty, blocked, atEnd⟩) isLine
    obtain ⟨writtenSound, samePage, samePosition, progress⟩ := write_text_progress env settings width height lineSound
      (by rw [sameText]; exact nonempty) isText
    have isBegin := progress.columnBegin
    have enough := progress.enough
    have less := progress.written
    rw [sameText] at less enough
    obtain ⟨nextSound, nextPage, nextRow, moved⟩ := move_cursor_progress env settings width height nonempty
      writtenSound (by rw [progress.columnLimit]; exact less)
    refine ⟨_, rfl, nextSound, ?_⟩
    rcases moved with shorter | ⟨same, sameNext, notFirst, blocked⟩
    · exact Prod.Lex.left _ _ shorter
    rw [remaining, sameNext]
    refine Prod.Lex.right _ ?_
    rw [if_pos blocked, nextPage, nextRow, samePage, samePosition]
    have notShorter : ¬ written.state.text.length < w.state.text.length := by
      rw [same]
      exact Nat.lt_irrefl _
    have row := lineSound.bottom
    rcases advances with ⟨free, isPage, isPosition⟩ | ⟨_, lower | first | wide⟩
    · rw [if_neg free, isPage, isPosition]
      omega
    · omega
    · rw [isBegin] at notFirst
      exact absurd first notFirst
    · exact absurd (enough wide.1 wide.2) notShorter

end Cogterm.VirtualTerminal
