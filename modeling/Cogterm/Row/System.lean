import Cogterm.Row.Invariant
import Cogterm.Row.Measure

namespace Cogterm.Buffer

open Library Til Glyphs List
open Unicode (WChar)

variable {Attr : Type} [Inhabited Attr]

section

structure Sound (row : Row Attr) : Prop where
  narrow : row.columnCount ≤ charOffsetsMask
  stored : ∃ glyphs, Represents row glyphs

variable {row : Row Attr} {columnBegin : Int}

section

omit [Inhabited Attr] in
theorem sound_blank (narrow : row.columnCount ≤ charOffsetsMask)
    (chars : row.chars = List.replicate row.columnCount unicodeSpace)
    (offsets : row.charOffsets = iota (row.columnCount + 1) 0) : Sound row :=
  ⟨narrow, spaces row.columnCount, blank_represents row narrow chars offsets⟩

omit [Inhabited Attr] in
theorem sound_frame (changed : Row Attr) (sound : Sound row) (columnCount : changed.columnCount = row.columnCount)
    (chars : changed.chars = row.chars) (offsets : changed.charOffsets = row.charOffsets) : Sound changed := by
  obtain ⟨glyphs, models⟩ := sound.stored
  refine ⟨by rw [columnCount]; exact sound.narrow, glyphs, ?_, ?_, ?_, models.fits, ?_⟩
  · rw [columnCount, models.columns]
  · rw [offsets, models.offsets]
  · rw [chars]
    exact models.chars
  · rw [chars]
    exact models.capacity

theorem performs_sound (narrow : row.columnCount ≤ charOffsetsMask) (performs : Performs heap row result returns outcome)
    (stays : outcome.1.charSize ≤ charOffsetsMask) : Sound outcome.1 := by
  rcases performs with ⟨_, failed⟩ | ⟨_, _, updates⟩
  · rw [failed]
    exact sound_blank narrow rfl rfl
  rw [updates.charSize] at stays
  refine ⟨?_, result, updates.models stays⟩
  rw [updates.frame]
  exact narrow

variable {env : Environment}

theorem replace_text_sound (sound : Sound row)
    (stays : (row.replaceText env state).1.charSize ≤ charOffsetsMask) : Sound (row.replaceText env state).1 := by
  obtain ⟨glyphs, models⟩ := sound.stored
  have narrow : row.columnCount ≤ 0xFFFD := Nat.le_trans sound.narrow (by decide)
  exact performs_sound sound.narrow (replace_text_performs env models narrow state) stays

theorem replace_characters_sound (sound : Sound row) (positive : 1 ≤ width) (narrow : width ≤ 2)
    (stays : (row.replaceCharacters env columnBegin width chars).1.charSize ≤ charOffsetsMask) :
    Sound (row.replaceCharacters env columnBegin width chars).1 := by
  obtain ⟨glyphs, models⟩ := sound.stored
  have columnCount : row.columnCount ≤ 0xFFFD := Nat.le_trans sound.narrow (by decide)
  by_cases written : chars = []
  · have invalid := mt (start_valid row columnBegin row.columnCount chars).mp (fun both => both.2 written)
    rw [Row.replaceCharacters]
    simp only [invalid]
    exact sound
  · obtain ⟨glyph, isText, isWidth⟩ : ∃ glyph : Glyph, glyph.text = chars ∧ (glyph.width : Int) = width :=
      ⟨⟨chars, width.toNat, written, by omega, by omega⟩, rfl, by simp; omega⟩
    rw [← isText, ← isWidth] at stays ⊢
    exact performs_sound sound.narrow (replace_characters_performs env models columnCount columnBegin glyph) stays

theorem copy_text_sound (sound : Sound row) (sources : ∀ source ∈ other, Sound source)
    (stays : (row.copyTextFrom env other state).1.charSize ≤ charOffsetsMask) : Sound (row.copyTextFrom env other state).1 := by
  cases other with
  | none =>
    rw [Row.copyTextFrom]
    simp only [Option.isNone_none, Bool.or_true]
    exact sound
  | some source =>
    obtain ⟨glyphs, models⟩ := sound.stored
    obtain ⟨sourceGlyphs, sourceModels⟩ := (sources source rfl).stored
    have columnCount : row.columnCount ≤ 0xFFFD := Nat.le_trans sound.narrow (by decide)
    exact performs_sound sound.narrow (copy_text_performs env sourceModels state rfl rfl rfl rfl models columnCount) stays

omit [Inhabited Attr] in
theorem copy_attributes_sound (text : copied.1.charSize ≤ charOffsetsMask → Sound copied.1)
    (stays : (Row.copyAttributesFrom attributes columnCount copied).1.charSize ≤ charOffsetsMask) :
    Sound (Row.copyAttributesFrom attributes columnCount copied).1 := by
  revert stays
  rw [Row.copyAttributesFrom]
  cases copied.2 with
  | none => exact text
  | some _ =>
    cases attributes.resizeTrailingExtent 16 columnCount with
    | none => exact fun stays => sound_frame _ (text stays) rfl rfl rfl
    | some attr => exact fun stays => sound_frame _ (text stays) rfl rfl rfl

theorem copy_from_sound (sound : Sound row) (sources : ∀ source ∈ other, Sound source)
    (stays : (row.copyFrom env other).1.charSize ≤ charOffsetsMask) : Sound (row.copyFrom env other).1 := by
  have framed := sound_frame
    { row with lineRendition := (other.getD row).lineRendition, wrapForced := (other.getD row).wrapForced } sound rfl rfl rfl
  exact copy_attributes_sound (copy_text_sound framed sources) stays

theorem clear_cell_sound (sound : Sound row) (stays : (row.clearCell env column).1.charSize ≤ charOffsetsMask) :
    Sound (row.clearCell env column).1 :=
  replace_characters_sound sound (by decide) (by decide) stays

end

variable {wrap : Option Bool}

namespace CellWriting

variable [DecidableEq Attr] (env : Environment)

def rows (wrap : Option Bool) (finalColumnInRow : Nat) : Nat → CellWriting Attr → List (Row Attr)
  | 0, _ => []
  | fuel + 1, w =>
    match w.it.cells with
    | [] => []
    | (cell, position) :: rest =>
      if w.currentIndex ≤ finalColumnInRow then
        let written := w.writeCell env wrap finalColumnInRow cell position rest
        match written.2 with
        | none => [written.1]
        | some w => written.1 :: rows wrap finalColumnInRow fuel w
      else []

variable {w : CellWriting Attr}

omit [Inhabited Attr] in
theorem write_color_sound (sound : Sound w.row) (succeeded : w.writeColor cell = some colored) : Sound colored.row := by
  rw [writeColor] at succeeded
  split at succeeded
  · cases succeeded
    exact sound
  split at succeeded
  · cases succeeded
    exact sound
  · obtain ⟨attr, _, isColored⟩ := Option.map_eq_some_iff.mp succeeded
    rw [← isColored]
    exact sound_frame _ sound rfl rfl rfl

omit [DecidableEq Attr] in
theorem write_text_sound (finalColumnInRow : Nat) (cell : OutputCellView Attr) (position : Nat) (sound : Sound w.row)
    (stays : (w.writeText env finalColumnInRow cell position).1.1.charSize ≤ charOffsetsMask) :
    Sound (w.writeText env finalColumnInRow cell position).1.1 := by
  revert stays
  rw [writeText]
  cases cell.dbcsAttr with
  | leading =>
    by_cases last : w.currentIndex = finalColumnInRow
    · simp only [if_pos last]
      exact fun stays => sound_frame _ (clear_cell_sound sound stays) rfl rfl rfl
    · simp only [if_neg last]
      exact replace_characters_sound sound (by decide) (by decide)
  | trailing =>
    by_cases first : w.currentIndex = 0
    · simp only [if_pos first]
      exact clear_cell_sound sound
    simp only [if_neg first]
    by_cases begins : position = 0
    · simp only [if_pos begins]
      exact replace_characters_sound sound (by decide) (by decide)
    · simp only [if_neg begins]
      exact fun _ => sound
  | single => exact replace_characters_sound sound (by decide) (by decide)

theorem write_cell_sound (wrap : Option Bool) (finalColumnInRow : Nat) (cell : OutputCellView Attr) (position : Nat)
    (rest : List (OutputCellView Attr × Nat)) (sound : Sound w.row)
    (stays : (w.writeCell env wrap finalColumnInRow cell position rest).1.charSize ≤ charOffsetsMask) :
    Sound (w.writeCell env wrap finalColumnInRow cell position rest).1 ∧
      ∀ next, (w.writeCell env wrap finalColumnInRow cell position rest).2 = some next →
        next.row = (w.writeCell env wrap finalColumnInRow cell position rest).1 := by
  revert stays
  rw [writeCell]
  cases colors : w.writeColor cell with
  | none => exact fun _ => ⟨sound, fun _ none => nomatch none⟩
  | some colored =>
    have soundColored := write_color_sound sound colors
    simp only
    split
    · exact fun _ => ⟨soundColored, by rintro _ ⟨⟩; rfl⟩
    have text := write_text_sound env finalColumnInRow cell position soundColored
    generalize colored.writeText env finalColumnInRow cell position = written at *
    cases written.1.2 with
    | none => exact fun stays => ⟨text stays, fun _ none => nomatch none⟩
    | some _ =>
      simp only
      split
      · exact fun stays => ⟨sound_frame _ (text stays) rfl rfl rfl, by rintro _ ⟨⟩; rfl⟩
      · exact fun stays => ⟨text stays, by rintro _ ⟨⟩; rfl⟩

theorem write_cells_loop_sound (w : CellWriting Attr) (sound : Sound w.row)
    (stays : ∀ row ∈ rows env wrap finalColumnInRow fuel w, row.charSize ≤ charOffsetsMask) :
    Sound (w.writeCellsLoop env wrap finalColumnInRow fuel).1 ∧
      ∀ final, (w.writeCellsLoop env wrap finalColumnInRow fuel).2 = some final →
        final.row = (w.writeCellsLoop env wrap finalColumnInRow fuel).1 := by
  induction fuel generalizing w with
  | zero => exact ⟨sound, by rintro _ ⟨⟩; rfl⟩
  | succ fuel ih =>
    rw [writeCellsLoop]
    rw [rows] at stays
    cases cells : w.it.cells with
    | nil => exact ⟨sound, by rintro _ ⟨⟩; rfl⟩
    | cons first rest =>
      obtain ⟨cell, position⟩ := first
      rw [cells] at stays
      simp only at stays ⊢
      by_cases going : w.currentIndex ≤ finalColumnInRow
      · have step := write_cell_sound env wrap finalColumnInRow cell position rest sound
        rw [if_pos going] at stays ⊢
        cases more : (w.writeCell env wrap finalColumnInRow cell position rest).2 with
        | none =>
          rw [more] at stays
          exact ⟨(step (stays _ (mem_singleton_self _))).1, fun _ none => nomatch none⟩
        | some next =>
          rw [more] at stays
          obtain ⟨soundNext, isRow⟩ := step (stays _ mem_cons_self)
          rw [← isRow next more] at soundNext
          exact ih next soundNext (fun row member => stays row (mem_cons_of_mem _ member))
      · rw [if_neg going]
        exact ⟨sound, by rintro _ ⟨⟩; rfl⟩

end CellWriting

section

variable [DecidableEq Attr] (env : Environment)

def Row.cellRows (row : Row Attr) (it : OutputCellIterator Attr) (columnBegin : Int) (wrap : Option Bool)
    (limitRight : Option Int) : List (Row Attr) :=
  if columnBegin ≥ row.columnCount ∨ limitRight.getD 0 ≥ row.columnCount then []
  else
    (row.startCells it columnBegin).rows env wrap (narrow16 (limitRight.getD (row.columnCount - 1))) (2 * it.cells.length + 1)

theorem write_cells_sound (sound : Sound row)
    (stays : ∀ written ∈ row.cellRows env it columnBegin wrap limitRight, written.charSize ≤ charOffsetsMask) :
    Sound (row.writeCells env it columnBegin wrap limitRight).1 := by
  rw [Row.cellRows] at stays
  rw [Row.writeCells]
  by_cases outside : columnBegin ≥ row.columnCount ∨ limitRight.getD 0 ≥ row.columnCount
  · rw [if_pos outside]
    exact sound
  rw [if_neg outside] at stays ⊢
  obtain ⟨soundLoop, isRow⟩ := CellWriting.write_cells_loop_sound env (row.startCells it columnBegin) sound stays
  simp only
  generalize (row.startCells it columnBegin).writeCellsLoop env wrap _ _ = looped at soundLoop isRow ⊢
  cases ended : looped.2 with
  | none => exact soundLoop
  | some w =>
    rw [← isRow w ended] at soundLoop
    simp only
    split
    · exact soundLoop
    · cases w.row.attr.replaceValue 16 w.colorStarts w.currentIndex w.currentColor with
      | none => exact soundLoop
      | some attr => exact sound_frame _ soundLoop rfl rfl rfl

end

end

open Function

variable [DecidableEq Attr]

-- A source is given by its number, so that a row may be copied from itself.
inductive Operation (Attr : Type) where
  | replaceCharacters (columnBegin width : Int) (chars : List WChar)
  | replaceText (state : RowWriteState)
  | copyTextFrom (source : Nat) (state : RowCopyTextFromState)
  | copyFrom (source : Nat)
  | writeCells (it : OutputCellIterator Attr) (columnBegin : Int) (wrap : Option Bool) (limitRight : Option Int)
  | clearCell (column : Int)
  | reset (attr : Attr)

abbrev Rows (Attr : Type) := Nat → Row Attr

def Rows.construct (widths : Nat → Nat) (fillAttribute : Attr) : Rows Attr :=
  fun index => .construct (widths index) fillAttribute

namespace Operation

def sourceRow (rows : Rows Attr) (target source : Nat) : Option (Row Attr) := if source = target then none else some (rows source)

def perform (env : Environment) (rows : Rows Attr) (target : Nat) : Operation Attr → Row Attr
  | .replaceCharacters columnBegin width chars => ((rows target).replaceCharacters env columnBegin width chars).1
  | .replaceText state => ((rows target).replaceText env state).1
  | .copyTextFrom source state => ((rows target).copyTextFrom env (sourceRow rows target source) state).1
  | .copyFrom source => ((rows target).copyFrom env (sourceRow rows target source)).1
  | .writeCells it columnBegin wrap limitRight => ((rows target).writeCells env it columnBegin wrap limitRight).1
  | .clearCell column => ((rows target).clearCell env column).1
  | .reset attr => (rows target).reset attr

def writes (env : Environment) (rows : Rows Attr) (target : Nat) : Operation Attr → List (Row Attr)
  | .writeCells it columnBegin wrap limitRight => (rows target).cellRows env it columnBegin wrap limitRight
  | operation => [operation.perform env rows target]

def Allowed : Operation Attr → Prop
  | .replaceCharacters _ width _ => 1 ≤ width ∧ width ≤ 2
  | _ => True

instance : (operation : Operation Attr) → Decidable operation.Allowed
  | .replaceCharacters _ width _ => inferInstanceAs (Decidable (1 ≤ width ∧ width ≤ 2))
  | .replaceText _ | .copyTextFrom _ _ | .copyFrom _ | .writeCells _ _ _ _ | .clearCell _ | .reset _ => isTrue trivial

end Operation

def Rows.step (env : Environment) (rows : Rows Attr) (call : Nat × Operation Attr) : Rows Attr :=
  update rows call.1 (call.2.perform env rows call.1)

def Rows.run (env : Environment) (rows : Rows Attr) (calls : List (Nat × Operation Attr)) : Rows Attr :=
  calls.foldl (Rows.step env) rows

def Rows.Stays (env : Environment) : Rows Attr → List (Nat × Operation Attr) → Prop
  | _, [] => True
  | rows, call :: rest =>
    (∀ row ∈ call.2.writes env rows call.1, row.charSize ≤ charOffsetsMask) ∧ Rows.Stays env (rows.step env call) rest

instance Rows.decidableStays (env : Environment) : (rows : Rows Attr) → (calls : List (Nat × Operation Attr)) →
    Decidable (rows.Stays env calls)
  | _, [] => isTrue trivial
  | rows, call :: rest =>
    have := Rows.decidableStays env (rows.step env call) rest
    inferInstanceAs (Decidable ((∀ row ∈ call.2.writes env rows call.1, row.charSize ≤ charOffsetsMask) ∧ _))

omit [Inhabited Attr] [DecidableEq Attr] in
theorem source_row_sound (sound : ∀ index, Sound (rows index)) (target source : Nat) :
    ∀ row ∈ Operation.sourceRow rows target source, Sound row := by
  intro row member
  rw [Operation.sourceRow] at member
  split at member
  · cases member
  · cases member
    exact sound source

variable {env : Environment}

theorem perform_sound (sound : ∀ index, Sound (rows index)) {operation : Operation Attr}
    (allowed : operation.Allowed) (stays : ∀ row ∈ operation.writes env rows target, row.charSize ≤ charOffsetsMask) :
    Sound (operation.perform env rows target) := by
  cases operation with
  | replaceCharacters columnBegin width chars =>
    exact replace_characters_sound (sound target) allowed.1 allowed.2 (stays _ mem_cons_self)
  | replaceText state => exact replace_text_sound (sound target) (stays _ mem_cons_self)
  | copyTextFrom source state =>
    exact copy_text_sound (sound target) (source_row_sound sound target source) (stays _ mem_cons_self)
  | copyFrom source =>
    exact copy_from_sound (sound target) (source_row_sound sound target source) (stays _ mem_cons_self)
  | writeCells it columnBegin wrap limitRight => exact write_cells_sound env (sound target) stays
  | clearCell column => exact clear_cell_sound (sound target) (stays _ mem_cons_self)
  | reset attr => exact sound_blank (sound target).narrow rfl rfl

theorem step_sound (sound : ∀ index, Sound (rows index)) {call : Nat × Operation Attr} (allowed : call.2.Allowed)
    (stays : ∀ row ∈ call.2.writes env rows call.1, row.charSize ≤ charOffsetsMask) (index : Nat) :
    Sound (rows.step env call index) := by
  rw [Rows.step]
  by_cases same : index = call.1
  · simpa [same] using perform_sound sound allowed stays
  · rw [update_of_ne same]
    exact sound index

theorem run_sound (rows : Rows Attr) (sound : ∀ index, Sound (rows index))
    (allowed : ∀ call ∈ calls, call.2.Allowed) (stays : rows.Stays env calls) (index : Nat) :
    Sound (rows.run env calls index) := by
  induction calls generalizing rows with
  | nil => exact sound index
  | cons call rest ih =>
    have stepped := step_sound sound (allowed call mem_cons_self) stays.1
    exact ih (rows.step env call) stepped (fun other member => allowed other (mem_cons_of_mem _ member)) stays.2

theorem rows_stay_valid (env : Environment) (widths : Nat → Nat) (narrow : ∀ index, widths index ≤ charOffsetsMask)
    (fillAttribute : Attr) (calls : List (Nat × Operation Attr)) (allowed : ∀ call ∈ calls, call.2.Allowed)
    (stays : (Rows.construct widths fillAttribute).Stays env calls) (index : Nat) :
    ((Rows.construct widths fillAttribute).run env calls index).Valid := by
  have constructed : ∀ index, Sound (Rows.construct widths fillAttribute index) := fun index =>
    sound_blank (narrow index) rfl rfl
  exact valid_iff_represents.mpr (run_sound _ constructed allowed stays index).stored

-- A detector that counts graphemes, and as much memory as it takes.
def graphemeEnvironment : Environment :=
  ⟨textMeasure ⟨.graphemes, none, []⟩ (by simp), ⟨fun size => some (List.replicate size 0), by simp⟩⟩

theorem rows_stay_valid_cat : ((Rows.construct (fun _ => 4) 0).run graphemeEnvironment
      [(0, .replaceCharacters 0 2 [0x732B]), (0, .replaceText ⟨[0x61, 0x301], 1, 4, 0, 0, 0⟩), (1, .copyFrom 0),
        (1, .writeCells ⟨[(⟨[0x732B], .leading, 7, .stored⟩, 0)], ⟨[], .single, 0, .stored⟩⟩ 3 none none),
        (0, .copyTextFrom 1 ⟨1, 4, 0, 4, 0, 0, 0, 0⟩), (1, .clearCell 1), (1, .reset 7)] 0).Valid :=
  rows_stay_valid graphemeEnvironment (fun _ => 4) (fun _ => by decide) 0 _ (by decide) (by decide) 0

end Cogterm.Buffer
