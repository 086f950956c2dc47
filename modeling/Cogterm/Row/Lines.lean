import Cogterm.Rle.Correctness
import Cogterm.Row.System

namespace Cogterm.Buffer

open Library Til Glyphs List Option Nat
open Unicode (WChar)

variable {Attr : Type} [Inhabited Attr] {glyph : Glyph}

section

variable [DecidableEq Attr]

namespace Row

def dbcsAttrAt (row : Row Attr) (column : Int) : DbcsAttribute :=
  let col := row.clampedColumn column
  if row.uncheckedIsTrailer col then .trailing
  else if row.uncheckedIsTrailer (col + 1) then .leading
  else .single

def getAttrByColumn (row : Row Attr) (column : Int) : Option Attr := row.attr.atPosition 16 (row.clampedColumn column)

def cellView (row : Row Attr) (column : Int) : Option (OutputCellView Attr) :=
  (row.getAttrByColumn column).map (fun attr => ⟨row.glyphAt column, row.dbcsAttrAt column, attr, .stored⟩)

end Row

structure Line (Attr : Type) where
  glyphs : Glyphs
  attrs : List Attr
  lineRendition : LineRendition

namespace Line

def glyphView : Glyphs → Nat → List WChar × DbcsAttribute
  | [], _ => ([], .single)
  | glyph :: rest, column =>
    if column < glyph.width then
      (glyph.text, if column ≠ 0 then .trailing else if glyph.width = 2 then .leading else .single)
    else glyphView rest (column - glyph.width)

def cellView (line : Line Attr) (column : Nat) : OutputCellView Attr :=
  ⟨(glyphView line.glyphs column).1, (glyphView line.glyphs column).2, line.attrs.getD column default, .stored⟩

def putGlyph (glyphs : Glyphs) (column : Nat) (chars : List WChar) (width : Nat) (positive : 0 < width) (narrow : width ≤ 2) :
    Glyphs :=
  if written : chars ≠ [] then replaceGlyph glyphs column (columns glyphs) ⟨chars, width, written, positive, narrow⟩
  else glyphs

-- WriteCells for an iterator of a single cell that has a color of its own.
def writeGlyph (glyphs : Glyphs) (column : Nat) (chars : List WChar) : DbcsAttribute → Glyphs
  | .leading =>
    if column + 1 = columns glyphs then putGlyph glyphs column [unicodeSpace] 1 Nat.zero_lt_one (Nat.le_succ 1)
    else putGlyph glyphs column chars 2 Nat.zero_lt_two le_rfl
  | .trailing =>
    if column = 0 then putGlyph glyphs column [unicodeSpace] 1 Nat.zero_lt_one (Nat.le_succ 1)
    else putGlyph glyphs (column - 1) chars 2 Nat.zero_lt_two le_rfl
  | .single => putGlyph glyphs column chars 1 Nat.zero_lt_one (Nat.le_succ 1)

def writeCell (line : Line Attr) (column : Nat) (cell : OutputCellView Attr) : Line Attr :=
  { line with
    glyphs := writeGlyph line.glyphs column cell.chars cell.dbcsAttr
    attrs := line.attrs.set column cell.textAttr }

-- The writes are for columns of the line, and its text stays short.
def Takes (line : Line Attr) (width : Nat) : List (Nat × OutputCellView Attr) → Prop
  | [] => True
  | (column, cell) :: rest => (column < width ∧ cell.textAttrBehavior = .stored ∧
      (text (line.writeCell column cell).glyphs).length ≤ charOffsetsMask) ∧ (line.writeCell column cell).Takes width rest

end Line

structure Row.Shows (row : Row Attr) (line : Line Attr) : Prop where
  models : Represents row line.glyphs
  wellFormed : WellFormed 16 row.attr
  attrs : decode row.attr.runs = line.attrs
  covered : line.attrs.length = row.columnCount
  lineRendition : row.lineRendition = line.lineRendition

variable {row : Row Attr} {glyphs : Glyphs}

section

omit [DecidableEq Attr] [Inhabited Attr]

theorem glyph_view_at {before after : Glyphs} (inside : part < glyph.width) :
    Line.glyphView (before ++ glyph :: after) (columns before + part) =
      (glyph.text, if part ≠ 0 then .trailing else if glyph.width = 2 then .leading else .single) := by
  induction before with
  | nil => simp [Line.glyphView, if_pos inside]
  | cons first rest ih =>
    rw [cons_append, columns_cons, Line.glyphView, if_neg (by omega), ← ih]
    congr 1
    omega

theorem clamped_column (inside : column < row.columnCount) : row.clampedColumn column = column := by
  rw [Row.clampedColumn, clamp]
  split
  · omega
  · split <;> omega

theorem glyph_in_column (glyphs : Glyphs) (column : Nat) (inside : column < columns glyphs) :
    ∃ before glyph after part, glyphs = before ++ glyph :: after ∧ column = columns before + part ∧ part < glyph.width := by
  rcases column_cases glyphs column (by omega) with ⟨before, after, split, isColumn⟩ |
    ⟨before, wide, after, split, isWide, isColumn⟩
  · cases after with
    | nil => rw [split, append_nil] at inside; omega
    | cons glyph rest => exact ⟨before, glyph, rest, 0, split, isColumn, glyph.positive⟩
  · exact ⟨before, wide, after, 1, split, isColumn, by omega⟩

theorem glyph_at_view (models : Represents row glyphs) {column : Nat} (inside : column < row.columnCount) :
    row.glyphAt column = (Line.glyphView glyphs column).1 := by
  have width := models.columns
  obtain ⟨before, glyph, after, part, rfl, rfl, part_lt⟩ := glyph_in_column glyphs column (by omega)
  have start := (located_backward row models.fits (columns before + part) (by omega) models.offsets).2
  obtain ⟨ending, endSplit, _, forward, finish, _⟩ := located_forward row models.fits (columns before + part + 1) (by omega)
    (by rw [models.offsets, encode_length]) (by rw [models.offsets])
  rw [take_columns_append, takeColumns, if_neg (by omega), append_nil] at start
  rw [add_assoc, drop_columns_append, dropColumns, show part + 1 - glyph.width = 0 by omega, dropColumns, append_cons] at endSplit
  rw [← append_cancel_right endSplit] at forward finish
  obtain ⟨spare, isChars⟩ := models.chars
  simp only [Row.glyphAt, clamped_column inside, forward, finish, start]
  simp [glyph_view_at part_lt, isChars, take_append]

theorem trailer_in_glyph {before after : Glyphs} (models : Represents row (before ++ glyph :: after))
    (inside : part < glyph.width) : row.uncheckedIsTrailer (columns before + part) = decide (part ≠ 0) := by
  have narrow := glyph.narrow
  by_cases first : part = 0
  · simp [first, (boundary_entry row _ models before _ rfl).1]
  have second : part = 1 := by omega
  have dropped := encode_drop_inside 0 before after glyph (by omega)
  rw [← models.offsets] at dropped
  rw [second, (trailer_at row _ dropped (front_small models.fits)).2]
  rfl

theorem dbcs_attr_view (models : Represents row glyphs) (inside : column < row.columnCount) :
    row.dbcsAttrAt column = (Line.glyphView glyphs column).2 := by
  obtain ⟨before, glyph, after, part, rfl, rfl, part_lt⟩ :=
    glyph_in_column glyphs column (by rw [models.columns]; exact inside)
  have narrow := glyph.narrow
  simp only [Row.dbcsAttrAt, clamped_column inside]
  rw [trailer_in_glyph models part_lt, glyph_view_at part_lt]
  by_cases first : part = 0
  · by_cases wide : glyph.width = 2
    · have next := trailer_in_glyph models (show 1 < glyph.width by omega)
      simp [first, next, wide]
    · have next := (boundary_entry row _ models (before ++ [glyph]) after (by simp)).1
      rw [columns_append, columns_cons, columns_nil, show glyph.width = 1 by omega] at next
      simp [first, next, wide]
  · simp [first]

theorem row_cell_view [Inhabited Attr] {line : Line Attr} (shows : row.Shows line) (inside : column < row.columnCount) :
    row.cellView column = some (line.cellView column) := by
  have covered := shows.covered
  rw [Row.cellView, Row.getAttrByColumn, clamped_column inside, at_position_decodes shows.wellFormed,
    shows.attrs, getElem?_eq_getElem (by omega), map_some, glyph_at_view shows.models inside,
    dbcs_attr_view shows.models inside, Line.cellView, getD_eq_getElem _ _ (by omega)]

end

section

omit [Inhabited Attr] in
theorem replace_value_single (rle : Rle Attr) (wellFormed : WellFormed 16 rle) (column : Nat) (inside : column < rle.total)
    (value : Attr) : ∃ result, rle.replaceValue 16 column (column + 1) value = some result ∧ WellFormed 16 result ∧
      decode result.runs = (decode rle.runs).set column value := by
  have length := decode_length rle.runs
  rw [← wellFormed.total] at length
  obtain ⟨result, replaced, formed, values⟩ := Operation.agrees_listed
    ((Operation.replace_value_agrees_iff wellFormed column (column + 1) value).mpr (.inl (by omega))) (if_neg (by omega))
  refine ⟨result, replaced, formed, ?_⟩
  rw [values, set_eq_take_append_cons_drop, if_pos (by omega), Nat.min_eq_left (by omega)]
  simp

structure Rewrites (row changed : Row Attr) (glyphs : Glyphs) : Prop where
  frame : changed = { row with
      chars := changed.chars
      charOffsets := changed.charOffsets
      doubleBytePadded := changed.doubleBytePadded }
  models : Represents changed glyphs

variable (env : Environment) (plenty : ∀ size, size ≤ 0xFFFF → (env.heap.allocate size).isSome) {line : Line Attr}
  (shows : row.Shows line) (narrow : row.columnCount ≤ 0xFFFD)

section

include plenty shows narrow

omit [DecidableEq Attr] in
theorem replace_characters_rewrites (column : Nat) (inside : column ≤ row.columnCount) (chars : List WChar) (width : Nat)
    (positive : 0 < width) (short : width ≤ 2)
    (fits : (text (Line.putGlyph line.glyphs column chars width positive short)).length ≤ charOffsetsMask) :
    ∃ changed, row.replaceCharacters env column width chars = (changed, some ()) ∧
      Rewrites row changed (Line.putGlyph line.glyphs column chars width positive short) := by
  have models := shows.models
  by_cases written : chars ≠ []
  · have performs := replace_characters_performs env models narrow column ⟨chars, width, written, positive, short⟩
    rw [Line.putGlyph, dif_pos written, models.columns] at fits ⊢
    rw [clamped_inside inside] at performs
    rcases performs with ⟨refused, _⟩ | ⟨_, ⟨value, returned, _⟩, updates⟩
    · exact absurd refused (not_refused plenty (by rw [charOffsetsMask] at fits; omega))
    · exact ⟨_, Prod.ext rfl returned, updates.frame, updates.models fits⟩
  · have invalid := mt (start_valid row column row.columnCount chars).mp (fun both => written both.2)
    rw [Line.putGlyph, dif_neg written, Row.replaceCharacters]
    simp only [invalid]
    exact ⟨row, rfl, rfl, models⟩

variable (inside : column < row.columnCount) (cell : OutputCellView Attr)
  (fits : (text (line.writeCell column cell).glyphs).length ≤ charOffsetsMask)

include inside fits

omit [DecidableEq Attr] in
theorem write_text_rewrites (it : OutputCellIterator Attr) (color : Attr) (uses starts : Nat) : ∃ changed moves,
      CellWriting.writeText env (row.columnCount - 1) cell 0 ⟨row, it, color, uses, starts, column⟩ =
        ((changed, some ()), moves) ∧
      (moves = false → column = row.columnCount - 1) ∧ Rewrites row changed (line.writeCell column cell).glyphs := by
  have width := shows.models.columns
  generalize isResult : (line.writeCell column cell).glyphs = result at fits ⊢
  -- All cases but one replace the characters of one glyph and move on.
  have put (start : Nat) (chars : List WChar) (width : Nat) (positive : 0 < width) (short : width ≤ 2)
    (before : start ≤ column) (isPut : Line.putGlyph line.glyphs start chars width positive short = result) :
      ∃ changed moves, (row.replaceCharacters env start width chars, true) = ((changed, some ()), moves) ∧
        (moves = false → column = row.columnCount - 1) ∧ Rewrites row changed result := by
    subst isPut
    obtain ⟨changed, replaced, rewrites⟩ := replace_characters_rewrites env plenty shows narrow start (by omega) chars width
      positive short fits
    exact ⟨changed, true, congrArg (·, true) replaced, nofun, rewrites⟩
  rw [CellWriting.writeText]
  rw [Line.writeCell] at isResult
  cases kind : cell.dbcsAttr with
  | leading =>
    simp only [kind, Line.writeGlyph] at isResult
    by_cases last : column = row.columnCount - 1
    · rw [if_pos (by omega)] at isResult
      subst isResult
      obtain ⟨changed, replaced, rewrites⟩ :=
        replace_characters_rewrites env plenty shows narrow column (by omega) _ 1 _ _ fits
      have cleared : row.clearCell env column = (changed, some ()) := replaced
      exact ⟨{ changed with doubleBytePadded := true }, false, by simp [if_pos last, cleared], fun _ => last,
        by rw [rewrites.frame], { rewrites.models with }⟩
    · rw [if_neg (by omega)] at isResult
      simp only [if_neg last]
      exact put _ _ 2 _ _ le_rfl isResult
  | trailing =>
    simp only [kind, Line.writeGlyph] at isResult
    by_cases first : column = 0
    · rw [if_pos first] at isResult
      simp only [if_pos first]
      exact put _ _ 1 _ _ le_rfl isResult
    · rw [if_neg first] at isResult
      simp only [if_neg first, if_true, ← Int.natCast_one, ← Int.natCast_sub (show 1 ≤ column by omega)]
      exact put _ _ 2 _ _ (sub_le _ _) isResult
  | single =>
    simp only [kind] at isResult
    exact put _ _ 1 _ _ le_rfl isResult

variable (stored : cell.textAttrBehavior = .stored)

include stored

theorem write_cells_loop_single : ∃ changed it, CellWriting.writeCellsLoop env none (row.columnCount - 1) 3
      ⟨row, ⟨[(cell, 0)], cell⟩, cell.textAttr, 0, column, column⟩ =
        (changed, some ⟨changed, it, cell.textAttr, 1, column, column + 1⟩) ∧
      Rewrites row changed (line.writeCell column cell).glyphs := by
  have next : narrow16 ((column : Int) + 1) = column + 1 := narrow_small (column + 1) (by omega)
  have once : narrow16 ((0 : Nat) + 1) = 1 := rfl
  obtain ⟨changed, moves, written, ends, rewrites⟩ := write_text_rewrites env plenty shows narrow inside cell fits
    ⟨[(cell, 0)], cell⟩ cell.textAttr 1 column
  refine ⟨changed, if moves then ⟨[], cell⟩ else ⟨[(cell, 0)], cell⟩, ?_, rewrites⟩
  rw [CellWriting.writeCellsLoop]
  simp only [if_pos (show column ≤ row.columnCount - 1 by omega), CellWriting.writeCell, CellWriting.writeColor, stored,
    reduceCtorEq, if_false, if_true, once, written, next, getD_none, ite_self]
  rw [CellWriting.writeCellsLoop]
  cases moves with
  | true => simp
  | false =>
    have final := ends rfl
    simp only [Bool.false_eq_true, if_false]
    rw [if_neg (by omega)]

theorem write_cells_single : ∃ changed it, row.writeCells env ⟨[(cell, 0)], cell⟩ column none none = (changed, some it) ∧
      changed.Shows (line.writeCell column cell) := by
  have covered := shows.covered
  have total : row.attr.total = row.columnCount := by rw [shows.wellFormed.total, ← decode_length, shows.attrs, covered]
  have isColumn : narrow16 column = column := narrow_small column (by omega)
  have isFinal : narrow16 (row.columnCount - 1) = row.columnCount - 1 := by
    rw [← Int.natCast_one, ← Int.natCast_sub (by omega), narrow_small _ (by omega)]
  obtain ⟨changed, it, looped, rewrites⟩ := write_cells_loop_single env plenty shows narrow inside cell fits stored
  have frame : changed.attr = row.attr := by rw [rewrites.frame]
  obtain ⟨attr, replaced, formed, decoded⟩ := replace_value_single changed.attr (frame ▸ shows.wellFormed) column
    (by rw [frame]; omega) cell.textAttr
  refine ⟨{ changed with attr := attr }, it, ?_, { rewrites.models with }, formed, ?_, ?_, ?_⟩
  · rw [Row.writeCells, if_neg (by simp only [getD_none]; omega)]
    simp only [getD_none, isFinal, length_singleton, Row.startCells, isColumn, head?_cons, elim_some, looped, one_ne_zero,
      if_false, replaced]
  · rw [decoded, frame, shows.attrs]
    rfl
  · simp [Line.writeCell, covered, congrArg Row.columnCount rewrites.frame]
  · exact (congrArg Row.lineRendition rewrites.frame).trans shows.lineRendition

end

def Row.writeRun (row : Row Attr) : List (Nat × OutputCellView Attr) → Option (Row Attr)
  | [] => some row
  | (column, cell) :: rest =>
    let written := row.writeCells env ⟨[(cell, 0)], cell⟩ column none none
    written.2.bind fun _ => written.1.writeRun rest

include plenty shows narrow

theorem row_runs_as_line (writes : List (Nat × OutputCellView Attr)) (takes : line.Takes row.columnCount writes) (column : Nat)
    (inside : column < row.columnCount) :
    (row.writeRun env writes).bind (·.cellView column) =
      some ((writes.foldl (fun line write => line.writeCell write.1 write.2) line).cellView column) := by
  induction writes generalizing row line with
  | nil => exact row_cell_view shows inside
  | cons write rest ih =>
    obtain ⟨⟨within, stored, fits⟩, takes⟩ := takes
    obtain ⟨changed, it, written, changedShows⟩ := write_cells_single env plenty shows narrow within write.2 fits stored
    have same : changed.columnCount = row.columnCount := by
      rw [← changedShows.covered, ← shows.covered, Line.writeCell, length_set]
    rw [Row.writeRun, written]
    exact ih changedShows (same ▸ narrow) (same ▸ takes) (same ▸ inside)

end

theorem two_blanks_show : (Row.construct 2 ' ').Shows ⟨spaces 2, [' ', ' '], .singleWidth⟩ :=
  ⟨blank_represents _ (by decide) rfl rfl, two_blanks_well_formed, rfl, rfl, rfl⟩

theorem two_blanks_run : ((Row.construct 2 ' ').writeRun graphemeEnvironment
      [(0, ⟨[0x732B], .leading, 'c', .stored⟩), (1, ⟨[0x61], .single, 'a', .stored⟩)]).bind (·.cellView 0) =
    some ⟨[unicodeSpace], .single, 'c', .stored⟩ :=
  row_runs_as_line graphemeEnvironment (fun _ _ => rfl) two_blanks_show (by decide) _ (by simp only [Line.Takes]; decide) 0
    (by decide)

end

structure Line.Plain (width : Nat) (line : Line Attr) : Prop where
  single : ∀ glyph ∈ line.glyphs, glyph.width = 1
  glyphs : line.glyphs.length = width
  attrs : line.attrs.length = width
  lineRendition : line.lineRendition = .singleWidth

structure OutputCellView.Narrow (cell : OutputCellView Attr) : Prop where
  written : cell.chars ≠ []
  single : cell.dbcsAttr = .single
  stored : cell.textAttrBehavior = .stored

theorem single_columns (single : ∀ glyph ∈ glyphs, glyph.width = 1) : columns glyphs = glyphs.length := by
  induction glyphs with
  | nil => rfl
  | cons glyph rest ih =>
    simp [single glyph mem_cons_self, ih (fun other member => single other (mem_cons_of_mem _ member)), Nat.add_comm]

theorem single_take (single : ∀ glyph ∈ glyphs, glyph.width = 1) (column : Nat) :
    takeColumns column glyphs = glyphs.take column := by
  induction glyphs generalizing column with
  | nil => simp [takeColumns]
  | cons glyph rest ih =>
    have width := single glyph mem_cons_self
    cases column with
    | zero => simp [takeColumns, width]
    | succ column =>
      simp [takeColumns, width, ih (fun other member => single other (mem_cons_of_mem _ member))]

theorem single_drop (single : ∀ glyph ∈ glyphs, glyph.width = 1) (column : Nat) :
    dropColumns column glyphs = glyphs.drop column := by
  induction glyphs generalizing column with
  | nil => cases column <;> simp [dropColumns]
  | cons glyph rest ih =>
    cases column with
    | zero => simp [dropColumns]
    | succ column =>
      simp [dropColumns, single glyph mem_cons_self, ih (fun other member => single other (mem_cons_of_mem _ member))]

theorem single_view (single : ∀ glyph ∈ glyphs, glyph.width = 1) (column : Nat) :
    Line.glyphView glyphs column = ((glyphs[column]?.elim [] Glyph.text), .single) := by
  induction glyphs generalizing column with
  | nil => rfl
  | cons glyph rest ih =>
    have width := single glyph mem_cons_self
    cases column with
    | zero => simp [Line.glyphView, width]
    | succ column =>
      rw [Line.glyphView, if_neg (by omega), width, Nat.add_sub_cancel,
        ih (fun other member => single other (mem_cons_of_mem _ member)), getElem?_cons_succ]

theorem single_replace (single : ∀ glyph ∈ glyphs, glyph.width = 1) (inside : column < glyphs.length)
    (narrow : glyph.width = 1) : replaceGlyph glyphs column (columns glyphs) glyph = glyphs.set column glyph := by
  have width := single_columns single
  have front : columns (glyphs.take column) = column := by
    rw [single_columns (fun other member => single other (mem_of_mem_take member)), length_take]
    omega
  have rest : columns (glyphs.drop (column + 1)) = glyphs.length - (column + 1) := by
    simp [single_columns (fun other member => single other (mem_of_mem_drop member))]
  have lead : leadIn column glyphs = glyphs.take column := by
    rw [leadIn, single_take single, front, Nat.sub_self]
    exact append_nil _
  rw [replaceGlyph, if_pos (by omega), lead, layoutGlyph, if_neg (by omega), settle]
  simp only [front, narrow, single_drop single, rest, columns_append, columns_cons, columns_nil, width]
  rw [show glyphs.length - (glyphs.length - (column + 1)) - (column + (1 + 0)) = 0 by omega, set_eq_take_append_cons_drop,
    if_pos inside]
  simp [spaces]

variable {width : Nat} {line : Line Attr} (plain : line.Plain width)

include plain

theorem plain_view (inside : column < width) : (line.cellView column).Narrow := by
  have length := plain.glyphs
  have view := single_view plain.single column
  rw [getElem?_eq_getElem (by omega)] at view
  refine ⟨?_, by rw [Line.cellView, view], rfl⟩
  rw [Line.cellView, view]
  exact (line.glyphs[column]).written

variable {column : Nat} (inside : column < width) {cell : OutputCellView Attr} (narrow : cell.Narrow)

include inside narrow

omit [Inhabited Attr] in
theorem plain_write_glyphs : (line.writeCell column cell).glyphs =
    line.glyphs.set column ⟨cell.chars, 1, narrow.written, by decide, by decide⟩ := by
  have length := plain.glyphs
  rw [Line.writeCell]
  simp only [narrow.single, Line.writeGlyph, Line.putGlyph, dif_pos narrow.written]
  exact single_replace plain.single (by omega) rfl

omit [Inhabited Attr] in
theorem plain_write : (line.writeCell column cell).Plain width := by
  refine ⟨?_, ?_, ?_, plain.lineRendition⟩
  · rw [plain_write_glyphs plain inside narrow]
    intro glyph member
    rcases mem_or_eq_of_mem_set member with old | new
    · exact plain.single glyph old
    · rw [new]
  · simp [plain_write_glyphs plain inside narrow, plain.glyphs]
  · simp [Line.writeCell, plain.attrs]

theorem plain_write_view :
    (line.writeCell column cell).cellView other = if other = column then cell else line.cellView other := by
  have glyphs := plain.glyphs
  have attrs := plain.attrs
  have written := plain_write plain inside narrow
  rw [Line.cellView, Line.cellView, single_view written.single, single_view plain.single, plain_write_glyphs plain inside narrow]
  by_cases same : other = column
  · rw [same, getElem?_set_self (by omega), Line.writeCell]
    obtain ⟨chars, dbcsAttr, textAttr, behavior⟩ := cell
    obtain ⟨_, single, stored⟩ := narrow
    simp only at single stored
    simp [single, stored, attrs, inside]
  · simp [if_neg same, Line.writeCell, getElem?_set_ne (Ne.symm same)]

end Cogterm.Buffer
