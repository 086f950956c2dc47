import Cogterm.Rle.Correctness
import Cogterm.Row.System
import Cogterm.TextBuffer.TextBuffer

namespace Cogterm.Buffer

open Library Til Glyphs List Option Nat

variable {attributes : TextAttribute} {state : RowWriteState}

section

structure Kept (row : Row TextAttribute) : Prop where
  sound : Sound row
  wellFormed : WellFormed 16 row.attr
  total : row.attr.total = row.columnCount

section

variable {T : Type} [DecidableEq T]

omit [DecidableEq T] in
theorem resize_same (width : Nat) (rle : Rle T) (newSize : Nat) (positive : 0 < newSize) (total : rle.total = newSize) :
    rle.resizeTrailingExtent width newSize = some rle := by
  rw [← total, Rle.resizeTrailingExtent, if_neg (by omega), if_neg (lt_irrefl _), if_neg (lt_irrefl _)]

theorem replace_value_keeps (wellFormed : WellFormed 16 rle) {value : T}
    (safe : startIndex ≠ min endIndex rle.total ∨ Neighbour (decode rle.runs) startIndex value)
    (replaced : rle.replaceValue 16 startIndex endIndex value = some result) :
    WellFormed 16 result ∧ result.total = rle.total ∧ startIndex ≤ min endIndex rle.total := by
  have agrees := (Til.Operation.replace_value_agrees_iff wellFormed startIndex endIndex value).mpr safe
  have total := wellFormed.total
  obtain ⟨resultFormed, listed⟩ := Til.Operation.agrees_ran agrees replaced
  obtain ⟨inside, decoded⟩ := Option.ite_none_left_eq_some.mp listed
  rw [decode_length] at inside
  refine ⟨resultFormed, ?_, by omega⟩
  rw [resultFormed.total, ← decode_length, ← Option.some.inj decoded]
  simp only [length_append, length_take, length_drop, length_replicate, decode_length]
  omega

theorem replace_runs_keeps (wellFormed : WellFormed 16 rle) {replacements : List (Run T)} (canonical : Canonical replacements)
    (inside : endIndex ≤ rle.total) (same : totalLength replacements = endIndex - startIndex)
    (replaced : rle.replaceRuns 16 startIndex endIndex replacements = some result) :
    WellFormed 16 result ∧ result.total = rle.total := by
  have total := wellFormed.total
  have small := wellFormed.fits
  have safe : Til.Operation.Safe rle (.replaceRuns startIndex endIndex replacements canonical : Til.Operation T 16) := by
    by_cases wrong : startIndex > min endIndex rle.total
    · exact Or.inl wrong
    · refine Or.inr ?_
      omega
  have agrees := (Til.Operation.replace_runs_agrees_iff wellFormed startIndex endIndex canonical).mpr safe
  obtain ⟨resultFormed, listed⟩ := Til.Operation.agrees_ran agrees replaced
  obtain ⟨order, decoded⟩ := Option.ite_none_left_eq_some.mp listed
  refine ⟨resultFormed, ?_⟩
  rw [resultFormed.total, ← decode_length, ← Option.some.inj decoded]
  simp only [length_append, length_take, length_drop, decode_length]
  omega

theorem slice_keeps {rle : Rle T} (wellFormed : WellFormed 16 rle) (startIndex endIndex : Nat) (inside : endIndex ≤ rle.total) :
    Canonical (rle.slice 16 startIndex endIndex).runs ∧
      totalLength (rle.slice 16 startIndex endIndex).runs = endIndex - startIndex := by
  have total := wellFormed.total
  obtain ⟨formed, decoded⟩ := Til.Operation.slice_agrees wellFormed startIndex endIndex
  refine ⟨formed.canonical, ?_⟩
  rw [← decode_length, decoded]
  simp only [length_drop, length_take, decode_length]
  omega

end

theorem kept_reset (row : Row TextAttribute) (narrow : row.columnCount ≤ charOffsetsMask) (wide : 0 < row.columnCount)
    (attr : TextAttribute) : Kept (row.reset attr) := by
  refine ⟨sound_blank narrow rfl rfl, ⟨canonical_singleton wide, ?_, ?_⟩, rfl⟩
  · simp [Row.reset]
  · exact lt_of_le_of_lt narrow (by decide)

variable {row : Row TextAttribute}

theorem clamped_same {other : Row TextAttribute} (same : other.columnCount = row.columnCount) :
    other.clampedColumnInclusive column = row.clampedColumnInclusive column := by
  rw [Row.clampedColumnInclusive, same]
  rfl

theorem kept_attr (kept : Kept row) (wellFormed : WellFormed 16 attr)
    (total : attr.total = row.attr.total) : Kept { row with attr := attr } :=
  ⟨sound_frame _ kept.sound rfl rfl rfl, wellFormed, total.trans kept.total⟩

theorem kept_performs (kept : Kept row) (wide : 0 < row.columnCount) (fits : (text result).length ≤ charOffsetsMask)
    (performs : Performs heap row result returns outcome) : Kept outcome.1 ∧ outcome.1.columnCount = row.columnCount ∧
      ∀ value, outcome.2 = some value → returns value ∧ Represents outcome.1 result ∧ outcome.1.attr = row.attr := by
  rcases performs with ⟨_, failed⟩ | ⟨_, ⟨value, returned, holds⟩, updates⟩
  · rw [failed]
    exact ⟨kept_reset row kept.sound.narrow wide _, rfl, fun _ none => nomatch none⟩
  have sound : Sound outcome.1 := by
    refine ⟨?_, result, updates.models fits⟩
    rw [updates.frame]
    exact kept.sound.narrow
  have attr : outcome.1.attr = row.attr := by rw [updates.frame]
  have columnCount : outcome.1.columnCount = row.columnCount := by rw [updates.frame]
  refine ⟨⟨sound, ?_, ?_⟩, columnCount, ?_⟩
  · rw [attr]
    exact kept.wellFormed
  · rw [attr, columnCount]
    exact kept.total
  · intro other isOther
    rw [returned] at isOther
    cases isOther
    exact ⟨holds, updates.models fits, attr⟩

variable {glyphs : Glyphs}

section

variable (env : Environment)

structure Row.ReplaceSafe (row : Row TextAttribute) (glyphs : Glyphs) (attributes : TextAttribute) (state : RowWriteState) :
    Prop where
  fits : (text (Glyphs.replaceText env.measure glyphs (row.clampedColumnInclusive state.columnBegin)
    (row.clampedColumnInclusive state.columnLimit) state.text)).length ≤ charOffsetsMask
  nonempty : row.clampedColumnInclusive state.columnBegin ≠
      replacedEnd env.measure glyphs (row.clampedColumnInclusive state.columnBegin) (row.clampedColumnInclusive state.columnLimit)
        state.text ∨ Neighbour (decode row.attr.runs) (row.clampedColumnInclusive state.columnBegin) attributes

theorem row_replace_kept (row : Row TextAttribute) (kept : Kept row) (wide : 0 < row.columnCount) (glyphs : Glyphs)
    (models : Represents row glyphs) (attributes : TextAttribute) (state : RowWriteState)
    (safe : row.ReplaceSafe env glyphs attributes state) :
    Kept (row.replace env attributes state).1 ∧ (row.replace env attributes state).1.columnCount = row.columnCount ∧
      ∀ final, (row.replace env attributes state).2 = some final →
        Reports env.measure glyphs (row.clampedColumnInclusive state.columnBegin) (row.clampedColumnInclusive state.columnLimit)
          state final ∧
        (row.clampedColumnInclusive state.columnBegin : Int) ≤ final.columnEnd ∧ final.columnEnd ≤ row.columnCount ∧
        Represents (row.replace env attributes state).1
          (replaceText env.measure glyphs (row.clampedColumnInclusive state.columnBegin)
            (row.clampedColumnInclusive state.columnLimit) state.text) := by
  have narrow : row.columnCount ≤ 0xFFFD := le_trans kept.sound.narrow (by decide)
  have performs := replace_text_performs env models narrow state
  obtain ⟨written, columnCount, holds⟩ := kept_performs kept wide safe.fits performs
  have first := clamped_le row state.columnBegin
  have limit := clamped_le row state.columnLimit
  have finish := replaced_end_le env.measure glyphs (row.clampedColumnInclusive state.columnBegin)
    (row.clampedColumnInclusive state.columnLimit) state.text (by rw [models.columns]; exact first)
  have nonempty := safe.nonempty
  generalize isLast : replacedEnd env.measure glyphs _ _ state.text = last at finish nonempty
  rw [Row.replace]
  generalize row.replaceText env state = outcome at *
  cases result : outcome.2 with
  | none => exact ⟨written, columnCount, fun _ none => nomatch none⟩
  | some final =>
    obtain ⟨reports, stored, attr⟩ := holds final result
    have isEnd := reports.columnEnd
    rw [isLast] at isEnd
    have sameFirst : outcome.1.clampedColumnInclusive final.columnBegin = row.clampedColumnInclusive state.columnBegin := by
      rw [reports.columnBegin, clamped_same columnCount]
    have sameEnd : outcome.1.clampedColumnInclusive final.columnEnd = last := by
      rw [isEnd]
      exact clamped_inside (by omega)
    have total : row.attr.total = row.columnCount := kept.total
    simp only [Row.replaceAttributes, sameFirst, sameEnd, attr]
    cases colored : row.attr.replaceValue 16 (row.clampedColumnInclusive state.columnBegin) last attributes with
    | none => exact ⟨written, columnCount, fun _ none => nomatch none⟩
    | some replaced =>
      obtain ⟨formed, sameTotal, order⟩ := replace_value_keeps kept.wellFormed
        (by rw [min_eq_left (by omega)]; exact nonempty) colored
      refine ⟨kept_attr written formed (by rw [attr]; exact sameTotal), columnCount, ?_⟩
      intro other isOther
      cases isOther
      exact ⟨reports, by omega, by omega, stored.columns, stored.offsets, stored.chars, stored.fits, stored.capacity⟩

theorem restore_attributes_kept (kept : Kept row) (formed : WellFormed 16 scratch.attr)
    (scratchTotal : scratch.attr.total = row.columnCount) {restored : RowWriteState}
    (behind : (row.clampedColumnInclusive columnBegin : Int) ≤ restored.columnBegin)
    (inside : restored.columnEnd ≤ row.columnCount)
    (succeeded : row.restoreAttributes scratch columnBegin restored = some result) :
    Kept result ∧ result.columnCount = row.columnCount := by
  rcases restore_attributes_cases succeeded with rfl | ⟨attr, sliceBegin, sliceEnd, first, last, rfl, replaced, moves, begins,
    ends, isFirst, isLast⟩
  · exact ⟨kept, rfl⟩
  have total := kept.total
  -- Beyond the end of the row there is nothing to move.
  have order : sliceBegin ≤ first := by
    rw [Row.clampedColumnInclusive, clamp] at behind
    split at behind
    · omega
    · split at behind <;> omega
  obtain ⟨canonical, length⟩ := slice_keeps formed sliceBegin sliceEnd (by omega)
  obtain ⟨resultFormed, same⟩ := replace_runs_keeps kept.wellFormed canonical (by omega) (by omega) replaced
  exact ⟨kept_attr kept resultFormed same, rfl⟩

theorem restore_text_kept (scratch : Row TextAttribute) (kept : Kept row) (wide : 0 < row.columnCount)
    (models : Represents row glyphs) (formed : WellFormed 16 scratch.attr)
    (scratchTotal : scratch.attr.total = row.columnCount) (state : RowWriteState)
    (behind : (row.clampedColumnInclusive state.columnBegin : Int) ≤ state.columnEnd)
    (fits : (text (replaceText env.measure glyphs (row.clampedColumnInclusive state.columnEnd)
      (row.clampedColumnInclusive state.columnLimit) (scratch.getText state.columnBegin state.columnLimit))).length ≤
      charOffsetsMask) :
    Kept (row.restoreText env scratch state).1 ∧ (row.restoreText env scratch state).1.columnCount = row.columnCount := by
  have narrow : row.columnCount ≤ 0xFFFD := le_trans kept.sound.narrow (by decide)
  have performs := replace_text_performs env models narrow
    ⟨scratch.getText state.columnBegin state.columnLimit, state.columnEnd, state.columnLimit, 0, 0, 0⟩
  obtain ⟨written, columnCount, holds⟩ := kept_performs kept wide fits performs
  have first := clamped_le row state.columnEnd
  have limit := clamped_le row state.columnLimit
  have finish := replaced_end_le env.measure glyphs (row.clampedColumnInclusive state.columnEnd)
    (row.clampedColumnInclusive state.columnLimit) (scratch.getText state.columnBegin state.columnLimit)
    (by rw [models.columns]; exact first)
  rw [Row.restoreText]
  generalize row.replaceText env _ = outcome at *
  cases result : outcome.2 with
  | none =>
    exact ⟨written, columnCount⟩
  | some restored =>
    obtain ⟨reports, _, _⟩ := holds restored result
    simp only
    cases colored : outcome.1.restoreAttributes scratch state.columnBegin restored with
    | none => exact ⟨written, columnCount⟩
    | some row' =>
      obtain ⟨keptColored, sameCount⟩ := restore_attributes_kept written formed (scratchTotal.trans columnCount.symm)
        (by rw [clamped_same columnCount, reports.columnBegin]; exact behind)
        (by rw [reports.columnEnd]; simp only; omega) colored
      exact ⟨keptColored, sameCount.trans columnCount⟩

-- The scratchpad gets a copy of the row first and its text is written again.
structure Row.InsertSafe (row : Row TextAttribute) (glyphs : Glyphs) (current attributes : TextAttribute)
    (state : RowWriteState) : Prop where
  copied : (text (copyText (spaces row.columnCount) 0 row.columnCount glyphs 0
    (row.clampedColumnInclusive row.getReadableColumnCount))).length ≤ charOffsetsMask
  written : row.ReplaceSafe env glyphs attributes state
  restored : (text (Glyphs.replaceText env.measure
      (Glyphs.replaceText env.measure glyphs (row.clampedColumnInclusive state.columnBegin)
        (row.clampedColumnInclusive state.columnLimit) state.text)
      (replacedEnd env.measure glyphs (row.clampedColumnInclusive state.columnBegin)
        (row.clampedColumnInclusive state.columnLimit) state.text)
      (row.clampedColumnInclusive state.columnLimit)
      (((row.reset current).copyFrom env (some row)).1.getText state.columnBegin state.columnLimit))).length ≤ charOffsetsMask

theorem clamped_maximum (narrow : row.columnCount ≤ charOffsetsMask) :
    row.clampedColumnInclusive coordTypeMax = row.columnCount := by
  rw [charOffsetsMask] at narrow
  exact clamped_above row _ (by rw [coordTypeMax]; omega)

theorem scratch_copy_kept (kept : Kept row) (wide : 0 < row.columnCount) (models : Represents row glyphs)
    (current : TextAttribute) (copied : (text (copyText (spaces row.columnCount) 0 row.columnCount glyphs 0
      (row.clampedColumnInclusive row.getReadableColumnCount))).length ≤ charOffsetsMask) :
    ((row.reset current).copyFrom env (some row)).1.columnCount = row.columnCount ∧
      (((row.reset current).copyFrom env (some row)).2 = some () →
        ((row.reset current).copyFrom env (some row)).1.attr = row.attr) := by
  obtain ⟨blank, isBlank⟩ : ∃ blank, blank =
      { row.reset current with lineRendition := row.lineRendition, wrapForced := row.wrapForced } := ⟨_, rfl⟩
  have count : blank.columnCount = row.columnCount := by rw [isBlank]; rfl
  have blankKept : Kept blank := by
    have keptReset := kept_reset row kept.sound.narrow wide current
    rw [isBlank]
    exact ⟨sound_frame _ keptReset.sound rfl rfl rfl, keptReset.wellFormed, keptReset.total⟩
  have blankRepresents : Represents blank (spaces row.columnCount) := by
    rw [isBlank]
    exact blank_represents _ kept.sound.narrow rfl rfl
  have narrow : blank.columnCount ≤ 0xFFFD := le_trans blankKept.sound.narrow (by decide)
  have performs := copy_text_performs env models ⟨0, coordTypeMax, 0, row.getReadableColumnCount, 0, 0, 0, 0⟩
    (clamped_inside (zero_le _)) (clamped_maximum blankKept.sound.narrow) (clamped_inside (zero_le _)) rfl blankRepresents narrow
  rw [count] at performs
  obtain ⟨_, columnCount, holds⟩ := kept_performs blankKept (by omega) copied performs
  rw [Row.copyFrom]
  simp only [getD_some, ← isBlank]
  rw [Row.copyAttributesFrom]
  rw [resize_same 16 row.attr (row.reset current).columnCount wide kept.total]
  generalize blank.copyTextFrom env _ _ = outcome at *
  cases outcome.2 with
  | none => exact ⟨columnCount.trans count, fun none => by cases none⟩
  | some _ => exact ⟨columnCount.trans count, fun _ => rfl⟩

theorem row_insert_kept (kept : Kept row) (wide : 0 < row.columnCount) (models : Represents row glyphs)
    (safe : row.InsertSafe env glyphs current attributes state)
    (copies : ((row.reset current).copyFrom env (some row)).2 = some ()) :
    Kept (row.insert env ((row.reset current).copyFrom env (some row)).1 attributes state).1 ∧
      (row.insert env ((row.reset current).copyFrom env (some row)).1 attributes state).1.columnCount = row.columnCount := by
  obtain ⟨written, columnCount, holds⟩ := row_replace_kept env row kept wide glyphs models attributes state safe.written
  have sameAttr := (scratch_copy_kept env kept wide models current safe.copied).2 copies
  have restored := safe.restored
  generalize ((row.reset current).copyFrom env (some row)).1 = scratch at *
  rw [Row.insert]
  generalize row.replace env attributes state = outcome at *
  cases result : outcome.2 with
  | none => exact ⟨written, columnCount⟩
  | some final =>
    obtain ⟨reports, behind, inside, stored⟩ := holds final result
    have clampedEnd : outcome.1.clampedColumnInclusive final.columnEnd = replacedEnd env.measure glyphs
        (row.clampedColumnInclusive state.columnBegin) (row.clampedColumnInclusive state.columnLimit) state.text := by
      rw [reports.columnEnd] at inside ⊢
      exact clamped_inside (by omega)
    obtain ⟨restoredKept, sameCount⟩ := restore_text_kept env scratch written (by omega) stored
      (by rw [sameAttr]; exact kept.wellFormed) (by rw [sameAttr, columnCount]; exact kept.total) final
      (by rw [clamped_same columnCount, reports.columnBegin]; exact behind)
      (by rw [clampedEnd, clamped_same columnCount, reports.columnBegin, reports.columnLimit]; exact restored)
    exact ⟨restoredKept, sameCount.trans columnCount⟩

end

end

open Function

inductive Write where
  | replace (y : Int) (attributes : TextAttribute) (state : RowWriteState)
  | insert (y : Int) (attributes : TextAttribute) (state : RowWriteState)

namespace Write

variable (env : Environment)

def perform (buffer : TextBuffer) : Write → TextBuffer
  | .replace y attributes state => (buffer.replace env y attributes state).1
  | .insert y attributes state => (buffer.insert env y attributes state).1

def run (buffer : TextBuffer) (writes : List Write) : TextBuffer := writes.foldl (perform env) buffer

-- The texts can be addressed, and either some column is written or its
-- attributes are already next to it.
def Safe (buffer : TextBuffer) : Write → Prop
  | .replace y attributes state =>
    ∃ glyphs, Represents (buffer.getRow y) glyphs ∧ (buffer.getRow y).ReplaceSafe env glyphs attributes state
  | .insert y attributes state =>
    ∃ glyphs, Represents (buffer.getRow y) glyphs ∧
      (buffer.getRow y).InsertSafe env glyphs buffer.currentAttributes attributes state

def AllSafe : TextBuffer → List Write → Prop
  | _, [] => True
  | buffer, write :: rest => write.Safe env buffer ∧ AllSafe (write.perform env buffer) rest

end Write

structure Maintained (buffer : TextBuffer) : Prop where
  wide : 0 < buffer.width
  rows : ∀ index, Kept (buffer.rows index)
  widths : ∀ index, (buffer.rows index).columnCount = buffer.width
  scratchpad : buffer.scratchpad.columnCount = buffer.width

theorem maintained_construct (width height : Nat) (narrow : max width 1 ≤ charOffsetsMask) (attributes : TextAttribute) :
    Maintained (TextBuffer.construct width height attributes) := by
  have wide : 0 < max width 1 := Nat.lt_of_lt_of_le Nat.zero_lt_one (Nat.le_max_right width 1)
  refine ⟨wide, fun index => ?_, fun _ => rfl, rfl⟩
  exact kept_reset (Row.construct (max width 1) attributes) narrow wide attributes

theorem maintained_set_row (maintained : Maintained buffer) (y : Int) (kept : Kept row)
    (columnCount : row.columnCount = buffer.width) : Maintained (buffer.setRow y row) := by
  have rows : (buffer.setRow y row).rows = update buffer.rows (buffer.storageIndex y) row := rfl
  refine ⟨maintained.wide, fun index => ?_, fun index => ?_, maintained.scratchpad⟩
  · rw [rows]
    by_cases same : index = buffer.storageIndex y
    · simpa [same] using kept
    · rw [update_of_ne same]
      exact maintained.rows index
  · rw [rows]
    by_cases same : index = buffer.storageIndex y
    · rw [same, update_self]
      exact columnCount
    · rw [update_of_ne same]
      exact maintained.widths index

theorem reset_width {left right : Row TextAttribute} (same : left.columnCount = right.columnCount) (attr : TextAttribute) :
    left.reset attr = right.reset attr := by
  simp [Row.reset, same]

section

variable (env : Environment)

theorem replace_maintained (maintained : Maintained buffer)
    (safe : (Write.replace y attributes state).Safe env buffer) : Maintained (buffer.replace env y attributes state).1 := by
  obtain ⟨glyphs, models, rowSafe⟩ := safe
  have columnCount : (buffer.getRow y).columnCount = buffer.width := maintained.widths _
  obtain ⟨kept, same, _⟩ :=
    row_replace_kept env (buffer.getRow y) (maintained.rows _) (by rw [columnCount]; exact maintained.wide)
    glyphs models attributes state rowSafe
  exact maintained_set_row maintained y kept (same.trans columnCount)

theorem insert_maintained (maintained : Maintained buffer)
    (safe : (Write.insert y attributes state).Safe env buffer) : Maintained (buffer.insert env y attributes state).1 := by
  obtain ⟨glyphs, models, rowSafe⟩ := safe
  have columnCount : (buffer.getRow y).columnCount = buffer.width := maintained.widths _
  have keptRow : Kept (buffer.getRow y) := maintained.rows _
  have wide : 0 < (buffer.getRow y).columnCount := by
    rw [columnCount]
    exact maintained.wide
  have copyCount := (scratch_copy_kept env keptRow wide models buffer.currentAttributes rowSafe.copied).1
  have inserts := row_insert_kept env keptRow wide models rowSafe
  rw [TextBuffer.insert]
  rw [reset_width (maintained.scratchpad.trans columnCount.symm)]
  generalize ((buffer.getRow y).reset buffer.currentAttributes).copyFrom env (some (buffer.getRow y)) = copied at *
  have scratched : Maintained
      { (buffer.commit (buffer.storageIndex y + 1)).getScratchpadRow buffer.currentAttributes with scratchpad := copied.1 } :=
    { maintained with scratchpad := copyCount.trans columnCount }
  cases result : copied.2 with
  | none => exact scratched
  | some done =>
    obtain ⟨kept, same⟩ := inserts (by rw [result])
    exact maintained_set_row scratched y kept (same.trans columnCount)

theorem write_maintained (maintained : Maintained buffer) (write : Write) (safe : write.Safe env buffer) :
    Maintained (write.perform env buffer) := by
  cases write with
  | replace y attributes state => exact replace_maintained env maintained safe
  | insert y attributes state => exact insert_maintained env maintained safe

theorem writes_maintained (buffer : TextBuffer) (maintained : Maintained buffer)
    (safe : Write.AllSafe env buffer writes) : Maintained (Write.run env buffer writes) := by
  induction writes generalizing buffer with
  | nil => exact maintained
  | cons write rest ih => exact ih _ (write_maintained env maintained write safe.1) safe.2

end

theorem writes_leave_no_empty_run (env : Environment) (width height : Nat) (narrow : max width 1 ≤ charOffsetsMask)
    (attributes : TextAttribute) (writes : List Write)
    (safe : Write.AllSafe env (TextBuffer.construct width height attributes) writes) (index : Nat) :
    Positive ((Write.run env (TextBuffer.construct width height attributes) writes).rows index).attr.runs :=
  ((writes_maintained env _ (maintained_construct width height narrow attributes) safe).rows index).wellFormed.canonical.positive

def twoLetters : List Write :=
  [.replace 0 { foreground := .index16 1 } ⟨[0x61], 0, 3, 0, 0, 0⟩, .insert 0 {} ⟨[0x62], 0, 3, 0, 0, 0⟩]

theorem two_letters_safe : Write.AllSafe graphemeEnvironment (TextBuffer.construct 3 1 {}) twoLetters := by
  refine ⟨⟨spaces 3, blank_represents _ (by decide) rfl rfl, by decide +kernel, .inl (by decide +kernel)⟩, ?_, trivial⟩
  refine ⟨[Glyph.ofChar 0x61, Glyph.space, Glyph.space],
    ?_, by decide +kernel, ⟨by decide +kernel, .inl (by decide +kernel)⟩, by decide +kernel⟩
  exact ⟨by decide +kernel, by decide +kernel, ⟨[], by decide +kernel⟩, by decide, by decide +kernel⟩

theorem writes_leave_no_empty_run_two_letters :
    Positive ((Write.run graphemeEnvironment (TextBuffer.construct 3 1 {}) twoLetters).rows 0).attr.runs :=
  writes_leave_no_empty_run graphemeEnvironment 3 1 (by decide) {} twoLetters two_letters_safe 0

-- An accent joins the letter in front of it, and its attributes get no column.
theorem writes_leave_empty_run_behind_letter : ¬ Positive ((Write.run graphemeEnvironment (TextBuffer.construct 2 1 {})
      [.replace 0 {} ⟨[0x61], 0, 2, 0, 0, 0⟩, .replace 0 { foreground := .index16 1 } ⟨[0x301], 1, 2, 0, 0, 0⟩]).rows
      0).attr.runs := by
  decide +kernel

end Cogterm.Buffer
