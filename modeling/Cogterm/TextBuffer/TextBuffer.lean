import Cogterm.Attribute.TextAttribute
import Cogterm.Row.Operations
import Mathlib.Data.List.Dedup

namespace Cogterm.Buffer

open Til
open Unicode (WChar)

structure Point where
  x : Int
  y : Int
deriving DecidableEq, Repr

structure Cursor where
  position : Point := ⟨0, 0⟩
  delayedAt : Option Point := none
deriving DecidableEq, Repr

-- The rows are numbered as they are stored. A row that is not committed yet is
-- one that the constructor would make. The watermark counts the scratchpad.
structure TextBuffer where
  width : Nat
  height : Nat
  firstRow : Nat
  commitWatermark : Nat
  rows : Nat → Row TextAttribute
  scratchpad : Row TextAttribute
  initialAttributes : TextAttribute
  currentAttributes : TextAttribute
  hyperlinkMap : Nat → Option (List WChar)
  hyperlinkCustomIdMap : List (List WChar × Nat)
  currentHyperlinkId : Nat
  cursor : Cursor

namespace TextBuffer

def construct (width height : Nat) (defaultAttributes : TextAttribute) : TextBuffer :=
  { width := max width 1
    height := max height 1
    firstRow := 0
    commitWatermark := 0
    rows := fun _ => Row.construct (max width 1) defaultAttributes
    scratchpad := Row.construct (max width 1) defaultAttributes
    initialAttributes := defaultAttributes
    currentAttributes := defaultAttributes
    hyperlinkMap := fun _ => none
    hyperlinkCustomIdMap := []
    currentHyperlinkId := 1
    cursor := {} }

def commitReadAheadRowCount : Nat := 128

-- The offset counts the scratchpad. What is committed beyond it was blank before.
def commit (buffer : TextBuffer) (offset : Nat) : TextBuffer :=
  { buffer with
    commitWatermark :=
      if offset < buffer.commitWatermark then buffer.commitWatermark
      else min (buffer.height + 1) (offset + 1 + commitReadAheadRowCount) }

-- All rows are as new after _decommit.
def decommit (buffer : TextBuffer) : TextBuffer :=
  { buffer with
    commitWatermark := 0
    rows := fun _ => Row.construct buffer.width buffer.initialAttributes
    scratchpad := Row.construct buffer.width buffer.initialAttributes }

-- The index of _getRow. The remainder is never negative in the end.
def storageIndex (buffer : TextBuffer) (y : Int) : Nat := ((buffer.firstRow + y) % buffer.height).toNat

def getRow (buffer : TextBuffer) (y : Int) : Row TextAttribute := buffer.rows (buffer.storageIndex y)

def setRow (buffer : TextBuffer) (y : Int) (row : Row TextAttribute) : TextBuffer :=
  { buffer.commit (buffer.storageIndex y + 1) with rows := Function.update buffer.rows (buffer.storageIndex y) row }

def estimateOffsetOfLastCommittedRow (buffer : TextBuffer) : Int := max 0 ((buffer.commitWatermark : Int) - 2)

def getScratchpadRow (buffer : TextBuffer) (attributes : TextAttribute) : TextBuffer :=
  { buffer.commit 0 with scratchpad := buffer.scratchpad.reset attributes }

end TextBuffer

-- gsl::narrow<uint16_t>, which throws.
def narrowOrThrow (value : Int) : Option Nat := if 0 ≤ value ∧ value < 65536 then some value.toNat else none

namespace Row

variable (env : Environment)

-- Replace for a single row. A thrown exception leaves the row and no result.
def replace (row : Row TextAttribute) (attributes : TextAttribute) (state : RowWriteState) :
    Row TextAttribute × Option RowWriteState :=
  let written := row.replaceText env state
  match written.2 with
  | none => (written.1, none)
  | some state =>
    match written.1.replaceAttributes state.columnBegin state.columnEnd attributes with
    | none => (written.1, none)
    | some colored => (colored, some state)

-- The attributes that Insert moves out of the way of the text.
def restoreAttributes (row scratch : Row TextAttribute) (columnBegin : Int) (restored : RowWriteState) :
    Option (Row TextAttribute) :=
  let copyAmount := restored.columnEnd - restored.columnBegin
  if copyAmount > 0 then do
    let sliceBegin ← narrowOrThrow columnBegin
    let sliceEnd ← narrowOrThrow (columnBegin + copyAmount)
    let replaceBegin ← narrowOrThrow restored.columnBegin
    let replaceEnd ← narrowOrThrow restored.columnEnd
    let attr ← row.attr.replaceRuns 16 replaceBegin replaceEnd (scratch.attr.slice 16 sliceBegin sliceEnd).runs
    return { row with attr := attr }
  else some row

-- What Insert does once the text is written. The scratchpad has the old row.
def restoreText (row scratch : Row TextAttribute) (state : RowWriteState) : Row TextAttribute × Option RowWriteState :=
  let written := row.replaceText env
    ⟨scratch.getText state.columnBegin state.columnLimit, state.columnEnd, state.columnLimit, 0, 0, 0⟩
  match written.2 with
  | none => (written.1, none)
  | some restored =>
    match written.1.restoreAttributes scratch state.columnBegin restored with
    | none => (written.1, none)
    | some colored => (colored, some state)

def insert (row scratch : Row TextAttribute) (attributes : TextAttribute) (state : RowWriteState) :
    Row TextAttribute × Option RowWriteState :=
  let written := row.replace env attributes state
  match written.2 with
  | none => (written.1, none)
  | some state => written.1.restoreText env scratch state

end Row

theorem narrow_or_throw (succeeded : narrowOrThrow value = some narrowed) : (narrowed : Int) = value := by
  rw [narrowOrThrow] at succeeded
  split at succeeded
  · cases succeeded
    omega
  · cases succeeded

theorem restore_attributes_cases {row scratch restored : Row TextAttribute}
    (succeeded : row.restoreAttributes scratch columnBegin state = some restored) :
    restored = row ∨ ∃ (attr : Til.Rle TextAttribute) (sliceBegin sliceEnd first last : Nat), restored =
      { row with attr := attr } ∧
      row.attr.replaceRuns 16 first last (scratch.attr.slice 16 sliceBegin sliceEnd).runs = some attr ∧
      state.columnBegin < state.columnEnd ∧
      (sliceBegin : Int) = columnBegin ∧ (sliceEnd : Int) = columnBegin + (state.columnEnd - state.columnBegin) ∧
      (first : Int) = state.columnBegin ∧ (last : Int) = state.columnEnd := by
  rw [Row.restoreAttributes] at succeeded
  split at succeeded
  · rename_i moves
    simp only [Option.bind_eq_bind, Option.bind_eq_some_iff] at succeeded
    obtain ⟨sliceBegin, isBegin, sliceEnd, isEnd, first, isFirst, last, isLast, attr, replaced, isRestored⟩ := succeeded
    cases isRestored
    exact .inr ⟨attr, sliceBegin, sliceEnd, first, last, rfl,
      replaced, by omega, narrow_or_throw isBegin, narrow_or_throw isEnd, narrow_or_throw isFirst, narrow_or_throw isLast⟩
  · cases succeeded
    exact .inl rfl

namespace TextBuffer

variable (env : Environment)

def replace (buffer : TextBuffer) (y : Int) (attributes : TextAttribute) (state : RowWriteState) :
    TextBuffer × Option RowWriteState :=
  let written := (buffer.getRow y).replace env attributes state
  (buffer.setRow y written.1, written.2)

def insert (buffer : TextBuffer) (y : Int) (attributes : TextAttribute) (state : RowWriteState) :
    TextBuffer × Option RowWriteState :=
  let row := buffer.getRow y
  let scratch := (buffer.scratchpad.reset buffer.currentAttributes).copyFrom env (some row)
  let buffer := { (buffer.commit (buffer.storageIndex y + 1)).getScratchpadRow buffer.currentAttributes with
    scratchpad := scratch.1 }
  match scratch.2 with
  | none => (buffer, none)
  | some _ =>
    let written := row.insert env scratch.1 attributes state
    (buffer.setRow y written.1, written.2)

end TextBuffer

namespace TextBuffer

variable (env : Environment)

-- A row is not copied to itself.
def copyRow (buffer : TextBuffer) (srcRowIndex dstRowIndex : Int) : TextBuffer × Option Unit :=
  let source := if buffer.storageIndex srcRowIndex = buffer.storageIndex dstRowIndex then none
    else some (buffer.getRow srcRowIndex)
  let copied := (buffer.getRow dstRowIndex).copyFrom env source
  ((buffer.setRow dstRowIndex copied.1).commit (buffer.storageIndex srcRowIndex + 1), copied.2)

def scrollLoop (delta step : Int) : Nat → Int → TextBuffer → TextBuffer × Option Unit
  | 0, _, buffer => (buffer, some ())
  | count + 1, y, buffer =>
    let copied := buffer.copyRow env y (y + delta)
    match copied.2 with
    | none => (copied.1, none)
    | some _ => scrollLoop delta step count (y + step) copied.1

theorem scroll_loop_succ (delta step : Int) (count : Nat) (y : Int) (buffer : TextBuffer) :
    scrollLoop env delta step (count + 1) y buffer = match (copyRow env buffer y (y + delta)).2 with
      | none => ((copyRow env buffer y (y + delta)).1, none)
      | some _ => scrollLoop env delta step count (y + step) (copyRow env buffer y (y + delta)).1 := by
  rfl

def scrollRows (buffer : TextBuffer) (firstRow size delta : Int) : TextBuffer × Option Unit :=
  if delta = 0 then (buffer, some ())
  else if delta < 0 then scrollLoop env delta 1 size.toNat firstRow buffer
  else scrollLoop env delta (-1) size.toNat (firstRow + size - 1) buffer

end TextBuffer

def Row.clearMarks (row : Row TextAttribute) : Row TextAttribute :=
  { row with
    attr := { row.attr with runs := row.attr.runs.map (fun run => { run with value := { run.value with markKind := .none } }) } }

namespace TextBuffer

variable (env : Environment)

def changeRows (change : TextBuffer → Row TextAttribute → Row TextAttribute) : Nat → Int → TextBuffer → TextBuffer
  | 0, _, buffer => buffer
  | count + 1, y, buffer => changeRows change count (y + 1) (buffer.setRow y (change buffer (buffer.getRow y)))

def clearMarksInRange (buffer : TextBuffer) (start finish : Point) : TextBuffer :=
  let top := clamp (min start.y finish.y) 0 (buffer.height - 1)
  let bottom := clamp (max start.y finish.y) 0 buffer.estimateOffsetOfLastCommittedRow
  changeRows (fun _ => Row.clearMarks) (bottom + 1 - top).toNat top buffer

def resetRowsFrom (buffer : TextBuffer) (y : Int) : TextBuffer :=
  changeRows (fun buffer row => row.reset buffer.initialAttributes) (buffer.estimateOffsetOfLastCommittedRow + 1 - y).toNat
    y buffer

def clearScrollback (buffer : TextBuffer) (newFirstRow rowsToKeep : Int) : TextBuffer × Option Unit :=
  if newFirstRow ≤ 0 then (buffer, some ())
  else if rowsToKeep ≤ 0 then (buffer.decommit, some ())
  else
    let cleared := buffer.clearMarksInRange ⟨0, 0⟩ ⟨buffer.width, max 0 (newFirstRow - 1)⟩
    let startAbsolute := cleared.firstRow + newFirstRow
    let scrolled := scrollRows env { cleared with firstRow := 0 } startAbsolute rowsToKeep (-startAbsolute)
    match scrolled.2 with
    | none => (scrolled.1, none)
    | some _ => (scrolled.1.resetRowsFrom rowsToKeep, some ())

end TextBuffer

open List Function Int

def Row.getHyperlinks (row : Row TextAttribute) : List Nat :=
  (row.attr.runs.filter (fun run => run.value.isHyperlink)).map (fun run => run.value.hyperlinkId)

namespace TextBuffer

def addHyperlinkToMap (buffer : TextBuffer) (uri : List WChar) (id : Nat) : TextBuffer :=
  { buffer with hyperlinkMap := update buffer.hyperlinkMap id (some uri) }

-- The map throws where there is none.
def getHyperlinkUriFromId (buffer : TextBuffer) (id : Nat) : Option (List WChar) := buffer.hyperlinkMap id

-- Twice if the first increment overflows.
def nextHyperlinkId (id : Nat) : Nat := if (id + 1) % 65536 = 0 then 1 else (id + 1) % 65536

-- The hash of a URI, in decimal.
abbrev UriHash := List WChar → List WChar

def customId (hash : UriHash) (uri id : List WChar) : List WChar := id ++ 0x25 :: hash uri

def getHyperlinkId (hash : UriHash) (buffer : TextBuffer) (uri id : List WChar) : TextBuffer × Nat :=
  if id.isEmpty then
    ({ buffer with currentHyperlinkId := nextHyperlinkId buffer.currentHyperlinkId }, buffer.currentHyperlinkId)
  else
    match buffer.hyperlinkCustomIdMap.lookup (customId hash uri id) with
    | some numericId => (buffer, numericId)
    | none =>
      ({ buffer with
          hyperlinkCustomIdMap := (customId hash uri id, buffer.currentHyperlinkId) :: buffer.hyperlinkCustomIdMap
          currentHyperlinkId := nextHyperlinkId buffer.currentHyperlinkId },
        buffer.currentHyperlinkId)

-- One custom id at most is removed.
def removeHyperlinkFromMap (buffer : TextBuffer) (id : Nat) : TextBuffer :=
  { buffer with
    hyperlinkMap := update buffer.hyperlinkMap id none
    hyperlinkCustomIdMap := buffer.hyperlinkCustomIdMap.eraseP (fun pair => pair.2 == id) }

-- The loop over the other rows. It removes the references that it finds.
def pruneLoop : Nat → Int → TextBuffer → List Nat → TextBuffer × List Nat
  | 0, _, buffer, refs => (buffer, refs)
  | count + 1, y, buffer, refs =>
    let left := refs.filter (fun id => !(buffer.getRow y).getHyperlinks.contains id)
    let buffer := buffer.commit (buffer.storageIndex y + 1)
    if left.isEmpty then (buffer, left) else pruneLoop count (y + 1) buffer left

def pruneHyperlinks (buffer : TextBuffer) : TextBuffer :=
  let hyperlinks := (buffer.getRow 0).getHyperlinks
  let buffer := buffer.commit (buffer.storageIndex 0 + 1)
  if hyperlinks.isEmpty then buffer
  else
    let obsolete := pruneLoop (buffer.height - 1) 1 buffer hyperlinks.dedup
    obsolete.2.foldl removeHyperlinkFromMap obsolete.1

def incrementCircularBuffer (buffer : TextBuffer) (fillAttributes : TextAttribute) : TextBuffer :=
  let buffer := buffer.pruneHyperlinks
  let buffer := buffer.setRow 0 ((buffer.getRow 0).reset fillAttributes)
  { buffer with firstRow := if buffer.firstRow + 1 ≥ buffer.height then 0 else buffer.firstRow + 1 }

-- The adapter opens and closes links.
def addHyperlink (hash : UriHash) (buffer : TextBuffer) (uri params : List WChar) : TextBuffer :=
  let found := getHyperlinkId hash buffer uri params
  let buffer := { found.1 with currentAttributes := found.1.currentAttributes.setHyperlinkId found.2 }
  buffer.addHyperlinkToMap uri found.2

def endHyperlink (buffer : TextBuffer) : TextBuffer :=
  { buffer with currentAttributes := buffer.currentAttributes.setHyperlinkId 0 }

def getEraseAttributes (eraseColor : Bool) (buffer : TextBuffer) : TextAttribute :=
  if eraseColor then {} else buffer.currentAttributes.setStandardErase

end TextBuffer

theorem mem_get_hyperlinks (row : Row TextAttribute) (id : Nat) :
    id ∈ row.getHyperlinks ↔ id ≠ 0 ∧ ∃ run ∈ row.attr.runs, run.value.hyperlinkId = id := by
  constructor
  · intro member
    obtain ⟨run, isRun, isId⟩ := mem_map.mp member
    obtain ⟨stored, links⟩ := mem_filter.mp isRun
    rw [TextAttribute.isHyperlink, bne_iff_ne] at links
    exact ⟨isId ▸ links, run, stored, isId⟩
  · rintro ⟨linked, run, stored, isId⟩
    refine mem_map.mpr ⟨run, mem_filter.mpr ⟨stored, ?_⟩, isId⟩
    simpa [TextAttribute.isHyperlink, isId] using linked

-- Every place of the storage belongs to one of the rows.
theorem storage_index_onto {buffer : TextBuffer} (inside : index < buffer.height) :
    ∃ y < buffer.height, buffer.storageIndex (y : Nat) = index := by
  have positive : (0 : Int) < buffer.height := by omega
  have low := Int.emod_nonneg ((index : Int) - buffer.firstRow) (Int.ne_of_gt positive)
  have high := emod_lt_of_pos ((index : Int) - buffer.firstRow) positive
  refine ⟨(((index : Int) - buffer.firstRow) % buffer.height).toNat, by omega, ?_⟩
  have cancelled : ((buffer.firstRow : Int) + ((index : Int) - buffer.firstRow) % buffer.height) % buffer.height = index := by
    simpa using emod_eq_of_lt (by omega) (by omega)
  rw [TextBuffer.storageIndex, toNat_of_nonneg low, cancelled]
  rfl

open TextBuffer

theorem prune_loop_spec (count : Nat) (y : Int) (buffer : TextBuffer) (refs : List Nat) :
    (∃ watermark, (pruneLoop count y buffer refs).1 = { buffer with commitWatermark := watermark }) ∧
      ∀ id, id ∈ (pruneLoop count y buffer refs).2 ↔
        id ∈ refs ∧ ∀ other < count, id ∉ (buffer.getRow (y + (other : Nat))).getHyperlinks := by
  induction count generalizing y buffer refs with
  | zero =>
    exact ⟨⟨buffer.commitWatermark, rfl⟩,
      fun id => ⟨fun member => ⟨member, fun _ none => nomatch none⟩, fun both => both.1⟩⟩
  | succ count ih =>
    have left : ∀ id, id ∈ refs.filter (fun id => !(buffer.getRow y).getHyperlinks.contains id) ↔
        id ∈ refs ∧ id ∉ (buffer.getRow y).getHyperlinks := by
      intro id
      simp
    rw [pruneLoop]
    generalize refs.filter (fun id => !(buffer.getRow y).getHyperlinks.contains id) = rest at *
    split
    · next none =>
        rw [List.isEmpty_iff] at none
        refine ⟨⟨_, rfl⟩, fun id => ⟨fun member => ?_, fun both => ?_⟩⟩
        · rw [none] at member
          cases member
        · have here := both.2 0 (Nat.succ_pos count)
          rw [show y + ((0 : Nat) : Int) = y by omega] at here
          exact (left id).mpr ⟨both.1, here⟩
    · obtain ⟨⟨watermark, same⟩, members⟩ := ih (y + 1) (buffer.commit (buffer.storageIndex y + 1)) rest
      refine ⟨⟨watermark, same⟩, fun id => ?_⟩
      rw [members id, left id]
      constructor
      · rintro ⟨⟨stored, here⟩, later⟩
        refine ⟨stored, fun other small => ?_⟩
        cases other with
        | zero =>
          simpa using here
        | succ other =>
          rw [show y + ((other + 1 : Nat) : Int) = y + 1 + (other : Nat) by omega]
          exact later other (Nat.lt_of_succ_lt_succ small)
      · rintro ⟨stored, all⟩
        refine ⟨⟨stored, ?_⟩, fun other small => ?_⟩
        · have here := all 0 (Nat.succ_pos count)
          rw [show y + ((0 : Nat) : Int) = y by omega] at here
          exact here
        · have later := all (other + 1) (Nat.succ_lt_succ small)
          rw [show y + ((other + 1 : Nat) : Int) = y + 1 + (other : Nat) by omega] at later
          exact later

theorem remove_hyperlinks_spec (refs : List Nat) (buffer : TextBuffer) :
    (∃ map ids, refs.foldl removeHyperlinkFromMap buffer = { buffer with hyperlinkMap := map, hyperlinkCustomIdMap := ids }) ∧
      ∀ id, (refs.foldl removeHyperlinkFromMap buffer).hyperlinkMap id = if id ∈ refs then none
      else buffer.hyperlinkMap id := by
  induction refs generalizing buffer with
  | nil => exact ⟨⟨buffer.hyperlinkMap, buffer.hyperlinkCustomIdMap, rfl⟩, fun _ => rfl⟩
  | cons ref rest ih =>
    obtain ⟨⟨map, ids, same⟩, removed⟩ := ih (buffer.removeHyperlinkFromMap ref)
    refine ⟨⟨map, ids, same⟩, fun id => ?_⟩
    rw [foldl_cons, removed id]
    by_cases isRef : id = ref
    · simp [isRef, removeHyperlinkFromMap]
    have member : id ∈ ref :: rest ↔ id ∈ rest := by simp [isRef]
    simp only [member]
    rw [removeHyperlinkFromMap]
    simp [update_of_ne isRef]

def TextBuffer.Obsolete (buffer : TextBuffer) (id : Nat) : Prop :=
  id ∈ (buffer.getRow 0).getHyperlinks ∧
    ∀ other < buffer.height - 1, id ∉ (buffer.getRow (1 + (other : Nat))).getHyperlinks

instance (buffer : TextBuffer) (id : Nat) : Decidable (buffer.Obsolete id) := inferInstanceAs (Decidable (_ ∧ _))

structure Pruned (buffer pruned : TextBuffer) : Prop where
  frame : ∃ watermark map ids, pruned =
    { buffer with commitWatermark := watermark, hyperlinkMap := map, hyperlinkCustomIdMap := ids }
  hyperlinkMap : ∀ id, pruned.hyperlinkMap id = if buffer.Obsolete id then none else buffer.hyperlinkMap id

theorem prune_hyperlinks_spec (buffer : TextBuffer) : Pruned buffer buffer.pruneHyperlinks := by
  have height : (buffer.commit (buffer.storageIndex 0 + 1)).height = buffer.height := rfl
  rw [pruneHyperlinks]
  simp only [height]
  split
  · next none =>
      rw [List.isEmpty_iff] at none
      refine ⟨⟨_, buffer.hyperlinkMap, buffer.hyperlinkCustomIdMap, rfl⟩, fun id => ?_⟩
      rw [if_neg]
      · rfl
      · rintro ⟨member, _⟩
        rw [none] at member
        cases member
  · obtain ⟨⟨watermark, same⟩, members⟩ :=
      prune_loop_spec (buffer.height - 1) 1 (buffer.commit (buffer.storageIndex 0 + 1)) (buffer.getRow 0).getHyperlinks.dedup
    generalize pruneLoop (buffer.height - 1) 1 (buffer.commit (buffer.storageIndex 0 + 1))
      (buffer.getRow 0).getHyperlinks.dedup = obsolete at *
    obtain ⟨⟨map, ids, removed⟩, missing⟩ := remove_hyperlinks_spec obsolete.2 obsolete.1
    refine ⟨⟨watermark, map, ids, ?_⟩, fun id => ?_⟩
    · rw [removed, same]
      rfl
    · have isObsolete : id ∈ obsolete.2 ↔ buffer.Obsolete id := by
        rw [members id, mem_dedup]
        rfl
      have kept : obsolete.1.hyperlinkMap = buffer.hyperlinkMap := by
        rw [same]
        rfl
      have result := missing id
      simp only [isObsolete, kept] at result
      exact result

end Cogterm.Buffer
