import Cogterm.Rle.Rle
import Cogterm.Unicode.Detector

namespace Cogterm.Buffer

open Library Til
open Unicode (WChar)

def charOffsetsTrailer : Nat := 0x8000
def charOffsetsMask : Nat := 0x7FFF
def unicodeSpace : WChar := 0x20

-- The conversion to uint16_t.
def narrow16 (value : Int) : Nat := (value % 65536).toNat

def clamp (value low high : Int) : Int := if value < low then low else if value ≤ high then value else high

inductive LineRendition where
  | singleWidth
  | doubleWidth
  | doubleHeightTop
  | doubleHeightBottom
deriving DecidableEq, Repr

-- The length of chars is its capacity. The length of the text in it is the last
-- of the charOffsets, of which there is one more than columns.
structure Row (Attr : Type) where
  columnCount : Nat
  chars : List WChar
  charOffsets : List Nat
  attr : Rle Attr
  lineRendition : LineRendition
  wrapForced : Bool
  doubleBytePadded : Bool
deriving DecidableEq, Repr

-- What a row asks a CodepointWidthDetector: the length and the width of the
-- first cluster of a text, and of the part of a text that joins another text.
structure TextMeasure where
  next : List WChar → Nat × Nat
  join : List WChar → List WChar → Nat × Nat
  next_positive : ∀ text, text ≠ [] → 0 < (next text).1
  next_inside : ∀ text, (next text).1 ≤ text.length
  next_narrow : ∀ text, (next text).2 ≤ 2
  join_inside : ∀ previous text, (join previous text).1 ≤ text.length
  join_narrow : ∀ previous text, (join previous text).2 ≤ 2

-- An allocation may fail, and what it returns is not initialized.
structure Heap where
  allocate : Nat → Option (List WChar)
  sized : ∀ size buffer, allocate size = some buffer → buffer.length = size

structure Environment where
  measure : TextMeasure
  heap : Heap

def iota (count first : Nat) : List Nat := (List.range count).map (fun index : Nat => narrow16 (first + index : Nat))

namespace Row

variable {Attr : Type}

def clampedColumn (row : Row Attr) (column : Int) : Nat := (clamp column 0 (row.columnCount - 1)).toNat
def clampedColumnInclusive (row : Row Attr) (column : Int) : Nat := (clamp column 0 row.columnCount).toNat

def charSize (row : Row Attr) : Nat := row.charOffsets.getD row.columnCount 0
def uncheckedCharOffset (row : Row Attr) (column : Nat) : Nat := row.charOffsets.getD column 0 &&& charOffsetsMask
def uncheckedIsTrailer (row : Row Attr) (column : Nat) : Bool := row.charOffsets.getD column 0 &&& charOffsetsTrailer != 0

-- The first column is never a trailer, nor is the end.
def adjustBackward (row : Row Attr) : Nat → Nat
  | 0 => 0
  | column + 1 => if row.uncheckedIsTrailer (column + 1) then row.adjustBackward column else column + 1

def adjustForwardLoop (row : Row Attr) : Nat → Nat → Nat
  | 0, column => column
  | fuel + 1, column => if row.uncheckedIsTrailer column then row.adjustForwardLoop fuel (column + 1) else column

def adjustForward (row : Row Attr) (column : Nat) : Nat := row.adjustForwardLoop row.charOffsets.length column

def getReadableColumnCount (row : Row Attr) : Int :=
  let padding : Int := if row.doubleBytePadded then 1 else 0
  if row.lineRendition = .singleWidth then row.columnCount - padding
  else (row.columnCount - padding * 2) / 2

def glyphAt (row : Row Attr) (column : Int) : List WChar :=
  let col := row.clampedColumn column
  let beg := row.uncheckedCharOffset col
  let finish := row.uncheckedCharOffset (row.adjustForward (col + 1))
  (row.chars.take finish).drop beg

def getText (row : Row Attr) (columnBegin columnEnd : Int) : List WChar :=
  let columns := row.getReadableColumnCount
  let colBeg := clamp columnBegin 0 columns
  let colEnd := clamp columnEnd colBeg columns
  (row.chars.take (row.uncheckedCharOffset colEnd.toNat)).drop (row.uncheckedCharOffset colBeg.toNat)

def getWholeText (row : Row Attr) : List WChar :=
  row.chars.take (row.charOffsets.getD row.getReadableColumnCount.toNat 0 &&& charOffsetsMask)

-- The text is measured from its end, where every character is a column.
def getLastNonSpaceColumn (row : Row Attr) : Int :=
  row.getReadableColumnCount - (row.getWholeText.reverse.takeWhile (fun wch => wch == unicodeSpace)).length

def measureRight (row : Row Attr) : Int :=
  if row.wrapForced then row.columnCount - (if row.doubleBytePadded then 1 else 0) else row.getLastNonSpaceColumn

-- Every implementation of _init writes spaces and successive offsets.
def reset (row : Row Attr) (attr : Attr) : Row Attr :=
  { row with
    chars := List.replicate row.columnCount unicodeSpace
    charOffsets := iota (row.columnCount + 1) 0
    attr := ⟨[⟨attr, row.columnCount⟩], row.columnCount⟩
    lineRendition := .singleWidth
    wrapForced := false
    doubleBytePadded := false }

def construct (rowWidth : Nat) (fillAttribute : Attr) : Row Attr :=
  { columnCount := rowWidth
    chars := List.replicate rowWidth unicodeSpace
    charOffsets := iota (rowWidth + 1) 0
    attr := ⟨[⟨fillAttribute, rowWidth⟩], rowWidth⟩
    lineRendition := .singleWidth
    wrapForced := false
    doubleBytePadded := false }

def newCapacity (size newLength : Nat) : Nat := max newLength (min 0xFFFF (size + (size >>> 1)))

-- The text of the row with everything from chEndDirtyOld on moved to chEndDirty.
-- The result is none when an exception is thrown.
def resizedChars (heap : Heap) (row : Row Attr) (chBegDirty chEndDirty chEndDirtyOld : Nat) : Option (List WChar) :=
  let currentLength := row.charSize
  let newLength := currentLength + chEndDirty - chEndDirtyOld
  let tail := (row.chars.take currentLength).drop chEndDirtyOld
  if newLength ≤ row.chars.length then some (overwriteAt row.chars chEndDirty tail)
  else if newCapacity row.chars.length newLength > 0xFFFF then none
  else
    (heap.allocate (newCapacity row.chars.length newLength)).map (fun chars =>
      overwriteAt (overwriteAt chars 0 (row.chars.take chBegDirty)) chEndDirty tail)

def resizeChars (heap : Heap) (row : Row Attr) (colEndDirty chBegDirty chEndDirty chEndDirtyOld : Nat) : Option (Row Attr) :=
  (row.resizedChars heap chBegDirty chEndDirty chEndDirtyOld).map (fun chars =>
    { row with
      chars := chars
      charOffsets := row.charOffsets.take colEndDirty ++
        (row.charOffsets.drop colEndDirty).map (fun offset : Nat => narrow16 (offset + (chEndDirty - chEndDirtyOld))) })

end Row

section

variable {Attr : Type}

structure WriteHelper (Attr : Type) where
  row : Row Attr
  chars : List WChar
  colBeg : Nat
  colLimit : Nat
  colEnd : Nat
  colBegDirty : Nat
  colEndDirty : Nat
  chBeg : Nat
  chBegDirty : Nat
  leadingSpaces : Nat
  charsConsumed : Nat

namespace WriteHelper

def start (row : Row Attr) (columnBegin columnLimit : Int) (chars : List WChar) : WriteHelper Attr :=
  let colBeg := row.clampedColumnInclusive columnBegin
  let chBegDirty := row.uncheckedCharOffset colBeg
  let colBegDirty := row.adjustBackward colBeg
  let leadingSpaces := narrow16 (colBeg - colBegDirty)
  { row := row
    chars := chars
    colBeg := colBeg
    colLimit := row.clampedColumnInclusive columnLimit
    colEnd := colBeg
    colBegDirty := colBegDirty
    colEndDirty := 0
    chBeg := narrow16 (chBegDirty + leadingSpaces)
    chBegDirty := chBegDirty
    leadingSpaces := leadingSpaces
    charsConsumed := 0 }

def isValid (h : WriteHelper Attr) : Bool := decide (h.colBeg < h.colLimit) && !h.chars.isEmpty

def putOffset (h : WriteHelper Attr) (offset : Int) : WriteHelper Attr :=
  { h with
    row := { h.row with charOffsets := h.row.charOffsets.set h.colEnd (narrow16 offset) }
    colEnd := narrow16 (h.colEnd + 1) }

def putTrailers (ch : Nat) (colEndNew : Nat) : Nat → WriteHelper Attr → WriteHelper Attr
  | 0, h => h
  | fuel + 1, h =>
    if h.colEnd < colEndNew then putTrailers ch colEndNew fuel (h.putOffset (ch ||| charOffsetsTrailer : Nat)) else h

def putGlyph (ch : Nat) (colEndNew : Nat) (h : WriteHelper Attr) : WriteHelper Attr :=
  putTrailers ch colEndNew colEndNew (h.putOffset ch)

def replaceCharacters (width : Int) (h : WriteHelper Attr) : WriteHelper Attr :=
  let colEndNew := narrow16 (h.colEnd + width)
  if colEndNew > h.colLimit then { h with colEndDirty := h.colLimit }
  else
    let h := putGlyph h.chBeg colEndNew h
    { h with colEndDirty := h.colEnd, charsConsumed := h.chars.length }

-- The do-while loop over the clusters of the text that is left. ch is where
-- that text goes.
def clusterLoop (measure : TextMeasure) : Nat → Nat → List WChar → WriteHelper Attr → WriteHelper Attr
  | 0, ch, _, h => { h with colEndDirty := h.colEnd, charsConsumed := ch - h.chBeg }
  | fuel + 1, ch, text, h =>
    if text.isEmpty then { h with colEndDirty := h.colEnd, charsConsumed := ch - h.chBeg }
    else
      let cluster := measure.next text
      let colEndNew := narrow16 (h.colEnd + max 1 cluster.2)
      if colEndNew > h.colLimit then { h with colEndDirty := h.colLimit, charsConsumed := ch - h.chBeg }
      else clusterLoop measure fuel (ch + cluster.1) (text.drop cluster.1) (putGlyph ch colEndNew h)

def previousColumn (row : Row Attr) : Nat → Nat
  | 0 => 0
  | column + 1 => row.adjustBackward column

-- it is the position in chars at which the text was found not to be ASCII.
def replaceTextUnicode (measure : TextMeasure) (ch it : Nat) (h : WriteHelper Attr) : WriteHelper Attr :=
  if it = 0 then
    let colPrev := previousColumn h.row h.colBeg
    let chPrev := h.row.uncheckedCharOffset colPrev
    let charsPrev := (h.row.chars.take ch).drop chPrev
    let joined := measure.join charsPrev h.chars
    if joined.1 > 0 then
      let h := { h with colBegDirty := colPrev, colEnd := colPrev }
      let colEndNew := narrow16 (h.colEnd + max 1 joined.2)
      if colEndNew > h.colLimit then { h with colEndDirty := h.colLimit, charsConsumed := ch - h.chBeg }
      else clusterLoop measure h.chars.length (ch + joined.1) (h.chars.drop joined.1) (putGlyph chPrev colEndNew h)
    else clusterLoop measure h.chars.length ch h.chars h
  else
    -- The character may be a combining mark of the one in front of it.
    clusterLoop measure h.chars.length (ch - 1) (h.chars.drop (it - 1)) { h with colEnd := h.colEnd - 1 }

def asciiLoop (measure : TextMeasure) : List WChar → Nat → WriteHelper Attr → WriteHelper Attr
  | [], ch, h => { h with colEndDirty := h.colEnd, charsConsumed := ch - h.chBeg }
  | c :: rest, ch, h =>
    if c ≥ 0x80 then replaceTextUnicode measure ch (ch - h.chBeg) h
    else asciiLoop measure rest (ch + 1) (h.putOffset ch)

def replaceText (measure : TextMeasure) (h : WriteHelper Attr) : WriteHelper Attr :=
  asciiLoop measure (h.chars.take (h.colLimit - h.colBeg)) h.chBeg h

def lastGlyphStart (charOffsets : List Nat) : Nat → Nat
  | 0 => 0
  | column + 1 =>
    if charOffsets.getD (column + 1) 0 &&& charOffsetsTrailer != 0 then lastGlyphStart charOffsets column else column + 1

def copyOffsets (source : List Nat) (offset : Nat) : List Nat :=
  source.map (fun ch => narrow16 ((ch &&& charOffsetsMask : Nat) + offset) ||| (ch &&& charOffsetsTrailer))

def copyTextFrom (charOffsets : List Nat) (h : WriteHelper Attr) : WriteHelper Attr :=
  let colEndDirtyInput := min (narrow16 (h.colLimit - h.colBeg)) (charOffsets.length - 1)
  let colEndInput := lastGlyphStart charOffsets colEndDirtyInput
  let baseOffset := charOffsets.getD 0 0
  let endOffset := charOffsets.getD colEndInput 0
  let copied := copyOffsets (charOffsets.take colEndInput) (narrow16 (h.chBeg - baseOffset))
  { h with
    row := { h.row with charOffsets := overwriteAt h.row.charOffsets h.colEnd copied }
    colEnd := narrow16 (h.colEnd + colEndInput)
    colEndDirty := narrow16 (h.colBeg + colEndDirtyInput)
    charsConsumed := endOffset - baseOffset }

def finish (heap : Heap) (h : WriteHelper Attr) : Option (WriteHelper Attr) :=
  let colEndDirty := h.row.adjustForward h.colEndDirty
  let trailingSpaces := narrow16 (colEndDirty - h.colEnd)
  let chEndDirtyOld := h.row.uncheckedCharOffset colEndDirty
  let chEndDirty := h.chBegDirty + h.charsConsumed + h.leadingSpaces + trailingSpaces
  let resized :=
    if chEndDirty ≠ chEndDirtyOld then h.row.resizeChars heap colEndDirty h.chBegDirty chEndDirty chEndDirtyOld else some h.row
  resized.map (fun row =>
    let chars := overwriteAt row.chars h.chBeg (h.chars.take h.charsConsumed)
    let chars := overwriteAt chars h.chBegDirty (List.replicate h.leadingSpaces unicodeSpace)
    let chars := overwriteAt chars (h.chBeg + h.charsConsumed) (List.replicate trailingSpaces unicodeSpace)
    let charOffsets := overwriteAt row.charOffsets h.colBegDirty (iota h.leadingSpaces h.chBegDirty)
    let charOffsets := overwriteAt charOffsets h.colEnd (iota trailingSpaces (narrow16 (h.chBeg + h.charsConsumed)))
    let padded := if colEndDirty = row.columnCount then decide (h.colEnd < row.columnCount) else row.doubleBytePadded
    { h with
      row := { row with chars := chars, charOffsets := charOffsets, doubleBytePadded := padded }
      colEndDirty := colEndDirty })

end WriteHelper

end

open WriteHelper

structure RowWriteState where
  text : List WChar
  columnBegin : Int
  columnLimit : Int
  columnEnd : Int
  columnBeginDirty : Int
  columnEndDirty : Int
deriving DecidableEq, Repr

def coordTypeMax : Int := 0x7FFFFFFF

-- The row to copy from is not part of the state here.
structure RowCopyTextFromState where
  columnBegin : Int
  columnLimit : Int
  sourceColumnBegin : Int
  sourceColumnLimit : Int
  columnEnd : Int
  columnBeginDirty : Int
  columnEndDirty : Int
  sourceColumnEnd : Int
deriving DecidableEq, Repr

inductive DbcsAttribute where
  | single
  | leading
  | trailing
deriving DecidableEq, Repr

inductive TextAttributeBehavior where
  | stored
  | current
  | storedOnly
deriving DecidableEq, Repr

structure OutputCellView (Attr : Type) where
  chars : List WChar
  dbcsAttr : DbcsAttribute
  textAttr : Attr
  textAttrBehavior : TextAttributeBehavior
deriving DecidableEq, Repr

-- The cells that are left, each with the position that the iterator has there,
-- and the view it keeps at its end.
structure OutputCellIterator (Attr : Type) where
  cells : List (OutputCellView Attr × Nat)
  lastView : OutputCellView Attr
deriving DecidableEq, Repr

namespace Row

variable {Attr : Type} [DecidableEq Attr] [Inhabited Attr] (env : Environment)

-- A thrown exception leaves the row reset and gives no result.
def replaceCharacters (row : Row Attr) (columnBegin width : Int) (chars : List WChar) : Row Attr × Option Unit :=
  let h := start row columnBegin row.columnCount chars
  if h.isValid then
    match (h.replaceCharacters width).finish env.heap with
    | none => (row.reset default, none)
    | some h => (h.row, some ())
  else (row, some ())

def replaceText (row : Row Attr) (state : RowWriteState) : Row Attr × Option RowWriteState :=
  let h := start row state.columnBegin state.columnLimit state.text
  if h.isValid then
    match (h.replaceText env.measure).finish env.heap with
    | none => (row.reset default, none)
    | some h =>
      let text := state.text.drop h.charsConsumed
      (h.row, some { state with
          text := text
          -- The last column gets the attributes of the text although a wide glyph did not fit.
          columnEnd := if text.isEmpty then h.colEnd else h.colLimit
          columnBeginDirty := h.colBegDirty
          columnEndDirty := h.colEndDirty })
  else (row, some { state with columnEnd := h.colBeg, columnBeginDirty := h.colBeg, columnEndDirty := h.colBeg })

-- The source is none when the row is to be copied from itself.
def copyTextFrom (row : Row Attr) (other : Option (Row Attr)) (state : RowCopyTextFromState) :
    Row Attr × Option RowCopyTextFromState :=
  let source := other.getD row
  let sourceColBeg := source.clampedColumnInclusive state.sourceColumnBegin
  let sourceColLimit := source.clampedColumnInclusive state.sourceColumnLimit
  let charOffsets :=
    if sourceColBeg < sourceColLimit then (source.charOffsets.drop sourceColBeg).take (sourceColLimit - sourceColBeg + 1) else []
  let beg := charOffsets.getD 0 0 &&& charOffsetsMask
  let finish := charOffsets.getLastD 0 &&& charOffsetsMask
  let chars := if sourceColBeg < sourceColLimit then (source.chars.take finish).drop beg else []
  let h := start row state.columnBegin state.columnLimit chars
  if !h.isValid || other.isNone || decide (charOffsets.length < 2) || charOffsets.getD 0 0 &&& charOffsetsTrailer != 0 then
    (row, some { state with
        columnEnd := h.colBeg
        columnBeginDirty := h.colBeg
        columnEndDirty := h.colBeg
        sourceColumnEnd := source.columnCount })
  else
    match (h.copyTextFrom charOffsets).finish env.heap with
    | none => (row.reset default, none)
    | some h =>
      (h.row, some { state with
          columnEnd := if h.charsConsumed = chars.length then h.colEnd else h.colLimit
          columnBeginDirty := h.colBegDirty
          columnEndDirty := h.colEndDirty
          sourceColumnEnd := sourceColBeg + h.colEnd - h.colBeg })

def copyAttributesFrom (attributes : Rle Attr) (columnCount : Nat) (copied : Row Attr × Option RowCopyTextFromState) :
    Row Attr × Option Unit :=
  match copied.2 with
  | none => (copied.1, none)
  | some _ =>
    match attributes.resizeTrailingExtent 16 columnCount with
    | none => ({ copied.1 with attr := attributes }, none)
    | some attr => ({ copied.1 with attr := attr }, some ())

def copyFrom (row : Row Attr) (other : Option (Row Attr)) : Row Attr × Option Unit :=
  let source := other.getD row
  copyAttributesFrom source.attr row.columnCount
    (copyTextFrom env { row with lineRendition := source.lineRendition, wrapForced := source.wrapForced } other
      ⟨0, coordTypeMax, 0, source.getReadableColumnCount, 0, 0, 0, 0⟩)

def clearCell (row : Row Attr) (column : Int) : Row Attr × Option Unit := row.replaceCharacters env column 1 [unicodeSpace]

def replaceAttributes (row : Row Attr) (beginIndex endIndex : Int) (newAttr : Attr) : Option (Row Attr) :=
  (row.attr.replaceValue 16 (row.clampedColumnInclusive beginIndex) (row.clampedColumnInclusive endIndex) newAttr).map
    (fun attr => { row with attr := attr })

end Row

structure CellWriting (Attr : Type) where
  row : Row Attr
  it : OutputCellIterator Attr
  currentColor : Attr
  colorUses : Nat
  colorStarts : Nat
  currentIndex : Nat

namespace CellWriting

variable {Attr : Type} [DecidableEq Attr] [Inhabited Attr] (env : Environment)

-- The color of a cell is committed when a cell of another color follows.
def writeColor (cell : OutputCellView Attr) (w : CellWriting Attr) : Option (CellWriting Attr) :=
  if cell.textAttrBehavior = .current then some w
  else if w.currentColor = cell.textAttr then some { w with colorUses := narrow16 (w.colorUses + 1) }
  else
    (w.row.attr.replaceValue 16 w.colorStarts w.currentIndex w.currentColor).map (fun attr =>
      { w with
        row := { w.row with attr := attr }
        currentColor := cell.textAttr
        colorUses := 1
        colorStarts := w.currentIndex })

-- The second component says whether the iterator moves on.
def writeText (finalColumnInRow : Nat) (cell : OutputCellView Attr) (position : Nat) (w : CellWriting Attr) :
    (Row Attr × Option Unit) × Bool :=
  match cell.dbcsAttr with
  | .leading =>
    if w.currentIndex = finalColumnInRow then
      let cleared := w.row.clearCell env w.currentIndex
      (({ cleared.1 with doubleBytePadded := cleared.1.doubleBytePadded || cleared.2.isSome }, cleared.2), false)
    else (w.row.replaceCharacters env w.currentIndex 2 cell.chars, true)
  | .trailing =>
    if w.currentIndex = 0 then (w.row.clearCell env w.currentIndex, true)
    else if position = 0 then (w.row.replaceCharacters env (w.currentIndex - 1) 2 cell.chars, true)
    else ((w.row, some ()), true)
  | .single => (w.row.replaceCharacters env w.currentIndex 1 cell.chars, true)

-- One iteration. The row is returned alone when an exception is thrown.
def writeCell (wrap : Option Bool) (finalColumnInRow : Nat) (cell : OutputCellView Attr) (position : Nat)
    (rest : List (OutputCellView Attr × Nat)) (w : CellWriting Attr) : Row Attr × Option (CellWriting Attr) :=
  match w.writeColor cell with
  | none => (w.row, none)
  | some w =>
    if cell.textAttrBehavior = .storedOnly then
      (w.row, some { w with it := { w.it with cells := rest }, currentIndex := narrow16 (w.currentIndex + 1) })
    else
      let written := w.writeText env finalColumnInRow cell position
      match written.1.2 with
      | none => (written.1.1, none)
      | some _ =>
        let row := if w.currentIndex = finalColumnInRow then
            { written.1.1 with wrapForced := wrap.getD written.1.1.wrapForced }
          else written.1.1
        (row, some { w with
            row := row
            it := if written.2 then { w.it with cells := rest } else w.it
            currentIndex := narrow16 (w.currentIndex + 1) })

def writeCellsLoop (wrap : Option Bool) (finalColumnInRow : Nat) : Nat → CellWriting Attr →
    Row Attr × Option (CellWriting Attr)
  | 0, w => (w.row, some w)
  | fuel + 1, w =>
    match w.it.cells with
    | [] => (w.row, some w)
    | (cell, position) :: rest =>
      if w.currentIndex ≤ finalColumnInRow then
        let written := w.writeCell env wrap finalColumnInRow cell position rest
        match written.2 with
        | none => (written.1, none)
        | some w => writeCellsLoop wrap finalColumnInRow fuel w
      else (w.row, some w)

end CellWriting

namespace Row

variable {Attr : Type} [DecidableEq Attr] [Inhabited Attr] (env : Environment)

def startCells (row : Row Attr) (it : OutputCellIterator Attr) (columnBegin : Int) : CellWriting Attr :=
  { row := row
    it := it
    currentColor := (it.cells.head?.elim it.lastView Prod.fst).textAttr
    colorUses := 0
    colorStarts := narrow16 columnBegin
    currentIndex := narrow16 columnBegin }

-- Only a cell for the last column is not consumed, so every cell takes at most
-- two iterations.
def writeCells (row : Row Attr) (it : OutputCellIterator Attr) (columnBegin : Int) (wrap : Option Bool)
    (limitRight : Option Int) : Row Attr × Option (OutputCellIterator Attr) :=
  if columnBegin ≥ row.columnCount ∨ limitRight.getD 0 ≥ row.columnCount then (row, none)
  else
    let finalColumnInRow := narrow16 (limitRight.getD (row.columnCount - 1))
    let looped := (row.startCells it columnBegin).writeCellsLoop env wrap finalColumnInRow (2 * it.cells.length + 1)
    match looped.2 with
    | none => (looped.1, none)
    | some w =>
      if w.colorUses = 0 then (w.row, some w.it)
      else
        match w.row.attr.replaceValue 16 w.colorStarts w.currentIndex w.currentColor with
        | none => (w.row, none)
        | some attr => ({ w.row with attr := attr }, some w.it)

end Row

end Cogterm.Buffer
