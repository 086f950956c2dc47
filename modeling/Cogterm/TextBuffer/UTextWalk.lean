import Cogterm.Library.Pieces
import Cogterm.Library.Runs
import Cogterm.TextBuffer.TextBuffer
import Mathlib.Algebra.Ring.Int.Defs

namespace Cogterm.Buffer

open Library
open Unicode (WChar isTrailingSurrogate)

-- The fields of the UText that the adapter uses. The length of the chunk is that
-- of its contents.
structure UText where
  rowBegin : Int
  rowEnd : Int
  currentRow : Int
  chunkNativeStart : Int
  chunkNativeLimit : Int
  chunkContents : List WChar
  chunkOffset : Int
deriving DecidableEq, Repr

structure RowWalk where
  y : Int
  start : Int
  limit : Int
  text : List WChar
  wasWrapForced : Bool

namespace TextBuffer

variable (buffer : TextBuffer)

-- A row that does not go on in the next one is followed by a newline.
def terminator (wasWrapForced : Bool) : List WChar := if wasWrapForced then [] else [0x0A]

def chunkText (y : Int) : List WChar := (buffer.getRow y).getWholeText ++ terminator (buffer.getRow y).wrapForced

def chunkLength (y : Int) : Int :=
  (buffer.getRow y).getWholeText.length + (if (buffer.getRow y).wrapForced then 0 else 1)

-- The do-while loops over the rows. The fuel is enough to leave the range.
def walkBackward (rowBegin neededIndex : Int) : Nat → RowWalk → RowWalk
  | 0, walk => walk
  | fuel + 1, walk =>
    let y := walk.y - 1
    if y < rowBegin then { walk with y := y }
    else
      let row := buffer.getRow y
      let next : RowWalk := ⟨y, walk.start - buffer.chunkLength y, walk.start, row.getWholeText, row.wrapForced⟩
      if neededIndex < next.start then walkBackward rowBegin neededIndex fuel next else next

def walkForward (rowEnd neededIndex : Int) : Nat → RowWalk → RowWalk
  | 0, walk => walk
  | fuel + 1, walk =>
    let y := walk.y + 1
    if y ≥ rowEnd then { walk with y := y }
    else
      let row := buffer.getRow y
      let next : RowWalk := ⟨y, walk.limit, walk.limit + buffer.chunkLength y, row.getWholeText, row.wrapForced⟩
      if neededIndex ≥ next.limit then walkForward rowEnd neededIndex fuel next else next

def accessWalk (ut : UText) (neededIndex : Int) : RowWalk :=
  let old : RowWalk := ⟨ut.currentRow, ut.chunkNativeStart, ut.chunkNativeLimit, [], false⟩
  if neededIndex < ut.chunkNativeStart then
    buffer.walkBackward ut.rowBegin neededIndex ((ut.currentRow - ut.rowBegin).toNat + 1) old
  else if neededIndex ≥ ut.chunkNativeLimit then
    buffer.walkForward ut.rowEnd neededIndex ((ut.rowEnd - ut.currentRow).toNat + 1) old
  else old

-- Also a walk that left the range shows the first or last row it came by.
def accessChunk (ut : UText) (walk : RowWalk) : UText :=
  if walk.limit ≠ ut.chunkNativeLimit then
    { ut with
      currentRow := walk.y
      chunkNativeStart := walk.start
      chunkNativeLimit := walk.limit
      chunkContents := walk.text ++ terminator walk.wasWrapForced }
  else ut

def accessOffset (contents : List WChar) (offset : Int) : Int :=
  if 0 < offset ∧ offset < contents.length ∧ isTrailingSurrogate (contents.getD offset.toNat 0) = true then offset - 1
  else offset

def utextAccess (ut : UText) (nativeIndex : Int) (forward : Bool) : UText × Bool :=
  let neededIndex := if forward then nativeIndex else nativeIndex - 1
  let walk := buffer.accessWalk ut neededIndex
  let chunk := accessChunk ut walk
  let clampedIndex := clamp nativeIndex walk.start walk.limit
  ({ chunk with chunkOffset := accessOffset chunk.chunkContents (clampedIndex - walk.start) },
    decide (neededIndex ≥ walk.start ∧ neededIndex < walk.limit))

def utextFromTextBuffer (rowBegin rowEnd : Int) : UText :=
  (buffer.utextAccess ⟨rowBegin, rowEnd, rowBegin - 1, 0, 0, [], 0⟩ 0 true).1

open Nat

variable (buffer : TextBuffer) (rowBegin rowEnd : Int)

def rowChunk (index : Nat) : List WChar := buffer.chunkText (rowBegin + index)

def rowCount : Nat := (rowEnd - rowBegin).toNat

-- The whole text of the range, which the chunks are pieces of.
def rangeText : List WChar := joined (buffer.rowChunk rowBegin) (rowCount rowBegin rowEnd)

def chunkStart (index : Nat) : Nat := startOf (buffer.rowChunk rowBegin) index

theorem chunk_length (y : Int) : buffer.chunkLength y = (buffer.chunkText y).length := by
  unfold chunkLength chunkText terminator
  cases (buffer.getRow y).wrapForced <;> simp

theorem chunk_start_succ (index : Nat) :
    (buffer.chunkStart rowBegin (index + 1) : Int) =
    buffer.chunkStart rowBegin index + buffer.chunkLength (rowBegin + index) := by
  rw [chunkStart, start_succ, chunk_length]
  rfl

def rowWalk (index : Nat) : RowWalk :=
  ⟨rowBegin + index, buffer.chunkStart rowBegin index, buffer.chunkStart rowBegin (index + 1),
    (buffer.getRow (rowBegin + index)).getWholeText, (buffer.getRow (rowBegin + index)).wrapForced⟩

def WalkedBack (neededIndex : Int) (index : Nat) (walk result : RowWalk) : Prop :=
  (0 ≤ neededIndex ∧ ∃ found < index, (buffer.chunkStart rowBegin found : Int) ≤ neededIndex ∧
    neededIndex < buffer.chunkStart rowBegin (found + 1) ∧ result = buffer.rowWalk rowBegin found) ∨
  (neededIndex < 0 ∧ result = { (if index = 0 then walk else buffer.rowWalk rowBegin 0) with y := rowBegin - 1 })

def WalkedOn (neededIndex : Int) (index : Nat) (walk result : RowWalk) : Prop :=
  (neededIndex < (buffer.rangeText rowBegin rowEnd).length ∧ ∃ found, index ≤ found ∧ found < rowCount rowBegin rowEnd ∧
    (buffer.chunkStart rowBegin found : Int) ≤ neededIndex ∧ neededIndex < buffer.chunkStart rowBegin (found + 1) ∧
    result = buffer.rowWalk rowBegin found) ∨
    ((buffer.rangeText rowBegin rowEnd).length ≤ neededIndex ∧ ∃ y, rowEnd ≤ y ∧
    result = { (if index = rowCount rowBegin rowEnd then walk else buffer.rowWalk rowBegin (rowCount rowBegin rowEnd - 1))
      with y := y })

variable {buffer rowBegin rowEnd} {ut : UText} {neededIndex : Int}

theorem walk_backward_result (index fuel : Nat) (walk : RowWalk) (enough : index < fuel) (here : walk.y = rowBegin + index)
    (isStart : walk.start = buffer.chunkStart rowBegin index) (before : neededIndex < buffer.chunkStart rowBegin index) :
    buffer.WalkedBack rowBegin neededIndex index walk (buffer.walkBackward rowBegin neededIndex fuel walk) := by
  induction index generalizing fuel walk with
  | zero =>
    obtain ⟨more, rfl⟩ := exists_eq_succ_of_ne_zero (ne_of_gt enough)
    refine Or.inr ⟨by simpa [chunkStart] using before, ?_⟩
    rw [walkBackward, if_pos (by omega), here]
    simp
  | succ index ih =>
    obtain ⟨more, rfl⟩ := exists_eq_succ_of_ne_zero (ne_of_gt (lt_of_le_of_lt (zero_le _) enough))
    have up : walk.y - 1 = rowBegin + index := by omega
    have next : (⟨walk.y - 1, walk.start - buffer.chunkLength (walk.y - 1), walk.start,
      (buffer.getRow (walk.y - 1)).getWholeText,
        (buffer.getRow (walk.y - 1)).wrapForced⟩ : RowWalk) = buffer.rowWalk rowBegin index := by
      rw [up, isStart, rowWalk, chunk_start_succ]
      congr 1
      omega
    have nextStart : walk.start - buffer.chunkLength (walk.y - 1) = (buffer.rowWalk rowBegin index).start :=
      congrArg RowWalk.start next
    rw [walkBackward, if_neg (by omega)]
    simp only [next]
    rw [nextStart]
    by_cases further : neededIndex < (buffer.rowWalk rowBegin index).start
    · rw [if_pos further]
      rcases ih more (buffer.rowWalk rowBegin index) (by omega) rfl rfl further with ⟨inside, found, earlier, reached⟩ |
        ⟨off, result⟩
      · exact Or.inl ⟨inside, found, by omega, reached⟩
      refine Or.inr ⟨off, ?_⟩
      rw [result, if_neg (succ_ne_zero index)]
      by_cases first : index = 0
      · simp [first]
      · rw [if_neg first]
    · rw [if_neg further]
      have reached : (buffer.chunkStart rowBegin index : Int) ≤ neededIndex := Int.not_lt.mp further
      exact Or.inl ⟨by omega, index, lt_succ_self index, reached, before, rfl⟩

theorem walk_forward_result (index fuel : Nat) (walk : RowWalk) (inside : index ≤ rowCount rowBegin rowEnd)
    (enough : rowCount rowBegin rowEnd < index + fuel) (here : walk.y = rowBegin + index - 1)
    (isLimit : walk.limit = buffer.chunkStart rowBegin index)
    (behind : (buffer.chunkStart rowBegin index : Int) ≤ neededIndex) :
    buffer.WalkedOn rowBegin rowEnd neededIndex index walk (buffer.walkForward rowEnd neededIndex fuel walk) := by
  have length : (buffer.rangeText rowBegin rowEnd).length = buffer.chunkStart rowBegin (rowCount rowBegin rowEnd) := rfl
  induction fuel generalizing index walk with
  | zero => omega
  | succ fuel ih =>
    by_cases last : index = rowCount rowBegin rowEnd
    · refine Or.inr ⟨by rw [length, ← last]; exact behind, walk.y + 1, ?_, ?_⟩
      · unfold rowCount at last
        omega
      · rw [walkForward, if_pos (by unfold rowCount at last; omega), if_pos last]
    · have up : walk.y + 1 = rowBegin + index := by omega
      have within : index < rowCount rowBegin rowEnd := by omega
      have next : (⟨walk.y + 1, walk.limit, walk.limit + buffer.chunkLength (walk.y + 1),
        (buffer.getRow (walk.y + 1)).getWholeText,
          (buffer.getRow (walk.y + 1)).wrapForced⟩ : RowWalk) = buffer.rowWalk rowBegin index := by
        rw [up, isLimit, rowWalk, chunk_start_succ]
      have nextLimit : walk.limit + buffer.chunkLength (walk.y + 1) = (buffer.rowWalk rowBegin index).limit :=
        congrArg RowWalk.limit next
      rw [walkForward, if_neg (by unfold rowCount at within; omega)]
      simp only [next]
      rw [nextLimit]
      by_cases further : neededIndex ≥ (buffer.rowWalk rowBegin index).limit
      · rw [if_pos further]
        rcases ih (index + 1) (buffer.rowWalk rowBegin index) within (by omega) (by simp [rowWalk]; omega) rfl further with
          ⟨found, later, order, reached⟩ | ⟨off, y, beyond, result⟩
        · exact Or.inl ⟨found, later, by omega, reached⟩
        refine Or.inr ⟨off, y, beyond, ?_⟩
        rw [result, if_neg last]
        by_cases final : index + 1 = rowCount rowBegin rowEnd
        · simp [← final]
        · rw [if_neg final]
      · rw [if_neg further]
        have before : neededIndex < buffer.chunkStart rowBegin (index + 1) := Int.not_le.mp further
        have bound := start_mono (buffer.rowChunk rowBegin) (index + 1) (rowCount rowBegin rowEnd) within
        refine Or.inl ⟨?_, index, le_refl _, within, behind, before, rfl⟩
        rw [length]
        unfold chunkStart at before ⊢
        omega

def oldWalk (ut : UText) : RowWalk := ⟨ut.currentRow, ut.chunkNativeStart, ut.chunkNativeLimit, [], false⟩

theorem access_walk_back {index : Nat} (begins : ut.rowBegin = rowBegin) (row : ut.currentRow = rowBegin + index)
    (start : ut.chunkNativeStart = buffer.chunkStart rowBegin index) (behind : neededIndex < buffer.chunkStart rowBegin index) :
    buffer.WalkedBack rowBegin neededIndex index (oldWalk ut) (buffer.accessWalk ut neededIndex) := by
  rw [accessWalk, if_pos (by rw [start]; exact behind), begins]
  exact walk_backward_result index _ _ (by omega) row start behind

theorem access_walk_on (ends : ut.rowEnd = rowEnd) (inside : index ≤ rowCount rowBegin rowEnd)
    (row : ut.currentRow = rowBegin + index - 1) (limit : ut.chunkNativeLimit = buffer.chunkStart rowBegin index)
    (order : ut.chunkNativeStart ≤ ut.chunkNativeLimit) (ahead : (buffer.chunkStart rowBegin index : Int) ≤ neededIndex) :
    buffer.WalkedOn rowBegin rowEnd neededIndex index (oldWalk ut) (buffer.accessWalk ut neededIndex) := by
  rw [accessWalk, if_neg (by omega), if_pos (by rw [limit]; exact ahead), ends]
  exact walk_forward_result index _ _ inside (by unfold rowCount; omega) row limit ahead

-- The chunk in use is the text of the row with the given index.
variable (buffer rowBegin rowEnd) in
structure Stands (ut : UText) (index : Nat) : Prop where
  begins : ut.rowBegin = rowBegin
  ends : ut.rowEnd = rowEnd
  inside : index < rowCount rowBegin rowEnd
  row : ut.currentRow = rowBegin + index
  start : ut.chunkNativeStart = buffer.chunkStart rowBegin index
  limit : ut.chunkNativeLimit = buffer.chunkStart rowBegin (index + 1)
  contents : ut.chunkContents = buffer.rowChunk rowBegin index
  filled : buffer.chunkStart rowBegin index < buffer.chunkStart rowBegin (index + 1)

variable (buffer rowBegin rowEnd) in
structure Found (ut : UText) (neededIndex : Int) (found : Nat) : Prop where
  start : (buffer.accessWalk ut neededIndex).start = buffer.chunkStart rowBegin found
  limit : (buffer.accessWalk ut neededIndex).limit = buffer.chunkStart rowBegin (found + 1)
  stands : buffer.Stands rowBegin rowEnd (accessChunk ut (buffer.accessWalk ut neededIndex)) found
  reached : (buffer.chunkStart rowBegin found : Int) ≤ neededIndex
  before : neededIndex < buffer.chunkStart rowBegin (found + 1)

theorem row_walk_found (begins : ut.rowBegin = rowBegin) (ends : ut.rowEnd = rowEnd)
    (inside : found < rowCount rowBegin rowEnd) (reached : (buffer.chunkStart rowBegin found : Int) ≤ neededIndex)
    (before : neededIndex < buffer.chunkStart rowBegin (found + 1))
    (result : buffer.accessWalk ut neededIndex = buffer.rowWalk rowBegin found)
    (moves : (buffer.chunkStart rowBegin (found + 1) : Int) ≠ ut.chunkNativeLimit) :
    buffer.Found rowBegin rowEnd ut neededIndex found := by
  have changed : (buffer.rowWalk rowBegin found).limit ≠ ut.chunkNativeLimit := moves
  refine ⟨by rw [result]; rfl, by rw [result]; rfl, ?_, reached, before⟩
  rw [result, accessChunk, if_pos changed]
  exact ⟨begins, ends, inside, rfl, rfl, rfl, rfl, by omega⟩

theorem old_walk_stays (result : buffer.accessWalk ut neededIndex = { oldWalk ut with y := y }) :
    (buffer.accessWalk ut neededIndex).start = ut.chunkNativeStart ∧
      (buffer.accessWalk ut neededIndex).limit = ut.chunkNativeLimit ∧ accessChunk ut (buffer.accessWalk ut neededIndex) =
      ut := by
  refine ⟨by rw [result]; rfl, by rw [result]; rfl, ?_⟩
  rw [result, accessChunk, if_neg (by simp [oldWalk])]

variable (stands : buffer.Stands rowBegin rowEnd ut index)

include stands

theorem walk_found (lower : 0 ≤ neededIndex) (upper : neededIndex < (buffer.rangeText rowBegin rowEnd).length) :
    ∃ found, buffer.Found rowBegin rowEnd ut neededIndex found := by
  have inside := stands.inside
  have filled := stands.filled
  have isRow := stands.row
  have isStart := stands.start
  have isLimit := stands.limit
  by_cases behind : neededIndex < buffer.chunkStart rowBegin index
  · rcases access_walk_back stands.begins isRow isStart behind with ⟨_, found, earlier, reached, before, result⟩ |
      ⟨off, _⟩
    · have order := start_mono (buffer.rowChunk rowBegin) (found + 1) index earlier
      refine ⟨found, row_walk_found stands.begins stands.ends (by omega) reached before result ?_⟩
      rw [isLimit]
      unfold chunkStart at filled ⊢
      omega
    · omega
  · by_cases ahead : neededIndex ≥ buffer.chunkStart rowBegin (index + 1)
    · rcases access_walk_on stands.ends inside (by omega) isLimit (by omega) ahead with
        ⟨_, found, later, within, reached, before, result⟩ | ⟨off, _⟩
      · exact ⟨found, row_walk_found stands.begins stands.ends within reached before result (by omega)⟩
      · omega
    · have isWalk : buffer.accessWalk ut neededIndex = oldWalk ut := by
        rw [accessWalk, if_neg (by rw [isStart]; exact behind), if_neg (by rw [isLimit]; exact ahead)]
        rfl
      obtain ⟨start, limit, chunk⟩ := old_walk_stays isWalk
      exact ⟨index, start.trans isStart,
        limit.trans isLimit, by rw [chunk]; exact stands, Int.not_lt.mp behind, Int.not_le.mp ahead⟩

theorem walk_off_front (off : neededIndex < 0) : (index = 0 ∧ (buffer.accessWalk ut neededIndex).start = ut.chunkNativeStart ∧
      (buffer.accessWalk ut neededIndex).limit = ut.chunkNativeLimit ∧ accessChunk ut (buffer.accessWalk ut neededIndex) =
        ut) ∨
    (index ≠ 0 ∧ (accessChunk ut (buffer.accessWalk ut neededIndex)).currentRow = rowBegin - 1) := by
  have filled := stands.filled
  rcases access_walk_back stands.begins stands.row stands.start (by omega : neededIndex < buffer.chunkStart rowBegin index) with
    ⟨inside, _⟩ | ⟨_, result⟩
  · omega
  by_cases first : index = 0
  · rw [if_pos first] at result
    exact Or.inl ⟨first, old_walk_stays result⟩
  rw [if_neg first] at result
  have order := start_mono (buffer.rowChunk rowBegin) (0 + 1) index (one_le_iff_ne_zero.mpr first)
  have changed : (buffer.accessWalk ut neededIndex).limit ≠ ut.chunkNativeLimit := by
    rw [result, stands.limit]
    simp only [rowWalk, chunkStart] at filled ⊢
    omega
  refine Or.inr ⟨first, ?_⟩
  rw [accessChunk, if_pos changed, result]

theorem walk_off_end (off : (buffer.rangeText rowBegin rowEnd).length ≤ neededIndex) :
    (index + 1 = rowCount rowBegin rowEnd ∧ (buffer.accessWalk ut neededIndex).start = ut.chunkNativeStart ∧
      (buffer.accessWalk ut neededIndex).limit = ut.chunkNativeLimit ∧ accessChunk ut (buffer.accessWalk ut neededIndex) =
        ut) ∨
    (index + 1 ≠ rowCount rowBegin rowEnd ∧ (rowEnd ≤ (accessChunk ut (buffer.accessWalk ut neededIndex)).currentRow ∨
        (accessChunk ut (buffer.accessWalk ut neededIndex) = ut ∧
          (buffer.accessWalk ut neededIndex).start = ut.chunkNativeLimit ∧
          (buffer.accessWalk ut neededIndex).limit = ut.chunkNativeLimit))) := by
  have inside := stands.inside
  have filled := stands.filled
  have isRow := stands.row
  have isStart := stands.start
  have isLimit := stands.limit
  have order := start_mono (buffer.rowChunk rowBegin) (index + 1) (rowCount rowBegin rowEnd) inside
  have length : (buffer.rangeText rowBegin rowEnd).length = startOf (buffer.rowChunk rowBegin) (rowCount rowBegin rowEnd) := rfl
  have ahead : neededIndex ≥ buffer.chunkStart rowBegin (index + 1) := by
    unfold chunkStart
    omega
  rcases access_walk_on stands.ends inside (by omega) isLimit (by omega) ahead with ⟨within, _⟩ | ⟨_, y, beyond, result⟩
  · omega
  by_cases last : index + 1 = rowCount rowBegin rowEnd
  · rw [if_pos last] at result
    exact Or.inl ⟨last, old_walk_stays result⟩
  rw [if_neg last] at result
  refine Or.inr ⟨last, ?_⟩
  by_cases same : (buffer.accessWalk ut neededIndex).limit = ut.chunkNativeLimit
  · -- The rows behind the chunk are all empty.
    refine Or.inr ⟨by rw [accessChunk, if_neg (by simpa using same)], ?_, same⟩
    have least := start_mono (buffer.rowChunk rowBegin) (index + 1) (rowCount rowBegin rowEnd - 1) (by omega)
    have most := start_mono (buffer.rowChunk rowBegin) (rowCount rowBegin rowEnd - 1) (rowCount rowBegin rowEnd - 1 + 1)
      (by omega)
    rw [result, isLimit] at same
    rw [result, isLimit]
    simp only [rowWalk, chunkStart] at same ⊢
    omega
  · refine Or.inl ?_
    rw [accessChunk, if_pos same, result]
    exact beyond

end TextBuffer

end Cogterm.Buffer
