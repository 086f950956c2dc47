import Mathlib.Data.UInt
import Cogterm.Library.Splice

namespace Cogterm.Buffer

open Library List

-- The two branches of the SSE code, and the NEON code.
inductive InitPath where
  | avx2
  | sse2
  | neon
deriving DecidableEq, Repr

def calculateCharsBufferSize (columns : Nat) : Nat := (columns * 2 + 16) / 16 * 16
def calculateCharOffsetsBufferSize (columns : Nat) : Nat := (columns * 2 + 16) / 16 * 16

-- As many spaces are stored as offsets, at the same place of their buffer.
structure VectorStore where
  position : Nat
  offsets : List UInt16

def offsetsData (lanes : Nat) : List UInt16 := (range lanes).map UInt16.ofNat

-- The do-while loops: another vector is stored as long as it begins in front of
-- the bound.
def storeLoop (lanes bound : Nat) : Nat → Nat → List UInt16 → List VectorStore
  | 0, _, _ => []
  | fuel + 1, position, offsets =>
    ⟨position, offsets⟩ ::
      if position + lanes < bound then storeLoop lanes bound fuel (position + lanes) (offsets.map (· + UInt16.ofNat lanes))
      else []

def storeEight (columnCount : Nat) : List VectorStore := storeLoop 8 (columnCount + 1) (columnCount + 1) 0 (offsetsData 8)

def storeSixteen (columnCount : Nat) : List VectorStore :=
  let tailColumnOffset := (columnCount - 8) / 8 * 8
  (if 0 < tailColumnOffset then storeLoop 16 tailColumnOffset tailColumnOffset 0 (offsetsData 16) else []) ++
    [⟨tailColumnOffset, (offsetsData 16).map (· + UInt16.ofNat tailColumnOffset)⟩]

def initStores (path : InitPath) (columnCount : Nat) : List VectorStore :=
  match path with
  | .avx2 => if columnCount ≥ 15 then storeSixteen columnCount else storeEight columnCount
  | .sse2 | .neon => storeEight columnCount

-- There is no result when a store reaches outside of the buffer.
def runStores (lanesOf : VectorStore → List UInt16) (stores : List VectorStore) (buffer : List UInt16) : Option (List UInt16) :=
  stores.foldlM (fun buffer store =>
    if store.position + (lanesOf store).length ≤ buffer.length then some (overwriteAt buffer store.position (lanesOf store))
    else none) buffer

-- The buffers of a row, with the sizes that TextBuffer gives them.
structure RowBuffers (columnCount : UInt16) where
  chars : List UInt16
  charOffsets : List UInt16
  charsSize : chars.length * 2 = calculateCharsBufferSize columnCount.toNat
  charOffsetsSize : charOffsets.length * 2 = calculateCharOffsetsBufferSize columnCount.toNat

def init (path : InitPath) {columnCount : UInt16} (buffers : RowBuffers columnCount) : Option (List UInt16 × List UInt16) := do
  let stores := initStores path columnCount.toNat
  return (← runStores (fun store => replicate store.offsets.length 0x20) stores buffers.chars,
    ← runStores VectorStore.offsets stores buffers.charOffsets)

-- The stores count on, stay below a size, and reach every index in a range.
structure Fills (size first last : Nat) (stores : List VectorStore) : Prop where
  counts : ∀ store ∈ stores, store.offsets =
    (range store.offsets.length).map (fun lane => UInt16.ofNat (store.position + lane))
  inside : ∀ store ∈ stores, store.position + store.offsets.length ≤ size
  covers : ∀ index, first ≤ index → index < last →
    ∃ store ∈ stores, store.position ≤ index ∧ index < store.position + store.offsets.length

theorem overwrite_get {items : List UInt16} (inside : position + source.length ≤ items.length) (index : Nat) :
    (overwriteAt items position source)[index]? =
      if position ≤ index ∧ index < position + source.length then source[index - position]? else items[index]? := by
  have before : (items.take position).length = position := length_take_of_le (by omega)
  rw [overwriteAt]
  grind

-- Stores that hold what belongs to their places leave it everywhere they reach.
theorem stores_fill (lanesOf : VectorStore → List UInt16) (content : Nat → UInt16)
    (isContent : ∀ store ∈ stores, lanesOf store =
      (range store.offsets.length).map (fun lane => content (store.position + lane)))
    (inside : ∀ store ∈ stores, store.position + store.offsets.length ≤ buffer.length) :
    ∃ filled, runStores lanesOf stores buffer = some filled ∧ ∀ index, buffer[index]? = some (content index) ∨
      (∃ store ∈ stores, store.position ≤ index ∧ index < store.position + store.offsets.length) →
        filled[index]? = some (content index) := by
  induction stores generalizing buffer with
  | nil => exact ⟨buffer, rfl, fun index covered => by simpa using covered⟩
  | cons store rest ih =>
    rw [forall_mem_cons] at isContent inside
    have length : (lanesOf store).length = store.offsets.length := by simp [isContent.1]
    have room : store.position + (lanesOf store).length ≤ buffer.length := length ▸ inside.1
    obtain ⟨filled, ran, right⟩ := ih isContent.2 (by rw [overwrite_length room]; exact inside.2)
    refine ⟨filled, by simpa [runStores, room] using ran, fun index covered => right index ?_⟩
    rw [overwrite_get room, length]
    split
    · left
      grind
    · rw [exists_mem_cons_iff] at covered
      tauto

theorem fills_nothing (done : last ≤ first) : Fills size first last [] :=
  ⟨by simp, by simp, fun index above below => by omega⟩

theorem fills_append (front : Fills size first middle left) (back : Fills size middle last right) :
    Fills size first last (left ++ right) := by
  refine ⟨fun store member => ?_, fun store member => ?_, fun index above below => ?_⟩
  · exact (mem_append.mp member).elim (front.counts store) (back.counts store)
  · exact (mem_append.mp member).elim (front.inside store) (back.inside store)
  · simp only [mem_append, or_and_right, exists_or]
    by_cases before : index < middle
    · exact .inl (front.covers index above before)
    · exact .inr (back.covers index (by omega) below)

-- A vector of offsets that was moved on.
theorem fills_single (inside : position + lanes ≤ size) :
    Fills size position (position + lanes) [⟨position, (offsetsData lanes).map (· + UInt16.ofNat position)⟩] := by
  refine ⟨?_, by simpa [offsetsData] using inside, fun index above below => ⟨_, mem_singleton_self _, above, ?_⟩⟩
  · simp [offsetsData, UInt16.ofNat_add, add_comm]
  · simpa [offsetsData] using below

theorem store_loop_fills (fuel : Nat) (aligned : position % lanes = 0) (before : position < bound)
    (enough : bound ≤ position + fuel * lanes)
    (room : ∀ start, start % lanes = 0 → start < bound → start + lanes ≤ size) :
    Fills size position bound (storeLoop lanes bound fuel position ((offsetsData lanes).map (· + UInt16.ofNat position))) := by
  induction fuel generalizing position with
  | zero => omega
  | succ fuel ih =>
    rw [storeLoop, ← singleton_append]
    refine fills_append (fills_single (room position aligned before)) ?_
    split
    · rename_i further
      rw [Nat.succ_mul] at enough
      simpa [UInt16.ofNat_add, Function.comp_def, add_assoc] using ih (by rwa [Nat.add_mod_right]) further (by omega)
    · exact fills_nothing (by omega)

theorem store_sixteen_fills (columnCount : Nat) (enough : 15 ≤ columnCount) :
    Fills (columnCount / 8 * 8 + 8) 0 (columnCount + 1) (storeSixteen columnCount) := by
  have back := fills_single (show (columnCount - 8) / 8 * 8 + 16 ≤ columnCount / 8 * 8 + 8 by omega)
  refine fills_append ?_ ⟨back.counts, back.inside, fun index above below => back.covers index above (by omega)⟩
  split
  · have loop : Fills (columnCount / 8 * 8 + 8) 0 _ (storeLoop 16 ((columnCount - 8) / 8 * 8) _ 0 _) :=
      store_loop_fills ((columnCount - 8) / 8 * 8) rfl ‹_› (by omega) (by omega)
    simpa using loop
  · exact fills_nothing (by omega)

theorem init_stores_fill (path : InitPath) (columnCount : Nat) :
    Fills (columnCount / 8 * 8 + 8) 0 (columnCount + 1) (initStores path columnCount) := by
  have eight : Fills (columnCount / 8 * 8 + 8) 0 (columnCount + 1) (storeEight columnCount) := by
    have loop : Fills (columnCount / 8 * 8 + 8) 0 (columnCount + 1) (storeLoop 8 _ (columnCount + 1) 0 _) :=
      store_loop_fills (columnCount + 1) rfl (by omega) (by omega) (by omega)
    simpa [storeEight] using loop
  cases path with
  | avx2 =>
    rw [initStores]
    split
    · exact store_sixteen_fills columnCount ‹_›
    · exact eight
  | sse2 => exact eight
  | neon => exact eight

theorem init_fills_row (path : InitPath) {columnCount : UInt16} (buffers : RowBuffers columnCount) :
    ∃ chars charOffsets, init path buffers = some (chars, charOffsets) ∧
      (∀ column < columnCount.toNat, chars[column]? = some 0x20) ∧
      ∀ column ≤ columnCount.toNat, charOffsets[column]?.map UInt16.toNat = some column := by
  have fills := init_stores_fill path columnCount.toNat
  have charsSize := buffers.charsSize
  have offsetsSize := buffers.charOffsetsSize
  rw [calculateCharsBufferSize] at charsSize
  rw [calculateCharOffsetsBufferSize] at offsetsSize
  have small := columnCount.toNat_lt
  obtain ⟨chars, charsRan, spaces⟩ := stores_fill (fun store => replicate store.offsets.length 0x20) (fun _ => 0x20)
    (fun store _ => by simp) (fun store member => (fills.inside store member).trans (by omega : _ ≤ buffers.chars.length))
  obtain ⟨charOffsets, offsetsRan, counted⟩ := stores_fill VectorStore.offsets UInt16.ofNat fills.counts
    (fun store member => (fills.inside store member).trans (by omega : _ ≤ buffers.charOffsets.length))
  refine ⟨chars, charOffsets, by simp [init, charsRan, offsetsRan], fun column inside => ?_, fun column inside => ?_⟩
  · exact spaces column (.inr (fills.covers column (Nat.zero_le _) (by omega)))
  · rw [counted column (.inr (fills.covers column (Nat.zero_le _) (by omega)))]
    simp
    omega

def uninitializedBuffers : RowBuffers 2 := ⟨replicate 8 0xCDCD, replicate 8 0xCDCD, rfl, rfl⟩

theorem init_fills_two_columns :
    ∃ chars charOffsets, init .sse2 uninitializedBuffers = some (chars, charOffsets) ∧
      (∀ column < 2, chars[column]? = some 0x20) ∧ ∀ column ≤ 2, charOffsets[column]?.map UInt16.toNat = some column :=
  init_fills_row .sse2 uninitializedBuffers

end Cogterm.Buffer
