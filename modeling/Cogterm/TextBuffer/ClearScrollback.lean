import Cogterm.TextBuffer.Ready

namespace Cogterm.Buffer

open Library Til Function Int Nat TextBuffer

variable {buffer : TextBuffer} {width : Nat}

section

variable {env : Environment} (plenty : ∀ size, size ≤ 0xFFFF → (env.heap.allocate size).isSome)

include plenty in
theorem copy_row_step (ready : Ready buffer) {src : Int} (dst : Int)
    (unpadded : buffer.storageIndex src ≠ buffer.storageIndex dst → (buffer.getRow src).doubleBytePadded = false) :
    ∃ row, buffer.copyRow env src dst = ((buffer.setRow dst row).commit (buffer.storageIndex src + 1), some ()) ∧
      row.trimmed = (buffer.getRow src).trimmed ∧ row.Plain buffer.width := by
  have plain := ready.rows (buffer.storageIndex dst)
  rw [copyRow]
  by_cases same : buffer.storageIndex src = buffer.storageIndex dst
  · have copied := copy_from_self env buffer.width ready.wide (buffer.getRow dst) plain
    refine ⟨buffer.getRow dst, ?_, ?_, plain⟩
    · simp [if_pos same, copied]
    · simp [getRow, same]
  · obtain ⟨row, copied, trimmed, copyPlain⟩ := copy_from_trimmed env plenty buffer.width ready.wide (buffer.getRow dst)
      (buffer.getRow src) plain (ready.rows _) (unpadded same)
    refine ⟨row, ?_, trimmed, copyPlain⟩
    simp [if_neg same, copied]

theorem trimmed_padded {row other : Row TextAttribute} (same : row.trimmed = other) :
    row.doubleBytePadded = other.doubleBytePadded := by
  rw [← same, Row.trimmed]

include plenty in
theorem scroll_loop_copies {size first : Nat} (inside : first < size) (store : Nat → Row TextAttribute) (start : Nat)
    (isFirst : first = start % size) (count done : Nat) (buffer : TextBuffer) (ready : Ready buffer) (zero : buffer.firstRow = 0)
    (height : buffer.height = size) (fits : done + count ≤ size)
    (unpadded : first ≠ 0 → ∀ index, index < done + count → (store (first + index % (size - first))).doubleBytePadded =
      false)
    (holds : ∀ index, (buffer.rows index).trimmed = copyDown (fun index => (first + index) % size) done store index) :
    ∃ watermark rows, scrollLoop env (-start) 1 count (start + done : Nat) buffer =
        ({ buffer with commitWatermark := watermark, rows := rows }, some ()) ∧
      Ready { buffer with commitWatermark := watermark, rows := rows } ∧
      ∀ index, (rows index).trimmed = copyDown (fun index => (first + index) % size) (done + count) store index := by
  induction count generalizing done buffer with
  | zero => exact ⟨_, _, rfl, ready, holds⟩
  | succ count ih =>
    have source : buffer.storageIndex (start + done : Nat) = (first + done) % size := by
      rw [storage_index_nat, zero, height, isFirst, mod_add_mod, zero_add]
    have shifted : ((start + done : Nat) : Int) + -start = done := by omega
    have target : buffer.storageIndex ((start + done : Nat) + -start) = done := by
      rw [shifted, storage_index_nat, zero, zero_add, mod_eq_of_lt (by omega)]
    have read : (buffer.getRow (start + done : Nat)).trimmed =
        copyDown (fun index => (first + index) % size) done store ((first + done) % size) := by
      rw [getRow, source]
      exact holds _
    have copiedLast := copy_down_circular inside (by omega) store done (lt_succ_self done)
    rw [copyDown, update_self, ← read] at copiedLast
    obtain ⟨row, copied, trimmed, rowPlain⟩ := copy_row_step plenty ready ((start + done : Nat) + -start) (fun apart => by
      rw [source, target] at apart
      have plain := unpadded (fun isZero => apart (by rw [isZero, zero_add, mod_eq_of_lt (by omega)])) done (by omega)
      rwa [← copiedLast] at plain)
    have nextReady := ready_commit (ready_set_row buffer ready ((start + done : Nat) + -start) row rowPlain)
      (buffer.storageIndex (start + done : Nat) + 1) (storage_index_lt buffer ready.height _)
    have nextHolds : ∀ index, ((buffer.setRow ((start + done : Nat) + -start) row).rows index).trimmed =
        copyDown (fun index => (first + index) % size) (done + 1) store index := by
      intro index
      rw [setRow, copyDown, ← read]
      simp only [target]
      by_cases same : index = done
      · simpa [same] using trimmed
      · simpa [update_of_ne same] using holds index
    have rest := ih (done + 1) _ nextReady zero height (by omega) (fun moved index small => unpadded moved index (by omega))
      nextHolds
    rw [add_right_comm done 1 count] at rest
    rw [scroll_loop_succ, copied]
    exact rest

def Visited (buffer : TextBuffer) (y : Int) (count index : Nat) : Prop :=
  ∃ step : Nat, step < count ∧ index = buffer.storageIndex (y + step)

theorem visited_succ (buffer : TextBuffer) (y : Int) (count index : Nat) :
    Visited buffer y (count + 1) index ↔ index = buffer.storageIndex y ∨ Visited buffer (y + 1) count index := by
  constructor
  · rintro ⟨step, small, isIndex⟩
    cases step with
    | zero => exact Or.inl (isIndex.trans (by simp))
    | succ step => exact Or.inr ⟨step, by omega, isIndex.trans (by simp [Int.add_assoc, Int.add_comm step])⟩
  · rintro (isFirst | ⟨step, small, isIndex⟩)
    · exact ⟨0, by omega, isFirst.trans (by simp)⟩
    · exact ⟨step + 1, by omega, isIndex.trans (by simp [Int.add_assoc, Int.add_comm step])⟩

theorem change_rows_rows (change : TextBuffer → Row TextAttribute → Row TextAttribute)
    (f : Row TextAttribute → Row TextAttribute)
    (twice : ∀ row, f (f row) = f row) (count : Nat) (y : Int) (buffer : TextBuffer) (ready : Ready buffer)
    (same : ∀ other : TextBuffer, other.initialAttributes = buffer.initialAttributes → change other = f)
    (plain : ∀ row : Row TextAttribute, row.Plain buffer.width → (f row).Plain buffer.width) : ∃ watermark rows,
      changeRows change count y buffer = { buffer with commitWatermark := watermark, rows := rows } ∧
      Ready { buffer with commitWatermark := watermark, rows := rows } ∧
      (∀ index, Visited buffer y count index → rows index = f (buffer.rows index)) ∧
      ∀ index, ¬ Visited buffer y count index → rows index = buffer.rows index := by
  induction count generalizing y buffer with
  | zero => exact ⟨_, _, rfl, ready, fun _ visited => absurd visited.choose_spec.1 (not_lt_zero _), fun _ _ => rfl⟩
  | succ count ih =>
    have changed : change buffer (buffer.getRow y) = f (buffer.getRow y) := by rw [same buffer rfl]
    have nextRows : (buffer.setRow y (f (buffer.getRow y))).rows =
        update buffer.rows (buffer.storageIndex y) (f (buffer.getRow y)) := rfl
    obtain ⟨watermark, rows, isNext, nextReady, visited, others⟩ := ih (y + 1) (buffer.setRow y (f (buffer.getRow y)))
      (ready_set_row buffer ready y _ (plain _ (ready.rows _))) same plain
    rw [nextRows] at visited others
    refine ⟨watermark, rows, ?_, nextReady, fun index isVisited => ?_, fun index isOther => ?_⟩
    · rw [changeRows, changed, isNext]
      rfl
    · by_cases again : Visited buffer (y + 1) count index
      · rw [visited index again]
        by_cases first : index = buffer.storageIndex y
        · rw [first, update_self, twice]
          rfl
        · rw [update_of_ne first]
      · have first := ((visited_succ buffer y count index).mp isVisited).resolve_right again
        rw [others index again, first, update_self]
        rfl
    · have apart := mt (visited_succ buffer y count index).mpr isOther
      rw [not_or] at apart
      rw [others index apart.2, update_of_ne apart.1]

theorem storage_index_ne {row : Nat} {other : Nat} (smaller : row < other) (inside : other < buffer.height) :
    buffer.storageIndex row ≠ buffer.storageIndex other := by
  intro same
  have equal : row ≡ other [MOD buffer.height] := Nat.ModEq.add_left_cancel' buffer.firstRow same
  have small := Nat.ModEq.eq_of_lt_of_lt equal (lt_trans smaller inside) inside
  omega

theorem plain_clear_marks {row : Row TextAttribute} (plain : row.Plain width) : row.clearMarks.Plain width :=
  { plain with sound := sound_frame _ plain.sound rfl rfl rfl }

theorem clear_marks_twice (row : Row TextAttribute) : row.clearMarks.clearMarks = row.clearMarks := by
  simp [Row.clearMarks]

theorem clear_marks_above (ready : Ready buffer) {n : Nat} (positive : 0 < n) (x : Int) : ∃ watermark rows,
      buffer.clearMarksInRange ⟨0, 0⟩ ⟨x, max 0 (n - 1)⟩ = { buffer with commitWatermark := watermark, rows := rows } ∧
      Ready { buffer with commitWatermark := watermark, rows := rows } ∧
      ∀ row : Nat, n ≤ row → row < buffer.height →
      rows (buffer.storageIndex row) = buffer.rows (buffer.storageIndex row) := by
  have top : clamp (min 0 (max 0 ((n : Int) - 1))) 0 (buffer.height - 1) = 0 := by
    have height := ready.height
    rw [clamp]
    split
    · omega
    · split <;> omega
  have bottom : clamp (max 0 (max 0 ((n : Int) - 1))) 0 buffer.estimateOffsetOfLastCommittedRow ≤ n - 1 := by
    rw [clamp]
    split
    · omega
    · split <;> omega
  obtain ⟨watermark, rows, cleared, clearedReady, _, others⟩ := change_rows_rows (fun _ => Row.clearMarks) Row.clearMarks
    clear_marks_twice (clamp (max 0 (max 0 ((n : Int) - 1))) 0 buffer.estimateOffsetOfLastCommittedRow + 1 - 0).toNat 0 buffer
    ready (fun _ _ => rfl) (fun row plain => plain_clear_marks plain)
  refine ⟨watermark, rows, ?_, clearedReady, fun row below inside => others _ ?_⟩
  · rw [clearMarksInRange]
    simp only [top]
    exact cleared
  · rintro ⟨step, small, isIndex⟩
    rw [zero_add] at isIndex
    exact storage_index_ne (by omega) inside isIndex.symm

theorem reset_rows_below (ready : Ready buffer) (zero : buffer.firstRow = 0) {k : Nat} (positive : 0 < k) : ∃ watermark rows,
      buffer.resetRowsFrom k = { buffer with commitWatermark := watermark, rows := rows } ∧
      (∀ row, row < k → rows row = buffer.rows row) ∧
      ∀ row, k ≤ row → row < buffer.height → rows row = Row.construct buffer.width buffer.initialAttributes := by
  have width : ∀ row : Row TextAttribute, row.Plain buffer.width →
      row.reset buffer.initialAttributes = Row.construct buffer.width buffer.initialAttributes :=
    fun row plain => reset_construct plain.columnCount
  obtain ⟨watermark, rows, isReset, resetReady, visited, others⟩ := change_rows_rows
    (fun buffer row => row.reset buffer.initialAttributes) (fun row => row.reset buffer.initialAttributes) (fun _ => rfl)
    (buffer.estimateOffsetOfLastCommittedRow + 1 - k).toNat k buffer ready (fun other same => by rw [same])
    (fun row plain => plain_reset ready.wide row (ready_narrow ready) plain.columnCount _)
  have bound := ready.bound
  have estimate : buffer.estimateOffsetOfLastCommittedRow = max 0 ((buffer.commitWatermark : Int) - 2) := rfl
  have place : ∀ row : Nat, row < buffer.height → buffer.storageIndex row = row := by
    intro row inside
    simp [storage_index_nat, zero, mod_eq_of_lt inside]
  refine ⟨watermark, rows, isReset, fun row above => others row ?_, fun row below inside => ?_⟩
  · rintro ⟨step, small, isIndex⟩
    rw [← natCast_add, place (k + step) (by omega)] at isIndex
    omega
  · by_cases isVisited : Visited buffer k (buffer.estimateOffsetOfLastCommittedRow + 1 - k).toNat row
    · rw [visited row isVisited]
      exact width _ (ready.rows row)
    · rw [others row isVisited]
      refine ready.fresh row inside ?_
      by_contra committed
      refine isVisited ⟨row - k, by omega, ?_⟩
      rw [← natCast_add, Nat.add_sub_cancel' below, place row inside]

end

structure Cleared (buffer cleared : TextBuffer) (n k : Nat) : Prop where
  kept : ∀ row : Nat, row < k → (cleared.getRow row).trimmed = (buffer.getRow (n + row : Nat)).trimmed
  blank : ∀ row : Nat, k ≤ row → row < buffer.height →
    (cleared.getRow row).trimmed = Row.construct buffer.width buffer.initialAttributes

def TextBuffer.rowsToEnd (buffer : TextBuffer) (y : Nat) : Nat := buffer.height - (buffer.firstRow + y) % buffer.height

-- Either the rows that stay do not reach the end of the storage, or they go on
-- with those that were there first.
def Clears (buffer : TextBuffer) (n k : Nat) : Prop :=
  if n = 0 then
    ∀ row : Nat, k ≤ row → row < buffer.height →
      (buffer.getRow row).trimmed = Row.construct buffer.width buffer.initialAttributes
  else
    ∀ row : Nat, row < k → (buffer.getRow (n + row % buffer.rowsToEnd n : Nat)).trimmed =
      (buffer.getRow (n + row : Nat)).trimmed

-- No row that is copied to another place has a padding column.
abbrev UnpaddedMoves (buffer : TextBuffer) (n k : Nat) : Prop :=
  ∀ row : Nat, row < k → buffer.storageIndex (n + row : Nat) ≠ row →
    (buffer.getRow (n + row : Nat)).doubleBytePadded = false

theorem construct_trimmed (narrow : width ≤ charOffsetsMask) (attributes : TextAttribute) :
    (Row.construct width attributes).trimmed = Row.construct width attributes := by
  have size := represented_char_size (blank_represents (Row.construct width attributes) narrow rfl rfl)
  rw [Row.trimmed, size]
  simp [Row.construct]

section

variable {env : Environment} (plenty : ∀ size, size ≤ 0xFFFF → (env.heap.allocate size).isSome)

include plenty in
theorem clear_scrollback_rows (ready : Ready buffer) {n k : Nat} (above : 0 < n) (some : 0 < k) (fits : n + k ≤ buffer.height)
    (unpadded : UnpaddedMoves buffer n k) :
    (∀ row : Nat, row < k → ((buffer.clearScrollback env n k).1.getRow row).trimmed =
      (buffer.getRow (n + row % buffer.rowsToEnd n : Nat)).trimmed) ∧ ∀ row : Nat, k ≤ row → row < buffer.height →
      (buffer.clearScrollback env n k).1.getRow row = Row.construct buffer.width buffer.initialAttributes := by
  obtain ⟨clearWatermark, clearRows, cleared, clearReady, stay⟩ := clear_marks_above ready above buffer.width
  have inside : (buffer.firstRow + n) % buffer.height < buffer.height := mod_lt _ ready.height
  have place : ∀ row, row < k → (buffer.firstRow + n) % buffer.height + row % buffer.rowsToEnd n =
      buffer.storageIndex (n + row % buffer.rowsToEnd n : Nat) := by
    intro row small
    have before : row % buffer.rowsToEnd n < buffer.rowsToEnd n := Nat.mod_lt _ (Nat.sub_pos_of_lt inside)
    rw [storage_index_nat, ← add_assoc, ← mod_add_mod (buffer.firstRow + n)]
    refine (mod_eq_of_lt ?_).symm
    rw [rowsToEnd] at before ⊢
    omega
  have stored : ∀ row, row < k → (clearRows ((buffer.firstRow + n) % buffer.height + row % buffer.rowsToEnd n)).trimmed =
      (buffer.getRow (n + row % buffer.rowsToEnd n : Nat)).trimmed := by
    intro row small
    have first := mod_le row (buffer.rowsToEnd n)
    rw [place row small, stay _ (by omega) (by omega)]
    rfl
  obtain ⟨watermark, rows, scrolled, scrollReady, copied⟩ := scroll_loop_copies plenty inside
    (fun index => (clearRows index).trimmed) (buffer.firstRow + n) rfl k 0
    { buffer with commitWatermark := clearWatermark, rows := clearRows, firstRow := 0 }
    { clearReady with } rfl rfl (by omega) (by
      intro moved row small
      have first := mod_le row (buffer.rowsToEnd n)
      have padded := unpadded (row % buffer.rowsToEnd n) (by omega) (by rw [← place row (by omega)]; omega)
      exact (trimmed_padded (stored row (by omega)).symm).symm.trans padded) (fun _ => rfl)
  obtain ⟨lastWatermark, finalRows, isReset, top, blank⟩ := reset_rows_below scrollReady rfl some
  have start : (buffer.firstRow : Int) + n = (buffer.firstRow + n : Nat) := by omega
  have result : (buffer.clearScrollback env n k).1 =
      { buffer with commitWatermark := lastWatermark, rows := finalRows, firstRow := 0 } := by
    rw [clearScrollback, if_neg (by omega), if_neg (by omega), cleared]
    simp only
    rw [scrollRows, if_neg (by omega), if_pos (by omega), start, toNat_natCast]
    rw [add_zero] at scrolled
    rw [scrolled]
    exact isReset
  have read : ∀ row : Nat, row < buffer.height → (buffer.clearScrollback env n k).1.getRow row = finalRows row := by
    intro row small
    rw [result, getRow, storage_index_nat]
    simp [mod_eq_of_lt small]
  constructor
  · intro row small
    rw [read row (by omega), top row small, copied row, zero_add, copy_down_circular inside (by omega) _ row small]
    exact stored row small
  · intro row below small
    rw [read row small]
    exact blank row below small

include plenty in
theorem cleared_iff (ready : Ready buffer) {n k : Nat} (fits : n + k ≤ buffer.height)
    (unpadded : 0 < n → UnpaddedMoves buffer n k) :
    Cleared buffer (buffer.clearScrollback env n k).1 n k ↔ Clears buffer n k := by
  have trimmed := construct_trimmed (ready_narrow ready) buffer.initialAttributes
  rw [Clears]
  by_cases top : n = 0
  · have same : (buffer.clearScrollback env n k).1 = buffer := by rw [clearScrollback, if_pos (by omega)]
    rw [same, top]
    exact ⟨fun cleared => cleared.blank, fun blank => ⟨fun row _ => by simp, blank⟩⟩
  · rw [if_neg top]
    by_cases none : k = 0
    · have decommitted : (buffer.clearScrollback env n k).1 = buffer.decommit := by
        rw [clearScrollback, if_neg (by omega), if_pos (by omega)]
      refine ⟨fun _ row small => absurd small (by omega),
        fun _ => ⟨fun row small => absurd small (by omega), fun row _ _ => ?_⟩⟩
      rw [decommitted]
      exact trimmed
    · obtain ⟨moved, blank⟩ := clear_scrollback_rows plenty ready (by omega) (by omega) fits (unpadded (by omega))
      constructor
      · intro cleared row small
        rw [← moved row small]
        exact cleared.kept row small
      · intro clears
        refine ⟨fun row small => (moved row small).trans (clears row small), fun row below small => ?_⟩
        rw [blank row below small]
        exact trimmed

end

theorem clear_scrollback_iff (env : Environment) (plenty : ∀ size, size ≤ 0xFFFF → (env.heap.allocate size).isSome)
    (width height : Nat) (narrow : max width 1 ≤ charOffsetsMask) (attributes : TextAttribute)
    (operations : List BufferOperation)
    (safe : BufferOperation.AllSafe env (TextBuffer.construct width height attributes) operations) (buffer : TextBuffer)
    (reached : buffer = BufferOperation.run env (TextBuffer.construct width height attributes) operations) (n k : Nat)
    (fits : n + k ≤ buffer.height) (unpadded : 0 < n → UnpaddedMoves buffer n k) :
    Cleared buffer (buffer.clearScrollback env n k).1 n k ↔ Clears buffer n k := by
  have ready := operations_ready _ (maintained_construct width height narrow attributes) (ready_construct narrow) safe
  rw [← reached] at ready
  exact cleared_iff plenty ready fits unpadded

def letterBelow : List BufferOperation := [.write (.replace 1 {} ⟨[0x61], 0, 2, 0, 0, 0⟩)]

theorem letter_below_safe : BufferOperation.AllSafe graphemeEnvironment (TextBuffer.construct 2 2 {}) letterBelow :=
  ⟨⟨Glyphs.spaces 2, blank_represents _ (by decide) rfl rfl, by decide +kernel, .inl (by decide +kernel)⟩, trivial⟩

theorem clear_scrollback_letter_below :
    Cleared (BufferOperation.run graphemeEnvironment (TextBuffer.construct 2 2 {}) letterBelow)
      ((BufferOperation.run graphemeEnvironment (TextBuffer.construct 2 2 {}) letterBelow).clearScrollback graphemeEnvironment
        (1 : Nat) (1 : Nat)).1 1 1 := by
  refine (clear_scrollback_iff graphemeEnvironment (fun _ _ => rfl) 2 2 (by decide) {} letterBelow letter_below_safe _ rfl 1 1
    (by decide +kernel) (by decide +kernel)).mpr ?_
  intro row small
  rw [lt_one_iff.mp small]
  rfl

def turnedLetters : TextBuffer :=
  BufferOperation.run graphemeEnvironment (TextBuffer.construct 1 3 {}) [.incrementCircularBuffer {},
    .write (.replace 1 {} ⟨[0x61], 0, 1, 0, 0, 0⟩), .write (.replace 2 {} ⟨[0x62], 0, 1, 0, 0, 0⟩)]

def paddedLetters : TextBuffer :=
  BufferOperation.run graphemeEnvironment (TextBuffer.construct 2 2 {})
    [.write (.replace 0 {} ⟨[0x78, 0x79], 0, 2, 0, 0, 0⟩), .write (.replace 1 {} ⟨[0x61, 0x4E00], 0, 2, 0, 0, 0⟩)]

-- In the first buffer the source begins anew behind its first row. In the second
-- one the row that stays has a padding column, which is not copied.
theorem clear_scrollback_repeats_row :
    ¬ Cleared turnedLetters (turnedLetters.clearScrollback graphemeEnvironment 1 2).1 1 2 ∧
      ¬ Cleared paddedLetters (paddedLetters.clearScrollback graphemeEnvironment 1 1).1 1 1 := by
  refine ⟨fun cleared => absurd (cleared.kept 1 (by decide)) ?_, fun cleared => absurd (cleared.kept 0 (by decide)) ?_⟩
  · decide +kernel
  · decide +kernel

end Cogterm.Buffer
