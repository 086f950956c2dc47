import Cogterm.TextBuffer.Ready
import Cogterm.TextBuffer.UTextWalk

namespace Cogterm.Buffer

open Library List Int
open Unicode (WChar isLeadingSurrogate isTrailingSurrogate isPair)

namespace TextBuffer

section

variable (buffer : TextBuffer) (rowBegin rowEnd : Int)

-- A call of utextAccess: an index from 0 to the length of the text, and a
-- direction.
abbrev AccessCall : Type := Fin ((buffer.rangeText rowBegin rowEnd).length + 1) × Bool

variable {buffer rowBegin rowEnd}

def AccessCall.index (call : buffer.AccessCall rowBegin rowEnd) : Nat := call.1.val

def AccessCall.needed (call : buffer.AccessCall rowBegin rowEnd) : Int :=
  if call.2 then (call.index : Int) else call.index - 1

variable (buffer rowBegin rowEnd)

def splitsPair (text : List WChar) (index : Nat) : Bool :=
  decide (0 < index) && isPair (text.getD (index - 1) 0) (text.getD index 0)

def access (ut : UText) (call : buffer.AccessCall rowBegin rowEnd) : UText × Bool :=
  buffer.utextAccess ut call.index call.2

structure AccessCorrect (ut : UText) (call : buffer.AccessCall rowBegin rowEnd) : Prop where
  ordered : 0 ≤ (buffer.access rowBegin rowEnd ut call).1.chunkNativeStart ∧
    (buffer.access rowBegin rowEnd ut call).1.chunkNativeStart ≤ (buffer.access rowBegin rowEnd ut call).1.chunkNativeLimit ∧
    (buffer.access rowBegin rowEnd ut call).1.chunkNativeLimit ≤ (buffer.rangeText rowBegin rowEnd).length
  contents : (buffer.access rowBegin rowEnd ut call).1.chunkContents =
    ((buffer.rangeText rowBegin rowEnd).drop (buffer.access rowBegin rowEnd ut call).1.chunkNativeStart.toNat).take
      ((buffer.access rowBegin rowEnd ut call).1.chunkNativeLimit -
        (buffer.access rowBegin rowEnd ut call).1.chunkNativeStart).toNat
  row : ∃ index < rowCount rowBegin rowEnd, (buffer.access rowBegin rowEnd ut call).1.currentRow = rowBegin + index ∧
    (buffer.access rowBegin rowEnd ut call).1.chunkNativeStart = buffer.chunkStart rowBegin index ∧
    (buffer.access rowBegin rowEnd ut call).1.chunkNativeLimit = buffer.chunkStart rowBegin (index + 1)
  position : (buffer.access rowBegin rowEnd ut call).1.chunkNativeStart + (buffer.access rowBegin rowEnd ut call).1.chunkOffset =
    if splitsPair (buffer.rangeText rowBegin rowEnd) call.index then (call.index : Int) - 1 else call.index
  found : (buffer.access rowBegin rowEnd ut call).2 = true ↔
    0 ≤ call.needed ∧ call.needed < (buffer.rangeText rowBegin rowEnd).length

-- A trailing surrogate is the second half of a pair exactly when it does not
-- stand at the start of a row.
def PairsInRows (index : Nat) : Prop :=
  0 < index → index < (buffer.rangeText rowBegin rowEnd).length →
    isTrailingSurrogate ((buffer.rangeText rowBegin rowEnd).getD index 0) = true →
    (isLeadingSurrogate ((buffer.rangeText rowBegin rowEnd).getD (index - 1) 0) = true ↔
      ∀ row ≤ rowCount rowBegin rowEnd, buffer.chunkStart rowBegin row ≠ index)

-- An access off either end comes from the row at that end.
structure Fits (ut : UText) (call : buffer.AccessCall rowBegin rowEnd) : Prop where
  filled : buffer.rangeText rowBegin rowEnd ≠ []
  atEnd : call.2 = true → call.index = (buffer.rangeText rowBegin rowEnd).length → ut.currentRow = rowEnd - 1
  atFront : call.2 = false → call.index = 0 → ut.currentRow = rowBegin
  pairs : buffer.PairsInRows rowBegin rowEnd call.index

variable {buffer rowBegin rowEnd} {ut : UText} {call : buffer.AccessCall rowBegin rowEnd} {row index : Nat}

theorem chunk_slice (inside : index < rowCount rowBegin rowEnd) :
    ((buffer.rangeText rowBegin rowEnd).drop (buffer.chunkStart rowBegin index)).take
      (buffer.chunkStart rowBegin (index + 1) - buffer.chunkStart rowBegin index) = buffer.rowChunk rowBegin index := by
  rw [chunkStart, chunkStart, start_succ, Nat.add_sub_cancel_left]
  exact joined_slice (buffer.rowChunk rowBegin) inside

variable (buffer) in
theorem chunk_within (inside : index < rowCount rowBegin rowEnd) :
    buffer.chunkStart rowBegin index ≤ buffer.chunkStart rowBegin (index + 1) ∧
      buffer.chunkStart rowBegin (index + 1) ≤ (buffer.rangeText rowBegin rowEnd).length :=
  ⟨start_mono _ _ _ (Nat.le_succ index), start_mono (buffer.rowChunk rowBegin) (index + 1) (rowCount rowBegin rowEnd) inside⟩

theorem chunk_unit (inside : row < rowCount rowBegin rowEnd) (lower : buffer.chunkStart rowBegin row ≤ index)
    (upper : index < buffer.chunkStart rowBegin (row + 1)) :
    (buffer.rowChunk rowBegin row).getD (index - buffer.chunkStart rowBegin row) 0 =
      (buffer.rangeText rowBegin rowEnd).getD index 0 := by
  have next : buffer.chunkStart rowBegin (row + 1) = buffer.chunkStart rowBegin row + (buffer.rowChunk rowBegin row).length :=
    start_succ _
  have same := joined_get (buffer.rowChunk rowBegin) (index - buffer.chunkStart rowBegin row) inside (by omega)
  have back : startOf (buffer.rowChunk rowBegin) row + (index - buffer.chunkStart rowBegin row) = index := by
    unfold chunkStart at lower ⊢
    omega
  rw [back] at same
  rw [getD_eq_getElem?_getD, ← same]
  rfl

theorem inside_row (inside : row < rowCount rowBegin rowEnd) (lower : buffer.chunkStart rowBegin row ≤ index)
    (upper : index ≤ buffer.chunkStart rowBegin (row + 1)) :
    (buffer.chunkStart rowBegin row < index ∧ index < buffer.chunkStart rowBegin (row + 1)) ↔
      ∀ other ≤ rowCount rowBegin rowEnd, buffer.chunkStart rowBegin other ≠ index := by
  constructor
  · rintro ⟨after, before⟩ other _ same
    rcases Nat.lt_or_ge row other with later | earlier
    · have order := start_mono (buffer.rowChunk rowBegin) (row + 1) other later
      unfold chunkStart at *
      omega
    · have order := start_mono (buffer.rowChunk rowBegin) other row earlier
      unfold chunkStart at *
      omega
  · intro apart
    have first := apart row (Nat.le_of_lt inside)
    have second := apart (row + 1) inside
    omega

theorem stands_contents (stands : buffer.Stands rowBegin rowEnd ut index) : ut.chunkContents =
      ((buffer.rangeText rowBegin rowEnd).drop ut.chunkNativeStart.toNat).take
      (ut.chunkNativeLimit - ut.chunkNativeStart).toNat := by
  rw [stands.contents, stands.start, stands.limit, ← chunk_slice stands.inside]
  congr 1
  omega

theorem access_stands (stands : buffer.Stands rowBegin rowEnd (accessChunk ut (buffer.accessWalk ut call.needed)) index) :
    buffer.Stands rowBegin rowEnd (buffer.access rowBegin rowEnd ut call).1 index :=
  { stands with }

theorem access_position (start : (buffer.accessWalk ut call.needed).start = buffer.chunkStart rowBegin row)
    (limit : (buffer.accessWalk ut call.needed).limit = buffer.chunkStart rowBegin (row + 1))
    (stands : buffer.Stands rowBegin rowEnd (accessChunk ut (buffer.accessWalk ut call.needed)) row)
    (lower : buffer.chunkStart rowBegin row ≤ call.index) (upper : call.index ≤ buffer.chunkStart rowBegin (row + 1)) :
    (buffer.access rowBegin rowEnd ut call).1.chunkNativeStart + (buffer.access rowBegin rowEnd ut call).1.chunkOffset =
      if (∀ other ≤ rowCount rowBegin rowEnd, buffer.chunkStart rowBegin other ≠ call.index) ∧
        isTrailingSurrogate ((buffer.rangeText rowBegin rowEnd).getD call.index 0) = true
      then (call.index : Int) - 1 else call.index := by
  have next : buffer.chunkStart rowBegin (row + 1) = buffer.chunkStart rowBegin row + (buffer.rowChunk rowBegin row).length :=
    start_succ _
  have isStart := (access_stands stands).start
  have clamped : clamp call.index (buffer.chunkStart rowBegin row) (buffer.chunkStart rowBegin (row + 1)) = call.index := by
    unfold clamp
    rw [if_neg (by omega), if_pos (by omega)]
  have isOffset : (buffer.access rowBegin rowEnd ut call).1.chunkOffset =
      accessOffset (buffer.rowChunk rowBegin row) ((call.index : Int) - buffer.chunkStart rowBegin row) := by
    have unfolded : (buffer.access rowBegin rowEnd ut call).1.chunkOffset =
        accessOffset (accessChunk ut (buffer.accessWalk ut call.needed)).chunkContents
          (clamp call.index (buffer.accessWalk ut call.needed).start (buffer.accessWalk ut call.needed).limit -
            (buffer.accessWalk ut call.needed).start) := rfl
    rw [unfolded, stands.contents, start, limit, clamped]
  rw [isOffset, accessOffset]
  have offset : ((call.index : Int) - buffer.chunkStart rowBegin row).toNat =
    call.index - buffer.chunkStart rowBegin row := by omega
  by_cases strictly : buffer.chunkStart rowBegin row < call.index ∧ call.index < buffer.chunkStart rowBegin (row + 1)
  · have unit := chunk_unit stands.inside lower strictly.2
    have apart := (inside_row stands.inside lower upper).mp strictly
    rw [offset, unit]
    by_cases trailing : isTrailingSurrogate ((buffer.rangeText rowBegin rowEnd).getD call.index 0) = true
    · rw [if_pos ⟨by omega, by omega, trailing⟩, if_pos ⟨apart, trailing⟩]
      omega
    · rw [if_neg (fun both => trailing both.2.2), if_neg (fun both => trailing both.2)]
      omega
  · have edge := mt (inside_row stands.inside lower upper).mpr strictly
    rw [if_neg (by omega), if_neg (fun both => edge both.1)]
    omega

theorem same_choice (P Q : Prop) [Decidable P] [Decidable Q] (value : Int) :
    ((if P then value - 1 else value) = if Q then value - 1 else value) ↔ (P ↔ Q) := by
  by_cases left : P <;> by_cases right : Q <;> grind

theorem position_iff_pairs (bound : index ≤ (buffer.rangeText rowBegin rowEnd).length) :
    ((if (∀ other ≤ rowCount rowBegin rowEnd, buffer.chunkStart rowBegin other ≠ index) ∧
        isTrailingSurrogate ((buffer.rangeText rowBegin rowEnd).getD index 0) = true then (index : Int) - 1 else index) =
      if splitsPair (buffer.rangeText rowBegin rowEnd) index then (index : Int) - 1 else index) ↔
    buffer.PairsInRows rowBegin rowEnd index := by
  have front : buffer.chunkStart rowBegin 0 = 0 := rfl
  have back : buffer.chunkStart rowBegin (rowCount rowBegin rowEnd) = (buffer.rangeText rowBegin rowEnd).length := rfl
  rw [same_choice, splitsPair, isPair]
  simp only [Bool.and_eq_true, decide_eq_true_eq]
  constructor
  · intro same inside _ trailing
    exact ⟨fun leading => (same.mpr ⟨inside, leading, trailing⟩).1, fun apart => (same.mp ⟨apart, trailing⟩).2.1⟩
  · intro pairs
    constructor
    · rintro ⟨apart, trailing⟩
      have inside : 0 < index := Nat.pos_of_ne_zero (fun zero => apart 0 (Nat.zero_le _) (by rw [front, zero]))
      have within : index < (buffer.rangeText rowBegin rowEnd).length :=
        Nat.lt_of_le_of_ne bound (fun last => apart _ (Nat.le_refl _) (by rw [back, last]))
      exact ⟨inside, (pairs inside within trailing).mpr apart, trailing⟩
    · rintro ⟨inside, leading, trailing⟩
      by_cases within : index < (buffer.rangeText rowBegin rowEnd).length
      · exact ⟨(pairs inside within trailing).mp leading, trailing⟩
      · rw [getD_eq_default _ _ (Nat.le_of_not_lt within)] at trailing
        exact absurd trailing (by decide)

theorem access_returns : (buffer.access rowBegin rowEnd ut call).2 = true ↔
      (buffer.accessWalk ut call.needed).start ≤ call.needed ∧ call.needed < (buffer.accessWalk ut call.needed).limit := by
  have unfolded : (buffer.access rowBegin rowEnd ut call).2 = decide
      (call.needed ≥ (buffer.accessWalk ut call.needed).start ∧ call.needed < (buffer.accessWalk ut call.needed).limit) := rfl
  simp [unfolded]

theorem correct_iff_pairs (start : (buffer.accessWalk ut call.needed).start = buffer.chunkStart rowBegin row)
    (limit : (buffer.accessWalk ut call.needed).limit = buffer.chunkStart rowBegin (row + 1))
    (stands : buffer.Stands rowBegin rowEnd (accessChunk ut (buffer.accessWalk ut call.needed)) row)
    (lower : buffer.chunkStart rowBegin row ≤ call.index) (upper : call.index ≤ buffer.chunkStart rowBegin (row + 1))
    (exists_iff : (buffer.chunkStart rowBegin row ≤ call.needed ∧ call.needed < buffer.chunkStart rowBegin (row + 1)) ↔
      0 ≤ call.needed ∧ call.needed < (buffer.rangeText rowBegin rowEnd).length) :
    buffer.AccessCorrect rowBegin rowEnd ut call ↔ buffer.PairsInRows rowBegin rowEnd call.index := by
  have after := access_stands stands
  have position := access_position start limit stands lower upper
  have pairs := position_iff_pairs (Nat.le_of_lt_succ call.1.isLt)
  have within := buffer.chunk_within stands.inside
  constructor
  · intro correct
    exact pairs.mp (position.symm.trans correct.position)
  · intro inRows
    refine ⟨?_, stands_contents after, ⟨row, after.inside, after.row, after.start, after.limit⟩,
      position.trans (pairs.mpr inRows), ?_⟩
    · rw [after.start, after.limit]
      omega
    · rw [access_returns, start, limit]
      exact exists_iff

theorem found_correct_iff (found : buffer.Found rowBegin rowEnd ut call.needed row) :
    buffer.AccessCorrect rowBegin rowEnd ut call ↔ buffer.PairsInRows rowBegin rowEnd call.index := by
  have reached := found.reached
  have before := found.before
  have within := buffer.chunk_within found.stands.inside
  have near : call.needed = call.index ∨ call.needed + 1 = call.index := by
    unfold AccessCall.needed
    cases call.2 <;> simp
  refine correct_iff_pairs found.start found.limit found.stands (by omega) (by omega) ?_
  exact ⟨fun _ => ⟨by omega, by omega⟩, fun _ => ⟨reached, before⟩⟩

theorem stands_filled (stands : buffer.Stands rowBegin rowEnd ut index) : buffer.rangeText rowBegin rowEnd ≠ [] := by
  have within := buffer.chunk_within stands.inside
  have filled := stands.filled
  exact ne_nil_of_length_pos (by omega)

-- What is known of an access that ends on a row's chunk.
variable (buffer rowBegin rowEnd) in
structure Settles (ut : UText) (call : buffer.AccessCall rowBegin rowEnd) : Prop where
  correct : buffer.AccessCorrect rowBegin rowEnd ut call ↔ buffer.PairsInRows rowBegin rowEnd call.index
  stands : ∃ row, buffer.Stands rowBegin rowEnd (buffer.access rowBegin rowEnd ut call).1 row
  atEnd : call.2 = true → call.index = (buffer.rangeText rowBegin rowEnd).length → ut.currentRow = rowEnd - 1
  atFront : call.2 = false → call.index = 0 → ut.currentRow = rowBegin

theorem found_settles (stands : buffer.Stands rowBegin rowEnd ut index) (lower : 0 ≤ call.needed)
    (upper : call.needed < (buffer.rangeText rowBegin rowEnd).length) : buffer.Settles rowBegin rowEnd ut call := by
  have isNeeded : call.needed = if call.2 then (call.index : Int) else call.index - 1 := rfl
  obtain ⟨row, found⟩ := walk_found stands lower upper
  refine ⟨found_correct_iff found, ⟨row, access_stands found.stands⟩, ?_, ?_⟩
  · intro forward last
    rw [forward, if_pos rfl] at isNeeded
    omega
  · intro backward first
    rw [backward, if_neg (by decide)] at isNeeded
    omega

theorem front_settles (stands : buffer.Stands rowBegin rowEnd ut index) (backward : call.2 = false) (first : call.index = 0) :
    (index = 0 ∧ buffer.Settles rowBegin rowEnd ut call) ∨
    (index ≠ 0 ∧ ¬ buffer.AccessCorrect rowBegin rowEnd ut call) := by
  have isNeeded : call.needed = -1 := by simp [AccessCall.needed, backward, first]
  rcases walk_off_front stands (show call.needed < 0 by omega) with ⟨here, start, limit, chunk⟩ | ⟨later, row⟩
  · have same := stands
    rw [← chunk] at same
    subst here
    refine Or.inl ⟨rfl, ?_, ⟨0, access_stands same⟩, ?_, fun _ _ => by simpa using stands.row⟩
    · exact correct_iff_pairs (by rw [start, stands.start]) (by rw [limit, stands.limit]) same
        (by simp [chunkStart]) (by omega) ⟨fun both => by omega, fun both => by omega⟩
    · intro forward
      rw [backward] at forward
      cases forward
  · refine Or.inr ⟨later, fun correct => ?_⟩
    obtain ⟨other, _, isOther, _⟩ := correct.row
    have moved : (buffer.access rowBegin rowEnd ut call).1.currentRow = rowBegin - 1 := row
    omega

theorem end_splits_nothing (text : List WChar) : splitsPair text text.length = false := by
  have none : isTrailingSurrogate (text.getD text.length 0) = false := by
    rw [getD_eq_default _ _ (Nat.le_refl _)]
    decide
  rw [splitsPair, isPair, none, Bool.and_false, Bool.and_false]

theorem end_settles (stands : buffer.Stands rowBegin rowEnd ut index) (forward : call.2 = true)
    (last : call.index = (buffer.rangeText rowBegin rowEnd).length) :
    (index + 1 = rowCount rowBegin rowEnd ∧ buffer.Settles rowBegin rowEnd ut call) ∨
      (index + 1 ≠ rowCount rowBegin rowEnd ∧ ¬ buffer.AccessCorrect rowBegin rowEnd ut call) := by
  have isRow := stands.row
  have filled := stands.filled
  have within := buffer.chunk_within stands.inside
  have isNeeded : call.needed = (buffer.rangeText rowBegin rowEnd).length := by simp [AccessCall.needed, forward, last]
  rcases walk_off_end stands (le_of_eq isNeeded.symm) with ⟨here, start, limit, chunk⟩ | ⟨earlier, failed⟩
  · have same := stands
    rw [← chunk] at same
    have ends : buffer.chunkStart rowBegin (index + 1) = (buffer.rangeText rowBegin rowEnd).length := by rw [here]; rfl
    refine Or.inl ⟨here, ?_, ⟨index, access_stands same⟩, fun _ _ => ?_, ?_⟩
    · exact correct_iff_pairs (by rw [start, stands.start]) (by rw [limit, stands.limit]) same
        (by omega) (by omega) ⟨fun both => by omega, fun both => by omega⟩
    · unfold rowCount at here
      omega
    · intro backward
      rw [forward] at backward
      cases backward
  · refine Or.inr ⟨earlier, fun correct => ?_⟩
    rcases failed with row | ⟨chunk, start, limit⟩
    · obtain ⟨other, below, isOther, _⟩ := correct.row
      have moved : rowEnd ≤ (buffer.access rowBegin rowEnd ut call).1.currentRow := row
      unfold rowCount at below
      omega
    · -- The offset is one in the empty row that the walk ended on, the chunk still the old one.
      have position := correct.position
      have unfolded : (buffer.access rowBegin rowEnd ut call).1.chunkNativeStart =
          (accessChunk ut (buffer.accessWalk ut call.needed)).chunkNativeStart := rfl
      have isOffset : (buffer.access rowBegin rowEnd ut call).1.chunkOffset =
          accessOffset (accessChunk ut (buffer.accessWalk ut call.needed)).chunkContents
            (clamp call.index (buffer.accessWalk ut call.needed).start (buffer.accessWalk ut call.needed).limit -
              (buffer.accessWalk ut call.needed).start) := rfl
      have zero : clamp call.index ut.chunkNativeLimit ut.chunkNativeLimit - ut.chunkNativeLimit = 0 := by
        unfold clamp
        grind
      rw [unfolded, isOffset, chunk, start, limit, zero, accessOffset, if_neg (by omega), stands.start, last,
        end_splits_nothing, if_neg (by decide)] at position
      omega

theorem access_step (stands : buffer.Stands rowBegin rowEnd ut index) : (buffer.Settles rowBegin rowEnd ut call ∧
      (buffer.AccessCorrect rowBegin rowEnd ut call ↔ buffer.Fits rowBegin rowEnd ut call)) ∨
    (¬ buffer.AccessCorrect rowBegin rowEnd ut call ∧ ¬ buffer.Fits rowBegin rowEnd ut call) := by
  have isRow := stands.row
  have bound : call.index ≤ (buffer.rangeText rowBegin rowEnd).length := Nat.le_of_lt_succ call.1.isLt
  have settled : buffer.Settles rowBegin rowEnd ut call → (buffer.Settles rowBegin rowEnd ut call ∧
        (buffer.AccessCorrect rowBegin rowEnd ut call ↔ buffer.Fits rowBegin rowEnd ut call)) := by
    intro settles
    refine ⟨settles, settles.correct.trans ⟨fun pairs => ?_, Fits.pairs⟩⟩
    exact ⟨stands_filled stands, settles.atEnd, settles.atFront, pairs⟩
  cases direction : call.2 with
  | false =>
    have isNeeded : call.needed = call.index - 1 := by simp [AccessCall.needed, direction]
    by_cases first : call.index = 0
    · rcases front_settles stands direction first with ⟨_, settles⟩ | ⟨later, wrong⟩
      · exact Or.inl (settled settles)
      · refine Or.inr ⟨wrong, fun fits => ?_⟩
        have here := fits.atFront direction first
        omega
    · exact Or.inl (settled (found_settles stands (by omega) (by omega)))
  | true =>
    have isNeeded : call.needed = call.index := by simp [AccessCall.needed, direction]
    by_cases last : call.index = (buffer.rangeText rowBegin rowEnd).length
    · rcases end_settles stands direction last with ⟨_, settles⟩ | ⟨earlier, wrong⟩
      · exact Or.inl (settled settles)
      · refine Or.inr ⟨wrong, fun fits => ?_⟩
        have here := fits.atEnd direction last
        unfold rowCount at earlier
        omega
    · exact Or.inl (settled (found_settles stands (by omega) (by omega)))

-- The state before the first access, and that of a range without any text.
variable (rowBegin rowEnd) in
structure Blank (ut : UText) : Prop where
  begins : ut.rowBegin = rowBegin
  ends : ut.rowEnd = rowEnd
  row : ut.currentRow = rowBegin - 1
  start : ut.chunkNativeStart = 0
  limit : ut.chunkNativeLimit = 0

variable (buffer) in
theorem blank_walk (blank : Blank rowBegin rowEnd ut) (front : 0 ≤ neededIndex) :
    buffer.WalkedOn rowBegin rowEnd neededIndex 0 (oldWalk ut) (buffer.accessWalk ut neededIndex) :=
  access_walk_on blank.ends (Nat.zero_le _) (by simp [blank.row]) blank.limit (by rw [blank.start, blank.limit]) front

theorem blank_found (blank : Blank rowBegin rowEnd ut) (filled : buffer.rangeText rowBegin rowEnd ≠ []) :
    ∃ row, buffer.Stands rowBegin rowEnd (accessChunk ut (buffer.accessWalk ut 0)) row := by
  have some := length_pos_iff.mpr filled
  rcases buffer.blank_walk blank (le_refl 0) with ⟨_, found, _, inside, reached, before, result⟩ | ⟨off, _⟩
  · refine ⟨found, (row_walk_found blank.begins blank.ends inside reached before result ?_).stands⟩
    rw [blank.limit]
    omega
  · omega

theorem blank_stays (neededIndex : Int) (blank : Blank rowBegin rowEnd ut) (empty : buffer.rangeText rowBegin rowEnd = []) :
    accessChunk ut (buffer.accessWalk ut neededIndex) = ut := by
  have isRow := blank.row
  have same : (buffer.accessWalk ut neededIndex).limit = ut.chunkNativeLimit := by
    by_cases front : neededIndex < 0
    · rw [accessWalk, if_pos (by rw [blank.start]; exact front), walkBackward,
        if_pos (by rw [blank.begins]; simp only [isRow]; omega)]
    have length : buffer.chunkStart rowBegin (rowCount rowBegin rowEnd) = 0 := congrArg List.length empty
    rcases buffer.blank_walk blank (not_lt.mp front) with ⟨inside, _⟩ | ⟨_, y, _, result⟩
    · rw [empty, length_nil] at inside
      omega
    rw [result]
    by_cases none : 0 = rowCount rowBegin rowEnd
    · rw [if_pos none]
      rfl
    have last : rowCount rowBegin rowEnd - 1 + 1 = rowCount rowBegin rowEnd := by omega
    rw [if_neg none, blank.limit]
    simp only [rowWalk]
    rw [last, length]
    rfl
  rw [accessChunk, if_neg (by simpa using same)]

theorem blank_wrong (blank : Blank rowBegin rowEnd ut)
    (empty : buffer.rangeText rowBegin rowEnd = []) : ¬ buffer.AccessCorrect rowBegin rowEnd ut call := by
  intro correct
  obtain ⟨row, _, isRow, _⟩ := correct.row
  have unfolded : (buffer.access rowBegin rowEnd ut call).1.currentRow =
      (accessChunk ut (buffer.accessWalk ut call.needed)).currentRow := rfl
  rw [unfolded, blank_stays call.needed blank empty, blank.row] at isRow
  omega

theorem initial_blank : Blank rowBegin rowEnd ⟨rowBegin, rowEnd, rowBegin - 1, 0, 0, [], 0⟩ :=
  ⟨rfl, rfl, rfl, rfl, rfl⟩

theorem adapter_stands (filled : buffer.rangeText rowBegin rowEnd ≠ []) :
    ∃ row, buffer.Stands rowBegin rowEnd (buffer.utextFromTextBuffer rowBegin rowEnd) row := by
  obtain ⟨row, stands⟩ := blank_found initial_blank filled
  exact ⟨row, { stands with }⟩

theorem adapter_blank (empty : buffer.rangeText rowBegin rowEnd = []) :
    Blank rowBegin rowEnd (buffer.utextFromTextBuffer rowBegin rowEnd) := by
  have stays := blank_stays 0 initial_blank empty
  exact ⟨congrArg UText.rowBegin stays, congrArg UText.rowEnd stays, congrArg UText.currentRow stays,
    congrArg UText.chunkNativeStart stays, congrArg UText.chunkNativeLimit stays⟩

variable (buffer rowBegin rowEnd)

theorem accesses_correct_iff (calls : List (buffer.AccessCall rowBegin rowEnd)) :
    EveryStep (fun ut call => (buffer.access rowBegin rowEnd ut call).1) (buffer.utextFromTextBuffer rowBegin rowEnd) calls
      (buffer.AccessCorrect rowBegin rowEnd) ↔
    EveryStep (fun ut call => (buffer.access rowBegin rowEnd ut call).1) (buffer.utextFromTextBuffer rowBegin rowEnd) calls
      (buffer.Fits rowBegin rowEnd) := by
  by_cases empty : buffer.rangeText rowBegin rowEnd = []
  · refine every_step_iff _ _ calls (Blank rowBegin rowEnd) _ _ (adapter_blank empty) ?_ ?_
    · intro ut call blank
      exact ⟨fun correct => absurd correct (blank_wrong blank empty), fun fits => absurd empty fits.filled⟩
    · intro ut call _ fits
      exact absurd empty fits.filled
  · refine every_step_iff _ _ calls (fun ut => ∃ row, buffer.Stands rowBegin rowEnd ut row) _ _
      (adapter_stands empty) ?_ ?_
    · rintro ut call ⟨row, stands⟩
      rcases access_step stands with ⟨_, same⟩ | ⟨wrong, unfit⟩
      · exact same
      · exact ⟨fun correct => absurd correct wrong, fun fits => absurd fits unfit⟩
    · rintro ut call ⟨row, stands⟩ fits
      rcases access_step stands with ⟨settles, _⟩ | ⟨_, unfit⟩
      · exact settles.stands
      · exact absurd fits unfit

end

def threeRows : TextBuffer :=
  BufferOperation.run graphemeEnvironment (TextBuffer.construct 1 3 {})
    [.write (.replace 0 {} ⟨[0x61], 0, 1, 0, 0, 0⟩), .write (.replace 1 {} ⟨[0x62], 0, 1, 0, 0, 0⟩),
      .write (.replace 2 {} ⟨[0x63], 0, 1, 0, 0, 0⟩)]

-- The access to the end leaves row 3 as the current one, and the access to the
-- second row then shows the third.
theorem access_past_end_shifts : threeRows.rangeText 0 3 = [0x61, 0x0A, 0x62, 0x0A, 0x63, 0x0A] ∧
    ¬ EveryStep (fun ut call => (threeRows.access 0 3 ut call).1) (threeRows.utextFromTextBuffer 0 3)
      [(6, true), (2, true)] (threeRows.AccessCorrect 0 3) ∧
    (threeRows.utextAccess (threeRows.utextAccess (threeRows.utextFromTextBuffer 0 3) 6 true).1 2 true).1 =
      ⟨0, 3, 2, 2, 4, [0x63, 0x0A], 0⟩ := by
  refine ⟨by decide +kernel, fun every => ?_, by decide +kernel⟩
  obtain ⟨row, inside, isRow, _⟩ := (every 0 _ rfl).row
  have three : (threeRows.access 0 3 (threeRows.utextFromTextBuffer 0 3) (6, true)).1.currentRow = 3 := by decide +kernel
  have below : row < 3 := inside
  have same := three.symm.trans isRow
  omega

end TextBuffer

end Cogterm.Buffer
