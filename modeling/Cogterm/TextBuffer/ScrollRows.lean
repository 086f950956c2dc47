import Cogterm.TextBuffer.ReflowSteps
import Mathlib.Tactic.Ring

namespace Cogterm.Buffer

namespace TextBuffer

-- ScrollRows for any way to copy a row.
def scrollLoopBy (copy : TextBuffer → Int → Int → TextBuffer × Option Unit) (delta step : Int) :
    Nat → Int → TextBuffer → TextBuffer × Option Unit
  | 0, _, buffer => (buffer, some ())
  | count + 1, y, buffer =>
    let copied := copy buffer y (y + delta)
    match copied.2 with
    | none => (copied.1, none)
    | some _ => scrollLoopBy copy delta step count (y + step) copied.1

def scrollRowsBy (copy : TextBuffer → Int → Int → TextBuffer × Option Unit) (buffer : TextBuffer)
    (firstRow size delta : Int) : TextBuffer × Option Unit :=
  if delta = 0 then (buffer, some ())
  else if delta < 0 then scrollLoopBy copy delta 1 size.toNat firstRow buffer
  else scrollLoopBy copy delta (-1) size.toNat (firstRow + size - 1) buffer

-- CopyRow as an assignment. Both rows are committed.
def assignRow (buffer : TextBuffer) (srcRowIndex dstRowIndex : Int) : TextBuffer × Option Unit :=
  ((buffer.setRow dstRowIndex (buffer.getRow srcRowIndex)).commit (buffer.storageIndex srcRowIndex + 1), some ())

end TextBuffer

open TextBuffer Int Nat

theorem scroll_loop_by_copy (env : Environment) (delta step : Int) (count : Nat) (y : Int) (buffer : TextBuffer) :
    scrollLoop env delta step count y buffer = scrollLoopBy (copyRow env) delta step count y buffer := by
  induction count generalizing y buffer with
  | zero => rfl
  | succ count ih =>
    rw [scroll_loop_succ, scrollLoopBy]
    cases (copyRow env buffer y (y + delta)).2 with
    | none => rfl
    | some _ => exact ih _ _

theorem scroll_rows_by_copy (env : Environment) (buffer : TextBuffer) (firstRow size delta : Int) :
    scrollRows env buffer firstRow size delta = scrollRowsBy (copyRow env) buffer firstRow size delta := by
  simp [scrollRows, scrollRowsBy, scroll_loop_by_copy]

variable {buffer : TextBuffer}

theorem storage_index_injective {y other : Int} (low : 0 ≤ y) (high : y < buffer.height) (otherLow : 0 ≤ other)
    (otherHigh : other < buffer.height) (same : buffer.storageIndex y = buffer.storageIndex other) : y = other := by
  rw [storageIndex, storageIndex] at same
  have positive : (0 : Int) < buffer.height := by omega
  have left := emod_nonneg (buffer.firstRow + y) (ne_of_gt positive)
  have right := emod_nonneg (buffer.firstRow + other) (ne_of_gt positive)
  have equal : (buffer.firstRow + y) % buffer.height = (buffer.firstRow + other) % buffer.height := by omega
  have congruent := emod_add_cancel_left.mp equal
  rw [emod_eq_of_lt low high, emod_eq_of_lt otherLow otherHigh] at congruent
  exact congruent

theorem assign_row_gets (source : Int) {target y : Int} (low : 0 ≤ y) (high : y < buffer.height) (targetLow : 0 ≤ target)
    (targetHigh : target < buffer.height) :
    (buffer.assignRow source target).1.getRow y = if y = target then buffer.getRow source else buffer.getRow y := by
  have uncommitted : (buffer.assignRow source target).1.getRow y = (buffer.setRow target (buffer.getRow source)).getRow y := rfl
  rw [uncommitted]
  by_cases same : y = target
  · simp [same, get_set_row]
  · rw [if_neg same, get_set_other]
    exact fun shared => same (storage_index_injective low high targetLow targetHigh shared)

theorem scroll_loop_assigns {delta step : Int} (apart : ∀ k : Nat, 0 < k → k * step ≠ delta) (count : Nat) (y : Int)
    (buffer : TextBuffer) (inside : ∀ k : Nat, k < count → 0 ≤ y + k * step + delta ∧
      y + k * step + delta < buffer.height)
    (sources : ∀ k : Nat, k < count → 0 ≤ y + k * step ∧ y + k * step < buffer.height) :
    (scrollLoopBy assignRow delta step count y buffer).2 = some () ∧ ∀ row : Int, 0 ≤ row → row < buffer.height →
        ((∃ k : Nat, k < count ∧ row = y + k * step + delta) →
            (scrollLoopBy assignRow delta step count y buffer).1.getRow row = buffer.getRow (row - delta)) ∧
          ((∀ k : Nat, k < count → row ≠ y + k * step + delta) →
            (scrollLoopBy assignRow delta step count y buffer).1.getRow row = buffer.getRow row) := by
  induction count generalizing y buffer with
  | zero => exact ⟨rfl, fun row _ _ => ⟨fun found => absurd found.choose_spec.1 (not_lt_zero _), fun _ => rfl⟩⟩
  | succ count ih =>
    have moved (k : Nat) : y + step + k * step = y + (k + 1 : Nat) * step := by
      push_cast
      ring
    have first := inside 0 (succ_pos count)
    rw [Nat.cast_zero, zero_mul, add_zero] at first
    obtain ⟨ends, rows⟩ := ih (y + step) (buffer.assignRow y (y + delta)).1
      (fun k before => by rw [moved]; exact inside (k + 1) (succ_lt_succ before))
      (fun k before => by rw [moved]; exact sources (k + 1) (succ_lt_succ before))
    have unfolded : scrollLoopBy assignRow delta step (count + 1) y buffer =
        scrollLoopBy assignRow delta step count (y + step) (buffer.assignRow y (y + delta)).1 := rfl
    rw [unfolded]
    refine ⟨ends, ?_⟩
    intro row low high
    have gets (other : Int) (low : 0 ≤ other) (high : other < buffer.height) :=
      assign_row_gets y low high first.1 first.2
    refine ⟨?_, ?_⟩
    · rintro ⟨k, before, isRow⟩
      by_cases later : ∃ k : Nat, k < count ∧ row = y + step + k * step + delta
      · obtain ⟨k, before, isRow⟩ := later
        have source := sources (k + 1) (succ_lt_succ before)
        rw [moved] at isRow
        have isSource : row - delta = y + (k + 1 : Nat) * step := by omega
        have unwritten : y + (k + 1 : Nat) * step ≠ y + delta := by
          intro same
          exact apart (k + 1) (succ_pos k) (by omega)
        rw [(rows row low high).1 ⟨k, before, by rw [moved]; exact isRow⟩, isSource, gets _ source.1 source.2,
          if_neg unwritten]
      · have notLater : ∀ k : Nat, k < count → row ≠ y + step + k * step + delta :=
          fun k before isRow => later ⟨k, before, isRow⟩
        have isFirst : k = 0 := by
          cases k with
          | zero => rfl
          | succ k => exact absurd (by rw [moved]; exact isRow) (notLater k (lt_of_succ_lt_succ before))
        rw [isFirst, Nat.cast_zero, zero_mul, add_zero] at isRow
        rw [(rows row low high).2 notLater, gets row low high, if_pos isRow, isRow, add_sub_cancel_right]
    · intro outside
      have notFirst := outside 0 (succ_pos count)
      rw [Nat.cast_zero, zero_mul, add_zero] at notFirst
      simp [(rows row low high).2 (fun k before => by rw [moved]; exact outside (k + 1) (succ_lt_succ before)),
        gets row low high, if_neg notFirst]

theorem scroll_rows_assigns (buffer : TextBuffer) (firstRow size delta : Int)
    (sources : ∀ y, firstRow ≤ y → y < firstRow + size → 0 ≤ y ∧ y < buffer.height)
    (targets : ∀ y, firstRow ≤ y → y < firstRow + size → 0 ≤ y + delta ∧ y + delta < buffer.height) :
    (scrollRowsBy assignRow buffer firstRow size delta).2 = some () ∧ ∀ y : Int, 0 ≤ y → y < buffer.height →
        (scrollRowsBy assignRow buffer firstRow size delta).1.getRow y =
          if firstRow + delta ≤ y ∧ y < firstRow + size + delta then buffer.getRow (y - delta) else buffer.getRow y := by
  rw [scrollRowsBy]
  by_cases still : delta = 0
  · rw [if_pos still]
    refine ⟨rfl, fun y _ _ => ?_⟩
    simp [still]
  rw [if_neg still]
  by_cases up : delta < 0
  · rw [if_pos up]
    have apart : ∀ k : Nat, 0 < k → k * (1 : Int) ≠ delta := by
      intro k positive
      omega
    obtain ⟨ends, rows⟩ := scroll_loop_assigns apart size.toNat firstRow buffer
      (fun k before => targets _ (by omega) (by omega)) (fun k before => sources _ (by omega) (by omega))
    refine ⟨ends, fun y low high => ?_⟩
    by_cases target : firstRow + delta ≤ y ∧ y < firstRow + size + delta
    · rw [if_pos target]
      exact (rows y low high).1 ⟨(y - delta - firstRow).toNat, by omega, by omega⟩
    · rw [if_neg target]
      exact (rows y low high).2 (fun k before isRow => target (by omega))
  · rw [if_neg up]
    have apart : ∀ k : Nat, 0 < k → k * (-1 : Int) ≠ delta := by
      intro k positive
      omega
    obtain ⟨ends, rows⟩ := scroll_loop_assigns apart size.toNat (firstRow + size - 1) buffer
      (fun k before => targets _ (by omega) (by omega)) (fun k before => sources _ (by omega) (by omega))
    refine ⟨ends, fun y low high => ?_⟩
    by_cases target : firstRow + delta ≤ y ∧ y < firstRow + size + delta
    · rw [if_pos target]
      exact (rows y low high).1 ⟨(firstRow + size - 1 - (y - delta)).toNat, by omega, by omega⟩
    · rw [if_neg target]
      exact (rows y low high).2 (fun k before isRow => target (by omega))

def letteredRows : TextBuffer :=
  { TextBuffer.construct 4 6 default with
    firstRow := 5
    rows := fun index =>
      ((Row.construct 4 default).replaceText graphemeEnvironment ⟨[.ofNat (0x61 + index)], 0, 4, 0, 0, 0⟩).1 }

-- Rows 1 to 3 of a buffer that begins at its last row go down by one.
theorem scroll_rows_assigns_down : (scrollRowsBy assignRow letteredRows 1 3 1).2 = some () ∧
    ∀ y : Int, 0 ≤ y → y < letteredRows.height → (scrollRowsBy assignRow letteredRows 1 3 1).1.getRow y =
      if 1 + 1 ≤ y ∧ y < 1 + 3 + 1 then letteredRows.getRow (y - 1) else letteredRows.getRow y := by
  have height : letteredRows.height = 6 := rfl
  exact scroll_rows_assigns letteredRows 1 3 1 (fun y low high => by omega) (fun y low high => by omega)

end Cogterm.Buffer
