import Mathlib.Data.List.Basic

namespace Cogterm.Library

open List

variable {index count : Nat}

variable {α : Type} (pieces : Nat → List α)

def joined (count : Nat) : List α := (List.range count).flatMap pieces

def startOf (index : Nat) : Nat := (joined pieces index).length

theorem joined_succ (count : Nat) : joined pieces (count + 1) = joined pieces count ++ pieces count := by
  simp [joined, range_succ]

theorem start_succ : startOf pieces (index + 1) = startOf pieces index + (pieces index).length := by
  simp [joined_succ, startOf]

@[simp] theorem start_zero : startOf pieces 0 = 0 := rfl

theorem joined_leads (order : index ≤ count) : ∃ rest, joined pieces count = joined pieces index ++ rest := by
  induction order with
  | refl => exact ⟨[], (append_nil _).symm⟩
  | @step count _ ih =>
    obtain ⟨rest, isJoined⟩ := ih
    exact ⟨rest ++ pieces count, by simp [joined_succ, isJoined]⟩

theorem start_mono (index count : Nat) (order : index ≤ count) : startOf pieces index ≤ startOf pieces count := by
  obtain ⟨rest, isJoined⟩ := joined_leads pieces order
  simp [startOf, isJoined]

theorem joined_split (inside : index < count) :
    ∃ rest, joined pieces count = joined pieces index ++ (pieces index ++ rest) := by
  obtain ⟨rest, isJoined⟩ := joined_leads pieces inside
  exact ⟨rest, by simp [isJoined, joined_succ]⟩

theorem joined_slice (inside : index < count) :
    ((joined pieces count).drop (startOf pieces index)).take (pieces index).length = pieces index := by
  obtain ⟨rest, isJoined⟩ := joined_split pieces inside
  simp [isJoined, startOf]

theorem joined_get (offset : Nat) (inside : index < count) (within : offset < (pieces index).length) :
    (joined pieces count)[startOf pieces index + offset]? = (pieces index)[offset]? := by
  obtain ⟨rest, isJoined⟩ := joined_split pieces inside
  simp [isJoined, startOf, getElem?_append_right (Nat.le_add_right _ _), getElem?_append_left within]

end Cogterm.Library
