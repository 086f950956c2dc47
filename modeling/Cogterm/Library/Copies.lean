import Mathlib.Logic.Function.Basic
import Mathlib.Data.Nat.ModEq

namespace Cogterm.Library

variable {count index : Nat}

section

variable {Place Cell : Type} [DecidableEq Place]

-- Places are copied one after the other, and each is read before the place that
-- comes before it in the order is written.
def copyAhead (source target : Nat → Place) (store : Place → Cell) : Nat → (Place → Cell) × Cell
  | 0 => (store, store (source 0))
  | count + 1 =>
    let copied := copyAhead source target store count
    (Function.update copied.1 (target count) copied.2, copied.1 (source (count + 1)))

variable (source : Nat → Place) {target : Nat → Place} (store : Place → Cell)

theorem copy_ahead_frame (untouched : ∀ index < count, place ≠ target index) :
    (copyAhead source target store count).1 place = store place := by
  induction count with
  | zero => rfl
  | succ count ih =>
    rw [copyAhead]
    dsimp only
    rw [Function.update_of_ne (untouched count (Nat.lt_succ_self count))]
    exact ih (fun index inside => untouched index (Nat.lt_succ_of_lt inside))

section

variable (ordered : ∀ first second, first < second → second < limit → source second ≠ target first)

include ordered

theorem copy_ahead_reads (inside : count < limit) : (copyAhead source target store count).2 = store (source count) := by
  cases count with
  | zero => rfl
  | succ count =>
    exact copy_ahead_frame source store (fun index before => ordered index (count + 1) (Nat.lt_succ_of_lt before) inside)

theorem copy_ahead_copies (distinct : ∀ first second, first < second → second < limit → target second ≠ target first)
    (within : count ≤ limit) (copied : index < count) :
    (copyAhead source target store count).1 (target index) = store (source index) := by
  induction count with
  | zero => cases copied
  | succ count ih =>
    rw [copyAhead]
    dsimp only
    by_cases last : index = count
    · simpa [last] using copy_ahead_reads source store ordered within
    · rw [Function.update_of_ne (Ne.symm (distinct index count (by omega) within))]
      exact ih (by omega) (by omega)

end

end

variable {α : Type}

-- One place after the other is copied to the begin of a store.
def copyDown (source : Nat → Nat) : Nat → (Nat → α) → Nat → α
  | 0, store => store
  | count + 1, store => Function.update (copyDown source count store) count (copyDown source count store (source count))

theorem copy_down_beyond (beyond : count ≤ index) : copyDown source count store index = store index := by
  induction count with
  | zero => rfl
  | succ count ih =>
    rw [copyDown, Function.update_of_ne (by omega)]
    exact ih (by omega)

theorem copy_down_circular (inside : start < size) (fits : count ≤ size) (store : Nat → α)
    (index : Nat) (copied : index < count) :
    copyDown (fun index => (start + index) % size) count store index = store (start + index % (size - start)) := by
  induction count generalizing index with
  | zero => cases copied
  | succ count ih =>
    rw [copyDown]
    by_cases last : index = count
    · rw [last, Function.update_self]
      by_cases ahead : start + count < size
      · rw [Nat.mod_eq_of_lt ahead, Nat.mod_eq_of_lt (by omega), copy_down_beyond (by omega)]
      have wrapped : (start + count) % size = count - (size - start) := by
        rw [Nat.mod_eq_sub_mod (by omega), Nat.mod_eq_of_lt (by omega)]
        omega
      have again := Nat.mod_eq_sub_mod (show count ≥ size - start by omega)
      rw [wrapped, ih (by omega) _ (by omega), again]
    · rw [Function.update_of_ne last]
      exact ih (by omega) index (by omega)

end Cogterm.Library
