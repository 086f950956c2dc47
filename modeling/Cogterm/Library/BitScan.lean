import Mathlib.Data.Nat.Bitwise
import Mathlib.Data.List.TakeWhile

namespace Cogterm.Library

open List Nat

def maskOf : List Bool → Nat
  | [] => 0
  | flag :: rest => flag.toNat + 2 * maskOf rest

def bitScanForward (mask : Nat) : Nat := (range 64).findIdx (fun bit => mask.testBit bit)

theorem mask_of_test_bit (flags : List Bool) (bit : Nat) : (maskOf flags).testBit bit = flags.getD bit false := by
  induction flags generalizing bit with
  | nil => simp [maskOf]
  | cons flag rest ih =>
    cases bit with
    | zero => cases flag <;> simp [maskOf]
    | succ bit =>
      have halved : (flag.toNat + 2 * maskOf rest) / 2 = maskOf rest := by
        cases flag with
        | true =>
          rw [Bool.toNat_true]
          omega
        | false =>
          simp
      simp [maskOf, testBit_succ, halved, ih]

theorem mask_of_eq_zero_iff (flags : List Bool) : maskOf flags = 0 ↔ true ∉ flags := by
  induction flags with
  | nil => simp [maskOf]
  | cons flag rest ih => cases flag <;> simp [maskOf, ih]

theorem bit_scan_forward_mask_of (flags : List Bool) (short : flags.length ≤ 64) (some : true ∈ flags) :
    bitScanForward (maskOf flags) = flags.findIdx (fun flag => flag) := by
  have inside : flags.findIdx (fun flag => flag) < flags.length := findIdx_lt_length_of_exists ⟨true, some, rfl⟩
  have first : bitScanForward (maskOf flags) = flags.findIdx (fun flag => flag) ↔ _ :=
    findIdx_eq (by rw [length_range]; omega)
  rw [first]
  refine ⟨?_, ?_⟩
  · simpa [mask_of_test_bit, getElem?_eq_getElem inside] using findIdx_getElem (w := inside)
  · intro bit earlier
    have within : bit < flags.length := lt_trans earlier inside
    rw [getElem_range, mask_of_test_bit, getD_eq_getElem?_getD, getElem?_eq_getElem within]
    simpa using not_of_lt_findIdx earlier

variable {width : Nat}

theorem find_idx_spread (positive : 0 < width) (flags : List Bool) :
    (flags.flatMap (replicate width)).findIdx (fun flag => flag) = width * flags.findIdx (fun flag => flag) := by
  induction flags with
  | nil => simp
  | cons flag rest ih =>
    cases flag with
    | true =>
      obtain ⟨less, rfl⟩ := Nat.exists_eq_succ_of_ne_zero (Nat.pos_iff_ne_zero.mp positive)
      simp [replicate_succ, findIdx_cons]
    | false =>
      have none : (replicate width false).findIdx (fun flag => flag) = width := by simp [findIdx_eq_length_of_false]
      simp [findIdx_append, none, ih, findIdx_cons, mul_add]

variable {lanes : List Bool}

-- Every lane is spread over as many bits as it is wide, as a vector compare
-- leaves it. The scan divided by the width is the first lane that is set.
theorem first_lane (positive : 0 < width) (short : width * lanes.length ≤ 64) (some : true ∈ lanes) :
    bitScanForward (maskOf (lanes.flatMap (replicate width))) / width = lanes.findIdx (fun flag => flag) := by
  rw [bit_scan_forward_mask_of, find_idx_spread positive, Nat.mul_div_cancel_left _ positive]
  · simpa [length_flatMap, map_const', mul_comm] using short
  · exact mem_flatMap.mpr ⟨true, some, by simp; omega⟩

theorem no_lane_iff (positive : 0 < width) : maskOf (lanes.flatMap (replicate width)) = 0 ↔ true ∉ lanes := by
  rw [mask_of_eq_zero_iff]
  simp [Nat.pos_iff_ne_zero.mp positive]

end Cogterm.Library
