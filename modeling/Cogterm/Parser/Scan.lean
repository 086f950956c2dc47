import Cogterm.Library.BitScan
import Cogterm.Parser.Characters

namespace Cogterm.VirtualTerminal

open Library List Nat

inductive Isa where
  | sse2
  | neon
  | scalar
deriving DecidableEq, Repr

def plainSearch (text : List WChar) : Nat := text.findIdx isActionableFromGround

def subsEpu16 (a b : WChar) : WChar := if a ≤ b then 0 else a - b

def sse2Lane (wch : WChar) : Bool := subsEpu16 wch 0x1F == 0 || subsEpu16 (wch + 0xFF81) 0x20 == 0

-- One iteration reads eight lanes. A compared lane fills two bytes, and
-- movemask takes one bit of every byte.
def sse2Search : Nat → List WChar → Nat
  | 0, text => plainSearch text
  | blocks + 1, text =>
    let mask := maskOf (((text.take 8).map sse2Lane).flatMap (replicate 2))
    if mask ≠ 0 then bitScanForward mask / 2 else 8 + sse2Search blocks (text.drop 8)

def neonLane (wch : WChar) : Bool := wch ≤ 0x1F || wch - 0x7F ≤ 0x20

-- The two 64-bit halves of the compared vector hold four lanes each.
def neonSearch : Nat → List WChar → Nat
  | 0, text => plainSearch text
  | blocks + 1, text =>
    let low := maskOf (((text.take 4).map neonLane).flatMap (replicate 16))
    let high := maskOf ((((text.drop 4).take 4).map neonLane).flatMap (replicate 16))
    if low ≠ 0 then bitScanForward low / 16
    else if high ≠ 0 then 4 + bitScanForward high / 16
    else 8 + neonSearch blocks (text.drop 8)

def actionableOffset (isa : Isa) (text : List WChar) : Nat :=
  match isa with
  | .sse2 => sse2Search (text.length / 8) text
  | .neon => neonSearch (text.length / 8) text
  | .scalar => plainSearch text

def findActionableControlCharacter (isa : Isa) (text : List WChar) : List WChar × List WChar :=
  (text.take (actionableOffset isa text), text.drop (actionableOffset isa text))

theorem sse2_lane_actionable (wch : WChar) : sse2Lane wch = isActionableFromGround wch := by
  have left : (subsEpu16 wch 0x1F == 0) = decide (wch ≤ 0x1F) := by
    by_cases low : wch ≤ 0x1F
    · simp [subsEpu16, low]
    have positive : wch - 0x1F ≠ 0 := by
      intro zero
      exact low (by grind)
    simp [subsEpu16, low, positive]
  have right : (subsEpu16 (wch + 0xFF81) 0x20 == 0) = decide (wch - 0x7F ≤ 0x20) := by
    have shifted : wch + 0xFF81 = wch - 0x7F := by grind
    rw [shifted]
    by_cases low : wch - 0x7F ≤ 0x20
    · simp [subsEpu16, low]
    have positive : wch - 0x7F - 0x20 ≠ 0 := by
      intro zero
      exact low (by grind)
    simp [subsEpu16, low, positive]
  rw [sse2Lane, left, right, isActionableFromGround]

theorem neon_lane_actionable (wch : WChar) : neonLane wch = isActionableFromGround wch := rfl

-- Searching the first lanes of a text by their mask, then what follows them.
theorem lanes_search (width count : Nat) (text : List WChar) (positive : 0 < width) (short : width * count ≤ 64)
    (enough : count ≤ text.length) :
    let mask := maskOf (((text.take count).map isActionableFromGround).flatMap (replicate width))
    plainSearch text = if mask ≠ 0 then bitScanForward mask / width else count + plainSearch (text.drop count) := by
  intro mask
  have length : (text.take count).length = count := by simpa using enough
  have search : plainSearch text = (text.take count ++ text.drop count).findIdx isActionableFromGround := by simp [plainSearch]
  have flags : ((text.take count).map isActionableFromGround).findIdx (fun flag => flag) =
      (text.take count).findIdx isActionableFromGround := by
    rw [findIdx_map]
    rfl
  rw [search, findIdx_append, length]
  by_cases found : true ∈ (text.take count).map isActionableFromGround
  · have nonzero : mask ≠ 0 := fun zero => (no_lane_iff positive).mp zero found
    obtain ⟨wch, member, actionable⟩ := mem_map.mp found
    have inside : (text.take count).findIdx isActionableFromGround < count := by
      have bound := findIdx_lt_length_of_exists ⟨wch, member, actionable⟩
      rwa [length] at bound
    have scan := first_lane positive (by rwa [length_map, length]) found
    rw [if_pos inside, if_pos nonzero, scan, flags]
  · have zero : mask = 0 := (no_lane_iff positive).mpr found
    have outside : (text.take count).findIdx isActionableFromGround = count := by
      rw [findIdx_eq_length_of_false, length]
      intro wch member
      by_contra actionable
      exact found (mem_map.mpr ⟨wch, member, by simpa using actionable⟩)
    simp [outside, if_neg (not_not.mpr zero), plainSearch, add_comm]

theorem sse2_search_plain (text : List WChar) (enough : 8 * blocks ≤ text.length) :
    sse2Search blocks text = plainSearch text := by
  induction blocks generalizing text with
  | zero => rfl
  | succ blocks ih =>
    have lanes : sse2Lane = isActionableFromGround := funext sse2_lane_actionable
    have tail := ih (text.drop 8) (by rw [length_drop]; omega)
    rw [sse2Search, lanes, tail]
    exact (lanes_search 2 8 text (by decide) (by decide) (by omega)).symm

theorem neon_search_plain (text : List WChar) (enough : 8 * blocks ≤ text.length) :
    neonSearch blocks text = plainSearch text := by
  induction blocks generalizing text with
  | zero => rfl
  | succ blocks ih =>
    have lanes : neonLane = isActionableFromGround := funext neon_lane_actionable
    have tail := ih (text.drop 8) (by rw [length_drop]; omega)
    have first := lanes_search 16 4 text (by decide) (by decide) (by omega)
    have second := lanes_search 16 4 (text.drop 4) (by decide) (by decide) (by rw [length_drop]; omega)
    have halves : (text.drop 4).drop 4 = text.drop 8 := drop_drop ..
    rw [neonSearch, lanes, tail, first, second, halves]
    split
    · rfl
    · split
      · rfl
      · rw [← add_assoc]

theorem actionable_offset_plain (isa : Isa) (text : List WChar) : actionableOffset isa text = plainSearch text := by
  cases isa with
  | sse2 => exact sse2_search_plain text (mul_div_le text.length 8)
  | neon => exact neon_search_plain text (mul_div_le text.length 8)
  | scalar => rfl

-- C0 controls, DEL and C1 controls.
def isControl (wch : WChar) : Bool := wch ≤ 0x1F || (0x7F ≤ wch && wch ≤ 0x9F)

theorem actionable_control (wch : WChar) : isActionableFromGround wch = isControl wch := by
  have upper : wch - 0x7F ≤ 0x20 ↔ 0x7F ≤ wch ∧ wch ≤ 0x9F := by grind
  simp [isActionableFromGround, isControl, upper]

theorem control_found_by_all_paths (isa : Isa) (text : List WChar) :
    actionableOffset isa text = plainSearch text ∧ actionableOffset isa text = text.findIdx isControl := by
  rw [actionable_offset_plain, plainSearch, funext actionable_control]
  exact ⟨rfl, rfl⟩

theorem find_actionable_splits (isa : Isa) (text : List WChar) :
    (findActionableControlCharacter isa text).1 ++ (findActionableControlCharacter isa text).2 = text ∧
      ∀ c ∈ (findActionableControlCharacter isa text).1, isActionableFromGround c = false := by
  refine ⟨take_append_drop _ _, ?_⟩
  intro c member
  rw [findActionableControlCharacter, actionable_offset_plain] at member
  obtain ⟨index, inside, rfl⟩ := mem_take_iff_getElem.mp member
  simpa using not_of_lt_findIdx (lt_of_lt_of_le inside (min_le_left _ _))

end Cogterm.VirtualTerminal
