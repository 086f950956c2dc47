import Mathlib.Algebra.Ring.Nat
import Mathlib.Data.List.Basic

namespace Cogterm.Types.Utils

open List

abbrev WChar := UInt16

variable {wstr : List WChar}

def isNumber (wch : WChar) : Bool := decide (0x30 ≤ wch ∧ wch ≤ 0x39)

def stringToUintLoop : List WChar → UInt32 → Option UInt32
  | [], result => some result
  | wch :: rest, result => if isNumber wch then stringToUintLoop rest (result * 10 + (wch - 0x30).toUInt32) else none

def stringToUint (wstr : List WChar) : Option UInt32 := if wstr.length < 1 then none else stringToUintLoop wstr 0

def AllDigits (wstr : List WChar) : Prop := wstr ≠ [] ∧ ∀ wch ∈ wstr, isNumber wch = true

def decimalFrom (value : Nat) (wstr : List WChar) : Nat := wstr.foldl (fun value wch => value * 10 + (wch.toNat - 0x30)) value

def ReadsDecimal (wstr : List WChar) : Prop :=
  ∀ value, stringToUint wstr = some value ↔ AllDigits wstr ∧ decimalFrom 0 wstr < 2 ^ 32 ∧
    value.toNat = decimalFrom 0 wstr

theorem string_to_uint_loop_digits (value : Nat) (digits : ∀ wch ∈ wstr, isNumber wch = true) :
    stringToUintLoop wstr (UInt32.ofNat value) = some (UInt32.ofNat (decimalFrom value wstr)) := by
  induction wstr generalizing value with
  | nil => rfl
  | cons wch rest ih =>
    obtain ⟨first, others⟩ := forall_mem_cons.mp digits
    have bounds := of_decide_eq_true first
    have digit : (wch - 0x30).toUInt32 = UInt32.ofNat (wch.toNat - 0x30) := by
      rw [← UInt32.ofNat_uInt16ToNat, UInt16.toNat_sub_of_le _ _ bounds.1]
      rfl
    rw [stringToUintLoop, if_pos first, digit]
    have next := ih (value * 10 + (wch.toNat - 0x30)) others
    rw [UInt32.ofNat_add, UInt32.ofNat_mul] at next
    exact next

theorem string_to_uint_loop_other (result : UInt32) (other : ¬ ∀ wch ∈ wstr, isNumber wch = true) :
    stringToUintLoop wstr result = none := by
  induction wstr generalizing result with
  | nil => exact absurd (by simp) other
  | cons wch rest ih =>
    rw [stringToUintLoop]
    split
    · rename_i first
      exact ih _ (fun others => other (forall_mem_cons.mpr ⟨first, others⟩))
    · rfl

-- The sum wraps around.
theorem string_to_uint_iff (wstr : List WChar) : ReadsDecimal wstr ↔ ¬ (AllDigits wstr ∧ 2 ^ 32 ≤ decimalFrom 0 wstr) := by
  by_cases digits : AllDigits wstr
  · have read : stringToUint wstr = some (UInt32.ofNat (decimalFrom 0 wstr)) := by
      rw [stringToUint, if_neg (by have := length_pos_of_ne_nil digits.1; omega)]
      exact string_to_uint_loop_digits 0 digits.2
    constructor
    · rintro reads ⟨_, large⟩
      have small := ((reads _).mp read).2.1
      omega
    · intro fits value
      have small : decimalFrom 0 wstr < 2 ^ 32 := by
        by_contra large
        exact fits ⟨digits, by omega⟩
      rw [read, Option.some.injEq]
      constructor
      · rintro rfl
        exact ⟨digits, small, UInt32.toNat_ofNat_of_lt' small⟩
      · rintro ⟨_, _, isValue⟩
        simp [← isValue]
  · have refused : stringToUint wstr = none := by
      rw [stringToUint]
      split
      · rfl
      · rename_i nonempty
        exact string_to_uint_loop_other 0 (fun all => digits ⟨by rintro rfl; exact nonempty (by decide), all⟩)
    refine iff_of_true (fun value => ?_) (fun both => digits both.1)
    rw [refused]
    exact iff_of_false (by simp) (fun both => digits both.1)

structure FilterOption where
  carriageReturnNewline : Bool
  controlCodes : Bool

def isControlCode (c : WChar) : Bool :=
  if 0x20 ≤ c ∧ c < 0x7F then false
  else if 0x9F < c then false
  else decide (c ≠ 0x09 ∧ c ≠ 0x0A ∧ c ≠ 0x0D)

-- The text from begin to pos is still to be copied.
def filterLoop (wstr : List WChar) (option : FilterOption) : Nat → Nat → Nat → List WChar → Nat × List WChar
  | 0, _, start, filtered => (start, filtered)
  | fuel + 1, pos, start, filtered =>
    let c := wstr.getD pos 0
    let copied := filtered ++ (wstr.drop start).take (pos - start)
    if option.carriageReturnNewline && c == 0x0A then
      filterLoop wstr option fuel (pos + 1) (pos + 1)
        (if !(decide (pos > 0) && wstr.getD (pos - 1) 0 == 0x0D) then copied ++ [0x0D] else copied)
    else if option.controlCodes && isControlCode c then filterLoop wstr option fuel (pos + 1) (pos + 1) copied
    else filterLoop wstr option fuel (pos + 1) start filtered

def filterStringForPaste (wstr : List WChar) (option : FilterOption) : List WChar :=
  let (start, filtered) := filterLoop wstr option wstr.length 0 0 []
  if start = 0 then wstr else filtered ++ wstr.drop start

-- What is left of pasted text: lines end in CR alone, and there are no other controls but HT.
def pasteText : List WChar → List WChar
  | [] => []
  | 0x0D :: 0x0A :: rest => 0x0D :: pasteText rest
  | c :: rest => if c = 0x0A then 0x0D :: pasteText rest else if isControlCode c then pasteText rest else c :: pasteText rest

-- An LF is left out behind the CR that was read before it.
def pasteRest (before rest : List WChar) : List WChar :=
  if before.getLast? = some 0x0D ∧ rest.head? = some 0x0A then pasteText rest.tail else pasteText rest

theorem paste_text_cons (apart : ¬ (c = 0x0D ∧ rest.head? = some 0x0A)) : pasteText (c :: rest) =
      if c = 0x0A then 0x0D :: pasteText rest else if isControlCode c then pasteText rest else c :: pasteText rest := by
  rw [pasteText]
  rintro tail rfl rfl
  exact apart ⟨rfl, rfl⟩

theorem paste_rest_snoc (before rest : List WChar) (c : WChar) :
    pasteRest (before ++ [c]) rest = if c = 0x0D ∧ rest.head? = some 0x0A then pasteText rest.tail else pasteText rest := by
  simp [pasteRest]

theorem look_behind (before rest : List WChar) :
    (decide (before.length > 0) && (before ++ rest).getD (before.length - 1) 0 == 0x0D) = (before.getLast? == some 0x0D) := by
  rcases eq_nil_or_concat before with rfl | ⟨front, last, rfl⟩
  · simp
  · simp

theorem filter_loop_pastes (before rest : List WChar) (start : Nat) (filtered : List WChar) (started : start ≤ before.length) :
    let result := filterLoop (before ++ rest) ⟨true, true⟩ rest.length before.length start filtered
    result.2 ++ (before ++ rest).drop result.1 = filtered ++ before.drop start ++ pasteRest before rest := by
  induction rest generalizing before start filtered with
  | nil => simp [filterLoop, pasteRest, pasteText]
  | cons c rest ih =>
    have read : (before ++ c :: rest).getD before.length 0 = c := by simp
    have copied : ((before ++ c :: rest).drop start).take (before.length - start) = before.drop start := by
      simp [drop_append_of_le_length started]
    have again := ih (before ++ [c])
    simp only [append_assoc, singleton_append, length_append, length_singleton] at again
    have ended : (before ++ [c]).drop (before.length + 1) = [] := drop_eq_nil_of_le (by simp)
    have next (noReturn : c ≠ 0x0D) : pasteRest (before ++ [c]) rest = pasteText rest :=
      (paste_rest_snoc before rest c).trans (if_neg fun both => noReturn both.1)
    rw [length_cons, filterLoop]
    simp only [read, copied, look_behind, Bool.true_and]
    by_cases newline : c = 0x0A
    · have noReturn : c ≠ 0x0D := by
        rw [newline]
        decide
      rw [if_pos (beq_iff_eq.mpr newline), again _ _ (Nat.le_refl _), next noReturn, pasteRest]
      by_cases behind : before.getLast? = some 0x0D
      · simp [behind, newline]
      · simp [behind, newline, paste_text_cons]
    · have plain : pasteRest before (c :: rest) = pasteText (c :: rest) := if_neg (by simp [newline])
      rw [if_neg (by simpa using newline), plain]
      by_cases control : isControlCode c = true
      · have noReturn : c ≠ 0x0D := by
          rintro rfl
          cases control
        simp [again _ _ (Nat.le_refl _), next noReturn, paste_text_cons (fun both => noReturn both.1), if_neg newline,
          if_pos control]
      · rw [if_neg control, again _ _ (by omega), drop_append_of_le_length started, paste_rest_snoc]
        split
        · rename_i pair
          obtain ⟨rfl, isHead⟩ := pair
          obtain ⟨tail, rfl⟩ := head?_eq_some_iff.mp isHead
          simp [pasteText]
        · rename_i apart
          simp [paste_text_cons apart, if_neg newline, if_neg control]

theorem filter_loop_nothing (wstr : List WChar) (option : FilterOption) (fuel pos start : Nat) (filtered : List WChar)
    (nothing : start = 0 → filtered = []) (ended : (filterLoop wstr option fuel pos start filtered).1 = 0) :
    (filterLoop wstr option fuel pos start filtered).2 = [] := by
  induction fuel generalizing pos start filtered with
  | zero => exact nothing ended
  | succ fuel ih =>
    rw [filterLoop] at ended ⊢
    split
    · rename_i newline
      rw [if_pos newline] at ended
      exact ih _ _ _ (by simp) ended
    rename_i other
    rw [if_neg other] at ended
    split
    · rename_i control
      rw [if_pos control] at ended
      exact ih _ _ _ (by simp) ended
    · rename_i plain
      rw [if_neg plain] at ended
      exact ih _ _ _ nothing ended

theorem filter_pastes (wstr : List WChar) : filterStringForPaste wstr ⟨true, true⟩ = pasteText wstr := by
  have pasted := filter_loop_pastes [] wstr 0 [] (Nat.le_refl 0)
  have nothing := filter_loop_nothing wstr ⟨true, true⟩ wstr.length 0 0 [] (fun _ => rfl)
  simp only [nil_append, length_nil, pasteRest] at pasted
  rw [filterStringForPaste]
  dsimp only
  split
  · rename_i unchanged
    rw [nothing unchanged, unchanged] at pasted
    simpa using pasted
  · exact pasted

theorem paste_text_plain (wstr : List WChar) : ∀ c ∈ pasteText wstr, c ≠ 0x0A ∧ isControlCode c = false := by
  have carriage : (0x0D : WChar) ≠ 0x0A ∧ isControlCode 0x0D = false := by decide
  fun_induction pasteText wstr with
  | case1 => simp
  | case2 rest ih => exact forall_mem_cons.mpr ⟨carriage, ih⟩
  | case3 rest _ ih => exact forall_mem_cons.mpr ⟨carriage, ih⟩
  | case4 c rest _ _ _ ih => exact ih
  | case5 c rest _ noLf noControl ih => exact forall_mem_cons.mpr ⟨⟨noLf, Bool.eq_false_iff.mpr noControl⟩, ih⟩

theorem paste_text_same (plain : ∀ c ∈ wstr, c ≠ 0x0A ∧ isControlCode c = false) : pasteText wstr = wstr := by
  induction wstr with
  | nil => rfl
  | cons c rest ih =>
    obtain ⟨⟨noLf, noControl⟩, others⟩ := forall_mem_cons.mp plain
    have apart : ¬ (c = 0x0D ∧ rest.head? = some 0x0A) := fun pair => (others _ (mem_of_mem_head? pair.2)).1 rfl
    rw [paste_text_cons apart, if_neg noLf, noControl, ih others]
    rfl

theorem filter_string_for_paste (wstr : List WChar) : let filtered := filterStringForPaste wstr ⟨true, true⟩
    filtered = pasteText wstr ∧ 0x1B ∉ filtered ∧ filterStringForPaste filtered ⟨true, true⟩ = filtered := by
  have plain := paste_text_plain wstr
  simp only [filter_pastes]
  refine ⟨trivial, fun escape => ?_, paste_text_same plain⟩
  exact absurd (plain _ escape).2 (by decide)

end Cogterm.Types.Utils
