import Mathlib.Data.Nat.Bitwise
import Mathlib.Data.List.Basic
import Mathlib.Data.List.Induction

namespace Cogterm.Unicode

open List Bool

abbrev WChar := UInt16

def isSurrogate (c : WChar) : Bool := c &&& 0xF800 == 0xD800
def isLeadingSurrogate (c : WChar) : Bool := c &&& 0xFC00 == 0xD800
def isTrailingSurrogate (c : WChar) : Bool := c &&& 0xFC00 == 0xDC00

def combineSurrogates (c1 c2 : WChar) : Nat := (c1.toNat <<< 10) - 0x35FDC00 + c2.toNat

-- The code point at the begin of the text and what follows it. The source
-- never calls this at the end of the string.
def utf16NextOrFFFD : List WChar → Nat × List WChar
  | [] => (0xFFFD, [])
  | c :: rest =>
    if isSurrogate c then
      match rest with
      | [] => (0xFFFD, [])
      | c2 :: rest' =>
        if (c &&& 0x400) == 0 && isTrailingSurrogate c2 then (combineSurrogates c c2, rest') else (0xFFFD, c2 :: rest')
    else (c.toNat, rest)

-- The same backwards: the text is given from its end to its begin.
def utf16PrevOrFFFD : List WChar → Nat × List WChar
  | [] => (0xFFFD, [])
  | c :: rest =>
    if isSurrogate c then
      match rest with
      | [] => (0xFFFD, [])
      | c1 :: rest' =>
        if (c &&& 0x400) != 0 && isLeadingSurrogate c1 then (combineSurrogates c1 c, rest') else (0xFFFD, c1 :: rest')
    else (c.toNat, rest)

def isPair (c1 c2 : WChar) : Bool := isLeadingSurrogate c1 && isTrailingSurrogate c2

def single (c : WChar) : Nat := if isSurrogate c then 0xFFFD else c.toNat

def codePoints : List WChar → List (Nat × Nat)
  | [] => []
  | [c] => [(single c, 1)]
  | c1 :: c2 :: rest =>
    if isPair c1 c2 then (combineSurrogates c1 c2, 2) :: codePoints rest else (single c1, 1) :: codePoints (c2 :: rest)

theorem half_bit_cases (c : WChar) : c &&& 0x400 = 0 ∨ c &&& 0x400 = 0x400 := by
  have bit : (c &&& 0x400).toNat = (c.toNat.testBit 10).toNat * 2 ^ 10 := by exact Nat.and_two_pow c.toNat 10
  cases found : c.toNat.testBit 10 with
  | false =>
    rw [found] at bit
    exact .inl (UInt16.toNat_inj.mp bit)
  | true =>
    rw [found] at bit
    exact .inr (UInt16.toNat_inj.mp bit)

theorem surrogate_masks (c : WChar) : c &&& 0xFC00 = (c &&& 0xF800) ||| (c &&& 0x400) ∧
    c &&& 0xF800 = (c &&& 0xFC00) &&& 0xF800 ∧ c &&& 0x400 = (c &&& 0xFC00) &&& 0x400 := by
  refine ⟨?_, ?_, ?_⟩
  · apply UInt16.toNat_inj.mp
    simp only [UInt16.toNat_and, UInt16.toNat_or]
    rw [← Nat.and_or_distrib_left]
    rfl
  · rw [UInt16.and_assoc]
    rfl
  · rw [UInt16.and_assoc]
    rfl

theorem leading_surrogate_iff (c : WChar) : isLeadingSurrogate c = true ↔ isSurrogate c = true ∧ c &&& 0x400 = 0 := by
  obtain ⟨both, upper, half⟩ := surrogate_masks c
  simp only [isLeadingSurrogate, isSurrogate, beq_iff_eq]
  constructor
  · intro leading
    rw [upper, half, leading]
    exact ⟨rfl, rfl⟩
  · rintro ⟨surrogate, zero⟩
    rw [both, surrogate, zero]
    rfl

theorem trailing_surrogate_iff (c : WChar) : isTrailingSurrogate c = true ↔ isSurrogate c = true ∧ c &&& 0x400 ≠ 0 := by
  obtain ⟨both, upper, half⟩ := surrogate_masks c
  simp only [isTrailingSurrogate, isSurrogate, beq_iff_eq]
  constructor
  · intro trailing
    rw [upper, half, trailing]
    exact ⟨rfl, by decide⟩
  · rintro ⟨surrogate, nonzero⟩
    rw [both, surrogate, (half_bit_cases c).resolve_left nonzero]
    rfl

theorem leading_not_trailing (leading : isLeadingSurrogate c = true) : isTrailingSurrogate c = false := by
  rw [leading_surrogate_iff] at leading
  rw [eq_false_iff]
  intro trailing
  exact ((trailing_surrogate_iff c).mp trailing).2 leading.2

-- No surrogate pair is cut between the two texts.
def Boundary (before after : List WChar) : Prop :=
  ∀ c1 ∈ before.getLast?, ∀ c2 ∈ after.head?, isPair c1 c2 = false

theorem code_points_append {before after : List WChar} (boundary : Boundary before after) :
    codePoints (before ++ after) = codePoints before ++ codePoints after := by
  induction before using codePoints.induct with
  | case1 => rfl
  | case2 c =>
    cases after with
    | nil => rfl
    | cons d rest =>
      have apart : isPair c d = false := boundary c rfl d rfl
      simp [codePoints, apart]
  | case3 c1 c2 rest pair ih =>
    have inner : Boundary rest after := by
      intro last isLast
      apply boundary
      simp [getLast?_cons, Option.mem_def.mp isLast]
    simp [codePoints, pair, ih inner]
  | case4 c1 c2 rest apart ih =>
    have inner : Boundary (c2 :: rest) after := by
      intro last isLast
      apply boundary
      rwa [getLast?_cons_cons]
    rw [cons_append] at ih
    simp [codePoints, apart, ih inner]

theorem next_code_point (text : List WChar) (nonempty : text ≠ []) :
    ∃ units, units ≠ [] ∧ text = units ++ (utf16NextOrFFFD text).2 ∧
      codePoints text = ((utf16NextOrFFFD text).1, units.length) :: codePoints (utf16NextOrFFFD text).2 := by
  cases text with
  | nil => exact absurd rfl nonempty
  | cons c rest =>
    cases rest with
    | nil =>
      refine ⟨[c], by simp, ?_⟩
      by_cases surrogate : isSurrogate c = true
      · simp [utf16NextOrFFFD, surrogate, codePoints, single]
      · simp [utf16NextOrFFFD, surrogate, codePoints, single]
    | cons c2 rest =>
      by_cases pair : isPair c c2 = true
      · obtain ⟨leading, trailing⟩ := and_eq_true_iff.mp pair
        rw [leading_surrogate_iff] at leading
        refine ⟨[c, c2], by simp, ?_⟩
        simp [utf16NextOrFFFD, codePoints, leading, trailing, pair]
      · refine ⟨[c], by simp, ?_⟩
        by_cases surrogate : isSurrogate c = true
        · have apart : ((c &&& 0x400) == 0 && isTrailingSurrogate c2) = false := by
            rw [eq_false_iff]
            intro both
            rw [and_eq_true_iff, beq_iff_eq] at both
            exact pair (and_eq_true_iff.mpr ⟨(leading_surrogate_iff c).mpr ⟨surrogate, both.1⟩, both.2⟩)
          simp [utf16NextOrFFFD, surrogate, codePoints, single, pair, apart]
        · simp [utf16NextOrFFFD, surrogate, codePoints, single, pair]

theorem prev_code_point (text : List WChar) (nonempty : text ≠ []) :
    ∃ before units, units ≠ [] ∧ text = before ++ units ∧
      utf16PrevOrFFFD text.reverse = ((utf16PrevOrFFFD text.reverse).1, before.reverse) ∧
      codePoints text = codePoints before ++ [((utf16PrevOrFFFD text.reverse).1, units.length)] := by
  obtain ⟨init, c, rfl⟩ := (eq_nil_or_concat' text).resolve_left nonempty
  rw [reverse_append, reverse_singleton, singleton_append]
  have alone (isSingle : utf16PrevOrFFFD (c :: init.reverse) = (single c, init.reverse)) (boundary : Boundary init [c]) :
      ∃ before units, units ≠ [] ∧ init ++ [c] = before ++ units ∧
        utf16PrevOrFFFD (c :: init.reverse) = ((utf16PrevOrFFFD (c :: init.reverse)).1, before.reverse) ∧
        codePoints (init ++ [c]) = codePoints before ++ [((utf16PrevOrFFFD (c :: init.reverse)).1, units.length)] := by
    refine ⟨init, [c], by simp, rfl, ?_, ?_⟩
    · rw [isSingle]
    · rw [isSingle, code_points_append boundary]
      rfl
  cases init using List.reverseRecOn with
  | nil =>
    apply alone
    · by_cases surrogate : isSurrogate c = true
      · simp [utf16PrevOrFFFD, surrogate, single]
      · simp [utf16PrevOrFFFD, surrogate, single]
    · simp [Boundary]
  | append_singleton front c1 =>
    rw [reverse_append, reverse_singleton, singleton_append] at alone ⊢
    by_cases pair : isPair c1 c = true
    · obtain ⟨leading, trailing⟩ := and_eq_true_iff.mp pair
      have half := (trailing_surrogate_iff c).mp trailing
      have found : utf16PrevOrFFFD (c :: c1 :: front.reverse) = (combineSurrogates c1 c, front.reverse) := by
        simp [utf16PrevOrFFFD, half, leading]
      refine ⟨front, [c1, c], by simp, by simp, ?_, ?_⟩
      · rw [found]
      · have boundary : Boundary front [c1, c] := by
          intro last isLast head isHead
          rw [head?_cons, Option.mem_some_iff] at isHead
          simp [← isHead, isPair, leading_not_trailing leading]
        simp [found, code_points_append boundary, codePoints, pair]
    · apply alone
      · by_cases surrogate : isSurrogate c = true
        · have apart : ((c &&& 0x400) != 0 && isLeadingSurrogate c1) = false := by
            rw [eq_false_iff]
            intro both
            rw [and_eq_true_iff, bne_iff_ne] at both
            exact pair (and_eq_true_iff.mpr ⟨both.2, (trailing_surrogate_iff c).mpr ⟨surrogate, both.1⟩⟩)
          simp [utf16PrevOrFFFD, surrogate, single, apart]
        · simp [utf16PrevOrFFFD, surrogate, single]
      · simpa [Boundary] using pair

theorem code_points_positive (text : List WChar) : ∀ symbol ∈ codePoints text, 0 < symbol.2 := by
  induction text using codePoints.induct with
  | case1 => simp [codePoints]
  | case2 c => simp [codePoints]
  | case3 c1 c2 rest pair ih => simpa [codePoints, pair] using ih
  | case4 c1 c2 rest apart ih => simpa [codePoints, apart] using ih

-- A way to read a text code point by code point.
structure Decodes (decode : List WChar → Nat × List WChar) (points : List WChar → List (Nat × Nat)) : Prop where
  none : points [] = []
  first : ∀ text, text ≠ [] → ∃ units, units ≠ [] ∧ text = units ++ (decode text).2 ∧
    points text = ((decode text).1, units.length) :: points (decode text).2

theorem Decodes.next (decodes : Decodes decode points) (nonempty : text ≠ []) :
    ∃ cp tail units, decode text = (cp, tail) ∧ text = units ++ tail ∧
      tail.length < text.length ∧ points text = (cp, units.length) :: points tail := by
  obtain ⟨units, someUnits, split, isText⟩ := decodes.first text nonempty
  have length := congrArg List.length split
  have positive := length_pos_iff.mpr someUnits
  rw [length_append] at length
  exact ⟨_, _, units, rfl, split, by omega, isText⟩

def codePointsBack (text : List WChar) : List (Nat × Nat) := (codePoints text.reverse).reverse

theorem decodes_next : Decodes utf16NextOrFFFD codePoints := ⟨rfl, next_code_point⟩

theorem decodes_prev : Decodes utf16PrevOrFFFD codePointsBack := by
  refine ⟨rfl, ?_⟩
  intro text nonempty
  obtain ⟨before, units, someUnits, split, found, points⟩ := prev_code_point text.reverse (by simpa using nonempty)
  rw [reverse_reverse] at found points
  have rest : (utf16PrevOrFFFD text).2 = before.reverse := by rw [found]
  refine ⟨units.reverse, by simpa using someUnits, ?_, ?_⟩
  · simp [rest, ← reverse_append, ← split]
  · simp [codePointsBack, points, rest]

end Cogterm.Unicode
