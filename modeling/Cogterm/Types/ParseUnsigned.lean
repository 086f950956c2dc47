import Mathlib.Data.UInt

namespace Cogterm.Til

inductive Unsigned where
  | uint8
  | uint16
  | uint32
  | uint64
deriving DecidableEq, Repr

def Unsigned.bits : Unsigned → Nat
  | .uint8 => 8
  | .uint16 => 16
  | .uint32 => 32
  | .uint64 => 64

-- The units of the string are given as uint64_t, which each is converted to.
def digitValue (ch : UInt64) : UInt64 :=
  let sub : UInt64 := if ch ≥ 0x30 ∧ ch ≤ 0x39 then (0x30 - 1) &&& ~~~0x20 else ((0x41 - 1) &&& ~~~0x20) - 10
  ((ch - 1) &&& ~~~0x20) - sub

def accumulate (base : UInt64) : List UInt64 → UInt64 → Option UInt64
  | [], accumulator => some accumulator
  | ch :: rest, accumulator =>
    let value := digitValue ch
    let acc := accumulator * base + value
    if value ≥ base ∨ accumulator > 0xFFFFFFFFFFFFFFFF / base ∨ acc < accumulator then none else accumulate base rest acc

def detectBase (str : List UInt64) : UInt64 × List UInt64 :=
  match str with
  | first :: second :: rest =>
    if first = 0x30 then
      if second ||| 0x20 = 0x62 then (2, rest) else if second ||| 0x20 = 0x78 then (16, rest) else (8, second :: rest)
    else (10, str)
  | _ => (10, str)

def parseU64 (str : List UInt64) (base : Nat) : Option UInt64 :=
  let (baseUint64, digits) := if base = 0 then detectBase str else (UInt64.ofNat base, str)
  if digits = [] ∨ baseUint64 > 36 then none else accumulate baseUint64 digits 0

def parseUnsigned (type : Unsigned) (str : List UInt64) (base : Nat) : Option Nat :=
  (parseU64 str base).bind fun value => if value.toNat > 2 ^ type.bits - 1 then none else some value.toNat

def digit? (ch : UInt64) : Option Nat :=
  if 0x30 ≤ ch ∧ ch ≤ 0x39 then some (ch.toNat - 0x30)
  else if 0x41 ≤ ch ∧ ch ≤ 0x5A then some (ch.toNat - 0x41 + 10)
  else if 0x61 ≤ ch ∧ ch ≤ 0x7A then some (ch.toNat - 0x61 + 10)
  else none

def digitsValue (base : Nat) : List UInt64 → Nat → Option Nat
  | [], value => some value
  | ch :: rest, value => ((digit? ch).filter (· < base)).bind fun digit => digitsValue base rest (value * base + digit)

def basePrefix (str : List UInt64) : Nat × List UInt64 :=
  match str with
  | first :: second :: rest =>
    if first = 0x30 then
      if second = 0x62 ∨ second = 0x42 then (2, rest) else if second = 0x78 ∨ second = 0x58 then (16, rest)
      else (8, second :: rest)
    else (10, str)
  | _ => (10, str)

-- The mathematical value of a string, in the base it is given for or begins with.
def denoted (str : List UInt64) (base : Nat) : Option Nat :=
  let (base, digits) := if base = 0 then basePrefix str else (base, str)
  if digits = [] then none else digitsValue base digits 0

theorem masked_parts (ch mask : UInt64) : (ch &&& ~~~mask) + (ch &&& mask) = ch := by
  apply UInt64.eq_of_toBitVec_eq
  simp only [UInt64.toBitVec_add, UInt64.toBitVec_and, UInt64.toBitVec_not]
  rw [BitVec.add_eq_or_of_and_eq_zero]
  · ext i
    grind
  · ext i
    grind

theorem ascii_digit_value : ∀ ch : Fin 128, digit? (UInt64.ofNat ch) =
    if (digitValue (UInt64.ofNat ch)).toNat < 36 then some (digitValue (UInt64.ofNat ch)).toNat else none := by
  decide +kernel

-- Behind ASCII, what is left after the mask is too large.
theorem digit_value_eq (ch : UInt64) : digit? ch = if (digitValue ch).toNat < 36 then some (digitValue ch).toNat else none := by
  by_cases ascii : ch.toNat < 128
  · simpa using ascii_digit_value ⟨ch.toNat, ascii⟩
  · have high : 128 ≤ ch := by simpa [UInt64.le_iff_toNat_le] using ascii
    have parts := masked_parts (ch - 1) 0x20
    have bit : (ch - 1) &&& 0x20 ≤ 0x20 := by exact Nat.and_le_right
    have sub : (((0x41 - 1) &&& ~~~0x20) - 10 : UInt64) = 54 := by decide
    have large : ¬ digitValue ch < 36 := by
      rw [digitValue]
      grind
    rw [UInt64.lt_iff_toNat_lt] at large
    grind [digit?]

theorem digit_below {base : Nat} (small : base ≤ 36) (ch : UInt64) :
    (digit? ch).filter (· < base) = if (digitValue ch).toNat < base then some (digitValue ch).toNat else none := by
  rw [digit_value_eq]
  grind

theorem digits_value_grows {base : Nat} (positive : 0 < base) (digits : List UInt64) (value result : Nat)
    (denotes : digitsValue base digits value = some result) : value ≤ result := by
  induction digits generalizing value with
  | nil => exact (Option.some.inj denotes).le
  | cons ch rest ih =>
    obtain ⟨digit, _, denotes⟩ := Option.bind_eq_some_iff.mp denotes
    exact (Nat.le_mul_of_pos_right value positive).trans ((Nat.le_add_right _ _).trans (ih _ denotes))

-- The wrapped sum is compared only when the product did not wrap.
theorem accumulate_denoted {base : Nat} (several : 2 ≤ base) (small : base ≤ 36) (digits : List UInt64)
    (accumulator : UInt64) : (accumulate (UInt64.ofNat base) digits accumulator).map UInt64.toNat =
      (digitsValue base digits accumulator.toNat).filter (· < 2 ^ 64) := by
  induction digits generalizing accumulator with
  | nil => simp [accumulate, digitsValue, Option.filter, accumulator.toNat_lt]
  | cons ch rest ih =>
    rw [accumulate, digitsValue, digit_below small]
    have isBase : (UInt64.ofNat base).toNat = base := UInt64.toNat_ofNat_of_lt' (by simp only [UInt64.size]; omega)
    have larger := Nat.mul_le_mul_left accumulator.toNat small
    have atLeast := Nat.le_mul_of_pos_right accumulator.toNat (by omega : 0 < base)
    have quotient : accumulator.toNat ≤ 18446744073709551615 / base ↔ accumulator.toNat * base ≤ 18446744073709551615 :=
      Nat.le_div_iff_mul_le (by omega)
    simp only [ge_iff_le, gt_iff_lt, UInt64.le_iff_toNat_le, UInt64.lt_iff_toNat_lt, UInt64.toNat_add, UInt64.toNat_mul,
      UInt64.toNat_div, isBase]
    by_cases inBase : (digitValue ch).toNat < base
    · rw [if_pos inBase, Option.bind_some]
      by_cases fits : accumulator.toNat * base + (digitValue ch).toNat < 2 ^ 64
      · have next := ih (accumulator * UInt64.ofNat base + digitValue ch)
        rw [UInt64.toNat_add, UInt64.toNat_mul, isBase, Nat.mod_eq_of_lt (by omega : accumulator.toNat * base < _),
          Nat.mod_eq_of_lt fits] at next
        rw [if_neg ?_, next]
        simp
        omega
      · have wraps : 18446744073709551615 / base < accumulator.toNat ∨
            (accumulator.toNat * base % 2 ^ 64 + (digitValue ch).toNat) % 2 ^ 64 < accumulator.toNat := by omega
        rw [if_pos (.inr wraps)]
        cases denotes : digitsValue base rest (accumulator.toNat * base + (digitValue ch).toNat) with
        | none => rfl
        | some result =>
          have grows := digits_value_grows (by omega) rest _ result denotes
          simp [Option.filter]
          omega
    · rw [if_neg inBase, if_pos (.inl (by omega))]
      rfl

theorem letter_cases (ch : UInt64) :
    (ch ||| 0x20 = 0x62 ↔ ch = 0x62 ∨ ch = 0x42) ∧ (ch ||| 0x20 = 0x78 ↔ ch = 0x78 ∨ ch = 0x58) := by
  have ascii : ∀ ch : Fin 128, (UInt64.ofNat ch ||| 0x20 = 0x62 ↔ UInt64.ofNat ch = 0x62 ∨ UInt64.ofNat ch = 0x42) ∧
      (UInt64.ofNat ch ||| 0x20 = 0x78 ↔ UInt64.ofNat ch = 0x78 ∨ UInt64.ofNat ch = 0x58) := by decide +kernel
  by_cases low : ch.toNat < 128
  · simpa using ascii ⟨ch.toNat, low⟩
  · have high : 128 ≤ ch := by simpa [UInt64.le_iff_toNat_le] using low
    have above : ch ≤ ch ||| 0x20 := by exact Nat.left_le_or
    grind

theorem detects_prefix (str : List UInt64) : detectBase str = (UInt64.ofNat (basePrefix str).1, (basePrefix str).2) ∧
    2 ≤ (basePrefix str).1 ∧ (basePrefix str).1 ≤ 36 := by
  rcases str with _ | ⟨first, _ | ⟨second, rest⟩⟩
  · decide
  · exact ⟨rfl, by simp [basePrefix]⟩
  · simp only [detectBase, basePrefix, letter_cases]
    split
    · split
      · simp
      · split <;> simp
    · simp

theorem parse_unsigned_denoted (type : Unsigned) (str : List UInt64)
    (base : { base // base = 0 ∨ 2 ≤ base ∧ base ≤ 36 }) :
    parseUnsigned type str base = (denoted str base).filter (· < 2 ^ type.bits) := by
  have digits (base : Nat) (digits : List UInt64) (several : 2 ≤ base) (small : base ≤ 36) :
      (if digits = [] ∨ UInt64.ofNat base > 36 then none else accumulate (UInt64.ofNat base) digits 0).bind
          (fun value => if value.toNat > 2 ^ type.bits - 1 then none else some value.toNat) =
        (if digits = [] then none else digitsValue base digits 0).filter (· < 2 ^ type.bits) := by
    have inBase : ¬ UInt64.ofNat base > 36 := by
      simp [UInt64.lt_iff_toNat_lt]
      omega
    have denotes := accumulate_denoted several small digits 0
    have atMost : 0 < 2 ^ type.bits ∧ 2 ^ type.bits ≤ 2 ^ 64 := by cases type <;> decide
    simp only [inBase, or_false]
    split
    · rfl
    · have fits (parsed : Option UInt64) :
          parsed.bind (fun value => if value.toNat > 2 ^ type.bits - 1 then none else some value.toNat) =
            (parsed.map UInt64.toNat).filter (· < 2 ^ type.bits) := by
        cases parsed with
        | none => rfl
        | some value => grind
      rw [fits, denotes, UInt64.toNat_zero]
      cases digitsValue base digits 0 with
      | none => rfl
      | some value => grind
  rw [parseUnsigned, parseU64, denoted]
  by_cases zero : base.1 = 0
  · obtain ⟨detects, several, small⟩ := detects_prefix str
    rw [if_pos zero, if_pos zero, detects]
    exact digits _ _ several small
  · obtain ⟨several, small⟩ := base.2.resolve_left zero
    rw [if_neg zero, if_neg zero]
    exact digits base str several small

end Cogterm.Til
