import Cogterm.Parser.CsiDispatch
import Cogterm.TextBuffer.Serialize
import Mathlib.Tactic.FinCases

namespace Cogterm.Buffer

open Library Til VirtualTerminal List Nat UInt8

variable {digits : List WChar}

theorem digit_char : ∀ digit : Fin 10, isNumericParamValue (UInt16.ofNat (digitChar digit).toNat) = true ∧
    (UInt16.ofNat (digitChar digit).toNat).toNat - 0x30 = digit := by decide

theorem format_number_last (number : Nat) : formatNumber number =
      (if number < 10 then [] else formatNumber (number / 10)) ++ [UInt16.ofNat (digitChar (number % 10)).toNat] := by
  unfold formatNumber
  rw [toDigits_eq_if (by decide)]
  by_cases small : number < 10
  · simp [if_pos small, mod_eq_of_lt small]
  · simp [if_neg small]

theorem format_digits (number : Nat) : ∀ wch ∈ formatNumber number, isNumericParamValue wch = true := by
  induction number using Nat.strong_induction_on with
  | _ number ih =>
    intro wch member
    rw [format_number_last] at member
    rcases mem_append.mp member with early | last
    · by_cases small : number < 10
      · rw [if_pos small] at early
        cases early
      · rw [if_neg small] at early
        exact ih (number / 10) (div_lt_self (by omega) (by decide)) wch early
    · rw [mem_singleton.mp last]
      exact (digit_char ⟨number % 10, mod_lt _ (by decide)⟩).1

theorem format_decimal (number : Nat) : decimal (formatNumber number) = number := by
  induction number using Nat.strong_induction_on with
  | _ number ih =>
    have last := (digit_char ⟨number % 10, mod_lt _ (by decide)⟩).2
    rw [format_number_last, decimal_snoc, last]
    by_cases small : number < 10
    · rw [if_pos small]
      exact (zero_add _).trans (mod_eq_of_lt small)
    · rw [if_neg small, ih (number / 10) (div_lt_self (by omega) (by decide))]
      exact div_add_mod' number 10

theorem format_value (fits : number ≤ maxParameterValue) : fieldValue (formatNumber number) = some number := by
  have nonempty : (formatNumber number).isEmpty = false := by
    rw [format_number_last]
    simp
  simp [fieldValue, nonempty, format_decimal, min_eq_left fits]

theorem format_byte_value : fieldValue (formatByte byte) = some byte.toNat := by
  have small := byte.toNat_lt
  exact format_value (by unfold maxParameterValue; omega)

theorem format_byte_digits (byte : UInt8) : ∀ wch ∈ formatByte byte, isNumericParamValue wch = true :=
  format_digits byte.toNat

theorem digits_not_delimiter (numeric : ∀ wch ∈ digits, isNumericParamValue wch = true) :
    0x3B ∉ digits ∧ 0x3A ∉ digits :=
  ⟨fun member => absurd (numeric _ member) (by decide), fun member => absurd (numeric _ member) (by decide)⟩

theorem dispatched_fields (fields : List (List WChar)) (nonempty : fields ≠ []) (few : fields.length ≤ maxParameterCount)
    (apart : ∀ field ∈ fields, 0x3B ∉ field) : dispatchedFields ([0x3B].intercalate fields) = fields.map parseField := by
  have split : fieldsOf ([0x3B].intercalate fields) = fields := splitOn_intercalate 0x3B apart nonempty
  have confined : SubParametersConfined ([0x3B].intercalate fields) := by
    rw [SubParametersConfined, split, drop_of_length_le few]
    exact .inl (fun field member => absurd member not_mem_nil)
  rw [dispatched_eq_intended_iff.mpr confined, intendedFields, split, take_of_length_le few]

theorem parse_digits (numeric : ∀ wch ∈ digits, isNumericParamValue wch = true) :
    parseField digits = (fieldValue digits, []) := by
  have split : digits.splitOn 0x3A = [digits] := by
    have joined : ([0x3A].intercalate [digits]).splitOn 0x3A = [digits] :=
      splitOn_intercalate 0x3A (by simpa using (digits_not_delimiter numeric).2) (cons_ne_nil _ _)
    rw [intercalate_singleton] at joined
    exact joined
  rw [parseField, leadingDigits, subFields, split]
  rfl

theorem parse_sub_fields (few : groups.length ≤ maxSubParameterCount)
    (apart : ∀ field ∈ leading :: groups, 0x3A ∉ field) :
    parseField ([0x3A].intercalate (leading :: groups)) = (fieldValue leading, groups.map fieldValue) := by
  have split : ([0x3A].intercalate (leading :: groups)).splitOn 0x3A = leading :: groups :=
    splitOn_intercalate 0x3A apart (cons_ne_nil _ _)
  simp [parseField, leadingDigits, subFields, split, subValues, take_of_length_le few]

def renders (parameters : List WChar) (attr : TextAttribute) : TextAttribute :=
  applyGraphicsOptions (dispatchedFields parameters) attr

theorem rgb_color_bytes (red green blue : UInt8) : rgbColor red.toNat green.toNat blue.toNat = some (.rgb red green blue) := by
  have small : ∀ byte : UInt8, byte.toNat ≤ 255 := fun byte => le_of_lt_succ byte.toNat_lt
  rw [rgbColor, if_pos ⟨small red, small green, small blue⟩]
  simp

theorem table_color_byte (index : UInt8) : tableColor index.toNat = some (.index256 index) := by
  simp [tableColor, if_pos (le_of_lt_succ index.toNat_lt)]

theorem parse_literal (numeric : ∀ wch ∈ field, isNumericParamValue wch = true)
    (isValue : fieldValue field = some value) : parseField field = (some value, []) := by
  rw [parse_digits numeric, isValue]

theorem parse_byte (byte : UInt8) : parseField (formatByte byte) = (some byte.toNat, []) :=
  parse_literal (format_byte_digits byte) format_byte_value

theorem renders_rgb (isItem : colorItem = 38 ∨ colorItem = 48) (numeric : ∀ wch ∈ extended, isNumericParamValue wch = true)
    (isValue : fieldValue extended = some colorItem) :
    renders (extended ++ (asciiCode ";2;" ++ (formatByte red ++ (0x3B :: formatByte green ++ (0x3B :: formatByte blue))))) attr =
      applyColor colorItem (.rgb red green blue) attr := by
  have joined : extended ++ (asciiCode ";2;" ++ (formatByte red ++ (0x3B :: formatByte green ++ (0x3B :: formatByte blue)))) =
      [0x3B].intercalate [extended, asciiCode "2", formatByte red, formatByte green, formatByte blue] := by
    simp [asciiCode]
  have apart : ∀ field ∈ [extended, asciiCode "2", formatByte red, formatByte green, formatByte blue], 0x3B ∉ field := by
    simp only [forall_mem_cons, not_mem_nil, false_implies, implies_true, and_true]
    exact ⟨(digits_not_delimiter numeric).1, by decide, (digits_not_delimiter (format_byte_digits red)).1,
      (digits_not_delimiter (format_byte_digits green)).1, (digits_not_delimiter (format_byte_digits blue)).1⟩
  rw [renders, joined, dispatched_fields _ (by simp) (by simp [maxParameterCount]) apart]
  simp only [map_cons, parse_literal numeric isValue, parse_byte]
  rcases isItem with rfl | rfl <;>
  · show applyColorIf _ (rgbColor red.toNat green.toNat blue.toNat) attr = _
    rw [rgb_color_bytes]
    rfl

theorem renders_table (isItem : colorItem = 38 ∨ colorItem = 48)
    (numeric : ∀ wch ∈ extended, isNumericParamValue wch = true) (isValue : fieldValue extended = some colorItem) :
    renders (extended ++ (asciiCode ";5;" ++ formatByte index)) attr = applyColor colorItem (.index256 index) attr := by
  have joined : extended ++ (asciiCode ";5;" ++ formatByte index) =
    [0x3B].intercalate [extended, asciiCode "5", formatByte index] := by
    simp [asciiCode]
  have apart : ∀ field ∈ [extended, asciiCode "5", formatByte index], 0x3B ∉ field := by
    simp only [forall_mem_cons, not_mem_nil, false_implies, implies_true, and_true]
    exact ⟨(digits_not_delimiter numeric).1, by decide, (digits_not_delimiter (format_byte_digits index)).1⟩
  rw [renders, joined, dispatched_fields _ (by simp) (by simp [maxParameterCount]) apart]
  simp only [map_cons, parse_literal numeric isValue, parse_byte]
  rcases isItem with rfl | rfl <;>
  · show applyColorIf _ (tableColor index.toNat) attr = _
    rw [table_color_byte]
    rfl

def TextColor.Expressible (color : TextColor) : Prop := color.getType = .isIndex16 → color.getIndex < 16

theorem renders_foreground (expressible : color.Expressible) (attr : TextAttribute) :
    renders (foregroundSequence color) attr = attr.setForeground color := by
  cases color with
  | default => rfl
  | index16 index =>
    have all : ∀ index : Fin 16, renders (foregroundSequence (.index16 (ofNat index))) attr =
        attr.setForeground (.index16 (ofNat index)) := by
      intro index
      fin_cases index <;> rfl
    have whole := all ⟨index.toNat, lt_iff_toNat_lt.mp (expressible rfl)⟩
    rw [UInt8.ofNat_toNat] at whole
    exact whole
  | index256 index => exact renders_table (.inl rfl) (by decide) (by decide)
  | rgb red green blue => exact renders_rgb (.inl rfl) (by decide) (by decide)

theorem renders_background (expressible : color.Expressible) (attr : TextAttribute) :
    renders (backgroundSequence color) attr = attr.setBackground color := by
  cases color with
  | default => rfl
  | index16 index =>
    have all : ∀ index : Fin 16, renders (backgroundSequence (.index16 (ofNat index))) attr =
        attr.setBackground (.index16 (ofNat index)) := by
      intro index
      fin_cases index <;> rfl
    have whole := all ⟨index.toNat, lt_iff_toNat_lt.mp (expressible rfl)⟩
    rw [UInt8.ofNat_toNat] at whole
    exact whole
  | index256 index => exact renders_table (.inr rfl) (by decide) (by decide)
  | rgb red green blue => exact renders_rgb (.inr rfl) (by decide) (by decide)

theorem not_mem_intercalate (separator other : WChar) (different : other ≠ separator) (fields : List (List WChar))
    (apart : ∀ field ∈ fields, other ∉ field) : other ∉ [separator].intercalate fields := by
  induction fields with
  | nil => exact not_mem_nil
  | cons field rest ih =>
    have later := ih (fun field member => apart field (mem_cons_of_mem _ member))
    cases rest with
    | nil =>
      simpa using apart field mem_cons_self
    | cons next rest =>
      rw [intercalate_cons_cons, mem_append, mem_append, mem_singleton]
      rintro ((first | same) | last)
      · exact apart field mem_cons_self first
      · exact different same
      · exact later last

theorem renders_sub_fields (few : groups.length ≤ maxSubParameterCount)
    (numeric : ∀ field ∈ leading :: groups, ∀ wch ∈ field, isNumericParamValue wch = true) (attr : TextAttribute) :
    renders ([0x3A].intercalate (leading :: groups)) attr =
    applyGraphicsOptions [(fieldValue leading, groups.map fieldValue)] attr := by
  have apart : ∀ field ∈ leading :: groups, 0x3A ∉ field :=
    fun field member => (digits_not_delimiter (numeric field member)).2
  have whole := not_mem_intercalate 0x3A 0x3B (by decide) (leading :: groups)
    (fun field member => (digits_not_delimiter (numeric field member)).1)
  have fields := dispatched_fields [[0x3A].intercalate (leading :: groups)] (cons_ne_nil _ _)
    (by rw [length_singleton]; decide) (by simpa using whole)
  rw [intercalate_singleton, map_singleton, parse_sub_fields few apart] at fields
  rw [renders, fields]

theorem renders_underline_table :
    renders (asciiCode "58:5:" ++ formatByte index) attr = attr.setUnderlineColor (.index256 index) := by
  have joined : asciiCode "58:5:" ++ formatByte index = [0x3A].intercalate [asciiCode "58", asciiCode "5", formatByte index] := by
    simp [asciiCode]
  have numeric : ∀ field ∈ [asciiCode "58", asciiCode "5", formatByte index], ∀ wch ∈ field, isNumericParamValue wch =
    true := by
    simp only [forall_mem_cons, not_mem_nil, false_implies, implies_true, and_true]
    exact ⟨by decide, by decide, format_byte_digits index⟩
  rw [joined, renders_sub_fields (by simp [maxSubParameterCount]) numeric]
  simp only [map_cons, format_byte_value]
  show applyColorIf 58 (tableColor index.toNat) attr = _
  rw [table_color_byte]
  rfl

theorem renders_underline_rgb :
    renders (asciiCode "58:2::" ++ (formatByte red ++ (0x3A :: formatByte green ++ (0x3A :: formatByte blue)))) attr =
      attr.setUnderlineColor (.rgb red green blue) := by
  have joined : asciiCode "58:2::" ++ (formatByte red ++ (0x3A :: formatByte green ++ (0x3A :: formatByte blue))) =
      [0x3A].intercalate [asciiCode "58", asciiCode "2", [], formatByte red, formatByte green, formatByte blue] := by
    simp [asciiCode]
  have numeric : ∀ field ∈ [asciiCode "58", asciiCode "2", [], formatByte red, formatByte green, formatByte blue],
      ∀ wch ∈ field, isNumericParamValue wch = true := by
    simp only [forall_mem_cons, not_mem_nil, false_implies, implies_true, and_true]
    exact ⟨by decide, by decide, trivial, format_byte_digits red, format_byte_digits green, format_byte_digits blue⟩
  rw [joined, renders_sub_fields (by simp [maxSubParameterCount]) numeric]
  simp only [map_cons, format_byte_value]
  show applyColorIf 58 (rgbColor red.toNat green.toNat blue.toNat) attr = _
  rw [rgb_color_bytes]
  rfl

end Cogterm.Buffer
