import Cogterm.Library.SplitOn
import Cogterm.Parser.Machine

namespace Cogterm.VirtualTerminal

open AsciiChars ParserState Library List

-- The intended reading of a parameter string, independent of the parser.
def decimal (digits : List WChar) : Nat := digits.foldl (fun value digit => value * 10 + (digit.toNat - 0x30)) 0

def fieldValue (digits : List WChar) : VTParameter :=
  if digits.isEmpty then none else some (min (decimal digits) maxParameterValue)

def fieldsOf (parameters : List WChar) : List (List WChar) := parameters.splitOn 0x3B
def leadingDigits (field : List WChar) : List WChar := (field.splitOn 0x3A).headD []
def subFields (field : List WChar) : List (List WChar) := (field.splitOn 0x3A).tail
def subValues (group : List (List WChar)) : List VTParameter := (group.take maxSubParameterCount).map fieldValue

def parseField (field : List WChar) : VTParameter × List VTParameter :=
  (fieldValue (leadingDigits field), subValues (subFields field))

def intendedFields (parameters : List WChar) : List (VTParameter × List VTParameter) :=
  ((fieldsOf parameters).take maxParameterCount).map parseField

def isParameterByte (wch : WChar) : Bool :=
  isNumericParamValue wch || isParameterDelimiter wch || isSubParameterDelimiter wch

theorem decimal_snoc (digits : List WChar) (digit : WChar) :
    decimal (digits ++ [digit]) = decimal digits * 10 + (digit.toNat - 0x30) := by
  simp [decimal]

theorem field_value_snoc (digits : List WChar) (digit : WChar) :
    fieldValue (digits ++ [digit]) = some (accumulateTo digit ((fieldValue digits).getD 0)) := by
  have step := decimal_snoc digits digit
  cases digits with
  | nil =>
    simp only [fieldValue, nil_append, isEmpty_cons, isEmpty_nil, Bool.false_eq_true, if_false, if_true, Option.getD_none,
      accumulateTo, decimal, foldl_cons, foldl_nil]
    congr 1
    split <;> omega
  | cons head tail =>
    simp only [fieldValue, cons_append, isEmpty_cons, Bool.false_eq_true, if_false, Option.getD_some, accumulateTo] at *
    congr 1
    split <;> omega

theorem accumulate_last_field (values : List VTParameter) (digits : List WChar) (digit : WChar) :
    accumulateLast digit (values ++ [fieldValue digits]) = values ++ [fieldValue (digits ++ [digit])] := by
  simp [accumulateLast, field_value_snoc]

def subRanges : Nat → List (List (List WChar)) → List (Nat × Nat)
  | _, [] => []
  | start, group :: rest => (start, start + (subValues group).length) :: subRanges (start + (subValues group).length) rest

theorem sub_ranges_snoc (start : Nat) (groups : List (List (List WChar))) (group : List (List WChar)) :
    subRanges start (groups ++ [group]) = subRanges start groups ++
      [(start + (groups.flatMap subValues).length, start + (groups.flatMap subValues).length + (subValues group).length)] := by
  induction groups generalizing start with
  | nil => simp [subRanges]
  | cons head tail ih => simp [subRanges, ih, Nat.add_assoc]

theorem sub_values_length (group : List (List WChar)) : (subValues group).length = min maxSubParameterCount group.length := by
  simp [subValues]

theorem flat_sub_values_length (groups : List (List (List WChar))) : (groups.flatMap subValues).length ≤ groups.length * 6 := by
  induction groups with
  | nil => simp
  | cons head tail ih =>
    have bound := sub_values_length head
    simp only [flatMap_cons, length_append, length_cons, maxSubParameterCount] at *
    omega

-- The flat vectors of the parser spell out the value of every open parameter
-- and, group by group, its first six sub-parameters.
structure Collects (parser : ParserState) (values : List VTParameter) (closed : List (List (List WChar)))
    (current : List (List WChar)) : Prop where
  parameters : parser.parameters = values
  subParameters : parser.subParameters = (closed ++ [current]).flatMap subValues
  ranges : parser.subParameterRanges = subRanges 0 (closed ++ [current])
  counter : parser.subParameterCounter = min maxSubParameterCount current.length
  overflowed : parser.subParameterLimitOverflowed = true ↔ maxSubParameterCount < current.length
  count : values.length = closed.length + 1
  bound : values.length ≤ maxParameterCount

theorem collects_next (collects : Collects parser values closed current) (room : values.length < maxParameterCount) :
    Collects parser.nextParameter (values ++ [none]) (closed ++ [current]) [] := by
  have short := flat_sub_values_length (closed ++ [current])
  have small : ((closed ++ [current]).flatMap subValues).length % 256 = ((closed ++ [current]).flatMap subValues).length := by
    apply Nat.mod_eq_of_lt
    have count := collects.count
    simp only [length_append, length_singleton, maxParameterCount] at *
    omega
  refine ⟨by simp [nextParameter, collects.parameters], ?_, ?_, rfl, by simp [nextParameter], ?_, ?_⟩
  · simpa [nextParameter, subValues] using collects.subParameters
  · rw [sub_ranges_snoc]
    simp only [nextParameter, collects.ranges, collects.subParameters, small]
    simp [subValues]
  · simp [collects.count]
  · simp only [length_append, length_singleton]
    omega

theorem collects_digit (collects : Collects parser (values ++ [fieldValue digits]) closed current) :
    Collects { parser with parameters := accumulateLast digit parser.parameters }
      (values ++ [fieldValue (digits ++ [digit])]) closed current := by
  refine { collects with parameters := ?_, count := ?_, bound := ?_ }
  · rw [collects.parameters, accumulate_last_field]
  · simpa using collects.count
  · simpa using collects.bound

theorem collects_colon (collects : Collects parser values closed current) (room : current.length < maxSubParameterCount) :
    Collects
      { parser with
        subParameters := parser.subParameters ++ [none]
        subParameterRanges := extendLastRange parser.subParameterRanges
        subParameterCounter := (parser.subParameterCounter + 1) % 256 }
      values closed (current ++ [[]]) := by
  have opened : subValues (current ++ [[]]) = subValues current ++ [none] := by
    have fits : (current ++ [[]]).length ≤ maxSubParameterCount := by simpa using Nat.succ_le_of_lt room
    rw [subValues, subValues, take_of_length_le fits, take_of_length_le (by omega)]
    simp [fieldValue]
  have short := flat_sub_values_length closed
  have counted := collects.count
  have bounded := collects.bound
  have grown := sub_values_length current
  simp only [maxSubParameterCount, maxParameterCount] at *
  refine ⟨collects.parameters, ?_, ?_, ?_, ?_, counted, bounded⟩
  · simp [collects.subParameters, opened]
  · have wrapped : (0 + (closed.flatMap subValues).length + (subValues current).length + 1) % 256 =
        0 + (closed.flatMap subValues).length + ((subValues current).length + 1) := by omega
    simp only [collects.ranges, extendLastRange, sub_ranges_snoc, getLast?_append, getLast?_singleton,
      Option.some_or, dropLast_concat, wrapped, opened, length_append, length_singleton]
  · simp only [collects.counter, length_append, length_singleton, maxSubParameterCount]
    omega
  · rw [collects.overflowed, length_append, length_singleton, maxSubParameterCount]
    omega

theorem collects_sub_digit
    (collects : Collects parser values closed (group ++ [digits])) (room : (group ++ [digits]).length ≤ maxSubParameterCount) :
    Collects { parser with subParameters := accumulateLast digit parser.subParameters } values closed
      (group ++ [digits ++ [digit]]) := by
  have split (last : List WChar) : subValues (group ++ [last]) = group.map fieldValue ++ [fieldValue last] := by
    rw [subValues, take_of_length_le (by simpa using room)]
    simp
  refine ⟨collects.parameters, ?_, ?_, ?_, ?_, collects.count, collects.bound⟩
  · simp [collects.subParameters, split, ← append_assoc, accumulate_last_field]
  · simp [collects.ranges, sub_ranges_snoc, split]
  · simpa using collects.counter
  · simpa using collects.overflowed

theorem collects_ignored {next : List (List WChar)} (collects : Collects parser values closed current)
    (full : maxSubParameterCount ≤ current.length) (same : next.take maxSubParameterCount = current.take maxSubParameterCount)
    (flag : parser.subParameterLimitOverflowed = true ↔ maxSubParameterCount < next.length)
    (longer : current.length ≤ next.length) : Collects parser values closed next := by
  have equal : subValues next = subValues current := by simp [subValues, same]
  refine ⟨collects.parameters, ?_, ?_, ?_, flag, collects.count, collects.bound⟩
  · simpa only [flatMap_append, flatMap_singleton, equal] using collects.subParameters
  · simpa only [sub_ranges_snoc, equal] using collects.ranges
  · rw [collects.counter]
    omega

theorem collects_overflow (collects : Collects parser values closed current) (full : maxSubParameterCount ≤ current.length) :
    Collects { parser with subParameterLimitOverflowed := true } values closed (current ++ [[]]) := by
  have same : subValues (current ++ [[]]) = subValues current := by simp [take_append_of_le_length full, subValues]
  have counter := collects.counter
  have length : (current ++ [[]]).length = current.length + 1 := by simp
  refine ⟨collects.parameters, ?_, ?_, ?_, ?_, collects.count, collects.bound⟩
  · simpa only [flatMap_append, flatMap_singleton, same] using collects.subParameters
  · simpa only [sub_ranges_snoc, same] using collects.ranges
  · simp only [length]
    omega
  · simp only [true_iff]
    omega

end Cogterm.VirtualTerminal
