import Cogterm.Rle.Operations

namespace Cogterm.Til

open Library Rle List Option Nat

variable {T : Type} [DecidableEq T] {replacements : List (Run T)} {runs : List (Run T)}

section

variable {startIndex endIndex : Nat}

theorem replace_unchecked_result (wellFormed : WellFormed width rle) (order : startIndex ≤ endIndex)
    (inside : endIndex ≤ rle.total) (fits : rle.total - (endIndex - startIndex) + totalLength replacements < 2 ^ width) :
    rle.replaceUnchecked width startIndex endIndex replacements =
      ⟨joinRuns (joinRuns (cutRuns startIndex rle.runs).1 replacements) (cutRuns endIndex rle.runs).2,
        rle.total - (endIndex - startIndex) + totalLength replacements⟩ := by
  obtain ⟨canonical, total, small⟩ := wellFormed
  have removed := size_sub_eq (endIndex - startIndex) small (by omega)
  cases replacements with
  | nil =>
    have runs := remove_unchecked_runs canonical.positive total small order inside
    rw [join_nil, ← runs, total_length_nil, ← removed]
    rfl
  | cons front others =>
    have runs := replace_unchecked_runs canonical.positive total small order inside fits
    rw [← runs, ← fold_size_add _ fits, ← removed]
    rfl

theorem decode_replaced {rle : Rle T} :
    decode (joinRuns (joinRuns (cutRuns startIndex rle.runs).1 replacements) (cutRuns endIndex rle.runs).2) =
      (decode rle.runs).take startIndex ++ decode replacements ++ (decode rle.runs).drop endIndex := by
  simp [decode_join, (decode_cut startIndex rle.runs).1, (decode_cut endIndex rle.runs).2]

theorem replaced_total {rle : Rle T} (replacements : List (Run T))
    (total : rle.total = totalLength rle.runs) (order : startIndex ≤ endIndex) (inside : endIndex ≤ rle.total) :
    totalLength (joinRuns (joinRuns (cutRuns startIndex rle.runs).1 replacements) (cutRuns endIndex rle.runs).2) =
      rle.total - (endIndex - startIndex) + totalLength replacements := by
  rw [← decode_length, decode_replaced]
  simp only [length_append, length_take, length_drop, decode_length]
  omega

theorem replaced_canonical (canonical : Canonical runs) (replacing : Canonical replacements) :
    Canonical (joinRuns (joinRuns (cutRuns startIndex runs).1 replacements) (cutRuns endIndex runs).2) := by
  obtain ⟨leftPositive, _⟩ := cut_positive startIndex canonical.positive
  obtain ⟨_, rightPositive⟩ := cut_positive endIndex canonical.positive
  obtain ⟨leftSeparated, _⟩ := cut_separated startIndex canonical.separated
  obtain ⟨_, rightSeparated⟩ := cut_separated endIndex canonical.separated
  exact ⟨join_positive (join_positive leftPositive replacing.positive) rightPositive,
    join_separated (join_separated leftSeparated replacing.separated) rightSeparated⟩

theorem replace_unchecked_well_formed (wellFormed : WellFormed width rle)
    (startIndex endIndex : Nat) (replacements : List (Run T)) (order : startIndex ≤ endIndex) (inside : endIndex ≤ rle.total)
    (fits : rle.total - (endIndex - startIndex) + totalLength replacements < 2 ^ width) (replacing : Canonical replacements) :
    WellFormed width (rle.replaceUnchecked width startIndex endIndex replacements) ∧
      decode (rle.replaceUnchecked width startIndex endIndex replacements).runs =
        (decode rle.runs).take startIndex ++ decode replacements ++ (decode rle.runs).drop endIndex := by
  rw [replace_unchecked_result wellFormed order inside fits]
  refine ⟨⟨replaced_canonical wellFormed.canonical replacing, ?_, fits⟩, decode_replaced⟩
  exact (replaced_total replacements wellFormed.total order inside).symm

end

section

def Neighbour (values : List T) (position : Nat) (value : T) : Prop :=
  (values.take position).getLast? = some value ∨ (values.drop position).head? = some value

instance (values : List T) (position : Nat) (value : T) : Decidable (Neighbour values position value) :=
  inferInstanceAs (Decidable (_ ∨ _))

omit [DecidableEq T] in
theorem neighbour_iff (positive : Positive runs) (position : Nat) (value : T) :
    Neighbour (decode runs) position value ↔ (cutRuns position runs).1.getLast?.map Run.value = some value ∨
        (cutRuns position runs).2.head?.map Run.value = some value := by
  obtain ⟨left, right⟩ := cut_positive position positive
  rw [Neighbour, ← (decode_cut position runs).1, ← (decode_cut position runs).2, decode_last left, decode_head right]

theorem join_empty_run {value : T} (near : left.getLast?.map Run.value = some value ∨ right.head?.map Run.value = some value) :
    joinRuns (joinRuns left [⟨value, 0⟩]) right = joinRuns left right := by
  by_cases before : left.getLast?.map Run.value = some value
  · obtain ⟨last, isLast, same⟩ := map_eq_some_iff.mp before
    obtain ⟨init, rfl⟩ := getLast?_eq_some_iff.mp isLast
    simp [join_merged init [] last ⟨value, 0⟩ same]
  have apart : ∀ last ∈ left.getLast?, last.value ≠ value := by
    intro last isLast same
    rw [mem_def.mp isLast, map_some, same] at before
    exact before rfl
  obtain ⟨first, isFirst, same⟩ := map_eq_some_iff.mp (near.resolve_left before)
  obtain ⟨rest, rfl⟩ := head?_eq_some_iff.mp isFirst
  subst same
  have merged : joinRuns [⟨first.value, 0⟩] (first :: rest) = first :: rest := by
    have joined := join_merged [] rest ⟨first.value, 0⟩ first rfl
    rw [Nat.zero_add] at joined
    exact joined
  rw [join_apart left [⟨first.value, 0⟩] (by simpa [Apart] using apart), join_append_left (by simp), merged]
  symm
  apply join_apart
  intro last isLast head isHead
  rw [head?_cons, mem_some_iff] at isHead
  rw [← isHead]
  exact apart last isLast

theorem join_empty_run_stays {value : T}
    (far : ¬ (left.getLast?.map Run.value = some value ∨ right.head?.map Run.value = some value)) :
    ¬ Positive (joinRuns (joinRuns left [⟨value, 0⟩]) right) := by
  have leftApart : Apart left [⟨value, 0⟩] := by
    intro last isLast first isFirst same
    rw [head?_cons, mem_some_iff] at isFirst
    rw [mem_def.mp isLast, map_some, same, ← isFirst] at far
    exact far (.inl rfl)
  have rightApart : Apart (left ++ [⟨value, 0⟩]) right := by
    intro last isLast first isFirst same
    rw [getLast?_concat, mem_some_iff] at isLast
    rw [mem_def.mp isFirst, map_some, ← same, ← isLast] at far
    exact far (.inr rfl)
  rw [join_apart _ _ leftApart, join_apart _ _ rightApart]
  intro positive
  exact absurd (positive ⟨value, 0⟩ (by simp)) (lt_irrefl 0)

end

-- The operations that make a new value, with the arguments they are given.
-- replaceRuns takes a canonical list and a size is a value of the size type.
inductive Operation (T : Type) (width : Nat) where
  | slice (startIndex endIndex : Nat)
  | replaceValue (startIndex endIndex : Nat) (value : T)
  | replaceRuns (startIndex endIndex : Nat) (replacements : List (Run T)) (canonical : Canonical replacements)
  | replaceValues (oldValue newValue : T)
  | resizeTrailingExtent (newSize : Nat) (fits : newSize < 2 ^ width)

namespace Operation

def run {width : Nat} (rle : Rle T) : Operation T width → Option (Rle T)
  | slice startIndex endIndex => some (rle.slice width startIndex endIndex)
  | replaceValue startIndex endIndex value => rle.replaceValue width startIndex endIndex value
  | replaceRuns startIndex endIndex replacements _ => rle.replaceRuns width startIndex endIndex replacements
  | replaceValues oldValue newValue => some (rle.replaceValues width oldValue newValue)
  | resizeTrailingExtent newSize _ => rle.resizeTrailingExtent width newSize

def onList {width : Nat} (values : List T) : Operation T width → Option (List T)
  | slice startIndex endIndex => some ((values.take endIndex).drop startIndex)
  | replaceValue startIndex endIndex value =>
    if startIndex > min endIndex values.length then none
    else some (values.take startIndex ++ replicate (min endIndex values.length - startIndex) value ++ values.drop endIndex)
  | replaceRuns startIndex endIndex replacements _ =>
    if startIndex > min endIndex values.length then none
    else some (values.take startIndex ++ decode replacements ++ values.drop endIndex)
  | replaceValues oldValue newValue => some (values.map (fun value => if value = oldValue then newValue else value))
  | resizeTrailingExtent newSize _ =>
    if newSize ≤ values.length then some (values.take newSize)
    else values.getLast?.map (fun last => values ++ replicate (newSize - values.length) last)

def Agrees {width : Nat} (rle : Rle T) (operation : Operation T width) : Prop :=
  match operation.run rle, operation.onList (decode rle.runs) with
  | some result, some values => WellFormed width result ∧ decode result.runs = values
  | none, none => True
  | _, _ => False

-- An empty range is only replaced by a value that stands next to it, and the
-- replaced sequence is not longer than the size type allows.
def Safe {width : Nat} (rle : Rle T) : Operation T width → Prop
  | replaceValue startIndex endIndex value =>
    startIndex ≠ min endIndex rle.total ∨ Neighbour (decode rle.runs) startIndex value
  | replaceRuns startIndex endIndex replacements _ =>
    startIndex > min endIndex rle.total ∨
      rle.total - (min endIndex rle.total - startIndex) + totalLength replacements < 2 ^ width
  | _ => True

omit [DecidableEq T] in
theorem drop_clamped (values : List T) (index : Nat) : values.drop (min index values.length) = values.drop index := by
  by_cases inside : index ≤ values.length
  · simp
  · simp

variable {width : Nat} {rle : Rle T}

theorem slice_agrees (wellFormed : WellFormed width rle) (startIndex endIndex : Nat) :
    Agrees rle (.slice startIndex endIndex : Operation T width) := by
  have total := wellFormed.total
  have fits := wellFormed.fits
  have canonical := wellFormed.canonical
  by_cases order : startIndex < min endIndex rle.total
  · have positive := (cut_positive (min endIndex rle.total) canonical.positive).1
    have separated := (cut_separated (min endIndex rle.total) canonical.separated).1
    have size : (rle.slice width startIndex endIndex).total = min endIndex rle.total - startIndex := by
      simp [Rle.slice, not_le.mpr order]
    have decoded : decode (rle.slice width startIndex endIndex).runs = ((decode rle.runs).take endIndex).drop startIndex := by
      rw [slice_runs wellFormed order, (decode_cut _ _).2, (decode_cut _ _).1, total, ← decode_length, ← take_eq_take_min]
    refine ⟨⟨?_, ?_, ?_⟩, decoded⟩
    · rw [slice_runs wellFormed order]
      exact ⟨(cut_positive startIndex positive).2, (cut_separated startIndex separated).2⟩
    · rw [size, ← decode_length, decoded, length_drop, length_take, decode_length, ← total]
    · omega
  · have empty : rle.slice width startIndex endIndex = ⟨[], 0⟩ := by
      simp only [Rle.slice]
      rw [if_pos (not_lt.mp order)]
    have nothing : ((decode rle.runs).take endIndex).drop startIndex = [] := by
      apply drop_eq_nil_of_le
      rw [length_take, decode_length]
      omega
    simp only [Agrees, run, onList, empty, nothing]
    exact ⟨⟨⟨positive_nil, isChain_nil⟩, rfl, Nat.two_pow_pos width⟩, rfl⟩

theorem agrees_ran {operation : Operation T width} (agrees : Agrees rle operation) (ran : operation.run rle = some result) :
    WellFormed width result ∧ operation.onList (decode rle.runs) = some (decode result.runs) := by
  rw [Agrees, ran] at agrees
  cases listed : operation.onList (decode rle.runs) with
  | none =>
    rw [listed] at agrees
    exact agrees.elim
  | some values =>
    rw [listed] at agrees
    exact ⟨agrees.1, congrArg some agrees.2.symm⟩

theorem agrees_listed {operation : Operation T width} (agrees : Agrees rle operation)
    (listed : operation.onList (decode rle.runs) = some values) :
    ∃ result, operation.run rle = some result ∧ WellFormed width result ∧ decode result.runs = values := by
  rw [Agrees, listed] at agrees
  cases ran : operation.run rle with
  | none =>
    rw [ran] at agrees
    exact agrees.elim
  | some result =>
    rw [ran] at agrees
    exact ⟨result, rfl, agrees⟩

theorem resize_agrees (wellFormed : WellFormed width rle) (fits : newSize < 2 ^ width) :
    Agrees rle (.resizeTrailingExtent newSize fits) := by
  have total := wellFormed.total
  have canonical := wellFormed.canonical
  have decoded := decode_cut newSize rle.runs
  simp only [Agrees, run, onList, decode_length]
  rcases lt_trichotomy newSize rle.total with shorter | same | longer
  · rw [if_pos (by omega)]
    by_cases none : newSize = 0
    · simp only [none]
      exact ⟨⟨⟨positive_nil, isChain_nil⟩, rfl, Nat.two_pow_pos width⟩, rfl⟩
    rw [resize_shrinks wellFormed none shorter]
    refine ⟨⟨⟨(cut_positive newSize canonical.positive).1, (cut_separated newSize canonical.separated).1⟩, ?_, fits⟩,
      decoded.1⟩
    rw [← decode_length, decoded.1, length_take, decode_length]
    simp only
    omega
  · have kept : rle.resizeTrailingExtent width newSize = some rle := by
      by_cases none : newSize = 0
      · have empty : rle.runs = [] := by
          by_contra nonempty
          have positive := total_length_pos canonical.positive nonempty
          omega
        simp [Rle.resizeTrailingExtent, ← empty, ← none, same]
      · rw [Rle.resizeTrailingExtent, if_neg none, if_neg (by omega), if_neg (by omega), same]
    rw [kept, if_pos (by omega)]
    refine ⟨wellFormed, ?_⟩
    rw [take_of_length_le (by rw [decode_length]; omega)]
  · rw [resize_grows width rle wellFormed newSize longer fits, if_neg (by omega), decode_last canonical.positive, ← total]
    cases found : rle.runs.getLast? with
    | none => trivial
    | some last =>
      have extension : Canonical [(⟨last.value, newSize - rle.total⟩ : Run T)] :=
        canonical_singleton (Nat.sub_pos_of_lt longer)
      have extended : decode (joinRuns rle.runs [⟨last.value, newSize - rle.total⟩]) =
          decode rle.runs ++ replicate (newSize - rle.total) last.value := by
        simp [decode_join]
      refine ⟨⟨⟨join_positive canonical.positive extension.positive,
        join_separated canonical.separated extension.separated⟩, ?_, fits⟩, extended⟩
      rw [← decode_length, extended, length_append, decode_length, length_replicate]
      simp only
      omega

theorem replace_runs_agrees_iff (wellFormed : WellFormed width rle) (startIndex endIndex : Nat)
    (canonical : Canonical replacements) :
    Agrees rle (.replaceRuns startIndex endIndex replacements canonical : Operation T width) ↔
      Safe rle (.replaceRuns startIndex endIndex replacements canonical : Operation T width) := by
  have total := wellFormed.total
  simp only [Agrees, Safe, run, onList, Rle.replaceRuns, checkIndices, decode_length, ← total]
  by_cases wrong : startIndex > min endIndex rle.total
  · simp [wrong]
  simp only [wrong, false_or]
  have clamped := drop_clamped (decode rle.runs) endIndex
  rw [decode_length, ← total] at clamped
  constructor
  · rintro ⟨result, decoded⟩
    have lengths := congrArg length decoded
    rw [decode_length, ← result.total] at lengths
    have bound := result.fits
    rw [lengths] at bound
    simp only [length_append, length_take, length_drop, decode_length] at bound
    omega
  · intro fits
    rw [← clamped]
    exact replace_unchecked_well_formed wellFormed startIndex (min endIndex rle.total) replacements (by omega)
      (by omega) fits canonical

theorem replace_value_agrees_iff (wellFormed : WellFormed width rle) (startIndex endIndex : Nat) (value : T) :
    Agrees rle (.replaceValue startIndex endIndex value : Operation T width) ↔
      Safe rle (.replaceValue startIndex endIndex value : Operation T width) := by
  have total := wellFormed.total
  have small := wellFormed.fits
  have canonical := wellFormed.canonical
  simp only [Agrees, Safe, run, onList, Rle.replaceValue, checkIndices, decode_length, ← total]
  by_cases wrong : startIndex > min endIndex rle.total
  · have different : startIndex ≠ min endIndex rle.total := by omega
    simp [wrong, different]
  have clamped := drop_clamped (decode rle.runs) endIndex
  rw [decode_length, ← total] at clamped
  simp only [if_neg wrong, map_some]
  rw [← clamped]
  generalize finish : min endIndex rle.total = last at *
  have single : decode [(⟨value, last - startIndex⟩ : Run T)] = replicate (last - startIndex) value := by simp
  by_cases empty : startIndex = last
  · subst empty
    have shape : rle.replaceUnchecked width startIndex startIndex [⟨value, startIndex - startIndex⟩] =
        ⟨joinRuns (joinRuns (cutRuns startIndex rle.runs).1 [⟨value, 0⟩]) (cutRuns startIndex rle.runs).2,
          rle.total⟩ := by
      rw [replace_unchecked_result wellFormed (by omega) (by omega)
        (by rw [total_length_cons, total_length_nil]; simp only; omega)]
      simp
    rw [shape, neighbour_iff canonical.positive]
    simp only [ne_eq, not_true_eq_false, false_or]
    constructor
    · intro result
      by_contra far
      exact join_empty_run_stays far result.1.canonical.positive
    · intro near
      have empty := replace_unchecked_well_formed wellFormed startIndex startIndex [] (by omega) (by omega)
        (by rw [total_length_nil]; omega) ⟨positive_nil, isChain_nil⟩
      rw [replace_unchecked_result wellFormed (by omega) (by omega) (by rw [total_length_nil]; omega), join_nil] at empty
      rw [join_empty_run near]
      simpa using empty
  · refine iff_of_true ?_ (.inl empty)
    rw [← single]
    apply replace_unchecked_well_formed wellFormed startIndex last _ (by omega) (by omega)
    · rw [total_length_cons, total_length_nil]
      simp only
      omega
    · exact canonical_singleton (by simp only; omega)

end Operation

theorem rle_operation_correct_iff {width : Nat} (rle : Rle T) (wellFormed : WellFormed width rle) :
    (∀ position, rle.atPosition width position = (decode rle.runs)[position]?) ∧
      ∀ operation : Operation T width, operation.Agrees rle ↔ operation.Safe rle := by
  refine ⟨at_position_decodes wellFormed, ?_⟩
  intro operation
  cases operation with
  | slice startIndex endIndex => exact iff_of_true (Operation.slice_agrees wellFormed startIndex endIndex) trivial
  | replaceValue startIndex endIndex value =>
    exact Operation.replace_value_agrees_iff wellFormed startIndex endIndex value
  | replaceRuns startIndex endIndex replacements canonical =>
    exact Operation.replace_runs_agrees_iff wellFormed startIndex endIndex canonical
  | replaceValues oldValue newValue =>
    exact iff_of_true (replace_values_result wellFormed) trivial
  | resizeTrailingExtent newSize fits => exact iff_of_true (Operation.resize_agrees wellFormed fits) trivial

theorem two_blanks_well_formed : WellFormed 16 (⟨[⟨' ', 2⟩], 2⟩ : Rle Char) :=
  ⟨canonical_singleton (by decide), rfl, by decide⟩

theorem rle_replace_half_correct :
    WellFormed 16 (⟨[⟨' ', 2⟩], 2⟩ : Rle Char) ∧
    (Operation.replaceValue 1 2 'x' : Operation Char 16).Agrees ⟨[⟨' ', 2⟩], 2⟩ :=
  ⟨two_blanks_well_formed, ((rle_operation_correct_iff _ two_blanks_well_formed).2 _).mpr (.inl (by decide))⟩

-- Replacing an empty range inside a run splits it around a run of length zero.
theorem rle_empty_replace_splits_run : WellFormed 16 (⟨[⟨' ', 2⟩], 2⟩ : Rle Char) ∧
      Rle.replaceValue 16 ⟨[⟨' ', 2⟩], 2⟩ 1 1 'x' = some ⟨[⟨' ', 1⟩, ⟨'x', 0⟩, ⟨' ', 1⟩], 2⟩ ∧
      ¬ (Operation.replaceValue 1 1 'x' : Operation Char 16).Agrees ⟨[⟨' ', 2⟩], 2⟩ := by
  refine ⟨two_blanks_well_formed, by decide, ?_⟩
  intro agrees
  exact absurd (agrees.1.canonical.positive ⟨'x', 0⟩ (by decide)) (lt_irrefl 0)

end Cogterm.Til
