import Mathlib.Algebra.Ring.Nat
import Mathlib.Data.List.Basic
import Mathlib.Data.List.Induction
import Mathlib.Data.List.Chain

namespace Cogterm.Library

open List

variable {α : Type}

structure Run (α : Type) where
  value : α
  length : Nat
deriving DecidableEq, Repr

def decode (runs : List (Run α)) : List α := runs.flatMap (fun run => replicate run.length run.value)

def totalLength (runs : List (Run α)) : Nat := (runs.map Run.length).sum

def Positive (runs : List (Run α)) : Prop := ∀ run ∈ runs, 0 < run.length

instance (runs : List (Run α)) : Decidable (Positive runs) := inferInstanceAs (Decidable (∀ run ∈ runs, 0 < run.length))

def Separated (runs : List (Run α)) : Prop := runs.IsChain (fun left right => left.value ≠ right.value)

structure Canonical (runs : List (Run α)) : Prop where
  positive : Positive runs
  separated : Separated runs

@[simp]
theorem decode_nil : decode ([] : List (Run α)) = [] := rfl

@[simp]
theorem decode_cons (run : Run α) (rest : List (Run α)) :
    decode (run :: rest) = replicate run.length run.value ++ decode rest := rfl

@[simp]
theorem decode_append (left right : List (Run α)) : decode (left ++ right) = decode left ++ decode right := by
  simp [decode]

@[simp]
theorem total_length_nil : totalLength ([] : List (Run α)) = 0 := rfl

@[simp]
theorem total_length_cons (run : Run α) (rest : List (Run α)) : totalLength (run :: rest) = run.length + totalLength rest := by
  simp [totalLength]

@[simp]
theorem total_length_append (left right : List (Run α)) :
    totalLength (left ++ right) = totalLength left + totalLength right := by
  simp [totalLength]

@[simp]
theorem decode_length (runs : List (Run α)) : (decode runs).length = totalLength runs := by
  induction runs with
  | nil => rfl
  | cons run rest ih => simp [ih]

@[simp]
theorem positive_append (left right : List (Run α)) : Positive (left ++ right) ↔ Positive left ∧ Positive right := by
  simp only [Positive, mem_append]
  constructor
  · intro all
    exact ⟨fun run member => all run (.inl member), fun run member => all run (.inr member)⟩
  · rintro ⟨allLeft, allRight⟩ run (member | member)
    · exact allLeft run member
    · exact allRight run member

variable {run : Run α}

@[simp]
theorem positive_cons : Positive (run :: rest) ↔ 0 < run.length ∧ Positive rest := by
  simp [Positive]

@[simp]
theorem positive_nil : Positive ([] : List (Run α)) := by simp [Positive]

theorem total_length_pos (positive : Positive runs) (nonempty : runs ≠ []) : 0 < totalLength runs := by
  cases runs with
  | nil => exact absurd rfl nonempty
  | cons run rest =>
    rw [positive_cons] at positive
    rw [total_length_cons]
    omega

theorem separated_iff_values (runs : List (Run α)) :
    Separated runs ↔ (runs.map Run.value).IsChain (fun left right => left ≠ right) := by
  rw [Separated, isChain_map]

theorem canonical_cons (positive : 0 < run.length) (canonical : Canonical runs)
    (different : ∀ first ∈ runs.head?, run.value ≠ first.value) : Canonical (run :: runs) := by
  refine ⟨positive_cons.mpr ⟨positive, canonical.positive⟩, ?_⟩
  cases runs with
  | nil => exact isChain_singleton run
  | cons next rest => exact isChain_cons_cons.mpr ⟨different next rfl, canonical.separated⟩

theorem canonical_singleton (positive : 0 < run.length) : Canonical [run] :=
  canonical_cons positive ⟨positive_nil, isChain_nil⟩ (by simp)

theorem decode_map_values (change : α → α) (runs : List (Run α)) :
    decode (runs.map (fun run => { run with value := change run.value })) = (decode runs).map change := by
  induction runs with
  | nil => rfl
  | cons run rest ih => simp [ih]

theorem decode_head (positive : Positive runs) : (decode runs).head? = runs.head?.map Run.value := by
  cases runs with
  | nil => rfl
  | cons run rest =>
    rw [positive_cons] at positive
    simp [head?_replicate, Nat.ne_of_gt positive.1]

theorem decode_last (positive : Positive runs) : (decode runs).getLast? = runs.getLast?.map Run.value := by
  cases runs using reverseRecOn with
  | nil => rfl
  | append_singleton init last =>
    rw [positive_append, positive_cons] at positive
    simp [getLast?_replicate, Nat.ne_of_gt positive.2.1]

def cutRuns : Nat → List (Run α) → List (Run α) × List (Run α)
  | _, [] => ([], [])
  | count, run :: rest =>
    if run.length ≤ count then
      (run :: (cutRuns (count - run.length) rest).1, (cutRuns (count - run.length) rest).2)
    else if count = 0 then ([], run :: rest)
    else ([⟨run.value, count⟩], ⟨run.value, run.length - count⟩ :: rest)

theorem decode_cut (count : Nat) (runs : List (Run α)) :
    decode (cutRuns count runs).1 = (decode runs).take count ∧ decode (cutRuns count runs).2 = (decode runs).drop count := by
  induction runs generalizing count with
  | nil => simp [cutRuns]
  | cons run rest ih =>
    obtain ⟨takeTail, dropTail⟩ := ih (count - run.length)
    rw [cutRuns]
    by_cases whole : run.length ≤ count
    · rw [if_pos whole]
      have shorter : min count run.length = run.length := by omega
      have none : run.length - count = 0 := by omega
      simp [takeTail, dropTail, take_append, drop_append, shorter, none]
    · rw [if_neg whole]
      by_cases none : count = 0
      · simp [none]
      · have inside : count - run.length = 0 := by omega
        have smaller : min count run.length = count := by omega
        simp [none, take_append, drop_append, inside, smaller]

theorem cut_positive (count : Nat) (positive : Positive runs) :
    Positive (cutRuns count runs).1 ∧ Positive (cutRuns count runs).2 := by
  induction runs generalizing count with
  | nil => simp [cutRuns]
  | cons run rest ih =>
    rw [positive_cons] at positive
    rw [cutRuns]
    by_cases whole : run.length ≤ count
    · rw [if_pos whole]
      obtain ⟨left, right⟩ := ih (count - run.length) positive.2
      exact ⟨positive_cons.mpr ⟨positive.1, left⟩, right⟩
    rw [if_neg whole]
    by_cases none : count = 0
    · rw [if_pos none]
      exact ⟨positive_nil, positive_cons.mpr positive⟩
    rw [if_neg none]
    refine ⟨?_, ?_⟩
    · simpa using Nat.pos_of_ne_zero none
    · rw [positive_cons]
      exact ⟨by simp only; omega, positive.2⟩

theorem cut_values (count : Nat) (runs : List (Run α)) : (cutRuns count runs).1.map Run.value <+: runs.map Run.value ∧
      (cutRuns count runs).2.map Run.value <:+ runs.map Run.value := by
  induction runs generalizing count with
  | nil => simp [cutRuns]
  | cons run rest ih =>
    obtain ⟨left, right⟩ := ih (count - run.length)
    rw [cutRuns]
    split
    · exact ⟨by simpa using left, by simpa using List.IsSuffix.trans right (suffix_cons _ _)⟩
    · split
      · simp
      · simp

theorem cut_separated (count : Nat) (separated : Separated runs) :
    Separated (cutRuns count runs).1 ∧ Separated (cutRuns count runs).2 := by
  obtain ⟨left, right⟩ := cut_values count runs
  rw [separated_iff_values] at separated
  simp only [separated_iff_values]
  constructor
  · exact List.IsChain.prefix separated left
  · exact List.IsChain.suffix separated right

variable {right : List (Run α)} {left : List (Run α)}

section

variable [DecidableEq α]

-- Concatenation that merges the two runs at the seam when they have one value.
def joinRuns : List (Run α) → List (Run α) → List (Run α)
  | [], right => right
  | [last], first :: rest =>
    if last.value = first.value then ⟨last.value, last.length + first.length⟩ :: rest else last :: first :: rest
  | run :: left, right => run :: joinRuns left right

theorem join_nil (left : List (Run α)) : joinRuns left [] = left := by
  induction left with
  | nil => rfl
  | cons run rest ih =>
    cases rest with
    | nil => rfl
    | cons next rest => exact congrArg (run :: ·) ih

theorem join_snoc_cons (before after : List (Run α)) (last first : Run α) : joinRuns (before ++ [last]) (first :: after) =
      if last.value = first.value then before ++ ⟨last.value, last.length + first.length⟩ :: after
      else before ++ last :: first :: after := by
  induction before with
  | nil => rfl
  | cons run rest ih =>
    have step : joinRuns (run :: rest ++ [last]) (first :: after) = run :: joinRuns (rest ++ [last]) (first :: after) := by
      cases rest with
      | nil => rfl
      | cons next rest => rfl
    rw [step, ih]
    split <;> rfl

theorem join_merged (before after : List (Run α)) (last first : Run α) (same : last.value = first.value) :
    joinRuns (before ++ [last]) (first :: after) = before ++ ⟨last.value, last.length + first.length⟩ :: after := by
  rw [join_snoc_cons, if_pos same]

def Apart (left right : List (Run α)) : Prop :=
  ∀ last ∈ left.getLast?, ∀ first ∈ right.head?, last.value ≠ first.value

theorem join_apart (left right : List (Run α)) (apart : Apart left right) : joinRuns left right = left ++ right := by
  cases right with
  | nil => simp [join_nil]
  | cons first after =>
    cases left using reverseRecOn with
    | nil => rfl
    | append_singleton before last =>
      have different : last.value ≠ first.value := apart last (by simp) first (by simp)
      simp [join_snoc_cons, if_neg different]

theorem join_cases (left right : List (Run α)) : (Apart left right ∧ joinRuns left right = left ++ right) ∨
      ∃ before last first after, left = before ++ [last] ∧ right = first :: after ∧ last.value = first.value ∧
        joinRuns left right = before ++ ⟨last.value, last.length + first.length⟩ :: after := by
  by_cases apart : Apart left right
  · exact .inl ⟨apart, join_apart left right apart⟩
  right
  simp only [Apart, not_forall, not_not] at apart
  obtain ⟨last, isLast, first, isFirst, same⟩ := apart
  obtain ⟨before, rfl⟩ := getLast?_eq_some_iff.mp isLast
  obtain ⟨after, rfl⟩ := head?_eq_some_iff.mp isFirst
  exact ⟨before, last, first, after, rfl, rfl, same, join_merged before after last first same⟩

theorem decode_join (left right : List (Run α)) : decode (joinRuns left right) = decode left ++ decode right := by
  rcases join_cases left right with ⟨_, joined⟩ | ⟨before, last, first, after, rfl, rfl, same, joined⟩
  · simp [joined]
  · rw [joined]
    simp [← same, ← replicate_append_replicate]

theorem join_positive (leftPositive : Positive left) (rightPositive : Positive right) : Positive (joinRuns left right) := by
  rcases join_cases left right with ⟨_, joined⟩ | ⟨before, last, first, after, rfl, rfl, same, joined⟩
  · simpa [joined] using ⟨leftPositive, rightPositive⟩
  · rw [joined]
    simp only [positive_append, positive_cons] at *
    exact ⟨leftPositive.1, by omega, rightPositive.2⟩

theorem join_separated (leftSeparated : Separated left) (rightSeparated : Separated right) : Separated (joinRuns left right) := by
  rcases join_cases left right with ⟨apart, joined⟩ | ⟨before, last, first, after, rfl, rfl, same, joined⟩
  · rw [joined, Separated, isChain_append]
    exact ⟨leftSeparated, rightSeparated, apart⟩
  rw [joined]
  -- The merged run has the value of both, so the two chains meet in it.
  rw [separated_iff_values] at leftSeparated rightSeparated ⊢
  rw [map_append, map_cons, isChain_split]
  refine ⟨by simpa using leftSeparated, ?_⟩
  rw [map_cons, ← same] at rightSeparated
  exact rightSeparated

theorem join_append_left (nonempty : left ≠ []) : joinRuns (before ++ left) right = before ++ joinRuns left right := by
  cases right with
  | nil => simp [join_nil]
  | cons first after =>
    obtain ⟨init, last, rfl⟩ := eq_nil_or_concat' left |>.resolve_left nonempty
    rw [← append_assoc, join_snoc_cons, join_snoc_cons]
    split <;> simp

end

def bumpFirst (extra : Nat) : List (Run α) → List (Run α)
  | [] => []
  | run :: rest => { run with length := run.length + extra } :: rest

def bumpLast (extra : Nat) : List (Run α) → List (Run α)
  | [] => []
  | [run] => [{ run with length := run.length + extra }]
  | run :: next :: rest => run :: bumpLast extra (next :: rest)

theorem bump_first_zero (runs : List (Run α)) : bumpFirst 0 runs = runs := by
  cases runs with
  | nil => rfl
  | cons run rest => rfl

theorem bump_last_snoc : bumpLast extra (before ++ [last]) = before ++ [{ last with length := last.length + extra }] := by
  induction before with
  | nil => rfl
  | cons run rest ih =>
    cases rest with
    | nil => rfl
    | cons next rest => exact congrArg (run :: ·) ih

theorem bump_last_zero (runs : List (Run α)) : bumpLast 0 runs = runs := by
  cases runs using reverseRecOn with
  | nil => rfl
  | append_singleton before last => exact bump_last_snoc

theorem bump_first_ne_nil (nonempty : runs ≠ []) : bumpFirst extra runs ≠ [] := by
  cases runs with
  | nil => exact absurd rfl nonempty
  | cons run rest => simp [bumpFirst]

theorem bump_first_values (extra : Nat) (runs : List (Run α)) : (bumpFirst extra runs).map Run.value = runs.map Run.value := by
  cases runs with
  | nil => rfl
  | cons run rest => rfl

variable [DecidableEq α]

theorem join_bump_first (same : ∀ first ∈ right.head?, last.value = first.value)
    (nonempty : right ≠ []) : joinRuns (before ++ [last]) right = before ++ bumpFirst last.length right := by
  cases right with
  | nil => exact absurd rfl nonempty
  | cons first after =>
    have equal := same first rfl
    rw [join_merged before after last first equal, bumpFirst, equal, Nat.add_comm]

theorem join_bump_last {after : List (Run α)} (same : ∀ last ∈ left.getLast?, last.value = first.value)
    (nonempty : left ≠ []) : joinRuns left (first :: after) = bumpLast first.length left ++ after := by
  obtain ⟨init, last, rfl⟩ := eq_nil_or_concat' left |>.resolve_left nonempty
  have equal := same last (by simp)
  simp [join_merged init after last first equal, bump_last_snoc]

end Cogterm.Library
