import Mathlib.Data.List.Basic

namespace Cogterm.Library

open List

variable {α : Type} [DecidableEq α]

theorem split_on_snoc_separator (separator : α) (text : List α) :
    (text ++ [separator]).splitOn separator = text.splitOn separator ++ [[]] := by
  simpa using splitOn_append_cons_self (a := separator) text []

theorem split_on_snoc_other (different : element ≠ separator) (text : List α) :
    ∃ init last, text.splitOn separator = init ++ [last] ∧
      (text ++ [element]).splitOn separator = init ++ [last ++ [element]] := by
  induction text with
  | nil => exact ⟨[], [], by simp, by simp [splitOn_cons_eq_if_modifyHead, different]⟩
  | cons head tail ih =>
    obtain ⟨init, last, before, after⟩ := ih
    simp only [cons_append, splitOn_cons_eq_if_modifyHead, before, after]
    by_cases same : head == separator
    · exact ⟨[] :: init, last, by simp [same], by simp [same]⟩
    · cases init with
      | nil => exact ⟨[], head :: last, by simp [same], by simp [same]⟩
      | cons first rest => exact ⟨(head :: first) :: rest, last, by simp [same], by simp [same]⟩

theorem split_on_tail_eq_nil_iff (separator : α) (text : List α) :
    (text.splitOn separator).tail = [] ↔ separator ∉ text := by
  induction text with
  | nil => simp
  | cons head tail ih =>
    rw [splitOn_cons_eq_if_modifyHead]
    by_cases same : head = separator
    · simp [same]
    have nonempty := splitOn_ne_nil separator tail
    cases pieces : tail.splitOn separator with
    | nil => exact absurd pieces nonempty
    | cons first rest =>
      rw [pieces] at ih
      simpa [same, Ne.symm same] using ih

end Cogterm.Library
