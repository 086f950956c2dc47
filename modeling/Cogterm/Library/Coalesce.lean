import Mathlib.Data.List.Basic

namespace Cogterm.Library

-- An output is text, which may have been cut anywhere, or a mark, which may not.
inductive Output (α β : Type) where
  | text (string : List α)
  | mark (event : β)
deriving DecidableEq, Repr

variable {α β : Type}

def prepend : Output α β → List (Output α β) → List (Output α β)
  | .text [], rest => rest
  | .text (a :: s), .text t :: rest => .text (a :: s ++ t) :: rest
  | output, rest => output :: rest

def coalesce (outputs : List (Output α β)) : List (Output α β) := outputs.foldr prepend []

@[simp] theorem coalesce_nil : coalesce ([] : List (Output α β)) = [] := rfl

@[simp] theorem coalesce_cons (output : Output α β) (rest : List (Output α β)) :
    coalesce (output :: rest) = prepend output (coalesce rest) := rfl

theorem prepend_text_text (s t : List α) (rest : List (Output α β)) :
    prepend (.text s) (prepend (.text t) rest) = prepend (.text (s ++ t)) rest := by
  cases s with
  | nil => rfl
  | cons a s =>
    cases t with
    | nil => rw [List.append_nil]; rfl
    | cons b t =>
      cases rest with
      | nil => rfl
      | cons head tail =>
        cases head with
        | text u => simp [prepend]
        | mark event => rfl

theorem coalesce_prepend_append (output : Output α β) (left right : List (Output α β)) :
    coalesce (prepend output left ++ right) = prepend output (coalesce (left ++ right)) := by
  cases output with
  | mark event => rfl
  | text s =>
    cases s with
    | nil => rfl
    | cons a s =>
      cases left with
      | nil => rfl
      | cons head tail =>
        cases head with
        | mark event => rfl
        | text t => exact (prepend_text_text (a :: s) t (coalesce (tail ++ right))).symm

theorem coalesce_coalesce_append (left right : List (Output α β)) :
    coalesce (coalesce left ++ right) = coalesce (left ++ right) := by
  induction left with
  | nil => rfl
  | cons head tail ih => simp [coalesce_prepend_append, ih]

theorem coalesce_append_coalesce : coalesce (left ++ coalesce right) = coalesce (left ++ right) := by
  induction left with
  | nil => simpa using coalesce_coalesce_append right []
  | cons head tail ih => simp [ih]

theorem coalesce_append_congr (sameLeft : coalesce left = coalesce left')
    (sameRight : coalesce right = coalesce right') : coalesce (left ++ right) = coalesce (left' ++ right') := by
  rw [← coalesce_coalesce_append left, ← coalesce_append_coalesce, sameLeft, sameRight,
    coalesce_append_coalesce, coalesce_coalesce_append]

end Cogterm.Library
