import Mathlib.Data.List.Basic

namespace Cogterm.Library

open List

section

variable {α β : Type} (encode : α → List β)

-- A piece of a code at the end of what was read: nothing, or the begin of the
-- code of what comes next.
def Pending (piece : List β) (left : List α) : Prop :=
  piece = [] ∨ ∃ next more tail, left = next :: more ∧ tail ≠ [] ∧ encode next = piece ++ tail

theorem pending_end (nonempty : ∀ first, encode first ≠ []) (pending : Pending encode piece left)
    (whole : piece = left.flatMap encode) : left = [] := by
  rcases pending with none | ⟨next, more, tail, isLeft, incomplete, isCode⟩
  · rw [none] at whole
    refine eq_nil_iff_forall_not_mem.mpr (fun first member => nonempty first ?_)
    exact flatMap_eq_nil_iff.mp whole.symm first member
  · rw [isLeft, flatMap_cons, isCode, append_assoc] at whole
    have rest := self_eq_append_right.mp whole
    exact absurd (append_eq_nil_iff.mp rest).1 incomplete

theorem cut_code (front : List β) (split : front ++ rest = text.flatMap encode) :
    ∃ done left piece, text = done ++ left ∧ front = done.flatMap encode ++ piece ∧ Pending encode piece left := by
  induction text generalizing front with
  | nil => exact ⟨[], [], [], rfl, (append_eq_nil_iff.mp split).1, .inl rfl⟩
  | cons first more ih =>
    rw [flatMap_cons] at split
    by_cases complete : (encode first).length ≤ front.length
    · obtain ⟨front', isFront⟩ := prefix_of_prefix_length_le ⟨_, split.symm⟩ ⟨rest, rfl⟩ complete
      rw [← isFront, append_assoc, append_cancel_left_eq] at split
      obtain ⟨done, left, piece, isText, isFront', pending⟩ := ih front' split
      refine ⟨first :: done, left, piece, ?_, ?_, pending⟩
      · simp [isText]
      · simp [← isFront, isFront']
    · obtain ⟨tail, isCode⟩ := prefix_of_prefix_length_le ⟨rest, rfl⟩ ⟨_, split.symm⟩ (Nat.le_of_not_le complete)
      refine ⟨[], first :: more, front, rfl, rfl, .inr ⟨first, more, tail, rfl, ?_, isCode.symm⟩⟩
      intro none
      rw [← isCode, none, append_nil] at complete
      exact complete (Nat.le_refl _)

theorem pending_step (pending : Pending encode piece (done ++ left))
    (isFront : piece ++ chunk = done.flatMap encode ++ piece') (pending' : Pending encode piece' left) :
    (piece = [] ∧ chunk = done.flatMap encode ++ piece') ∨
    (piece ≠ [] ∧ done = [] ∧ piece' = piece ++ chunk ∧ ∃ next tail, tail ≠ [] ∧
      encode next = piece ++ (chunk ++ tail)) ∨
    (piece ≠ [] ∧ ∃ next done' tail, done = next :: done' ∧ tail ≠ [] ∧ encode next = piece ++ tail ∧
      chunk = tail ++ (done'.flatMap encode ++ piece')) := by
  by_cases nothing : piece = []
  · rw [nothing] at isFront
    exact .inl ⟨nothing, isFront⟩
  obtain ⟨next, more, tail, isNext, incomplete, isCode⟩ := pending.resolve_left nothing
  cases done with
  | nil =>
    rw [flatMap_nil, nil_append] at isFront
    have begun : piece' ≠ [] := by
      rw [← isFront]
      exact fun none => nothing (append_eq_nil_iff.mp none).1
    obtain ⟨other, others, tail', isOther, incomplete', isCode'⟩ := pending'.resolve_left begun
    exact .inr (.inl ⟨nothing, rfl, isFront.symm, other, tail', incomplete', by simp [isCode', ← isFront]⟩)
  | cons first done' =>
    rw [cons_append, List.cons.injEq] at isNext
    rw [flatMap_cons, isNext.1, isCode, append_assoc, append_assoc, append_cancel_left_eq] at isFront
    rw [isNext.1]
    exact .inr (.inr ⟨nothing, next, done', tail, rfl, incomplete, isCode, isFront⟩)

end

variable {α β γ σ : Type} (encode : α → List β) (decode : α → List γ)

-- A step reads a chunk and returns what is complete. The state keeps the piece
-- that is left over.
def Streams (step : List β → σ → Option (List γ × σ)) (Holds : σ → List β → Prop) (Short : List β → Prop) :
    Prop :=
  ∀ state piece chunk done left piece', Holds state piece → Pending encode piece (done ++ left) → Short chunk →
    piece ++ chunk = done.flatMap encode ++ piece' → Pending encode piece' left →
    ∃ state', step chunk state = some (done.flatMap decode, state') ∧ Holds state' piece'

def runChunks (step : List β → σ → Option (List γ × σ)) : List (List β) → σ → Option (List γ × σ)
  | [], state => some ([], state)
  | chunk :: rest, state =>
    match step chunk state with
    | none => none
    | some (out, state') =>
      match runChunks step rest state' with
      | none => none
      | some (more, final) => some (out ++ more, final)

theorem streams_run (nonempty : ∀ first, encode first ≠ []) (streams : Streams encode decode step Holds Short)
    (short : ∀ chunk ∈ chunks, Short chunk) (state : σ) (piece : List β) (text : List α) (holds : Holds state piece)
    (pending : Pending encode piece text) (whole : piece ++ chunks.flatten = text.flatMap encode) :
    ∃ final, runChunks step chunks state = some (text.flatMap decode, final) ∧ Holds final [] := by
  induction chunks generalizing state piece text with
  | nil =>
    rw [flatten_nil, append_nil] at whole
    have isEnd := pending_end encode nonempty pending whole
    rw [isEnd] at whole ⊢
    rw [whole] at holds
    exact ⟨state, rfl, holds⟩
  | cons chunk rest ih =>
    rw [flatten_cons, ← append_assoc] at whole
    obtain ⟨done, left, piece', isText, isFront, pending'⟩ := cut_code encode (piece ++ chunk) whole
    rw [isText] at pending whole
    obtain ⟨state', stepped, holds'⟩ := streams state piece chunk done left piece' holds pending
      (short chunk mem_cons_self) isFront pending'
    rw [isFront, append_assoc, flatMap_append, append_cancel_left_eq] at whole
    obtain ⟨final, ran, held⟩ := ih (fun other member => short other (mem_cons_of_mem _ member)) state' piece' left holds'
      pending' whole
    refine ⟨final, ?_, held⟩
    rw [runChunks, stepped]
    simp [ran, isText]

end Cogterm.Library
