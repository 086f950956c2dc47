import Mathlib.Data.List.Basic

namespace Cogterm.Library

open List

variable {State Operation : Type} (step : State → Operation → State)

def runs (start : State) (operations : List Operation) : State := operations.foldl step start

def reached (start : State) (operations : List Operation) (index : Nat) : State :=
  runs step start (operations.take index)

@[simp] theorem reached_zero (start : State) (operations : List Operation) : reached step start operations 0 = start := rfl

variable {operations : List Operation} {start : State} {index : Nat}

theorem reached_succ (present : operations[index]? = some operation) :
    reached step start operations (index + 1) = step (reached step start operations index) operation := by
  simp [reached, runs, take_add_one, present]

theorem reached_past (absent : operations[index]? = none) :
    reached step start operations (index + 1) = reached step start operations index := by
  simp [reached, take_add_one, absent]

theorem reached_length (start : State) (operations : List Operation) :
    reached step start operations operations.length = runs step start operations := by
  simp [reached]

theorem runs_related {Related : State → Other → Prop}
    (keeps : ∀ first second operation, Related first second → Related (step first operation) (other second operation))
    (operations : List Operation) {second : Other} (related : Related start second) :
    Related (runs step start operations) (runs other second operations) := by
  induction operations generalizing start second with
  | nil => exact related
  | cons operation operations ih => exact ih (keeps _ _ operation related)

def EveryState (start : State) (operations : List Operation) (Good : State → Prop) : Prop :=
  ∀ index, Good (reached step start operations index)

def EveryStep (start : State) (operations : List Operation) (Allowed : State → Operation → Prop) : Prop :=
  ∀ index operation, operations[index]? = some operation → Allowed (reached step start operations index) operation

instance decidableEveryStep (start : State) (operations : List Operation) (Allowed : State → Operation → Prop)
    [∀ state operation, Decidable (Allowed state operation)] : Decidable (EveryStep step start operations Allowed) :=
  decidable_of_iff (∀ index : Fin operations.length, Allowed (reached step start operations index) (operations.get index))
    ⟨fun all index operation present => by
      obtain ⟨inside, isOperation⟩ := List.getElem?_eq_some_iff.mp present
      rw [← isOperation]
      exact all ⟨index, inside⟩,
    fun every index => every index _ (getElem?_eq_getElem index.isLt)⟩

variable {Good : State → Prop}

theorem every_state_of_steps (Allowed : State → Operation → Prop) (initial : Good start)
    (keeps : ∀ state operation, Good state → Allowed state operation → Good (step state operation))
    (allowed : EveryStep step start operations Allowed) : EveryState step start operations Good := by
  intro index
  induction index with
  | zero => exact initial
  | succ index ih =>
    cases present : operations[index]? with
    | none => rw [reached_past step present]; exact ih
    | some operation =>
      rw [reached_succ step present]
      exact keeps _ _ ih (allowed index operation present)

-- When the allowed operations are exactly those that keep the property, a run
-- has it everywhere exactly when all its operations are allowed.
theorem every_state_iff_steps (initial : Good start)
    (keeps : ∀ state operation, Good state → (Good (step state operation) ↔ Allowed state operation)) :
    EveryState step start operations Good ↔ EveryStep step start operations Allowed := by
  constructor
  · intro every index operation present
    have after := every (index + 1)
    rw [reached_succ step present] at after
    exact (keeps _ _ (every index)).mp after
  · exact every_state_of_steps step Allowed initial (fun state operation good => (keeps state operation good).mpr)

-- A step is right exactly when it is allowed, as long as all steps before it
-- were.
theorem every_step_iff (start : State) (operations : List Operation) (Good : State → Prop)
    (Correct Allowed : State → Operation → Prop) (initial : Good start)
    (same : ∀ state operation, Good state → (Correct state operation ↔ Allowed state operation))
    (keeps : ∀ state operation, Good state → Allowed state operation → Good (step state operation)) :
    EveryStep step start operations Correct ↔ EveryStep step start operations Allowed := by
  constructor
  · intro correct
    have good := every_state_of_steps step Correct initial
      (fun state operation before right => keeps state operation before ((same state operation before).mp right)) correct
    exact fun index operation present => (same _ _ (good index)).mp (correct index operation present)
  · intro allowed
    have good := every_state_of_steps step Allowed initial keeps allowed
    exact fun index operation present => (same _ _ (good index)).mpr (allowed index operation present)

end Cogterm.Library
