import Mathlib.Order.WellFounded

namespace Cogterm.Library

inductive Iteration (State Result : Type) where
  | again (state : State)
  | done (result : Result)

variable {State Result : Type} (step : State → Iteration State Result)

def runLoop : Nat → State → Option Result
  | 0, _ => none
  | fuel + 1, state =>
    match step state with
    | .done result => some result
    | .again next => runLoop fuel next

-- The state after a number of rounds that all go on.
def afterRounds : Nat → State → Option State
  | 0, state => some state
  | count + 1, state =>
    match step state with
    | .done _ => none
    | .again next => afterRounds count next

def Ends (state : State) : Prop := ∃ fuel, (runLoop step fuel state).isSome

theorem run_loop_more (fuel more : Nat) (state : State) (result : Result) (ended : runLoop step fuel state = some result) :
    runLoop step (fuel + more) state = some result := by
  induction fuel generalizing state with
  | zero => cases ended
  | succ fuel ih =>
    rw [Nat.succ_add, runLoop]
    rw [runLoop] at ended
    cases taken : step state with
    | done other =>
      rw [taken] at ended
      exact ended
    | again next =>
      rw [taken] at ended
      exact ih next ended

variable {step}

theorem ends_of_variant {below : Measure → Measure → Prop} (wellFounded : WellFounded below)
    (measure : State → Measure) (invariant : State → Prop)
    (goesOn : ∀ state, invariant state → (∃ result, step state = .done result) ∨
      ∃ next, step state = .again next ∧ invariant next ∧ below (measure next) (measure state))
    (state : State) (start : invariant state) : Ends step state := by
  generalize isMeasure : measure state = value
  induction value using wellFounded.induction generalizing state with
  | _ value ih =>
    rcases goesOn state start with ⟨result, taken⟩ | ⟨next, taken, kept, less⟩
    · exact ⟨1, by rw [runLoop, taken]; rfl⟩
    · obtain ⟨fuel, ended⟩ := ih (measure next) (isMeasure ▸ less) next kept rfl
      exact ⟨fuel + 1, by rw [runLoop, taken]; exact ended⟩

theorem never_ends {invariant : State → Prop}
    (goesOn : ∀ state, invariant state → ∃ next, step state = .again next ∧ invariant next)
    (state : State) (start : invariant state) : runLoop step fuel state = none := by
  induction fuel generalizing state with
  | zero => rfl
  | succ fuel ih =>
    obtain ⟨next, taken, kept⟩ := goesOn state start
    rw [runLoop, taken]
    exact ih next kept

theorem run_loop_invariant (invariant : State → Prop) (post : Result → Prop)
    (goesOn : ∀ state, invariant state → (∃ result, step state = .done result ∧ post result) ∨
      ∃ next, step state = .again next ∧ invariant next)
    (state : State) (start : invariant state) (ended : runLoop step fuel state = some result) : post result := by
  induction fuel generalizing state with
  | zero => cases ended
  | succ fuel ih =>
    rw [runLoop] at ended
    rcases goesOn state start with ⟨other, taken, good⟩ | ⟨next, taken, kept⟩
    · rw [taken, Option.some.injEq] at ended
      exact ended ▸ good
    · rw [taken] at ended
      exact ih next kept ended

variable (step)

theorem run_loop_follows (related stops : State → Other → Prop)
    (post : Result → OtherResult → Prop) (goesOn : ∀ state ahead, related state ahead → stops state ahead ∨
      (∃ next further, step state = .again next ∧ other ahead = .again further ∧ related next further) ∨
        ∃ result reached, step state = .done result ∧ other ahead = .done reached ∧ post result reached)
    (state : State) (ahead : Other) (start : related state ahead) (ended : runLoop other fuel ahead = some reached) :
    (∃ left behind further, related behind further ∧ stops behind further ∧ runLoop other left further = some reached ∧
        runLoop step fuel state = runLoop step left behind) ∨
      ∃ result, runLoop step fuel state = some result ∧ post result reached := by
  induction fuel generalizing state ahead with
  | zero => cases ended
  | succ fuel ih =>
    rcases goesOn state ahead start with stopped | ⟨next, further, taken, otherTaken, kept⟩ |
      ⟨result, final, taken, otherTaken, good⟩
    · exact .inl ⟨fuel + 1, state, ahead, start, stopped, ended, rfl⟩
    · rw [runLoop, otherTaken] at ended
      rw [runLoop, taken]
      exact ih next further kept ended
    · rw [runLoop, otherTaken, Option.some.injEq] at ended
      rw [runLoop, taken]
      exact .inr ⟨result, rfl, ended ▸ good⟩

end Cogterm.Library
