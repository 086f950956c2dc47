import Mathlib.Data.List.Basic

namespace Cogterm.Library

open List Option Prod

variable {α σ : Type}

-- Cuts a text into clusters: a cluster starts with any symbol and goes on as
-- long as the next symbol joins.
structure Segmenter (α σ : Type) where
  first : α → σ
  join : σ → α → Option σ

namespace Segmenter

abbrev Progress (α σ : Type) := List (List α × σ) × Option (List α × σ)

def step (M : Segmenter α σ) (progress : Progress α σ) (symbol : α) : Progress α σ :=
  match progress.2 with
  | none => (progress.1, some ([symbol], M.first symbol))
  | some (cluster, state) =>
    match M.join state symbol with
    | some next => (progress.1, some (cluster ++ [symbol], next))
    | none => (progress.1 ++ [(cluster, state)], some ([symbol], M.first symbol))

def advance (M : Segmenter α σ) (progress : Progress α σ) (text : List α) : Progress α σ := text.foldl M.step progress

def finished (progress : Progress α σ) : List (List α × σ) := progress.1 ++ progress.2.toList

def segments (M : Segmenter α σ) (text : List α) : List (List α × σ) := finished (M.advance ([], none) text)

theorem advance_append (M : Segmenter α σ) (progress : Progress α σ) (left right : List α) :
    M.advance progress (left ++ right) = M.advance (M.advance progress left) right :=
  foldl_append

theorem segments_all (M : Segmenter α σ) (P : List α → σ → Prop) (starts : ∀ symbol, P [symbol] (M.first symbol))
    (joins : ∀ cluster state symbol next, P cluster state → M.join state symbol = some next → P (cluster ++ [symbol]) next)
    (text : List α) : ∀ cluster ∈ M.segments text, P cluster.1 cluster.2 := by
  have run (progress : Progress α σ) (before : ∀ cluster ∈ finished progress, P cluster.1 cluster.2) :
      ∀ cluster ∈ finished (M.advance progress text), P cluster.1 cluster.2 := by
    induction text generalizing progress with
    | nil => exact before
    | cons symbol rest ih =>
      apply ih
      obtain ⟨done, opened⟩ := progress
      simp only [finished, mem_append, mem_toList] at before ⊢
      cases opened with
      | none =>
        rintro cluster (member | member)
        · exact before cluster (.inl member)
        · rw [← mem_some_iff.mp member]
          exact starts symbol
      | some last =>
        cases joined : M.join last.2 symbol with
        | none =>
          simp only [step, joined, mem_append, mem_singleton]
          rintro cluster ((member | member) | member)
          · exact before cluster (.inl member)
          · exact before cluster (.inr (by rw [member]))
          · rw [← mem_some_iff.mp member]
            exact starts symbol
        | some next =>
          simp only [step, joined]
          rintro cluster (member | member)
          · exact before cluster (.inl member)
          · rw [← mem_some_iff.mp member]
            exact joins last.1 last.2 symbol next (before last (.inr rfl)) joined
  exact run ([], none) (by simp [finished])

theorem segments_flatten (M : Segmenter α σ) (text : List α) : ((M.segments text).map fst).flatten = text := by
  have run (progress : Progress α σ) :
      ((finished (M.advance progress text)).map fst).flatten = ((finished progress).map fst).flatten ++ text := by
    induction text generalizing progress with
    | nil => simp [advance]
    | cons symbol rest ih =>
      have stepped : ((finished (M.step progress symbol)).map fst).flatten =
          ((finished progress).map fst).flatten ++ [symbol] := by
        obtain ⟨done, opened⟩ := progress
        cases opened with
        | none => simp [finished, step]
        | some last => cases joined : M.join last.2 symbol <;> simp [finished, step, joined]
      have advanced : M.advance progress (symbol :: rest) = M.advance (M.step progress symbol) rest := rfl
      simp [advanced, ih, stepped]
  exact run ([], none)

theorem advance_done (M : Segmenter α σ) (done : List (List α × σ)) (progress : Progress α σ) (text : List α) :
    M.advance (done ++ progress.1, progress.2) text = (done ++ (M.advance progress text).1, (M.advance progress text).2) := by
  induction text generalizing progress with
  | nil => rfl
  | cons symbol rest ih =>
    have stepped : M.step (done ++ progress.1, progress.2) symbol =
        (done ++ (M.step progress symbol).1, (M.step progress symbol).2) := by
      obtain ⟨earlier, opened⟩ := progress
      cases opened with
      | none => rfl
      | some last => cases joined : M.join last.2 symbol <;> simp [step, joined]
    simp only [advance, foldl_cons, stepped] at ih ⊢
    exact ih (M.step progress symbol)

variable {M : Segmenter α σ} {rest : List α} {state : σ}

theorem advance_closes (stops : M.join state symbol = none) :
    M.advance (done, some (cluster, state)) (symbol :: rest) = M.advance (done ++ [(cluster, state)], none) (symbol :: rest) := by
  simp [advance, step, stops]

def extend (M : Segmenter α σ) (state : σ) : List α → List α × σ × List α
  | [] => ([], state, [])
  | symbol :: rest =>
    match M.join state symbol with
    | none => ([], state, symbol :: rest)
    | some next => (symbol :: (M.extend next rest).1, (M.extend next rest).2)

theorem extend_stops (M : Segmenter α σ) (state : σ) (text : List α) :
    ∀ symbol ∈ (M.extend state text).2.2.head?, M.join (M.extend state text).2.1 symbol = none := by
  induction text generalizing state with
  | nil => simp [extend]
  | cons symbol rest ih =>
    cases joined : M.join state symbol with
    | none => simp [extend, joined]
    | some next => simpa [extend, joined] using ih next

theorem advance_extend (M : Segmenter α σ) (done : List (List α × σ)) (cluster : List α) (state : σ) (text : List α) :
    M.advance (done, some (cluster, state)) text =
      M.advance (done, some (cluster ++ (M.extend state text).1, (M.extend state text).2.1)) (M.extend state text).2.2 := by
  induction text generalizing cluster state with
  | nil => simp [extend]
  | cons symbol rest ih =>
    cases joined : M.join state symbol with
    | none => simp [extend, joined]
    | some next =>
      have stepped : M.advance (done, some (cluster, state)) (symbol :: rest) =
          M.advance (done, some (cluster ++ [symbol], next)) rest := by
        simp [advance, step, joined]
      rw [stepped, ih]
      simp [extend, joined]

-- One request for a cluster: the open one goes on, or a new one starts. It
-- reads some symbols, ends in a state and leaves the rest of the text.
def Pulls (M : Segmenter α σ) (opened : Option σ) (text read : List α) (state : σ) (rest : List α) : Prop :=
  match opened, text with
  | some start, text => M.extend start text = (read, state, rest)
  | none, [] => False
  | none, symbol :: tail => ∃ others, read = symbol :: others ∧ M.extend (M.first symbol) tail = (others, state, rest)

theorem pulls_advance (M : Segmenter α σ) (done : List (List α × σ)) (opened : Option (List α × σ))
    (text read rest : List α) (state : σ) (pulls : Pulls M (opened.map snd) text read state rest) :
    M.advance (done, opened) text = M.advance (done, some ((opened.map fst).getD [] ++ read, state)) rest := by
  cases opened with
  | none =>
    cases text with
    | nil => exact absurd pulls id
    | cons symbol tail =>
      obtain ⟨others, isRead, extended⟩ := pulls
      have stepped : M.advance (done, none) (symbol :: tail) = M.advance (done, some ([symbol], M.first symbol)) tail := rfl
      rw [stepped, advance_extend, extended, isRead]
      rfl
  | some cluster =>
    have extended : M.extend cluster.2 text = (read, state, rest) := pulls
    have advanced := advance_extend M done cluster.1 cluster.2 text
    rw [extended] at advanced
    exact advanced

theorem pulls_stops {text read : List α}
    (pulls : Pulls M opened text read state rest) : ∀ symbol ∈ rest.head?, M.join state symbol = none := by
  cases opened with
  | none =>
    cases text with
    | nil => exact absurd pulls id
    | cons symbol tail =>
      obtain ⟨others, _, extended⟩ := pulls
      have stops := extend_stops M (M.first symbol) tail
      rwa [extended] at stops
  | some start =>
    have extended : M.extend start text = (read, state, rest) := pulls
    have stops := extend_stops M start text
    rwa [extended] at stops

variable {P : σ → Prop}

theorem extend_all (joins : ∀ state symbol next, P state → M.join state symbol = some next → P next) (state : σ)
    (text : List α) (before : P state) : P (M.extend state text).2.1 := by
  induction text generalizing state with
  | nil => exact before
  | cons symbol rest ih =>
    cases joined : M.join state symbol with
    | none => simpa [extend, joined] using before
    | some next => simpa [extend, joined] using ih next (joins state symbol next before joined)

theorem pulls_all (starts : ∀ symbol, P (M.first symbol))
    (joins : ∀ state symbol next, P state → M.join state symbol = some next → P next)
    (before : ∀ state ∈ opened, P state)
    {text read : List α} {state : σ} (pulls : Pulls M opened text read state rest) : P state := by
  cases opened with
  | none =>
    cases text with
    | nil => exact absurd pulls id
    | cons symbol tail =>
      obtain ⟨others, _, extended⟩ := pulls
      have all := extend_all joins (M.first symbol) tail (starts symbol)
      rwa [extended] at all
  | some start =>
    have extended : M.extend start text = (read, state, rest) := pulls
    have all := extend_all joins start text (before start rfl)
    rwa [extended] at all

theorem pulls_unique {text read read' rest' : List α} (pulls : Pulls M opened text read state rest)
    (pulls' : Pulls M opened text read' state' rest') : read = read' ∧ state = state' ∧ rest = rest' := by
  cases opened with
  | none =>
    cases text with
    | nil => exact absurd pulls id
    | cons symbol tail =>
      obtain ⟨others, isRead, extended⟩ := pulls
      obtain ⟨others', isRead', extended'⟩ := pulls'
      rw [extended] at extended'
      cases extended'
      exact ⟨isRead.trans isRead'.symm, rfl, rfl⟩
  | some start =>
    have extended : M.extend start text = (read, state, rest) := pulls
    have extended' : M.extend start text = (read', state', rest') := pulls'
    rw [extended] at extended'
    cases extended'
    exact ⟨rfl, rfl, rfl⟩

theorem segments_pulled {text read : List α} (pulls : Pulls M none text read state rest) :
    M.segments text = (read, state) :: M.segments rest := by
  have advanced := pulls_advance M [] none text read rest state pulls
  have stops := pulls_stops pulls
  rw [segments, advanced]
  cases rest with
  | nil => rfl
  | cons symbol tail =>
    have prepended := advance_done M [(read, state)] ([], none) (symbol :: tail)
    rw [append_nil] at prepended
    rw [advance_closes (stops symbol rfl)]
    simp only [map_none, getD_none, nil_append, prepended]
    rfl

variable {τ : Type}

def prependFirst (front : List α) : List (List α) → List (List α)
  | [] => [front]
  | cluster :: rest => (front ++ cluster) :: rest

def mirrored (progress : Progress α τ) : List (List α) :=
  (progress.2.toList ++ progress.1.reverse).map (fun cluster => cluster.1.reverse)

theorem mirrored_step (N : Segmenter α τ) (done : List (List α × τ)) (cluster : List α) (state : τ) (symbol : α) :
    mirrored (N.step (done, some (cluster, state)) symbol) =
      if N.join state symbol = none then [symbol] :: mirrored (done, some (cluster, state))
      else prependFirst [symbol] (mirrored (done, some (cluster, state))) := by
  cases joined : N.join state symbol <;> simp [mirrored, step, joined, prependFirst]

theorem prepend_prepend (front middle : List α) (clusters : List (List α)) :
    prependFirst front (prependFirst middle clusters) = prependFirst (front ++ middle) clusters := by
  cases clusters <;> simp [prependFirst]

theorem advance_reverse_cons {N : Segmenter α τ} :
    N.advance ([], none) (a :: rest).reverse = N.step (N.advance ([], none) rest.reverse) a := by
  rw [reverse_cons, advance_append]
  rfl

theorem step_opened (N : Segmenter α τ) (done : List (List α × τ)) (cluster : List α) (state : τ) (symbol : α) :
    ∃ done' cluster', N.step (done, some (cluster, state)) symbol =
      (done', some (cluster', (N.join state symbol).getD (N.first symbol))) := by
  cases joined : N.join state symbol with
  | none => exact ⟨done ++ [(cluster, state)], [symbol], by simp [step, joined]⟩
  | some next => exact ⟨done, cluster ++ [symbol], by simp [step, joined]⟩

theorem advance_reverse_opened (N : Segmenter α τ) (a : α) (rest : List α) :
    ∃ done cluster state, N.advance ([], none) (a :: rest).reverse = (done, some (cluster, state)) := by
  rw [advance_reverse_cons]
  obtain ⟨done, opened⟩ := N.advance ([], none) rest.reverse
  cases opened with
  | none => exact ⟨done, [a], N.first a, rfl⟩
  | some last =>
    obtain ⟨done', cluster', stepped⟩ := step_opened N done last.1 last.2 a
    exact ⟨done', cluster', _, stepped⟩

theorem segments_mirror (M : Segmenter α σ) (N : Segmenter α τ) (Inv : σ → List α → Prop)
    (alike : ∀ state a b rest cluster other, Inv state (a :: b :: rest) →
      (N.advance ([], none) (b :: rest).reverse).2 = some (cluster, other) → (M.join state b = none ↔ N.join other a = none))
    (steps : ∀ state a b rest, Inv state (a :: b :: rest) → Inv ((M.join state b).getD (M.first b)) (b :: rest))
    (text : List α) (start : ∀ a rest, text = a :: rest → Inv (M.first a) text) :
    (M.segments text).map fst = mirrored (N.advance ([], none) text.reverse) := by
  -- front holds the symbols of the open cluster in front of its last one.
  have run (rest : List α) (a : α) (front : List α) (state : σ) (inv : Inv state (a :: rest)) :
      (finished (M.advance ([], some (front ++ [a], state)) rest)).map fst =
        prependFirst front (mirrored (N.advance ([], none) (a :: rest).reverse)) := by
    induction rest generalizing a front state with
    | nil => simp [advance, finished, mirrored, step, prependFirst]
    | cons b rest ih =>
      obtain ⟨done, cluster, other, progress⟩ := advance_reverse_opened N b rest
      have decided := alike state a b rest cluster other inv (by rw [progress])
      have next := steps state a b rest inv
      rw [advance_reverse_cons, progress, mirrored_step]
      cases joined : M.join state b with
      | none =>
        rw [joined] at next
        have closed : M.advance ([], some (front ++ [a], state)) (b :: rest) =
            M.advance ([(front ++ [a], state)], some ([b], M.first b)) rest := by
          simp [advance, step, joined]
        have prepended := advance_done M [(front ++ [a], state)] ([], some ([b], M.first b)) rest
        rw [append_nil] at prepended
        have inner := ih b [] (M.first b) next
        rw [progress, nil_append] at inner
        rw [if_pos (decided.mp joined), closed, prepended, finished, append_assoc, map_append, ← finished, inner]
        simp [prependFirst, mirrored]
      | some following =>
        rw [joined] at next
        have stayed : N.join other a ≠ none := by
          intro stops
          rw [decided.mpr stops] at joined
          cases joined
        have opened : M.advance ([], some (front ++ [a], state)) (b :: rest) =
            M.advance ([], some ((front ++ [a]) ++ [b], following)) rest := by
          simp [advance, step, joined]
        rw [if_neg stayed, opened, ih b (front ++ [a]) following next, progress, prepend_prepend]
  cases text with
  | nil => rfl
  | cons a rest =>
    obtain ⟨done, cluster, other, progress⟩ := advance_reverse_opened N a rest
    have started := run rest a [] (M.first a) (start a rest rfl)
    rw [progress] at started ⊢
    exact started

end Segmenter

end Cogterm.Library
