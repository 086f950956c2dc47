import Cogterm.Rle.Rle

namespace Cogterm.Til

open Library Rle List

variable {T : Type}

theorem value_at_append (before after : List (Run T)) (run : Run T) :
    valueAt (before ++ run :: after) before.length = some run.value := by
  simp [valueAt]

theorem length_at_append (before after : List (Run T)) (run : Run T) :
    lengthAt (before ++ run :: after) before.length = run.length := by
  simp [lengthAt]

theorem set_length_append (before after : List (Run T)) (run : Run T) (length : Nat) :
    setLength (before ++ run :: after) before.length length = before ++ { run with length := length } :: after := by
  rw [setLength, modify_append_length]

theorem place_runs_result {runs replacements : List (Run T)} {begin finish : Nat} {trailer : Option (Run T)}
    (nonempty : replacements ≠ []) (beginInside : begin ≤ runs.length) (finishInside : finish ≤ runs.length)
    (split : trailer.isSome = true → finish ≤ begin) : placeRuns spare runs begin finish replacements trailer =
      runs.take begin ++ replacements ++ trailer.toList ++ runs.drop (max begin finish) := by
  have positive : 0 < replacements.length := length_pos_iff.mpr nonempty
  cases trailer with
  | none =>
    have unfolded (direct : Nat) (isDirect : min (finish - begin) replacements.length = direct) :
        placeRuns spare runs begin finish replacements none = if finish - begin ≥ replacements.length then
          eraseRange (overwriteAt runs begin (replacements.take direct)) (begin + direct) finish
        else
          insertAt (overwriteAt runs begin (replacements.take direct)) (begin + direct) (replacements.drop direct) := by
      rw [← isDirect]
      rfl
    rw [Option.toList_none, append_nil]
    by_cases enough : finish - begin ≥ replacements.length
    · have further : max begin finish = finish := by omega
      rw [unfolded replacements.length (by omega), if_pos enough, further]
      simpa using copy_then_erase finishInside (by omega)
    · have further : max begin finish = begin + (finish - begin) := by omega
      rw [unfolded (finish - begin) (by omega), if_neg enough, further]
      exact copy_then_insert (by omega) (by omega)
  | some run =>
    have crossed : finish - begin = 0 := by
      have order := split rfl
      omega
    have further : max begin finish = begin := by omega
    have taken : (runs.take begin).length = begin := length_take_of_le beginInside
    have unfolded (direct : Nat) (isDirect : min (finish - begin) replacements.length = direct) :
        placeRuns spare runs begin finish replacements (some run) = if finish - begin ≥ replacements.length + 1 then
          eraseRange (overwriteAt runs begin (replacements.take direct)) (begin + direct) finish
        else
          (overwriteAt (insertAt (overwriteAt runs begin (replacements.take direct)) (begin + direct)
              (replicate (replacements.length + 1 - (finish - begin)) spare)) begin
            (replacements.drop direct)).set (begin + (replacements.drop direct).length) run := by
      rw [← isDirect]
      rfl
    have unchanged : overwriteAt runs begin (replacements.take 0) = runs := by simp [overwriteAt]
    -- The inserted elements are overwritten by the replacements, the last one by the trailer.
    have filled : overwriteAt (insertAt runs begin (replicate (replacements.length + 1) spare)) begin replacements =
        runs.take begin ++ replacements ++ spare :: runs.drop begin := by
      have grown : insertAt runs begin (replicate (replacements.length + 1) spare) =
          runs.take begin ++ (replicate replacements.length spare ++ (spare :: runs.drop begin)) := by
        simp [insertAt, replicate_succ']
      rw [grown, overwriteAt, take_append_of_le_length (by omega), take_take, Nat.min_self]
      congr 1
      simp [taken, drop_append]
    have placed : (runs.take begin ++ replacements).length = begin + replacements.length := by simp [taken]
    rw [unfolded 0 (by omega), crossed, if_neg (by omega), Nat.add_zero, drop_zero, Nat.sub_zero, unchanged, filled,
      further, ← placed, set_append_right _ _ (Nat.le_refl _)]
    simp

theorem rest_part_cons (run : Run T) (rest : List (Run T)) (pos : Nat) :
    restPart (run :: rest) pos = ⟨run.value, run.length - pos⟩ :: rest := by
  by_cases whole : pos = 0
  · simp [restPart, whole]
  · simp [restPart, whole]

variable {before after : List (Run T)} {pos index : Nat}

theorem previous_run {runs : List (Run T)} (positive : Positive runs) (reached : Reached runs index before after pos) :
    (index = 0 ∧ before ++ keptPart after pos = []) ∨
      ∃ kept last others, before ++ keptPart after pos = kept ++ [last] ∧ before = kept ++ others ∧ index ≠ 0 ∧
        (if pos ≠ 0 then before.length else before.length - 1) = kept.length ∧ valueAt runs kept.length = some last.value ∧
        (if pos ≠ 0 then pos else lengthAt runs kept.length) = last.length := by
  obtain ⟨split, position, inside, ended⟩ := reached
  by_cases whole : pos = 0
  · have noPart : keptPart after 0 = [] := by cases after <;> rfl
    subst whole
    rw [noPart, append_nil]
    cases before using reverseRecOn with
    | nil => exact .inl ⟨by simpa using position, rfl⟩
    | append_singleton kept last =>
      right
      have shifted : runs = kept ++ last :: after := by simp [split]
      rw [shifted, positive_append, positive_cons] at positive
      rw [total_length_append, total_length_cons] at position
      refine ⟨kept, last, [last], rfl, rfl, by omega, by simp, ?_, ?_⟩
      · rw [shifted, value_at_append]
      · simp [shifted, length_at_append]
  · cases after with
    | nil => exact absurd (ended rfl) whole
    | cons run rest =>
      right
      have part : keptPart (run :: rest) pos = [⟨run.value, pos⟩] := by simp [keptPart, whole]
      refine ⟨before, ⟨run.value, pos⟩, [], by rw [part], by simp, by omega, if_pos whole, ?_, if_pos whole⟩
      rw [split, value_at_append]

variable {rle : Rle T}

theorem following_run (total : rle.total = totalLength rle.runs) (reached : Reached rle.runs index before after pos) :
    (index = rle.total ∧ after = []) ∨ ∃ run rest, after = run :: rest ∧ index ≠ rle.total ∧ pos < run.length ∧
        valueAt rle.runs before.length = some run.value ∧ lengthAt rle.runs before.length = run.length := by
  obtain ⟨split, position, inside, ended⟩ := reached
  rw [split, total_length_append] at total
  cases after with
  | nil =>
    left
    rw [ended rfl] at position
    exact ⟨by rw [total, position]; rfl, rfl⟩
  | cons run rest =>
    right
    have short := inside run rfl
    rw [total_length_cons] at total
    refine ⟨run, rest, rfl, by omega, short, ?_, ?_⟩
    · rw [split, value_at_append]
    · rw [split, length_at_append]

section

variable [DecidableEq T]

theorem begin_seam_cases {startIndex : Nat} (front : T) (positive : Positive rle.runs)
    (reached : Reached rle.runs startIndex before after pos) :
    (beginSeam rle startIndex front before.length pos = ⟨before.length, pos, 0⟩ ∧
        ∀ last ∈ (before ++ keptPart after pos).getLast?, last.value ≠ front) ∨
      ∃ kept last others, before ++ keptPart after pos = kept ++ [last] ∧ last.value = front ∧
        beginSeam rle startIndex front before.length pos = ⟨kept.length, 0, last.length⟩ ∧ before = kept ++ others := by
  rcases previous_run positive reached with
    ⟨first, empty⟩ | ⟨kept, last, others, split, isPrefix, later, previous, value, length⟩
  · left
    simp [beginSeam, first, empty]
  by_cases same : last.value = front
  · right
    refine ⟨kept, last, others, split, same, ?_, isPrefix⟩
    simp only [beginSeam, previous, value, length, same]
    rw [if_pos ⟨later, trivial⟩]
  · left
    refine ⟨?_, by simpa [split] using same⟩
    simp [beginSeam, previous, value, same]

theorem end_seam_cases (back : T) (total : rle.total = totalLength rle.runs)
    (reached : Reached rle.runs endIndex before after pos) :
    (endSeam rle endIndex back before.length pos = ⟨before.length, pos, 0⟩ ∧
        ∀ first ∈ (restPart after pos).head?, back ≠ first.value) ∨
      ∃ run first rest, after = run :: rest ∧ restPart after pos = first :: rest ∧ back = first.value ∧
        endSeam rle endIndex back before.length pos = ⟨before.length + 1, 0, first.length⟩ := by
  rcases following_run total reached with
    ⟨last, empty⟩ | ⟨run, rest, split, earlier, _, value, length⟩
  · left
    simp [endSeam, last, empty, restPart]
  rw [split, rest_part_cons]
  by_cases same : run.value = back
  · right
    refine ⟨run, _, rest, rfl, rfl, same.symm, ?_⟩
    simp [endSeam, earlier, value, same, length]
  · left
    refine ⟨?_, by simpa using Ne.symm same⟩
    simp [endSeam, value, same]

end

variable {beginning : Seam}

theorem shorten_end (ended : after = [] → pos = 0) :
    (if pos ≠ 0 then setLength (before ++ after) before.length (lengthAt (before ++ after) before.length - pos)
      else before ++ after) = before ++ restPart after pos := by
  cases after with
  | nil => simp [ended rfl, restPart]
  | cons run rest =>
    rw [length_at_append, set_length_append]
    by_cases whole : pos = 0
    · simp [whole, restPart]
    · simp [whole, restPart]

def EndsAt (reach : Nat) (after rest : List (Run T)) (ending : Seam) : Prop :=
  (ending.it = reach ∧ rest = restPart after ending.pos ∧ (after = [] → ending.pos = 0)) ∨
    (ending.it = reach + 1 ∧ ending.pos = 0 ∧ ∃ run, after = run :: rest)

variable {ending : Seam} {tail : List (Run T)} {front : Run T}

theorem splice_between_runs
    (starts : beginning.it = kept.length) (whole : beginning.pos = 0) (ends : EndsAt (kept ++ between).length after rest ending) :
    spliceRuns (kept ++ (between ++ after)) beginning ending front tail =
      (kept ++ (front :: tail) ++ rest, kept.length, (front :: tail).length) := by
  have unfolded : spliceRuns (kept ++ (between ++ after)) beginning ending front tail = (placeRuns front (if ending.pos ≠ 0 then
          setLength (kept ++ (between ++ after)) ending.it (lengthAt (kept ++ (between ++ after)) ending.it - ending.pos)
          else kept ++ (between ++ after))
        kept.length ending.it (front :: tail) none, kept.length, (front :: tail).length) := by
    simp [spliceRuns, whole, starts]
  have further : max kept.length ending.it = ending.it := by
    rcases ends with ⟨it, _⟩ | ⟨it, _⟩ <;> rw [it, length_append] <;> omega
  rw [unfolded, ← append_assoc]
  rcases ends with ⟨it, isRest, ended⟩ | ⟨it, none, run, split⟩
  · rw [it] at further ⊢
    rw [shorten_end ended, ← isRest, place_runs_result, further]
    · simp
    · simp
    · simp
    · simp
    · simp
  · have place : ending.it = (kept ++ between ++ [run]).length := by
      rw [it, @length_append _ _ [run]]
      rfl
    have shifted : kept ++ between ++ after = kept ++ between ++ [run] ++ rest := by
      rw [split]
      simp
    rw [place] at further ⊢
    rw [none, if_neg (by simp), shifted, place_runs_result, further]
    · simp
    · simp
    · simp
    · simp
    · simp

theorem splice_shortens
    (starts : beginning.it = before.length) (inside : beginning.pos ≠ 0) (leaves : before.length ≠ ending.it) :
    spliceRuns (before ++ run :: after) beginning ending front tail =
      spliceRuns (before ++ { run with length := beginning.pos } :: after) ⟨before.length + 1, 0, beginning.additionalLength⟩
        ending front tail := by
  simp [spliceRuns, starts, inside, leaves, set_length_append]

theorem splice_inside_run (after : List (Run T)) (run : Run T) (front : Run T) (tail : List (Run T))
    (starts : beginning.it = before.length) (inside : beginning.pos ≠ 0) (stays : ending.it = before.length) :
    spliceRuns (before ++ run :: after) beginning ending front tail =
      (before ++ [{ run with length := beginning.pos }] ++ (front :: tail) ++
          { run with length := run.length - ending.pos } :: after,
        (before ++ [{ run with length := beginning.pos }]).length, (front :: tail).length + 1) := by
  have unfolded : spliceRuns (before ++ run :: after) beginning ending front tail =
      (placeRuns front (before ++ { run with length := beginning.pos } :: after) (before.length + 1) before.length
        (front :: tail) (some { run with length := run.length - ending.pos }), before.length + 1,
        (front :: tail).length + 1) := by
    simp [spliceRuns, starts, inside, stays, set_length_append]
  have shifted : before ++ { run with length := beginning.pos } :: after =
      before ++ [{ run with length := beginning.pos }] ++ after := by simp
  have place : before.length + 1 = (before ++ [{ run with length := beginning.pos }]).length := by simp
  rw [unfolded, place_runs_result (by simp) (by simp) (by simp) (by simp), Nat.max_eq_left (by omega), shifted,
    place, take_left]
  simp

def StartsAt (before after kept : List (Run T)) (beginning : Seam) : Prop :=
  (beginning.it = before.length ∧ kept = before ++ keptPart after beginning.pos ∧ (after = [] → beginning.pos = 0)) ∨
    (beginning.it = kept.length ∧ beginning.pos = 0 ∧ ∃ others, before = kept ++ others)

theorem splice_runs_result (front : Run T) (tail : List (Run T))
    (starts : StartsAt before (between ++ after) kept beginning) (ends : EndsAt (before ++ between).length after rest ending) :
    let placed := spliceRuns (before ++ (between ++ after)) beginning ending front tail
    placed.1 = kept ++ (front :: tail) ++ rest ∧ placed.2.1 = kept.length ∧
      (ending.it ≠ (before ++ between).length → placed.2.2 = (front :: tail).length) := by
  intro placed
  have plain (equal : placed = (kept ++ (front :: tail) ++ rest, kept.length, (front :: tail).length)) :
      placed.1 = kept ++ (front :: tail) ++ rest ∧ placed.2.1 = kept.length ∧
        (ending.it ≠ (before ++ between).length → placed.2.2 = (front :: tail).length) := by
    rw [equal]
    exact ⟨rfl, rfl, fun _ => rfl⟩
  by_cases whole : beginning.pos = 0
  · obtain ⟨others, split, it⟩ : ∃ others, before = kept ++ others ∧ beginning.it = kept.length := by
      rcases starts with ⟨it, isKept, _⟩ | ⟨it, _, others, split⟩
      · have noPart : keptPart (between ++ after) 0 = [] := by cases between ++ after <;> rfl
        rw [whole, noPart, append_nil] at isKept
        exact ⟨[], by simp [isKept], by rw [it, isKept]⟩
      · exact ⟨others, split, it⟩
    apply plain
    have regroup : before ++ (between ++ after) = kept ++ ((others ++ between) ++ after) := by simp [split]
    simp only [placed, regroup]
    apply splice_between_runs it whole
    rwa [← append_assoc, ← split]
  · obtain ⟨it, isKept, ended⟩ :
      beginning.it = before.length ∧ kept = before ++ keptPart (between ++ after) beginning.pos ∧
        (between ++ after = [] → beginning.pos = 0) := by
      rcases starts with found | ⟨_, zero, _⟩
      · exact found
      · exact absurd zero whole
    cases between with
    | nil =>
      cases after with
      | nil => exact absurd (ended rfl) whole
      | cons run others =>
        have keptEq : kept = before ++ [{ run with length := beginning.pos }] := by simp [isKept, keptPart, whole]
        rw [append_nil] at ends
        rcases ends with ⟨stays, isRest, _⟩ | ⟨leaves, noPos, other, split⟩
        · have inside := splice_inside_run others run front tail it whole stays
          rw [rest_part_cons] at isRest
          refine ⟨?_, ?_, fun moved => absurd (by simpa using stays) moved⟩
          · simp [placed, inside, keptEq, isRest]
          · simp [placed, inside, keptEq]
        · apply plain
          obtain ⟨_, isRest⟩ := cons.inj split
          simp only [placed, nil_append]
          rw [splice_shortens it whole (by omega), isRest]
          have regroup : before ++ { run with length := beginning.pos } :: rest = kept ++ ([] ++ rest) := by simp [keptEq]
          rw [regroup]
          apply splice_between_runs
          · simp [keptEq]
          · rfl
          · left
            refine ⟨by simp [leaves, keptEq], ?_, fun _ => noPos⟩
            rw [noPos]
            cases rest <;> rfl
    | cons run others =>
      apply plain
      have keptEq : kept = before ++ [{ run with length := beginning.pos }] := by simp [isKept, keptPart, whole]
      have reach : (before ++ run :: others).length = (kept ++ others).length := by simp [keptEq]
      have leaves : before.length ≠ ending.it := by
        rcases ends with ⟨place, _⟩ | ⟨place, _⟩ <;> rw [place, length_append, length_cons] <;> omega
      simp only [placed, cons_append]
      rw [splice_shortens it whole leaves]
      have regroup : before ++ { run with length := beginning.pos } :: (others ++ after) = kept ++ (others ++ after) := by
        simp [keptEq]
      rw [regroup]
      apply splice_between_runs
      · simp [keptEq]
      · rfl
      · rwa [← reach]

end Cogterm.Til
