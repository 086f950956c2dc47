import Cogterm.Rle.Replace

namespace Cogterm.Til

open Library Rle List Nat

variable {T : Type}

variable {width : Nat} {rest : List (Run T)}

theorem size_add_eq (width a b : Nat) (fits : a + b < 2 ^ width) : sizeAdd width a b = a + b := mod_eq_of_lt fits

theorem size_sub_eq (b : Nat) (fits : a < 2 ^ width) (smaller : b ≤ a) : sizeSub width a b = a - b := by
  have reduced : b % 2 ^ width = b := mod_eq_of_lt (by omega)
  have shifted : a + (2 ^ width - b) = (a - b) + 2 ^ width := by omega
  simpa [sizeSub, reduced, shifted] using mod_eq_of_lt (by omega)

theorem fold_size_add (base : Nat) {runs : List (Run T)} (fits : base + totalLength runs < 2 ^ width) :
    runs.foldl (fun total run => sizeAdd width total run.length) base = base + totalLength runs := by
  induction runs generalizing base with
  | nil => rfl
  | cons run rest ih =>
    rw [total_length_cons] at fits ⊢
    simp [size_add_eq width base run.length (by omega), ih (base + run.length) (by omega), Nat.add_assoc]

theorem add_length_first (fits : extra + totalLength placed < 2 ^ width) (nonempty : placed ≠ []) :
    addLength width (kept ++ placed ++ rest) kept.length extra = kept ++ bumpFirst extra placed ++ rest := by
  cases placed with
  | nil => exact absurd rfl nonempty
  | cons run others =>
    rw [total_length_cons] at fits
    have plain : sizeAdd width run.length extra = run.length + extra := size_add_eq width _ _ (by omega)
    rw [addLength]
    split
    · simp [modify_append_length, plain, bumpFirst]
    · rename_i none
      rw [not_not.mp none, bump_first_zero]

theorem add_length_last (fits : extra + totalLength placed < 2 ^ width) (nonempty : placed ≠ []) :
    addLength width (kept ++ placed ++ rest) (kept.length + placed.length - 1) extra = kept ++ bumpLast extra placed ++ rest := by
  cases placed using List.reverseRecOn with
  | nil => exact absurd rfl nonempty
  | append_singleton others run =>
    rw [total_length_append, total_length_cons] at fits
    have plain : sizeAdd width run.length extra = run.length + extra := size_add_eq width _ _ (by omega)
    have position : kept.length + (others ++ [run]).length - 1 = (kept ++ others).length := by simp
    have regroup : kept ++ (others ++ [run]) ++ rest = (kept ++ others) ++ run :: rest := by simp
    rw [addLength]
    split
    · rw [position, regroup, modify_append_length, plain, bump_last_snoc]
      simp
    · rename_i none
      rw [not_not.mp none, bump_last_zero]

variable {rle : Rle T} {startIndex endIndex pos : Nat}

section

variable [DecidableEq T]

theorem size_sub_sub (width length pos extra : Nat) (inside : pos ≤ length) (fits : length - pos + extra < 2 ^ width)
    (small : length < 2 ^ width) : sizeSub width length (sizeSub width pos extra) = length - pos + extra := by
  have reduced : extra % 2 ^ width = extra := mod_eq_of_lt (by omega)
  rw [sizeSub, sizeSub, reduced, mod_mod]
  by_cases larger : extra ≤ pos
  · have shifted : pos + (2 ^ width - extra) = (pos - extra) + 2 ^ width := by omega
    rw [shifted, add_mod_right, mod_eq_of_lt (by omega : pos - extra < 2 ^ width)]
    have back : length + (2 ^ width - (pos - extra)) = (length - pos + extra) + 2 ^ width := by omega
    simp [back, mod_eq_of_lt fits]
  · rw [mod_eq_of_lt (by omega : pos + (2 ^ width - extra) < 2 ^ width)]
    have back : length + (2 ^ width - (pos + (2 ^ width - extra))) = length - pos + extra := by omega
    rw [back, mod_eq_of_lt fits]

theorem begin_seam_joins (front : Run T) (others : List (Run T)) {before after : List (Run T)}
    (positive : Positive rle.runs) (reached : Reached rle.runs startIndex before after pos) :
    ∃ kept, StartsAt before after kept (beginSeam rle startIndex front.value before.length pos) ∧
      joinRuns (before ++ keptPart after pos) (front :: others) =
        kept ++ bumpFirst (beginSeam rle startIndex front.value before.length pos).additionalLength (front :: others) ∧
      (beginSeam rle startIndex front.value before.length pos).additionalLength ≤ startIndex := by
  rcases begin_seam_cases front.value positive reached with
    ⟨seam, different⟩ | ⟨kept, last, dropped, split, same, seam, isPrefix⟩
  · refine ⟨before ++ keptPart after pos, ?_, ?_, ?_⟩
    · rw [seam]
      exact .inl ⟨rfl, rfl, reached.ended⟩
    · rw [seam]
      apply join_apart
      intro last isLast first isFirst
      rw [head?_cons, Option.mem_some_iff] at isFirst
      rw [← isFirst]
      exact different last isLast
    · rw [seam]
      exact zero_le _
  · refine ⟨kept, ?_, ?_, ?_⟩
    · rw [seam]
      exact .inr ⟨rfl, rfl, dropped, isPrefix⟩
    · rw [seam, split]
      exact join_bump_first (by simpa using same) (by simp)
    · have count := kept_length reached
      rw [split, total_length_append, total_length_cons] at count
      rw [seam]
      simp only
      omega

theorem end_seam_joins (back : T) {before after : List (Run T)} (total : rle.total = totalLength rle.runs)
    (reached : Reached rle.runs endIndex before after pos) :
    ∃ rest, EndsAt before.length after rest (endSeam rle endIndex back before.length pos) ∧
      (∀ left : List (Run T), left ≠ [] → (∀ last ∈ left.getLast?, last.value = back) →
        joinRuns left (restPart after pos) =
          bumpLast (endSeam rle endIndex back before.length pos).additionalLength left ++ rest) ∧
      ((endSeam rle endIndex back before.length pos).additionalLength ≠ 0 →
        (endSeam rle endIndex back before.length pos).it ≠ before.length) ∧
      endIndex + (endSeam rle endIndex back before.length pos).additionalLength ≤ rle.total := by
  have count : totalLength before + totalLength after = rle.total := by simp [total, reached.split]
  have position := reached.position
  rcases end_seam_cases back total reached with
    ⟨seam, different⟩ | ⟨run, first, rest, split, isRest, same, seam⟩
  · refine ⟨restPart after pos, ?_, ?_, ?_, ?_⟩
    · rw [seam]
      exact .inl ⟨rfl, rfl, reached.ended⟩
    · intro left _ ends
      rw [seam, bump_last_zero]
      apply join_apart
      intro last isLast first isFirst
      rw [ends last isLast]
      exact different first isFirst
    · rw [seam]
      exact fun none => absurd rfl none
    · rw [seam]
      cases after with
      | nil =>
        have atEnd := reached.ended rfl
        simp only
        omega
      | cons run others =>
        have inside := reached.inside run rfl
        rw [total_length_cons] at count
        simp only
        omega
  · refine ⟨rest, ?_, ?_, ?_, ?_⟩
    · rw [seam]
      exact .inr ⟨rfl, rfl, run, split⟩
    · intro left nonempty ends
      rw [seam, isRest]
      exact join_bump_last (fun last isLast => (ends last isLast).trans same) nonempty
    · rw [seam]
      exact fun _ => succ_ne_self _
    · rw [split, rest_part_cons] at isRest
      obtain ⟨isFirst, _⟩ := List.cons.inj isRest
      have inside := reached.inside run (by rw [split]; rfl)
      rw [split, total_length_cons] at count
      rw [seam, ← isFirst]
      simp only
      omega

theorem replace_unchecked_runs (positive : Positive rle.runs)
    (total : rle.total = totalLength rle.runs) (small : rle.total < 2 ^ width) (order : startIndex ≤ endIndex)
    (inside : endIndex ≤ rle.total) (fits : rle.total - (endIndex - startIndex) + totalLength (front :: others) < 2 ^ width) :
    (rle.replaceUnchecked width startIndex endIndex (front :: others)).runs =
      joinRuns (joinRuns (cutRuns startIndex rle.runs).1 (front :: others)) (cutRuns endIndex rle.runs).2 := by
  obtain ⟨before, after, pos, scanned, reached⟩ :=
    scan_reaches width rle.runs startIndex (by omega) (by omega)
  obtain ⟨between, rest, pos', scannedAgain, split, reachedEnd⟩ :=
    scan_again_reaches width endIndex (by omega) reached order (by omega)
  rw [reached_cut positive reached, reached_cut positive reachedEnd]
  obtain ⟨kept, starts, joinLeft, leftBound⟩ := begin_seam_joins front others positive reached
  obtain ⟨post, ends, joinRight, merges, rightBound⟩ :=
    end_seam_joins ((front :: others).getLastD front).value total reachedEnd
  have whole : rle.runs = before ++ (between ++ rest) := by rw [reached.split, split]
  generalize beginning : beginSeam rle startIndex front.value before.length pos = first at *
  generalize ending : endSeam rle endIndex ((front :: others).getLastD front).value (before ++ between).length pos' = last at *
  have grown : totalLength (bumpFirst first.additionalLength (front :: others)) =
      first.additionalLength + totalLength (front :: others) := by
    simp only [bumpFirst, total_length_cons]
    omega
  have nonempty : bumpFirst first.additionalLength (front :: others) ≠ [] := bump_first_ne_nil (by simp)
  have count : (bumpFirst first.additionalLength (front :: others)).length = (front :: others).length := rfl
  rw [split] at starts
  obtain ⟨placed, position, number⟩ := splice_runs_result front others starts ends
  rw [← whole] at placed position number
  have computed : (rle.replaceUnchecked width startIndex endIndex (front :: others)).runs =
      addLength width (addLength width (spliceRuns rle.runs first last front others).1
          (spliceRuns rle.runs first last front others).2.1 first.additionalLength)
        ((spliceRuns rle.runs first last front others).2.1 + (spliceRuns rle.runs first last front others).2.2 - 1)
        last.additionalLength := by
    simp only [replaceUnchecked, scanned, scannedAgain, beginning, ending]
  rw [computed, placed, position, add_length_first (by omega) (by simp), joinLeft,
    join_append_left nonempty, joinRight _ nonempty ?_]
  · by_cases none : last.additionalLength = 0
    · simp [none, addLength, bump_last_zero]
    · rw [number (merges none), ← count, add_length_last (by omega) nonempty, append_assoc]
  · intro back isBack
    have values := congrArg List.getLast? (bump_first_values first.additionalLength (front :: others))
    rw [getLast?_map, Option.mem_def.mp isBack] at values
    simpa [getLast?_cons, getLastD_eq_getLast?] using values

end

theorem erase_apart (before : List (Run T)) (moved : pos ≠ 0 → between ≠ [])
    (ended : rest = [] → pos' = 0) : let runs := before ++ (between ++ rest)
    let runs := if pos ≠ 0 then setLength runs before.length pos else runs
    let begin := if pos ≠ 0 then before.length + 1 else before.length
    let finish := (before ++ between).length
    let runs := if pos' ≠ 0 then setLength runs finish (lengthAt runs finish - pos') else runs
    eraseRange runs begin finish = before ++ keptPart (between ++ rest) pos ++ restPart rest pos' := by
  by_cases whole : pos = 0
  · have noPart : keptPart (between ++ rest) 0 = [] := by cases between ++ rest <;> rfl
    simp only [whole, ne_eq, not_true_eq_false, if_false, noPart, append_nil]
    rw [← append_assoc, shorten_end ended, eraseRange, drop_left, append_assoc, take_left]
  cases between with
  | nil => exact absurd rfl (moved whole)
  | cons run others =>
    have part : keptPart (run :: (others ++ rest)) pos = [⟨run.value, pos⟩] := by simp [keptPart, whole]
    have length : (before ++ run :: others).length = (before ++ ⟨run.value, pos⟩ :: others).length := by simp
    have regroup : before ++ ⟨run.value, pos⟩ :: (others ++ rest) =
      (before ++ ⟨run.value, pos⟩ :: others) ++ rest := by simp
    simp only [whole, ne_eq, not_false_eq_true, if_true, part, cons_append]
    rw [set_length_append, length, regroup, shorten_end ended, eraseRange, drop_left]
    have front : before ++ ⟨run.value, pos⟩ :: others ++ restPart rest pos' =
        (before ++ [⟨run.value, pos⟩]) ++ (others ++ restPart rest pos') := by simp
    have size : before.length + 1 = (before ++ [(⟨run.value, pos⟩ : Run T)]).length := by simp
    rw [front, size, take_left]

theorem erase_merged (kept others between rest : List (Run T)) (run : Run T) (length : Nat) :
    let finish := (kept ++ others ++ between).length
    eraseRange (setLength (kept ++ others ++ between ++ run :: rest) finish length) kept.length finish =
      kept ++ { run with length := length } :: rest := by
  simp only [set_length_append, eraseRange, drop_left]
  simp

variable [DecidableEq T]

theorem remove_unchecked_runs (positive : Positive rle.runs) (total : rle.total = totalLength rle.runs)
    (small : rle.total < 2 ^ width) (order : startIndex ≤ endIndex) (inside : endIndex ≤ rle.total) :
    (rle.removeUnchecked width startIndex endIndex).runs =
      joinRuns (cutRuns startIndex rle.runs).1 (cutRuns endIndex rle.runs).2 := by
  obtain ⟨before, after, pos, scanned, reached⟩ :=
    scan_reaches width rle.runs startIndex (by omega) (by omega)
  obtain ⟨between, rest, pos', scannedAgain, split, reachedEnd⟩ :=
    scan_again_reaches width endIndex (by omega) reached order (by omega)
  have whole : rle.runs = before ++ (between ++ rest) := by rw [reached.split, split]
  rw [reached_cut positive reached, reached_cut positive reachedEnd]
  -- Without a merge: the two sides stay as they are.
  have apart (unmerged : ¬ (startIndex ≠ 0 ∧ endIndex ≠ rle.total ∧
        valueAt rle.runs (if pos ≠ 0 then before.length else before.length - 1) = valueAt rle.runs (before ++ between).length))
      (moved : pos ≠ 0 → between ≠ []) (different : Apart (before ++ keptPart after pos) (restPart rest pos')) :
      (rle.removeUnchecked width startIndex endIndex).runs = joinRuns (before ++ keptPart after pos) (restPart rest pos') := by
    rw [join_apart _ _ different, split, ← erase_apart before moved reachedEnd.ended]
    simp only [removeUnchecked, scanned, scannedAgain, unmerged, if_false, ← whole]
  rcases previous_run positive reached with
    ⟨first, empty⟩ | ⟨kept, last, others, isKept, isPrefix, later, previous, value, length⟩
  · apply apart
    · simp [first]
    · intro part
      have position := reached.position
      omega
    · simp [empty, Apart]
  · rcases following_run total reachedEnd with
      ⟨final, empty⟩ | ⟨run, tail, isRest, earlier, short, valueEnd, lengthEnd⟩
    · apply apart
      · simp [final]
      · intro part none
        exact part (reached.ended (by rw [split, none, empty]; rfl))
      · simp [empty, restPart, Apart]
    · by_cases same : last.value = run.value
      · have merged : startIndex ≠ 0 ∧ endIndex ≠ rle.total ∧
            valueAt rle.runs kept.length = valueAt rle.runs (before ++ between).length := by
          rw [value, valueEnd, same]
          exact ⟨later, earlier, rfl⟩
        have computed : (rle.removeUnchecked width startIndex endIndex).runs =
            eraseRange (setLength rle.runs (before ++ between).length
              (sizeSub width run.length (sizeSub width pos' last.length))) kept.length (before ++ between).length := by
          simp only [removeUnchecked, scanned, scannedAgain, previous, merged, length, lengthEnd, and_self, if_true, ne_eq,
            not_true_eq_false, not_false_eq_true, if_false]
        have count := kept_length reached
        have position := reachedEnd.position
        rw [isKept, total_length_append, total_length_cons] at count
        rw [whole, isRest, ← append_assoc, total_length_append, total_length_cons] at total
        rw [computed, size_sub_sub width run.length pos' last.length (by omega) (by omega) (by omega), isKept, isRest,
          rest_part_cons]
        have joined := join_merged kept tail last ⟨run.value, run.length - pos'⟩ same
        rw [joined, whole, isRest, ← append_assoc, isPrefix, erase_merged, same, Nat.add_comm]
      · apply apart
        · rw [previous, value, valueEnd]
          simp [same]
        · intro part none
          rw [if_pos part] at previous
          rw [none, append_nil, previous, value] at valueEnd
          exact same (Option.some.inj valueEnd)
        · rw [isKept, isRest, rest_part_cons]
          simpa [Apart] using same

end Cogterm.Til
