import Cogterm.Rle.ReplaceResult

namespace Cogterm.Til

open Library Rle List Option

variable {T : Type}

-- Every length is a value of the size type, so the total fits it.
structure WellFormed (width : Nat) (rle : Rle T) : Prop where
  canonical : Canonical rle.runs
  total : rle.total = totalLength rle.runs
  fits : rle.total < 2 ^ width

variable {width : Nat} {rle : Rle T}

theorem scan_past_end (width : Nat) (runs : List (Run T)) (scanner : Scanner) (index : Nat)
    (bound : scanner.total + totalLength runs < 2 ^ width) (past : scanner.total + totalLength runs ≤ index) :
    (scanRuns width runs scanner index).1.it = scanner.it + runs.length := by
  induction runs generalizing scanner with
  | nil => rfl
  | cons run rest ih =>
    rw [total_length_cons] at bound past
    have plain := size_add_eq width scanner.total run.length (by omega)
    have further : ¬ sizeAdd width scanner.total run.length > index := by omega
    rw [scanRuns, if_neg further, ih _ (by simp only; omega) (by simp only; omega), length_cons]
    simp only
    omega

theorem decode_at {before after : List (Run T)} (inside : pos < run.length) :
    (decode (before ++ run :: after))[totalLength before + pos]? = some run.value := by
  rw [decode_append, getElem?_append_right (by simp), decode_length, Nat.add_sub_cancel_left,
    decode_cons, getElem?_append_left (by simpa using inside), getElem?_replicate_of_lt inside]

theorem at_position_decodes (wellFormed : WellFormed width rle) (position : Nat) :
    rle.atPosition width position = (decode rle.runs)[position]? := by
  obtain ⟨_, total, fits⟩ := wellFormed
  by_cases inside : position < rle.total
  · obtain ⟨before, after, pos, scanned, reached⟩ := scan_reaches width rle.runs position (by omega) (by omega)
    rcases following_run total reached with
      ⟨last, _⟩ | ⟨run, rest, split, _, short, value, _⟩
    · omega
    have found : rle.atPosition width position = some run.value := by
      rw [atPosition, scanned]
      exact value
    rw [found, reached.split, split, reached.position, decode_at short]
  · have ended := scan_past_end width rle.runs startScan position (by simp only [startScan]; omega)
      (by simp only [startScan]; omega)
    have beyond : (scan width rle.runs startScan position).1.it = rle.runs.length := by simpa [scan, startScan] using ended
    rw [atPosition, beyond, getElem?_eq_none (Nat.le_refl _), getElem?_eq_none (by rw [decode_length]; omega)]
    rfl

theorem reached_last {runs before after : List (Run T)} (positive : Positive runs)
    (inside : index < totalLength runs) (reached : Reached runs index before after pos) :
    ∃ run rest, after = run :: rest ∧ pos < run.length ∧
    (cutRuns (index + 1) runs).1 = before ++ [⟨run.value, pos + 1⟩] := by
  obtain ⟨split, position, short, ended⟩ := reached
  cases after with
  | nil =>
    rw [split, append_nil] at inside
    omega
  | cons run rest =>
    have shorter := short run rfl
    refine ⟨run, rest, rfl, shorter, ?_⟩
    by_cases whole : pos + 1 = run.length
    · have next : Reached runs (index + 1) (before ++ [run]) rest 0 := by
        refine ⟨by simp [split], by simp; omega, ?_, fun _ => rfl⟩
        intro head isHead
        rw [split, positive_append, positive_cons] at positive
        exact positive.2.2 head (mem_of_mem_head? isHead)
      have noPart : keptPart rest 0 = [] := by cases rest <;> rfl
      simp [reached_cut positive next, noPart, whole]
    · have next : Reached runs (index + 1) before (run :: rest) (pos + 1) := by
        refine ⟨split, by omega, ?_, by simp⟩
        intro head isHead
        rw [head?_cons, mem_some_iff] at isHead
        rw [← isHead]
        omega
      rw [reached_cut positive next]
      simp [keptPart]

theorem slice_runs (wellFormed : WellFormed width rle) {startIndex endIndex : Nat} (order : startIndex < min endIndex rle.total) :
    (rle.slice width startIndex endIndex).runs = (cutRuns startIndex (cutRuns (min endIndex rle.total) rle.runs).1).2 := by
  obtain ⟨canonical, total, fits⟩ := wellFormed
  generalize finish : min endIndex rle.total = last at *
  obtain ⟨before, after, pos, scanned, reached⟩ := scan_reaches width rle.runs startIndex (by omega) (by omega)
  obtain ⟨between, rest, pos', scannedAgain, split, reachedEnd⟩ :=
    scan_again_reaches width (last - 1) (by omega) reached (by omega) (by omega)
  obtain ⟨run, tail, isRest, short, cut⟩ :=
    reached_last canonical.positive (by omega) reachedEnd
  have position := reached.position
  have positionEnd := reachedEnd.position
  rw [Nat.sub_add_cancel (by omega : 1 ≤ last)] at cut
  have positive := (cut_positive last canonical.positive).1
  rw [cut, append_assoc] at positive
  -- Within the front part the start of the range is where it was.
  have reachedFront : Reached (before ++ (between ++ [⟨run.value, pos' + 1⟩])) startIndex before
      (between ++ [⟨run.value, pos' + 1⟩]) pos := by
    refine ⟨rfl, position, ?_, by simp⟩
    intro head isHead
    cases between with
    | nil =>
      rw [nil_append, head?_cons, mem_some_iff] at isHead
      rw [append_nil] at positionEnd
      rw [← isHead]
      simp only
      omega
    | cons first others =>
      apply reached.inside
      rw [split]
      exact isHead
  rw [cut, append_assoc, reached_cut positive reachedFront]
  have plain : sizeAdd width pos' 1 = pos' + 1 := size_add_eq width _ _ (by omega)
  have dropped : rle.runs.drop before.length = between ++ run :: tail := by simp [reached.split, split, isRest]
  have taken : (between ++ run :: tail).take ((before ++ between).length + 1 - before.length) = between ++ [run] := by
    have count : (before ++ between).length + 1 - before.length = (between ++ [run]).length := by
      simp only [length_append, length_cons, length_nil]
      omega
    have regroup : between ++ run :: tail = (between ++ [run]) ++ tail := by simp
    rw [count, regroup, take_left]
  have lastIndex : (between ++ [run]).length - 1 = between.length := by simp
  simp only [slice, finish, if_neg (Nat.not_le.mpr order), scanned, scannedAgain, dropped, taken, lastIndex,
    modify_append_length, plain]
  cases between with
  | nil => simp [rest_part_cons]
  | cons first others => rw [cons_append, rest_part_cons]; rfl

theorem resize_shrinks (wellFormed : WellFormed width rle) {newSize : Nat} (positive : newSize ≠ 0)
    (shorter : newSize < rle.total) :
    rle.resizeTrailingExtent width newSize = some ⟨(cutRuns newSize rle.runs).1, newSize⟩ := by
  obtain ⟨canonical, total, fits⟩ := wellFormed
  obtain ⟨before, after, pos, scanned, reached⟩ := scan_reaches width rle.runs (newSize - 1) (by omega) (by omega)
  obtain ⟨run, rest, isAfter, short, cut⟩ :=
    reached_last canonical.positive (by omega) reached
  rw [Nat.sub_add_cancel (by omega : 1 ≤ newSize)] at cut
  have position := reached.position
  have plain : sizeAdd width pos 1 = pos + 1 := size_add_eq width _ _ (by omega)
  have runs := reached.split
  rw [isAfter] at runs
  have regroup : before ++ ({ run with length := pos + 1 } : Run T) :: rest =
      (before ++ [{ run with length := pos + 1 }]) ++ rest := by simp
  have place : before.length + 1 = (before ++ [({ run with length := pos + 1 } : Run T)]).length := by simp
  rw [resizeTrailingExtent, if_neg positive, if_pos shorter]
  simp only [scanned, plain]
  rw [runs, set_length_append, ← runs, cut, eraseRange, drop_length, append_nil, regroup, place, take_left]

variable [DecidableEq T]

theorem resize_grows (width : Nat) (rle : Rle T) (wellFormed : WellFormed width rle) (newSize : Nat)
    (longer : rle.total < newSize) (fits : newSize < 2 ^ width) : rle.resizeTrailingExtent width newSize =
      rle.runs.getLast?.map (fun last => ⟨joinRuns rle.runs [⟨last.value, newSize - rle.total⟩], newSize⟩) := by
  have total := wellFormed.total
  rw [resizeTrailingExtent, if_neg (by omega), if_neg (by omega), if_pos longer]
  generalize rle.runs = runs at *
  cases runs using List.reverseRecOn with
  | nil => rfl
  | append_singleton init last =>
    rw [total_length_append, total_length_cons] at total
    have plain : sizeAdd width last.length (newSize - rle.total) = last.length + (newSize - rle.total) :=
      size_add_eq width _ _ (by omega)
    have joined := join_merged init [] last ⟨last.value, newSize - rle.total⟩ rfl
    simp [joined, modify_append_length, plain]

theorem compact_from_result (ref : Run T) (positive : Positive (ref :: rest)) (fits : totalLength (ref :: rest) < 2 ^ width) :
    Canonical (compactFrom width ref rest) ∧ decode (compactFrom width ref rest) = decode (ref :: rest) ∧
      (compactFrom width ref rest).head?.map Run.value = some ref.value := by
  induction rest generalizing ref with
  | nil => exact ⟨⟨positive, isChain_singleton ref⟩, rfl, rfl⟩
  | cons run rest ih =>
    rw [positive_cons, positive_cons] at positive
    rw [total_length_cons, total_length_cons] at fits
    have plain : sizeAdd width ref.length run.length = ref.length + run.length := size_add_eq width _ _ (by omega)
    rw [compactFrom]
    by_cases same : ref.value = run.value
    · rw [if_pos same, plain]
      obtain ⟨canonical, decoded, head⟩ := ih { ref with length := ref.length + run.length }
        (positive_cons.mpr ⟨by simp only; omega, positive.2.2⟩) (by rw [total_length_cons]; simp only; omega)
      refine ⟨canonical, ?_, head⟩
      rw [decoded]
      simp [← same, ← append_assoc]
    · rw [if_neg same]
      obtain ⟨canonical, decoded, head⟩ := ih run (positive_cons.mpr positive.2) (by rw [total_length_cons]; omega)
      refine ⟨canonical_cons positive.1 canonical ?_, ?_, rfl⟩
      · intro first isFirst
        rw [mem_def.mp isFirst, map_some, Option.some.injEq] at head
        rw [head]
        exact same
      · simp [decoded]

theorem compact_result (width : Nat) {runs : List (Run T)} (positive : Positive runs) (fits : totalLength runs < 2 ^ width) :
    Canonical (compact width runs) ∧ decode (compact width runs) = decode runs ∧
      (compact width runs).head?.map Run.value = runs.head?.map Run.value := by
  induction runs with
  | nil => exact ⟨⟨positive_nil, isChain_nil⟩, rfl, rfl⟩
  | cons ref rest ih =>
    cases rest with
    | nil => exact ⟨⟨positive, isChain_singleton ref⟩, rfl, rfl⟩
    | cons run rest =>
      by_cases same : ref.value = run.value
      · -- From the first equal pair on, this is the inner loop.
        have entered : compact width (ref :: run :: rest) = compactFrom width ref (run :: rest) := by
          simp [compact, compactFrom, if_pos same]
        rw [entered]
        exact compact_from_result ref positive fits
      · rw [positive_cons] at positive
        rw [total_length_cons] at fits
        obtain ⟨canonical, decoded, head⟩ := ih positive.2 (by omega)
        rw [compact, if_neg same]
        refine ⟨canonical_cons positive.1 canonical ?_, ?_, rfl⟩
        · intro first isFirst
          rw [mem_def.mp isFirst] at head
          rw [Option.some.inj head]
          exact same
        · simp [decoded]

theorem replace_values_result (wellFormed : WellFormed width rle) {oldValue newValue : T} :
    WellFormed width (rle.replaceValues width oldValue newValue) ∧ decode (rle.replaceValues width oldValue newValue).runs =
        (decode rle.runs).map (fun value => if value = oldValue then newValue else value) := by
  obtain ⟨canonical, total, fits⟩ := wellFormed
  have assigned : rle.runs.map (fun run => if run.value = oldValue then { run with value := newValue } else run) =
      rle.runs.map (fun run => { run with value := if run.value = oldValue then newValue else run.value }) := by
    apply map_congr_left
    intro run _
    split <;> rfl
  have decoded := decode_map_values (fun value => if value = oldValue then newValue else value) rle.runs
  rw [← assigned] at decoded
  have lengths := congrArg List.length decoded
  rw [decode_length, length_map, decode_length] at lengths
  have positive : Positive (rle.runs.map (fun run => if run.value = oldValue then { run with value := newValue } else run)) := by
    rw [assigned]
    intro run member
    obtain ⟨old, isOld, rfl⟩ := mem_map.mp member
    exact canonical.positive old isOld
  obtain ⟨compacted, same, _⟩ := compact_result width positive (by omega)
  refine ⟨⟨compacted, ?_, fits⟩, same.trans decoded⟩
  rw [replaceValues, ← decode_length, same, decode_length, lengths]
  exact total

end Cogterm.Til
