import Cogterm.Unicode.Backward
import Mathlib.Data.List.TakeWhile

namespace Cogterm.Unicode

open Library Segmenter List

variable {str : StringView}

section

variable {σ τ : Type} {M : Segmenter Symbol σ} {N : Segmenter Symbol τ}

theorem placed_alike (width : σ → Nat) (width' : τ → Nat)
    (total : List Symbol → Nat) (reversed : ∀ cluster, total cluster.reverse = total cluster)
    (forward : ∀ text, ∀ cluster ∈ M.segments text, width cluster.2 = total cluster.1)
    (backward : ∀ text, ∀ cluster ∈ N.segments text, width' cluster.2 = total cluster.1)
    (same : (M.segments text).map Prod.fst = mirrored (N.advance ([], none) text.reverse)) :
    (M.segments text).map (measured width) = ((N.segments text.reverse).map (measured width')).reverse := by
  have left : (M.segments text).map (measured width) =
      ((M.segments text).map Prod.fst).map (fun cluster => (unitCount cluster, total cluster)) := by
    rw [map_map]
    apply map_congr_left
    intro cluster member
    simp [measured, forward text cluster member]
  have units (cluster : List Symbol) : unitCount cluster.reverse = unitCount cluster := by simp [unitCount]
  have right : ((N.segments text.reverse).map (measured width')).reverse =
      (mirrored (N.advance ([], none) text.reverse)).map (fun cluster => (unitCount cluster, total cluster)) := by
    have order (progress : Progress Symbol τ) : progress.2.toList ++ progress.1.reverse = (finished progress).reverse := by
      cases opened : progress.2 <;> simp [finished, opened]
    rw [mirrored, order, map_map, ← map_reverse]
    apply map_congr_left
    intro cluster member
    simp [measured, units, reversed, backward text.reverse cluster (mem_reverse.mp member)]
  rw [left, right, same]

theorem unit_count_code_points (text : List WChar) : unitCount (codePoints text) = text.length := by
  induction text using codePoints.induct with
  | case1 => rfl
  | case2 c => simp [codePoints]
  | case3 c1 c2 rest pair ih =>
    simp [codePoints, pair]
    omega
  | case4 c1 c2 rest apart ih =>
    simp [codePoints, apart, ih]
    omega

theorem measured_total (M : Segmenter Symbol σ) (width : σ → Nat) (text : List WChar) :
    (((M.segments (codePoints text)).map (measured width)).map Prod.fst).sum = text.length := by
  have flat (clusters : List (List Symbol × σ)) :
      ((clusters.map (measured width)).map Prod.fst).sum = unitCount (clusters.map Prod.fst).flatten := by
    induction clusters with
    | nil => rfl
    | cons cluster rest ih =>
      rw [map_cons, map_cons, sum_cons, ih]
      simp [measured]
  rw [flat, segments_flatten, unit_count_code_points]

theorem directions_alike (alike : (M.segments (codePoints str.chars)).map (measured width) =
      ((N.segments (codePoints str.chars).reverse).map (measured width')).reverse) :
    (placedBefore str.finish ((N.segments (codePoints str.chars).reverse).map (measured width'))).reverse =
      placedFrom str.begin ((M.segments (codePoints str.chars)).map (measured width)) := by
  have total := measured_total M width str.chars
  have placed := placed_reverse str.begin ((M.segments (codePoints str.chars)).map (measured width))
  rw [total] at placed
  rw [← placed, alike, reverse_reverse]
  rfl

end

theorem wcswidth_back_width (a : Symbol) (rest : List Symbol) :
    ∃ done cluster, wcswidthsBack.advance ([], none) (a :: rest).reverse =
      (done, some (cluster, resolvedWidth (ucdLookup a.1))) := by
  rw [advance_reverse_cons]
  obtain ⟨done, opened⟩ := wcswidthsBack.advance ([], none) rest.reverse
  cases opened with
  | none => exact ⟨done, [a], rfl⟩
  | some last =>
    by_cases zero : last.2 = 0
    · exact ⟨done, last.1 ++ [a], by simp [step, wcswidthsBack, zero]⟩
    · exact ⟨done ++ [last], [a], by simp [step, wcswidthsBack, zero]⟩

def totalWidth (cluster : List Symbol) : Nat := (cluster.map (fun symbol => resolvedWidth (ucdLookup symbol.1))).sum

theorem wcswidth_directions : (allClusters graphemePrevWcswidth str).reverse = allClusters graphemeNextWcswidth str := by
  have same := segments_mirror wcswidths wcswidthsBack (fun _ _ => True)
    (by
      intro state a b rest cluster other _ isOther
      obtain ⟨done, others, progress⟩ := wcswidth_back_width b rest
      rw [progress, Option.some.injEq, Prod.mk.injEq] at isOther
      rw [← isOther.2]
      simp [wcswidths, wcswidthsBack])
    (fun _ _ _ _ _ => trivial) (codePoints str.chars) (fun _ _ _ => trivial)
  have widths := placed_alike id id totalWidth
    (by
      intro cluster
      simp [totalWidth])
    (fun text => segments_all wcswidths (fun cluster width => width = totalWidth cluster) (by simp [wcswidths, totalWidth])
      (by
        intro cluster width symbol next holds joined
        by_cases zero : resolvedWidth (ucdLookup symbol.1) = 0
        · simp only [wcswidths, zero, if_true, Option.some.injEq] at joined
          simp [← joined, holds, totalWidth, zero]
        · simp [wcswidths, zero] at joined) text)
    (fun text => segments_all wcswidthsBack (fun cluster width => width = totalWidth cluster)
      (by simp [wcswidthsBack, totalWidth])
      (by
        intro cluster width symbol next holds joined
        by_cases zero : width = 0
        · simp only [wcswidthsBack, zero, if_true, Option.some.injEq] at joined
          rw [zero] at holds
          simp only [totalWidth] at holds ⊢
          simp [← joined, ← holds]
        · simp [wcswidthsBack, zero] at joined) text) same
  rw [all_clusters_prev wcswidthsBack id wcswidth_prev_outcome, all_clusters_next wcswidths id (wcswidth_next_outcome none) rfl]
  exact directions_alike widths

open Option

variable {symbol : Symbol}

section

def regional (symbol : Symbol) : Bool := isRegionalIndicator symbol.1

def leadingRun (symbols : List Symbol) : Nat := (symbols.takeWhile regional).length

-- No maximal run of regional indicators has an odd length of three or more.
def NoOddRun (symbols : List Symbol) : Prop :=
  ∀ before run after, symbols = before ++ run ++ after → (∀ symbol ∈ run, regional symbol = true) →
    (∀ symbol ∈ before.getLast?, regional symbol = false) → (∀ symbol ∈ after.head?, regional symbol = false) →
      ¬ (run.length % 2 = 1 ∧ 3 ≤ run.length)

theorem leading_run_regional (isRegional : regional symbol = true) : leadingRun (symbol :: rest) = leadingRun rest + 1 := by
  simp [leadingRun, isRegional]

theorem leading_run_other (other : regional symbol = false) : leadingRun (symbol :: rest) = 0 := by
  simp [leadingRun, other]

variable {symbols : List Symbol}

theorem no_odd_run_leading (noOdd : NoOddRun symbols) : leadingRun symbols % 2 = 0 ∨ leadingRun symbols ≤ 1 := by
  have leading := noOdd [] (symbols.takeWhile regional) (symbols.dropWhile regional) (by simp)
    (fun symbol member => mem_takeWhile_imp member) (by simp)
    (by
      intro symbol isHead
      have stops := head?_dropWhile_not regional symbols
      rw [mem_def.mp isHead] at stops
      simpa using stops)
  rw [leadingRun]
  omega

theorem no_odd_run_tail (other : regional symbol = false) (noOdd : NoOddRun (symbol :: rest)) : NoOddRun rest := by
  intro before run after split allRegional endsBefore startsAfter
  apply noOdd (symbol :: before) run after (by rw [split]; rfl) allRegional ?_ startsAfter
  intro last isLast
  cases before with
  | nil =>
    rw [getLast?_singleton, mem_some_iff] at isLast
    rwa [← isLast]
  | cons head tail =>
    exact endsBefore last isLast

theorem no_odd_run_drop (noOdd : NoOddRun symbols) : NoOddRun (symbols.dropWhile regional) := by
  intro before run after split allRegional endsBefore startsAfter
  cases before with
  | nil =>
    -- The dropped part is maximal, so nothing of a run is left at the front.
    cases run with
    | nil => simp
    | cons first others =>
      have stops := head?_dropWhile_not regional symbols
      rw [split] at stops
      have isRegional := allRegional first mem_cons_self
      simp [isRegional] at stops
  | cons head tail =>
    apply noOdd (symbols.takeWhile regional ++ head :: tail) run after ?_ allRegional ?_ startsAfter
    · rw [append_assoc, append_assoc, ← append_assoc (head :: tail), ← split, takeWhile_append_dropWhile]
    · intro last isLast
      rw [getLast?_append_of_ne_nil _ (by simp)] at isLast
      exact endsBefore last isLast

end

def stateAfter (joined : Nat) : Nat := if ucdGraphemeDone joined then 0 else joined

theorem joined_state (direction : Direction) (state : GraphemeCluster) (a : Symbol) :
    (((graphemes direction).join state a).getD ((graphemes direction).first a)).last = ucdLookup a.1 ∧
      (((graphemes direction).join state a).getD ((graphemes direction).first a)).state =
        stateAfter (direction.joins state.state state.last (ucdLookup a.1)) := by
  cases closes : ucdGraphemeDone (direction.joins state.state state.last (ucdLookup a.1)) with
  | true => simp [graphemes, stateAfter, closes]
  | false => simp [graphemes, stateAfter, closes]

theorem state_after_regional (lead : regional a = true) (trail : regional b = true) :
    stateAfter (ucdGraphemeJoins 0 (ucdLookup a.1) (ucdLookup b.1)) = 1 ∧
      stateAfter (ucdGraphemeJoins 1 (ucdLookup a.1) (ucdLookup b.1)) = 0 := by
  obtain ⟨zero, one⟩ := joins_regional lead trail
  rw [zero, one]
  exact ⟨rfl, rfl⟩

theorem state_after_other (other : ¬ (regional a = true ∧ regional b = true)) (state : Nat)
    (small : state = 0 ∨ state = 1) : stateAfter (ucdGraphemeJoins state (ucdLookup a.1) (ucdLookup b.1)) = 0 := by
  obtain ⟨same, zero | three⟩ := joins_other other
  · rcases small with rfl | rfl
    · rw [zero]
      rfl
    · rw [same, zero]
      rfl
  · rcases small with rfl | rfl
    · rw [three]
      rfl
    · rw [same, three]
      rfl

-- Read from the end, a pair is complete after an even number of indicators.
def pairedState (run : Nat) : Nat := if 2 ≤ run ∧ run % 2 = 0 then 1 else 0

theorem graphemes_back_state (a : Symbol) (rest : List Symbol) :
    ∃ done cluster state, (graphemes .prev).advance ([], none) (a :: rest).reverse = (done, some (cluster, state)) ∧
      state.last = ucdLookup a.1 ∧ state.state = pairedState (leadingRun (a :: rest)) := by
  induction rest generalizing a with
  | nil =>
    refine ⟨[], [a], (graphemes .prev).first a, rfl, rfl, ?_⟩
    cases isRegional : regional a <;> simp [leadingRun, isRegional, graphemes, pairedState]
  | cons b rest ih =>
    obtain ⟨done, cluster, state, progress, last, value⟩ := ih b
    obtain ⟨done', cluster', stepped⟩ := step_opened (graphemes .prev) done cluster state a
    obtain ⟨last', value'⟩ := joined_state .prev state a
    refine ⟨done', cluster', _, ?_, last', ?_⟩
    · rw [advance_reverse_cons, progress, stepped]
    · rw [value', last, value]
      by_cases pair : regional a = true ∧ regional b = true
      · obtain ⟨opens, closes⟩ := state_after_regional pair.1 pair.2
        rw [leading_run_regional pair.1, leading_run_regional pair.2]
        by_cases odd : leadingRun rest % 2 = 0
        · rw [show pairedState (leadingRun rest + 1) = 0 from if_neg (by omega),
            show pairedState (leadingRun rest + 1 + 1) = 1 from if_pos (by omega)]
          exact opens
        · rw [show pairedState (leadingRun rest + 1) = 1 from if_pos (by omega),
            show pairedState (leadingRun rest + 1 + 1) = 0 from if_neg (by omega)]
          exact closes
      · have short : leadingRun (a :: b :: rest) ≤ 1 := by
          cases isLead : regional a with
          | false => simp [leading_run_other isLead]
          | true =>
            have isOther : regional b = false := by simpa [isLead] using pair
            rw [leading_run_regional isLead, leading_run_other isOther]
        rw [show pairedState (leadingRun (a :: b :: rest)) = 0 from if_neg (by omega)]
        apply state_after_other pair
        unfold pairedState
        split <;> simp

-- What the forward reading keeps: the state is the parity of the indicators
-- read since their run began, so it fits what is left of the run.
structure InPairs (state : GraphemeCluster) (symbols : List Symbol) : Prop where
  last : ∀ symbol ∈ symbols.head?, state.last = ucdLookup symbol.1
  parity : (state.state = 0 ∧ (leadingRun symbols % 2 = 0 ∨ leadingRun symbols ≤ 1)) ∨
    (state.state = 1 ∧ leadingRun symbols % 2 = 1)
  later : NoOddRun (symbols.dropWhile regional)

theorem in_pairs_first (noOdd : NoOddRun (a :: rest)) : InPairs ((graphemes .next).first a) (a :: rest) := by
  refine ⟨?_, Or.inl ⟨rfl, no_odd_run_leading noOdd⟩, no_odd_run_drop noOdd⟩
  intro symbol isHead
  rw [head?_cons, mem_some_iff] at isHead
  rw [← isHead]
  rfl

theorem in_pairs_alike (state : GraphemeCluster) (a b : Symbol) (rest cluster : List Symbol) (other : GraphemeCluster)
    (inPairs : InPairs state (a :: b :: rest))
    (opened : ((graphemes .prev).advance ([], none) (b :: rest).reverse).2 = some (cluster, other)) :
    (graphemes .next).join state b = none ↔ (graphemes .prev).join other a = none := by
  obtain ⟨done, cluster', other', progress, last, value⟩ := graphemes_back_state b rest
  rw [progress, Option.some.injEq, Prod.mk.injEq] at opened
  rw [← opened.2]
  have same : ucdGraphemeDone (ucdGraphemeJoins state.state (ucdLookup a.1) (ucdLookup b.1)) =
      ucdGraphemeDone (ucdGraphemeJoins other'.state (ucdLookup a.1) (ucdLookup b.1)) := by
    by_cases pair : regional a = true ∧ regional b = true
    · have runs := inPairs.parity
      rw [leading_run_regional pair.1, leading_run_regional pair.2] at runs
      rw [leading_run_regional pair.2, pairedState] at value
      rcases runs with ⟨zero, even⟩ | ⟨one, odd⟩
      · rw [zero, value, if_neg (by omega)]
      · rw [one, value, if_pos (by omega)]
    · have joinsOther := (joins_other pair).1
      have small : state.state = 0 ∨ state.state = 1 := by
        have := inPairs.parity
        omega
      have small' : other'.state = 0 ∨ other'.state = 1 := by
        rw [value, pairedState]
        split <;> simp
      rcases small with zero | one <;> rcases small' with zero' | one' <;> simp_all
  have lead := inPairs.last a rfl
  simp only [graphemes, Direction.next, Direction.prev, lead, last, same]
  split <;> simp

theorem in_pairs_step (state : GraphemeCluster) (a b : Symbol) (rest : List Symbol) (inPairs : InPairs state (a :: b :: rest)) :
    InPairs (((graphemes .next).join state b).getD ((graphemes .next).first b)) (b :: rest) := by
  obtain ⟨last, value⟩ := joined_state .next state b
  have lead := inPairs.last a rfl
  have joins : Direction.next.joins state.state state.last (ucdLookup b.1) =
      ucdGraphemeJoins state.state (ucdLookup a.1) (ucdLookup b.1) := by
    rw [lead]
    rfl
  rw [joins] at value
  refine ⟨?_, ?_, ?_⟩
  · intro symbol isHead
    rw [head?_cons, mem_some_iff] at isHead
    rw [last, isHead]
  · rw [value]
    by_cases pair : regional a = true ∧ regional b = true
    · obtain ⟨opens, closes⟩ := state_after_regional pair.1 pair.2
      have runs := inPairs.parity
      rw [leading_run_regional pair.1, leading_run_regional pair.2] at runs
      rw [leading_run_regional pair.2]
      rcases runs with ⟨zero, even⟩ | ⟨one, odd⟩
      · rw [zero]
        omega
      · rw [one]
        omega
    · have small : state.state = 0 ∨ state.state = 1 := by
        have := inPairs.parity
        omega
      rw [state_after_other pair state.state small]
      refine Or.inl ⟨rfl, ?_⟩
      cases isLead : regional a with
      | true =>
        have isOther : regional b = false := by simpa [isLead] using pair
        exact Or.inl (by rw [leading_run_other isOther])
      | false =>
        have later := inPairs.later
        rw [dropWhile_cons_of_neg (by simp [isLead])] at later
        exact no_odd_run_leading (no_odd_run_tail isLead later)
  · have later := inPairs.later
    cases isLead : regional a with
    | true => rwa [dropWhile_cons_of_pos isLead] at later
    | false =>
      rw [dropWhile_cons_of_neg (by simp [isLead])] at later
      exact no_odd_run_drop (no_odd_run_tail isLead later)

def clampedWidth (cluster : List Symbol) : Nat :=
  min 2 (cluster.map (fun symbol => graphemeWidth symbol.1 (ucdLookup symbol.1))).sum

theorem graphemes_width (direction : Direction) (text : List Symbol) :
    ∀ cluster ∈ (graphemes direction).segments text, cluster.2.width = clampedWidth cluster.1 := by
  apply segments_all (graphemes direction) (fun cluster state => state.width = clampedWidth cluster)
  · intro symbol
    simp [graphemes, clampedWidth]
  · intro cluster state symbol next holds joined
    simp only [graphemes] at joined
    split at joined
    · exact absurd joined (by simp)
    rw [Option.some.injEq] at joined
    rw [← joined, holds, clampedWidth, clampedWidth]
    simp only [map_append, sum_append, map_singleton, sum_singleton]
    omega

theorem grapheme_directions (noOdd : NoOddRun (codePoints str.chars)) :
    (allClusters graphemePrev str).reverse = allClusters graphemeNext str := by
  have same := segments_mirror (graphemes .next) (graphemes .prev) InPairs in_pairs_alike in_pairs_step
    (codePoints str.chars)
    (by
      intro a rest isText
      rw [isText] at noOdd ⊢
      exact in_pairs_first noOdd)
  have reversed (cluster : List Symbol) : clampedWidth cluster.reverse = clampedWidth cluster := by simp [clampedWidth]
  have widths := placed_alike GraphemeCluster.width GraphemeCluster.width clampedWidth
    reversed (graphemes_width .next) (graphemes_width .prev) same
  rw [all_clusters_prev (graphemes .prev) GraphemeCluster.width grapheme_prev_outcome,
    all_clusters_next (graphemes .next) GraphemeCluster.width grapheme_next_outcome rfl]
  exact directions_alike widths

theorem prev_mirrors_next (str : StringView) :
    (NoOddRun (codePoints str.chars) → (allClusters graphemePrev str).reverse = allClusters graphemeNext str) ∧
      (allClusters graphemePrevWcswidth str).reverse = allClusters graphemeNextWcswidth str :=
  ⟨grapheme_directions, wcswidth_directions⟩

def loneFlag : StringView := ⟨0x1000, [0xD800, 0xD83C, 0xDDE9, 0xD83C, 0xDDEA], by decide⟩

theorem prev_mirrors_next_lone_flag :
    NoOddRun (codePoints loneFlag.chars) ∧ (allClusters graphemePrev loneFlag).reverse = allClusters graphemeNext loneFlag := by
  have noOdd : NoOddRun (codePoints loneFlag.chars) := by
    intro before run after split allRegional _ _ odd
    have length := congrArg List.length split
    have first : (codePoints loneFlag.chars).head? = some (0xFFFD, 1) := by decide
    have count : (codePoints loneFlag.chars).length = 3 := by decide
    rw [length_append, length_append] at length
    have nothing : before = [] := eq_nil_of_length_eq_zero (by omega)
    rw [split, nothing, head?_append_of_ne_nil _ (by rintro rfl; simp at odd)] at first
    have isRegional := allRegional _ (mem_of_head? first)
    exact absurd isRegional (by decide)
  exact ⟨noOdd, (prev_mirrors_next loneFlag).1 noOdd⟩

end Cogterm.Unicode
