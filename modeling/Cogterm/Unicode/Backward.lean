import Cogterm.Unicode.Pieces

namespace Cogterm.Unicode

open Library Segmenter List Prod Nat StringView

def collectClusters (step : GraphemeState → StringView → GraphemeState × Bool) :
    Nat → GraphemeState → StringView → List (Nat × Nat × Nat)
  | 0, _, _ => []
  | fuel + 1, s, str =>
    let result := step s str
    (result.1.beg, result.1.len, result.1.width) ::
      if result.2 then collectClusters step fuel result.1 str else []

def allClusters (step : GraphemeState → StringView → GraphemeState × Bool) (str : StringView) : List (Nat × Nat × Nat) :=
  if str.chars.isEmpty then [] else collectClusters step str.chars.length .initial str

def placedFrom : Nat → List (Nat × Nat) → List (Nat × Nat × Nat)
  | _, [] => []
  | pointer, cluster :: rest => (pointer, cluster) :: placedFrom (pointer + cluster.1) rest

def placedBefore : Nat → List (Nat × Nat) → List (Nat × Nat × Nat)
  | _, [] => []
  | pointer, cluster :: rest => (pointer - cluster.1, cluster) :: placedBefore (pointer - cluster.1) rest

theorem placed_before_append (pointer : Nat) (left right : List (Nat × Nat)) : placedBefore pointer (left ++ right) =
      placedBefore pointer left ++ placedBefore (pointer - (left.map fst).sum) right := by
  induction left generalizing pointer with
  | nil => rfl
  | cons cluster rest ih => simp [placedBefore, ih, Nat.sub_sub]

theorem placed_reverse (pointer : Nat) (clusters : List (Nat × Nat)) :
    (placedBefore (pointer + (clusters.map fst).sum) clusters.reverse).reverse = placedFrom pointer clusters := by
  induction clusters generalizing pointer with
  | nil => rfl
  | cons cluster rest ih =>
    have total : pointer + ((cluster :: rest).map fst).sum = (pointer + cluster.1) + (rest.map fst).sum := by simp [add_assoc]
    have sum : (rest.reverse.map fst).sum = (rest.map fst).sum := by simp
    rw [reverse_cons, placed_before_append, total, reverse_append, ih, sum]
    simp [placedBefore, placedFrom]

variable {str : StringView}

section

variable {σ : Type} (M : Segmenter Symbol σ) (width : σ → Nat) {holds : Option σ → GraphemeState → Prop}
  {step : GraphemeState → StringView → GraphemeState × Bool}

def measured (cluster : List Symbol × σ) : Nat × Nat := (unitCount cluster.1, width cluster.2)

variable (spec : ∀ s str pointer, holds none s → resetIfOutOfRange str.begin str.finish str.begin (s.beg + s.len) =
  pointer → pointer < str.finish → ∃ rest read cluster,
    Outcome M width holds none (str.textFrom pointer) rest read cluster pointer (step s str).1 (step s str).2)

include spec

theorem collect_next (fuel : Nat) (s : GraphemeState) (pointer : Nat) (fresh : holds none s)
    (isPointer : resetIfOutOfRange str.begin str.finish str.begin (s.beg + s.len) = pointer) (inside : pointer < str.finish)
    (enough : (str.textFrom pointer).length ≤ fuel) :
    collectClusters step fuel s str = placedFrom pointer
    ((M.segments (codePoints (str.textFrom pointer))).map (measured width)) := by
  have range := reset_in_range str.begin str.finish (s.beg + s.len) (le_add_right _ _)
  rw [isPointer] at range
  induction fuel generalizing s pointer with
  | zero =>
    have positive := length_pos_iff.mpr (text_from_ne_nil str pointer range.1 inside)
    omega
  | succ fuel ih =>
    obtain ⟨rest, read, cluster, outcome⟩ := spec s str pointer fresh isPointer inside
    obtain ⟨units, split, count⟩ := outcome.reads.split
    have positive := pulled_positive codePoints M code_points_positive _ rest read cluster outcome.reads
    have isLength := congrArg List.length split
    rw [textFrom, length_drop, length_append] at isLength
    have isBeg := outcome.beg
    have isLen := outcome.len
    rw [segments_pulled outcome.reads.pulls, collectClusters, map_cons, isBeg, isLen, outcome.measured]
    congr 1
    rw [outcome.goesOn]
    cases rest with
    | nil => rfl
    | cons head tail =>
      have further : str.textFrom (pointer + unitCount read) = head :: tail := by
        rw [← count]
        exact text_from_next range.1 split
      rw [length_cons] at isLength
      rw [begin] at range
      show collectClusters step fuel (step s str).1 str =
        placedFrom (pointer + unitCount read) ((M.segments (codePoints (head :: tail))).map (measured width))
      rw [← further]
      apply ih
      · exact outcome.after
      · rw [isBeg, isLen]
        apply reset_inside
        · rw [begin]
          omega
        · rw [finish]
          omega
      · rw [finish]
        omega
      · rw [textFrom, length_drop] at enough ⊢
        omega
      · rw [begin, finish]
        omega

theorem all_clusters_next (fresh : holds none .initial) (str : StringView) :
    allClusters step str = placedFrom str.begin ((M.segments (codePoints str.chars)).map (measured width)) := by
  cases empty : str.chars with
  | nil => simp [allClusters, empty, codePoints, segments, finished, advance, placedFrom]
  | cons head tail =>
    have whole : str.textFrom str.begin = str.chars := by simp [textFrom, begin]
    have started := collect_next M width spec str.chars.length .initial str.begin fresh
      (reset_clear (fun _ within => not_lt_zero _ within.1) (by simp [empty]))
      (Nat.lt_add_of_pos_right (by simp [empty])) (by rw [whole])
    rw [allClusters, started, whole]
    simp [empty]

omit spec

structure OutcomeBack (text rest : List WChar) (read : List Symbol) (cluster : σ) (pointer : Nat) (s : GraphemeState)
    (more : Bool) : Prop where
  reads : Reads codePointsBack M none text rest read cluster
  beg : s.beg + unitCount read = pointer
  len : s.len = unitCount read
  measured : s.width = width cluster
  goesOn : more = !rest.isEmpty
  after : rest.isEmpty = false → s.state = 0

theorem code_points_back_positive (text : List WChar) : ∀ symbol ∈ codePointsBack text, 0 < symbol.2 := by
  intro symbol member
  exact code_points_positive text.reverse symbol (mem_reverse.mp member)

variable {pointer : Nat}

theorem text_before_length (low : str.begin ≤ pointer) (high : pointer ≤ str.finish) :
    (str.textBefore pointer).length = pointer - str.begin := by
  rw [begin] at low ⊢
  rw [finish] at high
  rw [textBefore, length_reverse, length_take]
  omega

theorem text_before_next (low : str.begin ≤ pointer) (high : pointer ≤ str.finish)
    (split : str.textBefore pointer = units ++ rest) : str.textBefore (str.begin + rest.length) = rest := by
  have length := text_before_length low high
  rw [split, length_append] at length
  have front : str.chars.take (pointer - str.data) = rest.reverse ++ units.reverse := by
    simp [← reverse_append, ← split, textBefore]
  have shorter : str.chars.take rest.length = (str.chars.take (pointer - str.data)).take rest.length := by
    rw [take_take, min_eq_left]
    rw [begin] at length
    omega
  have exact : rest.length = rest.reverse.length := by simp
  rw [textBefore, begin, Nat.add_sub_cancel_left, shorter, front, exact, take_left, reverse_reverse]

theorem reset_inside_back (beg finish pointer : Nat) (low : beg ≤ pointer) (high : pointer ≤ finish) :
    resetIfOutOfRange beg finish finish pointer = pointer := by
  rw [resetIfOutOfRange, if_neg (not_lt.mpr low)]
  exact if_neg (not_lt.mpr high)

def StepsBack (step : GraphemeState → StringView → GraphemeState × Bool) : Prop :=
  ∀ s str pointer, s.state = 0 → resetIfOutOfRange str.begin str.finish str.finish s.beg = pointer → str.begin < pointer →
    pointer ≤ str.finish → ∃ rest read cluster,
      OutcomeBack M width (str.textBefore pointer) rest read cluster pointer (step s str).1 (step s str).2

theorem collect_prev (spec : StepsBack M width step) (fuel : Nat) (s : GraphemeState) (pointer : Nat) (fresh : s.state = 0)
    (isPointer : resetIfOutOfRange str.begin str.finish str.finish s.beg = pointer) (inside : str.begin < pointer)
    (high : pointer ≤ str.finish) (enough : (str.textBefore pointer).length ≤ fuel) : collectClusters step fuel s str =
      placedBefore pointer ((M.segments (codePointsBack (str.textBefore pointer))).map (measured width)) := by
  induction fuel generalizing s pointer with
  | zero =>
    rw [text_before_length (le_of_lt inside) high] at enough
    omega
  | succ fuel ih =>
    obtain ⟨rest, read, cluster, outcome⟩ := spec s str pointer fresh isPointer inside high
    obtain ⟨units, split, count⟩ := outcome.reads.split
    have positive := pulled_positive codePointsBack M code_points_back_positive _ rest read cluster outcome.reads
    have isLength := text_before_length (le_of_lt inside) high
    rw [isLength] at enough
    rw [split, length_append] at isLength
    have isBeg := outcome.beg
    have place : (step s str).1.beg = pointer - unitCount read := by omega
    rw [segments_pulled outcome.reads.pulls, collectClusters, map_cons, place, outcome.len, outcome.measured]
    congr 1
    rw [outcome.goesOn]
    cases rest with
    | nil => rfl
    | cons head tail =>
      have further := text_before_next (le_of_lt inside) high split
      have start : str.begin + (head :: tail).length = pointer - unitCount read := by omega
      rw [start] at further
      rw [length_cons] at start isLength
      show collectClusters step fuel (step s str).1 str =
        placedBefore (pointer - unitCount read) ((M.segments (codePointsBack (head :: tail))).map (measured width))
      rw [← further]
      apply ih
      · exact outcome.after rfl
      · rw [place]
        apply reset_inside_back
        · omega
        · omega
      · omega
      · omega
      · rw [text_before_length (by omega) (by omega)]
        omega

theorem all_clusters_prev (spec : StepsBack M width step) (str : StringView) :
    allClusters step str = placedBefore str.finish ((M.segments (codePoints str.chars).reverse).map (measured width)) := by
  cases empty : str.chars with
  | nil => simp [allClusters, empty, codePoints, segments, finished, advance, placedBefore]
  | cons head tail =>
    have nonnull : 0 < str.begin := str.nonnull (by simp [empty])
    have inside : str.begin < str.finish := Nat.lt_add_of_pos_right (by simp [empty])
    have whole : str.textBefore str.finish = str.chars.reverse := by simp [textBefore, finish]
    have null : resetIfOutOfRange str.begin str.finish str.finish 0 = str.finish := by simp [resetIfOutOfRange, nonnull]
    have started := collect_prev M width spec str.chars.length .initial str.finish rfl null inside (le_refl _)
      (by simp [whole])
    rw [allClusters, started, whole, codePointsBack]
    simp [empty]

end

theorem grapheme_prev_outcome : StepsBack (graphemes .prev) GraphemeCluster.width graphemePrev := by
  intro s str pointer fresh isPointer inside high
  have isLength := text_before_length (le_of_lt inside) high
  have nonempty : str.textBefore pointer ≠ [] := ne_nil_of_length_pos (by omega)
  obtain ⟨read, cluster, reads, width, _, stopped⟩ :=
    scan_cluster_reads .prev codePointsBack decodes_prev none s fresh (str.textBefore pointer) nonempty
  generalize found : scanCluster .prev s (str.textBefore pointer) = scanned at *
  obtain ⟨units, split, count⟩ := reads.split
  rw [split, length_append] at isLength
  have clamp : (if scanned.width > 2 then 2 else scanned.width) = cluster.width := by
    split <;> omega
  have len : pointer - (str.begin + scanned.text.length) = unitCount read := by omega
  have called : graphemePrev s str = (⟨str.begin + scanned.text.length, unitCount read, cluster.width, ~~~scanned.state,
      scanned.last⟩, decide (str.begin + scanned.text.length > str.begin)) := by
    simp [graphemePrev, isPointer, inside, found, len, clamp]
  rw [called]
  refine ⟨scanned.text, read, cluster, reads, by simp only; omega, rfl, rfl, ?_, ?_⟩
  · cases scanned.text <;> simp
  · intro some
    have isState : scanned.state = ~~~0 := stopped (by simpa using some)
    simp only [isState]
    rfl

-- Backwards a cluster is complete once it has a width.
def wcswidthsBack : Segmenter Symbol Nat where
  first symbol := resolvedWidth (ucdLookup symbol.1)
  join width symbol := if width = 0 then some (width + resolvedWidth (ucdLookup symbol.1)) else none

theorem reads_back_zero {read : List Symbol} {cluster : Nat}
    (reads : Reads codePointsBack wcswidthsBack none text rest read cluster) :
    Reads codePointsBack wcswidthsBack (some 0) text rest read cluster := by
  obtain ⟨pulls, split⟩ := reads
  refine ⟨?_, split⟩
  cases symbols : codePointsBack text with
  | nil =>
    rw [symbols] at pulls
    exact absurd pulls id
  | cons symbol others =>
    rw [symbols] at pulls
    obtain ⟨read', isRead, extended⟩ := pulls
    have joins : wcswidthsBack.join 0 symbol = some (wcswidthsBack.first symbol) := by simp [wcswidthsBack]
    rw [Pulls, extend, joins, isRead]
    simp [extended]

theorem wcswidth_prev_reads (fuel : Nat) (text : List WChar) (enough : text.length ≤ fuel) (nonempty : text ≠ []) :
    let scanned := wcswidthPrevLoop fuel text 0
    ∃ read, Reads codePointsBack wcswidthsBack none text scanned.text read scanned.width ∧
      (scanned.text.isEmpty = false → scanned.state = 0) := by
  induction fuel generalizing text with
  | zero =>
    have empty : text = [] := length_eq_zero_iff.mp (le_zero.mp enough)
    exact absurd empty nonempty
  | succ fuel ih =>
    obtain ⟨units, someUnits, split, isText⟩ := decodes_prev.first text nonempty
    generalize found : utf16PrevOrFFFD text = next at split isText
    obtain ⟨cp, tail⟩ := next
    simp only at split isText
    have shorter : tail.length ≤ fuel := by
      have positive := length_pos_iff.mpr someUnits
      rw [split, length_append] at enough
      omega
    by_cases zero : resolvedWidth (ucdLookup cp) = 0
    · have first : wcswidthsBack.first (cp, units.length) = 0 := zero
      cases tail with
      | nil =>
        have scanned : wcswidthPrevLoop (fuel + 1) text 0 = ⟨[], 0, 0, 0⟩ := by simp [wcswidthPrevLoop, found, zero]
        simp only [scanned]
        refine ⟨[(cp, units.length)], ?_, fun _ => trivial⟩
        apply reads_first codePointsBack wcswidthsBack isText split rfl
        rw [first]
        exact reads_end codePointsBack wcswidthsBack rfl
      | cons head rest =>
        have scanned : wcswidthPrevLoop (fuel + 1) text 0 = wcswidthPrevLoop fuel (head :: rest) 0 := by
          simp [wcswidthPrevLoop, found, zero]
        simp only [scanned]
        obtain ⟨read, reads, state⟩ := ih (head :: rest) shorter (by simp)
        refine ⟨(cp, units.length) :: read, ?_, state⟩
        apply reads_first codePointsBack wcswidthsBack isText split rfl
        rw [first]
        exact reads_back_zero reads
    · have scanned : wcswidthPrevLoop (fuel + 1) text 0 =
          ⟨tail, resolvedWidth (ucdLookup cp), if tail.isEmpty then 1 else 0, 0⟩ := by
        simp [wcswidthPrevLoop, found, zero]
      simp only [scanned]
      refine ⟨[(cp, units.length)], ?_, fun some => by simp [some]⟩
      apply reads_first codePointsBack wcswidthsBack isText split rfl
      apply reads_nothing
      intro symbol
      simp [wcswidthsBack, zero]

theorem wcswidth_prev_outcome : StepsBack wcswidthsBack id graphemePrevWcswidth := by
  intro s str pointer fresh isPointer inside high
  have isLength := text_before_length (le_of_lt inside) high
  have nonempty : str.textBefore pointer ≠ [] := ne_nil_of_length_pos (by omega)
  obtain ⟨read, reads, state⟩ := wcswidth_prev_reads (str.textBefore pointer).length (str.textBefore pointer) (le_refl _)
    nonempty
  generalize found : wcswidthPrevLoop (str.textBefore pointer).length (str.textBefore pointer) 0 = scanned at *
  obtain ⟨units, split, count⟩ := reads.split
  rw [split, length_append] at isLength
  have len : pointer - (str.begin + scanned.text.length) = unitCount read := by omega
  have called : graphemePrevWcswidth s str = (⟨str.begin + scanned.text.length, unitCount read, scanned.width, scanned.state,
      s.last⟩, decide (str.begin + scanned.text.length > str.begin)) := by
    simp [graphemePrevWcswidth, isPointer, not_le.mpr inside, fresh, found, len]
  rw [called]
  refine ⟨scanned.text, read, scanned.width, reads, by simp only; omega, rfl, rfl, ?_, state⟩
  cases scanned.text <;> simp

end Cogterm.Unicode
