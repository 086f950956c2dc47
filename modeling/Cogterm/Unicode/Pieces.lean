import Cogterm.Unicode.Clusters

namespace Cogterm.Unicode

open Library Segmenter List Prod Nat StringView

-- A caller that asks for clusters piece by piece. After a call that has reached
-- the end of its piece, the next part still belongs to the cluster.
structure Reader where
  cwd : CodepointWidthDetector
  s : GraphemeState
  clusters : List (Nat × Nat)
  opened : Option (Nat × Nat)

def Reader.start (cwd : CodepointWidthDetector) : Reader := ⟨cwd, .initial, [], none⟩

def Reader.report (reader : Reader) (cwd : CodepointWidthDetector) (s : GraphemeState) (more : Bool) : Reader :=
  let part := match reader.opened with
    | none => (s.len, s.width)
    | some cluster => (cluster.1 + s.len, s.width)
  if more then ⟨cwd, s, reader.clusters ++ [part], none⟩ else ⟨cwd, s, reader.clusters, some part⟩

def readPiece : Nat → Reader → StringView → Reader
  | 0, reader, _ => reader
  | fuel + 1, reader, str =>
    let result := reader.cwd.GraphemeNext reader.s str
    let next := reader.report result.1 result.2.1 result.2.2
    if result.2.2 then readPiece fuel next str else next

-- For an empty piece the one call finds nothing and there is nothing to report.
def readPieces (reader : Reader) (pieces : List StringView) : Reader :=
  pieces.foldl (fun reader str =>
    if str.chars.isEmpty then
      { reader with
        cwd := (reader.cwd.GraphemeNext reader.s str).1
        s := (reader.cwd.GraphemeNext reader.s str).2.1 }
    else readPiece (str.chars.length + 1) reader str) reader

def clusters (cwd : CodepointWidthDetector) (pieces : List StringView) : List (Nat × Nat) :=
  (readPieces (.start cwd) pieces).clusters ++ (readPieces (.start cwd) pieces).opened.toList

-- What the modes have in common: one call pulls one cluster.
structure Measurement (σ : Type) where
  segmenter : Segmenter Symbol σ
  width : σ → Nat
  holds : Option σ → GraphemeState → Prop
  valid : CodepointWidthDetector → Prop
  initial : holds none .initial
  call : ∀ (cwd : CodepointWidthDetector) (opened : Option σ) (s : GraphemeState) (str : StringView) (pointer : Nat),
    valid cwd → holds opened s → resetIfOutOfRange str.begin str.finish str.begin (s.beg + s.len) = pointer →
      pointer < str.finish → ∃ rest read cluster,
      Outcome segmenter width holds opened (str.textFrom pointer) rest read cluster
        pointer (cwd.GraphemeNext s str).2.1 (cwd.GraphemeNext s str).2.2 ∧ valid (cwd.GraphemeNext s str).1

theorem grapheme_next_empty (cwd : CodepointWidthDetector) (s : GraphemeState) (str : StringView) (empty : str.chars = []) :
    cwd.GraphemeNext s str = (cwd, s, false) := by
  have finish : str.finish = str.begin := by simp [finish, begin, empty]
  have range := reset_in_range str.begin str.finish (s.beg + s.len) (le_of_eq finish.symm)
  have none : ¬ resetIfOutOfRange str.begin str.finish str.begin (s.beg + s.len) < str.finish := by omega
  rw [CodepointWidthDetector.GraphemeNext]
  cases cwd.mode with
  | graphemes => simp [graphemeNext, none]
  | wcswidth => simp [graphemeNextWcswidth, not_lt.mp none]
  | console => simp [CodepointWidthDetector.graphemeNextConsole, not_lt.mp none]

variable {pointer : Nat}

theorem reset_inside {beg finish : Nat} (low : beg ≤ pointer) (high : pointer ≤ finish) :
    resetIfOutOfRange beg finish beg pointer = pointer := by
  rw [resetIfOutOfRange, if_neg (not_lt.mpr low)]
  exact if_neg (not_lt.mpr high)

variable {cwd : CodepointWidthDetector}

section

variable {σ : Type} (K : Measurement σ)

def Measurement.measure (cluster : List Symbol × σ) : Nat × Nat := (unitCount cluster.1, K.width cluster.2)

structure Follows (progress : Progress Symbol σ) (reader : Reader) : Prop where
  valid : K.valid reader.cwd
  holds : K.holds (progress.2.map snd) reader.s
  clusters : reader.clusters = progress.1.map K.measure
  opened : reader.opened = progress.2.map K.measure

theorem report_follows (follows : Follows K progress reader)
    {read : List Symbol} {cluster : σ} {s : GraphemeState} {more : Bool} (valid : K.valid cwd)
    (outcome : Outcome K.segmenter K.width K.holds (progress.2.map snd) text rest read cluster pointer s more) : Follows K
      (if rest.isEmpty then (progress.1, some ((progress.2.map fst).getD [] ++ read, cluster))
        else (progress.1 ++ [((progress.2.map fst).getD [] ++ read, cluster)], none)) (reader.report cwd s more) := by
  obtain ⟨_, _, len, width, goesOn, after⟩ := outcome
  have part : (match reader.opened with
      | none => (s.len, s.width)
      | some cluster => (cluster.1 + s.len, s.width)) =
        K.measure ((progress.2.map fst).getD [] ++ read, cluster) := by
    rw [follows.opened, len, width]
    cases progress.2 with
    | none => rfl
    | some opened => simp [Measurement.measure]
  rw [Reader.report, part, goesOn]
  cases rest with
  | nil => exact ⟨valid, after, follows.clusters, rfl⟩
  | cons head tail => exact ⟨valid, after, by simp [follows.clusters], rfl⟩

theorem read_piece_follows (progress : Progress Symbol σ) (reader : Reader) (pointer : Nat) (follows : Follows K progress reader)
    (isPointer : resetIfOutOfRange str.begin str.finish str.begin (reader.s.beg + reader.s.len) = pointer)
    (inside : pointer < str.finish) (enough : (str.textFrom pointer).length + (if progress.2.isSome then 1 else 0) ≤ fuel) :
    Follows K (K.segmenter.advance progress (codePoints (str.textFrom pointer))) (readPiece fuel reader str) ∧
      (readPiece fuel reader str).s.beg + (readPiece fuel reader str).s.len = str.finish := by
  have range := reset_in_range str.begin str.finish (reader.s.beg + reader.s.len) (le_add_right _ _)
  rw [isPointer] at range
  have nonempty := text_from_ne_nil str pointer range.1 inside
  induction fuel generalizing progress reader pointer with
  | zero =>
    have positive := length_pos_iff.mpr nonempty
    omega
  | succ fuel ih =>
    obtain ⟨rest, read, cluster, outcome, valid⟩ := K.call reader.cwd (progress.2.map snd) reader.s str pointer
      follows.valid follows.holds isPointer inside
    generalize called : reader.cwd.GraphemeNext reader.s str = result at outcome valid
    obtain ⟨cwd, s, more⟩ := result
    simp only at outcome valid
    have reported := report_follows K follows valid outcome
    have advanced := pulls_advance K.segmenter progress.1 progress.2 _ read _ cluster outcome.reads.pulls
    have stops := pulls_stops outcome.reads.pulls
    obtain ⟨units, split, count⟩ := outcome.reads.split
    have isLength := congrArg List.length split
    rw [textFrom, length_drop, length_append] at isLength
    have isState : (reader.report cwd s more).s = s := by
      simp only [Reader.report]
      split <;> rfl
    have isMore := outcome.goesOn
    have isBeg := outcome.beg
    have isLen := outcome.len
    rw [begin] at range
    rw [finish] at inside range ⊢
    cases rest with
    | nil =>
      have read : readPiece (fuel + 1) reader str = reader.report cwd s more := by simp [readPiece, called, isMore]
      rw [read, advanced, isState]
      refine ⟨reported, ?_⟩
      rw [length_nil] at isLength
      omega
    | cons head tail =>
      have read' : readPiece (fuel + 1) reader str = readPiece fuel (reader.report cwd s more) str := by
        simp [readPiece, called, isMore]
      obtain ⟨_, _, _, points⟩ := next_code_point (head :: tail) (by simp)
      have closed : K.segmenter.advance progress (codePoints (str.textFrom pointer)) =
          K.segmenter.advance (progress.1 ++ [((progress.2.map fst).getD [] ++ read, cluster)], none)
            (codePoints (head :: tail)) := by
        rw [advanced, points]
        apply advance_closes
        apply stops
        rw [points]
        rfl
      have further : str.textFrom (pointer + unitCount read) = head :: tail := by
        rw [← count]
        exact text_from_next range.1 split
      rw [length_cons] at isLength
      have next : s.beg + s.len = pointer + unitCount read := by rw [isBeg, isLen]
      -- A new cluster has at least one code unit, so the text gets shorter or the cluster is closed.
      have progressed : progress.2 = none → 0 < unitCount read := by
        intro fresh
        have reads := outcome.reads
        rw [fresh] at reads
        exact pulled_positive codePoints K.segmenter code_points_positive _ _ read cluster reads
      rw [read', closed, ← further]
      apply ih
      · exact reported
      · rw [isState, next]
        apply reset_inside
        · rw [begin]
          omega
        · rw [finish]
          omega
      · rw [finish]
        omega
      · rw [further]
        rw [textFrom, length_drop] at enough
        simp only [Option.isSome_none, Bool.false_eq_true, if_false, length_cons]
        cases opened : progress.2 with
        | none =>
          have positive := progressed opened
          omega
        | some cluster =>
          rw [opened, Option.isSome_some, if_pos rfl] at enough
          omega
      · rw [begin, finish]
        omega
      · rw [further]
        simp

-- No piece begins inside a surrogate pair of the whole text.
def CutsAtCodePoints : List WChar → List (List WChar) → Prop
  | _, [] => True
  | before, piece :: rest => Boundary before (piece ++ rest.flatten) ∧ CutsAtCodePoints (before ++ piece) rest

def Apart (p q : StringView) : Prop := p.chars ≠ [] → q.chars ≠ [] → q.finish ≤ p.begin ∨ p.finish ≤ q.begin

-- The scan of a piece starts at its begin, wherever the last one has stopped.
def Clear (pointer : Nat) (q : StringView) : Prop := q.chars ≠ [] → ¬ (q.begin < pointer ∧ pointer ≤ q.finish)

theorem reset_clear (clear : Clear pointer q) (nonempty : q.chars ≠ []) :
    resetIfOutOfRange q.begin q.finish q.begin pointer = q.begin := by
  have outside := clear nonempty
  simp only [resetIfOutOfRange]
  split
  · rfl
  · split <;> omega

theorem clear_of_apart (nonempty : p.chars ≠ []) (apart : Apart p q) : Clear p.finish q := by
  intro some within
  have positive := length_pos_iff.mpr nonempty
  have order : p.begin < p.finish := Nat.lt_add_of_pos_right positive
  rcases apart nonempty some with before | after
  · omega
  · omega

variable {pieces : List StringView}

theorem read_pieces_follows (before : List WChar) (reader : Reader)
    (follows : Follows K (K.segmenter.advance ([], none) (codePoints before)) reader)
    (cuts : CutsAtCodePoints before (pieces.map chars)) (placed : pieces.Pairwise Apart)
    (clear : ∀ q ∈ pieces, Clear (reader.s.beg + reader.s.len) q) :
    Follows K (K.segmenter.advance ([], none) (codePoints (before ++ (pieces.map chars).flatten)))
      (readPieces reader pieces) := by
  induction pieces generalizing before reader with
  | nil => simpa [readPieces] using follows
  | cons piece rest ih =>
    obtain ⟨boundary, cutsRest⟩ := cuts
    rw [pairwise_cons] at placed
    have grouped : before ++ ((piece :: rest).map chars).flatten = (before ++ piece.chars) ++ (rest.map chars).flatten := by simp
    rw [grouped]
    by_cases empty : piece.chars = []
    · have same : readPieces reader (piece :: rest) = readPieces reader rest := by
        simp [readPieces, empty, grapheme_next_empty reader.cwd reader.s piece empty]
      rw [same]
      apply ih
      · simpa [empty] using follows
      · exact cutsRest
      · exact placed.2
      · exact fun q member => clear q (mem_cons_of_mem _ member)
    · have same : readPieces reader (piece :: rest) = readPieces (readPiece (piece.chars.length + 1) reader piece) rest := by
        simp [readPieces, empty]
      have start := reset_clear (clear piece mem_cons_self) empty
      have whole : piece.textFrom piece.begin = piece.chars := by simp [textFrom, begin]
      have inside : piece.begin < piece.finish := Nat.lt_add_of_pos_right (length_pos_iff.mpr empty)
      have enough : (piece.textFrom piece.begin).length +
          (if (K.segmenter.advance ([], none) (codePoints before)).2.isSome then 1 else 0) ≤ piece.chars.length + 1 := by
        rw [whole]
        split <;> omega
      obtain ⟨followed, stopped⟩ := read_piece_follows K _ reader piece.begin follows start inside enough
      rw [whole, ← advance_append, ← code_points_append] at followed
      · rw [same]
        apply ih (before ++ piece.chars) _ followed cutsRest placed.2
        intro q member
        rw [stopped]
        exact clear_of_apart empty (placed.1 q member)
      · intro c1 isLast c2 isHead
        apply boundary c1 isLast c2
        simp [Option.mem_def.mp isHead]

theorem clusters_are_segments (valid : K.valid cwd)
    (cuts : CutsAtCodePoints [] (pieces.map chars)) (placed : pieces.Pairwise Apart) :
    clusters cwd pieces = (K.segmenter.segments (codePoints (pieces.map chars).flatten)).map K.measure := by
  have start : Follows K (K.segmenter.advance ([], none) (codePoints [])) (.start cwd) := ⟨valid, K.initial, rfl, rfl⟩
  have clear : ∀ q ∈ pieces, Clear ((Reader.start cwd).s.beg + (Reader.start cwd).s.len) q := by
    intro q _ _ within
    exact absurd within.1 (not_lt_zero _)
  have followed := read_pieces_follows K [] (.start cwd) start cuts placed clear
  rw [nil_append] at followed
  rw [clusters, followed.clusters, followed.opened, segments, finished, map_append]
  cases (K.segmenter.advance ([], none) (codePoints (pieces.map chars).flatten)).2 <;> rfl

end

def graphemesMeasurement : Measurement GraphemeCluster where
  segmenter := graphemes .next
  width := GraphemeCluster.width
  holds := HoldsGraphemes
  valid cwd := cwd.mode = .graphemes
  initial := rfl
  call := by
    intro cwd opened s str pointer mode holds isPointer inside
    rw [CodepointWidthDetector.GraphemeNext, mode]
    obtain ⟨rest, read, cluster, outcome⟩ := grapheme_next_outcome s str pointer holds isPointer inside
    exact ⟨rest, read, cluster, outcome, mode⟩

def wcswidthMeasurement : Measurement Nat where
  segmenter := wcswidths
  width := id
  holds := HoldsWidth
  valid cwd := cwd.mode = .wcswidth
  initial := rfl
  call := by
    intro cwd opened s str pointer mode holds isPointer inside
    rw [CodepointWidthDetector.GraphemeNext, mode]
    obtain ⟨rest, read, cluster, outcome⟩ := wcswidth_next_outcome opened s str pointer holds isPointer inside
    exact ⟨rest, read, cluster, outcome, mode⟩

def consoleMeasurement (method : Option (List WChar → Option Bool)) : Measurement Nat where
  segmenter := codepoints method
  width := id
  holds := HoldsWidth
  valid cwd := cwd.mode = .console ∧ cwd.fallbackMethod = method ∧ Consistent cwd
  initial := rfl
  call := by
    rintro cwd opened s str pointer ⟨mode, isMethod, consistent⟩ holds isPointer inside
    rw [CodepointWidthDetector.GraphemeNext, mode]
    obtain ⟨rest, read, cluster, outcome, modeAfter, methodAfter, consistentAfter⟩ :=
      console_next_outcome consistent holds isPointer inside
    rw [isMethod] at outcome methodAfter
    exact ⟨rest, read, cluster, outcome, modeAfter.trans mode, methodAfter, consistentAfter⟩

theorem resolved_width_le : resolvedWidth (ucdLookup cp) ≤ 2 := by
  have small := character_width_le cp
  rw [resolvedWidth]
  split
  · exact le_succ 1
  · omega

variable {method : Option (List WChar → Option Bool)}

theorem console_width_le : consoleWidth method cp ≤ 2 := by
  have small := character_width_le cp
  rw [consoleWidth]
  split
  · cases method with
    | none => exact le_succ 1
    | some method =>
      simp only [fallbackWidth]
      split
      · exact le_succ 1
      · split
        · exact le_refl 2
        · exact le_succ 1
  · omega

structure Measurement.Narrow {σ : Type} (K : Measurement σ) : Prop where
  starts : ∀ symbol, K.width (K.segmenter.first symbol) ≤ 2
  joins : ∀ state symbol next, K.width state ≤ 2 → K.segmenter.join state symbol = some next → K.width next ≤ 2

theorem graphemes_narrow : graphemesMeasurement.Narrow := by
  constructor
  · intro symbol
    exact min_le_left _ _
  · intro state symbol next _ joined
    simp only [graphemesMeasurement, graphemes] at joined
    split at joined
    · cases joined
    · cases joined
      exact min_le_left _ _

theorem wcswidths_narrow : wcswidthMeasurement.Narrow := by
  constructor
  · intro symbol
    exact resolved_width_le
  · intro state symbol next small joined
    simp only [wcswidthMeasurement, wcswidths] at joined
    split at joined
    · cases joined
      exact small
    · cases joined

theorem codepoints_narrow : (consoleMeasurement method).Narrow := by
  constructor
  · intro symbol
    exact console_width_le
  · intro state symbol next _ joined
    cases joined

def Measurement.Fresh {σ : Type} (K : Measurement σ) : Prop := ∀ s : GraphemeState, s.state = 0 → K.holds none s

theorem detector_measures (consistent : cwd.mode = .console → Consistent cwd) :
    ∃ (σ : Type) (K : Measurement σ), K.valid cwd ∧ K.Narrow ∧ K.Fresh := by
  cases mode : cwd.mode with
  | graphemes => exact ⟨_, graphemesMeasurement, mode, graphemes_narrow, fun _ fresh => fresh⟩
  | wcswidth => exact ⟨_, wcswidthMeasurement, mode, wcswidths_narrow, fun _ fresh => fresh⟩
  | console =>
    exact ⟨_, consoleMeasurement cwd.fallbackMethod, ⟨mode, rfl, consistent mode⟩, codepoints_narrow,
      fun _ fresh => fresh⟩

theorem clusters_ignore_pieces (cwd : CodepointWidthDetector) (consistent : cwd.mode = .console → Consistent cwd)
    (whole : StringView) (pieces : List StringView) (same : (pieces.map chars).flatten = whole.chars)
    (cuts : CutsAtCodePoints [] (pieces.map chars)) (placed : pieces.Pairwise Apart) :
    clusters cwd pieces = clusters cwd [whole] ∧ ∀ cluster ∈ clusters cwd pieces, cluster.2 ≤ 2 := by
  obtain ⟨σ, K, valid, narrow, _⟩ := detector_measures consistent
  have cutsWhole : CutsAtCodePoints [] ([whole].map chars) := ⟨by simp [Boundary], trivial⟩
  rw [clusters_are_segments K valid cuts placed, clusters_are_segments K valid cutsWhole (pairwise_singleton _ _), same]
  refine ⟨by simp, ?_⟩
  intro cluster member
  obtain ⟨segment, isSegment, rfl⟩ := mem_map.mp member
  exact segments_all K.segmenter (fun _ state => K.width state ≤ 2) narrow.starts (fun _ => narrow.joins) _ segment isSegment

theorem clusters_ignore_cut_accent :
    clusters ⟨.graphemes, none, []⟩ [⟨1, [0x65], by decide⟩, ⟨9, [], by decide⟩, ⟨2, [0x301, 0x78], by decide⟩] =
      clusters ⟨.graphemes, none, []⟩ [⟨5, [0x65, 0x301, 0x78], by decide⟩] :=
  (clusters_ignore_pieces ⟨.graphemes, none, []⟩ (by simp) ⟨5, [0x65, 0x301, 0x78], by decide⟩
    [⟨1, [0x65], by decide⟩, ⟨9, [], by decide⟩, ⟨2, [0x301, 0x78], by decide⟩] rfl
    (by simp [CutsAtCodePoints, Boundary]; decide) (by simp [Apart, begin, finish])).1

end Cogterm.Unicode
