import Cogterm.Row.Operations
import Cogterm.Unicode.Pieces

namespace Cogterm.Buffer

open Library Unicode Segmenter List Nat WriteHelper StringView

def viewOf (data : Nat) (text : List WChar) : StringView := ⟨data + 1, text, fun _ => succ_pos data⟩

@[simp]
theorem view_begin (data : Nat) (text : List WChar) : (viewOf data text).begin = data + 1 := rfl

@[simp]
theorem view_finish (data : Nat) (text : List WChar) : (viewOf data text).finish = data + 1 + text.length := rfl

theorem view_text (data : Nat) (text : List WChar) : (viewOf data text).textFrom (data + 1) = text := by
  simp [textFrom, viewOf]

theorem reset_before (beg finish pointer : Nat) (before : pointer < beg) (order : beg ≤ finish) :
    resetIfOutOfRange beg finish beg pointer = beg := by
  rw [resetIfOutOfRange, if_pos before]
  exact if_neg (not_lt.mpr (le_trans (le_of_lt before) order))

-- GraphemeState state{ .beg = &*it } and one call.
def nextCluster (cwd : CodepointWidthDetector) (text : List WChar) : Nat × Nat :=
  let s := (cwd.GraphemeNext ⟨1, 0, 0, 0, 0⟩ (viewOf 0 text)).2.1
  (s.len, s.width)

-- One call for the text in front and one for the new text, which is elsewhere
-- in memory.
def joinCluster (cwd : CodepointWidthDetector) (previous text : List WChar) : Nat × Nat :=
  if text.isEmpty then (0, 0)
  else
    let first := cwd.GraphemeNext .initial (viewOf 0 previous)
    let s := (first.1.GraphemeNext first.2.1 (viewOf (previous.length + 1) text)).2.1
    (s.len, s.width)

variable {text : List WChar}

section

variable {σ : Type} {K : Measurement σ} (narrow : K.Narrow) {read : List Symbol} {opened : Option σ} {rest : List WChar}

variable {cluster : σ}

include narrow in
theorem outcome_narrow (reads : Reads codePoints K.segmenter opened text rest read cluster)
    (before : ∀ state ∈ opened, K.width state ≤ 2) : K.width cluster ≤ 2 :=
  pulls_all narrow.starts narrow.joins before reads.pulls

theorem outcome_inside (reads : Reads codePoints K.segmenter opened text rest read cluster) : unitCount read ≤ text.length := by
  obtain ⟨units, split, count⟩ := reads.split
  simp [← count, split]

variable (fresh : K.Fresh) {cwd : CodepointWidthDetector} (valid : K.valid cwd)

include fresh valid

theorem fresh_call (s : GraphemeState) (start : s.state = 0) (str : StringView) (pointer : Nat)
    (isPointer : resetIfOutOfRange str.begin str.finish str.begin (s.beg + s.len) = pointer) (inside : pointer < str.finish) :
    ∃ rest read cluster, Outcome K.segmenter K.width K.holds none (str.textFrom pointer) rest read cluster pointer
      (cwd.GraphemeNext s str).2.1 (cwd.GraphemeNext s str).2.2 ∧ K.valid (cwd.GraphemeNext s str).1 :=
  K.call cwd none s str pointer valid (fresh s start) isPointer inside

theorem next_cluster_reads (nonempty : text ≠ []) :
    ∃ rest read cluster, Reads codePoints K.segmenter none text rest read cluster ∧
      nextCluster cwd text = (unitCount read, K.width cluster) := by
  have length := length_pos_iff.mpr nonempty
  obtain ⟨rest, read, cluster, outcome, _⟩ := fresh_call fresh valid ⟨1, 0, 0, 0, 0⟩ rfl (viewOf 0 text) 1
    (reset_inside (le_refl _) (le_add_right _ _)) (by rw [view_finish]; omega)
  refine ⟨rest, read, cluster, outcome.reads, ?_⟩
  rw [nextCluster, outcome.len, outcome.measured]

omit fresh in
theorem join_cluster_reads (previous : List WChar) (nonempty : text ≠ []) :
    ∃ opened rest read cluster, Reads codePoints K.segmenter opened text rest read cluster ∧
      (K.Narrow → ∀ state ∈ opened, K.width state ≤ 2) ∧
      joinCluster cwd previous text = (unitCount read, K.width cluster) := by
  have length := length_pos_iff.mpr nonempty
  have second (after : CodepointWidthDetector) (validAfter : K.valid after) (opened : Option σ) (s : GraphemeState)
      (holds : K.holds opened s) (behind : s.beg + s.len < previous.length + 1 + 1) :
      ∃ rest read cluster, Reads codePoints K.segmenter opened text rest read cluster ∧
        (after.GraphemeNext s (viewOf (previous.length + 1) text)).2.1.len = unitCount read ∧
        (after.GraphemeNext s (viewOf (previous.length + 1) text)).2.1.width = K.width cluster := by
    have isStart := reset_before (previous.length + 1 + 1) (previous.length + 1 + 1 + text.length) _ behind (le_add_right _ _)
    obtain ⟨rest, read, cluster, outcome, _⟩ :=
      K.call after opened s (viewOf (previous.length + 1) text) _ validAfter holds isStart (by rw [view_finish]; omega)
    have reads := outcome.reads
    rw [view_text] at reads
    exact ⟨rest, read, cluster, reads, outcome.len, outcome.measured⟩
  have unfolded : joinCluster cwd previous text =
      (((cwd.GraphemeNext .initial (viewOf 0 previous)).1.GraphemeNext (cwd.GraphemeNext .initial (viewOf 0 previous)).2.1
          (viewOf (previous.length + 1) text)).2.1.len,
        ((cwd.GraphemeNext .initial (viewOf 0 previous)).1.GraphemeNext (cwd.GraphemeNext .initial (viewOf 0 previous)).2.1
          (viewOf (previous.length + 1) text)).2.1.width) := by
    rw [joinCluster, if_neg (by simpa using nonempty)]
  rw [unfolded]
  by_cases empty : previous = []
  · rw [grapheme_next_empty cwd .initial (viewOf 0 previous) empty]
    obtain ⟨rest, read, cluster, reads, len, width⟩ := second cwd valid none .initial K.initial (succ_pos _)
    refine ⟨none, rest, read, cluster, reads, ?_, by rw [len, width]⟩
    intro _ state member
    cases member
  · have some := length_pos_iff.mpr empty
    obtain ⟨restBefore, readBefore, before, outcome, validAfter⟩ :=
      K.call cwd none .initial (viewOf 0 previous) _ valid K.initial
      (reset_before _ _ _ (succ_pos _) (le_add_right _ _)) (by rw [view_finish, view_begin]; omega)
    have reads := outcome.reads
    rw [view_begin, view_text] at reads
    have inside := outcome_inside reads
    obtain ⟨rest, read, cluster, readsText, len, width⟩ := second _ validAfter _ _ outcome.after
      (by rw [outcome.beg, outcome.len, view_begin]; omega)
    refine ⟨_, rest, read, cluster, readsText, ?_, by rw [len, width]⟩
    intro narrow state member
    have small := outcome_narrow narrow reads (fun _ member => nomatch member)
    split at member
    · cases member
      exact small
    · cases member

end

theorem next_cluster_empty (cwd : CodepointWidthDetector) : nextCluster cwd [] = (0, 0) := by
  rw [nextCluster, grapheme_next_empty cwd _ (viewOf 0 []) rfl]

theorem next_cluster_bounds (consistent : cwd.mode = .console → Consistent cwd) (nonempty : text ≠ []) :
    0 < (nextCluster cwd text).1 ∧ (nextCluster cwd text).1 ≤ text.length ∧ (nextCluster cwd text).2 ≤ 2 := by
  obtain ⟨σ, K, valid, narrow, fresh⟩ := detector_measures consistent
  obtain ⟨rest, read, cluster, reads, isNext⟩ := next_cluster_reads fresh valid nonempty
  rw [isNext]
  exact ⟨pulled_positive codePoints K.segmenter code_points_positive text rest read cluster reads, outcome_inside reads,
    outcome_narrow narrow reads (fun _ member => nomatch member)⟩

theorem join_cluster_bounds (consistent : cwd.mode = .console → Consistent cwd) (previous text : List WChar) :
    (joinCluster cwd previous text).1 ≤ text.length ∧ (joinCluster cwd previous text).2 ≤ 2 := by
  by_cases nonempty : text = []
  · rw [joinCluster, nonempty]
    exact ⟨le_refl 0, zero_le 2⟩
  obtain ⟨σ, K, valid, narrow, _⟩ := detector_measures consistent
  obtain ⟨opened, rest, read, cluster, reads, small, isJoin⟩ := join_cluster_reads valid previous nonempty
  rw [isJoin]
  exact ⟨outcome_inside reads, outcome_narrow narrow reads (small narrow)⟩

-- What a detector tells a row. Its cache does not matter as long as it agrees
-- with the callback.
def textMeasure (cwd : CodepointWidthDetector) (consistent : cwd.mode = .console → Consistent cwd) : TextMeasure where
  next := nextCluster cwd
  join := joinCluster cwd
  next_positive := fun _ nonempty => (next_cluster_bounds consistent nonempty).1
  next_inside := by
    intro text
    by_cases nonempty : text = []
    · rw [nonempty, next_cluster_empty]
      exact le_refl 0
    · exact (next_cluster_bounds consistent nonempty).2.1
  next_narrow := by
    intro text
    by_cases nonempty : text = []
    · rw [nonempty, next_cluster_empty]
      exact zero_le 2
    · exact (next_cluster_bounds consistent nonempty).2.2
  join_inside := fun previous text => (join_cluster_bounds consistent previous text).1
  join_narrow := fun previous text => (join_cluster_bounds consistent previous text).2

variable {Attr : Type}

-- The do-while loop with the detector and the state it has in the source. it
-- is a pointer into the string.
def graphemeLoop (str : StringView) : Nat → Nat → Nat → CodepointWidthDetector → GraphemeState → WriteHelper Attr →
    WriteHelper Attr
  | 0, ch, _, _, _, h => { h with colEndDirty := h.colEnd, charsConsumed := ch - h.chBeg }
  | fuel + 1, ch, it, cwd, s, h =>
    let called := cwd.GraphemeNext s str
    let s := called.2.1
    let colEndNew := narrow16 (h.colEnd + max 1 s.width)
    if colEndNew > h.colLimit then { h with colEndDirty := h.colLimit, charsConsumed := ch - h.chBeg }
    else
      let h := putGlyph ch colEndNew h
      if it + s.len ≠ str.finish then graphemeLoop str fuel (ch + s.len) (it + s.len) called.1 s h
      else { h with colEndDirty := h.colEnd, charsConsumed := ch + s.len - h.chBeg }

theorem grapheme_loop_clusters (K : Measurement σ) (fresh : K.Fresh) (cwd : CodepointWidthDetector)
    (consistent : cwd.mode = .console → Consistent cwd) (valid : K.valid cwd) (str : StringView) (fuel ch it : Nat)
    (current : CodepointWidthDetector) (validNow : K.valid current) (s : GraphemeState) (holds : K.holds none s)
    (isIt : s.beg + s.len = it) (low : str.begin ≤ it) (inside : it < str.finish) (enough : (str.textFrom it).length ≤ fuel)
    (h : WriteHelper Attr) :
    graphemeLoop str fuel ch it current s h = clusterLoop (textMeasure cwd consistent) fuel ch (str.textFrom it) h := by
  have nonempty := text_from_ne_nil str it low inside
  induction fuel generalizing ch it current s h with
  | zero => exact absurd (length_eq_zero_iff.mp (le_zero.mp enough)) nonempty
  | succ fuel ih =>
    obtain ⟨rest, read, cluster, outcome, validAfter⟩ := K.call current none s str it validNow holds
      (by rw [isIt]; exact reset_inside low (le_of_lt inside)) inside
    obtain ⟨_, _, _, reads', isNext⟩ := next_cluster_reads fresh valid nonempty
    obtain ⟨rfl, rfl, _⟩ := pulls_unique outcome.reads.pulls reads'.pulls
    have positive := pulled_positive codePoints K.segmenter code_points_positive _ _ _ _ outcome.reads
    obtain ⟨units, split, count⟩ := outcome.reads.split
    have behind := text_from_next low split
    have total := congrArg List.length split
    have dropped : (str.textFrom it).drop (unitCount read) = rest := by rw [split, ← count, drop_left]
    rw [textFrom, length_drop, length_append, count] at total
    rw [split, length_append, count] at enough
    rw [count] at behind
    rw [graphemeLoop, clusterLoop]
    simp only [textMeasure, isNext, outcome.len, outcome.measured, dropped, List.isEmpty_iff, nonempty, if_false]
    split
    · rfl
    rw [StringView.finish]
    rw [begin] at low
    cases rest with
    | nil =>
      rw [length_nil] at total
      rw [if_neg (by omega)]
      cases fuel <;> rfl
    | cons head tail =>
      rw [length_cons] at total
      rw [if_pos (by omega), ← behind]
      exact ih _ _ _ validAfter _ outcome.after (by rw [outcome.beg, outcome.len]) (by rw [begin]; omega)
        (by rw [StringView.finish]; omega) (by rw [behind]; omega) _ (by simp [behind])

theorem grapheme_loop_measures (cwd : CodepointWidthDetector) (consistent : cwd.mode = .console → Consistent cwd)
    (str : StringView)
    (it : Nat) (low : str.begin ≤ it) (inside : it < str.finish) (fuel ch : Nat) (enough : (str.textFrom it).length ≤ fuel)
    (h : WriteHelper Attr) : graphemeLoop str fuel ch it cwd ⟨it, 0, 0, 0, 0⟩ h =
      clusterLoop (textMeasure cwd consistent) fuel ch (str.textFrom it) h := by
  obtain ⟨σ, K, valid, _, fresh⟩ := detector_measures consistent
  exact grapheme_loop_clusters K fresh cwd consistent valid str fuel ch it cwd valid _ (fresh _ rfl) rfl low inside enough h

theorem accent_measured :
    graphemeLoop ⟨5, [0x65, 0x301, 0x78], by decide⟩ 3 0 5 ⟨.graphemes, none, []⟩ ⟨5, 0, 0, 0, 0⟩
    (start (Row.construct 4 ()) 0 4 []) =
      clusterLoop (textMeasure ⟨.graphemes, none, []⟩ nofun) 3 0 [0x65, 0x301, 0x78] (start (Row.construct 4 ()) 0 4 []) :=
  grapheme_loop_measures ⟨.graphemes, none, []⟩ nofun _ 5 le_rfl (by decide) 3 0 le_rfl _

end Cogterm.Buffer
