import Cogterm.Library.Segmentation
import Cogterm.Unicode.Detector

namespace Cogterm.Unicode

open Library Segmenter List Nat StringView

variable {str : StringView} {pointer : Nat}

section

abbrev Symbol := Nat × Nat

def unitCount (symbols : List Symbol) : Nat := (symbols.map Prod.snd).sum

@[simp]
theorem unit_count_nil : unitCount [] = 0 := rfl

@[simp]
theorem unit_count_cons (symbol : Symbol) (symbols : List Symbol) :
    unitCount (symbol :: symbols) = symbol.2 + unitCount symbols := by
  simp [unitCount]

@[simp]
theorem unit_count_append (left right : List Symbol) : unitCount (left ++ right) = unitCount left + unitCount right := by
  simp [unitCount]

-- What is known about a cluster that may still grow: the state of the join
-- rules, the last value of the table and the width so far.
structure GraphemeCluster where
  state : Nat
  last : Nat
  width : Nat
deriving DecidableEq, Repr

def graphemes (direction : Direction) : Segmenter Symbol GraphemeCluster where
  first symbol := ⟨0, ucdLookup symbol.1, min 2 (graphemeWidth symbol.1 (ucdLookup symbol.1))⟩
  join cluster symbol :=
    let joined := direction.joins cluster.state cluster.last (ucdLookup symbol.1)
    if ucdGraphemeDone joined then none
    else some ⟨joined, ucdLookup symbol.1, min 2 (cluster.width + graphemeWidth symbol.1 (ucdLookup symbol.1))⟩

-- A text that was read up to the rest. The segmenter reads code points, the
-- code reads code units.
structure Reads {σ : Type} (points : List WChar → List Symbol) (M : Segmenter Symbol σ) (opened : Option σ)
    (text rest : List WChar) (read : List Symbol) (state : σ) : Prop where
  pulls : Pulls M opened (points text) read state (points rest)
  split : ∃ units, text = units ++ rest ∧ units.length = unitCount read

variable {text units : List WChar} {symbol : Symbol} {rest : List WChar}

section

variable {σ : Type} (points : List WChar → List Symbol) (M : Segmenter Symbol σ) {state : σ}

theorem reads_end (none : points [] = []) : Reads points M (some state) [] [] [] state := by
  refine ⟨?_, [], rfl, rfl⟩
  rw [none, Pulls, extend]

theorem reads_stop {rest : List Symbol} (isText : points text = symbol :: rest) (stops : M.join state symbol = none) :
    Reads points M (some state) text text [] state := by
  refine ⟨?_, [], rfl, rfl⟩
  rw [Pulls, isText, extend, stops]

theorem reads_nothing (stops : ∀ symbol, M.join state symbol = none) : Reads points M (some state) text text [] state := by
  cases isText : points text with
  | nil => exact ⟨by rw [Pulls, isText, extend], [], rfl, rfl⟩
  | cons symbol rest => exact reads_stop points M isText (stops symbol)

variable {read : List Symbol} {tail : List WChar} {last : σ}

theorem reads_join {next : σ} (isText : points text = symbol :: points tail) (split : text = units ++ tail)
    (count : units.length = symbol.2) (joins : M.join state symbol = some next)
    (reads : Reads points M (some next) tail rest read last) : Reads points M (some state) text rest (symbol :: read) last := by
  obtain ⟨pulls, others, splitTail, countTail⟩ := reads
  refine ⟨?_, units ++ others, ?_, ?_⟩
  · rw [Pulls] at pulls
    rw [Pulls, isText, extend, joins]
    simp [pulls]
  · simp [split, splitTail]
  · simp [count, countTail]

theorem reads_first
    (isText : points text = symbol :: points tail) (split : text = units ++ tail) (count : units.length = symbol.2)
    (reads : Reads points M (some (M.first symbol)) tail rest read last) :
    Reads points M none text rest (symbol :: read) last := by
  obtain ⟨pulls, others, splitTail, countTail⟩ := reads
  refine ⟨?_, units ++ others, ?_, ?_⟩
  · rw [isText]
    exact ⟨read, rfl, pulls⟩
  · simp [split, splitTail]
  · simp [count, countTail]

theorem pulled_positive (positive : ∀ text, ∀ symbol ∈ points text, 0 < symbol.2) (text rest : List WChar)
    (read : List Symbol) (cluster : σ) (reads : Reads points M none text rest read cluster) : 0 < unitCount read := by
  have pulls := reads.pulls
  cases symbols : points text with
  | nil =>
    rw [symbols] at pulls
    exact absurd pulls id
  | cons symbol others =>
    rw [symbols] at pulls
    obtain ⟨_, isRead, _⟩ := pulls
    have some := positive text symbol (by rw [symbols]; exact mem_cons_self)
    rw [isRead, unit_count_cons]
    omega

end

-- What a GraphemeState says about the cluster that may go on.
def HoldsGraphemes (opened : Option GraphemeCluster) (s : GraphemeState) : Prop :=
  match opened with
  | none => s.state = 0
  | some cluster =>
    s.state = ~~~(cluster.state : Int) ∧ s.last = cluster.last ∧ s.width = cluster.width ∧ cluster.width ≤ 2

section

variable (direction : Direction) (points : List WChar → List Symbol) (decodes : Decodes direction.decode points)

theorem clamp_add (a b : Nat) : min 2 (min 2 a + b) = min 2 (a + b) := by omega

include decodes

theorem fetch_next_reads (fuel : Nat) (text : List WChar) (width last state : Nat) (enough : text.length ≤ fuel)
    (nonempty : text ≠ []) : let scanned := fetchNext direction fuel text width last state
    ∃ read cluster, Reads points (graphemes direction) (some ⟨state, last, min 2 width⟩) text scanned.text read cluster ∧
      min 2 scanned.width = cluster.width ∧
      (scanned.text = [] → scanned.state = cluster.state ∧ scanned.last = cluster.last) ∧
      (scanned.text ≠ [] → scanned.state = ~~~0) := by
  induction fuel generalizing text width last state with
  | zero =>
    exact absurd (length_eq_zero_iff.mp (le_zero.mp enough)) nonempty
  | succ fuel ih =>
    obtain ⟨cp, tail, units, found, split, shorter, isText⟩ := decodes.next nonempty
    by_cases done : ucdGraphemeDone (direction.joins state last (ucdLookup cp)) = true
    · have stops : (graphemes direction).join ⟨state, last, min 2 width⟩ (cp, units.length) =
        none := by simp [graphemes, done]
      have scanned : fetchNext direction (fuel + 1) text width last state = ⟨text, width, ~~~0, 0⟩ := by
        simp [fetchNext, found, done]
      rw [scanned]
      exact ⟨[], ⟨state, last, min 2 width⟩, reads_stop points _ isText stops, rfl,
        fun empty => absurd empty nonempty, fun _ => rfl⟩
    · have joins : (graphemes direction).join ⟨state, last, min 2 width⟩ (cp, units.length) =
          some ⟨direction.joins state last (ucdLookup cp), ucdLookup cp,
            min 2 (width + graphemeWidth cp (ucdLookup cp))⟩ := by
        simp [graphemes, done, clamp_add]
      cases tail with
      | nil =>
        have scanned : fetchNext direction (fuel + 1) text width last state =
            ⟨[], width + graphemeWidth cp (ucdLookup cp), direction.joins state last (ucdLookup cp), ucdLookup cp⟩ := by
          simp [fetchNext, found, done]
        rw [scanned]
        exact ⟨_, _, reads_join points _ isText split rfl joins (reads_end points _ decodes.none),
          rfl, fun _ => ⟨rfl, rfl⟩, fun some => absurd rfl some⟩
      | cons head rest =>
        have scanned : fetchNext direction (fuel + 1) text width last state =
            fetchNext direction fuel (head :: rest) (width + graphemeWidth cp (ucdLookup cp)) (ucdLookup cp)
              (direction.joins state last (ucdLookup cp)) := by
          simp [fetchNext, found, done]
        rw [scanned]
        obtain ⟨read, cluster, reads, others⟩ := ih (head :: rest) (width + graphemeWidth cp (ucdLookup cp)) (ucdLookup cp)
          (direction.joins state last (ucdLookup cp)) (by omega) (by simp)
        exact ⟨_, cluster, reads_join points _ isText split rfl joins reads, others⟩

theorem scan_cluster_reads (opened : Option GraphemeCluster) (s : GraphemeState) (holds : HoldsGraphemes opened s)
    (text : List WChar) (nonempty : text ≠ []) : let scanned := scanCluster direction s text
    ∃ read cluster, Reads points (graphemes direction) opened text scanned.text read cluster ∧
      min 2 scanned.width = cluster.width ∧
      (scanned.text = [] → scanned.state = cluster.state ∧ scanned.last = cluster.last) ∧
      (scanned.text ≠ [] → scanned.state = ~~~0) := by
  intro scanned
  cases opened with
  | none =>
    obtain ⟨cp, tail, units, found, split, shorter, isText⟩ := decodes.next nonempty
    have fresh : s.state = 0 := holds
    cases tail with
    | nil =>
      have result : scanned = ⟨[], graphemeWidth cp (ucdLookup cp), 0, ucdLookup cp⟩ := by
        simp [scanned, scanCluster, fresh, found]
      rw [result]
      exact ⟨_, _, reads_first points _ isText split rfl (reads_end points _ decodes.none), rfl,
        fun _ => ⟨rfl, rfl⟩, fun some => absurd rfl some⟩
    | cons head rest =>
      have result : scanned =
          fetchNext direction text.length (head :: rest) (graphemeWidth cp (ucdLookup cp)) (ucdLookup cp) (0 : Nat) := by
        simp [scanned, scanCluster, fresh, found]
      rw [result]
      obtain ⟨read, cluster, reads, others⟩ := fetch_next_reads direction points decodes text.length (head :: rest)
        (graphemeWidth cp (ucdLookup cp)) (ucdLookup cp) 0 (le_of_lt shorter) (by simp)
      exact ⟨_, cluster, reads_first points _ isText split rfl reads, others⟩
  | some cluster =>
    obtain ⟨state, last, width, small⟩ := holds
    have pending : s.state ≠ 0 := by
      rw [state]
      exact Int.negSucc_ne_zero cluster.state
    have flipped : ~~~s.state = (cluster.state : Int) := by rw [state]; rfl
    have result : scanned = fetchNext direction text.length text cluster.width cluster.last cluster.state := by
      simp only [scanned, scanCluster]
      rw [if_pos pending, flipped, last, width]
    have clamped : min 2 cluster.width = cluster.width := min_eq_right small
    have reads := fetch_next_reads direction points decodes text.length text cluster.width cluster.last cluster.state
      (le_refl _) nonempty
    rw [clamped] at reads
    rw [result]
    exact reads

end

-- What one call reports: the part of the cluster it has read, the width of the
-- cluster so far, and whether the string goes on behind it.
structure Outcome {σ : Type} (M : Segmenter Symbol σ) (width : σ → Nat) (holds : Option σ → GraphemeState → Prop)
    (opened : Option σ) (text rest : List WChar) (read : List Symbol) (cluster : σ) (pointer : Nat) (s : GraphemeState)
    (more : Bool) : Prop where
  reads : Reads codePoints M opened text rest read cluster
  beg : s.beg = pointer
  len : s.len = unitCount read
  measured : s.width = width cluster
  goesOn : more = !rest.isEmpty
  after : holds (if rest.isEmpty then some cluster else none) s

theorem reset_in_range (beg finish pointer : Nat) (order : beg ≤ finish) :
    beg ≤ resetIfOutOfRange beg finish beg pointer ∧ resetIfOutOfRange beg finish beg pointer ≤ finish := by
  simp only [resetIfOutOfRange]
  split
  · exact ⟨le_refl _, order⟩
  · split <;> omega

theorem cluster_end (low : str.begin ≤ pointer) (high : pointer ≤ str.finish) (split : str.textFrom pointer = units ++ rest) :
    str.finish - rest.length - pointer = units.length ∧ (str.finish - rest.length < str.finish ↔ rest.isEmpty = false) := by
  have length := congrArg List.length split
  rw [textFrom, length_drop, length_append] at length
  rw [begin] at low
  rw [finish] at high ⊢
  refine ⟨by omega, ?_⟩
  cases rest with
  | nil => simp
  | cons head tail =>
    rw [length_cons] at length ⊢
    simp only [isEmpty_cons, iff_true]
    omega

theorem text_from_ne_nil (str : StringView) (pointer : Nat) (low : str.begin ≤ pointer) (inside : pointer < str.finish) :
    str.textFrom pointer ≠ [] := by
  intro empty
  have length := congrArg List.length empty
  rw [textFrom, length_drop, length_nil] at length
  rw [begin] at low
  rw [finish] at inside
  omega

theorem text_from_next (low : str.begin ≤ pointer)
    (split : str.textFrom pointer = units ++ rest) : str.textFrom (pointer + units.length) = rest := by
  rw [begin] at low
  rw [textFrom, Nat.sub_add_comm low, ← drop_drop, ← textFrom, split, drop_left]

theorem grapheme_next_outcome (s : GraphemeState) (str : StringView) (pointer : Nat) (holds : HoldsGraphemes opened s)
    (isPointer : resetIfOutOfRange str.begin str.finish str.begin (s.beg + s.len) = pointer) (inside : pointer < str.finish) :
    ∃ rest read cluster, Outcome (graphemes .next) GraphemeCluster.width HoldsGraphemes opened
    (str.textFrom pointer) rest read cluster pointer (graphemeNext s str).1 (graphemeNext s str).2 := by
  have range := reset_in_range str.begin str.finish (s.beg + s.len) (le_add_right _ _)
  rw [isPointer] at range
  obtain ⟨read, cluster, reads, width, ended, stopped⟩ :=
    scan_cluster_reads .next codePoints decodes_next opened s holds (str.textFrom pointer)
      (text_from_ne_nil str pointer range.1 inside)
  generalize found : scanCluster .next s (str.textFrom pointer) = scanned at *
  obtain ⟨units, split, count⟩ := reads.split
  obtain ⟨len, more⟩ := cluster_end range.1 range.2 split
  have clamp : (if scanned.width > 2 then 2 else scanned.width) = cluster.width := by
    split <;> omega
  have called : graphemeNext s str =
      (⟨pointer, unitCount read, cluster.width, ~~~scanned.state, scanned.last⟩, !scanned.text.isEmpty) := by
    simp only [graphemeNext, isPointer, inside, found, len, count, clamp, more]
    cases scanned.text.isEmpty <;> rfl
  rw [called]
  refine ⟨scanned.text, read, cluster, reads, rfl, rfl, rfl, rfl, ?_⟩
  cases scanned with
  | mk text total state last =>
    cases text with
    | nil =>
      obtain ⟨isState, isLast⟩ := ended rfl
      exact ⟨congrArg (fun value : Int => ~~~value) isState, isLast, rfl, by rw [← width]; exact min_le_left _ _⟩
    | cons head rest =>
      have isState : state = ~~~0 := stopped (by simp)
      show ~~~state = 0
      rw [isState]
      rfl

end

-- A character of width zero joins any cluster, all others start one.
def wcswidths : Segmenter Symbol Nat where
  first symbol := resolvedWidth (ucdLookup symbol.1)
  join width symbol := if resolvedWidth (ucdLookup symbol.1) = 0 then some width else none

variable {opened : Option Nat} {s : GraphemeState}

theorem wcswidth_next_reads (fuel : Nat) (text : List WChar) (width : Nat) (enough : text.length ≤ fuel)
    (nonempty : text ≠ []) :
    ∃ read, Reads codePoints wcswidths (some width) text (wcswidthNextLoop fuel text width 1).text read width ∧
      (wcswidthNextLoop fuel text width 1).width = width ∧
      (wcswidthNextLoop fuel text width 1).state = if (wcswidthNextLoop fuel text width 1).text.isEmpty then 1 else 0 := by
  induction fuel generalizing text with
  | zero =>
    exact absurd (length_eq_zero_iff.mp (le_zero.mp enough)) nonempty
  | succ fuel ih =>
    obtain ⟨cp, tail, units, found, split, shorter, points⟩ := decodes_next.next nonempty
    by_cases zero : resolvedWidth (ucdLookup cp) = 0
    · have joins : wcswidths.join width (cp, units.length) = some width := by simp [wcswidths, zero]
      cases tail with
      | nil =>
        have scanned : wcswidthNextLoop (fuel + 1) text width 1 = ⟨[], width, 1, 0⟩ := by simp [wcswidthNextLoop, found, zero]
        rw [scanned]
        exact ⟨_, reads_join codePoints wcswidths points split rfl joins (reads_end codePoints wcswidths rfl), rfl, rfl⟩
      | cons head rest =>
        have scanned : wcswidthNextLoop (fuel + 1) text width 1 = wcswidthNextLoop fuel (head :: rest) width 1 := by
          simp [wcswidthNextLoop, found, zero]
        rw [scanned]
        obtain ⟨read, reads, others⟩ := ih (head :: rest) (by omega) (by simp)
        exact ⟨_, reads_join codePoints wcswidths points split rfl joins reads, others⟩
    · have stops : wcswidths.join width (cp, units.length) = none := by simp [wcswidths, zero]
      have scanned : wcswidthNextLoop (fuel + 1) text width 1 = ⟨text, width, 0, 0⟩ := by simp [wcswidthNextLoop, found, zero]
      rw [scanned]
      refine ⟨[], reads_stop codePoints wcswidths points stops, rfl, ?_⟩
      cases text with
      | nil => exact absurd rfl nonempty
      | cons head rest => rfl

def HoldsWidth (opened : Option Nat) (s : GraphemeState) : Prop :=
  match opened with
  | none => s.state = 0
  | some width => s.state = 1 ∧ s.width = width

theorem wcswidth_scan_reads (holds : HoldsWidth opened s) (nonempty : text ≠ []) :
    let scanned := wcswidthNextLoop text.length text (if s.state = 0 then 0 else s.width) s.state
    ∃ read, Reads codePoints wcswidths opened text scanned.text read scanned.width ∧
      scanned.state = if scanned.text.isEmpty then 1 else 0 := by
  cases opened with
  | none =>
    obtain ⟨cp, tail, units, found, split, shorter, points⟩ := decodes_next.next nonempty
    have fresh : s.state = 0 := holds
    obtain ⟨fuel, isFuel⟩ : ∃ fuel, text.length = fuel + 1 :=
      exists_eq_succ_of_ne_zero (ne_of_gt (length_pos_iff.mpr nonempty))
    rw [isFuel] at shorter ⊢
    cases tail with
    | nil =>
      have scanned : wcswidthNextLoop (fuel + 1) text (if s.state = 0 then 0 else s.width) s.state =
          ⟨[], resolvedWidth (ucdLookup cp), 1, 0⟩ := by
        simp [wcswidthNextLoop, found, fresh]
      simp only [scanned]
      exact ⟨_, reads_first codePoints wcswidths points split rfl (reads_end codePoints wcswidths rfl), rfl⟩
    | cons head rest =>
      have scanned : wcswidthNextLoop (fuel + 1) text (if s.state = 0 then 0 else s.width) s.state =
          wcswidthNextLoop fuel (head :: rest) (resolvedWidth (ucdLookup cp)) 1 := by
        simp [wcswidthNextLoop, found, fresh]
      obtain ⟨read, reads, width, state⟩ :=
        wcswidth_next_reads fuel (head :: rest) (resolvedWidth (ucdLookup cp)) (le_of_lt_succ shorter) (by simp)
      simp only [scanned, width]
      exact ⟨_, reads_first codePoints wcswidths points split rfl reads, state⟩
  | some width =>
    obtain ⟨state, isWidth⟩ := holds
    obtain ⟨read, reads, same, stateAfter⟩ := wcswidth_next_reads text.length text width (le_refl _) nonempty
    simp only [state, isWidth, one_ne_zero, if_false, same]
    exact ⟨read, reads, stateAfter⟩

theorem wcswidth_next_outcome (opened : Option Nat) (s : GraphemeState) (str : StringView) (pointer : Nat)
    (holds : HoldsWidth opened s) (isPointer : resetIfOutOfRange str.begin str.finish str.begin (s.beg + s.len) = pointer)
    (inside : pointer < str.finish) :
    ∃ rest read cluster, Outcome wcswidths id HoldsWidth opened (str.textFrom pointer) rest read cluster pointer
      (graphemeNextWcswidth s str).1 (graphemeNextWcswidth s str).2 := by
  have range := reset_in_range str.begin str.finish (s.beg + s.len) (le_add_right _ _)
  rw [isPointer] at range
  obtain ⟨read, reads, state⟩ :=
    wcswidth_scan_reads holds (text_from_ne_nil str pointer range.1 inside)
  generalize found : wcswidthNextLoop (str.textFrom pointer).length (str.textFrom pointer)
    (if s.state = 0 then 0 else s.width) s.state = scanned at *
  obtain ⟨units, split, count⟩ := reads.split
  obtain ⟨len, more⟩ := cluster_end range.1 range.2 split
  have called : graphemeNextWcswidth s str =
      (⟨pointer, unitCount read, scanned.width, scanned.state, s.last⟩, !scanned.text.isEmpty) := by
    simp only [graphemeNextWcswidth, isPointer, not_le.mpr inside, found, len, count, more]
    cases scanned.text.isEmpty <;> rfl
  rw [called]
  refine ⟨scanned.text, read, scanned.width, reads, rfl, rfl, rfl, rfl, ?_⟩
  rw [state]
  cases scanned.text.isEmpty with
  | true => exact ⟨rfl, rfl⟩
  | false => rfl

open CodepointWidthDetector

def fallbackWidth (method : Option (List WChar → Option Bool)) (codepoint : Nat) : Nat :=
  match method with
  | none => 1
  | some method =>
    match method (encodeCodepoint codepoint) with
    | none => 1
    | some isWide => if isWide then 2 else 1

def consoleWidth (method : Option (List WChar → Option Bool)) (codepoint : Nat) : Nat :=
  if ucdToCharacterWidth (ucdLookup codepoint) = 3 then fallbackWidth method codepoint
  else ucdToCharacterWidth (ucdLookup codepoint)

def codepoints (method : Option (List WChar → Option Bool)) : Segmenter Symbol Nat where
  first symbol := consoleWidth method symbol.1
  join _ _ := none

def Consistent (cwd : CodepointWidthDetector) : Prop :=
  ∀ codepoint width, cwd.fallbackCache.lookup codepoint = some width → cwd.fallbackMethod.isSome = true →
    width = fallbackWidth cwd.fallbackMethod codepoint

theorem check_fallback_result (codepoint : Nat) (consistent : Consistent cwd) :
    (cwd.checkFallbackViaCache codepoint).1 = fallbackWidth cwd.fallbackMethod codepoint ∧
      (cwd.checkFallbackViaCache codepoint).2.mode = cwd.mode ∧
      (cwd.checkFallbackViaCache codepoint).2.fallbackMethod = cwd.fallbackMethod ∧
      Consistent (cwd.checkFallbackViaCache codepoint).2 := by
  cases noMethod : cwd.fallbackMethod with
  | none => simp [checkFallbackViaCache, noMethod, fallbackWidth, consistent]
  | some method =>
    cases cached : cwd.fallbackCache.lookup codepoint with
    | some width =>
      have same := consistent codepoint width cached (by simp [noMethod])
      simp [checkFallbackViaCache, noMethod, cached, same, consistent]
    | none =>
      cases answer : method (encodeCodepoint codepoint) with
      | none => simp [checkFallbackViaCache, noMethod, cached, answer, fallbackWidth, consistent]
      | some isWide =>
        have checked : cwd.checkFallbackViaCache codepoint = (if isWide then 2 else 1,
            { cwd with fallbackCache := (codepoint, if isWide then 2 else 1) :: cwd.fallbackCache }) := by
          simp [checkFallbackViaCache, noMethod, cached, answer]
        rw [checked]
        refine ⟨by simp [fallbackWidth, answer], rfl, noMethod, ?_⟩
        intro other width found isSome
        simp only [lookup_cons] at found
        by_cases same : other = codepoint
        · rw [beq_iff_eq.mpr same] at found
          simp [← Option.some.inj found, same, fallbackWidth, noMethod, answer]
        · rw [beq_eq_false_iff_ne.mpr same] at found
          exact consistent other width found isSome

theorem console_next_outcome (consistent : Consistent cwd) (holds : HoldsWidth opened s)
    (isPointer : resetIfOutOfRange str.begin str.finish str.begin (s.beg + s.len) = pointer) (inside : pointer < str.finish) :
    ∃ rest read cluster, Outcome (codepoints cwd.fallbackMethod) id HoldsWidth opened (str.textFrom pointer) rest read cluster
        pointer (cwd.graphemeNextConsole s str).2.1 (cwd.graphemeNextConsole s str).2.2 ∧
      (cwd.graphemeNextConsole s str).1.mode = cwd.mode ∧ (cwd.graphemeNextConsole s str).1.fallbackMethod =
        cwd.fallbackMethod ∧
      Consistent (cwd.graphemeNextConsole s str).1 := by
  have range := reset_in_range str.begin str.finish (s.beg + s.len) (le_add_right _ _)
  rw [isPointer] at range
  have nonempty := text_from_ne_nil str pointer range.1 inside
  obtain ⟨cp, tail, units, found, split, _, points⟩ := decodes_next.next nonempty
  cases opened with
  | none =>
    have fresh : s.state = 0 := holds
    obtain ⟨len, more⟩ := cluster_end range.1 range.2 split
    obtain ⟨width, mode, method, consistentAfter⟩ := check_fallback_result cp consistent
    have called : cwd.graphemeNextConsole s str = ((if ucdToCharacterWidth (ucdLookup cp) = 3 then cwd.checkFallbackViaCache cp
            else (ucdToCharacterWidth (ucdLookup cp), cwd)).2,
          ⟨pointer, units.length, consoleWidth cwd.fallbackMethod cp, if tail.isEmpty then 1 else 0, s.last⟩,
          !tail.isEmpty) := by
      have atEnd : (str.finish - tail.length ≥ str.finish) = (tail.isEmpty = true) := by
        rw [ge_iff_le, ← not_lt, more, Bool.not_eq_false]
      have isWidth : (if ucdToCharacterWidth (ucdLookup cp) = 3 then cwd.checkFallbackViaCache cp
          else (ucdToCharacterWidth (ucdLookup cp), cwd)).1 = consoleWidth cwd.fallbackMethod cp := by
        rw [consoleWidth, ← width]
        split <;> rfl
      simp only [graphemeNextConsole, isPointer, not_le.mpr inside, fresh, found, len, more, isWidth]
      simp only [atEnd]
      cases tail.isEmpty <;> rfl
    rw [called]
    refine ⟨tail, [(cp, units.length)], consoleWidth cwd.fallbackMethod cp, ⟨?_, rfl, by simp, rfl, rfl, ?_⟩, ?_⟩
    · apply reads_first codePoints (codepoints cwd.fallbackMethod) points split rfl
      exact reads_nothing codePoints (codepoints cwd.fallbackMethod) (fun _ => rfl)
    · cases tail with
      | nil => exact ⟨rfl, rfl⟩
      | cons head rest => rfl
    · split
      · exact ⟨mode, method, consistentAfter⟩
      · exact ⟨rfl, rfl, consistent⟩
  | some width =>
    obtain ⟨state, isWidth⟩ := holds
    have called : cwd.graphemeNextConsole s str = (cwd, ⟨pointer, 0, s.width, 0, s.last⟩, true) := by
      simp [graphemeNextConsole, isPointer, not_le.mpr inside, state]
    rw [called]
    refine ⟨str.textFrom pointer, [], width, ⟨?_, rfl, rfl, isWidth, ?_, ?_⟩, rfl, rfl, consistent⟩
    · exact reads_stop codePoints (codepoints cwd.fallbackMethod) points rfl
    · simp [isEmpty_eq_false_iff.mpr nonempty]
    · rw [isEmpty_eq_false_iff.mpr nonempty]
      rfl

end Cogterm.Unicode
