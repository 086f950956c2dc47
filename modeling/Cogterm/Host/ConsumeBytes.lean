import Cogterm.Host.InputBuffer

namespace Cogterm.Host

open List Nat

open Unicode (WChar isSurrogate isLeadingSurrogate isTrailingSurrogate isPair leading_surrogate_iff)

-- What is assumed of the platform: a code point takes one to eight bytes.
structure CodePage.Sound (cp : CodePage) : Prop where
  atLeast : ∀ text : List WChar, text.length = 1 ∨ text.length = 2 → 1 ≤ (cp.bytes text).length
  atMost : ∀ text : List WChar, text.length = 1 ∨ text.length = 2 → (cp.bytes text).length ≤ 8

variable {wch trail : WChar}

def CodePoint (text : List WChar) : Prop :=
  (∃ wch, text = [wch] ∧ isSurrogate wch = false) ∨ ∃ lead trail, text = [lead, trail] ∧ isPair lead trail = true

def WellFormed (source : List WChar) : Prop := ∀ text ∈ codePointTexts source, CodePoint text

theorem texts_cons_single (text : List WChar) (notLeading : isLeadingSurrogate wch = false) :
    codePointTexts (wch :: text) = [wch] :: codePointTexts text ∧
      utf16Iterator (wch :: text) = (if isSurrogate wch then [0xFFFD] else [wch]) :: utf16Iterator text := by
  cases text with
  | nil => exact ⟨rfl, rfl⟩
  | cons next rest => simp [codePointTexts, utf16Iterator, isPair, notLeading]

theorem texts_cons_pair (text : List WChar) (pair : isPair lead trail = true) :
    codePointTexts (lead :: trail :: text) = [lead, trail] :: codePointTexts text ∧
      utf16Iterator (lead :: trail :: text) = [lead, trail] :: utf16Iterator text := by
  simp [codePointTexts, utf16Iterator, pair]

theorem plain_not_leading (plain : isSurrogate wch = false) : isLeadingSurrogate wch = false := by
  cases leading : isLeadingSurrogate wch with
  | false => rfl
  | true => rw [((leading_surrogate_iff wch).mp leading).1] at plain; cases plain

theorem trailing_not_leading (trailing : isTrailingSurrogate wch = true) :
    isLeadingSurrogate wch = false ∧ isSurrogate wch = true := by
  simp only [isTrailingSurrogate, isLeadingSurrogate, isSurrogate, beq_iff_eq] at trailing ⊢
  refine ⟨by rw [trailing]; decide, ?_⟩
  have upper := (Unicode.surrogate_masks wch).2.1
  rw [upper, trailing]
  decide

theorem pair_trailing (pair : isPair lead trail = true) : isTrailingSurrogate trail = true :=
  (Bool.and_eq_true_iff.mp pair).2

theorem texts_flatten (wellFormed : ∀ text ∈ points, CodePoint text) :
    codePointTexts points.flatten = points ∧ utf16Iterator points.flatten = points := by
  induction points with
  | nil => exact ⟨rfl, rfl⟩
  | cons text rest ih =>
    obtain ⟨texts, iterated⟩ := ih (fun point member => wellFormed point (mem_cons_of_mem text member))
    rcases wellFormed text mem_cons_self with ⟨wch, rfl, plain⟩ | ⟨lead, trail, rfl, pair⟩
    · obtain ⟨asText, asIterated⟩ := texts_cons_single rest.flatten (plain_not_leading plain)
      simp [asText, asIterated, texts, iterated, plain]
    · obtain ⟨asText, asIterated⟩ := texts_cons_pair rest.flatten pair
      simp [asText, asIterated, texts, iterated]

theorem flatten_texts (source : List WChar) : (codePointTexts source).flatten = source := by
  fun_induction codePointTexts source with
  | case1 => rfl
  | case2 wch => rfl
  | case3 wch next rest pair ih => simp [ih]
  | case4 wch next rest notPair ih => simp [ih]

theorem code_point_length (point : CodePoint text) : text.length = 1 ∨ text.length = 2 := by
  rcases point with ⟨wch, rfl, -⟩ | ⟨lead, trail, rfl, -⟩
  · exact Or.inl rfl
  · exact Or.inr rfl

theorem slow_path_takes {cp : CodePage} (room : Nat) (sofar : SlowPath) (positive : 0 < room)
    (enough : room ≤ (texts.flatMap cp.bytes).length) :
    ∃ count, count < texts.length ∧ ((texts.take count).flatMap cp.bytes).length < room ∧
      room ≤ ((texts.take (count + 1)).flatMap cp.bytes).length ∧ slowPath cp texts room sofar =
        { delivered := sofar.delivered ++ ((texts.take (count + 1)).flatMap cp.bytes).take room
          cached := ((texts.take (count + 1)).flatMap cp.bytes).drop room
          read := sofar.read + (count + 1) } := by
  induction texts generalizing room sofar with
  | nil => exact absurd enough (by simp; omega)
  | cons text rest ih =>
    rw [flatMap_cons, length_append] at enough
    rw [slowPath]
    by_cases full : room - (cp.bytes text).length = 0
    · refine ⟨0, succ_pos _, by simpa using positive, by simp; omega, ?_⟩
      simp [full]
    obtain ⟨count, inside, before, reached, taken⟩ := ih (room - (cp.bytes text).length)
      { sofar with delivered := sofar.delivered ++ (cp.bytes text).take room, read := sofar.read + 1 } (by omega) (by omega)
    have fits : (cp.bytes text).take room = cp.bytes text := take_of_length_le (by omega)
    refine ⟨count + 1, by rw [length_cons]; omega, ?_, ?_, ?_⟩
    · rw [take_succ_cons, flatMap_cons, length_append]
      omega
    · rw [take_succ_cons, flatMap_cons, length_append]
      omega
    · simp only [full, if_false]
      rw [taken, take_succ_cons (i := count + 1), flatMap_cons, take_append, drop_append,
        drop_of_length_le (show (cp.bytes text).length ≤ room by omega), append_assoc]
      congr 1
      dsimp only
      omega

namespace InputBuffer

variable (cp : CodePage)

def pendingText (buffer : InputBuffer) : List UInt8 := (buffer.switchReadingMode .stringA).cachedTextA

def calls (buffer : InputBuffer) (source : List WChar) (sizes : Nat → Nat) : Nat → Consumed
  | 0 => ⟨buffer, source, []⟩
  | times + 1 =>
    let sofar := calls buffer source sizes times
    let next := sofar.buffer.consume cp sofar.source (sizes times)
    { next with delivered := sofar.delivered ++ next.delivered }

def Exhausted (state : Consumed) : Prop := state.source = [] ∧ state.buffer.pendingText = []

def DeliversAll (buffer : InputBuffer) (source : List WChar) (sizes : Nat → Nat) : Prop :=
  ∃ count, Exhausted (buffer.calls cp source sizes count) ∧
    (buffer.calls cp source sizes count).delivered = buffer.pendingText ++ cp.convert source

def withText (buffer : InputBuffer) (text : List UInt8) : InputBuffer :=
  { buffer.switchReadingMode .stringA with cachedTextA := text }

@[simp] theorem with_text_pending (buffer : InputBuffer) (text : List UInt8) : (buffer.withText text).pendingText = text := by
  have mode : (buffer.withText text).readingMode = .stringA := switch_mode
  rw [pendingText, switch_again mode]
  rfl

-- The three ways a call can go: the left over bytes are all there is or all
-- there is room for, or the rest fits at once, or it is taken in pieces.
theorem consume_stops (buffer : InputBuffer) (source : List WChar) (target : Nat)
    (stops : source = [] ∨ target ≤ buffer.pendingText.length) : buffer.consume cp source target =
      ⟨buffer.withText (buffer.pendingText.drop target), source, buffer.pendingText.take target⟩ := by
  have length : (buffer.pendingText.take target).length = min target buffer.pendingText.length := length_take
  refine if_pos (stops.imp id fun full => ?_)
  change target - (buffer.pendingText.take target).length = 0
  omega

variable {buffer : InputBuffer} {source : List WChar}

theorem consume_goes_on (nonempty : source ≠ []) (room : buffer.pendingText.length < target) :
    buffer.consume cp source target = match wideCharToMultiByte cp source (target - buffer.pendingText.length) with
      | some bytes => ⟨buffer.withText [], [], buffer.pendingText ++ bytes⟩
      | none =>
        let slow := slowPath cp (utf16Iterator source) (target - buffer.pendingText.length) ⟨[], [], 0⟩
        ⟨buffer.withText slow.cached, source.drop slow.read, buffer.pendingText ++ slow.delivered⟩ := by
  have whole : buffer.pendingText.take target = buffer.pendingText := take_of_length_le (le_of_lt room)
  have nothing : buffer.pendingText.drop target = [] := drop_of_length_le (le_of_lt room)
  have goesOn : ¬ (source = [] ∨ target - (buffer.pendingText.take target).length = 0) := by
    rw [whole]
    exact not_or.mpr ⟨nonempty, by omega⟩
  refine (if_neg goesOn).trans ?_
  change (match wideCharToMultiByte cp source (target - (buffer.pendingText.take target).length) with
    | some bytes =>
      (⟨buffer.withText (buffer.pendingText.drop target), [], buffer.pendingText.take target ++ bytes⟩ : Consumed)
    | none =>
      let slow := slowPath cp (utf16Iterator source) (target - (buffer.pendingText.take target).length) ⟨[], [], 0⟩
      ⟨buffer.withText slow.cached, source.drop slow.read, buffer.pendingText.take target ++ slow.delivered⟩) = _
  rw [whole, nothing]

theorem consume_batch (nonempty : source ≠ []) (room : buffer.pendingText.length < target)
    (fits : (cp.convert source).length ≤ target - buffer.pendingText.length) :
    buffer.consume cp source target = ⟨buffer.withText [], [], buffer.pendingText ++ cp.convert source⟩ := by
  rw [consume_goes_on cp nonempty room, wideCharToMultiByte, if_pos fits]

theorem consume_pieces (nonempty : source ≠ []) (room : buffer.pendingText.length < target)
    (tight : ¬ (cp.convert source).length ≤ target - buffer.pendingText.length) : buffer.consume cp source target =
      let slow := slowPath cp (utf16Iterator source) (target - buffer.pendingText.length) ⟨[], [], 0⟩
      ⟨buffer.withText slow.cached, source.drop slow.read, buffer.pendingText ++ slow.delivered⟩ := by
  rw [consume_goes_on cp nonempty room, wideCharToMultiByte, if_neg tight]

-- A surrogate pair may only stand at the end of the source, and there it may
-- only take a single byte.
def PairsFit (points : List (List WChar)) : Prop :=
  ∀ front pair back, points = front ++ pair :: back → pair.length = 2 → back = [] ∧ (cp.bytes pair).length = 1

variable {points : List (List WChar)} {count : Nat}

theorem pairs_fit_drop (fit : PairsFit cp points) : PairsFit cp (points.drop count) := by
  intro front pair back isPoints isPair
  refine fit (points.take count ++ front) pair back ?_ isPair
  simp [← isPoints]

theorem read_single_units (wellFormed : ∀ text ∈ points, CodePoint text) (fit : PairsFit cp points)
    (inside : count < points.length) (tight : room < (points.flatMap cp.bytes).length)
    (before : ((points.take count).flatMap cp.bytes).length < room) : ∀ text ∈ points.take (count + 1), text.length = 1 := by
  intro text member
  rcases code_point_length (wellFormed text (mem_of_mem_take member)) with single | isPair
  · exact single
  exfalso
  obtain ⟨index, bound, isText⟩ := getElem_of_mem member
  rw [length_take] at bound
  have split : points = points.take index ++ text :: points.drop (index + 1) := by simp [← isText]
  obtain ⟨last, one⟩ := fit _ _ _ split isPair
  have atEnd : points.length ≤ index + 1 := drop_eq_nil_iff.mp last
  have same : index = count := by omega
  rw [split, flatMap_append, flatMap_cons, last, flatMap_nil, append_nil, length_append, same] at tight
  omega

theorem single_units_length (single : ∀ text ∈ points, text.length = 1) : points.flatten.length = points.length := by
  induction points with
  | nil => rfl
  | cons text rest ih =>
    rw [flatten_cons, length_append, single text mem_cons_self,
      ih (fun point member => single point (mem_cons_of_mem text member)), length_cons]
    omega

-- The invariant of the calls: the source is made of the code points that are
-- left, and these are converted to the bytes that are still missing.
structure Aligned (expected : List UInt8) (state : Consumed) (points : List (List WChar)) : Prop where
  source : state.source = points.flatten
  wellFormed : ∀ text ∈ points, CodePoint text
  fit : PairsFit cp points
  total : state.delivered ++ (state.buffer.pendingText ++ points.flatMap cp.bytes) = expected

theorem convert_flatten (wellFormed : ∀ text ∈ points, CodePoint text) :
    cp.convert points.flatten = points.flatMap cp.bytes := by
  rw [CodePage.convert, (texts_flatten wellFormed).1]

theorem flatten_ne_nil (wellFormed : ∀ text ∈ points, CodePoint text) (nonempty : points ≠ []) : points.flatten ≠ [] := by
  cases points with
  | nil => exact absurd rfl nonempty
  | cons text rest =>
    rcases wellFormed text mem_cons_self with ⟨wch, rfl, -⟩ | ⟨lead, trail, rfl, -⟩
    · exact cons_ne_nil _ _
    · exact cons_ne_nil _ _

theorem bytes_positive (sound : cp.Sound) (wellFormed : ∀ text ∈ points, CodePoint text) (nonempty : points ≠ []) :
    0 < (points.flatMap cp.bytes).length := by
  cases points with
  | nil => exact absurd rfl nonempty
  | cons text rest =>
    have one := sound.atLeast text (code_point_length (wellFormed text mem_cons_self))
    rw [flatMap_cons, length_append]
    omega

theorem call_aligned (sound : cp.Sound) (aligned : Aligned cp expected state points)
    (positive : 0 < target) : let next := state.buffer.consume cp state.source target
    ∃ rest, Aligned cp expected { next with delivered := state.delivered ++ next.delivered } rest ∧
      (Exhausted state ∨ 0 < next.delivered.length) := by
  obtain ⟨isSource, wellFormed, fit, total⟩ := aligned
  intro next
  by_cases stops : state.source = [] ∨ target ≤ state.buffer.pendingText.length
  · have isNext : next = _ := consume_stops cp state.buffer state.source target stops
    refine ⟨points, ⟨?_, wellFormed, fit, ?_⟩, ?_⟩
    · rw [isNext]
      exact isSource
    · simpa [isNext, ← append_assoc (state.buffer.pendingText.take target)] using total
    · rw [isNext, length_take]
      by_cases nothing : state.buffer.pendingText = []
      · rcases stops with empty | full
        · exact Or.inl ⟨empty, nothing⟩
        · omega
      · have some := length_pos_iff.mpr nothing
        exact Or.inr (by omega)
  · obtain ⟨nonempty, room⟩ := not_or.mp stops
    have short : state.buffer.pendingText.length < target := Nat.lt_of_not_le room
    have pointsNonempty : points ≠ [] := fun empty => nonempty (by rw [isSource, empty]; rfl)
    have bytes := bytes_positive cp sound wellFormed pointsNonempty
    have converted := convert_flatten cp wellFormed
    rw [← isSource] at converted
    by_cases fits : (cp.convert state.source).length ≤ target - state.buffer.pendingText.length
    · have isNext : next = _ := consume_batch cp nonempty short fits
      refine ⟨[], ⟨by rw [isNext]; rfl, fun text member => absurd member not_mem_nil, fun front pair back isPoints => ?_,
        ?_⟩, Or.inr ?_⟩
      · cases front <;> cases isPoints
      · rw [isNext, with_text_pending, converted]
        simpa using total
      · rw [isNext, length_append, converted]
        omega
    · have tight : target - state.buffer.pendingText.length < (points.flatMap cp.bytes).length := by
        rw [converted] at fits
        exact Nat.lt_of_not_le fits
      obtain ⟨count, inside, before, reached, taken⟩ := slow_path_takes (target - state.buffer.pendingText.length)
        ⟨[], [], 0⟩ (by omega) (le_of_lt tight)
      have isNext : next = _ := consume_pieces cp nonempty short fits
      have iterated : utf16Iterator state.source = points := by rw [isSource, (texts_flatten wellFormed).2]
      rw [iterated, taken, zero_add, nil_append] at isNext
      have single := read_single_units cp wellFormed fit inside tight before
      have length : (points.take (count + 1)).flatten.length = count + 1 := by
        rw [single_units_length single, length_take]
        omega
      have dropped : state.source.drop (count + 1) = (points.drop (count + 1)).flatten := by
        rw [isSource]
        nth_rewrite 1 [← take_append_drop (count + 1) points]
        rw [flatten_append, drop_left' length]
      refine ⟨points.drop (count + 1), ⟨by rw [isNext]; exact dropped,
        fun text member => wellFormed text (mem_of_mem_drop member), pairs_fit_drop cp fit, ?_⟩, Or.inr ?_⟩
      · simpa [isNext, ← append_assoc (take _ _), ← flatMap_append] using total
      · rw [isNext, length_append, length_take]
        omega

variable {sizes : Nat → Nat}

theorem exhausted_stays
    (done : Exhausted (buffer.calls cp source sizes count)) : Exhausted (buffer.calls cp source sizes (count + 1)) := by
  have stays := consume_stops cp (buffer.calls cp source sizes count).buffer (buffer.calls cp source sizes count).source
    (sizes count) (Or.inl done.1)
  refine ⟨?_, ?_⟩
  · rw [calls, stays]
    exact done.1
  · simp [calls, stays, done.2]

theorem calls_aligned (sound : cp.Sound) (buffer : InputBuffer) (positive : ∀ call, 0 < sizes call)
    (wellFormed : WellFormed source) (fit : PairsFit cp (codePointTexts source)) (count : Nat) :
    (∃ points, Aligned cp (buffer.pendingText ++ cp.convert source) (buffer.calls cp source sizes count) points) ∧
      (Exhausted (buffer.calls cp source sizes count) ∨ count ≤ (buffer.calls cp source sizes count).delivered.length) := by
  induction count with
  | zero => exact ⟨⟨codePointTexts source, (flatten_texts source).symm, wellFormed, fit, rfl⟩, Or.inr (zero_le _)⟩
  | succ count ih =>
    obtain ⟨⟨points, aligned⟩, progress⟩ := ih
    obtain ⟨rest, next, more⟩ := call_aligned cp sound aligned (positive count)
    refine ⟨⟨rest, next⟩, ?_⟩
    by_cases done : Exhausted (buffer.calls cp source sizes count)
    · exact Or.inl (exhausted_stays cp done)
    have sofar := progress.resolve_left done
    have delivered := more.resolve_left done
    refine Or.inr ?_
    rw [calls, length_append]
    omega

theorem delivers_all (sound : cp.Sound) (positive : ∀ call, 0 < sizes call)
    (wellFormed : WellFormed source) (fit : PairsFit cp (codePointTexts source)) : buffer.DeliversAll cp source sizes := by
  obtain ⟨expected, isExpected⟩ : ∃ expected, expected = buffer.pendingText ++ cp.convert source := ⟨_, rfl⟩
  obtain ⟨⟨points, aligned⟩, progress⟩ := calls_aligned cp sound buffer positive wellFormed fit (expected.length + 1)
  rw [← isExpected] at aligned
  have bounded : (buffer.calls cp source sizes (expected.length + 1)).delivered.length ≤ expected.length := by
    have total := congrArg length aligned.total
    rw [length_append] at total
    omega
  have done := progress.resolve_right (by omega)
  refine ⟨expected.length + 1, done, ?_⟩
  have nothing : points = [] := by
    by_contra nonempty
    exact flatten_ne_nil aligned.wellFormed nonempty (aligned.source.symm.trans done.1)
  have total := aligned.total
  rw [done.2, nothing, flatMap_nil, append_nil, append_nil] at total
  rw [total, isExpected]

-- What targets of a single byte are given: each code point is followed by
-- whatever stands one unit further.
def dripped : List WChar → List UInt8
  | [] => []
  | wch :: rest =>
    if (cp.convert (wch :: rest)).length ≤ 1 then cp.convert (wch :: rest)
    else cp.bytes ((utf16Iterator (wch :: rest)).headD []) ++ dripped rest

theorem iterator_head (wch : WChar) (rest : List WChar) :
    ∃ text more, utf16Iterator (wch :: rest) = text :: more ∧ (text.length = 1 ∨ text.length = 2) := by
  cases rest with
  | nil =>
    refine ⟨_, _, rfl, Or.inl ?_⟩
    split <;> rfl
  | cons next rest =>
    rw [utf16Iterator]
    split
    · exact ⟨_, _, rfl, Or.inr rfl⟩
    · refine ⟨_, _, rfl, Or.inl ?_⟩
      split <;> rfl

theorem drip_call (sound : cp.Sound) (state : Consumed) : let next := state.buffer.consume cp state.source 1
    next.delivered ++ (next.buffer.pendingText ++ dripped cp next.source) =
    state.buffer.pendingText ++ dripped cp state.source := by
  intro next
  by_cases stops : state.source = [] ∨ 1 ≤ state.buffer.pendingText.length
  · have isNext : next = _ := consume_stops cp state.buffer state.source 1 stops
    rw [isNext, with_text_pending, ← append_assoc, take_append_drop]
  obtain ⟨nonempty, nothing⟩ := not_or.mp stops
  have empty : state.buffer.pendingText = [] := length_eq_zero_iff.mp (by omega)
  have short : state.buffer.pendingText.length < 1 := by omega
  obtain ⟨wch, rest, isSource⟩ := exists_cons_of_ne_nil nonempty
  have room : 1 - state.buffer.pendingText.length = 1 := by simp [empty]
  by_cases fits : (cp.convert state.source).length ≤ 1 - state.buffer.pendingText.length
  · have isNext : next = _ := consume_batch cp nonempty short fits
    rw [room] at fits
    rw [isNext]
    rw [isSource] at fits ⊢
    simp [dripped, fits]
  · have isNext : next = _ := consume_pieces cp nonempty short fits
    rw [room] at fits isNext
    obtain ⟨text, more, iterated, length⟩ := iterator_head wch rest
    have one := sound.atLeast text length
    have slow : slowPath cp (utf16Iterator state.source) 1 ⟨[], [], 0⟩ =
        ⟨(cp.bytes text).take 1, (cp.bytes text).drop 1, 1⟩ := by
      rw [isSource, iterated, slowPath, if_pos (by omega)]
      rfl
    rw [isNext, slow, with_text_pending, empty]
    rw [isSource] at fits ⊢
    rw [dripped, if_neg fits, iterated]
    simp only [nil_append, headD_cons, drop_succ_cons, drop_zero]
    rw [← append_assoc, take_append_drop]

theorem drip_calls (sound : cp.Sound) (buffer : InputBuffer) (source : List WChar) (count : Nat) :
    let state := buffer.calls cp source (fun _ => 1) count
    state.delivered ++ (state.buffer.pendingText ++ dripped cp state.source) = buffer.pendingText ++ dripped cp source := by
  induction count with
  | zero => rfl
  | succ count ih =>
    have call := drip_call cp sound (buffer.calls cp source (fun _ => 1) count)
    rw [calls]
    simpa [call] using ih

-- A pair is read again from its second half on, so nothing gets lost but bytes
-- are added.
theorem dripped_trailing (sound : cp.Sound) (wellFormed : ∀ text ∈ points, CodePoint text)
    (trailing : isTrailingSurrogate trail = true)
    (rest : (points.flatMap cp.bytes).length ≤ (dripped cp points.flatten).length) :
    (points.flatMap cp.bytes).length < (dripped cp (trail :: points.flatten)).length := by
  obtain ⟨notLeading, surrogate⟩ := trailing_not_leading trailing
  obtain ⟨asText, asIterated⟩ := texts_cons_single points.flatten notLeading
  rw [dripped]
  split
  · have one := sound.atLeast [trail] (Or.inl rfl)
    rw [CodePage.convert, asText, flatMap_cons, (texts_flatten wellFormed).1, length_append]
    omega
  have one := sound.atLeast [0xFFFD] (Or.inl rfl)
  rw [asIterated, surrogate, headD_cons, length_append]
  simp only [if_true]
  omega

theorem single_byte_fits (sound : cp.Sound) (wellFormed : ∀ text ∈ points, CodePoint text)
    (short : (points.flatMap cp.bytes).length ≤ 1) : PairsFit cp points := by
  intro front pair back isPoints isPair
  rw [isPoints, flatMap_append, flatMap_cons, length_append, length_append] at short
  have one := sound.atLeast pair (Or.inr isPair)
  refine ⟨?_, by omega⟩
  by_contra nonempty
  have positive := bytes_positive cp sound (fun text member => wellFormed text (by simp [isPoints, member])) nonempty
  omega

theorem single_unit_fits (fit : PairsFit cp points) : PairsFit cp ([wch] :: points) := by
  intro front pair back isPoints isPair
  cases front with
  | nil =>
    rw [nil_append, cons.injEq] at isPoints
    rw [← isPoints.1] at isPair
    cases isPair
  | cons first front => exact fit front pair back (cons.inj isPoints).2 isPair

theorem dripped_covers (sound : cp.Sound) (wellFormed : ∀ text ∈ points, CodePoint text) :
    (points.flatMap cp.bytes).length ≤ (dripped cp points.flatten).length ∧
      (¬ PairsFit cp points → (points.flatMap cp.bytes).length < (dripped cp points.flatten).length) := by
  induction points with
  | nil => exact ⟨le_refl 0, absurd (fun front pair back isPoints => by cases front <;> cases isPoints)⟩
  | cons text rest ih =>
    have restFormed : ∀ point ∈ rest, CodePoint point := fun point member => wellFormed point (mem_cons_of_mem text member)
    obtain ⟨covers, longer⟩ := ih restFormed
    have converted := convert_flatten cp wellFormed
    have iterated := (texts_flatten wellFormed).2
    have unread : ∃ wch unread, (text :: rest).flatten = wch :: unread ∧
        (rest.flatMap cp.bytes).length ≤ (dripped cp unread).length ∧
        (¬ PairsFit cp (text :: rest) → (rest.flatMap cp.bytes).length < (dripped cp unread).length) := by
      rcases wellFormed text mem_cons_self with ⟨wch, rfl, plain⟩ | ⟨lead, trail, rfl, pair⟩
      · exact ⟨wch, rest.flatten, rfl, covers, fun misfit => longer (mt (single_unit_fits cp) misfit)⟩
      · have more := dripped_trailing cp sound restFormed (pair_trailing pair) covers
        exact ⟨lead, trail :: rest.flatten, rfl, le_of_lt more, fun _ => more⟩
    obtain ⟨wch, unread, isSource, less, grows⟩ := unread
    rw [isSource] at converted iterated ⊢
    rw [dripped, converted]
    split
    next short => exact ⟨le_refl _, absurd (single_byte_fits cp sound wellFormed short)⟩
    next =>
      rw [iterated, headD_cons, flatMap_cons, length_append, length_append]
      exact ⟨by omega, fun misfit => Nat.add_lt_add_left (grows misfit) _⟩

theorem consume_delivers_iff (sound : cp.Sound) (buffer : InputBuffer) (source : List WChar) (wellFormed : WellFormed source) :
    (∀ sizes : Nat → Nat, (∀ call, 0 < sizes call) → buffer.DeliversAll cp source sizes) ↔
      PairsFit cp (codePointTexts source) := by
  constructor
  · intro always
    by_contra misfit
    obtain ⟨count, done, delivered⟩ := always (fun _ => 1) (fun _ => one_pos)
    have drips := drip_calls cp sound buffer source count
    dsimp only at drips
    rw [done.1, done.2, delivered, dripped, append_nil, append_nil] at drips
    have lengths := congrArg length (append_cancel_left drips)
    have longer := (dripped_covers cp sound wellFormed).2 misfit
    rw [flatten_texts] at longer
    rw [CodePage.convert] at lengths
    omega
  · intro fit sizes positive
    exact delivers_all cp sound positive wellFormed fit

theorem utf8_length : 1 ≤ (utf8Bytes codepoint).length ∧ (utf8Bytes codepoint).length ≤ 4 := by
  unfold utf8Bytes
  split_ifs <;> simp

theorem utf8_sound : utf8CodePage.Sound :=
  ⟨fun text _ => utf8_length.1, fun text _ => le_trans utf8_length.2 (by decide)⟩

def noInput : InputBuffer := ⟨[], [], [], .stringA, []⟩

theorem consume_delivers_letters : noInput.DeliversAll utf8CodePage [0x61, 0xE9] (fun _ => 2) := by
  have wellFormed : WellFormed [0x61, 0xE9] := by
    intro text member
    rcases mem_cons.mp member with rfl | last
    · exact Or.inl ⟨0x61, rfl, by decide⟩
    · exact Or.inl ⟨0xE9, mem_singleton.mp last, by decide⟩
  refine (consume_delivers_iff utf8CodePage utf8_sound noInput [0x61, 0xE9] wellFormed).mpr ?_ (fun _ => 2) (fun _ => by decide)
  intro front pair back isPoints isPair
  have member : pair ∈ codePointTexts [0x61, 0xE9] := by simp [isPoints]
  rcases mem_cons.mp member with rfl | last
  · cases isPair
  · rw [mem_singleton.mp last] at isPair
    cases isPair

-- U+1F600 into targets of two bytes: its second half is converted once more.
theorem consume_repeats_half : let state := noInput.calls utf8CodePage [0xD83D, 0xDE00] (fun _ => 2) 4
    utf8CodePage.convert [0xD83D, 0xDE00] = [0xF0, 0x9F, 0x98, 0x80] ∧ state.source = [] ∧ state.buffer.pendingText = [] ∧
      state.delivered = [0xF0, 0x9F, 0x98, 0x80, 0xEF, 0xBF, 0xBD] := by
  decide +kernel

end InputBuffer

end Cogterm.Host
