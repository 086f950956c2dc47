import Cogterm.Convert.Encodings

namespace Cogterm.Convert

open Library List Nat
open Unicode (WChar)

variable {chunk : List UInt8} {left done : List Char}

section

-- The platform converts text code point by code point where there is room.
structure Converts (platform : Platform) : Prop where
  wide : ∀ text capacity, text ≠ [] → (text.flatMap encode16).length ≤ capacity →
    platform.multiByteToWideChar (text.flatMap encode8) capacity = some (text.flatMap encode16)
  narrow : ∀ text capacity, text ≠ [] → (text.flatMap encode8).length ≤ capacity →
    platform.wideCharToMultiByte (text.flatMap encode16) capacity = some (text.flatMap encode8)

theorem complete_empty {α β : Type} {encode : α → List β} (nonempty : ∀ first, encode first ≠ []) {done : List α}
    (none : done.flatMap encode = []) : done = [] :=
  eq_nil_iff_forall_not_mem.mpr (fun first member => nonempty first (flatMap_eq_nil_iff.mp none first member))

theorem append_converted {α β γ σ : Type} {encode : α → List β} (decode : α → List γ)
    (nonempty : ∀ first, encode first ≠ []) (convert : List β → Nat → Option (List γ)) (capacity : Nat) (done : List α)
    (converts : done ≠ [] → convert (done.flatMap encode) capacity = some (done.flatMap decode)) (out : List γ)
    (state : σ) :
    appendConverted convert (done.flatMap encode) capacity out state = (.ok (out ++ done.flatMap decode), state) := by
  rw [appendConverted]
  by_cases none : done = []
  · simp [none]
  · rw [if_neg (fun empty => none (complete_empty nonempty (isEmpty_iff.mp empty))), converts none]

variable {piece tail : List UInt8} {c : Char} {state : U8State}

section

structure Keeps (state : U8State) (piece : List UInt8) : Prop where
  room : state.partials.length = 4
  partials : state.partials.take piece.length = piece
  haveCount : state.haveCount = piece.length
  wantCount : state.wantCount = if piece = [] then 0 else codePointLength (piece.headD 0) - piece.length

variable {first : UInt8}

theorem skip_continuation (continuation rest : List UInt8) (leads : isContinuation first = false)
    (continues : ∀ byte ∈ continuation, isContinuation byte = true) (skipped : Nat) :
    skipContinuation (continuation ++ first :: rest) skipped = (first, skipped + continuation.length) := by
  induction continuation generalizing skipped with
  | nil =>
    cases rest with
    | nil => rfl
    | cons next rest =>
      rw [nil_append, skipContinuation, if_neg (by rw [leads]; exact Bool.false_ne_true)]
      rfl
  | cons byte continuation ih =>
    have next := ih (fun other member => continues other (mem_cons_of_mem _ member)) (skipped + 1)
    have isNext := continues byte mem_cons_self
    rw [length_cons, add_comm continuation.length, ← add_assoc, ← next]
    cases continuation with
    | nil => simp [skipContinuation, if_pos isNext]
    | cons other continuation => simp [skipContinuation, if_pos isNext]

theorem skip_to_sequence {front continuation : List UInt8} (leads : isContinuation first = false)
    (continues : ∀ byte ∈ continuation, isContinuation byte = true) :
    skipContinuation (front ++ first :: continuation).reverse 1 = (first, continuation.length + 1) := by
  have skipped := skip_continuation continuation.reverse front.reverse leads
    (fun byte member => continues byte (mem_reverse.mp member)) 1
  rw [length_reverse, add_comm] at skipped
  simpa using skipped

theorem cache_nothing (front : List UInt8) (c : Char) (state : U8State) :
    cachePartials (front ++ encode8 c) state = ((front ++ encode8 c).length, state) := by
  obtain ⟨first, continuation, sequence⟩ := encode8_sequence c
  rw [sequence.isBytes, cachePartials, skip_to_sequence sequence.leads sequence.continues]
  simp [sequence.length]

theorem code_begins {begun : List UInt8} (isCode : encode8 c = first :: begun ++ tail) :
    Sequence (encode8 c) first (begun ++ tail) := by
  obtain ⟨lead, continuation, sequence⟩ := encode8_sequence c
  have isFirst := sequence.isBytes.symm.trans isCode
  rw [cons_append, cons.injEq] at isFirst
  rwa [isFirst.1, isFirst.2] at sequence

theorem cache_piece (front : List UInt8) (isCode : encode8 c = piece ++ tail) (nonempty : piece ≠ []) (incomplete : tail ≠ [])
    (room : state.partials.length = 4) :
    (cachePartials (front ++ piece) state).1 = front.length ∧ Keeps (cachePartials (front ++ piece) state).2 piece := by
  cases piece with
  | nil => exact absurd rfl nonempty
  | cons lead begun =>
    have sequence := code_begins isCode
    have length := sequence.length
    have bound := sequence.bound
    rw [length_append] at length bound
    have missing : 0 < tail.length := length_pos_iff.mpr incomplete
    rw [cachePartials, if_neg (by simp), skip_to_sequence sequence.leads
      (fun byte member => sequence.continues byte (mem_append_left _ member))]
    have size : (front ++ lead :: begun).length - (begun.length + 1) = front.length := by simp
    simp only [size, drop_left]
    rw [if_pos (by omega)]
    refine ⟨rfl, ?_, ?_, rfl, ?_⟩
    · simp only [movePartials, take_zero, nil_append, length_append, length_drop, length_cons]
      omega
    · exact take_left
    · simp

theorem complete_wide (done : List Char) : (done.flatMap encode16).length ≤ (done.flatMap encode8).length := by
  have shorter := flat_map_lengths encode8 encode16 1 (fun c => by simpa using (encode_lengths c).1) done
  rw [one_mul] at shorter
  exact shorter

variable (platform : Platform) (converts : Converts platform)

include converts in
theorem convert_bytes (done : List Char) (pending : Pending encode8 piece left) (capa16 : Nat)
    (capacity : (done.flatMap encode8).length ≤ capa16) (out : List WChar) (state : U8State) (keeps : Keeps state []) :
    ∃ state', convertBytes platform (done.flatMap encode8 ++ piece) capa16 out state =
      (.ok (out ++ done.flatMap encode16), state') ∧ Keeps state' piece := by
  have room := le_trans (complete_wide done) capacity
  have converted := fun state' : U8State => append_converted encode16 encode8_nonempty platform.multiByteToWideChar capa16
    done (fun nonempty => converts.wide done capa16 nonempty room) out state'
  by_cases nothing : piece = []
  · rw [nothing, append_nil]
    rcases eq_nil_or_concat done with none | ⟨before, last, isDone⟩
    · refine ⟨state, ?_, keeps⟩
      rw [none] at converted ⊢
      exact converted state
    refine ⟨state, ?_, keeps⟩
    have cached := cache_nothing (before.flatMap encode8) last state
    have whole : done.flatMap encode8 = before.flatMap encode8 ++ encode8 last := by simp [isDone]
    rw [← whole] at cached
    rw [convertBytes, cached, take_length]
    exact converted state
  · obtain ⟨next, more, tail, _, incomplete, isCode⟩ := pending.resolve_left nothing
    obtain ⟨size, kept⟩ := cache_piece (done.flatMap encode8) isCode nothing incomplete keeps.room
    refine ⟨_, ?_, kept⟩
    simpa [convertBytes, size] using converted _

theorem complete_begin (isCode : encode8 c = piece ++ tail) (nonempty : piece ≠ []) :
    codePointLength (piece.headD 0) - piece.length = tail.length := by
  cases piece with
  | nil => exact absurd rfl nonempty
  | cons lead begun =>
    simp [(code_begins isCode).length]

theorem complement_keeps (bytes : List UInt8) (keeps : Keeps state piece) (begun : piece ≠ [])
    (fits : piece.length + bytes.length ≤ 4) : Keeps (complement state bytes) (piece ++ bytes) := by
  have room := keeps.room
  have wantCount := keeps.wantCount
  rw [if_neg begun] at wantCount
  refine ⟨?_, ?_, ?_, ?_⟩
  · rw [complement, movePartials, keeps.haveCount, keeps.partials]
    simp only [length_append, length_drop]
    omega
  · rw [complement, movePartials, keeps.haveCount, keeps.partials]
    exact take_left
  · simp [complement, keeps.haveCount]
  · have head : (piece ++ bytes).headD 0 = piece.headD 0 := by
      cases piece with
      | nil => exact absurd rfl begun
      | cons _ _ => rfl
    rw [if_neg (fun none => begun (append_eq_nil_iff.mp none).1), head, complement, wantCount, length_append, Nat.sub_sub]

theorem encode8_length (c : Char) : (encode8 c).length ≤ 4 := by
  obtain ⟨_, continuation, sequence⟩ := encode8_sequence c
  have bound := sequence.bound
  rw [sequence.isBytes, length_cons]
  omega

theorem u8u16_pending (keeps : Keeps state piece) (begun : piece ≠ []) (nonempty : chunk ≠ [])
    (short : chunk.length + piece.length ≤ intMax) :
    u8u16 platform chunk state = let copied := complement state (chunk.take (min state.wantCount chunk.length))
      if copied.wantCount ≠ 0 then (.ok [], copied)
      else
        match platform.multiByteToWideChar (copied.partials.take copied.haveCount) (chunk.length + piece.length) with
        | none => (.error .unexpected, copied)
        | some converted =>
          convertBytes platform (chunk.drop (min state.wantCount chunk.length))
            (chunk.length + piece.length - converted.length) converted { copied with haveCount := 0 } := by
  have haveCount := keeps.haveCount
  have positive := length_pos_iff.mpr begun
  rewrite [u8u16, if_neg (by simpa using nonempty), if_neg (by omega), if_pos (by omega), haveCount]
  rfl

theorem u8u16_fresh (keeps : Keeps state []) (short : chunk.length ≤ intMax) :
    u8u16 platform chunk state = convertBytes platform chunk chunk.length [] state := by
  have haveCount : state.haveCount = 0 := keeps.haveCount
  by_cases none : chunk = []
  · rw [none]
    rfl
  · rw [u8u16, if_neg (by simpa using none), haveCount, if_neg (by omega), if_neg (by simp), add_zero]

theorem u8u16_waits (isCode : encode8 c = piece ++ (chunk ++ tail)) (begun : piece ≠ [])
    (incomplete : tail ≠ []) (keeps : Keeps state piece) (short : chunk.length + 3 ≤ intMax) :
    ∃ state', u8u16 platform chunk state = (.ok [], state') ∧ Keeps state' (piece ++ chunk) := by
  have size := encode8_length c
  have missing := length_pos_iff.mpr incomplete
  have wantCount := keeps.wantCount
  rw [if_neg begun, complete_begin isCode begun, length_append] at wantCount
  rw [isCode, length_append, length_append] at size
  by_cases none : chunk = []
  · simpa [none] using ⟨state, rfl, keeps⟩
  have copied := complement_keeps chunk keeps begun (by omega)
  refine ⟨complement state chunk, ?_, copied⟩
  rw [u8u16_pending platform keeps begun none (by omega)]
  have all : min state.wantCount chunk.length = chunk.length := by omega
  simp only [all, take_length]
  rw [if_pos]
  rw [complement]
  simp only
  omega

include converts in
theorem u8u16_completes (isCode : encode8 c = piece ++ tail) (begun : piece ≠ []) (incomplete : tail ≠ [])
    {piece' : List UInt8} (pending : Pending encode8 piece' left) (keeps : Keeps state piece)
    (short : (tail ++ (done.flatMap encode8 ++ piece')).length + 3 ≤ intMax) :
    ∃ state', u8u16 platform (tail ++ (done.flatMap encode8 ++ piece')) state =
        (.ok ((c :: done).flatMap encode16), state') ∧ Keeps state' piece' := by
  have size := encode8_length c
  have missing := length_pos_iff.mpr incomplete
  have wantCount := keeps.wantCount
  rw [if_neg begun, complete_begin isCode begun] at wantCount
  rw [isCode, length_append] at size
  have copied := complement_keeps tail keeps begun (by omega)
  have room := (encode_lengths c).1
  have whole : [c].flatMap encode8 = piece ++ tail := by rw [flatMap_singleton, isCode]
  have converted := converts.wide [c] ((tail ++ (done.flatMap encode8 ++ piece')).length + piece.length) (cons_ne_nil _ _) (by
    rw [flatMap_singleton]
    rw [isCode] at room
    simp only [length_append] at room ⊢
    omega)
  rw [whole, flatMap_singleton] at converted
  obtain ⟨state', rest, kept⟩ := convert_bytes platform converts done pending
    ((tail ++ (done.flatMap encode8 ++ piece')).length + piece.length - (encode16 c).length) (by
      rw [isCode] at room
      simp only [length_append] at room ⊢
      omega) (encode16 c) { partials := (complement state tail).partials } ⟨copied.room, rfl, rfl, rfl⟩
  refine ⟨state', ?_, kept⟩
  rw [u8u16_pending platform keeps begun (fun none => incomplete (append_eq_nil_iff.mp none).1) (by omega)]
  have all : min state.wantCount (tail ++ (done.flatMap encode8 ++ piece')).length = tail.length := by
    rw [length_append]
    omega
  have enough : (complement state tail).wantCount = 0 := by simp [complement, wantCount]
  simp only [all, take_left, drop_left, enough, copied.haveCount, copied.partials, converted]
  rw [if_neg (by decide), rest, flatMap_cons]

include converts in
theorem u8u16_streams : Streams encode8 encode16 (u8u16Chunk platform) Keeps (fun chunk => chunk.length + 3 ≤ intMax) := by
  intro state piece chunk done left piece' keeps pending short isFront pending'
  rcases pending_step encode8 pending isFront pending' with
    ⟨nothing, isChunk⟩ | ⟨begun, none, isPiece, c, tail, incomplete, isCode⟩ |
      ⟨begun, c, done', tail, isDone, incomplete, isCode, isChunk⟩
  · rw [nothing] at keeps
    obtain ⟨state', converted, kept⟩ := convert_bytes platform converts done pending' chunk.length
      (by simp [isChunk]) [] state keeps
    rw [← isChunk] at converted
    refine ⟨state', ?_, kept⟩
    rw [u8u16Chunk, u8u16_fresh platform keeps (by omega), converted]
    rfl
  · obtain ⟨state', waits, kept⟩ := u8u16_waits platform isCode begun incomplete keeps short
    refine ⟨state', ?_, by rw [isPiece]; exact kept⟩
    rw [u8u16Chunk, waits, none]
    rfl
  · rw [isChunk] at short ⊢
    obtain ⟨state', completes, kept⟩ := u8u16_completes platform converts isCode begun incomplete pending' keeps short
    refine ⟨state', ?_, kept⟩
    rw [u8u16Chunk, completes, isDone]
    rfl

end

end

variable {piece : List WChar}

section

def Waits (state : U16State) (piece : List WChar) : Prop :=
  (piece = [] ∧ state = {}) ∨ ∃ high, piece = [high] ∧ isHigh high = true ∧ state = { first := high }

variable (platform : Platform) (converts : Converts platform)

theorem complete_narrow : (done.flatMap encode8).length ≤ 3 * (done.flatMap encode16).length :=
  flat_map_lengths encode16 encode8 3 (fun c => (encode_lengths c).2) done

theorem last_not_high {before : List WChar} {c : Char} : isHigh ((before ++ encode16 c).getLastD 0) = false := by
  rcases encode16_cases c with ⟨unit, isCode, plain⟩ | ⟨high, low, isCode, _, plain⟩
  · simpa [isCode] using plain
  · simpa [isCode] using plain

theorem pending_high {c : Char} {tail : List WChar} (isCode : encode16 c = piece ++ tail) (begun : piece ≠ [])
    (incomplete : tail ≠ []) : ∃ high low, piece = [high] ∧ tail = [low] ∧ isHigh high = true := by
  have left := length_pos_iff.mpr begun
  have right := length_pos_iff.mpr incomplete
  rcases encode16_cases c with ⟨unit, isUnit, _⟩ | ⟨high, low, isPair, isFirst, _⟩
  · have length := congrArg length (isUnit.symm.trans isCode)
    rw [length_append, length_singleton] at length
    omega
  have pair := isPair.symm.trans isCode
  have length := congrArg length pair
  obtain ⟨other, isPiece⟩ := length_eq_one_iff.mp (show piece.length = 1 by simp at length; omega)
  rw [isPiece, singleton_append, cons.injEq] at pair
  exact ⟨high, low, by rw [isPiece, pair.1], pair.2.symm, isFirst⟩

include converts in
theorem convert_units (done : List Char) (pending : Pending encode16 piece left) (capa8 : Nat)
    (capacity : 3 * (done.flatMap encode16).length ≤ capa8) (out : List UInt8) :
    ∃ state', convertUnits platform (done.flatMap encode16 ++ piece) capa8 out {} =
      (.ok (out ++ done.flatMap encode8), state') ∧ Waits state' piece := by
  have room := le_trans complete_narrow capacity
  have converted := fun state' : U16State => append_converted encode8 encode16_nonempty platform.wideCharToMultiByte capa8
    done (fun nonempty => converts.narrow done capa8 nonempty room) out state'
  by_cases nothing : piece = []
  · rw [nothing, append_nil]
    refine ⟨{}, ?_, .inl ⟨rfl, rfl⟩⟩
    have plain : isHigh ((done.flatMap encode16).getLastD 0) = false := by
      rcases eq_nil_or_concat done with none | ⟨before, last, isDone⟩
      · rw [none]
        rfl
      · simpa [isDone] using last_not_high
    rw [isHigh] at plain
    rw [convertUnits]
    simp only [plain, Bool.and_false]
    exact converted {}
  · obtain ⟨next, more, tail, _, incomplete, isCode⟩ := pending.resolve_left nothing
    obtain ⟨high, low, isPiece, _, isFirst⟩ := pending_high isCode nothing incomplete
    refine ⟨{ first := high }, ?_, .inr ⟨high, isPiece, isFirst, rfl⟩⟩
    have nonempty : (done.flatMap encode16 ++ [high]).isEmpty = false := by simp
    rw [isHigh] at isFirst
    rw [isPiece, convertUnits]
    simp only [getLastD_concat, isFirst, dropLast_concat, nonempty]
    exact converted { first := high }

theorem u16u8_fresh {chunk : List WChar} (short : (chunk.length + 1) * 3 ≤ intMax) :
    u16u8 platform chunk {} = convertUnits platform chunk (chunk.length * 3) [] {} := by
  cases chunk with
  | nil => rfl
  | cons unit rest =>
    rw [u16u8]
    simp only [ne_eq, not_true_eq_false, if_false, add_zero]
    rw [if_neg (by omega)]

include converts in
theorem u16u8_completes {c : Char} {high low : WChar} (isCode : encode16 c = [high, low]) (isFirst : isHigh high = true)
    (pending : Pending encode16 piece left) (short : ((low :: (done.flatMap encode16 ++ piece)).length + 1) * 3 ≤ intMax) :
    ∃ state', u16u8 platform (low :: (done.flatMap encode16 ++ piece)) { first := high } =
        (.ok ((c :: done).flatMap encode8), state') ∧ Waits state' piece := by
  have size := (encode_lengths c).2
  rw [isCode] at size
  have converted := converts.narrow [c] (((low :: (done.flatMap encode16 ++ piece)).length + 1) * 3) (cons_ne_nil _ _) (by
    rw [flatMap_singleton]
    simp only [length_cons, length_nil] at size ⊢
    omega)
  rw [flatMap_singleton, flatMap_singleton, isCode] at converted
  obtain ⟨state', rest, waits⟩ := convert_units platform converts done pending
    (((low :: (done.flatMap encode16 ++ piece)).length + 1) * 3 - (encode8 c).length) (by
      simp only [length_cons, length_nil, length_append] at size ⊢
      omega) (encode8 c)
  refine ⟨state', ?_, waits⟩
  rw [u16u8]
  simp only [ne_eq, high_nonzero isFirst, not_false_eq_true, if_true, converted]
  rw [if_neg (by omega), rest, flatMap_cons]

include converts in
theorem u16u8_streams : Streams encode16 encode8 (u16u8Chunk platform) Waits
    (fun chunk => (chunk.length + 1) * 3 ≤ intMax) := by
  intro state piece chunk done left piece' waits pending short isFront pending'
  rcases pending_step encode16 pending isFront pending' with
    ⟨nothing, isChunk⟩ | ⟨begun, none, isPiece, c, tail, incomplete, isCode⟩ |
      ⟨begun, c, done', tail, isDone, incomplete, isCode, isChunk⟩
  · rcases waits with ⟨_, isState⟩ | ⟨high, isPiece, _⟩
    · obtain ⟨state', converted, waits'⟩ := convert_units platform converts done pending' (chunk.length * 3)
        (by rw [isChunk, length_append]; omega) []
      rw [← isChunk] at converted
      refine ⟨state', ?_, waits'⟩
      rw [u16u8Chunk, isState, u16u8_fresh platform short, converted]
      rfl
    · rw [nothing] at isPiece
      cases isPiece
  · obtain ⟨high, low, _, isTail, _⟩ := pending_high isCode begun
      (fun nothing => incomplete (append_eq_nil_iff.mp nothing).2)
    have missing := length_pos_iff.mpr incomplete
    have length := congrArg length isTail
    rw [length_append, length_singleton] at length
    have empty : chunk = [] := length_eq_zero_iff.mp (by omega)
    rw [empty, append_nil] at isPiece
    refine ⟨state, ?_, by rw [isPiece]; exact waits⟩
    rw [empty, none]
    rfl
  · obtain ⟨high, low, isPiece, isTail, isFirst⟩ := pending_high isCode begun incomplete
    rw [isPiece, isTail] at isCode
    rcases waits with ⟨nothing, _⟩ | ⟨kept, isKept, _, isState⟩
    · exact absurd nothing begun
    rw [isPiece, cons.injEq] at isKept
    rw [isTail] at isChunk
    rw [isChunk] at short ⊢
    obtain ⟨state', completes, waits'⟩ := u16u8_completes platform converts isCode isFirst pending' short
    refine ⟨state', ?_, waits'⟩
    rw [u16u8Chunk, isState, ← isKept.1, singleton_append, completes, isDone]
    rfl

end

theorem chunks_convert (platform : Platform) (converts : Converts platform) (text : List Char) :
    (∀ chunks : List (List UInt8), chunks.flatten = text.flatMap encode8 →
      (∀ chunk ∈ chunks, chunk.length + 3 ≤ intMax) →
      ∃ state, runChunks (u8u16Chunk platform) chunks {} = some (text.flatMap encode16, state) ∧
        state.haveCount = 0 ∧ state.wantCount = 0) ∧
    ∀ chunks : List (List WChar), chunks.flatten = text.flatMap encode16 →
      (∀ chunk ∈ chunks, (chunk.length + 1) * 3 ≤ intMax) →
      runChunks (u16u8Chunk platform) chunks {} = some (text.flatMap encode8, {}) := by
  constructor
  · intro chunks whole short
    have begin : Keeps {} [] := ⟨rfl, rfl, rfl, rfl⟩
    obtain ⟨state, ran, keeps⟩ := streams_run encode8 encode16 encode8_nonempty (u8u16_streams platform converts) short {}
      [] text begin (.inl rfl) whole
    exact ⟨state, ran, keeps.haveCount, keeps.wantCount⟩
  · intro chunks whole short
    obtain ⟨state, ran, waits⟩ := streams_run encode16 encode8 encode16_nonempty (u16u8_streams platform converts) short {}
      [] text (.inl ⟨rfl, rfl⟩) (.inl rfl) whole
    rcases waits with ⟨_, isState⟩ | ⟨_, nothing, _⟩
    · rw [ran, isState]
    · cases nothing

theorem exact_converts : Converts exactPlatform := by
  refine ⟨fun text capacity _ room => ?_, fun text capacity _ room => ?_⟩
  · simp only [exactPlatform, decode_encode8]
    rw [if_pos room]
  · have decoded : (Unicode.codePoints (text.flatMap encode16)).map (fun point => Char.ofNat point.1) = text := by
      rw [code_points_encode16, map_map]
      exact (map_congr_left (fun c _ => Char.ofNat_toNat c)).trans (map_id' text)
    simp only [exactPlatform, decoded]
    rw [if_pos room]

theorem chunks_convert_euro :
    (∃ state, runChunks (u8u16Chunk exactPlatform) [[0xE2], [0x82], [], [0xAC, 0xF0, 0x9F], [0x98, 0x80]] {} =
        some ([0x20AC, 0xD83D, 0xDE00], state) ∧ state.haveCount = 0 ∧ state.wantCount = 0) ∧
      runChunks (u16u8Chunk exactPlatform) [[0x20AC, 0xD83D], [], [0xDE00]] {} =
        some ([0xE2, 0x82, 0xAC, 0xF0, 0x9F, 0x98, 0x80], {}) := by
  obtain ⟨wide, narrow⟩ := chunks_convert exactPlatform exact_converts [Char.ofNat 0x20AC, Char.ofNat 0x1F600]
  exact ⟨wide _ (by decide) (by decide), narrow _ (by decide) (by decide)⟩

theorem u8u16_aborts {platform : Platform} (long : intMax < chunk.length) :
    runChunks (u8u16Chunk platform) [chunk] {} = none := by
  have some : chunk ≠ [] := by
    intro none
    rw [none] at long
    exact absurd long (not_lt_zero _)
  have result : u8u16 platform chunk {} = (.error .abort, {}) := by
    rw [u8u16, if_neg (by simpa using some), if_pos (lt_of_lt_of_le long (le_add_right _ _))]
  rw [runChunks, u8u16Chunk, result]
  rfl

theorem flat_map_replicate (count : Nat) : (replicate count 'a').flatMap encode8 = replicate count 0x61 := by
  induction count with
  | zero => rfl
  | succ count ih =>
    rw [replicate_succ, flatMap_cons, ih]
    rfl

theorem long_chunk_aborts : [replicate (intMax + 1) 0x61].flatten = (replicate (intMax + 1) 'a').flatMap encode8 ∧
      runChunks (u8u16Chunk exactPlatform) [replicate (intMax + 1) 0x61] {} = none := by
  constructor
  · simp [flat_map_replicate]
  · exact u8u16_aborts (by simp)

end Cogterm.Convert
