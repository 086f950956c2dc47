import Cogterm.Row.Invariant

namespace Cogterm.Buffer

open Library Glyphs List Option Prod Nat

variable {Attr : Type}

-- The column that was found last is where the next search begins.
structure CharToColumnMapper where
  charOffsets : List Nat
  charsLength : Int
  currentColumn : Nat
  columnCount : Nat
deriving DecidableEq, Repr

namespace CharToColumnMapper

section

variable (charOffsets : List Nat) (targetOffset : Nat)

-- A search that leaves the offsets has no result.
def searchForward : Nat → Nat → Option Nat
  | 0, _ => none
  | fuel + 1, col =>
    charOffsets[col]?.bind fun currentOffset =>
      if currentOffset &&& charOffsetsMask < targetOffset then searchForward fuel (col + 1) else some col

def searchBackward : Nat → Option Nat
  | 0 => charOffsets[0]?.bind fun currentOffset => if targetOffset < currentOffset then none else some 0
  | col + 1 =>
    charOffsets[col + 1]?.bind fun currentOffset => if targetOffset < currentOffset then searchBackward col else some (col + 1)

def searchTrailer : Nat → Nat → Option Nat
  | 0, _ => none
  | fuel + 1, col =>
    charOffsets[col + 1]?.bind fun nextOffset =>
      if nextOffset &&& charOffsetsTrailer != 0 then searchTrailer fuel (col + 1) else some col

end

def getLeadingColumnAt (mapper : CharToColumnMapper) (offset : Int) : Option (Nat × CharToColumnMapper) :=
  let targetOffset := (clamp offset 0 mapper.charsLength).toNat
  (searchForward mapper.charOffsets targetOffset mapper.charOffsets.length mapper.currentColumn).bind fun col =>
    (searchBackward mapper.charOffsets targetOffset col).map fun col => (col, { mapper with currentColumn := col })

-- The leading column is what is remembered here too.
def getTrailingColumnAt (mapper : CharToColumnMapper) (offset : Int) : Option (Nat × CharToColumnMapper) :=
  (mapper.getLeadingColumnAt offset).bind fun leading =>
    if leading.1 < leading.2.columnCount then
      (searchTrailer leading.2.charOffsets leading.2.charOffsets.length leading.1).map fun col => (col, leading.2)
    else some leading

inductive Query where
  | leading (offset : Int)
  | trailing (offset : Int)
deriving DecidableEq, Repr

def ask (mapper : CharToColumnMapper) : Query → Option (Nat × CharToColumnMapper)
  | .leading offset => mapper.getLeadingColumnAt offset
  | .trailing offset => mapper.getTrailingColumnAt offset

def askAll (mapper : CharToColumnMapper) : List Query → Option CharToColumnMapper
  | [] => some mapper
  | query :: rest => (mapper.ask query).bind fun answer => answer.2.askAll rest

end CharToColumnMapper

def Row.createCharToColumnMapper (row : Row Attr) (offset : Int) : CharToColumnMapper :=
  ⟨row.charOffsets, row.charSize, (clamp offset 0 row.columnCount).toNat, row.columnCount⟩

namespace CharToColumnMapper

section

variable {charOffsets : List Nat} (targetOffset : Nat)

theorem read_entry (inside : col < charOffsets.length) : charOffsets[col]? = some (charOffsets.getD col 0) := by
  simp [getElem?_eq_getElem inside]

theorem search_forward_finds (length : charOffsets.length = last + 1)
    (reached : targetOffset ≤ charOffsets.getD last 0 &&& charOffsetsMask) (fuel col : Nat) (inside : col ≤ last)
    (enough : last < col + fuel) : ∃ found, searchForward charOffsets targetOffset fuel col = some found ∧ found ≤ last ∧
      targetOffset ≤ charOffsets.getD found 0 &&& charOffsetsMask := by
  induction fuel generalizing col with
  | zero => omega
  | succ fuel ih =>
    rw [searchForward, read_entry (by omega), bind_some]
    by_cases before : charOffsets.getD col 0 &&& charOffsetsMask < targetOffset
    · rw [if_pos before]
      have notLast : col ≠ last := by
        intro same
        rw [same] at before
        omega
      exact ih (col + 1) (by omega) (by omega)
    · rw [if_neg before]
      exact ⟨col, rfl, inside, Nat.le_of_not_lt before⟩

theorem search_backward_finds (first : charOffsets.getD 0 0 ≤ targetOffset) (col : Nat) (inside : col < charOffsets.length) :
    ∃ found, searchBackward charOffsets targetOffset col = some found ∧ found ≤ col ∧
    charOffsets.getD found 0 ≤ targetOffset ∧
      ∀ other, found < other → other ≤ col → targetOffset < charOffsets.getD other 0 := by
  induction col with
  | zero =>
    refine ⟨0, ?_, le_refl 0, first, ?_⟩
    · rw [searchBackward, read_entry inside, bind_some, if_neg (not_lt.mpr first)]
    · intro other behind before
      omega
  | succ col ih =>
    rw [searchBackward, read_entry inside, bind_some]
    by_cases behind : targetOffset < charOffsets.getD (col + 1) 0
    · obtain ⟨found, isFound, before, reached, others⟩ := ih (lt_of_succ_lt inside)
      refine ⟨found, by rw [if_pos behind, isFound], le_succ_of_le before, reached, ?_⟩
      intro other after upTo
      by_cases same : other = col + 1
      · rw [same]
        exact behind
      · exact others other after (by omega)
    · refine ⟨col + 1, by rw [if_neg behind], Nat.le_refl _, Nat.le_of_not_lt behind, ?_⟩
      intro other after upTo
      omega

omit targetOffset in
theorem search_trailer_ends (length : charOffsets.length = last + 1)
    (plain : charOffsets.getD last 0 &&& charOffsetsTrailer = 0) (fuel col : Nat) (inside : col < last)
    (enough : last ≤ col + fuel) : ∃ found, searchTrailer charOffsets fuel col = some found := by
  induction fuel generalizing col with
  | zero => omega
  | succ fuel ih =>
    rw [searchTrailer, read_entry (by omega), bind_some]
    by_cases trailer : (charOffsets.getD (col + 1) 0 &&& charOffsetsTrailer != 0) = true
    · rw [if_pos trailer]
      have notLast : col + 1 ≠ last := by
        intro same
        rw [same, plain] at trailer
        cases trailer
      exact ih (col + 1) (by omega) (by omega)
    · rw [if_neg trailer]
      exact ⟨col, rfl⟩

end

section

variable (row : Row Attr) {glyphs : Glyphs} (models : Represents row glyphs)

structure Maps (row : Row Attr) (mapper : CharToColumnMapper) : Prop where
  charOffsets : mapper.charOffsets = row.charOffsets
  charsLength : mapper.charsLength = row.charSize
  columnCount : mapper.columnCount = row.columnCount
  inside : mapper.currentColumn ≤ row.columnCount

theorem created_maps : Maps row (row.createCharToColumnMapper offset) := by
  refine ⟨rfl, rfl, rfl, ?_⟩
  exact clamped_le row offset

include models

theorem represented_length : row.charOffsets.length = row.columnCount + 1 := by
  rw [models.offsets, encode_length, models.columns]

theorem represented_last :
    row.charOffsets.getD row.columnCount 0 = row.charSize ∧ row.charSize &&& charOffsetsMask = row.charSize ∧
      row.charSize &&& charOffsetsTrailer = 0 := by
  have fits := models.fits
  rw [← represented_char_size models, charOffsetsMask] at fits
  exact ⟨rfl, mask_offset (by rw [charOffsetsTrailer]; omega)⟩

theorem leading_searches (maps : Maps row mapper) (inText : targetOffset ≤ row.charSize) :
    ∃ far found, searchForward mapper.charOffsets targetOffset mapper.charOffsets.length mapper.currentColumn = some far ∧
      searchBackward mapper.charOffsets targetOffset far = some found ∧ found ≤ far ∧ far ≤ row.columnCount ∧
      targetOffset ≤ row.uncheckedCharOffset far ∧ row.charOffsets.getD found 0 ≤ targetOffset ∧
      ∀ other, found < other → other ≤ far → targetOffset < row.charOffsets.getD other 0 := by
  have length := represented_length row models
  obtain ⟨isLast, masked, _⟩ := represented_last row models
  have first : row.charOffsets.getD 0 0 ≤ targetOffset := by
    have start := (boundary_entry row glyphs models [] glyphs rfl).2
    rw [columns_nil] at start
    rw [start]
    exact zero_le _
  obtain ⟨far, isFar, farInside, reached⟩ := search_forward_finds targetOffset length
    (by rw [isLast, masked]; exact inText) row.charOffsets.length mapper.currentColumn maps.inside (by omega)
  obtain ⟨found, isFound, before, atMost, others⟩ := search_backward_finds targetOffset first far (by omega)
  rw [maps.charOffsets]
  exact ⟨far, found, isFar, isFound, before, farInside, reached, atMost, others⟩

omit models in
theorem clamped_target : (clamp offset 0 row.charSize).toNat ≤ row.charSize := by
  rw [clamp]
  split
  · omega
  · split <;> omega

theorem leading_answers (maps : Maps row mapper) (offset : Int) :
    ∃ found mapper', mapper.getLeadingColumnAt offset = some (found, mapper') ∧ found ≤ row.columnCount ∧
    Maps row mapper' := by
  obtain ⟨far, found, isFar, isFound, before, inside, _⟩ := leading_searches row models maps (clamped_target row)
  refine ⟨found, { mapper with currentColumn := found }, ?_, by omega, ?_⟩
  · rw [getLeadingColumnAt, maps.charsLength, isFar, bind_some, isFound]
    rfl
  · exact { maps with inside := le_trans before inside }

theorem trailing_answers (maps : Maps row mapper) :
    ∃ found mapper', mapper.getTrailingColumnAt offset = some (found, mapper') ∧ Maps row mapper' := by
  obtain ⟨found, mapper', isLeading, _, maps'⟩ := leading_answers row models maps offset
  rw [getTrailingColumnAt, isLeading, bind_some]
  by_cases inside : found < mapper'.columnCount
  · have plain := represented_last row models
    have length := represented_length row models
    rw [maps'.columnCount] at inside
    obtain ⟨last, isLast⟩ := search_trailer_ends length (by rw [plain.1, plain.2.2])
      row.charOffsets.length found inside (by omega)
    refine ⟨last, mapper', ?_, maps'⟩
    rw [if_pos (by rw [maps'.columnCount]; exact inside), maps'.charOffsets, isLast]
    rfl
  · exact ⟨found, mapper', by rw [if_neg inside], maps'⟩

theorem ask_all_maps (queries : List Query) (mapper : CharToColumnMapper) (maps : Maps row mapper) :
    ∃ mapper', mapper.askAll queries = some mapper' ∧ Maps row mapper' := by
  induction queries generalizing mapper with
  | nil => exact ⟨mapper, rfl, maps⟩
  | cons query rest ih =>
    have answers : ∃ found mapper', mapper.ask query = some (found, mapper') ∧ Maps row mapper' := by
      cases query with
      | leading offset =>
        obtain ⟨found, mapper', isAnswer, _, maps'⟩ := leading_answers row models maps offset
        exact ⟨found, mapper', isAnswer, maps'⟩
      | trailing offset => exact trailing_answers row models maps
    obtain ⟨found, mapper', isAnswer, maps'⟩ := answers
    simpa [askAll, isAnswer] using ih mapper' maps'

end

end CharToColumnMapper

section

def Spans (glyphs : Glyphs) (offset first last : Nat) : Prop :=
  ∃ before glyph after, glyphs = before ++ glyph :: after ∧ (text before).length ≤ offset ∧
    offset < (text before).length + glyph.text.length ∧ first = columns before ∧ last = columns before + glyph.width - 1

theorem spans_exists (offset : Nat) (inside : offset < (text glyphs).length) :
    ∃ first last, Spans glyphs offset first last := by
  induction glyphs generalizing offset with
  | nil => exact absurd inside (not_lt_zero _)
  | cons glyph rest ih =>
    by_cases here : offset < glyph.text.length
    · exact ⟨_, _, [], glyph, rest, rfl, zero_le _, by simpa using here, rfl, rfl⟩
    rw [text_cons, length_append] at inside
    obtain ⟨_, _, before, other, after, split, low, high, _, _⟩ := ih (offset - glyph.text.length) (by omega)
    refine ⟨_, _, glyph :: before, other, after, by rw [split]; rfl, ?_, ?_, rfl, rfl⟩
    · rw [text_cons, length_append]
      omega
    · rw [text_cons, length_append]
      omega

theorem longer_takes_next {before after left right : Glyphs} (same : before ++ glyph :: after = left ++ right)
    (less : columns before < columns left) : (text before).length + glyph.text.length ≤ (text left).length := by
  rcases append_eq_append_iff.mp same with ⟨part, isLeft, isRest⟩ | ⟨part, isBefore, _⟩
  · cases part with
    | nil =>
      rw [isLeft, append_nil] at less
      exact absurd less (lt_irrefl _)
    | cons first others =>
      obtain ⟨isFirst, _⟩ := List.cons.inj isRest
      simp [isLeft, isFirst]
  · rw [isBefore, columns_append] at less
    omega

theorem spans_unique (spans : Spans glyphs offset first last)
    (spans' : Spans glyphs offset first' last') : first' = first ∧ last' = last := by
  obtain ⟨before, glyph, after, split, low, high, isFirst, isLast⟩ := spans
  obtain ⟨before', glyph', after', split', low', high', isFirst', isLast'⟩ := spans'
  have same := split.symm.trans split'
  have notBefore : ¬ columns before < columns before' := by
    intro less
    have longer := longer_takes_next same less
    omega
  have notBehind : ¬ columns before' < columns before := by
    intro less
    have longer := longer_takes_next same.symm less
    omega
  have sameColumns : columns before = columns before' := by omega
  have sameGlyph : glyph = glyph' := by
    rcases append_eq_append_iff.mp same with ⟨part, isLeft, isRest⟩ | ⟨part, isLeft, isRest⟩
    · cases part with
      | nil => exact (List.cons.inj isRest).1
      | cons other others =>
        rw [isLeft, columns_append, columns_cons] at sameColumns
        have positive := other.positive
        omega
    · cases part with
      | nil => exact (List.cons.inj isRest).1.symm
      | cons other others =>
        rw [isLeft, columns_append, columns_cons] at sameColumns
        have positive := other.positive
        omega
  rw [isFirst, isLast, isFirst', isLast', sameColumns, sameGlyph]
  exact ⟨rfl, rfl⟩

variable {row : Row Attr} {glyphs : Glyphs} (models : Represents row glyphs) {before after : Glyphs} {glyph : Glyph}
  (split : glyphs = before ++ glyph :: after)

include models split

theorem entry_before (left : col < columns before) : row.uncheckedCharOffset col < (text before).length := by
  have inside : col ≤ row.columnCount := by
    rw [← models.columns, split, columns_append]
    omega
  cases represents_entry row glyphs models col inside with
  | head front rest isSplit plain entry =>
    have shorter := text_shorter (isSplit.symm.trans split) left
    have small := models.fits
    rw [isSplit, text_append, length_append, charOffsetsMask] at small
    rw [Row.uncheckedCharOffset, entry, (mask_offset (by rw [charOffsetsTrailer]; omega)).1]
    exact shorter
  | trailer front rest wide isSplit isWide raw flagged plain entry =>
    have shorter := text_shorter (isSplit.symm.trans split) (by omega)
    rw [entry, (boundary_entry row glyphs models front (wide :: rest) isSplit).2]
    exact shorter

theorem entry_behind (inside : col ≤ row.columnCount) (right : columns before < col) :
    (text before).length + glyph.text.length ≤ row.charOffsets.getD col 0 := by
  cases represents_entry row glyphs models col inside with
  | head front rest isSplit plain entry =>
    rw [entry]
    exact longer_takes_next (split.symm.trans isSplit) right
  | trailer front rest wide isSplit isWide raw flagged plain entry =>
    have small := models.fits
    rw [split, text_append, text_cons, length_append, length_append, charOffsetsMask] at small
    rw [raw, charOffsetsTrailer]
    omega

theorem inside_trailer (isWide : glyph.width = 2) : row.uncheckedIsTrailer (columns before + 1) = true := by
  have fits := models.fits
  rw [split, text_append, length_append, charOffsetsMask] at fits
  have dropped := encode_drop_inside 0 before after glyph isWide
  rw [← split, ← models.offsets] at dropped
  exact (trailer_at row _ dropped (by rw [charOffsetsTrailer]; omega)).2

end

section

open CharToColumnMapper

variable {row : Row Attr} {glyphs : Glyphs} (models : Represents row glyphs) {mapper : CharToColumnMapper}
  (maps : Maps row mapper) {offset first last : Nat} (spans : Spans glyphs offset first last)

include models maps spans

theorem leading_is_first : ∃ mapper', mapper.getLeadingColumnAt offset = some (first, mapper') ∧ Maps row mapper' := by
  obtain ⟨before, glyph, after, split, low, high, isFirst, _⟩ := spans
  have size := represented_char_size models
  have length : offset < row.charSize := by
    rw [size, split, text_append, text_cons, length_append, length_append]
    omega
  have target : (clamp offset 0 row.charSize).toNat = offset := by
    rw [clamp]
    split
    · omega
    · split <;> omega
  obtain ⟨far, found, isFar, isFound, _, inside, reached, atMost, others⟩ :=
    leading_searches row models maps (le_of_lt length)
  -- The glyph is not behind where the first search ends, and the second one
  -- meets no other entry that is small enough.
  have notShort : ¬ far < columns before := by
    intro short
    have less := entry_before models split short
    omega
  have notBehind : ¬ columns before < found := by
    intro behind
    have more := entry_behind models split (by omega) behind
    omega
  have notBefore : ¬ found < columns before := by
    intro short
    have entry := (boundary_entry row glyphs models before (glyph :: after) split).2
    have more := others (columns before) short (by omega)
    omega
  have same : found = first := by omega
  refine ⟨{ mapper with currentColumn := first }, ?_, maps.charOffsets, maps.charsLength, maps.columnCount, ?_⟩
  · simp [getLeadingColumnAt, maps.charsLength, target, isFar, isFound, same]
  · show first ≤ row.columnCount
    omega

theorem trailing_is_last : ∃ mapper', mapper.getTrailingColumnAt offset = some (last, mapper') ∧ Maps row mapper' := by
  obtain ⟨mapper', isLeading, maps'⟩ := leading_is_first models maps spans
  obtain ⟨before, glyph, after, split, low, high, isFirst, isLast⟩ := spans
  have width := models.columns
  rw [split, columns_append, columns_cons] at width
  have positive := glyph.positive
  have narrow := glyph.narrow
  have length := represented_length row models
  have behind := (boundary_entry row glyphs models (before ++ [glyph]) after (by simp [split])).1
  rw [columns_append, columns_cons, columns_nil] at behind
  have found : searchTrailer row.charOffsets row.charOffsets.length first = some last := by
    obtain ⟨fuel, isFuel⟩ : ∃ fuel, row.charOffsets.length = fuel + 1 + 1 := ⟨row.columnCount - 1, by omega⟩
    rw [isFuel, isFirst, isLast, searchTrailer, read_entry (by omega), bind_some]
    by_cases wide : glyph.width = 2
    · have flagged := inside_trailer models split wide
      rw [wide] at behind ⊢
      rw [Row.uncheckedIsTrailer] at flagged behind
      rw [if_pos flagged, searchTrailer, read_entry (by omega), bind_some, behind]
      rfl
    · have single : glyph.width = 1 := by omega
      rw [single] at behind ⊢
      rw [Row.uncheckedIsTrailer] at behind
      rw [behind]
      rfl
  refine ⟨mapper', ?_, maps'⟩
  rw [getTrailingColumnAt, isLeading, bind_some, if_pos (by rw [maps'.columnCount]; omega), maps'.charOffsets, found]
  rfl

end

-- Whatever has been asked before, and wherever the search begins.
theorem mapper_finds_glyph (row : Row Attr) (glyphs : Glyphs) (represents : Represents row glyphs) (guess : Int)
    (history : List CharToColumnMapper.Query) (offset : Nat) (inside : offset < (text glyphs).length) :
    ∃ mapper first last, (row.createCharToColumnMapper guess).askAll history = some mapper ∧
    Spans glyphs offset first last ∧
      (∀ first' last', Spans glyphs offset first' last' → first' = first ∧ last' = last) ∧
      (mapper.getLeadingColumnAt offset).map fst = some first ∧ (mapper.getTrailingColumnAt offset).map fst = some last := by
  obtain ⟨mapper, asked, maps⟩ := CharToColumnMapper.ask_all_maps row represents history _
    (CharToColumnMapper.created_maps row)
  obtain ⟨first, last, spans⟩ := spans_exists offset inside
  obtain ⟨_, isLeading, _⟩ := leading_is_first represents maps spans
  obtain ⟨_, isTrailing, _⟩ := trailing_is_last represents maps spans
  refine ⟨mapper, first, last, asked, spans, ?_, ?_, ?_⟩
  · intro first' last' spans'
    exact spans_unique spans spans'
  · rw [isLeading]
    rfl
  · rw [isTrailing]
    rfl

theorem mapper_finds_cat : ∃ mapper first last,
      ((Row.mk 4 [0x61, 0x301, 0x732B, 0x62] [0, 2, 2 + charOffsetsTrailer, 3, 4]
        (⟨[⟨0, 4⟩], 4⟩ : Til.Rle Nat) .singleWidth false
        false).createCharToColumnMapper 2).askAll [.trailing 3, .leading (-1)] = some mapper ∧
      Spans [⟨[0x61, 0x301], 1, by decide, by decide, by decide⟩, ⟨[0x732B], 2, by decide, by decide, by decide⟩,
        Glyph.ofChar 0x62] 2 first last ∧
      (∀ first' last', Spans [⟨[0x61, 0x301], 1, by decide, by decide, by decide⟩,
        ⟨[0x732B], 2, by decide, by decide, by decide⟩,
        Glyph.ofChar 0x62] 2 first' last' → first' = first ∧ last' = last) ∧
      (mapper.getLeadingColumnAt (2 : Nat)).map fst = some first ∧ (mapper.getTrailingColumnAt (2 : Nat)).map fst = some last :=
  mapper_finds_glyph _ _ ⟨rfl, by decide, ⟨[], rfl⟩, by decide, by decide⟩ 2 _ 2 (by decide)

end Cogterm.Buffer
