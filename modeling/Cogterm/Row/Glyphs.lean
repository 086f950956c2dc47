import Cogterm.Row.Operations

namespace Cogterm.Buffer

open Library List Nat
open Unicode (WChar)

-- What a row is for: a sequence of glyphs side by side, each one or two columns
-- wide and with a text of its own.
structure Glyph where
  text : List WChar
  width : Nat
  written : text ≠ []
  positive : 0 < width
  narrow : width ≤ 2

namespace Glyph

def space : Glyph := ⟨[unicodeSpace], 1, by simp, by decide, by decide⟩

def ofChar (c : WChar) : Glyph := ⟨[c], 1, by simp, by decide, by decide⟩

def offsets (start : Nat) (glyph : Glyph) : List Nat := start :: List.replicate (glyph.width - 1) (start + charOffsetsTrailer)

theorem offsets_length (start : Nat) (glyph : Glyph) : (glyph.offsets start).length = glyph.width := by
  have positive := glyph.positive
  simp only [offsets, length_cons, length_replicate]
  omega

end Glyph

abbrev Glyphs := List Glyph

namespace Glyphs

def columns (glyphs : Glyphs) : Nat := (glyphs.map Glyph.width).sum
def text (glyphs : Glyphs) : List WChar := glyphs.flatMap Glyph.text
def spaces (count : Nat) : Glyphs := List.replicate count Glyph.space

def offsets : Nat → Glyphs → List Nat
  | _, [] => []
  | start, glyph :: rest => glyph.offsets start ++ offsets (start + glyph.text.length) rest

def encode (start : Nat) (glyphs : Glyphs) : List Nat := offsets start glyphs ++ [start + (text glyphs).length]

def takeColumns : Nat → Glyphs → Glyphs
  | _, [] => []
  | column, glyph :: rest => if glyph.width ≤ column then glyph :: takeColumns (column - glyph.width) rest else []

def dropColumns : Nat → Glyphs → Glyphs
  | 0, glyphs => glyphs
  | _ + 1, [] => []
  | column + 1, glyph :: rest => dropColumns (column + 1 - glyph.width) rest

@[simp]
theorem columns_nil : columns [] = 0 := rfl

@[simp]
theorem columns_cons (glyph : Glyph) (rest : Glyphs) : columns (glyph :: rest) = glyph.width + columns rest := by
  simp [columns]

@[simp]
theorem columns_append (left right : Glyphs) : columns (left ++ right) = columns left + columns right := by
  simp [columns]

@[simp]
theorem columns_spaces {count : Nat} : columns (spaces count) = count := by
  simp [columns, spaces, Glyph.space]

@[simp]
theorem text_nil : text [] = [] := rfl

@[simp]
theorem text_cons (glyph : Glyph) (rest : Glyphs) : text (glyph :: rest) = glyph.text ++ text rest := by
  simp [text]

@[simp]
theorem text_append (left right : Glyphs) : text (left ++ right) = text left ++ text right := by
  simp [text]

@[simp]
theorem text_spaces (count : Nat) : text (spaces count) = List.replicate count unicodeSpace := by
  induction count with
  | zero => rfl
  | succ count ih => rw [spaces, replicate_succ, text_cons, ← spaces, ih]; rfl

@[simp]
theorem offsets_length (start : Nat) (glyphs : Glyphs) : (offsets start glyphs).length = columns glyphs := by
  induction glyphs generalizing start with
  | nil => rfl
  | cons glyph rest ih => simp [offsets, ih, Glyph.offsets_length]

theorem encode_length : (encode start glyphs).length = columns glyphs + 1 := by
  simp [encode]

theorem offsets_append (start : Nat) (left right : Glyphs) :
    offsets start (left ++ right) = offsets start left ++ offsets (start + (text left).length) right := by
  induction left generalizing start with
  | nil => simp [offsets]
  | cons glyph rest ih =>
    simp [ih, offsets, add_assoc]

theorem encode_append (start : Nat) (left right : Glyphs) :
    encode start (left ++ right) = offsets start left ++ encode (start + (text left).length) right := by
  simp [offsets_append, encode, add_assoc]

theorem encode_head (start : Nat) (glyphs : Glyphs) : ∃ rest, encode start glyphs = start :: rest := by
  cases glyphs with
  | nil => exact ⟨[], by simp [encode, offsets]⟩
  | cons glyph others => exact ⟨_, rfl⟩

theorem take_columns_append (before after : Glyphs) (extra : Nat) :
    takeColumns (columns before + extra) (before ++ after) = before ++ takeColumns extra after := by
  induction before with
  | nil => simp
  | cons glyph rest ih =>
    simp [takeColumns, Nat.add_assoc, ih]

theorem take_columns_zero (glyphs : Glyphs) : takeColumns 0 glyphs = [] := by
  cases glyphs with
  | nil => rfl
  | cons glyph rest => rw [takeColumns, if_neg (not_le.mpr glyph.positive)]

theorem drop_columns_append (before after : Glyphs) (extra : Nat) :
    dropColumns (columns before + extra) (before ++ after) = dropColumns extra after := by
  induction before with
  | nil => simp
  | cons glyph rest ih =>
    have positive := glyph.positive
    have split : columns (glyph :: rest) + extra = (glyph.width + columns rest + extra - 1) + 1 := by
      rw [columns_cons]
      omega
    rw [split, cons_append, dropColumns, ← split, columns_cons, Nat.add_assoc, Nat.add_sub_cancel_left, ih]

theorem column_cases (glyphs : Glyphs) (column : Nat) (inside : column ≤ columns glyphs) :
    (∃ before after, glyphs = before ++ after ∧ column = columns before) ∨
      (∃ before glyph after, glyphs = before ++ glyph :: after ∧ glyph.width = 2 ∧ column = columns before + 1) := by
  induction glyphs generalizing column with
  | nil => exact Or.inl ⟨[], [], rfl, le_zero.mp inside⟩
  | cons glyph rest ih =>
    have narrow := glyph.narrow
    by_cases first : column = 0
    · exact Or.inl ⟨[], glyph :: rest, rfl, first⟩
    by_cases beyond : glyph.width ≤ column
    · rw [columns_cons] at inside
      rcases ih (column - glyph.width) (by omega) with ⟨before, after, split, isColumn⟩ |
        ⟨before, wide, after, split, isWide, isColumn⟩
      · exact Or.inl ⟨glyph :: before, after, by rw [split]; rfl, by rw [columns_cons]; omega⟩
      · exact Or.inr ⟨glyph :: before, wide, after, by rw [split]; rfl, isWide, by rw [columns_cons]; omega⟩
    · exact Or.inr ⟨[], glyph, rest, rfl, by omega, by rw [columns_nil]; omega⟩

end Glyphs

open Glyphs

section

variable {Attr : Type}

structure Represents (row : Row Attr) (glyphs : Glyphs) : Prop where
  columns : columns glyphs = row.columnCount
  offsets : row.charOffsets = encode 0 glyphs
  chars : ∃ spare, row.chars = text glyphs ++ spare
  fits : (text glyphs).length ≤ charOffsetsMask
  capacity : row.chars.length ≤ 0xFFFF

theorem mask_offset (small : offset < charOffsetsTrailer) :
    offset &&& charOffsetsMask = offset ∧ offset &&& charOffsetsTrailer = 0 := by
  constructor
  · rw [charOffsetsMask, and_two_pow_sub_one_eq_mod offset 15]
    exact mod_eq_of_lt small
  · rw [show charOffsetsTrailer = 2 ^ 15 from rfl, and_two_pow offset 15, testBit_lt_two_pow small]
    rfl

theorem mask_trailer (offset : Nat) (small : offset < charOffsetsTrailer) :
    (offset + charOffsetsTrailer) &&& charOffsetsMask = offset ∧
      (offset + charOffsetsTrailer) &&& charOffsetsTrailer = charOffsetsTrailer := by
  constructor
  · simpa [charOffsetsMask, charOffsetsTrailer, and_two_pow_sub_one_eq_mod _ 15] using mod_eq_of_lt small
  · have set : (2 ^ 15 + offset).testBit 15 = true := by
      rw [testBit_two_pow_add_eq, testBit_lt_two_pow small]
      rfl
    rw [show charOffsetsTrailer = 2 ^ 15 from rfl, and_two_pow _ 15, add_comm, set]
    rfl

theorem or_trailer (small : offset < charOffsetsTrailer) : offset ||| charOffsetsTrailer = offset + charOffsetsTrailer := by
  rw [show charOffsetsTrailer = 2 ^ 15 * 1 from rfl, Nat.or_comm, Nat.add_comm]
  exact (two_pow_add_eq_or_of_lt small 1).symm

theorem narrow_small (value : Nat) (small : value < 65536) : narrow16 value = value := by
  rw [narrow16]
  omega

theorem getD_of_drop {items : List Nat} (rest : List Nat) (dropped : items.drop column = value :: rest) :
    items.getD column 0 = value := by
  simp [← head?_drop, dropped]

theorem encode_drop_boundary (start : Nat) (before after : Glyphs) :
    (encode start (before ++ after)).drop (columns before) = encode (start + (text before).length) after := by
  simp [encode_append]

theorem encode_drop_inside (start : Nat) (before after : Glyphs) (wide : Glyph) (isWide : wide.width = 2) :
    (encode start (before ++ wide :: after)).drop (columns before + 1) = (start + (text before).length + charOffsetsTrailer) ::
        encode (start + (text before).length + wide.text.length) after := by
  rw [← drop_drop, encode_drop_boundary, encode, Glyphs.offsets, Glyph.offsets, isWide, text_cons, length_append, ← add_assoc]
  rfl

theorem encode_take_boundary {before after : Glyphs} :
    (encode start (before ++ after)).take (columns before) = Glyphs.offsets start before := by
  simp [encode_append]

theorem encode_take_inside (start : Nat) (before after : Glyphs) (wide : Glyph) :
    (encode start (before ++ wide :: after)).take (columns before + 1) =
      Glyphs.offsets start before ++ [start + (text before).length] := by
  obtain ⟨rest, head⟩ := encode_head (start + (text before).length) (wide :: after)
  rw [encode_append, ← offsets_length start before, take_length_add_append]
  rfl

theorem cut_boundary (before after : Glyphs) :
    takeColumns (columns before) (before ++ after) = before ∧ dropColumns (columns before) (before ++ after) = after := by
  have taken := take_columns_append before after 0
  have dropped := drop_columns_append before after 0
  rw [add_zero] at taken dropped
  rw [taken, dropped, take_columns_zero, append_nil]
  exact ⟨rfl, by cases after <;> rfl⟩

theorem cut_inside (before after : Glyphs) (isWide : wide.width = 2) :
    takeColumns (columns before + 1) (before ++ wide :: after) = before ∧
      dropColumns (columns before + 1) (before ++ wide :: after) = after := by
  rw [take_columns_append, drop_columns_append, takeColumns, dropColumns, isWide]
  refine ⟨append_nil before, ?_⟩
  cases after <;> rfl

section

variable (row : Row Attr) (column : Nat)

theorem offset_at (rest : List Nat) (dropped : row.charOffsets.drop column = value :: rest)
    (small : value < charOffsetsTrailer) : row.uncheckedCharOffset column = value ∧ row.uncheckedIsTrailer column = false := by
  rw [Row.uncheckedCharOffset, Row.uncheckedIsTrailer, getD_of_drop rest dropped, (mask_offset small).1, (mask_offset small).2]
  exact ⟨rfl, rfl⟩

theorem trailer_at {rest : List Nat} (dropped : row.charOffsets.drop column = (value + charOffsetsTrailer) :: rest)
    (small : value < charOffsetsTrailer) : row.uncheckedCharOffset column = value ∧ row.uncheckedIsTrailer column = true := by
  rw [Row.uncheckedCharOffset, Row.uncheckedIsTrailer, getD_of_drop rest dropped, (mask_trailer value small).1,
    (mask_trailer value small).2]
  exact ⟨rfl, rfl⟩

theorem adjust_forward_stays (plain : row.uncheckedIsTrailer column = false) : row.adjustForward column = column := by
  rw [Row.adjustForward]
  cases row.charOffsets.length with
  | zero => rfl
  | succ fuel => rw [Row.adjustForwardLoop, plain]; rfl

theorem adjust_backward_stays (plain : row.uncheckedIsTrailer column = false) : row.adjustBackward column = column := by
  cases column with
  | zero => rfl
  | succ column => rw [Row.adjustBackward, plain]; rfl

theorem adjust_forward_moves (fuel : 2 ≤ row.charOffsets.length) (trailer : row.uncheckedIsTrailer column = true)
    (plain : row.uncheckedIsTrailer (column + 1) = false) : row.adjustForward column = column + 1 := by
  obtain ⟨more, isMore⟩ := Nat.exists_eq_add_of_le' fuel
  simp [Row.adjustForward, isMore, trailer, Row.adjustForwardLoop, plain]

theorem adjust_backward_moves (trailer : row.uncheckedIsTrailer (column + 1) = true)
    (plain : row.uncheckedIsTrailer column = false) : row.adjustBackward (column + 1) = column := by
  simp [Row.adjustBackward, trailer, adjust_backward_stays row column plain]

end

end

-- What a write makes of a row, in terms of glyphs. front is the new row up to
-- the last glyph that was written and rest the text that was not. Every glyph
-- that begins in front of endDirty gives way.
structure Layout where
  front : Glyphs
  rest : List WChar
  endDirty : Nat

-- The column behind the text that was written. A glyph that did not fit takes
-- the rest of the columns.
def Layout.columnEnd (limit : Nat) (layout : Layout) : Nat := if layout.rest.isEmpty then columns layout.front else limit

namespace Glyphs

-- What is left of the row in front of a write. Half a wide glyph becomes a space.
def leadIn (column : Nat) (glyphs : Glyphs) : Glyphs :=
  takeColumns column glyphs ++ spaces (column - columns (takeColumns column glyphs))

def settle (glyphs : Glyphs) (layout : Layout) : Glyphs :=
  let after := dropColumns layout.endDirty glyphs
  layout.front ++ spaces (columns glyphs - columns after - columns layout.front) ++ after

def cluster (text : List WChar) (count width : Nat) (nonempty : text ≠ []) (some : 0 < count) (narrow : width ≤ 2) : Glyph :=
  ⟨text.take count, max 1 width, by simpa [List.take_eq_nil_iff, nonempty] using Nat.ne_of_gt some,
    Nat.lt_of_lt_of_le Nat.zero_lt_one (Nat.le_max_left 1 width), Nat.max_le.mpr ⟨by decide, narrow⟩⟩

def nextGlyph (measure : TextMeasure) (text : List WChar) (nonempty : text ≠ []) : Glyph :=
  cluster text (measure.next text).1 (measure.next text).2 nonempty (measure.next_positive text nonempty)
    (measure.next_narrow text)

def layoutClusters (measure : TextMeasure) (limit : Nat) : Nat → Glyphs → List WChar → Layout
  | 0, front, text => ⟨front, text, columns front⟩
  | fuel + 1, front, text =>
    if nonempty : text ≠ [] then
      let glyph := nextGlyph measure text nonempty
      if limit < columns front + glyph.width then ⟨front, text, limit⟩
      else layoutClusters measure limit fuel (front ++ [glyph]) (text.drop (measure.next text).1)
    else ⟨front, [], columns front⟩

def joinedGlyph (before : Glyphs) (text : List WChar) (count width : Nat) (nonempty : text ≠ []) (some : 0 < count)
    (narrow : width ≤ 2) : Glyph :=
  let joining := cluster text count width nonempty some narrow
  { joining with
    text := (before.getLast?.elim [] Glyph.text) ++ joining.text
    written := by simp [joining.written] }

-- The text of which the first character is not ASCII. previous is what the row
-- takes for the text in front of it.
def layoutUnicode (measure : TextMeasure) (limit : Nat) (front : Glyphs) (previous text : List WChar) : Layout :=
  if joins : text ≠ [] ∧ 0 < (measure.join previous text).1 then
    let joined := measure.join previous text
    let glyph := joinedGlyph front text joined.1 joined.2 joins.1 joins.2 (measure.join_narrow previous text)
    if limit < columns front.dropLast + glyph.width then ⟨front, text, limit⟩
    else layoutClusters measure limit text.length (front.dropLast ++ [glyph]) (text.drop joined.1)
  else layoutClusters measure limit text.length front text

def isAscii (c : WChar) : Bool := decide (c < 0x80)

-- Text is taken for one glyph per character as long as it is ASCII. The last
-- of these is measured again if other text follows within the limit.
def layoutText (measure : TextMeasure) (limit column : Nat) (front : Glyphs) (previous text : List WChar) : Layout :=
  let room := text.take (limit - column)
  let ascii := room.takeWhile isAscii
  if ascii.length = room.length then
    ⟨front ++ ascii.map Glyph.ofChar, text.drop ascii.length, columns front + ascii.length⟩
  else if ascii.isEmpty then layoutUnicode measure limit front previous text
  else layoutClusters measure limit text.length (front ++ ascii.dropLast.map Glyph.ofChar) (text.drop (ascii.length - 1))

-- A write into the middle of a wide glyph takes the first unit of its text for
-- the text in front of the write.
def previousText (column : Nat) (glyphs : Glyphs) : List WChar :=
  let before := takeColumns column glyphs
  if columns before = column then before.getLast?.elim [] Glyph.text
  else ((text glyphs).drop (text before).length).take 1

abbrev textLayout (measure : TextMeasure) (glyphs : Glyphs) (column limit : Nat) (chars : List WChar) : Layout :=
  layoutText measure limit column (leadIn column glyphs) (previousText column glyphs) chars

abbrev unicodeLayout (measure : TextMeasure) (glyphs : Glyphs) (column limit : Nat) (chars : List WChar) : Layout :=
  layoutUnicode measure limit (leadIn column glyphs) (previousText column glyphs) chars

def replaceText (measure : TextMeasure) (glyphs : Glyphs) (column limit : Nat) (chars : List WChar) : Glyphs :=
  if column < limit ∧ chars ≠ [] then
    settle glyphs (layoutText measure limit column (leadIn column glyphs) (previousText column glyphs) chars)
  else glyphs

def replacedEnd (measure : TextMeasure) (glyphs : Glyphs) (column limit : Nat) (chars : List WChar) : Nat :=
  if column < limit ∧ chars ≠ [] then
    (layoutText measure limit column (leadIn column glyphs) (previousText column glyphs) chars).columnEnd limit
  else column

def layoutGlyph (limit : Nat) (front : Glyphs) (glyph : Glyph) : Layout :=
  if limit < columns front + glyph.width then ⟨front, glyph.text, limit⟩
  else ⟨front ++ [glyph], [], columns front + glyph.width⟩

def replaceGlyph (glyphs : Glyphs) (column limit : Nat) (glyph : Glyph) : Glyphs :=
  if column < limit then settle glyphs (layoutGlyph limit (leadIn column glyphs) glyph) else glyphs

-- As many glyphs of the source as fit. The columns of a glyph that would be cut
-- are cleared.
def layoutGlyphs (room : Nat) (front source : Glyphs) : Layout :=
  let taken := takeColumns room source
  ⟨front ++ taken, (text source).drop (text taken).length, columns front + room⟩

def between (first last : Nat) (glyphs : Glyphs) : Glyphs :=
  if columns (takeColumns first glyphs) = first then takeColumns (last - first) (dropColumns first glyphs) else []

def copyText (glyphs : Glyphs) (column limit : Nat) (source : Glyphs) (first last : Nat) : Glyphs :=
  let copied := between first last source
  if column < limit ∧ copied ≠ [] then
    settle glyphs (layoutGlyphs (min (limit - column) (last - first)) (leadIn column glyphs) copied)
  else glyphs

end Glyphs

variable {Attr : Type}

section

theorem take_columns_leads (column : Nat) (glyphs : Glyphs) : ∃ rest, glyphs = takeColumns column glyphs ++ rest := by
  induction glyphs generalizing column with
  | nil => exact ⟨[], rfl⟩
  | cons glyph others ih =>
    by_cases fits : glyph.width ≤ column
    · obtain ⟨rest, split⟩ := ih (column - glyph.width)
      refine ⟨rest, ?_⟩
      simp [takeColumns, if_pos fits, ← split]
    · exact ⟨glyph :: others, by rw [takeColumns, if_neg fits]; rfl⟩

variable (glyphs : Glyphs) (column : Nat) (inside : column ≤ columns glyphs)

include inside

theorem take_columns_near : columns (takeColumns column glyphs) ≤ column ∧
    column ≤ columns (takeColumns column glyphs) + 1 := by
  rcases column_cases glyphs column inside with ⟨before, after, rfl, rfl⟩ | ⟨before, wide, after, rfl, isWide, rfl⟩
  · rw [(cut_boundary before after).1]
    exact ⟨le_refl _, le_succ _⟩
  · rw [(cut_inside before after isWide).1]
    exact ⟨le_succ _, le_refl _⟩

theorem lead_in_columns : columns (leadIn column glyphs) = column := by
  have near := take_columns_near glyphs column inside
  rw [leadIn, columns_append, columns_spaces]
  omega

theorem lead_in_offsets : (encode 0 glyphs).take column = Glyphs.offsets 0 (leadIn column glyphs) := by
  rcases column_cases glyphs column inside with ⟨before, after, rfl, rfl⟩ | ⟨before, wide, after, rfl, isWide, rfl⟩
  · simp [leadIn, (cut_boundary before after).1, encode_take_boundary, spaces]
  · rw [leadIn, (cut_inside before after isWide).1, encode_take_inside, Nat.add_sub_cancel_left, offsets_append]
    rfl

end

theorem front_small {before after : Glyphs} (fits : (text (before ++ after)).length ≤ charOffsetsMask) :
    0 + (text before).length < charOffsetsTrailer := by
  rw [text_append, length_append, charOffsetsMask] at fits
  rw [charOffsetsTrailer]
  omega

variable (row : Row Attr) (fits : (text glyphs).length ≤ charOffsetsMask) (column : Nat)
  (inside : column ≤ columns glyphs)

include fits inside

theorem located_backward (offsets : row.charOffsets = encode 0 glyphs) :
    row.adjustBackward column = columns (takeColumns column glyphs) ∧
      row.uncheckedCharOffset column = (text (takeColumns column glyphs)).length := by
  rcases column_cases glyphs column inside with ⟨before, after, rfl, rfl⟩ | ⟨before, wide, after, rfl, isWide, rfl⟩
  · have small := front_small fits
    obtain ⟨rest, head⟩ := encode_head (0 + (text before).length) after
    have dropped := encode_drop_boundary 0 before after
    rw [← offsets, head] at dropped
    obtain ⟨offset, plain⟩ := offset_at row _ rest dropped small
    rw [(cut_boundary before after).1, adjust_backward_stays row _ plain, offset]
    exact ⟨rfl, zero_add _⟩
  · have small := front_small fits
    obtain ⟨rest, head⟩ := encode_head (0 + (text before).length) (wide :: after)
    have first := encode_drop_boundary 0 before (wide :: after)
    have second := encode_drop_inside 0 before after wide isWide
    rw [← offsets] at first second
    rw [head] at first
    obtain ⟨_, plain⟩ := offset_at row _ rest first small
    obtain ⟨offset, trailer⟩ := trailer_at row _ second small
    rw [(cut_inside before after isWide).1, adjust_backward_moves row _ trailer plain, offset]
    exact ⟨rfl, zero_add _⟩

theorem located_forward (length : row.charOffsets.length = columns glyphs + 1)
    (offsets : row.charOffsets.drop column = (encode 0 glyphs).drop column) :
    ∃ before, glyphs = before ++ dropColumns column glyphs ∧ column ≤ columns before ∧
      row.adjustForward column = columns before ∧ row.uncheckedCharOffset (columns before) = (text before).length ∧
      row.charOffsets.drop (columns before) = encode (text before).length (dropColumns column glyphs) := by
  rcases column_cases glyphs column inside with ⟨before, after, rfl, rfl⟩ | ⟨before, wide, after, rfl, isWide, rfl⟩
  · have small := front_small fits
    obtain ⟨rest, head⟩ := encode_head (0 + (text before).length) after
    rw [encode_drop_boundary] at offsets
    have dropped := offsets
    rw [head] at dropped
    obtain ⟨offset, plain⟩ := offset_at row _ rest dropped small
    rw [(cut_boundary before after).2, adjust_forward_stays row _ plain]
    refine ⟨before, rfl, le_refl _, rfl, ?_, ?_⟩
    · simp [offset]
    · simp [offsets]
  · have small : 0 + (text before).length < charOffsetsTrailer ∧
        0 + (text before).length + wide.text.length < charOffsetsTrailer := by
      rw [text_append, text_cons, length_append, length_append, charOffsetsMask] at fits
      rw [charOffsetsTrailer]
      omega
    rw [encode_drop_inside 0 before after wide isWide] at offsets
    have next : row.charOffsets.drop (columns before + 1 + 1) = encode (0 + (text before).length + wide.text.length) after := by
      rw [← drop_drop, offsets]
      rfl
    obtain ⟨rest, head⟩ := encode_head (0 + (text before).length + wide.text.length) after
    obtain ⟨offset, plain⟩ := offset_at row (columns before + 1 + 1) rest (by rw [next, head]) small.2
    obtain ⟨_, trailer⟩ := trailer_at row _ offsets small.1
    have some : 2 ≤ row.charOffsets.length := by omega
    have width : columns (before ++ [wide]) = columns before + 1 + 1 := by simp [isWide]
    rw [(cut_inside before after isWide).2, adjust_forward_moves row _ some trailer plain]
    refine ⟨before ++ [wide], by simp, ?_, width.symm, ?_, ?_⟩
    · rw [width]
      exact le_succ _
    · rw [width, offset]
      simp
    · rw [width, next]
      simp

end Cogterm.Buffer
