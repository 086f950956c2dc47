import Cogterm.Library.Copies
import Cogterm.TextBuffer.Attributes
import Cogterm.TextBuffer.Links

namespace Cogterm.Buffer

open Library Til Glyphs List Nat

def Row.trimmed (row : Row TextAttribute) : Row TextAttribute := { row with chars := row.chars.take row.charSize }

theorem represents_trimmed (models : Represents row glyphs) (represented : Represents other glyphs) (attr : row.attr = other.attr)
    (lineRendition : row.lineRendition = other.lineRendition) (wrapForced : row.wrapForced = other.wrapForced)
    (padded : row.doubleBytePadded = other.doubleBytePadded) : row.trimmed = other.trimmed := by
  obtain ⟨spare, isChars⟩ := models.chars
  obtain ⟨otherSpare, isOtherChars⟩ := represented.chars
  simp [Row.trimmed, represented_char_size models, represented_char_size represented, isChars, isOtherChars, models.offsets,
    represented.offsets, attr, lineRendition, wrapForced, padded, ← models.columns, ← represented.columns]

section

variable (glyphs : Glyphs) {source : Glyphs} {count : Nat} (width : columns glyphs = count) (sourceWidth : columns source = count)

include sourceWidth in
theorem between_whole : between 0 count source = source := by
  have none := cut_boundary [] source
  have whole := cut_boundary source []
  rw [columns_nil, nil_append] at none
  rw [sourceWidth] at whole
  simpa [between, none.1, none.2] using whole.1

include sourceWidth in
theorem layout_whole : layoutGlyphs (min (count - 0) (count - 0)) (leadIn 0 glyphs) source = ⟨source, [], count⟩ := by
  have whole := cut_boundary source []
  rw [sourceWidth, append_nil] at whole
  have lead : leadIn 0 glyphs = [] := by
    rw [leadIn, take_columns_zero]
    rfl
  simp [layoutGlyphs, lead, whole.1]

include width in
theorem drop_whole : dropColumns count glyphs = [] := by
  have whole := cut_boundary glyphs []
  rw [width, append_nil] at whole
  exact whole.2

include width sourceWidth in
theorem settle_whole : settle glyphs ⟨source, [], count⟩ = source := by
  rw [settle]
  simp only [drop_whole glyphs width, columns_nil, width, sourceWidth, Nat.sub_zero, Nat.sub_self, append_nil]
  exact append_nil source

end

section

variable (env : Environment) (plenty : ∀ size, size ≤ 0xFFFF → (env.heap.allocate size).isSome)

theorem readable_plain {row : Row TextAttribute} (single : row.lineRendition = .singleWidth)
    (unpadded : row.doubleBytePadded = false) : row.getReadableColumnCount = row.columnCount := by
  rw [Row.getReadableColumnCount, single, unpadded]
  simp

include plenty in
theorem copy_text_whole {row source : Row TextAttribute} (sound : Sound row) (sourceSound : Sound source)
    (columnCount : row.columnCount = source.columnCount) (wide : 0 < source.columnCount)
    (single : source.lineRendition = .singleWidth) (unpadded : source.doubleBytePadded = false) :
    ∃ copied final, row.copyTextFrom env (some source) ⟨0, coordTypeMax, 0, source.getReadableColumnCount, 0, 0, 0, 0⟩ =
        (copied, some final) ∧ row.Frame copied ∧ copied.doubleBytePadded = false ∧
      ∃ glyphs, Represents source glyphs ∧ Represents copied glyphs := by
  obtain ⟨sourceGlyphs, sourceModels⟩ := sourceSound.stored
  obtain ⟨glyphs, models⟩ := sound.stored
  have narrow : row.columnCount ≤ 0xFFFD := le_trans sound.narrow (by decide)
  have cases := copy_text_cases env sourceModels ⟨0, coordTypeMax, 0, source.getReadableColumnCount, 0, 0, 0, 0⟩
    (clamped_inside (zero_le _)) (clamped_maximum sound.narrow) (clamped_inside (zero_le _)) rfl models narrow
  have width : columns glyphs = source.columnCount := models.columns.trans columnCount
  have sourceWidth := sourceModels.columns
  have small := sourceModels.fits
  simp only [CopyOutcome, columnCount, readable_plain single unpadded, clamped_inside (le_refl _), between_whole sourceWidth,
    layout_whole glyphs sourceWidth, settle_whole glyphs width sourceWidth] at cases
  rw [readable_plain single unpadded]
  rcases cases with ⟨stays, _⟩ | ⟨_, refused, _⟩ | ⟨_, _, final, returned, copied⟩
  · have nonempty : sourceGlyphs ≠ [] := by
      intro none
      rw [none] at sourceWidth
      exact absurd sourceWidth (Nat.ne_of_lt wide)
    exact absurd ⟨wide, nonempty⟩ stays
  · exact absurd refused (not_refused plenty (le_trans small (by decide)))
  · generalize row.copyTextFrom env (some source) _ = outcome at *
    have represented := copied.models
    have padded := copied.padded
    rw [settle_whole glyphs width sourceWidth] at represented
    rw [drop_whole glyphs width, columns_nil, sourceWidth, width, decide_eq_false (lt_irrefl _)] at padded
    refine ⟨outcome.1, final, Prod.ext rfl returned, ?_, padded, sourceGlyphs, sourceModels, represented small⟩
    rw [copied.frame]
    exact ⟨rfl, rfl, rfl, rfl⟩

structure Row.Plain (width : Nat) (row : Row TextAttribute) : Prop where
  sound : Sound row
  columnCount : row.columnCount = width
  total : row.attr.total = width
  single : row.lineRendition = .singleWidth

include plenty in
theorem copy_from_trimmed (width : Nat) (wide : 0 < width) (row source : Row TextAttribute) (plain : row.Plain width)
    (sourcePlain : source.Plain width) (unpadded : source.doubleBytePadded = false) :
    ∃ copied, row.copyFrom env (some source) = (copied, some ()) ∧ copied.trimmed = source.trimmed ∧
    copied.Plain width := by
  obtain ⟨framed, isFramed⟩ : ∃ framed, framed =
      { row with lineRendition := source.lineRendition, wrapForced := source.wrapForced } := ⟨_, rfl⟩
  have framedSound : Sound framed := by
    rw [isFramed]
    exact sound_frame _ plain.sound rfl rfl rfl
  have framedCount : framed.columnCount = width := by
    rw [isFramed]
    exact plain.columnCount
  have sourceWide : 0 < source.columnCount := by
    rw [sourcePlain.columnCount]
    exact wide
  obtain ⟨copied, final, returned, frame, padded, glyphs, sourceModels, models⟩ := copy_text_whole env plenty
    framedSound sourcePlain.sound (framedCount.trans sourcePlain.columnCount.symm) sourceWide sourcePlain.single unpadded
  have resized := resize_same 16 source.attr row.columnCount (by rw [plain.columnCount]; exact wide)
    (sourcePlain.total.trans plain.columnCount.symm)
  have lineRendition : copied.lineRendition = source.lineRendition := by rw [frame.lineRendition, isFramed]
  have wrapForced : copied.wrapForced = source.wrapForced := by rw [frame.wrapForced, isFramed]
  have colored : Represents { copied with attr := source.attr } glyphs :=
    { models with }
  have columnCount : copied.columnCount = width := frame.columnCount.trans framedCount
  refine ⟨{ copied with attr := source.attr }, ?_, ?_, ?_, columnCount, sourcePlain.total,
    lineRendition.trans sourcePlain.single⟩
  · rw [Row.copyFrom]
    simp only [Option.getD_some, ← isFramed]
    simp [returned, Row.copyAttributesFrom, resized]
  · exact represents_trimmed colored sourceModels rfl lineRendition wrapForced (padded.trans unpadded.symm)
  · exact ⟨le_trans (le_of_eq frame.columnCount) framedSound.narrow, glyphs, colored⟩

theorem copy_from_self (width : Nat) (wide : 0 < width) (row : Row TextAttribute) (plain : row.Plain width) :
    row.copyFrom env none = (row, some ()) := by
  have resized := resize_same 16 row.attr row.columnCount (by rw [plain.columnCount]; exact wide)
    (plain.total.trans plain.columnCount.symm)
  rw [Row.copyFrom, Row.copyTextFrom]
  simp [Row.copyAttributesFrom, resized]

end

open Function Option TextBuffer

theorem storage_index_nat (buffer : TextBuffer) (row : Nat) :
    buffer.storageIndex row = (buffer.firstRow + row) % buffer.height := by
  rw [storageIndex, ← Int.natCast_add, ← Int.natCast_emod, Int.toNat_natCast]

theorem plain_reset {width : Nat} (wide : 0 < width) (row : Row TextAttribute) (narrow : width ≤ charOffsetsMask)
    (columnCount : row.columnCount = width) (attr : TextAttribute) : (row.reset attr).Plain width := by
  have kept := kept_reset row (by rw [columnCount]; exact narrow) (by rw [columnCount]; exact wide) attr
  exact ⟨kept.sound, columnCount, columnCount, rfl⟩

theorem reset_construct {width : Nat} {row : Row TextAttribute} (columnCount : row.columnCount = width) :
    row.reset attr = Row.construct width attr := by
  rw [Row.reset, Row.construct, columnCount]

structure Ready (buffer : TextBuffer) : Prop where
  wide : 0 < buffer.width
  height : 0 < buffer.height
  bound : buffer.commitWatermark ≤ buffer.height + 1
  rows : ∀ index, (buffer.rows index).Plain buffer.width
  fresh : ∀ index, index < buffer.height → buffer.commitWatermark ≤ index + 1 →
    buffer.rows index = Row.construct buffer.width buffer.initialAttributes

variable {buffer : TextBuffer}

theorem ready_narrow (ready : Ready buffer) : buffer.width ≤ charOffsetsMask := by
  rw [← (ready.rows 0).columnCount]
  exact (ready.rows 0).sound.narrow

theorem commit_watermark (buffer : TextBuffer) (offset : Nat) (inside : offset ≤ buffer.height) :
    buffer.commitWatermark ≤ (buffer.commit offset).commitWatermark ∧ offset < (buffer.commit offset).commitWatermark ∧
      (buffer.commitWatermark ≤ buffer.height + 1 → (buffer.commit offset).commitWatermark ≤ buffer.height + 1) := by
  rw [commit]
  simp only
  split
  · omega
  · omega

theorem ready_commit (ready : Ready buffer) (offset : Nat) (inside : offset ≤ buffer.height) : Ready (buffer.commit offset) :=
  ⟨ready.wide, ready.height, (commit_watermark buffer offset inside).2.2 ready.bound, ready.rows, fun index small committed =>
    ready.fresh index small (le_trans (commit_watermark buffer offset inside).1 committed)⟩

theorem ready_set_row (buffer : TextBuffer) (ready : Ready buffer) (y : Int) (row : Row TextAttribute)
    (plain : row.Plain buffer.width) : Ready (buffer.setRow y row) := by
  have inside := storage_index_lt buffer ready.height y
  have watermark := commit_watermark buffer (buffer.storageIndex y + 1) inside
  refine ⟨ready.wide, ready.height, watermark.2.2 ready.bound, fun index => ?_, fun index small committed => ?_⟩
  · simp only [setRow]
    by_cases same : index = buffer.storageIndex y
    · rw [same, update_self]
      exact plain
    · rw [update_of_ne same]
      exact ready.rows index
  · simp only [setRow] at committed ⊢
    by_cases same : index = buffer.storageIndex y
    · omega
    · rw [update_of_ne same]
      exact ready.fresh index small (le_trans watermark.1 committed)

theorem write_rule_single (attributes : TextAttribute) (scratch : Row TextAttribute) :
    WriteRule attributes scratch (fun row => row.lineRendition = .singleWidth) where
  outcome row outcome single isOutcome := by
    rcases isOutcome with frame | failed
    · exact frame.lineRendition.trans single
    · rw [failed]
      rfl
  replaced _ _ _ _ single _ := single
  restored _ _ _ _ _ _ single _ := single

inductive BufferOperation where
  | write (operation : Write)
  | incrementCircularBuffer (fillAttributes : TextAttribute)

namespace BufferOperation

variable (env : Environment)

def perform (buffer : TextBuffer) : BufferOperation → TextBuffer
  | write operation => operation.perform env buffer
  | .incrementCircularBuffer fillAttributes => buffer.incrementCircularBuffer fillAttributes

def run (buffer : TextBuffer) (operations : List BufferOperation) : TextBuffer := operations.foldl (perform env) buffer

def AllSafe : TextBuffer → List BufferOperation → Prop
  | _, [] => True
  | buffer, operation :: rest =>
    (match operation with
      | write operation => operation.Safe env buffer
      | .incrementCircularBuffer _ => True) ∧ AllSafe (operation.perform env buffer) rest

end BufferOperation

theorem ready_construct {width : Nat} {height : Nat} (narrow : max width 1 ≤ charOffsetsMask) :
    Ready (TextBuffer.construct width height attributes) := by
  have wide : 0 < max width 1 := lt_of_lt_of_le zero_lt_one (le_max_right width 1)
  refine ⟨wide, lt_of_lt_of_le zero_lt_one (le_max_right height 1), zero_le _, fun _ => ?_, fun _ _ _ => rfl⟩
  exact plain_reset wide (Row.construct (max width 1) attributes) narrow rfl attributes

theorem prune_loop_ready {count : Nat} (y : Int) (buffer : TextBuffer) (ready : Ready buffer) (refs : List Nat) :
    Ready (pruneLoop count y buffer refs).1 := by
  induction count generalizing y buffer refs with
  | zero => exact ready
  | succ count ih =>
    have committed := ready_commit ready _ (storage_index_lt buffer ready.height y)
    rw [pruneLoop]
    split
    · exact committed
    · exact ih (y + 1) _ committed _

theorem prune_ready (ready : Ready buffer) : Ready buffer.pruneHyperlinks := by
  have committed := ready_commit ready _ (storage_index_lt buffer ready.height 0)
  have removed : ∀ (ids : List Nat) (other : TextBuffer), Ready other → Ready (ids.foldl removeHyperlinkFromMap other) := by
    intro ids
    induction ids with
    | nil => exact fun _ otherReady => otherReady
    | cons id rest ih =>
      exact fun other otherReady => ih _ { otherReady with }
  rw [pruneHyperlinks]
  split
  · exact committed
  · exact removed _ _ (prune_loop_ready _ _ committed _)

theorem increment_ready (ready : Ready buffer) : Ready (buffer.incrementCircularBuffer fill) := by
  have pruned := prune_ready ready
  have blank := plain_reset pruned.wide (buffer.pruneHyperlinks.getRow 0) (ready_narrow pruned) (pruned.rows _).columnCount fill
  have first := ready_set_row _ pruned 0 _ blank
  exact { first with }

theorem increment_maintained (maintained : Maintained buffer) : Maintained (buffer.incrementCircularBuffer fill) := by
  obtain ⟨⟨watermark, map, ids, frame⟩, _⟩ := prune_hyperlinks_spec buffer
  have columnCount : (buffer.getRow 0).columnCount = buffer.width := maintained.widths _
  have blank := kept_reset (buffer.getRow 0) (maintained.rows _).sound.narrow (by rw [columnCount]; exact maintained.wide) fill
  have pruned : Maintained { buffer with commitWatermark := watermark, hyperlinkMap := map, hyperlinkCustomIdMap := ids } :=
    { maintained with }
  have first := maintained_set_row pruned 0 blank columnCount
  rw [incrementCircularBuffer, frame]
  exact { first with }

theorem ready_written (ready : Ready buffer) (written : Maintained (buffer.setRow y row))
    (single : row.lineRendition = .singleWidth) : Ready (buffer.setRow y row) := by
  have kept := written.rows (buffer.storageIndex y)
  have columnCount := written.widths (buffer.storageIndex y)
  simp only [setRow, update_self] at kept columnCount
  exact ready_set_row buffer ready y row ⟨kept.sound, columnCount, kept.total.trans columnCount, single⟩

theorem write_ready (maintained : Maintained buffer) (ready : Ready buffer) {operation : Write}
    (safe : operation.Safe env buffer) : Ready (operation.perform env buffer) := by
  have written := write_maintained env maintained operation safe
  cases operation with
  | replace y attributes state =>
    exact ready_written ready written (row_replace_holds env (write_rule_single attributes (buffer.getRow y))
      (ready.rows _).single state)
  | insert y attributes state =>
    have committed := ready_commit (ready_commit ready _ (storage_index_lt buffer ready.height y)) 0 (zero_le _)
    have single := fun scratch => row_insert_holds env (write_rule_single attributes scratch)
      (ready.rows (buffer.storageIndex y)).single state
    rw [Write.perform, TextBuffer.insert] at written ⊢
    generalize (buffer.scratchpad.reset buffer.currentAttributes).copyFrom env (some (buffer.getRow y)) = copied at *
    have scratched : Ready
        { (buffer.commit (buffer.storageIndex y + 1)).getScratchpadRow buffer.currentAttributes with scratchpad := copied.1 } :=
      { committed with }
    cases result : copied.2 with
    | none =>
      exact scratched
    | some done =>
      simp only [result] at written ⊢
      exact ready_written scratched written (single copied.1)

theorem operations_ready (buffer : TextBuffer) (maintained : Maintained buffer) (ready : Ready buffer)
    (safe : BufferOperation.AllSafe env buffer operations) : Ready (BufferOperation.run env buffer operations) := by
  induction operations generalizing buffer with
  | nil => exact ready
  | cons operation rest ih =>
    refine ih _ ?_ ?_ safe.2
    · cases operation with
      | write operation => exact write_maintained env maintained operation safe.1
      | incrementCircularBuffer fill => exact increment_maintained maintained
    · cases operation with
      | write operation => exact write_ready maintained ready safe.1
      | incrementCircularBuffer fill => exact increment_ready ready

end Cogterm.Buffer
