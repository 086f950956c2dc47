import Cogterm.TextBuffer.Storage

namespace Cogterm.Buffer

-- What is done to a row never changes how many columns it has.
structure Edit where
  apply : Row TextAttribute → Row TextAttribute
  columns : ∀ row, (apply row).columnCount = row.columnCount

inductive Access where
  | read (y : Int)
  | write (y : Int) (edit : Edit)
  | scratch (attributes : TextAttribute) (edit : Edit)
  | increment (fillAttributes : TextAttribute)

def Storage.step (storage : Storage) : Access → Option (List (Row TextAttribute) × Storage)
  | .read y => (storage.getRow y).map (fun found => ([found.1], found.2))
  | .write y edit => (storage.change y edit.apply).map (fun storage => ([], storage))
  | .scratch attributes edit => (storage.useScratchpadRow attributes edit.apply).map (fun storage => ([], storage))
  | .increment fillAttributes => (storage.incrementCircularBuffer fillAttributes).map (fun done => ([], done.1))

def Storage.run (storage : Storage) : List Access → Option (List (Row TextAttribute))
  | [] => some []
  | access :: rest => (storage.step access).bind fun done => (done.2.run rest).map (fun rows => done.1 ++ rows)

-- An array of rows that are all there. A row number wraps around.
structure PlainBuffer where
  width : Nat
  height : Nat
  rows : Nat → Row TextAttribute

namespace PlainBuffer

def blank (width height : Nat) (attributes : TextAttribute) : PlainBuffer :=
  ⟨width, height, fun _ => Row.construct width attributes⟩

def index (plain : PlainBuffer) (y : Int) : Nat := (y % plain.height).toNat

def step (plain : PlainBuffer) : Access → List (Row TextAttribute) × PlainBuffer
  | .read y => ([plain.rows (plain.index y)], plain)
  | .write y edit =>
    ([], { plain with rows := Function.update plain.rows (plain.index y) (edit.apply (plain.rows (plain.index y))) })
  | .scratch _ _ => ([], plain)
  | .increment fillAttributes =>
    ([], { plain with rows := fun y => if y + 1 < plain.height then plain.rows (y + 1)
      else Row.construct plain.width fillAttributes })

def run (plain : PlainBuffer) : List Access → List (Row TextAttribute)
  | [] => []
  | access :: rest => (plain.step access).1 ++ (plain.step access).2.run rest

end PlainBuffer

structure Shows (storage : Storage) (plain : PlainBuffer) : Prop where
  sound : storage.Sound
  width : storage.width = plain.width
  height : storage.height = plain.height
  rows : ∀ y, y < plain.height → storage.stored (storage.rowOffset y) = plain.rows y
  columns : ∀ y, y < plain.height → (plain.rows y).columnCount = plain.width

theorem advance_sound {storage : Storage} (sound : storage.Sound) : storage.advance.Sound := by
  refine { sound with first := ?_ }
  have tall := sound.tall
  show (if storage.firstRow + 1 ≥ storage.height then 0 else storage.firstRow + 1) < storage.height
  split <;> omega

section

variable (storage : Storage) (plain : PlainBuffer) (shows : Shows storage plain)

theorem grown_shows (grownSound : grown.Sound) (isGrown : storage.Grown grown) (shows : Shows storage plain) :
    Shows grown plain := by
  refine ⟨grownSound, isGrown.width.trans shows.width, isGrown.height.trans shows.height, ?_, shows.columns⟩
  intro y inside
  rw [Storage.grown_offset isGrown, isGrown.stored]
  exact shows.rows y inside

include shows

theorem index_inside (y : Int) : plain.index y < plain.height := by
  have tall : 0 < plain.height := shows.height ▸ shows.sound.tall
  have high := Int.emod_lt_of_pos y (Int.natCast_pos.mpr tall)
  rw [PlainBuffer.index]
  omega

theorem offset_index (y : Int) : storage.rowOffset y = storage.rowOffset (plain.index y) := by
  have tall : 0 < plain.height := shows.height ▸ shows.sound.tall
  have low := Int.emod_nonneg y (Int.ne_of_gt (Int.natCast_pos.mpr tall))
  refine Storage.row_offset_wraps storage shows.sound ?_
  simp [shows.height, PlainBuffer.index, Int.toNat_of_nonneg low]

theorem shown_row (y : Int) : storage.stored (storage.rowOffset y) = plain.rows (plain.index y) := by
  rw [offset_index storage plain shows, shows.rows _ (index_inside storage plain shows y)]

theorem put_shows (columns : row.columnCount = plain.width) (constructed : storage.rowOffset y < storage.commitWatermark) :
    Shows (storage.put (storage.rowOffset y) row) { plain with rows := Function.update plain.rows (plain.index y) row } := by
  have within := index_inside storage plain shows y
  have height := shows.height
  refine ⟨Storage.put_sound shows.sound constructed, shows.width, height, ?_, ?_⟩
  · intro other inside
    have offset : (storage.put (storage.rowOffset y) row).rowOffset other = storage.rowOffset other := rfl
    rw [offset, Storage.put_stored]
    dsimp only at inside ⊢
    by_cases same : other = plain.index y
    · simp [same, ← offset_index storage plain shows y]
    have apart : storage.rowOffset other ≠ storage.rowOffset y := by
      rw [offset_index storage plain shows y]
      intro shared
      have equal := Storage.row_offset_injective storage shows.sound (by omega) (by omega) (by omega) (by omega) shared
      omega
    rw [Function.update_of_ne apart, Function.update_of_ne same, shows.rows other inside]
  · intro other inside
    dsimp only at inside ⊢
    by_cases same : other = plain.index y
    · simpa [same] using columns
    · rw [Function.update_of_ne same]
      exact shows.columns other inside

theorem change_shows (y : Int) (edit : Row TextAttribute → Row TextAttribute)
    (columns : ∀ row, (edit row).columnCount = row.columnCount) : ∃ changed, storage.change y edit = some changed ∧
      Shows changed { plain with rows := Function.update plain.rows (plain.index y) (edit (plain.rows (plain.index y))) } := by
  obtain ⟨grown, found, grownSound, isGrown, _, constructed⟩ := Storage.get_row_grows storage shows.sound y
  have grownShows := grown_shows storage plain grownSound isGrown shows
  have sameOffset := Storage.grown_offset isGrown y
  rw [← sameOffset] at constructed
  refine ⟨_, ?_, put_shows grown plain grownShows ?_ constructed⟩
  · simp [Storage.change, found, shown_row storage plain shows, sameOffset]
  · rw [columns]
    exact shows.columns _ (index_inside storage plain shows y)

theorem scratch_shows (attributes : TextAttribute) (edit : Row TextAttribute → Row TextAttribute) :
    ∃ changed, storage.useScratchpadRow attributes edit = some changed ∧ Shows changed plain := by
  obtain ⟨grown, found, grownSound, isGrown, _, constructed⟩ :=
    Storage.get_direct_grows storage shows.sound 0 (Nat.succ_pos _)
  have grownShows := grown_shows storage plain grownSound isGrown shows
  rw [Storage.useScratchpadRow, found]
  refine ⟨_, rfl, Storage.put_sound grownSound constructed, grownShows.width, grownShows.height, ?_, shows.columns⟩
  intro y inside
  have positive := (Storage.row_offset_bounds grown grownSound y).1
  rw [Storage.put_stored]
  exact (Function.update_of_ne (Nat.ne_of_gt positive) _ _).trans (grownShows.rows y inside)

theorem advance_offset (y : Int) : storage.advance.rowOffset y = storage.rowOffset (y + 1) := by
  have sound := shows.sound
  have first := sound.first
  have advanced := advance_sound sound
  have isFirst : storage.advance.firstRow = if storage.firstRow + 1 ≥ storage.height then 0 else storage.firstRow + 1 := rfl
  have sameHeight : storage.advance.height = storage.height := rfl
  rw [Storage.row_offset_eq storage.advance advanced, Storage.row_offset_eq storage sound, isFirst, sameHeight]
  by_cases wraps : storage.firstRow + 1 ≥ storage.height
  · have sum : (storage.firstRow : Int) + (y + 1) = storage.height + y := by omega
    simp [if_pos wraps, sum]
  · have sum : (storage.firstRow : Int) + (y + 1) = storage.firstRow + 1 + y := by omega
    simp [if_neg wraps, sum]

theorem advance_shows :
    Shows storage.advance { plain with rows := fun y => if y + 1 < plain.height then plain.rows (y + 1) else plain.rows 0 } := by
  have sound := shows.sound
  have tall : 0 < plain.height := shows.height ▸ sound.tall
  refine ⟨advance_sound sound, shows.width, shows.height, ?_, ?_⟩
  · intro y inside
    dsimp only at inside ⊢
    rw [advance_offset storage plain shows]
    by_cases next : y + 1 < plain.height
    · rw [if_pos next]
      exact shows.rows (y + 1) next
    have last : y + 1 = plain.height := by omega
    rw [if_neg next]
    have wrapped : storage.rowOffset ((y : Int) + 1) = storage.rowOffset ((0 : Nat) : Int) := by
      refine Storage.row_offset_wraps storage sound ?_
      simp [shows.height, ← last]
    rw [wrapped]
    exact shows.rows 0 tall
  · intro y inside
    dsimp only at inside ⊢
    split
    · exact shows.columns _ (by assumption)
    · exact shows.columns 0 tall

theorem increment_shows (fillAttributes : TextAttribute) :
    ∃ done ids, storage.incrementCircularBuffer fillAttributes = some (done, ids) ∧
      Shows done (plain.step (.increment fillAttributes)).2 := by
  obtain ⟨pruned, ids, isPruned, prunedSound, grown⟩ := Storage.prune_grows shows.sound
  have prunedShows := grown_shows storage plain prunedSound grown shows
  obtain ⟨changed, isChanged, changedShows⟩ := change_shows pruned plain prunedShows 0 (fun row => row.reset fillAttributes)
    (fun _ => rfl)
  have tall : 0 < plain.height := shows.height ▸ shows.sound.tall
  have zero : plain.index 0 = 0 := by rfl
  have blank : (plain.rows 0).reset fillAttributes = Row.construct plain.width fillAttributes := by
    rw [← shows.columns 0 tall]
    rfl
  rw [zero, blank] at changedShows
  refine ⟨changed.advance, ids, ?_, ?_⟩
  · simp [Storage.incrementCircularBuffer, isPruned, isChanged]
  · have advanced := advance_shows changed _ changedShows
    exact advanced

theorem step_shows (access : Access) :
    ∃ storage', storage.step access = some ((plain.step access).1, storage') ∧ Shows storage' (plain.step access).2 := by
  cases access with
  | read y =>
    obtain ⟨grown, found, grownSound, isGrown, _⟩ := Storage.get_row_grows storage shows.sound y
    refine ⟨grown, ?_, grown_shows storage plain grownSound isGrown shows⟩
    rw [Storage.step, found, shown_row storage plain shows]
    rfl
  | write y edit =>
    obtain ⟨changed, isChanged, showsChanged⟩ := change_shows storage plain shows y edit.apply edit.columns
    exact ⟨changed, by rw [Storage.step, isChanged]; rfl, showsChanged⟩
  | scratch attributes edit =>
    obtain ⟨changed, isChanged, showsChanged⟩ := scratch_shows storage plain shows attributes edit.apply
    exact ⟨changed, by rw [Storage.step, isChanged]; rfl, showsChanged⟩
  | increment fillAttributes =>
    obtain ⟨done, ids, isDone, showsDone⟩ := increment_shows storage plain shows fillAttributes
    exact ⟨done, by rw [Storage.step, isDone]; rfl, showsDone⟩

theorem run_shows : storage.run accesses = some (plain.run accesses) := by
  induction accesses generalizing storage plain with
  | nil => rfl
  | cons access rest ih =>
    obtain ⟨storage', stepped, shows'⟩ := step_shows storage plain shows access
    rw [Storage.run, stepped, Option.bind_some, ih storage' _ shows']
    rfl

end

theorem lazy_rows_are_plain (width height : Nat) (defaultAttributes : TextAttribute) (accesses : List Access) :
    (Storage.reserve width height defaultAttributes).run accesses =
      some ((PlainBuffer.blank (max width 1) (max height 1) defaultAttributes).run accesses) := by
  refine run_shows _ _ ?_
  refine ⟨⟨Nat.lt_of_lt_of_le Nat.zero_lt_one (Nat.le_max_right _ _),
    Nat.lt_of_lt_of_le Nat.zero_lt_one (Nat.le_max_right _ _), Nat.zero_le _, ?_⟩, rfl, rfl, fun _ _ => rfl, fun _ _ => rfl⟩
  intro offset
  exact ⟨fun impossible => absurd impossible Bool.false_ne_true, fun impossible => absurd impossible (Nat.not_lt_zero _)⟩

structure Backs (storage : Storage) (buffer : TextBuffer) : Prop where
  sound : storage.Sound
  width : storage.width = buffer.width
  height : storage.height = buffer.height
  firstRow : storage.firstRow = buffer.firstRow
  commitWatermark : storage.commitWatermark = buffer.commitWatermark
  scratchpad : storage.stored 0 = buffer.scratchpad
  rows : ∀ index, index < buffer.height → storage.stored (index + 1) = buffer.rows index

def TextBuffer.step (buffer : TextBuffer) : Access → List (Row TextAttribute) × TextBuffer
  | .read y => ([buffer.getRow y], buffer.commit (buffer.storageIndex y + 1))
  | .write y edit => ([], buffer.setRow y (edit.apply (buffer.getRow y)))
  | .scratch attributes edit =>
    ([], { buffer.getScratchpadRow attributes with scratchpad := edit.apply (buffer.scratchpad.reset attributes) })
  | .increment fillAttributes => ([], buffer.incrementCircularBuffer fillAttributes)

def TextBuffer.run (buffer : TextBuffer) : List Access → List (Row TextAttribute)
  | [] => []
  | access :: rest => (buffer.step access).1 ++ (buffer.step access).2.run rest

section

variable (storage : Storage) (buffer : TextBuffer) (backs : Backs storage buffer)

include backs

theorem remove_backs {ids : List Nat} : Backs storage (ids.foldl TextBuffer.removeHyperlinkFromMap buffer) := by
  induction ids generalizing buffer with
  | nil => exact backs
  | cons id rest ih => exact ih _ { backs with }

theorem direct_backs (offset : Nat) (inside : offset < storage.bufferEnd) :
    ∃ grown, storage.getRowByOffsetDirect offset = some (storage.stored offset, grown) ∧
      Backs grown (buffer.commit offset) ∧ offset < grown.commitWatermark := by
  obtain ⟨grown, found, sound, isGrown, watermark, constructed⟩ := Storage.get_direct_grows storage backs.sound offset inside
  rw [backs.commitWatermark, Storage.bufferEnd, backs.height] at watermark
  refine ⟨grown, found, ?_, constructed⟩
  exact ⟨sound, isGrown.width.trans backs.width, isGrown.height.trans backs.height, isGrown.firstRow.trans backs.firstRow,
    watermark, isGrown.stored ▸ backs.scratchpad, isGrown.stored ▸ backs.rows⟩

theorem get_row_backs (y : Int) : storage.rowOffset y = buffer.storageIndex y + 1 ∧
    ∃ grown, storage.getRow y = some (buffer.getRow y, grown) ∧
      Backs grown (buffer.commit (buffer.storageIndex y + 1)) ∧ buffer.storageIndex y + 1 < grown.commitWatermark := by
  have offset := Storage.row_offset_eq storage backs.sound y
  have inside := (Storage.row_offset_bounds storage backs.sound y).2
  have found := direct_backs storage buffer backs _ inside
  rw [backs.firstRow, backs.height] at offset
  change _ = buffer.storageIndex y + 1 at offset
  rw [Storage.bufferEnd, backs.height, offset, Nat.add_lt_add_iff_right] at inside
  rw [← Storage.getRow, offset, backs.rows _ inside] at found
  exact ⟨offset, found⟩

theorem change_backs (y : Int) (edit : Row TextAttribute → Row TextAttribute) :
    ∃ changed, storage.change y edit = some changed ∧ Backs changed (buffer.setRow y (edit (buffer.getRow y))) := by
  obtain ⟨offset, grown, found, grownBacks, constructed⟩ := get_row_backs storage buffer backs y
  refine ⟨_, by rw [Storage.change, found, Option.map_some, offset], ?_⟩
  refine { grownBacks with sound := Storage.put_sound grownBacks.sound constructed, scratchpad := ?_, rows := ?_ }
  · rw [Storage.put_stored, Function.update_of_ne (by omega)]
    exact grownBacks.scratchpad
  · intro index below
    rw [Storage.put_stored]
    by_cases same : index = buffer.storageIndex y
    · simp [same, TextBuffer.setRow]
    · rw [Function.update_of_ne (by omega), grownBacks.rows index below]
      exact (Function.update_of_ne same _ _).symm

theorem prune_loop_backs (count : Nat) (y : Int) (refs : List Nat) :
    ∃ grown, storage.pruneLoop count y refs = some (grown, (buffer.pruneLoop count y refs).2) ∧
      Backs grown (buffer.pruneLoop count y refs).1 := by
  induction count generalizing y storage buffer refs with
  | zero => exact ⟨storage, rfl, backs⟩
  | succ count ih =>
    obtain ⟨_, grown, found, grownBacks, _⟩ := get_row_backs storage buffer backs y
    rw [Storage.pruneLoop, found, Option.bind_some, TextBuffer.pruneLoop]
    generalize refs.filter (fun id => !(buffer.getRow y).getHyperlinks.contains id) = left
    by_cases none : left.isEmpty = true
    · rw [if_pos none, if_pos none]
      exact ⟨grown, rfl, grownBacks⟩
    · rw [if_neg none, if_neg none]
      exact ih grown _ grownBacks (y + 1) left

theorem prune_backs : ∃ grown ids, storage.pruneHyperlinks = some (grown, ids) ∧ Backs grown buffer.pruneHyperlinks := by
  obtain ⟨_, grown, found, grownBacks, _⟩ := get_row_backs storage buffer backs 0
  rw [Storage.pruneHyperlinks, found, Option.bind_some, TextBuffer.pruneHyperlinks]
  by_cases none : (buffer.getRow 0).getHyperlinks.isEmpty = true
  · rw [if_pos none, if_pos none]
    exact ⟨grown, [], rfl, grownBacks⟩
  rw [if_neg none, if_neg none]
  obtain ⟨last, ends, lastBacks⟩ :=
    prune_loop_backs grown _ grownBacks (buffer.height - 1) 1 (buffer.getRow 0).getHyperlinks.dedup
  rw [backs.height]
  exact ⟨last, _, ends, remove_backs last _ lastBacks⟩

theorem increment_backs (fillAttributes : TextAttribute) :
    ∃ done ids, storage.incrementCircularBuffer fillAttributes = some (done, ids) ∧
      Backs done (buffer.incrementCircularBuffer fillAttributes) := by
  obtain ⟨pruned, ids, isPruned, prunedBacks⟩ := prune_backs storage buffer backs
  obtain ⟨changed, isChanged, changedBacks⟩ := change_backs pruned _ prunedBacks 0 (fun row => row.reset fillAttributes)
  refine ⟨changed.advance, ids, ?_, ?_⟩
  · simp [Storage.incrementCircularBuffer, isPruned, isChanged]
  · refine { changedBacks with sound := advance_sound changedBacks.sound, firstRow := ?_ }
    show (if changed.firstRow + 1 ≥ changed.height then 0 else changed.firstRow + 1) = _
    rw [changedBacks.firstRow, changedBacks.height]
    rfl

theorem step_backs (access : Access) :
    ∃ next, storage.step access = some ((buffer.step access).1, next) ∧ Backs next (buffer.step access).2 := by
  cases access with
  | read y =>
    obtain ⟨_, grown, found, grownBacks, _⟩ := get_row_backs storage buffer backs y
    exact ⟨grown, by rw [Storage.step, found]; rfl, grownBacks⟩
  | write y edit =>
    obtain ⟨changed, isChanged, changedBacks⟩ := change_backs storage buffer backs y edit.apply
    exact ⟨changed, by rw [Storage.step, isChanged]; rfl, changedBacks⟩
  | scratch attributes edit =>
    obtain ⟨grown, found, grownBacks, constructed⟩ := direct_backs storage buffer backs 0 (Nat.succ_pos _)
    refine ⟨_, by rw [Storage.step, Storage.useScratchpadRow, found]; rfl, ?_⟩
    refine { grownBacks with sound := Storage.put_sound grownBacks.sound constructed, scratchpad := ?_, rows := ?_ }
    · simp [Storage.put_stored, backs.scratchpad, TextBuffer.step]
    · simp only [Storage.put_stored, Function.update_of_ne (Nat.succ_ne_zero _)]
      exact grownBacks.rows
  | increment fillAttributes =>
    obtain ⟨done, ids, isDone, doneBacks⟩ := increment_backs storage buffer backs fillAttributes
    exact ⟨done, by rw [Storage.step, isDone]; rfl, doneBacks⟩

theorem run_backs : storage.run accesses = some (buffer.run accesses) := by
  induction accesses generalizing storage buffer with
  | nil => rfl
  | cons access rest ih =>
    obtain ⟨next, stepped, nextBacks⟩ := step_backs storage buffer backs access
    rw [Storage.run, stepped, Option.bind_some, ih next _ nextBacks]
    rfl

end

theorem storage_runs_as_buffer (width height : Nat) (defaultAttributes : TextAttribute) (accesses : List Access) :
    (Storage.reserve width height defaultAttributes).run accesses =
      some ((TextBuffer.construct width height defaultAttributes).run accesses) := by
  refine run_backs _ _ ⟨?_, rfl, rfl, rfl, rfl, rfl, fun _ _ => rfl⟩
  exact ⟨Nat.le_max_right _ _, Nat.le_max_right _ _, Nat.zero_le _, by simp [Storage.reserve]⟩

end Cogterm.Buffer
