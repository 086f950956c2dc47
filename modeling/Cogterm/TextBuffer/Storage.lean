import Cogterm.TextBuffer.TextBuffer

namespace Cogterm.Buffer

-- The memory of a TextBuffer, counted in rows from the scratchpad on. Where no
-- row has been constructed there is none.
structure Storage where
  width : Nat
  height : Nat
  firstRow : Nat
  commitWatermark : Nat
  slots : Nat → Option (Row TextAttribute)
  initialAttributes : TextAttribute

namespace Storage

def reserve (width height : Nat) (defaultAttributes : TextAttribute) : Storage :=
  { width := max width 1
    height := max height 1
    firstRow := 0
    commitWatermark := 0
    slots := fun _ => none
    initialAttributes := defaultAttributes }

def bufferEnd (storage : Storage) : Nat := storage.height + 1

def construct : Nat → Storage → Storage
  | 0, storage => storage
  | count + 1, storage =>
    construct count
      { storage with
        slots := Function.update storage.slots storage.commitWatermark
          (some (Row.construct storage.width storage.initialAttributes))
        commitWatermark := storage.commitWatermark + 1 }

def commit (storage : Storage) (row : Nat) : Storage :=
  let rowEnd := row + 1
  let remaining := storage.bufferEnd - storage.commitWatermark
  let minimum := rowEnd - storage.commitWatermark
  let ideal := minimum + TextBuffer.commitReadAheadRowCount
  construct (min remaining ideal) storage

-- There is no result if it throws, or if there is no row.
def getRowByOffsetDirect (storage : Storage) (offset : Nat) : Option (Row TextAttribute × Storage) :=
  if storage.bufferEnd ≤ offset then none
  else
    let storage := if storage.commitWatermark ≤ offset then storage.commit offset else storage
    (storage.slots offset).map (fun row => (row, storage))

-- The remainder has the sign of the sum.
def rowOffset (storage : Storage) (y : Int) : Nat :=
  let offset := (storage.firstRow + y).tmod storage.height
  (if offset < 0 then offset + storage.height else offset).toNat + 1

def getRow (storage : Storage) (y : Int) : Option (Row TextAttribute × Storage) :=
  storage.getRowByOffsetDirect (storage.rowOffset y)

def put (storage : Storage) (offset : Nat) (row : Row TextAttribute) : Storage :=
  { storage with slots := Function.update storage.slots offset (some row) }

def change (storage : Storage) (y : Int) (edit : Row TextAttribute → Row TextAttribute) : Option Storage :=
  (storage.getRow y).map (fun found => found.2.put (storage.rowOffset y) (edit found.1))

def useScratchpadRow (storage : Storage) (attributes : TextAttribute) (edit : Row TextAttribute → Row TextAttribute) :
    Option Storage :=
  (storage.getRowByOffsetDirect 0).map (fun found => found.2.put 0 (edit (found.1.reset attributes)))

-- The references that are left in the end are those that the caller removes.
def pruneLoop : Nat → Int → Storage → List Nat → Option (Storage × List Nat)
  | 0, _, storage, refs => some (storage, refs)
  | count + 1, y, storage, refs =>
    (storage.getRow y).bind fun found =>
      let left := refs.filter (fun id => !found.1.getHyperlinks.contains id)
      if left.isEmpty then some (found.2, left) else pruneLoop count (y + 1) found.2 left

def pruneHyperlinks (storage : Storage) : Option (Storage × List Nat) :=
  (storage.getRow 0).bind fun found =>
    if found.1.getHyperlinks.isEmpty then some (found.2, [])
    else pruneLoop (storage.height - 1) 1 found.2 found.1.getHyperlinks.dedup

def advance (storage : Storage) : Storage :=
  { storage with firstRow := if storage.firstRow + 1 ≥ storage.height then 0 else storage.firstRow + 1 }

def incrementCircularBuffer (storage : Storage) (fillAttributes : TextAttribute) : Option (Storage × List Nat) :=
  storage.pruneHyperlinks.bind fun pruned =>
    (pruned.1.change 0 (fun row => row.reset fillAttributes)).map (fun storage => (storage.advance, pruned.2))

-- Exactly the rows in front of the watermark have been constructed.
structure Sound (storage : Storage) : Prop where
  tall : 0 < storage.height
  first : storage.firstRow < storage.height
  within : storage.commitWatermark ≤ storage.bufferEnd
  constructed : ∀ offset, (storage.slots offset).isSome ↔ offset < storage.commitWatermark

def stored (storage : Storage) (offset : Nat) : Row TextAttribute :=
  (storage.slots offset).getD (Row.construct storage.width storage.initialAttributes)

structure Grown (storage grown : Storage) : Prop where
  width : grown.width = storage.width
  height : grown.height = storage.height
  firstRow : grown.firstRow = storage.firstRow
  initialAttributes : grown.initialAttributes = storage.initialAttributes
  stored : grown.stored = storage.stored

theorem grown_refl {storage : Storage} : storage.Grown storage := ⟨rfl, rfl, rfl, rfl, rfl⟩

theorem grown_trans {first second third : Storage} (left : first.Grown second) (right : second.Grown third) : first.Grown third :=
  ⟨right.width.trans left.width, right.height.trans left.height, right.firstRow.trans left.firstRow,
    right.initialAttributes.trans left.initialAttributes, right.stored.trans left.stored⟩

theorem grown_offset {storage grown : Storage} (isGrown : storage.Grown grown) (y : Int) :
    grown.rowOffset y = storage.rowOffset y := by
  simp [rowOffset, isGrown.firstRow, isGrown.height]

section

variable (storage : Storage) (sound : storage.Sound)

include sound

theorem construct_grows (count : Nat) (room : storage.commitWatermark + count ≤ storage.bufferEnd) :
    (construct count storage).Sound ∧ storage.Grown (construct count storage) ∧
      (construct count storage).commitWatermark = storage.commitWatermark + count := by
  induction count generalizing storage with
  | zero => exact ⟨sound, grown_refl, rfl⟩
  | succ count ih =>
    obtain ⟨next, isNext⟩ : ∃ next, next = { storage with
        slots := Function.update storage.slots storage.commitWatermark
          (some (Row.construct storage.width storage.initialAttributes))
        commitWatermark := storage.commitWatermark + 1 } := ⟨_, rfl⟩
    have fresh : storage.slots storage.commitWatermark = none := by
      rw [← Option.not_isSome_iff_eq_none, sound.constructed]
      exact Nat.lt_irrefl _
    have nextSound : next.Sound := by
      rw [isNext]
      refine ⟨sound.tall, sound.first, by simp only [bufferEnd] at room ⊢; omega, ?_⟩
      intro offset
      by_cases same : offset = storage.commitWatermark
      · simp only [same, Function.update_self, Option.isSome_some, true_iff]
        exact Nat.lt_succ_self _
      · simp only [Function.update_of_ne same, sound.constructed]
        omega
    have nextGrown : storage.Grown next := by
      rw [isNext]
      refine ⟨rfl, rfl, rfl, rfl, funext fun offset => ?_⟩
      by_cases same : offset = storage.commitWatermark
      · simp [stored, same, fresh]
      · simp [stored, Function.update_of_ne same]
    have watermark : next.commitWatermark = storage.commitWatermark + 1 := by rw [isNext]
    have ended : next.bufferEnd = storage.bufferEnd := by rw [isNext]; rfl
    obtain ⟨lastSound, lastGrown, last⟩ := ih next nextSound (by omega)
    rw [construct, ← isNext]
    exact ⟨lastSound, grown_trans nextGrown lastGrown, by omega⟩

theorem commit_grows (missing : storage.commitWatermark ≤ row) :
    (storage.commit row).Sound ∧ storage.Grown (storage.commit row) ∧
      (storage.commit row).commitWatermark = min storage.bufferEnd (row + 1 + TextBuffer.commitReadAheadRowCount) := by
  have within := sound.within
  obtain ⟨grownSound, grown, watermark⟩ := construct_grows storage sound
    (min (storage.bufferEnd - storage.commitWatermark)
      (row + 1 - storage.commitWatermark + TextBuffer.commitReadAheadRowCount)) (by omega)
  rw [commit]
  exact ⟨grownSound, grown, by omega⟩

theorem get_direct_grows (offset : Nat) (inside : offset < storage.bufferEnd) :
    ∃ grown, storage.getRowByOffsetDirect offset = some (storage.stored offset, grown) ∧ grown.Sound ∧
    storage.Grown grown ∧ grown.commitWatermark = (if offset < storage.commitWatermark then storage.commitWatermark
        else min storage.bufferEnd (offset + 1 + TextBuffer.commitReadAheadRowCount)) ∧ offset < grown.commitWatermark := by
  have found (grown : Storage) (grownSound : grown.Sound) (isGrown : storage.Grown grown)
    (before : offset < grown.commitWatermark) :
      (grown.slots offset).map (fun row => (row, grown)) = some (storage.stored offset, grown) := by
    obtain ⟨row, isRow⟩ := Option.isSome_iff_exists.mp ((grownSound.constructed offset).mpr before)
    have same := congrFun isGrown.stored offset
    rw [stored, isRow] at same
    rw [isRow, ← same]
    rfl
  rw [getRowByOffsetDirect, if_neg (Nat.not_le.mpr inside)]
  by_cases missing : storage.commitWatermark ≤ offset
  · obtain ⟨grownSound, isGrown, watermark⟩ := commit_grows storage sound missing
    have before : offset < (storage.commit offset).commitWatermark := by omega
    refine ⟨storage.commit offset, ?_, grownSound, isGrown, ?_, before⟩
    · rw [if_pos missing]
      exact found _ grownSound isGrown before
    · rw [watermark, if_neg (Nat.not_lt.mpr missing)]
  · have before := Nat.lt_of_not_le missing
    refine ⟨storage, ?_, sound, grown_refl, by rw [if_pos before], before⟩
    rw [if_neg missing]
    exact found storage sound grown_refl before

theorem row_offset_eq (y : Int) : storage.rowOffset y = ((storage.firstRow + y) % storage.height).toNat + 1 := by
  have positive : (0 : Int) < storage.height := Int.natCast_pos.mpr sound.tall
  rw [rowOffset]
  generalize (storage.firstRow : Int) + y = sum
  have low := Int.emod_nonneg sum (Int.ne_of_gt positive)
  have high := Int.emod_lt_of_pos sum positive
  have remainder : sum.tmod storage.height = sum % storage.height ∨
    sum.tmod storage.height = sum % storage.height - storage.height := by
    rw [Int.tmod_eq_emod]
    split <;> omega
  rcases remainder with same | same
  · split <;> omega
  · split <;> omega

theorem row_offset_bounds (y : Int) : 0 < storage.rowOffset y ∧ storage.rowOffset y < storage.bufferEnd := by
  have positive : (0 : Int) < storage.height := Int.natCast_pos.mpr sound.tall
  have high := Int.emod_lt_of_pos (storage.firstRow + y) positive
  rw [row_offset_eq storage sound, bufferEnd]
  omega

theorem row_offset_wraps {y other : Int} (same : y % storage.height = other % storage.height) :
    storage.rowOffset y = storage.rowOffset other := by
  simp [row_offset_eq storage sound, Int.add_emod, same]

theorem row_offset_injective {y other : Int} (low : 0 ≤ y) (high : y < storage.height) (otherLow : 0 ≤ other)
    (otherHigh : other < storage.height) (same : storage.rowOffset y = storage.rowOffset other) : y = other := by
  have positive : (0 : Int) < storage.height := Int.natCast_pos.mpr sound.tall
  rw [row_offset_eq storage sound, row_offset_eq storage sound] at same
  have left := Int.emod_nonneg (storage.firstRow + y) (Int.ne_of_gt positive)
  have right := Int.emod_nonneg (storage.firstRow + other) (Int.ne_of_gt positive)
  have equal : (storage.firstRow + y) % storage.height = (storage.firstRow + other) % storage.height := by omega
  have congruent := Int.emod_add_cancel_left.mp equal
  rw [Int.emod_eq_of_lt low high, Int.emod_eq_of_lt otherLow otherHigh] at congruent
  exact congruent

theorem get_row_grows (y : Int) :
    ∃ grown, storage.getRow y = some (storage.stored (storage.rowOffset y), grown) ∧ grown.Sound ∧ storage.Grown grown ∧
      grown.commitWatermark = (if storage.rowOffset y < storage.commitWatermark then storage.commitWatermark
        else min storage.bufferEnd (storage.rowOffset y + 1 + TextBuffer.commitReadAheadRowCount)) ∧
      storage.rowOffset y < grown.commitWatermark :=
  get_direct_grows storage sound _ (row_offset_bounds storage sound y).2

end

theorem put_sound {storage : Storage} (sound : storage.Sound) (constructed : offset < storage.commitWatermark)
    : (storage.put offset row).Sound := by
  refine ⟨sound.tall, sound.first, sound.within, ?_⟩
  intro other
  by_cases same : other = offset
  · simp [put, same, constructed]
  · simp [put, Function.update_of_ne same, sound.constructed]

theorem put_stored (storage : Storage) (offset : Nat) (row : Row TextAttribute) :
    (storage.put offset row).stored = Function.update storage.stored offset row := by
  funext other
  by_cases same : other = offset
  · simp [stored, put, same]
  · simp [stored, put, Function.update_of_ne same]

theorem prune_loop_grows (count : Nat) (y : Int) (storage : Storage) (sound : storage.Sound) (refs : List Nat) :
    ∃ grown left, pruneLoop count y storage refs = some (grown, left) ∧ grown.Sound ∧ storage.Grown grown := by
  induction count generalizing y storage refs with
  | zero => exact ⟨storage, refs, rfl, sound, grown_refl⟩
  | succ count ih =>
    obtain ⟨grown, found, grownSound, isGrown, _⟩ := get_row_grows storage sound y
    rw [pruneLoop, found, Option.bind_some]
    by_cases none : (refs.filter (fun id => !(storage.stored (storage.rowOffset y)).getHyperlinks.contains id)).isEmpty = true
    · exact ⟨grown, _, if_pos none, grownSound, isGrown⟩
    obtain ⟨last, left, ends, lastSound, lastGrown⟩ := ih (y + 1) grown grownSound _
    refine ⟨last, left, ?_, lastSound, grown_trans isGrown lastGrown⟩
    rw [if_neg none]
    exact ends

theorem prune_grows {storage : Storage} (sound : storage.Sound) :
    ∃ grown left, storage.pruneHyperlinks = some (grown, left) ∧ grown.Sound ∧ storage.Grown grown := by
  obtain ⟨grown, found, grownSound, isGrown, _⟩ := get_row_grows storage sound 0
  rw [pruneHyperlinks, found, Option.bind_some]
  by_cases none : (storage.stored (storage.rowOffset 0)).getHyperlinks.isEmpty = true
  · exact ⟨grown, [], if_pos none, grownSound, isGrown⟩
  obtain ⟨last, left, ends, lastSound, lastGrown⟩ := prune_loop_grows (storage.height - 1) 1 grown grownSound
    (storage.stored (storage.rowOffset 0)).getHyperlinks.dedup
  refine ⟨last, left, ?_, lastSound, grown_trans isGrown lastGrown⟩
  rw [if_neg none]
  exact ends

end Storage

end Cogterm.Buffer
