import Mathlib.Data.List.Basic

namespace Cogterm.Til

open List Function

-- Raw memory can be assigned to, but only a constructor begins a lifetime.
structure Slot (α : Type) where
  value : Option α
  constructed : Nat
  destroyed : Nat

abbrev Slots (α : Type) := Nat → Slot α

variable {α : Type}

def Slot.isLive (slot : Slot α) : Bool := slot.constructed = slot.destroyed + 1
def Slot.construct (slot : Slot α) (value : Option α) : Slot α := ⟨value, slot.constructed + 1, slot.destroyed⟩
def Slot.assign (slot : Slot α) (value : Option α) : Slot α := { slot with value }
def Slot.destroy (slot : Slot α) : Slot α := ⟨none, slot.constructed, slot.destroyed + 1⟩

-- What a moved value leaves behind is up to its type.
def moveItems (leave : α → α) (build : Slot α → Option α → Slot α) (source target : Nat) (order : List Nat)
    (slots : Slots α) : Slots α :=
  order.foldl (fun slots index =>
    let item := slots (source + index)
    let left := update slots (source + index) (item.assign (item.value.map leave))
    update left (target + index) (build (left (target + index)) item.value)) slots

def destroyRange (first last : Nat) (slots : Slots α) : Slots α :=
  (range' first (last - first)).foldl (fun slots index => update slots index (slots index).destroy) slots

-- What insert passes on: each item is constructed from its value, or its constructor
-- throws and the items in front of it are destroyed.
def constructAll (first : Nat) : List (Option α) → Nat → Slots α → Slots α × Bool
  | [], _, slots => (slots, false)
  | none :: _, done, slots => (destroyRange first (first + done) slots, true)
  | some value :: rest, done, slots =>
    constructAll first rest (done + 1) (update slots (first + done) ((slots (first + done)).construct (some value)))

structure Storage (α : Type) where
  slots : Slots α
  capacity : Nat
  size : Nat

structure SmallVector (α : Type) extends Storage α where
  inside : size ≤ capacity
  live : ∀ index < size, (slots index).constructed = (slots index).destroyed + 1
  raw : ∀ index, size ≤ index → (slots index).constructed = (slots index).destroyed

namespace SmallVector

-- The items move to new storage; in the old one they are destroyed.
def grow (vector : SmallVector α) (capacity : Nat) (enough : vector.size ≤ capacity) : SmallVector α where
  slots index := if index < vector.size then ⟨(vector.slots index).value, 1, 0⟩ else ⟨none, 0, 0⟩
  capacity := capacity
  size := vector.size
  inside := enough
  live index inside := by simp [inside]
  raw index outside := by simp [Nat.not_lt.mpr outside]

-- An allocation throws above max_size and when there is no memory.
def ensureFits (allocates : Nat → Bool) (vector : SmallVector α) (add : Nat) : Option (SmallVector α) :=
  let newSize := vector.size + add
  let newCap := max newSize (vector.capacity + vector.capacity / 2)
  if newSize > 0xFFFFFFFFFFFFFFFF then none
  else if newSize > vector.capacity then if allocates newCap then some (vector.grow newCap (by omega)) else none
  else some vector

inductive Outcome where
  | inserted
  | refused
  | threw
deriving DecidableEq, Repr

def genericInsert (allocates : Nat → Bool) (leave : α → α) (vector : SmallVector α) (offset : Fin (vector.size + 1))
    (values : List (Option α)) : Storage α × Outcome :=
  match vector.ensureFits allocates values.length with
  | none => (vector.toStorage, .refused)
  | some grown =>
    let count := values.length
    let newSize := grown.size + count
    let moveable := grown.size - offset
    let displacement := min count moveable
    let slots := moveItems leave .construct (grown.size - displacement) (newSize - displacement) (range displacement) grown.slots
    let slots := moveItems leave .assign offset (newSize - displacement - (moveable - displacement))
      (range (moveable - displacement)).reverse slots
    match constructAll offset values 0 (destroyRange offset (offset + displacement) slots) with
    | (slots, false) => (⟨slots, grown.capacity, newSize⟩, .inserted)
    | (slots, true) =>
      let slots := moveItems leave .assign (offset + count) offset (range (newSize - (offset + count))) slots
      (⟨destroyRange (offset + displacement) newSize slots, grown.capacity, grown.size⟩, .threw)

structure Recovered (before : SmallVector α) (offset : Nat) (after : Storage α) : Prop where
  kept : ∀ index < offset, (after.slots index).value = (before.slots index).value
  constructed : (range after.size).countP (fun index => (after.slots index).isLive) = after.size
  balanced : ∀ index, (after.slots index).destroyed + (after.slots index).isLive.toNat = (after.slots index).constructed
  erased : after.size = offset ∨
    after.size = before.size ∧ ∀ index < before.size, (after.slots index).value = (before.slots index).value

end SmallVector

def Slot.balance (slot : Slot α) : Int := slot.constructed - slot.destroyed

theorem live_balance (slot : Slot α) : slot.isLive = true ↔ slot.balance = 1 := by
  simp only [Slot.isLive, Slot.balance, decide_eq_true_eq]
  omega

theorem balance_nonneg {slot : Slot α} (balanced : slot.destroyed + slot.isLive.toNat = slot.constructed) :
    0 ≤ slot.balance := by
  rw [Slot.balance]
  omega

theorem assign_balance (slot : Slot α) (value : Option α) : (slot.assign value).balance = slot.balance := rfl

theorem destroy_range_balance (first last : Nat) (slots : Slots α) (index : Nat) :
    (destroyRange first last slots index).balance = (slots index).balance - if first ≤ index ∧ index < last then 1
    else 0 := by
  rw [destroyRange]
  generalize isCount : last - first = count
  induction count generalizing first slots with
  | zero => simp; omega
  | succ count ih =>
    have destroyed : (slots first).destroy.balance = (slots first).balance - 1 := by simp [Slot.balance, Slot.destroy]; omega
    rw [range'_succ, foldl_cons, ih (first + 1) _ (by omega), update_apply]
    grind

theorem move_items_balance {build : Slot α → Option α → Slot α} {index : Nat}
    (keeps : index < target ∨ ∀ slot value, (build slot value).balance = slot.balance) (order : List Nat) (slots : Slots α) :
    (moveItems leave build source target order slots index).balance = (slots index).balance := by
  induction order generalizing slots with
  | nil => rfl
  | cons place rest ih =>
    rw [moveItems, foldl_cons, ← moveItems, ih]
    grind [update_apply, assign_balance]

-- A constructor that throws leaves the lifetimes as they were.
theorem construct_all_balance {slots : Slots α} (built : constructAll first values done slots = (result, threw)) :
    (threw = true ↔ none ∈ values) ∧ ∀ index, threw = true →
      (result index).balance = (slots index).balance - if first ≤ index ∧ index < first + done then 1 else 0 := by
  induction values generalizing done slots with
  | nil => grind [constructAll]
  | cons value rest ih =>
    cases value with
    | none =>
      obtain ⟨rfl, rfl⟩ := Prod.mk.inj built
      simp [destroy_range_balance]
    | some value =>
      have constructed (slot : Slot α) : (slot.construct (some value)).balance = slot.balance + 1 := by
        simp [Slot.balance, Slot.construct]; omega
      obtain ⟨thrown, balance⟩ := ih built
      refine ⟨by simpa using thrown, fun index threw => ?_⟩
      rw [balance index threw, update_apply]
      grind

theorem ensure_fits_size {vector grown : SmallVector α} (fits : vector.ensureFits allocates add = some grown) :
    grown.size = vector.size := by
  simp only [SmallVector.ensureFits] at fits
  grind [SmallVector.grow]

-- The place at the position is empty when the tail is moved back by assignment.
theorem insert_recovers_iff (allocates : Nat → Bool) (leave : α → α) (vector : SmallVector α)
    (offset : Fin (vector.size + 1)) (values : List (Option α)) :
    ((vector.genericInsert allocates leave offset values).2 = .threw →
        vector.Recovered offset (vector.genericInsert allocates leave offset values).1) ↔
      none ∉ values ∨ vector.ensureFits allocates values.length = none := by
  generalize isResult : vector.genericInsert allocates leave offset values = result
  rw [SmallVector.genericInsert] at isResult
  cases fits : vector.ensureFits allocates values.length with
  | none => simp [← isResult, fits]
  | some grown =>
    have sameSize := ensure_fits_size fits
    simp only [fits] at isResult
    split at isResult
    · rename_i built
      simp [← isResult, ← (construct_all_balance built).1]
    · rename_i built
      obtain ⟨thrown, balance⟩ := construct_all_balance built
      have some := length_pos_of_mem (thrown.mp rfl)
      have last := balance offset rfl
      rw [destroy_range_balance, move_items_balance (.inr assign_balance), move_items_balance (.inl (by omega))] at last
      subst isResult
      refine iff_of_false (fun recovers => ?_) (by simpa using thrown.mp rfl)
      have recovered := recovers rfl
      by_cases before : offset.1 < grown.size
      · have live := countP_eq_length.mp (by simpa using recovered.constructed) offset.1 (mem_range.mpr before)
        have first := (live_balance (grown.slots offset)).mp (by simp [Slot.isLive, grown.live offset before])
        rw [live_balance, destroy_range_balance, move_items_balance (.inr assign_balance)] at live
        grind
      · have nonneg := balance_nonneg (recovered.balanced offset)
        have first : (grown.slots offset).balance = 0 := by simp [Slot.balance, grown.raw offset (by omega)]
        rw [destroy_range_balance, move_items_balance (.inr assign_balance)] at nonneg
        grind

def twoItems : SmallVector Nat where
  slots index := if index < 2 then ⟨index, 1, 0⟩ else ⟨none, 0, 0⟩
  capacity := 3
  size := 2
  inside := by decide
  live index inside := by simp [inside]
  raw index outside := by simp [Nat.not_lt.mpr outside]

-- Nothing is left of the two items in front of which a copy fails, but they are counted.
theorem failed_copy_counts_destroyed :
    ¬ ((twoItems.genericInsert (fun _ => true) id 0 [none]).2 = .threw →
      twoItems.Recovered 0 (twoItems.genericInsert (fun _ => true) id 0 [none]).1) := by
  intro recovers
  exact absurd (recovers (by decide)).constructed (by decide)

end Cogterm.Til
