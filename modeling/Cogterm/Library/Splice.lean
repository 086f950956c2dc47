import Mathlib.Data.List.Basic

namespace Cogterm.Library

open List

variable {α : Type}

def eraseRange (items : List α) (first last : Nat) : List α := items.take first ++ items.drop last
def insertAt (items : List α) (position : Nat) (extra : List α) : List α := items.take position ++ extra ++ items.drop position

def overwriteAt (items : List α) (position : Nat) (source : List α) : List α :=
  items.take position ++ source ++ items.drop (position + source.length)

theorem take_overwrite (items source : List α) (position : Nat) (inside : position ≤ items.length) :
    (overwriteAt items position source).take (position + source.length) = items.take position ++ source := by
  have length : (items.take position ++ source).length = position + source.length := by simp [inside]
  rw [overwriteAt, ← length, take_left]

theorem take_overwrite_before {count : Nat} (order : count ≤ position)
    (inside : position ≤ items.length) : (overwriteAt items position source).take count = items.take count := by
  have room : count ≤ (items.take position).length := by
    rw [length_take_of_le inside]
    exact order
  simp [overwriteAt, take_append_of_le_length room, take_take, Nat.min_eq_left order]

theorem drop_overwrite (items source : List α) (position extra : Nat) (inside : position ≤ items.length) :
    (overwriteAt items position source).drop (position + source.length + extra) =
      items.drop (position + source.length + extra) := by
  have length : (items.take position ++ source).length = position + source.length := by simp [inside]
  rw [overwriteAt, ← length, drop_append]
  simp

theorem drop_further {left right : List α} (same : left.drop mark = right.drop mark)
    (order : mark ≤ further) : left.drop further = right.drop further := by
  obtain ⟨extra, rfl⟩ := Nat.exists_eq_add_of_le order
  rw [← drop_drop, same, drop_drop]

theorem overwrite_length (inside : position + source.length ≤ items.length) :
    (overwriteAt items position source).length = items.length := by
  simp only [overwriteAt, length_append, length_take, length_drop]
  omega

theorem set_is_overwrite (inside : position < items.length) : items.set position value = overwriteAt items position [value] := by
  simp [set_eq_take_append_cons_drop, if_pos inside, overwriteAt]

theorem overwrite_set_behind (behind : position + source.length ≤ other) (inside : other < items.length) :
    overwriteAt (items.set other value) position source = (overwriteAt items position source).set other value := by
  obtain ⟨extra, rfl⟩ := Nat.exists_eq_add_of_le behind
  have length : (items.take position ++ source).length = position + source.length := by
    rw [length_append, length_take_of_le (by omega)]
  rw [overwriteAt, overwriteAt, take_set_of_le (by omega), drop_set, if_neg (by omega), set_append_right _ _ (by simp [length]),
    length]

theorem overwrite_set_over (some : 0 < source.length) :
    overwriteAt (items.set position value) position source = overwriteAt items position source := by
  rw [overwriteAt, overwriteAt, take_set_of_le (Nat.le_refl _), drop_set_of_lt (by omega)]

theorem overwrite_overwrite (items first second : List α) (position : Nat) (inside : position ≤ items.length) :
    overwriteAt (overwriteAt items position first) (position + first.length) second =
      overwriteAt items position (first ++ second) := by
  have dropped := drop_overwrite items first position second.length inside
  rw [overwriteAt, take_overwrite items first position inside, dropped, overwriteAt, Nat.add_assoc]
  simp

theorem drop_at_overwrite (inside : position ≤ items.length) :
    (overwriteAt items position source).drop position = source ++ items.drop (position + source.length) := by
  simpa [overwriteAt] using drop_left' (length_take_of_le inside)

theorem overwrite_nothing : overwriteAt items position [] = items := by
  simp [overwriteAt]

theorem overwrite_append (inside : position + source.length ≤ left.length) :
    overwriteAt (left ++ right) position source = overwriteAt left position source ++ right := by
  rw [overwriteAt, overwriteAt, take_append_of_le_length (by omega), drop_append_of_le_length inside]
  simp

theorem overwrite_middle (left : List α) (right : List α) (same : source.length = middle.length) :
    overwriteAt (left ++ middle ++ right) left.length source = left ++ source ++ right := by
  have finish : left.length + source.length = (left ++ middle).length := by simp [same]
  simp [overwriteAt, finish]

theorem overwrite_same : overwriteAt (left ++ source ++ right) left.length source = left ++ source ++ right :=
  overwrite_middle left right rfl

theorem overwrite_end (items source : List α) (position : Nat) (isEnd : position + source.length = items.length) :
    overwriteAt items position source = items.take position ++ source := by
  simp [overwriteAt, isEnd]

theorem overwrite_gap (after first second third : List α) (isBefore : items.take before.length = before)
    (isAfter : items.drop (before.length + first.length + second.length + third.length) = after)
    (room : before.length + first.length + second.length + third.length ≤ items.length) :
    overwriteAt (overwriteAt (overwriteAt items (before.length + first.length) second) before.length first)
        (before.length + first.length + second.length) third = before ++ first ++ second ++ third ++ after := by
  obtain ⟨gap, isGap, length⟩ :
    ∃ gap, items = before ++ gap ++ after ∧ gap.length = first.length + (second.length + third.length) := by
    refine ⟨(items.drop before.length).take (first.length + (second.length + third.length)), ?_, ?_⟩
    · have rest : after = (items.drop before.length).drop (first.length + (second.length + third.length)) := by
        rw [← isAfter, drop_drop]
        congr 1
        omega
      rw [append_assoc, rest, take_append_drop]
      nth_rewrite 1 [← isBefore]
      simp
    · rw [length_take_of_le]
      rw [length_drop]
      omega
  obtain ⟨one, two, three, isParts, oneLength, twoLength, threeLength⟩ : ∃ one two three, gap = one ++ (two ++ three) ∧
      first.length = one.length ∧ second.length = two.length ∧ third.length = three.length := by
    refine ⟨gap.take first.length, (gap.drop first.length).take second.length, (gap.drop first.length).drop second.length,
      ?_, ?_, ?_, ?_⟩
    · rw [take_append_drop, take_append_drop]
    · rw [length_take]
      omega
    · rw [length_take, length_drop]
      omega
    · rw [length_drop, length_drop]
      omega
  have atSecond := overwrite_middle (before ++ one) (three ++ after) twoLength
  have atFirst := overwrite_middle before (second ++ (three ++ after)) oneLength
  have atThird := overwrite_middle (before ++ first ++ second) after threeLength
  simp only [length_append, append_assoc, ← oneLength, ← Nat.add_assoc] at atSecond atFirst atThird
  rw [isGap, isParts]
  simp only [append_assoc]
  rw [atSecond, atFirst, atThird]

theorem copy_then_erase (inside : last ≤ items.length) (room : first + source.length ≤ last) :
    eraseRange (overwriteAt items first source) (first + source.length) last = items.take first ++ source ++ items.drop last := by
  obtain ⟨extra, rfl⟩ := Nat.exists_eq_add_of_le room
  rw [eraseRange, take_overwrite items source first (by omega), drop_overwrite items source first extra (by omega)]

theorem copy_then_insert (inside : first + space ≤ items.length) (short : space ≤ source.length) :
    insertAt (overwriteAt items first (source.take space)) (first + space) (source.drop space) =
      items.take first ++ source ++ items.drop (first + space) := by
  have length : (source.take space).length = space := length_take_of_le short
  have taken := take_overwrite items (source.take space) first (by omega)
  have dropped := drop_overwrite items (source.take space) first 0 (by omega)
  rw [length] at taken dropped
  rw [insertAt, taken, ← Nat.add_zero (first + space), dropped, append_assoc (items.take first), take_append_drop]

theorem modify_append_length (before after : List α) (item : α) (change : α → α) :
    (before ++ item :: after).modify before.length change = before ++ change item :: after := by
  induction before with
  | nil => rfl
  | cons head tail ih => simpa using ih

end Cogterm.Library
