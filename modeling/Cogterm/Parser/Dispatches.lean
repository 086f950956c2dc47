import Mathlib.Data.Nat.Digits.Lemmas
import Cogterm.Parser.ActionCodes
import Cogterm.Parser.Machine

namespace Cogterm.VirtualTerminal

open VTIDBuilder List Nat

variable {collected code : List WChar}

section

def isCollectable (wch : WChar) : Prop := 0x20 ≤ wch ∧ wch ≤ 0x3F

-- A builder as the parser fills it: from clear, by private markers and intermediates.
structure Collected (builder : VTIDBuilder) : Prop where
  built : builder = builder.collected.foldl addIntermediate clear
  collectable : ∀ wch ∈ builder.collected, isCollectable wch

theorem collected_clear : Collected clear := ⟨rfl, by simp [clear]⟩

theorem add_intermediate_collected (builder : VTIDBuilder) (wch : WChar) :
    (builder.addIntermediate wch).collected = builder.collected ++ [wch] := by
  unfold addIntermediate
  split <;> rfl

variable {builder : VTIDBuilder} {wch : WChar}

theorem collected_add (collected : Collected builder) (collectable : isCollectable wch) :
    Collected (builder.addIntermediate wch) := by
  refine ⟨?_, ?_⟩
  · simp [add_intermediate_collected, ← collected.built]
  · rw [add_intermediate_collected]
    intro other member
    rcases mem_append.mp member with old | new
    · exact collected.collectable other old
    · rw [mem_singleton.mp new]
      exact collectable

-- Codes and identifiers are little endian numbers of base 256.
def digitsOf (s : List WChar) : List Nat := s.map (fun wch => wch.toNat)

theorem from_string_digits (s : List WChar) : fromString s = ofDigits 256 (digitsOf s) := by
  induction s with
  | nil => rfl
  | cons head tail ih =>
    have unfolded : fromString (head :: tail) = fromString tail * 256 + head.toNat := rfl
    rw [unfolded, ih, digitsOf, digitsOf, map_cons, ofDigits_cons]
    omega

def IsByte (wch : WChar) : Prop := wch.toNat < 256

theorem digits_of_lt (bytes : ∀ wch ∈ s, IsByte wch) : ∀ digit ∈ digitsOf s, digit < 256 := by
  intro digit member
  obtain ⟨wch, inside, rfl⟩ := mem_map.mp member
  exact bytes wch inside

theorem digits_of_injective (s t : List WChar) (same : digitsOf s = digitsOf t) : s = t := by
  apply map_injective_iff.mpr _ same
  intro a b equal
  exact UInt16.toNat_inj.mp equal

theorem builder_fold (bytes : ∀ wch ∈ collected, IsByte wch) (short : collected.length ≤ 6) :
    collected.foldl addIntermediate clear = ⟨ofDigits 256 (digitsOf collected), 8 * collected.length, collected⟩ := by
  induction collected using List.reverseRecOn with
  | nil => rfl
  | append_singleton earlier wch ih =>
    rw [length_append, length_singleton] at short
    have before := ih (fun c member => bytes c (mem_append_left _ member)) (by omega)
    have room : ¬ 8 * earlier.length + 8 * 2 ≥ 64 := by omega
    have digits : ofDigits 256 (digitsOf (earlier ++ [wch])) =
        ofDigits 256 (digitsOf earlier) + 256 ^ earlier.length * wch.toNat := by
      simp [digitsOf, ofDigits_append]
    have small : ofDigits 256 (digitsOf (earlier ++ [wch])) < 2 ^ 64 := by
      have bound := ofDigits_lt_base_pow_length (b := 256) (l := digitsOf (earlier ++ [wch])) (by decide)
        (digits_of_lt bytes)
      have length : (digitsOf (earlier ++ [wch])).length ≤ 6 := by simpa [digitsOf] using short
      exact Nat.lt_of_lt_of_le bound (Nat.le_trans (Nat.pow_le_pow_right (by decide) length) (by decide))
    have power : 2 ^ (8 * earlier.length) = 256 ^ earlier.length := by rw [Nat.pow_mul]
    rw [foldl_append, before, foldl_cons, foldl_nil, addIntermediate, if_neg room, power,
      mul_comm wch.toNat, ← digits, mod_eq_of_lt small, length_append, length_singleton, mul_add]

theorem builder_fold_overflow (bytes : ∀ wch ∈ collected, IsByte wch)
    (long : 6 < collected.length) : collected.foldl addIntermediate clear = ⟨0, 48, collected⟩ := by
  induction collected using List.reverseRecOn with
  | nil => simp at long
  | append_singleton earlier wch ih =>
    have earlierBytes : ∀ c ∈ earlier, IsByte c := fun c member => bytes c (mem_append_left _ member)
    rw [length_append, length_singleton] at long
    by_cases exact' : earlier.length = 6
    · simp [builder_fold earlierBytes (by omega), addIntermediate, exact']
    · simp [ih earlierBytes (by omega), addIntermediate]

def lowByte (wch : WChar) : WChar := wch % 256
def highByte (wch : WChar) : WChar := wch / 256

theorem bytes_of_wide (wch : WChar) :
    IsByte (lowByte wch) ∧ IsByte (highByte wch) ∧ wch.toNat = (lowByte wch).toNat + 256 * (highByte wch).toNat := by
  have bound := wch.toNat_lt
  refine ⟨?_, ?_, ?_⟩
  · exact mod_lt _ (by decide)
  · exact Nat.div_lt_of_lt_mul bound
  · exact (mod_add_div wch.toNat 256).symm

theorem collectable_byte (collectable : isCollectable wch) : IsByte wch ∧ wch ≠ 0 := by
  obtain ⟨low, high⟩ := collectable
  refine ⟨?_, ?_⟩
  · exact lt_of_le_of_lt high (by decide)
  · rintro rfl
    exact absurd low (by decide)

theorem collected_bytes (collected : Collected builder) : ∀ wch ∈ builder.collected, IsByte wch :=
  fun wch member => (collectable_byte (collected.collectable wch member)).1

theorem from_string_append (s t : List WChar) : fromString (s ++ t) = fromString s + 256 ^ s.length * fromString t := by
  simp [from_string_digits, digitsOf, ofDigits_append]

theorem from_string_lt (s : List WChar) (bytes : ∀ wch ∈ s, IsByte wch) : fromString s < 256 ^ s.length := by
  have bound := ofDigits_lt_base_pow_length (b := 256) (l := digitsOf s) (by decide) (digits_of_lt bytes)
  rw [from_string_digits]
  simpa [digitsOf] using bound

theorem from_string_injective (s t : List WChar) (sBytes : ∀ wch ∈ s, IsByte wch) (tBytes : ∀ wch ∈ t, IsByte wch)
    (sEnd : ∀ nonempty : s ≠ [], s.getLast nonempty ≠ 0) (tEnd : ∀ nonempty : t ≠ [], t.getLast nonempty ≠ 0)
    (same : fromString s = fromString t) : s = t := by
  have ends (u : List WChar) (uEnd : ∀ nonempty : u ≠ [], u.getLast nonempty ≠ 0) :
      ∀ nonempty : digitsOf u ≠ [], (digitsOf u).getLast nonempty ≠ 0 := by
    intro nonempty zero
    have inner : u ≠ [] := by simpa [digitsOf] using nonempty
    apply uEnd inner
    have last : (digitsOf u).getLast nonempty = (u.getLast inner).toNat := getLast_map ..
    exact UInt16.toNat_inj.mp (last.symm.trans zero)
  have sDigits := digits_ofDigits 256 (by decide) (digitsOf s) (digits_of_lt sBytes) (ends s sEnd)
  have tDigits := digits_ofDigits 256 (by decide) (digitsOf t) (digits_of_lt tBytes) (ends t tEnd)
  rw [from_string_digits, from_string_digits] at same
  apply digits_of_injective
  rw [← sDigits, same, tDigits]

theorem finalize_value (collected : Collected builder) (short : builder.collected.length ≤ 5) :
    (builder.finalize final).value = fromString (builder.collected ++ [lowByte final, highByte final]) := by
  obtain ⟨lowBound, highBound, split⟩ := bytes_of_wide final
  have bytes := collected_bytes collected
  have built : builder = _ := collected.built.trans (builder_fold bytes (by omega))
  have shifted : 2 ^ (8 * builder.collected.length) = 256 ^ builder.collected.length := by rw [Nat.pow_mul]
  have tail : fromString [lowByte final, highByte final] = final.toNat := by
    simp only [fromString, foldr_cons, foldr_nil]
    omega
  have whole : ofDigits 256 (digitsOf builder.collected) + final.toNat * 256 ^ builder.collected.length =
      fromString (builder.collected ++ [lowByte final, highByte final]) := by
    rw [from_string_append, tail, from_string_digits, mul_comm]
  have small : fromString (builder.collected ++ [lowByte final, highByte final]) < 2 ^ 56 := by
    have bound := from_string_lt (builder.collected ++ [lowByte final, highByte final]) (by
      intro wch member
      rcases mem_append.mp member with old | new
      · exact bytes wch old
      simp only [mem_cons, not_mem_nil, or_false] at new
      rcases new with rfl | rfl
      · exact lowBound
      · exact highBound)
    have length : (builder.collected ++ [lowByte final, highByte final]).length ≤ 7 := by simpa using short
    exact Nat.lt_of_lt_of_le bound (Nat.le_trans (Nat.pow_le_pow_right (by decide) length) (by decide))
  have value : (builder.finalize final).value =
      (ofDigits 256 (digitsOf builder.collected) + final.toNat * 2 ^ (8 * builder.collected.length)) % 2 ^ 64 % 2 ^ 56 := by
    conv => lhs; rw [built]
    rfl
  rw [value, shifted, whole, mod_eq_of_lt (lt_trans small (by decide)), mod_eq_of_lt small]

theorem code_bytes (wellFormed : WellFormedCode code) :
    (∀ wch ∈ code, IsByte wch) ∧ ∀ nonempty : code ≠ [], code.getLast nonempty ≠ 0 := by
  have printable (wch : WChar) (member : wch ∈ code) : 0x20 ≤ wch.toNat ∧ wch.toNat ≤ 0x7E := by
    obtain ⟨low, high⟩ := wellFormed.ascii wch member
    exact ⟨UInt16.le_iff_toNat_le.mp low, UInt16.le_iff_toNat_le.mp high⟩
  refine ⟨?_, ?_⟩
  · intro wch member
    exact lt_of_le_of_lt (printable wch member).2 (by decide)
  · intro nonempty zero
    have low := (printable _ (getLast_mem nonempty)).1
    rw [zero] at low
    exact absurd low (by decide)

theorem collected_end (collected : Collected builder) :
    ∀ nonempty : builder.collected ≠ [], builder.collected.getLast nonempty ≠ 0 :=
  fun nonempty => (collectable_byte (collected.collectable _ (getLast_mem nonempty))).2

-- With six or more intermediates no code fits: the final then sits above bit 48,
-- and what is below it is too long for a code, or nothing at all.
theorem finalize_value_large (collected : Collected builder) (long : 6 ≤ builder.collected.length)
    (wellFormed : WellFormedCode code) : (builder.finalize final).value ≠ fromString code := by
  intro equal
  have bytes := collected_bytes collected
  obtain ⟨codeBytes, codeEnd⟩ := code_bytes wellFormed
  have codeSmall : fromString code < 2 ^ 48 := by
    have bound := Nat.pow_le_pow_right (show 0 < 256 by decide) wellFormed.short
    exact lt_of_lt_of_le (from_string_lt code codeBytes) (le_trans bound (by decide))
  have below (accumulator : Nat) (small : accumulator < 2 ^ 48)
      (value : (builder.finalize final).value = (accumulator + final.toNat * 2 ^ 48) % 2 ^ 64 % 2 ^ 56) :
      fromString code = accumulator := by
    omega
  by_cases full : builder.collected.length = 6
  · have built : builder = _ := collected.built.trans (builder_fold bytes (by omega))
    have same := below (fromString builder.collected) (by
      have bound := from_string_lt builder.collected bytes
      rw [full] at bound
      exact bound) (by
      conv => lhs; rw [built]
      rw [from_string_digits, finalize, full])
    have spelled := from_string_injective code builder.collected codeBytes bytes codeEnd (collected_end collected) same
    have short := wellFormed.short
    rw [spelled] at short
    omega
  · have built : builder = _ := collected.built.trans (builder_fold_overflow bytes (by omega))
    have same := below 0 (by decide) (by
      conv => lhs; rw [built]
      rfl)
    have empty := from_string_injective code [] codeBytes (by simp) codeEnd (by simp) same
    exact wellFormed.nonempty empty

end

def dispatchOf : Action → Option (SequenceKind × VTID)
  | .escDispatch id => some (.esc, id)
  | .csiDispatch id _ => some (.csi, id)
  | .dcsDispatch id _ => some (.dcs, id)
  | _ => none

-- NUL reaches a dispatch only as a device control final, or with nothing collected.
def Sound (kind : SequenceKind) (id : VTID) : Prop :=
  ∃ builder final, Collected builder ∧ id = builder.finalize final ∧ (final = 0 → kind = .dcs ∨ builder.collected = [])

def SoundAction (action : Action) : Prop := ∀ kind id, dispatchOf action = some (kind, id) → Sound kind id

def NamesItsCode (kind : SequenceKind) (id : VTID) : Prop :=
  ∀ code, IsCode kind code → id.value = fromString code → id.spelling = code

def WideFinalCompletesCode (kind : SequenceKind) (id : VTID) : Prop :=
  ∃ collected final, id.spelling = collected ++ [final] ∧ 0x100 ≤ final ∧
    IsCode kind (collected ++ [lowByte final, highByte final])

theorem wide_final_bytes (wide : 0x100 ≤ final) : highByte final ≠ 0 := by
  intro zero
  obtain ⟨lowBound, _, split⟩ := bytes_of_wide final
  have large := UInt16.le_iff_toNat_le.mp wide
  have bound : (0x100 : WChar).toNat = 256 := rfl
  have none : (0 : WChar).toNat = 0 := rfl
  rw [IsByte] at lowBound
  rw [zero] at split
  omega

theorem narrow_final_bytes (narrow : ¬ 0x100 ≤ final) : lowByte final = final ∧ highByte final = 0 := by
  have small : final.toNat < 256 := by exact Nat.not_le.mp narrow
  refine ⟨?_, ?_⟩
  · apply UInt16.toNat_inj.mp
    exact Nat.mod_eq_of_lt small
  · apply UInt16.toNat_inj.mp
    exact Nat.div_eq_of_lt small

theorem wide_final_not_code (isCode : IsCode kind code) (wide : 0x100 ≤ final) : collected ++ [final] ≠ code := by
  intro same
  have narrow := ((is_code_well_formed isCode).ascii final (by simp [← same])).2
  rw [UInt16.le_iff_toNat_le] at narrow wide
  have low : (0x7E : WChar).toNat = 126 := rfl
  have high : (0x100 : WChar).toNat = 256 := rfl
  omega

theorem narrow_final_names_code (collected : Collected builder) (short : builder.collected.length ≤ 5)
    (narrow : ¬ 0x100 ≤ final) (nul : final = 0 → kind = .dcs ∨ builder.collected = []) (isCode : IsCode kind code)
    (value : (builder.finalize final).value = fromString code) : builder.collected ++ [final] = code := by
  obtain ⟨low, high⟩ := narrow_final_bytes narrow
  have wellFormed := is_code_well_formed isCode
  obtain ⟨codeBytes, codeEnd⟩ := code_bytes wellFormed
  have bytes := collected_bytes collected
  have zero (s : List WChar) : fromString (s ++ [0]) = fromString s := by simp [fromString]
  have stripped : fromString (builder.collected ++ [final]) = fromString code := by
    rw [← value, finalize_value collected short, low, high]
    have regrouped : builder.collected ++ [final, 0] = builder.collected ++ [final] ++ [0] := by simp
    rw [regrouped, zero]
  by_cases isNul : final = 0
  · rw [isNul, zero] at stripped
    have spelled := from_string_injective _ code bytes codeBytes (collected_end collected) codeEnd stripped
    rcases nul isNul with dcs | empty
    · subst dcs
      obtain ⟨wch, member, large⟩ := dcs_code_has_final isCode
      rw [← spelled] at member
      exact absurd (collected.collectable wch member).2 (UInt16.not_le.mpr large)
    · exact absurd (spelled.symm.trans empty) wellFormed.nonempty
  · apply from_string_injective _ code _ codeBytes _ codeEnd stripped
    · intro wch member
      rcases mem_append.mp member with old | new
      · exact bytes wch old
      · rw [mem_singleton.mp new, ← low]
        exact (bytes_of_wide final).1
    · intro nonempty
      simpa using isNul

theorem sound_names_code_iff (kind : SequenceKind) (id : VTID) (sound : Sound kind id) :
    NamesItsCode kind id ↔ ¬ WideFinalCompletesCode kind id := by
  obtain ⟨builder, final, collected, rfl, nul⟩ := sound
  have spelling : (builder.finalize final).spelling = builder.collected ++ [final] := rfl
  constructor
  · rintro names ⟨collected', final', spelled, wide, isCode⟩
    obtain ⟨sameCollected, sameFinal⟩ := append_inj' (spelling.symm.trans spelled) rfl
    obtain rfl : final = final' := by simpa using sameFinal
    subst sameCollected
    have short : builder.collected.length ≤ 5 := by
      have length := (is_code_well_formed isCode).short
      rw [length_append] at length
      omega
    exact wide_final_not_code isCode wide (names _ isCode (finalize_value collected short))
  · intro free code isCode value
    by_cases short : builder.collected.length ≤ 5
    · by_cases wide : 0x100 ≤ final
      · exfalso
        apply free
        refine ⟨builder.collected, final, spelling, wide, ?_⟩
        obtain ⟨lowBound, highBound, _⟩ := bytes_of_wide final
        obtain ⟨codeBytes, codeEnd⟩ := code_bytes (is_code_well_formed isCode)
        rw [finalize_value collected short] at value
        have spelled := from_string_injective _ code (by
          intro wch member
          simp only [mem_append, mem_cons, not_mem_nil, or_false] at member
          rcases member with old | rfl | rfl
          · exact collected_bytes collected wch old
          · exact lowBound
          · exact highBound) codeBytes (by
          intro nonempty
          simpa using wide_final_bytes wide) codeEnd value
        rwa [spelled]
      · exact narrow_final_names_code collected short wide nul isCode value
    · exact absurd value (finalize_value_large collected (by omega) (is_code_well_formed isCode))

end Cogterm.VirtualTerminal
