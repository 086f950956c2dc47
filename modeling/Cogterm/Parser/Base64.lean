import Mathlib.Algebra.Ring.Nat
import Mathlib.Data.List.DropRight

namespace Cogterm.Parser.Base64

open List Nat

abbrev WChar := UInt16

-- Indexed by the character; 255 for a character in neither alphabet.
def decodeTable : List Nat :=
  [255, 255, 255, 255, 255, 255, 255, 255, 255, 255, 255, 255, 255, 255, 255, 255,
   255, 255, 255, 255, 255, 255, 255, 255, 255, 255, 255, 255, 255, 255, 255, 255,
   255, 255, 255, 255, 255, 255, 255, 255, 255, 255, 255, 62, 255, 62, 255, 63,
   52, 53, 54, 55, 56, 57, 58, 59, 60, 61, 255, 255, 255, 255, 255, 255,
   255, 0, 1, 2, 3, 4, 5, 6, 7, 8, 9, 10, 11, 12, 13, 14, 15, 16, 17, 18, 19, 20, 21, 22, 23, 24, 25, 255, 255, 255, 255, 63,
   255, 26, 27, 28, 29, 30, 31, 32, 33, 34, 35, 36, 37, 38, 39, 40,
   41, 42, 43, 44, 45, 46, 47, 48, 49, 50, 51, 255, 255, 255, 255, 255]

structure Accumulator where
  r : Nat
  error : Nat

def valueOf (ch : WChar) : Nat := decodeTable.getD (ch.toNat &&& 0x7F) 255

def accumulate (state : Accumulator) (ch : WChar) : Accumulator :=
  ⟨(state.r <<< 6 ||| valueOf ch) % 2 ^ 32, state.error ||| ((ch.toNat ||| valueOf ch) &&& 0xFF80)⟩

-- behind is the distance of inEndBatched from the end of the input.
def batchedLoop (behind : Nat) : List WChar → Accumulator → List UInt8 → List WChar × Accumulator × List UInt8
  | ch0 :: ch1 :: ch2 :: ch3 :: rest, state, out =>
    if behind < rest.length + 4 then
      let next := accumulate (accumulate (accumulate (accumulate state ch0) ch1) ch2) ch3
      batchedLoop behind rest next (out ++ [.ofNat (next.r >>> 16), .ofNat (next.r >>> 8), .ofNat next.r])
    else (ch0 :: ch1 :: ch2 :: ch3 :: rest, state, out)
  | input, state, out => (input, state, out)

def tailLoop : List WChar → Accumulator → Nat → Accumulator × Nat
  | [], state, ri => (state, ri)
  | ch :: rest, state, ri => if ch ≠ 0x3D then tailLoop rest (accumulate state ch) (ri + 1) else tailLoop rest state ri

def finish (input : List WChar) (state : Accumulator) (out : List UInt8) : Option (List UInt8) :=
  let (last, ri) := tailLoop input state 0
  let (error, out) := match ri with
    | 2 => (last.error, out ++ [.ofNat (last.r >>> 4)])
    | 3 => (last.error, out ++ [.ofNat (last.r >>> 10), .ofNat (last.r >>> 2)])
    | 4 => (last.error, out ++ [.ofNat (last.r >>> 16), .ofNat (last.r >>> 8), .ofNat last.r])
    | _ => (last.error ||| ri, out)
  if error ≠ 0 then none else some out

def decode (src : List WChar) : Option (List UInt8) :=
  let (input, state, out) := batchedLoop (min 5 src.length) src ⟨0, 0⟩ []
  finish input state out

variable {value : Nat}

section

def inAlphabet (ch : WChar) : Bool :=
  decide (0x41 ≤ ch ∧ ch ≤ 0x5A ∨ 0x61 ≤ ch ∧ ch ≤ 0x7A ∨ 0x30 ≤ ch ∧ ch ≤ 0x39 ∨
    ch ∈ [0x2B, 0x2F, 0x2D, 0x5F])

def digits (src : List WChar) : List WChar := src.filter (fun ch => ch ≠ 0x3D)

theorem value_of_ascii : ∀ ch : Fin 128,
    ((ch.val ||| valueOf (.ofNat ch.val)) &&& 0xFF80 = 0 ↔ inAlphabet (.ofNat ch.val) = true) ∧
      (inAlphabet (.ofNat ch.val) = true → valueOf (.ofNat ch.val) < 64) := by
  decide +kernel

variable {ch : WChar}

theorem in_alphabet_ascii (within : inAlphabet ch = true) : ch.toNat < 128 := by
  have cases := of_decide_eq_true within
  simp only [mem_cons, not_mem_nil, or_false, UInt16.le_iff_toNat_le, ← UInt16.toNat_inj, UInt16.reduceToNat] at cases
  omega

theorem high_bits_clear (narrow : value < 2 ^ 16) (clear : value &&& 0xFF80 = 0) : value < 128 := by
  have shifted := congrArg (· >>> 7) clear
  simp only [shiftRight_and_distrib] at shifted
  have upper : value >>> 7 % 2 ^ 9 = 0 := by
    rw [← and_two_pow_sub_one_eq_mod]
    exact shifted
  omega

theorem error_clear_iff (ch : WChar) : (ch.toNat ||| valueOf ch) &&& 0xFF80 = 0 ↔ inAlphabet ch = true := by
  by_cases ascii : ch.toNat < 128
  · simpa only [UInt16.ofNat_toNat] using (value_of_ascii ⟨ch.toNat, ascii⟩).1
  · refine iff_of_false (fun clear => ascii ?_) (fun within => ascii (in_alphabet_ascii within))
    rw [and_or_distrib_right, or_eq_zero_iff] at clear
    exact high_bits_clear ch.toNat_lt clear.1

theorem value_of_lt (within : inAlphabet ch = true) : valueOf ch < 64 := by
  have small := (value_of_ascii ⟨ch.toNat, in_alphabet_ascii within⟩).2
  simp only [UInt16.ofNat_toNat] at small
  exact small within

theorem alphabet_not_padding (within : inAlphabet ch = true) : ch ≠ 0x3D := by
  rintro rfl
  exact absurd within (by decide)

theorem accumulate_error (state : Accumulator) (ch : WChar) :
    (accumulate state ch).error = 0 ↔ state.error = 0 ∧ inAlphabet ch = true := by
  simp [accumulate, error_clear_iff]

theorem accumulate_r (within : inAlphabet ch = true) : (accumulate state ch).r = (state.r * 64 + valueOf ch) % 2 ^ 32 := by
  rw [accumulate, ← shiftLeft_add_eq_or_of_lt (value_of_lt within), shiftLeft_eq]

end

variable {bytes : List UInt8}

def unpack : List Nat → List UInt8
  | a :: b :: c :: d :: rest => .ofNat (a * 4 + b / 16) :: .ofNat (b * 16 + c / 4) :: .ofNat (c * 64 + d) :: unpack rest
  | [a, b, c] => [.ofNat (a * 4 + b / 16), .ofNat (b * 16 + c / 4)]
  | [a, b] => [.ofNat (a * 4 + b / 16)]
  | _ => []

-- The batched loop reads this much; only what is left may contain "=".
def batchedLength (length : Nat) : Nat := 4 * ((length - 2) / 4)

structure WellFormed (src : List WChar) : Prop where
  batched : ∀ ch ∈ src.take (batchedLength src.length), inAlphabet ch = true
  characters : ∀ ch ∈ src, inAlphabet ch = true ∨ ch = 0x3D
  count : (digits src).length % 4 ≠ 1

theorem digits_append (rest : List WChar) (within : ∀ ch ∈ group, inAlphabet ch = true) :
    digits (group ++ rest) = group ++ digits rest := by
  rw [digits, filter_append, filter_eq_self.mpr, digits]
  exact fun ch isMember => decide_eq_true (alphabet_not_padding (within ch isMember))

theorem well_formed_group (four : group.length = 4) (long : 2 ≤ rest.length) :
    WellFormed (group ++ rest) ↔ (∀ ch ∈ group, inAlphabet ch = true) ∧ WellFormed rest := by
  have taken : (group ++ rest).take (batchedLength (group ++ rest).length) = group ++ rest.take (batchedLength rest.length) := by
    have length : batchedLength (group ++ rest).length = group.length + batchedLength rest.length := by
      simp only [batchedLength, length_append]
      omega
    rw [length, take_length_add_append]
  constructor
  · rintro ⟨batched, characters, count⟩
    rw [taken, forall_mem_append] at batched
    rw [digits_append rest batched.1, length_append] at count
    exact ⟨batched.1, batched.2, (forall_mem_append.mp characters).2, by omega⟩
  · rintro ⟨within, batched, characters, count⟩
    refine ⟨?_, forall_mem_append.mpr ⟨fun ch isMember => .inl (within ch isMember), characters⟩, ?_⟩
    · rw [taken]
      exact forall_mem_append.mpr ⟨within, batched⟩
    · rw [digits_append rest within, length_append]
      omega

theorem tail_loop_digits (input : List WChar) (state : Accumulator) (ri : Nat) :
    tailLoop input state ri = ((digits input).foldl accumulate state, ri + (digits input).length) := by
  induction input generalizing state ri with
  | nil => rfl
  | cons ch rest ih =>
    rw [tailLoop, digits, filter_cons]
    by_cases pad : ch ≠ 0x3D
    · rw [if_pos pad, if_pos (decide_eq_true pad), ih, length_cons]
      exact congrArg (Prod.mk _) (by rw [digits]; omega)
    · rw [if_neg pad, if_neg (by simpa using pad), ih]
      rfl

theorem fold_error (chars : List WChar) (state : Accumulator) :
    (chars.foldl accumulate state).error = 0 ↔ state.error = 0 ∧ ∀ ch ∈ chars, inAlphabet ch = true := by
  induction chars generalizing state with
  | nil => simp
  | cons ch rest ih => simp [ih, accumulate_error, and_assoc]

theorem byte_eq (same : a % 256 = b % 256) : UInt8.ofNat a = UInt8.ofNat b := by
  simpa [← UInt8.toNat_inj] using same

theorem fold_group (state : Accumulator) (rest : List WChar)
    (within : ∀ ch ∈ [ch0, ch1, ch2, ch3], inAlphabet ch = true) : let next := [ch0, ch1, ch2, ch3].foldl accumulate state
    unpack (([ch0, ch1, ch2, ch3] ++ rest).map valueOf) =
      [.ofNat (next.r >>> 16), .ofNat (next.r >>> 8), .ofNat next.r] ++ unpack (rest.map valueOf) := by
  simp only [mem_cons, not_mem_nil, or_false, forall_eq_or_imp, forall_eq] at within
  obtain ⟨first, second, third, fourth⟩ := within
  have bound2 := value_of_lt third
  have bound3 := value_of_lt fourth
  simp only [cons_append, map_cons, unpack, foldl_cons, foldl_nil, accumulate_r first, accumulate_r second, accumulate_r third,
    accumulate_r fourth]
  congr 1
  · exact byte_eq (by omega)
  · congr 1
    · exact byte_eq (by omega)
    · exact congrArg (· :: _) (byte_eq (by omega))

theorem accepted_iff {chars : List WChar} {tail : List UInt8} (count : chars.length % 4 ≠ 1)
    (same : (∀ ch ∈ chars, inAlphabet ch = true) → tail = unpack (chars.map valueOf)) :
    (if (chars.foldl accumulate state).error ≠ 0 then none else some (out ++ tail)) = some bytes ↔
      state.error = 0 ∧ ((∀ ch ∈ chars, inAlphabet ch = true) ∧ chars.length % 4 ≠ 1) ∧
        bytes = out ++ unpack (chars.map valueOf) := by
  rw [Option.ite_none_left_eq_some, not_not, fold_error, Option.some.injEq]
  constructor
  · rintro ⟨⟨clear, within⟩, rfl⟩
    exact ⟨clear, ⟨within, count⟩, by rw [same within]⟩
  · rintro ⟨clear, ⟨within, _⟩, rfl⟩
    exact ⟨⟨clear, within⟩, by rw [same within]⟩

theorem well_formed_short (short : input.length ≤ 5) :
    WellFormed input ↔ (∀ ch ∈ digits input, inAlphabet ch = true) ∧ (digits input).length % 4 ≠ 1 := by
  constructor
  · rintro ⟨_, characters, count⟩
    refine ⟨fun ch isDigit => ?_, count⟩
    obtain ⟨isMember, isOther⟩ := mem_filter.mp isDigit
    exact (characters ch isMember).resolve_right (of_decide_eq_true isOther)
  · rintro ⟨within, count⟩
    refine ⟨fun ch isTaken => ?_, fun ch isMember => ?_, count⟩
    · have nothing : batchedLength input.length = 0 := by
        rw [batchedLength]
        omega
      rw [nothing] at isTaken
      exact absurd isTaken not_mem_nil
    · by_cases pad : ch = 0x3D
      · exact .inr pad
      · exact .inl (within ch (mem_filter.mpr ⟨isMember, decide_eq_true pad⟩))

-- What is left for the second loop has five characters at most; one or five digits are an error.
theorem finish_iff (short : input.length ≤ 5) : finish input state out = some bytes ↔
      state.error = 0 ∧ WellFormed input ∧ bytes = out ++ unpack ((digits input).map valueOf) := by
  have few : (digits input).length ≤ 5 := le_trans (length_filter_le _ _) short
  rw [finish, tail_loop_digits, well_formed_short short]
  generalize digits input = chars at few
  match chars, few with
  | [], _ =>
    simp [@eq_comm _ out, unpack]
  | [_], _ =>
    refine iff_of_false (fun accepted => ?_) (fun formed => formed.2.1.2 rfl)
    have clear := (Option.ite_none_left_eq_some.mp accepted).1
    simp at clear
  | [ch0, ch1], _ =>
    refine accepted_iff (by decide : 2 % 4 ≠ 1) (fun within => ?_)
    obtain ⟨first, rest⟩ := forall_mem_cons.mp within
    have second := (forall_mem_cons.mp rest).1
    simp only [foldl_cons, foldl_nil, accumulate_r first, accumulate_r second]
    exact congrArg (fun byte => [byte]) (byte_eq (by omega))
  | [ch0, ch1, ch2], _ =>
    refine accepted_iff (by decide : 3 % 4 ≠ 1) (fun within => ?_)
    obtain ⟨first, rest⟩ := forall_mem_cons.mp within
    obtain ⟨second, rest⟩ := forall_mem_cons.mp rest
    have third := (forall_mem_cons.mp rest).1
    have bound2 := value_of_lt third
    simp only [foldl_cons, foldl_nil, accumulate_r first, accumulate_r second, accumulate_r third]
    congr 1
    · exact byte_eq (by omega)
    · exact congrArg (fun byte => [byte]) (byte_eq (by omega))
  | [ch0, ch1, ch2, ch3], _ =>
    refine accepted_iff (by decide : 4 % 4 ≠ 1) (fun within => ?_)
    exact (fold_group state [] within).symm
  | [_, _, _, _, _], _ =>
    refine iff_of_false (fun accepted => ?_) (fun formed => formed.2.1.2 (by simp))
    have clear := (Option.ite_none_left_eq_some.mp accepted).1
    simp at clear

theorem batched_iff : (let (input, state, out) := batchedLoop 5 input state out; finish input state out) = some bytes ↔
      state.error = 0 ∧ WellFormed input ∧ bytes = out ++ unpack ((digits input).map valueOf) := by
  fun_induction batchedLoop 5 input state out with
  | case1 ch0 ch1 ch2 ch3 rest state out more next ih =>
    have folded : next = [ch0, ch1, ch2, ch3].foldl accumulate state := rfl
    have formed : WellFormed ([ch0, ch1, ch2, ch3] ++ rest) ↔ _ := well_formed_group rfl (by omega)
    rw [ih, folded, fold_error]
    constructor
    · rintro ⟨⟨clear, within⟩, restFormed, rfl⟩
      refine ⟨clear, formed.mpr ⟨within, restFormed⟩, ?_⟩
      change _ = out ++ unpack ((digits ([ch0, ch1, ch2, ch3] ++ rest)).map valueOf)
      rw [digits_append rest within, fold_group state _ within, append_assoc]
    · rintro ⟨clear, allFormed, rfl⟩
      obtain ⟨within, restFormed⟩ := formed.mp allFormed
      refine ⟨⟨clear, within⟩, restFormed, ?_⟩
      change out ++ unpack ((digits ([ch0, ch1, ch2, ch3] ++ rest)).map valueOf) = _
      rw [digits_append rest within, fold_group state _ within, append_assoc]
  | case2 ch0 ch1 ch2 ch3 rest state out more => exact finish_iff (by simp only [length_cons]; omega)
  | case3 input state out few =>
    refine finish_iff ?_
    match input, few with
    | [], _ | [_], _ | [_, _], _ | [_, _, _], _ => exact by simp
    | ch0 :: ch1 :: ch2 :: ch3 :: rest, few => exact absurd rfl (few ch0 ch1 ch2 ch3 rest)

theorem batched_loop_none (src : List WChar) (state : Accumulator) (out : List UInt8) :
    batchedLoop src.length src state out = (src, state, out) := by
  rw [batchedLoop.eq_def]
  split
  · exact if_neg (lt_irrefl _)
  · rfl

theorem decode_iff (src : List WChar) (bytes : List UInt8) :
    decode src = some bytes ↔ WellFormed src ∧ bytes = unpack ((digits src).map valueOf) := by
  rw [decode]
  by_cases short : src.length ≤ 5
  · rw [min_eq_right short, batched_loop_none]
    exact (finish_iff short).trans (by simp)
  · rw [min_eq_left (by omega)]
    exact batched_iff.trans (by simp)

def digit (url : Bool) (value : Nat) : WChar :=
  if value < 26 then .ofNat (0x41 + value)
  else if value < 52 then .ofNat (0x61 + (value - 26))
  else if value < 62 then .ofNat (0x30 + (value - 52))
  else if value = 62 then (if url then 0x2D else 0x2B)
  else if url then 0x5F else 0x2F

def pack : List UInt8 → List Nat
  | x :: y :: z :: rest =>
    x.toNat / 4 :: (x.toNat % 4 * 16 + y.toNat / 16) :: (y.toNat % 16 * 4 + z.toNat / 64) :: z.toNat % 64 :: pack rest
  | [x, y] => [x.toNat / 4, x.toNat % 4 * 16 + y.toNat / 16, y.toNat % 16 * 4]
  | [x] => [x.toNat / 4, x.toNat % 4 * 16]
  | [] => []

def encode (url : Bool) (bytes : List UInt8) : List WChar := (pack bytes).map (digit url)

theorem digit_value : ∀ (url : Bool) (value : Fin 64), inAlphabet (digit url value) = true ∧
    valueOf (digit url value) = value := by
  decide +kernel

theorem byte_of (same : value % 256 = b.toNat) : UInt8.ofNat value = b := by
  simpa [← UInt8.toNat_inj] using same

theorem pack_spec (bytes : List UInt8) :
    (∀ value ∈ pack bytes, value < 64) ∧ (pack bytes).length % 4 ≠ 1 ∧ unpack (pack bytes) = bytes := by
  fun_induction pack bytes with
  | case1 x y z rest ih =>
    have boundX := x.toNat_lt
    have boundY := y.toNat_lt
    have boundZ := z.toNat_lt
    obtain ⟨small, count, inverse⟩ := ih
    refine ⟨?_, by simp only [length_cons]; omega, ?_⟩
    · simp only [forall_mem_cons]
      exact ⟨by omega, by omega, by omega, by omega, small⟩
    · rw [unpack, inverse, byte_of (b := x) (by omega), byte_of (b := y) (by omega), byte_of (b := z) (by omega)]
  | case2 x y =>
    have boundX := x.toNat_lt
    have boundY := y.toNat_lt
    refine ⟨?_, by simp, ?_⟩
    · simp only [forall_mem_cons]
      exact ⟨by omega, by omega, by omega, by simp⟩
    · rw [unpack, byte_of (b := x) (by omega), byte_of (b := y) (by omega)]
  | case3 x =>
    have bound := x.toNat_lt
    refine ⟨?_, by simp, ?_⟩
    · simp only [forall_mem_cons]
      exact ⟨by omega, by omega, by simp⟩
    · rw [unpack, byte_of (b := x) (by omega)]
  | case4 => exact ⟨by simp, by decide, rfl⟩

theorem encode_within : ∀ ch ∈ encode url bytes, inAlphabet ch = true := by
  intro ch isMember
  obtain ⟨value, isValue, rfl⟩ := mem_map.mp isMember
  exact (digit_value url ⟨value, (pack_spec bytes).1 value isValue⟩).1

theorem encode_values (url : Bool) (bytes : List UInt8) : (encode url bytes).map valueOf = pack bytes := by
  rw [encode, map_map]
  refine (map_congr_left (fun value isValue => ?_)).trans (map_id _)
  exact (digit_value url ⟨value, (pack_spec bytes).1 value isValue⟩).2

theorem digits_padded (src : List WChar) (count : Nat) : digits (src ++ replicate count 0x3D) = digits src := by
  simp [digits]

theorem decode_encode {count : Nat} (few : count ≤ 2) : decode (encode url bytes ++ replicate count 0x3D) = some bytes := by
  have alone : digits (encode url bytes) = encode url bytes := by simpa [digits] using digits_append [] encode_within
  obtain ⟨_, number, inverse⟩ := pack_spec bytes
  refine (decode_iff _ _).mpr ⟨⟨fun ch isTaken => ?_, ?_, ?_⟩, ?_⟩
  · have batched : batchedLength (encode url bytes ++ replicate count 0x3D).length ≤ (encode url bytes).length := by
      simp only [batchedLength, length_append, length_replicate]
      omega
    rw [take_append_of_le_length batched] at isTaken
    exact encode_within ch (mem_of_mem_take isTaken)
  · exact forall_mem_append.mpr ⟨fun ch isMember => .inl (encode_within ch isMember),
      fun ch isMember => .inr (eq_of_mem_replicate isMember)⟩
  · rw [digits_padded, alone, encode, length_map]
    exact number
  · rw [digits_padded, alone, encode_values, inverse]

-- A character outside both alphabets that is not trailing "=", or one digit too many.
def Invalid (src : List WChar) : Prop :=
  (∃ ch ∈ src.rdropWhile (· == 0x3D), inAlphabet ch = false) ∨ (src.filter inAlphabet).length % 4 = 1

-- "=" before a digit where only the second loop reads it.
def StrayPadding (src : List WChar) : Prop := WellFormed src ∧ 0x3D ∈ src.rdropWhile (· == 0x3D)

theorem decode_correct_iff (src : List WChar) :
    ((∀ url bytes, ∀ count ≤ 2, decode (encode url bytes ++ replicate count 0x3D) = some bytes) ∧
      (Invalid src → decode src = none)) ↔ ¬ StrayPadding src := by
  constructor
  · rintro ⟨_, refuses⟩ ⟨formed, stray⟩
    have accepted := (decode_iff src _).mpr ⟨formed, rfl⟩
    rw [refuses (.inl ⟨_, stray, by decide⟩)] at accepted
    cases accepted
  · intro noStray
    refine ⟨fun url bytes count few => decode_encode few, fun invalid => ?_⟩
    by_contra accepted
    obtain ⟨bytes, isBytes⟩ := Option.ne_none_iff_exists'.mp accepted
    have formed := ((decode_iff src bytes).mp isBytes).1
    cases invalid with
    | inl outside =>
      obtain ⟨ch, isMember, other⟩ := outside
      have leads := rdropWhile_prefix (· == 0x3D) src
      have isPad := (formed.characters ch (leads.subset isMember)).resolve_left (by simp [other])
      exact noStray ⟨formed, isPad ▸ isMember⟩
    | inr count =>
      refine formed.count ?_
      rw [← count]
      refine congrArg (fun chars : List WChar => chars.length % 4) (filter_congr (fun ch isMember => ?_))
      cases formed.characters ch isMember with
      | inl within => rw [within, decide_eq_true (alphabet_not_padding within)]
      | inr pad => rw [pad]; decide

theorem decode_stray_padding : Invalid [0x59, 0x51, 0x3D, 0x51] ∧ decode [0x59, 0x51, 0x3D, 0x51] = some [0x61, 0x04] :=
  ⟨.inl ⟨0x3D, by decide +kernel, by decide⟩, by decide +kernel⟩

theorem decode_padded_iff {src : List WChar} {bytes : List UInt8} (count : Nat) (accepted : decode src = some bytes) :
    decode (src ++ replicate count 0x3D) = some bytes ↔
      ∀ ch ∈ (src ++ replicate count 0x3D).take (batchedLength (src.length + count)), ch ≠ 0x3D := by
  obtain ⟨formed, isBytes⟩ := (decode_iff src bytes).mp accepted
  have characters : ∀ ch ∈ src ++ replicate count 0x3D, inAlphabet ch = true ∨ ch = 0x3D :=
    forall_mem_append.mpr ⟨formed.characters, fun ch isMember => .inr (eq_of_mem_replicate isMember)⟩
  have length : (src ++ replicate count (0x3D : WChar)).length = src.length + count := by simp
  rw [decode_iff, digits_padded, ← length]
  constructor
  · rintro ⟨padded, _⟩ ch isTaken rfl
    exact absurd (padded.batched _ isTaken) (by decide)
  · intro noPad
    refine ⟨⟨fun ch isTaken => ?_, characters, ?_⟩, isBytes⟩
    · exact (characters ch (mem_of_mem_take isTaken)).resolve_right (noPad ch isTaken)
    · rw [digits_padded]
      exact formed.count

theorem decode_padded_three : decode [0x59, 0x51] = some [0x61] ∧ decode ([0x59, 0x51] ++ replicate 3 0x3D) = some [0x61] := by
  have accepted : decode [0x59, 0x51] = some [0x61] := by decide +kernel
  exact ⟨accepted, (decode_padded_iff 3 accepted).mpr (by simp [batchedLength])⟩

theorem decode_padded_eight : decode [0x59, 0x51] = some [0x61] ∧ decode ([0x59, 0x51] ++ replicate 8 0x3D) = none := by
  decide +kernel

end Cogterm.Parser.Base64
