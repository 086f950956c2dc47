import Cogterm.Library.Code
import Cogterm.Unicode.Utf16

namespace Cogterm.Convert

open Library
open Unicode (WChar)

inductive HResult where
  | abort
  | unexpected
deriving DecidableEq, Repr

def intMax : Nat := 2147483647

-- The functions of the platform are given the room for their result. They
-- return 0 when they fail.
structure Platform where
  multiByteToWideChar : List UInt8 → Nat → Option (List WChar)
  wideCharToMultiByte : List WChar → Nat → Option (List UInt8)

structure U8State where
  partials : List UInt8 := [0, 0, 0, 0]
  haveCount : Nat := 0
  wantCount : Nat := 0
deriving DecidableEq, Repr

structure U16State where
  first : WChar := 0
  second : WChar := 0
deriving DecidableEq, Repr

def isContinuation (byte : UInt8) : Bool := byte &&& 0xC0 == 0x80

def lengths : List Nat :=
  [1, 1, 1, 1, 1, 1, 1, 1, 1, 1, 1, 1, 1, 1, 1, 1, 0, 0, 0, 0, 0, 0, 0, 0, 2, 2, 2, 2, 3, 3, 4, 0]

def codePointLength (byte : UInt8) : Nat := lengths.getD (byte >>> 3).toNat 0

-- The bytes from the last one on, and the length of what was skipped. The first
-- byte is never skipped.
def skipContinuation : List UInt8 → Nat → UInt8 × Nat
  | [], sequenceLen => (0, sequenceLen)
  | [byte], sequenceLen => (byte, sequenceLen)
  | byte :: next :: rest, sequenceLen =>
    if isContinuation byte then skipContinuation (next :: rest) (sequenceLen + 1) else (byte, sequenceLen)

def movePartials (partials bytes : List UInt8) (position : Nat) : List UInt8 :=
  partials.take position ++ bytes ++ partials.drop (position + bytes.length)

def complement (state : U8State) (bytes : List UInt8) : U8State :=
  { partials := movePartials state.partials bytes state.haveCount
    haveCount := state.haveCount + bytes.length
    wantCount := state.wantCount - bytes.length }

-- What is incomplete at the end goes to the state. The rest of the length is
-- returned.
def cachePartials (bytes : List UInt8) (state : U8State) : Nat × U8State :=
  if bytes.isEmpty then (0, state)
  else
    let back := skipContinuation bytes.reverse 1
    let codePointLen := codePointLength back.1
    if codePointLen > back.2 then
      (bytes.length - back.2,
        { partials := movePartials state.partials (bytes.drop (bytes.length - back.2)) 0
          haveCount := back.2
          wantCount := codePointLen - back.2 })
    else (bytes.length, state)

-- What is left to convert, if anything, goes behind what was converted before.
def appendConverted {β γ σ : Type} (convert : List β → Nat → Option (List γ)) (units : List β) (capacity : Nat)
    (out : List γ) (state : σ) : Except HResult (List γ) × σ :=
  if units.isEmpty then (.ok out, state)
  else
    match convert units capacity with
    | none => (.error .unexpected, state)
    | some converted => (.ok (out ++ converted), state)

section

variable (platform : Platform)

def convertBytes (bytes : List UInt8) (capa16 : Nat) (out : List WChar) (state : U8State) :
    Except HResult (List WChar) × U8State :=
  let cached := cachePartials bytes state
  appendConverted platform.multiByteToWideChar (bytes.take cached.1) capa16 out cached.2

def u8u16 (bytes : List UInt8) (state : U8State) : Except HResult (List WChar) × U8State :=
  if bytes.isEmpty then (.ok [], state)
  else if bytes.length + state.haveCount > intMax then (.error .abort, state)
  else
    let capa16 := bytes.length + state.haveCount
    if state.haveCount ≠ 0 then
      let copyable := min state.wantCount bytes.length
      let state := complement state (bytes.take copyable)
      if state.wantCount ≠ 0 then (.ok [], state)
      else
        match platform.multiByteToWideChar (state.partials.take state.haveCount) capa16 with
        | none => (.error .unexpected, state)
        | some converted =>
          convertBytes platform (bytes.drop copyable) (capa16 - converted.length) converted { state with haveCount := 0 }
    else convertBytes platform bytes capa16 [] state

-- The last code unit waits for the next call if it is a high surrogate.
def convertUnits (units : List WChar) (capa8 : Nat) (out : List UInt8) (state : U16State) :
    Except HResult (List UInt8) × U16State :=
  let back := units.getLastD 0
  let cached := !units.isEmpty && (decide (0xD800 ≤ back) && decide (back ≤ 0xDBFF))
  appendConverted platform.wideCharToMultiByte (if cached then units.dropLast else units) capa8 out
    (if cached then { state with first := back } else state)

def u16u8 (units : List WChar) (state : U16State) : Except HResult (List UInt8) × U16State :=
  match units with
  | [] => (.ok [], state)
  | unit :: rest =>
    let pending := if state.first ≠ 0 then 1 else 0
    let capa8 := (units.length + pending) * 3
    if units.length > intMax ∨ units.length + pending > intMax ∨ capa8 > intMax then (.error .abort, state)
    else if state.first ≠ 0 then
      let state := { state with second := unit }
      match platform.wideCharToMultiByte [state.first, state.second] capa8 with
      | none => (.error .unexpected, state)
      | some converted => convertUnits platform rest (capa8 - converted.length) converted {}
    else convertUnits platform (unit :: rest) capa8 [] state

end

def succeeded {γ σ : Type} : Except HResult γ × σ → Option (γ × σ)
  | (.error _, _) => none
  | (.ok out, state) => some (out, state)

def u8u16Chunk (platform : Platform) (chunk : List UInt8) (state : U8State) : Option (List WChar × U8State) :=
  succeeded (u8u16 platform chunk state)

def u16u8Chunk (platform : Platform) (chunk : List WChar) (state : U16State) : Option (List UInt8 × U16State) :=
  succeeded (u16u8 platform chunk state)

open List Nat UInt16

def encode8 (c : Char) : List UInt8 := String.utf8EncodeChar c

def encode16 (c : Char) : List WChar :=
  let value := c.val.toNat
  if value < 0x10000 then [ofNat value]
  else [ofNat (0xD800 + (value - 0x10000) / 0x400), ofNat (0xDC00 + (value - 0x10000) % 0x400)]

theorem continuation_byte : ∀ value : Fin 64, isContinuation (UInt8.ofNat (value.val + 0x80)) = true := by decide

theorem leading_byte : ∀ value : Fin 256, value.val < 0x80 ∨ 0xC0 ≤ value.val →
    isContinuation (UInt8.ofNat value.val) = false := by
  decide +kernel

theorem length_one : ∀ value : Fin 0x80, codePointLength (UInt8.ofNat value.val) = 1 := by decide

theorem length_two : ∀ value : Fin 0x20, codePointLength (UInt8.ofNat (value.val + 0xC0)) = 2 := by decide

theorem length_three : ∀ value : Fin 0x10, codePointLength (UInt8.ofNat (value.val + 0xE0)) = 3 := by decide

theorem length_four : ∀ value : Fin 0x08, codePointLength (UInt8.ofNat (value.val + 0xF0)) = 4 := by decide

structure Sequence (bytes : List UInt8) (first : UInt8) (continuation : List UInt8) : Prop where
  isBytes : bytes = first :: continuation
  leads : isContinuation first = false
  continues : ∀ byte ∈ continuation, isContinuation byte = true
  length : codePointLength first = continuation.length + 1
  bound : continuation.length ≤ 3

theorem encode8_sequence (c : Char) : ∃ first continuation, Sequence (encode8 c) first continuation := by
  have continued : ∀ value : Nat, isContinuation (UInt8.ofNat (value % 0x40 + 0x80)) = true :=
    fun value => continuation_byte ⟨value % 0x40, mod_lt _ (by decide)⟩
  have leads : ∀ value : Nat, value < 256 → value < 0x80 ∨ 0xC0 ≤ value → isContinuation (UInt8.ofNat value) = false :=
    fun value small => leading_byte ⟨value, small⟩
  rw [encode8, String.utf8EncodeChar]
  generalize c.val.toNat = value
  split
  · next small => exact ⟨_, _, rfl, leads value (by omega) (by omega), by simp, length_one ⟨value, by omega⟩, by simp⟩
  split
  · exact ⟨_, _, rfl, leads _ (by omega) (by omega),
      by simp only [forall_mem_cons, continued, not_mem_nil, false_implies, implies_true, and_self],
      length_two ⟨value / 64 % 0x20, mod_lt _ (by decide)⟩, by simp⟩
  split
  · exact ⟨_, _, rfl, leads _ (by omega) (by omega),
      by simp only [forall_mem_cons, continued, not_mem_nil, false_implies, implies_true, and_self],
      length_three ⟨value / 4096 % 0x10, mod_lt _ (by decide)⟩, by simp⟩
  · exact ⟨_, _, rfl, leads _ (by omega) (by omega),
      by simp only [forall_mem_cons, continued, not_mem_nil, false_implies, implies_true, and_self],
      length_four ⟨value / 262144 % 0x08, mod_lt _ (by decide)⟩, by simp⟩

theorem encode8_nonempty (c : Char) : encode8 c ≠ [] := by
  obtain ⟨_, _, sequence⟩ := encode8_sequence c
  rw [sequence.isBytes]
  exact cons_ne_nil _ _

theorem encode16_nonempty (c : Char) : encode16 c ≠ [] := by
  rw [encode16]
  split <;> exact cons_ne_nil _ _

theorem encode_lengths (c : Char) :
    (encode16 c).length ≤ (encode8 c).length ∧ (encode8 c).length ≤ 3 * (encode16 c).length := by
  rw [encode16, encode8, String.utf8EncodeChar]
  generalize c.val.toNat = value
  repeat' split
  all_goals simp only [length_cons]; omega

theorem flat_map_lengths (encode : α → List β) (decode : α → List γ) (factor : Nat)
    (shorter : ∀ first, (decode first).length ≤ factor * (encode first).length) (text : List α) :
    (text.flatMap decode).length ≤ factor * (text.flatMap encode).length := by
  induction text with
  | nil => exact zero_le _
  | cons first rest ih =>
    simpa [mul_add] using Nat.add_le_add (shorter first) ih

def isHigh (unit : WChar) : Bool := decide (0xD800 ≤ unit) && decide (unit ≤ 0xDBFF)

theorem encode16_cases (c : Char) : (∃ unit, encode16 c = [unit] ∧ isHigh unit = false) ∨
      ∃ high low, encode16 c = [high, low] ∧ isHigh high = true ∧ isHigh low = false := by
  have bound : c.val.toNat < 0xD800 ∨ 0xDFFF < c.val.toNat ∧ c.val.toNat < 0x110000 := c.valid
  have high : ∀ value : Nat, value < 0x10000 → (isHigh (ofNat value) = true ↔ 0xD800 ≤ value ∧ value ≤ 0xDBFF) := by
    intro value small
    simp [isHigh, le_iff_toNat_le]
    omega
  rw [encode16]
  generalize c.val.toNat = value at *
  split
  · next small => exact Or.inl ⟨_, rfl, by rw [← Bool.not_eq_true, high _ small]; omega⟩
  next large =>
    refine Or.inr ⟨_, _, rfl, (high _ (by omega)).mpr (by omega), ?_⟩
    rw [← Bool.not_eq_true, high _ (by omega)]
    omega

theorem high_nonzero (high : isHigh unit = true) : unit ≠ 0 := by
  intro zero
  rw [zero] at high
  cases high

open Unicode Bool

theorem and_upper_bits (value shift bits : Nat) (small : value < 2 ^ shift * 2 ^ bits) :
    value &&& 2 ^ shift * (2 ^ bits - 1) = 2 ^ shift * (value / 2 ^ shift) := by
  have quotient : (value &&& 2 ^ shift * (2 ^ bits - 1)) / 2 ^ shift = value / 2 ^ shift := by
    simp [Nat.and_div_two_pow, Nat.mod_eq_of_lt (Nat.div_lt_of_lt_mul small)]
  have remainder : (value &&& 2 ^ shift * (2 ^ bits - 1)) % 2 ^ shift = 0 := by simp [Nat.and_mod_two_pow]
  rw [← quotient, Nat.mul_div_cancel' (Nat.dvd_of_mod_eq_zero remainder)]

theorem surrogate_ranges (small : value < 0x10000) :
    (isSurrogate (ofNat value) = true ↔ 0xD800 ≤ value ∧ value ≤ 0xDFFF) ∧
    (isLeadingSurrogate (ofNat value) = true ↔ 0xD800 ≤ value ∧ value ≤ 0xDBFF) ∧
    (isTrailingSurrogate (ofNat value) = true ↔ 0xDC00 ≤ value ∧ value ≤ 0xDFFF) := by
  have size : (UInt16.ofNat value).toNat = value := UInt16.toNat_ofNat_of_lt' small
  have surrogate : value &&& 0xF800 = 2 ^ 11 * (value / 2 ^ 11) := and_upper_bits value 11 5 small
  have half : value &&& 0xFC00 = 2 ^ 10 * (value / 2 ^ 10) := and_upper_bits value 10 6 small
  rw [isSurrogate, isLeadingSurrogate, isTrailingSurrogate]
  simp only [beq_iff_eq, ← UInt16.toNat_inj, UInt16.toNat_and, size]
  refine ⟨?_, ?_, ?_⟩
  · rw [show (0xF800 : UInt16).toNat = 0xF800 from rfl, show (0xD800 : UInt16).toNat = 0xD800 from rfl]
    omega
  · rw [show (0xFC00 : UInt16).toNat = 0xFC00 from rfl, show (0xD800 : UInt16).toNat = 0xD800 from rfl]
    omega
  · rw [show (0xFC00 : UInt16).toNat = 0xFC00 from rfl, show (0xDC00 : UInt16).toNat = 0xDC00 from rfl]
    omega

theorem code_points_plain (plain : isSurrogate unit = false) :
    codePoints (unit :: rest) = (unit.toNat, 1) :: codePoints rest := by
  have whole : single unit = unit.toNat := by
    rw [single, plain]
    rfl
  cases rest with
  | nil => rw [← whole]; rfl
  | cons next rest =>
    have notLeading : isLeadingSurrogate unit = false := by
      rw [← not_eq_true, leading_surrogate_iff, plain]
      exact fun surrogate => false_ne_true surrogate.1
    simp [codePoints, isPair, notLeading, whole]

theorem code_points_encode16 (text : List Char) :
    codePoints (text.flatMap encode16) = text.map (fun c => (c.val.toNat, (encode16 c).length)) := by
  induction text with
  | nil => rfl
  | cons c rest ih =>
    have valid : c.val.toNat < 0xD800 ∨ 0xDFFF < c.val.toNat ∧ c.val.toNat < 0x110000 := c.valid
    rw [flatMap_cons, map_cons, ← ih, encode16]
    generalize c.val.toNat = value at *
    split
    · next small =>
        have plain : isSurrogate (ofNat value) = false := by
          rw [← not_eq_true, (surrogate_ranges small).1]
          omega
        simp [code_points_plain plain, toNat_ofNat_of_lt' small]
    · next large =>
        have upper : 0xD800 + (value - 0x10000) / 0x400 < 0x10000 := by omega
        have lower : 0xDC00 + (value - 0x10000) % 0x400 < 0x10000 := by omega
        have pair : isPair (ofNat (0xD800 + (value - 0x10000) / 0x400)) (ofNat (0xDC00 + (value - 0x10000) % 0x400)) =
            true := by
          rw [isPair, (surrogate_ranges upper).2.1.mpr (by omega), (surrogate_ranges lower).2.2.mpr (by omega)]
          rfl
        have combined : combineSurrogates (ofNat (0xD800 + (value - 0x10000) / 0x400))
            (ofNat (0xDC00 + (value - 0x10000) % 0x400)) = value := by
          rw [combineSurrogates, toNat_ofNat_of_lt' upper, toNat_ofNat_of_lt' lower]
          omega
        rw [cons_append, singleton_append, codePoints, if_pos pair, combined]
        rfl

def exactPlatform : Platform where
  multiByteToWideChar bytes capacity :=
    match bytes.toByteArray.utf8Decode? with
    | none => none
    | some text =>
      if (text.toList.flatMap encode16).length ≤ capacity then some (text.toList.flatMap encode16) else none
  wideCharToMultiByte units capacity :=
    let text := (codePoints units).map (fun point => Char.ofNat point.1)
    if (text.flatMap encode8).length ≤ capacity then some (text.flatMap encode8) else none

theorem decode_encode8 (text : List Char) : (text.flatMap encode8).toByteArray.utf8Decode? = some text.toArray :=
  List.utf8Decode?_utf8Encode

end Cogterm.Convert
