import Cogterm.Types.Utils

namespace Cogterm.Types.Utils

structure Color where
  r : Nat
  g : Nat
  b : Nat
deriving DecidableEq, Repr

def hexToUint (wch : WChar) : Option Nat :=
  if 0x30 ≤ wch ∧ wch ≤ 0x39 then some (wch - 0x30).toNat
  else if 0x41 ≤ wch ∧ wch ≤ 0x46 then some ((wch - 0x41).toNat + 10)
  else if 0x61 ≤ wch ∧ wch ≤ 0x66 then some ((wch - 0x61).toNat + 10)
  else none

structure Component where
  parameterValue : Nat
  rgbHexDigitCount : Nat
  foundColor : Bool
  curr : List WChar

def componentLoop (isSharpSignFormat : Bool) (component : Nat) : Nat → Nat → Component → Option Component
  | 0, _, state => some state
  | iteration + 1, i, state =>
    match state.curr with
    | [] => some state
    | wch :: curr =>
      match hexToUint wch with
      | none => none
      | some intVal =>
        let parameterValue := state.parameterValue * 16 + intVal
        if isSharpSignFormat then
          componentLoop isSharpSignFormat component iteration (i + 1) ⟨parameterValue, state.rgbHexDigitCount, true, curr⟩
        else if component < 2 ∧ curr.head? = some 0x2F then some ⟨parameterValue, i + 1, true, curr.tail⟩
        else if curr = [] then some ⟨parameterValue, i + 1, true, curr⟩
        else componentLoop isSharpSignFormat component iteration (i + 1) ⟨parameterValue, i + 1, state.foundColor, curr⟩

def parseComponent (isSharpSignFormat : Bool) (component rgbHexDigitCount : Nat) (curr : List WChar) :
    Option (Nat × Nat × List WChar) :=
  match componentLoop isSharpSignFormat component (if isSharpSignFormat then rgbHexDigitCount else 4) 0
    ⟨0, rgbHexDigitCount, false, curr⟩ with
  | none => none
  | some state =>
    if !state.foundColor then none
    else
      let scaleMultiplier := if isSharpSignFormat then 0x10 else 0x11
      let scaleDivisor := scaleMultiplier <<< 8 >>> (4 * (4 - state.rgbHexDigitCount))
      some (state.parameterValue * scaleMultiplier / scaleDivisor, state.rgbHexDigitCount, state.curr)

def parseComponents (isSharpSignFormat : Bool) (rgbHexDigitCount : Nat) (curr : List WChar) : Option Color := do
  let (red, count, curr) ← parseComponent isSharpSignFormat 0 rgbHexDigitCount curr
  let (green, count, curr) ← parseComponent isSharpSignFormat 1 count curr
  let (blue, _, curr) ← parseComponent isSharpSignFormat 2 count curr
  if curr = [] then some ⟨red % 256, green % 256, blue % 256⟩ else none

def lowered (x : WChar) : WChar := if 0x41 ≤ x ∧ x ≤ 0x5A then x + 0x20 else x

def colorFromXParseColorSpec (string : List WChar) : Option Color :=
  if string.length > 4 ∧ (string.take 4).map lowered = [0x72, 0x67, 0x62, 0x3A] then
    if string.length < 9 ∨ string.length > 18 then none else parseComponents false 0 (string.drop 4)
  else if string.length > 1 ∧ string.head? = some 0x23 then
    if ¬ (string.length = 4 ∨ string.length = 7 ∨ string.length = 10 ∨ string.length = 13) then none
    else parseComponents true ((string.length - 1) / 3) (string.drop 1)
  else none

-- names is ColorFromXOrgAppColorName.
def colorFromXTermColor (names : List WChar → Option Color) (string : List WChar) : Option Color :=
  match colorFromXParseColorSpec string with
  | some color => some color
  | none => names string

structure HexGroup (digits : List WChar) : Prop where
  nonempty : digits ≠ []
  short : digits.length ≤ 4
  hex : ∀ wch ∈ digits, (hexToUint wch).isSome = true

def hexFrom (value : Nat) (digits : List WChar) : Nat := digits.foldl (fun value wch => value * 16 + (hexToUint wch).getD 0) value

def rgbScaled (digits : List WChar) : Nat :=
  match digits.length with
  | 1 => hexFrom 0 digits * 17
  | 2 => hexFrom 0 digits
  | 3 => hexFrom 0 digits >>> 4
  | _ => hexFrom 0 digits >>> 8

def sharpScaled (digits : List WChar) : Nat :=
  match digits.length with
  | 1 => hexFrom 0 digits <<< 4
  | 2 => hexFrom 0 digits
  | 3 => hexFrom 0 digits >>> 4
  | _ => hexFrom 0 digits >>> 8

inductive ColorSpec : List WChar → Color → Prop where
  | rgb (leading red green blue : List WChar) (isLeading : leading.map lowered = [0x72, 0x67, 0x62, 0x3A])
      (isRed : HexGroup red) (isGreen : HexGroup green) (isBlue : HexGroup blue) :
      ColorSpec (leading ++ (red ++ 0x2F :: (green ++ 0x2F :: blue))) ⟨rgbScaled red, rgbScaled green, rgbScaled blue⟩
  | sharp (red green blue : List WChar) (isRed : HexGroup red) (isGreen : HexGroup green) (isBlue : HexGroup blue)
      (sameGreen : green.length = red.length) (sameBlue : blue.length = red.length) :
      ColorSpec (0x23 :: (red ++ (green ++ blue))) ⟨sharpScaled red, sharpScaled green, sharpScaled blue⟩

-- A slash is skipped behind the first two components.
def Ends (component : Nat) (tail rest : List WChar) : Prop := component < 2 ∧ tail = 0x2F :: rest ∨ tail = [] ∧ rest = []

open List Option Nat

variable {intVal : Nat} {wch : WChar}

theorem hex_from_cons (digit : hexToUint wch = some intVal) (value : Nat) (digits : List WChar) :
    hexFrom value (wch :: digits) = hexFrom (value * 16 + intVal) digits := by
  simp [hexFrom, digit]

variable {component count iteration : Nat}

theorem rgb_loop_reads (read : componentLoop false component iteration i ⟨value, count, false, curr⟩ = some state)
    (found : state.foundColor = true) :
    ∃ digits tail, curr = digits ++ tail ∧ Ends component tail state.curr ∧ digits ≠ [] ∧
    digits.length ≤ iteration ∧
      (∀ wch ∈ digits, (hexToUint wch).isSome = true) ∧ state.parameterValue = hexFrom value digits ∧
      state.rgbHexDigitCount = i + digits.length := by
  induction iteration generalizing i value count curr with
  | zero =>
    cases read
    cases found
  | succ iteration ih =>
    rw [componentLoop] at read
    cases curr with
    | nil =>
      cases read
      cases found
    | cons wch curr =>
      cases digit : hexToUint wch with
      | none => simp [digit] at read
      | some intVal =>
        simp only [digit, Bool.false_eq_true, if_false] at read
        split at read
        · rename_i slash
          obtain ⟨tail, rfl⟩ := head?_eq_some_iff.mp slash.2
          cases read
          exact ⟨[wch], _, rfl, .inl ⟨slash.1,
            rfl⟩, by simp, by simp, by simp [digit], (hex_from_cons digit value []).symm, rfl⟩
        · split at read
          · rename_i ended
            cases read
            exact ⟨[wch], [], by rw [ended]; rfl, .inr ⟨rfl, ended⟩, by simp, by simp, by simp [digit],
              (hex_from_cons digit value []).symm, rfl⟩
          · obtain ⟨digits, tail, rfl, ends, _, short, hex, isValue, isCount⟩ := ih read
            refine ⟨wch :: digits, tail, rfl,
              ends, by simp, by simpa using short, forall_mem_cons.mpr ⟨by simp [digit], hex⟩,
              isValue.trans (hex_from_cons digit value digits).symm, ?_⟩
            rw [isCount, length_cons]
            omega

variable {digits : List WChar}

theorem rgb_loop_accepts (i value count : Nat) {tail rest : List WChar} (nonempty : digits ≠ [])
    (short : digits.length ≤ iteration) (hex : ∀ wch ∈ digits, (hexToUint wch).isSome = true)
    (ends : Ends component tail rest) : componentLoop false component iteration i ⟨value, count, false, digits ++ tail⟩ =
      some ⟨hexFrom value digits, i + digits.length, true, rest⟩ := by
  induction digits generalizing iteration i value count with
  | nil => exact absurd rfl nonempty
  | cons wch digits ih =>
    obtain ⟨first, others⟩ := forall_mem_cons.mp hex
    obtain ⟨intVal, digit⟩ := isSome_iff_exists.mp first
    obtain ⟨left, rfl⟩ : ∃ left, iteration = left + 1 := ⟨iteration - 1, by rw [length_cons] at short; omega⟩
    simp only [cons_append, componentLoop, digit, Bool.false_eq_true, if_false, hex_from_cons digit]
    cases digits with
    | nil =>
      rcases ends with ⟨early, rfl⟩ | ⟨rfl, rfl⟩
      · simp [early, hexFrom]
      · simp [hexFrom]
    | cons second digits =>
      have noSlash : second ≠ 0x2F := by
        rintro rfl
        exact absurd (others 0x2F (by simp)) (by decide)
      rw [if_neg (by simp [noSlash]), if_neg (by simp), ih (i + 1) _ _ (by simp) (by simpa using short) others]
      simp only [length_cons]
      rw [show i + 1 + (digits.length + 1) = i + (digits.length + 1 + 1) by omega]

theorem hex_digit_lt (digit : hexToUint wch = some intVal) : intVal < 16 := by
  have upTo (first last : WChar) (bounds : first ≤ wch ∧ wch ≤ last) :
    (wch - first).toNat ≤ last.toNat - first.toNat := by
    rw [UInt16.toNat_sub_of_le _ _ bounds.1]
    exact Nat.sub_le_sub_right (UInt16.le_iff_toNat_le.mp bounds.2) _
  rw [hexToUint] at digit
  split at digit
  · rename_i bounds
    cases digit
    exact Nat.lt_of_le_of_lt (upTo _ _ bounds) (by decide)
  split at digit
  · rename_i bounds
    cases digit
    exact Nat.lt_of_le_of_lt (Nat.add_le_add_right (upTo _ _ bounds) 10) (by decide)
  split at digit
  · rename_i bounds
    cases digit
    exact Nat.lt_of_le_of_lt (Nat.add_le_add_right (upTo _ _ bounds) 10) (by decide)
  · cases digit

theorem hex_from_lt (value : Nat) (hex : ∀ wch ∈ digits, (hexToUint wch).isSome = true) :
    hexFrom value digits < (value + 1) * 16 ^ digits.length := by
  induction digits generalizing value with
  | nil => simp [hexFrom]
  | cons wch digits ih =>
    obtain ⟨first, others⟩ := forall_mem_cons.mp hex
    obtain ⟨intVal, digit⟩ := isSome_iff_exists.mp first
    have small := hex_digit_lt digit
    simpa [hex_from_cons digit, Nat.pow_succ', ← Nat.mul_assoc] using Nat.lt_of_lt_of_le (ih _ others)
      (Nat.mul_le_mul_right _ (by omega))

theorem group_scales (group : HexGroup digits) :
    hexFrom 0 digits * 0x11 / (0x11 <<< 8 >>> (4 * (4 - digits.length))) = rgbScaled digits ∧
    hexFrom 0 digits * 0x10 / (0x10 <<< 8 >>> (4 * (4 - digits.length))) = sharpScaled digits ∧
    rgbScaled digits < 256 ∧ sharpScaled digits < 256 := by
  have short := group.short
  have long := length_pos_of_ne_nil group.nonempty
  have bound := hex_from_lt 0 group.hex
  obtain isLength | isLength | isLength | isLength : digits.length = 1 ∨ digits.length = 2 ∨ digits.length = 3 ∨
    digits.length = 4 := by
    omega
  all_goals
    simp only [rgbScaled, sharpScaled, isLength, shiftRight_eq_div_pow, shiftLeft_eq] at bound ⊢
    omega

theorem rgb_component_iff (component count value next : Nat) (curr rest : List WChar) :
    parseComponent false component count curr = some (value, next, rest) ↔
      ∃ digits tail, curr = digits ++ tail ∧ Ends component tail rest ∧ HexGroup digits ∧ value = rgbScaled digits ∧
        next = digits.length := by
  rw [parseComponent]
  constructor
  · intro parsed
    split at parsed
    · cases parsed
    rename_i state read
    split at parsed
    · cases parsed
    rename_i found
    obtain ⟨digits, tail, rfl, ends, nonempty, short, hex, isValue, isCount⟩ := rgb_loop_reads read (by simpa using found)
    have group : HexGroup digits := ⟨nonempty, short, hex⟩
    rw [Nat.zero_add] at isCount
    simp only [isValue, isCount] at parsed
    obtain ⟨rfl, rfl, rfl⟩ := parsed
    exact ⟨digits, tail, rfl, ends, group, (group_scales group).1, rfl⟩
  · rintro ⟨digits, tail, rfl, ends, group, rfl, rfl⟩
    rw [if_neg Bool.false_ne_true, rgb_loop_accepts 0 0 count group.nonempty group.short group.hex ends, Nat.zero_add]
    simp only [Bool.not_true, Bool.false_eq_true, if_false, (group_scales group).1]

-- Another component is not read behind the end of the string.
theorem ends_slash {tail rest : List WChar} (group : HexGroup digits)
    (ends : Ends component tail (digits ++ rest)) : tail = 0x2F :: (digits ++ rest) := by
  rcases ends with ⟨_, slash⟩ | ⟨_, ended⟩
  · exact slash
  · exact absurd (append_eq_nil_iff.mp ended).1 group.nonempty

theorem rgb_components_iff (count : Nat) (curr : List WChar) (color : Color) :
    parseComponents false count curr = some color ↔ ∃ red green blue, HexGroup red ∧ HexGroup green ∧ HexGroup blue ∧
      curr = red ++ 0x2F :: (green ++ 0x2F :: blue) ∧ color = ⟨rgbScaled red, rgbScaled green, rgbScaled blue⟩ := by
  have lowByte {digits : List WChar} (group : HexGroup digits) : rgbScaled digits % 256 = rgbScaled digits :=
    mod_eq_of_lt (group_scales group).2.2.1
  simp only [parseComponents, bind_eq_bind, bind_eq_some_iff]
  constructor
  · rintro ⟨⟨r, first, behindRed⟩, parsedRed, ⟨g, second, behindGreen⟩, parsedGreen, ⟨b, third, behindBlue⟩,
      parsedBlue, ended⟩
    obtain ⟨red, redTail, rfl, redEnds, isRed, rfl, rfl⟩ := (rgb_component_iff ..).mp parsedRed
    obtain ⟨green, greenTail, rfl, greenEnds, isGreen, rfl, rfl⟩ := (rgb_component_iff ..).mp parsedGreen
    obtain ⟨blue, blueTail, rfl, blueEnds, isBlue, rfl, rfl⟩ := (rgb_component_iff ..).mp parsedBlue
    rcases blueEnds with ⟨late, _⟩ | ⟨rfl, rfl⟩
    · omega
    · rw [if_pos rfl, lowByte isRed, lowByte isGreen, lowByte isBlue, Option.some.injEq] at ended
      refine ⟨red, green, blue, isRed, isGreen, isBlue, ?_, ended.symm⟩
      simp [ends_slash isGreen redEnds, ends_slash isBlue greenEnds]
  · rintro ⟨red, green, blue, isRed, isGreen, isBlue, rfl, rfl⟩
    refine ⟨_, (rgb_component_iff ..).mpr ⟨red, _, rfl, .inl ⟨by decide, rfl⟩, isRed, rfl, rfl⟩,
      _, (rgb_component_iff ..).mpr ⟨green, _, rfl, .inl ⟨by decide, rfl⟩, isGreen, rfl, rfl⟩,
      _, (rgb_component_iff ..).mpr ⟨blue, [], (append_nil _).symm, .inr ⟨rfl, rfl⟩, isBlue, rfl, rfl⟩, ?_⟩
    simp [lowByte isRed, lowByte isGreen, lowByte isBlue]

theorem sharp_loop (component iteration i value count : Nat) (found : Bool) (curr : List WChar) :
    componentLoop true component iteration i ⟨value, count, found, curr⟩ =
      if (curr.take iteration).all fun wch => (hexToUint wch).isSome then
        some ⟨hexFrom value (curr.take iteration), count, found || !(curr.take iteration).isEmpty, curr.drop iteration⟩
      else none := by
  induction iteration generalizing i value found curr with
  | zero => simp [componentLoop, hexFrom]
  | succ iteration ih =>
    cases curr with
    | nil => simp [componentLoop, hexFrom]
    | cons wch curr =>
      cases digit : hexToUint wch with
      | none => simp [componentLoop, digit]
      | some intVal => simp [componentLoop, digit, ih, hex_from_cons digit]

theorem sharp_component_iff (component : Nat) (positive : 0 < count) (few : count ≤ 4)
    (isLength : digits.length = count) (rest : List WChar) (result : Nat × Nat × List WChar) :
    parseComponent true component count (digits ++ rest) = some result ↔
      HexGroup digits ∧ (sharpScaled digits, count, rest) = result := by
  have nonempty : digits ≠ [] := ne_nil_of_length_pos (by omega)
  rw [parseComponent, if_pos rfl, sharp_loop, ← isLength, take_left, drop_left]
  simp only [List.all_eq_true]
  by_cases hex : ∀ wch ∈ digits, (hexToUint wch).isSome = true
  · have group : HexGroup digits := ⟨nonempty, by omega, hex⟩
    simp only [if_pos hex, Bool.false_or, isEmpty_eq_false_iff.mpr nonempty, Bool.not_false, Bool.not_true, Bool.false_eq_true,
      if_false, if_true, (group_scales group).2.1, Option.some.injEq]
    exact (and_iff_right group).symm
  · simp only [if_neg hex]
    exact iff_of_false (by simp) (fun both => hex both.1.hex)

theorem sharp_components_iff (positive : 0 < count) (few : count ≤ 4)
    (isRed : red.length = count) (isGreen : green.length = count) (isBlue : blue.length = count) (color : Color) :
    parseComponents true count (red ++ (green ++ blue)) = some color ↔
      HexGroup red ∧ HexGroup green ∧ HexGroup blue ∧ ⟨sharpScaled red, sharpScaled green, sharpScaled blue⟩ =
      color := by
  have lowByte {digits : List WChar} (group : HexGroup digits) : sharpScaled digits % 256 = sharpScaled digits :=
    mod_eq_of_lt (group_scales group).2.2.2
  have last := sharp_component_iff 2 positive few isBlue []
  rw [append_nil] at last
  simp only [parseComponents, bind_eq_bind, bind_eq_some_iff, sharp_component_iff _ positive few isRed]
  constructor
  · rintro ⟨_, ⟨redGroup, rfl⟩, _, parsedGreen, _, parsedBlue, ended⟩
    obtain ⟨greenGroup, rfl⟩ := (sharp_component_iff _ positive few isGreen ..).mp parsedGreen
    obtain ⟨blueGroup, rfl⟩ := (last _).mp parsedBlue
    rw [if_pos rfl, lowByte redGroup, lowByte greenGroup, lowByte blueGroup, Option.some.injEq] at ended
    exact ⟨redGroup, greenGroup, blueGroup, ended⟩
  · rintro ⟨redGroup, greenGroup, blueGroup, rfl⟩
    refine ⟨_, ⟨redGroup, rfl⟩, _, (sharp_component_iff _ positive few isGreen ..).mpr ⟨greenGroup, rfl⟩,
      _, (last _).mpr ⟨blueGroup, rfl⟩, ?_⟩
    simp [lowByte redGroup, lowByte greenGroup, lowByte blueGroup]

theorem thirds {text : List WChar} (isLength : text.length = 3 * count) :
    ∃ red green blue, text = red ++ (green ++ blue) ∧ red.length = count ∧ green.length = count ∧
    blue.length = count := by
  refine ⟨text.take count, (text.drop count).take count, (text.drop count).drop count, ?_, ?_, ?_, ?_⟩
  · rw [take_append_drop, take_append_drop]
  all_goals
    simp only [length_take, length_drop]
    omega

theorem color_spec_iff (string : List WChar) (color : Color) : colorFromXParseColorSpec string = some color ↔
    ColorSpec string color := by
  rw [colorFromXParseColorSpec]
  constructor
  · intro parsed
    split at parsed
    · rename_i leads
      split at parsed
      · cases parsed
      · obtain ⟨red, green, blue, isRed, isGreen, isBlue, rest, rfl⟩ := (rgb_components_iff ..).mp parsed
        rw [← take_append_drop 4 string, rest]
        exact .rgb _ red green blue leads.2 isRed isGreen isBlue
    · split at parsed
      · rename_i sharp
        obtain ⟨rest, rfl⟩ := head?_eq_some_iff.mp sharp.2
        split at parsed
        · cases parsed
        rename_i sizes
        rw [not_not, length_cons] at sizes
        have isThird : rest.length = 3 * ((rest.length + 1 - 1) / 3) := by omega
        generalize (rest.length + 1 - 1) / 3 = count at parsed isThird
        obtain ⟨red, green, blue, rfl, isRed, isGreen, isBlue⟩ := thirds isThird
        obtain ⟨redGroup, greenGroup, blueGroup, rfl⟩ :=
          (sharp_components_iff (by omega) (by omega) isRed isGreen isBlue color).mp parsed
        exact .sharp red green blue redGroup greenGroup blueGroup (by omega) (by omega)
      · cases parsed
  · rintro (⟨leading, red, green, blue, isLeading, isRed, isGreen, isBlue⟩ | ⟨red, green, blue, isRed, isGreen, isBlue,
      sameGreen, sameBlue⟩)
    · have four : leading.length = 4 := by simpa using congrArg length isLeading
      have redShort := isRed.short
      have greenShort := isGreen.short
      have blueShort := isBlue.short
      have redLong := length_pos_of_ne_nil isRed.nonempty
      have greenLong := length_pos_of_ne_nil isGreen.nonempty
      have blueLong := length_pos_of_ne_nil isBlue.nonempty
      rw [take_left' four, drop_left' four]
      simp only [length_append, length_cons]
      rw [if_pos ⟨by omega, isLeading⟩, if_neg (by omega)]
      exact (rgb_components_iff ..).mpr ⟨red, green, blue, isRed, isGreen, isBlue, rfl, rfl⟩
    · have short := isRed.short
      have long := length_pos_of_ne_nil isRed.nonempty
      have count : (0x23 :: (red ++ (green ++ blue))).length = 1 + 3 * red.length := by
        simp only [length_append, length_cons]
        omega
      have other : (map lowered (take 4 (0x23 :: (red ++ (green ++ blue))))) ≠ [0x72, 0x67, 0x62, 0x3A] := by
        intro leads
        have first : lowered 0x23 = 0x72 := (cons.inj leads).1
        exact absurd first (by decide)
      rw [if_neg (fun leads => other leads.2), if_pos ⟨by omega, rfl⟩, if_neg (by omega), count,
        show (1 + 3 * red.length - 1) / 3 = red.length by omega]
      exact (sharp_components_iff long short rfl sameGreen sameBlue _).mpr ⟨isRed, isGreen, isBlue, rfl⟩

theorem color_from_xterm_iff (names : List WChar → Option Color) (string : List WChar) (color : Color) :
    (colorFromXParseColorSpec string = some color ↔ ColorSpec string color) ∧
    (colorFromXTermColor names string = some color ↔
      ColorSpec string color ∨ (¬ ∃ other, ColorSpec string other) ∧ names string = some color) := by
  refine ⟨color_spec_iff string color, ?_⟩
  rw [colorFromXTermColor]
  split
  · rename_i other read
    have spec := (color_spec_iff string other).mp read
    rw [← color_spec_iff, read]
    constructor
    · exact .inl
    · rintro (same | ⟨absent, _⟩)
      · exact same
      · exact absurd ⟨other, spec⟩ absent
  · rename_i refused
    have nothing (other : Color) : ¬ ColorSpec string other := by
      rw [← color_spec_iff, refused]
      simp
    simp [nothing]

def onlyRed (string : List WChar) : Option Color := if string = [0x72, 0x65, 0x64] then some ⟨255, 0, 0⟩ else none

theorem color_name_not_spec :
    colorFromXParseColorSpec [0x72, 0x65, 0x64] = none ∧ colorFromXTermColor onlyRed [0x72, 0x65, 0x64] =
      some ⟨255, 0, 0⟩ :=
  ⟨rfl, rfl⟩

def splitLoop (delimiter : WChar) : List WChar → List WChar → List (List WChar)
  | part, [] => [part]
  | part, wch :: rest => if wch = delimiter then part :: splitLoop delimiter [] rest else splitLoop delimiter (part ++ [wch]) rest

def splitString (wstr : List WChar) (delimiter : WChar) : List (List WChar) :=
  if wstr = [] then [] else splitLoop delimiter [] wstr

-- none is COLOR_INQUIRY_COLOR.
def colorTablePairs (names : List WChar → Option Color) : List (List WChar) → List (UInt32 × Option Color)
  | index :: color :: parts =>
    let pair := match stringToUint index with
      | none => []
      | some tableIndex =>
        if color = [0x3F] then [(tableIndex, none)]
        else match colorFromXTermColor names color with
          | some rgb => [(tableIndex, some rgb)]
          | none => []
    pair ++ colorTablePairs names parts
  | _ => []

def getOscSetColorTable (names : List WChar → Option Color) (string : List WChar) : Option (List (UInt32 × Option Color)) :=
  let parts := splitString string 0x3B
  if parts.length < 2 then none
  else
    let pairs := colorTablePairs names parts
    if pairs = [] then none else some pairs

-- 4294967297;? and 1;?
theorem color_index_aliases :
    getOscSetColorTable onlyRed [0x34, 0x32, 0x39, 0x34, 0x39, 0x36, 0x37, 0x32, 0x39, 0x37, 0x3B, 0x3F] = some [(1, none)] ∧
      getOscSetColorTable onlyRed [0x31, 0x3B, 0x3F] = some [(1, none)] :=
  ⟨rfl, rfl⟩

end Cogterm.Types.Utils
