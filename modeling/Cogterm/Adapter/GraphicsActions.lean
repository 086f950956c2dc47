import Cogterm.TextBuffer.Renditions

namespace Cogterm.VirtualTerminal

open Buffer

attribute [ext] CharacterAttributes TextAttribute

-- The bits of the character attributes other than the underline style and the
-- protection.
inductive Flag where
  | intense | italics | blinking | invisible | crossedOut | faint | reverseVideo | overlined
  | unused1 | leftGridline | rightGridline | bottomGridline
deriving DecidableEq

def Flag.get : Flag → CharacterAttributes → Bool
  | .intense => (·.intense)
  | .italics => (·.italics)
  | .blinking => (·.blinking)
  | .invisible => (·.invisible)
  | .crossedOut => (·.crossedOut)
  | .faint => (·.faint)
  | .reverseVideo => (·.reverseVideo)
  | .overlined => (·.topGridline)
  | .unused1 => (·.unused1)
  | .leftGridline => (·.leftGridline)
  | .rightGridline => (·.rightGridline)
  | .bottomGridline => (·.bottomGridline)

def Flag.Valid (flag : Flag) (value : Bool) : Prop :=
  flag ∈ [unused1, leftGridline, rightGridline, bottomGridline] → value = false

variable {action next : TextAttribute → TextAttribute} {off on attr : TextAttribute} {α : Type} {valid : α → Prop}
  {field : TextAttribute → α}

-- A field of the attributes stays as it is, or it becomes a value that only
-- depends on the options.
def Assigns (valid : α → Prop) (field : TextAttribute → α) (action : TextAttribute → TextAttribute) : Prop :=
  (∀ attr, field (action attr) = field attr) ∨ ∃ value, valid value ∧ ∀ attr, field (action attr) = value

theorem assigns_comp (first : Assigns valid field action) (second : Assigns valid field next) :
    Assigns valid field (next ∘ action) := by
  rcases second with kept | ⟨value, isValid, assigned⟩
  · rcases first with earlier | ⟨value, isValid, assigned⟩
    · exact .inl fun attr => (kept _).trans (earlier attr)
    · exact .inr ⟨value, isValid, fun attr => (kept _).trans (assigned attr)⟩
  · exact .inr ⟨value, isValid, fun attr => assigned _⟩

theorem assigns_valid (assigns : Assigns valid field action) (isValid : valid (field attr)) : valid (field (action attr)) := by
  rcases assigns with kept | ⟨value, isValue, assigned⟩
  · rwa [kept]
  · rwa [assigned]

structure GraphicsAction (action : TextAttribute → TextAttribute) : Prop where
  flags : ∀ flag : Flag, Assigns flag.Valid (flag.get ·.attrs) action
  underlineStyle : Assigns (· ≤ 5) (·.attrs.underlineStyle) action
  foreground : Assigns TextColor.Expressible (·.foreground) action
  background : Assigns TextColor.Expressible (·.background) action
  underlineColor : Assigns (·.getType ≠ .isIndex16) (·.underlineColor) action
  isProtected : ∀ attr, (action attr).attrs.isProtected = attr.attrs.isProtected
  hyperlinkId : ∀ attr, (action attr).hyperlinkId = attr.hyperlinkId
  markKind : ∀ attr, (action attr).markKind = attr.markKind

theorem graphics_action_comp (first : GraphicsAction action) (second : GraphicsAction next) :
    GraphicsAction (next ∘ action) where
  flags flag := assigns_comp (first.flags flag) (second.flags flag)
  underlineStyle := assigns_comp first.underlineStyle second.underlineStyle
  foreground := assigns_comp first.foreground second.foreground
  background := assigns_comp first.background second.background
  underlineColor := assigns_comp first.underlineColor second.underlineColor
  isProtected attr := (second.isProtected _).trans (first.isProtected attr)
  hyperlinkId attr := (second.hyperlinkId _).trans (first.hyperlinkId attr)
  markKind attr := (second.markKind _).trans (first.markKind attr)

theorem keeps_action : GraphicsAction id :=
  ⟨fun _ => .inl fun _ => rfl, .inl fun _ => rfl, .inl fun _ => rfl, .inl fun _ => rfl, .inl fun _ => rfl, fun _ => rfl,
    fun _ => rfl, fun _ => rfl⟩

theorem foreground_action (small : color.Expressible) : GraphicsAction (·.setForeground color) :=
  { keeps_action with foreground := .inr ⟨color, small, fun _ => rfl⟩ }

theorem background_action (small : color.Expressible) : GraphicsAction (·.setBackground color) :=
  { keeps_action with background := .inr ⟨color, small, fun _ => rfl⟩ }

theorem underline_color_action (large : color.getType ≠ .isIndex16) : GraphicsAction (·.setUnderlineColor color) :=
  { keeps_action with underlineColor := .inr ⟨color, large, fun _ => rfl⟩ }

theorem underline_style_action (small : style ≤ 5) : GraphicsAction (·.setUnderlineStyle style) :=
  { keeps_action with
    flags := fun flag => .inl (by cases flag <;> exact fun _ => rfl)
    underlineStyle := .inr ⟨style, small, fun _ => rfl⟩ }

theorem apply_color_action (large : color.getType ≠ .isIndex16) (colorItem : Nat) :
    GraphicsAction (applyColor colorItem color) := by
  have small : color.Expressible := fun isIndex => absurd isIndex large
  unfold applyColor
  split_ifs
  · exact foreground_action small
  · exact background_action small
  · exact underline_color_action large
  · exact keeps_action

theorem rgb_action (colorItem red green blue : Nat) : GraphicsAction (applyColorIf colorItem (rgbColor red green blue)) := by
  unfold rgbColor
  split
  · exact apply_color_action (fun isIndex => by cases isIndex) colorItem
  · exact keeps_action

theorem table_action (colorItem tableIndex : Nat) : GraphicsAction (applyColorIf colorItem (tableColor tableIndex)) := by
  unfold tableColor
  split
  · exact apply_color_action (fun isIndex => by cases isIndex) colorItem
  · exact keeps_action

theorem indexed_action (option : Nat) : GraphicsAction (indexedColor option) := by
  have small (index : Nat) (bound : index < 16) : TextColor.Expressible (.index16 (UInt8.ofNat index)) := by
    intro _
    show UInt8.ofNat index < 16
    rw [UInt8.lt_iff_toNat_lt, UInt8.toNat_ofNat_of_lt' (Nat.lt_trans bound (by decide))]
    exact bound
  unfold indexedColor
  split_ifs
  · exact foreground_action (small _ (by omega))
  · exact background_action (small _ (by omega))
  · exact foreground_action (small _ (by omega))
  · exact background_action (small _ (by omega))
  · exact keeps_action

theorem simple_action (option : Nat) : GraphicsAction (simpleGraphicsOption option) := by
  have default : TextColor.Expressible .default := fun isIndex => by cases isIndex
  unfold simpleGraphicsOption
  split
  case h_24 => exact indexed_action option
  all_goals
    refine ⟨fun flag => ?_, ?_, ?_, ?_, ?_, fun _ => rfl, fun _ => rfl, fun _ => rfl⟩
    · cases flag <;> first | exact .inl fun _ => rfl | exact .inr ⟨_, by unfold Flag.Valid; decide, fun _ => rfl⟩
    · first | exact .inl fun _ => rfl | exact .inr ⟨_, by decide, fun _ => rfl⟩
    · first | exact .inl fun _ => rfl | exact .inr ⟨_, default, fun _ => rfl⟩
    · first | exact .inl fun _ => rfl | exact .inr ⟨_, default, fun _ => rfl⟩
    · first | exact .inl fun _ => rfl | exact .inr ⟨_, by decide, fun _ => rfl⟩

theorem sub_params_action (option : Nat) (subParams : List VTParameter) :
    GraphicsAction (applyGraphicsOptionWithSubParams option subParams) := by
  have small : ∀ style < 6, Fin.ofNat 8 style ≤ 5 := by decide
  unfold applyGraphicsOptionWithSubParams setUnderlineStyleHelper setRgbColorsHelperFromSubParams
  dsimp only
  split_ifs
  · exact underline_style_action (small _ (by omega))
  · exact keeps_action
  · exact keeps_action
  · exact rgb_action _ _ _ _
  · exact table_action _ _
  · exact keeps_action
  · exact keeps_action

section

variable {options rest : List (VTParameter × List VTParameter)}

theorem option_acts (field : VTParameter × List VTParameter) :
    ∃ action consumed, GraphicsAction action ∧ ∀ attr, applyGraphicsOption field rest attr = (action attr, consumed) := by
  unfold applyGraphicsOption setRgbColorsHelper
  dsimp only
  split_ifs <;> first
    | exact ⟨_, _, sub_params_action _ _, fun _ => rfl⟩
    | exact ⟨_, _, rgb_action _ _ _ _, fun _ => rfl⟩
    | exact ⟨_, _, table_action _ _, fun _ => rfl⟩
    | exact ⟨_, _, simple_action _, fun _ => rfl⟩
    | exact ⟨_, _, keeps_action, fun _ => rfl⟩

theorem options_loop_action (fuel : Nat) : GraphicsAction (graphicsOptionsLoop fuel options) := by
  induction fuel generalizing options with
  | zero => exact keeps_action
  | succ fuel ih =>
    cases options with
    | nil => exact keeps_action
    | cons field rest =>
      obtain ⟨action, consumed, acts, applied⟩ := option_acts field
      have steps : graphicsOptionsLoop (fuel + 1) (field :: rest) =
          graphicsOptionsLoop fuel ((field :: rest).drop consumed) ∘ action := by
        funext attr
        rw [graphicsOptionsLoop, applied]
        rfl
      rw [steps]
      exact graphics_action_comp acts ih

theorem options_action : GraphicsAction (applyGraphicsOptions options) := options_loop_action _

end

namespace CharacterAttributes

def all : CharacterAttributes := ⟨true, true, true, true, true, true, 7, true, true, true, true, true, true, true⟩

def bitwise (bit : Bool → Bool → Bool) (style : Fin 8 → Fin 8 → Fin 8) (a b : CharacterAttributes) :
    CharacterAttributes :=
  ⟨bit a.intense b.intense, bit a.italics b.italics, bit a.blinking b.blinking, bit a.invisible b.invisible,
    bit a.crossedOut b.crossedOut, bit a.faint b.faint, style a.underlineStyle b.underlineStyle, bit a.unused1 b.unused1,
    bit a.topGridline b.topGridline, bit a.leftGridline b.leftGridline, bit a.rightGridline b.rightGridline,
    bit a.isProtected b.isProtected, bit a.reverseVideo b.reverseVideo, bit a.bottomGridline b.bottomGridline⟩

def and := bitwise (· && ·) (· &&& ·)

def xor := bitwise (· ^^ ·) (· ^^^ ·)

end CharacterAttributes

open CharacterAttributes

structure ChangeOps where
  andAttrMask : CharacterAttributes
  xorAttrMask : CharacterAttributes
  foreground : Option TextColor
  background : Option TextColor
  underlineColor : Option TextColor

def allOn : TextAttribute := ⟨all, 0, .rgb 0 0 0, .rgb 0 0 0, .rgb 0 0 0, .none⟩

-- What ChangeAttributesRectangularArea makes of its options. The complement of a
-- mask is its exclusive or with all bits.
def changeOpsOf (attrs : List (VTParameter × List VTParameter)) : ChangeOps :=
  let allAttrsOff := applyGraphicsOptions attrs {}
  let allAttrsOn := applyGraphicsOptions attrs allOn
  let changed := fun (off on : TextColor) => if off ≠ .default ∨ on = .default then some off else none
  { andAttrMask := and allAttrsOn.attrs (xor all allAttrsOff.attrs)
    xorAttrMask := allAttrsOff.attrs
    foreground := changed allAttrsOff.foreground allAttrsOn.foreground
    background := changed allAttrsOff.background allAttrsOn.background
    underlineColor := changed allAttrsOff.underlineColor allAttrsOn.underlineColor }

-- What _ChangeRectAttributes does to a cell.
def ChangeOps.apply (changeOps : ChangeOps) (attr : TextAttribute) : TextAttribute :=
  { attr with
    attrs := xor (and attr.attrs changeOps.andAttrMask) changeOps.xorAttrMask
    foreground := changeOps.foreground.getD attr.foreground
    background := changeOps.background.getD attr.background
    underlineColor := changeOps.underlineColor.getD attr.underlineColor }

theorem flag_masked {valid : Bool → Prop} (assigns : Assigns valid flag action)
    (isOff : flag off = false) (isOn : flag on = true) (attr : TextAttribute) :
    (flag attr && (flag (action on) && (true ^^ flag (action off))) ^^ flag (action off)) = flag (action attr) := by
  rcases assigns with kept | ⟨value, _, assigned⟩
  · rw [kept, kept, kept, isOff, isOn]
    cases flag attr <;> rfl
  · rw [assigned, assigned, assigned]
    cases flag attr <;> cases value <;> rfl

theorem style_masked {valid : Fin 8 → Prop} (assigns : Assigns valid style action) (isOff : style off = 0)
    (isOn : style on = 7) :
    ((style attr &&& (style (action on) &&& (7 ^^^ style (action off)))) ^^^ style (action off)) = style (action attr) := by
  have bits : ∀ a b : Fin 8, (a &&& (7 &&& (7 ^^^ 0))) ^^^ 0 = a ∧ (a &&& (b &&& (7 ^^^ b))) ^^^ b = b := by decide
  rcases assigns with kept | ⟨value, _, assigned⟩
  · simpa [kept, isOff, isOn] using (bits _ 0).1
  · simpa [assigned] using (bits _ _).2

theorem color_changed {valid : TextColor → Prop} (assigns : Assigns valid color action)
    (isOff : color off = .default) (isOn : color on ≠ .default) :
    (if color (action off) ≠ .default ∨ color (action on) = .default then some (color (action off)) else none).getD
    (color attr) = color (action attr) := by
  rcases assigns with kept | ⟨value, _, assigned⟩
  · rw [kept, kept, kept, if_neg (by simp [isOff, isOn])]
    rfl
  · simp [assigned, if_pos (em' _)]

theorem change_ops_apply_options (attrs : List (VTParameter × List VTParameter)) (attr : TextAttribute) :
    (changeOpsOf attrs).apply attr = applyGraphicsOptions attrs attr := by
  have acts : GraphicsAction (applyGraphicsOptions attrs) := options_action
  have isProtected : Assigns (fun _ => True) (·.attrs.isProtected) (applyGraphicsOptions attrs) := .inl acts.isProtected
  have masked (flag : Flag) :=
    flag_masked (acts.flags flag) (show flag.get ({} : TextAttribute).attrs = false by cases flag <;> rfl)
    (show flag.get allOn.attrs = true by cases flag <;> rfl) attr
  refine TextAttribute.ext (CharacterAttributes.ext (masked .intense) (masked .italics) (masked .blinking) (masked .invisible)
    (masked .crossedOut) (masked .faint) (style_masked acts.underlineStyle rfl rfl) (masked .unused1) (masked .overlined)
    (masked .leftGridline) (masked .rightGridline) (flag_masked isProtected rfl rfl attr) (masked .reverseVideo)
    (masked .bottomGridline)) (acts.hyperlinkId attr).symm ?_ ?_ ?_ (acts.markKind attr).symm
  · exact color_changed acts.foreground rfl (by decide)
  · exact color_changed acts.background rfl (by decide)
  · exact color_changed acts.underlineColor rfl (by decide)

end Cogterm.VirtualTerminal
