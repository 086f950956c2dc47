import Cogterm.TextBuffer.Renditions

namespace Cogterm.Buffer

open VirtualTerminal List CharacterAttributes

structure Rendition where
  intense : Bool
  faint : Bool
  italics : Bool
  blinking : Bool
  invisible : Bool
  crossedOut : Bool
  overlined : Bool
  reverseVideo : Bool
  underlineStyle : Fin 8
  foreground : TextColor
  background : TextColor
  underlineColor : TextColor
deriving DecidableEq, Repr

def TextAttribute.rendition (attr : TextAttribute) : Rendition where
  intense := attr.attrs.intense
  faint := attr.attrs.faint
  italics := attr.attrs.italics
  blinking := attr.attrs.blinking
  invisible := attr.attrs.invisible
  crossedOut := attr.attrs.crossedOut
  overlined := attr.attrs.topGridline
  reverseVideo := attr.attrs.reverseVideo
  underlineStyle := attr.attrs.underlineStyle
  foreground := attr.foreground
  background := attr.background
  underlineColor := attr.underlineColor

def applySequences (sequences : List (List WChar)) (attr : TextAttribute) : TextAttribute :=
  sequences.foldl (fun attr parameters => renders parameters attr) attr

theorem apply_append (first second : List (List WChar)) (attr : TextAttribute) :
    applySequences (first ++ second) attr = applySequences second (applySequences first attr) := foldl_append

theorem apply_if (condition : Prop) [Decidable condition] (parameters : List WChar) (attr : TextAttribute) :
    applySequences (if condition then [parameters] else []) attr = if condition then renders parameters attr else attr := by
  split <;> rfl

variable {attr current : TextAttribute} {previous : CharacterAttributes}

structure FlagCode (get : CharacterAttributes → Bool) (set : TextAttribute → Bool → TextAttribute) (off on : Nat) :
    Prop where
  off : ∀ attr, renders (formatNumber off) attr = set attr false
  on : ∀ attr, renders (formatNumber on) attr = set attr true
  same : ∀ attr, set attr (get attr.attrs) = attr

theorem italics_code : FlagCode italics TextAttribute.setItalic 23 3 := ⟨fun _ => rfl, fun _ => rfl, fun _ => rfl⟩

theorem blinking_code : FlagCode blinking TextAttribute.setBlinking 25 5 :=
  ⟨fun _ => rfl, fun _ => rfl, fun _ => rfl⟩

theorem invisible_code : FlagCode invisible TextAttribute.setInvisible 28 8 :=
  ⟨fun _ => rfl, fun _ => rfl, fun _ => rfl⟩

theorem crossed_out_code : FlagCode crossedOut TextAttribute.setCrossedOut 29 9 :=
  ⟨fun _ => rfl, fun _ => rfl, fun _ => rfl⟩

theorem overlined_code : FlagCode topGridline TextAttribute.setOverlined 55 53 :=
  ⟨fun _ => rfl, fun _ => rfl, fun _ => rfl⟩

theorem reverse_video_code : FlagCode reverseVideo TextAttribute.setReverseVideo 27 7 :=
  ⟨fun _ => rfl, fun _ => rfl, fun _ => rfl⟩

theorem flag_step (get : CharacterAttributes → Bool) (set : TextAttribute → Bool → TextAttribute) (off on : Nat)
    (code : FlagCode get set off on) (wanted previous : Bool) (attr : TextAttribute) (same : get attr.attrs = previous) :
    applySequences (if (wanted ^^ previous) = true then [formatNumber (if wanted then on else off)] else []) attr =
    set attr wanted := by
  have kept := code.same attr
  rw [same] at kept
  cases wanted with
  | false =>
    cases previous with
    | false => exact kept.symm
    | true => exact code.off attr
  | true =>
    cases previous with
    | false => exact code.on attr
    | true => exact kept.symm

-- The flags other than the two that share a code.
def TextAttribute.withFlags (current : TextAttribute) (attr : CharacterAttributes) (isIntense isFaint : Bool) : TextAttribute :=
  { current with
    attrs :=
      { current.attrs with
        intense := isIntense
        faint := isFaint
        italics := attr.italics
        blinking := attr.blinking
        invisible := attr.invisible
        crossedOut := attr.crossedOut
        topGridline := attr.topGridline
        reverseVideo := attr.reverseVideo } }

-- Turning off one of the two turns off the other one, too.
def mappedIntensity (attr current : CharacterAttributes) (changesIntense changesFaint : Bool) : Bool × Bool :=
  let first :=
    if changesIntense then (if attr.intense then (true, current.faint) else (false, false)) else (current.intense, current.faint)
  if changesFaint then (if attr.faint then (first.1, true) else (false, false)) else first

theorem intensity_step (set : TextAttribute → Bool → TextAttribute) (on : Nat) (attr : TextAttribute)
    (code : renders (formatNumber on) attr = set attr true) (wanted changes : Bool) :
    applySequences (if changes = true then [formatNumber (if wanted then on else 22)] else []) attr =
      if changes then (if wanted then set attr true else (attr.setIntense false).setFaint false) else attr := by
  cases changes with
  | false => rfl
  | true =>
    cases wanted with
    | false =>
      simp only [Bool.false_eq_true, if_false]
      rfl
    | true => exact code

structure SameFlags (attrs previous : CharacterAttributes) : Prop where
  italics : attrs.italics = previous.italics
  blinking : attrs.blinking = previous.blinking
  invisible : attrs.invisible = previous.invisible
  crossedOut : attrs.crossedOut = previous.crossedOut
  topGridline : attrs.topGridline = previous.topGridline
  reverseVideo : attrs.reverseVideo = previous.reverseVideo

theorem intense_keeps_flags (same : SameFlags attr.attrs previous) (wanted changes : Bool) :
    SameFlags (if changes then (if wanted then attr.setIntense true else (attr.setIntense false).setFaint false) else attr).attrs
      previous := by
  cases changes with
  | false => exact same
  | true =>
    cases wanted with
    | false => exact { same with }
    | true => exact { same with }

theorem faint_keeps_flags (attr : TextAttribute) (wanted changes : Bool) :
    let changed := if changes then (if wanted then attr.setFaint true else (attr.setIntense false).setFaint false) else attr
    changed.attrs.topGridline = attr.attrs.topGridline ∧ changed.attrs.reverseVideo = attr.attrs.reverseVideo := by
  cases changes with
  | false => exact ⟨rfl, rfl⟩
  | true => cases wanted <;> exact ⟨rfl, rfl⟩

theorem mapping_sequences (attr : CharacterAttributes) (same : SameFlags current.attrs previous)
    (changesIntense changesFaint : Bool) :
    applySequences (mappingSequences attr { attr.delta previous with intense := changesIntense, faint := changesFaint }) current =
      current.withFlags attr (mappedIntensity attr current.attrs changesIntense changesFaint).1
        (mappedIntensity attr current.attrs changesIntense changesFaint).2 := by
  have kept := intense_keeps_flags same attr.intense changesIntense
  simp only [mappingSequences, mappings, flatMap_cons, apply_append, delta]
  rw [intensity_step .setIntense 1 current rfl]
  obtain ⟨first, isFirst⟩ : ∃ first, first = if changesIntense then (if attr.intense then current.setIntense true else
    (current.setIntense false).setFaint false) else current := ⟨_, rfl⟩
  rw [← isFirst] at kept ⊢
  obtain ⟨second, isSecond⟩ : ∃ second, second = (((first.setItalic attr.italics).setBlinking attr.blinking).setInvisible
    attr.invisible).setCrossedOut attr.crossedOut := ⟨_, rfl⟩
  obtain ⟨third, isThird⟩ : ∃ third, third = if changesFaint then (if attr.faint then second.setFaint true else
    (second.setIntense false).setFaint false) else second := ⟨_, rfl⟩
  have later := faint_keeps_flags second attr.faint changesFaint
  have top : third.attrs.topGridline = previous.topGridline := by
    rw [isThird, later.1, isSecond]
    exact kept.topGridline
  have reverse : third.attrs.reverseVideo = previous.reverseVideo := by
    rw [isThird, later.2, isSecond]
    exact kept.reverseVideo
  rw [flag_step _ _ _ _ italics_code _ _ first kept.italics,
    flag_step _ _ _ _ blinking_code _ _ (first.setItalic attr.italics) kept.blinking,
    flag_step _ _ _ _ invisible_code _ _ ((first.setItalic attr.italics).setBlinking attr.blinking) kept.invisible,
    flag_step _ _ _ _ crossed_out_code _ _
    (((first.setItalic attr.italics).setBlinking attr.blinking).setInvisible attr.invisible)
      kept.crossedOut, ← isSecond, intensity_step .setFaint 2 second rfl, ← isThird,
      flag_step _ _ _ _ overlined_code _ _ third top,
    flag_step _ _ _ _ reverse_video_code _ _ (third.setOverlined attr.topGridline) reverse, isThird, isSecond, isFirst,
    mappedIntensity]
  cases changesIntense <;> cases changesFaint <;> cases attr.intense <;> cases attr.faint <;> rfl

structure SameAttributes (attrs previous : CharacterAttributes) : Prop extends SameFlags attrs previous where
  intense : attrs.intense = previous.intense
  faint : attrs.faint = previous.faint
  underlineStyle : attrs.underlineStyle = previous.underlineStyle

-- Bold text behind dim text loses what it was turned on with.
def losesIntense (attr previous : CharacterAttributes) : Bool :=
  (previous.faint && !previous.intense) && (attr.intense && !attr.faint)

def TextAttribute.withAttributes (current : TextAttribute) (attr : CharacterAttributes) (isIntense : Bool) : TextAttribute :=
  (current.withFlags attr isIntense attr.faint).setUnderlineStyle attr.underlineStyle

theorem with_attributes_same {attr : CharacterAttributes} (same : SameAttributes current.attrs attr) :
    current.withAttributes attr attr.intense = current := by
  obtain ⟨⟨italics, blinking, invisible, crossedOut, topGridline, reverseVideo⟩, intense, faint, underlineStyle⟩ := same
  rw [TextAttribute.withAttributes, TextAttribute.withFlags, TextAttribute.setUnderlineStyle, ← italics, ← blinking,
    ← invisible, ← crossedOut, ← topGridline, ← reverseVideo, ← intense, ← faint, ← underlineStyle]

theorem renders_intensity {attr : CharacterAttributes} (notBoth : (attr.intense && attr.faint) = false) :
    renders (intensitySequence attr) current = (current.setIntense attr.intense).setFaint attr.faint := by
  rw [intensitySequence]
  cases intense : attr.intense with
  | false => cases attr.faint <;> rfl
  | true =>
    rw [intense, Bool.true_and] at notBoth
    rw [notBoth]
    rfl

theorem underline_styles_differ : ∀ style previous : Fin 8, style ^^^ previous = 0 ↔ style = previous := by decide

theorem renders_underline_style (small : style.val ≤ 5) (attr : TextAttribute) :
    renders (underlineSequence style) attr = attr.setUnderlineStyle style := by
  have all : ∀ style : Fin 6, renders (underlineSequence (style.castLE (by decide))) attr =
      attr.setUnderlineStyle (style.castLE (by decide)) := by
    intro style
    fin_cases style <;> rfl
  exact all ⟨style.val, by omega⟩

theorem underline_step {style previous : Fin 8} (small : style.val ≤ 5) (same : attr.attrs.underlineStyle = previous) :
    applySequences (if style ^^^ previous ≠ 0 then [underlineSequence style] else []) attr = attr.setUnderlineStyle style := by
  rw [apply_if]
  by_cases equal : style = previous
  · rw [if_neg (not_not.mpr ((underline_styles_differ style previous).mpr equal)), equal, ← same]
    rfl
  · rw [if_pos (mt (underline_styles_differ style previous).mp equal), renders_underline_style small]

theorem mapped_intensity {attr current : CharacterAttributes} (intense : current.intense = previous.intense)
    (faint : current.faint = previous.faint) (notBoth : turnsOffBoth attr previous = false) :
    mappedIntensity attr current (attr.delta previous).intense (attr.delta previous).faint =
      (attr.intense && !losesIntense attr previous, attr.faint) := by
  have all : ∀ a b c d : Bool, ((c && d) && ((a ^^ c) || (b ^^ d))) = false →
      (let first := if (a ^^ c) = true then (if a = true then (true, d) else (false, false)) else (c, d)
        if (b ^^ d) = true then (if b = true then (first.1, true) else (false, false)) else first) =
        (a && !((d && !c) && (a && !b)), b) := by decide
  rw [mappedIntensity, intense, faint]
  exact all attr.intense attr.faint previous.intense previous.faint notBoth

theorem not_loses_same (attr : CharacterAttributes) : losesIntense attr attr = false := by
  rw [losesIntense]
  cases attr.intense <;> cases attr.faint <;> rfl

theorem turns_off_both {attr : CharacterAttributes} (both : turnsOffBoth attr previous = true) :
    (attr.intense && attr.faint) = false ∧ losesIntense attr previous = false := by
  have all : ∀ a b c d : Bool, ((c && d) && ((a ^^ c) || (b ^^ d))) = true →
      (a && b) = false ∧ ((d && !c) && (a && !b)) = false := by decide
  exact all attr.intense attr.faint previous.intense previous.faint both

theorem attribute_sequences {attr : CharacterAttributes} (small : attr.underlineStyle.val ≤ 5)
    (same : SameAttributes current.attrs previous) : applySequences (attributeSequences attr previous) current =
      current.withAttributes attr (attr.intense && !losesIntense attr previous) := by
  rw [attributeSequences]
  by_cases changed : previous = attr
  · rw [changed] at same
    rw [if_neg (not_not.mpr changed), changed, not_loses_same, Bool.not_false, Bool.and_true, with_attributes_same same]
    rfl
  rw [if_pos changed]
  cases both : turnsOffBoth attr previous with
  | true =>
    obtain ⟨notBoth, keeps⟩ := turns_off_both both
    have flags : SameFlags ((current.setIntense attr.intense).setFaint attr.faint).attrs previous :=
      { same with }
    have mapped := mapping_sequences attr flags false false
    simp only [if_true, apply_append, keeps, Bool.not_false, Bool.and_true]
    rw [show applySequences [intensitySequence attr] current = renders (intensitySequence attr) current from rfl,
      renders_intensity notBoth, mapped]
    exact underline_step small same.underlineStyle
  | false =>
    have mapped := mapping_sequences attr same.toSameFlags (attr.delta previous).intense (attr.delta previous).faint
    rw [mapped_intensity same.intense same.faint both] at mapped
    simp only [Bool.false_eq_true, if_false, nil_append, apply_append]
    rw [show applySequences (mappingSequences attr (attr.delta previous)) current = _ from mapped]
    exact underline_step small same.underlineStyle

def renderedUnderlineColor (attr previous : TextAttribute) : TextColor :=
  if previous.underlineColor = attr.underlineColor then attr.underlineColor
  else
    match attr.foreground.getType with
    | .isDefault => .default
    | .isIndex16 => previous.underlineColor
    | .isIndex256 => .index256 attr.underlineColor.getIndex
    | .isRgb => .rgb attr.underlineColor.getR attr.underlineColor.getG attr.underlineColor.getB

theorem color_step {color previous : TextColor} {sequence : List WChar} {set : TextAttribute → TextColor → TextAttribute}
    (code : renders sequence attr = set attr color) (same : set attr previous = attr) :
    applySequences (if previous ≠ color then [sequence] else []) attr = set attr color := by
  rw [apply_if]
  by_cases equal : previous = color
  · simp [← equal, same]
  · rw [if_pos equal, code]

theorem underline_color_step (attr previous current : TextAttribute) (same : current.underlineColor = previous.underlineColor) :
    applySequences
      (if previous.underlineColor ≠ attr.underlineColor then underlineColorSequences attr.foreground attr.underlineColor
        else []) current =
      current.setUnderlineColor (renderedUnderlineColor attr previous) := by
  rw [renderedUnderlineColor]
  by_cases equal : previous.underlineColor = attr.underlineColor
  · rw [if_neg (not_not.mpr equal), if_pos equal, ← equal, ← same]
    rfl
  rw [if_pos equal, if_neg equal, underlineColorSequences]
  cases attr.foreground.getType with
  | isDefault => rfl
  | isIndex16 =>
    rw [← same]
    rfl
  | isIndex256 => exact renders_underline_table
  | isRgb => exact renders_underline_rgb

structure TextAttribute.Expressible (attr : TextAttribute) : Prop where
  underlineStyle : attr.attrs.underlineStyle.val ≤ 5
  foreground : attr.foreground.Expressible
  background : attr.background.Expressible
  underlineColor : attr.underlineColor.getType ≠ .isIndex16

def TextAttribute.Follows (attr previous : TextAttribute) : Prop :=
  losesIntense attr.attrs previous.attrs = false ∧
    (previous.underlineColor = attr.underlineColor ∨ attr.foreground.getType = attr.underlineColor.getType)

instance (attr previous : TextAttribute) : Decidable (attr.Follows previous) := inferInstanceAs (Decidable (_ ∧ _))

theorem same_attributes {previous : TextAttribute} (same : current.rendition = previous.rendition) :
    SameAttributes current.attrs previous.attrs := by
  rw [TextAttribute.rendition, TextAttribute.rendition, Rendition.mk.injEq] at same
  obtain ⟨intense, faint, italics, blinking, invisible, crossedOut, overlined, reverseVideo, underlineStyle, _⟩ := same
  exact ⟨⟨italics, blinking, invisible, crossedOut, overlined, reverseVideo⟩, intense, faint, underlineStyle⟩

theorem graphics_sequences {previous : TextAttribute} (expressible : attr.Expressible)
    (same : current.rendition = previous.rendition) :
    (applySequences (graphicsSequences attr previous) current).rendition = { attr.rendition with
        intense := attr.attrs.intense && !losesIntense attr.attrs previous.attrs
        underlineColor := renderedUnderlineColor attr previous } := by
  have foreground : current.foreground = previous.foreground := congrArg Rendition.foreground same
  have background : current.background = previous.background := congrArg Rendition.background same
  have underlineColor : current.underlineColor = previous.underlineColor := congrArg Rendition.underlineColor same
  obtain ⟨isIntense, isIsIntense⟩ :
    ∃ isIntense, isIntense = (attr.attrs.intense && !losesIntense attr.attrs previous.attrs) :=
    ⟨_, rfl⟩
  rw [graphicsSequences, apply_append, apply_append, apply_append,
    attribute_sequences expressible.underlineStyle (same_attributes same), ← isIsIntense,
    color_step (renders_foreground expressible.foreground _) (foreground ▸ rfl),
    color_step (renders_background expressible.background _) (background ▸ rfl),
    underline_color_step attr previous
      (((current.withAttributes attr.attrs isIntense).setForeground attr.foreground).setBackground attr.background)
      underlineColor]
  rfl

theorem rendered_underline_color_iff {previous : TextAttribute} (expressible : attr.underlineColor.getType ≠ .isIndex16) :
    renderedUnderlineColor attr previous = attr.underlineColor ↔
      previous.underlineColor = attr.underlineColor ∨ attr.foreground.getType = attr.underlineColor.getType := by
  rw [renderedUnderlineColor]
  by_cases equal : previous.underlineColor = attr.underlineColor
  · rw [if_pos equal]
    exact ⟨fun _ => .inl equal, fun _ => rfl⟩
  generalize attr.underlineColor = color at *
  cases color with
  | index16 index => exact absurd rfl expressible
  | default => cases attr.foreground.getType <;> simp [TextColor.getType]
  | index256 index => cases attr.foreground.getType <;> simp [TextColor.getType, TextColor.getIndex]
  | rgb red green blue =>
    cases attr.foreground.getType <;> simp [TextColor.getType, TextColor.getR, TextColor.getG, TextColor.getB, TextColor.getIndex]

theorem graphics_follow_iff {previous : TextAttribute} (expressible : attr.Expressible)
    (same : current.rendition = previous.rendition) :
    (applySequences (graphicsSequences attr previous) current).rendition = attr.rendition ↔ attr.Follows previous := by
  rw [graphics_sequences expressible same, TextAttribute.Follows, ← rendered_underline_color_iff expressible.underlineColor]
  constructor
  · intro equal
    have intense : (attr.attrs.intense && !losesIntense attr.attrs previous.attrs) = attr.attrs.intense :=
      congrArg Rendition.intense equal
    refine ⟨?_, congrArg Rendition.underlineColor equal⟩
    cases loses : losesIntense attr.attrs previous.attrs with
    | false => rfl
    | true =>
      rw [loses, Bool.not_true] at intense
      rw [losesIntense, ← intense] at loses
      simp at loses
  · rintro ⟨keeps, underlineColor⟩
    rw [keeps, underlineColor, Bool.not_false, Bool.and_true]
    rfl

end Cogterm.Buffer
