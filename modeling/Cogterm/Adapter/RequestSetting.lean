import Cogterm.Adapter.GraphicsActions

namespace Cogterm.VirtualTerminal

open Buffer TextAttribute List AsciiChars

-- A parameter and its sub-parameters, which are written with colons between them.
abbrev Field := Nat × List (Option Nat)

def Field.text (field : Field) : List WChar := [0x3A].intercalate (formatNumber field.1 :: field.2.map (·.elim [] formatNumber))

def addAttribute (parameter : Field) (enabled : Bool) : List Field := if enabled then [parameter] else []

def addColor (base : Nat) : TextColor → List Field
  | .default => []
  | .index16 index => [(base + (if index ≥ 8 then 60 else 0) + index.toNat % 8, [])]
  | .index256 index => [(base + 8, [some 5, some index.toNat])]
  | .rgb r g b => [(base + 8, [some 2, none, some r.toNat, some g.toNat, some b.toNat])]

def sgrParameters (attr : TextAttribute) : List (List Field) :=
  let ulStyle := attr.attrs.underlineStyle
  [[(0, [])], addAttribute (1, []) attr.attrs.intense, addAttribute (2, []) attr.attrs.faint,
    addAttribute (3, []) attr.attrs.italics,
    addAttribute (4, []) (ulStyle = 1), addAttribute (4, [some 3]) (ulStyle = 3), addAttribute (4, [some 4]) (ulStyle = 4),
    addAttribute (4, [some 5]) (ulStyle = 5), addAttribute (5, []) attr.attrs.blinking,
    addAttribute (7, []) attr.attrs.reverseVideo,
    addAttribute (8, []) attr.attrs.invisible, addAttribute (9, []) attr.attrs.crossedOut, addAttribute (21, []) (ulStyle = 2),
    addAttribute (53, []) attr.attrs.topGridline, addColor 30 attr.foreground, addColor 40 attr.background,
    addColor 50 attr.underlineColor]

def sgrText (attr : TextAttribute) : List WChar := [0x3B].intercalate ((sgrParameters attr).flatten.map Field.text)

def reportSGRSetting (attr : TextAttribute) : List WChar := asciiCode "1$r" ++ sgrText attr ++ asciiCode "m"

variable {attr : TextAttribute} {base : Nat}

def applyAlone (attr : TextAttribute) (field : Field) : TextAttribute := (applyGraphicsOption (some field.1, field.2) [] attr).1

def paint (fields : List Field) (attr : TextAttribute) : TextAttribute := fields.foldl applyAlone attr

theorem options_alone (alone : ∀ field ∈ fields, field.2 ≠ [] ∨ (field.1 ≠ 38 ∧ field.1 ≠ 48)) :
    applyGraphicsOptions (fields.map fun field => (some field.1, field.2)) attr = paint fields attr := by
  rw [applyGraphicsOptions]
  induction fields generalizing attr with
  | nil => rfl
  | cons field rest ih =>
    obtain ⟨first, others⟩ := forall_mem_cons.mp alone
    have single (rest : List (VTParameter × List VTParameter)) :
        applyGraphicsOption (some field.1, field.2) rest attr = (applyAlone attr field, 1) := by
      obtain ⟨option, _ | _⟩ := field
      · simp [applyAlone, applyGraphicsOption, first.resolve_left (fun some => some rfl)]
      · rfl
    rw [map_cons, length_cons, graphicsOptionsLoop, single]
    exact ih others

theorem paint_append (first second : List Field) : paint (first ++ second) attr = paint second (paint first attr) := foldl_append

theorem paint_flag (set : TextAttribute → Bool → TextAttribute) (get : CharacterAttributes → Bool) (option : Nat)
    (applies : ∀ attr, applyAlone attr (option, []) = set attr true) (same : ∀ attr, set attr (get attr.attrs) = attr)
    (unset : get attr.attrs = false) : paint (addAttribute (option, []) enabled) attr = set attr enabled := by
  cases enabled with
  | false =>
    have kept := same attr
    rw [unset] at kept
    exact kept.symm
  | true => exact applies attr

theorem paint_styles (small : style ≤ 5) (unset : attr.attrs.underlineStyle = 0) :
    paint (addAttribute (4, [some 5]) (style = 5)) (paint (addAttribute (4, [some 4]) (style = 4))
      (paint (addAttribute (4, [some 3]) (style = 3)) (paint (addAttribute (4, []) (style = 1)) attr))) =
      attr.setUnderlineStyle (if style = 2 then 0 else style) := by
  have same : attr = attr.setUnderlineStyle 0 := by
    rw [← unset]
    rfl
  fin_cases style
  · exact same
  · rfl
  · exact same
  · rfl
  · rfl
  · rfl
  · exact absurd small (by decide)
  · exact absurd small (by decide)

theorem paint_double (single : attr.attrs.underlineStyle = if style = 2 then 0 else style) :
    paint (addAttribute (21, []) (style = 2)) attr = attr.setUnderlineStyle style := by
  by_cases double : style = 2
  · rw [double]
    rfl
  · rw [if_neg double] at single
    rw [decide_eq_false double, ← single]
    rfl

def colorAt (base : Nat) (attr : TextAttribute) : TextColor :=
  if base = 30 then attr.foreground else if base = 40 then attr.background else attr.underlineColor

theorem paint_color (isBase : base = 30 ∨ base = 40 ∨ base = 50)
    (small : color.getType = .isIndex16 → base ≠ 50 ∧ color.getIndex < 16) (unset : colorAt base attr = .default) :
    paint (addColor base color) attr = applyColor (base + 8) color attr := by
  cases color with
  | default =>
    have kept : applyColor (base + 8) (colorAt base attr) attr = attr := by
      rcases isBase with rfl | rfl | rfl <;> rfl
    rw [unset] at kept
    exact kept.symm
  | index16 index =>
    obtain ⟨notUnderline, bound⟩ := small rfl
    have all : ∀ index : Fin 16, paint (addColor 30 (.index16 (UInt8.ofNat index))) attr =
      attr.setForeground (.index16 (UInt8.ofNat index)) ∧
        paint (addColor 40 (.index16 (UInt8.ofNat index))) attr = attr.setBackground (.index16 (UInt8.ofNat index)) := by
      intro index
      fin_cases index <;> exact ⟨rfl, rfl⟩
    have whole := all ⟨index.toNat, UInt8.lt_iff_toNat_lt.mp bound⟩
    rw [UInt8.ofNat_toNat] at whole
    rcases isBase with rfl | rfl | rfl
    · exact whole.1
    · exact whole.2
    · exact absurd rfl notUnderline
  | index256 index => rcases isBase with rfl | rfl | rfl <;> exact congrArg (applyColorIf _ · attr) (table_color_byte index)
  | rgb r g b => rcases isBase with rfl | rfl | rfl <;> exact congrArg (applyColorIf _ · attr) (rgb_color_bytes r g b)

inductive SgrReachable : TextAttribute → Prop where
  | default : SgrReachable {}
  | graphics (options : List (VTParameter × List VTParameter)) {attr : TextAttribute} (reachable : SgrReachable attr) :
    SgrReachable (applyGraphicsOptions options attr)

structure Reportable (attr : TextAttribute) : Prop where
  flags : ∀ flag : Flag, flag.Valid (flag.get attr.attrs)
  underlineStyle : attr.attrs.underlineStyle ≤ 5
  foreground : attr.foreground.Expressible
  background : attr.background.Expressible
  underlineColor : attr.underlineColor.getType ≠ .isIndex16

theorem reachable_reportable (reachable : SgrReachable attr) : Reportable attr := by
  induction reachable with
  | default =>
    refine ⟨fun flag _ => by cases flag <;> rfl, by decide, fun isIndex => ?_, fun isIndex => ?_, by decide⟩
    · cases isIndex
    · cases isIndex
  | graphics options _ ih =>
    have acts : GraphicsAction (applyGraphicsOptions options) := options_action
    exact ⟨fun flag => assigns_valid (acts.flags flag) (ih.flags flag), assigns_valid acts.underlineStyle ih.underlineStyle,
      assigns_valid acts.foreground ih.foreground, assigns_valid acts.background ih.background,
      assigns_valid acts.underlineColor ih.underlineColor⟩

theorem paint_report (reportable : Reportable attr) (b : TextAttribute) :
    paint (sgrParameters attr).flatten b =
      ⟨{ attr.attrs with isProtected := b.attrs.isProtected }, b.hyperlinkId, attr.foreground,
      attr.background, attr.underlineColor, b.markKind⟩ := by
  have reset : paint [(0, [])] b = ⟨{ isProtected := b.attrs.isProtected }, b.hyperlinkId, .default, .default, .default,
    b.markKind⟩ := rfl
  simp only [sgrParameters, flatten_cons, flatten_nil, append_nil, paint_append]
  rw [reset, paint_flag setIntense (·.intense) 1 (fun _ => rfl) (fun _ => rfl) rfl,
    paint_flag setFaint (·.faint) 2 (fun _ => rfl) (fun _ => rfl) rfl,
    paint_flag setItalic (·.italics) 3 (fun _ => rfl) (fun _ => rfl) rfl, paint_styles reportable.underlineStyle rfl,
    paint_flag setBlinking (·.blinking) 5 (fun _ => rfl) (fun _ => rfl) rfl,
    paint_flag setReverseVideo (·.reverseVideo) 7 (fun _ => rfl) (fun _ => rfl) rfl,
    paint_flag setInvisible (·.invisible) 8 (fun _ => rfl) (fun _ => rfl) rfl,
    paint_flag setCrossedOut (·.crossedOut) 9 (fun _ => rfl) (fun _ => rfl) rfl, paint_double (by rfl),
    paint_flag setOverlined (·.topGridline) 53 (fun _ => rfl) (fun _ => rfl) rfl,
    paint_color (.inl rfl) (fun isIndex => ⟨by decide, reportable.foreground isIndex⟩) rfl,
    paint_color (.inr (.inl rfl)) (fun isIndex => ⟨by decide, reportable.background isIndex⟩) rfl,
    paint_color (.inr (.inr rfl)) (fun isIndex => absurd isIndex reportable.underlineColor) rfl]
  have unused1 : attr.attrs.unused1 = false := reportable.flags .unused1 (by decide)
  have left : attr.attrs.leftGridline = false := reportable.flags .leftGridline (by decide)
  have right : attr.attrs.rightGridline = false := reportable.flags .rightGridline (by decide)
  have bottom : attr.attrs.bottomGridline = false := reportable.flags .bottomGridline (by decide)
  simp [applyColor, setIntense, setFaint, setItalic, setUnderlineStyle, setBlinking, setReverseVideo, setInvisible, setCrossedOut,
    setOverlined, setForeground, setBackground, setUnderlineColor, unused1, left, right, bottom]

def Field.Plain (field : Field) : Prop :=
  (∀ number ∈ some field.1 :: field.2, number.getD 0 ≤ maxParameterValue) ∧ field.2.length ≤ maxSubParameterCount ∧
    (field.2 ≠ [] ∨ (field.1 ≠ 38 ∧ field.1 ≠ 48))

instance (field : Field) : Decidable field.Plain := inferInstanceAs (Decidable (_ ∧ _))

theorem plain_attribute (plain : parameter.Plain) (enabled : Bool) :
    (addAttribute parameter enabled).length ≤ 1 ∧ ∀ field ∈ addAttribute parameter enabled, field.Plain := by
  cases enabled with
  | false => exact ⟨Nat.zero_le 1, nofun⟩
  | true => exact ⟨Nat.le_refl 1, forall_mem_singleton.mpr plain⟩

theorem plain_color (isBase : base = 30 ∨ base = 40 ∨ base = 50) (color : TextColor) :
    (addColor base color).length ≤ 1 ∧ ∀ field ∈ addColor base color, field.Plain := by
  have small (byte : UInt8) : byte.toNat ≤ 65535 := Nat.le_of_lt (Nat.lt_trans byte.toNat_lt (by decide))
  have fits : base ≤ 65527 := by omega
  cases color with
  | default => exact ⟨Nat.zero_le 1, nofun⟩
  | index16 index =>
    refine ⟨Nat.le_refl 1, forall_mem_singleton.mpr ⟨forall_mem_singleton.mpr ?_, Nat.zero_le _, .inr ?_⟩⟩
    · simp only [Option.getD_some, maxParameterValue]
      split <;> omega
    · split <;> omega
  | index256 index => simp [addColor, Field.Plain, fits, small, maxSubParameterCount, maxParameterValue]
  | rgb red green blue => simp [addColor, Field.Plain, fits, small, maxSubParameterCount, maxParameterValue]

theorem plain_parameters : ∀ fields ∈ sgrParameters attr, fields.length ≤ 1 ∧ ∀ field ∈ fields, field.Plain := by
  simp only [sgrParameters, forall_mem_cons, not_mem_nil, false_implies, implies_true, and_true]
  refine ⟨by decide, ?_, ?_, ?_, ?_, ?_, ?_, ?_, ?_, ?_, ?_, ?_, ?_, ?_, plain_color (by decide) _, plain_color (by decide) _,
    plain_color (by decide) _⟩
  all_goals exact plain_attribute (by decide) _

theorem flatten_length_le {lists : List (List Field)} (single : ∀ fields ∈ lists, fields.length ≤ 1) :
    lists.flatten.length ≤ lists.length := by
  induction lists with
  | nil => exact Nat.le_refl 0
  | cons fields rest ih =>
    obtain ⟨first, others⟩ := forall_mem_cons.mp single
    have later := ih others
    rw [flatten_cons, length_append, length_cons]
    omega

def isFieldByte (wch : WChar) : Bool := isNumericParamValue wch || isSubParameterDelimiter wch

theorem all_intercalate {accepts : WChar → Bool} (isSeparator : accepts separator = true)
    (each : ∀ field ∈ fields, ∀ wch ∈ field, accepts wch = true) :
    ∀ wch ∈ [separator].intercalate fields, accepts wch = true := by
  induction fields with
  | nil => exact nofun
  | cons field rest ih =>
    obtain ⟨first, others⟩ := forall_mem_cons.mp each
    cases rest with
    | nil => rwa [intercalate_singleton]
    | cons next more =>
      rw [intercalate_cons_cons, forall_mem_append, forall_mem_append]
      exact ⟨⟨first, forall_mem_singleton.mpr isSeparator⟩, ih others⟩

theorem plain_text {field : Field} (plain : field.Plain) : parseField field.text = (some field.1, field.2) ∧
    ∀ wch ∈ field.text, isFieldByte wch = true := by
  obtain ⟨values, few, _⟩ := plain
  obtain ⟨first, others⟩ := forall_mem_cons.mp values
  have digits (number : Option Nat) : ∀ wch ∈ number.elim [] formatNumber, isNumericParamValue wch = true := by
    cases number with
    | none => exact nofun
    | some number => exact format_digits number
  have groups : ∀ group ∈ formatNumber field.1 :: field.2.map (·.elim [] formatNumber), ∀ wch ∈ group,
    isNumericParamValue wch = true :=
    forall_mem_cons.mpr ⟨format_digits field.1, forall_mem_map.mpr fun number _ => digits number⟩
  refine ⟨?_, all_intercalate rfl fun group member wch isDigit => by simp [isFieldByte, groups group member wch isDigit]⟩
  rw [Field.text, parse_sub_fields (by rwa [length_map]) (fun group member => (digits_not_delimiter (groups group member)).2),
    show fieldValue (formatNumber field.1) = some field.1 from format_value first, map_map]
  refine congrArg _ ((map_congr_left fun number member => ?_).trans (map_id field.2))
  cases number with
  | none => rfl
  | some number => exact format_value (others _ member)

theorem sgr_report_restores {Host : Type} (ctx : Context Host) (m : Machine Host)
    (ansi : (processSevenBit ctx ESC m).1.parser.ansi = true) (attr : TextAttribute) (reachable : SgrReachable attr)
    (b : TextAttribute) : (csiDispatches (processCharacters ctx ([ESC, 0x5B] ++ (reportSGRSetting attr).drop 3) m).2).head?.map
        (fun dispatch => (dispatch.1.value, applyGraphicsOptions dispatch.2.fields b)) =
      some (fromString (asciiCode "m"), ⟨{ attr.attrs with isProtected := b.attrs.isProtected }, b.hyperlinkId,
        attr.foreground, attr.background, attr.underlineColor, b.markKind⟩) := by
  have plain : ∀ field ∈ (sgrParameters attr).flatten, field.Plain := fun field member => by
    obtain ⟨fields, isFields, isField⟩ := mem_flatten.mp member
    exact (plain_parameters fields isFields).2 field isField
  have bytes : ∀ text ∈ (sgrParameters attr).flatten.map Field.text, ∀ wch ∈ text, isFieldByte wch = true :=
    forall_mem_map.mpr fun field member => (plain_text (plain field member)).2
  have fields : dispatchedFields (sgrText attr) = (sgrParameters attr).flatten.map fun field => (some field.1, field.2) := by
    rw [sgrText, dispatched_fields, map_map]
    · exact map_congr_left fun field member => (plain_text (plain field member)).1
    · simp [sgrParameters]
    · rw [length_map]
      exact Nat.le_trans (flatten_length_le fun fields member => (plain_parameters fields member).1) (show 17 ≤ 32 by decide)
    · exact fun text member delimiter => absurd (bytes text member _ delimiter) (by decide)
  have accepted : ∀ wch ∈ sgrText attr, isParameterByte wch = true := by
    refine all_intercalate rfl fun text member wch isByte => ?_
    have either := bytes text member wch isByte
    rw [isFieldByte, Bool.or_eq_true] at either
    rcases either with isDigit | isColon
    · simp [isParameterByte, isDigit]
    · simp [isParameterByte, isColon]
  obtain ⟨sent, isSent, isFields⟩ :=
    csi_dispatched [ESC, 0x5B] none [] 0x6D (.inl rfl) ansi (by simp) accepted (by simp) rfl
  refine Option.map_eq_some_iff.mpr ⟨_, isSent, congrArg (Prod.mk _) ?_⟩
  rw [isFields, fields, options_alone fun field member => (plain field member).2.2]
  exact paint_report (reachable_reportable reachable) b

theorem red_report_restores :
    (csiDispatches (processCharacters silentContext
      ([ESC, 0x5B] ++ (reportSGRSetting (applyGraphicsOptions [(some 31, [])] {})).drop 3)
        (initialMachine false ())).2).head?.map
        (fun dispatch => (dispatch.1.value, applyGraphicsOptions dispatch.2.fields { markKind := .prompt })) =
      some (fromString (asciiCode "m"), { foreground := .index16 1, markKind := .prompt }) :=
  sgr_report_restores silentContext (initialMachine false ()) rfl _ (.graphics [(some 31, [])] .default) { markKind := .prompt }

inductive SettingRequest where
  | sgr | decstbm | decslrm | decscusr | decsca | decsace | unsupported
  | decac (itemNumber : Nat)
deriving DecidableEq

-- A parameter of zero counts as one.
def requestedSetting (id : VTID) (parameter : Nat) : SettingRequest :=
  if id.value = fromString (asciiCode "m") then .sgr
  else if id.value = fromString (asciiCode "r") then .decstbm
  else if id.value = fromString (asciiCode "s") then .decslrm
  else if id.value = fromString (asciiCode " q") then .decscusr
  else if id.value = fromString (asciiCode "\"q") then .decsca
  else if id.value = fromString (asciiCode "*x") then .decsace
  else if id.value = fromString (asciiCode ",|") then .decac (max parameter 1)
  else .unsupported

-- The characters of the control string up to its final. The range of the digits
-- does not have its end.
def requestSetting (parameter : Nat) (idBuilder : VTIDBuilder) : List WChar → Option SettingRequest
  | [] => none
  | ch :: rest =>
    if 0x40 ≤ ch ∧ ch ≤ 0x7E then some (requestedSetting (idBuilder.finalize ch) parameter)
    else if (0x3C ≤ ch ∧ ch ≤ 0x3F) ∨
      (0x20 ≤ ch ∧ ch ≤ 0x2F) then requestSetting parameter (idBuilder.addIntermediate ch) rest
    else if 0x30 ≤ ch ∧ ch < 0x39 then requestSetting (accumulateTo ch parameter) idBuilder rest
    else requestSetting parameter idBuilder rest

structure ColorAliases where
  normalText : Nat × Nat
  windowFrame : Nat × Nat

def reportDECACSetting (aliases : ColorAliases) (itemNumber : Nat) : List WChar :=
  let report := fun (colors : Nat × Nat) => asciiCode "1$r" ++ formatNumber itemNumber ++ asciiCode ";" ++
    formatNumber colors.1 ++ asciiCode ";" ++ formatNumber colors.2 ++ asciiCode ",|"
  if itemNumber = 1 then report aliases.normalText else if itemNumber = 2 then report aliases.windowFrame else asciiCode "0$r"

-- The reply to a request. The other reports have no parameter.
def settingReply (aliases : ColorAliases) (reports : SettingRequest → List WChar) (request : List WChar) :
    Option (List WChar) :=
  (requestSetting 0 .clear request).map fun
    | .decac itemNumber => reportDECACSetting aliases itemNumber
    | .unsupported => asciiCode "0$r"
    | setting => reports setting

def itemNumber (digits : List WChar) : Nat := max (min (decimal digits) maxParameterValue) 1

section

variable {digits : List WChar}

theorem accumulated_digits : digits.foldl (fun value ch => accumulateTo ch value) 0 = min (decimal digits) maxParameterValue := by
  induction digits using reverseRecOn with
  | nil => rfl
  | append_singleton digits ch ih =>
    rw [foldl_append, ih, decimal_snoc]
    simp only [foldl_cons, foldl_nil, accumulateTo]
    split <;> omega

theorem request_digits (numeric : ∀ ch ∈ digits, isNumericParamValue ch = true) (parameter : Nat) (rest : List WChar) :
    requestSetting parameter .clear (digits ++ rest) =
      requestSetting ((digits.filter (· ≠ 0x39)).foldl (fun value ch => accumulateTo ch value) parameter) .clear rest := by
  have digit : ∀ ch : WChar, isNumericParamValue ch = true →
      ¬ (0x40 ≤ ch ∧ ch ≤ 0x7E) ∧ ¬ ((0x3C ≤ ch ∧ ch ≤ 0x3F) ∨ (0x20 ≤ ch ∧ ch ≤ 0x2F)) ∧
      (0x30 ≤ ch ∧ ch < 0x39 ↔ ch ≠ 0x39) := by
    intro ch isDigit
    grind [isNumericParamValue]
  induction digits generalizing parameter with
  | nil => rfl
  | cons ch digits ih =>
    obtain ⟨isDigit, others⟩ := forall_mem_cons.mp numeric
    obtain ⟨notFinal, notIntermediate, isParameter⟩ := digit ch isDigit
    rw [cons_append, requestSetting, if_neg notFinal, if_neg notIntermediate]
    by_cases nine : ch = 0x39
    · rw [if_neg (fun small => isParameter.mp small nine), ih others, filter_cons_of_neg (by simp [nine])]
    · rw [if_pos (isParameter.mpr nine), ih others, filter_cons_of_pos (by simp [nine])]
      rfl

theorem nine_value (member : 0x39 ∈ digits) : 9 ≤ decimal digits := by
  induction digits using reverseRecOn with
  | nil => cases member
  | append_singleton digits ch ih =>
    rw [decimal_snoc]
    rcases mem_append.mp member with early | last
    · have large := ih early
      omega
    · rw [← mem_singleton.mp last]
      exact Nat.le_add_left 9 _

theorem item_positive (digits : List WChar) : 1 ≤ itemNumber digits := Nat.le_max_right _ 1

theorem error_reply_iff (positive : 1 ≤ item) : reportDECACSetting aliases item = asciiCode "0$r" ↔ 2 < item := by
  rw [reportDECACSetting]
  split_ifs with one two
  · simp [one, asciiCode]
  · simp [two, asciiCode]
  · exact iff_of_true rfl (by omega)

end

theorem item_reply_iff (aliases : ColorAliases) (reports : SettingRequest → List WChar) (digits : List WChar)
    (numeric : ∀ ch ∈ digits, isNumericParamValue ch = true) :
    settingReply aliases reports (digits ++ asciiCode ",|") = some (reportDECACSetting aliases (itemNumber digits)) ↔
      0x39 ∉ digits ∨ 2 < itemNumber (digits.filter (· ≠ 0x39)) := by
  have reply : settingReply aliases reports (digits ++ asciiCode ",|") =
      some (reportDECACSetting aliases (itemNumber (digits.filter (· ≠ 0x39)))) := by
    rw [settingReply, request_digits numeric, accumulated_digits]
    rfl
  rw [reply]
  by_cases nine : 0x39 ∈ digits
  · have large := nine_value nine
    simp [(error_reply_iff (item_positive digits)).mpr (by rw [itemNumber, maxParameterValue]; omega),
      error_reply_iff (item_positive _), or_iff_right (not_not.mpr nine)]
  have whole : digits.filter (· ≠ 0x39) = digits := by
    refine filter_eq_self.mpr fun ch member => ?_
    simpa using ne_of_mem_of_not_mem member nine
  rw [whole]
  exact iff_of_true rfl (.inl nine)

theorem item_two_reply :
    settingReply ⟨(7, 0), (15, 0)⟩ (fun _ => []) (asciiCode "2,|") = some (reportDECACSetting ⟨(7, 0), (15, 0)⟩ 2) :=
  (item_reply_iff _ _ (asciiCode "2") (by decide)).mpr (.inl (by decide))

theorem item_nineteen_replies_one :
    settingReply ⟨(7, 0), (15, 0)⟩ (fun _ => []) (asciiCode "19,|") = some (asciiCode "1$r1;7;0,|") ∧
      ¬ settingReply ⟨(7, 0), (15, 0)⟩ (fun _ => []) (asciiCode "19,|") =
        some (reportDECACSetting ⟨(7, 0), (15, 0)⟩ (itemNumber (asciiCode "19"))) := by
  decide

end Cogterm.VirtualTerminal
