import Cogterm.TextBuffer.Transitions

namespace Cogterm.Buffer

open VirtualTerminal AsciiChars List Prod

theorem format_bytes : (formatNumber number).all isParameterByte = true := by
  rw [all_eq_true]
  intro wch member
  rw [isParameterByte, format_digits number wch member]
  rfl

theorem color_bytes (offBytes : off.all isParameterByte = true) (extendedBytes : extended.all isParameterByte = true) :
    (colorSequence dark bright off extended color).all isParameterByte = true := by
  rw [colorSequence]
  cases color.getType with
  | isDefault => exact offBytes
  | isIndex16 => exact format_bytes
  | isIndex256 =>
    rw [all_append, all_append, extendedBytes, formatByte, format_bytes]
    rfl
  | isRgb =>
    simp only [all_append, all_cons, extendedBytes, formatByte, format_bytes]
    rfl

section

variable {parameters : List WChar}

theorem attribute_bytes {attr previous : CharacterAttributes} (member : parameters ∈ attributeSequences attr previous) :
    parameters.all isParameterByte = true := by
  have styles : ∀ style : Fin 8, (underlineSequence style).all isParameterByte = true := by decide +kernel
  simp only [attributeSequences, mappingSequences, mem_ite_nil_right, mem_append, mem_flatMap, mem_singleton] at member
  obtain ⟨_, ⟨_, rfl⟩ | ⟨mapping, _, _, rfl⟩ | ⟨_, rfl⟩⟩ := member
  · rw [intensitySequence]
    cases attr.intense <;> cases attr.faint <;> decide
  · exact format_bytes
  · exact styles _

theorem underline_color_bytes (member : parameters ∈ underlineColorSequences foreground color) :
    parameters.all isParameterByte = true := by
  rw [underlineColorSequences] at member
  cases kind : foreground.getType <;> simp only [kind, mem_singleton, not_mem_nil] at member <;> subst member
  · decide
  · rw [all_append, formatByte, format_bytes]
    rfl
  · simp only [all_append, all_cons, formatByte, format_bytes]
    rfl

theorem graphics_bytes {attr previous : TextAttribute} (member : parameters ∈ graphicsSequences attr previous) :
    parameters.all isParameterByte = true := by
  simp only [graphicsSequences, mem_append, mem_ite_nil_right, mem_singleton] at member
  obtain attrs | ⟨_, rfl⟩ | ⟨_, rfl⟩ | ⟨_, underlineColor⟩ := member
  · exact attribute_bytes attrs
  · exact color_bytes (by decide) (by decide)
  · exact color_bytes (by decide) (by decide)
  · exact underline_color_bytes underlineColor

end

-- The state machine hands the parameters on as they were written.
theorem graphics_dispatched (ctx : Context Host) (m : Machine Host) (attr previous : TextAttribute)
    (ansi : (processSevenBit ctx ESC m).1.parser.ansi = true) : ∀ parameters ∈ graphicsSequences attr previous,
      (csiDispatches (processCharacters ctx (Serialized.graphics parameters).chars m).2).head?.map (·.2.fields) =
        some (dispatchedFields parameters) := by
  intro parameters member
  have bytes := all_eq_true.mp (graphics_bytes member)
  exact csi_dispatch_fields [ESC, 0x5B] none [] 0x6D (.inl rfl) ansi (by simp) bytes (by simp) rfl

theorem blink_dispatched : (csiDispatches (processCharacters silentContext (Serialized.graphics [0x35]).chars
      (initialMachine false ())).2).head?.map (·.2.fields) = some (dispatchedFields [0x35]) :=
  graphics_dispatched silentContext (initialMachine false ()) { attrs := { blinking := true } } {} rfl [0x35] (by decide)

def Serialized.applied (attr : TextAttribute) : Serialized → TextAttribute
  | .graphics parameters => renders parameters attr
  | _ => attr

-- The texts in order, each with the attributes in effect where it is written.
def painted : List Serialized → TextAttribute → List (TextAttribute × List WChar)
  | [], _ => []
  | .text chars :: rest, attr => (attr, chars) :: painted rest attr
  | sequence :: rest, attr => painted rest (sequence.applied attr)

def paintedRenditions (sequences : List Serialized) (attr : TextAttribute) : List (Rendition × List WChar) :=
  (painted sequences attr).map (fun piece => (piece.1.rendition, piece.2))

-- Control sequences that leave the attributes alone.
def Serialized.Silent : Serialized → Prop
  | .graphics _ => False
  | .text _ => False
  | _ => True

theorem painted_graphics (parameters : List (List WChar)) (rest : List Serialized) (attr : TextAttribute) :
    painted (parameters.map .graphics ++ rest) attr = painted rest (applySequences parameters attr) := by
  induction parameters generalizing attr with
  | nil => rfl
  | cons parameter parameters ih => exact ih (renders parameter attr)

theorem painted_silent (silent : ∀ sequence ∈ sequences, sequence.Silent) (attr : TextAttribute) :
    painted (sequences ++ rest) attr = painted rest attr := by
  induction sequences with
  | nil => rfl
  | cons sequence sequences ih =>
    have here := silent sequence mem_cons_self
    have later := ih (fun other member => silent other (mem_cons_of_mem sequence member))
    cases sequence with
    | graphics parameters => exact here.elim
    | text chars => exact here.elim
    | lineRendition code => exact later
    | hyperlink uri => exact later
    | lineBreak => exact later
    | eraseInLine => exact later

theorem painted_append (sequences rest : List Serialized) (attr : TextAttribute) :
    painted (sequences ++ rest) attr = painted sequences attr ++ painted rest (sequences.foldl Serialized.applied attr) := by
  induction sequences generalizing attr with
  | nil => rfl
  | cons sequence sequences ih =>
    cases sequence with
    | text chars => exact congrArg ((attr, chars) :: ·) (ih attr)
    | graphics parameters => exact ih (renders parameters attr)
    | lineRendition code => exact ih attr
    | hyperlink uri => exact ih attr
    | lineBreak => exact ih attr
    | eraseInLine => exact ih attr

theorem silent_if (condition : Bool) (sequence : Serialized) (silent : sequence.Silent) :
    ∀ other ∈ (if condition then [sequence] else []), other.Silent := by
  intro other member
  cases condition with
  | false => exact absurd member not_mem_nil
  | true => rwa [mem_singleton.mp member]

def glyphsOf (pieces : List (Rendition × List WChar)) : List (Rendition × WChar) :=
  pieces.flatMap (fun piece => piece.2.map (fun wch => (piece.1, wch)))

theorem glyphs_of_inj (others : List (Rendition × List WChar)) (texts : pieces.map snd = others.map snd)
    (written : ∀ piece ∈ others, piece.2 ≠ []) (same : glyphsOf pieces = glyphsOf others) : pieces = others := by
  induction pieces generalizing others with
  | nil =>
    cases others with
    | nil => rfl
    | cons other others => cases texts
  | cons piece pieces ih =>
    cases others with
    | nil => cases texts
    | cons other others =>
      obtain ⟨rendition, text⟩ := piece
      obtain ⟨otherRendition, otherText⟩ := other
      rw [map_cons, map_cons, List.cons.injEq] at texts
      obtain ⟨sameText, laterTexts⟩ := texts
      subst sameText
      rw [glyphsOf, glyphsOf, flatMap_cons, flatMap_cons] at same
      obtain ⟨here, later⟩ := append_inj same (by simp)
      have sameRendition : rendition = otherRendition := by
        cases text with
        | nil => exact absurd rfl (written _ mem_cons_self)
        | cons wch text =>
          rw [map_cons, map_cons, List.cons.injEq, Prod.mk.injEq] at here
          exact here.1.1
      rw [sameRendition, ih others laterTexts (fun piece member => written piece (mem_cons_of_mem _ member)) later]

section

variable {getHyperlinkUriFromId : Nat → Option (List WChar)}

def runPieces (row : Row TextAttribute) (lastCharX : Int) : List (TextAttribute × Nat) → Int → List (Rendition × List WChar)
  | [], _ => []
  | run :: rest, oldX =>
    let newX := if rest.isEmpty && decide (lastCharX < oldX + run.2) then lastCharX else oldX + run.2
    (run.1.rendition, row.getText oldX newX) :: runPieces row lastCharX rest newX

def FollowsAll : TextAttribute → List (TextAttribute × Nat) → Prop
  | _, [] => True
  | previous, run :: rest => run.1.Follows previous ∧ FollowsAll run.1 rest

theorem hyperlink_sequences_silent (previous : TextAttribute)
    (resolves : attr.hyperlinkId ≠ 0 → (getHyperlinkUriFromId attr.hyperlinkId).isSome) :
    ∃ links, hyperlinkSequences getHyperlinkUriFromId attr previous = some links ∧ ∀ link ∈ links, link.Silent := by
  rw [hyperlinkSequences]
  by_cases same : previous.hyperlinkId = attr.hyperlinkId
  · rw [if_neg (not_not.mpr same)]
    exact ⟨[], rfl, fun link member => absurd member not_mem_nil⟩
  rw [if_pos same]
  by_cases none : attr.hyperlinkId = 0
  · rw [if_neg (not_not.mpr none)]
    exact ⟨_, rfl, silent_if true _ trivial⟩
  rw [if_pos none]
  obtain ⟨uri, found⟩ := Option.isSome_iff_exists.mp (resolves none)
  rw [found]
  cases isEmpty : uri.isEmpty with
  | true => exact ⟨[], by simp [isEmpty], fun link member => absurd member not_mem_nil⟩
  | false => exact ⟨[.hyperlink uri], by simp [isEmpty], silent_if true _ trivial⟩

theorem run_text_pieces (row : Row TextAttribute) (first : TextAttribute) (lastCharX oldX : Int) (run : TextAttribute × Nat)
    (rest : List (TextAttribute × Nat)) :
    ∃ text newX erases, runText row first lastCharX oldX run rest.isEmpty = (.text text :: erases, newX) ∧
      (∀ sequence ∈ erases, sequence.Silent) ∧
      runPieces row lastCharX (run :: rest) oldX = (run.1.rendition, text) :: runPieces row lastCharX rest newX :=
  ⟨_, _, _, rfl, silent_if _ _ trivial, rfl⟩

theorem serialize_runs_painted (row : Row TextAttribute) (first : TextAttribute) (lastCharX : Int) (oldX : Int)
    (state : SerializeState) (current : TextAttribute) (expressible : ∀ run ∈ runs, run.1.Expressible)
    (resolves : ∀ run ∈ runs, run.1.hyperlinkId ≠ 0 → (getHyperlinkUriFromId run.1.hyperlinkId).isSome) :
    ∃ emitted final, serializeRuns getHyperlinkUriFromId row first lastCharX runs oldX state = some final ∧
      final.buffer = state.buffer ++ emitted ∧
      (paintedRenditions emitted current).map snd = (runPieces row lastCharX runs oldX).map snd ∧
      (current.rendition = (effectivePrevious state.previousTextAttr).rendition →
        (paintedRenditions emitted current = runPieces row lastCharX runs oldX ↔
          FollowsAll (effectivePrevious state.previousTextAttr) runs)) := by
  induction runs generalizing oldX state current with
  | nil => exact ⟨[], state, rfl, (append_nil _).symm, rfl, fun _ => ⟨fun _ => trivial, fun _ => rfl⟩⟩
  | cons run runs ih =>
    obtain ⟨previous, isPrevious⟩ : ∃ previous, previous = effectivePrevious state.previousTextAttr := ⟨_, rfl⟩
    obtain ⟨links, found, silent⟩ := hyperlink_sequences_silent previous (resolves run mem_cons_self)
    obtain ⟨text, newX, erases, written, erasesSilent, pieces⟩ := run_text_pieces row first lastCharX oldX run runs
    obtain ⟨next, isNext⟩ : ∃ next, next = applySequences (graphicsSequences run.1 previous) current := ⟨_, rfl⟩
    obtain ⟨here, isHere⟩ : ∃ here, here = (graphicsSequences run.1 previous).map Serialized.graphics ++ (links ++
      ((if state.delayedLineBreak then [.lineBreak] else []) ++ .text text :: erases)) := ⟨_, rfl⟩
    obtain ⟨emitted, final, ran, appended, texts, follows⟩ := ih newX ⟨state.buffer ++ here, some run.1, false⟩ next
      (fun other member => expressible other (mem_cons_of_mem run member))
      (fun other member => resolves other (mem_cons_of_mem run member))
    have shown : paintedRenditions (here ++ emitted) current = (next.rendition, text) :: paintedRenditions emitted next := by
      simp [paintedRenditions, isHere, painted_graphics, ← isNext, painted_silent silent,
        painted_silent (silent_if _ .lineBreak trivial), painted, painted_silent erasesSilent]
    refine ⟨here ++ emitted, final, ?_, by simp [appended], ?_, ?_⟩
    · rw [serializeRuns, ← isPrevious, found]
      simp only [written]
      rw [← isHere]
      exact ran
    · simp [shown, pieces, texts]
    · intro same
      rw [← isPrevious] at same
      rw [shown, pieces, ← isPrevious, FollowsAll, List.cons.injEq, Prod.mk.injEq,
        ← graphics_follow_iff (expressible run mem_cons_self) same, ← isNext]
      constructor
      · rintro ⟨⟨reached, _⟩, later⟩
        exact ⟨reached, (follows reached).mp later⟩
      · rintro ⟨reached, later⟩
        exact ⟨⟨reached, rfl⟩, (follows reached).mpr later⟩

end

section

variable (getHyperlinkUriFromId : Nat → Option (List WChar))

theorem painted_last_row (previousTextAttr : Option TextAttribute) (delayed isLastRow addLineBreak : Bool)
    (attr : TextAttribute) :
    painted ((if delayed then [.lineBreak] else []) ++ (if isLastRow then lastRowSequences previousTextAttr addLineBreak else []))
    attr = [] := by
  rw [painted_silent (silent_if _ .lineBreak trivial)]
  cases isLastRow with
  | false => rfl
  | true =>
    rw [if_pos rfl, lastRowSequences]
    split
    · cases addLineBreak <;> rfl
    · cases addLineBreak <;> rfl

theorem line_rendition_silent : ∀ sequence ∈ lineRenditionSequence rendition, sequence.Silent := by
  cases rendition with
  | singleWidth => exact silent_if false .lineBreak trivial
  | doubleWidth => exact silent_if true _ trivial
  | doubleHeightTop => exact silent_if true _ trivial
  | doubleHeightBottom => exact silent_if true _ trivial

theorem serialize_row_iff (row : Row TextAttribute) (startX endX : Int) (addLineBreak isLastRow : Bool) (state : SerializeState)
    (current : TextAttribute) (same : current.rendition = (effectivePrevious state.previousTextAttr).rendition)
    (expressible : ∀ run ∈ serializedRuns row startX endX, run.1.Expressible)
    (resolves : ∀ run ∈ serializedRuns row startX endX, run.1.hyperlinkId ≠ 0 →
      (getHyperlinkUriFromId run.1.hyperlinkId).isSome) :
    ∃ emitted final, serializeRow getHyperlinkUriFromId row startX endX addLineBreak isLastRow state = some final ∧
      final.buffer = state.buffer ++ emitted ∧
      (paintedRenditions emitted current = runPieces row row.measureRight (serializedRuns row startX endX) startX ↔
        FollowsAll (effectivePrevious state.previousTextAttr) (serializedRuns row startX endX)) ∧
      ((∀ piece ∈ runPieces row row.measureRight (serializedRuns row startX endX) startX, piece.2 ≠ []) →
        (glyphsOf (paintedRenditions emitted current) =
            glyphsOf (runPieces row row.measureRight (serializedRuns row startX endX) startX) ↔
          FollowsAll (effectivePrevious state.previousTextAttr) (serializedRuns row startX endX))) := by
  obtain ⟨runs, isRuns⟩ : ∃ runs, runs = serializedRuns row startX endX := ⟨_, rfl⟩
  rw [← isRuns] at expressible resolves ⊢
  obtain ⟨emitted, final, ran, appended, texts, follows⟩ := serialize_runs_painted row (runs.headD ({}, 0)).1
    row.measureRight startX { state with buffer := state.buffer ++ lineRenditionSequence row.lineRendition } current
    expressible resolves
  obtain ⟨trailing, isTrailing⟩ : ∃ trailing, trailing = (if final.delayedLineBreak then [Serialized.lineBreak] else []) ++
    (if isLastRow then lastRowSequences final.previousTextAttr addLineBreak else []) := ⟨_, rfl⟩
  have shown : paintedRenditions (lineRenditionSequence row.lineRendition ++ (emitted ++ trailing)) current =
      paintedRenditions emitted current := by
    rw [paintedRenditions, painted_silent line_rendition_silent, painted_append, isTrailing, painted_last_row, append_nil]
    rfl
  have whole := follows same
  refine ⟨lineRenditionSequence row.lineRendition ++ (emitted ++ trailing),
    ⟨final.buffer ++ trailing, final.previousTextAttr, !row.wrapForced && addLineBreak⟩, ?_, ?_, ?_, ?_⟩
  · rw [serializeRow, ← isRuns]
    simp only [ran]
    rw [← isTrailing]
  · simp [appended]
  · rw [shown]
    exact whole
  · intro nonempty
    rw [shown, ← whole]
    exact ⟨fun glyphs => glyphs_of_inj _ texts nonempty glyphs, fun equal => congrArg glyphsOf equal⟩

end

def letterRuns (first second : TextAttribute) : Row TextAttribute :=
  ⟨2, [0x61, 0x62], [0, 1, 2], ⟨[⟨first, 1⟩, ⟨second, 1⟩], 2⟩, .singleWidth, false, false⟩

def faintLetter : TextAttribute := { attrs := { faint := true } }

def intenseLetter : TextAttribute := { attrs := { intense := true } }

def blueUnderline : TextAttribute := { underlineColor := .rgb 0 0 255 }

def redUnderlined : TextAttribute :=
  { attrs := { intense := true, faint := true, underlineStyle := 3 }, foreground := .rgb 1 2 3, underlineColor := .rgb 255 0 0 }

theorem serialize_row_underlined :
    ∃ emitted final, serializeRow (fun _ => none) (letterRuns faintLetter redUnderlined) 0 2 true true ⟨[], none, false⟩ =
      some final ∧ final.buffer = emitted ∧
      glyphsOf (paintedRenditions emitted {}) = [(faintLetter.rendition, 0x61), (redUnderlined.rendition, 0x62)] := by
  have runs : serializedRuns (letterRuns faintLetter redUnderlined) 0 2 =
    [(faintLetter, 1), (redUnderlined, 1)] := by decide +kernel
  obtain ⟨emitted, final, serialized, appended, iff, _⟩ :=
    serialize_row_iff (fun _ => none) (letterRuns faintLetter redUnderlined) 0 2 true true ⟨[], none, false⟩ {} rfl
    (by
      rw [runs]
      intro run member
      obtain rfl | rfl : run = (faintLetter, 1) ∨ run = (redUnderlined, 1) := by simpa using member
      · exact ⟨by decide, nofun, nofun, by decide⟩
      · exact ⟨by decide, nofun, nofun, by decide⟩)
    (by
      rw [runs]
      simp [faintLetter, redUnderlined])
  refine ⟨emitted, final, serialized, appended, ?_⟩
  rw [iff.mpr (by simpa using ⟨by decide, by decide, trivial⟩)]
  decide +kernel

-- The color of the underline becomes the default one because the foreground is.
-- In the second row the codes turn intense on before they turn faint off.
theorem serialize_row_drops_attributes :
    (serializeRow (fun _ => none) (letterRuns {} blueUnderline) 0 2 false false ⟨[], none, false⟩).map
        (fun final => glyphsOf (paintedRenditions final.buffer {})) =
      some [(TextAttribute.rendition {}, 0x61), (TextAttribute.rendition {}, 0x62)] ∧
    TextAttribute.rendition {} ≠ blueUnderline.rendition ∧
    (serializeRow (fun _ => none) (letterRuns faintLetter intenseLetter) 0 2 false false ⟨[], none, false⟩).map
        (fun final => glyphsOf (paintedRenditions final.buffer {})) =
      some [(faintLetter.rendition, 0x61), (TextAttribute.rendition {}, 0x62)] ∧
    TextAttribute.rendition {} ≠ intenseLetter.rendition := by
  refine ⟨?_, ?_, ?_, ?_⟩
  · decide +kernel
  · decide
  · decide +kernel
  · decide

end Cogterm.Buffer
