import Cogterm.Parser.Dispatches
import Cogterm.Parser.Chunks

namespace Cogterm.VirtualTerminal

open AsciiChars ParserState List

variable {Host : Type}

section

def isIgnorable (wch : WChar) : Bool := isC0Code wch || isDelete wch

def isDcsParameter (wch : WChar) : Bool := isNumericParamValue wch || isParameterDelimiter wch
def isDcsFinal (wch : WChar) : Bool := 0x40 ≤ wch && !isDelete wch && !isC1ControlCharacter wch
def stripIgnorable (header : List WChar) : List WChar := header.filter (fun wch => !isIgnorable wch)

def dcsDispatches (trace : List Action) : List (Nat × VTParameters) :=
  trace.filterMap (fun action => match action with
    | .dcsDispatch id parameters => some (id.value, parameters)
    | _ => none)

-- read is what the header holds so far, from the given state on.
def inParameters (state : VTStates) (read : List WChar) : Prop :=
  (state = .dcsParam ∨ (state = .dcsEntry ∧ read ≠ [])) ∧ ∀ wch ∈ read, isDcsParameter wch = true

def Unharmed (state : VTStates) (header : List WChar) : Prop :=
  ∀ before wch after, header = before ++ wch :: after → isIgnorable wch = true →
    ¬ inParameters state (stripIgnorable before)

def nextHeaderState (state : VTStates) (wch : WChar) : VTStates :=
  if isDcsParameter wch && (state == .dcsEntry || state == .dcsParam) then .dcsParam
  else if isIntermediate wch then .dcsIntermediate
  else .dcsIgnore

variable {wch : WChar}

theorem header_byte_not_ignorable (byte : isHeaderByte wch = true) : isIgnorable wch = false := by
  simpa [isIgnorable] using header_byte_classes byte

variable {state : VTStates}

theorem unharmed_ignorable_iff (rest : List WChar) (ignorable : isIgnorable wch = true)
    (outside : state ≠ .dcsParam) : Unharmed state (wch :: rest) ↔ Unharmed state rest := by
  have dropped (before : List WChar) : stripIgnorable (wch :: before) = stripIgnorable before := by
    simp [stripIgnorable, ignorable]
  constructor
  · intro unharmed before other after split control
    have shifted := unharmed (wch :: before) other after (by simp [split]) control
    rwa [dropped] at shifted
  · intro unharmed before other after split control
    cases before with
    | nil =>
      rintro ⟨param | ⟨_, nonempty⟩, _⟩
      · exact outside param
      · exact nonempty rfl
    | cons head before =>
      rw [cons_append, List.cons.injEq] at split
      obtain ⟨rfl, tail⟩ := split
      rw [dropped]
      exact unharmed before other after tail control

theorem harmed_in_parameters (ignorable : isIgnorable wch = true) : ¬ Unharmed .dcsParam (wch :: rest) := by
  intro unharmed
  exact unharmed [] wch rest rfl ignorable ⟨.inl rfl, by simp [stripIgnorable]⟩

theorem in_parameters_cons_iff (state : VTStates) (wch : WChar) (read : List WChar) :
    inParameters state (wch :: read) ↔ inParameters (nextHeaderState state wch) read := by
  by_cases parameter : isDcsParameter wch = true ∧ (state = .dcsEntry ∨ state = .dcsParam)
  · have next : nextHeaderState state wch = .dcsParam := by
      rcases parameter with ⟨digit, rfl | rfl⟩ <;> simp [nextHeaderState, digit]
    rw [next]
    constructor
    · rintro ⟨_, all⟩
      exact ⟨.inl rfl, fun other member => all other (mem_cons_of_mem wch member)⟩
    · rintro ⟨_, all⟩
      refine ⟨parameter.2.symm.imp id (fun entry => ⟨entry, by simp⟩), ?_⟩
      intro other member
      rcases mem_cons.mp member with rfl | tail
      · exact parameter.1
      · exact all other tail
  · have next : nextHeaderState state wch = .dcsIntermediate ∨ nextHeaderState state wch = .dcsIgnore := by
      have failed : (isDcsParameter wch && (state == .dcsEntry || state == .dcsParam)) = false := by simpa using parameter
      unfold nextHeaderState
      rw [failed]
      simp only [Bool.false_eq_true, if_false]
      split
      · exact .inl rfl
      · exact .inr rfl
    constructor
    · rintro ⟨inside, all⟩
      exact absurd ⟨all wch (by simp), inside.symm.imp And.left id⟩ parameter
    · rintro ⟨param | ⟨entry, _⟩, _⟩
      · rcases next with other | other <;> simp [other] at param
      · rcases next with other | other <;> simp [other] at entry

theorem unharmed_byte_iff (rest : List WChar) (byte : isHeaderByte wch = true) :
    Unharmed state (wch :: rest) ↔ Unharmed (nextHeaderState state wch) rest := by
  have solid := header_byte_not_ignorable byte
  have kept (before : List WChar) : stripIgnorable (wch :: before) = wch :: stripIgnorable before := by
    simp [stripIgnorable, solid]
  constructor
  · intro unharmed before other after split control inside
    apply unharmed (wch :: before) other after (by simp [split]) control
    rwa [kept, in_parameters_cons_iff]
  · intro unharmed before other after split control
    cases before with
    | nil =>
      rw [nil_append, List.cons.injEq] at split
      rw [← split.1, solid] at control
      cases control
    | cons head before =>
      rw [cons_append, List.cons.injEq] at split
      obtain ⟨rfl, tail⟩ := split
      rw [kept, in_parameters_cons_iff]
      exact unharmed before other after tail control

theorem unharmed_past_header : Unharmed .dcsIgnore header := by
  rintro before wch after _ _ ⟨param | ⟨entry, _⟩, _⟩
  · cases param
  · cases entry

end

open VTIDBuilder UInt16

-- Before the dispatch, and after it or after the header was found invalid.
structure InHeader (parser : ParserState) : Prop where
  state : parser.state = .dcsEntry ∨ parser.state = .dcsParam ∨ parser.state = .dcsIntermediate
  collected : Collected parser.identifier
  fresh : parser.state ≠ .dcsIntermediate → parser.identifier = .clear

def pastHeader (parser : ParserState) : Prop := parser.state = .dcsIgnore ∨ parser.state = .dcsPassThrough

variable {wch : WChar} {ctx : Context Host}

theorem ignorable_inert (ignorable : isIgnorable wch = true) : isInert wch := by
  grind [isIgnorable, isC0Code, isDelete, isInert, isC1ControlCharacter, isEscape, ETB, EM, FS, US, DEL, ESC, CAN, SUB]

theorem ignorable_classes (ignorable : isIgnorable wch = true) :
    isNumericParamValue wch = false ∧ isParameterDelimiter wch = false ∧ isIntermediate wch = false ∧
      isParameterInvalid wch = false ∧ isSubParameterDelimiter wch = false := by
  have outside : ¬ (0x20 ≤ wch ∧ wch ≤ 0x3F) := by grind [isIgnorable, isC0Code, isDelete, ETB, EM, FS, US, DEL]
  refine ⟨?_, ?_, ?_, ?_, ?_⟩
  · grind [isNumericParamValue]
  · grind [isParameterDelimiter]
  · grind [isIntermediate]
  · grind [isParameterInvalid, isCsiPrivateMarker]
  · grind [isSubParameterDelimiter]

theorem dcs_dispatches_append (left right : List Action) :
    dcsDispatches (left ++ right) = dcsDispatches left ++ dcsDispatches right := filterMap_append

variable {m : Machine Host}

theorem past_header_step (ctx : Context Host) (inert : isInert wch) (past : pastHeader m.parser) :
    pastHeader (processCharacter ctx wch m).1.parser ∧ dcsDispatches (processCharacter ctx wch m).2 = [] := by
  rw [inert_event inert]
  rcases past with state | state
  · rw [state]
    exact ⟨.inl state, rfl⟩
  simp only [state, event, eventDcsPassThrough]
  split
  · refine ⟨?_, rfl⟩
    split
    · exact .inr state
    · exact .inl rfl
  · exact ⟨.inr state, rfl⟩

theorem dcs_dispatches_cons (ctx : Context Host) (wch : WChar) (rest : List WChar) (m : Machine Host) :
    dcsDispatches (processCharacters ctx (wch :: rest) m).2 = dcsDispatches (processCharacter ctx wch m).2 ++
        dcsDispatches (processCharacters ctx rest (processCharacter ctx wch m).1).2 := by
  rw [processCharacters, Step.andThen, dcs_dispatches_append]

theorem past_header_run (m : Machine Host) (inert : ∀ wch ∈ text, isInert wch)
    (past : pastHeader m.parser) : dcsDispatches (processCharacters ctx text m).2 = [] := by
  induction text generalizing m with
  | nil => rfl
  | cons wch rest ih =>
    obtain ⟨still, quiet⟩ := past_header_step ctx (inert wch (by simp)) past
    have tail := ih _ (fun c member => inert c (mem_cons_of_mem wch member)) still
    rw [dcs_dispatches_cons, quiet, tail]
    rfl

theorem ignorable_skipped (ctx : Context Host) (ignorable : isIgnorable wch = true) (header : InHeader m.parser)
    (outside : m.parser.state ≠ .dcsParam) : processCharacter ctx wch m = (m, []) := by
  rw [inert_event (ignorable_inert ignorable)]
  have kinds : isC0Code wch = true ∨ isDelete wch = true := by simpa [isIgnorable] using ignorable
  rcases header.state with state | state | state
  · rcases kinds with c0 | delete
    · simp [state, event, eventDcsEntry, c0, Step.skip]
    · simp [state, event, eventDcsEntry, delete, Step.skip]
  · exact absurd state outside
  · rcases kinds with c0 | delete
    · simp [state, event, eventDcsIntermediate, c0, Step.skip]
    · simp [state, event, eventDcsIntermediate, delete, Step.skip]

theorem dcs_dispatch_result (ctx : Context Host) (wch : WChar) (m : Machine Host) :
    pastHeader (actionDcsDispatch ctx wch m).1.parser ∧ dcsDispatches (actionDcsDispatch ctx wch m).2 =
        [((m.parser.identifier.finalize wch).value, m.parser.plainParameters)] := by
  refine ⟨?_, rfl⟩
  simp only [actionDcsDispatch]
  split
  · exact .inr rfl
  · exact .inl rfl

-- The missing else: among the parameters a control counts as the final.
theorem ignorable_dispatched (ignorable : isIgnorable wch = true) (state : m.parser.state = .dcsParam) :
    processCharacter ctx wch m = actionDcsDispatch ctx wch m := by
  rw [inert_event (ignorable_inert ignorable)]
  obtain ⟨notDigit, notDelimiter, notIntermediate, notInvalid, notColon⟩ := ignorable_classes ignorable
  simp [state, event, eventDcsParam, notDigit, notDelimiter, notIntermediate, notInvalid, notColon, Step.andThen, Step.skip]

theorem header_byte_kinds (byte : isHeaderByte wch = true) :
    (isDcsParameter wch = true ∧ isIntermediate wch = false ∧ isSubParameterDelimiter wch = false) ∨
      (isDcsParameter wch = false ∧ isIntermediate wch = true ∧ isSubParameterDelimiter wch = false) ∨
      (isDcsParameter wch = false ∧ isIntermediate wch = false ∧
        (isSubParameterDelimiter wch = true ∨ isCsiPrivateMarker wch = true)) := by
  grind [isHeaderByte, isDcsParameter, isNumericParamValue, isParameterDelimiter, isIntermediate, isSubParameterDelimiter,
    isCsiPrivateMarker]

variable {parser : ParserState}

theorem in_header_param (fresh : parser.identifier = .clear) : InHeader ((actionParam wch parser).enter .dcsParam) := by
  have same : ((actionParam wch parser).enter .dcsParam).identifier = .clear := (action_param_frame wch parser).2.trans fresh
  refine ⟨.inr (.inl rfl), ?_, fun _ => same⟩
  rw [same]
  exact collected_clear

theorem in_header_collect (intermediate : isIntermediate wch = true)
    (collected : Collected parser.identifier) : InHeader ((actionCollect wch parser).enter .dcsIntermediate) := by
  refine ⟨.inr (.inr rfl), ?_, fun other => absurd rfl other⟩
  apply collected_add collected
  grind [isIntermediate, isCollectable]

theorem header_byte_step (ctx : Context Host) (byte : isHeaderByte wch = true) (header : InHeader m.parser) :
    let next := processCharacter ctx wch m
    (next.1.parser.state = nextHeaderState m.parser.state wch ∧ InHeader next.1.parser ∧ next.2 = []) ∨
      (nextHeaderState m.parser.state wch = .dcsIgnore ∧ pastHeader next.1.parser ∧
        (m.parser.state ≠ .dcsEntry → next.2 = [])) := by
  intro next
  have direct : next = event ctx m.parser.state wch m := inert_event (header_byte_inert byte)
  obtain ⟨notC0, notDelete⟩ := header_byte_classes byte
  rw [direct]
  have ignored (rejected : event ctx m.parser.state wch m = (⟨m.parser.enter .dcsIgnore, m.host⟩, [])) :
      pastHeader (event ctx m.parser.state wch m).1.parser ∧
        (m.parser.state ≠ .dcsEntry → (event ctx m.parser.state wch m).2 = []) := by
    rw [rejected]
    exact ⟨.inl rfl, fun _ => rfl⟩
  rcases header_byte_kinds byte with ⟨parameter, notIntermediate, notColon⟩ | ⟨notParameter, intermediate, notColon⟩ |
    ⟨notParameter, notIntermediate, invalid⟩
  · by_cases last : m.parser.state = .dcsIntermediate
    · have invalid : isIntermediateInvalid wch = true := by grind [isDcsParameter, isIntermediateInvalid]
      refine .inr ⟨by simp [nextHeaderState, notIntermediate, last], ignored ?_⟩
      simp [last, event, eventDcsIntermediate, notC0, notDelete, notIntermediate, invalid, Step.update, enterDcsIgnore]
    · have result : event ctx m.parser.state wch m = (⟨(actionParam wch m.parser).enter .dcsParam, m.host⟩, []) := by
        rw [isDcsParameter] at parameter
        rcases header.state with state | state | state
        · simp [state, event, eventDcsEntry, notC0, notDelete, notColon, parameter, Step.andThen, Step.update, enterDcsParam]
        · have stays := enter_same_state _ _ (((action_param_frame wch m.parser).1).trans state)
          simp [state, event, eventDcsParam, parameter, Step.andThen, Step.update, Step.skip, stays]
        · exact absurd state last
      rw [result]
      refine .inl ⟨?_, in_header_param (header.fresh last), rfl⟩
      rcases header.state with state | state | state <;> simp_all [nextHeaderState, enter]
  · left
    have result : event ctx m.parser.state wch m = (⟨(actionCollect wch m.parser).enter .dcsIntermediate, m.host⟩, []) := by
      rw [isDcsParameter] at notParameter
      rcases header.state with state | state | state <;>
        simp [state, event, eventDcsEntry, eventDcsParam, eventDcsIntermediate, notC0, notDelete, notColon, notParameter,
          intermediate, Step.andThen, Step.update, Step.skip, enterDcsIntermediate, actionCollect, enter]
    rw [result]
    refine ⟨?_, in_header_collect intermediate header.collected, rfl⟩
    simp [nextHeaderState, notParameter, intermediate, enter]
  · right
    refine ⟨by simp [nextHeaderState, notParameter, notIntermediate], ?_⟩
    rw [isDcsParameter] at notParameter
    rcases header.state with state | state | state
    · by_cases colon : isSubParameterDelimiter wch = true
      · apply ignored
        simp [state, event, eventDcsEntry, notC0, notDelete, colon, Step.update, enterDcsIgnore]
      · have dispatched : event ctx m.parser.state wch m = actionDcsDispatch ctx wch m := by
          simp [state, event, eventDcsEntry, notC0, notDelete, colon, notParameter, notIntermediate]
        rw [dispatched]
        exact ⟨(dcs_dispatch_result ctx wch m).1, fun started => absurd state started⟩
    · apply ignored
      have wrong : (isParameterInvalid wch || isSubParameterDelimiter wch) = true := by
        rw [isParameterInvalid, Bool.or_comm]
        simpa using invalid
      simp [state, event, eventDcsParam, notParameter, notIntermediate, wrong, Step.andThen, Step.update, Step.skip,
        enterDcsIgnore]
    · apply ignored
      have wrong : isIntermediateInvalid wch = true := by grind [isIntermediateInvalid]
      simp [state, event, eventDcsIntermediate, notC0, notDelete, notIntermediate, wrong, Step.update, enterDcsIgnore]

theorem clear_value (wch : WChar) : (clear.finalize wch).value = wch.toNat := by
  have bound := wch.toNat_lt
  simp only [finalize, clear]
  omega

variable {final control : WChar}

-- A final above 0x3F never gives the identifier of a lone control: without
-- intermediates it is the identifier, and otherwise the first one is its low byte.
theorem final_value_not_control (collected : Collected builder)
    (isFinal : isDcsFinal final = true) (lowByteSet : lowByte final ≠ 0) (ignorable : isIgnorable control = true) :
    (builder.finalize final).value ≠ control.toNat := by
  have controlRange : control.toNat < 0x20 ∨ control.toNat = 0x7F := by
    have cases' : control < 0x20 ∨ control = 0x7F := by grind [isIgnorable, isC0Code, isDelete, ETB, EM, FS, US, DEL]
    exact cases'.imp lt_iff_toNat_lt.mp (fun delete => by rw [delete]; rfl)
  have finalRange : 0x40 ≤ final.toNat ∧ final.toNat ≠ 0x7F := by
    have parts : 0x40 ≤ final ∧ final ≠ 0x7F := by grind [isDcsFinal, isDelete, DEL]
    refine ⟨UInt16.le_iff_toNat_le.mp parts.1, fun same => parts.2 (UInt16.toNat_inj.mp same)⟩
  have bytes := collected_bytes collected
  cases spelled : builder.collected with
  | nil =>
    have empty : builder = clear := by
      rw [collected.built, spelled]
      rfl
    rw [empty, clear_value]
    omega
  | cons first rest =>
    by_cases short : builder.collected.length ≤ 6
    · obtain ⟨low, high⟩ := collected.collectable first (by simp [spelled])
      have lowNat : 0x20 ≤ first.toNat := le_iff_toNat_le.mp low
      have highNat : first.toNat ≤ 0x3F := le_iff_toNat_le.mp high
      have built : builder = _ := collected.built.trans (builder_fold bytes short)
      have accumulator : Nat.ofDigits 256 (digitsOf builder.collected) =
          first.toNat + 256 * Nat.ofDigits 256 (digitsOf rest) := by
        rw [spelled]
        rfl
      have shift : 2 ^ (8 * builder.collected.length) = 256 * 2 ^ (8 * rest.length) := by
        rw [spelled, length_cons, Nat.mul_add, Nat.pow_add, Nat.mul_comm]
      have value : (builder.finalize final).value =
          (first.toNat + 256 * Nat.ofDigits 256 (digitsOf rest) + final.toNat * (256 * 2 ^ (8 * rest.length))) %
            2 ^ 64 % 2 ^ 56 := by
        rw [← accumulator, ← shift]
        conv => lhs; rw [built]
        rfl
      have regroup : final.toNat * (256 * 2 ^ (8 * rest.length)) = 256 * (final.toNat * 2 ^ (8 * rest.length)) := by
        rw [Nat.mul_left_comm]
      omega
    · have built : builder = _ := collected.built.trans (builder_fold_overflow bytes (by omega))
      have value : (builder.finalize final).value = (0 + final.toNat * 2 ^ 48) % 2 ^ 64 % 2 ^ 56 := by
        conv => lhs; rw [built]
        rfl
      have lowNat : final.toNat % 256 ≠ 0 := by
        intro zero
        apply lowByteSet
        apply UInt16.toNat_inj.mp
        exact zero
      omega

theorem header_final_step (final : isDcsFinal wch = true) (header : InHeader m.parser) :
    processCharacter ctx wch m = actionDcsDispatch ctx wch m := by
  obtain ⟨notC0, notDelete, notDigit, notDelimiter, notColon, notIntermediate, notMarker⟩ := final_classes final
  rw [inert_event (final_inert final)]
  rcases header.state with state | state | state <;>
    simp [state, event, eventDcsEntry, eventDcsParam, eventDcsIntermediate, isIntermediateInvalid, isParameterInvalid, notC0,
      notDelete, notColon, notDigit, notDelimiter, notIntermediate, notMarker, Step.andThen, Step.skip]

def isHeaderText (header : List WChar) : Prop := ∀ wch ∈ header, isHeaderByte wch = true ∨ isIgnorable wch = true

theorem header_text_inert (header : List WChar) (text : isHeaderText header) (isFinal : isDcsFinal final = true) :
    ∀ wch ∈ header ++ [final], isInert wch := by
  intro wch member
  rcases mem_append.mp member with inside | last
  · rcases text wch inside with byte | ignorable
    · exact header_byte_inert byte
    · exact ignorable_inert ignorable
  · rw [mem_singleton.mp last]
    exact final_inert isFinal

variable {header : List WChar}

theorem strip_header_text (text : isHeaderText header) : ∀ wch ∈ stripIgnorable header, isHeaderByte wch = true := by
  intro wch member
  obtain ⟨inside, solid⟩ := mem_filter.mp member
  rcases text wch inside with byte | ignorable
  · exact byte
  · simp [ignorable] at solid

theorem clean_header_value (ctx : Context Host) (m : Machine Host)
    (bytes : ∀ wch ∈ header, isHeaderByte wch = true) (isFinal : isDcsFinal final = true) (lowByteSet : lowByte final ≠ 0)
    (ignorable : isIgnorable control = true) (inHeader : InHeader m.parser) (started : m.parser.state ≠ .dcsEntry) :
    ∀ dispatch ∈ dcsDispatches (processCharacters ctx (header ++ [final]) m).2, dispatch.1 ≠ control.toNat := by
  induction header generalizing m with
  | nil =>
    have opened := (dcs_dispatch_result ctx final m).2
    rw [nil_append, dcs_dispatches_cons, header_final_step isFinal inHeader, opened]
    intro dispatch member
    obtain rfl : dispatch = _ := by simpa [processCharacters, Step.skip, dcsDispatches] using member
    exact final_value_not_control inHeader.collected isFinal lowByteSet ignorable
  | cons wch rest ih =>
    have byte := bytes wch (by simp)
    have restBytes : ∀ c ∈ rest, isHeaderByte c = true := fun c member => bytes c (mem_cons_of_mem wch member)
    rw [cons_append, dcs_dispatches_cons]
    rcases header_byte_step ctx byte inHeader with ⟨state, still, quiet⟩ | ⟨_, past, quiet⟩
    · rw [quiet]
      apply ih _ restBytes still
      rw [state, nextHeaderState]
      split
      · simp
      · split <;> simp
    · rw [quiet started, past_header_run _ (header_text_inert rest (fun c member => .inl (restBytes c member)) isFinal) past]
      simp [dcsDispatches]

theorem header_controls_harm (ctx : Context Host) (m : Machine Host) (text : isHeaderText header)
    (isFinal : isDcsFinal final = true) (inHeader : InHeader m.parser) :
    let same := dcsDispatches (processCharacters ctx (header ++ [final]) m).2 =
      dcsDispatches (processCharacters ctx (stripIgnorable header ++ [final]) m).2
    (Unharmed m.parser.state header → same) ∧ (lowByte final ≠ 0 → same → Unharmed m.parser.state header) := by
  induction header generalizing m with
  | nil => exact ⟨fun _ => rfl, fun _ _ before wch after split => by simp at split⟩
  | cons wch rest ih =>
    have restText : isHeaderText rest := fun c member => text c (mem_cons_of_mem wch member)
    by_cases ignorable : isIgnorable wch = true
    · have stripped : stripIgnorable (wch :: rest) = stripIgnorable rest := by simp [stripIgnorable, ignorable]
      rw [stripped, cons_append, dcs_dispatches_cons]
      by_cases inside : m.parser.state = .dcsParam
      · rw [inside]
        refine ⟨fun unharmed => absurd unharmed (harmed_in_parameters ignorable), fun lowByteSet same => ?_⟩
        -- The control was dispatched, and the clean header has no such identifier.
        rw [ignorable_dispatched ignorable inside, (dcs_dispatch_result ctx wch m).2, inHeader.fresh (by simp [inside]),
          clear_value] at same
        have values := clean_header_value ctx m (strip_header_text restText) isFinal
          lowByteSet ignorable inHeader (by simp [inside])
        rw [← same] at values
        exact absurd rfl (values (wch.toNat, m.parser.plainParameters) (by simp))
      · rw [ignorable_skipped ctx ignorable inHeader inside, unharmed_ignorable_iff rest ignorable inside]
        exact ih m restText inHeader
    · have byte : isHeaderByte wch = true := (text wch (by simp)).resolve_right ignorable
      have stripped : stripIgnorable (wch :: rest) = wch :: stripIgnorable rest := by simp [stripIgnorable, ignorable]
      rw [stripped, cons_append, cons_append, dcs_dispatches_cons, dcs_dispatches_cons, append_cancel_left_eq,
        unharmed_byte_iff rest byte]
      rcases header_byte_step ctx byte inHeader with ⟨state, still, _⟩ | ⟨ignored, past, _⟩
      · rw [← state]
        exact ih _ restText still
      rw [ignored, past_header_run _ (header_text_inert rest restText isFinal) past,
        past_header_run _ (header_text_inert (stripIgnorable rest)
          (fun c member => .inl (strip_header_text restText c member)) isFinal) past]
      exact ⟨fun _ => rfl, fun _ _ => unharmed_past_header⟩

theorem dcs_entry_in_header (parser : ParserState) : InHeader parser.enterDcsEntry :=
  ⟨.inl rfl, collected_clear, fun _ => rfl⟩

-- No inserted control stands between the first parameter byte and the end of the parameters.
def ControlsOutsideParameters (header : List WChar) : Prop :=
  ∀ before wch after, header = before ++ wch :: after → isIgnorable wch = true →
    stripIgnorable before = [] ∨ ∃ other ∈ stripIgnorable before, isDcsParameter other = false

theorem unharmed_entry_iff (header : List WChar) : Unharmed .dcsEntry header ↔ ControlsOutsideParameters header := by
  have outside (read : List WChar) : ¬ inParameters .dcsEntry read ↔ read = [] ∨
    ∃ other ∈ read, isDcsParameter other = false := by
    simp only [inParameters]
    grind
  constructor
  · intro unharmed before wch after split control
    exact (outside _).mp (unharmed before wch after split control)
  · intro clear before wch after split control
    exact (outside _).mpr (clear before wch after split control)

-- The side condition only excludes finals of the form U+xx00: after seven or
-- more intermediates those have identifier zero, and so has an inserted NUL.
theorem dcs_controls_transparent_iff (ctx : Context Host) (m : Machine Host) (introducer header : List WChar) (final : WChar)
    (introduced : isIntroducer 0x50 0x90 introducer m) (ansi : (processSevenBit ctx ESC m).1.parser.ansi = true)
    (text : isHeaderText header) (isFinal : isDcsFinal final = true) :
    let inserted := dcsDispatches (processCharacters ctx (introducer ++ (header ++ [final])) m).2
    let clean := dcsDispatches (processCharacters ctx (introducer ++ (stripIgnorable header ++ [final])) m).2
    (lowByte final ≠ 0 → (inserted = clean ↔ ControlsOutsideParameters header)) ∧
      (ControlsOutsideParameters header → inserted = clean) := by
  intro inserted clean
  obtain ⟨parser, host, trace, entered, _⟩ := introducer_enters letter_p_enters_dcs ⟨rfl, rfl, rfl⟩ introduced ansi
  obtain ⟨ignored, harmed⟩ :=
    header_controls_harm ctx ⟨parser.enterDcsEntry, host⟩ text isFinal (dcs_entry_in_header parser)
  have state : parser.enterDcsEntry.state = .dcsEntry := rfl
  rw [state, unharmed_entry_iff] at ignored harmed
  have after (rest : List WChar) : dcsDispatches (processCharacters ctx (introducer ++ rest) m).2 =
      dcsDispatches trace ++ dcsDispatches (processCharacters ctx rest ⟨parser.enterDcsEntry, host⟩).2 := by
    rw [process_characters_append, Step.andThen, entered, dcs_dispatches_append]
  have transparent (outside : ControlsOutsideParameters header) : inserted = clean :=
    (after _).trans ((congrArg _ (ignored outside)).trans (after _).symm)
  refine ⟨fun lowByteSet => ⟨fun same => ?_, transparent⟩, transparent⟩
  exact harmed lowByteSet (append_cancel_left ((after _).symm.trans (same.trans (after _))))

theorem dcs_controls_transparent_request :
    dcsDispatches (processCharacters silentContext ([ESC, 0x50] ++ ([0x00, 0x24] ++ [0x71])) (initialMachine false ())).2 =
      dcsDispatches (processCharacters silentContext ([ESC, 0x50] ++ (stripIgnorable [0x00, 0x24] ++ [0x71]))
        (initialMachine false ())).2 := by
  apply (dcs_controls_transparent_iff silentContext (initialMachine false ()) [ESC, 0x50] [0x00, 0x24] 0x71 (.inl rfl) rfl
    (by unfold isHeaderText; decide) rfl).2
  intro before wch after split control
  cases before with
  | nil => exact .inl rfl
  | cons first rest =>
    obtain ⟨rfl, tail⟩ := List.cons.inj split
    cases rest with
    | nil => exact .inl rfl
    | cons second rest =>
      obtain ⟨rfl, _⟩ := List.cons.inj tail
      exact .inr ⟨0x24, by simp [stripIgnorable, isIgnorable, isC0Code, isDelete, ETB, EM, US, DEL], rfl⟩

-- 1 NUL $ q opens a string under the identifier NUL.
theorem dcs_control_in_parameters_dispatched :
    dcsDispatches (processCharacters silentContext [ESC, 0x50, 0x31, 0x00, 0x24, 0x71] (initialMachine false ())).2 =
        [(0, ⟨[some 1], [], []⟩)] ∧
      dcsDispatches (processCharacters silentContext [ESC, 0x50, 0x31, 0x24, 0x71] (initialMachine false ())).2 =
        [(fromString DcsActionCodes.DECRQSS_RequestSetting.code, ⟨[some 1], [], []⟩)] := by
  decide

end Cogterm.VirtualTerminal
