import Cogterm.Parser.Dispatches
import Cogterm.Parser.Chunks

namespace Cogterm.VirtualTerminal

open AsciiChars ParserState List Step

variable {Host : Type}

-- The outcome of a step: the machine it leaves behind meets inv, and every call
-- it made into the engine meets ok.
def Good (inv : ParserState → Prop) (ok : Action → Prop) (outcome : Machine Host × List Action) : Prop :=
  inv outcome.1.parser ∧ ∀ action ∈ outcome.2, ok action

def Keeps (inv : ParserState → Prop) (ok : Action → Prop) (step : Step Host) : Prop :=
  ∀ m, inv m.parser → Good inv ok (step m)

section

variable {inv : ParserState → Prop} {ok : Action → Prop}

theorem keeps_skip : Keeps inv ok (skip : Step Host) := fun _ holds => ⟨holds, by simp [skip]⟩

theorem keeps_update (preserved : ∀ parser, inv parser → inv (change parser)) : Keeps inv ok (update change : Step Host) :=
  fun m holds => ⟨preserved m.parser holds, by simp [update]⟩

variable {condition : Prop} {second first : Step Host}

theorem keeps_ite [Decidable condition] (firstKeeps : condition → Keeps inv ok first)
    (secondKeeps : ¬ condition → Keeps inv ok second) : Keeps inv ok (if condition then first else second) := by
  by_cases holds : condition
  · rw [if_pos holds]
    exact firstKeeps holds
  · rw [if_neg holds]
    exact secondKeeps holds

theorem keeps_else [Decidable condition] (firstKeeps : Keeps inv ok first)
    (secondKeeps : Keeps inv ok second) : Keeps inv ok (if condition then first else second) :=
  keeps_ite (fun _ => firstKeeps) (fun _ => secondKeeps)

variable {m : Machine Host}

theorem good_and_then (firstGood : Good inv ok (first m))
    (secondKeeps : Keeps inv ok second) : Good inv ok (first.andThen second m) := by
  obtain ⟨holds, actions⟩ := secondKeeps _ firstGood.1
  exact ⟨holds, forall_mem_append.mpr ⟨firstGood.2, actions⟩⟩

theorem keeps_and_then (firstKeeps : Keeps inv ok first) (secondKeeps : Keeps inv ok second) :
    Keeps inv ok (first.andThen second) :=
  fun m holds => good_and_then (firstKeeps m holds) secondKeeps

theorem good_call_engine (replies : ∀ parser reply, inv parser → inv (applyReply parser reply))
    (holds : inv m.parser) (allowed : ok action) : Good inv ok (callEngine ctx action m) :=
  ⟨replies m.parser _ holds, by simpa [callEngine] using allowed⟩

theorem keeps_vt_loop (each : ∀ wch, Keeps inv ok (processCharacter ctx wch)) (text : List WChar)
    (m : Machine Host) (holds : inv m.parser) : Good inv ok (vtLoop ctx text m).1 := by
  induction text generalizing m with
  | nil => exact ⟨holds, by simp [vtLoop]⟩
  | cons wch rest ih =>
    have first := each wch m holds
    by_cases done : (processCharacter ctx wch m).1.parser.state = .ground
    · simpa only [vtLoop, if_pos done] using first
    · have tail := ih _ first.1
      simp only [vtLoop, if_neg done]
      exact ⟨tail.1, forall_mem_append.mpr ⟨first.2, tail.2⟩⟩

theorem keeps_string_loop (each : ∀ wch, Keeps inv ok (processCharacter ctx wch))
    (prints : ∀ string, Keeps inv ok (actionPrintString ctx string)) (fuel : Nat) (text : List WChar) (m : Machine Host)
    (holds : inv m.parser) : Good inv ok (stringLoop ctx fuel text m).2 := by
  induction fuel generalizing text m with
  | zero => exact ⟨holds, by simp [stringLoop]⟩
  | succ fuel ih =>
    cases text with
    | nil => exact ⟨holds, by simp [stringLoop]⟩
    | cons wch rest =>
      rw [stringLoop]
      generalize findActionableControlCharacter ctx.isa (wch :: rest) = run
      have printed : Good inv ok (if run.1.isEmpty then (m, []) else actionPrintString ctx run.1 m) := by
        split
        · exact ⟨holds, by simp⟩
        · exact prints run.1 m holds
      by_cases ended : run.2.isEmpty
      · rw [if_pos ended]
        exact printed
      rw [if_neg ended]
      generalize (if run.1.isEmpty then (m, []) else actionPrintString ctx run.1 m) = result at printed ⊢
      have looped := keeps_vt_loop each run.2 result.1 printed.1
      have tail := ih (vtLoop ctx run.2 result.1).2 _ looped.1
      exact ⟨tail.1, forall_mem_append.mpr ⟨printed.2, forall_mem_append.mpr ⟨looped.2, tail.2⟩⟩⟩

theorem keeps_process_string (each : ∀ wch, Keeps inv ok (processCharacter ctx wch))
    (prints : ∀ string, Keeps inv ok (actionPrintString ctx string)) (flushes : ∀ run, Keeps inv ok (flushInput ctx run))
    : Keeps inv ok (processString ctx text) := by
  intro m holds
  by_cases ground : m.parser.state = .ground
  · have looped := keeps_string_loop each prints text.length text m holds
    have flushed := flushes (stringLoop ctx text.length text m).1 _ looped.1
    simp only [processString, if_pos ground]
    exact ⟨flushed.1, forall_mem_append.mpr ⟨looped.2, flushed.2⟩⟩
  · have resumed := keeps_vt_loop each text m holds
    have looped := keeps_string_loop each prints (vtLoop ctx text m).2.length (vtLoop ctx text m).2 _ resumed.1
    simp only [processString, if_neg ground]
    generalize (if (vtLoop ctx text m).2.isEmpty then text else _) = run
    have flushed := flushes run _ looped.1
    exact ⟨flushed.1, forall_mem_append.mpr ⟨resumed.2, forall_mem_append.mpr ⟨looped.2, flushed.2⟩⟩⟩

end

theorem keeps_state_machine (each : ∀ callback, Keeps inv ok callback →
      ∀ wch, Keeps inv ok (processCharacter ⟨engine, isEngineForInput, isa, callback⟩ wch))
    (prints : ∀ callback string, Keeps inv ok (actionPrintString ⟨engine, isEngineForInput, isa, callback⟩ string))
    (flushes : ∀ callback run, Keeps inv ok (flushInput ⟨engine, isEngineForInput, isa, callback⟩ run))
    : Keeps inv ok (processStrings (stateMachine engine isEngineForInput isa) texts) := by
  have callbacks (depth : Nat) : Keeps inv ok (csiCallback engine isEngineForInput isa depth) := by
    induction depth with
    | zero => exact keeps_skip
    | succ depth ih =>
      intro m holds
      cases injected : (engine.invokeMacro m.host).2 with
      | none =>
        simp only [csiCallback, injected]
        exact ⟨holds, by simp⟩
      | some text =>
        simp only [csiCallback, injected]
        exact keeps_process_string (each _ ih) (prints _) (flushes _) _ holds
  induction texts with
  | nil => exact keeps_skip
  | cons text rest ih =>
    exact keeps_and_then (keeps_process_string (each _ (callbacks _)) (prints _) (flushes _)) ih

section

structure SameModes (before after : ParserState) : Prop where
  identifier : after.identifier = before.identifier
  ansi : after.ansi = before.ansi
  onCsiCompleteCallback : after.onCsiCompleteCallback = before.onCsiCompleteCallback

theorem same_modes_trans (early : SameModes first second) (late : SameModes second third) : SameModes first third :=
  ⟨late.identifier.trans early.identifier, late.ansi.trans early.ansi,
    late.onCsiCompleteCallback.trans early.onCsiCompleteCallback⟩

theorem open_parameter_modes (parser : ParserState) : SameModes parser parser.openParameter := by
  unfold openParameter
  split <;> exact ⟨rfl, rfl, rfl⟩

theorem action_param_modes (parser : ParserState) : SameModes parser (actionParam wch parser) := by
  have opened := open_parameter_modes parser
  simp only [actionParam]
  split
  · exact ⟨rfl, rfl, rfl⟩
  split
  · split
    · exact same_modes_trans opened ⟨rfl, rfl, rfl⟩
    · exact same_modes_trans opened ⟨rfl, rfl, rfl⟩
  · exact same_modes_trans opened ⟨rfl, rfl, rfl⟩

theorem action_sub_param_modes (parser : ParserState) : SameModes parser (actionSubParam wch parser) := by
  have opened := open_parameter_modes parser
  simp only [actionSubParam]
  split
  · exact ⟨rfl, rfl, rfl⟩
  split
  · split
    · exact same_modes_trans opened ⟨rfl, rfl, rfl⟩
    · exact same_modes_trans opened ⟨rfl, rfl, rfl⟩
  · exact same_modes_trans opened ⟨rfl, rfl, rfl⟩

variable {wch : WChar}

theorem not_c0_nonzero (notC0 : ¬ isC0Code wch = true) : wch ≠ 0 := by
  rintro rfl
  exact notC0 rfl

theorem intermediate_collectable (intermediate : isIntermediate wch = true) : isCollectable wch := by
  grind [isIntermediate, isCollectable]

theorem private_marker_collectable (marker : isCsiPrivateMarker wch = true) : isCollectable wch := by
  grind [isCsiPrivateMarker, isCollectable]

-- The parts that all events are made of. An invariant that they keep is kept by
-- every character.
structure EventRules (inv : ParserState → Prop) (ok : Action → Prop) (ctx : Context Host) : Prop where
  call : ∀ action, dispatchOf action = none → Keeps inv ok (callEngine ctx action)
  escDispatch : ∀ wch, wch ≠ 0 → Keeps inv ok (actionEscDispatch ctx wch)
  freshEscDispatch : ∀ wch, Keeps inv ok (andThen (.update enterEscape) (actionEscDispatch ctx wch))
  csiDispatch : ∀ wch, wch ≠ 0 → Keeps inv ok (actionCsiDispatch ctx wch)
  dcsDispatch : ∀ wch, Keeps inv ok (actionDcsDispatch ctx wch)
  passThrough : ∀ wch, Keeps inv ok (eventDcsPassThrough ctx wch)
  complete : Keeps inv ok (executeCsiCompleteCallback ctx)
  clear : Keeps inv ok (update actionClear : Step Host)
  collect : ∀ wch, isCollectable wch → Keeps inv ok (update (actionCollect wch) : Step Host)
  same : ∀ change : ParserState → ParserState, (∀ parser, SameModes parser (change parser)) →
    Keeps inv ok (update change : Step Host)

section

variable {inv : ParserState → Prop} {ok : Action → Prop} {ctx : Context Host} (rules : EventRules inv ok ctx)

include rules

variable {state : VTStates}

theorem enter_keeps : Keeps inv ok (update (enter state) : Step Host) :=
  rules.same _ (fun _ => ⟨rfl, rfl, rfl⟩)

theorem clear_keeps : Keeps inv ok (update (fun parser => (parser.enter state).actionClear) : Step Host) :=
  keeps_and_then (enter_keeps rules) rules.clear

theorem param_keeps : Keeps inv ok (update (actionParam wch) : Step Host) :=
  rules.same _ action_param_modes

theorem sub_param_keeps : Keeps inv ok (update (actionSubParam wch) : Step Host) :=
  rules.same _ action_sub_param_modes

theorem collect_keeps (intermediate : isIntermediate wch = true) : Keeps inv ok (update (actionCollect wch) : Step Host) :=
  rules.collect wch (intermediate_collectable intermediate)

theorem vt52_dispatch_keeps : Keeps inv ok (actionVt52EscDispatch ctx wch) :=
  fun m holds => rules.call _ rfl m holds

theorem osc_dispatch_keeps : Keeps inv ok (actionOscDispatch ctx) :=
  fun m holds => rules.call _ rfl m holds

theorem ss3_dispatch_keeps : Keeps inv ok (actionSs3Dispatch ctx wch) :=
  fun m holds => rules.call _ rfl m holds

theorem then_enter_keeps {step : Step Host} (kept : Keeps inv ok step) : Keeps inv ok (step.andThen (.update (enter state))) :=
  keeps_and_then kept (enter_keeps rules)

theorem collect_else {other : Step Host} (kept : Keeps inv ok other) : Keeps inv ok
    (if isIntermediate wch then andThen (.update (actionCollect wch)) (.update (enter state)) else other) :=
  keeps_ite (fun intermediate => then_enter_keeps rules (collect_keeps rules intermediate)) (fun _ => kept)

theorem interrupt_keeps : Keeps inv ok (actionInterrupt ctx) := by
  intro m holds
  unfold actionInterrupt
  split
  · exact good_and_then (rules.call _ rfl m holds) (rules.same _ (fun _ => ⟨rfl, rfl, rfl⟩))
  · exact keeps_skip m holds

theorem complete_csi_keeps (nonzero : wch ≠ 0) : Keeps inv ok (completeCsi ctx wch) := by
  apply keeps_and_then (rules.csiDispatch wch nonzero)
  exact keeps_and_then (enter_keeps rules) rules.complete

theorem event_ground_keeps : Keeps inv ok (eventGround ctx wch) := by
  exact keeps_else (rules.call _ rfl) (rules.call _ rfl)

theorem event_escape_keeps : Keeps inv ok (eventEscape ctx wch) := by
  intro m holds
  unfold eventEscape
  split
  · split
    · exact then_enter_keeps rules (rules.call _ rfl) m holds
    · exact rules.call _ rfl m holds
  rename_i notC0
  have dispatched := rules.escDispatch wch (not_c0_nonzero notC0)
  split
  · exact keeps_skip m holds
  split
  · rename_i intermediate
    split
    · exact then_enter_keeps rules dispatched m holds
    · exact then_enter_keeps rules (collect_keeps rules intermediate) m holds
  split
  · split
    · exact clear_keeps rules m holds
    split
    · exact enter_keeps rules m holds
    split
    · exact clear_keeps rules m holds
    split
    · exact clear_keeps rules m holds
    split
    · exact enter_keeps rules m holds
    · exact then_enter_keeps rules dispatched m holds
  · split
    · exact enter_keeps rules m holds
    · exact then_enter_keeps rules (vt52_dispatch_keeps rules) m holds

theorem event_escape_intermediate_keeps : Keeps inv ok (eventEscapeIntermediate ctx wch) := by
  intro m holds
  unfold eventEscapeIntermediate
  split
  · exact rules.call _ rfl m holds
  rename_i notC0
  split
  · exact collect_keeps rules ‹_› m holds
  split
  · exact keeps_skip m holds
  split
  · exact then_enter_keeps rules (rules.escDispatch wch (not_c0_nonzero notC0)) m holds
  split
  · exact enter_keeps rules m holds
  · exact then_enter_keeps rules (vt52_dispatch_keeps rules) m holds

theorem event_csi_entry_keeps : Keeps inv ok (eventCsiEntry ctx wch) := by
  refine keeps_ite (fun _ => rules.call _ rfl) (fun notC0 => ?_)
  refine keeps_else keeps_skip ?_
  refine collect_else rules ?_
  refine keeps_else (then_enter_keeps rules (param_keeps rules)) ?_
  refine keeps_else (then_enter_keeps rules (sub_param_keeps rules)) ?_
  refine keeps_ite (fun marker => then_enter_keeps rules (rules.collect wch ?_)) (fun _ => ?_)
  · exact private_marker_collectable marker
  exact complete_csi_keeps rules (not_c0_nonzero notC0)

theorem event_csi_intermediate_keeps : Keeps inv ok (eventCsiIntermediate ctx wch) := by
  refine keeps_ite (fun _ => rules.call _ rfl) (fun notC0 => ?_)
  refine keeps_ite (collect_keeps rules) (fun _ => ?_)
  refine keeps_else keeps_skip ?_
  refine keeps_else (enter_keeps rules) ?_
  exact complete_csi_keeps rules (not_c0_nonzero notC0)

theorem event_csi_ignore_keeps : Keeps inv ok (eventCsiIgnore ctx wch) := by
  refine keeps_else (rules.call _ rfl) ?_
  refine keeps_else keeps_skip ?_
  refine keeps_else keeps_skip ?_
  exact keeps_else keeps_skip (enter_keeps rules)

theorem event_csi_param_keeps : Keeps inv ok (eventCsiParam ctx wch) := by
  refine keeps_ite (fun _ => rules.call _ rfl) (fun notC0 => ?_)
  refine keeps_else keeps_skip ?_
  refine keeps_else (param_keeps rules) ?_
  refine keeps_else (then_enter_keeps rules (sub_param_keeps rules)) ?_
  refine collect_else rules ?_
  refine keeps_else (enter_keeps rules) ?_
  exact complete_csi_keeps rules (not_c0_nonzero notC0)

theorem event_csi_sub_param_keeps : Keeps inv ok (eventCsiSubParam ctx wch) := by
  refine keeps_ite (fun _ => rules.call _ rfl) (fun notC0 => ?_)
  refine keeps_else keeps_skip ?_
  refine keeps_else (sub_param_keeps rules) ?_
  refine keeps_else (then_enter_keeps rules (param_keeps rules)) ?_
  refine collect_else rules ?_
  refine keeps_else (enter_keeps rules) ?_
  exact complete_csi_keeps rules (not_c0_nonzero notC0)

theorem event_osc_param_keeps : Keeps inv ok (eventOscParam ctx wch) := by
  refine keeps_else (then_enter_keeps rules (osc_dispatch_keeps rules)) ?_
  refine keeps_else (enter_keeps rules) ?_
  refine keeps_else (rules.same _ (fun _ => ⟨rfl, rfl, rfl⟩)) ?_
  exact keeps_else (enter_keeps rules) keeps_skip

theorem event_osc_string_keeps : Keeps inv ok (eventOscString ctx wch) := by
  refine keeps_else (then_enter_keeps rules (osc_dispatch_keeps rules)) ?_
  refine keeps_else (enter_keeps rules) ?_
  exact keeps_else keeps_skip (rules.same _ (fun _ => ⟨rfl, rfl, rfl⟩))

theorem event_osc_termination_keeps : Keeps inv ok (eventOscTermination ctx wch) := by
  refine keeps_else (then_enter_keeps rules (osc_dispatch_keeps rules)) ?_
  exact keeps_and_then (clear_keeps rules) (event_escape_keeps rules)

theorem event_ss3_entry_keeps : Keeps inv ok (eventSs3Entry ctx wch) := by
  refine keeps_else (rules.call _ rfl) ?_
  refine keeps_else keeps_skip ?_
  refine keeps_else (enter_keeps rules) ?_
  refine keeps_else (then_enter_keeps rules (param_keeps rules)) ?_
  exact then_enter_keeps rules (ss3_dispatch_keeps rules)

theorem event_ss3_param_keeps : Keeps inv ok (eventSs3Param ctx wch) := by
  refine keeps_else (rules.call _ rfl) ?_
  refine keeps_else keeps_skip ?_
  refine keeps_else (param_keeps rules) ?_
  refine keeps_else (enter_keeps rules) ?_
  exact then_enter_keeps rules (ss3_dispatch_keeps rules)

theorem event_vt52_param_keeps : Keeps inv ok (eventVt52Param ctx wch) := by
  intro m holds
  have added := rules.same (fun parser => { parser with parameters := parser.parameters ++ [some wch.toNat] })
    (fun _ => ⟨rfl, rfl, rfl⟩) m holds
  simp only [eventVt52Param]
  split
  · exact rules.call _ rfl m holds
  split
  · exact keeps_skip m holds
  · split
    · exact then_enter_keeps rules (vt52_dispatch_keeps rules) _ added.1
    · exact added

theorem event_dcs_entry_keeps : Keeps inv ok (eventDcsEntry ctx wch) := by
  refine keeps_else keeps_skip ?_
  refine keeps_else keeps_skip ?_
  refine keeps_else (enter_keeps rules) ?_
  refine keeps_else (then_enter_keeps rules (param_keeps rules)) ?_
  refine collect_else rules ?_
  exact rules.dcsDispatch wch

theorem event_dcs_intermediate_keeps : Keeps inv ok (eventDcsIntermediate ctx wch) := by
  refine keeps_else keeps_skip ?_
  refine keeps_else keeps_skip ?_
  refine keeps_ite (collect_keeps rules) (fun _ => ?_)
  exact keeps_else (enter_keeps rules) (rules.dcsDispatch wch)

theorem event_dcs_param_keeps : Keeps inv ok (eventDcsParam ctx wch) := by
  apply keeps_and_then
  · exact keeps_ite (fun _ => keeps_skip) (fun _ => keeps_ite (fun _ => keeps_skip) (fun _ => keeps_skip))
  · refine keeps_else (param_keeps rules) ?_
    refine collect_else rules ?_
    exact keeps_else (enter_keeps rules) (rules.dcsDispatch wch)

theorem event_keeps : Keeps inv ok (event ctx state wch) := by
  cases state with
  | ground => exact event_ground_keeps rules
  | escape => exact event_escape_keeps rules
  | escapeIntermediate => exact event_escape_intermediate_keeps rules
  | csiEntry => exact event_csi_entry_keeps rules
  | csiIntermediate => exact event_csi_intermediate_keeps rules
  | csiIgnore => exact event_csi_ignore_keeps rules
  | csiParam => exact event_csi_param_keeps rules
  | csiSubParam => exact event_csi_sub_param_keeps rules
  | oscParam => exact event_osc_param_keeps rules
  | oscString => exact event_osc_string_keeps rules
  | oscTermination => exact event_osc_termination_keeps rules
  | ss3Entry => exact event_ss3_entry_keeps rules
  | ss3Param => exact event_ss3_param_keeps rules
  | vt52Param => exact event_vt52_param_keeps rules
  | dcsEntry => exact event_dcs_entry_keeps rules
  | dcsIgnore => exact keeps_skip
  | dcsIntermediate => exact event_dcs_intermediate_keeps rules
  | dcsParam => exact event_dcs_param_keeps rules
  | dcsPassThrough => exact rules.passThrough wch
  | sosPmApcString => exact keeps_skip

theorem process_seven_bit_keeps : Keeps inv ok (processSevenBit ctx wch) := by
  intro m holds
  unfold processSevenBit
  split
  · exact good_and_then (interrupt_keeps rules m holds) (then_enter_keeps rules (rules.call _ rfl))
  · split
    · exact good_and_then (interrupt_keeps rules m holds) (clear_keeps rules)
    · exact event_keeps rules m holds

theorem process_character_keeps : Keeps inv ok (processCharacter ctx wch) := by
  intro m holds
  unfold processCharacter
  split
  · split
    · exact good_and_then (process_seven_bit_keeps rules m holds) (process_seven_bit_keeps rules)
    · exact keeps_skip m holds
  · exact process_seven_bit_keeps rules m holds

theorem flush_keeps : Keeps inv ok (flushInput ctx run) := by
  intro m holds
  unfold flushInput
  split
  · apply good_and_then (enter_keeps rules m holds)
    apply then_enter_keeps rules
    exact keeps_else (rules.call _ rfl) (rules.freshEscDispatch _)
  · exact keeps_skip m holds

end

theorem rules_keep_runs (inv : ParserState → Prop) (ok : Action → Prop) (engine : Engine Host) (isEngineForInput : Bool)
    (isa : Isa) (rules : ∀ callback, Keeps inv ok callback → EventRules inv ok ⟨engine, isEngineForInput, isa, callback⟩)
    (texts : List (List WChar)) : Keeps inv ok (processStrings (stateMachine engine isEngineForInput isa) texts) := by
  have anyRules : EventRules inv ok ⟨engine, isEngineForInput, isa, .skip⟩ := rules .skip keeps_skip
  refine keeps_state_machine (fun callback kept wch => process_character_keeps (rules callback kept)) ?_ ?_
  · exact fun callback string => anyRules.call (.printString string) rfl
  · exact fun callback run => flush_keeps anyRules

end

def CollectsOnly (parser : ParserState) : Prop := Collected parser.identifier

theorem replies_collect (parser : ParserState) (reply : Reply) (holds : CollectsOnly parser) :
    CollectsOnly (applyReply parser reply) := holds

theorem calls_collect (action : Action) (quiet : dispatchOf action = none) :
    Keeps CollectsOnly SoundAction (callEngine ctx action) := by
  intro m holds
  apply good_call_engine replies_collect holds
  intro kind id dispatched
  simp [quiet] at dispatched

theorem collects_rules (callback : Keeps CollectsOnly SoundAction ctx.callback) :
    EventRules CollectsOnly SoundAction ctx where
  call := calls_collect
  escDispatch := by
    intro wch nonzero m holds
    apply good_call_engine replies_collect holds
    rintro kind id ⟨⟩
    exact ⟨m.parser.identifier, wch, holds, rfl, fun zero => absurd zero nonzero⟩
  freshEscDispatch := by
    intro wch m _
    refine ⟨collected_clear, ?_⟩
    intro action member
    rw [mem_singleton.mp member]
    rintro kind id ⟨⟩
    exact ⟨.clear, wch, collected_clear, rfl, fun _ => .inr rfl⟩
  csiDispatch := by
    intro wch nonzero m holds
    apply good_call_engine replies_collect holds
    rintro kind id ⟨⟩
    exact ⟨m.parser.identifier, wch, holds, rfl, fun zero => absurd zero nonzero⟩
  dcsDispatch := by
    intro wch m holds
    refine ⟨?_, ?_⟩
    · simp only [actionDcsDispatch]
      split <;> exact holds
    · intro action member
      rw [mem_singleton.mp member]
      rintro kind id ⟨⟩
      exact ⟨m.parser.identifier, wch, holds, rfl, fun _ => .inl rfl⟩
  passThrough := by
    intro wch m holds
    unfold eventDcsPassThrough
    split
    · refine ⟨?_, ?_⟩
      · simp only
        split <;> exact holds
      · intro action member
        rw [mem_singleton.mp member]
        rintro kind id ⟨⟩
    · exact keeps_skip m holds
  complete := by
    intro m holds
    unfold executeCsiCompleteCallback
    split
    · exact callback _ holds
    · exact keeps_skip m holds
  clear := keeps_update (fun _ _ => collected_clear)
  collect := fun wch collectable => keeps_update (fun _ holds => collected_add holds collectable)
  same := fun change same => keeps_update (fun parser holds => by rwa [CollectsOnly, (same parser).identifier])

theorem every_dispatch_sound (engine : Engine Host) (isEngineForInput : Bool) (isa : Isa) (texts : List (List WChar))
    (m : Machine Host) (start : CollectsOnly m.parser) :
    ∀ action ∈ (processStrings (stateMachine engine isEngineForInput isa) texts m).2, SoundAction action := by
  have kept := rules_keep_runs CollectsOnly SoundAction engine isEngineForInput isa (fun _ kept => collects_rules kept) texts
  exact (kept m start).2

-- In every run every dispatched identifier names the sequence it was built from,
-- but for the sequences whose final is a code unit above U+00FF made of the
-- last two bytes of a code.
theorem dispatch_names_code_iff (engine : Engine Host) (isEngineForInput : Bool) (isa : Isa) (host : Host)
    (texts : List (List WChar)) (action : Action) (kind : SequenceKind) (id : VTID)
    (called : action ∈ (processStrings (stateMachine engine isEngineForInput isa) texts
      (initialMachine isEngineForInput host)).2)
    (dispatched : dispatchOf action = some (kind, id)) : NamesItsCode kind id ↔ ¬ WideFinalCompletesCode kind id := by
  have sound := every_dispatch_sound engine isEngineForInput isa texts (initialMachine isEngineForInput host)
    collected_clear action called
  exact sound_names_code_iff kind id (sound kind id dispatched)

theorem dispatch_names_soft_reset : NamesItsCode .csi ⟨0x7021, [0x21, 0x70]⟩ := by
  have named := dispatch_names_code_iff silentEngine.toEngine false .scalar () [[ESC, 0x5B, 0x21, 0x70]]
    (.csiDispatch ⟨0x7021, [0x21, 0x70]⟩ ⟨[], [], []⟩) .csi ⟨0x7021, [0x21, 0x70]⟩ (by decide) rfl
  apply named.mpr
  rintro ⟨collected, final, spelled, wide, _⟩
  have last : final = 0x70 := by
    have ends := congrArg List.getLast? spelled
    simpa using ends.symm
  subst last
  exact absurd wide (by decide)

-- CSI U+7021 is dispatched under the same identifier.
theorem wide_final_dispatched_as_soft_reset : ∃ id parameters,
      (processString silentContext [ESC, 0x5B, 0x7021] (initialMachine false ())).2 = [.csiDispatch id parameters] ∧
        id.value = fromString CsiActionCodes.DECSTR_SoftReset.code ∧ id.spelling ≠ CsiActionCodes.DECSTR_SoftReset.code :=
  ⟨⟨0x7021, [0x7021]⟩, ⟨[], [], []⟩, by decide, by decide, by decide⟩

end Cogterm.VirtualTerminal
