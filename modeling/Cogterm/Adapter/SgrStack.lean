import Cogterm.Adapter.GraphicsActions
import Cogterm.Library.Runs

namespace Cogterm.VirtualTerminal

open Buffer TextAttribute Library List

-- The valid parts are the options whose bits are set.
structure SavedSgrAttributes where
  textAttributes : TextAttribute := {}
  validParts : List Nat := []

structure SgrStack where
  nextPushIndex : Nat := 0
  numSavedAttrs : Nat := 0
  storedSgrAttributes : Nat → SavedSgrAttributes := fun _ => {}

namespace SgrStack

def parts (options : List VTParameter) : List Nat :=
  if options = [] then [0] else (options.map (·.getD 0)).filter (fun option => 0 < option ∧ option ≤ 31)

def push (stack : SgrStack) (currentAttributes : TextAttribute) (options : List VTParameter) : SgrStack where
  numSavedAttrs := if stack.numSavedAttrs < 10 then stack.numSavedAttrs + 1 else stack.numSavedAttrs
  storedSgrAttributes := Function.update stack.storedSgrAttributes stack.nextPushIndex ⟨currentAttributes, parts options⟩
  nextPushIndex := (stack.nextPushIndex + 1) % 10

def combineWithCurrentAttributes (currentAttributes savedAttribute : TextAttribute) (validParts : List Nat) : TextAttribute :=
  let result := if 1 ∈ validParts then currentAttributes.setIntense savedAttribute.attrs.intense else currentAttributes
  let result := if 2 ∈ validParts then result.setFaint savedAttribute.attrs.faint else result
  let result := if 3 ∈ validParts then result.setItalic savedAttribute.attrs.italics else result
  let savedUl := savedAttribute.attrs.underlineStyle
  let result :=
    if 4 ∈ validParts ∧ 21 ∈ validParts then result.setUnderlineStyle savedUl
    else if 4 ∈ validParts then
      if savedUl ≠ 0 ∧ savedUl ≠ 2 then result.setUnderlineStyle savedUl
      else if result.attrs.underlineStyle ≠ 2 then result.setUnderlineStyle 0
      else result
    else if 21 ∈ validParts then
      if savedUl = 2 then result.setUnderlineStyle 2
      else if result.attrs.underlineStyle = 2 then result.setUnderlineStyle 0
      else result
    else result
  let result := if 5 ∈ validParts then result.setBlinking savedAttribute.attrs.blinking else result
  let result := if 7 ∈ validParts then result.setReverseVideo savedAttribute.attrs.reverseVideo else result
  let result := if 8 ∈ validParts then result.setInvisible savedAttribute.attrs.invisible else result
  let result := if 9 ∈ validParts then result.setCrossedOut savedAttribute.attrs.crossedOut else result
  let result := if 30 ∈ validParts then result.setForeground savedAttribute.foreground else result
  if 31 ∈ validParts then result.setBackground savedAttribute.background else result

def pop (stack : SgrStack) (currentAttributes : TextAttribute) : TextAttribute × SgrStack :=
  if 0 < stack.numSavedAttrs then
    let index := if stack.nextPushIndex = 0 then 9 else stack.nextPushIndex - 1
    let restoreMe := stack.storedSgrAttributes index
    (if 0 ∈ restoreMe.validParts then restoreMe.textAttributes
      else combineWithCurrentAttributes currentAttributes restoreMe.textAttributes restoreMe.validParts,
      { stack with nextPushIndex := index, numSavedAttrs := stack.numSavedAttrs - 1 })
  else (currentAttributes, stack)

end SgrStack

structure SgrPush where
  attributes : TextAttribute
  options : List VTParameter

-- Option 21 stands for the double underline, option 4 for all other styles.
def restoredStyle (single double : Prop) [Decidable single] [Decidable double] (pushed current : Fin 8) : Fin 8 :=
  if single ∧ double then pushed
  else if single then if pushed ≠ 0 ∧ pushed ≠ 2 then pushed else if current ≠ 2 then 0 else current
  else if double then if pushed = 2 then 2 else if current = 2 then 0 else current
  else current

namespace SgrPush

def selected {α : Type} (push : SgrPush) (current : TextAttribute) (option : Nat) (field : TextAttribute → α) : α :=
  if some option ∈ push.options then field push.attributes else field current

def restored (push : SgrPush) (current : TextAttribute) : TextAttribute :=
  if push.options = [] then push.attributes
  else
    { current with
      attrs := { current.attrs with
        intense := push.selected current 1 (·.attrs.intense)
        faint := push.selected current 2 (·.attrs.faint)
        italics := push.selected current 3 (·.attrs.italics)
        underlineStyle := restoredStyle (some 4 ∈ push.options) (some 21 ∈ push.options) push.attributes.attrs.underlineStyle
          current.attrs.underlineStyle
        blinking := push.selected current 5 (·.attrs.blinking)
        reverseVideo := push.selected current 7 (·.attrs.reverseVideo)
        invisible := push.selected current 8 (·.attrs.invisible)
        crossedOut := push.selected current 9 (·.attrs.crossedOut) }
      foreground := push.selected current 30 (·.foreground)
      background := push.selected current 31 (·.background) }

end SgrPush

-- A push forgets what is deeper than the capacity.
def pushSgr (pushes : List SgrPush) (attributes : TextAttribute) (options : List VTParameter) : List SgrPush :=
  (⟨attributes, options⟩ :: pushes).take 10

def popSgr : List SgrPush → TextAttribute → TextAttribute × List SgrPush
  | [], current => (current, [])
  | push :: pushes, current => (push.restored current, pushes)

inductive SgrOperation where
  | push (attributes : TextAttribute) (options : List VTParameter)
  | pop (current : TextAttribute)

section

variable {Stack : Type} (push : Stack → TextAttribute → List VTParameter → Stack)
  (pop : Stack → TextAttribute → TextAttribute × Stack)

def sgrStep (state : Stack × List TextAttribute) : SgrOperation → Stack × List TextAttribute
  | .push attributes options => (push state.1 attributes options, state.2)
  | .pop current => ((pop state.1 current).2, state.2 ++ [(pop state.1 current).1])

end

section

variable {options : List VTParameter}

theorem mem_parts (given : options ≠ []) (valid : 0 < option ∧ option ≤ 31) :
    option ∈ SgrStack.parts options ↔ some option ∈ options := by
  rw [SgrStack.parts, if_neg given, mem_filter, mem_map]
  constructor
  · rintro ⟨⟨parameter, member, rfl⟩, _⟩
    cases parameter with
    | none => exact absurd valid.1 (by decide)
    | some value => exact member
  · exact fun member => ⟨⟨_, member, rfl⟩, decide_eq_true valid⟩

theorem set_part (given : options ≠ []) (option : Nat) (valid : 0 < option ∧ option ≤ 31)
    (set : TextAttribute → α → TextAttribute) (get : TextAttribute → α) (same : ∀ attr, set attr (get attr) = attr)
    (result : TextAttribute) (value : α) : (if option ∈ SgrStack.parts options then set result value else result) =
      set result (if some option ∈ options then value else get result) := by
  simp only [mem_parts given valid]
  split
  · rfl
  · exact (same result).symm

theorem set_style (single double : Prop) [Decidable single] [Decidable double] (result : TextAttribute) (saved : Fin 8) :
    (if single ∧ double then result.setUnderlineStyle saved else if single then
        if saved ≠ 0 ∧ saved ≠ 2 then result.setUnderlineStyle saved
        else if result.attrs.underlineStyle ≠ 2 then result.setUnderlineStyle 0 else result else if double then
        if saved = 2 then result.setUnderlineStyle 2 else if result.attrs.underlineStyle = 2 then result.setUnderlineStyle 0
        else result else result) = result.setUnderlineStyle (restoredStyle single double saved result.attrs.underlineStyle) := by
  have same : result = result.setUnderlineStyle result.attrs.underlineStyle := rfl
  unfold restoredStyle
  split_ifs
  · rfl
  · rfl
  · rfl
  · exact same
  · rfl
  · rfl
  · exact same
  · exact same

theorem combined_restores (given : options ≠ []) (current saved : TextAttribute) :
    SgrStack.combineWithCurrentAttributes current saved (SgrStack.parts options) =
    (SgrPush.mk saved options).restored current := by
  rw [SgrPush.restored, if_neg given, SgrStack.combineWithCurrentAttributes, set_style,
    set_part given 1 (by decide) setIntense (·.attrs.intense) (fun _ => rfl),
    set_part given 2 (by decide) setFaint (·.attrs.faint) (fun _ => rfl),
    set_part given 3 (by decide) setItalic (·.attrs.italics) (fun _ => rfl),
    set_part given 5 (by decide) setBlinking (·.attrs.blinking) (fun _ => rfl),
    set_part given 7 (by decide) setReverseVideo (·.attrs.reverseVideo) (fun _ => rfl),
    set_part given 8 (by decide) setInvisible (·.attrs.invisible) (fun _ => rfl),
    set_part given 9 (by decide) setCrossedOut (·.attrs.crossedOut) (fun _ => rfl),
    set_part given 30 (by decide) setForeground (·.foreground) (fun _ => rfl),
    set_part given 31 (by decide) setBackground (·.background) (fun _ => rfl)]
  simp only [mem_parts given (show 0 < 4 ∧ 4 ≤ 31 by decide), mem_parts given (show 0 < 21 ∧ 21 ≤ 31 by decide)]
  rfl

end

structure SgrStack.Holds (stack : SgrStack) (pushes : List SgrPush) : Prop where
  count : stack.numSavedAttrs = pushes.length
  short : pushes.length ≤ 10
  index : stack.nextPushIndex < 10
  slots : ∀ depth push, pushes[depth]? = some push →
    stack.storedSgrAttributes ((stack.nextPushIndex + 9 - depth) % 10) = ⟨push.attributes, parts push.options⟩

section

variable {stack : SgrStack} {pushes : List SgrPush}

theorem push_holds (holds : stack.Holds pushes) (attributes : TextAttribute) (options : List VTParameter) :
    (stack.push attributes options).Holds (pushSgr pushes attributes options) := by
  have count := holds.count
  have short := holds.short
  have index := holds.index
  have next : (stack.push attributes options).nextPushIndex = (stack.nextPushIndex + 1) % 10 := rfl
  refine ⟨?_, length_take_le .., Nat.mod_lt _ (by decide), fun depth other isOther => ?_⟩
  · simp only [SgrStack.push, pushSgr, length_take, length_cons]
    split <;> omega
  · rw [pushSgr, getElem?_take] at isOther
    split_ifs at isOther with inside
    cases depth with
    | zero =>
      cases isOther
      have isSlot : ((stack.nextPushIndex + 1) % 10 + 9 - 0) % 10 = stack.nextPushIndex := by omega
      rw [next, isSlot]
      exact Function.update_self ..
    | succ depth =>
      have isSlot : ((stack.nextPushIndex + 1) % 10 + 9 - (depth + 1)) % 10 = (stack.nextPushIndex + 9 - depth) % 10 := by omega
      have apart : (stack.nextPushIndex + 9 - depth) % 10 ≠ stack.nextPushIndex := by omega
      rw [next, isSlot]
      exact (Function.update_of_ne apart ..).trans (holds.slots depth other isOther)

theorem pop_holds (holds : stack.Holds pushes) (current : TextAttribute) :
    (stack.pop current).1 = (popSgr pushes current).1 ∧ (stack.pop current).2.Holds (popSgr pushes current).2 := by
  have count := holds.count
  cases pushes with
  | nil =>
    have popped : stack.pop current = (current, stack) := if_neg (by rw [count]; decide)
    rw [popped]
    exact ⟨rfl, holds⟩
  | cons push pushes =>
    have short := holds.short
    have index := holds.index
    rw [length_cons] at count short
    have below : (if stack.nextPushIndex = 0 then 9 else stack.nextPushIndex - 1) = (stack.nextPushIndex + 9) % 10 := by
      split <;> omega
    have top := holds.slots 0 push rfl
    rw [Nat.sub_zero] at top
    simp only [SgrStack.pop, if_pos (show 0 < stack.numSavedAttrs by omega), below, top]
    constructor
    · by_cases all : push.options = []
      · simp [popSgr, SgrPush.restored, SgrStack.parts, all]
      · rw [if_neg (by simp [SgrStack.parts, all])]
        exact combined_restores all current push.attributes
    · show SgrStack.Holds _ pushes
      refine ⟨?_, by omega, Nat.mod_lt _ (by decide), fun depth other isOther => ?_⟩
      · show stack.numSavedAttrs - 1 = pushes.length
        omega
      · have inside := (List.getElem?_eq_some_iff.mp isOther).1
        have isSlot : ((stack.nextPushIndex + 9) % 10 + 9 - depth) % 10 = (stack.nextPushIndex + 9 - (depth + 1)) % 10 := by omega
        have slot := holds.slots (depth + 1) other isOther
        rw [← isSlot] at slot
        exact slot

theorem empty_holds : SgrStack.Holds {} [] := ⟨rfl, Nat.zero_le _, by decide, fun _ _ isPush => by cases isPush⟩

end

def SgrAlike (first : SgrStack × List TextAttribute) (second : List SgrPush × List TextAttribute) : Prop :=
  first.1.Holds second.1 ∧ first.2 = second.2

theorem sgr_step_alike (first : SgrStack × List TextAttribute) (second : List SgrPush × List TextAttribute)
    (operation : SgrOperation) (alike : SgrAlike first second) :
    SgrAlike (sgrStep SgrStack.push SgrStack.pop first operation) (sgrStep pushSgr popSgr second operation) := by
  obtain ⟨holds, same⟩ := alike
  cases operation with
  | push attributes options => exact ⟨push_holds holds attributes options, same⟩
  | pop current =>
    obtain ⟨restored, rest⟩ := pop_holds holds current
    exact ⟨rest, by simp [sgrStep, restored, same]⟩

theorem sgr_stack_refines (operations : List SgrOperation) :
    (runs (sgrStep SgrStack.push SgrStack.pop) ({}, []) operations).2 =
    (runs (sgrStep pushSgr popSgr) ([], []) operations).2 := by
  have start : SgrAlike ({}, []) ([], []) := ⟨empty_holds, rfl⟩
  exact (runs_related _ sgr_step_alike operations start).2

structure Renditions (Stack : Type) where
  attributes : TextAttribute := {}
  savedAttributes : TextAttribute := {}
  sgrStack : Stack

-- A hyperlink that ends has the id 0.
inductive RenditionOperation where
  | setGraphicsRendition (options : VTParameters)
  | setCharacterProtectionAttribute (options : VTParameters)
  | hyperlink (id : Nat)
  | pushGraphicsRendition (options : List VTParameter)
  | popGraphicsRendition
  | cursorSaveState
  | cursorRestoreState
  | print (text : List WChar)

def protectionOption (attr : TextAttribute) (option : VTParameter × List VTParameter) : TextAttribute :=
  let setProtected := fun isProtected => { attr with attrs := { attr.attrs with isProtected := isProtected } }
  match option.1.getD 0 with
  | 0 => setProtected false
  | 1 => setProtected true
  | 2 => setProtected false
  | _ => attr

def setCharacterProtectionAttribute (options : VTParameters) (attr : TextAttribute) : TextAttribute :=
  options.fields.foldl protectionOption attr

namespace Renditions

section

variable {Stack : Type} (push : Stack → TextAttribute → List VTParameter → Stack)
  (pop : Stack → TextAttribute → TextAttribute × Stack)

def step (state : Renditions Stack) : RenditionOperation → Renditions Stack
  | .setGraphicsRendition options => { state with attributes := applyGraphicsOptions options.fields state.attributes }
  | .setCharacterProtectionAttribute options =>
    { state with attributes := setCharacterProtectionAttribute options state.attributes }
  | .hyperlink id => { state with attributes := state.attributes.setHyperlinkId id }
  | .pushGraphicsRendition options => { state with sgrStack := push state.sgrStack state.attributes options }
  | .popGraphicsRendition =>
    let popped := pop state.sgrStack state.attributes
    { state with attributes := popped.1, sgrStack := popped.2 }
  | .cursorSaveState => { state with savedAttributes := state.attributes }
  | .cursorRestoreState => { state with attributes := state.savedAttributes }
  | .print _ => state

end

-- What a soft reset, as part of the hard one, does to the attributes.
def hardReset {Stack : Type} (state : Renditions Stack) : Renditions Stack :=
  let attributes := applyGraphicsOptions (VTParameters.fields ⟨[], [], []⟩) state.attributes
  { state with attributes := setCharacterProtectionAttribute ⟨[], [], []⟩ attributes, savedAttributes := {} }

abbrev dispatch := step SgrStack.push SgrStack.pop

def Restores : RenditionOperation → Prop
  | .popGraphicsRendition | .cursorRestoreState | .print _ => True
  | _ => False

-- The attributes stay the default ones as long as nothing is pushed, saved or set.
def ResetClean (state : Renditions SgrStack) : Prop :=
  ∀ following : List RenditionOperation, (∀ operation ∈ following, Restores operation) →
    (runs dispatch state.hardReset following).attributes = {}

structure Unmarked (state : Renditions (List SgrPush)) : Prop where
  attributes : state.attributes.markKind = .none
  savedAttributes : state.savedAttributes.markKind = .none
  pushes : ∀ push ∈ state.sgrStack, push.attributes.markKind = .none

structure Alike (first : Renditions SgrStack) (second : Renditions (List SgrPush)) : Prop where
  attributes : first.attributes = second.attributes
  savedAttributes : first.savedAttributes = second.savedAttributes
  holds : first.sgrStack.Holds second.sgrStack
  unmarked : second.Unmarked

theorem protection_mark (options : List (VTParameter × List VTParameter)) (attr : TextAttribute) :
    (options.foldl protectionOption attr).markKind = attr.markKind := by
  induction options generalizing attr with
  | nil => rfl
  | cons option options ih =>
    rw [foldl_cons, ih, protectionOption]
    split <;> rfl

theorem restored_mark (push : SgrPush) (current : TextAttribute) :
    (push.restored current).markKind = push.attributes.markKind ∨ (push.restored current).markKind = current.markKind := by
  rw [SgrPush.restored]
  split
  · exact .inl rfl
  · exact .inr rfl

theorem step_unmarked (state : Renditions (List SgrPush)) (operation : RenditionOperation) (unmarked : state.Unmarked) :
    (step pushSgr popSgr state operation).Unmarked := by
  obtain ⟨attributes, savedAttributes, pushes⟩ := state
  obtain ⟨current, saved, all⟩ := unmarked
  cases operation with
  | setGraphicsRendition options => exact ⟨(options_action.markKind _).trans current, saved, all⟩
  | setCharacterProtectionAttribute options => exact ⟨(protection_mark _ _).trans current, saved, all⟩
  | hyperlink id => exact ⟨current, saved, all⟩
  | pushGraphicsRendition options =>
    exact ⟨current, saved, fun push member => by
      rcases mem_cons.mp (mem_of_mem_take member) with rfl | old
      · exact current
      · exact all push old⟩
  | popGraphicsRendition =>
    cases pushes with
    | nil => exact ⟨current, saved, all⟩
    | cons push pushes =>
      obtain ⟨top, others⟩ := forall_mem_cons.mp all
      rcases restored_mark push attributes with isTop | isCurrent
      · exact ⟨isTop.trans top, saved, others⟩
      · exact ⟨isCurrent.trans current, saved, others⟩
  | cursorSaveState => exact ⟨current, current, all⟩
  | cursorRestoreState => exact ⟨saved, saved, all⟩
  | print text => exact ⟨current, saved, all⟩

theorem step_alike (first : Renditions SgrStack) (second : Renditions (List SgrPush)) (operation : RenditionOperation)
    (alike : Alike first second) : Alike (dispatch first operation) (step pushSgr popSgr second operation) := by
  have unmarked := step_unmarked second operation alike.unmarked
  obtain ⟨attributes, savedAttributes, stack⟩ := first
  obtain ⟨rfl, rfl, holds, _⟩ := alike
  cases operation with
  | pushGraphicsRendition options => exact ⟨rfl, rfl, push_holds holds _ options, unmarked⟩
  | popGraphicsRendition =>
    obtain ⟨restored, rest⟩ := pop_holds holds second.attributes
    exact ⟨restored, rfl, rest, unmarked⟩
  | _ => exact ⟨rfl, rfl, holds, unmarked⟩

theorem reset_alike (alike : Alike first second) : Alike first.hardReset second.hardReset := by
  obtain ⟨attributes, _, holds, ⟨unmarked, _, pushes⟩⟩ := alike
  refine ⟨?_, rfl, holds, unmarked, rfl, pushes⟩
  rw [hardReset, attributes]
  rfl

theorem restoring_clean_iff (pushes : List SgrPush) (attributes : TextAttribute) :
    (∀ following : List RenditionOperation, (∀ operation ∈ following, Restores operation) →
        (runs (step pushSgr popSgr) ⟨attributes, {}, pushes⟩ following).attributes = {}) ↔
      attributes = {} ∧ ∀ push ∈ pushes, push.restored {} = {} := by
  constructor
  · intro clean
    have isDefault := clean [] (forall_mem_nil _)
    refine ⟨isDefault, ?_⟩
    induction pushes generalizing attributes with
    | nil => exact forall_mem_nil _
    | cons push pushes ih =>
      have popped (following : List RenditionOperation) (restores : ∀ operation ∈ following, Restores operation) :=
        clean (.popGraphicsRendition :: following) (forall_mem_cons.mpr ⟨trivial, restores⟩)
      have restored : push.restored attributes = {} := popped [] (forall_mem_nil _)
      exact forall_mem_cons.mpr ⟨isDefault ▸ restored, ih _ popped restored⟩
  · rintro ⟨isDefault, all⟩ following restores
    induction following generalizing pushes attributes with
    | nil => exact isDefault
    | cons operation following ih =>
      obtain ⟨restoring, others⟩ := forall_mem_cons.mp restores
      cases operation with
      | popGraphicsRendition =>
        cases pushes with
        | nil => exact ih [] attributes isDefault all others
        | cons push pushes =>
          obtain ⟨top, rest⟩ := forall_mem_cons.mp all
          exact ih pushes _ (isDefault ▸ top) rest others
      | cursorRestoreState => exact ih pushes {} rfl all others
      | print text => exact ih pushes attributes isDefault all others
      | _ => exact absurd restoring id

theorem hard_reset_clean_iff (operations : List RenditionOperation) : (runs dispatch ⟨{}, {}, {}⟩ operations).ResetClean ↔
      (runs (step pushSgr popSgr) ⟨{}, {}, []⟩ operations).attributes.hyperlinkId = 0 ∧
        ∀ push ∈ (runs (step pushSgr popSgr) ⟨{}, {}, []⟩ operations).sgrStack, push.restored {} = {} := by
  have start : Alike ⟨{}, {}, {}⟩ ⟨{}, {}, []⟩ := ⟨rfl, rfl, empty_holds, rfl, rfl, fun _ member => by cases member⟩
  have alike := runs_related dispatch step_alike operations start
  generalize runs dispatch ⟨{}, {}, {}⟩ operations = first at *
  generalize runs (step pushSgr popSgr) ⟨{}, {}, []⟩ operations = second at *
  have same (following : List RenditionOperation) :=
    (runs_related dispatch step_alike following (reset_alike alike)).attributes
  have reset : second.hardReset = ⟨{ hyperlinkId := second.attributes.hyperlinkId, markKind := second.attributes.markKind },
      {}, second.sgrStack⟩ := rfl
  rw [alike.unmarked.attributes] at reset
  simp only [ResetClean, same, reset, restoring_clean_iff]
  refine and_congr_left (fun _ => ⟨congrArg TextAttribute.hyperlinkId, fun unlinked => ?_⟩)
  rw [unlinked]

theorem open_link_survives_reset : ¬ (runs dispatch ⟨{}, {}, {}⟩ [.hyperlink 1]).ResetClean :=
  fun clean => absurd (congrArg TextAttribute.hyperlinkId (clean [] (forall_mem_nil _))) (by decide)

end Renditions

end Cogterm.VirtualTerminal
