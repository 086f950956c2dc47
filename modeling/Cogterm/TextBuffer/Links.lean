import Cogterm.Row.Frame
import Cogterm.Row.System
import Cogterm.TextBuffer.TextBuffer

namespace Cogterm.Buffer

open Library Til List Function Option TextBuffer
open Unicode (WChar)

variable {row : Row TextAttribute} {attributes : TextAttribute} {state : RowWriteState}

-- What holds of a row at every stage of a write holds of the row that is written.
structure WriteRule (attributes : TextAttribute) (scratch : Row TextAttribute) (Holds : Row TextAttribute → Prop) : Prop where
  outcome : ∀ (row : Row TextAttribute) (outcome : Row TextAttribute × Option RowWriteState), Holds row →
    row.Outcome outcome → Holds outcome.1
  replaced : ∀ (row : Row TextAttribute) first last attr, Holds row → row.attr.replaceValue 16 first last attributes =
    some attr → Holds { row with attr := attr }
  restored : ∀ (row : Row TextAttribute) first last sliceBegin sliceEnd attr, Holds row →
    row.attr.replaceRuns 16 first last (scratch.attr.slice 16 sliceBegin sliceEnd).runs = some attr →
    Holds { row with attr := attr }

section

variable (env : Environment) {Holds : Row TextAttribute → Prop} (rule : WriteRule attributes scratch Holds)

include rule

theorem row_replace_holds (holds : Holds row) (state : RowWriteState) : Holds (row.replace env attributes state).1 := by
  have written := rule.outcome _ _ holds (replace_text_outcome env row state)
  rw [Row.replace]
  split
  · exact written
  split
  · exact written
  · rename_i colored
    obtain ⟨attr, replaced, rfl⟩ := map_eq_some_iff.mp colored
    exact rule.replaced _ _ _ attr written replaced

theorem row_restore_holds (holds : Holds row) (state : RowWriteState) : Holds (row.restoreText env scratch state).1 := by
  have written := rule.outcome _ _ holds (replace_text_outcome env row
    ⟨scratch.getText state.columnBegin state.columnLimit, state.columnEnd, state.columnLimit, 0, 0, 0⟩)
  rw [Row.restoreText]
  split
  · exact written
  split
  · exact written
  rename_i colored
  rcases restore_attributes_cases colored with rfl | ⟨attr, _, _, _, _, rfl, replaced, _⟩
  · exact written
  · exact rule.restored _ _ _ _ _ attr written replaced

theorem row_insert_holds (holds : Holds row) (state : RowWriteState) : Holds (row.insert env scratch attributes state).1 := by
  have written := row_replace_holds env rule holds state
  rw [Row.insert]
  split
  · exact written
  · exact row_restore_holds env rule written _

end

section

variable (env : Environment) {P : TextAttribute → Prop} (blank : P default)

theorem reset_all_values (holds : P attr) : AllValues P (row.reset attr).attr.runs := by
  intro run member
  rw [mem_singleton.mp member]
  exact holds

include blank

theorem outcome_all_values (all : AllValues P row.attr.runs)
    (isOutcome : row.Outcome outcome) : AllValues P outcome.1.attr.runs := by
  rcases isOutcome with frame | failed
  · rw [frame.attr]
    exact all
  · rw [failed]
    exact reset_all_values blank

theorem write_rule_values (holds : P attributes) (scratchAll : AllValues P scratch.attr.runs) :
    WriteRule attributes scratch (fun row => AllValues P row.attr.runs) where
  outcome _ _ all isOutcome := outcome_all_values blank all isOutcome
  replaced _ _ _ _ all replaced := replace_value_all_values all holds replaced
  restored _ _ _ _ _ _ all replaced := replace_runs_all_values all (slice_all_values scratchAll) replaced

theorem copy_from_all_values (row source : Row TextAttribute) (sourceAll : AllValues P source.attr.runs) :
    AllValues P (row.copyFrom env (some source)).1.attr.runs := by
  rw [Row.copyFrom]
  simp only [getD_some]
  generalize ({ row with lineRendition := source.lineRendition, wrapForced := source.wrapForced } : Row TextAttribute) = framed
  have failed := (copy_text_ends env framed (some source) ⟨0, coordTypeMax, 0, source.getReadableColumnCount, 0, 0, 0, 0⟩).2
  generalize Row.copyTextFrom env framed _ _ = outcome at *
  rw [Row.copyAttributesFrom]
  cases copied : outcome.2 with
  | none =>
    rw [failed copied]
    exact reset_all_values blank
  | some _ =>
    cases resized : source.attr.resizeTrailingExtent 16 row.columnCount with
    | none => exact sourceAll
    | some attr => exact resize_all_values sourceAll resized

end

inductive LinkOperation where
  | addHyperlink (uri params : List WChar)
  | endHyperlink
  | write (insertMode : Bool) (y : Int) (state : RowWriteState)
  | incrementCircularBuffer (eraseColor : Bool)

namespace LinkOperation

variable (env : Environment) (hash : TextBuffer.UriHash)

def perform (buffer : TextBuffer) : LinkOperation → TextBuffer
  | .addHyperlink uri params => buffer.addHyperlink hash uri params
  | .endHyperlink => buffer.endHyperlink
  | .write insertMode y state =>
    if insertMode then (buffer.insert env y buffer.currentAttributes state).1
    else (buffer.replace env y buffer.currentAttributes state).1
  | .incrementCircularBuffer eraseColor => buffer.incrementCircularBuffer (buffer.getEraseAttributes eraseColor)

-- The link that is open is not the last use of an entry that goes.
def KeepsOpen (buffer : TextBuffer) : LinkOperation → Prop
  | .incrementCircularBuffer _ => ¬ buffer.Obsolete buffer.currentAttributes.hyperlinkId
  | _ => True

instance (buffer : TextBuffer) : (operation : LinkOperation) → Decidable (operation.KeepsOpen buffer)
  | .incrementCircularBuffer _ => inferInstanceAs (Decidable (¬ _))
  | .addHyperlink _ _ | .endHyperlink | .write _ _ _ => isTrue trivial

end LinkOperation

variable {buffer : TextBuffer}

theorem write_rows (env : Environment) (hash : TextBuffer.UriHash) (insertMode : Bool) (y : Int) (state : RowWriteState)
    (blank : P default) (holds : P buffer.currentAttributes) (all : AllValues P (buffer.getRow y).attr.runs) :
    ∃ row watermark scratchpad, AllValues P row.attr.runs ∧ (LinkOperation.write insertMode y state).perform env hash buffer =
        { buffer with
          commitWatermark := watermark
          rows := update buffer.rows (buffer.storageIndex y) row
          scratchpad := scratchpad } := by
  rw [LinkOperation.perform]
  cases insertMode with
  | false => exact ⟨_, _, _, row_replace_holds env (write_rule_values blank holds all) all state, rfl⟩
  | true =>
    have scratchAll := copy_from_all_values env blank (buffer.scratchpad.reset buffer.currentAttributes) (buffer.getRow y) all
    rw [if_pos rfl, TextBuffer.insert]
    generalize (buffer.scratchpad.reset buffer.currentAttributes).copyFrom env (some (buffer.getRow y)) = scratch at *
    cases scratch.2 with
    | none => exact ⟨buffer.getRow y, _, _, all, by rw [getRow, update_eq_self]; rfl⟩
    | some _ => exact ⟨_, _, _, row_insert_holds env (write_rule_values blank holds scratchAll) all state, rfl⟩

def TextBuffer.Resolves (buffer : TextBuffer) (attr : TextAttribute) : Prop :=
  attr.hyperlinkId ≠ 0 → (buffer.getHyperlinkUriFromId attr.hyperlinkId).isSome

structure TextBuffer.LinksResolve (buffer : TextBuffer) : Prop where
  cells : ∀ y column attr, (buffer.getRow y).attr.atPosition 16 column = some attr → buffer.Resolves attr
  current : buffer.Resolves buffer.currentAttributes

structure Linked (buffer : TextBuffer) : Prop where
  height : 0 < buffer.height
  rows : ∀ index < buffer.height, AllValues buffer.Resolves (buffer.rows index).attr.runs
  current : buffer.Resolves buffer.currentAttributes

theorem storage_index_lt (buffer : TextBuffer) (height : 0 < buffer.height) (y : Int) :
    buffer.storageIndex y < buffer.height := by
  have positive : (0 : Int) < buffer.height := by omega
  have high := Int.emod_lt_of_pos (buffer.firstRow + y) positive
  rw [storageIndex]
  omega

theorem linked_resolves (linked : Linked buffer) : buffer.LinksResolve := by
  refine ⟨fun y column attr isAttr => ?_, linked.current⟩
  obtain ⟨run, isRun, isValue⟩ := map_eq_some_iff.mp isAttr
  rw [← isValue]
  exact linked.rows _ (storage_index_lt buffer linked.height y) run (mem_of_getElem? isRun)

theorem erase_attributes_plain (eraseColor : Bool) (buffer : TextBuffer) :
    (buffer.getEraseAttributes eraseColor).hyperlinkId = 0 := by
  cases eraseColor <;> rfl

theorem other_rows (inside : index < buffer.height) (other : index ≠ buffer.storageIndex 0) :
    ∃ y < buffer.height - 1, buffer.storageIndex (1 + (y : Nat)) = index := by
  obtain ⟨y, small, isIndex⟩ := storage_index_onto inside
  cases y with
  | zero => exact absurd isIndex.symm other
  | succ y =>
    refine ⟨y, by omega, ?_⟩
    rw [← isIndex, Int.add_comm]
    rfl

theorem referenced_not_obsolete (inside : index < buffer.height) (other : index ≠ buffer.storageIndex 0) {id : Nat}
    (member : id ∈ (buffer.rows index).getHyperlinks) : ¬ buffer.Obsolete id := by
  obtain ⟨y, small, isIndex⟩ := other_rows inside other
  rintro ⟨_, absent⟩
  have missing := absent y small
  rw [getRow, isIndex] at missing
  exact missing member

structure Incremented (buffer next : TextBuffer) (fill : TextAttribute) : Prop where
  height : next.height = buffer.height
  rows : next.rows = update buffer.rows (buffer.storageIndex 0) ((buffer.getRow 0).reset fill)
  currentAttributes : next.currentAttributes = buffer.currentAttributes
  hyperlinkMap : ∀ id, next.hyperlinkMap id = if buffer.Obsolete id then none else buffer.hyperlinkMap id

theorem increment_spec (buffer : TextBuffer) (fill : TextAttribute) :
    Incremented buffer (buffer.incrementCircularBuffer fill) fill := by
  obtain ⟨⟨watermark, map, ids, frame⟩, pruned⟩ := prune_hyperlinks_spec buffer
  refine ⟨?_, ?_, ?_, pruned⟩ <;>
  · rw [incrementCircularBuffer, frame]
    rfl

section

variable (env : Environment) (hash : TextBuffer.UriHash)

theorem linked_construct {width height : Nat} (plain : attributes.hyperlinkId = 0) :
    Linked (TextBuffer.construct width height attributes) := by
  have resolves : (TextBuffer.construct width height attributes).Resolves attributes := fun linked => absurd plain linked
  refine ⟨Nat.lt_of_lt_of_le Nat.zero_lt_one (Nat.le_max_right height 1), fun index _ => ?_, resolves⟩
  intro run member
  rw [mem_singleton.mp member]
  exact resolves

theorem get_hyperlink_id_frame (buffer : TextBuffer) (uri params : List WChar) :
    ∃ ids current, (getHyperlinkId hash buffer uri params).1 =
      { buffer with hyperlinkCustomIdMap := ids, currentHyperlinkId := current } := by
  rw [getHyperlinkId]
  split
  · exact ⟨_, _, rfl⟩
  · split
    · exact ⟨_, _, rfl⟩
    · exact ⟨_, _, rfl⟩

theorem add_hyperlink_linked (linked : Linked buffer) : Linked (buffer.addHyperlink hash uri params) := by
  obtain ⟨ids, current, frame⟩ := get_hyperlink_id_frame hash buffer uri params
  have map : (buffer.addHyperlink hash uri params).hyperlinkMap =
      update buffer.hyperlinkMap (getHyperlinkId hash buffer uri params).2 (some uri) := by
    rw [addHyperlink, addHyperlinkToMap, frame]
  have resolves : ∀ attr, buffer.Resolves attr → (buffer.addHyperlink hash uri params).Resolves attr := by
    intro attr old isLink
    rw [getHyperlinkUriFromId, map]
    by_cases same : attr.hyperlinkId = (getHyperlinkId hash buffer uri params).2
    · simp [same]
    · rw [update_of_ne same]
      exact old isLink
  refine ⟨?_, fun index inside run member => resolves _ ?_, fun _ => ?_⟩
  · rw [addHyperlink, frame]
    exact linked.height
  · rw [addHyperlink, frame] at inside member
    exact linked.rows index inside run member
  · rw [getHyperlinkUriFromId, addHyperlink]
    simp only [addHyperlinkToMap, TextAttribute.setHyperlinkId, update_self]
    rfl

theorem write_linked (linked : Linked buffer) : Linked ((LinkOperation.write insertMode y state).perform env hash buffer) := by
  have blank : buffer.Resolves default := fun none => absurd rfl none
  obtain ⟨row, watermark, scratchpad, all, written⟩ := write_rows env hash insertMode y state blank
    linked.current (linked.rows _ (storage_index_lt buffer linked.height y))
  rw [written]
  refine ⟨linked.height, fun index inside => ?_, linked.current⟩
  by_cases same : index = buffer.storageIndex y
  · simp only [same, update_self]
    exact all
  · simp only [update_of_ne same]
    exact linked.rows index inside

theorem increment_linked (linked : Linked buffer) (plain : fill.hyperlinkId = 0)
    (needed : ¬ buffer.Obsolete buffer.currentAttributes.hyperlinkId) : Linked (buffer.incrementCircularBuffer fill) := by
  obtain ⟨height, rows, currentAttributes, hyperlinkMap⟩ := increment_spec buffer fill
  have resolves : ∀ attr, ¬ buffer.Obsolete attr.hyperlinkId → buffer.Resolves attr →
      (buffer.incrementCircularBuffer fill).Resolves attr := by
    intro attr needed old isLink
    rw [getHyperlinkUriFromId, hyperlinkMap, if_neg needed]
    exact old isLink
  refine ⟨?_, fun index inside => ?_, ?_⟩
  · rw [height]
    exact linked.height
  · rw [height] at inside
    rw [rows]
    by_cases same : index = buffer.storageIndex 0
    · simpa [same] using reset_all_values (fun isLink => absurd plain isLink)
    rw [update_of_ne same]
    intro run member isLink
    exact resolves run.value (referenced_not_obsolete inside same
      ((mem_get_hyperlinks _ _).mpr ⟨isLink, run, member, rfl⟩)) (linked.rows index inside run member) isLink
  · rw [currentAttributes]
    exact resolves _ needed linked.current

variable {operation : LinkOperation}

theorem operation_linked (linked : Linked buffer) (keeps : operation.KeepsOpen buffer) :
    Linked (operation.perform env hash buffer) := by
  cases operation with
  | addHyperlink uri params => exact add_hyperlink_linked hash linked
  | endHyperlink => exact ⟨linked.height, linked.rows, fun isLink => absurd rfl isLink⟩
  | write insertMode y state => exact write_linked env hash linked
  | incrementCircularBuffer eraseColor =>
    exact increment_linked linked (erase_attributes_plain eraseColor buffer) keeps

theorem operation_resolves_keeps (resolves : (operation.perform env hash buffer).LinksResolve) : operation.KeepsOpen buffer := by
  cases operation with
  | addHyperlink uri params => trivial
  | endHyperlink => trivial
  | write insertMode y state => trivial
  | incrementCircularBuffer eraseColor =>
    intro obsolete
    obtain ⟨_, _, currentAttributes, hyperlinkMap⟩ := increment_spec buffer (buffer.getEraseAttributes eraseColor)
    have resolved := resolves.current
    rw [LinkOperation.perform, currentAttributes] at resolved
    have entry := resolved ((mem_get_hyperlinks _ _).mp obsolete.1).1
    rw [getHyperlinkUriFromId, hyperlinkMap, if_pos obsolete] at entry
    cases entry

end

namespace LinkOperation

variable (env : Environment) (hash : TextBuffer.UriHash)

def run (buffer : TextBuffer) (operations : List LinkOperation) : TextBuffer := operations.foldl (perform env hash) buffer

def AlwaysResolves : TextBuffer → List LinkOperation → Prop
  | buffer, [] => buffer.LinksResolve
  | buffer, operation :: rest => buffer.LinksResolve ∧ AlwaysResolves (operation.perform env hash buffer) rest

def AllKeepOpen : TextBuffer → List LinkOperation → Prop
  | _, [] => True
  | buffer, operation :: rest => operation.KeepsOpen buffer ∧ AllKeepOpen (operation.perform env hash buffer) rest

instance decidableAllKeepOpen : (buffer : TextBuffer) → (operations : List LinkOperation) →
    Decidable (AllKeepOpen env hash buffer operations)
  | _, [] => isTrue trivial
  | buffer, operation :: rest =>
    have := decidableAllKeepOpen (operation.perform env hash buffer) rest
    inferInstanceAs (Decidable (operation.KeepsOpen buffer ∧ _))

end LinkOperation

theorem run_resolves_iff {hash : TextBuffer.UriHash} (buffer : TextBuffer) (linked : Linked buffer)
    {operations : List LinkOperation} :
    LinkOperation.AlwaysResolves env hash buffer operations ↔ LinkOperation.AllKeepOpen env hash buffer operations := by
  induction operations generalizing buffer with
  | nil => exact iff_of_true (linked_resolves linked) trivial
  | cons operation rest ih =>
    constructor
    · rintro ⟨_, resolves⟩
      have next : (operation.perform env hash buffer).LinksResolve := by
        cases rest with
        | nil => exact resolves
        | cons _ _ => exact resolves.1
      have keeps := operation_resolves_keeps env hash next
      exact ⟨keeps, (ih _ (operation_linked env hash linked keeps)).mp resolves⟩
    · rintro ⟨keeps, later⟩
      exact ⟨linked_resolves linked, (ih _ (operation_linked env hash linked keeps)).mpr later⟩

theorem hyperlinks_resolve_iff (env : Environment) (hash : TextBuffer.UriHash) (width height : Nat) (attributes : TextAttribute)
    (plain : attributes.hyperlinkId = 0) (operations : List LinkOperation) :
    LinkOperation.AlwaysResolves env hash (TextBuffer.construct width height attributes) operations ↔
      LinkOperation.AllKeepOpen env hash (TextBuffer.construct width height attributes) operations :=
  run_resolves_iff _ (linked_construct plain)

theorem hyperlinks_resolve_two_rows : LinkOperation.AlwaysResolves graphemeEnvironment id (TextBuffer.construct 2 2 {})
      [.addHyperlink [0x75] [], .write false 0 ⟨[0x61], 0, 2, 0, 0, 0⟩, .write true 1 ⟨[0x62], 0, 2, 0, 0, 0⟩,
        .incrementCircularBuffer false, .write false 1 ⟨[0x63], 0, 2, 0, 0, 0⟩, .endHyperlink,
        .incrementCircularBuffer true] :=
  (hyperlinks_resolve_iff graphemeEnvironment id 2 2 {} rfl _).mpr (by decide +kernel)

theorem hyperlink_lost_in_one_row : ¬ LinkOperation.AlwaysResolves graphemeEnvironment id (TextBuffer.construct 2 1 {})
      [.addHyperlink [0x75] [], .write false 0 ⟨[0x61], 0, 2, 0, 0, 0⟩, .incrementCircularBuffer false,
        .write false 0 ⟨[0x61], 0, 2, 0, 0, 0⟩] := by
  rintro ⟨_, _, _, _, resolves⟩
  exact absurd (resolves.cells 0 0 { hyperlinkId := 1 } (by decide +kernel) (by decide)) (by decide +kernel)

end Cogterm.Buffer
