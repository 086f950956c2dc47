import Cogterm.Adapter.Pages
import Cogterm.TextBuffer.LinkUris
import Cogterm.Library.Runs

namespace Cogterm.VirtualTerminal

open Buffer Function

section

variable (env : Environment)

def copyRow (source : TextBuffer) (srcRowIndex dstRowIndex : Int) (target : TextBuffer) : TextBuffer × Option Unit :=
  let copied := (target.getRow dstRowIndex).copyFrom env (some (source.getRow srcRowIndex))
  (target.setRow dstRowIndex copied.1, copied.2)

def copyTracedRow (source : TracedBuffer) (srcRowIndex dstRowIndex : Int) (target : TracedBuffer) : TracedBuffer × Option Unit :=
  let copied := copyRow env source.buffer srcRowIndex dstRowIndex target.buffer
  let index := target.buffer.storageIndex dstRowIndex
  let links := (source.written (source.buffer.storageIndex srcRowIndex)).filter
    (fun link => (copied.1.rows index).getHyperlinks.contains link.1)
  (⟨copied.1, target.openUri, update target.written index links⟩, copied.2)

def copyRows (source : TracedBuffer) (sourceTop targetTop : Int) : Nat → TracedBuffer → TracedBuffer × Option Unit
  | 0, target => (target, some ())
  | count + 1, target =>
    let copied := copyRows source sourceTop targetTop count target
    match copied.2 with
    | none => (copied.1, none)
    | some _ => copyTracedRow env source (sourceTop + count) (targetTop + count) copied.1

end

def carryCurrent (old new : TracedBuffer) (oldTop newTop : Int) : TracedBuffer :=
  { new with
    buffer :=
      { new.buffer with
        currentAttributes := old.buffer.currentAttributes
        cursor := ⟨⟨old.buffer.cursor.position.x, old.buffer.cursor.position.y - oldTop + newTop⟩, none⟩ }
    openUri := old.openUri }

-- What MoveTo asks of the buffers. Copying the rows may throw.
structure BufferCalls (Buffer : Type) where
  copyRows : Buffer → Int → Int → Nat → Buffer → Buffer × Option Unit
  carryCurrent : Buffer → Buffer → Int → Int → Buffer

def tracedCalls (env : Environment) : BufferCalls TracedBuffer := ⟨copyRows env, carryCurrent⟩

-- The buffers of the pages are all there from the beginning, although they are
-- created when they are needed. The size of a page does not change.
structure PageManager (Buffer : Type) where
  isMainBuffer : Bool
  visibleBuffer : Buffer
  visibleTop : Int
  pageHeight : Nat
  buffers : Int → Buffer
  activePageNumber : Int
  visiblePageNumber : Int

namespace PageManager

def construct (isMainBuffer : Bool) (width height : Nat) (attributes : TextAttribute) (visibleTop pageWidth pageHeight : Nat) :
    PageManager TracedBuffer :=
  ⟨isMainBuffer, .construct width height attributes, visibleTop, pageHeight, fun _ => .construct pageWidth pageHeight {},
    1, 1⟩

def clampPage (pageNumber : Int) : Int := min (max pageNumber 1) maxPages

variable {Buffer : Type} (manager : PageManager Buffer)

def bufferOf (pageNumber : Int) : Buffer :=
  if !manager.isMainBuffer ∨ clampPage pageNumber = manager.visiblePageNumber then manager.visibleBuffer
  else manager.buffers (clampPage pageNumber)

def topOf (pageNumber : Int) : Int :=
  if !manager.isMainBuffer ∨ clampPage pageNumber = manager.visiblePageNumber then manager.visibleTop else 0

def modifyActive (change : Buffer → Buffer) : PageManager Buffer :=
  if !manager.isMainBuffer ∨ clampPage manager.activePageNumber = manager.visiblePageNumber then
    { manager with visibleBuffer := change manager.visibleBuffer }
  else
    let number := clampPage manager.activePageNumber
    { manager with buffers := update manager.buffers number (change (manager.buffers number)) }

variable (calls : BufferCalls Buffer)

-- The visible page goes to its own buffer, and the new page comes from there.
def swapPages (newPageNumber : Int) : PageManager Buffer × Option Unit :=
  let saved := calls.copyRows manager.visibleBuffer manager.visibleTop 0 manager.pageHeight
    (manager.buffers manager.visiblePageNumber)
  let buffers := update manager.buffers manager.visiblePageNumber saved.1
  match saved.2 with
  | none => ({ manager with buffers := buffers }, none)
  | some _ =>
    let shown := calls.copyRows (manager.buffers newPageNumber) 0 manager.visibleTop manager.pageHeight manager.visibleBuffer
    match shown.2 with
    | none => ({ manager with buffers := buffers, visibleBuffer := shown.1 }, none)
    | some _ =>
      ({ manager with buffers := buffers, visibleBuffer := shown.1, visiblePageNumber := newPageNumber }, some ())

def moveCurrent (wasVisible : Bool) (newPageNumber : Int) : PageManager Buffer :=
  let number := manager.activePageNumber
  if newPageNumber = manager.visiblePageNumber then
    if wasVisible then manager
    else { manager with visibleBuffer := calls.carryCurrent (manager.buffers number) manager.visibleBuffer 0 manager.visibleTop }
  else if wasVisible then
    { manager with
      buffers := update manager.buffers newPageNumber
        (calls.carryCurrent manager.visibleBuffer (manager.buffers newPageNumber) manager.visibleTop 0) }
  else if number = newPageNumber then manager
  else
    { manager with
      buffers := update manager.buffers newPageNumber
        (calls.carryCurrent (manager.buffers number) (manager.buffers newPageNumber) 0 0) }

def moveTo (pageNumber : Int) (makeVisible : Bool) : PageManager Buffer :=
  if !manager.isMainBuffer then manager
  else
    let wasVisible := decide (manager.activePageNumber = manager.visiblePageNumber)
    let newPageNumber := clampPage pageNumber
    let swapped := if makeVisible ∧ manager.visiblePageNumber ≠ newPageNumber then manager.swapPages calls newPageNumber
      else (manager, some ())
    match swapped.2 with
    | none => swapped.1
    | some _ => { swapped.1.moveCurrent calls wasVisible newPageNumber with activePageNumber := newPageNumber }

end PageManager

inductive PageOperation where
  | moveTo (pageNumber : Int) (makeVisible : Bool)
  | addHyperlink (uri params : List WChar)
  | endHyperlink
  | write (insertMode : Bool) (y : Nat) (state : RowWriteState)

namespace PageOperation

variable (env : Environment) (hash : TextBuffer.UriHash)

def perform (manager : PageManager TracedBuffer) : PageOperation → PageManager TracedBuffer
  | .moveTo pageNumber makeVisible => manager.moveTo (tracedCalls env) pageNumber makeVisible
  | .addHyperlink uri params => manager.modifyActive (fun traced => traced.perform env hash (.addHyperlink uri params))
  | .endHyperlink => manager.modifyActive (fun traced => traced.perform env hash .endHyperlink)
  | .write insertMode y state =>
    manager.modifyActive (fun traced =>
      traced.perform env hash (.write insertMode (manager.topOf manager.activePageNumber + y) state))

def SameInRows (source target : TextBuffer) (top : Int) (height : Nat) : Prop :=
  ∀ y < height, ∀ id ∈ (source.getRow (top + y)).getHyperlinks, target.hyperlinkMap id = source.hyperlinkMap id

def SameOpen (source target : TextBuffer) : Prop :=
  source.currentAttributes.hyperlinkId ≠ 0 →
    target.hyperlinkMap source.currentAttributes.hyperlinkId = source.hyperlinkMap source.currentAttributes.hyperlinkId

-- No id changes its meaning when its page or the cursor goes to another buffer,
-- and none is given to a second URI.
def KeepsLinks (manager : PageManager TracedBuffer) : PageOperation → Prop
  | .moveTo pageNumber makeVisible => manager.isMainBuffer = true →
    let newPageNumber := PageManager.clampPage pageNumber
    let shown := makeVisible = true ∨ newPageNumber = manager.visiblePageNumber
    (makeVisible = true → manager.visiblePageNumber ≠ newPageNumber →
      SameInRows manager.visibleBuffer.buffer (manager.buffers manager.visiblePageNumber).buffer manager.visibleTop
      manager.pageHeight ∧
        SameInRows (manager.buffers newPageNumber).buffer manager.visibleBuffer.buffer 0 manager.pageHeight) ∧
      SameOpen (manager.bufferOf manager.activePageNumber).buffer
        (if shown then manager.visibleBuffer else manager.buffers newPageNumber).buffer
  | .addHyperlink uri params =>
    TracedBuffer.Unshared hash (manager.bufferOf manager.activePageNumber).buffer (.addHyperlink uri params)
  | _ => True

instance (source target : TextBuffer) (top : Int) (height : Nat) : Decidable (SameInRows source target top height) :=
  inferInstanceAs (Decidable (∀ y < height, ∀ id ∈ (source.getRow (top + y)).getHyperlinks, _ = _))

instance (source target : TextBuffer) : Decidable (SameOpen source target) := inferInstanceAs (Decidable (_ ≠ 0 → _ = _))

instance (manager : PageManager TracedBuffer) : (operation : PageOperation) → Decidable (operation.KeepsLinks hash manager)
  | .moveTo _ _ => inferInstanceAs (Decidable (_ → (_ → _ → _ ∧ _) ∧ _))
  | .addHyperlink uri params =>
    inferInstanceAs (Decidable (TracedBuffer.Unshared hash (manager.bufferOf manager.activePageNumber).buffer
      (.addHyperlink uri params)))
  | .endHyperlink | .write _ _ _ => isTrue trivial

end PageOperation

-- Every cell with a link was written under a URI, and it is this one that the
-- buffer of the page gives for it.
def PageManager.LinksAgree (manager : PageManager TracedBuffer) : Prop :=
  ∀ pageNumber : Int, ∀ y < manager.pageHeight, ∀ column attr,
    ((manager.bufferOf pageNumber).buffer.getRow (manager.topOf pageNumber + y)).attr.atPosition 16 column = some attr →
    attr.hyperlinkId ≠ 0 → (∃ uri, (attr.hyperlinkId, uri) ∈ (manager.bufferOf pageNumber).written
        ((manager.bufferOf pageNumber).buffer.storageIndex (manager.topOf pageNumber + y))) ∧
      ∀ uri, (attr.hyperlinkId, uri) ∈ (manager.bufferOf pageNumber).written
        ((manager.bufferOf pageNumber).buffer.storageIndex (manager.topOf pageNumber + y)) →
        (manager.bufferOf pageNumber).buffer.getHyperlinkUriFromId attr.hyperlinkId = some uri

open Library List PageManager

theorem clamp_page_again (pageNumber : Int) : clampPage (clampPage pageNumber) = clampPage pageNumber := by
  simp only [clampPage]
  omega

section

variable (env : Environment)

theorem copy_row_traced (source target : TracedBuffer) (tracedSource : Traced source) (tracedTarget : Traced target)
    (srcRowIndex dstRowIndex : Int)
    (same : ∀ id ∈ (source.buffer.getRow srcRowIndex).getHyperlinks, target.buffer.hyperlinkMap id =
      source.buffer.hyperlinkMap id) :
    Traced (copyTracedRow env source srcRowIndex dstRowIndex target).1 := by
  have inside := storage_index_lt source.buffer tracedSource.height srcRowIndex
  have all := copy_from_all_values (P := fun attr => attr.hyperlinkId ≠ 0 →
    attr.hyperlinkId ∈ (source.buffer.getRow srcRowIndex).getHyperlinks) env (fun none => absurd rfl none)
    (target.buffer.getRow dstRowIndex) (source.buffer.getRow srcRowIndex)
    (fun run member isLink => (mem_get_hyperlinks _ _).mpr ⟨isLink, run, member, rfl⟩)
  simp only [copyTracedRow, copyRow, TextBuffer.setRow]
  generalize ((target.buffer.getRow dstRowIndex).copyFrom env (some (source.buffer.getRow srcRowIndex))).1 = row at *
  have stored : ∀ id ∈ row.getHyperlinks, id ∈ (source.buffer.getRow srcRowIndex).getHyperlinks := by
    intro id member
    obtain ⟨isLink, run, isRun, isId⟩ := (mem_get_hyperlinks _ _).mp member
    rw [← isId]
    exact all run isRun (isId ▸ isLink)
  refine ⟨tracedTarget.height, fun index bound id member => ?_, fun index bound link member => ?_, tracedTarget.current⟩
  · by_cases here : index = target.buffer.storageIndex dstRowIndex
    · simp only [here, update_self] at member ⊢
      obtain ⟨uri, link⟩ := tracedSource.recorded _ inside id (stored id member)
      exact ⟨uri, mem_filter.mpr ⟨link, contains_iff_mem.mpr member⟩⟩
    · simp only [update_of_ne here] at member ⊢
      exact tracedTarget.recorded index bound id member
  · by_cases here : index = target.buffer.storageIndex dstRowIndex
    · simp only [here, update_self] at member ⊢
      obtain ⟨known, referenced⟩ := mem_filter.mp member
      have referenced := contains_iff_mem.mp referenced
      exact ⟨referenced, (same _ (stored _ referenced)).trans (tracedSource.agrees _ inside link known).2⟩
    · simp only [update_of_ne here] at member ⊢
      exact tracedTarget.agrees index bound link member

theorem copy_rows_frame (source target : TracedBuffer) (sourceTop targetTop : Int) (count : Nat) :
    (copyRows env source sourceTop targetTop count target).1.buffer.hyperlinkMap = target.buffer.hyperlinkMap ∧
      (copyRows env source sourceTop targetTop count target).1.buffer.currentAttributes = target.buffer.currentAttributes := by
  induction count with
  | zero => exact ⟨rfl, rfl⟩
  | succ count ih =>
    rw [copyRows]
    cases (copyRows env source sourceTop targetTop count target).2 with
    | none => exact ih
    | some _ => exact ih

theorem copy_rows_traced (tracedSource : Traced source) (tracedTarget : Traced target)
    {sourceTop : Int} (targetTop : Int) {count : Nat}
    (same : PageOperation.SameInRows source.buffer target.buffer sourceTop count) :
    Traced (copyRows env source sourceTop targetTop count target).1 := by
  induction count with
  | zero => exact tracedTarget
  | succ count ih =>
    have before := ih (fun y inside => same y (Nat.lt_succ_of_lt inside))
    have map := (copy_rows_frame env source target sourceTop targetTop count).1
    rw [copyRows]
    cases (copyRows env source sourceTop targetTop count target).2 with
    | none => exact before
    | some _ =>
      refine copy_row_traced env source _ tracedSource before _ _ (fun id member => ?_)
      rw [map]
      exact same count (Nat.lt_succ_self count) id member

end

structure AllTraced (manager : PageManager TracedBuffer) : Prop where
  visible : Traced manager.visibleBuffer
  background : ∀ number, Traced (manager.buffers number)
  active : clampPage manager.activePageNumber = manager.activePageNumber

section

variable (env : Environment) {hash : TextBuffer.UriHash} (manager : PageManager TracedBuffer) (traced : AllTraced manager)

include traced

theorem all_traced_update (number : Int) (isTraced : Traced buffer) :
    ∀ other, Traced (update manager.buffers number buffer other) := by
  intro other
  by_cases same : other = number
  · simpa [same] using isTraced
  · rw [update_of_ne same]
    exact traced.background other

omit traced in
theorem carry_current_traced (tracedOld : Traced old) (tracedNew : Traced new)
    (same : PageOperation.SameOpen old.buffer new.buffer) : Traced (carryCurrent old new oldTop newTop) := by
  refine { tracedNew with current := fun isLink => ?_ }
  exact (same isLink).trans (tracedOld.current isLink)

theorem swap_pages_traced
    (saves : PageOperation.SameInRows manager.visibleBuffer.buffer (manager.buffers manager.visiblePageNumber).buffer
      manager.visibleTop manager.pageHeight)
    (shows : PageOperation.SameInRows (manager.buffers newPageNumber).buffer manager.visibleBuffer.buffer 0 manager.pageHeight) :
    AllTraced (manager.swapPages (tracedCalls env) newPageNumber).1 := by
  have saved := all_traced_update manager traced manager.visiblePageNumber
    (copy_rows_traced env traced.visible (traced.background _) 0 saves)
  have shown := copy_rows_traced env (traced.background _) traced.visible manager.visibleTop shows
  simp only [swapPages, tracedCalls]
  generalize copyRows env manager.visibleBuffer manager.visibleTop 0 manager.pageHeight
    (manager.buffers manager.visiblePageNumber) = first at *
  generalize copyRows env (manager.buffers newPageNumber) 0 manager.visibleTop manager.pageHeight manager.visibleBuffer =
    second at *
  cases first.2 with
  | none => exact ⟨traced.visible, saved, traced.active⟩
  | some _ =>
    cases second.2 with
    | none => exact ⟨shown, saved, traced.active⟩
    | some _ => exact ⟨shown, saved, traced.active⟩

structure SameEntries (first second : TextBuffer) : Prop where
  map : second.hyperlinkMap = first.hyperlinkMap
  current : second.currentAttributes = first.currentAttributes

omit traced in
theorem same_open_entries (sameSource : SameEntries source source') (sameTarget : SameEntries target target')
    (same : PageOperation.SameOpen source target) : PageOperation.SameOpen source' target' := by
  rw [PageOperation.SameOpen, sameSource.map, sameSource.current, sameTarget.map]
  exact same

omit traced in
theorem swap_pages_entries (newPageNumber : Int) :
    SameEntries manager.visibleBuffer.buffer (manager.swapPages (tracedCalls env) newPageNumber).1.visibleBuffer.buffer ∧
      (∀ number, SameEntries (manager.buffers number).buffer
        ((manager.swapPages (tracedCalls env) newPageNumber).1.buffers number).buffer) ∧
      (manager.swapPages (tracedCalls env) newPageNumber).1.activePageNumber = manager.activePageNumber ∧
      ((manager.swapPages (tracedCalls env) newPageNumber).2.isSome →
        (manager.swapPages (tracedCalls env) newPageNumber).1.visiblePageNumber = newPageNumber) := by
  have saved := copy_rows_frame env manager.visibleBuffer (manager.buffers manager.visiblePageNumber) manager.visibleTop 0
    manager.pageHeight
  have shown := copy_rows_frame env (manager.buffers newPageNumber) manager.visibleBuffer 0 manager.visibleTop manager.pageHeight
  simp only [swapPages, tracedCalls]
  generalize copyRows env manager.visibleBuffer manager.visibleTop 0 manager.pageHeight
    (manager.buffers manager.visiblePageNumber) = first at *
  generalize copyRows env (manager.buffers newPageNumber) 0 manager.visibleTop manager.pageHeight manager.visibleBuffer =
    second at *
  have background : ∀ number, SameEntries (manager.buffers number).buffer
      (update manager.buffers manager.visiblePageNumber first.1 number).buffer := by
    intro number
    by_cases same : number = manager.visiblePageNumber
    · simpa [same] using ⟨saved.1, saved.2⟩
    · rw [update_of_ne same]
      exact ⟨rfl, rfl⟩
  cases first.2 with
  | none => exact ⟨⟨rfl, rfl⟩, background, rfl, fun failed => nomatch failed⟩
  | some _ =>
    cases second.2 with
    | none => exact ⟨⟨shown.1, shown.2⟩, background, rfl, fun failed => nomatch failed⟩
    | some _ => exact ⟨⟨shown.1, shown.2⟩, background, rfl, fun _ => rfl⟩

theorem move_current_traced (inRange : clampPage newPageNumber = newPageNumber)
    (same : PageOperation.SameOpen (if wasVisible then manager.visibleBuffer else manager.buffers manager.activePageNumber).buffer
      (if newPageNumber = manager.visiblePageNumber then manager.visibleBuffer else manager.buffers newPageNumber).buffer) :
    AllTraced { manager.moveCurrent (tracedCalls env) wasVisible newPageNumber with activePageNumber := newPageNumber } := by
  rw [moveCurrent]
  by_cases shown : newPageNumber = manager.visiblePageNumber
  · rw [if_pos shown] at same ⊢
    cases wasVisible with
    | true => exact ⟨traced.visible, traced.background, inRange⟩
    | false => exact ⟨carry_current_traced (traced.background _) traced.visible same, traced.background, inRange⟩
  · rw [if_neg shown] at same ⊢
    cases wasVisible with
    | true =>
      exact ⟨traced.visible, all_traced_update manager traced _ (carry_current_traced traced.visible (traced.background _)
        same), inRange⟩
    | false =>
      by_cases stays : manager.activePageNumber = newPageNumber
      · simpa [if_pos stays] using ⟨traced.visible, traced.background, inRange⟩
      · simpa [if_neg stays] using ⟨traced.visible,
          all_traced_update manager traced _ (carry_current_traced (traced.background _) (traced.background _) same), inRange⟩

theorem move_to_traced (keeps : PageOperation.KeepsLinks hash manager (.moveTo pageNumber makeVisible)) :
    AllTraced (manager.moveTo (tracedCalls env) pageNumber makeVisible) := by
  have inRange := clamp_page_again pageNumber
  rw [moveTo]
  cases main : manager.isMainBuffer with
  | false => exact traced
  | true =>
    obtain ⟨rows, current⟩ := keeps main
    have isActive : (if decide (manager.activePageNumber = manager.visiblePageNumber) = true then manager.visibleBuffer
        else manager.buffers manager.activePageNumber) = manager.bufferOf manager.activePageNumber := by
      rw [bufferOf, traced.active, main]
      simp
    rw [← isActive] at current
    generalize clampPage pageNumber = newPageNumber at *
    dsimp only
    by_cases swaps : makeVisible = true ∧ manager.visiblePageNumber ≠ newPageNumber
    · obtain ⟨saves, shows⟩ := rows swaps.1 swaps.2
      have swapped := swap_pages_traced env manager traced saves shows
      obtain ⟨visible, background, active, isNew⟩ := swap_pages_entries env manager newPageNumber
      rw [if_pos (show makeVisible = true ∨ newPageNumber = manager.visiblePageNumber from .inl swaps.1)] at current
      rw [if_pos swaps]
      generalize manager.swapPages (tracedCalls env) newPageNumber = outcome at *
      cases done : outcome.2 with
      | none => exact swapped
      | some _ =>
        refine move_current_traced env outcome.1 swapped inRange ?_
        rw [if_pos (isNew (by rw [done]; rfl)).symm, active]
        refine same_open_entries ?_ visible current
        by_cases wasVisible : manager.activePageNumber = manager.visiblePageNumber
        · simp only [wasVisible]
          exact visible
        · simp only [wasVisible]
          exact background _
    · rw [if_neg swaps]
      refine move_current_traced env manager traced inRange ?_
      by_cases shown : newPageNumber = manager.visiblePageNumber
      · rw [if_pos (show makeVisible = true ∨ newPageNumber = manager.visiblePageNumber from .inr shown)] at current
        rw [if_pos shown]
        exact current
      have hidden : ¬ (makeVisible = true ∨ newPageNumber = manager.visiblePageNumber) := fun either =>
        either.elim (fun visible => swaps ⟨visible, Ne.symm shown⟩) shown
      rw [if_neg hidden] at current
      rw [if_neg shown]
      exact current

end

section

variable (env : Environment) {hash : TextBuffer.UriHash}

theorem buffer_of_traced (traced : AllTraced manager) (pageNumber : Int) : Traced (manager.bufferOf pageNumber) := by
  rw [bufferOf]
  split
  · exact traced.visible
  · exact traced.background _

theorem modify_active_traced (traced : AllTraced manager)
    (keeps : Traced (change (manager.bufferOf manager.activePageNumber))) : AllTraced (manager.modifyActive change) := by
  rw [bufferOf] at keeps
  rw [modifyActive]
  split
  · rename_i visible
    rw [if_pos visible] at keeps
    exact ⟨keeps, traced.background, traced.active⟩
  · rename_i hidden
    rw [if_neg hidden] at keeps
    exact ⟨traced.visible, all_traced_update manager traced _ keeps, traced.active⟩

theorem page_operation_traced {operation : PageOperation} (traced : AllTraced manager)
    (keeps : operation.KeepsLinks hash manager) : AllTraced (operation.perform env hash manager) := by
  have isActive := buffer_of_traced traced manager.activePageNumber
  cases operation with
  | moveTo pageNumber makeVisible => exact move_to_traced env manager traced keeps
  | addHyperlink uri params =>
    rw [PageOperation.perform]
    refine modify_active_traced traced ?_
    exact add_hyperlink_traced env hash isActive keeps
  | endHyperlink =>
    rw [PageOperation.perform]
    refine modify_active_traced traced ?_
    exact operation_traced env hash isActive trivial
  | write insertMode y state =>
    rw [PageOperation.perform]
    refine modify_active_traced traced ?_
    exact write_traced env hash isActive

theorem all_traced_agree (traced : AllTraced manager) : manager.LinksAgree := by
  intro pageNumber y _ column attr isAttr isLink
  exact (traced_uris_agree (buffer_of_traced traced pageNumber)).cells _ column attr isAttr isLink

end

theorem page_links_agree (env : Environment) (hash : TextBuffer.UriHash) (isMainBuffer : Bool) (width height : Nat)
    (attributes : TextAttribute) (plain : attributes.hyperlinkId = 0) (visibleTop pageWidth pageHeight : Nat)
    (operations : List PageOperation)
    (keeps : EveryStep (fun manager operation => PageOperation.perform env hash manager operation)
      (.construct isMainBuffer width height attributes visibleTop pageWidth pageHeight) operations
      (fun manager operation => operation.KeepsLinks hash manager)) :
    EveryState (fun manager operation => PageOperation.perform env hash manager operation)
      (.construct isMainBuffer width height attributes visibleTop pageWidth pageHeight) operations PageManager.LinksAgree := by
  have initial : AllTraced (.construct isMainBuffer width height attributes visibleTop pageWidth pageHeight) :=
    ⟨traced_construct plain, fun _ => traced_construct rfl, rfl⟩
  have traced := every_state_of_steps _ _ initial (fun manager operation => page_operation_traced env) keeps
  exact fun index => all_traced_agree (traced index)

theorem page_links_agree_two_pages :
    EveryState (fun manager operation => PageOperation.perform graphemeEnvironment id manager operation)
      (.construct true 2 2 {} 1 2 1)
      [.addHyperlink [0x75] [], .endHyperlink, .moveTo 2 false, .addHyperlink [0x75] [],
        .write false 0 ⟨[0x61], 0, 2, 0, 0, 0⟩, .endHyperlink, .moveTo 2 true] PageManager.LinksAgree :=
  page_links_agree graphemeEnvironment id true 2 2 {} rfl 1 2 1 _ (by decide +kernel)

-- Two pages give their first id to different URIs. A click on the second page opens
-- the link of the first one as soon as the page is shown.
theorem page_link_changes :
    ¬ EveryState (fun manager operation => PageOperation.perform graphemeEnvironment id manager operation)
      (.construct true 2 1 {} 0 2 1)
      [.addHyperlink [0x75] [], .endHyperlink, .moveTo 2 false, .addHyperlink [0x76] [],
        .write false 0 ⟨[0x61], 0, 2, 0, 0, 0⟩, .moveTo 2 true] PageManager.LinksAgree := by
  intro every
  have agrees := (every 6 2 0 (by decide +kernel) 0 { hyperlinkId := 1 } (by decide +kernel) (by decide)).2 [0x76]
    (by decide +kernel)
  exact absurd agrees (by decide +kernel)

end Cogterm.VirtualTerminal
