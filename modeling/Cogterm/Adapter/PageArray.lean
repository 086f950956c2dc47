import Cogterm.Adapter.PageLinks

namespace Cogterm.VirtualTerminal

open Buffer Function Library PageManager

variable {Row Attr : Type}

structure PageCursor (Attr : Type) where
  attributes : Attr
  position : Point

def PageCursor.down (cursor : PageCursor Attr) (rows : Int) : PageCursor Attr :=
  { cursor with position := ⟨cursor.position.x, cursor.position.y + rows⟩ }

-- Rows are only assigned, so their type does not matter.
structure PageBuffer (Row Attr : Type) where
  rows : Int → Row
  cursor : PageCursor Attr

structure PageView (Row Attr : Type) (height : Nat) where
  rows : Fin height → Row
  cursor : PageCursor Attr

namespace PageBuffer

def view (height : Nat) (top : Int) (buffer : PageBuffer Row Attr) : PageView Row Attr height :=
  ⟨fun y => buffer.rows (top + y), buffer.cursor.down (-top)⟩

def replacePage {height : Nat} (top : Int) (page : PageView Row Attr height) (buffer : PageBuffer Row Attr) :
    PageBuffer Row Attr :=
  ⟨fun y => if inside : top ≤ y ∧ (y - top).toNat < height then page.rows ⟨_, inside.2⟩
    else buffer.rows y, page.cursor.down top⟩

def copyRow (source : PageBuffer Row Attr) (srcRowIndex dstRowIndex : Int) (target : PageBuffer Row Attr) : PageBuffer Row Attr :=
  { target with rows := update target.rows dstRowIndex (source.rows srcRowIndex) }

def copyRows (source : PageBuffer Row Attr) (srcTop dstTop : Int) : Nat → PageBuffer Row Attr → PageBuffer Row Attr
  | 0, target => target
  | count + 1, target => source.copyRow (srcTop + count) (dstTop + count) (source.copyRows srcTop dstTop count target)

def calls : BufferCalls (PageBuffer Row Attr) :=
  ⟨fun source srcTop dstTop count target => (source.copyRows srcTop dstTop count target, some ()),
    fun old new oldTop newTop => { new with cursor := (old.cursor.down (-oldTop)).down newTop }⟩

end PageBuffer

abbrev PagedBuffers (Row Attr : Type) : Type := PageManager (PageBuffer Row Attr)

inductive PageCall (Row Attr : Type) (height : Nat) where
  | moveTo (pageNumber : Int) (makeVisible : Bool)
  | write (change : PageView Row Attr height → PageView Row Attr height)

namespace PageManager

variable (height : Nat) (manager : PagedBuffers Row Attr)

def get (pageNumber : Int) : PageView Row Attr height :=
  (manager.bufferOf pageNumber).view height (manager.topOf pageNumber)

def write (change : PageView Row Attr height → PageView Row Attr height) : PagedBuffers Row Attr :=
  let top := manager.topOf manager.activePageNumber
  manager.modifyActive (fun buffer => buffer.replacePage top (change (buffer.view height top)))

def call (manager : PagedBuffers Row Attr) : PageCall Row Attr height → PagedBuffers Row Attr
  | .moveTo pageNumber makeVisible => manager.moveTo PageBuffer.calls pageNumber makeVisible
  | .write change => manager.write height change

end PageManager

structure PageArray (Row Attr : Type) (height : Nat) where
  contents : Int → Fin height → Row
  cursor : PageCursor Attr
  activePageNumber : Int
  visiblePageNumber : Int

variable {height : Nat}

def PageArray.call (array : PageArray Row Attr height) : PageCall Row Attr height → PageArray Row Attr height
  | .moveTo pageNumber makeVisible =>
    { array with
      activePageNumber := clampPage pageNumber
      visiblePageNumber := if makeVisible then clampPage pageNumber else array.visiblePageNumber }
  | .write change =>
    let page := change ⟨array.contents array.activePageNumber, array.cursor⟩
    { array with contents := update array.contents array.activePageNumber page.rows, cursor := page.cursor }

structure PageManager.Holds (manager : PagedBuffers Row Attr) (array : PageArray Row Attr height) : Prop where
  main : manager.isMainBuffer = true
  size : manager.pageHeight = height
  active : manager.activePageNumber = array.activePageNumber
  visible : manager.visiblePageNumber = array.visiblePageNumber
  inRange : clampPage array.activePageNumber = array.activePageNumber
  contents : ∀ number, (manager.get height number).rows = array.contents (clampPage number)
  cursor : (manager.get height manager.activePageNumber).cursor = array.cursor

@[simp] theorem down_up (cursor : PageCursor Attr) (rows : Int) : (cursor.down rows).down (-rows) = cursor := by
  simp [PageCursor.down]

@[simp] theorem down_zero (cursor : PageCursor Attr) : cursor.down 0 = cursor := by
  simp [PageCursor.down]

theorem replace_page_view (buffer : PageBuffer Row Attr) (top : Int) (page : PageView Row Attr height) :
    (buffer.replacePage top page).view height top = page := by
  simp [PageBuffer.view, PageBuffer.replacePage]

theorem copy_rows_assigns (source target : PageBuffer Row Attr) (srcTop dstTop : Int) (inside : y < count) :
    (source.copyRows srcTop dstTop count target).rows (dstTop + y) = source.rows (srcTop + y) := by
  induction count with
  | zero => exact absurd inside (Nat.not_lt_zero y)
  | succ count ih =>
    by_cases last : y = count
    · rw [last]
      exact update_self ..
    · exact (update_of_ne (by omega) ..).trans (ih (by omega))

theorem copy_rows_cursor (source target : PageBuffer Row Attr) (srcTop dstTop : Int) (count : Nat) :
    (source.copyRows srcTop dstTop count target).cursor = target.cursor := by
  induction count with
  | zero => rfl
  | succ count ih => exact ih

namespace PageManager

-- Only cursors are changed, and the one of the new page becomes the one of the old page.
theorem move_current_cursors (manager : PagedBuffers Row Attr) (wasVisible : Bool) (newPageNumber : Int) :
    ∃ (shown : PageCursor Attr) (cursors : Int → PageCursor Attr),
    manager.moveCurrent PageBuffer.calls wasVisible newPageNumber =
        { manager with
          visibleBuffer := ⟨manager.visibleBuffer.rows, shown⟩
          buffers := fun number => ⟨(manager.buffers number).rows, cursors number⟩ } ∧
      (if newPageNumber = manager.visiblePageNumber then shown.down (-manager.visibleTop) else cursors newPageNumber) =
        if wasVisible then manager.visibleBuffer.cursor.down (-manager.visibleTop)
        else (manager.buffers manager.activePageNumber).cursor := by
  have updated (cursor : PageCursor Attr) : update manager.buffers newPageNumber
      { manager.buffers newPageNumber with cursor := cursor } = fun number =>
        ⟨(manager.buffers number).rows,
          update (fun number => (manager.buffers number).cursor) newPageNumber cursor number⟩ := by
    funext number
    by_cases isNew : number = newPageNumber
    · simp [isNew]
    · simp [isNew]
  simp only [moveCurrent, PageBuffer.calls, updated]
  split_ifs
  · exact ⟨_, _, rfl, rfl⟩
  · exact ⟨_, _, rfl, by simp⟩
  · exact ⟨_, _, rfl, by simp⟩
  · exact ⟨_, _, rfl, by rw [‹manager.activePageNumber = newPageNumber›]⟩
  · exact ⟨_, _, rfl, by simp⟩

section

variable {manager : PagedBuffers Row Attr} (main : manager.isMainBuffer = true)

include main

theorem swap_pages_rows (size : manager.pageHeight = height) (hidden : manager.visiblePageNumber ≠ newPageNumber)
    (number : Int) :
    ((manager.swapPages PageBuffer.calls newPageNumber).1.get height number).rows = (manager.get height number).rows := by
  funext y
  have saved := copy_rows_assigns manager.visibleBuffer (manager.buffers manager.visiblePageNumber) manager.visibleTop 0 y.isLt
  have shown := copy_rows_assigns (manager.buffers newPageNumber) manager.visibleBuffer 0 manager.visibleTop y.isLt
  by_cases isNew : clampPage number = newPageNumber
  · simpa [get, bufferOf, topOf, PageBuffer.view, swapPages, PageBuffer.calls, main, size, isNew, Ne.symm hidden] using shown
  · by_cases isOld : clampPage number = manager.visiblePageNumber
    · simpa [get, bufferOf, topOf, PageBuffer.view, swapPages, PageBuffer.calls, main, size, isOld, hidden] using saved
    · simp [get, bufferOf, topOf, swapPages, PageBuffer.calls, main, isNew, isOld]

theorem get_cursor (inRange : clampPage number = number) : (manager.get height number).cursor =
    if number = manager.visiblePageNumber then manager.visibleBuffer.cursor.down (-manager.visibleTop)
    else (manager.buffers number).cursor := by
  by_cases shown : number = manager.visiblePageNumber
  · subst shown
    simp [get, bufferOf, topOf, PageBuffer.view, main, inRange]
  · simp [get, bufferOf, topOf, PageBuffer.view, main, inRange, shown]

end

variable {manager : PagedBuffers Row Attr} {array : PageArray Row Attr height}

theorem move_to_holds (holds : manager.Holds array) (pageNumber : Int) (makeVisible : Bool) :
    (manager.moveTo PageBuffer.calls pageNumber makeVisible).Holds (array.call (.moveTo pageNumber makeVisible)) := by
  obtain ⟨main, size, active, visible, inRange, contents, cursor⟩ := holds
  have again := clamp_page_again pageNumber
  rw [get_cursor main (by rw [active, inRange])] at cursor
  rw [moveTo, if_neg (by simp [main]), PageArray.call]
  generalize clampPage pageNumber = newPageNumber at *
  obtain ⟨swapped, isSwapped, isMain, sameSize, newVisible, rows, sameCursor⟩ : ∃ swapped,
      (if makeVisible = true ∧ manager.visiblePageNumber ≠ newPageNumber then
        manager.swapPages PageBuffer.calls newPageNumber else (manager, some ())) = (swapped, some ()) ∧
      swapped.isMainBuffer = true ∧ swapped.pageHeight = height ∧
      swapped.visiblePageNumber = (if makeVisible then newPageNumber else array.visiblePageNumber) ∧
      (∀ number, (swapped.get height number).rows = array.contents (clampPage number)) ∧
      (if manager.activePageNumber = manager.visiblePageNumber then swapped.visibleBuffer.cursor.down (-swapped.visibleTop)
        else (swapped.buffers swapped.activePageNumber).cursor) = array.cursor := by
    by_cases swaps : makeVisible = true ∧ manager.visiblePageNumber ≠ newPageNumber
    · rw [if_pos swaps]
      refine ⟨_, rfl, main, size, by rw [swaps.1]; rfl,
        fun number => (swap_pages_rows main size swaps.2 number).trans (contents number), ?_⟩
      rw [← cursor]
      split
      · simp only [copy_rows_cursor, PageBuffer.calls]
      · rename_i hidden
        exact congrArg PageBuffer.cursor (update_of_ne hidden ..)
    · rw [if_neg swaps]
      refine ⟨manager, rfl, main, size, ?_, contents, cursor⟩
      cases makeVisible with
      | false => exact visible
      | true => exact not_not.mp (fun apart => swaps ⟨rfl, apart⟩)
  obtain ⟨shown, cursors, moved, carried⟩ :=
    move_current_cursors swapped (decide (manager.activePageNumber = manager.visiblePageNumber)) newPageNumber
  simp only [isSwapped, moved]
  refine ⟨isMain, sameSize, rfl, newVisible, again, fun number => ?_, ?_⟩
  · rw [← rows, get, get, bufferOf, bufferOf]
    split <;> rfl
  · simp only [decide_eq_true_eq] at carried
    rw [get_cursor _ again]
    · exact carried.trans sameCursor
    · exact isMain

theorem write_holds (holds : manager.Holds array) (change : PageView Row Attr height → PageView Row Attr height) :
    (manager.write height change).Holds (array.call (.write change)) := by
  obtain ⟨main, size, active, visible, inRange, contents, cursor⟩ := holds
  have page : manager.get height manager.activePageNumber = ⟨array.contents array.activePageNumber, array.cursor⟩ := by
    rw [← inRange, ← active, ← contents, ← cursor]
  have frame : manager.write height change = { manager with
      visibleBuffer := (manager.write height change).visibleBuffer, buffers := (manager.write height change).buffers } := by
    rw [write, modifyActive]
    split <;> rfl
  have changed (number : Int) : (manager.write height change).get height number =
      if clampPage number = array.activePageNumber then change ⟨array.contents array.activePageNumber, array.cursor⟩
      else manager.get height number := by
    rw [← page]
    simp only [get, write, modifyActive, bufferOf, topOf, main, active, inRange]
    by_cases shown : array.activePageNumber = manager.visiblePageNumber
    · by_cases same : clampPage number = array.activePageNumber
      · simp [shown, same, replace_page_view]
      · rw [shown] at same
        simp [shown, same]
    · by_cases same : clampPage number = array.activePageNumber
      · simp [shown, same, replace_page_view]
      · simp [shown, same]
  rw [frame] at changed ⊢
  refine ⟨main, size, active, visible, inRange, fun number => ?_, ?_⟩
  · rw [changed]
    simp only [PageArray.call, update_apply]
    split
    · rfl
    · exact contents number
  · refine (congrArg PageView.cursor (changed _)).trans ?_
    rw [active, if_pos inRange]
    rfl

theorem call_holds (manager : PagedBuffers Row Attr) (array : PageArray Row Attr height)
    (operation : PageCall Row Attr height) (holds : manager.Holds array) :
    (manager.call height operation).Holds (array.call operation) := by
  cases operation with
  | moveTo pageNumber makeVisible => exact move_to_holds holds pageNumber makeVisible
  | write change => exact write_holds holds change

-- The main buffer is page 1, and all other pages are blank at first.
theorem paged_buffers_refine_array (height : Nat) (mainBuffer : PageBuffer Row Attr) (top : Int) (blank : Row)
    (cursor : PageCursor Attr) (operations : List (PageCall Row Attr height)) : let main := mainBuffer.view height top
    let pages := runs (call height) ⟨true, mainBuffer, top, height, fun _ => ⟨fun _ => blank, cursor⟩, 1, 1⟩ operations
    let array := runs PageArray.call ⟨fun number => if number = 1 then main.rows else fun _ => blank, main.cursor, 1, 1⟩
      operations
    (∀ number, (pages.get height number).rows = array.contents (clampPage number)) ∧
      (pages.get height pages.activePageNumber).cursor = array.cursor ∧
      pages.activePageNumber = array.activePageNumber ∧ pages.visiblePageNumber = array.visiblePageNumber := by
  intro main pages array
  have holds : pages.Holds array := by
    refine runs_related (call height) call_holds operations ⟨rfl, rfl, rfl, rfl, rfl, fun number => ?_, rfl⟩
    by_cases visible : clampPage number = 1
    · simp [get, bufferOf, topOf, visible, main]
    · simp [get, bufferOf, PageBuffer.view, visible]
  exact ⟨holds.contents, holds.cursor, holds.active, holds.visible⟩

end PageManager

end Cogterm.VirtualTerminal
