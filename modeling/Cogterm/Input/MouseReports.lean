import Cogterm.Library.Runs
import Mathlib.Data.UInt

namespace Cogterm.Input

open Library List

-- An SGR report with the time at which it is handled. The sequence of a press
-- ends in M, that of a release in m.
structure MouseReport where
  pressed : Bool
  sgrEncoding : Nat
  uiPos : Int × Int
  currentTime : Int

namespace MouseReport

variable (report : MouseReport)

def buttonID : Nat := (report.sgrEncoding &&& 0x3) ||| ((report.sgrEncoding &&& 0xC0) >>> 4)

def dragged : Bool := report.sgrEncoding.testBit 5

def isPress : Bool := report.pressed && report.buttonID ≤ 2

def repeats (doubleClickTime : Int) (last : MouseReport) : Bool :=
  report.uiPos = last.uiPos && report.currentTime - last.currentTime < doubleClickTime && report.buttonID = last.buttonID

end MouseReport

-- The position, the time and the button of the last click are set and reset
-- together, so its report stands for them.
structure MouseTracker where
  mouseButtonState : UInt32
  lastMouseClick : Option MouseReport

variable (doubleClickTime : Int)

def isDoubleClick (tracker : MouseTracker) (report : MouseReport) : Bool :=
  report.pressed && tracker.lastMouseClick.any (report.repeats doubleClickTime)

-- The button state and the event flags of the record.
def updateSGRMouseButtonState (tracker : MouseTracker) (report : MouseReport) : MouseTracker × Option (UInt32 × UInt32) :=
  if 5 < report.buttonID then (tracker, none)
  else
    let scrolled : UInt32 := if report.buttonID = 5 then 0xFF800000 else if report.buttonID = 4 then 0x00800000 else 0
    let buttonFlag : UInt32 :=
      if report.buttonID = 0 then 0x1 else if report.buttonID = 1 then 0x4 else if report.buttonID = 2 then 0x2 else 0
    let state := tracker.mouseButtonState ||| scrolled
    let buttonState := if report.pressed then state ||| buttonFlag else state &&& ~~~ buttonFlag
    let doubled := isDoubleClick doubleClickTime tracker report
    ({ mouseButtonState := buttonState &&& 0xFFFF
       lastMouseClick := if doubled then none else if report.isPress then some report else tracker.lastMouseClick },
      some (buttonState, (if 4 ≤ report.buttonID then 0x4 else 0) ||| (if doubled then 0x2 else 0) |||
        if report.dragged then 0x1 else 0))

-- DOUBLE_CLICK is set in the record.
def flagged (tracker : MouseTracker) (report : MouseReport) : Bool :=
  (updateSGRMouseButtonState doubleClickTime tracker report).2.any fun record => record.2 &&& 0x2 ≠ 0

-- All reports so far, the last one first, and whether they were flagged.
structure MouseHistory where
  tracker : MouseTracker
  past : List (MouseReport × Bool)

namespace MouseHistory

def next (history : MouseHistory) (report : MouseReport) : MouseHistory :=
  ⟨(updateSGRMouseButtonState doubleClickTime history.tracker report).1,
    (report, flagged doubleClickTime history.tracker report) :: history.past⟩

def lastPress (history : MouseHistory) : Option (MouseReport × Bool) := history.past.find? fun entry => entry.1.isPress

def lastClick (history : MouseHistory) : Option (MouseReport × Bool) :=
  history.past.find? fun entry => entry.1.isPress && !entry.1.dragged && !entry.2

def RepeatsClick (history : MouseHistory) (report : MouseReport) : Prop :=
  history.lastClick.any (fun entry => report.repeats doubleClickTime entry.1) = true

-- Only a press is flagged that is not a motion and repeats the last click.
def FlagsClicks (history : MouseHistory) (report : MouseReport) : Prop :=
  flagged doubleClickTime history.tracker report = true →
    report.isPress = true ∧ report.dragged = false ∧ history.RepeatsClick doubleClickTime report

-- A press that repeats the last one is no motion, and neither was that one unless
-- the last click is repeated as well.
def MotionsApart (history : MouseHistory) (report : MouseReport) : Prop :=
  ∀ press, history.lastPress = some (press, false) → report.isPress = true → report.repeats doubleClickTime press = true →
    report.dragged = false ∧ (press.dragged = false ∨ history.RepeatsClick doubleClickTime report)

-- The last press is remembered unless it was flagged.
def Tracks (history : MouseHistory) : Prop :=
  ∀ press, history.tracker.lastMouseClick = some press ↔ history.lastPress = some (press, false)

variable {history : MouseHistory} {report press : MouseReport}

theorem flagged_eq (tracker : MouseTracker) (known : report.buttonID ≤ 5) :
    flagged doubleClickTime tracker report = isDoubleClick doubleClickTime tracker report := by
  simp only [flagged, updateSGRMouseButtonState, if_neg (Nat.not_lt.mpr known), Option.any_some]
  generalize isDoubleClick doubleClickTime tracker report = doubled
  cases doubled <;> cases report.dragged <;> by_cases wheel : 4 ≤ report.buttonID <;> simp only [wheel] <;> decide

theorem press_button (isPress : report.isPress = true) : report.buttonID ≤ 2 :=
  of_decide_eq_true (Bool.and_eq_true_iff.mp isPress).2

theorem double_click_iff (tracks : history.Tracks) (report : MouseReport) :
    isDoubleClick doubleClickTime history.tracker report = true ↔ ∃ press, history.lastPress = some (press, false) ∧
      report.isPress = true ∧ report.repeats doubleClickTime press = true := by
  rw [isDoubleClick, Bool.and_eq_true, Option.any_eq_true]
  constructor
  · rintro ⟨pressed, press, isClick, same⟩
    have isLast := (tracks press).mp isClick
    have isPress := find?_some isLast
    have button : report.buttonID = press.buttonID := of_decide_eq_true (Bool.and_eq_true_iff.mp same).2
    refine ⟨press, isLast, ?_, same⟩
    rw [MouseReport.isPress, pressed, button]
    exact decide_eq_true (press_button isPress)
  · rintro ⟨press, isLast, isPress, same⟩
    exact ⟨(Bool.and_eq_true_iff.mp isPress).1, press, (tracks press).mpr isLast, same⟩

theorem tracks_next (tracks : history.Tracks) : (history.next doubleClickTime report).Tracks := by
  intro press
  by_cases isPress : report.isPress = true
  · have few := press_button isPress
    simp only [lastPress, next, find?_cons, isPress, flagged_eq _ _ (Nat.le_trans few (by decide : 2 ≤ 5)),
      updateSGRMouseButtonState, if_neg (by omega : ¬ 5 < report.buttonID)]
    cases isDoubleClick doubleClickTime history.tracker report <;> simp
  · have single : isDoubleClick doubleClickTime history.tracker report = false := by
      rw [Bool.eq_false_iff, Ne, double_click_iff _ tracks]
      exact fun ⟨_, _, held, _⟩ => isPress held
    simp only [lastPress, next, find?_cons, updateSGRMouseButtonState, single, isPress]
    split <;> exact tracks press

theorem last_click (isLast : history.lastPress = some (press, false)) (still : press.dragged = false) :
    history.lastClick = some (press, false) := by
  obtain ⟨isPress, front, back, split, none⟩ := find?_eq_some_iff_append.mp isLast
  refine find?_eq_some_iff_append.mpr ⟨by simpa [still] using isPress, front, back, split, fun entry member => ?_⟩
  have notPress := none entry member
  simp_all

theorem flags_clicks_iff (tracks : history.Tracks) :
    history.FlagsClicks doubleClickTime report ↔ history.MotionsApart doubleClickTime report := by
  have doubles := double_click_iff doubleClickTime tracks report
  constructor
  · intro flags press isLast isPress same
    have known := Nat.le_trans (press_button isPress) (by decide : 2 ≤ 5)
    obtain ⟨_, still, clicked⟩ := flags ((flagged_eq _ _ known).trans (doubles.mpr ⟨press, isLast, isPress, same⟩))
    exact ⟨still, .inr clicked⟩
  · intro apart isFlagged
    have known : report.buttonID ≤ 5 := by
      by_contra unknown
      simp [flagged, updateSGRMouseButtonState, Nat.not_le.mp unknown] at isFlagged
    obtain ⟨press, isLast, isPress, same⟩ := doubles.mp ((flagged_eq _ _ known).symm.trans isFlagged)
    obtain ⟨still, pressStill | clicked⟩ := apart press isLast isPress same
    · rw [RepeatsClick, last_click isLast pressStill]
      exact ⟨isPress, still, same⟩
    · exact ⟨isPress, still, clicked⟩

def initial : MouseHistory := ⟨⟨0, none⟩, []⟩

theorem double_clicks_iff (reports : List MouseReport) :
    EveryStep (next doubleClickTime) initial reports (FlagsClicks doubleClickTime) ↔
      EveryStep (next doubleClickTime) initial reports (MotionsApart doubleClickTime) :=
  every_step_iff _ initial reports Tracks _ _ (fun press => by simp [initial, lastPress])
    (fun _ _ tracks => flags_clicks_iff doubleClickTime tracks) (fun _ _ tracks _ => tracks_next doubleClickTime tracks)

instance (history : MouseHistory) (report : MouseReport) : Decidable (history.FlagsClicks doubleClickTime report) :=
  inferInstanceAs (Decidable (_ → _ ∧ _ ∧ _ = true))

-- The left button is pressed and the mouse is moved within the cell.
theorem drag_flagged_double_click : ¬ EveryStep (next 500) initial [⟨true, 0, (4, 2), 0⟩, ⟨true, 32, (4, 2), 100⟩]
    (FlagsClicks 500) := by
  decide +kernel

end MouseHistory

end Cogterm.Input
