import Cogterm.Library.Runs
import Cogterm.Parser.Characters
import Mathlib.Logic.Function.Basic

namespace Cogterm.VirtualTerminal

open Library List

-- The character sets are compared by the address of their data, so a table is
-- the name of the set it belongs to. A view without data is none.
inductive TranslationTable where
  | ascii | latin1 | latin2 | latinCyrillic | latinGreek | latinHebrew | latin5
  | decSupplemental | decSpecialGraphics | decCyrillic | decGreek | decHebrew | decTurkish
  | britishNrcs | dutchNrcs | finnishNrcs | frenchNrcs | frenchNrcsIso | frenchCanadianNrcs | germanNrcs | greekNrcs
  | hebrewNrcs | italianNrcs | norwegianDanishNrcs | norwegianDanishNrcsIso | portugueseNrcs | russianNrcs
  | spanishNrcs | swedishNrcs | swissNrcs | turkishNrcs
  | drcs94 | drcs96
deriving DecidableEq, Repr

open TranslationTable

abbrev GSet := Fin 4

def vtid (s : List Char) : Nat := fromString (s.map fun ch => UInt16.ofNat ch.toNat)

structure TerminalOutput where
  upssId : Nat
  upssTranslationTable : TranslationTable
  gsetTranslationTables : GSet → TranslationTable
  gsetIds : GSet → Nat
  glSetNumber : GSet
  grSetNumber : GSet
  glTranslationTable : Option TranslationTable
  grTranslationTable : Option TranslationTable
  ssSetNumber : Nat
  grTranslationEnabled : Bool
  drcsId : Nat
  drcsTranslationTable : Option TranslationTable

namespace TerminalOutput

def create (grEnabled : Bool) : TerminalOutput :=
  let grTranslationTable := if grEnabled then latin1 else ascii
  let grId := if grEnabled then vtid ['<'] else vtid ['B']
  { upssId := vtid ['A']
    upssTranslationTable := latin1
    gsetTranslationTables := fun gset => if gset < 2 then ascii else grTranslationTable
    gsetIds := fun gset => if gset < 2 then vtid ['B'] else grId
    glSetNumber := 0
    grSetNumber := 2
    glTranslationTable := none
    grTranslationTable := none
    ssSetNumber := 0
    grTranslationEnabled := grEnabled
    drcsId := 0
    drcsTranslationTable := none }

def softReset (output : TerminalOutput) : TerminalOutput := create output.grTranslationEnabled

def restoreFrom (output savedState : TerminalOutput) : TerminalOutput :=
  { savedState with grTranslationEnabled := output.grTranslationEnabled }

def lockingShift (output : TerminalOutput) (gsetNumber : GSet) : TerminalOutput :=
  let table := output.gsetTranslationTables gsetNumber
  { output with
    glSetNumber := gsetNumber
    glTranslationTable := if table = ascii then none else some table }

def lockingShiftRight (output : TerminalOutput) (gsetNumber : GSet) : TerminalOutput :=
  let table := output.gsetTranslationTables gsetNumber
  { output with
    grSetNumber := gsetNumber
    grTranslationTable := if table = latin1 ∨ output.grTranslationEnabled = false then none else some table }

def singleShift (output : TerminalOutput) (gsetNumber : Nat) : TerminalOutput := { output with ssSetNumber := gsetNumber }

def reapplyShifts (output : TerminalOutput) : TerminalOutput :=
  (output.lockingShift output.glSetNumber).lockingShiftRight output.grSetNumber

-- The DRCS set can be designated with either kind of sequence, so both lookups
-- ask for it first.
def lookupTranslationTable94 (output : TerminalOutput) (charset : Nat) : Option TranslationTable :=
  if charset = output.drcsId then output.drcsTranslationTable
  else if charset = vtid ['B'] ∨ charset = vtid ['1'] then some ascii
  else if charset = vtid ['0'] ∨ charset = vtid ['2'] then some decSpecialGraphics
  else if charset = vtid ['<'] then some output.upssTranslationTable
  else if charset = vtid ['A'] then some britishNrcs
  else if charset = vtid ['4'] then some dutchNrcs
  else if charset = vtid ['5'] ∨ charset = vtid ['C'] then some finnishNrcs
  else if charset = vtid ['R'] then some frenchNrcs
  else if charset = vtid ['f'] then some frenchNrcsIso
  else if charset = vtid ['9'] ∨ charset = vtid ['Q'] then some frenchCanadianNrcs
  else if charset = vtid ['K'] then some germanNrcs
  else if charset = vtid ['Y'] then some italianNrcs
  else if charset = vtid ['6'] ∨ charset = vtid ['E'] then some norwegianDanishNrcs
  else if charset = vtid ['\x60'] then some norwegianDanishNrcsIso
  else if charset = vtid ['Z'] then some spanishNrcs
  else if charset = vtid ['7'] ∨ charset = vtid ['H'] then some swedishNrcs
  else if charset = vtid ['='] then some swissNrcs
  else if charset = vtid ['&', '4'] then some decCyrillic
  else if charset = vtid ['&', '5'] then some russianNrcs
  else if charset = vtid ['\x22', '?'] then some decGreek
  else if charset = vtid ['\x22', '>'] then some greekNrcs
  else if charset = vtid ['\x22', '4'] then some decHebrew
  else if charset = vtid ['%', '='] then some hebrewNrcs
  else if charset = vtid ['%', '0'] then some decTurkish
  else if charset = vtid ['%', '2'] then some turkishNrcs
  else if charset = vtid ['%', '5'] then some decSupplemental
  else if charset = vtid ['%', '6'] then some portugueseNrcs
  else none

def lookupTranslationTable96 (output : TerminalOutput) (charset : Nat) : Option TranslationTable :=
  if charset = output.drcsId then output.drcsTranslationTable
  else if charset = vtid ['A'] then some latin1
  else if charset = vtid ['<'] then some output.upssTranslationTable
  else if charset = vtid ['B'] then some latin2
  else if charset = vtid ['L'] then some latinCyrillic
  else if charset = vtid ['F'] then some latinGreek
  else if charset = vtid ['H'] then some latinHebrew
  else if charset = vtid ['M'] then some latin5
  else none

def setTranslationTable (output : TerminalOutput) (gsetNumber : GSet) (translationTable : TranslationTable) : TerminalOutput :=
  reapplyShifts { output with
    gsetTranslationTables := Function.update output.gsetTranslationTables gsetNumber translationTable }

-- A charset without a table leaves everything as it was.
def designate (output : TerminalOutput) (gsetNumber : GSet) (charset : Nat) (translationTable : Option TranslationTable) :
    TerminalOutput :=
  match translationTable with
  | none => output
  | some table =>
    setTranslationTable { output with gsetIds := Function.update output.gsetIds gsetNumber charset } gsetNumber table

def designate94Charset (output : TerminalOutput) (gsetNumber : GSet) (charset : Nat) : TerminalOutput :=
  output.designate gsetNumber charset (output.lookupTranslationTable94 charset)

def designate96Charset (output : TerminalOutput) (gsetNumber : GSet) (charset : Nat) : TerminalOutput :=
  output.designate gsetNumber charset (output.lookupTranslationTable96 charset)

def assignUserPreferenceCharset (output : TerminalOutput) (charset : Nat) (size96 : Bool) : TerminalOutput :=
  match if size96 then output.lookupTranslationTable96 charset else output.lookupTranslationTable94 charset with
  | none => output
  | some table =>
    reapplyShifts { output with
      upssId := charset
      upssTranslationTable := table
      gsetTranslationTables := fun gset =>
        if output.gsetIds gset = vtid ['<'] then table else output.gsetTranslationTables gset }

def enableGrTranslation (output : TerminalOutput) (enabled : Bool) : TerminalOutput :=
  let defaultTranslationTable := if enabled then output.upssTranslationTable else ascii
  let defaultId := if enabled then vtid ['<'] else vtid ['B']
  reapplyShifts { output with
    grTranslationEnabled := enabled
    gsetTranslationTables := fun gset => if gset < 2 then output.gsetTranslationTables gset else defaultTranslationTable
    gsetIds := fun gset => if gset < 2 then output.gsetIds gset else defaultId }

-- A G-set that holds a DRCS goes back to its default, and whatever then is the
-- old table becomes the new one.
def replaceDrcsTable (output : TerminalOutput) (oldTable : Option TranslationTable) (newTable : TranslationTable) :
    TerminalOutput :=
  if some newTable = oldTable then output
  else
    reapplyShifts { output with
      gsetTranslationTables := fun gset =>
        let current := output.gsetTranslationTables gset
        let gsetTable := if current = drcs94 ∨ current = drcs96 then (if gset < 2 then ascii else latin1) else current
        if some gsetTable = oldTable then newTable else gsetTable }

def setDrcsDesignation (output : TerminalOutput) (charset : Nat) (oldTable : Option TranslationTable)
    (newTable : TranslationTable) : TerminalOutput :=
  { output.replaceDrcsTable oldTable newTable with drcsId := charset, drcsTranslationTable := some newTable }

def setDrcs94Designation (output : TerminalOutput) (charset : Nat) : TerminalOutput :=
  output.setDrcsDesignation charset (output.lookupTranslationTable94 charset) drcs94

def setDrcs96Designation (output : TerminalOutput) (charset : Nat) : TerminalOutput :=
  output.setDrcsDesignation charset (output.lookupTranslationTable96 charset) drcs96

end TerminalOutput

inductive CharsetOperation where
  | designate94Charset (gsetNumber : GSet) (charset : Nat)
  | designate96Charset (gsetNumber : GSet) (charset : Nat)
  | lockingShift (gsetNumber : GSet)
  | lockingShiftRight (gsetNumber : GSet)
  | singleShift (gsetNumber : Nat)
  | assignUserPreferenceCharset (charset : Nat) (size96 : Bool)
  | enableGrTranslation (enabled : Bool)
  | setDrcs94Designation (charset : Nat)
  | setDrcs96Designation (charset : Nat)
  | softReset
  | save
  | restoreFrom (copy : Nat)

structure SavedOutputs where
  output : TerminalOutput
  saved : List TerminalOutput

namespace SavedOutputs

open CharsetOperation

def create (grEnabled : Bool) : SavedOutputs := ⟨.create grEnabled, []⟩

def perform (state : SavedOutputs) : CharsetOperation → SavedOutputs
  | designate94Charset gsetNumber charset => { state with output := state.output.designate94Charset gsetNumber charset }
  | designate96Charset gsetNumber charset => { state with output := state.output.designate96Charset gsetNumber charset }
  | lockingShift gsetNumber => { state with output := state.output.lockingShift gsetNumber }
  | lockingShiftRight gsetNumber => { state with output := state.output.lockingShiftRight gsetNumber }
  | singleShift gsetNumber => { state with output := state.output.singleShift gsetNumber }
  | assignUserPreferenceCharset charset size96 =>
    { state with output := state.output.assignUserPreferenceCharset charset size96 }
  | enableGrTranslation enabled => { state with output := state.output.enableGrTranslation enabled }
  | setDrcs94Designation charset => { state with output := state.output.setDrcs94Designation charset }
  | setDrcs96Designation charset => { state with output := state.output.setDrcs96Designation charset }
  | softReset => { state with output := state.output.softReset }
  | save => { state with saved := state.saved ++ [state.output] }
  | restoreFrom copy =>
    match state.saved[copy]? with
    | none => state
    | some savedState => { state with output := state.output.restoreFrom savedState }

end SavedOutputs

variable {savedState : TerminalOutput}

namespace TerminalOutput

def invokedLeft (output : TerminalOutput) : Option TranslationTable :=
  if output.gsetTranslationTables output.glSetNumber = ascii then none
  else some (output.gsetTranslationTables output.glSetNumber)

def invokedRight (output : TerminalOutput) : Option TranslationTable :=
  if output.grTranslationEnabled = true ∧ output.gsetTranslationTables output.grSetNumber ≠ latin1 then
    some (output.gsetTranslationTables output.grSetNumber)
  else none

structure Synchronized (output : TerminalOutput) : Prop where
  left : output.glTranslationTable = output.invokedLeft
  right : output.grTranslationTable = output.invokedRight

theorem create_synchronized (grEnabled : Bool) : (create grEnabled).Synchronized := by
  cases grEnabled with
  | false => exact ⟨by decide, by decide⟩
  | true => exact ⟨by decide, by decide⟩

variable {output : TerminalOutput} {gsetNumber : GSet} {charset : Nat}

theorem locking_shift_left :
    (output.lockingShift gsetNumber).glTranslationTable = (output.lockingShift gsetNumber).invokedLeft := rfl

theorem locking_shift_right :
    (output.lockingShiftRight gsetNumber).grTranslationTable = (output.lockingShiftRight gsetNumber).invokedRight := by
  by_cases latin : output.gsetTranslationTables gsetNumber = latin1
  · simp [lockingShiftRight, invokedRight, latin]
  · cases enabled : output.grTranslationEnabled with
    | false => simp [lockingShiftRight, invokedRight, enabled]
    | true => simp [lockingShiftRight, invokedRight, enabled]

theorem reapply_shifts_synchronized : output.reapplyShifts.Synchronized :=
  ⟨locking_shift_left, locking_shift_right⟩

theorem locking_shift_synchronized (before : output.Synchronized) : (output.lockingShift gsetNumber).Synchronized :=
  ⟨locking_shift_left, before.right⟩

theorem locking_shift_right_synchronized (before : output.Synchronized) : (output.lockingShiftRight gsetNumber).Synchronized :=
  ⟨before.left, locking_shift_right⟩

theorem designate_synchronized {translationTable : Option TranslationTable} (before : output.Synchronized) :
    (output.designate gsetNumber charset translationTable).Synchronized := by
  cases translationTable with
  | none => exact before
  | some table => exact reapply_shifts_synchronized

theorem assign_user_preference_synchronized {size96 : Bool} (before : output.Synchronized) :
    (output.assignUserPreferenceCharset charset size96).Synchronized := by
  unfold assignUserPreferenceCharset
  split
  · exact before
  · exact reapply_shifts_synchronized

theorem replace_drcs_synchronized (oldTable : Option TranslationTable) (newTable : TranslationTable)
    (before : output.Synchronized) : (output.replaceDrcsTable oldTable newTable).Synchronized := by
  unfold replaceDrcsTable
  split
  · exact before
  · exact reapply_shifts_synchronized

theorem set_drcs_synchronized {oldTable : Option TranslationTable} {newTable : TranslationTable} (before : output.Synchronized) :
    (output.setDrcsDesignation charset oldTable newTable).Synchronized := by
  have replaced := replace_drcs_synchronized oldTable newTable before
  exact ⟨replaced.left, replaced.right⟩

-- The flag is kept while the tables are those of the copy, so the cached table
-- of the copy has to be the one the kept flag asks for.
def FlagAgrees (output savedState : TerminalOutput) : Prop :=
  output.grTranslationEnabled = savedState.grTranslationEnabled ∨ savedState.gsetTranslationTables savedState.grSetNumber =
    latin1

theorem restore_synchronized_iff (saved : savedState.Synchronized) :
    (output.restoreFrom savedState).Synchronized ↔ FlagAgrees output savedState := by
  have sameLeft : (output.restoreFrom savedState).glTranslationTable = (output.restoreFrom savedState).invokedLeft := saved.left
  have right := saved.right
  by_cases latin : savedState.gsetTranslationTables savedState.grSetNumber = latin1
  · refine ⟨fun _ => Or.inr latin, fun _ => ⟨sameLeft, ?_⟩⟩
    simpa [invokedRight, restoreFrom, latin] using right
  constructor
  · intro restored
    have kept := restored.right
    simp only [restoreFrom, invokedRight, right, ne_eq, latin] at kept
    left
    cases current : output.grTranslationEnabled <;> cases copied : savedState.grTranslationEnabled <;>
      simp [current, copied] at kept ⊢
  · rintro (same | isLatin)
    · exact ⟨sameLeft, by simpa [invokedRight, restoreFrom, same] using right⟩
    · exact absurd isLatin latin

end TerminalOutput

namespace SavedOutputs

open TerminalOutput

structure AllSynchronized (state : SavedOutputs) : Prop where
  output : state.output.Synchronized
  saved : ∀ savedState ∈ state.saved, savedState.Synchronized

def RestoresAgreeing (state : SavedOutputs) : CharsetOperation → Prop
  | .restoreFrom copy => ∀ savedState, state.saved[copy]? = some savedState → FlagAgrees state.output savedState
  | _ => True

variable {state : SavedOutputs}

theorem perform_saved
    (member : savedState ∈ (state.perform operation).saved) : savedState ∈ state.saved ∨ savedState = state.output := by
  cases operation with
  | save =>
    rcases mem_append.mp member with older | newest
    · exact Or.inl older
    · exact Or.inr (mem_singleton.mp newest)
  | restoreFrom copy =>
    simp only [perform] at member
    cases found : state.saved[copy]? with
    | none => rw [found] at member; exact Or.inl member
    | some copied => rw [found] at member; exact Or.inl member
  | _ => exact Or.inl member

theorem perform_all_synchronized (before : state.AllSynchronized)
    (after : (state.perform operation).output.Synchronized) : (state.perform operation).AllSynchronized := by
  refine ⟨after, fun savedState member => ?_⟩
  rcases perform_saved member with older | same
  · exact before.saved savedState older
  · exact same ▸ before.output

theorem perform_output_iff (before : state.AllSynchronized) :
    (state.perform operation).output.Synchronized ↔ state.RestoresAgreeing operation := by
  have output := before.output
  cases operation with
  | designate94Charset gsetNumber charset => exact iff_of_true (designate_synchronized output) trivial
  | designate96Charset gsetNumber charset => exact iff_of_true (designate_synchronized output) trivial
  | lockingShift gsetNumber => exact iff_of_true (locking_shift_synchronized output) trivial
  | lockingShiftRight gsetNumber => exact iff_of_true (locking_shift_right_synchronized output) trivial
  | singleShift gsetNumber => exact iff_of_true ⟨output.left, output.right⟩ trivial
  | assignUserPreferenceCharset charset size96 => exact iff_of_true (assign_user_preference_synchronized output) trivial
  | enableGrTranslation enabled => exact iff_of_true reapply_shifts_synchronized trivial
  | setDrcs94Designation charset => exact iff_of_true (set_drcs_synchronized output) trivial
  | setDrcs96Designation charset => exact iff_of_true (set_drcs_synchronized output) trivial
  | softReset => exact iff_of_true (create_synchronized _) trivial
  | save => exact iff_of_true output trivial
  | restoreFrom copy =>
    simp only [perform, RestoresAgreeing]
    cases found : state.saved[copy]? with
    | none => exact iff_of_true output (fun other absent => by cases absent)
    | some savedState =>
      rw [restore_synchronized_iff (before.saved savedState (mem_of_getElem? found))]
      exact ⟨fun agrees other same => Option.some.inj same ▸ agrees, fun agrees => agrees savedState rfl⟩

theorem perform_synchronized_iff (state : SavedOutputs) (operation : CharsetOperation) (before : state.AllSynchronized) :
    (state.perform operation).AllSynchronized ↔ state.RestoresAgreeing operation := by
  rw [← perform_output_iff before]
  exact ⟨fun after => after.output, perform_all_synchronized before⟩

theorem saved_are_reached (nothing : start.saved = [])
    (every : EveryState perform start operations (fun state => state.output.Synchronized)) :
    EveryState perform start operations AllSynchronized := by
  intro index
  induction index with
  | zero => exact ⟨every 0, by simp [nothing]⟩
  | succ index ih =>
    have after := every (index + 1)
    cases present : operations[index]? with
    | none => rw [reached_past perform present]; exact ih
    | some operation =>
      rw [reached_succ perform present] at after ⊢
      exact perform_all_synchronized ih after

theorem cached_tables_iff (grEnabled : Bool) (operations : List CharsetOperation) :
    EveryState perform (create grEnabled) operations (fun state => state.output.Synchronized) ↔
      EveryStep perform (create grEnabled) operations RestoresAgreeing := by
  have initial : (create grEnabled).AllSynchronized := ⟨create_synchronized grEnabled, by simp [create]⟩
  rw [← every_state_iff_steps perform initial perform_synchronized_iff]
  exact ⟨saved_are_reached rfl, fun every index => (every index).output⟩

-- Saved with GR translation on and special graphics in G2, restored with it off:
-- the table of the copy stays in use.
def savedWhileEnabled : List CharsetOperation :=
  [.enableGrTranslation true, .designate94Charset 2 (vtid ['0']), .save, .enableGrTranslation false, .restoreFrom 0]

theorem restored_table_stays :
    ((runs perform (create false) savedWhileEnabled).output.grTranslationTable = some decSpecialGraphics ∧
      (runs perform (create false) savedWhileEnabled).output.grTranslationEnabled = false) ∧
    ¬ EveryState perform (create false) savedWhileEnabled (fun state => state.output.Synchronized) := by
  have shown : (runs perform (create false) savedWhileEnabled).output.grTranslationTable = some decSpecialGraphics := by decide
  have off : (runs perform (create false) savedWhileEnabled).output.grTranslationEnabled = false := by decide
  refine ⟨⟨shown, off⟩, fun every => ?_⟩
  have last := every savedWhileEnabled.length
  rw [reached_length] at last
  generalize runs perform (create false) savedWhileEnabled = final at shown off last
  have right := last.right
  rw [shown, invokedRight, off] at right
  simp at right

end SavedOutputs

end Cogterm.VirtualTerminal
