import Cogterm.Host.InputBuffer
import Cogterm.Library.Runs

namespace Cogterm.Host

open Input Library List

def nlsImeConversion : UInt32 := 0x800000

-- Moves of the mouse are coalesced too, but are not told apart from the other
-- records here.
def coalesceEvent : InputRecord → InputRecord → Option InputRecord
  | .key lastKey, .key inKey =>
    if lastKey.bKeyDown ≠ 0 ∧ inKey.bKeyDown ≠ 0 ∧
        (lastKey.wVirtualScanCode = inKey.wVirtualScanCode ∨ inKey.dwControlKeyState &&& nlsImeConversion ≠ 0) ∧
        lastKey.unicodeChar = inKey.unicodeChar ∧ lastKey.dwControlKeyState = inKey.dwControlKeyState ∧
        Unicode.isSurrogate inKey.unicodeChar = false then
      some (.key { lastKey with wRepeatCount := lastKey.wRepeatCount + inKey.wRepeatCount })
    else none
  | _, _ => none

-- A single record, while the modes that would handle it or hold it back are off.
def InputBuffer.writeBuffer (buffer : InputBuffer) (inEvent : InputRecord) : InputBuffer :=
  match buffer.storage.getLast?.bind (coalesceEvent · inEvent) with
  | some coalesced => { buffer with storage := buffer.storage.dropLast ++ [coalesced] }
  | none => { buffer with storage := buffer.storage ++ [inEvent] }

-- A stored count of zero reads as one.
def presses : InputRecord → List InputRecord
  | .key event => replicate (max 1 event.wRepeatCount.toNat) (.key { event with wRepeatCount := 1 })
  | .other data => [.other data]

def streamRequest : ReadRequest := ⟨1, false, false, true, true⟩

section

variable (cp : CodePage) {buffer : InputBuffer}

theorem stream_read (noCached : buffer.cachedInputEvents = []) : let after := buffer.read cp streamRequest
    after.2.events = (buffer.storage.flatMap presses).take 1 ∧ after.1.cachedInputEvents = [] ∧
      after.1.storage.flatMap presses = (buffer.storage.flatMap presses).drop 1 := by
  obtain ⟨switched, isSwitched⟩ : ∃ switched, buffer.switchReadingMode (InputBuffer.eventsMode true) = switched :=
    ⟨_, rfl⟩
  have sameStorage : switched.storage = buffer.storage := by simp [← isSwitched]
  have stillNone : switched.cachedInputEvents = [] := by
    rw [← isSwitched, InputBuffer.switchReadingMode]
    split <;> simp [noCached]
  simp only [InputBuffer.read, streamRequest, isSwitched, InputBuffer.consumeCachedEvents, stillNone, sameStorage]
  cases buffer.storage with
  | nil => simp [readLoop, InputBuffer.cache]
  | cons record rest =>
    cases record with
    | other data => cases rest <;> simp [readLoop, InputBuffer.cache, presses]
    | key event =>
      obtain ⟨more, isCount⟩ : ∃ more, max 1 event.wRepeatCount.toNat = more + 1 :=
        ⟨_, (Nat.sub_add_cancel (Nat.le_max_left ..)).symm⟩
      have small := event.wRepeatCount.toNat_lt
      cases more with
      | zero => cases rest <;> simp [readLoop, repeatEvents, keyEvents, InputBuffer.cache, presses, isCount]
      | succ more =>
        have unpacked : max 1 ((more + 1) % 65536) = more + 1 := by omega
        simp [readLoop, repeatEvents, keyEvents, InputBuffer.cache, presses, isCount, unpacked, replicate_succ]

theorem stream_reads (noCached : buffer.cachedInputEvents = []) (count : Nat) :
    (buffer.reads cp (replicate count streamRequest)).flatMap ReadResult.events =
    (buffer.storage.flatMap presses).take count := by
  induction count generalizing buffer with
  | zero => rfl
  | succ count ih =>
    obtain ⟨taken, stillNone, rest⟩ := stream_read cp noCached
    rw [replicate_succ, InputBuffer.reads, flatMap_cons, ih stillNone, taken, rest, ← take_add, Nat.add_comm]

end

abbrev KeyWrite := { event : KeyEventRecord // event.dwControlKeyState &&& nlsImeConversion = 0 ∧ 0 < event.wRepeatCount.toNat }

structure KeyWrites where
  written : List InputRecord
  buffer : InputBuffer

namespace KeyWrites

def initial : KeyWrites := ⟨[], ⟨[], [], [], .stringA, []⟩⟩

def next (writes : KeyWrites) (write : KeyWrite) : KeyWrites :=
  ⟨writes.written ++ [.key write.1], writes.buffer.writeBuffer (.key write.1)⟩

variable (cp : CodePage) {writes : KeyWrites} {write : KeyWrite}

def ReadsBack (writes : KeyWrites) : Prop :=
  ∀ count, (writes.buffer.reads cp (replicate count streamRequest)).flatMap ReadResult.events =
    (writes.written.flatMap presses).take count

-- The records are of one key, and their counts have a sum.
def Addable (lastKey inKey : KeyEventRecord) : Prop :=
  lastKey.wVirtualKeyCode = inKey.wVirtualKeyCode ∧ lastKey.bKeyDown = inKey.bKeyDown ∧
    lastKey.wRepeatCount.toNat + inKey.wRepeatCount.toNat < 65536

def CoalescesAddable (writes : KeyWrites) (write : KeyWrite) : Prop :=
  ∀ lastKey, writes.buffer.storage.getLast? = some (.key lastKey) → coalesceEvent (.key lastKey) (.key write.1) ≠ none →
    Addable lastKey write.1

structure Keeps (writes : KeyWrites) : Prop where
  noCached : writes.buffer.cachedInputEvents = []
  same : writes.buffer.storage.flatMap presses = writes.written.flatMap presses
  positive : ∀ lastKey, writes.buffer.storage.getLast? = some (.key lastKey) → 0 < lastKey.wRepeatCount.toNat

theorem reads_back_iff (noCached : writes.buffer.cachedInputEvents = []) :
    writes.ReadsBack cp ↔ writes.buffer.storage.flatMap presses = writes.written.flatMap presses := by
  simp only [ReadsBack, stream_reads cp noCached]
  constructor
  · intro prefixes
    refine ext_getElem? fun index => ?_
    have here := congrArg (·[index]?) (prefixes (index + 1))
    simpa using here
  · intro same count
    rw [same]

theorem presses_added (positive : 0 < lastKey.wRepeatCount.toNat)
    (merges : coalesceEvent (.key lastKey) (.key write.1) = some coalesced) :
    coalesced = .key { lastKey with wRepeatCount := lastKey.wRepeatCount + write.1.wRepeatCount } ∧
      (presses coalesced = presses (.key lastKey) ++ presses (.key write.1) ↔ Addable lastKey write.1) := by
  obtain ⟨⟨-, -, scanCode, sameChar, sameState, -⟩, rfl⟩ := by simpa [coalesceEvent] using merges
  have sameCode := scanCode.resolve_right (not_not.mpr write.2.1)
  have sameKey : (.key { write.1 with wRepeatCount := 1 } : InputRecord) = .key { lastKey with wRepeatCount := 1 } ↔
      lastKey.wVirtualKeyCode = write.1.wVirtualKeyCode ∧ lastKey.bKeyDown = write.1.bKeyDown := by
    simp [sameCode, sameChar, sameState, and_comm, eq_comm]
  refine ⟨rfl, ?_⟩
  rw [Addable, ← and_assoc, ← sameKey, presses, presses, presses, eq_comm, eq_replicate_iff]
  simp only [length_append, length_replicate, mem_append, mem_replicate, UInt16.toNat_add]
  constructor
  · rintro ⟨sum, all⟩
    exact ⟨all _ (.inr ⟨by omega, rfl⟩), by omega⟩
  · rintro ⟨same, small⟩
    refine ⟨by omega, ?_⟩
    rintro press (⟨-, rfl⟩ | ⟨-, rfl⟩)
    · rfl
    · exact same

theorem next_cached (write : KeyWrite) : (writes.next write).buffer.cachedInputEvents = writes.buffer.cachedInputEvents := by
  unfold next InputBuffer.writeBuffer
  split <;> rfl

-- Either the record is added to the storage, or the last record changes.
theorem next_same_iff (keeps : writes.Keeps) :
    ((writes.next write).buffer.storage.flatMap presses = (writes.next write).written.flatMap presses ↔
      writes.CoalescesAddable write) ∧ (writes.CoalescesAddable write → (writes.next write).Keeps) := by
  have noCached := (next_cached write).trans keeps.noCached
  cases found : writes.buffer.storage.getLast?.bind (coalesceEvent · (.key write.1)) with
  | none =>
    have isStorage : (writes.next write).buffer.storage = writes.buffer.storage ++ [.key write.1] := by
      rw [next, InputBuffer.writeBuffer, found]
    have same : (writes.next write).buffer.storage.flatMap presses = (writes.next write).written.flatMap presses := by
      rw [isStorage, next, flatMap_append, flatMap_append, keeps.same]
    refine ⟨⟨fun _ lastKey isLast merges => ?_, fun _ => same⟩, fun _ => ⟨noCached, same, fun lastKey isLast => ?_⟩⟩
    · rw [isLast] at found
      exact absurd found merges
    · obtain rfl : write.1 = lastKey := by simpa [isStorage] using isLast
      exact write.2.2
  | some coalesced =>
    obtain ⟨last, isLast, merges⟩ := Option.bind_eq_some_iff.mp found
    cases last with
    | other => cases merges
    | key lastKey =>
      obtain ⟨isCoalesced, added⟩ := presses_added (keeps.positive lastKey isLast) merges
      obtain ⟨front, isFront⟩ := getLast?_eq_some_iff.mp isLast
      have isStorage : (writes.next write).buffer.storage = front ++ [coalesced] := by
        simp [next, InputBuffer.writeBuffer, isFront, merges]
      have same : (writes.next write).buffer.storage.flatMap presses = (writes.next write).written.flatMap presses ↔
          Addable lastKey write.1 := by
        rw [isStorage, next, flatMap_append, flatMap_append, ← keeps.same, isFront, ← added]
        simp
      have addable : writes.CoalescesAddable write ↔ Addable lastKey write.1 := by simp [CoalescesAddable, isLast, merges]
      refine ⟨same.trans addable.symm, fun adds => ⟨noCached, same.mpr (addable.mp adds), fun key isKey => ?_⟩⟩
      have small := (addable.mp adds).2.2
      obtain rfl : key = _ := by simpa [isStorage, isCoalesced, eq_comm] using isKey
      rw [UInt16.toNat_add, Nat.mod_eq_of_lt small]
      omega

theorem keys_conserved_iff (writes : List KeyWrite) :
    EveryStep next initial writes (fun state write => (state.next write).ReadsBack cp) ↔
      EveryStep next initial writes CoalescesAddable :=
  every_step_iff next initial writes Keeps _ _ ⟨rfl, rfl, by simp [initial]⟩
    (fun _ write keeps => (reads_back_iff cp ((next_cached write).trans keeps.noCached)).trans (next_same_iff keeps).1)
    (fun _ _ keeps => (next_same_iff keeps).2)

-- The left and the right arrow key, without a scan code.
theorem right_arrow_read_as_left :
    ¬ (runs next initial [⟨⟨1, 1, 0x25, 0, 0, 0⟩, by decide⟩, ⟨⟨1, 1, 0x27, 0, 0, 0⟩, by decide⟩]).ReadsBack
    utf8CodePage :=
  fun readsBack => absurd (readsBack 2) (by decide +kernel)

end KeyWrites

end Cogterm.Host
