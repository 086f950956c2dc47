import Cogterm.Unicode.Utf16
import Mathlib.Data.UInt

namespace Cogterm.Input

-- KEY_EVENT_RECORD, with the wide member of its character union. bKeyDown is a
-- BOOL, so any integer.
structure KeyEventRecord where
  bKeyDown : Int
  wRepeatCount : UInt16
  wVirtualKeyCode : UInt16
  wVirtualScanCode : UInt16
  unicodeChar : UInt16
  dwControlKeyState : UInt32
deriving DecidableEq, Repr

-- Of the other kinds of INPUT_RECORD nothing is looked at.
inductive InputRecord where
  | key (event : KeyEventRecord)
  | other (data : List UInt8)
deriving DecidableEq, Repr

end Cogterm.Input

namespace Cogterm.Host

open Input UInt8
open Unicode (WChar isSurrogate isPair utf16NextOrFFFD)

inductive ReadingMode where
  | stringA
  | stringW
  | inputEventsA
  | inputEventsW
deriving DecidableEq, Repr

-- Of a cached text only what its reader has not consumed yet is kept.
structure InputBuffer where
  cachedTextA : List UInt8
  cachedTextW : List WChar
  cachedInputEvents : List InputRecord
  readingMode : ReadingMode
  storage : List InputRecord
deriving DecidableEq, Repr

-- The conversion into the code page of the console. A text of one code point
-- is given; the result is empty when the conversion fails.
structure CodePage where
  bytes : List WChar → List UInt8

def utf8Bytes (codepoint : Nat) : List UInt8 :=
  if codepoint < 0x80 then [ofNat codepoint]
  else if codepoint < 0x800 then [ofNat (0xC0 + codepoint / 64), ofNat (0x80 + codepoint % 64)]
  else if codepoint < 0x10000 then
    [ofNat (0xE0 + codepoint / 4096), ofNat (0x80 + codepoint / 64 % 64), ofNat (0x80 + codepoint % 64)]
  else
    [ofNat (0xF0 + codepoint / 262144), ofNat (0x80 + codepoint / 4096 % 64),
      ofNat (0x80 + codepoint / 64 % 64), ofNat (0x80 + codepoint % 64)]

def utf8CodePage : CodePage := ⟨fun text => utf8Bytes (utf16NextOrFFFD text).1⟩

namespace InputBuffer

def switchReadingMode (buffer : InputBuffer) (mode : ReadingMode) : InputBuffer :=
  if buffer.readingMode = mode then buffer
  else { buffer with cachedTextA := [], cachedTextW := [], cachedInputEvents := [], readingMode := mode }

def eventsMode (isUnicode : Bool) : ReadingMode := if isUnicode then .inputEventsW else .inputEventsA

variable {buffer : InputBuffer} {mode : ReadingMode}

@[simp] theorem switch_storage :
    (buffer.switchReadingMode mode).storage = buffer.storage := by
  unfold switchReadingMode
  split <;> rfl

@[simp] theorem switch_mode : (buffer.switchReadingMode mode).readingMode = mode := by
  unfold switchReadingMode
  split
  · assumption
  · rfl

theorem switch_again (already : buffer.readingMode = mode) : buffer.switchReadingMode mode = buffer := if_pos already

@[simp] theorem switch_twice (buffer : InputBuffer) (mode : ReadingMode) :
    (buffer.switchReadingMode mode).switchReadingMode mode = buffer.switchReadingMode mode :=
  switch_again switch_mode

end InputBuffer

section

structure ReadRequest where
  amountToRead : Nat
  peek : Bool
  waitForData : Bool
  unicode : Bool
  stream : Bool
deriving DecidableEq, Repr

inductive ReadStatus where
  | success
  | wait
  | failed
deriving DecidableEq, Repr

structure ReadResult where
  events : List InputRecord
  status : ReadStatus
deriving DecidableEq, Repr

variable (cp : CodePage)

def keyEvents (unicode : Bool) (event : KeyEventRecord) : List InputRecord :=
  if unicode then [.key event]
  else (cp.bytes [event.unicodeChar]).map (fun byte => .key { event with unicodeChar := byte.toUInt16 })

-- The do-while loop over the repeat count. What is left of the count is
-- returned too.
def repeatEvents (amountToRead : Nat) (pressed : List InputRecord) : Nat → List InputRecord → List InputRecord × Nat
  | 0, outEvents => (outEvents, 0)
  | count + 1, outEvents =>
    let pushed := outEvents ++ pressed
    if count > 0 ∧ pushed.length < amountToRead then repeatEvents amountToRead pressed count pushed else (pushed, count)

-- The loop over the stored events. The second component is what is not erased.
-- A failed conversion throws, with the events pushed up to then.
def readLoop (request : ReadRequest) : List InputRecord → List InputRecord →
    Except (List InputRecord) (List InputRecord × List InputRecord)
  | [], outEvents => .ok (outEvents, [])
  | record :: rest, outEvents =>
    if outEvents.length < request.amountToRead then
      match record with
      | .key stored =>
        let count := if request.stream then max 1 stored.wRepeatCount.toNat else 1
        let event := if request.stream then { stored with wRepeatCount := 1 } else stored
        let pressed := keyEvents cp request.unicode event
        if pressed = [] then .error outEvents
        else
          let (pushed, left) := repeatEvents request.amountToRead pressed count outEvents
          if left ≠ 0 ∧ request.peek = false then
            .ok (pushed, .key { stored with wRepeatCount := UInt16.ofNat left } :: rest)
          else readLoop request rest pushed
      | .other data => readLoop request rest (outEvents ++ [.other data])
    else .ok (outEvents, record :: rest)

def readStatus (request : ReadRequest) (events : List InputRecord) : ReadStatus :=
  if events = [] ∧ request.waitForData = true then .wait else .success

namespace InputBuffer

def peekCached (buffer : InputBuffer) (count : Nat) : List InputRecord := buffer.cachedInputEvents.take count

def consumeCachedEvents (buffer : InputBuffer) (count : Nat) : InputBuffer × List InputRecord :=
  ({ buffer with cachedInputEvents := buffer.cachedInputEvents.drop count }, buffer.cachedInputEvents.take count)

def cache (buffer : InputBuffer) (source : List InputRecord) (expectedSourceSize : Nat) : InputBuffer × List InputRecord :=
  ({ buffer with cachedInputEvents := buffer.cachedInputEvents ++ source.drop expectedSourceSize },
    source.take expectedSourceSize)

def read (buffer : InputBuffer) (request : ReadRequest) : InputBuffer × ReadResult :=
  let switched := buffer.switchReadingMode (eventsMode request.unicode)
  let (begun, cached) :=
    if request.peek then (switched, switched.peekCached request.amountToRead)
    else switched.consumeCachedEvents request.amountToRead
  match readLoop cp request begun.storage cached with
  | .error outEvents => (begun, ⟨outEvents, .failed⟩)
  | .ok (outEvents, remaining) =>
    let erased := if request.peek then begun else { begun with storage := remaining }
    let (done, events) := erased.cache outEvents request.amountToRead
    (done, ⟨events, readStatus request events⟩)

def reads (buffer : InputBuffer) : List ReadRequest → List ReadResult
  | [] => []
  | request :: rest => (buffer.read cp request).2 :: reads (buffer.read cp request).1 rest

end InputBuffer

end

-- til::utf16_iterator: the code points of the text, as texts of their own.
def utf16Iterator : List WChar → List (List WChar)
  | [] => []
  | [wch] => [if isSurrogate wch then [0xFFFD] else [wch]]
  | wch :: wch2 :: rest =>
    if isPair wch wch2 then [wch, wch2] :: utf16Iterator rest
    else (if isSurrogate wch then [0xFFFD] else [wch]) :: utf16Iterator (wch2 :: rest)

-- The units of each code point. A surrogate on its own is one as well.
def codePointTexts : List WChar → List (List WChar)
  | [] => []
  | [wch] => [[wch]]
  | wch :: wch2 :: rest =>
    if isPair wch wch2 then [wch, wch2] :: codePointTexts rest else [wch] :: codePointTexts (wch2 :: rest)

variable (cp : CodePage)

def CodePage.convert (text : List WChar) : List UInt8 := (codePointTexts text).flatMap cp.bytes

def wideCharToMultiByte (text : List WChar) (room : Nat) : Option (List UInt8) :=
  if (cp.convert text).length ≤ room then some (cp.convert text) else none

structure SlowPath where
  delivered : List UInt8
  cached : List UInt8
  read : Nat

-- The loop over the code points of the source. room is what is left of the
-- target; the loop ends when nothing is.
def slowPath : List (List WChar) → Nat → SlowPath → SlowPath
  | [], _, sofar => sofar
  | s :: rest, room, sofar =>
    let slice := cp.bytes s
    let next := { sofar with delivered := sofar.delivered ++ slice.take room, read := sofar.read + 1 }
    if room - slice.length = 0 then { next with cached := slice.drop room }
    else slowPath rest (room - slice.length) next

namespace InputBuffer

structure Consumed where
  buffer : InputBuffer
  source : List WChar
  delivered : List UInt8
deriving DecidableEq, Repr

-- Consume in its mode for a code page. The target has the given room.
def consume (buffer : InputBuffer) (source : List WChar) (target : Nat) : Consumed :=
  let switched := buffer.switchReadingMode .stringA
  let begun := { switched with cachedTextA := switched.cachedTextA.drop target }
  let cached := switched.cachedTextA.take target
  let room := target - cached.length
  if source = [] ∨ room = 0 then ⟨begun, source, cached⟩
  else
    match wideCharToMultiByte cp source room with
    | some bytes => ⟨begun, [], cached ++ bytes⟩
    | none =>
      let slow := slowPath cp (utf16Iterator source) room ⟨[], [], 0⟩
      ⟨{ begun with cachedTextA := slow.cached }, source.drop slow.read, cached ++ slow.delivered⟩

end InputBuffer

end Cogterm.Host
