import Cogterm.Adapter.SixelWrites
import Cogterm.Adapter.WriteToBuffer
import Cogterm.Parser.Chunks

namespace Cogterm.VirtualTerminal

open Buffer Library AsciiChars

variable (settings : OutputSettings) (page : Page)

def printString (string : List WChar) (buffer : TextBuffer) : TextBuffer :=
  match runLoop (Writing.writeStep graphemeEnvironment settings) (2 * string.length + 2)
    (startWriting settings page buffer string) with
  | some (some w) => w.buffer
  | _ => buffer

def defineSixelImage (buffer : TextBuffer) : SixelSetup :=
  { bottomRow with page := page, margins := settings.scrollMargins, cursor := buffer.cursor.position }

-- The engine of the output as far as it prints text and accepts the start of an image.
def imageEngine : Engine TextBuffer where
  act := fun buffer action =>
    match action with
    | .print wch => (printString settings page [wch] buffer, .silent)
    | .printString string => (printString settings page string buffer, .silent)
    | .dcsDispatch id _ =>
      (buffer, { Reply.silent with accepted := decide (id.value = 0x71 ∧ (defineSixelImage settings page buffer).validOrigin) })
    | _ => (buffer, .silent)
  encounteredWin32InputModeSequence := fun _ => false
  invokeMacro := fun buffer => (buffer, none)
  macroDone := id

-- A surrogate pair that is cut takes two columns, and only then the cursor is inside the margins when the image starts.
theorem output_parsing_sees_cut :
    let ctx := stateMachine (imageEngine ⟨true, false, false, ⟨2, 0, 3, 0⟩⟩ ⟨1, 0, 1, 4, 1⟩) false .scalar
    let m := initialMachine false (TextBuffer.construct 4 1 {})
    (processStrings ctx [[0xD835], [0xDC00, ESC, 0x50, 0x71]] m).1.parser.state = .dcsPassThrough ∧
      (processString ctx [0xD835, 0xDC00, ESC, 0x50, 0x71] m).1.parser.state = .dcsIgnore := by
  decide +kernel

end Cogterm.VirtualTerminal
