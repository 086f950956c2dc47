import Cogterm.Parser.DcsTransparency
import Cogterm.Unicode.Directions
import Cogterm.Row.Overflow
import Cogterm.TextBuffer.ClearScrollback
import Cogterm.Convert.Bytes
import Cogterm.TextBuffer.SerializeRow
import Cogterm.TextBuffer.ReflowShows
import Cogterm.Adapter.TerminalOutput
import Cogterm.Adapter.MacroInvocation
import Cogterm.Host.KeyCoalescing
import Cogterm.Host.PeekRead
import Cogterm.Host.ConsumeBytes
import Cogterm.TextBuffer.UTextAccess
import Cogterm.Input.Keys
import Cogterm.Input.MouseReports
import Cogterm.Adapter.CopyExact
import Cogterm.Adapter.CutPairs
import Cogterm.Adapter.PageArray
import Cogterm.Adapter.SixelWrites
import Cogterm.Adapter.WritesEnd
import Cogterm.Row.ColumnMapper
import Cogterm.TextBuffer.CopyFrom
import Cogterm.TextBuffer.ScrollRows
import Cogterm.TextBuffer.StorageRuns
import Cogterm.Row.FastPath
import Cogterm.Row.Init
import Cogterm.Types.ParseUnsigned
import Cogterm.Types.SmallVector
import Cogterm.TextBuffer.DelimiterRuns
import Cogterm.Types.Regions
import Cogterm.Types.ColorSpec
import Cogterm.Parser.Base64
import Cogterm.Adapter.SgrStack
import Cogterm.Adapter.RequestSetting
