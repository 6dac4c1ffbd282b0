import Cantools.Framework.Transducer
import Cantools.Framework.Chunks
import Cantools.Framework.Bits
import Cantools.Framework.Buffer
import Cantools.Framework.Program
import Cantools.Framework.Machine
import Cantools.Framework.LittleEndian
import Cantools.Framework.Utf8
import Cantools.Framework.Clip
import Cantools.Framework.Text
import Cantools.Framework.Numeral
import Cantools.Core.Frame
import Cantools.Core.Capture
import Cantools.Isotp.Stream
import Cantools.Isotp.History
import Cantools.Isotp.Loss
import Cantools.Isotp.Wire
import Cantools.Codec.Basic
import Cantools.Codec.Mf4RoundTrip
import Cantools.Codec.BlfRoundTrip
import Cantools.Codec.AscRoundTrip
import Cantools.Codec.Mf4Fidelity
import Cantools.Codec.BlfFidelity
import Cantools.Codec.AscFidelity
import Cantools.Decoder.Number
import Cantools.Decoder.TooShort
import Cantools.Decoder.Faults
import Cantools.Decoder.Padding
import Cantools.SocketCan.NativeRoundTrip
import Cantools.SocketCan.Session
import Cantools.Isotp.Shape
import Cantools.Codec.Identifier
import Cantools.Codec.AscProvenance
import Cantools.Codec.AscTime
import Cantools.Codec.ExportOrder
import Cantools.Cli.Basic
import Cantools.Cli.HexText
import Cantools.Cli.Resend
import Cantools.Cli.Sequence
import Cantools.Codec.Span
import Cantools.Framework.Timed
import Cantools.Cli.Replay
import Cantools.Framework.Window
import Cantools.Tui.Monitor
import Cantools.Uds.Client
import Cantools.J1939.Identifier
import Cantools.Codec.Convert
import Cantools.Cli.Interfaces
import Cantools.Xtask.Regenerate
import Cantools.Xtask.Orb
import Cantools.Xtask.Placeholders
