import SocChess.Lib.Clocked
import SocChess.Lib.Tally
import SocChess.Lib.SelectMove
import SocChess.GameLogic
import SocChess.BoardCore
import SocChess.AtomicMove
import SocChess.PressTiming
import SocChess.Material
import SocChess.Mirror
import SocChess.BridgeChannel
import SocChess.Lib.Sampling
import SocChess.Lib.Saturating
import SocChess.MouseCursor
import SocChess.CursorChannel
import SocChess.CursorReset
import SocChess.SpriteRom
import SocChess.BishopColour
import SocChess.Lib.Tracking
import SocChess.PawnHistory
import SocChess.Lib.Cyclic
import SocChess.Raster
import SocChess.SpriteScaling
import SocChess.SyncPulses
import SocChess.ChessRenderer
import SocChess.Highlight
import SocChess.MovePicture
import SocChess.SpriteModule
import SocChess.SpritePipeline
import SocChess.Lib.LineCode
import SocChess.TmdsEncoder
import SocChess.TmdsChannel
import SocChess.TmdsBalance
import SocChess.HdmiTx
import SocChess.HdmiLink
import SocChess.PictureLink
import SocChess.Lib.Program
import SocChess.HexDriver
import SocChess.Lib.Framing
import SocChess.UsbEnumeration
import SocChess.UsbInvariant
import SocChess.UsbMain
import SocChess.UsbMouse
import SocChess.UsbOrder
import SocChess.UsbSettle
