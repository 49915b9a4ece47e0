import NgkNet.Base.Ascii
import NgkNet.Base.Bytes
import NgkNet.Base.CString
import NgkNet.Base.Decimal
import NgkNet.Base.DoWhile
import NgkNet.Base.Ecma.Lemmas
import NgkNet.Base.Ecma.Match
import NgkNet.Base.Ecma.Syntax
import NgkNet.Base.Effect
import NgkNet.Base.Procedures
import NgkNet.Base.Readers
import NgkNet.Base.Ring
import NgkNet.Base.Segments
import NgkNet.Base.Sha1
import NgkNet.Exercise6.ReceiveFile
import NgkNet.Exercise6.SendFile
import NgkNet.Exercise6.Stopping
import NgkNet.Exercise6.Transfer
import NgkNet.Exercise7.Replies
import NgkNet.Exercise7.Termination
import NgkNet.Exercise7.UdpServer
import NgkNet.Exercise8.Pieces
import NgkNet.Exercise8.ReceiveFile
import NgkNet.Exercise8.SendFile
import NgkNet.Exercise8.Transfer
import NgkNet.Lab2.Handlers
import NgkNet.Lab2.Latest
import NgkNet.Lab2.Listing
import NgkNet.Lab2.Positions
import NgkNet.Lab2.Routes
import NgkNet.Lab2.Server
import NgkNet.Restinio.Base64
import NgkNet.Restinio.Express
import NgkNet.Restinio.FromString
import NgkNet.Restinio.Http.Acceptor
import NgkNet.Restinio.Http.Builders
import NgkNet.Restinio.Http.Connection
import NgkNet.Restinio.Http.Conversation
import NgkNet.Restinio.Http.Coordinator
import NgkNet.Restinio.Http.Headers
import NgkNet.Restinio.Http.Messages
import NgkNet.Restinio.Http.Notifying
import NgkNet.Restinio.Http.ParserCallbacks
import NgkNet.Restinio.Http.Pipeline
import NgkNet.Restinio.Http.Pipelining
import NgkNet.Restinio.Http.Reading
import NgkNet.Restinio.Http.Replies
import NgkNet.Restinio.Http.Service
import NgkNet.Restinio.Http.Timeouts
import NgkNet.Restinio.Http.Wire
import NgkNet.Restinio.Path2Regex
import NgkNet.Restinio.PercentEncoding
import NgkNet.Restinio.PercentRoundTrip
import NgkNet.Restinio.Request
import NgkNet.Restinio.RouteShapes
import NgkNet.Restinio.Sha1
import NgkNet.Restinio.Utf8Checker
import NgkNet.Restinio.Utf8Text
import NgkNet.Restinio.WebSocket.Connection
import NgkNet.Restinio.WebSocket.Fragments
import NgkNet.Restinio.WebSocket.Frames
import NgkNet.Restinio.WebSocket.Handshake
import NgkNet.Restinio.WebSocket.History
import NgkNet.Restinio.WebSocket.Lifetime
import NgkNet.Restinio.WebSocket.Parser
import NgkNet.Restinio.WebSocket.Receiving
import NgkNet.Restinio.WebSocket.Serving
import NgkNet.Restinio.WebSocket.Site
import NgkNet.Restinio.WebSocket.Stability
import NgkNet.Restinio.WebSocket.Stream
import NgkNet.Restinio.WebSocket.Validator
import NgkNet.Restinio.WebSocket.Writing
import NgkNet.Voresmain.Broadcast
import NgkNet.Voresmain.Handlers
import NgkNet.Voresmain.Owning
import NgkNet.Voresmain.Routes
import NgkNet.Weather.Addressing
import NgkNet.Weather.Answering
import NgkNet.Weather.Atomicity
import NgkNet.Weather.Blocking
import NgkNet.Weather.Chat
import NgkNet.Weather.Conversion
import NgkNet.Weather.Echo
import NgkNet.Weather.Handlers
import NgkNet.Weather.Idempotence
import NgkNet.Weather.Listing
import NgkNet.Weather.Loops
import NgkNet.Weather.Page
import NgkNet.Weather.Paths
import NgkNet.Weather.Registry
import NgkNet.Weather.Routes
import NgkNet.Weather.Server
import NgkNet.Weather.Service
import NgkNet.Weather.TableReads
