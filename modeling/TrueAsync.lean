import TrueAsync.Compression.GzipDrain
import TrueAsync.Core.BoundedQueue
import TrueAsync.Core.ConnArena
import TrueAsync.Core.OutputLifetime
import TrueAsync.Core.OutputOrder
import TrueAsync.Core.Pipeline
import TrueAsync.Core.WorkerRegistry
import TrueAsync.Formats.MultipartRoundTrip
import TrueAsync.Formats.MultipartUploads
import TrueAsync.Formats.PartContents
import TrueAsync.Grpc.Framing
import TrueAsync.Http1.Lifetime
import TrueAsync.Http1.Persistence
import TrueAsync.Http1.ResponseGrammar
import TrueAsync.Http1.Smuggling
import TrueAsync.Http1.Splitting
import TrueAsync.Http2.BodyStream
import TrueAsync.Http2.StreamGate
import TrueAsync.Http3.Admission
import TrueAsync.Response.EventStream
import TrueAsync.Static.Disposition
import TrueAsync.Static.Hidden
import TrueAsync.Static.ReadBudget
import TrueAsync.Websocket.ClientHandshake
import TrueAsync.Websocket.ClientRecv
import TrueAsync.Websocket.H2Ring
import TrueAsync.Websocket.HubGenerations
import TrueAsync.Websocket.HubQuery
import TrueAsync.Websocket.Inbound
import TrueAsync.Websocket.PublishRate
import TrueAsync.Websocket.SendResult
import TrueAsync.Websocket.SessionLifetime
import TrueAsync.Websocket.TopicMatch
import TrueAsync.Websocket.UpgradeOutcome
import TrueAsync.Wsclient.Receive
