import FrpRs.Data.Bytes
import FrpRs.Data.Fallible
import FrpRs.Data.Lines
import FrpRs.Data.Text
import FrpRs.Data.Neighbours
import FrpRs.Data.Blocks
import FrpRs.Data.OrderedMap
import FrpRs.Data.Overflow
import FrpRs.Data.Run
import FrpRs.Data.Tasks
import FrpRs.Data.UriReference
import FrpRs.Data.Poll
import FrpRs.Data.Feeding
import FrpRs.Data.Replay
import FrpRs.Data.Ledger
import FrpRs.Data.Serial
import FrpRs.Data.GaussJordan
import FrpRs.Data.Vandermonde
import FrpRs.Data.Table
import FrpRs.Data.Sparse
import FrpRs.Data.Ranked
import FrpRs.Data.Weight
import FrpRs.Data.ByteStream
import FrpRs.Data.IpText
import FrpRs.Kcp.Segment
import FrpRs.Kcp.Protocol
import FrpRs.Kcp.Operations
import FrpRs.Kcp.Flush
import FrpRs.Kcp.Window
import FrpRs.Kcp.Input
import FrpRs.Kcp.Receive
import FrpRs.Kcp.Ack
import FrpRs.Kcp.Checked
import FrpRs.Kcp.Bounds
import FrpRs.Kcp.Wire
import FrpRs.Kcp.Stream
import FrpRs.Kcp.RoundTripTime
import FrpRs.Kcp.AckRemoval
import FrpRs.Kcp.WrapAround
import FrpRs.Kcp.Messages
import FrpRs.Udp.Binary
import FrpRs.Udp.RoundTrip
import FrpRs.Udp.NetText
import FrpRs.Udp.Native
import FrpRs.Udp.DataPlane
import FrpRs.Fec.Gf256
import FrpRs.Fec.ReedSolomon
import FrpRs.Kcp.Session
import FrpRs.Kcp.Grouping
import FrpRs.Kcp.Shards
import FrpRs.Kcp.Recovery
import FrpRs.Kcp.SessionRun
import FrpRs.Kcp.SendQueue
import FrpRs.Kcp.Delivery
import FrpRs.Kcp.Socket
import FrpRs.Kcp.Isolation
import FrpRs.Protocol.Frame
import FrpRs.Protocol.Base64
import FrpRs.Vnet.Routes
import FrpRs.Vnet.Server
import FrpRs.Vnet.Isolation
import FrpRs.Vnet.Router
import FrpRs.Vnet.VisitorRoutes
import FrpRs.NatHole.SessionTable
import FrpRs.NatHole.Classify
import FrpRs.NatHole.Analysis
import FrpRs.NatHole.Recommendation
import FrpRs.NatHole.Rotation
import FrpRs.NatHole.Response
import FrpRs.NatHole.CandidatePorts
import FrpRs.NatHole.Controller
import FrpRs.NatHole.Expiry
import FrpRs.NatHole.Isolation
import FrpRs.NatHole.Learning
import FrpRs.NatHole.Stun
import FrpRs.Server.ClientRegistry
import FrpRs.Server.WorkPool
import FrpRs.Server.ReverseChannels
import FrpRs.Server.ProxyManager
import FrpRs.Server.ProxyIndexes
import FrpRs.Server.RouteTables
import FrpRs.Server.RouteLookup
import FrpRs.Server.Registration
import FrpRs.Server.ConnectHosts
import FrpRs.Server.AuthorityHosts
import FrpRs.Server.LoginThrottle
import FrpRs.Server.VhostIndexing
import FrpRs.Server.Teardown
import FrpRs.Server.RegistryCalls
import FrpRs.Server.PortBudget
import FrpRs.Server.PortAllocation
import FrpRs.Server.PortView
import FrpRs.Server.Sweep
import FrpRs.Server.TcpGroups
import FrpRs.Server.PortMarks
import FrpRs.Server.PortOwnership
import FrpRs.Server.GroupDispatch
import FrpRs.Server.GroupSelection
import FrpRs.Server.HealthTracking
import FrpRs.Server.Rejection
import FrpRs.Server.VhostRegistrations
import FrpRs.Server.VhostRouting
import FrpRs.Server.TcpMuxRoutes
import FrpRs.Server.RouteAgreement
import FrpRs.Server.Replay
import FrpRs.Http.Textproto
import FrpRs.Http.H2cRequest
import FrpRs.Http.H2cResponse
import FrpRs.Http.H2cRelay
import FrpRs.Http.H2cBuffer
import FrpRs.Http.ClientHello
import FrpRs.Http.VhostHead
import FrpRs.Http.ConnectHead
import FrpRs.Http.HopByHop
import FrpRs.Http.VhostForward
import FrpRs.Http.Injector
import FrpRs.Http.InjectorStream
import FrpRs.Http.InjectorNames
import FrpRs.Http.ChunkedSkipping
import FrpRs.Http.ChunkedBodies
import FrpRs.Stream.Cfb
import FrpRs.Stream.CfbPieces
import FrpRs.Stream.CipherWriter
import FrpRs.Stream.CipherSessions
import FrpRs.Stream.Snappy
import FrpRs.Stream.Checksum
import FrpRs.Stream.SnappyReader
import FrpRs.Stream.SnappyWriter
import FrpRs.Stream.WsByteStream
import FrpRs.Stream.WsFrames
import FrpRs.Stream.WsRoundTrip
import FrpRs.Stream.WsFrameLimit
import FrpRs.Stream.WsInbound
import FrpRs.Stream.WsSessions
import FrpRs.Stream.WsIntegrity
import FrpRs.Stream.Aead
import FrpRs.Protocol.Handshake
import FrpRs.Protocol.HandshakeAgreement
import FrpRs.Stream.AeadSessions
import FrpRs.Stream.AeadReader
import FrpRs.Stream.AeadRoundTrip
import FrpRs.Stream.AeadIntegrity
import FrpRs.Client.Config
import FrpRs.Client.Companions
import FrpRs.Client.Reload
import FrpRs.Client.ReloadDelta
import FrpRs.Client.ReloadConvergence
import FrpRs.Client.ReloadOutcome
import FrpRs.Client.HealthMonitor
import FrpRs.Client.Redirects
import FrpRs.Data.Calendar
import FrpRs.Client.HttpDates
import FrpRs.Client.Capsules
import FrpRs.Client.StaticPaths
import FrpRs.Client.Registration
import FrpRs.Client.CompanionNames
import FrpRs.Client.CompanionInjection
import FrpRs.Client.StartUp
import FrpRs.Client.Session
import FrpRs.Client.HealthGate
import FrpRs.Client.ServerClose
import FrpRs.Client.WireNames
import FrpRs.Client.Snapshots
import FrpRs.Client.RegistrationOutcome
