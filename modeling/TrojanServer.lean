import TrojanServer.StepMachine
import TrojanServer.FifoTransfer
import TrojanServer.FrameDecoding
import TrojanServer.StableDecoding
import TrojanServer.AsyncIo
import TrojanServer.PollCopy
import TrojanServer.PollCopySpec
import TrojanServer.Relay
import TrojanServer.RelaySpec
import TrojanServer.RelayIntegrity
import TrojanServer.RelayAccounting
import TrojanServer.RelayActivity
import TrojanServer.RelayTimeouts
import TrojanServer.RelayHalfClose
import TrojanServer.IpText
import TrojanServer.Cidr
import TrojanServer.IpFilter
import TrojanServer.IpFilterSpec
import TrojanServer.Protocol
import TrojanServer.AddressCodec
import TrojanServer.UdpFraming
import TrojanServer.RequestGrammar
import TrojanServer.RequestReader
import TrojanServer.DecoderAgreement
import TrojanServer.ConnectSession
import TrojanServer.ConnectUpload
import TrojanServer.ConnectBilling
import TrojanServer.Dns
import TrojanServer.ResolverOrder
import TrojanServer.Hooks
import TrojanServer.AclRouter
import TrojanServer.IpLiterals
import TrojanServer.ProxyScreen
import TrojanServer.DirectConnect
import TrojanServer.UdpAssociate
import TrojanServer.UdpOutbound
import TrojanServer.UdpSession
import TrojanServer.UdpReassembly
import TrojanServer.UdpReadLimit
import TrojanServer.GrpcCodec
import TrojanServer.GrpcVarint
import TrojanServer.GrpcFrames
import TrojanServer.GrpcReceive
import TrojanServer.GrpcInbound
import TrojanServer.GrpcReassembly
import TrojanServer.GrpcSend
import TrojanServer.GrpcSendSpec
import TrojanServer.GrpcDelivery
import TrojanServer.GrpcShutdown
import TrojanServer.GrpcWindow
import TrojanServer.GrpcDeadlock
import TrojanServer.ConnectionManager
import TrojanServer.ConnectionIndex
import TrojanServer.Revocation
import TrojanServer.RevocationIndex
import TrojanServer.RevocationSafety
import TrojanServer.VarintExactness
import TrojanServer.CheckedOps
import TrojanServer.GrpcIndexing
import TrojanServer.GrpcFormat
import TrojanServer.GrpcMemory
import TrojanServer.GrpcQueue
import TrojanServer.StrSlice
import TrojanServer.GrpcPaths
import TrojanServer.Streaks
import TrojanServer.Heartbeat
import TrojanServer.HeartbeatTimeout
import TrojanServer.GrpcRun
import TrojanServer.GrpcIdle
import TrojanServer.Config
import TrojanServer.RequestStability
import TrojanServer.RequestCuts
import TrojanServer.RequestLimit
import TrojanServer.WebSocket
import TrojanServer.WebSocketRead
import TrojanServer.WebSocketClose
import TrojanServer.Semaphore
import TrojanServer.Transport
import TrojanServer.ServerLoop
import TrojanServer.ServerPermits
import TrojanServer.ServerStreams
import TrojanServer.GrpcReadEnd
import TrojanServer.Hosted
import TrojanServer.ConnectClient
import TrojanServer.WebSocketStream
import TrojanServer.GrpcStream
import TrojanServer.ConnectTransport
import TrojanServer.UdpDatagrams
import TrojanServer.UdpClient
import TrojanServer.UdpTransport
import TrojanServer.UdpEnds
import TrojanServer.UdpRouting
import TrojanServer.RelayWakeups
import TrojanServer.Shutdown
import TrojanServer.ShutdownPass
import TrojanServer.ShutdownDrain
