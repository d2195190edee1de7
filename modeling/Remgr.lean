import Remgr.Frps.Frame
import Remgr.Frps.Crypto
import Remgr.Proofs.CryptoLink
import Remgr.Frps.Msg
import Remgr.Proofs.MessageCodec
import Remgr.Lib.Transition
import Remgr.Lib.Record
import Remgr.Lib.Text
import Remgr.Frps.Config
import Remgr.Frps.Server.State
import Remgr.Frps.Server.Registration
import Remgr.Frps.Server.Step
import Remgr.Proofs.ServerSteps
import Remgr.Lib.Tenancy
import Remgr.Proofs.Holdings
import Remgr.Proofs.Listeners
import Remgr.Frps.Server.Stats
import Remgr.Proofs.ConnTotals
import Remgr.Proofs.Ports
import Remgr.Proofs.CloseLocks
import Remgr.Proofs.Admission
import Remgr.Lib.Succession
import Remgr.Proofs.Sessions
import Remgr.Proofs.Rejection
import Remgr.Proofs.Handover
import Remgr.Lib.Base64
import Remgr.Lib.IpAddr
import Remgr.Lib.JsonSize
import Remgr.Frps.Server.Tunnel
import Remgr.Proofs.FrameSize
import Remgr.Proofs.ReplySize
import Remgr.Proofs.Calls
import Remgr.Lib.Tally
import Remgr.Proofs.Turns
import Remgr.Proofs.Online
import Remgr.Proofs.WorkPool
import Remgr.Frpc.Client.State
import Remgr.Frpc.Client.Step
import Remgr.Proofs.Supervision
import Remgr.Proofs.Reconfigure
import Remgr.Proofs.Restart
import Remgr.Proofs.ClientStatus
import Remgr.Proofs.ProxyOffers
import Remgr.Frpc.WorkConns
import Remgr.Proofs.Registry
import Remgr.Proofs.Counters
import Remgr.Frps.Wire
import Remgr.Lib.IpParse
import Remgr.Frpc.UdpPacket
import Remgr.Udp.Relay
import Remgr.Proofs.UdpRelay
import Remgr.Proofs.UdpPackets
import Remgr.Udp.Tunnels
import Remgr.Proofs.UdpTunnels
import Remgr.Proofs.UdpSockets
import Remgr.Console.Config
import Remgr.Console.State
import Remgr.Console.Step
import Remgr.Proofs.ConsoleShape
import Remgr.Proofs.ConfigFile
import Remgr.Proofs.ConfigSync
import Remgr.Proofs.ConsoleReads
import Remgr.Proofs.ConsoleSessions
import Remgr.Proofs.ConfigEdits
import Remgr.Lib.Cuts
import Remgr.Lib.Lines
import Remgr.Lib.Utf8
import Remgr.Signals.Record
import Remgr.Proofs.SignalRecords
import Remgr.Turn.TlsConn
import Remgr.Proofs.TurnFraming
import Remgr.Console.Serve
import Remgr.Proofs.ConsoleServe
import Remgr.Certs.Write
import Remgr.Proofs.CertPairs
import Remgr.Console.Persist
import Remgr.Proofs.ConfigRoundTrip
import Remgr.Modules.State
import Remgr.Modules.Step
import Remgr.Proofs.ModuleTurns
import Remgr.Proofs.StopPrevails
import Remgr.Proofs.FrpsToken
import Remgr.Lib.Tlv
import Remgr.Proofs.StunBinding
import Remgr.Lib.AsciiCase
import Remgr.Frpc.ProxyLine
import Remgr.Proofs.ProxyConfig
import Remgr.Proofs.ProxyLine
import Remgr.Proofs.ProxyForm
import Remgr.Console.Login
import Remgr.Proofs.LoginThrottle
import Remgr.Lib.Toml
import Remgr.Modules.EasyTier
import Remgr.Proofs.InstanceToml
import Remgr.Lib.Strip
import Remgr.Console.Cookies
import Remgr.Proofs.ConsoleCookie
import Remgr.Lib.SetCookie
import Remgr.Proofs.UpstreamCookie
import Remgr.Lib.SocketParse
import Remgr.Turn.Bind
import Remgr.Proofs.RelayBind
import Remgr.Turn.Serve
import Remgr.Proofs.TurnTeardown
import Remgr.Logging.File
import Remgr.Proofs.LogFile
import Remgr.Lib.Unfinished
import Remgr.Lib.Utf8Cuts
import Remgr.Logging.Hub
import Remgr.Proofs.LogHub
import Remgr.Lib.SocketTarget
import Remgr.Frpc.Dial
import Remgr.Proofs.ServerName
import Remgr.Proofs.CipherPieces
import Remgr.Lib.ByteSource
import Remgr.Frps.Server.Accept
import Remgr.Proofs.SniffedBytes
import Remgr.Lib.Custody
import Remgr.Proofs.WorkCustody
import Remgr.Proofs.ServerOnward
import Remgr.Proofs.WorkOrigin
import Remgr.Proofs.CutOff
import Remgr.Proofs.Replies
import Remgr.Proofs.Stopping
import Remgr.Proofs.ControlChannel
import Remgr.Lib.Pipe
import Remgr.Tcp.Pump
import Remgr.Tcp.Tunnel
import Remgr.Proofs.TcpTunnel
import Remgr.Proofs.TcpDrain
import Remgr.Frpc.Mux
import Remgr.Proofs.MuxOpen
import Remgr.Proofs.TurnShutdown
import Remgr.Logging.Shared
import Remgr.Proofs.LogShared
import Remgr.Lib.Ledger
import Remgr.Proofs.SessionHistory
import Remgr.Lib.FixedRecords
import Remgr.Signals.Acct
import Remgr.Proofs.AcctTail
import Remgr.Signals.Shutdown
import Remgr.Proofs.SignalShutdown
import Remgr.Proofs.ClientStop
