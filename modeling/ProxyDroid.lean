import ProxyDroid.CallSemantics
import ProxyDroid.HandlerPipeline
import ProxyDroid.ConnectionTypes
import ProxyDroid.ConnectionHandlers
import ProxyDroid.ConnectionSystem
import ProxyDroid.ConnectionRules
import ProxyDroid.ConnectionInvariants
import ProxyDroid.CommandReply
import ProxyDroid.TunnelPhases
import ProxyDroid.ServerNamePhases
import ProxyDroid.HttpPhases
import ProxyDroid.TunnelMachine
import ProxyDroid.TunnelSimulation
import ProxyDroid.StreamPhases
import ProxyDroid.TunnelResults
import ProxyDroid.HandshakeStages
import ProxyDroid.HandshakeReplies
import ProxyDroid.HandshakeEvents
import ProxyDroid.HandshakeRuns
import ProxyDroid.HandshakeResults
import ProxyDroid.CloseRuns
import ProxyDroid.ConnectionNames
import ProxyDroid.CloseContracts
import ProxyDroid.RelayRuns
import ProxyDroid.PipelineViews
import ProxyDroid.InterceptedWrites
import ProxyDroid.InterceptedMessages
import ProxyDroid.InterceptedRuns
import ProxyDroid.MessageFraming
import ProxyDroid.TlsTermination
import ProxyDroid.InterceptionDecisions
import ProxyDroid.ProcessGuard
import ProxyDroid.ProcessPool
import ProxyDroid.ProcessPoolRuns
import ProxyDroid.ProcessPoolResults
import ProxyDroid.ProtectProtocol
import ProxyDroid.ProtectRuns
import ProxyDroid.ProtectResults
import ProxyDroid.ServiceLifecycle
import ProxyDroid.ServiceRuns
import ProxyDroid.CharacterSequences
import ProxyDroid.CharacterQuoting
import ProxyDroid.Commandline
import ProxyDroid.Certificates
import ProxyDroid.ServerRestart
import ProxyDroid.CheckedPrograms
import ProxyDroid.SocksClient
import ProxyDroid.SocksClientRuns
import ProxyDroid.TcpRelay
import ProxyDroid.TcpRelayStates
import ProxyDroid.TcpRelayRuns
import ProxyDroid.TcpClients
import ProxyDroid.BalancedTree
import ProxyDroid.TreeOperations
import ProxyDroid.OnesComplement
import ProxyDroid.UdpDatagrams
import ProxyDroid.RecentlyUsed
import ProxyDroid.UdpRelay
import ProxyDroid.UdpRelayStates
import ProxyDroid.UdpRelayRuns
import ProxyDroid.TunnelArguments
import ProxyDroid.TunnelStart
import ProxyDroid.SocketWrites
import ProxyDroid.HelperRequests
import ProxyDroid.DescriptorHandover
