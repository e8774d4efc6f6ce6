import Penetrate.Collections.HashMap
import Penetrate.Collections.Component
import Penetrate.Collections.BiKeyed
import Penetrate.Encoding.Codec
import Penetrate.Symbolic.Knowledge
import Penetrate.Concurrent.Machine
import Penetrate.Concurrent.RwLock
import Penetrate.Concurrent.Mpsc
import Penetrate.Concurrent.Conduit
import Penetrate.Concurrent.Dialogue
import Penetrate.Memory.Heap
import Penetrate.Memory.Table
import Penetrate.Protocol
import Penetrate.Wire
import Penetrate.UdpFraming
import Penetrate.Config
import Penetrate.ConfigAccepts
import Penetrate.Outcome
import Penetrate.ConfigWatcher
import Penetrate.Instance
import Penetrate.Client.ControlChannel
import Penetrate.Client.Replacement
import Penetrate.Client.DataChannel
import Penetrate.Client.Steps
import Penetrate.Client.PortMap
import Penetrate.Client.Flows
import Penetrate.Client.PortMapLock
import Penetrate.Client.Ownership
import Penetrate.MultiMap
import Penetrate.MultiMapRefines
import Penetrate.RawMultiMap
import Penetrate.Server.UdpPool
import Penetrate.Server.Service
import Penetrate.Server.Requests
import Penetrate.Server.Settles
import Penetrate.Server.Accounting
import Penetrate.Server.UdpAccounting
import Penetrate.Tunnel.Forward
import Penetrate.Tunnel.Copy
import Penetrate.Tunnel.Steps
import Penetrate.Tunnel.Carries
import Penetrate.Tunnel.Delivers
import Penetrate.Server.Teardown
import Penetrate.Server.Connections
import Penetrate.Server.Table
import Penetrate.Server.Schedules
import Penetrate.Server.HotReload
import Penetrate.Server.Shutdown
import Penetrate.Handshake
import Penetrate.ChannelHandshake
import Penetrate.Heartbeat
import Penetrate.Server.TableLock
import Penetrate.Server.TableFreeze
import Penetrate.Server.Registration
import Penetrate.Server.FailedHandshake
import Penetrate.Server.Window
import Penetrate.Server.Routing
import Penetrate.Server.Gate
import Penetrate.Server.GateRefines
import Penetrate.Network
import Penetrate.Relay
import Penetrate.UdpPath
import Penetrate.Backpressure
import Penetrate.Supervisor
import Penetrate.Due
import Penetrate.Watcher
import Penetrate.Restart
import Penetrate.Agreement
import Penetrate.Transport
import Penetrate.TransportSafety
import Penetrate.Validated
import Penetrate.Process
import Penetrate.Convergence
