import MicroEmu.Tasks.Fairness
import MicroEmu.Tasks.Idempotence
import MicroEmu.Tasks.Isolation
import MicroEmu.Tasks.IterationOrder
import MicroEmu.Tasks.Timers
import MicroEmu.Tasks.Selection
import MicroEmu.Tasks.Echoes
import MicroEmu.Tasks.Reconnect
import MicroEmu.Bridge.Pairing
import MicroEmu.Daemon.Atomicity
import MicroEmu.Daemon.Delivery
import MicroEmu.Firmware.RoundTrip
import MicroEmu.Firmware.Streams
import MicroEmu.Firmware.Fifos
import MicroEmu.Protocol.Recovery
import MicroEmu.Protocol.Isolation
import MicroEmu.Feeds.Logs
import MicroEmu.Feeds.Approvals
import MicroEmu.Feeds.Publishable
import MicroEmu.Feeds.SnapshotSizes
import MicroEmu.Proxy.AutostartLock
import MicroEmu.Proxy.Completion
import MicroEmu.Daemon.Buffers
import MicroEmu.Daemon.Departures
import MicroEmu.Daemon.Identities
import MicroEmu.Daemon.Capacities
import MicroEmu.Feeds.Turns
import MicroEmu.Daemon.SlotOwners
import MicroEmu.Routing.Fusion
import MicroEmu.Bridge.Contexts
import MicroEmu.Bridge.Navigation
import MicroEmu.Tasks.AutoSelection
import MicroEmu.Controllers.KeyStatus
import MicroEmu.Controllers.Edges
import MicroEmu.Daemon.PluginEvents
import MicroEmu.Plugin.Gestures
import MicroEmu.Plugin.Replies
import MicroEmu.Plugin.Handshake
import MicroEmu.Firmware.Downlink
import MicroEmu.Protocol.Descriptors
import MicroEmu.Controllers.Paint
import MicroEmu.Bridge.Fetches
import MicroEmu.Desktop.ProcessCache
import MicroEmu.Daemon.Supervision
import MicroEmu.Desktop.ModelConfig
import MicroEmu.Plugin.Reconnect
import MicroEmu.Desktop.Automation
