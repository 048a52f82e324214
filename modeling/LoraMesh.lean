import LoraMesh.Lib.Bytes
import LoraMesh.Lib.Runs
import LoraMesh.Lib.Window
import LoraMesh.Core.Frame
import LoraMesh.Core.Security
import LoraMesh.Core.Clock
import LoraMesh.Core.Relay
import LoraMesh.Core.Pairing
import LoraMesh.Engine.Persist
import LoraMesh.Engine.Ceremony
import LoraMesh.Engine.Receive
import LoraMesh.Engine.Op
import LoraMesh.Engine.Sound
import LoraMesh.Engine.Restore
import LoraMesh.Engine.Device
import LoraMesh.Engine.Nonce
import LoraMesh.Engine.Delivery
import LoraMesh.Engine.Activation
import LoraMesh.Engine.Trust
import LoraMesh.Engine.Hours
import LoraMesh.Firmware.Gate
import LoraMesh.Engine.Coherence
import LoraMesh.Firmware.Radio
import LoraMesh.Firmware.World
import LoraMesh.Firmware.Usb
import LoraMesh.Firmware.Runtime
import LoraMesh.Firmware.Calls
import LoraMesh.Lib.Async
import LoraMesh.Firmware.Walk
import LoraMesh.Firmware.Enable
import LoraMesh.Firmware.FailClosed
import LoraMesh.Firmware.Ports
import LoraMesh.Engine.Mutation
import LoraMesh.Engine.Timekeeping
import LoraMesh.Firmware.Arm
import LoraMesh.Core.Lifetime
import LoraMesh.Firmware.Forwards
import LoraMesh.Firmware.Echoes
import LoraMesh.Firmware.Tuning
import LoraMesh.Core.Burst
import LoraMesh.Core.Replay
import LoraMesh.Core.Suppression
import LoraMesh.Core.Transparency
import LoraMesh.Core.Transport
import LoraMesh.Lib.Json
import LoraMesh.Engine.Migration
import LoraMesh.Engine.Invisible
import LoraMesh.Core.Honest
import LoraMesh.Engine.Blocking
import LoraMesh.Engine.Agreement
import LoraMesh.Engine.Passage
import LoraMesh.Firmware.Others
import LoraMesh.Firmware.Replies
import LoraMesh.Core.Compat
import LoraMesh.Firmware.Assembly
import LoraMesh.Firmware.Received
import LoraMesh.Host.Compat
import LoraMesh.Host.Exchange
import LoraMesh.Host.Records
import LoraMesh.Firmware.Configured
import LoraMesh.Firmware.Flash
import LoraMesh.Firmware.PowerCycle
import LoraMesh.Firmware.Pings
import LoraMesh.Host.Bus
import LoraMesh.Host.Contacts
import LoraMesh.Host.Dropped
import LoraMesh.Host.Elf
import LoraMesh.Host.Folding
import LoraMesh.Host.Audit
import LoraMesh.Host.History
import LoraMesh.Host.Chess
import LoraMesh.Host.Refresh
