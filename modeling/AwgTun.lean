import AwgTun.Lib.Control
import AwgTun.Lib.Bytes
import AwgTun.Lib.Text
import AwgTun.Lib.Base64
import AwgTun.Lib.RingBits
import AwgTun.Lib.NoisePattern
import AwgTun.Lib.InFlight
import AwgTun.Lib.Directory
import AwgTun.Lib.PrefixTable
import AwgTun.Lib.Trace
import AwgTun.Lib.TextWrite
import AwgTun.Lib.Settings
import AwgTun.Lib.NetAddr
import AwgTun.Lib.Pads
import AwgTun.Lib.Fair
import AwgTun.Lib.Galois
import AwgTun.Lib.Numeral
import AwgTun.Lib.LineLoop
import AwgTun.Lib.Epochs
import AwgTun.Crypto
import AwgTun.Amnezia.Random
import AwgTun.Amnezia.Config
import AwgTun.Amnezia.Cps
import AwgTun.Amnezia.Parse
import AwgTun.Amnezia.Chains
import AwgTun.Serialization
import AwgTun.Amnezia.Display
import AwgTun.Amnezia.Field
import AwgTun.Amnezia.Uapi
import AwgTun.Amnezia.Cuts
import AwgTun.Amnezia.FastRng
import AwgTun.Amnezia.Encoding
import AwgTun.Amnezia.Grammar
import AwgTun.Noise.Packet
import AwgTun.Noise.Session
import AwgTun.Noise.ReplayWindow
import AwgTun.Noise.CounterSpace
import AwgTun.Noise.Handshake
import AwgTun.Noise.Agreement
import AwgTun.Noise.RateLimiter
import AwgTun.Noise.Timers
import AwgTun.Noise.Tunn
import AwgTun.Noise.Decapsulate
import AwgTun.Noise.Frame
import AwgTun.Noise.Transport
import AwgTun.Noise.Padding
import AwgTun.Noise.Handlers
import AwgTun.Noise.Unauthenticated
import AwgTun.Noise.Run
import AwgTun.Noise.Turn
import AwgTun.Noise.Confirmed
import AwgTun.Noise.Framing
import AwgTun.Noise.Unframed
import AwgTun.Noise.Queue
import AwgTun.Noise.Retry
import AwgTun.Noise.Machine
import AwgTun.Noise.SessionAge
import AwgTun.Noise.Cookies
import AwgTun.Noise.Timestamp
import AwgTun.Noise.InFlight
import AwgTun.Noise.Clock
import AwgTun.Noise.Access
import AwgTun.Noise.Output
import AwgTun.Noise.Plain
import AwgTun.Noise.Inner
import AwgTun.Noise.Redraw
import AwgTun.Noise.Flush
import AwgTun.Noise.Overflow
import AwgTun.Noise.Uses
import AwgTun.Noise.History
import AwgTun.Noise.Delivery
import AwgTun.Phobos.Payload
import AwgTun.Phobos.Codec
import AwgTun.Phobos.Datagram
import AwgTun.Phobos.Hostile
import AwgTun.Phobos.Size
import AwgTun.Phobos.Checksum
import AwgTun.Phobos.Settings
import AwgTun.Device.AllowedIps
import AwgTun.Device.Device
import AwgTun.Device.Register
import AwgTun.Device.Period
import AwgTun.Device.Routing
import AwgTun.Device.Mtu
import AwgTun.Device.Api
import AwgTun.Device.Receive
import AwgTun.Device.EventLoop
import AwgTun.Device.Traffic
import AwgTun.Device.Changes
import AwgTun.Device.Replay
import AwgTun.Device.Roaming
import AwgTun.Device.Removal
import AwgTun.Device.Indices
import AwgTun.Device.Cover
import AwgTun.Device.Overlay
import AwgTun.Device.WireFormat
import AwgTun.Device.Startup
import AwgTun.Device.Sockets
import AwgTun.Device.DevLock
import AwgTun.Device.Upgrade
import AwgTun.Device.Workers
import AwgTun.Device.Ledger
import AwgTun.Device.Request
import AwgTun.Device.Lines
import AwgTun.Device.Freeze
import AwgTun.Ffi
import AwgTun.Ffi.Config
