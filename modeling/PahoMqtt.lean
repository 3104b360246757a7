import PahoMqtt.Packets.Bytes
import PahoMqtt.Packets.Length
import PahoMqtt.Packets.FixedHeader
import PahoMqtt.Packets.ControlPacket
import PahoMqtt.Packets.RoundTrip
import PahoMqtt.Packets.Decode
import PahoMqtt.Packets.Framing
import PahoMqtt.Router.Match
import PahoMqtt.Router.Routes
import PahoMqtt.Router.Dispatch
import PahoMqtt.Router.Lock
import PahoMqtt.Net.Inbound
import PahoMqtt.Net.Keepalive
import PahoMqtt.Net.Logic
import PahoMqtt.Net.Outgoing
import PahoMqtt.Pool.Slices
import PahoMqtt.Pool.Release
import PahoMqtt.Pool.Session
import PahoMqtt.Pool.Refinement
import PahoMqtt.Pool.Buffers
import PahoMqtt.Net.Receiver
