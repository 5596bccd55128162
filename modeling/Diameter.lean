import Diameter.Base.Answer
import Diameter.Base.Negotiation
import Diameter.Base.Repair
import Diameter.Dict.Order
import Diameter.Dict.Registration
import Diameter.Dispatch.Queue
import Diameter.Dns.Bounded
import Diameter.Peer.HopByHop
import Diameter.Pending.Gate
import Diameter.Pending.Ownership
import Diameter.Protocol.Identifiers
import Diameter.Protocol.Outcomes
import Diameter.Protocol.PeerDisconnect
import Diameter.Protocol.QueuedReply
import Diameter.Protocol.Replies
import Diameter.Protocol.Termination
import Diameter.Protocol.Timing
import Diameter.Reader.Transparent
import Diameter.Validation.Example
import Diameter.Validation.FlagLists
import Diameter.Watchdog.Traces
import Diameter.Wire.Evidence
import Diameter.Wire.Grouped
import Diameter.Wire.Retry
import Diameter.Wire.Robust
import Diameter.Wire.Unknown
