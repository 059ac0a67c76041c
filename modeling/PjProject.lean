import PjProject.Base64.RoundTrip
import PjProject.Dialog.RouteSet
import PjProject.Dialog.Sequence
import PjProject.Dns.Query
import PjProject.Evsub.Refresh
import PjProject.Evsub.Timers
import PjProject.Fifobuf.Runs
import PjProject.HashTable.Refinement
import PjProject.HashTable.Tolower
import PjProject.Ice.CheckList
import PjProject.Ice.Completion
import PjProject.Ice.Components
import PjProject.Ice.Roles
import PjProject.Jbuf.Delivery
import PjProject.Jbuf.Runs
import PjProject.Json.Inside
import PjProject.Parser.ArrayStores
import PjProject.Parser.Multipart
import PjProject.Pool.Alloc
import PjProject.Pool.Factory
import PjProject.Print.Fields
import PjProject.Resolver.CacheRuns
import PjProject.Rtp.FractionLost
import PjProject.Rtp.Sdes
import PjProject.Sdp.Limits
import PjProject.Sdp.PrintRoom
import PjProject.Sdp.Reoffer
import PjProject.Sdp.Runs
import PjProject.SessTimer.Response
import PjProject.Sip.Fidelity
import PjProject.Sip.Progress
import PjProject.Sip.StrictRoute
import PjProject.Sip.Timeouts
import PjProject.Sip.TsxKey
import PjProject.Srv.Completion
import PjProject.Srv.Ordering
import PjProject.Steg.FileName
import PjProject.Steg.Sending
import PjProject.Steg.Transport
import PjProject.Stun.ClientTsx
import PjProject.Stun.EncodeBounds
import PjProject.Stun.PacketCheck
import PjProject.Stun.Placement
import PjProject.Timer.Runs
import PjProject.Turn.LifeCycle
import PjProject.Turn.Reads
import PjProject.Wsola.DiscardExact
import PjProject.Wsola.Queue
import PjProject.Xml.Sound
