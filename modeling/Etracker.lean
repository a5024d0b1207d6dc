import Etracker.Foundation.Chain
import Etracker.Garbage.Pass
import Etracker.HashList.FiniteMap
import Etracker.HashList.MapData
import Etracker.Tracker.Counters
import Etracker.Tracker.Expiry
import Etracker.Tracker.Neutral
import Etracker.Tracker.Protocols
import Etracker.Tracker.Removal
import Etracker.Tracker.Roles
import Etracker.Data.Torrents
import Etracker.Data.Masked
import Etracker.Data.Request
import Etracker.Uri.Decode
import Etracker.Sockets.Handshake
import Etracker.Udp.Requests
import Etracker.Semaphores.Order
import Etracker.Http.Framing
import Etracker.Http.Segments
import Etracker.Basic.Password
import Etracker.Udp.Replies
import Etracker.Locations.Search
import Etracker.Locations.Load
import Etracker.Uri.Forwarded
import Etracker.Uri.Separate
import Etracker.Tracker.Stored
import Etracker.Tracker.Levels
import Etracker.Http.Respond
import Etracker.Data.Decoded
import Etracker.Interval.Update
import Etracker.Interval.Settle
import Etracker.Argument.Workers
import Etracker.Basic.Sha1
import Etracker.Basic.Base64
import Etracker.Garbage.Report
import Etracker.HashList.Visits
import Etracker.Http.Send
import Etracker.Locations.Rows
import Etracker.Blocks.Calls
import Etracker.Tracker.Serial
import Etracker.Tracker.Known
import Etracker.Tracker.Wanted
import Etracker.Locations.Loading
import Etracker.Sockets.Lives
import Etracker.Blocks.UdpWorker
import Etracker.Blocks.TcpRuns
import Etracker.Http.Delimited
import Etracker.Http.Confined
import Etracker.Udp.Ledger
