import Sflow.C.Buffer
import Sflow.C.Cursor
import Sflow.C.Decode
import Sflow.C.Field
import Sflow.C.Fields
import Sflow.C.Heap
import Sflow.C.Layout
import Sflow.C.LinkedList
import Sflow.C.Str
import Sflow.C.Sum
import Sflow.C.Tables
import Sflow.C.Unset
import Sflow.C.Word
import Sflow.Config
import Sflow.DataList
import Sflow.DataList.Sized
import Sflow.Door
import Sflow.Driver.Daemonize
import Sflow.Driver.Locks
import Sflow.Driver.Lookup
import Sflow.Driver.Master
import Sflow.Driver.Polling
import Sflow.Driver.Sequence
import Sflow.Driver.Startup
import Sflow.Driver.Watch
import Sflow.Driver.Zonestat
import Sflow.ExpandingArray
import Sflow.ExpandingArray.Memory
import Sflow.Protocol.Adapters
import Sflow.Protocol.Aligned
import Sflow.Protocol.Branches
import Sflow.Protocol.Collector
import Sflow.Protocol.CpuTime
import Sflow.Protocol.Gathered
import Sflow.Protocol.Hostphy
import Sflow.Protocol.Hostv
import Sflow.Protocol.Ifgeneric
import Sflow.Protocol.Laid
import Sflow.Protocol.Lengths
import Sflow.Protocol.MacText
import Sflow.Protocol.Means
import Sflow.Protocol.Measured
import Sflow.Protocol.Overwritten
import Sflow.Protocol.Packed
import Sflow.Protocol.Padding
import Sflow.Protocol.Polled
import Sflow.Protocol.Processes
import Sflow.Protocol.Queries
import Sflow.Protocol.Records
import Sflow.Protocol.RoundTrip
import Sflow.Protocol.Structs
import Sflow.Protocol.Swap
import Sflow.Protocol.Totals
import Sflow.Protocol.UpTime
import Sflow.Protocol.Values
import Sflow.Protocol.Virtual
import Sflow.Protocol.Window
import Sflow.Protocol.Wire
import Sflow.Run.Basic
import Sflow.Run.Interleave
import Sflow.Run.Locks
import Sflow.Run.Logs
import Sflow.Run.Sweep
import Sflow.Sender.Agent
import Sflow.Sender.Alarm
import Sflow.Sender.Buffering
import Sflow.Sender.Delivered
import Sflow.Sender.Empty
import Sflow.Sender.Machine
import Sflow.Sender.Mtu
import Sflow.Sender.Numbered
import Sflow.Sender.Received
import Sflow.Sender.Taken
import Sflow.Sender.Tracked
import Sflow.Sfadm
import Sflow.Sfadm.Registered
import Sflow.Source
import Sflow.Source.Add
import Sflow.Source.Added
import Sflow.Source.Attribute
import Sflow.Source.Concurrent
import Sflow.Source.Items
import Sflow.Source.Ledger
import Sflow.Source.Maxfd
import Sflow.Source.Registry
import Sflow.Source.Remove
import Sflow.Source.Reply
import Sflow.Source.Request
import Sflow.Source.Served
import Sflow.Source.Show
import Sflow.Source.Words
import Sflow.Source.Zones
import Sflow.Util
import Sflow.Util.Itoa
