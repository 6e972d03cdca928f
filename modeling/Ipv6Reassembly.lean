import Ipv6Reassembly.Records
import Ipv6Reassembly.Links
import Ipv6Reassembly.Fragments
import Ipv6Reassembly.Engine
import Ipv6Reassembly.Shape
import Ipv6Reassembly.Frame
import Ipv6Reassembly.Completion
import Ipv6Reassembly.Sweep
import Ipv6Reassembly.Structure
import Ipv6Reassembly.Invariant
import Ipv6Reassembly.Keys
import Ipv6Reassembly.Ledger
import Ipv6Reassembly.Deletion
import Ipv6Reassembly.Failures
import Ipv6Reassembly.Loops
import Ipv6Reassembly.Timers
import Ipv6Reassembly.Stranded
import Ipv6Reassembly.Teardown
import Ipv6Reassembly.Lifetime
import Ipv6Reassembly.Datagram
import Ipv6Reassembly.PayloadLength
import Ipv6Reassembly.Delivery
import Ipv6Reassembly.HonestRuns
import Ipv6Reassembly.InOrder
import Ipv6Reassembly.AnyOrder
import Ipv6Reassembly.Attached
import Ipv6Reassembly.Overlaps
