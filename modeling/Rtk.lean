import Rtk.Core.Programs
import Rtk.Lib.Memchr
import Rtk.Lib.Memmove
import Rtk.Properties.Acquires
import Rtk.Properties.AliveTasks
import Rtk.Properties.Bypass
import Rtk.Properties.Characters
import Rtk.Properties.Clients
import Rtk.Properties.ClockServer
import Rtk.Properties.Command
import Rtk.Properties.Copies
import Rtk.Properties.CyclicBuffers
import Rtk.Properties.Delays
import Rtk.Properties.Delivery
import Rtk.Properties.Destruction
import Rtk.Properties.Display
import Rtk.Properties.Echo
import Rtk.Properties.Editor
import Rtk.Properties.Events
import Rtk.Properties.Formatting
import Rtk.Properties.FreeList
import Rtk.Properties.Freshness
import Rtk.Properties.Meeting
import Rtk.Properties.NameServer
import Rtk.Properties.Names
import Rtk.Properties.Order
import Rtk.Properties.Priorities
import Rtk.Properties.Probing
import Rtk.Properties.Queues
import Rtk.Properties.Receive
import Rtk.Properties.Reception
import Rtk.Properties.Refinement
import Rtk.Properties.Replies
import Rtk.Properties.ReplyOrder
import Rtk.Properties.Resumption
import Rtk.Properties.Reuse
import Rtk.Properties.RpsQuits
import Rtk.Properties.RpsRounds
import Rtk.Properties.Scheduler
import Rtk.Properties.Seeds
import Rtk.Properties.SerialServer
import Rtk.Properties.Stack
import Rtk.Properties.Statistics
import Rtk.Properties.Subtree
import Rtk.Properties.TasksStats
import Rtk.Properties.Ticks
import Rtk.Properties.Tids
import Rtk.Properties.Tokens
import Rtk.Properties.Transmission
import Rtk.Properties.Unblocking
import Rtk.Properties.UserTime
