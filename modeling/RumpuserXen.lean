import RumpuserXen.Thread
import RumpuserXen.Scan
import RumpuserXen.Blk
import RumpuserXen.Bio
import RumpuserXen.System
import RumpuserXen.Frame
import RumpuserXen.Lists
import RumpuserXen.Stack
import RumpuserXen.Devices
import RumpuserXen.Sleep
import RumpuserXen.Irq
import RumpuserXen.Requests
import RumpuserXen.Pump
import RumpuserXen.Fairness
import RumpuserXen.Join
import RumpuserXen.Timeout
import RumpuserXen.LazyInit
import RumpuserXen.Cpu
import RumpuserXen.Handles
import RumpuserXen.Hypercalls
import RumpuserXen.Lifecycle
