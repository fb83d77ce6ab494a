import Socksprox.Lib.Exec
import Socksprox.Ringbuff
import Socksprox.Mapped
import Socksprox.Sane
import Socksprox.Run.Bypass
import Socksprox.Run.Drain
import Socksprox.Run.Gate
import Socksprox.Run.Ledger
import Socksprox.Run.Lifecycle
import Socksprox.Run.Nonblock
import Socksprox.Run.Resolver
import Socksprox.Run.Advertise
import Socksprox.Run.Bind
import Socksprox.Run.HalfClose
import Socksprox.Run.Headroom
import Socksprox.Run.Pipelined
import Socksprox.Run.Stranded
import Socksprox.Run.Parsing
import Socksprox.Run.Attempts
import Socksprox.Run.OneReply
import Socksprox.Atomic
import Socksprox.ConfigLines
import Socksprox.Settings
import Socksprox.Networks
import Socksprox.StoreConfig
import Socksprox.AddressKeys
import Socksprox.BlockRules
import Socksprox.Logger
import Socksprox.AccessLog
import Socksprox.ResolverPipe
import Socksprox.ResolverReads
import Socksprox.Run.Session
import Socksprox.Run.Alone
import Socksprox.ParseConfigs
import Socksprox.FileMeaning
import Socksprox.Run.Literal
import Socksprox.LoggerJoin
import Socksprox.Startup
import Socksprox.Lib.Rank
import Socksprox.Run.Alert
import Socksprox.Run.Bounded
import Socksprox.Run.Unrefused
