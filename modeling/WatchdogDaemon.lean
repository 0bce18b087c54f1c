import WatchdogDaemon.Lib.Runs
import WatchdogDaemon.Lib.CallTree
import WatchdogDaemon.Lib.Monitor
import WatchdogDaemon.Lib.Phases
import WatchdogDaemon.Lib.RingBuffer
import WatchdogDaemon.Lib.Footprint
import WatchdogDaemon.Lib.Pieces
import WatchdogDaemon.Lib.Fields
import WatchdogDaemon.Heartbeat
import WatchdogDaemon.HeartbeatBounds
import WatchdogDaemon.Repair
import WatchdogDaemon.Retry
import WatchdogDaemon.Unlimited
import WatchdogDaemon.NoEntry
import WatchdogDaemon.Children
import WatchdogDaemon.CheckBin
import WatchdogDaemon.TableInv
import WatchdogDaemon.OneChild
import WatchdogDaemon.Trace
import WatchdogDaemon.Delivery
import WatchdogDaemon.MainLoop
import WatchdogDaemon.Processes
import WatchdogDaemon.SecondDaemon
import WatchdogDaemon.Ping
import WatchdogDaemon.PingReply
import WatchdogDaemon.Shutdown.Calls
import WatchdogDaemon.Shutdown.MountEntries
import WatchdogDaemon.Shutdown.MountTable
import WatchdogDaemon.Shutdown.Umount
import WatchdogDaemon.Shutdown.DoShutdown
import WatchdogDaemon.TextFile
import WatchdogDaemon.PidFile
import WatchdogDaemon.PidRace
import WatchdogDaemon.ServerPid
import WatchdogDaemon.Memory
import WatchdogDaemon.Load
import WatchdogDaemon.LoadAverage
import WatchdogDaemon.LogMessage
import WatchdogDaemon.Iface
import WatchdogDaemon.Temperature
import WatchdogDaemon.KeepAlive
import WatchdogDaemon.Interval
import WatchdogDaemon.Shutdown.KillAll
import WatchdogDaemon.Shutdown.MountCalls
import WatchdogDaemon.Shutdown.MountLine
import WatchdogDaemon.Shutdown.MtabFile
import WatchdogDaemon.Shutdown.UmountOrder
import WatchdogDaemon.Shutdown.Order
import WatchdogDaemon.Shutdown.Refresh
import WatchdogDaemon.Config.ReadConf
import WatchdogDaemon.Config.ReadConfig
import WatchdogDaemon.Config.LineOrder
import WatchdogDaemon.Config.Spacing
import WatchdogDaemon.Config.Values
import WatchdogDaemon.Config.FileList
import WatchdogDaemon.Credit
import WatchdogDaemon.Lib.OnesComplement
import WatchdogDaemon.PingTime
import WatchdogDaemon.Checksum
import WatchdogDaemon.Daemon.Main
import WatchdogDaemon.Daemon.Fed
import WatchdogDaemon.Daemon.Lifecycle
import WatchdogDaemon.Daemon.Cycles
import WatchdogDaemon.Daemon.Refine
import WatchdogDaemon.Daemon.Entries
import WatchdogDaemon.Daemon.Deadline
import WatchdogDaemon.Daemon.WatchedFile
import WatchdogDaemon.Daemon.WdKeepalive
