import ServiceRecovery.Core.LTS
import ServiceRecovery.Core.Prog
import ServiceRecovery.Core.Threads
import ServiceRecovery.Core.Linearise
import ServiceRecovery.Core.Printer
import ServiceRecovery.Core.IStream
import ServiceRecovery.Core.Decimal
import ServiceRecovery.Core.Delimited
import ServiceRecovery.L2Scheduler.Bounds
import ServiceRecovery.L2Scheduler.Disable
import ServiceRecovery.L2Scheduler.Policies
import ServiceRecovery.L3Stub.Stub
import ServiceRecovery.L4Daemon.Daemon
import ServiceRecovery.L4Daemon.Slots
import ServiceRecovery.L4Daemon.Agreement
import ServiceRecovery.L4Daemon.CrashTrace
import ServiceRecovery.L4Daemon.Replies
import ServiceRecovery.L4Daemon.Isolation
import ServiceRecovery.L4Daemon.Messages
import ServiceRecovery.L4Daemon.Safety
import ServiceRecovery.L4Daemon.PeerLoss
import ServiceRecovery.L4Daemon.Logged
import ServiceRecovery.L4Daemon.Broadcasts
import ServiceRecovery.L5Concurrency.CheckThenAct
import ServiceRecovery.L5Concurrency.Startup
import ServiceRecovery.L5Concurrency.Handlers
import ServiceRecovery.L5Concurrency.CallTrace
import ServiceRecovery.L5Concurrency.Statements
import ServiceRecovery.L5Concurrency.Alone
import ServiceRecovery.L5Concurrency.Dispatch
import ServiceRecovery.L5Concurrency.Queries
import ServiceRecovery.L5Concurrency.Liveness
import ServiceRecovery.L6Process.Console
import ServiceRecovery.L6Process.SnapshotLine
import ServiceRecovery.L6Process.Apps
import ServiceRecovery.L6Process.Logger
import ServiceRecovery.L6Process.Log
import ServiceRecovery.L6Process.LogTrail
import ServiceRecovery.L6Process.Output
