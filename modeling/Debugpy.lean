import Debugpy.Lib.Fuel
import Debugpy.Lib.Proc
import Debugpy.Lib.Run
import Debugpy.Lib.History
import Debugpy.Lib.Locks
import Debugpy.Lib.Sweep
import Debugpy.Lib.Dict
import Debugpy.Common.Json
import Debugpy.Common.Stream
import Debugpy.Common.Framing
import Debugpy.Common.EndOfFile
import Debugpy.Common.RoundTrip
import Debugpy.Common.Acceptance
import Debugpy.Common.Channel
import Debugpy.Common.Malformed
import Debugpy.Common.MessageLoop
import Debugpy.Common.Handlers
import Debugpy.Adapter.ServerRegistry
import Debugpy.Adapter.Connections
import Debugpy.Adapter.Sessions
import Debugpy.Adapter.System
import Debugpy.Adapter.Configuration
import Debugpy.Adapter.Subprocesses
import Debugpy.Adapter.Orphans
import Debugpy.Adapter.Deferred
import Debugpy.Adapter.Delivery
import Debugpy.Adapter.Ledger
import Debugpy.Adapter.StartArguments
import Debugpy.Adapter.OnTerminate
import Debugpy.Adapter.KillLoop
import Debugpy.Adapter.Launchers
import Debugpy.Adapter.PayloadAccess
import Debugpy.Common.Ownership
import Debugpy.Adapter.Dispatch
import Debugpy.Adapter.Waiters
import Debugpy.Common.SendOrder
import Debugpy.Common.Matching
import Debugpy.Common.RunHandlers
import Debugpy.Common.Callbacks
import Debugpy.Common.FailedSends
import Debugpy.Common.WaitForResponse
import Debugpy.Common.Validators
import Debugpy.Common.Log
import Debugpy.Adapter.Relay
import Debugpy.Adapter.Frames
import Debugpy.Adapter.Lifecycle
import Debugpy.Adapter.Responding
import Debugpy.Adapter.LockOrder
import Debugpy.Adapter.Termination
import Debugpy.Lib.Utf8
import Debugpy.Launcher.Output
import Debugpy.Launcher.Debuggee
import Debugpy.Launcher.Handlers
import Debugpy.Launcher.Main
import Debugpy.Server.Cli
import Debugpy.Server.Grammar
import Debugpy.Server.Sentence
import Debugpy.Server.Attach
import Debugpy.Server.Configure
import Debugpy.Server.Environment
import Debugpy.Server.Injection
import Debugpy.Pydevd.Reader
import Debugpy.Pydevd.Writer
import Debugpy.Pydevd.Notification
import Debugpy.Pydevd.SourceMapping
import Debugpy.Pydevd.Tracing
import Debugpy.Pydevd.Skipping
import Debugpy.Pydevd.Stepping
import Debugpy.Pydevd.Breakpoints
