import Voidns.Lib.Prog
import Voidns.Lib.Crash
import Voidns.Lib.FileSystem
import Voidns.Proto
import Voidns.Redirect.Parse
import Voidns.Redirect.Basic
import Voidns.Redirect.Linux
import Voidns.Redirect.ResolvConf
import Voidns.Redirect.Macos
import Voidns.Redirect.Windows
import Voidns.Redirect.Record
import Voidns.Controller.Basic
import Voidns.Controller.Settled
import Voidns.Controller.Joint
import Voidns.Controller.BlackHole
import Voidns.Redirect.FailedApply
import Voidns.Base.Plain
import Voidns.Base.Printed
import Voidns.Redirect.Snapshot
import Voidns.Redirect.Outputs
import Voidns.Controller.Networksetup
import Voidns.Lib.Framing
import Voidns.Lib.Steps
import Voidns.Daemon.Basic
import Voidns.Ipc.Conn
import Voidns.Daemon.Mutex
import Voidns.Daemon.Upstream
import Voidns.Daemon.Subscribers
import Voidns.Daemon.Trace
import Voidns.Daemon.History
import Voidns.Daemon.Progress
import Voidns.Daemon.Shutdown
import Voidns.Gui.App
import Voidns.Gui.World
import Voidns.Gui.Display
import Voidns.Gui.Pending
import Voidns.Gui.Provider
import Voidns.Gui.LastWord
import Voidns.Gui.Gate
import Voidns.Lib.Inline
import Voidns.Controller.Recovery
import Voidns.Lib.Settings
import Voidns.Redirect.Applied
import Voidns.Redirect.Leak
import Voidns.Redirect.RoundTrip
import Voidns.Redirect.Retry
import Voidns.Redirect.Reset
import Voidns.Lib.Json
import Voidns.Ipc.Serde
import Voidns.Ipc.Wire
import Voidns.Daemon.Wired
import Voidns.Ipc.Truncation
import Voidns.Ipc.Client
import Voidns.Daemon.Clients
import Voidns.Base.Number
import Voidns.Cli.Main
import Voidns.Cli.ExitCode
import Voidns.Base.Address
import Voidns.Proxy.Basic
import Voidns.Proxy.Host
import Voidns.Proxy.Sockets
import Voidns.Proxy.Queries
import Voidns.Daemon.Winservice
import Voidns.Redirect.Undone
import Voidns.Redirect.PutBack
import Voidns.Daemon.Coverage
import Voidns.Redirect.Frame
import Voidns.Gui.Spinner
import Voidns.Gui.Clicks
