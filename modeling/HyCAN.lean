import HyCAN.Transition.Machine
import HyCAN.Transition.FlagLock
import HyCAN.Text.CString
import HyCAN.Text.Decimal
import HyCAN.Daemon.BringUp
import HyCAN.Daemon.Confinement
import HyCAN.Daemon.RequestReading
import HyCAN.Daemon.SessionTable
import HyCAN.Client.RegistrationAgreement
import HyCAN.Interface.LockDiscipline
import HyCAN.Interface.LookupBounds
import HyCAN.Interface.StopWakeUp
import HyCAN.Interface.DispatchTrace
import HyCAN.Interface.ReaperProgress
import HyCAN.Client.Interface
import HyCAN.Client.Reachable
import HyCAN.Client.VirtualUp
import HyCAN.Client.ConcurrentUp
import HyCAN.Client.FallbackAgreement
import HyCAN.Client.ApiCall
import HyCAN.Client.NameAliasing
import HyCAN.Client.LastCall
import HyCAN.Client.RequestAgreement
import HyCAN.Daemon.Shutdown
import HyCAN.Daemon.ShutdownDeadlock
import HyCAN.Interface.Socket
import HyCAN.Interface.SocketOwnership
import HyCAN.Interface.Lifecycle
import HyCAN.Interface.LifecycleSteps
import HyCAN.Interface.LifecycleSuccess
import HyCAN.Client.FallbackCommands
import HyCAN.Client.NameEncoding
import HyCAN.Daemon.ChannelNames
import HyCAN.Daemon.DaemonSessions
import HyCAN.Daemon.DaemonSessionsSteps
import HyCAN.Daemon.FailSafe
import HyCAN.Daemon.SessionLifetime
import HyCAN.Daemon.SocketFiles
import HyCAN.Interface.FailedRestart
import HyCAN.Interface.Registration
import HyCAN.Interface.Sender
import HyCAN.Daemon.ClosedSockets
import HyCAN.Daemon.DescriptorNumbers
import HyCAN.Daemon.SelectSets
import HyCAN.Interface.SpinLock
import HyCAN.Daemon.ConcurrentRequests
import HyCAN.Daemon.LinkService
import HyCAN.Daemon.RequestOrder
import HyCAN.Daemon.ServiceRefinement
import HyCAN.Daemon.SessionIdle
import HyCAN.Client.ClientChannels
import HyCAN.Client.InterfaceHost
import HyCAN.Daemon.DescriptorsKept
import HyCAN.Daemon.ShutdownTermination
import HyCAN.Interface.CanBus
import HyCAN.Interface.SpinLockProgress
import HyCAN.Interface.StopProgress
