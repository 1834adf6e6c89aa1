import Tlsdate.SetterReplies
import Tlsdate.SetterEffects
import Tlsdate.WakeProgress
import Tlsdate.SourceRotation
import Tlsdate.NetworkDelivery
import Tlsdate.SetTimeGuard
import Tlsdate.Attribution
import Tlsdate.DiskProvenance
import Tlsdate.ProxyGuard
import Tlsdate.TunnelTransparency
import Tlsdate.MessageForm
import Tlsdate.ContinuityGuard
import Tlsdate.ChildWatch
import Tlsdate.RetryLimit
import Tlsdate.MonitorPipe
import Tlsdate.TimerDelays
import Tlsdate.StartupChoice
import Tlsdate.Wildcard
import Tlsdate.PacAgreement
import Tlsdate.PolarsslGuard
import Tlsdate.HostportCopy
import Tlsdate.DateForms
import Tlsdate.DateCarry
import Tlsdate.DateReader
import Tlsdate.HelperClock
import Tlsdate.SocksEncoding
import Tlsdate.ProxySetup
import Tlsdate.Fragmentation
import Tlsdate.RetrySchedule
import Tlsdate.SetTimeAtomic
import Tlsdate.ResolverCalls
import Tlsdate.ProxyGrammar
import Tlsdate.ConfLines
import Tlsdate.ConfSkips
import Tlsdate.SourceStanzas
import Tlsdate.Routeup
import Tlsdate.LongOptions
import Tlsdate.ChildArguments
import Tlsdate.ProxyPlan9
import Tlsdate.Rtc
import Tlsdate.Jitter
import Tlsdate.LabelCount
import Tlsdate.SetterSandbox
import Tlsdate.SslSession
import Tlsdate.PolarsslSession
import Tlsdate.RawTime
import Tlsdate.Restart
import Tlsdate.BusMessages
import Tlsdate.BusOwnership
import Tlsdate.PipeEnds
import Tlsdate.Shutdown
import Tlsdate.PrivDrop
import Tlsdate.DaemonOptions
import Tlsdate.ClockSources
