import IrohTunnel.Access.Dialers
import IrohTunnel.Access.FinishedDials
import IrohTunnel.Access.FreshDials
import IrohTunnel.Access.OneConnection
import IrohTunnel.Access.Retry
import IrohTunnel.Action.Config
import IrohTunnel.Action.Guarded
import IrohTunnel.Action.Job
import IrohTunnel.Action.RedactExact
import IrohTunnel.Config.Kept
import IrohTunnel.Config.KeyOnly
import IrohTunnel.Config.Migration
import IrohTunnel.Config.Services
import IrohTunnel.Config.ShowConfig
import IrohTunnel.ConnPath.PeerPathReport
import IrohTunnel.Network
import IrohTunnel.Ownership.ProbeRace
import IrohTunnel.Ownership.Staleness
import IrohTunnel.Runtime.Skeleton
import IrohTunnel.Serve.Admission
import IrohTunnel.Serve.Ingress
import IrohTunnel.Serve.LiveTasks
import IrohTunnel.Serve.PeerCap
import IrohTunnel.Serve.PeerTracker
import IrohTunnel.Serve.Routing
import IrohTunnel.Service.AppliedEffects
import IrohTunnel.Service.Dialogue
import IrohTunnel.Service.InitFaithful
import IrohTunnel.Service.NotRoot
import IrohTunnel.Service.PlistText
import IrohTunnel.Service.Rerun
import IrohTunnel.Service.Startup
import IrohTunnel.Service.TaskXml
import IrohTunnel.Service.UnitText
import IrohTunnel.Shutdown.Structured
import IrohTunnel.Status.Publish
import IrohTunnel.Status.Removal
import IrohTunnel.Status.Save
import IrohTunnel.Status.Sharing
import IrohTunnel.Tcp
import IrohTunnel.TcpTunnel
import IrohTunnel.UdpSession
import IrohTunnel.Update.Command
import IrohTunnel.Update.Discovery
import IrohTunnel.Update.Downgrade
