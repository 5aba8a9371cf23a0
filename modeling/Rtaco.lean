import Rtaco.Core.Common
import Rtaco.Core.Control
import Rtaco.Core.ControlAnswers
import Rtaco.Core.ControlCoherence
import Rtaco.Core.ControlDumps
import Rtaco.Core.ControlExceptions
import Rtaco.Core.ControlIndependence
import Rtaco.Core.ControlReplies
import Rtaco.Core.ControlRequests
import Rtaco.Core.ControlSequences
import Rtaco.Core.ControlSteps
import Rtaco.Core.ControlStop
import Rtaco.Core.ControlTables
import Rtaco.Core.ControlWaits
import Rtaco.Core.Listener
import Rtaco.Core.ListenerChanges
import Rtaco.Core.ListenerDatagrams
import Rtaco.Core.ListenerDelivery
import Rtaco.Core.ListenerEmissions
import Rtaco.Core.ListenerExecutor
import Rtaco.Core.ListenerInvocations
import Rtaco.Core.ListenerReceives
import Rtaco.Core.ListenerRun
import Rtaco.Core.ListenerSilence
import Rtaco.Core.ListenerWalk
import Rtaco.Core.Signal
import Rtaco.Core.SignalExecutor
import Rtaco.Core.SignalRuns
import Rtaco.Core.VoidSignal
import Rtaco.Events.AddressConfinement
import Rtaco.Events.AddressFlags
import Rtaco.Events.AttributeLists
import Rtaco.Events.AttributeText
import Rtaco.Events.AttributeWalk
import Rtaco.Events.CompleteMessages
import Rtaco.Events.Confinement
import Rtaco.Events.Decoders
import Rtaco.Events.EventContents
import Rtaco.Events.NameTermination
import Rtaco.Events.NeighborState
import Rtaco.Library.LastValue
import Rtaco.Library.LittleEndian
import Rtaco.Library.Loop
import Rtaco.Library.Machine
import Rtaco.Library.Mealy
import Rtaco.Library.Records
import Rtaco.Library.Scan
import Rtaco.Library.TaskPool
import Rtaco.Library.Words
import Rtaco.Netlink.AddressBytes
import Rtaco.Netlink.InetNtop
import Rtaco.Netlink.Layout
import Rtaco.Netlink.LoopSafety
import Rtaco.Netlink.MessageLoop
import Rtaco.Socket.SocketGuard
import Rtaco.Tasks.Datagrams
import Rtaco.Tasks.DecidingMessage
import Rtaco.Tasks.DumpCompleteness
import Rtaco.Tasks.DumpRequests
import Rtaco.Tasks.DumpResult
import Rtaco.Tasks.DumpStatus
import Rtaco.Tasks.DumpTasks
import Rtaco.Tasks.ErrorReplies
import Rtaco.Tasks.FirstAnswer
import Rtaco.Tasks.ForeignMessages
import Rtaco.Tasks.Framing
import Rtaco.Tasks.NeighborRequest
import Rtaco.Tasks.NeighborTasks
import Rtaco.Tasks.ReplyContents
import Rtaco.Tasks.RequestTask
import Rtaco.Tasks.Requests
import Rtaco.Tasks.SendRequest
import Rtaco.Tasks.TruncatedDumps
