import AffiniX.TimerSimulation
import AffiniX.ArmBlock
import AffiniX.SendStorage
import AffiniX.EpollCompletions
import AffiniX.EpollStream
import AffiniX.ConnectionSends
import AffiniX.Backpressure
import AffiniX.MpscFifo
import AffiniX.ChannelDelivery
import AffiniX.MailboxContract
import AffiniX.DeferredDestruction
import AffiniX.CompletionTags
import AffiniX.AttemptSets
import AffiniX.ClientAgreement
import AffiniX.TaskScope
import AffiniX.Combinators
import AffiniX.ReplyDelivery
import AffiniX.MsgRingWakes
import AffiniX.WatchBoxes
import AffiniX.EpollReuse
import AffiniX.RecvContexts
import AffiniX.ChurnCensus
import AffiniX.FdPassing
import AffiniX.RecvBatches
import AffiniX.SendAwaits
import AffiniX.Segmentation
import AffiniX.ContextInheritance
import AffiniX.SimTimers
import AffiniX.AcceptStop
import AffiniX.SimQuiescence
import AffiniX.UringWake
import AffiniX.UringWatch
import AffiniX.ThrowingHandlers
import AffiniX.DeferredTasks
import AffiniX.TimerHeap
import AffiniX.FrameProgress
import AffiniX.UdpSocket
import AffiniX.BufferQueue
import AffiniX.PostedTasks
import AffiniX.ClientRestart
import AffiniX.FdSends
import AffiniX.Barrier
import AffiniX.ClientReconnect
import AffiniX.AdminServer
import AffiniX.Histogram
import AffiniX.FlightRecorder
import AffiniX.CloseLast
