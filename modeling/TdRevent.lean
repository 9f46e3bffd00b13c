import TdRevent.Interaction.System
import TdRevent.Interaction.Trace
import TdRevent.Collections.OrderedMap
import TdRevent.Collections.OrbitSearch
import TdRevent.Collections.Numbering
import TdRevent.TimerIndex
import TdRevent.TimerPass
import TdRevent.TimerIds
import TdRevent.TimerDeletion
import TdRevent.Unix.Outgoing
import TdRevent.Unix.EpollInterest
import TdRevent.Unix.EpollDelivery
import TdRevent.Unix.KqueueFilters
import TdRevent.Unix.KqueueDispatch
import TdRevent.Unix.KqueueSubmission
import TdRevent.Unix.Unregister
import TdRevent.Unix.PendingWrites
import TdRevent.Win.Outgoing
import TdRevent.Win.Outstanding
import TdRevent.SendErrors
import TdRevent.Unix.Endings
import TdRevent.RegisterErrors
import TdRevent.Win.Endings
import TdRevent.Win.Replaced
import TdRevent.Win.Lifetime
import TdRevent.Interaction.Responses
import TdRevent.CallbackAgreement
import TdRevent.TimerIdSearch
import TdRevent.TimerAdditions
import TdRevent.BufferOperations
import TdRevent.BufferStream
import TdRevent.PollTimeout
import TdRevent.EntryComparison
import TdRevent.TimerDeadlines
import TdRevent.TimerLife
import TdRevent.RunOnce
import TdRevent.WholeLoop
import TdRevent.MainShutdown
import TdRevent.FromRawArc
import TdRevent.Unix.Incoming
import TdRevent.Win.Incoming
import TdRevent.Win.Armed
import TdRevent.Win.SocketAddr
import TdRevent.Interaction.Lowering
import TdRevent.FlagBits
import TdRevent.Win.Winsock
import TdRevent.Unix.KqueueEndings
import TdRevent.Win.Accepts
