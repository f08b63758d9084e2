import AiPipe.AlignedSets
import AiPipe.Deadlock.Cycles
import AiPipe.DegradedJoin
import AiPipe.Drain
import AiPipe.DropReports
import AiPipe.EdgeKey
import AiPipe.EosBooks
import AiPipe.GraphCycle
import AiPipe.Ingress.Identity
import AiPipe.Ingress.Order
import AiPipe.Ingress.Reports
import AiPipe.LatencyHistogram
import AiPipe.Loader.Described
import AiPipe.Loader.Integers
import AiPipe.Logger.Rotation
import AiPipe.Plugins
import AiPipe.Pool.Drain
import AiPipe.Pool.Selection
import AiPipe.Queue.Window
import AiPipe.Queue.Words
import AiPipe.Routing
import AiPipe.Sync.Cleanup
import AiPipe.Sync.Clone
import AiPipe.Sync.LowestFork
import AiPipe.Trace
import AiPipe.Wakeup
