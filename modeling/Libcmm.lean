import Libcmm.AckScheduling
import Libcmm.AckSoundness
import Libcmm.AckTimes
import Libcmm.Agreement
import Libcmm.Announcements
import Libcmm.Announcing
import Libcmm.Arrivals
import Libcmm.Attending
import Libcmm.Bootstrapped
import Libcmm.Bootstrapping
import Libcmm.BootstrappingRuns
import Libcmm.Bytestreams
import Libcmm.ChunkLookup
import Libcmm.Chunking
import Libcmm.Confluence
import Libcmm.Connected
import Libcmm.Connecting
import Libcmm.Connection
import Libcmm.Connects
import Libcmm.Control
import Libcmm.CsockMapping
import Libcmm.CsockRuns
import Libcmm.DependencyOrder
import Libcmm.Dropping
import Libcmm.Edges
import Libcmm.EmptyIrobs
import Libcmm.FdSets
import Libcmm.Framing
import Libcmm.Goodbye
import Libcmm.Handshake
import Libcmm.Heeding
import Libcmm.Incoming
import Libcmm.Inference
import Libcmm.Insertion
import Libcmm.IntSet
import Libcmm.IntSetRuns
import Libcmm.Irob
import Libcmm.LastWord
import Libcmm.Lattice
import Libcmm.LatticeRuns
import Libcmm.Lib.Assembly
import Libcmm.Lib.Best
import Libcmm.Lib.Bisect
import Libcmm.Lib.Coverage
import Libcmm.Lib.EitherLess
import Libcmm.Lib.KeyedSet
import Libcmm.Lib.OrderedSet
import Libcmm.Lib.SearchTree
import Libcmm.Lib.Simulation
import Libcmm.Lib.Transition
import Libcmm.Lib.Window
import Libcmm.Lib.Words
import Libcmm.Losses
import Libcmm.Multisockets
import Libcmm.NetInterface
import Libcmm.NetworkChooser
import Libcmm.Orphans
import Libcmm.Outgoing
import Libcmm.OutgoingLinks
import Libcmm.Peeking
import Libcmm.Peers
import Libcmm.Pending
import Libcmm.Pipes
import Libcmm.Placeholders
import Libcmm.Polling
import Libcmm.Progress
import Libcmm.QueuingDelay
import Libcmm.Readers
import Libcmm.Reassembly
import Libcmm.Received
import Libcmm.ReceiverIrob
import Libcmm.ReceiverLattice
import Libcmm.ReceiverRuns
import Libcmm.ReceiverSteps
import Libcmm.Recovery
import Libcmm.Release
import Libcmm.ResendRuns
import Libcmm.Restrictions
import Libcmm.Resumption
import Libcmm.Robustness
import Libcmm.Scheduling
import Libcmm.Scout
import Libcmm.SelectReports
import Libcmm.Selecting
import Libcmm.SendLengths
import Libcmm.SenderIrob
import Libcmm.SenderLoops
import Libcmm.SenderRuns
import Libcmm.Session
import Libcmm.SessionRuns
import Libcmm.Shutdown
import Libcmm.SmallIrobs
import Libcmm.Steady
import Libcmm.Stream
import Libcmm.Striping
import Libcmm.TaskLookup
import Libcmm.TaskOrder
import Libcmm.ThunkCancel
import Libcmm.ThunkQueues
import Libcmm.ThunkRuns
import Libcmm.ThunkThread
import Libcmm.Thunks
import Libcmm.Tiling
import Libcmm.Timeops
import Libcmm.Transfer
import Libcmm.Transfers
import Libcmm.Updates
import Libcmm.Wakeups
import Libcmm.Wire
