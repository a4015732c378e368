import FailureDetector.Lib.RollingSum
import FailureDetector.Lib.CString
import FailureDetector.Lib.Printf
import FailureDetector.Lib.Wire
import FailureDetector.Lib.Cursor
import FailureDetector.Lib.HashTable
import FailureDetector.Lib.Zlist
import FailureDetector.Lib.Register
import FailureDetector.Lib.LinkedList
import FailureDetector.Lib.Runs
import FailureDetector.Lib.Pending
import FailureDetector.Lib.Locking
import FailureDetector.Lib.Scheduling
import FailureDetector.Lib.LockOrder
import FailureDetector.Lib.Watchdog
import FailureDetector.Lib.Deadline
import FailureDetector.Lib.DoublyLinked
import FailureDetector.Lib.BottomUpSort
import FailureDetector.Lib.OrderedLog
import FailureDetector.AdaptiveDelay.Model
import FailureDetector.AdaptiveDelay.WindowedEstimate
import FailureDetector.AdaptiveDelay.RegularPeer
import FailureDetector.AdaptiveDelay.EqualGaps
import FailureDetector.Tpl
import FailureDetector.Utils
import FailureDetector.Messages
import FailureDetector.Tpl.Accepted
import FailureDetector.Tpl.Walk
import FailureDetector.Tpl.InBounds
import FailureDetector.Tpl.Pack
import FailureDetector.Tpl.Dump
import FailureDetector.Uthash.Model
import FailureDetector.Uthash.Buckets
import FailureDetector.Uthash.Growth
import FailureDetector.Uthash.Table
import FailureDetector.Uthash.Sort
import FailureDetector.Uthash.Refinement
import FailureDetector.PaxosReplica.Model
import FailureDetector.PaxosReplica.Submit
import FailureDetector.PaxosReplica.Deliver
import FailureDetector.PaxosReplica.Learner
import FailureDetector.PaxosReplica.Timing
import FailureDetector.StateLog
import FailureDetector.Timer.Model
import FailureDetector.Timer.List
import FailureDetector.Timer.Manager
import FailureDetector.Detector.Model
import FailureDetector.Detector.ArmedTimeout
import FailureDetector.Detector.Step
import FailureDetector.Detector.Membership
import FailureDetector.Detector.ReceiveLoop
import FailureDetector.Detector.Orchestrator
import FailureDetector.Detector.Threads
import FailureDetector.Detector.Expiry
import FailureDetector.Detector.NodesTable
import FailureDetector.Detector.TimerList
import FailureDetector.Detector.Timed
import FailureDetector.Detector.Deadlines
import FailureDetector.Detector.PollLoop
import FailureDetector.Detector.PollWalk
import FailureDetector.Detector.PollRefinement
import FailureDetector.Detector.PollRound
import FailureDetector.Detector.PollScan
import FailureDetector.Detector.Accuracy
import FailureDetector.Detector.Lifecycle
import FailureDetector.Detector.Deadlock
import FailureDetector.Detector.StartUp
import FailureDetector.Cluster
import FailureDetector.Cluster.System
import FailureDetector.Cluster.Agreement
