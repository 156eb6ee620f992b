import AgentRuntime.Cluster.Cancelling
import AgentRuntime.Cluster.Cluster
import AgentRuntime.Cluster.Computation
import AgentRuntime.Cluster.Deliveries
import AgentRuntime.Cluster.EndToEnd
import AgentRuntime.Cluster.LostReports
import AgentRuntime.Cluster.Outcome
import AgentRuntime.Cluster.Reporting
import AgentRuntime.Cluster.ResultIntegrity
import AgentRuntime.Cluster.Rollback
import AgentRuntime.Common.Decimal
import AgentRuntime.Common.Id
import AgentRuntime.Common.Int64
import AgentRuntime.Common.Status
import AgentRuntime.Control.Cancellation
import AgentRuntime.Control.Closing
import AgentRuntime.Control.ControlPlane
import AgentRuntime.Control.ControlService
import AgentRuntime.Control.ControlSystem
import AgentRuntime.Control.Detection
import AgentRuntime.Control.DetectorShutdown
import AgentRuntime.Control.Idempotence
import AgentRuntime.Control.IncarnationIsolation
import AgentRuntime.Control.NodeDeath
import AgentRuntime.Control.Orphans
import AgentRuntime.Control.RecordHistory
import AgentRuntime.Control.ReservationLedger
import AgentRuntime.Control.Signals
import AgentRuntime.Control.TaskSteps
import AgentRuntime.Core.Execution
import AgentRuntime.Core.PoolHistory
import AgentRuntime.Core.Quantity
import AgentRuntime.Core.Rescaling
import AgentRuntime.Core.Resource
import AgentRuntime.Core.ResourcePool
import AgentRuntime.Core.Task
import AgentRuntime.Library.Brackets
import AgentRuntime.Library.Dispatcher
import AgentRuntime.Library.Fifo
import AgentRuntime.Library.FloatingPoint
import AgentRuntime.Library.Ledger
import AgentRuntime.Library.Locks
import AgentRuntime.Library.Matching
import AgentRuntime.Library.Numeral
import AgentRuntime.Library.OrderedMap
import AgentRuntime.Library.Quiescence
import AgentRuntime.Library.Run
import AgentRuntime.Library.UnorderedMap
import AgentRuntime.Library.Waiting
import AgentRuntime.Local.Acceptance
import AgentRuntime.Local.Admission
import AgentRuntime.Local.Agreement
import AgentRuntime.Local.Callbacks
import AgentRuntime.Local.Cancellation
import AgentRuntime.Local.Completions
import AgentRuntime.Local.Dispatching
import AgentRuntime.Local.Drain
import AgentRuntime.Local.Effects
import AgentRuntime.Local.Executions
import AgentRuntime.Local.Fifo
import AgentRuntime.Local.Invariant
import AgentRuntime.Local.LocalLedger
import AgentRuntime.Local.LocalSystem
import AgentRuntime.Local.LockDiscipline
import AgentRuntime.Local.Locking
import AgentRuntime.Local.Moves
import AgentRuntime.Local.Outcomes
import AgentRuntime.Local.Ownership
import AgentRuntime.Local.Potential
import AgentRuntime.Local.Progress
import AgentRuntime.Local.Prompting
import AgentRuntime.Local.Queue
import AgentRuntime.Local.Results
import AgentRuntime.Local.Retained
import AgentRuntime.Local.Sections
import AgentRuntime.Local.Shutdown
import AgentRuntime.Local.Sleepers
import AgentRuntime.Local.Slots
import AgentRuntime.Local.Stage
import AgentRuntime.Local.Submission
import AgentRuntime.Local.TaskHistory
import AgentRuntime.Local.Tokens
import AgentRuntime.Local.Underway
import AgentRuntime.Local.Wakeups
import AgentRuntime.Node.Commitment
import AgentRuntime.Node.Death
import AgentRuntime.Node.Fencing
import AgentRuntime.Node.FirstFit
import AgentRuntime.Node.Liveness
import AgentRuntime.Node.NodeLifetimes
import AgentRuntime.Node.NodeRegistry
import AgentRuntime.Node.RegistryHistory
import AgentRuntime.Node.Representation
import AgentRuntime.Node.WithoutRemovals
import AgentRuntime.Runtime.Lifecycle
import AgentRuntime.Runtime.TaskManager
import AgentRuntime.Scheduler.Placement
import AgentRuntime.Serialization.Canonical
import AgentRuntime.Serialization.Identity
import AgentRuntime.Serialization.ReportMessage
import AgentRuntime.Serialization.Resources
import AgentRuntime.Serialization.Wire
import AgentRuntime.Service.Admissions
import AgentRuntime.Service.Cancellations
import AgentRuntime.Service.Completions
import AgentRuntime.Service.Contents
import AgentRuntime.Service.Refusals
import AgentRuntime.Service.Replies
import AgentRuntime.Service.Reports
import AgentRuntime.Service.Requests
import AgentRuntime.Service.Tokens
import AgentRuntime.Service.WorkerService
import AgentRuntime.Worker.BuiltinHandlers
import AgentRuntime.Worker.ExactlyOnce
import AgentRuntime.Worker.Worker
import AgentRuntime.Worker.WorkerThread
