import OrionQueue.Runs
import OrionQueue.Tables
import OrionQueue.Ledger
import OrionQueue.Job
import OrionQueue.JobStore
import OrionQueue.JobService
import OrionQueue.JobLifecycle
import OrionQueue.JobCoherence
import OrionQueue.JobHistory
import OrionQueue.Submissions
import OrionQueue.RetryBudget
import OrionQueue.Worker
import OrionQueue.Planner
import OrionQueue.PlannerCapacity
import OrionQueue.Allotments
import OrionQueue.Devices
import OrionQueue.Recovery
import OrionQueue.Cluster
import OrionQueue.Capacity
import OrionQueue.CapacityRuns
import OrionQueue.SplitBrain
import OrionQueue.Election
import OrionQueue.Leadership
import OrionQueue.ElectedCluster
import OrionQueue.Cancellation
import OrionQueue.Placements
import OrionQueue.WorkerLoss
import OrionQueue.Reports
import OrionQueue.Leases
import OrionQueue.Liveness
import OrionQueue.Expirations
import OrionQueue.ExpirationWatch
import OrionQueue.Executor
import OrionQueue.ExecutorRun
import OrionQueue.Agent
import OrionQueue.AgentRegistry
import OrionQueue.StopRequests
import OrionQueue.StopDelivery
import OrionQueue.StopRuns
import OrionQueue.Keyset
import OrionQueue.JobTable
import OrionQueue.JobRepository
import OrionQueue.AuditTrail
import OrionQueue.Decimal
import OrionQueue.Base64
import OrionQueue.Calendar
import OrionQueue.Rfc3339
import OrionQueue.PageTokens
import OrionQueue.TokenBytes
import OrionQueue.JobListing
import OrionQueue.Pagination
import OrionQueue.Repositories
import OrionQueue.StoreAgreement
import OrionQueue.Interchange
import OrionQueue.Fairness
import OrionQueue.PlanOrder
import OrionQueue.PriorityRaise
import OrionQueue.Stopping
import OrionQueue.Accounting
import OrionQueue.PreemptionPass
import OrionQueue.PreemptionTurns
import OrionQueue.SharedBooks
import OrionQueue.SettledPass
import OrionQueue.PreemptionFit
import OrionQueue.PreemptionPromises
import OrionQueue.WorkerRecovery
import OrionQueue.JobThreads
import OrionQueue.ThreadEnds
import OrionQueue.GpuInventory
import OrionQueue.Api
import OrionQueue.RunningJobs
import OrionQueue.FilteredListing
import OrionQueue.Doubles
import OrionQueue.CpuAdmission
import OrionQueue.MachinePlanner
import OrionQueue.MachineExact
import OrionQueue.MachinePreemptions
import OrionQueue.Rows
import OrionQueue.WorkerTable
import OrionQueue.WorkerRepository
import OrionQueue.WorkerWrites
import OrionQueue.WorkerListing
import OrionQueue.FleetAgreement
import OrionQueue.PostgresCluster
import OrionQueue.AgentFleet
import OrionQueue.HeartbeatRound
import OrionQueue.Execution
import OrionQueue.StopSignals
import OrionQueue.Sessions
import OrionQueue.JobTransactions
import OrionQueue.SerialCalls
import OrionQueue.PreemptionRound
import OrionQueue.LeaseHolding
import OrionQueue.HeartbeatTiming
