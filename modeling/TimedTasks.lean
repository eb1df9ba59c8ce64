import TimedTasks.Main
import TimedTasks.Session.Workbench
import TimedTasks.Proofs.Queue.Draining
import TimedTasks.Proofs.Scheduler.Decomposition
import TimedTasks.Proofs.Scheduler.Roster
import TimedTasks.Proofs.Scheduler.Custody
import TimedTasks.Proofs.Scheduler.Ownership
import TimedTasks.Proofs.Scheduler.Invariant
import TimedTasks.Proofs.Scheduler.Holdings
import TimedTasks.Proofs.Scheduler.Stopping
import TimedTasks.Proofs.Scheduler.Stranding
import TimedTasks.Proofs.Scheduler.Progress
import TimedTasks.Proofs.Scheduler.Latecomers
import TimedTasks.Proofs.Scheduler.Handover
import TimedTasks.Proofs.Scheduler.Cancelling
import TimedTasks.Proofs.Scheduler.Standstill
import TimedTasks.Proofs.Queue.Backpressure
import TimedTasks.Proofs.Queue.Vigil
import TimedTasks.Proofs.Scheduler.Settling
import TimedTasks.Proofs.Scheduler.Punctuality
import TimedTasks.Proofs.Scheduler.Starting
import TimedTasks.Proofs.Scheduler.Cadence
import TimedTasks.Proofs.Scheduler.Vigilance
import TimedTasks.Proofs.Scheduler.CatchUp
import TimedTasks.Proofs.Scheduler.Gap
import TimedTasks.Proofs.Scheduler.Answering
import TimedTasks.Proofs.Task.Muting
import TimedTasks.Proofs.Scheduler.Muting
import TimedTasks.Proofs.Scheduler.Isolation
import TimedTasks.Proofs.Metrics
import TimedTasks.Proofs.Queue.Traffic
import TimedTasks.Proofs.Queue.Capacity
import TimedTasks.Proofs.Queue.Conservation
import TimedTasks.Proofs.Scheduler.Usage
import TimedTasks.Proofs.Scheduler.Callers
import TimedTasks.Proofs.Scheduler.Reporting
import TimedTasks.Proofs.Scheduler.Counters
import TimedTasks.Proofs.Scheduler.Repose
import TimedTasks.Proofs.Scheduler.Accounts
import TimedTasks.Proofs.Queue.Ending
import TimedTasks.Proofs.Queue.DueOrder
import TimedTasks.Proofs.Scheduler.Occupancy
import TimedTasks.Proofs.Task.Contest
import TimedTasks.Proofs.Scheduler.Lifetime
import TimedTasks.Proofs.Queue.Closing
import TimedTasks.Proofs.Scheduler.Enlisting
import TimedTasks.Proofs.Scheduler.Refusals
import TimedTasks.Proofs.Scheduler.Charging
import TimedTasks.Proofs.Scheduler.Failures
import TimedTasks.Proofs.Scheduler.Observers
import TimedTasks.Proofs.Scheduler.Observing
import TimedTasks.Proofs.Scheduler.Succession
import TimedTasks.Proofs.Scheduler.Revoking
import TimedTasks.Proofs.Scheduler.FailurePolicies
import TimedTasks.Proofs.Scheduler.Precedence
import TimedTasks.Proofs.Scheduler.Duties
import TimedTasks.Proofs.Scheduler.Allowance
import TimedTasks.Proofs.Scheduler.Termination
import TimedTasks.Proofs.Text.Spelling
import TimedTasks.Proofs.Config.Environment
import TimedTasks.Proofs.CommandLine.Resolution
import TimedTasks.Proofs.Time.History
import TimedTasks.Proofs.Demo.Report
