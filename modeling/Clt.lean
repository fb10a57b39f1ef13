import Clt.Registry.JournalLifecycle
import Clt.Registry.WorkerFence
import Clt.Registry.StopRetention
import Clt.Registry.ControlShape
import Clt.Registry.Cancellation
import Clt.Registry.LeaseExpiry
import Clt.Registry.StaleGeneration
import Clt.Registry.Acknowledgement
import Clt.Registry.WorkerAdvance
import Clt.Registry.FenceRuns
import Clt.Coordination.OwnTasks
import Clt.Runner.TurnCompletion
import Clt.Runner.LaunchSpec
import Clt.Recovery.Restore
import Clt.Listing.SortByKey
import Clt.Task.Content
import Clt.Task.SessionLink
import Clt.Session.PassRight
import Clt.Session.LeaseFence
import Clt.Session.ReservationCancel
import Clt.Session.ControlResolution
import Clt.Session.WorkerReconciliation
import Clt.Task.DirectoryOrder
import Clt.Task.Placement
import Clt.Task.AttachmentFrame
import Clt.Task.ListingDifference
import Clt.Task.Thinking
import Clt.Platform.OrphanOwnership
import Clt.Platform.SystemdUnit
import Clt.Task.BlockingNote
import Clt.Task.Status
import Clt.ManagedGit.ReaderAgreement
import Clt.ManagedGit.ReconcileBound
import Clt.Task.ExpandedOrder
import Clt.ManagedGit.SharedIndex
import Clt.ManagedGit.TaskSearch
import Clt.Durable.Procedure
import Clt.Recovery.StateDir
import Clt.Recovery.Update
import Clt.Recovery.Maintenance
import Clt.Recovery.Steps
import Clt.Recovery.Consistency
import Clt.Recovery.Ordinary
import Clt.Recovery.Exclusive
import Clt.Recovery.Runs
import Clt.Recovery.Completion
import Clt.Task.MarkdownBoard
import Clt.Supervisor.Runs
import Clt.Scheduler.Accounts
