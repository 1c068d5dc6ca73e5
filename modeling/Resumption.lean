import Resumption.Json.Reader
import Resumption.Json.Printer
import Resumption.Text.Whitespace
import Resumption.Time.Stamp
import Resumption.Uuid
import Resumption.Workflow.Instance
import Resumption.Workflow.Wire
import Resumption.Settings.Environment
import Resumption.Settings.Wire
import Resumption.Registry
import Resumption.Engine.Error
import Resumption.Engine.Notation
import Resumption.Relational.Operation
import Resumption.Relational.Listing
import Resumption.Store.Command
import Resumption.Store.Upkeep
import Resumption.Script.Runner
import Resumption.Settings.Notation
import Resumption.Monitor
import Resumption.Cluster.Schedule
import Resumption.Proofs.Store.Action
import Resumption.Proofs.Store.Change
import Resumption.Proofs.Database.Session
import Resumption.Proofs.Database.Job
import Resumption.Proofs.Store.Wakefulness
import Resumption.Proofs.Store.Discipline
import Resumption.Proofs.Store.Conservation
import Resumption.Proofs.Store.Awakening
import Resumption.Proofs.Store.Filling
import Resumption.Proofs.Store.Arrival
import Resumption.Proofs.Storage.Batching
import Resumption.Proofs.Store.Exclusion
import Resumption.Proofs.Store.Representation
import Resumption.Proofs.Store.Recovery
import Resumption.Proofs.Cluster.Execution
import Resumption.Proofs.Cluster.Stranding
import Resumption.Proofs.Engine.Submission
import Resumption.Proofs.Engine.HeldSubmission
import Resumption.Proofs.Storage.Lifetime
import Resumption.Proofs.Cluster.Life
import Resumption.Proofs.Store.Identity
import Resumption.Proofs.Workflow.Wire
import Resumption.Proofs.Pool.Account
import Resumption.Proofs.Storage.Closing
import Resumption.Proofs.Store.Claiming
import Resumption.Proofs.Storage.Updating
import Resumption.Proofs.Storage.Sweeping
import Resumption.Proofs.Storage.Opening
import Resumption.Proofs.Storage.Inserting
import Resumption.Proofs.Store.Queueing
import Resumption.Proofs.Storage.Interference
import Resumption.Proofs.Storage.Completion
import Resumption.Proofs.Engine.Settlement
import Resumption.Proofs.Workflow.Expiry
import Resumption.Proofs.Settings.Wire
