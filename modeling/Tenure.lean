import Tenure.Config.Tree
import Tenure.Lease.Script
import Tenure.Main
import Tenure.Simulation.Election
import Tenure.Proofs.Status.Completion
import Tenure.Proofs.Leader.Course
import Tenure.Proofs.Leader.Blocks
import Tenure.Proofs.Lease.Advertised
import Tenure.Proofs.Number.Rounding
import Tenure.Proofs.Leader.Deadline
import Tenure.Proofs.Leader.Arena
import Tenure.Proofs.Lease.Custody
import Tenure.Proofs.Leader.Custody
import Tenure.Proofs.Leader.Exclusion
import Tenure.Proofs.Leader.Retention
import Tenure.Proofs.Leader.Gauge
import Tenure.Proofs.Leader.Flag
import Tenure.Proofs.Simulation.Election
import Tenure.Proofs.Store.Decided
import Tenure.Proofs.Lease.Race
import Tenure.Proofs.Leader.Steadfast
import Tenure.Proofs.Episode.Course
import Tenure.Proofs.Simulation.Episode
import Tenure.Proofs.Episode.Account
import Tenure.Proofs.Control.Supervision
import Tenure.Proofs.Simulation.Workforce
import Tenure.Proofs.Simulation.Site
import Tenure.Proofs.Json.Spelling
import Tenure.Proofs.Record.Codec
import Tenure.Proofs.FileTree.Path
import Tenure.Proofs.FileTree.Walk
import Tenure.Proofs.Store.Directory
import Tenure.Proofs.Store.Refinement
import Tenure.Proofs.Store.Unstamped
import Tenure.Proofs.Lease.WallClock
import Tenure.Proofs.Lease.Takeover
import Tenure.Proofs.Store.Independence
import Tenure.Proofs.Lifecycle.Ending
import Tenure.Proofs.FileTree.Sound
import Tenure.Proofs.Store.Layout
import Tenure.Proofs.Lease.Ledger
import Tenure.Proofs.Leader.Deed
import Tenure.Proofs.Leader.Balance
import Tenure.Proofs.Leader.Trouble
import Tenure.Proofs.Leader.Pace
import Tenure.Proofs.Status.Publication
import Tenure.Proofs.Status.Transition
import Tenure.Proofs.Store.Failure
import Tenure.Proofs.Leader.Withdrawal
import Tenure.Proofs.Control.Drift
import Tenure.Proofs.Json.Compact
import Tenure.Proofs.Record.Reading
import Tenure.Proofs.Status.Codec
import Tenure.Proofs.Status.Sink
import Tenure.Proofs.Json.Sameness
import Tenure.Proofs.Defaults.Distance
import Tenure.Proofs.Control.Registration
import Tenure.Proofs.Defaults.Population
import Tenure.Proofs.Simulation.ManagerRun
import Tenure.Proofs.Config.Acceptance
import Tenure.Proofs.Config.Precedence
import Tenure.Proofs.Leader.Effects
