import StopArrivals.Main
import StopArrivals.Proofs.Convergence
import StopArrivals.Proofs.Retry
import StopArrivals.Proofs.Views
import StopArrivals.World
import StopArrivals.Proofs.Retention
import StopArrivals.Proofs.Refinement
import StopArrivals.Proofs.ScanTokens
import StopArrivals.Proofs.ByteOrder
import StopArrivals.Proofs.Conditions
import StopArrivals.Proofs.ScanConditions
import StopArrivals.Proofs.Obedience
import StopArrivals.Proofs.Operations
import StopArrivals.Proofs.LatestCandidates
import StopArrivals.Proofs.Batching
import StopArrivals.Proofs.CallLog
import StopArrivals.Proofs.Shutdown
import StopArrivals.Proofs.Resumption
import StopArrivals.Proofs.Interruption
import StopArrivals.Proofs.Accounting
import StopArrivals.Proofs.Coercions
import StopArrivals.Proofs.Coherence
import StopArrivals.Proofs.Candidates
import StopArrivals.Proofs.Widths
import StopArrivals.Proofs.Isolation
import StopArrivals.Proofs.Reconciliation
import StopArrivals.Proofs.MergeEffect
import StopArrivals.Proofs.Announcements
import StopArrivals.Proofs.Identities
import StopArrivals.Proofs.ChunkedInsert
import StopArrivals.Proofs.PlanApplication
import StopArrivals.Proofs.Verdicts
import StopArrivals.Proofs.Folders
import StopArrivals.Proofs.Spelling
import StopArrivals.Proofs.Balances
import StopArrivals.Proofs.ServiceTimes
import StopArrivals.Proofs.Loading
import StopArrivals.Proofs.BlankVariables
import StopArrivals.Proofs.Precedence
import StopArrivals.Proofs.Beneath
import StopArrivals.Proofs.Recordings
import StopArrivals.Proofs.Metadata
