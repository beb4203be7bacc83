import NamespaceOwnership.Json.Reader
import NamespaceOwnership.Log.Line
import NamespaceOwnership.Log.Template
import NamespaceOwnership.Main
import NamespaceOwnership.Simulation.LeaseScenario
import NamespaceOwnership.Simulation.Scenario
import NamespaceOwnership.Simulation.Terms
import NamespaceOwnership.Proofs.Cluster
import NamespaceOwnership.Proofs.Run
import NamespaceOwnership.Proofs.Patch
import NamespaceOwnership.Proofs.Race
import NamespaceOwnership.Proofs.Calm
import NamespaceOwnership.Proofs.Moments
import NamespaceOwnership.Proofs.Outcome
import NamespaceOwnership.Proofs.Control
import NamespaceOwnership.Proofs.Course
import NamespaceOwnership.Proofs.Sends
import NamespaceOwnership.Proofs.Tally
import NamespaceOwnership.Proofs.Composed
import NamespaceOwnership.Proofs.Conduct
import NamespaceOwnership.Proofs.Ledger.Attempts
import NamespaceOwnership.Proofs.Ledger.Changes
import NamespaceOwnership.Proofs.Ledger.Atomicity
import NamespaceOwnership.Proofs.Ledger.Updates
import NamespaceOwnership.Proofs.Ledger.Tally
import NamespaceOwnership.Proofs.Ledger.Exits
import NamespaceOwnership.Proofs.Mapping.Guard
import NamespaceOwnership.Proofs.Mapping.Selection
import NamespaceOwnership.Proofs.Mapping.Patches
import NamespaceOwnership.Proofs.Mapping.Overwriting
import NamespaceOwnership.Proofs.Mapping.Rivals
import NamespaceOwnership.Proofs.Mapping.Orderly
import NamespaceOwnership.Proofs.Mapping.Relabelling
import NamespaceOwnership.Proofs.Mapping.Converged
import NamespaceOwnership.Proofs.Mapping.Releases
import NamespaceOwnership.Proofs.Mapping.Tenure
import NamespaceOwnership.Proofs.Mapping.Repetition
import NamespaceOwnership.Proofs.Mapping.Warrants
import NamespaceOwnership.Proofs.Controller.Deadlines
import NamespaceOwnership.Proofs.Controller.Operations
import NamespaceOwnership.Proofs.Controller.Settling
import NamespaceOwnership.Proofs.Controller.Idleness
import NamespaceOwnership.Proofs.Controller.Convergence
import NamespaceOwnership.Proofs.Controller.Bookkeeping
import NamespaceOwnership.Proofs.Controller.Listing
import NamespaceOwnership.Proofs.Controller.Orphans
import NamespaceOwnership.Proofs.Controller.Faults
import NamespaceOwnership.Proofs.Controller.Survival
import NamespaceOwnership.Proofs.Controller.Tasks
import NamespaceOwnership.Proofs.Controller.Closure
import NamespaceOwnership.Proofs.Controller.Tenure
import NamespaceOwnership.Proofs.Controller.Parts
import NamespaceOwnership.Proofs.Controller.Writing
import NamespaceOwnership.Proofs.Controller.Tally
import NamespaceOwnership.Proofs.Controller.Metrics
import NamespaceOwnership.Proofs.Controller.Effects
import NamespaceOwnership.Proofs.Controller.Upkeep
import NamespaceOwnership.Proofs.Controller.Chronicle
import NamespaceOwnership.Proofs.Controller.Retries
import NamespaceOwnership.Proofs.Controller.Ignoring
import NamespaceOwnership.Proofs.Controller.Reporting
import NamespaceOwnership.Proofs.Controller.Ordering
import NamespaceOwnership.Proofs.Controller.Denials
import NamespaceOwnership.Proofs.Election.Contest
import NamespaceOwnership.Proofs.Election.Exclusion
import NamespaceOwnership.Proofs.Election.Overlap
import NamespaceOwnership.Proofs.Election.Handover
import NamespaceOwnership.Proofs.Election.OneLoop
import NamespaceOwnership.Proofs.Mapping.Tally
import NamespaceOwnership.Proofs.Reading
import NamespaceOwnership.Proofs.Mapping.Plan
import NamespaceOwnership.Proofs.Mapping.Prefixes
import NamespaceOwnership.Proofs.Mapping.Exactness
import NamespaceOwnership.Proofs.Mapping.Recovery
import NamespaceOwnership.Proofs.Ledger.Readings
import NamespaceOwnership.Proofs.Mapping.Objections
import NamespaceOwnership.Proofs.Mapping.Interpretation
import NamespaceOwnership.Proofs.Mapping.Unmapping
import NamespaceOwnership.Proofs.Mapping.Omission
import NamespaceOwnership.Proofs.Mapping.Bystanders
import NamespaceOwnership.Proofs.Mapping.Vanishing
import NamespaceOwnership.Proofs.Controller.Malformed
import NamespaceOwnership.Proofs.Ascending
import NamespaceOwnership.Proofs.Selector.Grammar
import NamespaceOwnership.Proofs.Selector.Acceptance
import NamespaceOwnership.Proofs.Selector.Meaning
import NamespaceOwnership.Proofs.Selector.Terms
import NamespaceOwnership.Proofs.Selector.Spelling
import NamespaceOwnership.Proofs.Controller.Skipping
import NamespaceOwnership.Proofs.Controller.Backoff
import NamespaceOwnership.Proofs.Controller.Watching
import NamespaceOwnership.Proofs.Mapping.Expiry
import NamespaceOwnership.Proofs.Election.Acquisition
import NamespaceOwnership.Proofs.Redaction.Rules
import NamespaceOwnership.Proofs.Redaction.Scanning
import NamespaceOwnership.Proofs.Redaction.Credentials
import NamespaceOwnership.Proofs.Redaction.Approach
import NamespaceOwnership.Proofs.Redaction.Keywords
import NamespaceOwnership.Proofs.Redaction.Secrecy
import NamespaceOwnership.Proofs.Election.CleanHandoff
import NamespaceOwnership.Proofs.Election.Alternation
