import ReferenceMint.Audit
import ReferenceMint.Interleaving
import ReferenceMint.Main
import ReferenceMint.Proofs.Store.Ledger
import ReferenceMint.Session
import ReferenceMint.Storage.FaultRates
import ReferenceMint.Text.Message
import ReferenceMint.Proofs.Cursor
import ReferenceMint.Proofs.Registry
import ReferenceMint.Proofs.Store.Rows
import ReferenceMint.Proofs.Store.History
import ReferenceMint.Proofs.Interleaving
import ReferenceMint.Proofs.Storage.Memory
import ReferenceMint.Proofs.Store.LedgerStore
import ReferenceMint.Proofs.Store.Contention
import ReferenceMint.Proofs.Reference
import ReferenceMint.Proofs.Issuing
import ReferenceMint.Proofs.Uniqueness
import ReferenceMint.Proofs.LostUpdate
import ReferenceMint.Proofs.Store.Book
import ReferenceMint.Proofs.Store.LedgerBook
import ReferenceMint.Proofs.Store.Database
import ReferenceMint.Proofs.Store.DatabaseBook
import ReferenceMint.Proofs.Store.Interchange
import ReferenceMint.Proofs.Storage.Traced
import ReferenceMint.Proofs.WriteOnce
import ReferenceMint.Proofs.Storage.Versions
import ReferenceMint.Proofs.Store.Sightings
import ReferenceMint.Proofs.Attempts
import ReferenceMint.Proofs.Standing
import ReferenceMint.Proofs.Allocating
import ReferenceMint.Proofs.CommitOrder
import ReferenceMint.Proofs.LostRaces
import ReferenceMint.Proofs.Enumeration
import ReferenceMint.Proofs.Storage.Writers
import ReferenceMint.Proofs.Processes
import ReferenceMint.Proofs.RaceOutcome
import ReferenceMint.Proofs.Asking
import ReferenceMint.Proofs.Store.Serving
import ReferenceMint.Proofs.Remaining
import ReferenceMint.Proofs.Succession
import ReferenceMint.Proofs.Grammar
import ReferenceMint.Proofs.Reading
import ReferenceMint.Proofs.Batch.Steps
import ReferenceMint.Proofs.Batch.Outcome
import ReferenceMint.Proofs.Batch.Rerun
import ReferenceMint.Proofs.Committing
import ReferenceMint.Proofs.Permanence
import ReferenceMint.Proofs.Batch.Places
import ReferenceMint.Proofs.Batch.Concurrent
import ReferenceMint.Proofs.Rendering
import ReferenceMint.Proofs.Exhaustion
import ReferenceMint.Proofs.Store.Isolation
import ReferenceMint.Proofs.Store.Shape
import ReferenceMint.Proofs.Store.Swapping
import ReferenceMint.Proofs.Storage.Interference
import ReferenceMint.Proofs.Store.Admission
import ReferenceMint.Proofs.Store.Transaction
import ReferenceMint.Proofs.Walking
import ReferenceMint.Proofs.Store.TracedLedger
import ReferenceMint.Proofs.Store.ForcedRaces
import ReferenceMint.Proofs.Store.Steadiness
import ReferenceMint.Proofs.Batch.Running
import ReferenceMint.Proofs.RetryBudget
import ReferenceMint.Proofs.Batch.Halting
import ReferenceMint.Proofs.Storage.Tokens
import ReferenceMint.Proofs.Reporting
import ReferenceMint.Proofs.Sorting
import ReferenceMint.Proofs.Ascending
import ReferenceMint.Proofs.Persistence
import ReferenceMint.Proofs.Configuration
import ReferenceMint.Proofs.Legacy
import ReferenceMint.Proofs.Series
import ReferenceMint.Proofs.CommandLine.Workspace
import ReferenceMint.Proofs.CommandLine.Generating
import ReferenceMint.Proofs.Accounting
import ReferenceMint.Proofs.Audit
