import VoucherGateway.Action
import VoucherGateway.Admission
import VoucherGateway.Atoms
import VoucherGateway.Bytes
import VoucherGateway.Chain.Reader
import VoucherGateway.Chain.Snapshot
import VoucherGateway.Chain.Source
import VoucherGateway.CommandLine.Arguments
import VoucherGateway.CommandLine.Command
import VoucherGateway.CommandLine.Outcome
import VoucherGateway.Config.Basic
import VoucherGateway.Config.File
import VoucherGateway.Counters
import VoucherGateway.Credit
import VoucherGateway.Crypto.Ed25519
import VoucherGateway.Crypto.Edwards
import VoucherGateway.Crypto.Sha2
import VoucherGateway.Error
import VoucherGateway.Gate
import VoucherGateway.Gateway.Inquiry
import VoucherGateway.Gateway.Operations
import VoucherGateway.Gateway.Query
import VoucherGateway.Gateway.Reaper
import VoucherGateway.Gateway.Session
import VoucherGateway.Gateway.Spending
import VoucherGateway.Gateway.State
import VoucherGateway.Gateway.Timeline
import VoucherGateway.Main
import VoucherGateway.MessagePack.Decoder
import VoucherGateway.MessagePack.Value
import VoucherGateway.Price
import VoucherGateway.Procedure
import VoucherGateway.Proofs.Amounts.Credit
import VoucherGateway.Proofs.Amounts.Price
import VoucherGateway.Proofs.Chain.Backoff
import VoucherGateway.Proofs.Chain.Freshness
import VoucherGateway.Proofs.Chain.History
import VoucherGateway.Proofs.Chain.Recency
import VoucherGateway.Proofs.Clients.Absence
import VoucherGateway.Proofs.Clients.Amendments
import VoucherGateway.Proofs.Clients.Beside
import VoucherGateway.Proofs.Clients.Calls
import VoucherGateway.Proofs.Clients.Matching
import VoucherGateway.Proofs.Clients.Passes
import VoucherGateway.Proofs.Clients.Queries
import VoucherGateway.Proofs.Clients.Renaming
import VoucherGateway.Proofs.Clients.Steps
import VoucherGateway.Proofs.Clients.Vouchers
import VoucherGateway.Proofs.Clients.Worlds
import VoucherGateway.Proofs.Confined
import VoucherGateway.Proofs.Counters.Restarts
import VoucherGateway.Proofs.Ending
import VoucherGateway.Proofs.Gate.Coherence
import VoucherGateway.Proofs.Gate.Exclusion
import VoucherGateway.Proofs.Gate.Fairness
import VoucherGateway.Proofs.Gate.Order
import VoucherGateway.Proofs.Gate.Realisation
import VoucherGateway.Proofs.Gate.Settling
import VoucherGateway.Proofs.Gate.Shared
import VoucherGateway.Proofs.Keyed
import VoucherGateway.Proofs.Ledger.Admission
import VoucherGateway.Proofs.Ledger.Basic
import VoucherGateway.Proofs.Ledger.Books
import VoucherGateway.Proofs.Ledger.Calls
import VoucherGateway.Proofs.Ledger.Calm
import VoucherGateway.Proofs.Ledger.Commitments
import VoucherGateway.Proofs.Ledger.Consumption
import VoucherGateway.Proofs.Ledger.Expiry
import VoucherGateway.Proofs.Ledger.Finishing
import VoucherGateway.Proofs.Ledger.Preservation
import VoucherGateway.Proofs.Ledger.Queries
import VoucherGateway.Proofs.Ledger.Reaping
import VoucherGateway.Proofs.Ledger.Reservations
import VoucherGateway.Proofs.Ledger.Rows
import VoucherGateway.Proofs.Ledger.Settling
import VoucherGateway.Proofs.Ledger.Sound
import VoucherGateway.Proofs.Ledger.Spending
import VoucherGateway.Proofs.Ledger.Steady
import VoucherGateway.Proofs.Ledger.Vouchers
import VoucherGateway.Proofs.Ledger.Writes
import VoucherGateway.Proofs.Likeness
import VoucherGateway.Proofs.Run.Aborts
import VoucherGateway.Proofs.Run.Admissions
import VoucherGateway.Proofs.Run.Attempts
import VoucherGateway.Proofs.Run.Basic
import VoucherGateway.Proofs.Run.Charges
import VoucherGateway.Proofs.Run.Commitments
import VoucherGateway.Proofs.Run.Episodes
import VoucherGateway.Proofs.Run.Expiry
import VoucherGateway.Proofs.Run.FailedOffers
import VoucherGateway.Proofs.Run.Finality
import VoucherGateway.Proofs.Run.Freezing
import VoucherGateway.Proofs.Run.Halts
import VoucherGateway.Proofs.Run.Handover
import VoucherGateway.Proofs.Run.Histories
import VoucherGateway.Proofs.Run.Isolation
import VoucherGateway.Proofs.Run.Locks
import VoucherGateway.Proofs.Run.Overdraft
import VoucherGateway.Proofs.Run.Payments
import VoucherGateway.Proofs.Run.Reliable
import VoucherGateway.Proofs.Run.Reservations
import VoucherGateway.Proofs.Run.Retention
import VoucherGateway.Proofs.Run.Retries
import VoucherGateway.Proofs.Run.Schedules
import VoucherGateway.Proofs.Run.Settlements
import VoucherGateway.Proofs.Run.Takings
import VoucherGateway.Proofs.Run.Turnover
import VoucherGateway.Proofs.Settings.Documents
import VoucherGateway.Proofs.Settings.RoundTrip
import VoucherGateway.Proofs.Settings.Scalars
import VoucherGateway.Proofs.Settlement.Batches
import VoucherGateway.Proofs.Stores.Exactness
import VoucherGateway.Proofs.Stores.Journal
import VoucherGateway.Proofs.Stores.Service
import VoucherGateway.Proofs.Traffic.Basic
import VoucherGateway.Proofs.Traffic.Counting
import VoucherGateway.Proofs.Traffic.Idle
import VoucherGateway.Proofs.Traffic.Reconciliation
import VoucherGateway.Proofs.Traffic.Stretches
import VoucherGateway.Proofs.Traffic.Tally
import VoucherGateway.Proofs.Traffic.Totals
import VoucherGateway.Proofs.Wire.Identifiers
import VoucherGateway.Proofs.Wire.Readable
import VoucherGateway.Proofs.Wire.RoundTrip
import VoucherGateway.Proofs.Wire.Spelling
import VoucherGateway.Proofs.Wire.Vouchers
import VoucherGateway.QueryState
import VoucherGateway.Settlement
import VoucherGateway.Store.Costs
import VoucherGateway.Store.Outage
import VoucherGateway.Store.Vouchers
import VoucherGateway.Table
import VoucherGateway.Text.Blank
import VoucherGateway.Text.Decimal
import VoucherGateway.Text.Hex
import VoucherGateway.Text.Quoted
import VoucherGateway.Text.Radix
import VoucherGateway.Toml.Document
import VoucherGateway.Toml.Layout
import VoucherGateway.Toml.Moment
import VoucherGateway.Toml.Number
import VoucherGateway.Toml.Quoted
import VoucherGateway.Toml.Quoted.RoundTrip
import VoucherGateway.Toml.Statement
import VoucherGateway.Toml.Tree
import VoucherGateway.Toml.Value
import VoucherGateway.Voucher.Basic
import VoucherGateway.Voucher.Identifier
import VoucherGateway.Voucher.Signed
import VoucherGateway.Voucher.Wire
import VoucherGateway.Wait
