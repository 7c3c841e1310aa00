import SailsProtocol.Async.Program
import SailsProtocol.Async.Pool
import SailsProtocol.Async.ClaimStack
import SailsProtocol.Async.Steps
import SailsProtocol.Escrow.Script
import SailsProtocol.Escrow.Status
import SailsProtocol.Escrow.World
import SailsProtocol.Escrow.Operations
import SailsProtocol.Escrow.Requests
import SailsProtocol.Escrow.Discipline
import SailsProtocol.Escrow.Conformance
import SailsProtocol.Escrow.Effects
import SailsProtocol.Escrow.Claims
import SailsProtocol.Escrow.Broadcast
import SailsProtocol.Escrow.Movement
import SailsProtocol.Escrow.Collateral
import SailsProtocol.Escrow.PendingRow
import SailsProtocol.Escrow.KeyCommitment
import SailsProtocol.Escrow.History
import SailsProtocol.Escrow.Completion
import SailsProtocol.Escrow.Publication
import SailsProtocol.Events.Bus
import SailsProtocol.Events.Handlers
import SailsProtocol.Events.Delivery
import SailsProtocol.Text.CodeUnits
import SailsProtocol.Text.Digits
import SailsProtocol.Text.Calendar
import SailsProtocol.Text.Json
import SailsProtocol.Offer.Envelope
import SailsProtocol.Offer.Signing
import SailsProtocol.Offer.Persistence
import SailsProtocol.Offer.Repository
import SailsProtocol.Offer.Convergence
import SailsProtocol.Intent.Status
import SailsProtocol.Intent.Engine
import SailsProtocol.Intent.Chain
import SailsProtocol.Arbitration.Authority
import SailsProtocol.Arbitration.Disputes
import SailsProtocol.Arbitration.Rulings
import SailsProtocol.Arbitration.Disposition
import SailsProtocol.Arbitration.Case
import SailsProtocol.Arbitration.Reopening
import SailsProtocol.Trading.Trade
import SailsProtocol.Trading.Lifecycle
import SailsProtocol.Trading.Cancellation
import SailsProtocol.Numeric.Rounding
import SailsProtocol.Numeric.Decimal
import SailsProtocol.Settlement.Outcome
import SailsProtocol.Settlement.Guard
import SailsProtocol.Settlement.Correspondence
import SailsProtocol.Settlement.Fees
import SailsProtocol.Settlement.Spend
import SailsProtocol.Settlement.Obligations
import SailsProtocol.Settlement.Dispatch
import SailsProtocol.Settlement.Funding
import SailsProtocol.Settlement.Reconciliation
import SailsProtocol.Settlement.Reorg
import SailsProtocol.Text.Decimals
import SailsProtocol.Fees.Account
import SailsProtocol.Fees.Collection
import SailsProtocol.Fees.Broadcasts
import SailsProtocol.Fees.Recording
import SailsProtocol.Fees.Allocation
import SailsProtocol.Fees.Reversal
import SailsProtocol.Fees.Split
import SailsProtocol.Fees.Policy
import SailsProtocol.Wdk.Provider
import SailsProtocol.Wdk.Facts
import SailsProtocol.Wdk.Attempts
import SailsProtocol.Wdk.Outcomes
import SailsProtocol.Common.Idempotency
import SailsProtocol.Events.Log
import SailsProtocol.Escrow.Audit
import SailsProtocol.Numeric.Doubles
import SailsProtocol.Wallet.Verification
import SailsProtocol.Wallet.Expectation
import SailsProtocol.Identity.Signatures
import SailsProtocol.Settlement.Burial
import SailsProtocol.Arbitration.Slashing
import SailsProtocol.Arbitration.Appointment
import SailsProtocol.Order.Threshold
import SailsProtocol.Core.Conditions
import SailsProtocol.Common.RateLimit
import SailsProtocol.Order.Sorting
import SailsProtocol.Text.Separators
import SailsProtocol.Settlement.Skims
import SailsProtocol.Settlement.Canonical
import SailsProtocol.Intent.Expiry
import SailsProtocol.Order.Paging
import SailsProtocol.Numeric.Number
import SailsProtocol.Liquidity.OrderBook
import SailsProtocol.Order.Search
import SailsProtocol.Liquidity.Proposal
import SailsProtocol.Order.Cursor
import SailsProtocol.Negotiation.Reconciliation
import SailsProtocol.P2p.Peers
import SailsProtocol.Numeric.Shortest
import SailsProtocol.Text.Tree
import SailsProtocol.Proof.Evidence
import SailsProtocol.Arbitration.Decision
import SailsProtocol.Text.PlainDecimal
import SailsProtocol.Wdk.Amounts
import SailsProtocol.Auth.Sessions
import SailsProtocol.Capability.Gate
