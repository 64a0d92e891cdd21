import SixGateway.Library.Run
import SixGateway.Library.Table
import SixGateway.Library.Dict
import SixGateway.Library.Journal
import SixGateway.Library.Program
import SixGateway.Library.Pool
import SixGateway.Library.Isolation
import SixGateway.Library.Embedding
import SixGateway.Library.Refusal
import SixGateway.Library.Delegation
import SixGateway.Library.Commits
import SixGateway.Library.Calls
import SixGateway.Library.Assurance
import SixGateway.Library.Rows
import SixGateway.Library.Nearest
import SixGateway.Library.Cursor
import SixGateway.Library.Pages
import SixGateway.Library.Template
import SixGateway.Library.Chain
import SixGateway.Models
import SixGateway.Errors
import SixGateway.Database
import SixGateway.Schemas
import SixGateway.StripeClient
import SixGateway.LedgerService
import SixGateway.PaymentService
import SixGateway.CheckoutService
import SixGateway.Webhook
import SixGateway.Dashboard
import SixGateway.Reconciliation
import SixGateway.Api
import SixGateway.Gateway
import SixGateway.Queries
import SixGateway.Bookings
import SixGateway.Outcomes
import SixGateway.Sessions
import SixGateway.Deliveries
import SixGateway.Effects
import SixGateway.SessionEffects
import SixGateway.SessionSteps
import SixGateway.Lifecycle
import SixGateway.Positions
import SixGateway.StripeContract
import SixGateway.Drift
import SixGateway.ZeroSum
import SixGateway.Captures
import SixGateway.Refunds
import SixGateway.Tenancy
import SixGateway.KeyTenancy
import SixGateway.Concurrency
import SixGateway.Transactions
import SixGateway.RefundRace
import SixGateway.BookingRace
import SixGateway.TerminalRace
import SixGateway.Redelivery
import SixGateway.DeliveryRace
import SixGateway.EventOnce
import SixGateway.Creations
import SixGateway.CreateRace
import SixGateway.SessionRace
import SixGateway.ExpiryRace
import SixGateway.Replays
import SixGateway.HostedPage
import SixGateway.PagePrice
import SixGateway.PagePayable
import SixGateway.ApiKeyService
import SixGateway.Authentication
import SixGateway.TenantViews
import SixGateway.DayRuns
import SixGateway.FalseAlarms
import SixGateway.Convergence
import SixGateway.Listing
import SixGateway.Classification
import SixGateway.BalanceViews
import SixGateway.FailedDeliveries
import SixGateway.Pagination
import SixGateway.Rendering
import SixGateway.Substitution
import SixGateway.Isolation
import SixGateway.Interleavings
import SixGateway.AuditTrail
import SixGateway.Responses
import SixGateway.MerchantService
import SixGateway.Server
import SixGateway.Contract
import SixGateway.Provenance
import SixGateway.Outgoing
import SixGateway.Revocation
import SixGateway.AmountDisplay
import SixGateway.KeyInventory
import SixGateway.DashboardTotals
import SixGateway.Disclosure
import SixGateway.DailyRuns
import SixGateway.Library.Cells
import SixGateway.Library.Sightings
import SixGateway.PageMarkup
import SixGateway.Library.Contest
import SixGateway.Onboarding
