import SaasBackend.Proc
import SaasBackend.Runs
import SaasBackend.Interference
import SaasBackend.Schedules
import SaasBackend.Stops
import SaasBackend.PgLexer
import SaasBackend.PgTokens
import SaasBackend.PgLines
import SaasBackend.PgPieces
import SaasBackend.Nested
import SaasBackend.Table
import SaasBackend.Models
import SaasBackend.World
import SaasBackend.AuthRepo
import SaasBackend.Tokens
import SaasBackend.AuthService
import SaasBackend.BillingRepo
import SaasBackend.StripeGateway
import SaasBackend.BillingService
import SaasBackend.BillingSystem
import SaasBackend.BillingChanges
import SaasBackend.BillingEffects
import SaasBackend.BillingSteps
import SaasBackend.PaidPeriods
import SaasBackend.Customers
import SaasBackend.Tenants
import SaasBackend.Cancellation
import SaasBackend.OneAccess
import SaasBackend.HandlerRows
import SaasBackend.Purchase
import SaasBackend.Retry
import SaasBackend.Ledger
import SaasBackend.UpgradeRetry
import SaasBackend.StaleFailure
import SaasBackend.Webhook
import SaasBackend.AuthSystem
import SaasBackend.AuthActs
import SaasBackend.AuthSteps
import SaasBackend.TokenRows
import SaasBackend.DisabledAccounts
import SaasBackend.RefreshHistory
import SaasBackend.RefreshRace
import SaasBackend.LoginCodes
import SaasBackend.CodeHistory
import SaasBackend.CodeRace
import SaasBackend.AccountService
import SaasBackend.AccountSystem
import SaasBackend.FlagProvenance
import SaasBackend.TokenPurposes
import SaasBackend.AiUtils
import SaasBackend.AdminService
import SaasBackend.AdminApi
import SaasBackend.AdminAccess
import SaasBackend.PlanService
import SaasBackend.PlanUpdates
import SaasBackend.PlanSystem
import SaasBackend.PlanPeriods
import SaasBackend.PlansOnSale
import SaasBackend.HttpApi
import SaasBackend.AuditTrail
import SaasBackend.AuditRace
import SaasBackend.TokenSwap
import SaasBackend.StoppedSessions
import SaasBackend.SqlGuard
import SaasBackend.SqlStatements
import SaasBackend.SqlText
import SaasBackend.SqlLiterals
import SaasBackend.PlanCodes
import SaasBackend.AccountExistence
import SaasBackend.SocialLogins
import SaasBackend.Paging
import SaasBackend.AdminPages
import SaasBackend.InvoiceLines
import SaasBackend.CancelRequests
import SaasBackend.RateLimits
import SaasBackend.LoginGuesses
import SaasBackend.TokenLifetimes
import SaasBackend.QueryResults
import SaasBackend.Conversation
import SaasBackend.EnumCase
import SaasBackend.OneSelect
import SaasBackend.CommentRemoval
import SaasBackend.PreviewLimits
import SaasBackend.EnumLiterals
import SaasBackend.EnumComparisons
import SaasBackend.Migrations
import SaasBackend.Server
import SaasBackend.BillingSessions
import SaasBackend.BillingTraffic
import SaasBackend.TrafficSteps
import SaasBackend.PaymentMails
import SaasBackend.CsvExport
import SaasBackend.TrafficLaws
import SaasBackend.StatusChanges
import SaasBackend.OAuthBrowsers
import SaasBackend.Passwords
