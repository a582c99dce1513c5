import Dayfinch.Library.Run
import Dayfinch.Library.Table
import Dayfinch.Library.Calendar
import Dayfinch.Library.Span
import Dayfinch.Clock
import Dayfinch.Schema
import Dayfinch.Work.Sync
import Dayfinch.Work.Closers
import Dayfinch.Work.Step
import Dayfinch.Work.StoreInvariant
import Dayfinch.Work.SyncEffect
import Dayfinch.Work.NoOverlap
import Dayfinch.Work.Lease
import Dayfinch.Work.Replay
import Dayfinch.Work.Access
import Dayfinch.Approval.Timesheets
import Dayfinch.Approval.Frozen
import Dayfinch.Library.Zone
import Dayfinch.Payroll.Conservation
import Dayfinch.Library.Text
import Dayfinch.Payments.Store
import Dayfinch.Payments.Providers
import Dayfinch.Payments.Step
import Dayfinch.Payments.Effect
import Dayfinch.Payments.Invariant
import Dayfinch.Payments.PaidOnce
import Dayfinch.Payments.Acknowledged
import Dayfinch.Library.Recurrence
import Dayfinch.Reports.Schedule
import Dayfinch.Reports.Coverage
import Dayfinch.Reports.Claims
import Dayfinch.Payroll.Overtime
import Dayfinch.Work.SessionMoves
import Dayfinch.Work.Durations
import Dayfinch.Work.Breaks
import Dayfinch.Work.Delivery
import Dayfinch.Agent.Queue
import Dayfinch.Agent.Fifo
import Dayfinch.Agent.QueueSteps
import Dayfinch.Agent.QueueSound
import Dayfinch.Agent.Automatic
import Dayfinch.Agent.Suppression
import Dayfinch.Agent.Installer
import Dayfinch.Agent.UpdateSafety
import Dayfinch.Approval.Additive
import Dayfinch.Integrations.Connections
import Dayfinch.Integrations.Consent
import Dayfinch.Payroll.Windows
import Dayfinch.Library.Sealing
import Dayfinch.Vault.Credentials
import Dayfinch.Vault.Workers
import Dayfinch.Vault.Linearizable
import Dayfinch.Vault.Rotation
import Dayfinch.Integrations.Importers
import Dayfinch.Integrations.LiveTasks
import Dayfinch.Invoices.Team
import Dayfinch.Invoices.Consistency
import Dayfinch.Mobile.Queue
import Dayfinch.Mobile.Replay
import Dayfinch.Integrations.Worklogs
import Dayfinch.Integrations.Staging
import Dayfinch.Integrations.Webhooks
import Dayfinch.Accounts.Saml
import Dayfinch.Accounts.ScimGroups
import Dayfinch.Accounts.Invitations
import Dayfinch.Integrations.MappingSync
import Dayfinch.Integrations.SyncClaims
import Dayfinch.Library.Register
import Dayfinch.Integrations.Convergence
import Dayfinch.Integrations.Listings
import Dayfinch.Payroll.Approved
import Dayfinch.Reports.TimeRows
import Dayfinch.Reports.Additivity
import Dayfinch.Integrations.Interleavings
import Dayfinch.Jobs.Coordinator
import Dayfinch.Integrations.SlackOutbox
import Dayfinch.Integrations.SlackClaims
import Dayfinch.Library.Transaction
import Dayfinch.Work.PolicyStatements
import Dayfinch.Work.PolicyRows
import Dayfinch.Work.PolicyDiscipline
import Dayfinch.Work.DesktopOnly
import Dayfinch.Agent.Consent
import Dayfinch.Screenshots.Store
import Dayfinch.Screenshots.Invariant
import Dayfinch.Screenshots.Passes
import Dayfinch.Screenshots.Tidy
import Dayfinch.Invoices.Documents
import Dayfinch.Invoices.Sealed
import Dayfinch.Accounts.ScimFrame
import Dayfinch.Payments.Events
import Dayfinch.Payments.Progress
import Dayfinch.Invoices.Numbers
import Dayfinch.Invoices.Ledger
import Dayfinch.Reports.NextDelivery
import Dayfinch.Library.Lines
import Dayfinch.Reports.QuickBooks
import Dayfinch.Reports.QuickBooksExport
import Dayfinch.Library.Records
import Dayfinch.Reports.ZipStream
import Dayfinch.Reports.ZipRoundTrip
import Dayfinch.Work.WebTimer
import Dayfinch.Work.Stops
import Dayfinch.Work.Rejections
import Dayfinch.Agent.FixedSchedule
import Dayfinch.Jobs.RateLimits
import Dayfinch.Approval.PayPeriods
import Dayfinch.Agent.Versions
import Dayfinch.Integrations.Discovery
import Dayfinch.Library.Crossings
import Dayfinch.Work.Geofences
import Dayfinch.Work.FieldPage
import Dayfinch.Work.FieldFlush
import Dayfinch.Agent.Reminders
import Dayfinch.Agent.Domains
import Dayfinch.Agent.DownloadIntegrity
import Dayfinch.Backup.Archive
import Dayfinch.Backup.Faithful
import Dayfinch.Backup.Tampering
import Dayfinch.Library.Groups
import Dayfinch.Library.Rounding
import Dayfinch.Reports.GroupedDays
import Dayfinch.Accounts.SignIn
import Dayfinch.Accounts.Throttle
import Dayfinch.Library.Csv
import Dayfinch.Reports.CsvExport
import Dayfinch.Storage.Migrations
