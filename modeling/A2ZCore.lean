import A2ZCore.Core.Admin
import A2ZCore.Core.Audience
import A2ZCore.Core.AuditLog
import A2ZCore.Core.Auth
import A2ZCore.Core.Bounces
import A2ZCore.Core.ConfigSets
import A2ZCore.Core.Email
import A2ZCore.Core.FileRegistry
import A2ZCore.Core.InvoiceCounter
import A2ZCore.Core.IsoFormat
import A2ZCore.Core.JsonText
import A2ZCore.Core.Marshalling
import A2ZCore.Core.MembershipListing
import A2ZCore.Core.MembershipTable
import A2ZCore.Core.MembershipViews
import A2ZCore.Core.Numbers
import A2ZCore.Core.Orgs
import A2ZCore.Core.OrgView
import A2ZCore.Core.RateLimit
import A2ZCore.Core.Realtime
import A2ZCore.Core.ReportedNumber
import A2ZCore.Core.SesNotifications
import A2ZCore.Core.SignedString
import A2ZCore.Core.Steady
import A2ZCore.Core.Storage
import A2ZCore.Core.Values
import A2ZCore.Invoicing.Commits
import A2ZCore.Invoicing.Concurrency
import A2ZCore.Invoicing.Idempotency
import A2ZCore.Invoicing.Isolation
import A2ZCore.Invoicing.ItemOrder
import A2ZCore.Invoicing.Lifecycle
import A2ZCore.Invoicing.LineAmounts
import A2ZCore.Invoicing.Listing
import A2ZCore.Invoicing.Mailing
import A2ZCore.Invoicing.Markup
import A2ZCore.Invoicing.Numbering
import A2ZCore.Invoicing.Receipts
import A2ZCore.Invoicing.StoredItems
import A2ZCore.Lib.Balance
import A2ZCore.Lib.Base64
import A2ZCore.Lib.Batch
import A2ZCore.Lib.EventStream
import A2ZCore.Lib.Expiring
import A2ZCore.Lib.Harvest
import A2ZCore.Lib.InStep
import A2ZCore.Lib.Keyset
import A2ZCore.Lib.LossyLog
import A2ZCore.Lib.Mailbox
import A2ZCore.Lib.Once
import A2ZCore.Lib.Pool
import A2ZCore.Lib.QueryPage
import A2ZCore.Lib.Queue
import A2ZCore.Lib.Regex
import A2ZCore.Lib.Table
import A2ZCore.Lib.Truth
import A2ZCore.Lib.Unwinding
import A2ZCore.Lib.Window
import A2ZCore.Omnichannel.Accounts
import A2ZCore.Omnichannel.Adapters
import A2ZCore.Omnichannel.Announcements
import A2ZCore.Omnichannel.Assignees
import A2ZCore.Omnichannel.Assignments
import A2ZCore.Omnichannel.AutoRouting
import A2ZCore.Omnichannel.Batches
import A2ZCore.Omnichannel.Claims
import A2ZCore.Omnichannel.Commits
import A2ZCore.Omnichannel.Confluence
import A2ZCore.Omnichannel.Connections
import A2ZCore.Omnichannel.Correspondents
import A2ZCore.Omnichannel.Credentials
import A2ZCore.Omnichannel.Cursors
import A2ZCore.Omnichannel.CursorText
import A2ZCore.Omnichannel.Dedup
import A2ZCore.Omnichannel.Delivery
import A2ZCore.Omnichannel.Effects
import A2ZCore.Omnichannel.Email
import A2ZCore.Omnichannel.Handlers
import A2ZCore.Omnichannel.Inbound
import A2ZCore.Omnichannel.Inbox
import A2ZCore.Omnichannel.InboxWalk
import A2ZCore.Omnichannel.InboxWrites
import A2ZCore.Omnichannel.Ingestion
import A2ZCore.Omnichannel.Ladder
import A2ZCore.Omnichannel.Media
import A2ZCore.Omnichannel.Messenger
import A2ZCore.Omnichannel.MetaElements
import A2ZCore.Omnichannel.MimeParts
import A2ZCore.Omnichannel.Models
import A2ZCore.Omnichannel.Outbound
import A2ZCore.Omnichannel.Prefixes
import A2ZCore.Omnichannel.Publishing
import A2ZCore.Omnichannel.Redelivery
import A2ZCore.Omnichannel.References
import A2ZCore.Omnichannel.Replies
import A2ZCore.Omnichannel.RoutingConfig
import A2ZCore.Omnichannel.Secrets
import A2ZCore.Omnichannel.SendFailures
import A2ZCore.Omnichannel.Sends
import A2ZCore.Omnichannel.Session
import A2ZCore.Omnichannel.SettingsWrites
import A2ZCore.Omnichannel.Statuses
import A2ZCore.Omnichannel.Stranding
import A2ZCore.Omnichannel.Stream
import A2ZCore.Omnichannel.StreamText
import A2ZCore.Omnichannel.Tenancy
import A2ZCore.Omnichannel.Tenants
import A2ZCore.Omnichannel.Isolation
import A2ZCore.Omnichannel.ThreadWalk
import A2ZCore.Omnichannel.Unread
import A2ZCore.Omnichannel.Validators
import A2ZCore.Omnichannel.Verification
import A2ZCore.Omnichannel.Webhooks
import A2ZCore.Omnichannel.WhatsApp
