import RallyApi.Access.Assignments
import RallyApi.Access.GrantChains
import RallyApi.Access.Permissions
import RallyApi.Archive.ReadOnly
import RallyApi.Archive.TenantIsolation
import RallyApi.Attachments.Lifecycle
import RallyApi.Audit.Delivery
import RallyApi.Cache.Idempotency
import RallyApi.Cache.Lock
import RallyApi.Cache.RateLimit
import RallyApi.Cache.RateLimitGuard
import RallyApi.Collaboration.Authorship
import RallyApi.CrossTenant.Isolation
import RallyApi.CrossTenant.References
import RallyApi.Http.RequestLog
import RallyApi.Identity.AccountEnumeration
import RallyApi.Identity.AuthMethods
import RallyApi.Identity.Authentication
import RallyApi.Identity.Deactivation
import RallyApi.Identity.Denylist
import RallyApi.Identity.JitProvisioning
import RallyApi.Identity.Logout
import RallyApi.Identity.Memberships
import RallyApi.Identity.PlatformAdmins
import RallyApi.Identity.PrimaryRole
import RallyApi.Identity.RememberMe
import RallyApi.Identity.ResetVerification
import RallyApi.Identity.Revocation
import RallyApi.Identity.SignupAtomicity
import RallyApi.Listing.OldestFirst
import RallyApi.Listing.UntrustedCursors
import RallyApi.Notifications.BusinessAtomicity
import RallyApi.Notifications.ChannelIndependence
import RallyApi.Notifications.OptOut
import RallyApi.Notifications.RelayRefinement
import RallyApi.Notifications.Retries
import RallyApi.Notifications.SourceEvents
import RallyApi.Notifications.StreamCleanup
import RallyApi.Notifications.StreamGaps
import RallyApi.Outbox.BatchIsolation
import RallyApi.Outbox.WakeSignals
import RallyApi.Platform.DurationParsers
import RallyApi.Projects.RoundTrips
import RallyApi.Releases.PlanningReferences
import RallyApi.Reporting.Burndown
import RallyApi.Reporting.SnapshotFigures
import RallyApi.Reporting.VelocityQuery
import RallyApi.Sanitizing.Leftovers
import RallyApi.Sanitizing.Reach
import RallyApi.Tenancy.GhostMembers
import RallyApi.Tenancy.Joining
import RallyApi.Tenancy.MemberProfiles
import RallyApi.Tenancy.PendingInvitations
import RallyApi.Tenancy.Slugs
import RallyApi.Tenancy.SoleAdmin
import RallyApi.TimeLogs.ActualHours
import RallyApi.TimeLogs.ValidatedHours
import RallyApi.Work.ActiveSprint
import RallyApi.Work.DeclaredDiff
import RallyApi.Work.DefaultStatuses
import RallyApi.Work.HistoryCoverage
import RallyApi.Work.ItemKeys
import RallyApi.Work.Parents
import RallyApi.Work.RevisionHistory
import RallyApi.Work.SprintCompletion
import RallyApi.Work.StatusIntegrity
import RallyApi.Work.WorkItemLists
import RallyApi.Work.WorkflowEnforcement
