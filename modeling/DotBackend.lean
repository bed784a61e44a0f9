import DotBackend.Memory.Secrets
import DotBackend.Apps.RateLimits
import DotBackend.Schedules.DurableQueues
import DotBackend.Schedules.DeletionRequests
import DotBackend.Agents.ToolJournalLaws
import DotBackend.Apps.ExactlyOnce
import DotBackend.Builder.QueuedRevisions
import DotBackend.Builder.BuildGates
import DotBackend.Channel.DeliveryOrder
import DotBackend.Integrations.Disconnecting
import DotBackend.Groups.AppMembers
import DotBackend.Groups.Claiming
import DotBackend.Groups.Joining
import DotBackend.Groups.DepartedOwner
import DotBackend.Finance.SyncedLedger
import DotBackend.Integrations.SingleUse
import DotBackend.Identity.Revocation
import DotBackend.Identity.Accounts
import DotBackend.Builder.SafeSettlement
import DotBackend.Memory.Forgetting
import DotBackend.Waitlist.Ranking
import DotBackend.Migrations.NothingLost
import DotBackend.Agents.SilencedFollowUps
import DotBackend.Memory.EntityNames
import DotBackend.Memory.RetrievalLimits
import DotBackend.Schedules.NextRun
import DotBackend.Groups.MemberKeys
import DotBackend.Agents.Runner
import DotBackend.Apps.Reversal
import DotBackend.Builder.FailureCodes
import DotBackend.Builder.SeedLanding
import DotBackend.Workspaces.GroupNames
import DotBackend.Identity.AttemptWindows
import DotBackend.Agents.RecentMessages
import DotBackend.Identity.StoredHandles
import DotBackend.Finance.Pagination
import DotBackend.Agents.CompletionLinks
import DotBackend.Agents.SurvivingLinks
import DotBackend.Builder.RecordConvergence
import DotBackend.Workspaces.LoadedModules
import DotBackend.Builder.SourceGates
import DotBackend.Builder.RevisionSizes
