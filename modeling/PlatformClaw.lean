import PlatformClaw.Browser.Agreement
import PlatformClaw.Browser.ApprovalRuns
import PlatformClaw.Browser.LoginBlocks
import PlatformClaw.Browser.ReleaseRuns
import PlatformClaw.Browser.SessionRuns
import PlatformClaw.Execution.Accounting
import PlatformClaw.Execution.GrantRuns
import PlatformClaw.Execution.TmuxReading
import PlatformClaw.Execution.VmRuns
import PlatformClaw.Reef.ReplayClaims
import PlatformClaw.Reef.InboundRuns
import PlatformClaw.Reef.FriendRuns
import PlatformClaw.HorseRacing.DrawChances
import PlatformClaw.Organization.Agreement
import PlatformClaw.Organization.Freshness
import PlatformClaw.Organization.JoinRuns
import PlatformClaw.Organization.ProvenanceRuns
import PlatformClaw.Organization.ScopeTreeRuns
import PlatformClaw.Spaces.ConversationRuns
import PlatformClaw.Spaces.LifecycleRuns
import PlatformClaw.Spaces.QuestionRuns
import PlatformClaw.ToolCalls.Stripping
import PlatformClaw.ToolCalls.Release
import PlatformClaw.Reporting.ReportProgress
import PlatformClaw.Addressing.FrontmatterEdits
import PlatformClaw.Lanes.LaneLimits
import PlatformClaw.Lanes.Stranding
import PlatformClaw.Skills.PublicationLaws
import PlatformClaw.Reef.InboxDelivery
import PlatformClaw.Reef.ResendCooldown
import PlatformClaw.Gateway.AdmissionSafety
import PlatformClaw.Devices.BootstrapRuns
import PlatformClaw.Library.NestedMarks
import PlatformClaw.Library.FixedDigits
import PlatformClaw.Library.Turns
import PlatformClaw.Library.ScriptDecimal
import PlatformClaw.Markdown.Spans
import PlatformClaw.Markdown.Render
import PlatformClaw.Markdown.Pieces
import PlatformClaw.Markdown.ChunkText
import PlatformClaw.Markdown.CodeRegions
import PlatformClaw.Markdown.RenderChunks
import PlatformClaw.Skills.MaintenanceTurns
import PlatformClaw.Reef.Ulid
import PlatformClaw.Reef.UlidRuns
import PlatformClaw.Reef.CanonicalJson
import PlatformClaw.Reef.CanonicalInjective
import PlatformClaw.Reef.OutboundText
import PlatformClaw.Scheduling.Schedule
import PlatformClaw.Scheduling.StaggeredRuns
import PlatformClaw.Approvals.Allowlist
import PlatformClaw.Approvals.SafeBinReading
import PlatformClaw.ToolCalls.JsonSuppression
import PlatformClaw.ToolCalls.RangeRemoval
import PlatformClaw.Spaces.BodyPieces
import PlatformClaw.Wiki.AccessRuns
import PlatformClaw.Markdown.Balance
