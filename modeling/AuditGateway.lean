import AuditGateway.Analysis.DeadLetters
import AuditGateway.Analysis.Stuck
import AuditGateway.Analysis.BatchIsolation
import AuditGateway.Rollup.Conservation
import AuditGateway.Pipeline.LongJson
import AuditGateway.Pipeline.Assessments
import AuditGateway.Pipeline.LlmJudge
import AuditGateway.Pipeline.EffectiveTokens
import AuditGateway.Pipeline.MessageKeys
import AuditGateway.Pipeline.Positions
import AuditGateway.Pipeline.UsageFacts
import AuditGateway.Identity.Staleness
import AuditGateway.Gateway.AssembledUsage
import AuditGateway.Gateway.ToolCalls
import AuditGateway.Gateway.Truncation
import AuditGateway.Gateway.Redaction
import AuditGateway.Gateway.EngineModels
import AuditGateway.Gateway.HopByHop
import AuditGateway.Gateway.KeySpellings
import AuditGateway.Gateway.UpstreamUrl
import AuditGateway.Streams.Readers
import AuditGateway.Streams.ChatStreams
import AuditGateway.Admin.PasswordChange
import AuditGateway.Admin.SessionCookies
import AuditGateway.Admin.RawEvidence
import AuditGateway.Admin.NameSearch
import AuditGateway.Admin.RateLimits
import AuditGateway.Admin.DisplayNumbers
import AuditGateway.Admin.PendingAge
import AuditGateway.Evidence.FilesystemStore
