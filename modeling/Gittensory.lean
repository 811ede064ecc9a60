import Gittensory.AddressLiterals
import Gittensory.AdvisoryGate
import Gittensory.AgentActions
import Gittensory.AgentExecutor
import Gittensory.AgentRunExecution
import Gittensory.AiBudget
import Gittensory.AnswerCard
import Gittensory.AnswerFeedback
import Gittensory.ApprovalAgreement
import Gittensory.ApprovalQueue
import Gittensory.ApprovalTarget
import Gittensory.AuthSessions
import Gittensory.AutoApply
import Gittensory.Autonomy
import Gittensory.AwaitedCalls
import Gittensory.BalancedText
import Gittensory.Base64
import Gittensory.BestCase
import Gittensory.BucketLabels
import Gittensory.CandidateSoundness
import Gittensory.CanonicalEquality
import Gittensory.CanonicalText
import Gittensory.CanonicalUrl
import Gittensory.Capturing
import Gittensory.ChangeGuardrail
import Gittensory.ChangedPaths
import Gittensory.ChunkCoverage
import Gittensory.ChunkWindows
import Gittensory.CiVerdict
import Gittensory.ClientAddresses
import Gittensory.CodeUnits
import Gittensory.CommandAuthorization
import Gittensory.ContinuationEdits
import Gittensory.ContributorActivity
import Gittensory.ContributorMdx
import Gittensory.Cookies
import Gittensory.CrawlSafety
import Gittensory.CrawlScan
import Gittensory.CycleSearch
import Gittensory.DerReader
import Gittensory.DetailSync
import Gittensory.DirectoryIndex
import Gittensory.DraftSubmission
import Gittensory.DraftTarget
import Gittensory.DriftExplanation
import Gittensory.DuplicateClusters
import Gittensory.DuplicateMatching
import Gittensory.DuplicateSignals
import Gittensory.EntryFrontmatter
import Gittensory.ExecutorOutcome
import Gittensory.FeedbackMarker
import Gittensory.FirstMatch
import Gittensory.FormUrlencoded
import Gittensory.Frontmatter
import Gittensory.GateFinalization
import Gittensory.GateMonotonicity
import Gittensory.GateParity
import Gittensory.GatePolicy
import Gittensory.GithubPaged
import Gittensory.GroupedCounts
import Gittensory.GuardedRun
import Gittensory.GuardrailCoverage
import Gittensory.GuardrailGlobs
import Gittensory.HexDigests
import Gittensory.InstallationTokens
import Gittensory.IsoTimestamp
import Gittensory.JsCoercion
import Gittensory.JsValue
import Gittensory.JsonRecord
import Gittensory.JsonText
import Gittensory.KeyEncoding
import Gittensory.KeyedTable
import Gittensory.LastSetting
import Gittensory.LiveCi
import Gittensory.LiveGate
import Gittensory.LocalDiff
import Gittensory.LocalPaths
import Gittensory.ManifestLoading
import Gittensory.ManifestParsing
import Gittensory.ManifestSnapshot
import Gittensory.MarkupLines
import Gittensory.MergeRetry
import Gittensory.NetuidVerification
import Gittensory.NotificationDelivery
import Gittensory.OpenDataCrawl
import Gittensory.OutcomePrecedence
import Gittensory.PagedRead
import Gittensory.PanelComment
import Gittensory.PatternOverlap
import Gittensory.PercentCoding
import Gittensory.PlanGraph
import Gittensory.PlanOrder
import Gittensory.PlanRun
import Gittensory.PlanSafety
import Gittensory.PredictedGate
import Gittensory.PrivateAddresses
import Gittensory.PromptInjection
import Gittensory.ProtectedEdits
import Gittensory.PublicComment
import Gittensory.PublicUrl
import Gittensory.PullRequestAdvisory
import Gittensory.PullRequestDelivery
import Gittensory.PullRequestFiles
import Gittensory.RadixNumerals
import Gittensory.RagCap
import Gittensory.RagChunks
import Gittensory.RagFreshness
import Gittensory.RagIndexing
import Gittensory.RagIsolation
import Gittensory.RagNamespace
import Gittensory.RateLimiter
import Gittensory.ReadinessScore
import Gittensory.RecommendationOutcomes
import Gittensory.RecordedDivisions
import Gittensory.Redaction
import Gittensory.RegateSweep
import Gittensory.RegistryCandidate
import Gittensory.RegistrySync
import Gittensory.ReleaseChangelog
import Gittensory.RepoAccess
import Gittensory.Retention
import Gittensory.ReviewPrompt
import Gittensory.ReviewRun
import Gittensory.Rewriting
import Gittensory.RootDot
import Gittensory.SafeUrl
import Gittensory.ScorePreview
import Gittensory.ScoreTotality
import Gittensory.SecretCoverage
import Gittensory.SecretScan
import Gittensory.SecretStore
import Gittensory.SettledComment
import Gittensory.ShadowSoak
import Gittensory.SkippingScan
import Gittensory.SlidingWindow
import Gittensory.SlopScore
import Gittensory.SourceCoverage
import Gittensory.SourceEvidence
import Gittensory.SourceFetch
import Gittensory.SourceGuard
import Gittensory.SourceUrls
import Gittensory.StoredJson
import Gittensory.SubmitterReputation
import Gittensory.SweepSelection
import Gittensory.TextPattern
import Gittensory.UnconfirmedAuthor
import Gittensory.UnifiedComment
import Gittensory.UnorderedPairs
import Gittensory.UpstreamDrift
import Gittensory.UpstreamFetch
import Gittensory.UpstreamOutage
import Gittensory.UpstreamRuleset
import Gittensory.UpstreamSources
import Gittensory.UrlRenormalization
import Gittensory.Utf8Text
import Gittensory.WebSignIn
import Gittensory.WebhookDedup
import Gittensory.WordRuns
import Gittensory.WorkerPool
