import Gittensory.GatePolicy
import Gittensory.SecretScan

/-!
The gate as the live path evaluates it (`queue/processors.ts`, `signals/settings-preview.ts`).
The advisory is built with the linked-issue evidence the settings ask for, the collectors
push their findings onto it, and the policy gets the readiness score, the slop risk, the
author's history and whether the author is confirmed. An author whose pull request stays off
the public surface is never looked up and so counts as not confirmed.
-/
namespace Gittensory.LiveGate

open AdvisoryGate GatePolicy JsValue PullRequestAdvisory PullRequestFiles SecretScan TextPattern

section PublicSurface

inductive MinerStatus where
  | confirmed
  | notFound
  | unavailable
  | notChecked
  deriving DecidableEq, Repr

inductive PublicSurfaceSkipReason where
  | surfaceOff
  | missingAuthor
  | botAuthor
  | maintainerAuthor
  | minerDetectionUnavailable
  | notOfficialGittensorMiner
  deriving DecidableEq, Repr

inductive PublicSurfaceAction where
  | comment
  | label
  | checkRun
  deriving DecidableEq, Repr

structure PublicSurfaceDecisionInput where
  authorLogin : Option String
  authorType : Option String
  authorAssociation : Option String
  minerStatus : MinerStatus
  deriving DecidableEq, Repr

/-- The actions `skip` and `none` of the source are an empty list here. -/
structure PublicSurfaceDecision where
  skipReason : Option PublicSurfaceSkipReason
  actions : List PublicSurfaceAction
  deriving DecidableEq, Repr

def hasVisiblePrSurface (settings : RepositorySettings) : Bool :=
  settings.publicSurface ≠ .off || settings.checkRunMode = .enabled ||
    settings.gateCheckMode = .enabled

def commentsOnSurface (settings : RepositorySettings) : Bool :=
  settings.publicSurface = .commentAndLabel || settings.publicSurface = .commentOnly

def labelsOnSurface (settings : RepositorySettings) : Bool :=
  settings.publicSurface = .commentAndLabel || settings.publicSurface = .labelOnly

def shouldPublishPrComment (settings : RepositorySettings) (minerStatus : MinerStatus) : Bool :=
  if settings.commentMode = .off then false
  else if commentsOnSurface settings = false then false
  else if settings.commentMode = .detectedContributorsOnly then minerStatus = .confirmed
  else true

def shouldApplyPrLabel (settings : RepositorySettings) (minerStatus : MinerStatus) : Bool :=
  if settings.publicAudienceMode = .ossMaintainer ∧ minerStatus ≠ .confirmed then false
  else settings.autoLabelEnabled && labelsOnSurface settings

/-- `/\[bot\]$/i`. -/
def botLoginPattern : Pattern := .seqs [.literalNoCase "[bot]", .stop]

def publicSurfaceSkipReason (settings : RepositorySettings) (input : PublicSurfaceDecisionInput) :
    Option PublicSurfaceSkipReason :=
  if hasVisiblePrSurface settings = false then some .surfaceOff
  else if truthy input.authorLogin = false then some .missingAuthor
  else if input.authorType = some "Bot" ∨
      test botLoginPattern (input.authorLogin.getD "").toList = true then some .botAuthor
  else if settings.includeMaintainerAuthors = false ∧
      input.authorAssociation.any maintainerAssociations.contains = true then
    some .maintainerAuthor
  else if settings.publicAudienceMode = .gittensorOnly ∧ input.minerStatus = .unavailable then
    some .minerDetectionUnavailable
  else if settings.publicAudienceMode = .gittensorOnly ∧ input.minerStatus = .notFound then
    some .notOfficialGittensorMiner
  else none

def willLabel (settings : RepositorySettings) (minerStatus : MinerStatus) : Bool :=
  shouldApplyPrLabel settings minerStatus ||
    (settings.publicAudienceMode = .ossMaintainer && minerStatus = .notChecked &&
      settings.autoLabelEnabled && labelsOnSurface settings)

def decidePublicSurface (settings : RepositorySettings) (input : PublicSurfaceDecisionInput) :
    PublicSurfaceDecision :=
  match publicSurfaceSkipReason settings input with
  | some reason => ⟨some reason, []⟩
  | none => ⟨none,
      (if shouldPublishPrComment settings input.minerStatus then [.comment] else []) ++
      (if willLabel settings input.minerStatus then [.label] else []) ++
      (if settings.checkRunMode = .enabled then [.checkRun] else [])⟩

end PublicSurface

section Evidence

inductive SlopSignal where
  | trivialWhitespaceChurn
  | missingTestEvidence
  | nonSubstantivePadding
  | emptyPrDescription
  | lowQualityCommitMessage
  | duplicateClusterMembership
  | noLinkedIssueWithoutRationale
  deriving DecidableEq, Repr

def SlopSignal.code : SlopSignal → String
  | .trivialWhitespaceChurn => "trivial_whitespace_churn"
  | .missingTestEvidence => "missing_test_evidence"
  | .nonSubstantivePadding => "non_substantive_padding"
  | .emptyPrDescription => "empty_pr_description"
  | .lowQualityCommitMessage => "low_quality_commit_message"
  | .duplicateClusterMembership => "duplicate_cluster_membership"
  | .noLinkedIssueWithoutRationale => "no_linked_issue_without_rationale"

structure SlopFinding where
  signal : SlopSignal
  title : String
  detail : String
  action : String
  deriving DecidableEq, Repr

def SlopFinding.toAdvisory (finding : SlopFinding) : AdvisoryFinding :=
  ⟨finding.signal.code, finding.title, .warning, finding.detail, some finding.action,
    some finding.detail⟩

structure SlopAssessment where
  slopRisk : JsNumber
  findings : List SlopFinding
  deriving DecidableEq, Repr

inductive SlopBand where
  | clean
  | low
  | elevated
  | high
  deriving DecidableEq, Repr

def slopBandText : SlopBand → String
  | .clean => "clean"
  | .low => "low"
  | .elevated => "elevated"
  | .high => "high"

structure SlopOpinion where
  band : SlopBand
  detail : String
  deriving DecidableEq, Repr

def AI_SLOP_FINDING_CODE : String := "ai_slop_advisory"

def aiSlopFinding (opinion : SlopOpinion) : AdvisoryFinding where
  code := AI_SLOP_FINDING_CODE
  title := "AI maintainer-assist flagged possible low-effort patterns (" ++
    slopBandText opinion.band ++ ")"
  severity := if opinion.band = .elevated ∨ opinion.band = .high then .warning else .info
  detail := opinion.detail
  action := some "Advisory only — review the noted patterns; this AI assist never blocks the gate."
  publicText := some ("AI maintainer-assist (advisory): " ++ opinion.detail)

structure ConsensusDefect where
  title : String
  detail : String
  deriving DecidableEq, Repr

def consensusDefectFinding (defect : ConsensusDefect) : AdvisoryFinding where
  code := "ai_consensus_defect"
  title := "AI reviewers agree on a likely critical defect: " ++ defect.title
  severity := .critical
  detail := defect.detail
  action := some ("Resolve the flagged defect, or override if the AI reviewers are mistaken, " ++
    "then re-run the gate.")
  publicText := none

/-- What one review reads and computes besides the stored row: the webhook's fields, the
lookup of the author, the engine's scores, the AI results and the files of the diff. -/
structure ReviewReads where
  authorType : Option String := none
  action : Option String := none
  minerStatus : MinerStatus
  readinessTotal : JsNumber
  slop : SlopAssessment
  slopOpinion : Option SlopOpinion := none
  manifestFindings : List AdvisoryFinding := []
  consensusDefect : Option ConsensusDefect := none
  safetyEnv : SafetyEnv := ⟨none, none⟩
  files : List PullRequestFileRecord := []
  authorHistory : Option AuthorHistory

def isGateEnabled (settings : RepositorySettings) (advisoryResult : Advisory) : Bool :=
  settings.gateCheckMode = .enabled && truthy advisoryResult.headSha

/-- The decision before the author has been looked up. -/
def preliminarySurface (settings : RepositorySettings) (pr : PullRequestRecord)
    (reads : ReviewReads) : PublicSurfaceDecision :=
  decidePublicSurface settings
    ⟨pr.authorLogin, reads.authorType, pr.authorAssociation, .notChecked⟩

def needsMinerCheckForDetectedComment (settings : RepositorySettings)
    (prelim : PublicSurfaceDecision) : Bool :=
  prelim.skipReason.isNone && settings.commentMode = .detectedContributorsOnly &&
    commentsOnSurface settings

/-- The official lookup of the author, where it is made at all. -/
def officialDetection (settings : RepositorySettings) (pr : PullRequestRecord)
    (reads : ReviewReads) (gateEnabled : Bool) : Option MinerStatus :=
  let prelim := preliminarySurface settings pr reads
  let prelimHasPublicOutput := prelim.skipReason.isNone &&
    (needsMinerCheckForDetectedComment settings prelim || prelim.actions ≠ [])
  if (prelimHasPublicOutput && truthy pr.authorLogin) = true then some reads.minerStatus
  else if (gateEnabled && truthy pr.authorLogin && prelim.skipReason.isNone) = true then
    some reads.minerStatus
  else none

def manifestPolicyCodes : List String :=
  ["manifest_blocked_path", "manifest_linked_issue_required", "manifest_missing_tests"]

/-- `publicText` is not copied. -/
def manifestPolicyFindings (findings : List AdvisoryFinding) : List AdvisoryFinding :=
  (findings.filter fun finding => manifestPolicyCodes.contains finding.code).map
    fun finding => { finding with publicText := none }

def slopEvidence (settings : RepositorySettings) (reads : ReviewReads) (confirmed : Bool)
    (headSha : Option String) : List AdvisoryFinding :=
  if shouldCollectSlopEvidence settings = false then []
  else reads.slop.findings.map SlopFinding.toAdvisory ++
    if (shouldRunSlopAiAdvisory settings && confirmed && truthy headSha) = true then
      (reads.slopOpinion.map aiSlopFinding).toList
    else []

def manifestEvidence (settings : RepositorySettings) (reads : ReviewReads) : List AdvisoryFinding :=
  if settings.manifestPolicyGateMode = .off then []
  else manifestPolicyFindings reads.manifestFindings

def aiReviewEvidence (settings : RepositorySettings) (reads : ReviewReads) (confirmed : Bool)
    (headSha : Option String) : List AdvisoryFinding :=
  let packAllowsAnyAuthorBlockingReview :=
    settings.gatePack = .ossAntiSlop ∧ settings.aiReviewMode = .block
  if settings.aiReviewMode = .off ∨ (confirmed = false ∧ ¬ packAllowsAnyAuthorBlockingReview) ∨
      truthy headSha = false then []
  else (reads.consensusDefect.map consensusDefectFinding).toList

/-- The collectors push onto the advisory in this order; its own conclusion stays. -/
def collectEvidence (settings : RepositorySettings) (reads : ReviewReads) (confirmed : Bool)
    (pr : PullRequestRecord) (advisoryResult : Advisory) : Advisory :=
  let collected := { advisoryResult with
    findings := advisoryResult.findings ++
      slopEvidence settings reads confirmed advisoryResult.headSha ++
      manifestEvidence settings reads ++
      aiReviewEvidence settings reads confirmed advisoryResult.headSha }
  maybeAddSecretLeakFinding reads.safetyEnv
    ⟨collected, pr.repoFullName, pr.number, some reads.files⟩ none

def liveSlopRisk (settings : RepositorySettings) (reads : ReviewReads) : Option JsNumber :=
  if shouldCollectSlopEvidence settings then some reads.slop.slopRisk else none

def isConfirmedContributor (settings : RepositorySettings) (pr : PullRequestRecord)
    (reads : ReviewReads) (gateEnabled : Bool) : Bool :=
  officialDetection settings pr reads gateEnabled = some .confirmed

/-- The advisory the webhook and the review of a stored pull request start from. -/
def liveAdvisory (settings : RepositorySettings) (repo : Option RepositoryRecord)
    (pr : PullRequestRecord) (others : List PullRequestRecord) : Advisory :=
  buildPullRequestAdvisory repo (some pr) others (shouldCollectLinkedIssueEvidence settings)

def livePolicy (settings : RepositorySettings) (pr : PullRequestRecord) (reads : ReviewReads) :
    GateCheckPolicy :=
  gateCheckPolicy settings (some reads.readinessTotal)
    (some (isConfirmedContributor settings pr reads true)) (liveSlopRisk settings reads)
    (some (loadGateAuthorHistory pr.authorLogin reads.authorHistory))

/-- The gate that `maybePublishPrPublicSurface` evaluates, or `none` where it does not. -/
def maybePublishPrPublicSurface (settings : RepositorySettings) (repo : Option RepositoryRecord)
    (pr : PullRequestRecord) (others : List PullRequestRecord) (reads : ReviewReads) :
    Option GateCheckEvaluation :=
  let advisoryResult := liveAdvisory settings repo pr others
  if isGateEnabled settings advisoryResult = false then none
  else if pr.state ≠ "open" ∨ reads.action = some "closed" then none
  else
    let confirmed := isConfirmedContributor settings pr reads true
    some (evaluateGateCheck (collectEvidence settings reads confirmed pr advisoryResult)
      (livePolicy settings pr reads))

end Evidence

section Confirmed

/-- With the gate on, the author is looked up unless the pull request stays off the surface. -/
theorem officialDetection_of_enabled (settings : RepositorySettings) (pr : PullRequestRecord)
    (reads : ReviewReads) :
    officialDetection settings pr reads true =
      if (preliminarySurface settings pr reads).skipReason.isNone = true then
        some reads.minerStatus else none := by
  unfold officialDetection
  dsimp only
  cases hskip : (preliminarySurface settings pr reads).skipReason with
  | some reason => simp
  | none =>
    have hauthor : truthy pr.authorLogin = true := by
      by_contra hno
      have hmissing : truthy pr.authorLogin = false := by simpa using hno
      unfold preliminarySurface decidePublicSurface publicSurfaceSkipReason at hskip
      by_cases hvisible : hasVisiblePrSurface settings = false
      · rw [if_pos hvisible] at hskip
        cases hskip
      · rw [if_neg hvisible, if_pos hmissing] at hskip
        cases hskip
    rw [hauthor]
    simp

theorem isConfirmedContributor_iff {settings : RepositorySettings} {pr : PullRequestRecord}
    {reads : ReviewReads} (hminer : reads.minerStatus = .confirmed) :
    isConfirmedContributor settings pr reads true = true ↔
      (preliminarySurface settings pr reads).skipReason = none := by
  unfold isConfirmedContributor
  rw [officialDetection_of_enabled, hminer]
  cases (preliminarySurface settings pr reads).skipReason with
  | none => simp
  | some reason => simp

end Confirmed

section Collected

theorem SlopSignal.code_contextOnly (signal : SlopSignal) :
    signal.code ∉ configurableCodes ∧ signal.code ∉ evaluationCodes := by
  cases signal <;> decide

theorem aiSlopCode_contextOnly :
    AI_SLOP_FINDING_CODE ∉ configurableCodes ∧ AI_SLOP_FINDING_CODE ∉ evaluationCodes := by
  decide

theorem slopFinding_contextOnly (findings : List SlopFinding) :
    ContextOnly (findings.map SlopFinding.toAdvisory) := by
  intro finding hfinding
  obtain ⟨slop, -, rfl⟩ := List.mem_map.mp hfinding
  exact slop.signal.code_contextOnly

theorem slopEvidence_contextOnly (settings : RepositorySettings) (reads : ReviewReads)
    (confirmed : Bool) (headSha : Option String) :
    ContextOnly (slopEvidence settings reads confirmed headSha) := by
  unfold slopEvidence
  by_cases hcollect : shouldCollectSlopEvidence settings = false
  · rw [if_pos hcollect]
    exact contextOnly_nil
  · rw [if_neg hcollect]
    refine (slopFinding_contextOnly _).append ?_
    by_cases hai : (shouldRunSlopAiAdvisory settings && confirmed && truthy headSha) = true
    · rw [if_pos hai]
      cases reads.slopOpinion with
      | none => exact contextOnly_nil
      | some opinion => exact contextOnly_singleton aiSlopCode_contextOnly
    · rw [if_neg hai]
      exact contextOnly_nil

/-- The safety scan finds a credential in the diff. -/
def ScanFindsSecret (pr : PullRequestRecord) (reads : ReviewReads) : Prop :=
  isSafetyEnabled reads.safetyEnv = true ∧
    isConvergenceRepoAllowed reads.safetyEnv pr.repoFullName = true ∧
    Leaks (buildAiReviewDiff reads.files)

instance (pr : PullRequestRecord) (reads : ReviewReads) : Decidable (ScanFindsSecret pr reads) :=
  inferInstanceAs (Decidable (_ ∧ _ ∧ _))

/-- What the scan adds: one finding that always blocks, or nothing. -/
theorem maybeAddSecretLeakFinding_cases (pr : PullRequestRecord) (reads : ReviewReads)
    (advisoryResult : Advisory) :
    (¬ ScanFindsSecret pr reads ∧
      maybeAddSecretLeakFinding reads.safetyEnv
        ⟨advisoryResult, pr.repoFullName, pr.number, some reads.files⟩ none = advisoryResult) ∨
    (ScanFindsSecret pr reads ∧ ∃ finding : AdvisoryFinding, finding.code = "secret_leak" ∧
      maybeAddSecretLeakFinding reads.safetyEnv
        ⟨advisoryResult, pr.repoFullName, pr.number, some reads.files⟩ none =
        { advisoryResult with findings := advisoryResult.findings ++ [finding] }) := by
  unfold maybeAddSecretLeakFinding ScanFindsSecret
  by_cases hoff : isSafetyEnabled reads.safetyEnv = false ∨
      isConvergenceRepoAllowed reads.safetyEnv pr.repoFullName = false
  · rw [if_pos hoff]
    refine Or.inl ⟨?_, rfl⟩
    intro h
    rcases hoff with hoff | hoff
    · rw [h.1] at hoff
      cases hoff
    · rw [h.2.1] at hoff
      cases hoff
  · rw [if_neg hoff]
    rw [not_or, Bool.not_eq_false, Bool.not_eq_false] at hoff
    simp only [scannedFiles, Option.bind_some, Leaks]
    cases hfinding : secretLeakFinding (buildAiReviewDiff reads.files) with
    | none => exact Or.inl ⟨fun h => by simpa using h.2.2, rfl⟩
    | some finding =>
      exact Or.inr ⟨⟨hoff.1, hoff.2, rfl⟩, finding, secretLeakFinding_code hfinding, rfl⟩

/-- Pushed findings of other codes do not keep the gate from being evaluated. -/
theorem notEvaluated_push {pushed : List AdvisoryFinding}
    (h : ∀ finding ∈ pushed, finding.code ∉ evaluationCodes) (advisoryResult : Advisory) :
    NotEvaluated { advisoryResult with findings := advisoryResult.findings ++ pushed } ↔
      NotEvaluated advisoryResult := by
  constructor
  · intro hpushed
    obtain ⟨finding, hmem, hblocker⟩ := hpushed
    rcases List.mem_append.mp hmem with hold | hnew
    · exact ⟨finding, hold, hblocker⟩
    · exact absurd ((isEvaluationBlocker_iff _).mp hblocker) (h finding hnew)
  · intro hold
    obtain ⟨finding, hmem, hblocker⟩ := hold
    exact ⟨finding, List.mem_append_left _ hmem, hblocker⟩

/-- The scan adds a blocker when it finds a secret, and never stops the evaluation. -/
theorem maybeAddSecretLeakFinding_spec (pr : PullRequestRecord) (reads : ReviewReads)
    (advisoryResult : Advisory) (policy : GateCheckPolicy) :
    (FindingBlocks policy (maybeAddSecretLeakFinding reads.safetyEnv
        ⟨advisoryResult, pr.repoFullName, pr.number, some reads.files⟩ none).findings ↔
      FindingBlocks policy advisoryResult.findings ∨ ScanFindsSecret pr reads) ∧
    (NotEvaluated (maybeAddSecretLeakFinding reads.safetyEnv
        ⟨advisoryResult, pr.repoFullName, pr.number, some reads.files⟩ none) ↔
      NotEvaluated advisoryResult) := by
  rcases maybeAddSecretLeakFinding_cases pr reads advisoryResult with
    ⟨hscan, hsame⟩ | ⟨hscan, finding, hcode, hadded⟩
  · rw [hsame]
    exact ⟨⟨Or.inl, fun h => h.resolve_right hscan⟩, Iff.rfl⟩
  · have hsecret : isConfiguredGateBlocker finding.code policy = true := by
      rw [hcode]
      rfl
    have hother : ∀ pushed ∈ [finding], pushed.code ∉ evaluationCodes := by
      intro pushed hpushed
      rw [List.mem_singleton.mp hpushed, hcode]
      decide
    rw [hadded]
    refine ⟨?_, notEvaluated_push hother advisoryResult⟩
    rw [findingBlocks_append, findingBlocks_singleton]
    exact ⟨fun _ => Or.inr hscan, fun _ => Or.inr hsecret⟩

/-- With the AI and manifest gates off, only a leaked secret adds to what blocks. -/
theorem collectEvidence_spec {settings : RepositorySettings}
    (haiReview : settings.aiReviewMode = .off) (hmanifest : settings.manifestPolicyGateMode = .off)
    (reads : ReviewReads) (confirmed : Bool) (pr : PullRequestRecord) (advisoryResult : Advisory)
    (policy : GateCheckPolicy) :
    (FindingBlocks policy (collectEvidence settings reads confirmed pr advisoryResult).findings ↔
      FindingBlocks policy advisoryResult.findings ∨ ScanFindsSecret pr reads) ∧
    (NotEvaluated (collectEvidence settings reads confirmed pr advisoryResult) ↔
      NotEvaluated advisoryResult) := by
  have hslop := slopEvidence_contextOnly settings reads confirmed advisoryResult.headSha
  have hai : aiReviewEvidence settings reads confirmed advisoryResult.headSha = [] :=
    if_pos (Or.inl haiReview)
  have hpolicy : manifestEvidence settings reads = [] := if_pos hmanifest
  have hnoslop := not_findingBlocks_of_contextOnly hslop policy
  have hpushed := notEvaluated_push (fun finding hmem => (hslop finding hmem).2) advisoryResult
  unfold collectEvidence
  dsimp only
  rw [hai, hpolicy, List.append_nil, List.append_nil]
  obtain ⟨hblocks, hevaluated⟩ := maybeAddSecretLeakFinding_spec pr reads { advisoryResult with
    findings := advisoryResult.findings ++
      slopEvidence settings reads confirmed advisoryResult.headSha } policy
  rw [hblocks, hevaluated, findingBlocks_append]
  refine ⟨?_, hpushed⟩
  tauto

end Collected

end Gittensory.LiveGate
