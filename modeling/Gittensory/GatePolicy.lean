import Gittensory.Autonomy
import Gittensory.GateMonotonicity
import Gittensory.PullRequestAdvisory

/-!
From the settings of a repository to the policy of its gate (`queue/processors.ts`,
`signals/focus-manifest.ts`). The manifest overrides the database, the settings decide which
evidence is collected, and the composite decides the mode that counts for four of the
gates. Whether a pull request is blocked is then a matter of four rules.
-/
namespace Gittensory.GatePolicy

open AdvisoryGate Autonomy GateMonotonicity JsValue PullRequestAdvisory

section Settings

inductive GatePolicyPack where
  | gittensor
  | ossAntiSlop
  deriving DecidableEq, Repr

inductive CommentMode where
  | off
  | detectedContributorsOnly
  | allPrs
  deriving DecidableEq, Repr

inductive PublicAudienceMode where
  | ossMaintainer
  | gittensorOnly
  deriving DecidableEq, Repr

inductive PublicSurface where
  | off
  | commentAndLabel
  | commentOnly
  | labelOnly
  deriving DecidableEq, Repr

inductive CheckMode where
  | off
  | enabled
  deriving DecidableEq, Repr

structure RepositorySettings where
  commentMode : CommentMode
  publicAudienceMode : PublicAudienceMode
  checkRunMode : CheckMode
  gateCheckMode : CheckMode
  gatePack : GatePolicyPack
  linkedIssueGateMode : GateRuleMode
  duplicatePrGateMode : GateRuleMode
  qualityGateMode : GateRuleMode
  qualityGateMinScore : Option JsNumber
  slopGateMode : GateRuleMode
  mergeReadinessGateMode : GateRuleMode
  manifestPolicyGateMode : GateRuleMode
  firstTimeContributorGrace : Bool
  slopGateMinScore : Option JsNumber
  slopAiAdvisory : Bool
  aiReviewMode : GateRuleMode
  autoLabelEnabled : Bool
  publicSurface : PublicSurface
  includeMaintainerAuthors : Bool
  requireLinkedIssue : Bool
  autonomy : Option AutonomyPolicy
  agentPaused : Option Bool
  agentDryRun : Option Bool

/-- What `getRepositorySettings` returns for a repository without a row. -/
def defaultRepositorySettings : RepositorySettings where
  commentMode := .detectedContributorsOnly
  publicAudienceMode := .ossMaintainer
  checkRunMode := .off
  gateCheckMode := .off
  gatePack := .gittensor
  linkedIssueGateMode := .advisory
  duplicatePrGateMode := .block
  qualityGateMode := .advisory
  qualityGateMinScore := none
  slopGateMode := .off
  mergeReadinessGateMode := .off
  manifestPolicyGateMode := .off
  firstTimeContributorGrace := false
  slopGateMinScore := none
  slopAiAdvisory := false
  aiReviewMode := .off
  autoLabelEnabled := true
  publicSurface := .commentAndLabel
  includeMaintainerAuthors := false
  requireLinkedIssue := false
  autonomy := some fun _ => none
  agentPaused := some false
  agentDryRun := some false

/-- The `gate:` section of a manifest. -/
structure FocusManifestGateConfig where
  enabled : Option Bool := none
  pack : Option GatePolicyPack := none
  linkedIssue : Option GateRuleMode := none
  duplicates : Option GateRuleMode := none
  readinessMode : Option GateRuleMode := none
  readinessMinScore : Option JsNumber := none
  slopMode : Option GateRuleMode := none
  slopMinScore : Option JsNumber := none
  slopAiAdvisory : Option Bool := none
  aiReviewMode : Option GateRuleMode := none
  mergeReadiness : Option GateRuleMode := none
  manifestPolicy : Option GateRuleMode := none
  firstTimeContributorGrace : Option Bool := none
  deriving DecidableEq, Repr

/-- The `settings:` section of a manifest. -/
structure FocusManifestSettings where
  commentMode : Option CommentMode := none
  publicAudienceMode : Option PublicAudienceMode := none
  checkRunMode : Option CheckMode := none
  gateCheckMode : Option CheckMode := none
  linkedIssueGateMode : Option GateRuleMode := none
  duplicatePrGateMode : Option GateRuleMode := none
  qualityGateMode : Option GateRuleMode := none
  qualityGateMinScore : Option JsNumber := none
  aiReviewMode : Option GateRuleMode := none
  autoLabelEnabled : Option Bool := none
  publicSurface : Option PublicSurface := none
  includeMaintainerAuthors : Option Bool := none
  requireLinkedIssue : Option Bool := none
  autonomy : Option AutonomyPolicy := none
  agentPaused : Option Bool := none
  agentDryRun : Option Bool := none

structure FocusManifest where
  gate : FocusManifestGateConfig
  settings : FocusManifestSettings

/-- `{ ...dbSettings, ...manifest.settings }`. -/
def overlaySettings (dbSettings : RepositorySettings) (settings : FocusManifestSettings) :
    RepositorySettings :=
  { dbSettings with
    commentMode := settings.commentMode.getD dbSettings.commentMode
    publicAudienceMode := settings.publicAudienceMode.getD dbSettings.publicAudienceMode
    checkRunMode := settings.checkRunMode.getD dbSettings.checkRunMode
    gateCheckMode := settings.gateCheckMode.getD dbSettings.gateCheckMode
    linkedIssueGateMode := settings.linkedIssueGateMode.getD dbSettings.linkedIssueGateMode
    duplicatePrGateMode := settings.duplicatePrGateMode.getD dbSettings.duplicatePrGateMode
    qualityGateMode := settings.qualityGateMode.getD dbSettings.qualityGateMode
    qualityGateMinScore := settings.qualityGateMinScore.or dbSettings.qualityGateMinScore
    aiReviewMode := settings.aiReviewMode.getD dbSettings.aiReviewMode
    autoLabelEnabled := settings.autoLabelEnabled.getD dbSettings.autoLabelEnabled
    publicSurface := settings.publicSurface.getD dbSettings.publicSurface
    includeMaintainerAuthors :=
      settings.includeMaintainerAuthors.getD dbSettings.includeMaintainerAuthors
    requireLinkedIssue := settings.requireLinkedIssue.getD dbSettings.requireLinkedIssue
    autonomy := settings.autonomy.or dbSettings.autonomy
    agentPaused := settings.agentPaused.or dbSettings.agentPaused
    agentDryRun := settings.agentDryRun.or dbSettings.agentDryRun }

def overlayGate (base : RepositorySettings) (gate : FocusManifestGateConfig) :
    RepositorySettings :=
  { base with
    gateCheckMode := (gate.enabled.map fun enabled =>
      if enabled then CheckMode.enabled else CheckMode.off).getD base.gateCheckMode
    gatePack := gate.pack.getD base.gatePack
    linkedIssueGateMode := gate.linkedIssue.getD base.linkedIssueGateMode
    duplicatePrGateMode := gate.duplicates.getD base.duplicatePrGateMode
    qualityGateMode := gate.readinessMode.getD base.qualityGateMode
    qualityGateMinScore := gate.readinessMinScore.or base.qualityGateMinScore
    slopGateMode := gate.slopMode.getD base.slopGateMode
    slopGateMinScore := gate.slopMinScore.or base.slopGateMinScore
    slopAiAdvisory := gate.slopAiAdvisory.getD base.slopAiAdvisory
    aiReviewMode := gate.aiReviewMode.getD base.aiReviewMode
    mergeReadinessGateMode := gate.mergeReadiness.getD base.mergeReadinessGateMode
    manifestPolicyGateMode := gate.manifestPolicy.getD base.manifestPolicyGateMode
    firstTimeContributorGrace :=
      gate.firstTimeContributorGrace.getD base.firstTimeContributorGrace }

/-- The toggle for linked issues counts as blocking when the mode is still off. -/
def requireAsBlock (settings : RepositorySettings) : RepositorySettings :=
  if settings.requireLinkedIssue = true ∧ settings.linkedIssueGateMode = .off then
    { settings with linkedIssueGateMode := .block }
  else settings

def resolveEffectiveSettings (dbSettings : RepositorySettings) (manifest : FocusManifest) :
    RepositorySettings :=
  requireAsBlock (overlayGate (overlaySettings dbSettings manifest.settings) manifest.gate)

def mergeReadinessGateEnabled (settings : RepositorySettings) : Bool :=
  settings.mergeReadinessGateMode ≠ .off

def shouldCollectLinkedIssueEvidence (settings : RepositorySettings) : Bool :=
  settings.requireLinkedIssue || settings.linkedIssueGateMode ≠ .off ||
    mergeReadinessGateEnabled settings

def shouldCollectSlopEvidence (settings : RepositorySettings) : Bool :=
  settings.slopGateMode ≠ .off || mergeReadinessGateEnabled settings

def shouldRunSlopAiAdvisory (settings : RepositorySettings) : Bool :=
  settings.slopAiAdvisory && settings.slopGateMode ≠ .off

structure AuthorHistory where
  mergedPrCount : ℕ
  closedUnmergedPrCount : ℕ
  deriving DecidableEq, Repr

def gateCheckPolicy (settings : RepositorySettings) (readinessScore : Option JsNumber)
    (confirmedContributor : Option Bool) (slopRisk : Option JsNumber)
    (authorHistory : Option AuthorHistory) : GateCheckPolicy where
  linkedIssueGateMode := some settings.linkedIssueGateMode
  duplicatePrGateMode := some settings.duplicatePrGateMode
  qualityGateMode := some settings.qualityGateMode
  qualityGateMinScore := settings.qualityGateMinScore
  aiReviewGateMode := some settings.aiReviewMode
  readinessScore := readinessScore
  slopGateMode := some settings.slopGateMode
  slopGateMinScore := settings.slopGateMinScore
  slopRisk := slopRisk
  mergeReadinessGateMode := some settings.mergeReadinessGateMode
  manifestPolicyGateMode := some settings.manifestPolicyGateMode
  firstTimeContributorGrace := some settings.firstTimeContributorGrace
  authorMergedPrCount := authorHistory.map AuthorHistory.mergedPrCount
  authorClosedUnmergedPrCount := authorHistory.map AuthorHistory.closedUnmergedPrCount
  confirmedContributor := if settings.gatePack = .ossAntiSlop then none else confirmedContributor

/-- An author whose history cannot be read is not eligible for grace. -/
def unknownHistory : AuthorHistory := ⟨1, 3⟩

/-- `history` is what the query returns, `none` when it fails. -/
def loadGateAuthorHistory (author : Option String) (history : Option AuthorHistory) :
    AuthorHistory :=
  if truthy author then history.getD unknownHistory else unknownHistory

end Settings

section Composite

/-- The mode that counts for a gate under the composite. -/
def effectiveMode (composite mode : GateRuleMode) : GateRuleMode :=
  if composite = .off then mode else composite

def compositeMode (policy : GateCheckPolicy) : GateRuleMode :=
  gateModeOr .off policy.mergeReadinessGateMode

theorem effectiveMode_block_iff (composite mode : GateRuleMode) :
    effectiveMode composite mode = .block ↔
      composite = .block ∨ (composite = .off ∧ mode = .block) := by
  cases composite <;> cases mode <;> decide

/-- A mode that the composite overrides counts as the composite's own when that is on. -/
theorem effective_mode (policy : GateCheckPolicy) (field : GateCheckPolicy → Option GateRuleMode)
    (read : Option GateRuleMode → GateRuleMode) (hread : ∀ mode, read (some mode) = mode)
    (hfield : ∀ mode, field { policy with
      linkedIssueGateMode := some mode
      duplicatePrGateMode := some mode
      qualityGateMode := some mode
      slopGateMode := some mode } = some mode) :
    read (field (applyMergeReadinessGate policy)) =
      effectiveMode (compositeMode policy) (read (field policy)) := by
  unfold effectiveMode compositeMode
  by_cases hoff : gateModeOr .off policy.mergeReadinessGateMode = .off
  · rw [if_pos hoff, applyMergeReadinessGate_off hoff]
  · rw [if_neg hoff, applyMergeReadinessGate_on hoff, hfield, hread]

theorem effective_linkedIssue (policy : GateCheckPolicy) :
    gateModeOr .advisory (applyMergeReadinessGate policy).linkedIssueGateMode =
      effectiveMode (compositeMode policy) (gateModeOr .advisory policy.linkedIssueGateMode) :=
  effective_mode policy GateCheckPolicy.linkedIssueGateMode _ (gateModeOr_some _) fun _ => rfl

theorem effective_duplicatePr (policy : GateCheckPolicy) :
    gateModeOr .block (applyMergeReadinessGate policy).duplicatePrGateMode =
      effectiveMode (compositeMode policy) (gateModeOr .block policy.duplicatePrGateMode) :=
  effective_mode policy GateCheckPolicy.duplicatePrGateMode _ (gateModeOr_some _) fun _ => rfl

theorem effective_quality (policy : GateCheckPolicy) :
    gateMode (applyMergeReadinessGate policy).qualityGateMode =
      effectiveMode (compositeMode policy) (gateMode policy.qualityGateMode) :=
  effective_mode policy GateCheckPolicy.qualityGateMode _ gateMode_some fun _ => rfl

theorem effective_slop (policy : GateCheckPolicy) :
    gateMode (applyMergeReadinessGate policy).slopGateMode =
      effectiveMode (compositeMode policy) (gateMode policy.slopGateMode) :=
  effective_mode policy GateCheckPolicy.slopGateMode _ gateMode_some fun _ => rfl

theorem effective_scores (policy : GateCheckPolicy) :
    (applyMergeReadinessGate policy).readinessScore = policy.readinessScore ∧
      (applyMergeReadinessGate policy).qualityGateMinScore = policy.qualityGateMinScore ∧
      (applyMergeReadinessGate policy).slopRisk = policy.slopRisk ∧
      (applyMergeReadinessGate policy).slopGateMinScore = policy.slopGateMinScore := by
  unfold applyMergeReadinessGate
  dsimp only
  split_ifs
  · exact ⟨rfl, rfl, rfl, rfl⟩
  · exact ⟨rfl, rfl, rfl, rfl⟩

end Composite

section Rules

/-- A readable score below a readable minimum. -/
def BelowThreshold (score minScore : Option JsNumber) : Prop :=
  ∃ s ∈ normalizeScore score, ∃ m ∈ normalizeScore minScore, s < m

/-- A readable risk at or above the minimum, or above the default. -/
def AtOrAboveThreshold (risk minScore : Option JsNumber) : Prop :=
  ∃ r ∈ normalizeScore risk, (normalizeScore minScore).getD defaultSlopBlockThreshold ≤ r

instance (score minScore : Option JsNumber) : Decidable (BelowThreshold score minScore) := by
  unfold BelowThreshold
  infer_instance

instance (risk minScore : Option JsNumber) : Decidable (AtOrAboveThreshold risk minScore) := by
  unfold AtOrAboveThreshold
  infer_instance

theorem buildQualityGateBlocker_ne_none_iff (policy : GateCheckPolicy) :
    buildQualityGateBlocker policy ≠ none ↔ gateMode policy.qualityGateMode = .block ∧
      BelowThreshold policy.readinessScore policy.qualityGateMinScore := by
  unfold buildQualityGateBlocker BelowThreshold
  by_cases hmode : gateMode policy.qualityGateMode = .block
  · rw [if_neg (not_not.mpr hmode)]
    cases hscore : normalizeScore policy.readinessScore with
    | none => simp
    | some score =>
      cases hmin : normalizeScore policy.qualityGateMinScore with
      | none => simp
      | some minScore => simp [hmode]
  · simp [hmode]

theorem buildSlopGateBlocker_ne_none_iff (policy : GateCheckPolicy) :
    buildSlopGateBlocker policy ≠ none ↔ gateMode policy.slopGateMode = .block ∧
      AtOrAboveThreshold policy.slopRisk policy.slopGateMinScore := by
  unfold buildSlopGateBlocker AtOrAboveThreshold
  by_cases hmode : gateMode policy.slopGateMode = .block
  · rw [if_neg (not_not.mpr hmode)]
    cases hrisk : normalizeScore policy.slopRisk with
    | none => simp
    | some risk => simp [hmode]
  · simp [hmode]

theorem toList_ne_nil_iff {α : Type} (value : Option α) : value.toList ≠ [] ↔ value ≠ none := by
  cases value with
  | none => simp
  | some value => simp

def Blocked (advisoryResult : Advisory) (policy : GateCheckPolicy) : Prop :=
  gateBlockers advisoryResult policy ≠ []

/-- The blockers of a policy: findings, readiness, slop. -/
theorem blocked_iff (advisoryResult : Advisory) (policy : GateCheckPolicy) :
    Blocked advisoryResult policy ↔
      FindingBlocks (applyMergeReadinessGate policy) advisoryResult.findings ∨
      (effectiveMode (compositeMode policy) (gateMode policy.qualityGateMode) = .block ∧
        BelowThreshold policy.readinessScore policy.qualityGateMinScore) ∨
      (effectiveMode (compositeMode policy) (gateMode policy.slopGateMode) = .block ∧
        AtOrAboveThreshold policy.slopRisk policy.slopGateMinScore) := by
  obtain ⟨hreadiness, hqualityMin, hrisk, hslopMin⟩ := effective_scores policy
  have hquality := buildQualityGateBlocker_ne_none_iff (applyMergeReadinessGate policy)
  have hslop := buildSlopGateBlocker_ne_none_iff (applyMergeReadinessGate policy)
  rw [effective_quality, hreadiness, hqualityMin] at hquality
  rw [effective_slop, hrisk, hslopMin] at hslop
  have hfindings : (advisoryResult.findings.filter fun finding =>
        isConfiguredGateBlocker finding.code (applyMergeReadinessGate policy)) ≠ [] ↔
      FindingBlocks (applyMergeReadinessGate policy) advisoryResult.findings := by
    simp [FindingBlocks]
  rw [← hquality, ← hslop, ← hfindings, ← toList_ne_nil_iff, ← toList_ne_nil_iff]
  unfold Blocked gateBlockers
  simp only [ne_eq, List.append_eq_nil_iff, not_and_or, or_assoc]

/-- The four rules for a stored pull request whose advisory is evaluated as it was built. -/
theorem pullRequest_blocked_iff (policy : GateCheckPolicy) (repo : Option RepositoryRecord)
    (pr : PullRequestRecord) (others : List PullRequestRecord) (requireLinkedIssue : Bool) :
    Blocked (buildPullRequestAdvisory repo (some pr) others requireLinkedIssue) policy ↔
      (pr.linkedIssues = [] ∧ requireLinkedIssue = true ∧ effectiveMode (compositeMode policy)
        (gateModeOr .advisory policy.linkedIssueGateMode) = .block) ∨
      (overlappingPrs pr others ≠ [] ∧ effectiveMode (compositeMode policy)
        (gateModeOr .block policy.duplicatePrGateMode) = .block) ∨
      (effectiveMode (compositeMode policy) (gateMode policy.qualityGateMode) = .block ∧
        BelowThreshold policy.readinessScore policy.qualityGateMinScore) ∨
      (effectiveMode (compositeMode policy) (gateMode policy.slopGateMode) = .block ∧
        AtOrAboveThreshold policy.slopRisk policy.slopGateMinScore) := by
  rw [blocked_iff, advisory_block_iff, effective_linkedIssue, effective_duplicatePr,
    or_assoc]

/-- The same under the policy of settings: every mode is set. -/
theorem gateCheckPolicy_blocked_iff (settings : RepositorySettings)
    (readinessScore : Option JsNumber) (confirmedContributor : Option Bool)
    (slopRisk : Option JsNumber) (authorHistory : Option AuthorHistory)
    (repo : Option RepositoryRecord) (pr : PullRequestRecord) (others : List PullRequestRecord)
    (requireLinkedIssue : Bool) :
    Blocked (buildPullRequestAdvisory repo (some pr) others requireLinkedIssue)
        (gateCheckPolicy settings readinessScore confirmedContributor slopRisk authorHistory) ↔
      (pr.linkedIssues = [] ∧ requireLinkedIssue = true ∧
        effectiveMode settings.mergeReadinessGateMode settings.linkedIssueGateMode = .block) ∨
      (overlappingPrs pr others ≠ [] ∧
        effectiveMode settings.mergeReadinessGateMode settings.duplicatePrGateMode = .block) ∨
      (effectiveMode settings.mergeReadinessGateMode settings.qualityGateMode = .block ∧
        BelowThreshold readinessScore settings.qualityGateMinScore) ∨
      (effectiveMode settings.mergeReadinessGateMode settings.slopGateMode = .block ∧
        AtOrAboveThreshold slopRisk settings.slopGateMinScore) := by
  rw [pullRequest_blocked_iff]
  simp only [compositeMode, gateCheckPolicy, gateModeOr_some, gateMode_some]

/-- The author's side of the verdict: unconfirmed in a pack that asks, or under grace. -/
theorem gateCheckPolicy_spared_iff (settings : RepositorySettings)
    (readinessScore : Option JsNumber) (confirmedContributor : Option Bool)
    (slopRisk : Option JsNumber) (authorHistory : Option AuthorHistory) :
    AuthorSpared (gateCheckPolicy settings readinessScore confirmedContributor slopRisk
        authorHistory) ↔
      (settings.gatePack = .gittensor ∧ confirmedContributor = some false) ∨
      (settings.firstTimeContributorGrace = true ∧
        (authorHistory.map AuthorHistory.mergedPrCount).getD 0 = 0 ∧
        (authorHistory.map AuthorHistory.closedUnmergedPrCount).getD 0 < 3) := by
  have hgrace : graceApplies (gateCheckPolicy settings readinessScore confirmedContributor slopRisk
      authorHistory) = true ↔ settings.firstTimeContributorGrace = true ∧
        (authorHistory.map AuthorHistory.mergedPrCount).getD 0 = 0 ∧
        (authorHistory.map AuthorHistory.closedUnmergedPrCount).getD 0 < 3 := by
    simp only [graceApplies, gateCheckPolicy, Option.some.injEq, decide_eq_true_eq, not_le]
  have hconfirmed : (gateCheckPolicy settings readinessScore confirmedContributor slopRisk
      authorHistory).confirmedContributor = some false ↔
        settings.gatePack = .gittensor ∧ confirmedContributor = some false := by
    unfold gateCheckPolicy
    cases settings.gatePack with
    | gittensor => simp
    | ossAntiSlop => simp
  rw [AuthorSpared, hgrace, hconfirmed]

end Rules

/-- Two verdicts on evaluated advisories agree when both or neither is blocked, and what is
blocked spares both authors or neither. -/
theorem conclusions_agree_iff {first second : Advisory} {policy policy' : GateCheckPolicy}
    (hevaluated : NotEvaluated first ↔ NotEvaluated second) :
    (evaluateGateCheck first policy).conclusion = (evaluateGateCheck second policy').conclusion ↔
      NotEvaluated first ∨ (¬ Blocked first policy ∧ ¬ Blocked second policy') ∨
      (Blocked first policy ∧ Blocked second policy' ∧
        (AuthorSpared policy ↔ AuthorSpared policy')) := by
  unfold Blocked
  rw [evaluateGateCheck_conclusion, evaluateGateCheck_conclusion]
  by_cases heval : NotEvaluated first
  · rw [if_pos heval, if_pos (hevaluated.mp heval)]
    exact ⟨fun _ => Or.inl heval, fun _ => rfl⟩
  · rw [if_neg heval, if_neg (fun h => heval (hevaluated.mpr h))]
    by_cases hfirst : gateBlockers first policy = []
    · by_cases hsecond : gateBlockers second policy' = []
      · simp [hfirst, hsecond]
      · by_cases hspared : AuthorSpared policy'
        · simp [heval, hfirst, hsecond, hspared]
        · simp [heval, hfirst, hsecond, hspared]
    · by_cases hsecond : gateBlockers second policy' = []
      · by_cases hspared : AuthorSpared policy
        · simp [heval, hfirst, hsecond, hspared]
        · simp [heval, hfirst, hsecond, hspared]
      · by_cases hspared : AuthorSpared policy
        · by_cases hspared' : AuthorSpared policy'
          · simp [hfirst, hsecond, hspared, hspared']
          · simp [heval, hfirst, hsecond, hspared, hspared']
        · by_cases hspared' : AuthorSpared policy'
          · simp [heval, hfirst, hsecond, hspared, hspared']
          · simp [hfirst, hsecond, hspared, hspared']

end Gittensory.GatePolicy
