import Gittensory.LiveGate
import Gittensory.ReadinessScore
import Mathlib.Data.List.Sort

/-!
The prediction of the gate before a pull request exists (`rules/predicted-gate.ts`) against
the gate of the pipeline after its submission. The prediction puts the policy together by
itself: it asks for the linked-issue evidence without the composite, counts every pull request
it was given as open, leaves the slop risk, the duplicates and the draft state out, and finds
the author's history by the exact login. What is left of the promised parity is an exact
condition on the two sets of blockers and on the author.
-/
namespace Gittensory.PredictedGate

open AdvisoryGate GateMonotonicity GatePolicy JsValue LiveGate PullRequestAdvisory ReadinessScore
open TextPattern

structure PredictedGateInput where
  repoFullName : String
  contributorLogin : String
  title : String
  body : Option String := none
  labels : Option (List String) := none
  authorAssociation : Option String := none
  deriving DecidableEq, Repr

/-- What the signal engine makes of the planned contribution and the issues and pull
requests of the queue. -/
structure ReadinessInputs where
  preflight : PreflightResult
  queueHealth : QueueHealth
  scopedOverlapCount : ℕ
  deriving DecidableEq, Repr

section Prediction

structure PublicSafeFinding where
  code : String
  title : String
  detail : String
  action : Option String
  deriving DecidableEq, Repr

structure AntiSlopFunnel where
  message : String
  registerUrl : String
  deriving DecidableEq, Repr

def OSS_ANTI_SLOP_FUNNEL : AntiSlopFunnel where
  message := "This repo runs the Gittensor anti-slop gate. Gittensor lets GitHub contributors " ++
    "earn for open-source work like this — register to start earning."
  registerUrl := "https://gittensor.io"

def PREDICTED_GATE_NOTE : String :=
  "Predicted from the repo's public .gittensory.yml gate config + safe defaults. The maintainer " ++
  "may have private dashboard overrides not reflected here, and the dual-model AI-consensus " ++
  "blocker is only evaluated on a real PR. Only confirmed Gittensor contributors are ever " ++
  "hard-blocked."

structure PredictedGateVerdict where
  pack : GatePolicyPack
  conclusion : GateCheckConclusion
  title : String
  summary : String
  readinessScore : ℤ
  confirmedContributor : Option Bool
  blockers : List PublicSafeFinding
  warnings : List PublicSafeFinding
  funnel : Option AntiSlopFunnel
  note : String
  deriving DecidableEq, Repr

def publicSafeFinding (sanitizePublicComment : String → String) (finding : AdvisoryFinding) :
    PublicSafeFinding where
  code := finding.code
  title := sanitizePublicComment finding.title
  detail := sanitizePublicComment finding.detail
  action := (present finding.action).map sanitizePublicComment

/-- The open pull request that the prediction makes up from the local branch. -/
def syntheticPr (input : PredictedGateInput) (preflight : PreflightResult) : PullRequestRecord where
  repoFullName := input.repoFullName
  number := 0
  title := input.title
  state := "open"
  authorLogin := some input.contributorLogin
  authorAssociation := input.authorAssociation
  body := input.body
  labels := input.labels.getD []
  linkedIssues := preflight.linkedIssues

def predictedReadiness (input : PredictedGateInput) (engine : ReadinessInputs) :
    PublicReadinessScore :=
  buildPublicReadinessScore (syntheticPr input engine.preflight) engine.preflight
    engine.queueHealth [] engine.scopedOverlapCount

def predictedRequiresLinkedIssue (gate : FocusManifestGateConfig) : Bool :=
  gate.linkedIssue ≠ none && gate.linkedIssue ≠ some .off

def predictedPack (gate : FocusManifestGateConfig) : GatePolicyPack := gate.pack.getD .gittensor

/-- The rows whose author login is the contributor's to the letter. -/
def predictedHistory (pullRequests : List PullRequestRecord) (repoFullName login : String) :
    AuthorHistory :=
  let authorHistory := pullRequests.filter fun pr =>
    pr.repoFullName = repoFullName && pr.authorLogin = some login
  { mergedPrCount := (authorHistory.filter fun pr =>
      pr.state = "merged" || truthy pr.mergedAt).length
    closedUnmergedPrCount := (authorHistory.filter fun pr =>
      pr.state = "closed" && !truthy pr.mergedAt).length }

def predictedPolicy (gate : FocusManifestGateConfig) (readiness : ℤ)
    (confirmedContributor : Option Bool) (history : AuthorHistory) : GateCheckPolicy :=
  { emptyPolicy with
    linkedIssueGateMode := gate.linkedIssue
    duplicatePrGateMode := gate.duplicates
    qualityGateMode := gate.readinessMode
    qualityGateMinScore := gate.readinessMinScore
    aiReviewGateMode := gate.aiReviewMode
    mergeReadinessGateMode := gate.mergeReadiness
    readinessScore := some (.finite readiness)
    confirmedContributor
    firstTimeContributorGrace := gate.firstTimeContributorGrace
    authorMergedPrCount := some history.mergedPrCount
    authorClosedUnmergedPrCount := some history.closedUnmergedPrCount }

def buildPredictedGateVerdict (sanitizePublicComment : String → String)
    (input : PredictedGateInput) (manifest : FocusManifest) (repo : Option RepositoryRecord)
    (pullRequests : List PullRequestRecord) (engine : ReadinessInputs)
    (confirmedContributor : Option Bool) : PredictedGateVerdict :=
  let gate := manifest.gate
  let readiness := predictedReadiness input engine
  let advisoryResult := buildPullRequestAdvisory repo (some (syntheticPr input engine.preflight))
    pullRequests (predictedRequiresLinkedIssue gate)
  let pack := predictedPack gate
  let effectiveConfirmedContributor := if pack = .ossAntiSlop then none else confirmedContributor
  let evaluation := evaluateGateCheck advisoryResult
    (predictedPolicy gate readiness.total effectiveConfirmedContributor
      (predictedHistory pullRequests input.repoFullName input.contributorLogin))
  { pack
    conclusion := evaluation.conclusion
    title := sanitizePublicComment evaluation.title
    summary := sanitizePublicComment evaluation.summary
    readinessScore := readiness.total
    confirmedContributor := effectiveConfirmedContributor
    blockers := evaluation.blockers.map (publicSafeFinding sanitizePublicComment)
    warnings := evaluation.warnings.map (publicSafeFinding sanitizePublicComment)
    funnel := if pack = .ossAntiSlop then some OSS_ANTI_SLOP_FUNNEL else none
    note := PREDICTED_GATE_NOTE }

end Prediction

section Pipeline

def listPullRequests (table : List PullRequestRecord) (fullName : String) :
    List PullRequestRecord :=
  (table.filter fun pr => pr.repoFullName = fullName).take 500

def listOtherOpenPullRequests (table : List PullRequestRecord) (fullName : String) (number : ℕ) :
    List PullRequestRecord :=
  (table.filter fun pr =>
    pr.repoFullName = fullName && pr.state = "open" && pr.number ≠ number).take 100

/-- `lower()` of the database, which folds ASCII letters only. -/
def sqlLower (text : String) : String := String.ofList (text.toList.map Pattern.lowerOf)

def loginMatches (column : Option String) (login : String) : Bool :=
  column.any fun stored => sqlLower stored = toLowerCase login

def getRepoAuthorPullRequestHistory (table : List PullRequestRecord) (fullName login : String)
    (excludeNumber : ℕ) : AuthorHistory :=
  let rows := table.filter fun pr =>
    pr.repoFullName = fullName && loginMatches pr.authorLogin login && pr.number ≠ excludeNumber
  { mergedPrCount := (rows.filter fun pr => pr.mergedAt ≠ none || pr.state = "merged").length
    closedUnmergedPrCount := (rows.filter fun pr =>
      pr.state = "closed" && pr.mergedAt = none).length }

def linkedIssueDuplicatePullRequestsForGate (pr : PullRequestRecord)
    (pullRequests : List PullRequestRecord) : List ℕ :=
  let duplicates := pullRequests.filter fun otherPr =>
    otherPr.number ≠ pr.number && otherPr.state = "open" &&
      otherPr.linkedIssues.any fun issue => pr.linkedIssues.contains issue
  if pr.linkedIssues = [] then []
  else (duplicates.map PullRequestRecord.number).dedup.insertionSort (· ≤ ·)

def pipelineReadiness (table : List PullRequestRecord) (pr : PullRequestRecord)
    (engine : ReadinessInputs) : PublicReadinessScore :=
  buildPublicReadinessScore pr engine.preflight engine.queueHealth
    (linkedIssueDuplicatePullRequestsForGate pr (listPullRequests table pr.repoFullName))
    engine.scopedOverlapCount

/-- The history the gate of a stored pull request gets. -/
def pipelineHistory (table : List PullRequestRecord) (pr : PullRequestRecord) : AuthorHistory :=
  loadGateAuthorHistory pr.authorLogin
    (some (getRepoAuthorPullRequestHistory table pr.repoFullName (pr.authorLogin.getD "") pr.number))

/-- The gate of a stored pull request, under the manifest over a database without settings for
the repository. All three reads of the table leave its own row out. -/
def pipelineGate (manifest : FocusManifest) (repo : Option RepositoryRecord)
    (table : List PullRequestRecord) (pr : PullRequestRecord) (engine : ReadinessInputs)
    (confirmedContributor : Option Bool) (slopRisk : JsNumber) : GateCheckEvaluation :=
  let settings := resolveEffectiveSettings defaultRepositorySettings manifest
  evaluateGateCheck
    (liveAdvisory settings repo pr (listOtherOpenPullRequests table pr.repoFullName pr.number))
    (gateCheckPolicy settings (some (.finite (pipelineReadiness table pr engine).total))
      confirmedContributor (if shouldCollectSlopEvidence settings then some slopRisk else none)
      (some (pipelineHistory table pr)))

end Pipeline

/-- A planned pull request, what is known before it exists, and what the pipeline gets to see
of it once it is submitted. -/
structure Submission where
  gate : FocusManifestGateConfig
  repo : Option RepositoryRecord
  pullRequests : List PullRequestRecord
  input : PredictedGateInput
  engine : ReadinessInputs
  confirmedContributor : Option Bool
  number : ℕ
  headSha : Option String
  isDraft : Option Bool
  slopRisk : JsNumber

namespace Submission

def manifest (s : Submission) : FocusManifest := ⟨s.gate, {}⟩

def pr (s : Submission) : PullRequestRecord :=
  { syntheticPr s.input s.engine.preflight with
    number := s.number
    headSha := s.headSha
    isDraft := s.isDraft }

def predicted (s : Submission) (sanitizePublicComment : String → String) : PredictedGateVerdict :=
  buildPredictedGateVerdict sanitizePublicComment s.input s.manifest s.repo s.pullRequests
    s.engine s.confirmedContributor

def live (s : Submission) : GateCheckEvaluation :=
  pipelineGate s.manifest s.repo s.pullRequests s.pr s.engine s.confirmedContributor s.slopRisk

/-- The pull requests the pipeline compares with. -/
def counted (s : Submission) : List PullRequestRecord :=
  listOtherOpenPullRequests s.pullRequests s.input.repoFullName s.number

def SharesIssue (s : Submission) (otherPr : PullRequestRecord) : Prop :=
  ∃ issue ∈ otherPr.linkedIssues, issue ∈ s.engine.preflight.linkedIssues

def composite (s : Submission) : GateRuleMode := s.gate.mergeReadiness.getD .off

def linkedIssueMode (s : Submission) : GateRuleMode :=
  effectiveMode s.composite (s.gate.linkedIssue.getD .advisory)

def duplicateMode (s : Submission) : GateRuleMode :=
  effectiveMode s.composite (s.gate.duplicates.getD .block)

def readinessMode (s : Submission) : GateRuleMode :=
  effectiveMode s.composite (s.gate.readinessMode.getD .advisory)

/-- A missing link the manifest itself asks for, an overlap with a pull request the pipeline
counts, or a score too low even without duplicates and draft. -/
def SharedBlocker (s : Submission) : Prop :=
  (s.engine.preflight.linkedIssues = [] ∧ predictedRequiresLinkedIssue s.gate = true ∧
    s.linkedIssueMode = .block) ∨
  (s.duplicateMode = .block ∧ ∃ otherPr ∈ s.counted, s.SharesIssue otherPr) ∨
  (s.readinessMode = .block ∧
    BelowThreshold (some (.finite (predictedReadiness s.input s.engine).total))
      s.gate.readinessMinScore)

/-- An overlap with a row the pipeline does not count: closed, of another repository, its own
or past the limit of the query. -/
def PredictedOnlyBlocker (s : Submission) : Prop :=
  s.duplicateMode = .block ∧ ∃ otherPr ∈ s.pullRequests, otherPr ∉ s.counted ∧ s.SharesIssue otherPr

/-- What the composite alone blocks on, or a score that duplicates or the draft state push
below the minimum. -/
def PipelineOnlyBlocker (s : Submission) : Prop :=
  (s.composite = .block ∧ (s.engine.preflight.linkedIssues = [] ∨
    AtOrAboveThreshold (some s.slopRisk) s.gate.slopMinScore)) ∨
  (s.readinessMode = .block ∧
    BelowThreshold (some (.finite (pipelineReadiness s.pullRequests s.pr s.engine).total))
      s.gate.readinessMinScore)

end Submission

/-- A history that grace is for. -/
def Newcomer (history : AuthorHistory) : Prop :=
  history.mergedPrCount = 0 ∧ history.closedUnmergedPrCount < 3

/-- Where grace is what spares the author, both histories are a newcomer's or neither. -/
def Submission.AuthorSeenAlike (s : Submission) : Prop :=
  s.gate.firstTimeContributorGrace = some true →
  ¬ (predictedPack s.gate = .gittensor ∧ s.confirmedContributor = some false) →
    (Newcomer (predictedHistory s.pullRequests s.input.repoFullName s.input.contributorLogin) ↔
      Newcomer (pipelineHistory s.pullRequests s.pr))

/-- The prediction comes to the verdict of the pipeline. -/
def Submission.VerdictsMeet (s : Submission) : Prop :=
  s.repo = none ∨
  ((s.SharedBlocker ∨ (s.PredictedOnlyBlocker ∧ s.PipelineOnlyBlocker)) ∧ s.AuthorSeenAlike) ∨
  (¬ s.SharedBlocker ∧ ¬ s.PredictedOnlyBlocker ∧ ¬ s.PipelineOnlyBlocker)

instance (s : Submission) : DecidablePred s.SharesIssue := by
  unfold Submission.SharesIssue
  infer_instance

instance (s : Submission) : Decidable s.SharedBlocker := by
  unfold Submission.SharedBlocker
  infer_instance

instance (s : Submission) : Decidable s.PredictedOnlyBlocker := by
  unfold Submission.PredictedOnlyBlocker
  infer_instance

instance (s : Submission) : Decidable s.PipelineOnlyBlocker := by
  unfold Submission.PipelineOnlyBlocker
  infer_instance

section Parity

variable (s : Submission)

theorem gateModeOr_eq_getD (fallback : GateRuleMode) (value : Option GateRuleMode) :
    gateModeOr fallback value = value.getD fallback := gateMode_some _

theorem gateMode_eq_getD (value : Option GateRuleMode) :
    gateMode value = value.getD .advisory := by
  cases value with
  | none => rfl
  | some mode => exact gateMode_some mode

theorem belowThreshold_mono {score score' : ℤ} (h : score ≤ score') {minScore : Option JsNumber}
    (hbelow : BelowThreshold (some (.finite score')) minScore) :
    BelowThreshold (some (.finite score)) minScore := by
  obtain ⟨t, ht, m, hm, hlt⟩ := hbelow
  have hround : mathRound (score : ℚ) ≤ mathRound (score' : ℚ) :=
    mathRound_mono (Int.cast_le.mpr h)
  rw [normalizeScore, Option.mem_some_iff] at ht
  refine ⟨_, rfl, m, hm, lt_of_le_of_lt ?_ hlt⟩
  rw [← ht]
  exact max_le_max le_rfl (min_le_min le_rfl hround)

theorem counted_subset {otherPr : PullRequestRecord} (h : otherPr ∈ s.counted) :
    otherPr ∈ s.pullRequests :=
  (List.mem_filter.mp (List.mem_of_mem_take h)).1

/-- An overlap is with a pull request the pipeline counts or with one it does not. -/
theorem overlap_iff (pr : PullRequestRecord)
    (hlinked : pr.linkedIssues = s.engine.preflight.linkedIssues) :
    overlappingPrs pr s.pullRequests ≠ [] ↔ (∃ otherPr ∈ s.counted, s.SharesIssue otherPr) ∨
      ∃ otherPr ∈ s.pullRequests, otherPr ∉ s.counted ∧ s.SharesIssue otherPr := by
  rw [overlappingPrs_ne_nil_iff, hlinked]
  constructor
  · intro h
    obtain ⟨otherPr, hmem, hshares⟩ := h
    by_cases hcounted : otherPr ∈ s.counted
    · exact Or.inl ⟨otherPr, hcounted, hshares⟩
    · exact Or.inr ⟨otherPr, hmem, hcounted, hshares⟩
  · intro h
    rcases h with ⟨otherPr, hmem, hshares⟩ | ⟨otherPr, hmem, -, hshares⟩
    · exact ⟨otherPr, counted_subset s hmem, hshares⟩
    · exact ⟨otherPr, hmem, hshares⟩

theorem not_atOrAboveThreshold_none (minScore : Option JsNumber) :
    ¬ AtOrAboveThreshold none minScore := by
  simp [AtOrAboveThreshold, normalizeScore]

theorem resolveEffectiveSettings_default (gate : FocusManifestGateConfig) :
    resolveEffectiveSettings defaultRepositorySettings ⟨gate, {}⟩ =
      overlayGate defaultRepositorySettings gate := by
  unfold resolveEffectiveSettings requireAsBlock
  rw [if_neg]
  · rfl
  · intro h
    exact absurd h.1 Bool.false_ne_true

theorem readiness_le :
    (pipelineReadiness s.pullRequests s.pr s.engine).total ≤
      (predictedReadiness s.input s.engine).total := by
  have htitle : s.pr.title = (syntheticPr s.input s.engine.preflight).title := rfl
  have hbody : s.pr.body = (syntheticPr s.input s.engine.preflight).body := rfl
  exact total_le_of_same_text htitle hbody rfl rfl rfl _ _ _ _

theorem overlap_last (unlinked counted uncounted duplicates readiness : Prop) :
    (unlinked ∨ ((counted ∨ uncounted) ∧ duplicates) ∨ readiness) ↔
      (unlinked ∨ (duplicates ∧ counted) ∨ readiness) ∨ (duplicates ∧ uncounted) := by
  tauto

theorem predicted_blocked_iff :
    Blocked (buildPullRequestAdvisory s.repo (some (syntheticPr s.input s.engine.preflight))
        s.pullRequests (predictedRequiresLinkedIssue s.gate))
      (predictedPolicy s.gate (predictedReadiness s.input s.engine).total
        (if predictedPack s.gate = .ossAntiSlop then none else s.confirmedContributor)
        (predictedHistory s.pullRequests s.input.repoFullName s.input.contributorLogin)) ↔
      s.SharedBlocker ∨ s.PredictedOnlyBlocker := by
  rw [pullRequest_blocked_iff, overlap_iff s _ rfl]
  simp only [predictedPolicy, emptyPolicy, compositeMode, gateModeOr_eq_getD, gateMode_eq_getD,
    not_atOrAboveThreshold_none, and_false, or_false, Submission.SharedBlocker,
    Submission.PredictedOnlyBlocker, Submission.linkedIssueMode, Submission.duplicateMode,
    Submission.readinessMode, Submission.composite, syntheticPr]
  exact overlap_last _ _ _ _ _

/-- The gates that the prediction does not take over are off. -/
structure SlopAndPolicyUnset (gate : FocusManifestGateConfig) : Prop where
  slop : gate.slopMode = none
  manifestPolicy : gate.manifestPolicy = none

/-- The policy of the pipeline. -/
def Submission.livePolicy : GateCheckPolicy :=
  let settings := overlayGate defaultRepositorySettings s.gate
  gateCheckPolicy settings
    (some (.finite (pipelineReadiness s.pullRequests s.pr s.engine).total)) s.confirmedContributor
    (if shouldCollectSlopEvidence settings then some s.slopRisk else none)
    (some (pipelineHistory s.pullRequests s.pr))

def Submission.liveAdvisory : Advisory :=
  LiveGate.liveAdvisory (overlayGate defaultRepositorySettings s.gate) s.repo s.pr s.counted

theorem live_eq : s.live = evaluateGateCheck s.liveAdvisory s.livePolicy := by
  unfold Submission.live pipelineGate
  rw [Submission.manifest, resolveEffectiveSettings_default]
  rfl

theorem counted_overlap_iff :
    overlappingPrs s.pr s.counted ≠ [] ↔ ∃ otherPr ∈ s.counted, s.SharesIssue otherPr :=
  overlappingPrs_ne_nil_iff s.pr s.counted

theorem collect_iff :
    shouldCollectLinkedIssueEvidence (overlayGate defaultRepositorySettings s.gate) = true ↔
      s.gate.linkedIssue.getD .advisory ≠ .off ∨ s.composite ≠ .off := by
  simp [shouldCollectLinkedIssueEvidence, mergeReadinessGateEnabled, overlayGate,
    defaultRepositorySettings, Submission.composite]

/-- A block on a missing link is either asked for by the manifest or the composite's. -/
theorem link_block_iff :
    (shouldCollectLinkedIssueEvidence (overlayGate defaultRepositorySettings s.gate) = true ∧
      s.linkedIssueMode = .block) ↔
      (predictedRequiresLinkedIssue s.gate = true ∧ s.linkedIssueMode = .block) ∨
        s.composite = .block := by
  rw [collect_iff, Submission.linkedIssueMode, effectiveMode_block_iff]
  cases hcomposite : s.composite with
  | block => simp
  | advisory => simp
  | off =>
    cases hmode : s.gate.linkedIssue with
    | none => simp
    | some mode => cases mode <;> simp [predictedRequiresLinkedIssue, hmode]

theorem slop_block_iff (h : SlopAndPolicyUnset s.gate) :
    (effectiveMode s.composite (s.gate.slopMode.getD .off) = .block ∧
      AtOrAboveThreshold (if shouldCollectSlopEvidence
        (overlayGate defaultRepositorySettings s.gate) then some s.slopRisk else none)
        s.gate.slopMinScore) ↔
      s.composite = .block ∧ AtOrAboveThreshold (some s.slopRisk) s.gate.slopMinScore := by
  have hoff : ¬ (s.composite = .off ∧ (none : Option GateRuleMode).getD .off = .block) := by
    intro h
    cases h.2
  rw [h.slop, effectiveMode_block_iff, or_iff_left hoff]
  apply and_congr_right
  intro hcomposite
  have hcollect : shouldCollectSlopEvidence (overlayGate defaultRepositorySettings s.gate) =
      true := by
    have hmode : (overlayGate defaultRepositorySettings s.gate).mergeReadinessGateMode = .block :=
      hcomposite
    simp [shouldCollectSlopEvidence, mergeReadinessGateEnabled, hmode]
  rw [if_pos hcollect]

theorem composite_first {below belowLive : Prop} (hmono : below → belowLive)
    (unlinked required link composite overlap duplicates readiness slop : Prop) :
    ((unlinked ∧ ((required ∧ link) ∨ composite)) ∨ (overlap ∧ duplicates) ∨
        (readiness ∧ belowLive) ∨ (composite ∧ slop)) ↔
      ((unlinked ∧ required ∧ link) ∨ (duplicates ∧ overlap) ∨ (readiness ∧ below)) ∨
        (composite ∧ (unlinked ∨ slop)) ∨ (readiness ∧ belowLive) := by
  tauto

theorem live_blocked_iff (h : SlopAndPolicyUnset s.gate) :
    Blocked s.liveAdvisory s.livePolicy ↔ s.SharedBlocker ∨ s.PipelineOnlyBlocker := by
  have hlink := link_block_iff s
  have hslop := slop_block_iff s h
  have hminScore : (overlayGate defaultRepositorySettings s.gate).qualityGateMinScore =
    s.gate.readinessMinScore := Option.or_none
  have hslopMin : (overlayGate defaultRepositorySettings s.gate).slopGateMinScore =
    s.gate.slopMinScore := Option.or_none
  unfold Submission.liveAdvisory LiveGate.liveAdvisory Submission.livePolicy
  rw [gateCheckPolicy_blocked_iff, counted_overlap_iff, hminScore, hslopMin]
  exact (or_congr (and_congr_right fun _ => hlink)
    (or_congr_right (or_congr_right hslop))).trans
    (composite_first (belowThreshold_mono (readiness_le s)) _ _ _ _ _ _ _ _)

theorem predicted_spared_iff (readiness : ℤ) (history : AuthorHistory) :
    AuthorSpared (predictedPolicy s.gate readiness
        (if predictedPack s.gate = .ossAntiSlop then none else s.confirmedContributor) history) ↔
      (predictedPack s.gate = .gittensor ∧ s.confirmedContributor = some false) ∨
        (s.gate.firstTimeContributorGrace = some true ∧ Newcomer history) := by
  have hconfirmed : (if predictedPack s.gate = .ossAntiSlop then none
      else s.confirmedContributor) = some false ↔
        predictedPack s.gate = .gittensor ∧ s.confirmedContributor = some false := by
    cases predictedPack s.gate with
    | gittensor => simp
    | ossAntiSlop => simp
  rw [← hconfirmed]
  simp only [AuthorSpared, graceApplies, predictedPolicy, Option.getD_some, decide_eq_true_eq,
    not_le, Newcomer]

theorem live_spared_iff :
    AuthorSpared s.livePolicy ↔
      (predictedPack s.gate = .gittensor ∧ s.confirmedContributor = some false) ∨
        (s.gate.firstTimeContributorGrace = some true ∧
          Newcomer (pipelineHistory s.pullRequests s.pr)) := by
  have hgrace : (overlayGate defaultRepositorySettings s.gate).firstTimeContributorGrace = true ↔
      s.gate.firstTimeContributorGrace = some true := by
    unfold overlayGate
    cases s.gate.firstTimeContributorGrace with
    | none => simp [defaultRepositorySettings]
    | some grace => simp
  unfold Submission.livePolicy
  rw [gateCheckPolicy_spared_iff, hgrace]
  rfl

theorem spared_alike_iff :
    (AuthorSpared (predictedPolicy s.gate (predictedReadiness s.input s.engine).total
        (if predictedPack s.gate = .ossAntiSlop then none else s.confirmedContributor)
        (predictedHistory s.pullRequests s.input.repoFullName s.input.contributorLogin)) ↔
      AuthorSpared s.livePolicy) ↔ s.AuthorSeenAlike := by
  rw [predicted_spared_iff, live_spared_iff, Submission.AuthorSeenAlike]
  tauto

theorem parity_cases (missing shared predictedOnly pipelineOnly alike : Prop) :
    (missing ∨ (¬ (shared ∨ predictedOnly) ∧ ¬ (shared ∨ pipelineOnly)) ∨
      ((shared ∨ predictedOnly) ∧ (shared ∨ pipelineOnly) ∧ alike)) ↔
      missing ∨ ((shared ∨ (predictedOnly ∧ pipelineOnly)) ∧ alike) ∨
        (¬ shared ∧ ¬ predictedOnly ∧ ¬ pipelineOnly) := by
  tauto

/-- The prediction and the pipeline come to one conclusion exactly under this condition. -/
theorem predicted_meets_pipeline_iff (h : SlopAndPolicyUnset s.gate)
    (sanitizePublicComment : String → String) :
    (s.predicted sanitizePublicComment).conclusion = s.live.conclusion ↔ s.VerdictsMeet := by
  have hpredicted : (s.predicted sanitizePublicComment).conclusion = (evaluateGateCheck
      (buildPullRequestAdvisory s.repo (some (syntheticPr s.input s.engine.preflight))
        s.pullRequests (predictedRequiresLinkedIssue s.gate))
      (predictedPolicy s.gate (predictedReadiness s.input s.engine).total
        (if predictedPack s.gate = .ossAntiSlop then none else s.confirmedContributor)
        (predictedHistory s.pullRequests s.input.repoFullName
          s.input.contributorLogin))).conclusion := rfl
  have hevaluated : NotEvaluated s.liveAdvisory ↔ s.repo = none :=
    advisory_notEvaluated_iff _ _ _ _
  rw [hpredicted, live_eq, conclusions_agree_iff, advisory_notEvaluated_iff, predicted_blocked_iff,
    live_blocked_iff s h, spared_alike_iff, parity_cases, Submission.VerdictsMeet]
  rw [hevaluated, advisory_notEvaluated_iff]

end Parity

section Runs

def widgets : RepositoryRecord := ⟨"acme/widgets", true, some ⟨.finite 0, [], .finite 0⟩⟩

/-- What the engine says about a first pull request on an empty queue. -/
def emptyQueueInputs : List ℕ → ReadinessInputs
  | [] => ⟨⟨.needsWork, .low, [], ["missing_linked_issue"]⟩, ⟨0⟩, 0⟩
  | issue :: rest => ⟨⟨.ready, .low, issue :: rest, []⟩, ⟨0⟩, 0⟩

/-- A pull request on an empty queue, under a manifest that sets the composite to block. -/
def compositeSubmission (linkedIssues : List ℕ) : Submission where
  gate := { mergeReadiness := some .block }
  repo := some widgets
  pullRequests := []
  input := { repoFullName := "acme/widgets", contributorLogin := "dev", title := "Add a parser" }
  engine := emptyQueueInputs linkedIssues
  confirmedContributor := some true
  number := 7
  headSha := some "c0ffee"
  isDraft := some false
  slopRisk := .finite 0

theorem compositeSubmission_unset (linkedIssues : List ℕ) :
    SlopAndPolicyUnset (compositeSubmission linkedIssues).gate := ⟨rfl, rfl⟩

theorem predicted_meets_pipeline_linked :
    (((compositeSubmission [3]).predicted id).conclusion =
        (compositeSubmission [3]).live.conclusion ↔ (compositeSubmission [3]).VerdictsMeet) ∧
      (compositeSubmission [3]).live.conclusion = .success :=
  ⟨predicted_meets_pipeline_iff _ (compositeSubmission_unset [3]) id, by decide +kernel⟩

/-- Without a linked issue the composite fails the pull request whose success was predicted. -/
theorem predicted_misses_composite :
    ¬ ∀ s : Submission, SlopAndPolicyUnset s.gate → ∀ sanitizePublicComment : String → String,
      (s.predicted sanitizePublicComment).conclusion = s.live.conclusion := by
  intro h
  have hmeet := h _ (compositeSubmission_unset []) id
  revert hmeet
  decide +kernel

end Runs

end Gittensory.PredictedGate
