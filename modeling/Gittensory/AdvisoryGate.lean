import Gittensory.JsValue
import Mathlib.Order.Basic

/-!
Advisory findings and the gate verdict computed from them (`rules/advisory.ts`).
A finding blocks when its own gate mode says so; two further blockers come from
the readiness and slop scores; the merge-readiness composite overrides four of
the modes. Whether the blockers fail the pull request also depends on who
opened it.
-/
namespace Gittensory.AdvisoryGate

open JsValue TextPattern

inductive AdvisorySeverity where
  | info
  | warning
  | critical
  deriving DecidableEq, Repr

structure AdvisoryFinding where
  code : String
  title : String
  severity : AdvisorySeverity
  detail : String
  action : Option String
  publicText : Option String
  deriving DecidableEq, Repr

inductive AdvisoryConclusion where
  | success
  | neutral
  | actionRequired
  deriving DecidableEq, Repr

inductive AdvisoryTarget where
  | repository
  | pullRequest
  | issue
  deriving DecidableEq, Repr

structure Advisory where
  targetType : AdvisoryTarget
  targetKey : String
  repoFullName : String
  pullNumber : Option ℕ
  issueNumber : Option ℕ
  headSha : Option String
  conclusion : AdvisoryConclusion
  severity : AdvisorySeverity
  title : String
  summary : String
  findings : List AdvisoryFinding
  deriving DecidableEq, Repr

def highestSeverity (findings : List AdvisoryFinding) : AdvisorySeverity :=
  if findings.any (fun finding => finding.severity = .critical) then .critical
  else if findings.any (fun finding => finding.severity = .warning) then .warning
  else .info

def conclusionForSeverity (severity : AdvisorySeverity) (findings : List AdvisoryFinding) :
    AdvisoryConclusion :=
  if findings.any (fun finding =>
      finding.code = "repo_unregistered" ∨ finding.code = "repo_not_seen") then .actionRequired
  else match severity with
    | .warning => .neutral
    | .critical => .actionRequired
    | .info => .success

def advisory (targetType : AdvisoryTarget) (targetKey repoFullName : String)
    (findings : List AdvisoryFinding) (fallbackSummary : String)
    (pullNumber issueNumber : Option ℕ) (headSha : Option String) : Advisory :=
  let severity := highestSeverity findings
  let conclusion := conclusionForSeverity severity findings
  { targetType, targetKey, repoFullName, pullNumber, issueNumber, headSha, conclusion, severity
    title := if conclusion = .success then "Gittensory advisory passed"
      else "Gittensory advisory available"
    summary := if findings.length > 0 then
        toString findings.length ++ " advisory finding" ++
          (if findings.length = 1 then "" else "s") ++ " generated."
      else fallbackSummary
    findings }

/-- What `addPullRequestFindings` pushes when a required issue link is missing. -/
def missingLinkedIssueFinding : AdvisoryFinding where
  code := "missing_linked_issue"
  severity := .warning
  title := "No linked issue detected"
  detail := "No closing reference or linked issue number was found in the PR metadata/body."
  action := some "If this PR is intended to solve an issue, link it explicitly in the PR body."
  publicText := none

/-- `CHECK_RUN_FORBIDDEN_TERMS`. -/
def checkRunForbiddenTerms : Pattern :=
  let spaces := Pattern.plus (.char spaceSet)
  let word := Pattern.literalNoCase
  let plural (text : String) := Pattern.seq (word text) (.opt (word "s"))
  .seqs [.wordBoundary,
    .alts [plural "reward", plural "payout", word "farming",
      .seqs [word "estimated", spaces, plural "score"],
      .seqs [word "raw", spaces, word "trust", spaces, plural "score"],
      .seqs [word "trust", spaces, plural "score"],
      .seqs [word "score", spaces, plural "estimate"],
      .seqs [word "reward", spaces, plural "estimate"],
      plural "wallet", plural "hotkey", plural "coldkey", word "reviewability",
      word "scoreability", .seqs [word "private", spaces, plural "signal"]],
    .wordBoundary]

def sanitizeForCheckRun (text : String) : String :=
  String.ofList (trimText (replaceAll (.plus (.char spaceSet)) [' ']
    (replaceAll checkRunForbiddenTerms "[context]".toList text.toList)))

inductive GateRuleMode where
  | off
  | advisory
  | block
  deriving DecidableEq, Repr

/-- An absent optional field and an explicit `null` read alike everywhere below. -/
structure GateCheckPolicy where
  linkedIssueGateMode : Option GateRuleMode
  duplicatePrGateMode : Option GateRuleMode
  qualityGateMode : Option GateRuleMode
  qualityGateMinScore : Option JsNumber
  aiReviewGateMode : Option GateRuleMode
  readinessScore : Option JsNumber
  slopGateMode : Option GateRuleMode
  slopGateMinScore : Option JsNumber
  slopRisk : Option JsNumber
  mergeReadinessGateMode : Option GateRuleMode
  manifestPolicyGateMode : Option GateRuleMode
  firstTimeContributorGrace : Option Bool
  authorMergedPrCount : Option ℕ
  authorClosedUnmergedPrCount : Option ℕ
  confirmedContributor : Option Bool
  deriving DecidableEq, Repr

/-- `policy = {}`. -/
def emptyPolicy : GateCheckPolicy :=
  ⟨none, none, none, none, none, none, none, none, none, none, none, none, none, none, none⟩

inductive GateCheckConclusion where
  | success
  | failure
  | actionRequired
  | neutral
  | skipped
  deriving DecidableEq, Repr

structure GateCheckEvaluation where
  enabled : Bool
  conclusion : GateCheckConclusion
  title : String
  summary : String
  blockers : List AdvisoryFinding
  warnings : List AdvisoryFinding
  deriving DecidableEq, Repr

def isEvaluationBlocker (code : String) : Bool :=
  code = "repo_not_registered" ∨ code = "repo_not_seen" ∨ code = "pr_not_cached"

def gateMode : Option GateRuleMode → GateRuleMode
  | some .off => .off
  | some .block => .block
  | _ => .advisory

/-- `gateMode(value ?? fallback)`. -/
def gateModeOr (fallback : GateRuleMode) (value : Option GateRuleMode) : GateRuleMode :=
  gateMode (some (value.getD fallback))

def isConfiguredGateBlocker (code : String) (policy : GateCheckPolicy) : Bool :=
  if code = "missing_linked_issue" then
    gateModeOr .advisory policy.linkedIssueGateMode = .block
  else if code = "duplicate_pr_risk" then
    gateModeOr .block policy.duplicatePrGateMode = .block
  else if code = "ai_consensus_defect" then
    gateModeOr .advisory policy.aiReviewGateMode = .block
  else if code = "secret_leak" then true
  else if code = "manifest_blocked_path" ∨ code = "manifest_linked_issue_required" ∨
      code = "manifest_missing_tests" then
    gateModeOr .off policy.manifestPolicyGateMode = .block
  else false

def normalizeScore : Option JsNumber → Option ℤ
  | some (.finite value) => some (max 0 (min 100 (mathRound value)))
  | _ => none

def qualityGateFinding (score minScore : ℤ) : AdvisoryFinding where
  code := "readiness_score_below_threshold"
  severity := .warning
  title := "Readiness score is below the configured threshold"
  detail := "The public readiness score is " ++ toString score ++
    "/100, below the repository threshold of " ++ toString minScore ++ "/100."
  action := some "Address the short explicit PR panel actions, then re-run the gate."
  publicText := none

def buildQualityGateBlocker (policy : GateCheckPolicy) : Option AdvisoryFinding :=
  if gateMode policy.qualityGateMode ≠ .block then none
  else match normalizeScore policy.readinessScore, normalizeScore policy.qualityGateMinScore with
    | some score, some minScore =>
        if minScore ≤ score then none else some (qualityGateFinding score minScore)
    | _, _ => none

def defaultSlopBlockThreshold : ℤ := 60

def slopGateFinding (risk minScore : ℤ) : AdvisoryFinding where
  code := "slop_risk_above_threshold"
  severity := .warning
  title := "Slop risk is above the configured threshold"
  detail := "The deterministic slop risk is " ++ toString risk ++
    "/100, at or above the repository threshold of " ++ toString minScore ++ "/100."
  action := some ("Reduce whitespace-only churn, add test evidence, or describe the change, " ++
    "then re-run the gate.")
  publicText := none

def buildSlopGateBlocker (policy : GateCheckPolicy) : Option AdvisoryFinding :=
  if gateMode policy.slopGateMode ≠ .block then none
  else match normalizeScore policy.slopRisk with
    | none => none
    | some risk =>
        let minScore := (normalizeScore policy.slopGateMinScore).getD defaultSlopBlockThreshold
        if risk < minScore then none else some (slopGateFinding risk minScore)

/-- When the composite is set it overrides the four sub-gates with its own mode. -/
def applyMergeReadinessGate (policy : GateCheckPolicy) : GateCheckPolicy :=
  let composite := gateModeOr .off policy.mergeReadinessGateMode
  if composite = .off then policy
  else { policy with
    linkedIssueGateMode := some composite
    duplicatePrGateMode := some composite
    qualityGateMode := some composite
    slopGateMode := some composite }

/-- The blockers that fire, before the author is looked at. -/
def gateBlockers (advisoryResult : Advisory) (policy : GateCheckPolicy) : List AdvisoryFinding :=
  let effective := applyMergeReadinessGate policy
  advisoryResult.findings.filter (fun finding => isConfiguredGateBlocker finding.code effective) ++
    (buildQualityGateBlocker effective).toList ++ (buildSlopGateBlocker effective).toList

/-- An opted-in repository softens the gate for a newcomer who is no repeat offender. -/
def graceApplies (policy : GateCheckPolicy) : Bool :=
  policy.firstTimeContributorGrace = some true ∧ policy.authorMergedPrCount.getD 0 = 0 ∧
    ¬ 3 ≤ policy.authorClosedUnmergedPrCount.getD 0

def gateTitleDetail (blockers : List AdvisoryFinding) : String :=
  match blockers with
  | [firstBlocker] => sanitizeForCheckRun firstBlocker.title
  | _ => toString blockers.length ++ " blockers"

def gateSummaryLine (finding : AdvisoryFinding) : String :=
  sanitizeForCheckRun finding.title ++
    (if truthy finding.action then " — " ++ sanitizeForCheckRun (finding.action.getD "") else "")

def evaluateGateCheck (advisoryResult : Advisory) (policy : GateCheckPolicy) :
    GateCheckEvaluation :=
  let warnings := advisoryResult.findings.filter (fun finding => finding.severity = .warning)
  if advisoryResult.findings.any (fun finding => isEvaluationBlocker finding.code) then
    { enabled := true
      conclusion := .neutral
      title := "Gittensory Gate — not evaluated yet"
      summary := "Gittensory has not finished syncing this repo/PR. The gate stays advisory and " ++
        "re-evaluates automatically; no action is needed."
      blockers := []
      warnings }
  else
    let effective := applyMergeReadinessGate policy
    let blockers := gateBlockers advisoryResult policy
    if effective.confirmedContributor = some false ∧ blockers ≠ [] then
      { enabled := true
        conclusion := .neutral
        title := "Gittensory Gate — advisory only"
        summary := "The PR author is not a confirmed Gittensor contributor, so gittensory does " ++
          "not block this PR. Findings stay advisory."
        blockers := []
        warnings }
    else if graceApplies effective ∧ blockers ≠ [] then
      { enabled := true
        conclusion := .neutral
        title := "Gittensory Gate — first-contribution grace"
        summary := "This is a first-time contribution to this repo, so the gate stays advisory " ++
          "rather than blocking. The findings remain visible, and the gate will apply normally " ++
          "once this author has merge history here."
        blockers := []
        warnings }
    else if blockers = [] then
      { enabled := true
        conclusion := .success
        title := "Gittensory Gate passed"
        summary := "No configured hard blocker was found. Advisory findings, if any, stay advisory."
        blockers
        warnings }
    else
      { enabled := true
        conclusion := .failure
        title := "Gittensory Gate: " ++ gateTitleDetail blockers
        summary := "; ".intercalate (blockers.map gateSummaryLine)
        blockers
        -- `blockers.includes(finding)` compares identity: the two score blockers are new
        -- objects, so only configured blockers leave the warnings.
        warnings := advisoryResult.findings.filter (fun finding =>
          finding.severity = .warning ∧
            isConfiguredGateBlocker finding.code effective = false) }

/-! ## The verdict -/

@[simp] theorem applyMergeReadinessGate_confirmed (policy : GateCheckPolicy) :
    (applyMergeReadinessGate policy).confirmedContributor = policy.confirmedContributor := by
  unfold applyMergeReadinessGate
  dsimp only
  split_ifs <;> rfl

@[simp] theorem graceApplies_applyMergeReadinessGate (policy : GateCheckPolicy) :
    graceApplies (applyMergeReadinessGate policy) = graceApplies policy := by
  unfold applyMergeReadinessGate
  dsimp only
  split_ifs <;> rfl

/-- Gittensory's own state keeps the gate from being evaluated. -/
def NotEvaluated (advisoryResult : Advisory) : Prop :=
  ∃ finding ∈ advisoryResult.findings, isEvaluationBlocker finding.code = true

/-- The author is one the gate never fails: unconfirmed, or a newcomer under grace. -/
def AuthorSpared (policy : GateCheckPolicy) : Prop :=
  policy.confirmedContributor = some false ∨ graceApplies policy = true

instance (advisoryResult : Advisory) : Decidable (NotEvaluated advisoryResult) := by
  unfold NotEvaluated
  infer_instance

instance (policy : GateCheckPolicy) : Decidable (AuthorSpared policy) := by
  unfold AuthorSpared
  infer_instance

/-- The whole decision of the gate, without its texts. -/
theorem evaluateGateCheck_conclusion (advisoryResult : Advisory) (policy : GateCheckPolicy) :
    (evaluateGateCheck advisoryResult policy).conclusion =
      if NotEvaluated advisoryResult then .neutral
      else if gateBlockers advisoryResult policy = [] then .success
      else if AuthorSpared policy then .neutral
      else .failure := by
  unfold evaluateGateCheck
  dsimp only
  simp only [applyMergeReadinessGate_confirmed, graceApplies_applyMergeReadinessGate]
  by_cases heval : NotEvaluated advisoryResult
  · have hany : (advisoryResult.findings.any
        (fun finding => isEvaluationBlocker finding.code)) = true :=
      List.any_eq_true.mpr heval
    rw [if_pos hany, if_pos heval]
  · have hany : ¬ (advisoryResult.findings.any
        (fun finding => isEvaluationBlocker finding.code)) = true :=
      fun h => heval (List.any_eq_true.mp h)
    rw [if_neg hany, if_neg heval]
    by_cases hblock : gateBlockers advisoryResult policy = []
    · simp [hblock]
    · by_cases hconfirmed : policy.confirmedContributor = some false
      · simp [hblock, hconfirmed, AuthorSpared]
      · by_cases hgrace : graceApplies policy = true
        · simp [hblock, hconfirmed, hgrace, AuthorSpared]
        · simp [hblock, hconfirmed, hgrace, AuthorSpared]

theorem evaluateGateCheck_failure_iff (advisoryResult : Advisory) (policy : GateCheckPolicy) :
    (evaluateGateCheck advisoryResult policy).conclusion = .failure ↔
      ¬ NotEvaluated advisoryResult ∧ gateBlockers advisoryResult policy ≠ [] ∧
        ¬ AuthorSpared policy := by
  rw [evaluateGateCheck_conclusion]
  split_ifs <;> simp_all

end Gittensory.AdvisoryGate
