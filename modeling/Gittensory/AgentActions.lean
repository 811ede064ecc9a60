import Gittensory.AdvisoryGate
import Gittensory.Autonomy
import Gittensory.ChangeGuardrail
import Mathlib.Data.List.Sublists

/-!
The planner of the auto-maintain layer (`settings/agent-actions.ts`): from the gate
verdict, the live CI state, the guardrail and the repository's autonomy it decides
which label, review and disposition the agent takes on one pull request. The plan is
the concatenation of three parts; a part is empty or holds one action.
-/
namespace Gittensory.AgentActions

open AdvisoryGate Autonomy ChangeGuardrail JsValue

def defaultSlopGateMinScore : JsNumber := .finite 60

def agentLabelReady : String := "gittensory:ready-to-merge"

def agentLabelChanges : String := "gittensory:changes-requested"

def agentLabelNeedsReview : String := "gittensory:needs-human-review"

def protectedAutocloseAuthors : List String :=
  ["github-actions[bot]", "dependabot[bot]", "renovate[bot]"]

def isProtectedAutomationAuthor (login : Option String) : Bool :=
  match login with
  | none => false
  | some login => protectedAutocloseAuthors.contains (toLowerCase login)

structure PlannedAgentAction where
  actionClass : AgentActionClass
  requiresApproval : Bool
  reason : String
  label : Option String
  reviewBody : Option String
  mergeMethod : Option AutoMergeMethod
  closeComment : Option String
  deriving DecidableEq, Repr

inductive CiState where
  | passed
  | failed
  | pending
  | unverified
  deriving DecidableEq, Repr

structure PlannedPullRequest where
  mergeableState : Option String
  reviewDecision : Option String
  slopRisk : Option JsNumber
  labels : List String
  linkedDuplicateCount : Option ℕ
  headSha : Option String
  mergeBlockedSha : Option String
  deriving DecidableEq, Repr

structure AgentActionPlanInput where
  conclusion : GateCheckConclusion
  blockerTitles : List String
  autonomy : Option AutonomyPolicy
  autoMaintain : Option AutoMaintainPolicy
  slopGateMinScore : Option JsNumber
  changedPaths : List String
  hardGuardrailGlobs : List String
  authorIsOwner : Bool
  authorIsAutomationBot : Bool
  ciState : CiState
  failingCheckNames : Option (List String)
  pr : PlannedPullRequest

def hasLabel (labels : List String) (name : String) : Bool :=
  labels.any (fun label => toLowerCase label = toLowerCase name)

def closeMessage (reasons : List String) : String :=
  "Gittensory is closing this pull request on the maintainer's behalf (" ++
    "; ".intercalate reasons ++ "). This is an automated maintenance action — if you believe " ++
    "it's mistaken, reopen the PR or ping a maintainer and it will be reviewed."

namespace AgentActionPlanInput

variable (input : AgentActionPlanInput)

def maintainPolicy : AutoMaintainPolicy := input.autoMaintain.getD defaultAutoMaintainPolicy

def slopThreshold : JsNumber := input.slopGateMinScore.getD defaultSlopGateMinScore

def approvalsSatisfied : Bool :=
  input.maintainPolicy.requireApprovals = 0 ∨ input.pr.reviewDecision = some "APPROVED"

def level (actionClass : AgentActionClass) : AutonomyLevel :=
  resolveAutonomy input.autonomy actionClass

def acting (actionClass : AgentActionClass) : Bool :=
  isActingAutonomyLevel (input.level actionClass)

def approval (actionClass : AgentActionClass) : Bool :=
  autonomyRequiresApproval (input.level actionClass)

/-- An unknown (empty) changed-file set counts as a hit once guardrails are configured. -/
def guardrailHit : Bool :=
  input.hardGuardrailGlobs ≠ [] ∧
    (input.changedPaths = [] ∨
      changedPathsHittingGuardrail input.changedPaths input.hardGuardrailGlobs ≠ [])

def reviewGood : Bool := input.conclusion = .success ∧ input.ciState = .passed

def isContributor : Bool := input.authorIsOwner = false ∧ input.authorIsAutomationBot = false

def mergeableClean : Bool := input.pr.mergeableState = some "clean"

def isConflict : Bool := input.pr.mergeableState = some "dirty"

def mergeTerminallyBlocked : Bool :=
  match input.pr.mergeBlockedSha, input.pr.headSha with
  | some blocked, some head => blocked = head
  | _, _ => false

def canMerge : Bool :=
  input.reviewGood && !input.guardrailHit && input.acting .merge && input.mergeableClean &&
    input.approvalsSatisfied && !input.mergeTerminallyBlocked

def willClose : Bool :=
  !input.guardrailHit && input.isContributor && input.acting .close &&
    (!input.reviewGood || input.isConflict)

def ciReason : String :=
  let failingCheckNames := input.failingCheckNames.getD []
  match input.ciState with
  | .failed => "CI is failing" ++
      (if failingCheckNames = [] then "" else " (" ++ ", ".intercalate failingCheckNames ++ ")")
  | .unverified => "CI could not be verified"
  | _ => ""

end AgentActionPlanInput

def verdictText : GateCheckConclusion → String
  | .success => "success"
  | .failure => "failure"
  | .actionRequired => "action_required"
  | .neutral => "neutral"
  | .skipped => "skipped"

/-- The bucket label of the pull request's state. -/
def bucketLabel (input : AgentActionPlanInput) : String :=
  if input.reviewGood = false then agentLabelChanges
  else if input.guardrailHit then agentLabelNeedsReview
  else agentLabelReady

def labelReason (input : AgentActionPlanInput) : String :=
  "verdict=" ++ verdictText input.conclusion ++
    (if input.reviewGood = false then
      (if input.ciReason = "" then "" else "; " ++ input.ciReason)
    else if input.guardrailHit then "; guarded path → owner safety review"
    else "; CI green")

def labelAction (input : AgentActionPlanInput) : PlannedAgentAction where
  actionClass := .label
  requiresApproval := input.approval .label
  reason := labelReason input
  label := some (bucketLabel input)
  reviewBody := none
  mergeMethod := none
  closeComment := none

/-- 1) label. -/
def labelPart (input : AgentActionPlanInput) : List PlannedAgentAction :=
  if input.acting .label && !hasLabel input.pr.labels (bucketLabel input) then
    [labelAction input]
  else []

def approveAction (input : AgentActionPlanInput) : PlannedAgentAction where
  actionClass := .approve
  requiresApproval := input.approval .approve
  reason := "gate passed, CI green"
  label := none
  reviewBody := some "Gittensory approves — the gate is satisfied and CI is green."
  mergeMethod := none
  closeComment := none

/-- 2) review. -/
def approvePart (input : AgentActionPlanInput) : List PlannedAgentAction :=
  if input.reviewGood && !input.guardrailHit && input.acting .approve &&
      input.pr.reviewDecision ≠ some "APPROVED" then
    [approveAction input]
  else []

def mergeAction (input : AgentActionPlanInput) : PlannedAgentAction where
  actionClass := .merge
  requiresApproval := input.approval .merge
  reason := "gate passed, CI green, mergeable, " ++
    toString input.maintainPolicy.requireApprovals ++ " approval(s) satisfied"
  label := none
  reviewBody := none
  mergeMethod := some input.maintainPolicy.mergeMethod
  closeComment := none

def slopReason (input : AgentActionPlanInput) : List String :=
  match input.pr.slopRisk with
  | none => []
  | some slopRisk =>
      if slopRisk.ge input.slopThreshold then
        ["slop score " ++ slopRisk.toText ++ " ≥ " ++ input.slopThreshold.toText]
      else []

def citedReasons (input : AgentActionPlanInput) : List String :=
  (if input.ciState = .failed ∨ input.ciState = .unverified then [input.ciReason] else []) ++
  (if input.isConflict then
    ["conflicts with the base branch — resolve and open a fresh PR"] else []) ++
  input.blockerTitles ++ slopReason input ++
  (if 0 < input.pr.linkedDuplicateCount.getD 0 then ["duplicate of another open PR"] else [])

def closeReasons (input : AgentActionPlanInput) : List String :=
  if citedReasons input = [] then ["the review gate is not satisfied"] else citedReasons input

def closeAction (input : AgentActionPlanInput) : PlannedAgentAction where
  actionClass := .close
  requiresApproval := input.approval .close
  reason := "; ".intercalate (closeReasons input)
  label := none
  reviewBody := none
  mergeMethod := none
  closeComment := some (closeMessage (closeReasons input))

/-- 3) disposition. -/
def dispositionPart (input : AgentActionPlanInput) : List PlannedAgentAction :=
  if input.canMerge then [mergeAction input]
  else if input.willClose then [closeAction input]
  else []

def planAgentMaintenanceActions (input : AgentActionPlanInput) : List PlannedAgentAction :=
  if input.conclusion = .neutral ∨ input.conclusion = .skipped then []
  else if input.ciState = .pending then []
  else labelPart input ++ approvePart input ++ dispositionPart input

/-! ## What is planned when -/

/-- The verdict and CI have settled, so the planner looks at the pull request. -/
def Settled (input : AgentActionPlanInput) : Prop :=
  input.conclusion ≠ .neutral ∧ input.conclusion ≠ .skipped ∧ input.ciState ≠ .pending

theorem plan_of_settled {input : AgentActionPlanInput} (h : Settled input) :
    planAgentMaintenanceActions input =
      labelPart input ++ approvePart input ++ dispositionPart input := by
  obtain ⟨hneutral, hskipped, hpending⟩ := h
  unfold planAgentMaintenanceActions
  rw [if_neg (not_or.mpr ⟨hneutral, hskipped⟩), if_neg hpending]

theorem plan_of_not_settled {input : AgentActionPlanInput} (h : ¬ Settled input) :
    planAgentMaintenanceActions input = [] := by
  unfold planAgentMaintenanceActions
  split_ifs with hverdict hpending
  · rfl
  · rfl
  · exact absurd ⟨fun hn => hverdict (Or.inl hn), fun hs => hverdict (Or.inr hs), hpending⟩ h

theorem mem_labelPart (input : AgentActionPlanInput) (action : PlannedAgentAction) :
    action ∈ labelPart input ↔ action = labelAction input ∧ input.acting .label = true ∧
      hasLabel input.pr.labels (bucketLabel input) = false := by
  simp only [labelPart]
  split_ifs <;> simp_all

theorem mem_approvePart (input : AgentActionPlanInput) (action : PlannedAgentAction) :
    action ∈ approvePart input ↔ action = approveAction input ∧ input.reviewGood = true ∧
      input.guardrailHit = false ∧ input.acting .approve = true ∧
      input.pr.reviewDecision ≠ some "APPROVED" := by
  simp only [approvePart]
  split_ifs <;> simp_all

theorem mem_dispositionPart (input : AgentActionPlanInput) (action : PlannedAgentAction) :
    action ∈ dispositionPart input ↔
      (action = mergeAction input ∧ input.canMerge = true) ∨
      (action = closeAction input ∧ input.canMerge = false ∧ input.willClose = true) := by
  simp only [dispositionPart]
  split_ifs <;> simp_all

theorem mem_plan (input : AgentActionPlanInput) (action : PlannedAgentAction) :
    action ∈ planAgentMaintenanceActions input ↔ Settled input ∧
      (action ∈ labelPart input ∨ action ∈ approvePart input ∨
        action ∈ dispositionPart input) := by
  by_cases h : Settled input
  · simp [plan_of_settled h, h]
  · simp [plan_of_not_settled h, h]

/-- Which action of each class the plan may hold, and when it does. -/
theorem plan_cases {input : AgentActionPlanInput} {action : PlannedAgentAction}
    (hmem : action ∈ planAgentMaintenanceActions input) :
    (action = labelAction input ∧ input.acting .label = true ∧
        hasLabel input.pr.labels (bucketLabel input) = false) ∨
      (action = approveAction input ∧ input.reviewGood = true ∧
        input.guardrailHit = false ∧ input.acting .approve = true ∧
        input.pr.reviewDecision ≠ some "APPROVED") ∨
      (action = mergeAction input ∧ input.canMerge = true) ∨
      (action = closeAction input ∧ input.canMerge = false ∧ input.willClose = true) := by
  rcases ((mem_plan input action).mp hmem).2 with h | h | h
  · exact Or.inl ((mem_labelPart input action).mp h)
  · exact Or.inr (Or.inl ((mem_approvePart input action).mp h))
  · exact Or.inr (Or.inr ((mem_dispositionPart input action).mp h))

@[simp] theorem labelAction_class (input : AgentActionPlanInput) :
    (labelAction input).actionClass = .label := rfl

@[simp] theorem approveAction_class (input : AgentActionPlanInput) :
    (approveAction input).actionClass = .approve := rfl

@[simp] theorem mergeAction_class (input : AgentActionPlanInput) :
    (mergeAction input).actionClass = .merge := rfl

@[simp] theorem closeAction_class (input : AgentActionPlanInput) :
    (closeAction input).actionClass = .close := rfl

theorem canMerge_iff (input : AgentActionPlanInput) :
    input.canMerge = true ↔ input.reviewGood = true ∧ input.guardrailHit = false ∧
      input.acting .merge = true ∧ input.mergeableClean = true ∧
      input.approvalsSatisfied = true ∧ input.mergeTerminallyBlocked = false := by
  simp [AgentActionPlanInput.canMerge, and_assoc]

theorem willClose_iff (input : AgentActionPlanInput) :
    input.willClose = true ↔ input.guardrailHit = false ∧ input.isContributor = true ∧
      input.acting .close = true ∧ (input.reviewGood = false ∨ input.isConflict = true) := by
  simp [AgentActionPlanInput.willClose, and_assoc]

theorem reviewGood_iff (input : AgentActionPlanInput) :
    input.reviewGood = true ↔ input.conclusion = .success ∧ input.ciState = .passed := by
  simp [AgentActionPlanInput.reviewGood]

theorem not_guardrailHit_iff (input : AgentActionPlanInput) :
    input.guardrailHit = false ↔ input.hardGuardrailGlobs = [] ∨
      (input.changedPaths ≠ [] ∧
        ∀ path ∈ input.changedPaths, ¬ HitsGuardrail path input.hardGuardrailGlobs) := by
  rw [← changedPathsHittingGuardrail_eq_nil_iff]
  simp only [AgentActionPlanInput.guardrailHit, decide_eq_false_iff_not, not_and_or, not_or,
    not_not]

/-- A pull request that conflicts with its base is not mergeable. -/
theorem not_canMerge_of_isConflict {input : AgentActionPlanInput}
    (h : input.isConflict = true) : input.canMerge = false := by
  have hdirty : input.pr.mergeableState = some "dirty" := by
    simpa [AgentActionPlanInput.isConflict] using h
  have hclean : input.mergeableClean = false := by
    simp [AgentActionPlanInput.mergeableClean, hdirty]
  simp [AgentActionPlanInput.canMerge, hclean]

end Gittensory.AgentActions
