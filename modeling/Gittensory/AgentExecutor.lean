import Gittensory.AgentActions

/-!
The executor of the auto-maintain layer (`services/agent-action-executor.ts`). Every
planned action passes one gate stack: pause, current autonomy, approval, write
permission, dry run. What passes becomes requests to GitHub; only a merge names the
commit it is meant for.
-/
namespace Gittensory.AgentExecutor

open AgentActions Autonomy JsValue

def agentActionClassText : AgentActionClass → String
  | .review => "review"
  | .requestChanges => "request_changes"
  | .approve => "approve"
  | .merge => "merge"
  | .close => "close"
  | .label => "label"

def autonomyLevelText : AutonomyLevel → String
  | .observe => "observe"
  | .suggest => "suggest"
  | .propose => "propose"
  | .autoWithApproval => "auto_with_approval"
  | .auto => "auto"

/-- `installationPermissions` is its `pull_requests` entry. -/
structure AgentActionExecutionContext where
  repoFullName : String
  pullNumber : ℕ
  headSha : Option String
  autonomy : Option AutonomyPolicy
  globalPaused : Bool
  agentPaused : Option Bool
  agentDryRun : Option Bool
  installationPermissions : Option String

inductive OutcomeKind where
  | completed
  | queued
  | denied
  | error
  | dryRun
  deriving DecidableEq, Repr

structure AgentActionOutcome where
  actionClass : AgentActionClass
  outcome : OutcomeKind
  detail : String
  deriving DecidableEq, Repr

def prWriteClasses : List AgentActionClass := [.requestChanges, .approve, .merge, .close]

def executionMode (ctx : AgentActionExecutionContext) : AgentActionMode :=
  resolveAgentActionMode ctx.globalPaused ctx.agentPaused ctx.agentDryRun

/-- The outcome the gate stack gives an action, or `none` when it is performed live. -/
def stoppedBy (ctx : AgentActionExecutionContext) (action : PlannedAgentAction) :
    Option AgentActionOutcome :=
  let actionClass := action.actionClass
  let level := resolveAutonomy ctx.autonomy actionClass
  if executionMode ctx = .paused then
    some ⟨actionClass, .denied, "agent actions paused"⟩
  else if isActingAutonomyLevel level = false then
    some ⟨actionClass, .denied, "autonomy for " ++ agentActionClassText actionClass ++ " is " ++
      autonomyLevelText level ++ " — action not currently enabled"⟩
  else if action.requiresApproval then
    some ⟨actionClass, .queued, "awaiting maintainer approval — " ++ action.reason⟩
  else if actionClass ∈ prWriteClasses ∧
      resolveAgentPermissionReadiness ctx.autonomy ctx.installationPermissions ≠ .ready then
    some ⟨actionClass, .denied,
      "pull_requests: write not granted — maintainer must re-consent"⟩
  else if executionMode ctx = .dryRun then
    some ⟨actionClass, .dryRun,
      "dry-run: would " ++ agentActionClassText actionClass ++ " — " ++ action.reason⟩
  else none

inductive PullRequestReviewEvent where
  | requestChanges
  | approve
  deriving DecidableEq, Repr

/-- The calls `performAction` makes; a review carries no commit. -/
inductive GitHubRequest where
  | ensurePullRequestLabel (label : String)
  | createPullRequestReview (event : PullRequestReviewEvent) (body : String)
  | mergePullRequest (mergeMethod : AutoMergeMethod) (sha : Option String)
  | createIssueComment (body : String)
  | closePullRequest
  deriving DecidableEq, Repr

def performAction (ctx : AgentActionExecutionContext) (action : PlannedAgentAction) :
    List GitHubRequest :=
  match action.actionClass with
  | .label => [.ensurePullRequestLabel (action.label.getD "")]
  | .requestChanges => [.createPullRequestReview .requestChanges (action.reviewBody.getD "")]
  | .approve => [.createPullRequestReview .approve (action.reviewBody.getD "")]
  | .merge => [.mergePullRequest (action.mergeMethod.getD .squash) (present ctx.headSha)]
  | .close =>
      (if truthy action.closeComment then
        [.createIssueComment (action.closeComment.getD "")] else []) ++ [.closePullRequest]
  | .review => []

end Gittensory.AgentExecutor
