import Gittensory.CodeUnits
import Gittensory.JsonRecord
import Gittensory.OutcomePrecedence
import Mathlib.Order.WithBot

/-!
What became of a recommendation (`services/recommendation-outcomes.ts`): an action is
matched with a pull request or an issue of the contributor, and the matched row's times and
flags choose the outcome. A cascade of guards chooses it for a pull request, and only the
last of its branches asks whether the merge came before the action.
-/
namespace Gittensory.RecommendationOutcomes

open CodeUnits JsValue JsonRecord OutcomePrecedence
open AgentRunExecution (AgentSurface)

/-- `Date.parse` of the engine; what it takes besides ISO texts is the engine's choice. -/
structure DateParser where
  parse : String → Option ℤ
  parse_empty : parse "" = none

-- The order of times by its operations, so that comparing two of them can be run.
instance timeLE : LE (WithBot ℤ) := WithBot.instLE

instance timeLT : LT (WithBot ℤ) := WithBot.instLT

instance decidableTimeLE : DecidableLE (WithBot ℤ) := @WithBot.decidableLE ℤ _ Int.decLe

instance decidableTimeLT : DecidableLT (WithBot ℤ) := @WithBot.decidableLT ℤ _ Int.decLt

/-- A time that is missing or does not parse is minus infinity. -/
def timestamp (dates : DateParser) (value : Option String) : WithBot ℤ :=
  match dates.parse (value.getD "") with
  | some ms => (ms : WithBot ℤ)
  | none => ⊥

inductive AgentActionStatus where
  | recommended
  | ready
  | blocked
  | watch
  | needsInput
  deriving DecidableEq, Repr

def AgentActionStatus.text : AgentActionStatus → String
  | .recommended => "recommended"
  | .ready => "ready"
  | .blocked => "blocked"
  | .watch => "watch"
  | .needsInput => "needs_input"

inductive AgentSafetyClass where
  | privateOnly
  | publicSafe
  | approvalRequired
  deriving DecidableEq, Repr

def AgentSafetyClass.text : AgentSafetyClass → String
  | .privateOnly => "private"
  | .publicSafe => "public_safe"
  | .approvalRequired => "approval_required"

def actionTypeText : AgentActionType → String
  | .chooseNextWork => "choose_next_work"
  | .cleanupExistingPrs => "cleanup_existing_prs"
  | .preflightBranch => "preflight_branch"
  | .explainScoreBlockers => "explain_score_blockers"
  | .preparePrPacket => "prepare_pr_packet"
  | .checkDuplicateRisk => "check_duplicate_risk"
  | .monitorExistingPr => "monitor_existing_pr"
  | .explainRepoFit => "explain_repo_fit"

structure AgentRunRecord where
  id : String
  actorLogin : String
  surface : AgentSurface
  createdAt : Option String := none
  updatedAt : Option String := none

structure AgentActionRecord where
  id : String
  actionType : AgentActionType
  targetRepoFullName : Option String := none
  targetPullNumber : Option ℕ := none
  targetIssueNumber : Option ℕ := none
  status : AgentActionStatus
  safetyClass : AgentSafetyClass
  payload : Record := []
  createdAt : Option String := none

structure PullRequestRecord where
  repoFullName : String
  number : ℕ
  state : String
  authorLogin : Option String := none
  authorAssociation : Option String := none
  mergedAt : Option String := none
  mergeableState : Option String := none
  reviewDecision : Option String := none
  createdAt : Option String := none
  updatedAt : Option String := none
  linkedIssues : List ℕ := []
  deriving DecidableEq, Repr

structure IssueRecord where
  repoFullName : String
  number : ℕ
  state : String
  authorLogin : Option String := none
  authorAssociation : Option String := none
  createdAt : Option String := none
  updatedAt : Option String := none
  deriving DecidableEq, Repr

structure ClassifyArgs where
  run : AgentRunRecord
  action : AgentActionRecord
  pullRequests : List PullRequestRecord
  issues : List IssueRecord
  evaluatedAt : String
  staleAfterMs : JsNumber
  ignoredAfterMs : JsNumber
  snapshotId : Option String := none

/-- An outcome with its metadata, which the database row takes as JSON text. -/
structure ClassifiedOutcome where
  outcome : AgentRecommendationOutcomeRecord
  metadata : Record

section Names

def sameLogin (left right : Option String) : Bool :=
  match present left, present right with
  | some left, some right => toLowerCase left = toLowerCase right
  | _, _ => false

def sameRepo (left right : Option String) : Bool := sameLogin left right

/-- A string member of a payload entry. -/
def repoMember (payload : Record) (key : String) : Option String :=
  match member (member (some (.object payload)) key) "repoFullName" with
  | some (.string text) => some (String.ofList (letters text))
  | _ => none

def repoFromPayload (action : AgentActionRecord) : Option String :=
  (repoMember action.payload "decision").or (repoMember action.payload "action")

def isMaintainerLane (login repoFullName : String) (association : Option String) : Bool :=
  let owner := String.ofList (repoFullName.toList.takeWhile (· ≠ '/'))
  sameLogin (some owner) (some login) ||
    association = some "OWNER" || association = some "MEMBER" || association = some "COLLABORATOR"

/-- A number that is there and not zero. -/
def truthyNumber (value : Option ℕ) : Bool := value.any (· ≠ 0)

end Names

section Matching

variable {α : Type*}

/-- The first entry of the list once sorted by time and then by number. -/
def earliest (time : α → WithBot ℤ) (number : α → ℕ) (entries : List α) : Option α :=
  (entries.mergeSort (fun left right =>
    decide (time left < time right ∨ (time left = time right ∧ number left ≤ number right)))).head?

def firstLaterPullRequest (dates : DateParser) (pullRequests : List PullRequestRecord)
    (login repoFullName : String) (linkedIssueNumber : Option ℕ) (actionAt : WithBot ℤ) :
    Option PullRequestRecord :=
  earliest (fun pr => timestamp dates (pr.createdAt.or pr.updatedAt)) PullRequestRecord.number
    (((pullRequests.filter (fun pr =>
      sameRepo (some pr.repoFullName) (some repoFullName) && sameLogin pr.authorLogin (some login))).filter
      (fun pr => !truthyNumber linkedIssueNumber || linkedIssueNumber.any (· ∈ pr.linkedIssues))).filter
      (fun pr => actionAt ≤ timestamp dates (pr.createdAt.or pr.updatedAt)))

def firstLaterIssue (dates : DateParser) (issues : List IssueRecord) (login repoFullName : String)
    (actionAt : WithBot ℤ) : Option IssueRecord :=
  earliest (fun issue => timestamp dates (issue.createdAt.or issue.updatedAt)) IssueRecord.number
    ((issues.filter (fun issue =>
      sameRepo (some issue.repoFullName) (some repoFullName) &&
        sameLogin issue.authorLogin (some login))).filter
      (fun issue => actionAt ≤ timestamp dates (issue.createdAt.or issue.updatedAt)))

end Matching

section States

/-- The letters whose upper case is made of ASCII letters. -/
def upperChar (c : Char) : List Char :=
  if 'a' ≤ c ∧ c ≤ 'z' then [Char.ofNat (c.toNat - 32)]
  else if c = 'ß' then ['S', 'S']
  else if c = 'ı' then ['I']
  else if c = 'ſ' then ['S']
  else if c = 'ﬀ' then ['F', 'F']
  else if c = 'ﬁ' then ['F', 'I']
  else if c = 'ﬂ' then ['F', 'L']
  else if c = 'ﬃ' then ['F', 'F', 'I']
  else if c = 'ﬄ' then ['F', 'F', 'L']
  else if c = 'ﬅ' ∨ c = 'ﬆ' then ['S', 'T']
  else [c]

def toUpperCase (text : String) : String := String.ofList (text.toList.flatMap upperChar)

def normalizedReviewDecision (pr : PullRequestRecord) : Option String :=
  (present pr.reviewDecision).map toUpperCase

def normalizedMergeableState (pr : PullRequestRecord) : Option String :=
  (present pr.mergeableState).map toLowerCase

def hasChangesRequestedReview (pr : PullRequestRecord) : Bool :=
  normalizedReviewDecision pr = some "CHANGES_REQUESTED"

def hasPositiveOpenPullRequestSignal (pr : PullRequestRecord) : Bool :=
  normalizedReviewDecision pr = some "APPROVED" || normalizedMergeableState pr = some "clean"

def pullRequestOutcomeState (dates : DateParser) (pr : PullRequestRecord)
    (action : AgentActionRecord) (actionAt actionAgeMs : ℤ) (staleAfterMs : JsNumber) :
    OutcomeState :=
  let updatedAt := timestamp dates (pr.updatedAt.or pr.createdAt)
  let createdAt := timestamp dates (pr.createdAt.or pr.updatedAt)
  let mergedAt := timestamp dates pr.mergedAt
  let mergedBeforeAction := mergedAt ≠ ⊥ ∧ mergedAt < actionAt
  if (mergedAt ≠ ⊥ ∧ actionAt ≤ mergedAt) ∨
      (present pr.mergedAt = none ∧ pr.state = "merged" ∧ actionAt ≤ updatedAt) then .merged
  else if pr.state = "closed" ∧ actionAt ≤ updatedAt then .closed
  else if truthyNumber action.targetPullNumber = true ∧ actionAt ≤ updatedAt ∧
      hasChangesRequestedReview pr = true then .rejected
  else if truthyNumber action.targetPullNumber = true ∧ actionAt ≤ updatedAt ∧
      hasPositiveOpenPullRequestSignal pr = true then .improved
  else if ¬mergedBeforeAction ∧ (actionAt ≤ createdAt ∨ actionAt < updatedAt) then .accepted
  else if JsNumber.ge (.finite actionAgeMs) staleAfterMs then .stale
  else .ignored

def issueOutcomeState (dates : DateParser) (issue : IssueRecord) (actionAt actionAgeMs : ℤ)
    (staleAfterMs : JsNumber) : OutcomeState :=
  let updatedAt := timestamp dates (issue.updatedAt.or issue.createdAt)
  let createdAt := timestamp dates (issue.createdAt.or issue.updatedAt)
  if issue.state ≠ "open" ∧ actionAt ≤ updatedAt then .closed
  else if actionAt ≤ createdAt ∨ actionAt < updatedAt then .accepted
  else if JsNumber.ge (.finite actionAgeMs) staleAfterMs then .stale
  else .ignored

def targetName (repoFullName : String) (number : ℕ) : String :=
  repoFullName ++ "#" ++ toString number

def pullRequestOutcomeReason (state : OutcomeState) (pr : PullRequestRecord) : String :=
  targetName pr.repoFullName pr.number ++
    match state with
    | .merged => " merged after the recommendation snapshot."
    | .closed => " closed without a merge after the recommendation snapshot."
    | .improved => " remains open but now has approval or clean mergeability evidence."
    | .rejected =>
        " received a changes-requested review decision after the recommendation snapshot."
    | .accepted => " shows later cached activity matching the recommendation."
    | .stale => " remains open with no later activity past the stale-outcome window."
    | .ignored => " is visible but has no later positive or terminal outcome yet."

def issueOutcomeReason (state : OutcomeState) (issue : IssueRecord) : String :=
  targetName issue.repoFullName issue.number ++
    match state with
    | .closed => " closed after the recommendation snapshot."
    | .accepted => " shows later cached issue activity matching the recommendation."
    | .stale => " remains open with no later activity past the stale-outcome window."
    | _ => " is visible but has no later terminal outcome yet."

end States

section Outcomes

def textEntry (value : String) : JsonValue := .string (units value)

def optionalEntry (value : Option String) : JsonValue := (value.map textEntry).getD .null

/-- The part of an outcome that depends on what was matched. -/
structure OutcomeParts where
  snapshotId : Option String
  outcomeState : OutcomeState
  outcomeTargetType : OutcomeTargetType
  outcomeRepoFullName : Option String := none
  outcomePullNumber : Option ℕ := none
  outcomeIssueNumber : Option ℕ := none
  maintainerLane : Bool
  confidence : OutcomeConfidence
  reason : String
  sourceUpdatedAt : Option String := none
  detectedAt : String
  metadata : Record

def baseOutcome (run : AgentRunRecord) (action : AgentActionRecord) (outcome : OutcomeParts) :
    ClassifiedOutcome where
  outcome := {
    actionId := action.id
    runId := run.id
    actorLogin := run.actorLogin
    actionType := action.actionType
    surface := some run.surface
    snapshotId := outcome.snapshotId
    targetRepoFullName := action.targetRepoFullName
    targetPullNumber := action.targetPullNumber
    targetIssueNumber := action.targetIssueNumber
    source := some .inferred
    outcomeState := outcome.outcomeState
    outcomeTargetType := outcome.outcomeTargetType
    outcomeRepoFullName := outcome.outcomeRepoFullName
    outcomePullNumber := outcome.outcomePullNumber
    outcomeIssueNumber := outcome.outcomeIssueNumber
    maintainerLane := outcome.maintainerLane
    confidence := outcome.confidence
    reason := outcome.reason
    sourceUpdatedAt := outcome.sourceUpdatedAt
    detectedAt := some outcome.detectedAt }
  metadata :=
    [("actionStatus", textEntry action.status.text),
      ("actionType", textEntry (actionTypeText action.actionType)),
      ("safetyClass", textEntry action.safetyClass.text)] ++ outcome.metadata

def confidenceOf (state : OutcomeState) : OutcomeConfidence :=
  if state = .ignored then .medium else .high

def outcomeFromPullRequest (dates : DateParser) (args : ClassifyArgs) (pr : PullRequestRecord)
    (matchedBy : String) (actionAt actionAgeMs : ℤ) : ClassifiedOutcome :=
  let state := pullRequestOutcomeState dates pr args.action actionAt actionAgeMs args.staleAfterMs
  baseOutcome args.run args.action {
    snapshotId := args.snapshotId
    outcomeState := state
    outcomeTargetType := .pullRequest
    outcomeRepoFullName := some pr.repoFullName
    outcomePullNumber := some pr.number
    maintainerLane := isMaintainerLane args.run.actorLogin pr.repoFullName pr.authorAssociation
    confidence := confidenceOf state
    reason := pullRequestOutcomeReason state pr
    sourceUpdatedAt := pr.updatedAt.or pr.createdAt
    detectedAt := args.evaluatedAt
    metadata := [("matchedBy", textEntry matchedBy), ("pullRequestState", textEntry pr.state),
      ("reviewDecision", optionalEntry pr.reviewDecision),
      ("mergeableState", optionalEntry pr.mergeableState)] }

def outcomeFromIssue (dates : DateParser) (args : ClassifyArgs) (issue : IssueRecord)
    (matchedBy : String) (actionAt actionAgeMs : ℤ) : ClassifiedOutcome :=
  let state := issueOutcomeState dates issue actionAt actionAgeMs args.staleAfterMs
  baseOutcome args.run args.action {
    snapshotId := args.snapshotId
    outcomeState := state
    outcomeTargetType := .issue
    outcomeRepoFullName := some issue.repoFullName
    outcomeIssueNumber := some issue.number
    maintainerLane := isMaintainerLane args.run.actorLogin issue.repoFullName issue.authorAssociation
    confidence := confidenceOf state
    reason := issueOutcomeReason state issue
    sourceUpdatedAt := issue.updatedAt.or issue.createdAt
    detectedAt := args.evaluatedAt
    metadata := [("matchedBy", textEntry matchedBy), ("issueState", textEntry issue.state)] }

def MS_PER_DAY : ℤ := 86400000

def noActivityOutcome (args : ClassifyArgs) (targetRepoFullName : Option String)
    (actionAgeMs : ℤ) : ClassifiedOutcome :=
  baseOutcome args.run args.action {
    snapshotId := args.snapshotId
    outcomeState := .ignored
    outcomeTargetType := if (present targetRepoFullName).isSome then .repository else .none
    outcomeRepoFullName := targetRepoFullName
    maintainerLane := (present targetRepoFullName).any
      (fun repo => isMaintainerLane args.run.actorLogin repo none)
    confidence := if (present targetRepoFullName).isSome then .medium else .low
    reason :=
      if (present targetRepoFullName).isSome then
        "No later cached PR or issue activity matched this recommendation after the " ++
          "ignored-outcome window."
      else
        "Recommendation did not include a target repo, PR, or issue that can be " ++
          "deterministically matched."
    detectedAt := args.evaluatedAt
    metadata := [("matchedBy", textEntry "no_cached_activity"),
      ("actionAgeDays", .number (.finite (actionAgeMs / MS_PER_DAY : ℤ)))] }

end Outcomes

section Classification

variable (dates : DateParser) (args : ClassifyArgs)

def targetRepo : Option String :=
  present (args.action.targetRepoFullName.or (repoFromPayload args.action))

/-- The pull request that the action names. -/
def exactPullRequest : Option PullRequestRecord :=
  match targetRepo args with
  | some repo =>
      if truthyNumber args.action.targetPullNumber then
        args.pullRequests.find? (fun pr =>
          sameRepo (some pr.repoFullName) (some repo) && some pr.number = args.action.targetPullNumber)
      else none
  | none => none

def exactIssue : Option IssueRecord :=
  match targetRepo args with
  | some repo =>
      if truthyNumber args.action.targetIssueNumber then
        args.issues.find? (fun issue =>
          sameRepo (some issue.repoFullName) (some repo) &&
            some issue.number = args.action.targetIssueNumber)
      else none
  | none => none

def laterPullRequest (actionAt : ℤ) : Option PullRequestRecord :=
  (targetRepo args).bind (fun repo =>
    firstLaterPullRequest dates args.pullRequests args.run.actorLogin repo
      args.action.targetIssueNumber actionAt)

def laterIssue (actionAt : ℤ) : Option IssueRecord :=
  (targetRepo args).bind (fun repo =>
    firstLaterIssue dates args.issues args.run.actorLogin repo actionAt)

/-- When the action was recommended. -/
def actionTime : WithBot ℤ :=
  timestamp dates ((args.action.createdAt.or args.run.updatedAt).or args.run.createdAt)

def classifyRecommendationOutcome : Option ClassifiedOutcome :=
  match actionTime dates args, timestamp dates (some args.evaluatedAt) with
  | some actionAt, some evaluatedAt =>
      let actionAgeMs := evaluatedAt - actionAt
      match exactPullRequest args with
      | some pr =>
          some (outcomeFromPullRequest dates args pr "target_pull_request" actionAt actionAgeMs)
      | none =>
          match exactIssue args with
          | some issue => some (outcomeFromIssue dates args issue "target_issue" actionAt actionAgeMs)
          | none =>
              match laterPullRequest dates args actionAt with
              | some pr =>
                  some (outcomeFromPullRequest dates args pr
                    (if truthyNumber args.action.targetIssueNumber then "linked_issue_pull_request"
                      else "later_repo_pull_request") actionAt actionAgeMs)
              | none =>
                  match laterIssue dates args actionAt with
                  | some issue =>
                      some (outcomeFromIssue dates args issue "later_repo_issue" actionAt actionAgeMs)
                  | none =>
                      if JsNumber.lt (.finite actionAgeMs) args.ignoredAfterMs then none
                      else some (noActivityOutcome args
                        (args.action.targetRepoFullName.or (repoFromPayload args.action)) actionAgeMs)
  | _, _ => none

/-- The pull request that the outcome is read off, if it is one. -/
def matchedPullRequest : Option PullRequestRecord :=
  match actionTime dates args, timestamp dates (some args.evaluatedAt) with
  | some actionAt, some _ =>
      (exactPullRequest args).or
        (if (exactIssue args).isSome then none else laterPullRequest dates args actionAt)
  | _, _ => none

theorem classify_of_matched {pr : PullRequestRecord} (h : matchedPullRequest dates args = some pr) :
    ∃ (actionAt evaluatedAt : ℤ) (matchedBy : String), actionTime dates args = actionAt ∧
      classifyRecommendationOutcome dates args =
        some (outcomeFromPullRequest dates args pr matchedBy actionAt (evaluatedAt - actionAt)) := by
  unfold matchedPullRequest at h
  unfold classifyRecommendationOutcome
  cases haction : actionTime dates args with
  | bot => simp [haction] at h
  | coe actionAt =>
    cases hevaluated : timestamp dates (some args.evaluatedAt) with
    | bot => simp [haction, hevaluated] at h
    | coe evaluatedAt =>
      refine ⟨actionAt, evaluatedAt, ?_⟩
      rw [haction, hevaluated] at h
      cases hexact : exactPullRequest args with
      | some exact =>
        rw [hexact] at h
        refine ⟨"target_pull_request", rfl, ?_⟩
        rw [← Option.some.inj h]
      | none =>
        cases hissue : exactIssue args with
        | some issue => simp [hexact, hissue] at h
        | none =>
          have hlater : laterPullRequest dates args actionAt = some pr := by
            simpa [hexact, hissue] using h
          dsimp only
          rw [hlater]
          exact ⟨_, rfl, rfl⟩

end Classification

/-! ## A merge before the action -/

section Premerged

variable (dates : DateParser)

theorem present_of_timestamp {value : Option String} {ms : ℤ} (h : timestamp dates value = ms) :
    present value ≠ none := by
  intro hnone
  have hempty : value.getD "" = "" := by
    cases value with
    | none => rfl
    | some text =>
      by_contra hne
      change text ≠ "" at hne
      exact absurd hnone (by simp [present, Option.filter, hne])
  rw [timestamp, hempty, dates.parse_empty] at h
  exact WithBot.bot_ne_coe h

/-- The row was touched since the action, and it is closed or, where the action names a pull
request, reviewed or mergeable. -/
def ShowsLaterSign (action : AgentActionRecord) (pr : PullRequestRecord) (actionAt : WithBot ℤ) :
    Prop :=
  actionAt ≤ timestamp dates (pr.updatedAt.or pr.createdAt) ∧
    (pr.state = "closed" ∨ (truthyNumber action.targetPullNumber = true ∧
      (hasChangesRequestedReview pr = true ∨ hasPositiveOpenPullRequestSignal pr = true)))

/-- The guard of the last branch stands behind three branches that do not ask for the merge. -/
theorem pullRequestOutcomeState_premerged (action : AgentActionRecord) (pr : PullRequestRecord)
    {merged actionAt : ℤ} (actionAgeMs : ℤ) (staleAfterMs : JsNumber)
    (hmerged : timestamp dates pr.mergedAt = merged) (hbefore : merged < actionAt) :
    (pullRequestOutcomeState dates pr action actionAt actionAgeMs staleAfterMs = .stale ∨
      pullRequestOutcomeState dates pr action actionAt actionAgeMs staleAfterMs = .ignored) ↔
      ¬ShowsLaterSign dates action pr actionAt := by
  have hpresent := present_of_timestamp dates hmerged
  have hlt : (merged : WithBot ℤ) < actionAt := WithBot.coe_lt_coe.mpr hbefore
  unfold pullRequestOutcomeState ShowsLaterSign
  dsimp only
  rw [hmerged]
  split_ifs with hmergedState hclosed hrejected himproved haccepted hstale
  · exfalso
    rcases hmergedState with ⟨-, hafter⟩ | ⟨hnone, -⟩
    · exact absurd hlt (not_lt.mpr hafter)
    · exact hpresent hnone
  · exact iff_of_false (by simp) (not_not.mpr ⟨hclosed.2, Or.inl hclosed.1⟩)
  · refine iff_of_false (by simp) (not_not.mpr ⟨hrejected.2.1, Or.inr ⟨hrejected.1, ?_⟩⟩)
    exact Or.inl hrejected.2.2
  · refine iff_of_false (by simp) (not_not.mpr ⟨himproved.2.1, Or.inr ⟨himproved.1, ?_⟩⟩)
    exact Or.inr himproved.2.2
  · exact absurd ⟨WithBot.coe_ne_bot, hlt⟩ haccepted.1
  all_goals
    refine iff_of_true (by simp) ?_
    rintro ⟨hupdated, hclosedState | ⟨htarget, hchanges | hpositive⟩⟩
    · exact hclosed ⟨hclosedState, hupdated⟩
    · exact hrejected ⟨htarget, hupdated, hchanges⟩
    · exact himproved ⟨htarget, hupdated, hpositive⟩

/-- The outcome read off a pull request that was merged before the action is stale or ignored
exactly when the row shows no later sign of its own. -/
theorem premerged_iff (args : ClassifyArgs) (pr : PullRequestRecord) {merged : ℤ}
    (hmatch : matchedPullRequest dates args = some pr)
    (hmerged : timestamp dates pr.mergedAt = merged)
    (hbefore : (merged : WithBot ℤ) < actionTime dates args) :
    ∃ classified, classifyRecommendationOutcome dates args = some classified ∧
      classified.outcome.outcomePullNumber = some pr.number ∧
      (classified.outcome.outcomeState = .stale ∨ classified.outcome.outcomeState = .ignored ↔
        ¬ShowsLaterSign dates args.action pr (actionTime dates args)) := by
  obtain ⟨actionAt, evaluatedAt, matchedBy, haction, hclassify⟩ := classify_of_matched dates args hmatch
  refine ⟨_, hclassify, rfl, ?_⟩
  rw [haction] at hbefore ⊢
  exact pullRequestOutcomeState_premerged dates args.action pr (evaluatedAt - actionAt)
    args.staleAfterMs hmerged (WithBot.coe_lt_coe.mp hbefore)

end Premerged

/-- `Date.parse` on the four times of the example. -/
def sampleDates : DateParser where
  parse text := [("2026-04-01T00:00:00.000Z", 1775001600000),
    ("2026-05-01T00:00:00.000Z", 1777593600000), ("2026-05-10T00:00:00.000Z", 1778371200000),
    ("2026-06-01T00:00:00.000Z", 1780272000000)].lookup text
  parse_empty := by decide

def oldMergedPr : PullRequestRecord where
  repoFullName := "owner/old-merged"
  number := 60
  state := "closed"
  mergedAt := some "2026-04-01T00:00:00.000Z"
  updatedAt := some "2026-05-10T00:00:00.000Z"

def oldMergedArgs : ClassifyArgs where
  run := { id := "run", actorLogin := "dev", surface := .mcp }
  action := {
    id := "action"
    actionType := .monitorExistingPr
    targetRepoFullName := some "owner/old-merged"
    targetPullNumber := some 60
    status := .recommended
    safetyClass := .publicSafe
    createdAt := some "2026-05-01T00:00:00.000Z" }
  pullRequests := [oldMergedPr]
  issues := []
  evaluatedAt := "2026-06-01T00:00:00.000Z"
  staleAfterMs := .finite 1209600000
  ignoredAfterMs := .finite 604800000

theorem oldMerged_facts :
    matchedPullRequest sampleDates oldMergedArgs = some oldMergedPr ∧
      timestamp sampleDates oldMergedPr.mergedAt = (1775001600000 : ℤ) ∧
      ((1775001600000 : ℤ) : WithBot ℤ) < actionTime sampleDates oldMergedArgs := by
  decide +kernel

/-- GitHub keeps a merged pull request closed; a comment after the action is enough. -/
theorem old_merge_closed_without_merge :
    matchedPullRequest sampleDates oldMergedArgs = some oldMergedPr ∧
      timestamp sampleDates oldMergedPr.mergedAt = (1775001600000 : ℤ) ∧
      ((1775001600000 : ℤ) : WithBot ℤ) < actionTime sampleDates oldMergedArgs ∧
      (classifyRecommendationOutcome sampleDates oldMergedArgs).map
        (fun classified => (classified.outcome.outcomeState, classified.outcome.reason)) =
        some (.closed,
          "owner/old-merged#60 closed without a merge after the recommendation snapshot.") := by
  obtain ⟨hmatch, hmerged, hbefore⟩ := oldMerged_facts
  exact ⟨hmatch, hmerged, hbefore, by decide +kernel⟩

theorem old_merge_later_sign :
    ∃ classified, classifyRecommendationOutcome sampleDates oldMergedArgs = some classified ∧
      classified.outcome.outcomePullNumber = some oldMergedPr.number ∧
      (classified.outcome.outcomeState = .stale ∨ classified.outcome.outcomeState = .ignored ↔
        ¬ShowsLaterSign sampleDates oldMergedArgs.action oldMergedPr
          (actionTime sampleDates oldMergedArgs)) :=
  premerged_iff sampleDates oldMergedArgs oldMergedPr oldMerged_facts.1 oldMerged_facts.2.1
    oldMerged_facts.2.2

end Gittensory.RecommendationOutcomes
