import Gittensory.AdvisoryGate

/-!
The advisory of a pull request (`rules/advisory.ts`): what the repository record, the pull
request itself and the other open pull requests put on it. Of these findings only a missing
linked issue and an overlap with another pull request can block, and they exclude each
other. What keeps the gate from being evaluated is a missing repository record alone.
-/
namespace Gittensory.PullRequestAdvisory

open AdvisoryGate JsValue

structure RegistryRepoConfig where
  issueDiscoveryShare : JsNumber
  labelMultipliers : List (String × JsNumber)
  maintainerCut : JsNumber
  deriving DecidableEq, Repr

structure RepositoryRecord where
  fullName : String
  isRegistered : Bool
  registryConfig : Option RegistryRepoConfig
  deriving DecidableEq, Repr

/-- `updatedAtMs` is what `Date.parse` makes of `updatedAt`. -/
structure PullRequestRecord where
  repoFullName : String
  number : ℕ
  title : String := ""
  state : String
  authorLogin : Option String
  authorAssociation : Option String := none
  headSha : Option String := none
  mergedAt : Option String := none
  isDraft : Option Bool := none
  body : Option String := none
  updatedAtMs : Option ℤ := none
  labels : List String := []
  linkedIssues : List ℕ
  slopRisk : Option JsNumber := none
  deriving DecidableEq, Repr

def warningFinding (code title detail : String) (action : Option String) : AdvisoryFinding :=
  ⟨code, title, .warning, detail, action, none⟩

def infoFinding (code title detail : String) (publicText : Option String) : AdvisoryFinding :=
  ⟨code, title, .info, detail, none, publicText⟩

def issueShareFindings (issueShare : JsNumber) : List AdvisoryFinding :=
  if issueShare = .finite 0 then
    [infoFinding "issue_discovery_disabled" "Issue discovery is disabled for this repo"
      ("The current Gittensor registry config routes this repository away from " ++
        "issue-discovery work.")
      (some ("This repo is configured for direct contribution review rather than " ++
        "issue-discovery flow."))]
  else if issueShare = .finite 1 then
    [infoFinding "direct_pr_pool_disabled" "Direct PR scoring is disabled for this repo"
      ("The current Gittensor registry config routes this repository fully toward " ++
        "issue-discovery work.")
      (some ("This repo is configured around issue-discovery flow. Maintainers should review " ++
        "PR expectations manually."))]
  else []

def maintainerCutFindings (maintainerCut : JsNumber) : List AdvisoryFinding :=
  if JsNumber.lt (.finite 0) maintainerCut then
    [infoFinding "maintainer_cut_enabled" "Maintainer allocation is configured"
      "This repo has a maintainer allocation configured in the registry." none]
  else []

def addRepoFindings (repo : RepositoryRecord) : List AdvisoryFinding :=
  if repo.isRegistered = false then
    [warningFinding "repo_unregistered" "Repository is not registered in the latest snapshot"
      ("This repository is installed in Gittensory, but the latest registry snapshot does not " ++
        "include it.")
      (some "Verify repository registration before relying on Gittensor-specific signals.")]
  else
    match repo.registryConfig with
    | none =>
        [warningFinding "repo_config_missing" "Repository config was not parsed"
          ("The repository appears in the registry, but its config was not available in " ++
            "normalized form.") none]
    | some config =>
        issueShareFindings config.issueDiscoveryShare ++ maintainerCutFindings config.maintainerCut

def repoNotRegisteredFinding : AdvisoryFinding :=
  warningFinding "repo_not_registered" "Repository registration is unknown"
    "Gittensory cannot evaluate repo-specific rules until registry data is available."
    (some "Refresh the Gittensor registry snapshot.")

def prNotCachedFinding : AdvisoryFinding :=
  warningFinding "pr_not_cached" "Pull request is not cached"
    "The GitHub webhook or manual fetch has not recorded this pull request yet."
    (some "Re-deliver the webhook or wait for the next sync.")

def stateFindings (pr : PullRequestRecord) : List AdvisoryFinding :=
  if pr.state ≠ "open" then
    [infoFinding "pr_not_open" "Pull request is not open"
      ("The pull request state is " ++ pr.state ++ ".") none]
  else []

/-- The other pull requests that share a linked issue. -/
def overlappingPrs (pr : PullRequestRecord) (others : List PullRequestRecord) :
    List PullRequestRecord :=
  others.filter fun otherPr => otherPr.linkedIssues.any fun issue => pr.linkedIssues.contains issue

def duplicatePrFinding (overlapping : List PullRequestRecord) : AdvisoryFinding :=
  warningFinding "duplicate_pr_risk" "Linked issue overlaps another open PR"
    ("Other open pull requests reference the same linked issue set: " ++
      ", ".intercalate (overlapping.map fun otherPr => "#" ++ toString otherPr.number) ++ ".")
    (some "Review the related PRs before spending reviewer time on duplicate work.")

/-- The overlap is only looked for when no issue link is missing. -/
def issueFindings (pr : PullRequestRecord) (others : List PullRequestRecord)
    (requireLinkedIssue : Bool) : List AdvisoryFinding :=
  if pr.linkedIssues = [] ∧ requireLinkedIssue = true then [missingLinkedIssueFinding]
  else if overlappingPrs pr others = [] then []
  else [duplicatePrFinding (overlappingPrs pr others)]

def busyQueueFindings (others : List PullRequestRecord) : List AdvisoryFinding :=
  if 10 ≤ others.length then
    [infoFinding "busy_pr_queue" "Open PR queue is busy"
      ("Gittensory has " ++ toString others.length ++
        " other open pull requests cached for this repository.")
      (some "This repo has a busy open PR queue in the local Gittensory cache.")]
  else []

/-- Names that a plain object answers to without having them as keys. -/
def objectPrototypeNames : List String :=
  ["constructor", "hasOwnProperty", "isPrototypeOf", "propertyIsEnumerable", "toLocaleString",
    "toString", "valueOf", "__defineGetter__", "__defineSetter__", "__lookupGetter__",
    "__lookupSetter__", "__proto__"]

def matchedLabels (repo : Option RepositoryRecord) (pr : PullRequestRecord) : List String :=
  let repoMultipliers := ((repo.bind RepositoryRecord.registryConfig).map
    RegistryRepoConfig.labelMultipliers).getD []
  pr.labels.filter fun label =>
    (repoMultipliers.map Prod.fst).contains label || objectPrototypeNames.contains label

def labelFindings (matched : List String) : List AdvisoryFinding :=
  if matched = [] then []
  else
    [infoFinding "label_context_found" "Configured label context found"
      ("Matched configured labels: " ++ ", ".intercalate matched ++ ".") none]

def maintainerAssociations : List String := ["OWNER", "MEMBER", "COLLABORATOR"]

def associationFindings (pr : PullRequestRecord) : List AdvisoryFinding :=
  if pr.authorAssociation.any maintainerAssociations.contains then
    [infoFinding "maintainer_authored_pr" "PR author has maintainer association"
      "GitHub marks this PR author as owner, member, or collaborator for the repository."
      (some "This PR appears to come from a maintainer-associated account.")]
  else []

def addPullRequestFindings (repo : Option RepositoryRecord) (pr : PullRequestRecord)
    (others : List PullRequestRecord) (requireLinkedIssue : Bool) : List AdvisoryFinding :=
  stateFindings pr ++ issueFindings pr others requireLinkedIssue ++ busyQueueFindings others ++
    labelFindings (matchedLabels repo pr) ++ associationFindings pr

def repositoryFindings : Option RepositoryRecord → List AdvisoryFinding
  | none => [repoNotRegisteredFinding]
  | some repo => addRepoFindings repo

def buildPullRequestAdvisory (repo : Option RepositoryRecord) (pr : Option PullRequestRecord)
    (others : List PullRequestRecord) (requireLinkedIssue : Bool) : Advisory :=
  let repoFullName := ((pr.map PullRequestRecord.repoFullName).or
    (repo.map RepositoryRecord.fullName)).getD "unknown/unknown"
  let number := match pr with
    | some pr => toString pr.number
    | none => "unknown"
  let findings := repositoryFindings repo ++ match pr with
    | some pr => addPullRequestFindings repo pr others requireLinkedIssue
    | none => [prNotCachedFinding]
  advisory .pullRequest (repoFullName ++ "#" ++ number) repoFullName findings
    "Pull request advisory generated." (pr.map PullRequestRecord.number) none
    (pr.bind PullRequestRecord.headSha)

section Codes

/-- The codes that some policy turns into a blocker. -/
def configurableCodes : List String :=
  ["missing_linked_issue", "duplicate_pr_risk", "ai_consensus_defect", "secret_leak",
    "manifest_blocked_path", "manifest_linked_issue_required", "manifest_missing_tests"]

def evaluationCodes : List String := ["repo_not_registered", "repo_not_seen", "pr_not_cached"]

theorem isConfiguredGateBlocker_of_not_mem {code : String} (h : code ∉ configurableCodes)
    (policy : GateCheckPolicy) : isConfiguredGateBlocker code policy = false := by
  simp only [configurableCodes, List.mem_cons, List.not_mem_nil, or_false, not_or] at h
  obtain ⟨hissue, hduplicate, hai, hsecret, hpath, hlinked, htests⟩ := h
  unfold isConfiguredGateBlocker
  rw [if_neg hissue, if_neg hduplicate, if_neg hai, if_neg hsecret, if_neg]
  intro h
  rcases h with h | h | h
  · exact hpath h
  · exact hlinked h
  · exact htests h

theorem isEvaluationBlocker_iff (code : String) :
    isEvaluationBlocker code = true ↔ code ∈ evaluationCodes := by
  simp [isEvaluationBlocker, evaluationCodes]

/-- Findings that are for the reader only. -/
def ContextOnly (findings : List AdvisoryFinding) : Prop :=
  ∀ finding ∈ findings, finding.code ∉ configurableCodes ∧ finding.code ∉ evaluationCodes

theorem contextOnly_nil : ContextOnly [] := nofun

theorem contextOnly_singleton {finding : AdvisoryFinding}
    (h : finding.code ∉ configurableCodes ∧ finding.code ∉ evaluationCodes) :
    ContextOnly [finding] := by
  intro other hother
  rw [List.mem_singleton.mp hother]
  exact h

theorem contextOnly_infoFinding {code : String}
    (h : code ∉ configurableCodes ∧ code ∉ evaluationCodes) (title detail : String)
    (publicText : Option String) : ContextOnly [infoFinding code title detail publicText] :=
  contextOnly_singleton h

theorem ContextOnly.append {left right : List AdvisoryFinding} (hleft : ContextOnly left)
    (hright : ContextOnly right) : ContextOnly (left ++ right) := by
  intro finding hfinding
  rcases List.mem_append.mp hfinding with h | h
  · exact hleft finding h
  · exact hright finding h

theorem addRepoFindings_contextOnly (repo : RepositoryRecord) :
    ContextOnly (addRepoFindings repo) := by
  unfold addRepoFindings
  by_cases hregistered : repo.isRegistered = false
  · rw [if_pos hregistered]
    exact contextOnly_singleton (by decide)
  · rw [if_neg hregistered]
    cases repo.registryConfig with
    | none => exact contextOnly_singleton (by decide)
    | some config =>
      refine ContextOnly.append ?_ ?_
      · unfold issueShareFindings
        split_ifs
        · exact contextOnly_singleton (by decide)
        · exact contextOnly_singleton (by decide)
        · exact contextOnly_nil
      · unfold maintainerCutFindings
        split_ifs
        · exact contextOnly_singleton (by decide)
        · exact contextOnly_nil

theorem stateFindings_contextOnly (pr : PullRequestRecord) : ContextOnly (stateFindings pr) := by
  unfold stateFindings
  split_ifs
  · exact contextOnly_infoFinding (by decide) _ _ _
  · exact contextOnly_nil

theorem busyQueueFindings_contextOnly (others : List PullRequestRecord) :
    ContextOnly (busyQueueFindings others) := by
  unfold busyQueueFindings
  split_ifs
  · exact contextOnly_infoFinding (by decide) _ _ _
  · exact contextOnly_nil

theorem labelFindings_contextOnly (matched : List String) : ContextOnly (labelFindings matched) := by
  unfold labelFindings
  split_ifs
  · exact contextOnly_nil
  · exact contextOnly_infoFinding (by decide) _ _ _

theorem associationFindings_contextOnly (pr : PullRequestRecord) :
    ContextOnly (associationFindings pr) := by
  unfold associationFindings
  split_ifs
  · exact contextOnly_singleton (by decide)
  · exact contextOnly_nil

end Codes

section Blockers

/-- Some finding blocks under the policy. -/
def FindingBlocks (policy : GateCheckPolicy) (findings : List AdvisoryFinding) : Prop :=
  ∃ finding ∈ findings, isConfiguredGateBlocker finding.code policy = true

theorem findingBlocks_append (policy : GateCheckPolicy) (left right : List AdvisoryFinding) :
    FindingBlocks policy (left ++ right) ↔
      FindingBlocks policy left ∨ FindingBlocks policy right := by
  constructor
  · intro h
    obtain ⟨finding, hmem, hblocks⟩ := h
    rcases List.mem_append.mp hmem with h | h
    · exact Or.inl ⟨finding, h, hblocks⟩
    · exact Or.inr ⟨finding, h, hblocks⟩
  · intro h
    rcases h with ⟨finding, hmem, hblocks⟩ | ⟨finding, hmem, hblocks⟩
    · exact ⟨finding, List.mem_append_left _ hmem, hblocks⟩
    · exact ⟨finding, List.mem_append_right _ hmem, hblocks⟩

theorem not_findingBlocks_of_contextOnly {findings : List AdvisoryFinding}
    (h : ContextOnly findings) (policy : GateCheckPolicy) : ¬ FindingBlocks policy findings := by
  intro hblocks
  obtain ⟨finding, hmem, hblocker⟩ := hblocks
  rw [isConfiguredGateBlocker_of_not_mem (h finding hmem).1] at hblocker
  cases hblocker

theorem findingBlocks_singleton (policy : GateCheckPolicy) (finding : AdvisoryFinding) :
    FindingBlocks policy [finding] ↔ isConfiguredGateBlocker finding.code policy = true := by
  simp [FindingBlocks]

theorem overlappingPrs_of_unlinked {pr : PullRequestRecord} (h : pr.linkedIssues = [])
    (others : List PullRequestRecord) : overlappingPrs pr others = [] := by
  simp [overlappingPrs, h]

theorem overlappingPrs_ne_nil_iff (pr : PullRequestRecord) (others : List PullRequestRecord) :
    overlappingPrs pr others ≠ [] ↔
      ∃ otherPr ∈ others, ∃ issue ∈ otherPr.linkedIssues, issue ∈ pr.linkedIssues := by
  simp [overlappingPrs]

theorem missingLinkedIssueFinding_blocks (policy : GateCheckPolicy) :
    isConfiguredGateBlocker missingLinkedIssueFinding.code policy = true ↔
      gateModeOr .advisory policy.linkedIssueGateMode = .block := decide_eq_true_iff

theorem duplicatePrFinding_blocks (policy : GateCheckPolicy)
    (overlapping : List PullRequestRecord) :
    isConfiguredGateBlocker (duplicatePrFinding overlapping).code policy = true ↔
      gateModeOr .block policy.duplicatePrGateMode = .block := decide_eq_true_iff

/-- The two findings that can block, each under its own mode. -/
theorem issueFindings_block_iff (policy : GateCheckPolicy) (pr : PullRequestRecord)
    (others : List PullRequestRecord) (requireLinkedIssue : Bool) :
    FindingBlocks policy (issueFindings pr others requireLinkedIssue) ↔
      (pr.linkedIssues = [] ∧ requireLinkedIssue = true ∧
        gateModeOr .advisory policy.linkedIssueGateMode = .block) ∨
      (overlappingPrs pr others ≠ [] ∧ gateModeOr .block policy.duplicatePrGateMode = .block) := by
  unfold issueFindings
  by_cases hmissing : pr.linkedIssues = [] ∧ requireLinkedIssue = true
  · rw [if_pos hmissing, findingBlocks_singleton, missingLinkedIssueFinding_blocks,
      overlappingPrs_of_unlinked hmissing.1]
    simp [hmissing]
  · rw [if_neg hmissing]
    by_cases hoverlap : overlappingPrs pr others = []
    · rw [if_pos hoverlap]
      constructor
      · intro h
        exact absurd h (not_findingBlocks_of_contextOnly contextOnly_nil policy)
      · intro h
        rcases h with ⟨hunlinked, hrequired, -⟩ | ⟨hno, -⟩
        · exact absurd ⟨hunlinked, hrequired⟩ hmissing
        · exact absurd hoverlap hno
    · rw [if_neg hoverlap, findingBlocks_singleton, duplicatePrFinding_blocks]
      constructor
      · intro h
        exact Or.inr ⟨hoverlap, h⟩
      · intro h
        rcases h with ⟨hunlinked, hrequired, -⟩ | ⟨-, hmode⟩
        · exact absurd ⟨hunlinked, hrequired⟩ hmissing
        · exact hmode

theorem addPullRequestFindings_block_iff (policy : GateCheckPolicy)
    (repo : Option RepositoryRecord) (pr : PullRequestRecord) (others : List PullRequestRecord)
    (requireLinkedIssue : Bool) :
    FindingBlocks policy (addPullRequestFindings repo pr others requireLinkedIssue) ↔
      FindingBlocks policy (issueFindings pr others requireLinkedIssue) := by
  have hstate := not_findingBlocks_of_contextOnly (stateFindings_contextOnly pr) policy
  have hbusy := not_findingBlocks_of_contextOnly (busyQueueFindings_contextOnly others) policy
  have hlabels :=
    not_findingBlocks_of_contextOnly (labelFindings_contextOnly (matchedLabels repo pr)) policy
  have hassociation := not_findingBlocks_of_contextOnly (associationFindings_contextOnly pr) policy
  unfold addPullRequestFindings
  simp only [findingBlocks_append]
  tauto

theorem repositoryFindings_not_block (policy : GateCheckPolicy) (repo : Option RepositoryRecord) :
    ¬ FindingBlocks policy (repositoryFindings repo) := by
  cases repo with
  | none =>
    intro h
    have hblocker := (findingBlocks_singleton policy repoNotRegisteredFinding).mp h
    rw [isConfiguredGateBlocker_of_not_mem (by decide)] at hblocker
    cases hblocker
  | some repo => exact not_findingBlocks_of_contextOnly (addRepoFindings_contextOnly repo) policy

/-- What of the advisory of a stored pull request blocks. -/
theorem advisory_block_iff (policy : GateCheckPolicy) (repo : Option RepositoryRecord)
    (pr : PullRequestRecord) (others : List PullRequestRecord) (requireLinkedIssue : Bool) :
    FindingBlocks policy
        (buildPullRequestAdvisory repo (some pr) others requireLinkedIssue).findings ↔
      (pr.linkedIssues = [] ∧ requireLinkedIssue = true ∧
        gateModeOr .advisory policy.linkedIssueGateMode = .block) ∨
      (overlappingPrs pr others ≠ [] ∧ gateModeOr .block policy.duplicatePrGateMode = .block) := by
  have hrepo := repositoryFindings_not_block policy repo
  have hfindings : (buildPullRequestAdvisory repo (some pr) others requireLinkedIssue).findings =
      repositoryFindings repo ++ addPullRequestFindings repo pr others requireLinkedIssue := rfl
  rw [hfindings, findingBlocks_append, addPullRequestFindings_block_iff, issueFindings_block_iff]
  tauto

end Blockers

section Evaluation

theorem issueFindings_evaluation (pr : PullRequestRecord) (others : List PullRequestRecord)
    (requireLinkedIssue : Bool) :
    ∀ finding ∈ issueFindings pr others requireLinkedIssue, finding.code ∉ evaluationCodes := by
  intro finding hfinding
  unfold issueFindings at hfinding
  split_ifs at hfinding
  · rw [List.mem_singleton.mp hfinding]
    decide
  · cases hfinding
  · rw [List.mem_singleton.mp hfinding]
    simp [duplicatePrFinding, warningFinding, evaluationCodes]

theorem addPullRequestFindings_evaluation (repo : Option RepositoryRecord)
    (pr : PullRequestRecord) (others : List PullRequestRecord) (requireLinkedIssue : Bool) :
    ∀ finding ∈ addPullRequestFindings repo pr others requireLinkedIssue,
      finding.code ∉ evaluationCodes := by
  intro finding hfinding
  simp only [addPullRequestFindings, List.mem_append] at hfinding
  rcases hfinding with (((hstate | hissue) | hbusy) | hlabel) | hassociation
  · exact (stateFindings_contextOnly pr finding hstate).2
  · exact issueFindings_evaluation pr others requireLinkedIssue finding hissue
  · exact (busyQueueFindings_contextOnly others finding hbusy).2
  · exact (labelFindings_contextOnly _ finding hlabel).2
  · exact (associationFindings_contextOnly pr finding hassociation).2

/-- A stored pull request is not evaluated when the repository has no record, and only then. -/
theorem advisory_notEvaluated_iff (repo : Option RepositoryRecord) (pr : PullRequestRecord)
    (others : List PullRequestRecord) (requireLinkedIssue : Bool) :
    NotEvaluated (buildPullRequestAdvisory repo (some pr) others requireLinkedIssue) ↔
      repo = none := by
  constructor
  · intro h
    obtain ⟨finding, hmem, hcode⟩ := h
    rw [isEvaluationBlocker_iff] at hcode
    rcases List.mem_append.mp hmem with hrepo | hpr
    · cases repo with
      | none => rfl
      | some repo => exact absurd hcode (addRepoFindings_contextOnly repo finding hrepo).2
    · exact absurd hcode (addPullRequestFindings_evaluation repo pr others _ finding hpr)
  · intro h
    subst h
    exact ⟨repoNotRegisteredFinding, List.mem_append_left _ (List.mem_singleton_self _), by decide⟩

end Evaluation

end Gittensory.PullRequestAdvisory
