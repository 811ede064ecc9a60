import Gittensory.AgentExecutor
import Gittensory.GuardedRun
import Gittensory.LiveCi
import Gittensory.PlanSafety

/-!
One review run among pushes and webhooks (`queue/processors.ts`). The run reads the
stored pull request and evaluates the gate for that head, reads the row a second time,
plans, and executes action by action; pushes move the head at GitHub and webhooks the
stored head at any point between. A merge names the head of the second read and an
approval names none, so both act on the reviewed head as long as the head stays put
between the reads and, for an approval, until it is posted.
-/
namespace Gittensory.ReviewRun

open AdvisoryGate AgentActions AgentExecutor Autonomy GuardedRun JsValue LiveCi PlanSafety

structure PullRequestRecord where
  number : ℕ
  isOpen : Bool
  authorLogin : Option String
  headSha : Option String
  labels : List String
  mergeableState : Option String
  reviewDecision : Option String
  slopRisk : Option JsNumber
  mergeBlockedSha : Option String
  deriving DecidableEq, Repr

/-- The part of a webhook payload that the stored row takes over. -/
structure GitHubPullRequestPayload where
  isOpen : Bool
  authorLogin : Option String
  headSha : Option String
  labels : List String
  deriving DecidableEq, Repr

/-- An undefined field leaves its column as it is. -/
def upsertPullRequestFromGitHub (row : PullRequestRecord) (pr : GitHubPullRequestPayload) :
    PullRequestRecord :=
  { row with
    isOpen := pr.isOpen
    authorLogin := pr.authorLogin.or row.authorLogin
    headSha := pr.headSha.or row.headSha
    labels := pr.labels }

def buildPullRequestAdvisory (repoFullName : String) (pr : PullRequestRecord)
    (findings : List AdvisoryFinding) : Advisory :=
  advisory .pullRequest (repoFullName ++ "#" ++ toString pr.number) repoFullName findings
    "Pull request advisory generated." (some pr.number) none pr.headSha

/-- Everything the second half of the run reads besides the row: settings, the changed
files, the live state of the pull request and the checks of its head. -/
structure MaintenanceReads where
  autonomy : Option AutonomyPolicy
  autoMaintain : Option AutoMaintainPolicy
  slopGateMinScore : Option JsNumber
  globalPaused : Bool
  agentPaused : Option Bool
  agentDryRun : Option Bool
  changedPaths : List String
  hardGuardrailGlobs : List String
  commit : CommitChecks
  fails : FailingRequests
  requiredContexts : Option (List String)
  liveMergeState : Option String
  liveReviewDecision : Option String
  linkedDuplicateCount : ℕ
  installationPermissions : Option String

/-- `repoFullName.slice(0, repoFullName.indexOf("/"))`. -/
def repoOwner (repoFullName : String) : String :=
  if '/' ∈ repoFullName.toList then
    String.ofList (repoFullName.toList.takeWhile (fun c => c ≠ '/'))
  else ""

def planInput (repoFullName : String) (gate : GateCheckEvaluation) (pr : PullRequestRecord)
    (reads : MaintenanceReads) : AgentActionPlanInput :=
  let ciAggregate := fetchLiveCiAggregate reads.commit reads.fails pr.headSha reads.requiredContexts
  let authorLogin := pr.authorLogin.getD ""
  { conclusion := gate.conclusion
    blockerTitles := gate.blockers.map AdvisoryFinding.title
    autonomy := reads.autonomy
    autoMaintain := reads.autoMaintain
    slopGateMinScore := reads.slopGateMinScore
    changedPaths := reads.changedPaths
    hardGuardrailGlobs := reads.hardGuardrailGlobs
    authorIsOwner := authorLogin ≠ "" ∧
      toLowerCase authorLogin = toLowerCase (repoOwner repoFullName)
    authorIsAutomationBot := isProtectedAutomationAuthor pr.authorLogin
    ciState := ciAggregate.ciState
    failingCheckNames := some (ciAggregate.failingDetails.map FailingDetail.name)
    pr :=
      { mergeableState := reads.liveMergeState.or pr.mergeableState
        reviewDecision := reads.liveReviewDecision.or pr.reviewDecision
        slopRisk := pr.slopRisk
        labels := pr.labels
        linkedDuplicateCount := some reads.linkedDuplicateCount
        headSha := pr.headSha
        mergeBlockedSha := pr.mergeBlockedSha } }

def executionContext (repoFullName : String) (pr : PullRequestRecord)
    (reads : MaintenanceReads) : AgentActionExecutionContext where
  repoFullName := repoFullName
  pullNumber := pr.number
  headSha := pr.headSha
  autonomy := reads.autonomy
  globalPaused := reads.globalPaused
  agentPaused := reads.agentPaused
  agentDryRun := reads.agentDryRun
  installationPermissions := reads.installationPermissions

inductive Phase where
  | idle
  | reviewed (advisoryResult : Advisory) (gate : Option GateCheckEvaluation)
  | executing (advisoryResult : Advisory) (ctx : AgentActionExecutionContext)
      (planned : List PlannedAgentAction)

/-- A merge or approval that took effect: the head it took effect on, and the head its
gate verdict was evaluated for. -/
structure ExecutedAction where
  actionClass : AgentActionClass
  target : String
  reviewedSha : Option String
  deriving DecidableEq, Repr

structure System where
  /-- The head of the pull request at GitHub. -/
  live : String
  row : PullRequestRecord
  phase : Phase
  executed : List ExecutedAction

def initial (live : String) (row : PullRequestRecord) : System := ⟨live, row, .idle, []⟩

/-- `maybeRunAgentMaintenance` up to the executor, on the row as it is now. -/
def maintenancePhase (repoFullName : String) (advisoryResult : Advisory)
    (gate : Option GateCheckEvaluation) (pr : PullRequestRecord) (reads : MaintenanceReads) :
    Phase :=
  if isAgentConfigured reads.autonomy = false ∨ pr.isOpen = false then .idle
  else match gate with
    | none => .idle
    | some gate =>
        let planned := planAgentMaintenanceActions (planInput repoFullName gate pr reads)
        if planned = [] then .idle
        else .executing advisoryResult (executionContext repoFullName pr reads) planned

/-- A merge request that names a commit is refused (409) when that is not the head. -/
def succeeds (live : String) (granted : Bool) : GitHubRequest → Bool
  | .mergePullRequest _ (some sha) => granted && sha = live
  | _ => granted

def takesEffect (live : String) (reviewedSha : Option String) :
    GitHubRequest → Option ExecutedAction
  | .createPullRequestReview .approve _ => some ⟨.approve, live, reviewedSha⟩
  | .mergePullRequest _ _ => some ⟨.merge, live, reviewedSha⟩
  | _ => none

/-- The executor on its next action. GitHub may refuse, and a merge that fails for good
is remembered for its commit. -/
def executeNext (system : System) (advisoryResult : Advisory)
    (ctx : AgentActionExecutionContext) (action : PlannedAgentAction)
    (granted terminal : Bool) : System :=
  if (stoppedBy ctx action).isSome then system
  else
    let requests := performAction ctx action
    if requests.all (succeeds system.live granted) then
      { system with executed := system.executed ++
          requests.filterMap (takesEffect system.live advisoryResult.headSha) }
    else if action.actionClass = .merge ∧ truthy ctx.headSha = true ∧ terminal = true then
      { system with row := { system.row with mergeBlockedSha := ctx.headSha } }
    else system

inductive Event where
  | review (findings : List AdvisoryFinding) (policy : GateCheckPolicy) (published : Bool)
  | maintain (reads : MaintenanceReads)
  | act (granted terminal : Bool)
  | push (sha : String)
  | webhook (pr : GitHubPullRequestPayload)

/-- An event that the phase does not wait for changes nothing. -/
def step (repoFullName : String) (system : System) : Event → System
  | .review findings policy published =>
      match system.phase with
      | .idle =>
          if system.row.isOpen = false then system
          else
            let advisoryResult := buildPullRequestAdvisory repoFullName system.row findings
            let gate := if published then some (evaluateGateCheck advisoryResult policy) else none
            { system with phase := .reviewed advisoryResult gate }
      | _ => system
  | .maintain reads =>
      match system.phase with
      | .reviewed advisoryResult gate =>
          { system with phase :=
              maintenancePhase repoFullName advisoryResult gate system.row reads }
      | _ => system
  | .act granted terminal =>
      match system.phase with
      | .executing _ _ [] => { system with phase := .idle }
      | .executing advisoryResult ctx (action :: rest) =>
          { executeNext system advisoryResult ctx action granted terminal with
            phase := .executing advisoryResult ctx rest }
      | _ => system
  | .push sha => { system with live := sha }
  | .webhook pr => { system with row := upsertPullRequestFromGitHub system.row pr }

/-! ## Acting on the reviewed head -/

/-- Every merge and approval took effect on the head its gate verdict was evaluated for. -/
def ActsOnReviewedHead (system : System) : Prop :=
  ∀ action ∈ system.executed, action.reviewedSha = some action.target

instance (system : System) : Decidable (ActsOnReviewedHead system) :=
  inferInstanceAs (Decidable (∀ action ∈ system.executed, action.reviewedSha = some action.target))

/-- The stored row is current when the review reads it; no webhook changes the stored
head between the two reads; no push changes the head from the first read until no
approval is left to post. -/
def Undisturbed (system : System) : Event → Prop
  | .review _ _ _ => system.row.headSha = some system.live
  | .webhook pr =>
      match system.phase with
      | .reviewed advisoryResult _ => pr.headSha = none ∨ pr.headSha = advisoryResult.headSha
      | _ => True
  | .push sha =>
      match system.phase with
      | .idle => True
      | .reviewed advisoryResult _ => advisoryResult.headSha = some sha
      | .executing advisoryResult _ planned =>
          Plans planned .approve → advisoryResult.headSha = some sha
  | _ => True

/-- What the phase knows about the heads. -/
def HeadsAgree (system : System) : Prop :=
  match system.phase with
  | .idle => True
  | .reviewed advisoryResult _ =>
      system.row.headSha = advisoryResult.headSha ∧ advisoryResult.headSha = some system.live
  | .executing advisoryResult ctx planned =>
      ctx.headSha = advisoryResult.headSha ∧
        (Plans planned .approve → advisoryResult.headSha = some system.live) ∧
        (Plans planned .merge → truthy ctx.headSha = true)

theorem plans_tail {action : PlannedAgentAction} {rest : List PlannedAgentAction}
    {actionClass : AgentActionClass} (h : Plans rest actionClass) :
    Plans (action :: rest) actionClass := by
  obtain ⟨other, hmem, hclass⟩ := h
  exact ⟨other, List.mem_cons_of_mem _ hmem, hclass⟩

theorem plans_head {action : PlannedAgentAction} {rest : List PlannedAgentAction} :
    Plans (action :: rest) action.actionClass :=
  ⟨action, List.mem_cons_self .., rfl⟩

/-- CI passes only for a pull request with a head, so a planned merge has one. -/
theorem truthy_headSha_of_plans_merge {repoFullName : String} {gate : GateCheckEvaluation}
    {pr : PullRequestRecord} {reads : MaintenanceReads}
    (h : Plans (planAgentMaintenanceActions (planInput repoFullName gate pr reads)) .merge) :
    truthy pr.headSha = true := by
  have hgood := ((canMerge_iff _).mp ((plans_merge_iff _).mp h).2).1
  have hpassed : (fetchLiveCiAggregate reads.commit reads.fails pr.headSha
      reads.requiredContexts).ciState = .passed := ((reviewGood_iff _).mp hgood).2
  by_contra hno
  have hfalse : truthy pr.headSha = false := by simpa using hno
  unfold fetchLiveCiAggregate at hpassed
  rw [if_pos hfalse] at hpassed
  cases hpassed

theorem headsAgree_maintenancePhase {repoFullName : String} {advisoryResult : Advisory}
    {gate : Option GateCheckEvaluation} {system : System} (reads : MaintenanceReads)
    (hrow : system.row.headSha = advisoryResult.headSha)
    (hlive : advisoryResult.headSha = some system.live) :
    HeadsAgree { system with
      phase := maintenancePhase repoFullName advisoryResult gate system.row reads } := by
  unfold HeadsAgree maintenancePhase
  by_cases hoff : isAgentConfigured reads.autonomy = false ∨ system.row.isOpen = false
  · simp only [if_pos hoff]
  · simp only [if_neg hoff]
    cases gate with
    | none => trivial
    | some gate =>
      by_cases hnone :
          planAgentMaintenanceActions (planInput repoFullName gate system.row reads) = []
      · simp only [if_pos hnone]
      · simp only [if_neg hnone]
        exact ⟨hrow, fun _ => hlive, truthy_headSha_of_plans_merge⟩

/-- What an action brings about, if GitHub grants it, is on the reviewed head. -/
theorem reviewed_of_takesEffect {advisoryResult : Advisory} {ctx : AgentActionExecutionContext}
    {action : PlannedAgentAction} {live : String} {granted : Bool} {executed : ExecutedAction}
    (hctx : ctx.headSha = advisoryResult.headSha)
    (happrove : action.actionClass = .approve → advisoryResult.headSha = some live)
    (hmerge : action.actionClass = .merge → truthy ctx.headSha = true)
    (hall : (performAction ctx action).all (succeeds live granted) = true)
    (hmem : executed ∈ (performAction ctx action).filterMap
      (takesEffect live advisoryResult.headSha)) :
    executed.reviewedSha = some executed.target := by
  obtain ⟨request, hrequest, heffect⟩ := List.mem_filterMap.mp hmem
  have hsucceeds := List.all_eq_true.mp hall request hrequest
  unfold performAction at hrequest
  cases hclass : action.actionClass with
  | approve =>
    simp only [hclass, List.mem_singleton] at hrequest
    subst hrequest
    cases heffect
    exact happrove hclass
  | merge =>
    have htruthy := hmerge hclass
    cases hhead : ctx.headSha with
    | none => simp [hhead, truthy] at htruthy
    | some sha =>
      have hne : sha ≠ "" := by simpa [hhead, truthy] using htruthy
      simp only [hclass, List.mem_singleton, hhead, present, Option.filter_some, hne,
        ne_eq, not_false_eq_true, decide_true, if_true] at hrequest
      subst hrequest
      simp only [succeeds, Bool.and_eq_true, decide_eq_true_eq] at hsucceeds
      cases heffect
      rw [← hctx, hhead, hsucceeds.2]
  | label =>
    simp only [hclass, List.mem_singleton] at hrequest
    subst hrequest
    cases heffect
  | requestChanges =>
    simp only [hclass, List.mem_singleton] at hrequest
    subst hrequest
    cases heffect
  | close =>
    simp only [hclass, List.mem_append, List.mem_singleton] at hrequest
    rcases hrequest with hcomment | rfl
    · split_ifs at hcomment
      · rw [List.mem_singleton] at hcomment
        subst hcomment
        cases heffect
      · simp at hcomment
    · cases heffect
  | review => simp [hclass] at hrequest

/-- One action keeps the head, and adds only what took effect on the reviewed head. -/
theorem executeNext_reviewed {system : System} {advisoryResult : Advisory}
    {ctx : AgentActionExecutionContext} {action : PlannedAgentAction} (granted terminal : Bool)
    (hacted : ActsOnReviewedHead system) (hctx : ctx.headSha = advisoryResult.headSha)
    (happrove : action.actionClass = .approve → advisoryResult.headSha = some system.live)
    (hmerge : action.actionClass = .merge → truthy ctx.headSha = true) :
    ActsOnReviewedHead (executeNext system advisoryResult ctx action granted terminal) ∧
      (executeNext system advisoryResult ctx action granted terminal).live = system.live := by
  unfold executeNext
  dsimp only
  split_ifs with hstopped hall hblocked
  · exact ⟨hacted, rfl⟩
  · refine ⟨?_, rfl⟩
    intro executed hmem
    rcases List.mem_append.mp hmem with h | h
    · exact hacted executed h
    · exact reviewed_of_takesEffect hctx happrove hmerge hall h
  · exact ⟨hacted, rfl⟩
  · exact ⟨hacted, rfl⟩

/-- The invariant of undisturbed runs. -/
structure Faithful (system : System) : Prop where
  acted : ActsOnReviewedHead system
  heads : HeadsAgree system

theorem faithful_review {repoFullName : String} {system : System} (h : Faithful system)
    (findings : List AdvisoryFinding) (policy : GateCheckPolicy) (published : Bool)
    (hcurrent : system.row.headSha = some system.live) :
    Faithful (step repoFullName system (.review findings policy published)) := by
  unfold step
  dsimp only
  cases hphase : system.phase with
  | idle =>
    by_cases hclosed : system.row.isOpen = false
    · simp only [if_pos hclosed]
      exact h
    · simp only [if_neg hclosed]
      exact ⟨h.acted, rfl, hcurrent⟩
  | reviewed advisoryResult gate => exact h
  | executing advisoryResult ctx planned => exact h

theorem faithful_maintain {repoFullName : String} {system : System} (h : Faithful system)
    (reads : MaintenanceReads) : Faithful (step repoFullName system (.maintain reads)) := by
  unfold step
  dsimp only
  cases hphase : system.phase with
  | reviewed advisoryResult gate =>
    have hheads := h.heads
    unfold HeadsAgree at hheads
    rw [hphase] at hheads
    exact ⟨h.acted, headsAgree_maintenancePhase reads hheads.1 hheads.2⟩
  | idle => exact h
  | executing advisoryResult ctx planned => exact h

theorem faithful_act {repoFullName : String} {system : System} (h : Faithful system)
    (granted terminal : Bool) : Faithful (step repoFullName system (.act granted terminal)) := by
  unfold step
  dsimp only
  cases hphase : system.phase with
  | idle => exact h
  | reviewed advisoryResult gate => exact h
  | executing advisoryResult ctx planned =>
    cases planned with
    | nil => exact ⟨h.acted, trivial⟩
    | cons action rest =>
      have hheads := h.heads
      unfold HeadsAgree at hheads
      rw [hphase] at hheads
      obtain ⟨hctx, happrove, hmerge⟩ := hheads
      have hnext := executeNext_reviewed granted terminal h.acted hctx
        (fun hclass => happrove (hclass ▸ plans_head)) (fun hclass => hmerge (hclass ▸ plans_head))
      refine ⟨hnext.1, hctx, ?_, fun hplans => hmerge (plans_tail hplans)⟩
      intro hplans
      rw [happrove (plans_tail hplans)]
      exact congrArg some hnext.2.symm

theorem faithful_push {repoFullName : String} {system : System} (h : Faithful system)
    (sha : String) (hstays : Undisturbed system (.push sha)) :
    Faithful (step repoFullName system (.push sha)) := by
  refine ⟨h.acted, ?_⟩
  have hheads := h.heads
  unfold HeadsAgree at hheads ⊢
  unfold Undisturbed at hstays
  unfold step
  dsimp only at hstays ⊢
  cases hphase : system.phase with
  | idle => trivial
  | reviewed advisoryResult gate =>
    rw [hphase] at hheads hstays
    exact ⟨hheads.1, hstays⟩
  | executing advisoryResult ctx planned =>
    rw [hphase] at hheads hstays
    exact ⟨hheads.1, hstays, hheads.2.2⟩

theorem faithful_webhook {repoFullName : String} {system : System} (h : Faithful system)
    (pr : GitHubPullRequestPayload) (hstays : Undisturbed system (.webhook pr)) :
    Faithful (step repoFullName system (.webhook pr)) := by
  refine ⟨h.acted, ?_⟩
  have hheads := h.heads
  unfold HeadsAgree at hheads ⊢
  unfold Undisturbed at hstays
  unfold step
  dsimp only at hstays ⊢
  cases hphase : system.phase with
  | idle => trivial
  | reviewed advisoryResult gate =>
    rw [hphase] at hheads hstays
    refine ⟨?_, hheads.2⟩
    rcases hstays with hnone | hsame
    · simpa [upsertPullRequestFromGitHub, hnone] using hheads.1
    · simp [upsertPullRequestFromGitHub, hsame, hheads.2]
  | executing advisoryResult ctx planned =>
    rw [hphase] at hheads
    exact hheads

theorem faithful_step (repoFullName : String) (system : System) (event : Event)
    (h : Faithful system) (hadmits : Undisturbed system event) :
    Faithful (step repoFullName system event) := by
  cases event with
  | review findings policy published => exact faithful_review h findings policy published hadmits
  | maintain reads => exact faithful_maintain h reads
  | act granted terminal => exact faithful_act h granted terminal
  | push sha => exact faithful_push h sha hadmits
  | webhook pr => exact faithful_webhook h pr hadmits

/-- Over any undisturbed sequence of reads, actions, pushes and webhooks, every merge
and approval acts on the head its gate verdict was evaluated for. -/
theorem actsOnReviewedHead_of_undisturbed (repoFullName live : String) (row : PullRequestRecord)
    (events : List Event)
    (hundisturbed : Guarded (step repoFullName) Undisturbed (initial live row) events) :
    ActsOnReviewedHead (run (step repoFullName) (initial live row) events) := by
  have hstart : Faithful (initial live row) := by
    refine ⟨?_, trivial⟩
    intro action hmem
    cases hmem
  exact (run_invariant (step repoFullName) Undisturbed (faithful_step repoFullName) _ events
    hstart hundisturbed).acted

/-- An open pull request of a contributor, stored at its first commit. -/
def openRow : PullRequestRecord where
  number := 7
  isOpen := true
  authorLogin := some "alice"
  headSha := some "c0ffee"
  labels := [agentLabelReady]
  mergeableState := some "clean"
  reviewDecision := none
  slopRisk := none
  mergeBlockedSha := none

/-- Green checks and every class on automatic, whatever the head. -/
def greenReads : MaintenanceReads where
  autonomy := some (fun _ => some .auto)
  autoMaintain := some ⟨0, .squash⟩
  slopGateMinScore := none
  globalPaused := false
  agentPaused := none
  agentDryRun := none
  changedPaths := ["src/index.ts"]
  hardGuardrailGlobs := []
  commit := ⟨[⟨"build", some "completed", some "success", none, none, none⟩], []⟩
  fails := noFailingRequests
  requiredContexts := none
  liveMergeState := some "clean"
  liveReviewDecision := none
  linkedDuplicateCount := 0
  installationPermissions := some "write"

/-- Review, second read, approval and merge, with nothing in between. -/
def quietRun : List Event :=
  [.review [] emptyPolicy true, .maintain greenReads, .act true false, .act true false]

theorem actsOnReviewedHead_quietRun :
    (run (step "acme/widgets") (initial "c0ffee" openRow) quietRun).executed =
        [⟨.approve, "c0ffee", some "c0ffee"⟩, ⟨.merge, "c0ffee", some "c0ffee"⟩] ∧
      ActsOnReviewedHead (run (step "acme/widgets") (initial "c0ffee" openRow) quietRun) :=
  ⟨by decide, actsOnReviewedHead_of_undisturbed "acme/widgets" "c0ffee" openRow quietRun
    ⟨rfl, trivial, trivial, trivial, trivial⟩⟩

/-- The same run with a push and its webhook between the two reads. -/
def overtakenRun : List Event :=
  [.review [] emptyPolicy true, .push "decaf", .webhook ⟨true, none, some "decaf", []⟩,
    .maintain { greenReads with autonomy := some (fun actionClass =>
      if actionClass = .label then none else some .auto) }, .act true false, .act true false]

/-- It approves and merges a commit whose gate verdict was never evaluated. -/
theorem overtakenRun_acts_on_other_head :
    (run (step "acme/widgets") (initial "c0ffee" openRow) overtakenRun).executed =
        [⟨.approve, "decaf", some "c0ffee"⟩, ⟨.merge, "decaf", some "c0ffee"⟩] ∧
      ¬ ActsOnReviewedHead (run (step "acme/widgets") (initial "c0ffee" openRow)
        overtakenRun) := by
  decide

end Gittensory.ReviewRun
