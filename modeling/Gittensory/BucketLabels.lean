import Gittensory.AgentExecutor
import Gittensory.GuardedRun

/-!
The bucket labels of one pull request over its maintenance passes. A pass plans the label
of its verdict and the executor adds it (`github/labels.ts`); nothing takes the label of
an earlier verdict off. So the labels add up, and the pull request carries at most one of
them exactly as long as every settled pass comes to the same one.
-/
namespace Gittensory.BucketLabels

open AdvisoryGate AgentActions AgentExecutor Autonomy JsValue GuardedRun

/-- The labels of the pull request after the label requests; a missing label is created
in the repository on the way. -/
def ensurePullRequestLabel (labels : List String) (labelName : String) : List String :=
  if labels.any (fun label => toLowerCase label = toLowerCase labelName) then labels
  else labels ++ [labelName]

def applyRequest (labels : List String) : GitHubRequest → List String
  | .ensurePullRequestLabel label => ensurePullRequestLabel labels label
  | _ => labels

/-- A maintenance pass: what it plans from, besides the labels, and how it executes. -/
structure MaintenancePass where
  input : AgentActionPlanInput
  ctx : AgentActionExecutionContext

/-- The planner sees the current labels of the pull request. -/
def withLabels (labels : List String) (input : AgentActionPlanInput) : AgentActionPlanInput :=
  { input with pr := { input.pr with labels := labels } }

def runPass (labels : List String) (pass : MaintenancePass) : List String :=
  ((planAgentMaintenanceActions (withLabels labels pass.input)).flatMap
    (performAction pass.ctx)).foldl applyRequest labels

def bucketLabels : List String := [agentLabelReady, agentLabelChanges, agentLabelNeedsReview]

/-- No two of the bucket labels at once. -/
def OneBucket (labels : List String) : Prop :=
  ∀ first ∈ bucketLabels, ∀ second ∈ bucketLabels,
    hasLabel labels first = true → hasLabel labels second = true → first = second

/-- All passes that look at the pull request come to the same bucket. -/
def SameBucket (passes : List MaintenancePass) : Prop :=
  ∀ first ∈ passes, ∀ second ∈ passes, Settled first.input → Settled second.input →
    bucketLabel first.input = bucketLabel second.input

section OnePass

theorem bucketLabel_mem (input : AgentActionPlanInput) : bucketLabel input ∈ bucketLabels := by
  unfold bucketLabel
  split_ifs <;> decide

theorem bucketLabels_distinct : ∀ first ∈ bucketLabels, ∀ second ∈ bucketLabels,
    toLowerCase first = toLowerCase second → first = second := by
  decide

theorem hasLabel_ensure (labels : List String) (name other : String) :
    hasLabel (ensurePullRequestLabel labels name) other = true ↔
      hasLabel labels other = true ∨ toLowerCase name = toLowerCase other := by
  unfold ensurePullRequestLabel
  by_cases h : labels.any (fun label => toLowerCase label = toLowerCase name) = true
  · rw [if_pos h]
    constructor
    · exact Or.inl
    · intro hor
      rcases hor with hhas | heq
      · exact hhas
      · rw [hasLabel, ← heq]
        exact h
  · rw [if_neg h]
    simp [hasLabel]

/-- Requests other than label requests leave the labels alone. -/
theorem foldl_performAction {ctx : AgentActionExecutionContext} {action : PlannedAgentAction}
    (h : action.actionClass ≠ .label) (labels : List String) :
    (performAction ctx action).foldl applyRequest labels = labels := by
  unfold performAction
  cases hclass : action.actionClass with
  | label => exact absurd hclass h
  | close => by_cases htext : truthy action.closeComment = true <;> simp [htext, applyRequest]
  | review | requestChanges | approve | merge => rfl

theorem foldl_actions {ctx : AgentActionExecutionContext} (actions : List PlannedAgentAction)
    (h : ∀ action ∈ actions, action.actionClass ≠ .label) (labels : List String) :
    (actions.flatMap (performAction ctx)).foldl applyRequest labels = labels := by
  induction actions with
  | nil => rfl
  | cons action rest ih =>
    rw [List.flatMap_cons, List.foldl_append,
      foldl_performAction (h action (List.mem_cons_self ..)),
      ih (fun other hother => h other (List.mem_cons_of_mem _ hother))]

theorem acting_label {input : AgentActionPlanInput}
    (hauto : resolveAutonomy input.autonomy .label = .auto) : input.acting .label = true := by
  rw [AgentActionPlanInput.acting, AgentActionPlanInput.level, hauto]
  rfl

/-- A settled pass adds the label of its bucket, unless it is there. -/
theorem runPass_of_settled {pass : MaintenancePass} (hsettled : Settled pass.input)
    (hauto : resolveAutonomy pass.input.autonomy .label = .auto) (labels : List String) :
    runPass labels pass = ensurePullRequestLabel labels (bucketLabel pass.input) := by
  let input := withLabels labels pass.input
  have hothers : ∀ action ∈ approvePart input ++ dispositionPart input,
      action.actionClass ≠ .label := by
    intro action haction
    rcases List.mem_append.mp haction with h | h
    · rw [((mem_approvePart input action).mp h).1, approveAction_class]
      decide
    · rcases (mem_dispositionPart input action).mp h with ⟨rfl, -⟩ | ⟨rfl, -⟩
      · rw [mergeAction_class]
        decide
      · rw [closeAction_class]
        decide
  have hplan : planAgentMaintenanceActions input =
      labelPart input ++ (approvePart input ++ dispositionPart input) := by
    rw [plan_of_settled (show Settled input from hsettled), List.append_assoc]
  have hacting : input.acting .label = true := acting_label hauto
  have hbucket : bucketLabel input = bucketLabel pass.input := rfl
  rw [runPass, hplan, List.flatMap_append, List.foldl_append, foldl_actions _ hothers]
  by_cases hhas : hasLabel labels (bucketLabel pass.input) = true
  · have hpart : labelPart input = [] := by
      rw [labelPart, hacting, hbucket]
      simp [input, withLabels, hhas]
    have hkept : ensurePullRequestLabel labels (bucketLabel pass.input) = labels := if_pos hhas
    rw [hpart, hkept]
    rfl
  · have hpart : labelPart input = [labelAction input] := by
      rw [labelPart, hacting, hbucket]
      simp [input, withLabels, hhas]
    rw [hpart]
    rfl

theorem runPass_of_not_settled {pass : MaintenancePass} (h : ¬ Settled pass.input)
    (labels : List String) : runPass labels pass = labels := by
  rw [runPass, plan_of_not_settled (show ¬ Settled (withLabels labels pass.input) from h)]
  rfl

end OnePass

section Passes

/-- After any passes the pull request carries a label it started with or the bucket of a
settled pass. -/
theorem hasLabel_run (passes : List MaintenancePass)
    (hauto : ∀ pass ∈ passes, resolveAutonomy pass.input.autonomy .label = .auto)
    (labels : List String) {name : String} (hname : name ∈ bucketLabels) :
    hasLabel (run runPass labels passes) name = true ↔ hasLabel labels name = true ∨
      ∃ pass ∈ passes, Settled pass.input ∧ bucketLabel pass.input = name := by
  induction passes generalizing labels with
  | nil => simp [run]
  | cons pass rest ih =>
    have hrest := ih (fun other hother => hauto other (List.mem_cons_of_mem _ hother))
      (runPass labels pass)
    have htail : run runPass labels (pass :: rest) = run runPass (runPass labels pass) rest := rfl
    rw [htail, hrest]
    by_cases hsettled : Settled pass.input
    · rw [runPass_of_settled hsettled (hauto pass (List.mem_cons_self ..)), hasLabel_ensure]
      have hsame : toLowerCase (bucketLabel pass.input) = toLowerCase name ↔
          bucketLabel pass.input = name := by
        constructor
        · exact bucketLabels_distinct _ (bucketLabel_mem pass.input) name hname
        · intro h
          rw [h]
      simp only [hsame, List.mem_cons, exists_eq_or_imp, hsettled, true_and, or_assoc]
    · rw [runPass_of_not_settled hsettled]
      simp only [List.mem_cons, exists_eq_or_imp, hsettled, false_and, false_or]

end Passes

/-- Starting without a bucket label, the pull request never carries two of them through a
run of passes exactly when all its settled passes come to the same bucket. -/
theorem one_bucket_throughout_iff (labels : List String)
    (hstart : ∀ name ∈ bucketLabels, hasLabel labels name = false)
    (passes : List MaintenancePass)
    (hauto : ∀ pass ∈ passes, resolveAutonomy pass.input.autonomy .label = .auto) :
    (∀ earlier, earlier <+: passes → OneBucket (run runPass labels earlier)) ↔
      SameBucket passes := by
  have hcarried : ∀ earlier, earlier <+: passes → ∀ name ∈ bucketLabels,
      (hasLabel (run runPass labels earlier) name = true ↔
        ∃ pass ∈ earlier, Settled pass.input ∧ bucketLabel pass.input = name) := by
    intro earlier hearlier name hname
    rw [hasLabel_run earlier (fun pass hpass => hauto pass (hearlier.subset hpass)) labels hname,
      hstart name hname]
    simp
  constructor
  · intro h first hfirst second hsecond hsettled hsettled'
    have hall := hcarried passes (List.prefix_refl _)
    apply h passes (List.prefix_refl _) _ (bucketLabel_mem _) _ (bucketLabel_mem _)
    · exact (hall _ (bucketLabel_mem _)).mpr ⟨first, hfirst, hsettled, rfl⟩
    · exact (hall _ (bucketLabel_mem _)).mpr ⟨second, hsecond, hsettled', rfl⟩
  · intro h earlier hearlier first hfirst second hsecond hhas hhas'
    obtain ⟨pass, hpass, hsettled, rfl⟩ := (hcarried earlier hearlier first hfirst).mp hhas
    obtain ⟨pass', hpass', hsettled', rfl⟩ := (hcarried earlier hearlier second hsecond).mp hhas'
    exact h pass (hearlier.subset hpass) pass' (hearlier.subset hpass') hsettled hsettled'

/-- Only labels are on auto. -/
def labelsOnAuto : AutonomyPolicy := fun actionClass =>
  if actionClass = .label then some .auto else none

/-- A pass with the label class on auto and everything else plain. -/
def plainPass (conclusion : GateCheckConclusion) (ciState : CiState) : MaintenancePass where
  input :=
    { conclusion := conclusion
      blockerTitles := []
      autonomy := some labelsOnAuto
      autoMaintain := none
      slopGateMinScore := none
      changedPaths := []
      hardGuardrailGlobs := []
      authorIsOwner := false
      authorIsAutomationBot := false
      ciState := ciState
      failingCheckNames := none
      pr :=
        { mergeableState := none
          reviewDecision := none
          slopRisk := none
          labels := []
          linkedDuplicateCount := none
          headSha := none
          mergeBlockedSha := none } }
  ctx :=
    { repoFullName := "owner/repo"
      pullNumber := 7
      headSha := none
      autonomy := some labelsOnAuto
      globalPaused := false
      agentPaused := none
      agentDryRun := none
      installationPermissions := none }

/-- Red CI, then green. -/
theorem red_then_green_two_buckets :
    (∀ name ∈ bucketLabels, hasLabel [] name = false) ∧
      (∀ pass ∈ [plainPass .success .failed, plainPass .success .passed],
        resolveAutonomy pass.input.autonomy .label = .auto) ∧
      ¬ OneBucket (run runPass [] [plainPass .success .failed, plainPass .success .passed]) := by
  refine ⟨by decide, by decide, fun h => ?_⟩
  have htwo := h agentLabelReady (by decide) agentLabelChanges (by decide) (by decide +kernel)
    (by decide +kernel)
  exact absurd htwo (by decide)

theorem one_bucket_while_green :
    OneBucket (run runPass ["bug"] [plainPass .success .passed, plainPass .success .passed]) := by
  refine (one_bucket_throughout_iff ["bug"] (by decide) _ (by decide)).mpr ?_ _
    (List.prefix_refl _)
  intro first hfirst second hsecond _ _
  simp only [List.mem_cons, List.not_mem_nil, or_false, or_self] at hfirst hsecond
  rw [hfirst, hsecond]

end Gittensory.BucketLabels
