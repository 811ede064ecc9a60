import Gittensory.PlanSafety

/-!
The gate and the planner composed, for the pull request of an author the gate knows
not to be a confirmed contributor. The gate turns only its own blocking outcome
neutral for such an author, so a clean pull request passes and is acted on. The
verdicts under which the planner stays idle are stated on the advisory, the policy
and the state of the pull request.
-/
namespace Gittensory.UnconfirmedAuthor

open AdvisoryGate Autonomy ChangeGuardrail AgentActions PlanSafety

/-- The label is not the agent's to set, or the pull request carries it. -/
def LabelSilent (input : AgentActionPlanInput) (label : String) : Prop :=
  input.acting .label = false ∨ hasLabel input.pr.labels label = true

def ApproveSilent (input : AgentActionPlanInput) : Prop :=
  input.acting .approve = false ∨ input.pr.reviewDecision = some "APPROVED"

/-- Some condition of a merge other than the verdict, CI and the guardrail fails. -/
def MergeSilent (input : AgentActionPlanInput) : Prop :=
  input.acting .merge = false ∨ input.pr.mergeableState ≠ some "clean" ∨
    (input.maintainPolicy.requireApprovals ≠ 0 ∧ input.pr.reviewDecision ≠ some "APPROVED") ∨
    ∃ head, input.pr.mergeBlockedSha = some head ∧ input.pr.headSha = some head

/-- Nothing is left to do for a contributor's pull request that passed the gate:
unproven CI asks for a label and a close, green CI on a guarded path for a label, and
green CI otherwise for a label, an approval, and a merge or a close. -/
structure PassIdle (input : AgentActionPlanInput) : Prop where
  unproven : input.ciState ≠ .passed → LabelSilent input agentLabelChanges ∧
    (GuardrailClear input → input.acting .close = false)
  guarded : input.ciState = .passed → ¬ GuardrailClear input →
    LabelSilent input agentLabelNeedsReview
  clear : input.ciState = .passed → GuardrailClear input →
    LabelSilent input agentLabelReady ∧ ApproveSilent input ∧ MergeSilent input ∧
      (input.pr.mergeableState = some "dirty" → input.acting .close = false)

theorem plan_eq_nil_iff (input : AgentActionPlanInput) :
    planAgentMaintenanceActions input = [] ↔ ¬ Settled input ∨
      (labelPart input = [] ∧ approvePart input = [] ∧ dispositionPart input = []) := by
  by_cases h : Settled input
  · simp [plan_of_settled h, h]
  · simp [plan_of_not_settled h, h]

theorem labelPart_eq_nil_iff (input : AgentActionPlanInput) :
    labelPart input = [] ↔ LabelSilent input (bucketLabel input) := by
  unfold labelPart LabelSilent
  by_cases hacting : input.acting .label = true
  · by_cases hlabel : hasLabel input.pr.labels (bucketLabel input) = true
    · simp [hlabel]
    · simp [hacting, hlabel]
  · simp [hacting]

theorem approvePart_eq_nil_iff (input : AgentActionPlanInput) :
    approvePart input = [] ↔
      (input.reviewGood = true → input.guardrailHit = false → ApproveSilent input) := by
  unfold approvePart ApproveSilent
  by_cases hgood : input.reviewGood = true
  · by_cases hguard : input.guardrailHit = true
    · simp [hguard]
    · by_cases hacting : input.acting .approve = true
      · simp [hgood, hguard, hacting]
      · simp [hacting]
  · simp [hgood]

theorem dispositionPart_eq_nil_iff (input : AgentActionPlanInput) :
    dispositionPart input = [] ↔ input.canMerge = false ∧ input.willClose = false := by
  unfold dispositionPart
  split_ifs with hmerge hclose
  · simp [hmerge]
  · simp [hclose]
  · simp [hmerge, hclose]

theorem mergeSilent_iff (input : AgentActionPlanInput) :
    MergeSilent input ↔ ¬ (input.acting .merge = true ∧ input.mergeableClean = true ∧
      input.approvalsSatisfied = true ∧ input.mergeTerminallyBlocked = false) := by
  have hclean : input.mergeableClean = true ↔ input.pr.mergeableState = some "clean" := by
    simp [AgentActionPlanInput.mergeableClean]
  have happrovals : input.approvalsSatisfied = true ↔
      (input.maintainPolicy.requireApprovals = 0 ∨
        input.pr.reviewDecision = some "APPROVED") := by
    simp [AgentActionPlanInput.approvalsSatisfied]
  have hblocked : input.mergeTerminallyBlocked = false ↔
      ¬ ∃ head, input.pr.mergeBlockedSha = some head ∧ input.pr.headSha = some head := by
    unfold AgentActionPlanInput.mergeTerminallyBlocked
    cases input.pr.mergeBlockedSha with
    | none => simp
    | some blocked =>
      cases input.pr.headSha with
      | none => simp
      | some head => simp [eq_comm]
  unfold MergeSilent
  rw [hclean, happrovals, hblocked, ← Bool.not_eq_true]
  simp only [not_and_or, not_or, not_not, ne_eq]

theorem canMerge_eq_false_iff (input : AgentActionPlanInput) :
    input.canMerge = false ↔
      (input.reviewGood = true → input.guardrailHit = false → MergeSilent input) := by
  rw [mergeSilent_iff, ← Bool.not_eq_true, canMerge_iff]
  tauto

theorem willClose_eq_false_iff {input : AgentActionPlanInput}
    (hcontributor : input.isContributor = true) :
    input.willClose = false ↔ (input.guardrailHit = false →
      (input.reviewGood = false ∨ input.isConflict = true) → input.acting .close = false) := by
  rw [← Bool.not_eq_true, willClose_iff, ← Bool.not_eq_true (input.acting .close)]
  tauto

theorem passIdle_iff_of_unproven {input : AgentActionPlanInput} (h : input.ciState ≠ .passed) :
    PassIdle input ↔ LabelSilent input agentLabelChanges ∧
      (GuardrailClear input → input.acting .close = false) := by
  constructor
  · intro hidle
    exact hidle.unproven h
  · intro hidle
    exact ⟨fun _ => hidle, fun hpassed => absurd hpassed h, fun hpassed => absurd hpassed h⟩

theorem passIdle_iff_of_guarded {input : AgentActionPlanInput} (h : input.ciState = .passed)
    (hguarded : ¬ GuardrailClear input) :
    PassIdle input ↔ LabelSilent input agentLabelNeedsReview := by
  constructor
  · intro hidle
    exact hidle.guarded h hguarded
  · intro hidle
    exact ⟨fun hno => absurd h hno, fun _ _ => hidle, fun _ hclear => absurd hclear hguarded⟩

theorem passIdle_iff_of_clear {input : AgentActionPlanInput} (h : input.ciState = .passed)
    (hclear : GuardrailClear input) :
    PassIdle input ↔ LabelSilent input agentLabelReady ∧ ApproveSilent input ∧
      MergeSilent input ∧ (input.pr.mergeableState = some "dirty" → input.acting .close = false) := by
  constructor
  · intro hidle
    exact hidle.clear h hclear
  · intro hidle
    exact ⟨fun hno => absurd h hno, fun _ hno => absurd hclear hno, fun _ _ => hidle⟩

/-- For a contributor's pull request that passed the gate, the planner is idle while
CI runs, and afterwards exactly when nothing is left to do. -/
theorem plan_eq_nil_iff_of_success {input : AgentActionPlanInput}
    (hsuccess : input.conclusion = .success) (hcontributor : input.isContributor = true) :
    planAgentMaintenanceActions input = [] ↔ input.ciState = .pending ∨ PassIdle input := by
  have hsettled : Settled input ↔ input.ciState ≠ .pending := by simp [Settled, hsuccess]
  have hconflict : input.isConflict = true ↔ input.pr.mergeableState = some "dirty" := by
    simp [AgentActionPlanInput.isConflict]
  have hclear : GuardrailClear input ↔ input.guardrailHit = false :=
    (not_guardrailHit_iff input).symm
  rw [plan_eq_nil_iff, hsettled, not_not, labelPart_eq_nil_iff, approvePart_eq_nil_iff,
    dispositionPart_eq_nil_iff, canMerge_eq_false_iff, willClose_eq_false_iff hcontributor,
    hconflict]
  apply or_congr_right
  by_cases hpassed : input.ciState = .passed
  · have hgood : input.reviewGood = true := (reviewGood_iff input).mpr ⟨hsuccess, hpassed⟩
    by_cases hguard : input.guardrailHit = false
    · have hbucket := (bucketLabel_eq_ready_iff input).mpr ⟨hgood, hguard⟩
      rw [passIdle_iff_of_clear hpassed (hclear.mpr hguard), hbucket]
      simp [hgood, hguard]
    · have hbucket : bucketLabel input = agentLabelNeedsReview := by
        unfold bucketLabel
        simp [hgood, hguard]
      rw [passIdle_iff_of_guarded hpassed (fun h => hguard (hclear.mp h)), hbucket]
      simp [hguard]
  · have hgood : input.reviewGood = false := by
      rw [← Bool.not_eq_true, reviewGood_iff]
      exact fun h => hpassed h.2
    have hbucket : bucketLabel input = agentLabelChanges := by
      unfold bucketLabel
      rw [if_pos hgood]
    rw [passIdle_iff_of_unproven hpassed, hbucket, hclear]
    simp [hgood]

/-- The gate never fails an unconfirmed author: it passes a pull request without
blockers and is neutral on every other one. -/
theorem conclusion_of_unconfirmed {advisoryResult : Advisory} {policy : GateCheckPolicy}
    (hauthor : policy.confirmedContributor = some false) :
    (evaluateGateCheck advisoryResult policy).conclusion =
      if NotEvaluated advisoryResult ∨ gateBlockers advisoryResult policy ≠ [] then .neutral
      else .success := by
  have hspared : AuthorSpared policy := Or.inl hauthor
  rw [evaluateGateCheck_conclusion]
  by_cases heval : NotEvaluated advisoryResult
  · simp [heval]
  · by_cases hblock : gateBlockers advisoryResult policy = []
    · simp [heval, hblock]
    · simp [heval, hblock, hspared]

/-- The agent leaves the pull request of an unconfirmed contributor alone exactly when
the gate could not be evaluated or found a blocker, CI is still running, or nothing is
left to do. -/
theorem plan_of_unconfirmed_eq_nil_iff (advisoryResult : Advisory) (policy : GateCheckPolicy)
    (input : AgentActionPlanInput) (hauthor : policy.confirmedContributor = some false)
    (hconclusion : input.conclusion = (evaluateGateCheck advisoryResult policy).conclusion)
    (howner : input.authorIsOwner = false) (hbot : input.authorIsAutomationBot = false) :
    planAgentMaintenanceActions input = [] ↔
      NotEvaluated advisoryResult ∨ gateBlockers advisoryResult policy ≠ [] ∨
        input.ciState = .pending ∨ PassIdle input := by
  rw [conclusion_of_unconfirmed hauthor] at hconclusion
  by_cases hneutral : NotEvaluated advisoryResult ∨ gateBlockers advisoryResult policy ≠ []
  · rw [if_pos hneutral] at hconclusion
    have hnil : planAgentMaintenanceActions input = [] :=
      plan_of_not_settled (fun h => h.1 hconclusion)
    rw [← or_assoc]
    exact ⟨fun _ => Or.inl hneutral, fun _ => hnil⟩
  · rw [if_neg hneutral] at hconclusion
    have hcontributor : input.isContributor = true := by
      simp [AgentActionPlanInput.isContributor, howner, hbot]
    rw [plan_eq_nil_iff_of_success hconclusion hcontributor, ← or_assoc]
    exact ⟨Or.inr, fun h => h.resolve_left hneutral⟩

/-- A pull request without findings, by an author known not to be confirmed. -/
def cleanAdvisory : Advisory :=
  advisory .pullRequest "acme/widgets#7" "acme/widgets" [] "No findings." (some 7) none
    (some "c0ffee")

def unconfirmedPolicy : GateCheckPolicy :=
  { emptyPolicy with confirmedContributor := some false }

/-- The pull request of that author, green and clean, every class on automatic. -/
def cleanPass : AgentActionPlanInput where
  conclusion := (evaluateGateCheck cleanAdvisory unconfirmedPolicy).conclusion
  blockerTitles := []
  autonomy := some (fun _ => some .auto)
  autoMaintain := some ⟨0, .squash⟩
  slopGateMinScore := none
  changedPaths := ["src/index.ts"]
  hardGuardrailGlobs := []
  authorIsOwner := false
  authorIsAutomationBot := false
  ciState := .passed
  failingCheckNames := none
  pr := ⟨some "clean", none, none, [], none, some "c0ffee", none⟩

theorem plan_of_unconfirmed_cleanPass :
    planAgentMaintenanceActions cleanPass = [] ↔
      NotEvaluated cleanAdvisory ∨ gateBlockers cleanAdvisory unconfirmedPolicy ≠ [] ∨
        cleanPass.ciState = .pending ∨ PassIdle cleanPass :=
  plan_of_unconfirmed_eq_nil_iff cleanAdvisory unconfirmedPolicy cleanPass rfl rfl rfl rfl

/-- It is labelled, approved and merged. -/
theorem cleanPass_acted_on :
    unconfirmedPolicy.confirmedContributor = some false ∧
      cleanPass.conclusion = (evaluateGateCheck cleanAdvisory unconfirmedPolicy).conclusion ∧
      cleanPass.authorIsOwner = false ∧ cleanPass.authorIsAutomationBot = false ∧
      (planAgentMaintenanceActions cleanPass).map PlannedAgentAction.actionClass =
        [.label, .approve, .merge] := by
  decide

end Gittensory.UnconfirmedAuthor
