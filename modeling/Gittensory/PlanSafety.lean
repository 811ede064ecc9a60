import Gittensory.AgentActions

/-!
What a plan of the auto-maintain layer may contain. Merging, approving and closing
each need their own evidence, no two dispositions meet in one plan, and the classes
come in a fixed order. A plan that closes is coherent with its label and review
except for a review-good pull request that conflicts with its base.
-/
namespace Gittensory.PlanSafety

open AdvisoryGate Autonomy ChangeGuardrail AgentActions

/-- The plan holds an action of the class. -/
def Plans (plan : List PlannedAgentAction) (actionClass : AgentActionClass) : Prop :=
  ∃ action ∈ plan, action.actionClass = actionClass

instance (plan : List PlannedAgentAction) (actionClass : AgentActionClass) :
    Decidable (Plans plan actionClass) :=
  inferInstanceAs (Decidable (∃ action ∈ plan, action.actionClass = actionClass))

/-- No guardrail is configured, or the changed files are known and trip none. -/
def GuardrailClear (input : AgentActionPlanInput) : Prop :=
  input.hardGuardrailGlobs = [] ∨
    (input.changedPaths ≠ [] ∧
      ∀ path ∈ input.changedPaths, ¬ HitsGuardrail path input.hardGuardrailGlobs)

/-- A plan that could not do harm in the given situation. -/
structure DispositionSafe (input : AgentActionPlanInput) (plan : List PlannedAgentAction) :
    Prop where
  positive : Plans plan .merge ∨ Plans plan .approve →
    input.conclusion = .success ∧ input.ciState = .passed ∧ GuardrailClear input
  merge : Plans plan .merge → input.pr.mergeableState = some "clean" ∧
    (input.maintainPolicy.requireApprovals = 0 ∨ input.pr.reviewDecision = some "APPROVED") ∧
    ∀ blocked head, input.pr.mergeBlockedSha = some blocked → input.pr.headSha = some head →
      blocked ≠ head
  close : Plans plan .close → input.authorIsOwner = false ∧
    input.authorIsAutomationBot = false ∧ GuardrailClear input
  exclusive : ¬ (Plans plan .merge ∧ Plans plan .close)
  ordered : (plan.map PlannedAgentAction.actionClass).Sublist [.label, .approve, .merge, .close]
  dialled : ∀ action ∈ plan,
    isActingAutonomyLevel (resolveAutonomy input.autonomy action.actionClass) = true ∧
    (action.requiresApproval = true ↔
      resolveAutonomy input.autonomy action.actionClass = .autoWithApproval)
  settled : input.ciState = .pending ∨ input.conclusion = .neutral ∨
    input.conclusion = .skipped → plan = []

theorem plans_label_iff (input : AgentActionPlanInput) :
    Plans (planAgentMaintenanceActions input) .label ↔ Settled input ∧
      input.acting .label = true ∧ hasLabel input.pr.labels (bucketLabel input) = false := by
  constructor
  · intro h
    obtain ⟨action, hmem, hclass⟩ := h
    refine ⟨((mem_plan input action).mp hmem).1, ?_⟩
    rcases plan_cases hmem with ⟨rfl, h⟩ | ⟨rfl, _⟩ | ⟨rfl, _⟩ | ⟨rfl, _⟩
    · exact h
    all_goals simp at hclass
  · intro h
    obtain ⟨hsettled, h⟩ := h
    exact ⟨labelAction input, (mem_plan _ _).mpr
      ⟨hsettled, Or.inl ((mem_labelPart _ _).mpr ⟨rfl, h⟩)⟩, rfl⟩

theorem plans_approve_iff (input : AgentActionPlanInput) :
    Plans (planAgentMaintenanceActions input) .approve ↔ Settled input ∧
      input.reviewGood = true ∧ input.guardrailHit = false ∧ input.acting .approve = true ∧
      input.pr.reviewDecision ≠ some "APPROVED" := by
  constructor
  · intro h
    obtain ⟨action, hmem, hclass⟩ := h
    refine ⟨((mem_plan input action).mp hmem).1, ?_⟩
    rcases plan_cases hmem with ⟨rfl, _⟩ | ⟨rfl, h⟩ | ⟨rfl, _⟩ | ⟨rfl, _⟩
    · simp at hclass
    · exact h
    all_goals simp at hclass
  · intro h
    obtain ⟨hsettled, h⟩ := h
    exact ⟨approveAction input, (mem_plan _ _).mpr
      ⟨hsettled, Or.inr (Or.inl ((mem_approvePart _ _).mpr ⟨rfl, h⟩))⟩, rfl⟩

theorem plans_merge_iff (input : AgentActionPlanInput) :
    Plans (planAgentMaintenanceActions input) .merge ↔
      Settled input ∧ input.canMerge = true := by
  constructor
  · intro h
    obtain ⟨action, hmem, hclass⟩ := h
    refine ⟨((mem_plan input action).mp hmem).1, ?_⟩
    rcases plan_cases hmem with ⟨rfl, _⟩ | ⟨rfl, _⟩ | ⟨rfl, h⟩ | ⟨rfl, _⟩
    · simp at hclass
    · simp at hclass
    · exact h
    · simp at hclass
  · intro h
    obtain ⟨hsettled, h⟩ := h
    exact ⟨mergeAction input, (mem_plan _ _).mpr
      ⟨hsettled, Or.inr (Or.inr ((mem_dispositionPart _ _).mpr (Or.inl ⟨rfl, h⟩)))⟩, rfl⟩

theorem plans_close_iff (input : AgentActionPlanInput) :
    Plans (planAgentMaintenanceActions input) .close ↔
      Settled input ∧ input.canMerge = false ∧ input.willClose = true := by
  constructor
  · intro h
    obtain ⟨action, hmem, hclass⟩ := h
    refine ⟨((mem_plan input action).mp hmem).1, ?_⟩
    rcases plan_cases hmem with ⟨rfl, _⟩ | ⟨rfl, _⟩ | ⟨rfl, _⟩ | ⟨rfl, h⟩
    · simp at hclass
    · simp at hclass
    · simp at hclass
    · exact h
  · intro h
    obtain ⟨hsettled, h⟩ := h
    exact ⟨closeAction input, (mem_plan _ _).mpr
      ⟨hsettled, Or.inr (Or.inr ((mem_dispositionPart _ _).mpr (Or.inr ⟨rfl, h⟩)))⟩, rfl⟩

/-- Everything beyond a label stays off a guarded pull request. -/
theorem guardrailClear_of_plans {input : AgentActionPlanInput} {actionClass : AgentActionClass}
    (h : Plans (planAgentMaintenanceActions input) actionClass)
    (hclass : actionClass = .approve ∨ actionClass = .merge ∨ actionClass = .close) :
    GuardrailClear input := by
  apply (not_guardrailHit_iff input).mp
  rcases hclass with rfl | rfl | rfl
  · exact ((plans_approve_iff input).mp h).2.2.1
  · exact ((canMerge_iff input).mp ((plans_merge_iff input).mp h).2).2.1
  · exact ((willClose_iff input).mp ((plans_close_iff input).mp h).2.2).1

theorem labelPart_sublist (input : AgentActionPlanInput) :
    ((labelPart input).map PlannedAgentAction.actionClass).Sublist [.label] := by
  unfold labelPart
  split_ifs <;> simp

theorem approvePart_sublist (input : AgentActionPlanInput) :
    ((approvePart input).map PlannedAgentAction.actionClass).Sublist [.approve] := by
  unfold approvePart
  split_ifs <;> simp

theorem dispositionPart_sublist (input : AgentActionPlanInput) :
    ((dispositionPart input).map PlannedAgentAction.actionClass).Sublist [.merge, .close] := by
  unfold dispositionPart
  split_ifs
  · exact List.Sublist.cons_cons _ (List.nil_sublist _)
  · exact List.Sublist.cons _ (List.Sublist.refl _)
  · exact List.nil_sublist _

/-- Every class at most once, from the least to the most irreversible. -/
theorem plan_sublist (input : AgentActionPlanInput) :
    ((planAgentMaintenanceActions input).map PlannedAgentAction.actionClass).Sublist
      [.label, .approve, .merge, .close] := by
  by_cases h : Settled input
  · rw [plan_of_settled h, List.map_append, List.map_append]
    exact ((labelPart_sublist input).append (approvePart_sublist input)).append
      (dispositionPart_sublist input)
  · rw [plan_of_not_settled h]
    exact List.nil_sublist _

/-- An action is planned only where its own class may act, and is staged exactly
where its level asks for approval. -/
theorem plan_dialled (input : AgentActionPlanInput) (action : PlannedAgentAction)
    (hmem : action ∈ planAgentMaintenanceActions input) :
    isActingAutonomyLevel (resolveAutonomy input.autonomy action.actionClass) = true ∧
      (action.requiresApproval = true ↔
        resolveAutonomy input.autonomy action.actionClass = .autoWithApproval) := by
  have happroval : ∀ actionClass, input.approval actionClass = true ↔
      resolveAutonomy input.autonomy actionClass = .autoWithApproval := by
    intro actionClass
    unfold AgentActionPlanInput.approval AgentActionPlanInput.level autonomyRequiresApproval
    exact decide_eq_true_iff
  rcases plan_cases hmem with ⟨rfl, h, _⟩ | ⟨rfl, _, _, h, _⟩ | ⟨rfl, h⟩ | ⟨rfl, _, h⟩
  · exact ⟨h, happroval .label⟩
  · exact ⟨h, happroval .approve⟩
  · exact ⟨((canMerge_iff input).mp h).2.2.1, happroval .merge⟩
  · exact ⟨((willClose_iff input).mp h).2.2.1, happroval .close⟩

theorem mergeTerminallyBlocked_eq_false {input : AgentActionPlanInput}
    (h : input.mergeTerminallyBlocked = false) (blocked head : String)
    (hblocked : input.pr.mergeBlockedSha = some blocked) (hhead : input.pr.headSha = some head) :
    blocked ≠ head := by
  simpa [AgentActionPlanInput.mergeTerminallyBlocked, hblocked, hhead] using h

/-- The disposition safety of the planner, for every situation it is asked about. -/
theorem plan_dispositionSafe (input : AgentActionPlanInput) :
    DispositionSafe input (planAgentMaintenanceActions input) where
  positive h := by
    have hgood : input.reviewGood = true := by
      rcases h with h | h
      · exact ((canMerge_iff input).mp ((plans_merge_iff input).mp h).2).1
      · exact ((plans_approve_iff input).mp h).2.1
    have hclear : GuardrailClear input := by
      rcases h with h | h
      · exact guardrailClear_of_plans h (Or.inr (Or.inl rfl))
      · exact guardrailClear_of_plans h (Or.inl rfl)
    obtain ⟨hconclusion, hci⟩ := (reviewGood_iff input).mp hgood
    exact ⟨hconclusion, hci, hclear⟩
  merge h := by
    obtain ⟨_, _, _, hclean, happrovals, hblocked⟩ :=
      (canMerge_iff input).mp ((plans_merge_iff input).mp h).2
    refine ⟨?_, ?_, mergeTerminallyBlocked_eq_false hblocked⟩
    · simpa [AgentActionPlanInput.mergeableClean] using hclean
    · simpa [AgentActionPlanInput.approvalsSatisfied] using happrovals
  close h := by
    obtain ⟨_, hcontributor, _⟩ := (willClose_iff input).mp ((plans_close_iff input).mp h).2.2
    have hauthor : input.authorIsOwner = false ∧ input.authorIsAutomationBot = false := by
      simpa [AgentActionPlanInput.isContributor] using hcontributor
    exact ⟨hauthor.1, hauthor.2, guardrailClear_of_plans h (Or.inr (Or.inr rfl))⟩
  exclusive := by
    intro h
    obtain ⟨hmerge, hclose⟩ := h
    have hyes := ((plans_merge_iff input).mp hmerge).2
    have hno := ((plans_close_iff input).mp hclose).2.1
    simp [hyes] at hno
  ordered := plan_sublist input
  dialled := plan_dialled input
  settled h := by
    apply plan_of_not_settled
    intro h
    obtain ⟨hneutral, hskipped, hpending⟩ := h
    rcases h with h | h | h
    · exact hpending h
    · exact hneutral h
    · exact hskipped h

/-! ## Coherence of a closing plan -/

/-- A plan that closes neither approves nor promises a merge by its label. -/
def Coherent (plan : List PlannedAgentAction) : Prop :=
  Plans plan .close → ¬ Plans plan .approve ∧
    ∀ action ∈ plan, action.actionClass = .label → action.label ≠ some agentLabelReady

instance (plan : List PlannedAgentAction) : Decidable (Coherent plan) := by
  unfold Coherent
  infer_instance

/-- A contributor's pull request that passed the gate and CI, touches no guarded path
and conflicts with its base, in a repository that lets the agent close. -/
def ConflictClosed (input : AgentActionPlanInput) : Prop :=
  input.conclusion = .success ∧ input.ciState = .passed ∧ GuardrailClear input ∧
    input.authorIsOwner = false ∧ input.authorIsAutomationBot = false ∧
    input.acting .close = true ∧ input.pr.mergeableState = some "dirty"

/-- The agent still owes that pull request an approval or the ready label. -/
def PraiseDue (input : AgentActionPlanInput) : Prop :=
  (input.acting .approve = true ∧ input.pr.reviewDecision ≠ some "APPROVED") ∨
    (input.acting .label = true ∧ hasLabel input.pr.labels agentLabelReady = false)

theorem bucketLabel_eq_ready_iff (input : AgentActionPlanInput) :
    bucketLabel input = agentLabelReady ↔
      input.reviewGood = true ∧ input.guardrailHit = false := by
  unfold bucketLabel
  split_ifs with hgood hguard
  · simp [hgood, agentLabelChanges, agentLabelReady]
  · simp [hguard, agentLabelNeedsReview, agentLabelReady]
  · simp [hgood, hguard]

/-- A review-good pull request is closed only for a conflict. -/
theorem plans_close_of_reviewGood {input : AgentActionPlanInput} (hgood : input.reviewGood = true) :
    Plans (planAgentMaintenanceActions input) .close ↔ ConflictClosed input := by
  obtain ⟨hconclusion, hci⟩ := (reviewGood_iff input).mp hgood
  have hsettled : Settled input := by simp [Settled, hconclusion, hci]
  rw [plans_close_iff]
  constructor
  · intro h
    obtain ⟨_, _, hclose⟩ := h
    obtain ⟨hguard, hcontributor, hacting, hwhy⟩ := (willClose_iff input).mp hclose
    have hconflict : input.isConflict = true := by
      rcases hwhy with hbad | hconflict
      · simp [hgood] at hbad
      · exact hconflict
    have hauthor : input.authorIsOwner = false ∧ input.authorIsAutomationBot = false := by
      simpa [AgentActionPlanInput.isContributor] using hcontributor
    refine ⟨hconclusion, hci, (not_guardrailHit_iff input).mp hguard, hauthor.1, hauthor.2,
      hacting, ?_⟩
    simpa [AgentActionPlanInput.isConflict] using hconflict
  · intro h
    obtain ⟨_, _, hguard, howner, hbot, hacting, hdirty⟩ := h
    have hconflict : input.isConflict = true := by
      simpa [AgentActionPlanInput.isConflict] using hdirty
    refine ⟨hsettled, not_canMerge_of_isConflict hconflict, (willClose_iff input).mpr ?_⟩
    exact ⟨(not_guardrailHit_iff input).mpr hguard,
      by simp [AgentActionPlanInput.isContributor, howner, hbot], hacting, Or.inr hconflict⟩

theorem label_of_mem_plan {input : AgentActionPlanInput} {action : PlannedAgentAction}
    (hmem : action ∈ planAgentMaintenanceActions input) (hclass : action.actionClass = .label) :
    action.label = some (bucketLabel input) := by
  rcases plan_cases hmem with ⟨rfl, _⟩ | ⟨rfl, _⟩ | ⟨rfl, _⟩ | ⟨rfl, _⟩
  · rfl
  all_goals simp at hclass

/-- The ready label is planned where the pull request is review-good, unguarded and
does not carry it yet. -/
theorem plans_ready_iff (input : AgentActionPlanInput) :
    (∃ action ∈ planAgentMaintenanceActions input,
        action.actionClass = .label ∧ action.label = some agentLabelReady) ↔
      Settled input ∧ input.reviewGood = true ∧ input.guardrailHit = false ∧
        input.acting .label = true ∧ hasLabel input.pr.labels agentLabelReady = false := by
  constructor
  · intro h
    obtain ⟨action, hmem, hclass, hready⟩ := h
    have hlabel := label_of_mem_plan hmem hclass
    rw [hready] at hlabel
    have hbucket : bucketLabel input = agentLabelReady := (Option.some.inj hlabel).symm
    obtain ⟨hsettled, hacting, hmissing⟩ := (plans_label_iff input).mp ⟨action, hmem, hclass⟩
    obtain ⟨hgood, hguard⟩ := (bucketLabel_eq_ready_iff input).mp hbucket
    exact ⟨hsettled, hgood, hguard, hacting, hbucket ▸ hmissing⟩
  · intro h
    obtain ⟨hsettled, hgood, hguard, hacting, hmissing⟩ := h
    have hbucket := (bucketLabel_eq_ready_iff input).mpr ⟨hgood, hguard⟩
    obtain ⟨action, hmem, hclass⟩ :=
      (plans_label_iff input).mpr ⟨hsettled, hacting, hbucket ▸ hmissing⟩
    exact ⟨action, hmem, hclass, hbucket ▸ label_of_mem_plan hmem hclass⟩

/-- A closing plan is coherent unless it closes, for a conflict, a review-good pull
request it still owes an approval or the ready label. -/
theorem coherent_iff (input : AgentActionPlanInput) :
    Coherent (planAgentMaintenanceActions input) ↔
      ¬ (ConflictClosed input ∧ PraiseDue input) := by
  constructor
  · rintro hcoherent ⟨hconflict, hpraise⟩
    have hgood := (reviewGood_iff input).mpr ⟨hconflict.1, hconflict.2.1⟩
    have hguard := (not_guardrailHit_iff input).mpr hconflict.2.2.1
    have hsettled : Settled input := by simp [Settled, hconflict.1, hconflict.2.1]
    obtain ⟨hnoApprove, hnoReady⟩ := hcoherent ((plans_close_of_reviewGood hgood).mpr hconflict)
    rcases hpraise with ⟨hacting, hdecision⟩ | ⟨hacting, hmissing⟩
    · exact hnoApprove ((plans_approve_iff input).mpr
        ⟨hsettled, hgood, hguard, hacting, hdecision⟩)
    · obtain ⟨action, hmem, hclass, hready⟩ :=
        (plans_ready_iff input).mpr ⟨hsettled, hgood, hguard, hacting, hmissing⟩
      exact hnoReady action hmem hclass hready
  · intro hnot hclose
    constructor
    · intro happrove
      obtain ⟨_, hgood, _, hacting, hdecision⟩ := (plans_approve_iff input).mp happrove
      exact hnot ⟨(plans_close_of_reviewGood hgood).mp hclose, Or.inl ⟨hacting, hdecision⟩⟩
    · intro action hmem hclass hready
      obtain ⟨_, hgood, _, hacting, hmissing⟩ :=
        (plans_ready_iff input).mp ⟨action, hmem, hclass, hready⟩
      exact hnot ⟨(plans_close_of_reviewGood hgood).mp hclose, Or.inr ⟨hacting, hmissing⟩⟩

/-- A green, passing pull request of a contributor that conflicts with its base, every
class on automatic. -/
def conflictedPass : AgentActionPlanInput where
  conclusion := .success
  blockerTitles := []
  autonomy := some (fun _ => some .auto)
  autoMaintain := none
  slopGateMinScore := none
  changedPaths := ["src/index.ts"]
  hardGuardrailGlobs := []
  authorIsOwner := false
  authorIsAutomationBot := false
  ciState := .passed
  failingCheckNames := none
  pr := ⟨some "dirty", none, none, [], none, some "c0ffee", none⟩

/-- It is labelled ready, approved and closed in one pass. -/
theorem conflictedPass_not_coherent :
    (planAgentMaintenanceActions conflictedPass).map PlannedAgentAction.actionClass =
        [.label, .approve, .close] ∧
      ¬ Coherent (planAgentMaintenanceActions conflictedPass) := by
  decide

end Gittensory.PlanSafety
