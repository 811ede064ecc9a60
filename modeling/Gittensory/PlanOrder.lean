import Gittensory.PlanRun

/-!
The order of the steps of a plan. The state machine leaves it to the harness: a call looks
only at the status of the step it names. The steps stay in dependency order throughout a
run exactly when the harness takes up a pending step only while `nextReadySteps` lists it.
-/
namespace Gittensory.PlanOrder

open JsValue Relation CycleSearch PlanGraph PlanRun

/-- The harness has worked on the step: it runs, is completed or has failed. -/
def isStarted (status : PlanStepStatus) : Bool :=
  status = .running ∨ status = .completed ∨ status = .failed

/-- Every step that was started has its dependencies completed or skipped. -/
def InOrder (plan : PlanDag) : Prop :=
  ∀ step ∈ plan.steps, isStarted step.status = true →
    ∀ dep ∈ step.dependsOn, isDone (statusOf plan dep) = true

/-- The calls that take up a pending step: a skip does not, and a failure only when it
uses up the attempts. -/
def takesUp (step : PlanStep) : PlanCall → Bool
  | .markStepRunning stepId => step.id = stepId
  | .applyStepResult stepId result =>
      step.id = stepId ∧ (result.outcome = .completed ∨ result.outcome = .failed ∧
        (JsNumber.finite ((step.attempts + 1 : ℤ) : ℚ)).ge step.maxAttempts = true)

/-- A pending step is taken up only while the plan lists it as ready. -/
def TakesReady (plan : PlanDag) (call : PlanCall) : Prop :=
  ∀ step ∈ plan.steps, step.status = .pending → takesUp step call = true →
    step ∈ nextReadySteps plan

instance (plan : PlanDag) (call : PlanCall) : Decidable (TakesReady plan call) :=
  inferInstanceAs (Decidable (∀ step ∈ plan.steps, _))

section OneCall

theorem isStarted_advanceStep_of_pending {step : PlanStep} (h : step.status = .pending)
    (call : PlanCall) :
    isStarted (advanceStep step call).status = true ↔ takesUp step call = true := by
  cases call with
  | markStepRunning stepId =>
    by_cases hid : step.id = stepId
    · simp [advanceStep, takesUp, startStep, hid, h, isStarted]
    · simp [advanceStep, takesUp, hid, h, isStarted]
  | applyStepResult stepId result =>
    by_cases hid : step.id = stepId
    · have hopen : ¬ (isDone step.status = true ∨ step.status = .failed) := by
        rw [h]
        decide
      rw [advanceStep, if_pos hid, recordOutcome, if_neg hopen]
      cases houtcome : result.outcome with
      | completed => simp [takesUp, hid, houtcome, isStarted]
      | skipped => simp [takesUp, hid, houtcome, isStarted]
      | failed =>
        by_cases hused : (JsNumber.finite ((step.attempts + 1 : ℤ) : ℚ)).ge step.maxAttempts = true
        · simp only [takesUp, hid, houtcome, hused, isStarted]
          decide
        · simp only [takesUp, hid, houtcome, hused, isStarted]
          decide
    · simp [advanceStep, takesUp, hid, h, isStarted]

/-- A step is started only by taking it up. -/
theorem started_before {step : PlanStep} {call : PlanCall}
    (h : isStarted (advanceStep step call).status = true) :
    isStarted step.status = true ∨ step.status = .pending ∧ takesUp step call = true := by
  cases hstatus : step.status with
  | pending => exact Or.inr ⟨rfl, (isStarted_advanceStep_of_pending hstatus call).mp h⟩
  | running => exact Or.inl rfl
  | completed => exact Or.inl rfl
  | failed => exact Or.inl rfl
  | skipped =>
    have hdone : isDone step.status = true := by
      rw [hstatus]
      rfl
    rw [advanceStep_of_finished (Or.inl hdone), hstatus] at h
    exact Or.inl h

theorem isDone_advanceStep {step : PlanStep} (h : isDone step.status = true) (call : PlanCall) :
    isDone (advanceStep step call).status = true := by
  rw [advanceStep_of_finished (Or.inl h)]
  exact h

/-- A call on another step leaves the step alone. -/
theorem advanceStep_of_other {step other : PlanStep} {call : PlanCall}
    (h : takesUp step call = true) (hid : other.id ≠ step.id) : advanceStep other call = other := by
  cases call with
  | markStepRunning stepId =>
    simp only [takesUp, decide_eq_true_eq] at h
    rw [advanceStep, if_neg (by rw [← h]; exact hid)]
  | applyStepResult stepId result =>
    simp only [takesUp, decide_eq_true_eq] at h
    rw [advanceStep, if_neg (by rw [← h.1]; exact hid)]

end OneCall

section OnePlan

theorem mem_nextReadySteps_iff (plan : PlanDag) (step : PlanStep) :
    step ∈ nextReadySteps plan ↔ step ∈ plan.steps ∧ step.status = .pending ∧
      ∀ dep ∈ step.dependsOn, isDone (statusOf plan dep) = true := by
  rw [nextReadySteps, List.mem_filter, decide_eq_true_eq, List.all_eq_true]

theorem workable_advance {plan : PlanDag} (h : Workable plan) (call : PlanCall) :
    Workable (PlanRun.advance plan call) :=
  h.runPlan [call]

/-- The status a dependency has after the call is that of its step. -/
theorem exists_dependency {plan : PlanDag} (h : Workable plan) {step : PlanStep}
    (hstep : step ∈ plan.steps) {dep : String} (hdep : dep ∈ step.dependsOn) (call : PlanCall) :
    ∃ target ∈ plan.steps, target.id = dep ∧ statusOf plan dep = target.status ∧
      statusOf (PlanRun.advance plan call) dep = (advanceStep target call).status := by
  obtain ⟨target, htarget, rfl⟩ := List.mem_map.mp (h.known step hstep dep hdep)
  refine ⟨target, htarget, rfl, statusOf_mem h htarget, ?_⟩
  have hmem : advanceStep target call ∈ (PlanRun.advance plan call).steps := by
    rw [advance_steps]
    exact List.mem_map_of_mem htarget
  have hstatus := statusOf_mem (workable_advance h call) hmem
  rwa [(advanceStep_same target call).id] at hstatus

theorem not_self_dependent {plan : PlanDag} (h : Workable plan) {step : PlanStep}
    (hstep : step ∈ plan.steps) : step.id ∉ step.dependsOn :=
  fun hself => h.acyclic step.id (TransGen.single ⟨step, hstep, rfl, hself⟩)

/-- Taking up ready steps only keeps the order. -/
theorem inOrder_advance {plan : PlanDag} (h : Workable plan) (horder : InOrder plan)
    {call : PlanCall} (hready : TakesReady plan call) : InOrder (PlanRun.advance plan call) := by
  intro after hafter hstarted dep hdep
  rw [advance_steps] at hafter
  obtain ⟨step, hstep, rfl⟩ := List.mem_map.mp hafter
  rw [(advanceStep_same step call).dependsOn] at hdep
  obtain ⟨target, htarget, -, hbefore, hnow⟩ := exists_dependency h hstep hdep call
  have hdone : isDone (statusOf plan dep) = true := by
    rcases started_before hstarted with hold | ⟨hpending, htakes⟩
    · exact horder step hstep hold dep hdep
    · have hmem := hready step hstep hpending htakes
      exact ((mem_nextReadySteps_iff plan step).mp hmem).2.2 dep hdep
  rw [hbefore] at hdone
  rw [hnow]
  exact isDone_advanceStep hdone call

/-- Taking up a step that is not ready breaks the order: its dependencies stay as they
are, for no step depends on itself. -/
theorem takesReady_of_inOrder {plan : PlanDag} (h : Workable plan) {call : PlanCall}
    (horder : InOrder (PlanRun.advance plan call)) : TakesReady plan call := by
  intro step hstep hpending htakes
  have hstarted : isStarted (advanceStep step call).status = true :=
    (isStarted_advanceStep_of_pending hpending call).mpr htakes
  have hmem : advanceStep step call ∈ (PlanRun.advance plan call).steps := by
    rw [advance_steps]
    exact List.mem_map_of_mem hstep
  refine (mem_nextReadySteps_iff plan step).mpr ⟨hstep, hpending, fun dep hdep => ?_⟩
  have hdone : isDone (statusOf (PlanRun.advance plan call) dep) = true := by
    apply horder _ hmem hstarted
    rw [(advanceStep_same step call).dependsOn]
    exact hdep
  obtain ⟨target, -, hid, hbefore, hnow⟩ := exists_dependency h hstep hdep call
  have hother : target.id ≠ step.id := by
    intro heq
    apply not_self_dependent h hstep
    rw [← heq, hid]
    exact hdep
  rw [hnow, advanceStep_of_other htakes hother] at hdone
  rw [hbefore]
  exact hdone

theorem inOrder_buildPlanDag (steps : List RawPlanStep) : InOrder (buildPlanDag steps) := by
  intro step hstep hstarted
  obtain ⟨raw, -, rfl⟩ := List.mem_map.mp hstep
  cases hstarted

end OnePlan

/-- A plan that passed validation is in dependency order all along a run of calls exactly
when every call that takes up a pending step names one that is listed as ready. -/
theorem in_order_throughout_iff (steps : List RawPlanStep) (fuel : ℕ) (verdict : PlanValidation)
    (hverdict : (buildPlanDag steps).validatePlanDag fuel = some verdict)
    (hvalid : verdict.valid = true) (calls : List PlanCall) :
    (∀ earlier, earlier <+: calls → InOrder (runPlan (buildPlanDag steps) earlier)) ↔
      GuardedRun.Guarded advance TakesReady (buildPlanDag steps) calls := by
  have hstart : Workable (buildPlanDag steps) := workable_of_valid hverdict hvalid
  have hkeeps : ∀ plan call, Workable plan → Workable (advance plan call) :=
    fun plan call hplan => workable_advance hplan call
  refine GuardedRun.holds_throughout_iff advance TakesReady hkeeps ?_ _ calls hstart
    (inOrder_buildPlanDag steps)
  intro plan call hplan horder
  exact ⟨takesReady_of_inOrder hplan, inOrder_advance hplan horder⟩

/-- The second of two steps is reported done before the first was started. -/
theorem reported_before_dependency :
    (buildPlanDag twoSteps).validatePlanDag 2 = some { valid := true, errors := [] } ∧
      ¬ InOrder (runPlan (buildPlanDag twoSteps)
        [.applyStepResult "b" { outcome := .completed }]) := by
  refine ⟨by decide, ?_⟩
  intro h
  have hdone := h
    { id := "b", title := "open", dependsOn := ["a"], status := .completed, attempts := 0,
      maxAttempts := .finite 1 } (by decide) rfl "a" (by decide)
  exact absurd hdone (by decide)

theorem in_order_throughout_twoSteps :
    InOrder (runPlan (buildPlanDag twoSteps) [.markStepRunning "a",
      .applyStepResult "a" { outcome := .completed }, .markStepRunning "b"]) :=
  (in_order_throughout_iff twoSteps 2 { valid := true, errors := [] } (by decide) rfl _).mpr
    (by decide) _ (List.prefix_refl _)

end Gittensory.PlanOrder
