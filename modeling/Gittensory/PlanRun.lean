import Gittensory.GuardedRun
import Gittensory.PlanGraph
import Mathlib.Tactic.Linarith

/-!
The life of a plan. Steps are started and their outcomes recorded in any order, by any
id; every step advances by itself, so a run of the plan is a run of each step. Attempts
stay within the budget of the step, a finished step is never touched again, and while
nothing has failed some step is ready, because a dependency graph without cycles has a
pending step that waits for no other.
-/
namespace Gittensory.PlanRun

open JsValue Relation CycleSearch PlanGraph

def isDone (status : PlanStepStatus) : Bool := status = .completed ∨ status = .skipped

/-- `statusById.get(dep) ?? "pending"` -/
def statusOf (plan : PlanDag) (dep : String) : PlanStepStatus :=
  match plan.byId dep with
  | none => .pending
  | some step => step.status

def nextReadySteps (plan : PlanDag) : List PlanStep :=
  plan.steps.filter fun step =>
    step.status = .pending ∧ step.dependsOn.all fun dep => isDone (statusOf plan dep)

def mapStep (plan : PlanDag) (stepId : String) (update : PlanStep → PlanStep) : PlanDag where
  steps := plan.steps.map fun step => if step.id = stepId then update step else step

def startStep (step : PlanStep) : PlanStep :=
  if step.status = .pending then { step with status := .running } else step

def markStepRunning (plan : PlanDag) (stepId : String) : PlanDag := mapStep plan stepId startStep

inductive StepOutcome where
  | completed
  | failed
  | skipped
  deriving DecidableEq, Repr

structure StepResult where
  outcome : StepOutcome
  error : Option String := none

def recordOutcome (result : StepResult) (step : PlanStep) : PlanStep :=
  if isDone step.status ∨ step.status = .failed then step
  else
    match result.outcome with
    | .completed => { step with status := .completed, lastError := none }
    | .skipped => { step with status := .skipped, lastError := none }
    | .failed =>
        let attempts := step.attempts + 1
        let exhausted := (JsNumber.finite attempts).ge step.maxAttempts
        { step with
          attempts := attempts
          status := if exhausted then .failed else .pending
          lastError := some (result.error.getD "step failed") }

def applyStepResult (plan : PlanDag) (stepId : String) (result : StepResult) : PlanDag :=
  mapStep plan stepId (recordOutcome result)

inductive PlanOverallStatus where
  | pending
  | running
  | completed
  | failed
  | blocked
  deriving DecidableEq, Repr

structure PlanProgress where
  total : ℕ
  completed : ℕ
  failed : ℕ
  running : ℕ
  pending : ℕ
  skipped : ℕ
  status : PlanOverallStatus
  deriving DecidableEq, Repr

def countOf (plan : PlanDag) (status : PlanStepStatus) : ℕ :=
  (plan.steps.filter fun step => step.status = status).length

def planProgress (plan : PlanDag) : PlanProgress :=
  let completed := countOf plan .completed
  let skipped := countOf plan .skipped
  let failed := countOf plan .failed
  let running := countOf plan .running
  let pending := countOf plan .pending
  let total := plan.steps.length
  let status : PlanOverallStatus :=
    if total > 0 ∧ completed + skipped = total then .completed
    else if failed > 0 then .failed
    else if running > 0 then .running
    else if pending > 0 ∧ (nextReadySteps plan).length = 0 then .blocked
    else .pending
  { total, completed, failed, running, pending, skipped, status }

/-- A call of the harness, with any id and any outcome. -/
inductive PlanCall where
  | markStepRunning (stepId : String)
  | applyStepResult (stepId : String) (result : StepResult)

def advance (plan : PlanDag) : PlanCall → PlanDag
  | .markStepRunning stepId => markStepRunning plan stepId
  | .applyStepResult stepId result => applyStepResult plan stepId result

def runPlan (plan : PlanDag) (calls : List PlanCall) : PlanDag := GuardedRun.run advance plan calls

/-- At some moment of the run the step of this id was completed or skipped. -/
def EverDone (plan : PlanDag) (calls : List PlanCall) (id : String) : Prop :=
  ∃ earlier, earlier <+: calls ∧
    ∃ step ∈ (runPlan plan earlier).steps, step.id = id ∧ isDone step.status = true

section SingleStep

/-- What one call does to one step. -/
def advanceStep (step : PlanStep) : PlanCall → PlanStep
  | .markStepRunning stepId => if step.id = stepId then startStep step else step
  | .applyStepResult stepId result => if step.id = stepId then recordOutcome result step else step

def Finished (step : PlanStep) : Prop := isDone step.status = true ∨ step.status = .failed

theorem startStep_of_finished {step : PlanStep} (h : Finished step) : startStep step = step := by
  unfold startStep
  rw [if_neg]
  intro hpending
  rcases h with h | h <;> simp [isDone, hpending] at h

theorem recordOutcome_of_finished {step : PlanStep} (h : Finished step) (result : StepResult) :
    recordOutcome result step = step := by
  unfold recordOutcome
  exact if_pos h

/-- A finished step is never touched again. -/
theorem advanceStep_of_finished {step : PlanStep} (h : Finished step) (call : PlanCall) :
    advanceStep step call = step := by
  cases call with
  | markStepRunning stepId =>
    rw [advanceStep, startStep_of_finished h, ite_self]
  | applyStepResult stepId result =>
    rw [advanceStep, recordOutcome_of_finished h, ite_self]

/-- The parts of a step no call changes. -/
structure SameStep (before after : PlanStep) : Prop where
  id : after.id = before.id
  dependsOn : after.dependsOn = before.dependsOn

theorem startStep_same (step : PlanStep) : SameStep step (startStep step) := by
  unfold startStep
  by_cases h : step.status = .pending
  · rw [if_pos h]
    exact ⟨rfl, rfl⟩
  · rw [if_neg h]
    exact ⟨rfl, rfl⟩

theorem recordOutcome_same (result : StepResult) (step : PlanStep) :
    SameStep step (recordOutcome result step) := by
  unfold recordOutcome
  by_cases h : isDone step.status ∨ step.status = .failed
  · rw [if_pos h]
    exact ⟨rfl, rfl⟩
  · rw [if_neg h]
    cases result.outcome <;> exact ⟨rfl, rfl⟩

theorem advanceStep_same (step : PlanStep) (call : PlanCall) :
    SameStep step (advanceStep step call) := by
  cases call with
  | markStepRunning stepId =>
    rw [advanceStep]
    by_cases h : step.id = stepId
    · rw [if_pos h]
      exact startStep_same step
    · rw [if_neg h]
      exact ⟨rfl, rfl⟩
  | applyStepResult stepId result =>
    rw [advanceStep]
    by_cases h : step.id = stepId
    · rw [if_pos h]
      exact recordOutcome_same result step
    · rw [if_neg h]
      exact ⟨rfl, rfl⟩

/-- The attempts of a step against its budget: used up exactly when it has failed. -/
structure WithinBudget (budget : ℤ) (step : PlanStep) : Prop where
  maxAttempts : step.maxAttempts = .finite budget
  nonneg : 0 ≤ step.attempts
  exhausted : step.status = .failed → step.attempts = budget
  left : step.status ≠ .failed → step.attempts < budget

theorem startStep_withinBudget {budget : ℤ} {step : PlanStep} (h : WithinBudget budget step) :
    WithinBudget budget (startStep step) := by
  unfold startStep
  by_cases hpending : step.status = .pending
  · rw [if_pos hpending]
    have hleft := h.left (by rw [hpending]; decide)
    exact ⟨h.maxAttempts, h.nonneg, nofun, fun _ => hleft⟩
  · rw [if_neg hpending]
    exact h

theorem recordOutcome_withinBudget {budget : ℤ} {step : PlanStep} (h : WithinBudget budget step)
    (result : StepResult) : WithinBudget budget (recordOutcome result step) := by
  unfold recordOutcome
  by_cases hfinished : isDone step.status ∨ step.status = .failed
  · rw [if_pos hfinished]
    exact h
  · rw [if_neg hfinished]
    have hleft := h.left (fun hfailed => hfinished (Or.inr hfailed))
    have hnonneg := h.nonneg
    cases result.outcome with
    | completed => exact ⟨h.maxAttempts, h.nonneg, nofun, fun _ => hleft⟩
    | skipped => exact ⟨h.maxAttempts, h.nonneg, nofun, fun _ => hleft⟩
    | failed =>
      have hge : (JsNumber.finite ((step.attempts + 1 : ℤ) : ℚ)).ge step.maxAttempts = true ↔
          budget ≤ step.attempts + 1 := by
        rw [h.maxAttempts, JsNumber.ge, decide_eq_true_eq, Int.cast_le]
      refine ⟨h.maxAttempts, ?_, ?_, ?_⟩
      · dsimp only
        omega
      · -- the attempt that uses the budget up
        dsimp only
        intro hfailed
        by_cases hexhausted : budget ≤ step.attempts + 1
        · omega
        · rw [if_neg (fun h' => hexhausted (hge.mp h'))] at hfailed
          cases hfailed
      · dsimp only
        intro hretry
        by_cases hexhausted : budget ≤ step.attempts + 1
        · rw [if_pos (hge.mpr hexhausted)] at hretry
          exact absurd rfl hretry
        · omega

theorem advanceStep_withinBudget {budget : ℤ} {step : PlanStep} (h : WithinBudget budget step)
    (call : PlanCall) : WithinBudget budget (advanceStep step call) := by
  cases call with
  | markStepRunning stepId =>
    rw [advanceStep]
    by_cases hid : step.id = stepId
    · rw [if_pos hid]
      exact startStep_withinBudget h
    · rw [if_neg hid]
      exact h
  | applyStepResult stepId result =>
    rw [advanceStep]
    by_cases hid : step.id = stepId
    · rw [if_pos hid]
      exact recordOutcome_withinBudget h result
    · rw [if_neg hid]
      exact h

end SingleStep

section Runs

/-- One step through a list of calls. -/
def stepAfter (calls : List PlanCall) (step : PlanStep) : PlanStep :=
  GuardedRun.run advanceStep step calls

theorem stepAfter_append (earlier later : List PlanCall) (step : PlanStep) :
    stepAfter (earlier ++ later) step = stepAfter later (stepAfter earlier step) :=
  List.foldl_append ..

theorem advance_steps (plan : PlanDag) (call : PlanCall) :
    (advance plan call).steps = plan.steps.map (fun step => advanceStep step call) := by
  cases call <;> rfl

/-- The steps of a plan advance independently of one another. -/
theorem runPlan_steps (plan : PlanDag) (calls : List PlanCall) :
    (runPlan plan calls).steps = plan.steps.map (stepAfter calls) := by
  induction calls generalizing plan with
  | nil => exact (List.map_id _).symm
  | cons call rest ih =>
    have htail : runPlan plan (call :: rest) = runPlan (advance plan call) rest := rfl
    rw [htail, ih, advance_steps, List.map_map]
    rfl

theorem stepAfter_invariant {invariant : PlanStep → Prop}
    (hstep : ∀ step call, invariant step → invariant (advanceStep step call))
    (calls : List PlanCall) {step : PlanStep} (hstart : invariant step) :
    invariant (stepAfter calls step) := by
  induction calls generalizing step with
  | nil => exact hstart
  | cons call rest ih => exact ih (hstep step call hstart)

theorem stepAfter_of_finished {step : PlanStep} (h : Finished step) (calls : List PlanCall) :
    stepAfter calls step = step := by
  have hkept : ∀ after call, after = step → advanceStep after call = step := by
    intro after call hsame
    rw [hsame]
    exact advanceStep_of_finished h call
  exact stepAfter_invariant hkept calls rfl

theorem stepAfter_same (calls : List PlanCall) (step : PlanStep) :
    SameStep step (stepAfter calls step) := by
  apply stepAfter_invariant _ calls ⟨rfl, rfl⟩
  intro middle call hmiddle
  have hlast := advanceStep_same middle call
  exact ⟨hlast.id.trans hmiddle.id, hlast.dependsOn.trans hmiddle.dependsOn⟩

theorem runPlan_ids (plan : PlanDag) (calls : List PlanCall) :
    (runPlan plan calls).ids = plan.ids := by
  rw [PlanDag.ids, runPlan_steps, List.map_map, PlanDag.ids]
  apply List.map_congr_left
  intro step _
  exact (stepAfter_same calls step).id

theorem runPlan_dependsOn (plan : PlanDag) (calls : List PlanCall) :
    (runPlan plan calls).DependsOn = plan.DependsOn := by
  funext a b
  unfold PlanDag.DependsOn
  rw [runPlan_steps]
  simp only [List.mem_map, exists_exists_and_eq_and, (stepAfter_same calls _).id,
    (stepAfter_same calls _).dependsOn]

/-- What validation found out about a plan: it can be worked through. -/
structure Workable (plan : PlanDag) : Prop where
  distinct : plan.ids.Nodup
  known : ∀ step ∈ plan.steps, ∀ dep ∈ step.dependsOn, dep ∈ plan.ids
  acyclic : ∀ id, ¬ TransGen plan.DependsOn id id

theorem workable_of_valid {plan : PlanDag} {fuel : ℕ} {verdict : PlanValidation}
    (h : plan.validatePlanDag fuel = some verdict) (hvalid : verdict.valid = true) :
    Workable plan := by
  obtain ⟨hdistinct, hknown, hacyclic⟩ := (plan.valid_iff fuel h).mp hvalid
  exact ⟨hdistinct, hknown, hacyclic⟩

theorem Workable.runPlan {plan : PlanDag} (h : Workable plan) (calls : List PlanCall) :
    Workable (runPlan plan calls) where
  distinct := by
    rw [runPlan_ids]
    exact h.distinct
  known := by
    intro step hstep dep hdep
    rw [runPlan_steps] at hstep
    obtain ⟨start, hstart, rfl⟩ := List.mem_map.mp hstep
    rw [(stepAfter_same calls start).dependsOn] at hdep
    rw [runPlan_ids]
    exact h.known start hstart dep hdep
  acyclic := by
    rw [runPlan_dependsOn]
    exact h.acyclic

theorem statusOf_mem {plan : PlanDag} (h : Workable plan) {step : PlanStep}
    (hstep : step ∈ plan.steps) : statusOf plan step.id = step.status := by
  rw [statusOf, plan.byId_of_mem h.distinct hstep]

/-- While nothing runs and nothing has failed, an unfinished plan has a ready step: a
pending one that depends on no pending one. -/
theorem exists_ready {plan : PlanDag} (h : Workable plan)
    (hidle : ∀ step ∈ plan.steps, step.status ≠ .failed ∧ step.status ≠ .running)
    (hunfinished : ∃ step ∈ plan.steps, isDone step.status = false) :
    nextReadySteps plan ≠ [] := by
  have hpending : ∀ step ∈ plan.steps, isDone step.status = false → step.status = .pending := by
    intro step hstep hdone
    obtain ⟨hfailed, hrunning⟩ := hidle step hstep
    cases hstatus : step.status <;> simp_all [isDone]
  let waiting := ((plan.steps.filter fun step => step.status = .pending).map PlanStep.id).toFinset
  have hwaiting : ∀ step ∈ plan.steps, step.status = .pending → step.id ∈ waiting := by
    intro step hstep hstatus
    rw [List.mem_toFinset]
    apply List.mem_map_of_mem
    simpa using ⟨hstep, hstatus⟩
  obtain ⟨first, hfirst, hnotdone⟩ := hunfinished
  have hne : waiting.Nonempty := ⟨first.id, hwaiting first hfirst (hpending first hfirst hnotdone)⟩
  obtain ⟨id, hid, hsink⟩ :=
    exists_sink plan.dependenciesOf ((plan.acyclic_iff h.distinct).mpr h.acyclic) waiting hne
  obtain ⟨step, hstep, rfl⟩ := List.mem_map.mp (List.mem_toFinset.mp hid)
  obtain ⟨hstep, hstatus⟩ := List.mem_filter.mp hstep
  rw [decide_eq_true_eq] at hstatus
  have hready : ∀ dep ∈ step.dependsOn, isDone (statusOf plan dep) = true := by
    intro dep hdep
    obtain ⟨target, htarget, rfl⟩ := List.mem_map.mp (h.known step hstep dep hdep)
    rw [statusOf_mem h htarget]
    by_contra hnot
    have hwait := hwaiting target htarget
      (hpending target htarget (Bool.not_eq_true _ ▸ hnot))
    exact hsink target.id hwait
      ((plan.edge_iff_dependsOn h.distinct _ _).mpr ⟨step, hstep, rfl, hdep⟩)
  have hmem : step ∈ nextReadySteps plan := by
    rw [nextReadySteps, List.mem_filter]
    refine ⟨hstep, ?_⟩
    rw [decide_eq_true_eq, List.all_eq_true]
    exact ⟨hstatus, hready⟩
  exact List.ne_nil_of_mem hmem

theorem countOf_eq_zero_iff (plan : PlanDag) (status : PlanStepStatus) :
    countOf plan status = 0 ↔ ∀ step ∈ plan.steps, step.status ≠ status := by
  simp [countOf, List.length_eq_zero_iff, List.filter_eq_nil_iff]

theorem planProgress_ne_blocked {plan : PlanDag} (h : Workable plan) :
    (planProgress plan).status ≠ .blocked := by
  intro hblocked
  unfold planProgress at hblocked
  dsimp only at hblocked
  by_cases hdone : plan.steps.length > 0 ∧
      countOf plan .completed + countOf plan .skipped = plan.steps.length
  · rw [if_pos hdone] at hblocked
    cases hblocked
  rw [if_neg hdone] at hblocked
  by_cases hfailed : countOf plan .failed > 0
  · rw [if_pos hfailed] at hblocked
    cases hblocked
  rw [if_neg hfailed] at hblocked
  by_cases hrunning : countOf plan .running > 0
  · rw [if_pos hrunning] at hblocked
    cases hblocked
  rw [if_neg hrunning] at hblocked
  by_cases hstuck : countOf plan .pending > 0 ∧ (nextReadySteps plan).length = 0
  · -- a pending step and none ready, with nothing failed or running
    have hfailed' := (countOf_eq_zero_iff plan .failed).mp (by omega)
    have hrunning' := (countOf_eq_zero_iff plan .running).mp (by omega)
    have hpending : ∃ step ∈ plan.steps, isDone step.status = false := by
      obtain ⟨step, hstep⟩ := List.exists_mem_of_length_pos hstuck.1
      obtain ⟨hmem, hstatus⟩ := List.mem_filter.mp hstep
      rw [decide_eq_true_eq] at hstatus
      exact ⟨step, hmem, by rw [hstatus]; rfl⟩
    exact exists_ready h (fun step hstep => ⟨hfailed' step hstep, hrunning' step hstep⟩) hpending
      (List.length_eq_zero_iff.mp hstuck.2)
  · rw [if_neg hstuck] at hblocked
    cases hblocked

end Runs

section Built

/-- `Math.min(10, Math.max(1, n))` of an integer. -/
theorem clamp_integer (n : ℤ) :
    JsNumber.mathMin (.finite 10) (.mathMax (.finite 1) (.finite n)) =
      .finite ((min 10 (max 1 n) : ℤ) : ℚ) := by
  have hmax : JsNumber.mathMax (.finite 1) (.finite n) = .finite ((max 1 n : ℤ) : ℚ) := by
    by_cases h : n ≤ 1
    · have hcast : (n : ℚ) ≤ 1 := by exact_mod_cast h
      simp [JsNumber.mathMax, JsNumber.ge, hcast, max_eq_left h]
    · have hcast : ¬ (n : ℚ) ≤ 1 := by exact_mod_cast h
      have hle : 1 ≤ n := by omega
      simp [JsNumber.mathMax, JsNumber.ge, hcast, max_eq_right hle]
  rw [hmax]
  by_cases h : max 1 n ≤ 10
  · have hcast : ((max 1 n : ℤ) : ℚ) ≤ 10 := by exact_mod_cast h
    rw [min_eq_right h]
    simp only [JsNumber.mathMin, JsNumber.ge, hcast, reduceCtorEq, or_self, if_false,
      decide_true, if_true]
  · have hcast : ¬ ((max 1 n : ℤ) : ℚ) ≤ 10 := by exact_mod_cast h
    have hle : 10 ≤ max 1 n := by omega
    rw [min_eq_left hle]
    simp only [JsNumber.mathMin, JsNumber.ge, hcast, reduceCtorEq, or_self, if_false,
      decide_false, Bool.false_eq_true]
    norm_num

/-- What `buildPlanDag` clamps is an integer from 1 to 10. -/
theorem clampAttempts_range {maxAttempts : Option JsNumber} (h : maxAttempts ≠ some .nan) :
    ∃ budget : ℤ, 1 ≤ budget ∧ budget ≤ 10 ∧ clampAttempts maxAttempts = .finite budget := by
  have hinteger : ∀ n : ℤ, clampAttempts maxAttempts = .finite ((min 10 (max 1 n) : ℤ) : ℚ) →
      ∃ budget : ℤ, 1 ≤ budget ∧ budget ≤ 10 ∧ clampAttempts maxAttempts = .finite budget :=
    fun n heq => ⟨min 10 (max 1 n), by omega, by omega, heq⟩
  rcases maxAttempts with - | value
  · exact hinteger 1 (by rw [clampAttempts, ← clamp_integer]; rfl)
  · cases value with
    | nan => exact absurd rfl h
    | negInfinity => exact hinteger 1 (by norm_num; rfl)
    | infinity => exact hinteger 10 (by norm_num; rfl)
    | finite value =>
      apply hinteger (if value < 0 then ⌈value⌉ else ⌊value⌋)
      rw [clampAttempts, ← clamp_integer]
      rfl

theorem buildPlanStep_withinBudget (raw : RawPlanStep) (h : raw.maxAttempts ≠ some .nan) :
    ∃ budget : ℤ, WithinBudget budget (buildPlanStep raw) := by
  obtain ⟨budget, hone, -, hclamp⟩ := clampAttempts_range h
  refine ⟨budget, hclamp, le_rfl, nofun, fun _ => ?_⟩
  change 0 < budget
  omega

/-- The steps a built plan starts with are pending, within a budget of at least one. -/
theorem runPlan_withinBudget {steps : List RawPlanStep}
    (hbudget : ∀ raw ∈ steps, raw.maxAttempts ≠ some .nan) (calls : List PlanCall)
    {step : PlanStep} (hstep : step ∈ (runPlan (buildPlanDag steps) calls).steps) :
    ∃ budget : ℤ, WithinBudget budget step := by
  rw [runPlan_steps] at hstep
  obtain ⟨start, hstart, rfl⟩ := List.mem_map.mp hstep
  obtain ⟨raw, hraw, rfl⟩ := List.mem_map.mp hstart
  obtain ⟨budget, hstarts⟩ := buildPlanStep_withinBudget raw (hbudget raw hraw)
  refine ⟨budget, stepAfter_invariant ?_ calls hstarts⟩
  exact fun middle call hmiddle => advanceStep_withinBudget hmiddle call

/-- A step that was ever done is still the same step, and so has not failed. -/
theorem not_failed_of_everDone {plan : PlanDag} (h : Workable plan) (calls : List PlanCall)
    {step : PlanStep} (hstep : step ∈ (runPlan plan calls).steps)
    (hdone : EverDone plan calls step.id) : step.status ≠ .failed := by
  obtain ⟨earlier, hinitial, past, hpast, hid, hstatus⟩ := hdone
  obtain ⟨later, rfl⟩ := hinitial
  rw [runPlan_steps] at hstep hpast
  obtain ⟨start, hstart, rfl⟩ := List.mem_map.mp hstep
  obtain ⟨start', hstart', rfl⟩ := List.mem_map.mp hpast
  rw [(stepAfter_same _ _).id, (stepAfter_same _ _).id] at hid
  have hsame : start' = start := List.inj_on_of_nodup_map h.distinct hstart' hstart hid
  rw [hsame] at hstatus
  rw [stepAfter_append, stepAfter_of_finished (Or.inl hstatus)]
  intro hfailed
  rw [hfailed] at hstatus
  cases hstatus

/-- A finished step stays as it is, wherever the run goes on to. -/
theorem finished_stays (plan : PlanDag) (calls later : List PlanCall) (i : ℕ) {step : PlanStep}
    (hstep : (runPlan plan calls).steps[i]? = some step) (hfinished : Finished step) :
    (runPlan plan (calls ++ later)).steps[i]? = some step := by
  rw [runPlan_steps, List.getElem?_map] at hstep ⊢
  obtain ⟨start, hstart, rfl⟩ := Option.map_eq_some_iff.mp hstep
  rw [hstart, Option.map_some, stepAfter_append, stepAfter_of_finished hfinished]

/-- A built plan that passed validation is never stuck, whatever is called on it: an idle
unfinished plan has a ready step and is not reported blocked, attempts keep to the budget
and use it up exactly in a failed step, and a finished step never changes. `NaN` is the one
number the clamp lets through; the tool's schema admits integers from 1 to 10. -/
theorem validated_plan_never_stuck (steps : List RawPlanStep)
    (hbudget : ∀ raw ∈ steps, raw.maxAttempts ≠ some .nan) (fuel : ℕ) (verdict : PlanValidation)
    (hverdict : (buildPlanDag steps).validatePlanDag fuel = some verdict)
    (hvalid : verdict.valid = true) (calls : List PlanCall) :
    ((∃ step ∈ (runPlan (buildPlanDag steps) calls).steps, isDone step.status = false) →
      (∀ step ∈ (runPlan (buildPlanDag steps) calls).steps,
        step.status ≠ .failed ∧ step.status ≠ .running) →
      nextReadySteps (runPlan (buildPlanDag steps) calls) ≠ []) ∧
    (planProgress (runPlan (buildPlanDag steps) calls)).status ≠ .blocked ∧
    (∀ step ∈ (runPlan (buildPlanDag steps) calls).steps,
      0 ≤ step.attempts ∧ step.maxAttempts.ge (.finite step.attempts) = true ∧
      (step.status = .failed ↔ .finite step.attempts = step.maxAttempts ∧
        ¬ EverDone (buildPlanDag steps) calls step.id)) ∧
    (∀ (later : List PlanCall) (i : ℕ) (step : PlanStep),
      (runPlan (buildPlanDag steps) calls).steps[i]? = some step →
      isDone step.status = true ∨ step.status = .failed →
      (runPlan (buildPlanDag steps) (calls ++ later)).steps[i]? = some step) := by
  have hstart : Workable (buildPlanDag steps) := workable_of_valid hverdict hvalid
  have hplan := hstart.runPlan calls
  refine ⟨fun hunfinished hidle => exists_ready hplan hidle hunfinished,
    planProgress_ne_blocked hplan, fun step hstep => ?_,
    fun later i step hstep hfinished => finished_stays _ calls later i hstep hfinished⟩
  obtain ⟨budget, hwithin⟩ := runPlan_withinBudget hbudget calls hstep
  have hle : step.attempts ≤ budget := by
    by_cases hfailed : step.status = .failed
    · exact (hwithin.exhausted hfailed).le
    · exact (hwithin.left hfailed).le
  refine ⟨hwithin.nonneg, ?_, ?_⟩
  · rw [hwithin.maxAttempts, JsNumber.ge, decide_eq_true_eq, Int.cast_le]
    exact hle
  · rw [hwithin.maxAttempts, JsNumber.finite.injEq, Int.cast_inj]
    constructor
    · intro hfailed
      refine ⟨hwithin.exhausted hfailed, fun hdone => ?_⟩
      exact not_failed_of_everDone hstart calls hstep hdone hfailed
    · intro h
      obtain ⟨hused, -⟩ := h
      by_contra hfailed
      have hleft := hwithin.left hfailed
      omega

/-- Two steps, the second waiting for the first, which fails its only attempt. -/
def twoSteps : List RawPlanStep :=
  [{ id := "a", title := "land" }, { id := "b", title := "open", dependsOn := some ["a"] }]

theorem validated_plan_never_stuck_twoSteps :
    (planProgress (runPlan (buildPlanDag twoSteps)
      [.markStepRunning "a", .applyStepResult "a" { outcome := .completed }])).status ≠ .blocked :=
  (validated_plan_never_stuck twoSteps (by decide) 2 { valid := true, errors := [] }
    (by decide) rfl [.markStepRunning "a", .applyStepResult "a" { outcome := .completed }]).2.1

end Built

end Gittensory.PlanRun
