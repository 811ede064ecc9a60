import Gittensory.AgentExecutor
import Gittensory.MergeRetry

/-!
The executor under failing requests and failing audit inserts. An action pushes its
outcome and then writes its audit record. Of a live action both stand in the `try` block
of the mutation, so a failed insert after the mutation has succeeded is reported as a
second outcome and counted as a failed merge; a failed insert anywhere else rejects the
whole call. What the executor reports is faithful exactly when the first record of every
action is written, and no live action is a `review`, which no request stands for.
-/
namespace Gittensory.ExecutorOutcome

open AgentActions AgentExecutor Autonomy JsValue MergeRetry

/-- What fails: a request of an action, and one of the audit records of an action, each
by position. -/
structure Failures where
  github : ℕ → ℕ → Option Thrown
  audit : ℕ → ℕ → Option Thrown

/-- What `performAction` throws: the requests are made in order, up to the first failure. -/
def thrownBy (ctx : AgentActionExecutionContext) (failures : Failures) (position : ℕ)
    (action : PlannedAgentAction) : Option Thrown :=
  (List.range (performAction ctx action).length).findSome? (failures.github position)

/-- The outcomes pushed so far, the row with the merge bookkeeping, and whether the call
was rejected. -/
structure ExecutorState where
  outcomes : List AgentActionOutcome
  row : Option PullRequestRow
  rejected : Bool
  deriving DecidableEq

/-- The `catch` block; `slot` counts the audit records of this action. -/
def caught (ctx : AgentActionExecutionContext) (failures : Failures) (position slot : ℕ)
    (action : PlannedAgentAction) (row : Option PullRequestRow) (error : Thrown) :
    ExecutorState :=
  let outcome : AgentActionOutcome := ⟨action.actionClass, .error, errorMessage error⟩
  if (failures.audit position slot).isSome then ⟨[outcome], row, true⟩
  else if action.actionClass = .merge ∧ truthy ctx.headSha then
    ⟨[outcome], handleMergeFailure row (ctx.headSha.getD "") error, false⟩
  else ⟨[outcome], row, false⟩

/-- One turn of the loop. Staging for approval and the best-effort notification leave
nothing behind that a later turn reads. -/
def executeAction (ctx : AgentActionExecutionContext) (failures : Failures) (position : ℕ)
    (action : PlannedAgentAction) (row : Option PullRequestRow) : ExecutorState :=
  match stoppedBy ctx action with
  | some outcome => ⟨[outcome], row, (failures.audit position 0).isSome⟩
  | none =>
      match thrownBy ctx failures position action with
      | some error => caught ctx failures position 0 action row error
      | none =>
          let outcome : AgentActionOutcome := ⟨action.actionClass, .completed, action.reason⟩
          match failures.audit position 0 with
          | none => ⟨[outcome], row, false⟩
          | some error =>
              let handled := caught ctx failures position 1 action row error
              { handled with outcomes := outcome :: handled.outcomes }

def executeFrom (ctx : AgentActionExecutionContext) (failures : Failures) :
    ℕ → List PlannedAgentAction → Option PullRequestRow → ExecutorState
  | _, [], row => ⟨[], row, false⟩
  | position, action :: rest, row =>
      let turn := executeAction ctx failures position action row
      if turn.rejected then turn
      else
        let later := executeFrom ctx failures (position + 1) rest turn.row
        { later with outcomes := turn.outcomes ++ later.outcomes }

/-- The outcomes the call returns, or `none` when it is rejected. -/
def executeAgentMaintenanceActions (ctx : AgentActionExecutionContext) (failures : Failures)
    (planned : List PlannedAgentAction) (row : Option PullRequestRow) :
    Option (List AgentActionOutcome) :=
  let result := executeFrom ctx failures 0 planned row
  if result.rejected then none else some result.outcomes

/-- The row as it is before the action at this position. -/
def rowBefore (ctx : AgentActionExecutionContext) (failures : Failures)
    (planned : List PlannedAgentAction) (row : Option PullRequestRow) (position : ℕ) :
    Option PullRequestRow :=
  (executeFrom ctx failures 0 (planned.take position) row).row

/-- The action was let through, stands for a request, and every request succeeded. -/
def MutationSucceeded (ctx : AgentActionExecutionContext) (failures : Failures) (position : ℕ)
    (action : PlannedAgentAction) : Prop :=
  stoppedBy ctx action = none ∧ performAction ctx action ≠ [] ∧
    ∀ request < (performAction ctx action).length, failures.github position request = none

def MutationFailed (ctx : AgentActionExecutionContext) (failures : Failures) (position : ℕ)
    (action : PlannedAgentAction) : Prop :=
  stoppedBy ctx action = none ∧
    ∃ request < (performAction ctx action).length, failures.github position request ≠ none

/-- One outcome an action in plan order, `completed` for the mutations that took place,
and merge bookkeeping only for merges that failed. -/
structure Faithful (ctx : AgentActionExecutionContext) (failures : Failures)
    (planned : List PlannedAgentAction) (row : Option PullRequestRow) : Prop where
  returned : ∃ outcomes, executeAgentMaintenanceActions ctx failures planned row = some outcomes ∧
    outcomes.map AgentActionOutcome.actionClass = planned.map PlannedAgentAction.actionClass ∧
    ∀ position action outcome, planned[position]? = some action →
      outcomes[position]? = some outcome →
      (outcome.outcome = .completed ↔ MutationSucceeded ctx failures position action)
  bookkeeping : ∀ position action, planned[position]? = some action →
    rowBefore ctx failures planned row (position + 1) ≠ rowBefore ctx failures planned row position →
    action.actionClass = .merge ∧ MutationFailed ctx failures position action

section OneTurn

variable (ctx : AgentActionExecutionContext) (failures : Failures) (position : ℕ)
  (action : PlannedAgentAction) (row : Option PullRequestRow)

theorem thrownBy_eq_none_iff :
    thrownBy ctx failures position action = none ↔
      ∀ request < (performAction ctx action).length, failures.github position request = none := by
  rw [thrownBy, List.findSome?_eq_none_iff]
  simp only [List.mem_range]

theorem mutationFailed_iff :
    MutationFailed ctx failures position action ↔
      stoppedBy ctx action = none ∧ thrownBy ctx failures position action ≠ none := by
  unfold MutationFailed
  rw [Ne, thrownBy_eq_none_iff]
  simp only [not_forall, exists_prop]

/-- Only a `review` is let through without any request. -/
theorem performAction_eq_nil_iff : performAction ctx action = [] ↔ action.actionClass = .review := by
  unfold performAction
  cases action.actionClass <;> simp

theorem mutationSucceeded_iff :
    MutationSucceeded ctx failures position action ↔ stoppedBy ctx action = none ∧
      action.actionClass ≠ .review ∧ thrownBy ctx failures position action = none := by
  rw [MutationSucceeded, ← thrownBy_eq_none_iff, Ne, performAction_eq_nil_iff]

theorem stoppedBy_outcome {outcome : AgentActionOutcome} (h : stoppedBy ctx action = some outcome) :
    outcome.actionClass = action.actionClass ∧ outcome.outcome ≠ .completed := by
  unfold stoppedBy at h
  dsimp only at h
  split_ifs at h <;> cases h <;> exact ⟨rfl, nofun⟩

/-- With its first audit record written an action pushes one outcome. -/
theorem executeAction_of_recorded (h : failures.audit position 0 = none) :
    ∃ outcome after, executeAction ctx failures position action row = ⟨[outcome], after, false⟩ ∧
      outcome.actionClass = action.actionClass ∧
      (outcome.outcome = .completed ↔
        stoppedBy ctx action = none ∧ thrownBy ctx failures position action = none) ∧
      (after ≠ row → action.actionClass = .merge ∧ MutationFailed ctx failures position action) := by
  unfold executeAction
  cases hstopped : stoppedBy ctx action with
  | some outcome =>
    obtain ⟨hclass, hkind⟩ := stoppedBy_outcome ctx action hstopped
    refine ⟨outcome, row, by rw [h]; rfl, hclass, ?_, fun hrow => absurd rfl hrow⟩
    simp [hkind]
  | none =>
    cases hthrown : thrownBy ctx failures position action with
    | none =>
      dsimp only
      rw [h]
      exact ⟨_, row, rfl, rfl, by simp, fun hrow => absurd rfl hrow⟩
    | some error =>
      dsimp only
      unfold caught
      rw [h]
      simp only [Option.isSome_none, Bool.false_eq_true, if_false]
      by_cases hmerge : action.actionClass = .merge ∧ truthy ctx.headSha = true
      · rw [if_pos hmerge]
        refine ⟨_, _, rfl, rfl, by simp, fun _ => ⟨hmerge.1, ?_⟩⟩
        rw [mutationFailed_iff, hthrown]
        exact ⟨hstopped, by simp⟩
      · rw [if_neg hmerge]
        exact ⟨_, row, rfl, rfl, by simp, fun hrow => absurd rfl hrow⟩

/-- An action that goes on pushes at least one outcome, and a second one when its first
audit record was lost. -/
theorem executeAction_length (hgoes : (executeAction ctx failures position action row).rejected = false) :
    1 ≤ (executeAction ctx failures position action row).outcomes.length ∧
      (failures.audit position 0 ≠ none →
        2 ≤ (executeAction ctx failures position action row).outcomes.length) := by
  cases haudit : failures.audit position 0 with
  | none =>
    obtain ⟨outcome, after, heq, -⟩ :=
      executeAction_of_recorded ctx failures position action row haudit
    rw [heq]
    exact ⟨le_rfl, fun h => absurd rfl h⟩
  | some error =>
    unfold executeAction at hgoes ⊢
    cases hstopped : stoppedBy ctx action with
    | some outcome =>
      rw [hstopped, haudit] at hgoes
      cases hgoes
    | none =>
      rw [hstopped] at hgoes
      cases hthrown : thrownBy ctx failures position action with
      | some thrown =>
        rw [hthrown] at hgoes
        simp only [caught, haudit, Option.isSome_some, if_true] at hgoes
        cases hgoes
      | none =>
        have htwo : 1 ≤ (caught ctx failures position 1 action row error).outcomes.length := by
          unfold caught
          dsimp only
          split_ifs <;> exact le_rfl
        simp only [haudit, List.length_cons]
        exact ⟨by omega, fun _ => by omega⟩

end OneTurn

section Loop

variable (ctx : AgentActionExecutionContext) (failures : Failures)

theorem executeFrom_cons (position : ℕ) (action : PlannedAgentAction)
    (rest : List PlannedAgentAction) (row : Option PullRequestRow)
    (hgoes : (executeAction ctx failures position action row).rejected = false) :
    executeFrom ctx failures position (action :: rest) row =
      { executeFrom ctx failures (position + 1) rest
          (executeAction ctx failures position action row).row with
        outcomes := (executeAction ctx failures position action row).outcomes ++
          (executeFrom ctx failures (position + 1) rest
            (executeAction ctx failures position action row).row).outcomes } := by
  rw [executeFrom]
  simp only [hgoes, Bool.false_eq_true, if_false]

/-- A rejected turn ends the call. -/
theorem executeFrom_cons_goes {position : ℕ} {action : PlannedAgentAction}
    {rest : List PlannedAgentAction} {row : Option PullRequestRow}
    (h : (executeFrom ctx failures position (action :: rest) row).rejected = false) :
    (executeAction ctx failures position action row).rejected = false := by
  cases hturn : (executeAction ctx failures position action row).rejected with
  | false => rfl
  | true =>
    rw [executeFrom] at h
    simp only [hturn, if_true] at h
    cases h

/-- A call that returns has at least one outcome an action, and no more only if every
first audit record was written. -/
theorem executeFrom_length (planned : List PlannedAgentAction) (position : ℕ)
    (row : Option PullRequestRow)
    (hgoes : (executeFrom ctx failures position planned row).rejected = false) :
    planned.length ≤ (executeFrom ctx failures position planned row).outcomes.length ∧
      ((executeFrom ctx failures position planned row).outcomes.length = planned.length →
        ∀ offset < planned.length, failures.audit (position + offset) 0 = none) := by
  induction planned generalizing position row with
  | nil => exact ⟨Nat.zero_le _, nofun⟩
  | cons action rest ih =>
    have hturn := executeFrom_cons_goes ctx failures hgoes
    rw [executeFrom_cons ctx failures position action rest row hturn] at hgoes ⊢
    obtain ⟨hone, htwo⟩ := executeAction_length ctx failures position action row hturn
    obtain ⟨hlength, hrecorded⟩ := ih (position + 1) _ hgoes
    simp only [List.length_append, List.length_cons]
    refine ⟨by omega, fun heq offset hoffset => ?_⟩
    have hfirst : failures.audit position 0 = none := by
      by_contra hlost
      have := htwo hlost
      omega
    cases offset with
    | zero => exact hfirst
    | succ offset =>
      have hlater := hrecorded (by omega) offset (by omega)
      rw [← hlater]
      congr 1
      omega

/-- With all first audit records written the call returns one outcome an action. -/
theorem executeFrom_of_recorded (planned : List PlannedAgentAction) (position : ℕ)
    (row : Option PullRequestRow)
    (h : ∀ offset < planned.length, failures.audit (position + offset) 0 = none) :
    ∃ outcomes after, executeFrom ctx failures position planned row = ⟨outcomes, after, false⟩ ∧
      outcomes.map AgentActionOutcome.actionClass = planned.map PlannedAgentAction.actionClass ∧
      ∀ offset action outcome, planned[offset]? = some action → outcomes[offset]? = some outcome →
        (outcome.outcome = .completed ↔ stoppedBy ctx action = none ∧
          thrownBy ctx failures (position + offset) action = none) := by
  induction planned generalizing position row with
  | nil => exact ⟨[], row, rfl, rfl, by simp⟩
  | cons action rest ih =>
    obtain ⟨outcome, after, hturn, hclass, hkind, -⟩ :=
      executeAction_of_recorded ctx failures position action row (h 0 (Nat.succ_pos _))
    obtain ⟨outcomes, last, hrest, hclasses, hkinds⟩ := ih (position + 1) after (by
      intro offset hoffset
      have := h (offset + 1) (Nat.succ_lt_succ hoffset)
      rw [← this]
      congr 1
      omega)
    refine ⟨outcome :: outcomes, last, ?_, ?_, ?_⟩
    · rw [executeFrom_cons ctx failures position action rest row (by rw [hturn]), hturn]
      dsimp only
      rw [hrest]
      rfl
    · rw [List.map_cons, List.map_cons, hclass, hclasses]
    · intro offset planned' outcome' hplanned houtcome
      cases offset with
      | zero =>
        rw [List.getElem?_cons_zero, Option.some.injEq] at hplanned houtcome
        rw [← hplanned, ← houtcome]
        exact hkind
      | succ offset =>
        rw [List.getElem?_cons_succ] at hplanned houtcome
        have hoffset : position + (offset + 1) = position + 1 + offset := by omega
        rw [hoffset]
        exact hkinds offset planned' outcome' hplanned houtcome

/-- The row after one more action is the row that action leaves. -/
theorem executeFrom_take_succ (planned : List PlannedAgentAction) (position : ℕ)
    (row : Option PullRequestRow)
    (h : ∀ offset < planned.length, failures.audit (position + offset) 0 = none)
    (offset : ℕ) (action : PlannedAgentAction) (hget : planned[offset]? = some action) :
    (executeFrom ctx failures position (planned.take (offset + 1)) row).row =
      (executeAction ctx failures (position + offset) action
        (executeFrom ctx failures position (planned.take offset) row).row).row := by
  induction planned generalizing position row offset with
  | nil => cases hget
  | cons first rest ih =>
    obtain ⟨outcome, after, hturn, -⟩ :=
      executeAction_of_recorded ctx failures position first row (h 0 (Nat.succ_pos _))
    have hgoes : (executeAction ctx failures position first row).rejected = false := by
      rw [hturn]
    cases offset with
    | zero =>
      rw [List.getElem?_cons_zero, Option.some.injEq] at hget
      rw [← hget, List.take_succ_cons, executeFrom_cons ctx failures position first _ row hgoes]
      rfl
    | succ offset =>
      rw [List.getElem?_cons_succ] at hget
      rw [List.take_succ_cons, List.take_succ_cons,
        executeFrom_cons ctx failures position first _ row hgoes,
        executeFrom_cons ctx failures position first _ row hgoes]
      have hnext := ih (position + 1) (executeAction ctx failures position first row).row (by
        intro later hlater
        have := h (later + 1) (Nat.succ_lt_succ hlater)
        rw [← this]
        congr 1
        omega) offset hget
      have hposition : position + (offset + 1) = position + 1 + offset := by omega
      rw [hposition]
      exact hnext

end Loop

section Faithfulness

variable {ctx : AgentActionExecutionContext} {failures : Failures}
  {planned : List PlannedAgentAction} {row : Option PullRequestRow}

theorem executeFrom_of_returned {outcomes : List AgentActionOutcome}
    (h : executeAgentMaintenanceActions ctx failures planned row = some outcomes) :
    (executeFrom ctx failures 0 planned row).rejected = false ∧
      (executeFrom ctx failures 0 planned row).outcomes = outcomes := by
  unfold executeAgentMaintenanceActions at h
  dsimp only at h
  cases hrejected : (executeFrom ctx failures 0 planned row).rejected with
  | true =>
    rw [if_pos hrejected] at h
    cases h
  | false =>
    rw [if_neg (by rw [hrejected]; decide)] at h
    exact ⟨rfl, Option.some.inj h⟩

theorem audit_shift (h : ∀ position < planned.length, failures.audit position 0 = none) :
    ∀ offset < planned.length, failures.audit (0 + offset) 0 = none := by
  intro offset hoffset
  rw [Nat.zero_add]
  exact h offset hoffset

theorem Faithful.recorded (h : Faithful ctx failures planned row) :
    ∀ position < planned.length, failures.audit position 0 = none := by
  intro position hposition
  obtain ⟨outcomes, hresult, hclasses, -⟩ := h.returned
  obtain ⟨hgoes, houtcomes⟩ := executeFrom_of_returned hresult
  have hlength : outcomes.length = planned.length := by
    have := congrArg List.length hclasses
    rwa [List.length_map, List.length_map] at this
  have hall := (executeFrom_length ctx failures planned 0 row hgoes).2
    (by rw [houtcomes, hlength]) position hposition
  rwa [Nat.zero_add] at hall

/-- A live review would be reported as completed although it made no request. -/
theorem Faithful.no_live_review (h : Faithful ctx failures planned row)
    {action : PlannedAgentAction} (haction : action ∈ planned)
    (hreview : action.actionClass = .review) : stoppedBy ctx action ≠ none := by
  intro hlive
  obtain ⟨outcomes, hresult, hclasses, hkinds⟩ := h.returned
  obtain ⟨outcomes', after, hrun, -, hkinds'⟩ :=
    executeFrom_of_recorded ctx failures planned 0 row (audit_shift h.recorded)
  have hsame : outcomes' = outcomes := by
    rw [← (executeFrom_of_returned hresult).2, hrun]
  obtain ⟨position, hget⟩ := List.mem_iff_getElem?.mp haction
  have hbound : position < outcomes.length := by
    rw [← List.length_map AgentActionOutcome.actionClass, hclasses, List.length_map]
    exact (List.getElem?_eq_some_iff.mp hget).1
  have hreported := hkinds' position action outcomes[position] hget
    (by rw [hsame]; exact List.getElem?_eq_getElem hbound)
  have hcompletes := hkinds position action outcomes[position] hget (List.getElem?_eq_getElem hbound)
  have hnothing : thrownBy ctx failures position action = none := by
    rw [thrownBy_eq_none_iff, (performAction_eq_nil_iff ctx action).mpr hreview]
    exact fun request hrequest => absurd hrequest (Nat.not_lt_zero _)
  rw [Nat.zero_add] at hreported
  have hcompleted := hreported.mpr ⟨hlive, hnothing⟩
  exact ((mutationSucceeded_iff ..).mp (hcompletes.mp hcompleted)).2.1 hreview

theorem faithful_of_recorded
    (hrecorded : ∀ position < planned.length, failures.audit position 0 = none)
    (hreview : ∀ action ∈ planned, action.actionClass = .review → stoppedBy ctx action ≠ none) :
    Faithful ctx failures planned row := by
  obtain ⟨outcomes, after, hrun, hclasses, hkinds⟩ :=
    executeFrom_of_recorded ctx failures planned 0 row (audit_shift hrecorded)
  refine ⟨⟨outcomes, ?_, hclasses, fun position action outcome hget houtcome => ?_⟩,
    fun position action hget hchanged => ?_⟩
  · simp only [executeAgentMaintenanceActions, hrun, Bool.false_eq_true, if_false]
  · have hkind := hkinds position action outcome hget houtcome
    rw [Nat.zero_add] at hkind
    rw [hkind, mutationSucceeded_iff]
    have hlive := hreview action (List.mem_of_getElem? hget)
    constructor
    · intro hdone
      exact ⟨hdone.1, fun hclass => hlive hclass hdone.1, hdone.2⟩
    · intro hdone
      exact ⟨hdone.1, hdone.2.2⟩
  · unfold rowBefore at hchanged
    rw [executeFrom_take_succ ctx failures planned 0 row (audit_shift hrecorded) position action
      hget, Nat.zero_add] at hchanged
    obtain ⟨outcome, later, hturn, -, -, hrow⟩ := executeAction_of_recorded ctx failures position
      action (executeFrom ctx failures 0 (planned.take position) row).row
      (hrecorded position (List.getElem?_eq_some_iff.mp hget).1)
    rw [hturn] at hchanged
    exact hrow hchanged

end Faithfulness

def liveContext : AgentActionExecutionContext where
  repoFullName := "owner/repo"
  pullNumber := 7
  headSha := some "h1"
  autonomy := some (fun _ => some .auto)
  globalPaused := false
  agentPaused := none
  agentDryRun := none
  installationPermissions := some "write"

def plannedMerge : PlannedAgentAction where
  actionClass := .merge
  requiresApproval := false
  reason := "merging"
  label := none
  reviewBody := none
  mergeMethod := some .squash
  closeComment := none

/-- Every request succeeds; the insert of the first audit record fails. -/
def lostRecord : Failures where
  github := fun _ _ => none
  audit := fun _ slot => if slot = 0 then some { message := "D1_ERROR" } else none

/-- The same lost record counts a failed merge on the row. -/
example : (executeFrom liveContext lostRecord 0 [plannedMerge]
    (some { headSha := some "h1" })).row =
    some { headSha := some "h1", mergeAttemptCount := 1 } := by decide +kernel

end Gittensory.ExecutorOutcome
