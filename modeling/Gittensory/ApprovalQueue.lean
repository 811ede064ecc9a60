import Gittensory.GuardedRun
import Gittensory.ReviewRun

/-!
The approval queue of one pull request (`services/agent-approval-queue.ts`). Actions are
staged once a class, and any number of maintainers decide them, each decision a read, for
an acceptance the context and the execution, an update and an audit record, with calls of
the others, pushes and webhooks at any point between. A staged row keeps the payload of
its action but no head; an acceptance acts on the head it reads.
-/
namespace Gittensory.ApprovalQueue

open AgentActions AgentExecutor Autonomy JsValue GuardedRun

inductive PendingStatus where
  | pending
  | accepted
  | rejected
  deriving DecidableEq, Repr

structure PendingActionParams where
  label : Option String := none
  reviewBody : Option String := none
  mergeMethod : Option AutoMergeMethod := none
  closeComment : Option String := none
  deriving DecidableEq, Repr

structure PendingAction where
  id : String
  actionClass : AgentActionClass
  autonomyLevel : AutonomyLevel
  params : PendingActionParams
  reason : Option String
  status : PendingStatus := .pending
  decidedBy : Option String := none
  /-- Not a column: the head the pull request had when the row was staged. -/
  plannedFor : String
  deriving DecidableEq, Repr

def actionParams (action : PlannedAgentAction) : PendingActionParams where
  label := action.label
  reviewBody := action.reviewBody
  mergeMethod := action.mergeMethod
  closeComment := action.closeComment

/-- The maintainer's acceptance is the approval. -/
def pendingActionToPlanned (pending : PendingAction) : PlannedAgentAction where
  actionClass := pending.actionClass
  requiresApproval := false
  reason := pending.reason.getD "maintainer-approved"
  label := pending.params.label
  reviewBody := pending.params.reviewBody
  mergeMethod := pending.params.mergeMethod
  closeComment := pending.params.closeComment

/-- A staged action comes back as it was planned, with the approval given. -/
theorem pendingActionToPlanned_staged {pending : PendingAction} {action : PlannedAgentAction}
    (hclass : pending.actionClass = action.actionClass)
    (hparams : pending.params = actionParams action)
    (hreason : pending.reason = some action.reason) :
    pendingActionToPlanned pending = { action with requiresApproval := false } := by
  unfold pendingActionToPlanned
  rw [hclass, hparams, hreason]
  rfl

/-- A class that has a row keeps it as it is; a repeated id fails the insert. -/
def createPendingAgentActionIfAbsent (table : List PendingAction) (fresh : PendingAction) :
    List PendingAction :=
  if table.any (fun row => row.actionClass = fresh.actionClass) then table
  else if table.any (fun row => row.id = fresh.id) then table
  else table ++ [fresh]

def getPendingAgentAction (table : List PendingAction) (id : String) : Option PendingAction :=
  table.find? (fun row => row.id = id)

/-- The update asks for the id only, not for the row to be pending still. -/
def setPendingAgentActionStatus (table : List PendingAction) (id : String)
    (status : PendingStatus) (decidedBy : String) : List PendingAction :=
  table.map fun row =>
    if row.id = id then { row with status := status, decidedBy := some decidedBy } else row

inductive ApprovalDecision where
  | accept
  | reject
  deriving DecidableEq, Repr

structure DecideInput where
  id : String
  decision : ApprovalDecision
  decidedBy : String
  deriving DecidableEq, Repr

inductive ApprovalStatus where
  | accepted
  | rejected
  | alreadyDecided
  | notFound
  deriving DecidableEq, Repr

structure ApprovalDecisionResult where
  status : ApprovalStatus
  action : Option PendingAction := none
  executionOutcome : Option OutcomeKind := none
  deriving DecidableEq, Repr

/-- What an acceptance reads besides the pull request: settings, installation, pause. -/
structure DecideReads where
  autonomy : Option AutonomyPolicy
  globalPaused : Bool
  agentPaused : Option Bool
  agentDryRun : Option Bool
  installationPermissions : Option String

/-- Where a `decidePendingAgentAction` call is. -/
inductive CallPhase where
  | start
  | read (input : DecideInput) (pending : PendingAction)
  | loaded (input : DecideInput) (pending : PendingAction) (ctx : AgentActionExecutionContext)
  | executed (input : DecideInput) (pending : PendingAction) (execOutcome : OutcomeKind)
  | updated (input : DecideInput) (result : ApprovalDecisionResult)
  | returned (input : DecideInput) (result : ApprovalDecisionResult)

/-- A mutation that took effect, on the head the pull request had at GitHub. -/
structure Acted where
  id : String
  actionClass : AgentActionClass
  target : String
  plannedFor : String
  deriving DecidableEq, Repr

structure System where
  repoFullName : String
  pullNumber : ℕ
  /-- The head at GitHub. -/
  live : String
  /-- The head of the stored pull request, if there is one. -/
  stored : Option String
  table : List PendingAction
  phases : ℕ → CallPhase
  /-- The ids handed to the executor, one entry a time. -/
  handed : List String
  acted : List Acted

/-- The head of the pull request as it is known; without a stored one the head at GitHub. -/
def System.head (system : System) : String := (present system.stored).getD system.live

def System.setPhase (system : System) (call : ℕ) (phase : CallPhase) : System :=
  { system with phases := Function.update system.phases call phase }

def executionContext (system : System) (reads : DecideReads) : AgentActionExecutionContext where
  repoFullName := system.repoFullName
  pullNumber := system.pullNumber
  headSha := system.stored
  autonomy := reads.autonomy
  globalPaused := reads.globalPaused
  agentPaused := reads.agentPaused
  agentDryRun := reads.agentDryRun
  installationPermissions := reads.installationPermissions

/-- Merges, approvals and closings act on the head at GitHub; a merge that names another
commit is refused. -/
def actsOn (live : String) (pending : PendingAction) : GitHubRequest → Option Acted
  | .mergePullRequest _ _ => some ⟨pending.id, .merge, live, pending.plannedFor⟩
  | .createPullRequestReview .approve _ => some ⟨pending.id, .approve, live, pending.plannedFor⟩
  | .closePullRequest => some ⟨pending.id, .close, live, pending.plannedFor⟩
  | _ => none

/-- The executor on the one staged action: its outcome and what took effect. -/
def executeStaged (live : String) (ctx : AgentActionExecutionContext) (pending : PendingAction)
    (granted : Bool) : OutcomeKind × List Acted :=
  let planned := pendingActionToPlanned pending
  match stoppedBy ctx planned with
  | some outcome => (outcome.outcome, [])
  | none =>
      let requests := performAction ctx planned
      if requests.all (ReviewRun.succeeds live granted) then
        (.completed, requests.filterMap (actsOn live pending))
      else (.error, [])

def decidedAction (pending : PendingAction) (status : PendingStatus) (decidedBy : String) :
    PendingAction :=
  { pending with status := status, decidedBy := some decidedBy }

structure StageInput where
  id : String
  actionClass : AgentActionClass
  autonomyLevel : AutonomyLevel
  params : PendingActionParams
  reason : Option String

inductive Event where
  | push (sha : String)
  | upsert (headSha : Option String)
  | stage (input : StageInput)
  | read (call : ℕ) (input : DecideInput)
  | load (call : ℕ) (reads : DecideReads)
  | execute (call : ℕ) (granted : Bool)
  | update (call : ℕ)
  | finish (call : ℕ)

def stagedRow (system : System) (input : StageInput) : PendingAction where
  id := input.id
  actionClass := input.actionClass
  autonomyLevel := input.autonomyLevel
  params := input.params
  reason := input.reason
  plannedFor := system.head

/-- `getPendingAgentAction` and the two checks on what it returns. -/
def readStep (system : System) (call : ℕ) (input : DecideInput) : System :=
  match getPendingAgentAction system.table input.id with
  | none => system.setPhase call (.returned input { status := .notFound })
  | some pending =>
      if pending.status ≠ .pending then
        system.setPhase call (.returned input
          { status := .alreadyDecided, action := some pending })
      else system.setPhase call (.read input pending)

def executeStep (system : System) (call : ℕ) (input : DecideInput) (pending : PendingAction)
    (ctx : AgentActionExecutionContext) (granted : Bool) : System :=
  let outcome := executeStaged system.live ctx pending granted
  { system.setPhase call (.executed input pending outcome.1) with
    handed := system.handed ++ [pending.id]
    acted := system.acted ++ outcome.2 }

/-- `setPendingAgentActionStatus`, for a rejection at once, for an acceptance after the
execution. -/
def updateStep (system : System) (call : ℕ) (input : DecideInput) (pending : PendingAction)
    (status : PendingStatus) (result : ApprovalDecisionResult) : System :=
  { system.setPhase call (.updated input
      { result with action := some (decidedAction pending status input.decidedBy) }) with
    table := setPendingAgentActionStatus system.table pending.id status input.decidedBy }

/-- An event that the phase of its call does not wait for changes nothing. -/
def step (system : System) : Event → System
  | .push sha => { system with live := sha }
  | .upsert headSha => { system with stored := headSha.or system.stored }
  | .stage input =>
      { system with
        table := createPendingAgentActionIfAbsent system.table (stagedRow system input) }
  | .read call input =>
      match system.phases call with
      | .start => readStep system call input
      | _ => system
  | .load call reads =>
      match system.phases call with
      | .read input pending =>
          if input.decision = .accept then
            system.setPhase call (.loaded input pending (executionContext system reads))
          else system
      | _ => system
  | .execute call granted =>
      match system.phases call with
      | .loaded input pending ctx => executeStep system call input pending ctx granted
      | _ => system
  | .update call =>
      match system.phases call with
      | .read input pending =>
          if input.decision = .reject then
            updateStep system call input pending .rejected { status := .rejected }
          else system
      | .executed input pending execOutcome =>
          updateStep system call input pending .accepted
            { status := .accepted, executionOutcome := some execOutcome }
      | _ => system
  | .finish call =>
      match system.phases call with
      | .updated input result => system.setPhase call (.returned input result)
      | _ => system

section Table

theorem get_of_mem {table : List PendingAction} (hdistinct : (table.map PendingAction.id).Nodup)
    {row : PendingAction} (h : row ∈ table) : getPendingAgentAction table row.id = some row := by
  have hsome : (getPendingAgentAction table row.id).isSome := by
    rw [getPendingAgentAction, List.find?_isSome]
    exact ⟨row, h, by simp⟩
  obtain ⟨found, hfound⟩ := Option.isSome_iff_exists.mp hsome
  have hmem := List.mem_of_find?_eq_some hfound
  have hid : found.id = row.id := by simpa using List.find?_some hfound
  rw [hfound, List.inj_on_of_nodup_map hdistinct hmem h hid]

theorem mem_of_get {table : List PendingAction} {id : String} {row : PendingAction}
    (h : getPendingAgentAction table id = some row) : row ∈ table ∧ row.id = id :=
  ⟨List.mem_of_find?_eq_some h, by simpa using List.find?_some h⟩

/-- Staging adds at most the one row, and only under an id no row has. -/
theorem create_cases (table : List PendingAction) (fresh : PendingAction) :
    createPendingAgentActionIfAbsent table fresh = table ∨
      (createPendingAgentActionIfAbsent table fresh = table ++ [fresh] ∧
        ∀ row ∈ table, row.id ≠ fresh.id ∧ row.actionClass ≠ fresh.actionClass) := by
  unfold createPendingAgentActionIfAbsent
  by_cases hclass : table.any (fun row => row.actionClass = fresh.actionClass) = true
  · rw [if_pos hclass]
    exact Or.inl rfl
  · rw [if_neg hclass]
    by_cases hid : table.any (fun row => row.id = fresh.id) = true
    · rw [if_pos hid]
      exact Or.inl rfl
    · rw [if_neg hid]
      simp only [List.any_eq_true, decide_eq_true_eq, not_exists, not_and] at hclass hid
      exact Or.inr ⟨rfl, fun row hrow => ⟨hid row hrow, hclass row hrow⟩⟩

theorem create_distinct {table : List PendingAction}
    (hdistinct : (table.map PendingAction.id).Nodup) (fresh : PendingAction) :
    ((createPendingAgentActionIfAbsent table fresh).map PendingAction.id).Nodup := by
  rcases create_cases table fresh with h | h
  · rw [h]
    exact hdistinct
  · rw [h.1, List.map_append, List.map_singleton, List.nodup_append]
    refine ⟨hdistinct, List.nodup_singleton _, fun id hid other hother => ?_⟩
    obtain ⟨row, hrow, rfl⟩ := List.mem_map.mp hid
    rw [List.mem_singleton.mp hother]
    exact (h.2 row hrow).1

theorem mem_create {table : List PendingAction} {row : PendingAction} (h : row ∈ table)
    (fresh : PendingAction) : row ∈ createPendingAgentActionIfAbsent table fresh := by
  rcases create_cases table fresh with hsame | hnew
  · rw [hsame]
    exact h
  · rw [hnew.1]
    exact List.mem_append_left _ h

theorem set_ids (table : List PendingAction) (id : String) (status : PendingStatus)
    (decidedBy : String) :
    (setPendingAgentActionStatus table id status decidedBy).map PendingAction.id =
      table.map PendingAction.id := by
  rw [setPendingAgentActionStatus, List.map_map]
  apply List.map_congr_left
  intro row _
  dsimp only [Function.comp]
  split_ifs <;> rfl

theorem mem_set_iff (table : List PendingAction) (id : String) (status : PendingStatus)
    (decidedBy : String) (row : PendingAction) :
    row ∈ setPendingAgentActionStatus table id status decidedBy ↔
      ∃ old ∈ table, (if old.id = id then decidedAction old status decidedBy else old) = row := by
  rw [setPendingAgentActionStatus, List.mem_map]
  rfl

end Table

section Effects

/-- What an event does, together with the phase its call waits for it in. -/
inductive Effect (system : System) : Event → System → Prop
  | idle (event : Event) : Effect system event system
  | push (sha : String) : Effect system (.push sha) { system with live := sha }
  | upsert (headSha : Option String) :
      Effect system (.upsert headSha) { system with stored := headSha.or system.stored }
  | stage (input : StageInput) : Effect system (.stage input)
      { system with
        table := createPendingAgentActionIfAbsent system.table (stagedRow system input) }
  | read (call : ℕ) (input : DecideInput) (hphase : system.phases call = .start) :
      Effect system (.read call input) (readStep system call input)
  | load (call : ℕ) (reads : DecideReads) (input : DecideInput) (pending : PendingAction)
      (hphase : system.phases call = .read input pending) : Effect system (.load call reads)
      (system.setPhase call (.loaded input pending (executionContext system reads)))
  | execute (call : ℕ) (granted : Bool) (input : DecideInput) (pending : PendingAction)
      (ctx : AgentActionExecutionContext)
      (hphase : system.phases call = .loaded input pending ctx) :
      Effect system (.execute call granted) (executeStep system call input pending ctx granted)
  | reject (call : ℕ) (input : DecideInput) (pending : PendingAction)
      (hphase : system.phases call = .read input pending) : Effect system (.update call)
      (updateStep system call input pending .rejected { status := .rejected })
  | accept (call : ℕ) (input : DecideInput) (pending : PendingAction) (execOutcome : OutcomeKind)
      (hphase : system.phases call = .executed input pending execOutcome) :
      Effect system (.update call) (updateStep system call input pending .accepted
        { status := .accepted, executionOutcome := some execOutcome })
  | finish (call : ℕ) (input : DecideInput) (result : ApprovalDecisionResult)
      (hphase : system.phases call = .updated input result) :
      Effect system (.finish call) (system.setPhase call (.returned input result))

theorem step_effect (system : System) (event : Event) :
    Effect system event (step system event) := by
  cases event with
  | push sha => exact .push sha
  | upsert headSha => exact .upsert headSha
  | stage input => exact .stage input
  | read call input =>
    cases hphase : system.phases call with
    | start =>
      simp only [step, hphase]
      exact .read call input hphase
    | read _ _ | loaded _ _ _ | executed _ _ _ | updated _ _ | returned _ _ =>
      simp only [step, hphase]
      exact .idle _
  | load call reads =>
    cases hphase : system.phases call with
    | read input pending =>
      simp only [step, hphase]
      by_cases haccept : input.decision = .accept
      · rw [if_pos haccept]
        exact .load call reads input pending hphase
      · rw [if_neg haccept]
        exact .idle _
    | start | loaded _ _ _ | executed _ _ _ | updated _ _ | returned _ _ =>
      simp only [step, hphase]
      exact .idle _
  | execute call granted =>
    cases hphase : system.phases call with
    | loaded input pending ctx =>
      simp only [step, hphase]
      exact .execute call granted input pending ctx hphase
    | start | read _ _ | executed _ _ _ | updated _ _ | returned _ _ =>
      simp only [step, hphase]
      exact .idle _
  | update call =>
    cases hphase : system.phases call with
    | read input pending =>
      simp only [step, hphase]
      by_cases hreject : input.decision = .reject
      · rw [if_pos hreject]
        exact .reject call input pending hphase
      · rw [if_neg hreject]
        exact .idle _
    | executed input pending execOutcome =>
      simp only [step, hphase]
      exact .accept call input pending execOutcome hphase
    | start | loaded _ _ _ | updated _ _ | returned _ _ =>
      simp only [step, hphase]
      exact .idle _
  | finish call =>
    cases hphase : system.phases call with
    | updated input result =>
      simp only [step, hphase]
      exact .finish call input result hphase
    | start | read _ _ | loaded _ _ _ | executed _ _ _ | returned _ _ =>
      simp only [step, hphase]
      exact .idle _

end Effects

end Gittensory.ApprovalQueue
