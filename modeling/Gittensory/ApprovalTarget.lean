import Gittensory.ApprovalQueue

/-!
Which commit an accepted action acts on. The staged row has no head, so an acceptance
hands the executor whatever head the stored pull request has by then, and the guard a
merge carries protects that head, not the planned one; an approval and a closing name no
commit at all. The planned head is acted on as long as it stays the head, from the
staging of the row until nobody can act on the row any more.
-/
namespace Gittensory.ApprovalTarget

open AgentActions AgentExecutor ApprovalQueue Autonomy GuardedRun JsValue

/-- The classes that act on a commit. -/
def ActsOnHead (actionClass : AgentActionClass) : Prop :=
  actionClass = .merge ∨ actionClass = .approve ∨ actionClass = .close

/-- The classes whose requests name no commit. -/
def NamesNoHead (actionClass : AgentActionClass) : Prop :=
  actionClass = .approve ∨ actionClass = .close

/-- The row a call has read as pending and not executed yet. -/
def heldRow : CallPhase → Option PendingAction
  | .read _ pending => some pending
  | .loaded _ pending _ => some pending
  | _ => none

/-- The context a call is about to execute its row with. -/
def loadedContext : CallPhase → Option (PendingAction × AgentActionExecutionContext)
  | .loaded _ pending ctx => some (pending, ctx)
  | _ => none

/-- The row is pending, or a call still holds it. -/
def Undecided (system : System) (row : PendingAction) : Prop :=
  (row ∈ system.table ∧ row.status = .pending) ∨
    ∃ call, heldRow (system.phases call) = some row

/-- While a row is undecided the stored head stays, and for a class whose request names no
commit the head at GitHub too; such a row is staged for the head at GitHub. -/
def HeadStays (system : System) : Event → Prop
  | .push sha => sha = system.live ∨ ∀ row, Undecided system row →
      ¬ NamesNoHead row.actionClass ∧ (row.actionClass = .merge → truthy system.stored = true)
  | .upsert headSha => headSha.or system.stored = system.stored ∨
      ∀ row, Undecided system row → ¬ ActsOnHead row.actionClass
  | .stage input => NamesNoHead input.actionClass →
      (∀ row ∈ system.table, row.actionClass ≠ input.actionClass) → system.head = system.live
  | _ => True

/-- An empty queue; the pull request has any head. -/
structure Fresh (system : System) : Prop where
  table : system.table = []
  unread : ∀ call, system.phases call = .start
  acted : system.acted = []

/-- The row was planned for the head the pull request still has. -/
structure Current (system : System) (row : PendingAction) : Prop where
  head : ActsOnHead row.actionClass → row.plannedFor = system.head
  live : NamesNoHead row.actionClass → row.plannedFor = system.live

structure OnPlan (system : System) : Prop where
  current : ∀ row, Undecided system row → Current system row
  loaded : ∀ call row ctx, loadedContext (system.phases call) = some (row, ctx) →
    ActsOnHead row.actionClass → ctx.headSha = system.stored
  acted : ∀ action ∈ system.acted, action.target = action.plannedFor

theorem head_of_present {system : System} {sha : String} (h : present system.stored = some sha) :
    system.head = sha := by
  rw [System.head, h, Option.getD_some]

theorem head_of_absent {system : System} (h : present system.stored = none) :
    system.head = system.live := by
  rw [System.head, h, Option.getD_none]

theorem present_of_truthy {value : Option String} (h : truthy value = true) :
    present value = value := by
  cases value with
  | none => rfl
  | some text =>
    have hne : text ≠ "" := by simpa [truthy] using h
    simp [present, hne]

/-- What an executed action brought about is on the head at GitHub, which for a merge is
the head it names. -/
theorem acted_of_executeStaged {live : String} {ctx : AgentActionExecutionContext}
    {pending : PendingAction} {granted : Bool} {action : Acted}
    (h : action ∈ (executeStaged live ctx pending granted).2) :
    action.target = live ∧ action.plannedFor = pending.plannedFor ∧
      (NamesNoHead pending.actionClass ∨
        (pending.actionClass = .merge ∧ ∀ sha, present ctx.headSha = some sha → sha = live)) := by
  unfold executeStaged at h
  dsimp only at h
  cases hstopped : stoppedBy ctx (pendingActionToPlanned pending) with
  | some outcome =>
    rw [hstopped] at h
    cases h
  | none =>
    rw [hstopped] at h
    dsimp only at h
    by_cases hall : (performAction ctx (pendingActionToPlanned pending)).all
        (ReviewRun.succeeds live granted) = true
    · rw [if_pos hall] at h
      obtain ⟨request, hrequest, heffect⟩ := List.mem_filterMap.mp h
      have hsucceeds := List.all_eq_true.mp hall request hrequest
      have htarget : action.target = live ∧ action.plannedFor = pending.plannedFor := by
        unfold actsOn at heffect
        split at heffect <;> cases heffect <;> exact ⟨rfl, rfl⟩
      refine ⟨htarget.1, htarget.2, ?_⟩
      cases hclass : pending.actionClass with
      | approve => exact Or.inl (Or.inl rfl)
      | close => exact Or.inl (Or.inr rfl)
      | merge =>
        simp only [performAction, pendingActionToPlanned, hclass, List.mem_singleton] at hrequest
        refine Or.inr ⟨rfl, fun sha hsha => ?_⟩
        rw [hrequest, hsha] at hsucceeds
        simp only [ReviewRun.succeeds, Bool.and_eq_true, decide_eq_true_eq] at hsucceeds
        exact hsucceeds.2
      | review =>
        simp [performAction, pendingActionToPlanned, hclass] at hrequest
      | label =>
        simp only [performAction, pendingActionToPlanned, hclass, List.mem_singleton] at hrequest
        rw [hrequest] at heffect
        cases heffect
      | requestChanges =>
        simp only [performAction, pendingActionToPlanned, hclass, List.mem_singleton] at hrequest
        rw [hrequest] at heffect
        cases heffect
    · rw [if_neg hall] at h
      cases h

section Steps

variable {system : System}

theorem heldRow_of_loaded {phase : CallPhase} {row : PendingAction}
    {ctx : AgentActionExecutionContext} (h : loadedContext phase = some (row, ctx)) :
    heldRow phase = some row := by
  cases phase with
  | loaded _ pending _ => cases h; rfl
  | start | read _ _ | executed _ _ _ | updated _ _ | returned _ _ => cases h

/-- A step that leaves heads and earlier effects alone, and makes nothing undecided. -/
theorem OnPlan.settle (h : OnPlan system) (after : System) (hlive : after.live = system.live)
    (hstored : after.stored = system.stored) (hacted : after.acted = system.acted)
    (hundecided : ∀ row, Undecided after row → Undecided system row)
    (hloaded : ∀ call row ctx, loadedContext (after.phases call) = some (row, ctx) →
      loadedContext (system.phases call) = some (row, ctx) ∨ ctx.headSha = system.stored) :
    OnPlan after := by
  have hhead : after.head = system.head := by
    rw [System.head, System.head, hlive, hstored]
  refine ⟨fun row hrow => ?_, fun call row ctx hphase hacts => ?_, ?_⟩
  · have hcurrent := h.current row (hundecided row hrow)
    exact ⟨fun hacts => (hcurrent.head hacts).trans hhead.symm,
      fun hnames => (hcurrent.live hnames).trans hlive.symm⟩
  · rw [hstored]
    rcases hloaded call row ctx hphase with hold | hnew
    · exact h.loaded call row ctx hold hacts
    · exact hnew
  · rw [hacted]
    exact h.acted

theorem phase_setPhase (system : System) (call other : ℕ) (phase : CallPhase) :
    (system.setPhase call phase).phases other = phase ∨
      (system.setPhase call phase).phases other = system.phases other := by
  change Function.update system.phases call phase other = phase ∨
    Function.update system.phases call phase other = system.phases other
  by_cases hother : other = call
  · exact Or.inl (by rw [hother, Function.update_self])
  · exact Or.inr (Function.update_of_ne hother ..)

theorem undecided_setPhase {call : ℕ} {phase : CallPhase} {row : PendingAction}
    (h : Undecided (system.setPhase call phase) row) :
    Undecided system row ∨ heldRow phase = some row := by
  rcases h with htable | ⟨other, hheld⟩
  · exact Or.inl (Or.inl htable)
  · rcases phase_setPhase system call other phase with hnew | hold
    · exact Or.inr (by rw [← hnew]; exact hheld)
    · exact Or.inl (Or.inr ⟨other, by rw [← hold]; exact hheld⟩)

theorem loadedContext_setPhase {call other : ℕ} {phase : CallPhase}
    {loaded : PendingAction × AgentActionExecutionContext}
    (h : loadedContext ((system.setPhase call phase).phases other) = some loaded) :
    loadedContext (system.phases other) = some loaded ∨ loadedContext phase = some loaded := by
  rcases phase_setPhase system call other phase with hnew | hold
  · exact Or.inr (by rw [← hnew]; exact h)
  · exact Or.inl (by rw [← hold]; exact h)

/-- A call that goes on: with a row that was undecided, and the context read just now. -/
theorem OnPlan.setPhase (h : OnPlan system) (call : ℕ) (phase : CallPhase)
    (hheld : ∀ row, heldRow phase = some row → Undecided system row)
    (hloaded : ∀ row ctx, loadedContext phase = some (row, ctx) → ctx.headSha = system.stored) :
    OnPlan (system.setPhase call phase) := by
  refine h.settle _ rfl rfl rfl (fun row hrow => ?_) (fun other row ctx hphase => ?_)
  · exact (undecided_setPhase hrow).elim (fun hold => hold) (hheld row)
  · exact (loadedContext_setPhase hphase).imp_right (hloaded row ctx)

/-- A call that holds no row any more. -/
theorem OnPlan.setPhase_done (h : OnPlan system) (call : ℕ) (phase : CallPhase)
    (hheld : heldRow phase = none) (hloaded : loadedContext phase = none) :
    OnPlan (system.setPhase call phase) := by
  apply h.setPhase
  · intro row hrow
    rw [hheld] at hrow
    cases hrow
  · intro row ctx hrow
    rw [hloaded] at hrow
    cases hrow

theorem push_onPlan (h : OnPlan system) (sha : String) (hstays : HeadStays system (.push sha)) :
    OnPlan (step system (.push sha)) := by
  rcases hstays with rfl | hstays
  · exact h
  · refine ⟨fun row hrow => ?_, h.loaded, h.acted⟩
    obtain ⟨hnames, hmerge⟩ := hstays row hrow
    refine ⟨fun hacts => ?_, fun hno => absurd hno hnames⟩
    have htruthy := hmerge (hacts.resolve_right hnames)
    obtain ⟨stored, hstored⟩ : ∃ stored, system.stored = some stored := by
      cases hnone : system.stored with
      | none => rw [hnone] at htruthy; cases htruthy
      | some stored => exact ⟨stored, rfl⟩
    have hpresent : present system.stored = some stored :=
      (present_of_truthy htruthy).trans hstored
    have hbefore : row.plannedFor = stored :=
      ((h.current row hrow).head hacts).trans (head_of_present hpresent)
    have hafter : (step system (.push sha)).head = stored := head_of_present hpresent
    exact hbefore.trans hafter.symm

theorem upsert_onPlan (h : OnPlan system) (headSha : Option String)
    (hstays : HeadStays system (.upsert headSha)) : OnPlan (step system (.upsert headSha)) := by
  rcases hstays with hsame | hstays
  · have heq : step system (.upsert headSha) = system := by
      simp only [step, hsame]
    rw [heq]
    exact h
  · refine ⟨fun row hrow => ⟨fun hacts => absurd hacts (hstays row hrow),
      fun hnames => absurd (Or.inr hnames) (hstays row hrow)⟩,
      fun call row ctx hphase hacts => ?_, h.acted⟩
    exact absurd hacts (hstays row (Or.inr ⟨call, heldRow_of_loaded hphase⟩))

theorem stage_onPlan (h : OnPlan system) (input : StageInput)
    (hstays : HeadStays system (.stage input)) : OnPlan (step system (.stage input)) := by
  rcases create_cases system.table (stagedRow system input) with hsame | ⟨happend, hnew⟩
  · have heq : step system (.stage input) = system := by
      simp only [step, hsame]
    rw [heq]
    exact h
  · refine ⟨fun row hrow => ?_, h.loaded, h.acted⟩
    have hcases : Undecided system row ∨ row = stagedRow system input := by
      rcases hrow with ⟨htable, hpending⟩ | hphases
      · change row ∈ createPendingAgentActionIfAbsent system.table (stagedRow system input)
          at htable
        rw [happend] at htable
        rcases List.mem_append.mp htable with hold | hfresh
        · exact Or.inl (Or.inl ⟨hold, hpending⟩)
        · exact Or.inr (List.mem_singleton.mp hfresh)
      · exact Or.inl (Or.inr hphases)
    rcases hcases with hold | rfl
    · exact ⟨(h.current row hold).head, (h.current row hold).live⟩
    · refine ⟨fun _ => rfl, fun hnames => ?_⟩
      exact hstays hnames (fun row hrow => (hnew row hrow).2)

theorem read_onPlan (h : OnPlan system) (call : ℕ) (input : DecideInput) :
    OnPlan (readStep system call input) := by
  unfold readStep
  cases hget : getPendingAgentAction system.table input.id with
  | none => exact h.setPhase_done call _ rfl rfl
  | some pending =>
    dsimp only
    by_cases hdecided : pending.status ≠ .pending
    · rw [if_pos hdecided]
      exact h.setPhase_done call _ rfl rfl
    · rw [if_neg hdecided]
      refine h.setPhase call _ (fun row hrow => ?_) (fun row ctx hrow => nomatch hrow)
      cases hrow
      exact Or.inl ⟨(mem_of_get hget).1, not_not.mp hdecided⟩

theorem load_onPlan (h : OnPlan system) (call : ℕ) (input : DecideInput) (pending : PendingAction)
    (reads : DecideReads) (hphase : system.phases call = .read input pending) :
    OnPlan (system.setPhase call (.loaded input pending (executionContext system reads))) := by
  refine h.setPhase call _ (fun row hrow => ?_) (fun row ctx hrow => ?_)
  · cases hrow
    exact Or.inr ⟨call, by rw [hphase]; rfl⟩
  · cases hrow
    rfl

/-- The planned head is still the head, so that is what the action acts on. -/
theorem execute_onPlan (h : OnPlan system) (call : ℕ) (input : DecideInput)
    (pending : PendingAction) (ctx : AgentActionExecutionContext) (granted : Bool)
    (hphase : system.phases call = .loaded input pending ctx) :
    OnPlan (executeStep system call input pending ctx granted) := by
  have hcurrent := h.current pending (Or.inr ⟨call, by rw [hphase]; rfl⟩)
  have hidle : OnPlan (system.setPhase call
      (.executed input pending (executeStaged system.live ctx pending granted).1)) :=
    h.setPhase_done call _ rfl rfl
  refine ⟨fun row hrow => ?_, hidle.loaded, fun action haction => ?_⟩
  · exact ⟨(hidle.current row hrow).head, (hidle.current row hrow).live⟩
  rcases List.mem_append.mp haction with hold | hnew
  · exact h.acted action hold
  · obtain ⟨htarget, hplanned, hclass⟩ := acted_of_executeStaged hnew
    rw [htarget, hplanned]
    rcases hclass with hnames | ⟨hmerge, hsha⟩
    · exact (hcurrent.live hnames).symm
    · have hacts : ActsOnHead pending.actionClass := Or.inl hmerge
      have hheld := h.loaded call pending ctx (by rw [hphase]; rfl) hacts
      rw [hcurrent.head hacts]
      cases hpresent : present system.stored with
      | none => exact (head_of_absent hpresent).symm
      | some sha =>
        rw [head_of_present hpresent]
        exact (hsha sha (by rw [hheld]; exact hpresent)).symm

theorem update_onPlan (h : OnPlan system) (call : ℕ) (input : DecideInput)
    (pending : PendingAction) (status : PendingStatus) (hstatus : status ≠ .pending)
    (result : ApprovalDecisionResult) :
    OnPlan (updateStep system call input pending status result) := by
  refine h.settle _ rfl rfl rfl (fun row hrow => ?_) (fun other row ctx hphase => ?_)
  · rcases hrow with ⟨htable, hpending⟩ | hheld
    · change row ∈ setPendingAgentActionStatus system.table pending.id status input.decidedBy
        at htable
      obtain ⟨old, hold, heq⟩ := (mem_set_iff ..).mp htable
      by_cases hid : old.id = pending.id
      · rw [if_pos hid] at heq
        rw [← heq] at hpending
        exact absurd hpending hstatus
      · rw [if_neg hid] at heq
        rw [← heq] at hpending ⊢
        exact Or.inl ⟨hold, hpending⟩
    · exact (undecided_setPhase (Or.inr hheld)).resolve_right nofun
  · exact Or.inl ((loadedContext_setPhase hphase).resolve_right nofun)

theorem step_onPlan (system : System) (event : Event) (h : OnPlan system)
    (hstays : HeadStays system event) : OnPlan (step system event) := by
  have heffect := step_effect system event
  generalize step system event = after at heffect ⊢
  cases heffect with
  | idle => exact h
  | push sha => exact push_onPlan h sha hstays
  | upsert headSha => exact upsert_onPlan h headSha hstays
  | stage input => exact stage_onPlan h input hstays
  | read call input _ => exact read_onPlan h call input
  | load call reads input pending hphase => exact load_onPlan h call input pending reads hphase
  | execute call granted input pending ctx hphase =>
    exact execute_onPlan h call input pending ctx granted hphase
  | reject call input pending _ => exact update_onPlan h call input pending .rejected nofun _
  | accept call input pending _ _ => exact update_onPlan h call input pending .accepted nofun _
  | finish call input result _ => exact h.setPhase_done call _ rfl rfl

theorem fresh_onPlan (h : Fresh system) : OnPlan system := by
  refine ⟨fun row hrow => ?_, fun call row ctx hphase => ?_, ?_⟩
  · rcases hrow with ⟨htable, -⟩ | ⟨call, hheld⟩
    · rw [h.table] at htable
      cases htable
    · rw [h.unread call] at hheld
      cases hheld
  · rw [h.unread call] at hphase
    cases hphase
  · rw [h.acted]
    exact nofun

end Steps

def openPull : System where
  repoFullName := "owner/repo"
  pullNumber := 7
  live := "h1"
  stored := some "h1"
  table := []
  phases := fun _ => .start
  handed := []
  acted := []

theorem openPull_fresh : Fresh openPull := ⟨rfl, fun _ => rfl, rfl⟩

def mergeInput : StageInput where
  id := "p1"
  actionClass := .merge
  autonomyLevel := .autoWithApproval
  params := { mergeMethod := some .squash }
  reason := some "clean"

def grantedReads : DecideReads where
  autonomy := some (fun _ => some .autoWithApproval)
  globalPaused := false
  agentPaused := none
  agentDryRun := none
  installationPermissions := some "write"

/-- An acceptance without interruption. -/
def accepted : List Event :=
  [.read 0 ⟨"p1", .accept, "ann"⟩, .load 0 grantedReads, .execute 0 true, .update 0, .finish 0]

end Gittensory.ApprovalTarget
