import Gittensory.ApprovalQueue

/-!
Several maintainers decide one staged action. The update of the row does not ask whether
the row is still pending, so two calls that have both read it as pending both act on it.
As long as a call reads the row only after every other call that read it as pending has
updated it, one call is the actor: it alone executes or rejects, the row says what it
returned, and all others find the action decided.
-/
namespace Gittensory.ApprovalAgreement

open ApprovalQueue GuardedRun

/-- The call has read the row of this id as pending and has not updated it yet. -/
def Holds (id : String) : CallPhase → Prop
  | .read input _ => input.id = id
  | .loaded input _ _ => input.id = id
  | .executed input _ _ => input.id = id
  | _ => False

/-- The call has decided the action of this id. -/
def Decides (id : String) : CallPhase → Prop
  | .updated input result => input.id = id ∧ result.status ≠ .alreadyDecided
  | .returned input result => input.id = id ∧ result.status ≠ .alreadyDecided
  | _ => False

/-- What the calls on one id and its row agree about. -/
structure Agreement (system : System) (id : String) : Prop where
  executedOnce : system.handed.count id ≤ 1
  rejectedUnexecuted : ∀ call input result, system.phases call = .returned input result →
    input.id = id → result.status = .rejected → id ∉ system.handed
  oneDecision : ∀ call other input input' result result',
    system.phases call = .returned input result → input.id = id →
    result.status ≠ .alreadyDecided →
    system.phases other = .returned input' result' → input'.id = id →
    result'.status ≠ .alreadyDecided → call = other
  rowAgrees : ∀ call input result, system.phases call = .returned input result →
    input.id = id → result.status ≠ .alreadyDecided →
    ∃ row ∈ system.table, row.id = id ∧ row.decidedBy = some input.decidedBy ∧
      ((result.status = .accepted ∧ row.status = .accepted) ∨
        (result.status = .rejected ∧ row.status = .rejected))

/-- A queue with a pending row of this id and no call under way. -/
structure Staged (system : System) (id : String) : Prop where
  distinct : (system.table.map PendingAction.id).Nodup
  pending : ∃ row ∈ system.table, row.id = id ∧ row.status = .pending
  unread : ∀ call, system.phases call = .start
  unhanded : system.handed = []

/-- A call reads a row only while no other call holds it. -/
def ReadsAlone (system : System) : Event → Prop
  | .read _ input => ∀ other, ¬ Holds input.id (system.phases other)
  | _ => True

section Actor

variable (system : System) (id : String)

def RowPending : Prop := ∃ row ∈ system.table, row.id = id ∧ row.status = .pending

/-- The row after the call of this input and result has decided. -/
def Closed (input : DecideInput) (result : ApprovalDecisionResult) : Prop :=
  ∃ row ∈ system.table, row.id = id ∧ row.decidedBy = some input.decidedBy ∧
    ((result.status = .accepted ∧ row.status = .accepted ∧ system.handed.count id = 1) ∨
      (result.status = .rejected ∧ row.status = .rejected ∧ system.handed.count id = 0))

/-- The row and the executions while the actor is at this phase. -/
def Standing : CallPhase → Prop
  | .start => False
  | .read _ _ => RowPending system id ∧ system.handed.count id = 0
  | .loaded _ _ _ => RowPending system id ∧ system.handed.count id = 0
  | .executed _ _ _ => RowPending system id ∧ system.handed.count id = 1
  | .updated input result => Closed system id input result
  | .returned input result => Closed system id input result

/-- Calls work on the row they asked for. -/
def Matched : CallPhase → Prop
  | .read input pending => pending.id = input.id
  | .loaded input pending _ => pending.id = input.id
  | .executed input pending _ => pending.id = input.id
  | _ => True

/-- Whatever concerns the id is the doing of one call. -/
structure Ordered (actor : Option ℕ) : Prop where
  distinct : (system.table.map PendingAction.id).Nodup
  matched : ∀ call, Matched (system.phases call)
  alone : ∀ call, Holds id (system.phases call) ∨ Decides id (system.phases call) →
    actor = some call
  untouched : actor = none → RowPending system id ∧ system.handed.count id = 0
  standing : ∀ call, actor = some call →
    (Holds id (system.phases call) ∨ Decides id (system.phases call)) ∧
      Standing system id (system.phases call)

end Actor

section Frame

variable {system after : System} {id : String}

/-- The rows of this id and the executions of it are as they were. -/
structure Untouched (system after : System) (id : String) : Prop where
  distinct : (after.table.map PendingAction.id).Nodup
  rows : ∀ row ∈ system.table, row.id = id → row ∈ after.table
  handed : after.handed.count id = system.handed.count id

theorem RowPending.frame (h : RowPending system id) (hsame : Untouched system after id) :
    RowPending after id := by
  obtain ⟨row, hrow, hid, hstatus⟩ := h
  exact ⟨row, hsame.rows row hrow hid, hid, hstatus⟩

theorem Closed.frame {input : DecideInput} {result : ApprovalDecisionResult}
    (h : Closed system id input result) (hsame : Untouched system after id) :
    Closed after id input result := by
  obtain ⟨row, hrow, hid, hby, hstatus⟩ := h
  exact ⟨row, hsame.rows row hrow hid, hid, hby, by rw [hsame.handed]; exact hstatus⟩

theorem Standing.frame {phase : CallPhase} (h : Standing system id phase)
    (hsame : Untouched system after id) : Standing after id phase := by
  cases phase with
  | start => exact h
  | read _ _ => exact ⟨h.1.frame hsame, hsame.handed.trans h.2⟩
  | loaded _ _ _ => exact ⟨h.1.frame hsame, hsame.handed.trans h.2⟩
  | executed _ _ _ => exact ⟨h.1.frame hsame, hsame.handed.trans h.2⟩
  | updated _ _ => exact Closed.frame h hsame
  | returned _ _ => exact Closed.frame h hsame

/-- A step of a call that has nothing to do with the id. -/
theorem Ordered.other {actor : Option ℕ} (h : Ordered system id actor) {call : ℕ}
    {phase : CallPhase} (hphases : after.phases = Function.update system.phases call phase)
    (hbefore : ¬ (Holds id (system.phases call) ∨ Decides id (system.phases call)))
    (hafter : ¬ (Holds id phase ∨ Decides id phase)) (hmatched : Matched phase)
    (hsame : Untouched system after id) : Ordered after id actor := by
  have hcase : ∀ other, (after.phases other = phase ∧ other = call) ∨
      (after.phases other = system.phases other ∧ other ≠ call) := by
    intro other
    rw [hphases]
    by_cases hother : other = call
    · exact Or.inl ⟨by rw [hother, Function.update_self], hother⟩
    · exact Or.inr ⟨Function.update_of_ne hother .., hother⟩
  refine ⟨hsame.distinct, fun other => ?_, fun other hother => ?_, fun hnone => ?_,
    fun other hother => ?_⟩
  · rcases hcase other with ⟨hnew, -⟩ | ⟨hold, -⟩
    · rw [hnew]
      exact hmatched
    · rw [hold]
      exact h.matched other
  · rcases hcase other with ⟨hnew, -⟩ | ⟨hold, -⟩
    · rw [hnew] at hother
      exact absurd hother hafter
    · rw [hold] at hother
      exact h.alone other hother
  · obtain ⟨hpending, hcount⟩ := h.untouched hnone
    exact ⟨hpending.frame hsame, hsame.handed.trans hcount⟩
  · obtain ⟨hconcerns, hstanding⟩ := h.standing other hother
    rcases hcase other with ⟨-, rfl⟩ | ⟨hold, -⟩
    · exact absurd hconcerns hbefore
    · rw [hold]
      exact ⟨hconcerns, hstanding.frame hsame⟩

/-- A step of the call that is, or from now on is, the actor. -/
theorem Ordered.actor {actor : Option ℕ} (h : Ordered system id actor) {call : ℕ}
    {phase : CallPhase} (hphases : after.phases = Function.update system.phases call phase)
    (hactor : ∀ other, actor = some other → other = call)
    (hdistinct : (after.table.map PendingAction.id).Nodup) (hmatched : Matched phase)
    (hafter : Holds id phase ∨ Decides id phase) (hstanding : Standing after id phase) :
    Ordered after id (some call) := by
  have hself : after.phases call = phase := by rw [hphases, Function.update_self]
  have hothers : ∀ other, other ≠ call → after.phases other = system.phases other := by
    intro other hother
    rw [hphases, Function.update_of_ne hother]
  refine ⟨hdistinct, fun other => ?_, fun other hother => ?_, nofun, fun other hother => ?_⟩
  · by_cases heq : other = call
    · rw [heq, hself]
      exact hmatched
    · rw [hothers other heq]
      exact h.matched other
  · by_cases heq : other = call
    · rw [heq]
    · rw [hothers other heq] at hother
      rw [hactor other (h.alone other hother)]
  · cases hother
    rw [hself]
    exact ⟨hafter, hstanding⟩

/-- A call that holds or has decided the row is the actor, and the row stands as its phase
says. -/
theorem Ordered.acting {actor : Option ℕ} (h : Ordered system id actor) {call : ℕ}
    {phase : CallPhase} (hphase : system.phases call = phase)
    (hconcerns : Holds id phase ∨ Decides id phase) :
    actor = some call ∧ Standing system id phase := by
  subst hphase
  have hactor := h.alone call hconcerns
  exact ⟨hactor, (h.standing call hactor).2⟩

/-- A step of the actor. -/
theorem Ordered.again {actor : Option ℕ} (h : Ordered system id actor) {call : ℕ}
    {phase : CallPhase} (hactor : actor = some call)
    (hphases : after.phases = Function.update system.phases call phase)
    (hdistinct : (after.table.map PendingAction.id).Nodup) (hmatched : Matched phase)
    (hafter : Holds id phase ∨ Decides id phase) (hstanding : Standing after id phase) :
    Ordered after id (some call) := by
  refine h.actor hphases (fun other hother => ?_) hdistinct hmatched hafter hstanding
  exact (Option.some.inj (hactor.symm.trans hother)).symm

/-- An event that changes no phase. -/
theorem Ordered.frame {actor : Option ℕ} (h : Ordered system id actor)
    (hphases : after.phases = system.phases) (hsame : Untouched system after id) :
    Ordered after id actor := by
  refine ⟨hsame.distinct, fun call => ?_, fun call hcall => ?_, fun hnone => ?_,
    fun call hcall => ?_⟩
  · rw [hphases]
    exact h.matched call
  · rw [hphases] at hcall
    exact h.alone call hcall
  · obtain ⟨hpending, hcount⟩ := h.untouched hnone
    exact ⟨hpending.frame hsame, hsame.handed.trans hcount⟩
  · rw [hphases]
    obtain ⟨hconcerns, hstanding⟩ := h.standing call hcall
    exact ⟨hconcerns, hstanding.frame hsame⟩

theorem untouched_refl (hdistinct : (system.table.map PendingAction.id).Nodup)
    (htable : after.table = system.table) (hhanded : after.handed = system.handed) :
    Untouched system after id := by
  refine ⟨by rw [htable]; exact hdistinct, fun row hrow _ => ?_, by rw [hhanded]⟩
  rw [htable]
  exact hrow

end Frame

section Steps

variable {system : System} {id : String} {actor : Option ℕ}

theorem Ordered.exists_row (h : Ordered system id actor) : ∃ row ∈ system.table, row.id = id := by
  cases hactor : actor with
  | none =>
    obtain ⟨⟨row, hrow, hid, -⟩, -⟩ := h.untouched hactor
    exact ⟨row, hrow, hid⟩
  | some call =>
    obtain ⟨-, hstanding⟩ := h.standing call hactor
    cases hphase : system.phases call with
    | start => rw [hphase] at hstanding; exact hstanding.elim
    | read _ _ | loaded _ _ _ | executed _ _ _ =>
      rw [hphase] at hstanding
      obtain ⟨⟨row, hrow, hid, -⟩, -⟩ := hstanding
      exact ⟨row, hrow, hid⟩
    | updated _ _ | returned _ _ =>
      rw [hphase] at hstanding
      obtain ⟨row, hrow, hid, -⟩ := hstanding
      exact ⟨row, hrow, hid⟩

/-- With the row still pending there is an actor only if it holds the row. -/
theorem Ordered.holds_of_pending (h : Ordered system id actor) {call : ℕ}
    (hactor : actor = some call) {row : PendingAction} (hrow : row ∈ system.table)
    (hid : row.id = id) (hpending : row.status = .pending) : Holds id (system.phases call) := by
  obtain ⟨hconcerns, hstanding⟩ := h.standing call hactor
  rcases hconcerns with hholds | hdecides
  · exact hholds
  · have hclosed : ∃ input result, Closed system id input result := by
      cases hphase : system.phases call with
      | start | read _ _ | loaded _ _ _ | executed _ _ _ =>
        rw [hphase] at hdecides
        exact hdecides.elim
      | updated input result | returned input result =>
        rw [hphase] at hstanding
        exact ⟨input, result, hstanding⟩
    obtain ⟨input, result, other, hother, hid', -, hstatus⟩ := hclosed
    have hsame : other = row :=
      List.inj_on_of_nodup_map h.distinct hother hrow (hid'.trans hid.symm)
    rw [hsame, hpending] at hstatus
    rcases hstatus with ⟨-, hwrong, -⟩ | ⟨-, hwrong, -⟩ <;> cases hwrong

theorem readStep_ordered (h : Ordered system id actor) (call : ℕ) (input : DecideInput)
    (hstart : system.phases call = .start)
    (halone : ∀ other, ¬ Holds input.id (system.phases other)) :
    ∃ actor, Ordered (readStep system call input) id actor := by
  have hbefore : ¬ (Holds id (system.phases call) ∨ Decides id (system.phases call)) := by
    rw [hstart]
    exact fun hno => hno.elim False.elim False.elim
  unfold readStep
  cases hget : getPendingAgentAction system.table input.id with
  | none =>
    refine ⟨actor, h.other rfl hbefore ?_ trivial (untouched_refl h.distinct rfl rfl)⟩
    intro hno
    obtain ⟨row, hrow, hid⟩ := h.exists_row
    have hinput : input.id = id := hno.elim False.elim And.left
    rw [hinput, ← hid, get_of_mem h.distinct hrow] at hget
    cases hget
  | some pending =>
    obtain ⟨hmem, hid⟩ := mem_of_get hget
    dsimp only
    by_cases hdecided : pending.status ≠ .pending
    · rw [if_pos hdecided]
      refine ⟨actor, h.other rfl hbefore ?_ trivial (untouched_refl h.distinct rfl rfl)⟩
      exact fun hno => hno.elim False.elim (fun hno => hno.2 rfl)
    · rw [if_neg hdecided]
      have hpending : pending.status = .pending := not_not.mp hdecided
      by_cases hinput : input.id = id
      · -- the row is pending and nobody holds it: the call becomes the actor
        refine ⟨some call, h.actor rfl (fun other hother => ?_) h.distinct hid (Or.inl hinput)
          ⟨⟨pending, hmem, hid.trans hinput, hpending⟩, ?_⟩⟩
        · have hholds := h.holds_of_pending hother hmem (hid.trans hinput) hpending
          exact absurd (hinput ▸ hholds) (halone other)
        · cases hactor : actor with
          | none => exact (h.untouched hactor).2
          | some other =>
            have hholds := h.holds_of_pending hactor hmem (hid.trans hinput) hpending
            exact absurd (hinput ▸ hholds) (halone other)
      · refine ⟨actor, h.other rfl hbefore ?_ hid (untouched_refl h.distinct rfl rfl)⟩
        exact fun hno => hno.elim hinput False.elim

theorem loadStep_ordered (h : Ordered system id actor) (call : ℕ) (input : DecideInput)
    (pending : PendingAction) (hphase : system.phases call = .read input pending)
    (ctx : AgentExecutor.AgentActionExecutionContext) :
    ∃ actor, Ordered (system.setPhase call (.loaded input pending ctx)) id actor := by
  have hmatched := h.matched call
  rw [hphase] at hmatched
  by_cases hinput : input.id = id
  · obtain ⟨hactor, hstanding⟩ := h.acting hphase (Or.inl hinput)
    exact ⟨some call, h.again hactor rfl h.distinct hmatched (Or.inl hinput) hstanding⟩
  · refine ⟨actor, h.other rfl ?_ ?_ hmatched (untouched_refl h.distinct rfl rfl)⟩
    · rw [hphase]
      exact fun hno => hno.elim hinput False.elim
    · exact fun hno => hno.elim hinput False.elim

theorem executeStep_ordered (h : Ordered system id actor) (call : ℕ) (input : DecideInput)
    (pending : PendingAction) (ctx : AgentExecutor.AgentActionExecutionContext) (granted : Bool)
    (hphase : system.phases call = .loaded input pending ctx) :
    ∃ actor, Ordered (executeStep system call input pending ctx granted) id actor := by
  have hmatched := h.matched call
  rw [hphase] at hmatched
  by_cases hinput : input.id = id
  · obtain ⟨hactor, hstanding⟩ := h.acting hphase (Or.inl hinput)
    refine ⟨some call, h.again hactor rfl h.distinct hmatched (Or.inl hinput)
      ⟨hstanding.1, ?_⟩⟩
    change (system.handed ++ [pending.id]).count id = 1
    rw [List.count_append, hstanding.2, hmatched.trans hinput]
    simp
  · refine ⟨actor, h.other rfl ?_ ?_ hmatched ⟨h.distinct, fun row hrow _ => hrow, ?_⟩⟩
    · rw [hphase]
      exact fun hno => hno.elim hinput False.elim
    · exact fun hno => hno.elim hinput False.elim
    · change (system.handed ++ [pending.id]).count id = system.handed.count id
      have hne : pending.id ≠ id := fun heq => hinput (hmatched.symm.trans heq)
      rw [List.count_append, List.count_singleton]
      simp [hne]

/-- The update, for a call that holds the row: it closes the row if it is the actor. -/
theorem updateStep_ordered (h : Ordered system id actor) (call : ℕ) (input : DecideInput)
    (pending : PendingAction) (status : PendingStatus) (result : ApprovalDecisionResult)
    (hmatched : pending.id = input.id)
    (hholds : Holds id (system.phases call) ↔ input.id = id)
    (hdecides : ¬ Decides id (system.phases call)) (hresult : result.status ≠ .alreadyDecided)
    (hcloses : input.id = id →
      (result.status = .accepted ∧ status = .accepted ∧ system.handed.count id = 1) ∨
        (result.status = .rejected ∧ status = .rejected ∧ system.handed.count id = 0)) :
    ∃ actor, Ordered (updateStep system call input pending status result) id actor := by
  have hdistinct : ((updateStep system call input pending status result).table.map
      PendingAction.id).Nodup := by
    change ((setPendingAgentActionStatus system.table pending.id status input.decidedBy).map
      PendingAction.id).Nodup
    rw [set_ids]
    exact h.distinct
  by_cases hinput : input.id = id
  · have hactor : actor = some call := h.alone call (Or.inl (hholds.mpr hinput))
    obtain ⟨row, hrow, hid⟩ := h.exists_row
    refine ⟨some call, h.again hactor rfl hdistinct trivial (Or.inr ⟨hinput, hresult⟩)
      ⟨decidedAction row status input.decidedBy, ?_, hid, rfl, hcloses hinput⟩⟩
    change _ ∈ setPendingAgentActionStatus system.table pending.id status input.decidedBy
    rw [mem_set_iff]
    exact ⟨row, hrow, by rw [if_pos (hid.trans (hmatched.trans hinput).symm)]⟩
  · refine ⟨actor, h.other rfl ?_ ?_ trivial ⟨hdistinct, fun row hrow hid => ?_, rfl⟩⟩
    · exact fun hno => hno.elim (fun hno => hinput (hholds.mp hno)) hdecides
    · exact fun hno => hno.elim False.elim (fun hno => hinput hno.1)
    · change _ ∈ setPendingAgentActionStatus system.table pending.id status input.decidedBy
      rw [mem_set_iff]
      refine ⟨row, hrow, if_neg ?_⟩
      intro heq
      exact hinput (hmatched.symm.trans (heq.symm.trans hid))

theorem finish_ordered (h : Ordered system id actor) (call : ℕ) (input : DecideInput)
    (result : ApprovalDecisionResult) (hphase : system.phases call = .updated input result) :
    ∃ actor, Ordered (system.setPhase call (.returned input result)) id actor := by
  by_cases hdecides : input.id = id ∧ result.status ≠ .alreadyDecided
  · obtain ⟨hactor, hstanding⟩ := h.acting hphase (Or.inr hdecides)
    exact ⟨some call, h.again hactor rfl h.distinct trivial (Or.inr hdecides) hstanding⟩
  · refine ⟨actor, h.other rfl ?_ ?_ trivial (untouched_refl h.distinct rfl rfl)⟩
    · rw [hphase]
      exact fun hno => hno.elim False.elim hdecides
    · exact fun hno => hno.elim False.elim hdecides

theorem step_ordered (system : System) (event : Event)
    (h : ∃ actor, Ordered system id actor) (halone : ReadsAlone system event) :
    ∃ actor, Ordered (step system event) id actor := by
  obtain ⟨actor, h⟩ := h
  have heffect := step_effect system event
  generalize step system event = after at heffect ⊢
  cases heffect with
  | idle => exact ⟨actor, h⟩
  | push sha => exact ⟨actor, h.frame rfl (untouched_refl h.distinct rfl rfl)⟩
  | upsert headSha => exact ⟨actor, h.frame rfl (untouched_refl h.distinct rfl rfl)⟩
  | stage input =>
    refine ⟨actor, h.frame rfl ⟨create_distinct h.distinct _, fun row hrow _ => ?_, rfl⟩⟩
    exact mem_create hrow _
  | read call input hphase => exact readStep_ordered h call input hphase halone
  | load call reads input pending hphase => exact loadStep_ordered h call input pending hphase _
  | execute call granted input pending ctx hphase =>
    exact executeStep_ordered h call input pending ctx granted hphase
  | reject call input pending hphase =>
    have hmatched := h.matched call
    rw [hphase] at hmatched
    refine updateStep_ordered h call input pending _ _ hmatched (by rw [hphase]; rfl)
      (by rw [hphase]; exact not_false) nofun (fun hinput => ?_)
    exact Or.inr ⟨rfl, rfl, (h.acting hphase (Or.inl hinput)).2.2⟩
  | accept call input pending execOutcome hphase =>
    have hmatched := h.matched call
    rw [hphase] at hmatched
    refine updateStep_ordered h call input pending _ _ hmatched (by rw [hphase]; rfl)
      (by rw [hphase]; exact not_false) nofun (fun hinput => ?_)
    exact Or.inl ⟨rfl, rfl, (h.acting hphase (Or.inl hinput)).2.2⟩
  | finish call input result hphase => exact finish_ordered h call input result hphase

theorem staged_ordered (h : Staged system id) : Ordered system id none := by
  have hnothing : ∀ call, ¬ (Holds id (system.phases call) ∨ Decides id (system.phases call)) := by
    intro call
    rw [h.unread call]
    exact fun hno => hno.elim False.elim False.elim
  refine ⟨h.distinct, fun call => ?_, fun call hcall => absurd hcall (hnothing call),
    fun _ => ⟨h.pending, by rw [h.unhanded]; rfl⟩, nofun⟩
  rw [h.unread call]
  trivial

theorem agreement_of_ordered (h : Ordered system id actor) : Agreement system id := by
  have hclosed : ∀ call input result, system.phases call = .returned input result →
      input.id = id → result.status ≠ .alreadyDecided →
      actor = some call ∧ Closed system id input result := by
    intro call input result hphase hinput hresult
    exact h.acting hphase (Or.inr ⟨hinput, hresult⟩)
  refine ⟨?_, fun call input result hphase hinput hrejected => ?_,
    fun call other input input' result result' hphase hinput hresult hphase' hinput' hresult' => ?_,
    fun call input result hphase hinput hresult => ?_⟩
  · cases hactor : actor with
    | none => rw [(h.untouched hactor).2]; omega
    | some call =>
      obtain ⟨-, hstanding⟩ := h.standing call hactor
      cases hphase : system.phases call with
      | start => rw [hphase] at hstanding; exact hstanding.elim
      | read _ _ | loaded _ _ _ | executed _ _ _ =>
        rw [hphase] at hstanding
        have hcount := hstanding.2
        omega
      | updated _ _ | returned _ _ =>
        rw [hphase] at hstanding
        obtain ⟨row, -, -, -, hstatus⟩ := hstanding
        omega
  · obtain ⟨-, row, -, -, -, hstatus⟩ :=
      hclosed call input result hphase hinput (by rw [hrejected]; exact nofun)
    rcases hstatus with ⟨hwrong, -⟩ | ⟨-, -, hcount⟩
    · rw [hrejected] at hwrong
      cases hwrong
    · exact List.count_eq_zero.mp hcount
  · have hfirst := (hclosed call input result hphase hinput hresult).1
    have hsecond := (hclosed other input' result' hphase' hinput' hresult').1
    exact Option.some.inj (hfirst.symm.trans hsecond)
  · obtain ⟨-, row, hrow, hid, hby, hstatus⟩ := hclosed call input result hphase hinput hresult
    refine ⟨row, hrow, hid, hby, ?_⟩
    exact hstatus.imp (fun hs => ⟨hs.1, hs.2.1⟩) (fun hs => ⟨hs.1, hs.2.1⟩)

end Steps

/-- While calls read the row alone, a staged action is decided once and executed at most
once, whatever else happens in between. -/
theorem decisions_agree (system : System) (id : String) (hstaged : Staged system id)
    (events : List Event) (halone : Guarded step ReadsAlone system events) :
    Agreement (run step system events) id := by
  obtain ⟨actor, h⟩ := run_invariant step ReadsAlone step_ordered system events
    ⟨none, staged_ordered hstaged⟩ halone
  exact agreement_of_ordered h

def stagedMerge : PendingAction where
  id := "p1"
  actionClass := .merge
  autonomyLevel := .autoWithApproval
  params := { mergeMethod := some .squash }
  reason := some "clean"
  plannedFor := "h1"

/-- A merge waits for its decision, on the head it was planned for. -/
def stagedSystem : System where
  repoFullName := "owner/repo"
  pullNumber := 7
  live := "h1"
  stored := some "h1"
  table := [stagedMerge]
  phases := fun _ => .start
  handed := []
  acted := []

theorem stagedSystem_staged : Staged stagedSystem "p1" where
  distinct := by decide
  pending := ⟨stagedMerge, List.mem_singleton_self _, rfl, rfl⟩
  unread _ := rfl
  unhanded := rfl

def openReads : DecideReads where
  autonomy := some (fun _ => some .autoWithApproval)
  globalPaused := false
  agentPaused := none
  agentDryRun := none
  installationPermissions := some "write"

def acceptBy (decidedBy : String) : DecideInput := ⟨"p1", .accept, decidedBy⟩

theorem decisions_agree_one_call :
    Agreement (run step stagedSystem [.read 0 (acceptBy "ann"), .load 0 openReads,
      .execute 0 true, .update 0, .finish 0]) "p1" :=
  decisions_agree stagedSystem "p1" stagedSystem_staged _
    ⟨fun _ hholds => hholds, trivial, trivial, trivial, trivial, trivial⟩

/-- Two maintainers accept at once: both calls read the row before either updates it. -/
theorem overlapping_decisions :
    ¬ ∀ (system : System) (id : String), Staged system id → ∀ events : List Event,
      Agreement (run step system events) id := by
  intro h
  have htwice := (h stagedSystem "p1" stagedSystem_staged [.read 0 (acceptBy "ann"),
    .read 1 (acceptBy "bob"), .load 0 openReads, .load 1 openReads, .execute 0 true,
    .execute 1 true]).executedOnce
  exact absurd htwice (by decide)

end Gittensory.ApprovalAgreement
