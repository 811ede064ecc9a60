import Gittensory.AgentRunExecution
import Gittensory.GuardedRun
import Gittensory.JsValue
import Mathlib.Data.List.Nodup
import Mathlib.Logic.Function.Basic

/-!
Concurrent upserts of recommendation outcomes (`db/repositories.ts`). An inferred outcome
gives way to an explicit one that its call finds stored, but between that read and the
write other calls run, and the write itself asks nothing. An explicit outcome is never
overwritten exactly when no inferred call writes after an explicit outcome that was stored
since it read.
-/
namespace Gittensory.OutcomePrecedence

open JsValue GuardedRun
open AgentRunExecution (AgentSurface)

inductive OutcomeSource where
  | explicit
  | inferred
  deriving DecidableEq, Repr

inductive AgentActionType where
  | chooseNextWork
  | cleanupExistingPrs
  | preflightBranch
  | explainScoreBlockers
  | preparePrPacket
  | checkDuplicateRisk
  | monitorExistingPr
  | explainRepoFit
  deriving DecidableEq, Repr

inductive OutcomeState where
  | accepted
  | rejected
  | ignored
  | stale
  | merged
  | closed
  | improved
  deriving DecidableEq, Repr

inductive OutcomeTargetType where
  | pullRequest
  | issue
  | repository
  | none
  deriving DecidableEq, Repr

inductive OutcomeConfidence where
  | high
  | medium
  | low
  deriving DecidableEq, Repr

/-- What a caller hands in; `metadata` stands as its JSON text. -/
structure AgentRecommendationOutcomeRecord where
  id : Option String := none
  actionId : String
  runId : String
  actorLogin : String
  actionType : AgentActionType
  surface : Option AgentSurface := none
  snapshotId : Option String := none
  targetRepoFullName : Option String := none
  targetPullNumber : Option ℕ := none
  targetIssueNumber : Option ℕ := none
  source : Option OutcomeSource
  outcomeState : OutcomeState
  outcomeTargetType : OutcomeTargetType
  outcomeRepoFullName : Option String := none
  outcomePullNumber : Option ℕ := none
  outcomeIssueNumber : Option ℕ := none
  maintainerLane : Bool
  confidence : OutcomeConfidence
  reason : String
  sourceUpdatedAt : Option String := none
  detectedAt : Option String := none
  metadata : Option String := none
  createdAt : Option String := none
  updatedAt : Option String := none
  deriving DecidableEq, Repr

/-- A row of `agent_recommendation_outcomes`. -/
structure OutcomeRow where
  id : String
  actionId : String
  runId : String
  actorLogin : String
  actionType : AgentActionType
  surface : Option AgentSurface
  snapshotId : Option String
  targetRepoFullName : Option String
  targetPullNumber : Option ℕ
  targetIssueNumber : Option ℕ
  source : OutcomeSource
  outcomeState : OutcomeState
  outcomeTargetType : OutcomeTargetType
  outcomeRepoFullName : Option String
  outcomePullNumber : Option ℕ
  outcomeIssueNumber : Option ℕ
  maintainerLane : Bool
  confidence : OutcomeConfidence
  reason : String
  sourceUpdatedAt : Option String
  detectedAt : String
  metadataJson : String
  createdAt : String
  updatedAt : String
  deriving DecidableEq, Repr

def normalizeAgentRecommendationOutcomeSource : Option OutcomeSource → OutcomeSource
  | some .explicit => .explicit
  | _ => .inferred

def boundedString (value : String) (maxLength : ℕ) : String := sliceTo maxLength value

/-- The values of the insert. -/
def outcomeValues (outcome : AgentRecommendationOutcomeRecord) (nowIso : String) : OutcomeRow :=
  let now := outcome.updatedAt.getD nowIso
  { id := outcome.id.getD ("outcome:" ++ outcome.actionId)
    actionId := outcome.actionId
    runId := outcome.runId
    actorLogin := boundedString outcome.actorLogin 100
    actionType := outcome.actionType
    surface := outcome.surface
    snapshotId := outcome.snapshotId
    targetRepoFullName := (present outcome.targetRepoFullName).map (boundedString · 200)
    targetPullNumber := outcome.targetPullNumber
    targetIssueNumber := outcome.targetIssueNumber
    source := normalizeAgentRecommendationOutcomeSource outcome.source
    outcomeState := outcome.outcomeState
    outcomeTargetType := outcome.outcomeTargetType
    outcomeRepoFullName := (present outcome.outcomeRepoFullName).map (boundedString · 200)
    outcomePullNumber := outcome.outcomePullNumber
    outcomeIssueNumber := outcome.outcomeIssueNumber
    maintainerLane := outcome.maintainerLane
    confidence := outcome.confidence
    reason := boundedString outcome.reason 500
    sourceUpdatedAt := outcome.sourceUpdatedAt
    detectedAt := outcome.detectedAt.getD now
    metadataJson := outcome.metadata.getD "{}"
    createdAt := outcome.createdAt.getD now
    updatedAt := now }

/-- The set clause: id, run and creation time stay. -/
def overwrite (values row : OutcomeRow) : OutcomeRow :=
  { values with id := row.id, runId := row.runId, createdAt := row.createdAt }

/-- `INSERT ... ON CONFLICT (action_id) DO UPDATE`; a primary key that another action has
taken is an error. -/
def insertOutcome (table : List OutcomeRow) (values : OutcomeRow) : Option (List OutcomeRow) :=
  if table.any (fun row => row.actionId = values.actionId) then
    some (table.map fun row =>
      if row.actionId = values.actionId then overwrite values row else row)
  else if table.any (fun row => row.id = values.id) then none
  else some (table ++ [values])

def getAgentRecommendationOutcome (table : List OutcomeRow) (actionId : String) :
    Option OutcomeRow :=
  table.find? (fun row => row.actionId = actionId)

def toAgentRecommendationOutcomeRecord (row : OutcomeRow) : AgentRecommendationOutcomeRecord where
  id := some row.id
  actionId := row.actionId
  runId := row.runId
  actorLogin := row.actorLogin
  actionType := row.actionType
  surface := row.surface
  snapshotId := row.snapshotId
  targetRepoFullName := row.targetRepoFullName
  targetPullNumber := row.targetPullNumber
  targetIssueNumber := row.targetIssueNumber
  source := some row.source
  outcomeState := row.outcomeState
  outcomeTargetType := row.outcomeTargetType
  outcomeRepoFullName := row.outcomeRepoFullName
  outcomePullNumber := row.outcomePullNumber
  outcomeIssueNumber := row.outcomeIssueNumber
  maintainerLane := row.maintainerLane
  confidence := row.confidence
  reason := row.reason
  sourceUpdatedAt := row.sourceUpdatedAt
  detectedAt := some row.detectedAt
  metadata := some row.metadataJson
  createdAt := some row.createdAt
  updatedAt := some row.updatedAt

/-- Where an `upsertAgentRecommendationOutcome` call is; `seen` is the number of outcomes
that had been stored when it read the row. -/
inductive CallPhase where
  | idle
  | checked (outcome : AgentRecommendationOutcomeRecord) (seen : ℕ)
  | written (outcome : AgentRecommendationOutcomeRecord)
  | returned (outcome : AgentRecommendationOutcomeRecord)
  | failed

structure System where
  table : List OutcomeRow
  phases : ℕ → CallPhase
  /-- Not in the database: every outcome stored so far, in order. -/
  stored : List OutcomeRow

def System.setPhase (system : System) (call : ℕ) (phase : CallPhase) : System :=
  { system with phases := Function.update system.phases call phase }

@[simp] theorem System.setPhase_self (system : System) (call : ℕ) (phase : CallPhase) :
    (system.setPhase call phase).phases call = phase :=
  Function.update_self ..

theorem System.setPhase_other (system : System) {call other : ℕ} (phase : CallPhase)
    (h : other ≠ call) : (system.setPhase call phase).phases other = system.phases other :=
  Function.update_of_ne h ..

/-- The call is not between its read and its write. -/
def CallPhase.Outside : CallPhase → Prop
  | .checked _ _ => False
  | _ => True

/-- The steps of a call; any of them may also fail. -/
inductive Event where
  | read (call : ℕ) (outcome : AgentRecommendationOutcomeRecord)
  | write (call : ℕ) (nowIso : String)
  | reread (call : ℕ)
  | fail (call : ℕ)

/-- What the call finds stored; an explicit outcome does not look. -/
def existingOutcome (table : List OutcomeRow) (outcome : AgentRecommendationOutcomeRecord) :
    Option OutcomeRow :=
  if normalizeAgentRecommendationOutcomeSource outcome.source = .inferred then
    getAgentRecommendationOutcome table outcome.actionId
  else none

def readStep (system : System) (call : ℕ) (outcome : AgentRecommendationOutcomeRecord) : System :=
  match existingOutcome system.table outcome with
  | some row =>
      if row.source = .explicit then
        system.setPhase call (.returned (toAgentRecommendationOutcomeRecord row))
      else system.setPhase call (.checked outcome system.stored.length)
  | none => system.setPhase call (.checked outcome system.stored.length)

def writeStep (system : System) (call : ℕ) (outcome : AgentRecommendationOutcomeRecord)
    (nowIso : String) : System :=
  match insertOutcome system.table (outcomeValues outcome nowIso) with
  | none => system.setPhase call .failed
  | some table =>
      { system.setPhase call (.written outcome) with
        table := table
        stored := system.stored ++ [outcomeValues outcome nowIso] }

def rereadStep (system : System) (call : ℕ) (outcome : AgentRecommendationOutcomeRecord) :
    System :=
  match getAgentRecommendationOutcome system.table outcome.actionId with
  | some row => system.setPhase call (.returned (toAgentRecommendationOutcomeRecord row))
  | none => system.setPhase call .failed

/-- An event that the phase of its call does not wait for changes nothing. -/
def step (system : System) : Event → System
  | .read call outcome =>
      match system.phases call with
      | .idle => readStep system call outcome
      | _ => system
  | .write call nowIso =>
      match system.phases call with
      | .checked outcome _ => writeStep system call outcome nowIso
      | _ => system
  | .reread call =>
      match system.phases call with
      | .written outcome => rereadStep system call outcome
      | _ => system
  | .fail call =>
      match system.phases call with
      | .checked _ _ | .written _ | .idle => system.setPhase call .failed
      | _ => system

/-- Once an explicit outcome was stored for an action, its row holds no inferred one. -/
def ExplicitKept (system : System) : Prop :=
  ∀ outcome ∈ system.stored, outcome.source = .explicit →
    ∀ row ∈ system.table, row.actionId = outcome.actionId → row.source = .explicit

/-- An inferred outcome is written only if no explicit one was stored for its action
since its call read the row. A write that the database refuses writes nothing. -/
def NotOvertaken (system : System) : Event → Prop
  | .write call nowIso =>
      match system.phases call with
      | .checked outcome seen =>
          normalizeAgentRecommendationOutcomeSource outcome.source = .inferred →
          (insertOutcome system.table (outcomeValues outcome nowIso)).isSome →
          ∀ other ∈ system.stored.drop seen, other.actionId = outcome.actionId →
            other.source = .inferred
      | _ => True
  | _ => True

/-- No call under way, the rows of the table counted as stored. -/
structure Fresh (system : System) : Prop where
  distinct : (system.table.map OutcomeRow.actionId).Nodup
  stored : system.stored = system.table
  idle : ∀ call, system.phases call = .idle

section Table

/-- What an insert that the database accepts does: the row of the action has the new
source, the other rows stay. -/
structure Inserted (table : List OutcomeRow) (values : OutcomeRow) (after : List OutcomeRow) :
    Prop where
  own : ∀ row ∈ after, row.actionId = values.actionId → row.source = values.source
  stored : ∃ row ∈ after, row.actionId = values.actionId
  others : ∀ row, row.actionId ≠ values.actionId → (row ∈ after ↔ row ∈ table)
  distinct : (table.map OutcomeRow.actionId).Nodup → (after.map OutcomeRow.actionId).Nodup

theorem inserted_update {table : List OutcomeRow} {values : OutcomeRow}
    (h : ∃ row ∈ table, row.actionId = values.actionId) :
    Inserted table values (table.map fun row =>
      if row.actionId = values.actionId then overwrite values row else row) where
  own := by
    intro row hrow hid
    obtain ⟨old, -, rfl⟩ := List.mem_map.mp hrow
    by_cases hold : old.actionId = values.actionId
    · rw [if_pos hold]
      rfl
    · rw [if_neg hold] at hid
      exact absurd hid hold
  stored := by
    obtain ⟨old, hmem, hold⟩ := h
    refine ⟨overwrite values old, List.mem_map.mpr ⟨old, hmem, if_pos hold⟩, rfl⟩
  others := by
    intro row hid
    rw [List.mem_map]
    constructor
    · intro hrow
      obtain ⟨old, hmem, rfl⟩ := hrow
      by_cases hold : old.actionId = values.actionId
      · rw [if_pos hold] at hid
        exact absurd rfl hid
      · rw [if_neg hold]
        exact hmem
    · intro hrow
      exact ⟨row, hrow, if_neg hid⟩
  distinct := by
    intro hdistinct
    have hsame : (table.map fun row =>
        if row.actionId = values.actionId then overwrite values row else row).map
          OutcomeRow.actionId = table.map OutcomeRow.actionId := by
      rw [List.map_map]
      apply List.map_congr_left
      intro row _
      dsimp only [Function.comp]
      by_cases hrow : row.actionId = values.actionId
      · rw [if_pos hrow, hrow]
        rfl
      · rw [if_neg hrow]
    rw [hsame]
    exact hdistinct

theorem inserted_append {table : List OutcomeRow} {values : OutcomeRow}
    (h : ∀ row ∈ table, row.actionId ≠ values.actionId) :
    Inserted table values (table ++ [values]) where
  own := by
    intro row hrow hid
    rcases List.mem_append.mp hrow with hold | hnew
    · exact absurd hid (h row hold)
    · rw [List.mem_singleton.mp hnew]
  stored := ⟨values, by simp, rfl⟩
  others := by
    intro row hid
    rw [List.mem_append, List.mem_singleton, or_iff_left]
    intro heq
    exact hid (by rw [heq])
  distinct := by
    intro hdistinct
    rw [List.map_append, List.map_singleton, List.nodup_append]
    refine ⟨hdistinct, List.nodup_singleton _, fun id hid other hother => ?_⟩
    obtain ⟨row, hrow, rfl⟩ := List.mem_map.mp hid
    rw [List.mem_singleton.mp hother]
    exact h row hrow

theorem inserted_of_insertOutcome {table after : List OutcomeRow} {values : OutcomeRow}
    (h : insertOutcome table values = some after) : Inserted table values after := by
  unfold insertOutcome at h
  by_cases hany : table.any (fun row => row.actionId = values.actionId) = true
  · rw [if_pos hany, Option.some.injEq] at h
    rw [← h]
    apply inserted_update
    simpa using hany
  · rw [if_neg hany] at h
    by_cases hid : table.any (fun row => row.id = values.id) = true
    · rw [if_pos hid] at h
      cases h
    · rw [if_neg hid, Option.some.injEq] at h
      rw [← h]
      apply inserted_append
      simpa using hany

/-- Without a second row for the action, what the read returns is the row of the action. -/
theorem get_of_mem {table : List OutcomeRow} (hdistinct : (table.map OutcomeRow.actionId).Nodup)
    {row : OutcomeRow} (h : row ∈ table) :
    getAgentRecommendationOutcome table row.actionId = some row := by
  have hsome : (getAgentRecommendationOutcome table row.actionId).isSome := by
    rw [getAgentRecommendationOutcome, List.find?_isSome]
    exact ⟨row, h, by simp⟩
  obtain ⟨found, hfound⟩ := Option.isSome_iff_exists.mp hsome
  have hmem := List.mem_of_find?_eq_some hfound
  have hid : found.actionId = row.actionId := by simpa using List.find?_some hfound
  rw [hfound, List.inj_on_of_nodup_map hdistinct hmem h hid]

end Table

section Effects

/-- What an event does. -/
inductive Effect (system : System) : Event → System → Prop
  | idle (event : Event) : Effect system event system
  | leave (event : Event) (call : ℕ) (phase : CallPhase)
      (hphase : phase.Outside) :
      Effect system event (system.setPhase call phase)
  | check (call : ℕ) (outcome : AgentRecommendationOutcomeRecord)
      (hread : ∀ row, existingOutcome system.table outcome = some row → row.source = .inferred) :
      Effect system (.read call outcome)
        (system.setPhase call (.checked outcome system.stored.length))
  | write (call : ℕ) (nowIso : String) (outcome : AgentRecommendationOutcomeRecord) (seen : ℕ)
      (table : List OutcomeRow) (hphase : system.phases call = .checked outcome seen)
      (hinsert : insertOutcome system.table (outcomeValues outcome nowIso) = some table) :
      Effect system (.write call nowIso)
        { system.setPhase call (.written outcome) with
          table := table
          stored := system.stored ++ [outcomeValues outcome nowIso] }

theorem readStep_effect (system : System) (call : ℕ) (outcome : AgentRecommendationOutcomeRecord) :
    Effect system (.read call outcome) (readStep system call outcome) := by
  unfold readStep
  cases hexisting : existingOutcome system.table outcome with
  | none => exact .check call outcome (fun row hrow => by rw [hexisting] at hrow; cases hrow)
  | some row =>
    dsimp only
    by_cases hsource : row.source = .explicit
    · rw [if_pos hsource]
      exact .leave _ call _ trivial
    · rw [if_neg hsource]
      refine .check call outcome (fun other hother => ?_)
      rw [hexisting, Option.some.injEq] at hother
      rw [← hother]
      cases hcase : row.source with
      | explicit => exact absurd hcase hsource
      | inferred => rfl

theorem writeStep_effect (system : System) (call : ℕ) (nowIso : String)
    (outcome : AgentRecommendationOutcomeRecord) (seen : ℕ)
    (hphase : system.phases call = .checked outcome seen) :
    Effect system (.write call nowIso) (writeStep system call outcome nowIso) := by
  unfold writeStep
  cases hinsert : insertOutcome system.table (outcomeValues outcome nowIso) with
  | none => exact .leave _ call _ trivial
  | some table => exact .write call nowIso outcome seen table hphase hinsert

theorem step_effect (system : System) (event : Event) :
    Effect system event (step system event) := by
  cases event with
  | read call outcome =>
    cases hphase : system.phases call with
    | idle =>
      simp only [step, hphase]
      exact readStep_effect system call outcome
    | checked _ _ | written _ | returned _ | failed =>
      simp only [step, hphase]
      exact .idle _
  | write call nowIso =>
    cases hphase : system.phases call with
    | checked outcome seen =>
      simp only [step, hphase]
      exact writeStep_effect system call nowIso outcome seen hphase
    | idle | written _ | returned _ | failed =>
      simp only [step, hphase]
      exact .idle _
  | reread call =>
    cases hphase : system.phases call with
    | written outcome =>
      simp only [step, hphase, rereadStep]
      cases getAgentRecommendationOutcome system.table outcome.actionId with
      | none => exact .leave _ call _ trivial
      | some row => exact .leave _ call _ trivial
    | idle | checked _ _ | returned _ | failed =>
      simp only [step, hphase]
      exact .idle _
  | fail call =>
    cases hphase : system.phases call with
    | idle | checked _ _ | written _ =>
      simp only [step, hphase]
      exact .leave _ call _ trivial
    | returned _ | failed =>
      simp only [step, hphase]
      exact .idle _

end Effects

section Invariant

/-- What holds in every state: a row for every stored outcome, and an inferred call whose
action has turned explicit can be told so by the outcomes stored since it read. -/
structure Sound (system : System) : Prop where
  distinct : (system.table.map OutcomeRow.actionId).Nodup
  rows : ∀ outcome ∈ system.stored, ∃ row ∈ system.table, row.actionId = outcome.actionId
  past : ∀ call outcome seen, system.phases call = .checked outcome seen →
    seen ≤ system.stored.length
  noticed : ∀ call outcome seen, system.phases call = .checked outcome seen →
    normalizeAgentRecommendationOutcomeSource outcome.source = .inferred →
    ∀ row ∈ system.table, row.actionId = outcome.actionId → row.source = .explicit →
    ∃ other ∈ system.stored.drop seen, other.actionId = outcome.actionId ∧
      other.source = .explicit

theorem Fresh.sound {system : System} (h : Fresh system) : Sound system where
  distinct := h.distinct
  rows := by
    intro outcome houtcome
    rw [h.stored] at houtcome
    exact ⟨outcome, houtcome, rfl⟩
  past := by
    intro call outcome seen hphase
    rw [h.idle call] at hphase
    cases hphase
  noticed := by
    intro call outcome seen hphase
    rw [h.idle call] at hphase
    cases hphase

theorem Fresh.explicitKept {system : System} (h : Fresh system) : ExplicitKept system := by
  intro outcome houtcome hsource row hrow hid
  rw [h.stored] at houtcome
  rw [List.inj_on_of_nodup_map h.distinct hrow houtcome hid]
  exact hsource

variable {system : System}

theorem checked_of_setPhase {call other : ℕ} {phase : CallPhase} (hphase : phase.Outside)
    {outcome : AgentRecommendationOutcomeRecord} {seen : ℕ}
    (h : (system.setPhase call phase).phases other = .checked outcome seen) :
    system.phases other = .checked outcome seen := by
  by_cases hcall : other = call
  · subst hcall
    rw [System.setPhase_self] at h
    rw [h] at hphase
    exact hphase.elim
  · rw [System.setPhase_other _ _ hcall] at h
    exact h

/-- A call that leaves the read behind it changes nothing the invariant speaks of. -/
theorem Sound.leave (h : Sound system) (call : ℕ) {phase : CallPhase}
    (hphase : phase.Outside) :
    Sound (system.setPhase call phase) where
  distinct := h.distinct
  rows := h.rows
  past := fun other outcome seen hother =>
    h.past other outcome seen (checked_of_setPhase hphase hother)
  noticed := fun other outcome seen hother =>
    h.noticed other outcome seen (checked_of_setPhase hphase hother)

theorem Sound.check (h : Sound system) (call : ℕ) (outcome : AgentRecommendationOutcomeRecord)
    (hread : ∀ row, existingOutcome system.table outcome = some row → row.source = .inferred) :
    Sound (system.setPhase call (.checked outcome system.stored.length)) where
  distinct := h.distinct
  rows := h.rows
  past := by
    intro other outcome' seen hother
    by_cases hcall : other = call
    · subst hcall
      rw [System.setPhase_self, CallPhase.checked.injEq] at hother
      exact hother.2.symm.le
    · rw [System.setPhase_other _ _ hcall] at hother
      exact h.past other outcome' seen hother
  noticed := by
    intro other outcome' seen hother hinferred row hrow hid hexplicit
    by_cases hcall : other = call
    · -- the call has just read the row, which was not explicit
      subst hcall
      rw [System.setPhase_self, CallPhase.checked.injEq] at hother
      obtain ⟨rfl, -⟩ := hother
      have hget : existingOutcome system.table outcome = some row := by
        rw [existingOutcome, if_pos hinferred, ← hid]
        exact get_of_mem h.distinct hrow
      rw [hread row hget] at hexplicit
      cases hexplicit
    · rw [System.setPhase_other _ _ hcall] at hother
      exact h.noticed other outcome' seen hother hinferred row hrow hid hexplicit

theorem Sound.write (h : Sound system) (call : ℕ) (nowIso : String)
    (outcome : AgentRecommendationOutcomeRecord) {table : List OutcomeRow}
    (hinserted : Inserted system.table (outcomeValues outcome nowIso) table) :
    Sound { system.setPhase call (.written outcome) with
      table := table
      stored := system.stored ++ [outcomeValues outcome nowIso] } where
  distinct := hinserted.distinct h.distinct
  rows := by
    intro written hwritten
    rcases List.mem_append.mp hwritten with hold | hnew
    · by_cases hid : written.actionId = (outcomeValues outcome nowIso).actionId
      · rw [hid]
        exact hinserted.stored
      · obtain ⟨row, hrow, heq⟩ := h.rows written hold
        exact ⟨row, (hinserted.others row (by rw [heq]; exact hid)).mpr hrow, heq⟩
    · rw [List.mem_singleton.mp hnew]
      exact hinserted.stored
  past := by
    intro other outcome' seen hother
    have hleft := h.leave call (show CallPhase.Outside (.written outcome) from trivial)
    have hkept := hleft.past other outcome' seen hother
    rw [List.length_append]
    exact Nat.le_add_right_of_le hkept
  noticed := by
    intro other outcome' seen hother hinferred row hrow hid hexplicit
    have hleft := h.leave call (show CallPhase.Outside (.written outcome) from trivial)
    have hpast := hleft.past other outcome' seen hother
    have hdrop : (system.stored ++ [outcomeValues outcome nowIso]).drop seen =
        system.stored.drop seen ++ [outcomeValues outcome nowIso] :=
      List.drop_append_of_le_length hpast
    rw [hdrop]
    by_cases hown : row.actionId = (outcomeValues outcome nowIso).actionId
    · refine ⟨_, List.mem_append_right _ (List.mem_singleton_self _), ?_, ?_⟩
      · rw [← hown, hid]
      · rw [← hinserted.own row hrow hown]
        exact hexplicit
    · obtain ⟨written, hwritten, hfound⟩ := hleft.noticed other outcome' seen hother hinferred row
        ((hinserted.others row hown).mp hrow) hid hexplicit
      exact ⟨written, List.mem_append_left _ hwritten, hfound⟩

theorem Sound.step (h : Sound system) (event : Event) :
    Sound (OutcomePrecedence.step system event) := by
  have heffect := step_effect system event
  generalize OutcomePrecedence.step system event = after at heffect
  cases heffect with
  | idle event => exact h
  | leave event call phase hphase => exact h.leave call hphase
  | check call outcome hread => exact h.check call outcome hread
  | write call nowIso outcome seen table hphase hinsert =>
    exact h.write call nowIso outcome (inserted_of_insertOutcome hinsert)

/-- Among the sound states an insert keeps explicit outcomes exactly if it is explicit
itself or no explicit outcome was stored since its call read. -/
theorem explicitKept_write_iff (h : Sound system) (hkept : ExplicitKept system) {call : ℕ}
    {nowIso : String} {outcome : AgentRecommendationOutcomeRecord} {seen : ℕ}
    {table : List OutcomeRow} (hphase : system.phases call = .checked outcome seen)
    (hinserted : Inserted system.table (outcomeValues outcome nowIso) table) :
    ExplicitKept { system.setPhase call (.written outcome) with
        table := table
        stored := system.stored ++ [outcomeValues outcome nowIso] } ↔
      (normalizeAgentRecommendationOutcomeSource outcome.source = .inferred →
        ∀ other ∈ system.stored.drop seen, other.actionId = outcome.actionId →
          other.source = .inferred) := by
  constructor
  · intro hafter hinferred other hother hid
    cases hsource : other.source with
    | inferred => rfl
    | explicit =>
      obtain ⟨row, hrow, hrowid⟩ := hinserted.stored
      have hexplicit : row.source = .explicit := by
        refine hafter other (List.mem_append_left _ (List.mem_of_mem_drop hother)) hsource row
          hrow ?_
        rw [hrowid, hid]
        rfl
      rw [hinserted.own row hrow hrowid] at hexplicit
      exact absurd (hexplicit.symm.trans hinferred) nofun
  · intro hnot written hwritten hexplicit row hrow hid
    by_cases hown : row.actionId = (outcomeValues outcome nowIso).actionId
    · rw [hinserted.own row hrow hown]
      rcases List.mem_append.mp hwritten with hold | hnew
      · -- the row was explicit before, so an explicit outcome was stored since the read
        cases hsource : normalizeAgentRecommendationOutcomeSource outcome.source with
        | explicit => exact hsource
        | inferred =>
          obtain ⟨before, hbefore, hbid⟩ := h.rows written hold
          have hwas := hkept written hold hexplicit before hbefore hbid
          have haction : before.actionId = outcome.actionId := by
            rw [hbid, ← hid, hown]
            rfl
          obtain ⟨other, hother, hoid, hosource⟩ :=
            h.noticed call outcome seen hphase hsource before hbefore haction hwas
          rw [hnot hsource other hother hoid] at hosource
          cases hosource
      · rw [List.mem_singleton.mp hnew] at hexplicit
        exact hexplicit
    · rcases List.mem_append.mp hwritten with hold | hnew
      · exact hkept written hold hexplicit row ((hinserted.others row hown).mp hrow) hid
      · rw [List.mem_singleton.mp hnew] at hid
        exact absurd hid hown

theorem explicitKept_step_iff (h : Sound system) (hkept : ExplicitKept system) (event : Event) :
    ExplicitKept (OutcomePrecedence.step system event) ↔ NotOvertaken system event := by
  have hstays : ∀ call phase, ExplicitKept (system.setPhase call phase) := fun _ _ => hkept
  cases event with
  | read call outcome =>
    refine iff_of_true ?_ trivial
    have heffect := step_effect system (.read call outcome)
    generalize OutcomePrecedence.step system (.read call outcome) = after at heffect
    cases heffect with
    | idle => exact hkept
    | leave => exact hstays _ _
    | check => exact hstays _ _
  | reread call =>
    refine iff_of_true ?_ trivial
    have heffect := step_effect system (.reread call)
    generalize OutcomePrecedence.step system (.reread call) = after at heffect
    cases heffect with
    | idle => exact hkept
    | leave => exact hstays _ _
  | fail call =>
    refine iff_of_true ?_ trivial
    have heffect := step_effect system (.fail call)
    generalize OutcomePrecedence.step system (.fail call) = after at heffect
    cases heffect with
    | idle => exact hkept
    | leave => exact hstays _ _
  | write call nowIso =>
    cases hphase : system.phases call with
    | checked outcome seen =>
      simp only [OutcomePrecedence.step, NotOvertaken, hphase, writeStep]
      cases hinsert : insertOutcome system.table (outcomeValues outcome nowIso) with
      | none => exact iff_of_true (hstays _ _) (fun _ hsome => by cases hsome)
      | some table =>
        rw [explicitKept_write_iff h hkept hphase (inserted_of_insertOutcome hinsert)]
        simp only [Option.isSome_some, true_implies]
    | idle | written _ | returned _ | failed =>
      simp only [OutcomePrecedence.step, NotOvertaken, hphase]
      exact iff_of_true hkept trivial

end Invariant

/-- Through any run of concurrent upserts no explicit outcome is ever overwritten by an
inferred one, exactly when no inferred outcome is written after an explicit one that was
stored for its action since its call read the row. -/
theorem explicit_kept_throughout_iff (system : System) (hfresh : Fresh system)
    (events : List Event) :
    (∀ earlier, earlier <+: events → ExplicitKept (run step system earlier)) ↔
      Guarded step NotOvertaken system events := by
  have hkeeps : ∀ state event, Sound state → Sound (step state event) :=
    fun state event hstate => hstate.step event
  refine holds_throughout_iff step NotOvertaken hkeeps ?_ system events hfresh.sound
    hfresh.explicitKept
  intro state event hstate hkept
  exact explicitKept_step_iff hstate hkept event

/-- An outcome of the one action the examples are about. -/
def sampleOutcome (source : OutcomeSource) : AgentRecommendationOutcomeRecord where
  actionId := "a1"
  runId := "r1"
  actorLogin := "dev"
  actionType := .monitorExistingPr
  source := some source
  outcomeState := if source = .explicit then .rejected else .accepted
  outcomeTargetType := .pullRequest
  maintainerLane := false
  confidence := .high
  reason := "sample"

def emptySystem : System where
  table := []
  phases := fun _ => .idle
  stored := []

theorem emptySystem_fresh : Fresh emptySystem := ⟨List.nodup_nil, rfl, fun _ => rfl⟩

/-- The inferred call reads, the explicit one writes, the inferred one writes. -/
def overtakenRun : List Event :=
  [.read 0 (sampleOutcome .inferred), .read 1 (sampleOutcome .explicit), .write 1 "t1",
    .write 0 "t2"]

theorem inferred_overwrites_explicit :
    Fresh emptySystem ∧
      ¬ (∀ earlier, earlier <+: overtakenRun → ExplicitKept (run step emptySystem earlier)) := by
  refine ⟨emptySystem_fresh, fun h => ?_⟩
  have hkept := h overtakenRun (List.prefix_refl _)
  have hrow := hkept (outcomeValues (sampleOutcome .explicit) "t1") (by decide +kernel) rfl
    (overwrite (outcomeValues (sampleOutcome .inferred) "t2")
      (outcomeValues (sampleOutcome .explicit) "t1")) (by decide +kernel) rfl
  cases hrow

/-- The inferred call reads after the explicit one has written, and gives way. -/
theorem explicit_kept_when_read_late :
    ExplicitKept (run step emptySystem
      [.read 1 (sampleOutcome .explicit), .write 1 "t1", .read 0 (sampleOutcome .inferred),
        .write 0 "t2"]) := by
  refine (explicit_kept_throughout_iff emptySystem emptySystem_fresh _).mpr ?_ _
    (List.prefix_refl _)
  refine ⟨trivial, ?_, trivial, trivial, trivial⟩
  intro hinferred
  cases hinferred

end Gittensory.OutcomePrecedence
