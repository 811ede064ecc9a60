import Gittensory.CycleSearch
import Gittensory.JsValue
import Mathlib.Data.Finset.Card
import Mathlib.Data.Finset.Dedup

/-!
A miner's plan: steps with dependencies, each with its state and its retries. The
validation reports repeated ids, dependencies on no step, and a dependency cycle, which
it looks for with a three-colour search over the steps by id. The last step of an id
answers for it, as in a map built from the list.
-/
namespace Gittensory.PlanGraph

open JsValue Relation CycleSearch

inductive PlanStepStatus where
  | pending
  | running
  | completed
  | failed
  | skipped
  deriving DecidableEq, Repr

structure PlanStep where
  id : String
  title : String
  actionClass : Option String := none
  dependsOn : List String
  status : PlanStepStatus
  attempts : ℤ
  maxAttempts : JsNumber
  lastError : Option String := none
  deriving DecidableEq

structure PlanDag where
  steps : List PlanStep
  deriving DecidableEq

/-- The step input of `buildPlanDag`. -/
structure RawPlanStep where
  id : String
  title : String
  actionClass : Option String := none
  dependsOn : Option (List String) := none
  maxAttempts : Option JsNumber := none

def DEFAULT_MAX_ATTEMPTS : JsNumber := .finite 1

def clampAttempts (maxAttempts : Option JsNumber) : JsNumber :=
  .mathMin (.finite 10)
    (.mathMax (.finite 1) (.mathTrunc (maxAttempts.getD DEFAULT_MAX_ATTEMPTS)))

def buildPlanStep (step : RawPlanStep) : PlanStep where
  id := step.id
  title := step.title
  actionClass := step.actionClass
  dependsOn := ((step.dependsOn.getD []).filter (fun dep => dep ≠ step.id)).eraseDups
  status := .pending
  attempts := 0
  maxAttempts := clampAttempts step.maxAttempts

def buildPlanDag (steps : List RawPlanStep) : PlanDag where
  steps := steps.map buildPlanStep

structure PlanValidation where
  valid : Bool
  errors : List String
  deriving DecidableEq, Repr

namespace PlanDag

variable (plan : PlanDag)

def ids : List String := plan.steps.map (fun step => step.id)

/-- `new Map(plan.steps.map((step) => [step.id, step]))`, read at one id. -/
def byId (id : String) : Option PlanStep := plan.steps.findRev? (fun step => step.id = id)

/-- `byId.get(id)?.dependsOn ?? []` -/
def dependenciesOf (id : String) : List String :=
  match plan.byId id with
  | none => []
  | some step => step.dependsOn

/-- The closure `hasCycle`, with the colours handed through. -/
def hasCycle (fuel : ℕ) (id : String) (color : String → Colour) :
    Option (Bool × (String → Colour)) :=
  visit (fun dep => (plan.byId dep).isSome) plan.dependenciesOf fuel id color

def duplicateErrors : List String :=
  if plan.ids.toFinset.card ≠ plan.ids.length then ["duplicate step ids"] else []

def unknownErrors : List String :=
  plan.steps.flatMap fun step =>
    (step.dependsOn.filter (fun dep => dep ∉ plan.ids)).map fun dep =>
      "step " ++ step.id ++ " depends on unknown step " ++ dep

/-- The root loop; every colour is white at first. -/
def searchCycle (fuel : ℕ) : Option Bool :=
  searchFrom (plan.hasCycle fuel) plan.ids (fun _ => .white)

/-- `none` when the recursion is deeper than the fuel. -/
def validatePlanDag (fuel : ℕ) : Option PlanValidation :=
  (plan.searchCycle fuel).map fun cyclic =>
    let errors := plan.duplicateErrors ++ plan.unknownErrors ++
      (if cyclic then ["plan has a dependency cycle"] else [])
    { valid := errors.length = 0, errors := errors }

/-- Some step of id `a` depends on `b`. -/
def DependsOn (a b : String) : Prop := ∃ step ∈ plan.steps, step.id = a ∧ b ∈ step.dependsOn

theorem byId_isSome_iff (id : String) : (plan.byId id).isSome ↔ id ∈ plan.ids := by
  rw [byId, List.findRev?_eq_find?_reverse, List.find?_isSome]
  simp [ids]

theorem mem_of_byId {id : String} {step : PlanStep} (h : plan.byId id = some step) :
    step ∈ plan.steps ∧ step.id = id := by
  rw [byId, List.findRev?_eq_find?_reverse] at h
  have hmem := List.mem_of_find?_eq_some h
  have hid := List.find?_some h
  exact ⟨List.mem_reverse.mp hmem, by simpa using hid⟩

/-- With distinct ids the map holds every step. -/
theorem byId_of_mem (hdistinct : plan.ids.Nodup) {step : PlanStep} (h : step ∈ plan.steps) :
    plan.byId step.id = some step := by
  have hid : (plan.byId step.id).isSome :=
    (plan.byId_isSome_iff _).mpr (List.mem_map_of_mem h)
  obtain ⟨found, hfound⟩ := Option.isSome_iff_exists.mp hid
  obtain ⟨hmem, hsame⟩ := plan.mem_of_byId hfound
  rw [hfound, List.inj_on_of_nodup_map hdistinct hmem h hsame]

theorem known_of_dependencies {id : String} (h : plan.dependenciesOf id ≠ []) :
    id ∈ plan.ids := by
  rw [← byId_isSome_iff]
  unfold dependenciesOf at h
  cases hstep : plan.byId id with
  | none => rw [hstep] at h; exact absurd rfl h
  | some step => rfl

theorem edge_iff_dependsOn (hdistinct : plan.ids.Nodup) (a b : String) :
    Edge plan.dependenciesOf a b ↔ plan.DependsOn a b := by
  unfold Edge dependenciesOf DependsOn
  constructor
  · intro h
    cases hstep : plan.byId a with
    | none => rw [hstep] at h; exact absurd h List.not_mem_nil
    | some step =>
      rw [hstep] at h
      obtain ⟨hmem, hid⟩ := plan.mem_of_byId hstep
      exact ⟨step, hmem, hid, h⟩
  · intro h
    obtain ⟨step, hmem, rfl, hdep⟩ := h
    rw [plan.byId_of_mem hdistinct hmem]
    exact hdep

theorem acyclic_iff (hdistinct : plan.ids.Nodup) :
    Acyclic plan.dependenciesOf ↔ ∀ id, ¬ TransGen plan.DependsOn id id := by
  have hsame : Edge plan.dependenciesOf = plan.DependsOn :=
    funext fun a => funext fun b => propext (plan.edge_iff_dependsOn hdistinct a b)
  rw [Acyclic, hsame]

theorem duplicateErrors_eq_nil_iff : plan.duplicateErrors = [] ↔ plan.ids.Nodup := by
  have hcard := Multiset.toFinset_card_eq_card_iff_nodup (m := (plan.ids : Multiset String))
  rw [List.toFinset_coe, Multiset.coe_card, Multiset.coe_nodup] at hcard
  rw [duplicateErrors, ← hcard]
  simp

theorem unknownErrors_eq_nil_iff :
    plan.unknownErrors = [] ↔ ∀ step ∈ plan.steps, ∀ dep ∈ step.dependsOn, dep ∈ plan.ids := by
  simp [unknownErrors, List.flatMap_eq_nil_iff, List.filter_eq_nil_iff]

/-- The search ends with fuel for one frame a step. -/
theorem searchCycle_ends (fuel : ℕ) (hfuel : plan.steps.length ≤ fuel) :
    ∃ cyclic, plan.searchCycle fuel = some cyclic := by
  have hknown : ∀ a, (plan.byId a).isSome = true → a ∈ plan.ids.toFinset := by
    intro a ha
    exact List.mem_toFinset.mpr ((plan.byId_isSome_iff a).mp ha)
  have hcard : plan.ids.toFinset.card ≤ fuel := by
    have hle := plan.ids.toFinset_card_le
    rw [ids, List.length_map] at hle
    exact hle.trans hfuel
  exact searchFrom_ends hcard (visit_ends _ hknown fuel) plan.ids
    (fun a ha => List.mem_toFinset.mpr ha) _

theorem searchCycle_iff (fuel : ℕ) {cyclic : Bool} (h : plan.searchCycle fuel = some cyclic) :
    cyclic = false ↔ Acyclic plan.dependenciesOf := by
  refine searchFrom_iff ?_ fuel plan.ids (fun a ha => plan.known_of_dependencies ha) h
  intro a ha
  exact (plan.byId_isSome_iff a).mpr (plan.known_of_dependencies ha)

/-- What a verdict, whenever one is reached, says about the plan. -/
theorem valid_iff (fuel : ℕ) {verdict : PlanValidation}
    (h : plan.validatePlanDag fuel = some verdict) :
    verdict.valid = true ↔ plan.ids.Nodup ∧
      (∀ step ∈ plan.steps, ∀ dep ∈ step.dependsOn, dep ∈ plan.ids) ∧
      ∀ id, ¬ TransGen plan.DependsOn id id := by
  obtain ⟨cyclic, hsearch, rfl⟩ := Option.map_eq_some_iff.mp h
  have hcycle := plan.searchCycle_iff fuel hsearch
  simp only [List.length_eq_zero_iff, decide_eq_true_eq, List.append_eq_nil_iff,
    duplicateErrors_eq_nil_iff, unknownErrors_eq_nil_iff, and_assoc]
  apply and_congr_right
  intro hdistinct
  rw [← plan.acyclic_iff hdistinct, ← hcycle]
  cases cyclic <;> simp

/-- The verdict does not depend on the fuel once there is enough of it. -/
theorem verdict_unique {fuel fuel' : ℕ} {verdict verdict' : PlanValidation}
    (h : plan.validatePlanDag fuel = some verdict)
    (h' : plan.validatePlanDag fuel' = some verdict') : verdict = verdict' := by
  obtain ⟨cyclic, hsearch, rfl⟩ := Option.map_eq_some_iff.mp h
  obtain ⟨cyclic', hsearch', rfl⟩ := Option.map_eq_some_iff.mp h'
  have hsame : cyclic = false ↔ cyclic' = false :=
    (plan.searchCycle_iff fuel hsearch).trans (plan.searchCycle_iff fuel' hsearch').symm
  have : cyclic = cyclic' := by
    cases cyclic <;> cases cyclic' <;> simp_all
  rw [this]

/-- Validation ends on every list of steps, and accepts exactly the plans with distinct
ids whose dependencies all name steps and never lead back to where they start. -/
theorem validatePlanDag_correct :
    ∃ verdict, (∀ fuel, plan.steps.length ≤ fuel → plan.validatePlanDag fuel = some verdict) ∧
      (verdict.valid = true ↔ plan.ids.Nodup ∧
        (∀ step ∈ plan.steps, ∀ dep ∈ step.dependsOn, dep ∈ plan.ids) ∧
        ∀ id, ¬ TransGen plan.DependsOn id id) := by
  have hends : ∀ fuel, plan.steps.length ≤ fuel →
      ∃ verdict, plan.validatePlanDag fuel = some verdict := by
    intro fuel hfuel
    obtain ⟨cyclic, hsearch⟩ := plan.searchCycle_ends fuel hfuel
    exact ⟨_, by rw [validatePlanDag, hsearch]; rfl⟩
  obtain ⟨verdict, hverdict⟩ := hends plan.steps.length le_rfl
  refine ⟨verdict, fun fuel hfuel => ?_, plan.valid_iff _ hverdict⟩
  obtain ⟨verdict', hverdict'⟩ := hends fuel hfuel
  rw [hverdict', plan.verdict_unique hverdict' hverdict]

end PlanDag

end Gittensory.PlanGraph
