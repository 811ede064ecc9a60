import Gittensory.GuardedRun
import Gittensory.JsValue
import Mathlib.Algebra.Order.Floor.Ring
import Mathlib.Data.Rat.Floor
import Mathlib.Logic.Function.Basic

/-!
The daily limits of the AI review (`services/ai-review.ts`, `runGittensoryAiReview`). A
review sums the neurons recorded that day and counts the repository's calls with a
maintainer's key, then waits for its models, and records itself at the end. Where nothing
was recorded between a review's sum and its own record, and every provider call made for
the repository is among those that the review counted, neither limit is exceeded.
-/
namespace Gittensory.AiBudget

open GuardedRun JsValue

/-! ## The limits and the estimate -/

/-- What the review reads of the environment, numbers as `Number` reads them; a variable
that is unset or empty is `none`, and `NaN` where only `Number` sees it. -/
structure Env where
  aiSummariesEnabled : Option String
  aiPublicCommentsEnabled : Option String
  ai : Bool
  aiMaxOutputTokens : JsNumber
  aiDailyNeuronBudget : Option JsNumber
  aiByokDailyRepoLimit : Option JsNumber

inductive ReviewMode where
  | advisory
  | block
  deriving DecidableEq, Repr

/-- `promptChars` is the length of the system prompt and the user prompt together, and
`providerKey` the provider of the maintainer's key. -/
structure ReviewCall where
  repoFullName : String
  mode : ReviewMode
  providerKey : Option String
  promptChars : ℕ
  deriving DecidableEq, Repr

def isEnabled (value : Option String) : Bool :=
  (value.getD "").toLower ∈ ["1", "true", "yes", "on"]

/-- Both bounds are at least zero. -/
def clampNumber (value : JsNumber) (low high : ℕ) : ℕ :=
  match value with
  | .finite value => min high (max low ⌊value⌋₊)
  | _ => low

def reviews (env : Env) : Bool :=
  isEnabled env.aiSummariesEnabled && isEnabled env.aiPublicCommentsEnabled && env.ai

def maxTokens (env : Env) : ℕ :=
  let value := env.aiMaxOutputTokens
  clampNumber (if value = .nan ∨ value = .finite 0 then .finite 4096 else value) 512 8192

def budget (env : Env) : ℕ :=
  match env.aiDailyNeuronBudget with
  | some (.finite value) => clampNumber (.finite value) 0 10000000
  | _ => clampNumber (.finite 10000000) 0 10000000

def defaultByokDailyRepoLimit : ℕ := 25

def byokDailyLimit (env : Env) : ℕ :=
  clampNumber (env.aiByokDailyRepoLimit.getD (.finite defaultByokDailyRepoLimit)) 0 10000

def freeAiCalls (call : ReviewCall) : ℕ :=
  (if call.mode = .block then 2 else 0) + (if call.providerKey.isSome then 0 else 1)

section Estimate

-- What `Math.ceil(tokens * 0.035)`, a product of doubles, comes to.
variable (neuronsOf : ℕ → ℕ)

def estimateNeurons (promptChars maxOutputTokens calls : ℕ) : ℕ :=
  max 1 (neuronsOf ((promptChars + 3) / 4 + maxOutputTokens) * max 1 calls)

def estimatedNeurons (env : Env) (call : ReviewCall) : ℕ :=
  if freeAiCalls call = 0 then 0
  else estimateNeurons neuronsOf call.promptChars (maxTokens env) (freeAiCalls call)

end Estimate

/-! ## The day's usage -/

inductive UsageStatus where
  | ok
  | quotaExceeded
  deriving DecidableEq, Repr

inductive UsageModel where
  | workers
  | byok (provider : String)
  deriving DecidableEq, Repr

/-- A row of `ai_usage_events` of the day. -/
structure UsageEvent where
  model : UsageModel
  status : UsageStatus
  estimatedNeurons : ℕ
  repoFullName : String
  deriving DecidableEq, Repr

def sumAiEstimatedNeurons (usage : List UsageEvent) : ℕ :=
  ((usage.filter fun event => event.status = .ok).map UsageEvent.estimatedNeurons).sum

def isByokOf (repoFullName : String) (event : UsageEvent) : Bool :=
  event.status = .ok && event.model ≠ .workers && event.repoFullName = repoFullName

def countByokAiEventsForRepo (usage : List UsageEvent) (repoFullName : String) : ℕ :=
  usage.countP (isByokOf repoFullName)

def usageEvent (call : ReviewCall) (status : UsageStatus) (neurons : ℕ) : UsageEvent where
  model := match call.providerKey with
    | none => .workers
    | some provider => .byok provider
  status := status
  estimatedNeurons := neurons
  repoFullName := call.repoFullName

/-! ## The reviews of one day -/

/-- Where a review is between its steps, with what it has read. -/
inductive Phase where
  | arrived
  | budgeted (used : ℕ)
  | admitted (used : ℕ) (byokUsed : Option ℕ)
  | advised (used : ℕ)
  | reviewed (used : ℕ)
  | refused
  | answered
  deriving DecidableEq, Repr

/-- The day's rows and the reviews under way. The repositories whose maintainers' providers
were called, one entry a call, are kept for the statements only. -/
structure System where
  usage : List UsageEvent
  calls : ℕ → Phase
  providerCalls : List String

def start : System where
  usage := []
  calls := fun _ => .arrived
  providerCalls := []

/-- A review takes its next step, or is lost: its worker ends or one of its calls throws. -/
inductive Event where
  | sumNeurons (call : ℕ)
  | countByok (call : ℕ)
  | advise (call : ℕ)
  | consult (call : ℕ)
  | record (call : ℕ)
  | lose (call : ℕ)
  deriving DecidableEq, Repr

namespace System

def goesTo (s : System) (call : ℕ) (phase : Phase) : System :=
  { s with calls := Function.update s.calls call phase }

def records (s : System) (event : UsageEvent) : System := { s with usage := event :: s.usage }

def callsProvider (s : System) (repoFullName : String) : System :=
  { s with providerCalls := repoFullName :: s.providerCalls }

end System

section Run

variable (neuronsOf : ℕ → ℕ) (env : Env) (inputs : ℕ → ReviewCall)

/-- The phase after the budget's check; only a review with a key has a second one. -/
def budgetPhase (call : ReviewCall) (used : ℕ) : Phase :=
  if budget env - used < estimatedNeurons neuronsOf env call then .refused
  else if call.providerKey.isSome then .budgeted used
  else .admitted used none

def byokPhase (used byokUsed : ℕ) : Phase :=
  if byokDailyLimit env ≤ byokUsed then .refused else .admitted used (some byokUsed)

/-- One step; what is not enabled does nothing. -/
def step (s : System) : Event → System
  | .sumNeurons call =>
      if s.calls call = .arrived ∧ reviews env then
        s.goesTo call (budgetPhase neuronsOf env (inputs call) (sumAiEstimatedNeurons s.usage))
      else s
  | .countByok call =>
      match s.calls call with
      | .budgeted used =>
          s.goesTo call (byokPhase env used
            (countByokAiEventsForRepo s.usage (inputs call).repoFullName))
      | _ => s
  | .advise call =>
      match s.calls call with
      | .admitted used none => s.goesTo call (.advised used)
      | .admitted used (some _) =>
          (s.callsProvider (inputs call).repoFullName).goesTo call (.advised used)
      | _ => s
  | .consult call =>
      match s.calls call with
      | .advised used => s.goesTo call (.reviewed used)
      | _ => s
  | .record call =>
      match s.calls call with
      | .refused => (s.records (usageEvent (inputs call) .quotaExceeded 0)).goesTo call .answered
      | .reviewed _ =>
          (s.records (usageEvent (inputs call) .ok
            (estimatedNeurons neuronsOf env (inputs call)))).goesTo call .answered
      | _ => s
  | .lose call => s.goesTo call .answered

/-- The calls that a review about to call its provider has counted. -/
def Phase.counted : Phase → Option ℕ
  | .admitted _ byokUsed => byokUsed
  | _ => none

/-- The neurons that a review about to record its success has summed. -/
def Phase.summed : Phase → Option ℕ
  | .reviewed used => some used
  | _ => none

/-- A review that calls a provider has counted every call made for its repository, and one
that records neurons does so on the sum it read. -/
def Current (s : System) : Event → Prop
  | .advise call =>
      ∀ byokUsed ∈ (s.calls call).counted,
        s.providerCalls.count (inputs call).repoFullName ≤ byokUsed
  | .record call =>
      ∀ used ∈ (s.calls call).summed,
        estimatedNeurons neuronsOf env (inputs call) = 0 ∨ sumAiEstimatedNeurons s.usage ≤ used
  | _ => True

instance (s : System) : (event : Event) → Decidable (Current neuronsOf env inputs s event)
  | .sumNeurons _ => isTrue trivial
  | .countByok _ => isTrue trivial
  | .advise _ => inferInstanceAs (Decidable (∀ byokUsed ∈ _, _))
  | .consult _ => isTrue trivial
  | .record _ => inferInstanceAs (Decidable (∀ used ∈ _, _))
  | .lose _ => isTrue trivial

/-- What a review that is past its checks has made sure of. -/
def Passed (call : ReviewCall) : Phase → Prop
  | .budgeted used => used + estimatedNeurons neuronsOf env call ≤ budget env
  | .admitted used byokUsed =>
      used + estimatedNeurons neuronsOf env call ≤ budget env ∧
        ∀ counted ∈ byokUsed, counted < byokDailyLimit env
  | .advised used => used + estimatedNeurons neuronsOf env call ≤ budget env
  | .reviewed used => used + estimatedNeurons neuronsOf env call ≤ budget env
  | _ => True

/-- What holds all along a run in which every step is current. -/
structure Within (s : System) : Prop where
  neurons : sumAiEstimatedNeurons s.usage ≤ budget env
  calls : ∀ repo, s.providerCalls.count repo ≤ byokDailyLimit env
  passed : ∀ call, Passed neuronsOf env (inputs call) (s.calls call)

theorem calls_goesTo_self (s : System) (call : ℕ) (phase : Phase) :
    (s.goesTo call phase).calls call = phase := Function.update_self _ _ _

theorem calls_goesTo_of_ne (s : System) {call other : ℕ} (h : other ≠ call) (phase : Phase) :
    (s.goesTo call phase).calls other = s.calls other := Function.update_of_ne h _ _

theorem within_start : Within neuronsOf env inputs start where
  neurons := Nat.zero_le _
  calls := fun _ => Nat.zero_le _
  passed := fun _ => trivial

theorem passed_budgetPhase (call : ReviewCall) (used : ℕ) (hused : used ≤ budget env) :
    Passed neuronsOf env call (budgetPhase neuronsOf env call used) := by
  rw [budgetPhase]
  split_ifs with hover hkey
  · trivial
  · change used + estimatedNeurons neuronsOf env call ≤ budget env
    omega
  · refine ⟨by omega, ?_⟩
    intro _ hcounted
    cases hcounted

theorem passed_byokPhase (call : ReviewCall) {used : ℕ}
    (hused : used + estimatedNeurons neuronsOf env call ≤ budget env) (byokUsed : ℕ) :
    Passed neuronsOf env call (byokPhase env used byokUsed) := by
  rw [byokPhase]
  split_ifs with hlimit
  · trivial
  · refine ⟨hused, ?_⟩
    intro counted hcounted
    obtain rfl := Option.some.inj hcounted
    exact Nat.lt_of_not_le hlimit

/-- Only rows of a success are summed. -/
theorem sum_quotaExceeded (call : ReviewCall) (neurons : ℕ) (usage : List UsageEvent) :
    sumAiEstimatedNeurons (usageEvent call .quotaExceeded neurons :: usage) =
      sumAiEstimatedNeurons usage := rfl

theorem sum_ok (call : ReviewCall) (neurons : ℕ) (usage : List UsageEvent) :
    sumAiEstimatedNeurons (usageEvent call .ok neurons :: usage) =
      neurons + sumAiEstimatedNeurons usage := by
  simp [sumAiEstimatedNeurons, usageEvent]

section Steps

variable {neuronsOf env inputs} {s : System} (h : Within neuronsOf env inputs s)
include h

theorem within_goesTo (call : ℕ) {phase : Phase}
    (hphase : Passed neuronsOf env (inputs call) phase) :
    Within neuronsOf env inputs (s.goesTo call phase) where
  neurons := h.neurons
  calls := h.calls
  passed := by
    intro other
    by_cases heq : other = call
    · subst heq
      rw [calls_goesTo_self]
      exact hphase
    · rw [calls_goesTo_of_ne s heq]
      exact h.passed other

theorem within_records (event : UsageEvent)
    (hsum : sumAiEstimatedNeurons (event :: s.usage) ≤ budget env) :
    Within neuronsOf env inputs (s.records event) := ⟨hsum, h.calls, h.passed⟩

theorem within_callsProvider (repo : String)
    (hcount : s.providerCalls.count repo < byokDailyLimit env) :
    Within neuronsOf env inputs (s.callsProvider repo) where
  neurons := h.neurons
  calls := by
    intro other
    rw [System.callsProvider, List.count_cons]
    by_cases heq : repo = other
    · subst heq
      rw [if_pos (beq_self_eq_true repo)]
      exact hcount
    · rw [if_neg (by simpa using heq)]
      exact h.calls other
  passed := h.passed

theorem within_advise (call : ℕ) (hcurrent : Current neuronsOf env inputs s (.advise call)) :
    Within neuronsOf env inputs (step neuronsOf env inputs s (.advise call)) := by
  have hpassed := h.passed call
  rw [Current] at hcurrent
  rw [step]
  split
  case h_1 used hphase =>
    rw [hphase] at hpassed
    exact within_goesTo h call hpassed.1
  case h_2 used byokUsed hphase =>
    rw [hphase] at hpassed hcurrent
    have hall : s.providerCalls.count (inputs call).repoFullName ≤ byokUsed :=
      hcurrent byokUsed rfl
    have hlimit : byokUsed < byokDailyLimit env := hpassed.2 byokUsed rfl
    exact within_goesTo (within_callsProvider h _ (Nat.lt_of_le_of_lt hall hlimit)) call hpassed.1
  case h_3 => exact h

theorem within_record (call : ℕ) (hcurrent : Current neuronsOf env inputs s (.record call)) :
    Within neuronsOf env inputs (step neuronsOf env inputs s (.record call)) := by
  have hpassed := h.passed call
  rw [Current] at hcurrent
  rw [step]
  split
  case h_1 hphase =>
    refine within_goesTo (within_records h _ ?_) call trivial
    rw [sum_quotaExceeded]
    exact h.neurons
  case h_2 used hphase =>
    rw [hphase] at hpassed hcurrent
    refine within_goesTo (within_records h _ ?_) call trivial
    rw [sum_ok]
    have hbudget : used + estimatedNeurons neuronsOf env (inputs call) ≤ budget env := hpassed
    rcases hcurrent used rfl with hnothing | hsum
    · rw [hnothing, Nat.zero_add]
      exact h.neurons
    · omega
  case h_3 => exact h

theorem within_step (event : Event) (hcurrent : Current neuronsOf env inputs s event) :
    Within neuronsOf env inputs (step neuronsOf env inputs s event) := by
  cases event with
  | sumNeurons call =>
    rw [step]
    split_ifs
    · exact within_goesTo h call (passed_budgetPhase neuronsOf env (inputs call) _ h.neurons)
    · exact h
  | countByok call =>
    have hpassed := h.passed call
    rw [step]
    split
    case h_1 used hphase =>
      rw [hphase] at hpassed
      exact within_goesTo h call (passed_byokPhase neuronsOf env (inputs call) hpassed _)
    case h_2 => exact h
  | advise call => exact within_advise h call hcurrent
  | consult call =>
    have hpassed := h.passed call
    rw [step]
    split
    case h_1 used hphase =>
      rw [hphase] at hpassed
      exact within_goesTo h call hpassed
    case h_2 => exact h
  | record call => exact within_record h call hcurrent
  | lose call => exact within_goesTo h call trivial

end Steps

/-- In every run of current steps both limits hold. -/
theorem limits_of_current (events : List Event)
    (h : Guarded (step neuronsOf env inputs) (Current neuronsOf env inputs) start events) :
    sumAiEstimatedNeurons (run (step neuronsOf env inputs) start events).usage ≤ budget env ∧
      ∀ repo, (run (step neuronsOf env inputs) start events).providerCalls.count repo ≤
        byokDailyLimit env := by
  have hwithin := run_invariant (step neuronsOf env inputs) (Current neuronsOf env inputs)
    (fun _ event hwithin hcurrent => within_step hwithin event hcurrent) start events
    (within_start neuronsOf env inputs) h
  exact ⟨hwithin.neurons, hwithin.calls⟩

end Run

/-- `Math.ceil(tokens * 0.035)` without the rounding of doubles. -/
def exactNeurons (tokens : ℕ) : ℕ := (tokens * 35 + 999) / 1000

/-- 200 neurons a day and one call a day with a maintainer's key. -/
def smallEnv : Env where
  aiSummariesEnabled := some "true"
  aiPublicCommentsEnabled := some "true"
  ai := true
  aiMaxOutputTokens := .nan
  aiDailyNeuronBudget := some (.finite 200)
  aiByokDailyRepoLimit := some (.finite 1)

/-- The first two reviews have a maintainer's key, the others do not. -/
def twoKeyedReviews (call : ℕ) : ReviewCall where
  repoFullName := "acme/widgets"
  mode := .advisory
  providerKey := if call < 2 then some "anthropic" else none
  promptChars := 1000

/-- A review with a key and one without, and a second with a key that counts the first. -/
def orderlyRun : List Event :=
  [.sumNeurons 0, .countByok 0, .sumNeurons 2, .advise 0, .consult 0, .advise 2, .consult 2,
    .record 0, .record 2, .sumNeurons 1, .countByok 1, .record 1]

/-- Two reviews at a time, each past its check before the other has recorded. -/
def racedRun (first second : ℕ) : List Event :=
  [.sumNeurons first, .sumNeurons second, .countByok first, .countByok second, .advise first,
    .advise second, .consult first, .consult second, .record first, .record second]

theorem limits_orderlyRun :
    let s := run (step exactNeurons smallEnv twoKeyedReviews) start orderlyRun
    s.usage.map UsageEvent.status = [.quotaExceeded, .ok, .ok] ∧
      sumAiEstimatedNeurons s.usage ≤ budget smallEnv ∧
      ∀ repo, s.providerCalls.count repo ≤ byokDailyLimit smallEnv :=
  ⟨by decide +kernel,
    limits_of_current exactNeurons smallEnv twoKeyedReviews orderlyRun (by decide +kernel)⟩

/-- Two reviews on the free models record 306 neurons, and two with a key call it twice. -/
theorem raced_over_limits :
    ¬ (∀ (neuronsOf : ℕ → ℕ) (env : Env) (inputs : ℕ → ReviewCall) (events : List Event),
      sumAiEstimatedNeurons (run (step neuronsOf env inputs) start events).usage ≤
        budget env) ∧
    ¬ ∀ (neuronsOf : ℕ → ℕ) (env : Env) (inputs : ℕ → ReviewCall) (events : List Event) (repo),
      (run (step neuronsOf env inputs) start events).providerCalls.count repo ≤
        byokDailyLimit env := by
  constructor
  · intro h
    exact absurd (h exactNeurons smallEnv twoKeyedReviews (racedRun 2 3)) (by decide +kernel)
  · intro h
    exact absurd (h exactNeurons smallEnv twoKeyedReviews (racedRun 0 1) "acme/widgets")
      (by decide +kernel)

end Gittensory.AiBudget
