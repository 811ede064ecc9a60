import Gittensory.PullRequestAdvisory

/-!
The public readiness score of a pull request (`signals/engine.ts`): six components, each
between nothing and its own maximum, whose maxima add up to a hundred. Two pull requests that
say the same in title, body and links differ in it only by what overlaps with them and by
being a draft.
-/
namespace Gittensory.ReadinessScore

open JsValue PullRequestAdvisory TextPattern

inductive PreflightStatus where
  | ready
  | needsWork
  | hold
  deriving DecidableEq, Repr

inductive ReviewBurden where
  | low
  | medium
  | high
  deriving DecidableEq, Repr

/-- Of the findings only the codes are read. -/
structure PreflightResult where
  status : PreflightStatus
  reviewBurden : ReviewBurden
  linkedIssues : List ℕ
  findingCodes : List String
  deriving DecidableEq, Repr

structure QueueHealth where
  openPullRequests : ℤ
  deriving DecidableEq, Repr

inductive ComponentKey where
  | traceability
  | relatedWork
  | changeScope
  | validation
  | prState
  | queuePressure
  deriving DecidableEq, Repr

structure ReadinessComponent where
  key : ComponentKey
  score : ℤ
  max : ℤ
  deriving DecidableEq, Repr

structure PublicReadinessScore where
  total : ℤ
  components : List ReadinessComponent
  deriving DecidableEq, Repr

def clamp (value low high : ℤ) : ℤ := max low (min high value)

section Patterns

/-- `no issue\s*(?:because\b|:)` and its variants. -/
def reasonedPattern (phrase : String) : Pattern :=
  .seqs [.literalNoCase phrase, .star (.char spaceSet),
    .alts [.seqs [.literalNoCase "because", .wordBoundary], .literal ":"]]

def noIssueRationalePattern : Pattern :=
  .seqs [.wordBoundary, .alts [reasonedPattern "no issue", reasonedPattern "no linked issue",
    reasonedPattern "no ticket",
    .seqs [.alts [.literalNoCase "maintenance",
      .seqs [.literalNoCase "doc", .opt (.literalNoCase "s"), .literalNoCase " only"],
      .literalNoCase "typo", .literalNoCase "chore", .literalNoCase "cleanup"], .wordBoundary]]]

def validationNotePattern : Pattern :=
  .seqs [.wordBoundary, .alts [
    .seqs [.literalNoCase "test",
      .opt (.alts [.literalNoCase "ed", .literalNoCase "s", .literalNoCase "ing"])],
    .literalNoCase "validation", .literalNoCase "validated", .literalNoCase "verified",
    .literalNoCase "manual check", .literalNoCase "smoke", .literalNoCase "pytest",
    .literalNoCase "vitest", .literalNoCase "npm test", .literalNoCase "pnpm test",
    .literalNoCase "cargo test", .literalNoCase "go test"], .wordBoundary]

/-- `/missing.*test|test.*missing|no_test/i`. -/
def missingTestsPattern : Pattern :=
  .alts [.seqs [.literalNoCase "missing", .star .dot, .literalNoCase "test"],
    .seqs [.literalNoCase "test", .star .dot, .literalNoCase "missing"],
    .literalNoCase "no_test"]

def hasClearNoIssueRationale (pr : PullRequestRecord) : Bool :=
  test noIssueRationalePattern (pr.title ++ " " ++ pr.body.getD "").toList

def hasValidationNote (value : String) : Bool := test validationNotePattern value.toList

end Patterns

section Components

def traceabilityScore (pr : PullRequestRecord) : ℤ :=
  if pr.linkedIssues ≠ [] ∨ hasClearNoIssueRationale pr = true then 15 else 8

def relatedWorkScore (linkedDuplicatePrs : List ℕ) (scopedOverlapCount : ℕ) : ℤ :=
  if linkedDuplicatePrs ≠ [] then 8 else if 0 < scopedOverlapCount then 14 else 20

def reviewLoadComponentScore : ReviewBurden → ℤ
  | .low => 20
  | .medium => 14
  | .high => 8

def validationComponentScore (pr : PullRequestRecord) (preflight : PreflightResult) : ℤ :=
  let missingTests := preflight.findingCodes.any fun code => test missingTestsPattern code.toList
  let explicitValidation := hasValidationNote (pr.body.getD "")
  if preflight.status = .hold then 5
  else if (missingTests && !explicitValidation) = true then 10
  else if explicitValidation = true then 25
  else if preflight.status = .ready then 20
  else 12

def prStateScore (pr : PullRequestRecord) : ℤ :=
  if pr.state = "open" ∧ pr.isDraft ≠ some true then 10
  else if pr.state = "open" then 6
  else 3

def queuePressureOpenPullRequestScore (openPullRequests : ℤ) : ℤ :=
  if openPullRequests ≤ 4 then 10
  else if openPullRequests ≤ 8 then 8
  else if openPullRequests ≤ 13 then 5
  else 3

def queuePressureScore (openPullRequests : ℤ) : ℤ :=
  if openPullRequests = 0 then 10 else queuePressureOpenPullRequestScore openPullRequests

def readinessComponents (pr : PullRequestRecord) (preflight : PreflightResult)
    (queueHealth : QueueHealth) (linkedDuplicatePrs : List ℕ) (scopedOverlapCount : ℕ) :
    List ReadinessComponent :=
  [⟨.traceability, traceabilityScore pr, 15⟩,
    ⟨.relatedWork, relatedWorkScore linkedDuplicatePrs scopedOverlapCount, 20⟩,
    ⟨.changeScope, reviewLoadComponentScore preflight.reviewBurden, 20⟩,
    ⟨.validation, validationComponentScore pr preflight, 25⟩,
    ⟨.prState, prStateScore pr, 10⟩,
    ⟨.queuePressure, queuePressureScore (max 0 queueHealth.openPullRequests), 10⟩]

def buildPublicReadinessScore (pr : PullRequestRecord) (preflight : PreflightResult)
    (queueHealth : QueueHealth) (linkedDuplicatePrs : List ℕ) (scopedOverlapCount : ℕ) :
    PublicReadinessScore :=
  let components :=
    readinessComponents pr preflight queueHealth linkedDuplicatePrs scopedOverlapCount
  ⟨clamp (components.map ReadinessComponent.score).sum 0 100, components⟩

end Components

section Bounds

/-- A component stays between nothing and its maximum. -/
def ReadinessComponent.Within (component : ReadinessComponent) : Prop :=
  0 ≤ component.score ∧ component.score ≤ component.max

theorem traceability_within (pr : PullRequestRecord) :
    0 ≤ traceabilityScore pr ∧ traceabilityScore pr ≤ 15 := by
  unfold traceabilityScore
  split_ifs <;> decide

theorem relatedWork_within (linkedDuplicatePrs : List ℕ) (scopedOverlapCount : ℕ) :
    0 ≤ relatedWorkScore linkedDuplicatePrs scopedOverlapCount ∧
      relatedWorkScore linkedDuplicatePrs scopedOverlapCount ≤ 20 := by
  unfold relatedWorkScore
  split_ifs <;> decide

theorem reviewLoad_within (reviewBurden : ReviewBurden) :
    0 ≤ reviewLoadComponentScore reviewBurden ∧ reviewLoadComponentScore reviewBurden ≤ 20 := by
  cases reviewBurden <;> decide

theorem validation_within (pr : PullRequestRecord) (preflight : PreflightResult) :
    0 ≤ validationComponentScore pr preflight ∧ validationComponentScore pr preflight ≤ 25 := by
  unfold validationComponentScore
  dsimp only
  split_ifs <;> decide

theorem prState_within (pr : PullRequestRecord) : 0 ≤ prStateScore pr ∧ prStateScore pr ≤ 10 := by
  unfold prStateScore
  split_ifs <;> decide

theorem queuePressure_within (openPullRequests : ℤ) :
    0 ≤ queuePressureScore openPullRequests ∧ queuePressureScore openPullRequests ≤ 10 := by
  unfold queuePressureScore queuePressureOpenPullRequestScore
  split_ifs <;> decide

theorem components_within (pr : PullRequestRecord) (preflight : PreflightResult)
    (queueHealth : QueueHealth) (linkedDuplicatePrs : List ℕ) (scopedOverlapCount : ℕ) :
    ∀ component ∈ readinessComponents pr preflight queueHealth linkedDuplicatePrs
      scopedOverlapCount, component.Within := by
  intro component hcomponent
  simp only [readinessComponents, List.mem_cons, List.not_mem_nil, or_false] at hcomponent
  rcases hcomponent with rfl | rfl | rfl | rfl | rfl | rfl
  · exact traceability_within pr
  · exact relatedWork_within _ _
  · exact reviewLoad_within _
  · exact validation_within pr preflight
  · exact prState_within pr
  · exact queuePressure_within _

theorem sum_within {components : List ReadinessComponent} (h : ∀ c ∈ components, c.Within) :
    0 ≤ (components.map ReadinessComponent.score).sum ∧
      (components.map ReadinessComponent.score).sum ≤
        (components.map ReadinessComponent.max).sum := by
  induction components with
  | nil => exact ⟨le_rfl, le_rfl⟩
  | cons first rest ih =>
    have hfirst := h first List.mem_cons_self
    have hrest := ih fun component hmem => h component (List.mem_cons_of_mem _ hmem)
    simp only [List.map_cons, List.sum_cons]
    exact ⟨add_nonneg hfirst.1 hrest.1, add_le_add hfirst.2 hrest.2⟩

/-- The maxima add up to a hundred, so the total is the sum of the components. -/
theorem total_eq_sum (pr : PullRequestRecord) (preflight : PreflightResult)
    (queueHealth : QueueHealth) (linkedDuplicatePrs : List ℕ) (scopedOverlapCount : ℕ) :
    (buildPublicReadinessScore pr preflight queueHealth linkedDuplicatePrs
      scopedOverlapCount).total =
      ((readinessComponents pr preflight queueHealth linkedDuplicatePrs scopedOverlapCount).map
        ReadinessComponent.score).sum := by
  have hwithin := sum_within (components_within pr preflight queueHealth linkedDuplicatePrs
    scopedOverlapCount)
  have hmaxima : ((readinessComponents pr preflight queueHealth linkedDuplicatePrs
    scopedOverlapCount).map ReadinessComponent.max).sum = 100 := rfl
  rw [hmaxima] at hwithin
  unfold buildPublicReadinessScore clamp
  dsimp only
  rw [min_eq_right hwithin.2, max_eq_right hwithin.1]

end Bounds

section Penalties

theorem relatedWorkScore_le (linkedDuplicatePrs : List ℕ) (scopedOverlapCount : ℕ) :
    relatedWorkScore linkedDuplicatePrs scopedOverlapCount ≤
      relatedWorkScore [] scopedOverlapCount := by
  unfold relatedWorkScore
  split_ifs <;> simp_all

theorem traceabilityScore_congr {pr other : PullRequestRecord} (htitle : pr.title = other.title)
    (hbody : pr.body = other.body) (hlinked : pr.linkedIssues = other.linkedIssues) :
    traceabilityScore pr = traceabilityScore other := by
  unfold traceabilityScore hasClearNoIssueRationale
  rw [htitle, hbody, hlinked]

theorem validationComponentScore_congr {pr other : PullRequestRecord} (hbody : pr.body = other.body)
    (preflight : PreflightResult) :
    validationComponentScore pr preflight = validationComponentScore other preflight := by
  unfold validationComponentScore
  rw [hbody]

theorem prStateScore_open {pr : PullRequestRecord} (hopen : pr.state = "open")
    (hdraft : pr.isDraft = none) : prStateScore pr = 10 :=
  if_pos ⟨hopen, by rw [hdraft]; nofun⟩

/-- An open pull request that is no draft and has no duplicates scores at least as well as
the same one with duplicates, in whatever state. -/
theorem total_le_of_same_text {pr plain : PullRequestRecord} (htitle : pr.title = plain.title)
    (hbody : pr.body = plain.body) (hlinked : pr.linkedIssues = plain.linkedIssues)
    (hopen : plain.state = "open") (hdraft : plain.isDraft = none) (preflight : PreflightResult)
    (queueHealth : QueueHealth) (linkedDuplicatePrs : List ℕ) (scopedOverlapCount : ℕ) :
    (buildPublicReadinessScore pr preflight queueHealth linkedDuplicatePrs
        scopedOverlapCount).total ≤
      (buildPublicReadinessScore plain preflight queueHealth [] scopedOverlapCount).total := by
  have hrelated := relatedWorkScore_le linkedDuplicatePrs scopedOverlapCount
  have hstate := (prState_within pr).2
  rw [total_eq_sum, total_eq_sum]
  simp only [readinessComponents, List.map_cons, List.map_nil, List.sum_cons, List.sum_nil,
    traceabilityScore_congr htitle hbody hlinked, validationComponentScore_congr hbody,
    prStateScore_open hopen hdraft]
  omega

end Penalties

end Gittensory.ReadinessScore
