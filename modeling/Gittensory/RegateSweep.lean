import Gittensory.LiveGate
import Mathlib.Data.List.Sort

/-!
The scheduled sweep (`queue/processors.ts`, `settings/agent-sweep.ts`) evaluates the gate of
the stalest open pull requests again. It writes the condition for the linked-issue evidence
out by itself, without the composite, and gives the policy no readiness score, no confirmed
author and no history. So it misses what only the composite or the safety scan turns into a
blocker, and treats every author as a newcomer.
-/
namespace Gittensory.RegateSweep

open AdvisoryGate Autonomy GatePolicy JsValue LiveGate PullRequestAdvisory

def SWEEP_MAX_PRS : ℕ := 25

def SWEEP_FRESHNESS_MS : ℤ := 2 * 60 * 1000

/-- A missing or unreadable timestamp is the stalest. -/
def staleness (pr : PullRequestRecord) : ℤ := pr.updatedAtMs.getD 0

def isStale (freshCutoff : Option ℤ) (pr : PullRequestRecord) : Bool :=
  freshCutoff.all fun cutoff => staleness pr ≤ cutoff

def stalerFirst (a b : PullRequestRecord) : Bool :=
  staleness a < staleness b ∨ (staleness a = staleness b ∧ a.number ≤ b.number)

/-- `nowMs` is what `Date.parse` makes of the time of the sweep. -/
def selectRegateCandidates (pulls : List PullRequestRecord) (nowMs : Option ℤ) :
    List PullRequestRecord :=
  let freshCutoff := nowMs.map fun now => now - SWEEP_FRESHNESS_MS
  (((pulls.filter fun pr => pr.state = "open" && pr.isDraft ≠ some true).filter
    (isStale freshCutoff)).insertionSort fun a b => stalerFirst a b = true).take SWEEP_MAX_PRS

def otherPullRequests (openPullRequests : List PullRequestRecord) (pr : PullRequestRecord) :
    List PullRequestRecord :=
  openPullRequests.filter fun other => other.number ≠ pr.number

def sweepRequiresLinkedIssue (settings : RepositorySettings) : Bool :=
  settings.requireLinkedIssue || settings.linkedIssueGateMode ≠ .off

/-- The gate of one candidate. -/
def regate (settings : RepositorySettings) (repo : Option RepositoryRecord)
    (openPullRequests : List PullRequestRecord) (pr : PullRequestRecord) : GateCheckEvaluation :=
  evaluateGateCheck
    (buildPullRequestAdvisory repo (some pr) (otherPullRequests openPullRequests pr)
      (sweepRequiresLinkedIssue settings))
    (gateCheckPolicy settings none none pr.slopRisk none)

inductive SweepOutcome where
  | denied
  | completed
  deriving DecidableEq, Repr

/-- The audit event of a sweep. -/
structure SweepRecord where
  outcome : SweepOutcome
  detail : String
  openCount : ℕ
  flaggedPulls : List ℕ
  verdicts : List (ℕ × GateCheckConclusion)
  deriving DecidableEq, Repr

def pausedRecord : SweepRecord where
  outcome := .denied
  detail := "agent actions paused — re-gate sweep skipped"
  openCount := 0
  flaggedPulls := []
  verdicts := []

def isFlagged (conclusion : GateCheckConclusion) : Bool :=
  conclusion = .failure ∨ conclusion = .actionRequired

def sweepVerdicts (settings : RepositorySettings) (repo : Option RepositoryRecord)
    (openPullRequests candidates : List PullRequestRecord) : List (ℕ × GateCheckConclusion) :=
  candidates.map fun pr => (pr.number, (regate settings repo openPullRequests pr).conclusion)

def completedRecord (settings : RepositorySettings) (repo : Option RepositoryRecord)
    (openPullRequests candidates : List PullRequestRecord) : SweepRecord :=
  let verdicts := sweepVerdicts settings repo openPullRequests candidates
  let flaggedPulls := (verdicts.filter fun verdict => isFlagged verdict.2).map Prod.fst
  { outcome := .completed
    detail := "scheduled re-gate recomputed " ++ toString candidates.length ++
      " stale open PR verdict(s); " ++ toString flaggedPulls.length ++ " flagged"
    openCount := openPullRequests.length
    flaggedPulls
    verdicts }

/-- What the sweep of one repository records, if anything. -/
def sweepRepoRegate (settings : RepositorySettings) (globalPaused : Bool)
    (repo : Option RepositoryRecord) (openPullRequests : List PullRequestRecord)
    (nowMs : Option ℤ) : Option SweepRecord :=
  if isAgentConfigured settings.autonomy = false then none
  else if resolveAgentActionMode globalPaused settings.agentPaused settings.agentDryRun = .paused then
    some pausedRecord
  else
    let candidates := selectRegateCandidates openPullRequests nowMs
    if candidates = [] then none
    else some (completedRecord settings repo openPullRequests candidates)

section Recorded

theorem candidates_numbers_nodup {pulls : List PullRequestRecord} (nowMs : Option ℤ)
    (hdistinct : (pulls.map PullRequestRecord.number).Nodup) :
    ((selectRegateCandidates pulls nowMs).map PullRequestRecord.number).Nodup := by
  unfold selectRegateCandidates
  dsimp only
  have hfiltered := ((List.filter_sublist (l := (pulls.filter fun pr =>
    pr.state = "open" && pr.isDraft ≠ some true)) (p := isStale (nowMs.map fun now =>
    now - SWEEP_FRESHNESS_MS))).trans List.filter_sublist).map PullRequestRecord.number
  have hsorted := ((List.perm_insertionSort (fun a b => stalerFirst a b = true) _).map
    PullRequestRecord.number).nodup_iff.mpr (hdistinct.sublist hfiltered)
  exact hsorted.sublist ((List.take_sublist _ _).map PullRequestRecord.number)

theorem lookup_sweepVerdicts (settings : RepositorySettings) (repo : Option RepositoryRecord)
    (openPullRequests : List PullRequestRecord) {candidates : List PullRequestRecord}
    (hdistinct : (candidates.map PullRequestRecord.number).Nodup) {pr : PullRequestRecord}
    (hpr : pr ∈ candidates) :
    (sweepVerdicts settings repo openPullRequests candidates).lookup pr.number =
      some (regate settings repo openPullRequests pr).conclusion := by
  induction candidates with
  | nil => cases hpr
  | cons first rest ih =>
    rw [List.map_cons, List.nodup_cons] at hdistinct
    unfold sweepVerdicts at ih ⊢
    rw [List.map_cons]
    rcases List.mem_cons.mp hpr with rfl | hrest
    · rw [List.lookup_cons_self]
    · have hne : pr.number ≠ first.number := by
        intro heq
        exact hdistinct.1 (heq ▸ List.mem_map_of_mem hrest)
      rw [List.lookup_cons, beq_false_of_ne hne]
      exact ih hdistinct.2 hrest

/-- The verdict that a completed sweep records for a candidate. -/
theorem recorded_verdict {settings : RepositorySettings} {globalPaused : Bool}
    {repo : Option RepositoryRecord} {openPullRequests : List PullRequestRecord}
    {nowMs : Option ℤ} {sweep : SweepRecord}
    (hdistinct : (openPullRequests.map PullRequestRecord.number).Nodup)
    (hsweep : sweepRepoRegate settings globalPaused repo openPullRequests nowMs = some sweep)
    (hcompleted : sweep.outcome = .completed) {pr : PullRequestRecord}
    (hpr : pr ∈ selectRegateCandidates openPullRequests nowMs) :
    sweep.verdicts.lookup pr.number =
      some (regate settings repo openPullRequests pr).conclusion := by
  unfold sweepRepoRegate at hsweep
  dsimp only at hsweep
  split_ifs at hsweep with hagent hpaused hnone
  · rw [Option.some.injEq] at hsweep
    rw [← hsweep] at hcompleted
    cases hcompleted
  · rw [Option.some.injEq] at hsweep
    rw [← hsweep]
    exact lookup_sweepVerdicts settings repo openPullRequests
      (candidates_numbers_nodup nowMs hdistinct) hpr

end Recorded

section Agreement

/-- A blocker that both paths see. -/
def SharedBlocker (settings : RepositorySettings) (pr : PullRequestRecord)
    (others : List PullRequestRecord) : Prop :=
  (pr.linkedIssues = [] ∧ sweepRequiresLinkedIssue settings = true ∧
    effectiveMode settings.mergeReadinessGateMode settings.linkedIssueGateMode = .block) ∨
  (overlappingPrs pr others ≠ [] ∧
    effectiveMode settings.mergeReadinessGateMode settings.duplicatePrGateMode = .block) ∨
  (effectiveMode settings.mergeReadinessGateMode settings.slopGateMode = .block ∧
    AtOrAboveThreshold pr.slopRisk settings.slopGateMinScore)

/-- A blocker for the live path alone: the composite blocks on a missing issue link that
the settings do not ask for or on a low readiness score, or the scan finds a secret. -/
def LiveOnlyBlocker (settings : RepositorySettings) (pr : PullRequestRecord)
    (reads : ReviewReads) : Prop :=
  (settings.mergeReadinessGateMode = .block ∧ (pr.linkedIssues = [] ∨
    BelowThreshold (some reads.readinessTotal) settings.qualityGateMinScore)) ∨
  ScanFindsSecret pr reads

/-- The live path spares an author it did not look up, in the pack that asks. -/
def LiveSpares (settings : RepositorySettings) (pr : PullRequestRecord) (reads : ReviewReads) :
    Prop :=
  settings.gatePack = .gittensor ∧ (preliminarySurface settings pr reads).skipReason ≠ none

/-- The sweep comes to the verdict of the live path. -/
def SweepMeetsLive (settings : RepositorySettings) (repo : Option RepositoryRecord)
    (pr : PullRequestRecord) (others : List PullRequestRecord) (reads : ReviewReads) : Prop :=
  repo = none ∨
  (SharedBlocker settings pr others ∧
    (settings.firstTimeContributorGrace = true ↔ LiveSpares settings pr reads)) ∨
  (¬ SharedBlocker settings pr others ∧ ¬ LiveOnlyBlocker settings pr reads)

variable {settings : RepositorySettings} {repo : Option RepositoryRecord} {pr : PullRequestRecord}
  {others : List PullRequestRecord} {reads : ReviewReads}

theorem sweep_blocked_iff :
    Blocked (buildPullRequestAdvisory repo (some pr) others (sweepRequiresLinkedIssue settings))
      (gateCheckPolicy settings none none pr.slopRisk none) ↔
      SharedBlocker settings pr others := by
  have hnoscore : ¬ BelowThreshold none settings.qualityGateMinScore := by
    simp [BelowThreshold, normalizeScore]
  rw [gateCheckPolicy_blocked_iff, SharedBlocker]
  simp only [hnoscore, and_false, false_or]

theorem sweep_spared_iff (slopRisk : Option JsNumber) :
    AuthorSpared (gateCheckPolicy settings none none slopRisk none) ↔
      settings.firstTimeContributorGrace = true := by
  rw [gateCheckPolicy_spared_iff]
  simp

theorem composite_or (unlinked required overlap slop readiness secret : Prop) :
    ((unlinked ∧ required ∨ overlap ∨ slop) ∨ (unlinked ∨ readiness) ∨ secret) ↔
      unlinked ∨ overlap ∨ readiness ∨ slop ∨ secret := by
  tauto

theorem sharedBlocker_or_liveOnly_iff :
    SharedBlocker settings pr others ∨ LiveOnlyBlocker settings pr reads ↔
      (pr.linkedIssues = [] ∧ shouldCollectLinkedIssueEvidence settings = true ∧
        effectiveMode settings.mergeReadinessGateMode settings.linkedIssueGateMode = .block) ∨
      (overlappingPrs pr others ≠ [] ∧
        effectiveMode settings.mergeReadinessGateMode settings.duplicatePrGateMode = .block) ∨
      (settings.mergeReadinessGateMode = .block ∧
        BelowThreshold (some reads.readinessTotal) settings.qualityGateMinScore) ∨
      (effectiveMode settings.mergeReadinessGateMode settings.slopGateMode = .block ∧
        AtOrAboveThreshold pr.slopRisk settings.slopGateMinScore) ∨
      ScanFindsSecret pr reads := by
  have hcollect : shouldCollectLinkedIssueEvidence settings = true ↔
      sweepRequiresLinkedIssue settings = true ∨ settings.mergeReadinessGateMode ≠ .off := by
    simp [shouldCollectLinkedIssueEvidence, sweepRequiresLinkedIssue, mergeReadinessGateEnabled]
  unfold SharedBlocker LiveOnlyBlocker
  cases hcomposite : settings.mergeReadinessGateMode with
  | off => simp [hcollect, hcomposite, effectiveMode, or_assoc]
  | advisory => simp [effectiveMode]
  | block =>
    have hrequired : shouldCollectLinkedIssueEvidence settings = true :=
      hcollect.mpr (Or.inr (by rw [hcomposite]; decide))
    simp only [effectiveMode, reduceCtorEq, if_false, hrequired, and_true, true_and]
    exact composite_or _ _ _ _ _ _

/-- The slop risk the live path hands to the gate counts where the stored one does. -/
theorem liveSlopRisk_iff
    (hslop : shouldCollectSlopEvidence settings = true → pr.slopRisk = some reads.slop.slopRisk) :
    (effectiveMode settings.mergeReadinessGateMode settings.slopGateMode = .block ∧
      AtOrAboveThreshold (liveSlopRisk settings reads) settings.slopGateMinScore) ↔
    (effectiveMode settings.mergeReadinessGateMode settings.slopGateMode = .block ∧
      AtOrAboveThreshold pr.slopRisk settings.slopGateMinScore) := by
  apply and_congr_right
  intro hmode
  have hcollect : shouldCollectSlopEvidence settings = true := by
    simp only [shouldCollectSlopEvidence, mergeReadinessGateEnabled, Bool.or_eq_true,
      decide_eq_true_eq]
    rcases (effectiveMode_block_iff _ _).mp hmode with h | h
    · exact Or.inr (by rw [h]; decide)
    · exact Or.inl (by rw [h.2]; decide)
  rw [liveSlopRisk, if_pos hcollect, hslop hcollect]

theorem secret_last (unlinked overlap readiness slop secret : Prop) :
    (((unlinked ∨ overlap) ∨ secret) ∨ readiness ∨ slop) ↔
      unlinked ∨ overlap ∨ readiness ∨ slop ∨ secret := by
  tauto

theorem live_blocked_iff (haiReview : settings.aiReviewMode = .off)
    (hquality : settings.qualityGateMode = .off) (hmanifest : settings.manifestPolicyGateMode = .off)
    (hslop : shouldCollectSlopEvidence settings = true → pr.slopRisk = some reads.slop.slopRisk)
    (confirmed : Bool) :
    Blocked (collectEvidence settings reads confirmed pr (liveAdvisory settings repo pr others))
      (livePolicy settings pr reads) ↔
      SharedBlocker settings pr others ∨ LiveOnlyBlocker settings pr reads := by
  have hfindings := (collectEvidence_spec haiReview hmanifest reads confirmed pr
    (liveAdvisory settings repo pr others)
    (applyMergeReadinessGate (livePolicy settings pr reads))).1
  have hqualityMode : effectiveMode settings.mergeReadinessGateMode .off = .block ↔
      settings.mergeReadinessGateMode = .block := by
    simp [effectiveMode_block_iff]
  rw [blocked_iff, hfindings, liveAdvisory, advisory_block_iff, effective_linkedIssue,
    effective_duplicatePr, sharedBlocker_or_liveOnly_iff, ← liveSlopRisk_iff hslop]
  simp only [compositeMode, livePolicy, gateCheckPolicy, GateMonotonicity.gateModeOr_some,
    GateMonotonicity.gateMode_some, hquality, hqualityMode]
  exact secret_last _ _ _ _ _

theorem live_spared_iff (hminer : reads.minerStatus = .confirmed)
    (hmerged : ∀ history, reads.authorHistory = some history → 1 ≤ history.mergedPrCount) :
    AuthorSpared (livePolicy settings pr reads) ↔ LiveSpares settings pr reads := by
  have hhistory : 1 ≤ (loadGateAuthorHistory pr.authorLogin reads.authorHistory).mergedPrCount := by
    unfold loadGateAuthorHistory
    cases hread : reads.authorHistory with
    | none => cases truthy pr.authorLogin <;> exact le_rfl
    | some history =>
      cases truthy pr.authorLogin with
      | false => exact le_rfl
      | true => exact hmerged history hread
  have hnewcomer : ¬ (loadGateAuthorHistory pr.authorLogin reads.authorHistory).mergedPrCount = 0 := by
    omega
  have hconfirmed : isConfirmedContributor settings pr reads true = false ↔
      (preliminarySurface settings pr reads).skipReason ≠ none := by
    rw [← Bool.not_eq_true, isConfirmedContributor_iff hminer]
  rw [livePolicy, gateCheckPolicy_spared_iff]
  simp only [Option.map_some, Option.getD_some, hnewcomer, false_and, and_false, or_false,
    Option.some.injEq, hconfirmed, LiveSpares]

theorem agreement_cases (missing shared liveOnly grace spares : Prop) :
    (missing ∨ (¬ shared ∧ ¬ (shared ∨ liveOnly)) ∨
      (shared ∧ (shared ∨ liveOnly) ∧ (grace ↔ spares))) ↔
      missing ∨ (shared ∧ (grace ↔ spares)) ∨ (¬ shared ∧ ¬ liveOnly) := by
  tauto

/-- A pull request with a recorded verdict of a sweep and an evaluated gate of the live
path: the AI, quality and manifest gates are off, the author is confirmed and has merged
before, and both paths read the same slop risk. -/
structure SweptAndLive (settings : RepositorySettings) (repo : Option RepositoryRecord)
    (pr : PullRequestRecord) (reads : ReviewReads) (globalPaused : Bool)
    (openPullRequests : List PullRequestRecord) (nowMs : Option ℤ) (sweep : SweepRecord)
    (gate : GateCheckEvaluation) : Prop where
  aiReview : settings.aiReviewMode = .off
  quality : settings.qualityGateMode = .off
  manifest : settings.manifestPolicyGateMode = .off
  confirmed : reads.minerStatus = .confirmed
  merged : ∀ history, reads.authorHistory = some history → 1 ≤ history.mergedPrCount
  slopRisk : shouldCollectSlopEvidence settings = true → pr.slopRisk = some reads.slop.slopRisk
  distinct : (openPullRequests.map PullRequestRecord.number).Nodup
  candidate : pr ∈ selectRegateCandidates openPullRequests nowMs
  recorded : sweepRepoRegate settings globalPaused repo openPullRequests nowMs = some sweep
  completed : sweep.outcome = .completed
  live : maybePublishPrPublicSurface settings repo pr (otherPullRequests openPullRequests pr)
    reads = some gate

/-- The sweep records the verdict of the live path exactly under this condition. -/
theorem sweep_agrees_iff {globalPaused : Bool} {openPullRequests : List PullRequestRecord}
    {nowMs : Option ℤ} {sweep : SweepRecord} {gate : GateCheckEvaluation}
    (h : SweptAndLive settings repo pr reads globalPaused openPullRequests nowMs sweep gate) :
    sweep.verdicts.lookup pr.number = some gate.conclusion ↔
      SweepMeetsLive settings repo pr (otherPullRequests openPullRequests pr) reads := by
  rw [recorded_verdict h.distinct h.recorded h.completed h.candidate, Option.some.injEq]
  have hlive := h.live
  unfold maybePublishPrPublicSurface at hlive
  dsimp only at hlive
  split_ifs at hlive
  rw [Option.some.injEq] at hlive
  rw [← hlive, regate]
  have hevaluated := (collectEvidence_spec h.aiReview h.manifest reads
    (isConfirmedContributor settings pr reads true) pr
    (liveAdvisory settings repo pr (otherPullRequests openPullRequests pr))
    (livePolicy settings pr reads)).2
  rw [liveAdvisory, advisory_notEvaluated_iff] at hevaluated
  rw [conclusions_agree_iff (by rw [advisory_notEvaluated_iff]; exact hevaluated.symm),
    advisory_notEvaluated_iff, sweep_blocked_iff,
    live_blocked_iff h.aiReview h.quality h.manifest h.slopRisk, sweep_spared_iff,
    live_spared_iff h.confirmed h.merged]
  exact agreement_cases _ _ _ _ _

/-- The composite blocks, nothing else does, and the settings ask for no issue link. -/
def compositeSettings : RepositorySettings :=
  { defaultRepositorySettings with
    gateCheckMode := .enabled
    linkedIssueGateMode := .off
    qualityGateMode := .off
    mergeReadinessGateMode := .block
    autonomy := some fun _ => some .auto }

def widgets : RepositoryRecord := ⟨"acme/widgets", true, none⟩

/-- An open pull request of a returning contributor. -/
def openPull (linkedIssues : List ℕ) : PullRequestRecord where
  repoFullName := "acme/widgets"
  number := 7
  state := "open"
  authorLogin := some "dev"
  headSha := some "c0ffee"
  linkedIssues := linkedIssues
  slopRisk := some (.finite 0)

def returningAuthor : ReviewReads where
  minerStatus := .confirmed
  readinessTotal := .finite 80
  slop := ⟨.finite 0, []⟩
  authorHistory := some ⟨2, 0⟩

theorem openPull_swept (linkedIssues : List ℕ) (gate : GateCheckEvaluation)
    (hlive : maybePublishPrPublicSurface compositeSettings (some widgets) (openPull linkedIssues) []
      returningAuthor = some gate) :
    SweptAndLive compositeSettings (some widgets) (openPull linkedIssues) returningAuthor false
      [openPull linkedIssues] none
      (completedRecord compositeSettings (some widgets) [openPull linkedIssues]
        [openPull linkedIssues]) gate where
  aiReview := rfl
  quality := rfl
  manifest := rfl
  confirmed := rfl
  merged history hhistory := by
    cases hhistory
    decide
  slopRisk _ := rfl
  distinct := by simp
  candidate := List.mem_singleton_self _
  recorded := rfl
  completed := rfl
  live := hlive

theorem sweep_agrees_linked :
    (completedRecord compositeSettings (some widgets) [openPull [3]] [openPull [3]]).verdicts.lookup
        7 = some (evaluateGateCheck
          (collectEvidence compositeSettings returningAuthor true (openPull [3])
            (liveAdvisory compositeSettings (some widgets) (openPull [3]) []))
          (livePolicy compositeSettings (openPull [3]) returningAuthor)).conclusion ↔
      SweepMeetsLive compositeSettings (some widgets) (openPull [3]) [] returningAuthor :=
  sweep_agrees_iff (openPull_swept [3] _ rfl)

/-- Without a linked issue the live gate fails and the sweep records a success. -/
theorem sweep_misses_composite :
    ¬ ∀ (settings : RepositorySettings) (repo : Option RepositoryRecord) (pr : PullRequestRecord)
      (reads : ReviewReads) (globalPaused : Bool) (openPullRequests : List PullRequestRecord)
      (nowMs : Option ℤ) (sweep : SweepRecord) (gate : GateCheckEvaluation),
      SweptAndLive settings repo pr reads globalPaused openPullRequests nowMs sweep gate →
      sweep.verdicts.lookup pr.number = some gate.conclusion := by
  intro h
  have hagree := h _ _ _ _ _ _ _ _ _ (openPull_swept [] _ rfl)
  revert hagree
  decide +kernel

end Agreement

end Gittensory.RegateSweep
