import Gittensory.AdvisoryGate
import Mathlib.Tactic.Linarith

/-!
Strictness of the gate. Modes are ordered off < advisory < block; a policy is
raised when no mode and no slop risk goes down. Raising modes and adding findings
keeps a failing verdict failing, except where setting the merge-readiness
composite to advisory takes the block from a sub-gate it overrides.
-/
namespace Gittensory.GateMonotonicity

open AdvisoryGate JsValue

def rank : GateRuleMode → ℕ
  | .off => 0
  | .advisory => 1
  | .block => 2

theorem rank_injective : Function.Injective rank := by
  intro a b h
  cases a <;> cases b <;> simp_all [rank]

instance : LinearOrder GateRuleMode := LinearOrder.lift' rank rank_injective

theorem block_le_iff (mode : GateRuleMode) : .block ≤ mode ↔ mode = .block := by
  cases mode <;> decide

theorem le_block (mode : GateRuleMode) : mode ≤ .block := by
  cases mode <;> decide

theorem eq_advisory_of_ne {mode : GateRuleMode} (hoff : mode ≠ .off) (hblock : mode ≠ .block) :
    mode = .advisory := by
  cases mode
  · exact absurd rfl hoff
  · rfl
  · exact absurd rfl hblock

@[simp] theorem gateMode_some (mode : GateRuleMode) : gateMode (some mode) = mode := by
  cases mode <;> rfl

@[simp] theorem gateModeOr_some (fallback mode : GateRuleMode) :
    gateModeOr fallback (some mode) = mode := by
  cases mode <;> rfl

/-- A score goes up to a finite value, from a lower one or from none at all. -/
def ScoreRaised (score raised : Option JsNumber) : Prop :=
  raised = score ∨
    ∃ value, raised = some (.finite value) ∧ ∀ old, score = some (.finite old) → old ≤ value

theorem normalizeScore_raised {score raised : Option JsNumber} (h : ScoreRaised score raised)
    {risk : ℤ} (hrisk : normalizeScore score = some risk) :
    ∃ risk', normalizeScore raised = some risk' ∧ risk ≤ risk' := by
  rcases h with rfl | ⟨value, rfl, hle⟩
  · exact ⟨risk, hrisk, le_refl risk⟩
  · cases score with
    | none => simp [normalizeScore] at hrisk
    | some number =>
      cases number with
      | finite old =>
        have hround : mathRound old ≤ mathRound value := mathRound_mono (hle old rfl)
        refine ⟨max 0 (min 100 (mathRound value)), rfl, ?_⟩
        have hold : max 0 (min 100 (mathRound old)) = risk := Option.some.inj hrisk
        rw [← hold]
        exact max_le_max (le_refl 0) (min_le_min (le_refl 100) hround)
      | _ => simp [normalizeScore] at hrisk

/-- Every sub-gate is at least as strict; scores and thresholds other than the
slop risk stay, and so does what is known about the author. -/
structure GatesRaised (policy raised : GateCheckPolicy) : Prop where
  linkedIssue : gateModeOr .advisory policy.linkedIssueGateMode ≤
    gateModeOr .advisory raised.linkedIssueGateMode
  duplicatePr : gateModeOr .block policy.duplicatePrGateMode ≤
    gateModeOr .block raised.duplicatePrGateMode
  quality : gateMode policy.qualityGateMode ≤ gateMode raised.qualityGateMode
  aiReview : gateModeOr .advisory policy.aiReviewGateMode ≤
    gateModeOr .advisory raised.aiReviewGateMode
  slop : gateMode policy.slopGateMode ≤ gateMode raised.slopGateMode
  manifestPolicy : gateModeOr .off policy.manifestPolicyGateMode ≤
    gateModeOr .off raised.manifestPolicyGateMode
  slopRisk : ScoreRaised policy.slopRisk raised.slopRisk
  qualityGateMinScore : raised.qualityGateMinScore = policy.qualityGateMinScore
  readinessScore : raised.readinessScore = policy.readinessScore
  slopGateMinScore : raised.slopGateMinScore = policy.slopGateMinScore
  firstTimeContributorGrace :
    raised.firstTimeContributorGrace = policy.firstTimeContributorGrace
  authorMergedPrCount : raised.authorMergedPrCount = policy.authorMergedPrCount
  authorClosedUnmergedPrCount :
    raised.authorClosedUnmergedPrCount = policy.authorClosedUnmergedPrCount
  confirmedContributor : raised.confirmedContributor = policy.confirmedContributor

/-- Any number of modes, the composite included, and the slop risk go up. -/
structure PolicyRaised (policy raised : GateCheckPolicy) : Prop
    extends GatesRaised policy raised where
  mergeReadiness : gateModeOr .off policy.mergeReadinessGateMode ≤
    gateModeOr .off raised.mergeReadinessGateMode

/-- The composite goes from off to advisory. -/
def CompositeSoftened (policy raised : GateCheckPolicy) : Prop :=
  gateModeOr .off policy.mergeReadinessGateMode = .off ∧
    gateModeOr .off raised.mergeReadinessGateMode = .advisory

/-- The findings of the four sub-gates the composite overrides. -/
def overriddenCodes : List String :=
  ["missing_linked_issue", "duplicate_pr_risk", "readiness_score_below_threshold",
    "slop_risk_above_threshold"]

/-- The softened composite takes the block from everything that fires. -/
def CompositeRelaxes (advisoryResult : Advisory) (policy raised : GateCheckPolicy) : Prop :=
  CompositeSoftened policy raised ∧
    ∀ finding ∈ gateBlockers advisoryResult policy, finding.code ∈ overriddenCodes

theorem applyMergeReadinessGate_off {policy : GateCheckPolicy}
    (h : gateModeOr .off policy.mergeReadinessGateMode = .off) :
    applyMergeReadinessGate policy = policy := by
  unfold applyMergeReadinessGate
  dsimp only
  rw [if_pos h]

theorem applyMergeReadinessGate_on {policy : GateCheckPolicy}
    (h : gateModeOr .off policy.mergeReadinessGateMode ≠ .off) :
    applyMergeReadinessGate policy = { policy with
      linkedIssueGateMode := some (gateModeOr .off policy.mergeReadinessGateMode)
      duplicatePrGateMode := some (gateModeOr .off policy.mergeReadinessGateMode)
      qualityGateMode := some (gateModeOr .off policy.mergeReadinessGateMode)
      slopGateMode := some (gateModeOr .off policy.mergeReadinessGateMode) } := by
  unfold applyMergeReadinessGate
  dsimp only
  rw [if_neg h]

/-- Through a composite that is not softened, the modes that count are raised as well. -/
theorem GatesRaised.effective {policy raised : GateCheckPolicy} (h : PolicyRaised policy raised)
    (hsoft : ¬ CompositeSoftened policy raised) :
    GatesRaised (applyMergeReadinessGate policy) (applyMergeReadinessGate raised) := by
  have hraised := h.toGatesRaised
  by_cases hoff : gateModeOr .off policy.mergeReadinessGateMode = .off
  · by_cases hoff' : gateModeOr .off raised.mergeReadinessGateMode = .off
    · rw [applyMergeReadinessGate_off hoff, applyMergeReadinessGate_off hoff']
      exact hraised
    · have hblock : gateModeOr .off raised.mergeReadinessGateMode = .block := by
        by_contra hne
        exact hsoft ⟨hoff, eq_advisory_of_ne hoff' hne⟩
      rw [applyMergeReadinessGate_off hoff, applyMergeReadinessGate_on hoff', hblock]
      exact { hraised with
        linkedIssue := le_block _
        duplicatePr := le_block _
        quality := le_block _
        slop := le_block _ }
  · have hoff' : gateModeOr .off raised.mergeReadinessGateMode ≠ .off := by
      intro hraisedOff
      have hle := h.mergeReadiness
      rw [hraisedOff] at hle
      cases hmode : gateModeOr .off policy.mergeReadinessGateMode with
      | off => exact hoff hmode
      | advisory => exact absurd (hmode ▸ hle) (by decide)
      | block => exact absurd (hmode ▸ hle) (by decide)
    rw [applyMergeReadinessGate_on hoff, applyMergeReadinessGate_on hoff']
    have hcomposite : ∀ fallback, gateModeOr fallback
        (some (gateModeOr .off policy.mergeReadinessGateMode)) ≤
          gateModeOr fallback (some (gateModeOr .off raised.mergeReadinessGateMode)) := by
      intro fallback
      simpa using h.mergeReadiness
    exact { hraised with
      linkedIssue := hcomposite _
      duplicatePr := hcomposite _
      quality := by simpa using h.mergeReadiness
      slop := by simpa using h.mergeReadiness }

theorem eq_block_of_le {mode mode' : GateRuleMode} (hle : mode ≤ mode') (h : mode = .block) :
    mode' = .block := by
  rw [h] at hle
  exact (block_le_iff mode').mp hle

theorem isConfiguredGateBlocker_raised {policy raised : GateCheckPolicy}
    (h : GatesRaised policy raised) {code : String}
    (hcode : isConfiguredGateBlocker code policy = true) :
    isConfiguredGateBlocker code raised = true := by
  unfold isConfiguredGateBlocker at hcode ⊢
  split_ifs at hcode ⊢ with h1 h2 h3 h4 h5
  · simpa using eq_block_of_le h.linkedIssue (by simpa using hcode)
  · simpa using eq_block_of_le h.duplicatePr (by simpa using hcode)
  · simpa using eq_block_of_le h.aiReview (by simpa using hcode)
  · rfl
  · simpa using eq_block_of_le h.manifestPolicy (by simpa using hcode)

@[simp] theorem applyMergeReadinessGate_aiReview (policy : GateCheckPolicy) :
    (applyMergeReadinessGate policy).aiReviewGateMode = policy.aiReviewGateMode := by
  unfold applyMergeReadinessGate
  dsimp only
  split_ifs <;> rfl

@[simp] theorem applyMergeReadinessGate_manifest (policy : GateCheckPolicy) :
    (applyMergeReadinessGate policy).manifestPolicyGateMode = policy.manifestPolicyGateMode := by
  unfold applyMergeReadinessGate
  dsimp only
  split_ifs <;> rfl

/-- The composite has no say in the findings outside the four sub-gates. -/
theorem isConfiguredGateBlocker_kept {policy raised : GateCheckPolicy}
    (h : GatesRaised policy raised) {code : String} (hother : code ∉ overriddenCodes)
    (hcode : isConfiguredGateBlocker code (applyMergeReadinessGate policy) = true) :
    isConfiguredGateBlocker code (applyMergeReadinessGate raised) = true := by
  unfold isConfiguredGateBlocker at hcode ⊢
  split_ifs at hcode ⊢ with h1 h2 h3 h4 h5
  · simp [overriddenCodes, h1] at hother
  · simp [overriddenCodes, h2] at hother
  · rw [applyMergeReadinessGate_aiReview] at hcode ⊢
    simpa using eq_block_of_le h.aiReview (by simpa using hcode)
  · rfl
  · rw [applyMergeReadinessGate_manifest] at hcode ⊢
    simpa using eq_block_of_le h.manifestPolicy (by simpa using hcode)

/-- The two score blockers belong to overridden sub-gates. -/
theorem code_of_buildQualityGateBlocker {policy : GateCheckPolicy} {finding : AdvisoryFinding}
    (h : buildQualityGateBlocker policy = some finding) : finding.code ∈ overriddenCodes := by
  unfold buildQualityGateBlocker at h
  split_ifs at h
  split at h
  · split_ifs at h
    simp [← Option.some.inj h, qualityGateFinding, overriddenCodes]
  · simp at h

theorem code_of_buildSlopGateBlocker {policy : GateCheckPolicy} {finding : AdvisoryFinding}
    (h : buildSlopGateBlocker policy = some finding) : finding.code ∈ overriddenCodes := by
  unfold buildSlopGateBlocker at h
  split_ifs at h
  split at h
  · simp at h
  · dsimp only at h
    split_ifs at h
    simp [← Option.some.inj h, slopGateFinding, overriddenCodes]

theorem buildQualityGateBlocker_raised {policy raised : GateCheckPolicy}
    (h : GatesRaised policy raised) (hfires : buildQualityGateBlocker policy ≠ none) :
    buildQualityGateBlocker raised ≠ none := by
  have hmode : gateMode policy.qualityGateMode = .block := by
    by_contra hne
    exact hfires (by unfold buildQualityGateBlocker; rw [if_pos hne])
  have hmode' : gateMode raised.qualityGateMode = .block := eq_block_of_le h.quality hmode
  unfold buildQualityGateBlocker at hfires ⊢
  rw [if_neg (not_not.mpr hmode)] at hfires
  rw [if_neg (not_not.mpr hmode'), h.readinessScore, h.qualityGateMinScore]
  exact hfires

theorem buildSlopGateBlocker_raised {policy raised : GateCheckPolicy}
    (h : GatesRaised policy raised) (hfires : buildSlopGateBlocker policy ≠ none) :
    buildSlopGateBlocker raised ≠ none := by
  have hmode : gateMode policy.slopGateMode = .block := by
    by_contra hne
    exact hfires (by unfold buildSlopGateBlocker; rw [if_pos hne])
  have hmode' : gateMode raised.slopGateMode = .block := eq_block_of_le h.slop hmode
  unfold buildSlopGateBlocker at hfires ⊢
  rw [if_neg (not_not.mpr hmode)] at hfires
  rw [if_neg (not_not.mpr hmode'), h.slopGateMinScore]
  cases hrisk : normalizeScore policy.slopRisk with
  | none => simp [hrisk] at hfires
  | some risk =>
    obtain ⟨risk', hrisk', hle⟩ := normalizeScore_raised h.slopRisk hrisk
    simp only [hrisk, ne_eq, ite_eq_left_iff, reduceCtorEq, imp_false, not_not] at hfires
    simp only [hrisk', ne_eq, ite_eq_left_iff, reduceCtorEq, imp_false, not_not]
    omega

theorem mem_gateBlockers (advisoryResult : Advisory) (policy : GateCheckPolicy)
    (finding : AdvisoryFinding) :
    finding ∈ gateBlockers advisoryResult policy ↔
      (finding ∈ advisoryResult.findings ∧
        isConfiguredGateBlocker finding.code (applyMergeReadinessGate policy) = true) ∨
      buildQualityGateBlocker (applyMergeReadinessGate policy) = some finding ∨
      buildSlopGateBlocker (applyMergeReadinessGate policy) = some finding := by
  simp [gateBlockers]

/-- A blocker outside the overridden sub-gates fires whatever the composite does. -/
theorem gateBlockers_kept {advisoryResult extended : Advisory} {policy raised : GateCheckPolicy}
    (hfindings : ∀ finding ∈ advisoryResult.findings, finding ∈ extended.findings)
    (h : GatesRaised policy raised) {finding : AdvisoryFinding}
    (hmem : finding ∈ gateBlockers advisoryResult policy)
    (hother : finding.code ∉ overriddenCodes) : finding ∈ gateBlockers extended raised := by
  apply (mem_gateBlockers extended raised finding).mpr
  rcases (mem_gateBlockers advisoryResult policy finding).mp hmem with
    ⟨hfound, hblocks⟩ | hquality | hslop
  · exact Or.inl ⟨hfindings finding hfound, isConfiguredGateBlocker_kept h hother hblocks⟩
  · exact absurd (code_of_buildQualityGateBlocker hquality) hother
  · exact absurd (code_of_buildSlopGateBlocker hslop) hother

/-- What fires stays firing when findings are added and the policy is raised. -/
theorem gateBlockers_raised {advisoryResult extended : Advisory} {policy raised : GateCheckPolicy}
    (hfindings : ∀ finding ∈ advisoryResult.findings, finding ∈ extended.findings)
    (h : PolicyRaised policy raised)
    (hrelax : ¬ CompositeRelaxes advisoryResult policy raised)
    (hfires : gateBlockers advisoryResult policy ≠ []) : gateBlockers extended raised ≠ [] := by
  by_cases hsoft : CompositeSoftened policy raised
  · have hother : ∃ finding ∈ gateBlockers advisoryResult policy,
        finding.code ∉ overriddenCodes := by
      by_contra hnone
      refine hrelax ⟨hsoft, fun finding hmem => ?_⟩
      by_contra hcode
      exact hnone ⟨finding, hmem, hcode⟩
    obtain ⟨finding, hmem, hcode⟩ := hother
    exact List.ne_nil_of_mem (gateBlockers_kept hfindings h.toGatesRaised hmem hcode)
  · have heffective := GatesRaised.effective h hsoft
    unfold gateBlockers at hfires ⊢
    simp only [ne_eq, List.append_eq_nil_iff, Option.toList_eq_nil_iff, not_and_or,
      List.filter_eq_nil_iff, not_forall] at hfires ⊢
    rcases hfires with (⟨finding, hmem, hblocks⟩ | hquality) | hslop
    · exact Or.inl (Or.inl ⟨finding, hfindings finding hmem,
        fun hno => hno (isConfiguredGateBlocker_raised heffective (not_not.mp hblocks))⟩)
    · exact Or.inl (Or.inr (buildQualityGateBlocker_raised heffective hquality))
    · exact Or.inr (buildSlopGateBlocker_raised heffective hslop)

theorem authorSpared_raised {policy raised : GateCheckPolicy} (h : GatesRaised policy raised) :
    AuthorSpared raised ↔ AuthorSpared policy := by
  simp only [AuthorSpared, graceApplies, h.confirmedContributor, h.firstTimeContributorGrace,
    h.authorMergedPrCount, h.authorClosedUnmergedPrCount]

/-- A pull request without a linked issue in a repository that blocks on it. -/
def unlinkedAdvisory : Advisory :=
  advisory .pullRequest "acme/widgets#7" "acme/widgets" [missingLinkedIssueFinding]
    "Pull request advisory generated." (some 7) none (some "c0ffee")

def linkedIssueBlocks : GateCheckPolicy := { emptyPolicy with linkedIssueGateMode := some .block }

def compositeAt (mode : GateRuleMode) (policy : GateCheckPolicy) : GateCheckPolicy :=
  { policy with mergeReadinessGateMode := some mode }

def slopBlocks (risk : JsNumber) : GateCheckPolicy :=
  { emptyPolicy with slopGateMode := some .block, slopRisk := some risk }

theorem gatesRaised_refl (policy : GateCheckPolicy) : GatesRaised policy policy :=
  ⟨le_refl _, le_refl _, le_refl _, le_refl _, le_refl _, le_refl _, Or.inl rfl,
    rfl, rfl, rfl, rfl, rfl, rfl, rfl⟩

theorem gatesRaised_compositeAt (policy : GateCheckPolicy) (mode : GateRuleMode) :
    GatesRaised policy (compositeAt mode policy) :=
  { gatesRaised_refl policy with }

/-- A failing verdict survives added findings and raised modes, unless the composite
takes the block from everything that fired. -/
theorem failure_of_raised (advisoryResult extended : Advisory) (policy raised : GateCheckPolicy)
    (hevaluated : ¬ NotEvaluated extended)
    (hfindings : ∀ finding ∈ advisoryResult.findings, finding ∈ extended.findings)
    (h : PolicyRaised policy raised)
    (hrelax : ¬ CompositeRelaxes advisoryResult policy raised)
    (hfails : (evaluateGateCheck advisoryResult policy).conclusion = .failure) :
    (evaluateGateCheck extended raised).conclusion = .failure := by
  obtain ⟨_, hfires, hauthor⟩ := (evaluateGateCheck_failure_iff advisoryResult policy).mp hfails
  apply (evaluateGateCheck_failure_iff extended raised).mpr
  refine ⟨hevaluated, gateBlockers_raised hfindings h hrelax hfires, ?_⟩
  rwa [authorSpared_raised h.toGatesRaised]

theorem failure_of_raised_composite_block :
    (evaluateGateCheck unlinkedAdvisory (compositeAt .block linkedIssueBlocks)).conclusion =
      .failure :=
  failure_of_raised unlinkedAdvisory unlinkedAdvisory linkedIssueBlocks
    (compositeAt .block linkedIssueBlocks) (by decide) (fun _ h => h)
    { gatesRaised_compositeAt linkedIssueBlocks .block with mergeReadiness := by decide }
    (fun h => absurd h.1.2 (by decide)) (by decide)

/-- An advisory composite leaves none of the four sub-gates blocking. -/
theorem code_of_blocker_compositeAt_advisory {advisoryResult : Advisory}
    {policy : GateCheckPolicy} {finding : AdvisoryFinding}
    (hmem : finding ∈ gateBlockers advisoryResult (compositeAt .advisory policy)) :
    finding.code ∉ overriddenCodes := by
  have hset : gateModeOr .off (compositeAt .advisory policy).mergeReadinessGateMode ≠ .off := by
    simp [compositeAt]
  have heffective := applyMergeReadinessGate_on hset
  rcases (mem_gateBlockers advisoryResult _ finding).mp hmem with ⟨_, hblocks⟩ | hquality | hslop
  · intro hcode
    rw [heffective] at hblocks
    simp only [overriddenCodes, List.mem_cons, List.not_mem_nil, or_false] at hcode
    rcases hcode with hcode | hcode | hcode | hcode <;>
      simp [hcode, isConfiguredGateBlocker, compositeAt] at hblocks
  · rw [heffective] at hquality
    simp [buildQualityGateBlocker, compositeAt] at hquality
  · rw [heffective] at hslop
    simp [buildSlopGateBlocker, compositeAt] at hslop

/-- The exception is exact: there the softened composite ends the failing verdict. -/
theorem not_failure_of_compositeRelaxes (advisoryResult : Advisory) (policy : GateCheckPolicy)
    (h : CompositeRelaxes advisoryResult policy (compositeAt .advisory policy)) :
    (evaluateGateCheck advisoryResult (compositeAt .advisory policy)).conclusion ≠ .failure := by
  intro hfails
  obtain ⟨_, hfires, _⟩ := (evaluateGateCheck_failure_iff _ _).mp hfails
  obtain ⟨finding, hmem⟩ := List.exists_mem_of_ne_nil _ hfires
  have hcode := code_of_blocker_compositeAt_advisory hmem
  have hback : GatesRaised (compositeAt .advisory policy) policy := { gatesRaised_refl policy with }
  exact hcode (h.2 finding (gateBlockers_kept (fun _ hf => hf) hback hmem hcode))

/-- Raising the composite from off to advisory turns a failing verdict into a passing
one, and so does a slop risk raised to infinity, which counts as no score. -/
theorem failure_not_monotone :
    (¬ ∀ (advisoryResult : Advisory) (policy raised : GateCheckPolicy),
      ¬ NotEvaluated advisoryResult → PolicyRaised policy raised →
      (evaluateGateCheck advisoryResult policy).conclusion = .failure →
      (evaluateGateCheck advisoryResult raised).conclusion = .failure) ∧
    (evaluateGateCheck unlinkedAdvisory (slopBlocks (.finite 80))).conclusion = .failure ∧
    (evaluateGateCheck unlinkedAdvisory (slopBlocks .infinity)).conclusion = .success := by
  refine ⟨?_, by decide +kernel, by decide +kernel⟩
  intro hmono
  have h := hmono unlinkedAdvisory linkedIssueBlocks (compositeAt .advisory linkedIssueBlocks)
    (by decide)
    { gatesRaised_compositeAt linkedIssueBlocks .advisory with mergeReadiness := by decide }
    (by decide)
  exact absurd h (by decide)

end Gittensory.GateMonotonicity
