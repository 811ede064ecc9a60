import Gittensory.ScorePreview
import Mathlib.Tactic.Positivity
import Mathlib.Tactic.GCongr

/-!
The best reasonable case among the scenarios of a preview. All scenarios score the same
work: the base score, the label, the review penalty and the decay are those of the input.
What a scenario changes is the issue link, the credibility and the two open counts, and in
each of them no scenario is ahead of the best case.
-/
namespace Gittensory.BestCase

open JsValue RecordedDivisions ScorePreview

/-! ## Single multipliers -/

theorem clamp_mono {a b : ℚ} (h : a ≤ b) (low high : ℚ) : clamp a low high ≤ clamp b low high :=
  min_le_min_left _ (max_le_max_left _ h)

theorem clamp_nonneg (a : ℚ) : 0 ≤ clamp a 0 1 := le_min zero_le_one (le_max_left _ _)

theorem le_clamp {a b : ℚ} (hone : a ≤ 1) (hle : a ≤ b) : a ≤ clamp b 0 1 :=
  le_min hone (hle.trans (le_max_right _ _))

theorem clamp_le_one (a : ℚ) : clamp a 0 1 ≤ 1 := min_le_left _ _

theorem nonNegative_nonneg (value : Option JsNumber) : 0 ≤ nonNegative value := by
  unfold nonNegative
  split
  · exact le_max_left _ _
  · exact le_rfl

theorem credibilityMultiplier_nonneg {observed : ℚ} (floor : ℚ) (h : 0 ≤ observed) :
    0 ≤ (credibilityMultiplier observed floor).value := by
  unfold credibilityMultiplier
  split_ifs with hfloor
  · exact zero_le_one
  · have hpos : 0 < floor := h.trans_lt (not_le.mp hfloor)
    exact div_nonneg h hpos.le

/-- Below the floor the multiplier is the share of the floor reached. -/
theorem credibilityMultiplier_mono {a b : ℚ} (floor : ℚ) (ha : 0 ≤ a) (h : a ≤ b) :
    (credibilityMultiplier a floor).value ≤ (credibilityMultiplier b floor).value := by
  unfold credibilityMultiplier
  split_ifs with hfloorA hfloorB hfloorB
  · exact le_rfl
  · exact absurd (hfloorA.trans h) hfloorB
  · have hpos : 0 < floor := ha.trans_lt (not_le.mp hfloorA)
    exact (div_le_one hpos).mpr (not_le.mp hfloorA).le
  · have hpos : 0 < floor := ha.trans_lt (not_le.mp hfloorA)
    exact div_le_div_of_nonneg_right h hpos.le

theorem openMultiplier_nonneg (count : ℚ) (threshold : JsNumber) :
    0 ≤ openMultiplier count threshold := by
  unfold openMultiplier
  split_ifs
  · exact zero_le_one
  · exact le_rfl

theorem mathMin_finite (a b : ℚ) :
    JsNumber.mathMin (.finite a) (.finite b) = .finite (min a b) := by
  unfold JsNumber.mathMin
  rw [if_neg (by simp)]
  by_cases h : b ≤ a
  · rw [if_pos (by simpa [JsNumber.ge] using h), min_eq_right h]
  · rw [if_neg (by simpa [JsNumber.ge] using h), min_eq_left (not_le.mp h).le]

theorem mathMax_finite (a b : ℚ) :
    JsNumber.mathMax (.finite a) (.finite b) = .finite (max a b) := by
  unfold JsNumber.mathMax
  rw [if_neg (by simp)]
  by_cases h : b ≤ a
  · rw [if_pos (by simpa [JsNumber.ge] using h), max_eq_left h]
  · rw [if_neg (by simpa [JsNumber.ge] using h), max_eq_right (not_le.mp h).le]

/-- A count cut down to the threshold passes whenever some count does. -/
theorem openMultiplier_le_capped {count : ℚ} (hcount : 0 ≤ count) (projected : ℚ)
    (threshold : JsNumber) :
    openMultiplier count threshold ≤
      openMultiplier (nonNegative (some (JsNumber.mathMin (.finite projected) threshold)))
        threshold := by
  by_cases hpass : threshold.ge (.finite count) = true
  · have hcapped : threshold.ge (.finite
        (nonNegative (some (JsNumber.mathMin (.finite projected) threshold)))) = true := by
      cases threshold with
      | nan => exact hpass
      | negInfinity => exact hpass
      | infinity => rfl
      | finite limit =>
          have hlimit : count ≤ limit := by simpa [JsNumber.ge] using hpass
          rw [mathMin_finite]
          simpa [JsNumber.ge, nonNegative] using hcount.trans hlimit
    rw [openMultiplier, openMultiplier, if_pos hpass, if_pos hcapped]
  · rw [openMultiplier, if_neg hpass]
    exact openMultiplier_nonneg _ _

theorem calculateTimeDecay_nonneg {platform : Platform} (hexp : ∀ x, 0 ≤ platform.exp x)
    (prAgeHours : ℚ) (constants : Constants)
    (overrides : Option UpstreamSources.RepoTimeDecayOverrides) :
    0 ≤ (calculateTimeDecay platform prAgeHours constants overrides).value := by
  unfold calculateTimeDecay
  dsimp only
  split_ifs
  · exact zero_le_one
  · apply le_max_of_le_left
    exact div_nonneg zero_le_one (add_nonneg zero_le_one (hexp _))

theorem timeDecayMultiplier_nonneg {platform : Platform} (hexp : ∀ x, 0 ≤ platform.exp x)
    (input : ScorePreviewInput) (config : Option RegistryRepoConfig) (constants : Constants) :
    0 ≤ (timeDecayMultiplier platform input config constants).value := by
  unfold timeDecayMultiplier
  split_ifs
  · exact calculateTimeDecay_nonneg hexp _ _ _
  · exact zero_le_one

/-! ## The issue multiplier -/

/-- The standard multiplier where the branch allows it. -/
def standardMultiplier (constants : Constants) (branch : BranchEligibilityResult) : ℚ :=
  if isConfirmedBranchEligible branch then selectIssueMultiplier .standard constants else 1

variable {constants : Constants}

theorem one_le_standardMultiplier (hstandard : 1 ≤ selectIssueMultiplier .standard constants)
    (branch : BranchEligibilityResult) : 1 ≤ standardMultiplier constants branch := by
  unfold standardMultiplier
  split_ifs
  · exact hstandard
  · exact le_rfl

theorem confirmed_of_eligible {context : Option LinkedIssueMultiplierContext}
    {branch : BranchEligibilityResult}
    (h : (decideLinkedIssueMultiplier .standard context constants branch).eligible = true) :
    isConfirmedBranchEligible branch = true := (of_decide_eq_true h).2.2

theorem standard_bounds (hstandard : 1 ≤ selectIssueMultiplier .standard constants)
    (context : Option LinkedIssueMultiplierContext) (branch : BranchEligibilityResult) :
    1 ≤ (decideLinkedIssueMultiplier .standard context constants branch).appliedMultiplier ∧
      (decideLinkedIssueMultiplier .standard context constants branch).appliedMultiplier ≤
        standardMultiplier constants branch := by
  have happlied :
      (decideLinkedIssueMultiplier .standard context constants branch).appliedMultiplier =
        if (decideLinkedIssueMultiplier .standard context constants branch).eligible
        then selectIssueMultiplier .standard constants else 1 := rfl
  rw [happlied]
  split_ifs with heligible
  · rw [standardMultiplier, if_pos (confirmed_of_eligible heligible)]
    exact ⟨hstandard, le_rfl⟩
  · exact ⟨le_rfl, one_le_standardMultiplier hstandard branch⟩

/-- A projected context is held back by the branch alone. -/
theorem standard_projected {context : LinkedIssueMultiplierContext}
    (hstatus : context.status = some .validated) (hprojected : context.projected = true)
    (branch : BranchEligibilityResult) :
    (decideLinkedIssueMultiplier .standard (some context) constants branch).appliedMultiplier =
      standardMultiplier constants branch := by
  simp [decideLinkedIssueMultiplier, requestedStatus, hstatus, hprojected, standardMultiplier]

variable (input : ScorePreviewInput)

theorem linkedIssue_of_maintainer (hmode : input.linkedIssueMode = some .maintainer) :
    (linkedIssueMultiplier input constants).appliedMultiplier =
      selectIssueMultiplier .maintainer constants := by
  rw [linkedIssueMultiplier, hmode]
  rfl

/-- What the projected link applies in the other modes. -/
theorem validated_appliedMultiplier (hmode : input.linkedIssueMode ≠ some .maintainer) :
    (linkedIssueMultiplier (withValidatedLinkedIssueScenario input) constants).appliedMultiplier =
      standardMultiplier constants
        (normalizeBranchEligibility (withValidatedLinkedIssueScenario input)) := by
  unfold withValidatedLinkedIssueScenario
  rw [if_neg hmode]
  exact standard_projected rfl rfl _

theorem branch_of_standard (hmode : input.linkedIssueMode = some .standard) :
    normalizeBranchEligibility (withValidatedLinkedIssueScenario input) =
      normalizeBranchEligibility input := by
  have hother : input.linkedIssueMode ≠ some .maintainer := by simp [hmode]
  unfold withValidatedLinkedIssueScenario normalizeBranchEligibility
  rw [if_neg hother, if_pos hmode]
  rfl

/-- Taking the issue as solved never lowers the multiplier. -/
theorem linkedIssue_le_validated (hstandard : 1 ≤ selectIssueMultiplier .standard constants) :
    (linkedIssueMultiplier input constants).appliedMultiplier ≤
      (linkedIssueMultiplier (withValidatedLinkedIssueScenario input)
        constants).appliedMultiplier := by
  match hmode : input.linkedIssueMode with
  | some .maintainer =>
      rw [withValidatedLinkedIssueScenario, if_pos hmode]
  | some .standard =>
      rw [validated_appliedMultiplier input (by simp [hmode]), branch_of_standard input hmode,
        linkedIssueMultiplier, hmode]
      exact (standard_bounds hstandard _ _).2
  | none | some .none =>
      rw [validated_appliedMultiplier input (by simp [hmode]), linkedIssueMultiplier, hmode]
      exact one_le_standardMultiplier hstandard _

theorem linkedIssue_nonneg (hstandard : 1 ≤ selectIssueMultiplier .standard constants)
    (hmaintainer : input.linkedIssueMode = some .maintainer →
      0 ≤ selectIssueMultiplier .maintainer constants) :
    0 ≤ (linkedIssueMultiplier input constants).appliedMultiplier := by
  match hmode : input.linkedIssueMode with
  | some .maintainer =>
      rw [linkedIssue_of_maintainer input hmode]
      exact hmaintainer hmode
  | some .standard =>
      rw [linkedIssueMultiplier, hmode]
      exact zero_le_one.trans (standard_bounds hstandard _ _).1
  | none | some .none =>
      rw [linkedIssueMultiplier, hmode]
      exact zero_le_one

/-! ## Scores -/

/-- A finite number or `NaN`. -/
def NotInfinite (value : JsNumber) : Prop := value = .nan ∨ ∃ number, value = .finite number

theorem notInfinite_clampNumber (value : JsNumber) (low high : ℚ) :
    NotInfinite (clampNumber value (.finite low) (.finite high)) := by
  cases value with
  | nan => exact Or.inl rfl
  | negInfinity => exact Or.inr ⟨_, mathMin_finite high low⟩
  | infinity =>
      refine Or.inr ⟨high, ?_⟩
      simp [clampNumber, JsNumber.mathMin, JsNumber.mathMax, JsNumber.ge]
  | finite number =>
      rw [clampNumber, mathMax_finite, mathMin_finite]
      exact Or.inr ⟨_, rfl⟩

theorem notInfinite_scale {value : JsNumber} (factor : ℚ) (h : NotInfinite value) :
    NotInfinite (scale factor value) := by
  rcases h with rfl | ⟨number, rfl⟩
  · exact Or.inl rfl
  · exact Or.inr ⟨_, rfl⟩

theorem notInfinite_add {value : JsNumber} (left : ℚ) (h : NotInfinite value) :
    NotInfinite (add (.finite left) value) := by
  rcases h with rfl | ⟨number, rfl⟩
  · exact Or.inl rfl
  · exact Or.inr ⟨_, rfl⟩

variable {platform : Platform} {config : Option RegistryRepoConfig}
variable {snapshot : ScoringModelSnapshot}

theorem notInfinite_bonus (total : ℚ) :
    NotInfinite (contributionBonusRamp platform total constants).value :=
  notInfinite_scale _ (notInfinite_clampNumber _ _ _)

/-- A base score is fixed, or a contribution bonus on top of a finite number. -/
theorem baseScore_cases (P : JsNumber → Prop) (hfixed : ∀ fixed, P (.finite fixed))
    (hbonus : ∀ left total,
      P (add (.finite left) (contributionBonusRamp platform total snapshot.constants).value)) :
    P (baseScores platform input config snapshot).value.baseScore := by
  have hchosen : ∀ (saturating : Bool) (a b : JsNumber), P a → P b →
      P (if saturating then a else b) := by
    intro saturating a b ha hb
    cases saturating with
    | true => exact ha
    | false => exact hb
  rw [baseScores]
  cases hfixedBase : input.fixedBaseScore.or (config.bind (·.fixedBaseScore)) with
  | some value => exact hfixed value
  | none => exact hchosen _ _ _ (hbonus _ _) (hbonus _ _)

theorem notInfinite_baseScore :
    NotInfinite (baseScores platform input config snapshot).value.baseScore :=
  baseScore_cases input NotInfinite (fun fixed => Or.inr ⟨fixed, rfl⟩)
    fun left total => notInfinite_add left (notInfinite_bonus total)

theorem finite_of_ge {value : JsNumber} (h : NotInfinite value)
    (hge : value.ge (.finite 0) = true) : ∃ number, value = .finite number ∧ 0 ≤ number := by
  rcases h with rfl | ⟨number, rfl⟩
  · exact absurd hge (by decide)
  · exact ⟨number, rfl, by simpa [JsNumber.ge] using hge⟩

/-- Rounding to four decimals keeps the order. -/
theorem roundScore_mono {a b : ℚ} (h : a ≤ b) :
    (roundScore (.finite b)).value.ge (roundScore (.finite a)).value = true := by
  have hround : (mathRound (a * 10000) : ℚ) ≤ mathRound (b * 10000) :=
    Int.cast_le.mpr (mathRound_mono (mul_le_mul_of_nonneg_right h (by norm_num)))
  have hdivided : (mathRound (a * 10000) : ℚ) / 10000 ≤ mathRound (b * 10000) / 10000 :=
    div_le_div_of_nonneg_right hround (by norm_num)
  exact decide_eq_true hdivided

/-- The multipliers of an input, as a core computes them. -/
def multiplier (platform : Platform) (config : Option RegistryRepoConfig)
    (constants : Constants) (evidence : Option ContributorEvidence) (input : ScorePreviewInput) :
    ℚ :=
  labelMultiplier platform input config
    * (linkedIssueMultiplier input constants).appliedMultiplier
    * (credibilityMultiplier (credibilityObserved input evidence) (credibilityFloor constants)).value
    * reviewPenaltyMultiplier input constants
    * openMultiplier (nonNegative input.openPrCount) (openPrThreshold platform input constants).value
    * openMultiplier (nonNegative input.openIssueCount)
        (openIssueThreshold platform input constants).value
    * (timeDecayMultiplier platform input config constants).value

/-- The estimated score of an input. -/
def scoreOf (platform : Platform) (repo : Option RepositoryRecord)
    (snapshot : ScoringModelSnapshot) (evidence : Option ContributorEvidence)
    (input : ScorePreviewInput) : JsNumber :=
  (computeScoreCore platform input repo snapshot evidence).value.scoreEstimate.estimatedMergedScore

variable {repo : Option RepositoryRecord} {evidence : Option ContributorEvidence}

theorem scoreOf_eq :
    scoreOf platform repo snapshot evidence input =
      (roundScore (scale
        (multiplier platform (repo.bind (·.registryConfig)) snapshot.constants evidence input)
        (baseScores platform input (repo.bind (·.registryConfig)) snapshot).value.baseScore)).value :=
  rfl

/-- The same work under another issue link, other counts and another credibility. -/
def Reframes (original input : ScorePreviewInput) : Prop :=
  ∃ mode context prCount issueCount credibility, input = { original with
    linkedIssueMode := mode
    linkedIssueContext := context
    openPrCount := prCount
    openIssueCount := issueCount
    credibility := credibility }

theorem Reframes.refl (original : ScorePreviewInput) : Reframes original original :=
  ⟨_, _, _, _, _, rfl⟩

theorem Reframes.baseScores_eq {original : ScorePreviewInput} (h : Reframes original input) :
    baseScores platform input config snapshot = baseScores platform original config snapshot := by
  obtain ⟨mode, context, prCount, issueCount, credibility, rfl⟩ := h
  rfl

/-- The multipliers that no scenario changes, and the thresholds. -/
theorem Reframes.multiplier_eq {original : ScorePreviewInput} (h : Reframes original input) :
    multiplier platform config constants evidence input =
      labelMultiplier platform original config
        * (linkedIssueMultiplier input constants).appliedMultiplier
        * (credibilityMultiplier (credibilityObserved input evidence)
            (credibilityFloor constants)).value
        * reviewPenaltyMultiplier original constants
        * openMultiplier (nonNegative input.openPrCount)
            (openPrThreshold platform original constants).value
        * openMultiplier (nonNegative input.openIssueCount)
            (openIssueThreshold platform original constants).value
        * (timeDecayMultiplier platform original config constants).value := by
  obtain ⟨mode, context, prCount, issueCount, credibility, rfl⟩ := h
  rfl

variable (constants platform evidence) in
/-- No multiplier of `input` is ahead of the one of `best`. -/
structure Behind (original best input : ScorePreviewInput) : Prop where
  reframes : Reframes original input
  issue_nonneg : 0 ≤ (linkedIssueMultiplier input constants).appliedMultiplier
  issue_le : (linkedIssueMultiplier input constants).appliedMultiplier ≤
    (linkedIssueMultiplier best constants).appliedMultiplier
  credibility_le : credibilityObserved input evidence ≤ credibilityObserved best evidence
  openPr_le : openMultiplier (nonNegative input.openPrCount)
      (openPrThreshold platform original constants).value ≤
    openMultiplier (nonNegative best.openPrCount)
      (openPrThreshold platform original constants).value
  openIssue_le : openMultiplier (nonNegative input.openIssueCount)
      (openIssueThreshold platform original constants).value ≤
    openMultiplier (nonNegative best.openIssueCount)
      (openIssueThreshold platform original constants).value

theorem Behind.multiplier_le {original best : ScorePreviewInput}
    (h : Behind constants platform evidence original best input) (hbest : Reframes original best)
    (hexp : ∀ x, 0 ≤ platform.exp x) (hlabel : 0 ≤ labelMultiplier platform original config) :
    multiplier platform config constants evidence input ≤
      multiplier platform config constants evidence best := by
  have hissue := h.issue_nonneg
  have hissueBest := hissue.trans h.issue_le
  have hcredibility := credibilityMultiplier_nonneg (credibilityFloor constants)
    (clamp_nonneg (input.credibility.getD (inferCredibility evidence)))
  have hcredibilityLe := credibilityMultiplier_mono (credibilityFloor constants)
    (clamp_nonneg (input.credibility.getD (inferCredibility evidence))) h.credibility_le
  have hcredibilityBest := hcredibility.trans hcredibilityLe
  have hpenalty : 0 ≤ reviewPenaltyMultiplier original constants := clamp_nonneg _
  have hopenPr := openMultiplier_nonneg (nonNegative input.openPrCount)
    (openPrThreshold platform original constants).value
  have hopenPrBest := hopenPr.trans h.openPr_le
  have hopenIssue := openMultiplier_nonneg (nonNegative input.openIssueCount)
    (openIssueThreshold platform original constants).value
  have hdecay := timeDecayMultiplier_nonneg hexp original config constants
  rw [h.reframes.multiplier_eq, hbest.multiplier_eq]
  gcongr
  · exact h.issue_le
  · exact hcredibilityLe
  · exact h.openPr_le
  · exact h.openIssue_le

/-- What is behind in every multiplier has the lower score, on a non-negative base. -/
theorem Behind.scoreOf_le {original best : ScorePreviewInput}
    (h : Behind snapshot.constants platform evidence original best input)
    (hbest : Reframes original best) (hexp : ∀ x, 0 ≤ platform.exp x)
    (hbase : (baseScores platform original (repo.bind (·.registryConfig))
      snapshot).value.baseScore.ge (.finite 0) = true)
    (hlabel : 0 ≤ labelMultiplier platform original (repo.bind (·.registryConfig))) :
    (scoreOf platform repo snapshot evidence best).ge
      (scoreOf platform repo snapshot evidence input) = true := by
  obtain ⟨base, hvalue, hnonneg⟩ := finite_of_ge (notInfinite_baseScore original) hbase
  rw [scoreOf_eq, scoreOf_eq, h.reframes.baseScores_eq, hbest.baseScores_eq, hvalue]
  exact roundScore_mono (mul_le_mul_of_nonneg_left
    (h.multiplier_le input hbest hexp hlabel) hnonneg)

/-! ## The scenarios -/

theorem reframes_withGates (openPrCount : JsNumber) (credibility : ℚ) :
    Reframes input (withGates input openPrCount credibility) := ⟨_, _, _, _, _, rfl⟩

theorem reframes_validated : Reframes input (withValidatedLinkedIssueScenario input) := by
  unfold withValidatedLinkedIssueScenario
  split_ifs
  · exact Reframes.refl input
  · exact ⟨_, _, _, _, _, rfl⟩

theorem credibilityObserved_validated :
    credibilityObserved (withValidatedLinkedIssueScenario input) evidence =
      credibilityObserved input evidence := by
  have hsame : (withValidatedLinkedIssueScenario input).credibility = input.credibility := by
    unfold withValidatedLinkedIssueScenario
    split_ifs <;> rfl
  rw [credibilityObserved, credibilityObserved, hsame]

theorem reframes_best (gates : ScoreGates) : Reframes input (bestReasonableInput input gates) := by
  obtain ⟨mode, context, prCount, issueCount, credibility, h⟩ := reframes_validated input
  unfold bestReasonableInput
  rw [h]
  exact ⟨_, _, _, _, _, rfl⟩

/-- The credibility the best case assumes. -/
def bestCredibility (gates : ScoreGates) : ℚ :=
  max (max (projectedCredibility input gates) (observedApprovalCredibility input gates))
    gates.credibilityFloor

theorem projected_le_best (gates : ScoreGates) :
    projectedCredibility input gates ≤ bestCredibility input gates :=
  (le_max_left _ _).trans (le_max_left _ _)

theorem approval_le_best (gates : ScoreGates) :
    observedApprovalCredibility input gates ≤ bestCredibility input gates :=
  (le_max_right _ _).trans (le_max_left _ _)

theorem observed_le_best (gates : ScoreGates) :
    gates.credibilityObserved ≤ bestCredibility input gates := by
  apply le_trans _ (approval_le_best input gates)
  unfold observedApprovalCredibility
  split_ifs
  · exact le_max_left _ _
  · exact le_rfl

theorem cleared_le_best (gates : ScoreGates) :
    max gates.credibilityObserved gates.credibilityFloor ≤ bestCredibility input gates :=
  max_le (observed_le_best input gates) (le_max_right _ _)

variable (platform repo snapshot evidence) in
/-- The gates of the current scenario. -/
def currentGates : ScoreGates :=
  (computeScoreCore platform input repo snapshot evidence).value.gates

variable (platform repo snapshot evidence) in
/-- The input of the best case. -/
def bestInput : ScorePreviewInput :=
  bestReasonableInput input (currentGates input platform snapshot repo evidence)

/-- What an input must still satisfy to be behind the best case: its counts always are. -/
theorem behind_best {s : ScorePreviewInput} (hreframes : Reframes input s)
    (hnonneg : 0 ≤ (linkedIssueMultiplier s snapshot.constants).appliedMultiplier)
    (hissue : (linkedIssueMultiplier s snapshot.constants).appliedMultiplier ≤
      (linkedIssueMultiplier (withValidatedLinkedIssueScenario input)
        snapshot.constants).appliedMultiplier)
    (hcredibility : credibilityObserved s evidence ≤
      clamp (bestCredibility input (currentGates input platform snapshot repo evidence)) 0 1) :
    Behind snapshot.constants platform evidence input
      (bestInput input platform snapshot repo evidence) s where
  reframes := hreframes
  issue_nonneg := hnonneg
  issue_le := hissue
  credibility_le := hcredibility
  openPr_le := openMultiplier_le_capped (nonNegative_nonneg _) _ _
  openIssue_le := openMultiplier_le_capped (nonNegative_nonneg _) _ _

/-- The inputs of all scenarios, the current one first. -/
theorem behind_of_scenario (hstandard : 1 ≤ selectIssueMultiplier .standard snapshot.constants)
    (hmaintainer : input.linkedIssueMode = some .maintainer →
      0 ≤ selectIssueMultiplier .maintainer snapshot.constants)
    {entry : ScenarioName × ScenarioSource × ScorePreviewInput}
    (hentry : entry ∈ (.current, .currentData, input) ::
      scenarioInputs input (currentGates input platform snapshot repo evidence)) :
    Behind snapshot.constants platform evidence input
      (bestInput input platform snapshot repo evidence) entry.2.2 := by
  have hissue := linkedIssue_le_validated input hstandard
  have hnonneg := linkedIssue_nonneg input hstandard hmaintainer
  have hobserved : credibilityObserved input evidence ≤
      clamp (bestCredibility input (currentGates input platform snapshot repo evidence)) 0 1 :=
    le_clamp (clamp_le_one _)
      (observed_le_best input (currentGates input platform snapshot repo evidence))
  have hgates : ∀ count credibility,
      credibility ≤ bestCredibility input (currentGates input platform snapshot repo evidence) →
      Behind snapshot.constants platform evidence input
        (bestInput input platform snapshot repo evidence) (withGates input count credibility) :=
    fun count credibility h => behind_best input (reframes_withGates input count credibility)
      hnonneg hissue (clamp_mono h 0 1)
  rcases List.mem_cons.mp hentry with rfl | hentry
  · exact behind_best input (Reframes.refl input) hnonneg hissue hobserved
  · simp only [scenarioInputs, List.mem_cons, List.not_mem_nil, or_false] at hentry
    rcases hentry with rfl | rfl | rfl | rfl | rfl | rfl
    · exact hgates _ _ (cleared_le_best input _)
    · exact hgates _ _ (projected_le_best input _)
    · exact hgates _ _ (approval_le_best input _)
    · exact hgates _ _ (observed_le_best input _)
    · refine behind_best input (reframes_validated input) (hnonneg.trans hissue) le_rfl ?_
      rw [credibilityObserved_validated]
      exact hobserved
    · exact behind_best input (reframes_best input _) (hnonneg.trans hissue) le_rfl le_rfl

/-! ## The best reasonable case -/

theorem scenarioPreviews_eq :
    (buildScorePreview platform input repo snapshot evidence).value.scenarioPreviews =
      ((.current, .currentData, input) ::
        scenarioInputs input (currentGates input platform snapshot repo evidence)).map fun entry =>
          scenario entry.1 entry.2.1 entry.2.2
            (computeScoreCore platform entry.2.2 repo snapshot evidence).value repo := by
  simp only [buildScorePreview, buildScenarioPreviews, Divided.value_bind, Divided.value_mapM,
    Divided.value_pure, List.map_cons]
  rfl

/-- The scenario of that name is scored on the input of the best case. -/
theorem input_of_best {entry : ScenarioName × ScenarioSource × ScorePreviewInput}
    (hentry : entry ∈ (.current, .currentData, input) ::
      scenarioInputs input (currentGates input platform snapshot repo evidence))
    (hname : entry.1 = .bestReasonableCase) :
    entry.2.2 = bestInput input platform snapshot repo evidence := by
  simp only [scenarioInputs, List.mem_cons, List.not_mem_nil, or_false] at hentry
  rcases hentry with rfl | rfl | rfl | rfl | rfl | rfl | rfl
  all_goals first | rfl | cases hname

/-- No scenario of a preview scores higher than the best reasonable case. -/
theorem bestReasonableCase_bounds (hexp : ∀ x, 0 ≤ platform.exp x)
    (hbase : (baseScores platform input (repo.bind (·.registryConfig))
      snapshot).value.baseScore.ge (.finite 0) = true)
    (hlabel : 0 ≤ labelMultiplier platform input (repo.bind (·.registryConfig)))
    (hstandard : 1 ≤ selectIssueMultiplier .standard snapshot.constants)
    (hmaintainer : input.linkedIssueMode = some .maintainer →
      0 ≤ selectIssueMultiplier .maintainer snapshot.constants)
    {best other : ScoreScenarioPreview}
    (hbest : best ∈
      (buildScorePreview platform input repo snapshot evidence).value.scenarioPreviews)
    (hname : best.name = .bestReasonableCase)
    (hother : other ∈
      (buildScorePreview platform input repo snapshot evidence).value.scenarioPreviews) :
    best.effectiveEstimatedScore.ge other.effectiveEstimatedScore = true := by
  rw [scenarioPreviews_eq] at hbest hother
  obtain ⟨bestEntry, hbestEntry, rfl⟩ := List.mem_map.mp hbest
  obtain ⟨otherEntry, hotherEntry, rfl⟩ := List.mem_map.mp hother
  have hbehind := behind_of_scenario input hstandard hmaintainer hotherEntry
  have hscores := hbehind.scoreOf_le _ (reframes_best input _) hexp hbase hlabel
  rw [← input_of_best input hbestEntry hname] at hscores
  exact hscores

/-! ## On given inputs -/

/-- Quotients by a positive zero; the exponential of zero. -/
def zeroPlatform : Platform where
  exp := fun _ => 1
  byZero := fun left => if left = 0 then .nan else if 0 < left then .infinity else .negInfinity
  toLowerCase := id

/-- Five open pull requests, a fixed base score and no token counted. -/
def crowdedInput (mode : LinkedIssueMode) : ScorePreviewInput where
  labels := none
  linkedIssueMode := some mode
  linkedIssueContext := none
  sourceTokenScore := none
  totalTokenScore := none
  sourceLines := none
  testTokenScore := none
  nonCodeTokenScore := none
  nonCodeLines := none
  existingContributorTokenScore := none
  openPrCount := some (.finite 5)
  openIssueCount := none
  credibility := none
  changesRequestedCount := none
  fixedBaseScore := some 10
  metadataOnly := false
  pendingMergedPrCount := none
  pendingClosedPrCount := none
  approvedPrCount := none
  observedApprovedPrCount := none
  observedStalePrCount := none
  duplicateRiskCount := none
  expectedOpenPrCountAfterMerge := none
  projectedCredibility := none
  pendingScenarioObserved := false
  branchEligibility := some ⟨.eligible, some .githubMetadata, some false⟩
  prAgeHours := none
  applyTimeDecay := false

def listedScenarios (mode : LinkedIssueMode) (constants : Constants) :
    List ScoreScenarioPreview :=
  (buildScorePreview zeroPlatform (crowdedInput mode) none ⟨constants, .unknown⟩
    none).value.scenarioPreviews

theorem crowded_best :
    ∃ best ∈ listedScenarios .standard [], best.name = .bestReasonableCase ∧
      ∃ other ∈ listedScenarios .standard [], other.name = .current ∧
        best.effectiveEstimatedScore.ge other.effectiveEstimatedScore = true := by
  have hbest : ∃ best ∈ listedScenarios .standard [], best.name = .bestReasonableCase := by
    decide +kernel
  have hother : ∃ other ∈ listedScenarios .standard [], other.name = .current := by
    decide +kernel
  obtain ⟨best, hbest, hname⟩ := hbest
  obtain ⟨other, hother, hcurrent⟩ := hother
  exact ⟨best, hbest, hname, other, hother, hcurrent,
    bestReasonableCase_bounds (crowdedInput .standard) (fun _ => zero_le_one) (by decide +kernel)
      (by decide +kernel) (by decide +kernel) (by decide +kernel) hbest hname hother⟩

/-- Under a negative maintainer multiplier the scenario that the closed gate sets to zero is
ahead of the best case, whose gate is open. -/
theorem negativeMaintainer_not_bounded :
    (baseScores zeroPlatform (crowdedInput .maintainer) none
        ⟨[("MAINTAINER_ISSUE_MULTIPLIER", .finite (-1))], .unknown⟩).value.baseScore.ge
          (.finite 0) = true ∧
      0 ≤ labelMultiplier zeroPlatform (crowdedInput .maintainer) none ∧
      1 ≤ selectIssueMultiplier .standard [("MAINTAINER_ISSUE_MULTIPLIER", .finite (-1))] ∧
      ∃ best ∈ listedScenarios .maintainer [("MAINTAINER_ISSUE_MULTIPLIER", .finite (-1))],
        best.name = .bestReasonableCase ∧
        ∃ other ∈ listedScenarios .maintainer [("MAINTAINER_ISSUE_MULTIPLIER", .finite (-1))],
          best.effectiveEstimatedScore.ge other.effectiveEstimatedScore = false := by
  decide +kernel

end Gittensory.BestCase
