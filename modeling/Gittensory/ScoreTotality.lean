import Gittensory.BestCase
import Gittensory.JsCoercion

/-!
Where a preview computes with finite numbers only. Most divisors are positive as computed:
a fixed one, one that a maximum or a sum keeps from zero, or a count that was just tested.
Three are constants of the scoring model as the table has them. Unless one of them is zero
no division has a zero divisor, the thresholds and the scores are finite, and the gate on
open pull requests blocks only a count above its threshold.
-/
namespace Gittensory.ScoreTotality

open BestCase CodeUnits JsValue RecordedDivisions ScorePreview

def IsFinite (value : JsNumber) : Prop := ∃ number, value = .finite number

theorem IsFinite.of_number (number : ℚ) : IsFinite (.finite number) := ⟨number, rfl⟩

/-- The constants of the table that divide as they stand. -/
structure NonzeroSlots (constants : Constants) : Prop where
  fullBonus : constant constants "CONTRIBUTION_SCORE_FOR_FULL_BONUS" 1500 ≠ 0
  prSlot : constant constants "OPEN_PR_THRESHOLD_TOKEN_SCORE" 300 ≠ 0
  issueSlot : constant constants "OPEN_ISSUE_SPAM_TOKEN_SCORE_PER_SLOT" 300 ≠ 0

/-! ## Divisors -/

@[simp] theorem isDefined_rounded (value : ℚ) : (rounded value).IsDefined :=
  (isDefined_divide _ _).mpr (by norm_num)

@[simp] theorem isDefined_roundScore (value : JsNumber) : (roundScore value).IsDefined := by
  unfold roundScore
  split
  · exact (Divided.isDefined_map _ _).mpr (isDefined_rounded _)
  · exact List.forall_mem_singleton.mpr (by norm_num)

@[simp] theorem isDefined_applyNonCodeLineCap (input : ScorePreviewInput)
    (constants : Constants) : (applyNonCodeLineCap input constants).IsDefined := by
  unfold applyNonCodeLineCap
  dsimp only
  split_ifs with hempty hshort
  · exact Divided.isDefined_pure _
  · exact Divided.isDefined_pure _
  · have hlines : nonNegative input.nonCodeLines ≠ 0 := by
      intro hzero
      exact hempty (Or.inr hzero.le)
    simpa using hlines

variable (platform : Platform) (constants : Constants)

@[simp] theorem isDefined_quotientByConstant (left divisor : ℚ) :
    (quotientByConstant platform left divisor).IsDefined ↔ divisor ≠ 0 :=
  isDefined_quotient _ _ _ _

@[simp] theorem isDefined_contributionBonusRamp (total : ℚ) :
    (contributionBonusRamp platform total constants).IsDefined ↔
      constant constants "CONTRIBUTION_SCORE_FOR_FULL_BONUS" 1500 ≠ 0 := by
  simp [contributionBonusRamp]

@[simp] theorem isDefined_saturationContributionBonus (total : ℚ) :
    (saturationContributionBonus platform total constants).IsDefined ↔
      constant constants "CONTRIBUTION_SCORE_FOR_FULL_BONUS" 1500 ≠ 0 :=
  isDefined_contributionBonusRamp platform constants total

/-- The saturation scale is at least one. -/
@[simp] theorem isDefined_saturationScore (source total : ℚ) :
    (saturationScore platform source total constants).IsDefined ↔
      constant constants "CONTRIBUTION_SCORE_FOR_FULL_BONUS" 1500 ≠ 0 := by
  have hscale : max (constant constants "SRC_TOK_SATURATION_SCALE" 58) 1 ≠ 0 :=
    (lt_max_of_lt_right zero_lt_one).ne'
  simp [saturationScore, hscale]

@[simp] theorem isDefined_baseScores (input : ScorePreviewInput)
    (config : Option RegistryRepoConfig) (snapshot : ScoringModelSnapshot) :
    (baseScores platform input config snapshot).IsDefined ↔
      constant snapshot.constants "CONTRIBUTION_SCORE_FOR_FULL_BONUS" 1500 ≠ 0 := by
  have hlines : ∀ value : Option JsNumber, max 1 (nonNegative value) ≠ 0 :=
    fun value => (lt_max_of_lt_left zero_lt_one).ne'
  simp [baseScores, hlines]

/-- The floor divides only what is below it, and nothing observed is negative. -/
theorem isDefined_credibilityMultiplier {observed : ℚ} (floor : ℚ) (h : 0 ≤ observed) :
    (credibilityMultiplier observed floor).IsDefined := by
  unfold credibilityMultiplier
  split_ifs with hfloor
  · exact Divided.isDefined_pure _
  · exact (isDefined_divide _ _).mpr (h.trans_lt (not_le.mp hfloor)).ne'

@[simp] theorem isDefined_openThreshold (limit base perSlot : ℚ) (input : ScorePreviewInput) :
    (openThreshold platform limit base perSlot input).IsDefined ↔ perSlot ≠ 0 := by
  simp [openThreshold]

variable {platform}

theorem isDefined_calculateTimeDecay (hexp : ∀ x, 0 ≤ platform.exp x) (prAgeHours : ℚ)
    (overrides : Option UpstreamSources.RepoTimeDecayOverrides) :
    (calculateTimeDecay platform prAgeHours constants overrides).IsDefined := by
  have hsum : ∀ x, 1 + platform.exp x ≠ 0 :=
    fun x => (add_pos_of_pos_of_nonneg zero_lt_one (hexp x)).ne'
  unfold calculateTimeDecay
  dsimp only
  split_ifs
  · exact Divided.isDefined_pure _
  · simp [hsum]

theorem isDefined_timeDecayMultiplier (hexp : ∀ x, 0 ≤ platform.exp x)
    (input : ScorePreviewInput) (config : Option RegistryRepoConfig) :
    (timeDecayMultiplier platform input config constants).IsDefined := by
  unfold timeDecayMultiplier
  split_ifs
  · exact isDefined_calculateTimeDecay constants hexp _ _
  · exact Divided.isDefined_pure _

@[simp] theorem isDefined_laneMath (config : Option RegistryRepoConfig) :
    (laneMath config constants).IsDefined := by
  simp [laneMath]

/-- One core divides by all three constants. -/
theorem isDefined_computeScoreCore_iff (hexp : ∀ x, 0 ≤ platform.exp x)
    (input : ScorePreviewInput) (repo : Option RepositoryRecord)
    (snapshot : ScoringModelSnapshot) (evidence : Option ContributorEvidence) :
    (computeScoreCore platform input repo snapshot evidence).IsDefined ↔
      NonzeroSlots snapshot.constants := by
  have hcredibility : ∀ floor,
      (credibilityMultiplier (credibilityObserved input evidence) floor).IsDefined :=
    fun floor => isDefined_credibilityMultiplier floor (clamp_nonneg _)
  have hdecay := isDefined_timeDecayMultiplier snapshot.constants hexp input
    (repo.bind (·.registryConfig))
  simp only [computeScoreCore, Divided.isDefined_bind, Divided.isDefined_pure,
    isDefined_baseScores, isDefined_rounded, isDefined_roundScore, isDefined_laneMath,
    openPrThreshold, openIssueThreshold, isDefined_openThreshold, hcredibility, hdecay, true_and,
    and_true]
  exact ⟨fun h => ⟨h.1, h.2.1, h.2.2⟩, fun h => ⟨h.fullBonus, h.prSlot, h.issueSlot⟩⟩

theorem isDefined_buildScorePreview_iff (hexp : ∀ x, 0 ≤ platform.exp x)
    (input : ScorePreviewInput) (repo : Option RepositoryRecord)
    (snapshot : ScoringModelSnapshot) (evidence : Option ContributorEvidence) :
    (buildScorePreview platform input repo snapshot evidence).IsDefined ↔
      NonzeroSlots snapshot.constants := by
  simp only [buildScorePreview, buildScenarioPreviews, Divided.isDefined_bind,
    Divided.isDefined_mapM, Divided.isDefined_pure, isDefined_computeScoreCore_iff hexp, and_true]
  exact ⟨fun h => h.1, fun h => ⟨h, fun _ _ => h⟩⟩

/-! ## Finite values -/

section Finite

variable {value : JsNumber}

theorem IsFinite.scale (factor : ℚ) (h : IsFinite value) : IsFinite (scale factor value) := by
  obtain ⟨number, rfl⟩ := h
  exact IsFinite.of_number _

theorem IsFinite.add (left : ℚ) (h : IsFinite value) : IsFinite (add (.finite left) value) := by
  obtain ⟨number, rfl⟩ := h
  exact IsFinite.of_number _

theorem IsFinite.mathFloor (h : IsFinite value) : IsFinite (mathFloor value) := by
  obtain ⟨number, rfl⟩ := h
  exact IsFinite.of_number _

theorem IsFinite.mathMin (left : ℚ) (h : IsFinite value) :
    IsFinite (JsNumber.mathMin (.finite left) value) := by
  obtain ⟨number, rfl⟩ := h
  rw [mathMin_finite]
  exact IsFinite.of_number _

theorem IsFinite.clampNumber (low high : ℚ) (h : IsFinite value) :
    IsFinite (clampNumber value (.finite low) (.finite high)) := by
  obtain ⟨number, rfl⟩ := h
  rw [ScorePreview.clampNumber, mathMax_finite]
  exact IsFinite.mathMin high (IsFinite.of_number _)

theorem IsFinite.roundScore (h : IsFinite value) : IsFinite (roundScore value).value := by
  obtain ⟨number, rfl⟩ := h
  exact IsFinite.of_number _

end Finite

variable (platform)

theorem isFinite_quotientByConstant (left : ℚ) {divisor : ℚ} (h : divisor ≠ 0) :
    IsFinite (quotientByConstant platform left divisor).value :=
  ⟨_, value_quotient _ _ left h⟩

variable {constants}

theorem isFinite_contributionBonusRamp (total : ℚ) (h : NonzeroSlots constants) :
    IsFinite (contributionBonusRamp platform total constants).value :=
  ((isFinite_quotientByConstant platform total h.fullBonus).clampNumber 0 1).scale _

theorem isFinite_saturationScore (source total : ℚ) (h : NonzeroSlots constants) :
    IsFinite (saturationScore platform source total constants).value :=
  (isFinite_contributionBonusRamp platform total h).add _

theorem isFinite_openThreshold (limit base : ℚ) {perSlot : ℚ} (input : ScorePreviewInput)
    (h : perSlot ≠ 0) : IsFinite (openThreshold platform limit base perSlot input).value :=
  ((isFinite_quotientByConstant platform _ h).mathFloor.add base).mathMin limit

/-- The base scores of a change are finite whichever model is active. -/
structure FiniteBase (base : BaseScores) : Prop where
  saturation : IsFinite base.saturationBaseScore
  score : IsFinite base.baseScore
  bonus : IsFinite base.activeContributionBonus

theorem finiteBase_baseScores (input : ScorePreviewInput) (config : Option RegistryRepoConfig)
    {snapshot : ScoringModelSnapshot} (h : NonzeroSlots snapshot.constants) :
    FiniteBase (baseScores platform input config snapshot).value := by
  have hbonus := fun total => isFinite_contributionBonusRamp platform total h
  refine ⟨isFinite_saturationScore platform _ _ h, ?_, ?_⟩
  · exact baseScore_cases input IsFinite IsFinite.of_number fun left total => (hbonus total).add left
  · simp only [baseScores, saturationContributionBonus, Divided.value_bind, Divided.value_pure]
    split_ifs
    · exact hbonus _
    · exact hbonus _

/-! ## The preview -/

/-- Every threshold and score of a core is a finite number; its multipliers are rationals. -/
structure FiniteCore (core : ScoreCore) : Prop where
  openPrThreshold : IsFinite core.gates.openPrThreshold
  openIssueThreshold : IsFinite core.gates.openIssueThreshold
  baseScore : IsFinite core.scoreEstimate.baseScore
  contributionBonus : IsFinite core.scoreEstimate.contributionBonus
  estimatedMergedScore : IsFinite core.scoreEstimate.estimatedMergedScore
  pendingSaturationScore : IsFinite core.scoreEstimate.pendingSaturationScore

theorem finiteCore_computeScoreCore (input : ScorePreviewInput) (repo : Option RepositoryRecord)
    {snapshot : ScoringModelSnapshot} (evidence : Option ContributorEvidence)
    (h : NonzeroSlots snapshot.constants) :
    FiniteCore (computeScoreCore platform input repo snapshot evidence).value := by
  have hbase := finiteBase_baseScores platform input (repo.bind (·.registryConfig)) h
  exact {
    openPrThreshold := isFinite_openThreshold platform _ _ input h.prSlot
    openIssueThreshold := isFinite_openThreshold platform _ _ input h.issueSlot
    baseScore := hbase.score.roundScore
    contributionBonus := hbase.bonus.roundScore
    estimatedMergedScore := (hbase.score.scale _).roundScore
    pendingSaturationScore := hbase.saturation.roundScore }

/-- The gate on open pull requests is among the blockers. -/
def BlocksOpenPr (blockedBy : List ScoreGateBlocker) : Prop :=
  ∃ blocker ∈ blockedBy, blocker.code = .openPrThreshold

/-- Whenever the gate blocks, the count is above a finite threshold. -/
def BlocksOnlyAbove (core : ScoreCore) (blockedBy : List ScoreGateBlocker) : Prop :=
  BlocksOpenPr blockedBy →
    ∃ limit, core.gates.openPrThreshold = .finite limit ∧ limit < core.gates.openPrCount

theorem mem_blockedIf {condition : Bool} {code : GateCode} {severity : GateSeverity}
    {blocker : ScoreGateBlocker} :
    blocker ∈ blockedIf condition code severity ↔ condition = true ∧ blocker = ⟨code, severity⟩ := by
  unfold blockedIf
  split_ifs with h
  · simp [h]
  · simp [h]

theorem openPrMultiplier_of_blocks {input : ScorePreviewInput} {repo : Option RepositoryRecord}
    {core : ScoreCore} (h : BlocksOpenPr (blockedByFor input repo core)) :
    core.scoreEstimate.openPrMultiplier = 0 := by
  obtain ⟨blocker, hblocker, hcode⟩ := h
  simp only [blockedByFor, List.mem_append, mem_blockedIf, decide_eq_true_eq] at hblocker
  rcases hblocker with ((((((((((((⟨-, rfl⟩ | ⟨-, rfl⟩) | ⟨-, rfl⟩) | ⟨-, rfl⟩) | ⟨-, rfl⟩) |
    ⟨-, rfl⟩) | ⟨hzero, rfl⟩) | ⟨-, rfl⟩) | ⟨-, rfl⟩) | ⟨-, rfl⟩) | ⟨-, rfl⟩) | ⟨-, rfl⟩) |
    ⟨-, rfl⟩) | ⟨-, rfl⟩
  all_goals first | exact hzero | cases hcode

theorem lt_of_openMultiplier_eq_zero {count limit : ℚ}
    (h : openMultiplier count (.finite limit) = 0) : limit < count := by
  by_contra hle
  have hpass : JsNumber.ge (.finite limit) (.finite count) = true := by
    simpa [JsNumber.ge] using hle
  rw [openMultiplier, if_pos hpass] at h
  exact one_ne_zero h

theorem blocksOnlyAbove (input : ScorePreviewInput) (repo : Option RepositoryRecord)
    {snapshot : ScoringModelSnapshot} (evidence : Option ContributorEvidence)
    (h : NonzeroSlots snapshot.constants) :
    BlocksOnlyAbove (computeScoreCore platform input repo snapshot evidence).value
      (blockedByFor input repo (computeScoreCore platform input repo snapshot evidence).value) := by
  intro hblocks
  obtain ⟨limit, hlimit⟩ :=
    (finiteCore_computeScoreCore platform input repo evidence h).openPrThreshold
  have hzero : openMultiplier
      (computeScoreCore platform input repo snapshot evidence).value.gates.openPrCount
      (computeScoreCore platform input repo snapshot evidence).value.gates.openPrThreshold = 0 :=
    openPrMultiplier_of_blocks hblocks
  rw [hlimit] at hzero
  exact ⟨limit, hlimit, lt_of_openMultiplier_eq_zero hzero⟩

/-- A preview without a zero divisor, all numbers of which are finite, and whose gate on open
pull requests blocks only above a finite threshold, in each of its scenarios. -/
structure Total (preview : Divided ℚ ScorePreviewResult) : Prop where
  defined : preview.IsDefined
  finite : FiniteCore preview.value.core
  gate : BlocksOnlyAbove preview.value.core preview.value.blockedBy
  scenarios_finite : ∀ scenario ∈ preview.value.scenarioPreviews, FiniteCore scenario.core
  scenarios_gate : ∀ scenario ∈ preview.value.scenarioPreviews,
    BlocksOnlyAbove scenario.core scenario.blockedBy

theorem scenario_core (name : ScenarioName) (source : ScenarioSource) (input : ScorePreviewInput)
    (core : ScoreCore) (repo : Option RepositoryRecord) :
    (scenario name source input core repo).core = core := rfl

theorem scenario_blockedBy (name : ScenarioName) (source : ScenarioSource)
    (input : ScorePreviewInput) (core : ScoreCore) (repo : Option RepositoryRecord) :
    (scenario name source input core repo).blockedBy = blockedByFor input repo core := rfl

theorem core_buildScorePreview (input : ScorePreviewInput) (repo : Option RepositoryRecord)
    (snapshot : ScoringModelSnapshot) (evidence : Option ContributorEvidence) :
    (buildScorePreview platform input repo snapshot evidence).value.core =
      (computeScoreCore platform input repo snapshot evidence).value := by
  simp only [buildScorePreview, Divided.value_bind, Divided.value_pure]

theorem blockedBy_buildScorePreview (input : ScorePreviewInput)
    (repo : Option RepositoryRecord) (snapshot : ScoringModelSnapshot)
    (evidence : Option ContributorEvidence) :
    (buildScorePreview platform input repo snapshot evidence).value.blockedBy =
      blockedByFor input repo (computeScoreCore platform input repo snapshot evidence).value := by
  simp only [buildScorePreview, Divided.value_bind, Divided.value_pure]

/-- A preview is total if and only if no constant it divides by is zero. -/
theorem preview_total_iff (hexp : ∀ x, 0 ≤ platform.exp x) (input : ScorePreviewInput)
    (repo : Option RepositoryRecord) (snapshot : ScoringModelSnapshot)
    (evidence : Option ContributorEvidence) :
    Total (buildScorePreview platform input repo snapshot evidence) ↔
      NonzeroSlots snapshot.constants := by
  constructor
  · intro h
    exact (isDefined_buildScorePreview_iff hexp input repo snapshot evidence).mp h.defined
  · intro h
    refine {
      defined := (isDefined_buildScorePreview_iff hexp input repo snapshot evidence).mpr h
      finite := ?_
      gate := ?_
      scenarios_finite := ?_
      scenarios_gate := ?_ }
    · rw [core_buildScorePreview]
      exact finiteCore_computeScoreCore platform input repo evidence h
    · rw [core_buildScorePreview, blockedBy_buildScorePreview]
      exact blocksOnlyAbove platform input repo evidence h
    · intro preview hpreview
      rw [scenarioPreviews_eq] at hpreview
      obtain ⟨entry, -, rfl⟩ := List.mem_map.mp hpreview
      rw [scenario_core]
      exact finiteCore_computeScoreCore platform entry.2.2 repo evidence h
    · intro preview hpreview
      rw [scenarioPreviews_eq] at hpreview
      obtain ⟨entry, -, rfl⟩ := List.mem_map.mp hpreview
      rw [scenario_core, scenario_blockedBy]
      exact blocksOnlyAbove platform entry.2.2 repo evidence h

/-! ## A zero in the table -/

/-- Reads the numbers of a source of constants; nothing else of it is used. -/
def numberReader : UpstreamSources.Platform where
  parseJson := fun _ => none
  readNumber := JsCoercion.stringToNumber
  numberText := fun value => units (JsNumber.decimal value)
  add := add
  localeCompare := fun left right => compare left right
  atob := fun text => .error text
  utf8Decode := id
  digest := fun _ => []

/-- No open pull request and no merged history. -/
def idleInput : ScorePreviewInput :=
  { crowdedInput .none with openPrCount := some (.finite 0) }

theorem defaultConstants_total :
    Total (buildScorePreview zeroPlatform idleInput none (refreshedSnapshot numberReader []) none) :=
  (preview_total_iff zeroPlatform (fun _ => zero_le_one) idleInput none
    (refreshedSnapshot numberReader []) none).mpr
    ⟨by decide +kernel, by decide +kernel, by decide +kernel⟩

def zeroSlotSource : Units := units "OPEN_PR_THRESHOLD_TOKEN_SCORE = 0"

def zeroSlotPreview : Divided ℚ ScorePreviewResult :=
  buildScorePreview zeroPlatform idleInput none (refreshedSnapshot numberReader zeroSlotSource) none

/-- The source sets the slot to zero: the threshold is `NaN`, and the gate blocks a contributor
without any open pull request. -/
theorem zeroSlot_not_total :
    parseKnownConstants numberReader zeroSlotSource =
        [("OPEN_PR_THRESHOLD_TOKEN_SCORE", .finite 0)] ∧
      ¬Total zeroSlotPreview ∧
      zeroSlotPreview.value.core.gates.openPrThreshold = .nan ∧
      zeroSlotPreview.value.core.gates.openPrCount = 0 ∧
      ⟨.openPrThreshold, .blocker⟩ ∈ zeroSlotPreview.value.blockedBy := by
  refine ⟨by decide +kernel, ?_, by decide +kernel, by decide +kernel, by decide +kernel⟩
  intro h
  have hslots := (isDefined_buildScorePreview_iff (fun _ => zero_le_one) idleInput none
    (refreshedSnapshot numberReader zeroSlotSource) none).mp h.defined
  exact hslots.prSlot (by decide +kernel)

end Gittensory.ScoreTotality
