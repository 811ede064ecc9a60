import Gittensory.RecordedDivisions
import Gittensory.UpstreamSources

/-!
The score preview of a planned pull request, and the scenarios it is compared with. Numbers
are exact rationals; those of an input and of a repository are finite. The quotients by a
constant of the scoring model that is read as it stands, and what is built from them, may
be no finite number. Every divisor is recorded.
-/
namespace Gittensory.ScorePreview

open CodeUnits JsValue RecordedDivisions

/-- Operations of the platform. `byZero` is what a quotient by a zero constant gives, which
depends on the sign of the zero. -/
structure Platform where
  exp : ℚ → ℚ
  byZero : ℚ → JsNumber
  toLowerCase : String → String

/-! ## Numbers -/

def add : JsNumber → JsNumber → JsNumber
  | .finite left, .finite right => .finite (left + right)
  | .nan, _ | _, .nan => .nan
  | .infinity, .negInfinity | .negInfinity, .infinity => .nan
  | .infinity, _ | _, .infinity => .infinity
  | .negInfinity, _ | _, .negInfinity => .negInfinity

/-- The product with a finite number. -/
def scale (factor : ℚ) : JsNumber → JsNumber
  | .finite value => .finite (value * factor)
  | .nan => .nan
  | .infinity => if factor = 0 then .nan else if 0 < factor then .infinity else .negInfinity
  | .negInfinity => if factor = 0 then .nan else if 0 < factor then .negInfinity else .infinity

/-- `Math.floor` -/
def mathFloor : JsNumber → JsNumber
  | .finite value => .finite ⌊value⌋
  | other => other

def clampNumber (value low high : JsNumber) : JsNumber :=
  JsNumber.mathMin high (JsNumber.mathMax low value)

def clamp (value low high : ℚ) : ℚ := min high (max low value)

/-- A missing number, or one that is not finite, counts as zero. -/
def nonNegative : Option JsNumber → ℚ
  | some (.finite value) => max 0 value
  | _ => 0

/-- `Math.round(value * 10000) / 10000` of a finite number. -/
def rounded (value : ℚ) : Divided ℚ ℚ := divide (mathRound (value * 10000) : ℚ) 10000

def roundScore : JsNumber → Divided ℚ JsNumber
  | .finite value => .finite <$> rounded value
  | other => ⟨other, [10000]⟩

/-! ## The scoring model -/

abbrev Constants := List (String × JsNumber)

def constant (constants : Constants) (key : String) (fallback : ℚ) : ℚ :=
  match constants.lookup key with
  | some (.finite value) => value
  | _ => fallback

inductive ActiveModel where
  | currentDensity
  | pendingSaturation
  | exponentialSaturation
  | unknown
  deriving DecidableEq

structure ScoringModelSnapshot where
  constants : Constants
  activeModel : ActiveModel

def DEFAULT_SCORING_CONSTANTS : List (String × ℚ) := [
  ("OSS_EMISSION_SHARE", 9 / 10),
  ("ISSUES_TREASURY_EMISSION_SHARE", 1 / 10),
  ("PR_LOOKBACK_DAYS", 30),
  ("MERGED_PR_BASE_SCORE", 25),
  ("MAX_CONTRIBUTION_BONUS", 5),
  ("CONTRIBUTION_SCORE_FOR_FULL_BONUS", 1500),
  ("TEST_FILE_CONTRIBUTION_WEIGHT", 5 / 100),
  ("MIN_VALID_MERGED_PRS", 3),
  ("MIN_CREDIBILITY", 8 / 10),
  ("MIN_VALID_SOLVED_ISSUES", 3),
  ("MIN_ISSUE_CREDIBILITY", 8 / 10),
  ("MIN_TOKEN_SCORE_FOR_VALID_ISSUE", 5),
  ("OPEN_ISSUE_SPAM_BASE_THRESHOLD", 2),
  ("OPEN_ISSUE_SPAM_TOKEN_SCORE_PER_SLOT", 300),
  ("MAX_OPEN_ISSUE_THRESHOLD", 30),
  ("OPEN_PR_COLLATERAL_PERCENT", 2 / 10),
  ("MAX_OPEN_PR_REVIEW_COLLATERAL_MULTIPLIER", 2),
  ("MAX_LINES_SCORED_FOR_NON_CODE_EXT", 300),
  ("DEFAULT_ISSUE_DISCOVERY_SHARE", 5 / 10),
  ("REVIEW_PENALTY_RATE", 15 / 100),
  ("STANDARD_ISSUE_MULTIPLIER", 133 / 100),
  ("MAINTAINER_ISSUE_MULTIPLIER", 166 / 100),
  ("EXCESSIVE_PR_PENALTY_BASE_THRESHOLD", 2),
  ("OPEN_PR_THRESHOLD_TOKEN_SCORE", 300),
  ("MAX_OPEN_PR_THRESHOLD", 30),
  ("SRC_TOK_SATURATION_SCALE", 58),
  ("TIME_DECAY_GRACE_PERIOD_HOURS", 12),
  ("TIME_DECAY_SIGMOID_MIDPOINT", 10),
  ("TIME_DECAY_SIGMOID_STEEPNESS_SCALAR", 4 / 10),
  ("TIME_DECAY_MIN_MULTIPLIER", 5 / 100)]

def SCORING_CONSTANT_NAMES : List String :=
  DEFAULT_SCORING_CONSTANTS.map Prod.fst
    ++ ["MIN_TOKEN_SCORE_FOR_BASE_SCORE", "MAX_CODE_DENSITY_MULTIPLIER"]

/-- `parsePythonNumberConstants(source)`: of the known names only. -/
def parseKnownConstants (reader : UpstreamSources.Platform) (source : Units) : Constants :=
  (UpstreamSources.parsePythonNumberConstants reader source).filter fun entry =>
    entry.1 ∈ SCORING_CONSTANT_NAMES

/-- `Number.isFinite(constants[key])` -/
def hasConstant (constants : Constants) (key : String) : Bool :=
  match constants.lookup key with
  | some (.finite _) => true
  | _ => false

def detectActiveModel (constants : Constants) : ActiveModel :=
  if hasConstant constants "SRC_TOK_SATURATION_SCALE" then .pendingSaturation
  else if hasConstant constants "MAX_CODE_DENSITY_MULTIPLIER"
    ∧ hasConstant constants "MIN_TOKEN_SCORE_FOR_BASE_SCORE" then .currentDensity
  else .unknown

/-- What a refresh keeps of the fetched source of the constants. -/
def refreshedSnapshot (reader : UpstreamSources.Platform) (source : Units) :
    ScoringModelSnapshot :=
  let parsed := parseKnownConstants reader source
  { constants := parsed.foldl (KeyedTable.upsert Prod.fst)
      (DEFAULT_SCORING_CONSTANTS.map fun entry => (entry.1, .finite entry.2))
    activeModel := detectActiveModel parsed }

/-! ## Inputs -/

structure RegistryRepoConfig where
  emissionShare : ℚ
  issueDiscoveryShare : ℚ
  labelMultipliers : List (String × ℚ)
  defaultLabelMultiplier : Option ℚ
  fixedBaseScore : Option ℚ
  timeDecay : Option UpstreamSources.RepoTimeDecayOverrides

structure RepositoryRecord where
  isRegistered : Bool
  registryConfig : Option RegistryRepoConfig

/-- What the evidence says of a contributor, each count as `Number(count ?? 0)`. -/
structure ContributorEvidence where
  mergedPullRequests : JsNumber
  stalePullRequests : ℚ
  unlinkedPullRequests : ℚ

inductive LinkedIssueMode where
  | none
  | standard
  | maintainer
  deriving DecidableEq

inductive LinkedIssueStatus where
  | raw
  | plausibleLink
  | validated
  | invalid
  | unavailable
  deriving DecidableEq

inductive LinkedIssueMultiplierStatus where
  | notRequired
  | issue (status : LinkedIssueStatus)
  deriving DecidableEq

inductive LinkedIssueMultiplierSource where
  | none
  | userSupplied
  | officialMirror
  | githubCache
  | issueQuality
  | missing
  deriving DecidableEq

/-- `projected` is the mark a projected context carries, which no caller can set. -/
structure LinkedIssueMultiplierContext where
  status : Option LinkedIssueStatus
  source : Option LinkedIssueMultiplierSource
  issueNumbers : Option (List ℚ)
  solvedByPullRequests : Option (List ℚ)
  projected : Bool

inductive BranchStatus where
  | eligible
  | ineligible
  | unknown
  deriving DecidableEq

inductive BranchEligibilityStatus where
  | notRequired
  | branch (status : BranchStatus)
  deriving DecidableEq

inductive BranchEvidence where
  | provided
  | missing
  deriving DecidableEq

inductive BranchSource where
  | githubMetadata
  | localMetadata
  | registry
  | userSupplied
  | missing
  deriving DecidableEq

structure BranchEligibilityInput where
  status : BranchStatus
  source : Option BranchSource
  stale : Option Bool

structure ScorePreviewInput where
  labels : Option (List String)
  linkedIssueMode : Option LinkedIssueMode
  linkedIssueContext : Option LinkedIssueMultiplierContext
  sourceTokenScore : Option JsNumber
  totalTokenScore : Option JsNumber
  sourceLines : Option JsNumber
  testTokenScore : Option JsNumber
  nonCodeTokenScore : Option JsNumber
  nonCodeLines : Option JsNumber
  existingContributorTokenScore : Option JsNumber
  openPrCount : Option JsNumber
  openIssueCount : Option JsNumber
  credibility : Option ℚ
  changesRequestedCount : Option JsNumber
  fixedBaseScore : Option ℚ
  metadataOnly : Bool
  pendingMergedPrCount : Option JsNumber
  pendingClosedPrCount : Option JsNumber
  approvedPrCount : Option JsNumber
  observedApprovedPrCount : Option JsNumber
  observedStalePrCount : Option JsNumber
  duplicateRiskCount : Option JsNumber
  expectedOpenPrCountAfterMerge : Option JsNumber
  projectedCredibility : Option ℚ
  pendingScenarioObserved : Bool
  branchEligibility : Option BranchEligibilityInput
  prAgeHours : Option JsNumber
  applyTimeDecay : Bool

/-! ## Branch eligibility and linked issues -/

structure BranchEligibilityResult where
  required : Bool
  status : BranchEligibilityStatus
  evidence : BranchEvidence
  source : BranchSource
  stale : Bool

def normalizeBranchEligibility (input : ScorePreviewInput) : BranchEligibilityResult :=
  if input.linkedIssueMode = some .standard then
    match input.branchEligibility with
    | none => ⟨true, .branch .unknown, .missing, .missing, false⟩
    | some supplied => ⟨true, .branch supplied.status, .provided,
        supplied.source.getD .userSupplied, supplied.stale.getD false⟩
  else
    match input.branchEligibility with
    | none => ⟨false, .notRequired, .missing, .missing, false⟩
    | some supplied => ⟨false, .notRequired, .provided,
        supplied.source.getD .userSupplied, supplied.stale.getD false⟩

def isConfirmedBranchEligible (branch : BranchEligibilityResult) : Bool :=
  !branch.required ||
    (branch.status = .branch .eligible && branch.evidence = .provided && !branch.stale)

/-- `Number.isInteger(value) && value > 0` -/
def positiveInt (value : ℚ) : Option ℕ :=
  if value.den = 1 ∧ 0 < value then some value.num.toNat else none

def uniquePositiveInts (values : List ℚ) : List ℕ :=
  (values.filterMap positiveInt).dedup.insertionSort (· ≤ ·)

structure LinkedIssueMultiplierDecision where
  mode : LinkedIssueMode
  status : LinkedIssueMultiplierStatus
  source : LinkedIssueMultiplierSource
  eligible : Bool
  issueNumbers : List ℕ
  solvedByPullRequests : List ℕ
  baseMultiplier : ℚ
  appliedMultiplier : ℚ

def selectIssueMultiplier (mode : LinkedIssueMode) (constants : Constants) : ℚ :=
  match mode with
  | .maintainer => constant constants "MAINTAINER_ISSUE_MULTIPLIER" (166 / 100)
  | .standard => constant constants "STANDARD_ISSUE_MULTIPLIER" (133 / 100)
  | .none => 1

/-- The status a context asks for, or the one its numbers speak for. -/
def requestedStatus (status : Option LinkedIssueStatus)
    (issueNumbers solvedByPullRequests : List ℕ) : LinkedIssueStatus :=
  status.getD (if solvedByPullRequests ≠ [] then .validated
    else if issueNumbers ≠ [] then .raw else .unavailable)

def decideLinkedIssueMultiplier (mode : LinkedIssueMode)
    (context : Option LinkedIssueMultiplierContext) (constants : Constants)
    (branch : BranchEligibilityResult) : LinkedIssueMultiplierDecision :=
  let baseMultiplier := selectIssueMultiplier mode constants
  let issueNumbers := uniquePositiveInts ((context.bind (·.issueNumbers)).getD [])
  let solvedByPullRequests := uniquePositiveInts ((context.bind (·.solvedByPullRequests)).getD [])
  let source := context.bind (·.source)
  match mode with
  | .none => {
      mode, status := .notRequired, source := .none, eligible := false, issueNumbers
      solvedByPullRequests, baseMultiplier, appliedMultiplier := 1 }
  | .maintainer => {
      mode, status := .notRequired, source := source.getD .none, eligible := true, issueNumbers
      solvedByPullRequests, baseMultiplier, appliedMultiplier := baseMultiplier }
  | .standard =>
      let requested := requestedStatus (context.bind (·.status)) issueNumbers solvedByPullRequests
      let evidence := solvedByPullRequests ≠ [] ∨ context.any (·.projected)
      let status := if requested = .validated ∧ ¬evidence
        then (if issueNumbers ≠ [] then .raw else .unavailable) else requested
      let eligible : Bool :=
        status = .validated ∧ evidence ∧ isConfirmedBranchEligible branch
      { mode, status := .issue status
        source := source.getD (if status = .unavailable then .missing else .userSupplied)
        eligible, issueNumbers, solvedByPullRequests, baseMultiplier
        appliedMultiplier := if eligible then baseMultiplier else 1 }

/-- The input with its issue link taken as solved; the maintainer mode needs none. -/
def withValidatedLinkedIssueScenario (input : ScorePreviewInput) : ScorePreviewInput :=
  if input.linkedIssueMode = some .maintainer then input
  else
    let context := input.linkedIssueContext
    let numbers (field : Option (List ℚ)) : List ℚ :=
      (uniquePositiveInts (field.getD [])).map (Nat.cast : ℕ → ℚ)
    { input with
      linkedIssueMode := some .standard
      linkedIssueContext := some {
        status := some .validated
        source := some ((context.bind (·.source)).getD .userSupplied)
        issueNumbers := some (numbers (context.bind (·.issueNumbers)))
        solvedByPullRequests := some (numbers (context.bind (·.solvedByPullRequests)))
        projected := true } }

/-! ## Time decay -/

def pickOverride (value : Option ℚ) (fallback : ℚ) : ℚ := value.getD fallback

structure TimeDecay where
  gracePeriodHours : ℚ
  sigmoidMidpointDays : ℚ
  sigmoidSteepness : ℚ
  minMultiplier : ℚ

def resolveTimeDecay (constants : Constants)
    (overrides : Option UpstreamSources.RepoTimeDecayOverrides) : TimeDecay where
  gracePeriodHours := pickOverride (overrides.bind (·.gracePeriodHours))
    (constant constants "TIME_DECAY_GRACE_PERIOD_HOURS" 12)
  sigmoidMidpointDays := pickOverride (overrides.bind (·.sigmoidMidpointDays))
    (constant constants "TIME_DECAY_SIGMOID_MIDPOINT" 10)
  sigmoidSteepness := pickOverride (overrides.bind (·.sigmoidSteepness))
    (constant constants "TIME_DECAY_SIGMOID_STEEPNESS_SCALAR" (4 / 10))
  minMultiplier := pickOverride (overrides.bind (·.minMultiplier))
    (constant constants "TIME_DECAY_MIN_MULTIPLIER" (5 / 100))

/-! ## Scores -/

/-- `Math.max(...matched)`, or the fallback, where zero counts as missing. -/
def largestOr (matched : List ℚ) (fallback : ℚ) : ℚ :=
  match matched with
  | first :: rest => rest.foldl max first
  | [] => if fallback = 0 then 1 else fallback

def applyNonCodeLineCap (input : ScorePreviewInput) (constants : Constants) : Divided ℚ ℚ :=
  let score := nonNegative input.nonCodeTokenScore
  let lines := nonNegative input.nonCodeLines
  let maxLines := constant constants "MAX_LINES_SCORED_FOR_NON_CODE_EXT" 300
  if score ≤ 0 ∨ lines ≤ 0 then pure score
  else if lines ≤ maxLines then pure score
  else do
    let ratio ← divide maxLines lines
    return score * ratio

def inferCredibility : Option ContributorEvidence → ℚ
  | none => clamp (75 / 100) (25 / 100) 1
  | some evidence =>
      match evidence.mergedPullRequests with
      | .finite merged => clamp (75 / 100 + merged * (4 / 100)
          - evidence.stalePullRequests * (3 / 100)
          - evidence.unlinkedPullRequests * (2 / 100)) (25 / 100) 1
      | _ => 8 / 10

section Pipeline

variable (platform : Platform)

def selectLabelMultiplier (labels : List String) (multipliers : List (String × ℚ))
    (fallback : ℚ) : ℚ :=
  let normalized := labels.map platform.toLowerCase
  let matched := multipliers.filter fun entry => platform.toLowerCase entry.1 ∈ normalized
  largestOr (matched.map Prod.snd) fallback

/-- The divisor is a constant as the table has it. -/
def quotientByConstant (left divisor : ℚ) : Divided ℚ JsNumber :=
  quotient JsNumber.finite platform.byZero left divisor

def contributionBonusRamp (totalTokenScore : ℚ) (constants : Constants) :
    Divided ℚ JsNumber := do
  let share ← quotientByConstant platform totalTokenScore
    (constant constants "CONTRIBUTION_SCORE_FOR_FULL_BONUS" 1500)
  return scale (constant constants "MAX_CONTRIBUTION_BONUS" 5)
    (clampNumber share (.finite 0) (.finite 1))

def saturationContributionBonus (totalTokenScore : ℚ) (constants : Constants) :
    Divided ℚ JsNumber := contributionBonusRamp platform totalTokenScore constants

def saturationScore (sourceTokenScore totalTokenScore : ℚ) (constants : Constants) :
    Divided ℚ JsNumber := do
  let scale := max (constant constants "SRC_TOK_SATURATION_SCALE" 58) 1
  let ratio ← divide (-sourceTokenScore) scale
  let bonus ← saturationContributionBonus platform totalTokenScore constants
  return add (.finite (constant constants "MERGED_PR_BASE_SCORE" 25 * (1 - platform.exp ratio)))
    bonus

def calculateTimeDecay (prAgeHours : ℚ) (constants : Constants)
    (overrides : Option UpstreamSources.RepoTimeDecayOverrides) : Divided ℚ ℚ :=
  let decay := resolveTimeDecay constants overrides
  if prAgeHours < decay.gracePeriodHours then pure 1
  else do
    let days ← divide prAgeHours 24
    let sigmoid ← divide 1
      (1 + platform.exp (decay.sigmoidSteepness * (days - decay.sigmoidMidpointDays)))
    return max sigmoid decay.minMultiplier

/-! ## The core of a preview -/

/-- What the tokens of a change are worth before any multiplier. -/
structure BaseScores where
  baseTokenGatePassed : Bool
  densityMultiplier : ℚ
  saturationBaseScore : JsNumber
  baseScore : JsNumber
  activeContributionBonus : JsNumber

def baseScores (input : ScorePreviewInput) (config : Option RegistryRepoConfig)
    (snapshot : ScoringModelSnapshot) : Divided ℚ BaseScores := do
  let constants := snapshot.constants
  let sourceTokenScore := nonNegative input.sourceTokenScore
  let testFileWeight := constant constants "TEST_FILE_CONTRIBUTION_WEIGHT" (5 / 100)
  let cappedNonCodeTokenScore ← applyNonCodeLineCap input constants
  let totalTokenScore := nonNegative (some (input.totalTokenScore.getD (.finite
    (sourceTokenScore + testFileWeight * nonNegative input.testTokenScore
      + cappedNonCodeTokenScore))))
  let sourceLines := max 1 (nonNegative (some (input.sourceLines.getD (.finite sourceTokenScore))))
  let fixedBaseScore := input.fixedBaseScore.or (config.bind (·.fixedBaseScore))
  let rawDensity ← divide sourceTokenScore sourceLines
  let densityMultiplier := clamp rawDensity 0
    (constant constants "MAX_CODE_DENSITY_MULTIPLIER" (115 / 100))
  let densityTokenGatePassed : Bool :=
    constant constants "MIN_TOKEN_SCORE_FOR_BASE_SCORE" 5 ≤ sourceTokenScore
  let densityContributionBonus ← contributionBonusRamp platform totalTokenScore constants
  let saturationContributionBonusValue ←
    saturationContributionBonus platform totalTokenScore constants
  let saturationBaseScore ← saturationScore platform sourceTokenScore totalTokenScore constants
  let densityBaseScore := add (.finite (if densityTokenGatePassed
    then constant constants "MERGED_PR_BASE_SCORE" 25 * densityMultiplier else 0))
    densityContributionBonus
  let saturating : Bool := snapshot.activeModel = .pendingSaturation
  return {
    baseTokenGatePassed := if saturating then 0 < sourceTokenScore else densityTokenGatePassed
    densityMultiplier
    saturationBaseScore
    baseScore := match fixedBaseScore with
      | some fixed => .finite fixed
      | none => if saturating then saturationBaseScore else densityBaseScore
    activeContributionBonus :=
      if saturating then saturationContributionBonusValue else densityContributionBonus }

def labelMultiplier (input : ScorePreviewInput) (config : Option RegistryRepoConfig) : ℚ :=
  selectLabelMultiplier platform (input.labels.getD [])
    ((config.map (·.labelMultipliers)).getD []) ((config.bind (·.defaultLabelMultiplier)).getD 1)

def linkedIssueMultiplier (input : ScorePreviewInput) (constants : Constants) :
    LinkedIssueMultiplierDecision :=
  decideLinkedIssueMultiplier (input.linkedIssueMode.getD .none) input.linkedIssueContext
    constants (normalizeBranchEligibility input)

def credibilityObserved (input : ScorePreviewInput) (evidence : Option ContributorEvidence) : ℚ :=
  clamp (input.credibility.getD (inferCredibility evidence)) 0 1

def credibilityFloor (constants : Constants) : ℚ := constant constants "MIN_CREDIBILITY" (8 / 10)

def credibilityMultiplier (observed floor : ℚ) : Divided ℚ ℚ :=
  if floor ≤ observed then pure 1 else divide observed floor

def reviewPenaltyMultiplier (input : ScorePreviewInput) (constants : Constants) : ℚ :=
  clamp (1 - nonNegative input.changesRequestedCount
    * constant constants "REVIEW_PENALTY_RATE" (15 / 100)) 0 1

def reviewCollateralMultiplier (input : ScorePreviewInput) (constants : Constants) : ℚ :=
  min (constant constants "MAX_OPEN_PR_REVIEW_COLLATERAL_MULTIPLIER" 2)
    (1 + nonNegative input.changesRequestedCount
      * constant constants "REVIEW_PENALTY_RATE" (15 / 100))

/-- The slots the merged history earns on top of a base allowance, up to a limit. -/
def openThreshold (limit base perSlot : ℚ) (input : ScorePreviewInput) : Divided ℚ JsNumber := do
  let earned ← quotientByConstant platform (nonNegative input.existingContributorTokenScore) perSlot
  return JsNumber.mathMin (.finite limit) (add (.finite base) (mathFloor earned))

def openPrThreshold (input : ScorePreviewInput) (constants : Constants) : Divided ℚ JsNumber :=
  openThreshold platform (constant constants "MAX_OPEN_PR_THRESHOLD" 30)
    (constant constants "EXCESSIVE_PR_PENALTY_BASE_THRESHOLD" 2)
    (constant constants "OPEN_PR_THRESHOLD_TOKEN_SCORE" 300) input

def openIssueThreshold (input : ScorePreviewInput) (constants : Constants) : Divided ℚ JsNumber :=
  openThreshold platform (constant constants "MAX_OPEN_ISSUE_THRESHOLD" 30)
    (constant constants "OPEN_ISSUE_SPAM_BASE_THRESHOLD" 2)
    (constant constants "OPEN_ISSUE_SPAM_TOKEN_SCORE_PER_SLOT" 300) input

/-- `count <= threshold ? 1 : 0` -/
def openMultiplier (count : ℚ) (threshold : JsNumber) : ℚ :=
  if threshold.ge (.finite count) then 1 else 0

def timeDecayMultiplier (input : ScorePreviewInput) (config : Option RegistryRepoConfig)
    (constants : Constants) : Divided ℚ ℚ :=
  if input.applyTimeDecay then
    calculateTimeDecay platform (nonNegative input.prAgeHours) constants
      (config.bind (·.timeDecay))
  else pure 1

structure LaneMath where
  repoEmissionShare : ℚ
  ossEmissionShare : ℚ
  repoSlice : ℚ
  directPrSlice : ℚ
  issueDiscoverySlice : ℚ
  issueDiscoveryShare : ℚ

structure ScoreEstimate where
  baseScore : JsNumber
  densityMultiplier : ℚ
  contributionBonus : JsNumber
  labelMultiplier : ℚ
  issueMultiplier : ℚ
  credibilityMultiplier : ℚ
  reviewPenaltyMultiplier : ℚ
  openPrMultiplier : ℚ
  openIssueMultiplier : ℚ
  timeDecayMultiplier : ℚ
  estimatedMergedScore : JsNumber
  pendingSaturationScore : JsNumber

structure ScoreGates where
  baseTokenGatePassed : Bool
  openPrThreshold : JsNumber
  openPrCount : ℚ
  collateralFraction : ℚ
  reviewCollateralMultiplier : ℚ
  credibilityFloor : ℚ
  credibilityObserved : ℚ
  openIssueThreshold : JsNumber
  openIssueCount : ℚ

structure ScoreCore where
  laneMath : LaneMath
  scoreEstimate : ScoreEstimate
  gates : ScoreGates
  linkedIssueMultiplier : LinkedIssueMultiplierDecision

def laneMath (config : Option RegistryRepoConfig) (constants : Constants) :
    Divided ℚ LaneMath := do
  let emissionShare := clamp ((config.map (·.emissionShare)).getD 0) 0 1
  let issueDiscoveryShare := clamp ((config.map (·.issueDiscoveryShare)).getD 0) 0 1
  let ossEmissionShare := constant constants "OSS_EMISSION_SHARE" (9 / 10)
  let repoSlice := emissionShare * ossEmissionShare
  let repoSliceRounded ← rounded repoSlice
  let directPrSlice ← rounded (repoSlice * (1 - issueDiscoveryShare))
  let issueDiscoverySlice ← rounded (repoSlice * issueDiscoveryShare)
  return {
    repoEmissionShare := emissionShare, ossEmissionShare, repoSlice := repoSliceRounded
    directPrSlice, issueDiscoverySlice, issueDiscoveryShare }

def computeScoreCore (input : ScorePreviewInput) (repo : Option RepositoryRecord)
    (snapshot : ScoringModelSnapshot) (evidence : Option ContributorEvidence) :
    Divided ℚ ScoreCore := do
  let constants := snapshot.constants
  let config := repo.bind (·.registryConfig)
  let base ← baseScores platform input config snapshot
  let label := labelMultiplier platform input config
  let linkedIssue := linkedIssueMultiplier input constants
  let observed := credibilityObserved input evidence
  let floor := credibilityFloor constants
  let credibility ← credibilityMultiplier observed floor
  let reviewPenalty := reviewPenaltyMultiplier input constants
  let reviewCollateral := reviewCollateralMultiplier input constants
  let openPrCount := nonNegative input.openPrCount
  let prThreshold ← openPrThreshold platform input constants
  let openPr := openMultiplier openPrCount prThreshold
  let openIssueCount := nonNegative input.openIssueCount
  let issueThreshold ← openIssueThreshold platform input constants
  let openIssue := openMultiplier openIssueCount issueThreshold
  let timeDecay ← timeDecayMultiplier platform input config constants
  let estimatedMergedScore ← roundScore (scale (label * linkedIssue.appliedMultiplier * credibility
    * reviewPenalty * openPr * openIssue * timeDecay) base.baseScore)
  let pendingSaturationScore ← roundScore base.saturationBaseScore
  let lanes ← laneMath config constants
  let estimate : ScoreEstimate := {
    baseScore := ← roundScore base.baseScore
    densityMultiplier := ← rounded base.densityMultiplier
    contributionBonus := ← roundScore base.activeContributionBonus
    labelMultiplier := label
    issueMultiplier := linkedIssue.appliedMultiplier
    credibilityMultiplier := ← rounded credibility
    reviewPenaltyMultiplier := ← rounded reviewPenalty
    openPrMultiplier := openPr
    openIssueMultiplier := openIssue
    timeDecayMultiplier := ← rounded timeDecay
    estimatedMergedScore
    pendingSaturationScore }
  let gates : ScoreGates := {
    baseTokenGatePassed := base.baseTokenGatePassed
    openPrThreshold := prThreshold
    openPrCount
    reviewCollateralMultiplier := ← rounded reviewCollateral
    collateralFraction := ←
      rounded (constant constants "OPEN_PR_COLLATERAL_PERCENT" (2 / 10) * reviewCollateral)
    credibilityFloor := floor
    credibilityObserved := observed
    openIssueThreshold := issueThreshold
    openIssueCount }
  return { laneMath := lanes, scoreEstimate := estimate, gates, linkedIssueMultiplier := linkedIssue }

/-! ## Scenarios -/

inductive GateCode where
  | repoNotRegistered
  | inactiveAllocation
  | baseTokenGate
  | openPrThreshold
  | openIssueThreshold
  | credibilityFloor
  | reviewPenalty
  | metadataOnly
  | linkedIssueInvalid
  | linkedIssueUnvalidated
  | branchIneligible
  | branchEligibilityMissing
  | duplicateRisk
  | staleWork
  deriving DecidableEq

inductive GateSeverity where
  | blocker
  | reducer
  | context
  deriving DecidableEq

structure ScoreGateBlocker where
  code : GateCode
  severity : GateSeverity
  deriving DecidableEq

/-- One entry of the list when its condition holds. -/
def blockedIf (condition : Bool) (code : GateCode) (severity : GateSeverity) :
    List ScoreGateBlocker := if condition then [⟨code, severity⟩] else []

def isUnvalidated : LinkedIssueMultiplierStatus → Bool
  | .issue .raw | .issue .plausibleLink | .issue .unavailable => true
  | _ => false

def blockedByFor (input : ScorePreviewInput) (repo : Option RepositoryRecord)
    (core : ScoreCore) : List ScoreGateBlocker :=
  let branch := normalizeBranchEligibility input
  let issue := core.linkedIssueMultiplier
  blockedIf (!repo.any (·.isRegistered)) .repoNotRegistered .blocker
    ++ blockedIf (core.laneMath.repoEmissionShare ≤ 0) .inactiveAllocation .blocker
    ++ blockedIf input.metadataOnly .metadataOnly .context
    ++ blockedIf (branch.required && branch.status = .branch .ineligible)
      .branchIneligible .reducer
    ++ blockedIf (branch.required && branch.status = .branch .unknown)
      .branchEligibilityMissing .context
    ++ blockedIf (!core.gates.baseTokenGatePassed) .baseTokenGate .blocker
    ++ blockedIf (core.scoreEstimate.openPrMultiplier = 0) .openPrThreshold .blocker
    ++ blockedIf (core.scoreEstimate.openIssueMultiplier = 0) .openIssueThreshold .blocker
    ++ blockedIf (core.gates.credibilityObserved < core.gates.credibilityFloor)
      .credibilityFloor .reducer
    ++ blockedIf (core.scoreEstimate.reviewPenaltyMultiplier < 1) .reviewPenalty .reducer
    ++ blockedIf (issue.mode = .standard && issue.status = .issue .invalid)
      .linkedIssueInvalid .reducer
    ++ blockedIf (issue.mode = .standard && isUnvalidated issue.status)
      .linkedIssueUnvalidated .context
    ++ blockedIf (0 < nonNegative input.observedStalePrCount) .staleWork .reducer
    ++ blockedIf (0 < nonNegative input.duplicateRiskCount) .duplicateRisk .reducer

inductive ScenarioName where
  | current
  | cleanGates
  | afterPendingMerges
  | afterApprovedPrsMerge
  | afterStalePrsClose
  | linkedIssueFixed
  | bestReasonableCase
  deriving DecidableEq

inductive ScenarioSource where
  | currentData
  | userSupplied
  | githubObserved
  | gittensoryProjection
  deriving DecidableEq

structure ScoreScenarioPreview where
  name : ScenarioName
  source : ScenarioSource
  core : ScoreCore
  effectiveEstimatedScore : JsNumber
  underlyingPotentialScore : JsNumber
  blockedBy : List ScoreGateBlocker

def scenario (name : ScenarioName) (source : ScenarioSource) (input : ScorePreviewInput)
    (core : ScoreCore) (repo : Option RepositoryRecord) : ScoreScenarioPreview where
  name := name
  source := source
  core := core
  effectiveEstimatedScore := core.scoreEstimate.estimatedMergedScore
  underlyingPotentialScore := core.scoreEstimate.pendingSaturationScore
  blockedBy := blockedByFor input repo core

/-- The open count and the credibility a scenario assumes. -/
def withGates (input : ScorePreviewInput) (openPrCount : JsNumber) (credibility : ℚ) :
    ScorePreviewInput :=
  { input with openPrCount := some openPrCount, credibility := some credibility }

section Projections

variable (input : ScorePreviewInput) (gates : ScoreGates)

def userPendingCount : ℚ :=
  max (nonNegative input.pendingMergedPrCount) (nonNegative input.approvedPrCount)
    + nonNegative input.pendingClosedPrCount

/-- The open count the caller expects, or what is left of the current one. -/
def expectedOr (settled : ℚ) : ℚ :=
  match input.expectedOpenPrCountAfterMerge with
  | some expected => nonNegative (some expected)
  | none => max 0 (gates.openPrCount - settled)

def projectedCredibility : ℚ :=
  match input.projectedCredibility with
  | some projected => clamp projected 0 1
  | none =>
      if 0 < userPendingCount input then max gates.credibilityObserved gates.credibilityFloor
      else gates.credibilityObserved

def observedApprovalCredibility : ℚ :=
  if 0 < nonNegative input.observedApprovedPrCount
  then max gates.credibilityObserved gates.credibilityFloor
  else gates.credibilityObserved

def cleanGatesInput : ScorePreviewInput :=
  withGates input (JsNumber.mathMin (.finite gates.openPrCount) gates.openPrThreshold)
    (max gates.credibilityObserved gates.credibilityFloor)

def afterPendingInput : ScorePreviewInput :=
  withGates input (.finite (expectedOr input gates (userPendingCount input)))
    (projectedCredibility input gates)

def afterApprovedInput : ScorePreviewInput :=
  withGates input
    (.finite (max 0 (gates.openPrCount - nonNegative input.observedApprovedPrCount)))
    (observedApprovalCredibility input gates)

def afterStaleInput : ScorePreviewInput :=
  withGates input (.finite (max 0 (gates.openPrCount - nonNegative input.observedStalePrCount)))
    gates.credibilityObserved

def combinedPendingCount : ℚ :=
  userPendingCount input + nonNegative input.observedApprovedPrCount
    + nonNegative input.observedStalePrCount

def bestReasonableInput : ScorePreviewInput :=
  { withGates (withValidatedLinkedIssueScenario input)
      (JsNumber.mathMin (.finite (expectedOr input gates (combinedPendingCount input)))
        gates.openPrThreshold)
      (max (max (projectedCredibility input gates) (observedApprovalCredibility input gates))
        gates.credibilityFloor) with
    openIssueCount :=
      some (JsNumber.mathMin (.finite gates.openIssueCount) gates.openIssueThreshold) }

def pendingSource : ScenarioSource :=
  if input.pendingScenarioObserved then .githubObserved
  else if 0 < userPendingCount input ∨ input.expectedOpenPrCountAfterMerge.isSome
    ∨ input.projectedCredibility.isSome then .userSupplied
  else .gittensoryProjection

end Projections

/-- The scenarios with the inputs they are computed from, after the current one. -/
def scenarioInputs (input : ScorePreviewInput) (gates : ScoreGates) :
    List (ScenarioName × ScenarioSource × ScorePreviewInput) := [
  (.cleanGates, .gittensoryProjection, cleanGatesInput input gates),
  (.afterPendingMerges, pendingSource input, afterPendingInput input gates),
  (.afterApprovedPrsMerge, .githubObserved, afterApprovedInput input gates),
  (.afterStalePrsClose, .githubObserved, afterStaleInput input gates),
  (.linkedIssueFixed, .gittensoryProjection, withValidatedLinkedIssueScenario input),
  (.bestReasonableCase, .gittensoryProjection, bestReasonableInput input gates)]

def buildScenarioPreviews (input : ScorePreviewInput) (repo : Option RepositoryRecord)
    (snapshot : ScoringModelSnapshot) (evidence : Option ContributorEvidence)
    (current : ScoreCore) : Divided ℚ (List ScoreScenarioPreview) := do
  let projected ← (scenarioInputs input current.gates).mapM fun entry => do
    let core ← computeScoreCore platform entry.2.2 repo snapshot evidence
    return scenario entry.1 entry.2.1 entry.2.2 core repo
  return scenario .current .currentData input current repo :: projected

structure ScorePreviewResult where
  core : ScoreCore
  branchEligibility : BranchEligibilityResult
  effectiveEstimatedScore : JsNumber
  underlyingPotentialScore : JsNumber
  blockedBy : List ScoreGateBlocker
  scenarioPreviews : List ScoreScenarioPreview

def buildScorePreview (input : ScorePreviewInput) (repo : Option RepositoryRecord)
    (snapshot : ScoringModelSnapshot) (evidence : Option ContributorEvidence) :
    Divided ℚ ScorePreviewResult := do
  let current ← computeScoreCore platform input repo snapshot evidence
  let scenarioPreviews ← buildScenarioPreviews platform input repo snapshot evidence current
  return {
    core := current
    branchEligibility := normalizeBranchEligibility input
    effectiveEstimatedScore := current.scoreEstimate.estimatedMergedScore
    underlyingPotentialScore := current.scoreEstimate.pendingSaturationScore
    blockedBy := blockedByFor input repo current
    scenarioPreviews }

end Pipeline

end Gittensory.ScorePreview
