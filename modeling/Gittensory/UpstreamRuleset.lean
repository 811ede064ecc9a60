import Gittensory.UpstreamFetch

/-!
The ruleset snapshot a refresh builds from the six source snapshots. Of its payload the
registry, the scoring model, the two linkage rules and the language weights are what drift
is about; their canonical text, with the members of every object in one order, is hashed.
-/
namespace Gittensory.UpstreamRuleset

open CodeUnits JsValue JsonRecord JsonText StoredJson UpstreamSources UpstreamFetch

/-- The models `detectActiveModel` tells apart. -/
inductive ActiveModel where
  | currentDensityModel
  | pendingSaturationModel
  | unknown
  deriving DecidableEq

def ActiveModel.name : ActiveModel → String
  | .currentDensityModel => "current_density_model"
  | .pendingSaturationModel => "pending_saturation_model"
  | .unknown => "unknown"

structure RulesetRegistryRepo where
  repo : Units
  emissionShare : ℚ
  issueDiscoveryShare : ℚ
  maintainerCut : ℚ
  labelMultipliers : List (String × ℚ)
  trustedLabelPipeline : Option Bool
  defaultLabelMultiplier : Option ℚ
  fixedBaseScore : Option ℚ
  eligibilityMode : Option Units
  timeDecay : Option RepoTimeDecayOverrides

structure RegistryPayload where
  repoCount : ℚ
  totalEmissionShare : ℚ
  repositories : List RulesetRegistryRepo

structure SemanticFlags where
  usesDensityModel : Bool
  usesSaturationModel : Bool
  usesExponentialSaturation : Bool

structure ScoringPayload where
  activeModel : ActiveModel
  constants : List (String × ℚ)
  semanticFlags : SemanticFlags

structure LanguageWeights where
  count : ℕ
  contentHash : Option (Option Units)
  weights : Record

structure RulesetPayload where
  registry : RegistryPayload
  scoring : ScoringPayload
  branchEligibilityRequired : Bool
  solvedByPrRequired : Bool
  languageWeights : LanguageWeights

/-! ## Reading the parsed records -/

def numberPayload (value : Option JsonValue) : Option ℚ := finiteNumber value

def stringPayload (value : Option JsonValue) : Option Units := stringOf value

def booleanPayload (value : Option JsonValue) : Option Bool := booleanOf value

def recordPayload (value : Option JsonValue) : Record := fieldsOf value

def arrayItems : Option JsonValue → List JsonValue
  | some (.array items) => items
  | _ => []

/-- The entries of an object whose values are finite numbers. -/
def numericRecord (value : Option JsonValue) : List (String × ℚ) :=
  (fieldsOf value).filterMap fun field =>
    (finiteNumber (some field.2)).map fun number => (field.1, number)

def detectActiveModel (constants : List (String × ℚ)) : ActiveModel :=
  if (constants.lookup "SRC_TOK_SATURATION_SCALE").isSome then .pendingSaturationModel
  else if (constants.lookup "MAX_CODE_DENSITY_MULTIPLIER").isSome &&
      (constants.lookup "MIN_TOKEN_SCORE_FOR_BASE_SCORE").isSome then .currentDensityModel
  else .unknown

def compactTimeDecayPayload (value : Option JsonValue) : Option RepoTimeDecayOverrides :=
  let timeDecay := fieldsOf value
  let compacted : RepoTimeDecayOverrides := {
    gracePeriodHours := numberPayload (timeDecay.lookup "gracePeriodHours")
    sigmoidMidpointDays := numberPayload (timeDecay.lookup "sigmoidMidpointDays")
    sigmoidSteepness := numberPayload (timeDecay.lookup "sigmoidSteepness")
    minMultiplier := numberPayload (timeDecay.lookup "minMultiplier") }
  (some compacted).filter RepoTimeDecayOverrides.isUsable

/-- One entry of the stored repositories; an entry without a name is dropped. -/
def normalizeRulesetRegistryRepo (entry : JsonValue) : Option RulesetRegistryRepo :=
  let repo := fieldsOf (some entry)
  (stringPayload (repo.lookup "repo")).map fun name => {
    repo := name
    emissionShare := (numberPayload (repo.lookup "emissionShare")).getD 0
    issueDiscoveryShare := (numberPayload (repo.lookup "issueDiscoveryShare")).getD 0
    maintainerCut := (numberPayload (repo.lookup "maintainerCut")).getD 0
    labelMultipliers := numericRecord (repo.lookup "labelMultipliers")
    trustedLabelPipeline := booleanPayload (repo.lookup "trustedLabelPipeline")
    defaultLabelMultiplier := numberPayload (repo.lookup "defaultLabelMultiplier")
    fixedBaseScore := numberPayload (repo.lookup "fixedBaseScore")
    eligibilityMode := stringPayload (repo.lookup "eligibilityMode")
    timeDecay := compactTimeDecayPayload (repo.lookup "timeDecay") }

def normalizeRulesetRegistryRepos (value : List JsonValue) : List RulesetRegistryRepo :=
  value.filterMap normalizeRulesetRegistryRepo

def registryPayload (value : Option JsonValue) : RegistryPayload :=
  let payload := fieldsOf value
  { repoCount := (numberPayload (payload.lookup "repoCount")).getD 0
    totalEmissionShare := (numberPayload (payload.lookup "totalEmissionShare")).getD 0
    repositories := normalizeRulesetRegistryRepos (arrayItems (payload.lookup "repositories")) }

/-! ## Reading a record that was stored -/

theorem numericRecord_map_stored (value : Option JsonValue) :
    numericRecord (value.map stored) = numericRecord value := by
  unfold numericRecord
  rw [fieldsOf_map_stored, storedFields_eq, List.filterMap_map]
  apply List.filterMap_congr
  intro field _
  exact congrArg (Option.map fun number => (field.1, number))
    (finiteNumber_map_stored (some field.2))

theorem arrayItems_map_stored (value : Option JsonValue) :
    arrayItems (value.map stored) = (arrayItems value).map stored := by
  rcases value with _ | _ | _ | number | _ | items | _
  case some.number => cases number <;> rfl
  case some.array => exact storedItems_eq items
  all_goals rfl

theorem compactTimeDecayPayload_map_stored (value : Option JsonValue) :
    compactTimeDecayPayload (value.map stored) = compactTimeDecayPayload value := by
  simp only [compactTimeDecayPayload, numberPayload, lookup_fieldsOf_map_stored,
    finiteNumber_map_stored]

theorem normalizeRulesetRegistryRepo_stored (entry : JsonValue) :
    normalizeRulesetRegistryRepo (stored entry) = normalizeRulesetRegistryRepo entry := by
  have hlookup : ∀ key, (fieldsOf (some (stored entry))).lookup key =
      ((fieldsOf (some entry)).lookup key).map stored := lookup_fieldsOf_map_stored (some entry)
  simp only [normalizeRulesetRegistryRepo, numberPayload, stringPayload, booleanPayload, hlookup,
    finiteNumber_map_stored, stringOf_map_stored, booleanOf_map_stored, numericRecord_map_stored,
    compactTimeDecayPayload_map_stored]

theorem registryPayload_map_stored (value : Option JsonValue) :
    registryPayload (value.map stored) = registryPayload value := by
  have hrepos : ∀ items : List JsonValue, normalizeRulesetRegistryRepos (items.map stored) =
      normalizeRulesetRegistryRepos items := by
    intro items
    unfold normalizeRulesetRegistryRepos
    rw [List.filterMap_map]
    exact List.filterMap_congr fun entry _ => normalizeRulesetRegistryRepo_stored entry
  simp only [registryPayload, numberPayload, lookup_fieldsOf_map_stored, finiteNumber_map_stored,
    arrayItems_map_stored, hrepos]

theorem length_recordPayload_map_stored (value : Option JsonValue) :
    (recordPayload (value.map stored)).length = (recordPayload value).length := by
  unfold recordPayload
  rw [fieldsOf_map_stored, storedFields_eq, List.length_map]

/-! ## The payload -/

/-- The payload from the parsed record of each source and the hash of the language weights. -/
def rulesetPayloadOf (parsed : SourceKey → Record) (contentHash : Option (Option Units)) :
    RulesetPayload :=
  let constants := numericRecord ((parsed .constants).lookup "constants")
  let programmingLanguages := recordPayload ((parsed .programmingLanguages).lookup "weights")
  let mirrorScoring := parsed .mirrorScoring
  let saturationScale := (constants.lookup "SRC_TOK_SATURATION_SCALE").isSome
  { registry := registryPayload ((parsed .registry).lookup "registry")
    scoring := {
      activeModel := detectActiveModel constants
      constants := constants
      semanticFlags := {
        usesDensityModel := isTruthy (mirrorScoring.lookup "usesDensityModel")
        usesSaturationModel := isTruthy (mirrorScoring.lookup "usesSaturationModel") ||
          saturationScale
        usesExponentialSaturation :=
          isTruthy (mirrorScoring.lookup "usesExponentialSaturation") || saturationScale } }
    branchEligibilityRequired :=
      isTruthy ((parsed .issueDiscoveryScan).lookup "branchEligibilityRequired")
    solvedByPrRequired := isTruthy (mirrorScoring.lookup "solvedByPrRequired") ||
      isTruthy ((parsed .mirrorModels).lookup "solvedByPrRequired")
    languageWeights := {
      count := programmingLanguages.length
      contentHash := contentHash
      weights := programmingLanguages } }

def numbersJson (numbers : List (String × ℚ)) : JsonValue :=
  .object (numbers.map fun entry => (entry.1, .number (.finite entry.2)))

def registryRepoJson (repo : RulesetRegistryRepo) : JsonValue := .object [
  ("repo", .string repo.repo),
  ("emissionShare", .number (.finite repo.emissionShare)),
  ("issueDiscoveryShare", .number (.finite repo.issueDiscoveryShare)),
  ("maintainerCut", .number (.finite repo.maintainerCut)),
  ("labelMultipliers", numbersJson repo.labelMultipliers),
  ("trustedLabelPipeline", nullableBool repo.trustedLabelPipeline),
  ("defaultLabelMultiplier", nullableNumber repo.defaultLabelMultiplier),
  ("fixedBaseScore", nullableNumber repo.fixedBaseScore),
  ("eligibilityMode", nullableString repo.eligibilityMode),
  ("timeDecay", compactTimeDecay repo.timeDecay)]

def semanticPayload (payload : RulesetPayload) : JsonValue := .object [
  ("registry", .object [
    ("repoCount", .number (.finite payload.registry.repoCount)),
    ("totalEmissionShare", .number (.finite payload.registry.totalEmissionShare)),
    ("repositories", .array (payload.registry.repositories.map registryRepoJson))]),
  ("scoring", .object [
    ("activeModel", .string (units payload.scoring.activeModel.name)),
    ("constants", numbersJson payload.scoring.constants),
    ("semanticFlags", .object [
      ("usesDensityModel", .bool payload.scoring.semanticFlags.usesDensityModel),
      ("usesSaturationModel", .bool payload.scoring.semanticFlags.usesSaturationModel),
      ("usesExponentialSaturation",
        .bool payload.scoring.semanticFlags.usesExponentialSaturation)])]),
  ("issueDiscovery", .object [
    ("branchEligibilityRequired", .bool payload.branchEligibilityRequired)]),
  ("mirrorLinkage", .object [("solvedByPrRequired", .bool payload.solvedByPrRequired)]),
  ("languageWeights", .object [
    ("count", .number (.finite payload.languageWeights.count)),
    ("contentHash", nullableString payload.languageWeights.contentHash.join)])]

/-! ## The canonical text -/

section Building

variable (platform : Platform)

def comma : ℕ := 44

def colon : ℕ := 58

mutual

def stableStringify : JsonValue → Units
  | .null => units "null"
  | .bool value => units (if value then "true" else "false")
  | .number (.finite value) => platform.numberText value
  | .number _ => units "null"
  | .string text => jsonQuoted text
  | .array items => units "[" ++ [comma].intercalate (stringifyItems items) ++ units "]"
  | .object fields =>
      units "\x7b" ++ [comma].intercalate (((stringifyFields fields).insertionSort fun left right =>
        platform.localeCompare (units left.1) (units right.1) ≠ .gt).map fun field =>
          jsonQuoted (units field.1) ++ colon :: field.2) ++ units "\x7d"

def stringifyItems : List JsonValue → List Units
  | [] => []
  | item :: rest => stableStringify item :: stringifyItems rest

/-- Every member's key with the text of its value. -/
def stringifyFields : List (String × JsonValue) → List (String × Units)
  | [] => []
  | (key, value) :: rest => (key, stableStringify value) :: stringifyFields rest

end

structure UpstreamRulesetSnapshotRecord where
  commitSha : Option Units
  activeModel : ActiveModel
  registryRepoCount : ℚ
  totalEmissionShare : ℚ
  semanticHash : Units
  payload : RulesetPayload
  warnings : List Units

/-- `byKey.get(source)`: of two snapshots of one source the later one counts. -/
def sourceOf (sources : List UpstreamSourceSnapshotRecord) (source : SourceKey) :
    Option UpstreamSourceSnapshotRecord :=
  sources.reverse.find? fun snapshot => snapshot.sourceKey = source

/-- The parsed record of a source; a missing one has no members. -/
def parsedOf (snapshot : Option UpstreamSourceSnapshotRecord) : Record :=
  (snapshot.map fun snapshot => snapshot.parsed).getD []

def hashOf (snapshot : Option UpstreamSourceSnapshotRecord) : Option (Option Units) :=
  snapshot.bind fun snapshot => snapshot.contentSha256

def semanticHashOf (payload : RulesetPayload) : Units :=
  sha256Hex platform (stableStringify platform (semanticPayload payload))

def buildUpstreamRulesetSnapshot (sources : List UpstreamSourceSnapshotRecord) :
    UpstreamRulesetSnapshotRecord :=
  let payload := rulesetPayloadOf (fun source => parsedOf (sourceOf sources source))
    (hashOf (sourceOf sources .programmingLanguages))
  { commitSha := sources.findSome? fun snapshot => snapshot.commitSha
    activeModel := payload.scoring.activeModel
    registryRepoCount := payload.registry.repoCount
    totalEmissionShare := payload.registry.totalEmissionShare
    semanticHash := semanticHashOf platform payload
    payload := payload
    warnings := sources.flatMap fun snapshot => snapshot.warnings.map fun warning =>
      units snapshot.sourceKey.name ++ colon :: space :: warning }

end Building

end Gittensory.UpstreamRuleset
