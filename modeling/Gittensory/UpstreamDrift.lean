import Gittensory.UpstreamRuleset
import Mathlib.Data.List.Lex

/-!
The drift report between two rulesets, and the whole refresh: the sources are fetched, the
ruleset is built from them and stored, and it is compared with the one stored before it. A
report is made when the two semantic hashes differ; what it says is found by comparing the
payloads part by part.
-/
namespace Gittensory.UpstreamDrift

open CodeUnits JsValue JsonRecord JsonText StoredJson UpstreamSources UpstreamFetch UpstreamRuleset

inductive UpstreamDriftSeverity where
  | low
  | medium
  | high
  | blocking
  deriving DecidableEq

def severityRank : UpstreamDriftSeverity → ℕ
  | .low => 1
  | .medium => 2
  | .high => 3
  | .blocking => 4

def maxSeverity (left right : UpstreamDriftSeverity) : UpstreamDriftSeverity :=
  if severityRank left < severityRank right then right else left

inductive UpstreamDriftArea where
  | registry
  | scoringModel
  | issueDiscovery
  | mirrorLinkage
  | languageWeights
  | source
  deriving DecidableEq

def UpstreamDriftArea.name : UpstreamDriftArea → String
  | .registry => "registry"
  | .scoringModel => "scoring_model"
  | .issueDiscovery => "issue_discovery"
  | .mirrorLinkage => "mirror_linkage"
  | .languageWeights => "language_weights"
  | .source => "source"

inductive RegistryHyperparameterDriftField where
  | repo
  | emissionShare
  | issueDiscoveryShare
  | maintainerCut
  | fixedBaseScore
  | eligibilityMode
  | trustedLabelPipeline
  | defaultLabelMultiplier
  | labelMultipliers
  | timeDecay
  deriving DecidableEq

namespace RegistryHyperparameterDriftField

def name : RegistryHyperparameterDriftField → String
  | .repo => "repo"
  | .emissionShare => "emissionShare"
  | .issueDiscoveryShare => "issueDiscoveryShare"
  | .maintainerCut => "maintainerCut"
  | .fixedBaseScore => "fixedBaseScore"
  | .eligibilityMode => "eligibilityMode"
  | .trustedLabelPipeline => "trustedLabelPipeline"
  | .defaultLabelMultiplier => "defaultLabelMultiplier"
  | .labelMultipliers => "labelMultipliers"
  | .timeDecay => "timeDecay"

end RegistryHyperparameterDriftField

def REGISTRY_DRIFT_COMPARABLE_FIELDS : List RegistryHyperparameterDriftField :=
  [.emissionShare, .issueDiscoveryShare, .maintainerCut, .fixedBaseScore, .eligibilityMode,
    .trustedLabelPipeline, .defaultLabelMultiplier, .labelMultipliers, .timeDecay]

def REGISTRY_DRIFT_FIELD_ORDER : List RegistryHyperparameterDriftField :=
  .repo :: REGISTRY_DRIFT_COMPARABLE_FIELDS

inductive RegistryDriftSurface where
  | allocation
  | laneFit
  | scoreabilityAssumptions
  | maintainerEconomics
  | issueDiscoveryBehavior
  | labelPolicy
  deriving DecidableEq

/-- `REGISTRY_DRIFT_FIELD_METADATA` -/
def fieldMetadata : RegistryHyperparameterDriftField →
    UpstreamDriftSeverity × List RegistryDriftSurface
  | .repo => (.high, [.allocation, .laneFit])
  | .emissionShare => (.high, [.allocation, .laneFit])
  | .issueDiscoveryShare => (.high, [.issueDiscoveryBehavior, .laneFit])
  | .maintainerCut => (.high, [.maintainerEconomics])
  | .fixedBaseScore => (.high, [.scoreabilityAssumptions])
  | .eligibilityMode => (.high, [.laneFit, .scoreabilityAssumptions])
  | .trustedLabelPipeline => (.medium, [.labelPolicy, .scoreabilityAssumptions])
  | .defaultLabelMultiplier => (.medium, [.labelPolicy, .scoreabilityAssumptions])
  | .labelMultipliers => (.medium, [.labelPolicy, .scoreabilityAssumptions])
  | .timeDecay => (.high, [.scoreabilityAssumptions])

structure RegistryHyperparameterDriftEvent where
  repoFullName : Units
  field : RegistryHyperparameterDriftField
  previous : JsonValue
  current : JsonValue
  severity : UpstreamDriftSeverity
  affectedSurfaces : List RegistryDriftSurface
  summary : Units

def registryHyperparameterDriftEvent (repoFullName : Units)
    (field : RegistryHyperparameterDriftField) (previous current : JsonValue) (summary : Units) :
    RegistryHyperparameterDriftEvent where
  repoFullName := repoFullName
  field := field
  previous := previous
  current := current
  severity := (fieldMetadata field).1
  affectedSurfaces := (fieldMetadata field).2
  summary := summary

def registryHyperparameterValue (repo : RulesetRegistryRepo) :
    RegistryHyperparameterDriftField → JsonValue
  | .repo => .string repo.repo
  | .emissionShare => .number (.finite repo.emissionShare)
  | .issueDiscoveryShare => .number (.finite repo.issueDiscoveryShare)
  | .maintainerCut => .number (.finite repo.maintainerCut)
  | .labelMultipliers => numbersJson repo.labelMultipliers
  | .trustedLabelPipeline => nullableBool repo.trustedLabelPipeline
  | .defaultLabelMultiplier => nullableNumber repo.defaultLabelMultiplier
  | .fixedBaseScore => nullableNumber repo.fixedBaseScore
  | .eligibilityMode => nullableString repo.eligibilityMode
  | .timeDecay => compactTimeDecay repo.timeDecay

structure RegistryHyperparameterDriftPayload where
  totalEvents : ℕ
  omittedEvents : ℕ
  highImpactCount : ℕ
  affectedRepoCount : ℕ
  affectedFields : List RegistryHyperparameterDriftField
  affectedSurfaces : List RegistryDriftSurface
  events : List RegistryHyperparameterDriftEvent
  affectedRepos : List Units

structure UpstreamDriftReportRecord where
  fingerprint : Units
  severity : UpstreamDriftSeverity
  summary : Units
  affectedAreas : List UpstreamDriftArea
  changes : List Units
  repoChanges : List Units
  registryHyperparameterDrift : RegistryHyperparameterDriftPayload

/-- `[...new Set(values)]` -/
def uniqueValues {α : Type} [DecidableEq α] (values : List α) : List α :=
  values.foldl (fun seen value => if value ∈ seen then seen else seen ++ [value]) []

def uniqueSorted {α : Type} [DecidableEq α] (values order : List α) : List α :=
  (uniqueValues values).insertionSort fun left right => order.idxOf left ≤ order.idxOf right

def SURFACE_ORDER : List RegistryDriftSurface :=
  [.allocation, .laneFit, .scoreabilityAssumptions, .maintainerEconomics, .issueDiscoveryBehavior,
    .labelPolicy]

/-- The texts with a separator between them: `values.join(separator)`. -/
def joined (separator : String) (values : List Units) : Units :=
  (units separator).intercalate values

section Reporting

variable (platform : Platform)

def formatRegistryHyperparameterValue : JsonValue → Units
  | .null => units "unset"
  | .array _ | .object _ => units "changed"
  | .bool value => units (if value then "true" else "false")
  | .number (.finite value) => platform.numberText value
  | .number value => units value.toText
  | .string text => text

def registryHyperparameterChangeSummary (field : RegistryHyperparameterDriftField)
    (previous current : JsonValue) : Units :=
  if field = .labelMultipliers then units "labelMultipliers changed"
  else if field = .timeDecay then units "timeDecay changed"
  else units field.name ++ space :: (formatRegistryHyperparameterValue platform previous ++
    units " -> " ++ formatRegistryHyperparameterValue platform current)

def changedRegistryRepoEvents (previous current : RulesetRegistryRepo) :
    List RegistryHyperparameterDriftEvent :=
  REGISTRY_DRIFT_COMPARABLE_FIELDS.filterMap fun field =>
    let oldValue := registryHyperparameterValue previous field
    let newValue := registryHyperparameterValue current field
    if stableStringify platform oldValue = stableStringify platform newValue then none
    else some (registryHyperparameterDriftEvent current.repo field oldValue newValue
      (registryHyperparameterChangeSummary platform field oldValue newValue))

/-- A `Map` of the repositories by name: of two with one name the later one is kept. -/
def repoNamed (repos : List RulesetRegistryRepo) (name : Units) : Option RulesetRegistryRepo :=
  repos.reverse.find? fun repo => repo.repo = name

/-- Higher severity first, then by repository, then by field. -/
def eventPrecedes (left right : RegistryHyperparameterDriftEvent) : Bool :=
  if severityRank left.severity ≠ severityRank right.severity then
    severityRank right.severity < severityRank left.severity
  else match platform.localeCompare left.repoFullName right.repoFullName with
    | .lt => true
    | .gt => false
    | .eq => REGISTRY_DRIFT_FIELD_ORDER.idxOf left.field ≤
        REGISTRY_DRIFT_FIELD_ORDER.idxOf right.field

def localeSorted (texts : List Units) : List Units :=
  texts.insertionSort fun left right => platform.localeCompare left right ≠ .gt

def uniqueRepoNames (events : List RegistryHyperparameterDriftEvent) : List Units :=
  localeSorted platform (uniqueValues (events.map fun event => event.repoFullName))

def REGISTRY_HYPERPARAMETER_DRIFT_LIMIT : ℕ := 100

def registryEvents (previous current : List RulesetRegistryRepo) :
    List RegistryHyperparameterDriftEvent :=
  (current.flatMap fun repo =>
    match repoNamed previous repo.repo with
    | some old => changedRegistryRepoEvents platform old repo
    | none => [registryHyperparameterDriftEvent repo.repo .repo .null (.string (units "added"))
        (units "added")]) ++
  previous.flatMap fun repo =>
    if (repoNamed current repo.repo).isSome then []
    else [registryHyperparameterDriftEvent repo.repo .repo (.string (units "present")) .null
      (units "removed")]

def buildRegistryHyperparameterDrift (previous current : List RulesetRegistryRepo) :
    RegistryHyperparameterDriftPayload :=
  let events := (registryEvents platform previous current).insertionSort fun left right =>
    eventPrecedes platform left right
  let capped := events.take REGISTRY_HYPERPARAMETER_DRIFT_LIMIT
  { totalEvents := events.length
    omittedEvents := events.length - capped.length
    highImpactCount := events.countP fun event =>
      event.severity = .high || event.severity = .blocking
    affectedRepoCount := (uniqueValues (events.map fun event => event.repoFullName)).length
    affectedFields := uniqueSorted (events.map fun event => event.field) REGISTRY_DRIFT_FIELD_ORDER
    affectedSurfaces := uniqueSorted (events.flatMap fun event => event.affectedSurfaces)
      SURFACE_ORDER
    events := capped
    affectedRepos := uniqueRepoNames platform events }

def changedRegistryRepos (events : List RegistryHyperparameterDriftEvent) : List Units :=
  (uniqueRepoNames platform events).map fun repo =>
    let repoEvents := (events.filter fun event => event.repoFullName = repo).insertionSort
      fun left right => eventPrecedes platform left right
    repo ++ units ": " ++ joined ", " (repoEvents.map fun event => event.summary)

/-- One comparison of the two rulesets: the area, severity and text it adds to the report. -/
structure DriftFinding where
  area : UpstreamDriftArea
  severity : UpstreamDriftSeverity
  change : Units

def boolText (value : Bool) : Units := units (if value then "true" else "false")

def countsText (ruleset : UpstreamRulesetSnapshotRecord) : Units :=
  platform.numberText ruleset.registryRepoCount ++ units "/" ++
    platform.numberText ruleset.totalEmissionShare

/-- The comparisons of two rulesets that found a difference, in order. -/
def driftFindings (current previous : UpstreamRulesetSnapshotRecord)
    (registryDrift : RegistryHyperparameterDriftPayload) : List DriftFinding :=
  let now := current.payload
  let old := previous.payload
  let finding := fun (differs : Bool) (area : UpstreamDriftArea)
      (severity : UpstreamDriftSeverity) (change : Units) =>
    if differs then [DriftFinding.mk area severity change] else []
  finding (current.activeModel ≠ previous.activeModel) .scoringModel
    (if current.activeModel = .unknown then .blocking else .high)
    (units "active_model " ++ units previous.activeModel.name ++ units " -> " ++
      units current.activeModel.name) ++
  finding (stableStringify platform (numbersJson now.scoring.constants) ≠
      stableStringify platform (numbersJson old.scoring.constants)) .scoringModel .high
    (units "scoring constants changed") ++
  finding (current.registryRepoCount ≠ previous.registryRepoCount ||
      current.totalEmissionShare ≠ previous.totalEmissionShare) .registry .high
    (units "registry totals changed (" ++ countsText platform previous ++ units " -> " ++
      countsText platform current ++ units ")") ++
  (registryDrift.events.take 1).flatMap (fun first => [⟨.registry, first.severity,
    units (toString registryDrift.totalEvents) ++
      units " registry hyperparameter drift event(s)"⟩]) ++
  finding (now.branchEligibilityRequired ≠ old.branchEligibilityRequired) .issueDiscovery .high
    (units "branch eligibility " ++ boolText old.branchEligibilityRequired ++ units " -> " ++
      boolText now.branchEligibilityRequired) ++
  finding (now.solvedByPrRequired ≠ old.solvedByPrRequired) .mirrorLinkage .high
    (units "solved_by_pr requirement " ++ boolText old.solvedByPrRequired ++ units " -> " ++
      boolText now.solvedByPrRequired) ++
  finding (now.languageWeights.contentHash ≠ old.languageWeights.contentHash) .languageWeights
    .medium (units "programming language weights changed")

/-- `[...affected].sort()`, by code units. -/
def sortedAreas (areas : List UpstreamDriftArea) : List UpstreamDriftArea :=
  (uniqueValues areas).insertionSort fun left right => units left.name ≤ units right.name

def buildUpstreamDriftReport (current : UpstreamRulesetSnapshotRecord)
    (previous : Option UpstreamRulesetSnapshotRecord) : Option UpstreamDriftReportRecord :=
  match previous with
  | none => none
  | some previous =>
      if current.semanticHash = previous.semanticHash then none
      else
        let registryDrift := buildRegistryHyperparameterDrift platform
          previous.payload.registry.repositories current.payload.registry.repositories
        let findings := driftFindings platform current previous registryDrift
        let affectedAreas := sortedAreas (if findings = [] then [.source]
          else findings.map fun finding => finding.area)
        let changes := findings.map fun finding => finding.change
        some {
          fingerprint := sha256Hex platform (stableStringify platform (.object [
            ("current", .string current.semanticHash),
            ("previous", .string previous.semanticHash),
            ("affectedAreas", .array (affectedAreas.map fun area => .string (units area.name)))]))
          severity := findings.foldl (fun severity finding => maxSeverity severity finding.severity)
            .low
          summary := if changes = [] then
              units "Upstream source content changed without parsed semantic drift."
            else joined "; " changes
          affectedAreas := affectedAreas
          changes := changes
          repoChanges := changedRegistryRepos platform registryDrift.events
          registryHyperparameterDrift := registryDrift }

/-! ## The refresh -/

/-- The two tables a refresh reads and writes, the newest row first. -/
structure UpstreamStore where
  sources : List UpstreamSourceSnapshotRecord
  rulesets : List UpstreamRulesetSnapshotRecord

structure UpstreamRefresh where
  sources : List UpstreamSourceSnapshotRecord
  ruleset : UpstreamRulesetSnapshotRecord
  drift : Option UpstreamDriftReportRecord

/-- A refresh and the tables after it. -/
def refreshUpstreamDrift (store : UpstreamStore) (answers : UpstreamAnswers) :
    UpstreamRefresh × UpstreamStore :=
  let sources := refreshUpstreamSourceSnapshots platform store.sources answers
  let ruleset := buildUpstreamRulesetSnapshot platform sources
  let stored : UpstreamStore := ⟨sources.map persisted ++ store.sources, ruleset :: store.rulesets⟩
  (⟨sources, ruleset, buildUpstreamDriftReport platform ruleset stored.rulesets[1]?⟩, stored)

end Reporting

end Gittensory.UpstreamDrift
