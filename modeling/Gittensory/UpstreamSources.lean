import Gittensory.KeyedTable
import Gittensory.StoredJson
import Mathlib.Data.List.Sort

/-!
The six files of the upstream repository that the ruleset is read from: what is parsed out
of each, and the snapshot a refresh leaves of it. A snapshot is the file as fetched from the
contents API or from the raw address, the previous snapshot when the file is not modified,
and what was parsed before when both requests fail.
-/
namespace Gittensory.UpstreamSources

open CodeUnits JsValue JsonRecord StoredJson TextPattern

/-- Operations of the platform on numbers, texts and bytes. `none` is a parser that throws. -/
structure Platform where
  parseJson : Units → Option JsonValue
  readNumber : Units → JsNumber
  numberText : ℚ → Units
  add : JsNumber → JsNumber → JsNumber
  localeCompare : Units → Units → Ordering
  atob : Units → Except Units Units
  utf8Decode : Units → Units
  /-- The bytes of the SHA-256 digest of a text in UTF-8. -/
  digest : Units → List ℕ

/-- The tracked sources by their keys. -/
inductive SourceKey where
  | constants
  | registry
  | programmingLanguages
  | mirrorScoring
  | issueDiscoveryScan
  | mirrorModels
  deriving DecidableEq

def TRACKED_SOURCES : List SourceKey :=
  [.constants, .registry, .programmingLanguages, .mirrorScoring, .issueDiscoveryScan, .mirrorModels]

def SourceKey.name : SourceKey → String
  | .constants => "constants"
  | .registry => "registry"
  | .programmingLanguages => "programming_languages"
  | .mirrorScoring => "mirror_scoring"
  | .issueDiscoveryScan => "issue_discovery_scan"
  | .mirrorModels => "mirror_models"

/-! ## Constants -/

def isCapital (unit : ℕ) : Bool := 65 ≤ unit && unit ≤ 90

def underscore : ℕ := 95

def isNameUnit (unit : ℕ) : Bool := isCapital unit || isDigit unit || unit = underscore

/-- `[\d_]` -/
def isNumeral (unit : ℕ) : Bool := isDigit unit || unit = underscore

def point : ℕ := 46

/-- `[-+]?` and the text after it. -/
def signed : Units → Units × Units
  | 43 :: rest => ([43], rest)
  | 45 :: rest => ([45], rest)
  | text => ([], text)

/-- `\d[\d_]*\.?[\d_]*|\.\d[\d_]*` and the text after it. -/
def mantissa : Units → Option (Units × Units)
  | [] => none
  | first :: rest =>
      if isDigit first then
        let whole := rest.takeWhile isNumeral
        match rest.dropWhile isNumeral with
        | 46 :: rest => some (first :: whole ++ point :: rest.takeWhile isNumeral,
            rest.dropWhile isNumeral)
        | rest => some (first :: whole, rest)
      else if first = point ∧ rest.head?.any isDigit then
        some (point :: rest.takeWhile isNumeral, rest.dropWhile isNumeral)
      else none

/-- `(?:[eE][-+]?\d+)?` -/
def exponent : Units → Units
  | [] => []
  | mark :: rest =>
      let (sign, text) := signed rest
      let digits := text.takeWhile isDigit
      if (mark = 101 ∨ mark = 69) ∧ digits ≠ [] then mark :: sign ++ digits else []

def numberLiteral (text : Units) : Option Units :=
  let (sign, text) := signed text
  (mantissa text).map fun found => sign ++ found.1 ++ exponent found.2

/-- The name and the literal of a line `NAME = literal`. -/
def constantLine (line : Units) : Option (Units × Units) :=
  let name := line.takeWhile isNameUnit
  if line.head?.any isCapital ∧ 2 ≤ name.length then
    match (line.dropWhile isNameUnit).dropWhile isSpace with
    | 61 :: rest => (numberLiteral (rest.dropWhile isSpace)).map fun raw => (name, raw)
    | _ => none
  else none

/-- A property name of ASCII letters. -/
def nameText (name : Units) : String := String.ofList (letters name)

section Parsing

variable (platform : Platform)

/-- `parsePythonNumberConstants(source, { knownOnly: false })` -/
def parsePythonNumberConstants (source : Units) : List (String × JsNumber) :=
  ((splitLines source).filterMap constantLine).foldl (fun constants line =>
    KeyedTable.upsert Prod.fst constants
      (nameText line.1, platform.readNumber (line.2.filter fun unit => unit ≠ underscore))) []

def safeJson (content : Units) : JsonValue := (platform.parseJson content).getD (.object [])

end Parsing

/-! ## Registry -/

def numberValue (value : Option JsonValue) : Option ℚ := finiteNumber value

/-- A text that is not empty. -/
def stringValue (value : Option JsonValue) : Option Units :=
  (stringOf value).filter fun text => text ≠ []

def booleanValue (value : Option JsonValue) : Option Bool := booleanOf value

structure RepoTimeDecayOverrides where
  gracePeriodHours : Option ℚ
  sigmoidMidpointDays : Option ℚ
  sigmoidSteepness : Option ℚ
  minMultiplier : Option ℚ

/-- `Object.values(overrides).some((value) => value !== null)` -/
def RepoTimeDecayOverrides.isUsable (overrides : RepoTimeDecayOverrides) : Bool :=
  overrides.gracePeriodHours.isSome || overrides.sigmoidMidpointDays.isSome ||
    overrides.sigmoidSteepness.isSome || overrides.minMultiplier.isSome

structure RegistryRepoConfig where
  repo : Units
  emissionShare : ℚ
  issueDiscoveryShare : ℚ
  labelMultipliers : List (String × JsNumber)
  trustedLabelPipeline : Option Bool
  maintainerCut : ℚ
  defaultLabelMultiplier : Option ℚ
  fixedBaseScore : Option ℚ
  eligibilityMode : Option Units
  timeDecay : Option RepoTimeDecayOverrides

structure RegistrySnapshot where
  repoCount : ℕ
  totalEmissionShare : JsNumber
  repositories : List RegistryRepoConfig

/-- `value && typeof value === "object"`; an array is one too. -/
def isObject : JsonValue → Bool
  | .array _ | .object _ => true
  | _ => false

/-- The entry of a listed repository; its members are those of an object that is no array. -/
def namedEntry (repo : JsonValue) : Option (Units × JsonValue) :=
  if isObject repo then
    (((stringValue (member (some repo) "repo")).or
      (stringValue (member (some repo) "full_name"))).or
      (stringValue (member (some repo) "repository_full_name"))).map fun name => (name, repo)
  else none

def extractRepoEntries : JsonValue → List (Units × JsonValue)
  | .object fields =>
      match fields.lookup "repositories" with
      | some (.array repositories) => repositories.filterMap namedEntry
      | _ => fields.filterMap fun field =>
          match field.2 with
          | .object config => some (units field.1, .object config)
          | _ => none
  | .array repositories => repositories.filterMap namedEntry
  | _ => []

def parseTimeDecayOverrides (scoring : Option JsonValue) : Option RepoTimeDecayOverrides :=
  let td := member scoring "time_decay"
  let overrides : RepoTimeDecayOverrides := {
    gracePeriodHours := numberValue (member td "grace_period_hours")
    sigmoidMidpointDays := numberValue (member td "sigmoid_midpoint_days")
    sigmoidSteepness := numberValue (member td "sigmoid_steepness")
    minMultiplier := numberValue (member td "min_multiplier") }
  (some overrides).filter RepoTimeDecayOverrides.isUsable

def DEFAULT_ISSUE_DISCOVERY_SHARE : ℚ := 1 / 2

def normalizeRepo (repo : Units) (config : JsonValue) : RegistryRepoConfig where
  repo := repo
  emissionShare := (numberValue (member config "emission_share")).getD 0
  issueDiscoveryShare := (numberValue (member config "issue_discovery_share")).getD
    DEFAULT_ISSUE_DISCOVERY_SHARE
  labelMultipliers := (fieldsOf (member config "label_multipliers")).filterMap fun field =>
    match field.2 with
    | .number value => some (field.1, value)
    | _ => none
  trustedLabelPipeline := booleanValue (member config "trusted_label_pipeline")
  maintainerCut := (numberValue (member config "maintainer_cut")).getD 0
  defaultLabelMultiplier := numberValue (member config "default_label_multiplier")
  fixedBaseScore := numberValue (member config "fixed_base_score")
  eligibilityMode := stringValue (member config "eligibility_mode")
  timeDecay := parseTimeDecayOverrides (member config "scoring")

def normalizeRegistryPayload (platform : Platform) (payload : JsonValue) : RegistrySnapshot :=
  let repos := (extractRepoEntries payload).map fun entry => normalizeRepo entry.1 entry.2
  { repoCount := repos.length
    totalEmissionShare := repos.foldl
      (fun sum repo => platform.add sum (.finite repo.emissionShare)) (.finite 0)
    -- The sort is stable: repositories with one share keep their order.
    repositories := repos.insertionSort fun left right => right.emissionShare ≤ left.emissionShare }

/-! ## Parsed records -/

def nullableNumber (value : Option ℚ) : JsonValue :=
  (value.map fun number => .number (.finite number)).getD .null

def nullableBool (value : Option Bool) : JsonValue := (value.map .bool).getD .null

def nullableString (value : Option Units) : JsonValue := (value.map .string).getD .null

def compactTimeDecay : Option RepoTimeDecayOverrides → JsonValue
  | none => .null
  | some timeDecay => .object [
      ("gracePeriodHours", nullableNumber timeDecay.gracePeriodHours),
      ("sigmoidMidpointDays", nullableNumber timeDecay.sigmoidMidpointDays),
      ("sigmoidSteepness", nullableNumber timeDecay.sigmoidSteepness),
      ("minMultiplier", nullableNumber timeDecay.minMultiplier)]

def compactRegistryRepo (repo : RegistryRepoConfig) : JsonValue := .object [
  ("repo", .string repo.repo),
  ("emissionShare", .number (.finite repo.emissionShare)),
  ("issueDiscoveryShare", .number (.finite repo.issueDiscoveryShare)),
  ("maintainerCut", .number (.finite repo.maintainerCut)),
  ("labelMultipliers", .object (repo.labelMultipliers.map fun entry => (entry.1, .number entry.2))),
  ("trustedLabelPipeline", nullableBool repo.trustedLabelPipeline),
  ("defaultLabelMultiplier", nullableNumber repo.defaultLabelMultiplier),
  ("fixedBaseScore", nullableNumber repo.fixedBaseScore),
  ("eligibilityMode", nullableString repo.eligibilityMode),
  ("timeDecay", compactTimeDecay repo.timeDecay)]

/-- `first.{0,80}second` -/
def near (first second : String) : Pattern :=
  Pattern.seqs [Pattern.literalNoCase first, Pattern.upTo 80 .dot, Pattern.literalNoCase second]

def saturationPattern : Pattern :=
  Pattern.alts [Pattern.literalNoCase "exp(", Pattern.literalNoCase "exponential",
    Pattern.literalNoCase "math.exp",
    Pattern.seqs [Pattern.literal "1", .star (.char spaceSet), Pattern.literal "-",
      .star (.char spaceSet), Pattern.literalNoCase "e", .star (.char spaceSet),
      Pattern.literal "**"]]

/-- `pattern.test(content)` -/
def found (pattern : Pattern) (content : Units) : JsonValue :=
  .bool (test pattern (letters content))

def parseTrackedSource (platform : Platform) (source : SourceKey) (content : Units) : Record :=
  match source with
  | .constants => [("constants", .object ((parsePythonNumberConstants platform content).map
      fun entry => (entry.1, .number entry.2)))]
  | .registry =>
      let snapshot := normalizeRegistryPayload platform (safeJson platform content)
      [("registry", .object [
        ("repoCount", .number (.finite snapshot.repoCount)),
        ("totalEmissionShare", .number snapshot.totalEmissionShare),
        ("repositories", .array (snapshot.repositories.map compactRegistryRepo))])]
  | .programmingLanguages =>
      let weights := fieldsOf (some (safeJson platform content))
      [("weights", .object weights), ("count", .number (.finite weights.length))]
  | .mirrorScoring => [
      ("usesDensityModel", found (.anyNoCase ["density", "MAX_CODE_DENSITY_MULTIPLIER", "CODE_DENSITY"])
        content),
      ("usesSaturationModel", found (.anyNoCase ["saturation", "SRC_TOK_SATURATION_SCALE"]) content),
      ("usesExponentialSaturation", found saturationPattern content),
      ("solvedByPrRequired", found (.anyNoCase ["solved_by_pr"]) content)]
  | .issueDiscoveryScan => [
      ("branchEligibilityRequired", found (Pattern.alts [near "branch" "eligib",
        near "eligib" "branch", near "solving" "branch"]) content)]
  | .mirrorModels => [("solvedByPrRequired", found (.anyNoCase ["solved_by_pr"]) content)]

end Gittensory.UpstreamSources
