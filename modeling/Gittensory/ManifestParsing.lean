import Gittensory.GatePolicy
import Gittensory.JsCoercion

/-!
The focus manifest of a repository (`signals/focus-manifest.ts`): the tolerant reading of a
mapping, section by section, and the mapping that the snapshot stores
(`signals/focus-manifest-loader.ts`). `GatePolicy` has the sections its resolver reads;
here they stand with all their fields. A malformed value is dropped with a warning, and where
the warning shows the value, building its text may throw.
-/
namespace Gittensory.ManifestParsing

open AdvisoryGate Autonomy CodeUnits JsCoercion JsValue JsonRecord TextPattern
open GatePolicy (CheckMode CommentMode GatePolicyPack PublicAudienceMode PublicSurface)

/-! ## The manifest -/

inductive FocusManifestSource where
  | repoFile
  | apiRecord
  | none
  deriving DecidableEq, Repr

inductive FocusManifestLinkedIssuePolicy where
  | required
  | preferred
  | optional
  deriving DecidableEq, Repr

inductive FocusManifestIssueDiscoveryPolicy where
  | encouraged
  | neutral
  | discouraged
  deriving DecidableEq, Repr

inductive AiReviewProvider where
  | anthropic
  | openai
  deriving DecidableEq, Repr

inductive PublicSignalLevel where
  | minimal
  | standard
  deriving DecidableEq, Repr

inductive CheckRunDetailLevel where
  | minimal
  | standard
  | deep
  deriving DecidableEq, Repr

/-- A whole number from 0 to `limit`, what clamping leaves. -/
structure Clamped (limit : ℤ) where
  value : ℤ
  low : 0 ≤ value
  high : value ≤ limit
  deriving DecidableEq, Repr

/-- A text that `trim` leaves and that is not empty. -/
structure TrimmedText where
  text : Units
  nonempty : text ≠ []
  trimmed : trim text = text
  deriving DecidableEq, Repr

/-- The `gate:` section. -/
@[ext]
structure FocusManifestGateConfig where
  enabled : Option Bool := none
  pack : Option GatePolicyPack := none
  linkedIssue : Option GateRuleMode := none
  duplicates : Option GateRuleMode := none
  readinessMode : Option GateRuleMode := none
  readinessMinScore : Option (Clamped 100) := none
  slopMode : Option GateRuleMode := none
  slopMinScore : Option (Clamped 100) := none
  slopAiAdvisory : Option Bool := none
  aiReviewMode : Option GateRuleMode := none
  aiReviewByok : Option Bool := none
  aiReviewProvider : Option AiReviewProvider := none
  aiReviewModel : Option TrimmedText := none
  mergeReadiness : Option GateRuleMode := none
  manifestPolicy : Option GateRuleMode := none
  firstTimeContributorGrace : Option Bool := none
  deriving DecidableEq, Repr

/-- The `present` flag, which the parser computes from the other fields. -/
def FocusManifestGateConfig.present (gate : FocusManifestGateConfig) : Bool :=
  gate.enabled.isSome || gate.pack.isSome || gate.linkedIssue.isSome || gate.duplicates.isSome ||
    gate.readinessMode.isSome || gate.readinessMinScore.isSome || gate.slopMode.isSome ||
    gate.slopMinScore.isSome || gate.slopAiAdvisory.isSome || gate.aiReviewMode.isSome ||
    gate.aiReviewByok.isSome || gate.aiReviewProvider.isSome || gate.aiReviewModel.isSome ||
    gate.mergeReadiness.isSome || gate.manifestPolicy.isSome ||
    gate.firstTimeContributorGrace.isSome

/-- The boolean keys of `settings:`. -/
inductive SettingsFlag where
  | aiReviewByok
  | autoLabelEnabled
  | createMissingLabel
  | includeMaintainerAuthors
  | requireLinkedIssue
  | backfillEnabled
  | privateTrustEnabled
  | agentPaused
  | agentDryRun
  deriving DecidableEq, Repr

/-- A policy for at least one action class. -/
structure DeclaredAutonomy where
  policy : AutonomyPolicy
  declares : ∃ actionClass, policy actionClass ≠ none

structure ClampedAutoMaintain where
  requireApprovals : Clamped 10
  mergeMethod : AutoMergeMethod
  deriving DecidableEq, Repr

/-- The `settings:` section. -/
@[ext]
structure FocusManifestSettings where
  commentMode : Option CommentMode := none
  publicAudienceMode : Option PublicAudienceMode := none
  publicSignalLevel : Option PublicSignalLevel := none
  checkRunMode : Option CheckMode := none
  checkRunDetailLevel : Option CheckRunDetailLevel := none
  gateCheckMode : Option CheckMode := none
  linkedIssueGateMode : Option GateRuleMode := none
  duplicatePrGateMode : Option GateRuleMode := none
  qualityGateMode : Option GateRuleMode := none
  qualityGateMinScore : Option (Clamped 100) := none
  aiReviewMode : Option GateRuleMode := none
  aiReviewProvider : Option AiReviewProvider := none
  aiReviewModel : Option TrimmedText := none
  gittensorLabel : Option TrimmedText := none
  publicSurface : Option PublicSurface := none
  flags : SettingsFlag → Option Bool := fun _ => none
  autonomy : Option DeclaredAutonomy := none
  autoMaintain : Option ClampedAutoMaintain := none

inductive ReviewFieldKey where
  | linkedIssue
  | relatedWork
  | reviewLoad
  | validationEvidence
  | openPrQueue
  | contributorContext
  | gateResult
  deriving DecidableEq, Repr

/-- The `review:` section. -/
@[ext]
structure FocusManifestReviewConfig where
  footerText : Option Units := none
  note : Option Units := none
  fields : ReviewFieldKey → Option Bool := fun _ => none

@[ext]
structure FocusManifest where
  present : Bool
  source : FocusManifestSource
  wantedPaths : List Units
  blockedPaths : List Units
  preferredLabels : List Units
  linkedIssuePolicy : FocusManifestLinkedIssuePolicy
  testExpectations : List Units
  issueDiscoveryPolicy : FocusManifestIssueDiscoveryPolicy
  maintainerNotes : List Units
  publicNotes : List Units
  gate : FocusManifestGateConfig
  settings : FocusManifestSettings
  review : FocusManifestReviewConfig
  warnings : List Units

/-! ## The spellings -/

def sources : Spelling FocusManifestSource where
  allowed := [.repoFile, .apiRecord, .none]
  name
    | .repoFile => "repo_file"
    | .apiRecord => "api_record"
    | .none => "none"

def linkedIssuePolicies : Spelling FocusManifestLinkedIssuePolicy where
  allowed := [.required, .preferred, .optional]
  name
    | .required => "required"
    | .preferred => "preferred"
    | .optional => "optional"

def issueDiscoveryPolicies : Spelling FocusManifestIssueDiscoveryPolicy where
  allowed := [.encouraged, .neutral, .discouraged]
  name
    | .encouraged => "encouraged"
    | .neutral => "neutral"
    | .discouraged => "discouraged"

def gateRuleModes : Spelling GateRuleMode where
  allowed := [.off, .advisory, .block]
  name
    | .off => "off"
    | .advisory => "advisory"
    | .block => "block"

def gatePolicyPacks : Spelling GatePolicyPack where
  allowed := [.gittensor, .ossAntiSlop]
  name
    | .gittensor => "gittensor"
    | .ossAntiSlop => "oss-anti-slop"

def aiReviewProviders : Spelling AiReviewProvider where
  allowed := [.anthropic, .openai]
  name
    | .anthropic => "anthropic"
    | .openai => "openai"

def commentModes : Spelling CommentMode where
  allowed := [.off, .detectedContributorsOnly, .allPrs]
  name
    | .off => "off"
    | .detectedContributorsOnly => "detected_contributors_only"
    | .allPrs => "all_prs"

def publicAudienceModes : Spelling PublicAudienceMode where
  allowed := [.ossMaintainer, .gittensorOnly]
  name
    | .ossMaintainer => "oss_maintainer"
    | .gittensorOnly => "gittensor_only"

def publicSignalLevels : Spelling PublicSignalLevel where
  allowed := [.minimal, .standard]
  name
    | .minimal => "minimal"
    | .standard => "standard"

def checkModes : Spelling CheckMode where
  allowed := [.off, .enabled]
  name
    | .off => "off"
    | .enabled => "enabled"

def checkRunDetailLevels : Spelling CheckRunDetailLevel where
  allowed := [.minimal, .standard, .deep]
  name
    | .minimal => "minimal"
    | .standard => "standard"
    | .deep => "deep"

def publicSurfaces : Spelling PublicSurface where
  allowed := [.off, .commentAndLabel, .commentOnly, .labelOnly]
  name
    | .off => "off"
    | .commentAndLabel => "comment_and_label"
    | .commentOnly => "comment_only"
    | .labelOnly => "label_only"

def autonomyLevels : Spelling AutonomyLevel where
  allowed := [.observe, .suggest, .propose, .autoWithApproval, .auto]
  name
    | .observe => "observe"
    | .suggest => "suggest"
    | .propose => "propose"
    | .autoWithApproval => "auto_with_approval"
    | .auto => "auto"

def autoMergeMethods : Spelling AutoMergeMethod where
  allowed := [.merge, .squash, .rebase]
  name
    | .merge => "merge"
    | .squash => "squash"
    | .rebase => "rebase"

def actionClassKeys : Spelling AgentActionClass where
  allowed := agentActionClasses
  name
    | .review => "review"
    | .requestChanges => "request_changes"
    | .approve => "approve"
    | .merge => "merge"
    | .close => "close"
    | .label => "label"

def settingsFlagKeys : Spelling SettingsFlag where
  allowed := [.aiReviewByok, .autoLabelEnabled, .createMissingLabel, .includeMaintainerAuthors,
    .requireLinkedIssue, .backfillEnabled, .privateTrustEnabled, .agentPaused, .agentDryRun]
  name
    | .aiReviewByok => "aiReviewByok"
    | .autoLabelEnabled => "autoLabelEnabled"
    | .createMissingLabel => "createMissingLabel"
    | .includeMaintainerAuthors => "includeMaintainerAuthors"
    | .requireLinkedIssue => "requireLinkedIssue"
    | .backfillEnabled => "backfillEnabled"
    | .privateTrustEnabled => "privateTrustEnabled"
    | .agentPaused => "agentPaused"
    | .agentDryRun => "agentDryRun"

def reviewFieldKeys : Spelling ReviewFieldKey where
  allowed := [.linkedIssue, .relatedWork, .reviewLoad, .validationEvidence, .openPrQueue,
    .contributorContext, .gateResult]
  name
    | .linkedIssue => "linkedIssue"
    | .relatedWork => "relatedWork"
    | .reviewLoad => "reviewLoad"
    | .validationEvidence => "validationEvidence"
    | .openPrQueue => "openPrQueue"
    | .contributorContext => "contributorContext"
    | .gateResult => "gateResult"

/-! ## The normalizers -/

/-- A value and the warnings that reading it pushed; `none` is a warning whose text threw. -/
structure Reading (α : Type) where
  value : α
  warnings : List (Option Units)

def maxListItems : ℕ := 200

def maxItemLength : ℕ := 300

def dashOrSpace : Pattern := .opt (.char ⟨false, ('-', '-') :: spaceSet.ranges⟩)

def wordLetters : Pattern :=
  .star (.char ⟨false, [('A', 'Z'), ('a', 'z'), ('0', '9'), ('_', '_')]⟩)

def privateTerms : Pattern :=
  .alts [.seqs [.literalNoCase "reward", wordLetters], .seqs [.literalNoCase "score", wordLetters],
    .plural "wallet", .plural "hotkey", .plural "coldkey",
    .seqs [.literalNoCase "seed", dashOrSpace, .plural "phrase"], .plural "mnemonic",
    .seqs [.literalNoCase "private", dashOrSpace, .plural "key"], .literalNoCase "farming",
    .plural "payout", .plural "ranking",
    .seqs [.literalNoCase "raw", dashOrSpace, .literalNoCase "trust",
      .opt (.seqs [dashOrSpace, .plural "score"])],
    .seqs [.literalNoCase "trust", dashOrSpace, .plural "score"],
    .seqs [.literalNoCase "private", dashOrSpace, .literalNoCase "reviewability"],
    .seqs [.literalNoCase "reviewability", .opt (.seqs [dashOrSpace, .plural "internal"])],
    .seqs [.literalNoCase "private", dashOrSpace, .literalNoCase "scoreability"],
    .literalNoCase "scoreability",
    .seqs [.literalNoCase "public", dashOrSpace, .literalNoCase "score", dashOrSpace,
      .alts [.literalNoCase "estimate", .literalNoCase "prediction", .literalNoCase "claim"],
      .opt (.literalNoCase "s")],
    .seqs [.literalNoCase "estimated", dashOrSpace, .plural "score"],
    .seqs [.literalNoCase "score", dashOrSpace,
      .alts [.literalNoCase "estimate", .literalNoCase "prediction", .literalNoCase "preview"],
      .opt (.literalNoCase "s")]]

def unsafePattern : Pattern :=
  .alts [.seqs [.wordBoundary, privateTerms, .wordBoundary], .literalNoCase "/Users/",
    .literalNoCase "/home/", .literalNoCase "/tmp/",
    .seqs [.char ⟨false, [('A', 'Z'), ('a', 'z')]⟩, .literalNoCase ":\\Users\\"]]

def isFocusManifestPublicSafe (text : Units) : Bool := !test unsafePattern (letters text)

/-- The items of a list with one more, unless it is there already. -/
def withItem (result : List Units) (item : Units) : List Units :=
  if item ∈ result then result else result ++ [item]

/-- The loop over a list's entries; it ends early when the list is full. -/
def normalizeEntries (field : String) : List JsonValue → List Units → Reading (List Units)
  | [], result => ⟨result, []⟩
  | .string entry :: rest, result =>
      let trimmed := trim entry
      if trimmed = [] then normalizeEntries field rest result
      else
        let overLong := if maxItemLength < trimmed.length then
            [some (units ("Manifest field \"" ++ field ++ "\" truncated an over-long entry."))]
          else []
        let normalized := trimmed.take maxItemLength
        let extended := withItem result normalized
        if maxListItems ≤ extended.length then
          ⟨extended, overLong ++ [some (units ("Manifest field \"" ++ field ++ "\" exceeded " ++
            toString maxListItems ++ " entries; extra entries ignored."))]⟩
        else
          let others := normalizeEntries field rest extended
          ⟨others.value, overLong ++ others.warnings⟩
  | _ :: rest, result =>
      let others := normalizeEntries field rest result
      ⟨others.value, some (units ("Manifest field \"" ++ field ++
        "\" skipped a non-string entry.")) :: others.warnings⟩

def normalizeStringList (value : Option JsonValue) (field : String) : Reading (List Units) :=
  match value with
  | none | some .null => ⟨[], []⟩
  | some (.array items) => normalizeEntries field items []
  | some other => ⟨[], [some (units ("Manifest field \"" ++ field ++
      "\" must be a list; ignoring a " ++ other.typeOf ++ " value."))]⟩

/-- Reads a spelling; what is not one is dropped with the given warning. -/
def readSpelling {α : Type} (spelling : Spelling α) (value : Option JsonValue)
    (warning : JsonValue → Option Units) : Reading (Option α) :=
  match value with
  | none | some .null => ⟨none, []⟩
  | some (.string text) =>
      match spelling.read text with
      | some found => ⟨some found, []⟩
      | none => ⟨none, [warning (.string text)]⟩
  | some other => ⟨none, [warning other]⟩

def normalizeEnum {α : Type} (value : Option JsonValue) (field : String) (spelling : Spelling α)
    (fallback : α) : Reading α :=
  let found := readSpelling spelling value fun _ => some (units ("Manifest field \"" ++ field ++
    "\" must be one of " ++ spelling.listed ++ "; falling back to \"" ++ spelling.name fallback ++
    "\"."))
  ⟨found.value.getD fallback, found.warnings⟩

def normalizeSource (raw : Option FocusManifestSource) (value : Option JsonValue) :
    Reading FocusManifestSource :=
  match raw with
  | some source => ⟨source, []⟩
  | none => normalizeEnum value "source" sources .apiRecord

def normalizeOptionalGateMode (value : Option JsonValue) (field : String) :
    Reading (Option GateRuleMode) :=
  readSpelling gateRuleModes value fun other => (jsString other).map fun text =>
    units ("Manifest gate field \"" ++ field ++
      "\" must be one of off, advisory, block; ignoring \"") ++ text ++ units "\"."

def normalizeOptionalEnum {α : Type} (value : Option JsonValue) (field : String)
    (spelling : Spelling α) : Reading (Option α) :=
  readSpelling spelling value fun other => (jsString other).map fun text =>
    units ("Manifest settings field \"" ++ field ++ "\" must be one of " ++ spelling.listed ++
      "; ignoring \"") ++ text ++ units "\"."

def normalizeOptionalBoolean (value : Option JsonValue) (field : String) :
    Reading (Option Bool) :=
  match value with
  | none | some .null => ⟨none, []⟩
  | some (.bool flag) => ⟨some flag, []⟩
  | some other => ⟨none, [some (units ("Manifest gate field \"" ++ field ++
      "\" must be a boolean; ignoring a " ++ other.typeOf ++ " value."))]⟩

def clamp (limit : ℤ) (hlimit : 0 ≤ limit) (value : ℤ) : Clamped limit where
  value := max 0 (min limit value)
  low := le_max_left _ _
  high := max_le hlimit (min_le_left _ _)

def normalizeOptionalScore (value : Option JsonValue) (field : String) :
    Reading (Option (Clamped 100)) :=
  match value with
  | none | some .null => ⟨none, []⟩
  | some (.number (.finite score)) => ⟨some (clamp 100 (by decide) (mathRound score)), []⟩
  | some _ => ⟨none, [some (units ("Manifest gate field \"" ++ field ++
      "\" must be a number between 0 and 100; ignoring it."))]⟩

def normalizeOptionalString (value : Option JsonValue) (field : String) :
    Reading (Option TrimmedText) :=
  let warning := units ("Manifest settings field \"" ++ field ++
    "\" must be a non-empty string; ignoring it.")
  match value with
  | none | some .null => ⟨none, []⟩
  | some (.string text) =>
      if hempty : trim text = [] then ⟨none, [some warning]⟩
      else ⟨some ⟨trim text, hempty, trim_trim text⟩, []⟩
  | some _ => ⟨none, [some warning]⟩

/-- The warning about a value that should be a mapping. -/
def mappingWarnings (value : Option JsonValue) (warning : String) : List (Option Units) :=
  match value with
  | none | some .null | some (.object _) => []
  | some _ => [some (units warning)]

/-! ## The sections -/

def parseGateConfig (value : Option JsonValue) : Reading FocusManifestGateConfig :=
  match value with
  | none | some .null => ⟨{}, []⟩
  | some (.object record) =>
      let readiness := record.lookup "readiness"
      let aiReview := record.lookup "aiReview"
      let slop := record.lookup "slop"
      let enabled := normalizeOptionalBoolean (record.lookup "enabled") "gate.enabled"
      let pack := normalizeOptionalEnum (record.lookup "pack") "gate.pack" gatePolicyPacks
      let linkedIssue := normalizeOptionalGateMode (record.lookup "linkedIssue") "gate.linkedIssue"
      let duplicates := normalizeOptionalGateMode (record.lookup "duplicates") "gate.duplicates"
      let readinessMode := normalizeOptionalGateMode (member readiness "mode") "gate.readiness.mode"
      let readinessMinScore :=
        normalizeOptionalScore (member readiness "minScore") "gate.readiness.minScore"
      let slopMode := normalizeOptionalGateMode (member slop "mode") "gate.slop.mode"
      let slopMinScore := normalizeOptionalScore (member slop "minScore") "gate.slop.minScore"
      let slopAiAdvisory :=
        normalizeOptionalBoolean (member slop "aiAdvisory") "gate.slop.aiAdvisory"
      let aiReviewMode := normalizeOptionalGateMode (member aiReview "mode") "gate.aiReview.mode"
      let aiReviewByok := normalizeOptionalBoolean (member aiReview "byok") "gate.aiReview.byok"
      let aiReviewProvider :=
        normalizeOptionalEnum (member aiReview "provider") "gate.aiReview.provider"
          aiReviewProviders
      let aiReviewModel := normalizeOptionalString (member aiReview "model") "gate.aiReview.model"
      let mergeReadiness :=
        normalizeOptionalGateMode (record.lookup "mergeReadiness") "gate.mergeReadiness"
      let manifestPolicy :=
        normalizeOptionalGateMode (record.lookup "manifestPolicy") "gate.manifestPolicy"
      let firstTimeContributorGrace := normalizeOptionalBoolean
        (record.lookup "firstTimeContributorGrace") "gate.firstTimeContributorGrace"
      ⟨{ enabled := enabled.value
         pack := pack.value
         linkedIssue := linkedIssue.value
         duplicates := duplicates.value
         readinessMode := readinessMode.value
         readinessMinScore := readinessMinScore.value
         slopMode := slopMode.value
         slopMinScore := slopMinScore.value
         slopAiAdvisory := slopAiAdvisory.value
         aiReviewMode := aiReviewMode.value
         aiReviewByok := aiReviewByok.value
         aiReviewProvider := aiReviewProvider.value
         aiReviewModel := aiReviewModel.value
         mergeReadiness := mergeReadiness.value
         manifestPolicy := manifestPolicy.value
         firstTimeContributorGrace := firstTimeContributorGrace.value },
        mappingWarnings readiness
            "Manifest gate field \"gate.readiness\" must be a mapping; ignoring it." ++
          mappingWarnings aiReview
            "Manifest gate field \"gate.aiReview\" must be a mapping; ignoring it." ++
          mappingWarnings slop
            "Manifest gate field \"gate.slop\" must be a mapping; ignoring it." ++
          enabled.warnings ++ pack.warnings ++ linkedIssue.warnings ++ duplicates.warnings ++
          readinessMode.warnings ++ readinessMinScore.warnings ++ slopMode.warnings ++
          slopMinScore.warnings ++ slopAiAdvisory.warnings ++ aiReviewMode.warnings ++
          aiReviewByok.warnings ++ aiReviewProvider.warnings ++ aiReviewModel.warnings ++
          mergeReadiness.warnings ++ manifestPolicy.warnings ++
          firstTimeContributorGrace.warnings⟩
  | some _ => ⟨{}, [some (units "Manifest field \"gate\" must be a mapping; ignoring it.")]⟩

def normalizeAutonomyPolicy (input : JsonValue) : AutonomyPolicy := fun actionClass =>
  match member (some input) (actionClassKeys.name actionClass) with
  | some (.string level) => autonomyLevels.read level
  | _ => none

/-- Kept only when a level survives. -/
def declaredAutonomy (policy : AutonomyPolicy) : Option DeclaredAutonomy :=
  if h : ∃ actionClass ∈ agentActionClasses, policy actionClass ≠ none then
    some ⟨policy, h.imp fun _ hclass => hclass.2⟩
  else none

def mathTruncInt (value : ℚ) : ℤ := if value < 0 then ⌈value⌉ else ⌊value⌋

def normalizeAutoMaintainPolicy (record : Record) : ClampedAutoMaintain where
  requireApprovals :=
    match record.lookup "requireApprovals" with
    | some (.number (.finite approvals)) => clamp 10 (by decide) (mathTruncInt approvals)
    | _ => clamp 10 (by decide) defaultAutoMaintainPolicy.requireApprovals
  mergeMethod :=
    match record.lookup "mergeMethod" with
    | some (.string method) =>
        (autoMergeMethods.read method).getD defaultAutoMaintainPolicy.mergeMethod
    | _ => defaultAutoMaintainPolicy.mergeMethod

def settingsFlag (record : Record) (key : SettingsFlag) : Reading (Option Bool) :=
  normalizeOptionalBoolean (record.lookup (settingsFlagKeys.name key))
    ("settings." ++ settingsFlagKeys.name key)

def parseSettingsOverride (value : Option JsonValue) : Reading FocusManifestSettings :=
  match value with
  | none | some .null => ⟨{}, []⟩
  | some (.object r) =>
      let commentMode :=
        normalizeOptionalEnum (r.lookup "commentMode") "settings.commentMode" commentModes
      let publicAudienceMode := normalizeOptionalEnum (r.lookup "publicAudienceMode")
        "settings.publicAudienceMode" publicAudienceModes
      let publicSignalLevel := normalizeOptionalEnum (r.lookup "publicSignalLevel")
        "settings.publicSignalLevel" publicSignalLevels
      let checkRunMode :=
        normalizeOptionalEnum (r.lookup "checkRunMode") "settings.checkRunMode" checkModes
      let checkRunDetailLevel := normalizeOptionalEnum (r.lookup "checkRunDetailLevel")
        "settings.checkRunDetailLevel" checkRunDetailLevels
      let gateCheckMode :=
        normalizeOptionalEnum (r.lookup "gateCheckMode") "settings.gateCheckMode" checkModes
      let linkedIssueGateMode :=
        normalizeOptionalGateMode (r.lookup "linkedIssueGateMode") "settings.linkedIssueGateMode"
      let duplicatePrGateMode :=
        normalizeOptionalGateMode (r.lookup "duplicatePrGateMode") "settings.duplicatePrGateMode"
      let qualityGateMode :=
        normalizeOptionalGateMode (r.lookup "qualityGateMode") "settings.qualityGateMode"
      let qualityGateMinScore :=
        normalizeOptionalScore (r.lookup "qualityGateMinScore") "settings.qualityGateMinScore"
      let aiReviewMode :=
        normalizeOptionalGateMode (r.lookup "aiReviewMode") "settings.aiReviewMode"
      let aiReviewProvider := normalizeOptionalEnum (r.lookup "aiReviewProvider")
        "settings.aiReviewProvider" aiReviewProviders
      let aiReviewModel :=
        normalizeOptionalString (r.lookup "aiReviewModel") "settings.aiReviewModel"
      let gittensorLabel :=
        normalizeOptionalString (r.lookup "gittensorLabel") "settings.gittensorLabel"
      let publicSurface :=
        normalizeOptionalEnum (r.lookup "publicSurface") "settings.publicSurface" publicSurfaces
      ⟨{ commentMode := commentMode.value
         publicAudienceMode := publicAudienceMode.value
         publicSignalLevel := publicSignalLevel.value
         checkRunMode := checkRunMode.value
         checkRunDetailLevel := checkRunDetailLevel.value
         gateCheckMode := gateCheckMode.value
         linkedIssueGateMode := linkedIssueGateMode.value
         duplicatePrGateMode := duplicatePrGateMode.value
         qualityGateMode := qualityGateMode.value
         qualityGateMinScore := qualityGateMinScore.value
         aiReviewMode := aiReviewMode.value
         aiReviewProvider := aiReviewProvider.value
         aiReviewModel := aiReviewModel.value
         gittensorLabel := gittensorLabel.value
         publicSurface := publicSurface.value
         flags := fun key => (settingsFlag r key).value
         autonomy := (r.lookup "autonomy").bind fun declared =>
           declaredAutonomy (normalizeAutonomyPolicy declared)
         autoMaintain :=
           match r.lookup "autoMaintain" with
           | some (.object declared) => some (normalizeAutoMaintainPolicy declared)
           | _ => none },
        commentMode.warnings ++ publicAudienceMode.warnings ++ publicSignalLevel.warnings ++
          checkRunMode.warnings ++ checkRunDetailLevel.warnings ++ gateCheckMode.warnings ++
          linkedIssueGateMode.warnings ++ duplicatePrGateMode.warnings ++
          qualityGateMode.warnings ++ qualityGateMinScore.warnings ++ aiReviewMode.warnings ++
          aiReviewProvider.warnings ++ aiReviewModel.warnings ++ gittensorLabel.warnings ++
          publicSurface.warnings ++
          settingsFlagKeys.allowed.flatMap fun key => (settingsFlag r key).warnings⟩
  | some _ => ⟨{}, [some (units "Manifest field \"settings\" must be a mapping; ignoring it.")]⟩

def parsePublicSafeText (value : Option JsonValue) (field : String) : Reading (Option Units) :=
  let found := normalizeOptionalString value field
  match found.value with
  | none => ⟨none, found.warnings⟩
  | some trimmed =>
      let bounded := trimmed.text.take maxItemLength
      if isFocusManifestPublicSafe bounded then ⟨some bounded, found.warnings⟩
      else ⟨none, found.warnings ++ [some (units ("Manifest \"" ++ field ++
        "\" contains content that is not public-safe; ignoring it."))]⟩

def reviewField (fields : Option JsonValue) (key : ReviewFieldKey) : Reading (Option Bool) :=
  normalizeOptionalBoolean (member fields (reviewFieldKeys.name key))
    ("review.fields." ++ reviewFieldKeys.name key)

def parseReviewConfig (value : Option JsonValue) : Reading FocusManifestReviewConfig :=
  match value with
  | none | some .null => ⟨{}, []⟩
  | some (.object r) =>
      let footer := r.lookup "footer"
      let fields := r.lookup "fields"
      let footerText := parsePublicSafeText (member footer "text") "review.footer.text"
      let note := parsePublicSafeText (r.lookup "note") "review.note"
      ⟨{ footerText := footerText.value
         note := note.value
         fields := fun key => (reviewField fields key).value },
        mappingWarnings footer "Manifest \"review.footer\" must be a mapping; ignoring it." ++
          mappingWarnings fields "Manifest \"review.fields\" must be a mapping; ignoring it." ++
          reviewFieldKeys.allowed.flatMap (fun key => (reviewField fields key).warnings) ++
          footerText.warnings ++ note.warnings⟩
  | some _ => ⟨{}, [some (units "Manifest field \"review\" must be a mapping; ignoring it.")]⟩

/-! ## The mapping that is stored -/

def boolJson (value : Option Bool) : Option JsonValue := value.map .bool

def clampedJson {limit : ℤ} (value : Option (Clamped limit)) : Option JsonValue :=
  value.map fun clamped => .number (.finite clamped.value)

def trimmedJson (value : Option TrimmedText) : Option JsonValue :=
  value.map fun trimmed => .string trimmed.text

def textJson (value : Option Units) : Option JsonValue := value.map .string

def readinessEntries (gate : FocusManifestGateConfig) : List (String × Option JsonValue) :=
  [("mode", gateRuleModes.toJson gate.readinessMode),
    ("minScore", clampedJson gate.readinessMinScore)]

def slopEntries (gate : FocusManifestGateConfig) : List (String × Option JsonValue) :=
  [("mode", gateRuleModes.toJson gate.slopMode), ("minScore", clampedJson gate.slopMinScore),
    ("aiAdvisory", boolJson gate.slopAiAdvisory)]

def aiReviewEntries (gate : FocusManifestGateConfig) : List (String × Option JsonValue) :=
  [("mode", gateRuleModes.toJson gate.aiReviewMode), ("byok", boolJson gate.aiReviewByok),
    ("provider", aiReviewProviders.toJson gate.aiReviewProvider),
    ("model", trimmedJson gate.aiReviewModel)]

def gateEntries (gate : FocusManifestGateConfig) : List (String × Option JsonValue) :=
  [("enabled", boolJson gate.enabled), ("pack", gatePolicyPacks.toJson gate.pack),
    ("linkedIssue", gateRuleModes.toJson gate.linkedIssue),
    ("duplicates", gateRuleModes.toJson gate.duplicates),
    ("readiness", nestedRecord (readinessEntries gate)), ("slop", nestedRecord (slopEntries gate)),
    ("aiReview", nestedRecord (aiReviewEntries gate)),
    ("mergeReadiness", gateRuleModes.toJson gate.mergeReadiness),
    ("manifestPolicy", gateRuleModes.toJson gate.manifestPolicy),
    ("firstTimeContributorGrace", boolJson gate.firstTimeContributorGrace)]

def gateConfigToJson (gate : FocusManifestGateConfig) : JsonValue :=
  if gate.present = false then .null else .object (recordOf (gateEntries gate))

def autonomyJson (declared : DeclaredAutonomy) : JsonValue :=
  .object (recordOf (actionClassKeys.allowed.map fun actionClass =>
    (actionClassKeys.name actionClass, autonomyLevels.toJson (declared.policy actionClass))))

def autoMaintainJson (policy : ClampedAutoMaintain) : JsonValue :=
  .object [("requireApprovals", .number (.finite policy.requireApprovals.value)),
    ("mergeMethod", .string (autoMergeMethods.write policy.mergeMethod))]

/-- The keys that an override has; unset ones are not in the object. -/
def settingsEntries (settings : FocusManifestSettings) : List (String × Option JsonValue) :=
  [("commentMode", commentModes.toJson settings.commentMode),
    ("publicAudienceMode", publicAudienceModes.toJson settings.publicAudienceMode),
    ("publicSignalLevel", publicSignalLevels.toJson settings.publicSignalLevel),
    ("checkRunMode", checkModes.toJson settings.checkRunMode),
    ("checkRunDetailLevel", checkRunDetailLevels.toJson settings.checkRunDetailLevel),
    ("gateCheckMode", checkModes.toJson settings.gateCheckMode),
    ("linkedIssueGateMode", gateRuleModes.toJson settings.linkedIssueGateMode),
    ("duplicatePrGateMode", gateRuleModes.toJson settings.duplicatePrGateMode),
    ("qualityGateMode", gateRuleModes.toJson settings.qualityGateMode),
    ("qualityGateMinScore", clampedJson settings.qualityGateMinScore),
    ("aiReviewMode", gateRuleModes.toJson settings.aiReviewMode),
    ("aiReviewProvider", aiReviewProviders.toJson settings.aiReviewProvider),
    ("aiReviewModel", trimmedJson settings.aiReviewModel),
    ("gittensorLabel", trimmedJson settings.gittensorLabel),
    ("publicSurface", publicSurfaces.toJson settings.publicSurface),
    ("autonomy", settings.autonomy.map autonomyJson),
    ("autoMaintain", settings.autoMaintain.map autoMaintainJson)] ++
  settingsFlagKeys.allowed.map fun key => (settingsFlagKeys.name key, boolJson (settings.flags key))

def settingsOverrideToJson (settings : FocusManifestSettings) : JsonValue :=
  if recordOf (settingsEntries settings) = [] then .null
  else .object (recordOf (settingsEntries settings))

def reviewFieldEntries (fields : ReviewFieldKey → Option Bool) :
    List (String × Option JsonValue) :=
  reviewFieldKeys.allowed.map fun key => (reviewFieldKeys.name key, boolJson (fields key))

def FocusManifestReviewConfig.present (review : FocusManifestReviewConfig) : Bool :=
  review.footerText.isSome || review.note.isSome ||
    !(recordOf (reviewFieldEntries review.fields)).isEmpty

def reviewEntries (review : FocusManifestReviewConfig) : List (String × Option JsonValue) :=
  [("footer", nestedRecord [("text", textJson review.footerText)]),
    ("note", textJson review.note), ("fields", nestedRecord (reviewFieldEntries review.fields))]

def reviewConfigToJson (review : FocusManifestReviewConfig) : JsonValue :=
  if review.present = false then .null else .object (recordOf (reviewEntries review))

def listJson (items : List Units) : JsonValue := .array (items.map .string)

def manifestRecord (manifest : FocusManifest) : Record :=
  [("source", .string (sources.write manifest.source)),
    ("wantedPaths", listJson manifest.wantedPaths),
    ("blockedPaths", listJson manifest.blockedPaths),
    ("preferredLabels", listJson manifest.preferredLabels),
    ("linkedIssuePolicy", .string (linkedIssuePolicies.write manifest.linkedIssuePolicy)),
    ("testExpectations", listJson manifest.testExpectations),
    ("issueDiscoveryPolicy", .string (issueDiscoveryPolicies.write manifest.issueDiscoveryPolicy)),
    ("maintainerNotes", listJson manifest.maintainerNotes),
    ("publicNotes", listJson manifest.publicNotes), ("gate", gateConfigToJson manifest.gate),
    ("settings", settingsOverrideToJson manifest.settings),
    ("review", reviewConfigToJson manifest.review)]

def manifestToJson (manifest : FocusManifest) : JsonValue := .object (manifestRecord manifest)

/-! ## The parser -/

def emptyManifest (source : FocusManifestSource) (warnings : List Units) : FocusManifest where
  present := false
  source := source
  wantedPaths := []
  blockedPaths := []
  preferredLabels := []
  linkedIssuePolicy := .optional
  testExpectations := []
  issueDiscoveryPolicy := .neutral
  maintainerNotes := []
  publicNotes := []
  gate := {}
  settings := {}
  review := {}
  warnings := warnings

/-- Whether a focus field was recognized. -/
def FocusManifest.recognized (manifest : FocusManifest) : Bool :=
  !(manifest.wantedPaths.isEmpty && manifest.blockedPaths.isEmpty &&
    manifest.preferredLabels.isEmpty && manifest.testExpectations.isEmpty &&
    manifest.maintainerNotes.isEmpty && manifest.publicNotes.isEmpty &&
    manifest.linkedIssuePolicy = .optional && manifest.issueDiscoveryPolicy = .neutral &&
    !manifest.gate.present && (recordOf (settingsEntries manifest.settings)).isEmpty &&
    !manifest.review.present)

/-- The manifest of a mapping before `present` is settled, without its warnings. -/
def readManifest (record : Record) (source : Option FocusManifestSource) :
    Reading FocusManifest :=
  let origin := normalizeSource source (record.lookup "source")
  let wantedPaths := normalizeStringList (record.lookup "wantedPaths") "wantedPaths"
  let blockedPaths := normalizeStringList (record.lookup "blockedPaths") "blockedPaths"
  let preferredLabels := normalizeStringList (record.lookup "preferredLabels") "preferredLabels"
  let linkedIssuePolicy := normalizeEnum (record.lookup "linkedIssuePolicy") "linkedIssuePolicy"
    linkedIssuePolicies .optional
  let testExpectations := normalizeStringList (record.lookup "testExpectations") "testExpectations"
  let issueDiscoveryPolicy := normalizeEnum (record.lookup "issueDiscoveryPolicy")
    "issueDiscoveryPolicy" issueDiscoveryPolicies .neutral
  let maintainerNotes := normalizeStringList (record.lookup "maintainerNotes") "maintainerNotes"
  let publicNotes := normalizeStringList (record.lookup "publicNotes") "publicNotes"
  let gate := parseGateConfig (record.lookup "gate")
  let settings := parseSettingsOverride (record.lookup "settings")
  let review := parseReviewConfig (record.lookup "review")
  ⟨{ present := true
     source := origin.value
     wantedPaths := wantedPaths.value
     blockedPaths := blockedPaths.value
     preferredLabels := preferredLabels.value
     linkedIssuePolicy := linkedIssuePolicy.value
     testExpectations := testExpectations.value
     issueDiscoveryPolicy := issueDiscoveryPolicy.value
     maintainerNotes := maintainerNotes.value
     publicNotes := publicNotes.value.filter isFocusManifestPublicSafe
     gate := gate.value
     settings := settings.value
     review := review.value
     warnings := [] },
    origin.warnings ++ wantedPaths.warnings ++ blockedPaths.warnings ++
      preferredLabels.warnings ++ linkedIssuePolicy.warnings ++ testExpectations.warnings ++
      issueDiscoveryPolicy.warnings ++ maintainerNotes.warnings ++ publicNotes.warnings ++
      gate.warnings ++ settings.warnings ++ review.warnings⟩

/-- What is pushed, or nothing where a text threw. -/
def pushed (warnings : List (Option Units)) : Option (List Units) :=
  if none ∈ warnings then none else some warnings.reduceOption

def malformedWarning : Units :=
  units ("Manifest must be a mapping of fields; ignoring malformed manifest and falling back " ++
    "to deterministic signals.")

def unrecognizedWarning : Units :=
  units ("Manifest contained no recognized focus fields; falling back to deterministic signals.")

/-- The parsed manifest, or nothing when the parser throws. -/
def parseFocusManifest (raw : Option JsonValue) (source : Option FocusManifestSource) :
    Option FocusManifest :=
  match raw with
  | none | some .null => some (emptyManifest (source.getD .none) [])
  | some (.object record) =>
      let manifest := readManifest record source
      (pushed manifest.warnings).map fun warnings =>
        if manifest.value.recognized then { manifest.value with warnings := warnings }
        else
          { manifest.value with
            present := false
            warnings := warnings ++ [unrecognizedWarning] }
  | some _ => some (emptyManifest (source.getD .apiRecord) [malformedWarning])

def maxFocusManifestBytes : ℕ := 64 * 1024

/-- The length of a text in UTF-8; half a surrogate pair is encoded as the replacement letter. -/
def byteLength : Units → ℕ
  | [] => 0
  | high :: low :: rest =>
      if 0xD800 ≤ high ∧ high < 0xDC00 ∧ 0xDC00 ≤ low ∧ low < 0xE000 then 4 + byteLength rest
      else (if high < 0x80 then 1 else if high < 0x800 then 2 else 3) + byteLength (low :: rest)
  | [unit] => if unit < 0x80 then 1 else if unit < 0x800 then 2 else 3

/-- `JSON.parse` and the YAML parser; `none` is a parser that throws. -/
structure ContentParsers where
  parseJson : Units → Option JsonValue
  parseYaml : Units → Option JsonValue

def looksLikeJson (text : Units) : Bool :=
  (units "\x7b").isPrefixOf text || (units "[").isPrefixOf text

def parseFocusManifestContent (parsers : ContentParsers) (content : Option Units)
    (source : FocusManifestSource) : Option FocusManifest :=
  match content with
  | none => some (emptyManifest source [])
  | some content =>
      if trim content = [] then some (emptyManifest source [])
      else if maxFocusManifestBytes < content.length ∨
          maxFocusManifestBytes < byteLength content then
        some (emptyManifest source [units ("Manifest content exceeded " ++
          toString maxFocusManifestBytes ++
          " bytes; ignoring it and falling back to deterministic signals.")])
      else
        let trimmed := trim content
        let parsed := if looksLikeJson trimmed then parsers.parseJson trimmed
          else parsers.parseYaml trimmed
        match parsed with
        | none => some (emptyManifest source [units ("Manifest content was not valid " ++
            (if looksLikeJson trimmed then "JSON" else "YAML") ++
            "; ignoring it and falling back to deterministic signals.")])
        | some (.object record) => parseFocusManifest (some (.object record)) (some source)
        | some _ => some (emptyManifest source [malformedWarning])

/-! ## What is parsed -/

/-- A manifest as it comes in: a value, or the content of a file. -/
inductive RawManifest where
  | value (raw : Option JsonValue) (source : Option FocusManifestSource)
  | content (text : Option Units) (source : FocusManifestSource)

def load (parsers : ContentParsers) : RawManifest → Option FocusManifest
  | .value raw source => parseFocusManifest raw source
  | .content text source => parseFocusManifestContent parsers text source

/-- The manifest that the stored snapshot is read as. -/
def reload (manifest : FocusManifest) : Option FocusManifest :=
  parseFocusManifest (some (manifestToJson manifest)) none

/-- The mapping of fields that a raw manifest holds, if it is one. -/
def heldMapping (parsers : ContentParsers) : RawManifest → Option Record
  | .value (some (.object record)) _ => some record
  | .value _ _ => none
  | .content none _ => none
  | .content (some text) _ =>
      if trim text = [] ∨ maxFocusManifestBytes < text.length ∨
          maxFocusManifestBytes < byteLength text then none
      else
        match if looksLikeJson (trim text) then parsers.parseJson (trim text)
          else parsers.parseYaml (trim text) with
        | some (.object record) => some record
        | _ => none

end Gittensory.ManifestParsing
