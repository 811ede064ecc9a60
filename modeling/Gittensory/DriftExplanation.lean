import Gittensory.CanonicalText
import Gittensory.UpstreamDrift
import Mathlib.Data.List.Perm.Basic

/-!
Whether the drift report between two rulesets explains what differs. The hash that calls for
a report covers the whole semantic payload; the comparisons that fill it in walk the payload
part by part and leave the semantic flags out.
-/
namespace Gittensory.DriftExplanation

open CanonicalText CodeUnits JsValue JsonRecord JsonText UpstreamSources UpstreamFetch
open UpstreamRuleset UpstreamDrift

section Texts

variable {platform : Platform}

theorem text_at (hnumbers : NumberTexts platform) {fields fields' : Record}
    (h : stableStringify platform (.object fields) = stableStringify platform (.object fields'))
    (hkeys : (fields'.map Prod.fst).Nodup) (index : ℕ) {key : String} {value value' : JsonValue}
    (hvalue : fields[index]? = some (key, value)) (hvalue' : fields'[index]? = some (key, value')) :
    stableStringify platform value = stableStringify platform value' :=
  member_text hnumbers hkeys h (List.mem_of_getElem? hvalue) (List.mem_of_getElem? hvalue')

theorem string_inj {text text' : Units}
    (h : stableStringify platform (.string text) = stableStringify platform (.string text')) :
    text = text' := by
  rw [stableStringify, stableStringify] at h
  exact jsonQuoted_inj h

theorem bool_inj {value value' : Bool}
    (h : stableStringify platform (.bool value) = stableStringify platform (.bool value')) :
    value = value' := by
  rw [stableStringify, stableStringify] at h
  revert h
  cases value <;> cases value' <;> decide

theorem number_inj (hnumbers : NumberTexts platform) {value value' : ℚ}
    (h : stableStringify platform (.number (.finite value)) =
      stableStringify platform (.number (.finite value'))) : value = value' := by
  rw [stableStringify, stableStringify] at h
  exact hnumbers.injective h

/-- `null` is the text of no number. -/
theorem numberText_ne_null (hnumbers : NumberTexts platform) (value : ℚ) :
    platform.numberText value ≠ units "null" := by
  intro h
  have hletter := hnumbers.letters value 110 (by rw [h]; decide)
  omega

theorem nullableNumber_inj (hnumbers : NumberTexts platform) {value value' : Option ℚ}
    (h : stableStringify platform (nullableNumber value) =
      stableStringify platform (nullableNumber value')) : value = value' := by
  cases value with
  | none =>
    cases value' with
    | none => rfl
    | some number =>
      refine absurd (Eq.symm ?_) (numberText_ne_null hnumbers number)
      simpa only [nullableNumber, Option.map_some, Option.map_none, Option.getD_some,
        Option.getD_none, stableStringify] using h
  | some number =>
    cases value' with
    | none =>
      refine absurd ?_ (numberText_ne_null hnumbers number)
      simpa only [nullableNumber, Option.map_some, Option.map_none, Option.getD_some,
        Option.getD_none, stableStringify] using h
    | some number' => exact congrArg some (number_inj hnumbers h)

theorem nullableBool_inj {value value' : Option Bool}
    (h : stableStringify platform (nullableBool value) =
      stableStringify platform (nullableBool value')) : value = value' := by
  rcases value with _ | value <;> rcases value' with _ | value' <;>
    simp only [nullableBool, Option.map_some, Option.map_none, Option.getD_some,
      Option.getD_none, stableStringify] at h ⊢
  · revert h
    cases value' <;> decide
  · revert h
    cases value <;> decide
  · revert h
    cases value <;> cases value' <;> decide

theorem jsonQuoted_ne_null (text : Units) : jsonQuoted text ≠ units "null" := by
  intro h
  have hfirst : doubleQuote = 110 := (List.cons.inj h).1
  exact absurd hfirst (by decide)

theorem nullableString_inj {value value' : Option Units}
    (h : stableStringify platform (nullableString value) =
      stableStringify platform (nullableString value')) : value = value' := by
  cases value with
  | none =>
    cases value' with
    | none => rfl
    | some text =>
      refine absurd (Eq.symm ?_) (jsonQuoted_ne_null text)
      simpa only [nullableString, Option.map_some, Option.map_none, Option.getD_some,
        Option.getD_none, stableStringify] using h
  | some text =>
    cases value' with
    | none =>
      refine absurd ?_ (jsonQuoted_ne_null text)
      simpa only [nullableString, Option.map_some, Option.map_none, Option.getD_some,
        Option.getD_none, stableStringify] using h
    | some text' => exact congrArg some (string_inj h)

theorem numbersJson_perm (hnumbers : NumberTexts platform) {numbers numbers' : List (String × ℚ)}
    (h : stableStringify platform (numbersJson numbers) =
      stableStringify platform (numbersJson numbers')) : numbers.Perm numbers' := by
  have hmembers := object_members hnumbers h
  have hmap : ∀ entries : List (String × ℚ),
      ((entries.map fun entry => (entry.1, JsonValue.number (.finite entry.2))).map
        fun field => (field.1, stableStringify platform field.2)) =
      entries.map (Prod.map id platform.numberText) := by
    intro entries
    rw [List.map_map]
    apply List.map_congr_left
    intro entry _
    simp only [Function.comp_apply, stableStringify, Prod.map, id]
  rw [hmap, hmap] at hmembers
  exact (List.map_perm_map_iff (Function.injective_id.prodMap hnumbers.injective)).mp hmembers

theorem timeDecay_inj (hnumbers : NumberTexts platform)
    {timeDecay timeDecay' : Option RepoTimeDecayOverrides}
    (h : stableStringify platform (compactTimeDecay timeDecay) =
      stableStringify platform (compactTimeDecay timeDecay')) : timeDecay = timeDecay' := by
  have hobject : ∀ fields : Record, stableStringify platform (.object fields) ≠ units "null" := by
    intro fields heq
    rw [stableStringify_object] at heq
    exact absurd (List.cons.inj heq).1 (by decide)
  cases timeDecay with
  | none =>
    cases timeDecay' with
    | none => rfl
    | some after => exact absurd h.symm (hobject _)
  | some before =>
    cases timeDecay' with
    | none => exact absurd h (hobject _)
    | some after =>
      have hkeys : ["gracePeriodHours", "sigmoidMidpointDays", "sigmoidSteepness",
        "minMultiplier"].Nodup := by decide
      have hgrace := nullableNumber_inj hnumbers (text_at hnumbers h hkeys 0 rfl rfl)
      have hmidpoint := nullableNumber_inj hnumbers (text_at hnumbers h hkeys 1 rfl rfl)
      have hsteepness := nullableNumber_inj hnumbers (text_at hnumbers h hkeys 2 rfl rfl)
      have hmin := nullableNumber_inj hnumbers (text_at hnumbers h hkeys 3 rfl rfl)
      obtain ⟨grace, midpoint, steepness, least⟩ := before
      obtain ⟨grace', midpoint', steepness', least'⟩ := after
      dsimp only at hgrace hmidpoint hsteepness hmin
      rw [hgrace, hmidpoint, hsteepness, hmin]

end Texts

/-! ## The components of a ruleset -/

/-- A hyperparameter of a repository is not the same; records are compared as such, without
the order of their members. -/
def HyperparameterDiffers (before after : RulesetRegistryRepo) :
    RegistryHyperparameterDriftField → Prop
  | .repo => False
  | .emissionShare => before.emissionShare ≠ after.emissionShare
  | .issueDiscoveryShare => before.issueDiscoveryShare ≠ after.issueDiscoveryShare
  | .maintainerCut => before.maintainerCut ≠ after.maintainerCut
  | .fixedBaseScore => before.fixedBaseScore ≠ after.fixedBaseScore
  | .eligibilityMode => before.eligibilityMode ≠ after.eligibilityMode
  | .trustedLabelPipeline => before.trustedLabelPipeline ≠ after.trustedLabelPipeline
  | .defaultLabelMultiplier => before.defaultLabelMultiplier ≠ after.defaultLabelMultiplier
  | .labelMultipliers => ¬before.labelMultipliers.Perm after.labelMultipliers
  | .timeDecay => before.timeDecay ≠ after.timeDecay

inductive Component where
  | activeModel
  | constants
  | semanticFlags
  | repositories
  | hyperparameters
  | branchEligibility
  | solvedByPr
  | languageWeights

def Component.area : Component → UpstreamDriftArea
  | .activeModel | .constants | .semanticFlags => .scoringModel
  | .repositories | .hyperparameters => .registry
  | .branchEligibility => .issueDiscovery
  | .solvedByPr => .mirrorLinkage
  | .languageWeights => .languageWeights

/-- Whether two payloads differ in a component. A repository is looked up by its name. -/
def Component.Differs (now old : RulesetPayload) : Component → Prop
  | .activeModel => now.scoring.activeModel ≠ old.scoring.activeModel
  | .constants => ¬now.scoring.constants.Perm old.scoring.constants
  | .semanticFlags => now.scoring.semanticFlags ≠ old.scoring.semanticFlags
  | .repositories => ∃ name, (repoNamed now.registry.repositories name).isSome ≠
      (repoNamed old.registry.repositories name).isSome
  | .hyperparameters => ∃ name before after field,
      repoNamed old.registry.repositories name = some before ∧
      repoNamed now.registry.repositories name = some after ∧
      HyperparameterDiffers before after field
  | .branchEligibility => now.branchEligibilityRequired ≠ old.branchEligibilityRequired
  | .solvedByPr => now.solvedByPrRequired ≠ old.solvedByPrRequired
  | .languageWeights => now.languageWeights.contentHash.join ≠ old.languageWeights.contentHash.join

section Payloads

variable {platform : Platform}

/-- The text of a hyperparameter determines it. -/
theorem not_hyperparameterDiffers (hnumbers : NumberTexts platform)
    {before after : RulesetRegistryRepo} {field : RegistryHyperparameterDriftField}
    (h : stableStringify platform (registryHyperparameterValue before field) =
      stableStringify platform (registryHyperparameterValue after field)) :
    ¬HyperparameterDiffers before after field := by
  cases field with
  | repo => exact id
  | emissionShare => exact not_not.mpr (number_inj hnumbers h)
  | issueDiscoveryShare => exact not_not.mpr (number_inj hnumbers h)
  | maintainerCut => exact not_not.mpr (number_inj hnumbers h)
  | fixedBaseScore => exact not_not.mpr (nullableNumber_inj hnumbers h)
  | eligibilityMode => exact not_not.mpr (nullableString_inj h)
  | trustedLabelPipeline => exact not_not.mpr (nullableBool_inj h)
  | defaultLabelMultiplier => exact not_not.mpr (nullableNumber_inj hnumbers h)
  | labelMultipliers => exact not_not.mpr (numbersJson_perm hnumbers h)
  | timeDecay => exact not_not.mpr (timeDecay_inj hnumbers h)

theorem hyperparameter_text (hnumbers : NumberTexts platform) {before after : RulesetRegistryRepo}
    (h : stableStringify platform (registryRepoJson before) =
      stableStringify platform (registryRepoJson after)) (field : RegistryHyperparameterDriftField) :
    stableStringify platform (registryHyperparameterValue before field) =
      stableStringify platform (registryHyperparameterValue after field) := by
  have hkeys : ["repo", "emissionShare", "issueDiscoveryShare", "maintainerCut",
    "labelMultipliers", "trustedLabelPipeline", "defaultLabelMultiplier", "fixedBaseScore",
    "eligibilityMode", "timeDecay"].Nodup := by decide
  cases field with
  | repo => exact text_at hnumbers h hkeys 0 rfl rfl
  | emissionShare => exact text_at hnumbers h hkeys 1 rfl rfl
  | issueDiscoveryShare => exact text_at hnumbers h hkeys 2 rfl rfl
  | maintainerCut => exact text_at hnumbers h hkeys 3 rfl rfl
  | fixedBaseScore => exact text_at hnumbers h hkeys 7 rfl rfl
  | eligibilityMode => exact text_at hnumbers h hkeys 8 rfl rfl
  | trustedLabelPipeline => exact text_at hnumbers h hkeys 5 rfl rfl
  | defaultLabelMultiplier => exact text_at hnumbers h hkeys 6 rfl rfl
  | labelMultipliers => exact text_at hnumbers h hkeys 4 rfl rfl
  | timeDecay => exact text_at hnumbers h hkeys 9 rfl rfl

theorem find?_text (hnumbers : NumberTexts platform) {repos repos' : List RulesetRegistryRepo}
    (h : repos.map (fun repo => stableStringify platform (registryRepoJson repo)) =
      repos'.map (fun repo => stableStringify platform (registryRepoJson repo))) (name : Units) :
    (repos.find? fun repo => repo.repo = name).map
        (fun repo => stableStringify platform (registryRepoJson repo)) =
      (repos'.find? fun repo => repo.repo = name).map
        (fun repo => stableStringify platform (registryRepoJson repo)) := by
  induction repos generalizing repos' with
  | nil =>
    rw [List.map_nil, eq_comm, List.map_eq_nil_iff] at h
    rw [h]
  | cons repo rest ih =>
    cases repos' with
    | nil => exact absurd h (by simp)
    | cons repo' rest' =>
      obtain ⟨htext, hrest⟩ := List.cons.inj h
      have hname : repo.repo = repo'.repo := string_inj (hyperparameter_text hnumbers htext .repo)
      rw [List.find?_cons, List.find?_cons, hname]
      cases decide (repo'.repo = name) with
      | true => exact congrArg some htext
      | false => exact ih hrest

theorem repoNamed_text (hnumbers : NumberTexts platform) {repos repos' : List RulesetRegistryRepo}
    (h : repos.map (fun repo => stableStringify platform (registryRepoJson repo)) =
      repos'.map (fun repo => stableStringify platform (registryRepoJson repo))) (name : Units) :
    (repoNamed repos name).map (fun repo => stableStringify platform (registryRepoJson repo)) =
      (repoNamed repos' name).map
        (fun repo => stableStringify platform (registryRepoJson repo)) := by
  apply find?_text hnumbers
  rw [List.map_reverse, List.map_reverse, h]

theorem activeModel_name_inj {model model' : ActiveModel} (h : model.name = model'.name) :
    model = model' := by
  revert h
  cases model <;> cases model' <;> decide

theorem semanticFlags_ext {flags flags' : SemanticFlags}
    (hdensity : flags.usesDensityModel = flags'.usesDensityModel)
    (hsaturation : flags.usesSaturationModel = flags'.usesSaturationModel)
    (hexponential : flags.usesExponentialSaturation = flags'.usesExponentialSaturation) :
    flags = flags' := by
  cases flags
  cases flags'
  simp_all

/-- Payloads with one semantic text differ in no component. -/
theorem not_differs_of_text (hnumbers : NumberTexts platform) {now old : RulesetPayload}
    (h : stableStringify platform (semanticPayload now) =
      stableStringify platform (semanticPayload old)) (component : Component) :
    ¬component.Differs now old := by
  have hkeys : ["registry", "scoring", "issueDiscovery", "mirrorLinkage",
    "languageWeights"].Nodup := by decide
  have hscoringKeys : ["activeModel", "constants", "semanticFlags"].Nodup := by decide
  have hflagKeys : ["usesDensityModel", "usesSaturationModel",
    "usesExponentialSaturation"].Nodup := by decide
  have hregistryKeys : ["repoCount", "totalEmissionShare", "repositories"].Nodup := by decide
  have hregistry := text_at hnumbers h hkeys 0 rfl rfl
  have hscoring := text_at hnumbers h hkeys 1 rfl rfl
  have hissues := text_at hnumbers h hkeys 2 rfl rfl
  have hmirror := text_at hnumbers h hkeys 3 rfl rfl
  have hlanguages := text_at hnumbers h hkeys 4 rfl rfl
  have hrepos := array_texts hnumbers (text_at hnumbers hregistry hregistryKeys 2 rfl rfl)
  rw [List.map_map, List.map_map] at hrepos
  cases component with
  | activeModel =>
    have hname := text_at hnumbers hscoring hscoringKeys 0 rfl rfl
    exact not_not.mpr (activeModel_name_inj (units_inj (string_inj hname)))
  | constants =>
    refine not_not.mpr (numbersJson_perm hnumbers ?_)
    exact text_at hnumbers hscoring hscoringKeys 1 rfl rfl
  | semanticFlags =>
    have hflags := text_at hnumbers hscoring hscoringKeys 2 rfl rfl
    have hdensity := bool_inj (text_at hnumbers hflags hflagKeys 0 rfl rfl)
    have hsaturation := bool_inj (text_at hnumbers hflags hflagKeys 1 rfl rfl)
    have hexponential := bool_inj (text_at hnumbers hflags hflagKeys 2 rfl rfl)
    exact not_not.mpr (semanticFlags_ext hdensity hsaturation hexponential)
  | repositories =>
    rintro ⟨name, hname⟩
    have hmap := congrArg Option.isSome (repoNamed_text hnumbers hrepos name)
    rw [Option.isSome_map, Option.isSome_map] at hmap
    exact hname hmap
  | hyperparameters =>
    rintro ⟨name, before, after, field, hbefore, hafter, hdiffers⟩
    have hmap := repoNamed_text hnumbers hrepos name
    rw [hbefore, hafter, Option.map_some, Option.map_some, Option.some.injEq] at hmap
    exact not_hyperparameterDiffers hnumbers (hyperparameter_text hnumbers hmap.symm field) hdiffers
  | branchEligibility =>
    have hrequired := text_at hnumbers hissues (by decide : ["branchEligibilityRequired"].Nodup) 0
      rfl rfl
    exact not_not.mpr (bool_inj hrequired)
  | solvedByPr =>
    have hrequired := text_at hnumbers hmirror (by decide : ["solvedByPrRequired"].Nodup) 0 rfl rfl
    exact not_not.mpr (bool_inj hrequired)
  | languageWeights =>
    have hhash := text_at hnumbers hlanguages (by decide : ["count", "contentHash"].Nodup) 1 rfl rfl
    exact not_not.mpr (nullableString_inj hhash)

end Payloads

/-! ## The entries of a report -/

section Entries

variable (platform : Platform) (current previous : UpstreamRulesetSnapshotRecord) (totalEvents : ℕ)

def activeModelEntry : Units :=
  units "active_model " ++ units previous.activeModel.name ++ units " -> " ++
    units current.activeModel.name

def constantsEntry : Units := units "scoring constants changed"

def totalsEntry : Units :=
  units "registry totals changed (" ++ countsText platform previous ++ units " -> " ++
    countsText platform current ++ units ")"

def registryEntry : Units :=
  units (toString totalEvents) ++ units " registry hyperparameter drift event(s)"

def branchEntry : Units :=
  units "branch eligibility " ++ boolText previous.payload.branchEligibilityRequired ++
    units " -> " ++ boolText current.payload.branchEligibilityRequired

def solvedEntry : Units :=
  units "solved_by_pr requirement " ++ boolText previous.payload.solvedByPrRequired ++
    units " -> " ++ boolText current.payload.solvedByPrRequired

def languagesEntry : Units := units "programming language weights changed"

/-- The texts of the seven comparisons that are made. -/
def comparisonEntries : List Units :=
  [activeModelEntry current previous, constantsEntry, totalsEntry platform current previous,
    registryEntry totalEvents, branchEntry current previous, solvedEntry current previous,
    languagesEntry]

/-- A text of the changes list that is about the component. The semantic flags have no
comparison: an entry about them would be any text besides those of the others. -/
def Component.IsEntry (text : Units) : Component → Prop
  | .activeModel => text = activeModelEntry current previous
  | .constants => text = constantsEntry
  | .semanticFlags => text ∉ comparisonEntries platform current previous totalEvents
  | .repositories | .hyperparameters => text = registryEntry totalEvents
  | .branchEligibility => text = branchEntry current previous
  | .solvedByPr => text = solvedEntry current previous
  | .languageWeights => text = languagesEntry

def noDriftSummary : Units :=
  units "Upstream source content changed without parsed semantic drift."

/-- Every component that differs has an entry and its area in the report, and a report that
speaks of no drift is made only where none differs. -/
structure Explained : Prop where
  entries : ∀ component : Component, component.Differs current.payload previous.payload →
    ∃ report, buildUpstreamDriftReport platform current (some previous) = some report ∧
      (∃ text ∈ report.changes, component.IsEntry platform current previous
        report.registryHyperparameterDrift.totalEvents text) ∧
      component.area ∈ report.affectedAreas
  silent : ∀ report, buildUpstreamDriftReport platform current (some previous) = some report →
    report.summary = noDriftSummary →
      ∀ component : Component, ¬component.Differs current.payload previous.payload

end Entries

section Events

variable {platform : Platform} {previous current : List RulesetRegistryRepo}

theorem repo_of_repoNamed {repos : List RulesetRegistryRepo} {name : Units}
    {repo : RulesetRegistryRepo} (h : repoNamed repos name = some repo) :
    repo ∈ repos ∧ repo.repo = name :=
  ⟨List.mem_reverse.mp (List.mem_of_find?_eq_some h), by simpa using List.find?_some h⟩

theorem registryEvents_of_hyperparameter (hnumbers : NumberTexts platform) {name : Units}
    {before after : RulesetRegistryRepo} {field : RegistryHyperparameterDriftField}
    (hbefore : repoNamed previous name = some before) (hafter : repoNamed current name = some after)
    (hdiffers : HyperparameterDiffers before after field) :
    registryEvents platform previous current ≠ [] := by
  obtain ⟨hmem, hname⟩ := repo_of_repoNamed hafter
  have hfield : field ∈ REGISTRY_DRIFT_COMPARABLE_FIELDS := by
    cases field with
    | repo => exact absurd hdiffers id
    | _ => decide
  have htext : stableStringify platform (registryHyperparameterValue before field) ≠
      stableStringify platform (registryHyperparameterValue after field) :=
    fun heq => not_hyperparameterDiffers hnumbers heq hdiffers
  obtain ⟨event, hevent⟩ : ∃ event, event ∈ changedRegistryRepoEvents platform before after :=
    ⟨_, List.mem_filterMap.mpr ⟨field, hfield, if_neg htext⟩⟩
  apply List.ne_nil_of_mem (a := event)
  apply List.mem_append_left
  refine List.mem_flatMap.mpr ⟨after, hmem, ?_⟩
  rw [hname, hbefore]
  exact hevent

theorem registryEvents_of_repositories {name : Units}
    (hdiffers : (repoNamed current name).isSome ≠ (repoNamed previous name).isSome) :
    registryEvents platform previous current ≠ [] := by
  cases hcurrent : repoNamed current name with
  | some repo =>
    have hprevious : repoNamed previous name = none := by
      rw [hcurrent] at hdiffers
      cases hprevious : repoNamed previous name with
      | none => rfl
      | some old => exact absurd (by rw [hprevious]; rfl) hdiffers
    obtain ⟨hmem, hname⟩ := repo_of_repoNamed hcurrent
    apply List.append_ne_nil_of_left_ne_nil
    intro hnil
    have hempty := List.flatMap_eq_nil_iff.mp hnil repo hmem
    rw [hname, hprevious] at hempty
    exact List.cons_ne_nil _ _ hempty
  | none =>
    cases hprevious : repoNamed previous name with
    | none => exact absurd (by rw [hcurrent, hprevious]) hdiffers
    | some repo =>
      obtain ⟨hmem, hname⟩ := repo_of_repoNamed hprevious
      apply List.append_ne_nil_of_right_ne_nil
      intro hnil
      have hempty := List.flatMap_eq_nil_iff.mp hnil repo hmem
      rw [hname, hcurrent] at hempty
      exact List.cons_ne_nil _ _ hempty

/-- The events of a difference survive the sort and the cap. -/
theorem take_one_events (h : registryEvents platform previous current ≠ []) :
    ∃ first, (buildRegistryHyperparameterDrift platform previous current).events.take 1 = [first] := by
  have hperm := List.perm_insertionSort
    (fun left right => eventPrecedes platform left right = true)
    (registryEvents platform previous current)
  unfold buildRegistryHyperparameterDrift
  dsimp only
  cases hsorted : (registryEvents platform previous current).insertionSort
      (fun left right => eventPrecedes platform left right = true) with
  | nil =>
    rw [hsorted] at hperm
    exact absurd hperm.nil_eq.symm h
  | cons first rest => exact ⟨first, rfl⟩

end Events

section Findings

variable {platform : Platform} {current previous : UpstreamRulesetSnapshotRecord}

theorem mem_ite_singleton {differs : Bool} (h : differs = true) (finding : DriftFinding) :
    finding ∈ (if differs then [finding] else []) := by
  rw [h]
  exact List.mem_singleton_self finding

/-- The drift of the registries of two rulesets. -/
def registryDrift (platform : Platform) (current previous : UpstreamRulesetSnapshotRecord) :
    RegistryHyperparameterDriftPayload :=
  buildRegistryHyperparameterDrift platform previous.payload.registry.repositories
    current.payload.registry.repositories

def findings (platform : Platform) (current previous : UpstreamRulesetSnapshotRecord) :
    List DriftFinding :=
  driftFindings platform current previous (registryDrift platform current previous)

theorem finding_of_events
    (h : registryEvents platform previous.payload.registry.repositories
      current.payload.registry.repositories ≠ []) :
    ∃ finding ∈ findings platform current previous, finding.area = .registry ∧
      finding.change = registryEntry (registryDrift platform current previous).totalEvents := by
  obtain ⟨first, hfirst⟩ := take_one_events h
  refine ⟨⟨.registry, first.severity,
    registryEntry (registryDrift platform current previous).totalEvents⟩, ?_, rfl, rfl⟩
  refine List.mem_append_left _ (List.mem_append_left _ (List.mem_append_left _
    (List.mem_append_right _ ?_)))
  unfold registryDrift
  rw [hfirst]
  exact List.mem_singleton_self _

/-- Each component but the semantic flags has its comparison. -/
theorem finding_of_differs (hnumbers : NumberTexts platform)
    (hcurrent : current.activeModel = current.payload.scoring.activeModel)
    (hprevious : previous.activeModel = previous.payload.scoring.activeModel)
    {component : Component} (hcomponent : component ≠ .semanticFlags)
    (h : component.Differs current.payload previous.payload) :
    ∃ finding ∈ findings platform current previous, finding.area = component.area ∧
      component.IsEntry platform current previous
        (registryDrift platform current previous).totalEvents finding.change := by
  cases component with
  | activeModel =>
    have hdiffers : current.activeModel ≠ previous.activeModel := by
      rw [hcurrent, hprevious]
      exact h
    exact ⟨_, List.mem_append_left _ (List.mem_append_left _ (List.mem_append_left _
      (List.mem_append_left _ (List.mem_append_left _ (List.mem_append_left _
        (mem_ite_singleton (decide_eq_true hdiffers) _)))))), rfl, rfl⟩
  | constants =>
    have htext : stableStringify platform (numbersJson current.payload.scoring.constants) ≠
        stableStringify platform (numbersJson previous.payload.scoring.constants) :=
      fun heq => h (numbersJson_perm hnumbers heq)
    exact ⟨_, List.mem_append_left _ (List.mem_append_left _ (List.mem_append_left _
      (List.mem_append_left _ (List.mem_append_left _ (List.mem_append_right _
        (mem_ite_singleton (decide_eq_true htext) _)))))), rfl, rfl⟩
  | semanticFlags => exact absurd rfl hcomponent
  | repositories =>
    obtain ⟨name, hname⟩ := h
    exact finding_of_events (registryEvents_of_repositories hname)
  | hyperparameters =>
    obtain ⟨name, before, after, field, hbefore, hafter, hdiffers⟩ := h
    exact finding_of_events (registryEvents_of_hyperparameter hnumbers hbefore hafter hdiffers)
  | branchEligibility =>
    have hrequired : current.payload.branchEligibilityRequired ≠
        previous.payload.branchEligibilityRequired := h
    exact ⟨_, List.mem_append_left _ (List.mem_append_left _ (List.mem_append_right _
      (mem_ite_singleton (decide_eq_true hrequired) _))), rfl, rfl⟩
  | solvedByPr =>
    have hrequired : current.payload.solvedByPrRequired ≠ previous.payload.solvedByPrRequired := h
    exact ⟨_, List.mem_append_left _ (List.mem_append_right _
      (mem_ite_singleton (decide_eq_true hrequired) _)), rfl, rfl⟩
  | languageWeights =>
    have hraw : current.payload.languageWeights.contentHash ≠
        previous.payload.languageWeights.contentHash := fun heq => h (congrArg Option.join heq)
    exact ⟨_, List.mem_append_right _ (mem_ite_singleton (decide_eq_true hraw) _), rfl, rfl⟩

theorem eq_of_mem_ite {differs : Bool} {finding other : DriftFinding}
    (h : finding ∈ (if differs then [other] else [])) : finding = other := by
  split_ifs at h
  · exact List.mem_singleton.mp h
  · exact absurd h List.not_mem_nil

/-- No entry is about anything but the seven comparisons. -/
theorem change_mem {finding : DriftFinding} (h : finding ∈ findings platform current previous) :
    finding.change ∈ comparisonEntries platform current previous
      (registryDrift platform current previous).totalEvents := by
  unfold findings driftFindings at h
  dsimp only at h
  simp only [List.mem_append] at h
  rcases h with (((((hactive | hconstants) | htotals) | hevents) | hbranch) | hsolved) | hlanguages
  · rw [eq_of_mem_ite hactive]
    exact List.mem_of_getElem? (i := 0) rfl
  · rw [eq_of_mem_ite hconstants]
    exact List.mem_of_getElem? (i := 1) rfl
  · rw [eq_of_mem_ite htotals]
    exact List.mem_of_getElem? (i := 2) rfl
  · obtain ⟨first, -, hfinding⟩ := List.mem_flatMap.mp hevents
    rw [List.mem_singleton.mp hfinding]
    exact List.mem_of_getElem? (i := 3) rfl
  · rw [eq_of_mem_ite hbranch]
    exact List.mem_of_getElem? (i := 4) rfl
  · rw [eq_of_mem_ite hsolved]
    exact List.mem_of_getElem? (i := 5) rfl
  · rw [eq_of_mem_ite hlanguages]
    exact List.mem_of_getElem? (i := 6) rfl

end Findings

section Reports

variable {platform : Platform} {current previous : UpstreamRulesetSnapshotRecord}

theorem mem_uniqueValues {α : Type} [DecidableEq α] (values : List α) (value : α) :
    value ∈ uniqueValues values ↔ value ∈ values := by
  have hfold : ∀ seen : List α, value ∈ values.foldl
      (fun seen value => if value ∈ seen then seen else seen ++ [value]) seen ↔
        value ∈ seen ∨ value ∈ values := by
    induction values with
    | nil => intro seen; simp
    | cons first rest ih =>
      intro seen
      rw [List.foldl_cons, ih, List.mem_cons]
      split_ifs with hseen
      · constructor
        · rintro (h | h)
          · exact Or.inl h
          · exact Or.inr (Or.inr h)
        · rintro (h | rfl | h)
          · exact Or.inl h
          · exact Or.inl hseen
          · exact Or.inr h
      · rw [List.mem_append, List.mem_singleton, or_assoc]
  rw [uniqueValues, hfold]
  simp

/-- A text that ends in something else than the full stop of the summary. -/
def EndsOpen (text : Units) : Prop := ∃ last, text.getLast? = some last ∧ last ≠ 46

theorem endsOpen_append (text : Units) {more : Units} (h : EndsOpen more) :
    EndsOpen (text ++ more) := by
  obtain ⟨last, hlast, hne⟩ := h
  exact ⟨last, List.mem_getLast?_append_of_mem_getLast? hlast, hne⟩

theorem endsOpen_of_mem {text : Units} {totalEvents : ℕ}
    (h : text ∈ comparisonEntries platform current previous totalEvents) : EndsOpen text := by
  have hbool : ∀ value : Bool, EndsOpen (boolText value) := by
    intro value
    cases value
    · exact ⟨101, by decide, by decide⟩
    · exact ⟨101, by decide, by decide⟩
  have hmodel : ∀ model : ActiveModel, EndsOpen (units model.name) := by
    intro model
    cases model
    · exact ⟨108, by decide, by decide⟩
    · exact ⟨108, by decide, by decide⟩
    · exact ⟨110, by decide, by decide⟩
  simp only [comparisonEntries, List.mem_cons, List.not_mem_nil, or_false] at h
  rcases h with rfl | rfl | rfl | rfl | rfl | rfl | rfl
  · exact endsOpen_append _ (hmodel _)
  · exact ⟨100, by decide, by decide⟩
  · exact endsOpen_append _ ⟨41, by decide, by decide⟩
  · exact endsOpen_append _ ⟨41, by decide, by decide⟩
  · exact endsOpen_append _ (hbool _)
  · exact endsOpen_append _ (hbool _)
  · exact ⟨100, by decide, by decide⟩

theorem endsOpen_joined {texts : List Units} (hne : texts ≠ []) (h : ∀ text ∈ texts, EndsOpen text) :
    EndsOpen (joined "; " texts) := by
  unfold joined
  induction texts with
  | nil => exact absurd rfl hne
  | cons text rest ih =>
    cases rest with
    | nil =>
      rw [List.intercalate_singleton]
      exact h text (List.mem_cons_self ..)
    | cons second rest =>
      rw [List.intercalate_cons_cons]
      exact endsOpen_append _ (ih (List.cons_ne_nil _ _) (List.forall_mem_cons.mp h).2)

/-- What the report on two different hashes says. -/
theorem report_of_hashes (h : current.semanticHash ≠ previous.semanticHash) :
    ∃ report, buildUpstreamDriftReport platform current (some previous) = some report ∧
      report.changes = (findings platform current previous).map (fun finding => finding.change) ∧
      report.affectedAreas = sortedAreas (if findings platform current previous = [] then [.source]
        else (findings platform current previous).map fun finding => finding.area) ∧
      report.registryHyperparameterDrift = registryDrift platform current previous ∧
      report.summary = if report.changes = [] then noDriftSummary else joined "; " report.changes := by
  unfold buildUpstreamDriftReport
  dsimp only
  rw [if_neg h]
  exact ⟨_, rfl, rfl, rfl, rfl, rfl⟩

theorem summary_eq_noDrift {texts : List Units}
    (htexts : ∀ text ∈ texts, EndsOpen text)
    (h : (if texts = [] then noDriftSummary else joined "; " texts) = noDriftSummary) :
    texts = [] := by
  by_contra hne
  rw [if_neg hne] at h
  obtain ⟨last, hlast, hopen⟩ := endsOpen_joined hne htexts
  rw [h] at hlast
  have hstop : noDriftSummary.getLast? = some 46 := by decide
  rw [hstop, Option.some.injEq] at hlast
  exact hopen hlast.symm

end Reports

section Main

variable (platform : Platform) (sources previousSources : List UpstreamSourceSnapshotRecord)

theorem semanticHash_build :
    (buildUpstreamRulesetSnapshot platform sources).semanticHash =
      semanticHashOf platform (buildUpstreamRulesetSnapshot platform sources).payload := rfl

/-- Two rulesets with different semantic texts have different hashes. -/
def HashesApart (now old : RulesetPayload) : Prop :=
  semanticHashOf platform now = semanticHashOf platform old →
    stableStringify platform (semanticPayload now) = stableStringify platform (semanticPayload old)

/-- The report explains what differs exactly when the semantic flags do not. -/
theorem explained_iff (hnumbers : NumberTexts platform)
    (hhashes : HashesApart platform (buildUpstreamRulesetSnapshot platform sources).payload
      (buildUpstreamRulesetSnapshot platform previousSources).payload) :
    Explained platform (buildUpstreamRulesetSnapshot platform sources)
        (buildUpstreamRulesetSnapshot platform previousSources) ↔
      (buildUpstreamRulesetSnapshot platform sources).payload.scoring.semanticFlags =
        (buildUpstreamRulesetSnapshot platform previousSources).payload.scoring.semanticFlags := by
  generalize hcurrent : buildUpstreamRulesetSnapshot platform sources = current at *
  generalize hprevious : buildUpstreamRulesetSnapshot platform previousSources = previous at *
  have hmodel : current.activeModel = current.payload.scoring.activeModel := by
    rw [← hcurrent]
    rfl
  have hmodel' : previous.activeModel = previous.payload.scoring.activeModel := by
    rw [← hprevious]
    rfl
  have hhash : current.semanticHash = semanticHashOf platform current.payload := by
    rw [← hcurrent, semanticHash_build]
  have hhash' : previous.semanticHash = semanticHashOf platform previous.payload := by
    rw [← hprevious, semanticHash_build]
  have hreport : ∀ component : Component, component.Differs current.payload previous.payload →
      current.semanticHash ≠ previous.semanticHash := by
    intro component hdiffers heq
    rw [hhash, hhash'] at heq
    exact not_differs_of_text hnumbers (hhashes heq) component hdiffers
  constructor
  · intro hexplained
    by_contra hflags
    obtain ⟨report, hsome, ⟨text, htext, hentry⟩, -⟩ := hexplained.entries .semanticFlags hflags
    obtain ⟨same, hsame, hchanges, -, hdrift, -⟩ := report_of_hashes (hreport .semanticFlags hflags)
    rw [hsame] at hsome
    cases hsome
    rw [hchanges] at htext
    obtain ⟨finding, hfinding, rfl⟩ := List.mem_map.mp htext
    apply hentry
    rw [hdrift]
    exact change_mem hfinding
  · intro hflags
    have hnotFlags : ∀ component : Component, component.Differs current.payload previous.payload →
        component ≠ .semanticFlags := by
      rintro component hdiffers rfl
      exact hdiffers hflags
    constructor
    · intro component hdiffers
      obtain ⟨report, hsome, hchanges, hareas, hdrift, -⟩ :=
        report_of_hashes (hreport component hdiffers)
      obtain ⟨finding, hfinding, harea, hentry⟩ :=
        finding_of_differs hnumbers hmodel hmodel' (hnotFlags component hdiffers) hdiffers
      refine ⟨report, hsome, ⟨finding.change, ?_, ?_⟩, ?_⟩
      · rw [hchanges]
        exact List.mem_map.mpr ⟨finding, hfinding, rfl⟩
      · rw [hdrift]
        exact hentry
      · rw [hareas, if_neg (List.ne_nil_of_mem hfinding), sortedAreas, List.mem_insertionSort,
          mem_uniqueValues]
        exact List.mem_map.mpr ⟨finding, hfinding, harea⟩
    · intro report hsome hsummary component hdiffers
      obtain ⟨same, hsame, hchanges, -, -, hsaid⟩ := report_of_hashes (hreport component hdiffers)
      rw [hsame] at hsome
      cases hsome
      obtain ⟨finding, hfinding, -, -⟩ :=
        finding_of_differs hnumbers hmodel hmodel' (hnotFlags component hdiffers) hdiffers
      rw [hsaid, hchanges] at hsummary
      have hnil := summary_eq_noDrift (fun text htext => by
        obtain ⟨other, hother, rfl⟩ := List.mem_map.mp htext
        exact endsOpen_of_mem (change_mem hother)) hsummary
      rw [List.map_eq_nil_iff] at hnil
      rw [hnil] at hfinding
      exact absurd hfinding List.not_mem_nil

end Main

/-! ## A flag that changes alone -/

/-- A number in lowest terms: whole numbers as JavaScript writes them. -/
def decimalText (value : ℚ) : Units :=
  (if value.num < 0 then [45] else []) ++ (RadixNumerals.shortest 10 value.num.natAbs ++
    if value.den = 1 then [] else 46 :: RadixNumerals.shortest 10 value.den)

section Decimals

theorem isDigit_of_mem_shortest {number unit : ℕ}
    (h : unit ∈ RadixNumerals.shortest 10 number) : RadixNumerals.isDigitIn 10 unit = true :=
  RadixNumerals.isDigitIn_of_mem_shortest (by decide) (by decide) h

theorem shortest_inj {number number' : ℕ}
    (h : RadixNumerals.shortest 10 number = RadixNumerals.shortest 10 number') :
    number = number' := by
  have hvalue := RadixNumerals.valueIn_shortest (by decide : 1 < 10) (by decide) number
  rw [h, RadixNumerals.valueIn_shortest (by decide) (by decide)] at hvalue
  exact hvalue.symm

/-- What stands behind the digits of the numerator. -/
def fractionText (den : ℕ) : Units := if den = 1 then [] else 46 :: RadixNumerals.shortest 10 den

theorem head_fractionText {den : ℕ} (unit : ℕ) (h : (fractionText den).head? = some unit) :
    RadixNumerals.isDigitIn 10 unit = false := by
  unfold fractionText at h
  split_ifs at h
  · exact absurd h (by simp)
  · rw [← Option.some.inj h]
    decide

theorem fractionText_inj {den den' : ℕ} (h : fractionText den = fractionText den') :
    den = den' := by
  unfold fractionText at h
  split_ifs at h with hone hone' hone'
  · rw [hone, hone']
  · exact shortest_inj (List.cons.inj h).2

theorem unsigned_inj {number number' den den' : ℕ}
    (h : RadixNumerals.shortest 10 number ++ fractionText den =
      RadixNumerals.shortest 10 number' ++ fractionText den') :
    number = number' ∧ den = den' := by
  have hread := fun number den => RadixNumerals.takeWhile_digits
    (fun _ hunit => @isDigit_of_mem_shortest number _ hunit) (@head_fractionText den)
  have hdigits := (hread number den).1
  have hrest := (hread number den).2
  rw [h, (hread number' den').1] at hdigits
  rw [h, (hread number' den').2] at hrest
  exact ⟨(shortest_inj hdigits).symm, (fractionText_inj hrest).symm⟩

/-- A sign is no digit. -/
theorem sign_ne_shortest (number : ℕ) (more text : Units) :
    RadixNumerals.shortest 10 number ++ more ≠ 45 :: text := by
  intro h
  cases hdigits : RadixNumerals.shortest 10 number with
  | nil => exact RadixNumerals.shortest_ne_nil number hdigits
  | cons unit rest =>
    rw [hdigits] at h
    have hmem : unit ∈ RadixNumerals.shortest 10 number := by
      rw [hdigits]
      exact List.mem_cons_self ..
    have hunit := isDigit_of_mem_shortest hmem
    rw [(List.cons.inj h).1] at hunit
    exact absurd hunit (by decide)

theorem decimalText_injective : Function.Injective decimalText := by
  intro value value' h
  have hparts : value.num = value'.num ∧ value.den = value'.den := by
    unfold decimalText at h
    change _ ++ (_ ++ fractionText value.den) = _ ++ (_ ++ fractionText value'.den) at h
    split_ifs at h with hneg hneg' hneg'
    · obtain ⟨hnum, hden⟩ := unsigned_inj (List.cons.inj h).2
      exact ⟨by omega, hden⟩
    · exact absurd h.symm (sign_ne_shortest _ _ _)
    · exact absurd h (sign_ne_shortest _ _ _)
    · obtain ⟨hnum, hden⟩ := unsigned_inj h
      exact ⟨by omega, hden⟩
  exact Rat.ext hparts.1 hparts.2

theorem decimalText_letters (value : ℚ) : ∀ unit ∈ decimalText value,
    (48 ≤ unit ∧ unit ≤ 57) ∨ unit = 43 ∨ unit = 45 ∨ unit = 46 ∨ unit = 101 := by
  intro unit hunit
  have hdigit : ∀ number, unit ∈ RadixNumerals.shortest 10 number → 48 ≤ unit ∧ unit ≤ 57 :=
    fun number hmem => RadixNumerals.isDigitIn_ten.mp (isDigit_of_mem_shortest hmem)
  unfold decimalText at hunit
  rcases List.mem_append.mp hunit with hsign | hunit
  · split_ifs at hsign
    · exact Or.inr (Or.inr (Or.inl (List.mem_singleton.mp hsign)))
    · exact absurd hsign List.not_mem_nil
  · rcases List.mem_append.mp hunit with hnumerator | hfraction
    · exact Or.inl (hdigit _ hnumerator)
    · split_ifs at hfraction
      · exact absurd hfraction List.not_mem_nil
      · rcases List.mem_cons.mp hfraction with hpoint | hdenominator
        · exact Or.inr (Or.inr (Or.inr (Or.inl hpoint)))
        · exact Or.inl (hdigit _ hdenominator)

theorem decimalText_ne_nil (value : ℚ) : decimalText value ≠ [] := by
  intro h
  unfold decimalText at h
  have hdigits := (List.append_eq_nil_iff.mp (List.append_eq_nil_iff.mp h).2).1
  exact RadixNumerals.shortest_ne_nil _ hdigits

end Decimals

/-- The platform on the two rulesets below, without digests. -/
def textPlatform : Platform where
  parseJson _ := none
  readNumber _ := .nan
  numberText := decimalText
  add left _ := left
  localeCompare left right := if left = right then .eq else if left < right then .lt else .gt
  atob text := .ok text
  utf8Decode := id
  digest _ := []

/-- One source was read: the mirror scoring with its density flag. -/
def densitySources : List UpstreamSourceSnapshotRecord :=
  [{ sourceKey := .mirrorScoring, commitSha := none, blobSha := none, contentSha256 := none,
      etag := none, status := .fetched, parsed := [("usesDensityModel", .bool true)],
      warnings := [] }]

def textOf (sources : List UpstreamSourceSnapshotRecord) : Units :=
  stableStringify textPlatform
    (semanticPayload (buildUpstreamRulesetSnapshot textPlatform sources).payload)

/-- With the SHA-256 digests of the two semantic texts. -/
def flagPlatform : Platform :=
  { textPlatform with
    digest := fun text =>
      if text = textOf densitySources then
        [173, 189, 221, 191, 234, 211, 112, 51, 107, 197, 56, 79, 70, 171, 198, 97, 251, 81,
      100, 54, 13, 180, 200, 138, 59, 92, 138, 191, 140, 75, 82, 111]
      else if text = textOf [] then
        [220, 141, 72, 242, 53, 43, 24, 225, 125, 4, 133, 32, 225, 225, 91, 143, 234, 91, 130,
      242, 105, 21, 240, 163, 36, 110, 207, 69, 54, 5, 20, 212]
      else [] }

def densityRuleset : UpstreamRulesetSnapshotRecord :=
  buildUpstreamRulesetSnapshot flagPlatform densitySources

def emptyRuleset : UpstreamRulesetSnapshotRecord := buildUpstreamRulesetSnapshot flagPlatform []

theorem flag_facts :
    densityRuleset.semanticHash ≠ emptyRuleset.semanticHash ∧
      (findings flagPlatform densityRuleset emptyRuleset).isEmpty = true := by
  decide +kernel

/-- The density flag alone has changed: the report has no entry, names only the source area
and speaks of no parsed drift. -/
theorem flag_change_unexplained :
    Component.semanticFlags.Differs densityRuleset.payload emptyRuleset.payload ∧
      ∃ report, buildUpstreamDriftReport flagPlatform densityRuleset (some emptyRuleset) =
          some report ∧
        report.changes = [] ∧ report.affectedAreas = [.source] ∧
        report.summary = noDriftSummary := by
  obtain ⟨hhash, hempty⟩ := flag_facts
  have hnil := List.isEmpty_iff.mp hempty
  obtain ⟨report, hsome, hchanges, hareas, -, hsummary⟩ := report_of_hashes hhash
  rw [hnil] at hchanges hareas
  rw [hchanges] at hsummary
  refine ⟨?_, report, hsome, hchanges, hareas, hsummary⟩
  intro hsame
  have hdensity := congrArg SemanticFlags.usesDensityModel hsame
  exact absurd hdensity (by decide)

theorem numberTexts_flagPlatform : NumberTexts flagPlatform where
  injective := decimalText_injective
  nonempty := decimalText_ne_nil
  letters := decimalText_letters

theorem hashesApart_flagPlatform :
    HashesApart flagPlatform densityRuleset.payload emptyRuleset.payload := by
  intro hhash
  unfold densityRuleset emptyRuleset at hhash
  rw [← semanticHash_build, ← semanticHash_build] at hhash
  exact absurd hhash flag_facts.1

theorem flag_change_explained_iff :
    Explained flagPlatform densityRuleset emptyRuleset ↔
      densityRuleset.payload.scoring.semanticFlags = emptyRuleset.payload.scoring.semanticFlags :=
  explained_iff flagPlatform densitySources [] numberTexts_flagPlatform hashesApart_flagPlatform

end Gittensory.DriftExplanation
