import Gittensory.ManifestParsing
import Mathlib.Data.Finset.Card
import Mathlib.Data.Finset.Dedup

/-!
A focus manifest and what the stored snapshot makes of it. Every value of an enumeration,
a flag, a clamped number or a trimmed text is read back from the mapping as it was written.
The items of lists and the texts of the review section are cut after they are trimmed, so
they come back shorter when the cut leaves a space at the end. A mode that is an object with a
`toString` of its own has no text for its warning, and the parser throws.
-/
namespace Gittensory.ManifestSnapshot

open CodeUnits JsCoercion JsValue JsonRecord ManifestParsing

section Values

variable {α : Type} (spelling : Spelling α)

@[simp] theorem readSpelling_toJson (value : Option α) (warning : JsonValue → Option Units) :
    readSpelling spelling (spelling.toJson value) warning = ⟨value, []⟩ := by
  cases value with
  | none => rfl
  | some value =>
    simp [readSpelling, Spelling.toJson]

@[simp] theorem normalizeOptionalGateMode_toJson (value : Option AdvisoryGate.GateRuleMode)
    (field : String) :
    normalizeOptionalGateMode (gateRuleModes.toJson value) field = ⟨value, []⟩ :=
  readSpelling_toJson _ value _

@[simp] theorem normalizeOptionalEnum_toJson (value : Option α) (field : String) :
    normalizeOptionalEnum (spelling.toJson value) field spelling = ⟨value, []⟩ :=
  readSpelling_toJson spelling value _

@[simp] theorem normalizeEnum_write (value fallback : α) (field : String) :
    normalizeEnum (some (.string (spelling.write value))) field spelling fallback =
      ⟨value, []⟩ := by
  simp [normalizeEnum, readSpelling]

@[simp] theorem normalizeOptionalBoolean_boolJson (value : Option Bool) (field : String) :
    normalizeOptionalBoolean (boolJson value) field = ⟨value, []⟩ := by
  cases value <;> rfl

theorem clamp_value {limit : ℤ} (hlimit : 0 ≤ limit) (clamped : Clamped limit) :
    clamp limit hlimit clamped.value = clamped := by
  obtain ⟨value, hlow, hhigh⟩ := clamped
  simp [clamp, hlow, hhigh]

@[simp] theorem normalizeOptionalScore_clampedJson (value : Option (Clamped 100))
    (field : String) : normalizeOptionalScore (clampedJson value) field = ⟨value, []⟩ := by
  cases value with
  | none => rfl
  | some clamped =>
    have hround : mathRound (clamped.value : ℚ) = clamped.value := by
      rw [mathRound, Int.floor_eq_iff]
      constructor <;> norm_num
    simp only [clampedJson, Option.map_some, normalizeOptionalScore, hround, clamp_value]

@[simp] theorem normalizeOptionalString_trimmedJson (value : Option TrimmedText)
    (field : String) : normalizeOptionalString (trimmedJson value) field = ⟨value, []⟩ := by
  cases value with
  | none => rfl
  | some trimmed =>
    obtain ⟨text, hnonempty, htrim⟩ := trimmed
    simp [normalizeOptionalString, trimmedJson, htrim, hnonempty]

end Values

section Sections

theorem gateEntries_keys (gate : FocusManifestGateConfig) :
    ((gateEntries gate).map Prod.fst).Nodup := by
  have hkeys : (gateEntries gate).map Prod.fst = ["enabled", "pack", "linkedIssue", "duplicates",
    "readiness", "slop", "aiReview", "mergeReadiness", "manifestPolicy",
    "firstTimeContributorGrace"] := rfl
  rw [hkeys]
  decide

theorem eq_default_of_not_present {gate : FocusManifestGateConfig} (h : gate.present = false) :
    gate = {} := by
  simp only [FocusManifestGateConfig.present, Bool.or_eq_false_iff, Option.isSome_eq_false_iff,
    Option.isNone_iff_eq_none] at h
  ext1 <;> simp [h]

theorem member_of_nestedRecord {value : Option JsonValue}
    {entries : List (String × Option JsonValue)} (hkeys : (entries.map Prod.fst).Nodup)
    (h : value = nestedRecord entries) : ∀ entry ∈ entries, member value entry.1 = entry.2 := by
  rw [h]
  exact reads_nestedRecord hkeys

theorem mappingWarnings_nestedRecord {value : Option JsonValue}
    {entries : List (String × Option JsonValue)} (h : value = nestedRecord entries)
    (warning : String) : mappingWarnings value warning = [] := by
  rw [h, nestedRecord]
  split_ifs <;> rfl

/-- Every entry is read by its key, a nested one by two, and there is nothing to warn of. -/
theorem parseGateConfig_of_reads {record : Record} {gate : FocusManifestGateConfig}
    (h : ∀ entry ∈ gateEntries gate, record.lookup entry.1 = entry.2) :
    parseGateConfig (some (.object record)) = ⟨gate, []⟩ := by
  simp only [gateEntries, List.forall_mem_cons] at h
  obtain ⟨henabled, hpack, hlinkedIssue, hduplicates, hreadiness, hslop, haiReview,
    hmergeReadiness, hmanifestPolicy, hgrace, -⟩ := h
  have hreadinessReads := member_of_nestedRecord (by simp [readinessEntries]) hreadiness
  have hslopReads := member_of_nestedRecord (by simp [slopEntries]) hslop
  have haiReviewReads := member_of_nestedRecord (by simp [aiReviewEntries]) haiReview
  simp only [readinessEntries, List.forall_mem_cons] at hreadinessReads
  simp only [slopEntries, List.forall_mem_cons] at hslopReads
  simp only [aiReviewEntries, List.forall_mem_cons] at haiReviewReads
  obtain ⟨hreadinessMode, hreadinessMinScore, -⟩ := hreadinessReads
  obtain ⟨hslopMode, hslopMinScore, hslopAiAdvisory, -⟩ := hslopReads
  obtain ⟨haiReviewMode, haiReviewByok, haiReviewProvider, haiReviewModel, -⟩ := haiReviewReads
  simp only [parseGateConfig, henabled, hpack, hlinkedIssue, hduplicates, hreadinessMode,
    hreadinessMinScore, hslopMode, hslopMinScore, hslopAiAdvisory, haiReviewMode, haiReviewByok,
    haiReviewProvider, haiReviewModel, hmergeReadiness, hmanifestPolicy, hgrace,
    mappingWarnings_nestedRecord hreadiness, mappingWarnings_nestedRecord hslop,
    mappingWarnings_nestedRecord haiReview, normalizeOptionalGateMode_toJson,
    normalizeOptionalEnum_toJson, normalizeOptionalBoolean_boolJson,
    normalizeOptionalScore_clampedJson, normalizeOptionalString_trimmedJson, List.append_nil]

theorem parseGateConfig_toJson (gate : FocusManifestGateConfig) :
    parseGateConfig (some (gateConfigToJson gate)) = ⟨gate, []⟩ := by
  unfold gateConfigToJson
  split_ifs with hpresent
  · rw [eq_default_of_not_present hpresent]
    rfl
  · exact parseGateConfig_of_reads (reads_recordOf (gateEntries_keys gate))

theorem normalizeAutonomyPolicy_json (declared : DeclaredAutonomy) :
    normalizeAutonomyPolicy (autonomyJson declared) = declared.policy := by
  funext actionClass
  have hkeys : ((actionClassKeys.allowed.map fun actionClass => (actionClassKeys.name actionClass,
      autonomyLevels.toJson (declared.policy actionClass))).map Prod.fst).Nodup := by
    have hnames : (actionClassKeys.allowed.map fun actionClass =>
        (actionClassKeys.name actionClass,
          autonomyLevels.toJson (declared.policy actionClass))).map Prod.fst =
        ["review", "request_changes", "approve", "merge", "close", "label"] := rfl
    rw [hnames]
    decide
  have hread := reads_recordOf hkeys _
    (List.mem_map_of_mem (actionClassKeys.complete actionClass))
  unfold normalizeAutonomyPolicy autonomyJson
  simp only [member, hread]
  cases declared.policy actionClass with
  | none => rfl
  | some level => simp [Spelling.toJson]

theorem declaredAutonomy_policy (declared : DeclaredAutonomy) :
    declaredAutonomy declared.policy = some declared := by
  obtain ⟨policy, actionClass, hdeclares⟩ := declared
  exact dif_pos ⟨actionClass, actionClassKeys.complete actionClass, hdeclares⟩

theorem normalizeAutoMaintainPolicy_json (policy : ClampedAutoMaintain) :
    normalizeAutoMaintainPolicy
      [("requireApprovals", .number (.finite policy.requireApprovals.value)),
        ("mergeMethod", .string (autoMergeMethods.write policy.mergeMethod))] = policy := by
  have htrunc : mathTruncInt (policy.requireApprovals.value : ℚ) =
      policy.requireApprovals.value := by
    simp [mathTruncInt]
  obtain ⟨approvals, method⟩ := policy
  have hmethod : List.lookup "mergeMethod"
      [("requireApprovals", JsonValue.number (.finite approvals.value)),
        ("mergeMethod", .string (autoMergeMethods.write method))] =
      some (.string (autoMergeMethods.write method)) := rfl
  simp [normalizeAutoMaintainPolicy, htrunc, clamp_value, hmethod]

theorem settingsEntries_keys (settings : FocusManifestSettings) :
    ((settingsEntries settings).map Prod.fst).Nodup := by
  have hkeys : (settingsEntries settings).map Prod.fst = ["commentMode", "publicAudienceMode",
    "publicSignalLevel", "checkRunMode", "checkRunDetailLevel", "gateCheckMode",
    "linkedIssueGateMode", "duplicatePrGateMode", "qualityGateMode", "qualityGateMinScore",
    "aiReviewMode", "aiReviewProvider", "aiReviewModel", "gittensorLabel", "publicSurface",
    "autonomy", "autoMaintain", "aiReviewByok", "autoLabelEnabled", "createMissingLabel",
    "includeMaintainerAuthors", "requireLinkedIssue", "backfillEnabled", "privateTrustEnabled",
    "agentPaused", "agentDryRun"] := rfl
  rw [hkeys]
  decide

theorem parseSettingsOverride_of_reads {record : Record} {settings : FocusManifestSettings}
    (h : ∀ entry ∈ settingsEntries settings, record.lookup entry.1 = entry.2) :
    parseSettingsOverride (some (.object record)) = ⟨settings, []⟩ := by
  rw [settingsEntries, List.forall_mem_append, List.forall_mem_map] at h
  obtain ⟨hvalues, hflags⟩ := h
  simp only [List.forall_mem_cons] at hvalues
  obtain ⟨hcommentMode, haudience, hsignal, hcheckRun, hdetail, hgateCheck, hlinkedIssue,
    hduplicate, hquality, hminScore, haiReview, hprovider, hmodel, hlabel, hsurface, hautonomy,
    hautoMaintain, -⟩ := hvalues
  have hflag : ∀ key, settingsFlag record key = ⟨settings.flags key, []⟩ := by
    intro key
    rw [settingsFlag, hflags key (settingsFlagKeys.complete key)]
    exact normalizeOptionalBoolean_boolJson _ _
  have hautonomyValue : ((settings.autonomy.map autonomyJson).bind fun declared =>
      declaredAutonomy (normalizeAutonomyPolicy declared)) = settings.autonomy := by
    cases settings.autonomy with
    | none => rfl
    | some declared =>
      rw [Option.map_some, Option.bind_some, normalizeAutonomyPolicy_json, declaredAutonomy_policy]
  have hautoMaintainValue : (parseSettingsOverride (some (.object record))).value.autoMaintain =
      settings.autoMaintain := by
    simp only [parseSettingsOverride, hautoMaintain]
    cases settings.autoMaintain with
    | none => rfl
    | some policy => exact congrArg some (normalizeAutoMaintainPolicy_json policy)
  have hothers : parseSettingsOverride (some (.object record)) =
      ⟨{ settings with
          autoMaintain := (parseSettingsOverride (some (.object record))).value.autoMaintain },
        []⟩ := by
    simp only [parseSettingsOverride, hcommentMode, haudience, hsignal, hcheckRun, hdetail,
      hgateCheck, hlinkedIssue, hduplicate, hquality, hminScore, haiReview, hprovider, hmodel,
      hlabel, hsurface, hautonomy, hflag, hautonomyValue,
      normalizeOptionalGateMode_toJson, normalizeOptionalEnum_toJson,
      normalizeOptionalScore_clampedJson, normalizeOptionalString_trimmedJson, List.append_nil]
    rfl
  rw [hothers, hautoMaintainValue]

theorem parseSettingsOverride_toJson (settings : FocusManifestSettings) :
    parseSettingsOverride (some (settingsOverrideToJson settings)) = ⟨settings, []⟩ := by
  unfold settingsOverrideToJson
  split_ifs with hempty
  · have hnone : ∀ entry ∈ settingsEntries settings, List.lookup entry.1 [] = entry.2 :=
      fun entry hmem => (recordOf_eq_nil_iff.mp hempty entry hmem).symm
    exact parseSettingsOverride_of_reads hnone
  · exact parseSettingsOverride_of_reads (reads_recordOf (settingsEntries_keys settings))

theorem reviewFieldEntries_keys (fields : ReviewFieldKey → Option Bool) :
    ((reviewFieldEntries fields).map Prod.fst).Nodup := by
  have hkeys : (reviewFieldEntries fields).map Prod.fst = ["linkedIssue", "relatedWork",
    "reviewLoad", "validationEvidence", "openPrQueue", "contributorContext", "gateResult"] := rfl
  rw [hkeys]
  decide

/-- The texts of a section once they are read again. -/
def reread (review : FocusManifestReviewConfig) : FocusManifestReviewConfig :=
  { review with
    footerText := (parsePublicSafeText (textJson review.footerText) "review.footer.text").value
    note := (parsePublicSafeText (textJson review.note) "review.note").value }

theorem parseReviewConfig_of_reads {record : Record} {review : FocusManifestReviewConfig}
    (h : ∀ entry ∈ reviewEntries review, record.lookup entry.1 = entry.2) :
    (parseReviewConfig (some (.object record))).value = reread review := by
  simp only [reviewEntries, List.forall_mem_cons] at h
  obtain ⟨hfooter, hnote, hfields, -⟩ := h
  have hfooterText : member (nestedRecord [("text", textJson review.footerText)]) "text" =
      textJson review.footerText := reads_nestedRecord (by simp) _ List.mem_cons_self
  have hflags : (fun key => (reviewField (nestedRecord (reviewFieldEntries review.fields))
      key).value) = review.fields := by
    funext key
    have hread := reads_nestedRecord (reviewFieldEntries_keys review.fields) _
      (List.mem_map_of_mem (reviewFieldKeys.complete key))
    rw [reviewField, hread, normalizeOptionalBoolean_boolJson]
  simp only [parseReviewConfig, hfooter, hnote, hfields, hfooterText, hflags, reread]

theorem parseReviewConfig_toJson (review : FocusManifestReviewConfig) :
    (parseReviewConfig (some (reviewConfigToJson review))).value = reread review := by
  have hkeys : ((reviewEntries review).map Prod.fst).Nodup := by
    have hnames : (reviewEntries review).map Prod.fst = ["footer", "note", "fields"] := rfl
    rw [hnames]
    decide
  unfold reviewConfigToJson
  split_ifs with hpresent
  · simp only [FocusManifestReviewConfig.present, Bool.or_eq_false_iff, Option.isSome_eq_false_iff,
      Option.isNone_iff_eq_none, Bool.not_eq_false', List.isEmpty_iff] at hpresent
    obtain ⟨⟨hfooter, hnote⟩, hfields⟩ := hpresent
    have hnone : ∀ entry ∈ reviewEntries review, List.lookup entry.1 [] = entry.2 := by
      simp only [reviewEntries, List.forall_mem_cons, hfooter, hnote, nestedRecord, hfields]
      exact ⟨rfl, rfl, rfl, nofun⟩
    exact parseReviewConfig_of_reads hnone
  · exact parseReviewConfig_of_reads (reads_recordOf hkeys)

end Sections

section Lists

/-- The item that a list entry is normalized to. -/
def normalizedEntry : JsonValue → Option Units
  | .string entry => if trim entry = [] then none else some ((trim entry).take maxItemLength)
  | _ => none

/-- Longer than an item may be, with a space where the item ends. -/
def CutAtSpace (entry : Units) : Prop :=
  maxItemLength < (trim entry).length ∧
    ∃ unit, (trim entry)[maxItemLength - 1]? = some unit ∧ isSpace unit = true

/-- The entry is read: fewer than the allowed items come before it. -/
def Considered (value : Option JsonValue) (entry : Units) : Prop :=
  ∃ earlier later, value = some (.array (earlier ++ .string entry :: later)) ∧
    (earlier.filterMap normalizedEntry).toFinset.card < maxListItems

theorem CutAtSpace.trim_ne_nil {entry : Units} (h : CutAtSpace entry) : trim entry ≠ [] := by
  intro hempty
  have hlong := h.1
  rw [hempty] at hlong
  exact absurd hlong (Nat.not_lt_zero _)

theorem take_maxItemLength_ne_nil {text : Units} (h : text ≠ []) :
    text.take maxItemLength ≠ [] := by
  intro hnil
  rcases List.take_eq_nil_iff.mp hnil with hzero | hempty
  · exact absurd hzero (by decide)
  · exact h hempty

theorem trim_take_iff (entry : Units) :
    trim ((trim entry).take maxItemLength) = (trim entry).take maxItemLength ↔
      ¬ CutAtSpace entry := by
  rw [trim_eq_self_iff]
  have hhead : ∀ unit, ((trim entry).take maxItemLength).head? = some unit →
      isSpace unit = false := by
    intro unit hunit
    rw [List.head?_take, if_neg (by decide)] at hunit
    exact head?_trim hunit
  by_cases hlong : maxItemLength < (trim entry).length
  · have hlast : ((trim entry).take maxItemLength).getLast? = (trim entry)[maxItemLength - 1]? := by
      rw [List.getLast?_take, if_neg (by decide), List.getElem?_eq_getElem (by omega)]
      rfl
    rw [hlast]
    constructor
    · rintro ⟨-, hspace⟩ ⟨-, unit, hunit, hisSpace⟩
      rw [hspace unit hunit] at hisSpace
      cases hisSpace
    · intro hcut
      refine ⟨hhead, fun unit hunit => ?_⟩
      cases hisSpace : isSpace unit with
      | false => rfl
      | true => exact absurd ⟨hlong, unit, hunit, hisSpace⟩ hcut
  · rw [List.take_of_length_le (by omega)] at hhead ⊢
    refine iff_of_true ⟨hhead, fun unit => getLast?_trim⟩ fun hcut => hlong hcut.1

theorem normalizeEntries_cons (field : String) (entry : JsonValue) (rest : List JsonValue)
    (result : List Units) :
    (normalizeEntries field (entry :: rest) result).value =
      match normalizedEntry entry with
      | none => (normalizeEntries field rest result).value
      | some item =>
          if maxListItems ≤ (withItem result item).length then withItem result item
          else (normalizeEntries field rest (withItem result item)).value := by
  cases entry with
  | string text =>
    rw [normalizeEntries, normalizedEntry]
    by_cases hempty : trim text = []
    · rw [if_pos hempty, if_pos hempty]
    · rw [if_neg hempty, if_neg hempty]
      dsimp only
      by_cases hfull : maxListItems ≤ (withItem result ((trim text).take maxItemLength)).length
      · rw [if_pos hfull, if_pos hfull]
      · rw [if_neg hfull, if_neg hfull]
  | _ => rfl

theorem mem_withItem {result : List Units} {item other : Units} :
    other ∈ withItem result item ↔ other ∈ result ∨ other = item := by
  unfold withItem
  split_ifs with hmem
  · constructor
    · exact Or.inl
    · rintro (h | rfl)
      · exact h
      · exact hmem
  · rw [List.mem_append, List.mem_singleton]

theorem nodup_withItem {result : List Units} (h : result.Nodup) (item : Units) :
    (withItem result item).Nodup := by
  unfold withItem
  split_ifs with hmem
  · exact h
  · exact List.nodup_append.mpr ⟨h, List.nodup_singleton item, by
      intro a ha b hb
      obtain rfl := List.mem_singleton.mp hb
      rintro rfl
      exact hmem ha⟩

theorem toFinset_withItem (result : List Units) (item : Units) :
    (withItem result item).toFinset = insert item result.toFinset := by
  ext other
  rw [List.mem_toFinset, mem_withItem, Finset.mem_insert, List.mem_toFinset, or_comm]

/-- Where an item can stand in a list with a first one. -/
theorem exists_split_cons {α : Type} {first : α} {rest : List α} {p : List α → α → Prop} :
    (∃ earlier item later, first :: rest = earlier ++ item :: later ∧ p earlier item) ↔
      p [] first ∨
        ∃ earlier item later, rest = earlier ++ item :: later ∧ p (first :: earlier) item := by
  constructor
  · rintro ⟨earlier, item, later, hsplit, hp⟩
    cases earlier with
    | nil =>
      obtain ⟨rfl, -⟩ := List.cons.inj hsplit
      exact Or.inl hp
    | cons other earlier =>
      obtain ⟨rfl, hrest⟩ := List.cons.inj hsplit
      exact Or.inr ⟨earlier, item, later, hrest, hp⟩
  · rintro (hp | ⟨earlier, item, later, rfl, hp⟩)
    · exact ⟨[], first, rest, rfl, hp⟩
    · exact ⟨first :: earlier, item, later, rfl, hp⟩

/-- What a list holds: the items before it, and those of the entries that are read. -/
theorem mem_normalizeEntries (field : String) {entries : List JsonValue} {result : List Units}
    (hnodup : result.Nodup) (hroom : result.length < maxListItems) (item : Units) :
    item ∈ (normalizeEntries field entries result).value ↔ item ∈ result ∨
      ∃ earlier entry later, entries = earlier ++ entry :: later ∧
        (result.toFinset ∪ (earlier.filterMap normalizedEntry).toFinset).card < maxListItems ∧
        normalizedEntry entry = some item := by
  induction entries generalizing result with
  | nil =>
    constructor
    · exact Or.inl
    · rintro (h | ⟨earlier, entry, later, hentries, -⟩)
      · exact h
      · exact absurd hentries.symm (List.append_ne_nil_of_right_ne_nil _ (List.cons_ne_nil _ _))
  | cons entry rest ih =>
    rw [normalizeEntries_cons, exists_split_cons]
    cases hitem : normalizedEntry entry with
    | none =>
      rw [ih hnodup hroom]
      simp only [List.filterMap_cons_none hitem, reduceCtorEq, and_false, false_or]
    | some normalized =>
      have hinsert : ∀ earlier : List JsonValue,
          result.toFinset ∪ ((entry :: earlier).filterMap normalizedEntry).toFinset =
            (withItem result normalized).toFinset ∪
              (earlier.filterMap normalizedEntry).toFinset := by
        intro earlier
        rw [List.filterMap_cons_some hitem, List.toFinset_cons, toFinset_withItem,
          Finset.union_insert, Finset.insert_union]
      have hfirst : (result.toFinset ∪ ([].filterMap normalizedEntry).toFinset).card <
          maxListItems := by
        rw [List.filterMap_nil, List.toFinset_nil, Finset.union_empty,
          List.toFinset_card_of_nodup hnodup]
        exact hroom
      simp only [hinsert, hfirst, true_and, Option.some.injEq]
      rw [@eq_comm _ normalized item, ← or_assoc, ← mem_withItem]
      split_ifs with hfull
      · refine (or_iff_left ?_).symm
        rintro ⟨earlier, later, others, -, hcard, -⟩
        have hle : (withItem result normalized).toFinset.card ≤
            ((withItem result normalized).toFinset ∪
              (earlier.filterMap normalizedEntry).toFinset).card :=
          Finset.card_le_card Finset.subset_union_left
        rw [List.toFinset_card_of_nodup (nodup_withItem hnodup normalized)] at hle
        omega
      · exact ih (nodup_withItem hnodup normalized) (Nat.lt_of_not_le hfull)

theorem normalizedEntry_eq_some_iff {entry : JsonValue} {item : Units} :
    normalizedEntry entry = some item ↔ ∃ text, entry = .string text ∧ trim text ≠ [] ∧
      (trim text).take maxItemLength = item := by
  cases entry with
  | string text =>
    rw [normalizedEntry]
    split_ifs with hempty
    · simp [hempty]
    · simp [hempty]
  | _ => simp [normalizedEntry]

theorem mem_normalizeStringList {value : Option JsonValue} {field : String} {item : Units} :
    item ∈ (normalizeStringList value field).value ↔ ∃ entry, Considered value entry ∧
      trim entry ≠ [] ∧ (trim entry).take maxItemLength = item := by
  rcases value with _ | value
  · simp [normalizeStringList, Considered]
  cases value with
  | array items =>
    rw [normalizeStringList, mem_normalizeEntries field List.nodup_nil (by decide)]
    simp only [List.not_mem_nil, false_or, List.toFinset_nil, Finset.empty_union,
      normalizedEntry_eq_some_iff, Considered, Option.some.injEq, JsonValue.array.injEq]
    constructor
    · rintro ⟨earlier, entry, later, hitems, hcard, text, rfl, hne, hitem⟩
      exact ⟨text, ⟨earlier, later, hitems, hcard⟩, hne, hitem⟩
    · rintro ⟨text, ⟨earlier, later, hitems, hcard⟩, hne, hitem⟩
      exact ⟨earlier, .string text, later, hitems, hcard, text, rfl, hne, hitem⟩
  | _ => simp [normalizeStringList, Considered]

theorem length_withItem_le (result : List Units) (item : Units) :
    (withItem result item).length ≤ result.length + 1 := by
  unfold withItem
  split_ifs
  · omega
  · rw [List.length_append, List.length_singleton]

/-- No item stands twice, and there are not too many. -/
theorem normalizeEntries_bounds (field : String) {entries : List JsonValue} {result : List Units}
    (hnodup : result.Nodup) (hroom : result.length < maxListItems) :
    (normalizeEntries field entries result).value.Nodup ∧
      (normalizeEntries field entries result).value.length ≤ maxListItems := by
  induction entries generalizing result with
  | nil => exact ⟨hnodup, Nat.le_of_lt hroom⟩
  | cons entry rest ih =>
    rw [normalizeEntries_cons]
    cases normalizedEntry entry with
    | none => exact ih hnodup hroom
    | some item =>
      have hlength := length_withItem_le result item
      dsimp only
      split_ifs with hfull
      · exact ⟨nodup_withItem hnodup item, by omega⟩
      · exact ih (nodup_withItem hnodup item) (Nat.lt_of_not_le hfull)

theorem normalizeStringList_bounds (value : Option JsonValue) (field : String) :
    (normalizeStringList value field).value.Nodup ∧
      (normalizeStringList value field).value.length ≤ maxListItems := by
  unfold normalizeStringList
  split
  · exact ⟨List.nodup_nil, Nat.zero_le _⟩
  · exact ⟨List.nodup_nil, Nat.zero_le _⟩
  · exact normalizeEntries_bounds field List.nodup_nil (by decide)
  · exact ⟨List.nodup_nil, Nat.zero_le _⟩

/-- Items that no step changes are read as they are. -/
theorem normalizeEntries_strings (field : String) {items result : List Units}
    (hitems : ∀ item ∈ items, item ≠ [] ∧ item.length ≤ maxItemLength ∧ trim item = item)
    (hnodup : (result ++ items).Nodup) (hlength : (result ++ items).length ≤ maxListItems) :
    (normalizeEntries field (items.map .string) result).value = result ++ items := by
  induction items generalizing result with
  | nil => exact (List.append_nil result).symm
  | cons item items ih =>
    obtain ⟨⟨hne, hshort, htrim⟩, hrest⟩ := List.forall_mem_cons.mp hitems
    have hitem : normalizedEntry (.string item) = some item := by
      rw [normalizedEntry, htrim, if_neg hne, List.take_of_length_le hshort]
    have hnew : item ∉ result := by
      intro hmem
      exact (List.nodup_append.mp hnodup).2.2 item hmem item List.mem_cons_self rfl
    have hwith : withItem result item = result ++ [item] := if_neg hnew
    rw [List.map_cons, normalizeEntries_cons, hitem]
    dsimp only
    rw [hwith]
    have hassoc : result ++ item :: items = (result ++ [item]) ++ items :=
      (List.append_cons result item items)
    rw [hassoc] at hnodup hlength ⊢
    split_ifs with hfull
    · have hnone : items = [] := by
        rw [List.length_append] at hlength
        exact List.length_eq_zero_iff.mp (by omega)
      rw [hnone, List.append_nil]
    · exact ih hrest hnodup hlength

/-- What reading a kept list again gives, exactly when no item was cut at a space. -/
theorem normalizeStringList_again_iff (keep : Units → Bool) (value : Option JsonValue)
    (field : String) :
    (normalizeStringList (some (listJson ((normalizeStringList value field).value.filter keep)))
        field).value.filter keep = (normalizeStringList value field).value.filter keep ↔
      ∀ entry, Considered value entry → keep ((trim entry).take maxItemLength) = true →
        ¬ CutAtSpace entry := by
  have hbounds := normalizeStringList_bounds value field
  have hshort : ∀ item ∈ (normalizeStringList value field).value,
      item ≠ [] ∧ item.length ≤ maxItemLength := by
    intro item hmem
    obtain ⟨entry, -, hne, rfl⟩ := mem_normalizeStringList.mp hmem
    exact ⟨take_maxItemLength_ne_nil hne, List.length_take_le _ _⟩
  constructor
  · intro h entry hconsidered hkeep hcut
    have hstored : (trim entry).take maxItemLength ∈ (normalizeStringList value field).value :=
      mem_normalizeStringList.mpr ⟨entry, hconsidered, hcut.trim_ne_nil, rfl⟩
    have hmem : (trim entry).take maxItemLength ∈
        (normalizeStringList value field).value.filter keep :=
      List.mem_filter.mpr ⟨hstored, hkeep⟩
    rw [← h] at hmem
    obtain ⟨again, ⟨earlier, later, hjson, -⟩, -, hagain⟩ :=
      mem_normalizeStringList.mp (List.mem_filter.mp hmem).1
    have hstored : again ∈ (normalizeStringList value field).value := by
      have hitems := JsonValue.array.inj (Option.some.inj hjson)
      have hstring : JsonValue.string again ∈
          ((normalizeStringList value field).value.filter keep).map .string := by
        rw [hitems]
        simp
      obtain ⟨item, hitem, heq⟩ := List.mem_map.mp hstring
      rw [← JsonValue.string.inj heq]
      exact (List.mem_filter.mp hitem).1
    have htake : (trim again).take maxItemLength = trim again :=
      List.take_of_length_le ((length_trim_le again).trans (hshort again hstored).2)
    rw [htake] at hagain
    refine (trim_take_iff entry).mp ?_ hcut
    rw [← hagain, trim_trim]
  · intro h
    have hitems : ∀ item ∈ (normalizeStringList value field).value.filter keep,
        item ≠ [] ∧ item.length ≤ maxItemLength ∧ trim item = item := by
      intro item hmem
      obtain ⟨hstored, hkeep⟩ := List.mem_filter.mp hmem
      obtain ⟨hne, hlength⟩ := hshort item hstored
      obtain ⟨entry, hconsidered, -, rfl⟩ := mem_normalizeStringList.mp hstored
      exact ⟨hne, hlength, (trim_take_iff entry).mpr (h entry hconsidered hkeep)⟩
    have hagain : (normalizeStringList
        (some (listJson ((normalizeStringList value field).value.filter keep))) field).value =
        (normalizeStringList value field).value.filter keep := by
      apply normalizeEntries_strings field hitems (hbounds.1.filter keep)
      exact (List.length_filter_le _ _).trans hbounds.2
    rw [hagain]
    exact List.filter_eq_self.mpr fun item hmem => (List.mem_filter.mp hmem).2

/-- The entries of a list are read without one that is cut at a space. -/
def ListSteady (value : Option JsonValue) : Prop :=
  ∀ entry, Considered value entry → ¬ CutAtSpace entry

theorem normalizeStringList_reread_iff (value : Option JsonValue) (field : String) :
    (normalizeStringList (some (listJson (normalizeStringList value field).value)) field).value =
      (normalizeStringList value field).value ↔ ListSteady value := by
  unfold ListSteady
  have h := normalizeStringList_again_iff (fun _ => true) value field
  simpa only [List.filter_true, forall_const] using h

end Lists

section Texts

/-- The text that a public-safe text is read from leaves no space at its cut. -/
def TextSteady (value : Option JsonValue) : Prop :=
  ∀ text, value = some (.string text) →
    isFocusManifestPublicSafe ((trim text).take maxItemLength) = true → ¬ CutAtSpace text

theorem parsePublicSafeText_string (text : Units) (field : String) :
    (parsePublicSafeText (some (.string text)) field).value =
      if trim text ≠ [] ∧ isFocusManifestPublicSafe ((trim text).take maxItemLength) = true then
        some ((trim text).take maxItemLength)
      else none := by
  unfold parsePublicSafeText normalizeOptionalString
  by_cases hempty : trim text = []
  · simp [hempty]
  · by_cases hsafe : isFocusManifestPublicSafe ((trim text).take maxItemLength) = true
    · simp [hempty, hsafe]
    · simp [hempty, hsafe]

theorem parsePublicSafeText_again_iff (value : Option JsonValue) (field : String) :
    (parsePublicSafeText (textJson (parsePublicSafeText value field).value) field).value =
      (parsePublicSafeText value field).value ↔ TextSteady value := by
  unfold TextSteady
  rcases value with _ | value
  · exact iff_of_true rfl nofun
  cases value with
  | string text =>
    rw [parsePublicSafeText_string]
    split_ifs with hkept
    · obtain ⟨hne, hsafe⟩ := hkept
      have hshort : ((trim text).take maxItemLength).length ≤ maxItemLength :=
        List.length_take_le _ _
      rw [textJson, Option.map_some, parsePublicSafeText_string,
        List.take_of_length_le ((length_trim_le _).trans hshort)]
      constructor
      · intro h other hother _
        obtain rfl := JsonValue.string.inj (Option.some.inj hother)
        rw [← trim_take_iff]
        split_ifs at h
        exact Option.some.inj h
      · intro h
        have hsteady := (trim_take_iff text).mpr (h text rfl hsafe)
        rw [hsteady, if_pos ⟨take_maxItemLength_ne_nil hne, hsafe⟩]
    · refine iff_of_true rfl fun other hother hsafe hcut => ?_
      obtain rfl := JsonValue.string.inj (Option.some.inj hother)
      exact hkept ⟨hcut.trim_ne_nil, hsafe⟩
  | _ => exact iff_of_true rfl nofun

theorem parseReviewConfig_footerText (value : Option JsonValue) :
    (parseReviewConfig value).value.footerText =
      (parsePublicSafeText (member (member value "footer") "text") "review.footer.text").value := by
  rcases value with _ | value
  · rfl
  · cases value <;> rfl

theorem parseReviewConfig_note (value : Option JsonValue) :
    (parseReviewConfig value).value.note =
      (parsePublicSafeText (member value "note") "review.note").value := by
  rcases value with _ | value
  · rfl
  · cases value <;> rfl

theorem reread_parseReviewConfig_iff (value : Option JsonValue) :
    reread (parseReviewConfig value).value = (parseReviewConfig value).value ↔
      TextSteady (member (member value "footer") "text") ∧ TextSteady (member value "note") := by
  rw [← parsePublicSafeText_again_iff _ "review.footer.text",
    ← parsePublicSafeText_again_iff _ "review.note", ← parseReviewConfig_footerText,
    ← parseReviewConfig_note, FocusManifestReviewConfig.ext_iff]
  unfold reread
  simp

end Texts

section Warnings

/-- `String(value)` does not throw, where there is a value. -/
def HasText (value : Option JsonValue) : Prop :=
  ∀ shown, value = some shown → isPrintable shown = true

/-- The values of `gate:` that a warning shows. -/
def shownOfGate (gate : Option JsonValue) : List (Option JsonValue) :=
  [member gate "pack", member gate "linkedIssue", member gate "duplicates",
    member (member gate "readiness") "mode", member (member gate "slop") "mode",
    member (member gate "aiReview") "mode", member (member gate "aiReview") "provider",
    member gate "mergeReadiness", member gate "manifestPolicy"]

/-- The values of `settings:` that a warning shows. -/
def shownOfSettings (settings : Option JsonValue) : List (Option JsonValue) :=
  ["commentMode", "publicAudienceMode", "publicSignalLevel", "checkRunMode",
    "checkRunDetailLevel", "gateCheckMode", "linkedIssueGateMode", "duplicatePrGateMode",
    "qualityGateMode", "aiReviewMode", "aiReviewProvider", "publicSurface"].map (member settings)

/-- Every value that a warning may show has a text. -/
def Printed (record : Record) : Prop :=
  (∀ value ∈ shownOfGate (record.lookup "gate"), HasText value) ∧
    ∀ value ∈ shownOfSettings (record.lookup "settings"), HasText value

theorem hasText_none : HasText none := nofun

/-- A value that is shown when it is dropped: the other ones have a text. -/
theorem none_not_mem_readSpelling_iff {α : Type} (spelling : Spelling α)
    (value : Option JsonValue) (show' : Units → Units) :
    none ∉ (readSpelling spelling value fun other => (jsString other).map show').warnings ↔
      HasText value := by
  have hother : ∀ other, none ∉ [(jsString other).map show'] ↔ HasText (some other) := by
    intro other
    simp [HasText, jsString]
  have hnone : none ∉ ([] : List (Option Units)) := List.not_mem_nil
  rcases value with _ | value
  · exact iff_of_true hnone hasText_none
  cases value with
  | null =>
    refine iff_of_true hnone fun shown hshown => ?_
    rw [← Option.some.inj hshown]
    rfl
  | string text =>
    rw [readSpelling]
    cases spelling.read text with
    | some found =>
      refine iff_of_true hnone fun shown hshown => ?_
      rw [← Option.some.inj hshown]
      rfl
    | none => exact hother _
  | _ => exact hother _

@[simp] theorem none_not_mem_gateMode_iff (value : Option JsonValue) (field : String) :
    none ∉ (normalizeOptionalGateMode value field).warnings ↔ HasText value :=
  none_not_mem_readSpelling_iff _ value fun text => _ ++ text ++ _

@[simp] theorem none_not_mem_optionalEnum_iff {α : Type} (value : Option JsonValue)
    (field : String) (spelling : Spelling α) :
    none ∉ (normalizeOptionalEnum value field spelling).warnings ↔ HasText value :=
  none_not_mem_readSpelling_iff _ value fun text => _ ++ text ++ _

@[simp] theorem none_not_mem_enum {α : Type} (value : Option JsonValue) (field : String)
    (spelling : Spelling α) (fallback : α) :
    none ∉ (normalizeEnum value field spelling fallback).warnings := by
  rcases value with _ | value
  · exact List.not_mem_nil
  cases value with
  | string text =>
    rw [normalizeEnum, readSpelling]
    cases spelling.read text <;> simp
  | _ => simp [normalizeEnum, readSpelling]

@[simp] theorem none_not_mem_boolean (value : Option JsonValue) (field : String) :
    none ∉ (normalizeOptionalBoolean value field).warnings := by
  unfold normalizeOptionalBoolean
  split <;> simp

@[simp] theorem none_not_mem_score (value : Option JsonValue) (field : String) :
    none ∉ (normalizeOptionalScore value field).warnings := by
  unfold normalizeOptionalScore
  split <;> simp

@[simp] theorem none_not_mem_string (value : Option JsonValue) (field : String) :
    none ∉ (normalizeOptionalString value field).warnings := by
  unfold normalizeOptionalString
  dsimp only
  split
  · exact List.not_mem_nil
  · exact List.not_mem_nil
  · split_ifs <;> simp
  · simp

@[simp] theorem none_not_mem_mapping (value : Option JsonValue) (warning : String) :
    none ∉ mappingWarnings value warning := by
  unfold mappingWarnings
  split <;> simp

theorem none_not_mem_entries (field : String) (entries : List JsonValue) (result : List Units) :
    none ∉ (normalizeEntries field entries result).warnings := by
  induction entries generalizing result with
  | nil => exact List.not_mem_nil
  | cons entry rest ih =>
    cases entry with
    | string text =>
      rw [normalizeEntries]
      dsimp only
      split_ifs <;> simp [ih]
    | _ => simp [normalizeEntries, ih]

@[simp] theorem none_not_mem_stringList (value : Option JsonValue) (field : String) :
    none ∉ (normalizeStringList value field).warnings := by
  unfold normalizeStringList
  split
  · exact List.not_mem_nil
  · exact List.not_mem_nil
  · exact none_not_mem_entries field _ _
  · simp

theorem none_not_mem_publicSafeText (value : Option JsonValue) (field : String) :
    none ∉ (parsePublicSafeText value field).warnings := by
  unfold parsePublicSafeText
  dsimp only
  split
  · exact none_not_mem_string value field
  · split_ifs <;> simp

@[simp] theorem none_not_mem_review (value : Option JsonValue) :
    none ∉ (parseReviewConfig value).warnings := by
  unfold parseReviewConfig
  split
  · exact List.not_mem_nil
  · exact List.not_mem_nil
  · simp [none_not_mem_publicSafeText, reviewField]
  · simp

theorem none_not_mem_gate_iff (value : Option JsonValue) :
    none ∉ (parseGateConfig value).warnings ↔ ∀ shown ∈ shownOfGate value, HasText shown := by
  have hnone : ∀ other : Option JsonValue, (∀ key, member other key = none) →
      ∀ shown ∈ shownOfGate other, HasText shown := by
    intro other hother
    have hinner : ∀ key, member none key = none := fun _ => rfl
    simp [shownOfGate, hother, hinner, hasText_none]
  rcases value with _ | value
  · exact iff_of_true List.not_mem_nil (hnone _ fun _ => rfl)
  cases value with
  | null => exact iff_of_true List.not_mem_nil (hnone _ fun _ => rfl)
  | object record =>
    have hmember : ∀ key, member (some (.object record)) key = record.lookup key := fun _ => rfl
    simp only [parseGateConfig, shownOfGate, hmember, List.mem_append, not_or,
      none_not_mem_mapping, none_not_mem_boolean, none_not_mem_score, none_not_mem_string,
      none_not_mem_gateMode_iff, none_not_mem_optionalEnum_iff, List.forall_mem_cons]
    simp [and_assoc, and_comm, and_left_comm]
  | _ => exact iff_of_true (by simp [parseGateConfig]) (hnone _ fun _ => rfl)

theorem none_not_mem_settings_iff (value : Option JsonValue) :
    none ∉ (parseSettingsOverride value).warnings ↔
      ∀ shown ∈ shownOfSettings value, HasText shown := by
  have hnone : ∀ other : Option JsonValue, (∀ key, member other key = none) →
      ∀ shown ∈ shownOfSettings other, HasText shown := by
    intro other hother shown hshown
    obtain ⟨key, -, rfl⟩ := List.mem_map.mp hshown
    rw [hother]
    exact hasText_none
  rcases value with _ | value
  · exact iff_of_true List.not_mem_nil (hnone _ fun _ => rfl)
  cases value with
  | null => exact iff_of_true List.not_mem_nil (hnone _ fun _ => rfl)
  | object record =>
    have hmember : ∀ key, member (some (.object record)) key = record.lookup key := fun _ => rfl
    simp [parseSettingsOverride, shownOfSettings, hmember, settingsFlag]
  | _ => exact iff_of_true (by simp [parseSettingsOverride]) (hnone _ fun _ => rfl)

theorem none_not_mem_readManifest_iff (record : Record) (source : Option FocusManifestSource) :
    none ∉ (readManifest record source).warnings ↔
      none ∉ (parseGateConfig (record.lookup "gate")).warnings ∧
        none ∉ (parseSettingsOverride (record.lookup "settings")).warnings := by
  have hsource : none ∉ (normalizeSource source (record.lookup "source")).warnings := by
    cases source with
    | none => exact none_not_mem_enum _ _ _ _
    | some source => exact List.not_mem_nil
  simp [readManifest, hsource]

/-- The parser throws exactly where a value to be shown has no text. -/
theorem pushed_readManifest (record : Record) (source : Option FocusManifestSource) :
    (pushed (readManifest record source).warnings).isSome ↔ Printed record := by
  rw [Printed, ← none_not_mem_gate_iff, ← none_not_mem_settings_iff,
    ← none_not_mem_readManifest_iff record source]
  simp [pushed]

end Warnings

section Snapshots

def withoutWarnings (manifest : FocusManifest) : FocusManifest := { manifest with warnings := [] }

/-- A raw manifest is a mapping, or it is as good as empty. -/
theorem load_cases (parsers : ContentParsers) (raw : RawManifest) :
    (∃ record source, heldMapping parsers raw = some record ∧
        load parsers raw = parseFocusManifest (some (.object record)) source) ∨
      heldMapping parsers raw = none ∧ ∃ source warnings,
        load parsers raw = some (emptyManifest source warnings) := by
  cases raw with
  | value raw source =>
    rcases raw with _ | raw
    · exact Or.inr ⟨rfl, _, _, rfl⟩
    · cases raw with
      | object record => exact Or.inl ⟨record, source, rfl, rfl⟩
      | _ => exact Or.inr ⟨rfl, _, _, rfl⟩
  | content text source =>
    rcases text with _ | text
    · exact Or.inr ⟨rfl, _, _, rfl⟩
    · unfold heldMapping load parseFocusManifestContent
      by_cases hblank : trim text = []
      · exact Or.inr ⟨if_pos (Or.inl hblank), _, _, if_pos hblank⟩
      by_cases hlarge : maxFocusManifestBytes < text.length ∨
          maxFocusManifestBytes < byteLength text
      · exact Or.inr ⟨if_pos (Or.inr hlarge), source, _, (if_neg hblank).trans (if_pos hlarge)⟩
      · dsimp only
        rw [if_neg hblank, if_neg hlarge, if_neg (not_or.mpr ⟨hblank, hlarge⟩)]
        cases hparsed : if looksLikeJson (trim text) then parsers.parseJson (trim text)
            else parsers.parseYaml (trim text) with
        | none => exact Or.inr ⟨rfl, _, _, rfl⟩
        | some parsed =>
          cases parsed with
          | object record => exact Or.inl ⟨record, some source, rfl, rfl⟩
          | _ => exact Or.inr ⟨rfl, _, _, rfl⟩

/-- A manifest whose lists and review texts are read again. -/
def rereadManifest (manifest : FocusManifest) : FocusManifest :=
  { manifest with
    present := true
    wantedPaths := (normalizeStringList (some (listJson manifest.wantedPaths)) "wantedPaths").value
    blockedPaths :=
      (normalizeStringList (some (listJson manifest.blockedPaths)) "blockedPaths").value
    preferredLabels :=
      (normalizeStringList (some (listJson manifest.preferredLabels)) "preferredLabels").value
    testExpectations :=
      (normalizeStringList (some (listJson manifest.testExpectations)) "testExpectations").value
    maintainerNotes :=
      (normalizeStringList (some (listJson manifest.maintainerNotes)) "maintainerNotes").value
    publicNotes :=
      (normalizeStringList (some (listJson manifest.publicNotes)) "publicNotes").value.filter
        isFocusManifestPublicSafe
    review := reread manifest.review
    warnings := [] }

theorem readManifest_manifestRecord (manifest : FocusManifest) :
    (readManifest (manifestRecord manifest) none).value = rereadManifest manifest := by
  have hsource : normalizeSource none ((manifestRecord manifest).lookup "source") =
      ⟨manifest.source, []⟩ := normalizeEnum_write sources manifest.source .apiRecord "source"
  have hlinked : normalizeEnum ((manifestRecord manifest).lookup "linkedIssuePolicy")
      "linkedIssuePolicy" linkedIssuePolicies .optional = ⟨manifest.linkedIssuePolicy, []⟩ :=
    normalizeEnum_write linkedIssuePolicies _ _ _
  have hdiscovery : normalizeEnum ((manifestRecord manifest).lookup "issueDiscoveryPolicy")
      "issueDiscoveryPolicy" issueDiscoveryPolicies .neutral =
        ⟨manifest.issueDiscoveryPolicy, []⟩ :=
    normalizeEnum_write issueDiscoveryPolicies _ _ _
  have hgate : parseGateConfig ((manifestRecord manifest).lookup "gate") = ⟨manifest.gate, []⟩ :=
    parseGateConfig_toJson manifest.gate
  have hsettings : parseSettingsOverride ((manifestRecord manifest).lookup "settings") =
      ⟨manifest.settings, []⟩ := parseSettingsOverride_toJson manifest.settings
  have hreview : (parseReviewConfig ((manifestRecord manifest).lookup "review")).value =
      reread manifest.review := parseReviewConfig_toJson manifest.review
  unfold readManifest rereadManifest
  simp only [hsource, hlinked, hdiscovery, hgate, hsettings, hreview]
  rfl

/-- What is stored needs no warning that shows a value. -/
theorem printed_manifestRecord (manifest : FocusManifest) : Printed (manifestRecord manifest) := by
  rw [← pushed_readManifest _ none]
  have hgate : parseGateConfig ((manifestRecord manifest).lookup "gate") = ⟨manifest.gate, []⟩ :=
    parseGateConfig_toJson manifest.gate
  have hsettings : parseSettingsOverride ((manifestRecord manifest).lookup "settings") =
      ⟨manifest.settings, []⟩ := parseSettingsOverride_toJson manifest.settings
  have hnone : none ∉ (readManifest (manifestRecord manifest) none).warnings := by
    rw [none_not_mem_readManifest_iff, hgate, hsettings]
    exact ⟨List.not_mem_nil, List.not_mem_nil⟩
  simp [pushed, hnone]

/-- `present` as the parser settles it. -/
def settled (manifest : FocusManifest) : FocusManifest :=
  { manifest with present := manifest.recognized, warnings := [] }

/-- The parser throws, or what it returns is the settled manifest with its warnings. -/
theorem parseFocusManifest_record (record : Record) (source : Option FocusManifestSource) :
    (¬ Printed record ∧ parseFocusManifest (some (.object record)) source = none) ∨
      Printed record ∧ ∃ manifest, parseFocusManifest (some (.object record)) source =
        some manifest ∧ withoutWarnings manifest = settled (readManifest record source).value := by
  rw [← pushed_readManifest record source, parseFocusManifest]
  dsimp only
  rcases pushed (readManifest record source).warnings with _ | warnings
  · exact Or.inl ⟨Bool.false_ne_true, rfl⟩
  · refine Or.inr ⟨rfl, _, rfl, ?_⟩
    unfold settled
    split_ifs with hrecognized
    · rw [hrecognized]
      rfl
    · rw [Bool.not_eq_true] at hrecognized
      rw [hrecognized]
      rfl

/-- Reading a snapshot never throws. -/
theorem exists_reload (manifest : FocusManifest) :
    ∃ cached, reload manifest = some cached ∧
      withoutWarnings cached = settled (rereadManifest manifest) := by
  rcases parseFocusManifest_record (manifestRecord manifest) none with ⟨hnot, -⟩ | ⟨-, cached, h⟩
  · exact absurd (printed_manifestRecord manifest) hnot
  · rw [readManifest_manifestRecord] at h
    exact ⟨cached, h⟩

/-- A mapping that is read again as it was read. -/
structure Steady (record : Record) : Prop where
  wantedPaths : ListSteady (record.lookup "wantedPaths")
  blockedPaths : ListSteady (record.lookup "blockedPaths")
  preferredLabels : ListSteady (record.lookup "preferredLabels")
  testExpectations : ListSteady (record.lookup "testExpectations")
  maintainerNotes : ListSteady (record.lookup "maintainerNotes")
  publicNotes : ∀ entry, Considered (record.lookup "publicNotes") entry →
    isFocusManifestPublicSafe ((trim entry).take maxItemLength) = true → ¬ CutAtSpace entry
  footer : TextSteady (member (member (record.lookup "review") "footer") "text")
  note : TextSteady (member (record.lookup "review") "note")

theorem rereadManifest_iff (record : Record) (source : Option FocusManifestSource) :
    settled (rereadManifest (readManifest record source).value) =
        settled (readManifest record source).value ↔ Steady record := by
  have hiff : settled (rereadManifest (readManifest record source).value) =
      settled (readManifest record source).value ↔
        rereadManifest (readManifest record source).value = (readManifest record source).value := by
    constructor
    · intro h
      exact congrArg (fun manifest => { manifest with present := true }) h
    · intro h
      rw [h]
  rw [hiff, FocusManifest.ext_iff]
  constructor
  · rintro ⟨-, -, hwanted, hblocked, hlabels, -, htests, -, hnotes, hpublic, -, -, hreview, -⟩
    obtain ⟨hfooter, hnote⟩ := (reread_parseReviewConfig_iff _).mp hreview
    exact
      { wantedPaths := (normalizeStringList_reread_iff _ _).mp hwanted
        blockedPaths := (normalizeStringList_reread_iff _ _).mp hblocked
        preferredLabels := (normalizeStringList_reread_iff _ _).mp hlabels
        testExpectations := (normalizeStringList_reread_iff _ _).mp htests
        maintainerNotes := (normalizeStringList_reread_iff _ _).mp hnotes
        publicNotes := (normalizeStringList_again_iff isFocusManifestPublicSafe _ _).mp hpublic
        footer := hfooter
        note := hnote }
  · intro h
    exact ⟨rfl, rfl, (normalizeStringList_reread_iff _ _).mpr h.wantedPaths,
      (normalizeStringList_reread_iff _ _).mpr h.blockedPaths,
      (normalizeStringList_reread_iff _ _).mpr h.preferredLabels, rfl,
      (normalizeStringList_reread_iff _ _).mpr h.testExpectations, rfl,
      (normalizeStringList_reread_iff _ _).mpr h.maintainerNotes,
      (normalizeStringList_again_iff isFocusManifestPublicSafe _ _).mpr h.publicNotes, rfl, rfl,
      (reread_parseReviewConfig_iff _).mpr ⟨h.footer, h.note⟩, rfl⟩

/-- The raw manifest is parsed and its snapshot is read as it was, exactly when every value that a
warning shows has a text and no item or text is cut at a space. -/
theorem reload_load_iff (parsers : ContentParsers) (raw : RawManifest) :
    (∃ manifest cached, load parsers raw = some manifest ∧ reload manifest = some cached ∧
        withoutWarnings cached = withoutWarnings manifest) ↔
      ∀ record, heldMapping parsers raw = some record → Printed record ∧ Steady record := by
  rcases load_cases parsers raw with
    ⟨record, source, hheld, hload⟩ | ⟨hheld, source, warnings, hload⟩
  · have hcondition : (∀ other, heldMapping parsers raw = some other →
        Printed other ∧ Steady other) ↔ Printed record ∧ Steady record := by
      rw [hheld]
      simp
    rw [hcondition, hload]
    rcases parseFocusManifest_record record source with ⟨hnot, hthrows⟩ | ⟨hprinted, manifest,
      hparsed, hmanifest⟩
    · rw [hthrows]
      exact iff_of_false (by simp) fun h => hnot h.1
    · obtain ⟨cached, hreload, hcached⟩ := exists_reload manifest
      have hreread := congrArg rereadManifest hmanifest
      change rereadManifest manifest = rereadManifest (readManifest record source).value at hreread
      rw [hparsed, ← rereadManifest_iff record source, and_iff_right hprinted, ← hreread,
        ← hcached, ← hmanifest]
      constructor
      · rintro ⟨other, found, hother, hfound, h⟩
        obtain rfl := Option.some.inj hother
        rw [hreload] at hfound
        obtain rfl := Option.some.inj hfound
        exact h
      · intro h
        exact ⟨manifest, cached, rfl, hreload, h⟩
  · obtain ⟨cached, hreload, hcached⟩ := exists_reload (emptyManifest source warnings)
    rw [hload, hheld]
    exact iff_of_true ⟨_, cached, rfl, hreload, hcached⟩ nofun

end Snapshots

section Policy

/-- What the settings resolver reads of a manifest. -/
def gatePolicyManifest (manifest : FocusManifest) : GatePolicy.FocusManifest where
  gate :=
    { enabled := manifest.gate.enabled
      pack := manifest.gate.pack
      linkedIssue := manifest.gate.linkedIssue
      duplicates := manifest.gate.duplicates
      readinessMode := manifest.gate.readinessMode
      readinessMinScore := manifest.gate.readinessMinScore.map fun score => .finite score.value
      slopMode := manifest.gate.slopMode
      slopMinScore := manifest.gate.slopMinScore.map fun score => .finite score.value
      slopAiAdvisory := manifest.gate.slopAiAdvisory
      aiReviewMode := manifest.gate.aiReviewMode
      mergeReadiness := manifest.gate.mergeReadiness
      manifestPolicy := manifest.gate.manifestPolicy
      firstTimeContributorGrace := manifest.gate.firstTimeContributorGrace }
  settings :=
    { commentMode := manifest.settings.commentMode
      publicAudienceMode := manifest.settings.publicAudienceMode
      checkRunMode := manifest.settings.checkRunMode
      gateCheckMode := manifest.settings.gateCheckMode
      linkedIssueGateMode := manifest.settings.linkedIssueGateMode
      duplicatePrGateMode := manifest.settings.duplicatePrGateMode
      qualityGateMode := manifest.settings.qualityGateMode
      qualityGateMinScore :=
        manifest.settings.qualityGateMinScore.map fun score => .finite score.value
      aiReviewMode := manifest.settings.aiReviewMode
      autoLabelEnabled := manifest.settings.flags .autoLabelEnabled
      publicSurface := manifest.settings.publicSurface
      includeMaintainerAuthors := manifest.settings.flags .includeMaintainerAuthors
      requireLinkedIssue := manifest.settings.flags .requireLinkedIssue
      autonomy := manifest.settings.autonomy.map fun declared => declared.policy
      agentPaused := manifest.settings.flags .agentPaused
      agentDryRun := manifest.settings.flags .agentDryRun }

theorem reload_gate_settings {manifest cached : FocusManifest} (h : reload manifest = some cached) :
    cached.gate = manifest.gate ∧ cached.settings = manifest.settings := by
  obtain ⟨other, hother, hsettled⟩ := exists_reload manifest
  rw [h] at hother
  obtain rfl := Option.some.inj hother
  have hgate := congrArg FocusManifest.gate hsettled
  have hsettings := congrArg FocusManifest.settings hsettled
  exact ⟨hgate, hsettings⟩

/-- The snapshot drives the same gate, whatever its lists have lost. -/
theorem resolveEffectiveSettings_reload (dbSettings : GatePolicy.RepositorySettings)
    {manifest cached : FocusManifest} (h : reload manifest = some cached) :
    GatePolicy.resolveEffectiveSettings dbSettings (gatePolicyManifest cached) =
      GatePolicy.resolveEffectiveSettings dbSettings (gatePolicyManifest manifest) := by
  obtain ⟨hgate, hsettings⟩ := reload_gate_settings h
  unfold gatePolicyManifest
  rw [hgate, hsettings]

end Policy

section Inputs

/-- A wanted path of 299 letters, a space and one letter more. -/
def cutPath : Units := List.replicate 299 97 ++ [32, 98]

def cutManifest : RawManifest :=
  .value (some (.object [("wantedPaths", .array [.string cutPath])])) none

def noParsers : ContentParsers := ⟨fun _ => none, fun _ => none⟩

example : (load noParsers cutManifest).map (fun manifest => manifest.wantedPaths) =
    some [List.replicate 299 97 ++ [32]] := by
  decide +kernel

/-- The path is stored with the space it was cut at and read without it. -/
theorem reload_loses_space :
    ¬ ∃ manifest cached, load noParsers cutManifest = some manifest ∧
      reload manifest = some cached ∧ withoutWarnings cached = withoutWarnings manifest := by
  rintro ⟨manifest, cached, hload, hreload, h⟩
  have hpaths := congrArg FocusManifest.wantedPaths h
  change cached.wantedPaths = manifest.wantedPaths at hpaths
  have hdiffer : ((load noParsers cutManifest).bind fun manifest => (reload manifest).map
      fun cached => decide (cached.wantedPaths = manifest.wantedPaths)) = some false := by
    decide +kernel
  rw [hload, Option.bind_some, hreload, Option.map_some, hpaths, decide_eq_true rfl] at hdiffer
  cases hdiffer

example : (load noParsers (.value (some (.object [("gate", .object
    [("linkedIssue", .object [("toString", .number (.finite 1))])])])) none)).isNone = true := by
  decide +kernel

end Inputs

end Gittensory.ManifestSnapshot
