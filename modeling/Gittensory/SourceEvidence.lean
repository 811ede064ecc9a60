import Gittensory.SourceGuard

/-!
What becomes of a submission whose source URLs were checked. It is closed when every blocking
authoritative URL failed for good and there are two of them at least. Results are rewritten
only where a canonical URL was reached, which then stands in the way of a close, so a close
rests on the results as they were checked; URLs beyond the first ten fail without a check.
-/
namespace Gittensory.SourceEvidence

open CodeUnits DuplicateSignals SafeUrl SourceUrls SourceFetch SourceGuard RadixNumerals

/-! ## The decision -/

structure SourceEvidenceDecisionEvidence where
  ruleId : Units
  field : Units
  url : Units
  matchedUrl : Units
  finalUrl : Option Units
  outcome : Units
  status : Units
  httpStatus : Option Units
  behavior : Units
  fix : Units
  deriving DecidableEq

inductive Verdict
  | close
  | manual
  deriving DecidableEq

structure SourceEvidenceDecision where
  verdict : Verdict
  reasonCode : Units
  evidence : List SourceEvidenceDecisionEvidence
  sourceEvidenceHash : Units
  confidence : ℕ
  summary : Units
  labels : List Units
  close : Bool
  deriving DecidableEq

/-- `item.httpStatus` where it is neither missing nor zero. -/
def givenStatus (item : SourceEvidenceItem) : Option ℕ :=
  item.httpStatus.filter fun status => status ≠ 0

def decisionEvidence (item : SourceEvidenceItem) : SourceEvidenceDecisionEvidence where
  ruleId := units "source_url_reachability"
  field := item.field
  url := item.url
  matchedUrl := item.url
  finalUrl := item.finalUrl
  outcome := item.outcome
  status := item.status.text
  httpStatus := (givenStatus item).map (shortest 10)
  behavior :=
    match givenStatus item with
    | some status => item.field ++ units " returned HTTP " ++ shortest 10 status
    | none => item.field ++ units " is not a valid reachable source URL"
  fix := units "Replace the source URL with a reachable authoritative source and resubmit a new " ++
    units "one-file content PR."

def sourceEvidenceToDecisionEvidence (report : SourceEvidenceReport) :
    List SourceEvidenceDecisionEvidence :=
  (report.urls.filter fun item => item.blocking ∧ item.status = .hard_failure).map decisionEvidence

def authoritativeSourceItems (report : SourceEvidenceReport) : List SourceEvidenceItem :=
  report.urls.filter fun item => item.blocking ∧
    (item.role = .canonical ∨ item.field ∈ PRIMARY_CANONICAL_SOURCE_FIELDS)

def shouldHardCloseSourceEvidence (report : SourceEvidenceReport) : Bool :=
  let authoritative := authoritativeSourceItems report
  if authoritative.length = 0 then false
  else
    let hardFailures := authoritative.filter fun item => item.status = .hard_failure
    if hardFailures.length = 0 then false
    else
      let allAuthoritativeFailed := hardFailures.length = authoritative.length
      allAuthoritativeFailed && authoritative.length > 1

/-- The lines of a summary that go through the evidence. -/
def reviewLine (item : SourceEvidenceDecisionEvidence) : Units :=
  [space].intercalate (([
    units "- " ++ [96] ++ orText item.field (units "source") ++ [96] ++ space ::
      orText item.url item.matchedUrl,
    match item.httpStatus with
    | some status => units "returned HTTP " ++ status
    | none => item.outcome,
    match item.finalUrl with
    | some finalUrl =>
        if finalUrl ≠ [] ∧ finalUrl ≠ item.url then units "(final URL: " ++ finalUrl ++ units ")"
        else []
    | none => []] : List Units).filter fun part => part ≠ [])

def summaryText (findings : List Units) (evidence : List SourceEvidenceDecisionEvidence)
    (action : Units) : Units :=
  [newline].intercalate (units "Summary:" :: findings ++ [[], units "Source Review:"] ++
    evidence.map reviewLine ++ [[], units "Recommended Action:", action])

def sourceEvidenceManualDecision (report : SourceEvidenceReport)
    (evidence : List SourceEvidenceDecisionEvidence) : SourceEvidenceDecision where
  verdict := .manual
  reasonCode := units "source_hard_failure"
  evidence := evidence
  sourceEvidenceHash := report.hash
  confidence := 1
  summary := summaryText [
    units "- Deterministic source evidence found one or more dead or invalid source URLs, but " ++
      units "not enough to hard-close automatically.",
    units "- A maintainer should decide whether to request a source fix, merge with stronger " ++
      units "source evidence, or close if the source issue is real."] evidence
    (units "- Review the source manually. Request a source update if the submitted entry is " ++
      units "otherwise useful.")
  labels := [units "submission-manual-review"]
  close := false

def sourceEvidenceCloseDecision (report : SourceEvidenceReport) : Option SourceEvidenceDecision :=
  let evidence := sourceEvidenceToDecisionEvidence report
  if evidence.length = 0 then none
  else if !shouldHardCloseSourceEvidence report then
    some (sourceEvidenceManualDecision report evidence)
  else
    some {
      verdict := .close
      reasonCode := units "source_hard_failure"
      evidence := evidence
      sourceEvidenceHash := report.hash
      confidence := 1
      summary := summaryText [
        units "- Deterministic source evidence found one or more dead or invalid source URLs.",
        units "- Dead source links block one-shot content submissions because the entry cannot " ++
          units "be verified."] evidence
        (units "- Close this PR and resubmit with reachable, authoritative source URLs.")
      labels := [units "submission-closed-by-gate"]
      close := true }

/-! ## What a close says of the report -/

theorem shouldHardClose_iff (report : SourceEvidenceReport) :
    shouldHardCloseSourceEvidence report = true ↔
      2 ≤ (authoritativeSourceItems report).length ∧
        ∀ item ∈ authoritativeSourceItems report, item.status = .hard_failure := by
  unfold shouldHardCloseSourceEvidence
  dsimp only
  have hall := List.length_filter_eq_length_iff (p := fun item : SourceEvidenceItem =>
    decide (item.status = .hard_failure)) (l := authoritativeSourceItems report)
  simp only [decide_eq_true_eq] at hall
  split_ifs with hnone hfailures
  · rw [hnone]
    constructor
    · nofun
    · rintro ⟨htwo, -⟩
      omega
  · constructor
    · nofun
    · rintro ⟨htwo, hhard⟩
      rw [hall.mpr hhard] at hfailures
      omega
  · rw [Bool.and_eq_true, decide_eq_true_eq, decide_eq_true_eq, hall, and_comm]
    rfl

theorem shouldHardClose_of_close {report : SourceEvidenceReport}
    {decision : SourceEvidenceDecision}
    (h : sourceEvidenceCloseDecision report = some decision) (hclose : decision.close = true) :
    shouldHardCloseSourceEvidence report = true := by
  unfold sourceEvidenceCloseDecision at h
  dsimp only at h
  split_ifs at h with hnone hhard
  · rw [← Option.some.inj h] at hclose
    nomatch hclose
  · simpa using hhard

/-- A reached canonical URL is never rewritten, and it has not failed. -/
theorem not_hardClose_of_reachable {report : SourceEvidenceReport} {urls : List SourceEvidenceItem}
    (hreport : report.urls = downgradeInconclusiveSourceWarnings urls)
    (hblocking : ∀ item ∈ urls, item.blocking = true)
    (h : hasVerifiableCanonicalSource urls = true) :
    shouldHardCloseSourceEvidence report = false := by
  obtain ⟨item, hitem⟩ : ∃ item, item ∈ reachableCanonical urls := by
    unfold hasVerifiableCanonicalSource at h
    rcases Bool.or_eq_true_iff.mp h with htwo | hprimary
    · rw [decide_eq_true_eq] at htwo
      exact List.exists_mem_of_length_pos (by omega)
    · obtain ⟨item, hitem, -⟩ := List.any_eq_true.mp hprimary
      exact ⟨item, hitem⟩
  obtain ⟨hmem, hreached⟩ := List.mem_filter.mp hitem
  obtain ⟨hrole, hstatus, -⟩ := of_decide_eq_true hreached
  have hkept : isDowngradableInconclusiveSource item = false := by
    simp [isDowngradableInconclusiveSource, hstatus]
  have hstays : item ∈ authoritativeSourceItems report := by
    unfold authoritativeSourceItems downgradeInconclusiveSourceWarnings at *
    rw [hreport, List.mem_filter, if_neg (by simp [h])]
    refine ⟨List.mem_map.mpr ⟨item, hmem, ?_⟩, ?_⟩
    · rw [hkept]
      rfl
    · rw [decide_eq_true_eq]
      exact ⟨hblocking item hmem, Or.inl hrole⟩
  rw [Bool.eq_false_iff]
  intro hclose
  have hfailed := ((shouldHardClose_iff report).mp hclose).2 item hstays
  rw [hstatus] at hfailed
  nomatch hfailed

/-! ## What a check says of its URL -/

variable {URL : Type} (platform : Platform URL)

/-- A result as a check leaves it: of its URL, blocking, and reached only if it passed. -/
structure ResultFor (item : SubmittedSourceUrl) (result : SourceEvidenceItem) : Prop where
  of_item : result.toSubmittedSourceUrl = item
  role : result.role = sourceRole platform.toUrlApi item
  blocking : result.blocking = true
  reached : result.outcome = units "reachable" → result.status = .passed

variable {platform} {item : SubmittedSourceUrl} {answers : Answers}

theorem resultFor_withSourceDefaults {values : SourceValues}
    (h : values.outcome = units "reachable" → values.status = .passed) :
    ResultFor platform item (withSourceDefaults platform item values) where
  of_item := rfl
  role := rfl
  blocking := rfl
  reached := h

theorem resultFor_of_ne {values : SourceValues} (h : values.outcome ≠ units "reachable") :
    ResultFor platform item (withSourceDefaults platform item values) :=
  resultFor_withSourceDefaults fun hreachable => absurd hreachable h

/-- None of the other outcomes is "reachable", and a host not checked is no invalid URL. -/
theorem outcomes_ne_reachable :
    units "invalid_url" ≠ units "reachable" ∧
      units "source_host_not_checked" ≠ units "reachable" ∧
      units "too_many_redirects" ≠ units "reachable" ∧
      units "redirect_without_location" ≠ units "reachable" ∧
      units "http_hard_failure" ≠ units "reachable" ∧
      units "source_inconclusive" ≠ units "reachable" ∧
      units "fetch_error" ≠ units "reachable" ∧
      units "too_many_source_urls" ≠ units "reachable" ∧
      units "source_host_not_checked" ≠ units "invalid_url" := by
  decide +kernel

theorem ne_reachable_of_refused {url outcome error : Units}
    (h : validateFetchableSourceUrl platform url = .refused outcome error) :
    outcome ≠ units "reachable" := by
  unfold validateFetchableSourceUrl at h
  split at h
  · cases h
    exact outcomes_ne_reachable.1
  · split_ifs at h
    · cases h
      exact outcomes_ne_reachable.2.1
    · cases h
      exact outcomes_ne_reachable.1

theorem resultFor_fetchHops {method : Method} {timeoutMs hops : ℕ} {currentUrl : Units}
    {log asked : List Request} {result : SourceEvidenceItem}
    (h : fetchHops platform item method timeoutMs answers hops currentUrl log =
      (.ok result, asked)) : ResultFor platform item result := by
  induction hops generalizing currentUrl log with
  | zero =>
    cases h
    exact resultFor_of_ne outcomes_ne_reachable.2.2.1
  | succ hops ih =>
    unfold fetchHops at h
    split at h
    · rename_i outcome error hrefused
      cases h
      exact resultFor_of_ne (ne_reachable_of_refused hrefused)
    · dsimp only at h
      split at h
      · cases h
      · split_ifs at h with hredirect hnext hend
        · cases h
          exact resultFor_of_ne outcomes_ne_reachable.2.2.2.1
        · cases h
          exact resultFor_of_ne outcomes_ne_reachable.2.2.1
        · exact ih h
        · cases h
          apply resultFor_withSourceDefaults
          dsimp only
          cases sourceStatusFromHttpStatus _ with
          | passed => exact fun _ => rfl
          | hard_failure => exact fun h => absurd h outcomes_ne_reachable.2.2.2.2.1
          | retryable => exact fun h => absurd h outcomes_ne_reachable.2.2.2.2.2.1

theorem resultFor_fetchByGet (attempts : ℕ) (lastError : Option Units) (log : List Request) :
    ResultFor platform item (fetchByGet platform item answers attempts lastError log).1 := by
  induction attempts generalizing lastError log with
  | zero => exact resultFor_of_ne outcomes_ne_reachable.2.2.2.2.2.2.1
  | succ attempts ih =>
    unfold fetchByGet
    split
    · rename_i result asked hfetched
      exact resultFor_fetchHops hfetched
    · exact ih _ _

theorem resultFor_checkOneSourceUrl (item : SubmittedSourceUrl) (answers : Answers) :
    ResultFor platform item (checkOneSourceUrl platform item answers).1 := by
  unfold checkOneSourceUrl
  split
  · rename_i outcome error hrefused
    exact resultFor_of_ne (ne_reachable_of_refused hrefused)
  · split
    · rename_i head log hfetched
      split_ifs
      · exact resultFor_fetchHops hfetched
      · exact resultFor_fetchByGet _ _ _
    · exact resultFor_fetchByGet _ _ _

theorem resultFor_uncheckedUrl (item : SubmittedSourceUrl) :
    ResultFor platform item (uncheckedUrl platform item) :=
  resultFor_of_ne outcomes_ne_reachable.2.2.2.2.2.2.2.1

/-! ## What a check calls -/

theorem ne_nil_of_addsGuarded {limit : ℕ} {log asked : List Request}
    (h : AddsGuarded platform limit log asked) (hne : log ≠ []) : asked ≠ [] := by
  obtain ⟨added, rfl, -⟩ := h
  exact List.append_ne_nil_of_left_ne_nil hne added

theorem fetchSourceUrl_asks (h : PassesGuard platform item.url) (answers : Answers)
    (method : Method) (timeoutMs : ℕ) (log : List Request) :
    (fetchSourceUrl platform item method timeoutMs answers log).2 ≠ [] := by
  obtain ⟨parsed, hparsed⟩ := h
  unfold fetchSourceUrl fetchHops
  rw [hparsed]
  dsimp only
  have hasked : log ++ [⟨item.url, method, BROWSER_FETCH_HEADERS, timeoutMs⟩] ≠ [] :=
    List.append_ne_nil_of_right_ne_nil _ (List.cons_ne_nil _ _)
  split
  · exact hasked
  · split_ifs
    · exact hasked
    · exact hasked
    · exact ne_nil_of_addsGuarded (fetchHops_addsGuarded platform item answers _ _ _ _ _) hasked
    · exact hasked

theorem checkOneSourceUrl_asks (h : PassesGuard platform item.url) (answers : Answers) :
    (checkOneSourceUrl platform item answers).2 ≠ [] := by
  have hprobe := fetchSourceUrl_asks h answers .HEAD SOURCE_EVIDENCE_TIMEOUT_MS []
  have hread := fun log => fetchByGet_addsGuarded platform item answers
    SOURCE_EVIDENCE_GET_ATTEMPTS none log
  obtain ⟨parsed, hparsed⟩ := h
  unfold checkOneSourceUrl
  rw [hparsed]
  dsimp only
  split
  · rename_i head log hfetched
    rw [hfetched] at hprobe
    split_ifs
    · exact hprobe
    · exact ne_nil_of_addsGuarded (hread log) hprobe
  · rename_i message log hfetched
    rw [hfetched] at hprobe
    exact ne_nil_of_addsGuarded (hread log) hprobe

/-- What the guard calls an invalid URL is no web address. -/
theorem isAbsoluteHttpUrl_of_refused {url outcome error : Units}
    (h : validateFetchableSourceUrl platform url = .refused outcome error)
    (hinvalid : outcome = units "invalid_url") :
    isAbsoluteHttpUrl platform.toUrlApi url = false := by
  cases hparse : platform.parse url with
  | none => rw [isAbsoluteHttpUrl, hparse]
  | some found =>
    rw [validateFetchableSourceUrl, hparse] at h
    rw [isAbsoluteHttpUrl, hparse]
    dsimp only at h ⊢
    split_ifs at h with hprotocol
    · cases h
      exact absurd hinvalid outcomes_ne_reachable.2.2.2.2.2.2.2.2
    · rw [decide_eq_false_iff_not]
      simpa using hprotocol

/-- A check that fails for good was carried out, unless its URL is no web address. -/
theorem asks_or_of_hard_failure
    (h : (checkOneSourceUrl platform item answers).1.status = .hard_failure) :
    (checkOneSourceUrl platform item answers).2 ≠ [] ∨
      isAbsoluteHttpUrl platform.toUrlApi item.url = false := by
  cases hvalid : validateFetchableSourceUrl platform item.url with
  | ok parsed => exact Or.inl (checkOneSourceUrl_asks ⟨parsed, hvalid⟩ answers)
  | refused outcome error =>
    right
    unfold checkOneSourceUrl at h
    rw [hvalid] at h
    dsimp only [withSourceDefaults] at h
    split_ifs at h with hinvalid
    exact isAbsoluteHttpUrl_of_refused hvalid hinvalid

/-! ## The results of a document -/

variable (platform) (source : Units) (answers : ℕ → Answers)

/-- The result at a place, by whether it is checked at all. -/
theorem getElem?_checkedUrls {index : ℕ}
    (h : (extractSubmittedSourceUrls platform.toUrlApi source)[index]? = some item) :
    (index < MAX_SOURCE_EVIDENCE_URLS ∧
      (sourceChecks platform source answers)[index]? =
        some (checkOneSourceUrl platform item (answers index)) ∧
      (checkedUrls platform source answers)[index]? =
        some (checkOneSourceUrl platform item (answers index)).1) ∨
    (MAX_SOURCE_EVIDENCE_URLS ≤ index ∧
      (checkedUrls platform source answers)[index]? = some (uncheckedUrl platform item)) := by
  have hlength : index < (extractSubmittedSourceUrls platform.toUrlApi source).length :=
    (List.getElem?_eq_some_iff.mp h).1
  rcases Nat.lt_or_ge index MAX_SOURCE_EVIDENCE_URLS with hlt | hge
  · left
    have hcheck : (sourceChecks platform source answers)[index]? =
        some (checkOneSourceUrl platform item (answers index)) := by
      rw [sourceChecks, List.getElem?_map, List.getElem?_zipIdx, List.getElem?_take_of_lt hlt, h]
      simp
    refine ⟨hlt, hcheck, ?_⟩
    have hfirst := (List.getElem?_eq_some_iff.mp hcheck).1
    rw [checkedUrls, List.getElem?_append_left (by rwa [List.length_map]), List.getElem?_map, hcheck]
    rfl
  · right
    refine ⟨hge, ?_⟩
    have hfirst : (sourceChecks platform source answers).length = MAX_SOURCE_EVIDENCE_URLS := by
      rw [sourceChecks, List.length_map, List.length_zipIdx, List.length_take]
      omega
    rw [checkedUrls, List.getElem?_append_right (by rw [List.length_map, hfirst]; exact hge),
      List.length_map, hfirst, List.getElem?_map, List.getElem?_drop, Nat.add_sub_cancel' hge, h]
    rfl

theorem exists_result {index : ℕ}
    (h : (extractSubmittedSourceUrls platform.toUrlApi source)[index]? = some item) :
    ∃ result, (checkedUrls platform source answers)[index]? = some result ∧
      ResultFor platform item result := by
  rcases getElem?_checkedUrls platform source answers h with ⟨-, -, hresult⟩ | ⟨-, hresult⟩
  · exact ⟨_, hresult, resultFor_checkOneSourceUrl item (answers index)⟩
  · exact ⟨_, hresult, resultFor_uncheckedUrl item⟩

/-- The results stand in the places of their URLs. -/
theorem forall₂_checkedUrls :
    List.Forall₂ (ResultFor platform) (extractSubmittedSourceUrls platform.toUrlApi source)
      (checkedUrls platform source answers) := by
  refine List.forall₂_iff_get.mpr ⟨(length_checkedUrls source answers).symm, ?_⟩
  intro index hitem hresult
  obtain ⟨result, hget, hfor⟩ := exists_result platform source answers
    (List.getElem?_eq_getElem hitem)
  rw [List.getElem?_eq_getElem hresult, Option.some.injEq] at hget
  rw [List.get_eq_getElem, List.get_eq_getElem, hget]
  exact hfor

def isAuthoritative (item : SubmittedSourceUrl) : Bool :=
  sourceRole platform.toUrlApi item = .canonical ∨ item.field ∈ PRIMARY_CANONICAL_SOURCE_FIELDS

def authoritativeUrls : List SubmittedSourceUrl :=
  (extractSubmittedSourceUrls platform.toUrlApi source).filter (isAuthoritative platform)

/-- The authoritative results are those of the authoritative URLs. -/
theorem forall₂_authoritative {report : SourceEvidenceReport}
    (h : report.urls = checkedUrls platform source answers) :
    List.Forall₂ (ResultFor platform) (authoritativeUrls platform source)
      (authoritativeSourceItems report) := by
  unfold authoritativeUrls authoritativeSourceItems
  rw [h]
  refine List.rel_filter ?_ (forall₂_checkedUrls platform source answers)
  intro item result hfor
  simp only [isAuthoritative, decide_eq_true_eq, hfor.blocking, hfor.role, true_and, ← hfor.of_item]

/-! ## What justifies a close -/

def WasProbed (index : ℕ) : Prop :=
  ∃ check, (sourceChecks platform source answers)[index]? = some check ∧ check.2 ≠ []

/-- Enough authoritative URLs were declared, each was probed or is no web address, save where
it is excused, and the report holds each of them for dead. -/
structure Justified (excused : ℕ → Prop) : Prop where
  two_declared : 2 ≤ (authoritativeUrls platform source).length
  probed : ∀ (index : ℕ) item,
    (extractSubmittedSourceUrls platform.toUrlApi source)[index]? = some item →
    isAuthoritative platform item = true → WasProbed platform source answers index ∨
      isAbsoluteHttpUrl platform.toUrlApi item.url = false ∨ excused index
  failed : ∀ (index : ℕ) item,
    (extractSubmittedSourceUrls platform.toUrlApi source)[index]? = some item →
    isAuthoritative platform item = true → ∃ result : SourceEvidenceItem,
      (checkSubmittedSourceEvidence platform source answers).urls[index]? = some result ∧
      result.toSubmittedSourceUrl = item ∧ result.status = .hard_failure ∧
      result.outcome ≠ units "reachable"

variable {platform} {source} {answers}

/-- Nothing was rewritten in a report that closes. -/
theorem urls_of_hardClose
    (h : shouldHardCloseSourceEvidence (checkSubmittedSourceEvidence platform source answers) =
      true) :
    (checkSubmittedSourceEvidence platform source answers).urls =
      checkedUrls platform source answers := by
  have hblocking : ∀ result ∈ checkedUrls platform source answers, result.blocking = true := by
    intro result hresult
    obtain ⟨index, hindex, rfl⟩ := List.mem_iff_getElem.mp hresult
    have hfor := (List.forall₂_iff_get.mp (forall₂_checkedUrls platform source answers)).2 index
      (by rwa [← length_checkedUrls source answers]) hindex
    exact hfor.blocking
  have hurls := checkSubmittedSourceEvidence_urls platform source answers
  have hnone : hasVerifiableCanonicalSource (checkedUrls platform source answers) = false := by
    by_contra hreached
    rw [not_hardClose_of_reachable hurls hblocking (Bool.not_eq_false _ ▸ hreached)] at h
    nomatch h
  rw [hurls, downgradeInconclusiveSourceWarnings, if_pos (by rw [hnone]; rfl)]

/-- A close is justified, but for the URLs beyond the first ten, which nobody looks at. -/
theorem justified_of_close {decision : SourceEvidenceDecision}
    (h : sourceEvidenceCloseDecision (checkSubmittedSourceEvidence platform source answers) =
      some decision) (hclose : decision.close = true) :
    Justified platform source answers fun index => 10 ≤ index := by
  have hhard := shouldHardClose_of_close h hclose
  have hurls := urls_of_hardClose hhard
  obtain ⟨htwo, hall⟩ := (shouldHardClose_iff _).mp hhard
  have hfailed : ∀ (index : ℕ) item result,
      (checkedUrls platform source answers)[index]? = some result →
      ResultFor platform item result → isAuthoritative platform item = true →
      result.status = .hard_failure := by
    intro index item result hresult hfor hauthoritative
    refine hall result (List.mem_filter.mpr ⟨?_, ?_⟩)
    · rw [hurls]
      exact List.mem_of_getElem? hresult
    · rw [isAuthoritative, decide_eq_true_eq] at hauthoritative
      rw [decide_eq_true_eq, hfor.blocking, hfor.role, hfor.of_item]
      exact ⟨rfl, hauthoritative⟩
  refine ⟨?_, ?_, ?_⟩
  · rw [(forall₂_authoritative platform source answers hurls).length_eq]
    exact htwo
  · intro index item hitem hauthoritative
    rcases getElem?_checkedUrls platform source answers hitem with ⟨-, hcheck, hresult⟩ | ⟨hcap, -⟩
    · have hdead := hfailed index item _ hresult (resultFor_checkOneSourceUrl item _) hauthoritative
      exact (asks_or_of_hard_failure hdead).imp (fun hasks => ⟨_, hcheck, hasks⟩) Or.inl
    · exact Or.inr (Or.inr hcap)
  · intro index item hitem hauthoritative
    obtain ⟨result, hresult, hfor⟩ := exists_result platform source answers hitem
    have hdead := hfailed index item result hresult hfor hauthoritative
    refine ⟨result, by rw [hurls, hresult], hfor.of_item, hdead, ?_⟩
    intro hreachable
    rw [hfor.reached hreachable] at hdead
    nomatch hdead

def deadPlatform : Platform PlainUrl := plainPlatform
  (units "f665f765920820d6ab44087e3e9ae609bdee1ee89702234bfc13441a246fe774")

def deadDecision : Option SourceEvidenceDecision :=
  sourceEvidenceCloseDecision (checkSubmittedSourceEvidence deadPlatform exampleEntry
    fun _ _ => .response 404 none)

theorem deadDecision_closes :
    (deadDecision.any fun decision => decision.close) = true := by decide +kernel

/-- An entry both of whose URLs are gone. -/
theorem example_justified :
    Justified deadPlatform exampleEntry (fun _ _ => .response 404 none)
      fun index => 10 ≤ index := by
  obtain ⟨decision, hdecision, hclose⟩ := (Option.any_eq_true _ _).mp deadDecision_closes
  exact justified_of_close hdecision hclose

/-- Ten pages of a package registry, and two more on a host of the project's own. -/
def cappedEntry : Units := [newline].intercalate (units "---" :: units "sourceUrls:" ::
  (List.range 10).map (fun n => units "  - https://npmjs.com/" ++ [97 + n]) ++
  [units "  - https://widgets.dev/code", units "  - https://widgets.dev/docs", units "---"])

def cappedPlatform : Platform PlainUrl := plainPlatform
  (units "7929db4bd287ad2324b8989627d9f0ee54443d7c6359647a6d96dbd9949ae611")

def cappedDecision : Option SourceEvidenceDecision :=
  sourceEvidenceCloseDecision (checkSubmittedSourceEvidence cappedPlatform cappedEntry
    fun _ _ => .response 200 none)

/-- The entry is closed, and its eleventh URL is authoritative and well formed. -/
theorem capped_facts :
    (cappedDecision.any fun decision => decision.close) = true ∧
    (extractSubmittedSourceUrls cappedPlatform.toUrlApi cappedEntry)[10]? =
      some ⟨units "sourceUrls", units "https://widgets.dev/code"⟩ ∧
    isAuthoritative cappedPlatform
      ⟨units "sourceUrls", units "https://widgets.dev/code"⟩ = true ∧
    isAbsoluteHttpUrl cappedPlatform.toUrlApi (units "https://widgets.dev/code") ≠ false := by
  decide +kernel

/-- Every URL that is looked at answers, and the entry is closed for the two that are not. -/
theorem capped_not_justified :
    ∃ decision, sourceEvidenceCloseDecision (checkSubmittedSourceEvidence cappedPlatform cappedEntry
        fun _ _ => .response 200 none) = some decision ∧ decision.close = true ∧
      ¬ Justified cappedPlatform cappedEntry (fun _ _ => .response 200 none) fun _ => False := by
  obtain ⟨hcloses, hitem, hauthoritative, habsolute⟩ := capped_facts
  obtain ⟨decision, hdecision, hclose⟩ := (Option.any_eq_true _ _).mp hcloses
  refine ⟨decision, hdecision, hclose, fun hjustified => ?_⟩
  rcases hjustified.probed 10 _ hitem hauthoritative with ⟨check, hcheck, -⟩ | hmalformed | h
  · have hlt := (List.getElem?_eq_some_iff.mp hcheck).1
    exact absurd (length_sourceChecks_le cappedEntry _) (Nat.not_le.mpr hlt)
  · exact absurd hmalformed habsolute
  · exact h

end Gittensory.SourceEvidence
