import Gittensory.SourceFetch

/-!
Every hop of the source check is guarded, and their number is bounded. Each of its loops only
adds guarded calls to those made before, so many at most as it has hops or attempts left, and
such additions compose.
-/
namespace Gittensory.SourceGuard

open CodeUnits DuplicateSignals SafeUrl SourceUrls SourceFetch

variable {URL : Type}

/-- A web address that was parsed is what its own text is parsed to. -/
def ReadsBack (api : UrlApi URL) : Prop :=
  ∀ raw url, api.parse raw = some url → api.protocol url ∈ [units "http:", units "https:"] →
    api.parse (api.toText url) = some url

variable (platform : Platform URL)

def PassesGuard (url : Units) : Prop :=
  ∃ parsed, validateFetchableSourceUrl platform url = .ok parsed

/-- A run adds calls that passed the guard only, at most `limit` of them. -/
def AddsGuarded (limit : ℕ) (log asked : List Request) : Prop :=
  ∃ added, asked = log ++ added ∧ added.length ≤ limit ∧
    ∀ request ∈ added, PassesGuard platform request.url

variable {platform}

theorem AddsGuarded.refl (limit : ℕ) (log : List Request) : AddsGuarded platform limit log log :=
  ⟨[], (List.append_nil log).symm, Nat.zero_le _, List.forall_mem_nil _⟩

theorem AddsGuarded.trans {first second : ℕ} {log asked later : List Request}
    (h : AddsGuarded platform first log asked) (h' : AddsGuarded platform second asked later) :
    AddsGuarded platform (first + second) log later := by
  obtain ⟨added, rfl, hlength, hsafe⟩ := h
  obtain ⟨more, rfl, hlength', hsafe'⟩ := h'
  refine ⟨added ++ more, List.append_assoc .., ?_, ?_⟩
  · rw [List.length_append]
    omega
  · exact List.forall_mem_append.mpr ⟨hsafe, hsafe'⟩

theorem AddsGuarded.mono {limit bound : ℕ} {log asked : List Request}
    (h : AddsGuarded platform limit log asked) (hle : limit ≤ bound) :
    AddsGuarded platform bound log asked := by
  obtain ⟨added, hasked, hlength, hsafe⟩ := h
  exact ⟨added, hasked, hlength.trans hle, hsafe⟩

theorem AddsGuarded.single {log : List Request} {request : Request}
    (h : PassesGuard platform request.url) :
    AddsGuarded platform 1 log (log ++ [request]) :=
  ⟨[request], rfl, le_rfl, List.forall_mem_singleton.mpr h⟩

variable (platform) (item : SubmittedSourceUrl) (answers : Answers)

/-- One call for each hop that is left, by induction on their number. -/
theorem fetchHops_addsGuarded (method : Method) (timeoutMs hops : ℕ) (currentUrl : Units)
    (log : List Request) :
    AddsGuarded platform hops log
      (fetchHops platform item method timeoutMs answers hops currentUrl log).2 := by
  induction hops generalizing currentUrl log with
  | zero => exact AddsGuarded.refl 0 log
  | succ hops ih =>
    unfold fetchHops
    split
    · exact AddsGuarded.refl _ log
    · rename_i parsed hparsed
      have hcall : AddsGuarded platform 1 log
          (log ++ [⟨currentUrl, method, BROWSER_FETCH_HEADERS, timeoutMs⟩]) :=
        AddsGuarded.single ⟨parsed, hparsed⟩
      have hlast := hcall.mono (Nat.le_add_left 1 hops)
      dsimp only
      split
      · exact hlast
      · split_ifs with hredirect hnext hend
        · exact hlast
        · exact hlast
        · exact (hcall.trans (ih _ _)).mono (Nat.add_comm 1 hops).le
        · exact hlast

theorem fetchSourceUrl_addsGuarded (method : Method) (timeoutMs : ℕ) (log : List Request) :
    AddsGuarded platform (MAX_SOURCE_EVIDENCE_REDIRECTS + 1) log
      (fetchSourceUrl platform item method timeoutMs answers log).2 :=
  fetchHops_addsGuarded platform item answers method timeoutMs _ item.url log

/-- One run for each attempt that is left. -/
theorem fetchByGet_addsGuarded (attempts : ℕ) (lastError : Option Units) (log : List Request) :
    AddsGuarded platform (attempts * (MAX_SOURCE_EVIDENCE_REDIRECTS + 1)) log
      (fetchByGet platform item answers attempts lastError log).2 := by
  induction attempts generalizing lastError log with
  | zero => exact AddsGuarded.refl _ log
  | succ attempts ih =>
    have hrun := fetchSourceUrl_addsGuarded platform item answers .GET
      SOURCE_EVIDENCE_GET_TIMEOUT_MS log
    unfold fetchByGet
    split
    · rename_i result asked hfetched
      rw [hfetched] at hrun
      exact hrun.mono (Nat.le_mul_of_pos_left _ attempts.succ_pos)
    · rename_i message asked hfetched
      rw [hfetched] at hrun
      exact (hrun.trans (ih message asked)).mono (by rw [Nat.succ_mul]; omega)

/-- The HEAD probe and the attempts to read the URL. -/
theorem checkOneSourceUrl_addsGuarded :
    AddsGuarded platform ((1 + SOURCE_EVIDENCE_GET_ATTEMPTS) * (MAX_SOURCE_EVIDENCE_REDIRECTS + 1))
      [] (checkOneSourceUrl platform item answers).2 := by
  have hprobe := fetchSourceUrl_addsGuarded platform item answers .HEAD SOURCE_EVIDENCE_TIMEOUT_MS []
  have hread := fun log => fetchByGet_addsGuarded platform item answers
    SOURCE_EVIDENCE_GET_ATTEMPTS none log
  rw [Nat.add_mul, Nat.one_mul]
  unfold checkOneSourceUrl
  split
  · exact AddsGuarded.refl _ []
  · split
    · rename_i head log hfetched
      rw [hfetched] at hprobe
      split_ifs with hpassed
      · exact hprobe.mono (Nat.le_add_right _ _)
      · exact hprobe.trans (hread log)
    · rename_i message log hfetched
      rw [hfetched] at hprobe
      exact hprobe.trans (hread log)

variable {platform}

/-- The guard looks at the text of the parsed URL, the call goes to the raw text. Both name the
same URL. -/
theorem PassesGuard.isSafeHttpUrl {url : Units} (h : PassesGuard platform url)
    (hreads : ReadsBack platform.toUrlApi) : isSafeHttpUrl platform.toUrlApi url = true := by
  obtain ⟨parsed, h⟩ := h
  unfold validateFetchableSourceUrl at h
  split at h
  · nomatch h
  · rename_i found hfound
    split_ifs at h with hprotocol hsafe
    have hback := hreads url found hfound hprotocol
    have hsafe' : SafeUrl.isSafeHttpUrl platform.toUrlApi (platform.toText found) = true := by
      simpa using hsafe
    rw [SafeUrl.isSafeHttpUrl, hback] at hsafe'
    rw [SafeUrl.isSafeHttpUrl, hfound]
    exact hsafe'

/-! ## Plain URLs read back -/

theorem plainUrl?_toText {url : PlainUrl} (hscheme : colon ∉ url.scheme)
    (hhost : slash ∉ url.host) (hne : url.host ≠ []) (hpath : url.path.head? = some slash) :
    plainUrl? (plainUrls.toText url) = some url := by
  obtain ⟨path, hpathEq⟩ : ∃ path, url.path = slash :: path := by
    cases h : url.path with
    | nil =>
      rw [h] at hpath
      nomatch hpath
    | cons first path =>
      rw [h, List.head?_cons, Option.some.injEq] at hpath
      exact ⟨path, by rw [hpath]⟩
  have hsplit : plainUrls.toText url =
      url.scheme ++ colon :: slash :: slash :: (url.host ++ slash :: path) := by
    change url.scheme ++ units "://" ++ url.host ++ url.path = _
    rw [hpathEq, List.append_assoc, List.append_assoc]
    rfl
  have hscheme' : (plainUrls.toText url).takeWhile (fun unit => unit ≠ colon) = url.scheme := by
    rw [hsplit, takeWhile_ne_append hscheme]
  have hrest : (plainUrls.toText url).drop url.scheme.length =
      colon :: slash :: slash :: (url.host ++ slash :: path) := by
    rw [hsplit, List.drop_left]
  unfold plainUrl?
  simp only [hscheme', hrest, List.drop_succ_cons, List.drop_zero,
    takeWhile_ne_append hhost, List.drop_left]
  rw [if_pos ⟨rfl, hne⟩, orText, if_neg (List.cons_ne_nil _ _), ← hpathEq]

theorem not_mem_takeWhile_ne (unit : ℕ) (text : Units) :
    unit ∉ text.takeWhile fun other => other ≠ unit := by
  intro hmem
  have hne := List.mem_takeWhile_imp hmem
  simp at hne

/-- What follows the units read off starts with the unit that ended them. -/
theorem head?_drop_takeWhile_ne {unit first : ℕ} {text : Units}
    (h : (text.drop (text.takeWhile fun other => other ≠ unit).length).head? = some first) :
    first = unit := by
  have hdrop := congrArg (List.drop (text.takeWhile fun other => other ≠ unit).length)
    (List.takeWhile_append_dropWhile (p := fun other => decide (other ≠ unit)) (l := text))
  rw [List.drop_left] at hdrop
  have hstop := List.head?_dropWhile_not (fun other => decide (other ≠ unit)) text
  rw [← hdrop] at h
  rw [h] at hstop
  simpa using hstop

theorem readsBack_plainUrls : ReadsBack plainUrls := by
  intro raw url h _
  change plainUrl? raw = some url at h
  unfold plainUrl? at h
  dsimp only at h
  split_ifs at h with hform
  rw [Option.some.injEq] at h
  subst h
  refine plainUrl?_toText (not_mem_takeWhile_ne colon raw) (not_mem_takeWhile_ne slash _) hform.2 ?_
  change (orText _ [slash]).head? = some slash
  unfold orText
  split_ifs with hpath
  · rfl
  · obtain ⟨first, path, hcons⟩ := List.exists_cons_of_ne_nil hpath
    have hfirst := head?_drop_takeWhile_ne (show _ = some first by rw [hcons]; rfl)
    rw [hcons, hfirst]
    rfl

/-! ## The whole check -/

theorem length_sourceChecks_le (source : Units) (answers : ℕ → Answers) :
    (sourceChecks platform source answers).length ≤ MAX_SOURCE_EVIDENCE_URLS := by
  rw [sourceChecks, List.length_map, List.length_zipIdx]
  exact List.length_take_le _ _

theorem length_downgrade (urls : List SourceEvidenceItem) :
    (downgradeInconclusiveSourceWarnings urls).length = urls.length := by
  unfold downgradeInconclusiveSourceWarnings
  split_ifs
  · rfl
  · exact List.length_map _

/-- Every submitted URL gets its result, checked or not. -/
theorem length_checkedUrls (source : Units) (answers : ℕ → Answers) :
    (checkedUrls platform source answers).length =
      (extractSubmittedSourceUrls platform.toUrlApi source).length := by
  rw [checkedUrls, List.length_append, List.length_map, List.length_map, sourceChecks,
    List.length_map, List.length_zipIdx, ← List.length_append, List.take_append_drop]

/-- Whatever the document and the answers, a report on all submitted URLs comes out; at most
ten of them are checked, each with at most fifteen calls, and every call is to a safe URL. -/
theorem sourceChecks_guarded (hreads : ReadsBack platform.toUrlApi) (source : Units)
    (answers : ℕ → Answers) :
    (checkSubmittedSourceEvidence platform source answers).urls.length =
        (extractSubmittedSourceUrls platform.toUrlApi source).length ∧
      (sourceChecks platform source answers).length ≤ 10 ∧
      ∀ check ∈ sourceChecks platform source answers, check.2.length ≤ 15 ∧
        ∀ request ∈ check.2, isSafeHttpUrl platform.toUrlApi request.url = true := by
  have hlength : (checkSubmittedSourceEvidence platform source answers).urls.length =
      (checkedUrls platform source answers).length := by
    rw [checkSubmittedSourceEvidence_urls, length_downgrade]
  refine ⟨hlength.trans (length_checkedUrls source answers),
    length_sourceChecks_le source answers, ?_⟩
  intro check hcheck
  obtain ⟨⟨item, index⟩, -, rfl⟩ := List.mem_map.mp hcheck
  obtain ⟨added, hadded, hlength, hsafe⟩ :=
    checkOneSourceUrl_addsGuarded platform item (answers index)
  rw [List.nil_append] at hadded
  dsimp only
  rw [hadded]
  exact ⟨hlength, fun request hrequest => (hsafe request hrequest).isSafeHttpUrl hreads⟩

def exampleEntry : Units := [newline].intercalate [
  units "---",
  units "title: Widgets",
  units "sourceUrl: https://widgets.dev/code",
  units "docsUrl: https://widgets.dev/docs",
  units "---"]

/-- The probe of the documentation is redirected and then breaks off, and the attempt to read
it is redirected to a private host; the probe of the code is not allowed. -/
def exampleAnswers : ℕ → Answers
  | 0, 0 => .response 302 (some (units "https://cdn.widgets.dev/docs"))
  | 0, 1 => .threw (some (units "The operation was aborted due to timeout"))
  | 0, 2 => .response 302 (some (units "https://127.0.0.1/docs"))
  | 1, 0 => .response 405 none
  | _, _ => .response 200 none

def examplePlatform : Platform PlainUrl := plainPlatform
  (units "1bccbf2ddf45057f5f71a21a211964f1afc2317bb3f435fb7b29badc8c08f436")

theorem example_sourceChecks_guarded :
    (sourceChecks examplePlatform exampleEntry exampleAnswers).map
        (fun check => check.2.map Request.url) =
      [[units "https://widgets.dev/docs", units "https://cdn.widgets.dev/docs",
        units "https://widgets.dev/docs"],
        [units "https://widgets.dev/code", units "https://widgets.dev/code"]] ∧
      ∀ check ∈ sourceChecks examplePlatform exampleEntry exampleAnswers, check.2.length ≤ 15 ∧
        ∀ request ∈ check.2, isSafeHttpUrl examplePlatform.toUrlApi request.url = true :=
  ⟨by decide +kernel, (sourceChecks_guarded readsBack_plainUrls exampleEntry exampleAnswers).2.2⟩

end Gittensory.SourceGuard
