import Gittensory.JsCoercion
import Gittensory.SourceUrls

/-!
How the declared source URLs are checked over the network. A check probes its URL with HEAD
and, unless that passes, reads it with GET, once more after a failed call; each of the three
follows redirects by hand and guards every hop. Whatever the other side answers, a check
calls out to safe URLs only, and no more often than its three runs allow together.
-/
namespace Gittensory.SourceFetch

open CodeUnits DuplicateSignals SafeUrl SourceUrls JsonRecord JsCoercion RadixNumerals

def BROWSER_FETCH_HEADERS : List (Units × Units) := [
  (units "user-agent",
    units "Mozilla/5.0 (Windows NT 10.0; Win64; x64) AppleWebKit/537.36 (KHTML, like Gecko) " ++
      units "Chrome/125.0.0.0 Safari/537.36"),
  (units "accept",
    units "text/html,application/xhtml+xml,application/xml;q=0.9,application/json;q=0.8," ++
      units "text/plain;q=0.7,*/*;q=0.5"),
  (units "accept-language", units "en-US,en;q=0.9")]

def SOURCE_EVIDENCE_TIMEOUT_MS : ℕ := 5000

def SOURCE_EVIDENCE_GET_TIMEOUT_MS : ℕ := 12000

def SOURCE_EVIDENCE_GET_ATTEMPTS : ℕ := 2

def MAX_SOURCE_EVIDENCE_URLS : ℕ := 10

def MAX_SOURCE_EVIDENCE_REDIRECTS : ℕ := 4

/-! ## Requests and answers -/

inductive Method
  | HEAD
  | GET
  deriving DecidableEq

/-- One call of `fetchImpl`, always with `redirect: "manual"`. -/
structure Request where
  url : Units
  method : Method
  headers : List (Units × Units)
  timeoutMs : ℕ
  deriving DecidableEq

/-- What a call comes to; what it throws has a message if it is an `Error`. -/
inductive FetchOutcome
  | response (status : ℕ) (location : Option Units)
  | threw (message : Option Units)

/-- The answers to the calls of one check, by how many calls went before. -/
abbrev Answers := ℕ → FetchOutcome

/-- The platform: URL objects, `new URL(location, base)`, the message of the error that
`new URL(url)` throws, and the hash. -/
structure Platform (URL : Type) extends UrlApi URL where
  resolve : Units → Units → Option URL
  urlError : Units → Units
  sha256Hex : Units → Units

/-! ## Results -/

inductive SourceStatus
  | passed
  | hard_failure
  | retryable
  deriving DecidableEq

def SourceStatus.text : SourceStatus → Units
  | .passed => units "passed"
  | .hard_failure => units "hard_failure"
  | .retryable => units "retryable"

def roleText : SourceEvidenceRole → Units
  | .canonical => units "canonical"
  | .distribution => units "distribution"

structure SourceEvidenceItem extends SubmittedSourceUrl where
  status : SourceStatus
  role : SourceEvidenceRole
  blocking : Bool
  outcome : Units
  httpStatus : Option ℕ := none
  finalUrl : Option Units := none
  error : Option Units := none
  deriving DecidableEq

inductive ReportStatus
  | passed
  | failed
  | retryable
  deriving DecidableEq

structure SourceEvidenceReport where
  status : ReportStatus
  hash : Units
  urls : List SourceEvidenceItem
  warnings : List SourceEvidenceItem
  deriving DecidableEq

variable {URL : Type} (platform : Platform URL)

/-- The values of a result besides its URL, role and blocking. -/
structure SourceValues where
  status : SourceStatus
  outcome : Units
  httpStatus : Option ℕ := none
  finalUrl : Option Units := none
  error : Option Units := none

def withSourceDefaults (item : SubmittedSourceUrl) (values : SourceValues) : SourceEvidenceItem :=
  { item with
    status := values.status
    role := sourceRole platform.toUrlApi item
    blocking := true
    outcome := values.outcome
    httpStatus := values.httpStatus
    finalUrl := values.finalUrl
    error := values.error }

def sourceStatusFromHttpStatus (status : ℕ) : SourceStatus :=
  if status ≥ 200 ∧ status < 400 then .passed
  else if status ∈ [401, 403, 408, 425, 429] ∨ status ≥ 500 then .retryable
  else if status = 404 ∨ status = 410 then .hard_failure
  else if status ≥ 400 ∧ status < 500 then .hard_failure
  else .retryable

/-! ## The guard -/

inductive FetchableValidation (URL : Type)
  | ok (parsed : URL)
  | refused (outcome error : Units)

def validateFetchableSourceUrl (url : Units) : FetchableValidation URL :=
  match platform.parse url with
  | none => .refused (units "invalid_url") (platform.urlError url)
  | some parsed =>
      if platform.protocol parsed ∉ [units "http:", units "https:"] then
        .refused (units "invalid_url") (units "Source URL must use http or https.")
      else if !isSafeHttpUrl platform.toUrlApi (platform.toText parsed) then
        .refused (units "source_host_not_checked")
          (units "Source URL must be https with a public (non-loopback, non-private) host to be " ++
            units "verified.")
      else .ok parsed

/-! ## The check of one URL -/

def redirectLocation (location : Option Units) (currentUrl : Units) : Units :=
  match location with
  | none => []
  | some location =>
      if location = [] then []
      else
        match platform.resolve location currentUrl with
        | none => []
        | some url => platform.toText url

/-- A run's result, or what it threw, and the calls of the check so far. -/
abbrev Fetched := Except (Option Units) SourceEvidenceItem × List Request

/-- The loop over the hops. It may take `hops` more of them, the last of which is the one with
`redirects === MAX_SOURCE_EVIDENCE_REDIRECTS`. -/
def fetchHops (item : SubmittedSourceUrl) (method : Method) (timeoutMs : ℕ) (answers : Answers) :
    ℕ → Units → List Request → Fetched
  | 0, _, log =>
      (.ok (withSourceDefaults platform item
        { status := .retryable, outcome := units "too_many_redirects" }), log)
  | hops + 1, currentUrl, log =>
      match validateFetchableSourceUrl platform currentUrl with
      | .refused outcome error =>
          (.ok (withSourceDefaults platform item
            { status := .hard_failure, outcome := outcome, error := some error }), log)
      | .ok _ =>
          let asked := log ++ [⟨currentUrl, method, BROWSER_FETCH_HEADERS, timeoutMs⟩]
          match answers log.length with
          | .threw message => (.error message, asked)
          | .response status location =>
              if status ≥ 300 ∧ status < 400 then
                let nextUrl := redirectLocation platform location currentUrl
                if nextUrl = [] then
                  (.ok (withSourceDefaults platform item
                    { status := .retryable
                      outcome := units "redirect_without_location"
                      httpStatus := some status
                      finalUrl := some currentUrl }), asked)
                else if hops = 0 then
                  (.ok (withSourceDefaults platform item
                    { status := .retryable
                      outcome := units "too_many_redirects"
                      httpStatus := some status
                      finalUrl := some currentUrl }), asked)
                else fetchHops item method timeoutMs answers hops nextUrl asked
              else
                let verdict := sourceStatusFromHttpStatus status
                (.ok (withSourceDefaults platform item
                  { status := verdict
                    outcome :=
                      match verdict with
                      | .passed => units "reachable"
                      | .hard_failure => units "http_hard_failure"
                      | .retryable => units "source_inconclusive"
                    httpStatus := some status
                    finalUrl := some currentUrl }), asked)

def fetchSourceUrl (item : SubmittedSourceUrl) (method : Method) (timeoutMs : ℕ)
    (answers : Answers) (log : List Request) : Fetched :=
  fetchHops platform item method timeoutMs answers (MAX_SOURCE_EVIDENCE_REDIRECTS + 1) item.url log

/-- The loop over the attempts to read the URL; `lastError` is what the last one threw. -/
def fetchByGet (item : SubmittedSourceUrl) (answers : Answers) :
    ℕ → Option Units → List Request → SourceEvidenceItem × List Request
  | 0, lastError, log =>
      (withSourceDefaults platform item
        { status := .retryable
          outcome := units "fetch_error"
          error := some (lastError.getD
            (units "Source URL fetch failed before a response was returned.")) }, log)
  | attempts + 1, _, log =>
      match fetchSourceUrl platform item .GET SOURCE_EVIDENCE_GET_TIMEOUT_MS answers log with
      | (.ok result, log) => (result, log)
      | (.error message, log) => fetchByGet item answers attempts message log

/-- The result and the calls made for it. -/
def checkOneSourceUrl (item : SubmittedSourceUrl) (answers : Answers) :
    SourceEvidenceItem × List Request :=
  match validateFetchableSourceUrl platform item.url with
  | .refused outcome error =>
      let invalidProtocol := outcome = units "invalid_url"
      (withSourceDefaults platform item
        { status := if invalidProtocol then .hard_failure else .passed
          outcome := outcome
          error := some error }, [])
  | .ok _ =>
      match fetchSourceUrl platform item .HEAD SOURCE_EVIDENCE_TIMEOUT_MS answers [] with
      | (.ok head, log) =>
          if head.status = .passed then (head, log)
          else fetchByGet platform item answers SOURCE_EVIDENCE_GET_ATTEMPTS none log
      | (.error _, log) => fetchByGet platform item answers SOURCE_EVIDENCE_GET_ATTEMPTS none log

/-! ## The report -/

def evidenceRecord (item : SourceEvidenceItem) : JsonValue :=
  .object [
    ("field", .string item.field),
    ("url", .string item.url),
    ("finalUrl", .string (item.finalUrl.getD [])),
    ("status", .string item.status.text),
    ("outcome", .string item.outcome),
    ("httpStatus",
      match item.httpStatus with
      | none | some 0 => .null
      | some status => .number (.finite status)),
    ("role", .string (roleText item.role)),
    ("blocking", .bool item.blocking)]

def sourceEvidenceHashInput (urls : List SourceEvidenceItem) : Units :=
  stringify (.array (urls.map evidenceRecord))

def reachableCanonical (urls : List SourceEvidenceItem) : List SourceEvidenceItem :=
  urls.filter fun item =>
    item.role = .canonical ∧ item.status = .passed ∧ item.outcome = units "reachable"

def hasVerifiableCanonicalSource (urls : List SourceEvidenceItem) : Bool :=
  (reachableCanonical urls).length ≥ 2 ||
    (reachableCanonical urls).any fun item => item.field ∈ PRIMARY_CANONICAL_SOURCE_FIELDS

def isDowngradableInconclusiveSource (item : SourceEvidenceItem) : Bool :=
  if item.status = .retryable ∧ item.field ∉ PRIMARY_CANONICAL_SOURCE_FIELDS then true
  else item.status = .hard_failure ∧ item.role = .distribution ∧
    item.outcome = units "source_host_not_checked"

def downgradeInconclusiveSourceWarnings (urls : List SourceEvidenceItem) :
    List SourceEvidenceItem :=
  if !hasVerifiableCanonicalSource urls then urls
  else urls.map fun item =>
    if isDowngradableInconclusiveSource item then { item with blocking := false } else item

/-- What is checked at all, each with the answers it meets. -/
def sourceChecks (source : Units) (answers : ℕ → Answers) :
    List (SourceEvidenceItem × List Request) :=
  ((extractSubmittedSourceUrls platform.toUrlApi source).take MAX_SOURCE_EVIDENCE_URLS).zipIdx.map
    fun (item, index) => checkOneSourceUrl platform item (answers index)

/-- The result of a URL beyond those that are checked. -/
def uncheckedUrl (item : SubmittedSourceUrl) : SourceEvidenceItem :=
  withSourceDefaults platform item
    { status := .hard_failure
      outcome := units "too_many_source_urls"
      error := some (units "Only " ++ shortest 10 MAX_SOURCE_EVIDENCE_URLS ++
        units " source URLs can be checked automatically.") }

def checkedUrls (source : Units) (answers : ℕ → Answers) : List SourceEvidenceItem :=
  (sourceChecks platform source answers).map Prod.fst ++
    ((extractSubmittedSourceUrls platform.toUrlApi source).drop MAX_SOURCE_EVIDENCE_URLS).map
      (uncheckedUrl platform)

def reportStatus (urls : List SourceEvidenceItem) : ReportStatus :=
  let blockingUrls := urls.filter SourceEvidenceItem.blocking
  if blockingUrls.any fun item => item.status = .hard_failure then .failed
  else if blockingUrls.any fun item => item.status = .retryable then .retryable
  else .passed

def checkSubmittedSourceEvidence (source : Units) (answers : ℕ → Answers) :
    SourceEvidenceReport :=
  let urls := downgradeInconclusiveSourceWarnings (checkedUrls platform source answers)
  { status := reportStatus urls
    hash := platform.sha256Hex (sourceEvidenceHashInput urls)
    urls := urls
    warnings := urls.filter fun item => !item.blocking && item.status ≠ .passed }

theorem checkSubmittedSourceEvidence_urls (source : Units) (answers : ℕ → Answers) :
    (checkSubmittedSourceEvidence platform source answers).urls =
      downgradeInconclusiveSourceWarnings (checkedUrls platform source answers) := by
  rw [checkSubmittedSourceEvidence]

/-! ## Plain URLs -/

/-- A platform that knows plain URLs, absolute locations and the hash of one text. -/
def plainPlatform (hash : Units) : Platform PlainUrl where
  toUrlApi := plainUrls
  resolve location _ := plainUrl? location
  urlError _ := units "Invalid URL"
  sha256Hex _ := hash

end Gittensory.SourceFetch
