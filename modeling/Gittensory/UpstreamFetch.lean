import Gittensory.JsonText
import Gittensory.UpstreamSources

/-!
One refresh of the tracked sources. Every source is asked for at the contents API and, when
that does not answer with the file, at its raw address. A snapshot keeps what a later refresh
may need; each of the four outcomes carries other fields over from the previous snapshot.
-/
namespace Gittensory.UpstreamFetch

open CodeUnits JsonRecord JsonText StoredJson UpstreamSources

inductive UpstreamSourceStatus where
  | fetched
  | fallback
  | notModified
  | error
  deriving DecidableEq

structure UpstreamSourceSnapshotRecord where
  sourceKey : SourceKey
  commitSha : Option Units
  blobSha : Option Units
  /-- `undefined`, `null` or a text. -/
  contentSha256 : Option (Option Units)
  etag : Option Units
  status : UpstreamSourceStatus
  parsed : Record
  warnings : List Units

/-- The JSON body of the contents API. -/
structure ContentsPayload where
  content : Option Units
  encoding : Option Units
  sha : Option Units

/-- What the contents API does: the request fails, or a response comes whose body may fail to
be read. Failures are given by their messages. -/
inductive ApiOutcome where
  | threw (message : Units)
  | answered (status : ℕ) (body : Except Units ContentsPayload) (etag : Option Units)

inductive RawOutcome where
  | threw (message : Units)
  | answered (status : ℕ) (statusText : Units) (text : Except Units Units)

/-- `response.ok` -/
def isOk (status : ℕ) : Bool := 200 ≤ status && status < 300

section Fetching

variable (platform : Platform)

def sha256Hex (value : Units) : Units :=
  (platform.digest value).flatMap fun byte => [hexDigit (byte / 16), hexDigit (byte % 16)]

def decodeBase64 (value : Units) : Except Units Units :=
  (platform.atob (value.filter fun unit => !isSpace unit)).map platform.utf8Decode

/-- The content of a contents API body; an empty one counts as none. -/
def payloadContent (payload : ContentsPayload) : Except Units Units := do
  let content ← match payload.content with
    | some content =>
        if payload.encoding = some (units "base64") ∧ content ≠ [] then
          decodeBase64 platform content
        else pure []
    | none => pure []
  if content = [] then throw (units "GitHub contents response did not include file content.")
  pure content

def sourceSnapshotFromContent (source : SourceKey) (commitSha blobSha etag : Option Units)
    (content : Units) (status : UpstreamSourceStatus) (warnings : List Units) :
    UpstreamSourceSnapshotRecord where
  sourceKey := source
  commitSha := commitSha
  blobSha := blobSha
  contentSha256 := some (some (sha256Hex platform content))
  etag := etag
  status := status
  parsed := parseTrackedSource platform source content
  warnings := warnings

def cloneNotModifiedSnapshot (previous : UpstreamSourceSnapshotRecord) (commitSha : Option Units) :
    UpstreamSourceSnapshotRecord :=
  { previous with
    commitSha := commitSha.or previous.commitSha
    status := .notModified }

/-- What the first request comes to: the file is not modified, or it is there, or a warning. -/
inductive ApiReading where
  | notModified
  | content (blobSha etag : Option Units) (content : Units)
  | failed (warning : Units)

def apiFailed (reason : Units) : ApiReading :=
  .failed (units "GitHub contents API failed (" ++ reason ++ units "); raw fallback used.")

def readApi : ApiOutcome → ApiReading
  | .threw message => apiFailed message
  | .answered status body etag =>
      if status = 304 then .notModified
      else if isOk status then
        match body with
        | .error message => apiFailed message
        | .ok payload =>
            match payloadContent platform payload with
            | .error message => apiFailed message
            | .ok content => .content payload.sha etag content
      else apiFailed (units (toString status))

/-- The text of the raw address, or the message of the failure. -/
def readRaw : RawOutcome → Except Units Units
  | .threw message => .error message
  | .answered status statusText text =>
      if isOk status then text else .error (units (toString status) ++ space :: statusText)

/-- The raw address after the contents API did not give the file. -/
def fetchRaw (source : SourceKey) (commitSha : Option Units)
    (previous : Option UpstreamSourceSnapshotRecord) (raw : RawOutcome) (warning : Units) :
    UpstreamSourceSnapshotRecord :=
  match readRaw raw with
  | .ok content => sourceSnapshotFromContent platform source commitSha none none content .fallback
      [warning]
  | .error message =>
      -- The parsed record is kept; the content hash and the etag are not.
      { sourceKey := source
        commitSha := commitSha
        blobSha := none
        contentSha256 := none
        etag := none
        status := .error
        parsed := (previous.map fun snapshot => snapshot.parsed).getD []
        warnings := [warning, units "Raw fallback failed: " ++ message] }

def fetchTrackedSource (source : SourceKey) (commitSha : Option Units)
    (previous : Option UpstreamSourceSnapshotRecord) (api : ApiOutcome) (raw : RawOutcome) :
    UpstreamSourceSnapshotRecord :=
  match readApi platform api, previous with
  | .notModified, some previous => cloneNotModifiedSnapshot previous commitSha
  | .notModified, none => fetchRaw platform source commitSha previous raw
      (units "GitHub contents API failed (304); raw fallback used.")
  | .content blobSha etag content, _ =>
      sourceSnapshotFromContent platform source commitSha blobSha etag content .fetched []
  | .failed warning, _ => fetchRaw platform source commitSha previous raw warning

/-- What the requests of one refresh come to. -/
structure UpstreamAnswers where
  commitSha : Option Units
  api : SourceKey → ApiOutcome
  raw : SourceKey → RawOutcome

/-- The newest snapshot of a source among the newest 200 rows; `rows` has the newest first. -/
def latestSourcesByKey (rows : List UpstreamSourceSnapshotRecord) (source : SourceKey) :
    Option UpstreamSourceSnapshotRecord :=
  (rows.take 200).find? fun row => row.sourceKey = source

/-- A snapshot as its row reads back; a column that was not set is `null`. -/
def persisted (snapshot : UpstreamSourceSnapshotRecord) : UpstreamSourceSnapshotRecord :=
  { snapshot with
    contentSha256 := some snapshot.contentSha256.join
    parsed := storedFields snapshot.parsed }

def refreshUpstreamSourceSnapshots (rows : List UpstreamSourceSnapshotRecord)
    (answers : UpstreamAnswers) : List UpstreamSourceSnapshotRecord :=
  TRACKED_SOURCES.map fun source => fetchTrackedSource platform source answers.commitSha
    (latestSourcesByKey rows source) (answers.api source) (answers.raw source)

end Fetching

end Gittensory.UpstreamFetch
