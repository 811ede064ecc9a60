import Gittensory.JsCoercion
import Gittensory.SafeUrl
import Gittensory.StoredJson

/-!
The gate for registry candidates (`content-lane/registry-logic.ts`): a document is arbitrary
JSON, holds its candidate in one of two places, and is checked field by field. Fields are
turned into text and numbers before they are compared, and a conversion may throw.
-/
namespace Gittensory.RegistryCandidate

open CodeUnits JsValue JsonRecord StoredJson JsCoercion TextPattern SafeUrl
open DuplicateSignals (UrlApi)

def REVIEWER_CLOSE_REASONS : List String :=
  ["malformed-json", "unsafe-url", "unsupported-shape", "secret-or-credential",
    "observed-state-claim"]

def OBSERVED_STATE_KEYS : List String :=
  ["health", "healthy", "uptime", "downtime", "latency", "response_time", "incident", "status",
    "availability", "sla", "is_up", "online", "degraded", "last_checked"]

def REVIEWER_BASE_LAYER_KINDS : List Units :=
  [units "archive", units "subtensor-rpc", units "subtensor-wss"]

def REVIEWER_SAFE_KINDS : List Units :=
  [units "website", units "source-repo", units "subnet-api", units "openapi", units "sse",
    units "sdk", units "example", units "dashboard", units "repo-registry", units "docs",
    units "data-artifact"]

inductive MetaVerdict where
  | merged
  | closed
  | manualReview
  deriving DecidableEq, Repr

structure Assessment where
  verdict : MetaVerdict
  summary : Option String
  candidate : JsonValue
  reason : Option String

structure AssessOptions where
  secretsScan : Bool
  sourceUrlValidation : Bool

/-- What callers that pass nothing get. -/
def defaultOptions : AssessOptions := ⟨true, true⟩

/-! ## Secrets -/

/-- `[A-Za-z0-9_]{20,}\b` -/
def tokenBody : Pattern :=
  .seq (.atLeast 20 (.char ⟨false, [('A', 'Z'), ('a', 'z'), ('0', '9'), ('_', '_')]⟩)) .wordBoundary

def secretPattern : Pattern :=
  Pattern.alts [
    Pattern.seqs [.wordBoundary, Pattern.literalNoCase "gh",
      Pattern.alts (("pousr".toList).map Pattern.eitherCase), Pattern.literal "_", tokenBody],
    Pattern.seqs [.wordBoundary, Pattern.literalNoCase "github_pat_", tokenBody],
    Pattern.seqs [Pattern.literalNoCase "BEGIN ",
      .star (.char ⟨false, [('A', 'Z'), ('a', 'z'), (' ', ' ')]⟩),
      Pattern.literalNoCase "PRIVATE KEY"],
    Pattern.literalNoCase "seed phrase",
    Pattern.literalNoCase "mnemonic",
    Pattern.literalNoCase "wallet path",
    Pattern.literalNoCase "hotkey",
    Pattern.literalNoCase "coldkey"]

def containsSecretLikeText (value : Units) : Bool := test secretPattern (letters value)

/-! ## The document -/

/-- A property of a value that is not `null`; only objects have fields. -/
def field (value : JsonValue) (key : String) : Option JsonValue := member (some value) key

/-- The candidates the gate sees: an array takes precedence over a single one. -/
def documentCandidates (document : JsonValue) : List JsonValue :=
  match field document "candidates" with
  | some (.array candidates) => candidates
  | _ =>
      match field document "candidate" with
      | some candidate => if isTruthy (some candidate) then [candidate] else []
      | none => []

/-- `Object.keys(value)`; of `null` it throws. -/
def objectKeys : JsonValue → Option (List String)
  | .null => none
  | .object fields => some (fields.map Prod.fst)
  | .array items => some ((List.range items.length).map toString)
  | .string text => some ((List.range text.length).map toString)
  | _ => some []

/-- `value?.[0]` -/
def firstItem : Option JsonValue → Option JsonValue
  | some (.array items) => items.head?
  | some (.string text) => text.head?.map fun unit => .string [unit]
  | some (.object fields) => fields.lookup "0"
  | _ => none

def isBaseLayerKind (kind : Units) : Bool := kind ∈ REVIEWER_BASE_LAYER_KINDS

def fail (reason summary : String) (candidate : JsonValue) : Assessment where
  verdict := if reason ∈ REVIEWER_CLOSE_REASONS then .closed else .manualReview
  summary := some summary
  candidate := candidate
  reason := some reason

/-- The source URL that is looked at. -/
def checkedSource (candidate : JsonValue) : Option JsonValue :=
  let source := field candidate "source_url"
  if isTruthy source then source else firstItem (field candidate "source_urls")

section Assess

variable {URL : Type} (api : UrlApi URL)

def isSafeForKind (kind url : Units) : Bool :=
  if isBaseLayerKind kind then isSafeEndpointUrl api url else isSafeHttpUrl api url

/-- The checks of the two URLs; `none` is a conversion that throws. -/
def urlFailure (candidate : JsonValue) (kind : Units) : Option (Option Assessment) :=
  (textOrEmpty (field candidate "url")).bind fun url =>
    if ¬ isSafeForKind api kind url then
      some (some (fail "unsafe-url"
        (if isBaseLayerKind kind then "Candidate URL must be a public HTTPS or WSS endpoint."
          else "Candidate URL must be a public HTTPS URL.") candidate))
    else
      (textOrEmpty (checkedSource candidate)).bind fun source =>
        if ¬ isSafeHttpUrl api source then
          some (some (fail "unsafe-url" "Candidate source URL must be a public HTTPS URL."
            candidate))
        else some none

/-- The verdict on a candidate whose fields have passed. -/
def publicVerdict (candidate : JsonValue) : Assessment :=
  match field candidate "public_safe" with
  | some (.bool true) =>
      match field candidate "auth_required" with
      | some (.bool true) =>
          { verdict := .manualReview
            summary := some <|
              "Authenticated interface — routing to review to confirm the declared auth scheme " ++
              "is documented publicly (verifiable without any secret) before it can be accepted."
            candidate := candidate
            reason := none }
      | _ => { verdict := .merged, summary := none, candidate := candidate, reason := none }
  | _ =>
      { verdict := .closed
        summary := some <|
          "Candidate is not marked public_safe=true — declined. Resubmit with " ++
          "public_safe=true if the endpoint is genuinely public."
        candidate := candidate
        reason := none }

def observedSummary (key : String) : String :=
  "Candidate asserts observed runtime state (`" ++ key ++ "`). Health / uptime / latency / " ++
  "status are probe-derived only and can never be part of a submission — remove the field " ++
  "and resubmit."

/-- The checks of the fields; `none` is a conversion that throws. -/
def assessFields (opts : AssessOptions) (candidate : JsonValue) : Option Assessment :=
  (numberOf (field candidate "netuid")).bind fun netuid =>
    if ¬ isInteger netuid then
      some (fail "unsupported-shape" "Candidate netuid must be an integer." candidate)
    else
      (textOf (field candidate "kind")).bind fun kind =>
        if kind ∉ REVIEWER_SAFE_KINDS ∧ ¬ isBaseLayerKind kind then
          some (fail "unsupported-shape" "Candidate kind is not supported by the reviewer."
            candidate)
        else if opts.sourceUrlValidation then
          (urlFailure api candidate kind).map fun failure =>
            failure.getD (publicVerdict candidate)
        else some (publicVerdict candidate)

/-- The checks of one candidate; `none` is a `TypeError`. -/
def assessCandidate (opts : AssessOptions) (candidate : JsonValue) : Option Assessment :=
  if opts.secretsScan ∧ containsSecretLikeText (stringify candidate) then
    some (fail "secret-or-credential"
      "Candidate appears to include secret, wallet, PAT, or private-key material." candidate)
  else
    (objectKeys candidate).bind fun keys =>
      match keys.find? (fun key => toLowerCase key ∈ OBSERVED_STATE_KEYS) with
      | some key => some (fail "observed-state-claim" (observedSummary key) candidate)
      | none => assessFields api opts candidate

def assessCandidateDocument (opts : AssessOptions) (document : JsonValue) : Option Assessment :=
  match documentCandidates document with
  | [candidate] => assessCandidate api opts candidate
  | _ =>
      some (fail "unsupported-shape" "Candidate PR must contain exactly one candidate entry."
        .null)

end Assess

end Gittensory.RegistryCandidate
