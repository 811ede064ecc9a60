import Gittensory.Frontmatter
import Gittensory.JsonText

/-!
What the duplicate check compares of an entry: its path, its normalized texts, and the
URLs and hosts its frontmatter names. Entries of the accepted corpus have no frontmatter at
hand; one is written for them, each text as a JSON string, and read like any other.
-/
namespace Gittensory.DuplicateSignals

open CodeUnits WordRuns KeyedTable JsonText Frontmatter

structure ContentDuplicateSignals where
  filePath : Units
  category : Units
  slug : Units
  title : Units
  normalizedTitle : Units
  normalizedDescription : Units
  urls : List Units
  domains : List Units
  label : Option Units
  url : Option Units
  deriving DecidableEq

/-- URL-bearing frontmatter keys, camelCase and snake_case. -/
def URL_FIELDS : List Units := [
  units "documentationUrl",
  units "docsUrl",
  units "downloadUrl",
  units "githubUrl",
  units "packageUrl",
  units "repoUrl",
  units "repositoryUrl",
  units "sourceUrl",
  units "websiteUrl",
  units "docs_url",
  units "download_url",
  units "github_url",
  units "package_url",
  units "repo_url",
  units "repository_url",
  units "source_url",
  units "website_url"]

/-- Catalog roots that legitimately back many entries. -/
def MULTI_ENTRY_CATALOG_URLS : List Units := [
  units "https://code.claude.com/docs/en/hooks",
  units "https://code.claude.com/docs/en/statusline",
  units "https://github.com/awslabs/mcp",
  units "https://github.com/microsoft/mcp",
  units "https://github.com/modelcontextprotocol/servers",
  units "https://github.com/snowflake-labs/mcp",
  units "https://github.com/twilio-labs/mcp"]

/-! ## Text -/

/-- Lower case of one unit: besides the ASCII capitals only the dotted capital I and the
Kelvin sign have lower-case forms with ASCII letters; all other units are kept. -/
def lowerUnit (unit : ℕ) : Units :=
  if 65 ≤ unit ∧ unit ≤ 90 then [unit + 32]
  else if unit = 0x130 then [105, 0x307]
  else if unit = 0x212A then [107]
  else [unit]

def toLowerCase (text : Units) : Units := text.flatMap lowerUnit

/-- `[a-z0-9]` -/
def isWordUnit (unit : ℕ) : Bool := (97 ≤ unit && unit ≤ 122) || isDigit unit

def isApostrophe (unit : ℕ) : Bool := unit = singleQuote || unit = 0x2019

/-- `value.toLowerCase().replace(/['’]/g, "")` -/
def lowerLetters (value : Units) : Units :=
  (toLowerCase value).filter (fun unit => !isApostrophe unit)

def normalizeText (value : Units) : Units :=
  replaceRuns isInk space (trim (replaceRuns isWordUnit space (lowerLetters value)))

/-- `left || right` -/
def orText (left right : Units) : Units := if left = [] then right else left

/-! ## URLs -/

/-- The URL objects of the platform: parsing, the parts that are read and written, and the
text of a URL. -/
structure UrlApi (URL : Type) where
  parse : Units → Option URL
  protocol : URL → Units
  setProtocol : URL → Units → URL
  hostname : URL → Units
  setHostname : URL → Units → URL
  setHash : URL → Units → URL
  searchKeys : URL → List Units
  deleteSearchKey : URL → Units → URL
  pathname : URL → Units
  setPathname : URL → Units → URL
  toText : URL → Units

variable {URL : Type} (api : UrlApi URL)

def slash : ℕ := 47

def normalizeHostname (hostname : Units) : Units :=
  let lower := toLowerCase hostname
  if units "www." <+: lower then lower.drop 4 else lower

/-- Search parameters that say where a visitor came from. -/
def isTrackingKey (key : Units) : Bool :=
  let normalizedKey := toLowerCase key
  (units "utm_").isPrefixOf normalizedKey ||
    [units "affiliate", units "affiliate_id", units "campaign", units "ref", units "referral",
      units "referral_code", units "source", units "via"].contains normalizedKey

/-- `text.replace(/\/+$/, "")` -/
def dropSlashes (text : Units) : Units :=
  (text.reverse.dropWhile (fun unit => unit = slash)).reverse

/-- `repo.replace(/\.git$/i, "")` -/
def dropGitSuffix (repo : Units) : Units :=
  if toLowerCase (repo.drop (repo.length - 4)) = units ".git" then repo.take (repo.length - 4)
  else repo

def repoRootOf (owner repo : Units) : Units :=
  units "https://github.com/" ++ toLowerCase owner ++ slash :: toLowerCase (dropGitSuffix repo)

/-- The URL of a GitHub repository, or of a path below it when the repository is a catalog of
many entries. -/
def repositoryUrl (owner repo : Units) (rest : List Units) : Units :=
  let repoRoot := repoRootOf owner repo
  if repoRoot ∈ MULTI_ENTRY_CATALOG_URLS ∧ rest ≠ [] then
    repoRoot ++ slash :: dropSlashes ([slash].intercalate rest)
  else repoRoot

/-- The URL without scheme, fragment and tracking parameters told apart. -/
def canonicalParts (parsed : URL) : URL :=
  let parsed := api.setProtocol parsed (units "https:")
  let parsed := api.setHostname parsed (normalizeHostname (api.hostname parsed))
  let parsed := api.setHash parsed []
  (api.searchKeys parsed).foldl
    (fun parsed key => if isTrackingKey key then api.deleteSearchKey parsed key else parsed) parsed

def urlText (parsed : URL) : Units :=
  let parsed := api.setPathname parsed (orText (dropSlashes (api.pathname parsed)) [slash])
  let text := api.toText parsed
  if text.getLast? = some slash then text.dropLast else text

def normalizeUrl (value : Units) : Units :=
  let raw := trim value
  if raw = [] then []
  else
    match api.parse raw with
    | none => []
    | some parsed =>
        if ¬ (api.protocol parsed = units "http:" ∨ api.protocol parsed = units "https:") then []
        else
          let parsed := canonicalParts api parsed
          if api.hostname parsed = units "github.com" then
            match ((api.pathname parsed).splitOn slash).filter (fun part => part ≠ []) with
            | owner :: repo :: rest => repositoryUrl owner repo rest
            | _ => urlText api parsed
          else urlText api parsed

def domainFromUrl (value : Units) : Units :=
  match api.parse value with
  | none => []
  | some parsed => normalizeHostname (api.hostname parsed)

/-! ## Signals -/

/-- The lower-case groups of `/^content\/([^/]+)\/([^/]+)\.mdx$/i`, empty without a match. -/
def pathParts (filePath : Units) : Units × Units :=
  let below := filePath.drop 8
  let category := below.takeWhile (fun unit => unit ≠ slash)
  let file := below.drop (category.length + 1)
  let slug := file.take (file.length - 4)
  if toLowerCase (filePath.take 8) = units "content/" ∧ category ≠ [] ∧
      category.length < below.length ∧ slash ∉ file ∧ slug ≠ [] ∧
      toLowerCase (file.drop (file.length - 4)) = units ".mdx" then
    (toLowerCase category, toLowerCase slug)
  else ([], [])

/-- `[...new Set(texts)]` -/
def distinct (texts : List Units) : List Units := texts.foldl addKey []

def urlsOf (fields : List (Units × Units)) : List Units :=
  distinct (((fields.filter fun field => field.1 ∈ URL_FIELDS).map fun field =>
    normalizeUrl api field.2).filter fun url => url ≠ [])

/-- `text.replace(/\s+/g, "-")` -/
def hyphenate (text : Units) : Units := replaceRuns isInk dash text

/-- The signals of an entry whose frontmatter holds the given fields. -/
def signalsOf (fields : List (Units × Units)) (filePath : Units) (label url : Option Units) :
    ContentDuplicateSignals :=
  let parts := pathParts filePath
  let urls := urlsOf api fields
  let field := fun key => (fieldOf fields (units key)).getD []
  { filePath := filePath
    category := orText (normalizeText (field "category")) parts.1
    slug := orText (hyphenate (normalizeText (field "slug"))) parts.2
    title := field "title"
    normalizedTitle := normalizeText (field "title")
    normalizedDescription := normalizeText (field "description")
    urls := urls
    domains := distinct ((urls.map (domainFromUrl api)).filter fun domain => domain ≠ [])
    label := label
    url := url }

def extractContentDuplicateSignals (filePath content : Units) (label url : Option Units) :
    ContentDuplicateSignals :=
  signalsOf api (parseSimpleFrontmatter content) filePath label url

/-! ## Entries of the corpus -/

/-- An entry of the directory index, by the text `String(entry[field] || "")` of each field. -/
abbrev DirectoryIndexEntry := Units → Units

def DIRECTORY_ENTRY_URL_SIGNAL_FIELDS : List Units := [
  units "documentationUrl",
  units "docsUrl",
  units "downloadUrl",
  units "githubUrl",
  units "packageUrl",
  units "repoUrl",
  units "repositoryUrl",
  units "sourceUrl",
  units "websiteUrl"]

def yamlScalar (value : Units) : Units := jsonQuoted value

/-- The fields written into an entry's frontmatter, in order. -/
def entryFields (entry : DirectoryIndexEntry) : List (Units × Units) :=
  [units "title", units "description", units "category", units "slug"].map
    (fun field => (field, entry field)) ++
  (DIRECTORY_ENTRY_URL_SIGNAL_FIELDS.filter fun field => entry field ≠ []).map
    (fun field => (field, entry field))

def contentSignalSourceFromDirectoryEntry (entry : DirectoryIndexEntry) : Units :=
  [newline].intercalate (fence :: (entryFields entry).map (fun field =>
    field.1 ++ colon :: space :: yamlScalar field.2) ++ [fence, []])

def entryPath (entry : DirectoryIndexEntry) : Units :=
  units "content/" ++ trim (entry (units "category")) ++ slash ::
    (trim (entry (units "slug")) ++ units ".mdx")

def entrySignals (siteUrl : Units) (entry : DirectoryIndexEntry) : ContentDuplicateSignals :=
  extractContentDuplicateSignals api (entryPath entry)
    (contentSignalSourceFromDirectoryEntry entry)
    (some (units "accepted entry " ++ entryPath entry))
    (some (orText (entry (units "canonicalUrl"))
      (siteUrl ++ units "/entry/" ++ entry (units "category") ++ slash :: entry (units "slug"))))

def directoryIndexToSignals (entries : List DirectoryIndexEntry) (currentFilePath : Option Units)
    (siteUrl : Units) : List ContentDuplicateSignals :=
  ((entries.filter fun entry =>
    trim (entry (units "category")) ≠ [] ∧ trim (entry (units "slug")) ≠ []).filter fun entry =>
      some (entryPath entry) ≠ currentFilePath).map (entrySignals api siteUrl)

end Gittensory.DuplicateSignals
