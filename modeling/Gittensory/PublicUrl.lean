import Gittensory.DuplicateSignals
import Gittensory.FormUrlencoded
import Gittensory.JsonRecord

/-!
The key that two registry entries with the same public URL share (`registry-logic.ts`). The
URL parser, the parsers behind the host and path setters, and the comparison of texts belong
to the platform; the text of a record is written as the URL standard writes it. Of a URL of
another scheme nothing but the scheme is read.
-/
namespace Gittensory.PublicUrl

open CodeUnits RadixNumerals FormUrlencoded
open DuplicateSignals (toLowerCase dropSlashes slash)

/-- The parts of a URL. The credentials are what stands before the host, with its `@`. -/
@[ext]
structure UrlRecord where
  protocol : Units
  credentials : Units
  hostname : Units
  port : Option ℕ
  pathname : Units
  query : Option Units
  hash : Option Units
  deriving DecidableEq

def portText : Option ℕ → Units
  | none => []
  | some port => 58 :: shortest 10 port

/-- A part behind its mark, when there is one. -/
def marked (mark : ℕ) : Option Units → Units
  | none => []
  | some text => mark :: text

/-- `url.toString()` -/
def UrlRecord.toText (url : UrlRecord) : Units :=
  url.protocol ++ units "//" ++ url.credentials ++ url.hostname ++ portText url.port ++
    url.pathname ++ marked 63 url.query ++ marked 35 url.hash

/-- Operations of the platform. `parseHost` and `parsePath` are what the setters of a host and
of a path run on the text they are given; a host that is refused leaves the URL as it is. -/
structure Platform where
  parse : Units → Option UrlRecord
  parseHost : Units → Option Units
  parsePath : Units → Units
  codec : Codec
  localeCompare : Units → Units → Ordering

def TRACKING_PARAMS : List Units := [
  units "utm_source",
  units "utm_medium",
  units "utm_campaign",
  units "utm_term",
  units "utm_content",
  units "ref",
  units "ref_src",
  units "fbclid",
  units "gclid",
  units "mc_cid",
  units "mc_eid",
  units "igshid"]

def PUBLIC_PROTOCOLS : List Units := [units "http:", units "https:", units "ws:", units "wss:"]

/-- `hostname.replace(/^www\./i, "")` -/
def stripWww (hostname : Units) : Units :=
  if toLowerCase (hostname.take 4) = units "www." then hostname.drop 4 else hostname

/-- The last `count` units, when they spell `name` in any case. -/
def endsWithName (name : Units) (pathname : Units) : Bool :=
  toLowerCase (pathname.drop (pathname.length - name.length)) = name

/-- `pathname.replace(/\/index\.html?$/i, "/")` -/
def replaceIndex (pathname : Units) : Units :=
  if endsWithName (units "/index.html") pathname then
    pathname.take (pathname.length - 11) ++ [slash]
  else if endsWithName (units "/index.htm") pathname then
    pathname.take (pathname.length - 10) ++ [slash]
  else pathname

def defaultPort (protocol : Units) : ℕ :=
  if protocol = units "https:" ∨ protocol = units "wss:" then 443 else 80

def isTracking (key : Units) : Bool := toLowerCase key ∈ TRACKING_PARAMS

/-- The loop over the keys; each deletion drops all entries of the key. -/
def deleteTracking (params : List (Units × Units)) : List (Units × Units) :=
  (params.map Prod.fst).foldl (fun left key =>
    if isTracking key then left.filter fun entry => entry.1 ≠ key else left) params

section Normalization

variable (platform : Platform)

/-- `a.localeCompare(b) <= 0` of two keys. -/
def KeyLe (left right : Units × Units) : Prop :=
  platform.localeCompare left.1 right.1 ≠ .gt

instance : DecidableRel (KeyLe platform) :=
  fun left right => inferInstanceAs (Decidable (platform.localeCompare left.1 right.1 ≠ .gt))

def setHostname (url : UrlRecord) (hostname : Units) : UrlRecord :=
  match platform.parseHost hostname with
  | none => url
  | some host => { url with hostname := host }

def setPathname (url : UrlRecord) (pathname : Units) : UrlRecord :=
  { url with pathname := platform.parsePath pathname }

/-- `[...url.searchParams.entries()]` -/
def searchParams (url : UrlRecord) : List (Units × Units) :=
  parse platform.codec (url.query.getD [])

/-- What the query is once all entries are appended; an empty list leaves none. -/
def setParams (url : UrlRecord) (params : List (Units × Units)) : UrlRecord :=
  { url with query := if params = [] then none else some (serialize platform.codec params) }

/-- The entries that stay, in their new order. -/
def sortedParams (url : UrlRecord) : List (Units × Units) :=
  (deleteTracking (searchParams platform url)).insertionSort (KeyLe platform)

/-- The assignments to the parsed URL. -/
def canonical (url : UrlRecord) : UrlRecord :=
  let url := { url with hash := none }
  let url := setHostname platform url (stripWww url.hostname)
  let url := if url.port = some (defaultPort url.protocol) then { url with port := none } else url
  let url := setPathname platform url (replaceIndex url.pathname)
  let url := if url.pathname ≠ [slash] then setPathname platform url (dropSlashes url.pathname)
    else url
  setParams platform url (sortedParams platform url)

def normalizePublicUrl (value : JsonRecord.JsonValue) : Option Units :=
  match value with
  | .string text =>
      match platform.parse (trim text) with
      | none => none
      | some url =>
          if url.protocol ∉ PUBLIC_PROTOCOLS then none
          else some (toLowerCase (canonical platform url).toText)
  | _ => none

end Normalization

end Gittensory.PublicUrl
