import Gittensory.DuplicateSignals
import Gittensory.RadixNumerals

/-!
The guard in front of every request to a submitted URL (`content-lane/safe-url.ts`): the
scheme, the names kept for local machines, and the address literals of private networks,
which are decoded from any notation before they are compared.
-/
namespace Gittensory.SafeUrl

open CodeUnits RadixNumerals
open DuplicateSignals (UrlApi toLowerCase)

def dot : ℕ := 46

def colon : ℕ := 58

/-! ## IPv4 literals -/

/-- `/^0x[0-9a-f]+$/i` -/
def isHexNumeral (part : Units) : Bool :=
  toLowerCase (part.take 2) = units "0x" && part.drop 2 ≠ [] && (part.drop 2).all (isDigitIn 16)

/-- `/^0[0-7]+$/` -/
def isOctalNumeral (part : Units) : Bool :=
  part.head? = some 48 && part.tail ≠ [] && part.tail.all (isDigitIn 8)

/-- `/^(?:0|[1-9]\d*)$/` -/
def isDecimalNumeral (part : Units) : Bool :=
  part = [48] || (part.head? ≠ some 48 && part ≠ [] && part.all (isDigitIn 10))

/-- `parseInt` drops the prefix of a hexadecimal numeral. A numeral beyond the range of
numbers is infinite there and above every bound here, and is refused either way. -/
def parseIpv4Component (part : Units) : Option ℕ :=
  if isHexNumeral part then some (valueIn 16 (part.drop 2))
  else if isOctalNumeral part then some (valueIn 8 part)
  else if isDecimalNumeral part then some (valueIn 10 part)
  else none

/-- What is left of a 32-bit address for the last of `n` parts. -/
def lastMax (n : ℕ) : ℕ := [0xffffffff, 0xffffff, 0xffff, 0xff].getD (n - 1) 0

/-- The loop over the leading parts, from index `i` on. -/
def addLeading : ℕ → ℕ → List ℕ → ℕ
  | _, result, [] => result
  | i, result, val :: rest => addLeading (i + 1) (result + val * 256 ^ (3 - i)) rest

/-- The rest of `ipv4ToInt` once every part is a number. -/
def joinParts (vals : List ℕ) : Option ℕ :=
  if vals.dropLast.any (fun val => val > 0xff) then none
  else if vals.getLastD 0 > lastMax vals.length then none
  else
    let result := addLeading 0 (vals.getLastD 0) vals.dropLast
    if result > 0xffffffff then none else some (result % 2 ^ 32)

def ipv4ToInt (host : Units) : Option ℕ :=
  let parts := host.splitOn dot
  if parts.length < 1 ∨ parts.length > 4 then none
  else (parts.mapM parseIpv4Component).bind joinParts

def ipv4IsPrivateOrLocal (host : Units) : Bool :=
  match ipv4ToInt host with
  | none => false
  | some n =>
      let a := n / 2 ^ 24 % 256
      let b := n / 2 ^ 16 % 256
      if a = 0 ∨ a = 10 ∨ a = 127 then true
      else if a = 169 ∧ b = 254 then true
      else if a = 192 ∧ b = 168 then true
      else a = 172 ∧ b ≥ 16 ∧ b ≤ 31

/-! ## IPv6 literals -/

def openBracket : ℕ := 91

def closeBracket : ℕ := 93

/-- `host.replace(/^\[|\]$/g, "")` -/
def stripBrackets (host : Units) : Units :=
  let inner := if host.head? = some openBracket then host.tail else host
  if inner.getLast? = some closeBracket then inner.dropLast else inner

def mappedPrefix : Units := units "::ffff:"

/-- `/^\d{1,3}\.\d{1,3}\.\d{1,3}\.\d{1,3}$/` -/
def isDottedQuad (text : Units) : Bool :=
  let parts := text.splitOn dot
  parts.length = 4 && parts.all (fun part =>
    1 ≤ part.length && part.length ≤ 3 && part.all (isDigitIn 10))

/-- The group of `/::ffff:(\d{1,3}\.\d{1,3}\.\d{1,3}\.\d{1,3})$/`. -/
def dottedMapped (addr : Units) : Option Units :=
  addr.tails.findSome? fun rest =>
    if mappedPrefix <+: rest ∧ isDottedQuad (rest.drop 7) then some (rest.drop 7) else none

/-- `/^[0-9a-f]{1,4}$/` -/
def isHexGroup (text : Units) : Bool :=
  1 ≤ text.length && text.length ≤ 4 && text.all isLowerHex

/-- The groups of `/^::ffff:([0-9a-f]{1,4}):([0-9a-f]{1,4})$/`. -/
def hexMapped (addr : Units) : Option (Units × Units) :=
  if mappedPrefix <+: addr then
    match (addr.drop 7).splitOn colon with
    | [hi, lo] => if isHexGroup hi ∧ isHexGroup lo then some (hi, lo) else none
    | _ => none
  else none

/-- An address in four decimal parts. -/
def dottedDecimal (a b c d : ℕ) : Units :=
  [dot].intercalate [shortest 10 a, shortest 10 b, shortest 10 c, shortest 10 d]

def ipv6IsPrivateOrLocal (host : Units) : Bool :=
  let addr := stripBrackets host
  if colon ∉ addr then false
  else if addr = units "::1" ∨ addr = units "::" then true
  else
    match dottedMapped addr with
    | some dotted => ipv4IsPrivateOrLocal dotted
    | none =>
        match hexMapped addr with
        | some (hex₁, hex₂) =>
            let hi := valueIn 16 hex₁
            let lo := valueIn 16 hex₂
            ipv4IsPrivateOrLocal
              (dottedDecimal (hi / 256 % 256) (hi % 256) (lo / 256 % 256) (lo % 256))
        | none =>
            let first := (addr.splitOn colon).headD []
            if units "fc" <+: first ∨ units "fd" <+: first then true
            else first.take 2 = units "fe" ∧ first[2]?.any (fun unit => [56, 57, 97, 98].contains unit)

/-! ## Hosts and URLs -/

def hostIsPrivateOrLocal (host : Units) : Bool :=
  let h := toLowerCase host
  if h = units "localhost" ∨ units ".local" <:+ h ∨ units ".internal" <:+ h then true
  else if h = units "0.0.0.0" ∨ h = units "::1" ∨ h = units "[::1]" then true
  else if colon ∈ h then ipv6IsPrivateOrLocal h
  else ipv4IsPrivateOrLocal h

variable {URL : Type} (api : UrlApi URL)

def isSafeHttpUrl (raw : Units) : Bool :=
  match api.parse raw with
  | none => false
  | some url =>
      if api.protocol url ≠ units "https:" then false
      else !hostIsPrivateOrLocal (toLowerCase (api.hostname url))

def isSafeEndpointUrl (raw : Units) : Bool :=
  match api.parse raw with
  | none => false
  | some url =>
      if api.protocol url ∉ [units "https:", units "wss:", units "ws:"] then false
      else !hostIsPrivateOrLocal (toLowerCase (api.hostname url))

/-! ## Plain URLs -/

/-- A URL without credentials, port, query and fragment. -/
structure PlainUrl where
  scheme : Units
  host : Units
  path : Units
  deriving DecidableEq

/-- `scheme://host/path` in small letters, with a path of `/` if none is written. -/
def plainUrl? (raw : Units) : Option PlainUrl :=
  let scheme := raw.takeWhile (fun unit => unit ≠ colon)
  let rest := raw.drop scheme.length
  let host := (rest.drop 3).takeWhile (fun unit => unit ≠ DuplicateSignals.slash)
  let path := (rest.drop 3).drop host.length
  if rest.take 3 = units "://" ∧ host ≠ [] then
    some ⟨scheme, host, DuplicateSignals.orText path [DuplicateSignals.slash]⟩
  else none

/-- URL objects that know plain URLs only. -/
def plainUrls : UrlApi PlainUrl where
  parse := plainUrl?
  protocol url := url.scheme ++ [colon]
  setProtocol url protocol := { url with scheme := protocol.dropLast }
  hostname url := url.host
  setHostname url host := { url with host := host }
  setHash url _ := url
  searchKeys _ := []
  deleteSearchKey url _ := url
  pathname url := url.path
  setPathname url path := { url with path := path }
  toText url := url.scheme ++ units "://" ++ url.host ++ url.path

end Gittensory.SafeUrl
