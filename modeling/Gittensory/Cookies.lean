import Gittensory.JsValue
import Gittensory.PercentCoding

/-!
Cookies (`auth/security.ts`): what the server sets, what a browser makes of it and what the
server reads from the browser's next request. The request is one that the cookie's path covers,
and the cookie has an age left, so that the browser sends it.
-/
namespace Gittensory.Cookies

open JsValue PercentCoding
open TextPattern (Text)

def SESSION_TTL_SECONDS : ℕ := 7 * 24 * 60 * 60

def BROWSER_SESSION_COOKIE : Text := "gittensory_session".toList

def GITHUB_OAUTH_STATE_COOKIE : Text := "gittensory_oauth_state".toList

def GITHUB_OAUTH_STATE_TTL_SECONDS : ℕ := 10 * 60

inductive SameSite where
  | lax
  | strict
  | none
  deriving DecidableEq

def SameSite.text : SameSite → Text
  | .lax => "Lax".toList
  | .strict => "Strict".toList
  | .none => "None".toList

structure CookieOptions where
  maxAge : ℕ
  path : Text
  httpOnly : Bool
  sameSite : SameSite
  secure : Bool

def attributes (options : CookieOptions) : List Text :=
  ["Max-Age=".toList ++ (toString options.maxAge).toList, "Path=".toList ++ options.path,
    "SameSite=".toList ++ options.sameSite.text] ++
    (if options.httpOnly then ["HttpOnly".toList] else []) ++
    if options.secure then ["Secure".toList] else []

def serializeCookie (name value : Text) (options : CookieOptions) : Text :=
  [';', ' '].intercalate ((name ++ '=' :: encode value) :: attributes options)

/-- What stands in front of the first equals sign and what behind it. -/
def cutPair (text : Text) : Text × Text :=
  (text.takeWhile (· ≠ '='), (text.dropWhile (· ≠ '=')).drop 1)

/-- The first cookie of the name decides, also where its value cannot be decoded. -/
def extractCookieValue (header : Option Text) (name : Text) : Option Text :=
  let pairs := ((header.getD []).splitOn ';').map fun cookie => cutPair (trimText cookie)
  (pairs.find? fun pair => pair.1 = name).bind fun pair => decode pair.2

def extractBrowserSessionToken (header : Option Text) : Option Text :=
  extractCookieValue header BROWSER_SESSION_COOKIE

def buildBrowserSessionCookie (token : Text) (secure : Bool) : Text :=
  serializeCookie BROWSER_SESSION_COOKIE token ⟨SESSION_TTL_SECONDS, ['/'], true, .lax, secure⟩

def buildClearedBrowserSessionCookie (secure : Bool) : Text :=
  serializeCookie BROWSER_SESSION_COOKIE [] ⟨0, ['/'], true, .lax, secure⟩

def buildGitHubOAuthStateCookie (state : Text) (secure : Bool) : Text :=
  serializeCookie GITHUB_OAUTH_STATE_COOKIE state
    ⟨GITHUB_OAUTH_STATE_TTL_SECONDS, "/v1/auth/github".toList, true, .lax, secure⟩

def buildClearedGitHubOAuthStateCookie (secure : Bool) : Text :=
  serializeCookie GITHUB_OAUTH_STATE_COOKIE []
    ⟨0, "/v1/auth/github".toList, true, .lax, secure⟩

/-! ## The browser between -/

/-- The name and the value a browser takes from a `Set-Cookie` header. -/
def browserPair (setCookie : Text) : Text × Text :=
  let pair := cutPair (setCookie.takeWhile (· ≠ ';'))
  (trimText pair.1, trimText pair.2)

/-- The `Cookie` header of the pairs a browser holds. -/
def cookieHeader (pairs : List (Text × Text)) : Text :=
  [';', ' '].intercalate (pairs.map fun pair => pair.1 ++ '=' :: pair.2)

/-- A name that keeps its place in a header. -/
structure IsCookieName (name : Text) : Prop where
  no_equals : '=' ∉ name
  no_semicolon : ';' ∉ name
  no_space : ∀ c ∈ name, spaceSet.accepts c = false

/-- A cookie of another name that can stand in a header. -/
structure IsOther (name : Text) (pair : Text × Text) : Prop where
  no_semicolon : ';' ∉ pair.1 ++ '=' :: pair.2
  other_name : (cutPair (trimText (pair.1 ++ '=' :: pair.2))).1 ≠ name

theorem cutPair_pair {name : Text} (h : '=' ∉ name) (value : Text) :
    cutPair (name ++ '=' :: value) = (name, value) := by
  have hall : ∀ c ∈ name, (decide (c ≠ '=')) = true := by
    intro c hc
    exact decide_eq_true fun heq => h (heq ▸ hc)
  rw [cutPair, List.takeWhile_append_of_pos hall, List.dropWhile_append_of_pos hall]
  simp

theorem trimText_eq_self {text : Text} (h : ∀ c ∈ text, spaceSet.accepts c = false) :
    trimText text = text := by
  have hdrop : ∀ text : Text, (∀ c ∈ text, spaceSet.accepts c = false) →
      text.dropWhile spaceSet.accepts = text := by
    intro text hall
    rcases text with _ | ⟨c, rest⟩
    · rfl
    · rw [List.dropWhile_cons, hall c (List.mem_cons_self ..)]
      rfl
  rw [trimText, hdrop text h, hdrop text.reverse, List.reverse_reverse]
  intro c hc
  exact h c (List.mem_reverse.mp hc)

theorem trimText_cons_space (text : Text) : trimText (' ' :: text) = trimText text := by
  have hspace : spaceSet.accepts ' ' = true := by decide
  rw [trimText, List.dropWhile_cons, hspace]
  rfl

theorem isUnreserved_lt {c : Char} (h : isUnreserved c = true) : c.toNat < 128 := by
  simp only [isUnreserved, Bool.or_eq_true, Bool.and_eq_true, decide_eq_true_eq, Char.le_def,
    UInt32.le_iff_toNat_le, List.contains_eq_mem] at h
  rcases h with ((h | h) | h) | h
  · exact lt_of_le_of_lt h.2 (by decide)
  · exact lt_of_le_of_lt h.2 (by decide)
  · exact lt_of_le_of_lt h.2 (by decide)
  · have hall : ['-', '_', '.', '!', '~', '*', '\'', '(', ')'].all (fun c => c.toNat < 128) =
        true := by decide
    exact of_decide_eq_true (List.all_eq_true.mp hall c h)

theorem no_space_of_coded {c : Char} (h : isUnreserved c = true ∨ c = '%') :
    spaceSet.accepts c = false := by
  have hall : ∀ unit < 128, isUnreserved (Char.ofNat unit) = true →
      spaceSet.accepts (Char.ofNat unit) = false := by decide
  rcases h with hplain | rfl
  · have hc := hall c.toNat (isUnreserved_lt hplain)
    rw [Char.ofNat_toNat] at hc
    exact hc hplain
  · decide

theorem intercalate_cons_spaced (first : Text) (rest : List Text) :
    [';', ' '].intercalate (first :: rest) =
      first ++ rest.flatMap fun part => ';' :: ' ' :: part := by
  induction rest generalizing first with
  | nil => simp
  | cons next rest ih => simp [List.intercalate_cons_cons, ih]

/-- The parts of a text joined by a semicolon and a space, as a cut at the semicolons finds them. -/
theorem splitOn_spaced {first : Text} {rest : List Text} (h : ';' ∉ first)
    (hrest : ∀ part ∈ rest, ';' ∉ part) :
    ([';', ' '].intercalate (first :: rest)).splitOn ';' = first :: rest.map (' ' :: ·) := by
  rw [intercalate_cons_spaced]
  induction rest generalizing first with
  | nil => simpa using List.splitOn_eq_singleton h
  | cons next rest ih =>
    have hnext : ';' ∉ ' ' :: next := by
      simpa using hrest next (List.mem_cons_self ..)
    rw [List.flatMap_cons, List.cons_append, List.cons_append,
      List.splitOn_append_cons_self_of_not_mem h, List.map_cons, ← List.cons_append,
      ih hnext fun part hpart => hrest part (List.mem_cons_of_mem _ hpart)]

/-- What a browser takes from a cookie of the server: the name and the encoded value. -/
theorem browserPair_serializeCookie {name : Text} (h : IsCookieName name) (value : Text)
    (options : CookieOptions) :
    browserPair (serializeCookie name value options) = (name, encode value) := by
  have hvalue : ';' ∉ encode value := not_mem_encode (by decide) (by decide)
  have hall : ∀ c ∈ name ++ '=' :: encode value, decide (c ≠ ';') = true := by
    intro c hc
    refine decide_eq_true fun heq => ?_
    subst heq
    rcases List.mem_append.mp hc with hname | htail
    · exact h.no_semicolon hname
    · rcases List.mem_cons.mp htail with heq | hmem
      · exact absurd heq (by decide)
      · exact hvalue hmem
  have hfront : (serializeCookie name value options).takeWhile (· ≠ ';') =
      name ++ '=' :: encode value := by
    obtain ⟨first, rest, hattributes⟩ : ∃ first rest,
        attributes options = first :: rest := ⟨_, _, rfl⟩
    rw [serializeCookie, intercalate_cons_spaced, List.takeWhile_append_of_pos hall, hattributes,
      List.flatMap_cons]
    exact List.append_nil _
  rw [browserPair, hfront, cutPair_pair h.no_equals, trimText_eq_self h.no_space,
    trimText_eq_self fun c hc => no_space_of_coded (coded_of_mem_encode hc)]

theorem not_mem_attributes {options : CookieOptions} (hpath : ';' ∉ options.path) :
    ∀ part ∈ attributes options, ';' ∉ part := by
  have hage : ';' ∉ (toString options.maxAge).toList := by
    intro hmem
    have hdigits : (toString options.maxAge).toList = Nat.toDigits 10 options.maxAge := by simp
    rw [hdigits] at hmem
    exact absurd (Nat.isDigit_of_mem_toDigits (by decide) (by decide) hmem) (by decide)
  have hsite : ';' ∉ options.sameSite.text := by
    cases options.sameSite <;> decide
  have hfixed : ∀ part ∈ (if options.httpOnly then ["HttpOnly".toList] else []) ++
      (if options.secure then ["Secure".toList] else []), ';' ∉ part := by
    cases options.httpOnly <;> cases options.secure <;> decide
  intro part hpart
  rw [attributes, List.append_assoc] at hpart
  rcases List.mem_append.mp hpart with hhead | htail
  · simp only [List.mem_cons, List.not_mem_nil, or_false] at hhead
    rcases hhead with rfl | rfl | rfl
    · exact List.not_mem_append (by decide) hage
    · exact List.not_mem_append (by decide) hpath
    · exact List.not_mem_append (by decide) hsite
  · exact hfixed part htail

/-- Whatever its value, a cookie comes with the attributes that the server chose, each in its
place: no value adds one. -/
theorem splitOn_serializeCookie {name : Text} (h : ';' ∉ name) (value : Text)
    {options : CookieOptions} (hpath : ';' ∉ options.path) :
    (serializeCookie name value options).splitOn ';' =
      (name ++ '=' :: encode value) :: (attributes options).map (' ' :: ·) := by
  refine splitOn_spaced (List.not_mem_append h ?_) (not_mem_attributes hpath)
  rw [List.mem_cons, not_or]
  exact ⟨by decide, not_mem_encode (by decide) (by decide)⟩

/-- The server cuts a header into the pairs it was made of. -/
theorem pairs_of_cookieHeader {pairs : List (Text × Text)} (hne : pairs ≠ [])
    (h : ∀ pair ∈ pairs, ';' ∉ pair.1 ++ '=' :: pair.2) :
    ((cookieHeader pairs).splitOn ';').map (fun cookie => cutPair (trimText cookie)) =
      pairs.map fun pair => cutPair (trimText (pair.1 ++ '=' :: pair.2)) := by
  obtain ⟨first, rest, rfl⟩ := List.exists_cons_of_ne_nil hne
  rw [cookieHeader, List.map_cons, splitOn_spaced (h first (List.mem_cons_self ..)), List.map_cons,
    List.map_cons, List.map_map, List.map_map]
  · refine congrArg _ ?_
    refine List.map_congr_left fun pair _ => ?_
    simp only [Function.comp_apply, trimText_cons_space]
  · intro part hpart
    obtain ⟨pair, hpair, rfl⟩ := List.mem_map.mp hpart
    exact h pair (List.mem_cons_of_mem _ hpair)

theorem find?_others {name : Text} {pairs : List (Text × Text)}
    (h : ∀ pair ∈ pairs, IsOther name pair) :
    (pairs.map fun pair => cutPair (trimText (pair.1 ++ '=' :: pair.2))).find?
      (fun pair => pair.1 = name) = none := by
  rw [List.find?_eq_none]
  intro cut hcut
  obtain ⟨pair, hpair, rfl⟩ := List.mem_map.mp hcut
  simpa using (h pair hpair).other_name

/-- A value that the server set comes back in the browser's next request that the cookie goes with,
whatever its letters and whatever other cookies stand around it. -/
theorem extractCookieValue_cookieHeader {name : Text} (h : IsCookieName name) (value : Text)
    (options : CookieOptions) {before after : List (Text × Text)}
    (hbefore : ∀ pair ∈ before, IsOther name pair)
    (hafter : ∀ pair ∈ after, ';' ∉ pair.1 ++ '=' :: pair.2) :
    extractCookieValue (some (cookieHeader
      (before ++ browserPair (serializeCookie name value options) :: after))) name =
        some value := by
  have hvalue : ';' ∉ name ++ '=' :: encode value := by
    refine List.not_mem_append h.no_semicolon ?_
    rw [List.mem_cons, not_or]
    exact ⟨by decide, not_mem_encode (by decide) (by decide)⟩
  have hspace : ∀ c ∈ name ++ '=' :: encode value, spaceSet.accepts c = false := by
    intro c hc
    rcases List.mem_append.mp hc with hname | htail
    · exact h.no_space c hname
    · rcases List.mem_cons.mp htail with rfl | hmem
      · decide
      · exact no_space_of_coded (coded_of_mem_encode hmem)
  rw [browserPair_serializeCookie h, extractCookieValue, Option.getD_some, pairs_of_cookieHeader]
  · rw [List.map_append, List.find?_append, List.map_cons, find?_others hbefore, Option.none_or,
      trimText_eq_self hspace, cutPair_pair h.no_equals, List.find?_cons_of_pos (by simp)]
    exact decode_encode value
  · simp
  · intro pair hpair
    rcases List.mem_append.mp hpair with hfront | hback
    · exact (hbefore pair hfront).no_semicolon
    · rcases List.mem_cons.mp hback with rfl | hlater
      · exact hvalue
      · exact hafter pair hlater

/-- Where the browser has no cookie of the name, none is read. -/
theorem extractCookieValue_of_others {name : Text} (hne : name ≠ []) {pairs : List (Text × Text)}
    (h : ∀ pair ∈ pairs, IsOther name pair) :
    extractCookieValue (some (cookieHeader pairs)) name = none := by
  rw [extractCookieValue, Option.getD_some]
  rcases pairs with _ | ⟨first, rest⟩
  · have hempty : ((cookieHeader []).splitOn ';').map (fun cookie => cutPair (trimText cookie)) =
        [([], [])] := by decide
    rw [hempty, List.find?_cons_of_neg]
    · rfl
    · simpa using hne.symm
  · rw [pairs_of_cookieHeader (List.cons_ne_nil _ _) fun pair hpair => (h pair hpair).no_semicolon,
      find?_others h]
    rfl

theorem no_space_of_all {name : Text} (h : name.all (fun c => !spaceSet.accepts c) = true) :
    ∀ c ∈ name, spaceSet.accepts c = false := by
  intro c hc
  rw [← Bool.not_eq_true']
  exact List.all_eq_true.mp h c hc

theorem isCookieName_session : IsCookieName BROWSER_SESSION_COOKIE :=
  ⟨by decide, by decide, no_space_of_all (by decide)⟩

theorem isCookieName_state : IsCookieName GITHUB_OAUTH_STATE_COOKIE :=
  ⟨by decide, by decide, no_space_of_all (by decide)⟩

theorem session_comes_back :
    extractCookieValue (some (cookieHeader ([("theme".toList, "dark".toList)] ++
      browserPair (serializeCookie BROWSER_SESSION_COOKIE "gts_1; Path=/é".toList
        ⟨SESSION_TTL_SECONDS, ['/'], true, .lax, true⟩) :: [("lang".toList, "en".toList)])))
      BROWSER_SESSION_COOKIE = some "gts_1; Path=/é".toList :=
  extractCookieValue_cookieHeader isCookieName_session _ _
    (fun pair hpair => by
      rw [List.mem_singleton.mp hpair]
      exact ⟨by decide, by decide⟩)
    (fun pair hpair => by
      rw [List.mem_singleton.mp hpair]
      decide)

end Gittensory.Cookies
