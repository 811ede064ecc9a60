import Gittensory.AuthSessions
import Gittensory.Cookies
import Gittensory.SecretStore
import Mathlib.Data.LawfulXor.Basic
import Mathlib.Data.List.InsertIdx

/-!
Signing in with GitHub (`auth/github-oauth.ts` and its two routes). A start puts a signed state
into a cookie of the browser; the callback is accepted where the state in its query is the one in
its cookie. Any number of browsers take part, answers and requests are on their way for any time,
and a callback carries whatever code and state someone made the browser send.
-/
namespace Gittensory.WebSignIn

open AuthSessions Cookies GuardedRun JsValue KeyEncoding SecretStore Utf8Text
open CodeUnits (Units units)
open TextPattern (Text)

/-! ## The signed state -/

structure OAuthState where
  nonce : String
  returnTo : String
  exp : ℚ
  deriving DecidableEq

structure Url where
  origin : String
  href : String

/-- What the platform computes. `parse` reads a text as a state: `none` where the text is no JSON
or a field has another type. -/
structure Platform where
  sha256Bytes : Units → List UInt8
  hmacSha256 : String → Units → List UInt8
  hmac_ne_nil : ∀ secret value, hmacSha256 secret value ≠ []
  stringify : OAuthState → String
  parse : String → Option OAuthState
  malformed : List UInt8 → String
  /-- `new URL(value, base)` -/
  parseUrl : String → String → Option Url

/-- The text of a state is an object's, and a state is read from its text. -/
structure ReadsBack (platform : Platform) (state : OAuthState) : Prop where
  parse_stringify : platform.parse (platform.stringify state) = some state
  head_stringify : (platform.stringify state).toList.head? = some '\x7b'

structure Env where
  clientId : Option String
  clientSecret : Option String
  publicSiteOrigin : Option String

/-- `text.replace(/\/$/, "")` -/
def dropSlash (text : String) : String :=
  if text.toList.getLast? = some '/' then String.ofList text.toList.dropLast else text

def DEFAULT_SITE_ORIGIN : String := "https://gittensory.aethereal.dev"

def siteOrigin (env : Env) : String := env.publicSiteOrigin.getD DEFAULT_SITE_ORIGIN

def allowedOrigins (env : Env) : List String :=
  [dropSlash (siteOrigin env), DEFAULT_SITE_ORIGIN, "http://localhost:3000",
    "http://localhost:4173", "http://localhost:5173", "http://127.0.0.1:3000",
    "http://127.0.0.1:4173", "http://127.0.0.1:5173"]

/-- `Math.floor(now / 1000)` -/
def seconds (now : ℤ) : ℤ := now / 1000

section SignedState

variable (platform : Platform) (env : Env)

def fallback : String := dropSlash (siteOrigin env) ++ "/app"

def normalizeReturnTo (value : Option String) : String :=
  match value with
  | none => fallback env
  | some value =>
      if value = "" then fallback env
      else
        match platform.parseUrl value (siteOrigin env) with
        | some url => if url.origin ∈ allowedOrigins env then url.href else fallback env
        | none => fallback env

def signOAuthState (secret : String) (payload : OAuthState) : Units :=
  let encoded := base64UrlEncode (textEncode (platform.stringify payload))
  encoded ++ partMark :: base64UrlEncode (platform.hmacSha256 secret encoded)

def parseOAuthStatePayload (encoded : Units) : Option OAuthState :=
  match base64UrlDecode encoded with
  | some bytes => platform.parse (textDecode platform.malformed bytes)
  | none => none

/-- Parts behind a second dot are not looked at. -/
def verifyOAuthState (secret : String) (state : Units) (now : ℤ) : Option OAuthState :=
  match state.splitOn partMark with
  | encoded :: signature :: _ =>
      if encoded = [] ∨ signature = [] then none
      else
        let expected := base64UrlEncode (platform.hmacSha256 secret encoded)
        if !timingSafeEqual platform.sha256Bytes (some signature) (some expected) then none
        else
          match parseOAuthStatePayload platform encoded with
          | some payload =>
              if payload.exp < (seconds now : ℚ) then none
              else
                some { payload with
                  returnTo := normalizeReturnTo platform env (some payload.returnTo) }
          | none => none
  | _ => none

/-- The client secret where both of the settings are there. -/
def oauthSecret : Option String :=
  if truthy env.clientId then env.clientSecret.filter (· ≠ "") else none

/-- Where the browser goes, or `none` where an error is thrown. `granted` says that GitHub takes the
code and names a user. -/
def completeGitHubWebOAuth (state : Units) (cookieState : Option Units) (granted : Bool) (now : ℤ) :
    Option String :=
  match oauthSecret env with
  | none => none
  | some secret =>
      if !timingSafeEqual platform.sha256Bytes (some state) cookieState then none
      else
        match verifyOAuthState platform env secret state now with
        | some payload => if granted then some payload.returnTo else none
        | none => none

variable {platform} {env}

/-- Differences gathered with `|=` vanish together only. -/
theorem foldl_or_eq_zero_iff_nat (difference : ℕ → ℕ) (items : List ℕ) (gathered : ℕ) :
    items.foldl (fun diff index => diff ||| difference index) gathered = 0 ↔
      gathered = 0 ∧ ∀ index ∈ items, difference index = 0 := by
  induction items generalizing gathered with
  | nil => simp
  | cons item rest ih =>
    rw [List.foldl_cons, ih, Nat.or_eq_zero_iff, List.forall_mem_cons, and_assoc]

theorem timingSafeEqual_iff {sha256Bytes : Units → List UInt8} {actual expected : Units} :
    timingSafeEqual sha256Bytes (some actual) (some expected) = true ↔
      actual ≠ [] ∧ expected ≠ [] ∧ sha256Bytes actual = sha256Bytes expected := by
  unfold timingSafeEqual
  simp only
  split_ifs with hempty
  · refine iff_of_false (by decide) fun h => ?_
    rcases hempty with hactual | hexpected
    · exact h.1 hactual
    · exact h.2.1 hexpected
  · rw [not_or] at hempty
    rw [beq_iff_eq, foldl_or_eq_zero_iff_nat, xor_eq_zero_iff, and_iff_right hempty.1,
      and_iff_right hempty.2]
    constructor
    · rintro ⟨hlength, hzero⟩
      refine List.ext_getElem hlength fun index hleft hright => ?_
      have hsame := hzero index (List.mem_range.mpr (by omega))
      rw [xor_eq_zero_iff, List.getD_eq_getElem?_getD, List.getD_eq_getElem?_getD,
        List.getElem?_eq_getElem hleft, List.getElem?_eq_getElem hright] at hsame
      exact UInt8.toNat_inj.mp hsame
    · intro heq
      rw [heq]
      exact ⟨rfl, fun index _ => Nat.xor_self _⟩

/-- A signed state is read back as long as it lasts. -/
theorem verifyOAuthState_signOAuthState {payload : OAuthState} (h : ReadsBack platform payload)
    (secret : String) (now : ℤ) :
    verifyOAuthState platform env secret (signOAuthState platform secret payload) now =
      if payload.exp < (seconds now : ℚ) then none
      else
        some { payload with
          returnTo := normalizeReturnTo platform env (some payload.returnTo) } := by
  have hbytes : textEncode (platform.stringify payload) ≠ [] := by
    intro hnil
    have hread := @textDecode_textEncode_of_head platform.malformed _ _
      h.head_stringify (by decide)
    have hempty : textDecode platform.malformed [] = "" := by
      have hdecode := textDecode_textEncode platform.malformed ""
      rwa [show textEncode "" = [] by decide, show dropMark "" = "" by decide] at hdecode
    rw [hnil, hempty] at hread
    have hhead := h.head_stringify
    rw [← hread] at hhead
    exact absurd hhead (by decide)
  have hencoded := base64UrlEncode_ne_nil hbytes
  have hsignature : ∀ encoded, base64UrlEncode (platform.hmacSha256 secret encoded) ≠ [] :=
    fun encoded => base64UrlEncode_ne_nil (platform.hmac_ne_nil secret encoded)
  have hsplit : (signOAuthState platform secret payload).splitOn partMark =
      [base64UrlEncode (textEncode (platform.stringify payload)),
        base64UrlEncode (platform.hmacSha256
          secret (base64UrlEncode (textEncode (platform.stringify payload))))] := by
    rw [signOAuthState, List.splitOn_append_cons_self_of_not_mem (partMark_not_mem _),
      List.splitOn_eq_singleton (partMark_not_mem _)]
  have hparse : parseOAuthStatePayload platform
      (base64UrlEncode (textEncode (platform.stringify payload))) = some payload := by
    rw [parseOAuthStatePayload, base64UrlDecode_encode]
    simp only [textDecode_textEncode_of_head h.head_stringify (by decide), h.parse_stringify]
  rw [verifyOAuthState, hsplit]
  simp only [hencoded, hsignature, or_self, if_false, timingSafeEqual_iff.mpr
    ⟨hsignature _, hsignature _, rfl⟩, Bool.not_true, Bool.false_eq_true, hparse]

end SignedState

/-! ## Browsers and the server -/

/-- What the query of a callback carries. -/
structure Query where
  error : String
  code : String
  state : Units

/-- A sign-in that a browser has started. -/
structure Ticket where
  browser : ℕ
  returnTo : Option String
  nonce : String
  startedAt : ℤ

/-- Events of the system. `start` and `callback` are requests the server answers, `send` is a
browser sending a callback with the cookies it has, `deliver` an answer that arrives, and a browser
may forget its cookie at any time. -/
inductive Event where
  | start (ticket : Ticket) (secure : Bool)
  | send (browser : ℕ) (before after : List (Text × Text))
  | callback (request : ℕ) (query : Query) (granted secure : Bool) (now : ℤ)
  | deliver (answer : ℕ)
  | forget (browser : ℕ)

/-- `jar` has the value of the state cookie in each browser; `requests` are callbacks with the
`Cookie` header they were sent with, `answers` the `Set-Cookie` headers on their way. -/
structure System where
  jar : ℕ → Option Text
  requests : List (ℕ × Text)
  answers : List (ℕ × Text)

def start : System := ⟨fun _ => none, [], []⟩

/-- What a browser keeps of a `Set-Cookie` header: nothing where the cookie is to last no time. -/
def kept (setCookie : Text) : Option Text :=
  if " Max-Age=0".toList ∈ setCookie.splitOn ';' then none else some (browserPair setCookie).2

section Steps

variable (platform : Platform) (env : Env)

def Ticket.payload (ticket : Ticket) : OAuthState where
  nonce := ticket.nonce
  returnTo := normalizeReturnTo platform env ticket.returnTo
  exp := ((seconds ticket.startedAt + GITHUB_OAUTH_STATE_TTL_SECONDS : ℤ) : ℚ)

/-- The state that the server signs for a start. -/
def Ticket.state (ticket : Ticket) : Units :=
  signOAuthState platform ((oauthSecret env).getD "") (ticket.payload platform env)

/-- A state as the text of a cookie. -/
def stateText (state : Units) : Text := state.map Char.ofNat

def encodeState (state : Units) : Text := PercentCoding.encode (stateText state)

def statePairs : Option Text → List (Text × Text)
  | some value => [(GITHUB_OAUTH_STATE_COOKIE, value)]
  | none => []

def step (system : System) : Event → System
  | .start ticket secure =>
      if (oauthSecret env).isSome then
        { system with answers := system.answers ++ [(ticket.browser,
            buildGitHubOAuthStateCookie (stateText (ticket.state platform env)) secure)] }
      else system
  | .send browser before after =>
      { system with requests := system.requests ++
          [(browser, cookieHeader (before ++ statePairs (system.jar browser) ++ after))] }
  | .callback request _ _ secure _ =>
      match system.requests[request]? with
      | none => system
      | some (browser, _) =>
          { system with
            requests := system.requests.eraseIdx request
            answers := system.answers ++ [(browser, buildClearedGitHubOAuthStateCookie secure)] }
  | .deliver answer =>
      match system.answers[answer]? with
      | none => system
      | some (browser, setCookie) =>
          { system with
            jar := Function.update system.jar browser (kept setCookie)
            answers := system.answers.eraseIdx answer }
  | .forget browser => { system with jar := Function.update system.jar browser none }

/-- The browser that a callback signs in and where it is sent. -/
def signedIn (system : System) (request : ℕ) (query : Query) (granted : Bool) (now : ℤ) :
    Option (ℕ × String) :=
  match system.requests[request]? with
  | none => none
  | some (browser, cookies) =>
      if query.error ≠ "" ∨ query.code = "" ∨ query.state = [] then none
      else
        let cookieState := (extractCookieValue (some cookies) GITHUB_OAUTH_STATE_COOKIE).map
          fun value => units (String.ofList value)
        (completeGitHubWebOAuth platform env query.state cookieState granted now).map
          fun returnTo => (browser, returnTo)

/-! ## Tickets -/

/-- The same system in terms of what was started: a browser, a callback and an answer each hold the
ticket of one start, or none. -/
structure Tickets where
  jar : ℕ → Option Ticket
  requests : List (ℕ × Option Ticket)
  answers : List (ℕ × Option Ticket)

def noTickets : Tickets := ⟨fun _ => none, [], []⟩

def ticketStep (tickets : Tickets) : Event → Tickets
  | .start ticket _ =>
      if (oauthSecret env).isSome then
        { tickets with answers := tickets.answers ++ [(ticket.browser, some ticket)] }
      else tickets
  | .send browser _ _ =>
      { tickets with requests := tickets.requests ++ [(browser, tickets.jar browser)] }
  | .callback request _ _ _ _ =>
      match tickets.requests[request]? with
      | none => tickets
      | some (browser, _) =>
          { tickets with
            requests := tickets.requests.eraseIdx request
            answers := tickets.answers ++ [(browser, none)] }
  | .deliver answer =>
      match tickets.answers[answer]? with
      | none => tickets
      | some (browser, ticket) =>
          { tickets with
            jar := Function.update tickets.jar browser ticket
            answers := tickets.answers.eraseIdx answer }
  | .forget browser => { tickets with jar := Function.update tickets.jar browser none }

/-- What another browser or another site may add to a request. -/
def Admissible : Event → Prop
  | .send _ before after => (∀ pair ∈ before, IsOther GITHUB_OAUTH_STATE_COOKIE pair) ∧
      ∀ pair ∈ after, IsOther GITHUB_OAUTH_STATE_COOKIE pair
  | _ => True

/-- The places a callback may send a browser to. -/
def Allowed (target : String) : Prop :=
  target = fallback env ∨ ∃ value url, platform.parseUrl value (siteOrigin env) = some url ∧
    url.origin ∈ allowedOrigins env ∧ target = url.href

/-- A ticket of a browser's own, from a start of the run. -/
def OwnTicket (events : List Event) (browser : ℕ) (ticket : Ticket) : Prop :=
  ticket.browser = browser ∧ (oauthSecret env).isSome ∧ ∃ secure, Event.start ticket secure ∈ events

/-- Every ticket is with the browser that started it. -/
structure Own (events : List Event) (tickets : Tickets) : Prop where
  jar : ∀ browser ticket, tickets.jar browser = some ticket → OwnTicket env events browser ticket
  requests : ∀ browser ticket, (browser, some ticket) ∈ tickets.requests →
    OwnTicket env events browser ticket
  answers : ∀ browser ticket, (browser, some ticket) ∈ tickets.answers →
    OwnTicket env events browser ticket

/-- The system holds the cookies of the tickets, each in its place. -/
structure Simulates (system : System) (tickets : Tickets) : Prop where
  jar : ∀ browser, system.jar browser =
    (tickets.jar browser).map fun ticket => encodeState (ticket.state platform env)
  requests : (system.requests.map fun request =>
      (request.1, extractCookieValue (some request.2) GITHUB_OAUTH_STATE_COOKIE)) =
    tickets.requests.map fun request =>
      (request.1, request.2.map fun ticket => stateText (ticket.state platform env))
  answers : (system.answers.map fun answer => (answer.1, kept answer.2)) =
    tickets.answers.map fun answer =>
      (answer.1, answer.2.map fun ticket => encodeState (ticket.state platform env))

end Steps

section Simulation

variable {platform : Platform} {env : Env} {events : List Event} {system : System}
  {tickets : Tickets}

theorem allowed_normalizeReturnTo (value : Option String) :
    Allowed platform env (normalizeReturnTo platform env value) := by
  unfold normalizeReturnTo
  split
  · exact Or.inl rfl
  · next value =>
    split_ifs
    · exact Or.inl rfl
    · split
      · next url hurl =>
        split_ifs with hallowed
        · exact Or.inr ⟨value, url, hurl, hallowed, rfl⟩
        · exact Or.inl rfl
      · exact Or.inl rfl

theorem kept_buildGitHubOAuthStateCookie (state : Text) (secure : Bool) :
    kept (buildGitHubOAuthStateCookie state secure) = some (PercentCoding.encode state) := by
  have hattributes : ∀ secure, " Max-Age=0".toList ∉ (attributes
      ⟨GITHUB_OAUTH_STATE_TTL_SECONDS, "/v1/auth/github".toList, true, .lax, secure⟩).map
        (' ' :: ·) := by decide
  have hpath : ';' ∉ "/v1/auth/github".toList := by decide
  have hname : GITHUB_OAUTH_STATE_COOKIE.head? = some 'g' := by decide
  have hout : " Max-Age=0".toList ∉ (buildGitHubOAuthStateCookie state secure).splitOn ';' := by
    rw [buildGitHubOAuthStateCookie,
      splitOn_serializeCookie isCookieName_state.no_semicolon state hpath, List.mem_cons, not_or]
    refine ⟨fun heq => ?_, hattributes secure⟩
    have hhead := congrArg List.head? heq
    rw [List.head?_append, hname, Option.some_or] at hhead
    exact absurd hhead (by decide)
  rw [kept, if_neg hout, buildGitHubOAuthStateCookie,
    browserPair_serializeCookie isCookieName_state]

theorem kept_buildClearedGitHubOAuthStateCookie (secure : Bool) :
    kept (buildClearedGitHubOAuthStateCookie secure) = none := by
  have hpath : ';' ∉ "/v1/auth/github".toList := by decide
  have hattributes : ∀ secure, " Max-Age=0".toList ∈ (attributes
      ⟨0, "/v1/auth/github".toList, true, .lax, secure⟩).map (' ' :: ·) := by decide
  refine if_pos ?_
  rw [buildClearedGitHubOAuthStateCookie,
    splitOn_serializeCookie isCookieName_state.no_semicolon [] hpath]
  exact List.mem_cons_of_mem _ (hattributes secure)

theorem lt_of_mem_base64UrlEncode {bytes : List UInt8} {unit : ℕ}
    (h : unit ∈ base64UrlEncode bytes) : unit < 128 := by
  rw [base64UrlEncode_eq] at h
  obtain ⟨value, hvalue, rfl⟩ := List.mem_map.mp h
  have hletter := (Base64.unpadded_sextets bytes).letters value hvalue
  unfold Base64.IsLetter at hletter
  unfold urlUnit
  split_ifs <;> omega

/-- The text of a state has the state's own units. -/
theorem units_stateText (secret : String) (payload : OAuthState) :
    units (String.ofList (stateText (signOAuthState platform secret payload))) =
      signOAuthState platform secret payload := by
  have hascii : ∀ unit ∈ signOAuthState platform secret payload, unit < 128 := by
    intro unit hunit
    rcases List.mem_append.mp hunit with hfront | hback
    · exact lt_of_mem_base64UrlEncode hfront
    · rcases List.mem_cons.mp hback with rfl | hlast
      · decide
      · exact lt_of_mem_base64UrlEncode hlast
  have hback : ∀ unit < 128, (Char.ofNat unit).toNat = unit := by decide
  rw [CodeUnits.units, String.toList_ofList, stateText, List.map_map]
  exact (List.map_congr_left fun unit hunit => hback unit (hascii unit hunit)).trans
    (List.map_id _)

/-- Lists that are alike under two readings have the same places. -/
theorem getElem?_of_map_eq {α β γ : Type*} {f : α → γ} {g : β → γ} {left : List α} {right : List β}
    (h : left.map f = right.map g) (index : ℕ) :
    left[index]? = none ∧ right[index]? = none ∨
      ∃ item other, left[index]? = some item ∧ right[index]? = some other ∧ f item = g other := by
  have hread := congrArg (fun list => list[index]?) h
  simp only [List.getElem?_map] at hread
  rcases hleft : left[index]? with _ | item <;> rcases hright : right[index]? with _ | other <;>
    rw [hleft, hright] at hread
  · exact Or.inl ⟨rfl, rfl⟩
  · cases hread
  · cases hread
  · exact Or.inr ⟨item, other, rfl, rfl, Option.some.inj hread⟩

theorem simulates_start : Simulates platform env start noTickets := ⟨fun _ => rfl, rfl, rfl⟩

theorem simulates_step (h : Simulates platform env system tickets) {event : Event}
    (hadmissible : Admissible event) :
    Simulates platform env (step platform env system event) (ticketStep env tickets event) := by
  cases event with
  | start ticket secure =>
    unfold step ticketStep
    simp only
    split_ifs
    · refine ⟨h.jar, h.requests, ?_⟩
      rw [List.map_append, List.map_append, h.answers, List.map_singleton, List.map_singleton,
        kept_buildGitHubOAuthStateCookie]
      rfl
    · exact h
  | send browser before after =>
    refine ⟨h.jar, ?_, h.answers⟩
    have hread : extractCookieValue (some (cookieHeader (before ++
        statePairs (system.jar browser) ++ after))) GITHUB_OAUTH_STATE_COOKIE =
          (tickets.jar browser).map fun ticket => stateText (ticket.state platform env) := by
      rw [h.jar browser]
      rcases tickets.jar browser with _ | ticket
      · refine extractCookieValue_of_others (by decide) fun pair hpair => ?_
        rw [Option.map_none, statePairs, List.append_nil] at hpair
        exact (List.mem_append.mp hpair).elim (hadmissible.1 pair) (hadmissible.2 pair)
      · have hpair := browserPair_serializeCookie isCookieName_state
          (stateText (ticket.state platform env))
          ⟨GITHUB_OAUTH_STATE_TTL_SECONDS, "/v1/auth/github".toList, true, .lax, true⟩
        rw [Option.map_some, statePairs, encodeState, ← hpair, List.append_assoc,
          List.singleton_append]
        exact extractCookieValue_cookieHeader isCookieName_state _ _ hadmissible.1
          fun pair hpair => (hadmissible.2 pair hpair).no_semicolon
    rw [step, ticketStep, List.map_append, List.map_append, h.requests, List.map_singleton,
      List.map_singleton, hread]
  | callback request query granted secure now =>
    unfold step ticketStep
    rcases getElem?_of_map_eq h.requests request with ⟨hsystem, htickets⟩ |
      ⟨⟨browser, cookies⟩, held, hsystem, htickets, hsame⟩
    · simp only [hsystem, htickets]
      exact h
    · simp only [hsystem, htickets]
      refine ⟨h.jar, ?_, ?_⟩
      · rw [← List.eraseIdx_map, ← List.eraseIdx_map, h.requests]
      · rw [List.map_append, List.map_append, h.answers, List.map_singleton, List.map_singleton,
          kept_buildClearedGitHubOAuthStateCookie,
          show browser = held.1 from congrArg Prod.fst hsame]
        rfl
  | deliver answer =>
    unfold step ticketStep
    rcases getElem?_of_map_eq h.answers answer with ⟨hsystem, htickets⟩ |
      ⟨⟨browser, setCookie⟩, ⟨holder, held⟩, hsystem, htickets, hsame⟩
    · simp only [hsystem, htickets]
      exact h
    · obtain ⟨rfl, hkept⟩ := Prod.mk.inj hsame
      simp only [hsystem, htickets]
      refine ⟨fun other => ?_, h.requests, ?_⟩
      · simp only [Function.update_apply]
        split_ifs
        · exact hkept
        · exact h.jar other
      · rw [← List.eraseIdx_map, ← List.eraseIdx_map, h.answers]
  | forget browser =>
    refine ⟨fun other => ?_, h.requests, h.answers⟩
    simp only [step, ticketStep, Function.update_apply]
    split_ifs
    · rfl
    · exact h.jar other

theorem simulates_run (hadmissible : ∀ event ∈ events, Admissible event) :
    Simulates platform env (run (step platform env) start events)
      (run (ticketStep env) noTickets events) := by
  induction events using List.reverseRecOn with
  | nil => exact simulates_start
  | append_singleton events event ih =>
    rw [run_append, run_append]
    refine simulates_step (ih fun earlier hearlier => ?_) ?_
    · exact hadmissible earlier (List.mem_append_left _ hearlier)
    · exact hadmissible event (List.mem_append_right _ (List.mem_singleton_self _))

theorem OwnTicket.later {browser : ℕ} {ticket : Ticket} (h : OwnTicket env events browser ticket)
    (event : Event) : OwnTicket env (events ++ [event]) browser ticket := by
  obtain ⟨hbrowser, hsecret, secure, hmem⟩ := h
  exact ⟨hbrowser, hsecret, secure, List.mem_append_left _ hmem⟩

theorem own_step (h : Own env events tickets) (event : Event) :
    Own env (events ++ [event]) (ticketStep env tickets event) := by
  have hjar : ∀ browser ticket, tickets.jar browser = some ticket →
      OwnTicket env (events ++ [event]) browser ticket :=
    fun browser ticket hheld => (h.jar browser ticket hheld).later event
  have hrequests : ∀ browser ticket, (browser, some ticket) ∈ tickets.requests →
      OwnTicket env (events ++ [event]) browser ticket :=
    fun browser ticket hheld => (h.requests browser ticket hheld).later event
  have hanswers : ∀ browser ticket, (browser, some ticket) ∈ tickets.answers →
      OwnTicket env (events ++ [event]) browser ticket :=
    fun browser ticket hheld => (h.answers browser ticket hheld).later event
  cases event with
  | start ticket secure =>
    unfold ticketStep
    split_ifs with hsecret
    · refine ⟨hjar, hrequests, fun browser held hheld => ?_⟩
      rcases List.mem_append.mp hheld with hold | hnew
      · exact hanswers browser held hold
      · obtain ⟨rfl, hticket⟩ := Prod.mk.inj (List.mem_singleton.mp hnew)
        obtain rfl := Option.some.inj hticket
        exact ⟨rfl, hsecret, secure, List.mem_append_right _ (List.mem_singleton_self _)⟩
    · exact ⟨hjar, hrequests, hanswers⟩
  | send browser before after =>
    refine ⟨hjar, fun holder held hheld => ?_, hanswers⟩
    rcases List.mem_append.mp hheld with hold | hnew
    · exact hrequests holder held hold
    · obtain ⟨rfl, hticket⟩ := Prod.mk.inj (List.mem_singleton.mp hnew)
      exact hjar holder held hticket.symm
  | callback request query granted secure now =>
    rcases hrequest : tickets.requests[request]? with _ | ⟨browser, held⟩ <;>
      simp only [ticketStep, hrequest]
    · exact ⟨hjar, hrequests, hanswers⟩
    · refine ⟨hjar, fun holder held hheld => ?_, fun holder held hheld => ?_⟩
      · exact hrequests holder held (List.mem_of_mem_eraseIdx hheld)
      · rcases List.mem_append.mp hheld with hold | hnew
        · exact hanswers holder held hold
        · cases (Prod.mk.inj (List.mem_singleton.mp hnew)).2
  | deliver answer =>
    rcases hanswer : tickets.answers[answer]? with _ | ⟨browser, held⟩ <;>
      simp only [ticketStep, hanswer]
    · exact ⟨hjar, hrequests, hanswers⟩
    · refine ⟨fun holder ticket hheld => ?_, hrequests, fun holder ticket hheld => ?_⟩
      · simp only [Function.update_apply] at hheld
        split_ifs at hheld with hholder
        · rw [hholder]
          exact hanswers browser ticket (hheld ▸ List.mem_of_getElem? hanswer)
        · exact hjar holder ticket hheld
      · exact hanswers holder ticket (List.mem_of_mem_eraseIdx hheld)
  | forget browser =>
    refine ⟨fun holder ticket hheld => ?_, hrequests, hanswers⟩
    simp only [ticketStep, Function.update_apply] at hheld
    split_ifs at hheld
    exact hjar holder ticket hheld

theorem own_run (env : Env) (events : List Event) :
    Own env events (run (ticketStep env) noTickets events) := by
  induction events using List.reverseRecOn with
  | nil => exact ⟨nofun, nofun, nofun⟩
  | append_singleton events event ih =>
    rw [run_append]
    exact own_step ih event

theorem signOAuthState_ne_nil (secret : String) (payload : OAuthState) :
    signOAuthState platform secret payload ≠ [] :=
  List.append_ne_nil_of_right_ne_nil _ (List.cons_ne_nil _ _)

/-- What a callback with the state of its own ticket comes to. -/
theorem completeGitHubWebOAuth_own {ticket : Ticket}
    (h : ReadsBack platform (ticket.payload platform env)) (hsecret : (oauthSecret env).isSome)
    (granted : Bool) (now : ℤ) :
    completeGitHubWebOAuth platform env (ticket.state platform env)
        (some (ticket.state platform env)) granted now =
      if seconds now ≤ seconds ticket.startedAt + GITHUB_OAUTH_STATE_TTL_SECONDS ∧
          granted = true then
        some (normalizeReturnTo platform env
          (some (normalizeReturnTo platform env ticket.returnTo)))
      else none := by
  obtain ⟨secret, hsome⟩ := Option.isSome_iff_exists.mp hsecret
  have hequal : timingSafeEqual platform.sha256Bytes (some (ticket.state platform env))
      (some (ticket.state platform env)) = true :=
    timingSafeEqual_iff.mpr ⟨signOAuthState_ne_nil _ _, signOAuthState_ne_nil _ _, rfl⟩
  have hverify : verifyOAuthState platform env secret (ticket.state platform env) now =
      if ((seconds ticket.startedAt + GITHUB_OAUTH_STATE_TTL_SECONDS : ℤ) : ℚ) < (seconds now : ℚ)
      then none
      else some ⟨ticket.nonce, normalizeReturnTo platform env
        (some (normalizeReturnTo platform env ticket.returnTo)),
        ((seconds ticket.startedAt + GITHUB_OAUTH_STATE_TTL_SECONDS : ℤ) : ℚ)⟩ := by
    rw [Ticket.state, hsome]
    exact verifyOAuthState_signOAuthState h secret now
  rw [completeGitHubWebOAuth, hsome]
  simp only [hequal, Bool.not_true, Bool.false_eq_true, if_false, hverify, Int.cast_lt]
  by_cases hlate : seconds ticket.startedAt + GITHUB_OAUTH_STATE_TTL_SECONDS < seconds now
  · rw [if_pos hlate, if_neg fun h => absurd h.1 (not_le.mpr hlate)]
  · rw [if_neg hlate]
    cases granted
    · rw [if_neg fun h => Bool.false_ne_true h.2]
      rfl
    · rw [if_pos ⟨not_lt.mp hlate, rfl⟩]
      rfl

theorem completeGitHubWebOAuth_other {state : Units} {cookieState : Option Units}
    (h : timingSafeEqual platform.sha256Bytes (some state) cookieState = false) (granted : Bool)
    (now : ℤ) : completeGitHubWebOAuth platform env state cookieState granted now = none := by
  unfold completeGitHubWebOAuth
  rw [h]
  split <;> rfl

end Simulation

/-- A callback is accepted exactly where it carries no error but a code and the state of the ticket
that its browser held when it was sent, the ticket is no older than ten minutes, in whole seconds,
and GitHub grants the code. The ticket is from a start of that very browser, and the browser is
sent to an allowed place. -/
theorem signedIn_iff {platform : Platform} {env : Env} {events : List Event}
    (hadmissible : ∀ event ∈ events, Admissible event)
    (hreads : ∀ ticket secure, Event.start ticket secure ∈ events →
      ReadsBack platform (ticket.payload platform env)) {request : ℕ} {query : Query}
    (granted : Bool) (now : ℤ) (browser : ℕ) (target : String)
    (hcollision : ∀ ticket, (run (ticketStep env) noTickets events).requests[request]? =
        some (browser, some ticket) →
      platform.sha256Bytes query.state = platform.sha256Bytes (ticket.state platform env) →
      query.state = ticket.state platform env) :
    signedIn platform env (run (step platform env) start events) request query granted now =
        some (browser, target) ↔
      query.error = "" ∧ query.code ≠ "" ∧ granted = true ∧
        ∃ ticket, (run (ticketStep env) noTickets events).requests[request]? =
            some (browser, some ticket) ∧ OwnTicket env events browser ticket ∧
          query.state = ticket.state platform env ∧
          seconds now ≤ seconds ticket.startedAt + GITHUB_OAUTH_STATE_TTL_SECONDS ∧
          target = normalizeReturnTo platform env
            (some (normalizeReturnTo platform env ticket.returnTo)) ∧
          Allowed platform env target := by
  have hown := own_run env events
  have hsimulates : Simulates platform env (run (step platform env) start events)
      (run (ticketStep env) noTickets events) := simulates_run hadmissible
  rcases getElem?_of_map_eq hsimulates.requests request with
    ⟨hsystem, htickets⟩ | ⟨⟨holder, cookies⟩, ⟨holder', held⟩, hsystem, htickets, hsame⟩
  · rw [htickets]
    simp [signedIn, hsystem]
  obtain ⟨rfl, hread⟩ := Prod.mk.inj hsame
  rw [htickets] at hcollision ⊢
  simp only [signedIn, hsystem, hread]
  by_cases hquery : query.error ≠ "" ∨ query.code = "" ∨ query.state = []
  · rw [if_pos hquery]
    refine iff_of_false (nofun) fun ⟨herror, hcode, _, ticket, _, _, hstate, _⟩ => ?_
    rcases hquery with h | h | h
    · exact h herror
    · exact hcode h
    · exact signOAuthState_ne_nil _ _ (hstate.symm.trans h)
  rw [if_neg hquery]
  rw [not_or, not_or, not_not] at hquery
  rcases held with _ | ticket
  · rw [Option.map_none, Option.map_none, completeGitHubWebOAuth_other rfl]
    exact iff_of_false (nofun) fun ⟨_, _, _, ticket, hheld, _⟩ => nomatch hheld
  have howned := hown.requests holder ticket (List.mem_of_getElem? htickets)
  rw [Option.map_some, Option.map_some, show units (String.ofList (stateText
    (ticket.state platform env))) = ticket.state platform env from units_stateText _ _]
  by_cases hstate : query.state = ticket.state platform env
  · obtain ⟨secure, hstart⟩ := howned.2.2
    rw [hstate, completeGitHubWebOAuth_own (hreads ticket secure hstart) howned.2.1]
    constructor
    · intro h
      split_ifs at h with hgranted
      · obtain ⟨rfl, rfl⟩ := Prod.mk.inj (Option.some.inj h)
        exact ⟨hquery.1, hquery.2.1, hgranted.2, ticket, rfl, howned, rfl, hgranted.1, rfl,
          allowed_normalizeReturnTo _⟩
      · cases h
    · rintro ⟨-, -, hgranted, other, hheld, -, -, htime, rfl, -⟩
      obtain ⟨rfl, hticket⟩ := Prod.mk.inj (Option.some.inj hheld)
      obtain rfl := Option.some.inj hticket
      rw [if_pos ⟨htime, hgranted⟩]
      rfl
  · constructor
    · intro h
      rcases hequal : timingSafeEqual platform.sha256Bytes (some query.state)
        (some (ticket.state platform env)) with _ | _
      · rw [completeGitHubWebOAuth_other hequal] at h
        cases h
      · obtain ⟨returnTo, -, hbrowser⟩ := Option.map_eq_some_iff.mp h
        obtain ⟨rfl, -⟩ := Prod.mk.inj hbrowser
        exact absurd (hcollision ticket rfl (timingSafeEqual_iff.mp hequal).2.2) hstate
    · rintro ⟨-, -, -, other, hheld, -, hother, -⟩
      obtain ⟨-, hticket⟩ := Prod.mk.inj (Option.some.inj hheld)
      obtain rfl := Option.some.inj hticket
      exact absurd hother hstate

def sampleText : String :=
  "\x7b\"nonce\":\"oauth_1\",\"returnTo\":\"https://gittensory.aethereal.dev/app/runs\"," ++
    "\"exp\":1780000600\x7d"

/-- What the platform computes for the sign-in of the example. -/
def samplePlatform : Platform where
  sha256Bytes text :=
    if text.length = 166 then
      [28, 228, 77, 32, 31, 167, 63, 165, 198, 200, 34, 134, 6, 17, 212, 32, 128, 50, 21, 83, 130,
        79, 98, 170, 204, 30, 99, 116, 85, 247, 164, 183]
    else
      [124, 213, 43, 145, 117, 204, 89, 128, 4, 243, 79, 96, 2, 202, 129, 58, 188, 26, 95, 107,
        172, 88, 163, 147, 225, 142, 152, 69, 244, 195, 57, 235]
  hmacSha256 _ _ :=
    [123, 24, 216, 143, 245, 51, 238, 200, 220, 211, 118, 122, 90, 221, 32, 99, 132, 97, 178, 89,
      140, 128, 17, 44, 49, 178, 45, 33, 220, 52, 110, 124]
  hmac_ne_nil _ _ := List.cons_ne_nil _ _
  stringify _ := sampleText
  parse text :=
    if text = sampleText then
      some ⟨"oauth_1", "https://gittensory.aethereal.dev/app/runs", 1780000600⟩
    else none
  malformed _ := "\uFFFD"
  parseUrl value _ :=
    if value = "https://gittensory.aethereal.dev/app/runs" then
      some ⟨"https://gittensory.aethereal.dev", value⟩
    else none

def sampleEnv : Env := ⟨some "Iv1.0", some "s3cret", none⟩

def sampleTicket : Ticket :=
  ⟨1, some "https://gittensory.aethereal.dev/app/runs", "oauth_1", 1780000000000⟩

def sampleRun : List Event :=
  [.start sampleTicket true, .deliver 0, .send 1 [("theme".toList, "dark".toList)] []]

def sampleQuery : Query := ⟨"", "c0de", sampleTicket.state samplePlatform sampleEnv⟩

theorem sample_signed_in :
    signedIn samplePlatform sampleEnv (run (step samplePlatform sampleEnv) start sampleRun) 0
      sampleQuery true 1780000600999 = some (1, "https://gittensory.aethereal.dev/app/runs") :=
  (signedIn_iff
    (fun event hevent => by
      simp only [sampleRun, List.mem_cons, List.not_mem_nil, or_false] at hevent
      rcases hevent with rfl | rfl | rfl
      · exact trivial
      · exact trivial
      · refine ⟨fun pair hpair => ?_, nofun⟩
        rw [List.mem_singleton.mp hpair]
        exact ⟨by decide, by decide⟩)
    (fun ticket secure hstart => by
      simp only [sampleRun, List.mem_cons, List.not_mem_nil, or_false, reduceCtorEq,
        Event.start.injEq] at hstart
      obtain ⟨rfl, -⟩ := hstart
      exact ⟨by decide, by decide⟩)
    true 1780000600999 1 _ (fun ticket hheld _ => by
      obtain rfl : sampleTicket = ticket :=
        Option.some.inj (congrArg Prod.snd (Option.some.inj hheld))
      rfl)).mpr
    ⟨rfl, by decide, rfl, sampleTicket, rfl, ⟨rfl, by decide, true, List.mem_cons_self⟩, rfl,
      by decide, by decide, Or.inr ⟨"https://gittensory.aethereal.dev/app/runs",
        ⟨"https://gittensory.aethereal.dev", "https://gittensory.aethereal.dev/app/runs"⟩,
        by rfl, by decide, rfl⟩⟩

end Gittensory.WebSignIn
