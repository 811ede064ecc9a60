import Gittensory.DuplicateSignals
import Gittensory.GuardedRun
import Gittensory.HexDigests
import Gittensory.KeyedTable

/-!
Sessions and what they open (`auth/security.ts`, the rows of `auth_sessions` in
`db/repositories.ts`, the middleware and the sign-in routes of `api/routes.ts`). A request
reads a row, then touches it, and then may log out or ask for a session for the browser
extension, each at its own time and among the steps of any other requests. A row answers to
the SHA-256 of a token only.
-/
namespace Gittensory.AuthSessions

open CodeUnits DuplicateSignals GuardedRun HexDigests

def SESSION_TTL_SECONDS : ℤ := 7 * 24 * 60 * 60

/-- Times in milliseconds; `parentSessionId` is kept in `metadata`. -/
structure AuthSessionRecord where
  id : String
  tokenHash : Units
  login : Units
  githubUserId : Option ℤ
  scopes : List String
  expiresAt : ℤ
  revokedAt : Option ℤ := none
  createdAt : ℤ
  lastSeenAt : Option ℤ
  parentSessionId : Option String := none
  deriving DecidableEq

inductive StaticActor where
  | api
  | mcp
  | internal
  deriving DecidableEq

inductive AuthIdentity where
  | static (actor : StaticActor)
  | session (session : AuthSessionRecord)
  deriving DecidableEq

structure Env where
  gittensoryApiToken : Option Units
  gittensoryMcpToken : Option Units
  internalJobToken : Option Units
  adminGithubLogins : Option Units

/-! ## Rows -/

def getAuthSessionByTokenHash (rows : List AuthSessionRecord) (tokenHash : Units) :
    Option AuthSessionRecord := KeyedTable.lookup AuthSessionRecord.tokenHash rows tokenHash

/-- The insert fails where the id or the hash is there already. -/
def Insertable (rows : List AuthSessionRecord) (session : AuthSessionRecord) : Prop :=
  ∀ row ∈ rows, row.id ≠ session.id ∧ row.tokenHash ≠ session.tokenHash

instance decidableInsertable (rows : List AuthSessionRecord) (session : AuthSessionRecord) :
    Decidable (Insertable rows session) :=
  inferInstanceAs
    (Decidable (∀ row ∈ rows, row.id ≠ session.id ∧ row.tokenHash ≠ session.tokenHash))

def createAuthSession (rows : List AuthSessionRecord) (session : AuthSessionRecord) :
    List AuthSessionRecord := if Insertable rows session then rows ++ [session] else rows

def touchAuthSession (rows : List AuthSessionRecord) (sessionId : String) (now : ℤ) :
    List AuthSessionRecord :=
  rows.map fun row => if row.id = sessionId then { row with lastSeenAt := some now } else row

def revokeAuthSession (rows : List AuthSessionRecord) (sessionId : String) (now : ℤ) :
    List AuthSessionRecord :=
  rows.map fun row =>
    if row.id = sessionId then { row with revokedAt := some now, lastSeenAt := some now } else row

/-! ## Paths -/

def slash : ℕ := 47

/-- `/^\/v1\/repos\/[^/]+\/[^/]+` and one of the tails, to the end. -/
def isRepoPath (tails : List (List String)) (path : Units) : Bool :=
  match path.splitOn slash with
  | root :: version :: repos :: owner :: name :: tail =>
      root = [] && version = units "v1" && repos = units "repos" && owner ≠ [] && name ≠ [] &&
        tails.any fun words => tail = words.map units
  | _ => false

def isRepoSettingsPath := isRepoPath [["settings"]]
def isRepoActivationPath := isRepoPath [["activation"], ["activation-preview"]]
def isRepoOutcomeCalibrationPath := isRepoPath [["outcome-calibration"]]
def isRepoGatePrecisionPath := isRepoPath [["gate-precision"]]
def isRepoSettingsPreviewPath := isRepoPath [["settings-preview"]]
def isRepoOnboardingPackPreviewPath := isRepoPath [["onboarding-pack", "preview"]]
def isRepoContributorIssueDraftGeneratePath := isRepoPath [["contributor-issue-drafts", "generate"]]
def isRepoCheckBeforeStartPath := isRepoPath [["check-before-start"]]
def isRepoValidateLinkedIssuePath := isRepoPath [["validate-linked-issue"]]
def isRepoAgentAuditFeedPath := isRepoPath [["agent", "audit-feed"]]
def isIssueQualityPath := isRepoPath [["issue-quality"]]
def isRepoFocusManifestPath := isRepoPath [["focus-manifest"], ["focus-manifest", "refresh"]]
def isRepoAiConfigPath := isRepoPath [["ai-review"], ["ai-key"]]

def EXTENSION_PULL_CONTEXT_PATH : Units := units "/v1/extension/pull-context"
def LINT_PR_TEXT_PATH : Units := units "/v1/lint/pr-text"
def LINT_SLOP_RISK_PATH : Units := units "/v1/lint/slop-risk"
def LINT_ISSUE_SLOP_PATH : Units := units "/v1/lint/issue-slop"

def EXTENSION_PULL_CONTEXT_SCOPE : String := "extension:pull_context"
def EXTENSION_CONTRIBUTOR_CONTEXT_SCOPE : String := "extension:contributor_context"

/-- `/^\/v1\/extension\/contributors\/[^/]+\/[^/]+$/` -/
def isExtensionContributorContextPath (path : Units) : Bool :=
  match path.splitOn slash with
  | [root, version, extension, contributors, login, resource] =>
      root = [] && version = units "v1" && extension = units "extension" &&
        contributors = units "contributors" && login ≠ [] && resource ≠ []
  | _ => false

/-- The stats of a repository and its badges, for anyone. -/
def isPublicRepoPath (path : Units) : Bool :=
  match path.splitOn slash with
  | [root, version, pub, github, repos, owner, name, stats] =>
      root = [] && version = units "v1" && pub = units "public" && github = units "github" &&
        repos = units "repos" && owner ≠ [] && name ≠ [] && stats = units "stats"
  | [root, version, pub, repos, owner, name, badge] =>
      root = [] && version = units "v1" && pub = units "public" && repos = units "repos" &&
        owner ≠ [] && name ≠ [] && (badge = units "badge.svg" || badge = units "badge.json")
  | _ => false

def requiresApiToken (path : Units) : Bool :=
  if path = units "/health" then false
  else if path = units "/v1/mcp/compatibility" then false
  else if isPublicRepoPath path then false
  else if path = units "/v1/public/subnet-interface" then false
  else if path = units "/v1/public/stats" then false
  else if path = units "/openapi.json" then false
  else if path = units "/mcp" then false
  else if path = units "/v1/drafts" || (units "/v1/drafts/").isPrefixOf path then false
  else if (units "/v1/auth/").isPrefixOf path then false
  else if path = units "/v1/github/webhook" then false
  else if (units "/v1/internal/").isPrefixOf path then false
  else (units "/v1/").isPrefixOf path

def isExtensionScopedSession : AuthIdentity → Bool
  | .static _ => false
  | .session session => session.scopes.contains EXTENSION_PULL_CONTEXT_SCOPE

def isExtensionContributorScopedSession : AuthIdentity → Bool
  | .static _ => false
  | .session session => session.scopes.contains EXTENSION_CONTRIBUTOR_CONTEXT_SCOPE

def comma : ℕ := 44

/-- `value.split(/[\s,]+/)` and the words that are not empty -/
def parseGitHubLoginList (value : Option Units) : List Units :=
  (WordRuns.words (fun unit => !isSpace unit && unit ≠ comma) (value.getD [])).map toLowerCase

def isAuthorizedGitHubSessionLogin (env : Env) (login : Units) : Bool :=
  (parseGitHubLoginList env.adminGithubLogins).contains (toLowerCase login)

def canSessionAccessPath (env : Env) (session : AuthSessionRecord) (path : Units) : Bool :=
  isAuthorizedGitHubSessionLogin env session.login || (units "/v1/app/").isPrefixOf path ||
  isIssueQualityPath path || isRepoSettingsPath path || isRepoActivationPath path ||
  isRepoOutcomeCalibrationPath path || isRepoGatePrecisionPath path ||
  isRepoSettingsPreviewPath path || isRepoOnboardingPackPreviewPath path ||
  isRepoFocusManifestPath path || isRepoAiConfigPath path || isRepoCheckBeforeStartPath path ||
  isRepoValidateLinkedIssuePath path || isRepoAgentAuditFeedPath path ||
  isRepoContributorIssueDraftGeneratePath path ||
  (path = LINT_PR_TEXT_PATH || path = LINT_SLOP_RISK_PATH || path = LINT_ISSUE_SLOP_PATH) ||
  (path = EXTENSION_PULL_CONTEXT_PATH && isExtensionScopedSession (.session session)) ||
  (isExtensionContributorContextPath path &&
    isExtensionContributorScopedSession (.session session))

/-! ## Tokens -/

section Tokens

-- The digest of a text's UTF-8 bytes.
variable (sha256Bytes : Units → List UInt8) (env : Env)

def timingSafeEqual (actual expected : Option Units) : Bool :=
  match actual, expected with
  | some actual, some expected =>
      if actual = [] ∨ expected = [] then false
      else
        let left := sha256Bytes actual
        let right := sha256Bytes expected
        (List.range (min left.length right.length)).foldl
          (fun diff index =>
            diff ||| ((left.getD index 0).toNat ^^^ (right.getD index 0).toNat))
          (left.length ^^^ right.length) == 0
  | _, _ => false

def hashToken (token : Units) : Units := (sha256Bytes token).flatMap hexByte

/-- What the read decides; the row is touched after it. -/
def authenticateSessionToken (rows : List AuthSessionRecord) (token : Option Units) (now : ℤ) :
    Option AuthIdentity :=
  match token with
  | none => none
  | some token =>
      if token = [] then none
      else
        match getAuthSessionByTokenHash rows (hashToken sha256Bytes token) with
        | none => none
        | some session =>
            if session.revokedAt.isSome ∨ session.expiresAt ≤ now then none
            else some (.session session)

def authenticatePrivateToken (rows : List AuthSessionRecord) (token : Option Units) (now : ℤ) :
    Option AuthIdentity :=
  if token = none ∨ token = some [] then none
  else if timingSafeEqual sha256Bytes token env.gittensoryApiToken then some (.static .api)
  else if timingSafeEqual sha256Bytes token env.gittensoryMcpToken then some (.static .mcp)
  else authenticateSessionToken sha256Bytes rows token now

def authenticateInternalToken (token : Option Units) : Option AuthIdentity :=
  if timingSafeEqual sha256Bytes token env.internalJobToken then some (.static .internal) else none

def authenticateRequestIdentity (rows : List AuthSessionRecord) (bearer cookie : Option Units)
    (now : ℤ) : Option AuthIdentity :=
  match authenticatePrivateToken sha256Bytes env rows bearer now with
  | some identity => some identity
  | none => authenticateSessionToken sha256Bytes rows cookie now

inductive Verdict where
  | next
  | unauthorized
  | insufficientRole
  | insufficientScope
  deriving DecidableEq

/-- The middleware in front of every route. -/
def middleware (rows : List AuthSessionRecord) (bearer cookie : Option Units) (path : Units)
    (now : ℤ) : Verdict :=
  if !requiresApiToken path then .next
  else
    match authenticateRequestIdentity sha256Bytes env rows bearer cookie now with
    | none => .unauthorized
    | some identity =>
        let denied := match identity with
          | .static _ => false
          | .session session => !canSessionAccessPath env session path
        if denied then .insufficientRole
        else if isExtensionScopedSession identity && path ≠ EXTENSION_PULL_CONTEXT_PATH then
          .insufficientScope
        else if isExtensionContributorScopedSession identity &&
            !isExtensionContributorContextPath path then .insufficientScope
        else .next

structure GitHubUser where
  login : Units
  id : Option ℤ

def createSessionForGitHubUser (id : String) (token : Units) (user : GitHubUser)
    (scopes : List String) (parentSessionId : Option String) (now : ℤ) : AuthSessionRecord where
  id := id
  tokenHash := hashToken sha256Bytes token
  login := user.login
  githubUserId := user.id
  scopes := scopes
  expiresAt := now + SESSION_TTL_SECONDS * 1000
  createdAt := now
  lastSeenAt := some now
  parentSessionId := parentSessionId

/-! ## Requests -/

/-- `signIn` is the end of a sign-in with GitHub, `authenticate` the read that a request
starts with; the others act with an identity that was read. -/
inductive Event where
  | signIn (id : String) (token : Units) (user : GitHubUser) (scopes : List String) (now : ℤ)
  | authenticate (bearer cookie : Option Units) (now : ℤ)
  | touch (session : AuthSessionRecord) (now : ℤ)
  | revokeSession (identity : Option AuthIdentity) (now : ℤ)
  | extensionSession (identity : Option AuthIdentity) (isMaintainer : Bool) (id : String)
      (token : Units) (now : ℤ)

structure State where
  rows : List AuthSessionRecord
  identities : List AuthIdentity

def start : State := ⟨[], []⟩

/-- The session that an event asks the table to take. -/
def Event.asksFor : Event → Option AuthSessionRecord
  | .signIn id token user scopes now =>
      some (createSessionForGitHubUser sha256Bytes id token user scopes none now)
  | .extensionSession (some (.session session)) isMaintainer id token now =>
      if isExtensionScopedSession (.session session) ||
          isExtensionContributorScopedSession (.session session) then none
      else
        let scope := if isMaintainer then EXTENSION_PULL_CONTEXT_SCOPE
          else EXTENSION_CONTRIBUTOR_CONTEXT_SCOPE
        some (createSessionForGitHubUser sha256Bytes id token
          ⟨session.login, session.githubUserId⟩ [scope] (some session.id) now)
  | _ => none

/-- The id of the row that an event marks as revoked. -/
def Event.revokes : Event → Option String
  | .revokeSession (some (.session session)) _ => some session.id
  | _ => none

def step (state : State) (event : Event) : State :=
  match event with
  | .authenticate bearer cookie now =>
      match authenticateRequestIdentity sha256Bytes env state.rows bearer cookie now with
      | none => state
      | some identity => { state with identities := identity :: state.identities }
  | .touch session now => { state with rows := touchAuthSession state.rows session.id now }
  | .revokeSession (some (.session session)) now =>
      { state with rows := revokeAuthSession state.rows session.id now }
  | .revokeSession _ _ => state
  | event =>
      match event.asksFor sha256Bytes with
      | none => state
      | some session => { state with rows := createAuthSession state.rows session }

/-- A request acts with an identity that some request has read. -/
def Admits (state : State) : Event → Prop
  | .signIn .. => True
  | .authenticate .. => True
  | .touch session _ => .session session ∈ state.identities
  | .revokeSession identity _ => ∀ read ∈ identity, read ∈ state.identities
  | .extensionSession identity _ _ _ _ => ∀ read ∈ identity, read ∈ state.identities

/-! ## The rows along a run -/

variable {sha256Bytes} {env}

/-- The row as it was inserted: touches and a revocation are taken back. -/
def AuthSessionRecord.asIssued (row : AuthSessionRecord) : AuthSessionRecord :=
  { row with revokedAt := none, lastSeenAt := some row.createdAt }

/-- Sessions are asked for as they are inserted, for seven days. -/
theorem asksFor_spec {event : Event} {session : AuthSessionRecord}
    (h : event.asksFor sha256Bytes = some session) :
    session.asIssued = session ∧
      session.expiresAt = session.createdAt + SESSION_TTL_SECONDS * 1000 := by
  cases event with
  | signIn id token user scopes now =>
    obtain rfl := Option.some.inj h
    exact ⟨rfl, rfl⟩
  | extensionSession identity isMaintainer id token now =>
    rcases identity with _ | _ | parent
    · cases h
    · cases h
    · simp only [Event.asksFor] at h
      split_ifs at h
      · obtain rfl := Option.some.inj h
        exact ⟨rfl, rfl⟩
      · obtain rfl := Option.some.inj h
        exact ⟨rfl, rfl⟩
  | authenticate => cases h
  | touch => cases h
  | revokeSession => cases h

/-- A row after a step, by what the event does to it. -/
def Event.updated (event : Event) (row : AuthSessionRecord) : AuthSessionRecord :=
  match event with
  | .touch session now =>
      if row.id = session.id then { row with lastSeenAt := some now } else row
  | .revokeSession (some (.session session)) now =>
      if row.id = session.id then { row with revokedAt := some now, lastSeenAt := some now }
      else row
  | _ => row

/-- The session that an event adds to the table. -/
def inserted (sha256Bytes : Units → List UInt8) (rows : List AuthSessionRecord) (event : Event) :
    Option AuthSessionRecord :=
  match event.asksFor sha256Bytes with
  | none => none
  | some session => if Insertable rows session then some session else none

theorem rows_added (state : State) (asked : Option AuthSessionRecord) :
    (match asked with
      | none => state
      | some session => { state with rows := createAuthSession state.rows session }).rows =
      state.rows ++ (match asked with
        | none => none
        | some session => if Insertable state.rows session then some session else none).toList := by
  rcases asked with _ | session
  · exact (List.append_nil _).symm
  · simp only [createAuthSession]
    split_ifs
    · rfl
    · exact (List.append_nil _).symm

/-- What a step does to the table: rows are updated in place, and one is added at the end. -/
theorem rows_step (state : State) (event : Event) :
    (step sha256Bytes env state event).rows =
      state.rows.map event.updated ++
        (inserted sha256Bytes state.rows event).toList := by
  have hkept : ∀ rows : List AuthSessionRecord,
      (rows.map fun row => row) = rows := List.map_id'
  cases event with
  | signIn id token user scopes now =>
    rw [show (Event.signIn id token user scopes now).updated = fun row => row from rfl, hkept]
    exact rows_added state (some _)
  | extensionSession identity isMaintainer id token now =>
    rw [show (Event.extensionSession identity isMaintainer id token now).updated = fun row => row
      from rfl, hkept]
    exact rows_added state _
  | authenticate bearer cookie now =>
    rw [show (Event.authenticate bearer cookie now).updated = fun row => row from rfl, hkept]
    have hrows : (step sha256Bytes env state (.authenticate bearer cookie now)).rows =
        state.rows := by
      simp only [step]
      split <;> rfl
    exact hrows.trans (List.append_nil _).symm
  | touch session now => exact (List.append_nil _).symm
  | revokeSession identity now =>
    rcases identity with _ | _ | session
    · exact (hkept _).symm.trans (List.append_nil _).symm
    · exact (hkept _).symm.trans (List.append_nil _).symm
    · exact (List.append_nil _).symm

/-! ## Which row answers to a token -/

theorem asIssued_updated (event : Event) (row : AuthSessionRecord) :
    (event.updated row).asIssued = row.asIssued := by
  cases event with
  | touch session now =>
    simp only [Event.updated]
    split_ifs <;> rfl
  | revokeSession identity now =>
    rcases identity with _ | _ | session
    · rfl
    · rfl
    · simp only [Event.updated]
      split_ifs <;> rfl
  | signIn => rfl
  | authenticate => rfl
  | extensionSession => rfl

/-- A row is revoked by the requests that log its own session out, and by no other. -/
theorem revokedAt_updated (event : Event) (row : AuthSessionRecord) :
    (event.updated row).revokedAt = none ↔ row.revokedAt = none ∧ event.revokes ≠ some row.id := by
  cases event with
  | touch session now =>
    simp only [Event.updated]
    split_ifs <;> simp [Event.revokes]
  | revokeSession identity now =>
    rcases identity with _ | _ | session
    · simp [Event.updated, Event.revokes]
    · simp [Event.updated, Event.revokes]
    · simp only [Event.updated, Event.revokes]
      split_ifs with hid
      · simp [hid]
      · simp [Ne.symm hid]
  | signIn => simp [Event.updated, Event.revokes]
  | authenticate => simp [Event.updated, Event.revokes]
  | extensionSession => simp [Event.updated, Event.revokes]

theorem id_of_asIssued {row row' : AuthSessionRecord} (h : row.asIssued = row'.asIssued) :
    row.id = row'.id :=
  have hid : row.asIssued.id = row'.asIssued.id := congrArg (·.id) h
  hid

theorem tokenHash_of_asIssued {row row' : AuthSessionRecord} (h : row.asIssued = row'.asIssued) :
    row.tokenHash = row'.tokenHash :=
  have hhash : row.asIssued.tokenHash = row'.asIssued.tokenHash := congrArg (·.tokenHash) h
  hhash

theorem inserted_eq_some_iff {rows : List AuthSessionRecord} {event : Event}
    {session : AuthSessionRecord} : inserted sha256Bytes rows event = some session ↔
      event.asksFor sha256Bytes = some session ∧ Insertable rows session := by
  rw [inserted]
  rcases event.asksFor sha256Bytes with _ | asked
  · simp
  · simp only [Option.some.injEq]
    constructor
    · intro h
      split_ifs at h with hfresh
      obtain rfl := Option.some.inj h
      exact ⟨rfl, hfresh⟩
    · intro h
      obtain ⟨rfl, hfresh⟩ := h
      exact if_pos hfresh

/-- Ids and hashes are the row's for good, and no two rows share either. -/
def Keyed (rows : List AuthSessionRecord) : Prop :=
  (rows.map (·.id)).Nodup ∧ (rows.map (·.tokenHash)).Nodup

theorem keyed_step (state : State) (event : Event) (h : Keyed state.rows) :
    Keyed (step sha256Bytes env state event).rows := by
  have hids : (state.rows.map event.updated).map (·.id) = state.rows.map (·.id) := by
    rw [List.map_map]
    exact List.map_congr_left fun row _ => id_of_asIssued (asIssued_updated event row)
  have hhashes : (state.rows.map event.updated).map (·.tokenHash) =
      state.rows.map (·.tokenHash) := by
    rw [List.map_map]
    exact List.map_congr_left fun row _ =>
      tokenHash_of_asIssued (asIssued_updated event row)
  rw [rows_step, Keyed, List.map_append, List.map_append, hids, hhashes]
  rcases hinserted : inserted sha256Bytes state.rows event with _ | session
  · simpa [Keyed] using h
  · have hfresh : Insertable state.rows session := (inserted_eq_some_iff.mp hinserted).2
    simp only [Option.toList, List.map_cons, List.map_nil]
    constructor
    · refine List.nodup_append.mpr ⟨h.1, List.nodup_singleton _, ?_⟩
      intro id hid other hother
      rw [List.mem_singleton.mp hother]
      obtain ⟨row, hrow, rfl⟩ := List.mem_map.mp hid
      exact (hfresh row hrow).1
    · refine List.nodup_append.mpr ⟨h.2, List.nodup_singleton _, ?_⟩
      intro hash hhash other hother
      rw [List.mem_singleton.mp hother]
      obtain ⟨row, hrow, rfl⟩ := List.mem_map.mp hhash
      exact (hfresh row hrow).2

theorem mem_rows_step_iff {state : State} {event : Event} {row : AuthSessionRecord} :
    row ∈ (step sha256Bytes env state event).rows ↔
      (∃ earlier ∈ state.rows, event.updated earlier = row) ∨
        inserted sha256Bytes state.rows event = some row := by
  rw [rows_step, List.mem_append, List.mem_map, Option.mem_toList]

/-- A row stays in the table; it is revoked once some request has logged it out. -/
theorem row_later (events : List Event) (state : State) {row : AuthSessionRecord}
    (hrow : row ∈ state.rows) :
    ∃ later ∈ (run (step sha256Bytes env) state events).rows, later.asIssued = row.asIssued ∧
      (later.revokedAt = none ↔
        row.revokedAt = none ∧ ∀ event ∈ events, event.revokes ≠ some row.id) := by
  induction events generalizing state row with
  | nil => exact ⟨row, hrow, rfl, by simp⟩
  | cons event rest ih =>
    have hnext : event.updated row ∈ (step sha256Bytes env state event).rows :=
      mem_rows_step_iff.mpr (Or.inl ⟨row, hrow, rfl⟩)
    obtain ⟨later, hlater, hissued, hrevoked⟩ := ih (step sha256Bytes env state event) hnext
    refine ⟨later, hlater, hissued.trans (asIssued_updated event row), ?_⟩
    rw [hrevoked, revokedAt_updated, id_of_asIssued (asIssued_updated event row),
      List.forall_mem_cons, and_assoc]

/-- Every row was inserted by some event of the run. -/
theorem row_origin (events : List Event) {row : AuthSessionRecord}
    (hrow : row ∈ (run (step sha256Bytes env) start events).rows) :
    ∃ before event after, events = before ++ event :: after ∧
      inserted sha256Bytes (run (step sha256Bytes env) start before).rows event =
        some row.asIssued := by
  induction events using List.reverseRecOn generalizing row with
  | nil => exact absurd hrow List.not_mem_nil
  | append_singleton events event ih =>
    rw [run_append] at hrow
    rcases mem_rows_step_iff.mp hrow with ⟨earlier, hearlier, rfl⟩ | hinserted
    · obtain ⟨before, creation, after, rfl, hcreated⟩ := ih hearlier
      exact ⟨before, creation, after ++ [event], by simp, by rwa [asIssued_updated]⟩
    · have hissued := (asksFor_spec (inserted_eq_some_iff.mp hinserted).1).1
      exact ⟨events, event, [], rfl, by rwa [hissued]⟩

theorem keyed_run (events : List Event) : Keyed (run (step sha256Bytes env) start events).rows := by
  have hstep : ∀ (state : State) (event : Event), Keyed state.rows →
      Keyed (step sha256Bytes env state event).rows := fun state event h => keyed_step state event h
  exact run_keeps (step sha256Bytes env) hstep start events ⟨List.nodup_nil, List.nodup_nil⟩

theorem authenticateSessionToken_eq_some_iff {rows : List AuthSessionRecord} (hrows : Keyed rows)
    {token : Units} {now : ℤ} {session : AuthSessionRecord} :
    authenticateSessionToken sha256Bytes rows (some token) now = some (.session session) ↔
      token ≠ [] ∧ session ∈ rows ∧ session.tokenHash = hashToken sha256Bytes token ∧
        session.revokedAt = none ∧ now < session.expiresAt := by
  have hlookup : KeyedTable.lookup AuthSessionRecord.tokenHash rows (hashToken sha256Bytes token) =
      some session ↔ session ∈ rows ∧ session.tokenHash = hashToken sha256Bytes token :=
    KeyedTable.lookup_eq_some_iff AuthSessionRecord.tokenHash hrows.2
  by_cases hempty : token = []
  · rw [authenticateSessionToken, if_pos hempty]
    exact iff_of_false nofun fun h => h.1 hempty
  · rw [authenticateSessionToken, if_neg hempty, and_iff_right hempty, ← and_assoc, ← hlookup,
      getAuthSessionByTokenHash]
    rcases KeyedTable.lookup AuthSessionRecord.tokenHash rows (hashToken sha256Bytes token) with
      _ | found
    · simp
    · simp only [Option.some.injEq]
      constructor
      · intro h
        split_ifs at h with hdead
        obtain rfl := AuthIdentity.session.inj (Option.some.inj h)
        obtain ⟨hlive, hyoung⟩ := not_or.mp hdead
        exact ⟨rfl, by simpa using hlive, not_le.mp hyoung⟩
      · intro h
        obtain ⟨rfl, hlive, hyoung⟩ := h
        exact if_neg (not_or.mpr ⟨by simp [hlive], not_le.mpr hyoung⟩)

/-- A token is accepted exactly while a session issued for it, or for another token of the
same digest, is younger than seven days and nobody has logged it out. -/
theorem session_accepted_iff (events : List Event) (token : Units) (now : ℤ)
    (issued : AuthSessionRecord) :
    (∃ session, authenticateSessionToken sha256Bytes (run (step sha256Bytes env) start events).rows
        (some token) now = some (.session session) ∧ session.asIssued = issued) ↔
      token ≠ [] ∧ ∃ before event after, events = before ++ event :: after ∧
        inserted sha256Bytes (run (step sha256Bytes env) start before).rows event = some issued ∧
        issued.tokenHash = hashToken sha256Bytes token ∧
        now < issued.createdAt + SESSION_TTL_SECONDS * 1000 ∧
        ∀ later ∈ after, later.revokes ≠ some issued.id := by
  have hkeyed : Keyed (run (step sha256Bytes env) start events).rows := keyed_run events
  -- A session inserted in the run has its row, which no other row can be taken for.
  have hrow : ∀ {before event after}, events = before ++ event :: after →
      inserted sha256Bytes (run (step sha256Bytes env) start before).rows event = some issued →
      ∃ row ∈ (run (step sha256Bytes env) start events).rows, row.asIssued = issued ∧
        (row.revokedAt = none ↔ ∀ later ∈ after, later.revokes ≠ some issued.id) := by
    intro before event after hevents hinserted
    have hissued := (asksFor_spec (inserted_eq_some_iff.mp hinserted).1).1
    have hmem : issued ∈ (step sha256Bytes env (run (step sha256Bytes env) start before)
        event).rows := mem_rows_step_iff.mpr (Or.inr hinserted)
    obtain ⟨row, hrow, hsame, hrevoked⟩ := row_later after _ hmem
    have hlive : issued.revokedAt = none := by rw [← hissued]; rfl
    rw [and_iff_right hlive] at hrevoked
    refine ⟨row, ?_, hsame.trans hissued, hrevoked⟩
    rw [hevents, run_append]
    exact hrow
  constructor
  · intro h
    obtain ⟨session, hsession, rfl⟩ := h
    obtain ⟨hne, hmem, hhash, hlive, hyoung⟩ :=
      (authenticateSessionToken_eq_some_iff hkeyed).mp hsession
    obtain ⟨before, event, after, hevents, hinserted⟩ := row_origin events hmem
    obtain ⟨row, hrow, hsame, hrevoked⟩ := hrow hevents hinserted
    have hexpires := (asksFor_spec (inserted_eq_some_iff.mp hinserted).1).2
    have heq : row = session := List.inj_on_of_nodup_map hkeyed.1 hrow hmem (id_of_asIssued hsame)
    refine ⟨hne, before, event, after, hevents, hinserted, hhash, ?_, hrevoked.mp (heq ▸ hlive)⟩
    rw [← hexpires]
    exact hyoung
  · intro h
    obtain ⟨hne, before, event, after, hevents, hinserted, hhash, hyoung, hlive⟩ := h
    obtain ⟨row, hrow, hsame, hrevoked⟩ := hrow hevents hinserted
    have hexpires := (asksFor_spec (inserted_eq_some_iff.mp hinserted).1).2
    refine ⟨row, (authenticateSessionToken_eq_some_iff hkeyed).mpr
      ⟨hne, hrow, ?_, hrevoked.mpr hlive, ?_⟩, hsame⟩
    · rw [← hhash, ← hsame]
      rfl
    · rw [← hexpires, ← hsame] at hyoung
      exact hyoung

/-! ## Sessions of the browser extension -/

def isExtensionSession (session : AuthSessionRecord) : Bool :=
  isExtensionScopedSession (.session session) ||
    isExtensionContributorScopedSession (.session session)

/-- GitHub grants none of the scopes of the extension. -/
def PlainSignIn : Event → Prop
  | .signIn _ _ _ scopes _ => EXTENSION_PULL_CONTEXT_SCOPE ∉ scopes ∧
      EXTENSION_CONTRIBUTOR_CONTEXT_SCOPE ∉ scopes
  | _ => True

/-- A step of a request that may take place, and no sign-in with a scope of the extension. -/
def Proper (state : State) (event : Event) : Prop := Admits state event ∧ PlainSignIn event

/-- A session of the extension has one scope, and one parent that is no such session. -/
def HasParent (rows : List AuthSessionRecord) (session : AuthSessionRecord) : Prop :=
  (session.scopes = [EXTENSION_PULL_CONTEXT_SCOPE] ∨
      session.scopes = [EXTENSION_CONTRIBUTOR_CONTEXT_SCOPE]) ∧
    ∃ parent ∈ rows, session.parentSessionId = some parent.id ∧ session.login = parent.login ∧
      isExtensionSession parent = false

/-- Identities that were read have their rows still. -/
def Lawful (state : State) : Prop :=
  (∀ row ∈ state.rows, isExtensionSession row = true → HasParent state.rows row) ∧
    ∀ session, .session session ∈ state.identities →
      ∃ row ∈ state.rows, row.asIssued = session.asIssued

theorem isExtensionSession_of_asIssued {row row' : AuthSessionRecord}
    (h : row.asIssued = row'.asIssued) : isExtensionSession row = isExtensionSession row' := by
  have hscopes : row.asIssued.scopes = row'.asIssued.scopes := congrArg (·.scopes) h
  change row.scopes = row'.scopes at hscopes
  rw [isExtensionSession, isExtensionSession, isExtensionScopedSession, isExtensionScopedSession,
    isExtensionContributorScopedSession, isExtensionContributorScopedSession, hscopes]

theorem hasParent_of_asIssued {rows rows' : List AuthSessionRecord} {row row' : AuthSessionRecord}
    (h : row.asIssued = row'.asIssued)
    (hrows : ∀ stored ∈ rows, ∃ later ∈ rows', later.asIssued = stored.asIssued)
    (hparent : HasParent rows row) : HasParent rows' row' := by
  obtain ⟨hscopes, parent, hmem, hid, hlogin, hplain⟩ := hparent
  obtain ⟨later, hlater, hsame⟩ := hrows parent hmem
  have hlogins : later.login = parent.login :=
    have heq : later.asIssued.login = parent.asIssued.login := congrArg (·.login) hsame
    heq
  have hrow : row.scopes = row'.scopes ∧ row.login = row'.login ∧
      row.parentSessionId = row'.parentSessionId :=
    have hs : row.asIssued.scopes = row'.asIssued.scopes := congrArg (·.scopes) h
    have hl : row.asIssued.login = row'.asIssued.login := congrArg (·.login) h
    have hp : row.asIssued.parentSessionId = row'.asIssued.parentSessionId :=
      congrArg (·.parentSessionId) h
    ⟨hs, hl, hp⟩
  obtain ⟨hs, hl, hp⟩ := hrow
  refine ⟨hs ▸ hscopes, later, hlater, ?_, ?_, ?_⟩
  · rw [← hp, hid, id_of_asIssued hsame]
  · rw [← hl, hlogin, hlogins]
  · rw [isExtensionSession_of_asIssued hsame]
    exact hplain

/-- A session that the table takes is a plain one, or one that a plain session asked for. -/
theorem asksFor_hasParent {state : State} {event : Event} {session : AuthSessionRecord}
    (hlawful : Lawful state) (hadmits : Admits state event) (hplain : PlainSignIn event)
    (h : event.asksFor sha256Bytes = some session) (hext : isExtensionSession session = true) :
    HasParent state.rows session := by
  cases event with
  | signIn id token user scopes now =>
    obtain rfl := Option.some.inj h
    obtain ⟨hpull, hcontributor⟩ := hplain
    refine absurd hext ?_
    simp [isExtensionSession, isExtensionScopedSession, isExtensionContributorScopedSession,
      createSessionForGitHubUser, hpull, hcontributor]
  | extensionSession identity isMaintainer id token now =>
    rcases identity with _ | _ | parent
    · cases h
    · cases h
    · obtain ⟨row, hrow, hsame⟩ := hlawful.2 parent (hadmits _ rfl)
      have hlogin : row.login = parent.login :=
        have heq : row.asIssued.login = parent.asIssued.login := congrArg (·.login) hsame
        heq
      simp only [Event.asksFor] at h
      split_ifs at h with hparent hmaintainer
      · obtain rfl := Option.some.inj h
        exact ⟨Or.inl rfl, row, hrow, congrArg some (id_of_asIssued hsame).symm, hlogin.symm,
          (isExtensionSession_of_asIssued hsame).trans (Bool.eq_false_iff.mpr hparent)⟩
      · obtain rfl := Option.some.inj h
        exact ⟨Or.inr rfl, row, hrow, congrArg some (id_of_asIssued hsame).symm, hlogin.symm,
          (isExtensionSession_of_asIssued hsame).trans (Bool.eq_false_iff.mpr hparent)⟩
  | authenticate => cases h
  | touch => cases h
  | revokeSession => cases h

theorem mem_of_authenticateSessionToken {rows : List AuthSessionRecord} {token : Option Units}
    {now : ℤ} {session : AuthSessionRecord}
    (h : authenticateSessionToken sha256Bytes rows token now = some (.session session)) :
    session ∈ rows := by
  rcases token with _ | token
  · cases h
  · rw [authenticateSessionToken] at h
    split_ifs at h
    split at h
    · cases h
    · next found hfound =>
      split_ifs at h
      obtain rfl := AuthIdentity.session.inj (Option.some.inj h)
      exact List.mem_of_find?_eq_some hfound

theorem mem_of_authenticateRequestIdentity {rows : List AuthSessionRecord}
    {bearer cookie : Option Units} {now : ℤ} {session : AuthSessionRecord}
    (h : authenticateRequestIdentity sha256Bytes env rows bearer cookie now =
      some (.session session)) : session ∈ rows := by
  rw [authenticateRequestIdentity] at h
  split at h
  · next identity hbearer =>
    obtain rfl := Option.some.inj h
    rw [authenticatePrivateToken] at hbearer
    split_ifs at hbearer
    · cases hbearer
    · cases hbearer
    · exact mem_of_authenticateSessionToken hbearer
  · exact mem_of_authenticateSessionToken h

theorem lawful_step {state : State} {event : Event} (hlawful : Lawful state)
    (hproper : Proper state event) : Lawful (step sha256Bytes env state event) := by
  obtain ⟨hadmits, hplain⟩ := hproper
  have hkept : ∀ stored ∈ state.rows, ∃ later ∈ (step sha256Bytes env state event).rows,
      later.asIssued = stored.asIssued := fun stored hstored =>
    ⟨event.updated stored, mem_rows_step_iff.mpr (Or.inl ⟨stored, hstored, rfl⟩),
      asIssued_updated event stored⟩
  constructor
  · intro row hrow hext
    rcases mem_rows_step_iff.mp hrow with ⟨earlier, hearlier, rfl⟩ | hinserted
    · have hsame := asIssued_updated event earlier
      rw [isExtensionSession_of_asIssued hsame] at hext
      exact hasParent_of_asIssued hsame.symm hkept (hlawful.1 earlier hearlier hext)
    · have hasks := (inserted_eq_some_iff.mp hinserted).1
      exact hasParent_of_asIssued rfl hkept (asksFor_hasParent hlawful hadmits hplain hasks hext)
  · intro session hsession
    -- An identity was read before, or is read by this event from a row there is.
    have hrow : ∃ row ∈ state.rows, row.asIssued = session.asIssued := by
      cases event with
      | authenticate bearer cookie now =>
        simp only [step] at hsession
        split at hsession
        · exact hlawful.2 session hsession
        · next identity hidentity =>
          rcases List.mem_cons.mp hsession with rfl | hearlier
          · exact ⟨session, mem_of_authenticateRequestIdentity hidentity, rfl⟩
          · exact hlawful.2 session hearlier
      | signIn => exact hlawful.2 session hsession
      | touch => exact hlawful.2 session hsession
      | revokeSession identity now =>
        rcases identity with _ | _ | other
        · exact hlawful.2 session hsession
        · exact hlawful.2 session hsession
        · exact hlawful.2 session hsession
      | extensionSession identity isMaintainer id token now =>
        refine hlawful.2 session ?_
        simp only [step] at hsession
        split at hsession
        · exact hsession
        · exact hsession
    obtain ⟨row, hmem, hsame⟩ := hrow
    obtain ⟨later, hlater, hlaterSame⟩ := hkept row hmem
    exact ⟨later, hlater, hlaterSame.trans hsame⟩

theorem scope_of_next {rows : List AuthSessionRecord} {bearer cookie : Option Units}
    {path : Units} {now : ℤ} {session : AuthSessionRecord}
    (hidentity : authenticateRequestIdentity sha256Bytes env rows bearer cookie now =
      some (.session session)) (hrequires : requiresApiToken path = true)
    (hnext : middleware sha256Bytes env rows bearer cookie path now = .next) :
    (session.scopes = [EXTENSION_PULL_CONTEXT_SCOPE] → path = EXTENSION_PULL_CONTEXT_PATH) ∧
      (session.scopes = [EXTENSION_CONTRIBUTOR_CONTEXT_SCOPE] →
        isExtensionContributorContextPath path = true) := by
  rw [middleware, hrequires, hidentity] at hnext
  simp only [Bool.not_true, Bool.false_eq_true, if_false] at hnext
  split_ifs at hnext with _ hpull hcontributor
  constructor
  · intro hscopes
    by_contra hpath
    exact hpull (by simp [isExtensionScopedSession, hscopes, hpath])
  · intro hscopes
    by_contra hpath
    exact hcontributor (by simp [isExtensionContributorScopedSession, hscopes, hpath])

/-- In every run, a request that comes with a session of the browser extension passes the
middleware, of the paths that need a token, to that session's own only, can ask for no further
session, and acts for the login whose plain session asked for it. -/
theorem extension_confined (events : List Event)
    (hguarded : Guarded (step sha256Bytes env) Proper start events)
    {bearer cookie : Option Units} {now : ℤ} {session : AuthSessionRecord}
    (hidentity : authenticateRequestIdentity sha256Bytes env
      (run (step sha256Bytes env) start events).rows bearer cookie now = some (.session session))
    (hext : isExtensionSession session = true) :
    HasParent (run (step sha256Bytes env) start events).rows session ∧
      (∀ isMaintainer id token later, (Event.extensionSession (some (.session session))
        isMaintainer id token later).asksFor sha256Bytes = none) ∧
      ∀ path, requiresApiToken path = true →
        middleware sha256Bytes env (run (step sha256Bytes env) start events).rows bearer cookie
          path now = .next →
        (session.scopes = [EXTENSION_PULL_CONTEXT_SCOPE] ∧ path = EXTENSION_PULL_CONTEXT_PATH) ∨
          (session.scopes = [EXTENSION_CONTRIBUTOR_CONTEXT_SCOPE] ∧
            isExtensionContributorContextPath path = true) := by
  have hlawful : Lawful (run (step sha256Bytes env) start events) :=
    run_invariant (step sha256Bytes env) Proper (fun _ _ h hproper => lawful_step h hproper)
      start events ⟨fun _ h => absurd h List.not_mem_nil, fun _ h => absurd h List.not_mem_nil⟩
      hguarded
  have hparent := hlawful.1 session (mem_of_authenticateRequestIdentity hidentity) hext
  refine ⟨hparent, fun _ _ _ _ => if_pos hext, fun path hrequires hnext => ?_⟩
  obtain ⟨hpull, hcontributor⟩ := scope_of_next hidentity hrequires hnext
  exact hparent.1.imp (fun h => ⟨h, hpull h⟩) (fun h => ⟨h, hcontributor h⟩)

end Tokens

/-! ## A session and its extension's -/

/-- The digests of `a` and of the texts that are not `a`, here `b`. -/
def digests (text : Units) : List UInt8 :=
  if text = units "a" then
    [202, 151, 129, 18, 202, 27, 189, 202, 250, 194, 49, 179, 154, 35, 220, 77, 167, 134,
     239, 248, 20, 124, 78, 114, 185, 128, 119, 133, 175, 238, 72, 187]
  else
    [62, 35, 232, 22, 0, 57, 89, 74, 51, 137, 79, 101, 100, 225, 177, 52, 139, 189, 122,
     0, 136, 212, 44, 74, 203, 115, 238, 174, 213, 156, 0, 157]

def noTokens : Env := ⟨none, none, none, none⟩

def browserSession : AuthSessionRecord :=
  createSessionForGitHubUser digests "s1" (units "a") ⟨units "ada", some 1⟩ ["read:user"] none 0

def signInAndMint : List Event := [
  .signIn "s1" (units "a") ⟨units "ada", some 1⟩ ["read:user"] 0,
  .authenticate none (some (units "a")) 5,
  .extensionSession (some (.session browserSession)) false "s2" (units "b") 7]

theorem contributor_confined :
    HasParent (run (step digests noTokens) start signInAndMint).rows
      (createSessionForGitHubUser digests "s2" (units "b") ⟨units "ada", some 1⟩
        [EXTENSION_CONTRIBUTOR_CONTEXT_SCOPE] (some "s1") 7) :=
  (@extension_confined digests noTokens signInAndMint
    (by
      refine ⟨⟨trivial, by decide, by decide⟩, ⟨trivial, trivial⟩, ⟨?_, trivial⟩, trivial⟩
      intro read hread
      obtain rfl := Option.some.inj hread
      decide)
    (some (units "b")) none 9 _ (by decide) (by decide)).1

end Gittensory.AuthSessions
