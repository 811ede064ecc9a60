import Gittensory.AuthSessions
import Gittensory.LastSetting
import Gittensory.PullRequestDelivery
import Gittensory.RegistrySync

/-!
Who may see and who may change a repository (`services/control-panel-roles.ts`, the gates of
`api/routes.ts`). A gate reads who is asking and the tables several times, and webhooks and
registry snapshots write to the tables between any two reads. Write access rests on an
installation that the row of the repository names, and GitHub is asked under that one.
-/
namespace Gittensory.RepoAccess

open AuthSessions (StaticActor isAuthorizedGitHubSessionLogin)
open CodeUnits GuardedRun PullRequestDelivery RegistrySync

/-- Times in milliseconds. -/
structure InstallationRecord where
  id : ℤ
  accountLogin : String
  suspendedAt : Option ℤ := none
  updatedAt : ℤ

structure Tables where
  installations : List InstallationRecord
  repositories : List Row
  pullRequests : List PullRequestRow

def listInstallations (tables : Tables) : List InstallationRecord :=
  (tables.installations.mergeSort fun left right => right.updatedAt ≤ left.updatedAt).take 100

def listAllPullRequests (tables : Tables) : List PullRequestRow := tables.pullRequests.take 2000

/-- `ORDER BY is_registered DESC, full_name` -/
def listRepositories (tables : Tables) : List Row :=
  tables.repositories.mergeSort fun left right =>
    if left.registry.isRegistered = right.registry.isRegistered then left.fullName ≤ right.fullName
    else left.registry.isRegistered

inductive Identity where
  | static (actor : StaticActor)
  | session (login : String)
  deriving DecidableEq

inductive ControlPanelRoleName where
  | miner
  | maintainer
  | owner
  | operator
  deriving DecidableEq

/-- The refusals, with the status 401 of the first and 403 of the others. -/
inductive Response where
  | unauthorized
  | insufficientRole
  | forbiddenRepo
  | insufficientRepoPermission
  deriving DecidableEq

structure RoleSummaryInputs where
  login : String
  confirmedMiner : Bool
  operator : Bool
  repositories : List Row
  installations : List InstallationRecord
  pullRequests : List PullRequestRow

structure ControlPanelAccessScope where
  operator : Bool
  repositoryFullNames : List String
  installationIds : List ℤ
  accountLogins : List String

def isMaintainerAssociation (value : Option String) : Bool :=
  value = some "OWNER" || value = some "MEMBER" || value = some "COLLABORATOR"

def REPO_WRITE_PERMISSIONS : List String := ["admin", "maintain", "write"]

section Scope

-- `sqlLower` is SQLite's `lower`; a result holds for every function in the place of each.
variable (toLowerCase sqlLower : String → String) (localeLe : String → String → Bool)

def getRepository (rows : List Row) (fullName : String) : Option Row :=
  (KeyedTable.lookup Row.fullName rows fullName).or
    (rows.find? fun row => sqlLower row.fullName = toLowerCase fullName)

def sameLogin (value : Option String) (login : String) : Bool :=
  value.map toLowerCase = some (toLowerCase login)

def sameRepo (left right : String) : Bool :=
  left ≠ "" && right ≠ "" && toLowerCase left = toLowerCase right

def uniqueRepoNames (values : List String) : List String :=
  (values.filter fun value => value ≠ "").eraseDups.mergeSort localeLe

def uniqueLogins (values : List String) : List String :=
  (values.filter fun value => value ≠ "").eraseDups.mergeSort localeLe

def installedRepos (args : RoleSummaryInputs) : List Row :=
  args.repositories.filter fun repo => repo.github.isInstalled

def accountInstallations (args : RoleSummaryInputs) : List InstallationRecord :=
  args.installations.filter fun installation =>
    installation.suspendedAt.isNone &&
      sameLogin toLowerCase (some installation.accountLogin) args.login

def suspendedAccountInstallationIds (args : RoleSummaryInputs) : List ℤ :=
  (args.installations.filter fun installation =>
    installation.suspendedAt.isSome &&
      sameLogin toLowerCase (some installation.accountLogin) args.login).map InstallationRecord.id

/-- `id !== undefined && id !== null && ids.has(id)` -/
def among (ids : List ℤ) (id : Option ℤ) : Bool := id.any ids.contains

def ownedInstalledRepos (args : RoleSummaryInputs) : List Row :=
  (installedRepos args).filter fun repo =>
    !among (suspendedAccountInstallationIds toLowerCase args) repo.github.installationId &&
      (sameLogin toLowerCase (some repo.github.owner) args.login ||
        among ((accountInstallations toLowerCase args).map InstallationRecord.id)
          repo.github.installationId)

def maintainerRepos (args : RoleSummaryInputs) : List String :=
  uniqueRepoNames localeLe
    (((args.pullRequests.filter fun pull =>
        sameLogin toLowerCase pull.authorLogin args.login &&
          isMaintainerAssociation pull.authorAssociation).map PullRequestRow.repoFullName).filter
      fun repoFullName =>
        (installedRepos args).any fun repo => sameRepo toLowerCase repo.fullName repoFullName)

def buildControlPanelAccessScope (args : RoleSummaryInputs) : ControlPanelAccessScope :=
  let scopedRepoNames := uniqueRepoNames localeLe
    ((ownedInstalledRepos toLowerCase args).map Row.fullName ++
      maintainerRepos toLowerCase localeLe args)
  { operator := args.operator
    repositoryFullNames := scopedRepoNames
    installationIds :=
      ((accountInstallations toLowerCase args).map InstallationRecord.id ++
        ((installedRepos args).filter fun repo =>
          scopedRepoNames.any fun name => sameRepo toLowerCase repo.fullName name).filterMap
            fun repo => repo.github.installationId).eraseDups
    accountLogins := uniqueLogins localeLe
      ((accountInstallations toLowerCase args).map InstallationRecord.accountLogin) }

/-- The roles of the summary. -/
def buildControlPanelRoles (args : RoleSummaryInputs) : List ControlPanelRoleName :=
  let owned := ownedInstalledRepos toLowerCase args
  let maintained := maintainerRepos toLowerCase localeLe args
  let accounts := accountInstallations toLowerCase args
  (if args.confirmedMiner then [.miner] else []) ++
    (if maintained ≠ [] ∨ 0 < owned.length then [.maintainer] else []) ++
    (if 0 < owned.length ∨ 0 < accounts.length then [.owner] else []) ++
    (if args.operator then [.operator] else [])

end Scope

/-! ## Gates -/

section Gates

-- Beyond the texts: the logins of operators, whether a login is a confirmed miner, and what
-- GitHub says under an installation of a login's permission on a repository, or that it
-- refuses or fails.
variable (toLowerCase sqlLower : String → String) (localeLe : String → String → Bool)
  (env : AuthSessions.Env) (confirmedMiner : String → Bool)
  (collaboratorPermission : ℤ → String → String → String → Option String)

def roleSummaryInputs (tables : Tables) (login : String) (miner : Bool) : RoleSummaryInputs where
  login := login
  confirmedMiner := miner
  operator := isAuthorizedGitHubSessionLogin env (units login)
  repositories := listRepositories tables
  installations := listInstallations tables
  pullRequests := listAllPullRequests tables

def loadControlPanelAccessScope (tables : Tables) (login : String) : ControlPanelAccessScope :=
  buildControlPanelAccessScope toLowerCase localeLe (roleSummaryInputs env tables login false)

def loadControlPanelRoles (tables : Tables) (login : String) : List ControlPanelRoleName :=
  buildControlPanelRoles toLowerCase localeLe
    (roleSummaryInputs env tables login (confirmedMiner login))

/-- `null` where the request may go on. -/
def requireAppRole (identity : Option Identity) (tables : Tables)
    (allowedRoles : List ControlPanelRoleName) : Option Response :=
  match identity with
  | none => some .unauthorized
  | some (.static _) => none
  | some (.session login) =>
      if (loadControlPanelRoles toLowerCase localeLe env confirmedMiner tables login).any
          allowedRoles.contains then none
      else some .insufficientRole

/-- The scope and the row reach the repository of that name. -/
def scopeReaches (scope : ControlPanelAccessScope) (repo : Option Row) (fullName : String) : Bool :=
  (scope.repositoryFullNames.any fun name => toLowerCase name = toLowerCase fullName) ||
    repo.any fun repo =>
      scope.accountLogins.any fun accountLogin =>
        toLowerCase accountLogin = toLowerCase repo.github.owner

def canLoginAccessRepo (scopeTables repoTables : Tables) (login fullName : String) : Bool :=
  let scope := loadControlPanelAccessScope toLowerCase localeLe env scopeTables login
  if scope.operator then true
  else scopeReaches toLowerCase scope
    (getRepository toLowerCase sqlLower repoTables.repositories fullName) fullName

def canWatchRepo (scopeTables repoTables watchTables : Tables) (login fullName : String) : Bool :=
  match getRepository toLowerCase sqlLower watchTables.repositories fullName with
  | none => false
  | some repo =>
      if !repo.github.isPrivate then true
      else
        canLoginAccessRepo toLowerCase sqlLower localeLe env scopeTables repoTables login fullName

def requireSessionRepoAccess (summaryTables scopeTables : Tables) (login repoFullName : String)
    (repo : Option Row) : Option Response :=
  if (loadControlPanelRoles toLowerCase localeLe env confirmedMiner summaryTables login).contains
      .operator then none
  else
    let scope := loadControlPanelAccessScope toLowerCase localeLe env scopeTables login
    if scopeReaches toLowerCase scope repo repoFullName then none else some .forbiddenRepo

/-- The n-th reads of the one who asks and of the tables; the identity may be gone at the second
read. -/
def requireRepoMaintainer (identities : ℕ → Option Identity) (loads : ℕ → Tables)
    (fullName : String) : Except Response (Option Identity) :=
  match requireAppRole toLowerCase localeLe env confirmedMiner (identities 0) (loads 0)
      [.maintainer, .owner, .operator] with
  | some forbidden => .error forbidden
  | none =>
      match identities 1 with
      | some (.session login) =>
          match requireSessionRepoAccess toLowerCase localeLe env confirmedMiner (loads 2) (loads 3)
              login fullName
              (getRepository toLowerCase sqlLower (loads 1).repositories fullName) with
          | some repoForbidden => .error repoForbidden
          | none => .ok (identities 1)
      | identity => .ok identity

def getRepositoryCollaboratorPermission (installationId : ℤ) (repoFullName login : String) :
    Option String :=
  match repoFullName.toList.splitOn '/' with
  | owner :: name :: _ =>
      if owner = [] ∨ name = [] ∨ login = "" then none
      else collaboratorPermission installationId (String.ofList owner) (String.ofList name) login
  | _ => none

def requireRepoWriteAccess (identities : ℕ → Option Identity) (loads : ℕ → Tables)
    (fullName : String) : Except Response (Option Identity) :=
  match requireRepoMaintainer toLowerCase sqlLower localeLe env confirmedMiner identities loads
      fullName with
  | .error response => .error response
  | .ok (some (.session login)) =>
      if (loadControlPanelRoles toLowerCase localeLe env confirmedMiner (loads 4) login).contains
          .operator then .ok (some (.session login))
      else
        let installationId := (getRepository toLowerCase sqlLower (loads 5).repositories
          fullName).bind fun repo => repo.github.installationId
        let permission := installationId.bind fun installationId =>
          getRepositoryCollaboratorPermission collaboratorPermission installationId fullName login
        if permission.all fun permission =>
            permission = "" || !REPO_WRITE_PERMISSIONS.contains permission then
          .error .insufficientRepoPermission
        else .ok (some (.session login))
  | .ok identity => .ok identity

end Gates

/-! ## Grounds -/

section Grounds

variable (toLowerCase : String → String) (tables : Tables) (login : String)

/-- An installation on the account of that login that is not suspended. -/
def Active (installation : InstallationRecord) : Prop :=
  installation ∈ listInstallations tables ∧ installation.suspendedAt = none ∧
    toLowerCase installation.accountLogin = toLowerCase login

/-- An installed repository that the login owns or that an active installation of the login
covers, and no suspended one. -/
def Owns (repo : Row) : Prop :=
  repo ∈ tables.repositories ∧ repo.github.isInstalled = true ∧
    (∀ installation ∈ listInstallations tables, installation.suspendedAt.isSome →
      toLowerCase installation.accountLogin = toLowerCase login →
      repo.github.installationId ≠ some installation.id) ∧
    (toLowerCase repo.github.owner = toLowerCase login ∨
      ∃ installation, Active toLowerCase tables login installation ∧
        repo.github.installationId = some installation.id)

/-- A pull request of the login, as an owner, a member or a collaborator, where the
installed repositories have one of that name. -/
def Maintains (repoFullName : String) : Prop :=
  repoFullName ≠ "" ∧
    (∃ pull ∈ listAllPullRequests tables, pull.repoFullName = repoFullName ∧
      pull.authorLogin.map toLowerCase = some (toLowerCase login) ∧
      isMaintainerAssociation pull.authorAssociation = true) ∧
    ∃ repo ∈ tables.repositories, repo.github.isInstalled = true ∧ repo.fullName ≠ "" ∧
      toLowerCase repo.fullName = toLowerCase repoFullName

/-- The grounds for access to a repository; `repo` is its row. The last of them asks neither
that the repository is installed nor that no suspended installation covers it. -/
def Reaches (repo : Option Row) (fullName : String) : Prop :=
  (∃ row, Owns toLowerCase tables login row ∧ row.fullName ≠ "" ∧
    toLowerCase row.fullName = toLowerCase fullName) ∨
  (∃ name, Maintains toLowerCase tables login name ∧ toLowerCase name = toLowerCase fullName) ∨
  ∃ row installation, repo = some row ∧ Active toLowerCase tables login installation ∧
    installation.accountLogin ≠ "" ∧
    toLowerCase installation.accountLogin = toLowerCase row.github.owner

variable {toLowerCase tables login} {localeLe : String → String → Bool} {env : AuthSessions.Env}
  {miner : Bool}

theorem mem_listRepositories {row : Row} :
    row ∈ listRepositories tables ↔ row ∈ tables.repositories := List.mem_mergeSort

theorem mem_uniqueRepoNames {values : List String} {value : String} :
    value ∈ uniqueRepoNames localeLe values ↔ value ∈ values ∧ value ≠ "" := by
  rw [uniqueRepoNames, List.mem_mergeSort, List.mem_eraseDups, List.mem_filter, decide_eq_true_eq]

theorem mem_uniqueLogins {values : List String} {value : String} :
    value ∈ uniqueLogins localeLe values ↔ value ∈ values ∧ value ≠ "" := mem_uniqueRepoNames

theorem sameLogin_iff (value : Option String) :
    sameLogin toLowerCase value login = true ↔
      value.map toLowerCase = some (toLowerCase login) := decide_eq_true_iff

theorem sameLogin_some (value : String) :
    sameLogin toLowerCase (some value) login = true ↔ toLowerCase value = toLowerCase login := by
  simp [sameLogin]

theorem sameRepo_iff (left right : String) :
    sameRepo toLowerCase left right = true ↔
      left ≠ "" ∧ right ≠ "" ∧ toLowerCase left = toLowerCase right := by
  simp [sameRepo, and_assoc]

theorem mem_accountInstallations {installation : InstallationRecord} :
    installation ∈ accountInstallations toLowerCase (roleSummaryInputs env tables login miner) ↔
      Active toLowerCase tables login installation := by
  rw [accountInstallations, List.mem_filter, Bool.and_eq_true, sameLogin_some,
    Option.isNone_iff_eq_none]
  rfl

theorem among_iff {ids : List ℤ} {id : Option ℤ} :
    among ids id = true ↔ ∃ value ∈ ids, id = some value := by
  cases id <;> simp [among]

theorem mem_ownedInstalledRepos {row : Row} :
    row ∈ ownedInstalledRepos toLowerCase (roleSummaryInputs env tables login miner) ↔
      Owns toLowerCase tables login row := by
  have hsuspended : among (suspendedAccountInstallationIds toLowerCase
        (roleSummaryInputs env tables login miner)) row.github.installationId = true ↔
      ∃ installation ∈ listInstallations tables, installation.suspendedAt.isSome = true ∧
        toLowerCase installation.accountLogin = toLowerCase login ∧
        row.github.installationId = some installation.id := by
    rw [among_iff, suspendedAccountInstallationIds]
    simp only [List.mem_map, List.mem_filter, Bool.and_eq_true, sameLogin_some]
    constructor
    · rintro ⟨_, ⟨installation, ⟨hmem, hsuspended, hlogin⟩, rfl⟩, hid⟩
      exact ⟨installation, hmem, hsuspended, hlogin, hid⟩
    · rintro ⟨installation, hmem, hsuspended, hlogin, hid⟩
      exact ⟨_, ⟨installation, ⟨hmem, hsuspended, hlogin⟩, rfl⟩, hid⟩
  have hactive : among ((accountInstallations toLowerCase
        (roleSummaryInputs env tables login miner)).map InstallationRecord.id)
        row.github.installationId = true ↔
      ∃ installation, Active toLowerCase tables login installation ∧
        row.github.installationId = some installation.id := by
    rw [among_iff]
    simp only [List.mem_map, mem_accountInstallations]
    constructor
    · rintro ⟨_, ⟨installation, hactive, rfl⟩, hid⟩
      exact ⟨installation, hactive, hid⟩
    · rintro ⟨installation, hactive, hid⟩
      exact ⟨_, ⟨installation, hactive, rfl⟩, hid⟩
  rw [ownedInstalledRepos, List.mem_filter, installedRepos, List.mem_filter, Bool.and_eq_true,
    Bool.or_eq_true, hactive, Bool.not_eq_true', ← Bool.not_eq_true, hsuspended]
  simp only [sameLogin_some, roleSummaryInputs, mem_listRepositories, not_exists, not_and, Owns,
    and_assoc, ne_eq]

theorem mem_maintainerRepos {repoFullName : String} :
    repoFullName ∈ maintainerRepos toLowerCase localeLe (roleSummaryInputs env tables login miner) ↔
      Maintains toLowerCase tables login repoFullName := by
  rw [maintainerRepos, mem_uniqueRepoNames, and_comm, List.mem_filter, List.any_eq_true, Maintains]
  simp only [List.mem_map, List.mem_filter, Bool.and_eq_true, sameRepo_iff, installedRepos,
    roleSummaryInputs, mem_listRepositories, sameLogin_iff]
  refine and_congr_right fun hname => and_congr ?_ ?_
  · constructor
    · rintro ⟨pull, ⟨hpull, hlogin, hassociation⟩, hrepo⟩
      exact ⟨pull, hpull, hrepo, hlogin, hassociation⟩
    · rintro ⟨pull, hpull, hrepo, hlogin, hassociation⟩
      exact ⟨pull, ⟨hpull, hlogin, hassociation⟩, hrepo⟩
  · constructor
    · rintro ⟨repo, ⟨hrepo, hinstalled⟩, hne, _, hlower⟩
      exact ⟨repo, hrepo, hinstalled, hne, hlower⟩
    · rintro ⟨repo, hrepo, hinstalled, hne, hlower⟩
      exact ⟨repo, ⟨hrepo, hinstalled⟩, hne, hname, hlower⟩

variable (localeLe env) in
/-- What the scope of a login reaches. -/
theorem scopeReaches_iff (repo : Option Row) (fullName : String) :
    scopeReaches toLowerCase (loadControlPanelAccessScope toLowerCase localeLe env tables login)
        repo fullName = true ↔ Reaches toLowerCase tables login repo fullName := by
  have hnames : (∃ name ∈ (loadControlPanelAccessScope toLowerCase localeLe env tables
        login).repositoryFullNames, toLowerCase name = toLowerCase fullName) ↔
      (∃ row, Owns toLowerCase tables login row ∧ row.fullName ≠ "" ∧
        toLowerCase row.fullName = toLowerCase fullName) ∨
      ∃ name, Maintains toLowerCase tables login name ∧
        toLowerCase name = toLowerCase fullName := by
    simp only [loadControlPanelAccessScope, buildControlPanelAccessScope, mem_uniqueRepoNames,
      List.mem_append, List.mem_map, mem_ownedInstalledRepos, mem_maintainerRepos]
    constructor
    · rintro ⟨name, ⟨⟨row, howns, rfl⟩ | hmaintains, hne⟩, hlower⟩
      · exact Or.inl ⟨row, howns, hne, hlower⟩
      · exact Or.inr ⟨name, hmaintains, hlower⟩
    · rintro (⟨row, howns, hne, hlower⟩ | ⟨name, hmaintains, hlower⟩)
      · exact ⟨_, ⟨Or.inl ⟨row, howns, rfl⟩, hne⟩, hlower⟩
      · exact ⟨name, ⟨Or.inr hmaintains, hmaintains.1⟩, hlower⟩
  have haccounts : ∀ row : Row, (∃ accountLogin ∈ (loadControlPanelAccessScope toLowerCase localeLe
        env tables login).accountLogins,
          toLowerCase accountLogin = toLowerCase row.github.owner) ↔
      ∃ installation, Active toLowerCase tables login installation ∧
        installation.accountLogin ≠ "" ∧
        toLowerCase installation.accountLogin = toLowerCase row.github.owner := by
    intro row
    simp only [loadControlPanelAccessScope, buildControlPanelAccessScope, mem_uniqueLogins,
      List.mem_map, mem_accountInstallations]
    constructor
    · rintro ⟨_, ⟨⟨installation, hactive, rfl⟩, hne⟩, hlower⟩
      exact ⟨installation, hactive, hne, hlower⟩
    · rintro ⟨installation, hactive, hne, hlower⟩
      exact ⟨_, ⟨⟨installation, hactive, rfl⟩, hne⟩, hlower⟩
  rw [scopeReaches, Bool.or_eq_true, List.any_eq_true, Reaches, ← or_assoc, ← hnames]
  simp only [decide_eq_true_eq]
  refine or_congr_right ?_
  cases repo with
  | none => simp
  | some row =>
    simp only [Option.any_some, List.any_eq_true, decide_eq_true_eq, haccounts row]
    simp

/-- What gives a login a role in the app other than a miner's. -/
def HasGround (toLowerCase : String → String) (tables : Tables) (login : String) : Prop :=
  (∃ row, Owns toLowerCase tables login row) ∨ (∃ name, Maintains toLowerCase tables login name) ∨
    ∃ installation, Active toLowerCase tables login installation

/-- Who has access to a repository has a role: the gate on roles refuses no one else. -/
theorem Reaches.hasGround {repo : Option Row} {fullName : String}
    (h : Reaches toLowerCase tables login repo fullName) : HasGround toLowerCase tables login := by
  rcases h with ⟨row, howns, _⟩ | ⟨name, hmaintains, _⟩ | ⟨_, installation, _, hactive, _⟩
  · exact Or.inl ⟨row, howns⟩
  · exact Or.inr (Or.inl ⟨name, hmaintains⟩)
  · exact Or.inr (Or.inr ⟨installation, hactive⟩)

end Grounds

/-! ## What the gates let through -/

section Passing

variable {toLowerCase sqlLower : String → String} {localeLe : String → String → Bool}
  {env : AuthSessions.Env} {confirmedMiner : String → Bool}
  {collaboratorPermission : ℤ → String → String → String → Option String}

theorem mem_given {role given : ControlPanelRoleName} {condition : Prop} [Decidable condition] :
    role ∈ (if condition then [given] else []) ↔ condition ∧ role = given := by
  split_ifs with h <;> simp [h]

theorem mem_roles {role : ControlPanelRoleName} (tables : Tables) (login : String) :
    role ∈ loadControlPanelRoles toLowerCase localeLe env confirmedMiner tables login ↔
      match role with
      | .miner => confirmedMiner login = true
      | .maintainer => (∃ name, Maintains toLowerCase tables login name) ∨
          ∃ row, Owns toLowerCase tables login row
      | .owner => (∃ row, Owns toLowerCase tables login row) ∨
          ∃ installation, Active toLowerCase tables login installation
      | .operator => isAuthorizedGitHubSessionLogin env (units login) = true := by
  have hmaintained := @mem_maintainerRepos toLowerCase tables login localeLe env
    (confirmedMiner login)
  have howned := @mem_ownedInstalledRepos toLowerCase tables login env (confirmedMiner login)
  have hactive := @mem_accountInstallations toLowerCase tables login env (confirmedMiner login)
  rw [loadControlPanelRoles, buildControlPanelRoles]
  simp only [List.mem_append, mem_given, List.length_pos_iff_exists_mem, ne_eq,
    List.eq_nil_iff_forall_not_mem, not_forall, not_not, hmaintained, howned, hactive]
  cases role <;> simp [roleSummaryInputs]

theorem operator_mem_roles (tables : Tables) (login : String) :
    (loadControlPanelRoles toLowerCase localeLe env confirmedMiner tables login).contains
        .operator = isAuthorizedGitHubSessionLogin env (units login) := by
  rw [Bool.eq_iff_iff, List.contains_iff_mem, mem_roles]

theorem requireAppRole_session (tables : Tables) (login : String) :
    requireAppRole toLowerCase localeLe env confirmedMiner (some (.session login)) tables
        [.maintainer, .owner, .operator] = none ↔
      isAuthorizedGitHubSessionLogin env (units login) = true ∨
        HasGround toLowerCase tables login := by
  have hany : (loadControlPanelRoles toLowerCase localeLe env confirmedMiner tables login).any
        [ControlPanelRoleName.maintainer, .owner, .operator].contains = true ↔
      isAuthorizedGitHubSessionLogin env (units login) = true ∨
        HasGround toLowerCase tables login := by
    rw [List.any_eq_true, HasGround]
    constructor
    · rintro ⟨role, hrole, hallowed⟩
      rw [mem_roles] at hrole
      cases role with
      | miner => cases hallowed
      | maintainer =>
        rcases hrole with h | h
        · exact Or.inr (Or.inr (Or.inl h))
        · exact Or.inr (Or.inl h)
      | owner =>
        rcases hrole with h | h
        · exact Or.inr (Or.inl h)
        · exact Or.inr (Or.inr (Or.inr h))
      | operator => exact Or.inl hrole
    · rintro (h | h | h | h)
      · exact ⟨.operator, (mem_roles tables login).mpr h, rfl⟩
      · exact ⟨.owner, (mem_roles tables login).mpr (Or.inl h), rfl⟩
      · exact ⟨.maintainer, (mem_roles tables login).mpr (Or.inl h), rfl⟩
      · exact ⟨.owner, (mem_roles tables login).mpr (Or.inr h), rfl⟩
  rw [requireAppRole, ← hany]
  split_ifs with h
  · exact iff_of_true rfl h
  · exact iff_of_false (nofun) h

variable (localeLe confirmedMiner) in
theorem requireSessionRepoAccess_eq_none_iff (summaryTables scopeTables : Tables)
    (login repoFullName : String) (repo : Option Row) :
    requireSessionRepoAccess toLowerCase localeLe env confirmedMiner summaryTables scopeTables login
        repoFullName repo = none ↔
      isAuthorizedGitHubSessionLogin env (units login) = true ∨
        Reaches toLowerCase scopeTables login repo repoFullName := by
  rw [requireSessionRepoAccess, operator_mem_roles, ← scopeReaches_iff localeLe env]
  dsimp only
  split_ifs with hoperator hreaches
  · exact iff_of_true rfl (Or.inl hoperator)
  · exact iff_of_true rfl (Or.inr hreaches)
  · exact iff_of_false (nofun) (not_or.mpr ⟨hoperator, hreaches⟩)

/-- Services ask what the routes ask. -/
theorem canLoginAccessRepo_iff (summaryTables scopeTables repoTables : Tables)
    (login fullName : String) :
    canLoginAccessRepo toLowerCase sqlLower localeLe env scopeTables repoTables login fullName =
        true ↔
      requireSessionRepoAccess toLowerCase localeLe env confirmedMiner summaryTables scopeTables
        login fullName (getRepository toLowerCase sqlLower repoTables.repositories fullName) =
          none := by
  have hoperator : (loadControlPanelAccessScope toLowerCase localeLe env scopeTables
      login).operator = isAuthorizedGitHubSessionLogin env (units login) := rfl
  rw [requireSessionRepoAccess_eq_none_iff, canLoginAccessRepo, hoperator,
    ← scopeReaches_iff localeLe env]
  split_ifs with h <;> simp [h]

/-- Anyone watches a public repository that has a row; a repository without one, no one. -/
theorem canWatchRepo_iff (scopeTables repoTables watchTables : Tables) (login fullName : String) :
    canWatchRepo toLowerCase sqlLower localeLe env scopeTables repoTables watchTables login
        fullName = true ↔
      ∃ repo, getRepository toLowerCase sqlLower watchTables.repositories fullName = some repo ∧
        (repo.github.isPrivate = true →
          canLoginAccessRepo toLowerCase sqlLower localeLe env scopeTables repoTables login
            fullName = true) := by
  rw [canWatchRepo]
  rcases getRepository toLowerCase sqlLower watchTables.repositories fullName with _ | repo
  · simp
  · rcases hprivate : repo.github.isPrivate <;> simp [hprivate]

/-- Who may ask for the routes of maintainers at all. -/
def MayAsk (toLowerCase : String → String) (env : AuthSessions.Env) (identity : Option Identity)
    (tables : Tables) : Prop :=
  (∃ actor, identity = some (.static actor)) ∨
    ∃ login, identity = some (.session login) ∧
      (isAuthorizedGitHubSessionLogin env (units login) = true ∨
        HasGround toLowerCase tables login)

variable (localeLe confirmedMiner) in
theorem requireAppRole_eq_none_iff (identity : Option Identity) (tables : Tables) :
    requireAppRole toLowerCase localeLe env confirmedMiner identity tables
        [.maintainer, .owner, .operator] = none ↔ MayAsk toLowerCase env identity tables := by
  rcases identity with _ | actor | login
  · simp [requireAppRole, MayAsk]
  · simp [requireAppRole, MayAsk]
  · rw [requireAppRole_session, MayAsk]
    simp

/-- Where a gate lets the second read through and that one is no session. -/
theorem ok_iff_of_no_session {second identity : Option Identity} {asked : Prop}
    {reached : String → Prop} (hasked : asked) (hsecond : ∀ login, second ≠ some (.session login)) :
    (Except.ok second : Except Response (Option Identity)) = .ok identity ↔
      identity = second ∧ asked ∧ ∀ login, second = some (.session login) → reached login := by
  constructor
  · intro hok
    cases hok
    exact ⟨rfl, hasked, fun login hlogin => absurd hlogin (hsecond login)⟩
  · rintro ⟨rfl, _⟩
    rfl

/-- Where it is a session, the gate decides by what the session reaches. -/
theorem ok_iff_of_session {gate : Except Response (Option Identity)} {identity : Option Identity}
    {login : String} {asked : Prop} {reached : String → Prop} (hasked : asked)
    (hgate : ∀ identity, gate = .ok identity ↔
      identity = some (.session login) ∧ reached login) :
    gate = .ok identity ↔ identity = some (.session login) ∧ asked ∧
      ∀ other, some (Identity.session login) = some (.session other) → reached other := by
  rw [hgate]
  constructor
  · rintro ⟨rfl, hreached⟩
    refine ⟨rfl, hasked, fun other hother => ?_⟩
    cases hother
    exact hreached
  · rintro ⟨rfl, _, hreached⟩
    exact ⟨rfl, hreached login rfl⟩

theorem requireRepoMaintainer_ok_iff {identities : ℕ → Option Identity} {loads : ℕ → Tables}
    {fullName : String} {identity : Option Identity} :
    requireRepoMaintainer toLowerCase sqlLower localeLe env confirmedMiner identities loads
        fullName = .ok identity ↔
      identity = identities 1 ∧ MayAsk toLowerCase env (identities 0) (loads 0) ∧
      ∀ login, identities 1 = some (.session login) →
        isAuthorizedGitHubSessionLogin env (units login) = true ∨
        Reaches toLowerCase (loads 3) login
          (getRepository toLowerCase sqlLower (loads 1).repositories fullName) fullName := by
  rw [requireRepoMaintainer, ← requireAppRole_eq_none_iff localeLe confirmedMiner]
  rcases hask : requireAppRole toLowerCase localeLe env confirmedMiner (identities 0) (loads 0)
    [.maintainer, .owner, .operator] with _ | forbidden
  · rcases identities 1 with _ | actor | login
    · exact ok_iff_of_no_session rfl (nofun)
    · exact ok_iff_of_no_session rfl (nofun)
    · refine ok_iff_of_session rfl fun identity => ?_
      rw [← requireSessionRepoAccess_eq_none_iff localeLe confirmedMiner (loads 2)]
      dsimp only
      rcases requireSessionRepoAccess toLowerCase localeLe env confirmedMiner (loads 2) (loads 3)
        login fullName (getRepository toLowerCase sqlLower (loads 1).repositories fullName)
        with _ | response
      · rw [Except.ok.injEq, and_iff_left rfl]
        exact eq_comm
      · exact iff_of_false (nofun) fun h => nomatch h.2
  · exact iff_of_false (nofun) (nofun)

/-- A permission on the repository that counts as write access, asked under the installation
that its row names. -/
def WriteGranted (toLowerCase sqlLower : String → String)
    (collaboratorPermission : ℤ → String → String → String → Option String) (rows : List Row)
    (fullName login : String) : Prop :=
  ∃ repo installationId permission,
    getRepository toLowerCase sqlLower rows fullName = some repo ∧
    repo.github.installationId = some installationId ∧
    getRepositoryCollaboratorPermission collaboratorPermission installationId fullName login =
      some permission ∧ permission ∈ REPO_WRITE_PERMISSIONS

theorem permission_iff (rows : List Row) (fullName login : String) :
    (((getRepository toLowerCase sqlLower rows fullName).bind fun repo =>
        repo.github.installationId).bind fun installationId =>
        getRepositoryCollaboratorPermission collaboratorPermission installationId fullName
          login).all (fun permission =>
            permission = "" || !REPO_WRITE_PERMISSIONS.contains permission) = false ↔
      WriteGranted toLowerCase sqlLower collaboratorPermission rows fullName login := by
  unfold WriteGranted
  rcases getRepository toLowerCase sqlLower rows fullName with _ | repo
  · simp
  rcases hid : repo.github.installationId with _ | installationId
  · simp [hid]
  rcases hpermission : getRepositoryCollaboratorPermission collaboratorPermission installationId
    fullName login with _ | permission
  · simp [hid, hpermission]
  · have hblank : "" ∉ REPO_WRITE_PERMISSIONS := by decide
    have hcounts : permission ∈ REPO_WRITE_PERMISSIONS → permission ≠ "" := by
      rintro hmem rfl
      exact hblank hmem
    simpa [hid, hpermission] using hcounts

/-- Write access, for every answer of the reads that the gates make. -/
theorem write_access_iff (identities : ℕ → Option Identity) (loads : ℕ → Tables)
    (fullName : String) (identity : Option Identity) :
    requireRepoWriteAccess toLowerCase sqlLower localeLe env confirmedMiner collaboratorPermission
        identities loads fullName = .ok identity ↔
      identity = identities 1 ∧ MayAsk toLowerCase env (identities 0) (loads 0) ∧
      ∀ login, identities 1 = some (.session login) →
        isAuthorizedGitHubSessionLogin env (units login) = true ∨
        (Reaches toLowerCase (loads 3) login
            (getRepository toLowerCase sqlLower (loads 1).repositories fullName) fullName ∧
          WriteGranted toLowerCase sqlLower collaboratorPermission (loads 5).repositories fullName
            login) := by
  rw [requireRepoWriteAccess]
  rcases hgate : requireRepoMaintainer toLowerCase sqlLower localeLe env confirmedMiner
    identities loads fullName with response | second
  · refine iff_of_false (nofun) ?_
    rintro ⟨_, hask, hsecond⟩
    have hok : requireRepoMaintainer toLowerCase sqlLower localeLe env confirmedMiner identities
        loads fullName = .ok (identities 1) := requireRepoMaintainer_ok_iff.mpr
      ⟨rfl, hask, fun login hlogin => (hsecond login hlogin).imp_right And.left⟩
    rw [hgate] at hok
    cases hok
  · obtain ⟨rfl, hask, hsecond⟩ := requireRepoMaintainer_ok_iff.mp hgate
    rcases hone : identities 1 with _ | actor | login
    · exact ok_iff_of_no_session hask (nofun)
    · exact ok_iff_of_no_session hask (nofun)
    · refine ok_iff_of_session hask fun identity => ?_
      have hreaches := hsecond login hone
      simp only [operator_mem_roles]
      by_cases hoperator : isAuthorizedGitHubSessionLogin env (units login) = true
      · rw [if_pos hoperator, Except.ok.injEq]
        exact eq_comm.trans (and_iff_left (Or.inl hoperator)).symm
      · rw [if_neg hoperator, or_iff_right hoperator,
          and_iff_right (hreaches.resolve_left hoperator), ← permission_iff]
        split_ifs with hrefused
        · exact iff_of_false (nofun) fun h => Bool.noConfusion (hrefused.symm.trans h.2)
        · rw [Except.ok.injEq, and_iff_left (Bool.eq_false_iff.mpr hrefused)]
          exact eq_comm

end Passing

/-! ## Histories -/

/-- The statements that write to the table of repositories. -/
inductive Write where
  | webhook (arrival : Arrival)
  | upsertRegistered (snapshotId fullName : String) (repo : RegistryRepoConfig)
  | deregister (names : List String)

def write (rows : List Row) : Write → List Row
  | .webhook arrival => receive rows arrival
  | .upsertRegistered snapshotId fullName repo => upsertRegistered snapshotId fullName repo rows
  | .deregister names => deregister names rows

/-- The installation that the row of a name says it is under. -/
def installationOf (rows : List Row) (name : String) : Option ℤ :=
  (KeyedTable.lookup Row.fullName rows name).bind fun row => row.github.installationId

/-- A repository arrives under an installation. -/
def places (name : String) : Write → Option ℤ
  | .webhook (.upsertRepositoryFromGitHub repo installationId) =>
      if repo.full_name = name then installationId else none
  | _ => none

/-- The installation is deleted, or the repository removed from it. -/
def removes (name : String) : Write → ℤ → Prop
  | .webhook (.markInstallationDeleted deleted), installationId => deleted = installationId
  | .webhook (.markRepositoriesRemovedFromInstallation source names), installationId =>
      source = installationId ∧ name ∈ names ∧ name ≠ ""
  | _, _ => False

instance decidableRemoves (name : String) :
    (event : Write) → (installationId : ℤ) → Decidable (removes name event installationId)
  | .webhook (.upsertRepositoryFromGitHub ..), _ => isFalse id
  | .webhook (.markInstallationDeleted _), _ => inferInstanceAs (Decidable (_ = _))
  | .webhook (.markRepositoriesRemovedFromInstallation ..), _ =>
      inferInstanceAs (Decidable (_ ∧ _))
  | .upsertRegistered .., _ => isFalse id
  | .deregister _, _ => isFalse id

theorem installationOf_map {change : Row → Row}
    (hname : ∀ row, (change row).fullName = row.fullName) (rows : List Row) (name : String) :
    installationOf (rows.map change) name =
      (KeyedTable.lookup Row.fullName rows name).bind
        fun row => (change row).github.installationId := by
  rw [installationOf, lookup_map hname, Option.bind_map]
  rfl

theorem installationOf_upsertWith {change : Row → Row}
    (hname : ∀ row, (change row).fullName = row.fullName) (rows : List Row) (fresh : Row)
    (name : String) :
    installationOf (KeyedTable.upsertWith Row.fullName change rows fresh) name =
      if name = fresh.fullName then
        (((KeyedTable.lookup Row.fullName rows name).map change).getD fresh).github.installationId
      else installationOf rows name := by
  rw [installationOf, KeyedTable.lookup_upsertWith Row.fullName hname]
  split_ifs <;> rfl

theorem fullName_of_lookup {rows : List Row} {name : String} {row : Row}
    (h : KeyedTable.lookup Row.fullName rows name = some row) : row.fullName = name :=
  (KeyedTable.mem_of_lookup Row.fullName h).2

/-- A statement that takes some rows from their installation, and this row exactly where it
removes the repository from the installation it is under. -/
theorem installationOf_uninstalled {event : Write} {name : String} {taken : Row → Prop}
    [DecidablePred taken] (rows : List Row) (hplaces : places name event = none)
    (htaken : ∀ row id, row.fullName = name → row.github.installationId = some id →
      (taken row ↔ removes name event id)) :
    installationOf (rows.map fun row => if taken row then uninstalled row else row) name =
      LastSetting.hold (places name) (removes name) (installationOf rows name) event := by
  rw [installationOf_map fun row => by split_ifs <;> rfl, installationOf]
  rcases hrow : KeyedTable.lookup Row.fullName rows name with _ | row
  · exact (LastSetting.hold_none hplaces).symm
  · rw [Option.bind_some, Option.bind_some]
    rcases hid : row.github.installationId with _ | id
    · rw [LastSetting.hold_none hplaces]
      split_ifs
      · rfl
      · exact hid
    · rw [LastSetting.hold_some hplaces, ← if_congr (htaken row id (fullName_of_lookup hrow) hid)
        rfl rfl]
      split_ifs
      · rfl
      · exact hid

/-- One statement: it places the repository, or it may remove it, or it leaves it where it is. -/
theorem installationOf_write (rows : List Row) (event : Write) (name : String) :
    installationOf (write rows event) name =
      LastSetting.hold (places name) (removes name) (installationOf rows name) event := by
  rcases event with arrival | ⟨snapshotId, fullName, repo⟩ | names
  · rcases arrival with ⟨repo, installationId⟩ | deleted | ⟨source, names⟩
    · let change : Row → Row := fun row =>
        { row with github := updatedColumns repo installationId row.github }
      have hchange : ∀ row, (change row).fullName = row.fullName := fun _ => rfl
      refine (installationOf_upsertWith hchange rows _ name).trans ?_
      split_ifs with hname
      · have hplaces : places name (.webhook (.upsertRepositoryFromGitHub repo installationId)) =
            installationId := if_pos hname.symm
        rcases installationId with _ | id
        · rw [LastSetting.hold_of_idle _ hplaces fun _ h => h, installationOf]
          rcases KeyedTable.lookup Row.fullName rows name with _ | row <;> rfl
        · rw [LastSetting.hold_of_sets _ hplaces]
          rcases KeyedTable.lookup Row.fullName rows name with _ | row <;> rfl
      · have hplaces : places name (.webhook (.upsertRepositoryFromGitHub repo installationId)) =
            none := if_neg (Ne.symm hname)
        exact (LastSetting.hold_of_idle _ hplaces fun _ h => h).symm
    · refine installationOf_uninstalled rows rfl fun row id _ hid => ?_
      rw [hid, Option.some.injEq]
      exact eq_comm
    · refine installationOf_uninstalled rows rfl fun row id hname hid => ?_
      rw [hid, hname, Option.some.injEq, List.mem_filter, decide_eq_true_eq, eq_comm]
      rfl
  · let change : Row → Row := fun row => { row with registry := registered snapshotId repo }
    have hchange : ∀ row, (change row).fullName = row.fullName := fun _ => rfl
    rw [LastSetting.hold_of_idle _ rfl fun _ h => h]
    refine (installationOf_upsertWith hchange rows _ name).trans ?_
    split_ifs
    · rw [installationOf]
      rcases KeyedTable.lookup Row.fullName rows name with _ | row <;> rfl
    · rfl
  · rw [LastSetting.hold_of_idle _ rfl fun _ h => h]
    refine (installationOf_map (fun row => by split_ifs <;> rfl) rows name).trans ?_
    rw [installationOf]
    refine congrArg _ (funext fun row => ?_)
    split_ifs <;> rfl

/-- The row of a name is under the installation that placed it last and has not removed it. -/
theorem installationOf_run (history : List Write) (name : String) (installationId : ℤ) :
    installationOf (run write [] history) name = some installationId ↔
      LastSetting.LastSet (places name) (removes name) history installationId := by
  rw [← LastSetting.run_hold_eq_some_iff]
  have hrun : ∀ (rows : List Row), installationOf (run write rows history) name =
      run (LastSetting.hold (places name) (removes name)) (installationOf rows name) history := by
    induction history with
    | nil => exact fun _ => rfl
    | cons event history ih =>
      intro rows
      exact (ih (write rows event)).trans (by rw [installationOf_write]; rfl)
  rw [hrun]
  rfl

/-! ## Write access and the history of the installations -/

section Histories

variable {toLowerCase sqlLower : String → String}

/-- The row that a spelling finds is the first of its own name. -/
theorem lookup_of_getRepository {rows : List Row} {fullName : String} {repo : Row}
    (h : getRepository toLowerCase sqlLower rows fullName = some repo) :
    KeyedTable.lookup Row.fullName rows repo.fullName = some repo := by
  rw [getRepository, Option.or_eq_some_iff] at h
  rcases h with hexact | ⟨_, hfound⟩
  · have hname := fullName_of_lookup hexact
    rw [hname]
    exact hexact
  · obtain ⟨hlower, before, after, rfl, hbefore⟩ := List.find?_eq_some_iff_append.mp hfound
    have hnone : before.find? (fun row => decide (row.fullName = repo.fullName)) = none := by
      rw [List.find?_eq_none]
      intro row hrow hname
      have hother := hbefore row hrow
      rw [of_decide_eq_true hname, hlower] at hother
      cases hother
    rw [KeyedTable.lookup, List.find?_append, hnone, Option.none_or, List.find?_cons_of_pos]
    exact decide_eq_true rfl

theorem installationOf_getRepository {rows : List Row} {fullName : String} {repo : Row}
    (h : getRepository toLowerCase sqlLower rows fullName = some repo) :
    installationOf rows repo.fullName = repo.github.installationId := by
  rw [installationOf, lookup_of_getRepository h, Option.bind_some]

/-- What GitHub is asked under after a history. -/
theorem writeGranted_run_iff {collaboratorPermission : ℤ → String → String → String → Option String}
    (history : List Write) (fullName login : String) :
    WriteGranted toLowerCase sqlLower collaboratorPermission (run write [] history) fullName
        login ↔
      ∃ repo installationId permission,
        getRepository toLowerCase sqlLower (run write [] history) fullName = some repo ∧
        LastSetting.LastSet (places repo.fullName) (removes repo.fullName) history
          installationId ∧
        getRepositoryCollaboratorPermission collaboratorPermission installationId fullName
          login = some permission ∧ permission ∈ REPO_WRITE_PERMISSIONS := by
  refine exists_congr fun repo => exists_congr fun installationId =>
    exists_congr fun permission => and_congr_right fun hrepo => and_congr_left fun _ => ?_
  rw [← installationOf_getRepository hrepo, installationOf_run]

/-- Write access when the last read finds what a history of webhooks and snapshots left. Of two
reads of who asks, the first needs the role of a maintainer or an owner, and only the second, where
it is a session, must reach the repository; its write access is asked under the installation that
placed the repository last and has not removed it. -/
theorem requireRepoWriteAccess_ok_iff {localeLe : String → String → Bool} {env : AuthSessions.Env}
    {confirmedMiner : String → Bool}
    {collaboratorPermission : ℤ → String → String → String → Option String}
    (identities : ℕ → Option Identity) (loads : ℕ → Tables) (history : List Write)
    (hhistory : (loads 5).repositories = run write [] history) (fullName : String)
    (identity : Option Identity) :
    requireRepoWriteAccess toLowerCase sqlLower localeLe env confirmedMiner collaboratorPermission
        identities loads fullName = .ok identity ↔
      identity = identities 1 ∧ MayAsk toLowerCase env (identities 0) (loads 0) ∧
      ∀ login, identities 1 = some (.session login) →
        isAuthorizedGitHubSessionLogin env (units login) = true ∨
        (Reaches toLowerCase (loads 3) login
            (getRepository toLowerCase sqlLower (loads 1).repositories fullName) fullName ∧
          ∃ repo installationId permission,
            getRepository toLowerCase sqlLower (run write [] history) fullName = some repo ∧
            LastSetting.LastSet (places repo.fullName) (removes repo.fullName) history
              installationId ∧
            getRepositoryCollaboratorPermission collaboratorPermission installationId fullName
              login = some permission ∧ permission ∈ REPO_WRITE_PERMISSIONS) := by
  rw [write_access_iff, hhistory]
  simp only [writeGranted_run_iff]

def samplePayload : GitHubRepositoryPayload := ⟨"acme/app", some "acme", "app", none, none, none⟩

/-- The repository arrives under installation 7, then in a webhook without one. -/
def sampleHistory : List Write :=
  [.webhook (.upsertRepositoryFromGitHub samplePayload (some 7)),
    .webhook (.upsertRepositoryFromGitHub samplePayload none)]

def sampleRow : Row :=
  ⟨"acme/app", { owner := "acme", name := "app", installationId := some 7 }, {}⟩

def sampleTables : Tables := ⟨[⟨7, "acme", none, 0⟩], run write [] sampleHistory, []⟩

/-- GitHub is asked under the installation that the row still names. -/
theorem sample_write_access :
    requireRepoWriteAccess id id (fun _ _ => true) ⟨none, none, none, none⟩ (fun _ => false)
      (fun installationId _ _ _ => if installationId = 7 then some "write" else none)
      (fun _ => some (.session "acme")) (fun _ => sampleTables) "acme/app" =
        .ok (some (.session "acme")) := by
  have hactive : Active id sampleTables "acme" ⟨7, "acme", none, 0⟩ :=
    ⟨by simp [listInstallations, sampleTables], rfl, rfl⟩
  have hrow : getRepository id id (run write [] sampleHistory) "acme/app" = some sampleRow := rfl
  refine (requireRepoWriteAccess_ok_iff _ _ sampleHistory rfl "acme/app" _).mpr
    ⟨rfl, Or.inr ⟨"acme", rfl, Or.inr (Or.inr (Or.inr ⟨_, hactive⟩))⟩, fun login hlogin => ?_⟩
  cases hlogin
  refine Or.inr ⟨Or.inr (Or.inr ⟨sampleRow, _, hrow, hactive, by decide, rfl⟩),
    sampleRow, 7, "write", hrow, ⟨[], _, _, rfl, rfl, fun later hlater => ?_⟩, by decide, by decide⟩
  rw [List.mem_singleton.mp hlater]
  exact ⟨rfl, id⟩

end Histories

end Gittensory.RepoAccess
