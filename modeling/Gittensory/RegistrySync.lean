import Gittensory.GuardedRun
import Gittensory.JsonRecord
import Gittensory.KeyedTable

/-!
How a registry snapshot is written into the table of repositories (`registry/sync.ts`). The
names in the table are read once; then each entry takes one statement and the entries that left
the registry one more. Webhooks about installations write to the same rows between any two
statements, and a statement that throws ends the whole.
-/
namespace Gittensory.RegistrySync

open GuardedRun JsonRecord JsValue

structure RegistryRepoConfig where
  repo : String
  emissionShare : JsNumber
  issueDiscoveryShare : JsNumber
  labelMultipliers : List (String × JsNumber)
  trustedLabelPipeline : Option Bool
  maintainerCut : JsNumber
  defaultLabelMultiplier : Option JsNumber
  fixedBaseScore : Option JsNumber
  eligibilityMode : Option String
  timeDecay : Option Record
  raw : Record

structure RegistrySnapshot where
  id : String
  repositories : List RegistryRepoConfig

/-- The columns that only the registry writes. -/
structure RegistryColumns where
  isRegistered : Bool := false
  registryConfigJson : Option RegistryRepoConfig := none
  emissionShare : Option JsNumber := none
  issueDiscoveryShare : Option JsNumber := none
  maintainerCut : JsNumber := .finite 0
  labelMultipliersJson : List (String × JsNumber) := []
  lastRegistrySnapshotId : Option String := none

/-- The columns that only webhooks write. -/
structure GitHubColumns where
  owner : String
  name : String
  installationId : Option ℤ := none
  isInstalled : Bool := false
  isPrivate : Bool := false
  htmlUrl : Option String := none
  defaultBranch : Option String := none

structure Row where
  fullName : String
  github : GitHubColumns
  registry : RegistryColumns

/-! ## Webhooks -/

structure GitHubRepositoryPayload where
  full_name : String
  ownerLogin : Option String
  name : String
  isPrivate : Option Bool
  html_url : Option String
  default_branch : Option String

def repoParts (fullName : String) : String × String :=
  match fullName.splitOn "/" with
  | [] => ("", "")
  | owner :: rest => (owner, "/".intercalate rest)

/-- The inserted columns. -/
def gitHubColumns (repo : GitHubRepositoryPayload) (installationId : Option ℤ) : GitHubColumns where
  owner := repo.ownerLogin.getD (repoParts repo.full_name).1
  name := repo.name
  installationId := installationId
  isInstalled := installationId.isSome
  isPrivate := repo.isPrivate.getD false
  htmlUrl := repo.html_url
  defaultBranch := repo.default_branch

/-- The set clause: an undefined value is left out of it. -/
def updatedColumns (repo : GitHubRepositoryPayload) (installationId : Option ℤ)
    (stored : GitHubColumns) : GitHubColumns :=
  { gitHubColumns repo installationId with
    installationId := installationId.or stored.installationId
    htmlUrl := repo.html_url.or stored.htmlUrl
    defaultBranch := repo.default_branch.or stored.defaultBranch }

inductive Arrival where
  | upsertRepositoryFromGitHub (repo : GitHubRepositoryPayload) (installationId : Option ℤ)
  | markInstallationDeleted (installationId : ℤ)
  | markRepositoriesRemovedFromInstallation (installationId : ℤ) (repoFullNames : List String)

def uninstalled (row : Row) : Row :=
  { row with github := { row.github with isInstalled := false, installationId := none } }

def receive (rows : List Row) : Arrival → List Row
  | .upsertRepositoryFromGitHub repo installationId =>
      KeyedTable.upsertWith Row.fullName
        (fun row => { row with github := updatedColumns repo installationId row.github })
        rows ⟨repo.full_name, gitHubColumns repo installationId, {}⟩
  | .markInstallationDeleted installationId =>
      rows.map fun row =>
        if row.github.installationId = some installationId then uninstalled row else row
  | .markRepositoriesRemovedFromInstallation installationId repoFullNames =>
      let names := repoFullNames.filter fun name => name ≠ ""
      rows.map fun row =>
        if row.github.installationId = some installationId ∧ row.fullName ∈ names then
          uninstalled row
        else row

/-! ## A snapshot -/

def registered (snapshotId : String) (repo : RegistryRepoConfig) : RegistryColumns where
  isRegistered := true
  registryConfigJson := some repo
  emissionShare := some repo.emissionShare
  issueDiscoveryShare := some repo.issueDiscoveryShare
  maintainerCut := repo.maintainerCut
  labelMultipliersJson := repo.labelMultipliers
  lastRegistrySnapshotId := some snapshotId

/-- The snapshot that the row was last listed in stays. -/
def deregistered (columns : RegistryColumns) : RegistryColumns :=
  { lastRegistrySnapshotId := columns.lastRegistrySnapshotId }

def upsertRegistered (snapshotId fullName : String) (repo : RegistryRepoConfig)
    (rows : List Row) : List Row :=
  KeyedTable.upsertWith Row.fullName
    (fun row => { row with registry := registered snapshotId repo })
    rows ⟨fullName, { owner := (repoParts fullName).1, name := (repoParts fullName).2 },
      registered snapshotId repo⟩

section Persist

-- A result about `toLowerCase` holds for every function in its place; `arrivals n` come in
-- before the n-th statement.
variable (toLowerCase : String → String) (arrivals : ℕ → List Arrival)

/-- A map from lower-cased names to stored ones. -/
abbrev NameMap := List (String × String)

def NameMap.get (map : NameMap) (key : String) : Option String :=
  (KeyedTable.lookup Prod.fst map key).map Prod.snd

/-- The loop over the entries; `n` is the statement of the first of them. -/
def persistEntries (snapshotId : String) :
    ℕ → NameMap → List RegistryRepoConfig → List Row → List Row
  | _, _, [], rows => rows
  | n, canonicalByLower, repo :: rest, rows =>
      let fullName := (canonicalByLower.get (toLowerCase repo.repo)).getD repo.repo
      persistEntries snapshotId (n + 1)
        (KeyedTable.upsert Prod.fst canonicalByLower (toLowerCase repo.repo, fullName)) rest
        (upsertRegistered snapshotId fullName repo (run receive rows (arrivals n)))

def nameMap (existingFullNames : List String) : NameMap :=
  (existingFullNames.map fun name => (toLowerCase name, name)).foldl (KeyedTable.upsert Prod.fst) []

def staleFullNames (snapshot : RegistrySnapshot) (existingFullNames : List String) : List String :=
  existingFullNames.filter fun name =>
    toLowerCase name ∉ snapshot.repositories.map fun repo => toLowerCase repo.repo

def deregister (names : List String) (rows : List Row) : List Row :=
  rows.map fun row =>
    if row.registry.isRegistered ∧ row.fullName ∈ names then
      { row with registry := deregistered row.registry }
    else row

/-- The rows after the first `done` statements that follow the reading of the names; the last
statement is the one on the stale names. -/
def persistRegistrySnapshot (snapshot : RegistrySnapshot) (done : ℕ) (rows : List Row) : List Row :=
  let existingFullNames := rows.map Row.fullName
  let written := persistEntries toLowerCase arrivals snapshot.id 0
    (nameMap toLowerCase existingFullNames) (snapshot.repositories.take done) rows
  let stale := staleFullNames toLowerCase snapshot existingFullNames
  if snapshot.repositories.length < done ∧ 0 < snapshot.repositories.length ∧ 0 < stale.length then
    deregister stale (run receive written (arrivals snapshot.repositories.length))
  else written

end Persist

/-! ## What a row says of the registry -/

/-- A name without a row says what a fresh row says. -/
def registryOf (rows : List Row) (fullName : String) : RegistryColumns :=
  ((KeyedTable.lookup Row.fullName rows fullName).map Row.registry).getD {}

theorem lookup_map {change : Row → Row} (hname : ∀ row, (change row).fullName = row.fullName)
    (rows : List Row) (fullName : String) :
    KeyedTable.lookup Row.fullName (rows.map change) fullName =
      (KeyedTable.lookup Row.fullName rows fullName).map change := by
  rw [KeyedTable.lookup, List.find?_map]
  have hsame : (fun stored => decide (Row.fullName stored = fullName)) ∘ change =
      fun stored => decide (stored.fullName = fullName) := by
    funext row
    rw [Function.comp_apply, hname]
  rw [hsame]
  rfl

theorem registryOf_map {change : Row → Row} (hname : ∀ row, (change row).fullName = row.fullName)
    (rows : List Row) (fullName : String) :
    registryOf (rows.map change) fullName =
      (((KeyedTable.lookup Row.fullName rows fullName).map change).map Row.registry).getD {} := by
  rw [registryOf, lookup_map hname]

theorem registryOf_map_of_kept {change : Row → Row}
    (hname : ∀ row, (change row).fullName = row.fullName)
    (hkept : ∀ row, (change row).registry = row.registry) (rows : List Row) (fullName : String) :
    registryOf (rows.map change) fullName = registryOf rows fullName := by
  rw [registryOf_map hname, registryOf, Option.map_map]
  refine congrArg (fun columns => Option.getD columns _) (congrFun (congrArg _ (funext hkept)) _)

theorem registryOf_upsertWith {change : Row → Row}
    (hname : ∀ row, (change row).fullName = row.fullName) (rows : List Row) (fresh : Row)
    (fullName : String) :
    registryOf (KeyedTable.upsertWith Row.fullName change rows fresh) fullName =
      if fullName = fresh.fullName then
        (((KeyedTable.lookup Row.fullName rows fullName).map change).getD fresh).registry
      else registryOf rows fullName := by
  rw [registryOf, KeyedTable.lookup_upsertWith Row.fullName hname]
  split_ifs <;> rfl

/-- No webhook changes what a row says of the registry. -/
theorem registryOf_receive (rows : List Row) (arrival : Arrival) (fullName : String) :
    registryOf (receive rows arrival) fullName = registryOf rows fullName := by
  cases arrival with
  | upsertRepositoryFromGitHub repo installationId =>
    let change : Row → Row := fun row =>
      { row with github := updatedColumns repo installationId row.github }
    have hchange : ∀ row, (change row).fullName = row.fullName := fun _ => rfl
    refine (registryOf_upsertWith hchange rows _ fullName).trans ?_
    split_ifs
    · rw [registryOf]
      rcases KeyedTable.lookup Row.fullName rows fullName with _ | row <;> rfl
    · rfl
  | markInstallationDeleted installationId =>
    apply registryOf_map_of_kept
    · intro row
      split_ifs <;> rfl
    · intro row
      split_ifs <;> rfl
  | markRepositoriesRemovedFromInstallation installationId repoFullNames =>
    apply registryOf_map_of_kept
    · intro row
      split_ifs <;> rfl
    · intro row
      split_ifs <;> rfl

theorem registryOf_run_receive (rows : List Row) (arrivals : List Arrival) (fullName : String) :
    registryOf (run receive rows arrivals) fullName = registryOf rows fullName := by
  induction arrivals generalizing rows with
  | nil => rfl
  | cons arrival arrivals ih => exact (ih _).trans (registryOf_receive rows arrival fullName)

theorem registryOf_upsertRegistered (snapshotId name : String) (repo : RegistryRepoConfig)
    (rows : List Row) (fullName : String) :
    registryOf (upsertRegistered snapshotId name repo rows) fullName =
      if fullName = name then registered snapshotId repo else registryOf rows fullName := by
  let change : Row → Row := fun row => { row with registry := registered snapshotId repo }
  have hchange : ∀ row, (change row).fullName = row.fullName := fun _ => rfl
  refine (registryOf_upsertWith hchange rows _ fullName).trans ?_
  split_ifs
  · rcases KeyedTable.lookup Row.fullName rows fullName with _ | row <;> rfl
  · rfl

theorem registryOf_deregister (names : List String) (rows : List Row) (fullName : String) :
    registryOf (deregister names rows) fullName =
      if (registryOf rows fullName).isRegistered ∧ fullName ∈ names then
        deregistered (registryOf rows fullName)
      else registryOf rows fullName := by
  rw [deregister, registryOf_map fun row => by split_ifs <;> rfl, registryOf]
  rcases hrow : KeyedTable.lookup Row.fullName rows fullName with _ | row
  · rfl
  · obtain rfl := (KeyedTable.mem_of_lookup Row.fullName hrow).2
    simp only [Option.map_some, Option.getD_some]
    split_ifs <;> rfl

/-! ## What a snapshot comes to -/

section Snapshot

variable (toLowerCase : String → String)

/-- The row that an entry is written to: the name the map holds for its lower case, else the
spelling of the first entry of that lower case. -/
def rowName (canonicalByLower : NameMap) (listed : List RegistryRepoConfig) (repo : String) :
    String :=
  ((canonicalByLower.get (toLowerCase repo)).or
    ((listed.find? fun entry => toLowerCase entry.repo = toLowerCase repo).map
      RegistryRepoConfig.repo)).getD repo

variable {toLowerCase} {arrivals : ℕ → List Arrival}

theorem get_upsert (map : NameMap) (key name other : String) :
    NameMap.get (KeyedTable.upsert Prod.fst map (key, name)) other =
      if key = other then some name else map.get other := by
  rw [NameMap.get, KeyedTable.lookup_upsert]
  split_ifs <;> rfl

/-- Writing an entry does not change the row of any entry after it. -/
theorem rowName_cons (canonicalByLower : NameMap) (repo : RegistryRepoConfig)
    (rest : List RegistryRepoConfig) (entry : RegistryRepoConfig) :
    rowName toLowerCase (KeyedTable.upsert Prod.fst canonicalByLower
        (toLowerCase repo.repo, (canonicalByLower.get (toLowerCase repo.repo)).getD repo.repo))
        rest entry.repo =
      rowName toLowerCase canonicalByLower (repo :: rest) entry.repo := by
  unfold rowName
  rw [get_upsert]
  by_cases hlower : toLowerCase repo.repo = toLowerCase entry.repo
  · rw [if_pos hlower, List.find?_cons_of_pos (by simpa using hlower), hlower]
    rcases canonicalByLower.get (toLowerCase entry.repo) with _ | name <;> rfl
  · rw [if_neg hlower, List.find?_cons_of_neg (by simpa using hlower)]

theorem rowName_head (canonicalByLower : NameMap) (repo : RegistryRepoConfig)
    (rest : List RegistryRepoConfig) :
    rowName toLowerCase canonicalByLower (repo :: rest) repo.repo =
      (canonicalByLower.get (toLowerCase repo.repo)).getD repo.repo := by
  rw [rowName, List.find?_cons_of_pos (by simp)]
  rcases canonicalByLower.get (toLowerCase repo.repo) with _ | name <;> rfl

/-- A row that an entry is written to says what the last of its entries says. -/
theorem registryOf_persistEntries (snapshotId : String) (n : ℕ) (canonicalByLower : NameMap)
    (listed : List RegistryRepoConfig) (rows : List Row) (fullName : String) :
    registryOf (persistEntries toLowerCase arrivals snapshotId n canonicalByLower listed rows)
        fullName =
      (((listed.filter fun entry => rowName toLowerCase canonicalByLower listed entry.repo =
          fullName).getLast?).map (registered snapshotId)).getD (registryOf rows fullName) := by
  induction listed generalizing n canonicalByLower rows with
  | nil => rfl
  | cons repo rest ih =>
    have hrest : (rest.filter fun entry =>
          rowName toLowerCase canonicalByLower (repo :: rest) entry.repo = fullName) =
        rest.filter fun entry => rowName toLowerCase (KeyedTable.upsert Prod.fst canonicalByLower
          (toLowerCase repo.repo, (canonicalByLower.get (toLowerCase repo.repo)).getD repo.repo))
          rest entry.repo = fullName :=
      List.filter_congr fun entry _ => by rw [rowName_cons canonicalByLower repo rest entry]
    rw [persistEntries, ih, registryOf_upsertRegistered, registryOf_run_receive, List.filter_cons,
      rowName_head, hrest]
    simp only [decide_eq_true_eq, eq_comm (a := fullName)]
    split_ifs with hname
    · rw [List.getLast?_cons]
      rcases (rest.filter _).getLast? with _ | last <;> rfl
    · rfl

theorem get_nameMap (existingFullNames : List String) (key : String) :
    (nameMap toLowerCase existingFullNames).get key =
      (existingFullNames.filter fun name => toLowerCase name = key).getLast? := by
  rw [NameMap.get, nameMap, KeyedTable.lookup_foldl_upsert, List.filter_map, List.getLast?_map]
  change ((Option.map _ _).or none).map Prod.snd = _
  rw [Option.or_none, Option.map_map]
  exact Option.map_id'

variable (toLowerCase) in
/-- The row of an entry: the stored name of its lower case, the last of them where there are
several, or else the first spelling the snapshot has. -/
def canonicalName (existingFullNames : List String) (listed : List RegistryRepoConfig)
    (repo : String) : String :=
  (((existingFullNames.filter fun name => toLowerCase name = toLowerCase repo).getLast?).or
    ((listed.find? fun entry => toLowerCase entry.repo = toLowerCase repo).map
      RegistryRepoConfig.repo)).getD repo

theorem rowName_nameMap (existingFullNames : List String) (listed : List RegistryRepoConfig)
    (repo : String) :
    rowName toLowerCase (nameMap toLowerCase existingFullNames) listed repo =
      canonicalName toLowerCase existingFullNames listed repo := by
  rw [rowName, get_nameMap, canonicalName]

/-- A canonical name is a stored one, or no stored name is equal to it up to case. -/
theorem canonicalName_cases (existingFullNames : List String) {listed : List RegistryRepoConfig}
    {entry : RegistryRepoConfig} (hentry : entry ∈ listed) :
    toLowerCase (canonicalName toLowerCase existingFullNames listed entry.repo) =
        toLowerCase entry.repo ∧
      (canonicalName toLowerCase existingFullNames listed entry.repo ∈ existingFullNames ∨
        (∀ name ∈ existingFullNames, toLowerCase name ≠ toLowerCase entry.repo) ∧
          (listed.find? fun other => toLowerCase other.repo = toLowerCase entry.repo).map
            RegistryRepoConfig.repo =
              some (canonicalName toLowerCase existingFullNames listed entry.repo)) := by
  unfold canonicalName
  rcases hstored : (existingFullNames.filter fun name =>
      toLowerCase name = toLowerCase entry.repo).getLast? with _ | name
  · have hsome : (listed.find? fun other =>
        toLowerCase other.repo = toLowerCase entry.repo).isSome :=
      List.find?_isSome.mpr ⟨entry, hentry, decide_eq_true rfl⟩
    obtain ⟨first, hfirst⟩ := Option.isSome_iff_exists.mp hsome
    have hlower := List.find?_some hfirst
    rw [hfirst]
    refine ⟨of_decide_eq_true hlower, Or.inr ⟨fun name hname hsame => ?_, rfl⟩⟩
    rw [List.getLast?_eq_none_iff] at hstored
    exact List.filter_eq_nil_iff.mp hstored name hname (decide_eq_true hsame)
  · have hname := List.mem_filter.mp (List.mem_of_getLast? hstored)
    exact ⟨of_decide_eq_true hname.2, Or.inl hname.1⟩

/-- After a snapshot was written, whole or in part, and whatever webhooks came in between: the
row of an entry says what the last entry for that row says, and is never taken for a stale one;
if all statements went through, a registered row whose name the snapshot lists in no spelling
is deregistered, unless the snapshot is empty; and no other row changed. -/
theorem registryOf_persistRegistrySnapshot (toLowerCase : String → String)
    (arrivals : ℕ → List Arrival) (snapshot : RegistrySnapshot) (done : ℕ) (rows : List Row)
    (fullName : String) :
    registryOf (persistRegistrySnapshot toLowerCase arrivals snapshot done rows) fullName =
      match ((snapshot.repositories.take done).filter fun entry =>
        canonicalName toLowerCase (rows.map Row.fullName) (snapshot.repositories.take done)
          entry.repo = fullName).getLast? with
      | some entry => registered snapshot.id entry
      | none =>
          if snapshot.repositories.length < done ∧ snapshot.repositories ≠ [] ∧
              (fullName ∈ rows.map Row.fullName ∧ (registryOf rows fullName).isRegistered) ∧
              ∀ entry ∈ snapshot.repositories, toLowerCase entry.repo ≠ toLowerCase fullName then
            deregistered (registryOf rows fullName)
          else registryOf rows fullName := by
  let existing := rows.map Row.fullName
  let listed := snapshot.repositories.take done
  let written := persistEntries toLowerCase arrivals snapshot.id 0 (nameMap toLowerCase existing)
    listed rows
  let last := (listed.filter fun entry =>
    canonicalName toLowerCase existing listed entry.repo = fullName).getLast?
  have hwritten : registryOf written fullName =
      (last.map (registered snapshot.id)).getD (registryOf rows fullName) := by
    simp only [written, last, registryOf_persistEntries, rowName_nameMap]
  have hstale : fullName ∈ staleFullNames toLowerCase snapshot existing ↔
      fullName ∈ existing ∧
        ∀ entry ∈ snapshot.repositories, toLowerCase entry.repo ≠ toLowerCase fullName := by
    simp [staleFullNames]
  -- What the last statement does to the row, once it is reached.
  have hfinal : registryOf (persistRegistrySnapshot toLowerCase arrivals snapshot done rows)
      fullName =
        if snapshot.repositories.length < done ∧ snapshot.repositories ≠ [] ∧
            fullName ∈ staleFullNames toLowerCase snapshot existing ∧
            (registryOf written fullName).isRegistered then
          deregistered (registryOf written fullName)
        else registryOf written fullName := by
    unfold persistRegistrySnapshot
    by_cases hreached : snapshot.repositories.length < done ∧ 0 < snapshot.repositories.length ∧
        0 < (staleFullNames toLowerCase snapshot existing).length
    · rw [if_pos hreached, registryOf_deregister, registryOf_run_receive]
      obtain ⟨hdone, hlength, -⟩ := hreached
      refine if_congr ?_ rfl rfl
      simp only [hdone, List.ne_nil_of_length_pos hlength, true_and, ne_eq, not_false_eq_true]
      exact And.comm
    · rw [if_neg hreached, if_neg]
      rintro ⟨hdone, hnonempty, hmem, -⟩
      exact hreached ⟨hdone, List.length_pos_of_ne_nil hnonempty, List.length_pos_of_mem hmem⟩
  rw [hfinal]
  change _ = match last with | some entry => _ | none => _
  rcases hlast : last with _ | entry
  · rw [hlast] at hwritten
    rw [hwritten]
    refine if_congr ?_ rfl rfl
    rw [hstale]
    tauto
  · rw [hlast] at hwritten
    rw [if_neg, hwritten]
    · rfl
    · rintro ⟨-, -, hmem, -⟩
      have hentry := List.mem_filter.mp (List.mem_of_getLast? hlast)
      have hlower := (@canonicalName_cases toLowerCase existing _ _ hentry.1).1
      rw [of_decide_eq_true hentry.2] at hlower
      exact (hstale.mp hmem).2 entry (List.mem_of_mem_take hentry.1) hlower.symm

end Snapshot

/-! ## Two spellings of one repository -/

def Arrival.sends (fullName : String) : Arrival → Prop
  | .upsertRepositoryFromGitHub repo _ => repo.full_name = fullName
  | _ => False

inductive Event where
  | receive (arrival : Arrival)
  | persistRegistrySnapshot (snapshot : RegistrySnapshot) (arrivals : ℕ → List Arrival) (done : ℕ)

/-- A webhook of the event has the name, in this spelling. -/
def Event.sends (fullName : String) : Event → Prop
  | .receive arrival => arrival.sends fullName
  | .persistRegistrySnapshot _ arrivals _ => ∃ n, ∃ arrival ∈ arrivals n, arrival.sends fullName

section Spellings

variable (toLowerCase : String → String)

def step (rows : List Row) : Event → List Row
  | .receive arrival => RegistrySync.receive rows arrival
  | .persistRegistrySnapshot snapshot arrivals done =>
      RegistrySync.persistRegistrySnapshot toLowerCase arrivals snapshot done rows

/-- Of two spellings in the table one was sent. -/
def Told (sent : String → Prop) (names : List String) : Prop :=
  ∀ name ∈ names, ∀ other ∈ names, name ≠ other → toLowerCase name = toLowerCase other →
    sent name ∨ sent other

variable {toLowerCase} {sent : String → Prop}

theorem map_fullName_map {change : Row → Row} (hname : ∀ row, (change row).fullName = row.fullName)
    (rows : List Row) : (rows.map change).map Row.fullName = rows.map Row.fullName := by
  rw [List.map_map]
  exact List.map_congr_left fun row _ => hname row

theorem mem_names_upsertWith {change : Row → Row}
    (hname : ∀ row, (change row).fullName = row.fullName) {rows : List Row} {fresh : Row}
    {name : String}
    (h : name ∈ (KeyedTable.upsertWith Row.fullName change rows fresh).map Row.fullName) :
    name ∈ rows.map Row.fullName ∨ name = fresh.fullName := by
  rw [KeyedTable.map_key_upsertWith Row.fullName hname] at h
  split_ifs at h
  · exact Or.inl h
  · exact (List.mem_append.mp h).imp_right List.mem_singleton.mp

theorem mem_names_receive {rows : List Row} {arrival : Arrival} {name : String}
    (h : name ∈ (receive rows arrival).map Row.fullName) :
    name ∈ rows.map Row.fullName ∨ arrival.sends name := by
  cases arrival with
  | upsertRepositoryFromGitHub repo installationId =>
    let change : Row → Row := fun row =>
      { row with github := updatedColumns repo installationId row.github }
    have hchange : ∀ row, (change row).fullName = row.fullName := fun _ => rfl
    exact (mem_names_upsertWith hchange h).imp_right Eq.symm
  | markInstallationDeleted installationId =>
    rw [receive, map_fullName_map fun row => by split_ifs <;> rfl] at h
    exact Or.inl h
  | markRepositoriesRemovedFromInstallation installationId repoFullNames =>
    rw [receive, map_fullName_map fun row => by split_ifs <;> rfl] at h
    exact Or.inl h

theorem mem_names_run_receive {rows : List Row} {arrivals : List Arrival} {name : String}
    (hsent : ∀ arrival ∈ arrivals, ∀ name, arrival.sends name → sent name)
    (h : name ∈ (run receive rows arrivals).map Row.fullName) :
    name ∈ rows.map Row.fullName ∨ sent name := by
  induction arrivals generalizing rows with
  | nil => exact Or.inl h
  | cons arrival arrivals ih =>
    have hrest := ih (fun later hlater => hsent later (List.mem_cons_of_mem _ hlater)) h
    rcases hrest with hrows | hlater
    · exact (mem_names_receive hrows).imp_right (hsent arrival List.mem_cons_self name)
    · exact Or.inr hlater

theorem mem_names_persistEntries {arrivals : ℕ → List Arrival}
    (hsent : ∀ n, ∀ arrival ∈ arrivals n, ∀ name, arrival.sends name → sent name)
    {snapshotId : String} {n : ℕ} {canonicalByLower : NameMap} {listed : List RegistryRepoConfig}
    {rows : List Row} {name : String}
    (h : name ∈ (persistEntries toLowerCase arrivals snapshotId n canonicalByLower listed
      rows).map Row.fullName) :
    name ∈ rows.map Row.fullName ∨ sent name ∨
      ∃ entry ∈ listed, name = rowName toLowerCase canonicalByLower listed entry.repo := by
  induction listed generalizing n canonicalByLower rows with
  | nil => exact Or.inl h
  | cons repo rest ih =>
    rw [persistEntries] at h
    rcases ih h with hrows | hlater | ⟨entry, hentry, rfl⟩
    · let change : Row → Row := fun row => { row with registry := registered snapshotId repo }
      have hchange : ∀ row, (change row).fullName = row.fullName := fun _ => rfl
      rcases mem_names_upsertWith hchange hrows with hbefore | hname
      · exact (mem_names_run_receive (hsent n) hbefore).imp_right Or.inl
      · refine Or.inr (Or.inr ⟨repo, List.mem_cons_self, ?_⟩)
        rw [rowName_head]
        exact hname
    · exact Or.inr (Or.inl hlater)
    · refine Or.inr (Or.inr ⟨entry, List.mem_cons_of_mem _ hentry, ?_⟩)
      exact rowName_cons canonicalByLower repo rest entry

theorem mem_names_persistRegistrySnapshot {arrivals : ℕ → List Arrival}
    (hsent : ∀ n, ∀ arrival ∈ arrivals n, ∀ name, arrival.sends name → sent name)
    {snapshot : RegistrySnapshot} {done : ℕ} {rows : List Row} {name : String}
    (h : name ∈ (persistRegistrySnapshot toLowerCase arrivals snapshot done rows).map
      Row.fullName) :
    name ∈ rows.map Row.fullName ∨ sent name ∨ ∃ entry ∈ snapshot.repositories.take done,
      name = canonicalName toLowerCase (rows.map Row.fullName)
        (snapshot.repositories.take done) entry.repo := by
  have hwritten : ∀ {name : String}, name ∈ (persistEntries toLowerCase arrivals snapshot.id 0
      (nameMap toLowerCase (rows.map Row.fullName)) (snapshot.repositories.take done)
      rows).map Row.fullName → name ∈ rows.map Row.fullName ∨ sent name ∨
        ∃ entry ∈ snapshot.repositories.take done, name = canonicalName toLowerCase
          (rows.map Row.fullName) (snapshot.repositories.take done) entry.repo := by
    intro name h
    simpa only [rowName_nameMap] using mem_names_persistEntries hsent h
  unfold persistRegistrySnapshot at h
  dsimp only at h
  split_ifs at h
  · rw [deregister, map_fullName_map fun row => by split_ifs <;> rfl] at h
    rcases mem_names_run_receive (hsent _) h with hbefore | hlater
    · exact hwritten hbefore
    · exact Or.inr (Or.inl hlater)
  · exact hwritten h

theorem told_step {rows : List Row} {event : Event}
    (h : Told toLowerCase sent (rows.map Row.fullName))
    (hsent : ∀ name, event.sends name → sent name) :
    Told toLowerCase sent ((step toLowerCase rows event).map Row.fullName) := by
  intro name hname other hother hne hlower
  cases event with
  | receive arrival =>
    rcases mem_names_receive hname with hold | hnew
    · rcases mem_names_receive hother with hold' | hnew'
      · exact h name hold other hold' hne hlower
      · exact Or.inr (hsent other hnew')
    · exact Or.inl (hsent name hnew)
  | persistRegistrySnapshot snapshot arrivals done =>
    have harrivals : ∀ n, ∀ arrival ∈ arrivals n, ∀ name, arrival.sends name → sent name :=
      fun n arrival harrival name hname => hsent name ⟨n, arrival, harrival, hname⟩
    -- A name that a snapshot adds is the first spelling of a repository that had no row.
    have hcases : ∀ {name : String}, name ∈ ((persistRegistrySnapshot toLowerCase arrivals snapshot
        done rows).map Row.fullName) → name ∈ rows.map Row.fullName ∨ sent name ∨
          (∀ stored ∈ rows.map Row.fullName, toLowerCase stored ≠ toLowerCase name) ∧
            ((snapshot.repositories.take done).find? fun entry =>
              toLowerCase entry.repo = toLowerCase name).map RegistryRepoConfig.repo =
                some name := by
      intro name hname
      rcases mem_names_persistRegistrySnapshot harrivals hname with hold | hnew | hadded
      · exact Or.inl hold
      · exact Or.inr (Or.inl hnew)
      · obtain ⟨entry, hentry, rfl⟩ := hadded
        obtain ⟨hentryLower, hstored | hfirst⟩ :=
          @canonicalName_cases toLowerCase (rows.map Row.fullName) _ _ hentry
        · exact Or.inl hstored
        · exact Or.inr (Or.inr (by rwa [hentryLower]))
    rcases hcases hname with hold | hnew | ⟨hfresh, hfirst⟩
    · rcases hcases hother with hold' | hnew' | ⟨hfresh', -⟩
      · exact h name hold other hold' hne hlower
      · exact Or.inr hnew'
      · exact absurd hlower (hfresh' name hold)
    · exact Or.inl hnew
    · rcases hcases hother with hold' | hnew' | ⟨-, hfirst'⟩
      · exact absurd hlower.symm (hfresh other hold')
      · exact Or.inr hnew'
      · rw [← hlower, hfirst] at hfirst'
        exact absurd (Option.some.inj hfirst') hne

/-- Two spellings of a repository have rows only where a webhook sent one of them: snapshots,
written whole or in part and with webhooks in between, add no second spelling. -/
theorem spellings_sent (toLowerCase : String → String) (events : List Event) {name other : String}
    (hname : name ∈ (run (step toLowerCase) [] events).map Row.fullName)
    (hother : other ∈ (run (step toLowerCase) [] events).map Row.fullName) (hne : name ≠ other)
    (hlower : toLowerCase name = toLowerCase other) :
    ∃ event ∈ events, event.sends name ∨ event.sends other := by
  have hrun : ∀ {rows : List Row} {later : List Event}, (∀ event ∈ later, event ∈ events) →
      Told toLowerCase (fun name => ∃ event ∈ events, event.sends name) (rows.map Row.fullName) →
      Told toLowerCase (fun name => ∃ event ∈ events, event.sends name)
        ((run (step toLowerCase) rows later).map Row.fullName) := by
    intro rows later
    induction later generalizing rows with
    | nil => exact fun _ h => h
    | cons event later ih =>
      intro hlater h
      refine ih (fun next hnext => hlater next (List.mem_cons_of_mem _ hnext)) (told_step h ?_)
      exact fun name hsends => ⟨event, hlater event List.mem_cons_self, hsends⟩
  have htold := @hrun [] events (fun event hevent => hevent) (fun name hname => nomatch hname)
  rcases htold name hname other hother hne hlower with ⟨event, hevent, hsends⟩ | hsent
  · exact ⟨event, hevent, Or.inl hsends⟩
  · obtain ⟨event, hevent, hsends⟩ := hsent
    exact ⟨event, hevent, Or.inr hsends⟩

end Spellings

/-- GitHub sends a repository in another spelling than the registry listed it in. -/
theorem acme_sent : ∃ event ∈ [Event.persistRegistrySnapshot
      ⟨"s1", [⟨"Acme/App", .finite 1, .finite 0, [], none, .finite 0, none, none, none, none, []⟩]⟩
      (fun _ => []) 2, .receive (.upsertRepositoryFromGitHub
        ⟨"acme/app", none, "app", none, none, none⟩ (some 7))],
    event.sends "Acme/App" ∨ event.sends "acme/app" :=
  spellings_sent JsValue.toLowerCase _ (by decide) (by decide) (by decide) (by decide)

end Gittensory.RegistrySync
