import Gittensory.JsonRecord
import Gittensory.KeyedTable
import Gittensory.Redaction

/-!
Who may invoke a command on a pull request (`settings/command-authorization.ts`). The role
lists of a repository come from untrusted JSON; every decision normalizes them first. A
command of the default policy is for maintainers: its list never takes the author role in.
-/
namespace Gittensory.CommandAuthorization

open JsValue JsonRecord KeyedTable Redaction TextPattern

/-! ## The policy -/

inductive CommandAuthorizationRole where
  | maintainer
  | collaborator
  | prAuthor
  | confirmedMiner
  deriving DecidableEq, Repr

/-- `COMMAND_AUTHORIZATION_ROLES` -/
def roleSpelling : Spelling CommandAuthorizationRole where
  allowed := [.maintainer, .collaborator, .prAuthor, .confirmedMiner]
  name
    | .maintainer => "maintainer"
    | .collaborator => "collaborator"
    | .prAuthor => "pr_author"
    | .confirmedMiner => "confirmed_miner"

/-- A record of role lists is the list of its entries. -/
structure RepositoryCommandAuthorizationPolicy where
  default : List CommandAuthorizationRole
  commands : List (String × List CommandAuthorizationRole)
  deriving DecidableEq, Repr

def DEFAULT_COMMAND_AUTHORIZATION_POLICY : RepositoryCommandAuthorizationPolicy where
  default := [.maintainer, .collaborator, .confirmedMiner]
  commands := [
    ("queue-summary", [.maintainer, .collaborator]),
    ("confirmed-miners", [.maintainer, .collaborator]),
    ("review-now", [.maintainer, .collaborator]),
    ("needs-author", [.maintainer, .collaborator]),
    ("duplicate-clusters", [.maintainer, .collaborator]),
    ("burden-forecast", [.maintainer, .collaborator]),
    ("intake-health", [.maintainer, .collaborator]),
    ("outcome-patterns", [.maintainer, .collaborator]),
    ("noise-report", [.maintainer, .collaborator]),
    ("gate-override", [.maintainer, .collaborator])]

def MAINTAINER_COMMAND_AUTHORIZATION_ROLES : List CommandAuthorizationRole :=
  [.maintainer, .collaborator, .confirmedMiner]

def MAINTAINER_ONLY_DEFAULT_COMMANDS : List String :=
  DEFAULT_COMMAND_AUTHORIZATION_POLICY.commands.map Prod.fst

/-! ## Normalizing -/

/-- `[...new Set(roles)]` -/
def dedupeRoles (roles : List CommandAuthorizationRole) : List CommandAuthorizationRole :=
  roles.eraseDups

def roleOf : JsonValue → Option CommandAuthorizationRole
  | .string text => roleSpelling.read text
  | _ => none

/-- The roles of a list and the warnings it gives. -/
def normalizeRoleList (input : Option JsonValue) (fallback : List CommandAuthorizationRole)
    (label : String) : List CommandAuthorizationRole × List String :=
  match input with
  | some (.array items) =>
      let roles := items.filterMap roleOf
      let ignored := (items.filter fun item => roleOf item = none).map fun _ =>
        "Ignored invalid command authorization role for " ++ label ++ "."
      if roles = [] then
        (dedupeRoles fallback, ignored ++
          ["commandAuthorization." ++ label ++ " had no valid roles; using fallback roles."])
      else (dedupeRoles roles, ignored)
  | none => (dedupeRoles fallback, [])
  | some _ => (dedupeRoles fallback,
      ["commandAuthorization." ++ label ++ " must be an array of roles; using fallback roles."])

def normalizeCommandRoleList (commandName : String) (roles : List CommandAuthorizationRole) :
    List CommandAuthorizationRole × List String :=
  if commandName ∉ MAINTAINER_ONLY_DEFAULT_COMMANDS then (roles, [])
  else
    let maintainerRoles := roles.filter (· ∈ MAINTAINER_COMMAND_AUTHORIZATION_ROLES)
    if maintainerRoles.length = roles.length then (roles, [])
    else
      (if maintainerRoles.length > 0 then dedupeRoles maintainerRoles
        else (DEFAULT_COMMAND_AUTHORIZATION_POLICY.commands.lookup commandName).getD
          [.maintainer, .collaborator],
        ["Ignored author command authorization roles for maintainer-only command: " ++
          commandName ++ "."])

def lowerSet : CharSet := ⟨false, [('a', 'z')]⟩

/-- `/^[a-z][a-z-]{0,63}$/` -/
def commandNamePattern : Pattern :=
  .seq .start (.seq (.seq (.char lowerSet) (upTo 63 (.char ⟨false, [('a', 'z'), ('-', '-')]⟩)))
    .stop)

def isCommandName (commandName : String) : Bool := test commandNamePattern commandName.toList

structure Normalized where
  policy : RepositoryCommandAuthorizationPolicy
  warnings : List String
  deriving DecidableEq, Repr

/-- One round of the loop over the entries of `commands`. -/
def normalizeCommand (policy : Normalized) (entry : String × JsonValue) : Normalized :=
  let commandName := toLowerCase (trim entry.1)
  if !isCommandName commandName then
    { policy with warnings := policy.warnings ++
        ["Ignored malformed command authorization key: " ++ sliceTo 64 entry.1] }
  else
    let roles := normalizeRoleList (some entry.2) policy.policy.default commandName
    let kept := normalizeCommandRoleList commandName roles.1
    { policy :=
        { policy.policy with
            commands := upsert Prod.fst policy.policy.commands (commandName, kept.1) }
      warnings := policy.warnings ++ roles.2 ++ kept.2 }

def normalizeCommandAuthorizationPolicy (input : Option JsonValue) : Normalized :=
  match input with
  | some (.object fields) =>
      let defaultRoles := normalizeRoleList (fields.lookup "default")
        DEFAULT_COMMAND_AUTHORIZATION_POLICY.default "default"
      let start : Normalized :=
        ⟨⟨defaultRoles.1, DEFAULT_COMMAND_AUTHORIZATION_POLICY.commands⟩, defaultRoles.2⟩
      match fields.lookup "commands" with
      | none => start
      | some (.object commands) => commands.foldl normalizeCommand start
      | some _ =>
          { start with warnings := start.warnings ++
              ["commandAuthorization.commands must be an object; using command defaults."] }
  | none => ⟨DEFAULT_COMMAND_AUTHORIZATION_POLICY, []⟩
  | some .null => ⟨DEFAULT_COMMAND_AUTHORIZATION_POLICY, []⟩
  | some _ => ⟨DEFAULT_COMMAND_AUTHORIZATION_POLICY,
      ["commandAuthorization must be an object; using secure defaults."]⟩

def commandAuthorizationAllowedRoles (policy : Option JsonValue) (commandName : String) :
    List CommandAuthorizationRole :=
  let normalized := (normalizeCommandAuthorizationPolicy policy).policy
  dedupeRoles ((normalized.commands.lookup commandName).getD normalized.default)

/-! ## The decision -/

inductive MinerStatus where
  | confirmed
  | notFound
  | unavailable
  deriving DecidableEq, Repr

inductive ActorKind where
  | maintainer
  | author
  | none
  deriving DecidableEq, Repr

structure CommandActor where
  commenterLogin : Option String
  commenterAssociation : Option String
  pullRequestAuthorLogin : Option String
  deriving DecidableEq, Repr

structure CommandAuthorizationDecision where
  authorized : Bool
  reason : String
  actorKind : ActorKind
  matchedRole : Option CommandAuthorizationRole
  allowedRoles : List CommandAuthorizationRole
  deriving DecidableEq, Repr

-- How two logins are brought to one case.
variable (lower : String → String)

def isSameLogin (left right : Option String) : Bool :=
  match left, right with
  | some left, some right => left ≠ "" && right ≠ "" && lower left = lower right
  | _, _ => false

def actorRoles (actor : CommandActor) (minerStatus : Option MinerStatus) :
    List CommandAuthorizationRole :=
  (if actor.commenterAssociation = some "OWNER" ∨ actor.commenterAssociation = some "MEMBER"
    then [.maintainer] else []) ++
  (if actor.commenterAssociation = some "COLLABORATOR" then [.collaborator] else []) ++
  if isSameLogin lower actor.commenterLogin actor.pullRequestAuthorLogin then
    .prAuthor :: if minerStatus = some .confirmed then [.confirmedMiner] else []
  else []

def authorizationReason : CommandAuthorizationRole → String
  | .maintainer => "maintainer_invocation"
  | .collaborator => "collaborator_invocation"
  | .confirmedMiner => "confirmed_miner_pr_author"
  | .prAuthor => "allowed_pr_author"

def commandAuthorizationNeedsMinerDetection (policy : Option JsonValue) (commandName : String)
    (actor : CommandActor) : Bool :=
  let allowedRoles := commandAuthorizationAllowedRoles policy commandName
  if !allowedRoles.contains .confirmedMiner then false
  else if !isSameLogin lower actor.commenterLogin actor.pullRequestAuthorLogin then false
  else !(actorRoles lower actor none).any allowedRoles.contains

def evaluateCommandAuthorization (policy : Option JsonValue) (commandName : String)
    (actor : CommandActor) (minerStatus : Option MinerStatus) : CommandAuthorizationDecision :=
  let allowedRoles := commandAuthorizationAllowedRoles policy commandName
  match (actorRoles lower actor minerStatus).find? allowedRoles.contains with
  | some matchedRole =>
      { authorized := true
        reason := authorizationReason matchedRole
        actorKind := if matchedRole = .maintainer ∨ matchedRole = .collaborator then .maintainer
          else .author
        matchedRole := some matchedRole
        allowedRoles }
  | none =>
      let ownPrAuthor := isSameLogin lower actor.commenterLogin actor.pullRequestAuthorLogin
      if ownPrAuthor && allowedRoles.contains .confirmedMiner then
        { authorized := false
          reason := if minerStatus = some .unavailable ∨ minerStatus = none
            then "miner_detection_unavailable" else "pr_author_not_confirmed_miner"
          actorKind := .author
          matchedRole := none
          allowedRoles }
      else if ownPrAuthor && MAINTAINER_ONLY_DEFAULT_COMMANDS.contains commandName &&
          allowedRoles.all fun role => role = .maintainer || role = .collaborator then
        { authorized := false
          reason := "maintainer_command_requires_maintainer"
          actorKind := .author
          matchedRole := none
          allowedRoles }
      else
        { authorized := false
          reason := if ownPrAuthor then "command_policy_denied" else "not_maintainer_or_pr_author"
          actorKind := if ownPrAuthor then .author else .none
          matchedRole := none
          allowedRoles }

/-! ## Names and lists that stay -/

theorem eraseDups_of_nodup {roles : List CommandAuthorizationRole} (h : roles.Nodup) :
    dedupeRoles roles = roles := by
  unfold dedupeRoles
  induction roles with
  | nil => rfl
  | cons role roles ih =>
    rw [List.nodup_cons] at h
    have hkept : roles.filter (fun other => !other == role) = roles := by
      rw [List.filter_eq_self]
      intro other hother
      have hne : other ≠ role := fun hsame => h.1 (hsame ▸ hother)
      simpa using hne
    rw [List.eraseDups_cons, hkept, ih h.2]

theorem nodup_dedupeRoles (roles : List CommandAuthorizationRole) :
    (dedupeRoles roles).Nodup := by
  unfold dedupeRoles
  induction hn : roles.length using Nat.strong_induction_on generalizing roles with
  | _ n ih =>
    cases roles with
    | nil => exact List.nodup_nil
    | cons role roles =>
      rw [List.eraseDups_cons, List.nodup_cons, List.mem_eraseDups, List.mem_filter]
      have hshort := List.length_filter_le (fun other => !other == role) roles
      rw [List.length_cons] at hn
      exact ⟨fun h => by simpa using h.2, ih _ (by omega) _ rfl⟩

theorem mem_dedupeRoles {roles : List CommandAuthorizationRole} {role : CommandAuthorizationRole} :
    role ∈ dedupeRoles roles ↔ role ∈ roles := List.mem_eraseDups

theorem dedupeRoles_ne_nil {roles : List CommandAuthorizationRole} (h : roles ≠ []) :
    dedupeRoles roles ≠ [] := by
  obtain ⟨role, hrole⟩ := List.exists_mem_of_ne_nil roles h
  exact List.ne_nil_of_mem (mem_dedupeRoles.mpr hrole)

/-- The letters of command names are lower case, and no space. -/
theorem letter_of_commandName {c : Char} (h : ('a' ≤ c ∧ c ≤ 'z') ∨ c = '-') :
    lowerChar c = [c] ∧ spaceSet.accepts c = false := by
  have hcases : c ∈ '-' :: (List.range 26).map fun n => Char.ofNat (97 + n) := by
    rcases h with ⟨hlow, hhigh⟩ | rfl
    · have hlow' : 97 ≤ c.toNat := hlow
      have hhigh' : c.toNat ≤ 122 := hhigh
      refine List.mem_cons_of_mem _ (List.mem_map.mpr ⟨c.toNat - 97, ?_, ?_⟩)
      · rw [List.mem_range]
        omega
      · rw [Nat.add_sub_cancel' hlow', Char.ofNat_toNat]
    · exact List.mem_cons_self ..
  have hall : ('-' :: (List.range 26).map fun n => Char.ofNat (97 + n)).all
      (fun c => lowerChar c == [c] && !spaceSet.accepts c) = true := by decide +kernel
  have hc := List.all_eq_true.mp hall c hcases
  rw [Bool.and_eq_true, beq_iff_eq, Bool.not_eq_true'] at hc
  exact hc

theorem letters_of_isCommandName {name : String} (h : isCommandName name = true) :
    ∀ c ∈ name.toList, ('a' ≤ c ∧ c ≤ 'z') ∨ c = '-' := by
  rw [isCommandName, commandNamePattern, test_anchored_iff, matches_seq_iff] at h
  obtain ⟨first, rest, hname, hfirst, hrest⟩ := h
  obtain ⟨c, rfl, hc⟩ := matches_char_iff.mp hfirst
  have hletters := (matches_upTo_iff.mp hrest).2
  rw [hname]
  intro d hd
  rcases List.mem_cons.mp hd with rfl | hd
  · simpa [lowerSet, CharSet.accepts] using Or.inl hc
  · have hset := hletters d hd
    simp only [CharSet.accepts, List.any_cons, List.any_nil, Bool.or_false, Bool.bne_false,
      Bool.or_eq_true, decide_eq_true_eq] at hset
    exact hset.imp_right fun hdash => le_antisymm hdash.2 hdash.1

theorem toLowerCase_trim_of_isCommandName {name : String} (h : isCommandName name = true) :
    toLowerCase (trim name) = name := by
  have hletters := fun c hc => letter_of_commandName (letters_of_isCommandName h c hc)
  have hkeep : ∀ text : Text, (∀ c ∈ text, c ∈ name.toList) →
      text.dropWhile spaceSet.accepts = text := by
    intro text htext
    cases text with
    | nil => rfl
    | cons c rest =>
      rw [List.dropWhile_cons_of_neg]
      rw [(hletters c (htext c (List.mem_cons_self ..))).2]
      exact Bool.false_ne_true
  have htrim : trimText name.toList = name.toList := by
    rw [trimText, hkeep name.toList fun _ => id, hkeep name.toList.reverse fun _ => List.mem_reverse.mp,
      List.reverse_reverse]
  have hlower : ∀ text : Text, (∀ c ∈ text, c ∈ name.toList) → text.flatMap lowerChar = text := by
    intro text htext
    induction text with
    | nil => rfl
    | cons c rest ih =>
      rw [List.forall_mem_cons] at htext
      rw [List.flatMap_cons, (hletters c htext.1).1, ih htext.2, List.singleton_append]
  rw [toLowerCase, trim, htrim, String.ofList_toList, hlower _ fun _ => id, String.ofList_toList]

/-! ## Settled policies -/

structure SettledCommand (entry : String × List CommandAuthorizationRole) : Prop where
  name : isCommandName entry.1 = true
  nonempty : entry.2 ≠ []
  nodup : entry.2.Nodup
  clamped : entry.1 ∈ MAINTAINER_ONLY_DEFAULT_COMMANDS →
    ∀ role ∈ entry.2, role ∈ MAINTAINER_COMMAND_AUTHORIZATION_ROLES

/-- What normalizing leaves: lists that are not empty, each role once, the commands of the
default policy first, and those without the author role. -/
structure SettledPolicy (policy : RepositoryCommandAuthorizationPolicy) : Prop where
  default_nonempty : policy.default ≠ []
  default_nodup : policy.default.Nodup
  commands : ∀ entry ∈ policy.commands, SettledCommand entry
  distinct : (policy.commands.map Prod.fst).Nodup
  listed : MAINTAINER_ONLY_DEFAULT_COMMANDS <+: policy.commands.map Prod.fst

theorem settled_default : SettledPolicy DEFAULT_COMMAND_AUTHORIZATION_POLICY where
  default_nonempty := by decide
  default_nodup := by decide
  commands := by
    have hall : ∀ entry ∈ DEFAULT_COMMAND_AUTHORIZATION_POLICY.commands,
        isCommandName entry.1 = true ∧ entry.2 ≠ [] ∧ entry.2.Nodup ∧
          ∀ role ∈ entry.2, role ∈ MAINTAINER_COMMAND_AUTHORIZATION_ROLES := by decide +kernel
    intro entry hentry
    obtain ⟨hname, hne, hnodup, hclamped⟩ := hall entry hentry
    exact ⟨hname, hne, hnodup, fun _ => hclamped⟩
  distinct := by decide
  listed := List.prefix_rfl

theorem settled_normalizeRoleList (input : Option JsonValue)
    {fallback : List CommandAuthorizationRole} (hfallback : fallback ≠ []) (label : String) :
    (normalizeRoleList input fallback label).1 ≠ [] ∧
      (normalizeRoleList input fallback label).1.Nodup := by
  have hkept : ∀ roles : List CommandAuthorizationRole, roles ≠ [] →
      dedupeRoles roles ≠ [] ∧ (dedupeRoles roles).Nodup := fun roles hroles =>
    ⟨dedupeRoles_ne_nil hroles, nodup_dedupeRoles roles⟩
  unfold normalizeRoleList
  split
  · dsimp only
    split_ifs with hroles
    · exact hkept fallback hfallback
    · exact hkept _ hroles
  · exact hkept fallback hfallback
  · exact hkept fallback hfallback

theorem settled_normalizeCommandRoleList {commandName : String}
    {roles : List CommandAuthorizationRole} (hname : isCommandName commandName = true)
    (hne : roles ≠ []) (hnodup : roles.Nodup) :
    SettledCommand (commandName, (normalizeCommandRoleList commandName roles).1) := by
  unfold normalizeCommandRoleList
  by_cases hlisted : commandName ∈ MAINTAINER_ONLY_DEFAULT_COMMANDS
  · rw [if_neg (not_not.mpr hlisted)]
    dsimp only
    split_ifs with hall hsome
    · refine ⟨hname, hne, hnodup, fun _ role hrole => ?_⟩
      rw [List.length_filter_eq_length_iff] at hall
      exact of_decide_eq_true (hall role hrole)
    · refine ⟨hname, dedupeRoles_ne_nil (List.length_pos_iff.mp hsome), nodup_dedupeRoles _, ?_⟩
      intro _ role hrole
      exact of_decide_eq_true (List.mem_filter.mp (mem_dedupeRoles.mp hrole)).2
    · have hall : ∀ name ∈ MAINTAINER_ONLY_DEFAULT_COMMANDS,
          DEFAULT_COMMAND_AUTHORIZATION_POLICY.commands.lookup name =
            some [.maintainer, .collaborator] := by decide +kernel
      have hpair : ([.maintainer, .collaborator] : List CommandAuthorizationRole).Nodup ∧
          ∀ role ∈ ([.maintainer, .collaborator] : List CommandAuthorizationRole),
            role ∈ MAINTAINER_COMMAND_AUTHORIZATION_ROLES := by decide
      rw [hall commandName hlisted]
      exact ⟨hname, List.cons_ne_nil _ _, hpair.1, fun _ => hpair.2⟩
  · rw [if_pos hlisted]
    exact ⟨hname, hne, hnodup, fun h => absurd h hlisted⟩

/-- One round of the loop keeps a policy settled. -/
theorem SettledPolicy.normalizeCommand {state : Normalized} (h : SettledPolicy state.policy)
    (entry : String × JsonValue) : SettledPolicy (normalizeCommand state entry).policy := by
  unfold CommandAuthorization.normalizeCommand
  dsimp only
  split_ifs with hmalformed
  · exact h
  · have hname : isCommandName (toLowerCase (trim entry.1)) = true := by simpa using hmalformed
    have hroles := settled_normalizeRoleList (some entry.2) h.default_nonempty
      (toLowerCase (trim entry.1))
    have hsettled := settled_normalizeCommandRoleList hname hroles.1 hroles.2
    refine ⟨h.default_nonempty, h.default_nodup, ?_, ?_, ?_⟩
    · intro stored hstored
      rcases (mem_upsert_iff Prod.fst _ _ stored).mp hstored with rfl | ⟨hold, -⟩
      · exact hsettled
      · exact h.commands stored hold
    · rw [map_key_upsert]
      split_ifs with hold
      · exact h.distinct
      · rw [List.nodup_append]
        exact ⟨h.distinct, List.nodup_singleton _, fun name hmem other hother =>
          fun hsame => hold (List.mem_singleton.mp hother ▸ hsame ▸ hmem)⟩
    · rw [map_key_upsert]
      split_ifs with hold
      · exact h.listed
      · exact h.listed.trans (List.prefix_append _ _)

theorem settled_foldl_normalizeCommand (entries : List (String × JsonValue)) {state : Normalized}
    (h : SettledPolicy state.policy) :
    SettledPolicy (entries.foldl normalizeCommand state).policy := by
  induction entries generalizing state with
  | nil => exact h
  | cons entry entries ih =>
    rw [List.foldl_cons]
    exact @ih (normalizeCommand state entry) (h.normalizeCommand entry)

theorem settled_normalizeCommandAuthorizationPolicy (input : Option JsonValue) :
    SettledPolicy (normalizeCommandAuthorizationPolicy input).policy := by
  have hstart : ∀ fields : List (String × JsonValue), SettledPolicy
      ⟨(normalizeRoleList (fields.lookup "default")
        DEFAULT_COMMAND_AUTHORIZATION_POLICY.default "default").1,
        DEFAULT_COMMAND_AUTHORIZATION_POLICY.commands⟩ := by
    intro fields
    have hroles := settled_normalizeRoleList (fields.lookup "default")
      settled_default.default_nonempty "default"
    exact ⟨hroles.1, hroles.2, settled_default.commands, settled_default.distinct,
      settled_default.listed⟩
  unfold normalizeCommandAuthorizationPolicy
  split
  · rename_i fields
    dsimp only
    split
    · exact hstart fields
    · exact settled_foldl_normalizeCommand _ (hstart fields)
    · exact hstart fields
  · exact settled_default
  · exact settled_default
  · exact settled_default

/-! ## Normalizing a normalized policy -/

def rolesJson (roles : List CommandAuthorizationRole) : JsonValue :=
  .array (roles.map fun role => .string (roleSpelling.write role))

def RepositoryCommandAuthorizationPolicy.toJson (policy : RepositoryCommandAuthorizationPolicy) :
    JsonValue :=
  .object [("default", rolesJson policy.default),
    ("commands", .object (policy.commands.map fun entry => (entry.1, rolesJson entry.2)))]

theorem normalizeRoleList_rolesJson {roles : List CommandAuthorizationRole} (hne : roles ≠ [])
    (hnodup : roles.Nodup) (fallback : List CommandAuthorizationRole) (label : String) :
    normalizeRoleList (some (rolesJson roles)) fallback label = (roles, []) := by
  have hread : ∀ role : CommandAuthorizationRole,
      roleOf (.string (roleSpelling.write role)) = some role := fun role =>
    roleSpelling.read_write role
  have hroles : (roles.map fun role => JsonValue.string (roleSpelling.write role)).filterMap
      roleOf = roles := by
    rw [List.filterMap_map]
    simp [hread]
  have hignored : (roles.map fun role => JsonValue.string (roleSpelling.write role)).filter
      (fun item => roleOf item = none) = [] := by
    rw [List.filter_eq_nil_iff]
    intro item hitem
    obtain ⟨role, -, rfl⟩ := List.mem_map.mp hitem
    rw [hread]
    exact of_decide_eq_false rfl
  rw [rolesJson, normalizeRoleList, hroles, if_neg hne, hignored, List.map_nil, eraseDups_of_nodup hnodup]

theorem normalizeCommandRoleList_of_settled {entry : String × List CommandAuthorizationRole}
    (h : SettledCommand entry) : normalizeCommandRoleList entry.1 entry.2 = (entry.2, []) := by
  unfold normalizeCommandRoleList
  by_cases hlisted : entry.1 ∈ MAINTAINER_ONLY_DEFAULT_COMMANDS
  · have hall : (entry.2.filter (· ∈ MAINTAINER_COMMAND_AUTHORIZATION_ROLES)).length =
        entry.2.length := by
      rw [List.length_filter_eq_length_iff]
      exact fun role hrole => decide_eq_true (h.clamped hlisted role hrole)
    rw [if_neg (not_not.mpr hlisted), if_pos hall]
  · rw [if_pos hlisted]

theorem normalizeCommand_of_settled {entry : String × List CommandAuthorizationRole}
    (h : SettledCommand entry) (policy : RepositoryCommandAuthorizationPolicy) :
    normalizeCommand ⟨policy, []⟩ (entry.1, rolesJson entry.2) =
      ⟨{ policy with commands := upsert Prod.fst policy.commands entry }, []⟩ := by
  unfold normalizeCommand
  dsimp only
  rw [toLowerCase_trim_of_isCommandName h.name, h.name,
    normalizeRoleList_rolesJson h.nonempty h.nodup, normalizeCommandRoleList_of_settled h]
  rfl

theorem foldl_normalizeCommand_of_settled
    {commands : List (String × List CommandAuthorizationRole)}
    (h : ∀ entry ∈ commands, SettledCommand entry) (policy : RepositoryCommandAuthorizationPolicy) :
    (commands.map fun entry => (entry.1, rolesJson entry.2)).foldl normalizeCommand ⟨policy, []⟩ =
      ⟨{ policy with commands := commands.foldl (upsert Prod.fst) policy.commands }, []⟩ := by
  induction commands generalizing policy with
  | nil => rfl
  | cons entry commands ih =>
    rw [List.forall_mem_cons] at h
    rw [List.map_cons, List.foldl_cons, normalizeCommand_of_settled h.1, ih h.2, List.foldl_cons]

/-- Written over the default commands, the entries of a settled policy are all there is. -/
theorem SettledPolicy.foldl_upsert_commands {policy : RepositoryCommandAuthorizationPolicy}
    (h : SettledPolicy policy) :
    policy.commands.foldl (upsert Prod.fst) DEFAULT_COMMAND_AUTHORIZATION_POLICY.commands =
      policy.commands := by
  obtain ⟨others, hothers⟩ := h.listed
  have hsplit : ∃ first rest, policy.commands = first ++ rest ∧
      first.map Prod.fst = MAINTAINER_ONLY_DEFAULT_COMMANDS := by
    refine ⟨policy.commands.take MAINTAINER_ONLY_DEFAULT_COMMANDS.length,
      policy.commands.drop MAINTAINER_ONLY_DEFAULT_COMMANDS.length,
      (List.take_append_drop _ _).symm, ?_⟩
    rw [List.map_take, ← hothers, List.take_left]
  obtain ⟨first, rest, hcommands, hfirst⟩ := hsplit
  have hdistinct := h.distinct
  rw [hcommands, List.map_append, List.nodup_append] at hdistinct
  rw [hcommands, List.foldl_append]
  have hplaced := @foldl_upsert_of_same_keys _ _ _ Prod.fst first
    DEFAULT_COMMAND_AUTHORIZATION_POLICY.commands [] hfirst settled_default.distinct
  rw [List.nil_append, List.nil_append] at hplaced
  rw [hplaced]
  apply foldl_upsert_of_fresh Prod.fst rest first hdistinct.2.1
  exact fun row hrow stored hstored =>
    hdistinct.2.2 _ (List.mem_map_of_mem hstored) _ (List.mem_map_of_mem hrow)

/-- A settled policy is normalized to itself, without a warning. -/
theorem SettledPolicy.normalize_toJson {policy : RepositoryCommandAuthorizationPolicy}
    (h : SettledPolicy policy) :
    normalizeCommandAuthorizationPolicy (some policy.toJson) = ⟨policy, []⟩ := by
  have hdefault : ([("default", rolesJson policy.default),
      ("commands", JsonValue.object (policy.commands.map fun entry =>
        (entry.1, rolesJson entry.2)))]).lookup "default" = some (rolesJson policy.default) := rfl
  have hcommands : ([("default", rolesJson policy.default),
      ("commands", JsonValue.object (policy.commands.map fun entry =>
        (entry.1, rolesJson entry.2)))]).lookup "commands" =
      some (.object (policy.commands.map fun entry => (entry.1, rolesJson entry.2))) := rfl
  rw [RepositoryCommandAuthorizationPolicy.toJson, normalizeCommandAuthorizationPolicy]
  dsimp only
  rw [hdefault, hcommands, normalizeRoleList_rolesJson h.default_nonempty h.default_nodup]
  dsimp only
  rw [foldl_normalizeCommand_of_settled h.commands, h.foldl_upsert_commands]

/-! ## Decisions -/

section Decisions

variable {lower} {actor : CommandActor} {minerStatus : Option MinerStatus}
variable {policy : Option JsonValue} {commandName : String}

/-- The list of a maintainer-only command never takes the author role in. -/
theorem prAuthor_not_allowed (h : commandName ∈ MAINTAINER_ONLY_DEFAULT_COMMANDS) :
    .prAuthor ∉ commandAuthorizationAllowedRoles policy commandName := by
  have hsettled := settled_normalizeCommandAuthorizationPolicy policy
  unfold commandAuthorizationAllowedRoles
  dsimp only
  rw [mem_dedupeRoles]
  have hkey := hsettled.listed.subset h
  obtain ⟨entry, hentry, rfl⟩ := List.mem_map.mp hkey
  cases hlookup : (normalizeCommandAuthorizationPolicy policy).policy.commands.lookup entry.1 with
  | none =>
    rw [List.lookup_eq_none_iff] at hlookup
    simpa using hlookup entry hentry
  | some roles =>
    obtain ⟨l, r, hsplit, -⟩ := List.lookup_eq_some_iff.mp hlookup
    have hmem : (entry.1, roles) ∈ (normalizeCommandAuthorizationPolicy policy).policy.commands := by
      rw [hsplit]
      exact List.mem_append_right _ (List.mem_cons_self ..)
    intro hrole
    have hclamped := (hsettled.commands _ hmem).clamped h .prAuthor hrole
    exact absurd hclamped (by decide)

theorem authorized_iff :
    (evaluateCommandAuthorization lower policy commandName actor minerStatus).authorized = true ↔
      ∃ role ∈ actorRoles lower actor minerStatus,
        role ∈ commandAuthorizationAllowedRoles policy commandName := by
  unfold evaluateCommandAuthorization
  dsimp only
  split
  · rename_i role hfind
    have hallowed := List.find?_some hfind
    rw [List.contains_iff_mem] at hallowed
    exact iff_of_true rfl ⟨role, List.mem_of_find?_eq_some hfind, hallowed⟩
  · rename_i hfind
    rw [List.find?_eq_none] at hfind
    have hnone : ¬ ∃ role ∈ actorRoles lower actor minerStatus,
        role ∈ commandAuthorizationAllowedRoles policy commandName := by
      rintro ⟨role, hrole, hallowed⟩
      exact hfind role hrole (List.contains_iff_mem.mpr hallowed)
    refine iff_of_false ?_ hnone
    split_ifs <;> exact not_false

theorem mem_actorRoles_iff {role : CommandAuthorizationRole} :
    role ∈ actorRoles lower actor minerStatus ↔
      (role = .maintainer ∧ (actor.commenterAssociation = some "OWNER" ∨
        actor.commenterAssociation = some "MEMBER")) ∨
      (role = .collaborator ∧ actor.commenterAssociation = some "COLLABORATOR") ∨
      (isSameLogin lower actor.commenterLogin actor.pullRequestAuthorLogin = true ∧
        (role = .prAuthor ∨ (role = .confirmedMiner ∧ minerStatus = some .confirmed))) := by
  unfold actorRoles
  rw [List.mem_append, List.mem_append, or_assoc]
  split_ifs <;> simp_all

/-- The outsider's roles: at most the author's. -/
theorem eq_prAuthor_of_mem_actorRoles {role : CommandAuthorizationRole}
    (hassociation : ∀ association ∈ actor.commenterAssociation,
      association ∉ ["OWNER", "MEMBER", "COLLABORATOR"])
    (hminer : minerStatus ≠ some .confirmed) (h : role ∈ actorRoles lower actor minerStatus) :
    role = .prAuthor := by
  have hnot : ∀ name ∈ ["OWNER", "MEMBER", "COLLABORATOR"],
      actor.commenterAssociation ≠ some name := fun name hname hsome =>
    hassociation name hsome hname
  rcases mem_actorRoles_iff.mp h with ⟨-, howner | hmember⟩ | ⟨-, hcollaborator⟩ | ⟨-, hrole⟩
  · exact absurd howner (hnot _ (by decide))
  · exact absurd hmember (hnot _ (by decide))
  · exact absurd hcollaborator (hnot _ (by decide))
  · exact hrole.resolve_right fun hconfirmed => hminer hconfirmed.2

/-- Confirmation adds one role, for the author of the pull request. -/
theorem mem_actorRoles_confirmed_iff {role : CommandAuthorizationRole} :
    role ∈ actorRoles lower actor (some .confirmed) ↔ role ∈ actorRoles lower actor none ∨
      (role = .confirmedMiner ∧
        isSameLogin lower actor.commenterLogin actor.pullRequestAuthorLogin = true) := by
  rw [mem_actorRoles_iff, mem_actorRoles_iff]
  simp only [reduceCtorEq, and_false, or_false, and_true]
  tauto

theorem needsMinerDetection_iff :
    commandAuthorizationNeedsMinerDetection lower policy commandName actor = true ↔
      .confirmedMiner ∈ commandAuthorizationAllowedRoles policy commandName ∧
      isSameLogin lower actor.commenterLogin actor.pullRequestAuthorLogin = true ∧
      (evaluateCommandAuthorization lower policy commandName actor none).authorized = false := by
  rw [← Bool.not_eq_true (evaluateCommandAuthorization _ _ _ _ _).authorized, authorized_iff]
  unfold commandAuthorizationNeedsMinerDetection
  dsimp only
  split_ifs with hminer hsame
  · simpa using fun h => absurd h (by simpa using hminer)
  · simp_all
  · simp_all

theorem needsMinerDetection_iff_differs :
    commandAuthorizationNeedsMinerDetection lower policy commandName actor = true ↔
      (evaluateCommandAuthorization lower policy commandName actor none).authorized ≠
        (evaluateCommandAuthorization lower policy commandName actor
          (some .confirmed)).authorized := by
  have hconfirmed : (evaluateCommandAuthorization lower policy commandName actor
      (some .confirmed)).authorized = true ↔
      (evaluateCommandAuthorization lower policy commandName actor none).authorized = true ∨
        (.confirmedMiner ∈ commandAuthorizationAllowedRoles policy commandName ∧
          isSameLogin lower actor.commenterLogin actor.pullRequestAuthorLogin = true) := by
    rw [authorized_iff, authorized_iff]
    simp only [mem_actorRoles_confirmed_iff]
    constructor
    · rintro ⟨role, hrole | ⟨rfl, hsame⟩, hallowed⟩
      · exact Or.inl ⟨role, hrole, hallowed⟩
      · exact Or.inr ⟨hallowed, hsame⟩
    · rintro (⟨role, hrole, hallowed⟩ | ⟨hallowed, hsame⟩)
      · exact ⟨role, Or.inl hrole, hallowed⟩
      · exact ⟨.confirmedMiner, Or.inr ⟨rfl, hsame⟩, hallowed⟩
  rw [needsMinerDetection_iff]
  cases hbefore : (evaluateCommandAuthorization lower policy commandName actor none).authorized with
  | true =>
    have hafter := hconfirmed.mpr (Or.inl hbefore)
    simp [hafter]
  | false =>
    rw [hbefore] at hconfirmed
    simp only [Bool.false_eq_true, false_or] at hconfirmed
    rw [ne_comm, ne_eq, Bool.not_eq_false, hconfirmed]
    tauto

end Decisions

theorem maintainer_commands_stay (lower : String → String) :
    (∀ policy commandName actor minerStatus,
      commandName ∈ DEFAULT_COMMAND_AUTHORIZATION_POLICY.commands.map Prod.fst →
      (∀ association ∈ actor.commenterAssociation,
        association ∉ ["OWNER", "MEMBER", "COLLABORATOR"]) →
      minerStatus ≠ some .confirmed →
      (evaluateCommandAuthorization lower policy commandName actor minerStatus).authorized =
        false) ∧
    (∀ policy, normalizeCommandAuthorizationPolicy
        (some (normalizeCommandAuthorizationPolicy policy).policy.toJson) =
      ⟨(normalizeCommandAuthorizationPolicy policy).policy, []⟩) ∧
    ∀ policy commandName actor,
      commandAuthorizationNeedsMinerDetection lower policy commandName actor = true ↔
        (evaluateCommandAuthorization lower policy commandName actor none).authorized ≠
          (evaluateCommandAuthorization lower policy commandName actor
            (some .confirmed)).authorized := by
  refine ⟨?_, ?_, ?_⟩
  · intro policy commandName actor minerStatus hlisted hassociation hminer
    rw [← Bool.not_eq_true, authorized_iff]
    rintro ⟨role, hrole, hallowed⟩
    rw [eq_prAuthor_of_mem_actorRoles hassociation hminer hrole] at hallowed
    exact prAuthor_not_allowed hlisted hallowed
  · exact fun policy => (settled_normalizeCommandAuthorizationPolicy policy).normalize_toJson
  · exact fun policy commandName actor => needsMinerDetection_iff_differs

/-- A policy that lets authors override the gate. -/
def wideningPolicy : JsonValue :=
  .object [("commands", .object [(" Gate-Override", rolesJson [.prAuthor]),
    ("explain", rolesJson [.prAuthor])])]

/-- The author of the pull request, who is nobody else. -/
def authorOnly : CommandActor where
  commenterLogin := some "Octocat"
  commenterAssociation := some "CONTRIBUTOR"
  pullRequestAuthorLogin := some "octocat"

theorem override_refused :
    (evaluateCommandAuthorization toLowerCase (some wideningPolicy) "explain" authorOnly
      none).authorized = true ∧
    (evaluateCommandAuthorization toLowerCase (some wideningPolicy) "gate-override" authorOnly
      none).authorized = false := by
  refine ⟨by decide +kernel, ?_⟩
  exact (maintainer_commands_stay toLowerCase).1 (some wideningPolicy) "gate-override" authorOnly
    none (by decide) (by simp [authorOnly]) (by decide)

end Gittensory.CommandAuthorization
