import Gittensory.Frontmatter
import Mathlib.Data.List.DropRight
import Mathlib.Tactic.IntervalCases

/-!
The changelog of a release (`renderMcpChangelog`). The title is taken off, the section of the
target version is written anew in front, and what stood behind is kept. On the second run the
new section is in front, and everything up to the next line with `## ` counts as a part of
it: what the text is written behind its title, ahead of its first section, is kept by the
first run and dropped by the second.
-/
namespace Gittensory.ReleaseChangelog

open CodeUnits Frontmatter

section Model

def carriageReturn : ℕ := 13

/-- The upper case of a unit; it has no white space unless the unit is white space. -/
structure UpperCase where
  form : ℕ → Units
  ink : ∀ unit, isSpace unit = false → ∀ other ∈ form unit, isSpace other = false

structure Commit where
  sha : Option Units
  subject : Option Units
  deriving DecidableEq, Repr

/-! ## Commit subjects -/

structure ConventionalSubject where
  type : Option Units
  scope : Option Units
  breaking : Bool
  description : Units
  conventional : Bool
  deriving DecidableEq, Repr

def isLowerLetter (unit : ℕ) : Bool := 97 ≤ unit && unit ≤ 122

/-- `(?:\((?<scope>[^)]+)\))?`; `none` where the parentheses do not match. -/
def readScope : Units → Option (Option Units × Units)
  | 40 :: rest =>
      match rest.dropWhile (· ≠ 41) with
      | [] => none
      | _ :: behind =>
          if rest.takeWhile (· ≠ 41) = [] then none
          else some (some (rest.takeWhile (· ≠ 41)), behind)
  | rest => some (none, rest)

def readBreaking : Units → Bool × Units
  | 33 :: rest => (true, rest)
  | rest => (false, rest)

/-- `:\s*(?<description>.+)$` -/
def readDescription : Units → Option Units
  | 58 :: rest =>
      if rest.dropWhile isSpace ≠ [] ∧ (rest.dropWhile isSpace).all isDot then
        some (rest.dropWhile isSpace)
      else none
  | _ => none

def readConventional (trimmed : Units) : Option ConventionalSubject := do
  let type := trimmed.takeWhile isLowerLetter
  if type = [] then none else do
    let (scope, behindScope) ← readScope (trimmed.dropWhile isLowerLetter)
    let (breaking, behindBreaking) := readBreaking behindScope
    let description ← readDescription behindBreaking
    return ⟨some type, scope, breaking, trim description, true⟩

def isWordUnit (unit : ℕ) : Bool := isLetter unit || isDigit unit || unit = 95

/-- `/^fix\b/i` -/
def startsWithFix : Units → Bool
  | f :: i :: x :: rest =>
      (f = 70 || f = 102) && (i = 73 || i = 105) && (x = 88 || x = 120) &&
        !rest.head?.any isWordUnit
  | _ => false

/-- `[:\s-]` -/
def isFixMark (unit : ℕ) : Bool := unit = 58 || isSpace unit || unit = 45

/-- `left || right` -/
def orText (left right : Units) : Units := if left ≠ [] then left else right

def parseConventionalSubject (subject : Units) : ConventionalSubject :=
  let trimmed := trim subject
  match readConventional trimmed with
  | some parsed => parsed
  | none =>
      if startsWithFix trimmed then
        ⟨some (units "fix"), none, false,
          orText (trim ((trimmed.drop 3).dropWhile isFixMark)) trimmed, false⟩
      else ⟨none, none, false, trimmed, false⟩

def shortSha (sha : Option Units) : Units := (sha.getD []).take 7

variable (upper : UpperCase)

def upperFirst (value : Units) : Units :=
  match trim value with
  | [] => []
  | unit :: rest => upper.form unit ++ rest

def formatCommitForChangelog (commit : Commit) : Units :=
  let parsed := parseConventionalSubject (commit.subject.getD [])
  upperFirst upper
    (orText parsed.description (orText (commit.subject.getD []) (shortSha commit.sha)))

/-! ## The section -/

inductive Group where
  | features
  | fixes
  | security
  | ci
  | build
  | docs
  | tests
  | refactors
  | dependencies
  | chores
  | reverts
  deriving DecidableEq, Repr

def Group.name : Group → String
  | .features => "Features"
  | .fixes => "Fixes"
  | .security => "Security"
  | .ci => "CI"
  | .build => "Build"
  | .docs => "Docs"
  | .tests => "Tests"
  | .refactors => "Refactors"
  | .dependencies => "Dependencies"
  | .chores => "Chores"
  | .reverts => "Reverts"

def GROUP_ORDER : List Group :=
  [.features, .fixes, .security, .ci, .build, .docs, .tests, .refactors, .dependencies, .chores,
    .reverts]

def groupForCommit (commit : Commit) : Group :=
  let parsed := parseConventionalSubject (commit.subject.getD [])
  if parsed.scope = some (units "security") then .security
  else if parsed.type = some (units "feat") then .features
  else if parsed.type = some (units "fix") then .fixes
  else if parsed.type = some (units "ci") then .ci
  else if parsed.type = some (units "build") then .build
  else if parsed.type = some (units "docs") then .docs
  else if parsed.type = some (units "test") then .tests
  else if parsed.type = some (units "refactor") then .refactors
  else if parsed.type = some (units "chore") ∧ parsed.scope = some (units "deps") then
    .dependencies
  else if parsed.type = some (units "chore") then .chores
  else if parsed.type = some (units "revert") then .reverts
  else .chores

def groupCommits (commits : List Commit) (group : Group) : List Commit :=
  commits.filter (groupForCommit · = group)

def heading : Units := units "## "

def groupRows (commits : List Commit) (group : Group) : List Units :=
  if groupCommits commits group = [] then []
  else [] :: (units "### " ++ units group.name) ::
    (groupCommits commits group).map fun commit =>
      units "- " ++ formatCommitForChangelog upper commit

/-- The lines of a section behind its header. -/
def sectionRows (commits : List Commit) : List Units :=
  GROUP_ORDER.flatMap (groupRows upper commits) ++
    if GROUP_ORDER.all (groupCommits commits · = []) then
      [[], units "### Chores", units "- Prepare MCP release metadata"]
    else []

def headerLead (tag : Units) : Units := heading ++ tag ++ units " - "

def renderReleaseSection (tag generatedAt : Units) (commits : List Commit) : Units :=
  [newline].intercalate ((headerLead tag ++ generatedAt) :: sectionRows upper commits)

/-! ## The changelog -/

/-- `value.replace(/\r\n/g, "\n")` -/
def normalizeNewlines : Units → Units
  | [] => []
  | unit :: rest =>
      if unit = carriageReturn ∧ rest.head? = some newline then normalizeNewlines rest
      else unit :: normalizeNewlines rest

def trimEnd (text : Units) : Units := text.rdropWhile isSpace

def title : Units := units "# Changelog"

/-- `text.replace(/^# Changelog\s*/m, "")`, where a line starts or goes on. -/
def removeTitle : Bool → Units → Units
  | _, [] => []
  | starts, unit :: rest =>
      if starts = true ∧ title <+: unit :: rest then
        ((unit :: rest).drop title.length).dropWhile isSpace
      else unit :: removeTitle (!isDot unit) rest

def bodyOf (existingChangelog : Units) : Units :=
  let normalizedExisting := trimEnd (normalizeNewlines existingChangelog)
  if title ++ [newline] <+: normalizedExisting then
    (normalizedExisting.drop title.length).dropWhile (· = newline)
  else (removeTitle true normalizedExisting).dropWhile isSpace

/-- What stands behind the target's header line at the front of a text, for
`/^## tag - .+$/m`. -/
def behindHeader (tag text : Units) : Option Units :=
  if headerLead tag <+: text then
    match text.drop (headerLead tag).length with
    | [] => none
    | unit :: rest => if isDot unit then some ((unit :: rest).dropWhile isDot) else none
  else none

/-- The text from the next line on that begins a section. -/
def nextSection : Units → Option Units
  | [] => none
  | unit :: rest => if unit = newline ∧ heading <+: rest then some rest else nextSection rest

def header : Units := title ++ [newline, newline]

def targetTag (targetVersion : Units) : Units := units "mcp-v" ++ targetVersion

def renderMcpChangelog (existingChangelog targetVersion generatedAt : Units)
    (commits : List Commit) : Units :=
  let body := bodyOf existingChangelog
  let newSection := renderReleaseSection upper (targetTag targetVersion) generatedAt commits
  match behindHeader (targetTag targetVersion) body with
  | some behind =>
      match nextSection behind with
      | none => header ++ newSection ++ [newline]
      | some next => header ++ newSection ++ [newline, newline] ++ next ++ [newline]
  | none =>
      if trim body ≠ [] then header ++ newSection ++ [newline, newline] ++ body ++ [newline]
      else header ++ newSection ++ [newline]

end Model

section Lines

/-! ## Line breaks -/

theorem head?_normalizeNewlines {text : Units} (h : text.head? = some newline) :
    (normalizeNewlines text).head? = some newline := by
  obtain ⟨rest, rfl⟩ := List.head?_eq_some_iff.mp h
  rw [normalizeNewlines, if_neg fun hbreak => by cases hbreak.1]
  rfl

theorem normalizeNewlines_newline (rest : Units) :
    normalizeNewlines (newline :: rest) = newline :: normalizeNewlines rest := by
  rw [normalizeNewlines, if_neg fun h => by cases h.1]

theorem normalizeNewlines_append {left right : Units}
    (h : left.getLast? ≠ some carriageReturn ∨ right.head? ≠ some newline) :
    normalizeNewlines (left ++ right) = normalizeNewlines left ++ normalizeNewlines right := by
  induction left with
  | nil => rfl
  | cons unit left ih =>
    cases left with
    | nil =>
      have hsingle : ¬(unit = carriageReturn ∧ right.head? = some newline) := fun hbreak =>
        h.elim (fun hlast => hlast (by rw [hbreak.1]; rfl)) fun hhead => hhead hbreak.2
      have hunit : normalizeNewlines [unit] = [unit] := by
        rw [normalizeNewlines, if_neg fun hbreak => by cases hbreak.2]
        rfl
      rw [hunit, List.singleton_append, normalizeNewlines, if_neg hsingle]
      rfl
    | cons next left =>
      have ih := ih (by rwa [List.getLast?_cons_cons] at h)
      rw [List.cons_append, normalizeNewlines, normalizeNewlines]
      by_cases hbreak : unit = carriageReturn ∧ (next :: left).head? = some newline
      · have hbreak' : unit = carriageReturn ∧ (next :: left ++ right).head? = some newline :=
          hbreak
        rw [if_pos hbreak, if_pos hbreak', ih]
      · have hbreak' : ¬(unit = carriageReturn ∧ (next :: left ++ right).head? = some newline) :=
          hbreak
        rw [if_neg hbreak, if_neg hbreak', ih]
        rfl

/-- The units that are no `\r`, of which normalizing takes none away. -/
def weight (text : Units) : ℕ := (text.filter (· ≠ carriageReturn)).length

theorem weight_append (left right : Units) :
    weight (left ++ right) = weight left + weight right := by
  rw [weight, List.filter_append, List.length_append]
  rfl

theorem weight_cons {unit : ℕ} (h : unit ≠ carriageReturn) (rest : Units) :
    weight (unit :: rest) = weight rest + 1 := by
  rw [weight, List.filter_cons_of_pos (by simpa using h)]
  rfl

theorem weight_normalizeNewlines (text : Units) :
    weight (normalizeNewlines text) = weight text := by
  induction text with
  | nil => rfl
  | cons unit rest ih =>
    rw [normalizeNewlines]
    split_ifs with hbreak
    · rw [ih, hbreak.1]
      rfl
    · unfold weight at ih ⊢
      rw [List.filter_cons, List.filter_cons]
      split_ifs
      · rw [List.length_cons, List.length_cons, ih]
      · exact ih

/-! ## Section headers -/

/-- Nothing that could go on with a header begun before. -/
def Stops (text : Units) : Prop := ∀ unit, text.head? = some unit → unit ∉ heading

theorem stops_newline (rest : Units) : Stops (newline :: rest) := by
  intro unit h
  obtain rfl := Option.some.inj h
  decide

theorem stops_nil : Stops [] := fun _ h => by cases h

theorem stops_dash (rest : Units) : Stops (45 :: rest) := by
  intro unit h
  obtain rfl := Option.some.inj h
  decide

theorem heading_append_iff {left right : Units} (h : Stops right) :
    heading <+: left ++ right ↔ heading <+: left := by
  refine ⟨fun hprefix => ?_, fun hprefix => hprefix.trans (List.prefix_append left right)⟩
  obtain ⟨behind, hcut⟩ := hprefix
  rcases List.append_eq_append_iff.mp hcut with ⟨rest, hleft, -⟩ | ⟨rest, hheading, hright⟩
  · exact ⟨rest, hleft.symm⟩
  · cases rest with
    | nil =>
      rw [List.append_nil] at hheading
      exact hheading ▸ List.prefix_rfl
    | cons unit rest =>
      rw [hright] at h
      exact absurd (hheading ▸ List.mem_append_right left List.mem_cons_self) (h unit rfl)

theorem nextSection_append (left : Units) {right : Units} (h : Stops right) :
    nextSection (left ++ right) = ((nextSection left).map (· ++ right)).or (nextSection right) := by
  induction left with
  | nil => rfl
  | cons unit left ih =>
    rw [List.cons_append, nextSection, nextSection]
    by_cases hnext : unit = newline ∧ heading <+: left
    · rw [if_pos hnext, if_pos ⟨hnext.1, (heading_append_iff h).mpr hnext.2⟩]
      rfl
    · rw [if_neg hnext, if_neg fun h' => hnext ⟨h'.1, (heading_append_iff h).mp h'.2⟩]
      exact ih

theorem nextSection_newline {rest : Units} (h : ¬heading <+: rest) :
    nextSection (newline :: rest) = nextSection rest := by
  rw [nextSection, if_neg fun hnext => h hnext.2]

theorem heading_of_nextSection {text next : Units} (h : nextSection text = some next) :
    heading <+: next := by
  induction text with
  | nil => cases h
  | cons unit rest ih =>
    rw [nextSection] at h
    split_ifs at h with hnext
    · obtain rfl := Option.some.inj h
      exact hnext.2
    · exact ih h

theorem exists_of_nextSection {text next : Units} (h : nextSection text = some next) :
    ∃ front, text = front ++ newline :: next := by
  induction text with
  | nil => cases h
  | cons unit rest ih =>
    rw [nextSection] at h
    split_ifs at h with hnext
    · obtain rfl := Option.some.inj h
      exact ⟨[], by rw [hnext.1]; rfl⟩
    · obtain ⟨front, rfl⟩ := ih h
      exact ⟨unit :: front, rfl⟩

theorem weight_nextSection {text next : Units} (h : nextSection text = some next) :
    weight next < weight text := by
  obtain ⟨front, rfl⟩ := exists_of_nextSection h
  rw [weight_append, weight_cons (by decide)]
  omega

theorem nextSection_dropWhile_isDot (text : Units) :
    nextSection (text.dropWhile isDot) = nextSection text := by
  induction text with
  | nil => rfl
  | cons unit rest ih =>
    by_cases hdot : isDot unit = true
    · have hunit : ¬(unit = newline ∧ heading <+: rest) := by
        rintro ⟨rfl, -⟩
        cases hdot
      rw [List.dropWhile_cons_of_pos hdot, ih, nextSection, if_neg hunit]
    · rw [List.dropWhile_cons_of_neg hdot]

/-- A header of the normalized text is one of the text. -/
theorem prefix_of_normalizeNewlines {lead text : Units} (hlead : newline ∉ lead)
    (h : lead <+: normalizeNewlines text) : lead <+: text := by
  induction text generalizing lead with
  | nil => exact h
  | cons unit rest ih =>
    rw [normalizeNewlines] at h
    split_ifs at h with hbreak
    · cases lead with
      | nil => exact List.nil_prefix
      | cons other lead =>
        have hhead := head?_normalizeNewlines hbreak.2
        obtain ⟨behind, hcut⟩ := h
        rw [← hcut] at hhead
        exact absurd (Option.some.inj hhead).symm (List.ne_of_not_mem_cons hlead)
    · cases lead with
      | nil => exact List.nil_prefix
      | cons other lead =>
        obtain ⟨rfl, hrest⟩ := List.cons_prefix_cons.mp h
        exact List.cons_prefix_cons.mpr ⟨rfl, ih (List.not_mem_of_not_mem_cons hlead) hrest⟩

end Lines

section Rows

/-- A line behind the first one begins as a section does. -/
def opensSection (text : Units) : Bool := (nextSection (normalizeNewlines text)).isSome

/-- What may stand behind a line. -/
def Follows (text : Units) : Prop := text = [] ∨ text.head? = some newline

theorem Follows.stops {text : Units} (h : Follows text) : Stops text := by
  rcases h with rfl | h
  · exact stops_nil
  · obtain ⟨rest, rfl⟩ := List.head?_eq_some_iff.mp h
    exact stops_newline rest

theorem Follows.normalized {text : Units} (h : Follows text) :
    Follows (normalizeNewlines text) :=
  h.imp (fun hnil => by rw [hnil]; rfl) head?_normalizeNewlines

/-- A line and what is behind it are normalized apart, but for a `\r` between them. -/
theorem exists_normalized (row rest : Units) :
    ∃ front, normalizeNewlines (row ++ rest) = front ++ normalizeNewlines rest ∧
      (nextSection front).isSome = opensSection row := by
  by_cases hapart : row.getLast? ≠ some carriageReturn ∨ rest.head? ≠ some newline
  · exact ⟨_, normalizeNewlines_append hapart, rfl⟩
  · rw [not_or, not_not, not_not] at hapart
    obtain ⟨hlast, hhead⟩ := hapart
    obtain ⟨front, rfl⟩ := List.getLast?_eq_some_iff.mp hlast
    have hreturn : normalizeNewlines [carriageReturn] = [carriageReturn] := rfl
    have hstops : Stops [carriageReturn] := by
      intro unit hunit
      obtain rfl := Option.some.inj hunit
      decide
    refine ⟨normalizeNewlines front, ?_, ?_⟩
    · rw [List.append_assoc, List.singleton_append,
        normalizeNewlines_append (.inr fun hnewline => by cases hnewline),
        normalizeNewlines.eq_2 carriageReturn, if_pos ⟨rfl, hhead⟩]
    · rw [opensSection, normalizeNewlines_append (.inr (by decide)), hreturn,
        nextSection_append _ hstops]
      cases nextSection (normalizeNewlines front) <;> rfl

/-- Where no line of a text opens a section, the next one is behind the text. -/
theorem nextSection_closed {row rest : Units} (h : Follows rest) (hrow : opensSection row = false) :
    nextSection (normalizeNewlines (row ++ rest)) = nextSection (normalizeNewlines rest) := by
  obtain ⟨front, hfront, hopens⟩ := exists_normalized row rest
  rw [hrow, Option.isSome_eq_false_iff, Option.isNone_iff_eq_none] at hopens
  rw [hfront, nextSection_append _ h.normalized.stops, hopens]
  rfl

theorem nextSection_open {row rest : Units} (h : Follows rest) (hrow : opensSection row = true) :
    ∃ front, nextSection (normalizeNewlines (row ++ rest)) =
      some (front ++ normalizeNewlines rest) := by
  obtain ⟨front, hfront, hopens⟩ := exists_normalized row rest
  rw [hrow] at hopens
  obtain ⟨next, hnext⟩ := Option.isSome_iff_exists.mp hopens
  refine ⟨next, ?_⟩
  rw [hfront, nextSection_append _ h.normalized.stops, hnext]
  rfl

/-- The rows, each behind a line break. -/
def rowsText (rows : List Units) : Units := rows.flatMap (newline :: ·)

theorem follows_rowsText (rows : List Units) {tail : Units} (h : Follows tail) :
    Follows (rowsText rows ++ tail) := by
  cases rows with
  | nil => exact h
  | cons row rows => exact .inr rfl

theorem nextSection_row {row rest : Units} (h : Follows rest) (hrow : ¬heading <+: row) :
    nextSection (normalizeNewlines (newline :: row ++ rest)) =
      nextSection (normalizeNewlines (row ++ rest)) := by
  have hnewline : normalizeNewlines (newline :: row ++ rest) =
      newline :: normalizeNewlines (row ++ rest) := normalizeNewlines_newline _
  rw [hnewline, nextSection_newline]
  intro hheading
  exact hrow ((heading_append_iff h.stops).mp (prefix_of_normalizeNewlines (by decide) hheading))

theorem nextSection_closedRows {rows : List Units} {tail : Units} (h : Follows tail)
    (hrows : ∀ row ∈ rows, ¬heading <+: row) (hclosed : ∀ row ∈ rows, opensSection row = false) :
    nextSection (normalizeNewlines (rowsText rows ++ tail)) =
      nextSection (normalizeNewlines tail) := by
  induction rows with
  | nil => rfl
  | cons row rows ih =>
    obtain ⟨hrow, hrows⟩ := List.forall_mem_cons.mp hrows
    obtain ⟨hrowClosed, hclosed⟩ := List.forall_mem_cons.mp hclosed
    have hcut : rowsText (row :: rows) ++ tail = newline :: row ++ (rowsText rows ++ tail) := by
      rw [rowsText, List.flatMap_cons, List.append_assoc]
      rfl
    have hfollows := follows_rowsText rows h
    rw [hcut, nextSection_row hfollows hrow, nextSection_closed hfollows hrowClosed,
      ih hrows hclosed]

theorem nextSection_openRows {rows : List Units} {tail : Units} (h : Follows tail)
    (hrows : ∀ row ∈ rows, ¬heading <+: row) (hopen : ∃ row ∈ rows, opensSection row = true) :
    ∃ front, nextSection (normalizeNewlines (rowsText rows ++ tail)) =
      some (front ++ normalizeNewlines tail) := by
  induction rows with
  | nil =>
    obtain ⟨row, hmem, -⟩ := hopen
    cases hmem
  | cons row rows ih =>
    obtain ⟨hrow, hrows⟩ := List.forall_mem_cons.mp hrows
    have hcut : rowsText (row :: rows) ++ tail = newline :: row ++ (rowsText rows ++ tail) := by
      rw [rowsText, List.flatMap_cons, List.append_assoc]
      rfl
    have hfollows := follows_rowsText rows h
    rw [hcut, nextSection_row hfollows hrow]
    cases hrowOpens : opensSection row with
    | true =>
      obtain ⟨front, hfront⟩ := nextSection_open hfollows hrowOpens
      obtain ⟨behind, hbehind, -⟩ := exists_normalized (rowsText rows) tail
      exact ⟨front ++ behind, by rw [hfront, hbehind, List.append_assoc]⟩
    | false =>
      rw [nextSection_closed hfollows hrowOpens]
      refine ih hrows ?_
      obtain ⟨other, hmem, hother⟩ := hopen
      rcases List.mem_cons.mp hmem with rfl | hmem
      · rw [hrowOpens] at hother
        cases hother
      · exact ⟨other, hmem, hother⟩

variable (upper : UpperCase)

/-! ## The rows of a section -/

theorem renderReleaseSection_eq (tag date : Units) (commits : List Commit) :
    renderReleaseSection upper tag date commits =
      headerLead tag ++ date ++ rowsText (sectionRows upper commits) := by
  have hjoin : ∀ (first : Units) (rows : List Units),
      [newline].intercalate (first :: rows) = first ++ rowsText rows := fun first rows => by
    induction rows generalizing first with
    | nil => simp [rowsText]
    | cons row rows ih =>
      rw [List.intercalate_cons_cons, ih, rowsText, rowsText, List.flatMap_cons]
      simp
  exact hjoin _ _

/-- A row of a section: blank, the name of a group, or an item. -/
inductive SectionRow (commits : List Commit) : Units → Prop
  | blank : SectionRow commits []
  | group (group : Group) : SectionRow commits (units "### " ++ units group.name)
  | commit (commit : Commit) : commit ∈ commits →
      SectionRow commits (units "- " ++ formatCommitForChangelog upper commit)
  | prepare : SectionRow commits (units "- Prepare MCP release metadata")

theorem sectionRow_of_mem {commits : List Commit} {row : Units}
    (h : row ∈ sectionRows upper commits) : SectionRow upper commits row := by
  rcases List.mem_append.mp h with hmem | hmem
  · obtain ⟨group, -, hrow⟩ := List.mem_flatMap.mp hmem
    rw [groupRows] at hrow
    split_ifs at hrow with hempty
    · cases hrow
    · rcases List.mem_cons.mp hrow with rfl | hrow
      · exact .blank
      rcases List.mem_cons.mp hrow with rfl | hrow
      · exact .group group
      · obtain ⟨commit, hcommit, rfl⟩ := List.mem_map.mp hrow
        exact .commit commit (List.mem_of_mem_filter hcommit)
  · split_ifs at hmem
    · rcases List.mem_cons.mp hmem with rfl | hmem
      · exact .blank
      rcases List.mem_cons.mp hmem with rfl | hmem
      · exact .group .chores
      · rw [List.mem_singleton.mp hmem]
        exact .prepare
    · cases hmem

theorem opensSection_item (text : Units) :
    opensSection (units "- " ++ text) = opensSection text := by
  have hnormal : normalizeNewlines (units "- ") = units "- " := rfl
  rw [opensSection, normalizeNewlines_append (.inl (by decide)), hnormal]
  rfl

theorem SectionRow.not_heading {commits : List Commit} {row : Units}
    (h : SectionRow upper commits row) : ¬heading <+: row := by
  have hhead : ∀ {unit : ℕ} {rest : Units}, unit ≠ 35 → ¬heading <+: unit :: rest :=
    fun hunit hprefix => hunit (List.cons_prefix_cons.mp hprefix).1.symm
  cases h with
  | blank => decide
  | group group => cases group <;> decide
  | commit commit _ => exact hhead (by decide)
  | prepare => decide

theorem SectionRow.opens {commits : List Commit} {row : Units} (h : SectionRow upper commits row)
    (hopens : opensSection row = true) :
    ∃ commit ∈ commits, opensSection (formatCommitForChangelog upper commit) = true := by
  cases h with
  | blank => cases hopens
  | group group => cases group <;> cases hopens
  | commit commit hmem =>
    rw [opensSection_item] at hopens
    exact ⟨commit, hmem, hopens⟩
  | prepare => cases hopens

theorem mem_sectionRows {commits : List Commit} {commit : Commit} (h : commit ∈ commits) :
    units "- " ++ formatCommitForChangelog upper commit ∈ sectionRows upper commits := by
  refine List.mem_append_left _ (List.mem_flatMap.mpr ⟨groupForCommit commit, ?_, ?_⟩)
  · cases groupForCommit commit <;> decide
  · have hmem : commit ∈ groupCommits commits (groupForCommit commit) :=
      List.mem_filter.mpr ⟨h, decide_eq_true rfl⟩
    rw [groupRows, if_neg (List.ne_nil_of_mem hmem)]
    exact List.mem_cons_of_mem _ (List.mem_cons_of_mem _ (List.mem_map_of_mem hmem))

theorem opensRow_iff (commits : List Commit) :
    (∃ row ∈ sectionRows upper commits, opensSection row = true) ↔
      ∃ commit ∈ commits, opensSection (formatCommitForChangelog upper commit) = true := by
  constructor
  · rintro ⟨row, hmem, hopens⟩
    exact (sectionRow_of_mem upper hmem).opens upper hopens
  · rintro ⟨commit, hmem, hopens⟩
    exact ⟨_, mem_sectionRows upper hmem, by rwa [opensSection_item]⟩

end Rows

section SecondRun

/-! ## The end of a text -/

theorem trimEnd_append {front space : Units} {unit : ℕ} (hunit : isSpace unit = false)
    (hspace : ∀ other ∈ space, isSpace other = true) :
    trimEnd (front ++ unit :: space) = front ++ [unit] := by
  have hcut : front ++ unit :: space = front ++ [unit] ++ space := by simp
  rw [trimEnd, List.rdropWhile, hcut, List.reverse_append, List.dropWhile_append_of_pos, 
    List.reverse_append, List.reverse_singleton, List.singleton_append, List.dropWhile_cons_of_neg,
    List.reverse_cons, List.reverse_reverse]
  · rw [hunit]
    exact Bool.false_ne_true
  · intro other hmem
    exact hspace other (List.mem_reverse.mp hmem)

theorem mem_of_mem_normalizeNewlines {text : Units} {unit : ℕ}
    (h : unit ∈ normalizeNewlines text) : unit ∈ text := by
  induction text with
  | nil => exact h
  | cons other rest ih =>
    rw [normalizeNewlines] at h
    split_ifs at h
    · exact List.mem_cons_of_mem _ (ih h)
    · exact (List.mem_cons.mp h).elim (fun heq => heq ▸ List.mem_cons_self)
        fun hmem => List.mem_cons_of_mem _ (ih hmem)

theorem ne_of_ink {unit : ℕ} (h : isSpace unit = false) :
    unit ≠ newline ∧ unit ≠ carriageReturn := by
  constructor <;> rintro rfl <;> cases h

theorem normalizeNewlines_cons {unit : ℕ} (h : isSpace unit = false) (rest : Units) :
    normalizeNewlines (unit :: rest) = unit :: normalizeNewlines rest := by
  rw [normalizeNewlines, if_neg fun hbreak => (ne_of_ink h).2 hbreak.1]

theorem normalizeNewlines_ink (front : Units) {unit : ℕ} (h : isSpace unit = false)
    (rest : Units) : normalizeNewlines (front ++ unit :: rest) =
      normalizeNewlines front ++ unit :: normalizeNewlines rest := by
  have hhead : (unit :: rest).head? ≠ some newline := fun hhead =>
    (ne_of_ink h).1 (Option.some.inj hhead)
  rw [normalizeNewlines_append (.inr hhead), normalizeNewlines_cons h]

/-- What is behind the last ink of a text is trimmed, before or behind normalizing. -/
theorem trimEnd_normalizeNewlines {front space : Units} {unit : ℕ} (hunit : isSpace unit = false)
    (hspace : ∀ other ∈ space, isSpace other = true) :
    trimEnd (normalizeNewlines (front ++ unit :: space)) = normalizeNewlines (front ++ [unit]) := by
  rw [normalizeNewlines_ink front hunit, normalizeNewlines_ink front hunit, trimEnd_append hunit]
  · rfl
  · exact fun other hmem => hspace other (mem_of_mem_normalizeNewlines hmem)

/-- A text without white space at its end has ink there. -/
theorem exists_of_trimEnd {text : Units} (hne : text ≠ []) (h : trimEnd text = text) :
    ∃ front unit, text = front ++ [unit] ∧ isSpace unit = false := by
  refine ⟨text.dropLast, text.getLast hne, (List.dropLast_append_getLast hne).symm, ?_⟩
  exact Bool.eq_false_of_not_eq_true (List.rdropWhile_eq_self_iff.mp h hne)

variable (upper : UpperCase)

theorem getLast?_formatCommit (commit : Commit) {unit : ℕ}
    (h : (formatCommitForChangelog upper commit).getLast? = some unit) : isSpace unit = false := by
  rw [formatCommitForChangelog, upperFirst] at h
  split at h
  · cases h
  · next first rest htrim =>
    cases rest with
    | nil =>
      rw [List.append_nil] at h
      exact upper.ink first (head?_trim (by rw [htrim]; rfl)) unit (List.mem_of_getLast? h)
    | cons second rest =>
      rw [List.getLast?_append_of_ne_nil _ (List.cons_ne_nil second rest),
        ← @List.getLast?_cons_cons _ first, ← htrim] at h
      exact getLast?_trim h

/-- Rows of which the last is an item. -/
def EndsItem (rows : List Units) : Prop :=
  ∃ front text, rows = front ++ [units "- " ++ text] ∧
    ∀ unit, text.getLast? = some unit → isSpace unit = false

theorem EndsItem.append (left : List Units) {right : List Units} (h : EndsItem right) :
    EndsItem (left ++ right) := by
  obtain ⟨front, text, rfl, htext⟩ := h
  exact ⟨left ++ front, text, (List.append_assoc _ _ _).symm, htext⟩

theorem endsItem_groupRows (commits : List Commit) (group : Group) :
    groupRows upper commits group = [] ∨ EndsItem (groupRows upper commits group) := by
  rw [groupRows]
  split_ifs with hempty
  · exact .inl rfl
  · right
    rcases List.eq_nil_or_concat (groupCommits commits group) with hnil | ⟨front, commit, hcut⟩
    · exact absurd hnil hempty
    · refine ⟨[] :: (units "### " ++ units group.name) :: front.map fun commit =>
        units "- " ++ formatCommitForChangelog upper commit, formatCommitForChangelog upper commit,
        ?_, fun unit => getLast?_formatCommit upper commit⟩
      rw [hcut, List.concat_eq_append, List.map_append]
      rfl

/-- A section ends with an item. -/
theorem endsItem_sectionRows (commits : List Commit) : EndsItem (sectionRows upper commits) := by
  have hgroups : ∀ groups : List Group, groups.flatMap (groupRows upper commits) = [] ∨
      EndsItem (groups.flatMap (groupRows upper commits)) := fun groups => by
    induction groups with
    | nil => exact .inl rfl
    | cons group groups ih =>
      rw [List.flatMap_cons]
      rcases ih with hnil | hends
      · rw [hnil, List.append_nil]
        exact endsItem_groupRows upper commits group
      · exact .inr (hends.append _)
  rw [sectionRows]
  split_ifs with hempty
  · refine EndsItem.append _ ⟨[[], units "### Chores"], units "Prepare MCP release metadata", rfl,
      fun unit hunit => ?_⟩
    obtain rfl := Option.some.inj hunit
    decide
  · rw [List.append_nil]
    refine (hgroups GROUP_ORDER).resolve_left fun hnil => hempty (List.all_eq_true.mpr ?_)
    intro group hmem
    have hrows := List.flatMap_eq_nil_iff.mp hnil group hmem
    rw [groupRows] at hrows
    split_ifs at hrows with hcommits
    exact decide_eq_true hcommits

/-- The rows end with ink, but for the space of an item without a text. -/
theorem exists_rowsText (commits : List Commit) : ∃ front unit space,
    rowsText (sectionRows upper commits) = newline :: front ++ unit :: space ∧
      isSpace unit = false ∧ (space = [] ∨ unit = 45 ∧ space = [32]) := by
  obtain ⟨front, text, hrows, htext⟩ := endsItem_sectionRows upper commits
  have hcut : rowsText (sectionRows upper commits) =
      rowsText front ++ newline :: 45 :: 32 :: text := by
    rw [hrows, rowsText, List.flatMap_append]
    simp [rowsText, units]
  have hhead : ∃ before, rowsText front ++ [newline] = newline :: before := by
    cases front with
    | nil => exact ⟨[], rfl⟩
    | cons row front => exact ⟨row ++ rowsText front ++ [newline], rfl⟩
  obtain ⟨before, hbefore⟩ := hhead
  have hrowsText : rowsText (sectionRows upper commits) =
      newline :: before ++ 45 :: 32 :: text := by
    rw [hcut, ← hbefore, List.append_assoc]
    rfl
  rcases List.eq_nil_or_concat text with rfl | ⟨init, last, rfl⟩
  · exact ⟨before, 45, [32], hrowsText, by decide, .inr ⟨rfl, rfl⟩⟩
  · rw [List.concat_eq_append] at hrowsText htext
    refine ⟨before ++ 45 :: 32 :: init, last, [], ?_, htext last (by simp), .inl rfl⟩
    rw [hrowsText]
    simp

/-! ## What is kept -/

/-- What a run keeps of the text behind the title: it drops the target's section where that is
the first one. -/
def historyOf (tag body : Units) : Units :=
  match behindHeader tag body with
  | some behind => (nextSection behind).getD []
  | none => if trim body ≠ [] then body else []

def history (targetVersion existingChangelog : Units) : Units :=
  historyOf (targetTag targetVersion) (bodyOf existingChangelog)

/-- The end of a changelog, behind the new section. -/
def ending (kept : Units) : Units :=
  if kept = [] then [newline] else newline :: newline :: kept ++ [newline]

theorem renderMcpChangelog_eq (existing version date : Units) (commits : List Commit) :
    renderMcpChangelog upper existing version date commits =
      header ++ (headerLead (targetTag version) ++ date ++
        (rowsText (sectionRows upper commits) ++ ending (history version existing))) := by
  have hheading : ∀ {text next : Units}, nextSection text = some next → next ≠ [] := by
    intro text next hnext hnil
    have hprefix := heading_of_nextSection hnext
    rw [hnil] at hprefix
    exact absurd hprefix (by decide)
  rw [renderMcpChangelog, renderReleaseSection_eq, history, historyOf]
  cases behindHeader (targetTag version) (bodyOf existing) with
  | some behind =>
    dsimp only
    cases hnext : nextSection behind with
    | none => simp [ending]
    | some next => simp [ending, hheading hnext]
  | none =>
    dsimp only
    split_ifs with hbody
    · have hne : bodyOf existing ≠ [] := fun hnil => by
        rw [hnil] at hbody
        exact hbody rfl
      simp [ending, hne]
    · simp [ending]

theorem ending_inj {left right : Units} (h : ending left = ending right) : left = right := by
  unfold ending at h
  split_ifs at h with hleft hright hright
  · rw [hleft, hright]
  · cases right <;> cases h
  · cases left <;> cases h
  · exact List.append_cancel_right (List.cons.inj (List.cons.inj h).2).2

theorem renderMcpChangelog_inj {first second version date : Units} {commits : List Commit} :
    renderMcpChangelog upper first version date commits =
      renderMcpChangelog upper second version date commits ↔
        history version first = history version second := by
  rw [renderMcpChangelog_eq, renderMcpChangelog_eq]
  constructor
  · intro h
    exact ending_inj (List.append_cancel_left (List.append_cancel_left (List.append_cancel_left h)))
  · intro h
    rw [h]

/-! ## The text behind a rendered title -/

/-- The text that is trimmed at its end ends with ink. -/
theorem exists_ink {text : Units} (h : ∃ unit ∈ text, isSpace unit = false) :
    ∃ front unit space, text = front ++ unit :: space ∧ isSpace unit = false ∧
      ∀ other ∈ space, isSpace other = true := by
  have hne : text.rdropWhile isSpace ≠ [] := fun hnil => by
    obtain ⟨unit, hmem, hunit⟩ := h
    rw [List.rdropWhile_eq_nil_iff.mp hnil unit hmem] at hunit
    cases hunit
  refine ⟨(text.rdropWhile isSpace).dropLast, (text.rdropWhile isSpace).getLast hne,
    text.rtakeWhile isSpace, ?_, ?_, fun other hmem => List.mem_rtakeWhile_imp hmem⟩
  · rw [List.append_cons, List.dropLast_append_getLast, List.rdropWhile_append_rtakeWhile]
  · exact Bool.eq_false_of_not_eq_true (List.rdropWhile_last_not isSpace text hne)

theorem bodyOf_header {front space : Units} {unit : ℕ} (hhead : (front ++ [unit]).head? = some 35)
    (hunit : isSpace unit = false) (hspace : ∀ other ∈ space, isSpace other = true) :
    bodyOf (header ++ (front ++ unit :: space)) = normalizeNewlines (front ++ [unit]) := by
  have hheader : normalizeNewlines header = header := rfl
  have hnormalized : trimEnd (normalizeNewlines (header ++ (front ++ unit :: space))) =
      header ++ normalizeNewlines (front ++ [unit]) := by
    rw [← List.append_assoc, trimEnd_normalizeNewlines hunit hspace, List.append_assoc,
      normalizeNewlines_append (.inl (by decide)), hheader]
  have htitle : title ++ [newline] <+: header ++ normalizeNewlines (front ++ [unit]) :=
    ⟨newline :: normalizeNewlines (front ++ [unit]), by simp [header]⟩
  have hdrop : (header ++ normalizeNewlines (front ++ [unit])).drop title.length =
      newline :: newline :: normalizeNewlines (front ++ [unit]) := by
    rw [header, List.append_assoc, List.drop_left]
    rfl
  obtain ⟨rest, hrest⟩ := List.head?_eq_some_iff.mp hhead
  rw [bodyOf, hnormalized, if_pos htitle, hdrop, hrest, normalizeNewlines_cons (by decide)]
  rfl

theorem nextSection_suffix {text next : Units} (h : nextSection text = some next) :
    next <:+ text := by
  obtain ⟨front, rfl⟩ := exists_of_nextSection h
  exact (List.suffix_cons newline next).trans (List.suffix_append front _)

theorem behindHeader_suffix {tag text behind : Units} (h : behindHeader tag text = some behind) :
    behind <:+ text := by
  rw [behindHeader] at h
  split_ifs at h
  have hdrop := List.drop_suffix (headerLead tag).length text
  split at h
  · cases h
  · next unit rest hcut =>
    split_ifs at h
    obtain rfl := Option.some.inj h
    rw [hcut] at hdrop
    exact (List.dropWhile_suffix isDot).trans hdrop

theorem historyOf_suffix (tag body : Units) : historyOf tag body <:+ body := by
  rw [historyOf]
  cases hbehind : behindHeader tag body with
  | some behind =>
    dsimp only
    cases hnext : nextSection behind with
    | none => exact List.nil_suffix
    | some next => exact (nextSection_suffix hnext).trans (behindHeader_suffix hbehind)
  | none =>
    dsimp only
    split_ifs
    · exact List.suffix_rfl
    · exact List.nil_suffix

/-- What a second run keeps has no white space at its end. -/
theorem trimEnd_history_render (version existing date : Units) (commits : List Commit) :
    trimEnd (history version (renderMcpChangelog upper existing version date commits)) =
      history version (renderMcpChangelog upper existing version date commits) := by
  rw [renderMcpChangelog_eq]
  generalize rowsText (sectionRows upper commits) ++ ending (history version existing) = rest
  have hink : ∃ unit ∈ headerLead (targetTag version) ++ date ++ rest, isSpace unit = false :=
    ⟨35, List.mem_cons_self, by decide⟩
  obtain ⟨front, unit, space, hcut, hunit, hspace⟩ := exists_ink hink
  have hhead : (front ++ [unit]).head? = some 35 := by
    cases front with
    | nil =>
      rw [List.nil_append] at hcut
      rw [List.nil_append, ← (List.cons.inj hcut).1]
      rfl
    | cons first front => exact congrArg some (List.cons.inj hcut).1.symm
  have hnormal : normalizeNewlines (front ++ [unit]) = normalizeNewlines front ++ [unit] :=
    normalizeNewlines_ink front hunit []
  rw [hcut, history, bodyOf_header hhead hunit hspace, hnormal]
  obtain ⟨lead, hlead⟩ := historyOf_suffix (targetTag version) (normalizeNewlines front ++ [unit])
  rcases List.eq_nil_or_concat (historyOf (targetTag version) (normalizeNewlines front ++ [unit]))
    with hnil | ⟨init, last, hlast⟩
  · rw [hnil]
    rfl
  · rw [hlast, List.concat_eq_append, ← List.append_assoc] at hlead
    obtain rfl : last = unit := (List.cons.inj (List.append_inj' hlead rfl).2).1
    rw [hlast, List.concat_eq_append]
    exact trimEnd_append hunit fun _ h => absurd h List.not_mem_nil

/-! ## The second run -/

theorem normalizeNewlines_headerLead (version rest : Units) :
    normalizeNewlines (headerLead (targetTag version) ++ rest) =
      headerLead (targetTag (normalizeNewlines version)) ++ normalizeNewlines rest := by
  have hcut : ∀ version : Units, headerLead (targetTag version) =
      units "## mcp-v" ++ (version ++ units " - ") := fun version => by
    simp [headerLead, targetTag, heading, units]
  have hfront : normalizeNewlines (units "## mcp-v") = units "## mcp-v" := rfl
  have hdash : normalizeNewlines (units " - ") = units " - " := rfl
  have hlast : (headerLead (targetTag version)).getLast? ≠ some carriageReturn := by
    rw [headerLead, List.getLast?_append_of_ne_nil _ (by decide)]
    decide
  rw [normalizeNewlines_append (.inl hlast), hcut, hcut,
    normalizeNewlines_append (.inl (by decide)), normalizeNewlines_append (.inr (by decide)),
    hfront, hdash]

theorem normalizeNewlines_eq_of_starts {version rest : Units}
    (h : version <+: normalizeNewlines version ++ rest) :
    normalizeNewlines version = version := by
  induction version with
  | nil => rfl
  | cons unit version ih =>
    rw [normalizeNewlines] at h ⊢
    split_ifs at h ⊢ with hbreak
    · obtain ⟨behind, hbehind⟩ := List.head?_eq_some_iff.mp (head?_normalizeNewlines hbreak.2)
      rw [hbehind, hbreak.1] at h
      exact absurd (List.cons_prefix_cons.mp h).1 (by decide)
    · rw [ih (List.cons_prefix_cons.mp h).2]

theorem behindHeader_rendered {version date tail : Units} (htail : tail.head? = some newline) :
    behindHeader (targetTag version)
      (normalizeNewlines (headerLead (targetTag version) ++ (date ++ tail))) =
        if normalizeNewlines version = version ∧ date.head?.any isDot = true then
          some ((normalizeNewlines (date ++ tail)).dropWhile isDot) else none := by
  rw [normalizeNewlines_headerLead, behindHeader]
  by_cases hversion : normalizeNewlines version = version
  · rw [hversion, if_pos (List.prefix_append _ _), List.drop_left]
    have hhead : date.head?.any isDot = (normalizeNewlines (date ++ tail)).head?.any isDot := by
      cases date with
      | nil =>
        rw [List.nil_append, head?_normalizeNewlines htail]
        rfl
      | cons unit date =>
        rw [List.cons_append, normalizeNewlines]
        split_ifs with hbreak
        · rw [head?_normalizeNewlines hbreak.2, hbreak.1]
          rfl
        · rfl
    rw [hhead]
    cases normalizeNewlines (date ++ tail) with
    | nil => simp
    | cons unit rest => simp
  · rw [if_neg, if_neg fun h => hversion h.1]
    intro hprefix
    have hcut : ∀ version rest : Units, headerLead (targetTag version) ++ rest =
        units "## mcp-v" ++ (version ++ (units " - " ++ rest)) := fun version rest => by
      simp [headerLead, targetTag, heading, units]
    rw [hcut, ← List.append_nil (headerLead (targetTag version)), hcut] at hprefix
    have hrest := (List.prefix_append_right_inj _).mp hprefix
    exact hversion (normalizeNewlines_eq_of_starts ((List.prefix_append version _).trans hrest))

/-- The new section and what is kept, as the second run finds them behind the header line. -/
structure Behind (version date : Units) (commits : List Commit) (kept tail : Units) : Prop where
  head : tail.head? = some newline
  body : bodyOf (header ++ (headerLead (targetTag version) ++ date ++
      (rowsText (sectionRows upper commits) ++ ending kept))) =
    normalizeNewlines (headerLead (targetTag version) ++ (date ++ tail))
  weight_lt : weight kept < weight tail
  closed : (∀ commit ∈ commits, opensSection (formatCommitForChangelog upper commit) = false) →
    nextSection (normalizeNewlines tail) =
      nextSection (newline :: newline :: normalizeNewlines kept)
  opens : (∃ commit ∈ commits, opensSection (formatCommitForChangelog upper commit) = true) →
    ∃ next, nextSection (normalizeNewlines tail) = some next ∧ weight kept < weight next

theorem not_heading_of_mem {commits : List Commit} :
    ∀ row ∈ sectionRows upper commits, ¬heading <+: row := fun _ hmem =>
  (sectionRow_of_mem upper hmem).not_heading upper

theorem closed_of_mem {commits : List Commit}
    (hcommits : ∀ commit ∈ commits, opensSection (formatCommitForChangelog upper commit) = false) :
    ∀ row ∈ sectionRows upper commits, opensSection row = false := by
  intro row hmem
  by_contra hopens
  obtain ⟨commit, hcommit, hopen⟩ := (opensRow_iff upper commits).mp
    ⟨row, hmem, Bool.eq_true_of_not_eq_false hopens⟩
  rw [hcommits commit hcommit] at hopen
  cases hopen

/-- A space cut off behind the last row hides no section. -/
theorem isSome_nextSection_cut (front : Units) {space : Units} {unit : ℕ}
    (hunit : isSpace unit = false) (hspace : space = [] ∨ unit = 45 ∧ space = [32]) :
    (nextSection (normalizeNewlines (newline :: front ++ [unit]))).isSome =
      (nextSection (normalizeNewlines (newline :: front ++ unit :: space))).isSome := by
  rcases hspace with rfl | ⟨rfl, rfl⟩
  · rfl
  · rw [normalizeNewlines_ink _ hunit, normalizeNewlines_ink _ hunit,
      nextSection_append _ (stops_dash _), nextSection_append _ (stops_dash _)]
    cases nextSection (normalizeNewlines (newline :: front)) <;> rfl

/-- Where nothing is kept, the new section is trimmed at its end. -/
theorem exists_behind_nil (version date : Units) (commits : List Commit) :
    ∃ tail, Behind upper version date commits [] tail := by
  obtain ⟨front, unit, space, hcut, hunit, hspace⟩ := exists_rowsText upper commits
  have hends : ∀ other ∈ space ++ [newline], isSpace other = true := by
    intro other hmem
    rcases List.mem_append.mp hmem with hmem | hmem
    · rcases hspace with rfl | ⟨-, rfl⟩
      · cases hmem
      · rw [List.mem_singleton.mp hmem]
        decide
    · rw [List.mem_singleton.mp hmem]
      decide
  have hsome := isSome_nextSection_cut front hunit hspace
  rw [← hcut, ← List.append_nil (rowsText _)] at hsome
  refine ⟨newline :: front ++ [unit], rfl, ?_, ?_, fun hcommits => ?_, fun hcommits => ?_⟩
  · have hcut' : headerLead (targetTag version) ++ date ++
        (rowsText (sectionRows upper commits) ++ ending []) =
        (headerLead (targetTag version) ++ (date ++ newline :: front)) ++
          unit :: (space ++ [newline]) := by
      rw [hcut]
      simp [ending]
    rw [hcut', bodyOf_header rfl hunit hends]
    simp
  · rw [List.cons_append, weight_cons (by decide)]
    exact Nat.succ_pos _
  · rw [nextSection_closedRows (.inl rfl) (not_heading_of_mem upper)
      (closed_of_mem upper hcommits)] at hsome
    exact Option.isNone_iff_eq_none.mp (Option.isSome_eq_false_iff.mp hsome)
  · obtain ⟨next, hnext⟩ := nextSection_openRows (.inl rfl) (not_heading_of_mem upper)
      ((opensRow_iff upper commits).mpr hcommits)
    rw [hnext, Option.isSome_some, Option.isSome_iff_exists] at hsome
    obtain ⟨other, hother⟩ := hsome
    refine ⟨other, hother, ?_⟩
    obtain ⟨behind, rfl⟩ := heading_of_nextSection hother
    rw [weight_append]
    exact Nat.lt_of_lt_of_le (by decide : weight [] < weight heading) (Nat.le_add_right _ _)

/-- What is kept stands behind an empty line. -/
theorem exists_behind_kept (version date : Units) (commits : List Commit) {kept : Units}
    (hne : kept ≠ []) (hkept : trimEnd kept = kept) :
    ∃ tail, Behind upper version date commits kept tail := by
  obtain ⟨init, last, rfl, hlast⟩ := exists_of_trimEnd hne hkept
  have hfollows : Follows (newline :: newline :: (init ++ [last])) := .inr rfl
  have hweight : ∀ text, weight (newline :: newline :: text) = weight text + 2 := fun text => by
    rw [weight_cons (by decide), weight_cons (by decide)]
  refine ⟨rowsText (sectionRows upper commits) ++ newline :: newline :: (init ++ [last]), ?_, ?_,
    ?_, fun hcommits => ?_, fun hcommits => ?_⟩
  · obtain ⟨front, unit, space, hcut, -⟩ := exists_rowsText upper commits
    rw [hcut]
    rfl
  · have hcut : headerLead (targetTag version) ++ date ++
        (rowsText (sectionRows upper commits) ++ ending (init ++ [last])) =
        (headerLead (targetTag version) ++ (date ++
          (rowsText (sectionRows upper commits) ++ newline :: newline :: init))) ++
            last :: [newline] := by
      simp [ending]
    rw [hcut, bodyOf_header rfl hlast (List.forall_mem_singleton.mpr (by decide))]
    simp
  · rw [weight_append (rowsText _), hweight]
    omega
  · rw [nextSection_closedRows hfollows (not_heading_of_mem upper) (closed_of_mem upper hcommits),
      normalizeNewlines_newline, normalizeNewlines_newline]
  · obtain ⟨front, hfront⟩ := nextSection_openRows hfollows (not_heading_of_mem upper)
      ((opensRow_iff upper commits).mpr hcommits)
    refine ⟨_, hfront, ?_⟩
    rw [weight_append front, weight_normalizeNewlines, hweight]
    omega

theorem exists_behind (version date : Units) (commits : List Commit) {kept : Units}
    (hkept : trimEnd kept = kept) : ∃ tail, Behind upper version date commits kept tail := by
  by_cases hne : kept = []
  · subst hne
    exact exists_behind_nil upper version date commits
  · exact exists_behind_kept upper version date commits hne hkept

/-- The section that a run writes is found by the next one as one section. -/
structure OneSection (version date : Units) (commits : List Commit) : Prop where
  readsVersion : normalizeNewlines version = version
  readsDate : date.head?.any isDot = true
  closedDate : opensSection date = false
  closedCommits : ∀ commit ∈ commits,
    opensSection (formatCommitForChangelog upper commit) = false

/-- What is kept is nothing, or starts with a section and has nothing to be normalized. -/
def Resumes (kept : Units) : Prop :=
  kept = [] ∨ heading <+: kept ∧ trimEnd kept = kept ∧ normalizeNewlines kept = kept

theorem trim_ne_nil {text : Units} (h : ∃ unit ∈ text, isSpace unit = false) : trim text ≠ [] := by
  intro hnil
  obtain ⟨lead, trail, hlead, htrail, hcut⟩ := exists_trim_eq text
  obtain ⟨unit, hmem, hunit⟩ := h
  rw [hcut, hnil, List.append_nil] at hmem
  rw [(List.mem_append.mp hmem).elim (hlead unit) (htrail unit)] at hunit
  cases hunit

theorem resumes_iff {kept : Units} (hkept : trimEnd kept = kept) :
    (nextSection (newline :: newline :: normalizeNewlines kept)).getD [] = kept ↔
      Resumes kept := by
  have hnewline : nextSection (newline :: newline :: normalizeNewlines kept) =
      if heading <+: normalizeNewlines kept then some (normalizeNewlines kept)
      else nextSection (normalizeNewlines kept) := by
    rw [nextSection_newline, nextSection]
    · simp
    · exact fun h => absurd (List.cons_prefix_cons.mp h).1 (by decide)
  rw [hnewline]
  constructor
  · intro h
    split_ifs at h with hheading
    · exact .inr ⟨by rwa [← show normalizeNewlines kept = kept from h], hkept, h⟩
    · cases hnext : nextSection (normalizeNewlines kept) with
      | none =>
        rw [hnext] at h
        exact .inl h.symm
      | some next =>
        rw [hnext] at h
        have hlt := weight_nextSection hnext
        rw [weight_normalizeNewlines, ← show next = kept from h] at hlt
        exact absurd hlt (lt_irrefl _)
  · rintro (rfl | ⟨hheading, -, hnormal⟩)
    · rfl
    · rw [hnormal, if_pos hheading]
      rfl

/-- The second run keeps what the first one kept exactly when the new section is found as one,
and what was kept is found behind it. -/
theorem history_render_iff (existing version date : Units) (commits : List Commit) :
    history version (renderMcpChangelog upper existing version date commits) =
        history version existing ↔
      OneSection upper version date commits ∧ Resumes (history version existing) := by
  by_cases hkept : trimEnd (history version existing) = history version existing
  · obtain ⟨tail, htail, hbody, hweight, hclosed, hopen⟩ :=
      exists_behind upper version date commits hkept
    rw [← renderMcpChangelog_eq] at hbody
    have hne : ∀ {next : Units}, weight (history version existing) < weight next →
        next ≠ history version existing := fun hlt heq => by
      rw [heq] at hlt
      exact lt_irrefl _ hlt
    have hfollows : Follows tail := .inr htail
    rw [history, hbody, historyOf, behindHeader_rendered htail]
    by_cases hreads : normalizeNewlines version = version ∧ date.head?.any isDot = true
    · rw [if_pos hreads]
      dsimp only
      rw [nextSection_dropWhile_isDot]
      cases hdate : opensSection date with
      | true =>
        obtain ⟨front, hfront⟩ := nextSection_open hfollows hdate
        rw [hfront]
        refine iff_of_false (hne ?_) fun h => ?_
        · rw [Option.getD_some, weight_append, weight_normalizeNewlines]
          omega
        · rw [h.1.closedDate] at hdate
          cases hdate
      | false =>
        rw [nextSection_closed hfollows hdate]
        by_cases hcommits : ∃ commit ∈ commits,
            opensSection (formatCommitForChangelog upper commit) = true
        · obtain ⟨next, hnext, hlt⟩ := hopen hcommits
          rw [hnext]
          refine iff_of_false (hne hlt) fun h => ?_
          obtain ⟨commit, hmem, hopens⟩ := hcommits
          rw [h.1.closedCommits commit hmem] at hopens
          cases hopens
        · have hall : ∀ commit ∈ commits,
              opensSection (formatCommitForChangelog upper commit) = false := fun commit hmem =>
            Bool.eq_false_of_not_eq_true fun hopens => hcommits ⟨commit, hmem, hopens⟩
          rw [hclosed hall, resumes_iff hkept]
          exact ⟨fun h => ⟨⟨hreads.1, hreads.2, hdate, hall⟩, h⟩, fun h => h.2⟩
    · rw [if_neg hreads]
      dsimp only
      have hink : ∃ unit ∈ normalizeNewlines (headerLead (targetTag version) ++ (date ++ tail)),
          isSpace unit = false := by
        rw [normalizeNewlines_headerLead]
        exact ⟨35, List.mem_cons_self, by decide⟩
      rw [if_pos (trim_ne_nil hink)]
      refine iff_of_false (hne ?_) fun h => hreads ⟨h.1.readsVersion, h.1.readsDate⟩
      rw [weight_normalizeNewlines, weight_append, weight_append]
      omega
  · refine iff_of_false (fun h => hkept ?_) fun h => ?_
    · rw [← h]
      exact trimEnd_history_render upper version existing date commits
    · rcases h.2 with hnil | ⟨-, htrim, -⟩
      · rw [hnil] at hkept
        exact hkept rfl
      · exact hkept htrim

end SecondRun

section SecondLines

/-! ## The lines of a changelog -/

/-- The lines with something in them. -/
def visibleLines (text : Units) : List Units :=
  ((text.splitOn newline).map trim).filter (· ≠ [])

/-- The text up to its next section. -/
def firstSection : Units → Units
  | [] => []
  | unit :: rest => if unit = newline ∧ heading <+: rest then [] else unit :: firstSection rest

theorem length_nextSection {text next : Units} (h : nextSection text = some next) :
    next.length < text.length := by
  obtain ⟨front, rfl⟩ := exists_of_nextSection h
  rw [List.length_append, List.length_cons]
  omega

/-- The lines outside of the target version's sections. -/
def outsideLines (tag text : Units) : List Units :=
  match _hbehind : behindHeader tag text with
  | some behind =>
      match _hnext : nextSection behind with
      | none => []
      | some next => outsideLines tag next
  | none =>
      visibleLines (firstSection text) ++
        match _hnext : nextSection text with
        | none => []
        | some next => outsideLines tag next
termination_by text.length
decreasing_by
  · exact lt_of_lt_of_le (length_nextSection _hnext) (behindHeader_suffix _hbehind).length_le
  · exact length_nextSection _hnext

/-- The text without its title, which is `# Changelog` where a line starts and the white space
behind it. -/
def titleless (existingChangelog : Units) : Units :=
  (removeTitle true (trimEnd (normalizeNewlines existingChangelog))).dropWhile isSpace

theorem visibleLines_append (left right : Units) :
    visibleLines (left ++ newline :: right) = visibleLines left ++ visibleLines right := by
  rw [visibleLines, List.splitOn_append_cons_self, List.map_append, List.filter_append]
  rfl

theorem visibleLines_space {unit : ℕ} (h : isSpace unit = true) (rest : Units) :
    visibleLines (unit :: rest) = visibleLines rest := by
  by_cases hunit : unit = newline
  · subst hunit
    have hlines := visibleLines_append [] rest
    rw [List.nil_append] at hlines
    rw [hlines]
    rfl
  · have hbreak : (unit == newline) = false := beq_false_of_ne hunit
    obtain ⟨first, more, hrest⟩ := List.exists_cons_of_ne_nil (List.splitOn_ne_nil newline rest)
    have htrim : trim (unit :: first) = trim first := by
      rw [trim, List.dropWhile_cons_of_pos h]
      rfl
    rw [visibleLines, visibleLines, List.splitOn_cons_eq_if_modifyHead, hbreak, hrest]
    simp [htrim]

theorem visibleLines_dropWhile (text : Units) :
    visibleLines (text.dropWhile isSpace) = visibleLines text := by
  induction text with
  | nil => rfl
  | cons unit rest ih =>
    by_cases h : isSpace unit = true
    · rw [List.dropWhile_cons_of_pos h, ih, visibleLines_space h]
    · rw [List.dropWhile_cons_of_neg h]

theorem cut_of_nextSection (text : Units) :
    text = firstSection text ++ ((nextSection text).map (newline :: ·)).getD [] := by
  induction text with
  | nil => rfl
  | cons unit rest ih =>
    rw [firstSection, nextSection]
    split_ifs with hnext
    · rw [hnext.1]
      rfl
    · exact congrArg (unit :: ·) ih

theorem visibleLines_of_nextSection {text next : Units} (h : nextSection text = some next) :
    visibleLines text = visibleLines (firstSection text) ++ visibleLines next := by
  have hcut := cut_of_nextSection text
  rw [h] at hcut
  rw [← visibleLines_append]
  exact congrArg visibleLines hcut

theorem outsideLines_of_header {tag text behind : Units}
    (h : behindHeader tag text = some behind) :
    outsideLines tag text = ((nextSection behind).map (outsideLines tag)).getD [] := by
  rw [outsideLines]
  split
  · next other hother =>
    obtain rfl := Option.some.inj (h.symm.trans hother)
    split <;> next hnext => rw [hnext]; rfl
  · next hnone =>
    rw [h] at hnone
    cases hnone

theorem outsideLines_of_none {tag text : Units} (h : behindHeader tag text = none) :
    outsideLines tag text = visibleLines (firstSection text) ++
      ((nextSection text).map (outsideLines tag)).getD [] := by
  rw [outsideLines]
  split
  · next other hother =>
    rw [h] at hother
    cases hother
  · split <;> next hnext => rw [hnext]; rfl

theorem outsideLines_sublist (tag text : Units) :
    (outsideLines tag text).Sublist (visibleLines text) := by
  induction hlength : text.length using Nat.strong_induction_on generalizing text with
  | h length ih =>
    subst hlength
    cases hbehind : behindHeader tag text with
    | some behind =>
      rw [outsideLines_of_header hbehind]
      cases hnext : nextSection behind with
      | none => exact List.nil_sublist _
      | some next =>
        obtain ⟨lead, rfl⟩ := behindHeader_suffix hbehind
        obtain ⟨front, rfl⟩ := exists_of_nextSection hnext
        have hlt : next.length < (lead ++ (front ++ newline :: next)).length := by
          simp only [List.length_append, List.length_cons]
          omega
        rw [← List.append_assoc, visibleLines_append]
        exact (ih _ hlt next rfl).trans (List.sublist_append_right _ _)
    | none =>
      rw [outsideLines_of_none hbehind]
      cases hnext : nextSection text with
      | none =>
        have hcut := cut_of_nextSection text
        rw [hnext, Option.map_none, Option.getD_none, List.append_nil] at hcut
        rw [← hcut, Option.map_none, Option.getD_none, List.append_nil]
      | some next =>
        rw [visibleLines_of_nextSection hnext]
        exact (ih _ (length_nextSection hnext) next rfl).append_left _

/-! ## What a run keeps -/

theorem dropWhile_newline (text : Units) :
    (text.dropWhile (· = newline)).dropWhile isSpace = text.dropWhile isSpace := by
  induction text with
  | nil => rfl
  | cons unit rest ih =>
    by_cases hunit : unit = newline
    · rw [List.dropWhile_cons, if_pos (decide_eq_true hunit), ih, hunit, List.dropWhile_cons]
      rfl
    · rw [List.dropWhile_cons, if_neg fun h => hunit (of_decide_eq_true h)]

/-- White space aside, the body is the text without its title. -/
theorem titleless_eq (existing : Units) :
    titleless existing = (bodyOf existing).dropWhile isSpace := by
  rw [titleless, bodyOf]
  split_ifs with htitle
  · obtain ⟨rest, hrest⟩ := htitle
    have hprefix : title <+: trimEnd (normalizeNewlines existing) :=
      (List.prefix_append title [newline]).trans ⟨rest, hrest⟩
    rw [dropWhile_newline]
    cases hcut : trimEnd (normalizeNewlines existing) with
    | nil =>
      rw [hcut] at hprefix
      exact absurd hprefix (by decide)
    | cons unit behind =>
      rw [hcut] at hprefix
      rw [removeTitle, if_pos ⟨rfl, hprefix⟩]
      exact List.dropWhile_idempotent _ _
  · exact (List.dropWhile_idempotent _ _).symm

theorem head?_of_behindHeader {tag text behind : Units} (h : behindHeader tag text = some behind) :
    text.head? = some 35 := by
  rw [behindHeader] at h
  split_ifs at h with hlead
  obtain ⟨rest, rfl⟩ := hlead
  rfl

theorem outsideLines_history (version existing : Units) :
    (outsideLines (targetTag version) (titleless existing)).Sublist
      (visibleLines (history version existing)) := by
  rw [titleless_eq, history, historyOf]
  generalize bodyOf existing = body
  cases hbehind : behindHeader (targetTag version) body with
  | some behind =>
    have hbody : body.dropWhile isSpace = body := dropWhile_eq_self fun unit hunit => by
      rw [head?_of_behindHeader hbehind] at hunit
      obtain rfl := Option.some.inj hunit
      decide
    rw [hbody, outsideLines_of_header hbehind]
    dsimp only
    cases nextSection behind with
    | none => exact List.nil_sublist _
    | some next => exact outsideLines_sublist _ next
  | none =>
    dsimp only
    have houtside := outsideLines_sublist (targetTag version) (body.dropWhile isSpace)
    rw [visibleLines_dropWhile] at houtside
    split_ifs with htrim
    · exact houtside
    · have hspace : ∀ unit ∈ body, isSpace unit = true := fun unit hmem => by
        by_contra hunit
        exact htrim (trim_ne_nil ⟨unit, hmem, Bool.eq_false_of_not_eq_true hunit⟩)
      rw [List.dropWhile_eq_nil_iff.mpr hspace]
      exact outsideLines_sublist _ []

variable (upper : UpperCase)

theorem history_sublist (existing version date : Units) (commits : List Commit) :
    (visibleLines (history version existing)).Sublist
      (visibleLines (renderMcpChangelog upper existing version date commits)) := by
  rw [renderMcpChangelog_eq]
  by_cases hnil : history version existing = []
  · rw [hnil]
    exact List.nil_sublist _
  · have hcut : ∀ front, header ++ (front ++ (rowsText (sectionRows upper commits) ++
        ending (history version existing))) =
        (header ++ front ++ rowsText (sectionRows upper commits) ++ [newline]) ++
          newline :: (history version existing ++ newline :: []) := fun front => by
      simp [ending, hnil]
    rw [hcut, visibleLines_append _ (history version existing ++ newline :: []),
      visibleLines_append (history version existing)]
    exact (List.sublist_append_left _ _).trans (List.sublist_append_right _ _)

/-- A second run changes nothing, and both runs keep every line outside of the title and of the
target version's sections, in order. -/
structure Regenerates (existing version date : Units) (commits : List Commit) : Prop where
  same : renderMcpChangelog upper (renderMcpChangelog upper existing version date commits)
    version date commits = renderMcpChangelog upper existing version date commits
  first : (outsideLines (targetTag version) (titleless existing)).Sublist
    (visibleLines (renderMcpChangelog upper existing version date commits))
  again : (outsideLines (targetTag version) (titleless existing)).Sublist
    (visibleLines (renderMcpChangelog upper
      (renderMcpChangelog upper existing version date commits) version date commits))

/-- A changelog is regenerated without a loss exactly when the section that is written is found
again as one section, and what was kept of the text begins with a section. -/
theorem regenerates_iff (existing version date : Units) (commits : List Commit) :
    Regenerates upper existing version date commits ↔
      OneSection upper version date commits ∧ Resumes (history version existing) := by
  rw [← history_render_iff]
  constructor
  · intro h
    exact (renderMcpChangelog_inj upper).mp h.same
  · intro h
    have hsame : renderMcpChangelog upper (renderMcpChangelog upper existing version date commits)
        version date commits = renderMcpChangelog upper existing version date commits :=
      (renderMcpChangelog_inj upper).mpr h
    have hfirst := (outsideLines_history version existing).trans
      (history_sublist upper existing version date commits)
    exact ⟨hsame, hfirst, by rwa [hsame]⟩

/-- The upper case of the ASCII letters. -/
def asciiUpper : UpperCase where
  form unit := [if isLowerLetter unit then unit - 32 else unit]
  ink unit h other hmem := by
    rw [List.mem_singleton.mp hmem]
    split_ifs with hletter
    · rw [isLowerLetter, Bool.and_eq_true, decide_eq_true_eq, decide_eq_true_eq] at hletter
      obtain ⟨hlow, hhigh⟩ := hletter
      interval_cases unit <;> decide
    · exact h

/-- A changelog with a sentence ahead of its first section. -/
def introduced : Units :=
  units "# Changelog" ++ [10, 10] ++ units "All notable changes." ++ [10, 10] ++
    units "## mcp-v0.1.0 - 2026-01-01" ++ [10, 10] ++ units "### Chores" ++ [10] ++
      units "- Start" ++ [10]

/-- The sentence is kept by the first run and dropped by the second. -/
theorem introduction_is_dropped :
    ¬Regenerates asciiUpper introduced (units "0.2.0") (units "2026-02-01") [] := by
  intro h
  have hsame := (renderMcpChangelog_inj asciiUpper).mp h.same
  have hresumes := ((history_render_iff asciiUpper _ _ _ _).mp hsame).2
  have hkept : history (units "0.2.0") introduced ≠ [] ∧
      ¬heading <+: history (units "0.2.0") introduced := by decide
  exact hresumes.elim hkept.1 fun h => hkept.2 h.1

end SecondLines

end Gittensory.ReleaseChangelog
