import Gittensory.DraftTarget
import Gittensory.IsoTimestamp

/-!
The file written for a submission (`services/draft.ts`, `buildContributorMdx`): frontmatter
with each field as a JSON string, as an indented block when it has several lines, or as a
list, and the body below the closing fence. Read back by the content gate, the block ends at
that fence, no key is there twice, and the keys are the ones written, as long as no value
puts a line separator on its key's own line, which hides the line from the reader.
-/
namespace Gittensory.ContributorMdx

open CodeUnits DraftTarget EntryFrontmatter Frontmatter IsoTimestamp JsonText KeyedTable WordRuns
open DuplicateSignals (toLowerCase)

/-! ## Scalars and lists -/

/-- `text.replace(/\r\n?/g, "\n")` -/
def unifyBreaks : Units → Units
  | [] => []
  | unit :: rest =>
      if unit = carriageReturn then
        if rest.head? = some newline then unifyBreaks rest else newline :: unifyBreaks rest
      else unit :: unifyBreaks rest

def scalarText (value : Units) : Units := unifyBreaks (trim value)

def yamlScalar (value : Units) : Units :=
  let normalized := scalarText value
  if newline ∈ normalized then
    bar :: newline :: [newline].intercalate
      ((splitLines normalized).map fun line => space :: space :: line)
  else jsonQuoted normalized

/-- `[${texts.map(yamlScalar).join(", ")}]` -/
def flowList (texts : List Units) : Units :=
  91 :: ((units ", ").intercalate (texts.map yamlScalar) ++ [93])

/-- The items of `yamlArray`, each on one line. -/
def arrayItems (values : List Units) : List Units :=
  (values.map fun value => [space].intercalate
    (((splitLines (scalarText value)).map trim).filter fun line => line ≠ [])).filter
      fun item => item ≠ []

/-- `lines` of the source. -/
def linesOf (value : Units) : List Units :=
  ((splitRows (trim value)).map trim).filter fun line => line ≠ []

/-- `Array.from(text)` -/
def codePoints : Units → List Units
  | [] => []
  | [unit] => [[unit]]
  | unit :: next :: rest =>
      if isHighSurrogate unit && isLowSurrogate next then [unit, next] :: codePoints rest
      else [unit] :: codePoints (next :: rest)

def trimEnd (text : Units) : Units := (text.reverse.dropWhile isSpace).reverse

/-- `oneLine` of a text that is trimmed already. -/
def oneLine (text : Units) : Units :=
  let normalized := replaceRuns isInk space (trim text)
  if (codePoints normalized).length ≤ 160 then normalized
  else trimEnd ((codePoints normalized).take 157).flatten ++ units "..."

/-! ## The body -/

def escapeUnit (unit : ℕ) : Units :=
  if unit = 38 then units "&amp;"
  else if unit = 60 then units "&lt;"
  else if unit = 62 then units "&gt;"
  else if unit = 123 then units "&#123;"
  else if unit = 125 then units "&#125;"
  else if unit ∈ units "\\\u0060*_[]()!" then [backslash, unit]
  else [unit]

/-- `/^(import|export)(\s)/i` -/
def startsModule (text : Units) : Bool :=
  toLowerCase (text.take 6) ∈ [units "import", units "export"] && ((text.drop 6).head?.any isSpace)

/-- A backslash before `import`, `export` and number signs that start a line. -/
def escapeLineStarts : Bool → Units → Units
  | _, [] => []
  | atStart, unit :: rest =>
      (if atStart && (startsModule (unit :: rest) || unit = numberSign) then [backslash] else []) ++
        unit :: escapeLineStarts (!isDot unit) rest

def mdxPlainText (value : Units) : Units :=
  escapeLineStarts true ((trim value).flatMap escapeUnit)

/-! ## The fields -/

/-- A field of the submission: whether it is null or missing, whether it is truthy, and what
`String` makes of it. -/
structure FieldValue where
  nullish : Bool
  truthy : Bool
  spelled : Units

abbrev SubmissionDraftFields := String → FieldValue

/-- `left || right` -/
def FieldValue.orElse (left right : FieldValue) : FieldValue := if left.truthy then left else right

/-- `value || fallback` -/
def FieldValue.orText (value : FieldValue) (fallback : Units) : Units :=
  if value.truthy then value.spelled else fallback

def targetFields (fields : SubmissionDraftFields) : SubmittedFields :=
  let given key := if (fields key).nullish then none else some (fields key).spelled
  ⟨given "category", given "slug", given "name", given "title"⟩

/-- What stands after a key: a scalar, or a list of scalars. -/
inductive Written where
  | scalar (value : Units)
  | list (texts : List Units)

def encode : Written → Units
  | .scalar value => yamlScalar value
  | .list texts => flowList texts

def isLoginUnit (unit : ℕ) : Bool := isLetter unit || isDigit unit

/-- `/^[A-Za-z0-9](?:[A-Za-z0-9-]{0,37}[A-Za-z0-9])?$/` -/
def validGitHubLogin (login : Units) : Bool :=
  login.length ≤ 39 && login.head?.any isLoginUnit && login.getLast?.any isLoginUnit &&
    login.all fun unit => isLoginUnit unit || unit = dash

def safeGitHubLogin (githubLogin : Option Units) : Units :=
  match githubLogin with
  | none => []
  | some login => if validGitHubLogin login then login else []

def maxSourceContentChars : ℕ := 20000

def sourceContent (fields : SubmissionDraftFields) : Units :=
  (trim ((fields "full_copyable_content").orElse (fields "guide_content")).spelled).take
    maxSourceContentChars

def titleOf (fields : SubmissionDraftFields) : Units :=
  trim ((fields "name").orElse (fields "title")).spelled

def descriptionOf (fields : SubmissionDraftFields) : Units :=
  trim ((fields "description").orElse (fields "card_description")).spelled

def tagsOf (fields : SubmissionDraftFields) : List Units :=
  ((((trim (fields "tags").spelled).splitOn 44).map trim).filter fun tag => tag ≠ []).take 8

/-- A value that is written unless it is empty. -/
def unlessEmpty (test : Units) (written : Written) : Option Written :=
  if test = [] then none else some written

/-- The frontmatter: for each key what is written, if anything. -/
def slots (fields : SubmissionDraftFields) (githubLogin : Option Units) (target : Target)
    (submittedAt : Units) : List (Units × Option Written) :=
  let login := safeGitHubLogin githubLogin
  let submittedBy := if login = [] then units "website" else 64 :: login
  let submittedByUrl := if login = [] then [] else units "https://github.com/" ++ login
  let title := titleOf fields
  let description := descriptionOf fields
  let scalar key := unlessEmpty (trim (fields key).spelled) (.scalar (fields key).spelled)
  let list key := unlessEmpty (trim (fields key).spelled)
    (.list (arrayItems (linesOf (fields key).spelled)))
  let notes key := if linesOf (fields key).spelled = [] then none
    else some (.list (arrayItems (linesOf (fields key).spelled)))
  [(units "title", some (.scalar title)),
    (units "slug", some (.scalar target.slug)),
    (units "category", some (.scalar target.category)),
    (units "description", some (.scalar description)),
    (units "cardDescription",
      some (.scalar ((fields "card_description").orText (oneLine description)))),
    (units "seoTitle", some (.scalar ((fields "seo_title").orText (title ++ units " for Claude")))),
    (units "seoDescription",
      some (.scalar ((fields "seo_description").orText (oneLine description)))),
    (units "author", some (.scalar ((fields "author").orText submittedBy))),
    (units "authorProfileUrl", unlessEmpty submittedByUrl (.scalar submittedByUrl)),
    (units "dateAdded", some (.scalar (submittedAt.take 10))),
    (units "submittedBy", some (.scalar submittedBy)),
    (units "submittedByUrl", unlessEmpty submittedByUrl (.scalar submittedByUrl)),
    (units "submittedAt", some (.scalar submittedAt)),
    (units "tags", some (.list (tagsOf fields))),
    (units "brandName", scalar "brand_name"),
    (units "brandDomain", scalar "brand_domain"),
    (units "repoUrl", scalar "github_url"),
    (units "documentationUrl", scalar "docs_url"),
    (units "websiteUrl", scalar "website_url"),
    (units "downloadUrl", scalar "download_url"),
    (units "installCommand", scalar "install_command"),
    (units "usageSnippet", scalar "usage_snippet"),
    (units "configSnippet", scalar "config_snippet"),
    (units "copySnippet", unlessEmpty (sourceContent fields) (.scalar (sourceContent fields))),
    (units "commandSyntax", scalar "command_syntax"),
    (units "trigger", scalar "trigger"),
    (units "scriptLanguage", scalar "script_language"),
    (units "prerequisites", list "prerequisites"),
    (units "safetyNotes", notes "safety_notes"),
    (units "privacyNotes", notes "privacy_notes"),
    (units "retrievalSources", list "retrieval_sources"),
    (units "testedPlatforms", list "tested_platforms"),
    (units "skillType", scalar "skill_type"),
    (units "skillLevel", scalar "skill_level"),
    (units "verificationStatus", scalar "verification_status"),
    (units "verifiedAt", scalar "verified_at"),
    (units "items", list "items"),
    (units "pricingModel", scalar "pricing_model"),
    (units "disclosure", scalar "disclosure")]

def emitted (slots : List (Units × Option Written)) : List (Units × Written) :=
  slots.filterMap fun slot => slot.2.map fun written => (slot.1, written)

/-- `${key}: ${encoded}` -/
def fieldLine (field : Units × Written) : Units :=
  field.1 ++ colon :: space :: encode field.2

def frontmatterText (fields : List (Units × Written)) : Units :=
  [newline].intercalate (fence :: fields.map fieldLine ++ [fence])

/-- `text || fallback` -/
def orFallback (text : Units) (fallback : String) : Units :=
  if text = [] then units fallback else text

def bodyText (fields : SubmissionDraftFields) : Units :=
  let sourceLines := ((linesOf (sourceContent fields)).map mdxPlainText).take 200
  let safetyBody :=
    orFallback (mdxPlainText (fields "safety_notes").spelled) "Maintainer review required."
  let privacyBody :=
    orFallback (mdxPlainText (fields "privacy_notes").spelled) "Maintainer review required."
  [newline].intercalate (([] : Units) :: mdxPlainText (descriptionOf fields) :: [] ::
    ((if sourceLines = [] then [] else sourceLines ++ [[]]) ++
      [units "## Safety", [], safetyBody, [], units "## Privacy", [], privacyBody, []]))

section Builder

-- What `new Date(now)` reads of a text, in milliseconds.
variable (parseDate : Units → Option ℤ)

/-- `new Date(now).toISOString()`; a time that does not parse or is out of range throws. -/
def submittedAt (now : Units) : Except String Units :=
  match parseDate now with
  | none => .error "Invalid time value"
  | some ms =>
      if -MAX_TIME ≤ ms ∧ ms ≤ MAX_TIME then .ok (isoCodes ms) else .error "Invalid time value"

/-- The fields of the frontmatter, in order. -/
def frontmatterFields (fields : SubmissionDraftFields) (githubLogin : Option Units) (now : Units)
    (config : TargetConfig) : Except String (List (Units × Written)) :=
  match buildTarget (targetFields fields) config with
  | .error message => .error message
  | .ok target =>
      match submittedAt parseDate now with
      | .error message => .error message
      | .ok submitted => .ok (emitted (slots fields githubLogin target submitted))

def buildContributorMdx (fields : SubmissionDraftFields) (githubLogin : Option Units) (now : Units)
    (config : TargetConfig) : Except String Units :=
  match frontmatterFields parseDate fields githubLogin now config with
  | .error message => .error message
  | .ok written => .ok (frontmatterText written ++ newline :: bodyText fields)

end Builder
/-! ## Values over several rows -/

def Clean (row : Units) : Prop := newline ∉ row ∧ carriageReturn ∉ row

instance (row : Units) : Decidable (Clean row) := inferInstanceAs (Decidable (_ ∧ _))

theorem Clean.append {row other : Units} (h : Clean row) (h' : Clean other) :
    Clean (row ++ other) :=
  ⟨fun hmem => (List.mem_append.mp hmem).elim h.1 h'.1,
    fun hmem => (List.mem_append.mp hmem).elim h.2 h'.2⟩

/-- What is written behind a row break, two blanks or one before it. -/
def indented (rows : List Units) : Units := rows.flatMap fun row => newline :: space :: row

/-- Every row of the text but the first starts with a blank. -/
def Folded (text : Units) : Prop :=
  ∃ first more, Clean first ∧ (∀ row ∈ more, Clean row) ∧ text = first ++ indented more

theorem Clean.folded {text : Units} (h : Clean text) : Folded text :=
  ⟨text, [], h, List.forall_mem_nil _, (List.append_nil text).symm⟩

theorem Folded.append {text other : Units} (h : Folded text) (h' : Folded other) :
    Folded (text ++ other) := by
  obtain ⟨first, more, hfirst, hmore, rfl⟩ := h
  obtain ⟨first', more', hfirst', hmore', rfl⟩ := h'
  rcases List.eq_nil_or_concat' more with rfl | ⟨before, last, rfl⟩
  · refine ⟨first ++ first', more', hfirst.append hfirst', hmore', ?_⟩
    simp [indented]
  · have hlast : Clean last := hmore last (List.mem_append_right _ (List.mem_singleton_self _))
    refine ⟨first, before ++ (last ++ first') :: more', hfirst, ?_, ?_⟩
    · intro row hrow
      rcases List.mem_append.mp hrow with hrow | hrow
      · exact hmore row (List.mem_append_left _ hrow)
      · rcases List.mem_cons.mp hrow with rfl | hrow
        · exact hlast.append hfirst'
        · exact hmore' row hrow
    · simp [indented]

theorem folded_intercalate {separator : Units} (hsep : Clean separator) {texts : List Units}
    (h : ∀ text ∈ texts, Folded text) : Folded (separator.intercalate texts) := by
  induction texts with
  | nil => exact Clean.folded ⟨List.not_mem_nil, List.not_mem_nil⟩
  | cons text texts ih =>
    have htext := h text (List.mem_cons_self ..)
    have htexts := ih fun later hlater => h later (List.mem_cons_of_mem _ hlater)
    cases texts with
    | nil =>
      rw [List.intercalate_singleton]
      exact htext
    | cons next rest =>
      rw [List.intercalate_cons_cons]
      exact (htext.append hsep.folded).append htexts

theorem carriageReturn_not_mem_unifyBreaks (text : Units) :
    carriageReturn ∉ unifyBreaks text := by
  induction text with
  | nil => exact List.not_mem_nil
  | cons unit rest ih =>
    rw [unifyBreaks]
    split_ifs with hreturn hpair
    · exact ih
    · exact fun hmem => (List.mem_cons.mp hmem).elim (fun h => absurd h (by decide)) ih
    · exact fun hmem => (List.mem_cons.mp hmem).elim (fun h => hreturn h.symm) ih

theorem mem_splitLines {text row : Units} (h : row ∈ splitLines text) :
    newline ∉ row ∧ ∀ unit ∈ row, unit ∈ text := by
  induction text generalizing row with
  | nil =>
    rw [splitLines, List.mem_singleton] at h
    rw [h]
    exact ⟨List.not_mem_nil, fun _ hunit => absurd hunit List.not_mem_nil⟩
  | cons unit rest ih =>
    have hlater : row ∈ splitLines rest → newline ∉ row ∧ ∀ u ∈ row, u ∈ unit :: rest :=
      fun hrow => ⟨(ih hrow).1, fun u hu => List.mem_cons_of_mem _ ((ih hrow).2 u hu)⟩
    rw [splitLines] at h
    split_ifs at h with hbreak
    · rcases List.mem_cons.mp h with rfl | h
      · exact ⟨List.not_mem_nil, fun _ hunit => absurd hunit List.not_mem_nil⟩
      · exact hlater h
    · cases hlines : splitLines rest with
      | nil => exact absurd hlines (splitLines_ne_nil rest)
      | cons line lines =>
        rw [hlines] at h hlater ih
        rcases List.mem_cons.mp h with rfl | h
        · obtain ⟨hline, hmem⟩ := ih (List.mem_cons_self ..)
          refine ⟨fun hnew => ?_, fun u hu => ?_⟩
          · exact (List.mem_cons.mp hnew).elim (fun h => hbreak h.symm) hline
          · rcases List.mem_cons.mp hu with rfl | hu
            · exact List.mem_cons_self ..
            · exact List.mem_cons_of_mem _ (hmem u hu)
        · exact hlater (List.mem_cons_of_mem _ h)

theorem clean_jsonQuoted (text : Units) : Clean (jsonQuoted text) := by
  obtain ⟨hlf, hcr⟩ := noBreak_jsonEscape text
  have houter : ∀ unit, unit ≠ doubleQuote → unit ∉ jsonEscape text → unit ∉ jsonQuoted text := by
    intro unit hquote hescape hmem
    rw [jsonQuoted, List.cons_append] at hmem
    rcases List.mem_cons.mp hmem with hmem | hmem
    · exact hquote hmem
    · rcases List.mem_append.mp hmem with hmem | hmem
      · exact hescape hmem
      · exact hquote (List.mem_singleton.mp hmem)
  exact ⟨houter _ (by decide) hlf, houter _ (by decide) hcr⟩

/-- A block is its indicator and its rows, each behind a break and a blank. -/
theorem yamlScalar_of_break {value : Units} (h : newline ∈ scalarText value) :
    yamlScalar value =
      [bar] ++ indented ((splitLines (scalarText value)).map fun line => space :: line) := by
  rw [yamlScalar, if_pos h]
  cases hlines : splitLines (scalarText value) with
  | nil => exact absurd hlines (splitLines_ne_nil _)
  | cons line lines =>
    rw [List.map_cons, intercalate_cons, behind, indented, List.map_cons, List.flatMap_cons,
      List.flatMap_map, List.flatMap_map]
    rfl

theorem yamlScalar_of_line {value : Units} (h : newline ∉ scalarText value) :
    yamlScalar value = jsonQuoted (scalarText value) := by
  rw [yamlScalar]
  exact if_neg h

theorem folded_yamlScalar (value : Units) : Folded (yamlScalar value) := by
  by_cases hbreak : newline ∈ scalarText value
  · refine ⟨[bar], _, by decide, ?_, yamlScalar_of_break hbreak⟩
    intro row hrow
    obtain ⟨line, hline, rfl⟩ := List.mem_map.mp hrow
    obtain ⟨hlf, hmem⟩ := mem_splitLines hline
    have hcr : carriageReturn ∉ line := fun h =>
      carriageReturn_not_mem_unifyBreaks (trim value) (hmem _ h)
    exact ⟨fun h => (List.mem_cons.mp h).elim (fun h => absurd h (by decide)) hlf,
      fun h => (List.mem_cons.mp h).elim (fun h => absurd h (by decide)) hcr⟩
  · rw [yamlScalar_of_line hbreak]
    exact (clean_jsonQuoted _).folded

theorem folded_encode (written : Written) : Folded (encode written) := by
  cases written with
  | scalar value => exact folded_yamlScalar value
  | list texts =>
    have hinner : Folded ((units ", ").intercalate (texts.map yamlScalar)) := by
      refine folded_intercalate (by decide) fun text htext => ?_
      obtain ⟨value, -, rfl⟩ := List.mem_map.mp htext
      exact folded_yamlScalar value
    have hopen : Clean [91] := by
      decide
    have hclose : Clean [93] := by
      decide
    exact hopen.folded.append (hinner.append hclose.folded)

/-! ## The row of the key -/

/-- What of a value stands on its key's row. -/
def opening (text : Units) : Units := text.takeWhile fun unit => unit ≠ newline

theorem opening_append (text other : Units) :
    opening (text ++ other) = if newline ∈ text then opening text else text ++ opening other := by
  rw [opening, opening, opening]
  split_ifs with hbreak
  · rw [List.takeWhile_append]
    refine if_neg fun hall => ?_
    have hwhole := (List.takeWhile_prefix _).eq_of_length hall
    have hnone := List.mem_takeWhile_imp (hwhole ▸ hbreak)
    simp at hnone
  · rw [List.takeWhile_append_of_pos]
    intro unit hunit
    rw [decide_eq_true_iff]
    rintro rfl
    exact hbreak hunit

theorem opening_of_clean {text : Units} (h : Clean text) : opening text = text := by
  have happend := opening_append text []
  rw [if_neg h.1, List.append_nil] at happend
  rw [happend]
  exact List.append_nil text

theorem opening_folded {first : Units} (h : Clean first) (more : List Units) :
    opening (first ++ indented more) = first := by
  have hnone : opening (indented more) = [] := by
    cases more with
    | nil => rfl
    | cons row rest =>
      rw [indented, List.flatMap_cons, opening, List.cons_append, List.takeWhile_cons_of_neg]
      simp
  rw [opening_append, if_neg h.1, hnone, List.append_nil]

theorem hasSeparator_append (text other : Units) :
    hasSeparator (text ++ other) = (hasSeparator text || hasSeparator other) := List.any_append

theorem hasSeparator_jsonQuoted (text : Units) :
    hasSeparator (jsonQuoted text) = hasSeparator text := by
  have hescape : hasSeparator (jsonEscape text) = hasSeparator text := by
    rw [Bool.eq_iff_iff, hasSeparator, hasSeparator, List.any_eq_true, List.any_eq_true]
    constructor
    · rintro ⟨unit, hunit, hsep⟩
      rcases mem_jsonEscape hunit with hdot | ⟨-, hmem⟩
      · simp only [isSeparator, Bool.or_eq_true, decide_eq_true_eq] at hsep
        simp only [isDot, Bool.and_eq_true, decide_eq_true_eq, ne_eq] at hdot
        omega
      · exact ⟨unit, hmem, hsep⟩
    · rintro ⟨unit, hunit, hsep⟩
      exact ⟨unit, mem_jsonEscape_of_isSeparator hsep hunit, hsep⟩
  have hquote : hasSeparator [doubleQuote] = false := by decide
  rw [jsonQuoted, ← List.singleton_append, List.append_assoc, hasSeparator_append,
    hasSeparator_append, hescape, hquote, Bool.false_or, Bool.or_false]

theorem newline_mem_yamlScalar (value : Units) :
    newline ∈ yamlScalar value ↔ newline ∈ scalarText value := by
  by_cases hbreak : newline ∈ scalarText value
  · refine iff_of_true ?_ hbreak
    rw [yamlScalar, if_pos hbreak]
    exact List.mem_cons_of_mem _ (List.mem_cons_self ..)
  · refine iff_of_false ?_ hbreak
    rw [yamlScalar_of_line hbreak]
    exact (clean_jsonQuoted _).1

theorem hasSeparator_opening_of_break {value : Units} (h : newline ∈ scalarText value) :
    hasSeparator (opening (yamlScalar value)) = false := by
  rw [yamlScalar_of_break h, opening_folded (by decide)]
  decide

theorem hasSeparator_yamlScalar {value : Units} (h : newline ∉ scalarText value) :
    hasSeparator (yamlScalar value) = hasSeparator (scalarText value) := by
  rw [yamlScalar_of_line h, hasSeparator_jsonQuoted]

/-- The values of a list up to the first with several lines, which is where its row ends. -/
def onRow (texts : List Units) : List Units :=
  texts.takeWhile fun text => newline ∉ scalarText text

/-- No line separator stands on the key's own row: a scalar has several lines or none of
them, and a list has none before its row ends. -/
def Plain : Written → Prop
  | .scalar value => newline ∈ scalarText value ∨ hasSeparator (scalarText value) = false
  | .list texts => ∀ text ∈ onRow texts, hasSeparator (scalarText text) = false

instance : (written : Written) → Decidable (Plain written)
  | .scalar _ => inferInstanceAs (Decidable (_ ∨ _))
  | .list _ => inferInstanceAs (Decidable (∀ text ∈ _, _))

theorem hasSeparator_opening_list (texts : List Units) {tail : Units}
    (htail : hasSeparator (opening tail) = false) :
    hasSeparator (opening ((units ", ").intercalate (texts.map yamlScalar) ++ tail)) = false ↔
      ∀ text ∈ onRow texts, hasSeparator (scalarText text) = false := by
  induction texts with
  | nil => exact iff_of_true htail (List.forall_mem_nil _)
  | cons text texts ih =>
    by_cases hbreak : newline ∈ scalarText text
    · have hrow : onRow (text :: texts) = [] := List.takeWhile_cons_of_neg (by simpa using hbreak)
      rw [hrow]
      refine iff_of_true ?_ (List.forall_mem_nil _)
      have hfirst : ∀ rest, hasSeparator (opening (yamlScalar text ++ rest)) = false := by
        intro rest
        rw [opening_append, if_pos ((newline_mem_yamlScalar text).mpr hbreak)]
        exact hasSeparator_opening_of_break hbreak
      cases texts with
      | nil =>
        rw [List.map_singleton, List.intercalate_singleton]
        exact hfirst tail
      | cons next rest =>
        rw [List.map_cons, List.map_cons, List.intercalate_cons_cons, List.append_assoc,
          List.append_assoc]
        exact hfirst _
    · have hrow : onRow (text :: texts) = text :: onRow texts :=
        List.takeWhile_cons_of_pos (by simpa using hbreak)
      have hfirst : ∀ rest, hasSeparator (opening (yamlScalar text ++ rest)) =
          (hasSeparator (scalarText text) || hasSeparator (opening rest)) := by
        intro rest
        rw [opening_append, if_neg (fun h => hbreak ((newline_mem_yamlScalar text).mp h)),
          hasSeparator_append, hasSeparator_yamlScalar hbreak]
      rw [hrow, List.forall_mem_cons, ← ih]
      cases texts with
      | nil =>
        rw [List.map_singleton, List.intercalate_singleton, hfirst, htail, Bool.or_false]
        exact (and_iff_left (by exact htail)).symm
      | cons next rest =>
        have hcomma : ∀ more, hasSeparator (opening (units ", " ++ more)) =
            hasSeparator (opening more) := by
          intro more
          rw [opening_append, if_neg (by decide), hasSeparator_append]
          exact Bool.false_or _
        rw [List.map_cons, List.map_cons, List.intercalate_cons_cons, List.append_assoc,
          List.append_assoc, hfirst, hcomma, Bool.or_eq_false_iff]

theorem plain_iff (written : Written) :
    Plain written ↔ hasSeparator (opening (encode written)) = false := by
  cases written with
  | scalar value =>
    by_cases hbreak : newline ∈ scalarText value
    · exact iff_of_true (Or.inl hbreak) (hasSeparator_opening_of_break hbreak)
    · have hclean : Clean (yamlScalar value) := by
        rw [yamlScalar_of_line hbreak]
        exact clean_jsonQuoted _
      rw [encode, opening_of_clean hclean, hasSeparator_yamlScalar hbreak]
      exact or_iff_right hbreak
  | list texts =>
    have htail : hasSeparator (opening [93]) = false := by decide
    have hopen : ∀ rest, hasSeparator (opening (91 :: rest)) = hasSeparator (opening rest) := by
      intro rest
      rw [← List.singleton_append, opening_append, if_neg (by decide), hasSeparator_append]
      exact Bool.false_or _
    rw [encode, flowList, hopen, hasSeparator_opening_list texts htail]
    exact Iff.rfl

/-! ## The rows of the file -/

theorem splitRows_folded {first : Units} {more : List Units} (hfirst : Clean first)
    (hmore : ∀ row ∈ more, Clean row) :
    splitRows (first ++ indented more) = first :: more.map (space :: ·) := by
  have hrows : ∀ row ∈ first :: more.map (space :: ·), newline ∉ row ∧ carriageReturn ∉ row := by
    intro row hrow
    rcases List.mem_cons.mp hrow with rfl | hrow
    · exact hfirst
    · obtain ⟨inner, hinner, rfl⟩ := List.mem_map.mp hrow
      have hspace : Clean [space] := by
        decide
      exact hspace.append (hmore inner hinner)
  rw [← splitRows_intercalate (List.cons_ne_nil _ _) hrows, intercalate_cons, behind, indented,
    List.flatMap_map]

theorem splitRows_append_of_folded {text : Units} (h : Folded text) (rest : Units) :
    splitRows (text ++ newline :: rest) = splitRows text ++ splitRows rest := by
  obtain ⟨first, more, hfirst, hmore, rfl⟩ := h
  rw [splitRows_folded hfirst hmore]
  induction more generalizing first with
  | nil =>
    rw [indented, List.flatMap_nil, List.append_nil]
    exact splitRows_append_newline hfirst.1 hfirst.2 rest
  | cons row more ih =>
    have hspace : Clean [space] := by
      decide
    have hrow := hspace.append (hmore row (List.mem_cons_self ..))
    have hlater := fun later hlater => hmore later (List.mem_cons_of_mem _ hlater)
    have hsplit : first ++ indented (row :: more) ++ newline :: rest =
        first ++ newline :: (([space] ++ row) ++ indented more ++ newline :: rest) := by
      simp [indented]
    rw [hsplit, splitRows_append_newline hfirst.1 hfirst.2, ih _ hrow hlater]
    rfl

theorem clean_key {key : Units} (h : isKey key = true) : Clean key := by
  have hkeys := List.all_eq_true.mp (Bool.and_eq_true_iff.mp h).2
  constructor
  · exact fun hmem => absurd (hkeys _ hmem) (by decide)
  · exact fun hmem => absurd (hkeys _ hmem) (by decide)

/-- The rows of a field: its key's row, and rows behind a blank. -/
theorem rows_fieldLine {field : Units × Written} (hkey : isKey field.1 = true) :
    ∃ more : List Units, Folded (fieldLine field) ∧
      splitRows (fieldLine field) =
        (field.1 ++ colon :: space :: opening (encode field.2)) :: more.map (space :: ·) := by
  obtain ⟨first, more, hfirst, hmore, heq⟩ := folded_encode field.2
  have hhead : Clean (field.1 ++ colon :: space :: first) := by
    have hmarks : Clean [colon, space] := by
      decide
    exact (clean_key hkey).append (hmarks.append hfirst)
  have hline : fieldLine field = (field.1 ++ colon :: space :: first) ++ indented more := by
    rw [fieldLine, heq]
    simp
  rw [heq, opening_folded hfirst, hline]
  exact ⟨more, ⟨_, more, hhead, hmore, rfl⟩, splitRows_folded hhead hmore⟩

theorem isDot_iff_not_isSeparator {unit : ℕ} (hlf : unit ≠ newline) (hcr : unit ≠ carriageReturn) :
    isDot unit = !isSeparator unit := by
  rw [newline] at hlf
  rw [carriageReturn] at hcr
  simp [isDot, isSeparator, hlf, hcr]

theorem all_isDot_of_clean {text : Units} (h : Clean text) :
    text.all isDot = !hasSeparator text := by
  rw [Bool.eq_iff_iff, Bool.not_eq_true', hasSeparator, List.any_eq_false, List.all_eq_true]
  refine forall₂_congr fun unit hunit => ?_
  have hlf : unit ≠ newline := fun heq => h.1 (heq ▸ hunit)
  have hcr : unit ≠ carriageReturn := fun heq => h.2 (heq ▸ hunit)
  rw [isDot_iff_not_isSeparator hlf hcr, Bool.not_eq_true', Bool.not_eq_true]

theorem clean_opening_encode (written : Written) : Clean (opening (encode written)) := by
  obtain ⟨first, more, hfirst, -, heq⟩ := folded_encode written
  rw [heq, opening_folded hfirst]
  exact hfirst

/-- A field is found by its key, unless its key's row holds a line separator. -/
theorem keysOf_fieldLine {field : Units × Written} (hkey : isKey field.1 = true) :
    keysOf (splitRows (fieldLine field)) =
      if hasSeparator (opening (encode field.2)) then [] else [field.1] := by
  obtain ⟨more, -, hrows⟩ := rows_fieldLine hkey
  have hblank : keysOf (more.map (space :: ·)) = [] := by
    rw [keysOf, List.map_eq_nil_iff, List.filterMap_eq_nil_iff]
    intro row hrow
    obtain ⟨inner, -, rfl⟩ := List.mem_map.mp hrow
    exact headOf_of_startsIndented (by rw [startsIndented_cons]; decide)
  have hdots : (space :: opening (encode field.2)).all isDot =
      !hasSeparator (opening (encode field.2)) := by
    rw [List.all_cons, all_isDot_of_clean (clean_opening_encode field.2)]
    exact Bool.true_and _
  have hhead := headOf_keyLine hkey (space :: opening (encode field.2))
  rw [hdots] at hhead
  rw [hrows]
  cases hsep : hasSeparator (opening (encode field.2)) with
  | true =>
    rw [hsep] at hhead
    rw [keysOf_cons_none hhead, hblank]
    rfl
  | false =>
    rw [hsep] at hhead
    rw [keysOf_cons_some hhead, hblank]
    rfl

/-- A field whose key's row the reader can read. -/
def isShown (field : Units × Written) : Bool := !hasSeparator (opening (encode field.2))

def fieldRows (fields : List (Units × Written)) : List Units :=
  fields.flatMap fun field => splitRows (fieldLine field)

theorem keysOf_append (rows more : List Units) :
    keysOf (rows ++ more) = keysOf rows ++ keysOf more := by
  rw [keysOf, List.filterMap_append, List.map_append, keysOf, keysOf]

theorem keysOf_fieldRows {fields : List (Units × Written)}
    (hkeys : ∀ field ∈ fields, isKey field.1 = true) :
    keysOf (fieldRows fields) = (fields.filter isShown).map Prod.fst := by
  induction fields with
  | nil => rfl
  | cons field fields ih =>
    have hfield := keysOf_fieldLine (hkeys field (List.mem_cons_self ..))
    have hrest := ih fun later hlater => hkeys later (List.mem_cons_of_mem _ hlater)
    rw [fieldRows, List.flatMap_cons, keysOf_append, hfield, ← fieldRows, hrest, List.filter_cons]
    cases hsep : hasSeparator (opening (encode field.2)) with
    | true => simp [isShown, hsep]
    | false => simp [isShown, hsep]

theorem splitRows_frontmatter {fields : List (Units × Written)}
    (hkeys : ∀ field ∈ fields, isKey field.1 = true) (body : Units) :
    splitRows (frontmatterText fields ++ newline :: body) =
      fence :: fieldRows fields ++ fence :: splitRows body := by
  have hclosing : splitRows (fence ++ newline :: body) = fence :: splitRows body :=
    splitRows_append_newline (by decide) (by decide) body
  have hfields : ∀ (fields : List (Units × Written)), (∀ field ∈ fields, isKey field.1 = true) →
      splitRows ([newline].intercalate (fields.map fieldLine ++ [fence]) ++ newline :: body) =
        fieldRows fields ++ fence :: splitRows body := by
    intro fields
    induction fields with
    | nil =>
      intro _
      rw [List.map_nil, List.nil_append, List.intercalate_singleton]
      exact hclosing
    | cons field rest ih =>
      intro hkeys
      obtain ⟨-, hfolded, -⟩ := rows_fieldLine (hkeys field (List.mem_cons_self ..))
      have hne : rest.map fieldLine ++ [fence] ≠ [] := by simp
      obtain ⟨next, later, hnext⟩ := List.exists_cons_of_ne_nil hne
      rw [List.map_cons, List.cons_append, hnext, List.intercalate_cons_cons, ← hnext,
        List.append_assoc, List.append_assoc, List.singleton_append,
        splitRows_append_of_folded hfolded,
        ih fun later hlater => hkeys later (List.mem_cons_of_mem _ hlater), ← List.append_assoc]
      rfl
  have hne : fields.map fieldLine ++ [fence] ≠ [] := by simp
  obtain ⟨next, later, hnext⟩ := List.exists_cons_of_ne_nil hne
  rw [frontmatterText, List.cons_append, hnext, List.intercalate_cons_cons, ← hnext,
    List.append_assoc, List.append_assoc, List.singleton_append,
    splitRows_append_newline (by decide) (by decide), hfields fields hkeys]
  rfl

theorem fieldRows_ne_fence {fields : List (Units × Written)}
    (hkeys : ∀ field ∈ fields, isKey field.1 = true) : fence ∉ fieldRows fields := by
  intro hmem
  obtain ⟨field, hfield, hrow⟩ := List.mem_flatMap.mp hmem
  have hkey := hkeys field hfield
  obtain ⟨more, -, hrows⟩ := rows_fieldLine hkey
  rw [hrows] at hrow
  rcases List.mem_cons.mp hrow with heq | hrow
  · have hletter := (Bool.and_eq_true_iff.mp hkey).1
    cases hname : field.1 with
    | nil =>
      rw [hname] at hletter
      exact Bool.false_ne_true hletter
    | cons first more =>
      rw [hname] at heq hletter
      rw [List.head?_cons, Option.any_some, ← (List.cons.inj heq).1] at hletter
      exact absurd hletter (by decide)
  · obtain ⟨inner, -, heq⟩ := List.mem_map.mp hrow
    exact absurd (List.cons.inj heq).1 (by decide)

/-- The block the reader sees ends at the builder's closing fence. -/
theorem frontmatterLines_file {field : Units × Written} {fields : List (Units × Written)}
    (hkeys : ∀ other ∈ field :: fields, isKey other.1 = true) (body : Units) :
    frontmatterLines (frontmatterText (field :: fields) ++ newline :: body) =
      some (fieldRows (field :: fields)) := by
  obtain ⟨more, -, hrows⟩ := rows_fieldLine (hkeys field (List.mem_cons_self ..))
  have hall := fieldRows_ne_fence hkeys
  have hsplit : fieldRows (field :: fields) =
      (field.1 ++ colon :: space :: opening (encode field.2)) ::
        (more.map (space :: ·) ++ fieldRows fields) := by
    rw [fieldRows, List.flatMap_cons, hrows, ← fieldRows]
    rfl
  rw [hsplit] at hall
  have hkept : ∀ row ∈ more.map (space :: ·) ++ fieldRows fields, decide (row ≠ fence) = true := by
    intro row hrow
    rw [decide_eq_true_eq]
    rintro rfl
    exact hall (List.mem_cons_of_mem _ hrow)
  rw [frontmatterLines, splitRows_frontmatter hkeys, hsplit, List.cons_append, List.cons_append]
  simp only
  rw [if_pos ⟨trivial, List.mem_append_right _ (List.mem_cons_self ..)⟩,
    List.takeWhile_append_of_pos hkept, List.takeWhile_cons_of_neg (by simp), List.append_nil]

/-- Read back, the keys are those of the fields that the reader can read, in order. -/
theorem keys_parse {source : Units} {rows : List Units} (h : frontmatterLines source = some rows)
    (hnodup : (keysOf rows).Nodup) :
    (parseSimpleFrontmatter source).map Prod.fst = keysOf rows := by
  have hmade : (assignmentsIn source).map Prod.fst = keysOf rows := by
    rw [assignmentsIn, h]
    exact map_fst_assignments rows
  have hfresh : ((assignmentsIn source).map Prod.fst).Nodup := by
    rw [hmade]
    exact hnodup
  have hkept := @foldl_upsertWith_of_fresh _ Units _ Prod.fst _
    (fun assignment stored => (stored.1, assignment.2)) id (assignmentsIn source) []
    hfresh (fun _ _ _ hstored => absurd hstored List.not_mem_nil)
  rw [List.nil_append, List.map_id] at hkept
  rw [← hmade]
  exact congrArg (List.map Prod.fst) hkept

theorem noDuplicates {source : Units} {rows : List Units} (h : frontmatterLines source = some rows)
    (hnodup : (keysOf rows).Nodup) : findDuplicateFrontmatterKeys source = [] := by
  refine List.eq_nil_iff_forall_not_mem.mpr fun key hkey => ?_
  rw [mem_findDuplicateFrontmatterKeys_iff, assignmentsIn, h] at hkey
  simp only [map_fst_assignments] at hkey
  have := List.nodup_iff_count_le_one.mp hnodup key
  omega

/-! ## The builder's keys -/

theorem keys_emitted_sublist (slots : List (Units × Option Written)) :
    ((emitted slots).map Prod.fst).Sublist (slots.map Prod.fst) := by
  induction slots with
  | nil => exact List.Sublist.refl _
  | cons slot slots ih =>
    obtain ⟨key, written⟩ := slot
    cases written with
    | none => exact ih.cons key
    | some value => exact ih.cons_cons key

/-- The keys of the builder's lines, in order. -/
def builderKeys : List Units :=
  [units "title", units "slug", units "category", units "description", units "cardDescription",
    units "seoTitle", units "seoDescription", units "author", units "authorProfileUrl",
    units "dateAdded", units "submittedBy", units "submittedByUrl", units "submittedAt",
    units "tags", units "brandName", units "brandDomain", units "repoUrl",
    units "documentationUrl", units "websiteUrl", units "downloadUrl", units "installCommand",
    units "usageSnippet", units "configSnippet", units "copySnippet", units "commandSyntax",
    units "trigger", units "scriptLanguage", units "prerequisites", units "safetyNotes",
    units "privacyNotes", units "retrievalSources", units "testedPlatforms", units "skillType",
    units "skillLevel", units "verificationStatus", units "verifiedAt", units "items",
    units "pricingModel", units "disclosure"]

theorem keys_slots (fields : SubmissionDraftFields) (githubLogin : Option Units) (target : Target)
    (submitted : Units) :
    (slots fields githubLogin target submitted).map Prod.fst = builderKeys := rfl

theorem builderKeys_facts : builderKeys.Nodup ∧ builderKeys.all isKey = true := by
  decide +kernel

section Reading

variable {parseDate : Units → Option ℤ} {fields : SubmissionDraftFields}
  {githubLogin : Option Units} {now : Units} {config : TargetConfig}
  {written : List (Units × Written)}

/-- The first field is always the title. -/
theorem exists_of_frontmatterFields
    (h : frontmatterFields parseDate fields githubLogin now config = .ok written) :
    (written.map Prod.fst).Sublist builderKeys ∧ ∃ first rest, written = first :: rest := by
  rw [frontmatterFields] at h
  cases htarget : buildTarget (targetFields fields) config with
  | error message =>
    rw [htarget] at h
    cases h
  | ok target =>
    rw [htarget] at h
    dsimp only at h
    cases htime : submittedAt parseDate now with
    | error message =>
      rw [htime] at h
      cases h
    | ok submitted =>
      rw [htime] at h
      obtain rfl := Except.ok.inj h
      refine ⟨?_, _, _, rfl⟩
      rw [← keys_slots fields githubLogin target submitted]
      exact keys_emitted_sublist _

/-- The gate reads the block that was written: it ends at the builder's own fence, and no key
is there twice. -/
theorem block_of_frontmatterFields
    (h : frontmatterFields parseDate fields githubLogin now config = .ok written) (body : Units) :
    let source := frontmatterText written ++ newline :: body
    frontmatterLines source = some (fieldRows written) ∧
      (parseSimpleFrontmatter source).map Prod.fst = (written.filter isShown).map Prod.fst ∧
      findDuplicateFrontmatterKeys source = [] := by
  obtain ⟨hkeys, first, rest, rfl⟩ := exists_of_frontmatterFields h
  have hkey : ∀ field ∈ first :: rest, isKey field.1 = true := fun field hfield =>
    List.all_eq_true.mp builderKeys_facts.2 _ (hkeys.subset (List.mem_map_of_mem hfield))
  have hlines := frontmatterLines_file hkey body
  have hshown := keysOf_fieldRows hkey
  have hnodup : (keysOf (fieldRows (first :: rest))).Nodup := by
    rw [hshown]
    exact builderKeys_facts.1.sublist ((List.filter_sublist.map Prod.fst).trans hkeys)
  exact ⟨hlines, (keys_parse hlines hnodup).trans hshown, noDuplicates hlines hnodup⟩

/-- The gate finds exactly the keys that the builder wrote, none of them twice, in a block
that ends at the builder's closing fence, if and only if no value puts a line separator on
its key's own line. -/
theorem keys_read_iff {output : Units}
    (hfields : frontmatterFields parseDate fields githubLogin now config = .ok written)
    (h : buildContributorMdx parseDate fields githubLogin now config = .ok output) :
    ((parseSimpleFrontmatter output).map Prod.fst = written.map Prod.fst ∧
      findDuplicateFrontmatterKeys output = [] ∧
      frontmatterLines output = some (fieldRows written)) ↔
    ∀ field ∈ written, Plain field.2 := by
  rw [buildContributorMdx, hfields] at h
  obtain rfl := Except.ok.inj h
  obtain ⟨hlines, hkeys, hdupes⟩ := block_of_frontmatterFields hfields (bodyText fields)
  rw [hlines, hkeys, hdupes]
  have hplain : (∀ field ∈ written, Plain field.2) ↔ written.filter isShown = written := by
    rw [List.filter_eq_self]
    refine forall₂_congr fun field _ => ?_
    rw [plain_iff, isShown, Bool.not_eq_true']
  rw [hplain]
  constructor
  · rintro ⟨heq, -, -⟩
    refine List.Sublist.eq_of_length List.filter_sublist ?_
    have hlength := congrArg List.length heq
    rwa [List.length_map, List.length_map] at hlength
  · intro heq
    rw [heq]
    exact ⟨rfl, rfl, rfl⟩

end Reading

/-! ## Two submissions -/

def missing : FieldValue := ⟨true, false, []⟩

def given (value : Units) : FieldValue := ⟨false, true, value⟩

/-- A tool with two lines of usage, a list of notes, and a name of its own. -/
def toolFields (name : Units) : SubmissionDraftFields := fun key =>
  if key = "category" then given (units "Tools")
  else if key = "name" then given name
  else if key = "tags" then given (units "cli, terminal")
  else if key = "usage_snippet" then given (units "run:\n---\ntitle: forged")
  else if key = "safety_notes" then given (units "Reads files\r\nWrites none")
  else missing

def toolMdxFields (name : Units) : Except String (List (Units × Written)) :=
  frontmatterFields (fun _ => some 0) (toolFields name) (some (units "octocat")) (units "now")
    draftConfig

theorem tool_plain :
    ∃ written ∈ (toolMdxFields (units "My Tool")).toOption,
      written.all (fun field => decide (Plain field.2)) = true := by
  decide +kernel

theorem buildContributorMdx_of_fields {parseDate : Units → Option ℤ}
    {fields : SubmissionDraftFields} {githubLogin : Option Units} {now : Units}
    {config : TargetConfig} {written : List (Units × Written)}
    (h : frontmatterFields parseDate fields githubLogin now config = .ok written) :
    buildContributorMdx parseDate fields githubLogin now config =
      .ok (frontmatterText written ++ newline :: bodyText fields) := by
  rw [buildContributorMdx, h]

theorem tool_keys_read :
    ∃ written output, toolMdxFields (units "My Tool") = .ok written ∧
      (parseSimpleFrontmatter output).map Prod.fst = written.map Prod.fst ∧
      findDuplicateFrontmatterKeys output = [] ∧
      frontmatterLines output = some (fieldRows written) := by
  obtain ⟨written, hwritten, hplain⟩ := tool_plain
  have hok := ok_of_toOption hwritten
  refine ⟨written, _, hok, (keys_read_iff hok (buildContributorMdx_of_fields hok)).mpr ?_⟩
  exact fun field hfield => of_decide_eq_true (List.all_eq_true.mp hplain field hfield)

/-- The name of a tool, with a line separator in it. -/
def partedName : Units := units "My" ++ 0x2028 :: units "Tool"

theorem title_mem {parseDate : Units → Option ℤ} {fields : SubmissionDraftFields}
    {githubLogin : Option Units} {now : Units} {config : TargetConfig}
    {written : List (Units × Written)}
    (h : frontmatterFields parseDate fields githubLogin now config = .ok written) :
    (units "title", Written.scalar (titleOf fields)) ∈ written := by
  rw [frontmatterFields] at h
  cases htarget : buildTarget (targetFields fields) config with
  | error message =>
    rw [htarget] at h
    cases h
  | ok target =>
    rw [htarget] at h
    dsimp only at h
    cases htime : submittedAt parseDate now with
    | error message =>
      rw [htime] at h
      cases h
    | ok submitted =>
      rw [htime] at h
      obtain rfl := Except.ok.inj h
      exact List.mem_cons_self ..

/-- The line of a title with a line separator is lost: the gate finds no title. -/
theorem separator_hides_title :
    ¬ ∀ (parseDate : Units → Option ℤ) (fields : SubmissionDraftFields)
      (githubLogin : Option Units) (now : Units) (config : TargetConfig)
      (written : List (Units × Written)) (output : Units),
      frontmatterFields parseDate fields githubLogin now config = .ok written →
      buildContributorMdx parseDate fields githubLogin now config = .ok output →
      (parseSimpleFrontmatter output).map Prod.fst = written.map Prod.fst := by
  intro h
  have hsome : (toolMdxFields partedName).toOption.isSome = true := by
    decide +kernel
  obtain ⟨written, hwritten⟩ := Option.isSome_iff_exists.mp hsome
  have hok := ok_of_toOption hwritten
  obtain ⟨-, hkeys, -⟩ := block_of_frontmatterFields hok (bodyText (toolFields partedName))
  have hread := h _ _ _ _ _ written _ hok (buildContributorMdx_of_fields hok)
  have hall : written.filter isShown = written := by
    refine List.Sublist.eq_of_length List.filter_sublist ?_
    have hlength := congrArg List.length (hkeys.symm.trans hread)
    rwa [List.length_map, List.length_map] at hlength
  have hshown := List.filter_eq_self.mp hall _ (title_mem hok)
  exact absurd hshown (by decide +kernel)

end Gittensory.ContributorMdx
