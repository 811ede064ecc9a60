import Gittensory.Frontmatter
import Mathlib.Data.List.Lex
import Mathlib.Data.List.Sort

/-!
The gate on edits of protected frontmatter fields: both versions of an entry are read, each
protected field's values are unquoted once more and compared up to white space. An edit
escapes it where the second unquoting cuts the value, where the reader does not take the
edited line into the value, or where the field's line is no field line to the reader.
-/
namespace Gittensory.ProtectedEdits

open CodeUnits WordRuns Frontmatter

def PROTECTED_FRONTMATTER_FIELDS : List Units := [
  units "affiliateUrl",
  units "author",
  units "authorProfileUrl",
  units "category",
  units "claimStatus",
  units "claimUrl",
  units "dateAdded",
  units "disclosure",
  units "downloadUrl",
  units "importPrNumber",
  units "importPrUrl",
  units "packageUrl",
  units "packageVerified",
  units "pricingModel",
  units "reviewedAt",
  units "reviewedBy",
  units "reviewedPrNumber",
  units "slug",
  units "submittedAt",
  units "submittedBy",
  units "submittedByUrl",
  units "sourceSubmissionNumber",
  units "sourceSubmissionUrl"]

def normalizeProtectedValue (value : Option Units) : Units :=
  collapseSpaces (unquoteYamlScalar (value.getD []))

def protectedFrontmatterChanges (beforeSource afterSource : Units) : List Units :=
  let before := parseSimpleFrontmatter beforeSource
  let after := parseSimpleFrontmatter afterSource
  (PROTECTED_FRONTMATTER_FIELDS.filter fun field =>
    normalizeProtectedValue (fieldOf before field) ≠
      normalizeProtectedValue (fieldOf after field)).insertionSort (· ≤ ·)

/-- The words of a value after the second unquoting, all the comparison looks at. -/
def comparedWords (value : Option Units) : List Units :=
  words isInk (unquoteYamlScalar (value.getD []))

theorem mem_protectedFrontmatterChanges {field : Units}
    (hfield : field ∈ PROTECTED_FRONTMATTER_FIELDS) (before after : Units) :
    field ∈ protectedFrontmatterChanges before after ↔
      comparedWords (fieldOf (parseSimpleFrontmatter before) field) ≠
        comparedWords (fieldOf (parseSimpleFrontmatter after) field) := by
  rw [protectedFrontmatterChanges, List.mem_insertionSort, List.mem_filter, decide_eq_true_eq,
    normalizeProtectedValue, normalizeProtectedValue, comparedWords, comparedWords, Ne, Ne,
    collapseSpaces_eq_iff]
  exact and_iff_right hfield

/-! ## An edit of one quoted value -/

/-- The line `field: "content"`, with whatever stands behind the closing quote. -/
def quotedLine (field gap content tail : Units) : Units :=
  field ++ colon :: (gap ++ doubleQuote :: (content ++ doubleQuote :: tail))

/-- What is seen of a quoted content: what stands inside single quotes around it, or else
before the first white space that a number sign follows. -/
def visiblePart (content : Units) : Units :=
  if enclosedBy singleQuote (trim content) then ((trim content).drop 1).dropLast
  else cutComment (trim content)

/-- What is seen of the value of a quoted line. Behind the closing quote stands a comment at
most; with one there, the unquoting is applied to the whole rest of the line, and leaves what
`words_seenOf_comment` says. -/
def seenOf (content tail : Units) : Units :=
  if isBlank tail then visiblePart content
  else unquoteYamlScalar (unquoteYamlScalar (doubleQuote :: (content ++ doubleQuote :: tail)))

/-- The words the comparison sees of a field after its quoted line: a line terminator that
`.` does not match leaves the field as the lines above have it. -/
def seenWords (pre : List Units) (field content tail : Units) : List Units :=
  if (content ++ tail).all isDot then words isInk (seenOf content tail)
  else comparedWords (lastValue (assignments pre) field)

theorem not_enclosedBy_of_not_mem {quote : ℕ} {text : Units} (h : quote ∉ text) :
    enclosedBy quote text = false := by
  rw [enclosedBy, Bool.and_eq_false_iff]
  left
  rw [decide_eq_false_iff_not]
  exact fun hhead => h (List.mem_of_mem_head? hhead)

/-- A content without double quotes is seen up to its visible part. -/
theorem words_unquoteYamlScalar {content : Units} (h : doubleQuote ∉ content) :
    words isInk (unquoteYamlScalar content) = words isInk (visiblePart content) := by
  have hnot : enclosedBy doubleQuote (trim content) = false :=
    not_enclosedBy_of_not_mem fun hmem => h (mem_of_mem_trim hmem)
  rw [unquoteYamlScalar, visiblePart]
  simp only [hnot, Bool.false_or]
  split_ifs with hsingle
  · rw [words_trim not_isSpace_of_isInk]
  · rw [words_trim not_isSpace_of_isInk]

/-- The words left of a quoted value after both unquotings. -/
theorem words_seenOf {content : Units} (hcontent : doubleQuote ∉ content) (tail : Units) :
    words isInk (unquoteYamlScalar
      (unquoteYamlScalar (doubleQuote :: (content ++ doubleQuote :: tail)))) =
    words isInk (seenOf content tail) := by
  rw [seenOf]
  split_ifs with htail
  · rw [unquoteYamlScalar_quoted htail, unquoteYamlScalar_trim, words_unquoteYamlScalar hcontent]
  · rfl

theorem isKey_of_protected {field : Units} (h : field ∈ PROTECTED_FRONTMATTER_FIELDS) :
    isKey field = true :=
  have hall : PROTECTED_FRONTMATTER_FIELDS.all isKey = true := by decide
  List.all_eq_true.mp hall field h

/-- A file with one line exchanged: the fields that line cannot reach stay, and its own is
reported when no later line gives it again and its words differ. -/
theorem mem_changes_iff_of_line {field before after line line' : Units} {pre post : List Units}
    (hfield : field ∈ PROTECTED_FRONTMATTER_FIELDS) (hline : inBlock line = false)
    (hline' : inBlock line' = false)
    (hbefore : frontmatterLines before = some (pre ++ line :: post))
    (hafter : frontmatterLines after = some (pre ++ line' :: post)) :
    field ∈ protectedFrontmatterChanges before after ↔ field ∉ keysOf post ∧
      comparedWords (lastValue (assignments pre ++ assignedAt line post) field) ≠
        comparedWords (lastValue (assignments pre ++ assignedAt line' post) field) := by
  rw [mem_protectedFrontmatterChanges hfield, fieldOf_parse hbefore, fieldOf_parse hafter,
    assignments_append_cons hline, assignments_append_cons hline', assignments_cons,
    assignments_cons, ← List.append_assoc, ← List.append_assoc]
  by_cases hlater : field ∈ keysOf post
  · have hmem : field ∈ (assignments post).map Prod.fst := by
      rw [map_fst_assignments]
      exact hlater
    rw [lastValue_append_of_mem hmem _ (assignments pre ++ assignedAt line' post)]
    constructor
    · exact fun h => absurd rfl h
    · exact fun h => absurd hlater h.1
  · have hnot : field ∉ (assignments post).map Prod.fst := by
      rw [map_fst_assignments]
      exact hlater
    rw [lastValue_append_of_not_mem hnot, lastValue_append_of_not_mem hnot, and_iff_right hlater]

/-- Spaces and tabs, all that may stand between the colon and the opening quote. -/
def IsGap (gap : Units) : Prop := ∀ unit ∈ gap, unit = 32 ∨ unit = 9

instance (gap : Units) : Decidable (IsGap gap) :=
  inferInstanceAs (Decidable (∀ unit ∈ gap, unit = 32 ∨ unit = 9))

theorem isSpace_of_isGap {gap : Units} (h : IsGap gap) : ∀ unit ∈ gap, isSpace unit = true := by
  intro unit hunit
  rcases h unit hunit with rfl | rfl
  · decide
  · decide

theorem all_isDot_quoted {gap content tail : Units} (hgap : IsGap gap) :
    (gap ++ doubleQuote :: (content ++ doubleQuote :: tail)).all isDot =
      (content ++ tail).all isDot := by
  have hdot : gap.all isDot = true := by
    rw [List.all_eq_true]
    intro unit hunit
    rcases hgap unit hunit with rfl | rfl
    · decide
    · decide
  have hquote : isDot doubleQuote = true := by decide
  rw [List.all_append, List.all_append, List.all_cons, List.all_append, List.all_cons, hdot,
    hquote]
  simp only [Bool.true_and]

/-- The words the comparison sees of a field once its quoted line is read. -/
theorem comparedWords_quotedLine {field gap content tail : Units} {pre post : List Units}
    (hfield : field ∈ PROTECTED_FRONTMATTER_FIELDS) (hgap : IsGap gap)
    (hcontent : doubleQuote ∉ content) :
    comparedWords (lastValue
      (assignments pre ++ assignedAt (quotedLine field gap content tail) post) field) =
    seenWords pre field content tail := by
  rw [assignedAt, quotedLine, headOf_keyLine (isKey_of_protected hfield), all_isDot_quoted hgap,
    seenWords]
  split_ifs with hdot
  · have htrim : trim (gap ++ doubleQuote :: (content ++ doubleQuote :: tail)) =
        trim (doubleQuote :: (content ++ doubleQuote :: tail)) :=
      trim_append_of_space (isSpace_of_isGap hgap) _
    have hhead : (trim (doubleQuote :: (content ++ doubleQuote :: tail))).head? =
        some doubleQuote := by
      apply head?_trim_of_head?_dropWhile
      rw [List.dropWhile_cons_of_neg (Bool.eq_false_iff.mp isSpace_doubleQuote)]
      rfl
    rw [Option.map_some, Option.toList_some, assignmentOf, htrim, fieldValue_quoted hhead,
      unquoteYamlScalar_trim, lastValue_append_cons List.not_mem_nil, comparedWords,
      Option.getD_some, words_seenOf hcontent]
  · rw [Option.map_none, Option.toList_none, List.append_nil]

theorem mem_changes_iff_of_quotedLine {before after field gap content content' tail : Units}
    {pre post : List Units} (hfield : field ∈ PROTECTED_FRONTMATTER_FIELDS) (hgap : IsGap gap)
    (hcontent : doubleQuote ∉ content) (hcontent' : doubleQuote ∉ content')
    (hbefore : frontmatterLines before = some (pre ++ quotedLine field gap content tail :: post))
    (hafter : frontmatterLines after = some (pre ++ quotedLine field gap content' tail :: post)) :
    field ∈ protectedFrontmatterChanges before after ↔ field ∉ keysOf post ∧
      seenWords pre field content tail ≠ seenWords pre field content' tail := by
  have hblock : ∀ text, inBlock (quotedLine field gap text tail) = false :=
    fun text => inBlock_keyLine (isKey_of_protected hfield) _
  rw [mem_changes_iff_of_line hfield (hblock content) (hblock content') hbefore hafter,
    comparedWords_quotedLine hfield hgap hcontent, comparedWords_quotedLine hfield hgap hcontent']

/-- Two files alike but for the double-quoted value on one line of a protected field. -/
structure QuotedEdit (before after field content content' tail : Units)
    (pre post : List Units) : Prop where
  isProtected : field ∈ PROTECTED_FRONTMATTER_FIELDS
  plain : ∀ unit ∈ content ++ content', unit ≠ doubleQuote ∧ unit ≠ backslash
  lines : ∃ gap, IsGap gap ∧
    frontmatterLines before = some (pre ++ quotedLine field gap content tail :: post) ∧
    frontmatterLines after = some (pre ++ quotedLine field gap content' tail :: post)

theorem QuotedEdit.not_mem_left {before after field content content' tail : Units}
    {pre post : List Units} (h : QuotedEdit before after field content content' tail pre post) :
    doubleQuote ∉ content :=
  fun hmem => (h.plain _ (List.mem_append_left _ hmem)).1 rfl

theorem QuotedEdit.not_mem_right {before after field content content' tail : Units}
    {pre post : List Units} (h : QuotedEdit before after field content content' tail pre post) :
    doubleQuote ∉ content' :=
  fun hmem => (h.plain _ (List.mem_append_right _ hmem)).1 rfl

/-- An edit of one double-quoted value is reported exactly when no later line gives the
field again and what is seen of the two contents differs by more than white space. -/
theorem quoted_edit_reported_iff {before after field content content' tail : Units}
    {pre post : List Units} (h : QuotedEdit before after field content content' tail pre post) :
    field ∈ protectedFrontmatterChanges before after ↔ field ∉ keysOf post ∧
      seenWords pre field content tail ≠ seenWords pre field content' tail := by
  obtain ⟨gap, hgap, hbefore, hafter⟩ := h.lines
  exact mem_changes_iff_of_quotedLine h.isProtected hgap h.not_mem_left h.not_mem_right
    hbefore hafter

def blockOf (lines : String) : Units := units ("---\n" ++ lines ++ "\n---\n")

theorem quoted_author_renamed :
    QuotedEdit (blockOf "author: \"ann\" # owner") (blockOf "author: \"bob\" # owner")
      (units "author") (units "ann") (units "bob") (units " # owner") [] [] where
  isProtected := by decide
  plain := by decide
  lines := ⟨units " ", by decide, by decide, by decide⟩

theorem quoted_author_reported :
    units "author" ∈ protectedFrontmatterChanges (blockOf "author: \"ann\" # owner")
      (blockOf "author: \"bob\" # owner") :=
  (quoted_edit_reported_iff quoted_author_renamed).mpr (by decide +kernel)

/-- Two contents that differ behind a number sign only are taken for the same. -/
theorem quoted_number_sign_hidden :
    QuotedEdit (blockOf "author: \"v1 #a\"") (blockOf "author: \"v1 #b\"")
      (units "author") (units "v1 #a") (units "v1 #b") [] [] [] ∧
    (units "v1 #a").filter isInk ≠ (units "v1 #b").filter isInk ∧
    units "author" ∉ protectedFrontmatterChanges (blockOf "author: \"v1 #a\"")
      (blockOf "author: \"v1 #b\"") := by
  refine ⟨?_, by decide, by decide +kernel⟩
  exact ⟨by decide, by decide, units " ", by decide, by decide, by decide⟩

/-! ## A comment behind the quote -/

theorem startsComment_of_not_mem {text : Units} (h : numberSign ∉ text) :
    startsComment text = false := by
  rw [startsComment, Bool.and_eq_false_iff]
  right
  cases hdrop : text.dropWhile isSpace with
  | nil => rfl
  | cons first more =>
    have hmem : first ∈ text := by
      apply (List.dropWhile_sublist isSpace).subset
      rw [hdrop]
      exact List.mem_cons_self ..
    have hne : first ≠ numberSign := fun heq => h (heq ▸ hmem)
    simp [hne]

theorem cutComment_of_uncommented {text : Units}
    (h : ∀ rest, rest <:+ text → startsComment rest = false) : cutComment text = text := by
  induction text with
  | nil => rfl
  | cons unit rest ih =>
    rw [cutComment, h _ List.suffix_rfl, if_neg Bool.false_ne_true,
      ih fun more hmore => h more (hmore.trans (List.suffix_cons unit rest))]

theorem startsComment_append {text more : Units} (h : startsComment text = true)
    (hmore : more.all isDot = true) : startsComment (text ++ more) = true := by
  cases text with
  | nil => cases h
  | cons first text =>
    rw [startsComment, Bool.and_eq_true] at h ⊢
    refine ⟨h.1, ?_⟩
    have hcomment := h.2
    cases hdrop : (first :: text).dropWhile isSpace with
    | nil =>
      rw [hdrop] at hcomment
      cases hcomment
    | cons unit rest =>
      have hmoreDrop : ((first :: text) ++ more).dropWhile isSpace = unit :: (rest ++ more) := by
        rw [List.dropWhile_append, hdrop]
        rfl
      rw [hdrop, Bool.and_eq_true] at hcomment
      rw [hmoreDrop, Bool.and_eq_true, List.all_append, hmore, Bool.and_true]
      exact hcomment

/-- A comment starts before a quote or behind it. -/
theorem startsComment_quote (text tail : Units)
    (hdot : (doubleQuote :: tail).all isDot = true) :
    startsComment (text ++ doubleQuote :: tail) = startsComment text := by
  cases hcomment : startsComment text with
  | true => exact startsComment_append hcomment hdot
  | false =>
    cases text with
    | nil => rfl
    | cons first text =>
      rw [startsComment, Bool.and_eq_false_iff] at hcomment ⊢
      refine hcomment.imp id fun hrest => ?_
      rw [List.dropWhile_append]
      cases hdrop : (first :: text).dropWhile isSpace with
      | nil => rfl
      | cons unit rest =>
        rw [hdrop] at hrest
        simp only [List.isEmpty_cons, Bool.false_eq_true, if_false, List.cons_append,
          List.all_append, hdot, Bool.and_true]
        exact hrest

theorem cutComment_quote (content tail : Units) (hdot : (doubleQuote :: tail).all isDot = true) :
    cutComment (content ++ doubleQuote :: tail) =
      if cutComment content = content then content ++ doubleQuote :: cutComment tail
      else cutComment content := by
  induction content with
  | nil =>
    have hnot : startsComment (doubleQuote :: tail) = false := startsComment_quote [] tail hdot
    have hcut : cutComment (doubleQuote :: tail) = doubleQuote :: cutComment tail := by
      rw [cutComment, if_neg (Bool.eq_false_iff.mp hnot)]
    exact hcut
  | cons unit content ih =>
    rw [List.cons_append, cutComment, ← List.cons_append, startsComment_quote _ _ hdot, ih,
      cutComment]
    by_cases hcomment : startsComment (unit :: content) = true
    · rw [if_pos hcomment, if_pos hcomment]
      rfl
    · rw [if_neg hcomment, if_neg hcomment]
      by_cases hsame : cutComment content = content
      · rw [if_pos hsame, if_pos (by rw [hsame])]
        rfl
      · rw [if_neg hsame, if_neg fun heq => hsame (List.cons.inj heq).2]

theorem cutComment_initial (text : Units) : cutComment text <+: text := by
  induction text with
  | nil => exact List.prefix_rfl
  | cons unit rest ih =>
    rw [cutComment]
    split_ifs
    · exact List.nil_prefix
    · exact List.cons_prefix_cons.mpr ⟨rfl, ih⟩

/-- Before the first comment there is none. -/
theorem uncommented_cutComment {text : Units} (hdot : text.all isDot = true) {rest : Units}
    (hrest : rest <:+ cutComment text) : startsComment rest = false := by
  induction text with
  | nil =>
    rw [List.suffix_nil.mp hrest]
    rfl
  | cons unit text ih =>
    have hdots := List.all_eq_true.mp hdot
    rw [cutComment] at hrest
    split_ifs at hrest with hcomment
    · rw [List.suffix_nil.mp hrest]
      rfl
    · rcases List.suffix_cons_iff.mp hrest with rfl | hrest
      · by_contra hstarts
        obtain ⟨more, hmore⟩ := cutComment_initial text
        have hmoreDot : more.all isDot = true := List.all_eq_true.mpr fun other hother =>
          hdots other (List.mem_cons_of_mem _ (hmore ▸ List.mem_append_right _ hother))
        have hwhole := startsComment_append (Bool.not_eq_false _ ▸ hstarts) hmoreDot
        rw [List.cons_append, hmore] at hwhole
        exact hcomment hwhole
      · exact ih (List.all_eq_true.mpr fun other hother =>
          hdots other (List.mem_cons_of_mem _ hother)) hrest

/-- Behind a quote `trim` takes away the end only. -/
theorem exists_trim_quote_eq (text : Units) : ∃ kept trail,
    (∀ unit ∈ trail, isSpace unit = true) ∧ text = kept ++ trail ∧
      trim (doubleQuote :: text) = doubleQuote :: kept := by
  obtain ⟨lead, trail, hlead, htrail, heq⟩ := exists_trim_eq (doubleQuote :: text)
  obtain rfl : lead = [] := by
    cases lead with
    | nil => rfl
    | cons first lead =>
      obtain rfl := (List.cons.inj heq).1
      exact absurd (hlead _ List.mem_cons_self) (by rw [isSpace_doubleQuote]; decide)
  rw [List.nil_append] at heq
  cases htrim : trim (doubleQuote :: text) with
  | nil =>
    rw [htrim, List.nil_append] at heq
    exact absurd (htrail _ (heq ▸ List.mem_cons_self)) (by rw [isSpace_doubleQuote]; decide)
  | cons first kept =>
    rw [htrim] at heq
    obtain ⟨rfl, htext⟩ := List.cons.inj heq
    exact ⟨kept, trail, htrail, htext, rfl⟩

theorem not_enclosedBy_singleQuote (text : Units) :
    enclosedBy singleQuote (doubleQuote :: text) = false := by
  rw [enclosedBy, List.head?_cons, decide_eq_false (by decide), Bool.false_and]

/-- What a comment in the content leaves keeps the opening quote, unless it is nothing. -/
theorem words_unquote_cut {content : Units} (hcontent : doubleQuote ∉ content)
    (hdot : content.all isDot = true) :
    words isInk (unquoteYamlScalar (doubleQuote :: cutComment content)) =
      if isBlank (cutComment content) then []
      else words isInk (doubleQuote :: cutComment content) := by
  have hinitial := (cutComment_initial content).subset
  obtain ⟨kept, trail, htrail, hcut, htrim⟩ := exists_trim_quote_eq (cutComment content)
  rw [unquoteYamlScalar, htrim]
  cases kept with
  | nil =>
    rw [hcut, List.nil_append, if_pos (isBlank_iff.mpr htrail)]
    rfl
  | cons first rest =>
    have hkept : ∀ unit ∈ first :: rest, unit ∈ content := fun unit hunit =>
      hinitial (hcut ▸ List.mem_append_left _ hunit)
    have hdouble : enclosedBy doubleQuote (doubleQuote :: first :: rest) = false := by
      rw [enclosedBy, Bool.and_eq_false_iff, List.getLast?_cons_cons]
      refine Or.inr (decide_eq_false fun hlast => hcontent ?_)
      exact hkept _ (List.mem_of_getLast? hlast)
    have huncommented : ∀ more, more <:+ doubleQuote :: first :: rest →
        startsComment more = false := by
      intro more hmore
      by_contra hstarts
      have htrailDot : trail.all isDot = true := List.all_eq_true.mpr fun unit hunit =>
        List.all_eq_true.mp hdot unit (hinitial (hcut ▸ List.mem_append_right _ hunit))
      have hlonger := startsComment_append (Bool.not_eq_false _ ▸ hstarts) htrailDot
      rcases List.suffix_cons_iff.mp hmore with rfl | hmore
      · cases hlonger
      · have hsuffix : more ++ trail <:+ cutComment content := by
          obtain ⟨before, hbefore⟩ := hmore
          exact ⟨before, by rw [hcut, ← List.append_assoc, hbefore]⟩
        rw [uncommented_cutComment hdot hsuffix] at hlonger
        cases hlonger
    have hnot : ¬ isBlank (cutComment content) = true := by
      intro hblank
      have hquote : trim ([] ++ [doubleQuote] ++ cutComment content) = [doubleQuote] :=
        trim_append (fun _ hunit => absurd hunit List.not_mem_nil) (isBlank_iff.mp hblank)
          (fun unit hunit => by cases hunit; exact isSpace_doubleQuote)
          (fun unit hunit => by cases hunit; exact isSpace_doubleQuote)
      rw [List.nil_append, List.singleton_append, htrim] at hquote
      cases hquote
    rw [if_neg hnot, hdouble, not_enclosedBy_singleQuote, Bool.or_false, if_neg Bool.false_ne_true,
      cutComment_of_uncommented huncommented, words_trim not_isSpace_of_isInk, ← htrim,
      words_trim not_isSpace_of_isInk]

/-- With a comment behind the closing quote, the content is seen whole if no comment starts in
it; otherwise what stands before that, with the opening quote. -/
theorem words_seenOf_comment {content comment trail : Units} {unit : ℕ}
    (hcontent : doubleQuote ∉ content) (hdot : (content ++ comment).all isDot = true)
    (hcomment : startsComment comment = true) (hlast : comment.getLast? = some unit)
    (hink : isInk unit = true) (hquote : unit ≠ doubleQuote)
    (htrail : ∀ unit ∈ trail, isSpace unit = true) :
    words isInk (seenOf content (comment ++ trail)) =
      if cutComment content = content then words isInk content
      else if isBlank (cutComment content) then []
      else words isInk (doubleQuote :: cutComment content) := by
  rw [List.all_append, Bool.and_eq_true] at hdot
  have hnot : ¬ isBlank (comment ++ trail) = true := by
    intro hblank
    have hspace := isBlank_iff.mp hblank unit
      (List.mem_append_left _ (List.mem_of_getLast? hlast))
    rw [not_isSpace_of_isInk unit hink] at hspace
    cases hspace
  have hend : (doubleQuote :: (content ++ doubleQuote :: comment)).getLast? = some unit := by
    rw [← List.cons_append, List.getLast?_append, List.getLast?_cons, hlast]
    rfl
  have htrim : trim (doubleQuote :: (content ++ doubleQuote :: (comment ++ trail))) =
      doubleQuote :: (content ++ doubleQuote :: comment) := by
    have happend := @trim_append [] (doubleQuote :: (content ++ doubleQuote :: comment)) trail nofun
      htrail (fun first hfirst => by cases hfirst; exact isSpace_doubleQuote)
      (fun last hfound => by
        rw [hend] at hfound
        cases hfound
        exact not_isSpace_of_isInk unit hink)
    simpa using happend
  have hdouble : enclosedBy doubleQuote (doubleQuote :: (content ++ doubleQuote :: comment)) =
      false := by
    rw [enclosedBy, hend, Bool.and_eq_false_iff]
    exact Or.inr (decide_eq_false fun heq => hquote (Option.some.inj heq))
  have hcut : cutComment comment = [] := by
    cases comment with
    | nil => cases hcomment
    | cons first rest => rw [cutComment, if_pos hcomment]
  have hstart : cutComment (doubleQuote :: (content ++ doubleQuote :: comment)) =
      doubleQuote :: if cutComment content = content then content ++ [doubleQuote]
        else cutComment content := by
    have hnone : ¬ startsComment (doubleQuote :: (content ++ doubleQuote :: comment)) = true := by
      simp [startsComment, startsIndented, isSpace_doubleQuote]
    rw [cutComment, if_neg hnone, cutComment_quote _ _ (by rw [List.all_cons, hdot.2]; rfl),
      hcut]
  rw [seenOf, if_neg hnot]
  conv_lhs => rw [unquoteYamlScalar.eq_def (doubleQuote :: _), htrim]
  dsimp only
  rw [hdouble, not_enclosedBy_singleQuote, Bool.or_false, if_neg Bool.false_ne_true, hstart,
    unquoteYamlScalar_trim]
  split_ifs with hsame hblank
  · have hquoted := @unquoteYamlScalar_quoted content [] rfl
    rw [hquoted, words_trim not_isSpace_of_isInk]
  · rw [words_unquote_cut hcontent hdot.1, if_pos hblank]
  · rw [words_unquote_cut hcontent hdot.1, if_neg hblank]

/-! ## Contents nothing is cut from -/

theorem cutComment_of_not_mem {text : Units} (h : numberSign ∉ text) : cutComment text = text :=
  cutComment_of_uncommented fun _ hrest =>
    startsComment_of_not_mem fun hmem => h (hrest.subset hmem)

theorem visiblePart_of_plain {content : Units} (hquote : singleQuote ∉ content)
    (hsign : numberSign ∉ content) : visiblePart content = trim content := by
  have hnot := not_enclosedBy_of_not_mem fun hmem => hquote (mem_of_mem_trim hmem)
  rw [visiblePart, if_neg (Bool.eq_false_iff.mp hnot),
    cutComment_of_not_mem fun hmem => hsign (mem_of_mem_trim hmem)]

/-- With neither single quotes nor number signs in the contents, and nothing behind the
closing quote, no edit by more than white space is missed. -/
theorem quoted_edit_reported_of_plain {before after field content content' tail : Units}
    {pre post : List Units} (h : QuotedEdit before after field content content' tail pre post)
    (hlater : field ∉ keysOf post) (htail : isBlank tail = true)
    (hdot : (content ++ tail).all isDot = true) (hdot' : (content' ++ tail).all isDot = true)
    (hplain : ∀ unit ∈ content ++ content', unit ≠ singleQuote ∧ unit ≠ numberSign)
    (hdiffer : content.filter isInk ≠ content'.filter isInk) :
    field ∈ protectedFrontmatterChanges before after := by
  obtain ⟨gap, hgap, hbefore, hafter⟩ := h.lines
  refine (mem_changes_iff_of_quotedLine h.isProtected hgap h.not_mem_left h.not_mem_right
    hbefore hafter).mpr ⟨hlater, ?_⟩
  have hleft : ∀ unit ∈ content, unit ≠ singleQuote ∧ unit ≠ numberSign :=
    fun unit hunit => hplain unit (List.mem_append_left _ hunit)
  have hright : ∀ unit ∈ content', unit ≠ singleQuote ∧ unit ≠ numberSign :=
    fun unit hunit => hplain unit (List.mem_append_right _ hunit)
  rw [seenWords, seenWords, if_pos hdot, if_pos hdot', seenOf, seenOf, if_pos htail, if_pos htail,
    visiblePart_of_plain (fun hmem => (hleft _ hmem).1 rfl) fun hmem => (hleft _ hmem).2 rfl,
    visiblePart_of_plain (fun hmem => (hright _ hmem).1 rfl) fun hmem => (hright _ hmem).2 rfl,
    words_trim not_isSpace_of_isInk, words_trim not_isSpace_of_isInk]
  intro heq
  apply hdiffer
  rw [← flatten_words, heq, flatten_words]

end Gittensory.ProtectedEdits
