import Gittensory.ProtectedEdits

/-!
Edits below a protected field's own line. The reader takes in the lines of a block scalar
up to the first unindented one that is not blank, the lines of a sequence up to the first
blank or unindented one, and nothing below a value on the field's line. An edit of a line
it does not take in goes unreported; one that it takes in is reported, where the second
unquoting finds nothing to take away.
-/
namespace Gittensory.ContinuationEdits

open CodeUnits WordRuns Frontmatter ProtectedEdits

/-- A file at the last line that starts a field: what stands behind that line's colon, the
lines above it and those below. -/
structure LastLine (source key tail : Units) (pre below : List Units) : Prop where
  lines : ∃ line, headOf line = some (key, tail) ∧
    frontmatterLines source = some (pre ++ line :: below)
  last : key ∉ keysOf below

/-! ## The lines of a value -/

inductive Shape where
  | block
  | sequence
  | inline
  deriving DecidableEq

def shapeOf (inline : Units) : Shape :=
  if isBlockIndicator inline then .block else if inline = [] then .sequence else .inline

/-- Whether a line still belongs to the value. -/
def Shape.takes : Shape → Units → Bool
  | .block, line => inBlock line
  | .sequence, line => inList line
  | .inline, _ => false

/-- A taken line without its indentation and dash. -/
def Shape.textOf : Shape → Units → Units
  | .block, line => line.dropWhile isSpace
  | .sequence, line => listItem line
  | .inline, _ => []

def separator (inline : Units) : Units :=
  match shapeOf inline with
  | .block => if inline.head? = some greaterSign then [space] else [newline]
  | .sequence => units ", "
  | .inline => []

/-- The taken lines, joined. -/
def joined (inline : Units) (below : List Units) : Units :=
  (separator inline).intercalate
    ((below.takeWhile (shapeOf inline).takes).map (shapeOf inline).textOf)

/-- The ink of every taken line. -/
def readLines (shape : Shape) (below : List Units) : List Units :=
  (below.takeWhile shape.takes).map (fun line => (shape.textOf line).filter isInk)

/-- The reader takes a line in, given the lines between the field's line and it. -/
def Captured (shape : Shape) (above : List Units) (line : Units) : Prop :=
  ∀ taken ∈ above ++ [line], shape.takes taken = true

instance decidableCaptured (shape : Shape) (above : List Units) (line : Units) :
    Decidable (Captured shape above line) :=
  inferInstanceAs (Decidable (∀ taken ∈ above ++ [line], shape.takes taken = true))

/-- The ink that is read of a line: none of one that is not taken in. -/
def readOf (shape : Shape) (above : List Units) (line : Units) : Units :=
  if Captured shape above line then (shape.textOf line).filter isInk else []

theorem trim_fieldValue {inline : Units} (h : shapeOf inline ≠ .inline) (below : List Units) :
    trim (fieldValue inline below) = trim (joined inline below) := by
  by_cases hblock : isBlockIndicator inline = true
  · have hshape : shapeOf inline = .block := if_pos hblock
    rw [fieldValue, if_pos hblock, joined, separator, hshape]
    exact trim_trim _
  · by_cases hempty : inline = []
    · subst hempty
      rfl
    · exact absurd ((if_neg hblock).trans (if_neg hempty)) h

/-- Nothing is lost where a text neither stands in quotes nor ends in a comment. -/
structure Bare (text : Units) : Prop where
  unquoted : ∀ quote ∈ [doubleQuote, singleQuote], enclosedBy quote (trim text) = false
  uncommented : ∀ rest, rest <:+ trim text → startsComment rest = false

theorem words_unquote_of_bare {text value : Units} (h : Bare text)
    (hvalue : trim value = trim text) :
    words isInk (unquoteYamlScalar value) = words isInk text := by
  rw [unquoteYamlScalar, hvalue, h.unquoted _ List.mem_cons_self,
    h.unquoted _ (List.mem_cons_of_mem _ (List.mem_singleton_self _)), Bool.or_false,
    if_neg Bool.false_ne_true, cutComment_of_uncommented h.uncommented,
    words_trim not_isSpace_of_isInk, words_trim not_isSpace_of_isInk]

theorem filter_intercalate {α : Type*} (p : α → Bool) (separator : List α)
    (lines : List (List α)) :
    (separator.intercalate lines).filter p =
      (separator.filter p).intercalate (lines.map (List.filter p)) := by
  induction lines with
  | nil => rfl
  | cons line rest ih =>
    cases rest with
    | nil => rw [List.intercalate_singleton, List.map_singleton, List.intercalate_singleton]
    | cons next more =>
      rw [List.map_cons, List.map_cons, List.intercalate_cons_cons, List.intercalate_cons_cons,
        List.filter_append, List.filter_append, ih, List.map_cons]

theorem filter_isInk_joined (inline : Units) (below : List Units) :
    (joined inline below).filter isInk =
      ((separator inline).filter isInk).intercalate (readLines (shapeOf inline) below) := by
  rw [joined, filter_intercalate, List.map_map]
  rfl

/-- Values of one shape are joined by the same ink. -/
theorem filter_isInk_separator {inline inline' : Units} (h : shapeOf inline = shapeOf inline') :
    (separator inline).filter isInk = (separator inline').filter isInk := by
  have hblank : ∀ inline : Units, ((if inline.head? = some greaterSign then [space]
      else [newline]).filter isInk) = [] := by
    intro inline
    split_ifs <;> decide
  unfold separator
  rw [← h]
  cases shapeOf inline with
  | block => simp only [hblank]
  | sequence => rfl
  | inline => rfl

theorem comparedWords_of_lastLine {source key tail : Units} {pre below : List Units}
    (h : LastLine source key tail pre below) :
    comparedWords (fieldOf (parseSimpleFrontmatter source) key) =
      words isInk (unquoteYamlScalar (fieldValue (trim tail) below)) := by
  obtain ⟨line, hline, hlines⟩ := h.lines
  rw [fieldOf_parse_of_last hlines hline h.last, comparedWords, Option.getD_some]

/-- The ink that the comparison sees of a bare value. -/
theorem flatten_comparedWords {source key tail : Units} {pre below : List Units}
    (h : LastLine source key tail pre below) (hshape : shapeOf (trim tail) ≠ .inline)
    (hbare : Bare (joined (trim tail) below)) :
    (comparedWords (fieldOf (parseSimpleFrontmatter source) key)).flatten =
      ((separator (trim tail)).filter isInk).intercalate
        (readLines (shapeOf (trim tail)) below) := by
  rw [comparedWords_of_lastLine h, words_unquote_of_bare hbare (trim_fieldValue hshape below),
    flatten_words, filter_isInk_joined]

/-! ## An edited line -/

theorem readLines_of_captured {shape : Shape} {above : List Units} {line : Units}
    (h : Captured shape above line) (below : List Units) :
    readLines shape (above ++ line :: below) =
      readLines shape above ++ readOf shape above line :: readLines shape below := by
  have habove : ∀ taken ∈ above, shape.takes taken = true := fun taken htaken =>
    h taken (List.mem_append_left _ htaken)
  have hline : shape.takes line = true := h line (by simp)
  rw [readOf, if_pos h, readLines, readLines, List.takeWhile_append_of_pos habove,
    List.takeWhile_cons_of_pos hline, List.takeWhile_eq_self_iff.mpr habove, List.map_append,
    List.map_cons, readLines]

/-- A line that is not taken in, and the lines below it, have no part in the value. -/
theorem readLines_of_not_captured {shape : Shape} {above : List Units} {line : Units}
    (h : ¬ Captured shape above line) (below : List Units) :
    readLines shape (above ++ line :: below) = readLines shape above := by
  have hcut : (above ++ line :: below).takeWhile shape.takes = above.takeWhile shape.takes := by
    induction above with
    | nil =>
      have hline : ¬ shape.takes line = true := fun hline => h (by simpa [Captured] using hline)
      rw [List.nil_append, List.takeWhile_cons_of_neg hline, List.takeWhile_nil]
    | cons first above ih =>
      rw [List.cons_append]
      by_cases hfirst : shape.takes first = true
      · have hrest : ¬ Captured shape above line := fun hrest =>
          h (List.forall_mem_cons.mpr ⟨hfirst, hrest⟩)
        rw [List.takeWhile_cons_of_pos hfirst, List.takeWhile_cons_of_pos hfirst, ih hrest]
      · rw [List.takeWhile_cons_of_neg hfirst, List.takeWhile_cons_of_neg hfirst]
  rw [readLines, hcut, readLines]

theorem intercalate_append_cons {α : Type*} (separator : List α) (above : List (List α))
    (line : List α) (below : List (List α)) :
    separator.intercalate (above ++ line :: below) =
      above.flatMap (fun before => before ++ separator) ++
        (line ++ below.flatMap (fun behind => separator ++ behind)) := by
  induction above with
  | nil =>
    rw [List.nil_append, List.flatMap_nil, List.nil_append]
    induction below generalizing line with
    | nil => rw [List.intercalate_singleton, List.flatMap_nil, List.append_nil]
    | cons next below ih =>
      rw [List.intercalate_cons_cons, ih, List.flatMap_cons, List.append_assoc, List.append_assoc]
  | cons first above ih =>
    rw [List.cons_append, List.intercalate_cons_of_ne_nil (by simp), ih, List.flatMap_cons]
    simp only [List.append_assoc]

theorem length_intercalate_le {α : Type*} (separator : List α) (lines : List (List α)) :
    (separator.intercalate lines).length ≤
      (lines.flatMap (fun line => line ++ separator)).length := by
  rcases List.eq_nil_or_concat' lines with rfl | ⟨init, last, rfl⟩
  · exact Nat.le_refl 0
  · rw [intercalate_append_cons, List.flatMap_append, List.flatMap_singleton]
    simp only [List.flatMap_nil, List.append_nil, List.length_append]
    omega

/-- A line with ink makes the joined lines longer. -/
theorem intercalate_ne_of_ne_nil {α : Type*} (separator : List α) (above : List (List α))
    {line : List α} (h : line ≠ []) (below : List (List α)) :
    separator.intercalate (above ++ line :: below) ≠ separator.intercalate above := by
  intro heq
  have hlength := congrArg List.length heq
  have hle := length_intercalate_le separator above
  have hpos := List.length_pos_iff.mpr h
  rw [intercalate_append_cons] at hlength
  simp only [List.length_append] at hlength
  omega

/-- Two versions of a value that the reader tells apart by one line: they have one shape, what
is read above the line is the same, what is read of the line is not, and what is read below it
is the same where both versions take it in. -/
structure LineEdited (inline inline' : Units) (above above' : List Units) (edited edited' : Units)
    (below below' : List Units) : Prop where
  sameShape : shapeOf inline = shapeOf inline'
  sameAbove : readLines (shapeOf inline) above = readLines (shapeOf inline) above'
  differs : readOf (shapeOf inline) above edited ≠ readOf (shapeOf inline) above' edited'
  sameBelow : Captured (shapeOf inline) above edited → Captured (shapeOf inline) above' edited' →
    readLines (shapeOf inline) below = readLines (shapeOf inline) below'

section Edit

variable {inline inline' : Units} {above above' : List Units} {edited edited' : Units}
  {below below' : List Units}

theorem LineEdited.shape_ne_inline
    (h : LineEdited inline inline' above above' edited edited' below below') :
    shapeOf inline ≠ .inline := by
  intro hinline
  have hnone : ∀ (above : List Units) (line : Units), readOf .inline above line = [] := by
    intro above line
    refine if_neg fun hcaptured => ?_
    exact Bool.false_ne_true (hcaptured line (by simp))
  apply h.differs
  rw [hinline, hnone, hnone]

theorem LineEdited.intercalate_ne
    (h : LineEdited inline inline' above above' edited edited' below below')
    (separator : Units) :
    separator.intercalate (readLines (shapeOf inline) (above ++ edited :: below)) ≠
      separator.intercalate (readLines (shapeOf inline) (above' ++ edited' :: below')) := by
  have hnone : ∀ {above : List Units} {line : Units}, ¬ Captured (shapeOf inline) above line →
      readOf (shapeOf inline) above line = [] := fun hnot => if_neg hnot
  by_cases hcaptured : Captured (shapeOf inline) above edited
  · rw [readLines_of_captured hcaptured]
    by_cases hcaptured' : Captured (shapeOf inline) above' edited'
    · rw [readLines_of_captured hcaptured', h.sameAbove, h.sameBelow hcaptured hcaptured',
        intercalate_append_cons, intercalate_append_cons]
      exact fun heq => h.differs (List.append_cancel_right (List.append_cancel_left heq))
    · rw [readLines_of_not_captured hcaptured', h.sameAbove]
      exact intercalate_ne_of_ne_nil _ _ (hnone hcaptured' ▸ h.differs) _
  · have hline : readOf (shapeOf inline) above' edited' ≠ [] :=
      (hnone hcaptured ▸ h.differs).symm
    have hcaptured' : Captured (shapeOf inline) above' edited' :=
      not_not.mp fun hnot => hline (hnone hnot)
    rw [readLines_of_not_captured hcaptured, readLines_of_captured hcaptured', h.sameAbove]
    exact (intercalate_ne_of_ne_nil _ _ hline _).symm

end Edit

/-- An edit of one line below a field's line is reported, where the reader takes that line in
and the second unquoting finds nothing to take away. -/
theorem continuation_edit_reported {before after key tail tail' edited edited' : Units}
    {pre pre' above above' below below' : List Units}
    (hkey : key ∈ PROTECTED_FRONTMATTER_FIELDS)
    (hbefore : LastLine before key tail pre (above ++ edited :: below))
    (hafter : LastLine after key tail' pre' (above' ++ edited' :: below'))
    (hedited : LineEdited (trim tail) (trim tail') above above' edited edited' below below')
    (hbare : Bare (joined (trim tail) (above ++ edited :: below)))
    (hbare' : Bare (joined (trim tail') (above' ++ edited' :: below'))) :
    key ∈ protectedFrontmatterChanges before after := by
  rw [mem_protectedFrontmatterChanges hkey]
  intro heq
  have hshape := hedited.shape_ne_inline
  have hink := congrArg List.flatten heq
  rw [flatten_comparedWords hbefore hshape hbare,
    flatten_comparedWords hafter (hedited.sameShape ▸ hshape) hbare',
    ← filter_isInk_separator hedited.sameShape, ← hedited.sameShape] at hink
  exact hedited.intercalate_ne _ hink

/-! ## Lines of plain text -/

/-- Neither quotes nor number signs. -/
def Plain (text : Units) : Prop :=
  ∀ unit ∈ text, unit ≠ doubleQuote ∧ unit ≠ singleQuote ∧ unit ≠ numberSign

instance decidablePlain (text : Units) : Decidable (Plain text) :=
  inferInstanceAs (Decidable (∀ unit ∈ text, _))

theorem bare_of_plain {text : Units} (h : Plain text) : Bare text where
  unquoted quote hquote := by
    refine not_enclosedBy_of_not_mem fun hmem => ?_
    have hunit := h quote (mem_of_mem_trim hmem)
    rcases List.mem_cons.mp hquote with rfl | hsingle
    · exact hunit.1 rfl
    · exact hunit.2.1 (List.mem_singleton.mp hsingle)
  uncommented rest hrest := by
    refine startsComment_of_not_mem fun hmem => ?_
    exact (h _ (mem_of_mem_trim (hrest.subset hmem))).2.2 rfl

def authorEdited (tail line : String) : Units := blockOf ("author:" ++ tail ++ "\n" ++ line)

theorem lastLine_authorEdited {tail line : String}
    (hlines : frontmatterLines (authorEdited tail line) =
      some [units ("author:" ++ tail), units line])
    (hhead : headOf (units ("author:" ++ tail)) = some (units "author", units tail))
    (hline : headOf (units line) = none) :
    LastLine (authorEdited tail line) (units "author") (units tail) []
      ([] ++ units line :: []) where
  lines := ⟨units ("author:" ++ tail), hhead, hlines⟩
  last := by
    rw [List.nil_append, keysOf_cons_none hline]
    exact List.not_mem_nil

theorem block_edit_reported :
    units "author" ∈ protectedFrontmatterChanges (authorEdited " |-" "  ann")
      (authorEdited " |-" "  bob") :=
  continuation_edit_reported (by decide)
    (lastLine_authorEdited (by decide +kernel) (by decide) (by decide))
    (lastLine_authorEdited (by decide +kernel) (by decide) (by decide))
    ⟨rfl, rfl, by decide, fun _ _ => rfl⟩ (bare_of_plain (by decide))
    (bare_of_plain (by decide))

/-- The author's name changes on the line below, and no change is reported. -/
def HiddenEdit (tail lead : String) : Prop :=
  (frontmatterLines (authorEdited tail (lead ++ "ann"))).map keysOf = some [units "author"] ∧
  (frontmatterLines (authorEdited tail (lead ++ "bob"))).map keysOf = some [units "author"] ∧
  (units (lead ++ "ann")).filter isInk ≠ (units (lead ++ "bob")).filter isInk ∧
  units "author" ∉ protectedFrontmatterChanges (authorEdited tail (lead ++ "ann"))
    (authorEdited tail (lead ++ "bob"))

instance (tail lead : String) : Decidable (HiddenEdit tail lead) :=
  inferInstanceAs (Decidable (_ ∧ _))

/-- A block scalar whose indentation indicator comes before its chomping indicator, and the
line below a plain value, are not taken in at all; no more is a sequence that is not indented
or stands below a blank line. -/
theorem continuation_edits_hidden :
    HiddenEdit " |2-" "  " ∧ HiddenEdit " ann" "  " ∧ HiddenEdit "" "- " ∧
      HiddenEdit "" "\n  - " := by
  decide +kernel

end Gittensory.ContinuationEdits
