import Gittensory.DuplicateSignals

/-!
The frontmatter written for a corpus entry, read back. Every text is written as a JSON
string on the line of its field; the reader strips the quotes and undoes no escape, and it
drops a line that holds a line separator.
-/
namespace Gittensory.EntryFrontmatter

open CodeUnits WordRuns KeyedTable JsonText Frontmatter DuplicateSignals

/-! ## What an escape writes -/

def isSeparator (unit : ℕ) : Bool := unit = 0x2028 || unit = 0x2029

theorem isWordUnit_hexDigit {digit : ℕ} (h : digit < 16) : isWordUnit (hexDigit digit) = true := by
  have hall : ∀ d < 16, isWordUnit (hexDigit d) = true := by decide
  exact hall digit h

/-- The escape of such a unit is a backslash, letters and digits. -/
theorem jsonUnit_of_isSpelled {unit : ℕ} (h : isSpelled unit = true) :
    ∃ written, written ≠ [] ∧ (∀ w ∈ written, isWordUnit w = true) ∧
      jsonUnit unit = backslash :: written := by
  have hrange := isSpelled_iff.mp h
  have hquote : ¬ (unit = doubleQuote ∨ unit = backslash) := by
    unfold doubleQuote backslash
    omega
  rw [jsonUnit, if_neg hquote]
  split_ifs with h8 h9 h10 h12 h13 hspelled
  · exact ⟨[98], List.cons_ne_nil _ _, by decide, rfl⟩
  · exact ⟨[116], List.cons_ne_nil _ _, by decide, rfl⟩
  · exact ⟨[110], List.cons_ne_nil _ _, by decide, rfl⟩
  · exact ⟨[102], List.cons_ne_nil _ _, by decide, rfl⟩
  · exact ⟨[114], List.cons_ne_nil _ _, by decide, rfl⟩
  · refine ⟨_, List.cons_ne_nil _ _, ?_, rfl⟩
    intro w hw
    simp only [List.mem_cons, List.not_mem_nil, or_false] at hw
    rcases hw with rfl | rfl | rfl | rfl | rfl
    · decide
    all_goals exact isWordUnit_hexDigit (Nat.mod_lt _ (by omega))
  · exfalso
    apply hspelled
    simp only [isSpelled, Bool.or_eq_true, decide_eq_true_eq, or_assoc] at h
    exact h

theorem isDot_of_isWordUnit {unit : ℕ} (h : isWordUnit unit = true) : isDot unit = true := by
  simp only [isWordUnit, isDigit, Bool.or_eq_true, Bool.and_eq_true, decide_eq_true_eq] at h
  simp only [isDot, Bool.and_eq_true, decide_eq_true_eq, ne_eq]
  omega

theorem isDot_or_isSeparator {unit : ℕ} (h : 32 ≤ unit) :
    isDot unit = true ∨ isSeparator unit = true := by
  simp only [isDot, isSeparator, Bool.and_eq_true, Bool.or_eq_true, decide_eq_true_eq, ne_eq]
  omega

/-- A JSON string has no line break, and a line separator only for one in the text. -/
theorem mem_jsonEscape {text : Units} {written : ℕ} (h : written ∈ jsonEscape text) :
    isDot written = true ∨ isSeparator written = true ∧ written ∈ text := by
  rw [jsonEscape, jsonEscapeFrom_eq] at h
  obtain ⟨⟨half, unit⟩, hmark, hwritten⟩ := List.mem_flatMap.mp h
  have hunit : unit ∈ text := by
    rw [← map_snd_marked false text]
    exact List.mem_map_of_mem hmark
  have hplain : 32 ≤ unit → written = unit →
      isDot written = true ∨ isSeparator written = true ∧ written ∈ text := by
    rintro hle rfl
    exact (isDot_or_isSeparator hle).imp_right fun hsep => ⟨hsep, hunit⟩
  cases half with
  | true =>
    have hrange := surrogate_of_marked (fun hf => absurd hf Bool.false_ne_true) hmark
    exact hplain (by omega) (List.mem_singleton.mp hwritten)
  | false =>
    have hwritten : written ∈ jsonUnit unit := hwritten
    cases hspelled : isSpelled unit with
    | true =>
      obtain ⟨letters, _, hletters, heq⟩ := jsonUnit_of_isSpelled hspelled
      rw [heq] at hwritten
      left
      rcases List.mem_cons.mp hwritten with rfl | hwritten
      · decide
      · exact isDot_of_isWordUnit (hletters written hwritten)
    | false =>
      have hle : 32 ≤ unit := by
        by_contra hlt
        rw [isSpelled_iff.mpr (Or.inl (by omega))] at hspelled
        exact Bool.false_ne_true hspelled.symm
      rw [jsonUnit_of_not_isSpelled hspelled, quoteUnit] at hwritten
      split_ifs at hwritten
      · rcases List.mem_cons.mp hwritten with rfl | hwritten
        · exact Or.inl (by decide)
        · exact hplain hle (List.mem_singleton.mp hwritten)
      · exact hplain hle (List.mem_singleton.mp hwritten)

theorem mem_jsonEscape_of_isSeparator {text : Units} {unit : ℕ} (hsep : isSeparator unit = true)
    (h : unit ∈ text) : unit ∈ jsonEscape text := by
  rw [← map_snd_marked false text] at h
  obtain ⟨⟨half, other⟩, hmark, rfl⟩ := List.mem_map.mp h
  rw [jsonEscape, jsonEscapeFrom_eq]
  refine List.mem_flatMap.mpr ⟨(half, other), hmark, ?_⟩
  have hvalue : other = 0x2028 ∨ other = 0x2029 := by
    simpa only [isSeparator, Bool.or_eq_true, decide_eq_true_eq] using hsep
  cases half with
  | true => exact List.mem_singleton_self _
  | false =>
    rcases hvalue with rfl | rfl
    · exact List.mem_singleton_self _
    · exact List.mem_singleton_self _

def hasSeparator (text : Units) : Bool := text.any isSeparator

/-- The escaped text stands on one line for the reader unless it holds a line separator. -/
theorem all_isDot_jsonEscape (text : Units) :
    (jsonEscape text).all isDot = !hasSeparator text := by
  cases hsep : hasSeparator text with
  | true =>
    obtain ⟨unit, hunit, hs⟩ := List.any_eq_true.mp hsep
    rw [Bool.not_true, List.all_eq_false]
    refine ⟨unit, mem_jsonEscape_of_isSeparator hs hunit, ?_⟩
    simp only [isSeparator, Bool.or_eq_true, decide_eq_true_eq] at hs
    simp only [isDot, Bool.and_eq_true, decide_eq_true_eq, ne_eq]
    omega
  | false =>
    rw [Bool.not_false, List.all_eq_true]
    intro written hwritten
    rcases mem_jsonEscape hwritten with hdot | ⟨hs, hmem⟩
    · exact hdot
    · rw [hasSeparator, List.any_eq_false] at hsep
      exact absurd hs (hsep written hmem)

theorem noBreak_jsonEscape (text : Units) :
    newline ∉ jsonEscape text ∧ carriageReturn ∉ jsonEscape text := by
  constructor
  · intro h
    rcases mem_jsonEscape h with hdot | ⟨hs, _⟩
    · exact absurd hdot (by decide)
    · exact absurd hs (by decide)
  · intro h
    rcases mem_jsonEscape h with hdot | ⟨hs, _⟩
    · exact absurd hdot (by decide)
    · exact absurd hs (by decide)

/-! ## What the reader makes of an entry -/

/-- What a field holds after the round trip, if anything. -/
def carried (text : Units) : Option Units :=
  if hasSeparator text then none else some (trim (jsonEscape text))

def carry (field : Units × Units) : Option (Units × Units) :=
  (carried field.2).map fun value => (field.1, value)

def scalarLine (field : Units × Units) : Units :=
  field.1 ++ colon :: space :: yamlScalar field.2

theorem assignedAt_scalarLine {field : Units × Units} (hkey : isKey field.1 = true)
    (below : List Units) : assignedAt (scalarLine field) below = (carry field).toList := by
  have hdot : (space :: yamlScalar field.2).all isDot = !hasSeparator field.2 := by
    have hends : isDot space = true ∧ isDot doubleQuote = true := by decide
    rw [yamlScalar, jsonQuoted, List.cons_append, List.all_cons, List.all_cons, List.all_append,
      all_isDot_jsonEscape, List.all_cons, List.all_nil, hends.1, hends.2]
    simp only [Bool.true_and, Bool.and_true]
  have hscalar : yamlScalar field.2 =
      doubleQuote :: (jsonEscape field.2 ++ doubleQuote :: []) := rfl
  have htrim : trim (space :: yamlScalar field.2) = trim (yamlScalar field.2) :=
    trim_append_of_space (show ∀ unit ∈ [space], isSpace unit = true by decide) _
  have hhead : (trim (yamlScalar field.2)).head? = some doubleQuote := by
    apply head?_trim_of_head?_dropWhile
    rw [hscalar, List.dropWhile_cons_of_neg (Bool.eq_false_iff.mp isSpace_doubleQuote)]
    rfl
  rw [assignedAt, scalarLine, headOf_keyLine hkey, hdot, carry, carried]
  cases hasSeparator field.2 with
  | true => rfl
  | false =>
    rw [Bool.not_false, if_pos rfl, if_neg Bool.false_ne_true, Option.map_some, Option.map_some,
      assignmentOf, htrim, fieldValue_quoted hhead, unquoteYamlScalar_trim, hscalar,
      unquoteYamlScalar_quoted rfl]

theorem assignments_scalarLines {fields : List (Units × Units)}
    (h : ∀ field ∈ fields, isKey field.1 = true) :
    assignments (fields.map scalarLine) = fields.filterMap carry := by
  induction fields with
  | nil =>
    rw [List.map_nil, assignments]
    rfl
  | cons field rest ih =>
    rw [List.map_cons, assignments_cons, assignedAt_scalarLine (h field (List.mem_cons_self ..)),
      ih fun later hlater => h later (List.mem_cons_of_mem _ hlater)]
    cases hcarry : carry field with
    | none => rw [List.filterMap_cons_none hcarry]; rfl
    | some value => rw [List.filterMap_cons_some hcarry]; rfl

theorem fst_of_carry {field kept : Units × Units} (h : carry field = some kept) :
    kept.1 = field.1 := by
  rw [carry, Option.map_eq_some_iff] at h
  obtain ⟨value, _, rfl⟩ := h
  rfl

theorem keys_filterMap_carry_sublist (fields : List (Units × Units)) :
    ((fields.filterMap carry).map Prod.fst).Sublist (fields.map Prod.fst) := by
  induction fields with
  | nil => exact List.Sublist.refl _
  | cons field rest ih =>
    cases hcarry : carry field with
    | none =>
      rw [List.filterMap_cons_none hcarry]
      exact ih.cons _
    | some kept =>
      rw [List.filterMap_cons_some hcarry, List.map_cons, List.map_cons, fst_of_carry hcarry]
      exact ih.cons_cons _

/-- The keys an entry's frontmatter may have. -/
def entryKeys : List Units :=
  [units "title", units "description", units "category", units "slug"] ++
    DIRECTORY_ENTRY_URL_SIGNAL_FIELDS

theorem keys_entryFields (entry : DirectoryIndexEntry) :
    ((entryFields entry).map Prod.fst).Sublist entryKeys := by
  have hfst : (Prod.fst ∘ fun field => (field, entry field)) = id := rfl
  rw [entryFields, List.map_append, List.map_map, List.map_map, hfst, List.map_id, List.map_id]
  exact (List.Sublist.refl _).append List.filter_sublist

theorem nodup_keys_entryFields (entry : DirectoryIndexEntry) :
    ((entryFields entry).map Prod.fst).Nodup := by
  have hnodup : entryKeys.Nodup := by decide
  exact hnodup.sublist (keys_entryFields entry)

theorem isKey_of_mem_entryFields {entry : DirectoryIndexEntry} {field : Units × Units}
    (h : field ∈ entryFields entry) : isKey field.1 = true := by
  have hall : entryKeys.all isKey = true := by decide
  exact List.all_eq_true.mp hall _ ((keys_entryFields entry).subset (List.mem_map_of_mem h))

theorem noBreak_scalarLine {field : Units × Units} (h : isKey field.1 = true) :
    newline ∉ scalarLine field ∧ carriageReturn ∉ scalarLine field := by
  have hkeys := List.all_eq_true.mp (Bool.and_eq_true_iff.mp h).2
  have houter : ∀ unit, isKeyUnit unit = false → unit ∉ jsonEscape field.2 → unit ≠ colon →
      unit ≠ space → unit ≠ doubleQuote → unit ∉ scalarLine field := by
    intro unit hunit hescape hcolon hspace hquote hmem
    rcases List.mem_append.mp hmem with hmem | hmem
    · rw [hkeys unit hmem] at hunit
      exact Bool.false_ne_true hunit.symm
    · simp only [yamlScalar, jsonQuoted, List.mem_cons, List.mem_append, List.cons_append,
        List.not_mem_nil, or_false] at hmem
      rcases hmem with hmem | hmem | hmem | hmem | hmem
      · exact hcolon hmem
      · exact hspace hmem
      · exact hquote hmem
      · exact hescape hmem
      · exact hquote hmem
  obtain ⟨hlf, hcr⟩ := noBreak_jsonEscape field.2
  exact ⟨houter _ (by decide) hlf (by decide) (by decide) (by decide),
    houter _ (by decide) hcr (by decide) (by decide) (by decide)⟩

theorem scalarLine_ne_fence {field : Units × Units} (h : isKey field.1 = true) :
    scalarLine field ≠ fence := by
  intro heq
  have hhead := (Bool.and_eq_true_iff.mp h).1
  rw [scalarLine] at heq
  cases hname : field.1 with
  | nil =>
    rw [hname] at hhead
    exact Bool.false_ne_true hhead
  | cons first more =>
    rw [hname] at heq hhead
    rw [List.head?_cons, Option.any_some, (List.cons.inj heq).1] at hhead
    exact absurd hhead (by decide)

theorem frontmatterLines_entry (entry : DirectoryIndexEntry) :
    frontmatterLines (contentSignalSourceFromDirectoryEntry entry) =
      some ((entryFields entry).map scalarLine) := by
  have hkeys : ∀ row ∈ (entryFields entry).map scalarLine,
      (newline ∉ row ∧ carriageReturn ∉ row) ∧ row ≠ fence := by
    intro row hrow
    obtain ⟨field, hfield, rfl⟩ := List.mem_map.mp hrow
    have hkey := isKey_of_mem_entryFields hfield
    exact ⟨noBreak_scalarLine hkey, scalarLine_ne_fence hkey⟩
  rw [contentSignalSourceFromDirectoryEntry]
  show frontmatterLines ([newline].intercalate
    (fence :: (entryFields entry).map scalarLine ++ [fence, []])) = _
  cases hrows : (entryFields entry).map scalarLine with
  | nil => exact absurd hrows (by rw [entryFields]; exact List.cons_ne_nil _ _)
  | cons first rows =>
    rw [hrows] at hkeys
    apply frontmatterLines_fenced
    · exact fun row hrow => (hkeys row hrow).1
    · exact fun hmem => (hkeys fence (List.mem_cons_of_mem _ hmem)).2 rfl

/-- The reader finds the fields as they were written, but for escapes and lost lines. -/
theorem parseSimpleFrontmatter_entry (entry : DirectoryIndexEntry) :
    parseSimpleFrontmatter (contentSignalSourceFromDirectoryEntry entry) =
      (entryFields entry).filterMap carry := by
  have hmade : assignmentsIn (contentSignalSourceFromDirectoryEntry entry) =
      (entryFields entry).filterMap carry := by
    rw [assignmentsIn, frontmatterLines_entry]
    exact assignments_scalarLines fun field hfield => isKey_of_mem_entryFields hfield
  have hkept := @foldl_upsertWith_of_fresh _ Units _ Prod.fst _
    (fun assignment stored => (stored.1, assignment.2)) id
    ((entryFields entry).filterMap carry) []
    ((nodup_keys_entryFields entry).sublist (keys_filterMap_carry_sublist _))
    (fun _ _ _ hstored => absurd hstored List.not_mem_nil)
  rw [List.nil_append, List.map_id] at hkept
  rw [parseSimpleFrontmatter, hmade]
  exact hkept

/-- A field of the entry, read back. -/
theorem fieldOf_entry {entry : DirectoryIndexEntry} {key text : Units}
    (h : (key, text) ∈ entryFields entry) :
    fieldOf ((entryFields entry).filterMap carry) key = carried text ∧
      fieldOf (entryFields entry) key = some text := by
  have hnodup := nodup_keys_entryFields entry
  have hcarried := hnodup.sublist (keys_filterMap_carry_sublist (entryFields entry))
  constructor
  · cases htext : carried text with
    | some value =>
      have hmem : (key, value) ∈ (entryFields entry).filterMap carry :=
        List.mem_filterMap.mpr ⟨(key, text), h, by rw [carry, htext]; rfl⟩
      rw [fieldOf, (lookup_eq_some_iff Prod.fst hcarried).mpr ⟨hmem, rfl⟩]
      rfl
    | none =>
      cases hfound : lookup Prod.fst ((entryFields entry).filterMap carry) key with
      | none =>
        rw [fieldOf, hfound]
        rfl
      | some found =>
        obtain ⟨hmem, hkey⟩ := mem_of_lookup Prod.fst hfound
        obtain ⟨source, hsource, hcarry⟩ := List.mem_filterMap.mp hmem
        have hsame : source = (key, text) :=
          List.inj_on_of_nodup_map hnodup hsource h ((fst_of_carry hcarry).symm.trans hkey)
        rw [hsame, carry, htext] at hcarry
        exact absurd hcarry (Option.some_ne_none found).symm
  · rw [fieldOf, (lookup_eq_some_iff Prod.fst hnodup).mpr ⟨h, rfl⟩]
    rfl

end Gittensory.EntryFrontmatter
