import Gittensory.SourceUrls

/-!
The URLs that the duplicate check takes from the source fields of an entry, against those
that the source check reads. Both take a field from the last line that starts it, but the
source check passes over a line without a value of its own, and it cuts a comment off the
value once more. A URL is missed exactly where this changes it and it is written nowhere
else that the source check reads.
-/
namespace Gittensory.SourceCoverage

open CodeUnits KeyedTable SkippingScan Frontmatter DuplicateSignals SourceUrls
open SafeUrl (openBracket)

/-! ## The last line of a field -/

section Last

variable (hit : Units → Option (Units × Units))

/-- The last hit on a key, by the value on its line and the lines below it. -/
def LastHit (lines : List Units) (key inline : Units) (below : List Units) : Prop :=
  ∃ pre line tail, lines = pre ++ line :: below ∧ hit line = some (key, tail) ∧
    inline = trim tail ∧ key ∉ (below.filterMap hit).map Prod.fst

variable {hit}

theorem LastHit.mem_keys {lines below : List Units} {key inline : Units}
    (h : LastHit hit lines key inline below) : key ∈ (lines.filterMap hit).map Prod.fst := by
  obtain ⟨pre, line, tail, rfl, hline, -, -⟩ := h
  refine List.mem_map.mpr ⟨(key, tail), List.mem_filterMap.mpr ⟨line, ?_, hline⟩, rfl⟩
  exact List.mem_append_right _ (List.mem_cons_self ..)

theorem lastHit_cons_iff {line : Units} {rest below : List Units} {key inline : Units} :
    LastHit hit (line :: rest) key inline below ↔
      LastHit hit rest key inline below ∨ (below = rest ∧ ∃ tail, hit line = some (key, tail) ∧
        inline = trim tail ∧ key ∉ (rest.filterMap hit).map Prod.fst) := by
  constructor
  · rintro ⟨pre, last, tail, hlines, hline, hinline, hkey⟩
    cases pre with
    | nil =>
      obtain ⟨rfl, rfl⟩ := List.cons.inj hlines
      exact Or.inr ⟨rfl, tail, hline, hinline, hkey⟩
    | cons first pre =>
      obtain ⟨rfl, hrest⟩ := List.cons.inj hlines
      exact Or.inl ⟨pre, last, tail, hrest, hline, hinline, hkey⟩
  · rintro (⟨pre, last, tail, rfl, hline, hinline, hkey⟩ | ⟨rfl, tail, hline, hinline, hkey⟩)
    · exact ⟨line :: pre, last, tail, rfl, hline, hinline, hkey⟩
    · exact ⟨[], line, tail, rfl, hline, hinline, hkey⟩

theorem lastValue_cons (assignment : Units × Units) (later : List (Units × Units)) (key : Units) :
    lastValue (assignment :: later) key =
      if key ∈ later.map Prod.fst then lastValue later key
      else if assignment.1 = key then some assignment.2 else none := by
  split_ifs with hlater hkey
  · exact lastValue_append_of_mem hlater [assignment] []
  · rw [← hkey] at hlater ⊢
    exact lastValue_append_cons hlater [] assignment.2
  · have hother : key ∉ [assignment].map Prod.fst := by
      intro hmem
      exact hkey (List.mem_singleton.mp hmem).symm
    have hsplit : assignment :: later = [assignment] ++ later := rfl
    rw [hsplit, lastValue_append_of_not_mem hlater]
    exact lastValue_append_of_not_mem hother []

/-- What a scan leaves in a field is read off the last line that hits it. -/
theorem lastValue_hits_iff {lines : List Units} {key value : Units} :
    lastValue (hits hit assignmentOf lines) key = some value ↔
      ∃ inline below, LastHit hit lines key inline below ∧ value = fieldValue inline below := by
  induction lines with
  | nil =>
    constructor
    · nofun
    · rintro ⟨inline, below, ⟨pre, line, tail, hlines, -⟩, -⟩
      exact absurd hlines.symm (List.append_ne_nil_of_right_ne_nil _ (List.cons_ne_nil _ _))
  | cons line rest ih =>
    simp only [lastHit_cons_iff]
    cases hline : hit line with
    | none =>
      rw [hits_cons_none hit assignmentOf hline, ih]
      simp
    | some head =>
      have hkeys : (hits hit assignmentOf rest).map Prod.fst =
          (rest.filterMap hit).map Prod.fst := map_hits hit assignmentOf (fun _ _ => rfl) rest
      rw [hits_cons_some hit assignmentOf hline, lastValue_cons, hkeys]
      split_ifs with hlater hkey
      · rw [ih]
        simp [hlater]
      · rw [Option.some.injEq]
        constructor
        · rintro rfl
          exact ⟨trim head.2, rest, Or.inr ⟨rfl, head.2, by rw [← hkey]; rfl, rfl, hlater⟩, rfl⟩
        · rintro ⟨inline, below, hlast | ⟨rfl, tail, hhead, rfl, -⟩, rfl⟩
          · exact absurd hlast.mem_keys hlater
          · rw [Option.some.inj hhead]
            rfl
      · constructor
        · nofun
        · rintro ⟨inline, below, hlast | ⟨rfl, tail, hhead, rfl, -⟩, rfl⟩
          · exact absurd hlast.mem_keys hlater
          · exact absurd (congrArg Prod.fst (Option.some.inj hhead)) hkey

end Last

/-- The lines that the source check takes a field from. -/
def valuedHead (line : Units) : Option (Units × Units) :=
  (headOf line).filter fun head => trim head.2 ≠ []

theorem sourceAssignments_eq_hits (lines : List Units) :
    sourceAssignments lines = hits valuedHead assignmentOf lines := by
  induction lines using sourceAssignments.induct with
  | case1 => rw [sourceAssignments]; rfl
  | case2 line rest hhead ih =>
    have hvalued : valuedHead line = none := by rw [valuedHead, hhead]; rfl
    rw [sourceAssignments, hits_cons_none valuedHead assignmentOf hvalued, ← ih]
    simp only [hhead]
  | case3 line rest key tail hhead inline hblock ih =>
    have hne : trim tail ≠ [] := by
      intro hempty
      rw [show inline = [] from hempty] at hblock
      nomatch hblock
    have hvalued : valuedHead line = some (key, tail) := by
      rw [valuedHead, hhead, Option.filter_some, if_pos (decide_eq_true hne)]
    rw [sourceAssignments, hits_cons_some valuedHead assignmentOf hvalued]
    simp only [hhead]
    rw [if_pos hblock, ih, hits_dropWhile valuedHead assignmentOf, assignmentOf, fieldValue,
      if_pos hblock]
    intro line hline
    rw [valuedHead, headOf_of_inBlock hline]
    rfl
  | case4 line rest key tail hhead inline hblock hne ih =>
    have hvalued : valuedHead line = some (key, tail) := by
      rw [valuedHead, hhead, Option.filter_some, if_pos (decide_eq_true hne)]
    rw [sourceAssignments, hits_cons_some valuedHead assignmentOf hvalued]
    simp only [hhead]
    rw [if_neg hblock, if_pos hne, ih, assignmentOf, fieldValue, if_neg hblock, if_neg hne]
  | case5 line rest key tail hhead inline hblock hempty ih =>
    have hvalued : valuedHead line = none := by
      rw [valuedHead, hhead, Option.filter_some, if_neg]
      simpa using hempty
    rw [sourceAssignments, hits_cons_none valuedHead assignmentOf hvalued, ← ih]
    simp only [hhead]
    rw [if_neg hblock, if_neg hempty]

/-- A last line with a value of its own is the one both checks read. -/
theorem LastHit.valued {lines below : List Units} {field inline : Units}
    (h : LastHit headOf lines field inline below) (hne : inline ≠ []) :
    LastHit valuedHead lines field inline below := by
  obtain ⟨pre, line, tail, hlines, hline, rfl, hkey⟩ := h
  refine ⟨pre, line, tail, hlines, ?_, rfl, ?_⟩
  · rw [valuedHead, hline, Option.filter_some, if_pos (decide_eq_true hne)]
  · intro hmem
    obtain ⟨head, hhead, hfield⟩ := List.mem_map.mp hmem
    obtain ⟨later, hlater, hvalued⟩ := List.mem_filterMap.mp hhead
    exact hkey (List.mem_map.mpr ⟨head, List.mem_filterMap.mpr
      ⟨later, hlater, (Option.filter_eq_some_iff.mp hvalued).1⟩, hfield⟩)

section Fields

variable {source : Units} {lines : List Units} (h : frontmatterLines source = some lines)
include h

theorem fieldOf_duplicate_iff {field value : Units} :
    fieldOf (parseSimpleFrontmatter source) field = some value ↔
      ∃ inline below, LastHit headOf lines field inline below ∧ value = fieldValue inline below := by
  rw [fieldOf_parse h, assignments_eq_hits, lastValue_hits_iff]

theorem fieldOf_source_iff {field value : Units} :
    fieldOf (parseSourceFrontmatter source) field = some value ↔
      ∃ inline below, LastHit valuedHead lines field inline below ∧
        value = fieldValue inline below := by
  rw [parseSourceFrontmatter, h, ← lastValue_hits_iff, ← sourceAssignments_eq_hits, lastValue]

end Fields

/-! ## URLs among the values -/

variable {URL : Type} (api : UrlApi URL)

/-- What is parsed starts with a letter, after white space and controls at most. -/
def StartsScheme : Prop :=
  ∀ raw url, api.parse raw = some url → (raw.head?.any fun unit => isLetter unit || unit ≤ 32) = true

theorem trim_fieldValue {inline : Units} (hne : inline ≠ []) (below : List Units) :
    trim (fieldValue inline below) = fieldValue inline below := by
  unfold fieldValue
  split_ifs with hblock
  · exact trim_trim _
  · unfold unquoteYamlScalar
    dsimp only
    split_ifs
    · exact trim_trim _
    · exact trim_trim _

theorem trim_unquoteYamlValue (value : Units) :
    trim (unquoteYamlValue value) = unquoteYamlValue value := by
  unfold unquoteYamlValue
  dsimp only
  split_ifs
  · exact trim_trim _
  · exact trim_trim _

theorem trim_of_mem_scalarSourceUrlValues {value url : Units}
    (h : url ∈ scalarSourceUrlValues value) : trim url = url := by
  unfold scalarSourceUrlValues at h
  dsimp only at h
  split_ifs at h
  · nomatch h
  · obtain ⟨item, -, rfl⟩ := List.mem_map.mp (List.mem_of_mem_filter h)
    exact trim_unquoteYamlValue item
  · rw [List.mem_singleton.mp (List.mem_of_mem_filter h)]
    exact trim_unquoteYamlValue _

theorem exists_parse_of_normalizeUrl {value : Units} (h : normalizeUrl api value ≠ []) :
    ∃ parsed, api.parse (trim value) = some parsed ∧
      (api.protocol parsed = units "http:" ∨ api.protocol parsed = units "https:") := by
  unfold normalizeUrl at h
  dsimp only at h
  split_ifs at h with hempty
  · exact absurd rfl h
  · cases hparsed : api.parse (trim value) with
    | none =>
      rw [hparsed] at h
      exact absurd rfl h
    | some parsed =>
      rw [hparsed] at h
      dsimp only at h
      by_cases hprotocol : api.protocol parsed = units "http:" ∨
          api.protocol parsed = units "https:"
      · exact ⟨parsed, rfl, hprotocol⟩
      · rw [if_pos hprotocol] at h
        exact absurd rfl h

/-- A trimmed URL that the duplicate check knows is a web address to the source check. -/
theorem isOwnArtifact_of_normalizeUrl {item : SubmittedSourceUrl} (htrim : trim item.url = item.url)
    (h : normalizeUrl api item.url ≠ []) : isOwnArtifact api item = false := by
  obtain ⟨parsed, hparsed, hprotocol⟩ := exists_parse_of_normalizeUrl api h
  have habsolute : isAbsoluteHttpUrl api item.url = true := by
    rw [htrim] at hparsed
    rw [isAbsoluteHttpUrl, hparsed]
    exact decide_eq_true hprotocol
  rw [isOwnArtifact, habsolute, Bool.not_true, Bool.and_false]

theorem head?_stripYamlComment {value : Units} (htrim : trim value = value) :
    (stripYamlComment value).head? = value.head? := by
  cases value with
  | nil => rfl
  | cons first rest =>
    have hink : isSpace first = false := (trim_eq_self_iff.mp htrim).1 first rfl
    have hstart : ¬ startsComment (first :: rest) = true := by
      rw [startsComment, startsIndented_cons, hink, Bool.false_and]
      exact Bool.false_ne_true
    rw [stripYamlComment, cutComment, if_neg hstart]
    apply head?_trim_of_head?_dropWhile
    rw [List.dropWhile_cons_of_neg (Bool.eq_false_iff.mp hink)]
    rfl

theorem enclosedBy_eq_false {quote : ℕ} {text : Units} (h : text.head? ≠ some quote) :
    enclosedBy quote text = false := by
  rw [enclosedBy, decide_eq_false h, Bool.false_and]

/-- A value that is a URL is neither quoted nor a list, and only its comment is cut off. -/
theorem scalarSourceUrlValues_of_url {api : UrlApi URL} (hscheme : StartsScheme api) {value : Units}
    (htrim : trim value = value) (h : normalizeUrl api value ≠ []) :
    scalarSourceUrlValues value = [stripYamlComment value] := by
  obtain ⟨parsed, hparsed, -⟩ := exists_parse_of_normalizeUrl api h
  rw [htrim] at hparsed
  have hfirst := hscheme value parsed hparsed
  have hnot : ∀ unit ∈ [openBracket, doubleQuote, singleQuote], value.head? ≠ some unit := by
    have hall : ∀ unit ∈ [openBracket, doubleQuote, singleQuote],
        (isLetter unit || decide (unit ≤ 32)) = false := by decide
    intro unit hunit hhead
    rw [hhead, Option.any_some, hall unit hunit] at hfirst
    nomatch hfirst
  have hhead := head?_stripYamlComment htrim
  have hne : value ≠ [] := by
    rintro rfl
    nomatch hfirst
  have hstripped : stripYamlComment value ≠ [] := by
    intro hempty
    rw [hempty] at hhead
    exact hne (List.head?_eq_none_iff.mp hhead.symm)
  have hlist : isFlowList value = false := by
    rw [isFlowList, decide_eq_false (hnot _ (by decide)), Bool.false_and]
  have hunquoted : unquoteYamlValue value = stripYamlComment value := by
    unfold unquoteYamlValue
    dsimp only
    rw [enclosedBy_eq_false (by rw [hhead]; exact hnot _ (by decide)),
      enclosedBy_eq_false (by rw [hhead]; exact hnot _ (by decide)), Bool.or_false,
      if_neg Bool.false_ne_true, stripYamlComment, trim_trim]
  unfold scalarSourceUrlValues
  dsimp only
  rw [htrim, if_neg hne, if_neg (by rw [hlist]; exact Bool.false_ne_true), hunquoted,
    List.filter_cons_of_pos (by simpa using hstripped), List.filter_nil]

/-! ## URLs in list fields -/

/-- The URL is an item on one of these lines, above any line that starts a field. -/
def ItemBelow (lines : List Units) (url : Units) : Prop :=
  ∃ more line below item, lines = more ++ line :: below ∧ (∀ other ∈ more, topLevelOf other = none) ∧
    topLevelOf line = none ∧ itemOf line = some item ∧ url = unquoteYamlValue item ∧ url ≠ []

/-- The URL stands on the line that opens the list field, or among the items below it. -/
def ListedUnder (lines : List Units) (field url : Units) : Prop :=
  ∃ pre line below value, lines = pre ++ line :: below ∧ topLevelOf line = some (field, value) ∧
    field ∈ SOURCE_URL_LIST_FIELDS ∧
    (value ≠ [] ∧ value ≠ [bar] ∧ value ≠ [greaterSign] ∧ url ∈ scalarSourceUrlValues value ∨
      ItemBelow below url)

theorem itemBelow_cons_iff {line : Units} {rest : List Units} {url : Units} :
    ItemBelow (line :: rest) url ↔ topLevelOf line = none ∧
      ((∃ item, itemOf line = some item ∧ url = unquoteYamlValue item ∧ url ≠ []) ∨
        ItemBelow rest url) := by
  constructor
  · rintro ⟨more, other, below, item, hlines, hmore, hother, hitem⟩
    cases more with
    | nil =>
      obtain ⟨rfl, rfl⟩ := List.cons.inj hlines
      exact ⟨hother, Or.inl ⟨item, hitem⟩⟩
    | cons first more =>
      obtain ⟨rfl, rfl⟩ := List.cons.inj hlines
      exact ⟨hmore line (List.mem_cons_self ..), Or.inr ⟨more, other, below, item, rfl,
        fun l hl => hmore l (List.mem_cons_of_mem _ hl), hother, hitem⟩⟩
  · rintro ⟨hline, ⟨item, hitem⟩ | ⟨more, other, below, item, rfl, hmore, hother, hitem⟩⟩
    · exact ⟨[], line, rest, item, rfl, List.forall_mem_nil _, hline, hitem⟩
    · exact ⟨line :: more, other, below, item, rfl, List.forall_mem_cons.mpr ⟨hline, hmore⟩,
        hother, hitem⟩

theorem listedUnder_cons_iff {line : Units} {rest : List Units} {field url : Units} :
    ListedUnder (line :: rest) field url ↔
      (∃ value, topLevelOf line = some (field, value) ∧ field ∈ SOURCE_URL_LIST_FIELDS ∧
        (value ≠ [] ∧ value ≠ [bar] ∧ value ≠ [greaterSign] ∧ url ∈ scalarSourceUrlValues value ∨
          ItemBelow rest url)) ∨ ListedUnder rest field url := by
  constructor
  · rintro ⟨pre, other, below, value, hlines, hother⟩
    cases pre with
    | nil =>
      obtain ⟨rfl, rfl⟩ := List.cons.inj hlines
      exact Or.inl ⟨value, hother⟩
    | cons first pre =>
      obtain ⟨rfl, rfl⟩ := List.cons.inj hlines
      exact Or.inr ⟨pre, other, below, value, rfl, hother⟩
  · rintro (⟨value, hother⟩ | ⟨pre, other, below, value, rfl, hother⟩)
    · exact ⟨[], line, rest, value, rfl, hother⟩
    · exact ⟨line :: pre, other, below, value, rfl, hother⟩

theorem mem_openingUrls_iff {activeField value field url : Units} :
    ⟨field, url⟩ ∈ openingUrls activeField value ↔ activeField = field ∧ activeField ≠ [] ∧
      value ≠ [] ∧ value ≠ [bar] ∧ value ≠ [greaterSign] ∧ url ∈ scalarSourceUrlValues value := by
  unfold openingUrls
  split_ifs with hopens
  · simp only [List.mem_map, SubmittedSourceUrl.mk.injEq]
    constructor
    · rintro ⟨_, hurl, hfield, rfl⟩
      exact ⟨hfield, hopens.1, hopens.2.1, hopens.2.2.1, hopens.2.2.2, hurl⟩
    · rintro ⟨hfield, -, -, -, -, hurl⟩
      exact ⟨url, hurl, hfield, rfl⟩
  · constructor
    · nofun
    · rintro ⟨-, hactive, hvalue, hbar, hgreater, -⟩
      exact absurd ⟨hactive, hvalue, hbar, hgreater⟩ hopens

theorem mem_itemUrls_iff {activeField line field url : Units} :
    ⟨field, url⟩ ∈ itemUrls activeField line ↔ activeField = field ∧
      ∃ item, itemOf line = some item ∧ url = unquoteYamlValue item ∧ url ≠ [] := by
  unfold itemUrls
  cases hitem : itemOf line with
  | none => simp
  | some item =>
    dsimp only
    split_ifs with hempty
    · constructor
      · nofun
      · rintro ⟨-, other, hother, rfl, hne⟩
        rw [← Option.some.inj hother] at hne
        exact absurd hempty hne
    · rw [List.mem_singleton, SubmittedSourceUrl.mk.injEq]
      constructor
      · rintro ⟨rfl, rfl⟩
        exact ⟨rfl, item, rfl, rfl, hempty⟩
      · rintro ⟨rfl, other, hother, rfl, -⟩
        rw [← Option.some.inj hother]
        exact ⟨rfl, rfl⟩

/-- The pass over the lines collects what list fields hold, and for the field that is open at
its start the items below. -/
theorem mem_listUrlsFrom_iff {activeField : Units} {lines : List Units} {field url : Units} :
    ⟨field, url⟩ ∈ listUrlsFrom activeField lines ↔
      (activeField ≠ [] ∧ activeField = field ∧ ItemBelow lines url) ∨
        ListedUnder lines field url := by
  induction lines generalizing activeField with
  | nil =>
    constructor
    · exact fun h => absurd h List.not_mem_nil
    · rintro (⟨-, -, more, line, below, item, hlines, -⟩ | ⟨pre, line, below, value, hlines, -⟩)
      · exact absurd hlines.symm (List.append_ne_nil_of_right_ne_nil _ (List.cons_ne_nil _ _))
      · exact absurd hlines.symm (List.append_ne_nil_of_right_ne_nil _ (List.cons_ne_nil _ _))
  | cons line rest ih =>
    rw [listUrlsFrom, itemBelow_cons_iff, listedUnder_cons_iff]
    cases hline : topLevelOf line with
    | some head =>
      obtain ⟨key, value⟩ := head
      dsimp only
      rw [List.mem_append, mem_openingUrls_iff, ih]
      simp only [Option.some.injEq, Prod.mk.injEq]
      by_cases hlist : key ∈ SOURCE_URL_LIST_FIELDS
      · have hkey : key ≠ [] := by
          rintro rfl
          revert hlist
          decide +kernel
        rw [if_pos hlist]
        constructor
        · rintro (⟨rfl, -, hurl⟩ | ⟨-, rfl, hbelow⟩ | hrest)
          · exact Or.inr (Or.inl ⟨value, ⟨rfl, rfl⟩, hlist, Or.inl hurl⟩)
          · exact Or.inr (Or.inl ⟨value, ⟨rfl, rfl⟩, hlist, Or.inr hbelow⟩)
          · exact Or.inr (Or.inr hrest)
        · rintro (⟨-, -, hnone, -⟩ | ⟨_, ⟨rfl, rfl⟩, -, hurl | hbelow⟩ | hrest)
          · cases hnone
          · exact Or.inl ⟨rfl, hkey, hurl⟩
          · exact Or.inr (Or.inl ⟨hkey, rfl, hbelow⟩)
          · exact Or.inr (Or.inr hrest)
      · rw [if_neg hlist]
        constructor
        · rintro (⟨-, hne, -⟩ | ⟨hne, -⟩ | hrest)
          · exact absurd rfl hne
          · exact absurd rfl hne
          · exact Or.inr (Or.inr hrest)
        · rintro (⟨-, -, hnone, -⟩ | ⟨_, ⟨rfl, -⟩, hmem, -⟩ | hrest)
          · cases hnone
          · exact absurd hmem hlist
          · exact Or.inr (Or.inr hrest)
    | none =>
      dsimp only
      by_cases hactive : activeField = []
      · rw [if_pos hactive, ih]
        simp [hactive]
      · rw [if_neg hactive, List.mem_append, mem_itemUrls_iff, ih]
        constructor
        · rintro (⟨hfield, hitem⟩ | ⟨-, hfield, hbelow⟩ | hrest)
          · exact Or.inl ⟨hactive, hfield, rfl, Or.inl hitem⟩
          · exact Or.inl ⟨hactive, hfield, rfl, Or.inr hbelow⟩
          · exact Or.inr (Or.inr hrest)
        · rintro (⟨-, hfield, -, hitem | hbelow⟩ | ⟨_, hnone, -⟩ | hrest)
          · exact Or.inl ⟨hfield, hitem⟩
          · exact Or.inr (Or.inl ⟨hactive, hfield, hbelow⟩)
          · cases hnone
          · exact Or.inr (Or.inr hrest)

/-! ## Coverage -/

/-- The duplicate check takes the URL from the field. -/
def TakenFrom (source field url : Units) : Prop :=
  ∃ value, fieldOf (parseSimpleFrontmatter source) field = some value ∧
    normalizeUrl api value = url ∧ url ≠ []

/-- Every URL that the duplicate check takes from a source field is submitted to the source
check, up to its normal form. -/
def Covers (source : Units) : Prop :=
  ∀ field ∈ SOURCE_URL_FIELDS, ∀ url, TakenFrom api source field url →
    ∃ item ∈ extractSubmittedSourceUrls api source, normalizeUrl api item.url = url

/-- The field's last line carries the value, and cutting a comment off it does not change
the URL. -/
def CarriedAlike (inline value : Units) : Prop :=
  inline ≠ [] ∧ normalizeUrl api (stripYamlComment value) = normalizeUrl api value

/-- The URL is also written in another source field, on an earlier line of a field whose last
line has no value, or in a list field. -/
def WrittenElsewhere (lines : List Units) (field inline url : Units) : Prop :=
  (∃ other ∈ SOURCE_URL_FIELDS, (other = field → inline = []) ∧
    ∃ inline' below', LastHit valuedHead lines other inline' below' ∧
      ∃ raw ∈ scalarSourceUrlValues (fieldValue inline' below'), normalizeUrl api raw = url) ∨
  ∃ field' raw, ListedUnder lines field' raw ∧ normalizeUrl api raw = url

/-- Every source field with a URL carries it where both checks read it, or it is written
elsewhere. -/
def WrittenAlike (source : Units) : Prop :=
  ∀ lines, frontmatterLines source = some lines → ∀ field ∈ SOURCE_URL_FIELDS,
    ∀ inline below, LastHit headOf lines field inline below →
      normalizeUrl api (fieldValue inline below) ≠ [] →
      CarriedAlike api inline (fieldValue inline below) ∨
        WrittenElsewhere api lines field inline (normalizeUrl api (fieldValue inline below))

variable {api}

/-- What the source check has from the document's lines. -/
theorem mem_declaredUrls_iff {source : Units} {lines : List Units}
    (h : frontmatterLines source = some lines) {field url : Units} :
    ⟨field, url⟩ ∈ declaredUrls source ↔
      (field ∈ SOURCE_URL_FIELDS ∧ ∃ inline below, LastHit valuedHead lines field inline below ∧
        url ∈ scalarSourceUrlValues (fieldValue inline below)) ∨ ListedUnder lines field url := by
  have hlist : ⟨field, url⟩ ∈ listSourceUrlValues source ↔ ListedUnder lines field url := by
    rw [listSourceUrlValues, h, Option.getD_some, mem_listUrlsFrom_iff]
    simp
  rw [declaredUrls, List.mem_append, hlist]
  refine or_congr_left ?_
  simp only [scalarUrls, List.mem_flatMap, List.mem_map, SubmittedSourceUrl.mk.injEq]
  constructor
  · rintro ⟨other, hfield, raw, hurl, rfl, rfl⟩
    cases hvalue : fieldOf (parseSourceFrontmatter source) other with
    | none =>
      rw [hvalue] at hurl
      nomatch hurl
    | some value =>
      obtain ⟨inline, below, hlast, rfl⟩ := (fieldOf_source_iff h).mp hvalue
      rw [hvalue] at hurl
      exact ⟨hfield, inline, below, hlast, hurl⟩
  · rintro ⟨hfield, inline, below, hlast, hurl⟩
    refine ⟨field, hfield, url, ?_, rfl, rfl⟩
    rw [(fieldOf_source_iff h).mpr ⟨inline, below, hlast, rfl⟩]
    exact hurl

theorem trim_of_listedUnder {lines : List Units} {field url : Units}
    (h : ListedUnder lines field url) : trim url = url := by
  obtain ⟨_, _, _, _, -, -, -, ⟨-, -, -, hurl⟩ | ⟨_, _, _, item, -, -, -, -, rfl, -⟩⟩ := h
  · exact trim_of_mem_scalarSourceUrlValues hurl
  · exact trim_unquoteYamlValue item

theorem trim_of_mem_declaredUrls {source : Units} {lines : List Units}
    (h : frontmatterLines source = some lines) {item : SubmittedSourceUrl}
    (hitem : item ∈ declaredUrls source) : trim item.url = item.url := by
  rcases (mem_declaredUrls_iff h).mp hitem with ⟨-, inline, below, -, hurl⟩ | hlisted
  · exact trim_of_mem_scalarSourceUrlValues hurl
  · exact trim_of_listedUnder hlisted

/-- The source check sees every URL of the source fields exactly if each is written where it
looks. -/
theorem source_covers_iff (hscheme : StartsScheme api) (source : Units) :
    Covers api source ↔ WrittenAlike api source := by
  constructor
  · intro hcovers lines hlines field hfield inline below hlast hurl
    have hvalue := (fieldOf_duplicate_iff hlines).mpr ⟨inline, below, hlast, rfl⟩
    obtain ⟨⟨other, raw⟩, hitem, hraw⟩ := hcovers field hfield _ ⟨_, hvalue, rfl, hurl⟩
    have hdeclared := ((mem_extractSubmittedSourceUrls_iff api).mp hitem).1
    rcases (mem_declaredUrls_iff hlines).mp hdeclared with
      ⟨hother, inline', below', hlast', hmem⟩ | hlisted
    · by_cases hsame : other = field → inline = []
      · exact Or.inr (Or.inl ⟨other, hother, hsame, inline', below', hlast', raw, hmem, hraw⟩)
      · left
        push Not at hsame
        obtain ⟨rfl, hne⟩ := hsame
        have hread := (fieldOf_source_iff hlines).mpr ⟨inline', below', hlast', rfl⟩
        rw [(fieldOf_source_iff hlines).mpr ⟨inline, below, hlast.valued hne, rfl⟩,
          Option.some.injEq] at hread
        rw [← hread, scalarSourceUrlValues_of_url hscheme (trim_fieldValue hne below) hurl,
          List.mem_singleton] at hmem
        exact ⟨hne, hmem ▸ hraw⟩
    · exact Or.inr (Or.inr ⟨other, raw, hlisted, hraw⟩)
  · intro halike field hfield url htaken
    obtain ⟨value, hvalue, rfl, hurl⟩ := htaken
    cases hlines : frontmatterLines source with
    | none =>
      rw [parseSimpleFrontmatter, assignmentsIn, hlines] at hvalue
      cases hvalue
    | some lines =>
      have hsubmitted : ∀ item ∈ declaredUrls source, normalizeUrl api item.url =
          normalizeUrl api value → ∃ item ∈ extractSubmittedSourceUrls api source,
            normalizeUrl api item.url = normalizeUrl api value := by
        intro item hitem hsame
        refine ⟨item, (mem_extractSubmittedSourceUrls_iff api).mpr ⟨hitem, ?_⟩, hsame⟩
        exact isOwnArtifact_of_normalizeUrl api (trim_of_mem_declaredUrls hlines hitem) (hsame ▸ hurl)
      obtain ⟨inline, below, hlast, rfl⟩ := (fieldOf_duplicate_iff hlines).mp hvalue
      rcases halike lines hlines field hfield inline below hlast hurl with
        ⟨hne, hsame⟩ | ⟨other, hother, -, inline', below', hlast', raw, hmem, hraw⟩ |
          ⟨other, raw, hlisted, hraw⟩
      · refine hsubmitted ⟨field, _⟩ ((mem_declaredUrls_iff hlines).mpr
          (Or.inl ⟨hfield, inline, below, hlast.valued hne, ?_⟩)) hsame
        rw [scalarSourceUrlValues_of_url hscheme (trim_fieldValue hne below) hurl]
        exact List.mem_singleton_self _
      · exact hsubmitted ⟨other, raw⟩ ((mem_declaredUrls_iff hlines).mpr
          (Or.inl ⟨hother, inline', below', hlast', hmem⟩)) hraw
      · exact hsubmitted ⟨other, raw⟩ ((mem_declaredUrls_iff hlines).mpr (Or.inr hlisted)) hraw

/-! ## Two entries -/

/-- Plain URLs whose scheme starts with a letter. -/
def schemedUrls : UrlApi SafeUrl.PlainUrl :=
  { SafeUrl.plainUrls with
    parse := fun raw => if raw.head?.any isLetter then SafeUrl.plainUrl? raw else none }

theorem startsScheme_schemedUrls : StartsScheme schemedUrls := by
  intro raw url h
  change (if raw.head?.any isLetter then SafeUrl.plainUrl? raw else none) = some url at h
  split_ifs at h with hletter
  cases raw with
  | nil => nomatch hletter
  | cons first rest => exact Bool.or_eq_true_iff.mpr (Or.inl hletter)

/-- Quoted, behind a comment, and as a block scalar. -/
def styledEntry : Units := [newline].intercalate [
  units "---",
  units "websiteUrl: 'https://widgets.dev'",
  units "docsUrl: https://widgets.dev/docs # the manual",
  units "repoUrl: >-",
  units "  https://widgets.dev/code",
  units "---"]

theorem covers_styledEntry : Covers schemedUrls styledEntry := by
  have hall : ∀ field ∈ SOURCE_URL_FIELDS,
      ∀ value ∈ (fieldOf (parseSimpleFrontmatter styledEntry) field).toList,
        ∃ item ∈ extractSubmittedSourceUrls schemedUrls styledEntry,
          normalizeUrl schemedUrls item.url = normalizeUrl schemedUrls value := by decide +kernel
  intro field hfield url htaken
  obtain ⟨value, hvalue, rfl, -⟩ := htaken
  exact hall field hfield value (Option.mem_toList.mpr hvalue)

theorem writtenAlike_styledEntry : WrittenAlike schemedUrls styledEntry :=
  (source_covers_iff startsScheme_schemedUrls styledEntry).mp covers_styledEntry

/-- The URL as a list item on the line below its field. -/
def listedEntry : Units := [newline].intercalate [
  units "---",
  units "docsUrl:",
  units "  - https://widgets.dev/docs",
  units "---"]

theorem listedEntry_not_covered : ¬ Covers schemedUrls listedEntry := by
  intro h
  have hvalue : fieldOf (parseSimpleFrontmatter listedEntry) (units "docsUrl") =
      some (units "https://widgets.dev/docs") := by decide +kernel
  have hurl : normalizeUrl schemedUrls (units "https://widgets.dev/docs") ≠ [] := by
    decide +kernel
  obtain ⟨item, hitem, -⟩ := h (units "docsUrl") (by decide +kernel) _ ⟨_, hvalue, rfl, hurl⟩
  have hnone : extractSubmittedSourceUrls schemedUrls listedEntry = [] := by decide +kernel
  rw [hnone] at hitem
  nomatch hitem

end Gittensory.SourceCoverage
