import Gittensory.EntryFrontmatter

/-!
Corpus entries against candidates: the signals read off an entry's written frontmatter, next
to those of its texts as they are. A text keeps its normal form when no escape spells
letters or digits into it; one whose line is dropped shows nothing.
-/
namespace Gittensory.DirectoryIndex

open CodeUnits WordRuns KeyedTable JsonText Frontmatter DuplicateSignals EntryFrontmatter

/-! ## Normal forms of escaped texts -/

theorem not_isSpace_of_isWordUnit (unit : ℕ) (h : isWordUnit unit = true) :
    isSpace unit = false := by
  have hall : ∀ u < 123, isWordUnit u = true → isSpace u = false := by decide +kernel
  apply hall unit _ h
  simp only [isWordUnit, isDigit, Bool.or_eq_true, Bool.and_eq_true, decide_eq_true_eq] at h
  omega

/-- The normal form shows the words of the lower-case text and nothing else. -/
theorem normalizeText_congr {left right : Units}
    (h : words isWordUnit (lowerLetters left) = words isWordUnit (lowerLetters right)) :
    normalizeText left = normalizeText right := by
  rw [normalizeText, normalizeText, trim_replaceRuns not_isSpace_of_isWordUnit,
    trim_replaceRuns not_isSpace_of_isWordUnit, h]

theorem filter_replaceRuns_isInk {separator : ℕ} (h : isWordUnit separator = false)
    (text : Units) :
    (replaceRuns isInk separator text).filter isWordUnit = text.filter isWordUnit := by
  apply filter_replaceRuns _ h
  intro unit hunit
  rw [isInk, not_isSpace_of_isWordUnit unit hunit]
  rfl

/-- The letters and digits of the normal form are those of the lower-case text. -/
theorem filter_normalizeText (text : Units) :
    (normalizeText text).filter isWordUnit = (toLowerCase text).filter isWordUnit := by
  have htrim : ∀ t : Units, (trim t).filter isWordUnit = t.filter isWordUnit := by
    intro t
    rw [← flatten_words, words_trim not_isSpace_of_isWordUnit, flatten_words]
  have hapostrophe : ∀ unit, isWordUnit unit = true → (!isApostrophe unit) = true := by
    intro unit hunit
    simp only [isWordUnit, isDigit, Bool.or_eq_true, Bool.and_eq_true, decide_eq_true_eq] at hunit
    rw [Bool.not_eq_true', isApostrophe, Bool.or_eq_false_iff, decide_eq_false_iff_not,
      decide_eq_false_iff_not]
    unfold singleQuote
    omega
  rw [normalizeText, filter_replaceRuns_isInk (by decide), htrim,
    filter_replaceRuns (fun _ h => h) (by decide), lowerLetters, List.filter_filter]
  apply List.filter_congr
  intro unit _
  cases hunit : isWordUnit unit with
  | true => rw [hapostrophe unit hunit]; rfl
  | false => rfl

theorem lowerLetters_append (left right : Units) :
    lowerLetters (left ++ right) = lowerLetters left ++ lowerLetters right := by
  rw [lowerLetters, toLowerCase, List.flatMap_append, List.filter_append]
  rfl

theorem lowerUnit_of_space {unit : ℕ} (h : isSpace unit = true) : lowerUnit unit = [unit] := by
  have hcapital : ¬ (65 ≤ unit ∧ unit ≤ 90) := by
    intro hrange
    have hletter : isLetter unit = true := by
      simp only [isLetter, Bool.or_eq_true, Bool.and_eq_true, decide_eq_true_eq]
      exact Or.inl hrange
    rw [isSpace_of_isLetter hletter] at h
    exact Bool.false_ne_true h
  rw [lowerUnit, if_neg hcapital, if_neg, if_neg]
  · rintro rfl
    exact absurd h (by decide)
  · rintro rfl
    exact absurd h (by decide)

theorem normalizeText_trim (text : Units) : normalizeText (trim text) = normalizeText text := by
  apply normalizeText_congr
  obtain ⟨lead, trail, hlead, htrail, heq⟩ := exists_trim_eq text
  have hnot : ∀ ends : Units, (∀ unit ∈ ends, isSpace unit = true) →
      ∀ unit ∈ lowerLetters ends, isWordUnit unit = false := by
    intro ends hends unit hunit
    obtain ⟨source, hsource, hlower⟩ := List.mem_flatMap.mp (List.mem_filter.mp hunit).1
    rw [lowerUnit_of_space (hends source hsource)] at hlower
    rw [List.mem_singleton.mp hlower]
    by_contra hword
    have hspace := hends source hsource
    rw [not_isSpace_of_isWordUnit source (Bool.not_eq_false _ ▸ hword)] at hspace
    exact Bool.false_ne_true hspace
  conv_rhs => rw [heq, lowerLetters_append, lowerLetters_append]
  rw [words_append_of_not_right isWordUnit (hnot trail htrail),
    words_append_of_not_left isWordUnit (hnot lead hlead)]

/-- No letters or digits come with the escape: control characters and halves of surrogate
pairs are absent. -/
def Unspelled (text : Units) : Prop :=
  ∀ mark ∈ marked false text, mark.1 = true ∨ isSpelled mark.2 = false

theorem jsonEscape_of_unspelled {text : Units} (h : Unspelled text) :
    jsonEscape text = text.flatMap quoteUnit := by
  conv_rhs => rw [← map_snd_marked false text, List.flatMap_map]
  rw [jsonEscape, jsonEscapeFrom_eq]
  apply List.flatMap_congr
  rintro ⟨half, unit⟩ hmark
  cases half with
  | true =>
    have hrange := surrogate_of_marked (fun hf => absurd hf Bool.false_ne_true) hmark
    have hquote : ¬ (unit = doubleQuote ∨ unit = backslash) := by
      unfold doubleQuote backslash
      omega
    rw [quoteUnit, if_neg hquote]
    rfl
  | false =>
    have hplain := (h _ hmark).resolve_left Bool.false_ne_true
    exact jsonUnit_of_not_isSpelled hplain

/-- Only quotes and backslashes have a lower-case form with quotes or backslashes. -/
theorem not_mem_lowerUnit {unit lower : ℕ} (h : ¬ (unit = doubleQuote ∨ unit = backslash))
    (hlower : lower ∈ lowerUnit unit) : ¬ (lower = doubleQuote ∨ lower = backslash) := by
  unfold doubleQuote backslash at h ⊢
  rw [lowerUnit] at hlower
  split_ifs at hlower
  · have := List.mem_singleton.mp hlower
    omega
  · simp only [List.mem_cons, List.not_mem_nil, or_false] at hlower
    omega
  · have := List.mem_singleton.mp hlower
    omega
  · have := List.mem_singleton.mp hlower
    omega

/-- Backslashes before quotes and backslashes come and go with lower-casing. -/
theorem lowerLetters_quoteUnit (unit : ℕ) :
    lowerLetters (quoteUnit unit) = (lowerLetters [unit]).flatMap quoteUnit := by
  by_cases h : unit = doubleQuote ∨ unit = backslash
  · rcases h with rfl | rfl
    · decide
    · decide
  · rw [quoteUnit, if_neg h]
    have hall : ∀ lower ∈ lowerLetters [unit], quoteUnit lower = [lower] := by
      intro lower hlower
      rw [lowerLetters, toLowerCase, List.flatMap_singleton] at hlower
      rw [quoteUnit, if_neg (not_mem_lowerUnit h (List.mem_filter.mp hlower).1)]
    rw [List.flatMap_congr hall, List.flatMap_singleton']

theorem lowerLetters_flatMap_quoteUnit (text : Units) :
    lowerLetters (text.flatMap quoteUnit) = (lowerLetters text).flatMap quoteUnit := by
  induction text with
  | nil => rfl
  | cons unit rest ih =>
    have hcons : lowerLetters (unit :: rest) = lowerLetters [unit] ++ lowerLetters rest :=
      lowerLetters_append [unit] rest
    rw [List.flatMap_cons, lowerLetters_append, lowerLetters_quoteUnit, ih, hcons,
      List.flatMap_append]

/-- An escape that spells nothing with letters keeps the normal form. -/
theorem normalizeText_jsonEscape_of_unspelled {text : Units} (h : Unspelled text) :
    normalizeText (jsonEscape text) = normalizeText text := by
  apply normalizeText_congr
  rw [jsonEscape_of_unspelled h, lowerLetters_flatMap_quoteUnit]
  apply words_flatMap
  · intro unit hunit
    rw [quoteUnit, if_neg]
    rintro (rfl | rfl)
    · exact absurd hunit (by decide)
    · exact absurd hunit (by decide)
  · intro unit hunit
    rw [quoteUnit]
    split_ifs
    · refine ⟨List.cons_ne_nil _ _, ?_⟩
      intro written hwritten
      rcases List.mem_cons.mp hwritten with rfl | hwritten
      · decide
      · rw [List.mem_singleton.mp hwritten]
        exact hunit
    · refine ⟨List.cons_ne_nil _ _, ?_⟩
      intro written hwritten
      rw [List.mem_singleton.mp hwritten]
      exact hunit

/-- The number of letters and digits the normal form shows. -/
def weight (text : Units) : ℕ := ((toLowerCase text).filter isWordUnit).length

theorem weight_append (left right : Units) :
    weight (left ++ right) = weight left + weight right := by
  rw [weight, toLowerCase, List.flatMap_append, List.filter_append, List.length_append]
  rfl

theorem weight_backslash_cons (text : Units) : weight (backslash :: text) = weight text := rfl

theorem weight_of_words {written : Units} (hne : written ≠ [])
    (h : ∀ w ∈ written, isWordUnit w = true) : 0 < weight written := by
  cases written with
  | nil => exact absurd rfl hne
  | cons w rest =>
    have hw := h w (List.mem_cons_self ..)
    have hlower : lowerUnit w = [w] := by
      simp only [isWordUnit, isDigit, Bool.or_eq_true, Bool.and_eq_true, decide_eq_true_eq] at hw
      rw [lowerUnit, if_neg (by omega), if_neg (by omega), if_neg (by omega)]
    rw [weight, toLowerCase, List.flatMap_cons, hlower, List.singleton_append,
      List.filter_cons_of_pos hw]
    exact Nat.succ_pos _

theorem weight_of_isSpelled {unit : ℕ} (h : isSpelled unit = true) : weight [unit] = 0 := by
  have hrange := isSpelled_iff.mp h
  have hword : ¬ isWordUnit unit = true := by
    simp only [isWordUnit, isDigit, Bool.or_eq_true, Bool.and_eq_true, decide_eq_true_eq]
    omega
  rw [weight, toLowerCase, List.flatMap_singleton, lowerUnit, if_neg (by omega),
    if_neg (by omega), if_neg (by omega), List.filter_cons_of_neg hword]
  rfl

/-- An escape never shows fewer letters, and more where it spells a unit. -/
theorem weight_jsonMark (mark : Bool × ℕ) : weight [mark.2] ≤ weight (jsonMark mark) ∧
    (mark.1 = false → isSpelled mark.2 = true → weight [mark.2] < weight (jsonMark mark)) := by
  obtain ⟨half, unit⟩ := mark
  cases half with
  | true => exact ⟨le_rfl, fun h => absurd h.symm Bool.false_ne_true⟩
  | false =>
    have hmark : jsonMark (false, unit) = jsonUnit unit := rfl
    rw [hmark]
    cases hspelled : isSpelled unit with
    | true =>
      obtain ⟨written, hne, hwords, heq⟩ := jsonUnit_of_isSpelled hspelled
      have hpos := weight_of_words hne hwords
      rw [heq, weight_backslash_cons, weight_of_isSpelled hspelled]
      exact ⟨Nat.zero_le _, fun _ _ => hpos⟩
    | false =>
      refine ⟨?_, fun _ h => absurd h Bool.false_ne_true⟩
      rw [jsonUnit_of_not_isSpelled hspelled, quoteUnit]
      split_ifs
      · rw [weight_backslash_cons]
      · exact le_rfl

theorem weight_marks (marks : List (Bool × ℕ)) :
    weight (marks.map Prod.snd) ≤ weight (marks.flatMap jsonMark) ∧
    ((∃ mark ∈ marks, mark.1 = false ∧ isSpelled mark.2 = true) →
      weight (marks.map Prod.snd) < weight (marks.flatMap jsonMark)) := by
  induction marks with
  | nil => exact ⟨le_rfl, fun ⟨_, h, _⟩ => absurd h List.not_mem_nil⟩
  | cons first rest ih =>
    obtain ⟨hle, hlt⟩ := weight_jsonMark first
    have hsplit : weight ((first :: rest).map Prod.snd) =
        weight [first.2] + weight (rest.map Prod.snd) := weight_append [first.2] _
    rw [hsplit, List.flatMap_cons, weight_append]
    refine ⟨Nat.add_le_add hle ih.1, ?_⟩
    rintro ⟨mark, hmark, hhalf, hspelled⟩
    rcases List.mem_cons.mp hmark with rfl | hmark
    · have := hlt hhalf hspelled
      have := ih.1
      omega
    · have := ih.2 ⟨mark, hmark, hhalf, hspelled⟩
      omega

/-- Letters spelled into the text show in its normal form. -/
theorem weight_lt_of_not_unspelled {text : Units} (h : ¬ Unspelled text) :
    weight text < weight (jsonEscape text) := by
  have hmarks := (weight_marks (marked false text)).2
  rw [map_snd_marked] at hmarks
  rw [jsonEscape, jsonEscapeFrom_eq]
  apply hmarks
  unfold Unspelled at h
  push Not at h
  obtain ⟨mark, hmark, hhalf, hspelled⟩ := h
  exact ⟨mark, hmark, Bool.eq_false_iff.mpr hhalf, by simpa using hspelled⟩

/-! ## One field compared -/

/-- When a text survives the round trip as far as the comparison sees it. On the entry's own
line it does when no letters are spelled into it; a line the reader drops shows nothing, which
is right when there was nothing to show or the path says the same. -/
def Survives (render : Units → Units) (text fallback : Units) : Prop :=
  if hasSeparator text then normalizeText text = [] ∨ render (normalizeText text) = fallback
  else Unspelled text

/-- What a normal form is shown as: itself, or hyphenated. -/
structure Rendering (render : Units → Units) : Prop where
  eq_nil_iff : ∀ text, render text = [] ↔ text = []
  filter_eq : ∀ text, (render text).filter isWordUnit = text.filter isWordUnit

theorem rendering_id : Rendering id := ⟨fun _ => Iff.rfl, fun _ => rfl⟩

theorem rendering_hyphenate : Rendering hyphenate := by
  refine ⟨?_, fun text => filter_replaceRuns_isInk (by decide) text⟩
  intro text
  cases text with
  | nil => exact Iff.rfl
  | cons unit rest =>
    have hnot : hyphenate (unit :: rest) ≠ [] := by
      rw [hyphenate, replaceRuns, replaceRunsFrom]
      by_cases hink : isInk unit = true
      · rw [if_pos hink]
        exact List.cons_ne_nil _ _
      · rw [if_neg hink, if_neg Bool.false_ne_true]
        exact List.cons_ne_nil _ _
    exact iff_of_false hnot (List.cons_ne_nil _ _)

theorem survives_iff {render : Units → Units} (hrender : Rendering render)
    {text fallback : Units}
    (hfallback : normalizeText text = [] → fallback.filter isWordUnit = []) :
    orText (render (normalizeText ((carried text).getD []))) fallback =
      orText (render (normalizeText text)) fallback ↔ Survives render text fallback := by
  have hempty : render (normalizeText []) = [] := (hrender.eq_nil_iff _).mpr (by decide)
  rw [carried, Survives]
  cases hasSeparator text with
  | true =>
    rw [if_pos rfl, if_pos rfl, Option.getD_none, orText, if_pos hempty, orText]
    split_ifs with hnil
    · have := (hrender.eq_nil_iff _).mp hnil
      exact ⟨fun _ => Or.inl this, fun _ => rfl⟩
    · constructor
      · exact fun h => Or.inr h.symm
      · rintro (h | h)
        · exact absurd ((hrender.eq_nil_iff _).mpr h) hnil
        · exact h.symm
  | false =>
    rw [if_neg Bool.false_ne_true, if_neg Bool.false_ne_true, Option.getD_some, normalizeText_trim]
    constructor
    · intro h
      by_contra hspelled
      have hlt := weight_lt_of_not_unspelled hspelled
      have hcount : ((render (normalizeText (jsonEscape text))).filter isWordUnit).length =
          weight (jsonEscape text) := by
        rw [hrender.filter_eq, filter_normalizeText, weight]
      have hne : render (normalizeText (jsonEscape text)) ≠ [] := by
        intro hnil
        rw [hnil] at hcount
        have : (0 : ℕ) = weight (jsonEscape text) := hcount
        omega
      rw [orText, if_neg hne, orText] at h
      split_ifs at h with hnil
      · have hnone := hfallback ((hrender.eq_nil_iff _).mp hnil)
        rw [h, hnone] at hcount
        have : (0 : ℕ) = weight (jsonEscape text) := hcount
        omega
      · rw [h, hrender.filter_eq, filter_normalizeText, ← weight] at hcount
        omega
    · intro h
      rw [normalizeText_jsonEscape_of_unspelled h]

/-! ## The path -/

theorem toLowerCase_subset {part whole : Units} (h : ∀ unit ∈ part, unit ∈ whole) :
    ∀ unit ∈ toLowerCase part, unit ∈ toLowerCase whole := by
  intro unit hunit
  obtain ⟨source, hsource, hlower⟩ := List.mem_flatMap.mp hunit
  exact List.mem_flatMap.mpr ⟨source, h source hsource, hlower⟩

theorem filter_lower_eq_nil {text part : Units} (h : normalizeText text = [])
    (hpart : ∀ unit ∈ part, unit ∈ trim text) : (toLowerCase part).filter isWordUnit = [] := by
  have hnone : (toLowerCase text).filter isWordUnit = [] := by
    rw [← filter_normalizeText, h]
    rfl
  rw [List.filter_eq_nil_iff] at hnone ⊢
  intro unit hunit
  exact hnone unit
    (toLowerCase_subset (fun u hu => mem_of_mem_trim (hpart u hu)) unit hunit)

theorem takeWhile_ne_slash (left right : Units) :
    (left ++ slash :: right).takeWhile (fun unit => unit ≠ slash) =
        left.takeWhile (fun unit => unit ≠ slash) ∧
      (slash ∈ left → slash ∈ (left ++ slash :: right).drop
        ((left.takeWhile (fun unit => unit ≠ slash)).length + 1)) ∧
      (slash ∉ left → (left ++ slash :: right).drop
        ((left.takeWhile (fun unit => unit ≠ slash)).length + 1) = right) := by
  induction left with
  | nil => simp
  | cons unit left ih =>
    by_cases h : unit = slash
    · rw [List.cons_append, List.takeWhile_cons_of_neg (by simpa using h),
        List.takeWhile_cons_of_neg (by simpa using h)]
      refine ⟨rfl, fun _ => ?_, fun hnot => absurd (h ▸ List.mem_cons_self ..) hnot⟩
      simp
    · rw [List.cons_append, List.takeWhile_cons_of_pos (by simpa using h),
        List.takeWhile_cons_of_pos (by simpa using h), List.length_cons, List.drop_succ_cons,
        ih.1]
      refine ⟨rfl, fun hmem => ih.2.1 ?_, fun hnot => ih.2.2 ?_⟩
      · exact (List.mem_cons.mp hmem).resolve_left fun heq => h heq.symm
      · exact fun hmem => hnot (List.mem_cons_of_mem _ hmem)

theorem drop_entryPath (entry : DirectoryIndexEntry) : (entryPath entry).drop 8 =
    trim (entry (units "category")) ++ slash :: (trim (entry (units "slug")) ++ units ".mdx") := by
  rw [entryPath, List.append_assoc]
  exact List.drop_left' (by decide)

/-- The path's own category and slug show no letters where the entry's texts show none. -/
theorem pathParts_entryPath (entry : DirectoryIndexEntry) :
    (normalizeText (entry (units "category")) = [] →
      (pathParts (entryPath entry)).1.filter isWordUnit = []) ∧
    (normalizeText (entry (units "slug")) = [] →
      (pathParts (entryPath entry)).2.filter isWordUnit = []) := by
  obtain ⟨htake, hmem, hdrop⟩ := takeWhile_ne_slash (trim (entry (units "category")))
    (trim (entry (units "slug")) ++ units ".mdx")
  rw [pathParts]
  simp only [drop_entryPath, htake]
  split_ifs with hmatch
  · obtain ⟨_, _, _, hfile, _, _⟩ := hmatch
    refine ⟨fun h => filter_lower_eq_nil h fun unit hunit =>
      (List.takeWhile_sublist _).subset hunit, fun h => ?_⟩
    have hslash : slash ∉ trim (entry (units "category")) := fun hin => hfile (hmem hin)
    apply filter_lower_eq_nil h
    have hlen : (trim (entry (units "slug")) ++ units ".mdx").length - 4 =
        (trim (entry (units "slug"))).length := by
      rw [List.length_append]
      exact Nat.add_sub_cancel _ _
    rw [hdrop hslash, hlen, List.take_left]
    exact fun unit hunit => hunit
  · exact ⟨fun _ => rfl, fun _ => rfl⟩

/-! ## All signals of an entry -/

/-- What the comparison reads of two sets of signals. -/
structure SignalsAgree (left right : ContentDuplicateSignals) : Prop where
  normalizedTitle : left.normalizedTitle = right.normalizedTitle
  normalizedDescription : left.normalizedDescription = right.normalizedDescription
  category : left.category = right.category
  slug : left.slug = right.slug
  urls : left.urls = right.urls

instance (left right : ContentDuplicateSignals) : Decidable (SignalsAgree left right) :=
  decidable_of_iff (left.normalizedTitle = right.normalizedTitle ∧
      left.normalizedDescription = right.normalizedDescription ∧ left.category = right.category ∧
      left.slug = right.slug ∧ left.urls = right.urls)
    ⟨fun h => ⟨h.1, h.2.1, h.2.2.1, h.2.2.2.1, h.2.2.2.2⟩,
      fun h => ⟨h.normalizedTitle, h.normalizedDescription, h.category, h.slug, h.urls⟩⟩

/-- The signals of the entry's texts as they are, written nowhere and read from nowhere. -/
def rawSignals {URL : Type} (api : UrlApi URL) (entry : DirectoryIndexEntry) :
    ContentDuplicateSignals :=
  signalsOf api (entryFields entry) (entryPath entry) none none

/-- Every text the signals are made of survives. -/
structure TextsSurvive (entry : DirectoryIndexEntry) : Prop where
  title : Survives id (entry (units "title")) []
  description : Survives id (entry (units "description")) []
  category : Survives id (entry (units "category")) (pathParts (entryPath entry)).1
  slug : Survives hyphenate (entry (units "slug")) (pathParts (entryPath entry)).2

/-- URLs that JSON writes as they are, without line separators. -/
def UrlsPlain (entry : DirectoryIndexEntry) : Prop :=
  ∀ field ∈ DIRECTORY_ENTRY_URL_SIGNAL_FIELDS,
    jsonEscape (entry field) = entry field ∧ hasSeparator (entry field) = false

theorem orText_nil (text : Units) : orText text [] = text := by
  rw [orText]
  split_ifs with h
  · exact h.symm
  · rfl

theorem text_survives_iff (text : Units) :
    normalizeText ((carried text).getD []) = normalizeText text ↔ Survives id text [] := by
  have h := @survives_iff _ rendering_id text [] fun _ => rfl
  rwa [orText_nil, orText_nil] at h

variable {URL : Type} (api : UrlApi URL)

theorem normalizeUrl_trim (value : Units) :
    normalizeUrl api (trim value) = normalizeUrl api value := by
  rw [normalizeUrl, normalizeUrl, trim_trim]

/-- Plain URLs are read back as they were written. -/
theorem urlsOf_carried {fields : List (Units × Units)} (h : ∀ field ∈ fields,
    field.1 ∈ URL_FIELDS → carried field.2 = some (trim field.2)) :
    urlsOf api (fields.filterMap carry) = urlsOf api fields := by
  have hmap : ((fields.filterMap carry).filter fun field => field.1 ∈ URL_FIELDS).map
        (fun field => normalizeUrl api field.2) =
      (fields.filter fun field => field.1 ∈ URL_FIELDS).map
        fun field => normalizeUrl api field.2 := by
    induction fields with
    | nil => rfl
    | cons field rest ih =>
      have hrest := ih fun later hlater => h later (List.mem_cons_of_mem _ hlater)
      by_cases hurl : field.1 ∈ URL_FIELDS
      · have hcarry : carry field = some (field.1, trim field.2) := by
          rw [carry, h field (List.mem_cons_self ..) hurl]
          rfl
        rw [List.filterMap_cons_some hcarry, List.filter_cons_of_pos (by simpa using hurl),
          List.filter_cons_of_pos (by simpa using hurl), List.map_cons, List.map_cons, hrest,
          normalizeUrl_trim]
      · rw [List.filter_cons_of_neg (by simpa using hurl)]
        cases hcarry : carry field with
        | none => rw [List.filterMap_cons_none hcarry, hrest]
        | some kept =>
          have hkept : kept.1 ∉ URL_FIELDS := by
            rw [fst_of_carry hcarry]
            exact hurl
          rw [List.filterMap_cons_some hcarry, List.filter_cons_of_neg (by simpa using hkept),
            hrest]
  rw [urlsOf, urlsOf, hmap]

theorem carried_url {entry : DirectoryIndexEntry} (hplain : UrlsPlain entry)
    {field : Units × Units} (hfield : field ∈ entryFields entry) (hurl : field.1 ∈ URL_FIELDS) :
    carried field.2 = some (trim field.2) := by
  rcases List.mem_append.mp hfield with hfield | hfield
  · have hnone : ∀ name ∈ [units "title", units "description", units "category", units "slug"],
        name ∉ URL_FIELDS := by decide
    obtain ⟨name, hname, rfl⟩ := List.mem_map.mp hfield
    exact absurd hurl (hnone name hname)
  · obtain ⟨name, hname, rfl⟩ := List.mem_map.mp hfield
    obtain ⟨hescape, hsep⟩ := hplain name (List.mem_filter.mp hname).1
    rw [carried, hescape, if_neg (Bool.eq_false_iff.mp hsep)]

/-- Text by text, the written entry shows what the entry shows. -/
theorem entrySignals_texts (siteUrl : Units) (entry : DirectoryIndexEntry) :
    ((entrySignals api siteUrl entry).normalizedTitle = (rawSignals api entry).normalizedTitle ↔
      Survives id (entry (units "title")) []) ∧
    ((entrySignals api siteUrl entry).normalizedDescription =
        (rawSignals api entry).normalizedDescription ↔
      Survives id (entry (units "description")) []) ∧
    ((entrySignals api siteUrl entry).category = (rawSignals api entry).category ↔
      Survives id (entry (units "category")) (pathParts (entryPath entry)).1) ∧
    ((entrySignals api siteUrl entry).slug = (rawSignals api entry).slug ↔
      Survives hyphenate (entry (units "slug")) (pathParts (entryPath entry)).2) := by
  have hfield : ∀ name ∈ [units "title", units "description", units "category", units "slug"],
      (name, entry name) ∈ entryFields entry :=
    fun name hname => List.mem_append_left _ (List.mem_map_of_mem hname)
  obtain ⟨hcategory, hslug⟩ := pathParts_entryPath entry
  simp only [entrySignals, extractContentDuplicateSignals, parseSimpleFrontmatter_entry,
    rawSignals, signalsOf, (fieldOf_entry (hfield _ (by decide : units "title" ∈ _))).1,
    (fieldOf_entry (hfield _ (by decide : units "title" ∈ _))).2,
    (fieldOf_entry (hfield _ (by decide : units "description" ∈ _))).1,
    (fieldOf_entry (hfield _ (by decide : units "description" ∈ _))).2,
    (fieldOf_entry (hfield _ (by decide : units "category" ∈ _))).1,
    (fieldOf_entry (hfield _ (by decide : units "category" ∈ _))).2,
    (fieldOf_entry (hfield _ (by decide : units "slug" ∈ _))).1,
    (fieldOf_entry (hfield _ (by decide : units "slug" ∈ _))).2, Option.getD_some]
  exact ⟨text_survives_iff _, text_survives_iff _, survives_iff rendering_id hcategory,
    survives_iff rendering_hyphenate hslug⟩

/-- The corpus entries a run compares against. -/
def keptEntries (entries : List DirectoryIndexEntry) (currentFilePath : Option Units) :
    List DirectoryIndexEntry :=
  (entries.filter fun entry =>
    trim (entry (units "category")) ≠ [] ∧ trim (entry (units "slug")) ≠ []).filter fun entry =>
      some (entryPath entry) ≠ currentFilePath

/-- An entry's signals are those of its texts as they are only if every text survives the
round trip, and then they are if its URLs are plain too. -/
theorem corpus_signals_agree (entries : List DirectoryIndexEntry) (currentFilePath : Option Units)
    (siteUrl : Units) :
    directoryIndexToSignals api entries currentFilePath siteUrl =
      (keptEntries entries currentFilePath).map (entrySignals api siteUrl) ∧
    ∀ entry ∈ keptEntries entries currentFilePath,
      (SignalsAgree (entrySignals api siteUrl entry) (rawSignals api entry) →
        TextsSurvive entry) ∧
      (TextsSurvive entry → UrlsPlain entry →
        SignalsAgree (entrySignals api siteUrl entry) (rawSignals api entry)) := by
  refine ⟨rfl, ?_⟩
  intro entry _
  obtain ⟨htitle, hdescription, hcategory, hslug⟩ := entrySignals_texts api siteUrl entry
  constructor
  · intro h
    exact ⟨htitle.mp h.normalizedTitle, hdescription.mp h.normalizedDescription,
      hcategory.mp h.category, hslug.mp h.slug⟩
  · intro h hplain
    refine ⟨htitle.mpr h.title, hdescription.mpr h.description, hcategory.mpr h.category,
      hslug.mpr h.slug, ?_⟩
    show urlsOf api (parseSimpleFrontmatter (contentSignalSourceFromDirectoryEntry entry)) =
      urlsOf api (entryFields entry)
    rw [parseSimpleFrontmatter_entry,
      urlsOf_carried api fun field hfield hurl => carried_url hplain hfield hurl]

/-- A platform without URLs, enough for entries that name none. -/
def noUrls : UrlApi Unit where
  parse _ := none
  protocol _ := []
  setProtocol url _ := url
  hostname _ := []
  setHostname url _ := url
  setHash url _ := url
  searchKeys _ := []
  deleteSearchKey url _ := url
  pathname _ := []
  setPathname url _ := url
  toText _ := []

def promptEntry (description : Units) : DirectoryIndexEntry := fun field =>
  if field = units "title" then units "Say \"hi\" \\ wave"
  else if field = units "description" then description
  else if field = units "category" then units "prompts"
  else if field = units "slug" then units "say-hi"
  else []

theorem promptEntry_kept (description : Units) :
    promptEntry description ∈ keptEntries [promptEntry description] none := by
  have hcategory : promptEntry description (units "category") = units "prompts" := rfl
  have hslug : promptEntry description (units "slug") = units "say-hi" := rfl
  refine List.mem_filter.mpr ⟨List.mem_filter.mpr ⟨List.mem_singleton_self _, ?_⟩, by simp⟩
  rw [hcategory, hslug]
  decide

theorem prompt_signals_agree :
    SignalsAgree (entrySignals noUrls [] (promptEntry (units "Says it's \"hi\".")))
      (rawSignals noUrls (promptEntry (units "Says it's \"hi\"."))) :=
  ((corpus_signals_agree noUrls [promptEntry (units "Says it's \"hi\".")] none []).2 _
    (promptEntry_kept _)).2
    ⟨by unfold Survives Unspelled; decide +kernel, by unfold Survives Unspelled; decide +kernel,
      by unfold Survives Unspelled; decide +kernel, by unfold Survives Unspelled; decide +kernel⟩
    (by unfold UrlsPlain; decide +kernel)

/-- The description is shown as something else than the text itself would be. -/
def Misread (description shown : Units) : Prop :=
  directoryIndexToSignals noUrls [promptEntry description] none [] =
    [entrySignals noUrls [] (promptEntry description)] ∧
  (entrySignals noUrls [] (promptEntry description)).normalizedDescription = shown ∧
  (rawSignals noUrls (promptEntry description)).normalizedDescription = units "says hello" ∧
  ¬ SignalsAgree (entrySignals noUrls [] (promptEntry description))
    (rawSignals noUrls (promptEntry description))

instance (description shown : Units) : Decidable (Misread description shown) :=
  inferInstanceAs (Decidable (_ ∧ _))

/-- A line break in a description puts an n before the next word, and a line separator takes
the whole description away. -/
theorem prompt_signals_disagree :
    Misread (units "Says\nhello") (units "says nhello") ∧
      Misread (units "Says " ++ 0x2028 :: units "hello") [] := by
  decide +kernel

end Gittensory.DirectoryIndex
