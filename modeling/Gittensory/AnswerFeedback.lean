import Gittensory.CardTexts

/-!
Which answer a reaction on a command's comment is attributed to. The redaction leaves the
markers alone but for ids with a private phrase, and no marker reaches from one line into the
next; so the comment's markers are those of the texts of its card, then its own. The context that
is read back names the first of them.
-/
namespace Gittensory.AnswerFeedback

open AnswerCard Capturing CardTexts FeedbackMarker JsValue PatternOverlap PublicComment Redaction
  Rewriting TextPattern

/-! ## Lines -/

/-- Nothing at the start of the line goes on with a marker. -/
def clear : Text → Bool
  | [] => true
  | c :: rest => !spaceSet.accepts c && c != 'g' && !"-->".toList.isPrefixOf (c :: rest)

def lineTail (lines : List Text) : Text := lines.flatMap fun line => '\n' :: line

theorem joinLines_cons (line : Text) (rest : List Text) :
    joinLines (line :: rest) = line ++ lineTail rest := by
  induction rest generalizing line with
  | nil => rw [joinLines, lineTail, List.flatMap_nil, List.append_nil]
  | cons next rest ih =>
    rw [joinLines, ih, lineTail, lineTail, List.flatMap_cons, List.cons_append]
    exact List.cons_ne_nil next rest

theorem not_dashes_of_clear {line tail : Text} (hclear : clear line = true) (hline : line ≠ [])
    (htail : tail = [] ∨ tail.head? = some '\n') : ¬ "-->".toList <+: line ++ tail := by
  have hnext : ∀ c rest, c ∈ "-->".toList → tail ≠ c :: rest := by
    rintro c rest hc rfl
    rcases htail with hnil | hhead
    · cases hnil
    · rw [Option.some.inj hhead] at hc
      exact absurd hc (by decide)
  rintro ⟨t, ht⟩
  have hfirst : '-' :: '-' :: '>' :: t = line ++ tail := ht
  obtain ⟨c, line, rfl⟩ := List.exists_cons_of_ne_nil hline
  obtain ⟨rfl, hsecond⟩ := List.cons.inj hfirst
  cases line with
  | nil => exact hnext '-' _ (by decide) hsecond.symm
  | cons d line =>
    obtain ⟨rfl, hthird⟩ := List.cons.inj hsecond
    cases line with
    | nil => exact hnext '>' _ (by decide) hthird.symm
    | cons e line =>
      obtain ⟨rfl, -⟩ := List.cons.inj hthird
      have hdashes : "-->".toList.isPrefixOf ('-' :: '-' :: '>' :: line) = true := rfl
      rw [clear, hdashes, Bool.not_true, Bool.and_false] at hclear
      cases hclear

/-- After some spaces, no line goes on with a marker. -/
theorem not_resumed {lines : List Text} (hclear : ∀ line ∈ lines, clear line = true)
    {s rest : Text} (hs : IsSpace s) (h : lineTail lines = s ++ rest) :
    rest.head? ≠ some 'g' ∧ ¬ "-->".toList <+: rest := by
  induction lines generalizing s with
  | nil =>
    obtain ⟨-, rfl⟩ := List.append_eq_nil_iff.mp h.symm
    exact ⟨by decide, by decide⟩
  | cons line lines ih =>
    obtain ⟨hline, hlines⟩ := List.forall_mem_cons.mp hclear
    cases s with
    | nil =>
      rw [List.nil_append] at h
      rw [← h]
      refine ⟨fun hg => absurd (Option.some.inj hg) (by decide), ?_⟩
      rintro ⟨t, ht⟩
      exact absurd (List.cons.inj ht).1 (by decide)
    | cons d s =>
      have hrest : line ++ lineTail lines = s ++ rest := (List.cons.inj h).2
      have hs' : IsSpace s := fun c hc => hs c (List.mem_cons_of_mem _ hc)
      cases line with
      | nil => exact ih hlines hs' hrest
      | cons c line =>
        have hparts := hline
        rw [clear, Bool.and_eq_true, Bool.and_eq_true, Bool.not_eq_true', bne_iff_ne] at hparts
        cases s with
        | cons e s =>
          rw [(List.cons.inj hrest).1, hs' e List.mem_cons_self] at hparts
          cases hparts.1.1
        | nil =>
          rw [List.nil_append] at hrest
          rw [← hrest]
          refine ⟨fun hg => hparts.1.2 (Option.some.inj hg),
            not_dashes_of_clear hline (List.cons_ne_nil c line) ?_⟩
          cases lines with
          | nil => exact Or.inl rfl
          | cons next lines => exact Or.inr rfl

/-- Where a new line is not in the first of three stretches, it is in the second or the third. -/
theorem newline_after {a s b x y : Text} (ha : '\n' ∉ a) (h : a ++ (s ++ b) = x ++ '\n' :: y) :
    (∃ z, (∀ c ∈ z, c ∈ s) ∧ '\n' :: y = z ++ b) ∨ ∃ z, b = z ++ '\n' :: y := by
  rcases List.append_eq_append_iff.mp h with ⟨w, rfl, hrest⟩ | ⟨w, rfl, hrest⟩
  · rcases List.append_eq_append_iff.mp hrest with ⟨z, rfl, hb⟩ | ⟨z, rfl, hz⟩
    · exact Or.inr ⟨z, hb⟩
    · exact Or.inl ⟨z, fun c hc => List.mem_append_right _ hc, hz⟩
  · cases w with
    | nil => exact Or.inl ⟨s, fun c hc => hc, hrest⟩
    | cons c w =>
      obtain ⟨rfl, -⟩ := List.cons.inj hrest
      exact absurd (List.mem_append_right x List.mem_cons_self) ha

/-- A marker that goes on after the end of a line goes on with its name or its end. -/
theorem resumed_of_spells {x y id : Text} (h : answerMarker.Spells (x ++ '\n' :: y) id) :
    ∃ s rest, '\n' :: y = s ++ rest ∧ IsSpace s ∧
      (rest.head? = some 'g' ∨ "-->".toList <+: rest) := by
  obtain ⟨s, s', hs, hs', hid, hm⟩ := spells_answerMarker_iff.mp h
  simp only [List.append_assoc] at hm
  rcases newline_after (by decide) hm.symm with ⟨z, hz, hy⟩ | ⟨z, hz⟩
  · exact ⟨z, _, hy, fun c hc => hs c (hz c hc), Or.inl rfl⟩
  · rw [← List.append_assoc] at hz
    have hnewline : '\n' ∉ markerName.toList ++ id := by
      rw [List.mem_append, not_or]
      exact ⟨by decide, fun hmem => absurd (hid.letters _ hmem) (by decide)⟩
    rcases newline_after hnewline hz with ⟨w, hw, hy⟩ | ⟨w, hw⟩
    · exact ⟨w, _, hy, fun c hc => hs' c (hw c hc), Or.inr (List.prefix_refl _)⟩
    · have hmem : '\n' ∈ "-->".toList := by
        rw [hw]
        exact List.mem_append_right _ List.mem_cons_self
      exact absurd hmem (by decide)

theorem blocks_lineTail {lines : List Text} (hclear : ∀ line ∈ lines, clear line = true) :
    answerMarker.Blocks (lineTail lines) := by
  intro x y id post hspells _ hy htext
  obtain ⟨c, y, rfl⟩ := List.exists_cons_of_ne_nil hy
  have hc : c = '\n' := by
    cases lines with
    | nil => cases htext
    | cons line lines => exact (List.cons.inj htext).1.symm
  subst hc
  obtain ⟨s, rest, hsplit, hs, hresumed⟩ := resumed_of_spells hspells
  rw [hsplit, List.append_assoc] at htext
  obtain ⟨hhead, hdashes⟩ := not_resumed hclear hs htext
  rcases hresumed with hg | hinitial
  · refine hhead ?_
    rw [List.head?_append, hg, Option.some_or]
  · exact hdashes (hinitial.trans (List.prefix_append _ _))

theorem found_lineTail {lines : List Text} (hclear : ∀ line ∈ lines, clear line = true) :
    answerMarker.found (lineTail lines) = lines.flatMap answerMarker.found := by
  induction lines with
  | nil => exact found_nil lawful_answerMarker
  | cons line lines ih =>
    obtain ⟨-, hlines⟩ := List.forall_mem_cons.mp hclear
    have hnewline : answerMarker.found ('\n' :: (line ++ lineTail lines)) =
        answerMarker.found (line ++ lineTail lines) :=
      @found_append_of_not_mem ['\n'] (by decide) _
    rw [lineTail, List.flatMap_cons, List.cons_append]
    rw [← lineTail, hnewline, found_append lawful_answerMarker line (blocks_lineTail hlines),
      ih hlines, List.flatMap_cons]

/-- The markers of a comment, line by line. -/
theorem found_joinLines {lines : List Text} (hclear : ∀ line ∈ lines, clear line = true) :
    answerMarker.found (joinLines lines) = lines.flatMap answerMarker.found := by
  cases lines with
  | nil => exact found_nil lawful_answerMarker
  | cons line lines =>
    have hlines := (List.forall_mem_cons.mp hclear).2
    rw [joinLines_cons, found_append lawful_answerMarker line (blocks_lineTail hlines),
      found_lineTail hlines, List.flatMap_cons]

/-! ## The markers of the comment -/

theorem clear_bullet (text : Text) : clear (bullet text) = true := by
  unfold bullet
  generalize sanitizePublicComment text = redacted
  rfl

theorem found_bullet (text : Text) :
    answerMarker.found (bullet text) = (answerMarker.found text).filter kept := by
  have hdash : answerMarker.found (bullet text) = answerMarker.found (sanitizePublicComment text) :=
    @found_append_of_not_mem "- ".toList (by decide) _
  rw [hdash, found_sanitizePublicComment text]

theorem clear_emphasis (text : Text) : clear ("**".toList ++ text) = true := rfl

/-- Lines that show these markers and are clear at their start. -/
def Shows (lines ids : List Text) : Prop :=
  (∀ line ∈ lines, clear line = true) ∧ lines.flatMap answerMarker.found = ids

theorem Shows.append {lines lines' ids ids' : List Text} (h : Shows lines ids)
    (h' : Shows lines' ids') : Shows (lines ++ lines') (ids ++ ids') :=
  ⟨List.forall_mem_append.mpr ⟨h.1, h'.1⟩, by rw [List.flatMap_append, h.2, h'.2]⟩

theorem shows_bullets (list : List Text) :
    Shows (list.map bullet) ((list.flatMap answerMarker.found).filter kept) := by
  constructor
  · intro line hline
    obtain ⟨text, -, rfl⟩ := List.mem_map.mp hline
    exact clear_bullet text
  · rw [List.flatMap_map, List.filter_flatMap]
    exact List.flatMap_congr fun text _ => found_bullet text

/-- No comment opens in the text. -/
def unmarked : Text → Bool
  | '<' :: '!' :: _ => false
  | _ :: rest => unmarked rest
  | [] => true

theorem found_of_unmarked {text : Text} (h : unmarked text = true) :
    answerMarker.found text = [] := by
  induction text with
  | nil => exact found_nil lawful_answerMarker
  | cons c rest ih =>
    have hnone : answerMarker.captured none (c :: rest) = none := by
      rw [captured_eq_none_iff lawful_answerMarker]
      intro m post id htext hm
      obtain ⟨s, s', -, -, -, rfl⟩ := spells_answerMarker_iff.mp hm
      obtain ⟨rfl, hrest⟩ := List.cons.inj htext
      rw [hrest] at h
      cases h
    have hlater : unmarked rest = true := by
      unfold unmarked at h
      split at h
      · cases h
      · rename_i htext
        rwa [(List.cons.inj htext).2]
      · rename_i htext
        cases htext
    rw [found_cons lawful_answerMarker, hnone, Option.toList_none, List.nil_append, ih hlater]

def idle (lines : List Text) : Bool := lines.all fun line => clear line && unmarked line

theorem shows_of_unmarked {lines : List Text} (h : idle lines = true) : Shows lines [] := by
  rw [idle, List.all_eq_true] at h
  refine ⟨fun line hline => (Bool.and_eq_true_iff.mp (h line hline)).1, ?_⟩
  rw [List.flatMap_eq_nil_iff]
  exact fun line hline => found_of_unmarked (Bool.and_eq_true_iff.mp (h line hline)).2

set_option maxRecDepth 4000 in
/-- What is computed of the lines that no request changes. -/
theorem fixedLines_idle :
    (idle [[], "**Findings**".toList, []] = true ∧
      idle [[], "**Evidence**".toList, []] = true ∧
      idle [[], "**Next actions**".toList, []] = true ∧
      idle [[], "<details>".toList, "<summary>Source and freshness</summary>".toList, []] = true ∧
      idle [[], "<details>".toList, "<summary>Additional safe details</summary>".toList, []] =
        true ∧
      idle [[], "</details>".toList] = true ∧ idle [[]] = true ∧
      idle [[], "---".toList, gittensoryFooter] = true) ∧
    (idle [[], "> [!NOTE]".toList] = true ∧
      idle ["> Gittensory updated this command response in place from cached public-safe context.".toList, [], "| Signal | State |".toList, "| --- | --- |".toList] = true ∧
      idle [[], "<details>".toList, "<summary>Command result</summary>".toList, []] = true ∧
      (clear "<!-- gittensory-pr-panel:v1 -->".toList = true ∧
        answerMarker.found "<!-- gittensory-pr-panel:v1 -->".toList = [])) ∧
    idle ["**Feedback**".toList, [], "- Use a thumbs-up or thumbs-down reaction to mark whether this answer helped. Feedback is aggregate-only and never changes deterministic results.".toList] = true ∧ answerMarker.avoids '*' = true := by
  unfold gittensoryFooter
  repeat rw [String.toList_ofList]
  decide +kernel

/-- The headings of a card and what stands between its details. -/
theorem shows_fixedLines :
    Shows [[], "**Findings**".toList, []] [] ∧ Shows [[], "**Evidence**".toList, []] [] ∧
    Shows [[], "**Next actions**".toList, []] [] ∧
    Shows [[], "<details>".toList, "<summary>Source and freshness</summary>".toList, []] [] ∧
    Shows [[], "<details>".toList, "<summary>Additional safe details</summary>".toList, []] [] ∧
    Shows [[], "</details>".toList] [] ∧ Shows [[]] [] ∧
    Shows [[], "---".toList, gittensoryFooter] [] := by
  obtain ⟨hfindings, hevidence, hnext, hsource, hsafe, hend, hblank, hfooter⟩ := fixedLines_idle.1
  exact ⟨shows_of_unmarked hfindings, shows_of_unmarked hevidence, shows_of_unmarked hnext,
    shows_of_unmarked hsource, shows_of_unmarked hsafe, shows_of_unmarked hend,
    shows_of_unmarked hblank, shows_of_unmarked hfooter⟩

theorem found_emphasis (text : Text) :
    answerMarker.found ("**".toList ++ sanitizePublicComment text ++ "**".toList) =
      (answerMarker.found text).filter kept := by
  have hend : answerMarker.found "**".toList = [] := found_of_unmarked (by decide)
  have hblocks : answerMarker.Blocks "**".toList :=
    blocks_separator fixedLines_idle.2.2.2 ['*']
  have hstart : answerMarker.found ("**".toList ++ (sanitizePublicComment text ++ "**".toList)) =
      answerMarker.found (sanitizePublicComment text ++ "**".toList) :=
    @found_append_of_not_mem "**".toList (by decide) _
  rw [List.append_assoc, hstart, found_append lawful_answerMarker _ hblocks, hend,
    List.append_nil, found_sanitizePublicComment text]

theorem shows_renderPublicAnswerCard (card : PublicAnswerCard) :
    Shows (renderPublicAnswerCard card)
      (((texts card).flatMap answerMarker.found).filter kept) := by
  obtain ⟨hfindings, hevidence, hnext, hsource, hsafe, hend, hblank, -⟩ := shows_fixedLines
  have htitle : Shows ["**".toList ++ sanitizePublicComment card.title ++ "**".toList]
      ((answerMarker.found card.title).filter kept) := by
    refine ⟨fun line hline => ?_, ?_⟩
    · rw [List.mem_singleton.mp hline, List.append_assoc]
      exact clear_emphasis _
    · rw [List.flatMap_singleton, found_emphasis]
  have hdetails : Shows (if card.safeDetails = [] then [] else
      [[], "<details>".toList, "<summary>Additional safe details</summary>".toList, []] ++
        card.safeDetails.map bullet ++ [[], "</details>".toList])
      ((card.safeDetails.flatMap answerMarker.found).filter kept) := by
    by_cases hnone : card.safeDetails = []
    · rw [if_pos hnone, hnone]
      exact ⟨fun line hline => absurd hline List.not_mem_nil, rfl⟩
    · rw [if_neg hnone]
      have hlist := (hsafe.append (shows_bullets card.safeDetails)).append hend
      rwa [List.nil_append, List.append_nil] at hlist
  have hsummary := shows_bullets [card.summary]
  have hcard := ((((((((((htitle.append hblank).append hsummary).append hfindings).append
    (shows_bullets card.findings)).append hevidence).append (shows_bullets card.evidence)).append
    hnext).append (shows_bullets card.nextActions)).append hsource).append
    (shows_bullets card.sourceNotes)).append hend |>.append hdetails
  convert hcard using 1
  · simp only [renderPublicAnswerCard, List.append_assoc, List.cons_append, List.nil_append,
      List.map_cons, List.map_nil]
  · simp only [texts, List.flatMap_append, List.filter_append, List.flatMap_cons,
      List.flatMap_nil, List.append_nil, List.append_assoc]

/-! ## Answer ids -/

def hexDigit : Pattern := .char ⟨false, [('0', '9'), ('a', 'f'), ('A', 'F')]⟩

def uuid : Pattern :=
  .seqs [.times 8 hexDigit, .exactly '-', .times 4 hexDigit, .exactly '-', .times 4 hexDigit,
    .exactly '-', .times 4 hexDigit, .exactly '-', .times 12 hexDigit]

def isUuid (text : Text) : Bool := test (.seq .start (.seq uuid .stop)) text

def uuidLetters : List Char := "0123456789abcdefABCDEF-".toList

/-- What is computed of the pattern and of its letters. -/
theorem uuid_facts :
    (∀ n < 128, CharSet.accepts ⟨false, [('0', '9'), ('a', 'f'), ('A', 'F'), ('-', '-')]⟩
      (Char.ofNat n) = true → Char.ofNat n ∈ uuidLetters) ∧
    fixedLength uuid = some 36 ∧
    ∀ q ∈ redactionPatterns, excludes uuidLetters q = true := by
  decide +kernel

theorem mem_uuidLetters {c : Char} (h : avoids c uuid = false) : c ∈ uuidLetters := by
  have hset : CharSet.accepts ⟨false, [('0', '9'), ('a', 'f'), ('A', 'F'), ('-', '-')]⟩ c =
      true := by
    by_contra hnot
    rw [Bool.not_eq_true] at hnot
    simp only [CharSet.accepts, List.any_cons, List.any_nil, Bool.or_false, Bool.bne_false,
      Bool.or_eq_false_iff] at hnot
    have havoids : avoids c uuid = true := by
      simp only [uuid, hexDigit, Pattern.seqs, Pattern.times, Pattern.exactly, List.foldr_cons,
        List.foldr_nil, avoids, CharSet.accepts, List.any_cons, List.any_nil, Bool.or_false,
        Bool.bne_false, hnot]
      rfl
    rw [havoids] at h
    cases h
  have hlow : c.toNat < 128 := by
    simp only [CharSet.accepts, List.any_cons, List.any_nil, Bool.or_false, Bool.bne_false,
      Bool.or_eq_true, decide_eq_true_eq] at hset
    have hle : ∀ d : Char, c ≤ d → d.toNat < 128 → c.toNat < 128 :=
      fun d hd hd' => Nat.lt_of_le_of_lt hd hd'
    rcases hset with h | h | h | h
    · exact hle _ h.2 (by decide)
    · exact hle _ h.2 (by decide)
    · exact hle _ h.2 (by decide)
    · exact hle _ h.2 (by decide)
  have hc := uuid_facts.1 c.toNat hlow
  rw [Char.ofNat_toNat] at hc
  exact hc hset

theorem matches_of_isUuid {id : Text} (h : isUuid id = true) : Matches uuid none id [] :=
  (test_anchored_iff _ _).mp h

theorem letters_of_isUuid {id : Text} (h : isUuid id = true) : ∀ c ∈ id, c ∈ uuidLetters := by
  intro c hc
  by_contra hnot
  cases havoids : avoids c uuid with
  | true => exact (matches_of_isUuid h).not_mem_of_avoids havoids hc
  | false => exact hnot (mem_uuidLetters havoids)

theorem answerId_of_isUuid {id : Text} (h : isUuid id = true) : AnswerId id := by
  have hlength : id.length = 36 := length_of_fixedLength uuid_facts.2.1 (matches_of_isUuid h)
  have hletters : ∀ c ∈ uuidLetters, idSet.accepts c = true := List.all_eq_true.mp (by decide)
  refine ⟨?_, ?_, fun c hc => hletters c (letters_of_isUuid h c hc)⟩
  · rw [hlength]
    decide
  · rw [hlength]
    decide

/-- Every private phrase has a letter that no such id has. -/
theorem kept_of_isUuid {id : Text} (h : isUuid id = true) : kept id = true := by
  rw [kept, List.all_eq_true]
  intro q hq
  rw [test_eq_false_of_excludes (uuid_facts.2.2 q hq) (letters_of_isUuid h)]
  rfl

theorem sanitizeFeedbackAnswerId_eq_self {id : Text} (h : AnswerId id) :
    sanitizeFeedbackAnswerId id = id := by
  rw [sanitizeFeedbackAnswerId, List.filter_eq_self.mpr h.letters, List.take_of_length_le h.high]

theorem found_buildAgentCommandFeedbackMarker {id : Text} (h : AnswerId id) :
    answerMarker.found (buildAgentCommandFeedbackMarker id) = [id] := by
  rw [buildAgentCommandFeedbackMarker, sanitizeFeedbackAnswerId_eq_self h]
  have hspells : answerMarker.Spells
      ("<!-- ".toList ++ (markerName.toList ++ (id ++ " -->".toList))) id := by
    refine spells_answerMarker_iff.mpr ⟨[' '], [' '], ?_, ?_, h, ?_⟩
    · exact fun c hc => by rw [List.mem_singleton.mp hc]; decide
    · exact fun c hc => by rw [List.mem_singleton.mp hc]; decide
    · simp
  have hrest : '<' ∉ "!-- ".toList ++ (markerName.toList ++ (id ++ " -->".toList)) := by
    simp only [List.mem_append, not_or]
    exact ⟨by decide, by decide, fun hmem => absurd (h.letters _ hmem) (by decide), by decide⟩
  have hnone := found_eq_nil lawful_answerMarker (by decide) hrest
  have hfirst : answerMarker.captured none
      ("<!-- ".toList ++ (markerName.toList ++ (id ++ " -->".toList))) = some id :=
    (captured_eq_some_iff lawful_answerMarker).mpr ⟨_, [], (List.append_nil _).symm, hspells⟩
  have hopening : "<!-- ".toList ++ (markerName.toList ++ (id ++ " -->".toList)) =
      '<' :: ("!-- ".toList ++ (markerName.toList ++ (id ++ " -->".toList))) := rfl
  rw [hopening] at hfirst ⊢
  rw [found_cons lawful_answerMarker, hfirst, hnone, Option.toList_some, List.append_nil]

theorem shows_feedbackPromptSections {id : Text} (h : AnswerId id) :
    Shows (feedbackPromptSections (some id)) [id] := by
  have hprompt := shows_of_unmarked fixedLines_idle.2.2.1
  have hmarker : Shows [buildAgentCommandFeedbackMarker id] [id] := by
    refine ⟨fun line hline => ?_, ?_⟩
    · rw [List.mem_singleton.mp hline, buildAgentCommandFeedbackMarker]
      generalize markerName.toList ++ (sanitizeFeedbackAnswerId id ++ " -->".toList) = rest
      rfl
    · rw [List.flatMap_singleton, found_buildAgentCommandFeedbackMarker h]
  obtain ⟨-, -, -, -, -, -, hblank, -⟩ := shows_fixedLines
  have hlines := (hblank.append hmarker).append hprompt
  obtain ⟨c, id, rfl⟩ : ∃ c rest, id = c :: rest :=
    List.exists_cons_of_length_pos (Nat.lt_of_lt_of_le (by decide) h.low)
  exact hlines

/-! ## The lines in front of the card -/

theorem not_mem_repoFullName {c : Char} (hc : repoNameSet.accepts c = false)
    (hc' : c ∉ "this repository".toList) (request : CommandRequest) : c ∉ request.repoFullName := by
  unfold CommandRequest.repoFullName
  cases request.repo <|> request.pullRequestRepo with
  | none => exact hc'
  | some repo =>
    intro hmem
    have hletter := repo.letters c hmem
    rw [hc] at hletter
    cases hletter

/-- From the table of the comment to its details. -/
def commandPart (command : MentionCommand) : Text :=
  "\n\nCommand: \u0060@gittensory ".toList ++ (command.name.toList ++ "\u0060\n\n".toList)

def commandLead : Text := "Command: \u0060@gittensory ".toList

/-- Up to the bracket of the note. -/
def frontPart : Text := "<!-- gittensory-pr-panel:v1 -->".toList ++ ['\n', '\n', '>', ' ']

/-- What the comment needs of a command. -/
def commandFacts (command : MentionCommand) : Prop :=
  sanitizePublicComment ("@gittensory ".toList ++ command.name.toList) =
      "@gittensory ".toList ++ command.name.toList ∧
    (command.name.toList, []) ∈ ends commandLine.group none command.name.toList ∧
    MentionCommand.ofName (command.name.toList.flatMap lowerChar) = some command

instance (command : MentionCommand) : Decidable (commandFacts command) :=
  inferInstanceAs (Decidable (_ ∧ _))

/-- What is computed of the commands one by one, and of the texts around them. -/
theorem command_facts :
    MentionCommand.all.all (fun command => decide (commandFacts command)) = true ∧
    (sanitizePublicComment "\n\nCommand: ".toList = "\n\nCommand: ".toList ∧
      sanitizePublicComment "\n\n".toList = "\n\n".toList ∧
      (commandLead, []) ∈ ends commandLine.lead none commandLead ∧
      (['\u0060'], []) ∈ ends commandLine.trail none ['\u0060']) ∧
    ['[', '|', '\u0060', '<'].all (fun sep => !isWordChar sep &&
      !mention.contains (Pattern.lowerOf sep) &&
        redactionPatterns.all fun q => avoids sep q) = true := by
  decide +kernel

theorem command_facts_of (command : MentionCommand) : commandFacts command :=
  of_decide_eq_true (List.all_eq_true.mp command_facts.1 command (MentionCommand.mem_all command))

/-- The texts of the header that are split at a letter. -/
theorem constants :
    "> [!NOTE]".toList = '>' :: ' ' :: '[' :: "!NOTE]".toList ∧ " |".toList = [' ', '|'] ∧
      "<details>".toList = '<' :: "details>".toList ∧ '@' ∉ frontPart ∧
      ':' ∉
        "> Gittensory updated this command response in place from cached public-safe context.".toList := by
  unfold frontPart
  repeat rw [String.toList_ofList]
  decide

/-- The command between its quotes, its place in the lines, and its own line. -/
theorem commandPart_splits (command : MentionCommand) :
    commandPart command = "\n\nCommand: ".toList ++
      '\u0060' :: (("@gittensory ".toList ++ command.name.toList) ++ '\u0060' :: "\n\n".toList) ∧
    commandPart command = '\n' :: '\n' :: ((commandLead ++ (command.name.toList ++ ['\u0060'])) ++
      "\n\n".toList) ∧
    commandPart command = '\n' :: '\n' :: ("Command: \u0060".toList ++
      (("@gittensory ".toList ++ command.name.toList) ++ ("\u0060".toList ++ ['\n', '\n']))) := by
  unfold commandPart commandLead
  generalize command.name.toList = name
  repeat rw [String.toList_ofList]
  refine ⟨?_, ?_, ?_⟩ <;>
    simp only [List.cons_append, List.nil_append, List.append_assoc]

theorem commandText_letters (command : MentionCommand) :
    '<' ∉ (commandTitle command).toList ∧ ':' ∉ (commandTitle command).toList ∧
      '<' ∉ command.name.toList ∧ ':' ∉ command.name.toList := by
  cases command <;> exact ⟨not_mem_literal (by decide), not_mem_literal (by decide),
    not_mem_literal (by decide), not_mem_literal (by decide)⟩

theorem shows_line {line : Text} (hclear : clear line = true) (hline : '<' ∉ line) :
    Shows [line] [] := by
  refine ⟨fun other hother => ?_, ?_⟩
  · rw [List.mem_singleton.mp hother]
    exact hclear
  · rw [List.flatMap_singleton, found_eq_nil lawful_answerMarker (by decide) hline]

theorem clear_append (c : Char) (word : String) (rest : Text) (hword : word.toList.head? = some c)
    (hc : (!spaceSet.accepts c && c != 'g' && c != '-') = true) :
    clear (word.toList ++ rest) = true := by
  cases hletters : word.toList with
  | nil =>
    rw [hletters] at hword
    cases hword
  | cons d letters =>
    rw [hletters] at hword
    obtain rfl := Option.some.inj hword
    rw [Bool.and_eq_true] at hc
    have hdash : "-->".toList.isPrefixOf (d :: (letters ++ rest)) = false := by
      have hne : ('-' == d) = false := by
        rw [beq_eq_false_iff_ne]
        exact (bne_iff_ne.mp hc.2).symm
      have hstep : "-->".toList.isPrefixOf (d :: (letters ++ rest)) =
          ('-' == d && "->".toList.isPrefixOf (letters ++ rest)) := rfl
      rw [hstep, hne, Bool.false_and]
    rw [List.cons_append, clear, hdash, hc.1]
    rfl

theorem shows_header (request : CommandRequest) : Shows request.header [] := by
  obtain ⟨htitle, -, hname, -⟩ := commandText_letters request.command
  have hkind : '<' ∉ request.actorKind.name.toList := by
    cases request.actorKind <;> decide
  have hrepo := @not_mem_repoFullName '<' (by decide) (by decide) request
  have hnumber := @not_mem_toString '<' (by decide) request.issueNumber
  obtain ⟨hnote, htable, hdetails, hclear, hfound⟩ := fixedLines_idle.2.1
  have hpanel : Shows ["<!-- gittensory-pr-panel:v1 -->".toList] [] := by
    refine ⟨fun line hline => ?_, ?_⟩
    · rw [List.mem_singleton.mp hline]
      exact hclear
    · rw [List.flatMap_singleton, hfound]
  have hcommand : '<' ∉ request.commandText := List.not_mem_append (by decide) hname
  have htitleLine : Shows ["> **".toList ++ (commandTitle request.command).toList ++ "**".toList]
      [] := by
    refine shows_line ?_ (List.not_mem_append (List.not_mem_append (by decide) htitle) (by decide))
    rw [List.append_assoc]
    exact clear_append '>' "> **" _ rfl (by decide)
  have hcell :
      Shows ["| Command | \u0060".toList ++ request.commandText ++ "\u0060 |".toList] [] := by
    refine shows_line ?_
      (List.not_mem_append (List.not_mem_append (by decide) hcommand) (by decide))
    rw [List.append_assoc]
    exact clear_append '|' "| Command | \u0060" _ rfl (by decide)
  have hscope : Shows ["| Scope | ".toList ++ request.repoFullName ++ "#".toList ++
      (toString request.issueNumber).toList ++ " |".toList] [] := by
    refine shows_line ?_ (List.not_mem_append (List.not_mem_append (List.not_mem_append
      (List.not_mem_append (by decide) hrepo) (by decide)) hnumber) (by decide))
    rw [List.append_assoc, List.append_assoc, List.append_assoc]
    exact clear_append '|' "| Scope | " _ rfl (by decide)
  have hactor : Shows ["| Actor | ".toList ++ request.actorKind.name.toList ++ " |".toList] [] := by
    refine shows_line ?_ (List.not_mem_append (List.not_mem_append (by decide) hkind) (by decide))
    rw [List.append_assoc]
    exact clear_append '|' "| Actor | " _ rfl (by decide)
  have hline : Shows ["Command: \u0060".toList ++ request.commandText ++ "\u0060".toList] [] := by
    refine shows_line ?_
      (List.not_mem_append (List.not_mem_append (by decide) hcommand) (by decide))
    rw [List.append_assoc]
    exact clear_append 'C' "Command: \u0060" _ rfl (by decide)
  obtain ⟨-, -, -, -, -, -, hblank, -⟩ := shows_fixedLines
  exact ((((((((hpanel.append (shows_of_unmarked hnote)).append htitleLine).append
    (shows_of_unmarked htable)).append hcell).append hscope).append hactor).append hblank).append
    hline).append (shows_of_unmarked hdetails)

/-! ## The command that is read back -/

theorem head_of_literalNoCase {word : String} {set : CharSet}
    (hsteps : ∀ step ∈ steps (.literalNoCase word), meets step.1 set = false)
    (hnonempty : nullable (.literalNoCase word) = false) {prev : Option Char} {m post : Text}
    (h : Matches (.literalNoCase word) prev m post) (rest : Text) :
    ∀ c ∈ (m ++ rest).head?, set.accepts c = false := by
  obtain ⟨d, m, rfl⟩ := List.exists_cons_of_ne_nil (ne_nil_of_matches h hnonempty)
  intro c hc
  obtain rfl := Option.some.inj hc
  obtain ⟨step, hstep, haccepts, -⟩ := exists_step h rfl
  cases hset : set.accepts d with
  | false => rfl
  | true =>
    have hmeets := meets_of_accepts haccepts hset
    rw [hsteps step hstep] at hmeets
    cases hmeets

/-- `[a-z-]` in either case -/
def commandSet : CharSet := ⟨false, [('a', 'z'), ('A', 'Z'), ('-', '-')]⟩

theorem spells_commandLine {m name : Text} (h : commandLine.Spells m name) :
    ∃ a s b s', m = a ++ (s ++ (b ++ (s' ++ (name ++ ['\u0060'])))) ∧
      Matches (.literalNoCase "Command:") none a [] ∧ IsSpace s ∧
      Matches (.literalNoCase "\u0060@gittensory") none b [] ∧ IsSpace s' ∧ name ≠ [] ∧
      ∀ c ∈ name, commandSet.accepts c = true := by
  obtain ⟨l, r, rfl, hlead, hgroup, htrail⟩ := h
  simp only [commandLine, Pattern.seqs, List.foldr_cons, List.foldr_nil, matches_seq_iff,
    matches_star_char_iff, matches_empty_iff] at hlead
  obtain ⟨a, x, rfl, ha, s, y, rfl, hs, b, z, rfl, hb, s', e, rfl, hs', rfl⟩ := hlead
  obtain ⟨c, rfl, hc⟩ := matches_char_iff.mp htrail
  obtain ⟨u, v, rfl, hu, hv⟩ := matches_seq_iff.mp hgroup
  obtain ⟨w, w', rfl, hw, hw'⟩ := matches_seq_iff.mp hs'
  obtain ⟨d, rfl, hd⟩ := matches_char_iff.mp hu
  obtain ⟨f, rfl, hf⟩ := matches_char_iff.mp hw
  have hc' : c = '\u0060' := by
    simp only [CharSet.accepts, List.any_cons, List.any_nil, Bool.or_false, Bool.bne_false,
      decide_eq_true_eq] at hc
    exact le_antisymm hc.2 hc.1
  subst hc'
  exact ⟨a, s, b, [f] ++ w', by simp only [List.append_assoc, List.append_nil],
    matches_of_plain ha (by decide) none [], hs, matches_of_plain hb (by decide) none [],
    List.forall_mem_cons.mpr ⟨hf, matches_star_char_iff.mp hw'⟩, List.cons_ne_nil d v,
    List.forall_mem_cons.mpr ⟨hd, matches_star_char_iff.mp hv⟩⟩

theorem commandLine_unique {m m' name name' post post' : Text} (h : commandLine.Spells m name)
    (h' : commandLine.Spells m' name') (htext : m ++ post = m' ++ post') : name = name' := by
  obtain ⟨a, s, b, r, rfl, ha, hs, hb, hr, hname, hall⟩ := spells_commandLine h
  obtain ⟨a', s', b', r', rfl, ha', hs', hb', hr', hname', hall'⟩ := spells_commandLine h'
  simp only [List.append_assoc] at htext
  have hinitial : ∀ {x : Text}, Matches (.literalNoCase "Command:") none x [] → x.length = 8 :=
    fun hx => length_of_fixedLength (by decide) hx
  have hafter := (List.append_inj htext ((hinitial ha).trans (hinitial ha').symm)).2
  have hsteps : ∀ step ∈ steps (.literalNoCase "\u0060@gittensory"),
      meets step.1 spaceSet = false := by decide
  obtain ⟨-, hmention⟩ := stretch_unique hs hs' (head_of_literalNoCase hsteps (by decide) hb _)
    (head_of_literalNoCase hsteps (by decide) hb' _) hafter
  have hlength : ∀ {x : Text}, Matches (.literalNoCase "\u0060@gittensory") none x [] →
      x.length = 12 := fun hx => length_of_fixedLength (by decide) hx
  have hspaced := (List.append_inj hmention ((hlength hb).trans (hlength hb').symm)).2
  have hletter : ∀ {x rest : Text}, x ≠ [] → (∀ c ∈ x, commandSet.accepts c = true) →
      ∀ c ∈ (x ++ rest).head?, spaceSet.accepts c = false := by
    intro x rest hx hallx c hc
    obtain ⟨d, x, rfl⟩ := List.exists_cons_of_ne_nil hx
    obtain rfl := Option.some.inj hc
    cases hspace : spaceSet.accepts d with
    | false => rfl
    | true =>
      have hmeets := meets_of_accepts (hallx d List.mem_cons_self) hspace
      exact absurd hmeets (by decide)
  obtain ⟨-, hnamed⟩ := stretch_unique hr hr' (hletter hname hall) (hletter hname' hall') hspaced
  have hquote : ∀ rest : Text, ∀ c ∈ (['\u0060'] ++ rest).head?, commandSet.accepts c = false := by
    intro rest c hc
    obtain rfl := Option.some.inj hc
    decide
  exact (stretch_unique hall hall' (hquote _) (hquote _) hnamed).1

theorem lawful_commandLine : commandLine.Lawful where
  lead := by decide
  group := by decide
  trail := by decide
  nonempty := by decide
  unique := commandLine_unique

theorem mem_rewritten {free : Text → Text → Prop} {taken : Text → Text → Text → Prop}
    {planted seen text text' : Text} (h : Rewritten free taken planted seen text text') {c : Char}
    (hplanted : c ∉ planted) (hc : c ∈ text') : c ∈ text := by
  induction h with
  | nil => exact hc
  | keep _ _ ih =>
    rcases List.mem_cons.mp hc with rfl | hc
    · exact List.mem_cons_self
    · exact List.mem_cons_of_mem _ (ih hc)
  | plant _ _ ih =>
    rcases List.mem_append.mp hc with hc | hc
    · exact absurd hc hplanted
    · exact List.mem_append_right _ (ih hc)

/-- A redacted comment has the letters of the comment and of what is planted. -/
theorem mem_sanitizePublicComment {c : Char} (hcontext : c ∉ privateContext)
    (hnote : c ∉ overlapNote) {value : Text} (hc : c ∈ sanitizePublicComment value) :
    c ∈ value := by
  have hreplace : ∀ q ∈ redactionPatterns, ∀ planted text : Text, c ∉ planted →
      c ∈ replaceAll q planted text → c ∈ text := fun q hq planted text =>
    mem_rewritten (rewritten_replaceAll (searchable_of_mem hq).2 planted text)
  have hfold : ∀ (list : List Pattern) (text : Text), (∀ q ∈ list, q ∈ redactionPatterns) →
      c ∈ list.foldl (fun text q => replaceAll q privateContext text) text → c ∈ text := by
    intro list
    induction list with
    | nil => exact fun text _ h => h
    | cons q list ih =>
      intro text hall h
      obtain ⟨hq, hrest⟩ := List.forall_mem_cons.mp hall
      exact hreplace q hq privateContext text hcontext (ih _ hrest h)
  have hlist := hreplace placeholderList (by simp [redactionPatterns]) privateContext _ hcontext hc
  have hterm := mem_rewritten (rewritten_sanitizeReviewabilityTerm _) hcontext hlist
  have hphrases := hreplace likelyDuplicate (by simp [redactionPatterns]) overlapNote _ hnote hterm
  refine hfold _ value (fun q hq => ?_) hphrases
  rw [redactionPatterns, List.append_cons]
  exact List.mem_append_left _ hq

theorem separator_of_mem {sep : Char} (hsep : sep ∈ ['[', '|', '\u0060', '<']) : Separator sep := by
  have hall := List.all_eq_true.mp command_facts.2.2 sep hsep
  simp only [Bool.and_eq_true, Bool.not_eq_true', List.contains_eq_mem, decide_eq_false_iff_not,
    List.all_eq_true] at hall
  obtain ⟨⟨hword, hmention⟩, havoided⟩ := hall
  exact ⟨hword, hmention, havoided⟩

theorem sanitizePublicComment_commandPart (command : MentionCommand) :
    sanitizePublicComment (commandPart command) = commandPart command := by
  obtain ⟨hname, -, -⟩ := command_facts_of command
  obtain ⟨hquoted, -, -⟩ := commandPart_splits command
  obtain ⟨hfront, hback, -, -⟩ := command_facts.2.1
  have hsep := @separator_of_mem '\u0060' (by decide)
  rw [hquoted, sanitizePublicComment_separator hsep, sanitizePublicComment_separator hsep, hfront,
    hback, hname]

theorem spells_commandLead (command : MentionCommand) :
    commandLine.Spells (commandLead ++ (command.name.toList ++ ['\u0060']))
      command.name.toList := by
  obtain ⟨-, hname, -⟩ := command_facts_of command
  obtain ⟨-, -, hlead, htrail⟩ := command_facts.2.1
  exact ⟨commandLead, ['\u0060'], rfl, ((mem_ends_iff _ _ _ _ _).mp hlead).2,
    ((mem_ends_iff _ _ _ _ _).mp hname).2, ((mem_ends_iff _ _ _ _ _).mp htrail).2⟩

theorem found_newline (text : Text) :
    commandLine.found ('\n' :: text) = commandLine.found text := by
  have hnone : commandLine.captured none ('\n' :: text) = none := by
    rw [captured_eq_none_iff lawful_commandLine]
    intro m post name htext hspells
    obtain ⟨a, s, b, s', rfl, ha, -⟩ := spells_commandLine hspells
    have hsteps : ∀ step ∈ steps (.literalNoCase "Command:"),
        meets step.1 spaceSet = false := by decide
    rw [List.append_assoc] at htext
    have hhead := head_of_literalNoCase hsteps (by decide) ha _ '\n' (by rw [← htext]; rfl)
    exact absurd hhead (by decide)
  rw [found_cons lawful_commandLine, hnone, Option.toList_none, List.nil_append]

theorem first_commandPart (command : MentionCommand) (rest : Text) :
    (commandLine.found (commandPart command ++ rest)).head? = some command.name.toList := by
  obtain ⟨-, hpart, -⟩ := commandPart_splits command
  have hspells := spells_commandLead command
  have hcaptured : commandLine.captured none
      ((commandLead ++ (command.name.toList ++ ['\u0060'])) ++
      ("\n\n".toList ++ rest)) = some command.name.toList :=
    (captured_eq_some_iff lawful_commandLine).mpr ⟨_, _, rfl, hspells⟩
  rw [hpart, List.cons_append, List.cons_append, found_newline, found_newline, List.append_assoc]
  obtain ⟨c, m, hm⟩ := List.exists_cons_of_ne_nil (ne_nil_of_spells lawful_commandLine hspells)
  rw [hm, List.cons_append] at hcaptured ⊢
  rw [found_cons lawful_commandLine, hcaptured, Option.toList_some, List.singleton_append,
    List.head?_cons]

/-! ## The comment -/

/-- From there to the end of the table. -/
def tablePart (request : CommandRequest) : Text :=
  "!NOTE]".toList ++ lineTail
    ["> **".toList ++ (commandTitle request.command).toList ++ "**".toList,
      "> Gittensory updated this command response in place from cached public-safe context.".toList,
      [], "| Signal | State |".toList, "| --- | --- |".toList,
      "| Command | \u0060".toList ++ request.commandText ++ "\u0060 |".toList,
      "| Scope | ".toList ++ request.repoFullName ++ "#".toList ++
        (toString request.issueNumber).toList ++ " |".toList,
      "| Actor | ".toList ++ request.actorKind.name.toList ++ [' ']]

/-- The lines of the header joined, with the places of the bracket, the last bar and the tag. -/
theorem lineTail_cons (line : Text) (rest : List Text) :
    lineTail (line :: rest) = '\n' :: (line ++ lineTail rest) := rfl

theorem joinLines_parts (opening note note' mark mark' title notice signal dashes command quoted
    accent scope repo number issue bar actor kind label close details details' summary : Text)
    (more : List Text) (hnote : note = '>' :: ' ' :: '[' :: note') (hbar : bar = [' ', '|'])
    (hdetails : details = '<' :: details') :
    joinLines ([opening, [], note, mark ++ title ++ mark', notice, [], signal, dashes,
        command ++ quoted ++ accent, scope ++ repo ++ number ++ issue ++ bar, actor ++ kind ++ bar,
        [], label ++ quoted ++ close, [], details, summary, []] ++ more) =
      (opening ++ ['\n', '\n', '>', ' ']) ++ '[' :: ((note' ++ lineTail
        [mark ++ title ++ mark', notice, [], signal, dashes, command ++ quoted ++ accent,
          scope ++ repo ++ number ++ issue ++ bar, actor ++ kind ++ [' ']]) ++
        '|' :: ('\n' :: '\n' :: (label ++ (quoted ++ (close ++ ['\n', '\n']))) ++
          '<' :: (details' ++ lineTail (summary :: [] :: more)))) := by
  subst hnote hbar hdetails
  simp only [List.cons_append, List.nil_append, joinLines_cons, lineTail_cons, List.append_assoc]
  rfl

theorem joinLines_header (request : CommandRequest) (more : List Text) :
    ∃ rest, joinLines (request.header ++ more) =
      frontPart ++ '[' ::
        (tablePart request ++ '|' :: (commandPart request.command ++ '<' :: rest)) := by
  obtain ⟨hnote, hbar, hdetails, -, -⟩ := constants
  obtain ⟨-, -, hpart⟩ := commandPart_splits request.command
  rw [hpart]
  exact ⟨_, joinLines_parts _ _ _ _ _ _ _ _ _ _ _ _ _ _ _ _ _ _ _ _ _ _ _ _ more hnote hbar
    hdetails⟩

theorem found_front : commandLine.found (sanitizePublicComment frontPart) = [] := by
  obtain ⟨-, -, -, hmention, -⟩ := constants
  exact found_eq_nil lawful_commandLine (by decide) fun hmem =>
    hmention (mem_sanitizePublicComment (by decide) (by decide) hmem)

theorem colon_not_mem_tablePart (request : CommandRequest) : ':' ∉ tablePart request := by
  obtain ⟨-, htitle, -, hname⟩ := commandText_letters request.command
  have hkind : ':' ∉ request.actorKind.name.toList := by
    cases request.actorKind <;> decide
  have hrepo := @not_mem_repoFullName ':' (by decide) (by decide) request
  have hnumber := @not_mem_toString ':' (by decide) request.issueNumber
  have hcommand : ':' ∉ request.commandText := List.not_mem_append (by decide) hname
  have htail : ∀ lines : List Text, (∀ line ∈ lines, ':' ∉ line) → ':' ∉ lineTail lines := by
    intro lines hlines hmem
    obtain ⟨line, hline, hc⟩ := List.mem_flatMap.mp hmem
    rcases List.mem_cons.mp hc with hc | hc
    · exact absurd hc (by decide)
    · exact hlines line hline hc
  refine List.not_mem_append (by decide) (htail _ ?_)
  simp only [List.forall_mem_cons]
  obtain ⟨-, -, -, -, hnotice⟩ := constants
  refine ⟨List.not_mem_append (List.not_mem_append (by decide) htitle) (by decide), hnotice,
    by decide, by decide, by decide,
    List.not_mem_append (List.not_mem_append (by decide) hcommand) (by decide),
    List.not_mem_append (List.not_mem_append (List.not_mem_append
      (List.not_mem_append (by decide) hrepo) (by decide)) hnumber) (by decide),
    List.not_mem_append (List.not_mem_append (by decide) hkind) (by decide), ?_⟩
  exact fun line hline => absurd hline List.not_mem_nil

/-- The first command line of the comment is its own. -/
theorem first_command (request : CommandRequest) (more : List Text) :
    commandLine.first (sanitizePublicComment (joinLines (request.header ++ more))) =
      some request.command.name.toList := by
  obtain ⟨rest, hparts⟩ := joinLines_header request more
  have hlawful := lawful_commandLine
  have htable : commandLine.found (sanitizePublicComment (tablePart request)) = [] :=
    found_eq_nil hlawful (by decide) fun hmem =>
      colon_not_mem_tablePart request (mem_sanitizePublicComment (by decide) (by decide) hmem)
  rw [hparts, sanitizePublicComment_separator (separator_of_mem (by decide)),
    sanitizePublicComment_separator (separator_of_mem (by decide)),
    sanitizePublicComment_separator (separator_of_mem (by decide)),
    sanitizePublicComment_commandPart, Capture.first,
    found_separator hlawful (by decide), found_front, List.nil_append,
    found_separator hlawful (by decide), htable, List.nil_append, first_commandPart]

section Feedback

variable (localeCompare : Text → Text → Ordering) (request : CommandRequest) {answerId : Text}

/-- What is read back: the first marker that the request brings into the card, else the comment's
own. -/
theorem parse_comment (h : isUuid answerId = true) :
    parseAgentCommandFeedbackContext
        (some (buildPublicAgentCommandComment localeCompare request (some answerId))) =
      some ⟨((marked (shownTexts localeCompare request)).find? kept).getD answerId,
        some request.command⟩ := by
  have hid := answerId_of_isUuid h
  obtain ⟨-, -, -, -, -, hdetails, -, hfooter⟩ := shows_fixedLines
  have hlines := ((((shows_header request).append
    (shows_renderPublicAnswerCard (request.card localeCompare))).append hdetails).append
    (shows_feedbackPromptSections hid)).append hfooter
  have hanswer : answerMarker.first
      (buildPublicAgentCommandComment localeCompare request (some answerId)) =
        some (((marked (shownTexts localeCompare request)).find? kept).getD answerId) := by
    rw [buildPublicAgentCommandComment, Capture.first, found_sanitizePublicComment,
      found_joinLines hlines.1, hlines.2, List.head?_filter, List.nil_append, List.append_nil,
      List.append_nil, List.find?_append, List.find?_filter,
      List.find?_cons_of_pos (kept_of_isUuid h), ← marked]
    simp only [and_self, Bool.decide_eq_true, find?_texts]
    generalize List.find? kept _ = shown
    cases shown <;> rfl
  have hcommand : commandLine.first
      (buildPublicAgentCommandComment localeCompare request (some answerId)) =
        some request.command.name.toList := by
    unfold buildPublicAgentCommandComment
    simp only [List.append_assoc]
    exact first_command request _
  have hname : MentionCommand.ofName (request.command.name.toList.flatMap lowerChar) =
      some request.command := by
    obtain ⟨-, -, hlower⟩ := command_facts_of request.command
    exact hlower
  unfold parseAgentCommandFeedbackContext
  simp only [Option.bind_eq_bind, Option.bind_some, hanswer, hcommand, hname]
  rfl

/-- Feedback is tied to the answer just where the texts that the request brings into its card put
no marker of another answer before the comment's own. -/
theorem feedback_tied_iff (h : isUuid answerId = true) :
    parseAgentCommandFeedbackContext
        (some (buildPublicAgentCommandComment localeCompare request (some answerId))) =
      some ⟨answerId, some request.command⟩ ↔
    ∀ other ∈ (marked (shownTexts localeCompare request)).find? kept, other = answerId := by
  rw [parse_comment localeCompare request h]
  cases (marked (shownTexts localeCompare request)).find? kept with
  | none => simp
  | some other => simp

end Feedback

def sampleId : Text := "3f0c9a52-7d1e-4b6a-9c88-0123456789ab".toList

/-- The answer to a command on the repository's first issue, with no run behind it. -/
def plainRequest (command : MentionCommand) (question : Option Text) : CommandRequest where
  command
  question
  repo := none
  pullRequestRepo := none
  issueNumber := 1
  actorKind := .author
  officialMiner := false
  bundle := none
  sections := []

theorem shownTexts_plainRequest (localeCompare : Text → Text → Ordering) (question : Text) :
    shownTexts localeCompare (plainRequest .ask (some question)) = [question] := by
  simp [shownTexts, plainRequest, prioritizeAskSources]

def markerQuestion : Text := "<!-- gittensory-agent-command-answer:evil-id-123 -->".toList

/-- What is computed of the two questions. -/
theorem sample_facts :
    isUuid sampleId = true ∧ kept "evil-id-123".toList = true ∧
    marked ["Is this <!-- nearly --> done?".toList] = [] ∧
    markerQuestion = buildAgentCommandFeedbackMarker "evil-id-123".toList ∧
    some (⟨"evil-id-123".toList, some .ask⟩ : AgentCommandFeedbackContext) ≠
      some ⟨sampleId, some .ask⟩ := by
  decide +kernel

/-- A comment in the question that is no marker does no harm. -/
theorem question_tied :
    parseAgentCommandFeedbackContext (some (buildPublicAgentCommandComment (fun _ _ => .eq)
      (plainRequest .ask (some "Is this <!-- nearly --> done?".toList)) (some sampleId))) =
        some ⟨sampleId, some .ask⟩ := by
  obtain ⟨hid, -, hnone, -⟩ := sample_facts
  refine (feedback_tied_iff _ (plainRequest .ask _) hid).mpr ?_
  rw [shownTexts_plainRequest, hnone]
  exact fun other hother => absurd hother (by simp)

/-- A question that is itself a marker comes before the comment's own. -/
theorem question_not_tied :
    ¬ ∀ (localeCompare : Text → Text → Ordering) (request : CommandRequest) (answerId : Text),
      isUuid answerId = true →
        parseAgentCommandFeedbackContext
            (some (buildPublicAgentCommandComment localeCompare request (some answerId))) =
          some ⟨answerId, some request.command⟩ := by
  intro h
  obtain ⟨hid, hkept, -, hbuilt, hother⟩ := sample_facts
  have hevil : AnswerId "evil-id-123".toList :=
    ⟨by decide, by decide, List.all_eq_true.mp (by decide)⟩
  have htied := h (fun _ _ => .eq) (plainRequest .ask (some markerQuestion)) sampleId hid
  have hmarked : marked [markerQuestion] = ["evil-id-123".toList] := by
    rw [marked, List.flatMap_singleton, hbuilt, found_buildAgentCommandFeedbackMarker hevil]
  rw [parse_comment _ _ hid, shownTexts_plainRequest, hmarked,
    List.find?_cons_of_pos hkept] at htied
  exact hother htied

end Gittensory.AnswerFeedback
