import Gittensory.AnswerCard
import Mathlib.Data.List.TakeWhile

/-!
The feedback markers that an answer's card shows. The card puts what the request brings, the
question, the lines of a command and the sources of a run, between words of its own; no word of
its own holds a marker, none lets a marker run on over it, and what is escaped holds none. So the
markers are those of the texts of the request.
-/
namespace Gittensory.CardTexts

open AnswerCard Capturing FeedbackMarker JsValue PatternOverlap PublicComment Redaction Rewriting
  TextPattern
open AgentRunExecution (AgentRunStatus)

/-- The texts of a card in the order in which they are shown. -/
def texts (card : PublicAnswerCard) : List Text :=
  [card.title, card.summary] ++ card.findings ++ card.evidence ++ card.nextActions ++
    card.sourceNotes ++ card.safeDetails

/-! ## What stands between the texts -/

section Between

variable {a b : Text}

theorem found_closed (h : '<' ∉ a) : answerMarker.found a = [] :=
  found_eq_nil lawful_answerMarker (by decide) h

/-- A marker ends with an angle bracket. -/
theorem last_of_spells {m id : Text} (h : answerMarker.Spells m id) : m.getLast? = some '>' := by
  obtain ⟨s, s', -, -, -, rfl⟩ := spells_answerMarker_iff.mp h
  have hclose : "-->".toList ≠ [] := by decide
  rw [List.getLast?_append_of_ne_nil _ (by simp), List.getLast?_append_of_ne_nil _ (by simp),
    List.getLast?_append_of_ne_nil _ hclose]
  rfl

theorem blocks_of_not_mem (h : '>' ∉ b) : answerMarker.Blocks b := by
  intro x y id post hspells _ hy htext
  have hlast := last_of_spells hspells
  rw [List.getLast?_append_of_ne_nil _ hy] at hlast
  rw [htext] at h
  exact h (List.mem_append_left _ (List.mem_of_getLast? hlast))

/-- The beginnings of the words after which no marker goes on. -/
def barriers : List String := [";", ": f", " a", " —"]

theorem barriers_unentered :
    ∀ word ∈ barriers, word ≠ "" ∧ Unentered markerShape (.literal word) := by
  decide +kernel

theorem blocks_barrier {word : String} (hword : word ∈ barriers) (rest : Text) :
    answerMarker.Blocks (word.toList ++ rest) := by
  intro x y id post hspells hx hy htext
  obtain ⟨hne, hapart⟩ := barriers_unentered word hword
  have hword : word.toList ≠ [] := fun hnil => hne (String.toList_eq_nil_iff.mp hnil)
  have hshape := matches_of_plain (matches_markerShape hspells) rfl none post
  exact hapart.not_inside hshape rfl hx hy hword ((@matches_literal_iff none _ rest _).mpr rfl)
    htext.symm

/-- A text that such a word ends, and what comes after the word. -/
theorem found_between {word sep : String} (hword : word ∈ barriers)
    (hsep : word.toList <+: sep.toList) (hclosed : '<' ∉ sep.toList) (a b : Text) :
    answerMarker.found (a ++ (sep.toList ++ b)) = answerMarker.found a ++ answerMarker.found b := by
  obtain ⟨rest, hsplit⟩ := hsep
  have hblocks : answerMarker.Blocks (sep.toList ++ b) := by
    rw [← hsplit, List.append_assoc]
    exact blocks_barrier hword _
  rw [found_append lawful_answerMarker a hblocks, found_append_of_not_mem hclosed]

theorem found_before_end (h : '>' ∉ b) (h' : '<' ∉ b) :
    answerMarker.found (a ++ b) = answerMarker.found a := by
  rw [found_append lawful_answerMarker a (blocks_of_not_mem h), found_closed h', List.append_nil]

end Between

/-! ## Texts without their ends -/

section Ends

theorem closed_spaces {s : Text} (hs : ∀ c ∈ s, spaceSet.accepts c = true) :
    '<' ∉ s ∧ '>' ∉ s := by
  exact ⟨fun h => absurd (hs _ h) (by decide), fun h => absurd (hs _ h) (by decide)⟩

/-- A text between spaces. -/
theorem trimText_between (text : Text) :
    ∃ l r, text = l ++ (trimText text ++ r) ∧ (∀ c ∈ l, spaceSet.accepts c = true) ∧
      ∀ c ∈ r, spaceSet.accepts c = true := by
  have hall : ∀ rest : Text, ∀ c ∈ rest.takeWhile spaceSet.accepts, spaceSet.accepts c = true :=
    fun rest c hc => List.mem_takeWhile_imp hc
  refine ⟨text.takeWhile spaceSet.accepts,
    ((text.dropWhile spaceSet.accepts).reverse.takeWhile spaceSet.accepts).reverse, ?_, hall text,
    fun c hc => hall _ c (List.mem_reverse.mp hc)⟩
  rw [trimText, ← List.reverse_append, List.takeWhile_append_dropWhile, List.reverse_reverse,
    List.takeWhile_append_dropWhile]

theorem found_trimText (text : Text) :
    answerMarker.found (trimText text) = answerMarker.found text := by
  obtain ⟨l, r, htext, hl, hr⟩ := trimText_between text
  nth_rewrite 2 [htext]
  rw [found_append_of_not_mem (closed_spaces hl).1,
    found_before_end (closed_spaces hr).2 (closed_spaces hr).1]

theorem found_stripEmphasis (text : Text) :
    answerMarker.found (stripEmphasis text) = answerMarker.found text := by
  have hstars : '<' ∉ "**".toList ∧ '>' ∉ "**".toList := by decide
  have hopened : answerMarker.found
      (if "**".toList.isPrefixOf text then text.drop 2 else text) = answerMarker.found text := by
    split_ifs with hinitial
    · obtain ⟨rest, rfl⟩ := List.isPrefixOf_iff_prefix.mp hinitial
      rw [found_append_of_not_mem hstars.1]
      rfl
    · rfl
  unfold stripEmphasis
  rw [found_trimText, ← hopened]
  generalize (if "**".toList.isPrefixOf text then text.drop 2 else text) = opened
  split_ifs with hfinal
  · obtain ⟨rest, rfl⟩ := List.isSuffixOf_iff_suffix.mp hfinal
    have hlength : (rest ++ "**".toList).length - 2 = rest.length := by
      rw [List.length_append]
      exact Nat.add_sub_cancel _ _
    rw [hlength, List.take_left, found_before_end hstars.2 hstars.1]
  · rfl

theorem found_stripBulletPrefix (text : Text) :
    answerMarker.found (stripBulletPrefix text) = answerMarker.found text := by
  rw [stripBulletPrefix, found_trimText, ← found_stripEmphasis text]
  split
  · rename_i c rest hsplit
    rw [hsplit]
    split_ifs with hspace
    · have hspaces := List.takeWhile_append_dropWhile (p := spaceSet.accepts) (l := rest)
      have hclosed : '<' ∉ '-' :: c :: rest.takeWhile spaceSet.accepts := by
        intro hmem
        rcases List.mem_cons.mp hmem with h | hmem
        · exact absurd h (by decide)
        · refine (closed_spaces fun d hd => ?_).1 hmem
          rcases List.mem_cons.mp hd with rfl | hd
          · exact hspace
          · exact List.mem_takeWhile_imp hd
      nth_rewrite 2 [← hspaces]
      rw [← List.cons_append, ← List.cons_append, found_append_of_not_mem hclosed]
    · rfl
  · rfl

end Ends

/-! ## Escaped texts -/

theorem arrow_of_spells {m id : Text} (h : answerMarker.Spells m id) :
    ∃ front, m = front ++ "->".toList := by
  obtain ⟨s, s', -, -, -, rfl⟩ := spells_answerMarker_iff.mp h
  refine ⟨"<!--".toList ++ (s ++ markerName.toList) ++ (id ++ (s' ++ "-".toList)), ?_⟩
  simp only [List.append_assoc]
  rfl

theorem found_of_no_arrow {text : Text} (h : ¬ "->".toList <:+: text) :
    answerMarker.found text = [] := by
  rw [List.eq_nil_iff_forall_not_mem]
  intro id hid
  obtain ⟨a, m, b, rfl, hm⟩ := (mem_found_iff lawful_answerMarker).mp hid
  obtain ⟨front, rfl⟩ := arrow_of_spells hm
  exact h ⟨a ++ front, b, by simp only [List.append_assoc]⟩

theorem head_escapeMarkdown (value : Text) : (escapeMarkdown value).head? ≠ some '>' := by
  cases value with
  | nil => exact (nofun)
  | cons c rest =>
    rw [escapeMarkdown, List.flatMap_cons]
    split_ifs with hescaped
    · exact fun h => absurd (Option.some.inj h) (by decide)
    · intro h
      rw [Option.some.inj h] at hescaped
      exact hescaped (by decide)

/-- Every angle bracket follows a backslash. -/
theorem no_arrow_escapeMarkdown (value : Text) : ¬ "->".toList <:+: escapeMarkdown value := by
  induction value with
  | nil => exact fun h => absurd (List.eq_nil_of_infix_nil h) (by decide)
  | cons c rest ih =>
    have hstep : ∀ d tail, (d = '-' → tail.head? ≠ some '>') → ¬ "->".toList <:+: tail →
        ¬ "->".toList <:+: d :: tail := by
      intro d tail hd htail h
      rcases List.infix_cons_iff.mp h with ⟨post, hpost⟩ | hinside
      · obtain ⟨rfl, hrest⟩ := List.cons.inj hpost
        exact hd rfl (by rw [← hrest]; rfl)
      · exact htail hinside
    have hcons : escapeMarkdown (c :: rest) =
        (if c ∈ escapedLetters then ['\\', c] else [c]) ++ escapeMarkdown rest :=
      List.flatMap_cons
    rw [hcons]
    split_ifs with hescaped
    · have hdash : c ≠ '-' := by
        rintro rfl
        exact absurd hescaped (by decide)
      exact hstep _ _ (fun h => absurd h (by decide)) (hstep _ _ (fun h => absurd h hdash) ih)
    · exact hstep _ _ (fun _ => head_escapeMarkdown rest) ih

theorem no_arrow_replaceAll_spaces {text : Text} (h : ¬ "->".toList <:+: text) :
    ¬ "->".toList <:+: replaceAll spaces [' '] text := by
  rintro ⟨a', b', hsplit⟩
  have harrow : nullable (.literal "->") = false := rfl
  have hclear : Clear (.literal "->") [' '] := by
    constructor
    · intro prev m post u v z hm hsplit hv htext
      rw [matches_literal_iff.mp hm] at hsplit
      obtain ⟨c, v, rfl⟩ := List.exists_cons_of_ne_nil hv
      obtain ⟨rfl, -⟩ := List.cons.inj htext
      have hmem : ' ' ∈ "->".toList := by
        rw [hsplit]
        exact List.mem_append_right _ List.mem_cons_self
      exact absurd hmem (by decide)
    · intro prev m post u v z _ hsplit hu hv
      have hlength := congrArg List.length hsplit
      rw [List.length_append, List.length_singleton] at hlength
      have hu := List.length_pos_iff.mpr hu
      have hv := List.length_pos_iff.mpr hv
      omega
  rw [List.append_assoc] at hsplit
  obtain ⟨a, b, rfl, -⟩ := (rewritten_replaceAll (p := spaces) rfl [' '] text).back harrow hclear
    hsplit.symm ((@matches_literal_iff (before none a') _ b' _).mpr rfl)
  exact h ⟨a, b, List.append_assoc _ _ _⟩

theorem found_publicBlockerDetail (value : Text) :
    answerMarker.found (publicBlockerDetail value) = [] := by
  rw [publicBlockerDetail, sanitizePublicInlineDetail, found_trimText]
  exact found_of_no_arrow (no_arrow_replaceAll_spaces (no_arrow_escapeMarkdown _))

/-! ## What a card says by itself -/

/-- The markers of some texts. -/
def marked (list : List Text) : List Text := list.flatMap answerMarker.found

theorem marked_cons (text : Text) (rest : List Text) :
    marked (text :: rest) = answerMarker.found text ++ marked rest := List.flatMap_cons

theorem marked_append (first second : List Text) :
    marked (first ++ second) = marked first ++ marked second := List.flatMap_append

theorem marked_closed {list : List Text} (h : ∀ text ∈ list, '<' ∉ text) : marked list = [] :=
  List.flatMap_eq_nil_iff.mpr fun text htext => found_closed (h text htext)

theorem closed_commandSummary (command : MentionCommand) :
    '<' ∉ (commandSummary command).toList := by
  cases command <;> exact not_mem_literal (by decide)

theorem closed_commandNextActions (command : MentionCommand) :
    ∀ text ∈ commandNextActions command none, '<' ∉ text := by
  cases command <;> exact List.forall_mem_singleton.mpr (not_mem_literal (by decide))

theorem closed_publicStatus (status : AgentRunStatus) : '<' ∉ publicStatus status := by
  intro hmem
  obtain ⟨c, hc, hletter⟩ := List.mem_map.mp hmem
  have hname : '<' ∉ status.name.toList := by
    cases status <;> exact not_mem_literal (by decide)
  split_ifs at hletter
  · exact absurd hletter (by decide)
  · exact hname (hletter ▸ hc)

section Parts

variable (command : MentionCommand) (bundle : Option AgentRunBundle) (officialMiner : Bool)
  (actorKind : ActorKind)

theorem marked_commandEvidence :
    marked (commandEvidence command bundle officialMiner actorKind) = [] := by
  refine marked_closed ?_
  unfold commandEvidence
  simp only [List.forall_mem_append]
  refine ⟨⟨⟨⟨?_, ?_⟩, ?_⟩, ?_⟩, ?_⟩
  · have hkind : '<' ∉ actorKind.name.toList := by
      cases actorKind <;> exact not_mem_literal (by decide)
    simp only [List.forall_mem_cons]
    exact ⟨List.not_mem_append (List.not_mem_append (not_mem_literal (by decide)) hkind)
      (not_mem_literal (by decide)), not_mem_literal (by decide), nofun⟩
  · split_ifs
    · simp only [List.forall_mem_cons]
      exact ⟨not_mem_literal (by decide), not_mem_literal (by decide), nofun⟩
    · exact (nofun)
  · split_ifs
    · exact List.forall_mem_singleton.mpr (not_mem_literal (by decide))
    · exact List.forall_mem_singleton.mpr (not_mem_literal (by decide))
    · exact (nofun)
  · split_ifs
    · simp only [List.forall_mem_cons]
      exact ⟨not_mem_literal (by decide), not_mem_literal (by decide), nofun⟩
    · exact (nofun)
  · intro text htext
    obtain ⟨run, -, rfl⟩ := List.mem_map.mp htext
    exact List.not_mem_append (List.not_mem_append (not_mem_literal (by decide))
      (closed_publicStatus _)) (by decide)

theorem marked_commandNextActions : marked (commandNextActions command bundle) = [] := by
  refine marked_closed ?_
  by_cases hrefreshing : bundle.any AgentRunBundle.refreshing = true
  · unfold commandNextActions
    rw [if_pos hrefreshing]
    intro text htext
    rw [List.mem_singleton.mp htext]
    split_ifs <;> exact not_mem_literal (by decide)
  · have hnone : commandNextActions command bundle = commandNextActions command none := by
      unfold commandNextActions
      rw [if_neg hrefreshing]
      rfl
    rw [hnone]
    exact closed_commandNextActions command

theorem closed_publicFreshness : '<' ∉ publicFreshness command bundle := by
  unfold publicFreshness
  cases bundle with
  | none =>
    dsimp only
    split_ifs <;> exact not_mem_literal (by decide)
  | some run =>
    dsimp only
    split_ifs
    · exact not_mem_literal (by decide)
    · exact not_mem_literal (by decide)
    · exact not_mem_literal (by decide)
    · exact not_mem_literal (by decide)
    · exact List.not_mem_append (not_mem_literal (by decide)) (closed_publicStatus _)

theorem found_intercalate (labels : List Text) :
    answerMarker.found (List.intercalate "; ".toList labels) = marked labels := by
  induction labels with
  | nil => exact found_nil lawful_answerMarker
  | cons label rest ih =>
    cases rest with
    | nil => rw [List.intercalate_singleton, marked_cons, marked, List.flatMap_nil, List.append_nil]
    | cons next rest =>
      rw [List.intercalate_cons_cons, List.append_assoc,
        @found_between ";" "; " (by decide) ⟨[' '], rfl⟩ (by decide), ih, marked_cons label]

theorem found_askCommandSourceSummary :
    answerMarker.found (askCommandSourceSummary bundle) =
      marked (((bundle.elim [] AgentRunBundle.contributingSources).take 4).map
        AskContributingSource.label) := by
  unfold askCommandSourceSummary
  cases bundle.elim [] AgentRunBundle.contributingSources with
  | nil => exact found_closed (not_mem_literal (by decide))
  | cons source rest => exact found_intercalate _

/-- The notes name the sources of a run, where the command is the question. -/
theorem marked_commandSourceNotes :
    marked (commandSourceNotes command bundle officialMiner) =
      if command = .ask then
        marked (((bundle.elim [] AgentRunBundle.contributingSources).take 4).map
          AskContributingSource.label)
      else [] := by
  have hfreshness : answerMarker.found ("Freshness: ".toList ++ publicFreshness command bundle ++
      ".".toList) = [] := found_closed (List.not_mem_append
    (List.not_mem_append (by decide) (closed_publicFreshness command bundle)) (by decide))
  have hboundary : answerMarker.found "Boundary: public GitHub comment; non-public scoring and planning context is omitted.".toList = [] := found_closed (not_mem_literal (by decide))
  have hnotes : ∀ source : Text, marked ["Source: ".toList ++ source ++ ".".toList,
      "Freshness: ".toList ++ publicFreshness command bundle ++ ".".toList,
      "Boundary: public GitHub comment; non-public scoring and planning context is omitted.".toList]
        = answerMarker.found source := by
    intro source
    rw [marked, List.flatMap_cons, List.flatMap_cons, List.flatMap_singleton, hfreshness,
      hboundary, List.append_nil, List.append_nil, List.append_assoc,
      found_append_of_not_mem (by decide), found_before_end (by decide) (by decide)]
  rw [commandSourceNotes, hnotes]
  by_cases hask : command = .ask
  · subst hask
    exact found_askCommandSourceSummary bundle
  · rw [if_neg hask, if_neg hask]
    split_ifs <;> exact found_closed (not_mem_literal (by decide))

end Parts

/-! ## The sources of a run -/

/-- What a source brings into the card. -/
def sourceTexts (source : AskContributingSource) : List Text :=
  [source.label, source.freshness] ++ source.generatedAt.toList

/-- A date, where one is shown, before a text that no marker enters. -/
theorem found_asOf (freshness : Text) (generatedAt : Option Text) {rest : Text}
    (hrest : answerMarker.Blocks rest) (hclosed : answerMarker.found rest = []) :
    answerMarker.found (freshness ++ (asOf generatedAt ++ rest)) =
      marked (freshness :: generatedAt.toList) := by
  have hend : ∀ text, answerMarker.found (text ++ rest) = answerMarker.found text := by
    intro text
    rw [found_append lawful_answerMarker text hrest, hclosed, List.append_nil]
  have hempty : marked [[]] = [] := marked_closed (by decide)
  unfold asOf
  split
  · rw [List.nil_append, hend, Option.toList_none, marked_cons, marked, List.flatMap_nil,
      List.append_nil]
  · rw [List.nil_append, hend, Option.toList_some, marked_cons, hempty, List.append_nil]
  · rw [List.append_assoc, @found_between " a" " as of " (by decide) ⟨_, rfl⟩ (by decide), hend,
      Option.toList_some, marked_cons, marked_cons, marked, List.flatMap_nil, List.append_nil]

theorem found_formatAskCitation (source : AskContributingSource) :
    answerMarker.found (formatAskCitation source) = marked (sourceTexts source) := by
  unfold formatAskCitation
  dsimp only
  generalize hdetail : (if source.detail = [] then [] else
    " — ".toList ++ publicBlockerDetail source.detail : Text) = detail
  have hrest : answerMarker.Blocks (detail ++ ".".toList) ∧
      answerMarker.found (detail ++ ".".toList) = [] := by
    rw [found_before_end (by decide) (by decide), ← hdetail]
    split_ifs
    · exact ⟨blocks_of_not_mem (by decide), found_nil lawful_answerMarker⟩
    · refine ⟨?_, ?_⟩
      · have hword : " — ".toList = " —".toList ++ [' '] := rfl
        rw [hword, List.append_assoc, List.append_assoc]
        exact blocks_barrier (by decide) _
      · rw [found_append_of_not_mem (by decide), found_publicBlockerDetail]
  simp only [List.append_assoc]
  rw [found_append_of_not_mem (by decide),
    @found_between ";" "; freshness: " (by decide) ⟨_, rfl⟩ (by decide),
    found_asOf source.freshness source.generatedAt hrest.1 hrest.2]
  rfl

theorem found_sourceEvidence (source : AskContributingSource) :
    answerMarker.found ("Connected source ".toList ++ source.label ++ ": freshness ".toList ++
      source.freshness ++ asOf source.generatedAt ++ ".".toList) =
        marked (sourceTexts source) := by
  simp only [List.append_assoc]
  rw [found_append_of_not_mem (by decide),
    @found_between ": f" ": freshness " (by decide) ⟨_, rfl⟩ (by decide),
    found_asOf source.freshness source.generatedAt (blocks_of_not_mem (by decide))
      (found_closed (by decide))]
  rfl

/-! ## The texts of a request -/

section Requests

variable (localeCompare : Text → Text → Ordering) (request : CommandRequest)

/-- What a request brings into its card, in the order in which the card first shows it: the
question and the sources, which wait while a snapshot refreshes, and the sources once more by
their labels; for another command its lines. -/
def shownTexts : List Text :=
  if request.command = .ask then
    let sources := request.bundle.elim [] AgentRunBundle.contributingSources
    (if request.bundle.any AgentRunBundle.refreshing then [] else
      request.question.toList ++
        ((prioritizeAskSources localeCompare sources).take 8).flatMap sourceTexts) ++
    (sources.take 4).map AskContributingSource.label
  else request.sections

theorem marked_orFallback (list : List Text) {fallback : String} (h : '<' ∉ fallback.toList) :
    marked (orFallback list fallback) = marked list := by
  unfold orFallback
  split_ifs with hempty
  · rw [hempty, marked_closed (by simpa using h)]
    rfl
  · rfl

/-- Texts that show the sources, one for each. -/
theorem marked_map {show' : AskContributingSource → Text}
    (hshow : ∀ source, answerMarker.found (show' source) = marked (sourceTexts source))
    (sources : List AskContributingSource) :
    marked (sources.map show') = marked (sources.flatMap sourceTexts) := by
  induction sources with
  | nil => rfl
  | cons source rest ih =>
    rw [List.map_cons, marked_cons, hshow, ih, List.flatMap_cons, marked_append]

theorem marked_mono {sources sources' : List AskContributingSource} (h : sources ⊆ sources') :
    ∀ id ∈ marked (sources.flatMap sourceTexts), id ∈ marked (sources'.flatMap sourceTexts) := by
  intro id hid
  obtain ⟨text, htext, hfound⟩ := List.mem_flatMap.mp hid
  obtain ⟨source, hsource, hshown⟩ := List.mem_flatMap.mp htext
  exact List.mem_flatMap.mpr ⟨text, List.mem_flatMap.mpr ⟨source, h hsource, hshown⟩, hfound⟩

theorem found_trimmedOr (value : Option Text) {fallback : String} (h : '<' ∉ fallback.toList) :
    answerMarker.found (trimmedOr value fallback) = marked value.toList := by
  cases value with
  | none => exact found_closed h
  | some text =>
    have htrim := found_trimText text
    rw [Option.toList_some, marked_cons, marked, List.flatMap_nil, List.append_nil, ← htrim]
    unfold trimmedOr
    rw [Option.map_some]
    cases htext : trimText text with
    | nil => rw [found_closed h, found_nil lawful_answerMarker]
    | cons c rest => rfl

theorem marked_texts (card : PublicAnswerCard) :
    marked (texts card) = answerMarker.found card.title ++ (answerMarker.found card.summary ++
      (marked card.findings ++ (marked card.evidence ++ (marked card.nextActions ++
        (marked card.sourceNotes ++ marked card.safeDetails))))) := by
  have hnil : marked [] = [] := rfl
  simp only [texts, marked_append, marked_cons, hnil, List.append_nil, List.append_assoc]

/-- The lines of a command other than the question. -/
theorem marked_texts_of_sections (hask : request.command ≠ .ask) :
    marked (texts (request.card localeCompare)) = marked request.sections := by
  have hcontent : marked ((request.sections.tail.map stripBulletPrefix).filter (· ≠ [])) =
      marked request.sections.tail := by
    induction request.sections.tail with
    | nil => rfl
    | cons line rest ih =>
      rw [marked_cons, ← ih, List.map_cons, ← found_stripBulletPrefix line]
      by_cases hempty : stripBulletPrefix line = []
      · rw [hempty, List.filter_cons_of_neg (by simp), found_nil lawful_answerMarker,
          List.nil_append]
      · rw [List.filter_cons_of_pos (by simpa using hempty), marked_cons]
  have htitle : answerMarker.found (stripEmphasis (request.sections.head?.getD "Answer".toList)) ++
      marked request.sections.tail = marked request.sections := by
    rw [found_stripEmphasis]
    cases request.sections with
    | nil => exact (List.append_nil _).trans (found_closed (by decide))
    | cons line rest => exact (marked_cons line rest).symm
  have hsummary := found_closed (closed_commandSummary request.command)
  unfold CommandRequest.card buildPublicAnswerCard
  rw [if_neg hask, marked_texts]
  dsimp only
  rw [hsummary, marked_orFallback _ (by decide), marked_commandEvidence,
    marked_commandNextActions, marked_commandSourceNotes, if_neg hask, List.nil_append,
    List.nil_append, List.nil_append, List.nil_append, ← marked_append, List.take_append_drop,
    hcontent, htitle]

/-- What was searched before does not matter when it is searched again. -/
theorem find?_known {ids known again more known' : List Text}
    (hagain : ∀ id ∈ again, id ∈ known) (hknown' : ∀ id ∈ known', id ∈ known) :
    ((ids.filter kept) ++ (known ++ (again ++ (more ++ known')))).find? kept =
      (ids ++ (known ++ more)).find? kept := by
  have hids : (ids.filter kept).find? kept = ids.find? kept := by
    rw [List.find?_filter]
    simp only [and_self, Bool.decide_eq_true]
  have hnone : ∀ list : List Text, (∀ id ∈ list, id ∈ known) → known.find? kept = none →
      list.find? kept = none := by
    intro list hlist hfree
    rw [List.find?_eq_none] at hfree ⊢
    exact fun id hid => hfree id (hlist id hid)
  rw [List.find?_append, List.find?_append, List.find?_append, List.find?_append,
    List.find?_append, List.find?_append, hids]
  cases hfound : known.find? kept with
  | some id => rfl
  | none => rw [hnone again hagain hfound, hnone known' hknown' hfound, Option.none_or,
      Option.none_or, Option.or_none, Option.none_or]

theorem found_question (question : Option Text) {fallback : String}
    (h : '<' ∉ fallback.toList) :
    answerMarker.found ("Question: ".toList ++ sanitizePublicComment
      (trimmedOr question fallback)) = (marked question.toList).filter kept := by
  rw [found_append_of_not_mem (by decide), found_sanitizePublicComment, found_trimmedOr _ h]

theorem marked_answers (lines : List Text) : marked (lines.map publicBlockerDetail) = [] := by
  refine List.flatMap_eq_nil_iff.mpr fun text htext => ?_
  obtain ⟨line, -, rfl⟩ := List.mem_map.mp htext
  exact found_publicBlockerDetail line

set_option maxRecDepth 2000 in
theorem marked_refreshing : marked [stripEmphasis "Contribution context snapshot refresh".toList,
    "Gittensory is refreshing connected contribution-context snapshots (cached issues, PRs, signals, and decision packs). Try @gittensory ask again shortly.".toList] = [] := by
  rw [marked_cons, found_stripEmphasis, found_closed (not_mem_literal (by decide)), List.nil_append]
  exact marked_closed (List.forall_mem_singleton.mpr (not_mem_literal (by decide)))

/-- The question, while no snapshot refreshes, and the sources. -/
theorem find?_texts_of_ask (hask : request.command = .ask) :
    (marked (texts (request.card localeCompare))).find? kept =
      (marked (shownTexts localeCompare request)).find? kept := by
  have hsummary := found_closed (closed_commandSummary .ask)
  have hnotes := marked_commandSourceNotes .ask request.bundle request.officialMiner
  rw [if_pos rfl] at hnotes
  have htitle : answerMarker.found "Contribution context Q&A".toList = [] :=
    found_closed (not_mem_literal (by decide))
  unfold CommandRequest.card buildPublicAnswerCard shownTexts
  rw [hask, if_pos rfl, if_pos rfl, if_pos rfl, buildAskPublicAnswerCard]
  dsimp only
  by_cases hrefreshing : request.bundle.any AgentRunBundle.refreshing = true
  · rw [if_pos hrefreshing, if_pos hrefreshing, marked_texts]
    dsimp only
    rw [hsummary, marked_refreshing, marked_commandEvidence, marked_commandNextActions, hnotes, htitle]
    exact congrArg _ (List.append_nil _)
  · have hcitation : ∀ source, answerMarker.found (stripBulletPrefix (formatAskCitation source)) =
        marked (sourceTexts source) := fun source => by
      rw [found_stripBulletPrefix, found_formatAskCitation]
    have hsafe : marked ["README/docs context is included only when connected repo sources and app permissions allow it.".toList,
        "Source contents are not sent to optional AI unless explicitly enabled.".toList] = [] :=
      marked_closed (List.forall_mem_cons.mpr ⟨not_mem_literal (by decide),
        List.forall_mem_singleton.mpr (not_mem_literal (by decide))⟩)
    rw [if_neg hrefreshing, if_neg hrefreshing, marked_texts]
    dsimp only
    generalize prioritizeAskSources localeCompare
      (request.bundle.elim [] AgentRunBundle.contributingSources) = prioritized
    rw [htitle, hsummary, marked_cons, found_question _ (by decide), marked_append,
      marked_orFallback _ (by decide), marked_orFallback _ (by decide), marked_answers,
      marked_append (commandEvidence _ _ _ _), marked_commandEvidence, marked_commandNextActions,
      hnotes, marked_append _ [_, _], hsafe, ← List.map_drop, marked_map hcitation,
      marked_map hcitation, marked_map found_sourceEvidence, marked_append, marked_append]
    simp only [List.nil_append, List.append_nil, List.append_assoc]
    refine find?_known (marked_mono fun source hsource => ?_)
      (marked_mono fun source hsource => List.mem_of_mem_drop hsource)
    have hshorter : (prioritized.take 8).take 3 = prioritized.take 3 := List.take_take
    rw [← hshorter] at hsource
    exact List.mem_of_mem_take hsource

/-- The first marker that a card shows is the first that its request brings in. -/
theorem find?_texts (localeCompare : Text → Text → Ordering) (request : CommandRequest) :
    (marked (texts (request.card localeCompare))).find? kept =
      (marked (shownTexts localeCompare request)).find? kept := by
  by_cases hask : request.command = .ask
  · exact find?_texts_of_ask localeCompare request hask
  · rw [marked_texts_of_sections localeCompare request hask, shownTexts, if_neg hask]

end Requests

end Gittensory.CardTexts
