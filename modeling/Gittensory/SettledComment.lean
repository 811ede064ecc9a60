import Gittensory.PublicComment

/-!
What one pass of `sanitizePublicComment` leaves. No phrase is left, and no list of
placeholders; but a score change that stands after "reviewability", or after a placeholder
whose own score change was just taken, is left with a placeholder before it, which a second
pass takes, and one after a placeholder that is glued to a word is never taken.
-/
namespace Gittensory.SettledComment

open PatternOverlap PublicComment Redaction Rewriting TextPattern

/-! ## Lists of placeholders -/

theorem nullable_placeholderList : nullable placeholderList = false := rfl

theorem headed_placeholderList : headed placeholderList = true := by decide

theorem rewritten_placeholderList (text : Text) :
    Rewritten (Free placeholderList) (Taken placeholderList) privateContext [] text
      (replaceAll placeholderList privateContext text) :=
  rewritten_replaceAll nullable_placeholderList privateContext text

theorem length_of_placeholder {prev : Option Char} {x post : Text}
    (h : Matches placeholder prev x post) : x.length = 15 :=
  length_of_fixedLength rfl h

/-- A list that is replaced starts with a placeholder and goes on as long as it can. -/
theorem taken_placeholderList {seen m post : Text} (h : Taken placeholderList seen m post) :
    (∃ x y, m = x ++ y ∧ Matches placeholder (before none seen) x (y ++ post)) ∧
      ∀ n rest, post = n ++ rest → ¬ Matches listed (before (before none seen) m) n rest := by
  unfold Taken placeholderList Pattern.plus at h
  obtain ⟨x, y, rfl, -, hfirst, h⟩ := head_ends_seq h
  obtain ⟨z, w, rfl, -, -, h⟩ := head_ends_seq h
  refine ⟨⟨x, z ++ w, rfl, hfirst⟩, fun n rest hpost hmatch => ?_⟩
  have hmatch' := matches_of_plain hmatch rfl
    (before (before (before (before none seen) x) z) w) rest
  exact ne_nil_of_matches hmatch' rfl (head_ends_star h n rest hpost hmatch')

/-- Every "reviewability" that is left is the command. -/
theorem followsMention_of_matches {value a m b : Text}
    (h : sanitizePublicComment value = a ++ (m ++ b))
    (hmatch : Matches reviewability (before none a) m b) : followsMention a = true := by
  have hpc : "private context" ∈ plantedWords := List.mem_cons_self
  obtain ⟨c, d, hc, -, hmatch', -, hsame⟩ := reviewability_back hpc
    (offMention_of_mem (by simp [redactionPatterns])) (fun _ _ _ => Taken.matches)
    (heads_taken headed_placeholderList plantedWord_privateContext)
    (rewritten_placeholderList _) h hmatch
  obtain ⟨e, f, -, hfree, hmatch'', -, hsame'⟩ := reviewability_back hpc
    (offMention_of_mem reviewability_mem) (fun _ _ _ => And.left) heads_takenTerm
    (rewritten_sanitizeReviewabilityTerm _) hc hmatch'
  rw [← hsame, ← hsame']
  exact hfree m f rfl hmatch''

theorem test_phrase_eq_false {p : Pattern} (hp : p ∈ privatePhrases ++ [likelyDuplicate])
    (value : Text) : test p (sanitizePublicComment value) = false := by
  have hmem : p ∈ phrases := by
    rcases List.mem_append.mp hp with hp | hp
    · exact List.mem_append_left _ hp
    · exact List.mem_append_right _ (List.mem_cons.mpr (Or.inl (List.mem_singleton.mp hp)))
  have hterm : test p (sanitizeReviewabilityTerm (redactPhrases value)) = false := by
    refine test_rewritten_eq_false (phrase_of_mem hmem) plantedWord_privateContext
      (clear_privateContext hmem) heads_takenTerm (rewritten_sanitizeReviewabilityTerm _) ?_
    intro a m b htext _ hmatch
    have hfound := (test_iff p _).mpr ⟨a, m, b, htext, hmatch⟩
    rw [test_redactPhrases_eq_false hp] at hfound
    cases hfound
  exact test_replaceAll_eq_false (phrase_of_mem hmem) plantedWord_privateContext
    (clear_privateContext hmem) headed_placeholderList nullable_placeholderList (Or.inr hterm)

section Placeholders

theorem unentered_placeholder : Unentered placeholder (.literal "private context") :=
  unentered_of_mem (by simp [unenteredPairs])

theorem unentered_privateContext : Unentered (.literal "private context") placeholder :=
  unentered_of_mem (by simp [unenteredPairs])

variable {free : Text → Text → Prop} {taken : Text → Text → Text → Prop} {seen t t' : Text}

theorem matches_privateContext (prev : Option Char) (post : Text) :
    Matches (.literal "private context") prev privateContext post :=
  matches_literal_iff.mpr rfl

theorem matches_placeholder (prev : Option Char) (post : Text) :
    Matches placeholder prev privateContext post :=
  matches_of_plain ((mem_ends_iff placeholder none privateContext _ []).mp
    patterns_separated.2.2.2.2.2).2 rfl prev post

theorem placeholder_ne_nil {prev : Option Char} {x post : Text}
    (h : Matches placeholder prev x post) : x ≠ [] :=
  ne_nil_of_matches h rfl

theorem placeholder_not_inside {x post u v z : Text} (hx : Matches placeholder none x post)
    (hplanted : privateContext = u ++ v) (hu : u ≠ []) (hv : v ≠ []) : v ++ z ≠ x ++ post :=
  unentered_privateContext.not_inside (matches_privateContext none z) hplanted hu hv
    (placeholder_ne_nil hx) hx

/-- A placeholder, with what follows it, at the start of the text that results. -/
theorem placeholder_at {q : Pattern} (hq : Sealed q (.literal "private context")) {a x y b' : Text}
    (h : Rewritten free taken privateContext a t (x ++ (y ++ b')))
    (hx : Matches placeholder none x (y ++ b')) (hy : Matches q none y b') :
    (∃ b read, t = x ++ (y ++ b) ∧ free a (x ++ (y ++ b)) ∧
        Rewritten free taken privateContext read b b') ∨
      ∃ m b read, t = m ++ (y ++ b) ∧ taken a m (y ++ b) ∧
        Rewritten free taken privateContext read b b' := by
  have hword : privateContext ≠ [] := by decide
  refine h.at_start (placeholder_ne_nil hx) ?_ ?_ ?_
  · intro z htext
    exact (List.append_inj htext (by rw [length_of_placeholder hx]; rfl)).1
  · intro u v z hsplit hu hv
    exact unentered_placeholder.not_inside hx hsplit hu hv hword (matches_privateContext none z)
  · exact fun u v z hsplit hv => entered_of_sealed hq hword hy hsplit hv

/-- A placeholder, with what follows it, stood in the text before, or was planted there. -/
theorem placeholder_back {q : Pattern} (hq : Sealed q (.literal "private context"))
    (h : Rewritten free taken privateContext seen t t') {a' x y b' : Text}
    (hx : Matches placeholder none x (y ++ b')) (hy : Matches q none y b')
    (ht' : t' = a' ++ (x ++ (y ++ b'))) :
    (∃ a b read, t = a ++ (x ++ (y ++ b)) ∧ free (seen ++ a) (x ++ (y ++ b)) ∧
        Rewritten free taken privateContext read b b') ∨
      ∃ a m b read, t = a ++ (m ++ (y ++ b)) ∧ taken (seen ++ a) m (y ++ b) ∧
        Rewritten free taken privateContext read b b' := by
  obtain ⟨a, rest, rfl, hrest, -⟩ :=
    h.cut ht' fun c u v z _ hplanted hu hv => placeholder_not_inside hx hplanted hu hv
  rcases placeholder_at hq hrest hx hy with
    ⟨b, read, rfl, hfree, hb⟩ | ⟨m, b, read, rfl, htaken, hb⟩
  · exact Or.inl ⟨a, b, read, rfl, hfree, hb⟩
  · exact Or.inr ⟨a, m, b, read, rfl, htaken, hb⟩

/-- Where a placeholder starts the text that results, one starts the text before. -/
theorem placeholder_at_start (h : Rewritten (Free placeholderList) (Taken placeholderList)
    privateContext seen t t') {x b' : Text} (hx : Matches placeholder none x b')
    (ht' : t' = x ++ b') : ∃ z b, t = z ++ b ∧ Matches placeholder none z b := by
  have hplain : plain placeholder = true := rfl
  cases h with
  | nil => exact absurd (List.append_eq_nil_iff.mp ht'.symm).1 (placeholder_ne_nil hx)
  | @keep _ c rest rest' _ hrest =>
    obtain ⟨d, x, rfl⟩ := List.exists_cons_of_ne_nil (placeholder_ne_nil hx)
    obtain ⟨rfl, htail⟩ := List.cons.inj ht'
    obtain ⟨b, rfl, -, -⟩ := hrest.kept htail fun u v z hsplit hv =>
      unentered_placeholder.not_inside hx (u := c :: u) (by rw [hsplit, List.cons_append])
        (List.cons_ne_nil c u) hv (by decide) (matches_privateContext none z)
    exact ⟨c :: x, b, rfl, matches_of_plain hx hplain none b⟩
  | plant htaken hrest =>
    obtain ⟨⟨z, y, rfl, hz⟩, -⟩ := taken_placeholderList htaken
    exact ⟨z, y ++ _, List.append_assoc _ _ _, matches_of_plain hz hplain none _⟩

end Placeholders

/-- No list of placeholders is left. -/
theorem test_placeholderList_eq_false (text : Text) :
    test placeholderList (replaceAll placeholderList privateContext text) = false := by
  have hplain : plain placeholder = true := rfl
  have hplain' : plain separator = true := rfl
  by_contra htest
  rw [Bool.not_eq_false, test_iff] at htest
  obtain ⟨a', m, b', ht', hmatch⟩ := htest
  obtain ⟨x, rest, rfl, hx, hrest⟩ := matches_seq_iff.mp hmatch
  obtain ⟨n, w, rfl, hn, -⟩ := matches_seq_iff.mp hrest
  obtain ⟨y, z, rfl, hy, hz⟩ := matches_seq_iff.mp hn
  simp only [List.append_assoc] at ht' hx hy hz
  have hlist := rewritten_placeholderList text
  have hback := placeholder_back (sealed_of_mem List.mem_cons_self) hlist
    (matches_of_plain hx hplain none _) (matches_of_plain hy hplain' none _) ht'
  have hlisted : ∀ {b read}, Rewritten (Free placeholderList) (Taken placeholderList)
      privateContext read b (z ++ (w ++ b')) → ∃ v c, b = v ++ c ∧
        ∀ prev, Matches listed prev (y ++ v) c := by
    intro b read h
    obtain ⟨v, c, rfl, hv⟩ := placeholder_at_start h (matches_of_plain hz hplain none _) rfl
    exact ⟨v, c, rfl, fun prev => matches_seq_iff.mpr ⟨y, v, rfl,
      matches_of_plain hy hplain' _ _, matches_of_plain hv hplain _ _⟩⟩
  rcases hback with ⟨a, b, read, -, hfree, hb⟩ | ⟨a, m, b, read, -, htaken, hb⟩
  · obtain ⟨v, c, rfl, hv⟩ := hlisted hb
    refine hfree (x ++ (y ++ v)) c (by simp only [List.append_assoc]) ?_
    refine matches_seq_iff.mpr ⟨x, y ++ v, rfl, matches_of_plain hx hplain _ _, ?_⟩
    exact matches_seq_iff.mpr ⟨y ++ v, [], (List.append_nil _).symm, hv _, Matches.starNil _ _⟩
  · obtain ⟨v, c, rfl, hv⟩ := hlisted hb
    exact (taken_placeholderList htaken).2 (y ++ v) c (List.append_assoc _ _ _).symm (hv _)

/-! ## Score changes -/

theorem plain_scoreChange : plain scoreChange = true := rfl

theorem plain_placeholder : plain placeholder = true := rfl

def wordLetter : Pattern := .char ⟨false, [('a', 'z'), ('A', 'Z'), ('0', '9'), ('_', '_')]⟩

theorem accepts_wordLetter_iff (c : Char) :
    CharSet.accepts ⟨false, [('a', 'z'), ('A', 'Z'), ('0', '9'), ('_', '_')]⟩ c = true ↔
      isWordChar c = true := by
  have hunderscore : '_' ≤ c ∧ c ≤ '_' ↔ c = '_' :=
    ⟨fun h => le_antisymm h.2 h.1, fun h => ⟨h.ge, h.le⟩⟩
  simp [CharSet.accepts, isWordChar, hunderscore]

theorem head_of_scoreChange {prev : Option Char} {y post : Text}
    (h : Matches scoreChange prev y post) : ∃ c rest, y = c :: rest ∧ isWordChar c = false := by
  obtain ⟨s, rest, rfl, hs, -⟩ := matches_seq_iff.mp h
  obtain ⟨d, more, rfl, hd, -⟩ := matches_seq_iff.mp hs
  obtain ⟨c, rfl, hc⟩ := matches_char_iff.mp hd
  refine ⟨c, more ++ rest, by rw [List.singleton_append, List.cons_append], ?_⟩
  by_contra hword
  rw [Bool.not_eq_false] at hword
  have hmeets := meets_of_accepts hc ((accepts_wordLetter_iff c).mpr hword)
  revert hmeets
  decide

/-- The catch-all asks for an edge of a word before the placeholder only. -/
theorem matches_residualScores_iff {prev : Option Char} {m post : Text} :
    Matches residualScores prev m post ↔ wordAt prev = false ∧ ∃ x y, m = x ++ y ∧
      Matches placeholder none x (y ++ post) ∧ Matches scoreChange none y post := by
  constructor
  · intro h
    obtain ⟨e, m, rfl, hedge, hmatch⟩ := matches_seq_iff.mp h
    obtain ⟨rfl, hstart⟩ := matches_wordBoundary_iff.mp hedge
    obtain ⟨x, m, rfl, hx, hmatch⟩ := matches_seq_iff.mp hmatch
    obtain ⟨e, m, rfl, hedge, hmatch⟩ := matches_seq_iff.mp hmatch
    obtain ⟨rfl, -⟩ := matches_wordBoundary_iff.mp hedge
    obtain ⟨y, e, rfl, hy, hempty⟩ := matches_seq_iff.mp hmatch
    obtain rfl := matches_empty_iff.mp hempty
    obtain ⟨c, rest, rfl, hc⟩ := head_of_startsWord hx (by decide)
    simp only [List.nil_append, List.append_nil] at hx hy hstart ⊢
    rw [List.cons_append, List.cons_append, List.head?_cons, wordAt, hc, ne_eq,
      Bool.not_eq_true] at hstart
    exact ⟨hstart, c :: rest, y, rfl, matches_of_plain hx plain_placeholder _ _,
      matches_of_plain hy plain_scoreChange _ _⟩
  · rintro ⟨hstart, x, y, rfl, hx, hy⟩
    obtain ⟨c, rest, hsplit, hc⟩ := head_of_startsWord hx (by decide)
    obtain ⟨d, hlast, hd⟩ := last_of_endsWord hx (by decide)
    obtain ⟨e, more, rfl, he⟩ := head_of_scoreChange hy
    have hend : wordAt (before prev x) = true := by rw [before_of_getLast? hlast, wordAt, hd]
    refine Matches.seq (n := x ++ e :: more) (Matches.wordBoundary _ _ ?_) ?_
    · rw [hstart, hsplit, List.cons_append, List.cons_append, List.head?_cons, wordAt, hc]
      decide
    · refine Matches.seq (matches_of_plain hx plain_placeholder _ _) ?_
      refine Matches.seq (n := e :: more) (Matches.wordBoundary _ _ ?_) ?_
      · rw [before, hend, List.cons_append, List.head?_cons, wordAt, he]
        decide
      · refine matches_seq_iff.mpr ⟨e :: more, [], (List.append_nil _).symm,
          matches_of_plain hy plain_scoreChange _ _, Matches.empty _ _⟩

/-! ## Scores that are left behind -/

/-- The words of a placeholder and a score change after them. -/
def ScoreLeft (text : Text) : Prop :=
  ∃ a x y b, text = a ++ (x ++ (y ++ b)) ∧ Matches placeholder none x (y ++ b) ∧
    Matches scoreChange none y b

/-- The same of the term "reviewability", where it is not the command. -/
def TermScored (text : Text) : Prop :=
  ∃ a m y b, text = a ++ (m ++ (y ++ b)) ∧ TakenTerm a m (y ++ b) ∧ Matches scoreChange none y b

theorem reviewability_ne_nil {prev : Option Char} {m post : Text}
    (h : Matches reviewability prev m post) : m ≠ [] := ne_nil_of_matches h rfl

theorem reviewability_behind_scoreChange {y b seen n post u v : Text}
    (hy : Matches scoreChange none y b) (htaken : TakenTerm seen n post) (hsplit : y = u ++ v)
    (hv : v ≠ []) : v ++ b ≠ n ++ post :=
  (sealed_of_mem (by simp [sealedPairs])).not_within hy hsplit hv (reviewability_ne_nil htaken.1)
    htaken.1

theorem scoreLeft_of_sanitizeReviewabilityTerm {text : Text}
    (h : ScoreLeft (sanitizeReviewabilityTerm text)) : ScoreLeft text ∨ TermScored text := by
  obtain ⟨a', x, y, b', ht', hx, hy⟩ := h
  rcases placeholder_back (sealed_of_mem (by simp [sealedPairs]))
      (rewritten_sanitizeReviewabilityTerm text) hx hy ht' with
    ⟨a, b, -, ht, -⟩ | ⟨a, m, b, -, ht, htaken, -⟩
  · exact Or.inl ⟨a, x, y, b, ht, matches_of_plain hx plain_placeholder _ _,
      matches_of_plain hy plain_scoreChange _ _⟩
  · exact Or.inr ⟨a, m, y, b, ht, htaken, matches_of_plain hy plain_scoreChange _ _⟩

/-- A placeholder and its score are not touched. -/
theorem ScoreLeft.kept {text : Text} (h : ScoreLeft text) :
    ScoreLeft (sanitizeReviewabilityTerm text) := by
  obtain ⟨a, x, y, b, ht, hx, hy⟩ := h
  have hforward := (rewritten_sanitizeReviewabilityTerm text).forward (placeholder_ne_nil hx) ?_ ?_
    (fun _ _ _ _ _ => reviewability_behind_scoreChange hy) ht
  · rcases hforward with ⟨a', b', hb', -⟩ | ⟨a', b', hb'⟩
    · exact ⟨a', x, y, b', hb', matches_of_plain hx plain_placeholder _ _,
        matches_of_plain hy plain_scoreChange _ _⟩
    · exact ⟨a', privateContext, y, b', hb', matches_placeholder none _,
        matches_of_plain hy plain_scoreChange _ _⟩
  · intro seen n post u v htaken hsplit hv htext
    exact absurd htext ((sealed_of_mem (by simp [sealedPairs])).not_within htaken.1 hsplit hv
      (placeholder_ne_nil hx) hx)
  · intro seen n post u v htaken hsplit hu hv
    exact (unentered_of_mem (by simp [unenteredPairs])).not_inside hx hsplit hu hv
      (reviewability_ne_nil htaken.1) htaken.1

/-- The word that goes leaves a placeholder in front of its score. -/
theorem TermScored.scoreLeft {text : Text} (h : TermScored text) :
    ScoreLeft (sanitizeReviewabilityTerm text) := by
  obtain ⟨a, m, y, b, ht, ⟨hm, hmention⟩, hy⟩ := h
  have hforward := (rewritten_sanitizeReviewabilityTerm text).forward (reviewability_ne_nil hm)
    ?_ ?_ (fun _ _ _ _ _ => reviewability_behind_scoreChange hy) ht
  · rcases hforward with ⟨-, -, -, hfree⟩ | ⟨a', b', hb'⟩
    · have hfollows := hfree m (y ++ b) rfl hm
      rw [List.nil_append, hmention] at hfollows
      cases hfollows
    · exact ⟨a', privateContext, y, b', hb', matches_placeholder none _,
        matches_of_plain hy plain_scoreChange _ _⟩
  · intro seen n post u v htaken hsplit hv htext
    by_cases hu : u = []
    · rw [hu, List.nil_append] at hsplit
      rw [← hsplit] at htext ⊢
      have hlength : fixedLength reviewability = some 13 := rfl
      exact (eq_of_fixedLength hlength hlength htaken.1 hm htext).1
    · exact absurd htext (unentered_reviewability.not_inside htaken.1 hsplit hu hv
        (reviewability_ne_nil hm) hm)
  · intro seen n post u v htaken hsplit hu hv
    exact unentered_reviewability.not_inside hm hsplit hu hv (reviewability_ne_nil htaken.1)
      htaken.1

/-- The scores that stand after the term, or after a placeholder, stand after a placeholder once
the term is replaced. -/
theorem scoreLeft_sanitizeReviewabilityTerm_iff (text : Text) :
    ScoreLeft (sanitizeReviewabilityTerm text) ↔ ScoreLeft text ∨ TermScored text :=
  ⟨scoreLeft_of_sanitizeReviewabilityTerm, Or.rec ScoreLeft.kept TermScored.scoreLeft⟩

section Links

variable {x y b : Text}

/-- A placeholder of a list that is the placeholder before a score change is the last one. -/
theorem last_link (hx : Matches placeholder none x (y ++ b)) (hy : Matches scoreChange none y b)
    {prev prev' : Option Char} {w n post : Text} (hw : Matches placeholder prev w (n ++ post))
    (hn : Matches (.star listed) prev' n post) (htext : w ++ (n ++ post) = x ++ (y ++ b)) :
    w = x ∧ n = [] := by
  have hlength : fixedLength placeholder = some 15 := rfl
  obtain ⟨rfl, hrest⟩ := eq_of_fixedLength hlength hlength hw hx htext
  refine ⟨rfl, ?_⟩
  by_contra hne
  have hclash := clash_of_matches clashDepth hne (ne_nil_of_matches hy rfl) hn hy hrest
  rw [patterns_separated.2.2.2.2.1] at hclash
  cases hclash

theorem suffix_of_listed (hx : Matches placeholder none x (y ++ b))
    (hy : Matches scoreChange none y b) {prev : Option Char} {n post u v : Text}
    (hn : Matches (.star listed) prev n post) (hsplit : n = u ++ v) (hv : v ≠ [])
    (htext : v ++ post = x ++ (y ++ b)) : v = x := by
  generalize hp : Pattern.star listed = p at hn
  induction hn generalizing u v with
  | starNil =>
    exact absurd (List.append_eq_nil_iff.mp hsplit.symm).2 hv
  | @starCons body prev m n post hne hbody hrest ihBody ihRest =>
    obtain rfl := Pattern.star.inj hp
    rcases List.append_eq_append_iff.mp hsplit with ⟨c, -, hlater⟩ | ⟨c, hm, hv'⟩
    · exact ihRest hlater hv htext rfl
    · by_cases hc : c = []
      · rw [hc, List.nil_append] at hv'
        exact ihRest (u := []) hv'.symm hv htext rfl
      · rw [hv', List.append_assoc] at htext
        obtain ⟨z, w, rfl, hz, hw⟩ := matches_seq_iff.mp hbody
        have hcw : c = w := by
          rcases List.append_eq_append_iff.mp hm with ⟨d, hu, hw'⟩ | ⟨d, hz', hc'⟩
          · by_cases hd : d = []
            · rw [hw', hd, List.nil_append]
            · exact absurd htext ((unentered_of_mem (by simp [unenteredPairs])).not_inside hw
                hw' hd hc (placeholder_ne_nil hx) hx)
          · by_cases hd : d = []
            · rw [hc', hd, List.nil_append]
            · rw [hc', List.append_assoc] at htext
              exact absurd htext ((sealed_of_mem (by simp [sealedPairs])).not_within hz hz' hd
                (placeholder_ne_nil hx) hx)
        rw [hcw] at htext
        obtain ⟨rfl, hnil⟩ := last_link hx hy hw hrest htext
        rw [hv', hcw, hnil, List.append_nil]
  | _ => cases hp

/-- A list of placeholders reaches into a placeholder before a score change only to end with it. -/
theorem suffix_of_placeholderList (hx : Matches placeholder none x (y ++ b))
    (hy : Matches scoreChange none y b) {prev : Option Char} {n post u v : Text}
    (hn : Matches placeholderList prev n post) (hsplit : n = u ++ v) (hv : v ≠ [])
    (htext : v ++ post = x ++ (y ++ b)) : v = x := by
  obtain ⟨w, rest, rfl, hw, hrest⟩ := matches_seq_iff.mp hn
  obtain ⟨z, more, rfl, hz, hmore⟩ := matches_seq_iff.mp hrest
  have hstar := Matches.starCons (ne_nil_of_matches hz rfl) hz hmore
  rcases List.append_eq_append_iff.mp hsplit with ⟨c, -, hlater⟩ | ⟨c, hw', hv'⟩
  · exact suffix_of_listed hx hy hstar hlater hv htext
  · by_cases hc : c = []
    · rw [hc, List.nil_append] at hv'
      exact suffix_of_listed hx hy (u := []) hstar hv'.symm hv htext
    · rw [hv', List.append_assoc] at htext
      by_cases hu : u = []
      · rw [hu, List.nil_append] at hw'
        rw [← hw'] at htext
        obtain ⟨-, hnil⟩ := last_link hx hy hw hstar htext
        exact absurd (List.append_eq_nil_iff.mp hnil).1 (ne_nil_of_matches hz rfl)
      · exact absurd htext ((unentered_of_mem (by simp [unenteredPairs])).not_inside hw hw'
          hu hc (placeholder_ne_nil hx) hx)

end Links

theorem ends_with_placeholder {prev : Option Char} {n post : Text}
    (hn : Matches (.star listed) prev n post) (hne : n ≠ []) :
    ∃ a z, n = a ++ z ∧ Matches placeholder none z post := by
  generalize hp : Pattern.star listed = p at hn
  induction hn with
  | starNil => exact absurd rfl hne
  | @starCons body prev m n post _ hbody hrest _ ihRest =>
    obtain rfl := Pattern.star.inj hp
    by_cases hn : n = []
    · obtain ⟨z, w, rfl, -, hw⟩ := matches_seq_iff.mp hbody
      subst hn
      exact ⟨z, w, List.append_nil _, matches_of_plain hw plain_placeholder _ _⟩
    · obtain ⟨a, z, rfl, hz⟩ := ihRest hn rfl
      exact ⟨m ++ a, z, (List.append_assoc _ _ _).symm, hz⟩
  | _ => cases hp

/-- The end of a list of placeholders keeps what follows it. -/
theorem scoreLeft_placeholderList_iff (text : Text) :
    ScoreLeft (replaceAll placeholderList privateContext text) ↔ ScoreLeft text := by
  have hrewritten := rewritten_placeholderList text
  constructor
  · rintro ⟨a', x, y, b', ht', hx, hy⟩
    rcases placeholder_back (sealed_of_mem (by simp [sealedPairs])) hrewritten hx hy ht' with
      ⟨a, b, -, ht, -⟩ | ⟨a, m, b, -, ht, htaken, -⟩
    · exact ⟨a, x, y, b, ht, matches_of_plain hx plain_placeholder _ _,
        matches_of_plain hy plain_scoreChange _ _⟩
    · -- The list ends with a placeholder, and the score change comes right after it.
      obtain ⟨w, rest, rfl, -, hrest⟩ := matches_seq_iff.mp htaken.matches
      obtain ⟨n, more, rfl, hn, hmore⟩ := matches_seq_iff.mp hrest
      have hne := ne_nil_of_matches hn rfl
      obtain ⟨c, z, hsplit, hz⟩ := ends_with_placeholder (Matches.starCons hne hn hmore)
        (fun h => hne (List.append_eq_nil_iff.mp h).1)
      refine ⟨a ++ (w ++ c), z, y, b, ?_, hz, matches_of_plain hy plain_scoreChange _ _⟩
      rw [ht, hsplit]
      simp only [List.append_assoc]
  · rintro ⟨a, x, y, b, ht, hx, hy⟩
    have hforward := hrewritten.forward (placeholder_ne_nil hx) ?_ ?_ ?_ ht
    · rcases hforward with ⟨a', b', hb', -⟩ | ⟨a', b', hb'⟩
      · exact ⟨a', x, y, b', hb', matches_of_plain hx plain_placeholder _ _,
          matches_of_plain hy plain_scoreChange _ _⟩
      · exact ⟨a', privateContext, y, b', hb', matches_placeholder none _,
          matches_of_plain hy plain_scoreChange _ _⟩
    · exact fun seen n post u v htaken => suffix_of_placeholderList hx hy htaken.matches
    · intro seen n post u v htaken hsplit hu hv
      exact (unentered_of_mem (by simp [unenteredPairs])).not_inside hx hsplit hu hv
        (ne_nil_of_matches htaken.matches rfl) htaken.matches
    · intro seen n post u v htaken hsplit hv
      exact (sealed_of_mem (by simp [sealedPairs])).not_within hy hsplit hv
        (ne_nil_of_matches htaken.matches rfl) htaken.matches

/-! ## What one pass leaves -/

/-- No redaction pattern is found, no placeholder has a score change after it, every
"reviewability" is the command, and a second pass changes nothing. -/
structure Settled (text : Text) : Prop where
  absent : ∀ p ∈ privatePhrases ++ [residualScores, likelyDuplicate], test p text = false
  terms : ∀ a m b, text = a ++ (m ++ b) → Matches reviewability (before none a) m b →
    followsMention a = true
  scores : ¬ ScoreLeft text
  stable : sanitizePublicComment text = text

theorem scoreLeft_sanitizePublicComment_iff (value : Text) :
    ScoreLeft (sanitizePublicComment value) ↔
      ScoreLeft (redactPhrases value) ∨ TermScored (redactPhrases value) := by
  unfold sanitizePublicComment
  rw [scoreLeft_placeholderList_iff, scoreLeft_sanitizeReviewabilityTerm_iff]

theorem scoreLeft_of_residualScores {text : Text} (h : test residualScores text = true) :
    ScoreLeft text := by
  obtain ⟨a, m, b, rfl, hmatch⟩ := (test_iff _ _).mp h
  obtain ⟨-, x, y, rfl, hx, hy⟩ := matches_residualScores_iff.mp hmatch
  exact ⟨a, x, y, b, by rw [List.append_assoc], hx, hy⟩

/-- A text in which nothing is found is not changed. -/
theorem sanitizePublicComment_eq_self {text : Text}
    (habsent : ∀ p ∈ privatePhrases ++ [residualScores, likelyDuplicate], test p text = false)
    (hterms : ∀ a m b, text = a ++ (m ++ b) → Matches reviewability (before none a) m b →
      followsMention a = true)
    (hlists : test placeholderList text = false) : sanitizePublicComment text = text := by
  have hfold : ∀ list : List Pattern, (∀ q ∈ list, test q text = false) →
      list.foldl (fun text q => replaceAll q privateContext text) text = text := by
    intro list
    induction list with
    | nil => exact fun _ => rfl
    | cons q list ih =>
      intro hall
      obtain ⟨hq, hrest⟩ := List.forall_mem_cons.mp hall
      rw [List.foldl_cons, replaceAll_of_test_eq_false _ hq, ih hrest]
  have hphrases : redactPhrases text = text := by
    unfold redactPhrases
    rw [hfold _ fun q hq => habsent q ?_]
    · exact replaceAll_of_test_eq_false _ (habsent _ (by simp))
    · rcases List.mem_append.mp hq with hq | hq
      · exact List.mem_append_left _ hq
      · exact List.mem_append_right _ (List.mem_cons.mpr (Or.inl (List.mem_singleton.mp hq)))
  have hterm : sanitizeReviewabilityTerm text = text := by
    refine (rewritten_sanitizeReviewabilityTerm text).eq_self fun a m b htext htaken => ?_
    rw [List.nil_append] at htaken
    have hfollows := hterms a m b htext htaken.1
    rw [htaken.2] at hfollows
    cases hfollows
  unfold sanitizePublicComment
  rw [hphrases, hterm, replaceAll_of_test_eq_false _ hlists]

/-- One pass is complete and stable just where, once the phrases are redacted, no placeholder and
no term to be redacted has a score change after it. -/
theorem sanitizePublicComment_settles_iff (value : Text) :
    Settled (sanitizePublicComment value) ↔
      ¬ (ScoreLeft (redactPhrases value) ∨ TermScored (redactPhrases value)) := by
  rw [← scoreLeft_sanitizePublicComment_iff]
  constructor
  · exact Settled.scores
  · intro hscores
    have hterms : ∀ a m b, sanitizePublicComment value = a ++ (m ++ b) →
        Matches reviewability (before none a) m b → followsMention a = true :=
      fun a m b htext hmatch => followsMention_of_matches htext hmatch
    have habsent : ∀ p ∈ privatePhrases ++ [residualScores, likelyDuplicate],
        test p (sanitizePublicComment value) = false := by
      intro p hp
      by_cases hresidual : p = residualScores
      · subst hresidual
        by_contra htest
        exact hscores (scoreLeft_of_residualScores (Bool.not_eq_false _ ▸ htest))
      · refine test_phrase_eq_false ?_ value
        rw [List.mem_append, List.mem_cons] at hp
        rw [List.mem_append]
        exact hp.imp_right fun h => h.resolve_left hresidual
    exact ⟨habsent, hterms, hscores, sanitizePublicComment_eq_self habsent hterms
      (test_placeholderList_eq_false _)⟩

/-! ## The scores of the comment -/

/-- What is a placeholder or becomes one. -/
def marked : Pattern := .alts (placeholder :: privatePhrases)

/-- Two score changes after it, where the catch-all takes the first and leaves the second. -/
def doubledScores : Pattern := .seq marked (.seqs [scoreChange, scoreChange])

/-- A score change after it, and a word letter or another phrase right before it: the catch-all
finds no edge of a word between the two. -/
def gluedScores : Pattern :=
  .seq (.alts (wordLetter :: privatePhrases)) (.seq marked scoreChange)

/-- No score change of the comment stands where it is left behind. -/
structure Unscored (value : Text) : Prop where
  doubled : test doubledScores value = false
  glued : test gluedScores value = false
  term : ¬ TermScored value

theorem matches_marked_iff {prev : Option Char} {x post : Text} :
    Matches marked prev x post ↔
      Matches placeholder none x post ∨ ∃ p ∈ privatePhrases, Matches p prev x post := by
  unfold marked
  rw [matches_alts_iff]
  constructor
  · rintro ⟨p, hp, hx⟩
    rcases List.mem_cons.mp hp with rfl | hp
    · exact Or.inl (matches_of_plain hx plain_placeholder _ _)
    · exact Or.inr ⟨p, hp, hx⟩
  · rintro (hx | ⟨p, hp, hx⟩)
    · exact ⟨placeholder, List.mem_cons_self, matches_of_plain hx plain_placeholder _ _⟩
    · exact ⟨p, List.mem_cons_of_mem _ hp, hx⟩

theorem phrase_of_private {p : Pattern} (hp : p ∈ privatePhrases) : p ∈ phrases :=
  List.mem_append_left _ hp

theorem heads_private {q : Pattern} (hq : q ∈ privatePhrases) :
    Heads (Taken q) privateContext :=
  heads_taken (replaceable_of_mem (List.mem_append_left _ hq)).1 plantedWord_privateContext

theorem rewritten_private {q : Pattern} (hq : q ∈ privatePhrases) (text : Text) :
    Rewritten (Free q) (Taken q) privateContext [] text (replaceAll q privateContext text) :=
  rewritten_replaceAll (replaceable_of_mem (List.mem_append_left _ hq)).2 privateContext text

section Stages

variable {q tail : Pattern} {t a a' x y b' : Text}

theorem marked_not_inside {c post u v z : Text} (hx : Matches marked (before none (c ++ u)) x post)
    (hplanted : privateContext = u ++ v) (hu : u ≠ []) (hv : v ≠ []) : v ++ z ≠ x ++ post := by
  rcases matches_marked_iff.mp hx with hx | ⟨p, hp, hx⟩
  · exact placeholder_not_inside hx hplanted hu hv
  · rw [before_append] at hx
    exact (clear_privateContext (phrase_of_private hp)).inside hx hplanted hu hv

/-- What a placeholder or a phrase at the start of the text that results was before. -/
theorem marked_at (hq : q ∈ privatePhrases) (htail : Sealed tail (.literal "private context"))
    (hplain : plain tail = true)
    (h : Rewritten (Free q) (Taken q) privateContext a t (x ++ (y ++ b')))
    (hedge : wordAt (before none a') = false → wordAt (before none a) = false)
    (hx : Matches marked (before none a') x (y ++ b')) (hy : Matches tail none y b') :
    ∃ z b, t = z ++ (y ++ b) ∧ Matches marked (before none a) z (y ++ b) ∧
      Matches tail none y b := by
  rcases matches_marked_iff.mp hx with hx | ⟨p, hp, hx⟩
  · rcases placeholder_at htail h hx hy with ⟨b, read, rfl, -, -⟩ | ⟨m, b, read, rfl, htaken, -⟩
    · exact ⟨x, b, rfl, matches_marked_iff.mpr (Or.inl (matches_of_plain hx plain_placeholder _ _)),
        matches_of_plain hy hplain _ _⟩
    · exact ⟨m, b, rfl, matches_marked_iff.mpr (Or.inr ⟨q, hq, htaken.matches⟩),
        matches_of_plain hy hplain _ _⟩
  · have hphrase := phrase_of_mem (phrase_of_private hp)
    have hword : privateContext ≠ [] := by decide
    obtain ⟨rest, rfl, -, hrest⟩ := h.kept rfl fun u v z hsplit hv =>
      (clear_privateContext (phrase_of_private hp)).entered hx hsplit hv
    have hhead := hrest.head (heads_private hq)
    obtain ⟨b, rfl, -, -⟩ := hrest.kept rfl fun u v z hsplit hv =>
      entered_of_sealed htail hword hy hsplit hv
    have hstart := (edge_of_edged hphrase.edged hx).1
    refine ⟨x, b, rfl, matches_marked_iff.mpr (Or.inr ⟨p, hp, ?_⟩), matches_of_plain hy hplain _ _⟩
    refine hx.congr_context hphrase.anchorFree ?_ hhead.symm
    rw [hstart, hedge hstart]

theorem test_marked_iff (hplain : plain tail = true) :
    test (.seq marked tail) t = true ↔ ∃ a x y b, t = a ++ (x ++ (y ++ b)) ∧
      Matches marked (before none a) x (y ++ b) ∧ Matches tail none y b := by
  rw [test_iff]
  constructor
  · rintro ⟨a, m, b, rfl, hmatch⟩
    obtain ⟨x, y, rfl, hx, hy⟩ := matches_seq_iff.mp hmatch
    exact ⟨a, x, y, b, by rw [List.append_assoc], hx, matches_of_plain hy hplain _ _⟩
  · rintro ⟨a, x, y, b, rfl, hx, hy⟩
    exact ⟨a, x ++ y, b, by rw [List.append_assoc],
      matches_seq_iff.mpr ⟨x, y, rfl, hx, matches_of_plain hy hplain _ _⟩⟩

/-- Replacing a phrase puts nothing new before the tail. -/
theorem marked_back (hq : q ∈ privatePhrases) (htail : Sealed tail (.literal "private context"))
    (hplain : plain tail = true)
    (h : test (.seq marked tail) (replaceAll q privateContext t) = true) :
    test (.seq marked tail) t = true := by
  obtain ⟨a', x, y, b', ht', hx, hy⟩ := (test_marked_iff hplain).mp h
  obtain ⟨a, rest, rfl, hrest, hlined⟩ := (rewritten_private hq t).cut ht'
    fun c u v z hsplit hplanted hu hv => marked_not_inside (hsplit ▸ hx) hplanted hu hv
  obtain ⟨z, b, rfl, hz, hy⟩ := marked_at hq htail hplain hrest
    (hlined.edge plantedWord_privateContext) hx hy
  exact (test_marked_iff hplain).mpr ⟨a, z, y, b, rfl, hz, hy⟩

theorem test_gluedScores_iff :
    test gluedScores t = true ↔ ∃ a x y b, t = a ++ (x ++ (y ++ b)) ∧
      Matches marked (before none a) x (y ++ b) ∧ Matches scoreChange none y b ∧
      (wordAt (before none a) = true ∨ ∃ c m, a = c ++ m ∧ ∃ p ∈ privatePhrases,
        Matches p (before none c) m (x ++ (y ++ b))) := by
  unfold gluedScores
  rw [test_iff]
  constructor
  · rintro ⟨a, m, b, rfl, hmatch⟩
    obtain ⟨g, n, rfl, hg, hn⟩ := matches_seq_iff.mp hmatch
    obtain ⟨x, y, rfl, hx, hy⟩ := matches_seq_iff.mp hn
    rw [List.append_assoc] at hg
    rw [← before_append] at hx
    refine ⟨a ++ g, x, y, b, by simp only [List.append_assoc], hx,
      matches_of_plain hy plain_scoreChange _ _, ?_⟩
    obtain ⟨p, hp, hg⟩ := matches_alts_iff.mp hg
    rcases List.mem_cons.mp hp with rfl | hp
    · obtain ⟨w, rfl, hw⟩ := matches_char_iff.mp hg
      rw [before_append_singleton]
      exact Or.inl ((accepts_wordLetter_iff w).mp hw)
    · exact Or.inr ⟨a, g, rfl, p, hp, hg⟩
  · rintro ⟨a, x, y, b, rfl, hx, hy, hglued⟩
    have hseq : ∀ c g, a = c ++ g → (∃ p ∈ wordLetter :: privatePhrases,
        Matches p (before none c) g (x ++ (y ++ b))) →
        ∃ c m d, a ++ (x ++ (y ++ b)) = c ++ (m ++ d) ∧
          Matches (.seq (.alts (wordLetter :: privatePhrases)) (.seq marked scoreChange))
            (before none c) m d := by
      rintro c g rfl hg
      rw [before_append] at hx
      refine ⟨c, g ++ (x ++ y), b, by simp only [List.append_assoc], ?_⟩
      refine matches_seq_iff.mpr ⟨g, x ++ y, rfl, ?_, ?_⟩
      · rw [List.append_assoc]
        exact matches_alts_iff.mpr hg
      · exact matches_seq_iff.mpr ⟨x, y, rfl, hx, matches_of_plain hy plain_scoreChange _ _⟩
    rcases hglued with hword | ⟨c, m, hsplit, p, hp, hm⟩
    · rcases List.eq_nil_or_concat a with rfl | ⟨c, w, rfl⟩
      · cases hword
      · rw [List.concat_eq_append] at hword hseq ⊢
        rw [before_append_singleton] at hword
        exact hseq c [w] rfl ⟨wordLetter, List.mem_cons_self,
          matches_char_iff.mpr ⟨w, rfl, (accepts_wordLetter_iff w).mpr hword⟩⟩
    · exact hseq c m hsplit ⟨p, List.mem_cons_of_mem _ hp, hm⟩

theorem sealed_scoreChange : Sealed scoreChange (.literal "private context") :=
  sealed_of_mem (by simp [sealedPairs])

/-- Replacing a phrase glues nothing that was not glued, or right after another phrase. -/
theorem glued_back (hq : q ∈ privatePhrases)
    (h : test gluedScores (replaceAll q privateContext t) = true) : test gluedScores t = true := by
  have hrewritten := rewritten_private hq t
  obtain ⟨a', x, y, b', ht', hx, hy, hglued⟩ := test_gluedScores_iff.mp h
  rw [test_gluedScores_iff]
  rcases hglued with hword | ⟨c', m, rfl, p, hp, hm⟩
  · obtain ⟨a, rest, rfl, hrest, hlined⟩ := hrewritten.cut ht'
      fun c u v z hsplit hplanted hu hv => marked_not_inside (hsplit ▸ hx) hplanted hu hv
    obtain ⟨z, b, rfl, hz, hy⟩ := marked_at hq sealed_scoreChange plain_scoreChange hrest
      (hlined.edge plantedWord_privateContext) hx hy
    refine ⟨a, z, y, b, rfl, hz, hy, ?_⟩
    rcases hlined with rfl | ⟨s, m, o, u, rfl, rfl, htaken⟩
    · exact Or.inl hword
    · by_cases hu : u = []
      · subst hu
        rw [List.append_nil]
        exact Or.inr ⟨s, m, rfl, q, hq, htaken.matches⟩
      · rw [before_append, before_append, before_of_ne_nil hu _ none] at hword ⊢
        exact Or.inl hword
  · have hmem := phrase_of_private hp
    have hphrase := phrase_of_mem hmem
    rw [List.append_assoc] at ht'
    obtain ⟨c, rest, rfl, -, hm', hrest, -⟩ := hrewritten.phrase_back hphrase
      plantedWord_privateContext (clear_privateContext hmem) (heads_private hq) ht' hm
    have hedge : before none (c' ++ m) = before none (c ++ m) := by
      rw [before_append, before_append]
      exact before_of_ne_nil (ne_nil_of_matches hm hphrase.nonempty) _ _
    obtain ⟨z, b, rfl, hz, hy⟩ := marked_at hq sealed_scoreChange plain_scoreChange hrest
      (fun hfalse => by rwa [← hedge]) hx hy
    exact ⟨c ++ m, z, y, b, by rw [List.append_assoc], hz, hy, Or.inr ⟨c, m, rfl, p, hp, hm'⟩⟩

end Stages

/-- What no phrase brings about as it is replaced held of the comment. -/
theorem held_before_phrases (holds : Text → Prop) (hback : ∀ q ∈ privatePhrases, ∀ t : Text,
      holds (replaceAll q privateContext t) → holds t)
    {value : Text} (h : holds (privatePhrases.foldl
      (fun text q => replaceAll q privateContext text) value)) : holds value := by
  have hfold : ∀ (list : List Pattern) (t : Text), (∀ q ∈ list, q ∈ privatePhrases) →
      holds (list.foldl (fun text q => replaceAll q privateContext text) t) → holds t := by
    intro list
    induction list with
    | nil => exact fun t _ hend => hend
    | cons q list ih =>
      intro t hall hend
      obtain ⟨hq, hrest⟩ := List.forall_mem_cons.mp hall
      exact hback q hq t (ih _ hrest hend)
  exact hfold _ _ (fun q hq => hq) h

/-- A score change that the catch-all leaves after a placeholder is the second of two, or there is
no edge of a word before the placeholder. -/
theorem scoreLeft_residualScores {t : Text}
    (h : ScoreLeft (replaceAll residualScores privateContext t)) :
    test doubledScores t = true ∨ test gluedScores t = true := by
  obtain ⟨a', x, y, b', ht', hx, hy⟩ := h
  have hnullable : nullable residualScores = false := rfl
  rcases placeholder_back sealed_scoreChange (rewritten_replaceAll hnullable privateContext t) hx hy
    ht' with ⟨a, b, -, rfl, hfree, -⟩ | ⟨a, m, b, -, rfl, htaken, -⟩
  · have hx' := matches_of_plain hx plain_placeholder none (y ++ b)
    have hy' := matches_of_plain hy plain_scoreChange none b
    refine Or.inr (test_gluedScores_iff.mpr ⟨a, x, y, b, rfl,
      matches_marked_iff.mpr (Or.inl hx'), hy', Or.inl ?_⟩)
    by_contra hedge
    rw [Bool.not_eq_true] at hedge
    refine hfree (x ++ y) b (by rw [List.append_assoc]) ?_
    exact matches_residualScores_iff.mpr ⟨hedge, x, y, rfl, hx', hy'⟩
  · obtain ⟨-, z, w, rfl, hz, hw⟩ := matches_residualScores_iff.mp htaken.matches
    have hplain : plain (.seqs [scoreChange, scoreChange]) = true := rfl
    refine Or.inl ((test_marked_iff hplain).mpr ⟨a, z, w ++ y, b, ?_, matches_marked_iff.mpr
      (Or.inl (matches_of_plain hz plain_placeholder _ _)), ?_⟩)
    · simp only [List.append_assoc]
    · refine matches_seq_iff.mpr ⟨w, y, rfl, matches_of_plain hw plain_scoreChange _ _, ?_⟩
      exact matches_seq_iff.mpr ⟨y, [], (List.append_nil _).symm,
        matches_of_plain hy plain_scoreChange _ _, Matches.empty _ _⟩

/-- The note for a duplicate puts no placeholder there. -/
theorem scoreLeft_likelyDuplicate {t : Text}
    (h : ScoreLeft (replaceAll likelyDuplicate overlapNote t)) : ScoreLeft t := by
  obtain ⟨a', x, y, b', ht', hx, hy⟩ := h
  have hnullable : nullable likelyDuplicate = false := rfl
  have hword : overlapNote ≠ [] := by decide
  have hnote : ∀ z, Matches (.literal "possible overlap with existing work") none overlapNote z :=
    fun z => matches_literal_iff.mpr rfl
  obtain ⟨a, rest, rfl, hrest, -⟩ := (rewritten_replaceAll hnullable overlapNote t).cut ht'
    fun c u v z _ hplanted hu hv => (unentered_of_mem (by simp [unenteredPairs])).not_inside
      (hnote z) hplanted hu hv (placeholder_ne_nil hx) hx
  obtain ⟨rest, rfl, -, hrest⟩ := hrest.kept rfl fun u v z hsplit hv =>
    entered_of_sealed (sealed_of_mem (by simp [sealedPairs])) hword hx hsplit hv
  obtain ⟨b, rfl, -, -⟩ := hrest.kept rfl fun u v z hsplit hv =>
    entered_of_sealed (sealed_of_mem (by simp [sealedPairs])) hword hy hsplit hv
  exact ⟨a, x, y, b, rfl, matches_of_plain hx plain_placeholder _ _,
    matches_of_plain hy plain_scoreChange _ _⟩

/-- A "reviewability" with a score change after it stood in the comment. -/
theorem termScored_back {word : String} (hword : word ∈ plantedWords) {q : Pattern}
    (hq : q ∈ privatePhrases ++ [residualScores, likelyDuplicate])
    (hsealed : Sealed scoreChange (.literal word)) {t : Text}
    (h : TermScored (replaceAll q word.toList t)) : TermScored t := by
  obtain ⟨a', m, y, b', ht', ⟨hm, hmention⟩, hy⟩ := h
  have hplanted := plantedWord_of_mem hword
  have hall : ∀ q ∈ privatePhrases ++ [residualScores, likelyDuplicate],
      headed q = true ∧ nullable q = false := by decide
  obtain ⟨hheaded, hnullable⟩ := hall q hq
  have hoff : OffMention q := offMention_of_mem (by
    rw [redactionPatterns]
    rcases List.mem_append.mp hq with hq | hq
    · exact List.mem_append_left _ hq
    · exact List.mem_append_right _ (List.mem_append_left [reviewability, placeholderList] hq))
  obtain ⟨a, rest, rfl, -, hm', hrest, hsame⟩ := reviewability_back hword hoff
    (fun _ _ _ => Taken.matches) (heads_taken hheaded hplanted)
    (rewritten_replaceAll hnullable word.toList t) ht' hm
  obtain ⟨b, rfl, -, -⟩ := hrest.kept rfl fun u v z hsplit hv =>
    entered_of_sealed hsealed hplanted.ne_nil hy hsplit hv
  exact ⟨a, m, y, b, rfl, ⟨hm', hsame.trans hmention⟩, matches_of_plain hy plain_scoreChange _ _⟩

/-- One pass is complete and stable where no score change of the comment is left behind. -/
theorem sanitizePublicComment_settled (value : Text) (h : Unscored value) :
    Settled (sanitizePublicComment value) := by
  have hplain : plain (.seqs [scoreChange, scoreChange]) = true := rfl
  rw [sanitizePublicComment_settles_iff, redactPhrases, List.foldl_append, List.foldl_cons,
    List.foldl_nil]
  rintro (hleft | hterm)
  · rcases scoreLeft_residualScores (scoreLeft_likelyDuplicate hleft) with hfound | hfound
    · have hdoubled : test doubledScores value = true :=
        held_before_phrases (fun t => test doubledScores t = true) (fun q hq t =>
          marked_back hq (sealed_of_mem (by simp [sealedPairs])) hplain) hfound
      rw [h.doubled] at hdoubled
      cases hdoubled
    · have hglued : test gluedScores value = true :=
        held_before_phrases (fun t => test gluedScores t = true) (fun q hq t => glued_back hq)
          hfound
      rw [h.glued] at hglued
      cases hglued
  · have hnote : ∀ {t : Text}, TermScored (replaceAll likelyDuplicate overlapNote t) →
        TermScored t := termScored_back (List.mem_cons_of_mem _ (List.mem_singleton_self _))
      (by simp) (sealed_of_mem (by simp [sealedPairs]))
    have hplaceholder : ∀ q ∈ privatePhrases ++ [residualScores], ∀ t : Text,
        TermScored (replaceAll q privateContext t) → TermScored t := by
      intro q hq t
      refine termScored_back List.mem_cons_self ?_ sealed_scoreChange
      rw [List.append_cons]
      exact List.mem_append_left _ hq
    refine h.term (held_before_phrases TermScored
      (fun q hq => hplaceholder q (List.mem_append_left _ hq)) ?_)
    exact hplaceholder residualScores (by simp) _ (hnote hterm)

/-- A phrase and one score change after it are taken together. -/
theorem wallet_settled : Settled (sanitizePublicComment "wallet 1 -> 2".toList) := by
  refine sanitizePublicComment_settled _ ⟨by decide +kernel, by decide +kernel, ?_⟩
  rintro ⟨a, m, y, b, htext, ⟨hm, -⟩, -⟩
  have htest := (test_iff reviewability _).mpr ⟨a, m, y ++ b, htext, hm⟩
  revert htest
  decide +kernel

/-- The scores after the term outlive it, and a second pass takes them. -/
theorem term_not_settled : ¬ Settled (sanitizePublicComment "reviewability 1 -> 2".toList) := by
  intro h
  have hstable := h.stable
  have hfirst : sanitizePublicComment "reviewability 1 -> 2".toList =
      "private context 1 -> 2".toList := by decide +kernel
  have hsecond : sanitizePublicComment "private context 1 -> 2".toList =
      "private context".toList := by decide +kernel
  rw [hfirst, hsecond] at hstable
  exact absurd hstable (by decide)

end Gittensory.SettledComment
