import Gittensory.PatternOverlap

/-!
A text in which stretches are replaced by a word, from left to right. What a pattern finds in
the text that results stood in the letters that were there before, when its matches share no
letter with the word; and what it found before it still finds, when no stretch that is
replaced shares a letter with the match.
-/
namespace Gittensory.Rewriting

open PatternOverlap Redaction TextPattern

/-- The text after `seen`, letter by letter: one that is free to stay, or a stretch that is
taken out for the word. -/
inductive Rewritten (free : Text → Text → Prop) (taken : Text → Text → Text → Prop)
    (planted : Text) : Text → Text → Text → Prop
  | nil (seen : Text) : Rewritten free taken planted seen [] []
  | keep {seen : Text} {c : Char} {rest rest' : Text} (hfree : free seen (c :: rest))
      (hrest : Rewritten free taken planted (seen ++ [c]) rest rest') :
      Rewritten free taken planted seen (c :: rest) (c :: rest')
  | plant {seen m post post' : Text} (htaken : taken seen m post)
      (hrest : Rewritten free taken planted (seen ++ m) post post') :
      Rewritten free taken planted seen (m ++ post) (planted ++ post')

/-- No match starts here. -/
def Free (p : Pattern) (seen text : Text) : Prop :=
  ∀ m post, text = m ++ post → ¬ Matches p (before none seen) m post

/-- The match that the search finds here. -/
def Taken (p : Pattern) (seen m post : Text) : Prop :=
  (ends p (before none seen) (m ++ post)).head? = some (m, post)

section Replacing

variable {p : Pattern} {seen m post text : Text}

theorem Taken.matches (h : Taken p seen m post) : Matches p (before none seen) m post :=
  ((mem_ends_iff p _ _ _ _).mp (List.mem_of_mem_head? h)).2

theorem before_append_singleton (prev : Option Char) (seen : Text) (c : Char) :
    before prev (seen ++ [c]) = some c := by
  rw [before_append]
  rfl

theorem free_of_ends_eq_nil (h : ends p (before none seen) text = []) : Free p seen text := by
  rintro m post rfl hmatch
  have hmem := (mem_ends_iff p _ _ _ _).mpr ⟨rfl, hmatch⟩
  rw [h] at hmem
  exact List.not_mem_nil hmem

theorem rewritten_replaceFrom (hp : nullable p = false) (planted : Text) {fuel : ℕ}
    (hfuel : text.length < fuel) :
    Rewritten (Free p) (Taken p) planted seen text
      (replaceFrom p planted fuel (before none seen) text) := by
  induction fuel generalizing seen text with
  | zero => exact absurd hfuel (Nat.not_lt_zero _)
  | succ fuel ih =>
    unfold replaceFrom
    cases hends : ends p (before none seen) text with
    | nil =>
      cases text with
      | nil => exact Rewritten.nil seen
      | cons c rest =>
        refine Rewritten.keep (free_of_ends_eq_nil hends) ?_
        rw [← before_append_singleton none seen c]
        exact ih (Nat.lt_of_succ_lt_succ hfuel)
    | cons found others =>
      obtain ⟨m, post⟩ := found
      have hmem : (m, post) ∈ ends p (before none seen) text := by
        rw [hends]
        exact List.mem_cons_self
      obtain ⟨rfl, hmatch⟩ := (mem_ends_iff p _ _ _ _).mp hmem
      cases m with
      | nil => exact absurd rfl (ne_nil_of_matches hmatch hp)
      | cons c m =>
        refine Rewritten.plant (by rw [Taken, hends, List.head?_cons]) ?_
        rw [← before_append]
        refine ih ?_
        rw [List.length_append, List.length_cons] at hfuel
        omega

theorem rewritten_replaceAll (hp : nullable p = false) (planted text : Text) :
    Rewritten (Free p) (Taken p) planted [] text (replaceAll p planted text) :=
  rewritten_replaceFrom hp planted (Nat.lt_succ_self _)

end Replacing

/-! ## The match that is found -/

section Greedy

variable {prev : Option Char} {m post text : Text}

theorem starEnds_ne_nil (body : Option Char → Text → List Stretch) (fuel : ℕ)
    (prev : Option Char) (text : Text) : starEnds body fuel prev text ≠ [] := by
  cases fuel with
  | zero => exact List.cons_ne_nil _ _
  | succ fuel => exact List.append_ne_nil_of_right_ne_nil _ (List.cons_ne_nil _ _)

/-- The first way to repeat a pattern stops where it cannot go on. -/
theorem starEnds_stops {body : Option Char → Text → List Stretch}
    (hbody : ∀ prev text found, found ∈ body prev text → text = found.1 ++ found.2) {fuel : ℕ}
    (hfuel : text.length ≤ fuel)
    (h : (starEnds body fuel prev text).head? = some (m, post)) :
    ∀ found ∈ body (before prev m) post, found.1 = [] := by
  induction fuel generalizing prev text m post with
  | zero =>
    cases h
    rintro found hfound
    have hsplit := hbody _ _ _ hfound
    rw [List.length_eq_zero_iff.mp (Nat.le_zero.mp hfuel)] at hsplit
    exact (List.append_eq_nil_iff.mp hsplit.symm).1
  | succ fuel ih =>
    unfold starEnds at h
    cases hlist : (body prev text).filter (fun found => !found.1.isEmpty) with
    | nil =>
      rw [hlist] at h
      cases h
      intro found hfound
      have hempty := List.filter_eq_nil_iff.mp hlist found hfound
      simpa using hempty
    | cons found others =>
      have hmem : found ∈ (body prev text).filter (fun found => !found.1.isEmpty) := by
        rw [hlist]
        exact List.mem_cons_self
      obtain ⟨hfound, hne⟩ := List.mem_filter.mp hmem
      have hsplit := hbody _ _ _ hfound
      have hshorter : found.2.length ≤ fuel := by
        have hpos : 0 < found.1.length := by
          rw [List.length_pos_iff]
          simpa using hne
        rw [hsplit, List.length_append] at hfuel
        omega
      rw [hlist, List.flatMap_cons, List.append_assoc] at h
      cases hrest : starEnds body fuel (before prev found.1) found.2 with
      | nil => exact absurd hrest (starEnds_ne_nil body fuel _ _)
      | cons later more =>
        rw [hrest, List.map_cons, List.cons_append, List.head?_cons] at h
        cases h
        rw [before_append]
        refine ih hshorter ?_
        rw [hrest, List.head?_cons]

theorem head_flatMap {α β : Type*} {list : List α} {f : α → List β} {b : β}
    (h : (list.flatMap f).head? = some b) : ∃ a ∈ list, (f a).head? = some b := by
  induction list with
  | nil => cases h
  | cons a list ih =>
    rw [List.flatMap_cons, List.head?_append] at h
    cases hf : (f a).head? with
    | some c =>
      rw [hf, Option.some_or] at h
      exact ⟨a, List.mem_cons_self, hf.trans h⟩
    | none =>
      rw [hf, Option.none_or] at h
      obtain ⟨a', ha', hb⟩ := ih h
      exact ⟨a', List.mem_cons_of_mem _ ha', hb⟩

/-- The first match of a sequence ends with the first match of its second part. -/
theorem head_ends_seq {p q : Pattern} (h : (ends (.seq p q) prev text).head? = some (m, post)) :
    ∃ x y, m = x ++ y ∧ text = x ++ (y ++ post) ∧ Matches p prev x (y ++ post) ∧
      (ends q (before prev x) (y ++ post)).head? = some (y, post) := by
  rw [ends] at h
  obtain ⟨⟨x, rest⟩, hfirst, hsecond⟩ := head_flatMap h
  rw [List.head?_map] at hsecond
  obtain ⟨⟨y, post'⟩, hy, hextend⟩ := Option.map_eq_some_iff.mp hsecond
  obtain ⟨rfl, rfl⟩ := Prod.mk.inj hextend
  obtain ⟨rfl, hmatch⟩ := (mem_ends_iff _ _ _ _ _).mp hfirst
  obtain ⟨rfl, -⟩ := (mem_ends_iff _ _ _ _ _).mp (List.mem_of_mem_head? hy)
  exact ⟨x, y, rfl, rfl, hmatch, hy⟩

theorem head_ends_star {p : Pattern} (h : (ends (.star p) prev text).head? = some (m, post)) :
    ∀ n rest, post = n ++ rest → Matches p (before prev m) n rest → n = [] := by
  intro n rest hpost hmatch
  rw [ends] at h
  have hbody : ∀ prev text found, found ∈ ends p prev text → text = found.1 ++ found.2 :=
    fun prev text found hfound => ((mem_ends_iff p _ _ _ _).mp hfound).1
  exact starEnds_stops hbody (Nat.le_refl _) h (n, rest) ((mem_ends_iff p _ _ _ _).mpr
    ⟨hpost, hmatch⟩)

end Greedy

/-! ## What is found afterwards was there before -/

/-- A match shares no letter with the word. -/
structure Clear (p : Pattern) (planted : Text) : Prop where
  entered : ∀ {prev m post u v z}, Matches p prev m post → m = u ++ v → v ≠ [] →
    v ++ post ≠ planted ++ z
  inside : ∀ {prev m post u v z}, Matches p (before prev u) m post → planted = u ++ v → u ≠ [] →
    v ≠ [] → v ++ z ≠ m ++ post

theorem matches_literal_iff {prev : Option Char} {m post : Text} {word : String} :
    Matches (.literal word) prev m post ↔ m = word.toList := by
  unfold Pattern.literal
  generalize word.toList = letters
  induction letters generalizing prev m with
  | nil => exact matches_empty_iff
  | cons c letters ih =>
    rw [List.foldr_cons, matches_seq_iff]
    constructor
    · rintro ⟨x, y, rfl, hfirst, hrest⟩
      obtain ⟨d, rfl, hd⟩ := matches_char_iff.mp hfirst
      have hsame : d = c := by
        simp only [CharSet.accepts, List.any_cons, List.any_nil, Bool.or_false, Bool.bne_false,
          decide_eq_true_eq] at hd
        exact le_antisymm hd.2 hd.1
      rw [hsame, ih.mp hrest, List.singleton_append]
    · rintro rfl
      refine ⟨[c], letters, rfl, matches_char_iff.mpr ⟨c, rfl, ?_⟩, ih.mpr rfl⟩
      simp [CharSet.accepts]

theorem accepts_eitherCase_lowerOf (c : Char) :
    ∃ set, Pattern.eitherCase (Pattern.lowerOf c) = .char set ∧ set.accepts c = true := by
  refine ⟨_, rfl, ?_⟩
  simp only [CharSet.accepts, List.any_cons, List.any_nil, Bool.or_false, Bool.bne_false,
    Bool.or_eq_true, decide_eq_true_eq]
  by_cases hupper : 'A' ≤ c ∧ c ≤ 'Z'
  · have hcapital : ∀ n ≤ 90, 65 ≤ n →
        Pattern.upperOf (Pattern.lowerOf (Char.ofNat n)) = Char.ofNat n := by decide
    have hsame := hcapital c.toNat hupper.2 hupper.1
    rw [Char.ofNat_toNat] at hsame
    rw [hsame]
    exact Or.inr ⟨le_refl c, le_refl c⟩
  · have hlower : Pattern.lowerOf c = c := if_neg hupper
    rw [hlower, hlower]
    exact Or.inl ⟨le_refl c, le_refl c⟩

/-- A word in any case is read by its pattern. -/
theorem matches_literalNoCase_of_lower {word : String} {m : Text}
    (h : m.map Pattern.lowerOf = word.toList) (prev : Option Char) (post : Text) :
    Matches (.literalNoCase word) prev m post := by
  unfold Pattern.literalNoCase
  rw [← h]
  clear h
  induction m generalizing prev with
  | nil => exact Matches.empty _ _
  | cons c m ih =>
    obtain ⟨set, hset, hc⟩ := accepts_eitherCase_lowerOf c
    rw [List.map_cons, List.foldr_cons, hset, ← List.singleton_append]
    exact Matches.seq (Matches.char _ c _ hc) (ih _)

section Clearing

variable {p : Pattern} {word : String}

/-- A pattern that starts with a word. -/
def edged : Pattern → Bool
  | .seq .wordBoundary rest => startsWord rest
  | _ => false

theorem edge_of_edged (hp : edged p = true) {prev : Option Char} {m post : Text}
    (h : Matches p prev m post) : wordAt prev = false ∧ ∃ c rest, m = c :: rest ∧
      isWordChar c = true := by
  unfold edged at hp
  split at hp
  · obtain ⟨x, y, rfl, hedge, hrest⟩ := matches_seq_iff.mp h
    obtain ⟨rfl, hne⟩ := matches_wordBoundary_iff.mp hedge
    obtain ⟨c, rest, rfl, hc⟩ := head_of_startsWord hrest hp
    rw [List.cons_append, List.head?_cons, wordAt, hc] at hne
    exact ⟨by simpa using hne, c, rest, rfl, hc⟩
  · cases hp

theorem entered_of_sealed (h : Sealed p (.literal word)) (hword : word.toList ≠ [])
    {prev : Option Char} {m post u v z : Text} (hmatch : Matches p prev m post) (hm : m = u ++ v)
    (hv : v ≠ []) : v ++ post ≠ word.toList ++ z := by
  have hliteral : Matches (.literal word) none word.toList z := matches_literal_iff.mpr rfl
  exact h.not_within hmatch hm hv hword hliteral

theorem clear_of_sealed (h : Sealed p (.literal word))
    (h' : UnenteredAtEdges (.literal word) p) (hp : edged p = true)
    (hword : word.toList ≠ []) : Clear p word.toList where
  entered hmatch hm hv := entered_of_sealed h hword hmatch hm hv
  inside hmatch hm hu hv := by
    obtain ⟨hedge, c, rest, rfl, -⟩ := edge_of_edged hp hmatch
    exact h'.not_inside (matches_literal_iff.mpr rfl) hm hu hv (List.cons_ne_nil c rest) hmatch
      hedge

end Clearing

section Back

variable {free : Text → Text → Prop} {taken : Text → Text → Text → Prop} {planted : Text}
  {seen t t' : Text}

/-- The stretches and the word start alike: a word in each, or none. -/
def Heads (taken : Text → Text → Text → Prop) (planted : Text) : Prop :=
  ∀ seen m post, taken seen m post → ∀ rest rest' : Text,
    wordAt (m ++ rest).head? = wordAt (planted ++ rest').head?

theorem Rewritten.head (hheads : Heads taken planted) (h : Rewritten free taken planted seen t t') :
    wordAt t.head? = wordAt t'.head? := by
  cases h with
  | nil => rfl
  | keep => rfl
  | plant htaken hrest => exact hheads _ _ _ htaken _ _

/-- Letters in which the word does not start were there before, each of them free to stay. -/
theorem Rewritten.kept_at (h : Rewritten free taken planted seen t t') {m b' : Text}
    (ht' : t' = m ++ b') (hclear : ∀ u v z, m = u ++ v → v ≠ [] → v ++ b' ≠ planted ++ z) :
    ∃ b, t = m ++ b ∧ (∀ u v, m = u ++ v → v ≠ [] → free (seen ++ u) (v ++ b)) ∧
      Rewritten free taken planted (seen ++ m) b b' := by
  induction m generalizing seen t t' with
  | nil =>
    rw [List.nil_append] at ht'
    subst ht'
    refine ⟨t, rfl, fun u v hsplit hv => ?_, by rwa [List.append_nil]⟩
    exact absurd (List.append_eq_nil_iff.mp hsplit.symm).2 hv
  | cons c m ih =>
    cases h with
    | nil => cases ht'
    | @keep _ d rest rest' hfree hrest =>
      obtain ⟨rfl, htail⟩ := List.cons.inj ht'
      obtain ⟨b, rfl, hplaces, hb⟩ := ih hrest htail fun u v z hm =>
        hclear (d :: u) v z (by rw [hm, List.cons_append])
      refine ⟨b, rfl, fun u v hsplit hv => ?_, ?_⟩
      · cases u with
        | nil =>
          rw [List.append_nil, ← List.nil_append v, ← hsplit]
          exact hfree
        | cons e u =>
          obtain ⟨rfl, hm⟩ := List.cons.inj hsplit
          rw [List.append_cons]
          exact hplaces u v hm hv
      · rwa [List.append_assoc, List.singleton_append] at hb
    | plant htaken hrest =>
      exact absurd ht'.symm (hclear [] (c :: m) _ rfl (List.cons_ne_nil c m))

/-- Letters in which the word does not start were there before. -/
theorem Rewritten.kept (h : Rewritten free taken planted seen t t') {m b' : Text}
    (ht' : t' = m ++ b') (hclear : ∀ u v z, m = u ++ v → v ≠ [] → v ++ b' ≠ planted ++ z) :
    ∃ b, t = m ++ b ∧ (m ≠ [] → free seen t) ∧ Rewritten free taken planted (seen ++ m) b b' := by
  obtain ⟨b, rfl, hplaces, hb⟩ := h.kept_at ht' hclear
  refine ⟨b, rfl, fun hm => ?_, hb⟩
  have hfirst := hplaces [] m rfl hm
  rwa [List.append_nil] at hfirst

/-- The letters before one place of both texts: the same, or the same from the last word on. -/
def Lined (taken : Text → Text → Text → Prop) (planted seen a a' b : Text) : Prop :=
  a = a' ∨ ∃ s m o u, a = s ++ (m ++ u) ∧ a' = o ++ (planted ++ u) ∧ taken (seen ++ s) m (u ++ b)

theorem Lined.cons {c : Char} {a a' b : Text} (h : Lined taken planted (seen ++ [c]) a a' b) :
    Lined taken planted seen (c :: a) (c :: a') b := by
  rcases h with rfl | ⟨s, m, o, u, rfl, rfl, htaken⟩
  · exact Or.inl rfl
  · rw [← List.append_cons] at htaken
    exact Or.inr ⟨c :: s, m, c :: o, u, rfl, rfl, htaken⟩

theorem Lined.plant {m a a' b : Text} (htaken : taken seen m (a ++ b))
    (h : Lined taken planted (seen ++ m) a a' b) :
    Lined taken planted seen (m ++ a) (planted ++ a') b := by
  rcases h with rfl | ⟨s, n, o, u, rfl, rfl, hlater⟩
  · exact Or.inr ⟨[], m, [], a, rfl, rfl, by rwa [List.append_nil]⟩
  · rw [List.append_assoc] at hlater
    exact Or.inr ⟨m ++ s, n, planted ++ o, u, by rw [List.append_assoc],
      by rw [List.append_assoc], hlater⟩

/-- A place of the text that results, not inside a word that was planted, is a place of the text
before. -/
theorem Rewritten.cut (h : Rewritten free taken planted seen t t') {a' b' : Text}
    (ht' : t' = a' ++ b') (hinside : ∀ c u v z, a' = c ++ u → planted = u ++ v → u ≠ [] →
      v ≠ [] → v ++ z ≠ b') :
    ∃ a b, t = a ++ b ∧ Rewritten free taken planted (seen ++ a) b b' ∧
      Lined taken planted seen a a' b := by
  induction h generalizing a' with
  | nil seen =>
    obtain ⟨rfl, rfl⟩ := List.append_eq_nil_iff.mp ht'.symm
    exact ⟨[], [], rfl, Rewritten.nil _, Or.inl rfl⟩
  | @keep seen c rest rest' hfree hrest ih =>
    cases a' with
    | nil =>
      rw [List.nil_append] at ht'
      subst ht'
      refine ⟨[], c :: rest, rfl, ?_, Or.inl rfl⟩
      rw [List.append_nil]
      exact Rewritten.keep hfree hrest
    | cons d a' =>
      obtain ⟨rfl, htail⟩ := List.cons.inj ht'
      obtain ⟨a, b, rfl, hb, hlined⟩ := ih htail fun e u v z hsplit =>
        hinside (c :: e) u v z (by rw [hsplit, List.cons_append])
      rw [← List.append_cons] at hb
      exact ⟨c :: a, b, rfl, hb, hlined.cons⟩
  | @plant seen m post post' htaken hrest ih =>
    have hlater : ∀ c, a' = planted ++ c → post' = c ++ b' → ∃ a b, m ++ post = a ++ b ∧
        Rewritten free taken planted (seen ++ a) b b' ∧ Lined taken planted seen a a' b := by
      rintro c rfl hpost
      obtain ⟨a, b, rfl, hb, hlined⟩ := ih hpost fun e u v z hsplit =>
        hinside (planted ++ e) u v z (by rw [hsplit, List.append_assoc])
      rw [List.append_assoc] at hb
      exact ⟨m ++ a, b, (List.append_assoc _ _ _).symm, hb, hlined.plant htaken⟩
    rcases List.append_eq_append_iff.mp ht' with ⟨c, ha', hpost⟩ | ⟨c, hplanted, hrest'⟩
    · exact hlater c ha' hpost
    · by_cases hc : c = []
      · rw [hc, List.append_nil] at hplanted
        rw [hc, List.nil_append] at hrest'
        exact hlater [] (by rw [hplanted, List.append_nil]) hrest'.symm
      · by_cases ha : a' = []
        · rw [ha, List.nil_append] at ht'
          subst ht' ha
          refine ⟨[], m ++ post, rfl, ?_, Or.inl rfl⟩
          rw [List.append_nil]
          exact Rewritten.plant htaken hrest
        · exact absurd hrest'.symm (hinside [] a' c _ rfl hplanted ha hc)

/-- A match in the text that results stood in the text before. -/
theorem Rewritten.back {p : Pattern} (hp : nullable p = false) (hclear : Clear p planted)
    (h : Rewritten free taken planted seen t t') {prev : Option Char} {a' m b' : Text}
    (ht' : t' = a' ++ (m ++ b')) (hmatch : Matches p (before prev a') m b') :
    ∃ a b, t = a ++ (m ++ b) ∧ free (seen ++ a) (m ++ b) ∧
      Rewritten free taken planted (seen ++ a ++ m) b b' ∧
      Lined taken planted seen a a' (m ++ b) := by
  obtain ⟨a, rest, rfl, hrest, hlined⟩ := h.cut ht' fun c u v z hsplit hplanted hu hv => by
    rw [hsplit, before_append] at hmatch
    exact hclear.inside hmatch hplanted hu hv
  obtain ⟨b, rfl, hfree, hb⟩ := hrest.kept rfl fun u v z hsplit hv =>
    hclear.entered hmatch hsplit hv
  exact ⟨a, b, rfl, hfree (ne_nil_of_matches hmatch hp), hb, hlined⟩

/-- A stretch that may be the word, at the start of the text that results, and what follows it
stood there before, or the word was planted there. -/
theorem Rewritten.at_start {x y b' : Text} (hx : x ≠ [])
    (hsame : ∀ z, x ++ (y ++ b') = planted ++ z → x = planted)
    (hentered : ∀ u v z, x = u ++ v → u ≠ [] → v ≠ [] → v ++ (y ++ b') ≠ planted ++ z)
    (hafter : ∀ u v z, y = u ++ v → v ≠ [] → v ++ b' ≠ planted ++ z)
    (h : Rewritten free taken planted seen t (x ++ (y ++ b'))) :
    (∃ b read, t = x ++ (y ++ b) ∧ free seen (x ++ (y ++ b)) ∧
        Rewritten free taken planted read b b') ∨
      ∃ m b read, t = m ++ (y ++ b) ∧ taken seen m (y ++ b) ∧
        Rewritten free taken planted read b b' := by
  generalize ht' : x ++ (y ++ b') = t' at h
  cases h with
  | nil => exact absurd (List.append_eq_nil_iff.mp ht').1 hx
  | @keep _ c rest rest' hfree hrest =>
    obtain ⟨d, x, rfl⟩ := List.exists_cons_of_ne_nil hx
    obtain ⟨rfl, htail⟩ := List.cons.inj ht'
    obtain ⟨b, rfl, -, hb⟩ := hrest.kept htail.symm fun u v z hsplit hv =>
      hentered (d :: u) v z (by rw [hsplit, List.cons_append]) (List.cons_ne_nil d u) hv
    obtain ⟨b, rfl, -, hb⟩ := hb.kept rfl hafter
    exact Or.inl ⟨b, _, rfl, hfree, hb⟩
  | @plant _ n post post' htaken hrest =>
    have hword := hsame _ ht'
    rw [hword] at ht'
    obtain ⟨b, rfl, -, hb⟩ := hrest.kept (List.append_cancel_left ht').symm hafter
    exact Or.inr ⟨n, b, _, rfl, htaken, hb⟩

end Back

/-! ## What was found before is there afterwards -/

section Forward

variable {free : Text → Text → Prop} {taken : Text → Text → Text → Prop} {planted : Text}
  {seen t t' : Text}

/-- Letters at none of which a stretch starts that is taken out. -/
theorem Rewritten.stays_at (h : Rewritten free taken planted seen t t') {m b : Text}
    (ht : t = m ++ b) (hclear : ∀ u v n post, m = u ++ v → v ≠ [] → taken (seen ++ u) n post →
      v ++ b ≠ n ++ post) :
    ∃ b', t' = m ++ b' ∧ Rewritten free taken planted (seen ++ m) b b' := by
  induction m generalizing seen t t' with
  | nil =>
    rw [List.nil_append] at ht
    subst ht
    exact ⟨t', rfl, by rwa [List.append_nil]⟩
  | cons c m ih =>
    cases h with
    | nil => cases ht
    | @keep _ d rest rest' hfree hrest =>
      obtain ⟨rfl, htail⟩ := List.cons.inj ht
      obtain ⟨b', rfl, hb⟩ := ih hrest htail fun u v n post hm hv htaken =>
        hclear (d :: u) v n post (by rw [hm, List.cons_append]) hv
          (by rwa [List.append_assoc, List.singleton_append] at htaken)
      refine ⟨b', rfl, ?_⟩
      rwa [List.append_assoc, List.singleton_append] at hb
    | plant htaken hrest =>
      refine absurd ht.symm (hclear [] (c :: m) _ _ rfl (List.cons_ne_nil c m) ?_)
      rwa [List.append_nil]

/-- Letters in which no stretch starts that is taken out. -/
theorem Rewritten.stays (h : Rewritten free taken planted seen t t') {m b : Text} (ht : t = m ++ b)
    (hclear : ∀ seen n post u v, taken seen n post → m = u ++ v → v ≠ [] → v ++ b ≠ n ++ post) :
    ∃ b', t' = m ++ b' ∧ Rewritten free taken planted (seen ++ m) b b' :=
  h.stays_at ht fun u v n post hm hv htaken => hclear _ n post u v htaken hm hv

/-- A stretch `x` with what follows it is still there, or the word is in its place: no stretch
that is taken out starts inside them, and one that reaches into `x` ends with it. -/
theorem Rewritten.forward {a x y b : Text} (hx : x ≠ [])
    (hsuffix : ∀ seen n post u v, taken seen n post → n = u ++ v → v ≠ [] →
      v ++ post = x ++ (y ++ b) → v = x)
    (hentered : ∀ seen n post u v, taken seen n post → x = u ++ v → u ≠ [] → v ≠ [] →
      v ++ (y ++ b) ≠ n ++ post)
    (hafter : ∀ seen n post u v, taken seen n post → y = u ++ v → v ≠ [] → v ++ b ≠ n ++ post)
    (h : Rewritten free taken planted seen t t') (ht : t = a ++ (x ++ (y ++ b))) :
    (∃ a' b', t' = a' ++ (x ++ (y ++ b')) ∧ free (seen ++ a) (x ++ (y ++ b))) ∨
      ∃ a' b', t' = a' ++ (planted ++ (y ++ b')) := by
  induction h generalizing a with
  | nil =>
    obtain ⟨-, hrest⟩ := List.append_eq_nil_iff.mp ht.symm
    exact absurd (List.append_eq_nil_iff.mp hrest).1 hx
  | @keep seen c rest rest' hfree hrest ih =>
    cases a with
    | nil =>
      rw [List.nil_append] at ht
      obtain ⟨d, x, rfl⟩ := List.exists_cons_of_ne_nil hx
      obtain ⟨rfl, htail⟩ := List.cons.inj ht
      obtain ⟨b', rfl, hb⟩ := hrest.stays htail fun seen n post u v htaken hsplit =>
        hentered seen n post (c :: u) v htaken (by rw [hsplit, List.cons_append])
          (List.cons_ne_nil c u)
      obtain ⟨b', rfl, -⟩ := hb.stays rfl hafter
      rw [ht] at hfree
      exact Or.inl ⟨[], b', rfl, by rwa [List.append_nil]⟩
    | cons d a =>
      obtain ⟨rfl, htail⟩ := List.cons.inj ht
      rcases ih htail with ⟨a', b', rfl, hstart⟩ | ⟨a', b', rfl⟩
      · rw [← List.append_cons] at hstart
        exact Or.inl ⟨c :: a', b', rfl, hstart⟩
      · exact Or.inr ⟨c :: a', b', rfl⟩
  | @plant seen n post post' htaken hrest ih =>
    have hlater : ∀ c, a = n ++ c → post = c ++ (x ++ (y ++ b)) →
        (∃ a' b', planted ++ post' = a' ++ (x ++ (y ++ b')) ∧
            free (seen ++ a) (x ++ (y ++ b))) ∨
          ∃ a' b', planted ++ post' = a' ++ (planted ++ (y ++ b')) := by
      rintro c rfl hpost
      rcases ih hpost with ⟨a', b', rfl, hstart⟩ | ⟨a', b', rfl⟩
      · rw [List.append_assoc] at hstart
        exact Or.inl ⟨planted ++ a', b', by rw [List.append_assoc], hstart⟩
      · exact Or.inr ⟨planted ++ a', b', by rw [List.append_assoc]⟩
    rcases List.append_eq_append_iff.mp ht with ⟨c, ha, hpost⟩ | ⟨c, hn, hrest'⟩
    · exact hlater c ha hpost
    · by_cases hc : c = []
      · rw [hc, List.append_nil] at hn
        rw [hc, List.nil_append] at hrest'
        exact hlater [] (by rw [hn, List.append_nil]) hrest'.symm
      · have hcx := hsuffix _ _ _ a c htaken hn hc hrest'.symm
        rw [hcx] at hrest'
        obtain ⟨b', rfl, -⟩ := hrest.stays (List.append_cancel_left hrest').symm hafter
        exact Or.inr ⟨[], b', rfl⟩

/-- Where nothing is taken out nothing changes. -/
theorem Rewritten.eq_self (h : Rewritten free taken planted seen t t')
    (hnone : ∀ a m b, t = a ++ (m ++ b) → ¬ taken (seen ++ a) m b) : t' = t := by
  induction h with
  | nil => rfl
  | @keep seen c rest rest' _ _ ih =>
    rw [ih fun a m b hrest => ?_]
    rw [List.append_assoc, List.singleton_append]
    exact hnone (c :: a) m b (by rw [hrest, List.cons_append])
  | @plant seen m post post' htaken _ _ =>
    refine absurd htaken ?_
    have hnow := hnone [] m post rfl
    rwa [List.append_nil] at hnow

theorem Rewritten.keep_stretch {m post post' : Text}
    (hfree : ∀ u v, m = u ++ v → v ≠ [] → free (seen ++ u) (v ++ post))
    (h : Rewritten free taken planted (seen ++ m) post post') :
    Rewritten free taken planted seen (m ++ post) (m ++ post') := by
  induction m generalizing seen with
  | nil => rwa [List.append_nil] at h
  | cons c m ih =>
    have hfirst := hfree [] (c :: m) rfl (List.cons_ne_nil c m)
    rw [List.append_nil] at hfirst
    refine Rewritten.keep hfirst (ih (fun u v hm hv => ?_) (by rwa [← List.append_cons]))
    rw [← List.append_cons]
    exact hfree (c :: u) v (by rw [hm, List.cons_append]) hv

end Forward

/-! ## Patterns that are found no more -/

/-- A pattern that starts with a word and looks at nothing but word edges. -/
structure Phrase (p : Pattern) : Prop where
  edged : edged p = true
  nonempty : nullable p = false
  anchorFree : anchorFree p = true

instance (p : Pattern) : Decidable (Phrase p) :=
  decidable_of_iff (Rewriting.edged p = true ∧ nullable p = false ∧ TextPattern.anchorFree p = true)
    ⟨fun h => ⟨h.1, h.2.1, h.2.2⟩, fun h => ⟨h.edged, h.nonempty, h.anchorFree⟩⟩

/-- A word to plant: word letters at both ends. -/
structure PlantedWord (planted : Text) : Prop where
  first : wordAt planted.head? = true
  last : wordAt planted.getLast? = true

instance (planted : Text) : Decidable (PlantedWord planted) :=
  decidable_of_iff (wordAt planted.head? = true ∧ wordAt planted.getLast? = true)
    ⟨fun h => ⟨h.1, h.2⟩, fun h => ⟨h.first, h.last⟩⟩

section Absence

variable {p q : Pattern} {planted t t' : Text}

theorem PlantedWord.before (h : PlantedWord planted) (prev : Option Char) :
    wordAt (before prev planted) = true := by
  have hlast := h.last
  cases hl : planted.getLast? with
  | none =>
    rw [hl] at hlast
    cases hlast
  | some c =>
    rw [hl] at hlast
    rw [before_of_getLast? hl]
    exact hlast

theorem PlantedWord.head (h : PlantedWord planted) (rest : Text) :
    wordAt (planted ++ rest).head? = true := by
  have hfirst := h.first
  cases planted with
  | nil => cases hfirst
  | cons c planted => exact hfirst

theorem PlantedWord.ne_nil (h : PlantedWord planted) : planted ≠ [] := by
  rintro rfl
  cases h.first

/-- Every match starts with a word letter. -/
def headed (q : Pattern) : Bool := edged q || startsWord q

theorem heads_taken (hq : headed q = true) (hword : PlantedWord planted) :
    Heads (Taken q) planted := by
  intro seen m post htaken rest rest'
  obtain ⟨c, m', rfl, hc⟩ : ∃ c m', m = c :: m' ∧ isWordChar c = true := by
    rcases Bool.or_eq_true_iff.mp hq with hedged | hstarts
    · exact (edge_of_edged hedged htaken.matches).2
    · exact head_of_startsWord htaken.matches hstarts
  rw [hword.head]
  exact hc

theorem before_of_ne_nil {u : Text} (hu : u ≠ []) (prev prev' : Option Char) :
    before prev u = before prev' u := by
  obtain ⟨c, u, rfl⟩ := List.exists_cons_of_ne_nil hu
  rfl

/-- Where no word letter stands before a place none stood there before. -/
theorem Lined.edge {taken : Text → Text → Text → Prop} {seen a a' b : Text}
    (hword : PlantedWord planted) (h : Lined taken planted seen a a' b)
    (hedge : wordAt (before none a') = false) : wordAt (before none a) = false := by
  rcases h with rfl | ⟨s, m, o, u, rfl, rfl, -⟩
  · exact hedge
  · by_cases hu : u = []
    · rw [hu, List.append_nil, before_append, hword.before] at hedge
      cases hedge
    · rw [before_append, before_append, before_of_ne_nil hu _ none] at hedge ⊢
      exact hedge

/-- A phrase in the text that results stood in the text before. -/
theorem Rewritten.phrase_back (hp : Phrase p) (hword : PlantedWord planted)
    (hclear : Clear p planted) {free : Text → Text → Prop} {taken : Text → Text → Text → Prop}
    (hheads : Heads taken planted) (h : Rewritten free taken planted [] t t') {a' m b' : Text}
    (ht' : t' = a' ++ (m ++ b')) (hmatch : Matches p (before none a') m b') :
    ∃ a b, t = a ++ (m ++ b) ∧ free a (m ++ b) ∧ Matches p (before none a) m b ∧
      Rewritten free taken planted (a ++ m) b b' ∧ Lined taken planted [] a a' (m ++ b) := by
  obtain ⟨a, b, rfl, hfree, hb, hlined⟩ := h.back hp.nonempty hclear ht' hmatch
  rw [List.nil_append] at hfree hb
  have hedge := (edge_of_edged hp.edged hmatch).1
  refine ⟨a, b, rfl, hfree, hmatch.congr_context hp.anchorFree ?_ (hb.head hheads).symm, hb,
    hlined⟩
  rw [hedge, hlined.edge hword hedge]

/-- What no letter that stayed could start is not found. -/
theorem test_rewritten_eq_false (hp : Phrase p) (hword : PlantedWord planted)
    (hclear : Clear p planted) {free : Text → Text → Prop} {taken : Text → Text → Text → Prop}
    (hheads : Heads taken planted) (h : Rewritten free taken planted [] t t')
    (hnone : ∀ a m b, t = a ++ (m ++ b) → free a (m ++ b) → ¬ Matches p (before none a) m b) :
    test p t' = false := by
  by_contra htest
  rw [Bool.not_eq_false, test_iff] at htest
  obtain ⟨a', m, b', ht', hmatch⟩ := htest
  obtain ⟨a, b, ht, hfree, hmatch, -⟩ := h.phrase_back hp hword hclear hheads ht' hmatch
  exact hnone a m b ht hfree hmatch

/-- Replacing makes no new match of a phrase, and leaves none of the one that is replaced. -/
theorem test_replaceAll_eq_false (hp : Phrase p) (hword : PlantedWord planted)
    (hclear : Clear p planted) (hq : headed q = true) (hnonempty : nullable q = false)
    (h : p = q ∨ test p t = false) : test p (replaceAll q planted t) = false := by
  refine test_rewritten_eq_false hp hword hclear (heads_taken hq hword)
    (rewritten_replaceAll hnonempty planted t) ?_
  intro a m b ht hfree hmatch
  rcases h with rfl | htest
  · exact hfree m b rfl hmatch
  · have hfound := (test_iff p t).mpr ⟨a, m, b, ht, hmatch⟩
    rw [htest] at hfound
    cases hfound

end Absence

/-! ## A letter that no match reads -/

section Separated

variable {p : Pattern} {prev prev' : Option Char} {sep : Char} {a b : Text}

theorem ends_congr (hp : anchorFree p = true) (hprev : wordAt prev = wordAt prev') (text : Text) :
    ends p prev text = ends p prev' text := by
  induction p generalizing prev prev' text with
  | empty => rfl
  | char set => cases text <;> rfl
  | seq first second ihFirst ihSecond =>
    obtain ⟨hfirst, hsecond⟩ := Bool.and_eq_true_iff.mp hp
    rw [ends, ends, ihFirst hfirst hprev]
    refine List.flatMap_congr fun found _ => ?_
    rw [ihSecond hsecond (wordAt_before_congr hprev found.1)]
  | alt left right ihLeft ihRight =>
    obtain ⟨hleft, hright⟩ := Bool.and_eq_true_iff.mp hp
    rw [ends, ends, ihLeft hleft hprev, ihRight hright hprev]
  | star body ih =>
    rw [ends, ends]
    generalize text.length = fuel
    induction fuel generalizing prev prev' text with
    | zero => rfl
    | succ fuel ihFuel =>
      rw [starEnds, starEnds, ih hp hprev]
      refine congrArg (· ++ _) (List.flatMap_congr fun found _ => ?_)
      rw [ihFuel (wordAt_before_congr hprev found.1)]
  | wordBoundary => rw [ends, ends, hprev]
  | start => cases hp
  | stop => cases hp

/-- What is found, in the text that goes on with the letter. -/
def onward (sep : Char) (b : Text) (found : Stretch) : Stretch := (found.1, found.2 ++ sep :: b)

theorem starEnds_separator {list : Option Char → Text → List Stretch}
    (hlist : ∀ prev a, list prev (a ++ sep :: b) = (list prev a).map (onward sep b))
    (hsound : ∀ prev text found, found ∈ list prev text → text = found.1 ++ found.2)
    {fuel fuel' : ℕ} (hfuel : a.length ≤ fuel) (hfuel' : (a ++ sep :: b).length ≤ fuel') :
    starEnds list fuel' prev (a ++ sep :: b) = (starEnds list fuel prev a).map (onward sep b) := by
  induction fuel generalizing fuel' prev a with
  | zero =>
    obtain rfl := List.length_eq_zero_iff.mp (Nat.le_zero.mp hfuel)
    cases fuel' with
    | zero => cases hfuel'
    | succ fuel' =>
      have hempty : (list prev (sep :: b)).filter (fun found => !found.1.isEmpty) = [] := by
        rw [← List.nil_append (sep :: b), hlist, List.filter_eq_nil_iff]
        intro found hfound
        obtain ⟨found, hmem, rfl⟩ := List.mem_map.mp hfound
        have hnil := (List.append_eq_nil_iff.mp (hsound _ _ _ hmem).symm).1
        simp [onward, hnil]
      rw [List.nil_append]
      unfold starEnds
      rw [hempty]
      rfl
  | succ fuel ih =>
    cases fuel' with
    | zero =>
      rw [List.length_append, List.length_cons] at hfuel'
      omega
    | succ fuel' =>
      rw [starEnds, starEnds, hlist, List.filter_map, List.map_append, List.flatMap_map,
        List.map_flatMap]
      refine congrArg (· ++ _) (List.flatMap_congr fun found hfound => ?_)
      obtain ⟨hmem, hne⟩ := List.mem_filter.mp hfound
      have hsplit := hsound _ _ _ hmem
      have hpos : 0 < found.1.length := by
        rw [List.length_pos_iff]
        simpa [onward] using hne
      have hlength := congrArg List.length hsplit
      rw [List.length_append] at hlength
      rw [List.length_append] at hfuel'
      have hrest := @ih (before prev found.1) found.2 fuel' (by omega) (by
        rw [List.length_append]
        omega)
      rw [onward, hrest, List.map_map, List.map_map]
      rfl

/-- The scanner does not see past a letter that its pattern avoids. -/
theorem ends_separator (hfree : anchorFree p = true) (havoid : avoids sep p = true)
    (hword : isWordChar sep = false) (prev : Option Char) (a : Text) :
    ends p prev (a ++ sep :: b) = (ends p prev a).map (onward sep b) := by
  induction p generalizing prev a with
  | empty => rfl
  | char set =>
    cases a with
    | nil =>
      rw [avoids, Bool.not_eq_true'] at havoid
      have hnone : ends (.char set) prev (sep :: b) = [] := by
        unfold ends
        rw [havoid]
        rfl
      exact hnone
    | cons c a =>
      rw [List.cons_append, ends, ends]
      split_ifs <;> rfl
  | seq first second ihFirst ihSecond =>
    obtain ⟨hfree, hfree'⟩ := Bool.and_eq_true_iff.mp hfree
    obtain ⟨havoid, havoid'⟩ := Bool.and_eq_true_iff.mp havoid
    rw [ends, ends, ihFirst hfree havoid, List.flatMap_map, List.map_flatMap]
    refine List.flatMap_congr fun found _ => ?_
    rw [onward, ihSecond hfree' havoid', List.map_map, List.map_map]
    rfl
  | alt left right ihLeft ihRight =>
    obtain ⟨hfree, hfree'⟩ := Bool.and_eq_true_iff.mp hfree
    obtain ⟨havoid, havoid'⟩ := Bool.and_eq_true_iff.mp havoid
    rw [ends, ends, ihLeft hfree havoid, ihRight hfree' havoid', List.map_append]
  | star body ih =>
    exact starEnds_separator (fun prev a => ih hfree havoid prev a)
      (fun prev text found hfound => ((mem_ends_iff body _ _ _ _).mp hfound).1) (Nat.le_refl _)
      (Nat.le_refl _)
  | wordBoundary =>
    have hhead : wordAt (a ++ sep :: b).head? = wordAt a.head? := by
      cases a with
      | nil => exact hword
      | cons c a => rfl
    rw [ends, ends, hhead]
    split_ifs <;> rfl
  | start => cases hfree
  | stop => cases hfree

/-- What a search finds first, if it finds anything here. -/
theorem head_ends_cases (hnonempty : nullable p = false) (prev : Option Char) (text : Text) :
    ends p prev text = [] ∨ ∃ c m post others, text = (c :: m) ++ post ∧
      ends p prev text = (c :: m, post) :: others := by
  cases hends : ends p prev text with
  | nil => exact Or.inl rfl
  | cons found others =>
    obtain ⟨m, post⟩ := found
    have hmem : (m, post) ∈ ends p prev text := by
      rw [hends]
      exact List.mem_cons_self
    obtain ⟨rfl, hmatch⟩ := (mem_ends_iff p _ _ _ _).mp hmem
    obtain ⟨c, m, rfl⟩ := List.exists_cons_of_ne_nil (ne_nil_of_matches hmatch hnonempty)
    exact Or.inr ⟨c, m, post, others, rfl, rfl⟩

theorem replaceFrom_congr (hfree : anchorFree p = true) (hnonempty : nullable p = false)
    (hprev : wordAt prev = wordAt prev') (planted : Text) {text : Text} {fuel fuel' : ℕ}
    (hfuel : text.length < fuel) (hfuel' : text.length < fuel') :
    replaceFrom p planted fuel prev text = replaceFrom p planted fuel' prev' text := by
  induction fuel generalizing fuel' prev prev' text with
  | zero => exact absurd hfuel (Nat.not_lt_zero _)
  | succ fuel ih =>
    cases fuel' with
    | zero => exact absurd hfuel' (Nat.not_lt_zero _)
    | succ fuel' =>
      have hends := ends_congr hfree hprev text
      unfold replaceFrom
      rw [← hends]
      rcases head_ends_cases hnonempty prev text with hnone | ⟨c, m, post, others, rfl, hfound⟩
      · rw [hnone]
        cases text with
        | nil => rfl
        | cons d rest =>
          exact congrArg (d :: ·)
            (ih rfl (Nat.lt_of_succ_lt_succ hfuel) (Nat.lt_of_succ_lt_succ hfuel'))
      · rw [hfound]
        rw [List.length_append, List.length_cons] at hfuel hfuel'
        exact congrArg (planted ++ ·)
          (ih (wordAt_before_congr hprev (c :: m)) (by omega) (by omega))

theorem replaceFrom_separator (hfree : anchorFree p = true) (havoid : avoids sep p = true)
    (hword : isWordChar sep = false) (hnonempty : nullable p = false) (planted : Text)
    {fuel fuel' rounds : ℕ} (hfuel : a.length < fuel) (hfuel' : (a ++ sep :: b).length < fuel')
    (hrounds : b.length < rounds) :
    replaceFrom p planted fuel' prev (a ++ sep :: b) =
      replaceFrom p planted fuel prev a ++ sep :: replaceFrom p planted rounds none b := by
  have hafter : ∀ fuel', b.length < fuel' → replaceFrom p planted fuel' (some sep) b =
      replaceFrom p planted rounds none b := fun fuel' hfuel' =>
    replaceFrom_congr hfree hnonempty (by simpa [wordAt] using hword) planted hfuel' hrounds
  generalize replaceFrom p planted rounds none b = after at hafter ⊢
  induction fuel generalizing fuel' prev a with
  | zero => exact absurd hfuel (Nat.not_lt_zero _)
  | succ fuel ih =>
    cases fuel' with
    | zero => exact absurd hfuel' (Nat.not_lt_zero _)
    | succ fuel' =>
      have hends := ends_separator (b := b) hfree havoid hword prev a
      unfold replaceFrom
      rw [hends]
      rcases head_ends_cases hnonempty prev a with hnone | ⟨c, m, post, others, rfl, hfound⟩
      · rw [hnone]
        cases a with
        | nil =>
          exact congrArg (sep :: ·) (hafter fuel' (Nat.lt_of_succ_lt_succ hfuel'))
        | cons d rest =>
          exact congrArg (d :: ·)
            (ih (Nat.lt_of_succ_lt_succ hfuel) (Nat.lt_of_succ_lt_succ hfuel'))
      · rw [hfound]
        rw [List.length_append, List.length_cons] at hfuel
        rw [List.length_append, List.length_append, List.length_cons] at hfuel'
        refine (congrArg (planted ++ ·) (@ih (before prev (c :: m)) post fuel' (by omega) ?_)).trans
          (List.append_assoc _ _ _).symm
        rw [List.length_append]
        omega

/-- Replacing goes on afresh after a letter that the pattern avoids. -/
theorem replaceAll_separator (hfree : anchorFree p = true) (havoid : avoids sep p = true)
    (hword : isWordChar sep = false) (hnonempty : nullable p = false) (planted a b : Text) :
    replaceAll p planted (a ++ sep :: b) =
      replaceAll p planted a ++ sep :: replaceAll p planted b :=
  replaceFrom_separator hfree havoid hword hnonempty planted (Nat.lt_succ_self _)
    (Nat.lt_succ_self _) (Nat.lt_succ_self _)

end Separated
end Gittensory.Rewriting
