import Gittensory.JsValue
import Gittensory.Rewriting

/-!
The redaction of public comments (`sanitizePublicComment` of `github/commands.ts`): ten
patterns of private phrases and one of the scores that they leave behind, each replaced by
"private context"; then the note for a duplicate, the term "reviewability" unless it is the
command, and lists of placeholders. The scores are redacted before the term is, so those
that follow the term stay.
-/
namespace Gittensory.PublicComment

open JsValue PatternOverlap Redaction Rewriting TextPattern

/-! ## The patterns -/

def digits : Pattern := .plus (.char ⟨false, [('0', '9')]⟩)

/-- `[-+]?\d+(?:\.\d+)?` -/
def score : Pattern :=
  .seqs [.opt (.char ⟨false, [('-', '-'), ('+', '+')]⟩), digits,
    .opt (.seqs [.exactly '.', digits])]

/-- `\s+`, then two scores with `\s*(?:->|→|to)\s*` between them. -/
def scoreChange : Pattern :=
  .seqs [spaces, score, .star (.char spaceSet),
    .alts [.literal "->", .exactly '→', .literalNoCase "to"], .star (.char spaceSet), score]

def openPrCountExceeds : Pattern :=
  .seqs [.wordBoundary, .literalNoCase "open pr count", spaces, digits, spaces,
    .literalNoCase "exceeds threshold", spaces, digits, .wordBoundary, .opt (.exactly '.')]

def openPrCountWithin : Pattern :=
  .seqs [.wordBoundary, .literalNoCase "open pr count is at or below", spaces, digits,
    .wordBoundary]

def credibilityBelowFloor : Pattern :=
  .seqs [.wordBoundary, .literalNoCase "credibility", spaces, score, spaces,
    .literalNoCase "is below floor", spaces, score, .wordBoundary, .opt (.exactly '.')]

def scoreChanges : Pattern :=
  .seqs [.wordBoundary, .anyNoCase ["effective", "projected", "estimated"], .literalNoCase " score",
    .opt (.plural " change"), .wordBoundary, .opt (.seqs [spaces, .literalNoCase "from"]),
    scoreChange]

def accountTerms : Pattern :=
  word (.anyNoCase ["raw trust score", "trust score", "wallet", "hotkey", "coldkey", "seed phrase",
    "mnemonic"])

def rewardTerms : Pattern :=
  word (.alts [.literalNoCase "public score estimate", .literalNoCase "estimated score",
    .literalNoCase "score estimate", .plural "estimated reward", .plural "reward",
    .plural "reward estimate", .literalNoCase "payout", .literalNoCase "farming",
    .literalNoCase "scoreability", .literalNoCase "score preview",
    .plural "projected score change"])

def reviewabilityTerms : Pattern :=
  word (.alts [.literalNoCase "private reviewability", .plural "reviewability internal"])

def rankingTerms : Pattern := word (.alts [.plural "private ranking", .plural "ranking"])

def blockerCodes : Pattern :=
  word (.anyNoCase ["open_pr_pressure", "closed_pr_credibility", "low_credibility", "maintainer_lane",
    "inactive_or_unknown_lane", "issue_discovery_only"])

def credibilityTerms : Pattern :=
  word (.alts [.seqs [.literalNoCase "credibility", .opt (.plural " update")],
    .literalNoCase "closed pr credibility", .literalNoCase "low credibility",
    .literalNoCase "open pr pressure"])

/-- In the order in which they are replaced. -/
def privatePhrases : List Pattern :=
  [openPrCountExceeds, openPrCountWithin, credibilityBelowFloor, scoreChanges, accountTerms,
    rewardTerms, reviewabilityTerms, rankingTerms, blockerCodes, credibilityTerms]

def privateContext : Text := "private context".toList

def placeholder : Pattern := .literalNoCase "private context"

/-- The catch-all. -/
def residualScores : Pattern :=
  .seqs [.wordBoundary, placeholder, .wordBoundary, scoreChange]

def likelyDuplicate : Pattern := word (.literalNoCase "likely_duplicate")

def overlapNote : Text := "possible overlap with existing work".toList

def reviewability : Pattern := word (.literalNoCase "reviewability")

/-- `,\s*` -/
def separator : Pattern := .seq (.exactly ',') (.star (.char spaceSet))

/-- `,\s*private context` -/
def listed : Pattern := .seq separator placeholder

/-- `private context(?:,\s*private context)+` -/
def placeholderList : Pattern := .seq placeholder (.plus listed)

/-! ## The functions -/

def mention : Text := "@gittensory ".toList

/-- Whether the twelve letters before a place, in lower case, end with the mention; the lower
case of a letter outside ASCII never completes it. -/
def followsMention (seen : Text) : Bool :=
  mention.isSuffixOf ((seen.drop (seen.length - mention.length)).map Pattern.lowerOf)

/-- The letters read so far come with the text that is left; every round reads one. -/
def sanitizeReviewabilityFrom : ℕ → Text → Text → Text
  | 0, _, text => text
  | fuel + 1, seen, text =>
      match ends reviewability (before none seen) text, text with
      | (c :: m, post) :: _, _ =>
          (if followsMention seen then c :: m else privateContext) ++
            sanitizeReviewabilityFrom fuel (seen ++ c :: m) post
      | _, [] => []
      | _, d :: rest => d :: sanitizeReviewabilityFrom fuel (seen ++ [d]) rest

def sanitizeReviewabilityTerm (value : Text) : Text :=
  sanitizeReviewabilityFrom (value.length + 1) [] value

/-- What is left when phrases, scores and the note for a duplicate are replaced. -/
def redactPhrases (value : Text) : Text :=
  replaceAll likelyDuplicate overlapNote
    ((privatePhrases ++ [residualScores]).foldl (fun text p => replaceAll p privateContext text)
      value)

def sanitizePublicComment (value : Text) : Text :=
  replaceAll placeholderList privateContext (sanitizeReviewabilityTerm (redactPhrases value))

/-! ## The phrases -/

theorem plantedWord_privateContext : PlantedWord privateContext := by decide

theorem plantedWord_overlapNote : PlantedWord overlapNote := by decide

/-- The patterns that no later replacement can bring back. -/
def phrases : List Pattern := privatePhrases ++ [likelyDuplicate, reviewability]

/-- All that `sanitizePublicComment` searches for. -/
def redactionPatterns : List Pattern :=
  privatePhrases ++ [residualScores, likelyDuplicate, reviewability, placeholderList]

def plantedWords : List String := ["private context", "possible overlap with existing work"]

/-- No match of the second starts within a match of the first. -/
def unenteredPairs : List (Pattern × Pattern) :=
  [(reviewability, reviewability), (placeholder, .literal "private context"),
    (.literal "private context", placeholder), (placeholder, placeholder),
    (placeholder, reviewability), (placeholder, placeholderList),
    (.literal "possible overlap with existing work", placeholder)]

/-- No match of the second starts at a letter of a match of the first. -/
def sealedPairs : List (Pattern × Pattern) :=
  [(separator, .literal "private context"), (separator, placeholder),
    (reviewability, placeholder), (scoreChange, .literal "private context"),
    (scoreChange, reviewability), (scoreChange, placeholderList),
    (.seqs [scoreChange, scoreChange], .literal "private context"),
    (placeholder, .literal "possible overlap with existing work"),
    (scoreChange, .literal "possible overlap with existing work")]

/-- All that is decided about the patterns letter by letter. -/
theorem patterns_separated :
    (∀ p ∈ phrases, Phrase p ∧ ∀ word ∈ plantedWords,
      Sealed p (.literal word) ∧ UnenteredAtEdges (.literal word) p) ∧
    (∀ q ∈ privatePhrases ++ [residualScores], headed q = true ∧ nullable q = false) ∧
    (∀ pair ∈ unenteredPairs, Unentered pair.1 pair.2) ∧
    (∀ pair ∈ sealedPairs, Sealed pair.1 pair.2) ∧
    clash clashDepth (.star listed) scoreChange = false ∧
    (privateContext, []) ∈ ends placeholder none privateContext := by
  decide +kernel

theorem phrase_of_mem {p : Pattern} (hp : p ∈ phrases) : Phrase p :=
  (patterns_separated.1 p hp).1

theorem apart_of_mem {p : Pattern} (hp : p ∈ phrases) {word : String}
    (hword : word ∈ plantedWords) :
    Sealed p (.literal word) ∧ UnenteredAtEdges (.literal word) p :=
  (patterns_separated.1 p hp).2 word hword

theorem replaceable_of_mem {q : Pattern} (hq : q ∈ privatePhrases ++ [residualScores]) :
    headed q = true ∧ nullable q = false :=
  patterns_separated.2.1 q hq

theorem unentered_of_mem {p q : Pattern} (h : (p, q) ∈ unenteredPairs) : Unentered p q :=
  patterns_separated.2.2.1 _ h

theorem sealed_of_mem {p q : Pattern} (h : (p, q) ∈ sealedPairs) : Sealed p q :=
  patterns_separated.2.2.2.1 _ h

theorem plantedWord_of_mem {word : String} (hword : word ∈ plantedWords) :
    PlantedWord word.toList := by
  rcases List.mem_cons.mp hword with rfl | hword
  · exact plantedWord_privateContext
  · rw [List.mem_singleton.mp hword]
    exact plantedWord_overlapNote

theorem clear_of_mem {p : Pattern} (hp : p ∈ phrases) {word : String}
    (hword : word ∈ plantedWords) : Clear p word.toList := by
  obtain ⟨hsealed, hedges⟩ := apart_of_mem hp hword
  exact clear_of_sealed hsealed hedges (phrase_of_mem hp).edged (plantedWord_of_mem hword).ne_nil

theorem clear_privateContext {p : Pattern} (hp : p ∈ phrases) : Clear p privateContext :=
  clear_of_mem hp List.mem_cons_self

theorem clear_overlapNote {p : Pattern} (hp : p ∈ phrases) : Clear p overlapNote :=
  clear_of_mem hp (List.mem_cons_of_mem _ (List.mem_singleton_self _))

theorem test_redactPhrases_eq_false {p : Pattern} (hp : p ∈ privatePhrases ++ [likelyDuplicate])
    (value : Text) : test p (redactPhrases value) = false := by
  have hmem : p ∈ phrases := by
    rw [phrases]
    rcases List.mem_append.mp hp with hp | hp
    · exact List.mem_append_left _ hp
    · exact List.mem_append_right _ (List.mem_cons.mpr (Or.inl (List.mem_singleton.mp hp)))
  have hfold : ∀ (list : List Pattern) (text : Text),
      (∀ q ∈ list, headed q = true ∧ nullable q = false) → p ∈ list ∨ test p text = false →
      test p (list.foldl (fun text q => replaceAll q privateContext text) text) = false := by
    intro list
    induction list with
    | nil => exact fun text _ h => h.resolve_left List.not_mem_nil
    | cons q list ih =>
      intro text hall h
      rw [List.foldl_cons]
      obtain ⟨⟨hq, hne⟩, hrest⟩ := List.forall_mem_cons.mp hall
      refine ih _ hrest ?_
      by_cases hin : p ∈ list
      · exact Or.inl hin
      · refine Or.inr (test_replaceAll_eq_false (phrase_of_mem hmem) plantedWord_privateContext
          (clear_privateContext hmem) hq hne ?_)
        exact h.imp_left fun hcons => (List.mem_cons.mp hcons).resolve_right hin
  unfold redactPhrases
  refine test_replaceAll_eq_false (phrase_of_mem hmem) plantedWord_overlapNote
    (clear_overlapNote hmem) rfl rfl ?_
  rcases List.mem_append.mp hp with hp | hp
  · exact Or.inr (hfold _ _ (fun _ => replaceable_of_mem) (Or.inl (List.mem_append_left _ hp)))
  · exact Or.inl (List.mem_singleton.mp hp)

/-! ## The term "reviewability" -/

/-- No match starts here but the command's. -/
def FreeTerm (seen text : Text) : Prop :=
  ∀ m post, text = m ++ post → Matches reviewability (before none seen) m post →
    followsMention seen = true

def TakenTerm (seen m post : Text) : Prop :=
  Matches reviewability (before none seen) m post ∧ followsMention seen = false

theorem phrase_reviewability : Phrase reviewability :=
  phrase_of_mem (List.mem_append_right _ (List.mem_cons_of_mem _ (List.mem_singleton_self _)))

theorem unentered_reviewability : Unentered reviewability reviewability :=
  unentered_of_mem (by simp [unenteredPairs])

theorem rewritten_sanitizeReviewabilityFrom {fuel : ℕ} {seen text : Text}
    (hfuel : text.length < fuel) :
    Rewritten FreeTerm TakenTerm privateContext seen text
      (sanitizeReviewabilityFrom fuel seen text) := by
  induction fuel generalizing seen text with
  | zero => exact absurd hfuel (Nat.not_lt_zero _)
  | succ fuel ih =>
    unfold sanitizeReviewabilityFrom
    cases hends : ends reviewability (before none seen) text with
    | nil =>
      cases text with
      | nil => exact Rewritten.nil seen
      | cons c rest =>
        refine Rewritten.keep ?_ (ih (Nat.lt_of_succ_lt_succ hfuel))
        exact fun m post htext hmatch => absurd hmatch (free_of_ends_eq_nil hends m post htext)
    | cons found others =>
      obtain ⟨m, post⟩ := found
      have hmem : (m, post) ∈ ends reviewability (before none seen) text := by
        rw [hends]
        exact List.mem_cons_self
      obtain ⟨rfl, hmatch⟩ := (mem_ends_iff _ _ _ _ _).mp hmem
      have hm := ne_nil_of_matches hmatch phrase_reviewability.nonempty
      cases m with
      | nil => exact absurd rfl hm
      | cons c m =>
        have hrest : Rewritten FreeTerm TakenTerm privateContext (seen ++ c :: m) post
            (sanitizeReviewabilityFrom fuel (seen ++ c :: m) post) := by
          refine ih ?_
          rw [List.length_append, List.length_cons] at hfuel
          omega
        dsimp only
        cases hmention : followsMention seen with
        | false => exact Rewritten.plant ⟨hmatch, hmention⟩ hrest
        | true =>
          refine Rewritten.keep_stretch (fun u v hsplit hv => ?_) hrest
          by_cases hu : u = []
          · rw [hu, List.append_nil]
            exact fun _ _ _ _ => hmention
          · intro n rest htext hinner
            exact absurd htext (unentered_reviewability.not_inside hmatch hsplit hu hv
              (ne_nil_of_matches hinner phrase_reviewability.nonempty) hinner)

theorem rewritten_sanitizeReviewabilityTerm (text : Text) :
    Rewritten FreeTerm TakenTerm privateContext [] text (sanitizeReviewabilityTerm text) :=
  rewritten_sanitizeReviewabilityFrom (Nat.lt_succ_self _)

theorem heads_takenTerm : Heads TakenTerm privateContext := by
  intro seen m post htaken rest rest'
  obtain ⟨-, c, m', rfl, hc⟩ := edge_of_edged phrase_reviewability.edged htaken.1
  rw [plantedWord_privateContext.head]
  exact hc

theorem followsMention_iff {seen : Text} :
    followsMention seen = true ↔ mention <:+ seen.map Pattern.lowerOf := by
  rw [followsMention, List.isSuffixOf_iff_suffix, List.map_drop]
  constructor
  · exact fun h => h.trans (List.drop_suffix _ _)
  · intro h
    refine List.suffix_of_suffix_length_le h (List.drop_suffix _ _) ?_
    have hlength := h.length_le
    rw [List.length_map] at hlength
    rw [List.length_drop, List.length_map]
    omega

theorem followsMention_append {u : Text} (hu : mention.length ≤ u.length) (s : Text) :
    followsMention (s ++ u) = followsMention u := by
  unfold followsMention
  have hlength : (s ++ u).length - mention.length = s.length + (u.length - mention.length) := by
    rw [List.length_append]
    omega
  rw [hlength, List.drop_length_add_append]

theorem eq_at_of_lowerOf {c : Char} (h : Pattern.lowerOf c = '@') : c = '@' := by
  unfold Pattern.lowerOf at h
  split_ifs at h with hupper
  · have hcapital : ∀ n ≤ 90, 65 ≤ n → Char.ofNat (n + 32) ≠ '@' := by decide
    exact absurd h (hcapital c.toNat hupper.2 hupper.1)
  · exact h

def mentioned : Pattern := .literalNoCase "@gittensory "

/-- No match shares a letter with a mention. -/
structure OffMention (q : Pattern) : Prop where
  nonempty : nullable q = false
  avoided : avoids '@' q = true
  after : Sealed mentioned q

instance (q : Pattern) : Decidable (OffMention q) :=
  decidable_of_iff (nullable q = false ∧ avoids '@' q = true ∧ Sealed mentioned q)
    ⟨fun h => ⟨h.1, h.2.1, h.2.2⟩, fun h => ⟨h.nonempty, h.avoided, h.after⟩⟩

/-- No mention reaches over such a match. -/
theorem OffMention.followsMention {q : Pattern} (hq : OffMention q) {prev : Option Char}
    {x post : Text} (hx : Matches q prev x post) {u b : Text} (hpost : post = u ++ b)
    (hu : u.length < mention.length) (s : Text) : followsMention (s ++ (x ++ u)) = false := by
  by_contra h
  rw [Bool.not_eq_false, followsMention_iff] at h
  obtain ⟨front, hfront⟩ := h
  obtain ⟨a, w, hsplit, -, hw⟩ := List.map_eq_append_iff.mp hfront.symm
  have hlength := congrArg List.length hw
  rw [List.length_map] at hlength
  rw [← List.append_assoc] at hsplit
  -- The mention is as long as `w`, so it starts in `x` or before it.
  rcases List.append_eq_append_iff.mp hsplit with ⟨c, -, hu'⟩ | ⟨v, hseen, hw'⟩
  · rw [hu', List.length_append] at hu
    omega
  · have hv : v ≠ [] := by
      rintro rfl
      rw [hw', List.nil_append] at hlength
      omega
    rcases List.append_eq_append_iff.mp hseen with ⟨c, -, hx'⟩ | ⟨c, -, hv'⟩
    · obtain ⟨d, v, rfl⟩ := List.exists_cons_of_ne_nil hv
      have hat : d = '@' := by
        rw [hw', List.cons_append, List.map_cons] at hw
        exact eq_at_of_lowerOf (List.cons.inj hw).1
      refine hx.not_mem_of_avoids hq.avoided ?_
      rw [hx', hat]
      exact List.mem_append_right _ List.mem_cons_self
    · have hmention : Matches mentioned none w b := matches_literalNoCase_of_lower hw none b
      have hne := ne_nil_of_matches hx hq.nonempty
      rw [hv', List.append_assoc] at hw'
      refine hq.after.not_within hmention hw' (fun hnil => ?_) hne hx ?_
      · exact hne (List.append_eq_nil_iff.mp hnil).1
      · rw [hpost, List.append_assoc]

theorem offMention_of_mem {q : Pattern} (hq : q ∈ redactionPatterns) : OffMention q := by
  have hall : ∀ q ∈ redactionPatterns, OffMention q := by decide +kernel
  exact hall q hq

theorem offMention_plantedWord {word : String} (hword : word ∈ plantedWords) :
    OffMention (.literal word) := by
  have hall : ∀ word ∈ plantedWords, OffMention (.literal word) := by decide +kernel
  exact hall word hword

/-- The mention before a place is kept, and none is made. -/
theorem followsMention_congr {taken : Text → Text → Text → Prop} {word : String}
    (hword : word ∈ plantedWords) {q : Pattern} (hq : OffMention q)
    (htaken : ∀ seen m post, taken seen m post → Matches q (before none seen) m post)
    {a a' b : Text} (h : Lined taken word.toList [] a a' b) :
    followsMention a = followsMention a' := by
  rcases h with rfl | ⟨s, m, o, u, rfl, rfl, hfound⟩
  · rfl
  · by_cases hu : mention.length ≤ u.length
    · rw [← List.append_assoc, ← List.append_assoc, followsMention_append hu,
        followsMention_append hu]
    · have hliteral : Matches (.literal word) none word.toList (u ++ b) :=
        matches_literal_iff.mpr rfl
      rw [hq.followsMention (htaken _ _ _ hfound) rfl (Nat.not_le.mp hu),
        (offMention_plantedWord hword).followsMention hliteral rfl (Nat.not_le.mp hu)]

/-- A "reviewability" in the text that results stood in the text before, after a mention or not. -/
theorem reviewability_back {free : Text → Text → Prop} {taken : Text → Text → Text → Prop}
    {word : String} (hword : word ∈ plantedWords) {q : Pattern} (hq : OffMention q)
    (htaken : ∀ seen m post, taken seen m post → Matches q (before none seen) m post)
    (hheads : Heads taken word.toList) {t t' : Text}
    (h : Rewritten free taken word.toList [] t t') {a' m b' : Text} (ht' : t' = a' ++ (m ++ b'))
    (hmatch : Matches reviewability (before none a') m b') :
    ∃ a b, t = a ++ (m ++ b) ∧ free a (m ++ b) ∧ Matches reviewability (before none a) m b ∧
      Rewritten free taken word.toList (a ++ m) b b' ∧ followsMention a = followsMention a' := by
  have hmem : reviewability ∈ phrases :=
    List.mem_append_right _ (List.mem_cons_of_mem _ (List.mem_singleton_self _))
  obtain ⟨a, b, ht, hfree, hmatch, hb, hlined⟩ := h.phrase_back phrase_reviewability
    (plantedWord_of_mem hword) (clear_of_mem hmem hword) hheads ht' hmatch
  exact ⟨a, b, ht, hfree, hmatch, hb, followsMention_congr hword hq htaken hlined⟩

/-! ## A letter that nothing searched for reads -/

/-- A letter that is in no match and in no mention. -/
structure Separator (sep : Char) : Prop where
  word : isWordChar sep = false
  mention : Pattern.lowerOf sep ∉ mention
  avoided : ∀ q ∈ redactionPatterns, avoids sep q = true

theorem searchable_of_mem {q : Pattern} (hq : q ∈ redactionPatterns) :
    anchorFree q = true ∧ nullable q = false := by
  have hall : ∀ q ∈ redactionPatterns, anchorFree q = true ∧ nullable q = false := by decide
  exact hall q hq

section Separated

variable {sep : Char}

theorem followsMention_separator (hsep : Separator sep) (s u : Text) :
    followsMention (s ++ sep :: u) = followsMention u := by
  rw [Bool.eq_iff_iff, followsMention_iff, followsMention_iff, List.map_append, List.map_cons]
  constructor
  · rintro ⟨front, hfront⟩
    rw [← List.append_nil mention] at hfront
    rcases split_at_separator hsep.mention hfront.symm with ⟨d, -, hnil⟩ | ⟨c, -, hu⟩
    · exact absurd hnil.symm (List.append_ne_nil_of_right_ne_nil _ (List.cons_ne_nil _ _))
    · rw [List.append_nil] at hu
      exact ⟨c, hu.symm⟩
  · exact fun h => h.trans ((List.suffix_cons _ _).trans (List.suffix_append _ _))

theorem reviewability_mem : reviewability ∈ redactionPatterns := by
  rw [redactionPatterns, List.append_cons, List.append_cons]
  exact List.mem_append_right _ List.mem_cons_self

/-- What was read matters as far as a match and a mention look back. -/
theorem sanitizeReviewabilityFrom_congr {seen seen' text : Text} {fuel fuel' : ℕ}
    (hedge : wordAt (before none seen) = wordAt (before none seen'))
    (hmention : ∀ u, followsMention (seen ++ u) = followsMention (seen' ++ u))
    (hfuel : text.length < fuel) (hfuel' : text.length < fuel') :
    sanitizeReviewabilityFrom fuel seen text = sanitizeReviewabilityFrom fuel' seen' text := by
  induction fuel generalizing fuel' seen seen' text with
  | zero => exact absurd hfuel (Nat.not_lt_zero _)
  | succ fuel ih =>
    cases fuel' with
    | zero => exact absurd hfuel' (Nat.not_lt_zero _)
    | succ fuel' =>
      have hends := ends_congr phrase_reviewability.anchorFree hedge text
      have hnow := hmention []
      rw [List.append_nil, List.append_nil] at hnow
      have hlater : ∀ m u,
          followsMention ((seen ++ m) ++ u) = followsMention ((seen' ++ m) ++ u) := by
        intro m u
        rw [List.append_assoc, List.append_assoc, hmention]
      have hedge' : ∀ m, wordAt (before none (seen ++ m)) = wordAt (before none (seen' ++ m)) := by
        intro m
        rw [before_append, before_append]
        exact wordAt_before_congr hedge m
      unfold sanitizeReviewabilityFrom
      rw [← hends]
      rcases head_ends_cases phrase_reviewability.nonempty (before none seen) text with
        hnone | ⟨c, m, post, others, rfl, hfound⟩
      · rw [hnone]
        cases text with
        | nil => rfl
        | cons d rest =>
          exact congrArg (d :: ·) (ih (hedge' [d]) (hlater [d]) (Nat.lt_of_succ_lt_succ hfuel)
            (Nat.lt_of_succ_lt_succ hfuel'))
      · rw [hfound]
        rw [List.length_append, List.length_cons] at hfuel hfuel'
        have hrest := @ih (seen ++ c :: m) (seen' ++ c :: m) post fuel' (hedge' (c :: m))
          (hlater (c :: m)) (by omega) (by omega)
        dsimp only
        rw [hnow, hrest]

theorem sanitizeReviewabilityFrom_separator (hsep : Separator sep) {seen a b : Text}
    {fuel fuel' rounds : ℕ} (hfuel : a.length < fuel) (hfuel' : (a ++ sep :: b).length < fuel')
    (hrounds : b.length < rounds) :
    sanitizeReviewabilityFrom fuel' seen (a ++ sep :: b) =
      sanitizeReviewabilityFrom fuel seen a ++ sep :: sanitizeReviewabilityFrom rounds [] b := by
  have hafter : ∀ fuel' seen, b.length < fuel' →
      sanitizeReviewabilityFrom fuel' (seen ++ [sep]) b =
        sanitizeReviewabilityFrom rounds [] b := by
    intro fuel' seen hfuel'
    refine sanitizeReviewabilityFrom_congr ?_ (fun u => ?_) hfuel' hrounds
    · rw [before_append_singleton]
      exact hsep.word
    · rw [List.append_assoc, List.singleton_append, followsMention_separator hsep, List.nil_append]
  generalize sanitizeReviewabilityFrom rounds [] b = after at hafter ⊢
  induction fuel generalizing fuel' seen a with
  | zero => exact absurd hfuel (Nat.not_lt_zero _)
  | succ fuel ih =>
    cases fuel' with
    | zero => exact absurd hfuel' (Nat.not_lt_zero _)
    | succ fuel' =>
      have hends := ends_separator (b := b) phrase_reviewability.anchorFree
        (hsep.avoided _ reviewability_mem) hsep.word (before none seen) a
      unfold sanitizeReviewabilityFrom
      rw [hends]
      rcases head_ends_cases phrase_reviewability.nonempty (before none seen) a with
        hnone | ⟨c, m, post, others, rfl, hfound⟩
      · rw [hnone]
        cases a with
        | nil => exact congrArg (sep :: ·) (hafter fuel' seen (Nat.lt_of_succ_lt_succ hfuel'))
        | cons d rest =>
          exact congrArg (d :: ·)
            (ih (Nat.lt_of_succ_lt_succ hfuel) (Nat.lt_of_succ_lt_succ hfuel'))
      · rw [hfound]
        rw [List.length_append, List.length_cons] at hfuel
        rw [List.length_append, List.length_append, List.length_cons] at hfuel'
        refine (congrArg (_ ++ ·) (@ih (seen ++ c :: m) post fuel' (by omega) ?_)).trans
          (List.append_assoc _ _ _).symm
        rw [List.length_append]
        omega

/-- A comment is redacted piece by piece between such letters. -/
theorem sanitizePublicComment_separator (hsep : Separator sep) (a b : Text) :
    sanitizePublicComment (a ++ sep :: b) =
      sanitizePublicComment a ++ sep :: sanitizePublicComment b := by
  have hreplace : ∀ q ∈ redactionPatterns, ∀ planted a b : Text,
      replaceAll q planted (a ++ sep :: b) =
        replaceAll q planted a ++ sep :: replaceAll q planted b :=
    fun q hq => replaceAll_separator (searchable_of_mem hq).1 (hsep.avoided q hq) hsep.word
      (searchable_of_mem hq).2
  have hfold : ∀ (list : List Pattern) (a b : Text), (∀ q ∈ list, q ∈ redactionPatterns) →
      list.foldl (fun text q => replaceAll q privateContext text) (a ++ sep :: b) =
        list.foldl (fun text q => replaceAll q privateContext text) a ++
          sep :: list.foldl (fun text q => replaceAll q privateContext text) b := by
    intro list
    induction list with
    | nil => exact fun a b _ => rfl
    | cons q list ih =>
      intro a b hall
      obtain ⟨hq, hrest⟩ := List.forall_mem_cons.mp hall
      rw [List.foldl_cons, hreplace q hq, ih _ _ hrest, List.foldl_cons, List.foldl_cons]
  have hphrases : redactPhrases (a ++ sep :: b) = redactPhrases a ++ sep :: redactPhrases b := by
    unfold redactPhrases
    rw [hfold _ a b fun q hq => ?_, hreplace likelyDuplicate (by simp [redactionPatterns])]
    rw [redactionPatterns, List.append_cons]
    exact List.mem_append_left _ hq
  have hterm := @sanitizeReviewabilityFrom_separator _ hsep [] (redactPhrases a) (redactPhrases b)
    _ _ _ (Nat.lt_succ_self _) (Nat.lt_succ_self _) (Nat.lt_succ_self _)
  unfold sanitizePublicComment
  rw [hphrases, sanitizeReviewabilityTerm, hterm, hreplace placeholderList
    (by simp [redactionPatterns])]
  rfl

end Separated

end Gittensory.PublicComment
