import Gittensory.TextPattern
import Mathlib.Tactic.MkIffOfInductiveProp

/-!
Replacing every match of a pattern by a marker. The text that results is read as a list of
signs, letters and redactions. Between redactions no match is left of a pattern whose
matches stand at word edges; a keyword found in the result stands in letters that were
there before, or inside a marker.
-/
namespace Gittensory.Redaction

open TextPattern

section Inversions

variable {prev : Option Char} {m post : Text}

theorem matches_seq_iff {first second : Pattern} :
    Matches (.seq first second) prev m post ↔ ∃ x y, m = x ++ y ∧
      Matches first prev x (y ++ post) ∧ Matches second (before prev x) y post := by
  constructor
  · intro h
    cases h with
    | @seq _ _ _ x y _ hfirst hsecond => exact ⟨x, y, rfl, hfirst, hsecond⟩
  · rintro ⟨x, y, rfl, hfirst, hsecond⟩
    exact Matches.seq hfirst hsecond

theorem matches_alt_iff {left right : Pattern} :
    Matches (.alt left right) prev m post ↔
      Matches left prev m post ∨ Matches right prev m post := by
  constructor
  · intro h
    cases h with
    | altLeft h => exact Or.inl h
    | altRight h => exact Or.inr h
  · intro h
    rcases h with h | h
    · exact Matches.altLeft h
    · exact Matches.altRight h

theorem matches_alts_iff {choices : List Pattern} :
    Matches (.alts choices) prev m post ↔ ∃ p ∈ choices, Matches p prev m post := by
  induction choices with
  | nil =>
    constructor
    · intro h
      cases h with
      | char _ c _ hc => cases hc
    · rintro ⟨p, hp, -⟩
      exact absurd hp List.not_mem_nil
  | cons p choices ih =>
    unfold Pattern.alts at ih ⊢
    rw [List.foldr_cons, matches_alt_iff, ih]
    simp

theorem matches_wordBoundary_iff :
    Matches .wordBoundary prev m post ↔ m = [] ∧ wordAt prev ≠ wordAt post.head? := by
  constructor
  · intro h
    cases h with
    | wordBoundary _ _ hedge => exact ⟨rfl, hedge⟩
  · rintro ⟨rfl, hedge⟩
    exact Matches.wordBoundary _ _ hedge

theorem matches_empty_iff : Matches .empty prev m post ↔ m = [] := by
  constructor
  · intro h
    cases h
    rfl
  · rintro rfl
    exact Matches.empty _ _

theorem before_ne_none (c : Char) (text : Text) : before none (c :: text) ≠ none := by
  rw [before]
  induction text generalizing c with
  | nil => exact Option.some_ne_none c
  | cons d text ih => exact ih d

theorem matches_char_iff {set : CharSet} :
    Matches (.char set) prev m post ↔ ∃ c, m = [c] ∧ set.accepts c = true := by
  constructor
  · intro h
    cases h with
    | char _ c _ hc => exact ⟨c, rfl, hc⟩
  · rintro ⟨c, rfl, hc⟩
    exact Matches.char _ c _ hc

theorem matches_star_char_iff {set : CharSet} :
    Matches (.star (.char set)) prev m post ↔ ∀ c ∈ m, set.accepts c = true := by
  induction m generalizing prev with
  | nil => exact ⟨fun _ => nofun, fun _ => Matches.starNil prev post⟩
  | cons c m ih =>
    constructor
    · generalize htext : c :: m = text
      intro h
      cases h with
      | starNil => cases htext
      | starCons hne hbody hrest =>
        obtain ⟨d, rfl, hd⟩ := matches_char_iff.mp hbody
        obtain ⟨rfl, rfl⟩ := List.cons.inj htext
        exact List.forall_mem_cons.mpr ⟨hd, ih.mp hrest⟩
    · intro h
      obtain ⟨hc, hall⟩ := List.forall_mem_cons.mp h
      exact Matches.starCons (List.cons_ne_nil c []) (Matches.char prev c _ hc) (ih.mpr hall)

/-- `^(?:...)$` reads the whole text. -/
theorem test_anchored_iff (p : Pattern) (text : Text) :
    test (.seq .start (.seq p .stop)) text = true ↔ Matches p none text [] := by
  rw [test_iff]
  constructor
  · rintro ⟨a, m, b, htext, h⟩
    obtain ⟨x, y, rfl, hstart, hrest⟩ := matches_seq_iff.mp h
    obtain ⟨u, v, rfl, hbody, hstop⟩ := matches_seq_iff.mp hrest
    generalize hprev : before none a = prev at hstart hbody hstop
    cases hstart
    cases hstop
    cases a with
    | nil => simpa [htext, before] using hbody
    | cons c a => exact absurd hprev (before_ne_none c a)
  · intro h
    refine ⟨[], text, [], by simp, matches_seq_iff.mpr ⟨[], text, rfl, Matches.start _, ?_⟩⟩
    exact matches_seq_iff.mpr ⟨text, [], by simp, by simpa [before] using h, Matches.stop _⟩

/-- What a match of a pattern without boundaries and anchors reads does not depend on what
stands around it. -/
def plain : Pattern → Bool
  | .seq first second => plain first && plain second
  | .alt left right => plain left && plain right
  | .star body => plain body
  | .wordBoundary => false
  | .start => false
  | .stop => false
  | _ => true

theorem matches_of_plain {p : Pattern} (h : Matches p prev m post) (hplain : plain p = true)
    (prev' : Option Char) (post' : Text) : Matches p prev' m post' := by
  induction h generalizing prev' post' with
  | empty => exact Matches.empty _ _
  | char prev c post hc => exact Matches.char _ c _ hc
  | seq hfirst hsecond ihFirst ihSecond =>
    simp only [plain, Bool.and_eq_true] at hplain
    exact Matches.seq (ihFirst hplain.1 _ _) (ihSecond hplain.2 _ _)
  | altLeft h ih =>
    simp only [plain, Bool.and_eq_true] at hplain
    exact Matches.altLeft (ih hplain.1 _ _)
  | altRight h ih =>
    simp only [plain, Bool.and_eq_true] at hplain
    exact Matches.altRight (ih hplain.2 _ _)
  | starNil => exact Matches.starNil _ _
  | starCons hne hbody hrest ihBody ihRest =>
    exact Matches.starCons hne (ihBody hplain _ _) (ihRest hplain _ _)
  | wordBoundary => cases hplain
  | start => cases hplain
  | stop => cases hplain

end Inversions

section Gaps

/-- `{0,n}`, greedy. -/
def upTo : ℕ → Pattern → Pattern
  | 0, _ => .empty
  | n + 1, p => .alt (.seq p (upTo n p)) .empty

theorem matches_upTo_iff {set : CharSet} {n : ℕ} {prev : Option Char} {m post : Text} :
    Matches (upTo n (.char set)) prev m post ↔
      m.length ≤ n ∧ ∀ c ∈ m, set.accepts c = true := by
  induction n generalizing prev m with
  | zero =>
    rw [upTo, matches_empty_iff, Nat.le_zero, List.length_eq_zero_iff]
    constructor
    · rintro rfl
      exact ⟨rfl, nofun⟩
    · exact fun h => h.1
  | succ n ih =>
    rw [upTo, matches_alt_iff, matches_seq_iff, matches_empty_iff]
    constructor
    · rintro (⟨x, y, rfl, hfirst, hrest⟩ | rfl)
      · cases hfirst with
        | char _ c _ hc =>
          obtain ⟨hlength, hall⟩ := ih.mp hrest
          refine ⟨Nat.succ_le_succ hlength, ?_⟩
          intro d hd
          rcases List.mem_cons.mp hd with rfl | hd
          · exact hc
          · exact hall d hd
      · exact ⟨Nat.zero_le _, nofun⟩
    · rintro ⟨hlength, hall⟩
      cases m with
      | nil => exact Or.inr rfl
      | cons c m =>
        refine Or.inl ⟨[c], m, rfl, Matches.char _ c _ (hall c List.mem_cons_self), ?_⟩
        exact ih.mpr ⟨Nat.le_of_succ_le_succ hlength,
          fun d hd => hall d (List.mem_cons_of_mem _ hd)⟩

end Gaps

section Words

/-- `\b(?:...)\b` -/
def word (p : Pattern) : Pattern := .seqs [.wordBoundary, p, .wordBoundary]

/-- Every letter of the set is a word letter; the sets of keywords list single letters. -/
def wordSet (set : CharSet) : Bool :=
  !set.negated && set.ranges.all fun range => range.1 == range.2 && isWordChar range.1

theorem isWordChar_of_wordSet {set : CharSet} (h : wordSet set = true) {c : Char}
    (hc : set.accepts c = true) : isWordChar c = true := by
  simp only [wordSet, Bool.and_eq_true, Bool.not_eq_true', List.all_eq_true, beq_iff_eq] at h
  obtain ⟨hneg, hall⟩ := h
  simp only [CharSet.accepts, hneg, Bool.bne_false, List.any_eq_true, decide_eq_true_eq] at hc
  obtain ⟨range, hmem, hlow, hhigh⟩ := hc
  obtain ⟨hsame, hword⟩ := hall range hmem
  rw [← hsame] at hhigh
  rw [le_antisymm hhigh hlow]
  exact hword

/-- Every match starts with a word letter. -/
def startsWord : Pattern → Bool
  | .char set => wordSet set
  | .seq first _ => startsWord first
  | .alt left right => startsWord left && startsWord right
  | _ => false

/-- Every match that is not empty ends with a word letter. -/
def endsWordOrEmpty : Pattern → Bool
  | .empty => true
  | .char set => wordSet set
  | .seq first second => endsWordOrEmpty first && endsWordOrEmpty second
  | .alt left right => endsWordOrEmpty left && endsWordOrEmpty right
  | _ => false

/-- Every match ends with a word letter. -/
def endsWord : Pattern → Bool
  | .char set => wordSet set
  | .seq first second => endsWord second || (endsWord first && endsWordOrEmpty second)
  | .alt left right => endsWord left && endsWord right
  | _ => false

variable {p : Pattern} {prev : Option Char} {m post : Text}

theorem head_of_startsWord (h : Matches p prev m post) (hstarts : startsWord p = true) :
    ∃ c rest, m = c :: rest ∧ isWordChar c = true := by
  induction h with
  | char prev c post hc => exact ⟨c, [], rfl, isWordChar_of_wordSet hstarts hc⟩
  | seq hfirst hsecond ihFirst ihSecond =>
    obtain ⟨c, rest, rfl, hword⟩ := ihFirst hstarts
    exact ⟨c, _, rfl, hword⟩
  | altLeft h ih =>
    simp only [startsWord, Bool.and_eq_true] at hstarts
    exact ih hstarts.1
  | altRight h ih =>
    simp only [startsWord, Bool.and_eq_true] at hstarts
    exact ih hstarts.2
  | _ => cases hstarts

theorem last_of_endsWordOrEmpty (h : Matches p prev m post) (hends : endsWordOrEmpty p = true)
    {c : Char} (hlast : m.getLast? = some c) : isWordChar c = true := by
  induction h with
  | empty => cases hlast
  | char prev d post hd =>
    rw [← Option.some.inj hlast]
    exact isWordChar_of_wordSet hends hd
  | @seq _ _ _ x y _ hfirst hsecond ihFirst ihSecond =>
    simp only [endsWordOrEmpty, Bool.and_eq_true] at hends
    rw [List.getLast?_append] at hlast
    cases hy : y.getLast? with
    | some d =>
      rw [hy] at hlast
      exact ihSecond hends.2 (hy.trans hlast)
    | none =>
      rw [hy] at hlast
      exact ihFirst hends.1 hlast
  | altLeft h ih =>
    simp only [endsWordOrEmpty, Bool.and_eq_true] at hends
    exact ih hends.1 hlast
  | altRight h ih =>
    simp only [endsWordOrEmpty, Bool.and_eq_true] at hends
    exact ih hends.2 hlast
  | _ => cases hends

theorem last_of_endsWord (h : Matches p prev m post) (hends : endsWord p = true) :
    ∃ c, m.getLast? = some c ∧ isWordChar c = true := by
  induction h with
  | char prev c post hc => exact ⟨c, rfl, isWordChar_of_wordSet hends hc⟩
  | @seq _ _ _ x y _ hfirst hsecond ihFirst ihSecond =>
    simp only [endsWord, Bool.or_eq_true, Bool.and_eq_true] at hends
    rw [List.getLast?_append]
    rcases hends with hsecondEnds | ⟨hfirstEnds, hempty⟩
    · obtain ⟨c, hc, hword⟩ := ihSecond hsecondEnds
      exact ⟨c, by rw [hc]; rfl, hword⟩
    · cases hy : y.getLast? with
      | some d => exact ⟨d, rfl, last_of_endsWordOrEmpty hsecond hempty hy⟩
      | none =>
        obtain ⟨c, hc, hword⟩ := ihFirst hfirstEnds
        exact ⟨c, by rw [hc]; rfl, hword⟩
  | altLeft h ih =>
    simp only [endsWord, Bool.and_eq_true] at hends
    exact ih hends.1
  | altRight h ih =>
    simp only [endsWord, Bool.and_eq_true] at hends
    exact ih hends.2
  | _ => cases hends

theorem before_of_getLast? {c : Char} (h : m.getLast? = some c) : before prev m = some c := by
  induction m generalizing prev with
  | nil => cases h
  | cons d rest ih =>
    cases rest with
    | nil => exact h
    | cons e rest =>
      rw [List.getLast?_cons_cons] at h
      exact @ih (some d) h

/-- A pattern of words: it reads the same everywhere, and its matches start and end with a
word letter. -/
@[mk_iff]
structure Keyword (p : Pattern) : Prop where
  plain : plain p = true
  starts : startsWord p = true
  ends : endsWord p = true

instance (p : Pattern) : Decidable (Keyword p) := decidable_of_iff' _ (keyword_iff p)

/-- A keyword between `\b`s is a keyword between letters that belong to no word. -/
theorem Keyword.matches_word_iff (hkey : Keyword p) :
    Matches (word p) prev m post ↔
      Matches p none m [] ∧ wordAt prev = false ∧ wordAt post.head? = false := by
  unfold word Pattern.seqs
  rw [List.foldr_cons, List.foldr_cons, List.foldr_cons, List.foldr_nil]
  constructor
  · intro h
    obtain ⟨x, y, rfl, hfront, hrest⟩ := matches_seq_iff.mp h
    obtain ⟨rfl, hedge⟩ := matches_wordBoundary_iff.mp hfront
    obtain ⟨x, z, rfl, hmatch, hback⟩ := matches_seq_iff.mp hrest
    obtain ⟨e, f, rfl, hback, hempty⟩ := matches_seq_iff.mp hback
    obtain ⟨rfl, hedge'⟩ := matches_wordBoundary_iff.mp hback
    have hf : f = [] := matches_empty_iff.mp hempty
    subst hf
    obtain ⟨c, rest, rfl, hword⟩ := head_of_startsWord hmatch hkey.starts
    obtain ⟨d, hlast, hword'⟩ := last_of_endsWord hmatch hkey.ends
    have hbefore : before (before prev []) (c :: rest) = some d := before_of_getLast? hlast
    rw [hbefore] at hedge'
    have hprev : wordAt prev ≠ isWordChar c := hedge
    have hpost : isWordChar d ≠ wordAt post.head? := hedge'
    rw [hword] at hprev
    rw [hword'] at hpost
    have hread := matches_of_plain hmatch hkey.plain none []
    exact ⟨by simpa using hread, by simpa using hprev, by simpa using hpost.symm⟩
  · rintro ⟨hmatch, hprev, hpost⟩
    obtain ⟨c, rest, hm, hword⟩ := head_of_startsWord hmatch hkey.starts
    obtain ⟨d, hlast, hword'⟩ := last_of_endsWord hmatch hkey.ends
    refine matches_seq_iff.mpr ⟨[], m, rfl, matches_wordBoundary_iff.mpr ⟨rfl, ?_⟩, ?_⟩
    · rw [hm, hprev, List.cons_append, List.head?_cons, wordAt, hword]
      exact Bool.false_ne_true
    refine matches_seq_iff.mpr
      ⟨m, [], (List.append_nil m).symm, matches_of_plain hmatch hkey.plain _ _, ?_⟩
    refine matches_seq_iff.mpr
      ⟨[], [], rfl, matches_wordBoundary_iff.mpr ⟨rfl, ?_⟩, Matches.empty _ _⟩
    have hbefore : before (before prev []) m = some d := before_of_getLast? hlast
    rw [hbefore, wordAt, hword', List.nil_append, hpost]
    exact fun h => Bool.false_ne_true h.symm

/-- A keyword, a gap of at most so many letters of the set, and the rest. -/
def gapped (set : CharSet) (p : Pattern) (limit : ℕ) (rest : Pattern) : Pattern :=
  .seqs [word p, upTo limit (.char set), rest]

/-- At most so many letters, all of the set. -/
def Within (set : CharSet) (limit : ℕ) (g : Text) : Prop :=
  g.length ≤ limit ∧ ∀ c ∈ g, set.accepts c = true

theorem matches_gapped_iff {set : CharSet} {limit : ℕ} {rest : Pattern} :
    Matches (gapped set p limit rest) prev m post ↔ ∃ x g y, m = x ++ (g ++ y) ∧
      Matches (word p) prev x (g ++ (y ++ post)) ∧ Within set limit g ∧
      Matches rest (before (before prev x) g) y post := by
  unfold gapped Pattern.seqs
  rw [List.foldr_cons, List.foldr_cons, List.foldr_cons, List.foldr_nil]
  constructor
  · intro h
    obtain ⟨x, z, rfl, hword, hrest⟩ := matches_seq_iff.mp h
    obtain ⟨g, y', rfl, hgap, hrest⟩ := matches_seq_iff.mp hrest
    obtain ⟨y, e, rfl, hrest, hempty⟩ := matches_seq_iff.mp hrest
    have he : e = [] := matches_empty_iff.mp hempty
    subst he
    rw [List.append_nil, List.append_assoc] at hword
    rw [List.nil_append] at hrest
    exact ⟨x, g, y, by rw [List.append_nil], hword, matches_upTo_iff.mp hgap, hrest⟩
  · rintro ⟨x, g, y, rfl, hword, hgap, hrest⟩
    refine matches_seq_iff.mpr ⟨x, g ++ y, rfl, by rwa [List.append_assoc], ?_⟩
    refine matches_seq_iff.mpr ⟨g, y, rfl, matches_upTo_iff.mpr hgap, ?_⟩
    exact matches_seq_iff.mpr ⟨y, [], (List.append_nil y).symm, hrest, Matches.empty _ _⟩

end Words

section Signs

/-- A marker stands between two letters that belong to no word. -/
structure Marker where
  opening : Char
  inner : Text
  closing : Char
  opening_edge : isWordChar opening = false
  closing_edge : isWordChar closing = false

def Marker.text (marker : Marker) : Text := marker.opening :: (marker.inner ++ [marker.closing])

/-- A redacted text: letters as they were, and redactions. -/
inductive Sign where
  | letter (c : Char)
  | redaction
  deriving DecidableEq, Repr

def render (marker : Marker) (signs : List Sign) : Text :=
  signs.flatMap fun
    | .letter c => [c]
    | .redaction => marker.text

def letterSigns (text : Text) : List Sign := text.map .letter

variable (marker : Marker)

@[simp] theorem render_nil : render marker [] = [] := rfl

@[simp] theorem render_letter (c : Char) (signs : List Sign) :
    render marker (.letter c :: signs) = c :: render marker signs := rfl

@[simp] theorem render_redaction (signs : List Sign) :
    render marker (.redaction :: signs) = marker.text ++ render marker signs := rfl

@[simp] theorem render_append (first second : List Sign) :
    render marker (first ++ second) = render marker first ++ render marker second :=
  List.flatMap_append

@[simp] theorem render_letterSigns (text : Text) : render marker (letterSigns text) = text := by
  induction text with
  | nil => rfl
  | cons c rest ih => exact congrArg (List.cons c) ih

theorem render_length_le (signs : List Sign) : signs.length ≤ (render marker signs).length := by
  induction signs with
  | nil => exact Nat.le_refl 0
  | cons sign signs ih =>
    cases sign with
    | letter c => exact Nat.succ_le_succ ih
    | redaction =>
      rw [render_redaction, List.length_append, List.length_cons, Marker.text, List.length_cons]
      omega

/-- Signs shorter than a marker are letters. -/
theorem eq_letterSigns {signs : List Sign} (h : Sign.redaction ∉ signs) :
    signs = letterSigns (render marker signs) := by
  induction signs with
  | nil => rfl
  | cons sign signs ih =>
    cases sign with
    | letter c =>
      have hrest := ih fun hmem => h (List.mem_cons_of_mem _ hmem)
      rw [render_letter]
      exact congrArg (List.cons (.letter c)) hrest
    | redaction => exact absurd List.mem_cons_self h

theorem length_le_render {signs : List Sign} (h : Sign.redaction ∈ signs) :
    marker.text.length ≤ (render marker signs).length := by
  obtain ⟨first, second, rfl⟩ := List.append_of_mem h
  rw [render_append, render_redaction, List.length_append, List.length_append]
  omega

theorem letterSigns_append (first second : Text) :
    letterSigns (first ++ second) = letterSigns first ++ letterSigns second := List.map_append

end Signs

section Scanning

variable (p : Pattern)

/-- The signs that `replaceFrom` makes of a text. -/
def scanFrom : ℕ → Option Char → Text → List Sign
  | 0, _, text => letterSigns text
  | fuel + 1, prev, text =>
      match ends p prev text, text with
      | (c :: m, post) :: _, _ => .redaction :: scanFrom fuel (before prev (c :: m)) post
      | ([], _) :: _, [] => [.redaction]
      | ([], _) :: _, d :: rest => .redaction :: .letter d :: scanFrom fuel (some d) rest
      | [], [] => []
      | [], d :: rest => .letter d :: scanFrom fuel (some d) rest

/-- The matches of the pattern in a text, from left to right, as redactions. -/
def scan (text : Text) : List Sign := scanFrom p (text.length + 1) none text

theorem replaceFrom_eq_render (marker : Marker) (fuel : ℕ) (prev : Option Char) (text : Text) :
    replaceFrom p marker.text fuel prev text = render marker (scanFrom p fuel prev text) := by
  induction fuel generalizing prev text with
  | zero => exact (render_letterSigns marker text).symm
  | succ fuel ih =>
    unfold replaceFrom scanFrom
    cases hends : ends p prev text with
    | nil =>
      cases text with
      | nil => rfl
      | cons d rest => simp [ih]
    | cons found more =>
      obtain ⟨m, post⟩ := found
      cases m with
      | nil =>
        cases text with
        | nil => simp
        | cons d rest => simp [ih]
      | cons c m => simp [ih]

theorem replaceAll_eq_render (marker : Marker) (text : Text) :
    replaceAll p marker.text text = render marker (scan p text) :=
  replaceFrom_eq_render p marker _ none text

variable {p}

/-- Matches start and end with a word letter and stand at the edges of words. -/
structure WordBounded (p : Pattern) : Prop where
  first : ∀ {prev m post}, Matches p prev m post →
    wordAt prev = false ∧ ∃ c rest, m = c :: rest ∧ isWordChar c = true
  last : ∀ {prev m post}, Matches p prev m post →
    wordAt post.head? = false ∧ ∃ c, m.getLast? = some c ∧ isWordChar c = true

theorem Keyword.wordBounded (hkey : Keyword p) : WordBounded (word p) where
  first := by
    intro prev m post h
    obtain ⟨hread, hprev, -⟩ := hkey.matches_word_iff.mp h
    exact ⟨hprev, head_of_startsWord hread hkey.starts⟩
  last := by
    intro prev m post h
    obtain ⟨hread, -, hpost⟩ := hkey.matches_word_iff.mp h
    exact ⟨hpost, last_of_endsWord hread hkey.ends⟩

theorem wordBounded_gapped (hkey : Keyword p) {set : CharSet} {limit : ℕ} {rest : Pattern}
    (hrest : WordBounded rest) : WordBounded (gapped set p limit rest) where
  first := by
    intro prev m post h
    obtain ⟨x, g, y, rfl, hword, -, -⟩ := matches_gapped_iff.mp h
    obtain ⟨hprev, c, tail, rfl, hc⟩ := hkey.wordBounded.first hword
    exact ⟨hprev, c, _, rfl, hc⟩
  last := by
    intro prev m post h
    obtain ⟨x, g, y, rfl, -, -, hy⟩ := matches_gapped_iff.mp h
    obtain ⟨hpost, c, hlast, hc⟩ := hrest.last hy
    refine ⟨hpost, c, ?_, hc⟩
    rw [List.getLast?_append, List.getLast?_append, hlast]
    rfl

theorem wordBounded_alts {choices : List Pattern} (h : ∀ p ∈ choices, WordBounded p) :
    WordBounded (.alts choices) where
  first := by
    intro prev m post hmatch
    obtain ⟨p, hp, hmatch⟩ := matches_alts_iff.mp hmatch
    exact (h p hp).first hmatch
  last := by
    intro prev m post hmatch
    obtain ⟨p, hp, hmatch⟩ := matches_alts_iff.mp hmatch
    exact (h p hp).last hmatch

theorem WordBounded.ne_nil (hp : WordBounded p) {prev : Option Char} {m post : Text}
    (h : Matches p prev m post) : m ≠ [] := by
  obtain ⟨-, c, rest, rfl, -⟩ := hp.first h
  exact List.cons_ne_nil _ _

theorem scanFrom_succ (fuel : ℕ) (prev : Option Char) (text : Text) :
    scanFrom p (fuel + 1) prev text =
      match ends p prev text, text with
      | (c :: m, post) :: _, _ => .redaction :: scanFrom p fuel (before prev (c :: m)) post
      | ([], _) :: _, [] => [.redaction]
      | ([], _) :: _, d :: rest => .redaction :: .letter d :: scanFrom p fuel (some d) rest
      | [], [] => []
      | [], d :: rest => .letter d :: scanFrom p fuel (some d) rest := rfl

/-- A round of the scan. -/
theorem scanFrom_cases (hp : WordBounded p) (fuel : ℕ) (prev : Option Char) (text : Text) :
    (∃ m post, text = m ++ post ∧ Matches p prev m post ∧
        scanFrom p (fuel + 1) prev text = .redaction :: scanFrom p fuel (before prev m) post) ∨
      (∀ m post, text = m ++ post → ¬ Matches p prev m post) ∧
        ((text = [] ∧ scanFrom p (fuel + 1) prev text = []) ∨
          ∃ d rest, text = d :: rest ∧
            scanFrom p (fuel + 1) prev text = .letter d :: scanFrom p fuel (some d) rest) := by
  rw [scanFrom_succ]
  cases hends : ends p prev text with
  | nil =>
    refine Or.inr ⟨fun m post htext hmatch => ?_, ?_⟩
    · have hmem := (mem_ends_iff p prev text m post).mpr ⟨htext, hmatch⟩
      rw [hends] at hmem
      exact absurd hmem List.not_mem_nil
    · cases text with
      | nil => exact Or.inl ⟨rfl, rfl⟩
      | cons d rest => exact Or.inr ⟨d, rest, rfl, rfl⟩
  | cons found more =>
    obtain ⟨m, post⟩ := found
    have hmem : (m, post) ∈ ends p prev text := by
      rw [hends]
      exact List.mem_cons_self
    obtain ⟨htext, hmatch⟩ := ends_sound p prev text m post hmem
    cases m with
    | nil => exact absurd rfl (hp.ne_nil hmatch)
    | cons c m => exact Or.inl ⟨c :: m, post, htext, hmatch, rfl⟩

/-- Letters that the scan leaves stand in the text. -/
theorem scanFrom_letters (hp : WordBounded p) {fuel : ℕ} {prev : Option Char} {text : Text}
    (hfuel : text.length < fuel) {x : Text} {b : List Sign}
    (h : scanFrom p fuel prev text = letterSigns x ++ b) :
    ∃ fuel' rest, text = x ++ rest ∧ rest.length < fuel' ∧
      b = scanFrom p fuel' (before prev x) rest := by
  induction x generalizing fuel prev text with
  | nil => exact ⟨fuel, text, rfl, hfuel, h.symm⟩
  | cons d x ih =>
    cases fuel with
    | zero => omega
    | succ fuel =>
      rcases scanFrom_cases hp fuel prev text with
        ⟨m, post, -, -, hscan⟩ | ⟨-, ⟨rfl, hscan⟩ | ⟨d', rest, rfl, hscan⟩⟩
      · rw [hscan] at h
        cases h
      · rw [hscan] at h
        cases h
      · rw [hscan] at h
        obtain ⟨hd, hrest⟩ := List.cons.inj h
        obtain rfl := Sign.letter.inj hd
        rw [List.length_cons] at hfuel
        obtain ⟨fuel', rest', rfl, hfuel', hb⟩ := ih (by omega) hrest
        exact ⟨fuel', rest', rfl, hfuel', hb⟩

/-- What follows letters of the scan is, where a word could go on, the same in the text. -/
theorem wordAt_scanFrom (hp : WordBounded p) (marker : Marker) {fuel : ℕ} {prev : Option Char}
    {text : Text} (hfuel : text.length < fuel) (hprev : wordAt prev = true) :
    wordAt (render marker (scanFrom p fuel prev text)).head? = wordAt text.head? := by
  cases fuel with
  | zero => omega
  | succ fuel =>
    rcases scanFrom_cases hp fuel prev text with
      ⟨m, post, -, hmatch, -⟩ | ⟨-, ⟨rfl, hscan⟩ | ⟨d, rest, rfl, hscan⟩⟩
    · rw [(hp.first hmatch).1] at hprev
      cases hprev
    · rw [hscan]
      rfl
    · rw [hscan]
      rfl

/-- The letter before a position, in the text and in what is rendered: the same for a word,
or the position is right after a match. -/
def Aligned (prev shown : Option Char) (text : Text) : Prop :=
  wordAt shown = wordAt prev ∨ wordAt shown = false ∧ wordAt text.head? = false

/-- Between redactions no match is left. -/
theorem no_match_left (hp : WordBounded p) (hfree : anchorFree p = true) (marker : Marker)
    {fuel : ℕ} {prev shown : Option Char} {text : Text} (hfuel : text.length < fuel)
    (halign : Aligned prev shown text) {a b : List Sign} {x : Text}
    (h : scanFrom p fuel prev text = a ++ (letterSigns x ++ b)) :
    ¬ Matches p (before shown (render marker a)) x (render marker b) := by
  intro hmatch
  induction fuel generalizing prev shown text a with
  | zero => omega
  | succ fuel ih =>
    cases a with
    | nil =>
      obtain ⟨fuel', rest, rfl, hfuel', hb⟩ := scanFrom_letters hp hfuel h
      obtain ⟨hedge, c, tail, hx, hword⟩ := hp.first hmatch
      obtain ⟨-, d, hlast, hword'⟩ := hp.last hmatch
      have hprev : wordAt shown = wordAt prev := by
        rcases halign with hsame | ⟨-, hnext⟩
        · exact hsame
        · rw [hx, List.cons_append, List.head?_cons, wordAt, hword] at hnext
          cases hnext
      have hbefore : before prev x = some d := before_of_getLast? hlast
      have hpost : wordAt (render marker b).head? = wordAt rest.head? := by
        rw [hb]
        apply wordAt_scanFrom hp marker hfuel'
        rw [hbefore]
        exact hword'
      have hinput := hmatch.congr_context hfree hprev hpost
      rcases scanFrom_cases hp fuel prev (x ++ rest) with ⟨m, post, -, -, hscan⟩ | ⟨hnone, -⟩
      · rw [hscan, hx] at h
        cases h
      · exact hnone x rest rfl hinput
    | cons sign a =>
      rcases scanFrom_cases hp fuel prev text with
        ⟨m, post, rfl, hfound, hscan⟩ | ⟨-, ⟨rfl, hscan⟩ | ⟨d, rest, rfl, hscan⟩⟩
      · rw [hscan, List.cons_append] at h
        obtain ⟨rfl, hrest⟩ := List.cons.inj h
        rw [render_redaction, before_append] at hmatch
        have hclose : before shown marker.text = some marker.closing := by
          apply before_of_getLast?
          rw [Marker.text, ← List.cons_append, List.getLast?_append]
          rfl
        rw [hclose] at hmatch
        have hpos := List.length_pos_iff.mpr (hp.ne_nil hfound)
        rw [List.length_append] at hfuel
        have halign' : Aligned (before prev m) (some marker.closing) post :=
          Or.inr ⟨marker.closing_edge, (hp.last hfound).1⟩
        exact ih (by omega) halign' hrest hmatch
      · rw [hscan] at h
        cases h
      · rw [hscan, List.cons_append] at h
        obtain ⟨rfl, hrest⟩ := List.cons.inj h
        rw [List.length_cons] at hfuel
        exact ih (by omega) (Or.inl rfl) hrest hmatch

theorem scan_no_match (hp : WordBounded p) (hfree : anchorFree p = true) (marker : Marker)
    {text x : Text} {a b : List Sign} (h : scan p text = a ++ (letterSigns x ++ b)) :
    ¬ Matches p (before none (render marker a)) x (render marker b) :=
  no_match_left hp hfree marker (Nat.lt_succ_self _) (Or.inl rfl) h

end Scanning

section Places

variable {marker : Marker} {signs : List Sign} {kept : ℕ} {pre x post : Text}

/-- Not the letters that a marker starts and ends with. -/
def Unbracketed (marker : Marker) (x : Text) : Prop :=
  marker.opening ∉ x ∧ marker.closing ∉ x

theorem take_marker_eq_nil_or_cons (marker : Marker) (kept : ℕ) :
    marker.text.take kept = [] ∨ ∃ rest, marker.text.take kept = marker.opening :: rest := by
  cases kept with
  | zero => exact Or.inl rfl
  | succ kept => exact Or.inr ⟨_, rfl⟩

theorem closing_mem_of_suffix {c d : Text} (h : marker.text = c ++ d) (hd : d ≠ []) :
    marker.closing ∈ d := by
  have hlast : d.getLast? = some marker.closing := by
    have hwhole : (c ++ d).getLast? = some marker.closing := by
      rw [← h, Marker.text, ← List.cons_append, List.getLast?_append]
      rfl
    rw [List.getLast?_append] at hwhole
    cases hlast : d.getLast? with
    | none => exact absurd (List.getLast?_eq_none_iff.mp hlast) hd
    | some e =>
      rw [hlast] at hwhole
      exact hwhole
  exact List.mem_of_getLast? hlast

/-- A rendered text whose last marker may be cut. -/
def shown (marker : Marker) (signs : List Sign) (kept : ℕ) : Text :=
  render marker signs ++ marker.text.take kept

theorem shown_letter (c : Char) (signs : List Sign) (kept : ℕ) :
    shown marker (.letter c :: signs) kept = c :: shown marker signs kept := rfl

theorem shown_redaction (signs : List Sign) (kept : ℕ) :
    shown marker (.redaction :: signs) kept = marker.text ++ shown marker signs kept :=
  List.append_assoc ..

theorem shown_zero (signs : List Sign) : shown marker signs 0 = render marker signs := by
  rw [shown, List.take_zero, List.append_nil]

theorem shown_append (first second : List Sign) (kept : ℕ) :
    shown marker (first ++ second) kept = render marker first ++ shown marker second kept := by
  rw [shown, render_append, List.append_assoc, shown]

/-- Where letters of the rendered text come from: letters of the signs, a marker, or the
part of a marker at the end. -/
inductive Located (marker : Marker) (signs : List Sign) (kept : ℕ) (pre x post : Text) : Prop where
  | letters (a b : List Sign) (hsigns : signs = a ++ (letterSigns x ++ b))
      (hpre : pre = render marker a) (hpost : post = shown marker b kept)
  | inside (a b : List Sign) (c d : Text) (hsigns : signs = a ++ .redaction :: b)
      (hmarker : marker.text = c ++ (x ++ d)) (hpre : pre = render marker a ++ c)
      (hpost : post = d ++ shown marker b kept)
  | part (c : Text) (htake : marker.text.take kept = c ++ (x ++ post))
      (hpre : pre = render marker signs ++ c)

/-- A sign in front moves the letters by what is rendered of it. -/
theorem Located.cons (sign : Sign) (h : Located marker signs kept pre x post) :
    Located marker (sign :: signs) kept (render marker [sign] ++ pre) x post := by
  have hrender : ∀ rest, render marker (sign :: rest) =
      render marker [sign] ++ render marker rest := fun rest => render_append marker [sign] rest
  cases h with
  | letters a b hsigns hpre hpost =>
    exact .letters (sign :: a) b (by rw [hsigns]; rfl) (by rw [hrender a, hpre]) hpost
  | inside a b c d hsigns hmarker hpre hpost =>
    refine .inside (sign :: a) b c d (by rw [hsigns]; rfl) hmarker ?_ hpost
    rw [hrender a, hpre, List.append_assoc]
  | part c htake hpre =>
    refine .part c htake ?_
    rw [hrender signs, hpre, List.append_assoc]

/-- Letters that nothing stands before begin the signs, unless they open with a marker. -/
theorem Located.at_head {e : Char} (he : e ≠ marker.opening)
    (h : Located marker signs kept [] (e :: x) post) :
    ∃ b, signs = letterSigns (e :: x) ++ b ∧ post = shown marker b kept := by
  cases h with
  | letters a b hsigns hpre hpost =>
    have hnil : a = [] := by
      have hle := render_length_le marker a
      rw [← hpre] at hle
      exact List.length_eq_zero_iff.mp (Nat.le_zero.mp hle)
    rw [hnil] at hsigns
    exact ⟨b, hsigns, hpost⟩
  | inside a b c d hsigns hmarker hpre hpost =>
    have hnil : c = [] := (List.append_eq_nil_iff.mp hpre.symm).2
    rw [hnil] at hmarker
    exact absurd (List.cons.inj hmarker).1.symm he
  | part c htake hpre =>
    have hnil : c = [] := (List.append_eq_nil_iff.mp hpre.symm).2
    rw [hnil] at htake
    rcases take_marker_eq_nil_or_cons marker kept with hnone | ⟨rest, hsome⟩
    · rw [hnone] at htake
      cases htake
    · rw [hsome] at htake
      exact absurd (List.cons.inj htake).1.symm he

theorem locate (hx : x ≠ []) (hfree : Unbracketed marker x)
    (h : shown marker signs kept = pre ++ (x ++ post)) :
    Located marker signs kept pre x post := by
  induction signs generalizing pre x with
  | nil => exact .part pre h rfl
  | cons sign signs ih =>
    cases sign with
    | letter ch =>
      rw [shown_letter] at h
      cases pre with
      | cons ch' pre =>
        obtain ⟨rfl, hrest⟩ := List.cons.inj h
        exact (ih hx hfree hrest).cons (.letter ch)
      | nil =>
        cases x with
        | nil => exact absurd rfl hx
        | cons ch' x =>
          obtain ⟨rfl, hrest⟩ := List.cons.inj h
          have hopen : marker.opening ∉ x := fun hmem => hfree.1 (List.mem_cons_of_mem _ hmem)
          cases x with
          | nil => exact .letters [] signs rfl rfl hrest.symm
          | cons e x =>
            have hfree' : Unbracketed marker (e :: x) :=
              ⟨hopen, fun hmem => hfree.2 (List.mem_cons_of_mem _ hmem)⟩
            have hrest' : shown marker signs kept = [] ++ (e :: x ++ post) := hrest
            obtain ⟨b, hsigns, hpost⟩ := (ih (List.cons_ne_nil _ _) hfree' hrest').at_head
              fun heq => hopen (heq ▸ List.mem_cons_self)
            exact .letters [] b (by rw [hsigns]; rfl) rfl hpost
    | redaction =>
      have hmarkerText : render marker [.redaction] = marker.text := List.append_nil _
      rw [shown_redaction] at h
      rcases List.append_eq_append_iff.mp h with ⟨pre', rfl, hrest⟩ | ⟨c', hmarker, hrest⟩
      · have hlater := (ih hx hfree hrest).cons .redaction
        rw [hmarkerText] at hlater
        exact hlater
      · rcases List.append_eq_append_iff.mp hrest with ⟨d, hc', hpost⟩ | ⟨d, hx', hpost⟩
        · rw [hc'] at hmarker
          exact .inside [] signs pre d rfl hmarker rfl hpost
        · -- the letters reach past the marker's end
          by_cases hnil : c' = []
          · rw [hnil, List.append_nil] at hmarker
            have hrest' : shown marker signs kept = [] ++ (x ++ post) := by
              rw [hrest, hnil]
              rfl
            have hlater := (ih hx hfree hrest').cons .redaction
            rw [hmarkerText, hmarker, List.append_nil] at hlater
            exact hlater
          · have hclosing := closing_mem_of_suffix hmarker hnil
            rw [hx'] at hfree
            exact absurd (List.mem_append_left _ hclosing) hfree.2

/-- Letters that no marker holds are letters of the signs. -/
theorem locate_letters (hx : x ≠ []) (hfree : Unbracketed marker x)
    (habsent : ∀ c d, marker.text ≠ c ++ (x ++ d))
    (h : shown marker signs kept = pre ++ (x ++ post)) :
    ∃ a b, signs = a ++ (letterSigns x ++ b) ∧ pre = render marker a ∧
      post = shown marker b kept := by
  cases locate hx hfree h with
  | letters a b hsigns hpre hpost => exact ⟨a, b, hsigns, hpre, hpost⟩
  | inside a b c d hsigns hmarker hpre hpost => exact absurd hmarker (habsent c d)
  | part c htake hpre =>
    have hmarker := List.take_append_drop kept marker.text
    rw [htake, List.append_assoc, List.append_assoc] at hmarker
    exact absurd hmarker.symm (habsent c _)

end Places

section Keywords

variable {marker : Marker} {k : Pattern} {signs : List Sign} {kept : ℕ} {prev : Option Char}
  {pre m x post : Text}

/-- Whether a marker that is cut counts as one. -/
def partSign (threshold kept : ℕ) : List Sign := if threshold ≤ kept then [.redaction] else []

theorem wordAt_head_shown (threshold : ℕ) (b : List Sign) :
    wordAt (shown marker b kept).head? =
      wordAt (render marker (b ++ partSign threshold kept)).head? := by
  cases b with
  | cons sign b =>
    cases sign with
    | letter c => rfl
    | redaction => rfl
  | nil =>
    have hopen : wordAt marker.text.head? = false := marker.opening_edge
    have hleft : wordAt (marker.text.take kept).head? = false := by
      rcases take_marker_eq_nil_or_cons marker kept with hnone | ⟨rest, hsome⟩
      · rw [hnone]
        rfl
      · rw [hsome]
        exact marker.opening_edge
    have hright : wordAt (render marker (partSign threshold kept)).head? = false := by
      unfold partSign
      split_ifs
      · rw [render_redaction, render_nil, List.append_nil]
        exact hopen
      · rfl
    rw [shown, render_nil, List.nil_append, List.nil_append, hleft, hright]

/-- Letters before a last sign that counts a cut marker. -/
theorem letters_before_partSign {threshold : ℕ} {a b : List Sign} (hx : x ≠ [])
    (h : signs ++ partSign threshold kept = a ++ (letterSigns x ++ b)) :
    ∃ b', signs = a ++ (letterSigns x ++ b') ∧ b = b' ++ partSign threshold kept := by
  unfold partSign at h ⊢
  split_ifs at h ⊢ with hcount
  · rcases List.eq_nil_or_concat b with rfl | ⟨b', sign, rfl⟩
    · obtain ⟨x', c, rfl⟩ := (List.eq_nil_or_concat x).resolve_left hx
      rw [List.append_nil, List.concat_eq_append, letterSigns_append, ← List.append_assoc] at h
      have hlast := (List.append_inj' h rfl).2
      cases hlast
    · rw [List.concat_eq_append, ← List.append_assoc, ← List.append_assoc] at h
      obtain ⟨hsigns, hlast⟩ := List.append_inj' h rfl
      refine ⟨b', ?_, ?_⟩
      · rw [hsigns, List.append_assoc]
      · rw [List.concat_eq_append, hlast]
  · exact ⟨b, by rw [← h, List.append_nil], (List.append_nil b).symm⟩

/-- A redaction, or the cut marker that counts as one. -/
theorem redaction_before_partSign {threshold : ℕ} {a b : List Sign}
    (h : signs ++ partSign threshold kept = a ++ .redaction :: b) :
    (∃ b', signs = a ++ .redaction :: b') ∨ signs = a ∧ threshold ≤ kept := by
  unfold partSign at h
  split_ifs at h with hcount
  · rcases List.eq_nil_or_concat b with rfl | ⟨b', sign, rfl⟩
    · exact Or.inr ⟨(List.append_inj' h rfl).1, hcount⟩
    · rw [List.concat_eq_append, ← List.cons_append, ← List.append_assoc] at h
      exact Or.inl ⟨b', (List.append_inj' h rfl).1⟩
  · rw [List.append_nil] at h
    exact Or.inl ⟨b, h⟩

/-- Less than a marker is letters. -/
theorem eq_letterSigns_of_length (h : (render marker signs).length < marker.text.length) :
    signs = letterSigns (render marker signs) :=
  eq_letterSigns marker fun hmem => Nat.not_lt.mpr (length_le_render marker hmem) h

/-- The pattern reads these letters, between the signs `a` and `b`. -/
def Reads (marker : Marker) (p : Pattern) (signs a : List Sign) (x : Text)
    (b : List Sign) : Prop :=
  signs = a ++ (letterSigns x ++ b) ∧
    Matches p (before none (render marker a)) x (render marker b)

theorem reads_of_shown {p : Pattern} (hfree : anchorFree p = true) (threshold : ℕ)
    {a b : List Sign} (hsigns : signs = a ++ (letterSigns x ++ b))
    (hmatch : Matches p (before none (render marker a)) x (shown marker b kept)) :
    Reads marker p (signs ++ partSign threshold kept) a x (b ++ partSign threshold kept) := by
  refine ⟨?_, hmatch.congr_context hfree rfl (wordAt_head_shown threshold b)⟩
  rw [hsigns, List.append_assoc, List.append_assoc]

theorem Reads.shown {p : Pattern} (hfree : anchorFree p = true) (hp : WordBounded p)
    {threshold : ℕ} {a b : List Sign}
    (h : Reads marker p (signs ++ partSign threshold kept) a x b) :
    ∃ b', b = b' ++ partSign threshold kept ∧
      Redaction.shown marker signs kept =
        render marker a ++ (x ++ Redaction.shown marker b' kept) ∧
      Matches p (before none (render marker a)) x (Redaction.shown marker b' kept) := by
  obtain ⟨b', hsigns, hb⟩ := letters_before_partSign (hp.ne_nil h.2) h.1
  refine ⟨b', hb, ?_, ?_⟩
  · rw [hsigns, shown_append, shown_append, render_letterSigns]
  · have hmatch := h.2
    rw [hb] at hmatch
    exact hmatch.congr_context hfree rfl (wordAt_head_shown threshold b').symm

/-- A keyword that shares nothing with the marker. -/
@[mk_iff]
structure Foreign (marker : Marker) (k : Pattern) : Prop extends Keyword k where
  opening : avoids marker.opening k = true
  closing : avoids marker.closing k = true
  absent : test k marker.text = false

instance (marker : Marker) (k : Pattern) : Decidable (Foreign marker k) :=
  decidable_of_iff' _ (foreign_iff marker k)

theorem Foreign.located (hk : Foreign marker k) (hread : Matches k none x [])
    (h : shown marker signs kept = pre ++ (x ++ post)) :
    ∃ a b, signs = a ++ (letterSigns x ++ b) ∧ pre = render marker a ∧
      post = shown marker b kept := by
  obtain ⟨c, rest, hx, -⟩ := head_of_startsWord hread hk.starts
  have hne : x ≠ [] := by
    rw [hx]
    exact List.cons_ne_nil _ _
  refine locate_letters hne
    ⟨hread.not_mem_of_avoids hk.opening, hread.not_mem_of_avoids hk.closing⟩ ?_ h
  intro c d hmarker
  have htest : test k marker.text = true :=
    (test_iff k marker.text).mpr ⟨c, x, d, hmarker, matches_of_plain hread hk.plain _ _⟩
  rw [hk.absent] at htest
  cases htest

/-- A gapped pattern reads its keyword in letters; the rest is read in what follows. -/
theorem Foreign.located_gapped (hk : Foreign marker k) {set : CharSet} {limit : ℕ}
    {rest : Pattern} (hmatch : Matches (gapped set k limit rest) prev m post)
    (h : shown marker signs kept = pre ++ (m ++ post)) :
    ∃ a b x g y, m = x ++ (g ++ y) ∧ signs = a ++ (letterSigns x ++ b) ∧
      pre = render marker a ∧ Matches (word k) prev x (shown marker b kept) ∧
      Within set limit g ∧ shown marker b kept = g ++ (y ++ post) ∧
      Matches rest (before (before prev x) g) y post := by
  obtain ⟨x, g, y, rfl, hword, hgap, hrest⟩ := matches_gapped_iff.mp hmatch
  rw [List.append_assoc, List.append_assoc] at h
  obtain ⟨a, b, hsigns, hpre, hpost⟩ := hk.located (hk.matches_word_iff.mp hword).1 h
  rw [hpost] at hword
  exact ⟨a, b, x, g, y, rfl, hsigns, hpre, hword, hgap, hpost.symm, hrest⟩

/-- A keyword that the marker holds once, as a word. -/
@[mk_iff]
structure Planted (marker : Marker) (k : Pattern) (offset width : ℕ) : Prop extends Keyword k where
  opening : avoids marker.opening k = true
  closing : avoids marker.closing k = true
  inside : 0 < offset ∧ offset + width < marker.text.length
  once : ∀ i ∈ List.range (marker.text.length + 1),
    ∀ found ∈ TextPattern.ends k none (marker.text.drop i), i = offset ∧ found.1.length = width
  reads : ((marker.text.drop offset).take width, []) ∈
    TextPattern.ends k none ((marker.text.drop offset).take width)
  front : wordAt (before none (marker.text.take offset)) = false
  back : wordAt (marker.text.drop (offset + width)).head? = false

instance (marker : Marker) (k : Pattern) (offset width : ℕ) :
    Decidable (Planted marker k offset width) :=
  decidable_of_iff' _ (planted_iff marker k offset width)

variable {offset width : ℕ}

theorem Planted.place (hk : Planted marker k offset width) (hread : Matches k none x [])
    {c d : Text} (h : marker.text = c ++ (x ++ d)) : c.length = offset ∧ x.length = width := by
  have hdrop : marker.text.drop c.length = x ++ d := by
    rw [h, List.drop_left]
  have hmem : (x, d) ∈ ends k none (marker.text.drop c.length) :=
    (mem_ends_iff _ _ _ _ _).mpr ⟨hdrop, matches_of_plain hread hk.plain _ _⟩
  refine hk.once _ (List.mem_range.mpr ?_) _ hmem
  rw [h, List.length_append]
  omega

/-- It is read in letters, or in a marker that is there as far as the keyword goes. -/
theorem Planted.located (hk : Planted marker k offset width) (hread : Matches k none x [])
    (h : shown marker signs kept = pre ++ (x ++ post)) :
    (∃ a b, signs = a ++ (letterSigns x ++ b) ∧ pre = render marker a ∧
        post = shown marker b kept) ∨
      ∃ a b, signs ++ partSign (offset + width) kept = a ++ .redaction :: b ∧
        pre = render marker a ++ marker.text.take offset := by
  obtain ⟨c, rest, hx, -⟩ := head_of_startsWord hread hk.starts
  have hne : x ≠ [] := by
    rw [hx]
    exact List.cons_ne_nil _ _
  cases locate hne ⟨hread.not_mem_of_avoids hk.opening, hread.not_mem_of_avoids hk.closing⟩ h with
  | letters a b hsigns hpre hpost => exact Or.inl ⟨a, b, hsigns, hpre, hpost⟩
  | inside a b c d hsigns hmarker hpre hpost =>
    have hc : marker.text.take offset = c := by
      rw [hmarker, ← (hk.place hread hmarker).1, List.take_left]
    refine Or.inr ⟨a, b ++ partSign (offset + width) kept, ?_, by rw [hpre, hc]⟩
    rw [hsigns, List.append_assoc, List.cons_append]
  | part c htake hpre =>
    have hmarker := List.take_append_drop kept marker.text
    rw [htake, List.append_assoc, List.append_assoc] at hmarker
    obtain ⟨hoffset, hwidth⟩ := hk.place hread hmarker.symm
    have hc : marker.text.take offset = c := by
      rw [← hmarker, ← hoffset, List.take_left]
    have hkept : offset + width ≤ kept := by
      have hlength := congrArg List.length htake
      rw [List.length_take, List.length_append, List.length_append] at hlength
      omega
    exact Or.inr ⟨signs, [], by rw [partSign, if_pos hkept], by rw [hpre, hc]⟩

/-- Such a marker is read. -/
theorem Planted.read (hk : Planted marker k offset width) {a b : List Sign}
    (h : signs ++ partSign (offset + width) kept = a ++ .redaction :: b) :
    ∃ y post, shown marker signs kept =
        render marker a ++ (marker.text.take offset ++ (y ++ post)) ∧
      ∀ prev, Matches (word k) (before prev (marker.text.take offset)) y post := by
  have hread := ((mem_ends_iff _ _ _ _ _).mp hk.reads).2
  have hfront : ∀ prev, wordAt (before prev (marker.text.take offset)) = false := by
    intro prev
    obtain ⟨n, hn⟩ := Nat.exists_eq_succ_of_ne_zero (Nat.pos_iff_ne_zero.mp hk.inside.1)
    have hfront := hk.front
    rw [hn] at hfront ⊢
    exact hfront
  have hsplit : marker.text = marker.text.take offset ++
      ((marker.text.drop offset).take width ++ marker.text.drop (offset + width)) := by
    rw [← List.drop_drop, List.take_append_drop, List.take_append_drop]
  have hrest : ∀ tail, wordAt (marker.text.drop (offset + width) ++ tail).head? = false := by
    intro tail
    have hback := hk.back
    have hlength : 0 < (marker.text.drop (offset + width)).length := by
      rw [List.length_drop]
      exact Nat.sub_pos_of_lt hk.inside.2
    obtain ⟨c, rest, hc⟩ := List.exists_cons_of_length_pos hlength
    rw [hc] at hback ⊢
    exact hback
  rcases redaction_before_partSign h with ⟨b', rfl⟩ | ⟨rfl, hkept⟩
  · refine ⟨(marker.text.drop offset).take width,
      marker.text.drop (offset + width) ++ shown marker b' kept, ?_, fun prev =>
      hk.matches_word_iff.mpr ⟨hread, hfront prev, hrest _⟩⟩
    rw [shown_append, shown_redaction]
    nth_rewrite 1 [hsplit]
    simp only [List.append_assoc]
  · have htake : marker.text.take kept = marker.text.take offset ++
        ((marker.text.drop offset).take width ++
          (marker.text.drop (offset + width)).take (kept - (offset + width))) := by
      have hkeep : kept = offset + (width + (kept - (offset + width))) := by omega
      nth_rewrite 1 [hkeep]
      rw [List.take_add, List.take_add, List.drop_drop]
    refine ⟨(marker.text.drop offset).take width,
      (marker.text.drop (offset + width)).take (kept - (offset + width)), ?_, fun prev =>
      hk.matches_word_iff.mpr ⟨hread, hfront prev, ?_⟩⟩
    · rw [shown, htake]
    · rw [List.head?_take]
      split_ifs
      · rfl
      · exact hk.back

/-- A gap shorter than a marker is letters. -/
theorem Foreign.after_gap (hk : Foreign marker k) {set : CharSet} {limit : ℕ}
    (hlimit : limit < marker.text.length) {g : Text} (hgap : Within set limit g)
    (hread : Matches k none x []) (h : shown marker signs kept = g ++ (x ++ post)) :
    ∃ b, signs = letterSigns (g ++ x) ++ b ∧ post = shown marker b kept := by
  obtain ⟨w, b, hsigns, rfl, hpost⟩ := hk.located hread h
  have hw := eq_letterSigns_of_length (Nat.lt_of_le_of_lt hgap.1 hlimit)
  refine ⟨b, ?_, hpost⟩
  rw [letterSigns_append, ← hw, List.append_assoc, hsigns]

theorem Planted.after_gap (hk : Planted marker k offset width) {set : CharSet} {limit : ℕ}
    (hlimit : limit < marker.text.length) {g : Text} (hgap : Within set limit g)
    (hread : Matches k none x []) (h : shown marker signs kept = g ++ (x ++ post)) :
    (∃ b, signs = letterSigns (g ++ x) ++ b ∧ post = shown marker b kept) ∨
      ∃ g' b, signs ++ partSign (offset + width) kept = letterSigns g' ++ .redaction :: b ∧
        Within set (limit - offset) g' := by
  rcases hk.located hread h with ⟨w, b, hsigns, rfl, hpost⟩ | ⟨w, b, hsigns, rfl⟩
  · have hw := eq_letterSigns_of_length (Nat.lt_of_le_of_lt hgap.1 hlimit)
    refine Or.inl ⟨b, ?_, hpost⟩
    rw [letterSigns_append, ← hw, List.append_assoc, hsigns]
  · have hlength := hgap.1
    have hoffset : (marker.text.take offset).length = offset := by
      rw [List.length_take]
      have hinside := hk.inside.2
      omega
    rw [List.length_append, hoffset] at hlength
    have hw : w = letterSigns (render marker w) := eq_letterSigns_of_length (by omega)
    refine Or.inr ⟨render marker w, b, by rw [← hw, hsigns], by omega, ?_⟩
    exact fun c hc => hgap.2 c (List.mem_append_left _ hc)

theorem Within.append_take {set : CharSet} {limit offset : ℕ} {g t : Text}
    (hoffset : offset ≤ limit) (hset : ∀ c ∈ t, set.accepts c = true)
    (hgap : Within set (limit - offset) g) : Within set limit (g ++ t.take offset) := by
  constructor
  · rw [List.length_append, List.length_take]
    have hlength := hgap.1
    omega
  · intro c hc
    rcases List.mem_append.mp hc with hc | hc
    · exact hgap.2 c hc
    · exact hset c (List.mem_of_mem_take hc)

end Keywords

section Cuts

/-- The signs of the first letters of a rendered text. A marker that is cut counts as one
from the given length on. -/
def cut (width threshold : ℕ) : ℕ → List Sign → List Sign
  | _, [] => []
  | n, .letter c :: signs => if n = 0 then [] else .letter c :: cut width threshold (n - 1) signs
  | n, .redaction :: signs =>
      if width ≤ n then .redaction :: cut width threshold (n - width) signs
      else if threshold ≤ n then [.redaction]
      else []

/-- The first letters of a rendered text are whole signs and the part of a marker; the sign
after them stands at the cut, or starts with no word letter. -/
theorem take_render (marker : Marker) {threshold : ℕ} (hthreshold : 0 < threshold) (n : ℕ)
    (signs : List Sign) :
    ∃ a rest kept, signs = a ++ rest ∧ (render marker signs).take n = shown marker a kept ∧
      cut marker.text.length threshold n signs = a ++ partSign threshold kept ∧
      ((render marker a).length = n ∨ wordAt (render marker rest).head? = false) := by
  have hnone : partSign threshold 0 = [] := if_neg (by omega)
  induction signs generalizing n with
  | nil =>
    refine ⟨[], [], 0, rfl, ?_, by rw [hnone]; rfl, Or.inr rfl⟩
    rw [render_nil, List.take_nil]
    rfl
  | cons sign signs ih =>
    cases sign with
    | letter c =>
      cases n with
      | zero => exact ⟨[], .letter c :: signs, 0, rfl, rfl, by rw [hnone]; rfl, Or.inl rfl⟩
      | succ n =>
        obtain ⟨a, rest, kept, hsigns, htake, hcut, hnext⟩ := ih n
        refine ⟨.letter c :: a, rest, kept, by rw [hsigns]; rfl, ?_, ?_, ?_⟩
        · rw [render_letter, shown_letter, List.take_succ_cons, htake]
        · rw [cut, if_neg (Nat.succ_ne_zero n), Nat.add_sub_cancel, hcut, List.cons_append]
        · rw [render_letter, List.length_cons, Nat.add_right_cancel_iff]
          exact hnext
    | redaction =>
      rw [render_redaction, cut]
      by_cases hwide : marker.text.length ≤ n
      · obtain ⟨a, rest, kept, hsigns, htake, hcut, hnext⟩ := ih (n - marker.text.length)
        refine ⟨.redaction :: a, rest, kept, by rw [hsigns]; rfl, ?_, ?_, ?_⟩
        · rw [List.take_append, List.take_of_length_le hwide, htake, shown_redaction]
        · rw [if_pos hwide, hcut, List.cons_append]
        · rw [render_redaction, List.length_append]
          exact hnext.imp_left fun hlength => by omega
      · refine ⟨[], .redaction :: signs, n, rfl, ?_, ?_, Or.inr marker.opening_edge⟩
        · rw [List.take_append_of_le_length (by omega)]
          rfl
        · rw [if_neg hwide]
          rfl

/-- Letters that end where the text is cut, a match once nothing follows them. -/
def Severed (marker : Marker) (p : Pattern) (n : ℕ) (signs : List Sign) : Prop :=
  ∃ a x b, signs = a ++ (letterSigns x ++ b) ∧ (render marker a).length + x.length = n ∧
    Matches p (before none (render marker a)) x []

variable {p : Pattern} {marker : Marker} {n : ℕ}

theorem test_of_severed {signs : List Sign} (h : Severed marker p n signs) :
    test p ((render marker signs).take n) = true := by
  obtain ⟨a, x, b, rfl, hlength, hmatch⟩ := h
  refine (test_iff _ _).mpr ⟨render marker a, x, [], ?_, hmatch⟩
  rw [render_append, render_append, render_letterSigns, ← List.append_assoc, List.append_nil]
  apply List.take_left'
  rw [List.length_append, hlength]

/-- A scan that is cut has matches at its end only. -/
theorem severed_of_reads (hp : WordBounded p) (hfree : anchorFree p = true) {threshold : ℕ}
    (hthreshold : 0 < threshold) {text x : Text} {a b : List Sign}
    (h : Reads marker p (cut marker.text.length threshold n (scan p text)) a x b) :
    Severed marker p n (scan p text) := by
  obtain ⟨hsigns, hmatch⟩ := h
  obtain ⟨whole, rest, kept, hscan, -, hcut, hnext⟩ :=
    take_render marker hthreshold n (scan p text)
  rw [hcut] at hsigns
  obtain ⟨b, hwhole, rfl⟩ := letters_before_partSign (hp.ne_nil hmatch) hsigns
  have hplace : scan p text = a ++ (letterSigns x ++ (b ++ rest)) := by
    rw [hscan, hwhole]
    simp only [List.append_assoc]
  have hleft := scan_no_match hp hfree marker hplace
  have hend : wordAt (render marker (b ++ partSign threshold kept)).head? = false :=
    (hp.last hmatch).1
  cases b with
  | cons sign b =>
    have hsame : wordAt (render marker (sign :: b ++ partSign threshold kept)).head? =
        wordAt (render marker (sign :: b ++ rest)).head? := by
      cases sign with
      | letter c => rfl
      | redaction => rfl
    exact absurd (hmatch.congr_context hfree rfl hsame) hleft
  | nil =>
    rcases hnext with hlength | hedge
    · refine ⟨a, x, rest, hplace, ?_, hmatch.congr_context hfree rfl hend⟩
      rw [hwhole, render_append, List.append_nil, render_letterSigns, List.length_append] at hlength
      exact hlength
    · exact absurd (hmatch.congr_context hfree rfl (hend.trans hedge.symm)) hleft

end Cuts

section Headings

variable {p : Pattern} {c : Char}

/-- A letter of no word in front changes nothing. -/
theorem test_cons_of_not_word (hp : WordBounded p) (hfree : anchorFree p = true)
    (hc : isWordChar c = false) (text : Text) : test p (c :: text) = test p text := by
  have hedge : wordAt (some c) = wordAt none := hc
  rw [Bool.eq_iff_iff, test_iff, test_iff]
  constructor
  · rintro ⟨a, m, b, htext, hmatch⟩
    cases a with
    | nil =>
      obtain ⟨-, d, rest, rfl, hd⟩ := hp.first hmatch
      obtain ⟨rfl, -⟩ := List.cons.inj htext
      rw [hc] at hd
      cases hd
    | cons d a =>
      obtain ⟨rfl, hrest⟩ := List.cons.inj htext
      exact ⟨a, m, b, hrest, hmatch.congr_context hfree (wordAt_before_congr hedge a) rfl⟩
  · rintro ⟨a, m, b, htext, hmatch⟩
    refine ⟨c :: a, m, b, congrArg (List.cons c) htext, ?_⟩
    exact hmatch.congr_context hfree (wordAt_before_congr hedge.symm a) rfl

end Headings

end Gittensory.Redaction
