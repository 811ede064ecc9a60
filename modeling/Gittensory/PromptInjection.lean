import Gittensory.Redaction
import Gittensory.JsValue

/-!
The defence against text that steers the reviewing model (`review/prompt-injection.ts`): one
expression of six alternatives, and the replacement of its matches by a marker. The marker
holds a word that two of the alternatives end with, so what stood before a match can make a
new one with the marker that took the match's place.
-/
namespace Gittensory.PromptInjection

open JsValue Redaction TextPattern

/-! ## `INJECTION_SOURCE` -/

/-- `[^.\n]` -/
def lineSet : CharSet := ⟨true, [('.', '.'), ('\n', '\n')]⟩

def overrideVerb : Pattern := .anyNoCase ["ignore", "disregard", "forget", "override", "bypass"]

def earlierWord : Pattern :=
  .anyNoCase ["previous", "prior", "above", "earlier", "all", "the", "any"]

def guidance : Pattern :=
  .alts [.plural "instruction", .plural "prompt", .plural "rule", .literalNoCase "rubric",
    .literalNoCase "policy", .plural "guideline", .plural "direction"]

def youAreNow : Pattern := .literalNoCase "you are now"

def promptName : Pattern :=
  .seqs [.anyNoCase ["system", "developer"], spaces, .literalNoCase "prompt"]

def acceptance : Pattern :=
  .seqs [.anyNoCase ["approve", "merge", "accept", "whitelist", "allow", "pass"], spaces,
    .anyNoCase ["this", "the"], spaces,
    .alts [.literalNoCase "submission", .literalNoCase "pr",
      .seqs [.literalNoCase "pull", .opt (.char ⟨false, [(' ', ' '), ('-', '-')]⟩),
        .literalNoCase "request"],
      .literalNoCase "entry", .literalNoCase "request", .literalNoCase "content",
      .literalNoCase "review"]]

def assistantName : Pattern :=
  .seqs [.literalNoCase "as a", .opt (.literalNoCase "n"), spaces,
    .anyNoCase ["ai", "assistant", "language model"]]

def assistantDuty : Pattern := .anyNoCase ["you must", "ignore", "approve"]

def leakVerb : Pattern := .anyNoCase ["print", "reveal", "output", "repeat", "leak"]

def leakTarget : Pattern :=
  .alts [.literalNoCase "system prompt", .literalNoCase "rubric", .plural "instruction"]

def earlierGuidance : Pattern := gapped lineSet earlierWord 24 (word guidance)

def injectionChoices : List Pattern :=
  [gapped lineSet overrideVerb 40 earlierGuidance, word youAreNow, word promptName,
    word acceptance, gapped lineSet assistantName 30 (word assistantDuty),
    gapped lineSet leakVerb 30 (word leakTarget)]

def injectionSource : Pattern := .alts injectionChoices

/-! ## The functions -/

def hasPromptInjection (text : Text) : Bool := !text.isEmpty && test injectionSource text

/-- `[external-instruction-redacted]` -/
def redactedMarker : Marker where
  opening := '['
  inner := "external-instruction-redacted".toList
  closing := ']'
  opening_edge := by decide
  closing_edge := by decide

structure Neutralized where
  text : Text
  injected : Bool
  deriving DecidableEq, Repr

def neutralizePromptInjection (text : Text) : Neutralized :=
  if text = [] then ⟨text, false⟩
  else ⟨replaceAll injectionSource redactedMarker.text text, test injectionSource text⟩

/-! ## The keywords -/

theorem foreign_keywords :
    ∀ k ∈ [overrideVerb, earlierWord, youAreNow, promptName, acceptance, assistantName,
      assistantDuty, leakVerb], Foreign redactedMarker k := by
  decide +kernel

theorem planted_keywords :
    Planted redactedMarker guidance 10 11 ∧ Planted redactedMarker leakTarget 10 11 := by
  decide +kernel

theorem planted_guidance : Planted redactedMarker guidance 10 11 := planted_keywords.1

theorem planted_leakTarget : Planted redactedMarker leakTarget 10 11 := planted_keywords.2

/-- What is computed of the choices and of the marker. -/
theorem anchorFree_parts :
    anchorFree injectionSource = true ∧ anchorFree (word overrideVerb) = true ∧
      anchorFree (word earlierWord) = true ∧ anchorFree earlierGuidance = true ∧
      anchorFree (word leakVerb) = true ∧
      redactedMarker.text.all (fun c => lineSet.accepts c) = true ∧
      render redactedMarker (scan injectionSource []) = [] ∧ test injectionSource [] = false := by
  decide +kernel

theorem anchorFree_injectionSource : anchorFree injectionSource = true := anchorFree_parts.1

theorem anchorFree_overrideVerb : anchorFree (word overrideVerb) = true := anchorFree_parts.2.1

theorem anchorFree_earlierWord : anchorFree (word earlierWord) = true := anchorFree_parts.2.2.1

theorem anchorFree_earlierGuidance : anchorFree earlierGuidance = true :=
  anchorFree_parts.2.2.2.1

theorem anchorFree_leakVerb : anchorFree (word leakVerb) = true := anchorFree_parts.2.2.2.2.1

theorem wordBounded_earlierGuidance : WordBounded earlierGuidance :=
  wordBounded_gapped (foreign_keywords earlierWord (by simp)).toKeyword
    planted_guidance.toKeyword.wordBounded

theorem wordBounded_injectionSource : WordBounded injectionSource := by
  apply wordBounded_alts
  intro p hp
  simp only [injectionChoices, List.mem_cons, List.not_mem_nil, or_false] at hp
  rcases hp with rfl | rfl | rfl | rfl | rfl | rfl
  · exact wordBounded_gapped (foreign_keywords overrideVerb (by simp)).toKeyword
      wordBounded_earlierGuidance
  · exact (foreign_keywords youAreNow (by simp)).toKeyword.wordBounded
  · exact (foreign_keywords promptName (by simp)).toKeyword.wordBounded
  · exact (foreign_keywords acceptance (by simp)).toKeyword.wordBounded
  · exact wordBounded_gapped (foreign_keywords assistantName (by simp)).toKeyword
      (foreign_keywords assistantDuty (by simp)).toKeyword.wordBounded
  · exact wordBounded_gapped (foreign_keywords leakVerb (by simp)).toKeyword
      planted_leakTarget.toKeyword.wordBounded

/-! ## What is left after the replacement -/

/-- A redaction that makes a new match with what stands before it: by the word that the
marker holds, or by being passed over. -/
inductive Rejoined (signs : List Sign) : Prop
  | leak {a b : List Sign} {x g : Text}
      (hverb : Reads redactedMarker (word leakVerb) signs a x (letterSigns g ++ .redaction :: b))
      (hgap : Within lineSet 20 g)
  | override {a w b : List Sign} {x y g : Text}
      (hverb : Reads redactedMarker (word overrideVerb) signs a x
        (w ++ (letterSigns y ++ (letterSigns g ++ .redaction :: b))))
      (hbetween : Within lineSet 40 (render redactedMarker w))
      (hearlier : Reads redactedMarker (word earlierWord) signs (a ++ (letterSigns x ++ w)) y
        (letterSigns g ++ .redaction :: b))
      (hgap : Within lineSet 14 g)
  | across {a w b : List Sign} {x y : Text}
      (hverb : Reads redactedMarker (word overrideVerb) signs a x (w ++ (letterSigns y ++ b)))
      (hbetween : Within lineSet 40 (render redactedMarker w))
      (hover : .redaction ∈ w)
      (hguidance : Reads redactedMarker earlierGuidance signs (a ++ (letterSigns x ++ w)) y b)

/-- A match that a redaction made, or one in letters. -/
def Injected (signs : List Sign) : Prop :=
  Rejoined signs ∨ ∃ a x b, Reads redactedMarker injectionSource signs a x b

section Search

variable {signs : List Sign} {kept : ℕ} {pre m post : Text} {p : Pattern}

theorem injected_of_letters (hp : p ∈ injectionChoices) {a b : List Sign}
    (hsigns : signs = a ++ (letterSigns m ++ b))
    (hmatch : Matches p (before none (render redactedMarker a)) m (shown redactedMarker b kept)) :
    Injected (signs ++ partSign 21 kept) :=
  Or.inr ⟨a, m, _, reads_of_shown anchorFree_injectionSource 21 hsigns
    (matches_alts_iff.mpr ⟨p, hp, hmatch⟩)⟩

theorem injected_of_word {k : Pattern} (hk : Foreign redactedMarker k)
    (hp : word k ∈ injectionChoices) (hmatch : Matches (word k) (before none pre) m post)
    (h : shown redactedMarker signs kept = pre ++ (m ++ post)) :
    Injected (signs ++ partSign 21 kept) := by
  obtain ⟨a, b, hsigns, rfl, rfl⟩ := hk.located (hk.matches_word_iff.mp hmatch).1 h
  exact injected_of_letters hp hsigns hmatch

theorem before_between (a w : List Sign) (x : Text) :
    before (before (before none (render redactedMarker a)) x) (render redactedMarker w) =
      before none (render redactedMarker (a ++ (letterSigns x ++ w))) := by
  rw [render_append, render_append, render_letterSigns, before_append, before_append]

theorem injected_of_override (hmatch : Matches (gapped lineSet overrideVerb 40 earlierGuidance)
      (before none pre) m post)
    (h : shown redactedMarker signs kept = pre ++ (m ++ post)) :
    Injected (signs ++ partSign 21 kept) := by
  obtain ⟨a, b, x, g, y', rfl, hsigns, rfl, hverb, hgap, hrest, hguided⟩ :=
    (foreign_keywords overrideVerb (by simp)).located_gapped hmatch h
  obtain ⟨w, b', y, g', z, rfl, hb, rfl, hearlier, hgap', hrest', hnoun⟩ :=
    (foreign_keywords earlierWord (by simp)).located_gapped hguided hrest
  have hread := (planted_guidance.toKeyword.matches_word_iff.mp hnoun).1
  rcases planted_guidance.after_gap (by decide) hgap' hread hrest' with
    ⟨b'', hb', rfl⟩ | ⟨g'', b'', hb', hgap''⟩
  · have hplace : b = w ++ (letterSigns (y ++ (g' ++ z)) ++ b'') := by
      rw [hb, hb']
      simp only [letterSigns_append, List.append_assoc]
    by_cases hover : .redaction ∈ w
    · have hverb' := reads_of_shown anchorFree_overrideVerb 21 hsigns hverb
      have hsigns' : signs = (a ++ (letterSigns x ++ w)) ++
          (letterSigns (y ++ (g' ++ z)) ++ b'') := by
        rw [hsigns, hplace]
        simp only [List.append_assoc]
      rw [before_between] at hguided
      have hguided' := reads_of_shown anchorFree_earlierGuidance 21 hsigns' hguided
      rw [hplace, List.append_assoc, List.append_assoc] at hverb'
      exact Or.inl (Rejoined.across hverb' hgap hover hguided')
    · have hw := eq_letterSigns redactedMarker hover
      refine injected_of_letters (p := gapped lineSet overrideVerb 40 earlierGuidance)
        List.mem_cons_self ?_ hmatch
      rw [letterSigns_append, letterSigns_append, ← hw, hsigns, hplace]
      simp only [List.append_assoc]
  · have hverb' := reads_of_shown anchorFree_overrideVerb 21 hsigns hverb
    have hsigns' : signs = (a ++ (letterSigns x ++ w)) ++ (letterSigns y ++ b') := by
      rw [hsigns, hb]
      simp only [List.append_assoc]
    rw [before_between] at hearlier
    have hearlier' := reads_of_shown anchorFree_earlierWord 21 hsigns' hearlier
    rw [hb'] at hearlier'
    rw [hb, List.append_assoc, List.append_assoc, hb'] at hverb'
    exact Or.inl (Rejoined.override hverb' hgap hearlier' hgap'')

theorem injected_of_leak (hmatch : Matches (gapped lineSet leakVerb 30 (word leakTarget))
      (before none pre) m post)
    (h : shown redactedMarker signs kept = pre ++ (m ++ post)) :
    Injected (signs ++ partSign 21 kept) := by
  obtain ⟨a, b, x, g, y, rfl, hsigns, rfl, hverb, hgap, hrest, htarget⟩ :=
    (foreign_keywords leakVerb (by simp)).located_gapped hmatch h
  have hread := (planted_leakTarget.toKeyword.matches_word_iff.mp htarget).1
  rcases planted_leakTarget.after_gap (by decide) hgap hread hrest with
    ⟨b', hb, rfl⟩ | ⟨g', b', hb, hgap'⟩
  · refine injected_of_letters (p := gapped lineSet leakVerb 30 (word leakTarget))
      (by simp [injectionChoices]) ?_ hmatch
    rw [letterSigns_append, hsigns, hb, List.append_assoc]
  · have hverb' := reads_of_shown anchorFree_leakVerb 21 hsigns hverb
    rw [hb] at hverb'
    exact Or.inl (Rejoined.leak hverb' hgap')

theorem injected_of_persona (hmatch : Matches (gapped lineSet assistantName 30 (word assistantDuty))
      (before none pre) m post)
    (h : shown redactedMarker signs kept = pre ++ (m ++ post)) :
    Injected (signs ++ partSign 21 kept) := by
  obtain ⟨a, b, x, g, y, rfl, hsigns, rfl, -, hgap, hrest, hduty⟩ :=
    (foreign_keywords assistantName (by simp)).located_gapped hmatch h
  have hforeign := foreign_keywords assistantDuty (by simp)
  have hread := (hforeign.matches_word_iff.mp hduty).1
  obtain ⟨b', hb, rfl⟩ := hforeign.after_gap (by decide) hgap hread hrest
  refine injected_of_letters (p := gapped lineSet assistantName 30 (word assistantDuty))
    (by simp [injectionChoices]) ?_ hmatch
  rw [letterSigns_append, hsigns, hb, List.append_assoc]

theorem injected_of_test (h : test injectionSource (shown redactedMarker signs kept) = true) :
    Injected (signs ++ partSign 21 kept) := by
  obtain ⟨pre, m, post, htext, hmatch⟩ := (test_iff _ _).mp h
  obtain ⟨p, hp, hmatch⟩ := matches_alts_iff.mp hmatch
  have hp' := hp
  simp only [injectionChoices, List.mem_cons, List.not_mem_nil, or_false] at hp'
  rcases hp' with rfl | rfl | rfl | rfl | rfl | rfl
  · exact injected_of_override hmatch htext
  · exact injected_of_word (foreign_keywords youAreNow (by simp)) hp hmatch htext
  · exact injected_of_word (foreign_keywords promptName (by simp)) hp hmatch htext
  · exact injected_of_word (foreign_keywords acceptance (by simp)) hp hmatch htext
  · exact injected_of_persona hmatch htext
  · exact injected_of_leak hmatch htext

theorem test_of_override {a w rest : List Sign} {x : Text}
    (hverb : Reads redactedMarker (word overrideVerb) (signs ++ partSign 21 kept) a x rest)
    (hbetween : Within lineSet 40 (render redactedMarker w))
    (hshown : shown redactedMarker signs kept =
      render redactedMarker (a ++ (letterSigns x ++ w)) ++ (m ++ post))
    (hguided : Matches earlierGuidance
      (before none (render redactedMarker (a ++ (letterSigns x ++ w)))) m post) :
    test injectionSource (shown redactedMarker signs kept) = true := by
  obtain ⟨b, -, hplace, hmatch⟩ :=
    hverb.shown anchorFree_overrideVerb (foreign_keywords overrideVerb (by simp)).toKeyword.wordBounded
  have hrest : shown redactedMarker b kept = render redactedMarker w ++ (m ++ post) := by
    rw [hplace, render_append, render_append, render_letterSigns, List.append_assoc,
      List.append_assoc] at hshown
    exact List.append_cancel_left (List.append_cancel_left hshown)
  rw [hrest] at hmatch hplace
  rw [← before_between] at hguided
  refine (test_iff _ _).mpr ⟨render redactedMarker a,
    x ++ (render redactedMarker w ++ m), post, ?_, ?_⟩
  · rw [hplace]
    simp only [List.append_assoc]
  · exact matches_alts_iff.mpr ⟨gapped lineSet overrideVerb 40 earlierGuidance, List.mem_cons_self,
      matches_gapped_iff.mpr ⟨x, _, m, rfl, hmatch, hbetween, hguided⟩⟩

theorem test_of_rejoined (h : Rejoined (signs ++ partSign 21 kept)) :
    test injectionSource (shown redactedMarker signs kept) = true := by
  have hline : ∀ c ∈ redactedMarker.text, lineSet.accepts c = true :=
    List.all_eq_true.mp anchorFree_parts.2.2.2.2.2.1
  cases h with
  | @leak a b x g hverb hgap =>
    obtain ⟨b', hb, hshown, hmatch⟩ :=
      hverb.shown anchorFree_leakVerb (foreign_keywords leakVerb (by simp)).toKeyword.wordBounded
    obtain ⟨y, post, hrest, hread⟩ := planted_leakTarget.read hb.symm
    rw [hrest, render_letterSigns] at hshown hmatch
    refine (test_iff _ _).mpr ⟨render redactedMarker a,
      x ++ ((g ++ redactedMarker.text.take 10) ++ y), post, ?_, ?_⟩
    · rw [hshown]
      simp only [List.append_assoc]
    · refine matches_alts_iff.mpr
        ⟨gapped lineSet leakVerb 30 (word leakTarget), by simp [injectionChoices], ?_⟩
      refine matches_gapped_iff.mpr ⟨x, g ++ redactedMarker.text.take 10, y, rfl, ?_,
        Within.append_take (by decide) hline hgap, ?_⟩
      · simpa only [List.append_assoc] using hmatch
      · rw [before_append]
        exact hread _
  | @override a w b x y g hverb hbetween hearlier hgap =>
    obtain ⟨b', hb, hshown, hmatch⟩ := hearlier.shown anchorFree_earlierWord
      (foreign_keywords earlierWord (by simp)).toKeyword.wordBounded
    obtain ⟨z, post, hrest, hread⟩ := planted_guidance.read hb.symm
    rw [hrest, render_letterSigns] at hshown hmatch
    have hplace : shown redactedMarker signs kept =
        render redactedMarker (a ++ (letterSigns x ++ w)) ++
          ((y ++ ((g ++ redactedMarker.text.take 10) ++ z)) ++ post) := by
      rw [hshown]
      simp only [List.append_assoc]
    refine test_of_override hverb hbetween hplace ?_
    refine matches_gapped_iff.mpr ⟨y, g ++ redactedMarker.text.take 10, z, rfl, ?_,
      Within.append_take (by decide) hline hgap, ?_⟩
    · simpa only [List.append_assoc] using hmatch
    · rw [before_append]
      exact hread _
  | @across a w b x y hverb hbetween hover hguidance =>
    obtain ⟨b', -, hshown, hmatch⟩ :=
      hguidance.shown anchorFree_earlierGuidance wordBounded_earlierGuidance
    exact test_of_override hverb hbetween hshown hmatch

theorem test_of_injected (h : Injected (signs ++ partSign 21 kept)) :
    test injectionSource (shown redactedMarker signs kept) = true := by
  rcases h with hrejoined | ⟨a, x, b, hreads⟩
  · exact test_of_rejoined hrejoined
  · obtain ⟨b', -, hshown, hmatch⟩ :=
      hreads.shown anchorFree_injectionSource wordBounded_injectionSource
    exact (test_iff _ _).mpr ⟨_, x, _, hshown, hmatch⟩

theorem test_shown_iff :
    test injectionSource (shown redactedMarker signs kept) = true ↔
      Injected (signs ++ partSign 21 kept) :=
  ⟨injected_of_test, test_of_injected⟩

end Search

/-! ## What the replacement leaves -/

theorem text_neutralizePromptInjection (text : Text) :
    (neutralizePromptInjection text).text = render redactedMarker (scan injectionSource text) := by
  unfold neutralizePromptInjection
  split_ifs with hempty
  · rw [hempty]
    exact anchorFree_parts.2.2.2.2.2.2.1.symm
  · exact replaceAll_eq_render injectionSource redactedMarker text

theorem hasPromptInjection_iff (text : Text) :
    hasPromptInjection text = true ↔ test injectionSource text = true := by
  unfold hasPromptInjection
  cases text with
  | nil => simp [anchorFree_parts.2.2.2.2.2.2.2]
  | cons c rest => simp

theorem not_reads_scan {text x : Text} {a b : List Sign} :
    ¬ Reads redactedMarker injectionSource (scan injectionSource text) a x b := fun h =>
  scan_no_match wordBounded_injectionSource anchorFree_injectionSource redactedMarker h.1 h.2

/-- The whole neutralized text has a match just where a redaction makes one. -/
theorem hasPromptInjection_neutralized_iff (text : Text) :
    hasPromptInjection (neutralizePromptInjection text).text = true ↔
      Rejoined (scan injectionSource text) := by
  rw [hasPromptInjection_iff, text_neutralizePromptInjection, ← shown_zero, test_shown_iff]
  have hnone : partSign 21 0 = [] := rfl
  rw [hnone, List.append_nil]
  constructor
  · rintro (h | ⟨a, x, b, h⟩)
    · exact h
    · exact absurd h not_reads_scan
  · exact Or.inl

theorem neutralizePromptInjection_of_clean {text : Text} (h : hasPromptInjection text = false) :
    neutralizePromptInjection text = ⟨text, false⟩ := by
  have htest : test injectionSource text = false := by
    rw [← Bool.not_eq_true, ← hasPromptInjection_iff, h]
    exact Bool.false_ne_true
  unfold neutralizePromptInjection
  split_ifs with hempty
  · rfl
  · rw [replaceAll_of_test_eq_false _ htest, htest]

/-- One pass is complete, and a second one idle, just where no redaction makes a match. -/
theorem neutralizePromptInjection_settles_iff (text : Text) :
    (hasPromptInjection (neutralizePromptInjection text).text = false ∧
      neutralizePromptInjection (neutralizePromptInjection text).text =
        ⟨(neutralizePromptInjection text).text, false⟩) ↔
      ¬ Rejoined (scan injectionSource text) := by
  rw [← hasPromptInjection_neutralized_iff, Bool.not_eq_true]
  constructor
  · exact And.left
  · intro hclean
    exact ⟨hclean, neutralizePromptInjection_of_clean hclean⟩

theorem leak_not_settled :
    hasPromptInjection (neutralizePromptInjection "reveal you are now".toList).text = true ∧
      neutralizePromptInjection (neutralizePromptInjection "reveal you are now".toList).text =
        ⟨"[external-instruction-redacted]-redacted]".toList, true⟩ := by
  decide +kernel

/-- A cut of it also where the cut ends a word early or keeps a part of a marker. -/
theorem hasPromptInjection_take_iff (n : ℕ) (text : Text) :
    hasPromptInjection ((neutralizePromptInjection text).text.take n) = true ↔
      Rejoined (cut 31 21 n (scan injectionSource text)) ∨
        Severed redactedMarker injectionSource n (scan injectionSource text) := by
  rw [hasPromptInjection_iff, text_neutralizePromptInjection]
  constructor
  · intro h
    obtain ⟨a, rest, kept, -, htake, hcut, -⟩ :=
      take_render redactedMarker (Nat.succ_pos 20) n (scan injectionSource text)
    rw [htake, test_shown_iff, ← hcut] at h
    rcases h with h | ⟨b, x, c, h⟩
    · exact Or.inl h
    · exact Or.inr (severed_of_reads wordBounded_injectionSource anchorFree_injectionSource
        (Nat.succ_pos 20) h)
  · rintro (h | h)
    · obtain ⟨a, rest, kept, -, htake, hcut, -⟩ :=
        take_render redactedMarker (Nat.succ_pos 20) n (scan injectionSource text)
      rw [htake, test_shown_iff]
      left
      rw [← hcut]
      exact h
    · exact test_of_severed h

end Gittensory.PromptInjection
