import Gittensory.Rewriting

/-!
A capturing group: a pattern is read as what leads to the group, the group, and what trails it,
and the group holds what the engine read there on its first way through. A search returns the
group of the first place at which there is a match. Where a text determines what the group
reads, the places of a text and those of the text that follows it can be listed one after the
other, unless a match starts in the one and ends in the other.
-/
namespace Gittensory.Capturing

open PatternOverlap Redaction Rewriting TextPattern

structure Capture where
  lead : Pattern
  group : Pattern
  trail : Pattern

namespace Capture

variable (cap : Capture)

/-- What the group reads in the matches that start here, in the order of the engine. -/
def readings (prev : Option Char) (text : Text) : List Text :=
  (ends cap.lead prev text).flatMap fun lead =>
    (ends cap.group (before prev lead.1) lead.2).flatMap fun group =>
      (ends cap.trail (before (before prev lead.1) group.1) group.2).map fun _ => group.1

def captured (prev : Option Char) (text : Text) : Option Text := (cap.readings prev text).head?

/-- The group of each place at which there is a match. -/
def foundFrom : Option Char → Text → List Text
  | prev, [] => (cap.captured prev []).toList
  | prev, c :: rest => (cap.captured prev (c :: rest)).toList ++ foundFrom (some c) rest

def found (text : Text) : List Text := cap.foundFrom none text

/-- The group of the first match in the text. -/
def first (text : Text) : Option Text := (cap.found text).head?

/-- The letters of a match, with what the group reads of them. -/
def Spells (m group : Text) : Prop :=
  ∃ l r, m = l ++ (group ++ r) ∧ Matches cap.lead none l [] ∧ Matches cap.group none group [] ∧
    Matches cap.trail none r []

/-- No part looks around, no match is empty, and a text determines what the group reads. -/
structure Lawful : Prop where
  lead : plain cap.lead = true
  group : plain cap.group = true
  trail : plain cap.trail = true
  nonempty : nullable cap.lead = false
  unique : ∀ {m m' group group' post post' : Text}, cap.Spells m group → cap.Spells m' group' →
    m ++ post = m' ++ post' → group = group'

/-- No match that starts before the text ends within it. -/
def Blocks (text : Text) : Prop :=
  ∀ x y group post, cap.Spells (x ++ y) group → x ≠ [] → y ≠ [] → text ≠ y ++ post

end Capture

variable {cap : Capture} {prev : Option Char} {text group : Text}

theorem mem_readings_iff (h : cap.Lawful) :
    group ∈ cap.readings prev text ↔ ∃ m post, text = m ++ post ∧ cap.Spells m group := by
  simp only [Capture.readings, List.mem_flatMap, List.mem_map]
  constructor
  · rintro ⟨⟨l, rest⟩, hlead, ⟨g, rest'⟩, hgroup, ⟨r, post⟩, htrail, rfl⟩
    obtain ⟨rfl, hl⟩ := (mem_ends_iff _ _ _ _ _).mp hlead
    obtain ⟨rfl, hg⟩ := (mem_ends_iff _ _ _ _ _).mp hgroup
    obtain ⟨rfl, hr⟩ := (mem_ends_iff _ _ _ _ _).mp htrail
    exact ⟨l ++ (g ++ r), post, by simp only [List.append_assoc], l, r, rfl,
      matches_of_plain hl h.lead _ _, matches_of_plain hg h.group _ _,
      matches_of_plain hr h.trail _ _⟩
  · rintro ⟨m, post, rfl, l, r, rfl, hl, hg, hr⟩
    rw [List.append_assoc, List.append_assoc]
    exact ⟨(l, group ++ (r ++ post)),
      (mem_ends_iff _ _ _ _ _).mpr ⟨rfl, matches_of_plain hl h.lead _ _⟩,
      (group, r ++ post), (mem_ends_iff _ _ _ _ _).mpr ⟨rfl, matches_of_plain hg h.group _ _⟩,
      (r, post), (mem_ends_iff _ _ _ _ _).mpr ⟨rfl, matches_of_plain hr h.trail _ _⟩, rfl⟩

theorem captured_eq_some_iff (h : cap.Lawful) :
    cap.captured prev text = some group ↔ ∃ m post, text = m ++ post ∧ cap.Spells m group := by
  rw [← @mem_readings_iff cap prev text group h]
  constructor
  · exact fun hhead => List.mem_of_mem_head? hhead
  · intro hmem
    cases hreadings : cap.readings prev text with
    | nil =>
      rw [hreadings] at hmem
      exact absurd hmem List.not_mem_nil
    | cons first others =>
      have hfirst : first ∈ cap.readings prev text := by
        rw [hreadings]
        exact List.mem_cons_self
      obtain ⟨m, post, rfl, hspells⟩ := (mem_readings_iff h).mp hmem
      obtain ⟨m', post', htext, hspells'⟩ := (mem_readings_iff h).mp hfirst
      rw [Capture.captured, hreadings, List.head?_cons, h.unique hspells hspells' htext]

theorem captured_eq_none_iff (h : cap.Lawful) :
    cap.captured prev text = none ↔ ∀ m post group, text = m ++ post → ¬ cap.Spells m group := by
  constructor
  · intro hnone m post group htext hspells
    rw [(captured_eq_some_iff h).mpr ⟨m, post, htext, hspells⟩] at hnone
    cases hnone
  · intro hall
    cases hcaptured : cap.captured prev text with
    | none => rfl
    | some group =>
      obtain ⟨m, post, htext, hspells⟩ := (captured_eq_some_iff h).mp hcaptured
      exact absurd hspells (hall m post group htext)

theorem captured_congr (h : cap.Lawful) (prev prev' : Option Char) (text : Text) :
    cap.captured prev text = cap.captured prev' text := by
  cases hcaptured : cap.captured prev' text with
  | none => exact (captured_eq_none_iff h).mpr ((captured_eq_none_iff h).mp hcaptured)
  | some group => exact (captured_eq_some_iff h).mpr ((captured_eq_some_iff h).mp hcaptured)

theorem ne_nil_of_spells (h : cap.Lawful) {m : Text} (hspells : cap.Spells m group) : m ≠ [] := by
  obtain ⟨l, r, rfl, hl, -, -⟩ := hspells
  exact fun hnil => ne_nil_of_matches hl h.nonempty (List.append_eq_nil_iff.mp hnil).1

theorem foundFrom_eq_found (h : cap.Lawful) (prev : Option Char) (text : Text) :
    cap.foundFrom prev text = cap.found text := by
  unfold Capture.found
  cases text with
  | nil => rw [Capture.foundFrom, Capture.foundFrom, captured_congr h prev none]
  | cons c rest => rw [Capture.foundFrom, Capture.foundFrom, captured_congr h prev none]

theorem found_nil (h : cap.Lawful) : cap.found [] = [] := by
  have hnone : cap.captured none [] = none := by
    rw [captured_eq_none_iff h]
    intro m post group htext hspells
    exact ne_nil_of_spells h hspells (List.append_eq_nil_iff.mp htext.symm).1
  rw [Capture.found, Capture.foundFrom, hnone, Option.toList_none]

theorem found_cons (h : cap.Lawful) (c : Char) (rest : Text) :
    cap.found (c :: rest) = (cap.captured none (c :: rest)).toList ++ cap.found rest := by
  rw [Capture.found, Capture.foundFrom, foundFrom_eq_found h]

theorem mem_found_iff (h : cap.Lawful) :
    group ∈ cap.found text ↔ ∃ a m b, text = a ++ (m ++ b) ∧ cap.Spells m group := by
  induction text with
  | nil =>
    rw [found_nil h]
    constructor
    · exact fun hmem => absurd hmem List.not_mem_nil
    · rintro ⟨a, m, b, htext, hspells⟩
      obtain ⟨-, hrest⟩ := List.append_eq_nil_iff.mp htext.symm
      exact absurd (List.append_eq_nil_iff.mp hrest).1 (ne_nil_of_spells h hspells)
  | cons c rest ih =>
    rw [found_cons h, List.mem_append, ih, Option.mem_toList,
      captured_eq_some_iff h]
    constructor
    · rintro (⟨m, b, htext, hspells⟩ | ⟨a, m, b, rfl, hspells⟩)
      · exact ⟨[], m, b, htext, hspells⟩
      · exact ⟨c :: a, m, b, rfl, hspells⟩
    · rintro ⟨a, m, b, htext, hspells⟩
      cases a with
      | nil => exact Or.inl ⟨m, b, htext, hspells⟩
      | cons d a =>
        obtain ⟨rfl, hrest⟩ := List.cons.inj htext
        exact Or.inr ⟨a, m, b, hrest, hspells⟩

/-! ## Texts one after the other -/

theorem captured_append (h : cap.Lawful) {a b : Text} (ha : a ≠ []) (hb : cap.Blocks b) :
    cap.captured none (a ++ b) = cap.captured none a := by
  cases hcaptured : cap.captured none a with
  | some group =>
    obtain ⟨m, post, rfl, hspells⟩ := (captured_eq_some_iff h).mp hcaptured
    exact (captured_eq_some_iff h).mpr ⟨m, post ++ b, List.append_assoc _ _ _, hspells⟩
  | none =>
    rw [captured_eq_none_iff h] at hcaptured ⊢
    intro m post group htext hspells
    rcases List.append_eq_append_iff.mp htext with ⟨y, rfl, hrest⟩ | ⟨y, rfl, -⟩
    · by_cases hy : y = []
      · rw [hy, List.append_nil] at hspells
        exact hcaptured a [] group (List.append_nil a).symm hspells
      · exact hb a y group post hspells ha hy hrest
    · exact hcaptured m y group rfl hspells

theorem found_append (h : cap.Lawful) (a : Text) {b : Text} (hb : cap.Blocks b) :
    cap.found (a ++ b) = cap.found a ++ cap.found b := by
  induction a with
  | nil => rw [found_nil h, List.nil_append, List.nil_append]
  | cons c a ih =>
    have hhead := captured_append h (List.cons_ne_nil c a) hb
    rw [List.cons_append] at hhead ⊢
    rw [found_cons h, found_cons h, ih, hhead, List.append_assoc]

theorem found_eq_nil (h : cap.Lawful) {c : Char} (hneeds : needs c cap.lead = true)
    (hc : c ∉ text) : cap.found text = [] := by
  rw [List.eq_nil_iff_forall_not_mem]
  intro group hmem
  obtain ⟨a, m, b, rfl, l, r, rfl, hl, -, -⟩ := (mem_found_iff h).mp hmem
  exact hc (by simp [hl.mem_of_needs hneeds])

/-- No part accepts the letter. -/
def Capture.avoids (cap : Capture) (sep : Char) : Bool :=
  TextPattern.avoids sep cap.lead && (TextPattern.avoids sep cap.group &&
    TextPattern.avoids sep cap.trail)

theorem not_mem_of_spells {sep : Char} (hsep : cap.avoids sep = true) {m : Text}
    (hspells : cap.Spells m group) : sep ∉ m := by
  obtain ⟨hlead, hrest⟩ := Bool.and_eq_true_iff.mp hsep
  obtain ⟨hgroup, htrail⟩ := Bool.and_eq_true_iff.mp hrest
  obtain ⟨l, r, rfl, hl, hg, hr⟩ := hspells
  rw [List.mem_append, List.mem_append, not_or, not_or]
  exact ⟨hl.not_mem_of_avoids hlead, hg.not_mem_of_avoids hgroup, hr.not_mem_of_avoids htrail⟩

theorem blocks_separator {sep : Char} (hsep : cap.avoids sep = true) (text : Text) :
    cap.Blocks (sep :: text) := by
  intro x y group post hspells _ hy htext
  obtain ⟨c, y, rfl⟩ := List.exists_cons_of_ne_nil hy
  obtain ⟨rfl, -⟩ := List.cons.inj htext
  exact not_mem_of_spells hsep hspells (by simp)

theorem found_separator (h : cap.Lawful) {sep : Char} (hsep : cap.avoids sep = true)
    (a b : Text) : cap.found (a ++ sep :: b) = cap.found a ++ cap.found b := by
  have hnone : cap.captured none (sep :: b) = none := by
    rw [captured_eq_none_iff h]
    intro m post group htext hspells
    obtain ⟨c, m, rfl⟩ := List.exists_cons_of_ne_nil (ne_nil_of_spells h hspells)
    obtain ⟨rfl, -⟩ := List.cons.inj htext
    exact not_mem_of_spells hsep hspells List.mem_cons_self
  rw [found_append h a (blocks_separator hsep b), found_cons h, hnone, Option.toList_none,
    List.nil_append]

/-! ## Stretches of a text that their letters determine -/

/-- The letters before the first that is not in a set. -/
theorem stretch_unique {p : Char → Bool} {s s' x x' : Text} (hs : ∀ c ∈ s, p c = true)
    (hs' : ∀ c ∈ s', p c = true) (hx : ∀ c ∈ x.head?, p c = false)
    (hx' : ∀ c ∈ x'.head?, p c = false) (h : s ++ x = s' ++ x') : s = s' ∧ x = x' := by
  induction s generalizing s' with
  | nil =>
    cases s' with
    | nil => exact ⟨rfl, h⟩
    | cons c s' =>
      rw [List.nil_append] at h
      have hout := hx c (by rw [h]; exact rfl)
      rw [hs' c List.mem_cons_self] at hout
      cases hout
  | cons c s ih =>
    cases s' with
    | nil =>
      rw [List.nil_append] at h
      have hout := hx' c (by rw [← h]; exact rfl)
      rw [hs c List.mem_cons_self] at hout
      cases hout
    | cons d s' =>
      obtain ⟨rfl, hrest⟩ := List.cons.inj h
      obtain ⟨rfl, rfl⟩ := ih (fun e he => hs e (List.mem_cons_of_mem _ he))
        (fun e he => hs' e (List.mem_cons_of_mem _ he)) hrest
      exact ⟨rfl, rfl⟩

end Gittensory.Capturing
