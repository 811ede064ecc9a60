import Mathlib.Data.List.Basic

/-!
The words of a list: its maximal runs of kept elements. Replacing every run of other
elements by one separator leaves the words apart from a separator at either end, so two
lists agree after the replacement, up to those, when they have the same words.
-/
namespace Gittensory.WordRuns

variable {α : Type*} (kept : α → Bool)

def close (word : List α) (words : List (List α)) : List (List α) :=
  if word = [] then words else word :: words

/-- The run of kept elements a list starts with, and the words after it. -/
def runs : List α → List α × List (List α)
  | [] => ([], [])
  | a :: rest =>
      if kept a then (a :: (runs rest).1, (runs rest).2)
      else ([], close (runs rest).1 (runs rest).2)

def words (l : List α) : List (List α) := close (runs kept l).1 (runs kept l).2

theorem runs_cons_of_kept {a : α} (h : kept a = true) (rest : List α) :
    runs kept (a :: rest) = (a :: (runs kept rest).1, (runs kept rest).2) := by
  rw [runs, if_pos h]

theorem runs_cons_of_not {a : α} (h : kept a = false) (rest : List α) :
    runs kept (a :: rest) = ([], words kept rest) := by
  rw [runs, if_neg (Bool.eq_false_iff.mp h), words]

theorem words_cons_of_not {a : α} (h : kept a = false) (rest : List α) :
    words kept (a :: rest) = words kept rest := by
  rw [words, runs_cons_of_not kept h, close, if_pos rfl]

theorem words_cons_of_kept {a : α} (h : kept a = true) (rest : List α) :
    words kept (a :: rest) = (a :: (runs kept rest).1) :: (runs kept rest).2 := by
  rw [words, runs_cons_of_kept kept h, close, if_neg (List.cons_ne_nil _ _)]

theorem words_append_of_not_left {pre : List α} (h : ∀ a ∈ pre, kept a = false)
    (l : List α) : words kept (pre ++ l) = words kept l := by
  induction pre with
  | nil => rfl
  | cons a pre ih =>
    rw [List.cons_append, words_cons_of_not kept (h a (List.mem_cons_self ..)),
      ih fun b hb => h b (List.mem_cons_of_mem _ hb)]

theorem words_of_not {l : List α} (h : ∀ a ∈ l, kept a = false) : words kept l = [] := by
  rw [← List.append_nil l, words_append_of_not_left kept h]
  rfl

theorem runs_of_not {l : List α} (h : ∀ a ∈ l, kept a = false) : runs kept l = ([], []) := by
  cases l with
  | nil => rfl
  | cons a rest =>
    rw [runs_cons_of_not kept (h a (List.mem_cons_self ..)),
      words_of_not kept fun b hb => h b (List.mem_cons_of_mem _ hb)]

theorem runs_append_of_not_right {post : List α} (h : ∀ a ∈ post, kept a = false)
    (l : List α) : runs kept (l ++ post) = runs kept l := by
  induction l with
  | nil => rw [List.nil_append, runs_of_not kept h, runs]
  | cons a rest ih =>
    rw [List.cons_append]
    cases ha : kept a with
    | true => rw [runs_cons_of_kept kept ha, runs_cons_of_kept kept ha, ih]
    | false =>
      rw [runs_cons_of_not kept ha, runs_cons_of_not kept ha, words, words, ih]

theorem words_append_of_not_right {post : List α} (h : ∀ a ∈ post, kept a = false)
    (l : List α) : words kept (l ++ post) = words kept l := by
  rw [words, words, runs_append_of_not_right kept h]

/-- Elements outside the words may be spelled by any others outside them. -/
theorem runs_flatMap {spell : α → List α} (hkept : ∀ a, kept a = true → spell a = [a])
    (hnot : ∀ a, kept a = false → spell a ≠ [] ∧ ∀ b ∈ spell a, kept b = false) (l : List α) :
    runs kept (l.flatMap spell) = runs kept l := by
  induction l with
  | nil => rfl
  | cons a rest ih =>
    rw [List.flatMap_cons]
    cases ha : kept a with
    | true =>
      rw [hkept a ha, List.singleton_append, runs_cons_of_kept kept ha,
        runs_cons_of_kept kept ha, ih]
    | false =>
      obtain ⟨hne, hall⟩ := hnot a ha
      cases hspell : spell a with
      | nil => exact absurd hspell hne
      | cons b more =>
        rw [hspell] at hall
        rw [List.cons_append, runs_cons_of_not kept (hall b (List.mem_cons_self ..)),
          words_append_of_not_left kept fun c hc => hall c (List.mem_cons_of_mem _ hc),
          runs_cons_of_not kept ha, words, ih, words]

theorem words_flatMap {spell : α → List α} (hkept : ∀ a, kept a = true → spell a = [a])
    (hnot : ∀ a, kept a = false → spell a ≠ [] ∧ ∀ b ∈ spell a, kept b = false) (l : List α) :
    words kept (l.flatMap spell) = words kept l := by
  rw [words, words, runs_flatMap kept hkept hnot]

/-- The words hold the kept elements and nothing else. -/
theorem flatten_runs (l : List α) :
    (runs kept l).1 ++ (runs kept l).2.flatten = l.filter kept := by
  induction l with
  | nil => rfl
  | cons a rest ih =>
    cases ha : kept a with
    | true =>
      rw [runs_cons_of_kept kept ha, List.filter_cons_of_pos ha, ← ih]
      rfl
    | false =>
      rw [runs_cons_of_not kept ha, List.filter_cons_of_neg (Bool.eq_false_iff.mp ha), ← ih,
        List.nil_append, words, close]
      split_ifs with h
      · rw [h, List.nil_append]
      · rw [List.flatten_cons]

theorem flatten_words (l : List α) : (words kept l).flatten = l.filter kept := by
  rw [← flatten_runs kept l, words, close]
  split_ifs with h
  · rw [h, List.nil_append]
  · rw [List.flatten_cons]

/-! ## One separator for a run -/

/-- `text.replace(/[^kept]+/g, separator)` from inside a run that is replaced already, or
from outside one. -/
def replaceRunsFrom (separator : α) : Bool → List α → List α
  | _, [] => []
  | inRun, a :: rest =>
      if kept a then a :: replaceRunsFrom separator false rest
      else if inRun then replaceRunsFrom separator true rest
      else separator :: replaceRunsFrom separator true rest

def replaceRuns (separator : α) (l : List α) : List α := replaceRunsFrom kept separator false l

variable {kept}

theorem filter_replaceRunsFrom {separator : α} {part : α → Bool}
    (hpart : ∀ a, part a = true → kept a = true) (hsep : part separator = false) (inRun : Bool)
    (l : List α) : (replaceRunsFrom kept separator inRun l).filter part = l.filter part := by
  induction l generalizing inRun with
  | nil => rfl
  | cons a rest ih =>
    unfold replaceRunsFrom
    by_cases ha : kept a = true
    · rw [if_pos ha, List.filter_cons, List.filter_cons, ih]
    · have hout : part a ≠ true := fun h => ha (hpart a h)
      rw [if_neg ha, List.filter_cons_of_neg hout]
      cases inRun with
      | true => rw [if_pos rfl, ih]
      | false =>
        rw [if_neg Bool.false_ne_true, List.filter_cons_of_neg (Bool.eq_false_iff.mp hsep), ih]

/-- The elements of a part of the kept ones stay as they are and where they are. -/
theorem filter_replaceRuns {separator : α} {part : α → Bool}
    (hpart : ∀ a, part a = true → kept a = true) (hsep : part separator = false) (l : List α) :
    (replaceRuns kept separator l).filter part = l.filter part :=
  filter_replaceRunsFrom hpart hsep false l

/-- The words after the first, each behind a separator. -/
def behind (separator : α) (words : List (List α)) : List α :=
  words.flatMap (fun word => separator :: word)

theorem intercalate_cons (separator : α) (word : List α) (words : List (List α)) :
    [separator].intercalate (word :: words) = word ++ behind separator words := by
  induction words generalizing word with
  | nil => simp [behind]
  | cons next words ih =>
    rw [List.intercalate_cons_cons, ih, behind, behind, List.flatMap_cons, List.append_assoc]
    rfl

/-- The words joined by separators, and more separators at the end at most. -/
theorem replaceRunsFrom_eq (separator : α) (l : List α) :
    (∃ trail, (∀ a ∈ trail, a = separator) ∧ replaceRunsFrom kept separator false l =
      (runs kept l).1 ++ behind separator (runs kept l).2 ++ trail) ∧
    ∃ trail, (∀ a ∈ trail, a = separator) ∧ replaceRunsFrom kept separator true l =
      [separator].intercalate (words kept l) ++ trail := by
  induction l with
  | nil => exact ⟨⟨[], List.forall_mem_nil _, rfl⟩, [], List.forall_mem_nil _, rfl⟩
  | cons a rest ih =>
    obtain ⟨⟨trail, htrail, hout⟩, inner, hinner, hin⟩ := ih
    cases ha : kept a with
    | true =>
      refine ⟨⟨trail, htrail, ?_⟩, trail, htrail, ?_⟩
      · rw [replaceRunsFrom, if_pos ha, hout, runs_cons_of_kept kept ha]
        rfl
      · rw [replaceRunsFrom, if_pos ha, hout, words_cons_of_kept kept ha, intercalate_cons]
        rfl
    | false =>
      have hnot : ¬ kept a = true := Bool.eq_false_iff.mp ha
      refine ⟨?_, inner, hinner, ?_⟩
      · rw [replaceRunsFrom, if_neg hnot, if_neg Bool.false_ne_true, hin,
          runs_cons_of_not kept ha]
        cases hwords : words kept rest with
        | nil =>
          refine ⟨separator :: inner, ?_, rfl⟩
          intro b hb
          rcases List.mem_cons.mp hb with rfl | hb
          · rfl
          · exact hinner b hb
        | cons word more =>
          refine ⟨inner, hinner, ?_⟩
          rw [intercalate_cons]
          rfl
      · rw [replaceRunsFrom, if_neg hnot, if_pos rfl, hin, words_cons_of_not kept ha]

theorem replaceRuns_eq (separator : α) (l : List α) :
    ∃ lead trail, (∀ a ∈ lead, a = separator) ∧ (∀ a ∈ trail, a = separator) ∧
      replaceRuns kept separator l =
        lead ++ [separator].intercalate (words kept l) ++ trail := by
  obtain ⟨⟨trail, htrail, h⟩, _⟩ := @replaceRunsFrom_eq _ kept separator l
  rw [replaceRuns, h, words, close]
  split_ifs with hword
  · rw [hword, List.nil_append]
    cases (runs kept l).2 with
    | nil => exact ⟨[], trail, List.forall_mem_nil _, htrail, rfl⟩
    | cons word more =>
      refine ⟨[separator], trail, fun a ha => List.mem_singleton.mp ha, htrail, ?_⟩
      rw [intercalate_cons]
      rfl
  · refine ⟨[], trail, List.forall_mem_nil _, htrail, ?_⟩
    rw [intercalate_cons, List.nil_append]

theorem ne_nil_of_mem_runs {l word : List α} (h : word ∈ (runs kept l).2) : word ≠ [] := by
  induction l with
  | nil => exact absurd h List.not_mem_nil
  | cons a rest ih =>
    cases ha : kept a with
    | true =>
      rw [runs_cons_of_kept kept ha] at h
      exact ih h
    | false =>
      rw [runs_cons_of_not kept ha, words, close] at h
      split_ifs at h with hempty
      · exact ih h
      · rcases List.mem_cons.mp h with rfl | h
        · exact hempty
        · exact ih h

/-- No word is empty and every word is kept throughout. -/
theorem mem_words {l word : List α} (h : word ∈ words kept l) :
    word ≠ [] ∧ ∀ a ∈ word, kept a = true := by
  constructor
  · rw [words, close] at h
    split_ifs at h with hempty
    · exact ne_nil_of_mem_runs h
    · rcases List.mem_cons.mp h with rfl | h
      · exact hempty
      · exact ne_nil_of_mem_runs h
  · intro a ha
    have hmem : a ∈ (words kept l).flatten := List.mem_flatten.mpr ⟨word, h, ha⟩
    rw [flatten_words] at hmem
    exact (List.mem_filter.mp hmem).2

theorem runs_append_of_kept {word : List α} (h : ∀ a ∈ word, kept a = true) (l : List α) :
    runs kept (word ++ l) = (word ++ (runs kept l).1, (runs kept l).2) := by
  induction word with
  | nil => rfl
  | cons a word ih =>
    rw [List.cons_append, runs_cons_of_kept kept (h a (List.mem_cons_self ..)),
      ih fun b hb => h b (List.mem_cons_of_mem _ hb)]
    rfl

theorem runs_behind {separator : α} (hsep : kept separator = false) {list : List (List α)}
    (h : ∀ word ∈ list, word ≠ [] ∧ ∀ a ∈ word, kept a = true) :
    runs kept (behind separator list) = ([], list) := by
  induction list with
  | nil => rfl
  | cons word list ih =>
    obtain ⟨hne, hall⟩ := h word (List.mem_cons_self ..)
    have hrest := ih fun later hlater => h later (List.mem_cons_of_mem _ hlater)
    have hstep : behind separator (word :: list) =
        separator :: (word ++ behind separator list) := rfl
    rw [hstep, runs_cons_of_not kept hsep, words, runs_append_of_kept hall, hrest,
      List.append_nil, close, if_neg hne]

/-- Joined by a separator outside the words, the words can be read back. -/
theorem words_intercalate {separator : α} (hsep : kept separator = false)
    {list : List (List α)} (h : ∀ word ∈ list, word ≠ [] ∧ ∀ a ∈ word, kept a = true) :
    words kept ([separator].intercalate list) = list := by
  cases list with
  | nil => rfl
  | cons word list =>
    obtain ⟨hne, hall⟩ := h word (List.mem_cons_self ..)
    have hrest := runs_behind hsep fun later hlater => h later (List.mem_cons_of_mem _ hlater)
    rw [intercalate_cons, words, runs_append_of_kept hall, hrest, List.append_nil, close,
      if_neg hne]

/-- The joined words start and end with a kept element. -/
theorem kept_ends_intercalate {separator : α} {list : List (List α)}
    (h : ∀ word ∈ list, word ≠ [] ∧ ∀ a ∈ word, kept a = true) {a : α}
    (ha : ([separator].intercalate list).head? = some a ∨
      ([separator].intercalate list).getLast? = some a) : kept a = true := by
  cases list with
  | nil => rcases ha with ha | ha <;> exact absurd ha (Option.some_ne_none a).symm
  | cons word list =>
    obtain ⟨hne, hall⟩ := h word (List.mem_cons_self ..)
    rw [intercalate_cons] at ha
    rcases ha with ha | ha
    · rw [List.head?_append_of_ne_nil _ hne] at ha
      exact hall a (List.mem_of_mem_head? ha)
    · clear hne
      induction list generalizing word with
      | nil =>
        rw [behind, List.flatMap_nil, List.append_nil] at ha
        exact hall a (List.mem_of_mem_getLast? ha)
      | cons next list ih =>
        obtain ⟨hnext, hkept⟩ := h next (List.mem_cons_of_mem _ (List.mem_cons_self ..))
        have hstep : word ++ behind separator (next :: list) =
            (word ++ [separator]) ++ (next ++ behind separator list) := by
          rw [behind, List.flatMap_cons, ← behind, List.append_assoc]
          rfl
        rw [hstep, List.getLast?_append_of_ne_nil] at ha
        · exact ih next (fun w hw => h w (List.mem_cons_of_mem _ hw)) hkept ha
        · exact fun hnil => hnext (List.append_eq_nil_iff.mp hnil).1

/-! ## Joined words, cut short -/

/-- A cut leaves joined words, or falls right behind the separator after one. -/
theorem take_intercalate {separator : α} {list : List (List α)}
    (h : ∀ word ∈ list, word ≠ [] ∧ ∀ a ∈ word, kept a = true) (n : ℕ) :
    ∃ front : List (List α), (∀ word ∈ front, word ≠ [] ∧ ∀ a ∈ word, kept a = true) ∧
      (([separator].intercalate list).take n = [separator].intercalate front ∨
        front ≠ [] ∧
          ([separator].intercalate list).take n = [separator].intercalate front ++ [separator]) := by
  have hcut : ∀ (word : List α), (word ≠ [] ∧ ∀ a ∈ word, kept a = true) → ∀ n,
      ∃ front : List (List α), (∀ word ∈ front, word ≠ [] ∧ ∀ a ∈ word, kept a = true) ∧
        word.take n = [separator].intercalate front := by
    intro word hword n
    by_cases hnil : word.take n = []
    · exact ⟨[], List.forall_mem_nil _, hnil⟩
    · refine ⟨[word.take n], ?_, (List.intercalate_singleton ..).symm⟩
      intro other hother
      obtain rfl := List.mem_singleton.mp hother
      exact ⟨hnil, fun a ha => hword.2 a (List.mem_of_mem_take ha)⟩
  induction list generalizing n with
  | nil => exact ⟨[], List.forall_mem_nil _, Or.inl List.take_nil⟩
  | cons word list ih =>
    have hword := h word (List.mem_cons_self ..)
    have hlist := fun later hlater => h later (List.mem_cons_of_mem _ hlater)
    cases list with
    | nil =>
      obtain ⟨front, hfront, heq⟩ := hcut word hword n
      exact ⟨front, hfront, Or.inl (by rw [List.intercalate_singleton, heq])⟩
    | cons next rest =>
      rw [List.intercalate_cons_cons, List.append_assoc, List.take_append]
      by_cases hshort : n ≤ word.length
      · obtain ⟨front, hfront, heq⟩ := hcut word hword n
        refine ⟨front, hfront, Or.inl ?_⟩
        rw [Nat.sub_eq_zero_of_le hshort, List.take_zero, List.append_nil, heq]
      · obtain ⟨m, rfl⟩ : ∃ m, n = word.length + (m + 1) := ⟨n - word.length - 1, by omega⟩
        rw [List.take_of_length_le (by omega), Nat.add_sub_cancel_left, List.singleton_append,
          List.take_succ_cons]
        obtain ⟨front, hfront, heq⟩ := ih hlist m
        cases front with
        | nil =>
          have hempty : ([separator].intercalate (next :: rest)).take m = [] := by
            rcases heq with heq | ⟨hne, -⟩
            · exact heq
            · exact absurd rfl hne
          refine ⟨[word], ?_, Or.inr ⟨List.cons_ne_nil _ _, ?_⟩⟩
          · intro other hother
            obtain rfl := List.mem_singleton.mp hother
            exact hword
          · rw [List.intercalate_singleton, hempty]
        | cons first more =>
          refine ⟨word :: first :: more, ?_, ?_⟩
          · intro other hother
            rcases List.mem_cons.mp hother with rfl | hother
            · exact hword
            · exact hfront other hother
          · rw [List.intercalate_cons_cons, List.append_assoc]
            rcases heq with heq | ⟨-, heq⟩
            · exact Or.inl (by rw [heq]; rfl)
            · refine Or.inr ⟨List.cons_ne_nil _ _, ?_⟩
              rw [heq, List.singleton_append, List.append_assoc, List.cons_append]

/-! ## Ends stripped -/

/-- What is left without the elements of one kind at either end. -/
def stripped (p : α → Bool) (l : List α) : List α :=
  ((l.dropWhile p).reverse.dropWhile p).reverse

theorem dropWhile_append_of_forall {p : α → Bool} {lead : List α} (h : ∀ a ∈ lead, p a = true)
    (l : List α) : (lead ++ l).dropWhile p = l.dropWhile p := by
  induction lead with
  | nil => rfl
  | cons a lead ih =>
    rw [List.cons_append, List.dropWhile_cons_of_pos (h a (List.mem_cons_self ..)),
      ih fun b hb => h b (List.mem_cons_of_mem _ hb)]

theorem dropWhile_eq_self_of_head {p : α → Bool} {l : List α}
    (h : ∀ a, l.head? = some a → p a = false) : l.dropWhile p = l := by
  cases l with
  | nil => rfl
  | cons a rest =>
    rw [List.dropWhile_cons_of_neg]
    rw [h a rfl]
    exact Bool.false_ne_true

theorem stripped_append {p : α → Bool} {lead l trail : List α} (hlead : ∀ a ∈ lead, p a = true)
    (htrail : ∀ a ∈ trail, p a = true) (hhead : ∀ a, l.head? = some a → p a = false)
    (hlast : ∀ a, l.getLast? = some a → p a = false) : stripped p (lead ++ l ++ trail) = l := by
  have hrev : ∀ a ∈ trail.reverse, p a = true := fun a ha => htrail a (List.mem_reverse.mp ha)
  rw [stripped, List.append_assoc, dropWhile_append_of_forall hlead]
  cases l with
  | nil =>
    have hnone := dropWhile_append_of_forall htrail []
    rw [List.append_nil] at hnone
    rw [List.nil_append, hnone]
    rfl
  | cons a rest =>
    have hfirst : ¬ p a = true := Bool.eq_false_iff.mp (hhead a rfl)
    rw [List.cons_append, List.dropWhile_cons_of_neg hfirst, ← List.cons_append,
      List.reverse_append, dropWhile_append_of_forall hrev, dropWhile_eq_self_of_head,
      List.reverse_reverse]
    intro last h
    rw [List.head?_reverse] at h
    exact hlast last h

/-- With the separators at its ends gone, a list with one separator for a run is its words,
joined. -/
theorem stripped_replaceRuns {separator : α} (hsep : kept separator = false) {p : α → Bool}
    (hp : ∀ a, p a = true ↔ a = separator) (l : List α) :
    stripped p (replaceRuns kept separator l) = [separator].intercalate (words kept l) := by
  obtain ⟨lead, trail, hlead, htrail, heq⟩ := @replaceRuns_eq _ kept separator l
  have hends : ∀ a, kept a = true → p a = false := by
    intro a ha
    refine Bool.eq_false_iff.mpr fun h => ?_
    rw [(hp a).mp h, hsep] at ha
    cases ha
  rw [heq]
  apply stripped_append
  · exact fun a ha => (hp a).mpr (hlead a ha)
  · exact fun a ha => (hp a).mpr (htrail a ha)
  · exact fun a ha => hends a (kept_ends_intercalate (fun word hword => mem_words hword) (Or.inl ha))
  · exact fun a ha => hends a (kept_ends_intercalate (fun word hword => mem_words hword) (Or.inr ha))

end Gittensory.WordRuns
