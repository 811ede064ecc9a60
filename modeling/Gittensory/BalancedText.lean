import Mathlib.Data.List.Basic
import Mathlib.Tactic.Common

/-!
Texts that a bracket and quote counting scanner reads whole. The scanner runs to the first
stop letter that stands outside every quote and every bracket. A text it runs through and
leaves as it came is closed, and closed texts can be told apart in front of a stop letter:
two of them that start the same text are equal.
-/
namespace Gittensory.BalancedText

variable {α : Type*}

structure Marks (α : Type*) where
  quote : α
  escape : α
  opens : α → Bool
  closes : α → Bool
  distinct : quote ≠ escape

/-- Where the scanner stands: outside of quotes, inside of them, or behind an escape. -/
inductive Place where
  | outside (depth : ℕ)
  | inside (depth : ℕ)
  | escaped (depth : ℕ)

variable [DecidableEq α] (marks : Marks α) (stop : α → Bool)

def Place.next : Place → α → Place
  | .outside depth, letter =>
      if letter = marks.quote then .inside depth
      else if marks.opens letter then .outside (depth + 1)
      else if marks.closes letter then .outside (depth - 1)
      else .outside depth
  | .inside depth, letter =>
      if letter = marks.quote then .outside depth
      else if letter = marks.escape then .escaped depth
      else .inside depth
  | .escaped depth, _ => .inside depth

def Place.stops : Place → α → Bool
  | .outside 0, letter => stop letter
  | _, _ => false

/-- The letters before the first one that stops the scanner. -/
def upTo : Place → List α → List α
  | _, [] => []
  | place, letter :: rest =>
      if place.stops stop letter then [] else letter :: upTo (place.next marks letter) rest

/-- The scanner runs through the text from one place to another. -/
def Passes (place : Place) (text : List α) (after : Place) : Prop :=
  ∀ rest, upTo marks stop place (text ++ rest) = text ++ upTo marks stop after rest

/-- Brackets and quotes of the text are paired, and no stop letter stands outside of them. -/
def Closed (text : List α) : Prop :=
  ∀ depth, Passes marks stop (.outside depth) text (.outside depth)

/-- What may stand between two brackets: stop letters are harmless there. -/
def Inner (text : List α) : Prop :=
  ∀ depth, Passes marks stop (.outside (depth + 1)) text (.outside (depth + 1))

/-- What may stand between two quotes. -/
def Quoted (text : List α) : Prop :=
  ∀ depth, Passes marks stop (.inside depth) text (.inside depth)

variable {marks stop} {text more : List α}

section Passing

theorem passes_nil (place : Place) : Passes marks stop place [] place := fun _ => rfl

theorem Passes.append {place middle after : Place} (h : Passes marks stop place text middle)
    (h' : Passes marks stop middle more after) : Passes marks stop place (text ++ more) after := by
  intro rest
  rw [List.append_assoc, h, h', List.append_assoc]

theorem passes_letter {place : Place} {letter : α} (h : place.stops stop letter = false) :
    Passes marks stop place [letter] (place.next marks letter) := by
  intro rest
  rw [List.singleton_append, upTo, h]
  rfl

theorem Passes.cons {place after : Place} {letter : α} (h : place.stops stop letter = false)
    (h' : Passes marks stop (place.next marks letter) text after) :
    Passes marks stop place (letter :: text) after :=
  (passes_letter h).append h'

end Passing

section Closing

theorem closed_nil : Closed marks stop [] := fun depth => passes_nil (.outside depth)

theorem Closed.append (h : Closed marks stop text) (h' : Closed marks stop more) :
    Closed marks stop (text ++ more) :=
  fun depth => (h depth).append (h' depth)

theorem Closed.inner (h : Closed marks stop text) : Inner marks stop text :=
  fun depth => h (depth + 1)

theorem inner_nil : Inner marks stop [] := closed_nil.inner

theorem Inner.append (h : Inner marks stop text) (h' : Inner marks stop more) :
    Inner marks stop (text ++ more) :=
  fun depth => (h depth).append (h' depth)

theorem quoted_nil : Quoted marks stop [] := fun depth => passes_nil (.inside depth)

theorem Quoted.append (h : Quoted marks stop text) (h' : Quoted marks stop more) :
    Quoted marks stop (text ++ more) :=
  fun depth => (h depth).append (h' depth)

variable (marks) in
/-- A letter that the scanner reads without a change of place. -/
def IsPlain (letter : α) : Prop :=
  letter ≠ marks.quote ∧ marks.opens letter = false ∧ marks.closes letter = false

theorem IsPlain.next {letter : α} (h : IsPlain marks letter) (depth : ℕ) :
    (Place.outside depth).next marks letter = .outside depth := by
  obtain ⟨hquote, hopens, hcloses⟩ := h
  rw [Place.next, if_neg hquote, hopens, hcloses]
  rfl

theorem inner_plain {letter : α} (h : IsPlain marks letter) : Inner marks stop [letter] := by
  intro depth
  have hletter : Passes marks stop (.outside (depth + 1)) [letter]
      ((Place.outside (depth + 1)).next marks letter) := passes_letter rfl
  rwa [h.next] at hletter

theorem closed_plain (h : ∀ letter ∈ text, IsPlain marks letter ∧ stop letter = false) :
    Closed marks stop text := by
  induction text with
  | nil => exact closed_nil
  | cons letter rest ih =>
    obtain ⟨⟨hplain, hstop⟩, hrest⟩ := List.forall_mem_cons.mp h
    intro depth
    refine Passes.cons ?_ ?_
    · cases depth with
      | zero => exact hstop
      | succ depth => rfl
    · rw [hplain.next]
      exact ih hrest depth

theorem closed_quoted (hstop : stop marks.quote = false) (h : Quoted marks stop text) :
    Closed marks stop (marks.quote :: text ++ [marks.quote]) := by
  intro depth
  rw [List.cons_append]
  refine Passes.cons ?_ ?_
  · cases depth with
    | zero => exact hstop
    | succ depth => rfl
  · rw [Place.next, if_pos rfl]
    refine (h depth).append ?_
    have hlast : Passes marks stop (.inside depth) [marks.quote]
        ((Place.inside depth).next marks marks.quote) := passes_letter rfl
    rwa [Place.next, if_pos rfl] at hlast

theorem closed_bracketed {first last : α} (hfirst : first ≠ marks.quote)
    (hopens : marks.opens first = true) (hstop : stop first = false) (hlast : last ≠ marks.quote)
    (hnot : marks.opens last = false) (hcloses : marks.closes last = true)
    (h : Inner marks stop text) : Closed marks stop (first :: text ++ [last]) := by
  intro depth
  rw [List.cons_append]
  refine Passes.cons ?_ ?_
  · cases depth with
    | zero => exact hstop
    | succ depth => rfl
  · rw [Place.next, if_neg hfirst, if_pos hopens]
    refine (h depth).append ?_
    have hend : Passes marks stop (.outside (depth + 1)) [last]
        ((Place.outside (depth + 1)).next marks last) := passes_letter rfl
    rwa [Place.next, if_neg hlast, hnot, hcloses] at hend

theorem quoted_letter {letter : α} (hquote : letter ≠ marks.quote)
    (hescape : letter ≠ marks.escape) : Quoted marks stop [letter] := by
  intro depth
  have hletter : Passes marks stop (.inside depth) [letter]
      ((Place.inside depth).next marks letter) := passes_letter rfl
  rwa [Place.next, if_neg hquote, if_neg hescape] at hletter

/-- Any letter may stand behind an escape. -/
theorem quoted_escape (letter : α) : Quoted marks stop [marks.escape, letter] := by
  intro depth
  refine Passes.cons rfl ?_
  rw [Place.next, if_neg marks.distinct.symm, if_pos rfl]
  exact passes_letter rfl

end Closing

section Parting

variable (stop) in
/-- The text is empty or starts with a stop letter. -/
def Stopped (text : List α) : Prop := ∀ letter ∈ text.head?, stop letter = true

omit [DecidableEq α] in
theorem stopped_cons {letter : α} (h : stop letter = true) (rest : List α) :
    Stopped stop (letter :: rest) := by
  intro other hother
  rw [List.head?_cons, Option.mem_some_iff] at hother
  rwa [← hother]

theorem upTo_stopped (h : Stopped stop text) : upTo marks stop (.outside 0) text = [] := by
  cases text with
  | nil => rfl
  | cons letter rest =>
    have hstop : stop letter = true := h letter rfl
    rw [upTo, Place.stops, if_pos hstop]

theorem Closed.upTo_append (h : Closed marks stop text) (hmore : Stopped stop more) :
    upTo marks stop (.outside 0) (text ++ more) = text := by
  rw [h 0, upTo_stopped hmore, List.append_nil]

/-- A closed text is where the scanner stops. -/
theorem Closed.eq_of_append {text' more' : List α} (h : Closed marks stop text)
    (h' : Closed marks stop text') (hmore : Stopped stop more) (hmore' : Stopped stop more')
    (heq : text ++ more = text' ++ more') : text = text' ∧ more = more' := by
  have htext : text = text' := by
    rw [← h.upTo_append hmore, heq, h'.upTo_append hmore']
  rw [htext] at heq
  exact ⟨htext, List.append_cancel_left heq⟩

theorem inner_intercalate {separator : α} (hplain : IsPlain marks separator)
    {items : List (List α)} (h : ∀ item ∈ items, Closed marks stop item) :
    Inner marks stop ([separator].intercalate items) := by
  induction items with
  | nil => exact inner_nil
  | cons first rest ih =>
    obtain ⟨hfirst, hrest⟩ := List.forall_mem_cons.mp h
    cases rest with
    | nil =>
      rw [List.intercalate_singleton]
      exact hfirst.inner
    | cons second rest =>
      rw [List.intercalate_cons_cons]
      exact (hfirst.inner.append (inner_plain hplain)).append (ih hrest)

omit [DecidableEq α] in
theorem intercalate_cons_flatMap (separator : α) (first : List α) (rest : List (List α)) :
    [separator].intercalate (first :: rest) =
      first ++ rest.flatMap (fun item => separator :: item) := by
  induction rest generalizing first with
  | nil => rw [List.intercalate_singleton, List.flatMap_nil, List.append_nil]
  | cons second rest ih =>
    rw [List.intercalate_cons_cons, ih, List.flatMap_cons, List.append_assoc,
      List.singleton_append, List.cons_append]

section Items

variable {separator last : α} (hseparator : stop separator = true) (hlast : stop last = true)
  (hne : separator ≠ last) {items items' : List (List α)}

include hseparator hlast

omit [DecidableEq α] in
theorem stopped_separated (items : List (List α)) :
    Stopped stop (items.flatMap (fun item => separator :: item) ++ [last]) := by
  cases items with
  | nil => exact stopped_cons hlast []
  | cons item rest => exact stopped_cons hseparator _

include hne

theorem separated_inj (h : ∀ item ∈ items, Closed marks stop item)
    (h' : ∀ item ∈ items', Closed marks stop item)
    (heq : items.flatMap (fun item => separator :: item) ++ [last] =
      items'.flatMap (fun item => separator :: item) ++ [last]) : items = items' := by
  induction items generalizing items' with
  | nil =>
    cases items' with
    | nil => rfl
    | cons item' rest' => exact absurd (List.cons.inj heq).1 hne.symm
  | cons item rest ih =>
    cases items' with
    | nil => exact absurd (List.cons.inj heq).1 hne
    | cons item' rest' =>
      obtain ⟨hitem, hrest⟩ := List.forall_mem_cons.mp h
      obtain ⟨hitem', hrest'⟩ := List.forall_mem_cons.mp h'
      rw [List.flatMap_cons, List.flatMap_cons, List.append_assoc, List.append_assoc,
        List.cons_append, List.cons_append] at heq
      have htail := (List.cons.inj heq).2
      obtain ⟨hsame, hmore⟩ := hitem.eq_of_append hitem'
        (stopped_separated hseparator hlast rest) (stopped_separated hseparator hlast rest') htail
      rw [hsame, ih hrest hrest' hmore]

/-- Closed items with separators between them can be read off one by one. -/
theorem intercalate_inj (h : ∀ item ∈ items, Closed marks stop item ∧ item ≠ [])
    (h' : ∀ item ∈ items', Closed marks stop item ∧ item ≠ [])
    (heq : [separator].intercalate items ++ [last] = [separator].intercalate items' ++ [last]) :
    items = items' := by
  have hstopped : ∀ items : List (List α),
      Stopped stop (items.flatMap (fun item => separator :: item) ++ [last]) :=
    stopped_separated hseparator hlast
  cases items with
  | nil =>
    cases items' with
    | nil => rfl
    | cons item' rest' =>
      obtain ⟨hitem', -⟩ := List.forall_mem_cons.mp h'
      rw [List.intercalate_nil, intercalate_cons_flatMap, List.append_assoc] at heq
      have hnil := (closed_nil.eq_of_append hitem'.1 (stopped_cons hlast []) (hstopped rest') heq).1
      exact absurd hnil.symm hitem'.2
  | cons item rest =>
    obtain ⟨hitem, hrest⟩ := List.forall_mem_cons.mp h
    cases items' with
    | nil =>
      rw [List.intercalate_nil, intercalate_cons_flatMap, List.append_assoc] at heq
      have hnil := (hitem.1.eq_of_append closed_nil (hstopped rest) (stopped_cons hlast []) heq).1
      exact absurd hnil hitem.2
    | cons item' rest' =>
      obtain ⟨hitem', hrest'⟩ := List.forall_mem_cons.mp h'
      rw [intercalate_cons_flatMap, intercalate_cons_flatMap, List.append_assoc,
        List.append_assoc] at heq
      obtain ⟨hsame, hmore⟩ :=
        hitem.1.eq_of_append hitem'.1 (hstopped rest) (hstopped rest') heq
      rw [hsame, separated_inj hseparator hlast hne (fun other hother => (hrest other hother).1)
        (fun other hother => (hrest' other hother).1) hmore]

end Items

end Parting

end Gittensory.BalancedText
