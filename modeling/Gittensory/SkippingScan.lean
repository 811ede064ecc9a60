import Mathlib.Data.List.Basic

/-!
A scan of a list for the elements that are hits, each with a value read off the elements
after it. A scanner may skip elements that a value has taken in; as long as no hit is
among them it meets the same hits as the plain scan, and a list can be cut wherever no value
reads further.
-/
namespace Gittensory.SkippingScan

variable {α β γ : Type*} (hit : α → Option β) (value : β → List α → γ)

/-- The values of all hits, in order; nothing is skipped. -/
def hits : List α → List γ
  | [] => []
  | a :: rest =>
      match hit a with
      | none => hits rest
      | some b => value b rest :: hits rest

theorem hits_cons_none {a : α} (h : hit a = none) (rest : List α) :
    hits hit value (a :: rest) = hits hit value rest := by
  rw [hits, h]

theorem hits_cons_some {a : α} {b : β} (h : hit a = some b) (rest : List α) :
    hits hit value (a :: rest) = value b rest :: hits hit value rest := by
  rw [hits, h]

/-- Skipping leading elements that are no hits loses nothing. -/
theorem hits_dropWhile {skipped : α → Bool} (hskip : ∀ a, skipped a = true → hit a = none)
    (l : List α) : hits hit value (l.dropWhile skipped) = hits hit value l := by
  induction l with
  | nil => rfl
  | cons a rest ih =>
    by_cases h : skipped a = true
    · rw [List.dropWhile_cons_of_pos h, ih, hits_cons_none hit value (hskip a h)]
    · rw [List.dropWhile_cons_of_neg h]

theorem filterMap_dropWhile {skipped : α → Bool} (hskip : ∀ a, skipped a = true → hit a = none)
    (l : List α) : (l.dropWhile skipped).filterMap hit = l.filterMap hit := by
  induction l with
  | nil => rfl
  | cons a rest ih =>
    by_cases h : skipped a = true
    · rw [List.dropWhile_cons_of_pos h, ih, List.filterMap_cons_none (hskip a h)]
    · rw [List.dropWhile_cons_of_neg h]

/-- What a projection that forgets the elements after a hit makes of the scan. -/
theorem map_hits {δ : Type*} {f : γ → δ} {g : β → δ} (hf : ∀ b rest, f (value b rest) = g b)
    (l : List α) : (hits hit value l).map f = (l.filterMap hit).map g := by
  induction l with
  | nil => rfl
  | cons a rest ih =>
    cases h : hit a with
    | none => rw [hits_cons_none hit value h, List.filterMap_cons_none h, ih]
    | some b =>
      rw [hits_cons_some hit value h, List.filterMap_cons_some h, List.map_cons, List.map_cons,
        hf, ih]

/-- The scan can be cut at an element that no value reads past. -/
theorem hits_append_cons {a : α}
    (hlocal : ∀ c rest more, value c (rest ++ a :: more) = value c rest) (pre post : List α) :
    hits hit value (pre ++ a :: post) = hits hit value pre ++ hits hit value (a :: post) := by
  induction pre with
  | nil => rfl
  | cons first pre ih =>
    rw [List.cons_append]
    cases hfirst : hit first with
    | none => rw [hits_cons_none hit value hfirst, hits_cons_none hit value hfirst, ih]
    | some c =>
      rw [hits_cons_some hit value hfirst, hits_cons_some hit value hfirst, hlocal, ih,
        List.cons_append]

end Gittensory.SkippingScan
