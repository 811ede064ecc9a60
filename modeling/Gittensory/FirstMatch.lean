import Mathlib.Data.List.Basic

/-!
The first element of a list that a classifier has something to say about, with what it says.
Where one classifier speaks whenever another does, it also speaks first.
-/
namespace Gittensory.FirstMatch

variable {α ρ : Type*} (reasons : α → List ρ)

def firstMatch : List α → Option (α × List ρ)
  | [] => none
  | a :: rest => if reasons a ≠ [] then some (a, reasons a) else firstMatch rest

/-- The element stands in the list behind exactly `pre`, and nothing is said before it. -/
structure FirstAt (l pre : List α) (a : α) : Prop where
  split : ∃ post, l = pre ++ a :: post
  speaks : reasons a ≠ []
  silent : ∀ earlier ∈ pre, reasons earlier = []

variable {reasons}

theorem firstMatch_of_firstAt {l pre : List α} {a : α} (h : FirstAt reasons l pre a) :
    firstMatch reasons l = some (a, reasons a) := by
  obtain ⟨⟨post, rfl⟩, hspeaks, hsilent⟩ := h
  induction pre with
  | nil => rw [List.nil_append, firstMatch, if_pos hspeaks]
  | cons earlier pre ih =>
    have hnone := hsilent earlier (List.mem_cons_self ..)
    rw [List.cons_append, firstMatch, if_neg (not_not.mpr hnone)]
    exact ih fun b hb => hsilent b (List.mem_cons_of_mem _ hb)

theorem exists_firstAt {l : List α} (h : ∃ a ∈ l, reasons a ≠ []) :
    ∃ pre a, FirstAt reasons l pre a := by
  induction l with
  | nil =>
    obtain ⟨a, ha, _⟩ := h
    exact absurd ha List.not_mem_nil
  | cons first rest ih =>
    by_cases hfirst : reasons first = []
    · obtain ⟨a, ha, hspeaks⟩ := h
      have hrest : a ∈ rest := by
        rcases List.mem_cons.mp ha with rfl | ha
        · exact absurd hfirst hspeaks
        · exact ha
      obtain ⟨pre, b, ⟨post, rfl⟩, hb, hsilent⟩ := ih ⟨a, hrest, hspeaks⟩
      refine ⟨first :: pre, b, ⟨post, rfl⟩, hb, ?_⟩
      intro earlier hearlier
      rcases List.mem_cons.mp hearlier with rfl | hearlier
      · exact hfirst
      · exact hsilent earlier hearlier
    · exact ⟨[], first, ⟨rest, rfl⟩, hfirst, List.forall_mem_nil _⟩

theorem firstMatch_eq_none_iff {l : List α} :
    firstMatch reasons l = none ↔ ∀ a ∈ l, reasons a = [] := by
  constructor
  · intro h a ha
    by_contra hspeaks
    obtain ⟨pre, b, hb⟩ := exists_firstAt ⟨a, ha, hspeaks⟩
    rw [firstMatch_of_firstAt hb] at h
    exact Option.some_ne_none _ h
  · intro h
    cases hl : firstMatch reasons l with
    | none => rfl
    | some found =>
      induction l with
      | nil => exact absurd hl (Option.some_ne_none _).symm
      | cons a rest ih =>
        rw [firstMatch, if_neg (not_not.mpr (h a (List.mem_cons_self ..)))] at hl
        exact ih (fun b hb => h b (List.mem_cons_of_mem _ hb)) hl

/-- What is found is the first element that is spoken about. -/
theorem firstMatch_eq_some_iff {l : List α} {found : α × List ρ} :
    firstMatch reasons l = some found ↔
      found.2 = reasons found.1 ∧ ∃ pre, FirstAt reasons l pre found.1 := by
  constructor
  · intro h
    have hsome : ∃ a ∈ l, reasons a ≠ [] := by
      by_contra hnone
      push Not at hnone
      rw [firstMatch_eq_none_iff.mpr hnone] at h
      exact Option.some_ne_none _ h.symm
    obtain ⟨pre, a, ha⟩ := exists_firstAt hsome
    rw [firstMatch_of_firstAt ha, Option.some.injEq] at h
    rw [← h]
    exact ⟨rfl, pre, ha⟩
  · rintro ⟨hreasons, pre, hfirst⟩
    rw [firstMatch_of_firstAt hfirst, ← hreasons]

/-- A classifier that speaks whenever another does speaks at the same place or before. -/
theorem firstAt_of_imp {other : α → List ρ} (himp : ∀ a, reasons a ≠ [] → other a ≠ [])
    {l pre : List α} {a : α} (h : FirstAt reasons l pre a) :
    ∃ pre' a', FirstAt other l pre' a' ∧ pre'.length ≤ pre.length := by
  obtain ⟨⟨post, rfl⟩, hspeaks, _⟩ := h
  by_cases hpre : ∃ b ∈ pre, other b ≠ []
  · obtain ⟨pre', a', ⟨post', hsplit⟩, hother, hsilent⟩ := exists_firstAt hpre
    refine ⟨pre', a', ⟨⟨post' ++ a :: post, ?_⟩, hother, hsilent⟩, ?_⟩
    · rw [hsplit, List.append_assoc, List.cons_append]
    · rw [hsplit, List.length_append]
      exact Nat.le_add_right _ _
  · push Not at hpre
    exact ⟨pre, a, ⟨⟨post, rfl⟩, himp a hspeaks, hpre⟩, Nat.le_refl _⟩

end Gittensory.FirstMatch
