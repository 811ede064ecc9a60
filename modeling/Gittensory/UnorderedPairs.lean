import Mathlib.Data.List.Basic
import Mathlib.Data.List.Nodup
import Mathlib.Data.List.Perm.Basic
import Mathlib.Tactic.Cases

/-!
The pairs of a list that two nested loops visit: each element with every later one. What a
symmetric function makes of them does not depend on the order of the list, and a key that
tells unordered pairs apart is met once.
-/
namespace Gittensory.UnorderedPairs

variable {α β κ : Type*}

def pairs : List α → List (α × α)
  | [] => []
  | a :: rest => rest.map (Prod.mk a) ++ pairs rest

theorem mem_of_mem_pairs {a b : α} {l : List α} (h : (a, b) ∈ pairs l) : a ∈ l ∧ b ∈ l := by
  induction l with
  | nil => cases h
  | cons c rest ih =>
    rcases List.mem_append.mp h with h | h
    · obtain ⟨d, hd, heq⟩ := List.mem_map.mp h
      obtain ⟨rfl, rfl⟩ := Prod.mk.inj heq
      exact ⟨List.mem_cons_self, List.mem_cons_of_mem _ hd⟩
    · exact ⟨List.mem_cons_of_mem _ (ih h).1, List.mem_cons_of_mem _ (ih h).2⟩

/-- Two different members are met in one order or the other. -/
theorem mem_pairs_or {a b : α} {l : List α} (ha : a ∈ l) (hb : b ∈ l) (hne : a ≠ b) :
    (a, b) ∈ pairs l ∨ (b, a) ∈ pairs l := by
  induction l with
  | nil => cases ha
  | cons c rest ih =>
    rcases List.mem_cons.mp ha with rfl | harest
    · rcases List.mem_cons.mp hb with rfl | hb
      · exact absurd rfl hne
      · exact Or.inl (List.mem_append_left _ (List.mem_map_of_mem hb))
    · rcases List.mem_cons.mp hb with rfl | hb
      · exact Or.inr (List.mem_append_left _ (List.mem_map_of_mem harest))
      · exact (ih harest hb).imp (List.mem_append_right _) (List.mem_append_right _)

section Keys

variable (key : α → κ) (l : List α)

theorem key_ne_of_mem_pairs (hkeys : (l.map key).Nodup) {a b : α} (h : (a, b) ∈ pairs l) :
    key a ≠ key b := by
  induction l with
  | nil => cases h
  | cons c rest ih =>
    rw [List.map_cons, List.nodup_cons] at hkeys
    rcases List.mem_append.mp h with h | h
    · obtain ⟨d, hd, heq⟩ := List.mem_map.mp h
      obtain ⟨rfl, rfl⟩ := Prod.mk.inj heq
      exact fun heq => hkeys.1 (heq ▸ List.mem_map_of_mem hd)
    · exact ih hkeys.2 h

/-- A key of pairs from which the two keys can be read off, in either order. -/
theorem nodup_map_pairs {pairKey : α × α → β} (hkeys : (l.map key).Nodup)
    (hpair : ∀ a b c d, pairKey (a, b) = pairKey (c, d) →
      (key a = key c ∧ key b = key d) ∨ (key a = key d ∧ key b = key c)) :
    ((pairs l).map pairKey).Nodup := by
  induction l with
  | nil => exact List.nodup_nil
  | cons c rest ih =>
    rw [List.map_cons, List.nodup_cons] at hkeys
    have hfirst : ∀ {a}, a ∈ rest → key c ≠ key a := fun ha heq =>
      hkeys.1 (heq ▸ List.mem_map_of_mem ha)
    have hnodup : rest.Nodup := hkeys.2.of_map _
    rw [pairs, List.map_append, List.map_map]
    refine List.Nodup.append ?_ (ih hkeys.2) ?_
    · refine hnodup.map_on fun a ha b hb heq => ?_
      rcases hpair c a c b heq with ⟨-, hab⟩ | ⟨hcb, -⟩
      · exact List.inj_on_of_nodup_map hkeys.2 ha hb hab
      · exact absurd hcb (hfirst hb)
    · intro k hk hk'
      obtain ⟨a, ha, rfl⟩ := List.mem_map.mp hk
      obtain ⟨⟨b, d⟩, hbd, heq⟩ := List.mem_map.mp hk'
      obtain ⟨hb, hd⟩ := mem_of_mem_pairs hbd
      rcases hpair b d c a heq with ⟨hbc, -⟩ | ⟨-, hdc⟩
      · exact hfirst hb hbc.symm
      · exact hfirst hd hdc.symm

end Keys

/-- Symmetric on the members of the list, a function of pairs finds the same in any order
of the list. -/
theorem filterMap_pairs_perm {l l' : List α} (h : l.Perm l') (f : α → α → Option β)
    (hsymm : ∀ a ∈ l, ∀ b ∈ l, f a b = f b a) :
    ((pairs l).filterMap fun pair => f pair.1 pair.2).Perm
      ((pairs l').filterMap fun pair => f pair.1 pair.2) := by
  have hcons : ∀ (a : α) (rest : List α),
      ((pairs (a :: rest)).filterMap fun pair => f pair.1 pair.2) =
        rest.filterMap (f a) ++ (pairs rest).filterMap fun pair => f pair.1 pair.2 := by
    intro a rest
    rw [pairs, List.filterMap_append, List.filterMap_map]
    rfl
  induction h with
  | nil => exact List.Perm.refl _
  | cons a hperm ih =>
    rw [hcons, hcons]
    refine (hperm.filterMap (f a)).append (ih fun b hb c hc => ?_)
    exact hsymm b (List.mem_cons_of_mem _ hb) c (List.mem_cons_of_mem _ hc)
  | swap a b rest =>
    have hab : f b a = f a b := hsymm b (by simp) a (by simp)
    rw [hcons, hcons, hcons, hcons, List.filterMap_cons, List.filterMap_cons, hab]
    have hswap : ∀ x y z : List β, (x ++ (y ++ z)).Perm (y ++ (x ++ z)) := by
      intro x y z
      rw [← List.append_assoc, ← List.append_assoc]
      exact List.perm_append_comm.append_right z
    cases f a b with
    | none => exact hswap _ _ _
    | some value => exact (hswap _ _ _).cons value
  | trans hfirst _ ih ih' =>
    refine (ih hsymm).trans (ih' fun a ha b hb => ?_)
    exact hsymm a (hfirst.mem_iff.mpr ha) b (hfirst.mem_iff.mpr hb)

end Gittensory.UnorderedPairs
