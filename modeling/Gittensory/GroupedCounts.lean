import Gittensory.KeyedTable
import Mathlib.Algebra.BigOperators.Group.List.Lemmas
import Mathlib.Algebra.Order.Ring.Nat

/-!
Items counted in two ways: grouped with how often each occurs, and one by one. Rows are kept a
name and collect the groups of their name in any order; a number in a row that each group adds
to or leaves alone counts the items whose groups add to it.
-/
namespace Gittensory.GroupedCounts

variable {κ : Type*} [DecidableEq κ]

/-- `GROUP BY` with `COUNT(*)` -/
def grouped (items : List κ) : List (κ × ℕ) :=
  items.dedup.map fun item => (item, items.count item)

/-- The cells count the items: of those with a property the numbers add up to how many there are. -/
structure Counts (cells : List (κ × ℕ)) (items : List κ) : Prop where
  sum : ∀ p : κ → Bool,
    ((cells.filter fun cell => p cell.1).map Prod.snd).sum = items.countP p
  pos : ∀ cell ∈ cells, 0 < cell.2

theorem counts_grouped (items : List κ) : Counts (grouped items) items := by
  refine ⟨fun p => ?_, fun cell hcell => ?_⟩
  · rw [← List.sum_map_count_dedup_filter_eq_countP, grouped, List.filter_map, List.map_map]
    rfl
  · obtain ⟨item, hitem, rfl⟩ := List.mem_map.mp hcell
    exact List.count_pos_iff.mpr (List.mem_dedup.mp hitem)

namespace Counts

variable {cells : List (κ × ℕ)} {items : List κ}

omit [DecidableEq κ] in
theorem perm {cells' : List (κ × ℕ)} (h : Counts cells items) (hperm : cells'.Perm cells) :
    Counts cells' items :=
  ⟨fun p => (((hperm.filter _).map Prod.snd).sum_eq).trans (h.sum p),
    fun cell hcell => h.pos cell (hperm.mem_iff.mp hcell)⟩

omit [DecidableEq κ] in
/-- Cells may be renamed, and two may get one name. -/
theorem map {κ' : Type*} (h : Counts cells items) (f : κ → κ') :
    Counts (cells.map fun cell => (f cell.1, cell.2)) (items.map f) := by
  refine ⟨fun p => ?_, fun cell hcell => ?_⟩
  · rw [List.countP_map, List.filter_map, List.map_map]
    exact h.sum (p ∘ f)
  · obtain ⟨other, hother, rfl⟩ := List.mem_map.mp hcell
    exact h.pos other hother

omit [DecidableEq κ] in
/-- The cells of some items only. -/
theorem filter (h : Counts cells items) (p : κ → Bool) :
    Counts (cells.filter fun cell => p cell.1) (items.filter p) := by
  refine ⟨fun q => ?_, fun cell hcell => h.pos cell (List.mem_of_mem_filter hcell)⟩
  rw [List.filter_filter, List.countP_filter]
  exact h.sum fun item => q item && p item

theorem mem_iff (h : Counts cells items) {item : κ} : item ∈ items ↔ ∃ n, (item, n) ∈ cells := by
  have hcount : item ∈ items ↔ 0 < items.countP fun other => other = item := by
    simp [List.countP_pos_iff]
  rw [hcount, ← h.sum, List.sum_pos_iff_exists_pos_nat]
  constructor
  · rintro ⟨n, hn, -⟩
    obtain ⟨⟨other, n⟩, hcell, rfl⟩ := List.mem_map.mp hn
    obtain ⟨hstored, hname⟩ := List.mem_filter.mp hcell
    obtain rfl : other = item := of_decide_eq_true hname
    exact ⟨n, hstored⟩
  · rintro ⟨n, hcell⟩
    exact ⟨n, List.mem_map.mpr ⟨(item, n), List.mem_filter.mpr ⟨hcell, decide_eq_true rfl⟩, rfl⟩,
      h.pos _ hcell⟩

end Counts

section Tally

variable {ρ γ : Type*} [DecidableEq γ] (name : ρ → γ) (group : κ → γ) (empty : γ → ρ)
  (add : κ → ℕ → ρ → ρ)

/-- Each group is added to the row of its name, a new one at the end where there is none. -/
def tally (cells : List (κ × ℕ)) : List ρ :=
  cells.foldl (fun rows cell => KeyedTable.upsertWith name (add cell.1 cell.2) rows
    (add cell.1 cell.2 (empty (group cell.1)))) []

variable {name group empty add}

omit [DecidableEq κ] in
theorem nodup_tally (hname : ∀ item n row, name (add item n row) = name row)
    (cells : List (κ × ℕ)) : ((tally name group empty add cells).map name).Nodup :=
  KeyedTable.nodup_foldl_upsertWith name (fun _ _ => hname _ _ _) cells List.nodup_nil

omit [DecidableEq κ] in
theorem lookup_tally (hname : ∀ item n row, name (add item n row) = name row)
    (hempty : ∀ g, name (empty g) = g) (cells : List (κ × ℕ)) (g : γ) :
    KeyedTable.lookup name (tally name group empty add cells) g =
      if ∃ cell ∈ cells, group cell.1 = g then
        some ((cells.filter fun cell => group cell.1 = g).foldl
          (fun row cell => add cell.1 cell.2 row) (empty g))
      else none := by
  have hsame : ∀ cell : κ × ℕ, name (add cell.1 cell.2 (empty (group cell.1))) = group cell.1 :=
    fun cell => (hname _ _ _).trans (hempty _)
  rw [tally, KeyedTable.lookup_foldl_upsertWith name fun _ _ => hname _ _ _]
  simp only [hsame]
  have hfold : ∀ (cells : List (κ × ℕ)) (row : ρ),
      cells.foldl (fun row cell => some ((row.map (add cell.1 cell.2)).getD
        (add cell.1 cell.2 (empty (group cell.1))))) (some row) =
          some (cells.foldl (fun row cell => add cell.1 cell.2 row) row) := by
    intro cells
    induction cells with
    | nil => exact fun _ => rfl
    | cons cell cells ih => exact fun row => ih (add cell.1 cell.2 row)
  split_ifs with h
  · obtain ⟨cell, hcell, hgroup⟩ := h
    have hmem : cell ∈ cells.filter fun cell => group cell.1 = g :=
      List.mem_filter.mpr ⟨hcell, decide_eq_true hgroup⟩
    rcases hfound : cells.filter fun cell => group cell.1 = g with _ | ⟨first, others⟩
    · rw [hfound] at hmem
      exact absurd hmem List.not_mem_nil
    · have hfirst : first ∈ cells.filter fun cell => group cell.1 = g := hfound ▸ List.mem_cons_self
      rw [hfound, List.foldl_cons, List.foldl_cons,
        ← of_decide_eq_true (List.mem_filter.mp hfirst).2]
      exact hfold others _
  · have hnone : (cells.filter fun cell => group cell.1 = g) = [] := by
      rw [List.filter_eq_nil_iff]
      exact fun cell hcell hgroup => h ⟨cell, hcell, of_decide_eq_true hgroup⟩
    rw [hnone]
    rfl

/-- There is a row of a name exactly where an item has it. -/
theorem exists_row_iff (hname : ∀ item n row, name (add item n row) = name row)
    (hempty : ∀ g, name (empty g) = g) {cells : List (κ × ℕ)} {items : List κ}
    (h : Counts cells items) (g : γ) :
    (∃ row ∈ tally name group empty add cells, name row = g) ↔ ∃ item ∈ items, group item = g := by
  have hlookup := @lookup_tally κ ρ γ _ name group empty add hname hempty cells g
  constructor
  · rintro ⟨row, hrow, hg⟩
    rw [(KeyedTable.lookup_eq_some_iff name (nodup_tally hname cells)).mpr ⟨hrow, hg⟩] at hlookup
    split_ifs at hlookup with hcell
    obtain ⟨⟨item, n⟩, hcell, hgroup⟩ := hcell
    exact ⟨item, h.mem_iff.mpr ⟨n, hcell⟩, hgroup⟩
  · rintro ⟨item, hitem, hgroup⟩
    obtain ⟨n, hcell⟩ := h.mem_iff.mp hitem
    rw [if_pos ⟨(item, n), hcell, hgroup⟩] at hlookup
    exact ⟨_, KeyedTable.mem_of_lookup name hlookup⟩

omit [DecidableEq κ] in
/-- The row of a name is what its groups add up to. -/
theorem eq_of_mem_tally (hname : ∀ item n row, name (add item n row) = name row)
    (hempty : ∀ g, name (empty g) = g) {cells : List (κ × ℕ)} {row : ρ}
    (hrow : row ∈ tally name group empty add cells) :
    row = (cells.filter fun cell => group cell.1 = name row).foldl
      (fun row cell => add cell.1 cell.2 row) (empty (name row)) := by
  have hlookup := @lookup_tally κ ρ γ _ name group empty add hname hempty cells (name row)
  rw [(KeyedTable.lookup_eq_some_iff name (nodup_tally hname cells)).mpr ⟨hrow, rfl⟩] at hlookup
  split_ifs at hlookup
  exact Option.some.inj hlookup

omit [DecidableEq κ] in
theorem field_foldl {field : ρ → ℕ} {p : κ → Bool}
    (hfield : ∀ item n row, field (add item n row) = field row + if p item then n else 0)
    (cells : List (κ × ℕ)) (row : ρ) :
    field (cells.foldl (fun row cell => add cell.1 cell.2 row) row) =
      field row + ((cells.filter fun cell => p cell.1).map Prod.snd).sum := by
  induction cells generalizing row with
  | nil => rfl
  | cons cell cells ih =>
    rw [List.foldl_cons, ih, hfield, List.filter_cons]
    split_ifs
    · rw [List.map_cons, List.sum_cons, Nat.add_assoc]
    · rw [Nat.add_zero]

omit [DecidableEq κ] in
/-- A number in a row counts the items of its name that add to it. -/
theorem field_of_mem_tally (hname : ∀ item n row, name (add item n row) = name row)
    (hempty : ∀ g, name (empty g) = g) {cells : List (κ × ℕ)} {items : List κ}
    (h : Counts cells items) {field : ρ → ℕ} {p : κ → Bool}
    (hfield : ∀ item n row, field (add item n row) = field row + if p item then n else 0)
    (hzero : ∀ g, field (empty g) = 0) {row : ρ} (hrow : row ∈ tally name group empty add cells) :
    field row = items.countP fun item => group item = name row ∧ p item := by
  have hsum := h.sum fun item => decide (group item = name row ∧ p item)
  rw [← hsum, congrArg field (eq_of_mem_tally hname hempty hrow), field_foldl hfield, hzero,
    Nat.zero_add, List.filter_filter]
  congr 3
  funext cell
  simp [Bool.and_comm]

end Tally

end Gittensory.GroupedCounts
