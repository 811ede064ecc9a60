import Mathlib.Data.List.Basic
import Mathlib.Data.List.Dedup
import Mathlib.Data.List.Nodup
import Mathlib.Tactic.SplitIfs

/-!
A database table with a unique key, as the list of its rows. An upsert replaces the
row of the same key or appends a new one; a batch of fresh rows with distinct keys is
appended as it is, and rows of other keys are never touched.
-/
namespace Gittensory.KeyedTable

variable {α κ : Type*} [DecidableEq κ] (key : α → κ)

/-- `INSERT ... ON CONFLICT (key) DO UPDATE`. -/
def upsert (table : List α) (row : α) : List α :=
  if table.any (fun stored => key stored = key row) then
    table.map (fun stored => if key stored = key row then row else stored)
  else table ++ [row]

theorem mem_upsert_iff (table : List α) (row stored : α) :
    stored ∈ upsert key table row ↔ stored = row ∨ (stored ∈ table ∧ key stored ≠ key row) := by
  unfold upsert
  split_ifs with hany
  · simp only [List.any_eq_true, decide_eq_true_eq] at hany
    obtain ⟨old, hold, hkey⟩ := hany
    simp only [List.mem_map]
    constructor
    · intro h
      obtain ⟨other, hother, rfl⟩ := h
      split_ifs with h
      · exact Or.inl rfl
      · exact Or.inr ⟨hother, h⟩
    · intro h
      rcases h with rfl | ⟨hstored, hne⟩
      · exact ⟨old, hold, if_pos hkey⟩
      · exact ⟨stored, hstored, if_neg hne⟩
  · simp only [List.any_eq_true, decide_eq_true_eq, not_exists, not_and] at hany
    simp only [List.mem_append, List.mem_singleton]
    constructor
    · intro h
      rcases h with h | h
      · exact Or.inr ⟨h, hany stored h⟩
      · exact Or.inl h
    · intro h
      rcases h with h | ⟨h, _⟩
      · exact Or.inr h
      · exact Or.inl h

theorem upsert_of_fresh {table : List α} {row : α}
    (h : ∀ stored ∈ table, key stored ≠ key row) : upsert key table row = table ++ [row] := by
  unfold upsert
  rw [if_neg]
  simpa using h

/-- A batch of fresh rows with distinct keys is appended in order. -/
theorem foldl_upsert_of_fresh (rows table : List α) (hdistinct : (rows.map key).Nodup)
    (hfresh : ∀ row ∈ rows, ∀ stored ∈ table, key stored ≠ key row) :
    rows.foldl (upsert key) table = table ++ rows := by
  induction rows generalizing table with
  | nil => simp
  | cons row rest ih =>
    rw [List.map_cons, List.nodup_cons] at hdistinct
    obtain ⟨hrow, hrest⟩ := hdistinct
    rw [List.foldl_cons, upsert_of_fresh key (hfresh row (List.mem_cons_self ..)), ih _ hrest,
      List.append_assoc, List.singleton_append]
    intro later hlater stored hstored
    rcases List.mem_append.mp hstored with h | h
    · exact hfresh later (List.mem_cons_of_mem _ hlater) stored h
    · rw [List.mem_singleton.mp h]
      intro hkey
      exact hrow (hkey ▸ List.mem_map_of_mem hlater)

theorem map_key_upsert (table : List α) (row : α) :
    (upsert key table row).map key =
      if key row ∈ table.map key then table.map key else table.map key ++ [key row] := by
  unfold upsert
  by_cases hany : key row ∈ table.map key
  · obtain ⟨stored, hstored, hkey⟩ := List.mem_map.mp hany
    have hfound : table.any (fun stored => key stored = key row) = true :=
      List.any_eq_true.mpr ⟨stored, hstored, decide_eq_true hkey⟩
    rw [if_pos hany, if_pos hfound, List.map_map]
    apply List.map_congr_left
    intro other _
    rw [Function.comp_apply]
    split_ifs with hother
    · exact hother.symm
    · rfl
  · have hfresh : ¬ table.any (fun stored => key stored = key row) = true := by
      rw [List.any_eq_true]
      rintro ⟨stored, hstored, hkey⟩
      exact hany (List.mem_map.mpr ⟨stored, hstored, of_decide_eq_true hkey⟩)
    rw [if_neg hany, if_neg hfresh, List.map_append, List.map_singleton]

theorem nodup_foldl_upsert (rows : List α) {table : List α} (h : (table.map key).Nodup) :
    ((rows.foldl (upsert key) table).map key).Nodup := by
  induction rows generalizing table with
  | nil => exact h
  | cons row rows ih =>
    rw [List.foldl_cons]
    apply ih
    rw [map_key_upsert]
    split_ifs with hmem
    · exact h
    · rw [← List.concat_eq_append]
      exact h.concat hmem

/-- A batch with the keys of the table, in the same order, takes the table's place. -/
theorem foldl_upsert_of_same_keys {rows table : List α} (done : List α)
    (hkeys : rows.map key = table.map key) (hdistinct : ((done ++ table).map key).Nodup) :
    rows.foldl (upsert key) (done ++ table) = done ++ rows := by
  induction rows generalizing done table with
  | nil =>
    rw [List.map_nil, eq_comm, List.map_eq_nil_iff] at hkeys
    rw [hkeys, List.foldl_nil]
  | cons row rows ih =>
    cases table with
    | nil => cases hkeys
    | cons stored table =>
      rw [List.map_cons, List.map_cons, List.cons.injEq] at hkeys
      obtain ⟨hkey, hrest⟩ := hkeys
      have hplaced : upsert key (done ++ stored :: table) row = (done ++ [row]) ++ table := by
        have hother : ∀ other ∈ done ++ table, key other ≠ key row := by
          intro other hother hsame
          rw [List.map_append, List.map_cons, List.nodup_middle, ← List.map_append,
            List.nodup_cons] at hdistinct
          exact hdistinct.1 (List.mem_map.mpr ⟨other, hother, hsame.trans hkey⟩)
        have hleave : ∀ part : List α, (∀ other ∈ part, other ∈ done ++ table) →
            part.map (fun stored => if key stored = key row then row else stored) = part := by
          intro part hpart
          have hsame : ∀ other ∈ part, (if key other = key row then row else other) = id other :=
            fun other hmem => if_neg (hother other (hpart other hmem))
          rw [List.map_congr_left hsame, List.map_id]
        unfold upsert
        rw [if_pos (by simp [hkey]), List.map_append, List.map_cons, if_pos hkey.symm,
          hleave done fun _ => List.mem_append_left _, hleave table fun _ => List.mem_append_right _,
          List.append_assoc, List.singleton_append]
      have hdistinct' : (((done ++ [row]) ++ table).map key).Nodup := by
        simpa [hkey] using hdistinct
      rw [List.foldl_cons, hplaced, ih (done ++ [row]) hrest hdistinct', List.append_assoc,
        List.singleton_append]

/-- A row after a batch is one of the batch, or an old row whose key the batch lacks. -/
theorem mem_foldl_upsert (rows table : List α) (stored : α)
    (h : stored ∈ rows.foldl (upsert key) table) :
    stored ∈ rows ∨ (stored ∈ table ∧ ∀ row ∈ rows, key stored ≠ key row) := by
  induction rows generalizing table with
  | nil => exact Or.inr ⟨h, fun _ hrow => absurd hrow List.not_mem_nil⟩
  | cons row rest ih =>
    rw [List.foldl_cons] at h
    rcases ih _ h with hrest | ⟨htable, hother⟩
    · exact Or.inl (List.mem_cons_of_mem _ hrest)
    · rcases (mem_upsert_iff key table row stored).mp htable with hnew | ⟨hold, hne⟩
      · exact Or.inl (hnew ▸ List.mem_cons_self ..)
      · right
        refine ⟨hold, ?_⟩
        intro later hlater
        rcases List.mem_cons.mp hlater with heq | hlater
        · rw [heq]
          exact hne
        · exact hother later hlater

theorem exists_key_upsert {table : List α} {row : α} {k : κ}
    (h : (∃ stored ∈ table, key stored = k) ∨ key row = k) :
    ∃ stored ∈ upsert key table row, key stored = k := by
  by_cases hrow : key row = k
  · exact ⟨row, (mem_upsert_iff key table row row).mpr (Or.inl rfl), hrow⟩
  · rcases h with ⟨stored, hstored, hkey⟩ | hkey
    · refine ⟨stored, (mem_upsert_iff key table row stored).mpr (Or.inr ⟨hstored, ?_⟩), hkey⟩
      rw [hkey]
      exact fun heq => hrow heq.symm
    · exact absurd hkey hrow

/-- No batch loses a key, and every key of the batch has a row after it. -/
theorem exists_key_foldl_upsert (rows table : List α) (k : κ)
    (h : (∃ stored ∈ table, key stored = k) ∨ ∃ row ∈ rows, key row = k) :
    ∃ stored ∈ rows.foldl (upsert key) table, key stored = k := by
  induction rows generalizing table with
  | nil =>
    rcases h with h | ⟨row, hrow, _⟩
    · exact h
    · exact absurd hrow List.not_mem_nil
  | cons row rest ih =>
    rw [List.foldl_cons]
    apply ih
    rcases h with h | ⟨later, hlater, hkey⟩
    · exact Or.inl (exists_key_upsert key (Or.inl h))
    · rcases List.mem_cons.mp hlater with heq | hlater
      · exact Or.inl (exists_key_upsert key (Or.inr (heq ▸ hkey)))
      · exact Or.inr ⟨later, hlater, hkey⟩

/-! ## Updates in place -/

/-- An upsert whose update reads the row it replaces. -/
def upsertWith (update : α → α) (table : List α) (fresh : α) : List α :=
  if table.any (fun stored => key stored = key fresh) then
    table.map (fun stored => if key stored = key fresh then update stored else stored)
  else table ++ [fresh]

def lookup (table : List α) (k : κ) : Option α := table.find? (fun stored => key stored = k)

theorem lookup_map {update : α → α} (hkey : ∀ stored, key (update stored) = key stored)
    (table : List α) (k l : κ) :
    lookup key (table.map fun stored => if key stored = k then update stored else stored) l =
      if l = k then (lookup key table l).map update else lookup key table l := by
  unfold lookup
  induction table with
  | nil => simp
  | cons stored rest ih =>
    rw [List.map_cons]
    by_cases hl : key stored = l
    · have hsame : key (if key stored = k then update stored else stored) = l := by
        split_ifs
        · rw [hkey, hl]
        · exact hl
      rw [List.find?_cons_of_pos (by simpa using hsame), List.find?_cons_of_pos (by simpa using hl)]
      by_cases hk : l = k
      · rw [if_pos hk, if_pos (hl.trans hk), Option.map_some]
      · rw [if_neg hk, if_neg (fun heq => hk (hl.symm.trans heq))]
    · have hother : key (if key stored = k then update stored else stored) ≠ l := by
        split_ifs
        · rw [hkey]
          exact hl
        · exact hl
      rw [List.find?_cons_of_neg (by simpa using hother),
        List.find?_cons_of_neg (by simpa using hl)]
      exact ih

/-- The row of the fresh key is updated or new, and no other row is touched. -/
theorem lookup_upsertWith {update : α → α} (hkey : ∀ stored, key (update stored) = key stored)
    (table : List α) (fresh : α) (k : κ) :
    lookup key (upsertWith key update table fresh) k =
      if k = key fresh then some (((lookup key table k).map update).getD fresh)
      else lookup key table k := by
  unfold upsertWith
  by_cases hany : table.any (fun stored => key stored = key fresh) = true
  · rw [if_pos hany, lookup_map key hkey]
    by_cases hk : k = key fresh
    · rw [if_pos hk, if_pos hk, hk]
      have hsome : (lookup key table (key fresh)).isSome := by
        rw [lookup, List.find?_isSome]
        simpa using hany
      obtain ⟨stored, hstored⟩ := Option.isSome_iff_exists.mp hsome
      rw [hstored, Option.map_some, Option.getD_some]
    · rw [if_neg hk, if_neg hk]
  · rw [if_neg hany]
    have hnone : ∀ stored ∈ table, key stored ≠ key fresh := by simpa using hany
    unfold lookup
    rw [List.find?_append]
    by_cases hk : k = key fresh
    · have habsent : table.find? (fun stored => key stored = k) = none := by
        rw [List.find?_eq_none, hk]
        simpa using hnone
      rw [habsent, if_pos hk, Option.none_or, hk]
      simp
    · have hother : ¬ key fresh = k := fun heq => hk heq.symm
      rw [if_neg hk]
      simp [hother]

theorem mem_upsertWith {update : α → α} {table : List α} {fresh row : α}
    (h : row ∈ upsertWith key update table fresh) :
    row = fresh ∨ row ∈ table ∨ ∃ stored ∈ table, key stored = key fresh ∧ row = update stored := by
  unfold upsertWith at h
  split_ifs at h
  · obtain ⟨stored, hstored, rfl⟩ := List.mem_map.mp h
    split_ifs with hkey
    · exact Or.inr (Or.inr ⟨stored, hstored, hkey, rfl⟩)
    · exact Or.inr (Or.inl hstored)
  · rcases List.mem_append.mp h with hstored | hfresh
    · exact Or.inr (Or.inl hstored)
    · exact Or.inl (List.mem_singleton.mp hfresh)

/-- A part of the table that neither the fresh row nor the row it updates belongs to stays
as it is. -/
theorem filter_upsertWith {update : α → α} {table : List α} {fresh : α} {part : α → Bool}
    (hfresh : part fresh = false)
    (hstored : ∀ stored ∈ table, key stored = key fresh →
      part stored = false ∧ part (update stored) = false) :
    (upsertWith key update table fresh).filter part = table.filter part := by
  unfold upsertWith
  split_ifs with hany
  · clear hany
    induction table with
    | nil => rfl
    | cons stored rest ih =>
      have hrest := ih fun other hother => hstored other (List.mem_cons_of_mem _ hother)
      rw [List.map_cons, List.filter_cons, List.filter_cons, hrest]
      by_cases hkey : key stored = key fresh
      · obtain ⟨hpart, hupdate⟩ := hstored stored List.mem_cons_self hkey
        rw [if_pos hkey, hpart, hupdate]
        rfl
      · rw [if_neg hkey]
  · rw [List.filter_append, List.filter_singleton, hfresh]
    exact List.append_nil _

theorem lookup_filter {table : List α} {part : α → Bool} {k : κ}
    (h : ∀ stored ∈ table, key stored = k → part stored = true) :
    lookup key (table.filter part) k = lookup key table k := by
  unfold lookup
  induction table with
  | nil => rfl
  | cons stored rest ih =>
    have hrest := ih fun other hother => h other (List.mem_cons_of_mem _ hother)
    by_cases hkey : key stored = k
    · rw [List.filter_cons_of_pos (h stored List.mem_cons_self hkey),
        List.find?_cons_of_pos (by simpa using hkey), List.find?_cons_of_pos (by simpa using hkey)]
    · rw [List.find?_cons_of_neg (by simpa using hkey), ← hrest, List.filter_cons]
      split_ifs
      · rw [List.find?_cons_of_neg (by simpa using hkey)]
      · rfl

omit [DecidableEq κ] in
/-- Deleting rows outside a part of the table leaves the part as it is. -/
theorem filter_filter_of_imp {table : List α} {kept part : α → Bool}
    (h : ∀ row ∈ table, part row = true → kept row = true) :
    (table.filter kept).filter part = table.filter part := by
  rw [List.filter_filter]
  apply List.filter_congr
  intro row hrow
  rw [Bool.and_eq_left_iff_imp]
  exact h row hrow

section Batches

variable {β : Type*} (update : β → α → α) (fresh : β → α) (kept : α → Prop)

/-- What holds of every row, of the fresh ones and of what they make of the rows they
update holds of every row after a batch. -/
theorem forall_foldl_upsertWith (inputs : List β) {table : List α}
    (hfresh : ∀ input ∈ inputs, kept (fresh input))
    (hupdate : ∀ input ∈ inputs, ∀ stored, kept stored → key stored = key (fresh input) →
      kept (update input stored))
    (htable : ∀ row ∈ table, kept row) :
    ∀ row ∈ inputs.foldl
      (fun table input => upsertWith key (update input) table (fresh input)) table, kept row := by
  induction inputs generalizing table with
  | nil => exact htable
  | cons input inputs ih =>
    apply ih (fun later hlater => hfresh later (List.mem_cons_of_mem _ hlater))
      (fun later hlater => hupdate later (List.mem_cons_of_mem _ hlater))
    intro row hrow
    rcases mem_upsertWith key hrow with rfl | hstored | ⟨stored, hstored, hkey, rfl⟩
    · exact hfresh input List.mem_cons_self
    · exact htable row hstored
    · exact hupdate input List.mem_cons_self stored (htable stored hstored) hkey

/-- A part of the table that a batch neither adds to nor updates a row of stays as it is. -/
theorem filter_foldl_upsertWith (part : α → Bool) (inputs : List β) {table : List α}
    (hfresh : ∀ input ∈ inputs, kept (fresh input) ∧ part (fresh input) = false)
    (hupdate : ∀ input ∈ inputs, ∀ stored, kept stored → key stored = key (fresh input) →
      kept (update input stored) ∧ part stored = false ∧ part (update input stored) = false)
    (htable : ∀ row ∈ table, kept row) :
    (inputs.foldl
      (fun table input => upsertWith key (update input) table (fresh input)) table).filter part =
      table.filter part := by
  induction inputs generalizing table with
  | nil => rfl
  | cons input inputs ih =>
    have hfirst := hfresh input List.mem_cons_self
    have hsecond := hupdate input List.mem_cons_self
    have hnext : ∀ row ∈ upsertWith key (update input) table (fresh input), kept row := by
      intro row hrow
      rcases mem_upsertWith key hrow with rfl | hstored | ⟨stored, hstored, hkey, rfl⟩
      · exact hfirst.1
      · exact htable row hstored
      · exact (hsecond stored (htable stored hstored) hkey).1
    rw [List.foldl_cons, ih (fun later hlater => hfresh later (List.mem_cons_of_mem _ hlater))
      (fun later hlater => hupdate later (List.mem_cons_of_mem _ hlater)) hnext]
    apply filter_upsertWith key hfirst.2
    intro stored hstored hkey
    exact (hsecond stored (htable stored hstored) hkey).2

end Batches

/-! ## The keys after a batch -/

section Keys

variable {β : Type*} {update : β → α → α} {fresh : β → α}

theorem map_key_upsertWith {change : α → α} (hkey : ∀ stored, key (change stored) = key stored)
    (table : List α) (row : α) :
    (upsertWith key change table row).map key =
      if key row ∈ table.map key then table.map key else table.map key ++ [key row] := by
  have hany : table.any (fun stored => key stored = key row) = true ↔ key row ∈ table.map key := by
    simp [List.any_eq_true]
  unfold upsertWith
  by_cases hmem : key row ∈ table.map key
  · rw [if_pos (hany.mpr hmem), if_pos hmem, List.map_map]
    refine List.map_congr_left fun stored _ => ?_
    rw [Function.comp_apply]
    split_ifs
    · exact hkey stored
    · rfl
  · rw [if_neg (mt hany.mp hmem), if_neg hmem, List.map_append, List.map_singleton]

theorem nodup_foldl_upsertWith (hkey : ∀ input stored, key (update input stored) = key stored)
    (inputs : List β) {table : List α} (hnodup : (table.map key).Nodup) :
    ((inputs.foldl (fun table input => upsertWith key (update input) table (fresh input))
      table).map key).Nodup := by
  induction inputs generalizing table with
  | nil => exact hnodup
  | cons input inputs ih =>
    apply ih
    rw [map_key_upsertWith key (hkey input)]
    split_ifs with hmem
    · exact hnodup
    · exact List.nodup_append.mpr ⟨hnodup, List.nodup_singleton _, fun k hk l hl => by
        rintro rfl
        exact hmem (List.mem_singleton.mp hl ▸ hk)⟩

theorem mem_keys_foldl_upsertWith (hkey : ∀ input stored, key (update input stored) = key stored)
    (inputs : List β) (table : List α) (k : κ) :
    k ∈ (inputs.foldl (fun table input => upsertWith key (update input) table (fresh input))
        table).map key ↔
      k ∈ table.map key ∨ k ∈ inputs.map fun input => key (fresh input) := by
  induction inputs generalizing table with
  | nil => simp
  | cons input inputs ih =>
    rw [List.foldl_cons, ih, map_key_upsertWith key (hkey input), List.map_cons, List.mem_cons]
    split_ifs with hmem
    · constructor
      · rintro (h | h)
        · exact Or.inl h
        · exact Or.inr (Or.inr h)
      · rintro (h | rfl | h)
        · exact Or.inl h
        · exact Or.inl hmem
        · exact Or.inr h
    · rw [List.mem_append, List.mem_singleton, or_assoc]

/-- The rows after a batch: those of no key of the batch, and one for each of its keys. -/
theorem length_foldl_upsertWith (hkey : ∀ input stored, key (update input stored) = key stored)
    (inputs : List β) {table : List α} (hnodup : (table.map key).Nodup) :
    (inputs.foldl (fun table input => upsertWith key (update input) table (fresh input))
        table).length =
      (table.filter fun row => key row ∉ inputs.map fun input => key (fresh input)).length +
        (inputs.map fun input => key (fresh input)).dedup.length := by
  have hafter := @nodup_foldl_upsertWith _ _ _ key _ update fresh hkey inputs _ hnodup
  have hleft : ((table.filter fun row => key row ∉ inputs.map fun input => key (fresh input)).map
      key).Nodup := hnodup.sublist (List.filter_sublist.map key)
  have hright := List.nodup_dedup (inputs.map fun input => key (fresh input))
  have hparts : ((table.filter fun row =>
      key row ∉ inputs.map fun input => key (fresh input)).map key ++
      (inputs.map fun input => key (fresh input)).dedup).Nodup := by
    refine List.nodup_append.mpr ⟨hleft, hright, ?_⟩
    rintro k hk l hl rfl
    obtain ⟨row, hrow, rfl⟩ := List.mem_map.mp hk
    have hfar := (List.mem_filter.mp hrow).2
    exact of_decide_eq_true hfar (List.mem_dedup.mp hl)
  have hperm := (List.perm_ext_iff_of_nodup hafter hparts).mpr fun k => by
    rw [mem_keys_foldl_upsertWith key hkey, List.mem_append, List.mem_dedup]
    by_cases hk : k ∈ inputs.map fun input => key (fresh input)
    · simp only [hk, or_true]
    · simp only [hk, or_false, List.mem_map, List.mem_filter, decide_eq_true_eq]
      constructor
      · rintro ⟨row, hrow, rfl⟩
        exact ⟨row, ⟨hrow, fun h => hk (List.mem_map.mpr h)⟩, rfl⟩
      · rintro ⟨row, ⟨hrow, -⟩, rfl⟩
        exact ⟨row, hrow, rfl⟩
  have hlength := hperm.length_eq
  rwa [List.length_map, List.length_append, List.length_map] at hlength

theorem length_le_foldl_upsertWith (inputs : List β) (table : List α) :
    table.length ≤ (inputs.foldl (fun table input =>
      upsertWith key (update input) table (fresh input)) table).length := by
  induction inputs generalizing table with
  | nil => exact Nat.le_refl _
  | cons input inputs ih =>
    rw [List.foldl_cons]
    refine Nat.le_trans ?_ (ih _)
    unfold upsertWith
    split_ifs
    · simp
    · rw [List.length_append]
      exact Nat.le_add_right _ _

/-- A batch of distinct fresh keys is appended in order. -/
theorem foldl_upsertWith_of_fresh (inputs : List β) (table : List α)
    (hdistinct : (inputs.map fun input => key (fresh input)).Nodup)
    (hfresh : ∀ input ∈ inputs, ∀ stored ∈ table, key stored ≠ key (fresh input)) :
    inputs.foldl (fun table input => upsertWith key (update input) table (fresh input)) table =
      table ++ inputs.map fresh := by
  induction inputs generalizing table with
  | nil => rw [List.foldl_nil, List.map_nil, List.append_nil]
  | cons input inputs ih =>
    rw [List.map_cons, List.nodup_cons] at hdistinct
    have hnew : ¬ table.any (fun stored => key stored = key (fresh input)) = true := by
      simpa using hfresh input (List.mem_cons_self ..)
    rw [List.foldl_cons, upsertWith, if_neg hnew, ih _ hdistinct.2, List.append_assoc,
      List.map_cons, List.singleton_append]
    intro later hlater stored hstored
    rcases List.mem_append.mp hstored with hold | hstored
    · exact hfresh later (List.mem_cons_of_mem _ hlater) stored hold
    · rw [List.mem_singleton.mp hstored]
      intro heq
      exact hdistinct.1 (heq ▸ List.mem_map_of_mem hlater)

theorem mem_of_lookup {table : List α} {k : κ} {row : α} (h : lookup key table k = some row) :
    row ∈ table ∧ key row = k := by
  unfold lookup at h
  exact ⟨List.mem_of_find?_eq_some h, by simpa using List.find?_some h⟩

theorem lookup_upsert (table : List α) (row : α) (k : κ) :
    lookup key (upsert key table row) k = if key row = k then some row else lookup key table k := by
  unfold upsert lookup
  split_ifs with hany hrow hrow
  · subst hrow
    obtain ⟨stored, hstored, hkey⟩ := List.any_eq_true.mp hany
    rw [List.find?_map]
    have hsame : ((fun stored => decide (key stored = key row)) ∘ fun stored =>
        if key stored = key row then row else stored) = fun stored => key stored = key row := by
      funext other
      by_cases hother : key other = key row <;> simp [hother]
    rw [hsame]
    have hsome : (table.find? fun stored => key stored = key row).isSome :=
      List.find?_isSome.mpr ⟨stored, hstored, hkey⟩
    obtain ⟨found, hfound⟩ := Option.isSome_iff_exists.mp hsome
    have hkey := List.find?_some hfound
    rw [hfound, Option.map_some, if_pos (of_decide_eq_true hkey)]
  · induction table with
    | nil => rfl
    | cons stored table ih =>
      by_cases hstored : key stored = key row
      · have hk : key stored ≠ k := hstored ▸ hrow
        rcases hrest : table.any fun stored => key stored = key row with _ | _
        · have hsame : table.map (fun stored => if key stored = key row then row else stored) =
              table.map id := List.map_congr_left fun other hother => if_neg fun h => by
            rw [List.any_eq_false] at hrest
            exact hrest other hother (decide_eq_true h)
          rw [List.map_cons, if_pos hstored, hsame, List.map_id, List.find?_cons_of_neg (by simpa),
            List.find?_cons_of_neg (by simpa)]
        · rw [List.map_cons, if_pos hstored, List.find?_cons_of_neg (by simpa),
            List.find?_cons_of_neg (by simpa), ih hrest]
      · have hrest : (table.any fun stored => key stored = key row) = true := by
          simpa [hstored] using hany
        rw [List.map_cons, if_neg hstored, List.find?_cons, List.find?_cons, ih hrest]
  · rw [List.find?_append, List.find?_eq_none.mpr]
    · simp [hrow]
    · intro stored hstored
      simp only [List.any_eq_true, not_exists, not_and] at hany
      rw [← hrow]
      exact hany stored hstored
  · rw [List.find?_append, List.find?_cons_of_neg (by simpa), List.find?_nil, Option.or_none]

/-- A batch leaves the last of its rows of a key, or what was there. -/
theorem lookup_foldl_upsert (rows table : List α) (k : κ) :
    lookup key (rows.foldl (upsert key) table) k =
      ((rows.filter fun row => key row = k).getLast?).or (lookup key table k) := by
  induction rows generalizing table with
  | nil => rfl
  | cons row rows ih =>
    rw [List.foldl_cons, ih, lookup_upsert, List.filter_cons]
    split_ifs with hrow hdecided hdecided
    · rw [List.getLast?_cons]
      rcases (rows.filter fun row => key row = k).getLast? with _ | last <;> rfl
    · exact absurd (decide_eq_true hrow) hdecided
    · exact absurd (of_decide_eq_true hdecided) hrow
    · rfl

theorem lookup_eq_some_iff {table : List α} (hnodup : (table.map key).Nodup) {k : κ} {row : α} :
    lookup key table k = some row ↔ row ∈ table ∧ key row = k := by
  constructor
  · exact mem_of_lookup key
  · rintro ⟨hrow, rfl⟩
    have hsome : (lookup key table (key row)).isSome :=
      List.find?_isSome.mpr ⟨row, hrow, decide_eq_true rfl⟩
    obtain ⟨found, hfound⟩ := Option.isSome_iff_exists.mp hsome
    obtain ⟨hmem, hkey⟩ := mem_of_lookup key hfound
    rw [hfound, List.inj_on_of_nodup_map hnodup hmem hrow hkey]

theorem lookup_foldl_upsertWith_of_not_mem
    (hkey : ∀ input stored, key (update input stored) = key stored) (inputs : List β)
    (table : List α) {k : κ} (hk : k ∉ inputs.map fun input => key (fresh input)) :
    lookup key (inputs.foldl (fun table input => upsertWith key (update input) table (fresh input))
      table) k = lookup key table k := by
  induction inputs generalizing table with
  | nil => rfl
  | cons input inputs ih =>
    rw [List.map_cons, List.mem_cons, not_or] at hk
    rw [List.foldl_cons, ih _ hk.2, lookup_upsertWith key (hkey input), if_neg hk.1]

/-- The row of a key after a batch: the inputs of that key in turn, the first of them on the row
that was there. -/
theorem lookup_foldl_upsertWith
    (hkey : ∀ input stored, key (update input stored) = key stored) (inputs : List β)
    (table : List α) (k : κ) :
    lookup key (inputs.foldl (fun table input => upsertWith key (update input) table (fresh input))
      table) k =
        (inputs.filter fun input => key (fresh input) = k).foldl
          (fun row input => some ((row.map (update input)).getD (fresh input)))
          (lookup key table k) := by
  induction inputs generalizing table with
  | nil => rfl
  | cons input inputs ih =>
    rw [List.foldl_cons, ih, lookup_upsertWith key (hkey input), List.filter_cons]
    by_cases hk : k = key (fresh input)
    · rw [if_pos hk, if_pos (decide_eq_true hk.symm), List.foldl_cons]
    · rw [if_neg hk, if_neg (by simpa using fun h => hk h.symm)]

/-- Where the inputs of one key are one input, a key of the batch holds what that input makes
of the row that was there, or its fresh row. -/
theorem lookup_foldl_upsertWith_of_mem
    (hkey : ∀ input stored, key (update input stored) = key stored)
    (hfresh : ∀ input, update input (fresh input) = fresh input)
    (hagain : ∀ input stored, update input (update input stored) = update input stored)
    {inputs : List β} (hone : ∀ input ∈ inputs, ∀ other ∈ inputs,
      key (fresh input) = key (fresh other) → input = other)
    (table : List α) {input : β} (hinput : input ∈ inputs) :
    lookup key (inputs.foldl (fun table input => upsertWith key (update input) table (fresh input))
        table) (key (fresh input)) =
      some (((lookup key table (key (fresh input))).map (update input)).getD (fresh input)) := by
  induction inputs generalizing table with
  | nil => exact absurd hinput List.not_mem_nil
  | cons first inputs ih =>
    rw [List.foldl_cons]
    by_cases hlater : input ∈ inputs
    · rw [ih (fun i hi o ho => hone i (List.mem_cons_of_mem _ hi) o (List.mem_cons_of_mem _ ho)) _
        hlater, lookup_upsertWith key (hkey first)]
      by_cases hfirst : key (fresh input) = key (fresh first)
      · obtain rfl := hone input hinput first List.mem_cons_self hfirst
        rw [if_pos rfl, Option.map_some, Option.getD_some]
        cases lookup key table (key (fresh input)) with
        | none => rw [Option.map_none, Option.getD_none, hfresh]
        | some stored => rw [Option.map_some, Option.getD_some, hagain]
      · rw [if_neg hfirst]
    · obtain rfl : input = first := (List.mem_cons.mp hinput).resolve_right hlater
      have habsent : key (fresh input) ∉ inputs.map fun input => key (fresh input) := by
        intro hmem
        obtain ⟨other, hother, heq⟩ := List.mem_map.mp hmem
        have := hone other (List.mem_cons_of_mem _ hother) input List.mem_cons_self heq
        exact hlater (this ▸ hother)
      rw [lookup_foldl_upsertWith_of_not_mem key hkey inputs _ habsent,
        lookup_upsertWith key (hkey input), if_pos rfl]

end Keys

end Gittensory.KeyedTable
