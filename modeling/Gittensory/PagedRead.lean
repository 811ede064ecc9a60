import Mathlib.Data.List.Basic
import Mathlib.Tactic.SplitIfs

/-!
Reading a list page by page from a server. A request names its page, counted from
one, and may fail; a reply carries the items of the page and says whether another
page follows. A reader with a page budget that stops at the first failing request has
read a prefix of the list, cut after the pages it was served in a row.
-/
namespace Gittensory.PagedRead

variable {α : Type*}

structure Page (α : Type*) where
  data : List α
  hasNext : Bool
  deriving DecidableEq, Repr

/-- The reply of a server that holds `items` in pages of `size`; `page` counts from one. -/
def pageOf (size : ℕ) (items : List α) (page : ℕ) : Page α where
  data := (items.drop (size * (page - 1))).take size
  hasNext := size * page < items.length

/-- The server under a pattern of failing page requests. -/
def serve (size : ℕ) (items : List α) (fails : ℕ → Bool) (page : ℕ) : Option (Page α) :=
  if fails page then none else some (pageOf size items page)

/-- The items of the pages read from `page` on, at most `budget` pages. -/
def readPages (request : ℕ → Option (Page α)) : ℕ → ℕ → List α
  | 0, _ => []
  | budget + 1, page =>
      match request page with
      | none => []
      | some reply =>
          reply.data ++ if reply.hasNext then readPages request budget (page + 1) else []

/-- Whether a page that is asked for is not answered; the pages before it are kept. -/
def pageLost (request : ℕ → Option (Page α)) : ℕ → ℕ → Bool
  | 0, _ => false
  | budget + 1, page =>
      match request page with
      | none => true
      | some reply => reply.hasNext && pageLost request budget (page + 1)

/-- How many requests in a row are answered from `page` on, within the budget. -/
def servedPages (fails : ℕ → Bool) : ℕ → ℕ → ℕ
  | 0, _ => 0
  | budget + 1, page => if fails page then 0 else servedPages fails budget (page + 1) + 1

theorem servedPages_le (fails : ℕ → Bool) (budget page : ℕ) :
    servedPages fails budget page ≤ budget := by
  induction budget generalizing page with
  | zero => exact Nat.le_refl 0
  | succ budget ih =>
    have h := ih (page + 1)
    unfold servedPages
    split_ifs <;> omega

theorem servedPages_eq_zero_iff (fails : ℕ → Bool) (budget page : ℕ) :
    servedPages fails (budget + 1) page = 0 ↔ fails page = true := by
  unfold servedPages
  split_ifs with hfails
  · simp [hfails]
  · simp [hfails]

theorem readPages_of_some {request : ℕ → Option (Page α)} {page : ℕ} {reply : Page α}
    (h : request page = some reply) (budget : ℕ) :
    readPages request (budget + 1) page =
      reply.data ++ if reply.hasNext then readPages request budget (page + 1) else [] := by
  simp only [readPages, h]

theorem readPages_of_none {request : ℕ → Option (Page α)} {page : ℕ}
    (h : request page = none) (budget : ℕ) : readPages request budget page = [] := by
  cases budget with
  | zero => rfl
  | succ budget => simp only [readPages, h]

theorem pageLost_of_none {request : ℕ → Option (Page α)} {page : ℕ}
    (h : request page = none) (budget : ℕ) : pageLost request (budget + 1) page = true := by
  simp only [pageLost, h]

/-- What is read from a page on: the pages served in a row, cut at the budget. -/
theorem readPages_serve (size : ℕ) (items : List α) (fails : ℕ → Bool) (budget page : ℕ) :
    readPages (serve size items fails) budget (page + 1) =
      (items.drop (size * page)).take (size * servedPages fails budget (page + 1)) := by
  induction budget generalizing page with
  | zero => simp [readPages, servedPages]
  | succ budget ih =>
    by_cases hfails : fails (page + 1) = true
    · have hnone : serve size items fails (page + 1) = none := by simp [serve, hfails]
      have hzero := (servedPages_eq_zero_iff fails budget (page + 1)).mpr hfails
      rw [readPages_of_none hnone, hzero, Nat.mul_zero, List.take_zero]
    · have hsome : serve size items fails (page + 1) = some (pageOf size items (page + 1)) := by
        simp [serve, hfails]
      have hserved : servedPages fails (budget + 1) (page + 1) =
          servedPages fails budget (page + 1 + 1) + 1 := by
        simp [servedPages, hfails]
      have hstep : size * (page + 1) = size * page + size := Nat.mul_succ size page
      have hmore : size * (servedPages fails budget (page + 1 + 1) + 1) =
          size + size * servedPages fails budget (page + 1 + 1) := by
        rw [Nat.mul_succ, Nat.add_comm]
      rw [readPages_of_some hsome, hserved, hmore, ih (page + 1)]
      simp only [pageOf, Nat.add_sub_cancel, decide_eq_true_eq]
      split_ifs with hnext
      · rw [List.take_add, List.drop_drop, hstep]
      · -- the last page: nothing is left behind it
        have hlast : (items.drop (size * page)).length ≤ size := by
          rw [List.length_drop]
          omega
        rw [List.append_nil, List.take_of_length_le hlast, List.take_of_length_le]
        omega

/-- Read from the first page, the list is cut after the pages served in a row. -/
theorem readPages_serve_one (size : ℕ) (items : List α) (fails : ℕ → Bool) (budget : ℕ) :
    readPages (serve size items fails) budget 1 =
      items.take (size * servedPages fails budget 1) := by
  simpa using readPages_serve size items fails budget 0

theorem served_of_lt {fails : ℕ → Bool} {budget page q : ℕ} (hpage : page ≤ q)
    (hq : q < page + servedPages fails budget page) : fails q = false := by
  induction budget generalizing page with
  | zero =>
    unfold servedPages at hq
    omega
  | succ budget ih =>
    unfold servedPages at hq
    split_ifs at hq with hfails
    · omega
    · by_cases heq : q = page
      · rw [heq]
        simpa using hfails
      · have hlater : page + 1 ≤ q := by omega
        have hserved : q < page + 1 + servedPages fails budget (page + 1) := by omega
        exact ih hlater hserved

/-- What a page lists is read, when every page before it is answered and has a next one. -/
theorem mem_readPages {request : ℕ → Option (Page α)} {x : α} {home budget page : ℕ}
    (hpage : page ≤ home) (hbudget : home < page + budget)
    (hbefore : ∀ q, page ≤ q → q < home →
      ∃ reply, request q = some reply ∧ reply.hasNext = true)
    (hhome : ∃ reply, request home = some reply ∧ x ∈ reply.data) :
    x ∈ readPages request budget page := by
  induction budget generalizing page with
  | zero => omega
  | succ budget ih =>
    by_cases heq : page = home
    · obtain ⟨reply, hreply, hx⟩ := hhome
      rw [← heq] at hreply
      rw [readPages_of_some hreply]
      exact List.mem_append_left _ hx
    · obtain ⟨reply, hreply, hnext⟩ := hbefore page (Nat.le_refl page) (by omega)
      have hrest : x ∈ readPages request budget (page + 1) :=
        ih (by omega) (by omega) (fun q hq => hbefore q (by omega))
      rw [readPages_of_some hreply, if_pos hnext]
      exact List.mem_append_right _ hrest

end Gittensory.PagedRead
