import Gittensory.RegateSweep

/-!
Which pull requests a sweep evaluates again (`settings/agent-sweep.ts`), for every freshness
window and every bound: the open ones that are no drafts and past the window, the stalest
first, and no eligible one left out that is staler than a selected one. `RegateSweep` runs
the selection with its defaults.
-/
namespace Gittensory.SweepSelection

open JsValue PullRequestAdvisory RegateSweep

/-! ## The first elements of an order -/

section Orders

variable {α : Type*} (r : α → α → Prop) [DecidableRel r]

theorem pairwise_take_insertionSort [Std.Total r] [IsTrans α r] (list : List α) (n : ℕ) :
    ((list.insertionSort r).take n).Pairwise r :=
  (List.pairwise_insertionSort r list).sublist (List.take_sublist _ _)

/-- What is not among the first elements comes after each of them. -/
theorem le_of_not_mem_take [Std.Total r] [IsTrans α r] {list : List α} {n : ℕ} {a b : α}
    (ha : a ∈ (list.insertionSort r).take n) (hb : b ∈ list)
    (hnot : b ∉ (list.insertionSort r).take n) : r a b := by
  have hsorted := List.pairwise_insertionSort r list
  have hmem : b ∈ list.insertionSort r := (List.perm_insertionSort r list).mem_iff.mpr hb
  rw [← List.take_append_drop n (list.insertionSort r)] at hsorted hmem
  rcases List.mem_append.mp hmem with hfirst | hrest
  · exact absurd hfirst hnot
  · exact (List.pairwise_append.mp hsorted).2.2 a ha b hrest

theorem count_take_insertionSort_le [DecidableEq α] (list : List α) (n : ℕ) (a : α) :
    ((list.insertionSort r).take n).count a ≤ list.count a := by
  rw [← (List.perm_insertionSort r list).count_eq]
  exact (List.take_sublist _ _).count_le a

end Orders

/-! ## `selectRegateCandidates` -/

/-- `list.slice(0, count)` for a count that is not negative. -/
def sliceFirst {α : Type*} (list : List α) : JsNumber → List α
  | .infinity => list
  | .finite count => list.take ⌊count⌋.toNat
  | _ => []

/-- `now` minus the window, when both are finite. -/
def freshCutoff (nowMs : Option ℤ) : JsNumber → Option ℚ
  | .finite window => nowMs.map fun now : ℤ => (now : ℚ) - window
  | _ => none

def isPastCutoff (cutoff : Option ℚ) (pr : PullRequestRecord) : Bool :=
  cutoff.all fun cutoff => (staleness pr : ℚ) ≤ cutoff

def selectRegateCandidates (pulls : List PullRequestRecord) (nowMs : Option ℤ)
    (freshnessWindowMs max : Option JsNumber) : List PullRequestRecord :=
  let cutoff := freshCutoff nowMs (freshnessWindowMs.getD (.finite SWEEP_FRESHNESS_MS))
  let sorted := ((pulls.filter fun pr => pr.state = "open" && pr.isDraft ≠ some true).filter
    (isPastCutoff cutoff)).insertionSort fun a b => stalerFirst a b = true
  sliceFirst sorted (.mathMax (.finite 0) (max.getD (.finite SWEEP_MAX_PRS)))

instance : Std.Total fun a b : PullRequestRecord => stalerFirst a b = true where
  total a b := by
    simp only [stalerFirst, decide_eq_true_eq]
    omega

instance : IsTrans PullRequestRecord fun a b => stalerFirst a b = true where
  trans a b c hab hbc := by
    simp only [stalerFirst, decide_eq_true_eq] at hab hbc ⊢
    omega

theorem staleness_le_of_stalerFirst {a b : PullRequestRecord} (h : stalerFirst a b = true) :
    staleness a ≤ staleness b := by
  simp only [stalerFirst, decide_eq_true_eq] at h
  omega

/-! ## Exactness -/

/-- Open, no draft, and past the window if `now` can be read and the window is finite. -/
structure Eligible (nowMs : Option ℤ) (window : JsNumber) (pr : PullRequestRecord) : Prop where
  isOpen : pr.state = "open"
  notDraft : pr.isDraft ≠ some true
  past : ∀ now width, nowMs = some now → window = .finite width → staleness pr ≤ now - width

theorem isPastCutoff_iff {nowMs : Option ℤ} {window : JsNumber} {pr : PullRequestRecord} :
    isPastCutoff (freshCutoff nowMs window) pr = true ↔
      ∀ now width, nowMs = some now → window = .finite width → staleness pr ≤ now - width := by
  cases window with
  | finite width =>
    cases nowMs with
    | none => exact iff_of_true rfl fun _ _ h => by cases h
    | some now =>
      simp only [isPastCutoff, freshCutoff, Option.map_some, Option.all_some, decide_eq_true_eq]
      constructor
      · rintro h now width ⟨⟩ ⟨⟩
        exact h
      · exact fun h => h now width rfl rfl
  | _ => exact iff_of_true rfl fun _ _ _ h => by cases h

theorem eligible_iff {nowMs : Option ℤ} {window : JsNumber} {pr : PullRequestRecord} :
    Eligible nowMs window pr ↔ isPastCutoff (freshCutoff nowMs window) pr = true ∧
      (pr.state = "open" && pr.isDraft ≠ some true) = true := by
  rw [isPastCutoff_iff, Bool.and_eq_true, decide_eq_true_eq, decide_eq_true_eq]
  exact ⟨fun h => ⟨h.past, h.isOpen, h.notDraft⟩, fun h => ⟨h.2.1, h.2.2, h.1⟩⟩

instance (nowMs : Option ℤ) (window : JsNumber) (pr : PullRequestRecord) :
    Decidable (Eligible nowMs window pr) := decidable_of_iff' _ eligible_iff

/-- The whole pull requests that a bound lets through, of so many. -/
def boundOf (max : JsNumber) (count : ℕ) : ℕ :=
  match max with
  | .infinity => count
  | .finite max => min ⌊max⌋.toNat count
  | _ => 0

theorem exists_take_of_sliceFirst {α : Type*} (list : List α) (max : JsNumber) :
    ∃ n, sliceFirst list (.mathMax (.finite 0) max) = list.take n ∧
      min n list.length = boundOf max list.length := by
  cases max with
  | nan => exact ⟨0, rfl, Nat.zero_min _⟩
  | negInfinity => exact ⟨0, rfl, Nat.zero_min _⟩
  | infinity => exact ⟨list.length, (List.take_length).symm, Nat.min_self _⟩
  | finite max =>
    refine ⟨⌊max⌋.toNat, ?_, rfl⟩
    by_cases hneg : max ≤ 0
    · have hfloor : ⌊max⌋.toNat = 0 := by
        rw [Int.toNat_eq_zero]
        exact_mod_cast (Int.floor_le max).trans hneg
      have hzero : JsNumber.mathMax (.finite 0) (.finite max) = .finite 0 := by
        simp [JsNumber.mathMax, JsNumber.ge, hneg]
      rw [hzero, hfloor, sliceFirst, Int.floor_zero]
      rfl
    · have hsame : JsNumber.mathMax (.finite 0) (.finite max) = .finite max := by
        simp [JsNumber.mathMax, JsNumber.ge, hneg]
      rw [hsame, sliceFirst]

theorem sliceFirst_natCast {α : Type*} (list : List α) (n : ℕ) :
    sliceFirst list (.mathMax (.finite 0) (.finite n)) = list.take n := by
  have hmax : JsNumber.mathMax (.finite 0) (.finite n) = .finite n := by
    have hge : (0 : ℚ) ≤ n := n.cast_nonneg
    rcases hge.eq_or_lt with hzero | hpos
    · simp [JsNumber.mathMax, JsNumber.ge, ← hzero]
    · simp [JsNumber.mathMax, JsNumber.ge, not_le.mpr hpos]
  rw [hmax, sliceFirst, Int.floor_natCast, Int.toNat_natCast]

/-- The sweep runs the selection with its defaults. -/
theorem regateSweep_selects (pulls : List PullRequestRecord) (nowMs : Option ℤ) :
    RegateSweep.selectRegateCandidates pulls nowMs =
      selectRegateCandidates pulls nowMs none none := by
  have hpast : isStale (nowMs.map fun now => now - SWEEP_FRESHNESS_MS) =
      isPastCutoff (freshCutoff nowMs (.finite SWEEP_FRESHNESS_MS)) := by
    funext pr
    rw [Bool.eq_iff_iff, isPastCutoff_iff, isStale, Option.all_eq_true]
    constructor
    · rintro h now width rfl ⟨⟩
      exact_mod_cast of_decide_eq_true (h _ rfl)
    · intro h cutoff hcutoff
      obtain ⟨now, rfl, rfl⟩ := Option.map_eq_some_iff.mp hcutoff
      rw [decide_eq_true_eq]
      exact_mod_cast h now SWEEP_FRESHNESS_MS rfl rfl
  rw [RegateSweep.selectRegateCandidates, selectRegateCandidates, hpast, Option.getD_none,
    Option.getD_none, sliceFirst_natCast]

theorem selectRegateCandidates_exact (pulls : List PullRequestRecord) (nowMs : Option ℤ)
    (freshnessWindowMs max : Option JsNumber) :
    let window := freshnessWindowMs.getD (.finite SWEEP_FRESHNESS_MS)
    let eligible := pulls.filter fun pr => Eligible nowMs window pr
    let selected := selectRegateCandidates pulls nowMs freshnessWindowMs max
    selected.length = boundOf (max.getD (.finite SWEEP_MAX_PRS)) eligible.length ∧
    (∀ pr ∈ selected, pr ∈ pulls ∧ Eligible nowMs window pr) ∧
    (selected.Pairwise fun a b => staleness a ≤ staleness b) ∧
    (∀ pr ∈ eligible, pr ∉ selected → ∀ other ∈ selected, staleness other ≤ staleness pr) ∧
    (∀ pr, selected.count pr ≤ pulls.count pr) ∧
    (pulls.Nodup → selected.Nodup) := by
  intro window eligible selected
  have hfilter : (pulls.filter fun pr => pr.state = "open" && pr.isDraft ≠ some true).filter
      (isPastCutoff (freshCutoff nowMs window)) = eligible := by
    rw [List.filter_filter]
    apply List.filter_congr
    intro pr _
    rw [Bool.eq_iff_iff, Bool.and_eq_true, decide_eq_true_eq, eligible_iff]
  obtain ⟨n, htake, hbound⟩ := exists_take_of_sliceFirst
    (eligible.insertionSort fun a b => stalerFirst a b = true) (max.getD (.finite SWEEP_MAX_PRS))
  have hselected : selected =
      (eligible.insertionSort fun a b => stalerFirst a b = true).take n := by
    rw [← htake, ← hfilter]
    rfl
  have hcount : ∀ pr, selected.count pr ≤ pulls.count pr := fun pr => by
    rw [hselected]
    exact (count_take_insertionSort_le _ eligible n pr).trans (List.filter_sublist.count_le pr)
  refine ⟨?_, ?_, ?_, ?_, hcount, ?_⟩
  · rw [hselected, List.length_take, hbound, List.length_insertionSort]
  · intro pr hpr
    rw [hselected] at hpr
    have hmem := (List.mem_insertionSort _).mp (List.mem_of_mem_take hpr)
    obtain ⟨hpulls, heligible⟩ := List.mem_filter.mp hmem
    exact ⟨hpulls, of_decide_eq_true heligible⟩
  · rw [hselected]
    exact (pairwise_take_insertionSort _ eligible n).imp staleness_le_of_stalerFirst
  · intro pr hpr hnot other hother
    rw [hselected] at hnot hother
    have hafter := le_of_not_mem_take (fun a b => stalerFirst a b = true) hother hpr hnot
    exact staleness_le_of_stalerFirst hafter
  · intro hnodup
    rw [List.nodup_iff_count_le_one] at hnodup ⊢
    exact fun pr => (hcount pr).trans (hnodup pr)

/-- Open, and without a timestamp. -/
def waitingPr : PullRequestRecord where
  repoFullName := "acme/widgets"
  number := 7
  state := "open"
  authorLogin := none
  linkedIssues := []

theorem selection_below_bound :
    selectRegateCandidates [waitingPr, waitingPr] (some 1800000000000) none none =
        [waitingPr, waitingPr] ∧
      ((selectRegateCandidates [waitingPr] (some 1800000000000) none
        (some (.finite (-1)))).length : ℤ) ≠ min (-1) 1 := by
  decide +kernel

end Gittensory.SweepSelection
