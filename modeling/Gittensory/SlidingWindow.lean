import Mathlib.Order.Monotone.Basic

/-!
A loop that cuts a stretch into windows. Each window ends where a given function says, and
the next one starts a fixed overlap before that end. The loop may stand still or fall back;
where later starts never end earlier, it comes to an end exactly if every window moves it
forward, and then its windows cover the stretch with strictly increasing starts.
-/
namespace Gittensory.SlidingWindow

variable (length overlap : ℕ) (stopOf : ℕ → ℕ)

/-- Where the window after this one starts. -/
def nextStart (start : ℕ) : ℕ := stopOf start - overlap

/-- The windows from a start on; `none` when the fuel is used up. -/
def windows : ℕ → ℕ → Option (List (ℕ × ℕ))
  | 0, _ => none
  | fuel + 1, start =>
      if start < length then
        if length ≤ stopOf start then some [(start, stopOf start)]
        else
          (windows fuel (nextStart overlap stopOf start)).map fun rest =>
            (start, stopOf start) :: rest
      else some []

/-- The starts the loop comes to. -/
inductive Reached : ℕ → Prop
  | first : Reached 0
  | next {start : ℕ} (h : Reached start) (hmore : stopOf start < length) :
      Reached (nextStart overlap stopOf start)

/-- The loop ends. -/
def Ends : Prop := ∃ fuel found, windows length overlap stopOf fuel 0 = some found

/-- Every window that does not end the loop moves it forward. -/
def Advances : Prop :=
  ∀ start, Reached length overlap stopOf start → stopOf start < length →
    start < nextStart overlap stopOf start

variable {length overlap : ℕ} {stopOf : ℕ → ℕ}

theorem windows_succ (fuel start : ℕ) :
    windows length overlap stopOf (fuel + 1) start =
      if start < length then
        if length ≤ stopOf start then some [(start, stopOf start)]
        else
          (windows length overlap stopOf fuel (nextStart overlap stopOf start)).map fun rest =>
            (start, stopOf start) :: rest
      else some [] := rfl

/-- A round finds nothing past the end, or a last window, or a window and what the next
rounds find. -/
theorem windows_cases {fuel start : ℕ} {found : List (ℕ × ℕ)}
    (h : windows length overlap stopOf (fuel + 1) start = some found) :
    (length ≤ start ∧ found = []) ∨
      start < length ∧
        ((length ≤ stopOf start ∧ found = [(start, stopOf start)]) ∨
          stopOf start < length ∧ ∃ rest,
            windows length overlap stopOf fuel (nextStart overlap stopOf start) = some rest ∧
              found = (start, stopOf start) :: rest) := by
  rw [windows_succ] at h
  by_cases hstart : start < length
  · rw [if_pos hstart] at h
    refine Or.inr ⟨hstart, ?_⟩
    by_cases hlast : length ≤ stopOf start
    · rw [if_pos hlast, Option.some.injEq] at h
      exact Or.inl ⟨hlast, h.symm⟩
    · rw [if_neg hlast] at h
      obtain ⟨rest, hrest, hfound⟩ := Option.map_eq_some_iff.mp h
      exact Or.inr ⟨Nat.lt_of_not_le hlast, rest, hrest, hfound.symm⟩
  · rw [if_neg hstart, Option.some.injEq] at h
    exact Or.inl ⟨Nat.le_of_not_lt hstart, h.symm⟩

/-- The rounds a loop that always advances can make is bounded by the stretch left. -/
theorem windows_of_advances (h : Advances length overlap stopOf) (fuel start : ℕ)
    (hreached : Reached length overlap stopOf start) (hfuel : length < fuel + start) :
    ∃ found, windows length overlap stopOf fuel start = some found := by
  induction fuel generalizing start with
  | zero =>
    exfalso
    cases hreached with
    | first => omega
    | next _ hmore =>
      unfold nextStart at hfuel
      omega
  | succ fuel ih =>
    rw [windows_succ]
    by_cases hstart : start < length
    · rw [if_pos hstart]
      by_cases hlast : length ≤ stopOf start
      · rw [if_pos hlast]
        exact ⟨_, rfl⟩
      · have hmore : stopOf start < length := by omega
        have hforward := h start hreached hmore
        obtain ⟨rest, hrest⟩ :=
          ih (nextStart overlap stopOf start) (Reached.next hreached hmore) (by omega)
        rw [if_neg hlast, hrest]
        exact ⟨_, rfl⟩
    · rw [if_neg hstart]
      exact ⟨_, rfl⟩

theorem ends_of_advances (h : Advances length overlap stopOf) : Ends length overlap stopOf := by
  obtain ⟨found, hfound⟩ := windows_of_advances h (length + 1) 0 Reached.first (by omega)
  exact ⟨length + 1, found, hfound⟩

/-- From a start where the loop falls back to or behind it never gets any further. -/
theorem windows_stuck (hmono : Monotone stopOf) {stuck : ℕ} (hmore : stopOf stuck < length)
    (hback : nextStart overlap stopOf stuck ≤ stuck) (fuel start : ℕ) (hstart : start ≤ stuck)
    (hin : start < length) : windows length overlap stopOf fuel start = none := by
  induction fuel generalizing start with
  | zero => rfl
  | succ fuel ih =>
    have hstop : stopOf start ≤ stopOf stuck := hmono hstart
    have hnext : nextStart overlap stopOf start ≤ stuck := by
      unfold nextStart at hback ⊢
      omega
    have hnextin : nextStart overlap stopOf start < length := by
      unfold nextStart
      omega
    rw [windows_succ, if_pos hin, if_neg (by omega), ih _ hnext hnextin]
    rfl

/-- Anywhere in the stretch, not only where the loop comes by: a window that ends short of
the stretch and moves back keeps the loop from ending. -/
theorem not_ends_of_stuck (hmono : Monotone stopOf) {stuck : ℕ}
    (hmore : stopOf stuck < length) (hback : nextStart overlap stopOf stuck ≤ stuck) :
    ¬ Ends length overlap stopOf := by
  intro h
  obtain ⟨fuel, found, hfound⟩ := h
  rw [windows_stuck hmono hmore hback fuel 0 (Nat.zero_le _) (by omega)] at hfound
  cases hfound

theorem advances_of_ends (hmono : Monotone stopOf) (h : Ends length overlap stopOf) :
    Advances length overlap stopOf := by
  intro start _ hmore
  by_contra hback
  exact not_ends_of_stuck hmono hmore (by omega) h

/-- No position between the start and the end of the stretch is left out. -/
theorem exists_window {fuel start : ℕ} {found : List (ℕ × ℕ)}
    (h : windows length overlap stopOf fuel start = some found) {i : ℕ} (hlow : start ≤ i)
    (hhigh : i < length) : ∃ window ∈ found, window.1 ≤ i ∧ i < window.2 := by
  induction fuel generalizing start found with
  | zero => cases h
  | succ fuel ih =>
    rcases windows_cases h with ⟨hend, -⟩ | ⟨-, ⟨hlast, rfl⟩ | ⟨-, rest, hrest, rfl⟩⟩
    · omega
    · exact ⟨_, List.mem_singleton_self _, hlow, Nat.lt_of_lt_of_le hhigh hlast⟩
    · by_cases hfirst : i < stopOf start
      · exact ⟨_, List.mem_cons_self .., hlow, hfirst⟩
      · have hnext : nextStart overlap stopOf start ≤ i := by
          unfold nextStart
          omega
        obtain ⟨window, hwindow, hin⟩ := ih hrest hnext
        exact ⟨window, List.mem_cons_of_mem _ hwindow, hin⟩

/-- Each window starts where the loop has come to, before the end of the stretch. -/
theorem window_reached {fuel start : ℕ} {found : List (ℕ × ℕ)}
    (h : windows length overlap stopOf fuel start = some found)
    (hreached : Reached length overlap stopOf start) {window : ℕ × ℕ} (hwindow : window ∈ found) :
    Reached length overlap stopOf window.1 ∧ window.1 < length ∧ window.2 = stopOf window.1 := by
  induction fuel generalizing start found with
  | zero => cases h
  | succ fuel ih =>
    rcases windows_cases h with ⟨-, rfl⟩ | ⟨hstart, ⟨-, rfl⟩ | ⟨hmore, rest, hrest, rfl⟩⟩
    · exact absurd hwindow List.not_mem_nil
    · rw [List.mem_singleton.mp hwindow]
      exact ⟨hreached, hstart, rfl⟩
    · rcases List.mem_cons.mp hwindow with rfl | hlater
      · exact ⟨hreached, hstart, rfl⟩
      · exact ih hrest (Reached.next hreached hmore) hlater

theorem Reached.lt {start : ℕ} (h : Reached length overlap stopOf start) (hpos : 0 < length) :
    start < length := by
  cases h with
  | first => exact hpos
  | next _ hmore =>
    unfold nextStart
    omega

/-- The windows found from any start the loop comes to are among all it finds. -/
theorem windows_of_reached {fuel : ℕ} {found : List (ℕ × ℕ)} (hpos : 0 < length)
    (h : windows length overlap stopOf fuel 0 = some found) {start : ℕ}
    (hreached : Reached length overlap stopOf start) :
    ∃ fuel' rest, windows length overlap stopOf fuel' start = some rest ∧
      ∀ window ∈ rest, window ∈ found := by
  induction hreached with
  | first => exact ⟨fuel, found, h, fun _ => id⟩
  | @next previous hprevious hmore ih =>
    obtain ⟨fuel', rest, hrest, hsub⟩ := ih
    cases fuel' with
    | zero => cases hrest
    | succ fuel' =>
      have hin := hprevious.lt hpos
      rcases windows_cases hrest with ⟨hend, -⟩ | ⟨-, ⟨hlast, -⟩ | ⟨-, later, hlater, rfl⟩⟩
      · omega
      · omega
      · exact ⟨fuel', later, hlater, fun window hwindow => hsub _ (List.mem_cons_of_mem _ hwindow)⟩

/-- The loop makes a window of every start it comes to. -/
theorem exists_window_of_reached {fuel : ℕ} {found : List (ℕ × ℕ)} (hpos : 0 < length)
    (h : windows length overlap stopOf fuel 0 = some found) {start : ℕ}
    (hreached : Reached length overlap stopOf start) : (start, stopOf start) ∈ found := by
  obtain ⟨fuel', rest, hrest, hsub⟩ := windows_of_reached hpos h hreached
  apply hsub
  cases fuel' with
  | zero => cases hrest
  | succ fuel' =>
    have hin := hreached.lt hpos
    rcases windows_cases hrest with ⟨hend, -⟩ | ⟨-, ⟨-, rfl⟩ | ⟨-, later, -, rfl⟩⟩
    · omega
    · exact List.mem_singleton_self _
    · exact List.mem_cons_self ..

/-- A loop that advances finds its windows in the order of their starts. -/
theorem windows_sorted (hadvances : Advances length overlap stopOf) {fuel start : ℕ}
    {found : List (ℕ × ℕ)} (h : windows length overlap stopOf fuel start = some found)
    (hreached : Reached length overlap stopOf start) :
    (∀ window ∈ found, start ≤ window.1) ∧
      found.Pairwise (fun first second => first.1 < second.1) := by
  induction fuel generalizing start found with
  | zero => cases h
  | succ fuel ih =>
    rcases windows_cases h with ⟨-, rfl⟩ | ⟨-, ⟨-, rfl⟩ | ⟨hmore, rest, hrest, rfl⟩⟩
    · exact ⟨fun _ hwindow => absurd hwindow List.not_mem_nil, List.Pairwise.nil⟩
    · refine ⟨fun window hwindow => ?_, List.pairwise_singleton _ _⟩
      rw [List.mem_singleton.mp hwindow]
    · have hforward := hadvances start hreached hmore
      obtain ⟨hlow, hsorted⟩ := ih hrest (Reached.next hreached hmore)
      have hlater : ∀ window ∈ rest, start < window.1 := fun window hwindow =>
        Nat.lt_of_lt_of_le hforward (hlow window hwindow)
      refine ⟨fun window hwindow => ?_, List.pairwise_cons.mpr ⟨hlater, hsorted⟩⟩
      rcases List.mem_cons.mp hwindow with rfl | hin
      · exact le_rfl
      · exact (hlater window hin).le

end Gittensory.SlidingWindow
