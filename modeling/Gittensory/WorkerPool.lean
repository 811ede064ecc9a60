import Gittensory.GuardedRun
import Mathlib.Data.List.Perm.Basic

/-!
A pool of workers over the positions of a list. A worker takes the next position that no
worker has taken, waits for the call it makes there, stores the answer at that position and
takes another one; a worker whose call fails stops for good. The calls settle in any order.
-/
namespace Gittensory.WorkerPool

open GuardedRun

variable {α ε : Type*}

inductive Worker where
  | busy (index : ℕ)
  | finished
  | rejected (index : ℕ)
  deriving DecidableEq, Repr

/-- `calls` are the positions for which the call was made, the first of them first. -/
structure Pool (α : Type*) where
  nextIndex : ℕ
  workers : List Worker
  results : List (Option α)
  calls : List ℕ

/-- The head of a worker's loop, in a pool over `size` positions. -/
def Pool.take (size : ℕ) (pool : Pool α) (worker : ℕ) : Pool α :=
  if pool.nextIndex < size then
    { pool with
      nextIndex := pool.nextIndex + 1
      workers := pool.workers.set worker (.busy pool.nextIndex)
      calls := pool.calls ++ [pool.nextIndex] }
  else { pool with workers := pool.workers.set worker .finished }

/-- Every worker runs up to its first call before any call settles. -/
def launch (size limit : ℕ) : Pool α :=
  (List.range (min limit size)).foldl (Pool.take size)
    ⟨0, List.replicate (min limit size) .finished, List.replicate size none, []⟩

section Settling

-- What the call at a position comes to.
variable (answer : ℕ → Except ε α) (size : ℕ)

/-- The call of a worker settles; a worker that waits for none is left alone. -/
def settle (pool : Pool α) (worker : ℕ) : Pool α :=
  match pool.workers[worker]? with
  | some (.busy index) =>
      match answer index with
      | .ok value =>
          Pool.take size { pool with results := pool.results.set index (some value) } worker
      | .error _ => { pool with workers := pool.workers.set worker (.rejected index) }
  | _ => pool

/-- The pool after its calls settled in the order of the workers listed. -/
def settled (limit : ℕ) (order : List ℕ) : Pool α :=
  run (settle answer size) (launch size limit) order

/-! ## What every pool keeps -/

/-- Positions are taken in order and once each; a taken one is waited for, stored or failed. -/
structure Sound (pool : Pool α) : Prop where
  nextIndex_le : pool.nextIndex ≤ size
  calls_eq : pool.calls = List.range pool.nextIndex
  length_results : pool.results.length = size
  taken : ∀ index, .busy index ∈ pool.workers ∨ .rejected index ∈ pool.workers →
    index < pool.nextIndex
  stored : ∀ index value, pool.results[index]? = some (some value) → answer index = .ok value
  rejected : ∀ index, .rejected index ∈ pool.workers → ∃ error, answer index = .error error
  finished : .finished ∈ pool.workers → pool.nextIndex = size
  covered : ∀ index < pool.nextIndex, .busy index ∈ pool.workers ∨
    .rejected index ∈ pool.workers ∨ ∃ value, pool.results[index]? = some (some value)

variable {answer size}

theorem mem_set_of_ne {workers : List Worker} {worker : ℕ} {kept changed : Worker}
    (hmem : kept ∈ workers) (hne : workers[worker]? ≠ some kept) :
    kept ∈ workers.set worker changed := by
  obtain ⟨position, hposition⟩ := List.mem_iff_getElem?.mp hmem
  refine List.mem_iff_getElem?.mpr ⟨position, ?_⟩
  have hother : worker ≠ position := fun h => hne (h ▸ hposition)
  rw [List.getElem?_set_ne hother, hposition]

theorem launch_fold (limit : ℕ) (taken : ℕ) (h : taken ≤ min limit size) :
    (List.range taken).foldl (Pool.take size)
        ⟨0, List.replicate (min limit size) .finished, List.replicate size none, []⟩ =
      (⟨taken, (List.range taken).map .busy ++ List.replicate (min limit size - taken) .finished,
        List.replicate size none, List.range taken⟩ : Pool α) := by
  induction taken with
  | zero => simp
  | succ taken ih =>
    have hroom : min limit size - taken = min limit size - (taken + 1) + 1 := by omega
    rw [List.range_succ, List.foldl_append, ih (by omega)]
    simp only [List.foldl_cons, List.foldl_nil, Pool.take, if_pos (by omega : taken < size)]
    rw [hroom, List.replicate_succ, List.set_append_right _ _ (by simp)]
    simp

theorem launch_eq (limit : ℕ) : (launch size limit : Pool α) =
    ⟨min limit size, (List.range (min limit size)).map .busy, List.replicate size none,
      List.range (min limit size)⟩ := by
  rw [launch, launch_fold limit _ (Nat.le_refl _), Nat.sub_self, List.replicate_zero,
    List.append_nil]

theorem sound_launch (limit : ℕ) : Sound answer size (launch size limit : Pool α) := by
  rw [launch_eq]
  refine ⟨Nat.min_le_right _ _, rfl, List.length_replicate, ?_, ?_, ?_, ?_, ?_⟩
  · intro index h
    rcases h with h | h
    · obtain ⟨position, hposition, h⟩ := List.mem_map.mp h
      cases h
      exact List.mem_range.mp hposition
    · obtain ⟨_, _, h⟩ := List.mem_map.mp h
      cases h
  · intro index value h
    rw [List.getElem?_replicate] at h
    split_ifs at h
    exact nomatch Option.some.inj h
  · intro index h
    obtain ⟨_, _, h⟩ := List.mem_map.mp h
    cases h
  · intro h
    obtain ⟨_, _, h⟩ := List.mem_map.mp h
    cases h
  · intro index hindex
    exact Or.inl (List.mem_map_of_mem (List.mem_range.mpr hindex))

theorem Sound.store {pool : Pool α} (h : Sound answer size pool) {index : ℕ} {value : α}
    (hanswer : answer index = .ok value) :
    Sound answer size { pool with results := pool.results.set index (some value) } := by
  refine ⟨h.nextIndex_le, h.calls_eq, ?_, h.taken, ?_, h.rejected, h.finished, ?_⟩
  · rw [List.length_set]
    exact h.length_results
  · intro other found hfound
    by_cases hother : index = other
    · subst hother
      rw [List.getElem?_set_self'] at hfound
      obtain ⟨_, _, hvalue⟩ := Option.map_eq_some_iff.mp hfound
      obtain rfl := Option.some.inj hvalue
      exact hanswer
    · rw [List.getElem?_set_ne hother] at hfound
      exact h.stored other found hfound
  · intro other hother
    refine (h.covered other hother).imp_right (Or.imp_right fun hstored => ?_)
    obtain ⟨found, hfound⟩ := hstored
    by_cases heq : index = other
    · subst heq
      refine ⟨value, ?_⟩
      rw [List.getElem?_set_self', hfound]
      rfl
    · refine ⟨found, ?_⟩
      rw [List.getElem?_set_ne heq]
      exact hfound

/-- A worker whose position is stored goes on to the next one. -/
theorem Sound.take {pool : Pool α} (h : Sound answer size pool) {worker index : ℕ} {value : α}
    (hworker : pool.workers[worker]? = some (.busy index))
    (hstored : pool.results[index]? = some (some value)) :
    Sound answer size (pool.take size worker) := by
  have hlength : worker < pool.workers.length := (List.getElem?_eq_some_iff.mp hworker).1
  -- What the other workers do is as before, and the position of this one is stored.
  have hcovered : ∀ other < pool.nextIndex, ∀ changed : Worker,
      .busy other ∈ pool.workers.set worker changed ∨
        .rejected other ∈ pool.workers.set worker changed ∨
        ∃ value, pool.results[other]? = some (some value) := by
    intro other hother changed
    rcases h.covered other hother with hbusy | hrejected | hdone
    · by_cases heq : index = other
      · exact Or.inr (Or.inr ⟨value, heq ▸ hstored⟩)
      · exact Or.inl (mem_set_of_ne hbusy (by rw [hworker]; simp [heq]))
    · exact Or.inr (Or.inl (mem_set_of_ne hrejected (by rw [hworker]; simp)))
    · exact Or.inr (Or.inr hdone)
  have hnext := h.nextIndex_le
  unfold Pool.take
  split_ifs with hroom
  · refine ⟨hroom, ?_, h.length_results, ?_, h.stored, ?_, ?_, ?_⟩
    · change pool.calls ++ [pool.nextIndex] = List.range (pool.nextIndex + 1)
      rw [h.calls_eq, List.range_succ]
    · intro other hother
      rcases hother with hbusy | hrejected
      · rcases List.mem_or_eq_of_mem_set hbusy with hold | hnew
        · exact Nat.lt_succ_of_lt (h.taken other (Or.inl hold))
        · obtain rfl := Worker.busy.inj hnew
          exact Nat.lt_succ_self _
      · rcases List.mem_or_eq_of_mem_set hrejected with hold | hnew
        · exact Nat.lt_succ_of_lt (h.taken other (Or.inr hold))
        · cases hnew
    · intro other hother
      rcases List.mem_or_eq_of_mem_set hother with hold | hnew
      · exact h.rejected other hold
      · cases hnew
    · intro hfinished
      rcases List.mem_or_eq_of_mem_set hfinished with hold | hnew
      · exact absurd (h.finished hold) (Nat.ne_of_lt hroom)
      · cases hnew
    · intro other hother
      rcases Nat.lt_succ_iff_lt_or_eq.mp hother with hbefore | rfl
      · exact hcovered other hbefore _
      · exact Or.inl (List.mem_set hlength _)
  · refine ⟨hnext, h.calls_eq, h.length_results, ?_, h.stored, ?_, ?_, ?_⟩
    · intro other hother
      refine h.taken other (hother.imp (fun hmem => ?_) fun hmem => ?_)
      · exact (List.mem_or_eq_of_mem_set hmem).resolve_right nofun
      · exact (List.mem_or_eq_of_mem_set hmem).resolve_right nofun
    · intro other hother
      rcases List.mem_or_eq_of_mem_set hother with hold | hnew
      · exact h.rejected other hold
      · cases hnew
    · intro _
      change pool.nextIndex = size
      omega
    · exact fun other hother => hcovered other hother _

theorem Sound.reject {pool : Pool α} (h : Sound answer size pool) {worker index : ℕ} {error : ε}
    (hworker : pool.workers[worker]? = some (.busy index))
    (hanswer : answer index = .error error) :
    Sound answer size { pool with workers := pool.workers.set worker (.rejected index) } := by
  have hlength : worker < pool.workers.length := (List.getElem?_eq_some_iff.mp hworker).1
  refine ⟨h.nextIndex_le, h.calls_eq, h.length_results, ?_, h.stored, ?_, ?_, ?_⟩
  · intro other hother
    rcases hother with hbusy | hrejected
    · exact h.taken other (Or.inl ((List.mem_or_eq_of_mem_set hbusy).resolve_right nofun))
    · rcases List.mem_or_eq_of_mem_set hrejected with hold | hnew
      · exact h.taken other (Or.inr hold)
      · obtain rfl := Worker.rejected.inj hnew
        exact h.taken other (Or.inl (List.mem_of_getElem? hworker))
  · intro other hother
    rcases List.mem_or_eq_of_mem_set hother with hold | hnew
    · exact h.rejected other hold
    · obtain rfl := Worker.rejected.inj hnew
      exact ⟨error, hanswer⟩
  · intro hfinished
    rcases List.mem_or_eq_of_mem_set hfinished with hold | hnew
    · exact h.finished hold
    · cases hnew
  · intro other hother
    rcases h.covered other hother with hbusy | hrejected | hdone
    · by_cases heq : index = other
      · exact Or.inr (Or.inl (heq ▸ List.mem_set hlength _))
      · exact Or.inl (mem_set_of_ne hbusy (by rw [hworker]; simp [heq]))
    · exact Or.inr (Or.inl (mem_set_of_ne hrejected (by rw [hworker]; simp)))
    · exact Or.inr (Or.inr hdone)

theorem sound_settle {pool : Pool α} (h : Sound answer size pool) (worker : ℕ) :
    Sound answer size (settle answer size pool worker) := by
  unfold settle
  split
  · next index hworker =>
    have hindex : index < pool.results.length := by
      rw [h.length_results]
      have htaken := h.taken index (Or.inl (List.mem_of_getElem? hworker))
      exact Nat.lt_of_lt_of_le htaken h.nextIndex_le
    rcases hanswer : answer index with error | value
    · exact h.reject hworker hanswer
    · exact (h.store hanswer).take hworker (List.getElem?_set_self hindex)
  · exact h

theorem length_workers_settle (pool : Pool α) (worker : ℕ) :
    (settle answer size pool worker).workers.length = pool.workers.length := by
  unfold settle
  split
  · split
    · unfold Pool.take
      split_ifs <;> exact List.length_set
    · exact List.length_set
  · rfl

theorem sound_settled (limit : ℕ) (order : List ℕ) :
    Sound answer size (settled answer size limit order) := by
  have hstep : ∀ (pool : Pool α) (worker : ℕ), Sound answer size pool →
      Sound answer size (settle answer size pool worker) := fun _ worker h => sound_settle h worker
  exact run_keeps (settle answer size) hstep _ order (sound_launch limit)

/-- There are never more calls waiting than workers. -/
theorem length_workers (limit : ℕ) (order : List ℕ) :
    (settled answer size limit order).workers.length = min limit size := by
  have hstep : ∀ (pool : Pool α) (worker : ℕ), pool.workers.length = min limit size →
      (settle answer size pool worker).workers.length = min limit size := fun pool worker h =>
    (length_workers_settle pool worker).trans h
  refine run_keeps (settle answer size) hstep _ order ?_
  rw [launch_eq, List.length_map, List.length_range]

/-- All workers left their loops. -/
def Resolved (pool : Pool α) : Prop := ∀ worker ∈ pool.workers, worker = .finished

/-- Whatever the order in which the calls settled, a pool that resolved made one call for each
position, and holds at each what that call came to. -/
theorem resolved_results {limit : ℕ} (hlimit : 0 < limit) {order : List ℕ}
    (h : Resolved (settled answer size limit order)) :
    (settled answer size limit order).calls = List.range size ∧
      (settled answer size limit order).results.length = size ∧
      ∀ index < size, ∃ value, answer index = .ok value ∧
        (settled answer size limit order).results[index]? = some (some value) := by
  have hsound := @sound_settled α ε answer size limit order
  have hnext : (settled answer size limit order).nextIndex = size := by
    rcases Nat.eq_zero_or_pos size with hzero | hpos
    · have := hsound.nextIndex_le
      omega
    · have hlength := @length_workers α ε answer size limit order
      obtain ⟨worker, hworker⟩ := List.exists_mem_of_length_pos
        (by rw [hlength]; omega : 0 < (settled answer size limit order).workers.length)
      exact hsound.finished (h worker hworker ▸ hworker)
  refine ⟨by rw [hsound.calls_eq, hnext], hsound.length_results, fun index hindex => ?_⟩
  rw [← hnext] at hindex
  rcases hsound.covered index hindex with hbusy | hrejected | hdone
  · exact nomatch h _ hbusy
  · exact nomatch h _ hrejected
  · obtain ⟨value, hvalue⟩ := hdone
    exact ⟨value, hsound.stored index value hvalue, hvalue⟩

/-! ## Until all calls settled -/

def Worker.isBusy : Worker → Bool
  | .busy _ => true
  | _ => false

/-- Every worker of the order waits for a call when its turn comes. -/
def Prompt (answer : ℕ → Except ε α) (size : ℕ) : Pool α → List ℕ → Prop
  | _, [] => True
  | pool, worker :: order =>
      (∃ index, pool.workers[worker]? = some (.busy index)) ∧
        Prompt answer size (settle answer size pool worker) order

/-- The calls that have not settled, made or not. -/
def unsettled (size : ℕ) (pool : Pool α) : ℕ :=
  size - pool.nextIndex + pool.workers.countP Worker.isBusy

theorem unsettled_settle (hok : ∀ index < size, ∃ value, answer index = .ok value) {pool : Pool α}
    (h : Sound answer size pool) {worker index : ℕ}
    (hworker : pool.workers[worker]? = some (.busy index)) :
    unsettled size (settle answer size pool worker) + 1 = unsettled size pool := by
  obtain ⟨hlength, hget⟩ := List.getElem?_eq_some_iff.mp hworker
  have hindex : index < size :=
    Nat.lt_of_lt_of_le (h.taken index (Or.inl (List.mem_of_getElem? hworker))) h.nextIndex_le
  obtain ⟨value, hvalue⟩ := hok index hindex
  have hpos : 0 < pool.workers.countP Worker.isBusy :=
    List.countP_pos_iff.mpr ⟨_, List.mem_of_getElem? hworker, rfl⟩
  simp only [settle, hworker, hvalue, Pool.take, unsettled]
  split_ifs with hroom
  · simp only [List.countP_set hlength, hget, Worker.isBusy, if_true]
    omega
  · simp only [List.countP_set hlength, hget, Worker.isBusy, if_true]
    simp only [Bool.false_eq_true, if_false]
    omega

theorem unsettled_run (hok : ∀ index < size, ∃ value, answer index = .ok value) {pool : Pool α}
    (h : Sound answer size pool) {order : List ℕ} (hprompt : Prompt answer size pool order) :
    unsettled size (run (settle answer size) pool order) + order.length = unsettled size pool := by
  induction order generalizing pool with
  | nil => rfl
  | cons worker order ih =>
    obtain ⟨⟨index, hworker⟩, hrest⟩ := hprompt
    have hstep := unsettled_settle hok h hworker
    have hrun := ih (sound_settle h worker) hrest
    rw [List.length_cons]
    change unsettled size (run (settle answer size) (settle answer size pool worker) order) + _ = _
    omega

theorem unsettled_launch (limit : ℕ) : unsettled size (launch size limit : Pool α) = size := by
  have hbusy : ((List.range (min limit size)).map Worker.busy).countP Worker.isBusy =
      min limit size := by
    rw [List.countP_map, List.countP_eq_length.mpr, List.length_range]
    exact fun _ _ => rfl
  rw [launch_eq]
  change size - min limit size + List.countP Worker.isBusy (List.map _ _) = size
  rw [hbusy]
  omega

/-- Without failures, as many calls settle as there are positions, and then the pool resolved. -/
theorem resolved_iff_length (hok : ∀ index < size, ∃ value, answer index = .ok value) (limit : ℕ)
    {order : List ℕ} (hprompt : Prompt answer size (launch size limit) order) (hlimit : 0 < limit) :
    order.length ≤ size ∧
      (Resolved (settled answer size limit order) ↔ order.length = size) := by
  have hrun := unsettled_run hok (sound_launch limit) hprompt
  have hsound := @sound_settled α ε answer size limit order
  rw [unsettled_launch] at hrun
  refine ⟨by omega, fun h => ?_, fun hlength => ?_⟩
  · have hidle : (settled answer size limit order).workers.countP Worker.isBusy = 0 :=
      List.countP_eq_zero.mpr fun worker hworker => by simp [h worker hworker, Worker.isBusy]
    have hcalls := congrArg List.length (resolved_results hlimit h).1
    rw [hsound.calls_eq, List.length_range, List.length_range] at hcalls
    have hnone : unsettled size (settled answer size limit order) = 0 := by
      rw [unsettled, hidle, hcalls, Nat.sub_self]
    rw [settled] at hnone
    omega
  · have hnone : unsettled size (settled answer size limit order) = 0 := by
      rw [settled]
      omega
    have hidle : (settled answer size limit order).workers.countP Worker.isBusy = 0 := by
      rw [unsettled] at hnone
      omega
    intro worker hworker
    rcases worker with index | _ | index
    · exact absurd rfl (List.countP_eq_zero.mp hidle _ hworker)
    · rfl
    · obtain ⟨error, herror⟩ := hsound.rejected index hworker
      have hindex : index < size :=
        Nat.lt_of_lt_of_le (hsound.taken index (Or.inr hworker)) hsound.nextIndex_le
      obtain ⟨value, hvalue⟩ := hok index hindex
      rw [hvalue] at herror
      cases herror

end Settling

end Gittensory.WorkerPool
