import Gittensory.IsoTimestamp
import Mathlib.Logic.Function.Basic

/-!
The fixed-window limiter (`auth/rate-limit.ts`, `RateLimiter.fetch`). The first request with a
key opens a window, every request in it counts, the denied ones too, and the first one at its
end or later opens the next. A time shorter than a window meets two of them at most, and each
allows as many requests as the limit says.
-/
namespace Gittensory.RateLimiter

open IsoTimestamp

/-! ## One request -/

/-- The body as JSON gives it; a field that is missing is `none`. -/
structure RateLimitBody where
  key : Option String
  limit : Option ℕ
  windowSeconds : Option ℤ
  deriving DecidableEq, Repr

/-- A body that has passed the check. -/
structure RateLimitRequest where
  key : String
  limit : ℕ
  windowSeconds : ℤ
  deriving DecidableEq, Repr

structure Bucket where
  count : ℕ
  resetAt : ℤ
  deriving DecidableEq, Repr

structure RateLimitDecision where
  allowed : Bool
  limit : ℕ
  remaining : ℕ
  resetAt : String
  retryAfterSeconds : Option ℤ
  deriving DecidableEq, Repr

/-- The handler answers, or `toISOString` throws at a time that no date has. -/
inductive Reply where
  | invalid (error : String) (status : ℕ)
  | decided (decision : RateLimitDecision) (status : ℕ)
  | thrown
  deriving DecidableEq, Repr

abbrev Storage := String → Option Bucket

/-- The three fields are there and are truthy. -/
def checkBody (body : Option RateLimitBody) : Option RateLimitRequest := do
  let body ← body
  let key ← body.key.filter (· ≠ "")
  let limit ← body.limit.filter (· ≠ 0)
  let windowSeconds ← body.windowSeconds.filter (· ≠ 0)
  return { key, limit, windowSeconds }

def storageKey (key : String) : String := "bucket:" ++ key

def countRequest (stored : Option Bucket) (windowSeconds now : ℤ) : Bucket :=
  let fresh : Bucket := { count := 0, resetAt := now + windowSeconds * 1000 }
  let existing := stored.getD fresh
  let bucket := if existing.resetAt ≤ now then fresh else existing
  { bucket with count := bucket.count + 1 }

def decisionReply (limit : ℕ) (bucket : Bucket) (now : ℤ) : Reply :=
  match toISOString bucket.resetAt with
  | none => .thrown
  | some resetAt =>
      let allowed := bucket.count ≤ limit
      -- `Math.ceil` of a number of milliseconds by a thousand
      let retryAfterSeconds := max 1 (-(-(bucket.resetAt - now) / 1000))
      .decided
        { allowed
          limit
          remaining := limit - bucket.count
          resetAt
          retryAfterSeconds := if limit < bucket.count then some retryAfterSeconds else none }
        (if allowed then 200 else 429)

def fetch (storage : Storage) (now : ℤ) (body : Option RateLimitBody) : Reply × Storage :=
  match checkBody body with
  | none => (.invalid "invalid_rate_limit_request" 400, storage)
  | some request =>
      let bucket := countRequest (storage (storageKey request.key)) request.windowSeconds now
      (decisionReply request.limit bucket now,
        Function.update storage (storageKey request.key) (some bucket))

def Reply.allows : Reply → Bool
  | .decided decision _ => decision.allowed
  | _ => false

def Reply.denies : Reply → Bool
  | .decided decision _ => !decision.allowed
  | _ => false

/-! ## A history of requests -/

structure Arrival where
  now : ℤ
  body : Option RateLimitBody
  deriving DecidableEq, Repr

/-- The requests that the limiter handles one after another, each with its reply. -/
def handled : Storage → List Arrival → List (Arrival × Reply)
  | _, [] => []
  | storage, arrival :: rest =>
      let (reply, stored) := fetch storage arrival.now arrival.body
      (arrival, reply) :: handled stored rest

def AsksFor (key : String) (arrival : Arrival) : Prop :=
  ∃ request ∈ checkBody arrival.body, request.key = key

instance (key : String) (arrival : Arrival) : Decidable (AsksFor key arrival) :=
  inferInstanceAs (Decidable (∃ request ∈ checkBody arrival.body, request.key = key))

/-- The requests with the key all ask for one limit and one window. -/
def Uniform (key : String) (limit : ℕ) (windowSeconds : ℤ) (arrivals : List Arrival) : Prop :=
  ∀ arrival ∈ arrivals, ∀ request ∈ checkBody arrival.body, request.key = key →
    request.limit = limit ∧ request.windowSeconds = windowSeconds

def InOrder (arrivals : List Arrival) : Prop :=
  arrivals.Pairwise fun earlier later => earlier.now ≤ later.now

instance (arrivals : List Arrival) : Decidable (InOrder arrivals) :=
  inferInstanceAs (Decidable (arrivals.Pairwise fun earlier later => earlier.now ≤ later.now))

/-- An allowed request with the key in a stretch of time, its ends included. -/
def AllowedWithin (key : String) (first last : ℤ) (entry : Arrival × Reply) : Prop :=
  AsksFor key entry.1 ∧ entry.2.allows = true ∧ first ≤ entry.1.now ∧ entry.1.now ≤ last

instance (key : String) (first last : ℤ) (entry : Arrival × Reply) :
    Decidable (AllowedWithin key first last entry) :=
  inferInstanceAs (Decidable (_ ∧ _ ∧ _ ∧ _))

/-- A request with the key less than a window before a moment. -/
def ShortlyBefore (key : String) (windowSeconds now : ℤ) (arrival : Arrival) : Prop :=
  AsksFor key arrival ∧ now - arrival.now < windowSeconds * 1000

instance (key : String) (windowSeconds now : ℤ) (arrival : Arrival) :
    Decidable (ShortlyBefore key windowSeconds now arrival) :=
  inferInstanceAs (Decidable (_ ∧ _))

/-! ## One step -/

section Step

variable {key : String} {request : RateLimitRequest} {body : Option RateLimitBody}
  {storage : Storage} {now : ℤ}

theorem limit_ne_zero (h : request ∈ checkBody body) : request.limit ≠ 0 := by
  simp only [checkBody, Option.mem_def, Option.bind_eq_bind, Option.bind_eq_some_iff,
    Option.filter_eq_some_iff] at h
  obtain ⟨_, _, key, _, limit, ⟨_, hlimit⟩, windowSeconds, _, hrequest⟩ := h
  cases hrequest
  exact of_decide_eq_true hlimit

theorem fetch_of_valid (h : request ∈ checkBody body) :
    fetch storage now body =
      (decisionReply request.limit
          (countRequest (storage (storageKey request.key)) request.windowSeconds now) now,
        Function.update storage (storageKey request.key)
          (some (countRequest (storage (storageKey request.key)) request.windowSeconds now))) := by
  rw [fetch, Option.mem_def.mp h]

theorem stored_of_valid (h : request ∈ checkBody body) :
    (fetch storage now body).2 (storageKey request.key) =
      some (countRequest (storage (storageKey request.key)) request.windowSeconds now) := by
  rw [fetch_of_valid h]
  exact Function.update_self ..

/-- A request that does not ask for the key leaves its bucket alone. -/
theorem stored_of_not_asks (h : ∀ request ∈ checkBody body, request.key ≠ key) :
    (fetch storage now body).2 (storageKey key) = storage (storageKey key) := by
  cases hcheck : checkBody body with
  | none => rw [fetch, hcheck]
  | some request =>
    have hkey : storageKey key ≠ storageKey request.key := fun heq =>
      h request hcheck (String.append_right_inj _ |>.mp heq).symm
    rw [fetch_of_valid hcheck]
    exact Function.update_of_ne hkey _ _

theorem allows_decisionReply {limit : ℕ} {bucket : Bucket}
    (h : (decisionReply limit bucket now).allows = true) : bucket.count ≤ limit := by
  unfold decisionReply at h
  split at h
  · cases h
  · exact of_decide_eq_true h

theorem denies_decisionReply {limit : ℕ} {bucket : Bucket}
    (h : (decisionReply limit bucket now).denies = true) : limit < bucket.count := by
  unfold decisionReply at h
  split at h
  · cases h
  · simpa [Reply.denies] using h

/-- A request is counted in the window that is open, or opens one. -/
theorem countRequest_cases (stored : Option Bucket) (windowSeconds now : ℤ) :
    (∃ bucket, stored = some bucket ∧ now < bucket.resetAt ∧
      countRequest stored windowSeconds now =
        { count := bucket.count + 1, resetAt := bucket.resetAt }) ∨
    ((∀ bucket, stored = some bucket → bucket.resetAt ≤ now) ∧
      countRequest stored windowSeconds now =
        { count := 1, resetAt := now + windowSeconds * 1000 }) := by
  cases stored with
  | none =>
    refine Or.inr ⟨fun bucket h => absurd h (Option.some_ne_none bucket).symm, ?_⟩
    simp only [countRequest, Option.getD_none, ite_self, Nat.zero_add]
  | some bucket =>
    rcases lt_or_ge now bucket.resetAt with hopen | hover
    · refine Or.inl ⟨bucket, rfl, hopen, ?_⟩
      simp only [countRequest, Option.getD_some, if_neg (not_le.mpr hopen)]
    · refine Or.inr ⟨fun _ h => Option.some.inj h ▸ hover, ?_⟩
      simp only [countRequest, Option.getD_some, if_pos hover, Nat.zero_add]

end Step

/-! ## Fairness -/

section Fairness

variable {key : String} {limit : ℕ} {windowSeconds : ℤ}

theorem Uniform.head {arrival : Arrival} {rest : List Arrival}
    (h : Uniform key limit windowSeconds (arrival :: rest)) :
    Uniform key limit windowSeconds [arrival] := fun other hother =>
  h other (List.mem_cons.mpr (Or.inl (List.mem_singleton.mp hother)))

theorem Uniform.tail {arrival : Arrival} {rest : List Arrival}
    (h : Uniform key limit windowSeconds (arrival :: rest)) :
    Uniform key limit windowSeconds rest := fun other hother =>
  h other (List.mem_cons_of_mem _ hother)

/-- The window that is open for the key opened at or before `clock`, and the requests it has
counted came since. -/
def Counted (key : String) (windowSeconds clock : ℤ) (past : List Arrival) (storage : Storage) :
    Prop :=
  ∀ bucket, storage (storageKey key) = some bucket →
    bucket.resetAt - windowSeconds * 1000 ≤ clock ∧
      bucket.count ≤ past.countP fun arrival =>
        AsksFor key arrival ∧ bucket.resetAt - windowSeconds * 1000 ≤ arrival.now

theorem counted_fresh (clock : ℤ) : Counted key windowSeconds clock [] fun _ => none :=
  fun bucket h => absurd h (Option.some_ne_none bucket).symm

theorem Counted.fetch {clock : ℤ} {past : List Arrival} {storage : Storage} {arrival : Arrival}
    (h : Counted key windowSeconds clock past storage) (hclock : clock ≤ arrival.now)
    (huniform : Uniform key limit windowSeconds [arrival]) :
    Counted key windowSeconds arrival.now (past ++ [arrival])
      (fetch storage arrival.now arrival.body).2 := by
  intro bucket hbucket
  rw [List.countP_append]
  by_cases hasks : AsksFor key arrival
  · obtain ⟨request, hrequest, hkey⟩ := hasks
    have hwindow := (huniform arrival (List.mem_singleton_self _) request hrequest hkey).2
    rw [← hkey, stored_of_valid hrequest, hkey, hwindow] at hbucket
    obtain rfl := Option.some.inj hbucket
    rcases countRequest_cases (storage (storageKey key)) windowSeconds arrival.now with
      ⟨window, hstored, hopen, heq⟩ | ⟨-, heq⟩
    · obtain ⟨hopened, hcount⟩ := h window hstored
      have hone : [arrival].countP (fun arrival =>
          AsksFor key arrival ∧ window.resetAt - windowSeconds * 1000 ≤ arrival.now) = 1 := by
        rw [List.countP_singleton, if_pos]
        exact decide_eq_true ⟨⟨request, hrequest, hkey⟩, hopened.trans hclock⟩
      rw [heq]
      exact ⟨hopened.trans hclock, by rw [hone]; exact Nat.add_le_add_right hcount 1⟩
    · rw [heq]
      dsimp only
      rw [add_sub_cancel_right]
      refine ⟨le_refl _, ?_⟩
      rw [List.countP_singleton, if_pos]
      · exact Nat.le_add_left 1 _
      · exact decide_eq_true ⟨⟨request, hrequest, hkey⟩, le_refl _⟩
  · have hother : ∀ request ∈ checkBody arrival.body, request.key ≠ key :=
      fun request hrequest hkey => hasks ⟨request, hrequest, hkey⟩
    rw [stored_of_not_asks hother] at hbucket
    obtain ⟨hopened, hcount⟩ := h bucket hbucket
    exact ⟨hopened.trans hclock, hcount.trans (Nat.le_add_right _ _)⟩

/-- A denied request finds the limit's number of requests in a window that is still open. -/
theorem Counted.of_denies {clock : ℤ} {past : List Arrival} {storage : Storage}
    {arrival : Arrival} (h : Counted key windowSeconds clock past storage)
    (huniform : Uniform key limit windowSeconds [arrival]) (hasks : AsksFor key arrival)
    (hdenies : (RateLimiter.fetch storage arrival.now arrival.body).1.denies = true) :
    limit ≤ past.countP (ShortlyBefore key windowSeconds arrival.now ·) := by
  obtain ⟨request, hrequest, hkey⟩ := hasks
  obtain ⟨hlimit, hwindow⟩ := huniform arrival (List.mem_singleton_self _) request hrequest hkey
  rw [fetch_of_valid hrequest, hkey, hlimit, hwindow] at hdenies
  have hover := denies_decisionReply hdenies
  rcases countRequest_cases (storage (storageKey key)) windowSeconds arrival.now with
    ⟨window, hstored, hopen, heq⟩ | ⟨-, heq⟩
  · rw [heq] at hover
    refine (Nat.lt_succ_iff.mp hover).trans ((h window hstored).2.trans ?_)
    refine List.countP_mono_left fun earlier _ hcounted => ?_
    obtain ⟨hearlier, hsince⟩ := of_decide_eq_true hcounted
    exact decide_eq_true ⟨hearlier, by omega⟩
  · rw [heq] at hover
    have hzero : limit = 0 := Nat.lt_one_iff.mp hover
    exact absurd (hlimit.trans hzero) (limit_ne_zero hrequest)

theorem limit_le_of_denies {arrivals past : List Arrival} {storage : Storage} {clock : ℤ}
    (h : Counted key windowSeconds clock past storage) (horder : InOrder arrivals)
    (hclock : ∀ arrival ∈ arrivals, clock ≤ arrival.now)
    (huniform : Uniform key limit windowSeconds arrivals) (place : ℕ) {arrival : Arrival}
    {reply : Reply} (hplace : (handled storage arrivals)[place]? = some (arrival, reply))
    (hasks : AsksFor key arrival) (hdenies : reply.denies = true) :
    limit ≤ (past ++ arrivals.take place).countP
      (ShortlyBefore key windowSeconds arrival.now ·) := by
  induction arrivals generalizing past storage clock place with
  | nil => cases hplace
  | cons first rest ih =>
    cases place with
    | zero =>
      cases hplace
      rw [List.take_zero, List.append_nil]
      exact h.of_denies huniform.head hasks hdenies
    | succ place =>
      obtain ⟨hahead, horder⟩ := List.pairwise_cons.mp horder
      have hnext := h.fetch (hclock first (List.mem_cons_self ..)) huniform.head
      rw [List.take_succ_cons, ← List.singleton_append, ← List.append_assoc]
      exact ih hnext horder hahead huniform.tail place hplace

end Fairness

/-! ## Soundness -/

section Soundness

variable {key : String} {limit : ℕ} {windowSeconds first last : ℤ} {storage : Storage}
  {arrival : Arrival} {arrivals rest : List Arrival}

theorem mem_of_mem_handled {entry : Arrival × Reply} (h : entry ∈ handled storage arrivals) :
    entry.1 ∈ arrivals := by
  induction arrivals generalizing storage with
  | nil => cases h
  | cons arrival rest ih =>
    rcases List.mem_cons.mp h with rfl | hrest
    · exact List.mem_cons_self ..
    · exact List.mem_cons_of_mem _ (ih hrest)

theorem countP_handled_cons :
    (handled storage (arrival :: rest)).countP (AllowedWithin key first last ·) =
      [(arrival, (fetch storage arrival.now arrival.body).1)].countP
          (AllowedWithin key first last ·) +
        (handled (fetch storage arrival.now arrival.body).2 rest).countP
          (AllowedWithin key first last ·) := by
  change List.countP _ ([(arrival, (fetch storage arrival.now arrival.body).1)] ++
    handled (fetch storage arrival.now arrival.body).2 rest) = _
  rw [List.countP_append]

theorem countP_handled_of_late (h : ∀ arrival ∈ arrivals, last < arrival.now) :
    (handled storage arrivals).countP (AllowedWithin key first last ·) = 0 := by
  refine List.countP_eq_zero.mpr fun entry hentry hallowed => ?_
  exact absurd (of_decide_eq_true hallowed).2.2.2 (not_le.mpr (h _ (mem_of_mem_handled hentry)))

theorem late_of_head (horder : InOrder (arrival :: rest)) (h : last < arrival.now) :
    ∀ other ∈ arrival :: rest, last < other.now := by
  intro other hother
  rcases List.mem_cons.mp hother with rfl | hrest
  · exact h
  · exact h.trans_le ((List.pairwise_cons.mp horder).1 other hrest)

/-- A request that is not among those counted leaves the bound to the rest. -/
theorem countP_handled_le_of_not {bound : ℕ}
    (hnot : ¬AllowedWithin key first last
      (arrival, (fetch storage arrival.now arrival.body).1))
    (hrest : (handled (fetch storage arrival.now arrival.body).2 rest).countP
      (AllowedWithin key first last ·) ≤ bound) :
    (handled storage (arrival :: rest)).countP (AllowedWithin key first last ·) ≤ bound := by
  rw [countP_handled_cons, List.countP_singleton, if_neg, Nat.zero_add]
  · exact hrest
  · exact fun h => hnot (of_decide_eq_true h)

/-- A request with the key uses up one of the requests that its window still allows. -/
theorem countP_handled_le_of_asks (bound : ℕ) {bucket : Bucket}
    (huniform : Uniform key limit windowSeconds [arrival]) (hasks : AsksFor key arrival)
    (hbucket : countRequest (storage (storageKey key)) windowSeconds arrival.now = bucket)
    (hone : 1 ≤ bucket.count)
    (hrest : (fetch storage arrival.now arrival.body).2 (storageKey key) = some bucket →
      (handled (fetch storage arrival.now arrival.body).2 rest).countP
        (AllowedWithin key first last ·) ≤ limit - bucket.count + bound) :
    (handled storage (arrival :: rest)).countP (AllowedWithin key first last ·) ≤
      limit - (bucket.count - 1) + bound := by
  obtain ⟨request, hrequest, rfl⟩ := hasks
  obtain ⟨hlimit, hwindow⟩ := huniform arrival (List.mem_singleton_self _) request hrequest rfl
  have hrest := hrest (by rw [stored_of_valid hrequest, hwindow, hbucket])
  rw [countP_handled_cons, List.countP_singleton]
  split_ifs with hallowed
  · have hallows := (of_decide_eq_true hallowed).2.1
    rw [fetch_of_valid hrequest, hwindow, hbucket, hlimit] at hallows
    have hwithin : bucket.count ≤ limit := allows_decisionReply hallows
    omega
  · omega

theorem not_allowedWithin_of_not_asks {reply : Reply} (h : ¬AsksFor key arrival) :
    ¬AllowedWithin key first last (arrival, reply) := fun hallowed => h hallowed.1

theorem stored_of_not_asksFor (h : ¬AsksFor key arrival) :
    (fetch storage arrival.now arrival.body).2 (storageKey key) = storage (storageKey key) :=
  stored_of_not_asks fun request hrequest hkey => h ⟨request, hrequest, hkey⟩

/-- Up to the end of a window, what its bucket leaves. -/
theorem allowed_le_of_open {bucket : Bucket} (hstored : storage (storageKey key) = some bucket)
    (hopen : last < bucket.resetAt) (horder : InOrder arrivals)
    (huniform : Uniform key limit windowSeconds arrivals) :
    (handled storage arrivals).countP (AllowedWithin key first last ·) ≤
      limit - bucket.count := by
  induction arrivals generalizing storage bucket with
  | nil => exact Nat.zero_le _
  | cons arrival rest ih =>
    rcases lt_or_ge last arrival.now with hlate | hnow
    · exact (countP_handled_of_late (late_of_head horder hlate)).trans_le (Nat.zero_le _)
    have hrest := (List.pairwise_cons.mp horder).2
    by_cases hasks : AsksFor key arrival
    · have hcounted : countRequest (storage (storageKey key)) windowSeconds arrival.now =
          { count := bucket.count + 1, resetAt := bucket.resetAt } := by
        rcases countRequest_cases (storage (storageKey key)) windowSeconds arrival.now with
          ⟨window, hwindow, -, heq⟩ | ⟨hover, -⟩
        · rw [heq, Option.some.inj (hwindow.symm.trans hstored)]
        · exact absurd (hover bucket hstored) (not_le.mpr (hnow.trans_lt hopen))
      exact countP_handled_le_of_asks 0 huniform.head hasks hcounted
        (Nat.le_add_left 1 _) fun hnext => ih hnext hopen hrest huniform.tail
    · exact countP_handled_le_of_not (not_allowedWithin_of_not_asks hasks)
        (ih ((stored_of_not_asksFor hasks).trans hstored) hopen hrest huniform.tail)

/-- Up to the end of the window after a window, what its bucket leaves and once the limit. -/
theorem allowed_le_of_next {bucket : Bucket} (hstored : storage (storageKey key) = some bucket)
    (hnext : last < bucket.resetAt + windowSeconds * 1000) (horder : InOrder arrivals)
    (huniform : Uniform key limit windowSeconds arrivals) :
    (handled storage arrivals).countP (AllowedWithin key first last ·) ≤
      limit - bucket.count + limit := by
  induction arrivals generalizing storage bucket with
  | nil => exact Nat.zero_le _
  | cons arrival rest ih =>
    have hrest := (List.pairwise_cons.mp horder).2
    by_cases hasks : AsksFor key arrival
    · rcases countRequest_cases (storage (storageKey key)) windowSeconds arrival.now with
        ⟨window, hwindow, -, heq⟩ | ⟨hover, heq⟩
      · obtain rfl := Option.some.inj (hwindow.symm.trans hstored)
        exact countP_handled_le_of_asks limit huniform.head hasks heq (Nat.le_add_left 1 _)
          fun hstored' => ih hstored' hnext hrest huniform.tail
      · have hopen : last < arrival.now + windowSeconds * 1000 :=
          hnext.trans_le (Int.add_le_add_right (hover bucket hstored) _)
        refine (countP_handled_le_of_asks 0 huniform.head hasks heq (le_refl 1) fun hstored' =>
          allowed_le_of_open hstored' hopen hrest huniform.tail).trans ?_
        exact Nat.le_add_left _ _
    · exact countP_handled_le_of_not (not_allowedWithin_of_not_asks hasks)
        (ih ((stored_of_not_asksFor hasks).trans hstored) hnext hrest huniform.tail)

theorem allowed_le (hshort : last - first < windowSeconds * 1000) (horder : InOrder arrivals)
    (huniform : Uniform key limit windowSeconds arrivals) :
    (handled storage arrivals).countP (AllowedWithin key first last ·) ≤ 2 * limit := by
  induction arrivals generalizing storage with
  | nil => exact Nat.zero_le _
  | cons arrival rest ih =>
    have hrest := (List.pairwise_cons.mp horder).2
    by_cases hcounts : AsksFor key arrival ∧ first ≤ arrival.now ∧ arrival.now ≤ last
    · obtain ⟨hasks, hfirst, hlast⟩ := hcounts
      -- The window that counts the first request of the stretch ends after its start.
      rcases countRequest_cases (storage (storageKey key)) windowSeconds arrival.now with
        ⟨window, -, hopen, heq⟩ | ⟨-, heq⟩
      · have hnext : last < window.resetAt + windowSeconds * 1000 := by omega
        refine (countP_handled_le_of_asks limit huniform.head hasks heq (Nat.le_add_left 1 _)
          fun hstored => allowed_le_of_next hstored hnext hrest huniform.tail).trans ?_
        dsimp only
        omega
      · have hnext : last < arrival.now + windowSeconds * 1000 + windowSeconds * 1000 := by omega
        refine (countP_handled_le_of_asks limit huniform.head hasks heq (le_refl 1)
          fun hstored => allowed_le_of_next hstored hnext hrest huniform.tail).trans ?_
        dsimp only
        omega
    · exact countP_handled_le_of_not (fun hallowed => hcounts ⟨hallowed.1, hallowed.2.2⟩)
        (ih hrest huniform.tail)

end Soundness

/-! ## Both bounds -/

section Bounds

variable {key : String} {limit : ℕ} {windowSeconds : ℤ} {arrivals : List Arrival}

/-- Of requests handled in the order of their times, at most twice the limit are allowed in
less than a window, and the limit's number of requests came less than a window before every
denied one. -/
theorem limiter_bounds (horder : InOrder arrivals)
    (huniform : Uniform key limit windowSeconds arrivals) :
    (∀ first last, last - first < windowSeconds * 1000 →
      (handled (fun _ => none) arrivals).countP (AllowedWithin key first last ·) ≤ 2 * limit) ∧
    ∀ place arrival reply, (handled (fun _ => none) arrivals)[place]? = some (arrival, reply) →
      AsksFor key arrival → reply.denies = true →
      limit ≤ (arrivals.take place).countP (ShortlyBefore key windowSeconds arrival.now ·) := by
  refine ⟨fun first last hshort => allowed_le hshort horder huniform, ?_⟩
  intro place arrival reply hplace hasks hdenies
  cases arrivals with
  | nil => cases hplace
  | cons opening rest =>
    have hclock : ∀ other ∈ opening :: rest, opening.now ≤ other.now :=
      List.forall_mem_cons.mpr ⟨le_refl _, (List.pairwise_cons.mp horder).1⟩
    exact limit_le_of_denies (counted_fresh opening.now) horder hclock huniform place hplace hasks
      hdenies

def ipRequest (now : ℤ) : Arrival where
  now := now
  body := some { key := some "ip:1", limit := some 1, windowSeconds := some 60 }

/-- Four requests about the end of a minute, two of them allowed. -/
def ipRequests : List Arrival := [0, 59999, 60000, 60001].map ipRequest

theorem ipRequests_bounds :
    (handled (fun _ => none) ipRequests).countP (AllowedWithin "ip:1" 0 59999 ·) ≤ 2 * 1 ∧
    1 ≤ (ipRequests.take 1).countP (ShortlyBefore "ip:1" 60 59999 ·) := by
  have horder : InOrder ipRequests := by decide
  have huniform : Uniform "ip:1" 1 60 ipRequests := by
    intro arrival harrival request hrequest _
    obtain ⟨now, -, rfl⟩ := List.mem_map.mp harrival
    obtain rfl := Option.some.inj hrequest
    exact ⟨rfl, rfl⟩
  have hbounds := limiter_bounds horder huniform
  exact ⟨hbounds.1 0 59999 (by decide), hbounds.2 1 (ipRequest 59999) _ rfl
    ⟨_, rfl, rfl⟩ (by decide)⟩

end Bounds

end Gittensory.RateLimiter
