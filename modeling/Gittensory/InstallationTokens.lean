import Gittensory.GuardedRun
import Gittensory.KeyedTable
import Mathlib.Data.Int.Notation
import Mathlib.Data.List.Induction

/-!
Installation tokens are kept in the memory of a worker (`github/app.ts`). A call without a kept
token that lasts two more minutes asks GitHub for one; while it waits other calls come in, for
the same installation or another, and ask as well. Whatever answers first or last is kept.
-/
namespace Gittensory.InstallationTokens

open GuardedRun

def TOKEN_SAFETY_MARGIN_MS : ℤ := 120000

/-- `expiresAtMs` is none where `Date.parse` gave `NaN`. -/
structure CachedToken where
  token : String
  expiresAtMs : Option ℤ
  deriving DecidableEq

/-- What GitHub answers with: a body, or anything else. -/
inductive Answer where
  | failed
  | payload (token expires_at : Option String)

structure State where
  installationTokenCache : List (ℕ × CachedToken)
  waiting : List ℕ

def start : State := ⟨[], []⟩

inductive Event where
  | call (installationId : ℕ) (now : ℤ)
  | answer (installationId : ℕ) (answer : Answer) (now : ℤ)

def Event.now : Event → ℤ
  | .call _ now => now
  | .answer _ _ now => now

/-- `text` where it is there and not empty. -/
def truthy (text : Option String) : Option String := text.filter fun text => text ≠ ""

/-- The token that a call returns at once. -/
def cachedToken (state : State) (installationId : ℕ) (now : ℤ) : Option String :=
  match KeyedTable.lookup Prod.fst state.installationTokenCache installationId with
  | some (_, cached) =>
      if cached.expiresAtMs.any fun expiresAtMs => now < expiresAtMs - TOKEN_SAFETY_MARGIN_MS then
        some cached.token
      else none
  | none => none

section Steps

-- `Date.parse` of the engine
variable (parse : String → Option ℤ)

/-- The entry that an answer is kept as; without a token the call throws. -/
def entryOf (answer : Answer) (now : ℤ) : Option CachedToken :=
  match answer with
  | .failed => none
  | .payload token expires_at =>
      (truthy token).map fun token =>
        { token := token
          expiresAtMs :=
            match truthy expires_at with
            | some expires_at => parse expires_at
            | none => some (now + 50 * 60000) }

def step (state : State) : Event → State
  | .call installationId now =>
      match cachedToken state installationId now with
      | some _ => state
      | none => { state with waiting := installationId :: state.waiting }
  | .answer installationId answer now =>
      if installationId ∈ state.waiting then
        { waiting := state.waiting.erase installationId
          installationTokenCache :=
            match entryOf parse answer now with
            | some entry =>
                KeyedTable.upsert Prod.fst state.installationTokenCache (installationId, entry)
            | none => state.installationTokenCache }
      else state

/-- An answer at `now` that a waiting call of the installation took, and what was kept of it. -/
def Took (events : List Event) (installationId : ℕ) (entry : CachedToken) (now : ℤ) : Prop :=
  ∃ before answer after, events = before ++ .answer installationId answer now :: after ∧
    installationId ∈ (run (step parse) start before).waiting ∧
    entryOf parse answer now = some entry

variable {parse}

theorem Took.append {events : List Event} {installationId : ℕ} {entry : CachedToken} {now : ℤ}
    (h : Took parse events installationId entry now) (event : Event) :
    Took parse (events ++ [event]) installationId entry now := by
  obtain ⟨before, answer, after, rfl, hwaiting, hentry⟩ := h
  exact ⟨before, answer, after ++ [event], by simp, hwaiting, hentry⟩

theorem lookup_step {state : State} {event : Event} {installationId : ℕ} {entry : CachedToken}
    (h : KeyedTable.lookup Prod.fst (step parse state event).installationTokenCache
      installationId = some (installationId, entry)) :
    KeyedTable.lookup Prod.fst state.installationTokenCache installationId =
        some (installationId, entry) ∨
      ∃ answer now, event = .answer installationId answer now ∧
        installationId ∈ state.waiting ∧ entryOf parse answer now = some entry := by
  cases event with
  | call other now =>
    rw [step] at h
    split at h <;> exact Or.inl h
  | answer other answer now =>
    rw [step] at h
    split_ifs at h with hwaiting
    · rcases hentry : entryOf parse answer now with _ | taken
      · rw [hentry] at h
        exact Or.inl h
      · simp only [hentry, KeyedTable.lookup_upsert] at h
        split_ifs at h with hother
        · subst hother
          obtain ⟨-, rfl⟩ := Prod.mk.inj (Option.some.inj h)
          exact Or.inr ⟨answer, now, rfl, hwaiting, hentry⟩
        · exact Or.inl h
    · exact Or.inl h

/-! ## Where kept tokens come from -/

theorem lookup_took {events : List Event} {installationId : ℕ} {entry : CachedToken}
    (h : KeyedTable.lookup Prod.fst (run (step parse) start events).installationTokenCache
      installationId = some (installationId, entry)) :
    ∃ now, Took parse events installationId entry now := by
  induction events using List.reverseRecOn with
  | nil => cases h
  | append_singleton events event ih =>
    rw [run_append] at h
    rcases lookup_step h with hbefore | ⟨answer, now, rfl, hwaiting, hentry⟩
    · obtain ⟨now, htook⟩ := ih hbefore
      exact ⟨now, htook.append event⟩
    · exact ⟨now, events, answer, [], rfl, hwaiting, hentry⟩

theorem cachedToken_eq_some {state : State} {installationId : ℕ} {now : ℤ} {token : String}
    (h : cachedToken state installationId now = some token) :
    ∃ entry expiresAtMs, KeyedTable.lookup Prod.fst state.installationTokenCache installationId =
        some (installationId, entry) ∧ entry.token = token ∧
      entry.expiresAtMs = some expiresAtMs ∧ now < expiresAtMs - TOKEN_SAFETY_MARGIN_MS := by
  unfold cachedToken at h
  split at h
  · next other entry hlookup =>
    split_ifs at h with hlasts
    obtain ⟨expiresAtMs, hexpires, hlasts⟩ := (Option.any_eq_true ..).mp hlasts
    obtain rfl : other = installationId := (KeyedTable.mem_of_lookup Prod.fst hlookup).2
    exact ⟨entry, expiresAtMs, hlookup, Option.some.inj h, hexpires, of_decide_eq_true hlasts⟩
  · cases h

/-- A token that a call returns without asking came with an earlier answer to a call for the same
installation, whatever the other calls did meanwhile. If the answer gave its time of expiry, more
than two minutes are left to it; if not, the answer is less than 48 minutes old. -/
theorem cachedToken_lasts (parse : String → Option ℤ) {events : List Event} {installationId : ℕ}
    {now : ℤ} {token : String}
    (h : cachedToken (run (step parse) start events) installationId now = some token) :
    ∃ before expires_at answeredAt after,
      events = before ++
        .answer installationId (.payload (some token) expires_at) answeredAt :: after ∧
      installationId ∈ (run (step parse) start before).waiting ∧
      match truthy expires_at with
      | some expires_at => ∃ expiresAtMs, parse expires_at = some expiresAtMs ∧
          now + 120000 < expiresAtMs
      | none => now - answeredAt < 48 * 60000 := by
  obtain ⟨entry, expiresAtMs, hlookup, rfl, hexpires, hlasts⟩ := cachedToken_eq_some h
  obtain ⟨answeredAt, before, answer, after, rfl, hwaiting, hentry⟩ := lookup_took hlookup
  unfold TOKEN_SAFETY_MARGIN_MS at hlasts
  cases answer with
  | failed => cases hentry
  | payload token expires_at =>
    obtain ⟨kept, hkept, rfl⟩ := Option.map_eq_some_iff.mp hentry
    obtain rfl : token = some kept := (Option.filter_eq_some_iff.mp hkept).1
    refine ⟨before, expires_at, answeredAt, after, rfl, hwaiting, ?_⟩
    rcases hexpiry : truthy expires_at with _ | expiry
    · simp only [hexpiry, Option.some.injEq] at hexpires
      change now - answeredAt < 48 * 60000
      omega
    · simp only [hexpiry] at hexpires
      exact ⟨expiresAtMs, hexpires, by omega⟩

/-- `Date.parse` on the one time of the examples. -/
def sampleParse (text : String) : Option ℤ :=
  if text = "2026-07-01T01:00:01Z" then some 1782867601000 else none

def sampleAnswer : Answer := .payload (some "ghs_1") (some "2026-07-01T01:00:01Z")

theorem sample_token_lasts :
    ∃ before expires_at answeredAt after,
      [Event.call 7 1782864000000, .answer 7 sampleAnswer 1782864000300] = before ++
        .answer 7 (.payload (some "ghs_1") expires_at) answeredAt :: after ∧
      7 ∈ (run (step sampleParse) start before).waiting ∧
      match truthy expires_at with
      | some expires_at => ∃ expiresAtMs, sampleParse expires_at = some expiresAtMs ∧
          1782864060000 + 120000 < expiresAtMs
      | none => 1782864060000 - answeredAt < 48 * 60000 :=
  cachedToken_lasts sampleParse (by decide)

/-! ## How often GitHub is asked -/

/-- An answer is of no use, or its token lasts an hour. -/
def Hourly (parse : String → Option ℤ) : Event → Prop
  | .call .. => True
  | .answer _ answer now => ∀ entry, entryOf parse answer now = some entry →
      ∃ expiresAtMs, entry.expiresAtMs = some expiresAtMs ∧ now + 60 * 60000 ≤ expiresAtMs

/-- The kept token of an installation lasts until `deadline` at least. -/
def KeptUntil (installationId : ℕ) (deadline : ℤ) (state : State) : Prop :=
  ∃ entry expiresAtMs, KeyedTable.lookup Prod.fst state.installationTokenCache installationId =
    some (installationId, entry) ∧ entry.expiresAtMs = some expiresAtMs ∧ deadline ≤ expiresAtMs

theorem keptUntil_step {installationId : ℕ} {deadline : ℤ} {state : State} {event : Event}
    (h : KeptUntil installationId deadline state) (hhourly : Hourly parse event)
    (hlater : deadline ≤ event.now + 60 * 60000) :
    KeptUntil installationId deadline (step parse state event) := by
  obtain ⟨entry, expiresAtMs, hlookup, hexpires, hdeadline⟩ := h
  cases event with
  | call other now =>
    rw [step]
    split <;> exact ⟨entry, expiresAtMs, hlookup, hexpires, hdeadline⟩
  | answer other answer now =>
    rw [step]
    split_ifs with hwaiting
    · rcases hentry : entryOf parse answer now with _ | taken
      · exact ⟨entry, expiresAtMs, hlookup, hexpires, hdeadline⟩
      · obtain ⟨expiry, hexpiry, hlasts⟩ := hhourly taken hentry
        by_cases hother : other = installationId
        · refine ⟨taken, expiry, ?_, hexpiry, Int.le_trans hlater hlasts⟩
          simp [KeyedTable.lookup_upsert, hother]
        · refine ⟨entry, expiresAtMs, ?_, hexpires, hdeadline⟩
          simp [KeyedTable.lookup_upsert, hother, hlookup]
    · exact ⟨entry, expiresAtMs, hlookup, hexpires, hdeadline⟩

/-- Where tokens last an hour and time does not go back, a call asks GitHub again only 58 minutes
after an answer for its installation was taken, however many calls came in between and in
whatever order theirs were answered. -/
theorem asked_after (parse : String → Option ℤ) {before middle : List Event} {answer : Answer}
    {installationId : ℕ} {answeredAt now : ℤ} {entry : CachedToken}
    (hhourly : ∀ event ∈ .answer installationId answer answeredAt :: middle, Hourly parse event)
    (htime : ∀ event ∈ middle, answeredAt ≤ event.now)
    (hwaiting : installationId ∈ (run (step parse) start before).waiting)
    (hentry : entryOf parse answer answeredAt = some entry)
    (hasked : cachedToken (run (step parse) start
      (before ++ .answer installationId answer answeredAt :: middle)) installationId now = none) :
    answeredAt + 58 * 60000 ≤ now := by
  have hkept : KeptUntil installationId (answeredAt + 60 * 60000) (step parse
      (run (step parse) start before) (.answer installationId answer answeredAt)) := by
    obtain ⟨expiresAtMs, hexpires, hlasts⟩ := hhourly _ List.mem_cons_self entry hentry
    refine ⟨entry, expiresAtMs, ?_, hexpires, hlasts⟩
    simp [step, hwaiting, hentry, KeyedTable.lookup_upsert]
  have hrun : ∀ {state : State} {events : List Event},
      (∀ event ∈ events, event ∈ middle) →
      KeptUntil installationId (answeredAt + 60 * 60000) state →
      KeptUntil installationId (answeredAt + 60 * 60000) (run (step parse) state events) := by
    intro state events
    induction events generalizing state with
    | nil => exact fun _ h => h
    | cons event events ih =>
      intro hevents h
      have hevent := hevents event List.mem_cons_self
      refine ih (fun later hlater => hevents later (List.mem_cons_of_mem _ hlater)) ?_
      exact keptUntil_step h (hhourly event (List.mem_cons_of_mem _ hevent))
        (Int.add_le_add_right (htime event hevent) _)
  rw [run_append] at hasked
  obtain ⟨kept, expiresAtMs, hlookup, hexpires, hlasts⟩ := hrun (fun _ h => h) hkept
  by_contra hearly
  have hmargin : now < expiresAtMs - TOKEN_SAFETY_MARGIN_MS := by
    unfold TOKEN_SAFETY_MARGIN_MS
    omega
  have hfound : KeyedTable.lookup Prod.fst (run (step parse) (run (step parse) start before)
      (.answer installationId answer answeredAt :: middle)).installationTokenCache installationId =
        some (installationId, kept) := hlookup
  unfold cachedToken at hasked
  simp [hfound, hexpires, hmargin] at hasked

/-- The token of the example is asked for again two minutes before it expires. -/
theorem sample_asked_after : (1782864000300 : ℤ) + 58 * 60000 ≤ 1782867481000 := by
  have hhourly : ∀ event ∈ [Event.answer 7 sampleAnswer 1782864000300],
      Hourly sampleParse event := by
    intro event hevent
    obtain rfl := List.mem_singleton.mp hevent
    intro entry hentry
    have htaken : some entry = some ⟨"ghs_1", some 1782867601000⟩ := hentry.symm.trans (by decide)
    obtain rfl := Option.some.inj htaken
    exact ⟨_, rfl, by decide⟩
  exact @asked_after sampleParse [.call 7 1782864000000] [] _ 7 _ _
    ⟨"ghs_1", some 1782867601000⟩ hhourly nofun (by decide) (by decide) (by decide)

end Steps

end Gittensory.InstallationTokens
