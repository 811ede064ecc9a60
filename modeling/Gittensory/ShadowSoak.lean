import Gittensory.AutoApply

/-!
Whole runs of the self-tuning loop (`review/auto-apply.ts`). The ticks are numbered, and
beside the store the run keeps which tick set the deadline of the shadow row and which
wrote its fields. The invariant says that the stored deadline is the text of that tick's
time plus the soak. A deadline in a year of five digits sorts before the present, so such
a row is ripe in the tick that queues it.
-/
namespace Gittensory.ShadowSoak

open GuardedRun IsoTimestamp JsValue AutoApply

/-- A tick of the project, with the configuration it runs under. -/
structure ProjectTick where
  base : BaseConfig
  tick : Tick
  deriving DecidableEq, Repr

/-- The store after the ticks that ran at `times`, and the numbers of the ticks that set
the deadline of the shadow row, its floor and its cap. -/
structure Trace where
  store : Store
  times : List ℤ
  deadlineBy : ℕ
  floorBy : ℕ
  capBy : ℕ
  deriving DecidableEq, Repr

def emptyTrace (live : Option OverrideRow) : Trace := ⟨⟨live, none⟩, [], 0, 0, 0⟩

/-- The tick in progress has the number of the ticks before it. -/
def writtenBy (wrote : Bool) (trace : Trace) (before : ℕ) : ℕ :=
  if wrote then trace.times.length else before

def tickResult (trace : Trace) (event : ProjectTick) : TickResult :=
  runAutoApplyRecommendations event.base trace.store event.tick

def traceStep (trace : Trace) (event : ProjectTick) : Trace :=
  let result := tickResult trace event
  { store := result.store
    times := trace.times ++ [event.tick.nowMs]
    deadlineBy := writtenBy result.queued.isSome trace trace.deadlineBy
    floorBy := writtenBy (result.queued.bind TunableOverride.confidenceFloor).isSome trace
      trace.floorBy
    capBy := writtenBy (result.queued.bind TunableOverride.scopeCap).isSome trace trace.capBy }

/-- What a promotion must have behind it: evidence, a deadline set by an earlier tick at
least a soak ago, and fields no later than the deadline. -/
structure HasSoaked (trace : Trace) (event : ProjectTick) (override : TunableOverride) : Prop where
  evidence : SHADOW_PROMOTION_MIN_DECIDED ≤ event.tick.decided
  soaked : ∃ setAt, trace.times[(traceStep trace event).deadlineBy]? = some setAt ∧
    setAt + SHADOW_SOAK_MS ≤ event.tick.nowMs
  floor : override.confidenceFloor.isSome →
    (traceStep trace event).floorBy ≤ (traceStep trace event).deadlineBy
  cap : override.scopeCap.isSome →
    (traceStep trace event).capBy ≤ (traceStep trace event).deadlineBy

def PromotesSoaked (trace : Trace) (event : ProjectTick) : Prop :=
  ∀ override, (tickResult trace event).promoted = some override → HasSoaked trace event override

/-- The project opted in, and the tick finds nothing soaking and a recommendation to
queue. -/
def queuesAt (store : Store) (event : ProjectTick) (nowIso : String) : Bool :=
  let seen := seenTunables event.base store event.tick nowIso
  event.base.autoTune &&
    (queueRecommendation store event.tick seen).any fun pending => pending.queued.isSome

/-- The time of a tick has a year of four digits, and so has a deadline it sets. -/
def DeadlineInRange (trace : Trace) (event : ProjectTick) : Prop :=
  FourDigitYear event.tick.nowMs ∧
    ∀ nowIso ∈ toISOString event.tick.nowMs, queuesAt trace.store event nowIso = true →
      FourDigitYear (event.tick.nowMs + SHADOW_SOAK_MS)

section Invariant

/-- The deadline of the shadow row is the soak after the time of the tick that set it. -/
def DeadlineOf (shadow : Option ShadowRow) (times : List ℤ) (deadlineBy : ℕ) : Prop :=
  ∀ row, shadow = some row → ∃ setAt, times[deadlineBy]? = some setAt ∧
    FourDigitYear (setAt + SHADOW_SOAK_MS) ∧
    row.validatedUntil = toISOString (setAt + SHADOW_SOAK_MS)

structure Soaking (trace : Trace) : Prop where
  deadline : DeadlineOf trace.store.shadow trace.times trace.deadlineBy
  started : trace.deadlineBy ≤ trace.times.length
  floor : trace.floorBy ≤ trace.deadlineBy
  cap : trace.capBy ≤ trace.deadlineBy

theorem soaking_empty (live : Option OverrideRow) : Soaking (emptyTrace live) where
  deadline := by
    intro row hrow
    cases hrow
  started := le_rfl
  floor := le_rfl
  cap := le_rfl

theorem promoteShadow_queued (tick : Tick) (seen : Tunables) (nowIso : String) (pending : Queued) :
    (promoteShadow tick seen nowIso pending).queued = pending.queued := by
  unfold promoteShadow
  cases pending.shadow with
  | none => rfl
  | some shadow =>
    dsimp only
    split_ifs
    · rfl
    · rfl

theorem writtenBy_le {wrote wrote' : Bool} {trace : Trace} {before before' : ℕ}
    (himp : wrote = true → wrote' = true) (hle : before ≤ before')
    (hstarted : before ≤ trace.times.length) :
    writtenBy wrote trace before ≤ writtenBy wrote' trace before' := by
  cases wrote with
  | true =>
    rw [himp rfl]
    exact le_rfl
  | false =>
    cases wrote' with
    | true => exact hstarted
    | false => exact hle

theorem isSome_of_bind_isSome {α β : Type} {value : Option α} {field : α → Option β}
    (h : (value.bind field).isSome = true) : value.isSome = true := by
  cases value with
  | none => cases h
  | some value => rfl

theorem getElem?_append_time {times : List ℤ} {index : ℕ} {setAt : ℤ}
    (h : times[index]? = some setAt) (nowMs : ℤ) : (times ++ [nowMs])[index]? = some setAt := by
  obtain ⟨hlt, -⟩ := List.getElem?_eq_some_iff.mp h
  rw [List.getElem?_append_left hlt, h]

/-- The invariant in the middle of a tick, after queueing. -/
theorem deadlineOf_queued {trace : Trace} {event : ProjectTick} {nowIso : String}
    {pending : Queued} (hinv : Soaking trace) (hrange : DeadlineInRange trace event)
    (hauto : event.base.autoTune = true) (hnow : toISOString event.tick.nowMs = some nowIso)
    (hqueue : queueRecommendation trace.store event.tick
      (seenTunables event.base trace.store event.tick nowIso) = some pending) :
    DeadlineOf pending.store.shadow (trace.times ++ [event.tick.nowMs])
      (writtenBy pending.queued.isSome trace trace.deadlineBy) := by
  have hkept : DeadlineOf trace.store.shadow (trace.times ++ [event.tick.nowMs])
      trace.deadlineBy := by
    intro row hrow
    obtain ⟨setAt, hindex, hyear, hdeadline⟩ := hinv.deadline row hrow
    exact ⟨setAt, getElem?_append_time hindex _, hyear, hdeadline⟩
  rcases queueRecommendation_cases hqueue with
    ⟨found, -, rfl⟩ | rfl | ⟨payload, validatedUntil, htext, rfl⟩
  · exact hkept
  · exact hkept
  · intro row hrow
    have hqueues : queuesAt trace.store event nowIso = true := by
      rw [queuesAt, hauto, hqueue]
      rfl
    refine ⟨event.tick.nowMs, ?_, hrange.2 nowIso hnow hqueues, ?_⟩
    · exact List.getElem?_concat_length
    · rw [htext]
      cases hrow
      rfl

/-- What `loadShadowOverride` returns carries the deadline of the row. -/
theorem loadShadowOverride_row {fails : Bool} {store : Store} {shadow : ShadowOverride}
    (h : loadShadowOverride fails store = some shadow) :
    ∃ row, store.shadow = some row ∧ shadow.validatedUntil = row.validatedUntil := by
  unfold loadShadowOverride at h
  cases fails with
  | true => cases h
  | false =>
    cases hrow : store.shadow with
    | none => rw [hrow] at h; cases h
    | some row =>
      rw [hrow] at h
      obtain ⟨override, -, rfl⟩ := Option.map_eq_some_iff.mp h
      exact ⟨row, rfl, rfl⟩

theorem evaluateShadowPromotion_evidence {override : TunableOverride}
    {liveFloor : Option JsNumber} {liveScopeCap : Option ScopeCap} {decided : ℤ}
    {validatedUntilIso : Option String} {nowIso : String}
    (h : evaluateShadowPromotion override liveFloor liveScopeCap decided validatedUntilIso
      nowIso = true) :
    SHADOW_PROMOTION_MIN_DECIDED ≤ decided ∧
      ∃ validatedUntil, validatedUntilIso = some validatedUntil ∧
        textLt nowIso validatedUntil = false := by
  have htight := evaluateShadowPromotion_tightening h
  unfold evaluateShadowPromotion at h
  rw [htight, if_neg (by decide)] at h
  by_cases hdecided : decided < SHADOW_PROMOTION_MIN_DECIDED
  · rw [if_pos hdecided] at h
    cases h
  · rw [if_neg hdecided] at h
    refine ⟨by omega, ?_⟩
    cases hpresent : present validatedUntilIso with
    | none => rw [hpresent] at h; cases h
    | some validatedUntil =>
      rw [hpresent] at h
      have hmem := (mem_present_iff validatedUntilIso validatedUntil).mp (by rw [hpresent]; simp)
      exact ⟨validatedUntil, hmem.1, by simpa using h⟩

/-- A ripe shadow whose deadline the run knows was queued by an earlier tick. -/
theorem soaked_of_ripe {trace : Trace} {nowMs : ℤ} {nowIso : String} {deadlineBy : ℕ}
    {shadow : Option ShadowRow} {row : ShadowRow} {validatedUntil : String}
    (hdeadline : DeadlineOf shadow (trace.times ++ [nowMs]) deadlineBy)
    (hyear : FourDigitYear nowMs) (hnow : toISOString nowMs = some nowIso)
    (hrow : shadow = some row) (huntil : row.validatedUntil = some validatedUntil)
    (hripe : textLt nowIso validatedUntil = false) :
    ∃ setAt, trace.times[deadlineBy]? = some setAt ∧ setAt + SHADOW_SOAK_MS ≤ nowMs := by
  obtain ⟨setAt, hindex, hsetYear, htext⟩ := hdeadline row hrow
  rw [huntil] at htext
  have hsoaked : setAt + SHADOW_SOAK_MS ≤ nowMs :=
    deadline_reached hnow htext.symm hyear hsetYear hripe
  -- the tick itself is too recent to have set this deadline
  have hearlier : deadlineBy ≠ trace.times.length := by
    intro heq
    rw [heq, List.getElem?_concat_length, Option.some.injEq] at hindex
    unfold SHADOW_SOAK_MS at hsoaked
    omega
  obtain ⟨hlt, -⟩ := List.getElem?_eq_some_iff.mp hindex
  rw [List.length_append, List.length_singleton] at hlt
  rw [List.getElem?_append_left (by omega)] at hindex
  exact ⟨setAt, hindex, hsoaked⟩

theorem traceStep_fields {trace : Trace} (hinv : Soaking trace) (event : ProjectTick) :
    (traceStep trace event).deadlineBy ≤ (traceStep trace event).times.length ∧
    (traceStep trace event).floorBy ≤ (traceStep trace event).deadlineBy ∧
    (traceStep trace event).capBy ≤ (traceStep trace event).deadlineBy := by
  have hstarted := hinv.started
  have hfloor := hinv.floor
  have hcap := hinv.cap
  refine ⟨?_, writtenBy_le isSome_of_bind_isSome hfloor (by omega),
    writtenBy_le isSome_of_bind_isSome hcap (by omega)⟩
  simp only [traceStep, writtenBy, List.length_append, List.length_singleton]
  split_ifs
  · omega
  · omega

theorem deadlineOf_traceStep {trace : Trace} {event : ProjectTick} (hinv : Soaking trace)
    (hrange : DeadlineInRange trace event) :
    DeadlineOf (traceStep trace event).store.shadow (traceStep trace event).times
      (traceStep trace event).deadlineBy := by
  simp only [traceStep, tickResult]
  rcases runAutoApply_cases event.base trace.store event.tick with
    hsame | ⟨nowIso, pending, hauto, hnow, hqueue, hrun⟩
  · rw [hsame]
    intro row hrow
    obtain ⟨setAt, hindex, hyear, hdeadline⟩ := hinv.deadline row hrow
    exact ⟨setAt, getElem?_append_time hindex _, hyear, hdeadline⟩
  · rw [hrun, promoteShadow_queued]
    have hqueued := deadlineOf_queued hinv hrange hauto hnow hqueue
    rcases promoteShadow_cases event.tick (seenTunables event.base trace.store event.tick nowIso)
      nowIso pending with ⟨-, hstore⟩ | ⟨shadow, -, -, hpromote⟩
    · rw [hstore]
      exact hqueued
    · rw [hpromote]
      intro row hrow
      cases hrow

/-- The step lemma: a tick whose deadline is in range keeps the invariant. -/
theorem soaking_step {trace : Trace} {event : ProjectTick} (hinv : Soaking trace)
    (hrange : DeadlineInRange trace event) : Soaking (traceStep trace event) := by
  obtain ⟨hstarted, hfloor, hcap⟩ := traceStep_fields hinv event
  exact ⟨deadlineOf_traceStep hinv hrange, hstarted, hfloor, hcap⟩

theorem promotesSoaked_of_soaking {trace : Trace} {event : ProjectTick} (hinv : Soaking trace)
    (hrange : DeadlineInRange trace event) : PromotesSoaked trace event := by
  intro override hpromoted
  obtain ⟨-, hfloor, hcap⟩ := traceStep_fields hinv event
  rcases runAutoApply_cases event.base trace.store event.tick with
    hsame | ⟨nowIso, pending, hauto, hnow, hqueue, hrun⟩
  · rw [tickResult, hsame] at hpromoted
    cases hpromoted
  · rcases promoteShadow_cases event.tick (seenTunables event.base trace.store event.tick nowIso)
      nowIso pending with ⟨hnone, -⟩ | ⟨shadow, hshadow, hgate, -⟩
    · rw [tickResult, hrun, hnone] at hpromoted
      cases hpromoted
    · obtain ⟨hevidence, validatedUntil, huntil, hripe⟩ := evaluateShadowPromotion_evidence hgate
      obtain ⟨fails, hloaded⟩ := queueRecommendation_pending hqueue hshadow
      obtain ⟨row, hrow, hsameDeadline⟩ := loadShadowOverride_row hloaded
      have hdeadlineBy : (traceStep trace event).deadlineBy =
          writtenBy pending.queued.isSome trace trace.deadlineBy := by
        simp only [traceStep, tickResult, hrun, promoteShadow_queued]
      have hsoaked := soaked_of_ripe (deadlineOf_queued hinv hrange hauto hnow hqueue) hrange.1 hnow
        hrow (hsameDeadline ▸ huntil) hripe
      exact ⟨hevidence, hdeadlineBy ▸ hsoaked, fun _ => hfloor, fun _ => hcap⟩

end Invariant

/-- In a run from an empty shadow row whose deadlines stay in range every promotion has
soaked and has evidence. -/
theorem promotions_have_soaked (live : Option OverrideRow) (events : List ProjectTick)
    (hrange : Guarded traceStep DeadlineInRange (emptyTrace live) events) :
    Guarded traceStep PromotesSoaked (emptyTrace live) events :=
  guarded_of_invariant traceStep DeadlineInRange (fun _ _ => soaking_step)
    (fun _ _ => promotesSoaked_of_soaking) (emptyTrace live) events (soaking_empty live) hrange

/-- A tick at `nowMs` with evidence and one recommendation to raise the floor. -/
def raiseAt (nowMs : ℤ) : ProjectTick where
  base := zeroFloor
  tick := ⟨nowMs, 10, [⟨some { confidenceFloor := some (.finite (19 / 20)) }⟩], {}⟩

theorem promotions_have_soaked_next_day :
    Guarded traceStep PromotesSoaked (emptyTrace none)
      [raiseAt 1800000000000, raiseAt 1800086400000] :=
  promotions_have_soaked none [raiseAt 1800000000000, raiseAt 1800086400000]
    ⟨by unfold DeadlineInRange; decide +kernel, by unfold DeadlineInRange; decide +kernel, trivial⟩

/-- In the last millisecond of the year 9999 the deadline starts with a sign, and the tick
promotes what it has just queued. -/
theorem promotion_without_soak :
    ¬ ∀ (live : Option OverrideRow) (events : List ProjectTick),
      (∀ event ∈ events, FourDigitYear event.tick.nowMs) →
      Guarded traceStep PromotesSoaked (emptyTrace live) events := by
  intro h
  have hpromotes := (h none [raiseAt 253402300799999] (by decide +kernel)).1
    { confidenceFloor := some (.finite (19 / 20)) } (by decide +kernel)
  obtain ⟨setAt, hindex, -⟩ := hpromotes.soaked
  cases hindex

end Gittensory.ShadowSoak
