import Gittensory.GuardedRun
import Gittensory.IsoTimestamp

/-!
The self-tuning loop of one project (`review/auto-apply.ts`). A tick queues a tightening
recommendation to the shadow row, with a deadline, and promotes a soaked shadow row to
the live row. The direction is judged against one read of the live row and the promoted
row is merged over another, which does not ask whether the row has expired; a failed read
counts as no override. A tick that sees the active live override in both reads only ever
tightens.
-/
namespace Gittensory.AutoApply

open GuardedRun IsoTimestamp JsValue

structure ScopeCap where
  files : JsNumber
  lines : JsNumber
  deriving DecidableEq, Repr

structure TunableOverride where
  confidenceFloor : Option JsNumber := none
  scopeCap : Option ScopeCap := none
  deriving DecidableEq, Repr

/-- A row of `tunables_overrides`. -/
structure OverrideRow where
  confidenceFloor : Option JsNumber
  scopeCapFiles : Option JsNumber
  scopeCapLines : Option JsNumber
  clearAt : Option String := none
  deriving DecidableEq, Repr

/-- A row of `tunables_overrides_shadow`. -/
structure ShadowRow where
  confidenceFloor : Option JsNumber
  scopeCapFiles : Option JsNumber
  scopeCapLines : Option JsNumber
  validatedUntil : Option String
  deriving DecidableEq, Repr

def validFloor (floor : Option JsNumber) : Option JsNumber :=
  floor.filter fun value => value.ge (.finite 0) && JsNumber.ge (.finite 1) value

def validCap (files lines : Option JsNumber) : Option ScopeCap :=
  match files, lines with
  | some files, some lines =>
      if JsNumber.lt (.finite 0) files ∧ JsNumber.lt (.finite 0) lines then some ⟨files, lines⟩
      else none
  | _, _ => none

/-- The valid fields of a row, or `none` when there are none. -/
def validOverride (floor files lines : Option JsNumber) : Option TunableOverride :=
  let override : TunableOverride :=
    { confidenceFloor := validFloor floor, scopeCap := validCap files lines }
  if override = {} then none else some override

/-- `row.clear_at && nowIso && row.clear_at <= nowIso`. -/
def isCleared (clearAt nowIso : Option String) : Bool :=
  match present clearAt, present nowIso with
  | some clearAt, some nowIso => textLe clearAt nowIso
  | _, _ => false

def rowToOverride (row : Option OverrideRow) (nowIso : Option String) : Option TunableOverride :=
  match row with
  | none => none
  | some row =>
      if isCleared row.clearAt nowIso then none
      else validOverride row.confidenceFloor row.scopeCapFiles row.scopeCapLines

/-- A field of `next` wins; a field it lacks keeps its value. -/
def mergeOverride (base : Option TunableOverride) (next : TunableOverride) : TunableOverride where
  confidenceFloor := next.confidenceFloor.or (base.bind TunableOverride.confidenceFloor)
  scopeCap := next.scopeCap.or (base.bind TunableOverride.scopeCap)

def loosensFloor (override : TunableOverride) (liveFloor : Option JsNumber) : Bool :=
  override.confidenceFloor.any fun floor => liveFloor.any fun live => floor.lt live

def raisesFloor (override : TunableOverride) (liveFloor : Option JsNumber) : Bool :=
  override.confidenceFloor.any fun floor => liveFloor.all fun live => live.lt floor

def loosensCap (override : TunableOverride) (liveScopeCap : Option ScopeCap) : Bool :=
  override.scopeCap.any fun cap => liveScopeCap.any fun live =>
    live.files.lt cap.files || live.lines.lt cap.lines

def shrinksCap (override : TunableOverride) (liveScopeCap : Option ScopeCap) : Bool :=
  override.scopeCap.any fun cap => liveScopeCap.all fun live =>
    cap.files.lt live.files || cap.lines.lt live.lines

def isStrictlyTightening (override : TunableOverride) (liveFloor : Option JsNumber)
    (liveScopeCap : Option ScopeCap) : Bool :=
  if loosensFloor override liveFloor then false
  else if loosensCap override liveScopeCap then false
  else raisesFloor override liveFloor || shrinksCap override liveScopeCap

def SHADOW_PROMOTION_MIN_DECIDED : ℤ := 10

def SHADOW_SOAK_MS : ℤ := 24 * 60 * 60 * 1000

/-- Tightening, evidence and soak, as `promote` of the result. -/
def evaluateShadowPromotion (override : TunableOverride) (liveFloor : Option JsNumber)
    (liveScopeCap : Option ScopeCap) (decided : ℤ) (validatedUntilIso : Option String)
    (nowIso : String) : Bool :=
  if isStrictlyTightening override liveFloor liveScopeCap = false then false
  else if decided < SHADOW_PROMOTION_MIN_DECIDED then false
  else
    match present validatedUntilIso with
    | none => false
    | some validatedUntil => !textLt nowIso validatedUntil

structure Store where
  live : Option OverrideRow
  shadow : Option ShadowRow
  deriving DecidableEq, Repr

structure ShadowOverride where
  override : TunableOverride
  validatedUntil : Option String
  deriving DecidableEq, Repr

/-- A failed read gives no override. -/
def loadOverride (fails : Bool) (store : Store) (nowIso : Option String) :
    Option TunableOverride :=
  if fails then none else rowToOverride store.live nowIso

def loadShadowOverride (fails : Bool) (store : Store) : Option ShadowOverride :=
  if fails then none
  else
    match store.shadow with
    | none => none
    | some row =>
        (validOverride row.confidenceFloor row.scopeCapFiles row.scopeCapLines).map fun override =>
          ⟨override, row.validatedUntil⟩

/-- The row a write leaves: it has no `clear_at`. -/
def liveRowOf (merged : TunableOverride) : OverrideRow where
  confidenceFloor := merged.confidenceFloor
  scopeCapFiles := merged.scopeCap.map ScopeCap.files
  scopeCapLines := merged.scopeCap.map ScopeCap.lines

def shadowRowOf (merged : TunableOverride) (validatedUntilIso : String) : ShadowRow where
  confidenceFloor := merged.confidenceFloor
  scopeCapFiles := merged.scopeCap.map ScopeCap.files
  scopeCapLines := merged.scopeCap.map ScopeCap.lines
  validatedUntil := some validatedUntilIso

/-- `INSERT OR REPLACE`, merged over what a second read of the row gives. -/
def writeLiveOverride (fails : Bool) (store : Store) (override : TunableOverride) : Store :=
  { store with live := some (liveRowOf (mergeOverride (loadOverride fails store none) override)) }

def writeShadowOverride (fails : Bool) (store : Store) (override : TunableOverride)
    (validatedUntilIso : String) : Store :=
  let existing := (loadShadowOverride fails store).map ShadowOverride.override
  { store with shadow := some (shadowRowOf (mergeOverride existing override) validatedUntilIso) }

def deleteShadowOverride (store : Store) : Store := { store with shadow := none }

/-- Which of the reads of a tick fail, in the order the tick makes them. -/
structure FailingReads where
  live : Bool := false
  shadow : Bool := false
  shadowBeforeWrite : Bool := false
  shadowAgain : Bool := false
  liveBeforeWrite : Bool := false
  deriving DecidableEq, Repr

structure TuningRec where
  overridePayload : Option TunableOverride
  deriving DecidableEq, Repr

/-- The project's configuration. -/
structure BaseConfig where
  autoTune : Bool
  baseConfidenceFloor : JsNumber
  baseScopeCap : Option ScopeCap := none
  deriving DecidableEq, Repr

structure Tick where
  nowMs : ℤ
  decided : ℤ
  recs : List TuningRec
  fails : FailingReads := {}
  deriving DecidableEq, Repr

/-- A tick's result: the store, the payload it queued and the override it promoted. -/
structure TickResult where
  store : Store
  queued : Option TunableOverride := none
  promoted : Option TunableOverride := none
  deriving DecidableEq, Repr

structure Tunables where
  floor : JsNumber
  cap : Option ScopeCap
  deriving DecidableEq, Repr

/-- The override where it has a field, the base where it does not. -/
def effective (base : BaseConfig) (override : Option TunableOverride) : Tunables where
  floor := (override.bind TunableOverride.confidenceFloor).getD base.baseConfidenceFloor
  cap := (override.bind TunableOverride.scopeCap).or base.baseScopeCap

/-- What is pending after the first half of a tick. -/
structure Queued where
  store : Store
  queued : Option TunableOverride
  shadow : Option ShadowOverride

/-- Queue the first tightening recommendation unless something is soaking; `none` when
the deadline is out of range and the tick ends in its `catch`. -/
def queueRecommendation (store : Store) (tick : Tick) (seen : Tunables) : Option Queued :=
  match loadShadowOverride tick.fails.shadow store with
  | some shadow => some ⟨store, none, some shadow⟩
  | none =>
      match (tick.recs.filterMap TuningRec.overridePayload).find? fun payload =>
          isStrictlyTightening payload (some seen.floor) seen.cap with
      | none => some ⟨store, none, loadShadowOverride tick.fails.shadowAgain store⟩
      | some payload =>
          match toISOString (tick.nowMs + SHADOW_SOAK_MS) with
          | none => none
          | some validatedUntil =>
              let written :=
                writeShadowOverride tick.fails.shadowBeforeWrite store payload validatedUntil
              some ⟨written, some payload, loadShadowOverride tick.fails.shadowAgain written⟩

/-- Promote what is pending once it passes the gate. -/
def promoteShadow (tick : Tick) (seen : Tunables) (nowIso : String) (pending : Queued) :
    TickResult :=
  match pending.shadow with
  | none => { store := pending.store, queued := pending.queued }
  | some shadow =>
      if evaluateShadowPromotion shadow.override (some seen.floor) seen.cap tick.decided
          shadow.validatedUntil nowIso then
        { store := deleteShadowOverride
            (writeLiveOverride tick.fails.liveBeforeWrite pending.store shadow.override)
          queued := pending.queued
          promoted := some shadow.override }
      else { store := pending.store, queued := pending.queued }

/-- The live tunables a tick judges by. -/
def seenTunables (base : BaseConfig) (store : Store) (tick : Tick) (nowIso : String) : Tunables :=
  effective base (loadOverride tick.fails.live store (some nowIso))

def runAutoApplyRecommendations (base : BaseConfig) (store : Store) (tick : Tick) : TickResult :=
  if base.autoTune = false then { store := store }
  else
    match toISOString tick.nowMs with
    | none => { store := store }
    | some nowIso =>
        let seen := seenTunables base store tick nowIso
        match queueRecommendation store tick seen with
        | none => { store := store }
        | some pending => promoteShadow tick seen nowIso pending

def tickStore (base : BaseConfig) (store : Store) (tick : Tick) : Store :=
  (runAutoApplyRecommendations base store tick).store

section OneTick

/-- Never looser: the floor does not decrease, and a cap stays and does not grow. -/
structure NotLooser (before after : Tunables) : Prop where
  floor : after.floor.lt before.floor = false
  cap : ∀ cap, before.cap = some cap → ∃ cap', after.cap = some cap' ∧
    cap.files.lt cap'.files = false ∧ cap.lines.lt cap'.lines = false

theorem NotLooser.refl (tunables : Tunables) : NotLooser tunables tunables where
  floor := JsNumber.lt_irrefl _
  cap cap hcap := ⟨cap, hcap, JsNumber.lt_irrefl _, JsNumber.lt_irrefl _⟩

def storedTunables (base : BaseConfig) (store : Store) (nowIso : String) : Tunables :=
  effective base (rowToOverride store.live (some nowIso))

/-- The tunables after a tick, read at the time of the tick. -/
def TickNotLooser (base : BaseConfig) (store : Store) (tick : Tick) : Prop :=
  ∀ nowIso, toISOString tick.nowMs = some nowIso →
    NotLooser (storedTunables base store nowIso)
      (storedTunables base (tickStore base store tick) nowIso)

/-- The project opted in and what is pending passes the gate. -/
def pendingRipe (base : BaseConfig) (store : Store) (tick : Tick) (nowIso : String) : Bool :=
  let seen := seenTunables base store tick nowIso
  base.autoTune && ((queueRecommendation store tick seen).bind Queued.shadow).any fun shadow =>
    evaluateShadowPromotion shadow.override (some seen.floor) seen.cap tick.decided
      shadow.validatedUntil nowIso

/-- A tick with a ripe shadow reads the active live override both times: no read that
matters fails, and a row past its `clear_at` has no valid field left. -/
def SeesActive (base : BaseConfig) (store : Store) (tick : Tick) : Prop :=
  ∀ nowIso ∈ toISOString tick.nowMs, pendingRipe base store tick nowIso = true →
    loadOverride tick.fails.live store (some nowIso) = rowToOverride store.live (some nowIso) ∧
    loadOverride tick.fails.liveBeforeWrite store none = rowToOverride store.live (some nowIso)

theorem isStrictlyTightening_safe {override : TunableOverride} {liveFloor : Option JsNumber}
    {liveScopeCap : Option ScopeCap}
    (h : isStrictlyTightening override liveFloor liveScopeCap = true) :
    loosensFloor override liveFloor = false ∧ loosensCap override liveScopeCap = false := by
  unfold isStrictlyTightening at h
  cases hfloor : loosensFloor override liveFloor with
  | true => rw [hfloor, if_pos rfl] at h; cases h
  | false =>
    cases hcap : loosensCap override liveScopeCap with
    | true => rw [hfloor, hcap, if_neg (by decide), if_pos rfl] at h; cases h
    | false => exact ⟨rfl, rfl⟩

/-- An override merged over what it was judged against does not loosen it. -/
theorem notLooser_merge (base : BaseConfig) {live : Option TunableOverride}
    {override : TunableOverride}
    (h : isStrictlyTightening override (some (effective base live).floor)
      (effective base live).cap = true) :
    NotLooser (effective base live) (effective base (some (mergeOverride live override))) := by
  obtain ⟨hfloor, hcap⟩ := isStrictlyTightening_safe h
  constructor
  · cases hnext : override.confidenceFloor with
    | none =>
      simp only [effective, mergeOverride, hnext, Option.none_or, Option.bind_some]
      exact JsNumber.lt_irrefl _
    | some floor =>
      simp only [loosensFloor, hnext, Option.any_some] at hfloor
      simpa only [effective, mergeOverride, hnext, Option.some_or, Option.bind_some,
        Option.getD_some] using hfloor
  · intro cap hbefore
    cases hnext : override.scopeCap with
    | none =>
      refine ⟨cap, ?_, JsNumber.lt_irrefl _, JsNumber.lt_irrefl _⟩
      simpa only [effective, mergeOverride, hnext, Option.none_or, Option.bind_some] using hbefore
    | some next =>
      rw [hbefore] at hcap
      simp only [loosensCap, hnext, Option.any_some, Bool.or_eq_false_iff] at hcap
      refine ⟨next, ?_, hcap.1, hcap.2⟩
      simp only [effective, mergeOverride, hnext, Option.some_or, Option.bind_some]

/-- Valid fields stay valid when they are written and read back. -/
theorem validOverride_fields {floor files lines : Option JsNumber} {override : TunableOverride}
    (h : validOverride floor files lines = some override) :
    override.confidenceFloor = validFloor floor ∧ override.scopeCap = validCap files lines := by
  unfold validOverride at h
  dsimp only at h
  by_cases hempty : ({ confidenceFloor := validFloor floor, scopeCap := validCap files lines } :
      TunableOverride) = {}
  · rw [if_pos hempty] at h
    cases h
  · rw [if_neg hempty, Option.some.injEq] at h
    rw [← h]
    exact ⟨rfl, rfl⟩

/-- An override all of whose fields are valid. -/
structure Valid (override : TunableOverride) : Prop where
  floor : validFloor override.confidenceFloor = override.confidenceFloor
  cap : validCap (override.scopeCap.map ScopeCap.files) (override.scopeCap.map ScopeCap.lines) =
    override.scopeCap

theorem validFloor_idem (floor : Option JsNumber) : validFloor (validFloor floor) = validFloor floor := by
  cases floor with
  | none => rfl
  | some value =>
    unfold validFloor
    by_cases h : (value.ge (.finite 0) && JsNumber.ge (.finite 1) value) = true
    · simp only [Option.filter_some, h, if_true]
    · simp only [Option.filter_some, h, Bool.false_eq_true, if_false, Option.filter_none]

theorem validCap_idem (files lines : Option JsNumber) :
    validCap ((validCap files lines).map ScopeCap.files) ((validCap files lines).map ScopeCap.lines) =
      validCap files lines := by
  cases files with
  | none => rfl
  | some files =>
    cases lines with
    | none => rfl
    | some lines =>
      unfold validCap
      by_cases h : JsNumber.lt (.finite 0) files ∧ JsNumber.lt (.finite 0) lines
      · simp only [if_pos h, Option.map_some]
      · simp only [if_neg h, Option.map_none]

theorem valid_of_validOverride {floor files lines : Option JsNumber} {override : TunableOverride}
    (h : validOverride floor files lines = some override) : Valid override := by
  obtain ⟨hfloor, hcap⟩ := validOverride_fields h
  constructor
  · rw [hfloor]
    exact validFloor_idem floor
  · rw [hcap]
    exact validCap_idem files lines

theorem valid_of_rowToOverride {row : Option OverrideRow} {nowIso : Option String}
    {override : TunableOverride} (h : rowToOverride row nowIso = some override) :
    Valid override := by
  cases row with
  | none => cases h
  | some row =>
    simp only [rowToOverride] at h
    cases hcleared : isCleared row.clearAt nowIso with
    | true => rw [hcleared, if_pos rfl] at h; cases h
    | false =>
      rw [hcleared, if_neg (by decide)] at h
      exact valid_of_validOverride h

theorem valid_merge {live : Option TunableOverride} {override : TunableOverride}
    (hlive : ∀ o, live = some o → Valid o) (h : Valid override) :
    Valid (mergeOverride live override) := by
  constructor
  · cases hnext : override.confidenceFloor with
    | some floor =>
      have hfloor := h.floor
      rw [hnext] at hfloor
      simpa only [mergeOverride, hnext, Option.some_or] using hfloor
    | none =>
      cases live with
      | none => simp [mergeOverride, hnext, validFloor]
      | some o => simpa only [mergeOverride, hnext, Option.none_or, Option.bind_some]
          using (hlive o rfl).floor
  · cases hnext : override.scopeCap with
    | some cap =>
      have hcap := h.cap
      rw [hnext] at hcap
      simpa only [mergeOverride, hnext, Option.some_or] using hcap
    | none =>
      cases live with
      | none => simp [mergeOverride, hnext, validCap]
      | some o => simpa only [mergeOverride, hnext, Option.none_or, Option.bind_some]
          using (hlive o rfl).cap

/-- A freshly written live row, read back: the merged override, never expired. -/
theorem effective_written (base : BaseConfig) {merged : TunableOverride} (h : Valid merged)
    (nowIso : String) :
    effective base (rowToOverride (some (liveRowOf merged)) (some nowIso)) =
      effective base (some merged) := by
  have hfresh : isCleared none (some nowIso) = false := rfl
  simp only [rowToOverride, liveRowOf, hfresh, Bool.false_eq_true, if_false, validOverride, h.floor,
    h.cap]
  by_cases hempty : merged = {}
  · rw [hempty]
    rfl
  · rw [if_neg hempty]

theorem loadShadowOverride_valid {fails : Bool} {store : Store} {shadow : ShadowOverride}
    (h : loadShadowOverride fails store = some shadow) : Valid shadow.override := by
  unfold loadShadowOverride at h
  cases fails with
  | true => cases h
  | false =>
    cases hrow : store.shadow with
    | none => rw [hrow] at h; cases h
    | some row =>
      rw [hrow] at h
      obtain ⟨override, hvalid, rfl⟩ := Option.map_eq_some_iff.mp h
      exact valid_of_validOverride hvalid

/-- What queueing leaves: the shadow it found, the shadow a second read finds, or a row it
has written and read again. -/
theorem queueRecommendation_cases {store : Store} {tick : Tick} {seen : Tunables}
    {pending : Queued} (h : queueRecommendation store tick seen = some pending) :
    (∃ shadow, loadShadowOverride tick.fails.shadow store = some shadow ∧
      pending = ⟨store, none, some shadow⟩) ∨
    pending = ⟨store, none, loadShadowOverride tick.fails.shadowAgain store⟩ ∨
    ∃ payload validatedUntil, toISOString (tick.nowMs + SHADOW_SOAK_MS) = some validatedUntil ∧
      pending = ⟨writeShadowOverride tick.fails.shadowBeforeWrite store payload validatedUntil,
        some payload, loadShadowOverride tick.fails.shadowAgain
          (writeShadowOverride tick.fails.shadowBeforeWrite store payload validatedUntil)⟩ := by
  unfold queueRecommendation at h
  cases halready : loadShadowOverride tick.fails.shadow store with
  | some shadow =>
    rw [halready] at h
    cases h
    exact Or.inl ⟨shadow, rfl, rfl⟩
  | none =>
    rw [halready] at h
    dsimp only at h
    cases hpayload : (tick.recs.filterMap TuningRec.overridePayload).find? fun payload =>
        isStrictlyTightening payload (some seen.floor) seen.cap with
    | none =>
      rw [hpayload] at h
      cases h
      exact Or.inr (Or.inl rfl)
    | some payload =>
      rw [hpayload] at h
      dsimp only at h
      cases hdeadline : toISOString (tick.nowMs + SHADOW_SOAK_MS) with
      | none => rw [hdeadline] at h; cases h
      | some validatedUntil =>
        rw [hdeadline] at h
        cases h
        exact Or.inr (Or.inr ⟨payload, validatedUntil, rfl, rfl⟩)

/-- Queueing does not touch the live row. -/
theorem queueRecommendation_live {store : Store} {tick : Tick} {seen : Tunables}
    {pending : Queued} (h : queueRecommendation store tick seen = some pending) :
    pending.store.live = store.live := by
  rcases queueRecommendation_cases h with ⟨shadow, -, rfl⟩ | rfl | ⟨payload, validatedUntil, -, rfl⟩
  · rfl
  · rfl
  · rfl

/-- What is pending can be loaded from the store that queueing leaves. -/
theorem queueRecommendation_pending {store : Store} {tick : Tick} {seen : Tunables}
    {pending : Queued} (h : queueRecommendation store tick seen = some pending)
    {shadow : ShadowOverride} (hshadow : pending.shadow = some shadow) :
    ∃ fails, loadShadowOverride fails pending.store = some shadow := by
  rcases queueRecommendation_cases h with ⟨found, hfound, rfl⟩ | rfl | ⟨payload, validatedUntil, -, rfl⟩
  · cases hshadow
    exact ⟨tick.fails.shadow, hfound⟩
  · exact ⟨tick.fails.shadowAgain, hshadow⟩
  · exact ⟨tick.fails.shadowAgain, hshadow⟩

theorem evaluateShadowPromotion_tightening {override : TunableOverride}
    {liveFloor : Option JsNumber} {liveScopeCap : Option ScopeCap} {decided : ℤ}
    {validatedUntilIso : Option String} {nowIso : String}
    (h : evaluateShadowPromotion override liveFloor liveScopeCap decided validatedUntilIso
      nowIso = true) : isStrictlyTightening override liveFloor liveScopeCap = true := by
  by_contra hno
  unfold evaluateShadowPromotion at h
  rw [if_pos (by simpa using hno)] at h
  cases h

/-- The second half of a tick: nothing live changes, or the pending override passes the
gate and is merged over the second read. -/
theorem promoteShadow_cases (tick : Tick) (seen : Tunables) (nowIso : String) (pending : Queued) :
    ((promoteShadow tick seen nowIso pending).promoted = none ∧
      (promoteShadow tick seen nowIso pending).store = pending.store) ∨
    ∃ shadow, pending.shadow = some shadow ∧
      evaluateShadowPromotion shadow.override (some seen.floor) seen.cap tick.decided
        shadow.validatedUntil nowIso = true ∧
      promoteShadow tick seen nowIso pending =
        { store := deleteShadowOverride
            (writeLiveOverride tick.fails.liveBeforeWrite pending.store shadow.override)
          queued := pending.queued
          promoted := some shadow.override } := by
  unfold promoteShadow
  cases hshadow : pending.shadow with
  | none => exact Or.inl ⟨rfl, rfl⟩
  | some shadow =>
    dsimp only
    by_cases hgate : evaluateShadowPromotion shadow.override (some seen.floor) seen.cap
        tick.decided shadow.validatedUntil nowIso = true
    · rw [if_pos hgate]
      exact Or.inr ⟨shadow, rfl, hgate, rfl⟩
    · rw [if_neg hgate]
      exact Or.inl ⟨rfl, rfl⟩

/-- A tick leaves the store alone, or its two halves run one after the other. -/
theorem runAutoApply_cases (base : BaseConfig) (store : Store) (tick : Tick) :
    runAutoApplyRecommendations base store tick = { store := store } ∨
    ∃ nowIso pending, base.autoTune = true ∧ toISOString tick.nowMs = some nowIso ∧
      queueRecommendation store tick (seenTunables base store tick nowIso) = some pending ∧
      runAutoApplyRecommendations base store tick =
        promoteShadow tick (seenTunables base store tick nowIso) nowIso pending := by
  cases hauto : base.autoTune with
  | false => exact Or.inl (by rw [runAutoApplyRecommendations, if_pos hauto])
  | true =>
    cases hnow : toISOString tick.nowMs with
    | none =>
      refine Or.inl ?_
      rw [runAutoApplyRecommendations, if_neg (by rw [hauto]; decide), hnow]
    | some nowIso =>
      have hrun : runAutoApplyRecommendations base store tick =
          match queueRecommendation store tick (seenTunables base store tick nowIso) with
          | none => { store := store }
          | some pending =>
              promoteShadow tick (seenTunables base store tick nowIso) nowIso pending := by
        rw [runAutoApplyRecommendations, if_neg (by rw [hauto]; decide), hnow]
      cases hqueue : queueRecommendation store tick (seenTunables base store tick nowIso) with
      | none =>
        rw [hqueue] at hrun
        exact Or.inl hrun
      | some pending =>
        rw [hqueue] at hrun
        exact Or.inr ⟨nowIso, pending, rfl, rfl, hqueue, hrun⟩

/-- A tick that sees the active live override in both reads does not loosen. -/
theorem tickNotLooser_of_seesActive (base : BaseConfig) (store : Store) (tick : Tick)
    (hsees : SeesActive base store tick) : TickNotLooser base store tick := by
  intro nowIso hnow
  rcases runAutoApply_cases base store tick with
    hsame | ⟨nowIso', pending, hauto, hnow', hqueue, hrun⟩
  · rw [tickStore, hsame]
    exact NotLooser.refl _
  · rw [hnow, Option.some.injEq] at hnow'
    subst hnow'
    have hlive := queueRecommendation_live hqueue
    rcases promoteShadow_cases tick (seenTunables base store tick nowIso) nowIso pending with
      ⟨-, hstore⟩ | ⟨shadow, hshadow, hgate, hpromote⟩
    · rw [tickStore, hrun, hstore, storedTunables, storedTunables, hlive]
      exact NotLooser.refl _
    · have hripe : pendingRipe base store tick nowIso = true := by
        simp only [pendingRipe, hauto, hqueue, Option.bind_some, hshadow, Option.any_some, hgate,
          Bool.and_self]
      obtain ⟨hfirst, hsecond⟩ := hsees nowIso hnow hripe
      have hreread : loadOverride tick.fails.liveBeforeWrite pending.store none =
          rowToOverride store.live (some nowIso) := by
        rw [← hsecond]
        unfold loadOverride
        rw [hlive]
      obtain ⟨fails, hloaded⟩ := queueRecommendation_pending hqueue hshadow
      have hmerged := valid_merge
        (fun o (ho : rowToOverride store.live (some nowIso) = some o) => valid_of_rowToOverride ho)
        (loadShadowOverride_valid hloaded)
      have htight := evaluateShadowPromotion_tightening hgate
      rw [seenTunables, hfirst] at htight
      have hafter : storedTunables base (tickStore base store tick) nowIso =
          effective base (some (mergeOverride (rowToOverride store.live (some nowIso))
            shadow.override)) := by
        rw [tickStore, hrun, hpromote]
        simp only [storedTunables, deleteShadowOverride, writeLiveOverride, hreread]
        exact effective_written base hmerged nowIso
      rw [hafter]
      exact notLooser_merge base htight

end OneTick

/-- In a run whose promoting ticks see the active live override no tick loosens. -/
theorem selftune_only_tightens (base : BaseConfig) (store : Store) (ticks : List Tick)
    (hsees : Guarded (tickStore base) (SeesActive base) store ticks) :
    Guarded (tickStore base) (TickNotLooser base) store ticks :=
  have hkept : ∀ (store : Store) (tick : Tick), True → SeesActive base store tick → True :=
    fun _ _ _ _ => trivial
  guarded_of_invariant (tickStore base) (SeesActive base) hkept
    (fun store tick _ hsees => tickNotLooser_of_seesActive base store tick hsees)
    store ticks trivial hsees

/-- A live row with a cap, and a floor that has soaked. -/
def cappedStore : Store where
  live := some ⟨some (.finite (19 / 20)), some (.finite 5), some (.finite 200), none⟩
  shadow := some ⟨some (.finite (97 / 100)), none, none, some "2026-01-01T00:00:00.000Z"⟩

def zeroFloor : BaseConfig where
  autoTune := true
  baseConfidenceFloor := .finite 0

theorem selftune_only_tightens_promotion :
    Guarded (tickStore zeroFloor) (TickNotLooser zeroFloor) cappedStore [⟨1800000000000, 10, [], {}⟩] :=
  selftune_only_tightens zeroFloor cappedStore [⟨1800000000000, 10, [], {}⟩]
    ⟨by unfold SeesActive; decide +kernel, trivial⟩

/-- The read before the write fails, so the promoted floor replaces the row and the cap is
gone. -/
theorem promotion_loses_cap :
    ¬ ∀ (base : BaseConfig) (store : Store) (ticks : List Tick),
      Guarded (tickStore base) (TickNotLooser base) store ticks := by
  intro h
  have htick := (h zeroFloor cappedStore
    [⟨1800000000000, 10, [], { liveBeforeWrite := true }⟩]).1 "2027-01-15T08:00:00.000Z"
    (by decide +kernel)
  obtain ⟨cap, hcap, -⟩ := htick.cap ⟨.finite 5, .finite 200⟩ (by decide +kernel)
  have hgone : (storedTunables zeroFloor (tickStore zeroFloor cappedStore
      ⟨1800000000000, 10, [], { liveBeforeWrite := true }⟩) "2027-01-15T08:00:00.000Z").cap = none := by
    decide +kernel
  rw [hgone] at hcap
  cases hcap

end Gittensory.AutoApply
