import Mathlib.Algebra.Order.Field.Rat
import Mathlib.Algebra.Order.Field.Basic
import Mathlib.Data.List.Perm.Basic
import Mathlib.Tactic.FieldSimp
import Mathlib.Tactic.Linarith
import Mathlib.Tactic.NormNum
import Mathlib.Tactic.Ring

/-!
The private reputation signal of a submitter (`review/submitter-reputation.ts`): terminal
outcomes are sorted into buckets, counted, and the counts compared with thresholds. One
more row moves the fail rate towards the weight of its bucket. A success has weight zero
and a reject weight one, so the signal follows them; a light fail has the weight one half,
below the rate that brands a submitter, and dilutes a worse history.
-/
namespace Gittensory.SubmitterReputation

structure ReputationConfig where
  windowDays : ℚ
  minSample : ℚ
  qualityFailLowRate : ℚ
  qualityFailLowMaxSuccess : ℚ
  lightFailWeight : ℚ
  trustedMinSuccess : ℚ
  trustedMaxFailRate : ℚ
  deriving DecidableEq, Repr

inductive ReputationSignal where
  | low
  | neutral
  | trusted
  deriving DecidableEq, Repr

def ReputationSignal.rank : ReputationSignal → ℕ
  | .low => 0
  | .neutral => 1
  | .trusted => 2

instance : LE ReputationSignal := ⟨fun left right => left.rank ≤ right.rank⟩

instance (left right : ReputationSignal) : Decidable (left ≤ right) :=
  inferInstanceAs (Decidable (left.rank ≤ right.rank))

def REPUTATION_WINDOW_DAYS : ℚ := 90

def SUCCESS_CODES : List String :=
  ["dual_review_approved", "dual_review_approved_tiebreak", "maintainer_cleanup"]

def QUALITY_FAIL_CODES : List String :=
  ["dual_review_declined", "scope_failure", "thin_description"]

def QUALITY_FAIL_LIGHT_CODES : List String :=
  ["checks_failed", "strict_duplicate", "source_unfetchable", "source_archived",
    "protected_metadata_edit"]

def PROMPT_INJECTION_CODE : String := "source_prompt_injection"

def CONFLICT_CODES : List String :=
  ["merge_conflict_closed", "merge_conflict_close", "pr_closed_before_merge"]

inductive Bucket where
  | success
  | qualityFail
  | qualityFailLight
  | promptInjection
  | exclude
  deriving DecidableEq, Repr

/-- The bucket of a row that is neither held nor merged, by its reason. -/
def classifyClosed (reasonCode : String) : Bucket :=
  if reasonCode ∈ SUCCESS_CODES then .exclude
  else if reasonCode ∈ CONFLICT_CODES then .exclude
  else if reasonCode = PROMPT_INJECTION_CODE then .promptInjection
  else if reasonCode ∈ QUALITY_FAIL_CODES then .qualityFail
  else if reasonCode ∈ QUALITY_FAIL_LIGHT_CODES then .qualityFailLight
  else .exclude

def classifyOutcome (status : String) (reasonCode : Option String) : Bucket :=
  if status = "manual" then .exclude
  else if status = "merged" then .success
  else
    match reasonCode with
    | none => .exclude
    | some code => classifyClosed code

structure ReputationCounts where
  success : ℕ
  qualityFail : ℕ
  qualityFailLight : ℕ
  promptInjection : ℕ
  deriving DecidableEq, Repr

def DEFAULT_REPUTATION_CONFIG : ReputationConfig where
  windowDays := REPUTATION_WINDOW_DAYS
  minSample := 5
  qualityFailLowRate := 7 / 10
  qualityFailLowMaxSuccess := 2
  lightFailWeight := 1 / 2
  trustedMinSuccess := 5
  trustedMaxFailRate := 2 / 10

/-- `weightedFails` of `signalFromCounts` -/
def ReputationCounts.weightedFails (c : ReputationCounts) (cfg : ReputationConfig) : ℚ :=
  c.qualityFail + c.qualityFailLight * cfg.lightFailWeight

/-- `sample` of `signalFromCounts` -/
def ReputationCounts.sample (c : ReputationCounts) : ℚ :=
  c.success + c.qualityFail + c.qualityFailLight + c.promptInjection

/-- `failRate` of `signalFromCounts` -/
def ReputationCounts.failRate (c : ReputationCounts) (cfg : ReputationConfig) : ℚ :=
  if c.sample > 0 then c.weightedFails cfg / c.sample else 0

def signalFromCounts (c : ReputationCounts) (cfg : ReputationConfig) : ReputationSignal :=
  if c.sample < cfg.minSample then .neutral
  else if c.promptInjection > 0 then .low
  else if c.failRate cfg ≥ cfg.qualityFailLowRate ∧ c.success < cfg.qualityFailLowMaxSuccess then
    .low
  else if c.success ≥ cfg.trustedMinSuccess ∧ c.failRate cfg ≤ cfg.trustedMaxFailRate then
    .trusted
  else .neutral

/-- A row of the query: the terminal status and the reason recorded with the decision. -/
structure OutcomeRow where
  status : String
  reasonCode : Option String
  deriving DecidableEq, Repr

def OutcomeRow.bucket (row : OutcomeRow) : Bucket := classifyOutcome row.status row.reasonCode

/-- One round of the loop in `countOutcomes`. -/
def tally (c : ReputationCounts) (r : OutcomeRow) : ReputationCounts :=
  match r.bucket with
  | .success => { c with success := c.success + 1 }
  | .qualityFail => { c with qualityFail := c.qualityFail + 1 }
  | .qualityFailLight => { c with qualityFailLight := c.qualityFailLight + 1 }
  | .promptInjection => { c with promptInjection := c.promptInjection + 1 }
  | .exclude => c

def countOutcomes (rows : List OutcomeRow) : ReputationCounts :=
  rows.foldl tally ⟨0, 0, 0, 0⟩

/-- The signal of a window of rows under the committed thresholds. -/
def signal (rows : List OutcomeRow) : ReputationSignal :=
  signalFromCounts (countOutcomes rows) DEFAULT_REPUTATION_CONFIG

/-! ## One more row -/

theorem tally_right_comm (c : ReputationCounts) (left right : OutcomeRow) :
    tally (tally c left) right = tally (tally c right) left := by
  unfold tally
  cases left.bucket <;> cases right.bucket <;> rfl

/-- The place of a row does not matter to the counts. -/
theorem countOutcomes_insert (front back : List OutcomeRow) (row : OutcomeRow) :
    countOutcomes (front ++ row :: back) = tally (countOutcomes (front ++ back)) row := by
  have hcomm : RightCommutative tally := ⟨tally_right_comm⟩
  have hperm : (front ++ row :: back).Perm ((front ++ back) ++ [row]) :=
    List.perm_middle.trans (List.perm_append_singleton row (front ++ back)).symm
  rw [countOutcomes, hperm.foldl_eq, List.foldl_append]
  rfl

section Rate

variable {fails size rate weight : ℚ}

/-- A part of weight at least the limit, added below the limit, was added below it. -/
theorem rate_le_of_add (hsize : 0 < size) (hweight : rate ≤ weight)
    (h : (fails + weight) / (size + 1) ≤ rate) : fails / size ≤ rate := by
  rw [div_le_iff₀ (by linarith)] at h
  rw [div_le_iff₀ hsize]
  linarith

theorem le_rate_add (hsize : 0 < size) (hweight : rate ≤ weight)
    (h : rate ≤ fails / size) : rate ≤ (fails + weight) / (size + 1) := by
  rw [le_div_iff₀ hsize] at h
  rw [le_div_iff₀ (by linarith)]
  linarith

theorem rate_add_le (hsize : 0 < size) (hweight : weight ≤ rate)
    (h : fails / size ≤ rate) : (fails + weight) / (size + 1) ≤ rate := by
  rw [div_le_iff₀ hsize] at h
  rw [div_le_iff₀ (by linarith)]
  linarith

theorem le_rate_of_add (hsize : 0 < size) (hweight : weight ≤ rate)
    (h : rate ≤ (fails + weight) / (size + 1)) : rate ≤ fails / size := by
  rw [le_div_iff₀ (by linarith)] at h
  rw [le_div_iff₀ hsize]
  linarith

end Rate

/-- What a row of a bucket counts among the fails. -/
def Bucket.weight (cfg : ReputationConfig) : Bucket → ℚ
  | .qualityFail => 1
  | .qualityFailLight => cfg.lightFailWeight
  | _ => 0

theorem sample_tally (c : ReputationCounts) {row : OutcomeRow} (h : row.bucket ≠ .exclude) :
    (tally c row).sample = c.sample + 1 := by
  unfold tally ReputationCounts.sample
  cases hbucket : row.bucket with
  | exclude => exact absurd hbucket h
  | success => push_cast; ring
  | qualityFail => push_cast; ring
  | qualityFailLight => push_cast; ring
  | promptInjection => push_cast; ring

theorem weightedFails_tally (c : ReputationCounts) (cfg : ReputationConfig) (row : OutcomeRow) :
    (tally c row).weightedFails cfg = c.weightedFails cfg + row.bucket.weight cfg := by
  unfold tally ReputationCounts.weightedFails Bucket.weight
  cases row.bucket with
  | exclude => simp
  | success => simp
  | qualityFail => push_cast; ring
  | qualityFailLight => push_cast; ring
  | promptInjection => simp

theorem failRate_of_pos {c : ReputationCounts} (cfg : ReputationConfig) (h : 0 < c.sample) :
    c.failRate cfg = c.weightedFails cfg / c.sample := if_pos h

/-- A row moves the fail rate: its weight goes to the fails, one to the sample. -/
theorem failRate_tally {c : ReputationCounts} (cfg : ReputationConfig) {row : OutcomeRow}
    (hpos : 0 < c.sample) (hrow : row.bucket ≠ .exclude) :
    (tally c row).failRate cfg =
      (c.weightedFails cfg + row.bucket.weight cfg) / (c.sample + 1) := by
  have hsample := sample_tally c hrow
  rw [failRate_of_pos cfg (by rw [hsample]; linarith), hsample, weightedFails_tally]

/-! ## The two verdicts -/

/-- Counts that brand a submitter once the sample is large enough. -/
def Branded (c : ReputationCounts) (cfg : ReputationConfig) : Prop :=
  0 < c.promptInjection ∨
    cfg.qualityFailLowRate ≤ c.failRate cfg ∧ c.success < cfg.qualityFailLowMaxSuccess

def Proven (c : ReputationCounts) (cfg : ReputationConfig) : Prop :=
  cfg.trustedMinSuccess ≤ c.success ∧ c.failRate cfg ≤ cfg.trustedMaxFailRate

theorem signalFromCounts_eq_low_iff {c : ReputationCounts} {cfg : ReputationConfig}
    (h : cfg.minSample ≤ c.sample) : signalFromCounts c cfg = .low ↔ Branded c cfg := by
  unfold signalFromCounts Branded
  rw [if_neg (not_lt.mpr h)]
  split_ifs with hinjection hfail hproven
  · simpa using Or.inl hinjection
  · simpa using Or.inr hfail
  · simpa [Nat.pos_iff_ne_zero] using ⟨by omega, fun hrate => not_lt.mp fun hfew =>
      hfail ⟨hrate, hfew⟩⟩
  · simpa [Nat.pos_iff_ne_zero] using ⟨by omega, fun hrate => not_lt.mp fun hfew =>
      hfail ⟨hrate, hfew⟩⟩

theorem signalFromCounts_eq_trusted_iff {c : ReputationCounts} {cfg : ReputationConfig}
    (h : cfg.minSample ≤ c.sample) :
    signalFromCounts c cfg = .trusted ↔ ¬ Branded c cfg ∧ Proven c cfg := by
  rw [← signalFromCounts_eq_low_iff h]
  unfold signalFromCounts Proven
  rw [if_neg (not_lt.mpr h)]
  split_ifs with hinjection hfail hproven
  · simp
  · simp
  · simpa using hproven
  · simpa using hproven

theorem signal_le_iff (left right : ReputationSignal) :
    left ≤ right ↔ (right = .low → left = .low) ∧ (left = .trusted → right = .trusted) := by
  cases left <;> cases right <;> decide

/-! ## What one row does to the signal -/

/-- What the thresholds must satisfy for the buckets to pull in their own direction. -/
structure Ordered (cfg : ReputationConfig) : Prop where
  minSample_pos : 0 < cfg.minSample
  lowRate_nonneg : 0 ≤ cfg.qualityFailLowRate
  lowRate_le_one : cfg.qualityFailLowRate ≤ 1
  trustedRate_nonneg : 0 ≤ cfg.trustedMaxFailRate
  trustedRate_le_weight : cfg.trustedMaxFailRate ≤ cfg.lightFailWeight
  weight_le_one : cfg.lightFailWeight ≤ 1
  few_le_solid : cfg.qualityFailLowMaxSuccess ≤ cfg.trustedMinSuccess

theorem default_ordered : Ordered DEFAULT_REPUTATION_CONFIG := by
  constructor <;> norm_num [DEFAULT_REPUTATION_CONFIG]

section Step

variable {c : ReputationCounts} {cfg : ReputationConfig} {row : OutcomeRow}

theorem Branded.of_tally_success (hcfg : Ordered cfg) (hpos : 0 < c.sample)
    (hrow : row.bucket = .success) (h : Branded (tally c row) cfg) : Branded c cfg := by
  have hcounted : row.bucket ≠ .exclude := by
    rw [hrow]
    decide
  have hrate := failRate_tally cfg hpos hcounted
  rw [hrow] at hrate
  rcases h with hinjection | ⟨hlow, hfew⟩
  · left
    simpa [tally, hrow] using hinjection
  · right
    rw [hrate] at hlow
    rw [failRate_of_pos cfg hpos]
    refine ⟨le_rate_of_add hpos hcfg.lowRate_nonneg hlow, ?_⟩
    have hcount : (tally c row).success = c.success + 1 := by simp [tally, hrow]
    rw [hcount] at hfew
    push_cast at hfew
    linarith

theorem Proven.tally_success (hcfg : Ordered cfg) (hpos : 0 < c.sample)
    (hrow : row.bucket = .success) (h : Proven c cfg) : Proven (tally c row) cfg := by
  obtain ⟨hsolid, hrate⟩ := h
  rw [failRate_of_pos cfg hpos] at hrate
  refine ⟨?_, ?_⟩
  · have hcount : (tally c row).success = c.success + 1 := by simp [tally, hrow]
    rw [hcount]
    push_cast
    linarith
  · rw [failRate_tally cfg hpos (by rw [hrow]; decide), hrow]
    exact rate_add_le hpos hcfg.trustedRate_nonneg hrate

/-- Every other bucket leaves the successes as they are. -/
theorem success_tally (hrow : row.bucket ≠ .success) : (tally c row).success = c.success := by
  unfold tally
  cases hbucket : row.bucket with
  | success => exact absurd hbucket hrow
  | qualityFail => rfl
  | qualityFailLight => rfl
  | promptInjection => rfl
  | exclude => rfl

theorem promptInjection_le_tally : c.promptInjection ≤ (tally c row).promptInjection := by
  unfold tally
  cases row.bucket <;> simp

theorem Branded.tally_qualityFail (hcfg : Ordered cfg) (hpos : 0 < c.sample)
    (hrow : row.bucket = .qualityFail) (h : Branded c cfg) : Branded (tally c row) cfg := by
  rcases h with hinjection | ⟨hlow, hfew⟩
  · exact Or.inl (hinjection.trans_le promptInjection_le_tally)
  · right
    rw [failRate_of_pos cfg hpos] at hlow
    rw [failRate_tally cfg hpos (by rw [hrow]; decide), success_tally (by rw [hrow]; decide), hrow]
    exact ⟨le_rate_add hpos hcfg.lowRate_le_one hlow, hfew⟩

/-- Trust after a fail of either weight was there before it. -/
theorem Proven.of_tally_fail (hcfg : Ordered cfg) (hpos : 0 < c.sample)
    (hrow : row.bucket = .qualityFail ∨ row.bucket = .qualityFailLight)
    (h : Proven (tally c row) cfg) : Proven c cfg := by
  have hkind : row.bucket ≠ .exclude ∧ row.bucket ≠ .success := by
    rcases hrow with hrow | hrow <;> rw [hrow] <;> decide
  have hweight : cfg.trustedMaxFailRate ≤ row.bucket.weight cfg := by
    rcases hrow with hrow | hrow <;> rw [hrow]
    · exact hcfg.trustedRate_le_weight.trans hcfg.weight_le_one
    · exact hcfg.trustedRate_le_weight
  obtain ⟨hsolid, hrate⟩ := h
  rw [success_tally hkind.2] at hsolid
  rw [failRate_tally cfg hpos hkind.1] at hrate
  refine ⟨hsolid, ?_⟩
  rw [failRate_of_pos cfg hpos]
  exact rate_le_of_add hpos hweight hrate

/-- Solid successes and the brand of serial failure exclude each other. -/
theorem Proven.promptInjection_pos (hcfg : Ordered cfg) (h : Proven c cfg)
    (hbrand : Branded c cfg) : 0 < c.promptInjection := by
  rcases hbrand with hinjection | ⟨_, hfew⟩
  · exact hinjection
  · have := h.1.trans_lt hfew
    have := hcfg.few_le_solid
    linarith

end Step

section Signal

variable {c : ReputationCounts} {cfg : ReputationConfig} {row : OutcomeRow}

theorem signal_le_tally_success (hcfg : Ordered cfg) (hsample : cfg.minSample ≤ c.sample)
    (hrow : row.bucket = .success) :
    signalFromCounts c cfg ≤ signalFromCounts (tally c row) cfg := by
  have hpos : 0 < c.sample := hcfg.minSample_pos.trans_le hsample
  have hnext : cfg.minSample ≤ (tally c row).sample := by
    rw [sample_tally c (by rw [hrow]; decide)]
    linarith
  rw [signal_le_iff, signalFromCounts_eq_low_iff hsample, signalFromCounts_eq_low_iff hnext,
    signalFromCounts_eq_trusted_iff hsample, signalFromCounts_eq_trusted_iff hnext]
  constructor
  · exact Branded.of_tally_success hcfg hpos hrow
  · rintro ⟨hclean, hproven⟩
    exact ⟨fun hbrand => hclean (hbrand.of_tally_success hcfg hpos hrow),
      hproven.tally_success hcfg hpos hrow⟩

theorem signal_tally_qualityFail_le (hcfg : Ordered cfg) (hsample : cfg.minSample ≤ c.sample)
    (hrow : row.bucket = .qualityFail) :
    signalFromCounts (tally c row) cfg ≤ signalFromCounts c cfg := by
  have hpos : 0 < c.sample := hcfg.minSample_pos.trans_le hsample
  have hnext : cfg.minSample ≤ (tally c row).sample := by
    rw [sample_tally c (by rw [hrow]; decide)]
    linarith
  rw [signal_le_iff, signalFromCounts_eq_low_iff hsample, signalFromCounts_eq_low_iff hnext,
    signalFromCounts_eq_trusted_iff hsample, signalFromCounts_eq_trusted_iff hnext]
  constructor
  · exact Branded.tally_qualityFail hcfg hpos hrow
  · rintro ⟨hclean, hproven⟩
    exact ⟨fun hbrand => hclean (hbrand.tally_qualityFail hcfg hpos hrow),
      hproven.of_tally_fail hcfg hpos (Or.inl hrow)⟩

/-- One injection brands, whatever else the window holds. -/
theorem signal_tally_promptInjection (hsample : cfg.minSample ≤ c.sample)
    (hrow : row.bucket = .promptInjection) : signalFromCounts (tally c row) cfg = .low := by
  have hnext : cfg.minSample ≤ (tally c row).sample := by
    rw [sample_tally c (by rw [hrow]; decide)]
    linarith
  rw [signalFromCounts_eq_low_iff hnext]
  left
  simp [tally, hrow]

/-- A light fail lifts a brand that rests on the fail rate alone, when it dilutes the rate
below the limit. -/
def Diluted (c : ReputationCounts) (cfg : ReputationConfig) (row : OutcomeRow) : Prop :=
  c.promptInjection = 0 ∧ c.success < cfg.qualityFailLowMaxSuccess ∧
    cfg.qualityFailLowRate ≤ c.failRate cfg ∧
    (tally c row).failRate cfg < cfg.qualityFailLowRate

instance : Decidable (Diluted c cfg row) := inferInstanceAs (Decidable (_ ∧ _ ∧ _ ∧ _))

theorem diluted_iff (hrow : row.bucket = .qualityFailLight) :
    Diluted c cfg row ↔ Branded c cfg ∧ ¬ Branded (tally c row) cfg := by
  have hsuccess : (tally c row).success = c.success := success_tally (by rw [hrow]; decide)
  have hinjection : (tally c row).promptInjection = c.promptInjection := by simp [tally, hrow]
  unfold Diluted Branded
  rw [hsuccess, hinjection]
  constructor
  · rintro ⟨hnone, hfew, hrate, hbelow⟩
    refine ⟨Or.inr ⟨hrate, hfew⟩, ?_⟩
    rintro (hsome | ⟨habove, _⟩)
    · omega
    · exact absurd habove (not_le.mpr hbelow)
  · rintro ⟨hbrand, hclean⟩
    push Not at hclean
    obtain ⟨hnone, hbelow⟩ := hclean
    rcases hbrand with hsome | ⟨hrate, hfew⟩
    · omega
    · refine ⟨by omega, hfew, hrate, ?_⟩
      by_contra hge
      exact absurd (hbelow (not_lt.mp hge)) (not_le.mpr hfew)

theorem signal_tally_light (hcfg : Ordered cfg) (hsample : cfg.minSample ≤ c.sample)
    (hrow : row.bucket = .qualityFailLight) :
    (Diluted c cfg row → signalFromCounts c cfg = .low ∧
      signalFromCounts (tally c row) cfg = .neutral) ∧
    (¬ Diluted c cfg row → signalFromCounts (tally c row) cfg ≤ signalFromCounts c cfg) := by
  have hpos : 0 < c.sample := hcfg.minSample_pos.trans_le hsample
  have hnext : cfg.minSample ≤ (tally c row).sample := by
    rw [sample_tally c (by rw [hrow]; decide)]
    linarith
  have hlow := signalFromCounts_eq_low_iff hsample
  have hlow' := signalFromCounts_eq_low_iff hnext
  have htrusted := signalFromCounts_eq_trusted_iff hsample
  have htrusted' := signalFromCounts_eq_trusted_iff hnext
  have hback : Proven (tally c row) cfg → Proven c cfg :=
    Proven.of_tally_fail hcfg hpos (Or.inr hrow)
  constructor
  · intro hdiluted
    obtain ⟨hbrand, hclean⟩ := (diluted_iff hrow).mp hdiluted
    refine ⟨hlow.mpr hbrand, ?_⟩
    have hnot : ¬ Proven (tally c row) cfg := fun hproven => by
      have hsome := (hback hproven).promptInjection_pos hcfg hbrand
      have hnone := hdiluted.1
      omega
    cases hsignal : signalFromCounts (tally c row) cfg with
    | low => exact absurd (hlow'.mp hsignal) hclean
    | neutral => rfl
    | trusted => exact absurd (htrusted'.mp hsignal).2 hnot
  · intro hkept
    have hstay : Branded c cfg → Branded (tally c row) cfg := fun hbrand => by
      by_contra hclean
      exact hkept ((diluted_iff hrow).mpr ⟨hbrand, hclean⟩)
    rw [signal_le_iff, hlow, hlow', htrusted, htrusted']
    exact ⟨hstay, fun h => ⟨fun hbrand => h.1 (hstay hbrand), hback h.2⟩⟩

end Signal

/-! ## Windows of rows -/

/-- Enough quality-relevant rows for a verdict. -/
def EnoughRows (rows : List OutcomeRow) : Prop :=
  DEFAULT_REPUTATION_CONFIG.minSample ≤ (countOutcomes rows).sample

instance (rows : List OutcomeRow) : Decidable (EnoughRows rows) :=
  inferInstanceAs (Decidable (_ ≤ _))

/-- Successes never lower the signal and fails of any kind never raise it. -/
def SignalMonotone : Prop :=
  ∀ (front back : List OutcomeRow) (row : OutcomeRow), EnoughRows (front ++ back) →
    (row.bucket = .success → signal (front ++ back) ≤ signal (front ++ row :: back)) ∧
    (row.bucket ∈ [.qualityFail, .qualityFailLight, .promptInjection] →
      signal (front ++ row :: back) ≤ signal (front ++ back))

/-- Four rejects and six failed checks are a fail rate of 0.7; with a seventh failed check
it is 7.5 out of 11. -/
def failedChecks : List OutcomeRow :=
  List.replicate 4 ⟨"closed", some "scope_failure"⟩ ++
    List.replicate 6 ⟨"closed", some "checks_failed"⟩

theorem not_signalMonotone : ¬ SignalMonotone := by
  intro h
  have hlight :=
    (h failedChecks [] ⟨"closed", some "checks_failed"⟩ (by decide +kernel)).2 (by decide)
  exact absurd hlight (by decide +kernel)

/-- Only a light fail can raise the signal, from low to neutral, and it does so exactly
when it dilutes the fail rate of a submitter without injections and with few successes. -/
theorem signal_follows_rows (front back : List OutcomeRow) (row : OutcomeRow)
    (hsample : EnoughRows (front ++ back)) :
    (row.bucket = .success → signal (front ++ back) ≤ signal (front ++ row :: back)) ∧
    (row.bucket ∈ [.qualityFail, .promptInjection] →
      signal (front ++ row :: back) ≤ signal (front ++ back)) ∧
    (row.bucket = .qualityFailLight →
      (Diluted (countOutcomes (front ++ back)) DEFAULT_REPUTATION_CONFIG row →
        signal (front ++ back) = .low ∧ signal (front ++ row :: back) = .neutral) ∧
      (¬ Diluted (countOutcomes (front ++ back)) DEFAULT_REPUTATION_CONFIG row →
        signal (front ++ row :: back) ≤ signal (front ++ back))) := by
  unfold signal
  rw [countOutcomes_insert]
  refine ⟨signal_le_tally_success default_ordered hsample, fun hrow => ?_,
    signal_tally_light default_ordered hsample⟩
  simp only [List.mem_cons, List.not_mem_nil, or_false] at hrow
  rcases hrow with hrow | hrow
  · exact signal_tally_qualityFail_le default_ordered hsample hrow
  · rw [signal_tally_promptInjection hsample hrow]
    exact Nat.zero_le _

theorem signal_follows_failedChecks :
    signal failedChecks = .low ∧
      signal (failedChecks ++ [⟨"closed", some "checks_failed"⟩]) = .neutral :=
  ((signal_follows_rows failedChecks [] ⟨"closed", some "checks_failed"⟩
    (by decide +kernel)).2.2 rfl).1 (by decide +kernel)

end Gittensory.SubmitterReputation
