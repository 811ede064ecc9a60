import Gittensory.AdvisoryGate
import Gittensory.DuplicateClusters
import Gittensory.GroupedCounts
import Gittensory.GuardedRun
import Gittensory.IsoTimestamp
import Mathlib.Algebra.Order.Field.Rat

/-!
Before a repository is cut over, the decisions of its gate are recorded beside those of the
system it replaces, one row for each commit (`review/parity-wire.ts`), and the two are compared
commit by commit (`review/parity.ts`). A repository is ready only if on no commit the new gate
would merge what the old system would not.
-/
namespace Gittensory.GateParity

open AdvisoryGate GroupedCounts GuardedRun IsoTimestamp JsValue

/-- A row of `review_audit`. -/
structure AuditRow where
  id : String
  project : String
  targetId : String
  eventType : String := "gate_decision"
  decision : Option String
  source : String
  headSha : Option String
  summary : Option String
  createdAt : String
  deriving DecidableEq

/-- What a column beside `MAX(created_at)` is read from: one of the latest rows of the group. -/
structure Latest where
  pick : List AuditRow → Option AuditRow
  mem : ∀ {rows row}, pick rows = some row → row ∈ rows
  latest : ∀ {rows row}, pick rows = some row → ∀ other ∈ rows, textLe other.createdAt row.createdAt
  some_of_mem : ∀ {rows row}, row ∈ rows → ∃ picked, pick rows = some picked

/-- `GROUP BY`, each group at its latest row. -/
def Latest.per {κ : Type*} [DecidableEq κ] (latest : Latest) (key : AuditRow → κ)
    (rows : List AuditRow) : List AuditRow :=
  (rows.map key).dedup.filterMap fun k => latest.pick (rows.filter fun row => key row = k)

theorem Latest.mem_per {κ : Type*} [DecidableEq κ] (latest : Latest) {key : AuditRow → κ}
    {rows : List AuditRow} {row : AuditRow} :
    row ∈ latest.per key rows ↔
      latest.pick (rows.filter fun other => key other = key row) = some row := by
  unfold Latest.per
  rw [List.mem_filterMap]
  constructor
  · rintro ⟨k, -, hpick⟩
    obtain rfl := of_decide_eq_true (List.mem_filter.mp (latest.mem hpick)).2
    exact hpick
  · intro hpick
    have hrow := List.mem_filter.mp (latest.mem hpick)
    exact ⟨key row, List.mem_dedup.mpr (List.mem_map_of_mem hrow.1), hpick⟩

/-! ## Comparing two writers -/

def MIN_PARITY_SAMPLE : ℕ := 30

def PARITY_AGREEMENT_FLOOR : ℚ := 98 / 100

def isGateAction (v : String) : Bool := v = "merge" || v = "close" || v = "hold"

/-- The decisions on a commit that a source made since a day. -/
def gateDecisions (source fromIso : String) (project : Option String) (rows : List AuditRow) :
    List AuditRow :=
  rows.filter fun row =>
    row.eventType = "gate_decision" && row.decision.isSome && row.headSha.isSome &&
      row.source = source && textLe fromIso row.createdAt && project.all (row.project = ·)

def parityKey (row : AuditRow) : String × String × Option String :=
  (row.project, row.targetId, row.headSha)

/-- The columns the joined rows are grouped by; the reason is that of the table, null or not. -/
structure ComparisonGroup where
  project : String
  auth_act : String
  shadow_act : String
  reason : Option String
  deriving DecidableEq

/-- The columns that are selected of a group. -/
structure Comparison where
  project : String
  auth_act : String
  shadow_act : String
  reason : String
  deriving DecidableEq

/-- `COALESCE(auth.reason, '')`, so that two groups may come out alike. -/
def ComparisonGroup.selected (group : ComparisonGroup) : Comparison :=
  ⟨group.project, group.auth_act, group.shadow_act, group.reason.getD ""⟩

def joined (auth shad : List AuditRow) : List (AuditRow × AuditRow) :=
  auth.flatMap fun left =>
    (shad.filter fun right => parityKey left = parityKey right).map fun right => (left, right)

def comparison (pair : AuditRow × AuditRow) : ComparisonGroup :=
  ⟨pair.1.project, pair.1.decision.getD "", pair.2.decision.getD "", pair.1.summary⟩

/-- What the query returns for the joined rows, in some order. -/
def cellsOf (compared : List ComparisonGroup) : List (Comparison × ℕ) :=
  (grouped compared).map fun cell => (cell.1.selected, cell.2)

structure ParityReasonBreakdown where
  reasonCode : String
  paired : ℕ := 0
  agree : ℕ := 0
  disagree : ℕ := 0
  deriving DecidableEq

structure GateParityRow where
  project : String
  pairedSamples : ℕ := 0
  bothMerge : ℕ := 0
  bothClose : ℕ := 0
  bothHold : ℕ := 0
  disagree : ℕ := 0
  agreementRate : Option ℚ := none
  unsafeDisagreements : ℕ := 0
  byReasonCode : List ParityReasonBreakdown := []
  deriving DecidableEq

def isParityCutoverReady (row : GateParityRow) : Bool :=
  MIN_PARITY_SAMPLE ≤ row.pairedSamples && row.unsafeDisagreements = 0 &&
    row.agreementRate.any (PARITY_AGREEMENT_FLOOR ≤ ·)

def addComparison (c : Comparison) (n : ℕ) (r : GateParityRow) : GateParityRow :=
  let r := { r with pairedSamples := r.pairedSamples + n }
  if c.auth_act = c.shadow_act then
    if c.auth_act = "merge" then { r with bothMerge := r.bothMerge + n }
    else if c.auth_act = "close" then { r with bothClose := r.bothClose + n }
    else { r with bothHold := r.bothHold + n }
  else
    { r with
      disagree := r.disagree + n
      unsafeDisagreements :=
        if c.shadow_act = "merge" ∧ (c.auth_act = "hold" ∨ c.auth_act = "close") then
          r.unsafeDisagreements + n
        else r.unsafeDisagreements }

def addReason (c : Comparison) (n : ℕ) (rb : ParityReasonBreakdown) : ParityReasonBreakdown :=
  { rb with
    paired := rb.paired + n
    agree := if c.auth_act = c.shadow_act then rb.agree + n else rb.agree
    disagree := if c.auth_act = c.shadow_act then rb.disagree else rb.disagree + n }

def comparable (c : Comparison) : Bool := isGateAction c.auth_act && isGateAction c.shadow_act

/-- The breakdown by reason, which the loop keeps a project. -/
def reasonByProject (cells : List (Comparison × ℕ)) (project : String) :
    List ParityReasonBreakdown :=
  tally ParityReasonBreakdown.reasonCode Comparison.reason (fun reason => ⟨reason, 0, 0, 0⟩)
    addReason (cells.filter fun cell => cell.1.project = project)

def finishRow (cells : List (Comparison × ℕ)) (r : GateParityRow) : GateParityRow :=
  { r with
    agreementRate :=
      if 0 < r.pairedSamples then
        some (((r.bothMerge + r.bothClose + r.bothHold : ℕ) : ℚ) / r.pairedSamples)
      else none
    byReasonCode :=
      (reasonByProject cells r.project).mergeSort fun a b => b.paired ≤ a.paired }

structure GateParityReport where
  authoritative : String
  shadow : String
  rows : List GateParityRow
  hasSignal : Bool

/-- What the groups that the query returns fold to; `localeLe` orders the projects, and `none`
is a query that failed. -/
def computeGateParity (localeLe : String → String → Bool) (authoritative shadow : String) :
    Option (List (Comparison × ℕ)) → GateParityReport
  | none => ⟨authoritative, shadow, [], false⟩
  | some cells =>
      let cells := cells.filter fun cell => comparable cell.1
      let byProject := tally GateParityRow.project Comparison.project
        (fun project => { project := project }) addComparison cells
      let rows := (byProject.map (finishRow cells)).mergeSort
        fun a b => localeLe a.project b.project
      ⟨authoritative, shadow, rows, rows.any fun r => MIN_PARITY_SAMPLE ≤ r.pairedSamples⟩

/-! ## Recording -/

def GITTENSORY_NATIVE_SOURCE : String := "gittensory-native"

def nativeGateActionFromConclusion : GateCheckConclusion → Option String
  | .success => some "merge"
  | .failure => some "hold"
  | .actionRequired => some "hold"
  | .neutral => none
  | .skipped => none

structure DecisionInput where
  project : String
  pullNumber : ℕ
  headSha : Option String
  conclusion : GateCheckConclusion
  reasonCode : Option String

def targetIdOf (project : String) (pullNumber : ℕ) : String :=
  project ++ "#" ++ toString pullNumber

def rowId (project : String) (pullNumber : ℕ) (headSha : String) : String :=
  "gate:" ++ GITTENSORY_NATIVE_SOURCE ++ ":" ++ targetIdOf project pullNumber ++ "@" ++ headSha

/-- The row that an input with an action and a commit is inserted as. -/
def nativeRow (project : String) (pullNumber : ℕ) (headSha action : String)
    (summary : Option String) (now : String) : AuditRow where
  id := rowId project pullNumber headSha
  project := project
  targetId := targetIdOf project pullNumber
  decision := some action
  source := GITTENSORY_NATIVE_SOURCE
  headSha := some headSha
  summary := summary
  createdAt := now

/-- The row of an input, if one is written. -/
def decisionRow (input : DecisionInput) (now : String) : Option AuditRow :=
  match nativeGateActionFromConclusion input.conclusion, present input.headSha with
  | some action, some headSha =>
      some (nativeRow (sliceTo 200 input.project) input.pullNumber headSha action
        ((present input.reasonCode).map (sliceTo 200)) now)
  | _, _ => none

def recordNativeGateDecision (input : DecisionInput) (now : String) (rows : List AuditRow) :
    List AuditRow :=
  match decisionRow input now with
  | none => rows
  | some excluded =>
      KeyedTable.upsertWith AuditRow.id
        (fun row => { row with
          decision := excluded.decision
          summary := excluded.summary
          createdAt := excluded.createdAt }) rows excluded

structure ParityReadinessRow where
  row : GateParityRow
  cutoverReady : Bool

structure ParityReadinessReport where
  authoritative : String
  shadow : String
  hasSignal : Bool
  rows : List ParityReadinessRow

/-- The pairs of the window that starts with the day `fromIso`. -/
def parityPairs (latest : Latest) (authoritative shadow fromIso : String)
    (project : Option String) (rows : List AuditRow) : List (AuditRow × AuditRow) :=
  joined (latest.per parityKey (gateDecisions authoritative fromIso project rows))
    (latest.per parityKey (gateDecisions shadow fromIso project rows))

def computeParityReadiness (localeLe : String → String → Bool)
    (cells : Option (List (Comparison × ℕ))) : ParityReadinessReport :=
  let report := computeGateParity localeLe "reviewbot" GITTENSORY_NATIVE_SOURCE cells
  { authoritative := report.authoritative
    shadow := report.shadow
    hasSignal := report.hasSignal
    rows := report.rows.map fun row => ⟨row, isParityCutoverReady row⟩ }

/-! ## What a report counts -/

section Counts

/-- The items of the project of which the condition holds. -/
def countIn (items : List Comparison) (project : String) (p : Comparison → Bool) : ℕ :=
  items.countP fun c => c.project = project ∧ comparable c ∧ p c

/-- What each number of a row counts. -/
structure RowCounts (items : List Comparison) (row : GateParityRow) : Prop where
  pairedSamples : row.pairedSamples = countIn items row.project fun _ => true
  bothMerge : row.bothMerge =
    countIn items row.project fun c => c.auth_act = "merge" ∧ c.shadow_act = "merge"
  bothClose : row.bothClose =
    countIn items row.project fun c => c.auth_act = "close" ∧ c.shadow_act = "close"
  bothHold : row.bothHold =
    countIn items row.project fun c => c.auth_act = "hold" ∧ c.shadow_act = "hold"
  disagree : row.disagree = countIn items row.project fun c => c.auth_act ≠ c.shadow_act
  unsafeDisagreements : row.unsafeDisagreements =
    countIn items row.project fun c => c.shadow_act = "merge" ∧ c.auth_act ≠ "merge"
  agreementRate : row.agreementRate =
    some (((row.bothMerge + row.bothClose + row.bothHold : ℕ) : ℚ) / row.pairedSamples)
  reasons : ∀ reason, (∃ rb ∈ row.byReasonCode, rb.reasonCode = reason) ↔
    0 < countIn items row.project fun c => c.reason = reason
  byReasonCode : ∀ rb ∈ row.byReasonCode,
    rb.paired = (countIn items row.project fun c => c.reason = rb.reasonCode) ∧
      rb.agree = (countIn items row.project fun c =>
        c.reason = rb.reasonCode ∧ c.auth_act = c.shadow_act) ∧
      rb.disagree = countIn items row.project fun c =>
        c.reason = rb.reasonCode ∧ c.auth_act ≠ c.shadow_act

variable {cells : List (Comparison × ℕ)} {items : List Comparison}

theorem counts_cellsOf {compared : List ComparisonGroup} (h : cells.Perm (cellsOf compared)) :
    Counts cells (compared.map ComparisonGroup.selected) :=
  ((counts_grouped compared).map _).perm h

theorem countIn_eq (items : List Comparison) (project : String) (p : Comparison → Bool) :
    countIn items project p =
      (items.filter comparable).countP fun c => c.project = project ∧ p c := by
  rw [countIn, List.countP_filter]
  refine List.countP_congr fun c _ => ?_
  simp only [decide_eq_true_eq, Bool.and_eq_true]
  tauto

theorem comparable_cases {c : Comparison} (h : comparable c = true) :
    (c.auth_act = "merge" ∨ c.auth_act = "close" ∨ c.auth_act = "hold") ∧
      (c.shadow_act = "merge" ∨ c.shadow_act = "close" ∨ c.shadow_act = "hold") := by
  simpa [comparable, isGateAction, or_assoc] using h

theorem addComparison_project (c : Comparison) (n : ℕ) (r : GateParityRow) :
    (addComparison c n r).project = r.project := by
  unfold addComparison
  dsimp only
  split_ifs <;> rfl

theorem addComparison_pairedSamples (c : Comparison) (n : ℕ) (r : GateParityRow) :
    (addComparison c n r).pairedSamples = r.pairedSamples + n := by
  unfold addComparison
  dsimp only
  split_ifs <;> rfl

theorem addComparison_bothMerge (c : Comparison) (n : ℕ) (r : GateParityRow) :
    (addComparison c n r).bothMerge =
      r.bothMerge + if c.auth_act = c.shadow_act ∧ c.auth_act = "merge" then n else 0 := by
  unfold addComparison
  dsimp only
  split_ifs <;> grind

theorem addComparison_bothClose (c : Comparison) (n : ℕ) (r : GateParityRow) :
    (addComparison c n r).bothClose =
      r.bothClose + if c.auth_act = c.shadow_act ∧ c.auth_act = "close" then n else 0 := by
  unfold addComparison
  dsimp only
  split_ifs <;> grind

/-- Whatever agrees without being a merge or a closure counts as a hold. -/
theorem addComparison_bothHold (c : Comparison) (n : ℕ) (r : GateParityRow) :
    (addComparison c n r).bothHold = r.bothHold +
      if c.auth_act = c.shadow_act ∧ c.auth_act ≠ "merge" ∧ c.auth_act ≠ "close" then n else 0 := by
  unfold addComparison
  dsimp only
  split_ifs <;> grind

theorem addComparison_disagree (c : Comparison) (n : ℕ) (r : GateParityRow) :
    (addComparison c n r).disagree =
      r.disagree + if c.auth_act ≠ c.shadow_act then n else 0 := by
  unfold addComparison
  dsimp only
  split_ifs <;> grind

theorem addComparison_unsafeDisagreements (c : Comparison) (n : ℕ) (r : GateParityRow) :
    (addComparison c n r).unsafeDisagreements = r.unsafeDisagreements +
      if c.auth_act ≠ c.shadow_act ∧ c.shadow_act = "merge" ∧
        (c.auth_act = "hold" ∨ c.auth_act = "close") then n else 0 := by
  unfold addComparison
  dsimp only
  split_ifs <;> grind

theorem countIn_congr {project : String} {p q : Comparison → Bool}
    (h : ∀ c, comparable c = true → (p c = true ↔ q c = true)) :
    countIn items project p = countIn items project q := by
  refine List.countP_congr fun c _ => ?_
  simp only [decide_eq_true_eq]
  constructor
  · exact fun ⟨hproject, hc, hp⟩ => ⟨hproject, hc, (h c hc).mp hp⟩
  · exact fun ⟨hproject, hc, hq⟩ => ⟨hproject, hc, (h c hc).mpr hq⟩

/-- The rows before they are finished. -/
def projectRows (cells : List (Comparison × ℕ)) : List GateParityRow :=
  tally GateParityRow.project Comparison.project (fun project => { project := project })
    addComparison (cells.filter fun cell => comparable cell.1)

theorem field_eq_countIn (h : Counts cells items) (field : GateParityRow → ℕ)
    {p : Comparison → Prop} [DecidablePred p]
    (hfield : ∀ c n r, field (addComparison c n r) = field r + if p c then n else 0)
    (hzero : ∀ project, field { project := project } = 0) {r : GateParityRow}
    (hr : r ∈ projectRows cells) : field r = countIn items r.project fun c => p c := by
  rw [countIn_eq]
  exact field_of_mem_tally addComparison_project (fun _ => rfl)
    (h.filter comparable) (fun c n r => by simpa using hfield c n r) hzero hr

theorem addReason_reasonCode (c : Comparison) (n : ℕ) (rb : ParityReasonBreakdown) :
    (addReason c n rb).reasonCode = rb.reasonCode := rfl

theorem emptyReason_reasonCode (reason : String) :
    ParityReasonBreakdown.reasonCode ⟨reason, 0, 0, 0⟩ = reason := rfl

theorem counts_project (h : Counts cells items) (project : String) :
    Counts ((cells.filter fun cell => comparable cell.1).filter
        fun cell => decide (cell.1.project = project))
      ((items.filter comparable).filter fun c => decide (c.project = project)) :=
  (h.filter comparable).filter fun c => decide (c.project = project)

theorem reason_count (h : Counts cells items) (project : String)
    (field : ParityReasonBreakdown → ℕ) {p : Comparison → Prop} [DecidablePred p]
    (hfield : ∀ c n rb, field (addReason c n rb) = field rb + if p c then n else 0)
    (hzero : ∀ reason, field ⟨reason, 0, 0, 0⟩ = 0) {rb : ParityReasonBreakdown}
    (hrb : rb ∈ reasonByProject (cells.filter fun cell => comparable cell.1) project) :
    field rb = countIn items project fun c => c.reason = rb.reasonCode ∧ p c := by
  have hcount := field_of_mem_tally addReason_reasonCode emptyReason_reasonCode
    (counts_project h project) (p := fun c => p c) (fun c n rb => by simpa using hfield c n rb)
    hzero hrb
  rw [hcount, countIn_eq, List.countP_filter]
  refine List.countP_congr fun c _ => ?_
  simp only [Bool.and_eq_true, decide_eq_true_eq]
  tauto

/-- A project has a breakdown of each reason that its compared commits have. -/
theorem exists_reasonRow_iff (h : Counts cells items) (project reason : String) :
    (∃ rb ∈ reasonByProject (cells.filter fun cell => comparable cell.1) project,
      rb.reasonCode = reason) ↔ 0 < countIn items project fun c => c.reason = reason := by
  have hreasons := @exists_row_iff _ _ _ _ _ _ Comparison.reason _ _ addReason_reasonCode
    emptyReason_reasonCode _ _ (counts_project h project) reason
  refine hreasons.trans ?_
  rw [countIn, List.countP_pos_iff]
  simp only [List.mem_filter, decide_eq_true_eq]
  exact exists_congr fun c => by tauto

theorem reasonCounts_of_mem (h : Counts cells items) (project : String)
    {rb : ParityReasonBreakdown}
    (hrb : rb ∈ reasonByProject (cells.filter fun cell => comparable cell.1) project) :
    rb.paired = (countIn items project fun c => c.reason = rb.reasonCode) ∧
      rb.agree = (countIn items project fun c =>
        c.reason = rb.reasonCode ∧ c.auth_act = c.shadow_act) ∧
      rb.disagree = countIn items project fun c =>
        c.reason = rb.reasonCode ∧ c.auth_act ≠ c.shadow_act := by
  refine ⟨?_, ?_, ?_⟩
  · refine (reason_count h project ParityReasonBreakdown.paired (p := fun _ => True)
      (fun c n rb => by simp [addReason]) (fun _ => rfl) hrb).trans ?_
    exact countIn_congr fun c _ => by simp
  · refine reason_count h project ParityReasonBreakdown.agree
      (fun c n rb => ?_) (fun _ => rfl) hrb
    simp only [addReason]
    split_ifs <;> rfl
  · refine reason_count h project ParityReasonBreakdown.disagree
      (fun c n rb => ?_) (fun _ => rfl) hrb
    simp only [addReason]
    split_ifs <;> grind

/-- What the rows of a report are, but for their order. -/
theorem mem_rows (localeLe : String → String → Bool) (authoritative shadow : String)
    {row : GateParityRow} :
    row ∈ (computeGateParity localeLe authoritative shadow (some cells)).rows ↔
      ∃ r ∈ projectRows cells, finishRow (cells.filter fun cell => comparable cell.1) r = row := by
  unfold computeGateParity
  rw [List.mem_mergeSort, List.mem_map]
  rfl

theorem exists_projectRow_iff (h : Counts cells items) (project : String) :
    (∃ r ∈ projectRows cells, r.project = project) ↔
      0 < countIn items project fun _ => true := by
  refine (exists_row_iff addComparison_project (fun _ => rfl)
    (h.filter comparable) project).trans ?_
  rw [countIn, List.countP_pos_iff]
  simp only [List.mem_filter, decide_eq_true_eq, and_true]
  exact exists_congr fun c => by tauto

theorem exists_row_iff_pos (localeLe : String → String → Bool) (authoritative shadow : String)
    (h : Counts cells items) (project : String) :
    (∃ row ∈ (computeGateParity localeLe authoritative shadow (some cells)).rows,
      row.project = project) ↔ 0 < countIn items project fun _ => true := by
  rw [← exists_projectRow_iff h]
  constructor
  · rintro ⟨row, hrow, hproject⟩
    obtain ⟨r, hr, rfl⟩ := (mem_rows localeLe authoritative shadow).mp hrow
    exact ⟨r, hr, hproject⟩
  · rintro ⟨r, hr, hproject⟩
    exact ⟨_, (mem_rows localeLe authoritative shadow).mpr ⟨r, hr, rfl⟩, hproject⟩

/-- A row of a report counts the compared commits of its project. -/
theorem rowCounts_of_mem (localeLe : String → String → Bool) (authoritative shadow : String)
    (h : Counts cells items) {row : GateParityRow}
    (hrow : row ∈ (computeGateParity localeLe authoritative shadow (some cells)).rows) :
    RowCounts items row := by
  obtain ⟨r, hr, rfl⟩ := (mem_rows localeLe authoritative shadow).mp hrow
  have hpaired : r.pairedSamples = countIn items r.project fun _ => true := by
    refine (field_eq_countIn h GateParityRow.pairedSamples (p := fun _ => True)
      (fun c n r => by simpa using addComparison_pairedSamples c n r) (fun _ => rfl) hr).trans ?_
    exact countIn_congr fun c _ => by simp
  have hpos : 0 < r.pairedSamples := hpaired ▸ (exists_projectRow_iff h r.project).mp ⟨r, hr, rfl⟩
  refine ⟨hpaired, ?_, ?_, ?_, ?_, ?_, if_pos hpos, fun reason => ?_, fun rb hrb => ?_⟩
  · refine (field_eq_countIn h GateParityRow.bothMerge addComparison_bothMerge
      (fun _ => rfl) hr).trans (countIn_congr fun c _ => ?_)
    grind
  · refine (field_eq_countIn h GateParityRow.bothClose addComparison_bothClose
      (fun _ => rfl) hr).trans (countIn_congr fun c _ => ?_)
    grind
  · refine (field_eq_countIn h GateParityRow.bothHold addComparison_bothHold
      (fun _ => rfl) hr).trans (countIn_congr fun c hc => ?_)
    have hcases := comparable_cases hc
    grind
  · have hdisagree :=
      field_eq_countIn h GateParityRow.disagree addComparison_disagree (fun _ => rfl) hr
    exact hdisagree
  · refine (field_eq_countIn h GateParityRow.unsafeDisagreements
      addComparison_unsafeDisagreements (fun _ => rfl) hr).trans (countIn_congr fun c hc => ?_)
    have hcases := comparable_cases hc
    grind
  · simp only [finishRow, List.mem_mergeSort]
    exact exists_reasonRow_iff h r.project reason
  · exact reasonCounts_of_mem h r.project (List.mem_mergeSort.mp hrb)

/-- Whatever order the groups come in, a report has one row for each project that has compared
commits, and it counts them. -/
theorem computeGateParity_rows (localeLe : String → String → Bool) (authoritative shadow : String)
    {compared : List ComparisonGroup} (h : cells.Perm (cellsOf compared)) :
    (∀ project, (∃ row ∈ (computeGateParity localeLe authoritative shadow (some cells)).rows,
        row.project = project) ↔
          0 < countIn (compared.map ComparisonGroup.selected) project fun _ => true) ∧
      ((computeGateParity localeLe authoritative shadow (some cells)).rows.map
        GateParityRow.project).Nodup ∧
      ∀ row ∈ (computeGateParity localeLe authoritative shadow (some cells)).rows,
        RowCounts (compared.map ComparisonGroup.selected) row := by
  refine ⟨exists_row_iff_pos localeLe authoritative shadow (counts_cellsOf h), ?_,
    fun row hrow => ?_⟩
  · have hnodup : ((projectRows cells).map GateParityRow.project).Nodup :=
      nodup_tally addComparison_project _
    unfold computeGateParity
    refine (((List.mergeSort_perm _ _).map _).nodup_iff).mpr ?_
    rw [List.map_map]
    exact hnodup
  · exact rowCounts_of_mem localeLe authoritative shadow (counts_cellsOf h) hrow

/-- Two commits that only the shadow would merge, one of them without a reason code and the other
with an empty one. -/
def unsafeCommits : List ComparisonGroup :=
  [⟨"acme/app", "hold", "merge", none⟩, ⟨"acme/app", "hold", "merge", some ""⟩]

def unsafeReport : GateParityReport :=
  computeGateParity (fun _ _ => true) "reviewbot" "gittensory" (some (cellsOf unsafeCommits))

theorem unsafe_commits : (unsafeReport.rows.map GateParityRow.project).Nodup ∧
    ∀ row ∈ unsafeReport.rows, RowCounts (unsafeCommits.map ComparisonGroup.selected) row :=
  (computeGateParity_rows _ _ _ (List.Perm.refl _)).2

end Counts

/-! ## One row a commit -/

/-- Two texts are cut alike at their first mark. -/
theorem cut_inj {α : Type*} {mark : α} {front back front' back' : List α} (h : mark ∉ front)
    (h' : mark ∉ front') (heq : front ++ mark :: back = front' ++ mark :: back') :
    front = front' ∧ back = back' := by
  induction front generalizing front' with
  | nil =>
    cases front' with
    | nil => exact ⟨rfl, (List.cons.inj heq).2⟩
    | cons first rest => exact absurd ((List.cons.inj heq).1 ▸ List.mem_cons_self) h'
  | cons first rest ih =>
    cases front' with
    | nil => exact absurd ((List.cons.inj heq).1 ▸ List.mem_cons_self) h
    | cons first' rest' =>
      obtain ⟨hfirst, hrest⟩ := List.cons.inj heq
      rw [List.mem_cons, not_or] at h h'
      obtain ⟨hfront, hback⟩ := ih h.2 h'.2 hrest
      exact ⟨congrArg₂ _ hfirst hfront, hback⟩

/-- The same at the last mark. -/
theorem cut_last_inj {α : Type*} {mark : α} {front back front' back' : List α} (h : mark ∉ back)
    (h' : mark ∉ back') (heq : front ++ mark :: back = front' ++ mark :: back') :
    front = front' ∧ back = back' := by
  have hreverse : back.reverse ++ mark :: front.reverse =
      back'.reverse ++ mark :: front'.reverse := by
    simpa using congrArg List.reverse heq
  obtain ⟨hback, hfront⟩ := cut_inj (by simpa using h) (by simpa using h') hreverse
  exact ⟨List.reverse_injective hfront, List.reverse_injective hback⟩

theorem targetIdOf_inj {project project' : String} {pullNumber pullNumber' : ℕ}
    (h : targetIdOf project pullNumber = targetIdOf project' pullNumber') :
    project = project' ∧ pullNumber = pullNumber' := by
  have htexts := congrArg String.toList h
  simp only [targetIdOf, String.toList_append, List.append_assoc] at htexts
  have hmark : '#' ∉ (toString pullNumber).toList := not_mem_toString rfl _
  have hmark' : '#' ∉ (toString pullNumber').toList := not_mem_toString rfl _
  obtain ⟨hproject, hnumber⟩ := cut_last_inj hmark hmark' htexts
  exact ⟨String.toList_inj.mp hproject,
    DuplicateClusters.toString_injective (String.toList_inj.mp hnumber)⟩

/-- A row's id tells its target and commit apart from every other's. -/
theorem rowId_inj {project project' headSha headSha' : String} {pullNumber pullNumber' : ℕ}
    (hsha : '@' ∉ headSha.toList) (hsha' : '@' ∉ headSha'.toList)
    (h : rowId project pullNumber headSha = rowId project' pullNumber' headSha') :
    project = project' ∧ pullNumber = pullNumber' ∧ headSha = headSha' := by
  have htexts := congrArg String.toList h
  simp only [rowId, String.append_assoc] at htexts
  simp only [String.toList_append] at htexts
  have htail := List.append_cancel_left (List.append_cancel_left (List.append_cancel_left htexts))
  obtain ⟨htarget, hhead⟩ := cut_last_inj hsha hsha' htail
  obtain ⟨hproject, hnumber⟩ := targetIdOf_inj (String.toList_inj.mp htarget)
  exact ⟨hproject, hnumber, String.toList_inj.mp hhead⟩

/-! ## The table over a run -/

/-- `insert` is a row of another writer; one whose id is taken fails. -/
inductive Event where
  | record (input : DecisionInput) (now : String)
  | insert (row : AuditRow)

def step (rows : List AuditRow) : Event → List AuditRow
  | .record input now => recordNativeGateDecision input now rows
  | .insert row => if rows.any fun stored => stored.id = row.id then rows else rows ++ [row]

/-- A row of a recorded decision. -/
def Native (row : AuditRow) : Prop :=
  ∃ project pullNumber headSha action summary now, '@' ∉ headSha.toList ∧
    row = nativeRow project pullNumber headSha action summary now

/-- A row of another writer, which has ids of its own. -/
def Foreign (row : AuditRow) : Prop :=
  row.source ≠ GITTENSORY_NATIVE_SOURCE ∧
    ∀ project pullNumber headSha, row.id ≠ rowId project pullNumber headSha

def Admissible : Event → Prop
  | .record input _ => ∀ headSha, input.headSha = some headSha → '@' ∉ headSha.toList
  | .insert row => Foreign row

def recordedRow : Event → Option AuditRow
  | .record input now => decisionRow input now
  | .insert _ => none

/-- The row of the last decision recorded for a commit. -/
def lastDecision (events : List Event) (key : String × String × Option String) :
    Option AuditRow :=
  ((events.filterMap recordedRow).filter fun row => parityKey row = key).getLast?

theorem native_of_decisionRow {input : DecisionInput} {now : String} {row : AuditRow}
    (hadmissible : Admissible (.record input now)) (h : decisionRow input now = some row) :
    Native row := by
  unfold decisionRow at h
  split at h
  · next action headSha _ hsha =>
    obtain rfl := Option.some.inj h
    have hinput : input.headSha = some headSha := (Option.filter_eq_some_iff.mp hsha).1
    exact ⟨_, _, _, _, _, _, hadmissible headSha hinput, rfl⟩
  · cases h

theorem Native.source {row : AuditRow} (h : Native row) :
    row.source = GITTENSORY_NATIVE_SOURCE := by
  obtain ⟨_, _, _, _, _, _, _, rfl⟩ := h
  rfl

theorem not_native_of_foreign {row : AuditRow} (h : Foreign row) : ¬ Native row :=
  fun hnative => h.1 hnative.source

theorem Native.id_ne {row foreign : AuditRow} (h : Native row) (hforeign : Foreign foreign) :
    foreign.id ≠ row.id := by
  obtain ⟨project, pullNumber, headSha, _, _, _, _, rfl⟩ := h
  exact hforeign.2 project pullNumber headSha

/-- The rows of one id are of one commit, and differ only in the columns that an update sets. -/
theorem Native.id_iff {row other : AuditRow} (h : Native row) (hother : Native other) :
    (row.id = other.id ↔ parityKey row = parityKey other) ∧
      (row.id = other.id → { row with
        decision := other.decision
        summary := other.summary
        createdAt := other.createdAt } = other) := by
  obtain ⟨project, pullNumber, headSha, action, summary, now, hsha, rfl⟩ := h
  obtain ⟨project', pullNumber', headSha', action', summary', now', hsha', rfl⟩ := hother
  refine ⟨⟨fun hid => ?_, fun hkey => ?_⟩, fun hid => ?_⟩
  · obtain ⟨rfl, rfl, rfl⟩ := rowId_inj hsha hsha' hid
    rfl
  · obtain ⟨hproject, htarget⟩ := Prod.mk.inj hkey
    obtain ⟨htarget, hhead⟩ := Prod.mk.inj htarget
    obtain ⟨-, rfl⟩ := targetIdOf_inj htarget
    obtain rfl : project = project' := hproject
    obtain rfl := Option.some.inj hhead
    rfl
  · obtain ⟨rfl, rfl, rfl⟩ := rowId_inj hsha hsha' hid
    rfl

/-- Rows are of one writer or the other, and of the decisions exactly the last of each commit
has its row. -/
structure Kept (events : List Event) (rows : List AuditRow) : Prop where
  nodup : (rows.map AuditRow.id).Nodup
  origin : ∀ row ∈ rows, Native row ∨ Foreign row
  native : ∀ row, Native row → (row ∈ rows ↔ lastDecision events (parityKey row) = some row)

theorem lastDecision_append (events : List Event) (event : Event)
    (key : String × String × Option String) :
    lastDecision (events ++ [event]) key =
      (((recordedRow event).filter fun row => parityKey row = key)).or
        (lastDecision events key) := by
  rw [lastDecision, List.filterMap_append, List.filter_append, List.getLast?_append]
  rcases hrow : recordedRow event with _ | row
  · simp [hrow, lastDecision]
  · by_cases hkey : parityKey row = key <;> simp [hrow, hkey, lastDecision, Option.filter]

theorem mem_recordNativeGateDecision {rows : List AuditRow} {input : DecisionInput} {now : String}
    {excluded : AuditRow} (hexcluded : decisionRow input now = some excluded)
    (hnative : Native excluded) (hnodup : (rows.map AuditRow.id).Nodup)
    (horigin : ∀ row ∈ rows, Native row ∨ Foreign row) (row : AuditRow) :
    row ∈ recordNativeGateDecision input now rows ↔
      if row.id = excluded.id then row = excluded else row ∈ rows := by
  let change : AuditRow → AuditRow := fun row => { row with
    decision := excluded.decision
    summary := excluded.summary
    createdAt := excluded.createdAt }
  have hchange : ∀ stored, (change stored).id = stored.id := fun _ => rfl
  have hrecord : recordNativeGateDecision input now rows =
      KeyedTable.upsertWith AuditRow.id change rows excluded := by
    rw [recordNativeGateDecision, hexcluded]
  have hnodup' : ((KeyedTable.upsertWith AuditRow.id change rows excluded).map
      AuditRow.id).Nodup := by
    rw [KeyedTable.map_key_upsertWith AuditRow.id hchange]
    split_ifs with hmem
    · exact hnodup
    · rw [← List.concat_eq_append]
      exact hnodup.concat hmem
  have hlookup : ∀ {table : List AuditRow}, (table.map AuditRow.id).Nodup →
      (row ∈ table ↔ KeyedTable.lookup AuditRow.id table row.id = some row) := fun hnodup =>
    (and_iff_left rfl).symm.trans (KeyedTable.lookup_eq_some_iff AuditRow.id hnodup).symm
  rw [hrecord, hlookup hnodup', KeyedTable.lookup_upsertWith AuditRow.id hchange]
  split_ifs with hid
  · -- The row that was there becomes the new one.
    have hnew : ((KeyedTable.lookup AuditRow.id rows row.id).map change).getD excluded =
        excluded := by
      rcases hold : KeyedTable.lookup AuditRow.id rows row.id with _ | old
      · rfl
      · obtain ⟨hmem, hkey⟩ := KeyedTable.mem_of_lookup AuditRow.id hold
        rcases horigin old hmem with hold | hold
        · exact (hold.id_iff hnative).2 (hkey.trans hid)
        · exact absurd (hkey.trans hid) (hnative.id_ne hold)
    rw [hnew, Option.some.injEq, eq_comm]
  · exact (hlookup hnodup).symm

theorem kept_step {events : List Event} {rows : List AuditRow} (h : Kept events rows)
    {event : Event} (hevent : Admissible event) :
    Kept (events ++ [event]) (step rows event) := by
  cases event with
  | record input now =>
    rcases hrow : decisionRow input now with _ | excluded
    · have hsame : step rows (.record input now) = rows := by
        rw [step, recordNativeGateDecision, hrow]
      rw [hsame]
      refine ⟨h.nodup, h.origin, fun row hnative => ?_⟩
      rw [lastDecision_append, h.native row hnative]
      simp [recordedRow, hrow]
    · have hexcluded := native_of_decisionRow hevent hrow
      have hmem := mem_recordNativeGateDecision hrow hexcluded h.nodup h.origin
      refine ⟨?_, fun row hstored => ?_, fun row hnative => ?_⟩
      · rw [step, recordNativeGateDecision, hrow, KeyedTable.map_key_upsertWith AuditRow.id]
        · split_ifs with hkey
          · exact h.nodup
          · rw [← List.concat_eq_append]
            exact h.nodup.concat hkey
        · exact fun _ => rfl
      · have hcases := (hmem row).mp hstored
        split_ifs at hcases
        · exact Or.inl (hcases ▸ hexcluded)
        · exact h.origin row hcases
      · rw [step, hmem, lastDecision_append, recordedRow, hrow]
        have hkey := (hnative.id_iff hexcluded).1
        split_ifs with hid
        · simp [(hkey.mp hid).symm, Option.filter, eq_comm]
        · have hother : parityKey excluded ≠ parityKey row := fun heq => hid (hkey.mpr heq.symm)
          simp [hother, Option.filter, h.native row hnative]
  | insert foreign =>
    have hlast : ∀ key, lastDecision (events ++ [.insert foreign]) key = lastDecision events key :=
      fun key => by rw [lastDecision_append]; rfl
    rw [step]
    split_ifs with hany
    · exact ⟨h.nodup, h.origin, fun row hnative => (hlast _).symm ▸ h.native row hnative⟩
    · have hfresh : foreign.id ∉ rows.map AuditRow.id := by simpa using hany
      refine ⟨?_, fun row hrow => ?_, fun row hnative => ?_⟩
      · rw [List.map_append, List.map_singleton, ← List.concat_eq_append]
        exact h.nodup.concat hfresh
      · rcases List.mem_append.mp hrow with hold | hnew
        · exact h.origin row hold
        · exact Or.inr (List.mem_singleton.mp hnew ▸ hevent)
      · have hne : row ≠ foreign := fun heq => not_native_of_foreign hevent (heq ▸ hnative)
        rw [hlast, ← h.native row hnative]
        simp [hne]

theorem kept_run {events : List Event} (hevents : ∀ event ∈ events, Admissible event) :
    Kept events (run step [] events) := by
  induction events using List.reverseRecOn with
  | nil =>
    refine ⟨List.nodup_nil, fun _ => nofun, fun row _ => ?_⟩
    exact ⟨nofun, nofun⟩
  | append_singleton events event ih =>
    rw [run_append]
    exact kept_step (ih fun earlier hearlier => hevents earlier (List.mem_append_left _ hearlier))
      (hevents event (List.mem_append_right _ (List.mem_singleton.mpr rfl)))

/-! ## Cutting over -/

theorem mem_joined {auth shad : List AuditRow} {left right : AuditRow} :
    (left, right) ∈ joined auth shad ↔
      left ∈ auth ∧ right ∈ shad ∧ parityKey left = parityKey right := by
  simp [joined]

/-- A commit whose last decision is in the window is compared by that decision. -/
theorem native_mem_per (latest : Latest) {events : List Event}
    (hevents : ∀ event ∈ events, Admissible event) {fromIso : String}
    {key : String × String × Option String} {native : AuditRow}
    (hlast : lastDecision events key = some native)
    (hwindow : textLe fromIso native.createdAt = true) :
    parityKey native = key ∧ native ∈ latest.per parityKey
      (gateDecisions GITTENSORY_NATIVE_SOURCE fromIso none (run step [] events)) := by
  have hkept := kept_run hevents
  have hrecorded := List.mem_filter.mp (List.mem_of_getLast? hlast)
  have hkey : parityKey native = key := of_decide_eq_true hrecorded.2
  have hnative : Native native := by
    obtain ⟨event, hevent, hrow⟩ := List.mem_filterMap.mp hrecorded.1
    cases event with
    | record input now => exact native_of_decisionRow (hevents _ hevent) hrow
    | insert row => cases hrow
  have hstored : native ∈ run step [] events := (hkept.native native hnative).mpr (hkey ▸ hlast)
  -- Another row of the writer for this commit is this row.
  have honly : ∀ row ∈ (gateDecisions GITTENSORY_NATIVE_SOURCE fromIso none
      (run step [] events)).filter fun other => parityKey other = parityKey native,
      row = native := by
    intro row hrow
    obtain ⟨hdecision, hsame⟩ := List.mem_filter.mp hrow
    obtain ⟨hrow, hsource⟩ := List.mem_filter.mp hdecision
    simp only [Bool.and_eq_true, decide_eq_true_eq] at hsource
    rcases hkept.origin row hrow with hrowNative | hforeign
    · have hlast' := (hkept.native row hrowNative).mp hrow
      rw [of_decide_eq_true hsame, hkey, hlast] at hlast'
      exact (Option.some.inj hlast').symm
    · exact absurd hsource.1.1.2 hforeign.1
  refine ⟨hkey, (latest.mem_per).mpr ?_⟩
  have hmem : native ∈ (gateDecisions GITTENSORY_NATIVE_SOURCE fromIso none
      (run step [] events)).filter fun other => parityKey other = parityKey native := by
    refine List.mem_filter.mpr ⟨List.mem_filter.mpr ⟨hstored, ?_⟩, decide_eq_true rfl⟩
    obtain ⟨project, pullNumber, headSha, action, summary, now, -, rfl⟩ := hnative
    simpa [nativeRow] using hwindow
  obtain ⟨picked, hpicked⟩ := latest.some_of_mem hmem
  rw [hpicked, honly picked (latest.mem hpicked)]

/-- If on one commit of a project the last recorded decision is a merge and the latest decision
of the other system in the window is to hold or to close, the report has the project and it is
not ready to be cut over. -/
theorem not_cutoverReady (localeLe : String → String → Bool) (latest : Latest)
    {events : List Event} (hevents : ∀ event ∈ events, Admissible event) {fromIso : String}
    {cells : List (Comparison × ℕ)}
    (hcells : cells.Perm (cellsOf ((parityPairs latest "reviewbot" GITTENSORY_NATIVE_SOURCE fromIso
      none (run step [] events)).map comparison)))
    {native auth : AuditRow} (hlast : lastDecision events (parityKey auth) = some native)
    (hwindow : textLe fromIso native.createdAt = true) (hmerge : native.decision = some "merge")
    (hauth : auth ∈ latest.per parityKey
      (gateDecisions "reviewbot" fromIso none (run step [] events)))
    (hact : auth.decision = some "hold" ∨ auth.decision = some "close") :
    (∃ ready ∈ (computeParityReadiness localeLe (some cells)).rows,
        ready.row.project = auth.project) ∧
      ∀ ready ∈ (computeParityReadiness localeLe (some cells)).rows,
        ready.row.project = auth.project → ready.cutoverReady = false := by
  obtain ⟨hkey, hnative⟩ := native_mem_per latest hevents hlast hwindow
  have hpair : (auth, native) ∈ parityPairs latest "reviewbot" GITTENSORY_NATIVE_SOURCE fromIso none
      (run step [] events) := mem_joined.mpr ⟨hauth, hnative, hkey.symm⟩
  have hcounts := counts_cellsOf hcells
  have hitem := List.mem_map_of_mem (f := ComparisonGroup.selected)
    (List.mem_map_of_mem (f := comparison) hpair)
  have hcomparable : comparable (comparison (auth, native)).selected = true := by
    rcases hact with hact | hact <;>
      simp [comparable, comparison, ComparisonGroup.selected, isGateAction, hmerge, hact]
  have hunsafe : (comparison (auth, native)).selected.shadow_act = "merge" ∧
      (comparison (auth, native)).selected.auth_act ≠ "merge" := by
    rcases hact with hact | hact <;> simp [comparison, ComparisonGroup.selected, hmerge, hact]
  refine ⟨?_, ?_⟩
  · have hpos : 0 < countIn (((parityPairs latest "reviewbot" GITTENSORY_NATIVE_SOURCE fromIso none
        (run step [] events)).map comparison).map ComparisonGroup.selected) auth.project
          fun _ => true :=
      List.countP_pos_iff.mpr ⟨_, hitem, decide_eq_true ⟨rfl, hcomparable, rfl⟩⟩
    obtain ⟨row, hrow, hproject⟩ :=
      (exists_row_iff_pos localeLe "reviewbot" GITTENSORY_NATIVE_SOURCE hcounts _).mpr hpos
    exact ⟨⟨row, isParityCutoverReady row⟩, List.mem_map_of_mem hrow, hproject⟩
  · intro ready hready hproject
    obtain ⟨row, hrow, rfl⟩ := List.mem_map.mp hready
    have hcounted := rowCounts_of_mem localeLe "reviewbot" GITTENSORY_NATIVE_SOURCE hcounts hrow
    have hpos : 0 < row.unsafeDisagreements := by
      rw [hcounted.unsafeDisagreements]
      exact List.countP_pos_iff.mpr
        ⟨_, hitem, decide_eq_true ⟨hproject.symm, hcomparable, decide_eq_true hunsafe⟩⟩
    simp [isParityCutoverReady, Nat.ne_of_gt hpos]

/-! ## A run with a hold -/

theorem textLe_iff {left right : String} :
    textLe left right = true ↔ codeUnits left ≤ codeUnits right := by
  simp [textLe, textLt]

/-- The first of the latest rows. -/
def pickLatest : List AuditRow → Option AuditRow
  | [] => none
  | row :: rows =>
      match pickLatest rows with
      | none => some row
      | some best => if textLe best.createdAt row.createdAt then some row else some best

theorem pickLatest_spec (rows : List AuditRow) :
    (∀ row, pickLatest rows = some row → row ∈ rows ∧
      ∀ other ∈ rows, textLe other.createdAt row.createdAt = true) ∧
      (pickLatest rows = none → rows = []) := by
  induction rows with
  | nil => exact ⟨nofun, fun _ => rfl⟩
  | cons row rows ih =>
    simp only [pickLatest]
    rcases hbest : pickLatest rows with _ | best
    · rw [ih.2 hbest]
      refine ⟨fun found hfound => ?_, nofun⟩
      obtain rfl := Option.some.inj hfound
      simp [textLe_iff]
    · obtain ⟨hmem, hlatest⟩ := ih.1 best hbest
      simp only
      split_ifs with hle
      · refine ⟨fun found hfound => ?_, nofun⟩
        obtain rfl := Option.some.inj hfound
        refine ⟨List.mem_cons_self, fun other hother => ?_⟩
        rcases List.mem_cons.mp hother with rfl | hother
        · exact textLe_iff.mpr (le_refl _)
        · exact textLe_iff.mpr
            (le_trans (textLe_iff.mp (hlatest other hother)) (textLe_iff.mp hle))
      · refine ⟨fun found hfound => ?_, nofun⟩
        obtain rfl := Option.some.inj hfound
        refine ⟨List.mem_cons_of_mem _ hmem, fun other hother => ?_⟩
        rcases List.mem_cons.mp hother with rfl | hother
        · rw [textLe_iff] at hle ⊢
          exact (le_total _ _).resolve_left hle
        · exact hlatest other hother

def firstLatest : Latest where
  pick := pickLatest
  mem h := ((pickLatest_spec _).1 _ h).1
  latest h := ((pickLatest_spec _).1 _ h).2
  some_of_mem := by
    intro rows row hrow
    rcases hpick : pickLatest rows with _ | picked
    · rw [(pickLatest_spec rows).2 hpick] at hrow
      cases hrow
    · exact ⟨picked, rfl⟩

def heldRow : AuditRow where
  id := "r1"
  project := "acme/app"
  targetId := "acme/app#7"
  decision := some "hold"
  source := "reviewbot"
  headSha := some "c0ffee"
  summary := none
  createdAt := "2026-07-02T00:00:00.000Z"

/-- The gate passes a commit that the other system holds. -/
def heldRun : List Event :=
  [.record ⟨"acme/app", 7, some "c0ffee", .success, none⟩ "2026-07-01T00:00:00.000Z",
    .insert heldRow]

theorem heldRun_admissible : ∀ event ∈ heldRun, Admissible event := by
  simp only [heldRun, List.mem_cons, List.not_mem_nil, or_false, forall_eq_or_imp, forall_eq]
  refine ⟨fun headSha hsha => ?_, by decide, fun project pullNumber headSha hid => ?_⟩
  · cases hsha
    decide
  · have hfirst := congrArg (fun text => text.toList.head?) hid
    simp [rowId, heldRow] at hfirst

theorem heldRun_not_cutoverReady :
    (∃ ready ∈ (computeParityReadiness (fun _ _ => true)
        (some (cellsOf ((parityPairs firstLatest "reviewbot" GITTENSORY_NATIVE_SOURCE "2026-06-01"
          none (run step [] heldRun)).map comparison)))).rows,
        ready.row.project = heldRow.project) ∧
      ∀ ready ∈ (computeParityReadiness (fun _ _ => true)
        (some (cellsOf ((parityPairs firstLatest "reviewbot" GITTENSORY_NATIVE_SOURCE "2026-06-01"
          none (run step [] heldRun)).map comparison)))).rows,
        ready.row.project = heldRow.project → ready.cutoverReady = false :=
  have hlast : lastDecision heldRun (parityKey heldRow) =
      some (nativeRow "acme/app" 7 "c0ffee" "merge" none "2026-07-01T00:00:00.000Z") := by decide
  not_cutoverReady _ firstLatest heldRun_admissible (List.Perm.refl _) hlast (by decide) rfl
    (by decide) (Or.inl rfl)

end Gittensory.GateParity
