import Gittensory.IsoTimestamp
import Mathlib.Data.List.Count
import Mathlib.Tactic.SplitIfs

/-!
The pruning of old records (`db/retention.ts`, `pruneExpiredRecords`). Each table of the policy
is emptied of its rows older than the window in batches, until a batch is not full or the
table's share of the run is used up; other requests may add rows between two batches.
-/
namespace Gittensory.Retention

open IsoTimestamp

structure RetentionRule where
  table : String
  column : String
  days : ℕ
  deriving DecidableEq, Repr

def RETENTION_POLICY : List RetentionRule := [
  ⟨"audit_events", "created_at", 90⟩,
  ⟨"ai_usage_events", "created_at", 90⟩,
  ⟨"product_usage_events", "occurred_at", 180⟩,
  ⟨"github_rate_limit_observations", "observed_at", 30⟩,
  ⟨"signal_snapshots", "generated_at", 90⟩,
  ⟨"score_previews", "generated_at", 90⟩,
  ⟨"repo_snapshots", "fetched_at", 90⟩]

/-- A row and its timestamp in the column of the rule, which may be null. -/
structure Row where
  rowid : ℕ
  timestamp : Option String
  deriving DecidableEq, Repr

structure PruneResult where
  table : String
  column : String
  cutoff : String
  deleted : ℕ
  deriving DecidableEq, Repr

/-- `/^[a-z_]+$/` -/
def isSafeIdentifier (name : String) : Bool :=
  name ≠ "" && name.toList.all fun letter => letter = '_' || ('a' ≤ letter && letter ≤ 'z')

def BATCH_SIZE : ℕ := 1000

def MAX_DELETED_PER_TABLE : ℕ := 50000

/-- A date out of range throws. -/
def cutoffIso (days : ℕ) (nowMs : ℤ) : Option String := toISOString (nowMs - days * MS_PER_DAY)

/-- `column < ?1`; a null is not less than anything. -/
def expired (cutoff : String) (row : Row) : Bool :=
  match row.timestamp with
  | none => false
  | some timestamp => textLt timestamp cutoff

/-- `DELETE` of the first rows, at most `limit`, that the condition holds of. -/
def deleteFirst {α : Type*} (condition : α → Bool) : ℕ → List α → List α
  | 0, rows => rows
  | _, [] => []
  | limit + 1, row :: rows =>
      if condition row then deleteFirst condition limit rows
      else row :: deleteFirst condition (limit + 1) rows

section Batches

-- `arrive n` are the rows added before the n-th statement on the table.
variable (cutoff : String) (batchSize maxPerTable : ℕ) (arrive : ℕ → List Row)

/-- The loop over batches; `none` when the fuel is used up. -/
def pruneLoop : ℕ → ℕ → List Row → ℕ → Option (List Row × ℕ)
  | 0, _, _, _ => none
  | fuel + 1, statement, rows, deleted =>
      let scanned := rows ++ arrive statement
      let changes := min batchSize (scanned.countP (expired cutoff))
      let left := deleteFirst (expired cutoff) batchSize scanned
      if changes < batchSize ∨ maxPerTable ≤ deleted + changes then some (left, deleted + changes)
      else pruneLoop fuel (statement + 1) left (deleted + changes)

end Batches

abbrev Database := String → List Row

structure PruneOptions where
  dryRun : Bool := false
  policy : List RetentionRule := RETENTION_POLICY
  batchSize : ℕ := BATCH_SIZE
  maxPerTable : ℕ := MAX_DELETED_PER_TABLE

/-- The rules one after the other; a throw leaves what was deleted before it deleted. -/
def pruneRules (options : PruneOptions) (nowMs : ℤ) (arrivals : String → ℕ → List Row) (fuel : ℕ) :
    List RetentionRule → Database → Option (Database × Except String (List PruneResult))
  | [], db => some (db, .ok [])
  | rule :: rest, db =>
      if !isSafeIdentifier rule.table || !isSafeIdentifier rule.column then
        some (db, .error ("Unsafe retention identifier: " ++ rule.table ++ "." ++ rule.column))
      else
        match cutoffIso rule.days nowMs with
        | none => some (db, .error "Invalid time value")
        | some cutoff =>
            let swept :=
              if options.dryRun then
                let rows := db rule.table ++ arrivals rule.table 0
                some (rows, rows.countP (expired cutoff))
              else pruneLoop cutoff options.batchSize options.maxPerTable (arrivals rule.table)
                fuel 0 (db rule.table) 0
            match swept with
            | none => none
            | some (left, deleted) =>
                match pruneRules options nowMs arrivals fuel rest
                    (Function.update db rule.table left) with
                | none => none
                | some (db, .error error) => some (db, .error error)
                | some (db, .ok results) =>
                    some (db, .ok (⟨rule.table, rule.column, cutoff, deleted⟩ :: results))

def pruneExpiredRecords (options : PruneOptions) (nowMs : ℤ) (arrivals : String → ℕ → List Row)
    (fuel : ℕ) (db : Database) : Option (Database × Except String (List PruneResult)) :=
  pruneRules options nowMs arrivals fuel options.policy db

/-! ## One table -/

theorem filter_deleteFirst {α : Type*} (condition : α → Bool) (limit : ℕ) (rows : List α) :
    (deleteFirst condition limit rows).filter (fun row => !condition row) =
      rows.filter fun row => !condition row := by
  fun_induction deleteFirst condition limit rows with
  | case1 => rfl
  | case2 => rfl
  | case3 limit row rows hrow ih => rw [ih, List.filter_cons_of_neg (by simp [hrow])]
  | case4 limit row rows hrow ih =>
    rw [List.filter_cons_of_pos (by simp [hrow]), List.filter_cons_of_pos (by simp [hrow]), ih]

theorem countP_deleteFirst {α : Type*} (condition : α → Bool) (limit : ℕ) (rows : List α) :
    (deleteFirst condition limit rows).countP condition + min limit (rows.countP condition) =
      rows.countP condition := by
  fun_induction deleteFirst condition limit rows with
  | case1 => simp
  | case2 => simp
  | case3 limit row rows hrow ih =>
    rw [List.countP_cons_of_pos hrow]
    omega
  | case4 limit row rows hrow ih =>
    rw [List.countP_cons_of_neg hrow, List.countP_cons_of_neg hrow]
    exact ih

section Tables

variable {cutoff : String} {batchSize maxPerTable : ℕ} {arrive : ℕ → List Row}

/-- The rows added before the first statements on the table. -/
def arrived (arrive : ℕ → List Row) (statements : ℕ) : List Row :=
  (List.range statements).flatMap arrive

/-- What a run makes of a table: rows that are not expired are kept in their order, along with
those that came meanwhile, and expired ones are deleted to the last, or up to the table's share
and less than a batch beyond. -/
structure Pruned (cutoff : String) (batchSize maxPerTable : ℕ) (arrive : ℕ → List Row)
    (before after : List Row) (deleted : ℕ) : Prop where
  bounded : deleted < maxPerTable + batchSize
  cleared : deleted < maxPerTable → after.countP (expired cutoff) = 0
  kept : ∃ statements, after.filter (fun row => !expired cutoff row) =
      (before ++ arrived arrive statements).filter (fun row => !expired cutoff row) ∧
    deleted + after.countP (expired cutoff) =
      (before ++ arrived arrive statements).countP (expired cutoff)

/-- One run over a table whose first statements deleted some rows already. -/
theorem pruneLoop_spec (hbatch : 0 < batchSize) (before : List Row) :
    ∀ (fuel statement : ℕ) (rows : List Row) (deleted : ℕ), deleted < maxPerTable →
      maxPerTable - deleted ≤ fuel * batchSize →
      rows.filter (fun row => !expired cutoff row) =
        (before ++ arrived arrive statement).filter (fun row => !expired cutoff row) →
      deleted + rows.countP (expired cutoff) =
        (before ++ arrived arrive statement).countP (expired cutoff) →
      ∃ left total, pruneLoop cutoff batchSize maxPerTable arrive fuel statement rows deleted =
        some (left, total) ∧ Pruned cutoff batchSize maxPerTable arrive before left total
  | 0, _, _, deleted, hdeleted, hfuel, _, _ => by omega
  | fuel + 1, statement, rows, deleted, hdeleted, hfuel, hfilter, hcount => by
    have hscanned : before ++ arrived arrive (statement + 1) =
        before ++ arrived arrive statement ++ arrive statement := by
      rw [arrived, List.range_succ, List.flatMap_append, ← List.append_assoc]
      simp [arrived]
    have hkept := filter_deleteFirst (expired cutoff) batchSize (rows ++ arrive statement)
    have hgone := countP_deleteFirst (expired cutoff) batchSize (rows ++ arrive statement)
    have hyoung : (deleteFirst (expired cutoff) batchSize (rows ++ arrive statement)).filter
        (fun row => !expired cutoff row) =
          (before ++ arrived arrive (statement + 1)).filter (fun row => !expired cutoff row) := by
      rw [hkept, hscanned, List.filter_append, hfilter, ← List.filter_append]
    have hold : (rows ++ arrive statement).countP (expired cutoff) + deleted =
        (before ++ arrived arrive (statement + 1)).countP (expired cutoff) := by
      rw [List.countP_append] at hcount
      rw [hscanned]
      simp only [List.countP_append]
      omega
    rw [pruneLoop]
    split_ifs with hlast
    · refine ⟨_, _, rfl, ?_, ?_, statement + 1, hyoung, ?_⟩
      · omega
      · omega
      · omega
    · have hfull : min batchSize ((rows ++ arrive statement).countP (expired cutoff)) =
          batchSize := by omega
      have hroom : (fuel + 1) * batchSize = fuel * batchSize + batchSize := Nat.succ_mul _ _
      exact pruneLoop_spec hbatch before fuel (statement + 1) _ _ (by omega) (by omega) hyoung
        (by omega)

end Tables

/-! ## The policy -/

/-- A row stamped when it was written is expired exactly if it is older than the window. -/
theorem expired_iff {days : ℕ} {nowMs stamped : ℤ} {cutoff : String} {row : Row}
    (hcutoff : cutoffIso days nowMs = some cutoff)
    (hyear : FourDigitYear (nowMs - days * MS_PER_DAY)) (hstamped : FourDigitYear stamped)
    (hrow : row.timestamp = toISOString stamped) :
    expired cutoff row = true ↔ stamped < nowMs - days * MS_PER_DAY := by
  rw [cutoffIso, toISOString_of_fourDigitYear hyear] at hcutoff
  rw [toISOString_of_fourDigitYear hstamped] at hrow
  obtain rfl := Option.some.inj hcutoff
  have hexpired : ∀ cutoff, expired cutoff row = textLt (ofCodes (isoCodes stamped)) cutoff := by
    intro cutoff
    rw [expired, hrow]
  rw [hexpired]
  refine ⟨fun h => ?_, iso_lt hstamped hyear⟩
  by_contra hyoung
  rcases (not_lt.mp hyoung).lt_or_eq with hlater | heq
  · have hback := iso_lt hyear hstamped hlater
    simp only [textLt, decide_eq_true_eq] at h hback
    exact List.lt_asymm h hback
  · simp only [heq, textLt, decide_eq_true_eq] at h
    exact List.lt_irrefl _ h

variable {options : PruneOptions} {nowMs : ℤ} {arrivals : String → ℕ → List Row} {fuel : ℕ}

theorem pruneRules_spec (hdry : options.dryRun = false) (hbatch : 0 < options.batchSize)
    (hmax : 0 < options.maxPerTable) (hfuel : options.maxPerTable ≤ fuel * options.batchSize) :
    ∀ (policy : List RetentionRule) (db : Database), (policy.map (·.table)).Nodup →
      (∀ rule ∈ policy, isSafeIdentifier rule.table = true ∧ isSafeIdentifier rule.column = true) →
      (∀ rule ∈ policy, (cutoffIso rule.days nowMs).isSome) →
      ∃ db' results, pruneRules options nowMs arrivals fuel policy db = some (db', .ok results) ∧
        (∀ table, table ∉ policy.map (·.table) → db' table = db table) ∧
        results.map (·.table) = policy.map (·.table) ∧
        ∀ rule ∈ policy, ∃ result ∈ results, result.table = rule.table ∧
          cutoffIso rule.days nowMs = some result.cutoff ∧
          Pruned result.cutoff options.batchSize options.maxPerTable (arrivals rule.table)
            (db rule.table) (db' rule.table) result.deleted
  | [], db, _, _, _ => ⟨db, [], rfl, fun _ _ => rfl, rfl, fun _ h => absurd h List.not_mem_nil⟩
  | rule :: rest, db, hnodup, hsafe, hcutoff => by
    obtain ⟨hfresh, hnodup⟩ := List.nodup_cons.mp hnodup
    obtain ⟨⟨htable, hcolumn⟩, hsafe⟩ := List.forall_mem_cons.mp hsafe
    obtain ⟨hdate, hcutoff⟩ := List.forall_mem_cons.mp hcutoff
    obtain ⟨cutoff, hdate⟩ := Option.isSome_iff_exists.mp hdate
    obtain ⟨left, deleted, hloop, hpruned⟩ := @pruneLoop_spec cutoff options.batchSize
      options.maxPerTable (arrivals rule.table) hbatch (db rule.table) fuel 0 (db rule.table) 0 hmax
      (by omega) (by simp [arrived]) (by simp [arrived])
    obtain ⟨db', results, hrest, hothers, htables, hresults⟩ := pruneRules_spec hdry hbatch hmax hfuel rest
      (Function.update db rule.table left) hnodup hsafe hcutoff
    refine ⟨db', ⟨rule.table, rule.column, cutoff, deleted⟩ :: results, ?_, ?_, ?_, ?_⟩
    · rw [pruneRules, htable, hcolumn, hdate, hdry]
      simp only [Bool.not_true, Bool.or_self, Bool.false_eq_true, if_false, hloop, hrest]
    · intro table hother
      obtain ⟨hne, hother⟩ := not_or.mp (mt List.mem_cons.mpr hother)
      rw [hothers table hother, Function.update_of_ne hne]
    · rw [List.map_cons, List.map_cons, htables]
    · refine List.forall_mem_cons.mpr ⟨⟨_, List.mem_cons_self, rfl, hdate, ?_⟩, ?_⟩
      · rw [hothers rule.table hfresh, Function.update_self]
        exact hpruned
      · intro other hother
        obtain ⟨result, hresult, htable, hdate, hother'⟩ := hresults other hother
        have hne : other.table ≠ rule.table := by
          intro h
          change rule.table ∉ _ at hfresh
          rw [← h] at hfresh
          exact hfresh (List.mem_map_of_mem hother)
        rw [Function.update_of_ne hne] at hother'
        exact ⟨result, List.mem_cons_of_mem _ hresult, htable, hdate, hother'⟩

/-- With the rules of the code, batches of at least one row and fuel for the share of a table, a
run returns: it deletes no row that is as young as its table's window, none of another table,
and either every older row or the table's whole share, whatever rows come meanwhile. -/
theorem pruneExpiredRecords_spec (db : Database) (hdry : options.dryRun = false)
    (hbatch : 0 < options.batchSize) (hmax : 0 < options.maxPerTable)
    (hfuel : options.maxPerTable ≤ fuel * options.batchSize)
    (hpolicy : options.policy = RETENTION_POLICY)
    (hnow : ∀ rule ∈ RETENTION_POLICY, FourDigitYear (nowMs - rule.days * MS_PER_DAY)) :
    ∃ db' results, pruneExpiredRecords options nowMs arrivals fuel db = some (db', .ok results) ∧
      (∀ table, table ∉ RETENTION_POLICY.map (·.table) → db' table = db table) ∧
      results.map (·.table) = RETENTION_POLICY.map (·.table) ∧
      ∀ rule ∈ RETENTION_POLICY, ∃ result ∈ results, result.table = rule.table ∧
        Pruned result.cutoff options.batchSize options.maxPerTable (arrivals rule.table)
          (db rule.table) (db' rule.table) result.deleted ∧
        ∀ row stamped, FourDigitYear stamped → row.timestamp = toISOString stamped →
          (expired result.cutoff row = true ↔ stamped < nowMs - rule.days * MS_PER_DAY) := by
  have hcutoff : ∀ rule ∈ RETENTION_POLICY, (cutoffIso rule.days nowMs).isSome := by
    intro rule hrule
    rw [cutoffIso, toISOString_of_fourDigitYear (hnow rule hrule)]
    rfl
  obtain ⟨db', results, hrun, hothers, htables, hresults⟩ := pruneRules_spec hdry hbatch hmax hfuel
    RETENTION_POLICY db (by decide) (by decide) hcutoff
  refine ⟨db', results, by rw [pruneExpiredRecords, hpolicy, hrun], hothers, htables, ?_⟩
  intro rule hrule
  obtain ⟨result, hresult, htable, hdate, hpruned⟩ := hresults rule hrule
  exact ⟨result, hresult, htable, hpruned, fun row stamped hyear hrow =>
    expired_iff hdate (hnow rule hrule) hyear hrow⟩

/-- A row older than the window of the audit events, and a younger one. -/
def auditRows : Database := fun table =>
  if table = "audit_events" then
    [⟨1, some "2026-01-01T00:00:00.000Z"⟩, ⟨2, some "2026-04-01T00:00:00.000Z"⟩]
  else []

theorem prunes_audit_rows : ∃ db' results,
    pruneExpiredRecords {} 1782000000000 (fun _ _ => []) 50 auditRows =
      some (db', .ok results) ∧ db' "webhook_events" = [] := by
  obtain ⟨db', results, hrun, hothers, -⟩ := @pruneExpiredRecords_spec {} 1782000000000
    (fun _ _ => []) 50 auditRows rfl (by decide) (by decide) (by decide) rfl (by decide)
  exact ⟨db', results, hrun, hothers "webhook_events" (by decide)⟩

end Gittensory.Retention
