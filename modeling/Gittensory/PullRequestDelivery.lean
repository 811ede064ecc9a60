import Gittensory.JsValue
import Gittensory.KeyedTable
import Mathlib.Data.List.Induction

/-!
The stored pull request (`db/repositories.ts`). Webhook jobs and crawl pages hand GitHub
payloads to one upsert, which carries no version: the row follows the order of arrival,
not the order in which GitHub took the snapshots. A field that a payload lacks leaves the
stored value as it is, so head and merge time are those of the last payload with one.
-/
namespace Gittensory.PullRequestDelivery

open JsValue KeyedTable

/-- The fields of a pull request payload that the upsert stores. -/
structure GitHubPullRequestPayload where
  number : ℕ
  title : String
  state : String
  htmlUrl : Option String := none
  mergedAt : Option String := none
  userLogin : Option String := none
  authorAssociation : Option String := none
  headSha : Option String := none
  headRef : Option String := none
  baseRef : Option String := none
  labels : List (Option String) := []
  deriving DecidableEq, Repr

structure PullRequestRow where
  repoFullName : String
  number : ℕ
  title : String
  state : String
  authorLogin : Option String
  authorAssociation : Option String
  headSha : Option String
  headRef : Option String
  baseRef : Option String
  mergedAt : Option String
  htmlUrl : Option String
  labels : List String
  lastSeenOpenAt : Option String
  updatedAt : String
  deriving DecidableEq, Repr

/-- A call of the upsert: by a webhook job, or by a crawl page, which passes the start of
its scan. The time GitHub took the snapshot is not an argument of the code. -/
structure Delivery where
  repoFullName : String
  payload : GitHubPullRequestPayload
  seenOpenAt : Option String := none
  nowIso : String
  takenAt : ℤ
  deriving DecidableEq, Repr

def rowKey (row : PullRequestRow) : String × ℕ := (row.repoFullName, row.number)

def Delivery.target (delivery : Delivery) : String × ℕ :=
  (delivery.repoFullName, delivery.payload.number)

def recordLabels (payload : GitHubPullRequestPayload) : List String :=
  payload.labels.flatMap fun name => (present name).toList

def lastSeenOpenAt (delivery : Delivery) : Option String :=
  if delivery.payload.state = "open" then some (delivery.seenOpenAt.getD delivery.nowIso) else none

/-- The inserted row. -/
def newRow (delivery : Delivery) : PullRequestRow :=
  let pr := delivery.payload
  { repoFullName := delivery.repoFullName
    number := pr.number
    title := pr.title
    state := pr.state
    authorLogin := pr.userLogin
    authorAssociation := pr.authorAssociation
    headSha := pr.headSha
    headRef := pr.headRef
    baseRef := pr.baseRef
    mergedAt := pr.mergedAt
    htmlUrl := pr.htmlUrl
    labels := recordLabels pr
    lastSeenOpenAt := lastSeenOpenAt delivery
    updatedAt := delivery.nowIso }

/-- The set clause: an undefined value is left out of it. -/
def updatedRow (delivery : Delivery) (row : PullRequestRow) : PullRequestRow :=
  let pr := delivery.payload
  { row with
    title := pr.title
    state := pr.state
    authorLogin := pr.userLogin.or row.authorLogin
    authorAssociation := pr.authorAssociation.or row.authorAssociation
    headSha := pr.headSha.or row.headSha
    headRef := pr.headRef.or row.headRef
    baseRef := pr.baseRef.or row.baseRef
    mergedAt := pr.mergedAt.or row.mergedAt
    htmlUrl := pr.htmlUrl.or row.htmlUrl
    labels := recordLabels pr
    lastSeenOpenAt := lastSeenOpenAt delivery
    updatedAt := delivery.nowIso }

def upsertPullRequestFromGitHub (table : List PullRequestRow) (delivery : Delivery) :
    List PullRequestRow :=
  upsertWith rowKey (updatedRow delivery) table (newRow delivery)

def storedPullRequest (table : List PullRequestRow) (target : String × ℕ) :
    Option PullRequestRow :=
  lookup rowKey table target

/-- The table after deliveries of any pull requests, in the order of their arrival. -/
def deliverAll (table : List PullRequestRow) (deliveries : List Delivery) : List PullRequestRow :=
  deliveries.foldl upsertPullRequestFromGitHub table

section OneRow

/-- What a delivery makes of the row of its pull request. -/
def receive (row : Option PullRequestRow) (delivery : Delivery) : Option PullRequestRow :=
  some ((row.map (updatedRow delivery)).getD (newRow delivery))

theorem storedPullRequest_upsert (table : List PullRequestRow) (delivery : Delivery)
    (target : String × ℕ) :
    storedPullRequest (upsertPullRequestFromGitHub table delivery) target =
      if delivery.target = target then receive (storedPullRequest table target) delivery
      else storedPullRequest table target := by
  have hkey : ∀ row, rowKey (updatedRow delivery row) = rowKey row := fun _ => rfl
  have hfresh : rowKey (newRow delivery) = delivery.target := rfl
  rw [storedPullRequest, upsertPullRequestFromGitHub, lookup_upsertWith rowKey hkey, hfresh]
  by_cases h : delivery.target = target
  · rw [if_pos h, if_pos h.symm]
    rfl
  · rw [if_neg h, if_neg (fun heq => h heq.symm)]
    rfl

/-- Deliveries of other pull requests do not touch the row. -/
theorem storedPullRequest_deliverAll (table : List PullRequestRow) (deliveries : List Delivery)
    (target : String × ℕ) :
    storedPullRequest (deliverAll table deliveries) target =
      (deliveries.filter (fun delivery => delivery.target = target)).foldl receive
        (storedPullRequest table target) := by
  induction deliveries generalizing table with
  | nil => rfl
  | cons delivery rest ih =>
    have htail : deliverAll table (delivery :: rest) =
        deliverAll (upsertPullRequestFromGitHub table delivery) rest := rfl
    rw [htail, ih, storedPullRequest_upsert]
    by_cases h : delivery.target = target
    · rw [if_pos h, List.filter_cons_of_pos (by simpa using h), List.foldl_cons]
    · rw [if_neg h, List.filter_cons_of_neg (by simpa using h)]

/-- The last value that a delivery carries, else the one before them all. -/
def lastCarried (field : GitHubPullRequestPayload → Option String) (before : Option String)
    (deliveries : List Delivery) : Option String :=
  deliveries.foldl (fun value delivery => (field delivery.payload).or value) before

theorem lastCarried_append (field : GitHubPullRequestPayload → Option String)
    (before : Option String) (deliveries : List Delivery) (last : Delivery) :
    lastCarried field before (deliveries ++ [last]) =
      (field last.payload).or (lastCarried field before deliveries) := by
  rw [lastCarried, List.foldl_append]
  rfl

/-- The row is what the deliveries have left: the state of the last one, head and merge
time of the last one with each. -/
structure Follows (before : Option PullRequestRow) (deliveries : List Delivery)
    (row : PullRequestRow) : Prop where
  state : ∀ last ∈ deliveries.getLast?, row.state = last.payload.state
  headSha : row.headSha =
    lastCarried GitHubPullRequestPayload.headSha (before.bind PullRequestRow.headSha) deliveries
  mergedAt : row.mergedAt =
    lastCarried GitHubPullRequestPayload.mergedAt (before.bind PullRequestRow.mergedAt) deliveries

theorem Follows.receive {before : Option PullRequestRow} {deliveries : List Delivery}
    {row : PullRequestRow} (h : Follows before deliveries row) (delivery : Delivery) :
    Follows before (deliveries ++ [delivery]) (updatedRow delivery row) where
  state := by
    intro last hlast
    rw [List.getLast?_append, List.getLast?_singleton, Option.some_or, Option.mem_some_iff] at hlast
    rw [← hlast]
    rfl
  headSha := by
    rw [lastCarried_append, ← h.headSha]
    rfl
  mergedAt := by
    rw [lastCarried_append, ← h.mergedAt]
    rfl

theorem follows_first (before : Option PullRequestRow) (delivery : Delivery) :
    Follows before [delivery] ((before.map (updatedRow delivery)).getD (newRow delivery)) := by
  cases before with
  | none =>
    refine ⟨fun last hlast => ?_, ?_, ?_⟩
    · rw [List.getLast?_singleton, Option.mem_some_iff] at hlast
      rw [← hlast]
      rfl
    · exact Option.or_none.symm
    · exact Option.or_none.symm
  | some row =>
    refine ⟨fun last hlast => ?_, rfl, rfl⟩
    rw [List.getLast?_singleton, Option.mem_some_iff] at hlast
    rw [← hlast]
    rfl

/-- After at least one delivery there is a row, and it follows the deliveries. -/
theorem exists_follows (before : Option PullRequestRow) (deliveries : List Delivery)
    (hne : deliveries ≠ []) :
    ∃ row, deliveries.foldl receive before = some row ∧ Follows before deliveries row := by
  induction deliveries using List.reverseRec with
  | nil => exact absurd rfl hne
  | append_singleton deliveries delivery ih =>
    rw [List.foldl_append, List.foldl_cons, List.foldl_nil]
    by_cases hempty : deliveries = []
    · subst hempty
      exact ⟨_, rfl, follows_first before delivery⟩
    · obtain ⟨row, hrow, hfollows⟩ := ih hempty
      rw [hrow]
      exact ⟨updatedRow delivery row, rfl, hfollows.receive delivery⟩

/-- Without a value before and without a delivery that carries one there is none. -/
theorem lastCarried_eq_none {field : GitHubPullRequestPayload → Option String}
    {deliveries : List Delivery} (h : ∀ delivery ∈ deliveries, field delivery.payload = none) :
    lastCarried field none deliveries = none := by
  induction deliveries with
  | nil => rfl
  | cons delivery rest ih =>
    have hfirst : field delivery.payload = none := h delivery (List.mem_cons_self ..)
    have htail : lastCarried field none (delivery :: rest) =
        lastCarried field ((field delivery.payload).or none) rest := rfl
    rw [htail, hfirst]
    exact ih (fun other hother => h other (List.mem_cons_of_mem _ hother))

end OneRow

/-- The row shows the state, the head and the merge time of the snapshot. -/
def Reflects (row : PullRequestRow) (snapshot : GitHubPullRequestPayload) : Prop :=
  row.state = snapshot.state ∧ row.headSha = snapshot.headSha ∧ row.mergedAt = snapshot.mergedAt

/-- The deliveries of one pull request among all. -/
def ownDeliveries (target : String × ℕ) (deliveries : List Delivery) : List Delivery :=
  deliveries.filter (fun delivery => delivery.target = target)

/-- Every other delivery has an older snapshot or repeats this one. -/
def MostRecent (latest : Delivery) (deliveries : List Delivery) : Prop :=
  latest ∈ deliveries ∧ ∀ other ∈ deliveries,
    other.takenAt < latest.takenAt ∨ other.payload = latest.payload

/-- The stored pull request follows the order of arrival, whatever else is delivered
between. So it is the most recent snapshot if that one arrives last, with a head, and with
a merge time if any was known before. -/
theorem stored_follows_arrival (table : List PullRequestRow) (deliveries : List Delivery)
    (target : String × ℕ) (earlier : List Delivery) (last : Delivery)
    (hown : ownDeliveries target deliveries = earlier ++ [last]) :
    ∃ row, storedPullRequest (deliverAll table deliveries) target = some row ∧
      row.state = last.payload.state ∧
      row.headSha = lastCarried GitHubPullRequestPayload.headSha
        ((storedPullRequest table target).bind PullRequestRow.headSha) (earlier ++ [last]) ∧
      row.mergedAt = lastCarried GitHubPullRequestPayload.mergedAt
        ((storedPullRequest table target).bind PullRequestRow.mergedAt) (earlier ++ [last]) ∧
      ∀ latest, MostRecent latest (earlier ++ [last]) → last.takenAt = latest.takenAt →
        last.payload.headSha.isSome →
        (last.payload.mergedAt.isSome ∨
          (storedPullRequest table target).bind PullRequestRow.mergedAt = none ∧
            ∀ other ∈ earlier, other.payload.mergedAt = none) →
        Reflects row latest.payload := by
  have hne : earlier ++ [last] ≠ [] := by simp
  obtain ⟨row, hrow, hfollows⟩ :=
    exists_follows (storedPullRequest table target) (earlier ++ [last]) hne
  have hstate : row.state = last.payload.state := by
    apply hfollows.state
    simp
  refine ⟨row, ?_, hstate, hfollows.headSha, hfollows.mergedAt, ?_⟩
  · rw [storedPullRequest_deliverAll, ← ownDeliveries, hown, hrow]
  · intro latest hlatest hlast hhead hmerged
    have hpayload : last.payload = latest.payload := by
      rcases hlatest.2 last (by simp) with holder | hsame
      · omega
      · exact hsame
    rw [← hpayload]
    refine ⟨hstate, ?_, ?_⟩
    · obtain ⟨sha, hsha⟩ := Option.isSome_iff_exists.mp hhead
      rw [hfollows.headSha, lastCarried_append, hsha, Option.some_or]
    · rw [hfollows.mergedAt, lastCarried_append]
      rcases hmerged with hsome | ⟨hbefore, hothers⟩
      · obtain ⟨time, htime⟩ := Option.isSome_iff_exists.mp hsome
        rw [htime, Option.some_or]
      · rw [hbefore, lastCarried_eq_none hothers, Option.or_none]

/-- A pull request closed unmerged, and the crawl page that was read before. -/
def closedWebhook : Delivery where
  repoFullName := "owner/repo"
  payload := { number := 7, title := "Add a parser", state := "closed", headSha := some "c2" }
  nowIso := "t3"
  takenAt := 2

def staleCrawlPage : Delivery where
  repoFullName := "owner/repo"
  payload := { number := 7, title := "Add a parser", state := "open", headSha := some "c1" }
  seenOpenAt := some "t1"
  nowIso := "t4"
  takenAt := 1

theorem late_page_reopens :
    MostRecent closedWebhook [closedWebhook, staleCrawlPage] ∧
      ∀ row, storedPullRequest (deliverAll [] [closedWebhook, staleCrawlPage])
        ("owner/repo", 7) = some row → ¬ Reflects row closedWebhook.payload := by
  refine ⟨⟨by decide, by decide⟩, fun row hrow hreflects => ?_⟩
  have hstored : storedPullRequest (deliverAll [] [closedWebhook, staleCrawlPage])
      ("owner/repo", 7) = some (updatedRow staleCrawlPage (newRow closedWebhook)) := by
    decide
  rw [hstored, Option.some.injEq] at hrow
  rw [← hrow] at hreflects
  exact absurd hreflects.1 (by decide)

theorem stored_follows_arrival_in_order :
    ∃ row, storedPullRequest (deliverAll [] [staleCrawlPage, closedWebhook]) ("owner/repo", 7) =
      some row ∧ Reflects row closedWebhook.payload := by
  obtain ⟨row, hrow, -, -, -, hlatest⟩ := stored_follows_arrival []
    [staleCrawlPage, closedWebhook] ("owner/repo", 7) [staleCrawlPage] closedWebhook (by decide)
  refine ⟨row, hrow, hlatest closedWebhook ⟨by decide, by decide⟩ rfl rfl (Or.inr ⟨rfl, ?_⟩)⟩
  decide

end Gittensory.PullRequestDelivery
