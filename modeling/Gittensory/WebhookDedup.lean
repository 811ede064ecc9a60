import Gittensory.GuardedRun
import Mathlib.Logic.Function.Basic

/-!
Deliveries of one webhook event (`github/webhook.ts`, `processGitHubWebhook`). A request
reads the event's row, and when the row does not make it a duplicate, it writes the row as
queued and sends the job; the consumer writes the row when a processing ends. Nothing
ties the write to the read, so two requests may pass the same check. Where a request
queues only on a row that still passes, and sends only while the row's last write is its
own, the event is sent again only after a failure.
-/
namespace Gittensory.WebhookDedup

open GuardedRun

inductive WebhookStatus where
  | queued
  | processed
  | error
  deriving DecidableEq, Repr

structure WebhookEvent where
  payloadHash : String
  status : WebhookStatus
  deriving DecidableEq, Repr

/-- A row that is there keeps its hash: the conflict clause sets the status only. -/
def recordWebhookEvent (row : Option WebhookEvent) (payloadHash : String)
    (status : WebhookStatus) : Option WebhookEvent :=
  match row with
  | none => some ⟨payloadHash, status⟩
  | some event => some { event with status }

def isDuplicate (existingEvent : Option WebhookEvent) (payloadHash : String) : Bool :=
  match existingEvent with
  | none => false
  | some event => event.status ≠ .error &&
      (event.status = .processed || event.payloadHash = payloadHash)

/-- Where a request of the handler is between its calls. -/
inductive Phase where
  | arrived
  | checked
  | recorded
  | refused
  | answered
  deriving DecidableEq, Repr

/-- What a send comes to; `unconfirmed` enqueued the job and threw all the same. -/
inductive Sending where
  | accepted
  | lost
  | unconfirmed
  deriving DecidableEq, Repr

/-- How the processing of a job ends. One that fails writes the row unless that write
throws too, and the queue delivers its job again or gives it up. -/
inductive Ending where
  | processed
  | error (retried : Bool)
  | unrecorded (retried : Bool)
  deriving DecidableEq, Repr

/-- What has happened to the event. -/
inductive Entry where
  | sent
  | sendFailed
  | processed
  | failed
  deriving DecidableEq, Repr

/-- One event's row and jobs, with the requests that deliver it. The request that wrote the
row last and the entries, the latest first, are kept for the statements only. -/
structure System where
  row : Option WebhookEvent
  requests : ℕ → Phase
  waiting : ℕ
  running : ℕ
  writer : Option ℕ
  history : List Entry

def start : System where
  row := none
  requests := fun _ => .arrived
  waiting := 0
  running := 0
  writer := none
  history := []

/-- A request goes on by itself or is lost when one of its calls throws; the consumer takes
a waiting job and ends one that is running. -/
inductive Event where
  | getWebhookEvent (request : ℕ)
  | recordQueued (request : ℕ)
  | send (request : ℕ) (sending : Sending)
  | recordError (request : ℕ)
  | giveUp (request : ℕ)
  | take
  | finish (ending : Ending)
  deriving DecidableEq, Repr

namespace System

def goesTo (s : System) (request : ℕ) (phase : Phase) : System :=
  { s with requests := Function.update s.requests request phase }

def records (s : System) (writer : Option ℕ) (payloadHash : String) (status : WebhookStatus) :
    System :=
  { s with row := recordWebhookEvent s.row payloadHash status, writer := writer }

def notes (s : System) (entry : Entry) : System := { s with history := entry :: s.history }

def requeues (s : System) (retried : Bool) : System :=
  { s with running := s.running - 1, waiting := if retried then s.waiting + 1 else s.waiting }

end System

/-- The job of an accepted or unconfirmed send waits in the queue. -/
def sends (s : System) (request : ℕ) : Sending → System
  | .accepted => { (s.goesTo request .answered).notes .sent with waiting := s.waiting + 1 }
  | .lost => (s.goesTo request .refused).notes .sendFailed
  | .unconfirmed => { (s.goesTo request .refused).notes .sendFailed with waiting := s.waiting + 1 }

def ends (s : System) : Ending → System
  | .processed => ((s.requeues false).records none "processed" .processed).notes .processed
  | .error retried => ((s.requeues retried).records none "processed" .error).notes .failed
  | .unrecorded retried => (s.requeues retried).notes .failed

section Run

variable (payloadHash : String)

/-- One step; what is not enabled does nothing. -/
def step (s : System) : Event → System
  | .getWebhookEvent request =>
      if s.requests request = .arrived then
        s.goesTo request (if isDuplicate s.row payloadHash then .answered else .checked)
      else s
  | .recordQueued request =>
      if s.requests request = .checked then
        (s.records (some request) payloadHash .queued).goesTo request .recorded
      else s
  | .send request sending => if s.requests request = .recorded then sends s request sending else s
  | .recordError request =>
      if s.requests request = .refused then
        (s.records (some request) payloadHash .error).goesTo request .answered
      else s
  | .giveUp request => s.goesTo request .answered
  | .take =>
      if 0 < s.waiting then { s with waiting := s.waiting - 1, running := s.running + 1 } else s
  | .finish ending => if 0 < s.running then ends s ending else s

/-- The last thing that happened to the event is a failure. -/
def AfterFailure (history : List Entry) : Prop :=
  history.head? = some .sendFailed ∨ history.head? = some .failed

instance (history : List Entry) : Decidable (AfterFailure history) :=
  inferInstanceAs (Decidable (_ ∨ _))

def Sendable (history : List Entry) : Prop := history = [] ∨ AfterFailure history

instance (history : List Entry) : Decidable (Sendable history) :=
  inferInstanceAs (Decidable (_ ∨ _))

/-- Every send, but the first, came right after a failed send or a failed processing. -/
def SentAfterErrors : List Entry → Prop
  | [] => True
  | entry :: earlier =>
      (entry = .sent ∨ entry = .sendFailed → Sendable earlier) ∧ SentAfterErrors earlier

instance decidableSentAfterErrors : (history : List Entry) → Decidable (SentAfterErrors history)
  | [] => isTrue trivial
  | _ :: earlier =>
      have := decidableSentAfterErrors earlier
      inferInstanceAs (Decidable (_ ∧ _))

/-- The row still lets a request that passed its check pass, and a request that wrote the
row sends, or notes a failed send, while no one else has written it. -/
def Current (s : System) : Event → Prop
  | .recordQueued request => s.requests request = .checked → isDuplicate s.row payloadHash = false
  | .send request _ => s.requests request = .recorded → s.writer = some request
  | .recordError request => s.requests request = .refused → s.writer = some request
  | _ => True

instance (s : System) : (event : Event) → Decidable (Current payloadHash s event)
  | .getWebhookEvent _ => isTrue trivial
  | .recordQueued _ => inferInstanceAs (Decidable (_ → _))
  | .send _ _ => inferInstanceAs (Decidable (_ → _))
  | .recordError _ => inferInstanceAs (Decidable (_ → _))
  | .giveUp _ => isTrue trivial
  | .take => isTrue trivial
  | .finish _ => isTrue trivial

@[simp] theorem status_recordWebhookEvent (row : Option WebhookEvent) (hash : String)
    (status : WebhookStatus) :
    (recordWebhookEvent row hash status).map WebhookEvent.status = some status := by
  cases row <;> rfl

theorem recordWebhookEvent_ne_none (row : Option WebhookEvent) (hash : String)
    (status : WebhookStatus) : recordWebhookEvent row hash status ≠ none := by
  cases row <;> exact Option.some_ne_none _

theorem goesTo_self (s : System) (request : ℕ) (phase : Phase) :
    (s.goesTo request phase).requests request = phase := Function.update_self _ _ _

theorem goesTo_of_ne (s : System) {request other : ℕ} (h : other ≠ request) (phase : Phase) :
    (s.goesTo request phase).requests other = s.requests other := Function.update_of_ne h _ _

/-- A row that no request may pass is queued or processed: its hash is the event's. -/
theorem isDuplicate_eq_false {row : Option WebhookEvent}
    (hhash : ∀ event ∈ row, event.payloadHash = payloadHash)
    (h : isDuplicate row payloadHash = false) :
    row = none ∨ row.map WebhookEvent.status = some .error := by
  cases row with
  | none => exact Or.inl rfl
  | some event =>
    refine Or.inr ?_
    have hsame := hhash event rfl
    have hstatus : event.status = .error := by
      simpa [isDuplicate, hsame] using h
    rw [Option.map_some, hstatus]

/-- What holds all along a run in which every step is made on a current row. -/
structure Orderly (s : System) : Prop where
  hash : ∀ event ∈ s.row, event.payloadHash = payloadHash
  fresh : s.row = none → s.history = [] ∧ s.waiting = 0 ∧ s.running = 0 ∧ s.writer = none
  failed : s.row.map WebhookEvent.status = some .error → AfterFailure s.history
  recorded : ∀ request, s.requests request = .recorded → s.writer = some request →
    s.row.map WebhookEvent.status = some .queued ∧ Sendable s.history
  refused : ∀ request, s.requests request = .refused → s.writer = some request →
    AfterFailure s.history
  sent : SentAfterErrors s.history

theorem orderly_start : Orderly payloadHash start where
  hash := fun _ h => absurd h (Option.not_mem_none _)
  fresh := fun _ => ⟨rfl, rfl, rfl, rfl⟩
  failed := fun h => by cases h
  recorded := fun _ h => by cases h
  refused := fun _ h => by cases h
  sent := trivial

section Steps

variable {payloadHash} {s : System}

theorem hash_recordWebhookEvent (h : Orderly payloadHash s) {hash : String}
    (hhash : s.row = none → hash = payloadHash) (status : WebhookStatus) :
    ∀ event ∈ recordWebhookEvent s.row hash status, event.payloadHash = payloadHash := by
  intro event hevent
  have hkept := h.hash
  cases hrow : s.row with
  | none =>
    rw [hrow, recordWebhookEvent, Option.mem_some_iff] at hevent
    rw [← hevent]
    exact hhash hrow
  | some old =>
    rw [hrow, recordWebhookEvent, Option.mem_some_iff] at hevent
    rw [← hevent]
    exact hkept old hrow

/-- A request that neither writes the row nor is about to send changes nothing. -/
theorem orderly_goesTo (h : Orderly payloadHash s) (request : ℕ) (phase : Phase)
    (hrecorded : phase ≠ .recorded) (hrefused : phase ≠ .refused) :
    Orderly payloadHash (s.goesTo request phase) where
  hash := h.hash
  fresh := h.fresh
  failed := h.failed
  recorded := by
    intro other hother hwriter
    by_cases heq : other = request
    · subst heq
      exact absurd ((goesTo_self s other phase).symm.trans hother) hrecorded
    · exact h.recorded other ((goesTo_of_ne s heq phase).symm.trans hother) hwriter
  refused := by
    intro other hother hwriter
    by_cases heq : other = request
    · subst heq
      exact absurd ((goesTo_self s other phase).symm.trans hother) hrefused
    · exact h.refused other ((goesTo_of_ne s heq phase).symm.trans hother) hwriter
  sent := h.sent

theorem orderly_recordQueued (h : Orderly payloadHash s) (request : ℕ)
    (hcurrent : isDuplicate s.row payloadHash = false) :
    Orderly payloadHash ((s.records (some request) payloadHash .queued).goesTo request .recorded)
    where
  hash := hash_recordWebhookEvent h (fun _ => rfl) _
  fresh := fun hnone => absurd hnone (recordWebhookEvent_ne_none _ _ _)
  failed := fun herror => by
    have hqueued := status_recordWebhookEvent s.row payloadHash .queued
    cases hqueued.symm.trans herror
  recorded := by
    intro _ _ _
    refine ⟨status_recordWebhookEvent _ _ _, ?_⟩
    rcases isDuplicate_eq_false payloadHash h.hash hcurrent with hnone | herror
    · exact Or.inl (h.fresh hnone).1
    · exact Or.inr (h.failed herror)
  refused := by
    intro other hother hwriter
    have heq : request = other := Option.some.inj hwriter
    subst heq
    cases (goesTo_self _ _ _).symm.trans hother
  sent := h.sent

/-- A send of the request that wrote the row last. -/
theorem orderly_sent (h : Orderly payloadHash s) {request : ℕ}
    (hrequest : s.requests request = .recorded) (hwriter : s.writer = some request)
    {phase : Phase} {entry : Entry} (hphase : phase ≠ .recorded)
    (hentry : phase = .refused → entry = .sendFailed) (waiting : ℕ) :
    Orderly payloadHash { (s.goesTo request phase).notes entry with waiting := waiting } := by
  obtain ⟨hqueued, hsendable⟩ := h.recorded request hrequest hwriter
  have hown : ∀ other, s.writer = some other → other = request := fun other hother =>
    Option.some.inj (hother.symm.trans hwriter)
  refine ⟨h.hash, fun hnone => ?_, fun herror => ?_, fun other hother hwrote => ?_,
    fun other hother hwrote => ?_, fun _ => hsendable, h.sent⟩
  · have hrow : s.row = none := hnone
    rw [hrow] at hqueued
    cases hqueued
  · cases hqueued.symm.trans herror
  · obtain rfl := hown other hwrote
    exact absurd ((goesTo_self s other phase).symm.trans hother) hphase
  · obtain rfl := hown other hwrote
    have hentry := hentry ((goesTo_self s other phase).symm.trans hother)
    exact Or.inl (congrArg some hentry)

theorem orderly_sends (h : Orderly payloadHash s) {request : ℕ}
    (hrequest : s.requests request = .recorded) (hwriter : s.writer = some request)
    (sending : Sending) : Orderly payloadHash (sends s request sending) := by
  cases sending with
  | accepted => exact orderly_sent h hrequest hwriter (by decide) (fun h => by cases h) _
  | lost => exact orderly_sent h hrequest hwriter (by decide) (fun _ => rfl) s.waiting
  | unconfirmed => exact orderly_sent h hrequest hwriter (by decide) (fun _ => rfl) _

theorem orderly_recordError (h : Orderly payloadHash s) {request : ℕ}
    (hrequest : s.requests request = .refused) (hwriter : s.writer = some request) :
    Orderly payloadHash
      ((s.records (some request) payloadHash .error).goesTo request .answered) := by
  have hfailure := h.refused request hrequest hwriter
  have hother : ∀ other phase, phase ≠ Phase.answered → some request = some other →
      ((s.records (some request) payloadHash .error).goesTo request .answered).requests other ≠
        phase := by
    rintro other phase hphase heq hphase'
    obtain rfl := Option.some.inj heq
    exact hphase (hphase'.symm.trans (goesTo_self _ _ _))
  exact ⟨hash_recordWebhookEvent h (fun _ => rfl) _,
    fun hnone => absurd hnone (recordWebhookEvent_ne_none _ _ _), fun _ => hfailure,
    fun other hphase hwrote => absurd hphase (hother other _ (by decide) hwrote),
    fun other hphase hwrote => absurd hphase (hother other _ (by decide) hwrote), h.sent⟩

theorem orderly_take (h : Orderly payloadHash s) (hwaiting : 0 < s.waiting) :
    Orderly payloadHash { s with waiting := s.waiting - 1, running := s.running + 1 } where
  hash := h.hash
  fresh := fun hnone => by
    obtain ⟨-, hnothing, -, -⟩ := h.fresh hnone
    rw [hnothing] at hwaiting
    exact absurd hwaiting (Nat.lt_irrefl 0)
  failed := h.failed
  recorded := h.recorded
  refused := h.refused
  sent := h.sent

/-- A processing ends; a row that is there stays there, and only an error is written where
the processing failed. -/
theorem orderly_ends (h : Orderly payloadHash s) (hrunning : 0 < s.running) (ending : Ending) :
    Orderly payloadHash (ends s ending) := by
  have hrow : s.row ≠ none := fun hnone => by
    obtain ⟨-, -, hnothing, -⟩ := h.fresh hnone
    rw [hnothing] at hrunning
    exact absurd hrunning (Nat.lt_irrefl 0)
  have hhash : ∀ status, ∀ event ∈ recordWebhookEvent s.row "processed" status,
      event.payloadHash = payloadHash :=
    fun status => hash_recordWebhookEvent h (fun hnone => absurd hnone hrow) status
  have hnotsent : ∀ entry : Entry, entry ≠ .sent → entry ≠ .sendFailed →
      SentAfterErrors (entry :: s.history) := fun entry hsent hlost =>
    ⟨fun hor => absurd hor (not_or.mpr ⟨hsent, hlost⟩), h.sent⟩
  have hnone : ∀ request : ℕ, none ≠ some request := fun _ h => by cases h
  cases ending with
  | processed =>
    refine ⟨hhash _, fun hnone => absurd hnone (recordWebhookEvent_ne_none _ _ _),
      fun herror => ?_, fun _ _ hwrote => absurd hwrote (hnone _), fun _ _ hwrote => absurd hwrote (hnone _),
      hnotsent _ (by decide) (by decide)⟩
    cases (status_recordWebhookEvent s.row "processed" .processed).symm.trans herror
  | error retried =>
    exact ⟨hhash _, fun hnone => absurd hnone (recordWebhookEvent_ne_none _ _ _),
      fun _ => Or.inr rfl, fun _ _ hwrote => absurd hwrote (hnone _), fun _ _ hwrote => absurd hwrote (hnone _),
      hnotsent _ (by decide) (by decide)⟩
  | unrecorded retried =>
    exact ⟨h.hash, fun hnone => absurd hnone hrow, fun _ => Or.inr rfl,
      fun request hrequest hwrote => ⟨(h.recorded request hrequest hwrote).1, Or.inr (Or.inr rfl)⟩,
      fun _ _ _ => Or.inr rfl, hnotsent _ (by decide) (by decide)⟩

theorem orderly_step (h : Orderly payloadHash s) (event : Event)
    (hcurrent : Current payloadHash s event) : Orderly payloadHash (step payloadHash s event) := by
  cases event with
  | getWebhookEvent request =>
    by_cases hphase : s.requests request = .arrived
    · rw [step, if_pos hphase]
      cases isDuplicate s.row payloadHash with
      | true => exact orderly_goesTo h request .answered (by decide) (by decide)
      | false => exact orderly_goesTo h request .checked (by decide) (by decide)
    · rwa [step, if_neg hphase]
  | recordQueued request =>
    by_cases hphase : s.requests request = .checked
    · rw [step, if_pos hphase]
      exact orderly_recordQueued h request (hcurrent hphase)
    · rwa [step, if_neg hphase]
  | send request sending =>
    by_cases hphase : s.requests request = .recorded
    · rw [step, if_pos hphase]
      exact orderly_sends h hphase (hcurrent hphase) sending
    · rwa [step, if_neg hphase]
  | recordError request =>
    by_cases hphase : s.requests request = .refused
    · rw [step, if_pos hphase]
      exact orderly_recordError h hphase (hcurrent hphase)
    · rwa [step, if_neg hphase]
  | giveUp request => exact orderly_goesTo h request .answered (by decide) (by decide)
  | take =>
    by_cases hwaiting : 0 < s.waiting
    · rw [step, if_pos hwaiting]
      exact orderly_take h hwaiting
    · rwa [step, if_neg hwaiting]
  | finish ending =>
    by_cases hrunning : 0 < s.running
    · rw [step, if_pos hrunning]
      exact orderly_ends h hrunning ending
    · rwa [step, if_neg hrunning]

end Steps

/-- In every run on current rows, the event is sent again only after a failure. -/
theorem sent_again_after_error (events : List Event)
    (h : Guarded (step payloadHash) (Current payloadHash) start events) :
    SentAfterErrors (run (step payloadHash) start events).history :=
  (run_invariant (step payloadHash) (Current payloadHash)
    (fun _ event horderly hcurrent => orderly_step horderly event hcurrent) start events
    (orderly_start payloadHash) h).sent

/-- A failed send, a second delivery whose processing fails, a third one, and a duplicate. -/
def retriedRun : List Event :=
  [.getWebhookEvent 0, .recordQueued 0, .send 0 .lost, .recordError 0, .getWebhookEvent 1,
    .recordQueued 1, .send 1 .accepted, .take, .finish (.error false), .getWebhookEvent 2,
    .recordQueued 2, .getWebhookEvent 3, .send 2 .accepted, .take, .finish .processed]

theorem sent_again_retriedRun :
    (run (step "hash") start retriedRun).history =
      [.processed, .sent, .failed, .sent, .sendFailed] ∧
    SentAfterErrors (run (step "hash") start retriedRun).history :=
  ⟨by decide, sent_again_after_error "hash" retriedRun (by decide)⟩

/-- Two requests read that there is no row, and both send. -/
def racedRun : List Event :=
  [.getWebhookEvent 0, .getWebhookEvent 1, .recordQueued 0, .send 0 .accepted, .recordQueued 1,
    .send 1 .accepted]

theorem not_sent_after_error :
    ¬ ∀ (payloadHash : String) (events : List Event),
      SentAfterErrors (run (step payloadHash) start events).history := by
  intro h
  exact absurd (h "hash" racedRun) (by decide)

end Run
end Gittensory.WebhookDedup
