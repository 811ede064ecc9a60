import Gittensory.GuardedRun
import Mathlib.Data.Int.Notation
import Mathlib.Data.List.Induction
import Mathlib.Logic.Function.Basic

/-!
One submission draft under any number of OAuth callbacks and deliveries of its queue job
(`services/draft.ts`). Each call reads the row, goes through network calls and writes the
row without asking again. A draft with an open pull request keeps it, and one callback at
most takes the state token, exactly when no write lands after one made since the writer's
read that it must not follow.
-/
namespace Gittensory.DraftSubmission

open GuardedRun

section Model

inductive DraftStatus where
  | authRequired
  | queued
  | prOpen
  | error
  deriving DecidableEq, Repr

/-- What `createUserForkContentPr` returns. -/
structure SubmittedPr where
  githubLogin : String
  forkFullName : String
  pullRequestUrl : String
  pullRequestNumber : ℕ
  deriving DecidableEq, Repr

/-- A row of `submission_drafts`, as far as the calls write it. -/
structure DraftRow where
  status : DraftStatus
  authStateHash : Option String
  pullRequest : Option SubmittedPr := none
  lastError : Option String := none
  deriving DecidableEq, Repr

/-- The draft's row of `submission_user_tokens`; times in milliseconds. -/
structure TokenRow where
  encryptedToken : String
  expiresAt : ℤ
  consumed : Bool
  deriving DecidableEq, Repr

structure DraftEnv where
  draftFlowEnabled : Bool
  clientId : String
  clientSecret : String
  encKey : String

/-- A callback request: the hash of the token in its state, whether its cookie carries the
same state, and what GitHub sends along. -/
structure CallbackRequest where
  stateHash : String
  cookieMatches : Bool
  code : String
  providerError : String

/-- The updates of the row. -/
inductive RowWrite where
  | queued (call : ℕ)
  | failed (lastError : String)
  | opened (pr : SubmittedPr)
  deriving DecidableEq, Repr

def RowWrite.apply (row : DraftRow) : RowWrite → DraftRow
  | .queued _ => { row with status := .queued, authStateHash := none }
  | .failed lastError => { row with status := .error, lastError := some lastError }
  | .opened pr => { row with status := .prOpen, pullRequest := some pr }

/-- Where a callback is; `seen` is the number of row updates made when it read the row. -/
inductive CallbackPhase where
  | idle
  | checked (seen : ℕ)
  | exchanged (seen : ℕ) (userToken : String)
  | tokenStored (seen : ℕ)
  | queued
  | ended (submitted : Bool)

/-- Where a delivery is, likewise. -/
inductive DeliveryPhase where
  | idle
  | read (seen : ℕ)
  | submitting (seen : ℕ)
  | opened (seen : ℕ) (pr : SubmittedPr)
  | consuming (seen : ℕ)
  | failing (seen : ℕ) (lastError : String)
  | ended

structure Draft where
  row : DraftRow
  token : Option TokenRow
  jobSent : Bool
  callbacks : ℕ → CallbackPhase
  deliveries : ℕ → DeliveryPhase
  /-- Not in the database: every update of the row so far, in order. -/
  writes : List RowWrite

def Draft.setCallback (draft : Draft) (call : ℕ) (phase : CallbackPhase) : Draft :=
  { draft with callbacks := Function.update draft.callbacks call phase }

def Draft.setDelivery (draft : Draft) (call : ℕ) (phase : DeliveryPhase) : Draft :=
  { draft with deliveries := Function.update draft.deliveries call phase }

def Draft.record (draft : Draft) (write : RowWrite) : Draft :=
  { draft with row := write.apply draft.row, writes := draft.writes ++ [write] }

/-- A step of one call, or the failure of the step it is at. -/
inductive Event where
  | callbackRead (call : ℕ) (request : CallbackRequest)
  | callbackExchange (call : ℕ) (userToken : String)
  | callbackStoreToken (call : ℕ) (expiresAt : ℤ)
  | callbackQueue (call : ℕ)
  | callbackSend (call : ℕ)
  | callbackFail (call : ℕ)
  | deliveryRead (call : ℕ)
  | deliveryToken (call : ℕ) (now : ℤ)
  | deliveryGitHub (call : ℕ) (answer : Option SubmittedPr)
  | deliveryWrite (call : ℕ)
  | deliveryConsume (call : ℕ)
  | deliveryError (call : ℕ)
  | deliveryFail (call : ℕ) (message : String)

/-- The checks of the callback around its read of the row. -/
def acceptsState (env : DraftEnv) (request : CallbackRequest) (row : DraftRow) : Bool :=
  env.draftFlowEnabled && request.cookieMatches && row.authStateHash == some request.stateHash &&
    request.providerError == "" && request.code != "" &&
    env.clientId != "" && env.clientSecret != "" && env.encKey != ""

def tokenUnavailable (env : DraftEnv) (now : ℤ) : Option TokenRow → Bool
  | none => true
  | some token => token.consumed || token.expiresAt < now || env.encKey == ""

/-- A step of `handleDraftOAuthCallback`. -/
def callbackStep (env : DraftEnv) (draft : Draft) (call : ℕ) : CallbackPhase → Event → Draft
  | .idle, .callbackRead _ request =>
      if acceptsState env request draft.row then
        draft.setCallback call (.checked draft.writes.length)
      else draft.setCallback call (.ended false)
  | .checked seen, .callbackExchange _ userToken =>
      draft.setCallback call (.exchanged seen userToken)
  | .exchanged seen userToken, .callbackStoreToken _ expiresAt =>
      { draft.setCallback call (.tokenStored seen) with
        token := some ⟨userToken, expiresAt, false⟩ }
  | .tokenStored _, .callbackQueue _ => (draft.record (.queued call)).setCallback call .queued
  | .queued, .callbackSend _ => { draft.setCallback call (.ended true) with jobSent := true }
  | .queued, .callbackFail _ => draft.setCallback call (.ended true)
  | .ended _, _ => draft
  | _, .callbackFail _ => draft.setCallback call (.ended false)
  | _, _ => draft

/-- A step of `processSubmitDraft`. Only what is in the `try` block fails into the error
update; the answers of GitHub's calls before the last one just lead on. -/
def deliveryStep (env : DraftEnv) (draft : Draft) (call : ℕ) : DeliveryPhase → Event → Draft
  | .idle, .deliveryRead _ =>
      if draft.jobSent then
        if !env.draftFlowEnabled || draft.row.status = .prOpen then draft.setDelivery call .ended
        else draft.setDelivery call (.read draft.writes.length)
      else draft
  | .read seen, .deliveryToken _ now =>
      if tokenUnavailable env now draft.token then
        draft.setDelivery call (.failing seen "token_unavailable")
      else draft.setDelivery call (.submitting seen)
  | .read _, .deliveryFail _ _ => draft.setDelivery call .ended
  | .submitting seen, .deliveryGitHub _ (some pr) => draft.setDelivery call (.opened seen pr)
  | .submitting seen, .deliveryFail _ message => draft.setDelivery call (.failing seen message)
  | .opened seen pr, .deliveryWrite _ =>
      (draft.record (.opened pr)).setDelivery call (.consuming seen)
  | .opened seen _, .deliveryFail _ message => draft.setDelivery call (.failing seen message)
  | .consuming _, .deliveryConsume _ =>
      { draft.setDelivery call .ended with
        token := draft.token.map fun token => { token with consumed := true } }
  | .consuming seen, .deliveryFail _ message => draft.setDelivery call (.failing seen message)
  | .failing _ lastError, .deliveryError _ =>
      (draft.record (.failed lastError)).setDelivery call .ended
  | .failing _ _, .deliveryFail _ _ => draft.setDelivery call .ended
  | _, _ => draft

inductive Caller where
  | callback (call : ℕ)
  | delivery (call : ℕ)

def Event.caller : Event → Caller
  | .callbackRead call _ | .callbackExchange call _ | .callbackStoreToken call _
  | .callbackQueue call | .callbackSend call | .callbackFail call => .callback call
  | .deliveryRead call | .deliveryToken call _ | .deliveryGitHub call _ | .deliveryWrite call
  | .deliveryConsume call | .deliveryError call | .deliveryFail call _ => .delivery call

def step (env : DraftEnv) (draft : Draft) (event : Event) : Draft :=
  match event.caller with
  | .callback call => callbackStep env draft call (draft.callbacks call) event
  | .delivery call => deliveryStep env draft call (draft.deliveries call) event

/-- The draft as it is created. -/
def newDraft (authStateHash : String) : Draft where
  row := ⟨.authRequired, some authStateHash, none, none⟩
  token := none
  jobSent := false
  callbacks := fun _ => .idle
  deliveries := fun _ => .idle
  writes := []

end Model

section Writes

def callbackWrite (call : ℕ) : CallbackPhase → Event → Option (ℕ × RowWrite)
  | .tokenStored seen, .callbackQueue _ => some (seen, .queued call)
  | _, _ => none

def deliveryWrite : DeliveryPhase → Event → Option (ℕ × RowWrite)
  | .opened seen pr, .deliveryWrite _ => some (seen, .opened pr)
  | .failing seen lastError, .deliveryError _ => some (seen, .failed lastError)
  | _, _ => none

/-- The update of the row that an event makes, with what its call had seen of them. -/
def pendingWrite (draft : Draft) (event : Event) : Option (ℕ × RowWrite) :=
  match event.caller with
  | .callback call => callbackWrite call (draft.callbacks call) event
  | .delivery call => deliveryWrite (draft.deliveries call) event

/-- Nothing but the same pull request follows an open one, and no second callback queues the
draft. -/
def MayFollow (later : RowWrite) : RowWrite → Prop
  | .queued _ => ∀ call, later ≠ .queued call
  | .failed _ => True
  | .opened pr => ∃ pr', later = .opened pr' ∧ pr'.pullRequestNumber = pr.pullRequestNumber

/-- The event's update may follow every one made since its call read the row. -/
def NotOvertaken (draft : Draft) (event : Event) : Prop :=
  ∀ seen write, pendingWrite draft event = some (seen, write) →
    ∀ earlier ∈ draft.writes.drop seen, MayFollow write earlier

end Writes

section Replay

/-- The row after updates, from the one the draft is created with. -/
def replay (authStateHash : String) (writes : List RowWrite) : DraftRow :=
  writes.foldl RowWrite.apply (newDraft authStateHash).row

theorem replay_concat (authStateHash : String) (writes : List RowWrite) (write : RowWrite) :
    replay authStateHash (writes ++ [write]) = write.apply (replay authStateHash writes) := by
  unfold replay
  rw [List.foldl_append]
  rfl

/-- A queued draft has no state token left. -/
theorem replay_authStateHash {authStateHash : String} {writes : List RowWrite} {call : ℕ}
    (h : RowWrite.queued call ∈ writes) : (replay authStateHash writes).authStateHash = none := by
  induction writes using List.reverseRecOn with
  | nil => exact absurd h List.not_mem_nil
  | append_singleton writes write ih =>
    rw [replay_concat]
    cases write with
    | queued _ => rfl
    | failed lastError =>
      have hbefore : RowWrite.queued call ∈ writes := by simpa using h
      exact ih hbefore
    | opened pr =>
      have hbefore : RowWrite.queued call ∈ writes := by simpa using h
      exact ih hbefore

def LastOpened (number : ℕ) (writes : List RowWrite) : Prop :=
  ∃ earlier pr, writes = earlier ++ [.opened pr] ∧ pr.pullRequestNumber = number

/-- The row shows an open pull request exactly if the last update was made for it. -/
theorem replay_prOpen_iff (authStateHash : String) (writes : List RowWrite) (number : ℕ) :
    ((replay authStateHash writes).status = .prOpen ∧
        (replay authStateHash writes).pullRequest.map (·.pullRequestNumber) = some number) ↔
      LastOpened number writes := by
  rcases List.eq_nil_or_concat writes with rfl | ⟨earlier, write, rfl⟩
  · constructor
    · intro h
      cases h.1
    · rintro ⟨earlier, pr, hnil, -⟩
      exact absurd hnil.symm (List.append_ne_nil_of_right_ne_nil _ (List.cons_ne_nil _ _))
  · rw [List.concat_eq_append, replay_concat]
    constructor
    · intro h
      cases write with
      | queued _ => cases h.1
      | failed _ => cases h.1
      | opened pr => exact ⟨earlier, pr, rfl, Option.some.inj h.2⟩
    · rintro ⟨earlier', pr, heq, hnumber⟩
      have hlast : write = .opened pr := by simpa using (List.append_inj_right' heq rfl)
      rw [hlast]
      exact ⟨rfl, congrArg some hnumber⟩

end Replay

section Soundness

def Queued (writes : List RowWrite) : Prop := ∃ call, RowWrite.queued call ∈ writes

/-- A callback that is under way read the row while it had its state token. -/
def CallbackSound (writes : List RowWrite) (call : ℕ) : CallbackPhase → Prop
  | .checked seen | .exchanged seen _ | .tokenStored seen =>
      seen ≤ writes.length ∧ ¬ Queued (writes.take seen) ∧ RowWrite.queued call ∉ writes
  | .queued | .ended true => RowWrite.queued call ∈ writes
  | .idle | .ended false => RowWrite.queued call ∉ writes

/-- A delivery that is under way read the row after it was queued and while it did not show
an open pull request. -/
def DeliverySound (writes : List RowWrite) : DeliveryPhase → Prop
  | .read seen | .submitting seen | .opened seen _ | .consuming seen | .failing seen _ =>
      seen ≤ writes.length ∧ Queued (writes.take seen) ∧
        ∀ number, ¬ LastOpened number (writes.take seen)
  | .idle | .ended => True

structure Sound (authStateHash : String) (draft : Draft) : Prop where
  row : draft.row = replay authStateHash draft.writes
  sent : draft.jobSent = true → Queued draft.writes
  opened : ∀ k pr, RowWrite.opened pr ∈ draft.writes.take k → Queued (draft.writes.take k)
  callbacks : ∀ call, CallbackSound draft.writes call (draft.callbacks call)
  deliveries : ∀ call, DeliverySound draft.writes (draft.deliveries call)

variable {env : DraftEnv} {authStateHash : String} {draft : Draft} {writes : List RowWrite}
  {write : RowWrite} {call : ℕ}

theorem newDraft_sound (authStateHash : String) : Sound authStateHash (newDraft authStateHash) where
  row := rfl
  sent := nofun
  opened := by
    intro k pr hpr
    rw [newDraft, List.take_nil] at hpr
    exact absurd hpr List.not_mem_nil
  callbacks := fun _ => List.not_mem_nil
  deliveries := fun _ => trivial

theorem Queued.append (h : Queued writes) (write : RowWrite) : Queued (writes ++ [write]) := by
  obtain ⟨call, hcall⟩ := h
  exact ⟨call, List.mem_append_left _ hcall⟩

theorem Queued.of_take {seen : ℕ} (h : Queued (writes.take seen)) : Queued writes := by
  obtain ⟨call, hcall⟩ := h
  exact ⟨call, List.mem_of_mem_take hcall⟩

theorem CallbackSound.append {phase : CallbackPhase} (h : CallbackSound writes call phase)
    (hne : write ≠ .queued call) : CallbackSound (writes ++ [write]) call phase := by
  have hnot : RowWrite.queued call ∉ writes → RowWrite.queued call ∉ writes ++ [write] := by
    intro hbefore hmem
    rcases List.mem_append.mp hmem with hmem | hmem
    · exact hbefore hmem
    · exact hne (List.mem_singleton.mp hmem).symm
  have hactive : ∀ seen, (seen ≤ writes.length ∧ ¬ Queued (writes.take seen) ∧
      RowWrite.queued call ∉ writes) → seen ≤ (writes ++ [write]).length ∧
      ¬ Queued ((writes ++ [write]).take seen) ∧ RowWrite.queued call ∉ writes ++ [write] := by
    intro seen hseen
    rw [List.take_append_of_le_length hseen.1, List.length_append]
    exact ⟨Nat.le_add_right_of_le hseen.1, hseen.2.1, hnot hseen.2.2⟩
  cases phase with
  | idle => exact hnot h
  | checked seen => exact hactive seen h
  | exchanged seen _ => exact hactive seen h
  | tokenStored seen => exact hactive seen h
  | queued => exact List.mem_append_left _ h
  | ended submitted =>
    cases submitted with
    | false => exact hnot h
    | true => exact List.mem_append_left _ h

theorem DeliverySound.append {phase : DeliveryPhase} (h : DeliverySound writes phase)
    (write : RowWrite) : DeliverySound (writes ++ [write]) phase := by
  have hactive : ∀ seen, (seen ≤ writes.length ∧ Queued (writes.take seen) ∧
      ∀ number, ¬ LastOpened number (writes.take seen)) → seen ≤ (writes ++ [write]).length ∧
      Queued ((writes ++ [write]).take seen) ∧
      ∀ number, ¬ LastOpened number ((writes ++ [write]).take seen) := by
    intro seen hseen
    rw [List.take_append_of_le_length hseen.1, List.length_append]
    exact ⟨Nat.le_add_right_of_le hseen.1, hseen.2⟩
  cases phase with
  | idle => trivial
  | ended => trivial
  | read seen => exact hactive seen h
  | submitting seen => exact hactive seen h
  | opened seen _ => exact hactive seen h
  | consuming seen => exact hactive seen h
  | failing seen _ => exact hactive seen h

theorem Sound.setCallback (h : Sound authStateHash draft) {phase : CallbackPhase}
    (hphase : CallbackSound draft.writes call phase) :
    Sound authStateHash (draft.setCallback call phase) := by
  refine { h with callbacks := fun other => ?_ }
  change CallbackSound draft.writes other (Function.update draft.callbacks call phase other)
  by_cases hother : other = call
  · rw [hother, Function.update_self]
    exact hphase
  · rw [Function.update_of_ne hother]
    exact h.callbacks other

theorem Sound.setDelivery (h : Sound authStateHash draft) {phase : DeliveryPhase}
    (hphase : DeliverySound draft.writes phase) :
    Sound authStateHash (draft.setDelivery call phase) := by
  refine { h with deliveries := fun other => ?_ }
  change DeliverySound draft.writes (Function.update draft.deliveries call phase other)
  by_cases hother : other = call
  · rw [hother, Function.update_self]
    exact hphase
  · rw [Function.update_of_ne hother]
    exact h.deliveries other

theorem Sound.opened_append (h : Sound authStateHash draft)
    (hopened : ∀ pr, write = .opened pr → Queued draft.writes) (k : ℕ) (pr : SubmittedPr)
    (hpr : RowWrite.opened pr ∈ (draft.writes ++ [write]).take k) :
    Queued ((draft.writes ++ [write]).take k) := by
  rcases Nat.lt_or_ge draft.writes.length k with hlt | hle
  · have hall : (draft.writes ++ [write]).take k = draft.writes ++ [write] := by
      apply List.take_of_length_le
      rw [List.length_append]
      exact hlt
    rw [hall] at hpr ⊢
    apply Queued.append
    rcases List.mem_append.mp hpr with hmem | hmem
    · have hbefore := h.opened draft.writes.length pr
      rw [List.take_length] at hbefore
      exact hbefore hmem
    · exact hopened pr (List.mem_singleton.mp hmem).symm
  · rw [List.take_append_of_le_length hle] at hpr ⊢
    exact h.opened k pr hpr

theorem Sound.record (h : Sound authStateHash draft) (hqueued : ∀ call, write ≠ .queued call)
    (hopened : ∀ pr, write = .opened pr → Queued draft.writes) :
    Sound authStateHash (draft.record write) where
  row := by
    change write.apply draft.row = replay authStateHash (draft.writes ++ [write])
    rw [replay_concat, h.row]
  sent := fun hsent => (h.sent hsent).append write
  opened := h.opened_append hopened
  callbacks := fun call => (h.callbacks call).append (hqueued call)
  deliveries := fun call => (h.deliveries call).append write

theorem Sound.record_queued (h : Sound authStateHash draft) :
    Sound authStateHash ((draft.record (.queued call)).setCallback call .queued) where
  row := by
    change RowWrite.apply draft.row (.queued call) =
      replay authStateHash (draft.writes ++ [.queued call])
    rw [replay_concat, h.row]
  sent := fun hsent => (h.sent hsent).append _
  opened := h.opened_append nofun
  callbacks := by
    intro other
    change CallbackSound (draft.writes ++ [.queued call]) other
      (Function.update draft.callbacks call .queued other)
    by_cases hother : other = call
    · rw [hother, Function.update_self]
      exact List.mem_append_right _ (List.mem_singleton_self _)
    · rw [Function.update_of_ne hother]
      apply (h.callbacks other).append
      intro heq
      exact hother (RowWrite.queued.inj heq).symm
  deliveries := fun other => (h.deliveries other).append _

theorem Sound.callbackStep (h : Sound authStateHash draft) (event : Event) :
    Sound authStateHash (callbackStep env draft call (draft.callbacks call) event) := by
  have hphase := h.callbacks call
  generalize draft.callbacks call = phase at hphase
  cases phase with
  | idle =>
    cases event with
    | callbackRead _ request =>
      unfold DraftSubmission.callbackStep
      dsimp only
      split_ifs with haccepts
      · apply h.setCallback
        refine ⟨Nat.le_refl _, ?_, hphase⟩
        rw [List.take_length]
        rintro ⟨other, hother⟩
        have hnone : (replay authStateHash draft.writes).authStateHash = none :=
          replay_authStateHash hother
        rw [← h.row] at hnone
        simp [acceptsState, hnone] at haccepts
      · exact h.setCallback hphase
    | callbackFail _ => exact h.setCallback hphase
    | _ => exact h
  | checked seen =>
    cases event with
    | callbackExchange _ userToken => exact h.setCallback hphase
    | callbackFail _ => exact h.setCallback hphase.2.2
    | _ => exact h
  | exchanged seen userToken =>
    cases event with
    | callbackStoreToken _ expiresAt =>
      have hset : Sound authStateHash (draft.setCallback call (.tokenStored seen)) :=
        h.setCallback hphase
      exact { hset with }
    | callbackFail _ => exact h.setCallback hphase.2.2
    | _ => exact h
  | tokenStored seen =>
    cases event with
    | callbackQueue _ => exact h.record_queued
    | callbackFail _ => exact h.setCallback hphase.2.2
    | _ => exact h
  | queued =>
    cases event with
    | callbackSend _ =>
      have hset : Sound authStateHash (draft.setCallback call (.ended true)) := h.setCallback hphase
      exact { hset with sent := fun _ => ⟨call, hphase⟩ }
    | callbackFail _ => exact h.setCallback hphase
    | _ => exact h
  | ended submitted => exact h

theorem Sound.deliveryStep (h : Sound authStateHash draft) (event : Event) :
    Sound authStateHash (deliveryStep env draft call (draft.deliveries call) event) := by
  have hphase := h.deliveries call
  generalize draft.deliveries call = phase at hphase
  cases phase with
  | idle =>
    cases event with
    | deliveryRead _ =>
      unfold DraftSubmission.deliveryStep
      dsimp only
      split_ifs with hsent hopen
      · exact h.setDelivery trivial
      · apply h.setDelivery
        refine ⟨Nat.le_refl _, ?_, ?_⟩
        · rw [List.take_length]
          exact h.sent hsent
        · intro number hlast
          rw [List.take_length] at hlast
          have hstatus := ((replay_prOpen_iff authStateHash _ _).mpr hlast).1
          rw [← h.row] at hstatus
          simp [hstatus] at hopen
      · exact h
    | _ => exact h
  | read seen =>
    cases event with
    | deliveryToken _ now =>
      unfold DraftSubmission.deliveryStep
      dsimp only
      split_ifs
      · exact h.setDelivery hphase
      · exact h.setDelivery hphase
    | deliveryFail _ _ => exact h.setDelivery trivial
    | _ => exact h
  | submitting seen =>
    cases event with
    | deliveryGitHub _ answer =>
      cases answer with
      | none => exact h
      | some pr => exact h.setDelivery hphase
    | deliveryFail _ _ => exact h.setDelivery hphase
    | _ => exact h
  | opened seen pr =>
    cases event with
    | deliveryWrite _ =>
      have hrecord : Sound authStateHash (draft.record (.opened pr)) :=
        h.record nofun fun _ _ => hphase.2.1.of_take
      have hconsuming : DeliverySound draft.writes (.consuming seen) := hphase
      exact hrecord.setDelivery (hconsuming.append _)
    | deliveryFail _ _ => exact h.setDelivery hphase
    | _ => exact h
  | consuming seen =>
    cases event with
    | deliveryConsume _ =>
      have hset : Sound authStateHash (draft.setDelivery call .ended) := h.setDelivery trivial
      exact { hset with }
    | deliveryFail _ _ => exact h.setDelivery hphase
    | _ => exact h
  | failing seen lastError =>
    cases event with
    | deliveryError _ =>
      have hrecord : Sound authStateHash (draft.record (.failed lastError)) :=
        h.record nofun nofun
      exact hrecord.setDelivery trivial
    | deliveryFail _ _ => exact h.setDelivery trivial
    | _ => exact h
  | ended => exact h

theorem Sound.step (h : Sound authStateHash draft) (event : Event) :
    Sound authStateHash (step env draft event) := by
  unfold DraftSubmission.step
  cases event.caller with
  | callback call => exact h.callbackStep event
  | delivery call => exact h.deliveryStep event

end Soundness

section Runs

variable {env : DraftEnv} {authStateHash : String} {draft : Draft} {writes : List RowWrite}

/-- No update of the row followed one it must not follow. -/
def Kept (draft : Draft) : Prop :=
  draft.writes.Pairwise fun earlier later => MayFollow later earlier

theorem callbackStep_writes (env : DraftEnv) (draft : Draft) (call : ℕ) (phase : CallbackPhase)
    (event : Event) :
    (callbackStep env draft call phase event).writes =
      draft.writes ++ ((callbackWrite call phase event).map (·.2)).toList := by
  fun_cases callbackStep env draft call phase event
  all_goals
    simp_all [callbackWrite, Draft.setCallback, Draft.record]
  all_goals rfl

theorem deliveryStep_writes (env : DraftEnv) (draft : Draft) (call : ℕ) (phase : DeliveryPhase)
    (event : Event) :
    (deliveryStep env draft call phase event).writes =
      draft.writes ++ ((deliveryWrite phase event).map (·.2)).toList := by
  fun_cases deliveryStep env draft call phase event
  all_goals
    simp_all [deliveryWrite, Draft.setDelivery, Draft.record]
  all_goals rfl

theorem step_writes (env : DraftEnv) (draft : Draft) (event : Event) :
    (step env draft event).writes =
      draft.writes ++ ((pendingWrite draft event).map (·.2)).toList := by
  unfold step pendingWrite
  cases event.caller with
  | callback call => exact callbackStep_writes env draft call _ event
  | delivery call => exact deliveryStep_writes env draft call _ event

/-- Once a pull request is opened the last update is always one for it. -/
theorem lastOpened_of_mem (h : writes.Pairwise fun earlier later => MayFollow later earlier)
    {pr : SubmittedPr} (hpr : RowWrite.opened pr ∈ writes) :
    LastOpened pr.pullRequestNumber writes := by
  rcases List.eq_nil_or_concat writes with rfl | ⟨before, write, rfl⟩
  · exact absurd hpr List.not_mem_nil
  · rw [List.concat_eq_append] at h hpr ⊢
    rcases List.mem_append.mp hpr with hmem | hmem
    · have hfollow := (List.pairwise_append.mp h).2.2 _ hmem _ (List.mem_singleton_self write)
      obtain ⟨pr', rfl, hnumber⟩ := hfollow
      exact ⟨before, pr', rfl, hnumber⟩
    · exact ⟨before, pr, by rw [List.mem_singleton.mp hmem], rfl⟩

/-- Two callbacks do not both queue the draft. -/
theorem queued_unique (h : writes.Pairwise fun earlier later => MayFollow later earlier)
    {call other : ℕ} (hcall : RowWrite.queued call ∈ writes)
    (hother : RowWrite.queued other ∈ writes) : call = other := by
  obtain ⟨before, after, rfl⟩ := List.append_of_mem hcall
  have happend := List.pairwise_append.mp h
  rcases List.mem_append.mp hother with hmem | hmem
  · exact absurd rfl (happend.2.2 _ hmem _ List.mem_cons_self call)
  · rcases List.mem_cons.mp hmem with heq | hmem
    · exact (RowWrite.queued.inj heq).symm
    · exact absurd rfl ((List.pairwise_cons.mp happend.2.1).1 _ hmem other)

theorem callbackWrite_eq_some {call seen : ℕ} {phase : CallbackPhase} {event : Event}
    {write : RowWrite} (h : callbackWrite call phase event = some (seen, write)) :
    phase = .tokenStored seen ∧ write = .queued call := by
  cases phase with
  | tokenStored seen' =>
    cases event with
    | callbackQueue _ =>
      obtain ⟨rfl, rfl⟩ := Prod.mk.inj (Option.some.inj h)
      exact ⟨rfl, rfl⟩
    | _ => cases h
  | _ => cases h

theorem deliveryWrite_eq_some {seen : ℕ} {phase : DeliveryPhase} {event : Event}
    {write : RowWrite} (h : deliveryWrite phase event = some (seen, write)) :
    (∃ pr, phase = .opened seen pr ∧ write = .opened pr) ∨
      ∃ lastError, phase = .failing seen lastError ∧ write = .failed lastError := by
  cases phase with
  | opened seen' pr =>
    cases event with
    | deliveryWrite _ =>
      obtain ⟨rfl, rfl⟩ := Prod.mk.inj (Option.some.inj h)
      exact Or.inl ⟨pr, rfl, rfl⟩
    | _ => cases h
  | failing seen' lastError =>
    cases event with
    | deliveryError _ =>
      obtain ⟨rfl, rfl⟩ := Prod.mk.inj (Option.some.inj h)
      exact Or.inr ⟨lastError, rfl, rfl⟩
    | _ => cases h
  | _ => cases h

/-- Who updates the row, and what its read of the row had shown. -/
theorem pendingWrite_cases (h : Sound authStateHash draft) {event : Event} {seen : ℕ}
    {write : RowWrite} (hpending : pendingWrite draft event = some (seen, write)) :
    (∃ call, write = .queued call ∧ draft.callbacks call = .tokenStored seen ∧
        ¬ Queued (draft.writes.take seen)) ∨
      (∀ call, write ≠ .queued call) ∧
        ∀ number, ¬ LastOpened number (draft.writes.take seen) := by
  unfold pendingWrite at hpending
  cases hcaller : event.caller with
  | callback call =>
    rw [hcaller] at hpending
    obtain ⟨hphase, rfl⟩ := callbackWrite_eq_some hpending
    have hsound := h.callbacks call
    rw [hphase] at hsound
    exact Or.inl ⟨call, rfl, hphase, hsound.2.1⟩
  | delivery call =>
    rw [hcaller] at hpending
    have hsound := h.deliveries call
    rcases deliveryWrite_eq_some hpending with ⟨pr, hphase, rfl⟩ | ⟨lastError, hphase, rfl⟩
    · rw [hphase] at hsound
      exact Or.inr ⟨nofun, hsound.2.2⟩
    · rw [hphase] at hsound
      exact Or.inr ⟨nofun, hsound.2.2⟩

/-- What its call had seen when it read the row, an update may follow. -/
theorem mayFollow_seen (h : Sound authStateHash draft) (hkept : Kept draft) {event : Event}
    {seen : ℕ} {write : RowWrite} (hpending : pendingWrite draft event = some (seen, write)) :
    ∀ earlier ∈ draft.writes.take seen, MayFollow write earlier := by
  intro earlier hearlier
  have hpairwise : (draft.writes.take seen).Pairwise fun earlier later => MayFollow later earlier :=
    hkept.sublist (List.take_sublist _ _)
  rcases pendingWrite_cases h hpending with ⟨call, rfl, -, hnone⟩ | ⟨hwrite, hnone⟩
  · cases earlier with
    | queued other => exact absurd ⟨other, hearlier⟩ hnone
    | failed _ => trivial
    | opened pr => exact absurd (h.opened seen pr hearlier) hnone
  · cases earlier with
    | queued other => exact hwrite
    | failed _ => trivial
    | opened pr => exact absurd (lastOpened_of_mem hpairwise hearlier) (hnone _)

theorem kept_step_iff (h : Sound authStateHash draft) (hkept : Kept draft) (event : Event) :
    Kept (step env draft event) ↔ NotOvertaken draft event := by
  unfold Kept NotOvertaken
  rw [step_writes]
  cases hpending : pendingWrite draft event with
  | none =>
    rw [Option.map_none, Option.toList_none, List.append_nil]
    exact ⟨fun _ => nofun, fun _ => hkept⟩
  | some pending =>
    obtain ⟨seen, write⟩ := pending
    rw [Option.map_some, Option.toList_some, List.pairwise_append]
    constructor
    · rintro ⟨-, -, hfollow⟩ seen' write' hsame earlier hearlier
      obtain ⟨rfl, rfl⟩ := Prod.mk.inj (Option.some.inj hsame)
      exact hfollow earlier (List.mem_of_mem_drop hearlier) write (List.mem_singleton_self _)
    · intro hfresh
      refine ⟨hkept, List.pairwise_singleton _ _, fun earlier hearlier later hlater => ?_⟩
      rw [List.mem_singleton.mp hlater]
      rw [← List.take_append_drop seen draft.writes] at hearlier
      rcases List.mem_append.mp hearlier with hseen | hsince
      · exact mayFollow_seen h hkept hpending earlier hseen
      · exact hfresh seen write rfl earlier hsince

theorem kept_throughout_iff (env : DraftEnv) (authStateHash : String) (events : List Event) :
    (∀ earlier, earlier <+: events → Kept (run (step env) (newDraft authStateHash) earlier)) ↔
      Guarded (step env) NotOvertaken (newDraft authStateHash) events := by
  have halways : ∀ draft event, Sound authStateHash draft →
      Sound authStateHash (step env draft event) := fun draft event h => h.step event
  refine holds_throughout_iff (step env) NotOvertaken halways ?_ _ events
    (newDraft_sound authStateHash) List.Pairwise.nil
  exact fun draft event h hkept => kept_step_iff h hkept event

theorem run_sound (env : DraftEnv) (authStateHash : String) (events : List Event) :
    Sound authStateHash (run (step env) (newDraft authStateHash) events) := by
  induction events using List.reverseRecOn with
  | nil => exact newDraft_sound authStateHash
  | append_singleton events event ih =>
    unfold run
    rw [List.foldl_append]
    exact ih.step event

theorem writes_prefix (env : DraftEnv) (draft : Draft) (events : List Event) :
    draft.writes <+: (run (step env) draft events).writes := by
  induction events generalizing draft with
  | nil => exact List.prefix_refl _
  | cons event events ih =>
    have hstep : draft.writes <+: (step env draft event).writes := by
      rw [step_writes]
      exact List.prefix_append _ _
    exact hstep.trans (ih (step env draft event))

end Runs

section Submission

variable {env : DraftEnv} {authStateHash : String} {draft : Draft}

def OpenWith (number : ℕ) (draft : Draft) : Prop :=
  draft.row.status = .prOpen ∧ draft.row.pullRequest.map (·.pullRequestNumber) = some number

/-- The callback has taken the state token and queued the draft. -/
def Accepted (draft : Draft) (call : ℕ) : Prop :=
  draft.callbacks call = .queued ∨ draft.callbacks call = .ended true

/-- In all that happens to a new draft, an open pull request stays and one callback at most
takes the state token. -/
structure StaysSubmitted (env : DraftEnv) (authStateHash : String) (events : List Event) :
    Prop where
  open_kept : ∀ earlier later number, earlier <+: later → later <+: events →
    OpenWith number (run (step env) (newDraft authStateHash) earlier) →
      OpenWith number (run (step env) (newDraft authStateHash) later)
  one_callback : ∀ earlier, earlier <+: events → ∀ call other,
    Accepted (run (step env) (newDraft authStateHash) earlier) call →
      Accepted (run (step env) (newDraft authStateHash) earlier) other → call = other

theorem openWith_iff (h : Sound authStateHash draft) (number : ℕ) :
    OpenWith number draft ↔ LastOpened number draft.writes := by
  unfold OpenWith
  rw [h.row]
  exact replay_prOpen_iff authStateHash draft.writes number

theorem accepted_iff (h : Sound authStateHash draft) (call : ℕ) :
    Accepted draft call ↔ RowWrite.queued call ∈ draft.writes := by
  have hsound := h.callbacks call
  unfold Accepted
  generalize draft.callbacks call = phase at hsound
  cases phase with
  | queued => exact iff_of_true (Or.inl rfl) hsound
  | ended submitted =>
    cases submitted with
    | true => exact iff_of_true (Or.inr rfl) hsound
    | false => exact iff_of_false (by simp) hsound
  | idle => exact iff_of_false (by simp) hsound
  | checked seen => exact iff_of_false (by simp) hsound.2.2
  | exchanged seen _ => exact iff_of_false (by simp) hsound.2.2
  | tokenStored seen => exact iff_of_false (by simp) hsound.2.2

theorem StaysSubmitted.restrict {events earlier : List Event}
    (h : StaysSubmitted env authStateHash events) (hearlier : earlier <+: events) :
    StaysSubmitted env authStateHash earlier where
  open_kept := fun first second number hfirst hsecond =>
    h.open_kept first second number hfirst (hsecond.trans hearlier)
  one_callback := fun first hfirst => h.one_callback first (hfirst.trans hearlier)

theorem StaysSubmitted.kept {events : List Event} (h : StaysSubmitted env authStateHash events) :
    Kept (run (step env) (newDraft authStateHash) events) := by
  induction events using List.reverseRecOn with
  | nil => exact List.Pairwise.nil
  | append_singleton events event ih =>
    have hinit : events <+: events ++ [event] := List.prefix_append _ _
    have hkept := ih (h.restrict hinit)
    have hsound := run_sound env authStateHash events
    have hsound' := run_sound env authStateHash (events ++ [event])
    have hopen := fun number => h.open_kept events (events ++ [event]) number hinit
      (List.prefix_refl _)
    have hone := h.one_callback (events ++ [event]) (List.prefix_refl _)
    have hrun : run (step env) (newDraft authStateHash) (events ++ [event]) =
        step env (run (step env) (newDraft authStateHash) events) event := by
      unfold run
      rw [List.foldl_append]
      rfl
    rw [hrun] at hopen hone hsound' ⊢
    generalize run (step env) (newDraft authStateHash) events = draft at *
    apply (kept_step_iff hsound hkept event).mpr
    intro seen write hpending earlier hearlier
    have hmem : earlier ∈ draft.writes := List.mem_of_mem_drop hearlier
    have hwrites : (step env draft event).writes = draft.writes ++ [write] := by
      rw [step_writes, hpending]
      rfl
    cases earlier with
    | failed _ => trivial
    | opened pr =>
      have hbefore := (openWith_iff hsound _).mpr (lastOpened_of_mem hkept hmem)
      obtain ⟨before, pr', heq, hnumber⟩ := (openWith_iff hsound' _).mp (hopen _ hbefore)
      rw [hwrites] at heq
      have hlast : write = .opened pr' := by simpa using List.append_inj_right' heq rfl
      exact ⟨pr', hlast, hnumber⟩
    | queued other =>
      rintro call rfl
      have hcall : Accepted (step env draft event) call := by
        rw [accepted_iff hsound', hwrites]
        exact List.mem_append_right _ (List.mem_singleton_self _)
      have hother : Accepted (step env draft event) other := by
        rw [accepted_iff hsound', hwrites]
        exact List.mem_append_left _ hmem
      have hsame := hone call other hcall hother
      rcases pendingWrite_cases hsound hpending with ⟨call', heq, hphase, -⟩ | ⟨hwrite, -⟩
      · have hcallback := hsound.callbacks call'
        rw [hphase, ← RowWrite.queued.inj heq, hsame] at hcallback
        exact hcallback.2.2 hmem
      · exact hwrite call rfl

theorem staysSubmitted_of_kept {events : List Event}
    (h : ∀ earlier, earlier <+: events →
      Kept (run (step env) (newDraft authStateHash) earlier)) :
    StaysSubmitted env authStateHash events where
  open_kept := by
    intro earlier later number hearlier hlater hopen
    obtain ⟨rest, rfl⟩ := hearlier
    have hwrites : (run (step env) (newDraft authStateHash) earlier).writes <+:
        (run (step env) (newDraft authStateHash) (earlier ++ rest)).writes := by
      unfold run
      rw [List.foldl_append]
      exact writes_prefix env _ rest
    obtain ⟨before, pr, heq, hnumber⟩ :=
      (openWith_iff (run_sound env authStateHash earlier) number).mp hopen
    have hmem : RowWrite.opened pr ∈
        (run (step env) (newDraft authStateHash) (earlier ++ rest)).writes := by
      apply hwrites.subset
      rw [heq]
      exact List.mem_append_right _ (List.mem_singleton_self _)
    have hlast := lastOpened_of_mem (h _ hlater) hmem
    rw [hnumber] at hlast
    exact (openWith_iff (run_sound env authStateHash _) number).mpr hlast
  one_callback := by
    intro earlier hearlier call other hcall hother
    have hsound := run_sound env authStateHash earlier
    exact queued_unique (h earlier hearlier) ((accepted_iff hsound call).mp hcall)
      ((accepted_iff hsound other).mp hother)

/-- A submitted draft stays submitted and its state token is taken once exactly in the runs
where no update of the row lands after one, made since its call read the row, that it must
not follow. -/
theorem stays_submitted_iff (env : DraftEnv) (authStateHash : String) (events : List Event) :
    StaysSubmitted env authStateHash events ↔
      Guarded (step env) NotOvertaken (newDraft authStateHash) events := by
  rw [← kept_throughout_iff]
  constructor
  · intro h earlier hearlier
    exact (h.restrict hearlier).kept
  · exact staysSubmitted_of_kept

def sampleEnv : DraftEnv where
  draftFlowEnabled := true
  clientId := "client"
  clientSecret := "secret"
  encKey := "key"

/-- One callback queues the draft, its delivery opens the pull request, and the write that
marks the user's token as consumed fails. -/
def consumeFails : List Event :=
  [.callbackRead 0 ⟨"hash", true, "code", ""⟩, .callbackExchange 0 "token",
    .callbackStoreToken 0 3600000, .callbackQueue 0, .callbackSend 0,
    .deliveryRead 0, .deliveryToken 0 1000,
    .deliveryGitHub 0 (some ⟨"dev", "dev/catalog", "https://github.com/acme/catalog/pull/7", 7⟩),
    .deliveryWrite 0, .deliveryFail 0 "D1_ERROR", .deliveryError 0]

theorem consume_failure_overwrites :
    OpenWith 7 (run (step sampleEnv) (newDraft "hash") (consumeFails.take 9)) ∧
      (run (step sampleEnv) (newDraft "hash") consumeFails).row.status = .error ∧
      ¬ StaysSubmitted sampleEnv "hash" consumeFails := by
  have hopen : OpenWith 7 (run (step sampleEnv) (newDraft "hash") (consumeFails.take 9)) :=
    ⟨rfl, rfl⟩
  have herror : (run (step sampleEnv) (newDraft "hash") consumeFails).row.status = .error := rfl
  refine ⟨hopen, herror, fun h => ?_⟩
  have hlater := h.open_kept _ _ 7 (List.take_prefix 9 consumeFails) (List.prefix_refl _) hopen
  rw [OpenWith, herror] at hlater
  cases hlater.1

/-- Two callbacks read the row before either updates it. -/
example :
    let draft := run (step sampleEnv) (newDraft "hash")
      [.callbackRead 0 ⟨"hash", true, "code", ""⟩, .callbackRead 1 ⟨"hash", true, "code", ""⟩,
        .callbackExchange 0 "token", .callbackStoreToken 0 3600000, .callbackQueue 0,
        .callbackExchange 1 "token", .callbackStoreToken 1 3600000, .callbackQueue 1]
    Accepted draft 0 ∧ Accepted draft 1 :=
  ⟨Or.inl rfl, Or.inl rfl⟩

end Submission

end Gittensory.DraftSubmission
