import Gittensory.GuardedRun
import Gittensory.IsoTimestamp
import Gittensory.JsValue

/-!
The notify-evaluate job of one detected event, retried until an attempt returns
(`notifications/service.ts`, `queue/processors.ts`). An attempt inserts a delivery row and
then sends the row's notify-deliver job. A retry finds the row there and sends nothing, so
a row is delivered only by the attempt that inserted it.
-/
namespace Gittensory.NotificationDelivery

open GuardedRun IsoTimestamp JsValue

section Model

inductive NotificationChannel where
  | badge
  | email
  deriving DecidableEq, Repr

inductive NotificationDeliveryStatus where
  | pending
  | delivered
  | read
  | suppressed
  deriving DecidableEq, Repr

inductive NotificationEventType where
  | pullRequestChangesRequested
  | pullRequestMerged
  | issueWatchMatch
  deriving DecidableEq, Repr

structure DetectedNotificationEvent where
  eventType : NotificationEventType
  recipientLogin : String
  repoFullName : String
  pullNumber : ℕ
  dedupKey : String
  deeplink : String
  actorLogin : String
  deriving DecidableEq, Repr

inductive SubscriptionStatus where
  | active
  | paused
  deriving DecidableEq, Repr

structure NotificationSubscriptionRecord where
  channel : NotificationChannel
  status : SubscriptionStatus
  deriving DecidableEq, Repr

structure NotificationDeliveryRecord where
  id : String
  dedupKey : String
  channel : NotificationChannel
  recipientLogin : String
  eventType : NotificationEventType
  repoFullName : String
  pullNumber : ℕ
  title : String
  body : String
  deeplink : String
  actorLogin : String
  status : NotificationDeliveryStatus
  createdAt : String
  deliveredAt : Option String
  deriving DecidableEq, Repr

/-- What a write or a send comes to; `unconfirmed` took effect and threw all the same. -/
inductive Outcome where
  | done
  | lost
  | unconfirmed
  deriving DecidableEq, Repr

def Outcome.tookEffect : Outcome → Bool
  | .done => true
  | .lost => false
  | .unconfirmed => true

/-- The database calls for one channel. -/
structure ChannelCalls where
  countAnswered : Bool
  id : String
  createdAt : String
  insert : Outcome

/-- What one attempt of the job meets: `subscriptions` is `none` where the read throws, and
`clock` is the time in milliseconds. -/
structure Attempt where
  subscriptions : Option (List NotificationSubscriptionRecord)
  clock : ℤ
  calls : NotificationChannel → ChannelCalls
  send : String → Outcome

/-- The delivery rows, and the notify-deliver jobs sent so far. -/
structure DeliveryStore where
  deliveries : List NotificationDeliveryRecord
  sent : List String
  deriving DecidableEq, Repr

def NOTIFICATION_RATE_LIMIT_windowMinutes : ℤ := 60

def NOTIFICATION_RATE_LIMIT_maxPerWindow : ℕ := 10

def resolveNotificationChannels (subscriptions : List NotificationSubscriptionRecord) :
    List NotificationChannel :=
  let badgePaused := subscriptions.any (fun subscription =>
    subscription.channel = .badge && subscription.status = .paused)
  if badgePaused then [] else [.badge]

section Content

variable (sanitizePublicComment : String → String)

def eventRef (event : DetectedNotificationEvent) : String :=
  event.repoFullName ++ "#" ++ toString event.pullNumber

def buildChangesRequestedNotification (event : DetectedNotificationEvent) : String × String :=
  let reviewer :=
    if event.actorLogin ≠ "" ∧ event.actorLogin ≠ "unknown" then "@" ++ event.actorLogin
    else "a reviewer"
  (sanitizePublicComment ("Changes requested on " ++ eventRef event),
    sanitizePublicComment (reviewer ++ " requested changes on your pull request " ++
      eventRef event ++ ". Address the review feedback to keep it on track to merge."))

def buildMergedOutcomeNotification (event : DetectedNotificationEvent) : String × String :=
  (sanitizePublicComment ("Merged: " ++ eventRef event),
    sanitizePublicComment ("Your pull request " ++ eventRef event ++
      " merged. Merged contributions like this strengthen your standing and lane signals on " ++
      event.repoFullName ++
      " — check your decision pack for the next high-fit issue to keep your momentum."))

def buildIssueWatchNotification (event : DetectedNotificationEvent) : String × String :=
  (sanitizePublicComment ("New issue to grab on " ++ eventRef event),
    sanitizePublicComment ("A new maintainer-created issue opened on " ++ eventRef event ++
      " that is open for you to grab. Maintainer-created issues are strong early targets on " ++
      event.repoFullName ++ " — claim it to line up your next contribution."))

def buildNotificationContent (event : DetectedNotificationEvent) : String × String :=
  match event.eventType with
  | .pullRequestMerged => buildMergedOutcomeNotification sanitizePublicComment event
  | .issueWatchMatch => buildIssueWatchNotification sanitizePublicComment event
  | .pullRequestChangesRequested => buildChangesRequestedNotification sanitizePublicComment event

end Content

def rateLimitWindowStart (clock : ℤ) : Option String :=
  toISOString (clock - NOTIFICATION_RATE_LIMIT_windowMinutes * 60000)

/-- SQLite compares the texts byte by byte, which is the order of their code points. -/
def countRecentNotificationDeliveries (deliveries : List NotificationDeliveryRecord)
    (recipientLogin : String) (channel : NotificationChannel) (sinceIso : String) : ℕ :=
  (deliveries.filter (fun row => row.recipientLogin = toLowerCase recipientLogin &&
    row.channel = channel && row.status ≠ .suppressed && sinceIso ≤ row.createdAt)).length

def isKey (dedupKey : String) (channel : NotificationChannel) (row : NotificationDeliveryRecord) :
    Bool :=
  row.dedupKey = dedupKey && row.channel = channel

/-- A row of the same key is returned as it is; `none` means that the call throws, which it
does as well where the primary key is taken. -/
def insertNotificationDeliveryIfAbsent (deliveries : List NotificationDeliveryRecord)
    (record : NotificationDeliveryRecord) (outcome : Outcome) :
    List NotificationDeliveryRecord × Option (NotificationDeliveryRecord × Bool) :=
  match deliveries.find? (isKey record.dedupKey record.channel) with
  | some existing =>
      (deliveries, if outcome = .done then some (existing, false) else none)
  | none =>
      if deliveries.any (fun row => row.id = record.id) then (deliveries, none)
      else if outcome.tookEffect then
        (deliveries ++ [record], if outcome = .done then some (record, true) else none)
      else (deliveries, none)

variable (sanitizePublicComment : String → String) (event : DetectedNotificationEvent)

def deliveryStatus (recent : ℕ) : NotificationDeliveryStatus :=
  if NOTIFICATION_RATE_LIMIT_maxPerWindow ≤ recent then .suppressed else .pending

def deliveryRecord (channel : NotificationChannel) (calls : ChannelCalls)
    (status : NotificationDeliveryStatus) : NotificationDeliveryRecord where
  id := calls.id
  dedupKey := event.dedupKey
  channel := channel
  recipientLogin := toLowerCase event.recipientLogin
  eventType := event.eventType
  repoFullName := event.repoFullName
  pullNumber := event.pullNumber
  title := (buildNotificationContent sanitizePublicComment event).1
  body := (buildNotificationContent sanitizePublicComment event).2
  deeplink := event.deeplink
  actorLogin := event.actorLogin
  status := status
  createdAt := calls.createdAt
  deliveredAt := none

/-- The loop over the channels, with the pending rows it has created. -/
def evaluateChannels (attempt : Attempt) (windowStart : String) :
    List NotificationChannel → List NotificationDeliveryRecord →
      List NotificationDeliveryRecord →
        List NotificationDeliveryRecord × Option (List NotificationDeliveryRecord)
  | [], pending, deliveries => (deliveries, some pending)
  | channel :: rest, pending, deliveries =>
      let calls := attempt.calls channel
      if !calls.countAnswered then (deliveries, none)
      else
        let recent := countRecentNotificationDeliveries deliveries event.recipientLogin channel
          windowStart
        let record := deliveryRecord sanitizePublicComment event channel calls
          (deliveryStatus recent)
        match insertNotificationDeliveryIfAbsent deliveries record calls.insert with
        | (after, none) => (after, none)
        | (after, some (delivery, created)) =>
            evaluateChannels attempt windowStart rest
              (if created && delivery.status = .pending then pending ++ [delivery] else pending)
              after

/-- `none` where the evaluation throws. -/
def evaluateNotificationEvent (attempt : Attempt) (deliveries : List NotificationDeliveryRecord) :
    List NotificationDeliveryRecord × Option (List NotificationDeliveryRecord) :=
  match attempt.subscriptions with
  | none => (deliveries, none)
  | some subscriptions =>
      let channels := resolveNotificationChannels subscriptions
      if channels = [] then (deliveries, some [])
      else match rateLimitWindowStart attempt.clock with
        | none => (deliveries, none)
        | some windowStart =>
            evaluateChannels sanitizePublicComment event attempt windowStart channels [] deliveries

/-- The notify-evaluate case of `processJob`, and whether it returns. All sends are started
before the first failure is seen. -/
def processNotifyEvaluate (store : DeliveryStore) (attempt : Attempt) : DeliveryStore × Bool :=
  match evaluateNotificationEvent sanitizePublicComment event attempt store.deliveries with
  | (after, none) => (⟨after, store.sent⟩, false)
  | (after, some pending) =>
      let ids := pending.map NotificationDeliveryRecord.id
      (⟨after, store.sent ++ ids.filter (fun id => (attempt.send id).tookEffect)⟩,
        ids.all (fun id => attempt.send id = .done))

def markNotificationDeliveryDelivered (deliveries : List NotificationDeliveryRecord)
    (id now : String) : List NotificationDeliveryRecord :=
  deliveries.map (fun row =>
    if row.id = id ∧ row.status = .pending then
      { row with status := .delivered, deliveredAt := some now }
    else row)

def deliverNotification (deliveries : List NotificationDeliveryRecord) (deliveryId now : String) :
    List NotificationDeliveryRecord :=
  match deliveries.find? (fun row => row.id = deliveryId) with
  | none => deliveries
  | some delivery =>
      if delivery.status ≠ .pending then deliveries
      else markNotificationDeliveryDelivered deliveries deliveryId now

/-- What can happen to the store: an attempt of the event's job, a notify-deliver job that
was sent, and a row of another event together with its job. -/
inductive StoreEvent where
  | attempt (attempt : Attempt)
  | deliver (deliveryId now : String)
  | elsewhere (record : NotificationDeliveryRecord) (insert send : Outcome)

def storeStep (store : DeliveryStore) : StoreEvent → DeliveryStore
  | .attempt attempt => (processNotifyEvaluate sanitizePublicComment event store attempt).1
  | .deliver deliveryId now =>
      if deliveryId ∈ store.sent then
        { store with deliveries := deliverNotification store.deliveries deliveryId now }
      else store
  | .elsewhere record insert send =>
      if record.dedupKey = event.dedupKey then store
      else match insertNotificationDeliveryIfAbsent store.deliveries record insert with
        | (after, some (_, true)) =>
            ⟨after, if send.tookEffect then store.sent ++ [record.id] else store.sent⟩
        | (after, _) => ⟨after, store.sent⟩

end Model

/-! ## What an insert and an attempt do -/

/-- The insert writes a row: neither its key nor its id is taken. -/
def Inserts (deliveries : List NotificationDeliveryRecord) (dedupKey : String)
    (channel : NotificationChannel) (calls : ChannelCalls) : Prop :=
  (∀ row ∈ deliveries, isKey dedupKey channel row = false) ∧
    (∀ row ∈ deliveries, row.id ≠ calls.id) ∧ calls.insert.tookEffect = true

instance (deliveries : List NotificationDeliveryRecord) (dedupKey : String)
    (channel : NotificationChannel) (calls : ChannelCalls) :
    Decidable (Inserts deliveries dedupKey channel calls) :=
  inferInstanceAs (Decidable (_ ∧ _))

section Calls

variable {deliveries : List NotificationDeliveryRecord} {record : NotificationDeliveryRecord}
  {calls : ChannelCalls}

theorem insert_of_inserts (hid : record.id = calls.id)
    (h : Inserts deliveries record.dedupKey record.channel calls) :
    insertNotificationDeliveryIfAbsent deliveries record calls.insert =
      (deliveries ++ [record], if calls.insert = .done then some (record, true) else none) := by
  obtain ⟨hkey, hids, heffect⟩ := h
  have hfind : deliveries.find? (isKey record.dedupKey record.channel) = none :=
    List.find?_eq_none.mpr fun row hrow => by simp [hkey row hrow]
  have hany : deliveries.any (fun row => row.id = record.id) = false :=
    List.any_eq_false.mpr fun row hrow => by simp [hid, hids row hrow]
  simp [insertNotificationDeliveryIfAbsent, hfind, hany, heffect]

/-- An insert that writes nothing does not report a created row either. -/
theorem insert_of_not_inserts (hid : record.id = calls.id)
    (h : ¬ Inserts deliveries record.dedupKey record.channel calls) :
    ∃ result, insertNotificationDeliveryIfAbsent deliveries record calls.insert =
        (deliveries, result) ∧
      ∀ delivery created, result = some (delivery, created) → created = false := by
  unfold insertNotificationDeliveryIfAbsent
  cases hfind : deliveries.find? (isKey record.dedupKey record.channel) with
  | some existing =>
    refine ⟨_, rfl, ?_⟩
    intro delivery created hresult
    split_ifs at hresult with hdone
    · simp only [Option.some.injEq, Prod.mk.injEq] at hresult
      exact hresult.2.symm
  | none =>
    dsimp only
    split_ifs with hany heffect hdone
    · exact ⟨none, rfl, nofun⟩
    · refine absurd ⟨?_, ?_, heffect⟩ h
      · intro row hrow
        simpa using List.find?_eq_none.mp hfind row hrow
      · intro row hrow heq
        exact hany (List.any_eq_true.mpr ⟨row, hrow, by simp [heq, hid]⟩)
    · refine absurd ⟨?_, ?_, heffect⟩ h
      · intro row hrow
        simpa using List.find?_eq_none.mp hfind row hrow
      · intro row hrow heq
        exact hany (List.any_eq_true.mpr ⟨row, hrow, by simp [heq, hid]⟩)
    · exact ⟨none, rfl, nofun⟩

end Calls

section Runs

variable (sanitizePublicComment : String → String) (event : DetectedNotificationEvent)

/-- The badge channel is on, and its window is not full. -/
def mayNotify (deliveries : List NotificationDeliveryRecord) (attempt : Attempt) : Bool :=
  match attempt.subscriptions, rateLimitWindowStart attempt.clock with
  | some subscriptions, some windowStart =>
      resolveNotificationChannels subscriptions = [.badge] &&
        (attempt.calls .badge).countAnswered &&
        countRecentNotificationDeliveries deliveries event.recipientLogin .badge windowStart <
          NOTIFICATION_RATE_LIMIT_maxPerWindow
  | _, _ => false

/-- The attempt writes a pending row. -/
def CreatesPending (deliveries : List NotificationDeliveryRecord) (attempt : Attempt) : Prop :=
  mayNotify event deliveries attempt = true ∧
    Inserts deliveries event.dedupKey .badge (attempt.calls .badge)

instance (deliveries : List NotificationDeliveryRecord) (attempt : Attempt) :
    Decidable (CreatesPending event deliveries attempt) :=
  inferInstanceAs (Decidable (_ ∧ _))

/-- The row's insert is confirmed and its job reaches the queue. -/
def Sends (attempt : Attempt) : Prop :=
  (attempt.calls .badge).insert = .done ∧
    (attempt.send (attempt.calls .badge).id).tookEffect = true

instance (attempt : Attempt) : Decidable (Sends attempt) := inferInstanceAs (Decidable (_ ∧ _))

def badgeRecord (attempt : Attempt) (status : NotificationDeliveryStatus) :
    NotificationDeliveryRecord :=
  deliveryRecord sanitizePublicComment event .badge (attempt.calls .badge) status

theorem resolveNotificationChannels_cases (subscriptions : List NotificationSubscriptionRecord) :
    resolveNotificationChannels subscriptions = [] ∨
      resolveNotificationChannels subscriptions = [.badge] := by
  unfold resolveNotificationChannels
  dsimp only
  split_ifs
  · exact Or.inl rfl
  · exact Or.inr rfl

/-- The pass over the badge channel. -/
theorem evaluateChannels_badge (attempt : Attempt) (windowStart : String)
    (deliveries : List NotificationDeliveryRecord)
    (hcount : (attempt.calls .badge).countAnswered = true) :
    let status := deliveryStatus (countRecentNotificationDeliveries deliveries
      event.recipientLogin .badge windowStart)
    let record := badgeRecord sanitizePublicComment event attempt status
    evaluateChannels sanitizePublicComment event attempt windowStart [.badge] [] deliveries =
      match insertNotificationDeliveryIfAbsent deliveries record (attempt.calls .badge).insert with
      | (after, none) => (after, none)
      | (after, some (delivery, created)) =>
          (after, some (if created && delivery.status = .pending then [delivery] else [])) := by
  simp only [evaluateChannels, hcount, Bool.not_true, Bool.false_eq_true, if_false, badgeRecord,
    List.nil_append]

theorem evaluate_of_createsPending (attempt : Attempt)
    (deliveries : List NotificationDeliveryRecord) (h : CreatesPending event deliveries attempt) :
    evaluateNotificationEvent sanitizePublicComment event attempt deliveries =
      (deliveries ++ [badgeRecord sanitizePublicComment event attempt .pending],
        if (attempt.calls .badge).insert = .done then
          some [badgeRecord sanitizePublicComment event attempt .pending]
        else none) := by
  obtain ⟨hmay, hinserts⟩ := h
  unfold mayNotify at hmay
  split at hmay
  · rename_i subscriptions windowStart hsubscriptions hwindow
    simp only [Bool.and_eq_true, decide_eq_true_eq] at hmay
    obtain ⟨⟨hchannels, hcount⟩, hrecent⟩ := hmay
    have hstatus : deliveryStatus (countRecentNotificationDeliveries deliveries
        event.recipientLogin .badge windowStart) = .pending := by
      rw [deliveryStatus, if_neg (by omega)]
    simp only [evaluateNotificationEvent, hsubscriptions, hchannels, hwindow, List.cons_ne_nil,
      if_false, evaluateChannels_badge sanitizePublicComment event attempt windowStart deliveries
      hcount, hstatus]
    rw [@insert_of_inserts _ _ (attempt.calls .badge) rfl hinserts]
    split_ifs <;> rfl
  · cases hmay

/-- Otherwise no pending row appears, and none is handed on. -/
theorem evaluate_of_not_createsPending (attempt : Attempt)
    (deliveries : List NotificationDeliveryRecord) (h : ¬ CreatesPending event deliveries attempt) :
    ∃ suppressed result,
      evaluateNotificationEvent sanitizePublicComment event attempt deliveries =
        (deliveries ++ suppressed, result) ∧
      (∀ row ∈ suppressed, row.status = .suppressed) ∧ (result = none ∨ result = some []) := by
  unfold evaluateNotificationEvent
  cases hsubscriptions : attempt.subscriptions with
  | none => exact ⟨[], none, by simp, List.forall_mem_nil _, Or.inl rfl⟩
  | some subscriptions =>
    dsimp only
    rcases resolveNotificationChannels_cases subscriptions with hchannels | hchannels
    · exact ⟨[], some [], by simp [hchannels], List.forall_mem_nil _, Or.inr rfl⟩
    cases hwindow : rateLimitWindowStart attempt.clock with
    | none => exact ⟨[], none, by simp [hchannels], List.forall_mem_nil _, Or.inl rfl⟩
    | some windowStart =>
      cases hcount : (attempt.calls .badge).countAnswered with
      | false =>
        refine ⟨[], none, ?_, List.forall_mem_nil _, Or.inl rfl⟩
        simp [hchannels, evaluateChannels, hcount]
      | true =>
        simp only [hchannels, List.cons_ne_nil, if_false,
          evaluateChannels_badge sanitizePublicComment event attempt windowStart deliveries hcount]
        by_cases hinserts : Inserts deliveries event.dedupKey .badge (attempt.calls .badge)
        · have hfull : deliveryStatus (countRecentNotificationDeliveries deliveries
              event.recipientLogin .badge windowStart) = .suppressed := by
            refine if_pos (not_lt.mp fun hrecent => h ⟨?_, hinserts⟩)
            simp [mayNotify, hsubscriptions, hwindow, hchannels, hcount, hrecent]
          rw [hfull, @insert_of_inserts _ _ (attempt.calls .badge) rfl hinserts]
          refine ⟨[badgeRecord sanitizePublicComment event attempt .suppressed],
            if (attempt.calls .badge).insert = .done then some [] else none, ?_, ?_, ?_⟩
          · split_ifs <;> rfl
          · simp [badgeRecord, deliveryRecord]
          · split_ifs
            · exact Or.inr rfl
            · exact Or.inl rfl
        · obtain ⟨result, hresult, hcreated⟩ := @insert_of_not_inserts _
            (badgeRecord sanitizePublicComment event attempt (deliveryStatus
              (countRecentNotificationDeliveries deliveries event.recipientLogin .badge
                windowStart))) _ rfl hinserts
          rw [hresult]
          cases result with
          | none => exact ⟨[], none, by simp, List.forall_mem_nil _, Or.inl rfl⟩
          | some created =>
            refine ⟨[], some [], ?_, List.forall_mem_nil _, Or.inr rfl⟩
            simp [hcreated created.1 created.2 rfl]

/-- All an attempt can do to the store. -/
theorem attempt_cases (store : DeliveryStore) (attempt : Attempt) :
    (CreatesPending event store.deliveries attempt ∧
      (processNotifyEvaluate sanitizePublicComment event store attempt).1 =
        ⟨store.deliveries ++ [badgeRecord sanitizePublicComment event attempt .pending],
          if Sends attempt then store.sent ++ [(attempt.calls .badge).id] else store.sent⟩) ∨
    (¬ CreatesPending event store.deliveries attempt ∧ ∃ suppressed,
      (∀ row ∈ suppressed, row.status = .suppressed) ∧
      (processNotifyEvaluate sanitizePublicComment event store attempt).1 =
        ⟨store.deliveries ++ suppressed, store.sent⟩) := by
  by_cases h : CreatesPending event store.deliveries attempt
  · refine Or.inl ⟨h, ?_⟩
    simp only [processNotifyEvaluate, evaluate_of_createsPending _ _ _ _ h]
    by_cases hdone : (attempt.calls .badge).insert = .done
    · have hid : (badgeRecord sanitizePublicComment event attempt .pending).id =
          (attempt.calls .badge).id := rfl
      by_cases heffect : (attempt.send (attempt.calls .badge).id).tookEffect = true
      · simp [Sends, hdone, heffect, hid]
      · simp [Sends, hdone, heffect, hid]
    · simp [Sends, hdone]
  · refine Or.inr ⟨h, ?_⟩
    obtain ⟨suppressed, result, hresult, hsuppressed, hempty⟩ :=
      evaluate_of_not_createsPending sanitizePublicComment event attempt store.deliveries h
    refine ⟨suppressed, hsuppressed, ?_⟩
    rcases hempty with rfl | rfl
    · simp [processNotifyEvaluate, hresult]
    · simp [processNotifyEvaluate, hresult]

/-! ## Runs -/

/-- Every pending row of the event has had its job sent. -/
def PendingSent (store : DeliveryStore) : Prop :=
  ∀ row ∈ store.deliveries, row.dedupKey = event.dedupKey → row.status = .pending →
    row.id ∈ store.sent

instance (store : DeliveryStore) : Decidable (PendingSent event store) :=
  inferInstanceAs (Decidable (∀ row ∈ store.deliveries, _))

/-- Jobs are sent for rows only. -/
def SentForRows (store : DeliveryStore) : Prop :=
  ∀ id ∈ store.sent, ∃ row ∈ store.deliveries, row.id = id

/-- An attempt that creates a pending row also gets its job into the queue. -/
def SendsWhatItCreates (store : DeliveryStore) : StoreEvent → Prop
  | .attempt attempt => CreatesPending event store.deliveries attempt → Sends attempt
  | _ => True

theorem deliverNotification_cases (deliveries : List NotificationDeliveryRecord)
    (deliveryId now : String) :
    ∃ change : NotificationDeliveryRecord → NotificationDeliveryRecord,
      deliverNotification deliveries deliveryId now = deliveries.map change ∧
      ∀ row, (change row).id = row.id ∧ (change row).dedupKey = row.dedupKey ∧
        (row.id ≠ deliveryId → change row = row) ∧
        ((change row).status = .pending → row.status = .pending) := by
  have hkeep : deliveries = deliveries.map id := (List.map_id deliveries).symm
  unfold deliverNotification
  split
  · exact ⟨id, hkeep, fun row => ⟨rfl, rfl, fun _ => rfl, id⟩⟩
  · split_ifs
    · exact ⟨id, hkeep, fun row => ⟨rfl, rfl, fun _ => rfl, id⟩⟩
    · refine ⟨_, rfl, fun row => ?_⟩
      by_cases hrow : row.id = deliveryId ∧ row.status = .pending
      · simp [hrow]
      · simp only [if_neg hrow]
        exact ⟨trivial, trivial, fun _ => trivial, fun h => h⟩

/-- A row of another event comes with its own job at most. -/
theorem elsewhere_cases (store : DeliveryStore) (record : NotificationDeliveryRecord)
    (insert send : Outcome) :
    ∃ added jobs, storeStep sanitizePublicComment event store (.elsewhere record insert send) =
        ⟨store.deliveries ++ added, store.sent ++ jobs⟩ ∧
      (∀ row ∈ added, row.dedupKey ≠ event.dedupKey) ∧
      ∀ id ∈ jobs, (∃ row ∈ added, row.id = id) ∧ ∀ row ∈ store.deliveries, row.id ≠ id := by
  rw [storeStep]
  by_cases hkey : record.dedupKey = event.dedupKey
  · exact ⟨[], [], by simp [hkey], List.forall_mem_nil _, List.forall_mem_nil _⟩
  · rw [if_neg hkey]
    by_cases h : Inserts store.deliveries record.dedupKey record.channel
        ⟨true, record.id, record.createdAt, insert⟩
    · rw [insert_of_inserts rfl h]
      by_cases hdone : insert = .done
      · refine ⟨[record], if send.tookEffect then [record.id] else [], ?_, by simpa using hkey, ?_⟩
        · cases hsend : send.tookEffect <;> simp [hdone]
        · intro id hid
          split_ifs at hid
          · obtain rfl := List.mem_singleton.mp hid
            exact ⟨⟨record, List.mem_singleton.mpr rfl, rfl⟩, h.2.1⟩
          · exact absurd hid List.not_mem_nil
      · exact ⟨[record], [], by simp [hdone], by simpa using hkey, List.forall_mem_nil _⟩
    · obtain ⟨result, hresult, hcreated⟩ := insert_of_not_inserts rfl h
      rw [hresult]
      refine ⟨[], [], ?_, List.forall_mem_nil _, List.forall_mem_nil _⟩
      cases result with
      | none => simp
      | some created =>
        obtain ⟨delivery, flag⟩ := created
        obtain rfl := hcreated delivery flag rfl
        simp

theorem sentForRows_append {store : DeliveryStore} (hstore : SentForRows store)
    {added : List NotificationDeliveryRecord} {jobs : List String}
    (hjobs : ∀ id ∈ jobs, ∃ row ∈ added, row.id = id) :
    SentForRows ⟨store.deliveries ++ added, store.sent ++ jobs⟩ := by
  intro id hid
  rcases List.mem_append.mp hid with hid | hid
  · obtain ⟨row, hrow, heq⟩ := hstore id hid
    exact ⟨row, List.mem_append_left _ hrow, heq⟩
  · obtain ⟨row, hrow, heq⟩ := hjobs id hid
    exact ⟨row, List.mem_append_right _ hrow, heq⟩

/-- New rows and jobs leave the old rows as well or badly served as they were. -/
theorem pendingSent_append (store : DeliveryStore) {added : List NotificationDeliveryRecord}
    {jobs : List String} (hfresh : ∀ id ∈ jobs, ∀ row ∈ store.deliveries, row.id ≠ id) :
    PendingSent event ⟨store.deliveries ++ added, store.sent ++ jobs⟩ ↔
      PendingSent event store ∧ ∀ row ∈ added, row.dedupKey = event.dedupKey →
        row.status = .pending → row.id ∈ store.sent ++ jobs := by
  constructor
  · intro h
    refine ⟨fun row hrow hkey hpending => ?_, fun row hrow => h row (List.mem_append_right _ hrow)⟩
    rcases List.mem_append.mp (h row (List.mem_append_left _ hrow) hkey hpending) with hid | hid
    · exact hid
    · exact absurd rfl (hfresh row.id hid row hrow)
  · rintro ⟨hold, hnew⟩ row hrow hkey hpending
    rcases List.mem_append.mp hrow with hrow | hrow
    · exact List.mem_append_left _ (hold row hrow hkey hpending)
    · exact hnew row hrow hkey hpending

theorem sentForRows_step (store : DeliveryStore) (storeEvent : StoreEvent)
    (hstore : SentForRows store) :
    SentForRows (storeStep sanitizePublicComment event store storeEvent) := by
  cases storeEvent with
  | attempt attempt =>
    rw [storeStep]
    rcases attempt_cases sanitizePublicComment event store attempt with
      ⟨-, hafter⟩ | ⟨-, suppressed, -, hafter⟩
    · rw [hafter]
      split_ifs
      · refine sentForRows_append hstore ?_
        exact fun id hid => ⟨_, List.mem_singleton.mpr rfl, (List.mem_singleton.mp hid).symm⟩
      · simpa using @sentForRows_append _ hstore _ [] (List.forall_mem_nil _)
    · rw [hafter]
      simpa using @sentForRows_append _ hstore _ [] (List.forall_mem_nil _)
  | deliver deliveryId now =>
    rw [storeStep]
    split_ifs
    · obtain ⟨change, hchange, hrows⟩ := deliverNotification_cases store.deliveries deliveryId now
      intro id hid
      obtain ⟨row, hrow, rfl⟩ := hstore id hid
      refine ⟨change row, ?_, (hrows row).1⟩
      rw [hchange]
      exact List.mem_map_of_mem hrow
    · exact hstore
  | elsewhere record insert send =>
    obtain ⟨added, jobs, hafter, -, hjobs⟩ :=
      elsewhere_cases sanitizePublicComment event store record insert send
    rw [hafter]
    exact sentForRows_append hstore fun id hid => (hjobs id hid).1

theorem pendingSent_step (store : DeliveryStore) (storeEvent : StoreEvent)
    (hstore : SentForRows store) :
    PendingSent event (storeStep sanitizePublicComment event store storeEvent) ↔
      PendingSent event store ∧ SendsWhatItCreates event store storeEvent := by
  cases storeEvent with
  | attempt attempt =>
    rw [storeStep, SendsWhatItCreates]
    rcases attempt_cases sanitizePublicComment event store attempt with
      ⟨hcreates, hafter⟩ | ⟨hcreates, suppressed, hsuppressed, hafter⟩
    · rw [hafter]
      have hids : ∀ row ∈ store.deliveries, row.id ≠ (attempt.calls .badge).id := hcreates.2.2.1
      by_cases hsends : Sends attempt
      · rw [if_pos hsends, pendingSent_append]
        · simp [hcreates, hsends, badgeRecord, deliveryRecord]
        · intro id hid
          rw [List.mem_singleton.mp hid]
          exact hids
      · have hunsent : (attempt.calls .badge).id ∉ store.sent := by
          intro hid
          obtain ⟨row, hrow, heq⟩ := hstore _ hid
          exact hids row hrow heq
        have happend := @pendingSent_append event store
          [badgeRecord sanitizePublicComment event attempt .pending] [] (List.forall_mem_nil _)
        rw [List.append_nil] at happend
        rw [if_neg hsends, happend]
        simp [hcreates, hsends, badgeRecord, deliveryRecord, hunsent]
    · have happend := @pendingSent_append event store suppressed [] (List.forall_mem_nil _)
      rw [List.append_nil] at happend
      rw [hafter, happend]
      refine and_congr_right fun _ => ?_
      refine iff_of_true (fun row hrow _ hpending => ?_) (fun h => absurd h hcreates)
      rw [hsuppressed row hrow] at hpending
      cases hpending
  | deliver deliveryId now =>
    simp only [SendsWhatItCreates, and_true, storeStep]
    split_ifs with hsent
    · obtain ⟨change, hchange, hrows⟩ := deliverNotification_cases store.deliveries deliveryId now
      simp only [PendingSent, hchange, List.forall_mem_map]
      refine forall₂_congr fun row _ => ?_
      obtain ⟨hid, hkey, hother, hpending⟩ := hrows row
      rw [hid, hkey]
      by_cases hrow : row.id = deliveryId
      · rw [hrow]
        simp [hsent]
      · rw [hother hrow]
    · rfl
  | elsewhere record insert send =>
    obtain ⟨added, jobs, hafter, hkeys, hjobs⟩ :=
      elsewhere_cases sanitizePublicComment event store record insert send
    rw [hafter, pendingSent_append event store fun id hid => (hjobs id hid).2]
    refine and_congr_right fun _ => ?_
    exact iff_of_true (fun row hrow hkey => absurd hkey (hkeys row hrow)) trivial

/-- The attempt returns to the queue without an error. -/
def Returns (store : DeliveryStore) (attempt : Attempt) : Prop :=
  (processNotifyEvaluate sanitizePublicComment event store attempt).2 = true

instance (store : DeliveryStore) (attempt : Attempt) :
    Decidable (Returns sanitizePublicComment event store attempt) :=
  inferInstanceAs (Decidable (_ = true))

theorem sends_of_returns {store : DeliveryStore} {attempt : Attempt}
    (hreturns : Returns sanitizePublicComment event store attempt)
    (hcreates : CreatesPending event store.deliveries attempt) : Sends attempt := by
  unfold Returns processNotifyEvaluate at hreturns
  rw [evaluate_of_createsPending sanitizePublicComment event attempt _ hcreates] at hreturns
  by_cases hdone : (attempt.calls .badge).insert = .done
  · have hsend : attempt.send (attempt.calls .badge).id = .done := by
      simpa [hdone, badgeRecord, deliveryRecord] using hreturns
    exact ⟨hdone, by rw [hsend, Outcome.tookEffect]⟩
  · simp [hdone] at hreturns

/-- After the attempt that returns, every pending row of the event has its job, exactly when
that was so before the first attempt and no earlier attempt created a pending row and then
failed before the row's job was in the queue. -/
theorem pendingSent_after_return_iff (start : DeliveryStore) (hstart : SentForRows start)
    (history : List StoreEvent) (last : Attempt)
    (hlast : Returns sanitizePublicComment event
      (run (storeStep sanitizePublicComment event) start history) last) :
    PendingSent event
        (run (storeStep sanitizePublicComment event) start (history ++ [.attempt last])) ↔
      PendingSent event start ∧
        Guarded (storeStep sanitizePublicComment event) (SendsWhatItCreates event) start history := by
  have hsent : SentForRows (run (storeStep sanitizePublicComment event) start history) :=
    run_keeps _ (sentForRows_step sanitizePublicComment event) start history hstart
  have hrun := holds_after_iff (storeStep sanitizePublicComment event)
    (SendsWhatItCreates event) (sentForRows_step sanitizePublicComment event)
    (pendingSent_step sanitizePublicComment event) start history hstart
  rw [run_append, ← hrun]
  refine (pendingSent_step sanitizePublicComment event _ (.attempt last) hsent).trans ?_
  exact and_iff_left fun hcreates => sends_of_returns sanitizePublicComment event hlast hcreates

end Runs

/-! ## A lost notification -/

def mergedEvent : DetectedNotificationEvent where
  eventType := .pullRequestMerged
  recipientLogin := "miner"
  repoFullName := "o/r"
  pullNumber := 7
  dedupKey := "pull_request_merged:o/r#7:miner"
  deeplink := "https://github.com/o/r/pull/7"
  actorLogin := "maintainer"

/-- An attempt with no subscriptions stored, in which only the sends may fail. -/
def attemptWith (id : String) (send : Outcome) : Attempt where
  subscriptions := some []
  clock := 1000
  calls := fun _ => ⟨true, id, "1970-01-01T00:00:01.000Z", .done⟩
  send := fun _ => send

/-- The first send fails, and the retry returns without sending anything. -/
theorem pendingSent_after_return_fails :
    ¬ Returns id mergedEvent ⟨[], []⟩ (attemptWith "d1" .lost) ∧
      Returns id mergedEvent
        (run (storeStep id mergedEvent) ⟨[], []⟩ [.attempt (attemptWith "d1" .lost)])
        (attemptWith "d2" .done) ∧
      ¬ PendingSent mergedEvent (run (storeStep id mergedEvent) ⟨[], []⟩
        ([.attempt (attemptWith "d1" .lost)] ++ [.attempt (attemptWith "d2" .done)])) := by
  decide +kernel

/-- An attempt that fails before it inserts anything loses nothing. -/
def unreadAttempt : Attempt := { attemptWith "d1" .done with subscriptions := none }

theorem pendingSent_after_return_unread :
    PendingSent mergedEvent (run (storeStep id mergedEvent) ⟨[], []⟩
        ([.attempt unreadAttempt] ++ [.attempt (attemptWith "d1" .done)])) ↔
      PendingSent mergedEvent ⟨[], []⟩ ∧
        Guarded (storeStep id mergedEvent) (SendsWhatItCreates mergedEvent) ⟨[], []⟩
          [.attempt unreadAttempt] :=
  pendingSent_after_return_iff id mergedEvent ⟨[], []⟩ (List.forall_mem_nil _)
    [.attempt unreadAttempt] (attemptWith "d1" .done) (by decide +kernel)

end Gittensory.NotificationDelivery
