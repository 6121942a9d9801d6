import StreamPay.WebhookWorkers

/-! Attempts of one delivery, made one after another on the row as it stands, over a
repository whose calls may throw before or after they have taken effect. -/
namespace StreamPay
open Interleaving WebhookRepository

/-- How a call of `updateDelivery` ends; one that throws `late` has taken effect before. -/
inductive UpdateOutcome
  | returns
  | throws (message : String) (late : Bool)
  deriving DecidableEq, Repr

def UpdateOutcome.takesEffect : UpdateOutcome → Bool
  | .returns => true
  | .throws _ late => late

def UpdateOutcome.returned : UpdateOutcome → Bool
  | .returns => true
  | .throws _ _ => false

def FetchOutcome.ok : FetchOutcome → Bool
  | .response status => responseOk status
  | .error _ => false

/-- What the calls of an attempt meet. Without a subscription its one update is `failing`. -/
structure AttemptCalls where
  findThrows : Bool
  fetched : FetchOutcome
  succeeding : UpdateOutcome
  succeededAt : Date
  failing : UpdateOutcome
  failedAt : Date
  deriving DecidableEq, Repr

/-- The failure of the attempt is written: its response is no success, or the success
could not be written. -/
def AttemptCalls.writesFailure (calls : AttemptCalls) : Bool :=
  !(calls.fetched.ok && calls.succeeding.returned) && calls.failing.takesEffect

def UpdateOutcome.update (outcome : UpdateOutcome) (deliveries : WebhookDeliveries) (now : Date)
    (id : String) (patch : WebhookDeliveryPatch) : WebhookDeliveries :=
  if outcome.takesEffect then updateDelivery deliveries now id patch else deliveries

/-- The rows after an attempt, and its request with what came of it. The calls of the
repository may throw late, which those of `WebhookSystem.step` do not; the turns of a
worker are known to come to the same only where none of them does. -/
def attempt (runtime : WebhookRuntime) (subscriptions : WebhookSubscriptions)
    (deliveries : WebhookDeliveries) (delivery : WebhookDelivery) (calls : AttemptCalls) :
    WebhookDeliveries × Option (WebhookRequest × FetchOutcome) :=
  if calls.findThrows then (deliveries, none)
  else match findSubscriptionById subscriptions delivery.subscriptionId with
    | none =>
      (calls.failing.update deliveries calls.failedAt delivery.id subscriptionNotFound, none)
    | some sub =>
      let attempts := delivery.attempts+1
      let sent := (webhookRequest runtime sub delivery, calls.fetched)
      let fail := fun deliveries httpStatus errorMessage =>
        calls.failing.update deliveries calls.failedAt delivery.id
          (deliveryFailed calls.failedAt attempts httpStatus errorMessage)
      match calls.fetched with
      | .error message => (fail deliveries none message, some sent)
      | .response status =>
        if responseOk status then
          let deliveries := calls.succeeding.update deliveries calls.succeededAt delivery.id
            (deliverySucceeded attempts status)
          match calls.succeeding with
          | .returns => (deliveries, some sent)
          -- the update stands in the `try` block of the request
          | .throws message _ => (fail deliveries (some status) message, some sent)
        else (fail deliveries (some status) s!"HTTP {status}", some sent)

structure DeliveryRun where
  subscriptions : WebhookSubscriptions
  deliveries : WebhookDeliveries
  /-- The requests of the delivery so far, with what came of them. -/
  sent : List (WebhookRequest × FetchOutcome)

inductive DeliveryAction
  | attempt (calls : AttemptCalls)
  | deleteSubscription (subscriptionId : String)

/-- The row that `enqueue` stores for a subscription. -/
def enqueuedDelivery (id subscriptionId eventType payload : String) (now : Date) :
    WebhookDelivery where
  id := id
  subscriptionId := subscriptionId
  eventType := eventType
  payload := payload
  status := .pending
  attempts := 0
  nextAttemptAt := some now
  lastHttpStatus := none
  lastError := none
  updatedAt := now

namespace DeliveryRun

def enqueued (subscriptions : WebhookSubscriptions) (deliveries : WebhookDeliveries)
    (id subscriptionId eventType payload : String) (now : Date) : DeliveryRun :=
  ⟨subscriptions,
    deliveries.set id (enqueuedDelivery id subscriptionId eventType payload now), []⟩

/-- Attempts of the delivery `id`; its row goes with its subscription. -/
def step (runtime : WebhookRuntime) (id : String) (s : DeliveryRun) :
    DeliveryAction → Option DeliveryRun
  | .attempt calls =>
    (s.deliveries.get id).map fun delivery =>
      let (deliveries, sent) := attempt runtime s.subscriptions s.deliveries delivery calls
      { s with deliveries := deliveries, sent := s.sent ++ sent.toList }
  | .deleteSubscription subscriptionId =>
    some { s with
      subscriptions := s.subscriptions.delete subscriptionId
      deliveries :=
        if (s.deliveries.get id).any fun delivery => delivery.subscriptionId = subscriptionId
        then s.deliveries.delete id else s.deliveries }

def acknowledged (s : DeliveryRun) : Bool := s.sent.any fun entry => entry.2.ok

def hasSubscription (s : DeliveryRun) (delivery : WebhookDelivery) : Bool :=
  (findSubscriptionById s.subscriptions delivery.subscriptionId).isSome

/-- A delivery that has failed, with its subscription present, was never acknowledged. -/
def FailedUnacknowledged (id : String) (s : DeliveryRun) : Prop :=
  ∀ delivery, s.deliveries.get id = some delivery → s.hasSubscription delivery = true →
    delivery.status = .failed → s.acknowledged = false

/-- An attempt with a 2xx response, or on a row that is `success` already, writes no
failure, and leaves the row as `success`. -/
def RecordsSuccess (id : String) (s : DeliveryRun) : DeliveryAction → Prop
  | .attempt calls => ∀ delivery, s.deliveries.get id = some delivery →
      s.hasSubscription delivery = true → calls.findThrows = false →
      calls.fetched.ok = true ∨ delivery.status = .success →
      calls.writesFailure = false ∧
        (delivery.status = .success ∨ calls.succeeding.takesEffect = true)
  | .deleteSubscription _ => True

end DeliveryRun

/-- An attempt that reaches its subscriber may write a success and then a failure. -/
theorem attempt_of_subscribed {runtime : WebhookRuntime} {subscriptions : WebhookSubscriptions}
    {delivery : WebhookDelivery} {sub : WebhookSubscription} {calls : AttemptCalls}
    (hsub : findSubscriptionById subscriptions delivery.subscriptionId = some sub)
    (hfound : calls.findThrows = false) (deliveries : WebhookDeliveries) :
    ∃ status httpStatus errorMessage,
      attempt runtime subscriptions deliveries delivery calls =
        (let written := if calls.fetched.ok then
            calls.succeeding.update deliveries calls.succeededAt delivery.id
              (deliverySucceeded (delivery.attempts+1) status)
          else deliveries
        if calls.fetched.ok && calls.succeeding.returned then written
        else calls.failing.update written calls.failedAt delivery.id
          (deliveryFailed calls.failedAt (delivery.attempts+1) httpStatus errorMessage),
        some (webhookRequest runtime sub delivery, calls.fetched)) := by
  cases hfetched : calls.fetched with
  | error message =>
    refine ⟨0, none, message, ?_⟩
    simp [attempt, hfound, hsub, hfetched, FetchOutcome.ok]
  | response status =>
    by_cases hok : responseOk status = true
    · cases hsucceeding : calls.succeeding with
      | returns =>
        refine ⟨status, none, "", ?_⟩
        simp [attempt, hfound, hsub, hfetched, FetchOutcome.ok, hok, hsucceeding,
          UpdateOutcome.returned]
      | throws message late =>
        refine ⟨status, some status, message, ?_⟩
        simp [attempt, hfound, hsub, hfetched, FetchOutcome.ok, hok, hsucceeding,
          UpdateOutcome.returned]
    · refine ⟨0, some status, s!"HTTP {status}", ?_⟩
      simp [attempt, hfound, hsub, hfetched, FetchOutcome.ok, hok]

theorem get_update (outcome : UpdateOutcome) (deliveries : WebhookDeliveries) (now : Date)
    (id : String) (patch : WebhookDeliveryPatch) :
    (outcome.update deliveries now id patch).get id = (deliveries.get id).map fun delivery =>
      if outcome.takesEffect then patch.apply now delivery else delivery := by
  unfold UpdateOutcome.update
  split_ifs
  · rw [updateDelivery, InsertionMap.get_modify, if_pos rfl]
  · simp

/-- The status that an attempt leaves behind; the written failure counts the attempt. -/
structure AttemptLeaves (calls : AttemptCalls) (before after : WebhookDelivery) : Prop where
  id_eq : after.id = before.id
  subscriptionId_eq : after.subscriptionId = before.subscriptionId
  status_eq : after.status =
    if calls.writesFailure then if maxAttempts ≤ before.attempts+1 then .failed else .pending
    else if calls.fetched.ok && calls.succeeding.takesEffect then .success else before.status
  attempts_eq : calls.writesFailure = true → after.attempts = before.attempts+1

theorem get_attempt {runtime : WebhookRuntime} {subscriptions : WebhookSubscriptions}
    {deliveries : WebhookDeliveries} {delivery : WebhookDelivery} {sub : WebhookSubscription}
    {calls : AttemptCalls} (hget : deliveries.get delivery.id = some delivery)
    (hsub : findSubscriptionById subscriptions delivery.subscriptionId = some sub)
    (hfound : calls.findThrows = false) :
    (attempt runtime subscriptions deliveries delivery calls).2 =
      some (webhookRequest runtime sub delivery, calls.fetched) ∧
    ∃ after, (attempt runtime subscriptions deliveries delivery calls).1.get delivery.id =
      some after ∧ AttemptLeaves calls delivery after := by
  obtain ⟨status,httpStatus,errorMessage,hattempt⟩ :=
    attempt_of_subscribed hsub hfound deliveries
  rw [hattempt]
  refine ⟨rfl, ?_⟩
  have hwritten : ∀ written : WebhookDeliveries, ∀ row,
      written.get delivery.id = some row → row.id = delivery.id →
      row.subscriptionId = delivery.subscriptionId → row.status =
        (if calls.fetched.ok && calls.succeeding.takesEffect then .success else delivery.status) →
      ∃ after, (if calls.fetched.ok && calls.succeeding.returned then written
        else calls.failing.update written calls.failedAt delivery.id (deliveryFailed calls.failedAt
          (delivery.attempts+1) httpStatus errorMessage)).get delivery.id = some after ∧
        AttemptLeaves calls delivery after := by
    intro written row hrow hid hsubscription hstatus
    cases hreturned : calls.fetched.ok && calls.succeeding.returned with
    | true =>
      have hnone : calls.writesFailure = false := by simp [AttemptCalls.writesFailure, hreturned]
      refine ⟨row, by simpa using hrow, hid, hsubscription, ?_, ?_⟩
      · simpa [hnone] using hstatus
      · simp [hnone]
    | false =>
      have hfails : calls.writesFailure = calls.failing.takesEffect := by
        simp [AttemptCalls.writesFailure, hreturned]
      rw [if_neg Bool.false_ne_true, get_update, hrow, Option.map_some]
      cases heffect : calls.failing.takesEffect with
      | true =>
        rw [heffect] at hfails
        refine ⟨_, rfl, hid, hsubscription, ?_, fun _ => ?_⟩
        · simp [hfails, WebhookDeliveryPatch.apply, deliveryFailed]
        · simp [WebhookDeliveryPatch.apply, deliveryFailed]
      | false =>
        rw [heffect] at hfails
        refine ⟨row, rfl, hid, hsubscription, ?_, ?_⟩
        · simpa [hfails] using hstatus
        · simp [hfails]
  cases hok : calls.fetched.ok with
  | false =>
    have hnot := hwritten deliveries delivery hget rfl rfl (by simp [hok])
    simpa [hok] using hnot
  | true =>
    have hrow := get_update calls.succeeding deliveries calls.succeededAt delivery.id
      (deliverySucceeded (delivery.attempts+1) status)
    rw [hget, Option.map_some] at hrow
    have hafter := hwritten _ _ hrow
    rw [hok] at hafter
    apply hafter
    · split_ifs <;> rfl
    · split_ifs <;> rfl
    · cases heffect : calls.succeeding.takesEffect <;> rfl

def Attempt.afterUpdate (attempt : Attempt) : UpdateOutcome → AttemptProgress
  | .returns => .finished
  | .throws message _ => attempt.afterThrow message

def UpdateOutcome.thrown : UpdateOutcome → Option String
  | .returns => none
  | .throws message _ => some message

/-- The turns that a worker takes for an attempt. -/
def attemptTurns {ι : Type*} (i : ι) (deliveryId : String) (subscribed : Bool)
    (calls : AttemptCalls) : List (WebhookAction ι) :=
  if calls.findThrows then [.findSubscription i deliveryId true]
  else if !subscribed then
    [.findSubscription i deliveryId false, .record i deliveryId calls.failing.thrown]
  else
    [.findSubscription i deliveryId false, .send i deliveryId,
      .receive i deliveryId calls.fetched] ++
    (if calls.fetched.ok then [.record i deliveryId calls.succeeding.thrown] else []) ++
    (if calls.fetched.ok && calls.succeeding.returned then []
      else [.record i deliveryId calls.failing.thrown])

section WorkerTurns
variable {ι : Type*} [DecidableEq ι] (owner : ι → String) (runtime : WebhookRuntime)
  {s : WebhookSystem ι} {i : ι} {deliveryId : String} {delivery : WebhookDelivery}

theorem attempt_setAttempt_self (s : WebhookSystem ι) (i : ι) (deliveryId : String)
    (attempt : Option Attempt) :
    (s.setAttempt i deliveryId attempt).attempt i deliveryId = attempt := by
  rw [WebhookSystem.attempt_setAttempt, if_pos ⟨rfl, rfl⟩]

theorem step_record {progress : AttemptProgress} {patch : WebhookDeliveryPatch}
    {outcome : UpdateOutcome} (h : s.attempt i deliveryId = some ⟨delivery, progress⟩)
    (hpatch : Attempt.patch s.now ⟨delivery, progress⟩ = some patch)
    (hlate : outcome.returned = outcome.takesEffect) :
    ∃ t, WebhookSystem.step owner runtime s (.record i deliveryId outcome.thrown) = some t ∧
      t.now = s.now ∧ t.deliveries = outcome.update s.deliveries s.now delivery.id patch ∧
      t.attempt i deliveryId =
        some ⟨delivery, Attempt.afterUpdate ⟨delivery, progress⟩ outcome⟩ := by
  cases outcome with
  | returns =>
    refine ⟨{ s.setAttempt i deliveryId (some ⟨delivery, .finished⟩) with
      deliveries := updateDelivery s.deliveries s.now delivery.id patch }, ?_, rfl, rfl, ?_⟩
    · simp only [WebhookSystem.step, h, hpatch, UpdateOutcome.thrown]
    · exact attempt_setAttempt_self s i deliveryId _
  | throws message late =>
    obtain rfl : late = false := hlate.symm
    refine ⟨s.setAttempt i deliveryId (some ⟨delivery,
      Attempt.afterThrow ⟨delivery, progress⟩ message⟩), ?_, rfl, rfl, ?_⟩
    · simp only [WebhookSystem.step, h, hpatch, UpdateOutcome.thrown]
    · exact attempt_setAttempt_self s i deliveryId _

/-- The turns up to the response of the receiver. -/
theorem exec_request {sub : WebhookSubscription}
    (h : s.attempt i deliveryId = some ⟨delivery, .started⟩)
    (hsub : findSubscriptionById s.subscriptions delivery.subscriptionId = some sub)
    (fetched : FetchOutcome) : ∃ t, t.now = s.now ∧ t.deliveries = s.deliveries ∧
      t.attempt i deliveryId = some ⟨delivery, outcomeProgress fetched⟩ ∧
      ∀ turns, exec (WebhookSystem.step owner runtime) s
        (.findSubscription i deliveryId false :: .send i deliveryId ::
          .receive i deliveryId fetched :: turns) =
            exec (WebhookSystem.step owner runtime) t turns := by
  let asked := s.setAttempt i deliveryId (some ⟨delivery, .subscribed sub⟩)
  let sent : WebhookSystem ι :=
    { asked.setAttempt i deliveryId (some ⟨delivery, .requested⟩) with
      requests := s.requests ++ [(delivery.id, webhookRequest runtime sub delivery)] }
  have hasked : WebhookSystem.step owner runtime s (.findSubscription i deliveryId false) =
      some asked := by
    simp [WebhookSystem.step, h, hsub, asked]
  have hsent : WebhookSystem.step owner runtime asked (.send i deliveryId) = some sent := by
    have hsubscribed := attempt_setAttempt_self s i deliveryId (some ⟨delivery, .subscribed sub⟩)
    simp only [WebhookSystem.step, asked, hsubscribed]
    rfl
  have hreceived : WebhookSystem.step owner runtime sent (.receive i deliveryId fetched) =
      some (sent.setAttempt i deliveryId (some ⟨delivery, outcomeProgress fetched⟩)) := by
    have hrequested : sent.attempt i deliveryId = some ⟨delivery, .requested⟩ :=
      attempt_setAttempt_self asked i deliveryId _
    simp only [WebhookSystem.step, hrequested]
  refine ⟨sent.setAttempt i deliveryId (some ⟨delivery, outcomeProgress fetched⟩), rfl, rfl,
    attempt_setAttempt_self sent i deliveryId _, ?_⟩
  intro turns
  rw [exec, hasked, Option.bind_some, exec, hsent, Option.bind_some, exec, hreceived,
    Option.bind_some]

/-- The update of the failure branch ends the attempt, however it ends itself. -/
theorem exec_failing {calls : AttemptCalls} {progress : AttemptProgress}
    {patch : WebhookDeliveryPatch} (h : s.attempt i deliveryId = some ⟨delivery, progress⟩)
    (hfailing : calls.failing.returned = calls.failing.takesEffect)
    (hfailedAt : calls.failedAt = s.now)
    (hpatch : Attempt.patch s.now ⟨delivery, progress⟩ = some patch)
    (hends : ∀ message, Attempt.afterThrow ⟨delivery, progress⟩ message = .finished) :
    ∃ t, exec (WebhookSystem.step owner runtime) s
        [.record i deliveryId calls.failing.thrown] = some t ∧
      t.deliveries = calls.failing.update s.deliveries calls.failedAt delivery.id patch ∧
      t.attempt i deliveryId = some ⟨delivery, .finished⟩ := by
  obtain ⟨t,ht,_,hwritten,hprogress⟩ := step_record owner runtime h hpatch hfailing
  refine ⟨t, by rw [exec, ht]; rfl, by rw [hwritten, hfailedAt], ?_⟩
  rw [hprogress]
  cases calls.failing with
  | returns => rfl
  | throws message late => rw [Attempt.afterUpdate, hends]

/-- The workers' turns write what the attempt writes, if no call throws late. -/
theorem exec_attemptTurns {calls : AttemptCalls}
    (h : s.attempt i deliveryId = some ⟨delivery, .started⟩)
    (hsucceeding : calls.succeeding.returned = calls.succeeding.takesEffect)
    (hfailing : calls.failing.returned = calls.failing.takesEffect)
    (hsucceededAt : calls.succeededAt = s.now) (hfailedAt : calls.failedAt = s.now) :
    ∃ t, exec (WebhookSystem.step owner runtime) s (attemptTurns i deliveryId
        (findSubscriptionById s.subscriptions delivery.subscriptionId).isSome calls) = some t ∧
      t.deliveries = (attempt runtime s.subscriptions s.deliveries delivery calls).1 ∧
      t.attempt i deliveryId = some ⟨delivery, .finished⟩ := by
  cases hfound : calls.findThrows with
  | true =>
    refine ⟨s.setAttempt i deliveryId (some ⟨delivery, .finished⟩), ?_, ?_, ?_⟩
    · simp [attemptTurns, hfound, exec, WebhookSystem.step, h]
    · rw [attempt, if_pos hfound]
      rfl
    · exact attempt_setAttempt_self s i deliveryId _
  | false =>
    cases hsub : findSubscriptionById s.subscriptions delivery.subscriptionId with
    | none =>
      obtain ⟨t,ht,hwritten,hfinished⟩ := exec_failing owner runtime
        (attempt_setAttempt_self s i deliveryId (some ⟨delivery, .unsubscribed⟩)) hfailing
        hfailedAt rfl fun _ => rfl
      refine ⟨t, ?_, ?_, hfinished⟩
      · simpa [attemptTurns, hfound, exec, WebhookSystem.step, h, hsub] using ht
      · rw [hwritten, attempt, hfound, if_neg Bool.false_ne_true, hsub]
        rfl
    | some sub =>
      obtain ⟨u,hnow,hrows,hprogress,hexec⟩ := exec_request owner runtime h hsub calls.fetched
      have hturns : attemptTurns i deliveryId true calls =
          .findSubscription i deliveryId false :: .send i deliveryId ::
            .receive i deliveryId calls.fetched ::
          ((if calls.fetched.ok then [.record i deliveryId calls.succeeding.thrown] else []) ++
            (if calls.fetched.ok && calls.succeeding.returned then []
              else [.record i deliveryId calls.failing.thrown])) := by
        simp [attemptTurns, hfound]
      have hfailedNow : calls.failedAt = u.now := hfailedAt.trans hnow.symm
      rw [Option.isSome_some, hturns, hexec]
      cases hfetched : calls.fetched with
      | error message =>
        rw [hfetched] at hprogress
        obtain ⟨t,ht,hwritten,hfinished⟩ :=
          exec_failing owner runtime hprogress hfailing hfailedNow rfl fun _ => rfl
        refine ⟨t, ht, ?_, hfinished⟩
        simp [hwritten, attempt, hfound, hsub, hfetched, hrows, hnow, hfailedAt]
      | response status =>
        rw [hfetched] at hprogress
        by_cases hok : responseOk status = true
        · simp only [outcomeProgress, hok, ↓reduceIte] at hprogress
          obtain ⟨v,hv,hvnow,hvrows,hvprogress⟩ :=
            step_record owner runtime hprogress rfl hsucceeding
          rw [hrows, hnow, ← hsucceededAt] at hvrows
          cases hreturns : calls.succeeding with
          | returns =>
            rw [hreturns] at hv hvrows hvprogress
            refine ⟨v, ?_, ?_, hvprogress⟩
            · simp [FetchOutcome.ok, hok, UpdateOutcome.returned, exec, hv]
            · simp [hvrows, attempt, hfound, hsub, hfetched, hok, hreturns]
          | throws message late =>
            rw [hreturns] at hv hvrows hvprogress
            obtain ⟨t,ht,hwritten,hfinished⟩ := exec_failing owner runtime hvprogress hfailing
              (hfailedNow.trans hvnow.symm) rfl fun _ => rfl
            refine ⟨t, ?_, ?_, hfinished⟩
            · simpa [FetchOutcome.ok, hok, UpdateOutcome.returned, exec, hv] using ht
            · simp [hwritten, hvrows, attempt, hfound, hsub, hfetched, hok, hreturns, hvnow, hnow,
                hfailedAt]
        · simp only [outcomeProgress, hok] at hprogress
          obtain ⟨t,ht,hwritten,hfinished⟩ :=
            exec_failing owner runtime hprogress hfailing hfailedNow rfl fun _ => rfl
          refine ⟨t, ?_, ?_, hfinished⟩
          · simpa [FetchOutcome.ok, hok] using ht
          · simp [hwritten, attempt, hfound, hsub, hfetched, hrows, hnow, hfailedAt, hok]

end WorkerTurns

namespace DeliveryRun
variable {runtime : WebhookRuntime} {id : String} {s t : DeliveryRun}

/-- As long as every success is recorded, the row says whether the delivery was acknowledged. -/
structure Inv (id : String) (s : DeliveryRun) : Prop where
  own : ∀ delivery, s.deliveries.get id = some delivery → delivery.id = id
  recorded : ∀ delivery, s.deliveries.get id = some delivery →
    s.hasSubscription delivery = true → s.acknowledged = true → delivery.status = .success
  earned : ∀ delivery, s.deliveries.get id = some delivery → delivery.status = .success →
    s.acknowledged = true

theorem inv_enqueued (subscriptions : WebhookSubscriptions) (deliveries : WebhookDeliveries)
    (id subscriptionId eventType payload : String) (now : Date) :
    (enqueued subscriptions deliveries id subscriptionId eventType payload now).Inv id := by
  have hrow : ∀ delivery, (deliveries.set id
      (enqueuedDelivery id subscriptionId eventType payload now)).get id = some delivery →
      delivery = enqueuedDelivery id subscriptionId eventType payload now := by
    intro delivery hget
    rw [InsertionMap.get_set_self] at hget
    exact (Option.some.inj hget).symm
  refine ⟨?_, ?_, ?_⟩
  · intro delivery hget
    rw [hrow delivery hget]
    rfl
  · intro delivery _ _ hacknowledged
    cases hacknowledged
  · intro delivery hget hstatus
    rw [hrow delivery hget] at hstatus
    cases hstatus

theorem Inv.failedUnacknowledged (h : s.Inv id) : s.FailedUnacknowledged id := by
  intro delivery hget hsub hfailed
  by_contra hacknowledged
  have hsuccess := h.recorded delivery hget hsub (by simpa using hacknowledged)
  rw [hfailed] at hsuccess
  cases hsuccess

theorem acknowledged_append (s : DeliveryRun) (deliveries : WebhookDeliveries)
    (sent : Option (WebhookRequest × FetchOutcome)) :
    (⟨s.subscriptions, deliveries, s.sent ++ sent.toList⟩ : DeliveryRun).acknowledged =
      (s.acknowledged || sent.any fun entry => entry.2.ok) := by
  cases sent with
  | none => simp [acknowledged]
  | some entry => simp [acknowledged]

/-- What an attempt does to a run. -/
inductive Attempted (s : DeliveryRun) (delivery : WebhookDelivery) (calls : AttemptCalls)
    (t : DeliveryRun) : Prop
  | findThrows (hthrows : calls.findThrows = true)
      (hget : t.deliveries.get delivery.id = some delivery)
      (hacknowledged : t.acknowledged = s.acknowledged)
  | unsubscribed (after : WebhookDelivery) (hsub : s.hasSubscription delivery = false)
      (hget : t.deliveries.get delivery.id = some after) (hid : after.id = delivery.id)
      (hsubscription : after.subscriptionId = delivery.subscriptionId)
      (hstatus : after.status = .success → delivery.status = .success)
      (hacknowledged : t.acknowledged = s.acknowledged)
  | sent (after : WebhookDelivery) (hfound : calls.findThrows = false)
      (hsub : s.hasSubscription delivery = true)
      (hget : t.deliveries.get delivery.id = some after)
      (hleaves : AttemptLeaves calls delivery after)
      (hacknowledged : t.acknowledged = (s.acknowledged || calls.fetched.ok))

theorem attempted_of_step {delivery : WebhookDelivery} {calls : AttemptCalls}
    (hget : s.deliveries.get id = some delivery) (hid : delivery.id = id)
    (h : step runtime id s (.attempt calls) = some t) :
    t.subscriptions = s.subscriptions ∧ Attempted s delivery calls t := by
  subst hid
  rw [step, hget, Option.map_some] at h
  obtain rfl := Option.some.inj h
  refine ⟨rfl, ?_⟩
  have hack := acknowledged_append s
    (attempt runtime s.subscriptions s.deliveries delivery calls).1
    (attempt runtime s.subscriptions s.deliveries delivery calls).2
  cases hfound : calls.findThrows with
  | true =>
    have hnone : attempt runtime s.subscriptions s.deliveries delivery calls =
        (s.deliveries, none) := by
      rw [attempt, if_pos hfound]
    refine .findThrows hfound ?_ (hack.trans ?_)
    · rw [hnone]
      exact hget
    · rw [hnone]
      simp
  | false =>
    cases hsub : findSubscriptionById s.subscriptions delivery.subscriptionId with
    | none =>
      have habsent : s.hasSubscription delivery = false := by rw [hasSubscription, hsub]; rfl
      have hmarks : attempt runtime s.subscriptions s.deliveries delivery calls =
          (calls.failing.update s.deliveries calls.failedAt delivery.id subscriptionNotFound,
            none) := by
        rw [attempt, hfound, if_neg Bool.false_ne_true, hsub]
      have hafter := get_update calls.failing s.deliveries calls.failedAt delivery.id
        subscriptionNotFound
      rw [hget, Option.map_some] at hafter
      refine .unsubscribed _ habsent (by rw [hmarks]; exact hafter) ?_ ?_ ?_ (hack.trans ?_)
      · split_ifs <;> rfl
      · split_ifs <;> rfl
      · intro hstatus
        split_ifs at hstatus
        · cases hstatus
        · exact hstatus
      · rw [hmarks]
        simp
    | some sub =>
      have hpresent : s.hasSubscription delivery = true := by rw [hasSubscription, hsub]; rfl
      obtain ⟨hsent,after,hrow,hleaves⟩ := get_attempt hget hsub hfound
      refine .sent after hfound hpresent hrow hleaves (hack.trans ?_)
      rw [hsent]
      rfl

theorem hasSubscription_congr {delivery after : WebhookDelivery}
    (hsubscriptions : t.subscriptions = s.subscriptions)
    (h : after.subscriptionId = delivery.subscriptionId) :
    t.hasSubscription after = s.hasSubscription delivery := by
  rw [hasSubscription, hasSubscription, hsubscriptions, h]

theorem Inv.attempted (h : s.Inv id) {delivery : WebhookDelivery} {calls : AttemptCalls}
    (hrow : s.deliveries.get id = some delivery) (hrecords : s.RecordsSuccess id (.attempt calls))
    (hsubscriptions : t.subscriptions = s.subscriptions) (ht : Attempted s delivery calls t) :
    t.Inv id := by
  have hid := h.own delivery hrow
  -- whatever the row has become is the only row under the id
  have hof : ∀ after, t.deliveries.get delivery.id = some after → after.id = id →
      (t.hasSubscription after = true → t.acknowledged = true → after.status = .success) →
      (after.status = .success → t.acknowledged = true) → t.Inv id := by
    intro after hafter hown hrecorded hearned
    rw [hid] at hafter
    refine ⟨?_, ?_, ?_⟩
    · intro other hother
      obtain rfl := Option.some.inj (hafter.symm.trans hother)
      exact hown
    · intro other hother
      obtain rfl := Option.some.inj (hafter.symm.trans hother)
      exact hrecorded
    · intro other hother
      obtain rfl := Option.some.inj (hafter.symm.trans hother)
      exact hearned
  cases ht with
  | findThrows hthrows hget hacknowledged =>
    apply hof delivery hget hid
    · rw [hacknowledged, hasSubscription_congr hsubscriptions rfl]
      exact h.recorded delivery hrow
    · rw [hacknowledged]
      exact h.earned delivery hrow
  | unsubscribed after hsub hget hsame hsubscription hstatus hacknowledged =>
    apply hof after hget (hsame.trans hid)
    · intro hpresent
      rw [hasSubscription_congr hsubscriptions hsubscription, hsub] at hpresent
      cases hpresent
    · intro hsuccess
      rw [hacknowledged]
      exact h.earned delivery hrow (hstatus hsuccess)
  | sent after hfound hsub hget hleaves hacknowledged =>
    have hspare := hrecords delivery hrow hsub hfound
    have hstatus := hleaves.status_eq
    apply hof after hget (hleaves.id_eq.trans hid)
    · intro _ hack
      rw [hacknowledged, Bool.or_eq_true] at hack
      have hcause : calls.fetched.ok = true ∨ delivery.status = .success := by
        rcases hack with hold | hok
        · exact Or.inr (h.recorded delivery hrow hsub hold)
        · exact Or.inl hok
      obtain ⟨hnone,hlast⟩ := hspare hcause
      rw [hstatus, hnone, if_neg Bool.false_ne_true]
      split_ifs with hwritten
      · rfl
      · rcases hlast with hsuccess | heffect
        · exact hsuccess
        · rcases hcause with hok | hsuccess
          · rw [hok, heffect] at hwritten
            exact absurd rfl hwritten
          · exact hsuccess
    · intro hsuccess
      rw [hacknowledged, Bool.or_eq_true]
      rw [hstatus] at hsuccess
      split_ifs at hsuccess with hfailure hlast hwritten
      · rw [Bool.and_eq_true] at hwritten
        exact Or.inr hwritten.1
      · exact Or.inl (h.earned delivery hrow hsuccess)

theorem Inv.step (h : s.Inv id) {a : DeliveryAction} (hrecords : s.RecordsSuccess id a)
    (hstep : step runtime id s a = some t) : t.Inv id := by
  cases a with
  | attempt calls =>
    cases hrow : s.deliveries.get id with
    | none =>
      rw [DeliveryRun.step, hrow] at hstep
      cases hstep
    | some delivery =>
      obtain ⟨hsubscriptions,ht⟩ := attempted_of_step hrow (h.own delivery hrow) hstep
      exact h.attempted hrow hrecords hsubscriptions ht
  | deleteSubscription subscriptionId =>
    obtain rfl := Option.some.inj hstep
    have hrow : ∀ delivery, (if (s.deliveries.get id).any fun delivery =>
          delivery.subscriptionId = subscriptionId
        then s.deliveries.delete id else s.deliveries).get id = some delivery →
        s.deliveries.get id = some delivery := by
      intro delivery hget
      split_ifs at hget
      · rw [InsertionMap.get_delete, if_pos rfl] at hget
        cases hget
      · exact hget
    refine ⟨fun delivery hget => h.own delivery (hrow delivery hget), ?_,
      fun delivery hget => h.earned delivery (hrow delivery hget)⟩
    intro delivery hget hpresent
    apply h.recorded delivery (hrow delivery hget)
    rw [hasSubscription, findSubscriptionById, InsertionMap.get_delete] at hpresent
    split_ifs at hpresent
    · cases hpresent
    · exact hpresent

/-- A failing attempt whose calls all return. -/
def failingCalls : AttemptCalls where
  findThrows := false
  fetched := .error "fetch failed"
  succeeding := .returns
  succeededAt := 0
  failing := .returns
  failedAt := 0

/-- The delivery was acknowledged, and its row does not tell. -/
structure Unrecorded (id : String) (s : DeliveryRun) (delivery : WebhookDelivery) : Prop where
  get : s.deliveries.get id = some delivery
  own : delivery.id = id
  subscribed : s.hasSubscription delivery = true
  acknowledged : s.acknowledged = true
  status_ne : delivery.status ≠ .success

theorem Unrecorded.attemptFails {delivery : WebhookDelivery} (h : s.Unrecorded id delivery)
    (runtime : WebhookRuntime) : ∃ t after,
      ReachesWhile (step runtime id) (RecordsSuccess id) s t ∧ t.Unrecorded id after ∧
      after.status = (if maxAttempts ≤ delivery.attempts+1 then .failed else .pending) ∧
      after.attempts = delivery.attempts+1 := by
  obtain ⟨t,ht⟩ : ∃ t, step runtime id s (.attempt failingCalls) = some t := by
    rw [step, h.get, Option.map_some]
    exact ⟨_, rfl⟩
  have hrecords : s.RecordsSuccess id (.attempt failingCalls) := by
    intro row hrow _ _ hcause
    obtain rfl := Option.some.inj (h.get.symm.trans hrow)
    rcases hcause with hok | hsuccess
    · cases hok
    · exact absurd hsuccess h.status_ne
  obtain ⟨hsubscriptions,hattempted⟩ := attempted_of_step h.get h.own ht
  cases hattempted with
  | findThrows hthrows => cases hthrows
  | unsubscribed after hsub =>
    rw [h.subscribed] at hsub
    cases hsub
  | sent after _ _ hget hleaves hacknowledged =>
    have hstatus : after.status =
        if maxAttempts ≤ delivery.attempts+1 then .failed else .pending := hleaves.status_eq
    refine ⟨t, after, .tail _ .refl hrecords ht, ?_, hstatus, hleaves.attempts_eq rfl⟩
    refine ⟨h.own ▸ hget, hleaves.id_eq.trans h.own, ?_, ?_, ?_⟩
    · rw [hasSubscription_congr hsubscriptions hleaves.subscriptionId_eq]
      exact h.subscribed
    · rw [hacknowledged, h.acknowledged, Bool.true_or]
    · rw [hstatus]
      split_ifs
      · exact fun hsuccess => by cases hsuccess
      · exact fun hsuccess => by cases hsuccess

/-- Further attempts that fail end with a row that has failed for good. -/
theorem Unrecorded.fails {delivery : WebhookDelivery} (h : s.Unrecorded id delivery)
    (runtime : WebhookRuntime) : ∃ t, ReachesWhile (step runtime id) (RecordsSuccess id) s t ∧
      ¬ t.FailedUnacknowledged id := by
  -- by the attempts that are left, of which there is at least one more
  induction hleft : maxAttempts-delivery.attempts generalizing s delivery with
  | zero =>
    obtain ⟨t,after,ht,hafter,hstatus,_⟩ := h.attemptFails runtime
    rw [if_pos (by omega)] at hstatus
    refine ⟨t, ht, fun hclaim => ?_⟩
    have hunacknowledged := hclaim after hafter.get hafter.subscribed hstatus
    rw [hafter.acknowledged] at hunacknowledged
    cases hunacknowledged
  | succ left ih =>
    obtain ⟨t,after,ht,hafter,_,hattempts⟩ := h.attemptFails runtime
    have hnext : maxAttempts-after.attempts = left := by omega
    obtain ⟨u,hu,hviolated⟩ := ih hafter hnext
    exact ⟨u, ht.trans hu, hviolated⟩

/-- A step that does not record its success leaves an unrecorded delivery. -/
theorem Inv.unrecorded (h : s.Inv id) {a : DeliveryAction}
    (hstep : DeliveryRun.step runtime id s a = some t) (hrecords : ¬ s.RecordsSuccess id a) :
    ∃ after, t.Unrecorded id after := by
  cases a with
  | deleteSubscription subscriptionId => exact absurd trivial hrecords
  | attempt calls =>
    simp only [RecordsSuccess, not_forall] at hrecords
    obtain ⟨delivery,hrow,hsub,hfound,hcause,hlost⟩ := hrecords
    obtain ⟨hsubscriptions,ht⟩ := attempted_of_step hrow (h.own delivery hrow) hstep
    cases ht with
    | findThrows hthrows =>
      rw [hfound] at hthrows
      cases hthrows
    | unsubscribed after habsent =>
      rw [hsub] at habsent
      cases habsent
    | sent after _ _ hget hleaves hacknowledged =>
      have hid := h.own delivery hrow
      refine ⟨after, hid ▸ hget, hleaves.id_eq.trans hid, ?_, ?_, ?_⟩
      · rw [hasSubscription_congr hsubscriptions hleaves.subscriptionId_eq]
        exact hsub
      · rw [hacknowledged, Bool.or_eq_true]
        rcases hcause with hok | hsuccess
        · exact Or.inr hok
        · exact Or.inl (h.earned delivery hrow hsuccess)
      · rw [hleaves.status_eq]
        intro hsuccess
        apply hlost
        split_ifs at hsuccess with hfailure hlast hwritten
        · rw [Bool.and_eq_true] at hwritten
          exact ⟨by simpa using hfailure, Or.inr hwritten.2⟩
        · exact ⟨by simpa using hfailure, Or.inl hsuccess⟩

/-- As long as every success is recorded, a delivery that has failed was never
acknowledged; and a step that does not record its success lets it fail later. -/
theorem failedUnacknowledged_of_recorded {subscriptions : WebhookSubscriptions}
    {deliveries : WebhookDeliveries} {subscriptionId eventType payload : String} {now : Date}
    (hs : ReachesWhile (step runtime id) (RecordsSuccess id)
      (enqueued subscriptions deliveries id subscriptionId eventType payload now) s) :
    s.FailedUnacknowledged id ∧ ∀ a t, step runtime id s a = some t →
      (s.RecordsSuccess id a ↔ ∀ u, ReachesWhile (step runtime id) (RecordsSuccess id) t u →
        u.FailedUnacknowledged id) := by
  have hkept {s t : DeliveryRun} (h : ReachesWhile (step runtime id) (RecordsSuccess id) s t)
      (hs : s.Inv id) : t.Inv id :=
    h.invariant (Inv id) (fun _ _ _ hinv hrecords hstep => hinv.step hrecords hstep) hs
  have hinv : s.Inv id :=
    hkept hs (inv_enqueued subscriptions deliveries id subscriptionId eventType payload now)
  refine ⟨hinv.failedUnacknowledged, ?_⟩
  intro a t hstep
  constructor
  · intro hrecords u hu
    exact (hkept hu (hinv.step hrecords hstep)).failedUnacknowledged
  · intro hclaim
    by_contra hlost
    obtain ⟨after,hafter⟩ := hinv.unrecorded hstep hlost
    obtain ⟨u,hu,hviolated⟩ := hafter.fails runtime
    exact hviolated (hclaim u hu)

section SampleRuns

def subscriber : WebhookSubscription := ⟨"sub-1", "https://example.com/hook", "secret"⟩

def sampleRuntime : WebhookRuntime := ⟨fun _ _ => "", fun _ => none, none⟩

def sampleRun : DeliveryRun :=
  enqueued (InsertionMap.empty.set "sub-1" subscriber) .empty "delivery-1" "sub-1" "settled" "{}" 0

def acknowledgedCalls : AttemptCalls := { failingCalls with fetched := .response 200 }

theorem recorded_delivery_not_failed : ∃ s : DeliveryRun,
    step sampleRuntime "delivery-1" sampleRun (.attempt acknowledgedCalls) = some s ∧
    s.acknowledged = true ∧ s.FailedUnacknowledged "delivery-1" := by
  have hrecords : sampleRun.RecordsSuccess "delivery-1" (.attempt acknowledgedCalls) :=
    fun _ _ _ _ _ => ⟨rfl, Or.inr rfl⟩
  refine ⟨_, rfl, rfl, ?_⟩
  exact (failedUnacknowledged_of_recorded
    (.tail (.attempt acknowledgedCalls) (.refl (s := sampleRun)) hrecords rfl)).1

/-- Four failures; then the receiver answers 200, and the update to `success` throws. -/
theorem acknowledged_delivery_failed : ∃ (s : DeliveryRun) (delivery : WebhookDelivery),
    exec (step sampleRuntime "delivery-1") sampleRun
      (List.replicate 4 (.attempt failingCalls) ++ [.attempt
        { acknowledgedCalls with succeeding := .throws "connection terminated" false }]) = some s ∧
    s.deliveries.get "delivery-1" = some delivery ∧ s.hasSubscription delivery = true ∧
    delivery.status = .failed ∧ s.acknowledged = true :=
  ⟨_, _, rfl, rfl, rfl, rfl, rfl⟩

end SampleRuns

end DeliveryRun

end StreamPay
