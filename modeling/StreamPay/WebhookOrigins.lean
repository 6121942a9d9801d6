import StreamPay.WebhookService
import StreamPay.WebhookTurns

/-! Where the requests of the webhook workers come from: every one is for an event
that was enqueued, and goes to the subscription that it was enqueued for. -/
namespace StreamPay
open Interleaving WebhookRepository

namespace WebhookSystem
variable {ι : Type*} {s t : WebhookSystem ι}

/-- What holds of every row holds of the copies that the workers have of them. -/
structure Carried (Q : WebhookDelivery → Prop) (s : WebhookSystem ι) : Prop where
  rows : ∀ id delivery, s.deliveries.get id = some delivery → Q delivery
  due : ∀ i, ∀ delivery ∈ (s.processes i).due, Q delivery
  attempts : ∀ i id attempt, s.attempt i id = some attempt → Q attempt.delivery

theorem Carried.imp {Q R : WebhookDelivery → Prop} (h : Carried Q s)
    (himp : ∀ delivery, Q delivery → R delivery) : Carried R s where
  rows id delivery hget := himp _ (h.rows id delivery hget)
  due i delivery hdue := himp _ (h.due i delivery hdue)
  attempts i id attempt hattempt := himp _ (h.attempts i id attempt hattempt)

theorem Carried.congr {Q : WebhookDelivery → Prop} (h : Carried Q s)
    (hrows : ∀ id delivery, t.deliveries.get id = some delivery → Q delivery)
    (hprocesses : t.processes = s.processes) : Carried Q t where
  rows := hrows
  due := by
    rw [hprocesses]
    exact h.due
  attempts := by
    intro i id attempt hattempt
    apply h.attempts i id attempt
    rw [← hattempt, WebhookSystem.attempt, WebhookSystem.attempt, hprocesses]

/-- A subscription that an attempt has found is the one of its delivery. -/
def Addressed (K : WebhookDelivery → WebhookSubscription → Prop) (s : WebhookSystem ι) : Prop :=
  ∀ i id attempt sub, s.attempt i id = some attempt → attempt.progress = .subscribed sub →
    K attempt.delivery sub

variable [DecidableEq ι] {owner : ι → String} {runtime : WebhookRuntime}

/-- What no update changes is carried along by the workers. -/
theorem Carried.step {Q : WebhookDelivery → Prop} {a : WebhookAction ι} (h : Carried Q s)
    (hstable : ∀ (patch : WebhookDeliveryPatch) now delivery, Q delivery →
      Q (patch.apply now delivery)) (ht : WebhookSystem.step owner runtime s a = some t) :
    Carried Q t where
  rows := by
    intro id after hafter
    rcases get_of_step ht id with hsame | ⟨i,id',attempt,patch,_,_,_,_,hget⟩
    · exact h.rows id after (hsame ▸ hafter)
    · rw [hget] at hafter
      obtain ⟨before,hbefore,rfl⟩ := Option.map_eq_some_iff.mp hafter
      exact hstable patch s.now before (h.rows id before hbefore)
  due := by
    intro i delivery hdue
    rcases due_of_step ht hdue with hold | ⟨id,hget,_⟩
    · exact h.due i delivery hold
    · exact h.rows id delivery hget
  attempts := by
    intro i id now hnow
    rcases attempt_of_step ht hnow with hold | ⟨before,hbefore,hsame,_⟩ | ⟨_,_,_,hdue,_⟩
    · exact h.attempts i id now hold
    · exact hsame ▸ h.attempts i id before hbefore
    · exact h.due i _ hdue

theorem Addressed.step {K : WebhookDelivery → WebhookSubscription → Prop} (h : Addressed K s)
    {a : WebhookAction ι}
    (hfind : ∀ i id attempt sub, s.attempt i id = some attempt →
      findSubscriptionById s.subscriptions attempt.delivery.subscriptionId = some sub →
      K attempt.delivery sub)
    (ht : WebhookSystem.step owner runtime s a = some t) : Addressed K t := by
  intro i id now sub hnow hsub
  rcases attempt_of_step ht hnow with hold | ⟨before,hbefore,hsame,hstep⟩ | ⟨_,hstarted,_⟩
  · exact h i id now sub hold hsub
  · rw [hsub] at hstep
    rw [← hsame]
    -- only the lookup leads to the subscription
    generalize hprogress : AttemptProgress.subscribed sub = progress at hstep
    cases hstep with
    | found delivery sub' hfound =>
      obtain rfl := AttemptProgress.subscribed.inj hprogress
      exact hfind i id _ sub hbefore hfound
    | received delivery outcome =>
      have hunrecorded := unrecorded_outcomeProgress outcome
      rw [← hprogress] at hunrecorded
      cases hunrecorded
    | recordThrows attempt patch message _ =>
      rw [Attempt.afterThrow] at hprogress
      split at hprogress <;> cases hprogress
    | findThrows | missing | sent | recorded => cases hprogress
  · rw [hstarted] at hsub
    cases hsub

end WebhookSystem

/-- The request for an event as its subscription is to get it. -/
def eventRequest (runtime : OutboundRuntime) (event : OutboundEvent)
    (sub : WebhookSubscriptionRow) : WebhookRequest where
  url := sub.url
  signature := signPayload runtime.toWebhookRuntime (runtime.stringify event) sub.secret
  event := event.eventType
  correlationId := ((correlationIdFromPayload runtime.toWebhookRuntime
    (runtime.stringify event)).or runtime.correlationId).filter fun id => id ≠ ""
  body := runtime.stringify event

namespace WebhookService
variable {ι κ : Type*} {runtime : OutboundRuntime} {told told' : List (ServiceEvent κ)}

/-- The subscription has been made, is enabled and asks for the event. -/
def Wanted (told : List (ServiceEvent κ)) (event : OutboundEvent) (sub : WebhookSubscriptionRow) :
    Prop :=
  .subscribed sub ∈ told ∧ sub.enabled = true ∧ selectsEvent event.eventType sub = true

/-- The delivery was stored for an event and a subscription that asks for it. -/
def Originates (runtime : OutboundRuntime) (told : List (ServiceEvent κ))
    (delivery : WebhookDelivery) : Prop :=
  ∃ k event sub, .enqueued k delivery.id event sub ∈ told ∧ Wanted told event sub ∧
    delivery.subscriptionId = sub.id.text ∧ delivery.eventType = event.eventType ∧
    delivery.payload = runtime.stringify event

/-- The row of the subscription that the text names. -/
def NamedBy (told : List (ServiceEvent κ)) (delivery : WebhookDelivery)
    (sub : WebhookSubscription) : Prop :=
  ∃ row, .subscribed row ∈ told ∧ row.id.text = delivery.subscriptionId ∧
    sub = row.toSubscription

def SentFor (runtime : OutboundRuntime) (told : List (ServiceEvent κ)) (id : String)
    (request : WebhookRequest) : Prop :=
  ∃ k event sub, .enqueued k id event sub ∈ told ∧ Wanted told event sub ∧
    request = eventRequest runtime event sub

theorem Wanted.mono {event : OutboundEvent} {sub : WebhookSubscriptionRow}
    (h : Wanted told event sub) (hsub : told ⊆ told') : Wanted told' event sub :=
  ⟨hsub h.1, h.2⟩

theorem Originates.mono {delivery : WebhookDelivery} (h : Originates runtime told delivery)
    (hsub : told ⊆ told') : Originates runtime told' delivery := by
  obtain ⟨k,event,sub,henqueued,hwanted,hrest⟩ := h
  exact ⟨k, event, sub, hsub henqueued, hwanted.mono hsub, hrest⟩

theorem NamedBy.mono {delivery : WebhookDelivery} {sub : WebhookSubscription}
    (h : NamedBy told delivery sub) (hsub : told ⊆ told') : NamedBy told' delivery sub := by
  obtain ⟨row,hrow,hrest⟩ := h
  exact ⟨row, hsub hrow, hrest⟩

theorem SentFor.mono {id : String} {request : WebhookRequest}
    (h : SentFor runtime told id request) (hsub : told ⊆ told') :
    SentFor runtime told' id request := by
  obtain ⟨k,event,sub,henqueued,hwanted,hrequest⟩ := h
  exact ⟨k, event, sub, hsub henqueued, hwanted.mono hsub, hrequest⟩

/-- No two subscriptions have one id. -/
def UniqueSubscriptions (told : List (ServiceEvent κ)) : Prop :=
  ∀ sub sub', .subscribed sub ∈ told → .subscribed sub' ∈ told → sub.id = sub'.id → sub = sub'

/-- A subscription named by a delivery is the one that the delivery was stored for. -/
theorem sentFor_of_named (hunique : UniqueSubscriptions told)
    {delivery : WebhookDelivery} {sub : WebhookSubscription}
    (horigin : Originates runtime told delivery) (hnamed : NamedBy told delivery sub) :
    SentFor runtime told delivery.id
      (webhookRequest runtime.toWebhookRuntime sub delivery) := by
  obtain ⟨k,event,row,henqueued,hwanted,hid,htype,hpayload⟩ := horigin
  obtain ⟨row',hrow',hid',rfl⟩ := hnamed
  obtain rfl : row' = row := hunique row' row hrow' hwanted.1 (Uuid.ext (hid'.trans hid))
  refine ⟨k, event, row', henqueued, hwanted, ?_⟩
  rw [webhookRequest, eventRequest, htype, hpayload]
  rfl

/-- Everything the system holds goes back to what has been told. -/
structure Sound (runtime : OutboundRuntime) (s : WebhookService ι κ)
    (told : List (ServiceEvent κ)) : Prop where
  subscriptions : ∀ id sub, s.subscriptions.get id = some sub →
    sub.id = id ∧ .subscribed sub ∈ told
  unique : UniqueSubscriptions told
  enqueues : ∀ k event left deliveries, s.enqueues k = .inserting event left deliveries →
    ∀ sub ∈ left, Wanted told event sub
  carried : s.workers.Carried (Originates runtime told)
  addressed : s.workers.Addressed (NamedBy told)
  requests : ∀ id request, (id, request) ∈ s.workers.requests → SentFor runtime told id request

/-- What is told later takes nothing back. -/
theorem Sound.mono {s : WebhookService ι κ} (h : Sound runtime s told) (hsub : told ⊆ told')
    (hunique : UniqueSubscriptions told') : Sound runtime s told' where
  subscriptions id sub hget := ⟨(h.subscriptions id sub hget).1, hsub (h.subscriptions id sub hget).2⟩
  unique := hunique
  enqueues k event left deliveries hk sub hleft :=
    (h.enqueues k event left deliveries hk sub hleft).mono hsub
  carried := h.carried.imp fun _ horigin => horigin.mono hsub
  addressed i id attempt sub hattempt hprogress :=
    (h.addressed i id attempt sub hattempt hprogress).mono hsub
  requests id request hsent := (h.requests id request hsent).mono hsub

end WebhookService

namespace WebhookService
variable {ι κ : Type*} [DecidableEq ι] [DecidableEq κ] {runtime : OutboundRuntime}
  {owner : ι → String} {s t : WebhookService ι κ} {told : List (ServiceEvent κ)}

theorem find_subscriptionsOf {rows : WebhookSubscriptionRows} {id : String}
    {sub : WebhookSubscription} (h : findSubscriptionById (subscriptionsOf rows) id = some sub) :
    ∃ uuid row, rows.get uuid = some row ∧ uuid.text = id ∧ sub = row.toSubscription := by
  obtain ⟨uuid,row,hrow,hid,hsub⟩ :=
    (InsertionMap.get_mapKeys_eq_some_iff rows Uuid.text Uuid.text_injective _ id sub).mp h
  exact ⟨uuid, row, hrow, hid, hsub.symm⟩

omit [DecidableEq κ] in
/-- A turn of a worker. -/
theorem Sound.worker (h : Sound runtime s told) {a : WebhookAction ι} {workers : WebhookSystem ι}
    (ht : WebhookSystem.step owner runtime.toWebhookRuntime s.system a = some workers) :
    Sound runtime { s with workers := workers } told where
  subscriptions := h.subscriptions
  unique := h.unique
  enqueues := h.enqueues
  carried := by
    have hcarried : s.system.Carried (Originates runtime told) := h.carried.congr h.carried.rows rfl
    exact hcarried.step (fun _ _ _ horigin => horigin) ht
  addressed := by
    have haddressed : s.system.Addressed (NamedBy told) := h.addressed
    refine haddressed.step ?_ ht
    intro i id attempt sub _ hfound
    obtain ⟨uuid,row,hrow,hid,hsub⟩ := find_subscriptionsOf hfound
    obtain ⟨hkey,htold⟩ := h.subscriptions uuid row hrow
    exact ⟨row, htold, hkey ▸ hid, hsub⟩
  requests := by
    intro id request hsent
    rcases WebhookSystem.requests_of_step ht with
      ⟨_,hsame⟩ | ⟨i,id',delivery,sub,_,hattempt,_,hrequests⟩
    · change (id, request) ∈ workers.requests at hsent
      rw [hsame] at hsent
      exact h.requests id request hsent
    · change (id, request) ∈ workers.requests at hsent
      rw [hrequests] at hsent
      rcases List.mem_append.mp hsent with hold | hnew
      · exact h.requests id request hold
      · obtain ⟨rfl,rfl⟩ := Prod.mk.inj (List.mem_singleton.mp hnew)
        exact sentFor_of_named h.unique (h.carried.attempts i id' _ hattempt)
          (h.addressed i id' _ sub hattempt rfl)

omit [DecidableEq ι] [DecidableEq κ] in
/-- Fewer rows of deliveries and of subscriptions. -/
theorem Sound.fewer (h : Sound runtime s told) {subscriptions : WebhookSubscriptionRows}
    {deliveries : WebhookDeliveries}
    (hsubscriptions : ∀ id sub, subscriptions.get id = some sub → s.subscriptions.get id = some sub)
    (hdeliveries : ∀ id delivery, deliveries.get id = some delivery →
      s.workers.deliveries.get id = some delivery) :
    Sound runtime { s with
      subscriptions := subscriptions
      workers := { s.workers with deliveries := deliveries } } told where
  subscriptions id sub hget := h.subscriptions id sub (hsubscriptions id sub hget)
  unique := h.unique
  enqueues := h.enqueues
  carried := h.carried.congr
    (fun id delivery hget => h.carried.rows id delivery (hdeliveries id delivery hget)) rfl
  addressed := h.addressed
  requests := h.requests

theorem createDelivery_eq_some {subscriptions : WebhookSubscriptionRows}
    {deliveries deliveries' : WebhookDeliveries} {subscriptionId : Uuid} {eventType payload : String}
    {now : Date} {generated : Uuid} {createdAt : Timestamp} {delivery : WebhookDelivery}
    (h : createDelivery subscriptions deliveries subscriptionId eventType payload now generated
      createdAt = some (delivery, deliveries')) :
    delivery = { enqueuedDelivery generated.text subscriptionId.text eventType payload now with
      updatedAt := Timestamp.toDate createdAt } ∧
    deliveries' = deliveries.set generated.text delivery ∧
    subscriptions.has subscriptionId = true ∧ deliveries.get generated.text = none := by
  unfold createDelivery at h
  dsimp only at h
  split_ifs at h with hfits
  obtain ⟨rfl,rfl⟩ := Prod.mk.inj (Option.some.inj h)
  simp only [Bool.and_eq_true, Bool.not_eq_true'] at hfits
  refine ⟨rfl, rfl, hfits.1.1.1, ?_⟩
  simpa [InsertionMap.has] using hfits.1.1.2

omit [DecidableEq ι] [DecidableEq κ] in
/-- A request either makes a subscription under the drawn id or changes nothing. -/
theorem post_cases (runtime : OutboundRuntime) (s : WebhookService ι κ) (body : Json)
    (secret : String) (generated : Uuid) (now : Timestamp) :
    (eventOf runtime s (.post body secret generated now) = none ∧
      (postWebhooks runtime.toWebhooksRuntime s.subscriptions body secret generated now).2 =
        s.subscriptions) ∨
    ∃ sub, sub.id = generated ∧ s.subscriptions.get generated = none ∧
      eventOf runtime s (.post body secret generated now) = some (.subscribed sub) ∧
      (postWebhooks runtime.toWebhooksRuntime s.subscriptions body secret generated now).2 =
        s.subscriptions.set generated sub := by
  simp only [eventOf, postWebhooks]
  cases createSchema runtime.toWebhooksRuntime body with
  | error issues => exact Or.inl ⟨rfl, rfl⟩
  | ok parsed =>
    simp only [createSubscription]
    split_ifs with hfits
    · have hnew : s.subscriptions.get generated = none := by
        simpa [InsertionMap.has] using (Bool.and_eq_true_iff.mp hfits).2
      refine Or.inr ⟨_, rfl, hnew, ?_, rfl⟩
      simp only [InsertionMap.get_set_self, Option.map_some]
    · exact Or.inl ⟨rfl, rfl⟩

omit [DecidableEq ι] [DecidableEq κ] in
/-- A deletion is refused, or takes the subscription, if there is one, with its deliveries. -/
theorem delete_cases (runtime : OutboundRuntime) (s : WebhookService ι κ) (id : String) :
    (eventOf runtime s (.delete id) = none ∧
      (deleteWebhook runtime s.subscriptions s.workers.deliveries id).2 =
        (s.subscriptions, s.workers.deliveries)) ∨
    ∃ uuid,
      eventOf runtime s (.delete id) = (s.subscriptions.get uuid).map (fun _ => .unsubscribed uuid) ∧
      (deleteWebhook runtime s.subscriptions s.workers.deliveries id).2 =
        (s.subscriptions.delete uuid,
          s.workers.deliveries.filter fun _ delivery => delivery.subscriptionId ≠ uuid.text) := by
  simp only [eventOf, deleteWebhook]
  by_cases huuid : runtime.isUuid id = false
  · left
    simp only [if_pos huuid, and_self]
  · simp only [if_neg huuid]
    cases parseUuid id with
    | none => exact Or.inl ⟨rfl, rfl⟩
    | some uuid =>
      refine Or.inr ⟨uuid, ?_, rfl⟩
      cases hget : s.subscriptions.get uuid with
      | none => simp [deleteSubscription, InsertionMap.has, hget]
      | some sub => simp [deleteSubscription, InsertionMap.has, hget]

omit [DecidableEq ι] [DecidableEq κ] in
theorem UniqueSubscriptions.append {told told' : List (ServiceEvent κ)}
    (h : UniqueSubscriptions told) (hnone : ∀ sub, .subscribed sub ∉ told') :
    UniqueSubscriptions (told ++ told') := by
  intro sub sub' hsub hsub' hid
  have hold (sub : WebhookSubscriptionRow) (hmem : .subscribed sub ∈ told ++ told') :
      .subscribed sub ∈ told := (List.mem_append.mp hmem).resolve_right (hnone sub)
  exact h sub sub' (hold sub hsub) (hold sub' hsub') hid

omit [DecidableEq κ] in
theorem UniqueSubscriptions.subscribed (h : UniqueSubscriptions told) {sub : WebhookSubscriptionRow}
    (hfresh : ∀ sub', .subscribed sub' ∈ told → sub'.id ≠ sub.id) :
    UniqueSubscriptions (told ++ [.subscribed sub]) := by
  have hcases (other : WebhookSubscriptionRow) (hmem : .subscribed other ∈ told ++ [.subscribed sub]) :
      .subscribed other ∈ told ∨ other = sub := by
    rcases List.mem_append.mp hmem with hold | hnew
    · exact Or.inl hold
    · exact Or.inr (ServiceEvent.subscribed.inj (List.mem_singleton.mp hnew))
  intro first second hfirst hsecond hid
  rcases hcases first hfirst with hold | rfl <;> rcases hcases second hsecond with hold' | rfl
  · exact h first second hold hold' hid
  · exact absurd hid (hfresh first hold)
  · exact absurd hid.symm (hfresh second hold')
  · rfl

omit [DecidableEq ι] [DecidableEq κ] in
theorem Sound.post (h : Sound runtime s told) {body : Json} {secret : String} {generated : Uuid}
    {now : Timestamp} (hfresh : ∀ sub, .subscribed sub ∈ told → sub.id ≠ generated) :
    Sound runtime { s with
      subscriptions :=
        (postWebhooks runtime.toWebhooksRuntime s.subscriptions body secret generated now).2 }
      (told ++ (eventOf runtime s (.post body secret generated now)).toList) := by
  rcases post_cases runtime s body secret generated now with ⟨hnone,hsame⟩ | ⟨sub,hid,_,hevent,hset⟩
  · rw [hnone, hsame, Option.toList_none, List.append_nil]
    exact h
  · rw [hevent, hset, Option.toList_some]
    have hunique : UniqueSubscriptions (told ++ [.subscribed sub]) :=
      h.unique.subscribed fun sub' hsub' => hid ▸ hfresh sub' hsub'
    have hmono := h.mono (List.subset_append_left told [.subscribed sub]) hunique
    refine { hmono with subscriptions := ?_ }
    apply InsertionMap.forall_get_set
    · exact ⟨hid, List.mem_append_right _ List.mem_cons_self⟩
    · exact fun uuid other hget _ => hmono.subscriptions uuid other hget

omit [DecidableEq ι] [DecidableEq κ] in
/-- What is told without a subscription. -/
theorem Sound.tell (h : Sound runtime s told) (event : Option (ServiceEvent κ))
    (hnone : ∀ sub, event ≠ some (.subscribed sub)) : Sound runtime s (told ++ event.toList) := by
  apply h.mono (List.subset_append_left _ _)
  exact h.unique.append fun sub hsub => hnone sub (Option.mem_toList.mp hsub)

omit [DecidableEq ι] in
theorem enqueues_setEnqueue (s : WebhookService ι κ) (j k : κ) (progress : EnqueueProgress) :
    (s.setEnqueue k progress).enqueues j = if j = k then progress else s.enqueues j :=
  Function.update_apply s.enqueues k progress j

omit [DecidableEq ι] in
theorem Sound.setEnqueue (h : Sound runtime s told) (k : κ) {progress : EnqueueProgress}
    (hleft : ∀ event left deliveries, progress = .inserting event left deliveries →
      ∀ sub ∈ left, Wanted told event sub) : Sound runtime (s.setEnqueue k progress) told where
  subscriptions := h.subscriptions
  unique := h.unique
  enqueues := by
    intro j event left deliveries hj
    by_cases hjk : j = k
    · subst hjk
      rw [enqueues_setEnqueue, if_pos rfl] at hj
      exact hleft event left deliveries hj
    · rw [enqueues_setEnqueue, if_neg hjk] at hj
      exact h.enqueues j event left deliveries hj
  carried := h.carried
  addressed := h.addressed
  requests := h.requests

omit [DecidableEq ι] [DecidableEq κ] in
/-- The subscriptions that a call finds are those that ask for its event. -/
theorem Sound.wanted_of_found (h : Sound runtime s told) {event : OutboundEvent}
    {sub : WebhookSubscriptionRow}
    (hfound : sub ∈ findEnabledSubscriptionsForEvent s.subscriptions event.eventType) :
    Wanted told event sub := by
  rw [findEnabledSubscriptionsForEvent, List.mem_filter, List.mem_filter] at hfound
  obtain ⟨⟨hrow,henabled⟩,hselects⟩ := hfound
  obtain ⟨⟨id,row⟩,hentry,rfl⟩ := List.mem_map.mp hrow
  have hget := (InsertionMap.get_eq_some_iff s.subscriptions id row).mpr hentry
  exact ⟨(h.subscriptions id row hget).2, henabled, hselects⟩

omit [DecidableEq ι] [DecidableEq κ] in
/-- The row of a call that is about to serve a subscription is stored for it. -/
theorem Sound.stored (h : Sound runtime s told) (k : κ) {event : OutboundEvent}
    {sub : WebhookSubscriptionRow} {generated : Uuid} {now : Timestamp}
    {delivery : WebhookDelivery} {deliveries : WebhookDeliveries}
    (hwanted : Wanted told event sub)
    (hcreated : s.created runtime event sub generated now = some (delivery, deliveries)) :
    Sound runtime (s.store delivery deliveries now)
      (told ++ [.enqueued k delivery.id event sub]) := by
  obtain ⟨hdelivery,rfl,_⟩ := createDelivery_eq_some hcreated
  have hmono := h.tell (some (.enqueued k delivery.id event sub)) fun sub hsub => by cases hsub
  rw [Option.toList_some] at hmono
  have horigin : Originates runtime (told ++ [.enqueued k delivery.id event sub]) delivery := by
    refine ⟨k, event, sub, List.mem_append_right _ List.mem_cons_self,
      hwanted.mono (List.subset_append_left _ _), ?_⟩
    rw [hdelivery]
    exact ⟨rfl, rfl, rfl⟩
  exact {
    subscriptions := hmono.subscriptions
    unique := hmono.unique
    enqueues := hmono.enqueues
    carried := by
      refine hmono.carried.congr ?_ rfl
      apply InsertionMap.forall_get_set
      · exact horigin
      · exact fun id other hget _ => hmono.carried.rows id other hget
    addressed := hmono.addressed
    requests := hmono.requests }

/-- An INSERT stores the row for the next subscription and goes on, or it is the last of
its call; when it throws late it does both. -/
theorem insert_cases {k : κ} {generated : Uuid} {now : Timestamp} {outcome : UpdateOutcome}
    (ht : step owner runtime s (.insert k generated now outcome) = some t) :
    ∃ event sub left stored, s.enqueues k = .inserting event (sub :: left) stored ∧
      ((eventOf runtime s (.insert k generated now outcome) = none ∧
          (outcome.returned && (s.created runtime event sub generated now).isSome) = false ∧
          t = s.setEnqueue k .threw) ∨
        ∃ delivery deliveries,
          s.created runtime event sub generated now = some (delivery, deliveries) ∧
          eventOf runtime s (.insert k generated now outcome) =
            some (.enqueued k delivery.id event sub) ∧
          t = (s.store delivery deliveries now).setEnqueue k (if outcome.returned then
            .inserting event left (stored ++ [delivery]) else .threw)) := by
  simp only [step] at ht
  split at ht
  · rename_i event sub left stored hk
    refine ⟨event, sub, left, stored, hk, ?_⟩
    simp only [eventOf, hk]
    cases hcreated : s.created runtime event sub generated now with
    | none =>
      rw [hcreated] at ht
      left
      rw [Option.map_none, ite_self, Option.isSome_none, Bool.and_false]
      exact ⟨rfl, rfl, (Option.some.inj ht).symm⟩
    | some created =>
      obtain ⟨delivery,deliveries⟩ := created
      rw [hcreated] at ht
      obtain rfl := Option.some.inj ht
      cases outcome with
      | returns => exact Or.inr ⟨delivery, deliveries, rfl, rfl, rfl⟩
      | throws message late =>
        cases late with
        | true => exact Or.inr ⟨delivery, deliveries, rfl, rfl, rfl⟩
        | false => exact Or.inl ⟨rfl, rfl, rfl⟩
  · cases ht

theorem Sound.insert (h : Sound runtime s told) {k : κ} {generated : Uuid} {now : Timestamp}
    {outcome : UpdateOutcome} (ht : step owner runtime s (.insert k generated now outcome) = some t) :
    Sound runtime t (told ++ (eventOf runtime s (.insert k generated now outcome)).toList) := by
  obtain ⟨event,sub,left,stored,hk,hcases⟩ := insert_cases ht
  rcases hcases with ⟨hnone,_,rfl⟩ | ⟨delivery,deliveries,hcreated,hevent,rfl⟩
  · rw [hnone, Option.toList_none, List.append_nil]
    exact h.setEnqueue k fun _ _ _ hthrew => by cases hthrew
  · rw [hevent, Option.toList_some]
    have hwanted := h.enqueues k event _ stored hk
    apply (h.stored k (hwanted sub List.mem_cons_self) hcreated).setEnqueue k
    intro event' left' stored' hleft other hother
    split_ifs at hleft
    obtain ⟨rfl,rfl,_⟩ := EnqueueProgress.inserting.inj hleft
    exact (hwanted other (List.mem_cons_of_mem _ hother)).mono (List.subset_append_left _ _)

/-- No turn loses track of where the deliveries come from. -/
theorem Sound.step (h : Sound runtime s told) {a : ServiceAction ι κ}
    (hfresh : FreshIds (s, told) a) (ht : WebhookService.step owner runtime s a = some t) :
    Sound runtime t (told ++ (eventOf runtime s a).toList) := by
  cases a with
  | worker a =>
    obtain ⟨workers,hworkers,rfl⟩ := Option.map_eq_some_iff.mp ht
    apply (h.worker hworkers).tell _
    intro sub hsub
    cases a <;> cases hsub
  | post body secret generated now =>
    obtain rfl := Option.some.inj ht
    apply h.post
    intro sub hsub hid
    exact hfresh (List.mem_filterMap.mpr ⟨_, hsub, congrArg some hid⟩)
  | delete id =>
    obtain rfl := Option.some.inj ht
    have hnone (sub : WebhookSubscriptionRow) :
        eventOf runtime s (.delete id) ≠ some (.subscribed sub) := by
      rcases delete_cases runtime s id with ⟨hevent,_⟩ | ⟨uuid,hevent,_⟩
      · rw [hevent]
        simp
      · rw [hevent]
        cases s.subscriptions.get uuid <;> simp
    refine Sound.tell ?_ _ hnone
    rcases delete_cases runtime s id with ⟨_,hsame⟩ | ⟨uuid,_,hdeleted⟩
    · rw [hsame]
      exact h
    · rw [hdeleted]
      apply h.fewer
      · intro uuid' sub hget
        rw [InsertionMap.get_delete] at hget
        split_ifs at hget
        exact hget
      · intro key delivery hget
        rw [InsertionMap.get_filter] at hget
        exact (Option.filter_eq_some_iff.mp hget).1
  | prune olderThanDays =>
    obtain rfl := Option.some.inj ht
    have hfewer (id : String) (delivery : WebhookDelivery)
        (hget : (pruneDeliveries s.workers.deliveries s.createdAt
          (pruneCutoff s.workers.now olderThanDays)).get id = some delivery) :
        s.workers.deliveries.get id = some delivery := by
      rw [pruneDeliveries, InsertionMap.get_filter] at hget
      exact (Option.filter_eq_some_iff.mp hget).1
    apply (h.fewer (fun _ _ hget => hget) hfewer).tell _
    intro sub hsub
    cases hsub
  | find k event throws =>
    simp only [WebhookService.step] at ht
    split at ht
    · obtain rfl := Option.some.inj ht
      apply (h.setEnqueue k ?_).tell _
      · intro sub hsub
        simp only [eventOf] at hsub
        split_ifs at hsub
        cases hsub
      · intro event' left deliveries hleft sub hsub
        split_ifs at hleft
        obtain ⟨rfl,rfl,_⟩ := EnqueueProgress.inserting.inj hleft
        exact h.wanted_of_found hsub
    · cases ht
  | insert k generated now outcome => exact h.insert ht

omit [DecidableEq ι] [DecidableEq κ] in
theorem sound_start (now : Date) (available : Bool) :
    Sound runtime (start now available : WebhookService ι κ) [] where
  subscriptions _ _ hget := by cases hget
  unique _ _ hsub := by cases hsub
  enqueues _ _ _ _ hk := by cases hk
  carried :=
    { rows := fun _ _ hget => by cases hget
      due := fun _ _ hdue => by cases hdue
      attempts := fun _ _ _ hattempt => by cases hattempt }
  addressed _ _ _ _ hattempt := by cases hattempt
  requests _ _ hsent := by cases hsent

theorem sound_of_reaches {now : Date} {available : Bool}
    (h : ReachesWhile (tellingStep owner runtime) FreshIds (start now available, []) (s, told)) :
    Sound runtime s told := by
  have hsound := h.invariant (fun told => Sound runtime told.1 told.2) ?_ (sound_start now available)
  · exact hsound
  · intro before a after hbefore hfresh hafter
    obtain ⟨hstep,htold⟩ := recording_eq_some.mp hafter
    rw [htold]
    exact hbefore.step hfresh hstep

/-- Every request is the one of an event that was enqueued, and it goes to a subscription
that was made, is enabled and asks for that event. -/
theorem requests_sent_for {now : Date} {available : Bool}
    (h : ReachesWhile (tellingStep owner runtime) FreshIds (start now available, []) (s, told))
    (id : String) (request : WebhookRequest) (hsent : (id, request) ∈ s.workers.requests) :
    SentFor runtime told id request :=
  (sound_of_reaches h).requests id request hsent

/-- The JSON text of an event without data and correlation id, whose texts need no escapes. -/
def plainEventText (event : OutboundEvent) : String :=
  "\x7b\"eventType\":\"" ++ event.eventType ++ "\",\"streamId\":\"" ++ event.streamId ++
    "\",\"occurredAt\":\"" ++ event.occurredAt ++ "\"\x7d"

def serviceRuntime : OutboundRuntime where
  toWebhooksRuntime := hookRuntime
  hmacHex _ _ := "e356e8f8b79886bd1aac5b3fafcc497cd36970ef0ab5c3a20b80fc23e004d263"
  parseJson _ := none
  correlationId := none
  isUuid _ := true
  stringify := plainEventText

def settledEvent : OutboundEvent := ⟨"settled", "stream-1", "1970-01-01T00:00:00.000Z", none, none⟩

/-- A subscription is made, an event is enqueued for it and a worker sends it. -/
def serviceTurns (i : ι) (k : κ) : List (ServiceAction ι κ) :=
  [.post (hookBody [.string "settled"]) "secret" hookId 0, .find k settledEvent false,
    .insert k hookId 0 .returns, .worker (.poll i (some [hookId.text])), .worker (.lease i),
    .worker (.findSubscription i hookId.text false), .worker (.send i hookId.text)]

theorem requests_sent_for_settled :
    ∃ (s : WebhookService Unit Unit) (told : List (ServiceEvent Unit)),
      s.workers.requests.map Prod.fst = [hookId.text] ∧
      ∀ id request, (id, request) ∈ s.workers.requests →
        SentFor serviceRuntime told id request := by
  let step := @tellingStep Unit Unit _ _ (fun _ => "worker") serviceRuntime
  have hrun : (execWhile step FreshIds (start 0 true, []) (serviceTurns () ())).map
      (fun s => s.1.workers.requests.map Prod.fst) = some [hookId.text] := by decide +kernel
  obtain ⟨s,hs,hsent⟩ := Option.map_eq_some_iff.mp hrun
  exact ⟨s.1, s.2, hsent, requests_sent_for (reachesWhile_of_execWhile _ hs)⟩

end WebhookService

end StreamPay
