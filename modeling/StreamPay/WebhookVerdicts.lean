import Mathlib.Data.List.Pairwise
import StreamPay.WebhookFanOut

/-! What becomes of the deliveries: a row says only what the requests sent for it and the
responses to them bear out, and no row is lost. -/
namespace StreamPay
open Interleaving WebhookRepository

namespace WebhookSystem
variable {ι : Type*} {s t : WebhookSystem ι} {R R' : String → FetchOutcome → Prop}

/-- A row whose count and status are borne out by what was sent and responded. -/
structure Earned (s : WebhookSystem ι) (R : String → FetchOutcome → Prop)
    (delivery : WebhookDelivery) : Prop where
  sent : delivery.attempts ≤ (s.requestsFor delivery.id).length
  bounded : delivery.attempts ≤ maxAttempts
  pending : delivery.status = .pending →
    delivery.attempts < maxAttempts ∧ delivery.nextAttemptAt.isSome = true
  success : delivery.status = .success → ∃ status, responseOk status = true ∧
    delivery.lastHttpStatus = some status ∧ R delivery.id (.response status)
  failed : delivery.status = .failed → delivery.attempts = maxAttempts

/-- The copy of a row that is to be attempted. -/
structure Polled (s : WebhookSystem ι) (delivery : WebhookDelivery) : Prop where
  sent : delivery.attempts ≤ (s.requestsFor delivery.id).length
  attempts_lt : delivery.attempts < maxAttempts

/-- What an attempt has behind it. -/
def Backed (s : WebhookSystem ι) (R : String → FetchOutcome → Prop) (attempt : Attempt) : Prop :=
  match attempt.progress with
  | .requested | .failing _ _ =>
    attempt.delivery.attempts < (s.requestsFor attempt.delivery.id).length
  | .succeeded status =>
    attempt.delivery.attempts < (s.requestsFor attempt.delivery.id).length ∧
      responseOk status = true ∧ R attempt.delivery.id (.response status)
  | .unsubscribed => s.deliveries.get attempt.delivery.id = none
  | _ => True

structure Verdicts (s : WebhookSystem ι) (R : String → FetchOutcome → Prop) : Prop where
  keys : ∀ id delivery, s.deliveries.get id = some delivery → delivery.id = id
  rows : ∀ id delivery, s.deliveries.get id = some delivery → Earned s R delivery
  due : ∀ i, ∀ delivery ∈ (s.processes i).due, Polled s delivery
  ids : ∀ i id attempt, s.attempt i id = some attempt → attempt.delivery.id = id
  polled : ∀ i id attempt, s.attempt i id = some attempt → Polled s attempt.delivery
  backed : ∀ i id attempt, s.attempt i id = some attempt → Backed s R attempt

theorem Earned.mono {delivery : WebhookDelivery} (h : Earned s R delivery)
    (hsent : ∀ id, (s.requestsFor id).length ≤ (t.requestsFor id).length)
    (hR : ∀ id outcome, R id outcome → R' id outcome) : Earned t R' delivery where
  sent := h.sent.trans (hsent delivery.id)
  bounded := h.bounded
  pending := h.pending
  success hsuccess := by
    obtain ⟨status,hok,hlast,hresponse⟩ := h.success hsuccess
    exact ⟨status, hok, hlast, hR _ _ hresponse⟩
  failed := h.failed

theorem Polled.mono {delivery : WebhookDelivery} (h : Polled s delivery)
    (hsent : ∀ id, (s.requestsFor id).length ≤ (t.requestsFor id).length) : Polled t delivery where
  sent := h.sent.trans (hsent delivery.id)
  attempts_lt := h.attempts_lt

theorem Backed.mono {attempt : Attempt} (h : Backed s R attempt)
    (hsent : ∀ id, (s.requestsFor id).length ≤ (t.requestsFor id).length)
    (hR : ∀ id outcome, R id outcome → R' id outcome)
    (hgone : s.deliveries.get attempt.delivery.id = none →
      t.deliveries.get attempt.delivery.id = none) : Backed t R' attempt := by
  obtain ⟨delivery,progress⟩ := attempt
  cases progress with
  | requested | failing => exact lt_of_lt_of_le h (hsent delivery.id)
  | succeeded status => exact ⟨lt_of_lt_of_le h.1 (hsent delivery.id), h.2.1, hR _ _ h.2.2⟩
  | unsubscribed => exact hgone h
  | started | subscribed | finished => trivial

/-- What an attempt writes is borne out by what it has behind it. -/
theorem Backed.earned {attempt : Attempt} (h : Backed s R attempt)
    (hpolled : Polled s attempt.delivery) {now : Date} {patch : WebhookDeliveryPatch}
    (hpatch : attempt.patch now = some patch) {before : WebhookDelivery}
    (hbefore : s.deliveries.get attempt.delivery.id = some before)
    (hkey : before.id = attempt.delivery.id) : Earned s R (patch.apply now before) := by
  obtain ⟨delivery,progress⟩ := attempt
  have hlt := hpolled.attempts_lt
  cases progress with
  | succeeded status =>
    obtain rfl := Option.some.inj hpatch
    exact {
      sent := hkey ▸ h.1
      bounded := hlt
      pending := fun hpending => by cases hpending
      success := fun _ => ⟨status, h.2.1, rfl, hkey ▸ h.2.2⟩
      failed := fun hfailed => by cases hfailed }
  | failing httpStatus errorMessage =>
    obtain rfl := Option.some.inj hpatch
    have hcounted : delivery.attempts+1 ≤ (s.requestsFor before.id).length := hkey ▸ h
    refine { sent := hcounted, bounded := hlt, pending := ?_, success := ?_, failed := ?_ }
    · intro hpending
      have hmore : ¬ maxAttempts ≤ delivery.attempts+1 := by
        intro hlast
        simp [deliveryFailed, WebhookDeliveryPatch.apply, hlast] at hpending
      refine ⟨not_le.mp hmore, ?_⟩
      simp [deliveryFailed, WebhookDeliveryPatch.apply, hmore]
    · intro hsuccess
      by_cases hlast : maxAttempts ≤ delivery.attempts+1
      · simp [deliveryFailed, WebhookDeliveryPatch.apply, hlast] at hsuccess
      · simp [deliveryFailed, WebhookDeliveryPatch.apply, hlast] at hsuccess
    · intro hfailed
      have hlast : maxAttempts ≤ delivery.attempts+1 := by
        by_contra hmore
        simp [deliveryFailed, WebhookDeliveryPatch.apply, hmore] at hfailed
      exact le_antisymm hlt hlast
  | unsubscribed =>
    -- there is no row to fail
    rw [show s.deliveries.get delivery.id = none from h] at hbefore
    cases hbefore
  | started | subscribed | requested | finished => cases hpatch

variable [DecidableEq ι] {owner : ι → String} {runtime : WebhookRuntime} {a : WebhookAction ι}

theorem requestsFor_step (ht : step owner runtime s a = some t) (id : String) :
    (s.requestsFor id).length ≤ (t.requestsFor id).length := by
  rw [requestsFor, requestsFor]
  rcases requests_of_step ht with ⟨_,hsame⟩ | ⟨_,_,_,_,_,_,_,hsent⟩
  · rw [hsame]
  · rw [hsent, List.filter_append, List.length_append]
    exact Nat.le_add_right _ _

/-- The workers take no row out and put none in. -/
theorem get_eq_none_of_step (ht : step owner runtime s a = some t) (id : String) :
    t.deliveries.get id = none ↔ s.deliveries.get id = none := by
  rcases get_of_step ht id with hsame | ⟨_,_,_,_,_,_,_,_,hget⟩
  · rw [hsame]
  · rw [hget, Option.map_eq_none_iff]

omit [DecidableEq ι] in
theorem unrecorded_backed {attempt : Attempt} (hprogress : attempt.progress.unrecorded = 1)
    (h : Backed s R attempt) :
    attempt.delivery.attempts < (s.requestsFor attempt.delivery.id).length := by
  obtain ⟨delivery,progress⟩ := attempt
  cases progress with
  | requested | failing => exact h
  | succeeded status => exact h.1
  | started | subscribed | unsubscribed | finished => cases hprogress

/-- An attempt that goes on has behind it what it needs next. -/
theorem Verdicts.advance (h : Verdicts s R) (ht : step owner runtime s a = some t)
    (hresponse : ∀ i id outcome, a = .receive i id outcome → R' id outcome) {i : ι} {id : String}
    {before : Attempt} (hbefore : s.attempt i id = some before) {progress : AttemptProgress}
    (hstep : AttemptStep s i id a before progress)
    (hmissing : findSubscriptionById s.subscriptions before.delivery.subscriptionId = none →
      s.deliveries.get before.delivery.id = none) :
    Backed t R' ⟨before.delivery, progress⟩ := by
  have hbacked := h.backed i id before hbefore
  have hid := h.ids i id before hbefore
  have hmore := requestsFor_step ht before.delivery.id
  cases hstep with
  | findThrows delivery => trivial
  | found delivery sub hfound => trivial
  | missing delivery hnone => exact (get_eq_none_of_step ht delivery.id).mpr (hmissing hnone)
  | sent delivery sub =>
    rcases requests_of_step ht with ⟨hother,_⟩ | ⟨j,id',delivery',sub',hsend,hattempt,_,hsent⟩
    · exact absurd rfl (hother i id)
    · obtain ⟨rfl,rfl⟩ := WebhookAction.send.inj hsend
      obtain rfl := (Attempt.mk.inj (Option.some.inj (hbefore.symm.trans hattempt))).1
      apply lt_of_le_of_lt (h.polled i id _ hbefore).sent
      rw [requestsFor, requestsFor, hsent, List.filter_append, List.length_append]
      simp
  | received delivery outcome =>
    have hlt : delivery.attempts < (t.requestsFor delivery.id).length :=
      lt_of_lt_of_le hbacked hmore
    cases outcome with
    | response status =>
      rw [outcomeProgress]
      split_ifs with hok
      · exact ⟨hlt, hok, hid ▸ hresponse i id _ rfl⟩
      · exact hlt
    | error message => exact hlt
  | recorded patch hpatch => trivial
  | recordThrows patch message hpatch =>
    rw [Attempt.afterThrow]
    split
    · rename_i status hprogress
      apply lt_of_lt_of_le (unrecorded_backed _ hbacked) hmore
      rw [hprogress]
      rfl
    · trivial

/-- A turn of the workers; what is missing for a subscription has no delivery left. -/
theorem Verdicts.step (h : Verdicts s R) (ht : WebhookSystem.step owner runtime s a = some t)
    (hR : ∀ id outcome, R id outcome → R' id outcome)
    (hresponse : ∀ i id outcome, a = .receive i id outcome → R' id outcome)
    (hmissing : ∀ i id attempt, s.attempt i id = some attempt →
      findSubscriptionById s.subscriptions attempt.delivery.subscriptionId = none →
      s.deliveries.get attempt.delivery.id = none) : Verdicts t R' where
  keys := by
    intro id after hafter
    rcases get_of_step ht id with hsame | ⟨_,_,_,patch,_,_,_,_,hget⟩
    · exact h.keys id after (hsame ▸ hafter)
    · rw [hget] at hafter
      obtain ⟨before,hbefore,rfl⟩ := Option.map_eq_some_iff.mp hafter
      exact h.keys id before hbefore
  rows := by
    intro id after hafter
    rcases get_of_step ht id with hsame | ⟨i,id',attempt,patch,_,hattempt,hpatch,rfl,hget⟩
    · exact (h.rows id after (hsame ▸ hafter)).mono (requestsFor_step ht) hR
    · rw [hget] at hafter
      obtain ⟨before,hbefore,rfl⟩ := Option.map_eq_some_iff.mp hafter
      have hearned := (h.backed i id' attempt hattempt).earned (h.polled i id' attempt hattempt)
        hpatch hbefore (h.keys _ before hbefore)
      exact hearned.mono (requestsFor_step ht) hR
  due := by
    intro i delivery hdue
    rcases due_of_step ht hdue with hold | ⟨id,hget,hisDue⟩
    · exact (h.due i delivery hold).mono (requestsFor_step ht)
    · have hrow := h.rows id delivery hget
      have hpending : delivery.status = .pending := by
        rw [isDue, Bool.and_eq_true, decide_eq_true_eq] at hisDue
        exact hisDue.1
      exact Polled.mono ⟨hrow.sent, (hrow.pending hpending).1⟩ (requestsFor_step ht)
  ids := by
    intro i id now hnow
    rcases attempt_of_step ht hnow with hold | ⟨before,hbefore,hsame,_⟩ | ⟨_,_,hid,_⟩
    · exact h.ids i id now hold
    · exact hsame ▸ h.ids i id before hbefore
    · exact hid
  polled := by
    intro i id now hnow
    have hpolled : Polled s now.delivery := by
      rcases attempt_of_step ht hnow with hold | ⟨before,hbefore,hsame,_⟩ | ⟨_,_,_,hdue,_⟩
      · exact h.polled i id now hold
      · exact hsame ▸ h.polled i id before hbefore
      · exact h.due i _ hdue
    exact hpolled.mono (requestsFor_step ht)
  backed := by
    intro i id now hnow
    rcases attempt_of_step ht hnow with hold | ⟨before,hbefore,hsame,hstep⟩ | ⟨_,hstarted,_⟩
    · exact (h.backed i id now hold).mono (requestsFor_step ht) hR
        (get_eq_none_of_step ht now.delivery.id).mpr
    · have hadvance := h.advance ht hresponse hbefore hstep (hmissing i id before hbefore)
      rwa [hsame] at hadvance
    · rw [Backed, hstarted]
      trivial

omit [DecidableEq ι] in
/-- Other rows, of which those that are not old ones are new and borne out. -/
theorem Verdicts.setRows (h : Verdicts s R) (subscriptions : WebhookSubscriptions)
    (deliveries : WebhookDeliveries)
    (hR : ∀ id outcome, R id outcome → R' id outcome)
    (hrows : ∀ id delivery, deliveries.get id = some delivery →
      s.deliveries.get id = some delivery ∨ delivery.id = id ∧ Earned s R delivery)
    (hgone : ∀ i id attempt, s.attempt i id = some attempt →
      s.deliveries.get attempt.delivery.id = none →
      deliveries.get attempt.delivery.id = none) :
    Verdicts { s with subscriptions := subscriptions, deliveries := deliveries } R' where
  keys := by
    intro id delivery hget
    rcases hrows id delivery hget with hold | ⟨hid,_⟩
    · exact h.keys id delivery hold
    · exact hid
  rows := by
    intro id delivery hget
    have hearned : Earned s R delivery := by
      rcases hrows id delivery hget with hold | ⟨_,hearned⟩
      · exact h.rows id delivery hold
      · exact hearned
    exact hearned.mono (fun _ => le_rfl) hR
  due i delivery hdue := (h.due i delivery hdue).mono fun _ => le_rfl
  ids := h.ids
  polled i id attempt hattempt := (h.polled i id attempt hattempt).mono fun _ => le_rfl
  backed i id attempt hattempt :=
    (h.backed i id attempt hattempt).mono (fun _ => le_rfl) hR (hgone i id attempt hattempt)

end WebhookSystem

namespace WebhookService
variable {ι κ : Type*} {told told' : List (ServiceEvent κ)}

def Responded (told : List (ServiceEvent κ)) (id : String) (outcome : FetchOutcome) : Prop :=
  .responded id outcome ∈ told

/-- A delivery that is no longer there has been taken out, and it has been told why. -/
def TakenOut (told : List (ServiceEvent κ)) (id : String) (sub : WebhookSubscriptionRow) : Prop :=
  .unsubscribed sub.id ∈ told ∨ ∃ ids, .pruned ids ∈ told ∧ id ∈ ids

theorem TakenOut.mono {id : String} {sub : WebhookSubscriptionRow} (h : TakenOut told id sub)
    (hsub : told ⊆ told') : TakenOut told' id sub := by
  rcases h with hunsubscribed | ⟨ids,hpruned,hid⟩
  · exact Or.inl (hsub hunsubscribed)
  · exact Or.inr ⟨ids, hsub hpruned, hid⟩

/-- The rows are borne out, refer to subscriptions that are there, and are not lost. -/
structure Accounted (s : WebhookService ι κ) (told : List (ServiceEvent κ)) : Prop where
  verdicts : s.workers.Verdicts (Responded told)
  referenced : ∀ id delivery, s.workers.deliveries.get id = some delivery →
    ∃ uuid sub, s.subscriptions.get uuid = some sub ∧ uuid.text = delivery.subscriptionId
  kept : ∀ k id event sub, .enqueued k id event sub ∈ told →
    (s.workers.deliveries.get id).isSome = true ∨ TakenOut told id sub

/-- A delivery is stored once, for one event and one subscription. -/
theorem enqueued_unique (hnodup : (told.filterMap enqueuedId).Nodup) {k k' : κ} {id : String}
    {event event' : OutboundEvent} {sub sub' : WebhookSubscriptionRow}
    (h : .enqueued k id event sub ∈ told) (h' : .enqueued k' id event' sub' ∈ told) :
    ServiceEvent.enqueued k id event sub = .enqueued k' id event' sub' := by
  let Apart (first second : ServiceEvent κ) : Prop := ∀ id, enqueuedId first = some id →
    ∀ id', enqueuedId second = some id' → id ≠ id'
  have hsymm : Std.Symm Apart := ⟨fun first second h id hid id' hid' he =>
    h id' hid' id hid he.symm⟩
  have hapart : told.Pairwise Apart := List.pairwise_filterMap.mp hnodup
  by_contra hne
  exact hapart.forall h h' hne id rfl id rfl rfl

variable {runtime : OutboundRuntime} {owner : ι → String} {s t : WebhookService ι κ}

/-- A row or a copy under an id that was given to a delivery is for its subscription. -/
theorem subscriptionId_of_enqueued (hnodup : (told.filterMap enqueuedId).Nodup)
    {delivery : WebhookDelivery} (horigin : Originates runtime told delivery) {k : κ}
    {event : OutboundEvent} {sub : WebhookSubscriptionRow}
    (henqueued : .enqueued k delivery.id event sub ∈ told) :
    delivery.subscriptionId = sub.id.text := by
  obtain ⟨k',event',sub',henqueued',_,hid,_⟩ := horigin
  have hsame := ServiceEvent.enqueued.inj (enqueued_unique hnodup henqueued henqueued')
  rw [hid, hsame.2.2.2]

/-- Without its subscription a copy has no row any more. -/
theorem Accounted.missing (h : Accounted s told) (hnodup : (told.filterMap enqueuedId).Nodup)
    (hrows : ∀ id row, s.workers.deliveries.get id = some row → Originates runtime told row)
    {delivery : WebhookDelivery} (horigin : Originates runtime told delivery)
    (hnone : findSubscriptionById (subscriptionsOf s.subscriptions) delivery.subscriptionId = none) :
    s.workers.deliveries.get delivery.id = none := by
  by_contra hsome
  obtain ⟨row,hrow⟩ := Option.ne_none_iff_exists'.mp hsome
  have hkey := h.verdicts.keys _ row hrow
  have hsame : row.subscriptionId = delivery.subscriptionId := by
    obtain ⟨k,event,sub,henqueued,_,hid,_⟩ := horigin
    rw [subscriptionId_of_enqueued hnodup (hrows _ row hrow) (hkey.symm ▸ henqueued), hid]
  obtain ⟨uuid,sub,hget,htext⟩ := h.referenced _ row hrow
  have hfound := (InsertionMap.get_mapKeys_eq_some_iff s.subscriptions Uuid.text
    Uuid.text_injective WebhookSubscriptionRow.toSubscription row.subscriptionId
    sub.toSubscription).mpr ⟨uuid, sub, hget, htext, rfl⟩
  rw [hsame] at hfound
  rw [findSubscriptionById, subscriptionsOf, hfound] at hnone
  cases hnone

/-- Fewer rows, when what is no longer there has been taken out. -/
theorem Accounted.fewer (h : Accounted s told) (hsub : told ⊆ told')
    {subscriptions : WebhookSubscriptionRows} {deliveries : WebhookDeliveries}
    (hrows : ∀ id delivery, deliveries.get id = some delivery →
      s.workers.deliveries.get id = some delivery)
    (hreferenced : ∀ id delivery, deliveries.get id = some delivery →
      ∃ uuid sub, subscriptions.get uuid = some sub ∧ uuid.text = delivery.subscriptionId)
    (hkept : ∀ k id event sub, .enqueued k id event sub ∈ told' →
      (deliveries.get id).isSome = true ∨ TakenOut told' id sub) :
    Accounted { s with
      subscriptions := subscriptions
      workers := { s.workers with deliveries := deliveries } } told' where
  verdicts := by
    apply h.verdicts.setRows s.workers.subscriptions
    · exact fun id outcome hresponse => hsub hresponse
    · exact fun id delivery hget => Or.inl (hrows id delivery hget)
    · intro i id attempt _ hnone
      cases hget : deliveries.get attempt.delivery.id with
      | none => rfl
      | some delivery =>
        rw [hrows _ delivery hget] at hnone
        cases hnone
  referenced := hreferenced
  kept := hkept

/-- The story goes on without a delivery that is stored. -/
theorem Accounted.enqueued_of_append {event : Option (ServiceEvent κ)} (h : Accounted s told)
    (hnone : event.bind enqueuedId = none) {k : κ} {id : String} {outbound : OutboundEvent}
    {sub : WebhookSubscriptionRow} (hmem : .enqueued k id outbound sub ∈ told ++ event.toList) :
    (s.workers.deliveries.get id).isSome = true ∨ TakenOut told id sub := by
  rcases List.mem_append.mp hmem with hold | hnew
  · exact h.kept k id outbound sub hold
  · rw [Option.mem_toList.mp hnew] at hnone
    cases hnone

theorem Accounted.delete (h : Accounted s told) (hnodup : (told.filterMap enqueuedId).Nodup)
    (hrows : ∀ id row, s.workers.deliveries.get id = some row → Originates runtime told row)
    (id : String) :
    Accounted { s with
      subscriptions := (deleteWebhook runtime s.subscriptions s.workers.deliveries id).2.1
      workers := { s.workers with
        deliveries := (deleteWebhook runtime s.subscriptions s.workers.deliveries id).2.2 } }
      (told ++ (eventOf runtime s (.delete id)).toList) := by
  rcases delete_cases runtime s id with ⟨hnone,hsame⟩ | ⟨uuid,hevent,hdeleted⟩
  · rw [hnone, hsame, Option.toList_none, List.append_nil]
    exact h
  · rw [hevent, hdeleted]
    have hsub := List.subset_append_left told
      ((s.subscriptions.get uuid).map fun _ => ServiceEvent.unsubscribed uuid).toList
    refine h.fewer hsub ?_ ?_ ?_
    · intro key delivery hget
      rw [InsertionMap.get_filter] at hget
      exact (Option.filter_eq_some_iff.mp hget).1
    · intro key delivery hget
      rw [InsertionMap.get_filter] at hget
      obtain ⟨hget,hother⟩ := Option.filter_eq_some_iff.mp hget
      obtain ⟨uuid',sub,hsome,htext⟩ := h.referenced key delivery hget
      refine ⟨uuid', sub, ?_, htext⟩
      rw [InsertionMap.get_delete, if_neg, hsome]
      rintro rfl
      exact of_decide_eq_true hother htext.symm
    · intro k key outbound sub hmem
      have hbefore := h.enqueued_of_append (by cases s.subscriptions.get uuid <;> rfl) hmem
      rcases hbefore with hrow | htaken
      · obtain ⟨row,hrow⟩ := Option.isSome_iff_exists.mp hrow
        by_cases hgone : row.subscriptionId = uuid.text
        · -- the row goes with its subscription, which was there
          right
          left
          obtain ⟨uuid',sub',hsome,htext⟩ := h.referenced key row hrow
          obtain rfl : uuid' = uuid := Uuid.ext (htext.trans hgone)
          rw [hsome] at hmem ⊢
          have hkey := h.verdicts.keys key row hrow
          have henqueued : .enqueued k row.id outbound sub ∈ told := by
            rw [hkey]
            rcases List.mem_append.mp hmem with hold | hnew
            · exact hold
            · cases List.mem_singleton.mp hnew
          have hown := subscriptionId_of_enqueued hnodup (hrows key row hrow) henqueued
          rw [show sub.id = uuid' from Uuid.ext (hown.symm.trans hgone)]
          exact List.mem_append_right _ (List.mem_singleton_self _)
        · left
          rw [InsertionMap.get_filter, hrow, Option.isSome_iff_exists]
          exact ⟨row, Option.filter_eq_some_iff.mpr ⟨rfl, decide_eq_true hgone⟩⟩
      · exact Or.inr (htaken.mono hsub)

theorem Accounted.prune (h : Accounted s told) (olderThanDays : ℕ) :
    Accounted { s with
      workers := { s.workers with
        deliveries := pruneDeliveries s.workers.deliveries s.createdAt
          (pruneCutoff s.workers.now olderThanDays) } }
      (told ++ (eventOf runtime s (.prune olderThanDays)).toList) := by
  have hfewer (id : String) (delivery : WebhookDelivery)
      (hget : (pruneDeliveries s.workers.deliveries s.createdAt
        (pruneCutoff s.workers.now olderThanDays)).get id = some delivery) :
      s.workers.deliveries.get id = some delivery := by
    rw [pruneDeliveries, InsertionMap.get_filter] at hget
    exact (Option.filter_eq_some_iff.mp hget).1
  refine h.fewer (List.subset_append_left _ _) hfewer
    (fun id delivery hget => h.referenced id delivery (hfewer id delivery hget)) ?_
  intro k id outbound sub hmem
  rcases h.enqueued_of_append rfl hmem with hrow | htaken
  · obtain ⟨row,hrow⟩ := Option.isSome_iff_exists.mp hrow
    by_cases hyoung : Date.toTimestamp (pruneCutoff s.workers.now olderThanDays) ≤ s.createdAt id
    · left
      rw [pruneDeliveries, InsertionMap.get_filter, hrow, Option.isSome_iff_exists]
      exact ⟨row, Option.filter_eq_some_iff.mpr ⟨rfl, decide_eq_true hyoung⟩⟩
    · right
      right
      refine ⟨_, List.mem_append_right _ (List.mem_singleton_self _), ?_⟩
      apply List.mem_filter.mpr
      refine ⟨List.mem_map.mpr ⟨(id, row), ?_, rfl⟩, decide_eq_true (not_le.mp hyoung)⟩
      exact (InsertionMap.get_eq_some_iff _ _ _).mp hrow
  · exact Or.inr (htaken.mono (List.subset_append_left _ _))

theorem Accounted.worker [DecidableEq ι] (h : Accounted s told) (hsound : Sound runtime s told)
    (hnodup : (told.filterMap enqueuedId).Nodup) {a : WebhookAction ι} {workers : WebhookSystem ι}
    (ht : WebhookSystem.step owner runtime.toWebhookRuntime s.system a = some workers) :
    Accounted { s with workers := workers }
      (told ++ (eventOf runtime s (.worker a : ServiceAction ι κ)).toList) where
  verdicts := by
    have hsystem : s.system.Verdicts (Responded told) :=
      h.verdicts.setRows (subscriptionsOf s.subscriptions) s.workers.deliveries
        (fun _ _ hresponse => hresponse) (fun _ _ hget => Or.inl hget) (fun _ _ _ _ hnone => hnone)
    apply hsystem.step ht
    · exact fun id outcome hresponse => List.mem_append_left _ hresponse
    · rintro i id outcome rfl
      exact List.mem_append_right _ (List.mem_singleton_self _)
    · exact fun i id attempt hattempt hnone => h.missing hnodup hsound.carried.rows
        (hsound.carried.attempts i id attempt hattempt) hnone
  referenced := by
    intro id after hafter
    rcases WebhookSystem.get_of_step ht id with hsame | ⟨_,_,_,patch,_,_,_,_,hget⟩
    · exact h.referenced id after (hsame ▸ hafter)
    · rw [hget] at hafter
      obtain ⟨before,hbefore,rfl⟩ := Option.map_eq_some_iff.mp hafter
      exact h.referenced id before hbefore
  kept := by
    intro k id event sub hmem
    rcases h.enqueued_of_append (by cases a <;> rfl) hmem with hrow | htaken
    · left
      rw [Option.isSome_iff_ne_none, ne_eq] at hrow ⊢
      exact fun hnone => hrow ((WebhookSystem.get_eq_none_of_step ht id).mp hnone)
    · exact Or.inr (htaken.mono (List.subset_append_left _ _))

theorem Accounted.post (h : Accounted s told) (body : Json) (secret : String) (generated : Uuid)
    (now : Timestamp) :
    Accounted { s with
      subscriptions :=
        (postWebhooks runtime.toWebhooksRuntime s.subscriptions body secret generated now).2 }
      (told ++ (eventOf runtime s (.post body secret generated now)).toList) := by
  have hsub := List.subset_append_left told
    (eventOf runtime s (.post body secret generated now : ServiceAction ι κ)).toList
  refine h.fewer hsub (fun _ _ hget => hget) ?_ ?_
  · intro id delivery hget
    obtain ⟨uuid,sub,hsome,htext⟩ := h.referenced id delivery hget
    rcases post_cases runtime s body secret generated now with
      ⟨_,hsame⟩ | ⟨sub',_,hnew,_,hset⟩
    · exact ⟨uuid, sub, hsame.symm ▸ hsome, htext⟩
    · refine ⟨uuid, sub, ?_, htext⟩
      rw [hset, InsertionMap.get_set_of_ne, hsome]
      rintro rfl
      rw [hnew] at hsome
      cases hsome
  · intro k id event sub hmem
    have hnone : (eventOf runtime s (.post body secret generated now)).bind enqueuedId = none := by
      rcases post_cases runtime s body secret generated now with
        ⟨hevent,_⟩ | ⟨_,_,_,hevent,_⟩ <;> rw [hevent] <;> rfl
    exact (h.enqueued_of_append hnone hmem).imp_right fun htaken => htaken.mono hsub

theorem Accounted.setEnqueue [DecidableEq κ] (h : Accounted s told) (k : κ)
    (progress : EnqueueProgress) : Accounted (s.setEnqueue k progress) told where
  verdicts := h.verdicts
  referenced := h.referenced
  kept := h.kept

/-- A new delivery is one that has not been sent. -/
theorem Accounted.store [DecidableEq κ] (h : Accounted s told) (hsound : Sound runtime s told)
    {k : κ} {event : OutboundEvent} {sub : WebhookSubscriptionRow} {generated : Uuid}
    {now : Timestamp} {delivery : WebhookDelivery} {deliveries : WebhookDeliveries}
    (hfresh : generated.text ∉ told.filterMap enqueuedId)
    (hcreated : s.created runtime event sub generated now = some (delivery, deliveries)) :
    Accounted (s.store delivery deliveries now) (told ++ [.enqueued k delivery.id event sub]) := by
  obtain ⟨hdelivery,rfl,hhas,hnew⟩ := createDelivery_eq_some hcreated
  have hid : delivery.id = generated.text := by rw [hdelivery]; rfl
  have hearned : s.workers.Earned (Responded told) delivery := by
    rw [hdelivery]
    exact {
      sent := Nat.zero_le _
      bounded := Nat.zero_le _
      pending := fun _ => ⟨Nat.succ_pos 4, rfl⟩
      success := fun hsuccess => by cases hsuccess
      failed := fun hfailed => by cases hfailed }
  exact {
    verdicts := by
      apply h.verdicts.setRows s.workers.subscriptions
      · exact fun id outcome hresponse => List.mem_append_left _ hresponse
      · apply InsertionMap.forall_get_set
        · exact Or.inr ⟨hid, hearned⟩
        · exact fun id other hget _ => Or.inl hget
      · intro i id attempt hattempt hnone
        -- the id of the copy has been given out before
        obtain ⟨k',event',sub',henqueued,_⟩ := hsound.carried.attempts i id attempt hattempt
        rw [InsertionMap.get_set_of_ne, hnone]
        intro he
        apply hfresh
        exact List.mem_filterMap.mpr ⟨_, henqueued, congrArg some he⟩
    referenced := by
      apply InsertionMap.forall_get_set
      · obtain ⟨row,hrow⟩ := Option.isSome_iff_exists.mp hhas
        exact ⟨sub.id, row, hrow, by rw [hdelivery]; rfl⟩
      · exact fun id other hget _ => h.referenced id other hget
    kept := by
      intro k' id event' sub' hmem
      rcases List.mem_append.mp hmem with hold | hlast
      · rcases h.kept k' id event' sub' hold with hrow | htaken
        · left
          change ((s.workers.deliveries.set generated.text delivery).get id).isSome = true
          rw [InsertionMap.get_set]
          split_ifs
          · rfl
          · exact hrow
        · exact Or.inr (htaken.mono (List.subset_append_left _ _))
      · left
        obtain ⟨_,rfl,_⟩ := ServiceEvent.enqueued.inj (List.mem_singleton.mp hlast)
        change ((s.workers.deliveries.set generated.text delivery).get delivery.id).isSome = true
        rw [hid, InsertionMap.get_set_self]
        rfl }

theorem Accounted.step [DecidableEq ι] [DecidableEq κ] (h : Accounted s told)
    (hsound : Sound runtime s told) (hnodup : (told.filterMap enqueuedId).Nodup)
    {a : ServiceAction ι κ} (hfresh : FreshIds (s, told) a)
    (ht : WebhookService.step owner runtime s a = some t) :
    Accounted t (told ++ (eventOf runtime s a).toList) := by
  cases a with
  | worker a =>
    obtain ⟨workers,hworkers,rfl⟩ := Option.map_eq_some_iff.mp ht
    exact h.worker hsound hnodup hworkers
  | post body secret generated now =>
    obtain rfl := Option.some.inj ht
    exact h.post body secret generated now
  | delete id =>
    obtain rfl := Option.some.inj ht
    exact h.delete hnodup hsound.carried.rows id
  | prune olderThanDays =>
    obtain rfl := Option.some.inj ht
    exact h.prune olderThanDays
  | find k event throws =>
    simp only [WebhookService.step] at ht
    split at ht
    · obtain rfl := Option.some.inj ht
      have hsub := List.subset_append_left told
        (eventOf runtime s (.find k event throws : ServiceAction ι κ)).toList
      apply Accounted.setEnqueue
      refine h.fewer hsub (fun _ _ hget => hget) h.referenced ?_
      intro k' id event' sub hmem
      apply (h.enqueued_of_append ?_ hmem).imp_right fun htaken => htaken.mono hsub
      cases throws <;> rfl
    · cases ht
  | insert k generated now outcome =>
    obtain ⟨event,sub,left,stored,hk,hcases⟩ := insert_cases ht
    rcases hcases with ⟨hnone,_,rfl⟩ | ⟨delivery,deliveries,hcreated,hevent,rfl⟩
    · rw [hnone, Option.toList_none, List.append_nil]
      exact h.setEnqueue k _
    · rw [hevent]
      exact (h.store hsound hfresh hcreated).setEnqueue k _

/-- The invariants of the system in every state it reaches. -/
structure Invariants (runtime : OutboundRuntime) (s : WebhookService ι κ)
    (told : List (ServiceEvent κ)) [DecidableEq κ] : Prop where
  sound : Sound runtime s told
  story : Told s.subscriptions s.enqueues told
  accounted : Accounted s told

variable [DecidableEq ι] [DecidableEq κ]

theorem Invariants.step (h : Invariants runtime s told) {a : ServiceAction ι κ}
    (hfresh : FreshIds (s, told) a) (ht : WebhookService.step owner runtime s a = some t) :
    Invariants runtime t (told ++ (eventOf runtime s a).toList) where
  sound := h.sound.step hfresh ht
  story := h.story.step (fun id sub hget => (h.sound.subscriptions id sub hget).1) hfresh ht
  accounted := h.accounted.step h.sound h.story.nodup hfresh ht

theorem invariants_of_reaches {now : Date} {available : Bool}
    (h : ReachesWhile (tellingStep owner runtime) FreshIds (start now available, []) (s, told)) :
    Invariants runtime s told := by
  have hstart : Accounted (start now available : WebhookService ι κ) [] :=
    { verdicts :=
        { keys := fun _ _ hget => by cases hget
          rows := fun _ _ hget => by cases hget
          due := fun _ _ hdue => by cases hdue
          ids := fun _ _ _ hattempt => by cases hattempt
          polled := fun _ _ _ hattempt => by cases hattempt
          backed := fun _ _ _ hattempt => by cases hattempt }
      referenced := fun _ _ hget => by cases hget
      kept := fun _ _ _ _ hmem => by cases hmem }
  have hall := h.invariant (fun told => Invariants runtime told.1 told.2) ?_
    ⟨sound_start now available, told_start now available, hstart⟩
  · exact hall
  · rintro ⟨before,told⟩ a ⟨after,told'⟩ hbefore hfresh hafter
    obtain ⟨hstep,rfl⟩ := recording_eq_some.mp hafter
    exact hbefore.step hfresh hstep

/-- A delivery that was stored is still there, with the payload of its event and a status
that is borne out: as a success it got a 2xx response, as a failure it was sent at least
five times, and otherwise it has a next attempt. Or it was taken out, by the deletion of
its subscription or by pruning. -/
theorem fate_of_delivery {now : Date} {available : Bool}
    (h : ReachesWhile (tellingStep owner runtime) FreshIds (start now available, []) (s, told))
    {k : κ} {id : String} {event : OutboundEvent} {sub : WebhookSubscriptionRow}
    (hmem : .enqueued k id event sub ∈ told) :
    (∃ delivery, s.workers.deliveries.get id = some delivery ∧
      delivery.subscriptionId = sub.id.text ∧ delivery.payload = runtime.stringify event ∧
      s.workers.Earned (Responded told) delivery) ∨ TakenOut told id sub := by
  have hall := invariants_of_reaches h
  rcases hall.accounted.kept k id event sub hmem with hrow | htaken
  · obtain ⟨delivery,hget⟩ := Option.isSome_iff_exists.mp hrow
    have hkey := hall.accounted.verdicts.keys id delivery hget
    have hearned := hall.accounted.verdicts.rows id delivery hget
    obtain ⟨k',event',sub',henqueued,_,hid,_,hpayload⟩ := hall.sound.carried.rows id delivery hget
    obtain ⟨_,_,hevent,hsub⟩ := ServiceEvent.enqueued.inj
      (enqueued_unique hall.story.nodup hmem (hkey ▸ henqueued))
    exact Or.inl ⟨delivery, hget, hsub ▸ hid, hevent ▸ hpayload, hearned⟩
  · exact Or.inr htaken

/-- The sample delivery after its request has been answered with a 500. -/
theorem fate_of_settled_delivery : ∃ (s : WebhookService Unit Unit) (told : _),
    (s.workers.deliveries.get hookId.text).map (fun delivery =>
      (delivery.status, delivery.attempts)) = some (.pending, 1) ∧
      ∃ event sub, (∃ delivery, s.workers.deliveries.get hookId.text = some delivery ∧
        delivery.subscriptionId = sub.id.text ∧
        delivery.payload = serviceRuntime.stringify event ∧
        s.workers.Earned (@Responded Unit told) delivery) ∨ TakenOut told hookId.text sub := by
  let step := @tellingStep Unit Unit _ _ (fun _ => "worker") serviceRuntime
  have hrun : (execWhile step FreshIds (start 0 true, []) (serviceTurns () () ++
      [.worker (.receive () hookId.text (.response 500)), .worker (.record () hookId.text none)])).map
      (fun s => ((s.1.workers.deliveries.get hookId.text).map fun delivery =>
        (delivery.status, delivery.attempts), (enqueuedBy () s.2).map Prod.fst)) =
      some (some (.pending, 1), [hookId.text]) := by decide +kernel
  obtain ⟨s,hs,hseen⟩ := Option.map_eq_some_iff.mp hrun
  obtain ⟨hrow,henqueued⟩ := Prod.mk.inj hseen
  have hmem : hookId.text ∈ (enqueuedBy () s.2).map Prod.fst :=
    henqueued ▸ List.mem_singleton_self _
  obtain ⟨⟨id,event,sub⟩,hstored,rfl⟩ := List.mem_map.mp hmem
  exact ⟨s.1, s.2, hrow, event, sub,
    fate_of_delivery (reachesWhile_of_execWhile _ hs) (mem_of_enqueuedBy hstored)⟩

end WebhookService

end StreamPay
