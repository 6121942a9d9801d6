import StreamPay.WebhookVerdicts

/-! What subscribers are still sent after their subscription has been deleted, by workers
that share the in-memory lease. -/
namespace StreamPay
open Interleaving WebhookRepository

namespace WebhookSystem
variable {ι : Type*} [DecidableEq ι] {owner : ι → String} {runtime : WebhookRuntime}
  {s t : WebhookSystem ι}

theorem Leased.step (h : Leased owner s) {a : WebhookAction ι}
    (ht : WebhookSystem.step owner runtime s a = some t) : Leased owner t := by
  cases turn_of_step ht with
  | idle hattempt hlease _ _ => exact h.congr hattempt hlease
  | lease i due _ => exact h.lease i due
  | advance i id attempt progress hattempt _ => exact h.setAttempt hattempt progress
  | send i id attempt progress request hattempt _ =>
    exact (h.setAttempt hattempt progress).congr rfl rfl
  | record i id attempt patch hattempt _ => exact (h.setAttempt hattempt .finished).congr rfl rfl
  | release i id delivery hattempt => exact h.release hattempt

/-- An attempt on the delivery is about to send its request. -/
def InFlight (s : WebhookSystem ι) (i : ι) (delivery : WebhookDelivery) : Prop :=
  ∃ id sub, s.attempt i id = some ⟨delivery, .subscribed sub⟩

omit [DecidableEq ι] in
/-- A delivery is attempted by one process at a time. -/
theorem Leased.attempt_unique (h : Leased owner s) {i j : ι} {id id' : String}
    {attempt attempt' : Attempt} (hi : s.attempt i id = some attempt)
    (hj : s.attempt j id' = some attempt') (hid : attempt.delivery.id = attempt'.delivery.id) :
    attempt = attempt' := by
  obtain rfl : attempt.delivery.id = id := (h.held i id _ hi).1
  obtain rfl : attempt'.delivery.id = id' := (h.held j id' _ hj).1
  rw [← hid] at hj
  obtain rfl := h.alone i j attempt.delivery.id _ _ hi hj
  exact Option.some.inj (hi.symm.trans hj)

/-- An attempt that is in flight was so before the turn, or has found its subscription in it. -/
theorem inFlight_of_step {a : WebhookAction ι} (ht : step owner runtime s a = some t) {i : ι}
    {delivery : WebhookDelivery} (hflight : t.InFlight i delivery) :
    s.InFlight i delivery ∨
      (findSubscriptionById s.subscriptions delivery.subscriptionId).isSome = true := by
  obtain ⟨id,sub,hnow⟩ := hflight
  rcases attempt_of_step ht hnow with hold | ⟨before,_,hsame,hstep⟩ | ⟨_,hstarted,_⟩
  · exact Or.inl ⟨id, sub, hold⟩
  · right
    rw [← show before.delivery = delivery from hsame]
    generalize hprogress : Attempt.progress ⟨delivery, .subscribed sub⟩ = progress at hstep
    cases hstep with
    | found delivery' sub' hfound => rw [hfound, Option.isSome_some]
    | received delivery' outcome =>
      have hunrecorded := unrecorded_outcomeProgress outcome
      rw [← hprogress] at hunrecorded
      cases hunrecorded
    | recordThrows patch message _ =>
      rw [Attempt.afterThrow] at hprogress
      split at hprogress <;> cases hprogress
    | findThrows | missing | sent | recorded => cases hprogress
  · cases hstarted

/-- An attempt that sends its request is no longer in flight. -/
theorem requests_of_flight {a : WebhookAction ι} (h : Leased owner s)
    (ht : step owner runtime s a = some t) : t.requests = s.requests ∨
      ∃ i delivery request, s.InFlight i delivery ∧
        t.requests = s.requests ++ [(delivery.id, request)] ∧
        ∀ j delivery', t.InFlight j delivery' → delivery'.id ≠ delivery.id := by
  rcases requests_of_step ht with ⟨_,hsame⟩ | ⟨i,id,delivery,sub,rfl,hattempt,hsent,hrequests⟩
  · exact Or.inl hsame
  · refine Or.inr ⟨i, delivery, _, ⟨id, sub, hattempt⟩, hrequests, ?_⟩
    intro j delivery' hflight hid
    obtain ⟨id',sub',hattempt'⟩ := hflight
    -- it would be the attempt that has just sent its own
    cases (h.step ht).attempt_unique hattempt' hsent hid

end WebhookSystem

namespace WebhookService
variable {ι κ : Type*} {runtime : OutboundRuntime} {told told' : List (ServiceEvent κ)}

/-- The delivery was stored for the subscription. -/
def EnqueuedFor (told : List (ServiceEvent κ)) (id : String) (uuid : Uuid) : Prop :=
  ∃ k event sub, .enqueued k id event sub ∈ told ∧ sub.id = uuid

/-- What is told later does not change what a delivery was stored for. -/
theorem enqueuedFor_of_append (hnodup : ((told ++ told').filterMap enqueuedId).Nodup) {id : String}
    (hid : id ∈ told.filterMap enqueuedId) {uuid : Uuid} (h : EnqueuedFor (told ++ told') id uuid) :
    EnqueuedFor told id uuid := by
  obtain ⟨k,event,sub,hmem,huuid⟩ := h
  obtain ⟨story,hstory,hsome⟩ := List.mem_filterMap.mp hid
  cases story with
  | enqueued k' id' event' sub' =>
    obtain rfl := Option.some.inj hsome
    have hsame := enqueued_unique hnodup hmem (List.mem_append_left told' hstory)
    exact ⟨k, event, sub, hsame ▸ hstory, huuid⟩
  | subscribed | unsubscribed | found | pruned | responded => cases hsome

theorem enqueuedFor_iff (hnodup : (told.filterMap enqueuedId).Nodup) {delivery : WebhookDelivery}
    (horigin : Originates runtime told delivery) {uuid : Uuid} :
    EnqueuedFor told delivery.id uuid ↔ delivery.subscriptionId = uuid.text := by
  constructor
  · rintro ⟨k,event,sub,hmem,rfl⟩
    exact subscriptionId_of_enqueued hnodup horigin hmem
  · intro hid
    obtain ⟨k,event,sub,hmem,_,hsub,_⟩ := horigin
    exact ⟨k, event, sub, hmem, Uuid.ext (hsub.symm.trans hid)⟩

variable [DecidableEq ι] [DecidableEq κ] {owner : ι → String} {s t u : WebhookService ι κ}

theorem workers_of_step {a : ServiceAction ι κ} (ht : step owner runtime s a = some t) :
    (∃ a', a = .worker a' ∧
      WebhookSystem.step owner runtime.toWebhookRuntime s.system a' = some t.workers) ∨
    (t.workers.processes = s.workers.processes ∧ t.workers.lease = s.workers.lease ∧
      t.workers.requests = s.workers.requests) := by
  cases a with
  | worker a =>
    obtain ⟨workers,hworkers,rfl⟩ := Option.map_eq_some_iff.mp ht
    exact Or.inl ⟨a, rfl, hworkers⟩
  | post body secret generated now =>
    obtain rfl := Option.some.inj ht
    exact Or.inr ⟨rfl, rfl, rfl⟩
  | delete id =>
    obtain rfl := Option.some.inj ht
    exact Or.inr ⟨rfl, rfl, rfl⟩
  | prune olderThanDays =>
    obtain rfl := Option.some.inj ht
    exact Or.inr ⟨rfl, rfl, rfl⟩
  | find k event throws =>
    simp only [step] at ht
    split at ht
    · obtain rfl := Option.some.inj ht
      exact Or.inr ⟨rfl, rfl, rfl⟩
    · cases ht
  | insert k generated now outcome =>
    obtain ⟨_,_,_,_,_,hcases⟩ := insert_cases ht
    rcases hcases with ⟨_,_,rfl⟩ | ⟨_,_,_,_,rfl⟩
    · exact Or.inr ⟨rfl, rfl, rfl⟩
    · exact Or.inr ⟨rfl, rfl, rfl⟩

/-- A subscription that is gone does not come back: its id is not given out again. -/
theorem get_subscription_of_step {a : ServiceAction ι κ} (hfresh : FreshIds (s, told) a)
    (ht : step owner runtime s a = some t) {uuid : Uuid} (hmade : uuid ∈ told.filterMap subscribedId)
    (hgone : s.subscriptions.get uuid = none) : t.subscriptions.get uuid = none := by
  cases a with
  | worker a =>
    obtain ⟨workers,_,rfl⟩ := Option.map_eq_some_iff.mp ht
    exact hgone
  | post body secret generated now =>
    obtain rfl := Option.some.inj ht
    rcases post_cases runtime s body secret generated now with ⟨_,hsame⟩ | ⟨_,_,_,_,hset⟩
    · dsimp only
      rw [hsame]
      exact hgone
    · dsimp only
      rw [hset, InsertionMap.get_set_of_ne, hgone]
      rintro rfl
      exact hfresh hmade
  | delete id =>
    obtain rfl := Option.some.inj ht
    rcases delete_cases runtime s id with ⟨_,hsame⟩ | ⟨uuid',_,hdeleted⟩
    · dsimp only
      rw [hsame]
      exact hgone
    · dsimp only
      rw [hdeleted, InsertionMap.get_delete, hgone, ite_self]
  | prune olderThanDays =>
    obtain rfl := Option.some.inj ht
    exact hgone
  | find k event throws =>
    simp only [step] at ht
    split at ht
    · obtain rfl := Option.some.inj ht
      exact hgone
    · cases ht
  | insert k generated now outcome =>
    obtain ⟨_,_,_,_,_,hcases⟩ := insert_cases ht
    rcases hcases with ⟨_,_,rfl⟩ | ⟨_,_,_,_,rfl⟩
    · exact hgone
    · exact hgone

/-- What has happened since a state in which the subscription was gone. -/
structure Quiet (uuid : Uuid) (s t : WebhookService ι κ) (told : List (ServiceEvent κ))
    (new : List (String × WebhookRequest)) : Prop where
  gone : t.subscriptions.get uuid = none
  made : uuid ∈ told.filterMap subscribedId
  flight : ∀ i delivery, t.workers.InFlight i delivery → delivery.subscriptionId = uuid.text →
    s.workers.InFlight i delivery
  requests : t.workers.requests = s.workers.requests ++ new
  sent : ∀ r ∈ new, EnqueuedFor told r.1 uuid →
    (∃ i delivery, s.workers.InFlight i delivery ∧ delivery.id = r.1) ∧
      ∀ i delivery, t.workers.InFlight i delivery → delivery.id ≠ r.1
  once : new.Pairwise fun r r' => EnqueuedFor told r.1 uuid → r.1 ≠ r'.1

omit [DecidableEq ι] [DecidableEq κ] in
theorem find_eq_none {uuid : Uuid} (hgone : s.subscriptions.get uuid = none) :
    findSubscriptionById (subscriptionsOf s.subscriptions) uuid.text = none := by
  by_contra hsome
  obtain ⟨sub,hfound⟩ := Option.ne_none_iff_exists'.mp hsome
  obtain ⟨uuid',row,hrow,htext,_⟩ := find_subscriptionsOf hfound
  obtain rfl : uuid' = uuid := Uuid.ext htext
  rw [hgone] at hrow
  cases hrow

/-- No attempt of the subscription takes off any more. -/
theorem inFlight_of_gone {a : ServiceAction ι κ} (hu : step owner runtime t a = some u)
    {uuid : Uuid} (hgone : t.subscriptions.get uuid = none) {i : ι} {delivery : WebhookDelivery}
    (hflight : u.workers.InFlight i delivery) (hid : delivery.subscriptionId = uuid.text) :
    t.workers.InFlight i delivery := by
  rcases workers_of_step hu with ⟨a',_,hworkers⟩ | ⟨hprocesses,_,_⟩
  · rcases WebhookSystem.inFlight_of_step hworkers hflight with hold | hfound
    · exact hold
    · rw [hid] at hfound
      change (findSubscriptionById (subscriptionsOf t.subscriptions) uuid.text).isSome = true
        at hfound
      rw [find_eq_none hgone] at hfound
      cases hfound
  · obtain ⟨id,sub,hattempt⟩ := hflight
    refine ⟨id, sub, ?_⟩
    rwa [WebhookSystem.attempt, hprocesses] at hattempt

theorem Quiet.step {uuid : Uuid} {new : List (String × WebhookRequest)}
    (h : Quiet uuid s t told new) (hall : Invariants runtime t told)
    (hleased : WebhookSystem.Leased owner t.workers) {a : ServiceAction ι κ}
    (hfresh : FreshIds (t, told) a) (hu : WebhookService.step owner runtime t a = some u) :
    ∃ new, Quiet uuid s u (told ++ (eventOf runtime t a).toList) new := by
  have hall' := hall.step hfresh hu
  have hnodup := hall'.story.nodup
  have hsubscription {i : ι} {delivery : WebhookDelivery}
      (hflight : u.workers.InFlight i delivery ∨ t.workers.InFlight i delivery)
      (hfor : EnqueuedFor (told ++ (eventOf runtime t a).toList) delivery.id uuid) :
      delivery.subscriptionId = uuid.text := by
    rcases hflight with ⟨id,sub,hattempt⟩ | ⟨id,sub,hattempt⟩
    · exact (enqueuedFor_iff hnodup (hall'.sound.carried.attempts i id _ hattempt)).mp hfor
    · have horigin := hall.sound.carried.attempts i id _ hattempt
      exact (enqueuedFor_iff hnodup (horigin.mono (List.subset_append_left _ _))).mp hfor
  -- the requests so far are of deliveries that had been stored
  have hbefore (r : String × WebhookRequest) (hr : r ∈ new)
      (hfor : EnqueuedFor (told ++ (eventOf runtime t a).toList) r.1 uuid) :
      EnqueuedFor told r.1 uuid := by
    apply enqueuedFor_of_append hnodup _ hfor
    have hsent : (r.1, r.2) ∈ t.workers.requests := h.requests ▸ List.mem_append_right _ hr
    obtain ⟨k,event,sub,hmem,_⟩ := hall.sound.requests r.1 r.2 hsent
    exact List.mem_filterMap.mpr ⟨_, hmem, rfl⟩
  have hgone := get_subscription_of_step hfresh hu h.made h.gone
  have hmade : uuid ∈ (told ++ (eventOf runtime t a).toList).filterMap subscribedId := by
    rw [List.filterMap_append]
    exact List.mem_append_left _ h.made
  have hflight (i : ι) (delivery : WebhookDelivery) (hnow : u.workers.InFlight i delivery)
      (hid : delivery.subscriptionId = uuid.text) : s.workers.InFlight i delivery :=
    h.flight i delivery (inFlight_of_gone hu h.gone hnow hid) hid
  have hsent (r : String × WebhookRequest) (hr : r ∈ new)
      (hfor : EnqueuedFor (told ++ (eventOf runtime t a).toList) r.1 uuid) :
      (∃ i delivery, s.workers.InFlight i delivery ∧ delivery.id = r.1) ∧
        ∀ i delivery, u.workers.InFlight i delivery → delivery.id ≠ r.1 := by
    obtain ⟨hflown,hlanded⟩ := h.sent r hr (hbefore r hr hfor)
    refine ⟨hflown, fun i delivery hnow he => ?_⟩
    have hid := hsubscription (Or.inl hnow) (he ▸ hfor)
    exact hlanded i delivery (inFlight_of_gone hu h.gone hnow hid) he
  have honce : new.Pairwise fun r r' =>
      EnqueuedFor (told ++ (eventOf runtime t a).toList) r.1 uuid → r.1 ≠ r'.1 :=
    h.once.imp_of_mem fun hr _ hne hfor => hne (hbefore _ hr hfor)
  have hrequests : u.workers.requests = t.workers.requests ∨
      ∃ i delivery request, t.workers.InFlight i delivery ∧
        u.workers.requests = t.workers.requests ++ [(delivery.id, request)] ∧
        ∀ j delivery', u.workers.InFlight j delivery' → delivery'.id ≠ delivery.id := by
    rcases workers_of_step hu with ⟨a',_,hworkers⟩ | ⟨_,_,hsame⟩
    · have hsystem : WebhookSystem.Leased owner t.system := hleased.congr rfl rfl
      have hsent := WebhookSystem.requests_of_flight hsystem hworkers
      exact hsent
    · exact Or.inl hsame
  rcases hrequests with hsame | ⟨i,delivery,request,hflown,happend,hlanded⟩
  · exact ⟨new, hgone, hmade, hflight, hsame.trans h.requests, hsent, honce⟩
  · refine ⟨new ++ [(delivery.id, request)], hgone, hmade, hflight, ?_, ?_, ?_⟩
    · rw [happend, h.requests, List.append_assoc]
    · intro r hr hfor
      rcases List.mem_append.mp hr with hold | hlast
      · exact hsent r hold hfor
      · obtain rfl := List.mem_singleton.mp hlast
        have hid := hsubscription (Or.inr hflown) hfor
        exact ⟨⟨i, delivery, h.flight i delivery hflown hid, rfl⟩, hlanded⟩
    · apply List.pairwise_append.mpr
      refine ⟨honce, List.pairwise_singleton _ _, fun r hr r' hr' hfor he => ?_⟩
      obtain rfl := List.mem_singleton.mp hr'
      exact (h.sent r hr (hbefore r hr hfor)).2 i delivery hflown he.symm

theorem leased_of_step (h : WebhookSystem.Leased owner s.workers) {a : ServiceAction ι κ}
    (ht : step owner runtime s a = some t) : WebhookSystem.Leased owner t.workers := by
  rcases workers_of_step ht with ⟨a',_,hworkers⟩ | ⟨hprocesses,hlease,_⟩
  · have hsystem : WebhookSystem.Leased owner s.system := h.congr rfl rfl
    exact hsystem.step hworkers
  · apply h.congr _ hlease
    funext i id
    rw [WebhookSystem.attempt, WebhookSystem.attempt, hprocesses]

theorem leased_of_reaches {now : Date} {available : Bool}
    (h : ReachesWhile (tellingStep owner runtime) FreshIds (start now available, []) (s, told)) :
    WebhookSystem.Leased owner s.workers := by
  have hstart : WebhookSystem.Leased owner (start now available : WebhookService ι κ).workers :=
    { held := fun _ _ _ hattempt => by cases hattempt
      alone := fun _ _ _ _ _ hattempt => by cases hattempt }
  have hleased := h.invariant (fun told => WebhookSystem.Leased owner told.1.workers) ?_ hstart
  · exact hleased
  · intro before a after hbefore _ hafter
    exact leased_of_step hbefore (recording_eq_some.mp hafter).1

/-- Once a subscription has been deleted, each of its deliveries is sent at most once more,
and only by an attempt that had found the subscription before. That no two attempts have
done so rests on a lease that does not run out. -/
theorem deleted_subscription_quiet {now : Date} {available : Bool} {uuid : Uuid}
    (hs : ReachesWhile (tellingStep owner runtime) FreshIds (start now available, []) (s, told))
    (hmade : uuid ∈ told.filterMap subscribedId) (hgone : s.subscriptions.get uuid = none)
    (ht : ReachesWhile (tellingStep owner runtime) FreshIds (s, told) (t, told')) :
    ∃ new, t.workers.requests = s.workers.requests ++ new ∧
      (new.Pairwise fun r r' => EnqueuedFor told' r.1 uuid → r.1 ≠ r'.1) ∧
      ∀ r ∈ new, EnqueuedFor told' r.1 uuid →
        ∃ i delivery, s.workers.InFlight i delivery ∧ delivery.id = r.1 := by
  let reached := ReachesWhile (@tellingStep ι κ _ _ owner runtime) FreshIds (start now available, [])
  have hquiet := ht.invariant (fun told => reached told ∧ ∃ new, Quiet uuid s told.1 told.2 new) ?_
    ⟨hs, [], hgone, hmade, fun _ _ hflight _ => hflight, (List.append_nil _).symm,
      fun _ hr => (List.not_mem_nil hr).elim, List.Pairwise.nil⟩
  · obtain ⟨_,new,hnew⟩ := hquiet
    exact ⟨new, hnew.requests, hnew.once, fun r hr hfor => (hnew.sent r hr hfor).1⟩
  · rintro ⟨before,told⟩ a ⟨after,told'⟩ ⟨hreached,new,hnew⟩ hfresh hafter
    refine ⟨.tail a hreached hfresh hafter, ?_⟩
    obtain ⟨hstep,rfl⟩ := recording_eq_some.mp hafter
    exact hnew.step (invariants_of_reaches hreached) (leased_of_reaches hreached) hfresh hstep

/-- The sample subscription is deleted after the attempt has found it; its request is sent. -/
theorem deleted_hook_quiet : ∃ (s t : WebhookService Unit Unit) (told : List (ServiceEvent Unit)),
    ∃ new, t.workers.requests = s.workers.requests ++ new ∧
      new.map Prod.fst = [hookId.text] ∧ s.workers.requests = [] ∧
      new.Pairwise fun r r' => EnqueuedFor told r.1 hookId → r.1 ≠ r'.1 := by
  let step := @tellingStep Unit Unit _ _ (fun _ => "worker") serviceRuntime
  have hrun : ((execWhile step FreshIds (start 0 true, [])
      ((serviceTurns () ()).dropLast ++ [.delete hookId.text])).bind fun s =>
        (execWhile step FreshIds s [.worker (.send () hookId.text)]).map fun t =>
          (s.2.filterMap subscribedId, (s.1.subscriptions.get hookId).isNone,
            s.1.workers.requests.length, t.1.workers.requests.map Prod.fst)) =
      some ([hookId], true, 0, [hookId.text]) := by decide +kernel
  obtain ⟨s,hs,hrest⟩ := Option.bind_eq_some_iff.mp hrun
  obtain ⟨t,ht,hseen⟩ := Option.map_eq_some_iff.mp hrest
  obtain ⟨hmade,hgone,hnone,hsent⟩ : s.2.filterMap subscribedId = [hookId] ∧
      s.1.subscriptions.get hookId = none ∧ s.1.workers.requests = [] ∧
      t.1.workers.requests.map Prod.fst = [hookId.text] := by
    simpa only [Prod.mk.injEq, Option.isNone_iff_eq_none, List.length_eq_zero_iff] using hseen
  obtain ⟨new,hrequests,honce,_⟩ := deleted_subscription_quiet (reachesWhile_of_execWhile _ hs)
    (hmade ▸ List.mem_singleton_self _) hgone (reachesWhile_of_execWhile _ ht)
  refine ⟨s.1, t.1, t.2, new, hrequests, ?_, hnone, honce⟩
  rwa [hrequests, hnone, List.nil_append] at hsent

end WebhookService

end StreamPay
