import StreamPay.WebhookOrigins

/-! What a call of `enqueue` stores, told by the story of the system: the subscriptions
that ask for the event at that time get one delivery each, in their order. -/
namespace StreamPay
open Interleaving WebhookRepository
namespace WebhookService
variable {ι κ : Type*} [DecidableEq κ]

/-- The subscriptions that are there after a story. -/
def subscribers (told : List (ServiceEvent κ)) : List WebhookSubscriptionRow :=
  told.foldl (fun subs event => match event with
    | .subscribed sub => subs ++ [sub]
    | .unsubscribed id => subs.filter fun sub => sub.id ≠ id
    | _ => subs) []

def asking (eventType : String) (subs : List WebhookSubscriptionRow) :
    List WebhookSubscriptionRow :=
  (subs.filter WebhookSubscriptionRow.enabled).filter (selectsEvent eventType)

/-- The event of a call and the subscriptions it has found. -/
def foundBy (k : κ) (told : List (ServiceEvent κ)) :
    List (OutboundEvent × List WebhookSubscriptionRow) :=
  told.filterMap fun
    | .found k' event subs => if k' = k then some (event, subs) else none
    | _ => none

/-- The deliveries of a call, with what they were stored for. -/
def enqueuedBy (k : κ) (told : List (ServiceEvent κ)) :
    List (String × OutboundEvent × WebhookSubscriptionRow) :=
  told.filterMap fun
    | .enqueued k' id event sub => if k' = k then some (id, event, sub) else none
    | _ => none

def servedWith (event : OutboundEvent) (ids : List String) (subs : List WebhookSubscriptionRow) :
    List (String × OutboundEvent × WebhookSubscriptionRow) :=
  List.zipWith (fun id sub => (id, event, sub)) ids subs

/-- What has been told of a call, as far as it has come. -/
def FannedOut (k : κ) (told : List (ServiceEvent κ)) : EnqueueProgress → Prop
  | .called => foundBy k told = [] ∧ enqueuedBy k told = []
  | .inserting event left stored => ∃ served, foundBy k told = [(event, served ++ left)] ∧
      stored.length = served.length ∧
      enqueuedBy k told = servedWith event (stored.map WebhookDelivery.id) served
  | .threw => (foundBy k told = [] ∧ enqueuedBy k told = []) ∨
      ∃ event subs ids, foundBy k told = [(event, subs)] ∧ ids.length ≤ subs.length ∧
        enqueuedBy k told = servedWith event ids subs

omit [DecidableEq κ] in
/-- Every call has found the subscriptions that were there and asked for its event. -/
def FoundCurrent (told : List (ServiceEvent κ)) : Prop :=
  ∀ before k event subs after, told = before ++ .found k event subs :: after →
    subs = asking event.eventType (subscribers before)

/-- The story agrees with the subscriptions and with how far the calls have come. -/
structure Told (subscriptions : WebhookSubscriptionRows) (enqueues : κ → EnqueueProgress)
    (told : List (ServiceEvent κ)) : Prop where
  subscribers : subscriptions.values = subscribers told
  found : FoundCurrent told
  nodup : (told.filterMap enqueuedId).Nodup
  calls : ∀ k, FannedOut k told (enqueues k)

omit [DecidableEq κ] in
theorem subscribers_append (told told' : List (ServiceEvent κ)) :
    subscribers (told ++ told') = told'.foldl (fun subs event => match event with
      | .subscribed sub => subs ++ [sub]
      | .unsubscribed id => subs.filter fun sub => sub.id ≠ id
      | _ => subs) (subscribers told) := List.foldl_append

omit [DecidableEq κ] in
theorem FoundCurrent.append {told : List (ServiceEvent κ)} (h : FoundCurrent told)
    (event : Option (ServiceEvent κ))
    (hfound : ∀ k outbound subs, event = some (.found k outbound subs) →
      subs = asking outbound.eventType (subscribers told)) :
    FoundCurrent (told ++ event.toList) := by
  cases event with
  | none => rwa [Option.toList_none, List.append_nil]
  | some event =>
    rw [Option.toList_some]
    intro before k outbound subs after hsplit
    -- what is told last, or one of the earlier ones
    rcases List.eq_nil_or_concat after with rfl | ⟨after,last,rfl⟩
    · obtain ⟨rfl,hlast⟩ := List.append_inj' hsplit rfl
      exact hfound k outbound subs (congrArg some (List.singleton_inj.mp hlast))
    · apply h before k outbound subs after
      rw [List.concat_eq_append, ← List.cons_append, ← List.append_assoc] at hsplit
      exact (List.append_inj' hsplit rfl).1

theorem foundBy_append (k : κ) (told told' : List (ServiceEvent κ)) :
    foundBy k (told ++ told') = foundBy k told ++ foundBy k told' := by
  rw [foundBy, List.filterMap_append]
  rfl

theorem enqueuedBy_append (k : κ) (told told' : List (ServiceEvent κ)) :
    enqueuedBy k (told ++ told') = enqueuedBy k told ++ enqueuedBy k told' := by
  rw [enqueuedBy, List.filterMap_append]
  rfl

/-- An event that is not about the call. -/
theorem FannedOut.append {k : κ} {told : List (ServiceEvent κ)} {progress : EnqueueProgress}
    (h : FannedOut k told progress) {event : List (ServiceEvent κ)} (hfound : foundBy k event = [])
    (henqueued : enqueuedBy k event = []) : FannedOut k (told ++ event) progress := by
  have hfound' : foundBy k (told ++ event) = foundBy k told := by
    rw [foundBy_append, hfound, List.append_nil]
  have henqueued' : enqueuedBy k (told ++ event) = enqueuedBy k told := by
    rw [enqueuedBy_append, henqueued, List.append_nil]
  cases progress with
  | called => exact ⟨hfound'.trans h.1, henqueued'.trans h.2⟩
  | inserting outbound left stored =>
    rw [FannedOut, hfound', henqueued']
    exact h
  | threw =>
    rw [FannedOut, hfound', henqueued']
    exact h

/-- The call that an event is about. -/
def callOf : ServiceEvent κ → Option κ
  | .found k _ _ | .enqueued k _ _ _ => some k
  | _ => none

theorem foundBy_other {k : κ} {event : ServiceEvent κ} (h : callOf event ≠ some k) :
    foundBy k [event] = [] := by
  cases event with
  | found k' outbound subs =>
    have hne : k' ≠ k := fun he => h (congrArg some he)
    simp [foundBy, hne]
  | subscribed | unsubscribed | enqueued | pruned | responded => rfl

theorem enqueuedBy_other {k : κ} {event : ServiceEvent κ} (h : callOf event ≠ some k) :
    enqueuedBy k [event] = [] := by
  cases event with
  | enqueued k' id outbound sub =>
    have hne : k' ≠ k := fun he => h (congrArg some he)
    simp [enqueuedBy, hne]
  | subscribed | unsubscribed | found | pruned | responded => rfl

theorem FannedOut.other {k : κ} {told : List (ServiceEvent κ)} {progress : EnqueueProgress}
    (h : FannedOut k told progress) {event : Option (ServiceEvent κ)}
    (hcall : event.bind callOf ≠ some k) : FannedOut k (told ++ event.toList) progress := by
  cases event with
  | none => rwa [Option.toList_none, List.append_nil]
  | some event => exact h.append (foundBy_other hcall) (enqueuedBy_other hcall)

variable {owner : ι → String} {runtime : OutboundRuntime} {s t : WebhookService ι κ}
  {told : List (ServiceEvent κ)}

/-- A turn that no call takes part in. -/
theorem Told.uncalled {rows rows' : WebhookSubscriptionRows} {enqueues : κ → EnqueueProgress}
    (h : Told rows enqueues told) (event : Option (ServiceEvent κ))
    (hnone : event.bind callOf = none)
    (hsubs : rows'.values = WebhookService.subscribers (told ++ event.toList)) :
    Told rows' enqueues (told ++ event.toList) where
  subscribers := hsubs
  found := by
    apply h.found.append
    rintro k outbound subs rfl
    cases hnone
  nodup := by
    have hid : event.toList.filterMap enqueuedId = [] := by
      rcases event with _ | (_ | _ | _ | _ | _ | _)
      case some.enqueued => cases hnone
      all_goals rfl
    rw [List.filterMap_append, hid, List.append_nil]
    exact h.nodup
  calls := by
    intro k
    apply (h.calls k).other
    rw [hnone]
    exact fun hk => Option.some_ne_none k hk.symm

theorem Told.post (h : Told s.subscriptions s.enqueues told) (body : Json) (secret : String)
    (generated : Uuid) (now : Timestamp) :
    Told (postWebhooks runtime.toWebhooksRuntime s.subscriptions body secret generated now).2
      s.enqueues (told ++ (eventOf runtime s (.post body secret generated now)).toList) := by
  rcases post_cases runtime s body secret generated now with ⟨hnone,hsame⟩ | ⟨sub,hid,hnew,hevent,hset⟩
  · rw [hnone, hsame, Option.toList_none, List.append_nil]
    exact h
  · rw [hevent, hset]
    apply h.uncalled _ rfl
    rw [Option.toList_some, subscribers_append, ← h.subscribers, InsertionMap.values,
      InsertionMap.entries_set_of_get_none s.subscriptions sub hnew, List.map_append]
    rfl

theorem Told.delete (h : Told s.subscriptions s.enqueues told)
    (hkeys : ∀ id sub, s.subscriptions.get id = some sub → sub.id = id) (id : String) :
    Told (deleteWebhook runtime s.subscriptions s.workers.deliveries id).2.1 s.enqueues
      (told ++ (eventOf runtime s (.delete id)).toList) := by
  rcases delete_cases runtime s id with ⟨hnone,hsame⟩ | ⟨uuid,hevent,hdeleted⟩
  · rw [hnone, hsame, Option.toList_none, List.append_nil]
    exact h
  · rw [hevent, hdeleted]
    have hvalues : (s.subscriptions.delete uuid).values =
        s.subscriptions.values.filter fun sub => sub.id ≠ uuid := by
      rw [InsertionMap.values, InsertionMap.values, InsertionMap.delete, List.filter_map]
      congr 1
      apply List.filter_congr
      intro entry hentry
      have hkey := hkeys entry.1 entry.2 ((InsertionMap.get_eq_some_iff _ _ _).mpr hentry)
      simp only [Function.comp_apply, hkey]
    apply h.uncalled
    · cases s.subscriptions.get uuid <;> rfl
    · rw [hvalues, h.subscribers]
      cases hget : s.subscriptions.get uuid with
      | some sub => exact (subscribers_append told [.unsubscribed uuid]).symm
      | none =>
        -- there was none to take away
        rw [Option.map_none, Option.toList_none, List.append_nil, ← h.subscribers]
        apply List.filter_eq_self.mpr
        intro sub hsub
        obtain ⟨entry,hentry,rfl⟩ := List.mem_map.mp hsub
        have hentry' := (InsertionMap.get_eq_some_iff _ _ _).mpr hentry
        have hkey := hkeys entry.1 entry.2 hentry'
        apply decide_eq_true
        rintro hid
        rw [← hkey, hid, hget] at hentry'
        cases hentry'

theorem servedWith_left {event : OutboundEvent} {ids : List String}
    {subs : List WebhookSubscriptionRow} (h : ids.length = subs.length)
    (rest : List WebhookSubscriptionRow) :
    servedWith event ids (subs ++ rest) = servedWith event ids subs := by
  have happend : servedWith event (ids ++ []) (subs ++ rest) = servedWith event ids subs ++ [] :=
    List.zipWith_append h
  rwa [List.append_nil, List.append_nil] at happend

/-- A call that throws leaves behind what it has stored. -/
theorem FannedOut.threw {k : κ} {event : OutboundEvent} {left : List WebhookSubscriptionRow}
    {stored : List WebhookDelivery} (h : FannedOut k told (.inserting event left stored)) :
    FannedOut k told .threw := by
  obtain ⟨served,hfound,hlength,henqueued⟩ := h
  have hids : (stored.map WebhookDelivery.id).length = served.length := by
    rw [List.length_map, hlength]
  refine Or.inr ⟨event, served ++ left, stored.map WebhookDelivery.id, hfound, ?_, ?_⟩
  · rw [hids, List.length_append]
    exact Nat.le_add_right _ _
  · rw [henqueued, servedWith_left hids]

/-- The next subscription of a call has got its delivery. -/
theorem FannedOut.served {k : κ} {event : OutboundEvent} {sub : WebhookSubscriptionRow}
    {left : List WebhookSubscriptionRow} {stored : List WebhookDelivery}
    (h : FannedOut k told (.inserting event (sub :: left) stored)) (delivery : WebhookDelivery) :
    FannedOut k (told ++ [.enqueued k delivery.id event sub])
      (.inserting event left (stored ++ [delivery])) := by
  obtain ⟨served,hfound,hlength,henqueued⟩ := h
  refine ⟨served ++ [sub], ?_, ?_, ?_⟩
  · rw [foundBy_append, hfound, List.append_assoc]
    rfl
  · rw [List.length_append, List.length_append, hlength]
    rfl
  · have hnew : enqueuedBy k [.enqueued k delivery.id event sub] = [(delivery.id, event, sub)] := by
      simp [enqueuedBy]
    have hids : (stored.map WebhookDelivery.id).length = served.length := by
      rw [List.length_map, hlength]
    calc enqueuedBy k (told ++ [.enqueued k delivery.id event sub])
        = enqueuedBy k told ++ enqueuedBy k [.enqueued k delivery.id event sub] :=
          enqueuedBy_append k told _
      _ = servedWith event (stored.map WebhookDelivery.id) served ++ [(delivery.id, event, sub)] := by
          rw [henqueued, hnew]
      _ = servedWith event ((stored ++ [delivery]).map WebhookDelivery.id) (served ++ [sub]) := by
          rw [servedWith, servedWith, List.map_append, List.zipWith_append hids]
          rfl

/-- A turn of one call leaves the others where they are. -/
theorem Told.setEnqueue {rows : WebhookSubscriptionRows} {enqueues : κ → EnqueueProgress}
    (h : Told rows enqueues told) (k : κ) (progress : EnqueueProgress)
    {event : Option (ServiceEvent κ)} (hcall : ∀ j, j ≠ k → event.bind callOf ≠ some j)
    (hsubs : WebhookService.subscribers (told ++ event.toList) = WebhookService.subscribers told)
    (hfound : FoundCurrent (told ++ event.toList))
    (hnodup : ((told ++ event.toList).filterMap enqueuedId).Nodup)
    (hown : FannedOut k (told ++ event.toList) progress) :
    Told rows (Function.update enqueues k progress) (told ++ event.toList) where
  subscribers := h.subscribers.trans hsubs.symm
  found := hfound
  nodup := hnodup
  calls := by
    intro j
    rw [Function.update_apply]
    split_ifs with hj
    · rwa [hj]
    · exact (h.calls j).other (hcall j hj)

theorem Told.find [DecidableEq ι] (h : Told s.subscriptions s.enqueues told) {k : κ}
    {event : OutboundEvent} {throws : Bool}
    (ht : step owner runtime s (.find k event throws) = some t) :
    Told t.subscriptions t.enqueues
      (told ++ (eventOf runtime s (.find k event throws)).toList) := by
  simp only [step] at ht
  split at ht
  · rename_i hcalled
    obtain rfl := Option.some.inj ht
    have hnone := h.calls k
    rw [hcalled] at hnone
    obtain ⟨hfound,henqueued⟩ := hnone
    cases throws with
    | true =>
      apply h.setEnqueue k .threw
      · exact fun j hj hcall => by cases hcall
      · exact congrArg _ (List.append_nil told)
      · exact h.found.append none fun _ _ _ hnone => by cases hnone
      · exact (List.append_nil told).symm ▸ h.nodup
      · exact (List.append_nil told).symm ▸ Or.inl ⟨hfound, henqueued⟩
    | false =>
      apply h.setEnqueue k
      · exact fun j hj hcall => hj (Option.some.inj hcall).symm
      · exact subscribers_append told [.found k event _]
      · apply h.found.append
        intro k' outbound subs hsome
        obtain ⟨rfl,rfl,rfl⟩ := ServiceEvent.found.inj (Option.some.inj hsome)
        rw [← h.subscribers]
        rfl
      · rw [List.filterMap_append]
        exact (List.append_nil _).symm ▸ h.nodup
      · refine ⟨[], ?_, rfl, ?_⟩
        · rw [foundBy_append, hfound]
          simp [foundBy, eventOf]
        · rw [enqueuedBy_append, henqueued]
          rfl
  · cases ht

theorem Told.insert [DecidableEq ι] (h : Told s.subscriptions s.enqueues told) {k : κ}
    {generated : Uuid} {now : Timestamp} {outcome : UpdateOutcome}
    (hfresh : generated.text ∉ told.filterMap enqueuedId)
    (ht : step owner runtime s (.insert k generated now outcome) = some t) :
    Told t.subscriptions t.enqueues
      (told ++ (eventOf runtime s (.insert k generated now outcome)).toList) := by
  obtain ⟨event,sub,left,stored,hk,hcases⟩ := insert_cases ht
  have hcall := h.calls k
  rw [hk] at hcall
  rcases hcases with ⟨hnone,_,rfl⟩ | ⟨delivery,deliveries,hcreated,hevent,rfl⟩
  · rw [hnone]
    apply h.setEnqueue k .threw
    · exact fun j hj hcall => by cases hcall
    · exact congrArg _ (List.append_nil told)
    · exact h.found.append none fun _ _ _ hnone => by cases hnone
    · exact (List.append_nil told).symm ▸ h.nodup
    · exact (List.append_nil told).symm ▸ hcall.threw
  · rw [hevent]
    have hid : delivery.id = generated.text := by
      obtain ⟨rfl,_⟩ := createDelivery_eq_some hcreated
      rfl
    apply h.setEnqueue k
    · exact fun j hj hcall => hj (Option.some.inj hcall).symm
    · exact subscribers_append told [.enqueued k delivery.id event sub]
    · exact h.found.append _ fun _ _ _ hsome => by cases hsome
    · rw [Option.toList_some, List.filterMap_append]
      apply List.nodup_append.mpr
      refine ⟨h.nodup, List.nodup_singleton _, ?_⟩
      intro id hold other hother he
      obtain rfl : other = delivery.id := List.mem_singleton.mp hother
      exact hfresh (hid ▸ he ▸ hold)
    · split_ifs
      · exact hcall.served delivery
      · exact (hcall.served delivery).threw

theorem Told.step [DecidableEq ι] (h : Told s.subscriptions s.enqueues told)
    (hkeys : ∀ id sub, s.subscriptions.get id = some sub → sub.id = id) {a : ServiceAction ι κ}
    (hfresh : FreshIds (s, told) a) (ht : WebhookService.step owner runtime s a = some t) :
    Told t.subscriptions t.enqueues (told ++ (eventOf runtime s a).toList) := by
  cases a with
  | worker a =>
    obtain ⟨workers,_,rfl⟩ := Option.map_eq_some_iff.mp ht
    apply h.uncalled
    · cases a <;> rfl
    · rw [subscribers_append, ← h.subscribers]
      cases a <;> rfl
  | post body secret generated now =>
    obtain rfl := Option.some.inj ht
    exact h.post body secret generated now
  | delete id =>
    obtain rfl := Option.some.inj ht
    exact h.delete hkeys id
  | prune olderThanDays =>
    obtain rfl := Option.some.inj ht
    apply h.uncalled _ rfl
    rw [subscribers_append]
    exact h.subscribers
  | find k event throws => exact h.find ht
  | insert k generated now outcome => exact h.insert hfresh ht

theorem told_start (now : Date) (available : Bool) :
    Told (start now available : WebhookService ι κ).subscriptions
      (start now available : WebhookService ι κ).enqueues [] where
  subscribers := rfl
  found before k event subs after hsplit := absurd hsplit.symm (by simp)
  nodup := List.nodup_nil
  calls _ := ⟨rfl, rfl⟩

theorem told_of_reaches [DecidableEq ι] {now : Date} {available : Bool}
    (h : ReachesWhile (tellingStep owner runtime) FreshIds (start now available, []) (s, told)) :
    Told s.subscriptions s.enqueues told := by
  have htold := h.invariant
    (fun told => Sound runtime told.1 told.2 ∧ Told told.1.subscriptions told.1.enqueues told.2) ?_
    ⟨sound_start now available, told_start now available⟩
  · exact htold.2
  · rintro ⟨before,told⟩ a ⟨after,told'⟩ ⟨hsound,hbefore⟩ hfresh hafter
    obtain ⟨hstep,rfl⟩ := recording_eq_some.mp hafter
    exact ⟨hsound.step hfresh hstep,
      hbefore.step (fun id sub hget => (hsound.subscriptions id sub hget).1) hfresh hstep⟩

theorem mem_of_foundBy {k : κ} {event : OutboundEvent} {subs : List WebhookSubscriptionRow}
    (h : (event, subs) ∈ foundBy k told) : .found k event subs ∈ told := by
  obtain ⟨story,hstory,hsome⟩ := List.mem_filterMap.mp h
  cases story with
  | found k' event' subs' =>
    dsimp only at hsome
    split_ifs at hsome with hk
    obtain ⟨rfl,rfl⟩ := Prod.mk.inj (Option.some.inj hsome)
    exact hk ▸ hstory
  | subscribed | unsubscribed | enqueued | pruned | responded => cases hsome

theorem mem_of_enqueuedBy {k : κ} {id : String} {event : OutboundEvent}
    {sub : WebhookSubscriptionRow} (h : (id, event, sub) ∈ enqueuedBy k told) :
    .enqueued k id event sub ∈ told := by
  obtain ⟨story,hstory,hsome⟩ := List.mem_filterMap.mp h
  cases story with
  | enqueued k' id' event' sub' =>
    dsimp only at hsome
    split_ifs at hsome with hk
    obtain ⟨rfl,rfl,rfl⟩ : id' = id ∧ event' = event ∧ sub' = sub := by
      simpa using Option.some.inj hsome
    exact hk ▸ hstory
  | subscribed | unsubscribed | found | pruned | responded => cases hsome

/-- A call that has found its subscriptions has stored one delivery for each of the
first of them, and for all of them once it returns. -/
theorem FannedOut.served_of_found {k : κ} {progress : EnqueueProgress}
    (h : FannedOut k told progress) :
    (foundBy k told = [] ∧ enqueuedBy k told = []) ∨
      ∃ event subs ids, foundBy k told = [(event, subs)] ∧ ids.length ≤ subs.length ∧
        enqueuedBy k told = servedWith event ids subs ∧
        ∀ event' stored, progress = .inserting event' [] stored →
          ids = stored.map WebhookDelivery.id ∧ ids.length = subs.length := by
  cases progress with
  | called => exact Or.inl h
  | inserting event left stored =>
    obtain ⟨served,hfound,hlength,henqueued⟩ := h
    have hids : (stored.map WebhookDelivery.id).length = served.length := by
      rw [List.length_map, hlength]
    refine Or.inr ⟨event, served ++ left, stored.map WebhookDelivery.id, hfound, ?_, ?_, ?_⟩
    · rw [hids, List.length_append]
      exact Nat.le_add_right _ _
    · rw [henqueued, servedWith_left hids]
    · intro event' stored' hreturned
      obtain ⟨_,rfl,rfl⟩ := EnqueueProgress.inserting.inj hreturned
      rw [List.append_nil]
      exact ⟨rfl, hids⟩
  | threw =>
    rcases h with hnone | ⟨event,subs,ids,hfound,hlength,henqueued⟩
    · exact Or.inl hnone
    · exact Or.inr ⟨event, subs, ids, hfound, hlength, henqueued, fun _ _ hthrew => by cases hthrew⟩

/-- Every call of `enqueue` stores deliveries for the subscriptions that are there and ask
for its event when it looks for them: one each, in their order. It stores all of them if it
returns, and the first ones if it throws or is under way. Their ids are all different because
those that the database draws are, which `FreshIds` assumes. -/
theorem enqueue_fans_out [DecidableEq ι] {now : Date} {available : Bool}
    (h : ReachesWhile (tellingStep owner runtime) FreshIds (start now available, []) (s, told))
    (k : κ) :
    (told.filterMap enqueuedId).Nodup ∧
      ((foundBy k told = [] ∧ enqueuedBy k told = []) ∨
        ∃ before event subs after ids, told = before ++ .found k event subs :: after ∧
          subs = asking event.eventType (subscribers before) ∧ ids.length ≤ subs.length ∧
          enqueuedBy k told = servedWith event ids subs ∧
          ∀ event' stored, s.enqueues k = .inserting event' [] stored →
            ids = stored.map WebhookDelivery.id ∧ ids.length = subs.length) := by
  have htold := told_of_reaches h
  refine ⟨htold.nodup, ?_⟩
  rcases (htold.calls k).served_of_found with hnone | ⟨event,subs,ids,hfound,hserved⟩
  · exact Or.inl hnone
  · have hmem : .found k event subs ∈ told := mem_of_foundBy (hfound ▸ List.mem_singleton_self _)
    obtain ⟨before,after,hsplit⟩ := List.append_of_mem hmem
    exact Or.inr ⟨before, event, subs, after, ids, hsplit,
      htold.found before k event subs after hsplit, hserved⟩

def pausedHookId : Uuid := ⟨"00000000-0000-4000-8000-00000000000a", by decide⟩

def allHookId : Uuid := ⟨"00000000-0000-4000-8000-00000000000b", by decide⟩

/-- Of three subscriptions two ask for the event, the last one because it asks for all. -/
def fanOutTurns : List (ServiceAction Unit Unit) :=
  [.post (hookBody [.string "settled"]) "secret" hookId 0,
    .post (hookBody [.string "paused"]) "secret" pausedHookId 1,
    .post (hookBody []) "secret" allHookId 2, .find () settledEvent false,
    .insert () hookId 3 .returns, .insert () allHookId 4 .returns]

theorem enqueue_fans_out_to_two : ∃ told : List (ServiceEvent Unit),
    (enqueuedBy () told).map (fun served => (served.1, served.2.2.id)) =
        [(hookId.text, hookId), (allHookId.text, allHookId)] ∧
      ∃ before event subs after ids, told = before ++ .found () event subs :: after ∧
        subs = asking event.eventType (subscribers before) ∧
        enqueuedBy () told = servedWith event ids subs := by
  let step := @tellingStep Unit Unit _ _ (fun _ => "worker") serviceRuntime
  have hrun : (execWhile step FreshIds (start 0 true, []) fanOutTurns).map (fun s =>
      (enqueuedBy () s.2).map fun served => (served.1, served.2.2.id)) =
      some [(hookId.text, hookId), (allHookId.text, allHookId)] := by decide +kernel
  obtain ⟨s,hs,hserved⟩ := Option.map_eq_some_iff.mp hrun
  refine ⟨s.2, hserved, ?_⟩
  rcases (enqueue_fans_out (reachesWhile_of_execWhile _ hs) ()).2 with
    ⟨_,hnone⟩ | ⟨before,event,subs,after,ids,hsplit,hasking,_,hall,_⟩
  · rw [hnone] at hserved
    cases hserved
  · exact ⟨before, event, subs, after, ids, hsplit, hasking, hall⟩

end WebhookService

end StreamPay
