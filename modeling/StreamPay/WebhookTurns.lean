import StreamPay.DeliveryAttempts

/-! What one turn of the webhook workers can do to the attempts, to the rows and
to the requests: each invariant of the workers is derived from this. -/
namespace StreamPay
open Interleaving WebhookRepository
namespace WebhookSystem
variable {ι : Type*} {s t : WebhookSystem ι}

/-- How an attempt goes on in a turn. -/
inductive AttemptStep (s : WebhookSystem ι) (i : ι) (id : String) :
    WebhookAction ι → Attempt → AttemptProgress → Prop
  | findThrows (delivery : WebhookDelivery) :
      AttemptStep s i id (.findSubscription i id true) ⟨delivery, .started⟩ .finished
  | found (delivery : WebhookDelivery) (sub : WebhookSubscription) :
      findSubscriptionById s.subscriptions delivery.subscriptionId = some sub →
      AttemptStep s i id (.findSubscription i id false) ⟨delivery, .started⟩ (.subscribed sub)
  | missing (delivery : WebhookDelivery) :
      findSubscriptionById s.subscriptions delivery.subscriptionId = none →
      AttemptStep s i id (.findSubscription i id false) ⟨delivery, .started⟩ .unsubscribed
  | sent (delivery : WebhookDelivery) (sub : WebhookSubscription) :
      AttemptStep s i id (.send i id) ⟨delivery, .subscribed sub⟩ .requested
  | received (delivery : WebhookDelivery) (outcome : FetchOutcome) :
      AttemptStep s i id (.receive i id outcome) ⟨delivery, .requested⟩ (outcomeProgress outcome)
  | recorded (attempt : Attempt) (patch : WebhookDeliveryPatch) :
      attempt.patch s.now = some patch →
      AttemptStep s i id (.record i id none) attempt .finished
  | recordThrows (attempt : Attempt) (patch : WebhookDeliveryPatch) (message : String) :
      attempt.patch s.now = some patch →
      AttemptStep s i id (.record i id (some message)) attempt (attempt.afterThrow message)

variable [DecidableEq ι] {owner : ι → String} {runtime : WebhookRuntime}

/-- The turns of the workers, one by one, with what each of them needs. -/
inductive Move (owner : ι → String) (runtime : WebhookRuntime) (s : WebhookSystem ι) :
    WebhookAction ι → WebhookSystem ι → Prop
  | tick (elapsed : ℕ) : Move owner runtime s (.tick elapsed) { s with now := s.now+elapsed }
  | poll (i : ι) (ids : List String) : s.processes i = .called →
      IsDueBatch s.deliveries s.now ids →
      Move owner runtime s (.poll i (some ids))
        (s.setProcess i (.polled (dueRows s.deliveries ids)))
  | pollThrows (i : ι) : s.processes i = .called →
      Move owner runtime s (.poll i none) (s.setProcess i .failed)
  | lease (i : ι) (due : List WebhookDelivery) : s.processes i = .polled due →
      Move owner runtime s (.lease i) (afterLease owner s i due)
  | advance {a : WebhookAction ι} (i : ι) (id : String) (attempt : Attempt)
      (progress : AttemptProgress) : s.attempt i id = some attempt →
      AttemptStep s i id a attempt progress → a ≠ .send i id → a ≠ .record i id none →
      Move owner runtime s a (s.setAttempt i id (some ⟨attempt.delivery, progress⟩))
  | send (i : ι) (id : String) (delivery : WebhookDelivery) (sub : WebhookSubscription) :
      s.attempt i id = some ⟨delivery, .subscribed sub⟩ →
      Move owner runtime s (.send i id)
        { s.setAttempt i id (some ⟨delivery, .requested⟩) with
          requests := s.requests ++ [(delivery.id, webhookRequest runtime sub delivery)] }
  | record (i : ι) (id : String) (attempt : Attempt) (patch : WebhookDeliveryPatch) :
      s.attempt i id = some attempt → attempt.patch s.now = some patch →
      Move owner runtime s (.record i id none)
        { s.setAttempt i id (some ⟨attempt.delivery, .finished⟩) with
          deliveries := updateDelivery s.deliveries s.now attempt.delivery.id patch }
  | release (i : ι) (id : String) (delivery : WebhookDelivery) :
      s.attempt i id = some ⟨delivery, .finished⟩ →
      Move owner runtime s (.release i id)
        { s.setAttempt i id none with lease := s.lease.release delivery.id (owner i) }

theorem move_of_step {a : WebhookAction ι} (h : step owner runtime s a = some t) :
    Move owner runtime s a t := by
  cases a with
  | tick elapsed =>
    obtain rfl := Option.some.inj h
    exact .tick elapsed
  | poll i ids =>
    simp only [step] at h
    split at h
    · split_ifs at h with hbatch
      obtain rfl := Option.some.inj h
      exact .poll i _ ‹_› hbatch
    · obtain rfl := Option.some.inj h
      exact .pollThrows i ‹_›
    · cases h
  | lease i =>
    simp only [step] at h
    split at h
    · obtain rfl := Option.some.inj h
      exact .lease i _ ‹_›
    · cases h
  | findSubscription i id throws =>
    simp only [step] at h
    split at h
    · rename_i delivery hattempt
      obtain rfl := Option.some.inj h
      apply Move.advance i id ⟨delivery, .started⟩ _ hattempt
      · cases throws with
        | true => exact .findThrows delivery
        | false =>
          simp only [Bool.false_eq_true, if_false]
          cases hfind : findSubscriptionById s.subscriptions delivery.subscriptionId with
          | none => exact .missing delivery hfind
          | some sub => exact .found delivery sub hfind
      · simp
      · simp
    · cases h
  | send i id =>
    simp only [step] at h
    split at h
    · obtain rfl := Option.some.inj h
      exact .send i id _ _ ‹_›
    · cases h
  | receive i id outcome =>
    simp only [step] at h
    split at h
    · rename_i delivery hattempt
      obtain rfl := Option.some.inj h
      exact .advance i id _ _ hattempt (.received delivery outcome) (by simp) (by simp)
    · cases h
  | record i id thrown =>
    simp only [step] at h
    split at h
    · rename_i attempt hattempt
      split at h
      · obtain rfl := Option.some.inj h
        exact .record i id attempt _ hattempt ‹_›
      · obtain rfl := Option.some.inj h
        exact .advance i id attempt _ hattempt (.recordThrows attempt _ _ ‹_›) (by simp) (by simp)
      · cases h
    · cases h
  | release i id =>
    simp only [step] at h
    split at h
    · obtain rfl := Option.some.inj h
      exact .release i id _ ‹_›
    · cases h

theorem attempt_of_setAttempt {i j : ι} {id id' : String} {attempt' : Option Attempt}
    {now : Attempt} (hnow : (s.setAttempt i id attempt').attempt j id' = some now) :
    (j = i ∧ id' = id ∧ attempt' = some now) ∨ s.attempt j id' = some now := by
  rw [attempt_setAttempt] at hnow
  split_ifs at hnow with hsame
  · exact Or.inl ⟨hsame.1, hsame.2, hnow⟩
  · exact Or.inr hnow

/-- An attempt was there before the turn, has gone on in it, or has been started in it. -/
theorem attempt_of_step {a : WebhookAction ι} (ht : step owner runtime s a = some t) {i : ι}
    {id : String} {now : Attempt} (hnow : t.attempt i id = some now) :
    s.attempt i id = some now ∨
      (∃ before, s.attempt i id = some before ∧ before.delivery = now.delivery ∧
        AttemptStep s i id a before now.progress) ∨
      (a = .lease i ∧ now.progress = .started ∧ now.delivery.id = id ∧
        now.delivery ∈ (s.processes i).due ∧ s.lease.has id = false) := by
  -- the attempt that the turn is about has gone on as the turn says
  have hadvance {j : ι} {id' : String} {attempt : Attempt} {progress : AttemptProgress}
      (hattempt : s.attempt j id' = some attempt) (hstep : AttemptStep s j id' a attempt progress)
      (hset : (s.setAttempt j id' (some ⟨attempt.delivery, progress⟩)).attempt i id = some now) :
      s.attempt i id = some now ∨ ∃ before, s.attempt i id = some before ∧
        before.delivery = now.delivery ∧ AttemptStep s i id a before now.progress := by
    rcases attempt_of_setAttempt hset with ⟨rfl,rfl,hsome⟩ | hold
    · obtain rfl := Option.some.inj hsome
      exact Or.inr ⟨attempt, hattempt, rfl, hstep⟩
    · exact Or.inl hold
  have hidle {j : ι} {process : ProcessDue} (hnone : ∀ id, process.attempts id = none)
      (hset : (s.setProcess j process).attempt i id = some now) : s.attempt i id = some now := by
    rw [attempt_setProcess] at hset
    split_ifs at hset
    · rw [hnone id] at hset
      cases hset
    · exact hset
  rw [← or_assoc]
  cases move_of_step ht with
  | tick elapsed => exact Or.inl (Or.inl hnow)
  | poll j ids _ _ => exact Or.inl (Or.inl (hidle (fun _ => rfl) hnow))
  | pollThrows j _ => exact Or.inl (Or.inl (hidle (fun _ => rfl) hnow))
  | lease j due hpolled =>
    rcases attempt_afterLease hnow with ⟨rfl,hstarted,hid,hdue,hfree,_⟩ | ⟨_,hold⟩
    · refine Or.inr ⟨rfl, hstarted, hid, ?_, hfree⟩
      rw [hpolled]
      exact hdue
    · exact Or.inl (Or.inl hold)
  | advance j id' attempt progress hattempt hstep _ _ =>
    exact Or.inl (hadvance hattempt hstep hnow)
  | send j id' delivery sub hattempt => exact Or.inl (hadvance hattempt (.sent delivery sub) hnow)
  | record j id' attempt patch hattempt hpatch =>
    exact Or.inl (hadvance hattempt (.recorded attempt patch hpatch) hnow)
  | release j id' delivery hattempt =>
    rcases attempt_of_setAttempt hnow with ⟨_,_,hnone⟩ | hold
    · cases hnone
    · exact Or.inl (Or.inl hold)

theorem mem_dueRows {deliveries : WebhookDeliveries} {ids : List String} {delivery : WebhookDelivery}
    (h : delivery ∈ dueRows deliveries ids) :
    ∃ id ∈ ids, deliveries.get id = some delivery := List.mem_filterMap.mp h

theorem mem_due_setProcess {i j : ι} {process : ProcessDue} {delivery : WebhookDelivery}
    (h : delivery ∈ ((s.setProcess j process).processes i).due) :
    delivery ∈ process.due ∨ delivery ∈ (s.processes i).due := by
  simp only [setProcess, Function.update_apply] at h
  split_ifs at h
  · exact Or.inl h
  · exact Or.inr h

/-- A delivery that is to be leased has been polled, as a due row of the table. -/
theorem due_of_step {a : WebhookAction ι} (ht : step owner runtime s a = some t) {i : ι}
    {delivery : WebhookDelivery} (hdue : delivery ∈ (t.processes i).due) :
    delivery ∈ (s.processes i).due ∨
      ∃ id, s.deliveries.get id = some delivery ∧ isDue s.now delivery = true := by
  cases move_of_step ht with
  | tick elapsed => exact Or.inl hdue
  | poll j ids hcalled hbatch =>
    rcases mem_due_setProcess hdue with hnew | hold
    · obtain ⟨id,hid,hget⟩ := mem_dueRows hnew
      have hany := hbatch.2.2.1 id hid
      rw [hget] at hany
      exact Or.inr ⟨id, hget, hany⟩
    · exact Or.inl hold
  | pollThrows j _ =>
    rcases mem_due_setProcess hdue with hnew | hold
    · cases hnew
    · exact Or.inl hold
  | lease j due _ =>
    rcases mem_due_setProcess hdue with hnew | hold
    · cases hnew
    · exact Or.inl hold
  | advance j id attempt progress _ _ _ _ => exact Or.inl (due_setAttempt j i id _ delivery hdue)
  | send j id delivery' sub _ => exact Or.inl (due_setAttempt j i id _ delivery hdue)
  | record j id attempt patch _ _ => exact Or.inl (due_setAttempt j i id _ delivery hdue)
  | release j id delivery' _ => exact Or.inl (due_setAttempt j i id _ delivery hdue)

theorem get_updateDelivery (deliveries : WebhookDeliveries) (now : Date) (id other : String)
    (patch : WebhookDeliveryPatch) : (updateDelivery deliveries now id patch).get other =
      if other = id then (deliveries.get other).map (patch.apply now)
      else deliveries.get other := by
  rw [updateDelivery, InsertionMap.get_modify]
  split_ifs with hid
  · rw [hid]
  · rfl

/-- A row is changed only by the record of an attempt on it. -/
theorem get_of_step {a : WebhookAction ι} (ht : step owner runtime s a = some t) (id : String) :
    t.deliveries.get id = s.deliveries.get id ∨
      ∃ i id' attempt patch, a = .record i id' none ∧ s.attempt i id' = some attempt ∧
        attempt.patch s.now = some patch ∧ attempt.delivery.id = id ∧
        t.deliveries.get id = (s.deliveries.get id).map (patch.apply s.now) := by
  cases move_of_step ht with
  | record i id' attempt patch hattempt hpatch =>
    have hget := get_updateDelivery s.deliveries s.now attempt.delivery.id id patch
    by_cases hid : id = attempt.delivery.id
    · rw [if_pos hid] at hget
      exact Or.inr ⟨i, id', attempt, patch, rfl, hattempt, hpatch, hid.symm, hget⟩
    · rw [if_neg hid] at hget
      exact Or.inl hget
  | tick | poll | pollThrows | lease | advance | send | release => exact Or.inl rfl

/-- A request is sent by an attempt that has found its subscription. -/
theorem requests_of_step {a : WebhookAction ι} (ht : step owner runtime s a = some t) :
    ((∀ i id, a ≠ .send i id) ∧ t.requests = s.requests) ∨
      ∃ i id delivery sub, a = .send i id ∧ s.attempt i id = some ⟨delivery, .subscribed sub⟩ ∧
        t.attempt i id = some ⟨delivery, .requested⟩ ∧
        t.requests = s.requests ++ [(delivery.id, webhookRequest runtime sub delivery)] := by
  cases move_of_step ht with
  | send i id delivery sub hattempt =>
    refine Or.inr ⟨i, id, delivery, sub, rfl, hattempt, ?_, rfl⟩
    change (s.setAttempt i id _).attempt i id = _
    rw [attempt_setAttempt, if_pos ⟨rfl, rfl⟩]
  | advance i id attempt progress hattempt hstep hsend _ =>
    refine Or.inl ⟨?_, rfl⟩
    cases hstep with
    | sent => exact absurd rfl hsend
    | findThrows | found | missing | received | recorded | recordThrows => simp
  | tick | poll | pollThrows | lease | record | release => exact Or.inl ⟨by simp, rfl⟩

end WebhookSystem

end StreamPay
