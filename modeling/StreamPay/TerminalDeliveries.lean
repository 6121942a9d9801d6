import StreamPay.WebhookWorkers

/-! Deliveries that have succeeded or failed for good, over every interleaving
of the workers: when they stay so, and how a stale poll reopens them. -/
namespace StreamPay
open Interleaving WebhookRepository

namespace WebhookSystem
variable {ι : Type*}

def requestsFor (s : WebhookSystem ι) (id : String) : List (String × WebhookRequest) :=
  s.requests.filter fun request => request.1 = id

def statusOf (s : WebhookSystem ι) (id : String) : Option WebhookDeliveryStatus :=
  (s.deliveries.get id).map WebhookDelivery.status

/-- A process about to lease its batch finds every delivery it can get as
pending as when it polled. -/
def LeasesPending (s : WebhookSystem ι) : WebhookAction ι → Prop
  | .lease i => ∀ delivery ∈ (s.processes i).due, s.lease.has delivery.id = false →
      s.statusOf delivery.id = some .pending
  | _ => True

instance (s : WebhookSystem ι) : ∀ a, Decidable (s.LeasesPending a)
  | .lease i => inferInstanceAs (Decidable (∀ delivery ∈ (s.processes i).due,
      s.lease.has delivery.id = false → s.statusOf delivery.id = some .pending))
  | .tick _ | .poll _ _ | .findSubscription _ _ _ | .send _ _ | .receive _ _ _ | .record _ _ _
  | .release _ _ => inferInstanceAs (Decidable True)

/-- An attempt holds the lease of its delivery, alone, and until it is finished
the row is pending. -/
structure Inv (owner : ι → String) (s : WebhookSystem ι) : Prop where
  held : ∀ i id attempt, s.attempt i id = some attempt →
    attempt.delivery.id = id ∧ s.lease.owners.get id = some (owner i)
  alone : ∀ i j id attempt attempt', s.attempt i id = some attempt →
    s.attempt j id = some attempt' → i = j
  pending : ∀ i id attempt, s.attempt i id = some attempt → attempt.progress ≠ .finished →
    s.statusOf id = some .pending

theorem inv_start (owner : ι → String) (now : Date) (subscriptions : WebhookSubscriptions)
    (deliveries : WebhookDeliveries) (available : Bool) :
    Inv owner (start now subscriptions deliveries available) where
  held _ _ _ h := nomatch h
  alone _ _ _ _ _ h _ := nomatch h
  pending _ _ _ h _ := nomatch h

def Settled (s : WebhookSystem ι) (id : String) (status : WebhookDeliveryStatus)
    (sent : List (String × WebhookRequest)) : Prop :=
  s.statusOf id = some status ∧ s.requestsFor id = sent

theorem get_updateDelivery_of_ne (deliveries : WebhookDeliveries) (now : Date) {id other : String}
    (patch : WebhookDeliveryPatch) (h : id ≠ other) :
    (updateDelivery deliveries now other patch).get id = deliveries.get id := by
  rw [updateDelivery, InsertionMap.get_modify, if_neg h]

section
variable {owner : ι → String} {s t : WebhookSystem ι}

theorem Inv.congr (h : Inv owner s) (hattempt : t.attempt = s.attempt) (hlease : t.lease = s.lease)
    (hdeliveries : t.deliveries = s.deliveries) : Inv owner t := by
  constructor
  · rw [hattempt, hlease]
    exact h.held
  · rw [hattempt]
    exact h.alone
  · unfold statusOf
    rw [hattempt, hdeliveries]
    exact h.pending

theorem Inv.leased (h : Inv owner s) : Leased owner s := ⟨h.held, h.alone⟩

end

variable [DecidableEq ι] {owner : ι → String} {runtime : WebhookRuntime} {s t : WebhookSystem ι}

theorem Inv.setAttempt (h : Inv owner s) {i : ι} {id : String} {attempt : Attempt}
    (hattempt : s.attempt i id = some attempt) (hopen : attempt.progress ≠ .finished)
    (progress : AttemptProgress) :
    Inv owner (s.setAttempt i id (some ⟨attempt.delivery, progress⟩)) where
  held := (h.leased.setAttempt hattempt progress).held
  alone := (h.leased.setAttempt hattempt progress).alone
  pending j id' now hnow hunfinished := by
    rw [attempt_setAttempt] at hnow
    split_ifs at hnow with hsame
    · obtain ⟨rfl,rfl⟩ := hsame
      exact h.pending j id' attempt hattempt hopen
    · exact h.pending j id' now hnow hunfinished

/-- Writing the outcome of an attempt finishes it, so its row may be final. -/
theorem Inv.record (h : Inv owner s) {i : ι} {id : String} {attempt : Attempt}
    (hattempt : s.attempt i id = some attempt) (patch : WebhookDeliveryPatch) :
    Inv owner { s.setAttempt i id (some ⟨attempt.delivery, .finished⟩) with
      deliveries := updateDelivery s.deliveries s.now attempt.delivery.id patch } where
  held := (h.leased.setAttempt hattempt .finished).held
  alone := (h.leased.setAttempt hattempt .finished).alone
  pending j id' now hnow hunfinished := by
    change (s.setAttempt i id _).attempt j id' = some now at hnow
    rw [attempt_setAttempt] at hnow
    split_ifs at hnow with hsame
    · obtain rfl := Option.some.inj hnow
      exact absurd rfl hunfinished
    · -- the others hold other leases, so the update is of another row
      have hid : id' ≠ attempt.delivery.id := by
        rw [(h.held i id attempt hattempt).1]
        exact h.leased.ne_of_other hattempt hnow hsame
      rw [statusOf, get_updateDelivery_of_ne _ _ _ hid]
      exact h.pending j id' now hnow hunfinished

theorem Inv.release (h : Inv owner s) {i : ι} {id : String} {delivery : WebhookDelivery}
    (hattempt : s.attempt i id = some ⟨delivery, .finished⟩) :
    Inv owner { s.setAttempt i id none with
      lease := s.lease.release delivery.id (owner i) } where
  held := (h.leased.release hattempt).held
  alone := (h.leased.release hattempt).alone
  pending j id' now hnow hunfinished :=
    h.pending j id' now (h.leased.attempt_released hattempt hnow).1 hunfinished

/-- New attempts get free leases only, of rows that are pending. -/
theorem Inv.lease (h : Inv owner s) {i : ι} {due : List WebhookDelivery}
    (hpolled : s.processes i = .polled due) (hpending : s.LeasesPending (.lease i)) :
    Inv owner (afterLease owner s i due) where
  held := (h.leased.lease i due).held
  alone := (h.leased.lease i due).alone
  pending j id now hnow hunfinished := by
    rcases attempt_afterLease hnow with ⟨_,_,rfl,hdue,hfree,_⟩ | ⟨_,hold⟩
    · -- the only place where the row itself has to be looked at again
      refine hpending now.delivery ?_ hfree
      rw [hpolled]
      exact hdue
    · exact h.pending j id now hold hunfinished

theorem Inv.turn (h : Inv owner s) {a : WebhookAction ι} (hpending : s.LeasesPending a)
    (hturn : Turn owner s a t) : Inv owner t := by
  cases hturn with
  | idle hattempt hlease hdeliveries _ => exact h.congr hattempt hlease hdeliveries
  | lease i due hpolled => exact h.lease hpolled hpending
  | advance i id attempt progress hattempt hopen => exact h.setAttempt hattempt hopen progress
  | send i id attempt progress request hattempt hopen =>
    exact (h.setAttempt hattempt hopen progress).congr rfl rfl rfl
  | record i id attempt patch hattempt hopen => exact h.record hattempt patch
  | release i id delivery hattempt => exact h.release hattempt

/-- No turn touches a settled delivery or sends another request for it. -/
theorem Settled.turn (hI : Inv owner s) {id : String} {status : WebhookDeliveryStatus}
    {sent : List (String × WebhookRequest)} (h : s.Settled id status sent)
    (hfinal : status ≠ .pending) {a : WebhookAction ι} (hturn : Turn owner s a t) :
    t.Settled id status sent := by
  -- an attempt that can still send or record is on a pending row
  have hother (i : ι) (id' : String) (attempt : Attempt) (hattempt : s.attempt i id' = some attempt)
      (hopen : attempt.progress ≠ .finished) : id ≠ attempt.delivery.id := by
    rw [(hI.held i id' attempt hattempt).1]
    rintro rfl
    exact hfinal (Option.some.inj (h.1.symm.trans (hI.pending i id attempt hattempt hopen)))
  cases hturn with
  | idle _ _ hdeliveries hrequests =>
    unfold Settled statusOf requestsFor
    rw [hdeliveries, hrequests]
    exact h
  | lease i due hpolled => exact h
  | advance i id' attempt progress hattempt hopen => exact h
  | send i id' attempt progress request hattempt hopen =>
    refine ⟨h.1, ?_⟩
    have hne : attempt.delivery.id ≠ id := (hother i id' attempt hattempt hopen).symm
    change (s.requests ++ [(attempt.delivery.id, request)]).filter _ = sent
    rw [List.filter_append, List.filter_cons_of_neg (by simpa using hne), List.filter_nil,
      List.append_nil]
    exact h.2
  | record i id' attempt patch hattempt hopen =>
    refine ⟨?_, h.2⟩
    rw [statusOf, get_updateDelivery_of_ne _ _ _ (hother i id' attempt hattempt hopen)]
    exact h.1
  | release i id' delivery hattempt => exact h

/-- In every interleaving in which leases are only ever taken of rows that are
still pending, a delivery that has succeeded or failed for good keeps its
status and is never sent again. -/
theorem terminal_delivery_final {now : Date} {subscriptions : WebhookSubscriptions}
    {deliveries : WebhookDeliveries} {available : Bool}
    (hs : ReachesWhile (step owner runtime) LeasesPending
      (start now subscriptions deliveries available) s)
    (ht : ReachesWhile (step owner runtime) LeasesPending s t)
    {id : String} {status : WebhookDeliveryStatus} (hstatus : s.statusOf id = some status)
    (hfinal : status ≠ .pending) :
    t.statusOf id = some status ∧ t.requestsFor id = s.requestsFor id := by
  have hI : Inv owner s := hs.invariant (Inv owner)
    (fun _ _ _ hI hC hstep => hI.turn hC (turn_of_step hstep))
    (inv_start owner now subscriptions deliveries available)
  have hrun : Inv owner t ∧ t.Settled id status (s.requestsFor id) :=
    ht.invariant (fun u => Inv owner u ∧ u.Settled id status (s.requestsFor id))
      (fun _ _ _ hu hC hstep => ⟨hu.1.turn hC (turn_of_step hstep),
        hu.2.turn hu.1 hfinal (turn_of_step hstep)⟩)
      ⟨hI, hstatus, rfl⟩
  exact hrun.2

def sampleDelivery : WebhookDelivery where
  id := "delivery-1"
  subscriptionId := "sub-1"
  eventType := "settled"
  payload := "\x7b\x7d"
  status := .pending
  attempts := 0
  nextAttemptAt := some 0
  lastHttpStatus := none
  lastError := none
  updatedAt := 0

/-- The digest of the sample payload under `subscriber-secret`. -/
def sampleWebhookRuntime : WebhookRuntime where
  hmacHex _ _ := "87bd5df60f6fcdc70cee9a34b170eaa47c9254da60331486b3e1cf0b540879ec"
  parseJson _ := some (.object [])
  correlationId := none

def sampleOwner (i : Fin 2) : String := if i = 0 then "worker-a" else "worker-b"

def sampleStart : WebhookSystem (Fin 2) :=
  start 0 (.set .empty "sub-1" ⟨"sub-1", "https://subscriber.example/hook", "subscriber-secret"⟩)
    (.set .empty "delivery-1" sampleDelivery) true

def attemptActions (i : Fin 2) (outcome : FetchOutcome) : List (WebhookAction (Fin 2)) :=
  [.lease i, .findSubscription i "delivery-1" false, .send i "delivery-1",
    .receive i "delivery-1" outcome, .record i "delivery-1" none]

def sampleOutcome (s : WebhookSystem (Fin 2)) : Option WebhookDeliveryStatus × ℕ :=
  (s.statusOf "delivery-1", (s.requestsFor "delivery-1").length)

/-- A success stays one after its lease is released and the next process has
polled: nothing is due any more. -/
theorem terminal_delivery_final_sent_once :
    ∃ t, ReachesWhile (step sampleOwner sampleWebhookRuntime) LeasesPending sampleStart t ∧
      sampleOutcome t = (some .success, 1) := by
  let step := step sampleOwner sampleWebhookRuntime
  have hrun : ((execWhile step LeasesPending sampleStart (.poll 0 (some ["delivery-1"]) ::
      attemptActions 0 (.response 200))).bind fun s =>
        (execWhile step LeasesPending s [.release 0 "delivery-1", .poll 1 (some []), .lease 1]).map
          fun _ => sampleOutcome s) = some (some .success, 1) := by decide
  obtain ⟨s,hs,hrest⟩ := Option.bind_eq_some_iff.mp hrun
  obtain ⟨t,ht,hseen⟩ := Option.map_eq_some_iff.mp hrest
  obtain ⟨hstatus,hsent⟩ := Prod.mk.inj hseen
  have hst := reachesWhile_of_execWhile _ ht
  obtain ⟨hkept,hsame⟩ := terminal_delivery_final (reachesWhile_of_execWhile _ hs) hst hstatus
    (by decide)
  exact ⟨t, (reachesWhile_of_execWhile _ hs).trans hst, by rw [sampleOutcome, hkept, hsame, hsent]⟩

/-- The second process polls before the first one delivers and leases after it:
the delivered row is sent again and set back to pending. -/
theorem stale_poll_sends_again :
    ¬ ∀ (owner : Fin 2 → String) (runtime : WebhookRuntime) (now : Date)
      (subscriptions : WebhookSubscriptions) (deliveries : WebhookDeliveries)
      (s t : WebhookSystem (Fin 2)) (id : String) (status : WebhookDeliveryStatus),
      Reaches (step owner runtime) (start now subscriptions deliveries true) s →
      Reaches (step owner runtime) s t → s.statusOf id = some status → status ≠ .pending →
      t.statusOf id = some status ∧ t.requestsFor id = s.requestsFor id := by
  intro h
  let step := step sampleOwner sampleWebhookRuntime
  have hrun : ((exec step sampleStart (.poll 0 (some ["delivery-1"]) ::
      .poll 1 (some ["delivery-1"]) :: attemptActions 0 (.response 200))).bind fun s =>
        (exec step s (.release 0 "delivery-1" :: attemptActions 1 (.response 500))).map
          fun t => (sampleOutcome s, sampleOutcome t)) =
      some ((some .success, 1), (some .pending, 2)) := by decide
  obtain ⟨s,hs,hrest⟩ := Option.bind_eq_some_iff.mp hrun
  obtain ⟨t,ht,hseen⟩ := Option.map_eq_some_iff.mp hrest
  have hfinal : s.statusOf "delivery-1" = some .success := congrArg (fun x => x.1.1) hseen
  have hreopened : t.statusOf "delivery-1" = some .pending := congrArg (fun x => x.2.1) hseen
  have hkept := (h sampleOwner sampleWebhookRuntime 0 _ _ s t "delivery-1" .success
    (reaches_of_exec _ hs) (reaches_of_exec _ ht) hfinal (by decide)).1
  rw [hreopened] at hkept
  cases hkept

end WebhookSystem

end StreamPay
