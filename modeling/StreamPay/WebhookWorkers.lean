import Mathlib.Logic.Function.Basic
import StreamPay.WebhookDeliveries
import StreamPay.Library.Interleaving

/-! Workers running `processDue` over one table and one in-memory lease. Each
call of `processDue` is a process; the processes take turns at their awaits. -/
namespace StreamPay
open Interleaving WebhookRepository

inductive AttemptProgress
  | started
  | subscribed (sub : WebhookSubscription)
  | unsubscribed
  | requested
  | succeeded (httpStatus : ℕ)
  | failing (httpStatus : Option ℕ) (errorMessage : String)
  | finished
  deriving DecidableEq, Repr

/-- An attempt works on the row as it was polled. -/
structure Attempt where
  delivery : WebhookDelivery
  progress : AttemptProgress
  deriving DecidableEq, Repr

/-- How far a call of `processDue` has come; attempts run side by side. -/
inductive ProcessDue
  | called
  | polled (due : List WebhookDelivery)
  | attempting (attempts : String → Option Attempt)
  | failed

def ProcessDue.attempts : ProcessDue → String → Option Attempt
  | .attempting attempts => attempts
  | _ => fun _ => none

def ProcessDue.due : ProcessDue → List WebhookDelivery
  | .polled due => due
  | _ => []

structure WebhookSystem (ι : Type*) where
  now : Date
  subscriptions : WebhookSubscriptions
  deliveries : WebhookDeliveries
  lease : InMemoryJobLease
  processes : ι → ProcessDue
  /-- The requests sent so far, with the ids of their deliveries. -/
  requests : List (String × WebhookRequest)

/-- The turns of process `i`. A repository call that throws has no effect. -/
inductive WebhookAction (ι : Type*)
  | tick (elapsed : ℕ)
  | poll (i : ι) (ids : Option (List String))
  | lease (i : ι)
  | findSubscription (i : ι) (deliveryId : String) (throws : Bool)
  | send (i : ι) (deliveryId : String)
  | receive (i : ι) (deliveryId : String) (outcome : FetchOutcome)
  | record (i : ι) (deliveryId : String) (thrown : Option String)
  | release (i : ι) (deliveryId : String)

/-- The leases of a batch are asked for in one go, without an await between. -/
def acquireAll (owner : String) :
    InMemoryJobLease → List WebhookDelivery → List WebhookDelivery × InMemoryJobLease
  | lease, [] => ([], lease)
  | lease, delivery :: due =>
    let (acquired, lease) := lease.acquire delivery.id owner
    let (leased, lease) := acquireAll owner lease due
    (if acquired then delivery :: leased else leased, lease)

def startAttempts (leased : List WebhookDelivery) (deliveryId : String) : Option Attempt :=
  (leased.find? fun delivery => delivery.id = deliveryId).map fun delivery => ⟨delivery, .started⟩

/-- What the next update of an attempt sets, if it is about to make one. -/
def Attempt.patch (now : Date) (attempt : Attempt) : Option WebhookDeliveryPatch :=
  match attempt.progress with
  | .unsubscribed => some subscriptionNotFound
  | .succeeded httpStatus => some (deliverySucceeded (attempt.delivery.attempts+1) httpStatus)
  | .failing httpStatus errorMessage =>
    some (deliveryFailed now (attempt.delivery.attempts+1) httpStatus errorMessage)
  | _ => none

/-- A success that cannot be written is handled as a failure of the delivery. -/
def Attempt.afterThrow (attempt : Attempt) (message : String) : AttemptProgress :=
  match attempt.progress with
  | .succeeded httpStatus => .failing (some httpStatus) message
  | _ => .finished

def outcomeProgress : FetchOutcome → AttemptProgress
  | .response status =>
    if responseOk status then .succeeded status else .failing (some status) s!"HTTP {status}"
  | .error message => .failing none message

namespace WebhookSystem
variable {ι : Type*} [DecidableEq ι]

/-- Every process about to poll, no lease held and nothing sent. -/
def start (now : Date) (subscriptions : WebhookSubscriptions) (deliveries : WebhookDeliveries)
    (available : Bool) : WebhookSystem ι :=
  ⟨now, subscriptions, deliveries, .new available, fun _ => .called, []⟩

def attempt (s : WebhookSystem ι) (i : ι) (deliveryId : String) : Option Attempt :=
  (s.processes i).attempts deliveryId

def setProcess (s : WebhookSystem ι) (i : ι) (process : ProcessDue) : WebhookSystem ι :=
  { s with processes := Function.update s.processes i process }

def setAttempt (s : WebhookSystem ι) (i : ι) (deliveryId : String) (attempt : Option Attempt) :
    WebhookSystem ι :=
  s.setProcess i (.attempting (Function.update (s.processes i).attempts deliveryId attempt))

/-- A turn runs from one await to the next; a repository call is one turn with
the code before it. -/
def step (owner : ι → String) (runtime : WebhookRuntime) (s : WebhookSystem ι) :
    WebhookAction ι → Option (WebhookSystem ι)
  | .tick elapsed => some { s with now := s.now+elapsed }
  | .poll i ids =>
    match s.processes i, ids with
    | .called, some ids =>
      if IsDueBatch s.deliveries s.now ids then
        some (s.setProcess i (.polled (dueRows s.deliveries ids)))
      else none
    -- `findDueDeliveries` throws, and with it `processDue`
    | .called, none => some (s.setProcess i .failed)
    | _, _ => none
  | .lease i =>
    match s.processes i with
    | .polled due =>
      let (leased, lease) := acquireAll (owner i) s.lease due
      some { s.setProcess i (.attempting (startAttempts leased)) with lease := lease }
    | _ => none
  | .findSubscription i deliveryId throws =>
    match s.attempt i deliveryId with
    | some ⟨delivery, .started⟩ =>
      -- an error here leaves the attempt through its finally block
      let progress := if throws then .finished else
        match findSubscriptionById s.subscriptions delivery.subscriptionId with
        | some sub => .subscribed sub
        | none => .unsubscribed
      some (s.setAttempt i deliveryId (some ⟨delivery, progress⟩))
    | _ => none
  | .send i deliveryId =>
    match s.attempt i deliveryId with
    | some ⟨delivery, .subscribed sub⟩ =>
      some { s.setAttempt i deliveryId (some ⟨delivery, .requested⟩) with
        requests := s.requests ++ [(delivery.id, webhookRequest runtime sub delivery)] }
    | _ => none
  | .receive i deliveryId outcome =>
    match s.attempt i deliveryId with
    | some ⟨delivery, .requested⟩ =>
      some (s.setAttempt i deliveryId (some ⟨delivery, outcomeProgress outcome⟩))
    | _ => none
  | .record i deliveryId thrown =>
    match s.attempt i deliveryId with
    | some attempt =>
      match attempt.patch s.now, thrown with
      | some patch, none =>
        some { s.setAttempt i deliveryId (some ⟨attempt.delivery, .finished⟩) with
          deliveries := updateDelivery s.deliveries s.now attempt.delivery.id patch }
      | some _, some message =>
        some (s.setAttempt i deliveryId (some ⟨attempt.delivery, attempt.afterThrow message⟩))
      | none, _ => none
    | none => none
  | .release i deliveryId =>
    match s.attempt i deliveryId with
    | some ⟨delivery, .finished⟩ =>
      some { s.setAttempt i deliveryId none with
        lease := s.lease.release delivery.id (owner i) }
    | _ => none

end WebhookSystem

/-- A leased delivery was free and is held from then on; no holder loses a job. -/
theorem acquireAll_spec (owner : String) (lease : InMemoryJobLease) (due : List WebhookDelivery) :
    (∀ delivery ∈ (acquireAll owner lease due).1,
      delivery ∈ due ∧ lease.has delivery.id = false ∧
        (acquireAll owner lease due).2.owners.get delivery.id = some owner) ∧
    ∀ id holder, lease.owners.get id = some holder →
      (acquireAll owner lease due).2.owners.get id = some holder := by
  -- along the batch: what the first acquire leaves, the later ones keep
  induction due generalizing lease with
  | nil => exact ⟨by simp [acquireAll], fun _ _ h => h⟩
  | cons first due ih =>
    obtain ⟨hleased,hkept⟩ := ih (lease.acquire first.id owner).2
    refine ⟨fun delivery hdelivery => ?_, fun id holder hheld =>
      hkept id holder (InMemoryJobLease.acquire_kept hheld _ _)⟩
    have hcases : ((lease.acquire first.id owner).1 = true ∧ delivery = first) ∨
        delivery ∈ (acquireAll owner (lease.acquire first.id owner).2 due).1 := by
      simp only [acquireAll] at hdelivery
      split_ifs at hdelivery with hacquired
      · exact (List.mem_cons.mp hdelivery).imp (⟨hacquired, ·⟩) id
      · exact Or.inr hdelivery
    rcases hcases with ⟨hacquired,rfl⟩ | hlater
    · obtain ⟨hfree,hheld⟩ := InMemoryJobLease.acquire_acquired hacquired
      exact ⟨List.mem_cons_self, hfree, hkept _ _ hheld⟩
    · obtain ⟨hdue,hfree,hheld⟩ := hleased delivery hlater
      refine ⟨List.mem_cons_of_mem _ hdue, ?_, hheld⟩
      -- free after the first acquire, so free before it
      cases hget : lease.owners.get delivery.id with
      | none => simp [InMemoryJobLease.has, InsertionMap.has, hget]
      | some holder =>
        have hstill := InMemoryJobLease.acquire_kept hget first.id owner
        simp [InMemoryJobLease.has, InsertionMap.has, hstill] at hfree

theorem startAttempts_eq_some {leased : List WebhookDelivery} {deliveryId : String}
    {attempt : Attempt} (h : startAttempts leased deliveryId = some attempt) :
    attempt.delivery ∈ leased ∧ attempt.delivery.id = deliveryId := by
  obtain ⟨delivery,hfind,rfl⟩ := Option.map_eq_some_iff.mp h
  exact ⟨List.mem_of_find?_eq_some hfind, by simpa using List.find?_some hfind⟩

namespace WebhookSystem
variable {ι : Type*} [DecidableEq ι] {owner : ι → String} {runtime : WebhookRuntime}
  {s t : WebhookSystem ι}

theorem attempt_setProcess (i j : ι) (process : ProcessDue) (id : String) :
    (s.setProcess i process).attempt j id =
      if j = i then process.attempts id else s.attempt j id := by
  simp only [attempt, setProcess]
  by_cases hj : j = i
  · rw [if_pos hj, hj, Function.update_self]
  · rw [if_neg hj, Function.update_of_ne hj]

theorem attempt_setProcess_idle {i : ι} {process : ProcessDue}
    (hbefore : ∀ id, (s.processes i).attempts id = none) (hafter : ∀ id, process.attempts id = none) :
    (s.setProcess i process).attempt = s.attempt := by
  funext j id
  rw [attempt_setProcess]
  split_ifs with hj
  · rw [hafter, hj]
    exact (hbefore id).symm
  · rfl

theorem attempt_setAttempt (i j : ι) (id id' : String) (attempt : Option Attempt) :
    (s.setAttempt i id attempt).attempt j id' =
      if j = i ∧ id' = id then attempt else s.attempt j id' := by
  rw [setAttempt, attempt_setProcess]
  by_cases hj : j = i
  · by_cases hid : id' = id
    · simp [hj, hid, ProcessDue.attempts]
    · simp [hj, hid, ProcessDue.attempts, WebhookSystem.attempt]
  · simp [hj]

inductive Turn (owner : ι → String) (s : WebhookSystem ι) :
    WebhookAction ι → WebhookSystem ι → Prop
  | idle {a : WebhookAction ι} {t : WebhookSystem ι} : t.attempt = s.attempt → t.lease = s.lease →
      t.deliveries = s.deliveries → t.requests = s.requests → Turn owner s a t
  | lease (i : ι) (due : List WebhookDelivery) : s.processes i = .polled due →
      Turn owner s (.lease i)
        { s.setProcess i (.attempting (startAttempts (acquireAll (owner i) s.lease due).1)) with
          lease := (acquireAll (owner i) s.lease due).2 }
  | advance {a : WebhookAction ι} (i : ι) (id : String) (attempt : Attempt)
      (progress : AttemptProgress) : s.attempt i id = some attempt →
      attempt.progress ≠ .finished →
      Turn owner s a (s.setAttempt i id (some ⟨attempt.delivery, progress⟩))
  | send {a : WebhookAction ι} (i : ι) (id : String) (attempt : Attempt)
      (progress : AttemptProgress) (request : WebhookRequest) : s.attempt i id = some attempt →
      attempt.progress ≠ .finished →
      Turn owner s a { s.setAttempt i id (some ⟨attempt.delivery, progress⟩) with
        requests := s.requests ++ [(attempt.delivery.id, request)] }
  | record {a : WebhookAction ι} (i : ι) (id : String) (attempt : Attempt)
      (patch : WebhookDeliveryPatch) : s.attempt i id = some attempt →
      attempt.progress ≠ .finished →
      Turn owner s a { s.setAttempt i id (some ⟨attempt.delivery, .finished⟩) with
        deliveries := updateDelivery s.deliveries s.now attempt.delivery.id patch }
  | release {a : WebhookAction ι} (i : ι) (id : String) (delivery : WebhookDelivery) :
      s.attempt i id = some ⟨delivery, .finished⟩ →
      Turn owner s a { s.setAttempt i id none with
        lease := s.lease.release delivery.id (owner i) }

theorem patch_eq_some {attempt : Attempt} {now : Date} {patch : WebhookDeliveryPatch}
    (h : attempt.patch now = some patch) : attempt.progress ≠ .finished := by
  intro hfinished
  rw [Attempt.patch, hfinished] at h
  cases h

theorem turn_of_step {a : WebhookAction ι} (h : step owner runtime s a = some t) :
    Turn owner s a t := by
  cases a with
  | tick elapsed =>
    obtain rfl := Option.some.inj h
    exact .idle rfl rfl rfl rfl
  | poll i ids =>
    have hidle (process : ProcessDue) (hcalled : s.processes i = .called)
        (hnone : ∀ id, process.attempts id = none) :
        (s.setProcess i process).attempt = s.attempt :=
      attempt_setProcess_idle (fun _ => by rw [hcalled]; rfl) hnone
    simp only [step] at h
    split at h
    · split_ifs at h
      obtain rfl := Option.some.inj h
      exact .idle (hidle _ ‹_› fun _ => rfl) rfl rfl rfl
    · obtain rfl := Option.some.inj h
      exact .idle (hidle _ ‹_› fun _ => rfl) rfl rfl rfl
    · cases h
  | lease i =>
    simp only [step] at h
    split at h
    · obtain rfl := Option.some.inj h
      exact .lease i _ ‹_›
    · cases h
  | findSubscription i deliveryId throws =>
    simp only [step] at h
    split at h
    · obtain rfl := Option.some.inj h
      exact .advance i deliveryId _ _ ‹_› (by simp)
    · cases h
  | send i deliveryId =>
    simp only [step] at h
    split at h
    · obtain rfl := Option.some.inj h
      exact .send i deliveryId _ _ _ ‹_› (by simp)
    · cases h
  | receive i deliveryId outcome =>
    simp only [step] at h
    split at h
    · obtain rfl := Option.some.inj h
      exact .advance i deliveryId _ _ ‹_› (by simp)
    · cases h
  | record i deliveryId thrown =>
    simp only [step] at h
    split at h
    · -- the update takes effect, throws, or is not due yet
      split at h
      · obtain rfl := Option.some.inj h
        exact .record i deliveryId _ _ ‹_› (patch_eq_some ‹_›)
      · obtain rfl := Option.some.inj h
        exact .advance i deliveryId _ _ ‹_› (patch_eq_some ‹_›)
      · cases h
    · cases h
  | release i deliveryId =>
    simp only [step] at h
    split at h
    · obtain rfl := Option.some.inj h
      exact .release i deliveryId _ ‹_›
    · cases h

/-- An attempt holds the lease of its delivery, alone. -/
structure Leased (owner : ι → String) (s : WebhookSystem ι) : Prop where
  held : ∀ i id attempt, s.attempt i id = some attempt →
    attempt.delivery.id = id ∧ s.lease.owners.get id = some (owner i)
  alone : ∀ i j id attempt attempt', s.attempt i id = some attempt →
    s.attempt j id = some attempt' → i = j

omit [DecidableEq ι] in
theorem Leased.congr (h : Leased owner s) (hattempt : t.attempt = s.attempt)
    (hlease : t.lease = s.lease) : Leased owner t := by
  constructor
  · rw [hattempt, hlease]
    exact h.held
  · rw [hattempt]
    exact h.alone

omit [DecidableEq ι] in
/-- While an attempt is there, every other attempt is on another delivery. -/
theorem Leased.ne_of_other (h : Leased owner s) {i j : ι} {id id' : String}
    {attempt attempt' : Attempt} (hattempt : s.attempt i id = some attempt)
    (hother : s.attempt j id' = some attempt') (hne : ¬ (j = i ∧ id' = id)) : id' ≠ id := by
  rintro rfl
  exact hne ⟨h.alone j i id' attempt' attempt hother hattempt, rfl⟩

theorem Leased.setAttempt (h : Leased owner s) {i : ι} {id : String} {attempt : Attempt}
    (hattempt : s.attempt i id = some attempt) (progress : AttemptProgress) :
    Leased owner (s.setAttempt i id (some ⟨attempt.delivery, progress⟩)) := by
  -- every attempt was there before, on the same delivery
  have hcases (j : ι) (id' : String) (now : Attempt)
      (hnow : (s.setAttempt i id (some ⟨attempt.delivery, progress⟩)).attempt j id' = some now) :
      ∃ before, s.attempt j id' = some before ∧ before.delivery = now.delivery := by
    rw [attempt_setAttempt] at hnow
    split_ifs at hnow with hsame
    · obtain ⟨rfl,rfl⟩ := hsame
      obtain rfl := Option.some.inj hnow
      exact ⟨attempt, hattempt, rfl⟩
    · exact ⟨now, hnow, rfl⟩
  constructor
  · intro j id' now hnow
    obtain ⟨before,hbefore,hdelivery⟩ := hcases j id' now hnow
    exact hdelivery ▸ h.held j id' before hbefore
  · intro j k id' now now' hnow hnow'
    obtain ⟨before,hbefore,_⟩ := hcases j id' now hnow
    obtain ⟨before',hbefore',_⟩ := hcases k id' now' hnow'
    exact h.alone j k id' before before' hbefore hbefore'

/-- The attempts left by a release are old ones on other deliveries. -/
theorem Leased.attempt_released (h : Leased owner s) {i j : ι} {id id' : String}
    {attempt now : Attempt} (hattempt : s.attempt i id = some attempt)
    (hnow : (s.setAttempt i id none).attempt j id' = some now) :
    s.attempt j id' = some now ∧ id' ≠ id := by
  rw [attempt_setAttempt] at hnow
  split_ifs at hnow with hsame
  exact ⟨hnow, h.ne_of_other hattempt hnow hsame⟩

/-- A released lease belonged to the attempt that is dropped with it. -/
theorem Leased.release (h : Leased owner s) {i : ι} {id : String} {attempt : Attempt}
    (hattempt : s.attempt i id = some attempt) :
    Leased owner { s.setAttempt i id none with
      lease := s.lease.release attempt.delivery.id (owner i) } := by
  constructor
  · intro j id' now hnow
    obtain ⟨hbefore,hid⟩ := h.attempt_released hattempt hnow
    obtain ⟨hdelivery,hheld⟩ := h.held j id' now hbefore
    refine ⟨hdelivery, InMemoryJobLease.release_kept hheld ?_ _⟩
    rw [(h.held i id _ hattempt).1]
    exact hid
  · intro j k id' now now' hnow hnow'
    exact h.alone j k id' now now' (h.attempt_released hattempt hnow).1
      (h.attempt_released hattempt hnow').1

/-- The state after the leases of a polled batch have been asked for. -/
abbrev afterLease (owner : ι → String) (s : WebhookSystem ι) (i : ι) (due : List WebhookDelivery) :
    WebhookSystem ι :=
  { s.setProcess i (.attempting (startAttempts (acquireAll (owner i) s.lease due).1)) with
    lease := (acquireAll (owner i) s.lease due).2 }

/-- An attempt there after the leases is a new one of a free delivery, or was there. -/
theorem attempt_afterLease {i j : ι} {due : List WebhookDelivery} {id : String} {now : Attempt}
    (hnow : (afterLease owner s i due).attempt j id = some now) :
    (j = i ∧ now.progress = .started ∧ now.delivery.id = id ∧
      now.delivery ∈ due ∧ s.lease.has id = false ∧
      (acquireAll (owner i) s.lease due).2.owners.get id = some (owner i)) ∨
    (j ≠ i ∧ s.attempt j id = some now) := by
  change (s.setProcess i _).attempt j id = some now at hnow
  rw [attempt_setProcess] at hnow
  split_ifs at hnow with hj
  · obtain ⟨hmem,hid⟩ := startAttempts_eq_some hnow
    obtain ⟨hdue,hfree,hheld⟩ := (acquireAll_spec (owner i) s.lease due).1 _ hmem
    obtain ⟨delivery,_,rfl⟩ := Option.map_eq_some_iff.mp hnow
    exact Or.inl ⟨hj, rfl, hid, hdue, hid ▸ hfree, hid ▸ hheld⟩
  · exact Or.inr ⟨hj, hnow⟩

omit [DecidableEq ι] in
/-- A delivery with an attempt is not free. -/
theorem Leased.not_free (h : Leased owner s) {j : ι} {id : String} {attempt : Attempt}
    (hattempt : s.attempt j id = some attempt) : s.lease.has id ≠ false := by
  rw [InMemoryJobLease.has, InsertionMap.has, (h.held j id attempt hattempt).2]
  exact Bool.noConfusion

theorem Leased.lease (h : Leased owner s) (i : ι) (due : List WebhookDelivery) :
    Leased owner (afterLease owner s i due) := by
  have hkept := (acquireAll_spec (owner i) s.lease due).2
  constructor
  · intro j id now hnow
    rcases attempt_afterLease hnow with ⟨rfl,_,hid,_,_,hheld⟩ | ⟨_,hold⟩
    · exact ⟨hid, hheld⟩
    · obtain ⟨hdelivery,hheld⟩ := h.held j id now hold
      exact ⟨hdelivery, hkept id (owner j) hheld⟩
  · intro j k id now now' hnow hnow'
    rcases attempt_afterLease hnow with ⟨hj,_,_,_,hfree,_⟩ | ⟨_,hold⟩ <;>
      rcases attempt_afterLease hnow' with ⟨hk,_,_,_,hfree',_⟩ | ⟨_,hold'⟩
    · exact hj.trans hk.symm
    · exact absurd hfree (h.not_free hold')
    · exact absurd hfree' (h.not_free hold)
    · exact h.alone j k id now now' hold hold'

end WebhookSystem

end StreamPay
