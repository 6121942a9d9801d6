import StreamPay.TerminalDeliveries

/-! The requests that subscribers are sent for a delivery, against the attempts
that its row counts, over every interleaving of the workers. -/
namespace StreamPay
open Interleaving WebhookRepository

/-- Requests of an attempt that are sent and not yet recorded. -/
def AttemptProgress.unrecorded : AttemptProgress → ℕ
  | .requested | .succeeded _ | .failing _ _ => 1
  | _ => 0

def WebhookAction.throws {ι : Type*} : WebhookAction ι → Bool
  | .poll _ ids => ids.isNone
  | .findSubscription _ _ throws => throws
  | .record _ _ thrown => thrown.isSome
  | _ => false

namespace WebhookSystem
variable {ι : Type*}

def attemptsOf (s : WebhookSystem ι) (id : String) : ℕ :=
  ((s.deliveries.get id).map WebhookDelivery.attempts).getD 0

/-- The delivery of the request whose outcome a turn writes to the table. -/
def recordedBy (s : WebhookSystem ι) : WebhookAction ι → Option String
  | .record i deliveryId none =>
    match s.attempt i deliveryId with
    | some attempt =>
      if attempt.progress.unrecorded = 1 then some attempt.delivery.id else none
    | none => none
  | _ => none

theorem recordedBy_of_unrecorded {s : WebhookSystem ι} {i : ι} {id : String} {attempt : Attempt}
    (hattempt : s.attempt i id = some attempt) (h : attempt.progress.unrecorded = 1) :
    recordedBy s (.record i id none) = some attempt.delivery.id := by
  simp only [recordedBy, hattempt, h, if_true]

/-- A process about to lease its batch finds every delivery it can get with as
many attempts as when it polled. -/
def LeasesCurrent (s : WebhookSystem ι) : WebhookAction ι → Prop
  | .lease i => ∀ delivery ∈ (s.processes i).due, s.lease.has delivery.id = false →
      (s.deliveries.get delivery.id).map WebhookDelivery.attempts = some delivery.attempts
  | _ => True

instance (s : WebhookSystem ι) : ∀ a, Decidable (s.LeasesCurrent a)
  | .lease i => inferInstanceAs (Decidable (∀ delivery ∈ (s.processes i).due,
      s.lease.has delivery.id = false →
        (s.deliveries.get delivery.id).map WebhookDelivery.attempts = some delivery.attempts))
  | .tick _ | .poll _ _ | .findSubscription _ _ _ | .send _ _ | .receive _ _ _ | .record _ _ _
  | .release _ _ => inferInstanceAs (Decidable True)

/-- The repository does not throw, and leases are of current rows. -/
def CountsCurrent (s : WebhookSystem ι) (a : WebhookAction ι) : Prop :=
  a.throws = false ∧ s.LeasesCurrent a

instance (s : WebhookSystem ι) (a : WebhookAction ι) : Decidable (s.CountsCurrent a) :=
  inferInstanceAs (Decidable (_ ∧ _))

/-- The outcomes recorded so far are the attempts of the rows; a request that is
sent and not recorded belongs to the attempt under way. -/
structure Counted (owner : ι → String) (s : WebhookSystem ι) (recorded : List String) : Prop where
  leased : Leased owner s
  counted : ∀ id, s.attemptsOf id = recorded.count id
  bounded : ∀ id row, s.deliveries.get id = some row →
    row.attempts ≤ maxAttempts ∧ (row.status = .pending → row.attempts < maxAttempts)
  polled : ∀ i, ∀ delivery ∈ (s.processes i).due, delivery.attempts < maxAttempts
  current : ∀ i id attempt, s.attempt i id = some attempt → attempt.progress ≠ .finished →
    (s.deliveries.get id).map WebhookDelivery.attempts = some attempt.delivery.attempts ∧
      attempt.delivery.attempts < maxAttempts
  active : ∀ i id attempt, s.attempt i id = some attempt →
    (s.requestsFor id).length = recorded.count id+attempt.progress.unrecorded
  inactive : ∀ id, (∀ i, s.attempt i id = none) → (s.requestsFor id).length = recorded.count id

variable {owner : ι → String} {s t : WebhookSystem ι} {recorded recorded' : List String}

theorem Counted.congr (h : Counted owner s recorded) (hattempt : t.attempt = s.attempt)
    (hlease : t.lease = s.lease) (hdeliveries : t.deliveries = s.deliveries)
    (hrequests : t.requests = s.requests)
    (hpolled : ∀ i, ∀ delivery ∈ (t.processes i).due, delivery.attempts < maxAttempts) :
    Counted owner t recorded := by
  have hof (id : String) : t.attemptsOf id = s.attemptsOf id := by
    rw [attemptsOf, hdeliveries, attemptsOf]
  have hfor (id : String) : t.requestsFor id = s.requestsFor id := by
    rw [requestsFor, hrequests, requestsFor]
  constructor
  case leased => exact h.leased.congr hattempt hlease
  case counted => exact fun id => (hof id).trans (h.counted id)
  case bounded => exact hdeliveries ▸ h.bounded
  case polled => exact hpolled
  case current => exact hattempt ▸ hdeliveries ▸ h.current
  case active =>
    rw [hattempt]
    exact fun i id attempt hattempt => hfor id ▸ h.active i id attempt hattempt
  case inactive =>
    rw [hattempt]
    exact fun id hnone => hfor id ▸ h.inactive id hnone

variable [DecidableEq ι] {runtime : WebhookRuntime}

theorem due_setAttempt (i j : ι) (id : String) (attempt : Option Attempt) :
    ∀ delivery ∈ ((s.setAttempt i id attempt).processes j).due,
      delivery ∈ (s.processes j).due := by
  intro delivery hdelivery
  simp only [setAttempt, setProcess] at hdelivery
  by_cases hj : j = i
  · rw [hj, Function.update_self] at hdelivery
    cases hdelivery
  · rwa [Function.update_of_ne hj] at hdelivery

/-- A turn of one attempt leaves the other deliveries alone, so what it does to
its own is all there is to check. -/
theorem Counted.turn (h : Counted owner s recorded) {i : ι} {id : String} {attempt : Attempt}
    (hattempt : s.attempt i id = some attempt) {progress : AttemptProgress}
    (hprocesses : t.processes = (s.setAttempt i id (some ⟨attempt.delivery, progress⟩)).processes)
    (hlease : t.lease = s.lease)
    (hrows : ∀ other ≠ id, t.deliveries.get other = s.deliveries.get other)
    (hrequests : ∀ other ≠ id, t.requestsFor other = s.requestsFor other)
    (hrecorded : ∀ other ≠ id, recorded'.count other = recorded.count other)
    (hcounted : t.attemptsOf id = recorded'.count id)
    (hbounded : ∀ row, t.deliveries.get id = some row →
      row.attempts ≤ maxAttempts ∧ (row.status = .pending → row.attempts < maxAttempts))
    (hcurrent : progress ≠ .finished →
      (t.deliveries.get id).map WebhookDelivery.attempts = some attempt.delivery.attempts ∧
        attempt.delivery.attempts < maxAttempts)
    (hactive : (t.requestsFor id).length = recorded'.count id+progress.unrecorded) :
    Counted owner t recorded' := by
  have hsame (j : ι) (id' : String) :
      t.attempt j id' = if j = i ∧ id' = id then some ⟨attempt.delivery, progress⟩
        else s.attempt j id' := by
    rw [← attempt_setAttempt, WebhookSystem.attempt, hprocesses]
    rfl
  -- every other attempt is on another delivery
  have hother {j : ι} {id' : String} {now : Attempt} (hne : ¬ (j = i ∧ id' = id))
      (hnow : s.attempt j id' = some now) : id' ≠ id :=
    h.leased.ne_of_other hattempt hnow hne
  constructor
  case leased =>
    refine (h.leased.setAttempt hattempt progress).congr ?_ hlease
    funext j id'
    rw [hsame, attempt_setAttempt]
  case counted =>
    intro id'
    by_cases hid : id' = id
    · rw [hid, hcounted]
    · rw [attemptsOf, hrows id' hid, hrecorded id' hid]
      exact h.counted id'
  case bounded =>
    intro id' row hrow
    by_cases hid : id' = id
    · exact hbounded row (hid ▸ hrow)
    · rw [hrows id' hid] at hrow
      exact h.bounded id' row hrow
  case polled =>
    intro j delivery hdelivery
    rw [hprocesses] at hdelivery
    exact h.polled j delivery (due_setAttempt i j id _ delivery hdelivery)
  case current =>
    intro j id' now hnow hopen
    rw [hsame] at hnow
    split_ifs at hnow with heq
    · obtain ⟨rfl,rfl⟩ := heq
      obtain rfl := Option.some.inj hnow
      exact hcurrent hopen
    · rw [hrows id' (hother heq hnow)]
      exact h.current j id' now hnow hopen
  case active =>
    intro j id' now hnow
    rw [hsame] at hnow
    split_ifs at hnow with heq
    · obtain ⟨rfl,rfl⟩ := heq
      obtain rfl := Option.some.inj hnow
      exact hactive
    · have hid := hother heq hnow
      rw [hrequests id' hid, hrecorded id' hid]
      exact h.active j id' now hnow
  case inactive =>
    intro id' hnone
    have hid : id' ≠ id := by
      rintro rfl
      have hnow := hnone i
      rw [hsame, if_pos ⟨rfl, rfl⟩] at hnow
      cases hnow
    rw [hrequests id' hid, hrecorded id' hid]
    refine h.inactive id' fun j => ?_
    have hnow := hnone j
    rwa [hsame, if_neg fun heq => hid heq.2] at hnow

section
variable {i : ι} {id : String} {attempt : Attempt}

theorem Counted.advance (h : Counted owner s recorded) (hattempt : s.attempt i id = some attempt)
    (hopen : attempt.progress ≠ .finished) {progress : AttemptProgress}
    (hsame : progress.unrecorded = attempt.progress.unrecorded) :
    Counted owner (s.setAttempt i id (some ⟨attempt.delivery, progress⟩)) recorded :=
  h.turn hattempt rfl rfl (fun _ _ => rfl) (fun _ _ => rfl) (fun _ _ => rfl) (h.counted id)
    (h.bounded id) (fun _ => h.current i id attempt hattempt hopen)
    (hsame ▸ h.active i id attempt hattempt)

theorem Counted.send (h : Counted owner s recorded) (hattempt : s.attempt i id = some attempt)
    (hopen : attempt.progress ≠ .finished) (hunsent : attempt.progress.unrecorded = 0)
    (request : WebhookRequest) :
    Counted owner { s.setAttempt i id (some ⟨attempt.delivery, .requested⟩) with
      requests := s.requests ++ [(attempt.delivery.id, request)] } recorded := by
  have hid := (h.leased.held i id attempt hattempt).1
  -- the request is one more of this delivery and none of another
  have hsent (other : String) : (s.requests ++ [(attempt.delivery.id, request)]).filter
      (fun request => request.1 = other) =
        s.requestsFor other ++ if other = id then [(attempt.delivery.id, request)] else [] := by
    rw [List.filter_append, requestsFor, List.filter_singleton, hid]
    congr 1
    by_cases ho : other = id
    · simp [ho]
    · simp [ho, Ne.symm ho]
  refine h.turn hattempt rfl rfl (fun _ _ => rfl) ?_ (fun _ _ => rfl) (h.counted id)
    (h.bounded id) (fun _ => h.current i id attempt hattempt hopen) ?_
  · intro other hne
    refine (hsent other).trans ?_
    rw [if_neg hne, List.append_nil]
  · refine (congrArg List.length (hsent id)).trans ?_
    rw [if_pos rfl, List.length_append, h.active i id attempt hattempt, hunsent]
    rfl

omit [DecidableEq ι] in
/-- The update of an attempt rewrites its row, which is there. -/
theorem Counted.get_record (h : Counted owner s recorded) (hattempt : s.attempt i id = some attempt)
    (hopen : attempt.progress ≠ .finished) (patch : WebhookDeliveryPatch) :
    ∃ row, row.attempts = attempt.delivery.attempts ∧ s.deliveries.get id = some row ∧
      (updateDelivery s.deliveries s.now attempt.delivery.id patch).get id =
        some (patch.apply s.now row) := by
  have hid := (h.leased.held i id attempt hattempt).1
  obtain ⟨row,hrow,hattempts⟩ :=
    Option.map_eq_some_iff.mp (h.current i id attempt hattempt hopen).1
  refine ⟨row, hattempts, hrow, ?_⟩
  rw [updateDelivery, InsertionMap.get_modify, hid, if_pos rfl, hrow, Option.map_some]

theorem Counted.record (h : Counted owner s recorded) (hattempt : s.attempt i id = some attempt)
    (hopen : attempt.progress ≠ .finished) {patch : WebhookDeliveryPatch}
    (hrecorded : ∀ other ≠ id, recorded'.count other = recorded.count other)
    (hattempts : patch.attempts.getD attempt.delivery.attempts = recorded'.count id)
    (hpending : ∀ row : WebhookDelivery, (patch.apply s.now row).status = .pending →
      recorded'.count id < maxAttempts)
    (hbounded : recorded'.count id ≤ maxAttempts)
    (hactive : (s.requestsFor id).length = recorded'.count id) :
    Counted owner { s.setAttempt i id (some ⟨attempt.delivery, .finished⟩) with
      deliveries := updateDelivery s.deliveries s.now attempt.delivery.id patch } recorded' := by
  have hid := (h.leased.held i id attempt hattempt).1
  obtain ⟨row,hrowAttempts,_,hafter⟩ := h.get_record hattempt hopen patch
  have hpatched : (patch.apply s.now row).attempts = recorded'.count id := by
    rw [WebhookDeliveryPatch.apply, hrowAttempts]
    exact hattempts
  refine h.turn hattempt rfl rfl ?_ (fun _ _ => rfl) hrecorded ?_ ?_ (fun hne => absurd rfl hne)
    hactive
  · exact fun other hne => get_updateDelivery_of_ne _ _ _ (hid ▸ hne)
  · change ((updateDelivery s.deliveries s.now attempt.delivery.id patch).get id |>.map
      WebhookDelivery.attempts).getD 0 = _
    rw [hafter]
    exact hpatched
  · intro row' hrow'
    obtain rfl := Option.some.inj (hafter.symm.trans hrow')
    rw [hpatched]
    exact ⟨hbounded, hpending row⟩

theorem Counted.release (h : Counted owner s recorded) (hattempt : s.attempt i id = some attempt)
    (hfinished : attempt.progress = .finished) :
    Counted owner { s.setAttempt i id none with
      lease := s.lease.release attempt.delivery.id (owner i) } recorded where
  leased := h.leased.release hattempt
  counted := h.counted
  bounded := h.bounded
  polled j delivery hdelivery := h.polled j delivery (due_setAttempt i j id none delivery hdelivery)
  current j id' now hnow hopen :=
    h.current j id' now (h.leased.attempt_released hattempt hnow).1 hopen
  active j id' now hnow := h.active j id' now (h.leased.attempt_released hattempt hnow).1
  inactive id' hnone := by
    by_cases hid : id' = id
    · -- a finished attempt has nothing unrecorded
      have hactive := h.active i id attempt hattempt
      rw [hfinished] at hactive
      exact hid ▸ hactive
    · refine h.inactive id' fun j => ?_
      have hnow := hnone j
      change (s.setAttempt i id none).attempt j id' = none at hnow
      rwa [attempt_setAttempt, if_neg fun heq => hid heq.2] at hnow

theorem due_setProcess (i j : ι) {process : ProcessDue} {P : WebhookDelivery → Prop}
    (hnew : ∀ delivery ∈ process.due, P delivery)
    (hold : ∀ delivery ∈ (s.processes j).due, P delivery) :
    ∀ delivery ∈ ((s.setProcess i process).processes j).due, P delivery := by
  intro delivery hdelivery
  simp only [setProcess] at hdelivery
  by_cases hj : j = i
  · rw [hj, Function.update_self] at hdelivery
    exact hnew delivery hdelivery
  · rw [Function.update_of_ne hj] at hdelivery
    exact hold delivery hdelivery

/-- New attempts are of free deliveries, so their rows have no other attempt. -/
theorem Counted.lease (h : Counted owner s recorded) {due : List WebhookDelivery}
    (hpolled : s.processes i = .polled due) (hcurrent : s.LeasesCurrent (.lease i)) :
    Counted owner (afterLease owner s i due) recorded := by
  have hdue {delivery : WebhookDelivery} (hmem : delivery ∈ due) :
      delivery ∈ (s.processes i).due := by rwa [hpolled]
  have hnone {id : String} (hfree : s.lease.has id = false) (j : ι) : s.attempt j id = none := by
    cases hj : s.attempt j id with
    | none => rfl
    | some attempt => exact absurd hfree (h.leased.not_free hj)
  constructor
  case leased => exact h.leased.lease i due
  case counted => exact h.counted
  case bounded => exact h.bounded
  case polled => exact fun j => due_setProcess i j (fun _ hnil => nomatch hnil) (h.polled j)
  case current =>
    -- a new attempt works on its polled copy, which is still the row's
    intro j id now hnow hopen
    rcases attempt_afterLease hnow with ⟨_,_,rfl,hmem,hfree,_⟩ | ⟨_,hold⟩
    · exact ⟨hcurrent now.delivery (hdue hmem) hfree, h.polled i now.delivery (hdue hmem)⟩
    · exact h.current j id now hold hopen
  case active =>
    intro j id now hnow
    rcases attempt_afterLease hnow with ⟨_,hstarted,_,_,hfree,_⟩ | ⟨_,hold⟩
    · rw [hstarted]
      exact h.inactive id (hnone hfree)
    · exact h.active j id now hold
  case inactive =>
    intro id hafter
    refine h.inactive id fun j => ?_
    by_cases hj : j = i
    · rw [hj, WebhookSystem.attempt, hpolled]
      rfl
    · have hsame := hafter j
      change (s.setProcess i _).attempt j id = none at hsame
      rwa [attempt_setProcess, if_neg hj] at hsame

end

/-- Polled rows are pending, so they have an attempt left. -/
theorem Counted.poll (h : Counted owner s recorded) {i : ι} {ids : List String}
    (hcalled : s.processes i = .called) (hbatch : IsDueBatch s.deliveries s.now ids) :
    Counted owner (s.setProcess i (.polled (dueRows s.deliveries ids))) recorded := by
  have hidle : (s.setProcess i (.polled (dueRows s.deliveries ids))).attempt = s.attempt :=
    attempt_setProcess_idle (fun id => by rw [hcalled]; rfl) (fun id => rfl)
  refine h.congr hidle rfl rfl rfl fun j => due_setProcess i j ?_ (h.polled j)
  intro delivery hdelivery
  obtain ⟨id,hid,hrow⟩ := List.mem_filterMap.mp hdelivery
  have hdue := hbatch.2.2.1 id hid
  rw [hrow, Option.any_some, isDue, Bool.and_eq_true, decide_eq_true_eq] at hdue
  exact (h.bounded id delivery hrow).2 hdue.1

theorem unrecorded_outcomeProgress (outcome : FetchOutcome) :
    (outcomeProgress outcome).unrecorded = 1 := by
  cases outcome with
  | response status =>
    cases hok : responseOk status <;> simp [outcomeProgress, hok, AttemptProgress.unrecorded]
  | error message => rfl

/-- Recording the outcome of a request adds one to the attempts of the row. -/
theorem Counted.recordOutcome (h : Counted owner s recorded) {i : ι} {id : String}
    {attempt : Attempt} (hattempt : s.attempt i id = some attempt)
    (hunrecorded : attempt.progress.unrecorded = 1) {patch : WebhookDeliveryPatch}
    (hattempts : patch.attempts = some (attempt.delivery.attempts+1))
    (hpending : ∀ row : WebhookDelivery, (patch.apply s.now row).status = .pending →
      attempt.delivery.attempts+1 < maxAttempts) :
    Counted owner { s.setAttempt i id (some ⟨attempt.delivery, .finished⟩) with
      deliveries := updateDelivery s.deliveries s.now attempt.delivery.id patch }
      (recorded ++ [attempt.delivery.id]) := by
  have hopen : attempt.progress ≠ .finished := by
    intro hfinished
    rw [hfinished] at hunrecorded
    cases hunrecorded
  have hid := (h.leased.held i id attempt hattempt).1
  obtain ⟨hcurrent,hleft⟩ := h.current i id attempt hattempt hopen
  -- the copy's count is the row's, and that is what has been recorded
  have hbefore : recorded.count id = attempt.delivery.attempts := by
    rw [← h.counted id, attemptsOf, hcurrent, Option.getD_some]
  have hafter : (recorded ++ [attempt.delivery.id]).count id = attempt.delivery.attempts+1 := by
    rw [List.count_append, hid, List.count_singleton_self, hbefore]
  refine h.record hattempt hopen ?_ ?_ ?_ ?_ ?_
  · intro other hne
    rw [List.count_append, hid, List.count_singleton]
    simp [Ne.symm hne]
  · rw [hattempts, hafter, Option.getD_some]
  · rw [hafter]
    exact hpending
  · rw [hafter]
    exact hleft
  · rw [h.active i id attempt hattempt, hunrecorded, hbefore, hafter]

/-- A delivery without its subscription fails, with no request to count. -/
theorem Counted.recordUnsubscribed (h : Counted owner s recorded) {i : ι} {id : String}
    {attempt : Attempt} (hattempt : s.attempt i id = some attempt)
    (hunsubscribed : attempt.progress = .unsubscribed) :
    Counted owner { s.setAttempt i id (some ⟨attempt.delivery, .finished⟩) with
      deliveries := updateDelivery s.deliveries s.now attempt.delivery.id subscriptionNotFound }
      recorded := by
  have hopen : attempt.progress ≠ .finished := by
    rw [hunsubscribed]
    exact nofun
  obtain ⟨hcurrent,hleft⟩ := h.current i id attempt hattempt hopen
  have hbefore : attempt.delivery.attempts = recorded.count id := by
    rw [← h.counted id, attemptsOf, hcurrent, Option.getD_some]
  refine h.record hattempt hopen (fun _ _ => rfl) hbefore nofun ?_ ?_
  · rw [← hbefore]
    exact hleft.le
  · rw [h.active i id attempt hattempt, hunsubscribed]
    rfl

theorem Counted.step (h : Counted owner s recorded) {a : WebhookAction ι} (hC : s.CountsCurrent a)
    (hstep : step owner runtime s a = some t) :
    Counted owner t (recorded ++ (recordedBy s a).toList) := by
  obtain ⟨hthrows,hcurrent⟩ := hC
  cases a with
  | tick elapsed =>
    obtain rfl := Option.some.inj hstep
    have hsame := h.congr (t := { s with now := s.now+elapsed }) rfl rfl rfl rfl h.polled
    rwa [← List.append_nil recorded] at hsame
  | poll i ids =>
    change Counted owner t (recorded ++ [])
    rw [List.append_nil]
    simp only [WebhookSystem.step] at hstep
    split at hstep
    · split_ifs at hstep
      obtain rfl := Option.some.inj hstep
      exact h.poll ‹_› ‹_›
    · cases hthrows
    · cases hstep
  | lease i =>
    change Counted owner t (recorded ++ [])
    rw [List.append_nil]
    simp only [WebhookSystem.step] at hstep
    split at hstep
    · obtain rfl := Option.some.inj hstep
      exact h.lease ‹_› hcurrent
    · cases hstep
  | findSubscription i id throws =>
    obtain rfl : throws = false := hthrows
    change Counted owner t (recorded ++ [])
    rw [List.append_nil]
    simp only [WebhookSystem.step, Bool.false_eq_true, ↓reduceIte] at hstep
    split at hstep
    · rename_i delivery hattempt
      obtain rfl := Option.some.inj hstep
      refine h.advance hattempt (by simp) ?_
      cases findSubscriptionById s.subscriptions delivery.subscriptionId <;> rfl
    · cases hstep
  | send i id =>
    change Counted owner t (recorded ++ [])
    rw [List.append_nil]
    simp only [WebhookSystem.step] at hstep
    split at hstep
    · obtain rfl := Option.some.inj hstep
      exact h.send ‹_› (by simp) rfl _
    · cases hstep
  | receive i id outcome =>
    change Counted owner t (recorded ++ [])
    rw [List.append_nil]
    simp only [WebhookSystem.step] at hstep
    split at hstep
    · obtain rfl := Option.some.inj hstep
      exact h.advance ‹_› (by simp) (unrecorded_outcomeProgress outcome)
    · cases hstep
  | record i id thrown =>
    obtain rfl : thrown = none :=
      Option.isNone_iff_eq_none.mp (by simpa [WebhookAction.throws] using hthrows)
    cases hattempt : s.attempt i id with
    | none => simp [WebhookSystem.step, hattempt] at hstep
    | some attempt =>
      simp only [WebhookSystem.step, hattempt] at hstep
      -- by what the attempt is about to write
      cases hprogress : attempt.progress with
      | unsubscribed =>
        simp only [Attempt.patch, hprogress] at hstep
        obtain rfl := Option.some.inj hstep
        have hmark : recordedBy s (.record i id none) = none := by
          simp [recordedBy, hattempt, hprogress, AttemptProgress.unrecorded]
        rw [hmark, Option.toList_none, List.append_nil]
        exact h.recordUnsubscribed hattempt hprogress
      | succeeded httpStatus =>
        simp only [Attempt.patch, hprogress] at hstep
        obtain rfl := Option.some.inj hstep
        have hunrecorded : attempt.progress.unrecorded = 1 := by rw [hprogress]; rfl
        rw [recordedBy_of_unrecorded hattempt hunrecorded]
        refine h.recordOutcome hattempt hunrecorded rfl fun row hpending => ?_
        cases hpending
      | failing httpStatus errorMessage =>
        simp only [Attempt.patch, hprogress] at hstep
        obtain rfl := Option.some.inj hstep
        have hunrecorded : attempt.progress.unrecorded = 1 := by rw [hprogress]; rfl
        rw [recordedBy_of_unrecorded hattempt hunrecorded]
        -- the row stays pending only below the limit
        refine h.recordOutcome hattempt hunrecorded rfl fun row hpending => ?_
        simp only [WebhookDeliveryPatch.apply, deliveryFailed, Option.getD_some] at hpending
        split_ifs at hpending with hlast
        exact not_le.mp hlast
      | started | subscribed _ | requested | finished =>
        simp [Attempt.patch, hprogress] at hstep
  | release i id =>
    change Counted owner t (recorded ++ [])
    rw [List.append_nil]
    simp only [WebhookSystem.step] at hstep
    split at hstep
    · obtain rfl := Option.some.inj hstep
      rename_i hattempt
      exact h.release hattempt rfl
    · cases hstep

omit [DecidableEq ι] in
theorem counted_start (owner : ι → String) (now : Date) (subscriptions : WebhookSubscriptions)
    {deliveries : WebhookDeliveries} (available : Bool)
    (hfresh : ∀ id row, deliveries.get id = some row → row.attempts = 0) :
    Counted owner (start now subscriptions deliveries available) [] where
  leased := ⟨(fun _ _ _ h => nomatch h), (fun _ _ _ _ _ h => nomatch h)⟩
  counted id := by
    cases hrow : deliveries.get id with
    | none => simp [attemptsOf, start, hrow]
    | some row => simp [attemptsOf, start, hrow, hfresh id row hrow]
  bounded id row hrow := by
    rw [hfresh id row hrow]
    exact ⟨Nat.zero_le _, fun _ => by decide⟩
  polled _ _ h := nomatch h
  current _ _ _ h := nomatch h
  active _ _ _ h := nomatch h
  inactive _ _ := rfl

omit [DecidableEq ι] in
theorem Counted.requests_le (h : Counted owner s recorded) (id : String) :
    (s.requestsFor id).length ≤ maxAttempts := by
  have hrow : recorded.count id ≤ maxAttempts := by
    rw [← h.counted id, attemptsOf]
    cases hget : s.deliveries.get id with
    | none => exact Nat.zero_le _
    | some row => exact (h.bounded id row hget).1
  by_cases hnone : ∀ i, s.attempt i id = none
  · rw [h.inactive id hnone]
    exact hrow
  · obtain ⟨i,hi⟩ := not_forall.mp hnone
    obtain ⟨attempt,hattempt⟩ := Option.ne_none_iff_exists'.mp hi
    have hactive := h.active i id attempt hattempt
    by_cases hfinished : attempt.progress = .finished
    · rw [hfinished] at hactive
      exact hactive.trans_le hrow
    · -- the attempt was polled with one more to go
      obtain ⟨hcurrent,hleft⟩ := h.current i id attempt hattempt hfinished
      have hcount := h.counted id
      rw [attemptsOf, hcurrent, Option.getD_some] at hcount
      have hone : attempt.progress.unrecorded ≤ 1 := by
        cases attempt.progress <;> simp [AttemptProgress.unrecorded]
      omega

/-- In every interleaving in which the repository does not throw and leases are
taken of rows with the attempts they were polled with, no delivery is sent more
than `maxAttempts` times and its row counts the outcomes recorded. -/
theorem requests_counted {now : Date} {subscriptions : WebhookSubscriptions}
    {deliveries : WebhookDeliveries} {available : Bool}
    (hfresh : ∀ id row, deliveries.get id = some row → row.attempts = 0)
    (hs : ReachesWhile (recording (step owner runtime) recordedBy) (fun s a => s.1.CountsCurrent a)
      (start now subscriptions deliveries available, []) (s, recorded)) (id : String) :
    (s.requestsFor id).length ≤ maxAttempts ∧ s.attemptsOf id = recorded.count id := by
  have hcounted : Counted owner s recorded :=
    hs.invariant (fun s => Counted owner s.1 s.2)
      (fun _ _ _ h hC hstep => by
        obtain ⟨ht,hmarks⟩ := recording_eq_some.mp hstep
        exact hmarks ▸ h.step hC ht)
      (counted_start owner now subscriptions available hfresh)
  exact ⟨hcounted.requests_le id, hcounted.counted id⟩

section SampleAttempts

theorem sampleDeliveries_fresh (id : String) (row : WebhookDelivery)
    (hrow : sampleStart.deliveries.get id = some row) : row.attempts = 0 := by
  change (InsertionMap.empty.set "delivery-1" sampleDelivery).get id = some row at hrow
  rw [InsertionMap.get_set] at hrow
  split_ifs at hrow
  · exact Option.some.inj hrow ▸ rfl
  · cases hrow

/-- One process fails to deliver and records it. -/
theorem requests_counted_once :
    ∃ s recorded, ReachesWhile (recording (step sampleOwner sampleWebhookRuntime) recordedBy)
        (fun s a => s.1.CountsCurrent a) (sampleStart, []) (s, recorded) ∧
      recorded = ["delivery-1"] ∧ (s.requestsFor "delivery-1").length ≤ maxAttempts ∧
      s.attemptsOf "delivery-1" = recorded.count "delivery-1" := by
  let step := recording (step sampleOwner sampleWebhookRuntime) recordedBy
  have hrun : (execWhile step (fun s a => s.1.CountsCurrent a) (sampleStart, [])
      (.poll 0 (some ["delivery-1"]) :: attemptActions 0 (.response 500))).map Prod.snd =
        some ["delivery-1"] := by decide
  obtain ⟨⟨s,recorded⟩,hs,hrecorded⟩ := Option.map_eq_some_iff.mp hrun
  have hreach := reachesWhile_of_execWhile _ hs
  exact ⟨s, recorded, hreach, hrecorded,
    requests_counted sampleDeliveries_fresh hreach "delivery-1"⟩

/-- Two processes poll the row before either delivers: two outcomes are recorded
and the row counts one attempt. -/
theorem stale_poll_counts_once :
    ¬ ∀ (owner : Fin 2 → String) (runtime : WebhookRuntime) (now : Date)
      (subscriptions : WebhookSubscriptions) (deliveries : WebhookDeliveries)
      (s : WebhookSystem (Fin 2)) (recorded : List String) (id : String),
      (∀ id row, deliveries.get id = some row → row.attempts = 0) →
      ReachesWhile (recording (step owner runtime) recordedBy) (fun _ a => a.throws = false)
        (start now subscriptions deliveries true, []) (s, recorded) →
      (s.requestsFor id).length ≤ maxAttempts ∧ s.attemptsOf id = recorded.count id := by
  intro h
  let step := recording (step sampleOwner sampleWebhookRuntime) recordedBy
  have hrun : (execWhile step (fun _ a => a.throws = false) (sampleStart, [])
      (.poll 0 (some ["delivery-1"]) :: .poll 1 (some ["delivery-1"]) ::
        (attemptActions 0 (.response 500) ++ .release 0 "delivery-1" ::
          attemptActions 1 (.response 500)))).map
        (fun s => (s.1.attemptsOf "delivery-1", s.2.count "delivery-1")) = some (1, 2) := by decide
  obtain ⟨⟨s,recorded⟩,hs,hseen⟩ := Option.map_eq_some_iff.mp hrun
  obtain ⟨hattempts,hrecorded⟩ := Prod.mk.inj hseen
  have hequal := (h sampleOwner sampleWebhookRuntime 0 _ _ s recorded "delivery-1"
    sampleDeliveries_fresh (reachesWhile_of_execWhile _ hs)).2
  rw [hattempts, hrecorded] at hequal
  cases hequal

end SampleAttempts

end WebhookSystem

end StreamPay
