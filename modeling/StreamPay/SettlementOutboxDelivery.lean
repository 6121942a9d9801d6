import Mathlib.Data.List.Perm.Subperm
import StreamPay.SettlementOutboxWorkers

/-! Which claims the workers of one outbox hold, and when and how often the
handlers of a row are started. -/
namespace StreamPay
open Interleaving InMemorySettlementOutboxStore

namespace InMemorySettlementOutboxStore
variable {P : Type*} {log : OutboxLog P} {s : InMemorySettlementOutboxStore P}
  {claim : OutboxClaim P}

/-- A lease that is not over keeps its row out of every batch. -/
theorem kept_claimDue (h : LeaseInvariant (history log) s)
    (hheld : s.rows.get claim.row.id = some claim.row) (hstatus : claim.row.status = .processing)
    {deadline now : ℤ} (hdeadline : claim.row.leaseUntil = some deadline) (hle : now ≤ deadline)
    (limit leaseMs : ℤ) :
    (s.claimDue limit leaseMs now).2.rows.get claim.row.id = some claim.row := by
  have hnotdue : claim.row.isDue now = false := by
    have hlease : ¬ deadline < now := by omega
    simp [SettlementOutbox.isDue, hstatus, hdeadline, hlease]
  rw [claimDue_eq]
  apply claimRows_invariant leaseMs now
    (fun _ t => t.rows.get claim.row.id = some claim.row) (h.indexed.taken_ids_nodup limit now)
  · intro claims t row hrow hget ht
    rw [claimRow_get]
    split_ifs with hid
    · -- it would be the row itself
      rw [hid] at ht
      obtain rfl := Option.some.inj (hget.symm.trans ht)
      exact absurd (mem_taken hrow).2 (by rw [hnotdue]; decide)
    · exact ht
  · exact fun row hrow => h.indexed.get_of_mem (mem_taken hrow).1
  · exact hheld

/-- The rows of a new batch are as the claims have them. -/
theorem kept_of_mem_claimDue (h : s.Indexed) {limit leaseMs now : ℤ}
    (hclaim : claim ∈ (s.claimDue limit leaseMs now).1) :
    (s.claimDue limit leaseMs now).2.rows.get claim.row.id = some claim.row := by
  rw [claimDue_eq] at hclaim ⊢
  have hbatch := claimRows_invariant leaseMs now
    (fun claims t => ∀ c ∈ claims, t.rows.get c.row.id = some c.row ∧ c.row.isDue now = false)
    (h.taken_ids_nodup limit now) ?_ (fun row hrow => h.get_of_mem (mem_taken hrow).1) (by simp)
  · exact (hbatch claim hclaim).1
  · intro claims t row hrow hget ht c hc
    rw [claimRow_get]
    rcases List.mem_append.mp hc with hold | hnew
    · obtain ⟨hkept,hnotdue⟩ := ht c hold
      refine ⟨?_, hnotdue⟩
      split_ifs with hid
      · -- a row that was claimed before is no longer due
        rw [hid] at hkept
        obtain rfl := Option.some.inj (hget.symm.trans hkept)
        exact absurd (mem_taken hrow).2 (by rw [hnotdue]; decide)
      · exact hkept
    · rw [List.mem_singleton.mp hnew]
      have hdeadline : ¬ now+max 1000 leaseMs < now := by omega
      refine ⟨if_pos rfl, ?_⟩
      simp [claimRow, leased, SettlementOutbox.isDue, hdeadline]

theorem kept_mark (hheld : s.rows.get claim.row.id = some claim.row)
    (htoken : claim.row.leaseToken = some claim.leaseToken) {id token : String}
    (hne : token ≠ claim.leaseToken) (f : SettlementOutbox P → SettlementOutbox P) :
    (s.mark id token f).2.rows.get claim.row.id = some claim.row := by
  rcases mark_cases s id token f with hrefused | ⟨row,hrow,_,hrowToken,haccepted⟩
  · rw [hrefused]
    exact hheld
  · rw [haccepted]
    have hother : claim.row.id ≠ id := by
      intro hid
      rw [hid, hrow] at hheld
      rw [Option.some.inj hheld, htoken] at hrowToken
      exact hne (Option.some.inj hrowToken).symm
    exact (InsertionMap.get_set_of_ne _ _ hother).trans hheld

end InMemorySettlementOutboxStore

namespace OutboxSystem
variable {ι P : Type*} {s t : OutboxSystem ι P}

/-- The claims in the hands of the workers were issued, each to one of them. -/
structure WorkersInvariant (s : OutboxSystem ι P) : Prop where
  lease : LeaseInvariant (history s.log) s.store
  issued : ∀ i, ∀ claim ∈ (s.workers i).pending, claim ∈ claims (history s.log)
  nodup : ∀ i, ((s.workers i).pending.map OutboxClaim.leaseToken).Nodup
  apart : ∀ i j claim claim', claim ∈ (s.workers i).pending → claim' ∈ (s.workers j).pending →
    claim.leaseToken = claim'.leaseToken → i = j

theorem workersInvariant_start (now : ℤ) :
    WorkersInvariant (start now : OutboxSystem ι P) where
  lease := leaseInvariant_empty
  issued i claim h := by simp [start, OutboxWorker.pending] at h
  nodup i := List.nodup_nil
  apart i j claim claim' h := by simp [start, OutboxWorker.pending] at h

theorem claims_call (s : OutboxSystem ι P) (c : StoreCall P) :
    claims (history (s.call c).log) =
      claims (history s.log) ++ claims (outboxEvents (c, (perform s.store c).1)) := by
  have hlog : (s.call c).log = s.log ++ [(c, (perform s.store c).1)] := rfl
  rw [hlog, history_snoc, claims_append]

theorem WorkersInvariant.call (h : WorkersInvariant s) (c : StoreCall P) :
    WorkersInvariant (s.call c) where
  lease := h.lease.perform c
  issued i claim hclaim := by
    rw [claims_call]
    exact List.mem_append_left _ (h.issued i claim hclaim)
  nodup := h.nodup
  apart := h.apart

/-- The claims of a new batch, as its call of `claimDue` returns them. -/
def batch (s : OutboxSystem ι P) (limit : ℤ) : List (OutboxClaim P) :=
  (s.store.claimDue limit outboxLeaseMs s.now).1

theorem claims_claimDue (s : OutboxSystem ι P) (limit : ℤ) :
    claims (history (s.call (.claimDue limit outboxLeaseMs s.now)).log) =
      claims (history s.log) ++ s.batch limit := by
  rw [claims_call]
  exact congrArg _ (claims_map_claimed _)

/-- The tokens of a new batch are distinct and were never issued before. -/
theorem WorkersInvariant.batch_fresh (h : WorkersInvariant s) (limit : ℤ) :
    ((s.batch limit).map OutboxClaim.leaseToken).Nodup ∧
    ∀ claim ∈ s.batch limit,
      claim.leaseToken ∉ (claims (history s.log)).map OutboxClaim.leaseToken := by
  have hdistinct := (h.call (.claimDue limit outboxLeaseMs s.now)).lease.distinct
  rw [claims_claimDue, List.map_append] at hdistinct
  obtain ⟨_,hbatch,hdisjoint⟩ := List.nodup_append.mp hdistinct
  exact ⟨hbatch, fun claim hclaim hold =>
    hdisjoint _ hold _ (List.mem_map_of_mem hclaim) rfl⟩

/-- A claim is as its worker got it, and its row is still so until the lease is over. -/
structure LeasesKept (s : OutboxSystem ι P) : Prop where
  claimed : ∀ i, ∀ claim ∈ (s.workers i).pending, ∃ row,
    claim.row = leased row outboxLeaseMs (s.workers i).claimedAt claim.leaseToken
  kept : ∀ i, ∀ claim ∈ (s.workers i).pending,
    s.store.rows.get claim.row.id = some claim.row ∨
      (s.workers i).claimedAt+outboxLeaseMs < s.now

theorem LeasesKept.lease_eq (h : LeasesKept s) {i : ι} {claim : OutboxClaim P}
    (hclaim : claim ∈ (s.workers i).pending) : claim.row.status = .processing ∧
      claim.row.leaseToken = some claim.leaseToken ∧
      claim.row.leaseUntil = some ((s.workers i).claimedAt+outboxLeaseMs) := by
  obtain ⟨row,hrow⟩ := h.claimed i claim hclaim
  rw [hrow]
  exact ⟨rfl, rfl, rfl⟩

theorem leasesKept_start (now : ℤ) : LeasesKept (start now : OutboxSystem ι P) where
  claimed i claim h := by simp [start, OutboxWorker.pending] at h
  kept i claim h := by simp [start, OutboxWorker.pending] at h

/-- Turns that give out no claims only have to leave the rows under lease alone. -/
theorem LeasesKept.mono (h : LeasesKept s) (hnow : s.now ≤ t.now)
    (hpending : ∀ j, ∀ claim ∈ (t.workers j).pending, claim ∈ (s.workers j).pending ∧
      (t.workers j).claimedAt = (s.workers j).claimedAt)
    (hrows : ∀ j, ∀ claim ∈ (t.workers j).pending,
      s.store.rows.get claim.row.id = some claim.row →
      t.store.rows.get claim.row.id = some claim.row) : LeasesKept t where
  claimed j claim hclaim := by
    obtain ⟨hold,hat⟩ := hpending j claim hclaim
    rw [hat]
    exact h.claimed j claim hold
  kept j claim hclaim := by
    obtain ⟨hold,hat⟩ := hpending j claim hclaim
    rw [hat]
    rcases h.kept j claim hold with hkept | hover
    · exact Or.inl (hrows j claim hclaim hkept)
    · exact Or.inr (by omega)

variable [DecidableEq ι]

theorem workers_setWorker (i j : ι) (worker : OutboxWorker P) :
    (s.setWorker i worker).workers j = if j = i then worker else s.workers j :=
  Function.update_apply _ _ _ _

/-- Where a worker keeps or drops claims, no worker holds a claim that it did not hold. -/
theorem mem_pending_of_setWorker {i j : ι} {worker : OutboxWorker P}
    (hsub : worker.pending ⊆ (s.workers i).pending) {claim : OutboxClaim P}
    (h : claim ∈ ((s.setWorker i worker).workers j).pending) : claim ∈ (s.workers j).pending := by
  rw [workers_setWorker] at h
  split_ifs at h with hj
  · rw [hj]
    exact hsub h
  · exact h

theorem pending_setWorker {i j : ι} {worker : OutboxWorker P}
    (hsub : worker.pending ⊆ (s.workers i).pending)
    (hat : worker.pending ≠ [] → worker.claimedAt = (s.workers i).claimedAt) {claim : OutboxClaim P}
    (h : claim ∈ ((s.setWorker i worker).workers j).pending) :
    claim ∈ (s.workers j).pending ∧
      ((s.setWorker i worker).workers j).claimedAt = (s.workers j).claimedAt := by
  refine ⟨mem_pending_of_setWorker hsub h, ?_⟩
  rw [workers_setWorker] at h ⊢
  split_ifs at h ⊢ with hj
  · rw [hj]
    exact hat (List.ne_nil_of_mem h)
  · rfl

/-- A worker that holds fewer claims than before is no danger to the others. -/
theorem WorkersInvariant.setWorker (h : WorkersInvariant s) {i : ι} {worker : OutboxWorker P}
    (hsub : worker.pending.Sublist (s.workers i).pending) :
    WorkersInvariant (s.setWorker i worker) := by
  have hpending (j : ι) : ((s.setWorker i worker).workers j).pending.Sublist
      (s.workers j).pending := by
    rw [workers_setWorker]
    split_ifs with hj
    · exact hj ▸ hsub
    · exact List.Sublist.refl _
  exact {
    lease := h.lease
    issued := fun j claim hclaim => h.issued j claim ((hpending j).subset hclaim)
    nodup := fun j => (h.nodup j).sublist ((hpending j).map _)
    apart := fun j k claim claim' hclaim hclaim' =>
      h.apart j k claim claim' ((hpending j).subset hclaim) ((hpending k).subset hclaim') }

omit [DecidableEq ι] in
/-- The claim at the head of a batch has a token of its own: the claims behind it and
those of the other workers have other ones. -/
theorem WorkersInvariant.head_token_ne (h : WorkersInvariant s) {i j : ι}
    {claim claim' : OutboxClaim P} {rest : List (OutboxClaim P)}
    (hpending : (s.workers i).pending = claim :: rest) (hclaim' : claim' ∈ (s.workers j).pending)
    (hrest : j = i → claim' ∈ rest) : claim.leaseToken ≠ claim'.leaseToken := by
  intro he
  by_cases hj : j = i
  · have hnodup := h.nodup i
    rw [hpending, List.map_cons, List.nodup_cons] at hnodup
    exact hnodup.1 (he ▸ List.mem_map_of_mem (hrest hj))
  · have hclaim : claim ∈ (s.workers i).pending := hpending ▸ List.mem_cons_self
    exact hj (h.apart i j claim claim' hclaim hclaim' he).symm

theorem WorkersInvariant.token_ne (h : WorkersInvariant s) {i j : ι} {claim claim' : OutboxClaim P}
    {rest : List (OutboxClaim P)} {claimedAt : ℤ} {summary : OutboxSummary}
    (hpending : (s.workers i).pending = claim :: rest)
    (hclaim' : claim' ∈ ((s.setWorker i (.working claimedAt rest summary)).workers j).pending) :
    claim.leaseToken ≠ claim'.leaseToken := by
  have hsub : (OutboxWorker.working claimedAt rest summary).pending ⊆ (s.workers i).pending := by
    rw [hpending]
    exact List.subset_cons_self claim rest
  apply h.head_token_ne hpending (mem_pending_of_setWorker hsub hclaim')
  intro hj
  rw [workers_setWorker, if_pos hj] at hclaim'
  exact hclaim'

theorem WorkersInvariant.claim (h : WorkersInvariant s) (i : ι) (limit : ℤ) :
    WorkersInvariant ((s.call (.claimDue limit outboxLeaseMs s.now)).setWorker i
      (.working s.now (s.batch limit) {})) := by
  obtain ⟨hnodup,hfresh⟩ := h.batch_fresh limit
  have hcalled := h.call (.claimDue limit outboxLeaseMs s.now)
  have hpending (j : ι) : (((s.call (.claimDue limit outboxLeaseMs s.now)).setWorker i
      (.working s.now (s.batch limit) {})).workers j).pending =
        if j = i then s.batch limit else (s.workers j).pending := by
    rw [workers_setWorker]
    split_ifs <;> rfl
  -- the tokens of the batch are new, so no worker has one of them yet
  have hold (j : ι) (claim claim' : OutboxClaim P) (hclaim : claim ∈ (s.workers j).pending)
      (hclaim' : claim' ∈ s.batch limit) : claim.leaseToken ≠ claim'.leaseToken := fun he =>
    hfresh claim' hclaim' (he ▸ List.mem_map_of_mem (h.issued j claim hclaim))
  constructor
  case lease => exact hcalled.lease
  case issued =>
    intro j claim hclaim
    rw [hpending] at hclaim
    change claim ∈ claims (history (s.call (.claimDue limit outboxLeaseMs s.now)).log)
    split_ifs at hclaim
    · rw [claims_claimDue]
      exact List.mem_append_right _ hclaim
    · exact hcalled.issued j claim hclaim
  case nodup =>
    intro j
    rw [hpending]
    split_ifs
    · exact hnodup
    · exact h.nodup j
  case apart =>
    intro j k claim claim' hclaim hclaim' he
    rw [hpending] at hclaim hclaim'
    split_ifs at hclaim hclaim' with hj hk hk
    · exact hj.trans hk.symm
    · exact absurd he.symm (hold k claim' claim hclaim' hclaim)
    · exact absurd he (hold j claim claim' hclaim hclaim')
    · exact h.apart j k claim claim' hclaim hclaim' he

theorem WorkersInvariant.turn (h : WorkersInvariant s) {a : OutboxAction ι P} (ht : Turn s a t) :
    WorkersInvariant t := by
  cases ht with
  | tick now => exact ⟨h.lease, h.issued, h.nodup, h.apart⟩
  | enqueue effect systemNow => exact h.call _
  | claim i limit hcalled => exact h.claim i limit
  | start i claimedAt systemNow claim rest summary hworking =>
    have hsub : (OutboxWorker.handling claimedAt s.now claim rest summary).pending.Sublist
        (s.workers i).pending := by
      rw [hworking]
      exact List.Sublist.refl _
    have hset := h.setWorker hsub
    exact ⟨hset.lease, hset.issued, hset.nodup, hset.apart⟩
  | settle i claim rest c summary hpending _ _ =>
    have hsub : rest.Sublist (((s.call c).workers i).pending) := by
      have hsame : ((s.call c).workers i).pending = claim :: rest := hpending
      rw [hsame]
      exact List.sublist_cons_self claim rest
    exact (h.call c).setWorker hsub
  | returned i systemNow summary => exact h.setWorker (List.nil_sublist _)

theorem LeasesKept.claim (h : LeasesKept s) (hw : WorkersInvariant s) (i : ι) (limit : ℤ) :
    LeasesKept ((s.call (.claimDue limit outboxLeaseMs s.now)).setWorker i
      (.working s.now (s.batch limit) {})) := by
  have hself : (((s.call (.claimDue limit outboxLeaseMs s.now)).setWorker i
      (.working s.now (s.batch limit) {})).workers i) = .working s.now (s.batch limit) {} :=
    Function.update_self ..
  have hother (j : ι) (hj : j ≠ i) : (((s.call (.claimDue limit outboxLeaseMs s.now)).setWorker i
      (.working s.now (s.batch limit) {})).workers j) = s.workers j :=
    Function.update_of_ne hj ..
  constructor
  · intro j claim hclaim
    by_cases hj : j = i
    · subst hj
      rw [hself] at hclaim ⊢
      obtain ⟨row,_,_,hrow⟩ := mem_claimDue hclaim
      exact ⟨row, hrow⟩
    · rw [hother j hj] at hclaim ⊢
      exact h.claimed j claim hclaim
  · intro j claim hclaim
    by_cases hj : j = i
    · subst hj
      rw [hself] at hclaim
      exact Or.inl (kept_of_mem_claimDue hw.lease.indexed hclaim)
    · rw [hother j hj] at hclaim ⊢
      obtain ⟨hstatus,_,huntil⟩ := h.lease_eq hclaim
      rcases h.kept j claim hclaim with hkept | hover
      · -- another worker's claim takes expired leases only
        by_cases hle : s.now ≤ (s.workers j).claimedAt+outboxLeaseMs
        · exact Or.inl (kept_claimDue hw.lease hkept hstatus huntil hle limit outboxLeaseMs)
        · exact Or.inr (not_le.mp hle)
      · exact Or.inr hover

/-- Time does not go back. -/
def Forward (s : OutboxSystem ι P) : OutboxAction ι P → Prop
  | .tick now => s.now ≤ now
  | _ => True

theorem LeasesKept.turn (h : LeasesKept s) (hw : WorkersInvariant s) {a : OutboxAction ι P}
    (hforward : s.Forward a) (ht : Turn s a t) : LeasesKept t := by
  cases ht with
  | tick now => exact h.mono hforward (fun _ _ hclaim => ⟨hclaim, rfl⟩) fun _ _ _ hkept => hkept
  | enqueue effect systemNow =>
    exact h.mono le_rfl (fun _ _ hclaim => ⟨hclaim, rfl⟩)
      fun _ _ _ hkept => kept_enqueue hw.lease hkept effect s.now systemNow
  | claim i limit hcalled => exact h.claim hw i limit
  | start i claimedAt systemNow claim rest summary hworking =>
    have hsub : (OutboxWorker.handling claimedAt s.now claim rest summary).pending ⊆
        (s.workers i).pending := by
      rw [hworking]
      exact List.Subset.refl _
    have hat : claimedAt = (s.workers i).claimedAt := by
      rw [hworking]
      rfl
    exact h.mono le_rfl (fun _ _ hclaim => pending_setWorker hsub (fun _ => hat) hclaim)
      fun _ _ _ hkept => hkept
  | settle i claim rest c summary hpending _ hsettles =>
    have hsub : (OutboxWorker.working (s.workers i).claimedAt rest summary).pending ⊆
        ((s.call c).workers i).pending := by
      have hsame : ((s.call c).workers i).pending = claim :: rest := hpending
      rw [hsame]
      exact List.subset_cons_self claim rest
    refine h.mono le_rfl (fun _ _ hclaim => pending_setWorker hsub (fun _ => rfl) hclaim) ?_
    intro j claim' hclaim' hkept
    obtain ⟨hheld,_⟩ := pending_setWorker hsub (fun _ => rfl) hclaim'
    have hne := hw.token_ne hpending hclaim'
    obtain ⟨_,htoken,_⟩ := h.lease_eq hheld
    cases hsettles with
    | succeeded processedAt => exact kept_mark hkept htoken hne _
    | failed error retryAt dead now _ => exact kept_mark hkept htoken hne _
  | returned i systemNow summary =>
    have hsub : (OutboxWorker.returned summary : OutboxWorker P).pending ⊆
        (s.workers i).pending := List.nil_subset _
    exact h.mono le_rfl
      (fun _ _ hclaim => pending_setWorker hsub (fun hne => absurd rfl hne) hclaim)
      fun _ _ _ hkept => hkept

/-- The token of the claim is still on its row, and its lease is not over. -/
def LeaseHeld (s : OutboxSystem ι P) (claim : OutboxClaim P) : Prop :=
  ∃ row, s.store.rows.get claim.row.id = some row ∧ row.leaseToken = some claim.leaseToken ∧
    ∃ deadline, row.leaseUntil = some deadline ∧ s.now ≤ deadline

/-- In every run with a clock that does not go back, a handler is started under
the lease of its claim exactly if the lease time has not gone by since its batch
was claimed, however the handlers before it used that time. -/
theorem handler_started_under_lease_iff {handlers : ι → String → Bool} {now : ℤ}
    (hs : ReachesWhile (step handlers) Forward (start now) s) {i : ι} {claimedAt : ℤ}
    {claim : OutboxClaim P} (hstart : s.startsHandler handlers i = some (claimedAt, claim)) :
    s.LeaseHeld claim ↔ s.now ≤ claimedAt+outboxLeaseMs := by
  have hinv : WorkersInvariant s ∧ LeasesKept s :=
    hs.invariant (fun u => WorkersInvariant u ∧ LeasesKept u)
      (fun _ _ _ hu hforward hstep => ⟨hu.1.turn (turn_of_step hstep),
        hu.2.turn hu.1 hforward (turn_of_step hstep)⟩)
      ⟨workersInvariant_start now, leasesKept_start now⟩
  obtain ⟨hw,hk⟩ := hinv
  have hpending : claim ∈ (s.workers i).pending ∧ (s.workers i).claimedAt = claimedAt := by
    unfold startsHandler at hstart
    split at hstart
    · rename_i claimedAt' claim' rest summary hworking
      split_ifs at hstart
      obtain ⟨rfl,rfl⟩ := Prod.mk.inj (Option.some.inj hstart)
      rw [hworking]
      exact ⟨List.mem_cons_self, rfl⟩
    · cases hstart
  obtain ⟨hmem,hat⟩ := hpending
  obtain ⟨_,htoken,huntil⟩ := hk.lease_eq hmem
  rw [hat] at huntil
  constructor
  · rintro ⟨row,hrow,hrowToken,deadline,hdeadline,hle⟩
    have hsame : row = claim.row := hw.lease.row_eq (hw.issued i claim hmem) hrow hrowToken
    rw [hsame, huntil] at hdeadline
    rw [Option.some.inj hdeadline]
    exact hle
  · intro hle
    rcases hk.kept i claim hmem with hkept | hover
    · exact ⟨claim.row, hkept, htoken, _, huntil, hle⟩
    · omega

section SampleBatches

/-- Time passes only while no worker stands between two handlers, and every
handler takes less than a lease time. -/
def runsOn (now : ℤ) : OutboxWorker P → Bool
  | .working .. => false
  | .handling _ startedAt .. => now-startedAt < outboxLeaseMs
  | _ => true

def Brisk (s : OutboxSystem ι P) : OutboxAction ι P → Prop
  | .tick now => s.now ≤ now ∧ ∀ i, runsOn now (s.workers i) = true
  | _ => True

instance (s : OutboxSystem (Fin 2) P) (a : OutboxAction (Fin 2) P) : Decidable (s.Brisk a) := by
  unfold Brisk
  cases a <;> infer_instance

instance (s : OutboxSystem ι P) (a : OutboxAction ι P) : Decidable (s.Forward a) := by
  unfold Forward
  cases a <;> infer_instance

def anyHandler (_ : Fin 2) (_ : String) : Bool := true

def payout (key : String) : SettlementSideEffect Unit := ⟨key, "payout", "stream-1", (), none⟩

/-- Three rows in one batch; the first handler takes 50 seconds. -/
def threePayouts (worker : ι) : List (OutboxAction ι Unit) :=
  [.enqueue (payout "a") 0, .enqueue (payout "b") 0, .enqueue (payout "c") 0, .claim worker 50,
    .next worker 0, .tick 50000, .settle worker .resolved 50000]

/-- The second one takes 40 seconds more, and meanwhile the other worker has
claimed what was left of the batch. -/
def takeover (worker other : ι) : List (OutboxAction ι Unit) :=
  [.next worker 0, .tick 70000, .claim other 50, .next other 0, .tick 90000,
    .settle worker .resolved 90000]

def nextHandler (s : OutboxSystem (Fin 2) Unit) (worker : Fin 2) : Option (ℤ × String × String) :=
  (s.startsHandler anyHandler worker).map fun (claimedAt,claim) =>
    (claimedAt, claim.row.id, claim.leaseToken)

def tokenOf (s : OutboxSystem ι Unit) (id : String) : Option String :=
  (s.store.rows.get id).bind SettlementOutbox.leaseToken

theorem second_handler_started_under_lease :
    ∃ (s : OutboxSystem (Fin 2) Unit) (claim : OutboxClaim Unit),
      ReachesWhile (step anyHandler) Forward (start 0) s ∧
      s.startsHandler anyHandler 0 = some (0, claim) ∧ s.LeaseHeld claim := by
  have hrun : (execWhile (step anyHandler) Forward (start 0) (threePayouts 0)).map
      (fun s => (nextHandler s 0, s.now)) =
        some (some (0, "memory-outbox-2", "lease-memory-outbox-2-5"), 50000) := by
    decide +kernel
  obtain ⟨s,hs,hseen⟩ := Option.map_eq_some_iff.mp hrun
  obtain ⟨hnext,hnow⟩ := Prod.mk.inj hseen
  obtain ⟨⟨claimedAt,claim⟩,hstart,hclaim⟩ := Option.map_eq_some_iff.mp hnext
  obtain rfl : claimedAt = 0 := congrArg Prod.fst hclaim
  have hreach := reachesWhile_of_execWhile _ hs
  have hearly : s.now ≤ 0+outboxLeaseMs := by
    rw [hnow]
    decide
  exact ⟨s, claim, hreach, hstart, (handler_started_under_lease_iff hreach hstart).mpr hearly⟩

/-- After 90 seconds the first worker starts the third handler of its batch,
whose row has been leased to the second worker. -/
theorem third_handler_started_after_takeover :
    ¬ ∀ (handlers : Fin 2 → String → Bool) (now : ℤ) (s : OutboxSystem (Fin 2) Unit) (i : Fin 2)
      (claimedAt : ℤ) (claim : OutboxClaim Unit),
      ReachesWhile (step handlers) Brisk (start now) s →
      s.startsHandler handlers i = some (claimedAt, claim) → s.LeaseHeld claim := by
  intro h
  have hrun : (execWhile (step anyHandler) Brisk (start 0) (threePayouts 0 ++ takeover 0 1)).map
      (fun s => (nextHandler s 0, tokenOf s "memory-outbox-3")) =
        some (some (0, "memory-outbox-3", "lease-memory-outbox-3-6"),
          some "lease-memory-outbox-3-8") := by
    decide +kernel
  obtain ⟨s,hs,hseen⟩ := Option.map_eq_some_iff.mp hrun
  obtain ⟨hnext,htoken⟩ := Prod.mk.inj hseen
  obtain ⟨⟨claimedAt,claim⟩,hstart,hclaim⟩ := Option.map_eq_some_iff.mp hnext
  have hid : claim.row.id = "memory-outbox-3" := congrArg (fun x => x.2.1) hclaim
  have hissued : claim.leaseToken = "lease-memory-outbox-3-6" := congrArg (fun x => x.2.2) hclaim
  obtain ⟨row,hrow,hheld,_⟩ := h anyHandler 0 s 0 claimedAt claim
    (reachesWhile_of_execWhile _ hs) hstart
  rw [tokenOf, ← hid, hrow, Option.bind_some, hheld, hissued] at htoken
  exact absurd htoken (by decide)

end SampleBatches

end OutboxSystem

end StreamPay
