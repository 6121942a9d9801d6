import StreamPay.SettlementOutboxFailures
import StreamPay.SettlementOutboxSelection

/-! Until when a claim is in force: while no call has settled it and its row was not
claimed again. Beside the workers, others may call the store at any time. -/
namespace StreamPay
open Interleaving InMemorySettlementOutboxStore

namespace InMemorySettlementOutboxStore
variable {P : Type*} {log : OutboxLog P} {s : InMemorySettlementOutboxStore P}

/-- The latest claim of a row is still on the row unless it was settled. -/
structure HeldLeases (history : List (OutboxEvent P)) (s : InMemorySettlementOutboxStore P) :
    Prop where
  leased : ∀ claim ∈ claims history,
    claim.row.status = .processing ∧ claim.row.leaseToken = some claim.leaseToken
  held : ∀ claim ∈ claims history, claim.leaseToken ∉ settledTokens history →
    (claimsOf history claim.row.id).getLast? = some claim →
    s.rows.get claim.row.id = some claim.row

theorem heldLeases_empty : HeldLeases [] (empty : InMemorySettlementOutboxStore P) where
  leased claim h := by simp [claims] at h
  held claim h := by simp [claims] at h

theorem HeldLeases.claimDue (h : HeldLeases (history log) s) (hs : LeaseInvariant (history log) s)
    (limit leaseMs now : ℤ) :
    HeldLeases (history log ++ (s.claimDue limit leaseMs now).1.map .claimed)
      (s.claimDue limit leaseMs now).2 := by
  have hsettled : settledTokens (history log ++ (s.claimDue limit leaseMs now).1.map .claimed) =
      settledTokens (history log) := by
    rw [settledTokens_append]
    simp [settledTokens, OutboxEvent.settled?]
  constructor
  case leased =>
    intro claim hclaim
    rw [claims_append, claims_map_claimed, List.mem_append] at hclaim
    rcases hclaim with hold | hnew
    · exact h.leased claim hold
    · obtain ⟨row,_,_,hrow⟩ := mem_claimDue hnew
      rw [hrow]
      exact ⟨rfl, rfl⟩
  case held =>
    intro claim hclaim hunsettled hlast
    rw [hsettled] at hunsettled
    by_cases hnew : claim ∈ (s.claimDue limit leaseMs now).1
    · exact kept_of_mem_claimDue hs.indexed hnew
    · -- an old claim that is still the latest one: the batch did not take its row
      rw [claims_append, claims_map_claimed, List.mem_append] at hclaim
      rw [claimsOf_append, List.getLast?_append] at hlast
      have hold : claim ∈ claims (history log) := hclaim.resolve_right hnew
      cases hbatch : (claimsOf ((s.claimDue limit leaseMs now).1.map OutboxEvent.claimed)
          claim.row.id).getLast? with
      | some claim' =>
        rw [hbatch, Option.some_or] at hlast
        have hmem := List.mem_of_mem_filter (List.mem_of_getLast? hbatch)
        rw [claims_map_claimed, Option.some.inj hlast] at hmem
        exact absurd hmem hnew
      | none =>
        rw [hbatch, Option.none_or] at hlast
        have hnone := List.getLast?_eq_none_iff.mp hbatch
        rw [claimsOf, claims_map_claimed, List.filter_eq_nil_iff] at hnone
        have hothers := hs.indexed.claimDue_others limit leaseMs now claim.row.id
          fun claim' hclaim' he => hnone claim' hclaim' (by simp [he])
        rw [hothers]
        exact h.held claim hold hunsettled hlast

/-- A mark that is accepted settles its token, and other claims are left alone. -/
theorem HeldLeases.settle (h : HeldLeases (history log) s) {id token : String}
    {f : SettlementOutbox P → SettlementOutbox P} {event : OutboxEvent P}
    (hclaim : event.claim? = none) (hsettled : event.settled? = some token) :
    HeldLeases (history log ++ [event]) (s.mark id token f).2 := by
  have hclaims : claims (history log ++ [event]) = claims (history log) := by
    rw [claims_append]
    simp [claims, hclaim]
  have htokens : settledTokens (history log ++ [event]) =
      settledTokens (history log) ++ [token] := by
    rw [settledTokens_append]
    simp [settledTokens, hsettled]
  constructor
  case leased =>
    rw [hclaims]
    exact h.leased
  case held =>
    intro claim hmem hunsettled hlast
    rw [hclaims] at hmem
    rw [htokens, List.mem_append, List.mem_singleton, not_or] at hunsettled
    rw [claimsOf, hclaims] at hlast
    have hkept := h.held claim hmem hunsettled.1 hlast
    exact kept_mark hkept (h.leased claim hmem).2 (Ne.symm hunsettled.2) f

theorem HeldLeases.settling (h : HeldLeases (history log) s) {c : StoreCall P} {token : String}
    (hc : c.token? = some token) :
    HeldLeases (history (log ++ [(c, (perform s c).1)])) (perform s c).2 := by
  rw [history_snoc]
  rcases OutboxSystem.settling_cases s hc with
    ⟨hevents,hsame⟩ | ⟨event,id,f,hevents,hclaim,hsettled,hafter⟩
  · rw [hevents, hsame, List.append_nil]
    exact h
  · rw [hevents, hafter]
    exact h.settle hclaim hsettled

theorem HeldLeases.perform (h : HeldLeases (history log) s) (hs : LeaseInvariant (history log) s)
    (c : StoreCall P) :
    HeldLeases (history (log ++ [(c, (perform s c).1)])) (perform s c).2 := by
  cases c with
  | enqueue effect clock now =>
    have hnone : outboxEvents (.enqueue effect clock now,
        (StreamPay.perform s (.enqueue effect clock now)).1) = [] := rfl
    rw [history_snoc, hnone, List.append_nil]
    refine ⟨h.leased, fun claim hmem hunsettled hlast => ?_⟩
    exact kept_enqueue hs (h.held claim hmem hunsettled hlast) effect clock now
  | claimDue limit leaseMs now =>
    rw [history_snoc]
    exact h.claimDue hs limit leaseMs now
  | markSucceeded id token processedAt => exact h.settling rfl
  | markFailed id token error retryAt dead now => exact h.settling rfl

end InMemorySettlementOutboxStore

/-- The turns of the workers, and calls that others make of the store in between. -/
inductive SharedAction (ι P : Type*)
  | turn (a : OutboxAction ι P)
  | other (c : StoreCall P)

namespace OutboxSystem
variable {ι P : Type*} {s t : OutboxSystem ι P} {i : ι} {claim : OutboxClaim P}

/-- The row was claimed again after the claim. -/
def takenOver (s : OutboxSystem ι P) (claim : OutboxClaim P) : Bool :=
  (claimsOf (history s.log) claim.row.id).getLast?.map OutboxClaim.leaseToken ≠
    some claim.leaseToken

/-- The others settle rows under their own leases, not under those of worker `i`. -/
def OwnLeases (i : ι) (s : OutboxSystem ι P) : SharedAction ι P → Prop
  | .turn _ => True
  | .other c => ∀ claim ∈ (s.workers i).pending, c.token? ≠ some claim.leaseToken

/-- The claims that worker `i` has still to settle are in force until they are taken over. -/
structure InForce (i : ι) (s : OutboxSystem ι P) : Prop where
  workers : WorkersInvariant s
  leases : HeldLeases (history s.log) s.store
  unsettled : ∀ claim ∈ (s.workers i).pending, claim.leaseToken ∉ settledTokens (history s.log)

theorem inForce_start (i : ι) (now : ℤ) : InForce i (start now : OutboxSystem ι P) where
  workers := workersInvariant_start now
  leases := heldLeases_empty
  unsettled claim h := by simp [start, OutboxWorker.pending] at h

theorem settledTokens_of_no_token {c : StoreCall P} (hc : c.token? = none)
    (store : InMemorySettlementOutboxStore P) :
    settledTokens (outboxEvents (c, (perform store c).1)) = [] := by
  cases c with
  | enqueue effect clock now => exact quiet_enqueue store effect clock now
  | claimDue limit leaseMs now => exact quiet_claimDue store limit leaseMs now
  | markSucceeded id token processedAt => cases hc
  | markFailed id token error retryAt dead now => cases hc

/-- A call under no token, or under that of another claim, settles this one not. -/
theorem unsettled_call {token : String} (h : token ∉ settledTokens (history s.log))
    {c : StoreCall P} (hc : c.token? ≠ some token) :
    token ∉ settledTokens (history (s.call c).log) := by
  rw [history_call, settledTokens_append, List.mem_append, not_or]
  refine ⟨h, fun hmem => ?_⟩
  cases htoken : c.token? with
  | none =>
    rw [settledTokens_of_no_token htoken] at hmem
    cases hmem
  | some token' =>
    have hsame := List.mem_singleton.mp (settledTokens_of_token htoken s.store hmem)
    rw [htoken, hsame] at hc
    exact hc rfl

theorem InForce.call (h : InForce i s) {c : StoreCall P}
    (hc : ∀ claim ∈ (s.workers i).pending, c.token? ≠ some claim.leaseToken) :
    InForce i (s.call c) where
  workers := h.workers.call c
  leases := h.leases.perform h.workers.lease c
  unsettled claim hclaim := unsettled_call (h.unsettled claim hclaim) (hc claim hclaim)

/-- As long as it was not taken over, the row of the claim is as it was claimed. -/
theorem InForce.row_eq (h : InForce i s) (hclaim : claim ∈ (s.workers i).pending)
    (hkept : s.takenOver claim = false) : s.store.rows.get claim.row.id = some claim.row := by
  have hissued := h.workers.issued i claim hclaim
  have hlatest : (claimsOf (history s.log) claim.row.id).getLast?.map OutboxClaim.leaseToken =
      some claim.leaseToken := by simpa [takenOver] using hkept
  obtain ⟨last,hlast,hsame⟩ := Option.map_eq_some_iff.mp hlatest
  have hmem : last ∈ claims (history s.log) :=
    List.mem_of_mem_filter (List.mem_of_getLast? hlast)
  obtain rfl : last = claim :=
    List.inj_on_of_nodup_map h.workers.lease.distinct hmem hissued hsame
  exact h.leases.held last hissued (h.unsettled last hclaim) hlast

/-- A claim in force is settled if it was not taken over, and refused otherwise. -/
theorem InForce.mark_eq (h : InForce i s) (hclaim : claim ∈ (s.workers i).pending)
    (f : SettlementOutbox P → SettlementOutbox P) :
    s.store.mark claim.row.id claim.leaseToken f =
      if s.takenOver claim then (false, s.store)
      else (true, { s.store with rows := s.store.rows.set claim.row.id (f claim.row) }) := by
  cases hover : s.takenOver claim with
  | true =>
    rw [if_pos rfl]
    rcases mark_cases s.store claim.row.id claim.leaseToken f with
      hrefused | ⟨row,hrow,_,hrowToken,_⟩
    · exact hrefused
    · -- a row with the token would be under its latest claim
      have hlast := h.workers.lease.current claim.row.id row claim.leaseToken hrow hrowToken
      simp [takenOver, hlast] at hover
  | false =>
    obtain ⟨hstatus,htoken⟩ := h.leases.leased claim (h.workers.issued i claim hclaim)
    have hrow := h.row_eq hclaim hover
    simp [mark, hrow, hstatus, htoken]

/-- The tokens of a new batch were never issued, so none of them was settled. -/
theorem WorkersInvariant.batch_unsettled (h : WorkersInvariant s) {limit : ℤ}
    (hclaim : claim ∈ s.batch limit) : claim.leaseToken ∉ settledTokens (history s.log) := by
  intro hmem
  exact (h.batch_fresh limit).2 claim hclaim (h.lease.settled claim.leaseToken hmem).1

variable [DecidableEq ι]

def sharedStep (handlers : ι → String → Bool) (s : OutboxSystem ι P) :
    SharedAction ι P → Option (OutboxSystem ι P)
  | .turn a => step handlers s a
  | .other c => some (s.call c)

theorem InForce.setWorker (h : InForce i s) {j : ι} {worker : OutboxWorker P}
    (hw : WorkersInvariant (s.setWorker j worker))
    (hworker : ∀ claim ∈ worker.pending, claim.leaseToken ∉ settledTokens (history s.log)) :
    InForce i (s.setWorker j worker) where
  workers := hw
  leases := h.leases
  unsettled claim hclaim := by
    rw [workers_setWorker] at hclaim
    split_ifs at hclaim
    · exact hworker claim hclaim
    · exact h.unsettled claim hclaim

theorem InForce.turn (h : InForce i s) {a : OutboxAction ι P} (ht : Turn s a t) : InForce i t := by
  have hw := h.workers.turn ht
  cases ht with
  | tick now => exact ⟨hw, h.leases, h.unsettled⟩
  | enqueue effect systemNow => exact h.call fun _ _ => by simp [StoreCall.token?]
  | claim j limit hcalled =>
    have hcall : InForce i (s.call (.claimDue limit outboxLeaseMs s.now)) :=
      h.call fun _ _ => by simp [StoreCall.token?]
    exact hcall.setWorker hw fun claim hclaim =>
      unsettled_call (h.workers.batch_unsettled hclaim) (by simp [StoreCall.token?])
  | start j claimedAt systemNow claim rest summary hworking =>
    have hsub : (OutboxWorker.handling claimedAt s.now claim rest summary).pending ⊆
        (s.workers j).pending := by
      rw [hworking]
      exact List.Subset.refl _
    refine ⟨hw, h.leases, fun claim' hclaim' => ?_⟩
    exact h.unsettled claim' (mem_pending_of_setWorker hsub hclaim')
  | settle j claim rest c summary hpending _ hsettles =>
    have hsub : (OutboxWorker.working (s.workers j).claimedAt rest summary).pending ⊆
        (s.workers j).pending := by
      rw [hpending]
      exact List.subset_cons_self claim rest
    refine ⟨hw, h.leases.perform h.workers.lease c, fun claim' hclaim' => ?_⟩
    -- what is left of the batch of the worker was in its hands before, under other tokens
    have hheld : claim' ∈ (s.workers i).pending := mem_pending_of_setWorker hsub hclaim'
    have hne := h.workers.token_ne hpending hclaim'
    have hother : c.token? ≠ some claim'.leaseToken := by
      rw [hsettles.token_eq]
      exact fun he => hne (Option.some.inj he)
    exact unsettled_call (h.unsettled claim' hheld) hother
  | returned j systemNow summary => exact h.setWorker hw fun claim hclaim => by cases hclaim

theorem InForce.step (h : InForce i s) {handlers : ι → String → Bool} {a : SharedAction ι P}
    (hown : OwnLeases i s a) (ht : sharedStep handlers s a = some t) : InForce i t := by
  cases a with
  | turn a => exact h.turn (turn_of_step ht)
  | other c =>
    obtain rfl := Option.some.inj ht
    exact h.call hown

end OutboxSystem

end StreamPay
