import Mathlib.Algebra.Order.BigOperators.Group.List
import Mathlib.Algebra.Order.Ring.Int
import StreamPay.Library.InsertionMapSums
import StreamPay.SettlementOutboxSelection

/-! Calls of `processDue` made one after the other: whatever their handlers do, they come
to an end with every row of the in-memory outbox. -/
namespace StreamPay
open Interleaving InMemorySettlementOutboxStore Lockstep

variable {P : Type*}

/-- What a call of `processDue` meets: its clock, at the claim and when a claim is settled,
the clock of the store, and what the handlers do. -/
structure Encounter (P : Type*) where
  now : ℤ
  outcome : OutboxClaim P → HandlerOutcome
  settledAt : OutboxClaim P → ℤ
  systemNow : OutboxClaim P → ℤ

namespace SettlementOutboxService

/-- One turn of the loop over the claims. -/
def handleClaim (handlers : String → Bool) (e : Encounter P)
    (state : OutboxSummary × InMemorySettlementOutboxStore P) (claim : OutboxClaim P) :
    OutboxSummary × InMemorySettlementOutboxStore P :=
  let (summary,s) := state
  if handlers claim.row.eventType then
    match e.outcome claim with
    | .resolved =>
      let (succeeded,s') := s.markSucceeded claim.row.id claim.leaseToken (e.settledAt claim)
      (if succeeded then { summary with succeeded := summary.succeeded+1 }
        else { summary with skipped := summary.skipped+1 }, s')
    | .rejected message =>
      let isDead := decide (claim.row.attempts ≥ claim.row.maxAttempts)
      let retryAt := e.settledAt claim+retryDelay claim.row.attempts
      let (marked,s') :=
        s.markFailed claim.row.id claim.leaseToken message retryAt isDead (e.systemNow claim)
      (if marked then
          if isDead then { summary with dead := summary.dead+1 }
          else { summary with retried := summary.retried+1 }
        else { summary with skipped := summary.skipped+1 }, s')
  else
    let (dead,s') := s.markFailed claim.row.id claim.leaseToken (noHandler claim.row.eventType)
      (e.settledAt claim) true (e.systemNow claim)
    (if dead then { summary with dead := summary.dead+1 }
      else { summary with skipped := summary.skipped+1 }, s')

def processDue (handlers : String → Bool) (limit : ℤ) (s : InMemorySettlementOutboxStore P)
    (e : Encounter P) : OutboxSummary × InMemorySettlementOutboxStore P :=
  let (claims,s') := s.claimDue limit outboxLeaseMs e.now
  claims.foldl (handleClaim handlers e) ({}, s')

end SettlementOutboxService

open SettlementOutboxService

/-- The turns in which worker `i` handles a claim. -/
def turnsOf {ι : Type*} (i : ι) (handlers : String → Bool) (e : Encounter P)
    (claim : OutboxClaim P) : List (OutboxAction ι P) :=
  [.tick (e.settledAt claim), .next i (e.systemNow claim)] ++
    if handlers claim.row.eventType then [.settle i (e.outcome claim) (e.systemNow claim)] else []

section Alone
variable {ι : Type*} [DecidableEq ι] {i : ι}

theorem exec_turnsOf (handlers : String → Bool) (e : Encounter P) {s : OutboxSystem ι P}
    {claimedAt : ℤ} {claim : OutboxClaim P} {rest : List (OutboxClaim P)} {summary : OutboxSummary}
    (hworking : s.workers i = .working claimedAt (claim :: rest) summary) :
    ∃ t, exec (OutboxSystem.step fun _ => handlers) s (turnsOf i handlers e claim) = some t ∧
      t.workers i =
        .working claimedAt rest (handleClaim handlers e (summary, s.store) claim).1 ∧
      t.store = (handleClaim handlers e (summary, s.store) claim).2 := by
  cases hhandler : handlers claim.row.eventType with
  | false =>
    simp only [turnsOf, hhandler, Bool.false_eq_true, ↓reduceIte, List.append_nil, exec,
      OutboxSystem.step, hworking, Option.bind_some, OutboxSystem.setWorker, handleClaim,
      OutboxSystem.call]
    exact ⟨_, rfl, Function.update_self i _ _, rfl⟩
  | true =>
    cases houtcome : e.outcome claim <;>
      simp only [turnsOf, hhandler, houtcome, ↓reduceIte, List.cons_append, List.nil_append, exec,
        OutboxSystem.step, hworking, Option.bind_some, OutboxSystem.setWorker,
        Function.update_self, handleClaim, OutboxSystem.call, Option.some.injEq, exists_eq_left',
        true_and] <;> rfl

/-- A worker that no other one disturbs does what `processDue` does. -/
theorem exec_processDue (handlers : String → Bool) (limit : ℤ) (e : Encounter P)
    {s : OutboxSystem ι P} (hnow : s.now = e.now) (hcalled : s.workers i = .called) :
    ∃ actions t, exec (OutboxSystem.step fun _ => handlers) s actions = some t ∧
      t.workers i = .returned (processDue handlers limit s.store e).1 ∧
      t.store = (processDue handlers limit s.store e).2 := by
  have hloop (claims : List (OutboxClaim P)) : ∀ (s : OutboxSystem ι P) (summary : OutboxSummary),
      s.workers i = .working e.now claims summary → ∃ actions t,
        exec (OutboxSystem.step fun _ => handlers) s actions = some t ∧
        t.workers i = .returned (claims.foldl (handleClaim handlers e) (summary, s.store)).1 ∧
        t.store = (claims.foldl (handleClaim handlers e) (summary, s.store)).2 := by
    induction claims with
    | nil =>
      intro s summary hworking
      refine ⟨[.next i 0], s.setWorker i (.returned summary), ?_, ?_, rfl⟩
      · simp only [exec, OutboxSystem.step, hworking, Option.bind_some]
      · exact Function.update_self i _ _
    | cons claim rest ih =>
      intro s summary hworking
      obtain ⟨t,ht,hworker,hstore⟩ := exec_turnsOf handlers e hworking
      obtain ⟨actions,u,hu,hreturned,hend⟩ := ih t _ hworker
      rw [hstore] at hreturned hend
      refine ⟨turnsOf i handlers e claim ++ actions, u, ?_, hreturned, hend⟩
      rw [exec_append, ht, Option.bind_some, hu]
  let claims := (s.store.claimDue limit outboxLeaseMs s.now).1
  let claimed := (s.call (.claimDue limit outboxLeaseMs s.now)).setWorker i
    (.working s.now claims {})
  have hclaim : OutboxSystem.step (fun _ => handlers) s (.claim i limit) = some claimed := by
    simp only [OutboxSystem.step, hcalled, claimed, claims]
  have hworking : claimed.workers i = .working e.now claims {} := by
    rw [← hnow]
    exact Function.update_self i _ _
  obtain ⟨actions,t,ht,hreturned,hend⟩ := hloop claims claimed {} hworking
  refine ⟨.claim i limit :: actions, t, ?_, ?_, ?_⟩
  · rw [exec, hclaim, Option.bind_some, ht]
  · rw [hreturned, processDue, ← hnow]
    rfl
  · rw [hend, processDue, ← hnow]
    rfl

end Alone

/-- The row of a claim once the claim is settled. -/
def settled (handlers : String → Bool) (e : Encounter P) (claim : OutboxClaim P) :
    SettlementOutbox P :=
  if handlers claim.row.eventType then
    match e.outcome claim with
    | .resolved => claim.row.succeed (e.settledAt claim)
    | .rejected message => claim.row.failWith message
        (e.settledAt claim+retryDelay claim.row.attempts)
        (decide (claim.row.attempts ≥ claim.row.maxAttempts)) (e.systemNow claim)
  else claim.row.failWith (noHandler claim.row.eventType) (e.settledAt claim) true
    (e.systemNow claim)

theorem settled_cases (handlers : String → Bool) (e : Encounter P) (claim : OutboxClaim P) :
    settled handlers e claim = claim.row.succeed (e.settledAt claim) ∨
    ∃ error retryAt dead now, settled handlers e claim = claim.row.failWith error retryAt dead now ∧
      retryAt ≤ e.settledAt claim+900000 ∧
      (dead = false → claim.row.attempts < claim.row.maxAttempts) ∧
      (dead = true → handlers claim.row.eventType = false ∨
        claim.row.maxAttempts ≤ claim.row.attempts) := by
  unfold settled
  split_ifs with hhandler
  · cases e.outcome claim with
    | resolved => exact Or.inl rfl
    | rejected message =>
      refine Or.inr ⟨message, _, _, _, rfl, ?_, ?_, ?_⟩
      · exact Int.add_le_add_left (retryDelay_bounds claim.row.attempts).2 _
      · exact fun hdead => not_le.mp (of_decide_eq_false hdead)
      · exact fun hdead => Or.inr (of_decide_eq_true hdead)
  · refine Or.inr ⟨_, _, _, _, rfl, by omega, ?_, ?_⟩
    · intro hdead
      cases hdead
    · exact fun _ => Or.inl (Bool.eq_false_iff.mpr hhandler)

/-- The claim is the one its row is processed under. -/
structure Held (s : InMemorySettlementOutboxStore P) (claim : OutboxClaim P) : Prop where
  row : s.rows.get claim.row.id = some claim.row
  status : claim.row.status = .processing
  token : claim.row.leaseToken = some claim.leaseToken

theorem Held.mark {s : InMemorySettlementOutboxStore P} {claim : OutboxClaim P} (h : Held s claim)
    (f : SettlementOutbox P → SettlementOutbox P) :
    s.mark claim.row.id claim.leaseToken f =
      (true, { s with rows := s.rows.set claim.row.id (f claim.row) }) := by
  unfold InMemorySettlementOutboxStore.mark
  simp [h.row, h.status, h.token]

/-- How many claims a summary counts. -/
def OutboxSummary.handled (summary : OutboxSummary) : ℕ :=
  summary.succeeded+summary.retried+summary.dead

/-- A claim that is still held is settled and counted. -/
theorem Held.handleClaim {s : InMemorySettlementOutboxStore P} {claim : OutboxClaim P}
    (h : Held s claim) (handlers : String → Bool) (e : Encounter P) (summary : OutboxSummary) :
    (handleClaim handlers e (summary, s) claim).2 =
      { s with rows := s.rows.set claim.row.id (settled handlers e claim) } ∧
    (handleClaim handlers e (summary, s) claim).1.handled = summary.handled+1 ∧
    (handleClaim handlers e (summary, s) claim).1.skipped = summary.skipped := by
  unfold SettlementOutboxService.handleClaim settled
  split_ifs with hhandler
  · cases e.outcome claim with
    | resolved =>
      simp only [markSucceeded, h.mark, ↓reduceIte, OutboxSummary.handled, true_and, and_true]
      omega
    | rejected message =>
      simp only [markFailed, h.mark, ↓reduceIte, OutboxSummary.handled, true_and]
      split_ifs <;> exact ⟨by dsimp only; omega, rfl⟩
  · simp only [markFailed, h.mark, ↓reduceIte, OutboxSummary.handled, true_and, and_true]
    omega

/-- What each claim keeps as it is settled, the whole loop keeps; the claims are of
different rows, so each is still held when its turn comes. -/
theorem handleClaims_invariant (handlers : String → Bool) (e : Encounter P)
    (I : List (OutboxClaim P) → InMemorySettlementOutboxStore P → Prop)
    {s : InMemorySettlementOutboxStore P} {claims : List (OutboxClaim P)}
    (hids : (claims.map fun claim => claim.row.id).Nodup) (hheld : ∀ claim ∈ claims, Held s claim)
    (hstep : ∀ before t claim, claim ∈ claims →
      claim.row.id ∉ (before.map fun claim => claim.row.id) → Held t claim → I before t →
      I (before ++ [claim])
        { t with rows := t.rows.set claim.row.id (settled handlers e claim) })
    (h : I [] s) (summary : OutboxSummary) :
    let state := claims.foldl (handleClaim handlers e) (summary, s)
    I claims state.2 ∧ state.1.handled = summary.handled+claims.length ∧
      state.1.skipped = summary.skipped := by
  -- along the claims, with those that are settled in front
  have hfrom : ∀ before t summary,
      ((before ++ claims).map fun claim => claim.row.id).Nodup →
      (∀ claim ∈ claims, Held t claim) → I before t →
      let state := claims.foldl (handleClaim handlers e) (summary, t)
      I (before ++ claims) state.2 ∧ state.1.handled = summary.handled+claims.length ∧
        state.1.skipped = summary.skipped := by
    clear hids hheld h s summary
    induction claims with
    | nil =>
      intro before t summary _ _ ht
      exact ⟨by rwa [List.append_nil], rfl, rfl⟩
    | cons claim rest ih =>
      intro before t summary hids hheld ht
      have hclaim := hheld claim List.mem_cons_self
      obtain ⟨hstore,hhandled,hskipped⟩ := hclaim.handleClaim handlers e summary
      have hfront : claim.row.id ∉ (before.map fun claim => claim.row.id) := by
        rw [List.map_append, List.map_cons, List.nodup_append] at hids
        exact fun hmem => hids.2.2 _ hmem _ List.mem_cons_self rfl
      have hback : ∀ other ∈ rest, other.row.id ≠ claim.row.id := by
        rw [List.map_append, List.map_cons, List.nodup_append, List.nodup_cons] at hids
        exact fun other hother he => hids.2.1.1 (he ▸ List.mem_map_of_mem hother)
      have hfirst := hstep before t claim List.mem_cons_self hfront hclaim ht
      have hrest : ∀ other ∈ rest, Held (handleClaim handlers e (summary, t) claim).2 other := by
        intro other hother
        have hold := hheld other (List.mem_cons_of_mem _ hother)
        refine ⟨?_, hold.status, hold.token⟩
        rw [hstore, InsertionMap.get_set_of_ne _ _ (hback other hother)]
        exact hold.row
      have hnext := ih (fun before t other hother => hstep before t other
        (List.mem_cons_of_mem _ hother)) (before ++ [claim])
        (handleClaim handlers e (summary, t) claim).2
        (handleClaim handlers e (summary, t) claim).1 (by
          rw [List.append_assoc]
          exact hids) hrest (hstore ▸ hfirst)
      rw [List.append_assoc, hhandled, hskipped] at hnext
      obtain ⟨hafter,hcount,hsame⟩ := hnext
      refine ⟨hafter, ?_, hsame⟩
      rw [List.foldl_cons, List.length_cons, ← Nat.add_assoc, Nat.add_right_comm]
      exact hcount
  exact hfrom [] s summary (by rwa [List.nil_append]) hheld h

namespace SettlementOutbox

/-- No call claims the row again. -/
def IsFinal (row : SettlementOutbox P) : Prop := row.status = .succeeded ∨ row.status = .dead

/-- The attempts that are left to a row; there is always one for a row that is not final. -/
def chances (row : SettlementOutbox P) : ℤ :=
  match row.status with
  | .succeeded | .dead => 0
  | _ => max 1 (row.maxAttempts-row.attempts)

theorem chances_nonneg (row : SettlementOutbox P) : 0 ≤ row.chances := by
  unfold chances
  split <;> omega

theorem isFinal_of_chances {row : SettlementOutbox P} (h : row.chances ≤ 0) : row.IsFinal := by
  unfold chances at h
  split at h
  · exact Or.inl ‹_›
  · exact Or.inr ‹_›
  · omega

theorem chances_of_processing {row : SettlementOutbox P} (h : row.status = .processing) :
    row.chances = max 1 (row.maxAttempts-row.attempts) := by
  rw [chances, h]

end SettlementOutbox

/-- A row is claimed for its last attempt. -/
def lastChance (claim : OutboxClaim P) : ℤ :=
  if claim.row.maxAttempts ≤ claim.row.attempts then 1 else 0

/-- A lease takes an attempt from a row, and the last one only when it is settled. -/
theorem chances_leased {row : SettlementOutbox P} {now : ℤ} (hdue : row.isDue now = true)
    (claim : OutboxClaim P) {leaseMs : ℤ}
    (hclaim : claim.row = leased row leaseMs now claim.leaseToken) :
    claim.row.chances+1 = row.chances+lastChance claim := by
  have hstatus := status_of_isDue hdue
  have hbefore : row.chances = max 1 (row.maxAttempts-row.attempts) := by
    rw [SettlementOutbox.chances]
    rcases hstatus with hp | hp <;> rw [hp]
  have hafter : claim.row.status = .processing := by rw [hclaim]; rfl
  have hattempts : claim.row.attempts = row.attempts+1 := by rw [hclaim]; rfl
  have hmax : claim.row.maxAttempts = row.maxAttempts := by rw [hclaim]; rfl
  rw [SettlementOutbox.chances_of_processing hafter, hbefore, lastChance, hattempts, hmax]
  split_ifs <;> omega

theorem chances_settled (handlers : String → Bool) (e : Encounter P) {claim : OutboxClaim P}
    (h : claim.row.status = .processing) :
    (settled handlers e claim).chances+lastChance claim ≤ claim.row.chances := by
  rw [SettlementOutbox.chances_of_processing h, lastChance]
  rcases settled_cases handlers e claim with
    hsucceeded | ⟨error,retryAt,dead,now,hfailed,_,halive,_⟩
  · rw [hsucceeded]
    change 0+_ ≤ _
    split_ifs <;> omega
  · rw [hfailed]
    cases dead with
    | true =>
      change 0+_ ≤ _
      split_ifs <;> omega
    | false =>
      have hleft := halive rfl
      change max 1 (claim.row.maxAttempts-claim.row.attempts)+_ ≤ _
      split_ifs <;> omega

namespace InMemorySettlementOutboxStore
variable {s : InMemorySettlementOutboxStore P}

/-- The attempts that are left to all rows. -/
def chances (s : InMemorySettlementOutboxStore P) : ℤ :=
  (s.snapshot.map SettlementOutbox.chances).sum

theorem chances_set {id : String} {row : SettlementOutbox P} (hrow : s.rows.get id = some row)
    (row' : SettlementOutbox P) (n : ℕ) :
    chances ⟨s.rows.set id row', s.keys, n⟩+row.chances = s.chances+row'.chances :=
  InsertionMap.sum_values_set SettlementOutbox.chances hrow row'

theorem chances_nonneg (s : InMemorySettlementOutboxStore P) : 0 ≤ s.chances := by
  apply List.sum_nonneg
  intro n hn
  obtain ⟨row,_,rfl⟩ := List.mem_map.mp hn
  exact row.chances_nonneg

theorem chances_of_isFinal (h : ∀ row ∈ s.snapshot, row.IsFinal) : s.chances = 0 := by
  apply List.sum_eq_zero
  intro n hn
  obtain ⟨row,hrow,rfl⟩ := List.mem_map.mp hn
  rcases h row hrow with hfinal | hfinal <;> rw [SettlementOutbox.chances, hfinal]

/-- No attempts are left only to rows that are final. -/
theorem isFinal_of_chances (h : s.chances ≤ 0) : ∀ row ∈ s.snapshot, row.IsFinal := by
  intro row hrow
  apply SettlementOutbox.isFinal_of_chances
  have hle : row.chances ≤ s.chances := by
    apply List.single_le_sum
    · intro n hn
      obtain ⟨row,_,rfl⟩ := List.mem_map.mp hn
      exact row.chances_nonneg
    · exact List.mem_map_of_mem hrow
  exact hle.trans h

theorem Indexed.claims_ids_nodup (hs : s.Indexed) (limit leaseMs now : ℤ) :
    ((s.claimDue limit leaseMs now).1.map fun claim => claim.row.id).Nodup := by
  rw [claimDue_eq, ids_of_leases (claimRows_leases leaseMs now _ s)]
  exact hs.taken_ids_nodup limit now

theorem Indexed.held_of_claimDue (hs : s.Indexed) {limit leaseMs now : ℤ} {claim : OutboxClaim P}
    (h : claim ∈ (s.claimDue limit leaseMs now).1) :
    Held (s.claimDue limit leaseMs now).2 claim where
  row := kept_of_mem_claimDue hs h
  status := by
    obtain ⟨row,_,_,hrow⟩ := mem_claimDue h
    rw [hrow]
    rfl
  token := by
    obtain ⟨row,_,_,hrow⟩ := mem_claimDue h
    rw [hrow]
    rfl

theorem Indexed.chances_claimDue (hs : s.Indexed) (limit leaseMs now : ℤ) :
    (s.claimDue limit leaseMs now).2.chances+(s.claimDue limit leaseMs now).1.length =
      s.chances+((s.claimDue limit leaseMs now).1.map lastChance).sum := by
  rw [claimDue_eq]
  apply claimRows_invariant leaseMs now (fun claims t => t.chances+claims.length =
    s.chances+(claims.map lastChance).sum) (hs.taken_ids_nodup limit now)
  · intro claims t row hrow hget ht
    let claim := (t.claimRow row leaseMs now).1
    have hset : (t.claimRow row leaseMs now).2.chances+row.chances = t.chances+claim.row.chances :=
      chances_set hget claim.row (t.sequence+1)
    have hleased : claim.row.chances+1 = row.chances+lastChance claim :=
      chances_leased (mem_taken hrow).2 claim rfl
    rw [List.length_append, List.length_singleton, List.map_append, List.sum_append,
      List.map_singleton, List.sum_singleton, Nat.cast_add, Nat.cast_one]
    change _ = _+(_+lastChance claim)
    omega
  · exact fun row hrow => hs.get_of_mem (mem_taken hrow).1
  · rfl

/-- A call settles every claim that it makes, and takes an attempt for each. -/
theorem Indexed.chances_processDue (hs : s.Indexed) (handlers : String → Bool) (limit : ℤ)
    (e : Encounter P) :
    (processDue handlers limit s e).2.chances+(processDue handlers limit s e).1.handled ≤
      s.chances ∧
    (processDue handlers limit s e).1.handled =
      (s.claimDue limit outboxLeaseMs e.now).1.length ∧
    (processDue handlers limit s e).1.skipped = 0 := by
  have hclaims := hs.chances_claimDue limit outboxLeaseMs e.now
  have hloop := handleClaims_invariant handlers e
    (fun before t => t.chances+(before.map lastChance).sum ≤
      (s.claimDue limit outboxLeaseMs e.now).2.chances)
    (hs.claims_ids_nodup limit outboxLeaseMs e.now) (fun claim hclaim => hs.held_of_claimDue hclaim)
    ?_ (Int.add_zero _).le {}
  · obtain ⟨hchances,hhandled,hskipped⟩ := hloop
    have hcount : (processDue handlers limit s e).1.handled =
        (s.claimDue limit outboxLeaseMs e.now).1.length := hhandled.trans (Nat.zero_add _)
    refine ⟨?_, hcount, hskipped⟩
    rw [hcount]
    change (processDue handlers limit s e).2.chances+_ ≤ _ at hchances
    omega
  · intro before t claim _ _ hheld ht
    have hset : chances { t with
        rows := t.rows.set claim.row.id (settled handlers e claim) }+claim.row.chances =
        t.chances+(settled handlers e claim).chances :=
      chances_set hheld.row (settled handlers e claim) t.sequence
    have hsettled := chances_settled handlers e hheld.status
    rw [List.map_append, List.sum_append, List.map_singleton, List.sum_singleton]
    omega

/-- A row after a call is the row of a claim that was settled, or it is as before. -/
theorem Indexed.rows_processDue (hs : s.Indexed) (handlers : String → Bool) (limit : ℤ)
    (e : Encounter P) {id : String} {row : SettlementOutbox P}
    (hrow : (processDue handlers limit s e).2.rows.get id = some row) :
    (∃ claim ∈ (s.claimDue limit outboxLeaseMs e.now).1, row = settled handlers e claim) ∨
      s.rows.get id = some row := by
  have hloop := handleClaims_invariant handlers e
    (fun before t => ∀ id row, t.rows.get id = some row →
      (∃ claim ∈ before, row = settled handlers e claim) ∨
      id ∉ (before.map fun claim => claim.row.id) ∧
        (s.claimDue limit outboxLeaseMs e.now).2.rows.get id = some row)
    (hs.claims_ids_nodup limit outboxLeaseMs e.now) (fun claim hclaim => hs.held_of_claimDue hclaim)
    ?_ (fun id row hrow => Or.inr ⟨List.not_mem_nil, hrow⟩) {}
  · rcases hloop.1 id row hrow with hclaim | ⟨hother,hkept⟩
    · exact Or.inl hclaim
    · refine Or.inr ?_
      rw [← hs.claimDue_others limit outboxLeaseMs e.now id
        fun claim hclaim he => hother (List.mem_map.mpr ⟨claim, hclaim, he⟩)]
      exact hkept
  · intro before t claim _ _ _ ht id row hrow
    change (t.rows.set claim.row.id (settled handlers e claim)).get id = some row at hrow
    rw [InsertionMap.get_set] at hrow
    split_ifs at hrow with hid
    · exact Or.inl ⟨claim, List.mem_append_right _ List.mem_cons_self,
        (Option.some.inj hrow).symm⟩
    · rcases ht id row hrow with ⟨earlier,hearlier,hsettled⟩ | ⟨hother,hkept⟩
      · exact Or.inl ⟨earlier, List.mem_append_left _ hearlier, hsettled⟩
      · refine Or.inr ⟨?_, hkept⟩
        rw [List.map_append, List.map_singleton, List.mem_append, List.mem_singleton]
        exact not_or.mpr ⟨hother, hid⟩

/-- At the time and later no row waits for a retry or a lease. -/
def NoneWaits (t : ℤ) (s : InMemorySettlementOutboxStore P) : Prop :=
  ∀ id row, s.rows.get id = some row →
    row.availableAt ≤ t ∧ ∀ deadline ∈ row.leaseUntil, deadline < t

/-- The status `failed` of the column is never used. -/
def NoneFailed (s : InMemorySettlementOutboxStore P) : Prop :=
  ∀ id row, s.rows.get id = some row → row.status ≠ .failed

theorem NoneFailed.set (h : NoneFailed s) {row : SettlementOutbox P} (hrow : row.status ≠ .failed)
    (id : String) (keys : InsertionMap String String) (n : ℕ) :
    NoneFailed ⟨s.rows.set id row, keys, n⟩ :=
  InsertionMap.forall_get_set hrow fun id' other hother _ => h id' other hother

theorem NoneFailed.mark (h : NoneFailed s) (id token : String)
    {f : SettlementOutbox P → SettlementOutbox P} (hf : ∀ row, (f row).status ≠ .failed) :
    NoneFailed (s.mark id token f).2 := by
  rcases mark_cases s id token f with hrefused | ⟨row,_,_,_,haccepted⟩
  · rw [hrefused]
    exact h
  · rw [haccepted]
    exact h.set (hf row) id s.keys s.sequence

theorem NoneFailed.perform (h : NoneFailed s) (hs : s.Indexed) (call : StoreCall P) :
    NoneFailed (perform s call).2 := by
  have hne (status : SettlementOutboxStatus) (hstatus : status ∈
      [SettlementOutboxStatus.pending, .processing, .succeeded, .dead]) : status ≠ .failed := by
    rintro rfl
    exact absurd hstatus (by decide)
  cases call with
  | enqueue effect clock now =>
    change NoneFailed (SettlementOutboxService.enqueue s effect clock now).2
    rcases enqueue_cases hs effect clock now with hsame | ⟨row,hnew,_,_,hafter⟩
    · rw [hsame]
      exact h
    · rw [hafter]
      exact h.set (hnew.status_eq ▸ hne .pending (by decide)) _ _ _
  | claimDue limit leaseMs now =>
    change NoneFailed (s.claimDue limit leaseMs now).2
    rw [claimDue_eq]
    exact claimRows_invariant leaseMs now (fun _ t => NoneFailed t)
      (hs.taken_ids_nodup limit now)
      (fun claims t row _ _ ht => ht.set (hne .processing (by decide)) _ _ _)
      (fun row hrow => hs.get_of_mem (mem_taken hrow).1) h
  | markSucceeded id token processedAt =>
    exact h.mark id token fun row => hne .succeeded (by decide)
  | markFailed id token error retryAt dead now =>
    apply h.mark id token
    intro row
    change (if dead then SettlementOutboxStatus.dead else .pending) ≠ .failed
    split_ifs
    · exact hne .dead (by decide)
    · exact hne .pending (by decide)

theorem noneFailed_run (calls : List (StoreCall P)) :
    NoneFailed (Lockstep.run StreamPay.perform empty calls) := by
  induction calls using List.reverseRecOn with
  | nil =>
    intro id row hrow
    cases hrow
  | append_singleton calls call ih =>
    rw [run_append]
    exact ih.perform (outboxInvariant_run calls).lease.indexed call

theorem LeaseInvariant.due_of_noneWaits {events : List (OutboxEvent P)}
    (h : LeaseInvariant events s) (hfailed : NoneFailed s) {t now : ℤ} (hwaits : NoneWaits t s)
    (hnow : t ≤ now)
    {id : String} {row : SettlementOutbox P} (hrow : s.rows.get id = some row)
    (hopen : ¬ row.IsFinal) : row.Due now := by
  obtain ⟨havailable,hleases⟩ := hwaits id row hrow
  obtain ⟨_,hlease⟩ := h.leased id row hrow
  cases hstatus : row.status with
  | pending => exact Or.inl ⟨hstatus, havailable.trans hnow⟩
  | processing =>
    obtain ⟨deadline,hdeadline⟩ := Option.isSome_iff_exists.mp (hlease.mpr hstatus)
    exact Or.inr ⟨hstatus, deadline, hdeadline, (hleases deadline hdeadline).trans_le hnow⟩
  | failed => exact absurd hstatus (hfailed id row hrow)
  | succeeded => exact absurd (Or.inl hstatus) hopen
  | dead => exact absurd (Or.inr hstatus) hopen

/-- A call claims a row where there is one that is due. -/
theorem Indexed.claims_of_due (hs : s.Indexed) {now : ℤ} {row : SettlementOutbox P}
    (hrow : row ∈ s.snapshot) (hdue : row.Due now) (limit leaseMs : ℤ) :
    0 < (s.claimDue limit leaseMs now).1.length := by
  obtain ⟨queue,hqueue,htaken⟩ := hs.taken_eq limit now
  have hmem : row ∈ queue :=
    hqueue.perm.mem_iff.mpr (List.mem_filter.mpr ⟨hrow, decide_eq_true hdue⟩)
  have hlength := List.length_pos_of_mem hmem
  rw [claimDue_eq, ← (claimRows_leases leaseMs now _ s).length_eq, htaken, List.length_take]
  omega

/-- What waits after a call waits no longer than its retries. -/
theorem Indexed.noneWaits_processDue (hs : s.Indexed) {t t' : ℤ} (hwaits : NoneWaits t s)
    (handlers : String → Bool) (limit : ℤ) (e : Encounter P) (htt : t ≤ t')
    (hretry : ∀ claim, e.settledAt claim+outboxMaxRetryMs ≤ t') :
    NoneWaits t' (processDue handlers limit s e).2 := by
  intro id row hrow
  rcases hs.rows_processDue handlers limit e hrow with ⟨claim,hclaim,rfl⟩ | hkept
  · obtain ⟨old,hold,_,hleased⟩ := mem_claimDue hclaim
    obtain ⟨id',hget⟩ := (mem_snapshot_iff old).mp hold
    have hat := hretry claim
    rw [outboxMaxRetryMs] at hat
    rcases settled_cases handlers e claim with hsucceeded | ⟨_,retryAt,_,_,hfailed,hbound,_,_⟩
    · have havailable : claim.row.availableAt = old.availableAt := by rw [hleased]; rfl
      rw [hsucceeded]
      refine ⟨?_, fun deadline hdeadline => absurd hdeadline (Option.not_mem_none deadline)⟩
      change claim.row.availableAt ≤ t'
      rw [havailable]
      exact (hwaits id' old hget).1.trans htt
    · rw [hfailed]
      refine ⟨?_, fun deadline hdeadline => absurd hdeadline (Option.not_mem_none deadline)⟩
      change retryAt ≤ t'
      omega
  · obtain ⟨havailable,hleases⟩ := hwaits id row hkept
    exact ⟨havailable.trans htt, fun deadline hdeadline =>
      (hleases deadline hdeadline).trans_le htt⟩

end InMemorySettlementOutboxStore

theorem handleClaim_performs (handlers : String → Bool) (e : Encounter P)
    (state : OutboxSummary × InMemorySettlementOutboxStore P) (claim : OutboxClaim P) :
    ∃ call, (handleClaim handlers e state claim).2 = (perform state.2 call).2 := by
  unfold handleClaim
  split_ifs with hhandler
  · cases e.outcome claim with
    | resolved =>
      exact ⟨.markSucceeded claim.row.id claim.leaseToken (e.settledAt claim), rfl⟩
    | rejected message =>
      exact ⟨.markFailed claim.row.id claim.leaseToken message
        (e.settledAt claim+retryDelay claim.row.attempts)
        (decide (claim.row.attempts ≥ claim.row.maxAttempts)) (e.systemNow claim), rfl⟩
  · exact ⟨.markFailed claim.row.id claim.leaseToken (noHandler claim.row.eventType)
      (e.settledAt claim) true (e.systemNow claim), rfl⟩

/-- A call of `processDue` is a run of calls of the store. -/
theorem processDue_performs (handlers : String → Bool) (limit : ℤ)
    (s : InMemorySettlementOutboxStore P) (e : Encounter P) :
    ∃ calls, (processDue handlers limit s e).2 = run perform s calls := by
  have hloop (claims : List (OutboxClaim P)) :
      ∀ state : OutboxSummary × InMemorySettlementOutboxStore P,
        ∃ calls, (claims.foldl (handleClaim handlers e) state).2 = run perform state.2 calls := by
    induction claims with
    | nil => exact fun state => ⟨[], rfl⟩
    | cons claim rest ih =>
      intro state
      obtain ⟨call,hcall⟩ := handleClaim_performs handlers e state claim
      obtain ⟨calls,hcalls⟩ := ih (handleClaim handlers e state claim)
      rw [hcall] at hcalls
      exact ⟨call :: calls, hcalls⟩
  obtain ⟨calls,hcalls⟩ := hloop (s.claimDue limit outboxLeaseMs e.now).1
    ({}, (s.claimDue limit outboxLeaseMs e.now).2)
  exact ⟨.claimDue limit outboxLeaseMs e.now :: calls, hcalls⟩

/-- Calls of `processDue` with their limits, one after the other. -/
def processCalls (handlers : String → Bool) (s : InMemorySettlementOutboxStore P) :
    List (ℤ × Encounter P) → List OutboxSummary × InMemorySettlementOutboxStore P
  | [] => ([], s)
  | (limit,e) :: calls =>
    let (summary,s') := processDue handlers limit s e
    let (summaries,s'') := processCalls handlers s' calls
    (summary :: summaries, s'')

/-- From the time on, each call begins fifteen minutes after the last one was done. -/
def Paced : ℤ → List (ℤ × Encounter P) → Prop
  | _, [] => True
  | t, (_,e) :: calls => t ≤ e.now ∧ ∃ t', t ≤ t' ∧
      (∀ claim, e.settledAt claim+outboxMaxRetryMs ≤ t') ∧ Paced t' calls

/-- The calls after which nothing is open take an attempt each, at the least. -/
theorem chances_processCalls (handlers : String → Bool) (calls : List (ℤ × Encounter P)) :
    ∀ (earlier : List (StoreCall P)) (t : ℤ), NoneWaits t (run perform empty earlier) →
      Paced t calls →
      let s := run perform empty earlier
      (processCalls handlers s calls).2.chances+
        (((processCalls handlers s calls).1.map OutboxSummary.handled).sum : ℕ) ≤ s.chances ∧
      (∀ summary ∈ (processCalls handlers s calls).1, summary.skipped = 0) ∧
      ((processCalls handlers s calls).2.chances ≤ 0 ∨
        (processCalls handlers s calls).2.chances+calls.length ≤ s.chances) := by
  induction calls with
  | nil =>
    intro earlier t _ _ s
    exact ⟨(Int.add_zero _).le, fun _ h => absurd h List.not_mem_nil, Or.inr (Int.add_zero _).le⟩
  | cons call calls ih =>
    intro earlier t hwaits hpaced s
    obtain ⟨limit,e⟩ := call
    obtain ⟨hnow,t',htt,hretry,hpaced⟩ := hpaced
    have hinv : LeaseInvariant (history (log perform empty earlier)) s :=
      (outboxInvariant_run earlier).lease
    obtain ⟨later,hlater⟩ := processDue_performs handlers limit s e
    have hreached : (processDue handlers limit s e).2 = run perform empty (earlier ++ later) := by
      rw [run_append]
      exact hlater
    have hnext := hinv.indexed.noneWaits_processDue hwaits handlers limit e htt hretry
    obtain ⟨htaken,hhandled,hskipped⟩ := hinv.indexed.chances_processDue handlers limit e
    rw [hreached] at hnext htaken
    obtain ⟨hsum,hnone,hbound⟩ := ih (earlier ++ later) t' hnext hpaced
    simp only [processCalls, hreached, List.map_cons, List.sum_cons, List.length_cons,
      Nat.cast_add, Nat.cast_one]
    refine ⟨by omega, List.forall_mem_cons.mpr ⟨hskipped, hnone⟩, ?_⟩
    rcases hbound with hdone | hbound
    · exact Or.inl hdone
    · by_cases hopen : ∃ row ∈ s.snapshot, ¬ row.IsFinal
      · -- some row is due, so the call has taken an attempt
        obtain ⟨row,hrow,hnot⟩ := hopen
        have hdue := hinv.due_of_noneWaits (noneFailed_run earlier) hwaits hnow
          (hinv.indexed.get_of_mem hrow) hnot
        have hone := hinv.indexed.claims_of_due hrow hdue limit outboxLeaseMs
        omega
      · have hnone : s.chances = 0 := chances_of_isFinal fun row hrow =>
          not_not.mp fun hnot => hopen ⟨row, hrow, hnot⟩
        omega

/-- The rows that a run of calls gives up had no handler or no attempt left. -/
theorem dead_of_processCalls (handlers : String → Bool) (calls : List (ℤ × Encounter P)) :
    ∀ earlier : List (StoreCall P),
      let s := run perform empty earlier
      ∀ id row, (processCalls handlers s calls).2.rows.get id = some row → row.status = .dead →
        s.rows.get id = some row ∨ handlers row.eventType = false ∨
          row.maxAttempts ≤ row.attempts := by
  induction calls with
  | nil => exact fun earlier id row hrow _ => Or.inl hrow
  | cons call calls ih =>
    intro earlier s id row hrow hdead
    obtain ⟨limit,e⟩ := call
    have hinv : LeaseInvariant (history (log perform empty earlier)) s :=
      (outboxInvariant_run earlier).lease
    obtain ⟨later,hlater⟩ := processDue_performs handlers limit s e
    have hreached : (processDue handlers limit s e).2 = run perform empty (earlier ++ later) := by
      rw [run_append]
      exact hlater
    simp only [processCalls, hreached] at hrow
    rcases ih (earlier ++ later) id row hrow hdead with hfirst | hspent
    · rw [← hreached] at hfirst
      rcases hinv.indexed.rows_processDue handlers limit e hfirst with ⟨claim,_,rfl⟩ | hkept
      · refine Or.inr ?_
        rcases settled_cases handlers e claim with hsucceeded | ⟨_,_,dead,_,hfailed,_,_,hspent⟩
        · rw [hsucceeded] at hdead
          cases hdead
        · rw [hfailed] at hdead ⊢
          cases dead with
          | true => exact hspent rfl
          | false => cases hdead
      · exact Or.inl hkept
    · exact Or.inr hspent

/-- The outbox drains. Whatever its handlers do, calls of `processDue` that are made fifteen
minutes apart, after the last retry and the last lease that is left, count together no more
claims than attempts are left to the rows, skip none of them, and after as many calls every
row has succeeded or is dead. It is dead only if it was so before, has no handler or no
attempt left. -/
theorem outbox_drains (earlier : List (StoreCall P)) (handlers : String → Bool) (t : ℤ)
    (hwaits : NoneWaits t (run perform empty earlier)) (calls : List (ℤ × Encounter P))
    (hpaced : Paced t calls) :
    let s := run perform empty earlier
    let after := processCalls handlers s calls
    (((after.1.map OutboxSummary.handled).sum : ℕ) : ℤ) ≤ s.chances ∧
    (∀ summary ∈ after.1, summary.skipped = 0) ∧
    (s.chances ≤ calls.length → ∀ row ∈ after.2.snapshot, row.IsFinal) ∧
    ∀ row ∈ after.2.snapshot, row.status = .dead →
      row ∈ s.snapshot ∨ handlers row.eventType = false ∨ row.maxAttempts ≤ row.attempts := by
  intro s after
  obtain ⟨hsum,hskipped,hbound⟩ := chances_processCalls handlers calls earlier t hwaits hpaced
  have hleft : 0 ≤ (processCalls handlers s calls).2.chances := chances_nonneg _
  refine ⟨(le_add_of_nonneg_left hleft).trans hsum, hskipped, fun hmany => ?_,
    fun row hrow hdead => ?_⟩
  · apply isFinal_of_chances
    rcases hbound with hdone | hbound
    · exact hdone
    · exact le_of_add_le_add_right ((hbound.trans hmany).trans (zero_add _).ge)
  · obtain ⟨id,hget⟩ := (mem_snapshot_iff row).mp hrow
    rcases dead_of_processCalls handlers calls earlier id row hget hdead with hold | hspent
    · exact Or.inl ((mem_snapshot_iff row).mpr ⟨id, hold⟩)
    · exact Or.inr hspent

section SampleDrain

def twoChances : List (StoreCall Unit) := [.enqueue ⟨"a", "payout", "stream-1", (), some 2⟩ 0 0]

/-- A call whose handlers all reject at once. -/
def rejecting (now : ℤ) : ℤ × Encounter Unit :=
  (50, ⟨now, fun _ => .rejected "down".utf16, fun _ => now, fun _ => now⟩)

theorem noneWaits_twoChances : NoneWaits 0 (run perform empty twoChances) := by
  have hrows : ∀ row ∈ (run perform empty twoChances).snapshot,
      row.availableAt ≤ 0 ∧ row.leaseUntil = none := by
    decide +kernel
  intro id row hrow
  obtain ⟨havailable,hlease⟩ := hrows row ((mem_snapshot_iff row).mpr ⟨id, hrow⟩)
  refine ⟨havailable, fun deadline hdeadline => ?_⟩
  rw [hlease] at hdeadline
  cases hdeadline

theorem drained_by_two_rejections :
    let after := processCalls (fun eventType => eventType = "payout")
      (run perform empty twoChances) [rejecting 0, rejecting 900000]
    (((after.1.map OutboxSummary.handled).sum : ℕ) : ℤ) ≤ 2 ∧
      ∀ row ∈ after.2.snapshot, row.IsFinal := by
  have hchances : (run perform empty twoChances).chances = 2 := by decide +kernel
  have hpaced : Paced 0 [rejecting 0, rejecting 900000] :=
    ⟨le_rfl, 900000, by decide, fun _ => (by decide : 0+outboxMaxRetryMs ≤ 900000), le_rfl,
      1800000, by decide, fun _ => (by decide : 900000+outboxMaxRetryMs ≤ 1800000), trivial⟩
  obtain ⟨hcount,_,hfinal,_⟩ := outbox_drains twoChances (fun eventType => eventType = "payout") 0
    noneWaits_twoChances [rejecting 0, rejecting 900000] hpaced
  rw [hchances] at hcount hfinal
  exact ⟨hcount, hfinal (by decide)⟩

end SampleDrain

end StreamPay
