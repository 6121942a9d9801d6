import Mathlib.Algebra.Order.BigOperators.Group.List
import StreamPay.Library.InsertionMapSums
import StreamPay.SettlementOutboxSelection

/-! How long a due row waits for its claim in the in-memory outbox: a call that passes it
over leases a whole batch of rows that were not created after it, and each of these counts
one more attempt. -/
namespace StreamPay
open InMemorySettlementOutboxStore OutboxSystem StableQueue Lockstep

variable {P : Type*}

/-- Another row that was not created after this one. -/
def NotYounger (row other : SettlementOutbox P) : Prop :=
  other.createdAt ≤ row.createdAt ∧ other.id ≠ row.id

instance (row other : SettlementOutbox P) : Decidable (NotYounger row other) :=
  inferInstanceAs (Decidable (_ ∧ _))

/-- The attempts counted on the rows that are not younger. -/
def attemptsBefore (row : SettlementOutbox P) (s : InMemorySettlementOutboxStore P) : ℤ :=
  (s.snapshot.map fun other => if NotYounger row other then other.attempts else 0).sum

/-- The rows that a call of `claimDue` may lease. -/
def batchSize (limit : ℤ) : ℕ := (max 1 (min limit 500)).toNat

/-- The size of the batch with which a call passes over the row while it is due. -/
def passedOver (id : String) (s : InMemorySettlementOutboxStore P) : StoreCall P → ℕ
  | .claimDue limit leaseMs now =>
    if (s.rows.get id).any (fun row => row.isDue now) = true ∧
        id ∉ (s.claimDue limit leaseMs now).1.map (fun claim => claim.row.id) then batchSize limit
    else 0
  | _ => 0

/-- How much has passed over the row in a run. -/
def passes (id : String) (s : InMemorySettlementOutboxStore P) : List (StoreCall P) → ℕ
  | [] => 0
  | call :: calls => passedOver id s call + passes id (perform s call).2 calls

theorem passes_append_singleton (id : String) (s : InMemorySettlementOutboxStore P)
    (calls : List (StoreCall P)) (call : StoreCall P) :
    passes id s (calls ++ [call]) = passes id s calls + passedOver id (run perform s calls) call := by
  induction calls generalizing s with
  | nil => exact Nat.zero_add _ ▸ rfl
  | cons first calls ih =>
    rw [List.cons_append, passes, ih, passes, run, Nat.add_assoc]

/-- One attempt is counted on a row that is not younger. -/
def oneBefore (row other : SettlementOutbox P) : ℤ := if NotYounger row other then 1 else 0

theorem sum_oneBefore_nonneg (row : SettlementOutbox P) (claims : List (OutboxClaim P)) :
    0 ≤ (claims.map fun claim => oneBefore row claim.row).sum := by
  induction claims with
  | nil => exact le_rfl
  | cons claim claims ih =>
    have hclaim : 0 ≤ oneBefore row claim.row := by
      unfold oneBefore
      split_ifs <;> decide
    rw [List.map_cons, List.sum_cons]
    exact add_nonneg hclaim ih

theorem sum_oneBefore_eq_length {row : SettlementOutbox P} {claims : List (OutboxClaim P)}
    (h : ∀ claim ∈ claims, NotYounger row claim.row) :
    (claims.map fun claim => oneBefore row claim.row).sum = claims.length := by
  induction claims with
  | nil => rfl
  | cons claim claims ih =>
    obtain ⟨hclaim,hrest⟩ := List.forall_mem_cons.mp h
    rw [List.map_cons, List.sum_cons, ih hrest, oneBefore, if_pos hclaim, List.length_cons,
      Nat.cast_add_one, add_comm]

/-- Only when a row was created, and its id, say what counts before it. -/
theorem attemptsBefore_eq_of_event_eq {row row' : SettlementOutbox P}
    (h : InMemorySettlementOutboxStore.event row' = InMemorySettlementOutboxStore.event row)
    (s : InMemorySettlementOutboxStore P) : attemptsBefore row' s = attemptsBefore row s := by
  have hid : row'.id = row.id := congrArg Prod.fst h
  have hcreated : row'.createdAt = row.createdAt :=
    congrArg (fun fields => fields.2.2.2.2.2.2) h
  have hsame (other : SettlementOutbox P) : NotYounger row' other ↔ NotYounger row other := by
    rw [NotYounger, NotYounger, hid, hcreated]
  simp only [attemptsBefore, hsame]

namespace InMemorySettlementOutboxStore
variable {s : InMemorySettlementOutboxStore P}

/-- What is counted before a row does not change with a row that is set. -/
theorem attemptsBefore_set (row : SettlementOutbox P) {id : String} {old : SettlementOutbox P}
    (hold : s.rows.get id = some old) {new : SettlementOutbox P} (hid : new.id = old.id)
    (hcreated : new.createdAt = old.createdAt) (keys : InsertionMap String String) (n : ℕ) :
    attemptsBefore row ⟨s.rows.set id new, keys, n⟩ = attemptsBefore row s +
      if NotYounger row old then new.attempts-old.attempts else 0 := by
  have hsum := InsertionMap.sum_values_set
    (fun other => if NotYounger row other then other.attempts else 0) hold new
  have hsame : NotYounger row new ↔ NotYounger row old := by
    rw [NotYounger, NotYounger, hid, hcreated]
  simp only [hsame] at hsum
  simp only [attemptsBefore, snapshot]
  split_ifs at hsum ⊢ <;> omega

/-- A batch counts one attempt on each of its rows that is not younger. -/
theorem Indexed.attemptsBefore_claimDue (hs : s.Indexed) (row : SettlementOutbox P)
    (limit leaseMs now : ℤ) :
    attemptsBefore row (s.claimDue limit leaseMs now).2 = attemptsBefore row s +
      ((s.claimDue limit leaseMs now).1.map fun claim => oneBefore row claim.row).sum := by
  rw [claimDue_eq]
  apply claimRows_invariant leaseMs now (fun claims t => attemptsBefore row t =
    attemptsBefore row s + (claims.map fun claim => oneBefore row claim.row).sum)
    (hs.taken_ids_nodup limit now)
  · intro claims t other _ hget ht
    let claim := (t.claimRow other leaseMs now).1
    have hid : claim.row.id = other.id := rfl
    have hcreated : claim.row.createdAt = other.createdAt := rfl
    have hset : attemptsBefore row (t.claimRow other leaseMs now).2 = attemptsBefore row t +
        if NotYounger row other then claim.row.attempts-other.attempts else 0 :=
      attemptsBefore_set row hget hid hcreated t.keys (t.sequence+1)
    have hone : (if NotYounger row other then claim.row.attempts-other.attempts else 0) =
        oneBefore row claim.row := by
      change _ = if NotYounger row other then (1 : ℤ) else 0
      split_ifs
      · exact add_sub_cancel_left other.attempts 1
      · rfl
    rw [hset, hone, ht, List.map_append, List.sum_append, List.map_singleton, List.sum_singleton,
      Int.add_assoc]
  · exact fun other hother => hs.get_of_mem (mem_taken hother).1
  · exact (Int.add_zero _).symm

theorem notYounger_of_leases {row : SettlementOutbox P} {leaseMs now : ℤ}
    {rows : List (SettlementOutbox P)} {claims : List (OutboxClaim P)}
    (h : List.Forall₂ (Leases leaseMs now) rows claims) (hrows : ∀ other ∈ rows, NotYounger row other) :
    ∀ claim ∈ claims, NotYounger row claim.row := by
  induction h with
  | nil => exact fun _ hclaim => absurd hclaim List.not_mem_nil
  | cons hclaim _ ih =>
    obtain ⟨hfirst,hrest⟩ := List.forall_mem_cons.mp hrows
    intro claim hmem
    rcases List.mem_cons.mp hmem with rfl | hlater
    · rw [hclaim]
      exact hfirst
    · exact ih hrest claim hlater

/-- A call that passes over a due row leases a whole batch of rows that are not younger. -/
theorem Indexed.passedOver_le (hs : s.Indexed) {id : String} {row : SettlementOutbox P}
    (hrow : s.rows.get id = some row) (limit leaseMs now : ℤ) :
    passedOver id s (.claimDue limit leaseMs now) ≤
      ((s.claimDue limit leaseMs now).1.map fun claim => oneBefore row claim.row).sum := by
  simp only [passedOver]
  split_ifs with hpassed
  · obtain ⟨hdue,hnot⟩ := hpassed
    rw [hrow, Option.any_some] at hdue
    obtain ⟨queue,hqueue,htaken⟩ := hs.taken_eq limit now
    have hleases : List.Forall₂ (Leases leaseMs now) (queue.take (batchSize limit))
        (s.claimDue limit leaseMs now).1 := by
      rw [claimDue_eq, htaken]
      exact claimRows_leases leaseMs now _ s
    have hids := ids_of_leases hleases
    have hmem : row ∈ queue.take (batchSize limit) ++ queue.drop (batchSize limit) := by
      rw [List.take_append_drop]
      apply hqueue.perm.mem_iff.mpr
      exact List.mem_filter.mpr ⟨(mem_snapshot_iff row).mpr ⟨id, hrow⟩,
        decide_eq_true (SettlementOutbox.isDue_iff.mp hdue)⟩
    have hid : row.id = id := (hs.own id row hrow).1
    have hbehind : row ∈ queue.drop (batchSize limit) := by
      refine (List.mem_append.mp hmem).resolve_left fun htake => hnot ?_
      rw [hids, ← hid]
      exact List.mem_map_of_mem htake
    have hlength : (s.claimDue limit leaseMs now).1.length = batchSize limit := by
      rw [← hleases.length_eq, List.length_take]
      have hpos := List.length_pos_of_mem hbehind
      rw [List.length_drop] at hpos
      omega
    have hbefore : ∀ claim ∈ (s.claimDue limit leaseMs now).1, NotYounger row claim.row := by
      apply notYounger_of_leases hleases
      intro other hother
      have hordered := hqueue.ordered
      rw [← List.take_append_drop (batchSize limit) queue, List.pairwise_append] at hordered
      refine ⟨?_, fun hsame => hnot ?_⟩
      · rcases hordered.2.2 other hother row hbehind with hlt | ⟨heq,_⟩
        · exact hlt.le
        · exact heq.le
      · rw [hids, ← hid, ← hsame]
        exact List.mem_map_of_mem hother
    rw [sum_oneBefore_eq_length hbefore, hlength]
  · exact sum_oneBefore_nonneg row _

theorem attemptsBefore_mark (row : SettlementOutbox P) (id token : String)
    {f : SettlementOutbox P → SettlementOutbox P}
    (hf : ∀ old, (f old).id = old.id ∧ (f old).createdAt = old.createdAt ∧
      (f old).attempts = old.attempts) :
    attemptsBefore row (s.mark id token f).2 = attemptsBefore row s := by
  rcases mark_cases s id token f with hrefused | ⟨old,hold,_,_,haccepted⟩
  · rw [hrefused]
  · obtain ⟨hid,hcreated,hattempts⟩ := hf old
    rw [haccepted, attemptsBefore_set row hold hid hcreated, hattempts, Int.sub_self, ite_self,
      Int.add_zero]

theorem attemptsBefore_perform {events : List (OutboxEvent P)} (h : LeaseInvariant events s)
    {id : String} {row : SettlementOutbox P} (hrow : s.rows.get id = some row) (call : StoreCall P) :
    attemptsBefore row s+passedOver id s call ≤ attemptsBefore row (perform s call).2 := by
  cases call with
  | enqueue effect clock now =>
    change attemptsBefore row s+0 ≤
      attemptsBefore row (SettlementOutboxService.enqueue s effect clock now).2
    rw [add_zero]
    rcases enqueue_cases h.indexed effect clock now with hsame | ⟨new,hnew,hid,_,hafter⟩
    · rw [hsame]
    · -- a new row has no attempts
      have hfree : s.rows.get new.id = none := hid ▸ h.get_memoryId
      have hsum := InsertionMap.sum_values_set_of_get_none
        (fun other => if NotYounger row other then other.attempts else 0) hfree new
      rw [hafter]
      simp only [hnew.attempts_eq, ite_self, add_zero] at hsum
      exact hsum.ge
  | claimDue limit leaseMs now =>
    have hpassed := h.indexed.passedOver_le hrow limit leaseMs now
    have hbatch := h.indexed.attemptsBefore_claimDue row limit leaseMs now
    change _ ≤ attemptsBefore row (s.claimDue limit leaseMs now).2
    rw [hbatch]
    exact Int.add_le_add_left hpassed _
  | markSucceeded id' token processedAt =>
    have hmark : attemptsBefore row (s.markSucceeded id' token processedAt).2 =
        attemptsBefore row s :=
      attemptsBefore_mark row id' token fun old => ⟨rfl, rfl, rfl⟩
    exact le_of_eq ((add_zero _).trans hmark.symm)
  | markFailed id' token error retryAt dead now =>
    have hmark : attemptsBefore row (s.markFailed id' token error retryAt dead now).2 =
        attemptsBefore row s :=
      attemptsBefore_mark row id' token fun old => ⟨rfl, rfl, rfl⟩
    exact le_of_eq ((add_zero _).trans hmark.symm)

theorem attemptsBefore_nonneg {events : List (OutboxEvent P)} (h : LeaseInvariant events s)
    (row : SettlementOutbox P) : 0 ≤ attemptsBefore row s := by
  apply List.sum_nonneg
  intro attempts hattempts
  obtain ⟨other,hother,rfl⟩ := List.mem_map.mp hattempts
  obtain ⟨id,hget⟩ := (mem_snapshot_iff other).mp hother
  split_ifs
  · rw [h.attempts id other hget]
    exact Int.natCast_nonneg _
  · exact le_rfl

/-- A row that is not there is not passed over. -/
theorem passedOver_of_get_none {id : String} (h : s.rows.get id = none) (call : StoreCall P) :
    passedOver id s call = 0 := by
  cases call with
  | claimDue limit leaseMs now => simp [passedOver, h]
  | enqueue | markSucceeded | markFailed => rfl

end InMemorySettlementOutboxStore

/-- What has passed over a row so far is counted as attempts of rows that are not younger. -/
def PassesCounted (calls : List (StoreCall P)) (id : String) : Prop :=
  match (run perform empty calls).rows.get id with
  | none => passes id empty calls = 0
  | some row => passes id empty calls ≤ attemptsBefore row (run perform empty calls)

theorem passesCounted (calls : List (StoreCall P)) (id : String) : PassesCounted calls id := by
  induction calls using List.reverseRecOn with
  | nil => exact rfl
  | append_singleton calls call ih =>
    have hinv := (outboxInvariant_run calls).lease
    have hafter := (outboxInvariant_run (calls ++ [call])).lease
    have hprogress := rowsProgress_run calls [call]
    have hlast : run perform empty (calls ++ [call]) = (perform (run perform empty calls) call).2 :=
      run_append perform empty calls [call]
    unfold PassesCounted at ih ⊢
    rw [passes_append_singleton]
    cases hbefore : (run perform empty calls).rows.get id with
    | none =>
      rw [hbefore] at ih
      rw [passedOver_of_get_none hbefore, ih]
      split
      · rfl
      · exact attemptsBefore_nonneg hafter _
    | some row =>
      rw [hbefore] at ih
      obtain ⟨row',hrow',hsame⟩ := hprogress id row hbefore
      rw [hrow']
      have hstep := attemptsBefore_perform hinv hbefore call
      have hcounted : attemptsBefore row' (run perform empty (calls ++ [call])) =
          attemptsBefore row (perform (run perform empty calls) call).2 := by
        rw [attemptsBefore_eq_of_event_eq hsame.event_eq, hlast]
      change (_ : ℤ) ≤ attemptsBefore row' _
      rw [hcounted, Nat.cast_add]
      exact (Int.add_le_add_right ih _).trans hstep

/-- Bounded waiting: the calls of `claimDue` that pass over a row while it is due have
leased, taken together, no more rows than there are attempts counted on the rows that were
not created after it. So what comes later never holds it up, and each of the others does
so once for each of its attempts. -/
theorem waits_for_counted_attempts (calls : List (StoreCall P)) (id : String)
    (row : SettlementOutbox P) (hrow : (run perform empty calls).rows.get id = some row) :
    passes id empty calls ≤ attemptsBefore row (run perform empty calls) := by
  have hcounted := passesCounted calls id
  rw [PassesCounted, hrow] at hcounted
  exact hcounted

/-- Two rows of one age in batches of one: the second waits while the first is leased. -/
def rowPassedOver : List (StoreCall Unit) :=
  [.enqueue (payout "a") 0 0, .enqueue (payout "b") 0 0, .claimDue 1 1000 0]

theorem rowPassedOver_waits : ∃ row : SettlementOutbox Unit,
    (run perform empty rowPassedOver).rows.get "memory-outbox-2" = some row ∧
    passes "memory-outbox-2" empty rowPassedOver = 1 ∧
    passes "memory-outbox-2" empty rowPassedOver ≤
      attemptsBefore row (run perform empty rowPassedOver) := by
  have hrow : ((run perform empty rowPassedOver).rows.get "memory-outbox-2").isSome := by
    decide +kernel
  obtain ⟨row,hget⟩ := Option.isSome_iff_exists.mp hrow
  exact ⟨row, hget, by decide +kernel, waits_for_counted_attempts rowPassedOver _ row hget⟩

end StreamPay
