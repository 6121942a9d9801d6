import StreamPay.SettlementOutboxDelivery
import StreamPay.Library.StableQueue

/-! Which rows a call of `claimDue` leases, against the queue of the rows that are due. -/
namespace StreamPay
open InMemorySettlementOutboxStore StableQueue

namespace SettlementOutbox
variable {P : Type*} {row : SettlementOutbox P} {now : ℤ}

/-- The row waits and may be delivered, or was left behind under a lease that is over. -/
def Due (row : SettlementOutbox P) (now : ℤ) : Prop :=
  (row.status = .pending ∧ row.availableAt ≤ now) ∨
    (row.status = .processing ∧ ∃ deadline, row.leaseUntil = some deadline ∧ deadline < now)

theorem isDue_iff : row.isDue now = true ↔ row.Due now := by
  rw [isDue, Bool.or_eq_true, Bool.and_eq_true, Bool.and_eq_true, decide_eq_true_eq,
    decide_eq_true_eq, decide_eq_true_eq]
  apply or_congr_right
  apply and_congr_right
  intro _
  rw [Option.any_eq_true]
  simp only [decide_eq_true_eq]

instance : Decidable (row.Due now) := decidable_of_iff _ isDue_iff

end SettlementOutbox

namespace InMemorySettlementOutboxStore
variable {P : Type*} {s : InMemorySettlementOutboxStore P}

/-- The rows that are due, oldest first. -/
def dueRows (s : InMemorySettlementOutboxStore P) (now : ℤ) : List (SettlementOutbox P) :=
  s.snapshot.filter fun row => row.Due now

/-- The claim leases the row as it stood before the call. -/
def Leases (leaseMs now : ℤ) (row : SettlementOutbox P) (claim : OutboxClaim P) : Prop :=
  claim.row = { row with
    status := .processing
    leaseToken := some claim.leaseToken
    leaseUntil := some (now+max 1000 leaseMs)
    attempts := row.attempts+1
    updatedAt := now }

/-- What a call of `claimDue` answers and leaves behind: the first of the rows that are
due are leased under tokens that were never used, and the other rows stay as they are. -/
structure LeasesFirstDue (used : String → Prop) (s : InMemorySettlementOutboxStore P)
    (limit leaseMs now : ℤ) (claims : List (OutboxClaim P))
    (s' : InMemorySettlementOutboxStore P) : Prop where
  selected : ∃ queue, IsQueue SettlementOutbox.createdAt (s.dueRows now) queue ∧
    List.Forall₂ (Leases leaseMs now) (queue.take (max 1 (min limit 500)).toNat) claims
  distinct : (claims.map OutboxClaim.leaseToken).Nodup
  unused : ∀ claim ∈ claims, ¬ used claim.leaseToken
  stored : ∀ claim ∈ claims, s'.rows.get claim.row.id = some claim.row
  others : ∀ id, (∀ claim ∈ claims, claim.row.id ≠ id) → s'.rows.get id = s.rows.get id
  /-- No row is added or lost, and the rows keep the order of their insertion. -/
  ids : s'.snapshot.map SettlementOutbox.id = s.snapshot.map SettlementOutbox.id
  keys : s'.keys = s.keys

theorem claimRows_leases (leaseMs now : ℤ) (rows : List (SettlementOutbox P))
    (s : InMemorySettlementOutboxStore P) :
    List.Forall₂ (Leases leaseMs now) rows (claimRows leaseMs now rows s).1 := by
  induction rows generalizing s with
  | nil => exact .nil
  | cons row rest ih => exact .cons rfl (ih (s.claimRow row leaseMs now).2)

/-- The loop sorts the rows and then skips those that are not due. -/
theorem Indexed.taken_eq (hs : s.Indexed) (limit now : ℤ) :
    ∃ queue, IsQueue SettlementOutbox.createdAt (s.dueRows now) queue ∧
      s.taken limit now = queue.take (max 1 (min limit 500)).toNat := by
  have hnodup : s.snapshot.Nodup := List.Nodup.of_map _ hs.ids_nodup
  have hsorted := isQueue_insertionSort SettlementOutbox.createdAt hnodup
  have hdue : (fun row : SettlementOutbox P => row.isDue now) = fun row => row.Due now := by
    funext row
    rw [Bool.eq_iff_iff, decide_eq_true_eq]
    exact SettlementOutbox.isDue_iff
  refine ⟨_, hsorted.filter fun row => row.Due now, ?_⟩
  rw [taken, hdue, snapshot]

theorem Indexed.claimDue_others (hs : s.Indexed) (limit leaseMs now : ℤ) (id : String)
    (h : ∀ claim ∈ (s.claimDue limit leaseMs now).1, claim.row.id ≠ id) :
    (s.claimDue limit leaseMs now).2.rows.get id = s.rows.get id := by
  rw [claimDue_eq] at h ⊢
  have hbatch := claimRows_invariant leaseMs now
    (fun claims t => (∀ claim ∈ claims, claim.row.id ≠ id) → t.rows.get id = s.rows.get id)
    (hs.taken_ids_nodup limit now) ?_ (fun row hrow => hs.get_of_mem (mem_taken hrow).1)
    (fun _ => rfl)
  · exact hbatch h
  · intro claims t row _ _ ht hne
    have hnew : (t.claimRow row leaseMs now).1.row.id ≠ id := hne _ (by simp)
    have hold : ∀ claim ∈ claims, claim.row.id ≠ id :=
      fun claim hclaim => hne claim (List.mem_append_left _ hclaim)
    rw [claimRow_get, if_neg fun he => hnew he.symm]
    exact ht hold

/-- A batch adds no row and leaves the index of the event keys alone. -/
theorem Indexed.claimDue_keys (hs : s.Indexed) (limit leaseMs now : ℤ) :
    (s.claimDue limit leaseMs now).2.rows.entries.map Prod.fst = s.rows.entries.map Prod.fst ∧
      (s.claimDue limit leaseMs now).2.keys = s.keys := by
  rw [claimDue_eq]
  apply claimRows_invariant leaseMs now
    (fun _ t => t.rows.entries.map Prod.fst = s.rows.entries.map Prod.fst ∧ t.keys = s.keys)
    (hs.taken_ids_nodup limit now)
  · intro claims t row _ hget ht
    exact ⟨(InsertionMap.keys_set_of_get hget _).trans ht.1, ht.2⟩
  · exact fun row hrow => hs.get_of_mem (mem_taken hrow).1
  · exact ⟨rfl, rfl⟩

theorem ids_of_leases {leaseMs now : ℤ} {rows : List (SettlementOutbox P)}
    {claims : List (OutboxClaim P)} (h : List.Forall₂ (Leases leaseMs now) rows claims) :
    claims.map (fun claim => claim.row.id) = rows.map SettlementOutbox.id := by
  induction h with
  | nil => rfl
  | cons hclaim _ ih =>
    rw [List.map_cons, List.map_cons, ih, hclaim]

/-- No due row waits behind one that came later: a row is not leased before
those that precede it. -/
theorem LeasesFirstDue.overtakes_none {used : String → Prop} {limit leaseMs now : ℤ}
    {claims : List (OutboxClaim P)} {s' : InMemorySettlementOutboxStore P}
    (h : LeasesFirstDue used s limit leaseMs now claims s') (hs : s.Indexed)
    {row later : SettlementOutbox P} (hrow : row ∈ s.dueRows now) (hlater : later ∈ s.dueRows now)
    (hbefore : Precedes SettlementOutbox.createdAt (s.dueRows now) row later)
    (hleased : later.id ∈ claims.map fun claim => claim.row.id) :
    row.id ∈ claims.map fun claim => claim.row.id := by
  obtain ⟨queue,hqueue,hclaims⟩ := h.selected
  have hids : (s.snapshot.map SettlementOutbox.id).Nodup := hs.ids_nodup
  have hnodup : (s.dueRows now).Nodup := (List.Nodup.of_map _ hids).filter _
  rw [ids_of_leases hclaims] at hleased ⊢
  obtain ⟨first,hfirst,hid⟩ := List.mem_map.mp hleased
  -- the ids tell the rows apart, so the leased row is the later one itself
  have hdue : first ∈ s.dueRows now := hqueue.perm.mem_iff.mp (List.mem_of_mem_take hfirst)
  have hsame : first = later :=
    List.inj_on_of_nodup_map hids (List.mem_of_mem_filter hdue) (List.mem_of_mem_filter hlater) hid
  have htake := hqueue.mem_take_of_precedes hnodup hrow (hsame ▸ hfirst) hbefore
  exact List.mem_map.mpr ⟨row, htake, rfl⟩

end InMemorySettlementOutboxStore

variable {P : Type*}

/-- Some row had the token on it after a first part of the calls. -/
def EverUsed (calls : List (StoreCall P)) (token : String) : Prop :=
  ∃ earlier later, calls = earlier ++ later ∧
    ∃ row ∈ (Lockstep.run perform empty earlier).snapshot, row.leaseToken = some token

/-- The token of a row is that of one of its claims. -/
theorem mem_claims_of_everUsed {calls : List (StoreCall P)} {token : String}
    (h : EverUsed calls token) :
    token ∈ (claims (history (Lockstep.log perform empty calls))).map OutboxClaim.leaseToken := by
  obtain ⟨earlier,later,rfl,row,hrow,htoken⟩ := h
  have hinv := (outboxInvariant_run earlier).lease
  have hclaim := hinv.mem_claims (hinv.indexed.get_of_mem hrow) htoken
  rw [Lockstep.log_append, history_append, claims_append, List.map_append]
  exact List.mem_append_left _ (List.mem_map.mpr ⟨_, hclaim, rfl⟩)

/-- After any calls, `claimDue` leases exactly the first rows of the queue of due rows. -/
theorem claimDue_leases_first_due (calls : List (StoreCall P)) (limit leaseMs now : ℤ) :
    LeasesFirstDue (EverUsed calls) (Lockstep.run perform empty calls) limit leaseMs now
      ((Lockstep.run perform empty calls).claimDue limit leaseMs now).1
      ((Lockstep.run perform empty calls).claimDue limit leaseMs now).2 := by
  have hinv := (outboxInvariant_run calls).lease
  have hafter := hinv.claimDue limit leaseMs now
  -- the claims of the batch come behind those of the history, all under different tokens
  have htokens := hafter.distinct
  rw [claims_append, claims_map_claimed, List.map_append, List.nodup_append] at htokens
  obtain ⟨_,hbatch,hdisjoint⟩ := htokens
  constructor
  case selected =>
    obtain ⟨queue,hqueue,htaken⟩ := hinv.indexed.taken_eq limit now
    refine ⟨queue, hqueue, ?_⟩
    rw [← htaken, claimDue_eq]
    exact claimRows_leases leaseMs now _ _
  case distinct => exact hbatch
  case unused =>
    intro claim hclaim hused
    exact hdisjoint _ (mem_claims_of_everUsed hused) _ (List.mem_map.mpr ⟨claim, hclaim, rfl⟩) rfl
  case stored => exact fun claim hclaim => kept_of_mem_claimDue hinv.indexed hclaim
  case others => exact hinv.indexed.claimDue_others limit leaseMs now
  case ids =>
    rw [hafter.indexed.ids_eq, hinv.indexed.ids_eq]
    exact (hinv.indexed.claimDue_keys limit leaseMs now).1
  case keys => exact (hinv.indexed.claimDue_keys limit leaseMs now).2

end StreamPay
