import StreamPay.SettlementOutboxClaims

/-! What a history of claims and settlements says about the rows of the
in-memory outbox: their leases, their attempts and how their claims ended. -/
namespace StreamPay

/-- A row is claimed, or the holder of its lease settles it. -/
inductive OutboxEvent (P : Type*)
  | claimed (claim : OutboxClaim P)
  | succeeded (id leaseToken : String)
  | failed (id leaseToken : String)

namespace OutboxEvent
variable {P : Type*}

def claim? : OutboxEvent P → Option (OutboxClaim P)
  | .claimed claim => some claim
  | _ => none

def settled? : OutboxEvent P → Option String
  | .claimed _ => none
  | .succeeded _ leaseToken => some leaseToken
  | .failed _ leaseToken => some leaseToken

def success? : OutboxEvent P → Option String
  | .succeeded id _ => some id
  | _ => none

end OutboxEvent

section History
variable {P : Type*}

def claims (history : List (OutboxEvent P)) : List (OutboxClaim P) :=
  history.filterMap OutboxEvent.claim?

def claimsOf (history : List (OutboxEvent P)) (id : String) : List (OutboxClaim P) :=
  (claims history).filter fun claim => claim.row.id = id

/-- The tokens that settled a row, by success or by failure. -/
def settledTokens (history : List (OutboxEvent P)) : List String :=
  history.filterMap OutboxEvent.settled?

/-- The ids of the rows that were marked succeeded. -/
def successes (history : List (OutboxEvent P)) : List String :=
  history.filterMap OutboxEvent.success?

variable (history : List (OutboxEvent P)) (claim : OutboxClaim P)

theorem claims_append (events : List (OutboxEvent P)) :
    claims (history ++ events) = claims history ++ claims events := List.filterMap_append

theorem settledTokens_append (events : List (OutboxEvent P)) :
    settledTokens (history ++ events) = settledTokens history ++ settledTokens events :=
  List.filterMap_append

theorem successes_append (events : List (OutboxEvent P)) :
    successes (history ++ events) = successes history ++ successes events := List.filterMap_append

@[simp] theorem claims_snoc_claimed :
    claims (history ++ [.claimed claim]) = claims history ++ [claim] := claims_append _ _

@[simp] theorem settledTokens_snoc_claimed :
    settledTokens (history ++ [.claimed claim]) = settledTokens history := by
  simp [settledTokens, OutboxEvent.settled?]

@[simp] theorem successes_snoc_claimed :
    successes (history ++ [.claimed claim]) = successes history := by
  simp [successes, OutboxEvent.success?]

theorem claimsOf_snoc_claimed (id : String) : claimsOf (history ++ [.claimed claim]) id =
    claimsOf history id ++ if claim.row.id = id then [claim] else [] := by
  rw [claimsOf, claims_snoc_claimed, List.filter_append, claimsOf]
  by_cases h : claim.row.id = id <;> simp [h]

theorem claimsOf_snoc_self : claimsOf (history ++ [.claimed claim]) claim.row.id =
    claimsOf history claim.row.id ++ [claim] := by
  rw [claimsOf_snoc_claimed, if_pos rfl]

/-- A claim of one row leaves the claims of the others as they are. -/
theorem claimsOf_snoc_of_ne {id : String} (h : id ≠ claim.row.id) :
    claimsOf (history ++ [.claimed claim]) id = claimsOf history id := by
  rw [claimsOf_snoc_claimed, if_neg h.symm, List.append_nil]

theorem mem_claims_snoc_claimed {claim claim' : OutboxClaim P} :
    claim' ∈ claims (history ++ [.claimed claim]) ↔ claim' ∈ claims history ∨ claim' = claim := by
  rw [claims_snoc_claimed, List.mem_append, List.mem_singleton]

section Settling
variable {history} {event : OutboxEvent P}

theorem claims_snoc_of_none (h : event.claim? = none) :
    claims (history ++ [event]) = claims history := by
  rw [claims_append]
  simp [claims, h]

theorem claimsOf_snoc_of_none (h : event.claim? = none) (id : String) :
    claimsOf (history ++ [event]) id = claimsOf history id := by
  rw [claimsOf, claims_snoc_of_none h, claimsOf]

theorem settledTokens_snoc {token : String} (h : event.settled? = some token) :
    settledTokens (history ++ [event]) = settledTokens history ++ [token] := by
  rw [settledTokens_append]
  simp [settledTokens, h]

theorem successes_snoc : successes (history ++ [event]) =
    successes history ++ event.success?.toList := by
  rw [successes_append]
  cases h : event.success? <;> simp [successes, h]

end Settling

@[simp] theorem claims_map_claimed (cs : List (OutboxClaim P)) :
    claims (cs.map OutboxEvent.claimed) = cs := by
  simp [claims, Function.comp_def, OutboxEvent.claim?]

end History

namespace InMemorySettlementOutboxStore
variable {P : Type*}

/-- What ties the rows of a store to the history of their claims. -/
structure LeaseInvariant (history : List (OutboxEvent P)) (s : InMemorySettlementOutboxStore P) :
    Prop where
  indexed : s.Indexed
  numbered : ∀ id row, s.rows.get id = some row → ∃ n ≤ s.sequence, id = memoryId n
  /-- A lease is held exactly while the row is processing. -/
  leased : ∀ id row, s.rows.get id = some row →
    (row.leaseToken.isSome ↔ row.status = .processing) ∧
    (row.leaseUntil.isSome ↔ row.status = .processing)
  attempts : ∀ id row, s.rows.get id = some row → row.attempts = (claimsOf history id).length
  /-- The row under a lease is still as its last claim left it. -/
  current : ∀ id row token, s.rows.get id = some row → row.leaseToken = some token →
    (claimsOf history id).getLast? = some ⟨row, token⟩
  known : ∀ claim ∈ claims history, (s.rows.get claim.row.id).isSome
  issued : ∀ claim ∈ claims history, ∃ n ≤ s.sequence,
    claim.leaseToken = leaseToken claim.row.id n
  distinct : ((claims history).map OutboxClaim.leaseToken).Nodup
  /-- A settled token was issued and is no longer on its row. -/
  settled : ∀ token ∈ settledTokens history,
    token ∈ (claims history).map OutboxClaim.leaseToken ∧
    ∀ id row, s.rows.get id = some row → row.leaseToken ≠ some token
  settledOnce : (settledTokens history).Nodup
  succeeded : ∀ id ∈ successes history,
    ∃ row, s.rows.get id = some row ∧ row.status = .succeeded
  succeededOnce : (successes history).Nodup

theorem leaseInvariant_empty : LeaseInvariant [] (empty : InMemorySettlementOutboxStore P) where
  indexed := indexed_empty
  numbered id row h := by simp [empty] at h
  leased id row h := by simp [empty] at h
  attempts id row h := by simp [empty] at h
  current id row token h := by simp [empty] at h
  known claim h := by simp [claims] at h
  issued claim h := by simp [claims] at h
  distinct := List.nodup_nil
  settled token h := by simp [settledTokens] at h
  settledOnce := List.nodup_nil
  succeeded id h := by simp [successes] at h
  succeededOnce := List.nodup_nil

variable {history : List (OutboxEvent P)} {s : InMemorySettlementOutboxStore P}
  {row : SettlementOutbox P}

theorem claimRow_get (row : SettlementOutbox P) (leaseMs now : ℤ) (id : String) :
    (s.claimRow row leaseMs now).2.rows.get id =
      if id = row.id then some (s.claimRow row leaseMs now).1.row else s.rows.get id :=
  InsertionMap.get_set _ _ _ _

theorem status_of_isDue {now : ℤ} (h : row.isDue now = true) :
    row.status = .pending ∨ row.status = .processing := by
  simp only [SettlementOutbox.isDue, Bool.or_eq_true, Bool.and_eq_true, decide_eq_true_eq] at h
  exact h.imp And.left And.left

/-- The next token was never issued: its number is above all earlier ones. -/
theorem LeaseInvariant.fresh (h : LeaseInvariant history s) (id : String) :
    leaseToken id (s.sequence+1) ∉ (claims history).map OutboxClaim.leaseToken := by
  intro hmem
  obtain ⟨claim,hclaim,htoken⟩ := List.mem_map.mp hmem
  obtain ⟨n,hn,hissued⟩ := h.issued claim hclaim
  have heq : n = s.sequence+1 := leaseToken_injective (hissued.symm.trans htoken)
  omega

/-- A row that is not succeeded is not among the successes. -/
theorem LeaseInvariant.not_mem_successes (h : LeaseInvariant history s) {id : String}
    (hrow : s.rows.get id = some row) (hstatus : row.status ≠ .succeeded) :
    id ∉ successes history := by
  intro hid
  obtain ⟨r,hr,hsucceeded⟩ := h.succeeded id hid
  obtain rfl := Option.some.inj (hr.symm.trans hrow)
  exact hstatus hsucceeded

section ClaimRow
variable (leaseMs now : ℤ)

theorem claimsOf_claimRow (row : SettlementOutbox P) :
    claimsOf (history ++ [.claimed (s.claimRow row leaseMs now).1]) row.id =
      claimsOf history row.id ++ [(s.claimRow row leaseMs now).1] := claimsOf_snoc_self _ _

/-- One claim more, one attempt more. -/
theorem LeaseInvariant.attempts_claimRow (h : LeaseInvariant history s)
    (hrow : s.rows.get row.id = some row) (id : String) (r : SettlementOutbox P)
    (hr : (s.claimRow row leaseMs now).2.rows.get id = some r) :
    r.attempts = (claimsOf (history ++ [.claimed (s.claimRow row leaseMs now).1]) id).length := by
  revert id r
  apply InsertionMap.forall_get_set
  · have hbefore := h.attempts row.id row hrow
    change row.attempts+1 = _
    rw [claimsOf_claimRow, List.length_append, List.length_singleton]
    omega
  · intro id r hr hid
    rw [claimsOf_snoc_of_ne _ _ hid, h.attempts id r hr]

theorem LeaseInvariant.current_claimRow (h : LeaseInvariant history s) (row : SettlementOutbox P)
    (token : String) (id : String) (r : SettlementOutbox P)
    (hr : (s.claimRow row leaseMs now).2.rows.get id = some r) (htoken : r.leaseToken = some token) :
    (claimsOf (history ++ [.claimed (s.claimRow row leaseMs now).1]) id).getLast? =
      some ⟨r, token⟩ := by
  revert htoken
  revert id r
  apply InsertionMap.forall_get_set
  · intro htoken
    obtain rfl : leaseToken row.id (s.sequence+1) = token := Option.some.inj htoken
    rw [claimsOf_claimRow, List.getLast?_concat]
    rfl
  · intro id r hr hid htoken
    rw [claimsOf_snoc_of_ne _ _ hid, h.current id r token hr htoken]

theorem LeaseInvariant.known_claimRow (h : LeaseInvariant history s) (row : SettlementOutbox P)
    {claim : OutboxClaim P}
    (hclaim : claim ∈ claims (history ++ [.claimed (s.claimRow row leaseMs now).1])) :
    ((s.claimRow row leaseMs now).2.rows.get claim.row.id).isSome := by
  rw [claimRow_get]
  split_ifs with hid
  · rfl
  · rcases (mem_claims_snoc_claimed history).mp hclaim with hold | rfl
    · exact h.known claim hold
    · exact absurd rfl hid

/-- A claim puts none of the settled tokens on its row. -/
theorem LeaseInvariant.settled_claimRow (h : LeaseInvariant history s) (row : SettlementOutbox P)
    {token : String} (htoken : token ∈ settledTokens history) (id : String)
    (r : SettlementOutbox P) (hr : (s.claimRow row leaseMs now).2.rows.get id = some r) :
    r.leaseToken ≠ some token := by
  obtain ⟨hissued,hgone⟩ := h.settled token htoken
  revert id r
  apply InsertionMap.forall_get_set
  · -- the new token has not been issued before, so it is not settled either
    intro hsame
    have hnew : leaseToken row.id (s.sequence+1) = token := Option.some.inj hsame
    exact h.fresh row.id (hnew ▸ hissued)
  · exact fun id r hr _ => hgone id r hr

theorem LeaseInvariant.succeeded_claimRow (h : LeaseInvariant history s)
    (hrow : s.rows.get row.id = some row) {now : ℤ} (hdue : row.isDue now = true) {id : String}
    (hid : id ∈ successes history) :
    ∃ r, (s.claimRow row leaseMs now).2.rows.get id = some r ∧ r.status = .succeeded := by
  -- a due row is pending or processing
  have hwaits : row.status ≠ .succeeded := by
    rcases status_of_isDue hdue with hp | hp <;> rw [hp] <;> decide
  obtain ⟨r,hr,hstatus⟩ := h.succeeded id hid
  refine ⟨r, ?_, hstatus⟩
  rw [claimRow_get, if_neg, hr]
  rintro rfl
  exact h.not_mem_successes hrow hwaits hid

end ClaimRow

theorem LeaseInvariant.claimRow (h : LeaseInvariant history s)
    (hrow : s.rows.get row.id = some row) {now : ℤ} (hdue : row.isDue now = true) (leaseMs : ℤ) :
    LeaseInvariant (history ++ [.claimed (s.claimRow row leaseMs now).1])
      (s.claimRow row leaseMs now).2 where
  indexed := by
    have hset : Indexed { s with rows := s.rows.set row.id (s.claimRow row leaseMs now).1.row } :=
      h.indexed.set hrow rfl rfl
    exact ⟨hset.own, hset.bound⟩
  numbered := by
    have hnum {id : String} (hold : ∃ n ≤ s.sequence, id = memoryId n) :
        ∃ n ≤ s.sequence+1, id = memoryId n := by
      obtain ⟨n,hn,hid⟩ := hold
      exact ⟨n, Nat.le_succ_of_le hn, hid⟩
    exact InsertionMap.forall_get_set (hnum (h.numbered row.id row hrow))
      fun id r hr _ => hnum (h.numbered id r hr)
  leased := by
    apply InsertionMap.forall_get_set
    · exact ⟨iff_of_true rfl rfl, iff_of_true rfl rfl⟩
    · exact fun id r hr _ => h.leased id r hr
  attempts := h.attempts_claimRow leaseMs now hrow
  current id r token hr htoken := h.current_claimRow leaseMs now row token id r hr htoken
  known _ hclaim := h.known_claimRow leaseMs now row hclaim
  issued claim hclaim := by
    rcases (mem_claims_snoc_claimed history).mp hclaim with hold | rfl
    · obtain ⟨n,hn,htoken⟩ := h.issued claim hold
      exact ⟨n, Nat.le_succ_of_le hn, htoken⟩
    · exact ⟨s.sequence+1, le_rfl, rfl⟩
  distinct := by
    rw [claims_snoc_claimed, List.map_append]
    change (_ ++ [leaseToken row.id (s.sequence+1)]).Nodup
    rw [← List.concat_eq_append]
    exact (List.nodup_concat _ _).mpr ⟨h.fresh row.id, h.distinct⟩
  settled token htoken := by
    rw [settledTokens_snoc_claimed] at htoken
    refine ⟨?_, h.settled_claimRow leaseMs now row htoken⟩
    rw [claims_snoc_claimed, List.map_append]
    exact List.mem_append_left _ (h.settled token htoken).1
  settledOnce := by
    rw [settledTokens_snoc_claimed]
    exact h.settledOnce
  succeeded id hid := by
    rw [successes_snoc_claimed] at hid
    exact h.succeeded_claimRow leaseMs hrow hdue hid
  succeededOnce := by
    rw [successes_snoc_claimed]
    exact h.succeededOnce

theorem LeaseInvariant.mem_claims (h : LeaseInvariant history s) {id token : String}
    (hrow : s.rows.get id = some row) (htoken : row.leaseToken = some token) :
    (⟨row, token⟩ : OutboxClaim P) ∈ claims history :=
  List.mem_of_mem_filter (List.mem_of_getLast? (h.current id row token hrow htoken))

/-- The row under the token of a claim is the row as it was claimed. -/
theorem LeaseInvariant.row_eq (h : LeaseInvariant history s) {id : String} {claim : OutboxClaim P}
    (hclaim : claim ∈ claims history) (hrow : s.rows.get id = some row)
    (htoken : row.leaseToken = some claim.leaseToken) : row = claim.row := by
  have hsame := List.inj_on_of_nodup_map h.distinct (h.mem_claims hrow htoken) hclaim rfl
  exact congrArg OutboxClaim.row hsame

/-- The lease on a row is over and its claim counts are as before. -/
structure Released (row row' : SettlementOutbox P) : Prop where
  id_eq : row'.id = row.id
  eventKey_eq : row'.eventKey = row.eventKey
  attempts_eq : row'.attempts = row.attempts
  status_ne : row'.status ≠ .processing
  leaseToken_eq : row'.leaseToken = none
  leaseUntil_eq : row'.leaseUntil = none

theorem released_succeed (row : SettlementOutbox P) (processedAt : ℤ) :
    Released row (row.succeed processedAt) :=
  ⟨rfl, rfl, rfl, by simp [SettlementOutbox.succeed], rfl, rfl⟩

theorem released_failWith (row : SettlementOutbox P) (error : Utf16) (retryAt : ℤ) (dead : Bool)
    (now : ℤ) : Released row (row.failWith error retryAt dead now) := by
  refine ⟨rfl, rfl, rfl, ?_, rfl, rfl⟩
  cases dead <;> simp [SettlementOutbox.failWith]

section Settle
variable {id token : String} {row' : SettlementOutbox P}

/-- A token is on one row only, since its claim names the row. -/
theorem LeaseInvariant.id_of_token (h : LeaseInvariant history s)
    (hrow : s.rows.get id = some row) (htoken : row.leaseToken = some token) {id' : String}
    {r : SettlementOutbox P} (hr : s.rows.get id' = some r) (hr' : r.leaseToken = some token) :
    id' = id := by
  have hsame : r = row := h.row_eq (h.mem_claims hrow htoken) hr hr'
  rw [← (h.indexed.own id' r hr).1, ← (h.indexed.own id row hrow).1, hsame]

theorem LeaseInvariant.current_settle (h : LeaseInvariant history s) (hrel : Released row row')
    (id' : String) (r : SettlementOutbox P) (hr : (s.rows.set id row').get id' = some r)
    (hr' : r.leaseToken = some token) : (claimsOf history id').getLast? = some ⟨r, token⟩ := by
  revert hr'
  revert id' r
  apply InsertionMap.forall_get_set
  · intro hr'
    rw [hrel.leaseToken_eq] at hr'
    cases hr'
  · exact fun id' r hr _ hr' => h.current id' r token hr hr'

/-- The token that settles the row leaves it, and is on no other. -/
theorem LeaseInvariant.settled_settle (h : LeaseInvariant history s)
    (hrow : s.rows.get id = some row) (htoken : row.leaseToken = some token)
    (hrel : Released row row') {token' : String}
    (htoken' : token' ∈ settledTokens history ++ [token]) :
    token' ∈ (claims history).map OutboxClaim.leaseToken ∧
      ∀ id' r, (s.rows.set id row').get id' = some r → r.leaseToken ≠ some token' := by
  rw [List.mem_append, List.mem_singleton] at htoken'
  constructor
  · rcases htoken' with hold | rfl
    · exact (h.settled token' hold).1
    · exact List.mem_map_of_mem (h.mem_claims hrow htoken)
  · apply InsertionMap.forall_get_set
    · rw [hrel.leaseToken_eq]
      exact nofun
    · intro id' r hr hid
      rcases htoken' with hold | rfl
      · exact (h.settled token' hold).2 id' r hr
      · exact fun hr' => hid (h.id_of_token hrow htoken hr hr')

theorem LeaseInvariant.succeeded_settle (h : LeaseInvariant history s)
    (hfresh : id ∉ successes history) {event : OutboxEvent P}
    (hsuccess : event.success? = none ∨ event.success? = some id ∧ row'.status = .succeeded)
    {id' : String} (hid' : id' ∈ successes history ++ event.success?.toList) :
    ∃ r, (s.rows.set id row').get id' = some r ∧ r.status = .succeeded := by
  rw [InsertionMap.get_set]
  rcases List.mem_append.mp hid' with hold | hnew
  · obtain ⟨r,hr,hstatus⟩ := h.succeeded id' hold
    have hne : id' ≠ id := fun he => hfresh (he ▸ hold)
    exact ⟨r, by rw [if_neg hne, hr], hstatus⟩
  · rcases hsuccess with hnone | ⟨hsome,hstatus⟩
    · simp [hnone] at hnew
    · obtain rfl : id' = id := by simpa [hsome] using hnew
      exact ⟨row', if_pos rfl, hstatus⟩

theorem LeaseInvariant.settle (h : LeaseInvariant history s) {event : OutboxEvent P}
    (hrow : s.rows.get id = some row) (htoken : row.leaseToken = some token)
    (hrel : Released row row') (hclaim : event.claim? = none)
    (hsettled : event.settled? = some token)
    (hsuccess : event.success? = none ∨ event.success? = some id ∧ row'.status = .succeeded) :
    LeaseInvariant (history ++ [event]) { s with rows := s.rows.set id row' } := by
  have hclaims : claims (history ++ [event]) = claims history := claims_snoc_of_none hclaim
  have hprocessing : row.status = .processing :=
    (h.leased id row hrow).1.mp (by rw [htoken]; rfl)
  have hfresh : id ∉ successes history :=
    h.not_mem_successes hrow (by rw [hprocessing]; decide)
  constructor
  case indexed => exact h.indexed.set hrow hrel.id_eq hrel.eventKey_eq
  case numbered =>
    exact InsertionMap.forall_get_set (h.numbered id row hrow) fun id' r hr _ => h.numbered id' r hr
  case leased =>
    apply InsertionMap.forall_get_set
    · rw [hrel.leaseToken_eq, hrel.leaseUntil_eq]
      exact ⟨iff_of_false (by simp) hrel.status_ne, iff_of_false (by simp) hrel.status_ne⟩
    · exact fun id' r hr _ => h.leased id' r hr
  case attempts =>
    simp only [claimsOf_snoc_of_none hclaim]
    apply InsertionMap.forall_get_set
    · rw [hrel.attempts_eq]
      exact h.attempts id row hrow
    · exact fun id' r hr _ => h.attempts id' r hr
  case current =>
    intro id' r token' hr hr'
    rw [claimsOf_snoc_of_none hclaim]
    exact h.current_settle hrel id' r hr hr'
  case known =>
    intro claim hc
    rw [hclaims] at hc
    change ((s.rows.set id row').get claim.row.id).isSome
    rw [InsertionMap.get_set]
    split_ifs
    · rfl
    · exact h.known claim hc
  case issued =>
    rw [hclaims]
    exact h.issued
  case distinct =>
    rw [hclaims]
    exact h.distinct
  case settled =>
    intro token' htoken'
    rw [settledTokens_snoc hsettled] at htoken'
    rw [hclaims]
    exact h.settled_settle hrow htoken hrel htoken'
  case settledOnce =>
    rw [settledTokens_snoc hsettled, ← List.concat_eq_append]
    apply (List.nodup_concat _ _).mpr
    exact ⟨fun hm => (h.settled token hm).2 id row hrow htoken, h.settledOnce⟩
  case succeeded =>
    intro id' hid'
    rw [successes_snoc] at hid'
    exact h.succeeded_settle hfresh hsuccess hid'
  case succeededOnce =>
    rw [successes_snoc]
    rcases hsuccess with hnone | ⟨hsome,_⟩
    · rw [hnone]
      simpa using h.succeededOnce
    · rw [hsome, Option.toList_some, ← List.concat_eq_append]
      exact (List.nodup_concat _ _).mpr ⟨hfresh, h.succeededOnce⟩

end Settle

/-- A new row, as `enqueue` makes it of an input without lease columns. -/
structure Unclaimed (row : SettlementOutbox P) : Prop where
  status_eq : row.status = .pending
  attempts_eq : row.attempts = 0
  leaseToken_eq : row.leaseToken = none
  leaseUntil_eq : row.leaseUntil = none

theorem LeaseInvariant.get_memoryId (h : LeaseInvariant history s) :
    s.rows.get (memoryId (s.sequence+1)) = none := by
  cases hget : s.rows.get (memoryId (s.sequence+1)) with
  | none => rfl
  | some row =>
    obtain ⟨n,hn,hid⟩ := h.numbered _ row hget
    have heq := memoryId_injective hid
    omega

theorem memoryId_ne_empty (n : ℕ) : memoryId n ≠ "" := by
  intro hid
  have hstem := (String.append_eq_empty_iff.mp hid).1
  exact absurd hstem (by decide)

theorem LeaseInvariant.insert (h : LeaseInvariant history s) (hnew : Unclaimed row)
    (hid : row.id = memoryId (s.sequence+1)) (hkey : s.keys.get row.eventKey = none) :
    LeaseInvariant history
      ⟨s.rows.set row.id row, s.keys.set row.eventKey row.id, s.sequence+1⟩ := by
  have hfree : s.rows.get row.id = none := hid ▸ h.get_memoryId
  have hget (id : String) : (s.rows.set row.id row).get id =
      if id = row.id then some row else s.rows.get id := InsertionMap.get_set _ _ _ _
  -- no claim names the new row yet
  have hunclaimed : claimsOf history row.id = [] := by
    apply List.filter_eq_nil_iff.mpr
    intro claim hclaim hsame
    have hknown := h.known claim hclaim
    rw [of_decide_eq_true hsame, hfree] at hknown
    cases hknown
  constructor
  case indexed =>
    exact h.indexed.insert (s.sequence+1) hfree hkey (hid ▸ memoryId_ne_empty _)
  case numbered =>
    apply InsertionMap.forall_get_set
    · exact ⟨s.sequence+1, le_rfl, hid⟩
    · intro id r hr _
      obtain ⟨n,hn,hid'⟩ := h.numbered id r hr
      exact ⟨n, Nat.le_succ_of_le hn, hid'⟩
  case leased =>
    apply InsertionMap.forall_get_set
    · simp [hnew.status_eq, hnew.leaseToken_eq, hnew.leaseUntil_eq]
    · exact fun id r hr _ => h.leased id r hr
  case attempts =>
    apply InsertionMap.forall_get_set
    · rw [hunclaimed]
      exact hnew.attempts_eq
    · exact fun id r hr _ => h.attempts id r hr
  case current =>
    intro id r token hr
    revert id r
    apply InsertionMap.forall_get_set
    · intro htoken
      rw [hnew.leaseToken_eq] at htoken
      cases htoken
    · exact fun id r hr _ htoken => h.current id r token hr htoken
  case known =>
    intro claim hclaim
    rw [hget]
    split_ifs
    · rfl
    · exact h.known claim hclaim
  case issued =>
    intro claim hclaim
    obtain ⟨n,hn,htoken⟩ := h.issued claim hclaim
    exact ⟨n, Nat.le_succ_of_le hn, htoken⟩
  case distinct => exact h.distinct
  case settled =>
    intro token htoken
    obtain ⟨hissued,hgone⟩ := h.settled token htoken
    refine ⟨hissued, InsertionMap.forall_get_set ?_ fun id r hr _ => hgone id r hr⟩
    simp [hnew.leaseToken_eq]
  case settledOnce => exact h.settledOnce
  case succeeded =>
    intro id hsucc
    obtain ⟨r,hr,hstatus⟩ := h.succeeded id hsucc
    have hne : id ≠ row.id := fun he => by
      rw [he, hfree] at hr
      cases hr
    exact ⟨r, by rw [hget, if_neg hne, hr], hstatus⟩
  case succeededOnce => exact h.succeededOnce

end InMemorySettlementOutboxStore

end StreamPay
