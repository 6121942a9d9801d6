import StreamPay.SettlementOutboxDatabaseLeases

/-! What the retries of `processDue` come to over the PostgreSQL outbox, whose claims
leave `attempts` as it is. -/
namespace StreamPay
open Interleaving SettlementOutboxRepository

/-- The claims that a call has not settled. -/
def DatabaseWorker.pending {P : Type*} : DatabaseWorker P → List (OutboxClaim P)
  | .working claims _ => claims
  | .handling claim rest _ | .acknowledging claim rest _ _ | .failing claim rest _ _ _ _ =>
    claim :: rest
  | _ => []

namespace OutboxDatabase
variable {ι P : Type*} {driver : OutboxDriver P} {handlers : ι → String → Bool}
  {s t : OutboxDatabase ι P}

/-- No worker but one without a handler gives up a row that allows an attempt. -/
def GivenUp (handlers : ι → String → Bool) (eventType : String) (maxAttempts : ℤ) : Prop :=
  maxAttempts < 1 ∨ ∃ i, handlers i eventType = false

/-- A row that was never counted an attempt, and waits five seconds at most. -/
structure Unraised (handlers : ι → String → Bool) (now : ℤ) (row : SettlementOutbox P) : Prop where
  attempts : row.attempts = 0
  pending : row.status = .pending → row.availableAt ≤ now+5000
  dead : row.status = .dead → GivenUp handlers row.eventType row.maxAttempts

/-- The claim is of a row of the table, as far as the retries go. -/
def ClaimOf (table : SettlementOutboxTable P) (claim : OutboxClaim P) : Prop :=
  claim.row.attempts = 0 ∧ ∃ row, table.rowById claim.row.id = some row ∧
    row.eventType = claim.row.eventType ∧ row.maxAttempts = claim.row.maxAttempts

structure Retries (handlers : ι → String → Bool) (s : OutboxDatabase ι P) : Prop where
  rows : ∀ id row, s.table.rowById id = some row → Unraised handlers s.now row
  claims : ∀ i, ∀ claim ∈ (s.workers i).pending, ClaimOf s.table claim
  failing : ∀ i claim rest summary error retryAt isDead,
    s.workers i = .failing claim rest summary error retryAt isDead →
    retryAt ≤ s.now+5000 ∧
      (isDead = true → GivenUp handlers claim.row.eventType claim.row.maxAttempts)

theorem retryDelay_zero : retryDelay 0 = 5000 := by decide

theorem Unraised.mono {row : SettlementOutbox P} {now now' : ℤ} (h : Unraised handlers now row)
    (hle : now ≤ now') : Unraised handlers now' row where
  attempts := h.attempts
  pending hpending := (h.pending hpending).trans (Int.add_le_add_right hle 5000)
  dead := h.dead

variable [DecidableEq ι]

theorem now_of_move {a : DatabaseAction ι P} (ht : Move driver handlers s a t) :
    s.now ≤ t.now := by
  cases ht with
  | tick elapsed => exact Int.le_add_of_nonneg_right (Int.natCast_nonneg elapsed)
  | decline | enqueue | claim | lock | skip | commit | finish | handle | giveUp | resolve |
    reject | acknowledge | unacknowledged | fail | unfailed | crash => exact le_rfl

omit [DecidableEq ι] in
/-- The row of a claim keeps what the retries read of it. -/
theorem ClaimOf.of_tableStep {a : DatabaseAction ι P} {table : SettlementOutboxTable P}
    (ht : TableStep driver s a table) {claim : OutboxClaim P} (h : ClaimOf s.table claim) :
    ClaimOf table claim := by
  obtain ⟨hattempts,row,hrow,htype,hmax⟩ := h
  have hupdate {f : RowUpdate P} {test : SettlementOutbox P → Bool}
      (hsame : ∀ row, (f.apply row).eventType = row.eventType ∧
        (f.apply row).maxAttempts = row.maxAttempts) :
      ClaimOf (s.table.update (f.onlyIf test)) claim := by
    refine ⟨hattempts, (f.onlyIf test).apply row, ?_, ?_⟩
    · rw [SettlementOutboxTable.rowById_update, hrow, Option.map_some]
    · simp only [RowUpdate.onlyIf]
      split_ifs
      · rw [(hsame row).1, (hsame row).2]
        exact ⟨htype, hmax⟩
      · exact ⟨htype, hmax⟩
  cases ht with
  | same _ => exact ⟨hattempts, row, hrow, htype, hmax⟩
  | enqueue effect input generated systemNow _ =>
    refine ⟨hattempts, row, ?_, htype, hmax⟩
    rcases rowById_enqueue s.table driver input generated systemNow claim.row.id with
      hsame | ⟨hnone,_⟩
    · rw [hsame, hrow]
    · rw [hrow] at hnone
      cases hnone
  | commit i query left locked _ => exact hupdate fun _ => ⟨rfl, rfl⟩
  | succeed i outcome claim' rest summary processedAt _ _ _ => exact hupdate fun _ => ⟨rfl, rfl⟩
  | failWith i outcome systemNow claim' rest summary error lastError retryAt isDead _ _ _ =>
    exact hupdate fun _ => ⟨rfl, rfl⟩

omit [DecidableEq ι] in
/-- The claims of a statement are of rows that it has leased. -/
theorem Retries.claimOf_claimRows (h : Retries handlers s) {locked : List String}
    {query : ClaimQuery} {claim : OutboxClaim P}
    (hclaim : claim ∈ (claimRows driver s.table locked query).1) :
    ClaimOf (claimRows driver s.table locked query).2 claim := by
  obtain ⟨leased,hleased,rfl⟩ := List.mem_map.mp hclaim
  obtain ⟨row,hrow,rfl⟩ := List.mem_map.mp hleased
  obtain ⟨hmem,hid⟩ := List.mem_filter.mp hrow
  have hget := SettlementOutboxTable.rowById_of_mem hmem
  have hunraised := (h.rows row.id row hget).attempts
  have hlocked : row.id ∈ locked := of_decide_eq_true hid
  have hafter := rowById_claimRows s.table driver locked query row.id
  rw [if_pos hlocked, hget, Option.map_some] at hafter
  simp only [ClaimOf, asOutboxRow, RowUpdate.onlyIf, hid, if_true]
  exact ⟨hunraised, _, hafter, rfl, rfl⟩

omit [DecidableEq ι] in
theorem Retries.rows_of_tableStep (h : Retries handlers s) {a : DatabaseAction ι P}
    {table : SettlementOutboxTable P} (ht : TableStep driver s a table) (id : String)
    (row : SettlementOutbox P) (hrow : table.rowById id = some row) :
    Unraised handlers s.now row := by
  have hmark {claim : OutboxClaim P} {f : RowUpdate P}
      (hupdated : ∀ before, s.table.rowById claim.row.id = some before →
        Unraised handlers s.now before → Unraised handlers s.now (f.apply before))
      (hrow : (mark s.table claim.row.id claim.leaseToken f).2.rowById id = some row) :
      Unraised handlers s.now row := by
    rw [rowById_mark] at hrow
    split_ifs at hrow with hmarked
    · obtain ⟨before,hbefore,rfl⟩ := Option.map_eq_some_iff.mp hrow
      exact hupdated before (hmarked.1 ▸ hbefore) (h.rows id before hbefore)
    · exact h.rows id row hrow
  cases ht with
  | same _ => exact h.rows id row hrow
  | enqueue effect input generated systemNow hinput =>
    rcases rowById_enqueue s.table driver input generated systemNow id with
      hsame | ⟨_,new,hstored,hnew⟩
    · exact h.rows id row (hsame ▸ hrow)
    · obtain rfl := Option.some.inj (hnew.symm.trans hrow)
      obtain ⟨hstatus,hattempts,havailable,_,_⟩ := storedRow_newRow hinput hstored
      -- it is available at once
      exact ⟨hattempts, fun _ => havailable ▸ Int.le_add_of_nonneg_right (by decide),
        hstatus ▸ SettlementOutboxStatus.noConfusion⟩
  | commit i query left locked _ =>
    rw [rowById_claimRows] at hrow
    split_ifs at hrow
    · obtain ⟨before,hbefore,rfl⟩ := Option.map_eq_some_iff.mp hrow
      exact ⟨(h.rows id before hbefore).attempts, SettlementOutboxStatus.noConfusion,
        SettlementOutboxStatus.noConfusion⟩
    · exact h.rows id row hrow
  | succeed i outcome claim rest summary processedAt _ _ _ =>
    refine hmark (fun before _ hbefore => ?_) hrow
    exact ⟨hbefore.attempts, SettlementOutboxStatus.noConfusion, SettlementOutboxStatus.noConfusion⟩
  | failWith i outcome systemNow claim rest summary error lastError retryAt isDead hfailing _ _ =>
    refine hmark (fun before hget hbefore => ?_) hrow
    obtain ⟨hretry,hdead⟩ := h.failing i claim rest summary error retryAt isDead hfailing
    have hclaim : ClaimOf s.table claim :=
      h.claims i claim (by rw [hfailing]; exact List.mem_cons_self)
    obtain ⟨_,row',hrow',htype,hmax⟩ := hclaim
    obtain rfl := Option.some.inj (hget.symm.trans hrow')
    refine ⟨hbefore.attempts, fun _ => hretry, fun hstatus => ?_⟩
    have hisDead : isDead = true := by
      cases isDead with
      | true => rfl
      | false => cases hstatus
    have hgivenUp := hdead hisDead
    rw [← htype, ← hmax] at hgivenUp
    exact hgivenUp

theorem Retries.claims_of_workerStep (h : Retries handlers s) {a : DatabaseAction ι P} {j : ι}
    {worker : DatabaseWorker P} (hstep : WorkerStep driver handlers s j a worker)
    (ht : Move driver handlers s a t) (claim : OutboxClaim P)
    (hclaim : claim ∈ worker.pending) : ClaimOf t.table claim := by
  have hkept (hpending : claim ∈ (s.workers j).pending) : ClaimOf t.table claim :=
    (h.claims j claim hpending).of_tableStep (tableStep_of_move ht)
  cases hstep with
  | same => exact hkept hclaim
  | claim limit token _ => cases hclaim
  | lock query id left locked _ _ => cases hclaim
  | skip query id left locked _ _ => cases hclaim
  | returned summary _ => cases hclaim
  | threw => cases hclaim
  | commit query left locked hclaiming =>
    cases ht with
    | commit _ query' left' locked' hbefore =>
      obtain ⟨rfl,_,rfl⟩ := DatabaseWorker.claiming.inj (hclaiming.symm.trans hbefore)
      exact h.claimOf_claimRows hclaim
  | handle claim' rest summary hworking _ =>
    apply hkept
    rw [hworking]
    exact hclaim
  | noHandler claim' rest summary hworking _ =>
    apply hkept
    rw [hworking]
    exact hclaim
  | resolved claim' rest summary hhandling =>
    apply hkept
    rw [hhandling]
    exact hclaim
  | rejected claim' rest summary message hworker =>
    apply hkept
    rcases hworker with hhandling | ⟨processedAt,hacknowledging⟩
    · rw [hhandling]
      exact hclaim
    · rw [hacknowledging]
      exact hclaim
  | settled claim' rest summary summary' hworker =>
    apply hkept
    rcases hworker with ⟨processedAt,hacknowledging⟩ | ⟨error,retryAt,isDead,hfailing⟩
    · rw [hacknowledging]
      exact List.mem_cons_of_mem _ hclaim
    · rw [hfailing]
      exact List.mem_cons_of_mem _ hclaim

omit [DecidableEq ι] in
theorem Retries.failing_of_workerStep (h : Retries handlers s) {a : DatabaseAction ι P} {j : ι}
    {worker : DatabaseWorker P} (hstep : WorkerStep driver handlers s j a worker)
    {claim : OutboxClaim P} {rest : List (OutboxClaim P)} {summary : OutboxSummary} {error : Utf16}
    {retryAt : ℤ} {isDead : Bool}
    (hworker : worker = .failing claim rest summary error retryAt isDead) :
    retryAt ≤ s.now+5000 ∧
      (isDead = true → GivenUp handlers claim.row.eventType claim.row.maxAttempts) := by
  cases hstep with
  | same => exact h.failing j claim rest summary error retryAt isDead hworker
  | noHandler claim' rest' summary' _ hhandler =>
    obtain ⟨rfl,_,_,_,rfl,_⟩ := DatabaseWorker.failing.inj hworker
    exact ⟨Int.le_add_of_nonneg_right (by decide), fun _ => Or.inr ⟨j, hhandler⟩⟩
  | rejected claim' rest' summary' message hbefore =>
    obtain ⟨rfl,_,_,_,rfl,rfl⟩ := DatabaseWorker.failing.inj hworker
    have hattempts : claim'.row.attempts = 0 := by
      refine (h.claims j claim' ?_).1
      rcases hbefore with hhandling | ⟨processedAt,hacknowledging⟩
      · rw [hhandling]
        exact List.mem_cons_self
      · rw [hacknowledging]
        exact List.mem_cons_self
    rw [hattempts, retryDelay_zero]
    exact ⟨le_rfl, fun hdead => Or.inl (Int.lt_add_one_of_le (of_decide_eq_true hdead))⟩
  | claim | lock | skip | commit | returned | handle | resolved | settled | threw => cases hworker

theorem Retries.move (h : Retries handlers s) {a : DatabaseAction ι P}
    (ht : Move driver handlers s a t) : Retries handlers t where
  rows id row hrow :=
    (h.rows_of_tableStep (tableStep_of_move ht) id row hrow).mono (now_of_move ht)
  claims i claim hclaim := h.claims_of_workerStep (workerStep_of_move ht i) ht claim hclaim
  failing i claim rest summary error retryAt isDead hfailing := by
    obtain ⟨hretry,hdead⟩ := h.failing_of_workerStep (workerStep_of_move ht i) hfailing
    exact ⟨hretry.trans (Int.add_le_add_right (now_of_move ht) 5000), hdead⟩

section SampleRetries

end SampleRetries

end OutboxDatabase

end StreamPay
